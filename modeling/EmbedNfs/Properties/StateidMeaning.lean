import EmbedNfs.Properties.RecallCompleteness

/-!
# Stateids keep their meaning

A client may hold on to a stateid for as long as it likes. Whatever becomes of the state behind it,
the stateid never comes to stand for another object or another client, until the counter of
stateids has come round.
-/

namespace EmbedNfs

variable {H α : Type} [DecidableEq H] {backend : Backend H} {boot : Boot}
  {threads : List (Request H α)} {tr tr' : Trace H}
  {c c' : Machine H α} {k : StateidOther}

/-- A table whose entries keep their identity in every section keeps that of an entry with a number
already issued: what is made later has a later number. -/
theorem System.Run.identity_eq {V : Type} {identity : V → Identity}
    {table : StateInner → Table StateidOther V}
    (hsection : ∀ s q, Descends identity s (table (s.runSection q).2.inner) (table s.inner))
    (hdrift : ∀ s s' : StateManager, s.Drift s' → (table s.inner).Same (table s'.inner))
    (hrun : (Server.system backend).Run ⟨Server.new H boot, threads⟩ tr c)
    (hrun' : (Server.system backend).Run c tr' c') (hissued : stateidsIssued (tr ++ tr') < 2 ^ 32)
    (hold : Issued k tr) {a : V}
    (ha : (table c.state.state.inner).get k = some a) (b : V)
    (hb : (table c'.state.state.inner).get k = some b) : identity b = identity a := by
  -- Until the counter comes round, whatever is stored under `k` is what `a` was.
  refine hrun'.invariant_history (I := fun tr' s => stateidsIssued (tr ++ tr') < 2 ^ 32 → ∀ b,
    (table s.state.inner).get k = some b → identity b = identity a) ?_ ?_ ?_ hissued b hb
  · intro _ b hb
    cases ha.symm.trans hb
    rfl
  · exact fun tr' s s' ih hd hissued b hb => ih hissued b ((hdrift _ _ hd.state k).trans hb)
  · intro tr' e c'' hrun'' hexec ih hissued b hb
    have hmono := stateidsIssued_le_concat (tr ++ tr') e
    rw [List.append_assoc] at hmono
    have hdescends : Descends identity e.before.state (table e.after.state.inner)
        (table e.before.state.inner) := by
      rcases Server.exec_inner hexec with ⟨q, -, hs⟩ | hs
      · rw [hs]
        exact hsection _ q
      · rw [hs]
        exact .refl
    rcases hdescends k b hb with ⟨a', ha', heq⟩ | ⟨-, hk⟩
    · exact heq.trans (ih (by omega) a' ha')
    · -- A new entry takes the counter's number, which is beyond that of `k`.
      obtain ⟨ts, p, hbefore, -⟩ := hrun''.last
      obtain ⟨i, hi, hnumber⟩ := hold
      have hle := stateidsIssued_le_append tr tr'
      rw [hk, StateidOther.number_mint, (hrun.trans hbefore).nextStateid_eq] at hnumber
      have := ofNat_add_injective (by omega) (by omega) hnumber
      omega

/-- **Stateids keep their meaning.** Take two points of a run, with fewer than `2 ^ 32` stateids
issued. A stateid that names an open at both names one of the same object and the same client, and
likewise for lock states and delegations. -/
theorem stateid_keeps_meaning
    (hrun : (Server.system backend).Run ⟨Server.new H boot, threads⟩ tr c)
    (hrun' : (Server.system backend).Run c tr' c') (hissued : stateidsIssued (tr ++ tr') < 2 ^ 32)
    (k : StateidOther) :
    (∀ a b, c.state.state.inner.openFiles.get k = some a →
      c'.state.state.inner.openFiles.get k = some b → b.identity = a.identity) ∧
    (∀ a b, c.state.state.inner.lockFiles.get k = some a →
      c'.state.state.inner.lockFiles.get k = some b → b.identity = a.identity) ∧
    ∀ a b, c.state.state.inner.delegations.get k = some a →
      c'.state.state.inner.delegations.get k = some b → b.identity = a.identity := by
  have hversions := hrun.versionHistory (lt_of_le_of_lt (stateidsIssued_le_append tr tr') hissued)
  refine ⟨fun a b ha hb => ?_, fun a b ha hb => ?_, fun a b ha hb => ?_⟩
  · exact hrun.identity_eq (fun s q => (s.runSection_descends q).openFiles)
      (fun _ _ hd => hd.openFiles) hrun' hissued
      (hversions.issued k (hversions.stored k _ (.opened a ha rfl)).1) ha b hb
  · exact hrun.identity_eq (fun s q => (s.runSection_descends q).lockFiles)
      (fun _ _ hd => hd.lockFiles) hrun' hissued
      (hversions.issued k (hversions.stored k _ (.locked a ha rfl)).1) ha b hb
  · exact hrun.identity_eq (fun s q => (s.runSection_descends q).delegations)
      (fun _ _ hd => hd.delegations) hrun' hissued (hrun.delegationHistory.issued k a ha) ha b hb

namespace Scripted

/-- A client opens two objects. Then it closes the second, opens a third one and opens the first
again. -/
def reopenSections : List Section :=
  sessionSetUp ++ [.createOpenState (.fs 1) ⟨1, [1]⟩ 1 0, .createOpenState (.fs 2) ⟨1, [1]⟩ 1 0,
    .closeState ⟨1, .mint 2 1⟩, .freeStateid ⟨2, .mint 2 1⟩,
    .createOpenState (.fs 3) ⟨1, [1]⟩ 1 0, .createOpenState (.fs 1) ⟨1, [1]⟩ 2 0]

/-- The run up to the two opens. -/
def firstOpens : Trace Unit × Machine Unit Unit :=
  (Server.scripted Backend.single .someFile).play
    ⟨Server.new Unit .fixed, reopenSections.map (Server.sectionThread ())⟩ [0, 1, 2, 3]

/-- The rest of it. -/
def reopened : Trace Unit × Machine Unit Unit :=
  (Server.scripted Backend.single .someFile).play firstOpens.2 [4, 5, 6, 7]

end Scripted

open Scripted in
/-- One open goes and another one is made, and the stateid of the open that stays still names it. -/
theorem stateid_keeps_meaning_later :
    let before := firstOpens.2.state.state.inner.openFiles
    let after := reopened.2.state.state.inner.openFiles
    before.entries.map Prod.fst = [.mint 2 1, .mint 1 1] ∧
    after.entries.map Prod.fst = [.mint 3 1, .mint 1 1] ∧
    ∃ a b, before.get (.mint 1 1) = some a ∧ after.get (.mint 1 1) = some b ∧
      a.stateidSeq = 1 ∧ b.stateidSeq = 2 ∧ b.identity = a.identity := by
  intro before after
  have hrun : (Server.system Backend.single).Run _ firstOpens.1 firstOpens.2 :=
    System.Resolver.play_run _ _ _
  have hrun' : (Server.system Backend.single).Run firstOpens.2 reopened.1 reopened.2 :=
    System.Resolver.play_run _ _ _
  have hissued : stateidsIssued (firstOpens.1 ++ reopened.1) < 2 ^ 32 := by decide +kernel
  have hbefore : before.get (.mint 1 1) = some ⟨.fs 1, 1, [1], 1, true, 1, 0⟩ := by decide +kernel
  have hafter : after.get (.mint 1 1) = some ⟨.fs 1, 1, [1], 2, true, 3, 0⟩ := by decide +kernel
  exact ⟨by decide +kernel, by decide +kernel, _, _, hbefore, hafter, rfl, rfl,
    (stateid_keeps_meaning hrun hrun' hissued (.mint 1 1)).1 _ _ hbefore hafter⟩

end EmbedNfs

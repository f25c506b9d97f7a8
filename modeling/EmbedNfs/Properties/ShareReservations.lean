import EmbedNfs.Effects.Calls
import EmbedNfs.Effects.Opens
import EmbedNfs.Server.Scripted

/-!
# Share reservations

Two different active opens of one object never deny each other's access, and an open owner
has at most one active open of an object. The pairwise relation survives narrowing, so the
only section to look at is `createOpenState`: it checks the shares it is about to install,
the union in the case of an upgrade, against every other active open under the same lock.
-/

namespace EmbedNfs

/-! ## Bit masks -/

theorem and_eq_zero_of_narrowed {w : Nat} {x y u v : BitVec w} (hx : x &&& ~~~y = 0)
    (hu : u &&& ~~~v = 0) (h : y &&& v = 0) : x &&& u = 0 := by
  ext i hi
  have hx' := congrArg (fun z : BitVec w => z[i]) hx
  have hu' := congrArg (fun z : BitVec w => z[i]) hu
  have h' := congrArg (fun z : BitVec w => z[i]) h
  simp only [BitVec.getElem_and, BitVec.getElem_not] at *
  revert hx' hu' h'
  cases x[i] <;> cases y[i] <;> cases u[i] <;> cases v[i] <;> simp

/-! ## The invariant -/

/-- The two opens are active opens of one object. -/
structure OpenFileState.Meets (a b : OpenFileState) : Prop where
  left : a.active = true
  right : b.active = true
  object : a.object = b.object

/-- No open denies what another has, and no owner has two opens of an object. -/
structure ShareReserved (opens : Table StateidOther OpenFileState) : Prop where
  denies : ∀ k a l b, opens.get k = some a → opens.get l = some b → k ≠ l → a.Meets b →
    a.shareDeny &&& b.shareAccess = 0
  unique : ∀ k a l b, opens.get k = some a → opens.get l = some b → a.Meets b →
    a.clientid = b.clientid → a.owner = b.owner → k = l

theorem OpenFileState.Meets.of_narrowed {a b a' b' : OpenFileState} (h : a.Meets b)
    (ha : a.Narrowed a') (hb : b.Narrowed b') : a'.Meets b' :=
  ⟨ha.active h.left, hb.active h.right, by rw [← ha.object, ← hb.object, h.object]⟩

theorem ShareReserved.of_narrowed {t u : Table StateidOther OpenFileState}
    (h : ShareReserved u) (ht : OpensNarrowed t u) : ShareReserved t := by
  constructor
  · intro k a l b ha hb hne hmeet
    obtain ⟨a', ha', hna⟩ := ht k a ha
    obtain ⟨b', hb', hnb⟩ := ht l b hb
    exact and_eq_zero_of_narrowed hna.shareDeny hnb.shareAccess
      (h.denies k a' l b' ha' hb' hne (hmeet.of_narrowed hna hnb))
  · intro k a l b ha hb hmeet hclient howner
    obtain ⟨a', ha', hna⟩ := ht k a ha
    obtain ⟨b', hb', hnb⟩ := ht l b hb
    refine h.unique k a' l b' ha' hb' (hmeet.of_narrowed hna hnb) ?_ ?_
    · rw [← hna.clientid, ← hnb.clientid, hclient]
    · rw [← hna.owner, ← hnb.owner, howner]

/-! ## `createOpenState` -/

namespace StateManager

theorem of_shareConflict_eq_false {s : StateManager} {object : ServerObject}
    {own : Option StateidOther} {access deny : U32}
    (h : s.shareConflict object own access deny = false) {k : StateidOther} {a : OpenFileState}
    (ha : s.inner.openFiles.get k = some a) (hactive : a.active = true) (hk : some k ≠ own)
    (hobject : a.object = object) :
    a.shareDeny &&& access = 0 ∧ deny &&& a.shareAccess = 0 := by
  have hnone := Table.any_eq_false.mp h k a ha
  simp only [decide_eq_false_iff_not] at hnone
  by_contra hcon
  exact hnone ⟨hactive, hk, hobject, by tauto⟩

theorem of_existingOpen_eq_none {s : StateManager} {object : ServerObject} {owner : StateOwner4}
    (h : s.existingOpen object owner = none) {k : StateidOther} {a : OpenFileState}
    (ha : s.inner.openFiles.get k = some a) (hactive : a.active = true)
    (hobject : a.object = object) (hclient : a.clientid = owner.clientid) :
    a.owner ≠ owner.owner := by
  have hnone := Table.find?_eq_none.mp h k a ha
  simp only [decide_eq_false_iff_not] at hnone
  exact fun howner => hnone ⟨hactive, hobject, hclient, howner⟩

theorem of_existingOpen_eq_some {s : StateManager} {object : ServerObject} {owner : StateOwner4}
    {other : StateidOther} {a : OpenFileState} (h : s.existingOpen object owner = some (other, a)) :
    s.inner.openFiles.get other = some a ∧ a.active = true ∧ a.object = object ∧
      a.clientid = owner.clientid ∧ a.owner = owner.owner := by
  obtain ⟨hget, hp⟩ := Table.of_find?_eq_some h
  simp only [decide_eq_true_eq] at hp
  exact ⟨hget, hp⟩

theorem shareReserved_insert {s : StateManager} {object : ServerObject} {owner : StateOwner4}
    {access deny : U32} {other : StateidOther} {new : OpenFileState}
    (h : ShareReserved s.inner.openFiles) (hnew : new.object = object)
    (hclient : new.clientid = owner.clientid) (howner : new.owner = owner.owner)
    (haccess : new.shareAccess = access) (hdeny : new.shareDeny = deny)
    (hnone : s.existingOpen object owner = none)
    (hconflict : s.shareConflict object none access deny = false) :
    ShareReserved (s.inner.openFiles.insert other new) := by
  -- An open that was there before and meets the new one has been checked against it.
  have hcheck : ∀ k a, s.inner.openFiles.get k = some a → a.active = true →
      a.object = new.object → a.shareDeny &&& new.shareAccess = 0 ∧
        new.shareDeny &&& a.shareAccess = 0 := by
    intro k a ha hactive hobject
    rw [haccess, hdeny]
    exact of_shareConflict_eq_false hconflict ha hactive (by simp) (hobject.trans hnew)
  have hother : ∀ k a, s.inner.openFiles.get k = some a → a.active = true →
      a.object = new.object → a.clientid = new.clientid → a.owner ≠ new.owner := by
    intro k a ha hactive hobject hc
    rw [howner]
    exact of_existingOpen_eq_none hnone ha hactive (hobject.trans hnew) (hc.trans hclient)
  constructor
  · intro k a l b ha hb hne hmeet
    rw [Table.get_insert] at ha hb
    split at ha <;> split at hb
    · exact absurd (by simp_all) hne
    · cases ha
      exact (hcheck l b hb hmeet.right hmeet.object.symm).2
    · cases hb
      exact (hcheck k a ha hmeet.left hmeet.object).1
    · exact h.denies k a l b ha hb hne hmeet
  · intro k a l b ha hb hmeet hc ho
    rw [Table.get_insert] at ha hb
    split at ha <;> split at hb
    · simp_all
    · cases ha
      exact absurd ho.symm (hother l b hb hmeet.right hmeet.object.symm hc.symm)
    · cases hb
      exact absurd ho (hother k a ha hmeet.left hmeet.object hc)
    · exact h.unique k a l b ha hb hmeet hc ho

theorem shareReserved_upgrade {s : StateManager} {object : ServerObject} {access deny : U32}
    {other : StateidOther} {state : OpenFileState} {f : OpenFileState → OpenFileState}
    (h : ShareReserved s.inner.openFiles) (hget : s.inner.openFiles.get other = some state)
    (hobject : state.object = object)
    (hf : ∀ a, (f a).object = a.object ∧ (f a).clientid = a.clientid ∧ (f a).owner = a.owner ∧
      (f a).active = a.active ∧ (f a).shareAccess = access ∧ (f a).shareDeny = deny)
    (hconflict : s.shareConflict object (some other) access deny = false) :
    ShareReserved (s.inner.openFiles.modify other f) := by
  -- Entries keep their key fields, so `unique` carries over key by key.
  have hfrom : ∀ k a, (s.inner.openFiles.modify other f).get k = some a →
      ∃ b, s.inner.openFiles.get k = some b ∧ a.object = b.object ∧ a.clientid = b.clientid ∧
        a.owner = b.owner ∧ a.active = b.active ∧ (k ≠ other → a = b) ∧
        (k = other → a.shareAccess = access ∧ a.shareDeny = deny) := by
    intro k a ha
    rcases Table.of_get_modify ha with ⟨hk, b, hb, rfl⟩ | ⟨hk, ha⟩
    · obtain ⟨h₁, h₂, h₃, h₄, h₅, h₆⟩ := hf b
      exact ⟨b, hk ▸ hb, h₁, h₂, h₃, h₄, fun hne => absurd hk hne, fun _ => ⟨h₅, h₆⟩⟩
    · exact ⟨a, ha, rfl, rfl, rfl, rfl, fun _ => rfl, fun heq => absurd heq hk⟩
  constructor
  · intro k a l b ha hb hne hmeet
    obtain ⟨a', ha', hao, -, -, haa, hane, haeq⟩ := hfrom k a ha
    obtain ⟨b', hb', hbo, -, -, hba, hbne, hbeq⟩ := hfrom l b hb
    by_cases hk : k = other
    · have hl : l ≠ other := fun hl => hne (hk.trans hl.symm)
      subst hk
      rw [hget] at ha'
      cases ha'
      rw [hbne hl] at hmeet ⊢
      rw [(haeq rfl).2]
      have hobj : b'.object = object := hmeet.object.symm.trans (hao.trans hobject)
      exact (of_shareConflict_eq_false hconflict hb' hmeet.right (by simpa using hl) hobj).2
    · rw [hane hk] at hmeet ⊢
      by_cases hl : l = other
      · subst hl
        rw [hget] at hb'
        cases hb'
        rw [(hbeq rfl).1]
        have hobj : a'.object = object := hmeet.object.trans (hbo.trans hobject)
        exact (of_shareConflict_eq_false hconflict ha' hmeet.left (by simpa using hk) hobj).1
      · rw [hbne hl] at hmeet ⊢
        exact h.denies k a' l b' ha' hb' hne hmeet
  · intro k a l b ha hb hmeet hc ho
    obtain ⟨a', ha', hao, hac, haw, haa, -, -⟩ := hfrom k a ha
    obtain ⟨b', hb', hbo, hbc, hbw, hba, -, -⟩ := hfrom l b hb
    refine h.unique k a' l b' ha' hb' ⟨?_, ?_, ?_⟩ ?_ ?_
    · rw [← haa]
      exact hmeet.left
    · rw [← hba]
      exact hmeet.right
    · rw [← hao, ← hbo, hmeet.object]
    · rw [← hac, ← hbc, hc]
    · rw [← haw, ← hbw, ho]

theorem runSection_shareReserved (s : StateManager) (c : Section)
    (h : ShareReserved s.inner.openFiles) :
    ShareReserved (s.runSection c).2.inner.openFiles := by
  cases hc : c.opens with
  | false => exact h.of_narrowed (s.runSection_opensNarrowed c hc)
  | true =>
    cases c with
    | createOpenState object owner access deny =>
      cases hok : s.createOpenState object owner access deny with
      | error status =>
        simp only [runSection, hok, commit]
        exact h
      | ok res =>
        obtain ⟨-, ⟨other, state, hex, hconf, -, hs⟩ | ⟨hex, hconf, -, hs⟩⟩ :=
          createOpenState_ok (show s.createOpenState object owner access deny =
            .ok (res.1, res.2) from hok)
        · obtain ⟨hget, -, hobject, -, -⟩ := of_existingOpen_eq_some hex
          simp only [runSection, hok, commit, hs]
          exact shareReserved_upgrade h hget hobject
            (fun a => ⟨rfl, rfl, rfl, rfl, rfl, rfl⟩) hconf
        · simp only [runSection, hok, commit, hs]
          exact shareReserved_insert h rfl rfl rfl rfl rfl hex hconf
    | _ => cases hc

end StateManager

/-! ## Runs -/

/-- **Share reservations.** Whatever requests run against a server, in whatever order their
steps interleave, different active opens of one object never deny each other's access, and
an open owner never has two active opens of one object. -/
theorem share_reservations {H α : Type} [DecidableEq H] {backend : Backend H} {boot : Boot}
    {threads : List (Request H α)} {tr : Trace H}
    {c : Machine H α}
    (hrun : (Server.system backend).Run ⟨Server.new H boot, threads⟩ tr c) :
    (∀ k a l b, c.state.state.inner.openFiles.get k = some a →
      c.state.state.inner.openFiles.get l = some b → k ≠ l → a.active = true →
      b.active = true → a.object = b.object →
        a.shareDeny &&& b.shareAccess = 0 ∧ b.shareDeny &&& a.shareAccess = 0) ∧
    (∀ k a l b, c.state.state.inner.openFiles.get k = some a →
      c.state.state.inner.openFiles.get l = some b → a.active = true → b.active = true →
      a.object = b.object → a.clientid = b.clientid → a.owner = b.owner → k = l) := by
  have hreserved : ShareReserved c.state.state.inner.openFiles := by
    refine hrun.inner_invariant (I := fun inner => ShareReserved inner.openFiles) ?_ ?_ ?_
    · constructor
      · intro k a l b ha
        cases ha
      · intro k a l b ha
        cases ha
    · intro s s' hdrift h
      exact h.of_narrowed (.of_sub fun k v hv => (hdrift.openFiles k).trans hv)
    · exact fun e _ q _ h => e.before.state.runSection_shareReserved q h
  constructor
  · intro k a l b ha hb hne hactive hactive' hobject
    exact ⟨hreserved.denies k a l b ha hb hne ⟨hactive, hactive', hobject⟩,
      hreserved.denies l b k a hb ha hne.symm ⟨hactive', hactive, hobject.symm⟩⟩
  · intro k a l b ha hb hactive hactive' hobject
    exact hreserved.unique k a l b ha hb ⟨hactive, hactive', hobject⟩

open Scripted in
/-- Two owners read the object, and each denies others to write it. -/
theorem share_reservations_two_opens :
    let sections := sessionSetUp ++
      [.createOpenState (.fs 1) ⟨1, [1]⟩ 1 2, .createOpenState (.fs 1) ⟨1, [2]⟩ 1 2]
    let s := (sections.foldl Server.afterSection (Server.new Unit .fixed)).state
    s.inner.openFiles.get (.mint 1 1) = some ⟨.fs 1, 1, [1], 1, true, 1, 2⟩ ∧
    s.inner.openFiles.get (.mint 2 1) = some ⟨.fs 1, 1, [2], 1, true, 1, 2⟩ ∧
    (2 : U32) &&& 1 = 0 := by
  intro sections s
  have hrun : (Server.system Backend.single).Run _ _ _ :=
    Server.sections_run () sections (Server.new Unit .fixed) []
  have hk : s.inner.openFiles.get (.mint 1 1) = some ⟨.fs 1, 1, [1], 1, true, 1, 2⟩ := by
    decide +kernel
  have hl : s.inner.openFiles.get (.mint 2 1) = some ⟨.fs 1, 1, [2], 1, true, 1, 2⟩ := by
    decide +kernel
  exact ⟨hk, hl, ((share_reservations hrun).1 _ _ _ _ hk hl (by decide) rfl rfl rfl).1⟩

end EmbedNfs

import EmbedNfs.Properties.RecallContract
import EmbedNfs.Properties.StateidVersions

/-!
# Several recalls at once

Any number of requests may recall the delegations of a directory at the same time. They share
the marks: the first to come finds a delegation granted, marks it and sends the callback, and
the later ones only wait for it. Each polls and revokes on its own.

A request that has seen a delegation among its recalls is bound to revoke it, unless one of its
polls finds it gone. And since a delegation that is marked is never granted again, all recalls
together mark it once; a request has at most one callback for each mark of its own.
-/

namespace EmbedNfs

variable {H : Type}

/-! ## What becomes of one delegation -/

/-- The delegation is granted or being recalled. -/
def StateManager.Live (s : StateManager) (k : StateidOther) : Prop :=
  ∃ state, s.inner.delegations.get k = some state ∧ state.status.isLive = true

/-- One if the delegation is granted and not yet marked. -/
def StateManager.unmarked (s : StateManager) (k : StateidOther) : Nat :=
  if (s.inner.delegations.get k).any fun state => state.status = .granted then 1 else 0

/-- The number of times that the answer asks for a callback for the delegation. -/
def Call.marks (k : StateidOther) : (c : Call H) → c.Ret → Nat
  | .guarded (.beginDirectoryRecallExcluding _ _), recalls =>
    recalls.countP fun recalled => recalled.sendCallback && recalled.stateid.other = k
  | _, _ => 0

namespace StateManager

theorem unmarked_le_one (s : StateManager) (k : StateidOther) : s.unmarked k ≤ 1 := by
  unfold unmarked
  split <;> omega

theorem unmarked_eq_zero {s : StateManager} {k : StateidOther}
    (h : s.inner.delegations.get k = none) : s.unmarked k = 0 := by
  simp [unmarked, h]

theorem unmarked_le_of_ages {s s' : StateManager} {k : StateidOther}
    (h : ∀ state, s'.inner.delegations.get k = some state →
      ∃ old, s.inner.delegations.get k = some old ∧ state.Ages old) :
    s'.unmarked k ≤ s.unmarked k := by
  cases hget : s'.inner.delegations.get k with
  | none =>
    rw [unmarked_eq_zero hget]
    exact Nat.zero_le _
  | some state =>
    obtain ⟨old, hold, hages⟩ := h state hget
    unfold unmarked
    rw [hget, hold]
    by_cases hgranted : state.status = .granted
    · simp [hgranted, hages.granted hgranted]
    · simp [hgranted]

theorem countP_beginRecalls (now : Instant) (excluded : Option Clientid4)
    (others : List StateidOther) (t : Table StateidOther DelegationState) (k : StateidOther) :
    (beginRecalls now excluded others t).1.countP
        (fun recalled => recalled.sendCallback && recalled.stateid.other = k) +
      (if ((beginRecalls now excluded others t).2.get k).any fun state => state.status = .granted
        then 1 else 0) ≤
      if (t.get k).any fun state => state.status = .granted then 1 else 0 := by
  induction others generalizing t with
  | nil => exact Nat.le_of_eq (Nat.zero_add _)
  | cons other others ih =>
    have hkind : ∀ kind : DelegationKind, kind = .directoryRead := fun kind => by cases kind; rfl
    cases hget : t.get other with
    | none =>
      simp only [beginRecalls, hget]
      exact ih t
    | some state =>
      simp only [beginRecalls, hget, hkind state.kind, ne_eq, not_true_eq_false, ↓reduceIte]
      cases hstatus : state.status with
      | granted =>
        dsimp only
        split
        · exact ih t
        · have hmarked := ih (t.modify other fun state =>
            { state with status := .recallInProgress, lastRecallAt := some now })
          rw [Table.get_modify] at hmarked
          by_cases hk : k = other
          · -- The head is the mark; nothing granted is left of the delegation.
            subst hk
            simp only [↓reduceIte, hget, Option.map_some, Option.any_some, reduceCtorEq,
              decide_false, Bool.false_eq_true] at hmarked
            rw [List.countP_cons_of_pos (by simp)]
            simp only [hget, Option.any_some, hstatus, decide_true, ↓reduceIte]
            omega
          · rw [if_neg hk] at hmarked
            rw [List.countP_cons_of_neg (by simp [Ne.symm hk])]
            exact hmarked
      | recallInProgress => simpa using ih t
      | returned => exact ih t
      | revoked => exact ih t

end StateManager

section

variable [DecidableEq H] {backend : Backend H} {s s' : Server H} {c : Call H} {r : c.Ret}

theorem Server.exec_ages (hexec : (Server.system backend).exec s c r s') :
    DelegationsAge s'.state.inner.delegations s.state.inner.delegations ∨
      (∀ k, c.marks k r = 0) ∧ ∃ clientid, ∀ k state,
        s'.state.inner.delegations.get k = some state →
          s.state.inner.delegations.get k = some state ∨
            k = .mint s.state.nextStateid clientid := by
  rcases Server.exec_inner hexec with ⟨q, rfl, hs⟩ | hs
  · by_cases hq : ∃ object clientid sessionid perClient total,
        q = .grantDirectoryDelegation object clientid sessionid perClient total
    · obtain ⟨object, clientid, sessionid, perClient, total, rfl⟩ := hq
      refine Or.inr ⟨fun _ => rfl, clientid, ?_⟩
      rw [hs]
      refine StateManager.commit_keeps (fun s' => ∀ k state,
        s'.inner.delegations.get k = some state →
          s.state.inner.delegations.get k = some state ∨
            k = .mint s.state.nextStateid clientid) (fun _ _ => Or.inl) ?_
      intro grant s₁ hok k state hk
      rcases StateManager.grantDirectoryDelegation_ok hok with rfl | ⟨-, -, -, rfl⟩
      · exact Or.inl hk
      · rcases Table.of_get_insert hk with ⟨hkey, -⟩ | ⟨-, hk⟩
        · exact Or.inr hkey
        · exact Or.inl hk
    · refine Or.inl ?_
      rw [hs]
      refine s.state.runSection_age q ?_
      intro object clientid sessionid perClient total heq
      exact hq ⟨object, clientid, sessionid, perClient, total, heq⟩
  · rw [hs]
    exact Or.inl (.of_sub (.refl _))

theorem Server.exec_ages_of_ne {k : StateidOther}
    (hexec : (Server.system backend).exec s c r s') (hne : k.number ≠ s.state.nextStateid)
    {state : DelegationState} (hk : s'.state.inner.delegations.get k = some state) :
    ∃ old, s.state.inner.delegations.get k = some old ∧ state.Ages old := by
  rcases Server.exec_ages hexec with hage | ⟨-, clientid, hadds⟩
  · exact hage k state hk
  · rcases hadds k state hk with hold | hkey
    · exact ⟨state, hold, .refl state⟩
    · exact absurd (hkey ▸ StateidOther.number_mint _ _) hne

/-- **Step lemma.** A mark takes the delegation out of the unmarked ones. -/
theorem Server.exec_marks {k : StateidOther} (hexec : (Server.system backend).exec s c r s') :
    c.marks k r + s'.state.unmarked k ≤ s.state.unmarked k ∨
      c.marks k r = 0 ∧ k.number = s.state.nextStateid := by
  by_cases hbegin : ∃ object excluded, c = .guarded (.beginDirectoryRecallExcluding object excluded)
  · obtain ⟨object, excluded, rfl⟩ := hbegin
    obtain ⟨hr, rfl⟩ := hexec
    rw [show r = _ from hr]
    exact Or.inl (StateManager.countP_beginRecalls s.state.clock excluded
      (indexed s.state.inner.dirDelegations object) s.state.inner.delegations k)
  · have hzero : c.marks k r = 0 := by
      cases c with
      | guarded q => cases q <;> first | rfl | exact absurd ⟨_, _, rfl⟩ hbegin
      | _ => rfl
    by_cases hnext : k.number = s.state.nextStateid
    · exact Or.inr ⟨hzero, hnext⟩
    · rw [hzero, Nat.zero_add]
      exact Or.inl (StateManager.unmarked_le_of_ages fun _ => Server.exec_ages_of_ne hexec hnext)

end

/-! ## Over a run -/

/-- The number of the stateid has been issued. -/
def Issued (k : StateidOther) (tr : Trace H) : Prop :=
  ∃ i < stateidsIssued tr, k.number = BitVec.ofNat 32 (1 + i)

theorem stateidsIssued_le_append (tr tr' : Trace H) :
    stateidsIssued tr ≤ stateidsIssued (tr ++ tr') := by
  unfold stateidsIssued
  rw [List.countP_append]
  exact Nat.le_add_right _ _

theorem Issued.append {k : StateidOther} {tr : Trace H} (h : Issued k tr) (tr' : Trace H) :
    Issued k (tr ++ tr') := by
  obtain ⟨i, hi, hnumber⟩ := h
  exact ⟨i, lt_of_lt_of_le hi (stateidsIssued_le_append tr tr'), hnumber⟩

/-- The number of marks of the delegation. -/
def recallMarks (k : StateidOther) (tr : Trace H) : Nat :=
  (tr.map fun e => e.call.marks k e.answer).sum

theorem recallMarks_concat (k : StateidOther) (tr : Trace H)
    (e : ServerEvent H) :
    recallMarks k (tr ++ [e]) = recallMarks k tr + e.call.marks k e.answer := by
  simp [recallMarks]

/-- A delegation is marked once at most, and not before its stateid is issued. -/
structure MarkHistory (k : StateidOther) (tr : Trace H) (s : StateManager) : Prop where
  once : recallMarks k tr + s.unmarked k ≤ 1
  unissued : ¬Issued k tr → recallMarks k tr + s.unmarked k = 0

section

variable {α : Type} [DecidableEq H] {backend : Backend H} {boot : Boot}
  {threads : List (Request H α)} {tr tr' : Trace H}
  {m c : Machine H α}

/-- **Run lemma.** A delegation that is gone does not come back. -/
theorem System.Run.not_live
    (hbefore : (Server.system backend).Run ⟨Server.new H boot, threads⟩ tr m)
    (hafter : (Server.system backend).Run m tr' c) (hlt : stateidsIssued (tr ++ tr') < 2 ^ 32)
    {k : StateidOther} (hissued : Issued k tr) (h : ¬m.state.state.Live k) :
    ¬c.state.state.Live k := by
  refine hafter.invariant_history
    (I := fun tr' s => stateidsIssued (tr ++ tr') < 2 ^ 32 → ¬s.state.Live k) (fun _ => h) ?_ ?_ hlt
  · rintro tr' s s' h hdrift hlt ⟨state, hget, hlive⟩
    exact h hlt ⟨state, (hdrift.state.delegations k).trans hget, hlive⟩
  · rintro tr' e c' hrun' hexec h hlt ⟨state, hget, hlive⟩
    obtain ⟨ts, _, hrest, -, -, -⟩ := hrun'.last
    have hlt' : stateidsIssued (tr ++ tr') < 2 ^ 32 := by
      rw [← List.append_assoc] at hlt
      exact lt_of_le_of_lt (stateidsIssued_le_concat _ e) hlt
    have hnext : e.before.state.nextStateid = BitVec.ofNat 32 (1 + stateidsIssued (tr ++ tr')) :=
      (hbefore.trans hrest).nextStateid_eq
    have hne : k.number ≠ e.before.state.nextStateid := by
      rw [hnext]
      exact number_ne_of_issued hlt' (hissued.append tr')
    obtain ⟨old, hold, hages⟩ := Server.exec_ages_of_ne hexec hne hget
    exact h hlt' ⟨old, hold, hages.live hlive⟩

theorem System.Run.markHistory
    (hrun : (Server.system backend).Run ⟨Server.new H boot, threads⟩ tr c)
    (hlt : stateidsIssued tr < 2 ^ 32) (k : StateidOther) : MarkHistory k tr c.state.state := by
  refine hrun.invariant_history
    (I := fun tr s => stateidsIssued tr < 2 ^ 32 → MarkHistory k tr s.state) ?_ ?_ ?_ hlt
  · exact fun _ => ⟨Nat.zero_le 1, fun _ => rfl⟩
  · intro tr s s' h hdrift hlt
    have hsame : s'.state.unmarked k = s.state.unmarked k := by
      unfold StateManager.unmarked
      rw [hdrift.state.delegations k]
    obtain ⟨honce, hunissued⟩ := h hlt
    rw [← hsame] at honce hunissued
    exact ⟨honce, hunissued⟩
  · intro tr e c' hrun' hexec h hlt
    have hlt' := lt_of_le_of_lt (stateidsIssued_le_concat tr e) hlt
    obtain ⟨ts, cont, hbefore, hthread, -, -⟩ := hrun'.last
    have hold := h hlt'
    rcases Server.exec_marks (k := k) hexec with hkeeps | ⟨hzero, hnext⟩
    · refine ⟨?_, fun hunissued => ?_⟩
      · have := hold.once
        rw [recallMarks_concat]
        omega
      · have := hold.unissued fun hissued => hunissued (hissued.append [e])
        rw [recallMarks_concat]
        omega
    · -- The stateid is the next one, so nothing has happened to it yet.
      have hnone := hold.unissued fun hissued =>
        number_ne_of_issued hlt' hissued (hnext.trans hbefore.nextStateid_eq)
      refine ⟨?_, fun hunissued => ?_⟩
      · have := e.after.state.unmarked_le_one k
        rw [recallMarks_concat, hzero]
        omega
      · have hafter : e.after.state.inner.delegations.get k = none := by
          by_contra hsome
          obtain ⟨state, hget⟩ := Option.ne_none_iff_exists'.mp hsome
          exact hunissued ((hbefore.step hthread hexec).delegationHistory.issued k state hget)
        rw [recallMarks_concat, hzero, StateManager.unmarked_eq_zero hafter]
        omega

end

/-! ## Callbacks -/

/-- Whether the call is a callback for the delegation. -/
def Call.sends (k : StateidOther) : Call H → Bool
  | .sendCallback _ stateid _ => stateid.other = k
  | _ => false

/-- The number of callbacks for the delegation. -/
def recallSends (k : StateidOther) (tr : Trace H) : Nat := tr.countP fun e => e.call.sends k

/-- The contract for the callbacks of one delegation. The phase is the number of the request's
marks that it has not used; a callback needs one. -/
def callbacks (k : StateidOther) : Contract (Call H) Call.Ret (Server H) Nat where
  inv _ := True
  phase m c r := m + c.marks k r - if c.sends k then 1 else 0
  rely _ _ _ := True
  guar m _ c _ _ := c.sends k = true → 0 < m
  rely_refl _ _ := True.intro
  rely_trans _ _ _ _ _ _ := True.intro

/-- The calls that neither mark the delegation nor send a callback for it. -/
def Call.Idle (k : StateidOther) (c : Call H) : Prop :=
  c.sends k = false ∧ ∀ r, c.marks k r = 0

theorem Call.Quiet.idle {c : Call H} (h : c.Quiet) (k : StateidOther) : c.Idle k := by
  cases c with
  | guarded q => cases q <;> first | exact ⟨rfl, fun _ => rfl⟩ | exact h.elim
  | sendCallback target stateid fh => exact h.elim
  | _ => exact ⟨rfl, fun _ => rfl⟩

theorem Quiet.idle {α : Type} {p : Request H α} (h : p.All Call.Quiet) (k : StateidOther) :
    p.All (Call.Idle k) :=
  h.mono (fun _ _ h => h) (fun _ hc => hc.idle k) fun _ h => h

theorem objectToFh_idle (object : ServerObject) (k : StateidOther) :
    (objectToFh object : Request H _).All (Call.Idle k) :=
  objectToFh_all (fun _ _ => ⟨rfl, fun _ => rfl⟩) ⟨rfl, fun _ => rfl⟩ object

/-- The number of callbacks that the recalls ask for. -/
def dueTo (k : StateidOther) (recalls : List DirectoryDelegationRecall) : Nat :=
  recalls.countP fun recalled => recalled.sendCallback && recalled.stateid.other = k

section

variable {α : Type} [DecidableEq H] {backend : Backend H} {k : StateidOther} {s : Server H}
  {m n : Nat}

theorem safe_of_idle {p : Request H α} (hp : p.All (Call.Idle k)) (h : n ≤ m) :
    (callbacks k).Safe (Server.system backend) (fun m _ _ => n ≤ m) m p s := by
  refine (Contract.Safe.along (J := fun m _ => n ≤ m) hp (fun _ _ _ _ _ _ => True.intro)
    (fun _ _ _ h _ => h) ?_ h).mono fun _ _ _ _ h => h.2
  intro m s c r s' hc _ hm _
  refine ⟨fun hsends => ?_, ?_⟩
  · rw [hc.1] at hsends
    cases hsends
  · show n ≤ m + c.marks k r - if c.sends k then 1 else 0
    rw [hc.2 r, hc.1]
    exact hm

theorem sendDirectoryRecall_safe (recalled : DirectoryDelegationRecall) (fh : Bytes)
    (h : n + (if recalled.stateid.other = k then 1 else 0) ≤ m) :
    (callbacks k).Safe (Server.system backend) (fun m _ _ => n ≤ m) m
      (sendDirectoryRecall recalled fh) s := by
  refine Contract.Safe.bind ((safe_of_idle (Quiet.idle
    (nextCallbackTarget_quiet recalled.clientid) k) h).mono ?_)
  intro m target s _ hm
  cases target with
  | none => exact fun _ _ _ => Nat.le_trans (Nat.le_add_right _ _) hm
  | some target =>
    intro s₁ _ _ r s₂ _ _
    refine ⟨fun hsends => ?_, ?_⟩
    · have hk : recalled.stateid.other = k := of_decide_eq_true hsends
      rw [if_pos hk] at hm
      omega
    · have hphase : n ≤ (callbacks k).phase m
          (Call.sendCallback target recalled.stateid fh : Call H) r := by
        show n ≤ m + 0 - if decide (recalled.stateid.other = k) then 1 else 0
        simp only [decide_eq_true_eq]
        omega
      cases r with
      | error e => exact fun _ _ _ => hphase
      | ok _ =>
        refine fun _ _ _ r _ _ _ => ⟨fun hsends => absurd hsends Bool.false_ne_true, ?_⟩
        cases r with
        | ok response => exact fun _ _ _ => hphase
        | error e => exact fun _ _ _ => hphase

theorem sendRecalls_safe (fh : Bytes) (recalls : List DirectoryDelegationRecall)
    (h : dueTo k recalls ≤ m) :
    (callbacks k).Safe (Server.system backend) (fun _ _ _ => True) m
      (sendRecalls fh recalls) s := by
  refine (Contract.Safe.each (fun recalls m _ => dueTo k recalls ≤ m) (fun _ _ _ h _ => h) ?_
    h).mono fun _ _ _ _ _ => True.intro
  intro recalled recalls m s hm
  cases hsend : recalled.sendCallback with
  | false =>
    rw [dueTo, List.countP_cons_of_neg (by simp [hsend])] at hm
    exact fun _ _ _ => hm
  | true =>
    have hdue : dueTo k recalls + (if recalled.stateid.other = k then 1 else 0) ≤ m := by
      rw [dueTo, List.countP_cons] at hm
      simpa [hsend, dueTo] using hm
    refine Contract.Safe.bind ((sendDirectoryRecall_safe recalled fh hdue).mono ?_)
    intro m r s _ hm
    cases r with
    | ok _ => exact fun _ _ _ => hm
    | error status =>
      have hrevoke := reapThen_quiet (H := H) (c := .revokeRecallableDelegation recalled.stateid)
        True.intro
      exact safe_of_idle (Quiet.idle (Program.Along.discard hrevoke) k) hm

theorem recall_callbacks_safe (config : DelegationConfig) (object : ServerObject)
    (excluded : Option Clientid4) :
    (callbacks k).Safe (Server.system backend) (fun _ _ _ => True) m
      (recallDirectoryDelegations config object excluded) s := by
  unfold recallDirectoryDelegations
  split
  · refine fun _ _ _ _ _ _ _ => ⟨fun hsends => absurd hsends Bool.false_ne_true, ?_⟩
    intro _ _ _ recalls s _ _
    refine ⟨fun hsends => absurd hsends Bool.false_ne_true, ?_⟩
    have hdue : ∀ m : Nat, dueTo k recalls ≤ m + dueTo k recalls - 0 := fun m => by omega
    show (callbacks k).Safe _ _ _ (if recalls.isEmpty then _ else _) _
    split
    · exact fun _ _ _ => True.intro
    · refine Contract.Safe.bind ((safe_of_idle (objectToFh_idle object k) (hdue _)).mono ?_)
      intro m fh s _ hm
      cases fh with
      | none => exact fun _ _ _ => True.intro
      | some fh =>
        refine Contract.Safe.bind ((sendRecalls_safe fh recalls hm).mono fun m _ s _ _ => ?_)
        have hwait : (waitForRecalledDelegations config recalls : Request H _).All Call.Quiet :=
          ⟨True.intro, fun _ _ => pollRecalled_quiet _ _ _⟩
        exact (safe_of_idle (Quiet.idle hwait k) (Nat.zero_le m)).mono fun _ _ _ _ _ => True.intro
  · exact fun _ _ _ => True.intro

theorem safe_of_silent {p : Request H α} (hp : p.All fun c => c.sends k = false) :
    (callbacks k).Safe (Server.system backend) (fun _ _ _ => True) m p s := by
  refine (Contract.Safe.along (J := fun _ _ => True) hp (fun _ _ _ _ _ _ => True.intro)
    (fun _ _ _ _ _ => True.intro) ?_ True.intro).mono fun _ _ _ _ h => h.2
  intro m s c r s' hc _ _ _
  refine ⟨fun hsends => ?_, True.intro⟩
  rw [hc] at hsends
  cases hsends

end

/-- The request sends callbacks only by recalling the delegations of directories. -/
inductive RecallsOnly : {α : Type} → Request H α → Prop where
  | silent {α : Type} {p : Request H α} (h : p.All fun c => ∀ k, c.sends k = false) : RecallsOnly p
  | recalling (config : DelegationConfig) (object : ServerObject) (excluded : Option Clientid4) :
    RecallsOnly (recallDirectoryDelegations config object excluded)
  | bind {α β : Type} {p : Request H β} {f : β → Request H α} (hp : RecallsOnly p)
    (hf : ∀ b, RecallsOnly (f b)) : RecallsOnly (p >>= f)

theorem RecallsOnly.safe {α : Type} [DecidableEq H] {p : Request H α} (h : RecallsOnly p)
    (backend : Backend H) (k : StateidOther) (m : Nat) (s : Server H) :
    (callbacks k).Safe (Server.system backend) (fun _ _ _ => True) m p s := by
  induction h generalizing m s with
  | silent h => exact safe_of_silent (h.mono (fun _ _ h => h) (fun _ h => h k) fun _ h => h)
  | recalling config object excluded => exact recall_callbacks_safe config object excluded
  | bind _ _ ihp ihf => exact Contract.Safe.bind ((ihp m s).mono fun m b s _ _ => ihf b m s)

/-- The events of one thread. -/
def eventsOf (t : Nat) (tr : Trace H) : Trace H := tr.filter fun e => e.thread = t

/-- The events of the others. -/
def eventsBut (t : Nat) (tr : Trace H) : Trace H := tr.filter fun e => !decide (e.thread = t)

theorem eventsOf_append_eventsBut (t : Nat) (tr : Trace H) :
    (eventsOf t tr ++ eventsBut t tr).Perm tr :=
  List.filter_append_perm _ tr

theorem recallSends_split (k : StateidOther) (t : Nat) (tr : Trace H) :
    recallSends k tr = recallSends k (eventsOf t tr) + recallSends k (eventsBut t tr) := by
  unfold recallSends
  rw [← List.countP_append]
  exact ((eventsOf_append_eventsBut t tr).countP_eq _).symm

theorem recallMarks_split (k : StateidOther) (t : Nat) (tr : Trace H) :
    recallMarks k tr = recallMarks k (eventsOf t tr) + recallMarks k (eventsBut t tr) := by
  unfold recallMarks
  rw [← List.sum_append, ← List.map_append]
  exact ((eventsOf_append_eventsBut t tr).map _).sum_nat.symm

theorem recallMarks_eventsOf_le {t u : Nat} (hne : u ≠ t) (k : StateidOther) (tr : Trace H) :
    recallMarks k (eventsOf u tr) ≤ recallMarks k (eventsBut t tr) := by
  have hsame : eventsOf u (eventsBut t tr) = eventsOf u tr := by
    unfold eventsOf eventsBut
    rw [List.filter_filter]
    refine List.filter_congr fun e _ => ?_
    by_cases hu : e.thread = u
    · simp [hu, hne]
    · simp [hu]
  rw [← hsame, recallMarks_split k u (eventsBut t tr)]
  exact Nat.le_add_right _ _

theorem recallSends_le_one {k : StateidOther} {tr : Trace H} (hmarks : recallMarks k tr ≤ 1)
    (hthreads : ∀ t, recallSends k (eventsOf t tr) ≤ recallMarks k (eventsOf t tr)) :
    recallSends k tr ≤ 1 := by
  have hpos : ∀ e ∈ tr, e.call.sends k = true → 0 < recallMarks k (eventsOf e.thread tr) := by
    intro e he hsends
    refine lt_of_lt_of_le (List.countP_pos_iff.mpr ⟨e, ?_, hsends⟩) (hthreads e.thread)
    exact List.mem_filter.mpr ⟨he, decide_eq_true rfl⟩
  by_cases hnone : ∃ e ∈ tr, e.call.sends k = true
  · obtain ⟨e, he, hsends⟩ := hnone
    have hsplit := recallMarks_split k e.thread tr
    have hown := hpos e he hsends
    -- The one mark is this thread's, so no other thread sends anything.
    have hothers : recallSends k (eventsBut e.thread tr) = 0 := by
      refine List.countP_eq_zero.mpr fun e' he' hsends' => ?_
      obtain ⟨hmem, hne⟩ := List.mem_filter.mp he'
      have hother := hpos e' hmem hsends'
      have hle := recallMarks_eventsOf_le (t := e.thread) (by simpa using hne) k tr
      omega
    have := recallSends_split k e.thread tr
    have := hthreads e.thread
    omega
  · have hzero : recallSends k tr = 0 :=
      List.countP_eq_zero.mpr fun e he hsends => hnone ⟨e, he, hsends⟩
    omega

theorem recallSends_add_phaseAfter {k : StateidOther} {t : Nat} {tr : Trace H}
    (hguar : ∀ tr₁ e tr₂, tr = tr₁ ++ e :: tr₂ → e.thread = t → e.call.sends k = true →
      0 < (callbacks k).phaseAfter t 0 tr₁) :
    recallSends k (eventsOf t tr) + (callbacks k).phaseAfter t 0 tr =
      recallMarks k (eventsOf t tr) := by
  induction tr using List.reverseRecOn with
  | nil => rfl
  | append_singleton tr e ih =>
    have hih := ih fun tr₁ e' tr₂ heq => hguar tr₁ e' (tr₂ ++ [e]) (by simp [heq])
    rw [Contract.phaseAfter_append]
    by_cases ht : e.thread = t
    · have hown : eventsOf t (tr ++ [e]) = eventsOf t tr ++ [e] := by
        simp [eventsOf, List.filter_append, ht]
      have hlast : recallSends k (eventsOf t tr ++ [e]) =
          recallSends k (eventsOf t tr) + if e.call.sends k then 1 else 0 := by
        simp [recallSends, List.countP_append, List.countP_singleton]
      have hneeds := hguar tr e [] rfl ht
      rw [hown, hlast, recallMarks_concat]
      show _ + (if e.thread = t then _ + e.call.marks k e.answer -
        (if e.call.sends k then 1 else 0) else _) = _
      rw [if_pos ht]
      split
      · rename_i hsends
        have := hneeds hsends
        omega
      · omega
    · have hown : eventsOf t (tr ++ [e]) = eventsOf t tr := by
        simp [eventsOf, List.filter_append, ht]
      rw [hown]
      show _ + (if e.thread = t then _ else _) = _
      rw [if_neg ht]
      exact hih

/-! ## What a recall is bound to do -/

/-- The answer lists the delegation among the recalls. -/
def Call.Lists (k : StateidOther) : (c : Call H) → c.Ret → Prop
  | .guarded (.beginDirectoryRecallExcluding _ _), recalls =>
    (⟨1, k⟩ : Stateid4) ∈ recalls.map (·.stateid)
  | _, _ => False

/-- The call revokes the delegation. -/
def Call.Revokes (k : StateidOther) (c : Call H) : Prop :=
  c = .guarded (.revokeRecallableDelegation ⟨1, k⟩)

/-- The answers that can come while the delegation is live and no object is retired. -/
def Call.SeesLive (k : StateidOther) : (c : Call H) → c.Ret → Prop
  | .guarded (.delegationRecallComplete stateid), complete =>
    stateid.other = k → complete = false
  | c, r => c.Unretired r

/-- While the delegation is live, the program is bound to revoke it. -/
def Pursues (k : StateidOther) {α : Type} (p : Request H α) : Prop :=
  p.Inevitable (Call.Revokes k) (Call.SeesLive k)

/-- Whenever the program has the delegation listed, it is bound to revoke it. -/
def Thorough (k : StateidOther) {α : Type} (p : Request H α) : Prop :=
  p.Whenever (Call.Lists k) (Pursues k)

section

variable {α β : Type} {k : StateidOther}

theorem Thorough.of_recalling {p : Request H α} (h : p.All Call.Recalling) : Thorough k p := by
  refine Program.Whenever.of_all (h.mono (fun _ _ h => h) (fun c hc r hlists => ?_) fun _ h => h)
  cases c with
  | guarded q => cases q <;> first | exact hc.elim | exact hlists.elim
  | _ => exact hlists.elim

theorem Thorough.map {p : Request H α} (h : Thorough k p) (g : α → β) : Thorough k (g <$> p) :=
  Program.Whenever.bind h fun _ => True.intro

theorem SeesLive.unretired {c : Call H} {r : c.Ret} (h : c.SeesLive k r) : c.Unretired r := by
  cases c with
  | guarded q => trivial
  | _ => exact h

theorem stillOutstanding_keeps {stateids : List Stateid4} (h : ⟨1, k⟩ ∈ stateids) :
    (stillOutstanding stateids : Request H _).Ensures (Call.SeesLive k) (⟨1, k⟩ ∈ ·) := by
  induction stateids with
  | nil => cases h
  | cons stateid stateids ih =>
    refine ⟨trivial, fun complete hcomplete => ?_⟩
    show Program.Along _ _ _ (stillOutstanding stateids >>= _)
    rcases List.mem_cons.mp h with rfl | h
    · refine Program.Along.bind (Program.Ensures.trivial _) fun remaining _ => ?_
      rw [show complete = false from hcomplete rfl]
      exact List.mem_cons_self ..
    · refine Program.Along.bind (ih h) fun remaining hmem => ?_
      cases complete with
      | true => exact hmem
      | false => exact List.mem_cons_of_mem _ hmem

theorem revokeAll_pursues {stateids : List Stateid4} (h : ⟨1, k⟩ ∈ stateids) :
    Pursues k (revokeAll stateids : Request H _) :=
  Program.Inevitable.each h (Or.inr fun _ _ => Or.inl rfl)

theorem pollRecalled_pursues (deadline : Instant) (fuel : Nat) {stateids : List Stateid4}
    (h : ⟨1, k⟩ ∈ stateids) : Pursues k (pollRecalled deadline fuel stateids : Request H _) := by
  have hkept : ∀ remaining : List Stateid4, ⟨1, k⟩ ∈ remaining → remaining.isEmpty = false := by
    intro remaining hmem
    rw [List.isEmpty_eq_false_iff]
    exact List.ne_nil_of_mem hmem
  induction fuel generalizing stateids with
  | zero =>
    unfold pollRecalled
    refine Program.Inevitable.of_ensures (stillOutstanding_keeps h) fun remaining hmem => ?_
    rw [hkept remaining hmem]
    exact Or.inr fun _ _ => revokeAll_pursues hmem
  | succ fuel ih =>
    unfold pollRecalled
    refine Program.Inevitable.of_ensures (stillOutstanding_keeps h) fun remaining hmem => ?_
    rw [hkept remaining hmem]
    refine Or.inr fun now _ => ?_
    show Pursues k (if deadline ≤ now then _ else _)
    split
    · exact revokeAll_pursues hmem
    · exact ih hmem

/-- **A recall pursues every delegation that it lists.** -/
theorem recallDirectoryDelegations_thorough (config : DelegationConfig) (object : ServerObject)
    (excluded : Option Clientid4) :
    Thorough k (recallDirectoryDelegations config object excluded : Request H _) := by
  unfold recallDirectoryDelegations
  split
  · refine fun _ => ⟨fun hlists => hlists.elim, fun recalls => ⟨fun hlists => ?_, ?_⟩⟩
    · have hne : recalls.isEmpty = false := by
        rw [List.isEmpty_eq_false_iff]
        rintro rfl
        cases hlists
      show Pursues k (if recalls.isEmpty then _ else _)
      rw [hne]
      -- The filehandle is there because nothing is retired.
      have hfh := (objectToFh_some (H := H) (d := object) object).mono
        (fun _ _ => SeesLive.unretired (k := k)) (fun _ _ => True.intro) fun _ h => h
      refine Program.Inevitable.of_ensures hfh fun fh hsome => ?_
      obtain ⟨fh, rfl⟩ := Option.isSome_iff_exists.mp hsome
      refine Program.Inevitable.of_ensures (.trivial _) fun _ _ => ?_
      exact Or.inr fun now _ => pollRecalled_pursues _ _ hlists
    · show Thorough k (if recalls.isEmpty then _ else _)
      split
      · trivial
      · have hfh : (objectToFh object : Request H _).All Call.Recalling :=
          (objectToFh_helper object).all.mono (fun _ _ h => h) (fun _ => Call.Auxiliary.recalling)
            fun _ _ => trivial
        refine Thorough.of_recalling (Program.Along.bind hfh fun fh _ => ?_)
        cases fh with
        | none => trivial
        | some fh =>
          refine Program.Along.bind (sendRecalls_recalling fh recalls) fun _ _ => ?_
          exact ⟨trivial, fun _ _ => Quiet.recalling (pollRecalled_quiet _ _ _)⟩
  · trivial

end

/-! ## The result -/

section

variable [DecidableEq H] {backend : Backend H}

theorem Server.Delegating.gone {s s' : Server H} {c : Call H} {r : c.Ret} {k : StateidOther}
    (h : s.Delegating) (hexec : (Server.system backend).exec s c r s')
    (hdone : c.Revokes k ∨ ¬c.SeesLive k r) : ¬s'.state.Live k := by
  rintro ⟨state, hget, hlive⟩
  rcases hdone with hrevokes | hgone
  · cases hrevokes
    rw [hexec.2] at hget
    have hstatus := StateManager.revokeRecallableDelegation_dead ⟨1, k⟩ (h.first k) hget
    rw [hstatus] at hlive
    cases hlive
  · have hother : c.SeesLive k r ∨ ∃ stateid, c = .guarded (.delegationRecallComplete stateid) := by
      cases c with
      | guarded q => cases q <;> first | exact Or.inl True.intro | exact Or.inr ⟨_, rfl⟩
      | _ => exact Or.inl (h.answer hexec)
    obtain ⟨stateid, rfl⟩ := hother.resolve_left hgone
    obtain ⟨hk, hcomplete⟩ := Classical.not_imp.mp hgone
    obtain ⟨hr, rfl⟩ := hexec
    have hget' : s.state.inner.delegations.get stateid.other = some state := hk ▸ hget
    refine hcomplete (hr.trans ?_)
    show s.state.delegationRecallComplete stateid = false
    simp [StateManager.delegationRecallComplete, hget', hlive]

variable {α : Type} {boot : Boot} {threads : List (Request H α)} {tr : Trace H}
  {c : Machine H α}

theorem System.Run.recalled {t : Nat} {p : Request H α} {a : α} {d : ServerObject}
    {excluded : Option Clientid4} {k : StateidOther} {b : ServerEvent H}
    (hrun : (Server.system backend).Run ⟨Server.new H boot, threads⟩ tr c)
    (hretired : ∀ e ∈ tr, ∀ id, e.call ≠ .mapOp (.retire id))
    (hissued : stateidsIssued tr < 2 ^ 32) (hp : threads[t]? = some p) (hthorough : Thorough k p)
    (hreturned : c.threads[t]? = some (.ret a)) (hb : b ∈ tr) (ht : b.thread = t)
    (hbegin : b.call = .guarded (.beginDirectoryRecallExcluding d excluded))
    (hheld : b.before.state.inner.Held d excluded k) : ¬c.state.state.Live k := by
  have hdelegating : ∀ e ∈ tr, e.before.Delegating := fun e he =>
    (hrun.invariant_event (Server.delegating_new boot) (fun _ _ h hd => h.drift hd)
      (fun e he hexec h => h.step hexec (hretired e he)) he).1
  obtain ⟨u, before, call, recalls, after⟩ := b
  cases ht
  cases hbegin
  obtain ⟨tr₁, tr₂, rfl⟩ := List.append_of_mem hb
  obtain ⟨_, _, hbefore, -, hexec, -⟩ := hrun.at_event
  -- The recall lists the delegation, so the rest of the request pursues it.
  obtain ⟨ts, rest, hrest, hpursues, hafter⟩ := hrun.whenever hp hthorough
    (mem_recalls_of_held (hdelegating _ hb) hexec hheld)
  obtain ⟨e, he, -, hdone⟩ := hafter.inevitable hrest hpursues hreturned
  obtain ⟨tr₃, tr₄, rfl⟩ := List.append_of_mem he
  -- From the step that ends the delegation on, it stays away.
  have hmem : e ∈ tr₁ ++ (⟨u, before, _, recalls, after⟩ :: (tr₃ ++ e :: tr₄)) := by simp
  have hgone := (hdelegating e hmem).gone (hrun.exec hmem) hdone
  have hsplit : tr₁ ++ (⟨u, before, _, recalls, after⟩ :: (tr₃ ++ e :: tr₄)) =
      (tr₁ ++ ⟨u, before, _, recalls, after⟩ :: tr₃) ++ e :: tr₄ := by simp
  rw [hsplit] at hrun hissued
  obtain ⟨ts', cont', hbefore', hthread', hexec', hafter'⟩ := hrun.at_event
  obtain ⟨state, hget, -⟩ := hheld
  have hold : Issued k tr₁ := hbefore.delegationHistory.issued k state hget
  refine (hbefore'.step hthread' hexec').not_live hafter' ?_ ?_ hgone
  · simpa using hissued
  · rw [List.append_assoc]
    exact hold.append _

theorem System.Run.recallSends_le (hthreads : ∀ p ∈ threads, RecallsOnly p)
    (hrun : (Server.system backend).Run ⟨Server.new H boot, threads⟩ tr c) (k : StateidOther)
    (t : Nat) : recallSends k (eventsOf t tr) ≤ recallMarks k (eventsOf t tr) := by
  cases hp : threads[t]? with
  | none =>
    -- There is no such thread, so it has no events.
    have hnone : eventsOf t tr = [] := by
      refine List.filter_eq_nil_iff.mpr fun e he ht => ?_
      obtain ⟨tr₁, tr₂, rfl⟩ := List.append_of_mem he
      obtain ⟨p, hp'⟩ := hrun.thread_of_event
      rw [show e.thread = t from of_decide_eq_true ht] at hp'
      cases hp.symm.trans hp'
    rw [hnone]
    exact Nat.zero_le _
  | some p =>
    have hsafe := (hthreads p (List.mem_of_getElem? hp)).safe backend k 0 (Server.new H boot)
    obtain ⟨-, hguar, -⟩ := hrun.contract True.intro (fun _ _ _ _ _ => ⟨True.intro, True.intro⟩)
      (fun _ _ _ _ _ _ => ⟨True.intro, fun _ => True.intro⟩) hp hsafe
    have := recallSends_add_phaseAfter hguar
    omega

/-- **Recalls are complete, and each delegation is called back once.** When a recall has
returned, no delegation that another client held on the directory as the recall began is granted
or being recalled any more, whatever the other requests did. And as long as they all send
callbacks only by recalling, there are no two callbacks for one delegation. -/
theorem recall_completeness
    (hrun : (Server.system backend).Run ⟨Server.new H boot, threads⟩ tr c)
    (hretired : ∀ e ∈ tr, ∀ id, e.call ≠ .mapOp (.retire id))
    (hissued : stateidsIssued tr < 2 ^ 32) :
    (∀ t config d excluded, ∀ g : Unit → α, ∀ a : α, config.directoryDelegations = true →
      threads[t]? = some (g <$> recallDirectoryDelegations config d excluded) →
      c.threads[t]? = some (.ret a) →
        (∃ b ∈ tr, b.thread = t ∧
          b.call = .guarded (.beginDirectoryRecallExcluding d excluded)) ∧
        ∀ b ∈ tr, b.thread = t →
          b.call = .guarded (.beginDirectoryRecallExcluding d excluded) →
            ∀ k, b.before.state.inner.Held d excluded k → ¬c.state.state.Live k) ∧
    ((∀ p ∈ threads, RecallsOnly p) → ∀ k, recallSends k tr ≤ 1) := by
  refine ⟨fun t config d excluded g a henabled hp hreturned => ⟨?_, ?_⟩, fun hthreads k => ?_⟩
  · have hbegins : (g <$> recallDirectoryDelegations config d excluded).Inevitable
        (· = Call.guarded (H := H) (.beginDirectoryRecallExcluding d excluded))
        fun _ _ => True := by
      unfold recallDirectoryDelegations
      rw [henabled]
      exact Or.inr fun _ _ => Or.inl rfl
    obtain ⟨b, hb, ht, hcall | hmay⟩ := hrun.inevitable hp hbegins hreturned
    · exact ⟨b, hb, ht, hcall⟩
    · exact absurd True.intro hmay
  · intro b hb ht hbegin k hheld
    exact hrun.recalled hretired hissued hp
      ((recallDirectoryDelegations_thorough config d excluded).map g) hreturned hb ht hbegin hheld
  · have hmarks := (hrun.markHistory hissued k).once
    refine recallSends_le_one ?_ fun t => hrun.recallSends_le hthreads k t
    omega

end

namespace Scripted

/-- A client with a callback connection gets a delegation on the root. -/
def rootGrant : List Section :=
  [.exchangeId ⟨⟨1, [1]⟩, .none⟩, .createSession (callbackSessionArgs 1 1) 0,
    .grantDirectoryDelegation (.fs 1) 1 none 1 1]

/-- A recall of the delegations on the root that does not wait. -/
def rootRecall : Request Unit Unit :=
  id <$> recallDirectoryDelegations ⟨true, 0, 1, 1⟩ (.fs 1) none

/-- The grant and then two recalls. The second begins when the first has marked the delegation,
and it has returned before the first goes on. -/
def sharedRecall : Trace Unit × Machine Unit Unit :=
  (Server.connected Backend.single .someDir).play
    ⟨Server.new Unit .fixed, rootGrant.map (Server.sectionThread ()) ++ [rootRecall, rootRecall]⟩
    ([0, 1, 2, 3, 3] ++ List.replicate 20 4 ++ List.replicate 20 3)

/-- Whether the event retires nothing, and the delegation on the root is live if it begins a
recall. -/
def beginsHeld (e : ServerEvent Unit) : Bool :=
  match e.call with
  | .mapOp (.retire _) => false
  | .guarded (.beginDirectoryRecallExcluding _ _) =>
    (e.before.state.inner.delegations.get (.mint 1 1)).any fun state =>
      state.object = .fs 1 ∧ state.status.isLive = true
  | _ => true

end Scripted

open Scripted

/-- Both recalls find the delegation; one callback is sent, and in the end it is revoked. -/
theorem recall_completeness_shared :
    sharedRecall.2.threads.all Program.returned = true ∧
      recallSends (.mint 1 1) sharedRecall.1 = 1 ∧
      ∃ b ∈ sharedRecall.1, b.before.state.inner.Held (.fs 1) none (.mint 1 1) ∧
        ¬sharedRecall.2.state.state.Live (.mint 1 1) := by
  have hrun : (Server.system Backend.single).Run _ sharedRecall.1 sharedRecall.2 :=
    System.Resolver.play_run _ _ _
  have hreturned : sharedRecall.2.threads.all Program.returned = true := by decide +kernel
  have hissued : stateidsIssued sharedRecall.1 < 2 ^ 32 := by decide +kernel
  have hevents : ∀ e ∈ sharedRecall.1, beginsHeld e = true := by decide +kernel
  obtain ⟨hrecalled, honce⟩ := recall_completeness hrun
    (fun e he id hcall => by simpa [beginsHeld, hcall] using hevents e he) hissued
  obtain ⟨a, ha⟩ := Program.of_returned (p := sharedRecall.2.threads[4]?) (by decide +kernel)
  obtain ⟨⟨b, hb, ht, hbegin⟩, hgone⟩ := hrecalled 4 _ (.fs 1) none id a rfl rfl ha
  have hheld : b.before.state.inner.Held (.fs 1) none (.mint 1 1) := by
    have hlive := hevents b hb
    simp only [beginsHeld, hbegin, Option.any_eq_true, decide_eq_true_eq] at hlive
    obtain ⟨state, hget, hobject, hlive⟩ := hlive
    exact ⟨state, hget, hobject, hlive, by simp⟩
  refine ⟨hreturned, le_antisymm (honce ?_ _) (by decide +kernel), b, hb, hheld,
    hgone b hb ht hbegin _ hheld⟩
  intro p hp
  rcases List.mem_append.mp hp with hp | hp
  · obtain ⟨q, -, rfl⟩ := List.mem_map.mp hp
    exact .silent ⟨fun _ => rfl, fun _ _ => True.intro⟩
  · have heq : p = rootRecall := by simpa using hp
    rw [heq]
    exact .bind (.recalling _ _ _) fun _ => .silent True.intro

end EmbedNfs

import EmbedNfs.Properties.LeaseReaping
import EmbedNfs.Properties.LockLastByte

/-!
# The versions of open and lock stateids

Seven sections hand out an open or lock stateid: the two that create one, with seqid 1, and five
that change what it stands for, with the seqid after the stored one. Each of the five, and
FREE_STATEID, checks the seqid it is given against the stored one first.

The stored seqid is the number of times the stateid has been handed out. What carries this through
a run is that a new stateid has never been in use, which holds as long as the counter of stateids
has not come round: then no stateid is an open and a lock, or a delegation, at once.
-/

namespace EmbedNfs

/-! ## What is handed out -/

/-- The open or lock stateid in the answer of a section. -/
def Section.handsOut : (q : Section) → q.Ret → Option Stateid4
  | .createOpenState _ _ _ _, .ok stateid => some stateid
  | .confirmOpenState _, .ok stateid => some stateid
  | .openDowngrade _ _ _, .ok stateid => some stateid
  | .closeState _, .ok outcome => some outcome.stateid
  | .createLockState _ _ _ _ _ _, .ok stateid => some stateid
  | .updateLockState _ _ _ _, .ok stateid => some stateid
  | .unlockState _ _ _, .ok stateid => some stateid
  | _, _ => none

def Call.handsOut {H : Type} : (c : Call H) → c.Ret → Option Stateid4
  | .guarded q, r => q.handsOut r
  | _, _ => none

/-- The seqids that have been returned for the stateid, in order. -/
def versions {H : Type} (k : StateidOther) (tr : Trace H) : List U32 :=
  tr.filterMap fun e => (e.call.handsOut e.answer).bind fun stateid =>
    if stateid.other = k then some stateid.seqid else none

theorem versions_concat {H : Type} (k : StateidOther) (tr : Trace H)
    (e : ServerEvent H) : versions k (tr ++ [e]) = versions k tr ++
      ((e.call.handsOut e.answer).bind fun stateid =>
        if stateid.other = k then some stateid.seqid else none).toList := by
  unfold versions
  rw [List.filterMap_append]
  congr 1

/-- The stateid that a section is given to change or to free. -/
def Section.presents : Section → Option Stateid4
  | .confirmOpenState stateid | .closeState stateid | .freeStateid stateid
  | .openDowngrade stateid _ _ | .updateLockState stateid _ _ _ | .unlockState stateid _ _ =>
    some stateid
  | _ => none

/-- The section has been refused. -/
def Section.refuses : (q : Section) → q.Ret → Bool
  | .confirmOpenState _, .error _ => true
  | .closeState _, .error _ => true
  | .freeStateid _, .error _ => true
  | .openDowngrade _ _ _, .error _ => true
  | .updateLockState _ _ _ _, .error _ => true
  | .unlockState _ _ _, .error _ => true
  | _, _ => false

/-! ## What a section does to the stored seqids -/

namespace StateManager

variable {s s' : StateManager}

/-- The open or lock state under the stateid is at this seqid. -/
inductive At (s : StateManager) (k : StateidOther) (seqid : U32) : Prop where
  | opened (state : OpenFileState) (hget : s.inner.openFiles.get k = some state)
      (hseq : state.stateidSeq = seqid)
  | locked (state : LockFileState) (hget : s.inner.lockFiles.get k = some state)
      (hseq : state.stateidSeq = seqid)

/-- No stateid is an open and a lock at once. -/
def Apart (s : StateManager) : Prop :=
  ∀ k opened lock, s.inner.openFiles.get k = some opened → s.inner.lockFiles.get k ≠ some lock

/-- The section takes the stateid `k` to the seqid, and changes no other. -/
structure Sets (k : StateidOther) (seqid : U32) (s' s : StateManager) : Prop where
  here : ∀ n, s'.At k n → n = seqid
  elsewhere : ∀ l n, l ≠ k → s'.At l n → s.At l n
  apart : s'.Apart

/-- What a section does to open and lock stateids, and what it hands out. -/
inductive VersionStep (s s' : StateManager) : Option Stateid4 → Prop where
  | kept (hat : ∀ k n, s'.At k n → s.At k n) (hapart : s'.Apart) : VersionStep s s' none
  | bump (k : StateidOther) (n : U32) (hat : s.At k n) (hsets : Sets k (n + 1) s' s) :
      VersionStep s s' (some ⟨n + 1, k⟩)
  | mint (clientid : Clientid4) (hnext : s'.nextStateid = s.nextStateid + 1)
      (hdelegations : s'.inner.delegations = s.inner.delegations)
      (hsets : Sets (.mint s.nextStateid clientid) 1 s' s) :
      VersionStep s s' (some ⟨1, .mint s.nextStateid clientid⟩)

theorem VersionStep.of_sub (hapart : s.Apart) (ho : s'.inner.openFiles.Sub s.inner.openFiles)
    (hl : s'.inner.lockFiles.Sub s.inner.lockFiles) : VersionStep s s' none := by
  refine .kept (fun k n hat => ?_) fun k opened lock hopen hlock =>
    hapart k opened lock (ho k opened hopen) (hl k lock hlock)
  cases hat with
  | opened state hget hseq => exact .opened state (ho k state hget) hseq
  | locked state hget hseq => exact .locked state (hl k state hget) hseq

theorem Sets.of_open {k : StateidOther} {seqid : U32} {new : OpenFileState} (hapart : s.Apart)
    (hnolock : s.inner.lockFiles.get k = none)
    (ho : ∀ l, s'.inner.openFiles.get l = if l = k then some new else s.inner.openFiles.get l)
    (hl : s'.inner.lockFiles = s.inner.lockFiles) (hseqid : new.stateidSeq = seqid) :
    Sets k seqid s' s := by
  refine ⟨fun n hat => ?_, fun l n hne hat => ?_, fun l opened lock hopen hlock => ?_⟩
  · cases hat with
    | opened state hget hseq =>
      rw [ho, if_pos rfl] at hget
      cases hget
      exact hseq.symm.trans hseqid
    | locked state hget hseq =>
      rw [hl, hnolock] at hget
      cases hget
  · cases hat with
    | opened state hget hseq =>
      rw [ho, if_neg hne] at hget
      exact .opened state hget hseq
    | locked state hget hseq =>
      rw [hl] at hget
      exact .locked state hget hseq
  · rw [hl] at hlock
    by_cases hlk : l = k
    · subst hlk
      cases hlock.symm.trans hnolock
    · rw [ho, if_neg hlk] at hopen
      exact hapart l opened lock hopen hlock

theorem Sets.of_lock {k : StateidOther} {seqid : U32} {new : LockFileState} (hapart : s.Apart)
    (hnoopen : s.inner.openFiles.get k = none)
    (hl : ∀ l, s'.inner.lockFiles.get l = if l = k then some new else s.inner.lockFiles.get l)
    (ho : s'.inner.openFiles = s.inner.openFiles) (hseqid : new.stateidSeq = seqid) :
    Sets k seqid s' s := by
  refine ⟨fun n hat => ?_, fun l n hne hat => ?_, fun l opened lock hopen hlock => ?_⟩
  · cases hat with
    | opened state hget hseq =>
      rw [ho, hnoopen] at hget
      cases hget
    | locked state hget hseq =>
      rw [hl, if_pos rfl] at hget
      cases hget
      exact hseq.symm.trans hseqid
  · cases hat with
    | opened state hget hseq =>
      rw [ho] at hget
      exact .opened state hget hseq
    | locked state hget hseq =>
      rw [hl, if_neg hne] at hget
      exact .locked state hget hseq
  · rw [ho] at hopen
    by_cases hlk : l = k
    · subst hlk
      cases hopen.symm.trans hnoopen
    · rw [hl, if_neg hlk] at hlock
      exact hapart l opened lock hopen hlock

theorem VersionStep.modify_open {k : StateidOther} {old : OpenFileState}
    {f : OpenFileState → OpenFileState} (hapart : s.Apart)
    (hget : s.inner.openFiles.get k = some old)
    (hf : ∀ state, (f state).stateidSeq = state.stateidSeq + 1) :
    VersionStep s { s with inner.openFiles := s.inner.openFiles.modify k f }
      (some ⟨old.stateidSeq + 1, k⟩) := by
  have hnolock : s.inner.lockFiles.get k = none := by
    cases hlock : s.inner.lockFiles.get k with
    | none => rfl
    | some lock => exact absurd hlock (hapart k old lock hget)
  refine .bump k old.stateidSeq (.opened old hget rfl) ?_
  exact Sets.of_open hapart hnolock (Table.get_modify_of_get hget f) rfl (hf old)

theorem VersionStep.modify_lock {k : StateidOther} {old : LockFileState}
    {f : LockFileState → LockFileState} (hapart : s.Apart)
    (hget : s.inner.lockFiles.get k = some old)
    (hf : ∀ state, (f state).stateidSeq = state.stateidSeq + 1) :
    VersionStep s { s with inner.lockFiles := s.inner.lockFiles.modify k f }
      (some ⟨old.stateidSeq + 1, k⟩) := by
  have hnoopen : s.inner.openFiles.get k = none := by
    cases hopen : s.inner.openFiles.get k with
    | none => rfl
    | some opened => exact absurd hget (hapart k opened old hopen)
  refine .bump k old.stateidSeq (.locked old hget rfl) ?_
  exact Sets.of_lock hapart hnoopen (Table.get_modify_of_get hget f) rfl (hf old)

theorem unlockRanges_stateidSeq (offset length : U64) (state : LockFileState) :
    (unlockRanges offset length state).stateidSeq = state.stateidSeq + 1 := by
  unfold unlockRanges
  split
  · rfl
  · rfl

/-- **Step lemma.** What any section does to the versions of open and lock stateids, provided that
the next stateid is not in use. -/
theorem runSection_versionStep (s : StateManager) (q : Section) (hapart : s.Apart)
    (hopens : ∀ clientid, s.inner.openFiles.get (.mint s.nextStateid clientid) = none)
    (hlocks : ∀ clientid, s.inner.lockFiles.get (.mint s.nextStateid clientid) = none) :
    VersionStep s (s.runSection q).2 (q.handsOut (s.runSection q).1) := by
  have hrefl : VersionStep s s none := .of_sub hapart (.refl _) (.refl _)
  let P (r : q.Ret) (s' : StateManager) : Prop := VersionStep s s' (q.handsOut r)
  show P (s.runSection q).1 (s.runSection q).2
  cases hq : q.rewrites with
  | false =>
    have hshrunk := s.runSection_shrunk q hq
    have hnone : q.handsOut (s.runSection q).1 = none := by
      cases q <;> first | rfl | cases hq
    show VersionStep s _ (q.handsOut _)
    rw [hnone]
    exact .of_sub hapart hshrunk.openFiles hshrunk.lockFiles
  | true =>
    cases q with
    | createOpenState object owner access deny =>
      refine commit_answers P (fun _ => hrefl) fun stateid s' hok => ?_
      obtain ⟨-, ⟨other, state, hexisting, -, rfl, rfl⟩ | ⟨-, -, rfl, rfl⟩⟩ :=
        createOpenState_ok hok
      · exact .modify_open hapart (Table.of_find?_eq_some hexisting).1 fun _ => rfl
      · exact .mint owner.clientid rfl rfl
          (.of_open hapart (hlocks _) (fun l => Table.get_insert ..) rfl rfl)
    | confirmOpenState requested =>
      refine commit_answers P (fun _ => hrefl) fun stateid s' hok => ?_
      obtain ⟨state, hget, -, rfl⟩ := confirmOpenState_returns hok
      rw [confirmOpenState_ok hok]
      exact .modify_open hapart hget fun _ => rfl
    | closeState requested =>
      refine commit_answers P (fun _ => hrefl) fun outcome s' hok => ?_
      obtain ⟨state, hget, -, hout⟩ := closeState_returns hok
      show VersionStep s s' (some outcome.stateid)
      rw [(closeState_ok hok).2, hout]
      exact .modify_open hapart hget fun _ => rfl
    | openDowngrade requested access deny =>
      refine commit_answers P (fun _ => hrefl) fun stateid s' hok => ?_
      obtain ⟨state, hget, -, rfl⟩ := openDowngrade_returns hok
      obtain ⟨-, mode, -, -, -, rfl⟩ := openDowngrade_ok hok
      exact .modify_open hapart hget fun _ => rfl
    | createLockState openStateid owner object locktype offset length =>
      refine commit_answers P (fun _ => hrefl) fun stateid s' hok => ?_
      obtain ⟨-, -, -, rfl, rfl⟩ := createLockState_ok hok
      exact .mint owner.clientid rfl rfl
        (.of_lock hapart (hopens _) (fun l => Table.get_insert ..) rfl rfl)
    | updateLockState requested locktype offset length =>
      refine commit_answers P (fun _ => hrefl) fun stateid s' hok => ?_
      obtain ⟨state, hget, -, rfl, rfl⟩ := updateLockState_ok hok
      exact .modify_lock hapart hget fun _ => rfl
    | unlockState requested offset length =>
      refine commit_answers P (fun _ => hrefl) fun stateid s' hok => ?_
      obtain ⟨state, hget, -, rfl⟩ := unlockState_returns hok
      obtain ⟨-, -, -, rfl⟩ := unlockState_ok hok
      exact .modify_lock hapart hget (unlockRanges_stateidSeq offset length)
    | grantDirectoryDelegation object clientid sessionid maxPerClient maxTotal =>
      refine commit_snd (R := fun s' s => VersionStep s s' none) hrefl fun a s' hok => ?_
      rcases grantDirectoryDelegation_ok hok with rfl | ⟨-, -, -, rfl⟩
      · exact hrefl
      · exact .of_sub hapart (.refl _) (.refl _)
    | beginDirectoryRecallExcluding object excluded =>
      exact .of_sub hapart (.refl _) (.refl _)
    | revokeRecallableDelegation stateid =>
      refine commitUnit_snd (R := fun s' s => VersionStep s s' none) hrefl fun s' hok => ?_
      obtain ⟨state, -, rfl⟩ := revokeRecallableDelegation_ok hok
      exact .of_sub hapart (.refl _) (.refl _)
    | _ => cases hq

/-! ## Other seqids are refused -/

theorem validateStateidSeq_ok {stored provided : U32}
    (h : validateStateidSeq stored provided = .ok ()) : provided = 0 ∨ provided = stored := by
  unfold validateStateidSeq at h
  split at h
  · assumption
  · split at h
    · cases h
    · cases h

theorem At.rejects_open {seqid : U32} {k : StateidOther} (hat : ∀ n, s.At k n → seqid ≠ n)
    (hzero : seqid ≠ 0) {state : OpenFileState} (hget : s.inner.openFiles.get k = some state) :
    validateStateidSeq state.stateidSeq seqid ≠ .ok () := by
  intro hok
  rcases validateStateidSeq_ok hok with h | h
  · exact hzero h
  · exact hat _ (.opened state hget rfl) h

theorem At.rejects_lock {seqid : U32} {k : StateidOther} (hat : ∀ n, s.At k n → seqid ≠ n)
    (hzero : seqid ≠ 0) {state : LockFileState} (hget : s.inner.lockFiles.get k = some state) :
    validateStateidSeq state.stateidSeq seqid ≠ .ok () := by
  intro hok
  rcases validateStateidSeq_ok hok with h | h
  · exact hzero h
  · exact hat _ (.locked state hget rfl) h

theorem runSection_refused {q : Section} {seqid : U32} {k : StateidOther}
    (hq : q.presents = some ⟨seqid, k⟩) (hzero : seqid ≠ 0) (hat : ∀ n, s.At k n → seqid ≠ n)
    (hdelegation : s.inner.delegations.get k = none) :
    q.refuses (s.runSection q).1 = true ∧ (s.runSection q).2 = s := by
  let P (r : q.Ret) (s' : StateManager) : Prop := q.refuses r = true ∧ s' = s
  show P (s.runSection q).1 (s.runSection q).2
  cases q with
  | confirmOpenState stateid =>
    cases hq
    refine commit_answers P (fun _ => ⟨rfl, rfl⟩) fun stateid s' hok => ?_
    obtain ⟨state, hget, hcheck, -⟩ := confirmOpenState_returns hok
    exact absurd hcheck (At.rejects_open hat hzero hget)
  | closeState stateid =>
    cases hq
    refine commit_answers P (fun _ => ⟨rfl, rfl⟩) fun outcome s' hok => ?_
    obtain ⟨state, hget, hcheck, -⟩ := closeState_returns hok
    exact absurd hcheck (At.rejects_open hat hzero hget)
  | openDowngrade stateid access deny =>
    cases hq
    refine commit_answers P (fun _ => ⟨rfl, rfl⟩) fun stateid s' hok => ?_
    obtain ⟨state, hget, hcheck, -⟩ := openDowngrade_returns hok
    exact absurd hcheck (At.rejects_open hat hzero hget)
  | updateLockState stateid locktype offset length =>
    cases hq
    refine commit_answers P (fun _ => ⟨rfl, rfl⟩) fun stateid s' hok => ?_
    obtain ⟨state, hget, hcheck⟩ := updateLockState_checks hok
    exact absurd hcheck (At.rejects_lock hat hzero hget)
  | unlockState stateid offset length =>
    cases hq
    refine commit_answers P (fun _ => ⟨rfl, rfl⟩) fun stateid s' hok => ?_
    obtain ⟨state, hget, hcheck, -⟩ := unlockState_returns hok
    exact absurd hcheck (At.rejects_lock hat hzero hget)
  | freeStateid stateid =>
    cases hq
    simp only [runSection]
    cases hok : s.freeStateid ⟨seqid, k⟩ with
    | error status => exact ⟨rfl, rfl⟩
    | ok s' =>
      rcases freeStateid_checks hok with
        ⟨state, hget, hcheck⟩ | ⟨state, hget, hcheck⟩ | ⟨state, hget⟩
      · exact absurd hcheck (At.rejects_open hat hzero hget)
      · exact absurd hcheck (At.rejects_lock hat hzero hget)
      · cases hdelegation.symm.trans hget
  | _ => cases hq

end StateManager

/-! ## Histories -/

section

variable {H : Type} {tr : Trace H}

/-- The stored seqids are those returned last, and these are counted from 1. A stateid that has
been handed out for an open or a lock is no delegation. -/
structure VersionHistory (tr : Trace H) (s : StateManager) : Prop where
  counts : ∀ k, versions k tr = counted 32 1 (versions k tr).length
  stored : ∀ k n, s.At k n → versions k tr ≠ [] ∧ n = BitVec.ofNat 32 (versions k tr).length
  issued : ∀ k, versions k tr ≠ [] → ∃ i < stateidsIssued tr, k.number = BitVec.ofNat 32 (1 + i)
  apart : s.Apart
  undelegated : ∀ k, versions k tr ≠ [] → s.inner.delegations.get k = none

theorem number_ne_of_issued {number : U32} (hlt : stateidsIssued tr < 2 ^ 32)
    (h : ∃ i < stateidsIssued tr, number = BitVec.ofNat 32 (1 + i)) :
    number ≠ BitVec.ofNat 32 (1 + stateidsIssued tr) := by
  obtain ⟨i, hi, rfl⟩ := h
  intro heq
  have := ofNat_add_injective (lt_trans hi hlt) hlt heq
  omega

namespace VersionHistory

variable {s s' : StateManager} {e : ServerEvent H}

theorem new (boot : Boot) : VersionHistory (H := H) [] (Server.new H boot).state where
  counts _ := rfl
  stored k n hat := by
    cases hat with
    | opened state hget => cases hget
    | locked state hget => cases hget
  issued k hk := absurd rfl hk
  apart k opened lock hopen := by cases hopen
  undelegated k hk := absurd rfl hk

theorem of_tables (h : VersionHistory tr s)
    (hopens : ∀ k, s.inner.openFiles.get k = s'.inner.openFiles.get k)
    (hlocks : ∀ k, s.inner.lockFiles.get k = s'.inner.lockFiles.get k)
    (hdelegations : ∀ k, s.inner.delegations.get k = s'.inner.delegations.get k) :
    VersionHistory tr s' where
  counts := h.counts
  stored k n hat := by
    refine h.stored k n ?_
    cases hat with
    | opened state hget hseq => exact .opened state ((hopens k).trans hget) hseq
    | locked state hget hseq => exact .locked state ((hlocks k).trans hget) hseq
  issued := h.issued
  apart k opened lock hopen hlock :=
    h.apart k opened lock ((hopens k).trans hopen) ((hlocks k).trans hlock)
  undelegated k hk := (hdelegations k).symm.trans (h.undelegated k hk)

theorem next_free (h : VersionHistory tr s) (hlt : stateidsIssued tr < 2 ^ 32)
    (hnext : s.nextStateid = BitVec.ofNat 32 (1 + stateidsIssued tr)) (clientid : Clientid4) :
    s.inner.openFiles.get (.mint s.nextStateid clientid) = none ∧
      s.inner.lockFiles.get (.mint s.nextStateid clientid) = none := by
  have hfree : ∀ n, ¬s.At (.mint s.nextStateid clientid) n := by
    intro n hat
    refine number_ne_of_issued hlt (h.issued _ (h.stored _ n hat).1) ?_
    rw [StateidOther.number_mint, hnext]
  constructor
  · exact Option.eq_none_iff_forall_ne_some.mpr fun state hget => hfree _ (.opened state hget rfl)
  · exact Option.eq_none_iff_forall_ne_some.mpr fun state hget => hfree _ (.locked state hget rfl)

theorem of_kept (h : VersionHistory tr s) (hnone : e.call.handsOut e.answer = none)
    (hat : ∀ k n, s'.At k n → s.At k n) (hapart : s'.Apart)
    (hdelegations : ∀ k, versions k tr ≠ [] → s'.inner.delegations.get k = none) :
    VersionHistory (tr ++ [e]) s' := by
  have hversions : ∀ k, versions k (tr ++ [e]) = versions k tr := by
    intro k
    rw [versions_concat, hnone]
    exact List.append_nil _
  refine ⟨fun k => ?_, fun k n hk => ?_, fun k hk => ?_, hapart, fun k hk => ?_⟩
  · rw [hversions]
    exact h.counts k
  · rw [hversions]
    exact h.stored k n (hat k n hk)
  · rw [hversions] at hk
    obtain ⟨i, hi, hnumber⟩ := h.issued k hk
    exact ⟨i, lt_of_lt_of_le hi (stateidsIssued_le_concat tr e), hnumber⟩
  · rw [hversions] at hk
    exact hdelegations k hk

theorem of_handed (h : VersionHistory tr s) {k : StateidOther} {seqid : U32}
    (hsome : e.call.handsOut e.answer = some ⟨seqid, k⟩)
    (hseqid : seqid = BitVec.ofNat 32 (1 + (versions k tr).length))
    (hsets : StateManager.Sets k seqid s' s)
    (hissued : ∃ i < stateidsIssued (tr ++ [e]), k.number = BitVec.ofNat 32 (1 + i))
    (hdelegations : ∀ l, versions l tr ≠ [] ∨ l = k → s'.inner.delegations.get l = none) :
    VersionHistory (tr ++ [e]) s' := by
  have hhere : versions k (tr ++ [e]) = versions k tr ++ [seqid] := by
    rw [versions_concat, hsome]
    simp
  have helse : ∀ l, l ≠ k → versions l (tr ++ [e]) = versions l tr := by
    intro l hl
    rw [versions_concat, hsome]
    simp [Ne.symm hl]
  have hlength : (versions k (tr ++ [e])).length = (versions k tr).length + 1 := by
    rw [hhere]
    simp
  refine ⟨fun l => ?_, fun l n hl => ?_, fun l hl => ?_, hsets.apart, fun l hl => ?_⟩
  · by_cases hlk : l = k
    · subst hlk
      rw [hlength, counted_succ, hhere, ← h.counts l, hseqid]
    · rw [helse l hlk]
      exact h.counts l
  · by_cases hlk : l = k
    · subst hlk
      refine ⟨by simp [hhere], ?_⟩
      rw [hsets.here n hl, hseqid, hlength, Nat.add_comm]
    · rw [helse l hlk]
      exact h.stored l n (hsets.elsewhere l n hlk hl)
  · by_cases hlk : l = k
    · subst hlk
      exact hissued
    · rw [helse l hlk] at hl
      obtain ⟨i, hi, hnumber⟩ := h.issued l hl
      exact ⟨i, lt_of_lt_of_le hi (stateidsIssued_le_concat tr e), hnumber⟩
  · by_cases hlk : l = k
    · exact hdelegations l (Or.inr hlk)
    · rw [helse l hlk] at hl
      exact hdelegations l (Or.inl hl)

/-- **Step lemma.** As long as the counter of stateids has not come round, histories go on. -/
theorem step (h : VersionHistory tr e.before.state) (hlt : stateidsIssued tr < 2 ^ 32)
    (hnext : e.before.state.nextStateid = BitVec.ofNat 32 (1 + stateidsIssued tr))
    (hgranted : ∀ k state, e.before.state.inner.delegations.get k = some state →
      ∃ i < stateidsIssued tr, k.number = BitVec.ofNat 32 (1 + i))
    (hdescends : e.after.state.Descends e.before.state)
    (hstep : e.before.state.VersionStep e.after.state (e.call.handsOut e.answer)) :
    VersionHistory (tr ++ [e]) e.after.state := by
  -- A stateid that was handed out before is not the one that a grant would take.
  have hdelegations : ∀ k, versions k tr ≠ [] → e.after.state.inner.delegations.get k = none := by
    intro k hk
    by_contra hsome
    obtain ⟨state, hstate⟩ := Option.ne_none_iff_exists'.mp hsome
    rcases hdescends.delegations k state hstate with ⟨old, hold, -⟩ | ⟨-, hkey⟩
    · cases (h.undelegated k hk).symm.trans hold
    · refine number_ne_of_issued hlt (h.issued k hk) ?_
      rw [hkey, StateidOther.number_mint, hnext]
  generalize hr : e.call.handsOut e.answer = r at hstep
  cases hstep with
  | kept hat hapart => exact h.of_kept hr hat hapart hdelegations
  | bump k n hat hsets =>
    obtain ⟨hne, hn⟩ := h.stored k n hat
    obtain ⟨i, hi, hnumber⟩ := h.issued k hne
    refine h.of_handed hr ?_ hsets
      ⟨i, lt_of_lt_of_le hi (stateidsIssued_le_concat tr e), hnumber⟩ ?_
    · rw [hn, ofNat_succ, Nat.add_comm]
    · rintro l (hl | rfl)
      · exact hdelegations l hl
      · exact hdelegations l hne
  | mint clientid hcounter hsame hsets =>
    have hunused : versions (.mint e.before.state.nextStateid clientid) tr = [] := by
      by_contra hne
      refine number_ne_of_issued hlt (h.issued _ hne) ?_
      rw [StateidOther.number_mint, hnext]
    have htakes : takesStateid e = true := by
      simp [takesStateid, hcounter]
    refine h.of_handed hr ?_ hsets ⟨stateidsIssued tr, ?_, ?_⟩ ?_
    · rw [hunused]
      rfl
    · rw [stateidsIssued_concat, htakes]
      exact Nat.lt_succ_self _
    · rw [StateidOther.number_mint, hnext]
    · rintro l (hl | rfl)
      · exact hdelegations l hl
      · rw [hsame]
        by_contra hsome
        obtain ⟨state, hstate⟩ := Option.ne_none_iff_exists'.mp hsome
        refine number_ne_of_issued hlt (hgranted _ state hstate) ?_
        rw [StateidOther.number_mint, hnext]

end VersionHistory

variable {α : Type} [DecidableEq H] {backend : Backend H} {boot : Boot}
  {threads : List (Request H α)} {c : Machine H α}

theorem System.Run.versionHistory
    (hrun : (Server.system backend).Run ⟨Server.new H boot, threads⟩ tr c)
    (hlt : stateidsIssued tr < 2 ^ 32) : VersionHistory tr c.state.state := by
  refine hrun.invariant_history (I := fun tr s => stateidsIssued tr < 2 ^ 32 →
    VersionHistory tr s.state) (fun _ => .new boot) ?_ ?_ hlt
  · intro tr s s' h hdrift hlt
    exact (h hlt).of_tables hdrift.state.openFiles hdrift.state.lockFiles hdrift.state.delegations
  · intro tr e c' hrun' hexec h hlt
    have hlt' := lt_of_le_of_lt (stateidsIssued_le_concat tr e) hlt
    obtain ⟨ts, k, hbefore, -, -, -⟩ := hrun'.last
    have hold := h hlt'
    have hnext : e.before.state.nextStateid = BitVec.ofNat 32 (1 + stateidsIssued tr) :=
      hbefore.nextStateid_eq
    obtain ⟨t, before, call, answer, after⟩ := e
    cases call with
    | guarded q =>
      dsimp only at hexec hbefore hold hnext
      obtain ⟨rfl, hafter⟩ := Server.exec_guarded hexec
      refine hold.step hlt' hnext hbefore.delegationHistory.issued ?_ ?_
      · dsimp only
        rw [hafter]
        exact before.state.runSection_descends q
      · dsimp only
        rw [hafter]
        exact before.state.runSection_versionStep q hold.apart
          (fun clientid => (hold.next_free hlt' hnext clientid).1)
          fun clientid => (hold.next_free hlt' hnext clientid).2
    | _ =>
      have hinner : after.state.inner = before.state.inner :=
        (Server.exec_unguarded hexec (by simp)).1
      have hsame : VersionHistory tr after.state := by
        refine hold.of_tables ?_ ?_ ?_ <;>
        · intro k
          rw [hinner]
      exact hsame.of_kept rfl (fun _ _ hat => hat) hsame.apart hsame.undelegated

/-- **Versions of stateids.** Let any requests run against a server, with their steps interleaved
in any order, and let fewer than `2 ^ 32 - 1` stateids be issued. For a stateid that has been
changed fewer than `2 ^ 32 - 1` times since it was created, the seqids returned for it are 1, 2,
3, ... in this order. A section that is given it, to change or to free it, with a seqid that is
neither zero nor the one returned last, fails and leaves the state as it is. -/
theorem stateid_versions
    (hrun : (Server.system backend).Run ⟨Server.new H boot, threads⟩ tr c)
    (hissued : stateidsIssued tr < 2 ^ 32 - 1) (k : StateidOther)
    (hchanged : (versions k tr).length - 1 < 2 ^ 32 - 1) :
    (versions k tr).map BitVec.toNat = List.range' 1 (versions k tr).length ∧
    ∀ latest, (versions k tr).getLast? = some latest → ∀ q seqid,
      q.presents = some ⟨seqid, k⟩ → seqid ≠ 0 → seqid ≠ latest →
        q.refuses (c.state.state.runSection q).1 = true ∧
          (c.state.state.runSection q).2 = c.state.state := by
  have h := hrun.versionHistory (lt_of_lt_of_le hissued (by decide))
  have hcounts := h.counts k
  generalize hn : (versions k tr).length = n at hcounts hchanged
  refine ⟨?_, fun latest hlatest q seqid hq hzero hne => ?_⟩
  · rw [hcounts, counted, List.map_map, List.range'_eq_map_range]
    refine List.map_congr_left fun i hi => ?_
    have hlt : i < n := List.mem_range.mp hi
    show (BitVec.ofNat 32 (1 + i)).toNat = 1 + i
    rw [BitVec.toNat_ofNat]
    exact Nat.mod_eq_of_lt (by omega)
  · have hnonempty : versions k tr ≠ [] := by
      intro hnil
      rw [hnil] at hlatest
      cases hlatest
    refine StateManager.runSection_refused hq hzero (fun stored hat => ?_)
      (h.undelegated k hnonempty)
    obtain ⟨-, hstored⟩ := h.stored k stored hat
    have hlast : latest = stored := by
      rw [hcounts] at hlatest
      cases n with
      | zero => cases hlatest
      | succ n =>
        rw [counted_succ, List.getLast?_concat] at hlatest
        rw [← Option.some.inj hlatest, hstored, hn, Nat.add_comm]
    rw [← hlast]
    exact hne

end

open Scripted in
/-- An open with a lock under it that has been confirmed, and a CLOSE that still has the seqid that
OPEN returned. -/
theorem stateid_versions_stale :
    let sections := lockSections 0 10 ++ [Section.confirmOpenState ⟨1, .mint 1 1⟩]
    let s := (sections.foldl Server.afterSection (Server.new Unit .fixed)).state
    versions (.mint 1 1) ((Server.new Unit .fixed).sectionEvents 0 sections) = [1, 2] ∧
      (s.runSection (.closeState ⟨1, .mint 1 1⟩)).2 = s := by
  intro sections s
  have hrun : (Server.system Backend.single).Run
      ⟨Server.new Unit .fixed, sections.map (Server.sectionThread ())⟩ _ _ :=
    Server.sections_run () sections _ []
  have hissued : stateidsIssued ((Server.new Unit .fixed).sectionEvents 0 sections) = 2 := by
    decide +kernel
  have hversions : versions (.mint 1 1) ((Server.new Unit .fixed).sectionEvents 0 sections) =
      [1, 2] := by decide +kernel
  have hlatest : (versions (.mint 1 1)
      ((Server.new Unit .fixed).sectionEvents 0 sections)).getLast? = some 2 := by
    rw [hversions]
    rfl
  refine ⟨hversions, ?_⟩
  exact ((stateid_versions hrun (lt_of_eq_of_lt hissued (by decide)) (.mint 1 1)
    (lt_of_eq_of_lt (congrArg (List.length · - 1) hversions) (by decide))).2 2 hlatest
      (.closeState ⟨1, .mint 1 1⟩) 1 rfl (by decide) (by decide)).2

end EmbedNfs

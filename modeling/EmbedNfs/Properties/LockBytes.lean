import EmbedNfs.Effects.Calls
import EmbedNfs.Effects.Locks
import EmbedNfs.Properties.LockRanges
import EmbedNfs.Server.Scripted

/-!
# What a lock state holds

The ranges of a lock state are cut, sorted and merged with every LOCK and every LOCKU. What
they say about a byte is still simple: the byte is locked if the last successful call whose
range contains it was a LOCK, and then with the type of that LOCK. Only the byte at the largest
offset is different (see `EmbedNfs.Properties.LockRanges`).
-/

namespace EmbedNfs

open LockRange

/-! ## Histories -/

/-- A LOCK or LOCKU that has succeeded. -/
inductive LockCall where
  | lock (range : LockRange)
  | unlock (offset length : U64)

/-- The byte is in the range of the call. -/
def LockCall.contains (b : Nat) : LockCall → Bool
  | .lock range => range.offset.toNat ≤ b ∧ b < lockEnd range.offset range.length
  | .unlock offset length => offset.toNat ≤ b ∧ b < lockEnd offset length

/-- What a section adds to the history of a lock state. The newest call comes first, and the
history starts with the LOCK that creates the lock state. -/
def Section.lockHistory (k : StateidOther) (history : List LockCall) :
    (q : Section) → q.Ret → List LockCall
  | .createLockState _ _ _ locktype offset length, .ok stateid =>
    if stateid.other = k then [.lock ⟨locktype, offset, length⟩] else history
  | .updateLockState requested locktype offset length, .ok _ =>
    if requested.other = k then .lock ⟨locktype, offset, length⟩ :: history else history
  | .unlockState requested offset length, .ok _ =>
    if requested.other = k then .unlock offset length :: history else history
  | _, _ => history

/-- `Section.lockHistory` for a call of the server. -/
def Call.lockHistory {H : Type} (k : StateidOther) (history : List LockCall) :
    (c : Call H) → c.Ret → List LockCall
  | .guarded q, r => q.lockHistory k history r
  | _, _ => history

/-- The successful calls on a lock state, the newest first. -/
def lockHistory {H : Type} (k : StateidOther) (tr : Trace H) : List LockCall :=
  tr.foldl (fun history e => e.call.lockHistory k history e.answer) []

theorem lockHistory_concat {H : Type} (k : StateidOther) (tr : Trace H)
    (e : ServerEvent H) :
    lockHistory k (tr ++ [e]) = e.call.lockHistory k (lockHistory k tr) e.answer := by
  simp [lockHistory]

theorem Section.lockHistory_of_not_locks {q : Section} (h : q.locks = false) (k : StateidOther)
    (history : List LockCall) (r : q.Ret) : q.lockHistory k history r = history := by
  cases q with
  | createLockState _ _ _ _ _ _ => cases h
  | updateLockState _ _ _ _ => cases h
  | unlockState _ _ _ => cases h
  | _ => rfl

/-! ## A lock state and its history -/

/-- Below the last byte, the lock state holds what its history says. -/
structure LockFileState.Follows (state : LockFileState) (history : List LockCall) : Prop where
  valid : ∀ range ∈ state.ranges, range.Valid
  inactive : state.active = false → state.ranges = []
  held : ∀ locktype b, b < lastByte → (Held state.ranges locktype b ↔
    ∃ range, history.find? (·.contains b) = some (.lock range) ∧ range.locktype = locktype)

namespace LockFileState.Follows

variable {state state' : LockFileState} {history : List LockCall} {range : LockRange}
  {offset length : U64}

theorem contains_lock {b : Nat} : (LockCall.lock range).contains b = true ↔ range.Covers b := by
  simp [LockCall.contains, Covers]

theorem create (hvalid : range.Valid) (hranges : state.ranges = [range])
    (hactive : state.active = true) : state.Follows [.lock range] where
  valid r hr := by
    rw [hranges, List.mem_singleton] at hr
    exact hr ▸ hvalid
  inactive h := by
    rw [hactive] at h
    cases h
  held locktype b _ := by
    have hcontains : (LockCall.lock range).contains b = true ↔ range.Covers b := contains_lock
    rw [hranges, held_cons]
    cases hb : (LockCall.lock range).contains b with
    | true => simp [hb, hcontains.mp hb, Held]
    | false =>
      have hnot : ¬range.Covers b := fun hcov => by rw [hcontains.mpr hcov] at hb; cases hb
      simp [hb, hnot, Held]

theorem lock (h : state.Follows history) (hvalid : range.Valid)
    (hranges : state'.ranges = replaceLockRange state.ranges range)
    (hactive : state'.active = true) : state'.Follows (.lock range :: history) := by
  obtain ⟨hvalid', hheld⟩ := replaceLockRange_spec h.valid hvalid
  refine ⟨hranges ▸ hvalid', fun h => ?_, fun locktype b hb => ?_⟩
  · rw [hactive] at h
    cases h
  · have hcontains : (LockCall.lock range).contains b = true ↔ range.Covers b := contains_lock
    rw [hranges, hheld locktype b hb, h.held locktype b hb, List.find?_cons]
    cases hin : (LockCall.lock range).contains b with
    | true => simp [hcontains.mp hin]
    | false =>
      have hnot : ¬range.Covers b := fun hcov => by rw [hcontains.mpr hcov] at hin; cases hin
      simp [hnot]

theorem unlock (h : state.Follows history) (hcut : validateLockBounds offset length = .ok ()) :
    (StateManager.unlockRanges offset length state).Follows (.unlock offset length :: history) := by
  obtain ⟨hvalid, hinactive, -⟩ := StateManager.unlockRanges_spec hcut h.valid h.inactive
  refine ⟨hvalid, hinactive, fun locktype b hb => ?_⟩
  rw [StateManager.unlockRanges_ranges, (flatMap_cutRange_spec h.valid hcut).2 locktype b hb,
    h.held locktype b hb, List.find?_cons]
  cases hin : (LockCall.unlock offset length).contains b with
  | true =>
    have hin' : offset.toNat ≤ b ∧ b < lockEnd offset length := by
      simpa [LockCall.contains] using hin
    simp [hin']
  | false =>
    have hout : ¬(offset.toNat ≤ b ∧ b < lockEnd offset length) := by
      intro hin'
      simp [LockCall.contains, hin'] at hin
    simp [hout]

end LockFileState.Follows

/-! ## Sections and runs -/

/-- The call that a section makes on an existing lock state. -/
def Section.lockCall (k : StateidOther) : Section → Option LockCall
  | .updateLockState requested locktype offset length =>
    if requested.other = k then some (.lock ⟨locktype, offset, length⟩) else none
  | .unlockState requested offset length =>
    if requested.other = k then some (.unlock offset length) else none
  | _ => none

/-- How a section leads to the lock state `a` under the stateid `k`, and its history with it. -/
inductive LockStep (s : StateManager) (q : Section) (k : StateidOther) (a : LockFileState)
    (history : List LockCall) : List LockCall → Prop where
  | same (hget : s.inner.lockFiles.get k = some a) : LockStep s q k a history history
  | create (range : LockRange) (hvalid : range.Valid) (hranges : a.ranges = [range])
      (hactive : a.active = true) : LockStep s q k a history [.lock range]
  | lock (old : LockFileState) (range : LockRange) (hget : s.inner.lockFiles.get k = some old)
      (hcall : q.lockCall k = some (.lock range)) (hvalid : range.Valid)
      (hranges : a.ranges = replaceLockRange old.ranges range) (hactive : a.active = true) :
      LockStep s q k a history (.lock range :: history)
  | unlock (old : LockFileState) (offset length : U64)
      (hget : s.inner.lockFiles.get k = some old)
      (hcall : q.lockCall k = some (.unlock offset length))
      (hcut : validateLockBounds offset length = .ok ())
      (heq : a = StateManager.unlockRanges offset length old) :
      LockStep s q k a history (.unlock offset length :: history)

namespace StateManager

/-- **Step lemma.** What a section does to a lock state. -/
theorem runSection_lockStep (s : StateManager) (q : Section) (k : StateidOther)
    (history : List LockCall) (a : LockFileState)
    (ha : (s.runSection q).2.inner.lockFiles.get k = some a) :
    LockStep s q k a history (q.lockHistory k history (s.runSection q).1) := by
  let P (r : q.Ret) (s' : StateManager) : Prop := s'.inner.lockFiles.get k = some a →
    LockStep s q k a history (q.lockHistory k history r)
  cases hq : q.locks with
  | false =>
    rw [Section.lockHistory_of_not_locks hq]
    exact .same (s.runSection_locks_sub q hq k a ha)
  | true =>
    cases q with
    | createLockState openStateid owner object locktype offset length =>
      refine commit_answers P (fun _ => .same) (fun stateid s' hok ha => ?_) ha
      obtain ⟨hbounds, -, -, rfl, rfl⟩ := createLockState_ok hok
      rw [Table.get_insert] at ha
      simp only [Section.lockHistory]
      split at ha
      · rename_i hk
        cases ha
        rw [if_pos hk.symm]
        exact .create _ hbounds rfl rfl
      · rename_i hk
        rw [if_neg (Ne.symm hk)]
        exact .same ha
    | updateLockState requested locktype offset length =>
      refine commit_answers P (fun _ => .same) (fun stateid s' hok ha => ?_) ha
      obtain ⟨lock, hget, hbounds, -, rfl⟩ := updateLockState_ok hok
      simp only [Section.lockHistory]
      rcases Table.of_get_modify ha with ⟨rfl, old, hold, rfl⟩ | ⟨hk, ha⟩
      · cases hget.symm.trans hold
        rw [if_pos rfl]
        exact .lock lock _ hget (if_pos rfl) hbounds rfl rfl
      · rw [if_neg (Ne.symm hk)]
        exact .same ha
    | unlockState requested offset length =>
      refine commit_answers P (fun _ => .same) (fun stateid s' hok ha => ?_) ha
      obtain ⟨lock, hget, hbounds, rfl⟩ := unlockState_ok hok
      simp only [Section.lockHistory]
      rcases Table.of_get_modify ha with ⟨rfl, old, hold, rfl⟩ | ⟨hk, ha⟩
      · cases hget.symm.trans hold
        rw [if_pos rfl]
        exact .unlock lock offset length hget (if_pos rfl) hbounds rfl
      · rw [if_neg (Ne.symm hk)]
        exact .same ha
    | _ => cases hq

theorem runSection_follows (s : StateManager) (q : Section) (history : StateidOther → List LockCall)
    (h : ∀ k a, s.inner.lockFiles.get k = some a → a.Follows (history k)) (k : StateidOther)
    (a : LockFileState) (ha : (s.runSection q).2.inner.lockFiles.get k = some a) :
    a.Follows (q.lockHistory k (history k) (s.runSection q).1) := by
  have hstep := s.runSection_lockStep q k (history k) a ha
  generalize q.lockHistory k (history k) (s.runSection q).1 = next at hstep
  cases hstep with
  | same hget => exact h k a hget
  | create range hvalid hranges hactive => exact .create hvalid hranges hactive
  | lock old range hget _ hvalid hranges hactive => exact (h k old hget).lock hvalid hranges hactive
  | unlock old offset length hget _ hcut heq =>
    rw [heq]
    exact (h k old hget).unlock hcut

end StateManager

section

variable {H α : Type} [DecidableEq H] {backend : Backend H} {boot : Boot}
  {threads : List (Request H α)} {tr : Trace H} {c : Machine H α}

/-- **Run lemma.** In every reachable state the lock states follow their histories. -/
theorem System.Run.follows
    (hrun : (Server.system backend).Run ⟨Server.new H boot, threads⟩ tr c) (k : StateidOther)
    (a : LockFileState) (ha : c.state.state.inner.lockFiles.get k = some a) :
    a.Follows (lockHistory k tr) := by
  refine hrun.invariant_trace (I := fun tr s => ∀ k a, s.state.inner.lockFiles.get k = some a →
    a.Follows (lockHistory k tr)) ?_ ?_ ?_ k a ha
  · intro k a ha
    cases ha
  · exact fun tr s s' h hdrift k a ha => h k a ((hdrift.state.lockFiles k).trans ha)
  · intro tr e hexec h k a ha
    rw [lockHistory_concat]
    obtain ⟨t, before, call, answer, after⟩ := e
    cases call with
    | guarded q =>
      dsimp only at hexec ha h ⊢
      obtain ⟨rfl, hafter⟩ := Server.exec_guarded hexec
      rw [hafter] at ha
      exact before.state.runSection_follows q (fun k => lockHistory k tr) h k a ha
    | _ =>
      have hinner := (Server.exec_unguarded hexec (by simp)).1
      dsimp only at ha h hinner ⊢
      rw [hinner] at ha
      exact h k a ha

/-- **Lock byte semantics.** Let any requests run against a server, with their steps interleaved
in any order. For every lock state and every byte below the largest offset: a range of the lock
state covers the byte exactly if the last successful call on the lock state whose range contains
the byte was a LOCK, such a range has the type of that LOCK, and the lock state is inactive only
if no range covers the byte. -/
theorem lock_byte_semantics
    (hrun : (Server.system backend).Run ⟨Server.new H boot, threads⟩ tr c) (k : StateidOther)
    (a : LockFileState) (ha : c.state.state.inner.lockFiles.get k = some a) (b : Nat)
    (hb : b < 2 ^ 64 - 1) :
    ((∃ range ∈ a.ranges, range.Covers b) ↔
      ∃ locked, (lockHistory k tr).find? (·.contains b) = some (.lock locked)) ∧
    (∀ locked, (lockHistory k tr).find? (·.contains b) = some (.lock locked) →
      ∀ range ∈ a.ranges, range.Covers b → range.locktype = locked.locktype) ∧
    (a.active = false → ¬∃ range ∈ a.ranges, range.Covers b) := by
  have hfollows := hrun.follows k a ha
  have hheld := fun locktype => hfollows.held locktype b hb
  refine ⟨⟨?_, ?_⟩, ?_, ?_⟩
  · rintro ⟨range, hrange, hcov⟩
    obtain ⟨locked, hlocked, -⟩ := (hheld range.locktype).mp ⟨range, hrange, rfl, hcov⟩
    exact ⟨locked, hlocked⟩
  · rintro ⟨locked, hlocked⟩
    obtain ⟨range, hrange, -, hcov⟩ := (hheld locked.locktype).mpr ⟨locked, hlocked, rfl⟩
    exact ⟨range, hrange, hcov⟩
  · intro locked hlocked range hrange hcov
    obtain ⟨locked', hlocked', htype⟩ := (hheld range.locktype).mp ⟨range, hrange, rfl, hcov⟩
    cases hlocked.symm.trans hlocked'
    exact htype.symm
  · rintro hactive ⟨range, hrange, -⟩
    rw [hfollows.inactive hactive] at hrange
    cases hrange

end

open Scripted in
/-- A write lock of ten bytes, turned into a read lock for two of them and given up for two
others: byte 5 is locked by the second LOCK. -/
theorem lock_byte_semantics_split :
    let run := run [lockBy 1 (.mint 1 1) .writeLt 0 10,
        opBy (some 1) (.lock ⟨.readLt, 4, 2, .existingLockOwner ⟨1, .mint 3 1⟩⟩),
        opBy (some 1) (.locku ⟨⟨2, .mint 3 1⟩, 8, 2⟩)]
      (List.replicate 9 5 ++ List.replicate 9 6 ++ List.replicate 7 7)
    let ranges : List LockRange := [⟨.writeLt, 0, 4⟩, ⟨.readLt, 4, 2⟩, ⟨.writeLt, 6, 2⟩]
    run.2.state.state.inner.lockFiles.get (.mint 3 1) =
      some ⟨.fs 1, ⟨1, [1]⟩, .mint 1 1, ranges, true, 3⟩ ∧
    ((∃ range ∈ ranges, range.Covers 5) ↔ ∃ locked,
      (lockHistory (.mint 3 1) run.1).find? (·.contains 5) = some (.lock locked)) := by
  intro run ranges
  have hget : run.2.state.state.inner.lockFiles.get (.mint 3 1) =
      some ⟨.fs 1, ⟨1, [1]⟩, .mint 1 1, ranges, true, 3⟩ := by decide +kernel
  exact ⟨hget, (lock_byte_semantics (run_run _ _) _ _ hget 5 (by decide)).1⟩

end EmbedNfs

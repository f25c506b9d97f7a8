import EmbedNfs.Session.Opens
import Mathlib.Data.List.Sort

/-!
# Byte-range locks

The interval arithmetic and the sections of `session/locks.rs`. A range is an offset and a
length, and the all-ones length means "to the end of the file", whose exclusive end is
`u128::MAX`. Range ends are natural numbers here: they are sums of two 64-bit values, kept
in 128 bits by the source.
-/

namespace EmbedNfs

/-! ## Ranges -/

/-- `u64::MAX`, the length that reaches to the end of the file. -/
def u64Max : U64 := BitVec.allOnes 64

/-- `u128::MAX`, the exclusive end of a range that reaches to the end of the file. -/
def u128Max : Nat := 2 ^ 128 - 1

/-- `lock_end`. -/
def lockEnd (offset length : U64) : Nat :=
  if length = u64Max then u128Max else offset.toNat + length.toNat

/-- `locks_overlap`. -/
def locksOverlap (aOffset aLength bOffset bLength : U64) : Bool :=
  aOffset.toNat < lockEnd bOffset bLength ∧ bOffset.toNat < lockEnd aOffset aLength

/-- `range_from_bounds`. -/
def rangeFromBounds (locktype : NfsLockType4) (start : U64) (stop : Nat) : Option LockRange :=
  if stop ≤ start.toNat then none
  else some
    { locktype
      offset := start
      length := if stop = u128Max then u64Max else BitVec.ofNat 64 (stop - start.toNat) }

/-- `validate_lock_bounds`. -/
def validateLockBounds (offset length : U64) : Except NfsStat4 Unit :=
  if length = 0 then .error .inval
  else if length ≠ u64Max ∧ 2 ^ 64 ≤ offset.toNat + length.toNat then .error .inval
  else .ok ()

/-- The merging loop of `normalize_lock_ranges`, with the last range pushed so far. The
merged interval is never empty, which is what the source's `expect` states. -/
def mergeLockRanges : LockRange → List LockRange → List LockRange
  | last, [] => [last]
  | last, range :: ranges =>
    let lastEnd := lockEnd last.offset last.length
    if last.locktype = range.locktype ∧ range.offset.toNat ≤ lastEnd then
      let mergedEnd := max lastEnd (lockEnd range.offset range.length)
      mergeLockRanges ((rangeFromBounds last.locktype last.offset mergedEnd).getD last) ranges
    else last :: mergeLockRanges range ranges

/-- `normalize_lock_ranges`: a stable sort by offset, then merging of neighbours. -/
def normalizeLockRanges (ranges : List LockRange) : List LockRange :=
  match ranges.insertionSort fun a b => a.offset ≤ b.offset with
  | [] => []
  | range :: ranges => mergeLockRanges range ranges

/-- What is left of one range after an interval is taken out of it. -/
def cutRange (offset length : U64) (range : LockRange) : List LockRange :=
  if locksOverlap range.offset range.length offset length then
    let cutEnd := lockEnd offset length
    let left := rangeFromBounds range.locktype range.offset offset.toNat
    let right :=
      if cutEnd = u128Max then none
      else rangeFromBounds range.locktype (BitVec.ofNat 64 cutEnd)
        (lockEnd range.offset range.length)
    left.toList ++ right.toList
  else [range]

/-- `replace_lock_range`. -/
def replaceLockRange (ranges : List LockRange) (replacement : LockRange) : List LockRange :=
  normalizeLockRanges
    (ranges.flatMap (cutRange replacement.offset replacement.length) ++ [replacement])

/-- `is_write_lock`. -/
def NfsLockType4.isWriteLock : NfsLockType4 → Bool
  | .writeLt => true
  | .writewLt => true
  | .readLt => false
  | .readwLt => false

/-! ## Sections -/

namespace StateManager

/-- `has_conflicting_io_lock`. -/
def hasConflictingIoLock (s : StateManager) (object : ServerObject) (owner : Option StateOwner4)
    (isWrite : Bool) (offset length : U64) (ignoreStateid : Option StateidOther) : Bool :=
  if length = 0 then false
  else s.inner.lockFiles.any fun other state =>
    state.active ∧ state.object = object ∧ some other ≠ ignoreStateid ∧
      owner ≠ some state.owner ∧
      state.ranges.any fun range =>
        locksOverlap range.offset range.length offset length ∧
          (isWrite ∨ range.locktype.isWriteLock)

/-- Whether a range held by somebody else stands in the way of a requested lock. -/
def rangeConflicts (locktype : NfsLockType4) (offset length : U64) (range : LockRange) : Bool :=
  locksOverlap range.offset range.length offset length ∧
    (range.locktype.isWriteLock ∨ locktype.isWriteLock)

/-- The range of a lock state that stands in the way of a requested lock, if the state
counts and has one. -/
def conflictingRange (object : ServerObject) (owner : StateOwner4) (locktype : NfsLockType4)
    (offset length : U64) (ignoreStateid : Option StateidOther) (other : StateidOther)
    (state : LockFileState) : Option LockRange :=
  if some other = ignoreStateid ∨ !state.active ∨ state.object ≠ object ∨ state.owner = owner then
    none
  else state.ranges.find? (rangeConflicts locktype offset length)

/-- `find_lock_conflict`. -/
def findLockConflict (s : StateManager) (object : ServerObject) (owner : StateOwner4)
    (locktype : NfsLockType4) (offset length : U64) (ignoreStateid : Option StateidOther) :
    Option LockDenied4 :=
  s.inner.lockFiles.entries.findSome? fun (other, state) =>
    (conflictingRange object owner locktype offset length ignoreStateid other state).map
      fun range =>
        { offset := range.offset, length := range.length, locktype := range.locktype,
          owner := state.owner }

/-- `create_lock_state`. -/
def createLockState (s : StateManager) (openStateid : Stateid4) (owner : StateOwner4)
    (object : ServerObject) (locktype : NfsLockType4) (offset length : U64) :
    Except NfsStat4 (Stateid4 × StateManager) := do
  validateLockBounds offset length
  if s.isRetired object then throw .stale
  let some opened := s.inner.openFiles.get openStateid.other | throw .openmode
  if !opened.active ∨ opened.object ≠ object then throw .openmode
  let other := StateidOther.mint s.nextStateid owner.clientid
  let state : LockFileState :=
    { object, owner, openStateOther := openStateid.other,
      ranges := [{ locktype, offset, length }], active := true, stateidSeq := 1 }
  return (⟨1, other⟩,
    { s with
      nextStateid := s.nextStateid + 1
      inner.lockFiles := s.inner.lockFiles.insert other state })

/-- `update_lock_state`. -/
def updateLockState (s : StateManager) (lockStateid : Stateid4) (locktype : NfsLockType4)
    (offset length : U64) : Except NfsStat4 (Stateid4 × StateManager) := do
  validateLockBounds offset length
  let some state := s.inner.lockFiles.get lockStateid.other | throw .badStateid
  validateStateidSeq state.stateidSeq lockStateid.seqid
  return (⟨state.stateidSeq + 1, lockStateid.other⟩,
    { s with
      inner.lockFiles := s.inner.lockFiles.modify lockStateid.other fun state =>
        { state with
          ranges := replaceLockRange state.ranges { locktype, offset, length }
          active := true
          stateidSeq := state.stateidSeq + 1 } })

/-- The lock state after `unlock_state` has taken an interval out of it. -/
def unlockRanges (offset length : U64) (state : LockFileState) : LockFileState :=
  if state.ranges.any fun range => locksOverlap range.offset range.length offset length then
    let ranges := state.ranges.flatMap (cutRange offset length)
    { state with ranges, active := !ranges.isEmpty, stateidSeq := state.stateidSeq + 1 }
  else { state with stateidSeq := state.stateidSeq + 1 }

/-- `unlock_state`. -/
def unlockState (s : StateManager) (lockStateid : Stateid4) (offset length : U64) :
    Except NfsStat4 (Stateid4 × StateManager) := do
  validateLockBounds offset length
  let some state := s.inner.lockFiles.get lockStateid.other | throw .badStateid
  validateStateidSeq state.stateidSeq lockStateid.seqid
  return (⟨state.stateidSeq + 1, lockStateid.other⟩,
    { s with
      inner.lockFiles := s.inner.lockFiles.modify lockStateid.other (unlockRanges offset length) })

/-! ## What a successful section did -/

theorem createLockState_ok {s s' : StateManager} {openStateid stateid : Stateid4}
    {owner : StateOwner4} {object : ServerObject} {locktype : NfsLockType4} {offset length : U64}
    (h : s.createLockState openStateid owner object locktype offset length = .ok (stateid, s')) :
    validateLockBounds offset length = .ok () ∧ s.isRetired object = false ∧
    (∃ opened, s.inner.openFiles.get openStateid.other = some opened ∧ opened.active = true ∧
      opened.object = object) ∧
    stateid = ⟨1, .mint s.nextStateid owner.clientid⟩ ∧
    s' = { s with
      nextStateid := s.nextStateid + 1
      inner.lockFiles := s.inner.lockFiles.insert (.mint s.nextStateid owner.clientid)
        { object, owner, openStateOther := openStateid.other,
          ranges := [{ locktype, offset, length }], active := true, stateidSeq := 1 } } := by
  simp only [createLockState, bind, Except.bind, pure, Except.pure, throw, throwThe,
    MonadExceptOf.throw] at h
  grind

theorem updateLockState_ok {s s' : StateManager} {requested stateid : Stateid4}
    {locktype : NfsLockType4} {offset length : U64}
    (h : s.updateLockState requested locktype offset length = .ok (stateid, s')) :
    ∃ state, s.inner.lockFiles.get requested.other = some state ∧
      validateLockBounds offset length = .ok () ∧
      stateid = ⟨state.stateidSeq + 1, requested.other⟩ ∧
      s' = { s with
        inner.lockFiles := s.inner.lockFiles.modify requested.other fun lock =>
          { lock with
            ranges := replaceLockRange lock.ranges { locktype, offset, length }
            active := true
            stateidSeq := lock.stateidSeq + 1 } } := by
  simp only [updateLockState, bind, Except.bind, pure, Except.pure, throw, throwThe,
    MonadExceptOf.throw] at h
  grind

theorem unlockState_ok {s s' : StateManager} {requested stateid : Stateid4} {offset length : U64}
    (h : s.unlockState requested offset length = .ok (stateid, s')) :
    ∃ state, s.inner.lockFiles.get requested.other = some state ∧
      validateLockBounds offset length = .ok () ∧
      s' = { s with
        inner.lockFiles :=
          s.inner.lockFiles.modify requested.other (unlockRanges offset length) } := by
  simp only [unlockState, bind, Except.bind, pure, Except.pure, throw, throwThe,
    MonadExceptOf.throw] at h
  grind

section

variable {s s' : StateManager} {requested stateid : Stateid4} {offset length : U64}

theorem updateLockState_checks {locktype : NfsLockType4}
    (h : s.updateLockState requested locktype offset length = .ok (stateid, s')) :
    ∃ state, s.inner.lockFiles.get requested.other = some state ∧
      validateStateidSeq state.stateidSeq requested.seqid = .ok () := by
  simp only [updateLockState, bind, Except.bind, pure, Except.pure, throw, throwThe,
    MonadExceptOf.throw] at h
  grind

theorem unlockState_returns (h : s.unlockState requested offset length = .ok (stateid, s')) :
    ∃ state, s.inner.lockFiles.get requested.other = some state ∧
      validateStateidSeq state.stateidSeq requested.seqid = .ok () ∧
      stateid = ⟨state.stateidSeq + 1, requested.other⟩ := by
  simp only [unlockState, bind, Except.bind, pure, Except.pure, throw, throwThe,
    MonadExceptOf.throw] at h
  grind

end

end StateManager

end EmbedNfs

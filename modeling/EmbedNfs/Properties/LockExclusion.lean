import EmbedNfs.Effects.Calls
import EmbedNfs.Effects.Locks
import EmbedNfs.Properties.LockRanges
import EmbedNfs.Server.Scripted

/-!
# Exclusion of byte-range locks

No two lock states of one object with different owners hold ranges that share a byte, where
one of the two is a write lock: as long as every LOCK installs its range in a state in which
its own conflict check would still succeed. LOCK does not see to that itself. It checks in
one section and installs in a later one, and two LOCKs whose sections interleave can both
pass the check. The second thing LOCK does not check is the byte which a merge of ranges can
add to them (see `EmbedNfs.Properties.LockRanges`).
-/

namespace EmbedNfs

open LockRange

/-! ## Conflict checks -/

theorem locksOverlap_of_covers {a b : LockRange} {n : Nat} (ha : a.Covers n) (hb : b.Covers n) :
    locksOverlap a.offset a.length b.offset b.length = true := by
  simp only [locksOverlap, Bool.decide_and, Bool.and_eq_true, decide_eq_true_eq]
  exact ⟨lt_of_le_of_lt ha.1 hb.2, lt_of_le_of_lt hb.1 ha.2⟩

/-- What a negative `findLockConflict` says: no range of another owner's active lock state on
the object shares a byte with the request, unless both only read. -/
theorem StateManager.of_findLockConflict_eq_none {s : StateManager} {object : ServerObject}
    {owner : StateOwner4} {request : LockRange} {ignored : Option StateidOther}
    (h : s.findLockConflict object owner request.locktype request.offset request.length ignored =
      none) {k : StateidOther} {a : LockFileState} (ha : s.inner.lockFiles.get k = some a)
    (hk : some k ≠ ignored) (hactive : a.active = true) (hobject : a.object = object)
    (howner : a.owner ≠ owner) {range : LockRange} (hrange : range ∈ a.ranges) {n : Nat}
    (hcovers : range.Covers n) (hrequest : request.Covers n) :
    range.locktype.isWriteLock = false ∧ request.locktype.isWriteLock = false := by
  have hnone := List.findSome?_eq_none_iff.mp h (k, a) (Table.mem_entries.mpr ha)
  rw [Option.map_eq_none_iff] at hnone
  unfold conflictingRange at hnone
  split at hnone
  · rename_i hskip
    simp [hk, hactive, hobject, howner] at hskip
  · have hconf := List.find?_eq_none.mp hnone range hrange
    simpa [rangeConflicts, locksOverlap_of_covers hcovers hrequest] using hconf

/-! ## The invariant -/

/-- Lock states are well formed and exclude each other. -/
structure LocksExclusive (locks : Table StateidOther LockFileState) : Prop where
  valid : ∀ k a, locks.get k = some a → ∀ range ∈ a.ranges, range.Valid
  inactive : ∀ k a, locks.get k = some a → a.active = false → a.ranges = []
  exclusive : ∀ k a l b, locks.get k = some a → locks.get l = some b → a.object = b.object →
    a.owner ≠ b.owner → ∀ t u n, n ≤ lastByte → Held a.ranges t n → Held b.ranges u n →
      t.isWriteLock = false ∧ u.isWriteLock = false

theorem LocksExclusive.of_sub {t u : Table StateidOther LockFileState} (h : LocksExclusive u)
    (ht : t.Sub u) : LocksExclusive t where
  valid k a ha := h.valid k a (ht k a ha)
  inactive k a ha := h.inactive k a (ht k a ha)
  exclusive k a l b ha hb := h.exclusive k a l b (ht k a ha) (ht l b hb)

theorem LocksExclusive.active_of_mem {locks : Table StateidOther LockFileState}
    (h : LocksExclusive locks) {k : StateidOther} {a : LockFileState}
    (ha : locks.get k = some a) {range : LockRange} (hrange : range ∈ a.ranges) :
    a.active = true := by
  cases hactive : a.active with
  | true => rfl
  | false =>
    rw [h.inactive k a ha hactive] at hrange
    cases hrange

/-- **Writing one lock state.** The table stays exclusive when the entry of one key is set to
a lock state that is well formed and excludes every entry of another key. -/
theorem LocksExclusive.write {locks locks' : Table StateidOther LockFileState}
    (h : LocksExclusive locks) (key : StateidOther) (new : LockFileState)
    (hget : ∀ k a, locks'.get k = some a →
      (k = key ∧ a = new) ∨ (k ≠ key ∧ locks.get k = some a))
    (hvalid : ∀ range ∈ new.ranges, range.Valid)
    (hinactive : new.active = false → new.ranges = [])
    (hother : ∀ l b, l ≠ key → locks.get l = some b → new.object = b.object →
      new.owner ≠ b.owner → ∀ t u n, n ≤ lastByte → Held new.ranges t n → Held b.ranges u n →
        t.isWriteLock = false ∧ u.isWriteLock = false) : LocksExclusive locks' := by
  constructor
  · intro k a ha
    rcases hget k a ha with ⟨-, rfl⟩ | ⟨-, ha⟩
    · exact hvalid
    · exact h.valid k a ha
  · intro k a ha
    rcases hget k a ha with ⟨-, rfl⟩ | ⟨-, ha⟩
    · exact hinactive
    · exact h.inactive k a ha
  · intro k a l b ha hb hobject howner t u n hn ht hu
    rcases hget k a ha with ⟨rfl, rfl⟩ | ⟨hk, ha⟩ <;> rcases hget l b hb with ⟨rfl, rfl⟩ | ⟨hl, hb⟩
    · exact absurd rfl howner
    · exact hother l b hl hb hobject howner t u n hn ht hu
    · exact (hother k a hk ha hobject.symm howner.symm u t n hn hu ht).symm
    · exact h.exclusive k a l b ha hb hobject howner t u n hn ht hu

/-! ## Steps that are safe -/

/-- The ranges reach to the end of the file with the given type. -/
def reachesEnd (ranges : List LockRange) (locktype : NfsLockType4) : Bool :=
  ranges.any fun range => range.locktype = locktype ∧ range.length = u64Max

/-- Installing the replacement makes ranges of the type reach to the end of the file, which
neither they nor the replacement did. -/
def mergeWidens (ranges : List LockRange) (replacement : LockRange)
    (locktype : NfsLockType4) : Bool :=
  reachesEnd (replaceLockRange ranges replacement) locktype ∧
    !reachesEnd (replacement :: ranges) locktype

/-- The section installs no range that its conflict check would refuse now. For a section
that rewrites a lock state the check is the one LOCK makes, for the lock state's object and
owner; where a merge widens the ranges, the last byte passes the check as well. -/
def StateManager.lockSafe (s : StateManager) : Section → Bool
  | .createLockState _ owner object locktype offset length =>
    (s.findLockConflict object owner locktype offset length none).isNone
  | .updateLockState stateid locktype offset length =>
    (s.inner.lockFiles.get stateid.other).all fun lock =>
      (s.findLockConflict lock.object lock.owner locktype offset length
        (some stateid.other)).isNone &&
      [NfsLockType4.readLt, .writeLt, .readwLt, .writewLt].all fun t =>
        !mergeWidens lock.ranges { locktype, offset, length } t ||
          (s.findLockConflict lock.object lock.owner t u64Max u64Max
            (some stateid.other)).isNone
  | _ => true

/-- `StateManager.lockSafe` for a call of the server. -/
def Server.lockSafe {H : Type} (s : Server H) : Call H → Bool
  | .guarded c => s.state.lockSafe c
  | _ => true

theorem StateManager.of_lockSafe_update {s : StateManager} {stateid : Stateid4}
    {locktype : NfsLockType4} {offset length : U64} {lock : LockFileState}
    (h : s.lockSafe (.updateLockState stateid locktype offset length) = true)
    (hget : s.inner.lockFiles.get stateid.other = some lock) :
    s.findLockConflict lock.object lock.owner locktype offset length (some stateid.other) =
      none ∧
    ∀ t, mergeWidens lock.ranges { locktype, offset, length } t = true →
      s.findLockConflict lock.object lock.owner t u64Max u64Max (some stateid.other) = none := by
  simp only [lockSafe, hget, Option.all_some, Bool.and_eq_true, Option.isNone_iff_eq_none,
    List.all_cons, List.all_nil, Bool.and_true, Bool.or_eq_true, Bool.not_eq_true'] at h
  obtain ⟨hnone, h₁, h₂, h₃, h₄⟩ := h
  refine ⟨hnone, fun t ht => ?_⟩
  cases t with
  | readLt => exact h₁.resolve_left (by simp [ht])
  | writeLt => exact h₂.resolve_left (by simp [ht])
  | readwLt => exact h₃.resolve_left (by simp [ht])
  | writewLt => exact h₄.resolve_left (by simp [ht])

/-! ## Sections -/

namespace StateManager

theorem locksExclusive_create {s : StateManager} (h : LocksExclusive s.inner.lockFiles)
    {key : StateidOther} {new : LockFileState} (request : LockRange) (hvalid : request.Valid)
    (hranges : new.ranges = [request]) (hactive : new.active = true)
    (hsafe : s.findLockConflict new.object new.owner request.locktype request.offset
      request.length none = none) :
    LocksExclusive (s.inner.lockFiles.insert key new) := by
  refine h.write key new (fun _ _ => Table.of_get_insert) ?_ ?_ ?_
  · intro range hrange
    rw [hranges, List.mem_singleton] at hrange
    rw [hrange]
    exact hvalid
  · intro hfalse
    rw [hactive] at hfalse
    cases hfalse
  · rintro l b - hb hobject howner t u n - ⟨range, hrange, rfl, hcov⟩ ⟨range', hrange', rfl, hcov'⟩
    rw [hranges, List.mem_singleton] at hrange
    subst hrange
    exact (of_findLockConflict_eq_none hsafe hb (by simp) (h.active_of_mem hb hrange')
      hobject.symm howner.symm hrange' hcov' hcov).symm

theorem covers_lastByte_request (t : NfsLockType4) :
    LockRange.Covers ⟨t, u64Max, u64Max⟩ lastByte := by
  refine ⟨by rw [u64Max_toNat]; rfl, ?_⟩
  rw [lockEnd_u64Max]
  decide

theorem reachesEnd_eq_true {ranges : List LockRange} (hvalid : ∀ range ∈ ranges, range.Valid)
    {t : NfsLockType4} : reachesEnd ranges t = true ↔ Held ranges t lastByte := by
  simp only [reachesEnd, List.any_eq_true, decide_eq_true_eq, Held]
  constructor
  · rintro ⟨range, hr, ht, hl⟩
    exact ⟨range, hr, ht, (covers_lastByte (hvalid range hr)).mpr hl⟩
  · rintro ⟨range, hr, ht, hc⟩
    exact ⟨range, hr, ht, (covers_lastByte (hvalid range hr)).mp hc⟩

theorem locksExclusive_update {s : StateManager} (h : LocksExclusive s.inner.lockFiles)
    {key : StateidOther} {lock : LockFileState} (request : LockRange) (hvalid : request.Valid)
    (hget : s.inner.lockFiles.get key = some lock)
    (hsafe : s.findLockConflict lock.object lock.owner request.locktype request.offset
      request.length (some key) = none)
    (hwide : ∀ t, mergeWidens lock.ranges request t = true →
      s.findLockConflict lock.object lock.owner t u64Max u64Max (some key) = none)
    {f : LockFileState → LockFileState} (hobject : (f lock).object = lock.object)
    (howner : (f lock).owner = lock.owner) (hactive : (f lock).active = true)
    (hranges : (f lock).ranges = replaceLockRange lock.ranges request) :
    LocksExclusive (s.inner.lockFiles.modify key f) := by
  have hlock := h.valid key lock hget
  obtain ⟨hnew, hheld⟩ := replaceLockRange_spec hlock hvalid
  refine h.write key (f lock) ?_ ?_ ?_ ?_
  · intro k a ha
    rcases Table.of_get_modify ha with ⟨rfl, old, hold, rfl⟩ | hother
    · cases hget.symm.trans hold
      exact Or.inl ⟨rfl, rfl⟩
    · exact Or.inr hother
  · rw [hranges]
    exact hnew
  · intro hfalse
    rw [hactive] at hfalse
    cases hfalse
  · intro l b hl hb hobj hown t u n hn ht hu
    rw [hobject] at hobj
    rw [howner] at hown
    rw [hranges] at ht
    have hactiveb : b.active = true := by
      obtain ⟨range, hrange, -⟩ := hu
      exact h.active_of_mem hb hrange
    -- A byte the other state holds passes every check made against that state.
    have hcheck : ∀ request : LockRange, request.Covers n →
        s.findLockConflict lock.object lock.owner request.locktype request.offset
          request.length (some key) = none →
        request.locktype.isWriteLock = false ∧ u.isWriteLock = false := by
      intro request hcov hnone
      obtain ⟨range, hrange, rfl, hcov'⟩ := hu
      exact (of_findLockConflict_eq_none hnone hb (by simpa using hl) hactiveb hobj.symm
        hown.symm hrange hcov' hcov).symm
    have hold : Held lock.ranges t n → t.isWriteLock = false ∧ u.isWriteLock = false :=
      fun ht => h.exclusive key lock l b hget hb hobj hown t u n hn ht hu
    rcases Nat.lt_or_eq_of_le hn with hlt | rfl
    · rcases (hheld t n hlt).mp ht with ⟨ht, -⟩ | ⟨rfl, hcov⟩
      · exact hold ht
      · exact hcheck request hcov hsafe
    · -- The last byte: held before, requested, or added by a merge.
      by_cases hreach : Held (request :: lock.ranges) t lastByte
      · rcases held_cons.mp hreach with ⟨rfl, hcov⟩ | ht
        · exact hcheck request hcov hsafe
        · exact hold ht
      · have hcons : ∀ range ∈ request :: lock.ranges, range.Valid := by
          intro range hrange
          rcases List.mem_cons.mp hrange with rfl | hrange
          · exact hvalid
          · exact hlock range hrange
        have hmerge : mergeWidens lock.ranges request t = true := by
          have h₁ := (reachesEnd_eq_true hnew).mpr ht
          have h₂ : reachesEnd (request :: lock.ranges) t = false := by
            rw [← Bool.not_eq_true, reachesEnd_eq_true hcons]
            exact hreach
          simp [mergeWidens, h₁, h₂]
        exact hcheck ⟨t, u64Max, u64Max⟩ (covers_lastByte_request t) (hwide t hmerge)

theorem locksExclusive_unlock {s : StateManager} (h : LocksExclusive s.inner.lockFiles)
    {key : StateidOther} {offset length : U64}
    (hcut : validateLockBounds offset length = .ok ()) :
    LocksExclusive (s.inner.lockFiles.modify key (unlockRanges offset length)) := by
  have hkeep : ∀ lock, (unlockRanges offset length lock).object = lock.object ∧
      (unlockRanges offset length lock).owner = lock.owner := by
    intro lock
    unfold unlockRanges
    split <;> exact ⟨rfl, rfl⟩
  cases hget : s.inner.lockFiles.get key with
  | none =>
    refine h.of_sub fun k a ha => ?_
    rcases Table.of_get_modify ha with ⟨-, old, hold, -⟩ | ⟨-, ha⟩
    · cases hget.symm.trans hold
    · exact ha
  | some lock =>
    obtain ⟨hvalid, hinactive, hheld⟩ :=
      unlockRanges_spec hcut (h.valid key lock hget) (h.inactive key lock hget)
    refine h.write key (unlockRanges offset length lock) ?_ hvalid hinactive ?_
    · intro k a ha
      rcases Table.of_get_modify ha with ⟨rfl, old, hold, rfl⟩ | hother
      · cases hget.symm.trans hold
        exact Or.inl ⟨rfl, rfl⟩
      · exact Or.inr hother
    · intro l b _ hb hobj hown t u n hn ht hu
      rw [(hkeep lock).1] at hobj
      rw [(hkeep lock).2] at hown
      exact h.exclusive key lock l b hget hb hobj hown t u n hn (hheld t n ht) hu

theorem runSection_locksExclusive (s : StateManager) (c : Section)
    (h : LocksExclusive s.inner.lockFiles) (hsafe : s.lockSafe c = true) :
    LocksExclusive (s.runSection c).2.inner.lockFiles := by
  cases hc : c.locks with
  | false => exact h.of_sub (s.runSection_locks_sub c hc)
  | true =>
    let P := fun s : StateManager => LocksExclusive s.inner.lockFiles
    cases c with
    | createLockState openStateid owner object locktype offset length =>
      refine commit_keeps P h fun a s' hok => ?_
      obtain ⟨hbounds, -, -, -, rfl⟩ := createLockState_ok hok
      exact locksExclusive_create h ⟨locktype, offset, length⟩ hbounds rfl rfl
        (Option.isNone_iff_eq_none.mp hsafe)
    | updateLockState stateid locktype offset length =>
      refine commit_keeps P h fun a s' hok => ?_
      obtain ⟨lock, hget, hbounds, -, rfl⟩ := updateLockState_ok hok
      obtain ⟨hnone, hwide⟩ := of_lockSafe_update hsafe hget
      dsimp only [P]
      refine locksExclusive_update h ⟨locktype, offset, length⟩ hbounds hget hnone hwide ?_ ?_ ?_ ?_
      all_goals rfl
    | unlockState stateid offset length =>
      refine commit_keeps P h fun a s' hok => ?_
      obtain ⟨state, -, hbounds, rfl⟩ := unlockState_ok hok
      exact locksExclusive_unlock h hbounds
    | _ => cases hc

end StateManager

/-! ## Runs -/

/-- **Lock exclusion.** Let any requests run against a server, with their steps interleaved
in any order. If every section of the run that installs a range does so in a state in which
the conflict check for it would succeed, then no two active lock states of one object with
different owners hold ranges that share a byte where one of them is a write lock. -/
theorem lock_exclusion {H α : Type} [DecidableEq H] {backend : Backend H} {boot : Boot}
    {threads : List (Request H α)} {tr : Trace H}
    {c : Machine H α}
    (hrun : (Server.system backend).Run ⟨Server.new H boot, threads⟩ tr c)
    (hsafe : ∀ e ∈ tr, e.before.lockSafe e.call = true)
    (k l : StateidOther) (a b : LockFileState)
    (ha : c.state.state.inner.lockFiles.get k = some a)
    (hb : c.state.state.inner.lockFiles.get l = some b) (_ : a.active = true)
    (_ : b.active = true) (hobject : a.object = b.object) (howner : a.owner ≠ b.owner)
    (r r' : LockRange) (hr : r ∈ a.ranges) (hr' : r' ∈ b.ranges)
    (hwrite : r.locktype.isWriteLock = true ∨ r'.locktype.isWriteLock = true) (n : Nat)
    (hn : n < 2 ^ 64) : ¬(r.Covers n ∧ r'.Covers n) := by
  have hexclusive : LocksExclusive c.state.state.inner.lockFiles := by
    refine hrun.inner_invariant (I := fun inner => LocksExclusive inner.lockFiles) ?_ ?_ ?_
    · constructor
      · intro k a ha
        cases ha
      · intro k a ha
        cases ha
      · intro k a l b ha
        cases ha
    · exact fun s s' hdrift h => h.of_sub fun k v hv => (hdrift.lockFiles k).trans hv
    · intro e he q hq h
      have hq' := hsafe e he
      rw [hq] at hq'
      exact e.before.state.runSection_locksExclusive q h hq'
  rintro ⟨hcov, hcov'⟩
  obtain ⟨h₁, h₂⟩ := hexclusive.exclusive k a l b ha hb hobject howner r.locktype r'.locktype n
    (by unfold lastByte; omega) ⟨r, hr, rfl, hcov⟩ ⟨r', hr', rfl, hcov'⟩
  rcases hwrite with h | h
  · rw [h₁] at h
    cases h
  · rw [h₂] at h
    cases h

/-! ## Two clients -/

open Scripted

/-- Two clients whose LOCKs of overlapping ranges both pass the conflict check before either
installs its range: both get a write lock, and byte 5 is in both. -/
theorem lock_exclusion_interleaved :
    ∃ tr c, (Server.system Backend.single).Run
        ⟨Server.new Unit .fixed, setUp ++
          [lockBy 1 (.mint 1 1) .writeLt 0 10, lockBy 2 (.mint 2 2) .writeLt 5 10]⟩ tr c ∧
      ∃ k l a b r r', c.state.state.inner.lockFiles.get k = some a ∧
        c.state.state.inner.lockFiles.get l = some b ∧ a.active = true ∧ b.active = true ∧
        a.object = b.object ∧ a.owner ≠ b.owner ∧ r ∈ a.ranges ∧ r' ∈ b.ranges ∧
        r.locktype.isWriteLock = true ∧ r.Covers 5 ∧ r'.Covers 5 :=
  ⟨_, _, run_run _ (List.replicate 7 5 ++ List.replicate 9 6 ++ List.replicate 2 5),
    .mint 4 1, .mint 3 2,
    ⟨.fs 1, ⟨1, [1]⟩, .mint 1 1, [⟨.writeLt, 0, 10⟩], true, 1⟩,
    ⟨.fs 1, ⟨2, [1]⟩, .mint 2 2, [⟨.writeLt, 5, 10⟩], true, 1⟩,
    ⟨.writeLt, 0, 10⟩, ⟨.writeLt, 5, 10⟩, by unfold LockRange.Covers; decide +kernel⟩

/-- Locks of neighbouring ranges, one request after the other. -/
theorem lock_exclusion_neighbours :
    let c := (run [lockBy 1 (.mint 1 1) .writeLt 0 10, lockBy 2 (.mint 2 2) .writeLt 10 10]
      (List.replicate 9 5 ++ List.replicate 9 6)).2
    c.state.state.inner.lockFiles.get (.mint 3 1) =
      some ⟨.fs 1, ⟨1, [1]⟩, .mint 1 1, [⟨.writeLt, 0, 10⟩], true, 1⟩ ∧
    c.state.state.inner.lockFiles.get (.mint 4 2) =
      some ⟨.fs 1, ⟨2, [1]⟩, .mint 2 2, [⟨.writeLt, 10, 10⟩], true, 1⟩ ∧
    ¬((LockRange.mk .writeLt 0 10).Covers 9 ∧ (LockRange.mk .writeLt 10 10).Covers 9) := by
  intro c
  have hk : c.state.state.inner.lockFiles.get (.mint 3 1) =
      some ⟨.fs 1, ⟨1, [1]⟩, .mint 1 1, [⟨.writeLt, 0, 10⟩], true, 1⟩ := by decide +kernel
  have hl : c.state.state.inner.lockFiles.get (.mint 4 2) =
      some ⟨.fs 1, ⟨2, [1]⟩, .mint 2 2, [⟨.writeLt, 10, 10⟩], true, 1⟩ := by decide +kernel
  refine ⟨hk, hl, ?_⟩
  exact lock_exclusion (run_run _ _) (List.all_eq_true.mp (by decide +kernel)) _ _ _ _ hk hl
    rfl rfl rfl (by decide) _ _ (List.mem_singleton.mpr rfl) (List.mem_singleton.mpr rfl)
    (Or.inl rfl) 9 (by decide)

end EmbedNfs

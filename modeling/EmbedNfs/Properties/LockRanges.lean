import EmbedNfs.Session.Locks

/-!
# The bytes a list of ranges covers

Granted ranges are cut where a new one overlaps them, sorted, and merged with their
neighbours. Cutting never makes a range cover a byte that it did not cover before. Merging
does so in one case: ranges that together cover exactly the bytes below `u64::MAX` become a
range whose length is `u64::MAX`, which means "to the end of the file" and takes in the byte
at offset `u64::MAX` as well.
-/

namespace EmbedNfs

namespace LockRange

/-- The byte at offset `b` lies in the range. -/
def Covers (range : LockRange) (b : Nat) : Prop :=
  range.offset.toNat ≤ b ∧ b < lockEnd range.offset range.length

/-- The range has passed `validate_lock_bounds`. -/
def Valid (range : LockRange) : Prop := validateLockBounds range.offset range.length = .ok ()

/-- The byte at the largest offset there is. -/
def lastByte : Nat := 2 ^ 64 - 1

end LockRange

open LockRange

/-! ## Ends -/

theorem u64Max_toNat : u64Max.toNat = 2 ^ 64 - 1 := by decide

theorem lockEnd_u64Max (offset : U64) : lockEnd offset u64Max = u128Max := by
  simp [lockEnd]

theorem validateLockBounds_ok {offset length : U64} :
    validateLockBounds offset length = .ok () ↔
      0 < length.toNat ∧ (length = u64Max ∨ offset.toNat + length.toNat < 2 ^ 64) := by
  have hzero : length = 0 ↔ length.toNat = 0 := by
    rw [← BitVec.toNat_inj]
    rfl
  unfold validateLockBounds
  split
  · rename_i h
    rw [hzero] at h
    simp [h]
  · rename_i h
    rw [hzero] at h
    split
    · rename_i h
      simp only [reduceCtorEq, false_iff, not_and, not_or]
      exact fun _ => ⟨h.1, by omega⟩
    · rename_i hbounds
      simp only [true_iff]
      refine ⟨by omega, ?_⟩
      by_cases hmax : length = u64Max
      · exact Or.inl hmax
      · exact Or.inr (Nat.lt_of_not_le fun hle => hbounds ⟨hmax, hle⟩)

theorem lockEnd_of_valid {range : LockRange} (h : range.Valid) :
    (range.length = u64Max ∧ lockEnd range.offset range.length = u128Max) ∨
      (range.length ≠ u64Max ∧ lockEnd range.offset range.length ≤ lastByte ∧
        range.offset.toNat < lockEnd range.offset range.length) := by
  obtain ⟨hpos, hmax⟩ := validateLockBounds_ok.mp h
  by_cases hl : range.length = u64Max
  · left
    exact ⟨hl, by rw [hl, lockEnd_u64Max]⟩
  · right
    have hlt := hmax.resolve_left hl
    simp only [lockEnd, hl, ↓reduceIte, lastByte]
    exact ⟨hl, by omega, by omega⟩

theorem covers_lastByte {range : LockRange} (h : range.Valid) :
    range.Covers lastByte ↔ range.length = u64Max := by
  have hoffset := range.offset.isLt
  have hlast : lastByte < u128Max := by decide
  rcases lockEnd_of_valid h with ⟨hl, hend⟩ | ⟨hl, hend, -⟩
  · simp only [hl, iff_true]
    exact ⟨by unfold lastByte; omega, by rw [hend]; exact hlast⟩
  · simp only [Covers, hl, iff_false]
    omega

/-! ## Ranges from bounds -/

/-- An end that a valid range can have. -/
def IsEnd (stop : Nat) : Prop := stop ≤ lastByte ∨ stop = u128Max

theorem isEnd_lockEnd {range : LockRange} (h : range.Valid) :
    IsEnd (lockEnd range.offset range.length) := by
  rcases lockEnd_of_valid h with ⟨-, hend⟩ | ⟨-, hend, -⟩
  · exact Or.inr hend
  · exact Or.inl hend

theorem rangeFromBounds_offset {locktype : NfsLockType4} {start : U64} {stop : Nat}
    {range : LockRange} (h : rangeFromBounds locktype start stop = some range) :
    range.offset = start := by
  unfold rangeFromBounds at h
  split at h
  · cases h
  · cases h
    rfl

/-- What `rangeFromBounds` makes: a valid range with the given start. It covers exactly the
bytes between the bounds, except where it starts at zero and ends at `u64::MAX`. -/
theorem rangeFromBounds_spec {locktype : NfsLockType4} {start : U64} {stop : Nat}
    {range : LockRange} (hstop : IsEnd stop)
    (h : rangeFromBounds locktype start stop = some range) :
    range.locktype = locktype ∧ range.Valid ∧
      (∀ b, range.Covers b → start.toNat ≤ b ∧
        (b < stop ∨ (start.toNat = 0 ∧ stop = lastByte ∧ lastByte ≤ b))) := by
  unfold rangeFromBounds at h
  split at h
  · cases h
  rename_i hlt
  simp only [Option.some.injEq] at h
  subst h
  have hstart := start.isLt
  by_cases hfull : stop = u128Max
  · simp only [hfull, ↓reduceIte, Covers, lockEnd_u64Max, Valid, validateLockBounds_ok,
      u64Max_toNat, true_or, and_true, true_and]
    exact ⟨by omega, fun b hb => ⟨hb.1, Or.inl hb.2⟩⟩
  · have hle : stop ≤ lastByte := hstop.resolve_right hfull
    have hlen : (BitVec.ofNat 64 (stop - start.toNat)).toNat = stop - start.toNat := by
      rw [BitVec.toNat_ofNat, Nat.mod_eq_of_lt]
      unfold lastByte at hle
      omega
    have hwide : BitVec.ofNat 64 (stop - start.toNat) = u64Max ↔
        stop - start.toNat = 2 ^ 64 - 1 := by
      rw [← BitVec.toNat_inj, hlen, u64Max_toNat]
    simp only [hfull, ↓reduceIte, Covers, Valid, validateLockBounds_ok, hlen, lockEnd, hwide,
      true_and]
    unfold lastByte at *
    refine ⟨⟨by omega, by omega⟩, fun b hb => ⟨hb.1, ?_⟩⟩
    · by_cases hw : stop - start.toNat = 2 ^ 64 - 1
      · omega
      · simp only [hw, ↓reduceIte] at hb
        omega

theorem rangeFromBounds_covers {locktype : NfsLockType4} {start : U64} {stop b : Nat}
    (hstop : IsEnd stop) (hb : b < lastByte) :
    (∃ range, rangeFromBounds locktype start stop = some range ∧ range.Covers b) ↔
      start.toNat ≤ b ∧ b < stop := by
  constructor
  · rintro ⟨range, h, hcov⟩
    obtain ⟨-, -, hspec⟩ := rangeFromBounds_spec hstop h
    obtain ⟨h₁, h₂⟩ := hspec b hcov
    exact ⟨h₁, by omega⟩
  · rintro ⟨h₁, h₂⟩
    have hlast : lastByte < u128Max := by decide
    have hne : ¬stop ≤ start.toNat := by omega
    refine ⟨_, if_neg hne, h₁, ?_⟩
    by_cases hfull : stop = u128Max
    · simp only [hfull, ↓reduceIte, lockEnd_u64Max]
      omega
    · have hle : stop ≤ lastByte := hstop.resolve_right hfull
      have hlen : (BitVec.ofNat 64 (stop - start.toNat)).toNat = stop - start.toNat := by
        rw [BitVec.toNat_ofNat, Nat.mod_eq_of_lt]
        unfold lastByte at hle
        omega
      simp only [hfull, ↓reduceIte, lockEnd, hlen]
      split <;> omega

/-! ## Cutting -/

theorem cutRange_cases {offset length : U64} {range piece : LockRange}
    (hcut : validateLockBounds offset length = .ok ())
    (h : piece ∈ cutRange offset length range) :
    (piece = range ∧ ¬(range.offset.toNat < lockEnd offset length ∧
      offset.toNat < lockEnd range.offset range.length)) ∨
    (offset.toNat < lockEnd range.offset range.length ∧
      rangeFromBounds range.locktype range.offset offset.toNat = some piece) ∨
    ∃ start : U64, start.toNat = lockEnd offset length ∧ range.offset.toNat < start.toNat ∧
      rangeFromBounds range.locktype start (lockEnd range.offset range.length) = some piece := by
  unfold cutRange at h
  simp only [locksOverlap, Bool.decide_and, Bool.and_eq_true, decide_eq_true_eq] at h
  split at h
  · rename_i hoverlap
    simp only [List.mem_append, Option.mem_toList] at h
    rcases h with h | h
    · exact Or.inr (Or.inl ⟨hoverlap.2, h⟩)
    · split at h
      · cases h
      · rename_i hcutEnd
        have hne : length ≠ u64Max := fun heq => hcutEnd (by rw [heq, lockEnd_u64Max])
        have hlt := (validateLockBounds_ok.mp hcut).2.resolve_left hne
        have hfit : (BitVec.ofNat 64 (lockEnd offset length)).toNat = lockEnd offset length := by
          simp only [lockEnd, hne, ↓reduceIte]
          rw [BitVec.toNat_ofNat, Nat.mod_eq_of_lt hlt]
        exact Or.inr (Or.inr ⟨_, hfit, by rw [hfit]; exact hoverlap.1, h⟩)
  · rename_i hoverlap
    exact Or.inl ⟨List.mem_singleton.mp h, hoverlap⟩

theorem cutRange_spec {offset length : U64} {range piece : LockRange} (hrange : range.Valid)
    (hcut : validateLockBounds offset length = .ok ())
    (h : piece ∈ cutRange offset length range) :
    piece.locktype = range.locktype ∧ piece.Valid ∧ ∀ b, piece.Covers b → range.Covers b := by
  rcases cutRange_cases hcut h with ⟨rfl, -⟩ | ⟨hlt, h⟩ | ⟨start, -, hlt, h⟩
  · exact ⟨rfl, hrange, fun _ => id⟩
  · obtain ⟨htype, hvalid, hcov⟩ :=
      rangeFromBounds_spec (Or.inl (Nat.le_pred_of_lt offset.isLt)) h
    refine ⟨htype, hvalid, fun b hb => ⟨(hcov b hb).1, ?_⟩⟩
    rcases (hcov b hb).2 with hb' | ⟨-, hlast, -⟩
    · omega
    · -- It reaches to the end only where the range did.
      have hend := isEnd_lockEnd hrange
      have hend' := isEnd_lockEnd hvalid
      have hmax : lastByte < u128Max := by decide
      have := hb.2
      unfold IsEnd at hend hend'
      omega
  · obtain ⟨htype, hvalid, hcov⟩ := rangeFromBounds_spec (isEnd_lockEnd hrange) h
    refine ⟨htype, hvalid, fun b hb => ?_⟩
    obtain ⟨h₁, h₂⟩ := hcov b hb
    exact ⟨by omega, by omega⟩

theorem cutRange_outside {offset length : U64} {range piece : LockRange} (hrange : range.Valid)
    (hcut : validateLockBounds offset length = .ok ())
    (hends : offset ≠ u64Max ∨ range.offset ≠ 0) (h : piece ∈ cutRange offset length range)
    {b : Nat} (hb : piece.Covers b) : ¬(offset.toNat ≤ b ∧ b < lockEnd offset length) := by
  rintro ⟨hlow, hhigh⟩
  rcases cutRange_cases hcut h with ⟨rfl, hmiss⟩ | ⟨-, h⟩ | ⟨start, hstart, -, h⟩
  · exact hmiss ⟨lt_of_le_of_lt hb.1 hhigh, lt_of_le_of_lt hlow hb.2⟩
  · obtain ⟨-, -, hcov⟩ := rangeFromBounds_spec (Or.inl (Nat.le_pred_of_lt offset.isLt)) h
    rcases (hcov b hb).2 with hlt | ⟨hzero, hlast, -⟩
    · omega
    · have hmax : offset = u64Max := BitVec.eq_of_toNat_eq (hlast.trans u64Max_toNat.symm)
      exact hends.elim (· hmax) (· (BitVec.eq_of_toNat_eq hzero))
  · obtain ⟨-, -, hcov⟩ := rangeFromBounds_spec (isEnd_lockEnd hrange) h
    have := (hcov b hb).1
    omega

theorem cutRange_covers {offset length : U64} {range : LockRange} {b : Nat}
    (hrange : range.Valid) (hcut : validateLockBounds offset length = .ok ()) (hb : b < lastByte) :
    (∃ piece ∈ cutRange offset length range, piece.Covers b) ↔
      range.Covers b ∧ ¬(offset.toNat ≤ b ∧ b < lockEnd offset length) := by
  have hlast : lastByte < u128Max := by decide
  unfold cutRange
  split
  · rename_i hoverlap
    have hoffset : IsEnd offset.toNat := Or.inl (Nat.le_pred_of_lt offset.isLt)
    have hleft : (∃ left, rangeFromBounds range.locktype range.offset offset.toNat = some left ∧
        left.Covers b) ↔ range.offset.toNat ≤ b ∧ b < offset.toNat :=
      rangeFromBounds_covers hoffset hb
    simp only [List.mem_append, Option.mem_toList, or_and_right, exists_or, hleft]
    simp only [locksOverlap, Bool.decide_and, Bool.and_eq_true, decide_eq_true_eq] at hoverlap
    split
    · rename_i hcutEnd
      simp only [Covers, hcutEnd, reduceCtorEq, false_and, exists_false, or_false]
      omega
    · rename_i hcutEnd
      have hne : length ≠ u64Max := fun heq => hcutEnd (by rw [heq, lockEnd_u64Max])
      obtain ⟨hpos, hmax⟩ := validateLockBounds_ok.mp hcut
      have hlt := hmax.resolve_left hne
      have hcutEq : lockEnd offset length = offset.toNat + length.toNat := by
        simp [lockEnd, hne]
      have hfit : (BitVec.ofNat 64 (lockEnd offset length)).toNat = lockEnd offset length := by
        rw [hcutEq, BitVec.toNat_ofNat, Nat.mod_eq_of_lt hlt]
      rw [rangeFromBounds_covers (isEnd_lockEnd hrange) hb, hfit]
      simp only [Covers]
      omega
  · rename_i hoverlap
    simp only [locksOverlap, Bool.decide_and, Bool.and_eq_true, decide_eq_true_eq] at hoverlap
    simp only [List.mem_singleton, exists_eq_left, Covers]
    omega

/-! ## Merging -/

/-- The ranges of one type in a list that cover a byte. -/
def Held (ranges : List LockRange) (locktype : NfsLockType4) (b : Nat) : Prop :=
  ∃ range ∈ ranges, range.locktype = locktype ∧ range.Covers b

theorem held_cons {range : LockRange} {ranges : List LockRange} {locktype : NfsLockType4}
    {b : Nat} : Held (range :: ranges) locktype b ↔
      (range.locktype = locktype ∧ range.Covers b) ∨ Held ranges locktype b := by
  simp [Held]

theorem held_append {ranges ranges' : List LockRange} {locktype : NfsLockType4} {b : Nat} :
    Held (ranges ++ ranges') locktype b ↔ Held ranges locktype b ∨ Held ranges' locktype b := by
  simp [Held, or_and_right, exists_or]

theorem mergeTwo_spec {last range : LockRange} (hlast : last.Valid) (hrange : range.Valid)
    (horder : last.offset ≤ range.offset)
    (htouch : range.offset.toNat ≤ lockEnd last.offset last.length) :
    let merged := (rangeFromBounds last.locktype last.offset
      (max (lockEnd last.offset last.length) (lockEnd range.offset range.length))).getD last
    merged.locktype = last.locktype ∧ merged.offset = last.offset ∧ merged.Valid ∧
      ∀ b, b < lastByte → (merged.Covers b ↔ last.Covers b ∨ range.Covers b) := by
  intro merged
  have horder : last.offset.toNat ≤ range.offset.toNat := horder
  have hlt : lastByte < u128Max := by decide
  have hends : IsEnd (max (lockEnd last.offset last.length)
      (lockEnd range.offset range.length)) := by
    rcases isEnd_lockEnd hlast with h₁ | h₁ <;> rcases isEnd_lockEnd hrange with h₂ | h₂
    · exact Or.inl (by omega)
    · exact Or.inr (by omega)
    · exact Or.inr (by omega)
    · exact Or.inr (by omega)
  have hpos : last.offset.toNat < lockEnd last.offset last.length := by
    have hoffset := last.offset.isLt
    rcases lockEnd_of_valid hlast with ⟨-, hend⟩ | ⟨-, -, hend⟩
    · unfold lastByte at hlt
      omega
    · exact hend
  cases h : rangeFromBounds last.locktype last.offset
      (max (lockEnd last.offset last.length) (lockEnd range.offset range.length)) with
  | none =>
    -- The merged interval is not empty.
    unfold rangeFromBounds at h
    split at h
    · omega
    · cases h
  | some new =>
    obtain ⟨htype, hvalid, -⟩ := rangeFromBounds_spec hends h
    simp only [merged, h, Option.getD_some]
    refine ⟨htype, rangeFromBounds_offset h, hvalid, fun b hb => ?_⟩
    have hcovers : (∃ merged, some new = some merged ∧ merged.Covers b) ↔ _ :=
      h ▸ rangeFromBounds_covers hends hb
    simp only [Option.some.injEq, exists_eq_left'] at hcovers
    rw [hcovers]
    simp only [Covers]
    omega

theorem mergeLockRanges_spec {last : LockRange} {ranges : List LockRange} (hlast : last.Valid)
    (hranges : ∀ range ∈ ranges, range.Valid)
    (hsorted : (last :: ranges).Pairwise fun a b => a.offset ≤ b.offset) :
    (∀ range ∈ mergeLockRanges last ranges, range.Valid) ∧
      ∀ locktype b, b < lastByte → (Held (mergeLockRanges last ranges) locktype b ↔
        Held (last :: ranges) locktype b) := by
  induction ranges generalizing last with
  | nil =>
    refine ⟨fun range hrange => ?_, fun _ _ _ => Iff.rfl⟩
    rw [List.mem_singleton.mp hrange]
    exact hlast
  | cons range ranges ih =>
    have hrange := hranges range (List.mem_cons_self ..)
    have htail := fun r hr => hranges r (List.mem_cons_of_mem _ hr)
    obtain ⟨horder, hsorted'⟩ := List.pairwise_cons.mp hsorted
    unfold mergeLockRanges
    dsimp only
    split
    · rename_i hcond
      obtain ⟨hmtype, hmoffset, hmvalid, hmcov⟩ :=
        mergeTwo_spec hlast hrange (horder range (List.mem_cons_self ..)) hcond.2
      have hmsorted := List.pairwise_cons.mpr
        ⟨fun r hr => hmoffset ▸ horder r (List.mem_cons_of_mem _ hr), hsorted'.of_cons⟩
      obtain ⟨hvalid, hheld⟩ := ih hmvalid htail hmsorted
      refine ⟨hvalid, fun locktype b hb => ?_⟩
      rw [hheld locktype b hb, held_cons, held_cons, held_cons, hmtype, hmcov b hb, ← hcond.1]
      tauto
    · obtain ⟨hvalid, hheld⟩ := ih hrange htail hsorted'
      constructor
      · intro r hr
        rcases List.mem_cons.mp hr with rfl | hr
        · exact hlast
        · exact hvalid r hr
      · intro locktype b hb
        rw [held_cons, held_cons, hheld locktype b hb]

theorem normalizeLockRanges_spec {ranges : List LockRange}
    (hranges : ∀ range ∈ ranges, range.Valid) :
    (∀ range ∈ normalizeLockRanges ranges, range.Valid) ∧
      ∀ locktype b, b < lastByte → (Held (normalizeLockRanges ranges) locktype b ↔
        Held ranges locktype b) := by
  -- Sorting does not change which ranges there are.
  have hmem : ∀ r, r ∈ ranges.insertionSort (fun a b => a.offset ≤ b.offset) ↔ r ∈ ranges :=
    fun r => List.mem_insertionSort _
  have hsorted := List.pairwise_insertionSort (fun a b : LockRange => a.offset ≤ b.offset) ranges
  have hheld : ∀ locktype b,
      Held (ranges.insertionSort fun a b => a.offset ≤ b.offset) locktype b ↔
        Held ranges locktype b := fun locktype b => by simp only [Held, hmem]
  unfold normalizeLockRanges
  cases hcons : ranges.insertionSort fun a b => a.offset ≤ b.offset with
  | nil =>
    refine ⟨fun _ h => absurd h List.not_mem_nil, fun locktype b _ => ?_⟩
    rw [← hheld, hcons]
  | cons first rest =>
    rw [hcons] at hsorted hmem
    obtain ⟨hvalid, hmerge⟩ := mergeLockRanges_spec
      (hranges first ((hmem first).mp (List.mem_cons_self ..)))
      (fun r hr => hranges r ((hmem r).mp (List.mem_cons_of_mem _ hr))) hsorted
    refine ⟨hvalid, fun locktype b hb => ?_⟩
    rw [hmerge locktype b hb, ← hheld, hcons]

theorem flatMap_cutRange_spec {offset length : U64} {ranges : List LockRange}
    (hranges : ∀ range ∈ ranges, range.Valid)
    (hcut : validateLockBounds offset length = .ok ()) :
    (∀ piece ∈ ranges.flatMap (cutRange offset length), piece.Valid) ∧
      ∀ locktype b, b < lastByte → (Held (ranges.flatMap (cutRange offset length)) locktype b ↔
        Held ranges locktype b ∧ ¬(offset.toNat ≤ b ∧ b < lockEnd offset length)) := by
  constructor
  · intro piece hpiece
    obtain ⟨range, hr, hp⟩ := List.mem_flatMap.mp hpiece
    exact (cutRange_spec (hranges range hr) hcut hp).2.1
  · intro locktype b hb
    constructor
    · rintro ⟨piece, hpiece, rfl, hcov⟩
      obtain ⟨range, hr, hp⟩ := List.mem_flatMap.mp hpiece
      obtain ⟨hcov', hout⟩ :=
        (cutRange_covers (hranges range hr) hcut hb).mp ⟨piece, hp, hcov⟩
      exact ⟨⟨range, hr, (cutRange_spec (hranges range hr) hcut hp).1.symm, hcov'⟩, hout⟩
    · rintro ⟨⟨range, hr, rfl, hcov⟩, hout⟩
      obtain ⟨piece, hp, hcov'⟩ := (cutRange_covers (hranges range hr) hcut hb).mpr ⟨hcov, hout⟩
      exact ⟨piece, List.mem_flatMap.mpr ⟨range, hr, hp⟩,
        (cutRange_spec (hranges range hr) hcut hp).1, hcov'⟩

/-- Replacing keeps ranges valid; below the last byte, what is held afterwards is in the
replacement, or was held before with the same type and is not in the replacement. -/
theorem replaceLockRange_spec {ranges : List LockRange} {replacement : LockRange}
    (hranges : ∀ range ∈ ranges, range.Valid) (hnew : replacement.Valid) :
    (∀ range ∈ replaceLockRange ranges replacement, range.Valid) ∧
      ∀ locktype b, b < lastByte → (Held (replaceLockRange ranges replacement) locktype b ↔
        (Held ranges locktype b ∧ ¬replacement.Covers b) ∨
          (replacement.locktype = locktype ∧ replacement.Covers b)) := by
  obtain ⟨hvalid, hheld⟩ := flatMap_cutRange_spec hranges hnew
  have hcut : ∀ piece ∈ ranges.flatMap (cutRange replacement.offset replacement.length) ++
      [replacement], piece.Valid := by
    intro piece hpiece
    rcases List.mem_append.mp hpiece with h | h
    · exact hvalid piece h
    · rw [List.mem_singleton.mp h]
      exact hnew
  obtain ⟨hvalid', hheld'⟩ := normalizeLockRanges_spec hcut
  refine ⟨hvalid', fun locktype b hb => ?_⟩
  have hold := hheld locktype b hb
  have hboth : Held (replaceLockRange ranges replacement) locktype b ↔
      Held (ranges.flatMap (cutRange replacement.offset replacement.length) ++ [replacement])
        locktype b := hheld' locktype b hb
  rw [hboth, held_append, hold, held_cons]
  simp [Held, Covers]

/-! ## Unlocking -/

namespace StateManager

theorem unlockRanges_ranges (offset length : U64) (lock : LockFileState) :
    (unlockRanges offset length lock).ranges = lock.ranges.flatMap (cutRange offset length) := by
  unfold unlockRanges
  split
  · rfl
  · rename_i hnone
    have hsame : ∀ range ∈ lock.ranges, cutRange offset length range = [range] := by
      intro range hrange
      refine if_neg fun hoverlap => hnone ?_
      exact List.any_eq_true.mpr ⟨range, hrange, hoverlap⟩
    rw [List.flatMap_congr hsame]
    simp

theorem unlockRanges_spec {offset length : U64} {lock : LockFileState}
    (hcut : validateLockBounds offset length = .ok ())
    (hvalid : ∀ range ∈ lock.ranges, range.Valid)
    (hinactive : lock.active = false → lock.ranges = []) :
    (∀ range ∈ (unlockRanges offset length lock).ranges, range.Valid) ∧
    ((unlockRanges offset length lock).active = false →
      (unlockRanges offset length lock).ranges = []) ∧
    ∀ t n, Held (unlockRanges offset length lock).ranges t n → Held lock.ranges t n := by
  unfold unlockRanges
  split
  · have hpiece : ∀ piece ∈ lock.ranges.flatMap (cutRange offset length), ∃ range ∈ lock.ranges,
        piece.locktype = range.locktype ∧ piece.Valid ∧
          ∀ b, piece.Covers b → range.Covers b := by
      intro piece hpiece
      obtain ⟨range, hr, hp⟩ := List.mem_flatMap.mp hpiece
      exact ⟨range, hr, cutRange_spec (hvalid range hr) hcut hp⟩
    refine ⟨?_, by simp, ?_⟩
    · intro piece hp
      obtain ⟨range, -, -, hv, -⟩ := hpiece piece hp
      exact hv
    · rintro t n ⟨piece, hp, rfl, hc⟩
      obtain ⟨range, hr, ht, -, hcov⟩ := hpiece piece hp
      exact ⟨range, hr, ht.symm, hcov n hc⟩
  · exact ⟨hvalid, hinactive, fun _ _ => id⟩

end StateManager

end EmbedNfs

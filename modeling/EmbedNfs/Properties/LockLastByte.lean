import EmbedNfs.Properties.LockBytes

/-!
# The last byte

The length `u64::MAX` of a stored range means "to the end of the file". The interval
`[0, 2^64 - 1)`, everything but the last byte, has just that length, so it cannot be stored: cut or
merged pieces with these bounds become a range that holds the last byte as well. Such pieces are
the only ones for which the stored ranges differ from what LOCK and LOCKU asked for.
-/

namespace EmbedNfs

namespace LockRange

/-! ## Ranges that reach the last byte -/

theorem covers_of_covers_lastByte {range : LockRange} (h : range.Valid)
    (hlast : range.Covers lastByte) {b : Nat} (hstart : range.offset.toNat ≤ b)
    (hb : b < lastByte) : range.Covers b := by
  have hlt : lastByte < u128Max := by decide
  rw [covers_lastByte h] at hlast
  refine ⟨hstart, ?_⟩
  rw [hlast, lockEnd_u64Max]
  omega

/-- Every byte but the last is held with the type. -/
def HeldBelowLast (ranges : List LockRange) (locktype : NfsLockType4) : Prop :=
  ∀ b < lastByte, Held ranges locktype b

theorem HeldBelowLast.of_mem {ranges : List LockRange} {range : LockRange} (hmem : range ∈ ranges)
    (h : range.Valid) (hlast : range.Covers lastByte) (hzero : range.offset.toNat = 0) :
    HeldBelowLast ranges range.locktype := fun _ hb =>
  ⟨range, hmem, rfl, covers_of_covers_lastByte h hlast (hzero ▸ Nat.zero_le _) hb⟩

theorem rangeFromBounds_u128Max (locktype : NfsLockType4) (start : U64) :
    ∃ range, rangeFromBounds locktype start u128Max = some range ∧ range.locktype = locktype ∧
      range.Covers lastByte := by
  have hstart := start.isLt
  have hpos : ¬u128Max ≤ start.toNat := by
    unfold u128Max
    omega
  refine ⟨⟨locktype, start, u64Max⟩, ?_, rfl, ?_, ?_⟩
  · rw [rangeFromBounds, if_neg hpos, if_pos rfl]
  · unfold lastByte
    show start.toNat ≤ 2 ^ 64 - 1
    omega
  · show lastByte < lockEnd start u64Max
    rw [lockEnd_u64Max]
    decide

/-! ## Cutting -/

theorem cutRange_lastByte {offset length : U64} {range piece : LockRange} (hrange : range.Valid)
    (hcut : validateLockBounds offset length = .ok ())
    (h : piece ∈ cutRange offset length range) (hlast : piece.Covers lastByte) :
    (range.Covers lastByte ∧ ¬(offset.toNat ≤ lastByte ∧ lastByte < lockEnd offset length)) ∨
      piece.offset.toNat = 0 := by
  by_cases hends : offset ≠ u64Max ∨ range.offset ≠ 0
  · exact Or.inl ⟨(cutRange_spec hrange hcut h).2.2 lastByte hlast,
      cutRange_outside hrange hcut hends h hlast⟩
  · -- The cut is the last byte, so that nothing lies right of it.
    simp only [not_or, ne_eq, not_not] at hends
    obtain ⟨rfl, hzero⟩ := hends
    right
    rcases cutRange_cases hcut h with ⟨rfl, -⟩ | ⟨-, h⟩ | ⟨start, hstart, -, -⟩
    · rw [hzero]
      rfl
    · rw [rangeFromBounds_offset h, hzero]
      rfl
    · have hvalid : LockRange.Valid ⟨.readLt, u64Max, length⟩ := hcut
      have hmax : lastByte < u128Max := by decide
      have := start.isLt
      have := u64Max_toNat
      rcases lockEnd_of_valid hvalid with ⟨-, hend⟩ | ⟨-, hend, hpos⟩
      · unfold lastByte at hmax
        dsimp only at hend
        omega
      · unfold lastByte at hend
        dsimp only at hend hpos
        omega

theorem cutRange_keeps_lastByte {offset length : U64} {range : LockRange} (hrange : range.Valid)
    (hlast : range.Covers lastByte) (hout : ¬lastByte < lockEnd offset length) :
    ∃ piece ∈ cutRange offset length range, piece.locktype = range.locktype ∧
      piece.Covers lastByte := by
  have hlt : lastByte < u128Max := by decide
  unfold cutRange
  split
  · have hend : lockEnd range.offset range.length = u128Max := by
      rw [(covers_lastByte hrange).mp hlast, lockEnd_u64Max]
    have hne : lockEnd offset length ≠ u128Max := by omega
    obtain ⟨piece, hpiece, htype, hcov⟩ :=
      rangeFromBounds_u128Max range.locktype (BitVec.ofNat 64 (lockEnd offset length))
    refine ⟨piece, ?_, htype, hcov⟩
    simp only [if_neg hne, hend, List.mem_append, Option.mem_toList]
    exact Or.inr hpiece
  · exact ⟨range, List.mem_singleton_self _, rfl, hlast⟩

theorem flatMap_cutRange_lastByte {offset length : U64} {ranges : List LockRange}
    (hranges : ∀ range ∈ ranges, range.Valid)
    (hcut : validateLockBounds offset length = .ok ()) (locktype : NfsLockType4) :
    (Held ranges locktype lastByte ∧
        ¬(offset.toNat ≤ lastByte ∧ lastByte < lockEnd offset length) →
      Held (ranges.flatMap (cutRange offset length)) locktype lastByte) ∧
    (Held (ranges.flatMap (cutRange offset length)) locktype lastByte →
      (Held ranges locktype lastByte ∧
        ¬(offset.toNat ≤ lastByte ∧ lastByte < lockEnd offset length)) ∨
      HeldBelowLast (ranges.flatMap (cutRange offset length)) locktype) := by
  have hoffset : offset.toNat ≤ lastByte := Nat.le_pred_of_lt offset.isLt
  constructor
  · rintro ⟨⟨range, hr, rfl, hlast⟩, hout⟩
    obtain ⟨piece, hp, htype, hcov⟩ :=
      cutRange_keeps_lastByte (hranges range hr) hlast fun hin => hout ⟨hoffset, hin⟩
    exact ⟨piece, List.mem_flatMap.mpr ⟨range, hr, hp⟩, htype, hcov⟩
  · rintro ⟨piece, hpiece, rfl, hlast⟩
    obtain ⟨range, hr, hp⟩ := List.mem_flatMap.mp hpiece
    obtain ⟨htype, hvalid, -⟩ := cutRange_spec (hranges range hr) hcut hp
    rcases cutRange_lastByte (hranges range hr) hcut hp hlast with ⟨hold, hout⟩ | hzero
    · exact Or.inl ⟨⟨range, hr, htype.symm, hold⟩, hout⟩
    · exact Or.inr (.of_mem hpiece hvalid hlast hzero)

/-! ## Merging -/

theorem mergeTwo_lastByte {last range : LockRange} (hlast : last.Valid) (hrange : range.Valid) :
    let merged := (rangeFromBounds last.locktype last.offset
      (max (lockEnd last.offset last.length) (lockEnd range.offset range.length))).getD last
    (last.Covers lastByte ∨ range.Covers lastByte → merged.Covers lastByte) ∧
      (merged.Covers lastByte → last.Covers lastByte ∨ range.Covers lastByte ∨
        merged.offset.toNat = 0) := by
  intro merged
  have hlt : lastByte < u128Max := by decide
  have hle : last.offset.toNat ≤ lastByte := Nat.le_pred_of_lt last.offset.isLt
  have hle' : range.offset.toNat ≤ lastByte := Nat.le_pred_of_lt range.offset.isLt
  have hends := isEnd_lockEnd hlast
  have hends' := isEnd_lockEnd hrange
  unfold IsEnd at hends hends'
  constructor
  · intro hcov
    have hmax : max (lockEnd last.offset last.length) (lockEnd range.offset range.length) =
        u128Max := by
      rcases hcov with hcov | hcov
      · have := hcov.2
        omega
      · have := hcov.2
        omega
    obtain ⟨new, hnew, -, hcov⟩ := rangeFromBounds_u128Max last.locktype last.offset
    rw [← hmax] at hnew
    simp only [merged, hnew, Option.getD_some]
    exact hcov
  · intro hcov
    cases h : rangeFromBounds last.locktype last.offset
        (max (lockEnd last.offset last.length) (lockEnd range.offset range.length)) with
    | none =>
      simp only [merged, h, Option.getD_none] at hcov
      exact Or.inl hcov
    | some new =>
      simp only [merged, h, Option.getD_some] at hcov ⊢
      obtain ⟨-, -, hspec⟩ := rangeFromBounds_spec (by unfold IsEnd; omega) h
      rcases (hspec lastByte hcov).2 with hin | ⟨hzero, -, -⟩
      · simp only [Covers]
        omega
      · exact Or.inr (Or.inr (by rw [rangeFromBounds_offset h]; exact hzero))

theorem mergeLockRanges_lastByte {last : LockRange} {ranges : List LockRange} (hlast : last.Valid)
    (hranges : ∀ range ∈ ranges, range.Valid)
    (hsorted : (last :: ranges).Pairwise fun a b => a.offset ≤ b.offset)
    (locktype : NfsLockType4) :
    (Held (last :: ranges) locktype lastByte →
      Held (mergeLockRanges last ranges) locktype lastByte) ∧
    (Held (mergeLockRanges last ranges) locktype lastByte →
      Held (last :: ranges) locktype lastByte ∨
        HeldBelowLast (mergeLockRanges last ranges) locktype) := by
  induction ranges generalizing last with
  | nil => exact ⟨id, Or.inl⟩
  | cons range ranges ih =>
    have hrange := hranges range (List.mem_cons_self ..)
    have htail := fun r hr => hranges r (List.mem_cons_of_mem _ hr)
    obtain ⟨horder, hsorted'⟩ := List.pairwise_cons.mp hsorted
    unfold mergeLockRanges
    dsimp only
    split
    · rename_i hcond
      obtain ⟨hmtype, hmoffset, hmvalid, -⟩ :=
        mergeTwo_spec hlast hrange (horder range (List.mem_cons_self ..)) hcond.2
      obtain ⟨hinto, hfrom⟩ := mergeTwo_lastByte hlast hrange
      have hmsorted := List.pairwise_cons.mpr
        ⟨fun r hr => hmoffset ▸ horder r (List.mem_cons_of_mem _ hr), hsorted'.of_cons⟩
      obtain ⟨hkeep, hback⟩ := ih hmvalid htail hmsorted
      constructor
      · intro hheld
        apply hkeep
        rw [held_cons, held_cons] at hheld
        rw [held_cons, hmtype]
        rcases hheld with ⟨htype, hcov⟩ | ⟨htype, hcov⟩ | hheld
        · exact Or.inl ⟨htype, hinto (Or.inl hcov)⟩
        · exact Or.inl ⟨hcond.1.trans htype, hinto (Or.inr hcov)⟩
        · exact Or.inr hheld
      · intro hheld
        rcases hback hheld with hheld | hfull
        · rw [held_cons, hmtype] at hheld
          rw [held_cons, held_cons]
          rcases hheld with ⟨htype, hcov⟩ | hheld
          · rcases hfrom hcov with h | h | hzero
            · exact Or.inl (Or.inl ⟨htype, h⟩)
            · exact Or.inl (Or.inr (Or.inl ⟨hcond.1 ▸ htype, h⟩))
            · -- The merged range has just become a range to the end of the file.
              right
              intro b hb
              rw [(mergeLockRanges_spec hmvalid htail hmsorted).2 locktype b hb]
              exact ⟨_, List.mem_cons_self .., hmtype.trans htype,
                covers_of_covers_lastByte hmvalid hcov (hzero ▸ Nat.zero_le _) hb⟩
          · exact Or.inl (Or.inr (Or.inr hheld))
        · exact Or.inr hfull
    · obtain ⟨hkeep, hback⟩ := ih hrange htail hsorted'
      constructor
      · intro hheld
        rw [held_cons] at hheld ⊢
        exact hheld.imp_right hkeep
      · intro hheld
        rw [held_cons] at hheld
        rw [held_cons]
        rcases hheld with hheld | hheld
        · exact Or.inl (Or.inl hheld)
        · rcases hback hheld with hheld | hfull
          · exact Or.inl (Or.inr hheld)
          · exact Or.inr fun b hb => held_cons.mpr (Or.inr (hfull b hb))

theorem normalizeLockRanges_lastByte {ranges : List LockRange}
    (hranges : ∀ range ∈ ranges, range.Valid) (locktype : NfsLockType4) :
    (Held ranges locktype lastByte → Held (normalizeLockRanges ranges) locktype lastByte) ∧
    (Held (normalizeLockRanges ranges) locktype lastByte →
      Held ranges locktype lastByte ∨ HeldBelowLast (normalizeLockRanges ranges) locktype) := by
  have hmem : ∀ r, r ∈ ranges.insertionSort (fun a b => a.offset ≤ b.offset) ↔ r ∈ ranges :=
    fun r => List.mem_insertionSort _
  have hsorted := List.pairwise_insertionSort (fun a b : LockRange => a.offset ≤ b.offset) ranges
  have hheld : Held (ranges.insertionSort fun a b => a.offset ≤ b.offset) locktype lastByte ↔
      Held ranges locktype lastByte := by simp only [Held, hmem]
  unfold normalizeLockRanges
  rw [← hheld]
  cases hcons : ranges.insertionSort fun a b => a.offset ≤ b.offset with
  | nil => exact ⟨id, Or.inl⟩
  | cons first rest =>
    rw [hcons] at hsorted hmem
    exact mergeLockRanges_lastByte (hranges first ((hmem first).mp (List.mem_cons_self ..)))
      (fun r hr => hranges r ((hmem r).mp (List.mem_cons_of_mem _ hr))) hsorted locktype

end LockRange

/-! ## Calls -/

open LockRange

/-- The byte is held with the type after the call: it was and is not in the call's range, or the
call is a LOCK of that type and the byte is in its range. -/
def LockCall.HeldAfter (ranges : List LockRange) (locktype : NfsLockType4) (b : Nat)
    (call : LockCall) : Prop :=
  (Held ranges locktype b ∧ call.contains b = false) ∨
    ∃ range, call = .lock range ∧ range.locktype = locktype ∧ range.Covers b

/-- The call does not ask for the set that cannot be stored: every byte but the last, with one
type. -/
def LockCall.Storable (ranges : List LockRange) (call : LockCall) : Prop :=
  ∀ locktype, (∀ b < lastByte, call.HeldAfter ranges locktype b) →
    call.HeldAfter ranges locktype lastByte

theorem LockCall.Storable.of_gap {ranges : List LockRange} {call : LockCall} {b : Nat}
    (hb : b < lastByte) (hgap : ∀ range ∈ ranges, ¬range.Covers b)
    (hout : call.contains b = false) : call.Storable ranges := by
  intro locktype hall
  rcases hall b hb with ⟨⟨range, hrange, -, hcov⟩, -⟩ | ⟨range, rfl, -, hcov⟩
  · exact absurd hcov (hgap range hrange)
  · rw [LockFileState.Follows.contains_lock.mpr hcov] at hout
    cases hout

namespace LockRange

variable {ranges : List LockRange}

theorem contains_eq_false {offset length : U64} {b : Nat} :
    (LockCall.unlock offset length).contains b = false ↔
      ¬(offset.toNat ≤ b ∧ b < lockEnd offset length) := by
  simp [LockCall.contains]

theorem replaceLockRange_lastByte {replacement : LockRange}
    (hranges : ∀ range ∈ ranges, range.Valid) (hnew : replacement.Valid)
    (hstorable : (LockCall.lock replacement).Storable ranges) (locktype : NfsLockType4) :
    Held (replaceLockRange ranges replacement) locktype lastByte ↔
      (LockCall.lock replacement).HeldAfter ranges locktype lastByte := by
  have hafter : ∀ b, (LockCall.lock replacement).HeldAfter ranges locktype b ↔
      (Held ranges locktype b ∧ ¬replacement.Covers b) ∨
        (replacement.locktype = locktype ∧ replacement.Covers b) := by
    intro b
    have hcontains : (LockCall.lock replacement).contains b = true ↔ replacement.Covers b :=
      LockFileState.Follows.contains_lock
    simp only [LockCall.HeldAfter, ← hcontains, Bool.not_eq_true, LockCall.lock.injEq,
      exists_eq_left']
  obtain ⟨hvalid, -⟩ := flatMap_cutRange_spec hranges hnew
  have hpieces : ∀ piece ∈ ranges.flatMap (cutRange replacement.offset replacement.length) ++
      [replacement], piece.Valid := by
    intro piece hpiece
    rcases List.mem_append.mp hpiece with h | h
    · exact hvalid piece h
    · rw [List.mem_singleton.mp h]
      exact hnew
  obtain ⟨hcutKeep, hcutBack⟩ := flatMap_cutRange_lastByte hranges hnew locktype
  obtain ⟨hkeep, hback⟩ := normalizeLockRanges_lastByte hpieces locktype
  have hbelow : HeldBelowLast (replaceLockRange ranges replacement) locktype →
      (LockCall.lock replacement).HeldAfter ranges locktype lastByte := fun hfull =>
    hstorable locktype fun b hb => (hafter b).mpr
      (((replaceLockRange_spec hranges hnew).2 locktype b hb).mp (hfull b hb))
  have hsingle : ∀ b, Held [replacement] locktype b ↔
      replacement.locktype = locktype ∧ replacement.Covers b := by
    intro b
    simp [Held]
  constructor
  · intro hheld
    rcases hback hheld with hheld | hfull
    · rw [held_append, hsingle] at hheld
      rcases hheld with hheld | hheld
      · rcases hcutBack hheld with hold | hfull
        · exact (hafter lastByte).mpr (Or.inl hold)
        · refine hbelow fun b hb => ((normalizeLockRanges_spec hpieces).2 locktype b hb).mpr ?_
          exact held_append.mpr (Or.inl (hfull b hb))
      · exact (hafter lastByte).mpr (Or.inr hheld)
    · exact hbelow hfull
  · intro hheld
    refine hkeep ?_
    rw [held_append, hsingle]
    exact ((hafter lastByte).mp hheld).imp_left hcutKeep

theorem unlock_lastByte {offset length : U64} (hranges : ∀ range ∈ ranges, range.Valid)
    (hcut : validateLockBounds offset length = .ok ())
    (hstorable : (LockCall.unlock offset length).Storable ranges) (locktype : NfsLockType4) :
    Held (ranges.flatMap (cutRange offset length)) locktype lastByte ↔
      (LockCall.unlock offset length).HeldAfter ranges locktype lastByte := by
  have hafter : ∀ b, (LockCall.unlock offset length).HeldAfter ranges locktype b ↔
      Held ranges locktype b ∧ ¬(offset.toNat ≤ b ∧ b < lockEnd offset length) := by
    intro b
    simp only [LockCall.HeldAfter, contains_eq_false, reduceCtorEq, false_and, exists_false,
      or_false]
  obtain ⟨hkeep, hback⟩ := flatMap_cutRange_lastByte hranges hcut locktype
  constructor
  · intro hheld
    rcases hback hheld with hold | hfull
    · exact (hafter lastByte).mpr hold
    · refine hstorable locktype fun b hb => (hafter b).mpr ?_
      exact ((flatMap_cutRange_spec hranges hcut).2 locktype b hb).mp (hfull b hb)
  · intro hheld
    exact hkeep ((hafter lastByte).mp hheld)

end LockRange

/-! ## Histories -/

/-- At one byte, the ranges hold what the history says. -/
def LockRange.HeldAs (ranges : List LockRange) (history : List LockCall) (b : Nat) : Prop :=
  ∀ locktype, Held ranges locktype b ↔
    ∃ range, history.find? (·.contains b) = some (.lock range) ∧ range.locktype = locktype

theorem LockRange.HeldAs.call {ranges ranges' : List LockRange} {history : List LockCall} {b : Nat}
    {call : LockCall} (h : HeldAs ranges history b)
    (hcall : ∀ locktype, Held ranges' locktype b ↔ call.HeldAfter ranges locktype b) :
    HeldAs ranges' (call :: history) b := by
  intro locktype
  rw [hcall locktype, LockCall.HeldAfter, h locktype, List.find?_cons]
  cases hin : call.contains b with
  | true =>
    constructor
    · rintro (⟨-, hout⟩ | ⟨range, rfl, htype, -⟩)
      · cases hout
      · exact ⟨range, rfl, htype⟩
    · rintro ⟨range, hrange, htype⟩
      cases hrange
      exact Or.inr ⟨range, rfl, htype, LockFileState.Follows.contains_lock.mp hin⟩
  | false =>
    constructor
    · rintro (⟨hold, -⟩ | ⟨range, rfl, -, hcov⟩)
      · exact hold
      · rw [LockFileState.Follows.contains_lock.mpr hcov] at hin
        cases hin
    · exact fun hold => Or.inl ⟨hold, rfl⟩

theorem LockRange.heldAs_create (range : LockRange) (b : Nat) :
    HeldAs [range] [.lock range] b := by
  have hnone : HeldAs [] [] b := by
    intro locktype
    simp [Held]
  refine hnone.call fun locktype => ?_
  simp [LockCall.HeldAfter, Held]

/-- The calls of the section on the lock state are storable. -/
def StateManager.StorableAt (s : StateManager) (k : StateidOther) (q : Section) : Prop :=
  ∀ call, q.lockCall k = some call → ∀ a, s.inner.lockFiles.get k = some a → call.Storable a.ranges

/-- **Step lemma.** The last byte of a lock state through a section. -/
theorem StateManager.runSection_lastByte (s : StateManager) (q : Section) (k : StateidOther)
    (history : List LockCall)
    (hfollows : ∀ a, s.inner.lockFiles.get k = some a → a.Follows history)
    (h : ∀ a, s.inner.lockFiles.get k = some a → HeldAs a.ranges history lastByte)
    (hstorable : s.StorableAt k q) (a : LockFileState)
    (ha : (s.runSection q).2.inner.lockFiles.get k = some a) :
    HeldAs a.ranges (q.lockHistory k history (s.runSection q).1) lastByte := by
  have hstep := s.runSection_lockStep q k history a ha
  generalize q.lockHistory k history (s.runSection q).1 = next at hstep
  cases hstep with
  | same hget => exact h a hget
  | create range _ hranges _ =>
    rw [hranges]
    exact heldAs_create range lastByte
  | lock old range hget hcall hvalid hranges _ =>
    rw [hranges]
    exact (h old hget).call (replaceLockRange_lastByte (hfollows old hget).valid hvalid
      (hstorable _ hcall old hget))
  | unlock old offset length hget hcall hcut heq =>
    rw [heq, unlockRanges_ranges]
    exact (h old hget).call (unlock_lastByte (hfollows old hget).valid hcut
      (hstorable _ hcall old hget))

section

variable {H α : Type} [DecidableEq H] {backend : Backend H} {boot : Boot}
  {threads : List (Request H α)} {tr : Trace H} {c : Machine H α}

/-- **Run lemma.** The last byte of a lock state whose calls were all storable. -/
theorem System.Run.heldAs_lastByte
    (hrun : (Server.system backend).Run ⟨Server.new H boot, threads⟩ tr c) (k : StateidOther)
    (hstorable : ∀ e ∈ tr, ∀ q, e.call = .guarded q → e.before.state.StorableAt k q) :
    ∀ a, c.state.state.inner.lockFiles.get k = some a →
      HeldAs a.ranges (lockHistory k tr) lastByte := by
  refine hrun.invariant_history (I := fun tr s =>
    (∀ e ∈ tr, ∀ q, e.call = .guarded q → e.before.state.StorableAt k q) →
      ∀ a, s.state.inner.lockFiles.get k = some a →
        HeldAs a.ranges (lockHistory k tr) lastByte) ?_ ?_ ?_ hstorable
  · intro _ a ha
    cases ha
  · exact fun tr s s' h hdrift hall a ha => h hall a ((hdrift.state.lockFiles k).trans ha)
  · intro tr e c' hrun' hexec h hall a ha
    obtain ⟨ts, k', hbefore, -, -, -⟩ := hrun'.last
    have hprefix := h fun e he => hall e (List.mem_append_left _ he)
    have hlast := hall e (List.mem_append_right _ (List.mem_singleton_self e))
    rw [lockHistory_concat]
    obtain ⟨t, before, call, answer, after⟩ := e
    cases call with
    | guarded q =>
      dsimp only at hexec ha hprefix hbefore hlast ⊢
      obtain ⟨rfl, hafter⟩ := Server.exec_guarded hexec
      rw [hafter] at ha
      exact before.state.runSection_lastByte q k (lockHistory k tr)
        (fun a ha => hbefore.follows k a ha) hprefix (hlast q rfl) a ha
    | _ =>
      have hinner := (Server.exec_unguarded hexec (by simp)).1
      dsimp only at ha hprefix hinner ⊢
      rw [hinner] at ha
      exact hprefix a ha

/-- **The end of the offset space.** Let any requests run against a server, with their steps
interleaved in any order, and take a lock state for which no call asked to hold, with one type,
every byte but the last. The last byte is covered by a stored range exactly if the last
successful call on the lock state whose range contains it was a LOCK. -/
theorem last_byte_exact
    (hrun : (Server.system backend).Run ⟨Server.new H boot, threads⟩ tr c) (k : StateidOther)
    (hstorable : ∀ e ∈ tr, ∀ q, e.call = .guarded q → e.before.state.StorableAt k q)
    (a : LockFileState) (ha : c.state.state.inner.lockFiles.get k = some a) :
    (∃ range ∈ a.ranges, range.Covers (2 ^ 64 - 1)) ↔
      ∃ locked, (lockHistory k tr).find? (·.contains (2 ^ 64 - 1)) = some (.lock locked) := by
  have hheld : HeldAs a.ranges (lockHistory k tr) (2 ^ 64 - 1) :=
    hrun.heldAs_lastByte k hstorable a ha
  constructor
  · rintro ⟨range, hrange, hcov⟩
    obtain ⟨locked, hlocked, -⟩ := (hheld range.locktype).mp ⟨range, hrange, rfl, hcov⟩
    exact ⟨locked, hlocked⟩
  · rintro ⟨locked, hlocked⟩
    obtain ⟨range, hrange, -, hcov⟩ := (hheld locked.locktype).mpr ⟨locked, hlocked, rfl⟩
    exact ⟨range, hrange, hcov⟩

end

deriving instance DecidableEq for LockCall

namespace Scripted

/-- A client locks a file. -/
def lockSections (offset length : U64) : List Section :=
  sessionSetUp ++ [.createOpenState (.fs 1) ⟨1, [1]⟩ 3 0,
    .createLockState ⟨1, .mint 1 1⟩ ⟨1, [2]⟩ (.fs 1) .writeLt offset length]

/-- The byte is in no range of the lock state, and not in that of a call of the event. -/
def leavesGap (k : StateidOther) (b : Nat) (e : ServerEvent Unit) : Bool :=
  match e.call with
  | .guarded q => (q.lockCall k).all fun call => !call.contains b &&
      (e.before.state.inner.lockFiles.get k).all fun a =>
        a.ranges.all fun range => !(LockCall.lock range).contains b
  | _ => true

theorem storableAt_of_leavesGap {k : StateidOther} {b : Nat} (hb : b < lastByte)
    {e : ServerEvent Unit} (h : leavesGap k b e = true) (q : Section)
    (hq : e.call = .guarded q) : e.before.state.StorableAt k q := by
  intro call hcall a ha
  simp only [leavesGap, hq, hcall, ha, Option.all_some, Bool.and_eq_true, Bool.not_eq_true',
    List.all_eq_true] at h
  refine .of_gap hb (fun range hrange hcov => ?_) h.1
  have hout := h.2 range hrange
  rw [LockFileState.Follows.contains_lock.mpr hcov] at hout
  cases hout

end Scripted

open Scripted in
/-- A lock of the whole file of which the last byte is given up: it stays locked, although the
last call that contains it was a LOCKU. -/
theorem last_byte_stays_locked :
    let sections := lockSections 0 u64Max ++ [Section.unlockState ⟨1, .mint 2 1⟩ u64Max u64Max]
    ∃ tr c, (Server.system Backend.single).Run
        ⟨Server.new Unit .fixed, sections.map (Server.sectionThread ())⟩ tr c ∧
      ∃ a, c.state.state.inner.lockFiles.get (.mint 2 1) = some a ∧
        (∃ range ∈ a.ranges, range.Covers (2 ^ 64 - 1)) ∧
        (lockHistory (.mint 2 1) tr).find? (·.contains (2 ^ 64 - 1)) =
          some (.unlock u64Max u64Max) := by
  intro sections
  refine ⟨_, _, Server.sections_run () sections _ [],
    ⟨.fs 1, ⟨1, [2]⟩, .mint 1 1, [⟨.writeLt, 0, u64Max⟩], true, 2⟩, by decide +kernel,
    ⟨_, List.mem_singleton_self _, ?_⟩, by decide +kernel⟩
  exact LockFileState.Follows.contains_lock.mp (by decide +kernel)

open Scripted in
/-- A lock from byte 10 to the end of the file, cut at byte 20, has given up the last byte. -/
theorem last_byte_exact_released :
    let sections := lockSections 10 u64Max ++ [Section.unlockState ⟨1, .mint 2 1⟩ 20 u64Max]
    let s := (sections.foldl Server.afterSection (Server.new Unit .fixed)).state
    let ranges : List LockRange := [⟨.writeLt, 10, 10⟩]
    s.inner.lockFiles.get (.mint 2 1) =
        some ⟨.fs 1, ⟨1, [2]⟩, .mint 1 1, ranges, true, 2⟩ ∧
      ¬∃ range ∈ ranges, range.Covers (2 ^ 64 - 1) := by
  intro sections s ranges
  have hrun : (Server.system Backend.single).Run
      ⟨Server.new Unit .fixed, sections.map (Server.sectionThread ())⟩ _ _ :=
    Server.sections_run () sections _ []
  have hget : s.inner.lockFiles.get (.mint 2 1) =
      some ⟨.fs 1, ⟨1, [2]⟩, .mint 1 1, ranges, true, 2⟩ := by decide +kernel
  have hgap : ((Server.new Unit .fixed).sectionEvents 0 sections).all (leavesGap (.mint 2 1) 0) =
      true := by decide +kernel
  have hlast : (lockHistory (.mint 2 1) ((Server.new Unit .fixed).sectionEvents 0 sections)).find?
      (·.contains (2 ^ 64 - 1)) = some (.unlock 20 u64Max) := by decide +kernel
  refine ⟨hget, fun hcov => ?_⟩
  obtain ⟨locked, hlocked⟩ := (last_byte_exact hrun (.mint 2 1) (fun e he =>
    storableAt_of_leavesGap (by decide) (List.all_eq_true.mp hgap e he)) _ hget).mp hcov
  cases hlast.symm.trans hlocked

end EmbedNfs

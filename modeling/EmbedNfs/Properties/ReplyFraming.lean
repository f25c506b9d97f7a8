import EmbedNfs.Properties.RecordMarking

/-!
# Replies of a connection

What `write_records` writes is a sequence of whole records, one for each reply. The inner loop
emits one fragment at a time: the header tells the fragment's length and whether it is the last
one (`split_fragment`), so the stream splits at the front into that fragment and what the loop
writes for the rest of the reply. A reply of exactly the limit is one fragment, because the last
bit is set from the length before the split.
-/

namespace EmbedNfs

open Fragment

/-! ## Headers -/

theorem headerLast_eq (header : U32) : headerLast header = header.getLsbD 31 := by
  have hbit := and_shiftLeft_ne_zero header (i := 31) (by decide)
  have hlast : rpcLastFragment = 1#32 <<< 31 := rfl
  rw [headerLast, hlast, Bool.eq_iff_iff, ← hbit]
  exact decide_eq_true_iff

theorem headerLength_eq (header : U32) : headerLength header = header.toNat % 2 ^ 31 := by
  have hmask : rpcFragLenMask.toNat = 2 ^ 31 - 1 := rfl
  rw [headerLength, BitVec.toNat_and, hmask, Nat.and_two_pow_sub_one_eq_mod]

/-- The header that the loop writes before a fragment. -/
def fragmentHeader (last : Bool) (length : Nat) : U32 :=
  if last then BitVec.ofNat 32 length ||| rpcLastFragment else BitVec.ofNat 32 length

theorem headerLast_fragmentHeader (last : Bool) {n : Nat} (hn : n ≤ maxFragmentSize) :
    headerLast (fragmentHeader last n) = last := by
  have hlt : n < 2 ^ 31 := by
    simp only [maxFragmentSize] at hn
    omega
  have hbit : (BitVec.ofNat 32 n).getLsbD 31 = false := by
    rw [BitVec.getLsbD_ofNat, Nat.testBit_lt_two_pow hlt, Bool.and_false]
  have hlast : rpcLastFragment.getLsbD 31 = true := rfl
  rw [headerLast_eq, fragmentHeader]
  cases last
  · exact hbit
  · rw [if_pos rfl, BitVec.getLsbD_or, hlast, Bool.or_true]

theorem headerLength_fragmentHeader (last : Bool) {n : Nat} (hn : n ≤ maxFragmentSize) :
    headerLength (fragmentHeader last n) = n := by
  have hlt : n < 2 ^ 31 := by
    simp only [maxFragmentSize] at hn
    omega
  have hmod : n % 2 ^ 32 = n := Nat.mod_eq_of_lt (by omega)
  have hlast : rpcLastFragment.toNat = 2 ^ 31 := rfl
  cases last
  · simp only [headerLength_eq, fragmentHeader, Bool.false_eq_true, ↓reduceIte,
      BitVec.toNat_ofNat, hmod, Nat.mod_eq_of_lt hlt]
  · simp only [headerLength_eq, fragmentHeader, ↓reduceIte, BitVec.toNat_or, BitVec.toNat_ofNat,
      hmod, hlast]
    rw [Nat.or_mod_two_pow, Nat.mod_self, Nat.or_zero, Nat.mod_eq_of_lt hlt]

/-! ## One fragment -/

theorem split_fragment (last : Bool) {body : Bytes} (hbody : body.length ≤ maxFragmentSize)
    (stream : Bytes) :
    split (be32 (fragmentHeader last body.length) ++ body ++ stream) =
      (⟨last, body⟩ :: (split stream).1, (split stream).2) := by
  have hlast := headerLast_fragmentHeader last hbody
  have hlength := headerLength_fragmentHeader last hbody
  have hlong : ¬ (body ++ stream).length < headerLength (fragmentHeader last body.length) := by
    rw [hlength, List.length_append]
    omega
  rw [be32, List.append_assoc]
  simp only [List.cons_append, List.nil_append]
  rw [split_cons (by rw [be32_join]; exact hlong), be32_join, hlast, hlength, List.take_left,
    List.drop_left]

/-! ## One reply -/

/-- The fragments that the inner loop makes of a reply. -/
def fragmentsOf (response : Bytes) : List Fragment :=
  if _hempty : response = [] then []
  else
    ⟨response.length ≤ maxFragmentSize, response.take maxFragmentSize⟩ ::
      fragmentsOf (response.drop maxFragmentSize)
termination_by response.length
decreasing_by
  have hpos := List.length_pos_of_ne_nil _hempty
  simp only [List.length_drop, maxFragmentSize]
  omega

theorem split_writeFragments (response : Bytes) :
    ∃ written, writeFragments response = some written ∧
      ∀ stream, split (written ++ stream) =
        (fragmentsOf response ++ (split stream).1, (split stream).2) := by
  fun_induction fragmentsOf response with
  | case1 => exact ⟨[], by rw [writeFragments]; simp, fun stream => rfl⟩
  | case2 response hempty ih =>
    obtain ⟨written, hwritten, hsplit⟩ := ih
    have htake : response.take (min response.length maxFragmentSize) =
        response.take maxFragmentSize := by
      rw [List.take_eq_take_iff]
      omega
    have hdrop : response.drop (min response.length maxFragmentSize) =
        response.drop maxFragmentSize := by
      rcases Nat.le_total response.length maxFragmentSize with h | h
      · rw [Nat.min_eq_left h, List.drop_length, List.drop_eq_nil_of_le h]
      · rw [Nat.min_eq_right h]
    have hbody : (response.take maxFragmentSize).length ≤ maxFragmentSize := by
      rw [List.length_take]
      omega
    have hmask : (response.take maxFragmentSize).length ≤ rpcFragLenMask.toNat :=
      hbody.trans (by decide)
    have hlast : decide (min response.length maxFragmentSize = response.length) =
        decide (response.length ≤ maxFragmentSize) := by
      rw [decide_eq_decide]
      omega
    refine ⟨be32 (fragmentHeader (response.length ≤ maxFragmentSize)
      (response.take maxFragmentSize).length) ++ response.take maxFragmentSize ++ written, ?_, ?_⟩
    · rw [writeFragments, dif_neg hempty]
      simp only [htake, hdrop, hwritten, if_pos hmask, hlast, fragmentHeader]
      rfl
    · intro stream
      rw [List.append_assoc _ written, split_fragment _ hbody, hsplit]
      rfl

theorem fragmentsOf_length (response : Bytes) :
    ∀ fragment ∈ fragmentsOf response, fragment.body.length ≤ maxFragmentSize := by
  fun_induction fragmentsOf response with
  | case1 =>
    intro fragment hmem
    cases hmem
  | case2 response hempty ih =>
    intro fragment hmem
    rcases List.mem_cons.mp hmem with rfl | hmem
    · simp only [List.length_take]
      omega
    · exact ih fragment hmem

theorem records_fragmentsOf {response : Bytes} (hne : response ≠ []) (begun : Bytes)
    (fragments : List Fragment) :
    records begun (fragmentsOf response ++ fragments) =
        (begun ++ response) :: records [] fragments ∧
      unfinished begun (fragmentsOf response ++ fragments) = unfinished [] fragments := by
  fun_induction fragmentsOf response generalizing begun with
  | case1 => exact absurd rfl hne
  | case2 response hempty ih =>
    by_cases hlast : response.length ≤ maxFragmentSize
    · rw [List.take_of_length_le hlast, List.drop_eq_nil_of_le hlast, fragmentsOf]
      simp only [↓reduceDIte, List.cons_append, List.nil_append, records, unfinished, hlast,
        decide_true, ↓reduceIte, and_self]
    · have hdrop : response.drop maxFragmentSize ≠ [] := by
        intro h
        exact hlast (List.drop_eq_nil_iff.mp h)
      have hrest := ih hdrop (begun ++ response.take maxFragmentSize)
      rw [List.append_assoc, List.take_append_drop] at hrest
      simpa only [List.cons_append, records, unfinished, hlast, decide_false, Bool.false_eq_true,
        ↓reduceIte] using hrest

/-! ## All replies -/

theorem split_writeRecords (responses : List Bytes) :
    ∃ stream, writeRecords responses = some stream ∧
      split stream = (responses.flatMap fragmentsOf, []) := by
  induction responses with
  | nil => exact ⟨[], rfl, by simp [split]⟩
  | cons response responses ih =>
    obtain ⟨stream, hstream, hsplit⟩ := ih
    obtain ⟨written, hwritten, hfront⟩ := split_writeFragments response
    refine ⟨written ++ stream, ?_, ?_⟩
    · rw [writeRecords, hwritten, hstream]
      rfl
    · rw [hfront, hsplit, List.flatMap_cons]

theorem records_flatMap_fragmentsOf {responses : List Bytes} (hne : ∀ r ∈ responses, r ≠ []) :
    records [] (responses.flatMap fragmentsOf) = responses ∧
      unfinished [] (responses.flatMap fragmentsOf) = [] := by
  induction responses with
  | nil => exact ⟨rfl, rfl⟩
  | cons response responses ih =>
    obtain ⟨hrecords, hunfinished⟩ := ih fun r hr => hne r (List.mem_cons_of_mem _ hr)
    have hfirst := records_fragmentsOf (hne response List.mem_cons_self) []
      (responses.flatMap fragmentsOf)
    rw [List.flatMap_cons, hfirst.1, hfirst.2, hrecords, hunfinished]
    exact ⟨rfl, rfl⟩

/-- **Reply framing.** The replies of a connection, none of them empty, are written without a
panic; read by record marking, the bytes are those replies in their order with nothing left over;
and no fragment is longer than the limit. -/
theorem reply_framing (responses : List Bytes) (hne : ∀ response ∈ responses, response ≠ []) :
    ∃ stream, writeRecords responses = some stream ∧ completeRecords stream = responses ∧
      unfinishedRecord stream = [] ∧ brokenFragment stream = [] ∧
      ∀ fragment ∈ (split stream).1, fragment.body.length ≤ maxFragmentSize := by
  obtain ⟨stream, hstream, hsplit⟩ := split_writeRecords responses
  obtain ⟨hrecords, hunfinished⟩ := records_flatMap_fragmentsOf hne
  refine ⟨stream, hstream, ?_, ?_, ?_, ?_⟩
  · rw [completeRecords, hsplit, hrecords]
  · rw [unfinishedRecord, hsplit, hunfinished]
  · rw [brokenFragment, hsplit]
  · intro fragment hmem
    rw [hsplit] at hmem
    obtain ⟨response, -, hfragment⟩ := List.mem_flatMap.mp hmem
    exact fragmentsOf_length response fragment hfragment

theorem reply_framing_two :
    ∃ stream, writeRecords [[1], [2, 3]] = some stream ∧ completeRecords stream = [[1], [2, 3]] ∧
      unfinishedRecord stream = [] ∧ brokenFragment stream = [] ∧
      ∀ fragment ∈ (split stream).1, fragment.body.length ≤ maxFragmentSize :=
  reply_framing [[1], [2, 3]] (by decide)

end EmbedNfs

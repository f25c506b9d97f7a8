import EmbedNfs.Server.Connection

/-!
# Records of a connection

The records that are handed on are the complete records of the stream, up to the first one that
is too long: exactly if the stream does not end before a fragment header with part of a record
read, and no record is empty. The inner loop takes the end of the stream in place of a header for
the end of a record, and the outer loop takes an empty record for the end of the stream.
-/

namespace EmbedNfs

open Fragment

/-- The complete records of a stream up to the first that is longer than the limit. -/
def acceptedRecords (stream : Bytes) : List Bytes :=
  (completeRecords stream).takeWhile fun record => record.length ≤ maxFragmentSize

/-- What a stream has of a record that it does not complete. -/
def unfinishedRecord (stream : Bytes) : Bytes := unfinished [] (split stream).1

/-- The part of a fragment at the end of a stream. -/
def brokenFragment (stream : Bytes) : Bytes := (split stream).2

/-! ## The inner loop -/

/-- How the inner loop ends, in terms of the fragments of the stream. -/
inductive ReadsRecord (begun stream : Bytes) : RecordRead → Prop where
  | complete {record rest : Bytes} (hfits : record.length ≤ maxFragmentSize)
      (hrecords : records begun (split stream).1 = record :: records [] (split rest).1)
      (hunfinished : unfinished begun (split stream).1 = unfinished [] (split rest).1)
      (hbroken : (split stream).2 = (split rest).2) :
      ReadsRecord begun stream (.finished record rest)
  | ended {record : Bytes} (hfits : record.length ≤ maxFragmentSize)
      (hrecords : records begun (split stream).1 = [])
      (hunfinished : unfinished begun (split stream).1 = record)
      (hbroken : (split stream).2.length < 4) : ReadsRecord begun stream (.finished record [])
  | failed (hrecords : records begun (split stream).1 = [])
      (hbroken : 4 ≤ (split stream).2.length) : ReadsRecord begun stream .failed
  | tooLarge (hrecords : ∀ record rest, records begun (split stream).1 = record :: rest →
      maxFragmentSize < record.length)
      (hunfinished : records begun (split stream).1 = [] → (split stream).2.length < 4 →
        maxFragmentSize < (unfinished begun (split stream).1).length) :
      ReadsRecord begun stream .tooLarge

theorem split_cons {a b c d : U8} {stream : Bytes}
    (hlong : ¬stream.length < headerLength (a ++ b ++ c ++ d)) :
    split (a :: b :: c :: d :: stream) =
      (⟨headerLast (a ++ b ++ c ++ d), stream.take (headerLength (a ++ b ++ c ++ d))⟩ ::
        (split (stream.drop (headerLength (a ++ b ++ c ++ d)))).1,
      (split (stream.drop (headerLength (a ++ b ++ c ++ d)))).2) := by
  rw [split]
  simp only [hlong, ↓reduceIte]

theorem split_short {a b c d : U8} {stream : Bytes}
    (hshort : stream.length < headerLength (a ++ b ++ c ++ d)) :
    split (a :: b :: c :: d :: stream) = ([], a :: b :: c :: d :: stream) := by
  rw [split]
  simp only [hshort, ↓reduceIte]

theorem tooLarge_of_length {begun : Bytes} {a b c d : U8} {stream : Bytes}
    (hlarge : maxFragmentSize < begun.length + headerLength (a ++ b ++ c ++ d)) :
    ReadsRecord begun (a :: b :: c :: d :: stream) .tooLarge := by
  by_cases hshort : stream.length < headerLength (a ++ b ++ c ++ d)
  · rw [← not_le] at hlarge
    refine .tooLarge (fun record rest h => ?_) fun _ hbroken => ?_
    · rw [split_short hshort] at h
      cases h
    · rw [split_short hshort] at hbroken
      simp only [List.length_cons] at hbroken
      omega
  · have htake : (stream.take (headerLength (a ++ b ++ c ++ d))).length =
        headerLength (a ++ b ++ c ++ d) := by
      rw [List.length_take]
      omega
    refine .tooLarge (fun record rest h => ?_) fun h _ => ?_
    · rw [split_cons hshort] at h
      simp only [records] at h
      split at h
      · obtain ⟨rfl, -⟩ := List.cons.inj h
        rw [List.length_append, htake]
        exact hlarge
      · have hle := records_length _ _ record rest h
        rw [List.length_append, htake] at hle
        omega
    · rw [split_cons hshort] at h ⊢
      simp only [records, unfinished] at h ⊢
      split at h
      · cases h
      · rename_i hlast
        rw [if_neg hlast]
        have hle := unfinished_length _ _ h
        rw [List.length_append, htake] at hle
        omega

/-- **Step lemma.** The inner loop reads the next record of the stream. -/
theorem readRecord_reads (begun stream : Bytes) (hbegun : begun.length ≤ maxFragmentSize) :
    ReadsRecord begun stream (readRecord begun stream) := by
  fun_induction readRecord begun stream with
  | case1 begun a b c d stream header fragLen hlarge =>
    exact tooLarge_of_length (lt_of_lt_of_le hlarge (Nat.le_add_left _ _))
  | case2 begun a b c d stream header fragLen hlarge hsum =>
    exact tooLarge_of_length hsum
  | case3 begun a b c d stream header fragLen hlarge hsum hshort =>
    refine .failed (by rw [split_short hshort]; rfl) ?_
    rw [split_short hshort]
    simp only [List.length_cons]
    omega
  | case4 begun a b c d stream header lastFragment fragLen hlarge hsum hshort hlast =>
    have hsplit : split (a :: b :: c :: d :: stream) =
        (⟨lastFragment, stream.take fragLen⟩ :: (split (stream.drop fragLen)).1,
          (split (stream.drop fragLen)).2) := split_cons hshort
    refine .complete ?_ ?_ ?_ ?_
    · rw [List.length_append, List.length_take]
      omega
    · rw [hsplit, records, if_pos hlast]
    · rw [hsplit, unfinished, if_pos hlast]
    · rw [hsplit]
  | case5 begun a b c d stream header lastFragment fragLen hlarge hsum hshort hlast ih =>
    have hsplit : split (a :: b :: c :: d :: stream) =
        (⟨lastFragment, stream.take fragLen⟩ :: (split (stream.drop fragLen)).1,
          (split (stream.drop fragLen)).2) := split_cons hshort
    have hrecords : records begun (split (a :: b :: c :: d :: stream)).1 =
        records (begun ++ stream.take fragLen) (split (stream.drop fragLen)).1 := by
      rw [hsplit, records, if_neg hlast]
    have hunfinished : unfinished begun (split (a :: b :: c :: d :: stream)).1 =
        unfinished (begun ++ stream.take fragLen) (split (stream.drop fragLen)).1 := by
      rw [hsplit, unfinished, if_neg hlast]
    have hbroken : (split (a :: b :: c :: d :: stream)).2 = (split (stream.drop fragLen)).2 := by
      rw [hsplit]
    -- The rest of the stream is read with the fragment's body begun.
    have ih := ih (by rw [List.length_append, List.length_take]; omega)
    generalize readRecord (begun ++ stream.take fragLen) (stream.drop fragLen) = read at ih ⊢
    cases ih with
    | complete hfits h₁ h₂ h₃ =>
      exact .complete hfits (hrecords.trans h₁) (hunfinished.trans h₂) (hbroken.trans h₃)
    | ended hfits h₁ h₂ h₃ =>
      exact .ended hfits (hrecords.trans h₁) (hunfinished.trans h₂) (hbroken ▸ h₃)
    | failed h₁ h₂ => exact .failed (hrecords.trans h₁) (hbroken ▸ h₂)
    | tooLarge h₁ h₂ =>
      exact .tooLarge (fun record rest h => h₁ record rest (hrecords.symm.trans h)) fun h hlt =>
        hunfinished ▸ h₂ (hrecords.symm.trans h) (hbroken ▸ hlt)
  | case6 begun stream hstream =>
    have hsplit : split stream = ([], stream) := by
      rw [split]
      exact hstream
    refine .ended hbegun (by rw [hsplit]; rfl) (by rw [hsplit]; rfl) ?_
    rw [hsplit]
    rcases stream with _ | ⟨a, _ | ⟨b, _ | ⟨c, _ | ⟨d, rest⟩⟩⟩⟩
    · simp
    · simp
    · simp
    · simp
    · exact absurd rfl (hstream a b c d rest)

/-! ## The outer loop -/

/-- No complete record is empty, and the stream does not end in place of a fragment header with
something of an unfinished record received, which is within the limit as all complete ones are. -/
structure Framed (stream : Bytes) : Prop where
  nonempty : ∀ record ∈ acceptedRecords stream, record ≠ []
  ended : acceptedRecords stream = completeRecords stream → (brokenFragment stream).length < 4 →
    (unfinishedRecord stream).length ≤ maxFragmentSize → unfinishedRecord stream = []

theorem framed_cons {stream record rest : Bytes} (hne : record ≠ [])
    (haccepted : acceptedRecords stream = record :: acceptedRecords rest)
    (hcomplete : completeRecords stream = record :: completeRecords rest)
    (hunfinished : unfinishedRecord stream = unfinishedRecord rest)
    (hbroken : brokenFragment stream = brokenFragment rest) : Framed stream ↔ Framed rest := by
  constructor
  · intro h
    refine ⟨fun r hr => h.nonempty r (haccepted ▸ List.mem_cons_of_mem _ hr), fun heq => ?_⟩
    rw [← hunfinished, ← hbroken]
    exact h.ended (by rw [haccepted, hcomplete, heq])
  · intro h
    refine ⟨fun r hr => ?_, fun heq => ?_⟩
    · rw [haccepted] at hr
      rcases List.mem_cons.mp hr with rfl | hr
      · exact hne
      · exact h.nonempty r hr
    · rw [haccepted, hcomplete] at heq
      rw [hunfinished, hbroken]
      exact h.ended (List.cons.inj heq).2

/-- **Record marking.** The records handed on are exactly the complete records of the stream, in
order, up to the first that is too long, if and only if the stream is `Framed`. -/
theorem record_marking (stream : Bytes) :
    (handleConnection stream).1.map Handed.record = acceptedRecords stream ↔ Framed stream := by
  fun_induction handleConnection stream with
  | case1 stream h =>
    have hread := h ▸ readRecord_reads [] stream (Nat.zero_le _)
    cases hread with
    | failed hrecords hbroken =>
      have haccepted : acceptedRecords stream = [] := by
        simp [acceptedRecords, completeRecords, hrecords]
      refine iff_of_true haccepted.symm ⟨by simp [haccepted], fun _ hlt => ?_⟩
      exact absurd hlt (Nat.not_lt.mpr hbroken)
  | case2 stream h =>
    have hread := h ▸ readRecord_reads [] stream (Nat.zero_le _)
    cases hread with
    | tooLarge hrecords hunfinished =>
      cases hcons : records [] (split stream).1 with
      | nil =>
        have haccepted : acceptedRecords stream = [] := by
          simp [acceptedRecords, completeRecords, hcons]
        refine iff_of_true haccepted.symm ⟨by simp [haccepted], fun _ hlt hle => ?_⟩
        exact absurd hle (Nat.not_le.mpr (hunfinished hcons hlt))
      | cons record rest =>
        have haccepted : acceptedRecords stream = [] := by
          simp [acceptedRecords, completeRecords, hcons, hrecords record rest hcons]
        refine iff_of_true haccepted.symm ⟨by simp [haccepted], fun heq => ?_⟩
        rw [haccepted, completeRecords, hcons] at heq
        cases heq
  | case3 stream record rest h hnil =>
    have hread := h ▸ readRecord_reads [] stream (Nat.zero_le _)
    rw [List.isEmpty_iff] at hnil
    subst hnil
    cases hread with
    | complete hfits hrecords hunfinished hbroken =>
      -- The outer loop stops at an empty record, which should be handed on.
      have haccepted : acceptedRecords stream = [] :: acceptedRecords rest := by
        simp [acceptedRecords, completeRecords, hrecords]
      refine iff_of_false (by simp [haccepted]) fun hframed => ?_
      exact hframed.nonempty [] (haccepted ▸ List.mem_cons_self) rfl
    | ended _ hrecords hunfinished hbroken =>
      have haccepted : acceptedRecords stream = [] := by
        simp [acceptedRecords, completeRecords, hrecords]
      exact iff_of_true haccepted.symm ⟨by simp [haccepted], fun _ _ _ => hunfinished⟩
  | case4 stream record rest h hnil handed result hrest ih =>
    have hread := h ▸ readRecord_reads [] stream (Nat.zero_le _)
    have hne : record ≠ [] := fun hnil' => hnil (List.isEmpty_iff.mpr hnil')
    cases hread with
    | complete hfits hrecords hunfinished hbroken =>
      have haccepted : acceptedRecords stream = record :: acceptedRecords rest := by
        simp [acceptedRecords, completeRecords, hrecords, hfits]
      rw [hrest] at ih
      rw [framed_cons hne haccepted hrecords hunfinished hbroken, ← ih, haccepted]
      simp
    | ended hfits hrecords hunfinished hbroken =>
      -- What there is of the last record is handed on.
      have haccepted : acceptedRecords stream = [] := by
        simp [acceptedRecords, completeRecords, hrecords]
      refine iff_of_false (by simp [haccepted]) fun hframed => hne ?_
      have hrecord : unfinishedRecord stream = record := hunfinished
      rw [← hrecord]
      refine hframed.ended ?_ hbroken (by rw [hrecord]; exact hfits)
      rw [haccepted, completeRecords, hrecords]

/-- A stream that ends after the first fragment of a record: what there is of the record is handed
on. And a stream with an empty record: what follows is not. -/
theorem record_marking_unfinished :
    (handleConnection [0, 0, 0, 1, 7]).1 = [.call [7]] ∧ completeRecords [0, 0, 0, 1, 7] = [] ∧
    (handleConnection [0x80, 0, 0, 0, 0x80, 0, 0, 1, 7]).1 = [] ∧
      completeRecords [0x80, 0, 0, 0, 0x80, 0, 0, 1, 7] = [[], [7]] := by
  refine ⟨?_, ?_, ?_, ?_⟩
  · have hread : readRecord [] [0, 0, 0, 1, 7] = .finished [7] [] := by
      simp [readRecord, maxFragmentSize, rpcFragLenMask, rpcLastFragment]
    have hend : readRecord [] [] = .finished [] [] := by simp [readRecord]
    rw [handleConnection_of_finished hread (by simp), handleConnection_of_empty hend]
    decide
  · simp [completeRecords, split, headerLength, headerLast, rpcFragLenMask, rpcLastFragment, records]
  · have hread : readRecord [] [0x80, 0, 0, 0, 0x80, 0, 0, 1, 7] =
        .finished [] [0x80, 0, 0, 1, 7] := by
      simp [readRecord, maxFragmentSize, rpcFragLenMask, rpcLastFragment]
    rw [handleConnection_of_empty hread]
  · simp [completeRecords, split, headerLength, headerLast, rpcFragLenMask, rpcLastFragment, records]

end EmbedNfs

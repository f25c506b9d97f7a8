import EmbedNfs.Proto.RecordMarking
import EmbedNfs.Proto.Rpc

/-!
# Reading and writing a connection

The read side of `handle_connection` in `server/transport.rs`, on the finite stream of bytes that
a client sends. An inner loop accumulates the fragments of one record; the outer loop hands
records on until the stream ends, a read fails or a record is too large. Reading beyond the end
of the stream is an error within a fragment's body. Within a header it ends the inner loop only.
The write side is `write_records`, on the replies in the order in which they are queued.
-/

namespace EmbedNfs

/-- `MAX_FRAGMENT_SIZE`. -/
def maxFragmentSize : Nat := 2 * 1024 * 1024

/-- How the inner loop ends. -/
inductive RecordRead where
  /-- Without an error: with the last fragment of a record, or at the end of the stream. -/
  | finished (record rest : Bytes)
  /-- `read_result` is an error. -/
  | failed
  /-- `close_connection` is set. -/
  | tooLarge
  deriving DecidableEq, Repr

/-- The inner loop of `handle_connection`. -/
def readRecord (record : Bytes) : Bytes → RecordRead
  | a :: b :: c :: d :: stream =>
    let header : U32 := a ++ b ++ c ++ d
    let lastFragment : Bool := header &&& rpcLastFragment ≠ 0
    let fragLen := (header &&& rpcFragLenMask).toNat
    if maxFragmentSize < fragLen then .tooLarge
    else if maxFragmentSize < record.length + fragLen then .tooLarge
    else if stream.length < fragLen then .failed
    else if lastFragment then .finished (record ++ stream.take fragLen) (stream.drop fragLen)
    else readRecord (record ++ stream.take fragLen) (stream.drop fragLen)
  -- `read_exact` finds the end of the stream, here or within the header.
  | _ => .finished record []
termination_by stream => stream.length
decreasing_by
  simp only [List.length_drop, List.length_cons]
  omega

/-- The inner loop consumes some of the stream, unless there is none. -/
theorem readRecord_length {record stream record' rest : Bytes}
    (h : readRecord record stream = .finished record' rest) :
    rest.length < stream.length ∨ (stream = [] ∧ record' = record ∧ rest = []) := by
  fun_induction readRecord record stream with
  | case1 record a b c d stream header fragLen hlarge => cases h
  | case2 record a b c d stream header fragLen hlarge hsum => cases h
  | case3 record a b c d stream header fragLen hlarge hsum hshort => cases h
  | case4 record a b c d stream header lastFragment fragLen hlarge hsum hshort hlast =>
    cases h
    left
    simp only [List.length_drop, List.length_cons]
    omega
  | case5 record a b c d stream header lastFragment fragLen hlarge hsum hshort hlast ih =>
    left
    rcases ih h with hlt | ⟨-, -, rfl⟩
    · simp only [List.length_drop, List.length_cons] at hlt ⊢
      omega
    · simp
  | case6 record stream hstream =>
    cases h
    cases stream with
    | nil => exact Or.inr ⟨rfl, rfl, rfl⟩
    | cons byte stream => exact Or.inl (by simp)

/-! ## Records handed on -/

/-- `rpc_message_type`. -/
def rpcMessageType (record : Bytes) : Option MsgType :=
  let decoder : Decoder MsgType := do
    discard decodeU32
    MsgType.decode
  match decoder record with
  | .ok (msgType, _) => some msgType
  | .error _ => none

/-- A record that is handed on: to the backchannels, or to `process_rpc_message`. -/
inductive Handed where
  | reply (record : Bytes)
  | call (record : Bytes)
  deriving DecidableEq, Repr

def Handed.record : Handed → Bytes
  | .reply record => record
  | .call record => record

/-- Who gets a record. -/
def Handed.of (record : Bytes) : Handed :=
  if rpcMessageType record = some .reply then .reply record else .call record

@[simp] theorem Handed.record_of (record : Bytes) : (Handed.of record).record = record := by
  unfold Handed.of
  split <;> rfl

/-- `read_result`. -/
inductive StreamResult where
  | ok
  | unexpectedEof
  deriving DecidableEq, Repr

/-- The outer loop of `handle_connection`: the records handed on, in order, and the result. -/
def handleConnection (stream : Bytes) : List Handed × StreamResult :=
  match _h : readRecord [] stream with
  | .failed => ([], .unexpectedEof)
  | .tooLarge => ([], .ok)
  | .finished record rest =>
    if _hempty : record.isEmpty then ([], .ok)
    else
      let (handed, result) := handleConnection rest
      (Handed.of record :: handed, result)
termination_by stream.length
decreasing_by
  rcases readRecord_length _h with hlt | ⟨-, rfl, -⟩
  · exact hlt
  · exact absurd rfl _hempty

theorem handleConnection_of_finished {stream record rest : Bytes}
    (h : readRecord [] stream = .finished record rest) (hne : record ≠ []) :
    handleConnection stream =
      (Handed.of record :: (handleConnection rest).1, (handleConnection rest).2) := by
  rw [handleConnection]
  split
  · rename_i hread
    cases h.symm.trans hread
  · rename_i hread
    cases h.symm.trans hread
  · rename_i hread
    cases h.symm.trans hread
    rw [dif_neg (by simpa using hne)]

theorem handleConnection_of_empty {stream rest : Bytes}
    (h : readRecord [] stream = .finished [] rest) : handleConnection stream = ([], .ok) := by
  rw [handleConnection]
  split
  · rename_i hread
    cases h.symm.trans hread
  · rename_i hread
    cases h.symm.trans hread
  · rename_i hread
    cases h.symm.trans hread
    rw [dif_pos List.isEmpty_nil]

/-! ## Writing -/

/-- The inner loop of `write_records`: the bytes that it writes for a reply, or nothing where the
length of a fragment does not fit its header and the task panics. -/
def writeFragments (response : Bytes) : Option Bytes :=
  if _hempty : response = [] then some []
  else do
    let fragLen := min response.length maxFragmentSize
    let lastFragment : Bool := fragLen = response.length
    let fragment := response.take fragLen
    let respLen ←
      if fragment.length ≤ rpcFragLenMask.toNat then some (BitVec.ofNat 32 fragment.length) else none
    let header := if lastFragment then respLen ||| rpcLastFragment else respLen
    return be32 header ++ fragment ++ (← writeFragments (response.drop fragLen))
termination_by response.length
decreasing_by
  have hpos := List.length_pos_of_ne_nil _hempty
  simp only [List.length_drop, maxFragmentSize]
  omega

/-- `write_records`: the bytes written for the replies of a connection. -/
def writeRecords : List Bytes → Option Bytes
  | [] => some []
  | response :: responses => do
    let written ← writeFragments response
    return written ++ (← writeRecords responses)

end EmbedNfs

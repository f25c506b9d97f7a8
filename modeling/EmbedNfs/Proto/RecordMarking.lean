import EmbedNfs.Proto.Types

/-!
# Record marking

How messages are laid out on a byte stream. A fragment is a four-byte header and a body: the
header's top bit says whether the fragment is the last one of its record, the other bits are the
length of the body. A record is the concatenation of the bodies up to and including that of a
last fragment.
-/

namespace EmbedNfs

/-- `RPC_LAST_FRAGMENT`. -/
def rpcLastFragment : U32 := 0x80000000

/-- `RPC_FRAG_LEN_MASK`. -/
def rpcFragLenMask : U32 := 0x7fffffff

/-- A fragment of a record. -/
structure Fragment where
  last : Bool
  body : Bytes
  deriving DecidableEq, Repr

namespace Fragment

/-- Whether a header announces the last fragment of a record. -/
def headerLast (header : U32) : Bool := header &&& rpcLastFragment ≠ 0

/-- The length of the body that a header announces. -/
def headerLength (header : U32) : Nat := (header &&& rpcFragLenMask).toNat

/-- The fragments at the front of a stream, and the part of a fragment at its end. -/
def split : Bytes → List Fragment × Bytes
  | a :: b :: c :: d :: rest =>
    let header : U32 := a ++ b ++ c ++ d
    if rest.length < headerLength header then ([], a :: b :: c :: d :: rest)
    else
      let (fragments, left) := split (rest.drop (headerLength header))
      (⟨headerLast header, rest.take (headerLength header)⟩ :: fragments, left)
  | left => ([], left)
termination_by stream => stream.length
decreasing_by
  simp only [List.length_drop, List.length_cons]
  omega

/-- The records that the fragments complete, the first of which has already been begun. -/
def records (begun : Bytes) : List Fragment → List Bytes
  | [] => []
  | fragment :: fragments =>
    if fragment.last then (begun ++ fragment.body) :: records [] fragments
    else records (begun ++ fragment.body) fragments

/-- What the fragments leave of a record that they do not complete. -/
def unfinished (begun : Bytes) : List Fragment → Bytes
  | [] => begun
  | fragment :: fragments =>
    if fragment.last then unfinished [] fragments else unfinished (begun ++ fragment.body) fragments

/-- A record is at least as long as what has been begun of it. -/
theorem records_length (begun : Bytes) (fragments : List Fragment) :
    ∀ record rest, records begun fragments = record :: rest → begun.length ≤ record.length := by
  induction fragments generalizing begun with
  | nil =>
    intro record rest h
    cases h
  | cons fragment fragments ih =>
    intro record rest h
    simp only [records] at h
    split at h
    · obtain ⟨rfl, -⟩ := List.cons.inj h
      simp
    · have hle := ih (begun ++ fragment.body) record rest h
      rw [List.length_append] at hle
      omega

/-- What is left unfinished has all of what has been begun, if no record is completed. -/
theorem unfinished_length (begun : Bytes) (fragments : List Fragment)
    (h : records begun fragments = []) : begun.length ≤ (unfinished begun fragments).length := by
  induction fragments generalizing begun with
  | nil => exact le_rfl
  | cons fragment fragments ih =>
    simp only [records] at h
    split at h
    · cases h
    · rename_i hlast
      have hle := ih (begun ++ fragment.body) h
      rw [List.length_append] at hle
      rw [unfinished, if_neg hlast]
      omega

end Fragment

/-- The complete records of a stream. -/
def completeRecords (stream : Bytes) : List Bytes := Fragment.records [] (Fragment.split stream).1

end EmbedNfs

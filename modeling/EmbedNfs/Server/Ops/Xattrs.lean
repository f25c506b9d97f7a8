import EmbedNfs.Proto.Encode

/-!
# Extended attributes

LISTXATTRS of `server/ops/xattrs.rs` cuts the names of an object's extended attributes into pages
whose encoding fits the limit of the request; its cookie is the number of names before the page.
-/

namespace EmbedNfs

structure ListxattrsResOk4 where
  cookie : U64
  names : List String
  eof : Bool
  deriving DecidableEq, Repr

/-- The encoding of a LISTXATTRS result. -/
def ListxattrsResOk4.encode (res : ListxattrsResOk4) : Bytes :=
  be64 res.cookie ++ encodeList encodeString res.names ++ encodeBool res.eof

/-! ## Pages -/

/-- A slice: its length is a `usize`. -/
abbrev Slice (α : Type) := { items : List α // items.length < 2 ^ 64 }

/-- The loop of `listxattrs_page`: where the page ends, from the names that follow, the bytes used
and the place reached. A first name that does not fit is an error. -/
def pageEnd (maxcount start : Nat) : List String → Nat → Nat → Except NfsStat4 Nat
  | [], _, stop => .ok stop
  | name :: names, used, stop =>
    let itemLen := xdrOpaqueLen name.utf8ByteSize
    if maxcount < used + itemLen then if stop = start then .error .toosmall else .ok stop
    else pageEnd maxcount start names (used + itemLen) (stop + 1)

/-- `listxattrs_page`. -/
def listxattrsPage (names : Slice String) (cookie : U64) (maxcount : U32) :
    Except NfsStat4 ListxattrsResOk4 :=
  let start := cookie.toNat
  if names.val.length < start then .error .inval
  else do
    let stop ← pageEnd maxcount.toNat start (names.val.drop start) (8 + 4 + 4) start
    return ⟨BitVec.ofNat 64 stop, (names.val.take stop).drop start, stop = names.val.length⟩

/-- A client that lists: it starts at a cookie, follows the cookies of the pages it gets, one
limit a call, and stops at the end of the list. -/
def listxattrsFrom (names : Slice String) : U64 → List U32 →
    Except NfsStat4 (List ListxattrsResOk4)
  | _, [] => .ok []
  | cookie, maxcount :: maxcounts => do
    let page ← listxattrsPage names cookie maxcount
    if page.eof then return [page]
    return page :: (← listxattrsFrom names page.cookie maxcounts)

end EmbedNfs

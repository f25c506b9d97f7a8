import EmbedNfs.Fs
import EmbedNfs.Proto.Xdr

/-!
# Decoding attribute updates

`decode_setattr` of `attrs.rs`, with the XDR readers it uses. Attributes are read in bitmap
order, each reader consuming its bytes from the front; any failure to read is `BADXDR`.
-/

namespace EmbedNfs

/-- An attribute bitmap: words of 32 bits. -/
structure Bitmap4 where
  words : List U32
  deriving DecidableEq, Repr

/-- `Bitmap4::is_set`. -/
def Bitmap4.isSet (bitmap : Bitmap4) (bit : Nat) : Bool :=
  (bitmap.words[bit / 32]?).any fun word => word &&& (1#32 <<< (bit % 32)) ≠ 0

structure Fattr4 where
  attrmask : Bitmap4
  attrVals : Bytes
  deriving DecidableEq, Repr

/-! ## Readers -/

/-- A reader consumes bytes from the front, or fails. -/
abbrev Reader (α : Type) := StateT Bytes Option α

/-- `u32::decode`. -/
def readU32 : Reader U32 := fun src =>
  match src with
  | a :: b :: c :: d :: rest => some (a ++ b ++ c ++ d, rest)
  | _ => none

/-- `u64::decode`, also used for `i64`. -/
def readU64 : Reader U64 := do
  let high ← readU32
  let low ← readU32
  return high ++ low

/-- `bool::decode`. -/
def readBool : Reader Bool := do
  let v ← readU32
  if v = 0 then return false
  if v = 1 then return true
  failure

/-- `decode_opaque`. -/
def readOpaque : Reader Bytes := do
  let len ← readU32
  let src ← get
  if src.length < len.toNat + xdrPad len.toNat then failure
  set (src.drop (len.toNat + xdrPad len.toNat))
  return src.take len.toNat

/-- `String::decode`. -/
def readString : Reader String := do
  let data ← readOpaque
  match String.fromUTF8? (ByteArray.mk (data.map UInt8.ofBitVec).toArray) with
  | some s => return s
  | none => failure

/-- `NfsTime4::decode`. -/
def readTime : Reader Timestamp := do
  let seconds ← readU64
  let nanos ← readU32
  return ⟨seconds, nanos⟩

/-- `str::parse::<u32>`: digits after an optional plus sign, within range. -/
def parseU32 (s : String) : Option U32 :=
  let digits := match s.toList with
    | '+' :: digits => digits
    | digits => digits
  if digits.isEmpty ∨ !digits.all Char.isDigit then none
  else
    let value := digits.foldl (fun value digit => 10 * value + (digit.toNat - 48)) 0
    if value < 2 ^ 32 then some (BitVec.ofNat 32 value) else none

/-- The part of an owner string before the first `@`. -/
def ownerNumber (s : String) : Option U32 :=
  parseU32 (String.ofList (s.toList.takeWhile (· ≠ '@')))

/-- A `settime4`: the server's clock, a client time, or nothing for an unknown selector. -/
def readSetTime : Reader (Option SetTime) := do
  let how ← readU32
  if how = 0 then return some .serverNow
  if how = 1 then
    let time ← readTime
    return some (.client time)
  return none

/-! ## The decoder -/

def fattr4Size : Nat := 4
def fattr4Archive : Nat := 14
def fattr4Hidden : Nat := 25
def fattr4Mode : Nat := 33
def fattr4Owner : Nat := 36
def fattr4OwnerGroup : Nat := 37
def fattr4System : Nat := 46
def fattr4TimeAccessSet : Nat := 48
def fattr4TimeBackup : Nat := 49
def fattr4TimeCreate : Nat := 50
def fattr4TimeModifySet : Nat := 54

/-- `MODE_PERM_MASK`. -/
def modePermMask : U32 := 0o7777

/-- Read an attribute when its bit is set. -/
def readAttr {α : Type} (mask : Bitmap4) (bit : Nat) (old : Option α)
    (reader : Reader (Option α)) : Reader (Option α) :=
  if mask.isSet bit then reader else pure old

/-- The readers of `decode_setattr` in bitmap order. -/
def readSetattr (mask : Bitmap4) : Reader SetAttrs := do
  let size ← readAttr mask fattr4Size none (some <$> readU64)
  let archive ← readAttr mask fattr4Archive none (some <$> readBool)
  let hidden ← readAttr mask fattr4Hidden none (some <$> readBool)
  let mode ← readAttr mask fattr4Mode none ((fun mode => some (mode &&& modePermMask)) <$> readU32)
  let uid ← readAttr mask fattr4Owner none (ownerNumber <$> readString)
  let gid ← readAttr mask fattr4OwnerGroup none (ownerNumber <$> readString)
  let system ← readAttr mask fattr4System none (some <$> readBool)
  let atime ← readAttr mask fattr4TimeAccessSet none readSetTime
  let backup ← readAttr mask fattr4TimeBackup none ((fun t => some (.client t)) <$> readTime)
  let birthtime ← readAttr mask fattr4TimeCreate backup ((fun t => some (.client t)) <$> readTime)
  let mtime ← readAttr mask fattr4TimeModifySet none readSetTime
  return { size, archive, hidden, mode, uid, gid, system, atime, mtime, birthtime }

/-- `decode_setattr`. Bytes left over after the last attribute are ignored. -/
def decodeSetattr (fattr : Fattr4) : Except NfsStat4 SetAttrs :=
  match readSetattr fattr.attrmask fattr.attrVals with
  | some (attrs, _) => .ok attrs
  | none => .error .badXdr

end EmbedNfs

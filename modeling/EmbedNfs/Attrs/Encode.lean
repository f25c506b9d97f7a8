import EmbedNfs.Attrs
import EmbedNfs.Proto.Encode
import Mathlib.Data.List.DropRight

/-!
# Encoding attributes

`encode_fattr4` of `attrs.rs`, with `supported_attrs_bitmap`. The attributes are taken in the
order of their numbers; one that is asked for and has a value sets its bit in the mask and
appends its XDR encoding to the values. The reader at the end is driven by a mask alone: it knows
the type of every attribute and nothing else.
-/

namespace EmbedNfs

/-! ## Bitmaps -/

/-- `Bitmap4::set`: grow to the word of the bit, then set it. -/
def Bitmap4.set (bitmap : Bitmap4) (bit : Nat) : Bitmap4 :=
  let grown := bitmap.words ++ List.replicate (bit / 32 + 1 - bitmap.words.length) 0
  ⟨grown.modify (bit / 32) (· ||| (1#32 <<< (bit % 32)))⟩

/-- The words of a bitmap without the zero words at its end. -/
def Bitmap4.trimmed (bitmap : Bitmap4) : List U32 := bitmap.words.rdropWhile (· = 0)

/-- `Bitmap4::encode`. -/
def Bitmap4.encode (bitmap : Bitmap4) : Bytes := encodeList be32 bitmap.trimmed

/-- The numbers of the bits that are set, in ascending order. -/
def Bitmap4.bits (bitmap : Bitmap4) : List Nat :=
  (List.range (32 * bitmap.words.length)).filter bitmap.isSet

/-- `Fattr4::encode`. -/
def Fattr4.encode (fattr : Fattr4) : Bytes :=
  fattr.attrmask.encode ++ encodeOpaque fattr.attrVals

/-! ## What is encoded -/

/-- `FsCapabilities`. -/
structure FsCapabilities where
  symlinks : Bool
  hardLinks : Bool
  xattrs : Bool
  caseSensitive : Bool
  casePreserving : Bool
  deriving DecidableEq, Repr

/-- `FsLimits`. -/
structure FsLimits where
  maxNameBytes : U32
  maxRead : U32
  maxWrite : U32
  maxFileSize : U64
  deriving DecidableEq, Repr

/-- `AttrEncodingContext`. -/
structure AttrEncodingContext where
  limits : FsLimits
  stats : Option FsStats
  capabilities : FsCapabilities
  minorversion : U32

/-- `ServerFileAttr` with all its fields: those that only the encoder reads are added here. -/
structure EncodedFileAttr extends ServerFileAttr where
  fsidMajor : U64
  fsidMinor : U64
  fileid : U64
  used : U64
  mode : U32
  nlink : U32
  owner : String
  ownerGroup : String
  atime : Timestamp
  mtime : Timestamp
  ctime : Timestamp
  crtime : Timestamp
  rdevMajor : U32
  rdevMinor : U32
  archive : Bool
  hidden : Bool
  system : Bool
  hasNamedAttrs : Bool
  deriving DecidableEq, Repr

/-- The value of an attribute, by the XDR type it has. -/
inductive AttrValue where
  | bitmap (bitmap : Bitmap4)
  | u32 (value : U32)
  | u64 (value : U64)
  | bool (value : Bool)
  | fsid (major minor : U64)
  | opaqueData (data : Bytes)
  | string (value : String)
  | specdata (specdata1 specdata2 : U32)
  | time (value : Timestamp)
  deriving DecidableEq, Repr

/-- The XDR encoding of a value. -/
def AttrValue.encode : AttrValue → Bytes
  | .bitmap mask => mask.encode
  | .u32 value => be32 value
  | .u64 value => be64 value
  | .bool value => encodeBool value
  | .fsid major minor => be64 major ++ be64 minor
  | .opaqueData data => encodeOpaque data
  | .string value => encodeString value
  | .specdata specdata1 specdata2 => be32 specdata1 ++ be32 specdata2
  | .time value => be64 value.seconds ++ be32 value.nanos

/-- The attributes that the server knows. -/
inductive Attribute where
  | supportedAttrs | type | fhExpireType | change | size | linkSupport | symlinkSupport
  | namedAttr | fsid | uniqueHandles | leaseTime | rdattrError | aclsupport | archive
  | cansettime | caseInsensitive | casePreserving | chownRestricted | filehandle | fileid
  | filesAvail | filesFree | filesTotal | hidden | homogeneous | maxfilesize | maxlink | maxname
  | maxread | maxwrite | mode | noTrunc | numlinks | owner | ownerGroup | rawdev | spaceAvail
  | spaceFree | spaceTotal | spaceUsed | system | timeAccess | timeAccessSet | timeBackup
  | timeCreate | timeDelta | timeMetadata | timeModify | timeModifySet | mountedOnFileid
  | suppattrExclcreat | xattrSupport
  deriving DecidableEq, Repr

namespace Attribute

/-- The number of an attribute: its bit in a mask. -/
def number : Attribute → Nat
  | .supportedAttrs => 0 | .type => 1 | .fhExpireType => 2 | .change => 3 | .size => 4
  | .linkSupport => 5 | .symlinkSupport => 6 | .namedAttr => 7 | .fsid => 8 | .uniqueHandles => 9
  | .leaseTime => 10 | .rdattrError => 11 | .aclsupport => 13 | .archive => 14
  | .cansettime => 15 | .caseInsensitive => 16 | .casePreserving => 17 | .chownRestricted => 18
  | .filehandle => 19 | .fileid => 20 | .filesAvail => 21 | .filesFree => 22 | .filesTotal => 23
  | .hidden => 25 | .homogeneous => 26 | .maxfilesize => 27 | .maxlink => 28 | .maxname => 29
  | .maxread => 30 | .maxwrite => 31 | .mode => 33 | .noTrunc => 34 | .numlinks => 35
  | .owner => 36 | .ownerGroup => 37 | .rawdev => 41 | .spaceAvail => 42 | .spaceFree => 43
  | .spaceTotal => 44 | .spaceUsed => 45 | .system => 46 | .timeAccess => 47
  | .timeAccessSet => 48 | .timeBackup => 49 | .timeCreate => 50 | .timeDelta => 51
  | .timeMetadata => 52 | .timeModify => 53 | .timeModifySet => 54 | .mountedOnFileid => 55
  | .suppattrExclcreat => 75 | .xattrSupport => 82

/-- The bits that `supported_attrs_bitmap` sets whatever the capabilities are, by their numbers. -/
def supported : List Attribute :=
  [.supportedAttrs, .type, .fhExpireType, .change, .size, .linkSupport, .symlinkSupport, .fsid,
    .uniqueHandles, .leaseTime, .rdattrError, .aclsupport, .archive, .cansettime,
    .caseInsensitive, .casePreserving, .chownRestricted, .filehandle, .fileid, .filesAvail,
    .filesFree, .filesTotal, .hidden, .homogeneous, .maxfilesize, .maxlink, .maxname, .maxread,
    .maxwrite, .mode, .noTrunc, .numlinks, .owner, .ownerGroup, .rawdev, .spaceAvail, .spaceFree,
    .spaceTotal, .spaceUsed, .system, .timeAccess, .timeAccessSet, .timeBackup, .timeCreate,
    .timeDelta, .timeMetadata, .timeModify, .timeModifySet, .mountedOnFileid, .suppattrExclcreat]

end Attribute

/-- `supported_attrs_bitmap`. -/
def supportedAttrsBitmap (capabilities : FsCapabilities) (minorversion : U32) : Bitmap4 :=
  let supported := Attribute.supported.foldl (fun bitmap a => bitmap.set a.number) ⟨[]⟩
  let supported :=
    if capabilities.xattrs then supported.set Attribute.namedAttr.number else supported
  if capabilities.xattrs ∧ 2 ≤ minorversion then supported.set Attribute.xattrSupport.number
  else supported

/-- The attributes that an exclusive create may set. -/
def exclcreatBitmap : Bitmap4 :=
  ((⟨[]⟩ : Bitmap4).set Attribute.size.number).set Attribute.mode.number

/-- The `nfs_ftype4` of a file kind. -/
def ServerFileType.nfsFtype4 : ServerFileType → U32
  | .regular => 1
  | .directory => 2
  | .symlink => 5
  | .namedAttrDir => 8
  | .namedAttr => 9

/-- The value that `encode_fattr4` encodes for an attribute, if it has one: the numbers of the file
system may be missing, and XATTR_SUPPORT is an attribute of minor version 2. -/
def Attribute.value (attr : EncodedFileAttr) (fh : Bytes) (ctx : AttrEncodingContext) :
    Attribute → Option AttrValue
  | .supportedAttrs => some (.bitmap (supportedAttrsBitmap ctx.capabilities ctx.minorversion))
  | .type => some (.u32 attr.fileType.nfsFtype4)
  | .fhExpireType => some (.u32 0)
  | .change => some (.u64 attr.changeId)
  | .size => some (.u64 attr.size)
  | .linkSupport => some (.bool ctx.capabilities.hardLinks)
  | .symlinkSupport => some (.bool ctx.capabilities.symlinks)
  | .namedAttr => some (.bool attr.hasNamedAttrs)
  | .fsid => some (.fsid attr.fsidMajor attr.fsidMinor)
  | .uniqueHandles => some (.bool true)
  | .leaseTime => some (.u32 90)
  | .rdattrError => some (.u32 0)
  | .aclsupport => some (.u32 0)
  | .archive => some (.bool attr.archive)
  | .cansettime => some (.bool true)
  | .caseInsensitive => some (.bool !ctx.capabilities.caseSensitive)
  | .casePreserving => some (.bool ctx.capabilities.casePreserving)
  | .chownRestricted => some (.bool true)
  | .filehandle => some (.opaqueData fh)
  | .fileid => some (.u64 attr.fileid)
  | .filesAvail => ctx.stats.map fun stats => .u64 stats.availFiles
  | .filesFree => ctx.stats.map fun stats => .u64 stats.freeFiles
  | .filesTotal => ctx.stats.map fun stats => .u64 stats.totalFiles
  | .hidden => some (.bool attr.hidden)
  | .homogeneous => some (.bool true)
  | .maxfilesize => some (.u64 ctx.limits.maxFileSize)
  | .maxlink => some (.u32 255)
  | .maxname => some (.u32 ctx.limits.maxNameBytes)
  | .maxread => some (.u64 (ctx.limits.maxRead.setWidth 64))
  | .maxwrite => some (.u64 (ctx.limits.maxWrite.setWidth 64))
  | .mode => some (.u32 (attr.mode &&& modePermMask))
  | .noTrunc => some (.bool true)
  | .numlinks => some (.u32 attr.nlink)
  | .owner => some (.string attr.owner)
  | .ownerGroup => some (.string attr.ownerGroup)
  | .rawdev => some (.specdata attr.rdevMajor attr.rdevMinor)
  | .spaceAvail => ctx.stats.map fun stats => .u64 stats.availBytes
  | .spaceFree => ctx.stats.map fun stats => .u64 stats.freeBytes
  | .spaceTotal => ctx.stats.map fun stats => .u64 stats.totalBytes
  | .spaceUsed => some (.u64 attr.used)
  | .system => some (.bool attr.system)
  | .timeAccess => some (.time attr.atime)
  | .timeBackup => some (.time attr.crtime)
  | .timeCreate => some (.time attr.crtime)
  | .timeDelta => some (.time ⟨0, 1000000⟩)
  | .timeMetadata => some (.time attr.ctime)
  | .timeModify => some (.time attr.mtime)
  | .mountedOnFileid => some (.u64 attr.fileid)
  | .suppattrExclcreat => some (.bitmap exclcreatBitmap)
  | .xattrSupport => if 2 ≤ ctx.minorversion then some (.bool ctx.capabilities.xattrs) else none
  | .timeAccessSet | .timeModifySet => none

/-- The attributes that `encode_fattr4` goes through, in its order. -/
def Attribute.encoded : List Attribute :=
  [.supportedAttrs, .type, .fhExpireType, .change, .size, .linkSupport, .symlinkSupport,
    .namedAttr, .fsid, .uniqueHandles, .leaseTime, .rdattrError, .aclsupport, .archive,
    .cansettime, .caseInsensitive, .casePreserving, .chownRestricted, .filehandle, .fileid,
    .filesAvail, .filesFree, .filesTotal, .hidden, .homogeneous, .maxfilesize, .maxlink,
    .maxname, .maxread, .maxwrite, .mode, .noTrunc, .numlinks, .owner, .ownerGroup, .rawdev,
    .spaceAvail, .spaceFree, .spaceTotal, .spaceUsed, .system, .timeAccess, .timeBackup,
    .timeCreate, .timeDelta, .timeMetadata, .timeModify, .mountedOnFileid, .suppattrExclcreat,
    .xattrSupport]

/-- One attribute of `encode_fattr4`: set its bit and append its value. -/
def putAttr (attr : EncodedFileAttr) (request : Bitmap4) (fh : Bytes) (ctx : AttrEncodingContext)
    (fattr : Fattr4) (a : Attribute) : Fattr4 :=
  if request.isSet a.number then
    match a.value attr fh ctx with
    | some value => ⟨fattr.attrmask.set a.number, fattr.attrVals ++ value.encode⟩
    | none => fattr
  else fattr

/-- `encode_fattr4`. -/
def encodeFattr4 (attr : EncodedFileAttr) (request : Bitmap4) (fh : Bytes)
    (ctx : AttrEncodingContext) : Fattr4 :=
  Attribute.encoded.foldl (putAttr attr request fh ctx) ⟨⟨[]⟩, []⟩

/-! ## Reading attributes back -/

/-- The XDR types of attributes. -/
inductive AttrKind where
  | bitmap | u32 | u64 | bool | fsid | opaqueData | string | specdata | time
  deriving DecidableEq, Repr

def AttrValue.kind : AttrValue → AttrKind
  | .bitmap _ => .bitmap
  | .u32 _ => .u32
  | .u64 _ => .u64
  | .bool _ => .bool
  | .fsid _ _ => .fsid
  | .opaqueData _ => .opaqueData
  | .string _ => .string
  | .specdata _ _ => .specdata
  | .time _ => .time

/-- The XDR type of an attribute. -/
def Attribute.kind : Attribute → AttrKind
  | .supportedAttrs | .suppattrExclcreat => .bitmap
  | .type | .fhExpireType | .leaseTime | .rdattrError | .aclsupport | .maxlink | .maxname | .mode
  | .numlinks => .u32
  | .change | .size | .fileid | .filesAvail | .filesFree | .filesTotal | .maxfilesize | .maxread
  | .maxwrite | .spaceAvail | .spaceFree | .spaceTotal | .spaceUsed | .mountedOnFileid => .u64
  | .linkSupport | .symlinkSupport | .namedAttr | .uniqueHandles | .archive | .cansettime
  | .caseInsensitive | .casePreserving | .chownRestricted | .hidden | .homogeneous | .noTrunc
  | .system | .xattrSupport => .bool
  | .fsid => .fsid
  | .filehandle => .opaqueData
  | .owner | .ownerGroup => .string
  | .rawdev => .specdata
  | .timeAccess | .timeBackup | .timeCreate | .timeDelta | .timeMetadata | .timeModify
  | .timeAccessSet | .timeModifySet => .time

/-- A value read a number of times. -/
def readTimes {α : Type} (reader : Reader α) : Nat → Reader (List α)
  | 0 => return []
  | count + 1 => do
    let item ← reader
    return item :: (← readTimes reader count)

/-- `Bitmap4::decode`. -/
def readBitmap : Reader Bitmap4 := do
  let count ← readU32
  let src ← get
  if src.length < count.toNat * 4 then failure
  return ⟨← readTimes readU32 count.toNat⟩

/-- Read a value of the given type. -/
def AttrKind.read : AttrKind → Reader AttrValue
  | .bitmap => .bitmap <$> readBitmap
  | .u32 => .u32 <$> readU32
  | .u64 => .u64 <$> readU64
  | .bool => .bool <$> readBool
  | .fsid => .fsid <$> readU64 <*> readU64
  | .opaqueData => .opaqueData <$> readOpaque
  | .string => .string <$> readString
  | .specdata => .specdata <$> readU32 <*> readU32
  | .time => .time <$> readTime

/-- The attribute with a number. -/
def Attribute.ofNumber (bit : Nat) : Option Attribute :=
  Attribute.encoded.find? fun a => a.number = bit

/-- Read the attributes with the given numbers one after the other. -/
def readAttrs : List Nat → Reader (List (Nat × AttrValue))
  | [] => return []
  | bit :: bits =>
    match Attribute.ofNumber bit with
    | none => failure
    | some a => do
      let value ← a.kind.read
      return (bit, value) :: (← readAttrs bits)

/-- The reference decoder: the attributes in the mask, and the bytes left over. -/
def decodeFattr (fattr : Fattr4) : Option (List (Nat × AttrValue) × Bytes) :=
  readAttrs fattr.attrmask.bits fattr.attrVals

end EmbedNfs

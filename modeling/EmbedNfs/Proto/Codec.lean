import EmbedNfs.Attrs.Encode
import EmbedNfs.Proto.Rpc

/-!
# XDR codecs

The types of the protocol crate that are both written and read: the readers of `xdr.rs`,
`types/basic.rs`, `types/session.rs` and `rpc.rs`, with the writers that the server itself does not
use. Signed integers are the bit vectors of their two's complement, so that they share the codecs of
the unsigned ones. A fixed-size byte array that the model keeps as one bit vector is its big-endian
bytes.
-/

namespace EmbedNfs

/-! ## Integers, truth values and opaque data -/

/-- `u64::decode` and `i64::decode`. -/
def decodeU64 : Decoder U64 := do
  let high ← decodeU32
  let low ← decodeU32
  return high ++ low

/-- `bool::decode`. -/
def decodeBool : Decoder Bool := do
  let v ← decodeU32
  if v = 0 then return false
  if v = 1 then return true
  throw (.invalidBool v)

/-- `decode_fixed_opaque`. -/
def decodeFixedOpaque (len : Nat) : Decoder Bytes := fun src =>
  if src.length < len + xdrPad len then .error .underflow
  else .ok (src.take len, src.drop (len + xdrPad len))

/-- `encode_fixed_opaque`. -/
def encodeFixedOpaque (data : Bytes) : Bytes := data ++ List.replicate (xdrPad data.length) 0

/-- `String::decode`. -/
def decodeString : Decoder String := do
  let some string := utf8? (← decodeOpaque) | throw .invalidUtf8
  return string

/-! ## Lists, options and enumerations -/

/-- `decode_list`. -/
def decodeList {α : Type} (decode : Decoder α) : Decoder (List α) := do
  let count := (← decodeU32).toNat
  decodeTimes decode count

/-- `Option::decode`. -/
def decodeOption {α : Type} (decode : Decoder α) : Decoder (Option α) := do
  let present ← decodeU32
  if present = 0 then return none
  if present = 1 then
    let v ← decode
    return some v
  throw (.invalidBool present)

/-- `Option::encode`. -/
def encodeOption {α : Type} (encode : α → Bytes) : Option α → Bytes
  | some v => be32 1 ++ encode v
  | none => be32 0

/-- An enumeration by the arms of its `decode`. -/
def decodeEnum {α : Type} (arms : List (U32 × α)) : Decoder α := do
  let v ← decodeU32
  match arms.lookup v with
  | some a => return a
  | none => throw (.invalidEnum v)

/-! ## Basic types -/

/-- `NfsFh4::decode`. -/
def decodeFh : Decoder Bytes := decodeOpaqueMax 128

/-- `NfsStat4 as u32`. -/
def NfsStat4.code : NfsStat4 → U32
  | .ok => 0 | .perm => 1 | .noent => 2 | .io => 5 | .nxio => 6 | .access => 13 | .exist => 17
  | .xdev => 18 | .notdir => 20 | .isdir => 21 | .inval => 22 | .fbig => 27 | .nospc => 28
  | .rofs => 30 | .mlink => 31 | .nametoolong => 63 | .notempty => 66 | .dquot => 69
  | .stale => 70 | .badhandle => 10001 | .badCookie => 10003 | .notsupp => 10004
  | .toosmall => 10005 | .serverfault => 10006 | .badtype => 10007 | .delay => 10008
  | .same => 10009 | .denied => 10010 | .expired => 10011 | .locked => 10012 | .grace => 10013
  | .fhexpired => 10014 | .shareDenied => 10015 | .wrongSec => 10016 | .clidInuse => 10017
  | .moved => 10019 | .nofilehandle => 10020 | .minorVersMismatch => 10021
  | .staleClientid => 10022 | .staleStateid => 10023 | .oldStateid => 10024
  | .badStateid => 10025 | .badSeqid => 10026 | .notSame => 10027 | .lockRange => 10028
  | .symlink => 10029 | .restorefh => 10030 | .leaseMoved => 10031 | .attrNotsupp => 10032
  | .noGrace => 10033 | .reclaimBad => 10034 | .reclaimConflict => 10035 | .badXdr => 10036
  | .locksHeld => 10037 | .openmode => 10038 | .badOwner => 10039 | .badchar => 10040
  | .badname => 10041 | .badRange => 10042 | .lockNotsupp => 10043 | .opIllegal => 10044
  | .deadlock => 10045 | .fileOpen => 10046 | .adminRevoked => 10047 | .cbPathDown => 10048
  | .badIomode => 10049 | .badLayout => 10050 | .badSessionDigest => 10051 | .badSession => 10052
  | .badSlot => 10053 | .completeAlready => 10054 | .connNotBoundToSession => 10055
  | .delegAlreadyWanted => 10056 | .backChanBusy => 10057 | .layoutTrylater => 10058
  | .layoutUnavailable => 10059 | .nomatchingLayout => 10060 | .recallConflict => 10061
  | .unknownLayouttype => 10062 | .seqMisordered => 10063 | .sequencePos => 10064
  | .reqTooBig => 10065 | .repTooBig => 10066 | .repTooBigToCache => 10067
  | .retryUncachedRep => 10068 | .unsafeCompound => 10069 | .tooManyOps => 10070
  | .opNotInSession => 10071 | .hashAlgUnsupp => 10072 | .clientidBusy => 10074
  | .pnfsIoHole => 10075 | .seqFalseRetry => 10076 | .badHighSlot => 10077
  | .deadSession => 10078 | .encrAlgUnsupp => 10079 | .pnfsNoLayout => 10080
  | .notOnlyOp => 10081 | .wrongCred => 10082 | .wrongType => 10083 | .dirDelegUnavail => 10084
  | .rejectDeleg => 10085 | .returnConflict => 10086 | .delegRevoked => 10087 | .noXattr => 10095
  | .xattr2Big => 10096

/-- The arms of `NfsStat4::from_u32`. -/
def NfsStat4.table : List (U32 × NfsStat4) :=
  [(0, .ok), (1, .perm), (2, .noent), (5, .io), (6, .nxio), (13, .access), (17, .exist),
    (18, .xdev), (20, .notdir), (21, .isdir), (22, .inval), (27, .fbig), (28, .nospc),
    (30, .rofs), (31, .mlink), (63, .nametoolong), (66, .notempty), (69, .dquot), (70, .stale),
    (10001, .badhandle), (10003, .badCookie), (10004, .notsupp), (10005, .toosmall),
    (10006, .serverfault), (10007, .badtype), (10008, .delay), (10009, .same), (10010, .denied),
    (10011, .expired), (10012, .locked), (10013, .grace), (10014, .fhexpired),
    (10015, .shareDenied), (10016, .wrongSec), (10017, .clidInuse), (10019, .moved),
    (10020, .nofilehandle), (10021, .minorVersMismatch), (10022, .staleClientid),
    (10023, .staleStateid), (10024, .oldStateid), (10025, .badStateid), (10026, .badSeqid),
    (10027, .notSame), (10028, .lockRange), (10029, .symlink), (10030, .restorefh),
    (10031, .leaseMoved), (10032, .attrNotsupp), (10033, .noGrace), (10034, .reclaimBad),
    (10035, .reclaimConflict), (10036, .badXdr), (10037, .locksHeld), (10038, .openmode),
    (10039, .badOwner), (10040, .badchar), (10041, .badname), (10042, .badRange),
    (10043, .lockNotsupp), (10044, .opIllegal), (10045, .deadlock), (10046, .fileOpen),
    (10047, .adminRevoked), (10048, .cbPathDown), (10049, .badIomode), (10050, .badLayout),
    (10051, .badSessionDigest), (10052, .badSession), (10053, .badSlot),
    (10054, .completeAlready), (10055, .connNotBoundToSession), (10056, .delegAlreadyWanted),
    (10057, .backChanBusy), (10058, .layoutTrylater), (10059, .layoutUnavailable),
    (10060, .nomatchingLayout), (10061, .recallConflict), (10062, .unknownLayouttype),
    (10063, .seqMisordered), (10064, .sequencePos), (10065, .reqTooBig), (10066, .repTooBig),
    (10067, .repTooBigToCache), (10068, .retryUncachedRep), (10069, .unsafeCompound),
    (10070, .tooManyOps), (10071, .opNotInSession), (10072, .hashAlgUnsupp),
    (10074, .clientidBusy), (10075, .pnfsIoHole), (10076, .seqFalseRetry), (10077, .badHighSlot),
    (10078, .deadSession), (10079, .encrAlgUnsupp), (10080, .pnfsNoLayout), (10081, .notOnlyOp),
    (10082, .wrongCred), (10083, .wrongType), (10084, .dirDelegUnavail), (10085, .rejectDeleg),
    (10086, .returnConflict), (10087, .delegRevoked), (10095, .noXattr), (10096, .xattr2Big)]

def NfsStat4.decode : Decoder NfsStat4 := decodeEnum NfsStat4.table

inductive NfsFtype4 where
  | reg | dir | blk | chr | lnk | sock | fifo | attrDir | namedAttr
  deriving DecidableEq, Repr

def NfsFtype4.code : NfsFtype4 → U32
  | .reg => 1 | .dir => 2 | .blk => 3 | .chr => 4 | .lnk => 5 | .sock => 6 | .fifo => 7
  | .attrDir => 8 | .namedAttr => 9

def NfsFtype4.decode : Decoder NfsFtype4 :=
  decodeEnum [(1, .reg), (2, .dir), (3, .blk), (4, .chr), (5, .lnk), (6, .sock), (7, .fifo),
    (8, .attrDir), (9, .namedAttr)]

def NfsLockType4.code : NfsLockType4 → U32
  | .readLt => 1 | .writeLt => 2 | .readwLt => 3 | .writewLt => 4

def NfsLockType4.decode : Decoder NfsLockType4 :=
  decodeEnum [(1, .readLt), (2, .writeLt), (3, .readwLt), (4, .writewLt)]

/-- `NfsTime4::encode`. -/
def Timestamp.encode (time : Timestamp) : Bytes := be64 time.seconds ++ be32 time.nanos

/-- `NfsTime4::decode`. -/
def Timestamp.decode : Decoder Timestamp := .mk <$> decodeU64 <*> decodeU32

/-- The twelve bytes of a stateid, most significant first. -/
def StateidOther.bytes (other : StateidOther) : Bytes :=
  [other.extractLsb' 88 8, other.extractLsb' 80 8, other.extractLsb' 72 8, other.extractLsb' 64 8,
    other.extractLsb' 56 8, other.extractLsb' 48 8, other.extractLsb' 40 8, other.extractLsb' 32 8,
    other.extractLsb' 24 8, other.extractLsb' 16 8, other.extractLsb' 8 8, other.extractLsb' 0 8]

/-- Bytes as a number, most significant first. -/
def ofBytes (w : Nat) (data : Bytes) : BitVec w :=
  BitVec.ofNat w (data.foldl (fun n byte => 256 * n + byte.toNat) 0)

/-- `Stateid4::encode`. -/
def Stateid4.encode (stateid : Stateid4) : Bytes := be32 stateid.seqid ++ stateid.other.bytes

/-- `Stateid4::decode`. -/
def Stateid4.decode : Decoder Stateid4 :=
  .mk <$> decodeU32 <*> (ofBytes 96 <$> decodeFixedOpaque 12)

/-- `Bitmap4::decode`. A count of 32 bits times four does not overflow. -/
def Bitmap4.decode : Decoder Bitmap4 := do
  let count := (← decodeU32).toNat
  if (← get).length < count * 4 then throw .underflow
  return ⟨← decodeTimes decodeU32 count⟩

structure Fsid4 where
  major : U64
  minor : U64
  deriving DecidableEq, Repr

def Fsid4.encode (fsid : Fsid4) : Bytes := be64 fsid.major ++ be64 fsid.minor

def Fsid4.decode : Decoder Fsid4 := .mk <$> decodeU64 <*> decodeU64

/-- `Fattr4::decode`. -/
def Fattr4.decode : Decoder Fattr4 := .mk <$> Bitmap4.decode <*> decodeOpaque

/-! ## Sessions -/

def ChannelAttrs4.encode (attrs : ChannelAttrs4) : Bytes :=
  be32 attrs.headerpadsize ++ be32 attrs.maxrequestsize ++ be32 attrs.maxresponsesize ++
    be32 attrs.maxresponsesizeCached ++ be32 attrs.maxoperations ++ be32 attrs.maxrequests ++
    encodeList be32 attrs.rdmaIrd

def ChannelAttrs4.decode : Decoder ChannelAttrs4 :=
  .mk <$> decodeU32 <*> decodeU32 <*> decodeU32 <*> decodeU32 <*> decodeU32 <*> decodeU32
    <*> decodeList decodeU32

structure NfsImplId4 where
  domain : String
  name : String
  date : Timestamp
  deriving DecidableEq, Repr

def NfsImplId4.encode (id : NfsImplId4) : Bytes :=
  encodeString id.domain ++ encodeString id.name ++ id.date.encode

def NfsImplId4.decode : Decoder NfsImplId4 :=
  .mk <$> decodeString <*> decodeString <*> Timestamp.decode

/-! ## RPC -/

def MsgType.code : MsgType → U32
  | .call => 0
  | .reply => 1

inductive ReplyStat where
  | accepted
  | denied
  deriving DecidableEq, Repr

def ReplyStat.code : ReplyStat → U32
  | .accepted => 0
  | .denied => 1

def ReplyStat.decode : Decoder ReplyStat := decodeEnum [(0, .accepted), (1, .denied)]

def AcceptStat.decode : Decoder AcceptStat :=
  decodeEnum [(0, .success), (1, .progUnavail), (2, .progMismatch), (3, .procUnavail),
    (4, .garbageArgs), (5, .systemErr)]

def AuthFlavor.decode : Decoder AuthFlavor :=
  decodeEnum [(0, .none), (1, .sys), (2, .short), (3, .dh), (6, .rpcSecGss)]

def AuthSysParams.encode (params : AuthSysParams) : Bytes :=
  be32 params.stamp ++ encodeString params.machinename ++ be32 params.uid ++ be32 params.gid ++
    encodeList be32 params.gids

/-- `encode_rpc_call`. -/
def encodeRpcCall (xid prog vers procNum : U32) (cred verf : OpaqueAuth) : Bytes :=
  be32 xid ++ be32 MsgType.call.code ++ be32 rpcVersion ++ be32 prog ++ be32 vers ++ be32 procNum ++
    cred.encode ++ verf.encode

structure RpcAcceptedReply where
  xid : U32
  verf : OpaqueAuth
  acceptStat : AcceptStat
  deriving DecidableEq, Repr

def RpcAcceptedReply.decode : Decoder RpcAcceptedReply := do
  let xid ← decodeU32
  let msgType ← MsgType.decode
  if msgType ≠ .reply then throw (.invalidEnum msgType.code)
  let replyStat ← ReplyStat.decode
  if replyStat ≠ .accepted then throw (.invalidEnum replyStat.code)
  let verf ← OpaqueAuth.decode
  let acceptStat ← AcceptStat.decode
  return ⟨xid, verf, acceptStat⟩

end EmbedNfs

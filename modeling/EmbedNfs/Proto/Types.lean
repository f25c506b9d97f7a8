import Mathlib.Data.BitVec

/-!
# Protocol types

The types of `embednfs-proto` that the state manager works with. Fixed-width integers are
bit vectors of their width. A fixed-size byte array that the server writes as a big-endian
concatenation is one bit vector: a stateid's `other` field is twelve bytes, the allocation
number followed by the client id, and a session id is sixteen bytes, the client id followed
by the client's CREATE_SESSION counter.
-/

namespace EmbedNfs

abbrev U8 := BitVec 8
abbrev U32 := BitVec 32
abbrev U64 := BitVec 64

instance : LawfulBEq U32 := inferInstance
instance : LawfulBEq U64 := inferInstance

/-- `u32::min`. -/
def U32.min (a b : U32) : U32 := if a ≤ b then a else b

/-- An opaque byte string. -/
abbrev Bytes := List U8

abbrev Clientid4 := U64
abbrev Sequenceid4 := U32
abbrev Slotid4 := U32
abbrev Count4 := U32
abbrev Sessionid4 := BitVec 128
abbrev Verifier4 := U64
abbrev StateidOther := BitVec 96

/-- NFSv4.1 status codes. -/
inductive NfsStat4 where
  | ok | perm | noent | io | nxio | access | exist | xdev | notdir | isdir | inval | fbig
  | nospc | rofs | mlink | nametoolong | notempty | dquot | stale | badhandle | badCookie
  | notsupp | toosmall | serverfault | badtype | delay | same | denied | expired | locked
  | grace | fhexpired | shareDenied | wrongSec | clidInuse | moved | nofilehandle
  | minorVersMismatch | staleClientid | staleStateid | oldStateid | badStateid | badSeqid
  | notSame | lockRange | symlink | restorefh | leaseMoved | attrNotsupp | noGrace
  | reclaimBad | reclaimConflict | badXdr | locksHeld | openmode | badOwner | badchar
  | badname | badRange | lockNotsupp | opIllegal | deadlock | fileOpen | adminRevoked
  | cbPathDown | badIomode | badLayout | badSessionDigest | badSession | badSlot
  | completeAlready | connNotBoundToSession | delegAlreadyWanted | backChanBusy
  | layoutTrylater | layoutUnavailable | nomatchingLayout | recallConflict
  | unknownLayouttype | seqMisordered | sequencePos | reqTooBig | repTooBig
  | repTooBigToCache | retryUncachedRep | unsafeCompound | tooManyOps | opNotInSession
  | hashAlgUnsupp | clientidBusy | pnfsIoHole | seqFalseRetry | badHighSlot | deadSession
  | encrAlgUnsupp | pnfsNoLayout | notOnlyOp | wrongCred | wrongType | dirDelegUnavail
  | rejectDeleg | returnConflict | delegRevoked | noXattr | xattr2Big
  deriving DecidableEq, Repr

/-! ## Stateids and owners -/

structure Stateid4 where
  seqid : U32
  other : StateidOther
  deriving DecidableEq, Repr

namespace Stateid4

/-- `Stateid4::ANONYMOUS`. -/
def anonymous : Stateid4 := ⟨0, 0⟩

/-- `Stateid4::CURRENT`. -/
def current : Stateid4 := ⟨1, 0⟩

/-- `Stateid4::BYPASS`. -/
def bypass : Stateid4 := ⟨0xffffffff, BitVec.allOnes 96⟩

end Stateid4

namespace StateidOther

/-- The twelve bytes of a new stateid: allocation number, then client id. -/
def mint (seq : U32) (clientid : Clientid4) : StateidOther := seq ++ clientid

/-- The client id written into a stateid's last eight bytes. -/
def clientid (other : StateidOther) : Clientid4 := other.setWidth 64

@[simp] theorem clientid_mint (seq : U32) (c : Clientid4) : clientid (mint seq c) = c := by
  unfold clientid mint
  rw [BitVec.setWidth_append_eq_right]

end StateidOther

/-- An open owner or a lock owner. -/
structure StateOwner4 where
  clientid : Clientid4
  owner : Bytes
  deriving DecidableEq, Repr

structure ClientOwner4 where
  verifier : Verifier4
  ownerid : Bytes
  deriving DecidableEq, Repr

/-- An RPC credential or verifier. -/
structure OpaqueAuth where
  flavor : U32
  body : Bytes
  deriving DecidableEq, Repr

/-- `OpaqueAuth::null()`. -/
def OpaqueAuth.null : OpaqueAuth := ⟨0, []⟩

inductive NfsLockType4 where
  | readLt | writeLt | readwLt | writewLt
  deriving DecidableEq, Repr

/-- Why a LOCK or LOCKT was denied: the range in the way and its owner. -/
structure LockDenied4 where
  offset : U64
  length : U64
  locktype : NfsLockType4
  owner : StateOwner4
  deriving DecidableEq, Repr

/-! ## Sessions -/

structure ChannelAttrs4 where
  headerpadsize : Count4
  maxrequestsize : Count4
  maxresponsesize : Count4
  maxresponsesizeCached : Count4
  maxoperations : Count4
  maxrequests : Count4
  rdmaIrd : List U32
  deriving DecidableEq, Repr

/-- Callback security parameters. Of AUTH_SYS parameters only the encoded body is kept,
which is all the server uses. -/
inductive CallbackSecParms4 where
  | none
  | sys (body : Bytes)
  | rpcSecGss
  deriving DecidableEq, Repr

inductive StateProtect4A where
  | none
  | machCred
  | ssv
  deriving DecidableEq, Repr

structure ExchangeIdArgs4 where
  clientowner : ClientOwner4
  stateProtect : StateProtect4A
  deriving DecidableEq, Repr

structure ExchangeIdRes4 where
  clientid : Clientid4
  sequenceid : Sequenceid4
  flags : U32
  deriving DecidableEq, Repr

structure CreateSessionArgs4 where
  clientid : Clientid4
  sequence : Sequenceid4
  flags : U32
  foreChanAttrs : ChannelAttrs4
  cbProgram : U32
  secParms : List CallbackSecParms4
  deriving DecidableEq, Repr

structure CreateSessionRes4 where
  sessionid : Sessionid4
  sequenceid : Sequenceid4
  flags : U32
  foreChanAttrs : ChannelAttrs4
  backChanAttrs : ChannelAttrs4
  deriving DecidableEq, Repr

structure BindConnToSessionArgs4 where
  sessionid : Sessionid4
  dir : U32
  deriving DecidableEq, Repr

structure SequenceArgs4 where
  sessionid : Sessionid4
  sequenceid : Sequenceid4
  slotid : Slotid4
  highestSlotid : Slotid4
  cachethis : Bool
  deriving DecidableEq, Repr

structure SequenceRes4 where
  sessionid : Sessionid4
  sequenceid : Sequenceid4
  slotid : Slotid4
  highestSlotid : Slotid4
  targetHighestSlotid : Slotid4
  statusFlags : U32
  deriving DecidableEq, Repr

structure SetClientIdArgs4 where
  client : ClientOwner4
  deriving DecidableEq, Repr

structure SetClientIdRes4 where
  clientid : Clientid4
  setclientidConfirm : Verifier4
  deriving DecidableEq, Repr

structure SetClientIdConfirmArgs4 where
  clientid : Clientid4
  verifier : Verifier4
  deriving DecidableEq, Repr

/-- How an OPEN names its file. -/
inductive OpenClaim4 where
  | null (file : String)
  | previous (delegateType : U32)
  | delegateCur (delegateStateid : Stateid4) (file : String)
  | delegatePrev (file : String)
  | fh
  | delegCurFh (delegateStateid : Stateid4)
  | delegPrevFh
  deriving DecidableEq, Repr

/-! ## Constants -/

def open4ShareAccessRead : U32 := 1
def open4ShareAccessWrite : U32 := 2
def open4ShareAccessBoth : U32 := 3
def open4ShareAccessWantDelegMask : U32 := 0xff00
def open4ShareDenyNone : U32 := 0
def open4ShareDenyRead : U32 := 1
def open4ShareDenyWrite : U32 := 2
def open4ShareDenyBoth : U32 := 3

def exchgid4FlagUseNonPnfs : U32 := 0x00010000
def exchgid4FlagConfirmedR : U32 := 0x80000000

def createSession4FlagConnBackChan : U32 := 2

def cdfc4Fore : U32 := 1
def cdfc4Back : U32 := 2
def cdfc4ForeOrBoth : U32 := 3
def cdfc4BackOrBoth : U32 := 7
def cdfs4Fore : U32 := 1
def cdfs4Back : U32 := 2
def cdfs4Both : U32 := 3

def seq4StatusExpiredAllStateRevoked : U32 := 0x8
def seq4StatusRecallableStateRevoked : U32 := 0x40

end EmbedNfs

import EmbedNfs.Lib.Table
import EmbedNfs.Proto.Types

/-!
# The state manager's data

`session/model.rs` and the record of `session/mod.rs`. Hash maps are `Table`s, hash sets are
lists without an order that matters, and instants are natural numbers on the monotonic
clock. `StateInner` is what the `inner` lock guards; the filehandle maps, the retired set
and the counters beside it are reached without that lock.
-/

namespace EmbedNfs

/-- A point on the monotonic clock, in nanoseconds. -/
abbrev Instant := Nat

abbrev ObjectId := U64

/-- The server's identity for a file, an attribute directory or a named attribute. -/
inductive ServerObject where
  | fs (id : ObjectId)
  | namedAttrDir (id : ObjectId)
  | namedAttrFile (parent : ObjectId) (name : String)
  deriving DecidableEq, Repr

/-- The backend object an object is, or hangs off. -/
def ServerObject.root : ServerObject → ObjectId
  | .fs id => id
  | .namedAttrDir id => id
  | .namedAttrFile parent _ => parent

/-! ## Opens, locks and delegations -/

structure OpenFileState where
  object : ServerObject
  clientid : Clientid4
  /-- The open owner's opaque name; with `clientid` and `object` it keys the open. -/
  owner : Bytes
  stateidSeq : U32
  active : Bool
  shareAccess : U32
  shareDeny : U32
  deriving DecidableEq, Repr

structure LockRange where
  locktype : NfsLockType4
  offset : U64
  length : U64
  deriving DecidableEq, Repr

structure LockFileState where
  object : ServerObject
  owner : StateOwner4
  openStateOther : StateidOther
  ranges : List LockRange
  active : Bool
  stateidSeq : U32
  deriving DecidableEq, Repr

structure ResolvedOpenState where
  other : StateidOther
  object : ServerObject
  shareAccess : U32
  deriving DecidableEq, Repr

structure ResolvedLockState where
  other : StateidOther
  object : ServerObject
  owner : StateOwner4
  openState : ResolvedOpenState
  deriving DecidableEq, Repr

inductive ResolvedStateid where
  | anonymous
  | bypass
  | opened (state : ResolvedOpenState)
  | locked (state : ResolvedLockState)
  deriving DecidableEq, Repr

inductive DelegationKind where
  | directoryRead
  deriving DecidableEq, Repr

/-- Whether a delegation of this kind conveys write authority over file contents. -/
def DelegationKind.conveysWrite : DelegationKind → Bool
  | .directoryRead => false

inductive DelegationStatus where
  | granted
  | recallInProgress
  | returned
  | revoked
  deriving DecidableEq, Repr

structure DelegationState where
  object : ServerObject
  clientid : Clientid4
  sessionid : Option Sessionid4
  stateidSeq : U32
  kind : DelegationKind
  status : DelegationStatus
  grantedAt : Instant
  lastRecallAt : Option Instant
  deriving DecidableEq, Repr

inductive DirectoryDelegationGrant where
  | granted (stateid : Stateid4)
  | alreadyHeld
  | unavailable
  deriving DecidableEq, Repr

structure DirectoryDelegationRecall where
  stateid : Stateid4
  clientid : Clientid4
  sendCallback : Bool
  deriving DecidableEq, Repr

/-! ## Clients and sessions -/

inductive ClientLeaseState where
  | active (deadline : Instant)
  | revoked (since : Instant) (statusFlags : U32)
  deriving DecidableEq, Repr

/-- Whether the lease is `ClientLeaseState::Active`. -/
def ClientLeaseState.isActive : ClientLeaseState → Bool
  | .active _ => true
  | .revoked _ _ => false

structure ClientState where
  clientid : Clientid4
  owner : ClientOwner4
  confirmed : Bool
  reclaimCompleteGlobal : Bool
  sequenceId : Sequenceid4
  statusFlags : U32
  replacedClientid : Option Clientid4
  leaseState : ClientLeaseState
  v40Confirm : Option Verifier4
  deriving DecidableEq, Repr

structure BackchannelState where
  cbProgram : U32
  auth : OpaqueAuth
  nextSequenceid : Sequenceid4
  highestSlotid : Slotid4
  deriving DecidableEq, Repr

structure CallbackTarget where
  sessionid : Sessionid4
  connectionId : U64
  cbProgram : U32
  auth : OpaqueAuth
  sequenceid : Sequenceid4
  highestSlotid : Slotid4
  deriving DecidableEq, Repr

structure CachedReplay where
  fingerprint : Bytes
  response : Bytes
  deriving DecidableEq, Repr

structure SlotState where
  sequenceId : Sequenceid4
  inProgress : Option Bytes
  cachedReply : Option CachedReplay
  deriving DecidableEq, Repr

structure SessionState where
  clientid : Clientid4
  slots : List SlotState
  foreConnections : List U64
  backConnections : List U64
  backchannel : Option BackchannelState
  deriving DecidableEq, Repr

structure SequenceCacheToken where
  sessionid : Sessionid4
  slotid : Slotid4
  fingerprint : Bytes
  deriving DecidableEq, Repr

/-- How `prepare_sequence` classifies a request. -/
inductive SequenceReplay where
  | execute (res : SequenceRes4) (token : SequenceCacheToken)
  | replay (response : Bytes)
  | statusOnly (res : SequenceRes4)
  | error (status : NfsStat4)
  deriving DecidableEq, Repr

/-! ## The tables -/

/-- Server-owned metadata tracked for each visible object. -/
structure SynthMeta where
  fileid : U64
  mode : U32
  nlink : U32
  uid : U32
  gid : U32
  owner : String
  ownerGroup : String
  atimeSec : BitVec 64
  atimeNsec : U32
  mtimeSec : BitVec 64
  mtimeNsec : U32
  ctimeSec : BitVec 64
  ctimeNsec : U32
  crtimeSec : BitVec 64
  crtimeNsec : U32
  changeId : U64
  archive : Bool
  hidden : Bool
  system : Bool
  namedAttrCount : Option U64
  deriving DecidableEq, Repr

/-- The state behind the `inner` lock. -/
structure StateInner where
  clients : Table Clientid4 ClientState
  sessions : Table Sessionid4 SessionState
  openFiles : Table StateidOther OpenFileState
  lockFiles : Table StateidOther LockFileState
  delegations : Table StateidOther DelegationState
  dirDelegations : Table ServerObject (List StateidOther)
  clientDelegations : Table Clientid4 (List StateidOther)
  metadata : Table ServerObject SynthMeta

/-- `StateManager`, with the readings of the monotonic clock and of the wall clock that the
next section will see. -/
structure StateManager where
  inner : StateInner
  fhToObject : Table Bytes ServerObject
  objectToFh : Table ServerObject Bytes
  persistentFh : Table ObjectId Bytes
  retiredObjects : List ObjectId
  nextFh : U64
  fhBootNonce : Bytes
  nextClientid : U64
  nextStateid : U32
  nextChangeid : U64
  nextSynthFileid : U64
  nextConnectionid : U64
  writeVerifier : Verifier4
  clock : Instant
  wallSec : BitVec 64
  wallNsec : U32
  /-- The hash by which the concurrent map `fh_to_object` picks a shard. -/
  fhHash : Bytes → Nat
  /-- The number of shards of `fh_to_object`, less one. -/
  fhShardMask : Nat

def maxForeChanSlots : U32 := 64
def maxRequestSize : U32 := 1049620
def maxCachedResponse : U32 := 6144
def synthFileidBase : U64 := 1#64 <<< 63

/-- `StateConfig::lease_duration`, ninety seconds. -/
def leaseDuration : Nat := 90 * 1000000000

/-- `StateConfig::revoked_retention`. -/
def revokedRetention : Nat := leaseDuration

/-! ## Boot -/

/-- `FH_NONCE_LEN`. -/
def fhNonceLen : Nat := 8

/-- `FH_LEN`. -/
def fhLen : Nat := fhNonceLen + 8

/-- `PERSISTENT_FH_TAG`. -/
def persistentFhTag : U8 := 0xa5

/-- `new_fh_boot_nonce`, from the eight bytes that the random source or the boot clock
supplies. -/
def newFhBootNonce (random : Fin 8 → U8) : Bytes :=
  match List.ofFn random with
  | first :: rest => (if first = persistentFhTag then first ^^^ 1 else first) :: rest
  | [] => []

/-- What a boot takes from its surroundings: eight bytes for the filehandle nonce, the write
verifier, the clocks, and the layout of the concurrent filehandle map. -/
structure Boot where
  random : Fin 8 → U8
  writeVerifier : Verifier4
  clock : Instant
  wallSec : BitVec 64
  wallNsec : U32
  fhHash : Bytes → Nat
  fhShardMask : Nat

/-- `StateManager::new`. -/
def StateManager.new (boot : Boot) : StateManager where
  inner :=
    { clients := .empty, sessions := .empty, openFiles := .empty, lockFiles := .empty,
      delegations := .empty, dirDelegations := .empty, clientDelegations := .empty,
      metadata := .empty }
  fhToObject := .empty
  objectToFh := .empty
  persistentFh := .empty
  retiredObjects := []
  nextFh := 1
  fhBootNonce := newFhBootNonce boot.random
  nextClientid := 1
  nextStateid := 1
  nextChangeid := 2
  nextSynthFileid := synthFileidBase
  nextConnectionid := 1
  writeVerifier := boot.writeVerifier
  clock := boot.clock
  wallSec := boot.wallSec
  wallNsec := boot.wallNsec
  fhHash := boot.fhHash
  fhShardMask := boot.fhShardMask

end EmbedNfs

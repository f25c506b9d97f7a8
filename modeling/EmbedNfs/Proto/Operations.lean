import EmbedNfs.Attrs

/-!
# Operations of a COMPOUND

Arguments and results of the operations the model executes. Sequence numbers of NFSv4.0
open and lock owners, which the server does not look at, are left out of the arguments.
-/

namespace EmbedNfs

/-! ## Arguments -/

inductive Createtype4 where
  | reg
  | link (target : String)
  | blk
  | chr
  | sock
  | fifo
  | dir
  | unsupported (objtype : U32)
  deriving DecidableEq, Repr

structure CreateArgs4 where
  objtype : Createtype4
  objname : String
  createattrs : Fattr4
  deriving DecidableEq, Repr

inductive Createhow4 where
  | unchecked (attrs : Fattr4)
  | guarded (attrs : Fattr4)
  | exclusive (verifier : Verifier4)
  | exclusive41 (verifier : Verifier4) (attrs : Fattr4)
  deriving DecidableEq, Repr

inductive Openflag4 where
  | noCreate
  | create (how : Createhow4)
  deriving DecidableEq, Repr

structure OpenArgs4 where
  shareAccess : U32
  shareDeny : U32
  owner : StateOwner4
  openhow : Openflag4
  claim : OpenClaim4
  deriving DecidableEq, Repr

structure ReadArgs4 where
  stateid : Stateid4
  offset : U64
  count : U32
  deriving DecidableEq, Repr

structure WriteArgs4 where
  stateid : Stateid4
  offset : U64
  stable : U32
  data : Bytes
  deriving DecidableEq, Repr

structure RenameArgs4 where
  oldname : String
  newname : String
  deriving DecidableEq, Repr

structure OpenDowngradeArgs4 where
  openStateid : Stateid4
  shareAccess : U32
  shareDeny : U32
  deriving DecidableEq, Repr

structure SetattrArgs4 where
  stateid : Stateid4
  objAttributes : Fattr4
  deriving DecidableEq, Repr

/-- Who asks for a lock: a new lock owner under an open, or the owner of a lock stateid. -/
inductive Locker4 where
  | newLockOwner (openStateid : Stateid4) (lockOwner : StateOwner4)
  | existingLockOwner (lockStateid : Stateid4)
  deriving DecidableEq, Repr

structure LockArgs4 where
  locktype : NfsLockType4
  offset : U64
  length : U64
  locker : Locker4
  deriving DecidableEq, Repr

structure LocktArgs4 where
  locktype : NfsLockType4
  offset : U64
  length : U64
  owner : StateOwner4
  deriving DecidableEq, Repr

structure LockuArgs4 where
  lockStateid : Stateid4
  offset : U64
  length : U64
  deriving DecidableEq, Repr

structure ReaddirArgs4 where
  cookie : U64
  cookieverf : Verifier4
  dircount : U32
  maxcount : U32
  attrRequest : Bitmap4
  deriving DecidableEq, Repr

inductive NfsArgop4 where
  | close (openStateid : Stateid4)
  | create (args : CreateArgs4)
  | getfh
  | link (newname : String)
  | lookup (objname : String)
  | «open» (args : OpenArgs4)
  | putfh (object : Bytes)
  | putrootfh
  | read (args : ReadArgs4)
  | remove (target : String)
  | rename (args : RenameArgs4)
  | restorefh
  | savefh
  | setattr (args : SetattrArgs4)
  | write (args : WriteArgs4)
  | exchangeId (args : ExchangeIdArgs4)
  | createSession (args : CreateSessionArgs4)
  | destroySession (sessionid : Sessionid4)
  | sequence (args : SequenceArgs4)
  | reclaimComplete (oneFs : Bool)
  | destroyClientid (clientid : Clientid4)
  | bindConnToSession (args : BindConnToSessionArgs4)
  | freeStateid (stateid : Stateid4)
  | testStateid (stateids : List Stateid4)
  | delegReturn (stateid : Stateid4)
  | openConfirm (openStateid : Stateid4)
  | renew (clientid : Clientid4)
  | setClientId (args : SetClientIdArgs4)
  | setClientIdConfirm (args : SetClientIdConfirmArgs4)
  | lock (args : LockArgs4)
  | lockt (args : LocktArgs4)
  | locku (args : LockuArgs4)
  | openAttr
  | delegPurge
  | openDowngrade (args : OpenDowngradeArgs4)
  | getDirDelegation
  | readdir (args : ReaddirArgs4)
  | illegal
  deriving DecidableEq, Repr

/-! ## Results -/

structure Entry4 where
  cookie : U64
  name : String
  attrs : Fattr4
  deriving DecidableEq, Repr

structure ReaddirRes4 where
  cookieverf : Verifier4
  entries : List Entry4
  eof : Bool
  deriving DecidableEq, Repr

structure ChangeInfo4 where
  atomic : Bool
  before : U64
  after : U64
  deriving DecidableEq, Repr

inductive WhyNoDelegation4 where
  | notWanted
  | notSuppFtype
  | cancelled
  deriving DecidableEq, Repr

inductive OpenDelegation4 where
  | none
  | noneExt (why : WhyNoDelegation4)
  deriving DecidableEq, Repr

structure OpenRes4 where
  stateid : Stateid4
  cinfo : ChangeInfo4
  rflags : U32
  delegation : OpenDelegation4
  deriving DecidableEq, Repr

structure WriteRes4 where
  count : U32
  committed : U32
  writeverf : Verifier4
  deriving DecidableEq, Repr

inductive GetDirDelegationRes4 where
  | ok (cookieverf : U64) (stateid : Stateid4)
  | unavail
  deriving DecidableEq, Repr

inductive NfsResop4 where
  | close (status : NfsStat4) (stateid : Stateid4)
  | create (status : NfsStat4) (cinfo : Option ChangeInfo4)
  | getfh (status : NfsStat4) (fh : Option Bytes)
  | link (status : NfsStat4) (cinfo : Option ChangeInfo4)
  | lookup (status : NfsStat4)
  | «open» (status : NfsStat4) (res : Option OpenRes4)
  | putfh (status : NfsStat4)
  | putrootfh (status : NfsStat4)
  | read (status : NfsStat4) (res : Option ReadResult)
  | remove (status : NfsStat4) (cinfo : Option ChangeInfo4)
  | rename (status : NfsStat4) (source target : Option ChangeInfo4)
  | restorefh (status : NfsStat4)
  | savefh (status : NfsStat4)
  | setattr (status : NfsStat4) (attrsset : Bitmap4)
  | write (status : NfsStat4) (res : Option WriteRes4)
  | exchangeId (status : NfsStat4) (res : Option ExchangeIdRes4)
  | createSession (status : NfsStat4) (res : Option CreateSessionRes4)
  | destroySession (status : NfsStat4)
  | sequence (status : NfsStat4) (res : Option SequenceRes4)
  | reclaimComplete (status : NfsStat4)
  | destroyClientid (status : NfsStat4)
  | bindConnToSession (status : NfsStat4) (dir : Option U32)
  | freeStateid (status : NfsStat4)
  | testStateid (status : NfsStat4) (results : List NfsStat4)
  | delegReturn (status : NfsStat4)
  | openConfirm (status : NfsStat4) (stateid : Option Stateid4)
  | renew (status : NfsStat4)
  | setClientId (status : NfsStat4) (res : Option SetClientIdRes4)
  | setClientIdConfirm (status : NfsStat4)
  | lock (status : NfsStat4) (stateid : Option Stateid4) (denied : Option LockDenied4)
  | lockt (status : NfsStat4) (denied : Option LockDenied4)
  | locku (status : NfsStat4) (stateid : Option Stateid4)
  | openAttr (status : NfsStat4)
  | delegPurge (status : NfsStat4)
  | openDowngrade (status : NfsStat4) (stateid : Option Stateid4)
  | getDirDelegation (status : NfsStat4) (res : Option GetDirDelegationRes4)
  | readdir (status : NfsStat4) (res : Option ReaddirRes4)
  | illegal (status : NfsStat4)
  deriving DecidableEq, Repr

/-- `res_status`. -/
def NfsResop4.status : NfsResop4 → NfsStat4
  | .close status _ | .create status _ | .getfh status _ | .link status _ | .lookup status
  | .open status _ | .putfh status | .putrootfh status | .read status _ | .remove status _
  | .rename status _ _ | .restorefh status | .savefh status | .setattr status _
  | .write status _ | .exchangeId status _ | .createSession status _ | .destroySession status
  | .sequence status _ | .reclaimComplete status | .destroyClientid status
  | .bindConnToSession status _ | .freeStateid status | .testStateid status _
  | .delegReturn status | .openConfirm status _ | .renew status | .setClientId status _
  | .setClientIdConfirm status | .lock status _ _ | .lockt status _ | .locku status _
  | .openAttr status | .delegPurge status | .openDowngrade status _
  | .getDirDelegation status _ | .readdir status _ | .illegal status => status

/-! ## Constants -/

def open4ShareAccessWantReadDeleg : U32 := 0x0100
def open4ShareAccessWantWriteDeleg : U32 := 0x0200
def open4ShareAccessWantAnyDeleg : U32 := 0x0300
def open4ShareAccessWantNoDeleg : U32 := 0x0400
def open4ShareAccessWantCancel : U32 := 0x0500
def open4ShareAccessWantNoPreference : U32 := 0x0000
def open4ShareAccessWantSignalDelegWhenResrcAvail : U32 := 0x10000
def open4ShareAccessWantPushDelegWhenUncontended : U32 := 0x20000

def open4ResultConfirm : U32 := 2
def open4ResultLocktypePosix : U32 := 4

def unstable4 : U32 := 0
def dataSync4 : U32 := 1
def fileSync4 : U32 := 2

end EmbedNfs

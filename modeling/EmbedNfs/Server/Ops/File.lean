import EmbedNfs.Server.FileAttrs
import EmbedNfs.Server.Recall

/-!
# OPEN, CLOSE, OPEN_DOWNGRADE, READ and WRITE

`server/ops/file.rs`. OPEN is cut where the source branches: finding or creating the file in
a directory, finding or creating a named attribute, and what follows once the object is
known.
-/

namespace EmbedNfs

variable {H : Type}

/-! ## Checks -/

/-- `share_access_mode`. -/
def shareAccessMode (shareAccess : U32) : U32 := shareAccess &&& ~~~open4ShareAccessWantDelegMask

/-- `validate_open_share`. -/
def validateOpenShare (shareAccess shareDeny minorversion : U32) : Except NfsStat4 Unit :=
  let extra := shareAccess &&& ~~~open4ShareAccessBoth
  let signalFlags := open4ShareAccessWantSignalDelegWhenResrcAvail |||
    open4ShareAccessWantPushDelegWhenUncontended
  if shareAccess &&& open4ShareAccessBoth = 0 then .error .inval
  else if shareDeny &&& ~~~open4ShareDenyBoth ≠ 0 then .error .inval
  else if extra = 0 then .ok ()
  else if minorversion = 0 then .error .inval
  else if extra &&& ~~~(open4ShareAccessWantDelegMask ||| signalFlags) ≠ 0 then .error .inval
  else if extra &&& open4ShareAccessWantDelegMask ∈
      [open4ShareAccessWantNoPreference, open4ShareAccessWantReadDeleg,
        open4ShareAccessWantWriteDeleg, open4ShareAccessWantAnyDeleg,
        open4ShareAccessWantNoDeleg, open4ShareAccessWantCancel] then .ok ()
  else .error .inval

/-- `requested_write_stability`. -/
def requestedWriteStability (stable : U32) : Except NfsStat4 WriteStability :=
  if stable = unstable4 then .ok .unstable
  else if stable = dataSync4 then .ok .dataSync
  else if stable = fileSync4 then .ok .fileSync
  else .error .inval

/-- The rank by which `stability_at_least` compares. -/
def WriteStability.rank : WriteStability → Nat
  | .unstable => 0
  | .dataSync => 1
  | .fileSync => 2

/-- `committed_how`. -/
def WriteStability.committedHow : WriteStability → U32
  | .unstable => unstable4
  | .dataSync => dataSync4
  | .fileSync => fileSync4

/-! ## I/O stateids -/

/-- `resolve_io_stateid`. -/
def resolveIoStateid (object : ServerObject) (stateid : Stateid4)
    (currentStateid : Option Stateid4) (clientid : Option Clientid4) :
    Request H (Except NfsStat4 ResolvedStateid) :=
  Request.andThen (resolveStateidOp clientid stateid currentStateid .zeroSeqid) fun resolved =>
    match resolved with
    | .opened opened => return if opened.object ≠ object then .error .badStateid else .ok resolved
    | .locked lock => return if lock.object ≠ object then .error .badStateid else .ok resolved
    | .anonymous => return .ok resolved
    | .bypass => return .ok resolved

/-- What the conflict checks of an I/O leave out: the request's own open, lock owner and
lock. A write through an open without write access is refused here. -/
def ioExemptions (isWrite : Bool) (resolved : ResolvedStateid) :
    Except NfsStat4 (Option StateidOther × Option StateOwner4 × Option StateidOther) :=
  let lacksWrite (shareAccess : U32) : Bool :=
    isWrite ∧ shareAccessMode shareAccess &&& open4ShareAccessWrite = 0
  match resolved with
  | .anonymous => .ok (none, none, none)
  | .bypass => .ok (none, none, none)
  | .opened opened =>
    if lacksWrite opened.shareAccess then .error .openmode
    else .ok (some opened.other, none, none)
  | .locked lock =>
    if lacksWrite lock.openState.shareAccess then .error .openmode
    else .ok (some lock.openState.other, some lock.owner, some lock.other)

/-- `validate_io_stateid`. -/
def validateIoStateid (object : ServerObject) (stateid : Stateid4)
    (currentStateid : Option Stateid4) (clientid : Option Clientid4) (isWrite : Bool)
    (offset length : U64) : Request H (Except NfsStat4 Unit) :=
  Request.andThen (resolveIoStateid object stateid currentStateid clientid) fun resolved => do
    let access := if isWrite then open4ShareAccessWrite else open4ShareAccessRead
    match ioExemptions isWrite resolved with
    | .error status => return .error status
    | .ok (ignoreOpen, lockOwner, ignoreLock) =>
      if ← reapThen (.hasConflictingShareDeny object access ignoreOpen) then
        return .error .locked
      if ← reapThen
          (.hasConflictingIoLock object lockOwner isWrite offset length ignoreLock) then
        return .error .locked
      return .ok ()

/-- The check on the parent's extended-attribute rights before a named attribute is read or
written. -/
def namedAttrGate (ctx : OpContext) (object : ServerObject) (need : AccessMask) :
    Request H (Except NfsStat4 Unit) :=
  match object with
  | .namedAttrFile parent _ => requireAccess ctx.request parent need
  | .fs _ | .namedAttrDir _ => return .ok ()

/-! ## CLOSE and OPEN_DOWNGRADE -/

/-- The notification of an `OpenLifecycle` backend; its failure is not surfaced. -/
def notifyLifecycle (backend : Backend H) (ctx : OpContext) (object : ServerObject)
    (event : H → BackendCall H) : Request H Unit := do
  if backend.openLifecycle then
    if let .fs id := object then
      if let .ok handle ← resolveBackendHandle id then
        discard <| askBackend ctx.request (event handle)

/-- The notification that follows the CLOSE of the last writer. -/
def notifyClose (backend : Backend H) (ctx : OpContext) (object : ServerObject)
    (outcome : CloseOutcome) : Request H Unit :=
  if outcome.lastWriter then
    notifyLifecycle backend ctx object fun handle => .onClose handle true
  else return ()

/-- `op_close`. -/
def opClose (backend : Backend H) (ctx : OpContext) (openStateid : Stateid4)
    (currentFh : Option Bytes) (currentStateid : Option Stateid4) : Request H NfsResop4 := do
  let object ← match ← resolveObject backend currentFh with
    | .ok (_, object) => pure object
    | .error status => return .close status .anonymous
  let stateid ← match concreteStateid openStateid currentStateid .preserveSeqid with
    | .ok stateid => pure stateid
    | .error status => return .close status .anonymous
  match ← resolveStateidOp ctx.sequenceClientid stateid none .preserveSeqid with
  | .ok (.opened opened) => if opened.object ≠ object then return .close .badStateid .anonymous
  | .ok _ => return .close .badStateid .anonymous
  | .error status => return .close status .anonymous
  match ← reapThen (.closeState stateid) with
  | .ok outcome =>
    notifyClose backend ctx object outcome
    return .close .ok outcome.stateid
  | .error status => return .close status .anonymous

/-- `op_open_downgrade`. -/
def opOpenDowngrade (ctx : OpContext) (args : OpenDowngradeArgs4)
    (currentStateid : Option Stateid4) : Request H NfsResop4 := do
  let stateid ← match concreteStateid args.openStateid currentStateid .preserveSeqid with
    | .ok stateid => pure stateid
    | .error status => return .openDowngrade status none
  match ← resolveStateidOp ctx.sequenceClientid stateid none .preserveSeqid with
  | .ok (.opened _) => pure ()
  | .ok _ => return .openDowngrade .badStateid none
  | .error status => return .openDowngrade status none
  match ← reapThen (.openDowngrade stateid args.shareAccess args.shareDeny) with
  | .ok stateid => return .openDowngrade .ok (some stateid)
  | .error status => return .openDowngrade status none

/-! ## OPEN -/

/-- The access an OPEN of a named attribute needs on its parent. -/
def xattrNeed (args : OpenArgs4) : AccessMask :=
  let mode := shareAccessMode args.shareAccess
  let readNeed := if mode &&& open4ShareAccessRead ≠ 0 then AccessMask.xattrRead else 0
  let writeNeed := if mode &&& open4ShareAccessWrite ≠ 0 then AccessMask.xattrWrite else 0
  let createNeed :=
    match args.openhow with
    | .create _ => AccessMask.xattrWrite
    | .noCreate => 0
  readNeed ||| writeNeed ||| createNeed

/-- The access an OPEN of an existing regular file needs. -/
def fileNeed (args : OpenArgs4) : AccessMask :=
  let mode := shareAccessMode args.shareAccess
  let readNeed := if mode &&& open4ShareAccessRead ≠ 0 then AccessMask.read else 0
  let writeNeed :=
    if mode &&& open4ShareAccessWrite ≠ 0 then AccessMask.modify ||| AccessMask.extend else 0
  readNeed ||| writeNeed

/-- The object whose extended attributes an OPEN reaches, if it reaches any. -/
def xattrParent (container : ServerObject) (claim : OpenClaim4) : Option ObjectId :=
  match container, claim with
  | .namedAttrDir parent, .null _ => some parent
  | .namedAttrFile parent _, _ => some parent
  | _, _ => none

/-- The check on the parent's extended-attribute rights before an OPEN reaches them. -/
def openXattrGate (ctx : OpContext) (args : OpenArgs4) (container : ServerObject) :
    Request H (Except NfsStat4 Unit) :=
  match xattrParent container args.claim with
  | some parent =>
    if xattrNeed args = 0 then return .ok ()
    else requireAccess ctx.request parent (xattrNeed args)
  | none => return .ok ()

/-- The initial attributes a creating OPEN carries. -/
def Createhow4.setAttrs : Createhow4 → Except NfsStat4 SetAttrs
  | .unchecked attrs => decodeSetattr attrs
  | .guarded attrs => decodeSetattr attrs
  | .exclusive41 _ attrs => decodeSetattr attrs
  | .exclusive _ => .ok {}

/-- The object an OPEN arrived at, with the container's change number from before the
creation if the OPEN created it. -/
structure OpenTarget where
  object : ServerObject
  createdBefore : Option U64

/-- OPEN by name in a directory. -/
def openInDirectory (backend : Backend H) (config : DelegationConfig) (ctx : OpContext)
    (args : OpenArgs4) (dirId : ObjectId) (name : String)
    (beforeAttr : Except FsError ServerFileAttr) : Request H (Except NfsStat4 OpenTarget) := do
  if let .error status := validateComponentName backend name then return .error status
  match ← kindOf ctx.request dirId with
  | .ok kind => if kind ≠ .directory then return .error .notdir
  | .error e => return .error e.toNfsstat4
  match ← lookup ctx.request dirId name with
  | .ok id =>
    match args.openhow with
    | .create how =>
      return if how.requiresNonexistence then .error .exist else .ok ⟨.fs id, none⟩
    | .noCreate => return .ok ⟨.fs id, none⟩
  | .error .notFound =>
    match args.openhow with
    | .noCreate => return .error .noent
    | .create how =>
      let beforeChange ← match beforeAttr with
        | .ok attr => pure attr.changeId
        | .error e => return .error e.toNfsstat4
      let setAttrs ← match how.setAttrs with
        | .ok attrs => pure attrs
        | .error status => return .error status
      recallDirectoryDelegations config (.fs dirId) ctx.sequenceClientid
      match ← createObject ctx.request ctx.sequenceClientid dirId name .file setAttrs with
      | .ok id => return .ok ⟨.fs id, some beforeChange⟩
      | .error e => return .error e.toNfsstat4
  | .error e => return .error e.toNfsstat4

/-- OPEN by name in an attribute directory. -/
def openNamedAttr (backend : Backend H) (config : DelegationConfig) (ctx : OpContext)
    (args : OpenArgs4) (parent : ObjectId) (name : String)
    (beforeAttr : Except FsError ServerFileAttr) : Request H (Except NfsStat4 OpenTarget) := do
  let object := ServerObject.namedAttrFile parent name
  if !backend.xattrs then return .error .notsupp
  let handle ← match ← resolveBackendHandle parent with
    | .ok handle => pure handle
    | .error e => return .error e.toNfsstat4
  match ← askBackend ctx.request (.getXattr handle name) with
  | .ok _ =>
    match args.openhow with
    | .create how =>
      return if how.requiresNonexistence then .error .exist else .ok ⟨object, none⟩
    | .noCreate => return .ok ⟨object, none⟩
  | .error .notFound =>
    match args.openhow with
    | .noCreate => return .error .noent
    | .create how =>
      let beforeChange ← match beforeAttr with
        | .ok attr => pure attr.changeId
        | .error e => return .error e.toNfsstat4
      let setAttrs ← match how.setAttrs with
        | .ok attrs => pure attrs
        | .error status => return .error status
      recallDirectoryDelegations config (.namedAttrDir parent) ctx.sequenceClientid
      let initial := List.replicate (setAttrs.size.map BitVec.toNat |>.getD 0) 0
      match ← Program.perform (Call.backend ctx.request ctx.sequenceClientid
          [.namedAttrDir parent] (.setXattr handle name initial how.openSetMode)) with
      | .error e => return .error e.toNfsstat4
      | .ok () =>
        discard <| refreshXattrSummary backend ctx.request parent
        guarded (.applySetattr object .namedAttr setAttrs)
        guarded (.touchMetadata (.namedAttrDir parent) .namedAttrDir)
        discard <| getattr ctx.request parent
        return .ok ⟨object, some beforeChange⟩
  | .error e => return .error e.toNfsstat4

/-- The object an OPEN names, by its claim. -/
def openTarget (backend : Backend H) (config : DelegationConfig) (ctx : OpContext)
    (args : OpenArgs4) (container : ServerObject)
    (beforeAttr : Except FsError ServerFileAttr) : Request H (Except NfsStat4 OpenTarget) :=
  match args.claim with
  | .fh | .previous _ | .delegCurFh _ | .delegPrevFh => return .ok ⟨container, none⟩
  | .null name =>
    match container with
    | .fs dirId => openInDirectory backend config ctx args dirId name beforeAttr
    | .namedAttrDir parent => openNamedAttr backend config ctx args parent name beforeAttr
    | .namedAttrFile _ _ => return .error .notsupp
  | .delegateCur _ _ | .delegatePrev _ => return .error .notsupp

/-- The permission check of an OPEN that created nothing. -/
def openAccessCheck (ctx : OpContext) (args : OpenArgs4) (target : OpenTarget) :
    Request H (Except NfsStat4 Unit) :=
  match target.createdBefore, target.object with
  | none, .fs id =>
    if fileNeed args = 0 then return .ok () else requireAccess ctx.request id (fileNeed args)
  | _, _ => return .ok ()

/-- `open_no_delegation`. -/
def openNoDelegation (shareAccess : U32) : OpenDelegation4 :=
  if shareAccess &&& ~~~open4ShareAccessBoth = 0 then .none
  else if shareAccess &&& open4ShareAccessWantDelegMask = open4ShareAccessWantNoDeleg then
    .noneExt .notWanted
  else if shareAccess &&& open4ShareAccessWantDelegMask = open4ShareAccessWantCancel then
    .noneExt .cancelled
  else .noneExt .notSuppFtype

/-- The change info of a successful OPEN. -/
def openChangeInfo (backend : Backend H) (ctx : OpContext) (container : ServerObject)
    (beforeAttr : Except FsError ServerFileAttr) (target : OpenTarget) :
    Request H (Except NfsStat4 ChangeInfo4) :=
  match target.createdBefore, beforeAttr with
  | some beforeChange, _ => do
    let cinfo ← mutationChangeInfo backend ctx.request container beforeChange
    return .ok cinfo
  | none, .ok attr => return .ok ⟨true, attr.changeId, attr.changeId⟩
  | none, .error e => return .error e.toNfsstat4

/-- The notification that follows an OPEN for writing. -/
def notifyOpen (backend : Backend H) (ctx : OpContext) (args : OpenArgs4)
    (object : ServerObject) : Request H Unit :=
  if shareAccessMode args.shareAccess &&& open4ShareAccessWrite = 0 then return ()
  else notifyLifecycle backend ctx object fun handle => .onOpen handle true

/-- The result flags of OPEN: NFSv4.0 clients are told to confirm. -/
def openResultFlags (minorversion : U32) : U32 :=
  if minorversion = 0 then open4ResultLocktypePosix ||| open4ResultConfirm
  else open4ResultLocktypePosix

/-- The end of `op_open`: install the open and answer, with the new current filehandle. -/
def finishOpen (backend : Backend H) (ctx : OpContext) (args : OpenArgs4)
    (minorversion : U32) (container : ServerObject) (beforeAttr : Except FsError ServerFileAttr)
    (currentFh : Option Bytes) (target : OpenTarget) : Request H (NfsResop4 × Option Bytes) := do
  let stateid ← match ← reapThen
      (.createOpenState target.object args.owner args.shareAccess args.shareDeny) with
    | .ok stateid => pure stateid
    | .error status => return (.open status none, currentFh)
  let openFh ← match ← objectToFh target.object with
    | some fh => pure fh
    | none => return (.open .stale none, currentFh)
  let cinfo ← match ← openChangeInfo backend ctx container beforeAttr target with
    | .ok cinfo => pure cinfo
    | .error status => return (.open status none, some openFh)
  notifyOpen backend ctx args target.object
  let res : OpenRes4 :=
    { stateid, cinfo, rflags := openResultFlags minorversion
      delegation := openNoDelegation args.shareAccess }
  return (.open .ok (some res), some openFh)

/-- `op_open`, with the new current filehandle. -/
def opOpen (backend : Backend H) (config : DelegationConfig) (ctx : OpContext) (args : OpenArgs4)
    (currentFh : Option Bytes) (minorversion : U32) : Request H (NfsResop4 × Option Bytes) := do
  if let .error status := validateOpenShare args.shareAccess args.shareDeny minorversion then
    return (.open status none, currentFh)
  let container ← match ← resolveObject backend currentFh with
    | .ok (_, object) => pure object
    | .error status => return (.open status none, currentFh)
  if let .error status ← openXattrGate ctx args container then
    return (.open status none, currentFh)
  let beforeAttr ← buildAttr backend ctx.request container
  let target ← match ← openTarget backend config ctx args container beforeAttr with
    | .ok target => pure target
    | .error status => return (.open status none, currentFh)
  match ← buildAttr backend ctx.request target.object with
  | .ok attr => if attr.isDir then return (.open .isdir none, currentFh)
  | .error e => return (.open e.toNfsstat4 none, currentFh)
  if let (none, .error e) := (target.createdBefore, beforeAttr) then
    return (.open e.toNfsstat4 none, currentFh)
  if let .error status ← openAccessCheck ctx args target then
    return (.open status none, currentFh)
  finishOpen backend ctx args minorversion container beforeAttr currentFh target

/-! ## READ and WRITE -/

/-- The data part of `op_read`: the checks on the object, then the read. -/
def readObject (backend : Backend H) (ctx : OpContext) (args : ReadArgs4)
    (object : ServerObject) : Request H (Except NfsStat4 ReadResult) := do
  match object with
  | .fs id =>
    match ← getattr ctx.request id with
    | .ok attrs => if attrs.objectType = .directory then return .error .isdir
    | .error e => return .error e.toNfsstat4
    if let .error status ← requireAccess ctx.request id AccessMask.read then
      return .error status
    match ← read ctx.request id args.offset args.count with
    | .ok result => return .ok result
    | .error e => return .error e.toNfsstat4
  | .namedAttrFile parent name =>
    match ← xattrReadSlice backend ctx.request parent name args.offset args.count with
    | .ok result => return .ok result
    | .error e => return .error e.toNfsstat4
  | .namedAttrDir _ => return .error .isdir

/-- `op_read`. -/
def opRead (backend : Backend H) (ctx : OpContext) (args : ReadArgs4) (currentFh : Option Bytes)
    (currentStateid : Option Stateid4) : Request H NfsResop4 := do
  let object ← match ← resolveObject backend currentFh with
    | .ok (_, object) => pure object
    | .error status => return .read status none
  if let .error status ← validateIoStateid object args.stateid currentStateid
      ctx.sequenceClientid false args.offset (args.count.setWidth 64) then
    return .read status none
  if let .error status ← namedAttrGate ctx object AccessMask.xattrRead then
    return .read status none
  match ← readObject backend ctx args object with
  | .ok res => return .read .ok (some res)
  | .error status => return .read status none

/-- The data part of `op_write`: the checks on the object, then the write. -/
def writeObject (backend : Backend H) (ctx : OpContext) (args : WriteArgs4)
    (object : ServerObject) (requested : WriteStability) :
    Request H (Except NfsStat4 WriteResult) := do
  match object with
  | .fs id =>
    match ← getattr ctx.request id with
    | .ok attrs => if attrs.objectType = .directory then return .error .isdir
    | .error e => return .error e.toNfsstat4
    if let .error status ← requireAccess ctx.request id
        (AccessMask.modify ||| AccessMask.extend) then
      return .error status
    match ← write ctx.request id args.offset args.data requested with
    | .ok result => return .ok result
    | .error e => return .error e.toNfsstat4
  | .namedAttrFile parent name =>
    match ← xattrWrite backend ctx.request parent name args.offset args.data with
    | .ok written => return .ok ⟨written, .fileSync⟩
    | .error e => return .error e.toNfsstat4
  | .namedAttrDir _ => return .error .isdir

/-- The bookkeeping after a write to a named attribute. -/
def touchWritten (object : ServerObject) : Request H Unit :=
  match object with
  | .namedAttrFile _ _ => guarded (.touchData object .namedAttr)
  | .fs _ | .namedAttrDir _ => return ()

/-- `op_write`, in a boot with the given write verifier. -/
def opWrite (backend : Backend H) (writeVerifier : Verifier4) (ctx : OpContext)
    (args : WriteArgs4) (currentFh : Option Bytes) (currentStateid : Option Stateid4) :
    Request H NfsResop4 := do
  let object ← match ← resolveObject backend currentFh with
    | .ok (_, object) => pure object
    | .error status => return .write status none
  if let .error status ← validateIoStateid object args.stateid currentStateid
      ctx.sequenceClientid true args.offset (BitVec.ofNat 64 args.data.length) then
    return .write status none
  if let .error status ← namedAttrGate ctx object AccessMask.xattrWrite then
    return .write status none
  let requested ← match requestedWriteStability args.stable with
    | .ok stability => pure stability
    | .error status => return .write status none
  match ← writeObject backend ctx args object requested with
  | .error status => return .write status none
  | .ok result =>
    if result.stability.rank < requested.rank then return .write .serverfault none
    touchWritten object
    return .write .ok (some ⟨result.written, result.stability.committedHow, writeVerifier⟩)

end EmbedNfs

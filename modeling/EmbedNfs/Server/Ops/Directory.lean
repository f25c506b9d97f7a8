import EmbedNfs.Server.FileAttrs
import EmbedNfs.Server.Recall

/-!
# CREATE, LINK, LOOKUP, OPENATTR, REMOVE and RENAME

The namespace operations of `server/ops/directory.rs`. Each mutation recalls the delegations
other clients hold on the directories it is about to change, and only then calls the backend.
-/

namespace EmbedNfs

variable {H : Type}

/-! ## CREATE and LINK -/

/-- The creation itself, by the type asked for. -/
def createByType (backend : Backend H) (ctx : OpContext) (args : CreateArgs4)
    (dirId : ObjectId) (setAttrs : SetAttrs) : Request H (Except NfsStat4 ObjectId) := do
  match args.objtype with
  | .reg => return .error .badtype
  | .dir =>
    match ← createObject ctx.request ctx.sequenceClientid dirId args.objname .directory
        setAttrs with
    | .ok id => return .ok id
    | .error e => return .error e.toNfsstat4
  | .link target =>
    if !backend.symlinks then return .error .notsupp
    let handle ← match ← resolveBackendHandle dirId with
      | .ok handle => pure handle
      | .error e => return .error e.toNfsstat4
    match ← Program.perform (Call.backend ctx.request ctx.sequenceClientid [.fs dirId]
        (.createSymlink handle args.objname target setAttrs)) with
    | .error e => return .error e.toNfsstat4
    | .ok created =>
      match ← registerHandle created with
      | .ok id => return .ok id
      | .error e => return .error e.toNfsstat4
  | .unsupported _ => return .error .badtype
  | .blk | .chr | .sock | .fifo => return .error .notsupp

/-- `op_create`, with the new current filehandle. -/
def opCreate (backend : Backend H) (config : DelegationConfig) (ctx : OpContext)
    (args : CreateArgs4) (currentFh : Option Bytes) : Request H (NfsResop4 × Option Bytes) := do
  let dirObject ← match ← resolveObject backend currentFh with
    | .ok (_, object) => pure object
    | .error status => return (.create status none, currentFh)
  let .fs dirId := dirObject | return (.create .notsupp none, currentFh)
  match ← kindOf ctx.request dirId with
  | .ok kind => if kind ≠ .directory then return (.create .notdir none, currentFh)
  | .error e => return (.create e.toNfsstat4 none, currentFh)
  let before ← match ← buildAttr backend ctx.request dirObject with
    | .ok attr => pure attr
    | .error e => return (.create e.toNfsstat4 none, currentFh)
  let setAttrs ← match decodeSetattr args.createattrs with
    | .ok attrs => pure attrs
    | .error status => return (.create status none, currentFh)
  if let .error status := validateComponentName backend args.objname then
    return (.create status none, currentFh)
  recallDirectoryDelegations config dirObject ctx.sequenceClientid
  let id ← match ← createByType backend ctx args dirId setAttrs with
    | .ok id => pure id
    | .error status => return (.create status none, currentFh)
  match ← objectToFh (.fs id) with
  | none => return (.create .stale none, currentFh)
  | some fh =>
    let cinfo ← mutationChangeInfo backend ctx.request dirObject before.changeId
    return (.create .ok (some cinfo), some fh)

/-- `op_link`. -/
def opLink (backend : Backend H) (config : DelegationConfig) (ctx : OpContext)
    (newname : String) (currentFh savedFh : Option Bytes) : Request H NfsResop4 := do
  let source ← match ← resolveObject backend savedFh with
    | .ok (_, object) => pure object
    | .error status => return .link status none
  let targetDir ← match ← resolveObject backend currentFh with
    | .ok (_, object) => pure object
    | .error status => return .link status none
  let (.fs sourceId, .fs dirId) := (source, targetDir) | return .link .notsupp none
  match ← kindOf ctx.request dirId with
  | .ok kind => if kind ≠ .directory then return .link .notdir none
  | .error e => return .link e.toNfsstat4 none
  let before ← match ← buildAttr backend ctx.request targetDir with
    | .ok attr => pure attr
    | .error e => return .link e.toNfsstat4 none
  if let .error status := validateComponentName backend newname then return .link status none
  recallDirectoryDelegations config targetDir ctx.sequenceClientid
  if !backend.hardLinks then return .link .notsupp none
  let sourceHandle ← match ← resolveBackendHandle sourceId with
    | .ok handle => pure handle
    | .error e => return .link e.toNfsstat4 none
  let dirHandle ← match ← resolveBackendHandle dirId with
    | .ok handle => pure handle
    | .error e => return .link e.toNfsstat4 none
  match ← Program.perform (Call.backend ctx.request ctx.sequenceClientid [.fs dirId]
      (.link sourceHandle dirHandle newname)) with
  | .error e => return .link e.toNfsstat4 none
  | .ok () =>
    let cinfo ← mutationChangeInfo backend ctx.request targetDir before.changeId
    return .link .ok (some cinfo)

/-! ## LOOKUP and OPENATTR -/

/-- The child a LOOKUP names. -/
def lookupChild (backend : Backend H) (ctx : OpContext) (object : ServerObject)
    (name : String) : Request H (Except NfsStat4 ServerObject) := do
  match object with
  | .fs dirId =>
    match ← kindOf ctx.request dirId with
    | .ok kind => if kind ≠ .directory then return .error .notdir
    | .error e => return .error e.toNfsstat4
    if let .error status := validateComponentName backend name then return .error status
    match ← lookup ctx.request dirId name with
    | .ok id => return .ok (.fs id)
    | .error e => return .error e.toNfsstat4
  | .namedAttrDir parent =>
    if !backend.xattrs then return .error .notsupp
    if let .error status ← requireAccess ctx.request parent AccessMask.xattrList then
      return .error status
    match ← xattrValue backend ctx.request parent name with
    | .ok _ => return .ok (.namedAttrFile parent name)
    | .error e => return .error e.toNfsstat4
  | .namedAttrFile _ _ => return .error .notdir

/-- `op_lookup`, with the new current filehandle. -/
def opLookup (backend : Backend H) (ctx : OpContext) (name : String)
    (currentFh : Option Bytes) : Request H (NfsResop4 × Option Bytes) := do
  let object ← match ← resolveObject backend currentFh with
    | .ok (_, object) => pure object
    | .error status => return (.lookup status, currentFh)
  match ← lookupChild backend ctx object name with
  | .error status => return (.lookup status, currentFh)
  | .ok child =>
    match ← objectToFh child with
    | some fh => return (.lookup .ok, some fh)
    | none => return (.lookup .stale, currentFh)

/-- `op_openattr`, with the new current filehandle. -/
def opOpenattr (backend : Backend H) (currentFh : Option Bytes) :
    Request H (NfsResop4 × Option Bytes) := do
  if !backend.xattrs then return (.openAttr .notsupp, currentFh)
  let object ← match ← resolveObject backend currentFh with
    | .ok (_, object) => pure object
    | .error status => return (.openAttr status, currentFh)
  let .fs id := object | return (.openAttr .inval, currentFh)
  discard <| guarded (.ensureMeta (.namedAttrDir id) .namedAttrDir)
  match ← objectToFh (.namedAttrDir id) with
  | some fh => return (.openAttr .ok, some fh)
  | none => return (.openAttr .stale, currentFh)

/-! ## REMOVE and RENAME -/

/-- The check on the parent's extended-attribute rights before a named attribute is
removed. -/
def removeGate (ctx : OpContext) (dirObject : ServerObject) :
    Request H (Except NfsStat4 Unit) :=
  match dirObject with
  | .namedAttrDir parent => requireAccess ctx.request parent AccessMask.xattrWrite
  | .fs _ | .namedAttrFile _ _ => return .ok ()

/-- The recall before REMOVE, made for directories only. -/
def recallIfDir (config : DelegationConfig) (ctx : OpContext) (attr : ServerFileAttr)
    (object : ServerObject) : Request H Unit :=
  if attr.isDir then recallDirectoryDelegations config object ctx.sequenceClientid else return ()

/-- The directories a REMOVE changes: the object, if the attributes fetched before say that it
is a directory. -/
def removeDirs (attr : ServerFileAttr) (object : ServerObject) : List ServerObject :=
  if attr.isDir then [object] else []

/-- The removal itself. -/
def removeFrom (backend : Backend H) (ctx : OpContext) (dirs : List ServerObject)
    (dirObject : ServerObject) (target : String) : Request H NfsStat4 := do
  match dirObject with
  | .fs dirId =>
    match ← remove ctx.request ctx.sequenceClientid dirs dirId target with
    | .ok () => return .ok
    | .error e => return e.toNfsstat4
  | .namedAttrDir parent =>
    if !backend.xattrs then return .notsupp
    let handle ← match ← resolveBackendHandle parent with
      | .ok handle => pure handle
      | .error e => return e.toNfsstat4
    match ← Program.perform (Call.backend ctx.request ctx.sequenceClientid dirs
        (.removeXattr handle target)) with
    | .error e => return e.toNfsstat4
    | .ok () =>
      discard <| refreshXattrSummary backend ctx.request parent
      guarded (.touchMetadata dirObject .namedAttrDir)
      discard <| getattr ctx.request parent
      return .ok
  | .namedAttrFile _ _ => return .notdir

/-- `op_remove`. -/
def opRemove (backend : Backend H) (config : DelegationConfig) (ctx : OpContext)
    (target : String) (currentFh : Option Bytes) : Request H NfsResop4 := do
  let dirObject ← match ← resolveObject backend currentFh with
    | .ok (_, object) => pure object
    | .error status => return .remove status none
  if let .error status ← removeGate ctx dirObject then return .remove status none
  let before ← match ← buildAttr backend ctx.request dirObject with
    | .ok attr => pure attr
    | .error e => return .remove e.toNfsstat4 none
  if let .error status := validateComponentName backend target then return .remove status none
  recallIfDir config ctx before dirObject
  let status ← removeFrom backend ctx (removeDirs before dirObject) dirObject target
  if status ≠ .ok then return .remove status none
  let cinfo ← mutationChangeInfo backend ctx.request dirObject before.changeId
  return .remove .ok (some cinfo)

/-- The recalls before RENAME: the source directory, then the target if it is another. -/
def recallBoth (config : DelegationConfig) (ctx : OpContext) (source target : ServerObject) :
    Request H Unit := do
  recallDirectoryDelegations config source ctx.sequenceClientid
  if source = target then return ()
  else recallDirectoryDelegations config target ctx.sequenceClientid

/-- `op_rename`. -/
def opRename (backend : Backend H) (config : DelegationConfig) (ctx : OpContext)
    (args : RenameArgs4) (currentFh savedFh : Option Bytes) : Request H NfsResop4 := do
  let source ← match ← resolveObject backend savedFh with
    | .ok (_, object) => pure object
    | .error status => return .rename status none none
  let target ← match ← resolveObject backend currentFh with
    | .ok (_, object) => pure object
    | .error status => return .rename status none none
  let (.fs sourceId, .fs targetId) := (source, target) | return .rename .notsupp none none
  let sourceBefore ← match ← buildAttr backend ctx.request source with
    | .ok attr => pure attr
    | .error e => return .rename e.toNfsstat4 none none
  let targetBefore ← match ← buildAttr backend ctx.request target with
    | .ok attr => pure attr
    | .error e => return .rename e.toNfsstat4 none none
  recallBoth config ctx source target
  match ← rename ctx.request ctx.sequenceClientid sourceId args.oldname targetId args.newname with
  | .error e => return .rename e.toNfsstat4 none none
  | .ok () =>
    let sourceInfo ← mutationChangeInfo backend ctx.request source sourceBefore.changeId
    let targetInfo ← mutationChangeInfo backend ctx.request target targetBefore.changeId
    return .rename .ok (some sourceInfo) (some targetInfo)

end EmbedNfs

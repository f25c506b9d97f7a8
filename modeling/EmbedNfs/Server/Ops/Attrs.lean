import EmbedNfs.Server.Ops.File

/-!
# SETATTR

`op_setattr` of `server/ops/attrs.rs`. A size change is a write: it needs a stateid and the
right to modify. Any change to a directory recalls the delegations other clients hold on it.
-/

namespace EmbedNfs

variable {H : Type}

/-- The object's attributes, fetched only where a check below needs them: for a size change,
and for any change while directory delegations are enabled. -/
def setattrCurrent (backend : Backend H) (config : DelegationConfig) (ctx : OpContext)
    (object : ServerObject) (setAttrs : SetAttrs) :
    Request H (Except NfsStat4 (Option ServerFileAttr)) := do
  if setAttrs.size.isSome ∨ (config.directoryDelegations ∧ !setAttrs.isEmpty) then
    match ← buildAttr backend ctx.request object with
    | .ok attr => return .ok (some attr)
    | .error e => return .error e.toNfsstat4
  else return .ok none

/-- The gate of a size change on a named attribute. -/
def setattrGate (ctx : OpContext) (object : ServerObject) (setAttrs : SetAttrs) :
    Request H (Except NfsStat4 Unit) :=
  match setAttrs.size with
  | some _ => namedAttrGate ctx object AccessMask.xattrWrite
  | none => return .ok ()

/-- Directories refuse a size change, and recall delegations before any other. -/
def setattrDirectory (config : DelegationConfig) (ctx : OpContext) (object : ServerObject)
    (setAttrs : SetAttrs) (currentAttr : Option ServerFileAttr) :
    Request H (Except NfsStat4 Unit) := do
  match currentAttr with
  | none => return .ok ()
  | some attr =>
    if attr.isDir then
      if setAttrs.size.isSome then return .error .isdir
      if setAttrs.isEmpty then return .ok ()
      recallDirectoryDelegations config object ctx.sequenceClientid
      return .ok ()
    else return .ok ()

/-- The checks of a size change: the stateid over the bytes it cuts or adds, then the right
to modify the file. -/
def setattrSize (ctx : OpContext) (args : SetattrArgs4) (object : ServerObject)
    (setAttrs : SetAttrs) (currentAttr : Option ServerFileAttr)
    (currentStateid : Option Stateid4) : Request H (Except NfsStat4 Unit) := do
  match setAttrs.size with
  | none => return .ok ()
  | some newSize =>
    match currentAttr with
    | none => return .error .serverfault
    | some attr =>
      let offset := if attr.size ≤ newSize then attr.size else newSize
      let length := (if attr.size ≤ newSize then newSize else attr.size) - offset
      if let .error status ← validateIoStateid object args.stateid currentStateid
          ctx.sequenceClientid true offset length then
        return .error status
      match object with
      | .fs id => requireAccess ctx.request id (AccessMask.modify ||| AccessMask.extend)
      | .namedAttrDir _ | .namedAttrFile _ _ => return .ok ()

/-- The directories a SETATTR changes: the object itself, if the attributes fetched before
say that it is a directory and something is set. -/
def setattrDirs (object : ServerObject) (setAttrs : SetAttrs)
    (currentAttr : Option ServerFileAttr) : List ServerObject :=
  if currentAttr.any ServerFileAttr.isDir ∧ !setAttrs.isEmpty then [object] else []

/-- The resize of a named attribute, if the size is set. -/
def setattrResize (backend : Backend H) (ctx : OpContext) (parent : ObjectId) (name : String)
    (setAttrs : SetAttrs) : Request H (Except FsError Unit) :=
  match setAttrs.size with
  | some size => xattrResize backend ctx.request parent name size
  | none => return .ok ()

/-- The update itself. -/
def setattrApply (backend : Backend H) (ctx : OpContext) (object : ServerObject)
    (setAttrs : SetAttrs) (dirs : List ServerObject) : Request H NfsStat4 := do
  match object with
  | .fs id =>
    match ← setattrReal ctx.request ctx.sequenceClientid dirs id setAttrs with
    | .ok _ => return .ok
    | .error e => return e.toNfsstat4
  | .namedAttrFile parent name =>
    match ← setattrResize backend ctx parent name setAttrs with
    | .error e => return e.toNfsstat4
    | .ok () =>
      guarded (.applySetattr object .namedAttr setAttrs)
      if setAttrs.size.isSome then
        guarded (.touchData object .namedAttr)
        return .ok
      return .ok
  | .namedAttrDir _ =>
    if setAttrs.size.isSome then return .isdir
    guarded (.applySetattr object .namedAttrDir setAttrs)
    return .ok

/-- `op_setattr`. -/
def opSetattr (backend : Backend H) (config : DelegationConfig) (ctx : OpContext)
    (args : SetattrArgs4) (currentFh : Option Bytes) (currentStateid : Option Stateid4) :
    Request H NfsResop4 := do
  let object ← match ← resolveObject backend currentFh with
    | .ok (_, object) => pure object
    | .error status => return .setattr status ⟨[]⟩
  let setAttrs ← match decodeSetattr args.objAttributes with
    | .ok attrs => pure attrs
    | .error status => return .setattr status ⟨[]⟩
  if let .error status ← setattrGate ctx object setAttrs then return .setattr status ⟨[]⟩
  let currentAttr ← match ← setattrCurrent backend config ctx object setAttrs with
    | .ok attr => pure attr
    | .error status => return .setattr status ⟨[]⟩
  if let .error status ← setattrDirectory config ctx object setAttrs currentAttr then
    return .setattr status ⟨[]⟩
  if let .error status ← setattrSize ctx args object setAttrs currentAttr currentStateid then
    return .setattr status ⟨[]⟩
  let status ← setattrApply backend ctx object setAttrs (setattrDirs object setAttrs currentAttr)
  if status = .ok then return .setattr .ok args.objAttributes.attrmask
  return .setattr status ⟨[]⟩

end EmbedNfs

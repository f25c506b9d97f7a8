import EmbedNfs.Proto.Operations
import EmbedNfs.Server.Objects

/-!
# Backend access, stateids and attributes

The helpers of `server/mod.rs` and `server/file_attrs.rs` through which the operations reach
the backend. An object id is first turned into the backend's handle; a fallible helper that
the source ends with `?` is chained with `Request.andThen`.
-/

namespace EmbedNfs

variable {H : Type}

/-- The `?` operator: go on with the value, or stop with the error. -/
def Request.andThen {ε α β : Type} (p : Request H (Except ε α))
    (f : α → Request H (Except ε β)) : Request H (Except ε β) := do
  match ← p with
  | .ok a => f a
  | .error e => return .error e

/-! ## Request context and stateids -/

/-- What a request runs with: its credentials, and the client and session of its SEQUENCE. -/
structure OpContext where
  request : RequestContext
  sequenceClientid : Option Clientid4
  sequenceSessionid : Option Sessionid4

/-- `resolve_stateid` with its reaping. -/
def resolveStateidOp (clientid : Option Clientid4) (requested : Stateid4)
    (currentStateid : Option Stateid4) (currentMode : CurrentStateidMode) :
    Request H (Except NfsStat4 ResolvedStateid) := do
  guarded .reapExpiredClients
  match normalizeStateid requested currentStateid currentMode with
  | .error status => return .error status
  | .ok .anonymous => return .ok .anonymous
  | .ok .bypass => return .ok .bypass
  | .ok (.concrete stateid) => guarded (.resolveConcrete clientid stateid)

/-- `normalize_stateid` where only a concrete stateid will do. -/
def concreteStateid (requested : Stateid4) (currentStateid : Option Stateid4)
    (currentMode : CurrentStateidMode) : Except NfsStat4 Stateid4 :=
  match normalizeStateid requested currentStateid currentMode with
  | .ok (.concrete stateid) => .ok stateid
  | .ok .anonymous => .error .badStateid
  | .ok .bypass => .error .badStateid
  | .error status => .error status

/-! ## Calls through an object id -/

/-- `getattr`. -/
def getattr (ctx : RequestContext) (id : ObjectId) : Request H (Except FsError Attrs) :=
  Request.andThen (resolveBackendHandle id) fun handle => askBackend ctx (.getattr handle)

/-- `kind_of`. -/
def kindOf (ctx : RequestContext) (id : ObjectId) : Request H (Except FsError ObjectType) :=
  Request.andThen (getattr ctx id) fun attrs => return .ok attrs.objectType

/-- `access_for`. -/
def accessFor (ctx : RequestContext) (id : ObjectId) (requested : AccessMask) :
    Request H (Except FsError AccessMask) :=
  Request.andThen (resolveBackendHandle id) fun handle =>
    askBackend ctx (.access handle requested)

/-- `require_access`. -/
def requireAccess (ctx : RequestContext) (id : ObjectId) (need : AccessMask) :
    Request H (Except NfsStat4 Unit) := do
  match ← accessFor ctx id need with
  | .ok granted => return if granted.contains need then .ok () else .error .access
  | .error e => return .error e.toNfsstat4

/-- `lookup`. -/
def lookup (ctx : RequestContext) (dirId : ObjectId) (name : String) :
    Request H (Except FsError ObjectId) :=
  Request.andThen (resolveBackendHandle dirId) fun handle =>
    Request.andThen (askBackend ctx (.lookup handle name)) fun child => registerHandle child

/-- `read`. -/
def read (ctx : RequestContext) (id : ObjectId) (offset : U64) (count : U32) :
    Request H (Except FsError ReadResult) :=
  Request.andThen (resolveBackendHandle id) fun handle =>
    askBackend ctx (.read handle offset count)

/-- `write`. -/
def write (ctx : RequestContext) (id : ObjectId) (offset : U64) (data : Bytes)
    (requested : WriteStability) : Request H (Except FsError WriteResult) :=
  Request.andThen (resolveBackendHandle id) fun handle =>
    askBackend ctx (.write handle offset data requested)

/-- `create_file` and `create_dir`, which differ in the kind only. -/
def createObject (ctx : RequestContext) (origin : Option Clientid4) (dirId : ObjectId)
    (name : String) (kind : CreateKind) (attrs : SetAttrs) :
    Request H (Except FsError ObjectId) :=
  Request.andThen (resolveBackendHandle dirId) fun handle =>
    Request.andThen
      (Program.perform (Call.backend ctx origin [.fs dirId] (.create handle name kind attrs)))
      fun created => registerHandle created

/-- `remove`, changing the given directories. -/
def remove (ctx : RequestContext) (origin : Option Clientid4) (dirs : List ServerObject)
    (dirId : ObjectId) (name : String) : Request H (Except FsError Unit) :=
  Request.andThen (resolveBackendHandle dirId) fun handle =>
    Program.perform (Call.backend ctx origin dirs (.remove handle name))

/-- `rename`. -/
def rename (ctx : RequestContext) (origin : Option Clientid4) (fromDir : ObjectId)
    (fromName : String) (toDir : ObjectId) (toName : String) : Request H (Except FsError Unit) :=
  Request.andThen (resolveBackendHandle fromDir) fun fromHandle =>
    Request.andThen (resolveBackendHandle toDir) fun toHandle =>
      Program.perform (Call.backend ctx origin [.fs fromDir, .fs toDir]
        (.rename fromHandle fromName toHandle toName))

/-- `setattr_real`, changing the given directories. -/
def setattrReal (ctx : RequestContext) (origin : Option Clientid4) (dirs : List ServerObject)
    (id : ObjectId) (attrs : SetAttrs) : Request H (Except FsError Attrs) :=
  Request.andThen (resolveBackendHandle id) fun handle =>
    Program.perform (Call.backend ctx origin dirs (.setattr handle attrs))

/-- `validate_component_name`. -/
def validateComponentName (backend : Backend H) (name : String) : Except NfsStat4 Unit :=
  if name.isEmpty then .error .inval
  else if name = "." ∨ name = ".." then .error .badname
  else if name.toList.contains '/' then .error .badchar
  else if backend.maxNameBytes.toNat < name.utf8ByteSize then .error .nametoolong
  else .ok ()

/-! ## Named attributes -/

/-- `xattr_count`. -/
def xattrCount (backend : Backend H) (ctx : RequestContext) (parent : ObjectId) :
    Request H (Except FsError U64) :=
  Request.andThen (resolveBackendHandle parent) fun handle =>
    if backend.xattrs then
      Request.andThen (askBackend ctx (.listXattrs handle)) fun names =>
        return .ok (BitVec.ofNat 64 names.length)
    else return .error .unsupported

/-- The value of a named attribute, as the `xattr_*` helpers fetch it. -/
def xattrValue (backend : Backend H) (ctx : RequestContext) (parent : ObjectId) (name : String) :
    Request H (Except FsError (H × Bytes)) :=
  Request.andThen (resolveBackendHandle parent) fun handle =>
    if backend.xattrs then
      Request.andThen (askBackend ctx (.getXattr handle name)) fun value =>
        return .ok (handle, value)
    else return .error .unsupported

/-- `xattr_read_slice`. -/
def xattrReadSlice (backend : Backend H) (ctx : RequestContext) (parent : ObjectId)
    (name : String) (offset : U64) (count : U32) : Request H (Except FsError ReadResult) :=
  Request.andThen (xattrValue backend ctx parent name) fun (_, value) =>
    let start := offset.toNat
    if value.length ≤ start then return .ok ⟨[], true⟩
    else
      let stop := min (start + count.toNat) value.length
      return .ok ⟨(value.take stop).drop start, stop = value.length⟩

/-- Cut a value to a length, or fill it up with zeros: `Vec::resize`. -/
def resize (value : Bytes) (size : Nat) : Bytes :=
  value.take size ++ List.replicate (size - value.length) 0

/-- `xattr_resize`. -/
def xattrResize (backend : Backend H) (ctx : RequestContext) (parent : ObjectId)
    (name : String) (size : U64) : Request H (Except FsError Unit) :=
  Request.andThen (xattrValue backend ctx parent name) fun (handle, value) =>
    askBackend ctx (.setXattr handle name (resize value size.toNat) .createOrReplace)

/-- `xattr_write`. -/
def xattrWrite (backend : Backend H) (ctx : RequestContext) (parent : ObjectId)
    (name : String) (offset : U64) (data : Bytes) : Request H (Except FsError U32) :=
  Request.andThen (xattrValue backend ctx parent name) fun (handle, value) =>
    let start := offset.toNat
    let stop := start + data.length
    if 2 ^ 64 ≤ stop then return .error .fileTooLarge
    else
      let grown := if value.length < stop then resize value stop else value
      let written := grown.take start ++ data ++ grown.drop stop
      Request.andThen (askBackend ctx (.setXattr handle name written .createOrReplace)) fun _ =>
        return .ok (BitVec.ofNat 32 data.length)

/-- `refresh_xattr_summary`. -/
def refreshXattrSummary (backend : Backend H) (ctx : RequestContext) (parent : ObjectId) :
    Request H (Except FsError U64) :=
  Request.andThen (xattrCount backend ctx parent) fun count => do
    guarded (.setNamedAttrCount (.namedAttrDir parent) .namedAttrDir count)
    return .ok count

/-! ## Attributes of server objects -/

/-- `build_attr`. -/
def buildAttr (backend : Backend H) (ctx : RequestContext) (object : ServerObject) :
    Request H (Except FsError ServerFileAttr) :=
  match object with
  | .fs id =>
    Request.andThen (getattr ctx id) fun attrs =>
      return .ok ⟨.fromAttrs attrs, attrs.size, attrs.change⟩
  | .namedAttrDir parent =>
    if backend.xattrs then
      let counted : Request H (Except FsError U64) := do
        match ← guarded (.namedAttrCount object) with
        | some count => return .ok count
        | none =>
          Request.andThen (xattrCount backend ctx parent) fun count => do
            guarded (.setNamedAttrCount object .namedAttrDir count)
            return .ok count
      Request.andThen counted fun count =>
        Request.andThen (getattr ctx parent) fun _ => do
          let synth ← guarded (.ensureMeta object .namedAttrDir)
          return .ok ⟨.namedAttrDir, count, synth.changeId⟩
    else return .error .unsupported
  | .namedAttrFile parent name =>
    Request.andThen (getattr ctx parent) fun _ =>
      Request.andThen (xattrValue backend ctx parent name) fun (_, value) => do
        let synth ← guarded (.ensureMeta object .namedAttr)
        return .ok ⟨.namedAttr, BitVec.ofNat 64 value.length, synth.changeId⟩

/-- Whether the attributes are those of a directory or an attribute directory. -/
def ServerFileAttr.isDir (attr : ServerFileAttr) : Bool :=
  attr.fileType = .directory ∨ attr.fileType = .namedAttrDir

/-- `mutation_change_info`. -/
def mutationChangeInfo (backend : Backend H) (ctx : RequestContext) (object : ServerObject)
    (before : U64) : Request H ChangeInfo4 := do
  match ← buildAttr backend ctx object with
  | .ok attr => return ⟨true, before, attr.changeId⟩
  | .error _ => return ⟨false, before, before + 1⟩

/-- `create_mode_requires_nonexistence`. -/
def Createhow4.requiresNonexistence : Createhow4 → Bool
  | .unchecked _ => false
  | .guarded _ | .exclusive _ | .exclusive41 _ _ => true

/-- `open_set_mode`. -/
def Createhow4.openSetMode : Createhow4 → XattrSetMode
  | .unchecked _ => .createOrReplace
  | .guarded _ | .exclusive _ | .exclusive41 _ _ => .createOnly

end EmbedNfs

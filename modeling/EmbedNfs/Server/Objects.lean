import EmbedNfs.Server.Calls

/-!
# Objects, filehandles and registration as programs

The methods that name objects: minting and resolving filehandles, registering backend
handles, and dropping what belongs to retired objects. Each is a program over the atomic
steps of `EmbedNfs.Server.Calls`, with the steps of the source in the source's order.
-/

namespace EmbedNfs

variable {H : Type}

/-- Issue a section of the state manager. -/
def guarded (c : Section) : Request H c.Ret := Program.perform (Call.guarded c)

/-- Issue an operation on a concurrent map. -/
def mapOp (c : MapOp) : Request H c.Ret := Program.perform (Call.mapOp c)

/-- Reap expired clients, as most methods do before their own section. -/
def reapThen (c : Section) : Request H c.Ret := do
  guarded .reapExpiredClients
  guarded c

/-! ## Minting filehandles -/

/-- `claim_persistent_fh`. -/
def claimPersistentFh (object : ServerObject) : Request H (Option Bytes) := do
  match object with
  | .fs id =>
    match ← mapOp (.persistentFhGet id) with
    | none => return none
    | some fh =>
      if ← mapOp (.fhToObjectClaim fh object) then return some fh
      return none
  | _ => return none

/-- The rest of `object_to_fh` once a filehandle is reserved for the object: publish it,
let a concurrent winner win, and back out if the object has been retired meanwhile. -/
def publishFh (object : ServerObject) (fh : Bytes) : Request H (Option Bytes) := do
  match ← mapOp (.objectToFhEntry object fh) with
  | some winner =>
    if winner ≠ fh then mapOp (.fhToObjectRemoveIf fh object)
    return some winner
  | none =>
    if ← mapOp (.isRetired object) then
      mapOp (.fhToObjectRemove fh)
      mapOp (.objectToFhRemove object)
      return none
    return some fh

/-- `object_to_fh`. -/
def objectToFh (object : ServerObject) : Request H (Option Bytes) := do
  if let some fh ← mapOp (.objectToFhGet object) then return some fh
  if ← mapOp (.isRetired object) then return none
  match ← claimPersistentFh object with
  | some fh => publishFh object fh
  | none =>
    let fh ← mapOp .nextBootFh
    mapOp (.fhToObjectInsert fh object)
    publishFh object fh

/-! ## Invalidation -/

/-- `mark_retired`. -/
def markRetired (ids : List ObjectId) : Request H Unit :=
  Program.each ids fun id => mapOp (.retire id)

/-- The iteration over `fh_to_object` in `invalidate_objects`, shard by shard: the entries
that belong to `ids`. -/
def collectStale (ids : List ObjectId) : List Nat → Request H (List (Bytes × ServerObject))
  | [] => return []
  | shard :: shards => do
    let entries ← mapOp (.fhToObjectShard shard)
    let rest ← collectStale ids shards
    return (entries.filter fun (_, object) => belongsTo object ids) ++ rest

/-- The filehandle sweep of `invalidate_objects`. -/
def removeStale (stale : List (Bytes × ServerObject)) : Request H Unit :=
  Program.each stale fun (fh, object) => do
    mapOp (.fhToObjectRemove fh)
    mapOp (.objectToFhRemove object)

/-- `invalidate_objects`, over a filehandle map with the given number of shards. -/
def invalidateObjects (shards : Nat) (ids : List ObjectId) : Request H InvalidationCounts := do
  if ids.isEmpty then return ⟨0, 0, 0, 0, 0⟩
  markRetired ids
  let stale ← collectStale ids (List.range shards)
  removeStale stale
  Program.each ids fun id => mapOp (.persistentFhRemove id)
  let counts ← guarded (.dropBelonging ids)
  return { counts with filehandles := stale.length }

/-! ## Registration -/

/-- `register_handle`: the read-locked fast path, then the write-locked section. -/
def registerHandle (handle : H) : Request H (Except FsError ObjectId) := do
  if let some id ← Program.perform (Call.registered handle) then return .ok id
  Program.perform (Call.register handle)

/-- `resolve_backend_handle`. -/
def resolveBackendHandle (id : ObjectId) : Request H (Except FsError H) := do
  match ← Program.perform (Call.backendHandle id) with
  | some handle => return .ok handle
  | none => return .error .badHandle

/-- A call to the backend that changes no directory. -/
def askBackend (ctx : RequestContext) (c : BackendCall H) : Request H c.Ret :=
  Program.perform (Call.backend ctx none [] c)

/-- The status for a failed `decode_handle`. -/
def decodeHandleStatus : FsError → NfsStat4
  | .delay => .delay
  | .stale => .stale
  | .notFound => .stale
  | .badHandle => .stale
  | .invalidInput => .stale
  | other => other.toNfsstat4

/-- `decode_persistent_fh`. -/
def decodePersistentFh (backend : Backend H) (fh : Bytes) :
    Request H (Except NfsStat4 ServerObject) := do
  let some body := persistentFhBody fh | return .error .stale
  let some _ := backend.persistentHandles | return .error .stale
  let handle ← match ← askBackend ⟨.none⟩ (.decodeHandle body) with
    | .ok handle => pure handle
    | .error e => return .error (decodeHandleStatus e)
  let object ← match ← registerHandle handle with
    | .ok id => pure (ServerObject.fs id)
    | .error e => return .error e.toNfsstat4
  match ← objectToFh object with
  | some minted => if minted = fh then return .ok object else return .error .stale
  | none => return .error .stale

/-- `resolve_object`. -/
def resolveObject (backend : Backend H) (fh : Option Bytes) :
    Request H (Except NfsStat4 (Bytes × ServerObject)) := do
  let some fh := fh | return .error .nofilehandle
  if let some object ← mapOp (.fhToObject fh) then return .ok (fh, object)
  match ← decodePersistentFh backend fh with
  | .ok object => return .ok (fh, object)
  | .error status => return .error status

end EmbedNfs

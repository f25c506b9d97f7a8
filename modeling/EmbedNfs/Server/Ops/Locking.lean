import EmbedNfs.Server.FileAttrs

/-!
# LOCK, LOCKT and LOCKU

`server/ops/locking.rs`. LOCK resolves its stateid, looks for a conflicting range and installs
the lock in three separate sections.
-/

namespace EmbedNfs

variable {H : Type}

/-- LOCK for a new lock owner, once the object is known and the bounds are valid. -/
def lockNewOwner (args : LockArgs4) (object : ServerObject) (currentStateid : Option Stateid4)
    (clientid : Clientid4) (requested : Stateid4) (lockOwner : StateOwner4) :
    Request H NfsResop4 := do
  let openStateid ← match concreteStateid requested currentStateid .zeroSeqid with
    | .ok stateid => pure stateid
    | .error status => return .lock status none none
  match ← resolveStateidOp (some clientid) openStateid none .zeroSeqid with
  | .ok (.opened opened) => if opened.object ≠ object then return .lock .openmode none none
  | .ok _ => return .lock .openmode none none
  | .error status => return .lock status none none
  if let some denied ← reapThen
      (.findLockConflict object lockOwner args.locktype args.offset args.length none) then
    return .lock .denied none (some denied)
  match ← reapThen
      (.createLockState openStateid lockOwner object args.locktype args.offset args.length) with
  | .ok stateid => return .lock .ok (some stateid) none
  | .error status => return .lock status none none

/-- LOCK for an existing lock owner, once the object is known and the bounds are valid. -/
def lockExistingOwner (args : LockArgs4) (object : ServerObject)
    (currentStateid : Option Stateid4) (clientid : Clientid4) (requested : Stateid4) :
    Request H NfsResop4 := do
  let lockStateid ← match concreteStateid requested currentStateid .zeroSeqid with
    | .ok stateid => pure stateid
    | .error status => return .lock status none none
  let owner ← match ← resolveStateidOp (some clientid) lockStateid none .zeroSeqid with
    | .ok (.locked lock) =>
      if lock.object = object then pure lock.owner else return .lock .badStateid none none
    | .ok _ => return .lock .badStateid none none
    | .error status => return .lock status none none
  if let some denied ← reapThen
      (.findLockConflict object owner args.locktype args.offset args.length
        (some lockStateid.other)) then
    return .lock .denied none (some denied)
  match ← reapThen (.updateLockState lockStateid args.locktype args.offset args.length) with
  | .ok stateid => return .lock .ok (some stateid) none
  | .error status => return .lock status none none

/-- `op_lock`. -/
def opLock (backend : Backend H) (ctx : OpContext) (args : LockArgs4) (currentFh : Option Bytes)
    (currentStateid : Option Stateid4) : Request H NfsResop4 := do
  let object ← match ← resolveObject backend currentFh with
    | .ok (_, object) => pure object
    | .error status => return .lock status none none
  match ← buildAttr backend ctx.request object with
  | .ok attr => if attr.isDir then return .lock .isdir none none
  | .error e => return .lock e.toNfsstat4 none none
  if let .error status := validateLockBounds args.offset args.length then
    return .lock status none none
  match ctx.sequenceClientid with
  | none => return .lock .badStateid none none
  | some clientid =>
    match args.locker with
    | .newLockOwner openStateid lockOwner =>
      lockNewOwner args object currentStateid clientid openStateid lockOwner
    | .existingLockOwner lockStateid =>
      lockExistingOwner args object currentStateid clientid lockStateid

/-- `op_lockt`. -/
def opLockt (backend : Backend H) (ctx : OpContext) (args : LocktArgs4)
    (currentFh : Option Bytes) : Request H NfsResop4 := do
  let object ← match ← resolveObject backend currentFh with
    | .ok (_, object) => pure object
    | .error status => return .lockt status none
  match ← buildAttr backend ctx.request object with
  | .ok attr => if attr.isDir then return .lockt .isdir none
  | .error e => return .lockt e.toNfsstat4 none
  if let .error status := validateLockBounds args.offset args.length then
    return .lockt status none
  match ← reapThen
      (.findLockConflict object args.owner args.locktype args.offset args.length none) with
  | some denied => return .lockt .denied (some denied)
  | none => return .lockt .ok none

/-- `op_locku`. -/
def opLocku (backend : Backend H) (ctx : OpContext) (args : LockuArgs4)
    (currentFh : Option Bytes) (currentStateid : Option Stateid4) : Request H NfsResop4 := do
  let object ← match ← resolveObject backend currentFh with
    | .ok (_, object) => pure object
    | .error status => return .locku status none
  let some clientid := ctx.sequenceClientid | return .locku .badStateid none
  let stateid ← match concreteStateid args.lockStateid currentStateid .zeroSeqid with
    | .ok stateid => pure stateid
    | .error status => return .locku status none
  match ← resolveStateidOp (some clientid) stateid none .zeroSeqid with
  | .ok (.locked lock) => if lock.object ≠ object then return .locku .badStateid none
  | .ok _ => return .locku .badStateid none
  | .error status => return .locku status none
  match ← reapThen (.unlockState stateid args.offset args.length) with
  | .ok stateid => return .locku .ok (some stateid)
  | .error status => return .locku status none

end EmbedNfs

import EmbedNfs.Session.Filehandles
import EmbedNfs.Session.Invalidate
import EmbedNfs.Session.Metadata
import EmbedNfs.Session.Sequence
import EmbedNfs.Session.Stateids
import Mathlib.Data.Option.Basic

/-!
# The atomic steps of the state manager

A method of the state manager is a sequence of atomic steps of two kinds. A `Section` is
what it does under one acquisition of the `inner` lock. A `MapOp` is one operation on a
concurrent map, on the retired set or on a counter, none of which is guarded by that lock.
Steps of different requests interleave freely; nothing interleaves with the inside of a
step.
-/

namespace EmbedNfs

/-! ## Guarded sections -/

/-- What is done under one acquisition of the `inner` lock. -/
inductive Section where
  | reapExpiredClients
  | exchangeId (args : ExchangeIdArgs4)
  | createSession (args : CreateSessionArgs4) (connectionId : U64)
  | destroySession (sessionid : Sessionid4) (connectionId : U64)
  | destroyClientid (clientid : Clientid4)
  | bindConnToSession (args : BindConnToSessionArgs4) (connectionId : U64)
  | sessionClientid (sessionid : Sessionid4)
  | callbackConnectionIds (clientid : Clientid4)
  | nextCallbackTargetOn (clientid : Clientid4) (connectionId : U64)
  | removeConnection (connectionId : U64)
  | reclaimComplete (clientid : Clientid4) (oneFs : Bool)
  | validateOpenReclaim (clientid : Clientid4) (claim : OpenClaim4)
  | setClientId (args : SetClientIdArgs4)
  | setClientIdConfirm (args : SetClientIdConfirmArgs4)
  | renew (clientid : Clientid4)
  | hasConflictingShareDeny (object : ServerObject) (access : U32)
      (ignoreOpenOther : Option StateidOther)
  | createOpenState (object : ServerObject) (owner : StateOwner4) (shareAccess shareDeny : U32)
  | confirmOpenState (stateid : Stateid4)
  | closeState (stateid : Stateid4)
  | freeStateid (stateid : Stateid4)
  | testStateids (stateids : List Stateid4)
  | openDowngrade (openStateid : Stateid4) (shareAccess shareDeny : U32)
  | hasConflictingIoLock (object : ServerObject) (owner : Option StateOwner4) (isWrite : Bool)
      (offset length : U64) (ignoreStateid : Option StateidOther)
  | findLockConflict (object : ServerObject) (owner : StateOwner4) (locktype : NfsLockType4)
      (offset length : U64) (ignoreStateid : Option StateidOther)
  | createLockState (openStateid : Stateid4) (owner : StateOwner4) (object : ServerObject)
      (locktype : NfsLockType4) (offset length : U64)
  | updateLockState (lockStateid : Stateid4) (locktype : NfsLockType4) (offset length : U64)
  | unlockState (lockStateid : Stateid4) (offset length : U64)
  | resolveConcrete (clientid : Option Clientid4) (stateid : Stateid4)
  | grantDirectoryDelegation (object : ServerObject) (clientid : Clientid4)
      (sessionid : Option Sessionid4) (maxPerClient maxTotal : Nat)
  | returnDelegationState (stateid : Stateid4) (clientid : Option Clientid4)
  | purgeClientDelegations (clientid : Clientid4)
  | beginDirectoryRecallExcluding (object : ServerObject) (excluded : Option Clientid4)
  | writeDelegationsOver (objects : List ServerObject)
  | delegationRecallComplete (stateid : Stateid4)
  | revokeRecallableDelegation (stateid : Stateid4)
  | dropBelonging (ids : List ObjectId)
  | prepareSequence (args : SequenceArgs4) (fingerprint : Bytes) (connectionId : U64)
  | finishSequence (token : SequenceCacheToken) (response : Bytes)
  | ensureMeta (object : ServerObject) (fileType : ServerFileType)
  | touchData (object : ServerObject) (fileType : ServerFileType)
  | touchMetadata (object : ServerObject) (fileType : ServerFileType)
  | namedAttrCount (object : ServerObject)
  | setNamedAttrCount (object : ServerObject) (fileType : ServerFileType) (count : U64)
  | applySetattr (object : ServerObject) (fileType : ServerFileType) (attrs : SetAttrs)

/-- The type of a section's answer. -/
@[reducible] def Section.Ret : Section → Type
  | .reapExpiredClients => Unit
  | .exchangeId _ => Except NfsStat4 ExchangeIdRes4
  | .createSession _ _ => Except NfsStat4 CreateSessionRes4
  | .destroySession _ _ => Except NfsStat4 Unit
  | .destroyClientid _ => Except NfsStat4 Unit
  | .bindConnToSession _ _ => Except NfsStat4 U32
  | .sessionClientid _ => Option Clientid4
  | .callbackConnectionIds _ => List U64
  | .nextCallbackTargetOn _ _ => Option CallbackTarget
  | .removeConnection _ => Unit
  | .reclaimComplete _ _ => Except NfsStat4 Unit
  | .validateOpenReclaim _ _ => Except NfsStat4 Unit
  | .setClientId _ => SetClientIdRes4
  | .setClientIdConfirm _ => Except NfsStat4 Unit
  | .renew _ => Except NfsStat4 Unit
  | .hasConflictingShareDeny _ _ _ => Bool
  | .createOpenState _ _ _ _ => Except NfsStat4 Stateid4
  | .confirmOpenState _ => Except NfsStat4 Stateid4
  | .closeState _ => Except NfsStat4 CloseOutcome
  | .freeStateid _ => Except NfsStat4 Unit
  | .testStateids _ => List NfsStat4
  | .openDowngrade _ _ _ => Except NfsStat4 Stateid4
  | .hasConflictingIoLock _ _ _ _ _ _ => Bool
  | .findLockConflict _ _ _ _ _ _ => Option LockDenied4
  | .createLockState _ _ _ _ _ _ => Except NfsStat4 Stateid4
  | .updateLockState _ _ _ _ => Except NfsStat4 Stateid4
  | .unlockState _ _ _ => Except NfsStat4 Stateid4
  | .resolveConcrete _ _ => Except NfsStat4 ResolvedStateid
  | .grantDirectoryDelegation _ _ _ _ _ => Except NfsStat4 DirectoryDelegationGrant
  | .returnDelegationState _ _ => Except NfsStat4 Unit
  | .purgeClientDelegations _ => Unit
  | .beginDirectoryRecallExcluding _ _ => List DirectoryDelegationRecall
  | .writeDelegationsOver _ => List Stateid4
  | .delegationRecallComplete _ => Bool
  | .revokeRecallableDelegation _ => Except NfsStat4 Unit
  | .dropBelonging _ => InvalidationCounts
  | .prepareSequence _ _ _ => SequenceReplay
  | .finishSequence _ _ => Except NfsStat4 Unit
  | .ensureMeta _ _ => SynthMeta
  | .touchData _ _ => Unit
  | .touchMetadata _ _ => Unit
  | .namedAttrCount _ => Option U64
  | .setNamedAttrCount _ _ _ => Unit
  | .applySetattr _ _ _ => Unit

namespace StateManager

/-- A section that fails leaves the state as it found it. -/
def commit {α : Type} (s : StateManager) (r : Except NfsStat4 (α × StateManager)) :
    Except NfsStat4 α × StateManager :=
  match r with
  | .ok (a, s') => (.ok a, s')
  | .error status => (.error status, s)

/-- `commit` for a section that answers with a status only. -/
def commitUnit (s : StateManager) (r : Except NfsStat4 StateManager) :
    Except NfsStat4 Unit × StateManager :=
  match r with
  | .ok s' => (.ok (), s')
  | .error status => (.error status, s)

/-- The effect of a section. -/
def runSection (s : StateManager) : (c : Section) → c.Ret × StateManager
  | .reapExpiredClients => ((), s.reapExpiredClients)
  | .exchangeId args => s.exchangeId args
  | .createSession args conn =>
    let s := s.reapExpiredClients
    s.commit (s.createSessionReaped args conn)
  | .destroySession sessionid conn =>
    let s := s.reapExpiredClients
    s.commitUnit (s.destroySessionReaped sessionid conn)
  | .destroyClientid clientid =>
    let s := s.reapExpiredClients
    s.commitUnit (s.destroyClientidReaped clientid)
  | .bindConnToSession args conn =>
    let s := s.reapExpiredClients
    s.commit (s.bindConnToSessionReaped args conn)
  | .sessionClientid sessionid => (s.sessionClientid sessionid, s)
  | .callbackConnectionIds clientid => (s.callbackConnectionIds clientid, s)
  | .nextCallbackTargetOn clientid conn => s.nextCallbackTargetOn clientid conn
  | .removeConnection conn => ((), s.removeConnection conn)
  | .reclaimComplete clientid oneFs =>
    let s := s.reapExpiredClients
    s.commitUnit (s.reclaimCompleteReaped clientid oneFs)
  | .validateOpenReclaim clientid claim => (s.validateOpenReclaim clientid claim, s)
  | .setClientId args => s.reapExpiredClients.setClientIdReaped args
  | .setClientIdConfirm args =>
    let s := s.reapExpiredClients
    s.commitUnit (s.setClientIdConfirmReaped args)
  | .renew clientid => s.commitUnit (s.renew clientid)
  | .hasConflictingShareDeny object access ignoreOpenOther =>
    (s.hasConflictingShareDeny object access ignoreOpenOther, s)
  | .createOpenState object owner access deny =>
    s.commit (s.createOpenState object owner access deny)
  | .confirmOpenState stateid => s.commit (s.confirmOpenState stateid)
  | .closeState stateid => s.commit (s.closeState stateid)
  | .freeStateid stateid => s.commitUnit (s.freeStateid stateid)
  | .testStateids stateids => (s.testStateids stateids, s)
  | .openDowngrade stateid access deny => s.commit (s.openDowngrade stateid access deny)
  | .hasConflictingIoLock object owner isWrite offset length ignoreStateid =>
    (s.hasConflictingIoLock object owner isWrite offset length ignoreStateid, s)
  | .findLockConflict object owner locktype offset length ignoreStateid =>
    (s.findLockConflict object owner locktype offset length ignoreStateid, s)
  | .createLockState openStateid owner object locktype offset length =>
    s.commit (s.createLockState openStateid owner object locktype offset length)
  | .updateLockState stateid locktype offset length =>
    s.commit (s.updateLockState stateid locktype offset length)
  | .unlockState stateid offset length => s.commit (s.unlockState stateid offset length)
  | .resolveConcrete clientid stateid => (s.resolveConcrete clientid stateid, s)
  | .grantDirectoryDelegation object clientid sessionid maxPerClient maxTotal =>
    s.commit (s.grantDirectoryDelegation object clientid sessionid maxPerClient maxTotal)
  | .returnDelegationState stateid clientid =>
    s.commitUnit (s.returnDelegationState stateid clientid)
  | .purgeClientDelegations clientid => ((), s.purgeClientDelegations clientid)
  | .beginDirectoryRecallExcluding object excluded =>
    s.beginDirectoryRecallExcluding object excluded
  | .writeDelegationsOver objects => (s.writeDelegationsOver objects, s)
  | .delegationRecallComplete stateid => (s.delegationRecallComplete stateid, s)
  | .revokeRecallableDelegation stateid => s.commitUnit (s.revokeRecallableDelegation stateid)
  | .dropBelonging ids => s.dropBelonging ids
  | .prepareSequence args fingerprint conn => s.prepareSequence args fingerprint conn
  | .finishSequence token response => s.commitUnit (s.finishSequence token response)
  | .ensureMeta object fileType => s.ensureMeta object fileType
  | .touchData object fileType => ((), s.touchData object fileType)
  | .touchMetadata object fileType => ((), s.touchMetadata object fileType)
  | .namedAttrCount object => (s.namedAttrCount object, s)
  | .setNamedAttrCount object fileType count => ((), s.setNamedAttrCount object fileType count)
  | .applySetattr object fileType attrs => ((), s.applySetattr object fileType attrs)

end StateManager

/-! ## Operations on the concurrent maps -/

/-- One operation outside the `inner` lock. -/
inductive MapOp where
  /-- `object_to_fh.get(object)`. -/
  | objectToFhGet (object : ServerObject)
  /-- `object_to_fh.entry(object)`: insert where vacant, else return the winner. -/
  | objectToFhEntry (object : ServerObject) (fh : Bytes)
  /-- `object_to_fh.remove(object)`. -/
  | objectToFhRemove (object : ServerObject)
  /-- `fh_to_object(fh)`: a check against constants, then `fh_to_object.get(fh)`. -/
  | fhToObject (fh : Bytes)
  /-- `fh_to_object.insert(fh, object)`. -/
  | fhToObjectInsert (fh : Bytes) (object : ServerObject)
  /-- `fh_to_object.entry(fh)` in `claim_persistent_fh`: whether the bytes name the object. -/
  | fhToObjectClaim (fh : Bytes) (object : ServerObject)
  /-- `fh_to_object.remove_if(fh, |_, o| o == object)`. -/
  | fhToObjectRemoveIf (fh : Bytes) (object : ServerObject)
  /-- `fh_to_object.remove(fh)`. -/
  | fhToObjectRemove (fh : Bytes)
  /-- One shard of the iteration over `fh_to_object`. -/
  | fhToObjectShard (shard : Nat)
  /-- `persistent_fh.get(id)`. -/
  | persistentFhGet (id : ObjectId)
  /-- `persistent_fh.remove(id)`. -/
  | persistentFhRemove (id : ObjectId)
  /-- `is_retired(object)`. -/
  | isRetired (object : ServerObject)
  /-- `retired_objects.insert(id)`. -/
  | retire (id : ObjectId)
  /-- `next_fh.fetch_add(1)`, with the boot-scoped filehandle made from the number. -/
  | nextBootFh
  /-- `next_connectionid.fetch_add(1)`. -/
  | allocConnectionId

/-- The type of a map operation's answer. -/
@[reducible] def MapOp.Ret : MapOp → Type
  | .objectToFhGet _ => Option Bytes
  | .objectToFhEntry _ _ => Option Bytes
  | .objectToFhRemove _ => Unit
  | .fhToObject _ => Option ServerObject
  | .fhToObjectInsert _ _ => Unit
  | .fhToObjectClaim _ _ => Bool
  | .fhToObjectRemoveIf _ _ => Unit
  | .fhToObjectRemove _ => Unit
  | .fhToObjectShard _ => List (Bytes × ServerObject)
  | .persistentFhGet _ => Option Bytes
  | .persistentFhRemove _ => Unit
  | .isRetired _ => Bool
  | .retire _ => Unit
  | .nextBootFh => Bytes
  | .allocConnectionId => U64

namespace StateManager

/-- The shard of `fh_to_object` that holds a filehandle. -/
def fhShard (s : StateManager) (fh : Bytes) : Nat := s.fhHash fh % (s.fhShardMask + 1)

/-- The effect of a map operation. -/
def runMapOp (s : StateManager) : (c : MapOp) → c.Ret × StateManager
  | .objectToFhGet object => (s.objectToFh.get object, s)
  | .objectToFhEntry object fh =>
    match s.objectToFh.get object with
    | some winner => (some winner, s)
    | none => (none, { s with objectToFh := s.objectToFh.insert object fh })
  | .objectToFhRemove object => ((), { s with objectToFh := s.objectToFh.erase object })
  | .fhToObject fh => (s.resolveFh fh, s)
  | .fhToObjectInsert fh object =>
    ((), { s with fhToObject := s.fhToObject.insert fh object })
  | .fhToObjectClaim fh object =>
    match s.fhToObject.get fh with
    | some holder => (decide (holder = object), s)
    | none => (true, { s with fhToObject := s.fhToObject.insert fh object })
  | .fhToObjectRemoveIf fh object =>
    ((), { s with fhToObject := s.fhToObject.retain fun fh' o => ¬(fh' = fh ∧ o = object) })
  | .fhToObjectRemove fh => ((), { s with fhToObject := s.fhToObject.erase fh })
  | .fhToObjectShard shard =>
    (s.fhToObject.entries.filter fun (fh, _) => s.fhShard fh = shard, s)
  | .persistentFhGet id => (s.persistentFh.get id, s)
  | .persistentFhRemove id => ((), { s with persistentFh := s.persistentFh.erase id })
  | .isRetired object => (s.isRetired object, s)
  | .retire id => ((), { s with retiredObjects := setInsert id s.retiredObjects })
  | .nextBootFh => (s.bootFh s.nextFh, { s with nextFh := s.nextFh + 1 })
  | .allocConnectionId =>
    (s.nextConnectionid, { s with nextConnectionid := s.nextConnectionid + 1 })

end StateManager

/-! ## What happens between steps -/

/-- The two sessions differ at most in the order of their connection sets. -/
structure SessionState.Reordered (a b : SessionState) : Prop where
  clientid : b.clientid = a.clientid
  slots : b.slots = a.slots
  backchannel : b.backchannel = a.backchannel
  foreConnections : a.foreConnections.Perm b.foreConnections
  backConnections : a.backConnections.Perm b.backConnections

/-- Between two steps clocks move on, and the iteration order of any hash map or hash set
may be a different one. -/
structure StateManager.Drift (s s' : StateManager) : Prop where
  clients : s.inner.clients.Same s'.inner.clients
  sessions : ∀ k, Option.Rel SessionState.Reordered (s.inner.sessions.get k)
    (s'.inner.sessions.get k)
  openFiles : s.inner.openFiles.Same s'.inner.openFiles
  lockFiles : s.inner.lockFiles.Same s'.inner.lockFiles
  delegations : s.inner.delegations.Same s'.inner.delegations
  dirDelegations : ∀ k, (indexed s.inner.dirDelegations k).Perm (indexed s'.inner.dirDelegations k)
  clientDelegations : ∀ k,
    (indexed s.inner.clientDelegations k).Perm (indexed s'.inner.clientDelegations k)
  metadata : s.inner.metadata.Same s'.inner.metadata
  fhToObject : s.fhToObject.Same s'.fhToObject
  objectToFh : s.objectToFh.Same s'.objectToFh
  persistentFh : s.persistentFh.Same s'.persistentFh
  retiredObjects : ∀ id, id ∈ s'.retiredObjects ↔ id ∈ s.retiredObjects
  nextFh : s'.nextFh = s.nextFh
  fhBootNonce : s'.fhBootNonce = s.fhBootNonce
  nextClientid : s'.nextClientid = s.nextClientid
  nextStateid : s'.nextStateid = s.nextStateid
  nextChangeid : s'.nextChangeid = s.nextChangeid
  nextSynthFileid : s'.nextSynthFileid = s.nextSynthFileid
  nextConnectionid : s'.nextConnectionid = s.nextConnectionid
  writeVerifier : s'.writeVerifier = s.writeVerifier
  clock : s.clock ≤ s'.clock
  fhHash : s'.fhHash = s.fhHash
  fhShardMask : s'.fhShardMask = s.fhShardMask

end EmbedNfs

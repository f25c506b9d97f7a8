import EmbedNfs.Session.Locks

/-!
# Retiring objects: the guarded sweep

`session/invalidate.rs`. Retiring a set of backend objects marks them, sweeps the filehandle
maps, and then drops every delegation, open, lock and metadata entry of theirs under the
`inner` lock. The last part is the section `dropBelonging`; the lock-free parts are issued
map operation by map operation in `EmbedNfs.Session.Filehandles`.
-/

namespace EmbedNfs

/-- What an invalidation pass removed. -/
structure InvalidationCounts where
  filehandles : Nat
  opens : Nat
  locks : Nat
  delegations : Nat
  metadata : Nat
  deriving DecidableEq, Repr

/-- `belongs_to`: named-attribute objects belong to the object they hang off. -/
def belongsTo (object : ServerObject) (ids : List ObjectId) : Bool := ids.contains object.root

theorem belongsTo_iff {object : ServerObject} {ids : List ObjectId} :
    belongsTo object ids = true ↔ object.root ∈ ids := by
  simp [belongsTo]

theorem belongsTo_eq_false {object : ServerObject} {ids : List ObjectId} :
    belongsTo object ids = false ↔ object.root ∉ ids := by
  rw [← belongsTo_iff, Bool.not_eq_true]

namespace StateManager

/-- The part of `invalidate_objects` under the `inner` lock, with the counts it adds. -/
def dropBelonging (s : StateManager) (ids : List ObjectId) : InvalidationCounts × StateManager :=
  let droppedDelegations :=
    s.inner.delegations.keysWhere fun _ state => belongsTo state.object ids
  let droppedOpens := s.inner.openFiles.keysWhere fun _ state => belongsTo state.object ids
  let droppedLocks := s.inner.lockFiles.keysWhere fun _ state => belongsTo state.object ids
  let metadata := s.inner.metadata.retain fun object _ => !belongsTo object ids
  ({ filehandles := 0
     opens := droppedOpens.length
     locks := droppedLocks.length
     delegations := droppedDelegations.length
     metadata := s.inner.metadata.entries.length - metadata.entries.length },
    { s with
      inner := { s.inner with
        delegations := droppedDelegations.foldl Table.erase s.inner.delegations
        clientDelegations := s.inner.clientDelegations.mapValues fun _ others =>
          others.filter fun other => other ∉ droppedDelegations
        dirDelegations := s.inner.dirDelegations.retain fun object _ => !belongsTo object ids
        openFiles := droppedOpens.foldl Table.erase s.inner.openFiles
        lockFiles := droppedLocks.foldl Table.erase s.inner.lockFiles
        metadata } })

end StateManager

end EmbedNfs

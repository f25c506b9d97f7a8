import EmbedNfs.Properties.FilehandleSweep
import EmbedNfs.Properties.LeaseReaping
import EmbedNfs.Server.Alone

/-!
# What an invalidation removes

`invalidate_objects` works through nine maps. Run alone, it leaves each of them without the entries
of the given objects and of what hangs off these, and it counts what it takes away. Eight of the
maps are filtered on their own. From `object_to_fh` the sweep takes the objects of the entries that
it has found in `fh_to_object`, so this one comes out right only where every object's filehandle
leads back to the object.
-/

namespace EmbedNfs

theorem length_flatMap_shards {β : Type} (shard : β → Nat) (l : List β) (n : Nat) :
    ((List.range n).flatMap fun i => l.filter fun b => shard b = i).length =
      (l.filter fun b => shard b < n).length := by
  induction n with
  | zero => simp
  | succ n ih =>
    have hsplit : (l.filter fun b => shard b < n + 1).length =
        (l.filter fun b => shard b < n).length + (l.filter fun b => shard b = n).length := by
      clear ih
      induction l with
      | nil => rfl
      | cons b l ih =>
        rcases Nat.lt_trichotomy (shard b) n with hlt | heq | hgt
        · simp only [List.filter_cons, decide_eq_true (Nat.lt_succ_of_lt hlt), decide_eq_true hlt,
            decide_eq_false (Nat.ne_of_lt hlt), Bool.false_eq_true, ↓reduceIte, List.length_cons,
            ih]
          omega
        · have hnext : shard b < n + 1 := by omega
          have hnot : ¬shard b < n := by omega
          simp only [List.filter_cons, decide_eq_true hnext, decide_eq_false hnot,
            decide_eq_true heq, Bool.false_eq_true, ↓reduceIte, List.length_cons, ih]
          omega
        · have hnext : ¬shard b < n + 1 := by omega
          have hnot : ¬shard b < n := by omega
          simp only [List.filter_cons, decide_eq_false hnext, decide_eq_false hnot,
            decide_eq_false (Nat.ne_of_gt hgt), Bool.false_eq_true, ↓reduceIte, ih]
    rw [List.range_succ, List.flatMap_append, List.length_append, ih, hsplit]
    simp

/-! ## The sweep -/

namespace StateManager

/-- What is left of the guarded tables. -/
def innerWithout (inner : StateInner) (ids : List ObjectId) : StateInner :=
  let dropped := inner.delegations.keysWhere fun _ state => belongsTo state.object ids
  { inner with
    delegations := inner.delegations.retain fun _ state => !belongsTo state.object ids
    clientDelegations := inner.clientDelegations.mapValues fun _ others =>
      others.filter fun other => !dropped.contains other
    dirDelegations := inner.dirDelegations.retain fun object _ => !belongsTo object ids
    openFiles := inner.openFiles.retain fun _ state => !belongsTo state.object ids
    lockFiles := inner.lockFiles.retain fun _ state => !belongsTo state.object ids
    metadata := inner.metadata.retain fun object _ => !belongsTo object ids }

/-- What is left of the state manager, with the given rest of `object_to_fh`. -/
def leftOver (s : StateManager) (ids : List ObjectId) (objectToFh : Table ServerObject Bytes) :
    StateManager :=
  { s with
    inner := innerWithout s.inner ids
    retiredObjects := ids.foldl (fun retired id => setInsert id retired) s.retiredObjects
    fhToObject := s.fhToObject.retain fun _ object => !belongsTo object ids
    objectToFh
    persistentFh := s.persistentFh.retain fun id _ => id ∉ ids }

/-- The counts of what there is of the objects. -/
def countOf (s : StateManager) (ids : List ObjectId) : InvalidationCounts where
  filehandles := (s.fhToObject.keysWhere fun _ object => belongsTo object ids).length
  opens := (s.inner.openFiles.keysWhere fun _ state => belongsTo state.object ids).length
  locks := (s.inner.lockFiles.keysWhere fun _ state => belongsTo state.object ids).length
  delegations := (s.inner.delegations.keysWhere fun _ state => belongsTo state.object ids).length
  metadata := (s.inner.metadata.keysWhere fun object _ => belongsTo object ids).length

theorem dropBelonging_eq (s : StateManager) (ids : List ObjectId) :
    s.dropBelonging ids = ({ s.countOf ids with filehandles := 0 },
      { s with inner := innerWithout s.inner ids }) := by
  have hmetadata := s.inner.metadata.length_keysWhere_add fun object _ => belongsTo object ids
  unfold dropBelonging innerWithout countOf
  simp only [Table.foldl_erase_keysWhere, List.contains_eq_mem, decide_not, Prod.mk.injEq,
    InvalidationCounts.mk.injEq, true_and, and_true]
  omega

/-- The entries of `fh_to_object` that the sweep finds. -/
def stale (s : StateManager) (ids : List ObjectId) : List (Bytes × ServerObject) :=
  (List.range (s.fhShardMask + 1)).flatMap fun shard =>
    (s.fhToObject.entries.filter fun e => s.fhShard e.1 = shard).filter fun e => belongsTo e.2 ids

theorem mem_stale {s : StateManager} {ids : List ObjectId} {fh : Bytes} {object : ServerObject} :
    (fh, object) ∈ s.stale ids ↔
      s.fhToObject.get fh = some object ∧ belongsTo object ids = true := by
  have hshard : s.fhShard fh < s.fhShardMask + 1 := Nat.mod_lt _ (Nat.succ_pos _)
  simp only [stale, List.mem_flatMap, List.mem_range, List.mem_filter, Table.mem_entries,
    decide_eq_true_eq]
  constructor
  · rintro ⟨shard, -, ⟨hget, -⟩, hbelongs⟩
    exact ⟨hget, hbelongs⟩
  · rintro ⟨hget, hbelongs⟩
    exact ⟨_, hshard, ⟨hget, rfl⟩, hbelongs⟩

theorem length_stale (s : StateManager) (ids : List ObjectId) :
    (s.stale ids).length = (s.countOf ids).filehandles := by
  have hshard : ∀ e : Bytes × ServerObject, s.fhShard e.1 < s.fhShardMask + 1 := fun e =>
    Nat.mod_lt _ (Nat.succ_pos _)
  have hcomm : s.stale ids = (List.range (s.fhShardMask + 1)).flatMap fun shard =>
      (s.fhToObject.entries.filter fun e => belongsTo e.2 ids).filter
        fun e => s.fhShard e.1 = shard := by
    unfold stale
    congr 1
    funext shard
    rw [List.filter_filter, List.filter_filter]
    exact List.filter_congr fun e _ => Bool.and_comm _ _
  rw [hcomm, length_flatMap_shards]
  simp [hshard, countOf, Table.keysWhere]

end StateManager

section

variable {H : Type}

theorem alone_collectStale (ids : List ObjectId) (shards : List Nat) (s : Server H) :
    Request.alone (collectStale ids shards) s = some (shards.flatMap fun shard =>
      (s.state.fhToObject.entries.filter fun e => s.state.fhShard e.1 = shard).filter
        fun e => belongsTo e.2 ids, s) := by
  induction shards with
  | nil => rfl
  | cons shard shards ih =>
    unfold collectStale
    refine (Request.alone_mapOp ..).trans ?_
    exact (Request.alone_bind_of_eq ih _).trans rfl

theorem alone_markRetired (ids : List ObjectId) (s : Server H) :
    Request.alone (markRetired ids) s = some ((), { s with
      state.retiredObjects := ids.foldl (fun retired id => setInsert id retired)
        s.state.retiredObjects }) := by
  unfold markRetired
  rw [Request.alone_each (g := fun s id =>
    { s with state.retiredObjects := setInsert id s.state.retiredObjects }) (fun _ _ => rfl)]
  congr 2
  induction ids generalizing s with
  | nil => rfl
  | cons id ids ih => exact ih _

theorem alone_removeStale (stale : List (Bytes × ServerObject)) (s : Server H) :
    Request.alone (removeStale stale) s = some ((), { s with
      state.fhToObject := (stale.map Prod.fst).foldl Table.erase s.state.fhToObject
      state.objectToFh := (stale.map Prod.snd).foldl Table.erase s.state.objectToFh }) := by
  unfold removeStale
  rw [Request.alone_each (g := fun s e => { s with
    state.fhToObject := s.state.fhToObject.erase e.1
    state.objectToFh := s.state.objectToFh.erase e.2 }) (fun _ _ => rfl)]
  congr 2
  induction stale generalizing s with
  | nil => rfl
  | cons e stale ih => exact ih _

theorem alone_persistentFhRemove (ids : List ObjectId) (s : Server H) :
    Request.alone (Program.each ids fun id => mapOp (.persistentFhRemove id)) s = some ((), { s with
      state.persistentFh := ids.foldl Table.erase s.state.persistentFh }) := by
  rw [Request.alone_each (g := fun s id =>
    { s with state.persistentFh := s.state.persistentFh.erase id }) (fun _ _ => rfl)]
  congr 2
  induction ids generalizing s with
  | nil => rfl
  | cons id ids ih => exact ih _

/-- **What `invalidate_objects` does alone.** -/
theorem alone_invalidateObjects_sweep {ids : List ObjectId} (hids : ids ≠ []) (s : Server H) :
    Request.alone (invalidateObjects (s.state.fhShardMask + 1) ids) s =
      some (s.state.countOf ids, { s with
        state := s.state.leftOver ids (s.state.objectToFh.retain fun object _ =>
          object ∉ (s.state.stale ids).map Prod.snd) }) := by
  have hfhs : ((s.state.stale ids).map Prod.fst).foldl Table.erase s.state.fhToObject =
      s.state.fhToObject.retain fun _ object => !belongsTo object ids := by
    rw [Table.foldl_erase_eq]
    refine Table.retain_congr fun e he => ?_
    have hget : s.state.fhToObject.get e.1 = some e.2 := Table.mem_entries.mp he
    have hmem : e.1 ∈ (s.state.stale ids).map Prod.fst ↔ belongsTo e.2 ids = true := by
      simp only [List.mem_map, Prod.exists, StateManager.mem_stale]
      constructor
      · rintro ⟨fh, object, ⟨hget', hbelongs⟩, rfl⟩
        cases hget.symm.trans hget'
        exact hbelongs
      · exact fun hbelongs => ⟨e.1, e.2, ⟨hget, hbelongs⟩, rfl⟩
    simp [hmem]
  rw [invalidateObjects_eq _ hids, Request.alone_bind_of_eq (alone_markRetired ids s)]
  unfold sweepObjects
  rw [Request.alone_bind_of_eq (alone_collectStale ..),
    Request.alone_bind_of_eq (alone_removeStale ..),
    Request.alone_bind_of_eq (alone_persistentFhRemove ..), Request.alone_guarded]
  simp only [StateManager.runSection, StateManager.dropBelonging_eq]
  refine congrArg some (Prod.ext ?_ ?_)
  · show { s.state.countOf ids with filehandles := (s.state.stale ids).length } = _
    rw [StateManager.length_stale]
  · have hobjects := s.state.objectToFh.foldl_erase_eq ((s.state.stale ids).map Prod.snd)
    have hpersistent := s.state.persistentFh.foldl_erase_eq ids
    show { s with
      state.inner := StateManager.innerWithout s.state.inner ids
      state.retiredObjects := ids.foldl (fun retired id => setInsert id retired)
        s.state.retiredObjects
      state.fhToObject := ((s.state.stale ids).map Prod.fst).foldl Table.erase s.state.fhToObject
      state.objectToFh := ((s.state.stale ids).map Prod.snd).foldl Table.erase s.state.objectToFh
      state.persistentFh := ids.foldl Table.erase s.state.persistentFh } = _
    rw [hfhs, hobjects, hpersistent]
    rfl

end

/-! ## What is left -/

namespace StateManager

/-- The filehandle of an object leads back to the object. -/
def Paired (s : StateManager) : Prop :=
  ∀ object fh, s.objectToFh.get object = some fh → s.fhToObject.get fh = some object

/-- The state manager without what belongs to the objects. -/
def without (s : StateManager) (ids : List ObjectId) : StateManager :=
  s.leftOver ids (s.objectToFh.retain fun object _ => !belongsTo object ids)

variable {s : StateManager} {ids : List ObjectId}

theorem Paired.without (h : s.Paired) : (s.without ids).Paired := by
  intro object fh hget
  obtain ⟨hget, hbelongs⟩ := Table.get_retain_eq_some.mp hget
  exact Table.get_retain_eq_some.mpr ⟨h object fh hget, hbelongs⟩

theorem innerWithout_innerWithout (inner : StateInner) (ids : List ObjectId) :
    innerWithout (innerWithout inner ids) ids = innerWithout inner ids := by
  have hkeys := inner.delegations.keysWhere_retain_not fun _ state => belongsTo state.object ids
  simp only [innerWithout, Table.retain_retain, hkeys]
  congr 1
  exact Table.mapValues_eq_self fun e _ => List.filter_eq_self.mpr fun _ _ => by simp

theorem without_without (s : StateManager) (ids : List ObjectId) :
    (s.without ids).without ids = s.without ids := by
  have hmarked : ∀ id ∈ ids, id ∈ ids.foldl (fun retired id => setInsert id retired)
      s.retiredObjects := fun id hid => mem_foldl_setInsert.mpr (Or.inl hid)
  have hretired := foldl_setInsert_of_subset hmarked
  simp only [without, leftOver, innerWithout_innerWithout, Table.retain_retain, hretired]

theorem countOf_without (s : StateManager) (ids : List ObjectId) :
    (s.without ids).countOf ids = ⟨0, 0, 0, 0, 0⟩ := by
  simp only [countOf, without, leftOver, innerWithout, Table.keysWhere_retain_not, List.length_nil]

theorem without_nil (s : StateManager) : s.without [] = s := by
  have hkeys : ∀ {K V : Type} (t : Table K V), t.keysWhere (fun _ _ => false) = [] := by
    intro K V t
    simp [Table.keysWhere]
  have hretain : ∀ {K V : Type} (t : Table K V), t.retain (fun _ _ => true) = t := fun t =>
    Table.retain_eq_self fun _ _ => rfl
  have hvalues : ∀ {K V : Type} (t : Table K (List V)),
      (t.mapValues fun _ others => others.filter fun _ => true) = t := fun t =>
    Table.mapValues_eq_self fun e _ => List.filter_eq_self.mpr fun _ _ => rfl
  have hbelongs : ∀ object, belongsTo object [] = false := fun _ => rfl
  simp only [without, leftOver, innerWithout, hbelongs, Bool.not_false, hretain, hkeys,
    List.contains_nil, List.not_mem_nil, not_false_eq_true, decide_true, hvalues, List.foldl_nil]

theorem countOf_nil (s : StateManager) : s.countOf [] = ⟨0, 0, 0, 0, 0⟩ := by
  have hbelongs : ∀ object, belongsTo object [] = false := fun _ => rfl
  simp [countOf, hbelongs, Table.keysWhere]

/-- Everything of the objects is gone, and the rest is as it was. -/
structure Invalidated (ids : List ObjectId) (s s' : StateManager) (counts : InvalidationCounts) :
    Prop where
  fhToObject : ∀ fh object, s'.fhToObject.get fh = some object ↔
    s.fhToObject.get fh = some object ∧ object.root ∉ ids
  objectToFh : ∀ object fh, s'.objectToFh.get object = some fh ↔
    s.objectToFh.get object = some fh ∧ object.root ∉ ids
  persistentFh : ∀ id fh, s'.persistentFh.get id = some fh ↔
    s.persistentFh.get id = some fh ∧ id ∉ ids
  openFiles : ∀ k state, s'.inner.openFiles.get k = some state ↔
    s.inner.openFiles.get k = some state ∧ state.object.root ∉ ids
  lockFiles : ∀ k state, s'.inner.lockFiles.get k = some state ↔
    s.inner.lockFiles.get k = some state ∧ state.object.root ∉ ids
  delegations : ∀ k state, s'.inner.delegations.get k = some state ↔
    s.inner.delegations.get k = some state ∧ state.object.root ∉ ids
  dirDelegations : ∀ object others, s'.inner.dirDelegations.get object = some others ↔
    s.inner.dirDelegations.get object = some others ∧ object.root ∉ ids
  clientDelegations : ∀ clientid k, k ∈ indexed s'.inner.clientDelegations clientid ↔
    k ∈ indexed s.inner.clientDelegations clientid ∧
      ∃ state, s.inner.delegations.get k = some state ∧ state.object.root ∉ ids
  metadata : ∀ object synth, s'.inner.metadata.get object = some synth ↔
    s.inner.metadata.get object = some synth ∧ object.root ∉ ids
  filehandleCount : counts.filehandles + s'.fhToObject.entries.length =
    s.fhToObject.entries.length
  openCount : counts.opens + s'.inner.openFiles.entries.length = s.inner.openFiles.entries.length
  lockCount : counts.locks + s'.inner.lockFiles.entries.length = s.inner.lockFiles.entries.length
  delegationCount : counts.delegations + s'.inner.delegations.entries.length =
    s.inner.delegations.entries.length
  metadataCount : counts.metadata + s'.inner.metadata.entries.length =
    s.inner.metadata.entries.length

theorem invalidated_without (htraced : s.inner.Traced) (ids : List ObjectId) :
    Invalidated ids s (s.without ids) (s.countOf ids) := by
  have hkeep : ∀ {object : ServerObject}, (!belongsTo object ids) = true ↔ object.root ∉ ids := by
    intro object
    rw [Bool.not_eq_true', belongsTo_eq_false]
  refine
    { fhToObject := fun fh object => Table.get_retain_eq_some.trans (and_congr_right' hkeep)
      objectToFh := fun object fh => Table.get_retain_eq_some.trans (and_congr_right' hkeep)
      persistentFh := fun id fh => Table.get_retain_eq_some.trans
        (and_congr_right' decide_eq_true_iff)
      openFiles := fun k state => Table.get_retain_eq_some.trans (and_congr_right' hkeep)
      lockFiles := fun k state => Table.get_retain_eq_some.trans (and_congr_right' hkeep)
      delegations := fun k state => Table.get_retain_eq_some.trans (and_congr_right' hkeep)
      dirDelegations := fun object others =>
        Table.get_retain_eq_some.trans (and_congr_right' hkeep)
      clientDelegations := fun clientid k => ?_
      metadata := fun object synth => Table.get_retain_eq_some.trans (and_congr_right' hkeep)
      filehandleCount := Table.length_keysWhere_add ..
      openCount := Table.length_keysWhere_add ..
      lockCount := Table.length_keysWhere_add ..
      delegationCount := Table.length_keysWhere_add ..
      metadataCount := Table.length_keysWhere_add .. }
  have hindexed : indexed (s.without ids).inner.clientDelegations clientid =
      (indexed s.inner.clientDelegations clientid).filter fun other =>
        !(s.inner.delegations.keysWhere fun _ state => belongsTo state.object ids).contains
          other := by
    show ((s.inner.clientDelegations.mapValues _).get clientid).getD [] = _
    rw [Table.get_mapValues, indexed]
    cases s.inner.clientDelegations.get clientid with
    | none => rfl
    | some others => rfl
  rw [hindexed, List.mem_filter]
  refine and_congr_right fun hk => ?_
  obtain ⟨state, hget, -⟩ := htraced.client clientid k hk
  simp only [List.contains_eq_mem, Bool.not_eq_true', decide_eq_false_iff_not,
    Table.mem_keysWhere, hget, Option.some.injEq, exists_eq_left', belongsTo_iff]

end StateManager

section

variable {H : Type}

/-- **What `invalidate_objects` does alone** where filehandles lead back to their objects. -/
theorem alone_invalidateObjects {s : Server H} (h : s.state.Paired) (ids : List ObjectId) :
    Request.alone (invalidateObjects (s.state.fhShardMask + 1) ids) s =
      some (s.state.countOf ids, { s with state := s.state.without ids }) := by
  by_cases hids : ids = []
  · subst hids
    rw [StateManager.countOf_nil, StateManager.without_nil]
    rfl
  · rw [alone_invalidateObjects_sweep hids]
    have hobjects : (s.state.objectToFh.retain fun object _ =>
        object ∉ (s.state.stale ids).map Prod.snd) =
          s.state.objectToFh.retain fun object _ => !belongsTo object ids := by
      refine Table.retain_congr fun e he => ?_
      have hget := h e.1 e.2 (Table.mem_entries.mp he)
      have hmem : e.1 ∈ (s.state.stale ids).map Prod.snd ↔ belongsTo e.1 ids = true := by
        simp only [List.mem_map, Prod.exists, StateManager.mem_stale]
        constructor
        · rintro ⟨fh, object, ⟨-, hbelongs⟩, rfl⟩
          exact hbelongs
        · exact fun hbelongs => ⟨e.2, e.1, ⟨hget, hbelongs⟩, rfl⟩
      simp [hmem]
    rw [hobjects]
    rfl

end

end EmbedNfs

import EmbedNfs.Effects.Metadata
import EmbedNfs.Properties.Retirement

/-!
# Metadata of retired objects

The sweep of an invalidation drops the synthetic metadata of the objects and of the named
attributes that hang off them. The sections that make metadata do not look at the retired set, so
a request that resolved an object before the sweep can make its metadata again after it. In runs
in which no such section is called for a retired object, the metadata stays gone.
-/

namespace EmbedNfs

/-- There is no metadata for the objects or for what hangs off them. -/
def StateInner.NoMetadata (inner : StateInner) (ids : List ObjectId) : Prop :=
  ∀ object entry, inner.metadata.get object = some entry → object.root ∉ ids

/-- Marks stay, and metadata of marked objects does not come back. -/
structure StateManager.KeepsMetadata (s s' : StateManager) : Prop where
  marked : ∀ id ∈ s.retiredObjects, id ∈ s'.retiredObjects
  without : ∀ ids, (∀ id ∈ ids, id ∈ s.retiredObjects) → s.inner.NoMetadata ids →
    s'.inner.NoMetadata ids

namespace StateManager

theorem KeepsMetadata.refl (s : StateManager) : s.KeepsMetadata s :=
  ⟨fun _ h => h, fun _ _ h => h⟩

theorem KeepsMetadata.trans {s s' s'' : StateManager} (h : s.KeepsMetadata s')
    (h' : s'.KeepsMetadata s'') : s.KeepsMetadata s'' :=
  ⟨fun id hid => h'.marked id (h.marked id hid), fun ids hids hnone =>
    h'.without ids (fun id hid => h.marked id (hids id hid)) (h.without ids hids hnone)⟩

theorem dropBelonging_noMetadata (s : StateManager) (ids : List ObjectId) :
    (s.dropBelonging ids).2.inner.NoMetadata ids := by
  intro object entry hget hmem
  obtain ⟨-, hkept⟩ := Table.get_retain_eq_some.mp hget
  rw [belongsTo_iff.mpr hmem] at hkept
  cases hkept

theorem runSection_keepsMetadata (s : StateManager) (c : Section)
    (h : ∀ object, c.metadataOf = some object → s.isRetired object = false) :
    s.KeepsMetadata (s.runSection c).2 := by
  refine ⟨(s.runSection_keepsRetirement c).marked, fun ids hids hnone object entry hget => ?_⟩
  cases hmeta : c.metadataOf with
  | some object' =>
    by_cases heq : object = object'
    · -- the object is not retired, and all of `ids` are
      intro hmem
      have hretired := h object' hmeta
      rw [← heq, StateManager.isRetired] at hretired
      simp [hids _ hmem] at hretired
    · rw [s.runSection_upTo hmeta object heq] at hget
      exact hnone object entry hget
  | none =>
    by_cases hdrop : ∃ ids', c = .dropBelonging ids'
    · obtain ⟨ids', rfl⟩ := hdrop
      exact hnone object entry (Table.get_retain_eq_some.mp hget).1
    · rw [(s.runSection_sameBeside hmeta fun ids' h => hdrop ⟨ids', h⟩).2] at hget
      exact hnone object entry hget

end StateManager

/-! ## Runs -/

section

variable {H : Type}

/-- A step that makes no metadata for an object that is retired. -/
def Event.SparesRetired (e : ServerEvent H) : Prop :=
  ∀ c object, e.call = .guarded c → c.metadataOf = some object →
    e.before.state.isRetired object = false

/-- The test for it. -/
def Event.sparesRetired (e : ServerEvent H) : Bool :=
  match e.call with
  | .guarded c => c.metadataOf.all fun object => !e.before.state.isRetired object
  | _ => true

theorem Event.sparesRetired_of_test {e : ServerEvent H}
    (h : e.sparesRetired = true) : e.SparesRetired := by
  intro c object hcall hmeta
  simpa [Event.sparesRetired, hcall, hmeta] using h

variable [DecidableEq H] {backend : Backend H}

theorem Server.exec_keepsMetadata {s s' : Server H} {c : Call H} {r : c.Ret}
    (h : (Server.system backend).exec s c r s')
    (hspares : ∀ q object, c = .guarded q → q.metadataOf = some object →
      s.state.isRetired object = false) : s.state.KeepsMetadata s'.state := by
  cases c with
  | guarded q =>
    rw [h.2]
    exact s.state.runSection_keepsMetadata q fun object => hspares q object rfl
  | mapOp q =>
    refine ⟨(Server.exec_keepsRetirement h).marked, fun ids _ hnone => ?_⟩
    rw [h.2]
    show (s.state.runMapOp q).2.inner.NoMetadata ids
    rw [s.state.runMapOp_inner q]
    exact hnone
  | _ =>
    obtain ⟨persistentFh, hs⟩ := Server.exec_other h (by simp) (by simp)
    rw [hs]
    exact ⟨fun _ h => h, fun _ _ h => h⟩

/-- All that the invalidation needs from the other threads: they keep retired objects without
metadata. -/
def metadataContract (H : Type) : Contract (Call H) Call.Ret (Server H) Unit where
  inv _ := True
  phase _ _ _ := ()
  rely _ s s' := s.state.KeepsMetadata s'.state
  guar _ _ _ _ _ := True
  rely_refl _ s := .refl s.state
  rely_trans _ _ _ _ := .trans

theorem invalidateObjects_noMetadata (shards : Nat) (ids : List ObjectId) (s : Server H) :
    (metadataContract H).Safe (Server.system backend)
      (fun _ _ s => s.Marked ids ∧ s.state.inner.NoMetadata ids) ()
      (invalidateObjects shards ids) s := by
  refine invalidateObjects_safe_of (metadataContract H) (fun _ _ _ _ _ => trivial)
    (fun _ _ _ h => h.marked) (fun _ _ _ h hmarks => h.without ids hmarks)
    (fun s => s.state.dropBelonging_noMetadata ids) (fun hnil s object entry _ => ?_) shards s
  rw [hnil]
  exact List.not_mem_nil

theorem StateManager.Drift.keepsMetadata {s s' : StateManager} (h : s.Drift s') :
    s.KeepsMetadata s' where
  marked := h.keepsRetirement.marked
  without _ _ hnone object entry hget := hnone object entry ((h.metadata object).trans hget)

end

/-- Let one thread run `invalidate_objects(ids)` and any other threads run any requests, from any
state, with their steps interleaved in any order, and let no step make metadata for an object that
is retired. In every state in which the thread has returned, there is no metadata for an object of
`ids` or for a named-attribute object that hangs off one. -/
theorem retired_metadata_gone {H α : Type} [DecidableEq H] {backend : Backend H}
    {ids : List ObjectId} {shards t : Nat} {f : InvalidationCounts → α} {a : α}
    {c₀ c : Machine H α}
    {tr : Trace H}
    (hthread : c₀.threads[t]? = some (f <$> invalidateObjects shards ids))
    (hrun : (Server.system backend).Run c₀ tr c) (hreturned : c.threads[t]? = some (.ret a))
    (hspares : ∀ e ∈ tr, e.SparesRetired) :
    ∀ object entry, c.state.state.inner.metadata.get object = some entry → object.root ∉ ids := by
  have hsafe : (metadataContract H).Safe (Server.system backend)
      (fun _ _ s => s.state.inner.NoMetadata ids) () (f <$> invalidateObjects shards ids)
      c₀.state := by
    rw [Program.map_eq]
    refine Contract.Safe.bind ((invalidateObjects_noMetadata shards ids c₀.state).mono ?_)
    exact fun _ _ s _ h s' _ hs => hs.without ids h.1 h.2
  obtain ⟨-, -, p, hp, hend⟩ := hrun.contract (m := ()) trivial
    (fun _ s s' _ h => ⟨trivial, h.state.keepsMetadata⟩)
    (fun tr₁ e tr₂ heq _ hexec => ⟨trivial, fun _ => Server.exec_keepsMetadata hexec
      (hspares e (by rw [heq]; simp))⟩) hthread hsafe
  rw [hreturned] at hp
  cases hp
  exact hend c.state trivial ((metadataContract H).rely_refl () c.state)

/-! ## OPENATTR beside a retirement -/

namespace Scripted

/-- The backend with one object, which has named attributes. -/
def attrBackend : Backend Unit := { Backend.single with xattrs := true }

def attrConfig : ServerConfig Unit := { config with backend := attrBackend }

/-- An operation with the object as current filehandle. -/
def attrOp (op : NfsArgop4) : Request Unit (NfsResop4 × CompoundState) :=
  handleOp attrConfig ⟨⟨.none⟩, none, none⟩ 1 op { minorversion := 1, currentFh := some fh }

/-- The root gets its filehandle; then OPENATTR and the retirement run as scheduled. -/
def attrRun (schedule : List Nat) :
    Trace Unit ×
      Machine Unit (NfsResop4 × CompoundState) :=
  (Server.scripted attrBackend .someFile).play
    ⟨Server.new Unit .fixed, [attrOp .putrootfh, retire, attrOp .openAttr]⟩
    (List.replicate 12 0 ++ schedule)

end Scripted

open Scripted

theorem attrRun_run (schedule : List Nat) :
    (Server.system attrBackend).Run
      ⟨Server.new Unit .fixed, [attrOp .putrootfh, retire, attrOp .openAttr]⟩
      (attrRun schedule).1 (attrRun schedule).2 :=
  (Server.scripted attrBackend .someFile).play_run _ _

/-- OPENATTR has made the metadata before the retirement, which drops it. -/
theorem retired_metadata_gone_openattr :
    let c := (attrRun (List.replicate 12 2 ++ List.replicate 12 1)).2
    ∀ object entry, c.state.state.inner.metadata.get object = some entry → object.root ∉ [1] := by
  intro c
  have hreturned : c.threads[1]?.any Program.returned = true := by decide +kernel
  obtain ⟨a, ha⟩ := Program.of_returned hreturned
  have hspares : (attrRun (List.replicate 12 2 ++ List.replicate 12 1)).1.all
      Event.sparesRetired = true := by
    decide +kernel
  exact retired_metadata_gone (t := 1) rfl (attrRun_run _) ha fun e he =>
    Event.sparesRetired_of_test (List.all_eq_true.mp hspares e he)

/-- OPENATTR resolves the object, the object is retired and swept, and OPENATTR makes metadata for
its attribute directory. -/
theorem retired_metadata_regained :
    let run := attrRun ([2] ++ List.replicate 12 1 ++ [2])
    (Server.system attrBackend).Run
      ⟨Server.new Unit .fixed, [attrOp .putrootfh, retire, attrOp .openAttr]⟩ run.1 run.2 ∧
    run.2.threads[1]?.any Program.returned = true ∧
    (run.2.state.state.inner.metadata.get (.namedAttrDir 1)).isSome = true :=
  ⟨attrRun_run _, by decide +kernel, by decide +kernel⟩

end EmbedNfs

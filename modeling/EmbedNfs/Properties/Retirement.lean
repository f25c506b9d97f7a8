import EmbedNfs.Effects.Calls
import EmbedNfs.Effects.Entries
import EmbedNfs.Server.Scripted

/-!
# Retirement is permanent

Once `invalidate_objects` has returned, no open, lock state or delegation is for one of the
retired objects, and none ever will be. The retired set is read without a lock while the
tables are guarded, so the order matters: the ids are marked first, every creation checks the
mark in the section in which it creates, and the sweep comes last. A creation before the
sweep is swept, and a creation after it sees the mark.
-/

namespace EmbedNfs

/-- No open, lock state or delegation belongs to the objects. -/
structure StateInner.Unheld (inner : StateInner) (ids : List ObjectId) : Prop where
  openFiles : ∀ k a, inner.openFiles.get k = some a → a.object.root ∉ ids
  lockFiles : ∀ k a, inner.lockFiles.get k = some a → a.object.root ∉ ids
  delegations : ∀ k a, inner.delegations.get k = some a → a.object.root ∉ ids

/-- The step from `s` to `s'` takes no mark back, and gives no entry to marked objects that
have none. -/
structure StateManager.KeepsRetirement (s s' : StateManager) : Prop where
  marked : ∀ id ∈ s.retiredObjects, id ∈ s'.retiredObjects
  unheld : ∀ ids, (∀ id ∈ ids, id ∈ s.retiredObjects) → s.inner.Unheld ids → s'.inner.Unheld ids

namespace StateManager

theorem KeepsRetirement.refl (s : StateManager) : s.KeepsRetirement s :=
  ⟨fun _ h => h, fun _ _ h => h⟩

theorem KeepsRetirement.trans {s s' s'' : StateManager} (h : s.KeepsRetirement s')
    (h' : s'.KeepsRetirement s'') : s.KeepsRetirement s'' :=
  ⟨fun id hid => h'.marked id (h.marked id hid),
    fun ids hids hs => h'.unheld ids (fun id hid => h.marked id (hids id hid)) (h.unheld ids hids hs)⟩

theorem root_not_mem_of_descends {V : Type} {identity : V → Identity} {s : StateManager}
    {t t' : Table StateidOther V} (h : EmbedNfs.Descends identity s t' t) {ids : List ObjectId}
    (hids : ∀ id ∈ ids, id ∈ s.retiredObjects)
    (ht : ∀ k a, t.get k = some a → (identity a).object.root ∉ ids) {k : StateidOther} {a : V}
    (ha : t'.get k = some a) : (identity a).object.root ∉ ids := by
  rcases h k a ha with ⟨b, hb, heq⟩ | ⟨hretired, -⟩
  · rw [heq]
    exact ht k b hb
  · intro hmem
    have := hids _ hmem
    simp [isRetired, this] at hretired

theorem runSection_keepsRetirement (s : StateManager) (c : Section) :
    s.KeepsRetirement (s.runSection c).2 := by
  have hd := s.runSection_descends c
  refine ⟨fun id hid => ?_, fun ids hids hs => ⟨?_, ?_, ?_⟩⟩
  · rw [(s.runSection_sameMaps c).retiredObjects]
    exact hid
  · exact fun k a => root_not_mem_of_descends hd.openFiles hids hs.openFiles
  · exact fun k a => root_not_mem_of_descends hd.lockFiles hids hs.lockFiles
  · exact fun k a => root_not_mem_of_descends hd.delegations hids hs.delegations

theorem runMapOp_keepsRetirement (s : StateManager) (c : MapOp) :
    s.KeepsRetirement (s.runMapOp c).2 := by
  refine ⟨fun id hid => ?_, fun ids _ hs => ?_⟩
  · cases c with
    | retire id' => exact mem_setInsert.mpr (Or.inr hid)
    | objectToFhEntry object fh =>
      simp only [runMapOp]
      split <;> exact hid
    | fhToObjectClaim fh object =>
      simp only [runMapOp]
      split <;> exact hid
    | _ => exact hid
  · rw [s.runMapOp_inner c]
    exact hs

theorem Drift.keepsRetirement {s s' : StateManager} (h : s.Drift s') : s.KeepsRetirement s' where
  marked id hid := (h.retiredObjects id).mpr hid
  unheld _ _ hs :=
    { openFiles := fun k a ha => hs.openFiles k a ((h.openFiles k).trans ha)
      lockFiles := fun k a ha => hs.lockFiles k a ((h.lockFiles k).trans ha)
      delegations := fun k a ha => hs.delegations k a ((h.delegations k).trans ha) }

theorem dropBelonging_unheld (s : StateManager) (ids : List ObjectId) :
    (s.dropBelonging ids).2.inner.Unheld ids := by
  have hswept : ∀ {V : Type} (t : Table StateidOther V) (object : V → ServerObject) k a,
      ((t.keysWhere fun _ state => belongsTo (object state) ids).foldl Table.erase t).get k =
        some a → (object a).root ∉ ids := by
    intro V t object k a ha hmem
    rw [Table.get_foldl_erase] at ha
    split at ha
    · cases ha
    · rename_i hk
      exact hk (Table.mem_keysWhere.mpr ⟨a, ha, belongsTo_iff.mpr hmem⟩)
  exact ⟨hswept _ _, hswept _ _, hswept _ _⟩

end StateManager

/-! ## Runs -/

/-- The objects are marked. -/
def Server.Marked {H : Type} (ids : List ObjectId) (s : Server H) : Prop :=
  ∀ id ∈ ids, id ∈ s.state.retiredObjects

theorem Server.Marked.step {H : Type} {ids : List ObjectId} {s s' : Server H} (h : s.Marked ids)
    (hs : s.state.KeepsRetirement s'.state) : s'.Marked ids :=
  fun id hid => hs.marked id (h id hid)

section

variable {H : Type} [DecidableEq H] {backend : Backend H}

theorem Server.exec_keepsRetirement {s s' : Server H} {c : Call H} {r : c.Ret}
    (h : (Server.system backend).exec s c r s') : s.state.KeepsRetirement s'.state := by
  cases c with
  | guarded q =>
    rw [h.2]
    exact s.state.runSection_keepsRetirement q
  | mapOp q =>
    rw [h.2]
    exact s.state.runMapOp_keepsRetirement q
  | _ =>
    obtain ⟨persistentFh, hs⟩ := Server.exec_other h (by simp) (by simp)
    rw [hs]
    exact ⟨fun _ h => h, fun _ _ h => h⟩

/-- All that a thread needs from the others: they keep retirements. -/
def retirementContract (H : Type) : Contract (Call H) Call.Ret (Server H) Unit where
  inv _ := True
  phase _ _ _ := ()
  rely _ s s' := s.state.KeepsRetirement s'.state
  guar _ _ _ _ _ := True
  rely_refl _ s := .refl s.state
  rely_trans _ _ _ _ := .trans

section

variable {ct : Contract (Call H) Call.Ret (Server H) Unit}

theorem markRetired_safe (hguar : ∀ m s c r s', ct.guar m s c r s')
    (hmarked : ∀ m s s', ct.rely m s s' → ∀ id ∈ s.state.retiredObjects,
      id ∈ s'.state.retiredObjects) (ids : List ObjectId) (s : Server H) :
    ct.Safe (Server.system backend) (fun _ _ s => s.Marked ids) () (markRetired ids) s := by
  let J := fun (todo : List ObjectId) (_ : Unit) (s : Server H) =>
    ∀ id ∈ ids, id ∉ todo → id ∈ s.state.retiredObjects
  have hloop : ct.Safe (Server.system backend) (fun m _ s => J [] m s) ()
      (markRetired ids) s := by
    refine Contract.Safe.each J ?_ ?_ fun id hid hnot => absurd hid hnot
    · exact fun _ s s' h hs id hid hnot => hmarked _ s s' hs id (h id hid hnot)
    intro id todo m s h
    refine Contract.Safe.perform fun s' _ hs r s'' hexec _ => ⟨hguar .., fun u _ hs' => ?_⟩
    intro id' hid' hnot
    refine hmarked _ s'' u hs' id' ?_
    rw [hexec.2]
    refine mem_setInsert.mpr ?_
    by_cases heq : id' = id
    · exact Or.inl heq
    · exact Or.inr (hmarked _ s s' hs id' (h id' hid' (by simp [heq, hnot])))
  exact hloop.mono fun _ _ s _ h id hid => h id hid (by simp)

/-- `invalidate_objects` ends with the objects marked, and with what the sweep brings about and the
other threads keep for marked objects. -/
theorem invalidateObjects_safe_of (ct : Contract (Call H) Call.Ret (Server H) Unit)
    {ids : List ObjectId} {G : Server H → Prop} (hguar : ∀ m s c r s', ct.guar m s c r s')
    (hmarked : ∀ m s s', ct.rely m s s' → ∀ id ∈ s.state.retiredObjects,
      id ∈ s'.state.retiredObjects)
    (hkept : ∀ m s s', ct.rely m s s' → s.Marked ids → G s → G s')
    (hswept : ∀ s : Server H, G { s with state := (s.state.dropBelonging ids).2 })
    (hempty : ids = [] → ∀ s, G s) (shards : Nat) (s : Server H) :
    ct.Safe (Server.system backend) (fun _ _ s => s.Marked ids ∧ G s) ()
      (invalidateObjects shards ids) s := by
  have hstable : ∀ {β : Type} (p : Request H β) (s : Server H), s.Marked ids →
      ct.Safe (Server.system backend) (fun _ _ s => s.Marked ids) () p s :=
    fun p s => Contract.Safe.of_stable
      (fun _ _ _ h hs id hid => hmarked _ _ _ hs id (h id hid)) fun _ _ _ _ _ h hexec =>
        ⟨hguar .., h.step (Server.exec_keepsRetirement hexec)⟩
  unfold invalidateObjects
  split
  · rename_i hids
    have hnil : ids = [] := List.isEmpty_iff.mp hids
    subst hnil
    exact fun s' _ _ => ⟨fun id hid => by simp at hid, hempty rfl s'⟩
  · refine Contract.Safe.bind ((markRetired_safe hguar hmarked ids s).mono fun _ _ s _ hs => ?_)
    refine Contract.Safe.bind ((hstable _ s hs).mono fun _ stale s _ hs => ?_)
    refine Contract.Safe.bind ((hstable _ s hs).mono fun _ _ s _ hs => ?_)
    refine Contract.Safe.bind ((hstable _ s hs).mono fun _ _ s _ hs => ?_)
    -- The sweep runs with the marks in place, so what it leaves stays that way.
    intro s' _ hrely r s'' hexec _
    refine ⟨hguar .., fun u _ hrely' => ?_⟩
    have hmarks : s''.Marked ids := Server.Marked.step
      (fun id hid => hmarked _ _ _ hrely id (hs id hid)) (Server.exec_keepsRetirement hexec)
    refine ⟨fun id hid => hmarked _ _ _ hrely' id (hmarks id hid),
      hkept _ _ _ hrely' hmarks ?_⟩
    rw [hexec.2]
    exact hswept s'

end

theorem invalidateObjects_safe (shards : Nat) (ids : List ObjectId) (s : Server H) :
    (retirementContract H).Safe (Server.system backend)
      (fun _ _ s => s.Marked ids ∧ s.state.inner.Unheld ids) () (invalidateObjects shards ids)
      s := by
  refine invalidateObjects_safe_of (retirementContract H) (fun _ _ _ _ _ => trivial)
    (fun _ _ _ h => h.marked) (fun _ _ _ h hmarks => h.unheld ids hmarks)
    (fun s => s.state.dropBelonging_unheld ids) (fun hnil s => ?_) shards s
  subst hnil
  constructor <;> simp

end

/-- **Retirement is permanent.** Let one thread run `invalidate_objects(ids)` and any other
threads run any requests, from any state, with their steps interleaved in any order. In every
state in which the thread has returned, no open, lock state or delegation is for an object of
`ids` or for a named-attribute object that hangs off one. -/
theorem retirement_permanent {H α : Type} [DecidableEq H] {backend : Backend H}
    {ids : List ObjectId} {shards t : Nat} {f : InvalidationCounts → α} {a : α}
    {c₀ c : Machine H α}
    {tr : Trace H}
    (hthread : c₀.threads[t]? = some (f <$> invalidateObjects shards ids))
    (hrun : (Server.system backend).Run c₀ tr c) (hreturned : c.threads[t]? = some (.ret a)) :
    (∀ k state, c.state.state.inner.openFiles.get k = some state → state.object.root ∉ ids) ∧
    (∀ k state, c.state.state.inner.lockFiles.get k = some state → state.object.root ∉ ids) ∧
    (∀ k state, c.state.state.inner.delegations.get k = some state →
      state.object.root ∉ ids) := by
  have hsafe : (retirementContract H).Safe (Server.system backend)
      (fun _ _ s => s.state.inner.Unheld ids) () (f <$> invalidateObjects shards ids)
      c₀.state := by
    rw [Program.map_eq]
    refine Contract.Safe.bind ((invalidateObjects_safe shards ids c₀.state).mono ?_)
    exact fun _ _ s _ h s' _ hs => hs.unheld ids h.1 h.2
  obtain ⟨-, -, p, hp, hend⟩ := hrun.contract (m := ()) trivial
    (fun _ s s' _ h => ⟨trivial, h.state.keepsRetirement⟩)
    (fun _ e _ _ _ hexec => ⟨trivial, fun _ => Server.exec_keepsRetirement hexec⟩) hthread hsafe
  rw [hreturned] at hp
  cases hp
  have hgone := hend c.state trivial ((retirementContract H).rely_refl () c.state)
  exact ⟨hgone.openFiles, hgone.lockFiles, hgone.delegations⟩

open Scripted

/-- The object is retired while both clients have it open and one of them opens it again. -/
theorem retirement_permanent_reopened :
    let c := (run [retire, openBy 2 1 0]
      (List.replicate 2 6 ++ List.replicate 2 5 ++ List.replicate 9 6 ++ List.replicate 9 5)).2
    ∀ k state, c.state.state.inner.openFiles.get k = some state → state.object.root ∉ [1] := by
  intro c
  have hreturned : c.threads[5]?.any Program.returned = true := by decide +kernel
  obtain ⟨a, ha⟩ := Program.of_returned hreturned
  exact (retirement_permanent (t := 5) rfl (run_run _ _) ha).1

end EmbedNfs

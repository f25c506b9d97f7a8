import EmbedNfs.Properties.Retirement

/-!
# Filehandle mappings and retirement

Minting publishes a filehandle in two maps without holding a lock, while `invalidate_objects`
scans and sweeps the same maps. Whoever makes a mapping for a retired object has to take it
back: the sweep answers for the mappings it can still see, and a minting thread for the one
it has just inserted. The invariant of this module keeps, for every mapping of a retired
object, somebody whose remaining program is bound to remove it.

One path of minting breaks the rule. A thread that re-inserts a persistent filehandle and
then finds exactly this filehandle already published returns without looking at the retired
set again.
-/

namespace EmbedNfs

section

variable {H : Type}

/-! ## Insertions and removals -/

/-- The call takes the mapping from the filehandle to the object out of `fh_to_object`. -/
def Call.Removes (fh : Bytes) (object : ServerObject) : Call H → Prop
  | .mapOp (.fhToObjectRemove fh') => fh' = fh
  | .mapOp (.fhToObjectRemoveIf fh' object') => fh' = fh ∧ object' = object
  | _ => False

/-- The call, answered so, may have put the mapping into `fh_to_object`. -/
def Call.Inserts (fh : Bytes) (object : ServerObject) : (c : Call H) → c.Ret → Prop
  | .mapOp (.fhToObjectInsert fh' object'), _ => fh' = fh ∧ object' = object
  | .mapOp (.fhToObjectClaim fh' object'), r => r = true ∧ fh' = fh ∧ object' = object
  | _, _ => False

/-- What a call may answer about a mapping that is there: the scan of its shard lists it. -/
def Call.SeesMapping (hash : Bytes → Nat) (mask : Nat) (fh : Bytes) (object : ServerObject) :
    (c : Call H) → c.Ret → Prop
  | .mapOp (.fhToObjectShard shard), r => shard = hash fh % (mask + 1) → (fh, object) ∈ r
  | _, _ => True

/-- What a call may answer about a retired object, if nobody publishes a filehandle of such an
object twice. -/
def Call.SeesRetired (fh : Bytes) (object : ServerObject) : (c : Call H) → c.Ret → Prop
  | .mapOp (.isRetired object'), r => object' = object → r = true
  | .mapOp (.objectToFhEntry object' fh'), r => object' = object → fh' = fh → r ≠ some fh
  | _, _ => True

/-- The publishing step of `object_to_fh` does not find its own filehandle published already
for an object that is retired. -/
def Server.publishSafe (s : Server H) : Call H → Bool
  | .mapOp (.objectToFhEntry object fh) =>
    !s.state.isRetired object || s.state.objectToFh.get object ≠ some fh
  | _ => true

variable {fh : Bytes} {object : ServerObject}

theorem StateManager.get_fhToObject_runMapOp (s : StateManager) (q : MapOp)
    (h : (s.runMapOp q).2.fhToObject.get fh = some object) :
    (s.fhToObject.get fh = some object ∧ ¬(Call.mapOp q : Call H).Removes fh object) ∨
      (Call.mapOp q : Call H).Inserts fh object (s.runMapOp q).1 := by
  cases q with
  | fhToObjectInsert fh' object' =>
    rcases Table.of_get_insert h with ⟨rfl, rfl⟩ | ⟨-, h⟩
    · exact Or.inr ⟨rfl, rfl⟩
    · exact Or.inl ⟨h, id⟩
  | fhToObjectClaim fh' object' =>
    cases hholder : s.fhToObject.get fh' with
    | some holder =>
      simp only [runMapOp, hholder] at h
      exact Or.inl ⟨h, id⟩
    | none =>
      simp only [runMapOp, hholder] at h ⊢
      rcases Table.of_get_insert h with ⟨rfl, rfl⟩ | ⟨-, h⟩
      · exact Or.inr ⟨rfl, rfl, rfl⟩
      · exact Or.inl ⟨h, id⟩
  | fhToObjectRemoveIf fh' object' =>
    obtain ⟨hget, hkeep⟩ := Table.get_retain_eq_some.mp h
    refine Or.inl ⟨hget, ?_⟩
    rintro ⟨rfl, rfl⟩
    simp at hkeep
  | fhToObjectRemove fh' =>
    rw [runMapOp, Table.get_erase] at h
    split at h
    · cases h
    · rename_i hfh
      exact Or.inl ⟨h, fun hr => hfh hr.symm⟩
  | objectToFhEntry object' fh' =>
    simp only [runMapOp] at h
    split at h
    · exact Or.inl ⟨h, id⟩
    · exact Or.inl ⟨h, id⟩
  | _ => exact Or.inl ⟨h, id⟩

variable [DecidableEq H] {backend : Backend H} {s s' : Server H} {c : Call H} {r : c.Ret}

/-- A mapping found after a call was there before and is not one that the call removes, or
the call has inserted it. -/
theorem Server.get_fhToObject_exec (h : (Server.system backend).exec s c r s')
    (hget : s'.state.fhToObject.get fh = some object) :
    (s.state.fhToObject.get fh = some object ∧ ¬c.Removes fh object) ∨
      c.Inserts fh object r := by
  cases c with
  | guarded q =>
    rw [h.2] at hget
    rw [← (s.state.runSection_sameMaps q).fhToObject]
    exact Or.inl ⟨hget, id⟩
  | mapOp q =>
    obtain ⟨rfl, rfl⟩ := h
    exact s.state.get_fhToObject_runMapOp q hget
  | _ =>
    obtain ⟨persistentFh, hs⟩ := Server.exec_other h (by simp) (by simp)
    rw [hs] at hget
    exact Or.inl ⟨hget, id⟩

theorem Server.exec_fhShards (h : (Server.system backend).exec s c r s') :
    s'.state.fhHash = s.state.fhHash ∧ s'.state.fhShardMask = s.state.fhShardMask := by
  cases c with
  | guarded q =>
    rw [h.2]
    have hmaps := s.state.runSection_sameMaps q
    exact ⟨congrArg Maps.fhHash hmaps, congrArg Maps.fhShardMask hmaps⟩
  | mapOp q =>
    rw [h.2]
    cases q with
    | objectToFhEntry object fh =>
      simp only [StateManager.runMapOp]
      split <;> exact ⟨rfl, rfl⟩
    | fhToObjectClaim fh object =>
      simp only [StateManager.runMapOp]
      split <;> exact ⟨rfl, rfl⟩
    | _ => exact ⟨rfl, rfl⟩
  | _ =>
    obtain ⟨persistentFh, hs⟩ := Server.exec_other h (by simp) (by simp)
    rw [hs]
    exact ⟨rfl, rfl⟩

theorem Call.seesMapping_of_exec (h : (Server.system backend).exec s c r s')
    (hget : s.state.fhToObject.get fh = some object) :
    c.SeesMapping s.state.fhHash s.state.fhShardMask fh object r := by
  cases c with
  | mapOp q =>
    cases q with
    | fhToObjectShard shard =>
      intro hshard
      rw [h.1]
      exact List.mem_filter.mpr ⟨Table.mem_entries.mpr hget, by simp [StateManager.fhShard, hshard]⟩
    | _ => trivial
  | _ => trivial

theorem Call.seesRetired_of_exec (h : (Server.system backend).exec s c r s')
    (hretired : s.state.isRetired object = true) (hsafe : s.publishSafe c = true) :
    c.SeesRetired fh object r := by
  cases c with
  | mapOp q =>
    cases q with
    | isRetired object' =>
      rintro rfl
      rw [h.1]
      exact hretired
    | objectToFhEntry object' fh' =>
      rintro rfl rfl hr
      have hne : s.state.objectToFh.get object' ≠ some fh' := by
        simpa [Server.publishSafe, hretired] using hsafe
      rw [h.1] at hr
      simp only [StateManager.runMapOp] at hr
      split at hr
      · rename_i winner hwinner
        exact hne (hwinner.trans hr)
      · cases hr
    | _ => trivial
  | _ => trivial

end

/-! ## Obligations of the threads -/

section

variable {H α : Type} {fh : Bytes} {object : ServerObject}

/-- While the object is retired, the program is bound to remove the mapping. -/
def Owes (fh : Bytes) (object : ServerObject) (p : Request H α) : Prop :=
  p.Inevitable (Call.Removes fh object) (Call.SeesRetired fh object)

/-- While the mapping is there, the program is bound to remove it. -/
def Sweeps (hash : Bytes → Nat) (mask : Nat) (fh : Bytes) (object : ServerObject)
    (p : Request H α) : Prop :=
  p.Inevitable (Call.Removes fh object) (Call.SeesMapping hash mask fh object)

/-- After every insertion of a mapping the program is bound to remove it again, should the
object be retired. -/
def Tidy : Request H α → Prop
  | .ret _ => True
  | .call c k => ∀ r, (∀ fh object, c.Inserts fh object r → Owes fh object (k r)) ∧ Tidy (k r)

/-- The call inserts no mapping. -/
def Call.InsertsNothing (c : Call H) : Prop := ∀ fh object r, ¬c.Inserts fh object r

theorem Tidy.of_all {p : Request H α} (h : p.All Call.InsertsNothing) : Tidy p := by
  induction p with
  | ret a => trivial
  | call c k ih => exact fun r => ⟨fun fh object hi => absurd hi (h.1 fh object r), ih r (h.2 r trivial)⟩

theorem publishFh_owes (object : ServerObject) (fh : Bytes) (g : Option Bytes → α) :
    Owes (H := H) fh object (g <$> publishFh object fh) := by
  refine Or.inr fun r hr => ?_
  cases r with
  | some winner =>
    have hne : winner ≠ fh := fun h => hr rfl rfl (congrArg some h)
    show Owes fh object (g <$> (if winner ≠ fh then _ else _))
    rw [if_pos hne]
    exact Or.inl ⟨rfl, rfl⟩
  | none =>
    refine Or.inr fun r hr => ?_
    cases hr rfl
    exact Or.inl rfl

theorem publishFh_tidy (object : ServerObject) (fh : Bytes) (g : Option Bytes → α) :
    Tidy (H := H) (g <$> publishFh object fh) := by
  refine Tidy.of_all ⟨fun _ _ _ => id, fun r _ => ?_⟩
  cases r with
  | some winner =>
    show Program.All Call.InsertsNothing (g <$> (if winner ≠ fh then _ else _))
    split
    · exact ⟨fun _ _ _ => id, fun _ _ => trivial⟩
    · trivial
  | none =>
    refine ⟨fun _ _ _ => id, fun r _ => ?_⟩
    cases r with
    | true => exact ⟨fun _ _ _ => id, fun _ _ => ⟨fun _ _ _ => id, fun _ _ => trivial⟩⟩
    | false => trivial

theorem objectToFh_tidy (object : ServerObject) (g : Option Bytes → α) :
    Tidy (H := H) (g <$> objectToFh object) := by
  have hboot : Tidy (H := H) (g <$> (do
      let fh ← mapOp .nextBootFh
      mapOp (.fhToObjectInsert fh object)
      publishFh object fh)) := by
    refine fun fh => ⟨fun _ _ h => h.elim, fun _ => ⟨?_, publishFh_tidy object fh g⟩⟩
    rintro _ _ ⟨rfl, rfl⟩
    exact publishFh_owes object fh g
  refine fun r => ⟨fun _ _ h => h.elim, ?_⟩
  cases r with
  | some fh => trivial
  | none =>
    refine fun r => ⟨fun _ _ h => h.elim, ?_⟩
    cases r with
    | true => trivial
    | false =>
      cases object with
      | fs id =>
        refine fun r => ⟨fun _ _ h => h.elim, ?_⟩
        cases r with
        | none => exact hboot
        | some fh =>
          intro r
          cases r with
          | true =>
            refine ⟨?_, publishFh_tidy (.fs id) fh g⟩
            rintro _ _ ⟨-, rfl, rfl⟩
            exact publishFh_owes (.fs id) fh g
          | false => exact ⟨fun _ _ h => absurd h.1 (by simp), hboot⟩
      | namedAttrDir id => exact hboot
      | namedAttrFile parent name => exact hboot

end

/-! ## The sweep -/

section

variable {H α : Type} {ids : List ObjectId} {fh : Bytes} {object : ServerObject}
  {hash : Bytes → Nat} {mask : Nat}

/-- What is left of `invalidate_objects` once the ids are marked. -/
def sweepObjects (shards : Nat) (ids : List ObjectId) : Request H InvalidationCounts := do
  let stale ← collectStale ids (List.range shards)
  removeStale stale
  Program.each ids fun id => mapOp (.persistentFhRemove id)
  let counts ← guarded (.dropBelonging ids)
  return { counts with filehandles := stale.length }

theorem invalidateObjects_eq (shards : Nat) (h : ids ≠ []) :
    (invalidateObjects shards ids : Request H InvalidationCounts) =
      markRetired ids >>= fun _ => sweepObjects shards ids := by
  unfold invalidateObjects
  rw [if_neg (by simpa using h)]
  rfl

theorem collectStale_ensures (hobject : object.root ∈ ids) {shards : List Nat}
    (hshard : hash fh % (mask + 1) ∈ shards) :
    (collectStale ids shards : Request H _).Ensures (Call.SeesMapping hash mask fh object)
      (fun stale => (fh, object) ∈ stale) := by
  induction shards with
  | nil => cases hshard
  | cons shard shards ih =>
    refine ⟨trivial, fun entries hentries => ?_⟩
    change Program.Ensures (Call.SeesMapping hash mask fh object) _ (collectStale ids shards >>= fun rest =>
      .ret ((entries.filter fun e => belongsTo e.2 ids) ++ rest))
    refine Program.Along.bind (Q := fun rest => (fh, object) ∈
      (entries.filter fun e => belongsTo e.2 ids) ++ rest) ?_ fun rest h => h
    rcases List.mem_cons.mp hshard with heq | hshard
    · have hmem : (fh, object) ∈ entries.filter fun e => belongsTo e.2 ids :=
        List.mem_filter.mpr ⟨hentries heq.symm, belongsTo_iff.mpr hobject⟩
      exact (Program.Ensures.trivial _).imp fun rest _ => List.mem_append_left _ hmem
    · exact (ih hshard).imp fun rest h => List.mem_append_right _ h

theorem sweepObjects_sweeps (hobject : object.root ∈ ids) (f : InvalidationCounts → α) :
    Sweeps (H := H) hash mask fh object (f <$> sweepObjects (mask + 1) ids) := by
  refine Program.Inevitable.bind (.of_ensures (collectStale_ensures hobject ?_) fun stale h => ?_)
  · exact List.mem_range.mpr (Nat.mod_lt _ (Nat.succ_pos mask))
  · refine Program.Inevitable.bind (Program.Inevitable.each h ?_)
    exact Or.inl rfl

theorem markRetired_insertsNothing (ids : List ObjectId) :
    (markRetired ids : Request H Unit).All Call.InsertsNothing :=
  .each fun _ _ => ⟨fun _ _ _ => id, fun _ _ => trivial⟩

theorem sweepObjects_insertsNothing (shards : Nat) (ids : List ObjectId) :
    (sweepObjects shards ids : Request H _).All Call.InsertsNothing := by
  have hcollect : ∀ shards, (collectStale ids shards : Request H _).All Call.InsertsNothing := by
    intro shards
    induction shards with
    | nil => trivial
    | cons shard shards ih => exact ⟨fun _ _ _ => id, fun _ _ => ih.bind fun _ => trivial⟩
  refine (hcollect _).bind fun stale =>
    Program.All.bind (.each fun _ _ => ?_) fun _ => Program.All.bind (.each ?_) fun _ => ?_
  · exact ⟨fun _ _ _ => id, fun _ _ => ⟨fun _ _ _ => id, fun _ _ => trivial⟩⟩
  · exact fun _ _ => ⟨fun _ _ _ => id, fun _ _ => trivial⟩
  · exact ⟨fun _ _ _ => id, fun _ _ => trivial⟩

end

/-! ## Runs -/

section

variable {H α : Type} {ids : List ObjectId} {t : Nat} {rest : Request H α}
  {hash : Bytes → Nat} {mask : Nat}

/-- Somebody answers for every mapping of the objects. Thread `t` is the one that marks the
ids and goes on with `rest`. -/
structure Attended (ids : List ObjectId) (t : Nat) (rest : Request H α) (hash : Bytes → Nat)
    (mask : Nat) (c : Machine H α) : Prop where
  fhHash : c.state.state.fhHash = hash
  fhShardMask : c.state.state.fhShardMask = mask
  tidy : ∀ (u : Nat) p, c.threads[u]? = some p → Tidy p
  marking :
    (∃ todo, c.threads[t]? = some (markRetired todo >>= fun _ => rest) ∧
      ∀ id ∈ ids, id ∈ c.state.state.retiredObjects ∨ id ∈ todo) ∨ c.state.Marked ids
  attended : ∀ fh object, c.state.state.fhToObject.get fh = some object → object.root ∈ ids →
    (∃ p, c.threads[t]? = some p ∧ Sweeps hash mask fh object p) ∨
      (c.state.Marked ids ∧ ∃ (u : Nat) (p : Request H α), c.threads[u]? = some p ∧ Owes fh object p)

theorem Attended.step [DecidableEq H] {backend : Backend H} {s s' : Server H}
    {ts : List (Request H α)} {u : Nat} {q : Call H} {k : q.Ret → Request H α} {r : q.Ret}
    (hrest : ∀ fh object, object.root ∈ ids → Sweeps hash mask fh object rest)
    (h : Attended ids t rest hash mask ⟨s, ts⟩) (hthread : ts[u]? = some (.call q k))
    (hexec : (Server.system backend).exec s q r s') (hsafe : s.publishSafe q = true) :
    Attended ids t rest hash mask ⟨s', ts.set u (k r)⟩ := by
  have hkeeps := Server.exec_keepsRetirement hexec
  have hu : (ts.set u (k r))[u]? = some (k r) :=
    List.getElem?_set_self (List.getElem?_eq_some_iff.mp hthread).1
  have hne : ∀ v, u ≠ v → (ts.set u (k r))[v]? = ts[v]? := fun v hv => List.getElem?_set_ne hv
  have htidy := h.tidy u _ hthread r
  have hmarking : (∃ todo, (ts.set u (k r))[t]? = some (markRetired todo >>= fun _ => rest) ∧
      ∀ id ∈ ids, id ∈ s'.state.retiredObjects ∨ id ∈ todo) ∨ s'.Marked ids := by
    rcases h.marking with ⟨todo, ht, htodo⟩ | hmarked
    · by_cases hut : u = t
      · subst hut
        cases todo with
        | nil =>
          exact Or.inr fun id hid => hkeeps.marked id ((htodo id hid).resolve_right (by simp))
        | cons id todo =>
          -- The step of thread `t` marks the next id.
          cases hthread.symm.trans ht
          refine Or.inl ⟨todo, hu, fun id' hid' => ?_⟩
          rw [hexec.2]
          rcases htodo id' hid' with hret | htodo
          · exact Or.inl (mem_setInsert.mpr (Or.inr hret))
          · rcases List.mem_cons.mp htodo with rfl | htodo
            · exact Or.inl (mem_setInsert.mpr (Or.inl rfl))
            · exact Or.inr htodo
      · exact Or.inl ⟨todo, (hne t hut).trans ht,
          fun id hid => (htodo id hid).imp_left (hkeeps.marked id)⟩
    · exact Or.inr (hmarked.step hkeeps)
  obtain ⟨hhash, hmask⟩ := Server.exec_fhShards hexec
  refine ⟨hhash.trans h.fhHash, hmask.trans h.fhShardMask, ?_, hmarking, ?_⟩
  · intro v p hp
    by_cases huv : u = v
    · subst huv
      cases hu.symm.trans hp
      exact htidy.2
    · exact h.tidy v p ((hne v huv).symm.trans hp)
  · intro fh object hget hroot
    rcases Server.get_fhToObject_exec hexec hget with ⟨hold, hkept⟩ | hinserted
    · rcases h.attended fh object hold hroot with ⟨p, ht, hsweeps⟩ | ⟨hmarked, v, p, hv, howes⟩
      · refine Or.inl ?_
        by_cases hut : u = t
        · subst hut
          cases hthread.symm.trans ht
          have hsees := Call.seesMapping_of_exec hexec hold
          rw [h.fhHash, h.fhShardMask] at hsees
          exact ⟨k r, hu, (hsweeps.resolve_left hkept) r hsees⟩
        · exact ⟨p, (hne t hut).trans ht, hsweeps⟩
      · refine Or.inr ⟨hmarked.step hkeeps, ?_⟩
        by_cases huv : u = v
        · subst huv
          cases hthread.symm.trans hv
          have hretired : s.state.isRetired object = true := by
            simpa [StateManager.isRetired] using hmarked _ hroot
          exact ⟨u, k r, hu,
            (howes.resolve_left hkept) r (Call.seesRetired_of_exec hexec hretired hsafe)⟩
        · exact ⟨v, p, (hne v huv).trans hv, howes⟩
    · -- A new mapping: swept if the scan is still to come, else owed by the one who made it.
      rcases hmarking with ⟨todo, ht, -⟩ | hmarked
      · exact Or.inl ⟨_, ht, .of_ensures (.trivial _) fun _ _ => hrest fh object hroot⟩
      · exact Or.inr ⟨hmarked, u, k r, hu, htidy.1 fh object hinserted⟩

theorem Attended.drift [DecidableEq H] {s s' : Server H} {ts : List (Request H α)}
    (h : Attended ids t rest hash mask ⟨s, ts⟩) (hdrift : s.Drift s') :
    Attended ids t rest hash mask ⟨s', ts⟩ := by
  have hkeeps := hdrift.state.keepsRetirement
  refine ⟨hdrift.state.fhHash.trans h.fhHash, hdrift.state.fhShardMask.trans h.fhShardMask, h.tidy, ?_, ?_⟩
  · rcases h.marking with ⟨todo, ht, htodo⟩ | hmarked
    · exact Or.inl ⟨todo, ht, fun id hid => (htodo id hid).imp_left (hkeeps.marked id)⟩
    · exact Or.inr (hmarked.step hkeeps)
  · intro fh object hget hroot
    rcases h.attended fh object ((hdrift.state.fhToObject fh).trans hget) hroot with
      hsweeps | ⟨hmarked, howes⟩
    · exact Or.inl hsweeps
    · exact Or.inr ⟨hmarked.step hkeeps, howes⟩

end

/-- **No filehandle outlives a retirement.** Let one thread run `invalidate_objects(ids)` and
any number of others `object_to_fh`, from any state, interleaved map operation by map
operation. If no publishing step finds its own filehandle already published for a retired
object, then, once all have returned, no filehandle maps to an object of `ids` or to a
named-attribute object that hangs off one. -/
theorem no_filehandle_outlives {H α : Type} [DecidableEq H] {backend : Backend H}
    {ids : List ObjectId} {t : Nat} {f : InvalidationCounts → α}
    {c₀ c : Machine H α}
    {tr : Trace H}
    (hinvalidate : c₀.threads[t]? =
      some (f <$> invalidateObjects (c₀.state.state.fhShardMask + 1) ids))
    (hmint : ∀ u p, u ≠ t → c₀.threads[u]? = some p →
      ∃ (object : ServerObject) (g : Option Bytes → α), p = g <$> objectToFh object)
    (hrun : (Server.system backend).Run c₀ tr c)
    (hsafe : ∀ e ∈ tr, e.before.publishSafe e.call = true)
    (hreturned : ∀ p ∈ c.threads, p.returned = true) (fh : Bytes) (object : ServerObject)
    (hget : c.state.state.fhToObject.get fh = some object) : object.root ∉ ids := by
  rcases eq_or_ne ids [] with rfl | hids
  · simp
  let mask := c₀.state.state.fhShardMask
  let rest : Request H α := f <$> sweepObjects (mask + 1) ids
  have hrest : ∀ fh object, object.root ∈ ids →
      Sweeps c₀.state.state.fhHash mask fh object rest :=
    fun fh object hroot => sweepObjects_sweeps hroot f
  have hstart : c₀.threads[t]? = some (markRetired ids >>= fun _ => rest) := by
    rw [hinvalidate, invalidateObjects_eq _ hids, Program.map_eq, Program.bind_assoc]
    rfl
  have hinit : Attended ids t rest c₀.state.state.fhHash mask c₀ := by
    refine ⟨rfl, rfl, ?_, Or.inl ⟨ids, hstart, fun id hid => Or.inr hid⟩, ?_⟩
    · intro u p hp
      by_cases hu : u = t
      · subst hu
        cases hstart.symm.trans hp
        exact .of_all ((markRetired_insertsNothing ids).bind fun _ =>
          (sweepObjects_insertsNothing _ ids).bind fun _ => trivial)
      · obtain ⟨object, g, rfl⟩ := hmint u p hu hp
        exact objectToFh_tidy object g
    · exact fun fh object _ hroot =>
        Or.inl ⟨_, hstart, .of_ensures (.trivial _) fun _ _ => hrest fh object hroot⟩
  have hend : Attended ids t rest c₀.state.state.fhHash mask c :=
    hrun.invariant_config hinit (fun _ _ _ h hdrift => h.drift hdrift)
      fun e he hexec _ _ hthread h => h.step hrest hthread hexec (hsafe e he)
  -- A thread that has returned is bound to do nothing more.
  have hfinished : ∀ (u : Nat) p, c.threads[u]? = some p → ∃ a, p = Program.ret a := by
    intro u p hp
    have hp' := hreturned p (List.mem_of_getElem? hp)
    cases p with
    | ret a => exact ⟨a, rfl⟩
    | call q k => cases hp'
  intro hroot
  rcases hend.attended fh object hget hroot with ⟨p, hp, hsweeps⟩ | ⟨-, u, p, hp, howes⟩
  · obtain ⟨a, rfl⟩ := hfinished t p hp
    exact hsweeps
  · obtain ⟨a, rfl⟩ := hfinished u p hp
    exact howes

/-! ## Two minting threads -/

namespace Scripted

/-- A server whose backend has durable encodings, with its object registered. -/
def registeredServer : Server Unit :=
  (Server.register Backend.persistent (Server.new Unit .fixed) ()).2

/-- Two threads mint a filehandle for the object while a third retires it. -/
def mintAndRetire : Machine Unit (Option Bytes) where
  state := registeredServer
  threads := [id <$> objectToFh (.fs 1), id <$> objectToFh (.fs 1),
    (fun _ => none) <$> invalidateObjects 1 [1]]

def playMints (schedule : List Nat) :
    Trace Unit ×
      Machine Unit (Option Bytes) :=
  (Server.scripted Backend.persistent .someFile).play mintAndRetire schedule

end Scripted

open Scripted

/-- One thread has read the durable encoding when the other mints the filehandle. The sweep
has removed the mapping and not yet the publication when the first thread inserts the mapping
again. It finds its own filehandle published and returns; the mapping stays. -/
theorem no_filehandle_outlives_republished :
    ∃ tr c, (Server.system Backend.persistent).Run mintAndRetire tr c ∧
      (∀ p ∈ c.threads, p.returned = true) ∧
      c.state.state.fhToObject.get [persistentFhTag, 7] = some (.fs 1) :=
  ⟨_, _,
    (Server.scripted Backend.persistent .someFile).play_run mintAndRetire
      [1, 1, 1, 0, 0, 0, 0, 0, 0, 2, 2, 2, 1, 1, 2, 2, 2],
    List.all_eq_true.mp (by decide +kernel), by decide +kernel⟩

/-- The marks are set while both threads are minting; both take their mappings back. -/
theorem no_filehandle_outlives_interleaved :
    let c := (playMints [0, 0, 1, 1, 0, 0, 2, 0, 0, 0, 0, 1, 1, 1, 1, 1, 1, 2, 2, 2, 2, 2, 2]).2
    ∀ fh object, c.state.state.fhToObject.get fh = some object → object.root ∉ [1] := by
  intro c
  refine no_filehandle_outlives (t := 2) rfl ?_
    ((Server.scripted Backend.persistent .someFile).play_run mintAndRetire _)
    (List.all_eq_true.mp (by decide +kernel)) (List.all_eq_true.mp (by decide +kernel))
  intro u p hu hp
  match u with
  | 0 => exact ⟨.fs 1, id, (Option.some.inj hp).symm⟩
  | 1 => exact ⟨.fs 1, id, (Option.some.inj hp).symm⟩
  | 2 => exact absurd rfl hu
  | u + 3 => cases hp

end EmbedNfs

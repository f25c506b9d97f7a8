import EmbedNfs.Server.Scripted

/-!
# The registration maps and the retirement fence

Registration gives a handle the next object id and enters it in two maps; retirement installs
a predicate for good and takes the matching handles out of both. Every mapped handle passes
every predicate installed so far. The maps are inverse to each other and no id is given out
twice for as long as the 64-bit counter has not come round, that is for `2 ^ 64`
registrations.
-/

namespace EmbedNfs

section

variable {H : Type}

/-- The call tells its caller that the handle has the id. -/
def Call.Gives (handle : H) (id : ObjectId) : (c : Call H) → c.Ret → Prop
  | .registered handle', r => handle' = handle ∧ r = some id
  | .register handle', r => handle' = handle ∧ r = .ok id
  | _, _ => False

variable [DecidableEq H]

/-- The handle that a call gives a new id, if it does. -/
def Server.registers (s : Server H) : Call H → Option H
  | .register handle =>
    if (s.handleToObject.get handle).isNone ∧ !s.isFenced handle then some handle else none
  | _ => none

/-- The handles that were given ids, in that order. -/
def issued (tr : Trace H) : List H :=
  tr.filterMap fun e => e.before.registers e.call

/-- The id that the `n`-th registration gives, counted from zero. -/
def issuedId (n : Nat) : ObjectId := BitVec.ofNat 64 (n + 1)

theorem issuedId_injective {n m : Nat} (hn : n < 2 ^ 64) (hm : m < 2 ^ 64)
    (h : issuedId n = issuedId m) : n = m := by
  have h' : (n + 1) % 2 ^ 64 = (m + 1) % 2 ^ 64 := by
    simpa [issuedId] using congrArg BitVec.toNat h
  omega

theorem issued_append (tr : Trace H)
    (e : ServerEvent H) :
    issued (tr ++ [e]) = issued tr ++ (e.before.registers e.call).toList := by
  simp only [issued, List.filterMap_append]
  cases h : e.before.registers e.call with
  | none => simp [h]
  | some handle => simp [h]

/-! ## What a call does to the registrations -/

variable {backend : Backend H} {s s' : Server H} {c : Call H} {r : c.Ret}

/-- The two servers have the same registrations. -/
structure Server.SameRegistrations (s' s : Server H) : Prop where
  handleToObject : ∀ handle, s'.handleToObject.get handle = s.handleToObject.get handle
  objectToHandle : ∀ id, s'.objectToHandle.get id = s.objectToHandle.get id
  nextObjectId : s'.nextObjectId = s.nextObjectId
  fences : s'.fences = s.fences

theorem Server.SameRegistrations.isFenced (h : s'.SameRegistrations s) (handle : H) :
    s'.isFenced handle = s.isFenced handle := by
  unfold Server.isFenced
  rw [h.fences]

theorem Server.Drift.sameRegistrations (h : s.Drift s') : s'.SameRegistrations s :=
  ⟨fun handle => (h.handleToObject handle).symm, fun id => (h.objectToHandle id).symm,
    h.nextObjectId, h.fences⟩

theorem Server.exec_sameRegistrations (h : (Server.system backend).exec s c r s')
    (hregister : ∀ handle, c ≠ .register handle)
    (hretire : ∀ fence, c ≠ .retireMatching fence) : s'.SameRegistrations s := by
  have hsame : s' = s → s'.SameRegistrations s := by
    rintro rfl
    exact ⟨fun _ => rfl, fun _ => rfl, rfl, rfl⟩
  cases c with
  | guarded q =>
    rw [h.2]
    exact ⟨fun _ => rfl, fun _ => rfl, rfl, rfl⟩
  | mapOp q =>
    rw [h.2]
    exact ⟨fun _ => rfl, fun _ => rfl, rfl, rfl⟩
  | register handle => exact absurd rfl (hregister handle)
  | retireMatching fence => exact absurd rfl (hretire fence)
  | registered handle => exact hsame h.2
  | backendHandle id => exact hsame h.2
  | now => exact hsame h.2
  | hasConnection id => exact hsame h
  | sendCallback target stateid fh => exact hsame h
  | callbackReply target => exact hsame h
  | backend ctx origin dirs q => exact hsame h

theorem Server.register_cases {handle : H} {r : Except FsError ObjectId}
    (h : (r, s') = Server.register backend s handle) :
    (s' = s ∧ s.registers (.register handle) = none ∧
      ∀ id, r = .ok id → s.handleToObject.get handle = some id) ∨
    (s.handleToObject.get handle = none ∧ s.isFenced handle = false ∧
      s.registers (.register handle) = some handle ∧ r = .ok s.nextObjectId ∧
      s'.handleToObject = s.handleToObject.insert handle s.nextObjectId ∧
      s'.objectToHandle = s.objectToHandle.insert s.nextObjectId handle ∧
      s'.nextObjectId = s.nextObjectId + 1 ∧ s'.fences = s.fences) := by
  unfold Server.register at h
  cases hget : s.handleToObject.get handle with
  | some id =>
    simp only [hget] at h
    cases h
    refine Or.inl ⟨rfl, by simp [registers, hget], fun id' h => ?_⟩
    cases h
    rfl
  | none =>
    simp only [hget] at h
    cases hfenced : s.isFenced handle with
    | true =>
      simp only [hfenced, ↓reduceIte] at h
      cases h
      exact Or.inl ⟨rfl, by simp [registers, hfenced], fun id h => by cases h⟩
    | false =>
      simp only [hfenced, Bool.false_eq_true, ↓reduceIte] at h
      cases h
      exact Or.inr ⟨rfl, rfl, by simp [registers, hget, hfenced], rfl, rfl, rfl, rfl, rfl⟩

theorem Server.get_handleToObject_retireMatching (s : Server H) (fence : H → Bool) (handle : H)
    (id : ObjectId) :
    (s.retireMatching fence).2.handleToObject.get handle = some id ↔
      s.handleToObject.get handle = some id ∧ fence handle = false := by
  have hmem : handle ∈ (s.handleToObject.entries.filter fun e => fence e.1).map
      Prod.fst ↔ (∃ id, s.handleToObject.get handle = some id) ∧ fence handle = true := by
    simp [List.mem_map, List.mem_filter, Table.mem_entries]
  simp only [retireMatching, Table.get_foldl_erase]
  split
  · rename_i h
    simp [(hmem.mp h).2]
  · rename_i h
    have h := mt hmem.mpr h
    cases hf : fence handle with
    | false => simp
    | true =>
      simp only [hf, and_true, not_exists] at h
      simp [h id]

theorem Server.get_objectToHandle_retireMatching (s : Server H) (fence : H → Bool) (handle : H)
    (id : ObjectId) :
    (s.retireMatching fence).2.objectToHandle.get id = some handle ↔
      s.objectToHandle.get id = some handle ∧
        ∀ handle', s.handleToObject.get handle' = some id → fence handle' = false := by
  have hmem : id ∈ (s.handleToObject.entries.filter fun e => fence e.1).map
      Prod.snd ↔ ∃ handle, s.handleToObject.get handle = some id ∧ fence handle = true := by
    simp [List.mem_map, List.mem_filter, Table.mem_entries]
  simp only [retireMatching, Table.get_foldl_erase]
  split
  · rename_i h
    obtain ⟨handle', hget, hf⟩ := hmem.mp h
    simp only [reduceCtorEq, false_iff, not_and, not_forall]
    exact fun _ => ⟨handle', hget, by simp [hf]⟩
  · rename_i h
    have h := mt hmem.mpr h
    simp only [not_exists, not_and, Bool.not_eq_true] at h
    exact (and_iff_left h).symm

/-! ## Runs -/

/-- What is known about the registrations after a trace. -/
structure Registrations (tr : Trace H) (s : Server H) :
    Prop where
  next : s.nextObjectId = issuedId (issued tr).length
  mapped : ∀ handle id, s.handleToObject.get handle = some id →
    ∃ n, (issued tr)[n]? = some handle ∧ id = issuedId n
  given : ∀ e ∈ tr, ∀ handle id, e.call.Gives handle id e.answer →
    ∃ n, (issued tr)[n]? = some handle ∧ id = issuedId n
  installed : ∀ e ∈ tr, ∀ fence, e.call = .retireMatching fence → fence ∈ s.fences
  unfenced : ∀ handle id, s.handleToObject.get handle = some id → s.isFenced handle = false
  inverse : (issued tr).length ≤ 2 ^ 64 → ∀ handle id,
    s.handleToObject.get handle = some id ↔ s.objectToHandle.get id = some handle

namespace Registrations

variable {tr : Trace H}

theorem of_same (h : Registrations tr s) (hs : s'.SameRegistrations s) : Registrations tr s' where
  next := hs.nextObjectId.trans h.next
  mapped handle id hget := h.mapped handle id ((hs.handleToObject handle).symm.trans hget)
  given := h.given
  installed e he fence hf := by
    rw [hs.fences]
    exact h.installed e he fence hf
  unfenced handle id hget := by
    rw [hs.isFenced]
    exact h.unfenced handle id ((hs.handleToObject handle).symm.trans hget)
  inverse hbound handle id := by
    rw [hs.handleToObject, hs.objectToHandle]
    exact h.inverse hbound handle id

theorem append (e : ServerEvent H) (h : Registrations tr s)
    (hnew : e.before.registers e.call = none)
    (hgives : ∀ handle id, e.call.Gives handle id e.answer → s.handleToObject.get handle = some id)
    (hfence : ∀ fence, e.call = .retireMatching fence → fence ∈ s.fences) :
    Registrations (tr ++ [e]) s := by
  have hissued : issued (tr ++ [e]) = issued tr := by rw [issued_append, hnew]; simp
  refine ⟨?_, ?_, ?_, ?_, h.unfenced, ?_⟩
  · rw [hissued]
    exact h.next
  · rw [hissued]
    exact h.mapped
  · rw [hissued]
    intro e' he' handle id hg
    rcases List.mem_append.mp he' with he' | he'
    · exact h.given e' he' handle id hg
    · rw [List.mem_singleton.mp he'] at hg
      exact h.mapped handle id (hgives handle id hg)
  · intro e' he' fence hf
    rcases List.mem_append.mp he' with he' | he'
    · exact h.installed e' he' fence hf
    · rw [List.mem_singleton.mp he'] at hf
      exact hfence fence hf
  · rw [hissued]
    exact h.inverse

theorem insert {u : Nat} {handle : H} (h : Registrations tr s)
    (hunmapped : s.handleToObject.get handle = none) (hfence : s.isFenced handle = false)
    (hnew : s.registers (.register handle) = some handle)
    (hmap : s'.handleToObject = s.handleToObject.insert handle s.nextObjectId)
    (hmap' : s'.objectToHandle = s.objectToHandle.insert s.nextObjectId handle)
    (hnext : s'.nextObjectId = s.nextObjectId + 1) (hfences : s'.fences = s.fences) :
    Registrations (tr ++ [⟨u, s, .register handle, .ok s.nextObjectId, s'⟩]) s' := by
  have hissued : issued (tr ++ [⟨u, s, .register handle, .ok s.nextObjectId, s'⟩]) =
      issued tr ++ [handle] := by
    rw [issued_append, hnew]
    rfl
  have hself : ∃ n, (issued tr ++ [handle])[n]? = some handle ∧ s.nextObjectId = issuedId n :=
    ⟨(issued tr).length, by simp, h.next⟩
  have hold : ∀ {handle' : H} {id : ObjectId},
      (∃ n, (issued tr)[n]? = some handle' ∧ id = issuedId n) →
        ∃ n, (issued tr ++ [handle])[n]? = some handle' ∧ id = issuedId n := by
    rintro handle' id ⟨n, hn, hid⟩
    exact ⟨n, (List.getElem?_append_left (List.getElem?_eq_some_iff.mp hn).1).trans hn, hid⟩
  have hget : ∀ handle' id, s'.handleToObject.get handle' = some id →
      (handle' = handle ∧ id = s.nextObjectId) ∨
        (handle' ≠ handle ∧ s.handleToObject.get handle' = some id) := by
    rw [hmap]
    exact fun _ _ => Table.of_get_insert
  refine ⟨?_, ?_, ?_, ?_, ?_, ?_⟩
  · rw [hissued, hnext, h.next]
    simp [issuedId, BitVec.ofNat_add]
  · rw [hissued]
    intro handle' id hg
    rcases hget handle' id hg with ⟨rfl, rfl⟩ | ⟨-, hg⟩
    · exact hself
    · exact hold (h.mapped handle' id hg)
  · rw [hissued]
    intro e he handle' id hg
    rcases List.mem_append.mp he with he | he
    · exact hold (h.given e he handle' id hg)
    · rw [List.mem_singleton.mp he] at hg
      obtain ⟨rfl, hid⟩ := hg
      cases hid
      exact hself
  · intro e he fence hf
    rw [hfences]
    rcases List.mem_append.mp he with he | he
    · exact h.installed e he fence hf
    · rw [List.mem_singleton.mp he] at hf
      cases hf
  · intro handle' id hg
    have heq : s'.isFenced handle' = s.isFenced handle' := by rw [Server.isFenced, hfences]; rfl
    rw [heq]
    rcases hget handle' id hg with ⟨rfl, -⟩ | ⟨-, hg⟩
    · exact hfence
    · exact h.unfenced handle' id hg
  · rw [hissued, List.length_append]
    intro hbound handle' id
    simp only [List.length_singleton] at hbound
    have hinverse := h.inverse (by omega)
    -- The counter has not come round: no mapped handle has the new id.
    have hfresh : ∀ handle', s.handleToObject.get handle' ≠ some s.nextObjectId := by
      intro handle' hg
      obtain ⟨n, hn, hid⟩ := h.mapped handle' _ hg
      have hlt := (List.getElem?_eq_some_iff.mp hn).1
      rw [h.next] at hid
      have := issuedId_injective (by omega) (by omega) hid
      omega
    rw [hmap, hmap', Table.get_insert, Table.get_insert]
    by_cases hh : handle' = handle
    · subst hh
      by_cases hid : id = s.nextObjectId
      · simp [hid]
      · have hnone : s.objectToHandle.get id ≠ some handle' := by
          rw [Ne, ← hinverse, hunmapped]
          simp
        simp [hid, hnone, Ne.symm hid]
    · by_cases hid : id = s.nextObjectId
      · subst hid
        simp [hh, hfresh handle', Ne.symm hh]
      · simp [hh, hid, hinverse handle' id]

theorem retire (h : Registrations tr s) (fence : H → Bool) :
    Registrations tr (s.retireMatching fence).2 where
  next := h.next
  mapped handle id hget :=
    h.mapped handle id ((s.get_handleToObject_retireMatching fence handle id).mp hget).1
  given := h.given
  installed e he fence' hf := List.mem_append_left _ (h.installed e he fence' hf)
  unfenced handle id hget := by
    obtain ⟨hold, hf⟩ := (s.get_handleToObject_retireMatching fence handle id).mp hget
    have hunfenced := h.unfenced handle id hold
    unfold Server.isFenced at hunfenced ⊢
    simp only [Server.retireMatching, List.any_append, hunfenced, List.any_cons, hf,
      List.any_nil, Bool.or_false]
  inverse hbound handle id := by
    rw [s.get_handleToObject_retireMatching, s.get_objectToHandle_retireMatching,
      h.inverse hbound]
    refine and_congr_right fun hget => ⟨fun hf handle' hget' => ?_, fun hall => ?_⟩
    · rw [h.inverse hbound] at hget'
      cases hget.symm.trans hget'
      exact hf
    · exact hall handle ((h.inverse hbound handle id).mpr hget)

theorem step (e : ServerEvent H)
    (hexec : (Server.system backend).exec e.before e.call e.answer e.after)
    (h : Registrations tr e.before) : Registrations (tr ++ [e]) e.after := by
  obtain ⟨u, s, c, r, s'⟩ := e
  dsimp only at hexec h ⊢
  cases c with
  | register handle =>
    rcases Server.register_cases hexec with ⟨rfl, hnew, hok⟩ | ⟨h₁, h₂, h₃, rfl, h₄, h₅, h₆, h₇⟩
    · refine h.append _ hnew (fun handle' id hg => ?_) nofun
      obtain ⟨rfl, hr⟩ := hg
      exact hok id hr
    · exact h.insert h₁ h₂ h₃ h₄ h₅ h₆ h₇
  | retireMatching fence =>
    have hs : s' = (s.retireMatching fence).2 := congrArg Prod.snd hexec
    subst hs
    refine (h.retire fence).append _ rfl (fun _ _ hg => hg.elim) fun fence' hf => ?_
    cases hf
    exact List.mem_append_right _ (List.mem_singleton.mpr rfl)
  | registered handle =>
    have hs : s' = s := hexec.2
    subst hs
    refine h.append _ rfl (fun handle' id hg => ?_) nofun
    obtain ⟨rfl, hr⟩ := hg
    exact hexec.1.symm.trans hr
  | _ =>
    exact (h.of_same (Server.exec_sameRegistrations hexec (by simp) (by simp))).append _ rfl
      (fun _ _ hg => hg.elim) (by simp)

theorem new (boot : Boot) : Registrations [] (Server.new H boot) where
  next := rfl
  mapped handle id hget := by cases hget
  given e he := by cases he
  installed e he := by cases he
  unfenced handle id hget := by cases hget
  inverse _ handle id := by simp [Server.new]

end Registrations

end

/-- **The retirement fence.** Let any requests run against a server, with their steps
interleaved in any order. No mapped handle satisfies a predicate that a retirement has
installed. As long as there were at most `2 ^ 64` registrations, the two maps are inverse to
each other, and no object id was ever given to two handles. -/
theorem retirement_fence {H α : Type} [DecidableEq H] {backend : Backend H} {boot : Boot}
    {threads : List (Request H α)} {tr : Trace H}
    {c : Machine H α}
    (hrun : (Server.system backend).Run ⟨Server.new H boot, threads⟩ tr c) :
    (∀ e ∈ tr, ∀ fence, e.call = .retireMatching fence → ∀ handle id,
      c.state.handleToObject.get handle = some id → fence handle = false) ∧
    ((issued tr).length ≤ 2 ^ 64 →
      (∀ handle id, c.state.handleToObject.get handle = some id ↔
        c.state.objectToHandle.get id = some handle) ∧
      (∀ e ∈ tr, ∀ e' ∈ tr, ∀ handle handle' id, e.call.Gives handle id e.answer →
        e'.call.Gives handle' id e'.answer → handle = handle')) := by
  have h : Registrations tr c.state :=
    hrun.invariant_trace (.new boot) (fun _ _ _ h hdrift => h.of_same hdrift.sameRegistrations)
      fun _ e hexec h => h.step e hexec
  refine ⟨fun e he fence hf handle id hget => ?_, fun hbound => ⟨h.inverse hbound, ?_⟩⟩
  · have hunfenced := h.unfenced handle id hget
    rw [Server.isFenced, List.any_eq_false] at hunfenced
    simpa using hunfenced fence (h.installed e he fence hf)
  · intro e he e' he' handle handle' id hg hg'
    obtain ⟨n, hn, hid⟩ := h.given e he handle id hg
    obtain ⟨m, hm, hid'⟩ := h.given e' he' handle' id hg'
    have hlt := (List.getElem?_eq_some_iff.mp hn).1
    have hlt' := (List.getElem?_eq_some_iff.mp hm).1
    have heq := issuedId_injective (by omega) (by omega) (hid.symm.trans hid')
    rw [heq] at hn
    exact Option.some.inj (hn.symm.trans hm)

/-! ## Many registrations -/

/-- One thread registers each of the handles `0`, `1`, up to `total`. -/
def registerAll (total : Nat) : List (Request Nat (Except FsError ObjectId)) :=
  (List.range total).map registerHandle

theorem registerAll_run (total n : Nat) (hn : n ≤ total) :
    ∃ tr c, (Server.system (Backend.plain 0)).Run
        ⟨Server.new Nat .fixed, registerAll total⟩ tr c ∧
      (∀ i, n ≤ i → c.threads[i]? = (registerAll total)[i]?) ∧
      c.state.nextObjectId = issuedId n ∧ c.state.fences = [] ∧
      ∀ handle, c.state.handleToObject.get handle =
        if handle < n then some (issuedId handle) else none := by
  induction n with
  | zero => exact ⟨[], _, .nil _, fun _ _ => rfl, rfl, rfl, fun _ => rfl⟩
  | succ n ih =>
    obtain ⟨tr, ⟨s, ts⟩, hrun, hthreads, hnext, hfences, hget⟩ := ih (by omega)
    dsimp only at hthreads hnext hfences hget
    have hunmapped : s.handleToObject.get n = none := by simp [hget]
    have hthread : ts[n]? = some (registerHandle n) := by
      rw [hthreads n le_rfl]
      simp [registerAll, show n < total by omega]
    have hlt : n < ts.length := (List.getElem?_eq_some_iff.mp hthread).1
    -- The fast path finds nothing, and the write-locked section gives the next id.
    have hrun₁ : (Server.system (Backend.plain 0)).Run ⟨Server.new Nat .fixed, registerAll total⟩
        (tr ++ [⟨n, s, .registered n, none, s⟩]) ⟨s, ts.set n (Program.perform (Call.register n))⟩ :=
      hrun.step hthread ⟨hunmapped.symm, rfl⟩
    have hexec : (Server.system (Backend.plain 0)).exec s (.register n)
      (Server.register (Backend.plain 0) s n).1 (Server.register (Backend.plain 0) s n).2 := rfl
    refine ⟨_, _, hrun₁.step (List.getElem?_set_self hlt) hexec, fun i hi => ?_, ?_⟩
    · rw [List.set_set, List.getElem?_set_ne (by omega)]
      exact hthreads i (by omega)
    · rcases Server.register_cases hexec with
        ⟨-, hnew, -⟩ | ⟨-, -, -, -, hmap, -, hnext', hfences'⟩
      · simp [Server.registers, hunmapped, Server.isFenced, hfences] at hnew
      · refine ⟨?_, hfences'.trans hfences, fun handle => ?_⟩
        · rw [hnext', hnext]
          simp [issuedId, BitVec.ofNat_add]
        · rw [hmap, Table.get_insert, hget, hnext]
          by_cases hh : handle = n
          · simp [hh]
          · simp only [hh, ↓reduceIte]
            congr 1
            simp only [eq_iff_iff]
            omega

/-- After `2 ^ 64 + 1` registrations two handles have the id `1`. -/
theorem retirement_fence_wraps :
    ∃ tr c, (Server.system (Backend.plain 0)).Run
        ⟨Server.new Nat .fixed, registerAll (2 ^ 64 + 1)⟩ tr c ∧
      c.state.handleToObject.get 0 = some 1 ∧
      c.state.handleToObject.get (2 ^ 64) = some 1 := by
  obtain ⟨tr, c, hrun, -, -, -, hget⟩ := registerAll_run (2 ^ 64 + 1) (2 ^ 64 + 1) le_rfl
  refine ⟨tr, c, hrun, ?_, ?_⟩
  · rw [hget]
    rfl
  · rw [hget, if_pos (by omega)]
    rfl

/-- Two handles are registered, and the first is retired. -/
theorem retirement_fence_two_handles :
    let run := (Server.scripted (Backend.plain 0) .someFile).play
      ⟨Server.new Nat .fixed, [(fun _ => ()) <$> registerHandle 0,
        (fun _ => ()) <$> Program.perform (Call.retireMatching fun handle => handle = 0),
        (fun _ => ()) <$> registerHandle 1]⟩ [0, 2, 0, 2, 1]
    (issued run.1).length ≤ 2 ^ 64 ∧
      run.2.state.handleToObject.get 0 = none ∧ run.2.state.handleToObject.get 1 = some 2 ∧
      ∀ handle id, run.2.state.handleToObject.get handle = some id ↔
        run.2.state.objectToHandle.get id = some handle := by
  intro run
  have hbound : (issued run.1).length ≤ 2 ^ 64 := by decide +kernel
  refine ⟨hbound, by decide +kernel, by decide +kernel, ?_⟩
  exact ((retirement_fence ((Server.scripted (Backend.plain 0) .someFile).play_run _ _)).2 hbound).1

end EmbedNfs

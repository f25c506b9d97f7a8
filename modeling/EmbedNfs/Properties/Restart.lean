import EmbedNfs.Effects.Calls
import EmbedNfs.Server.Scripted

/-!
# Filehandles across a restart

A boot-scoped filehandle starts with the nonce of its boot, and a persistent one with a tag
that no nonce starts with. A server therefore tells from the bytes alone that a boot-scoped
filehandle of another boot is not its own: neither its table nor the backend's decoder is
asked about it.
-/

namespace EmbedNfs

/-! ## Layouts -/

theorem take_bootFh (random : Fin 8 → U8) (number : U64) :
    (newFhBootNonce random ++ be64 number).take fhNonceLen = newFhBootNonce random := by
  have hlen := length_newFhBootNonce random
  rw [List.take_append_of_le_length hlen.ge, ← hlen, List.take_length]

theorem head_bootFh (random : Fin 8 → U8) (number : U64) :
    (newFhBootNonce random ++ be64 number).head? ≠ some persistentFhTag := by
  have hlen := length_newFhBootNonce random
  have hhead := head_newFhBootNonce random
  cases hn : newFhBootNonce random with
  | nil =>
    rw [hn] at hlen
    cases hlen
  | cons first rest =>
    rw [hn] at hhead
    exact hhead

theorem persistentFhBody_of_head {fh : Bytes} (h : fh.head? ≠ some persistentFhTag) :
    persistentFhBody fh = none := by
  cases hbody : persistentFhBody fh with
  | none => rfl
  | some body =>
    rw [head_of_persistentFhBody hbody] at h
    exact absurd rfl h

theorem decodePersistentFh_eq {H : Type} (backend : Backend H) {fh : Bytes}
    (h : persistentFhBody fh = none) :
    decodePersistentFh backend fh = .ret (.error .stale) := by
  unfold decodePersistentFh
  rw [h]
  rfl

theorem StateManager.resolveFh_eq_none {s : StateManager} {fh : Bytes}
    (hbody : persistentFhBody fh = none) (hnonce : fh.take fhNonceLen ≠ s.fhBootNonce) :
    s.resolveFh fh = none := by
  unfold resolveFh
  rw [if_pos ⟨hbody, Or.inr hnonce⟩]

/-! ## Runs -/

/-- The nonce is the boot's, and every recorded persistent filehandle has the tag. -/
structure StateManager.Booted (boot : Boot) (s : StateManager) : Prop where
  nonce : s.fhBootNonce = newFhBootNonce boot.random
  tagged : ∀ id fh, s.persistentFh.get id = some fh → fh.head? = some persistentFhTag

section

variable {H α : Type} [DecidableEq H] {backend : Backend H} {boot : Boot}

theorem Server.booted_register {s : Server H} (h : s.state.Booted boot) (handle : H) :
    (Server.register backend s handle).2.state.Booted boot := by
  unfold Server.register
  split
  · exact h
  · split
    · exact h
    · dsimp only
      split
      · refine ⟨h.nonce, fun id fh hget => ?_⟩
        rw [StateManager.recordPersistentFh, Table.get_insert] at hget
        split at hget
        · cases hget
          rfl
        · exact h.tagged id fh hget
      · exact h

theorem Server.booted_exec {s s' : Server H} {c : Call H} {r : c.Ret}
    (hexec : (Server.system backend).exec s c r s') (h : s.state.Booted boot) :
    s'.state.Booted boot := by
  cases c with
  | guarded q =>
    have hmaps := s.state.runSection_sameMaps q
    rw [hexec.2]
    exact ⟨(congrArg Maps.fhBootNonce hmaps).trans h.nonce, fun id fh hget =>
      h.tagged id fh ((congrArg (·.persistentFh.get id) hmaps).symm.trans hget)⟩
  | mapOp q =>
    rw [hexec.2]
    cases q with
    | persistentFhRemove id =>
      exact ⟨h.nonce, fun id' fh hget => h.tagged id' fh (Table.erase_sub _ _ id' fh hget)⟩
    | objectToFhEntry object fh =>
      simp only [StateManager.runMapOp]
      split <;> exact ⟨h.nonce, h.tagged⟩
    | fhToObjectClaim fh object =>
      simp only [StateManager.runMapOp]
      split <;> exact ⟨h.nonce, h.tagged⟩
    | _ => exact ⟨h.nonce, h.tagged⟩
  | register handle =>
    rw [show s' = (Server.register backend s handle).2 from congrArg Prod.snd hexec]
    exact booted_register h handle
  | retireMatching fence =>
    rw [show s' = (s.retireMatching fence).2 from congrArg Prod.snd hexec]
    exact h
  | registered handle =>
    rw [hexec.2]
    exact h
  | backendHandle id =>
    rw [hexec.2]
    exact h
  | now =>
    rw [hexec.2]
    exact h
  | hasConnection id =>
    rw [show s' = s from hexec]
    exact h
  | sendCallback target stateid fh =>
    rw [show s' = s from hexec]
    exact h
  | callbackReply target =>
    rw [show s' = s from hexec]
    exact h
  | backend ctx origin dirs q =>
    rw [show s' = s from hexec]
    exact h

theorem StateManager.Booted.drift {s s' : StateManager} (h : s.Booted boot) (hdrift : s.Drift s') :
    s'.Booted boot :=
  ⟨hdrift.fhBootNonce.trans h.nonce,
    fun id fh hget => h.tagged id fh ((hdrift.persistentFh id).trans hget)⟩

theorem Server.booted_new (H : Type) (boot : Boot) : (Server.new H boot).state.Booted boot :=
  ⟨rfl, nofun⟩

variable {threads : List (Request H α)} {tr : Trace H}
  {c : Machine H α}

theorem System.Run.booted
    (hrun : (Server.system backend).Run ⟨Server.new H boot, threads⟩ tr c) :
    c.state.state.Booted boot :=
  hrun.invariant (I := fun s => s.state.Booted boot) (Server.booted_new H boot)
    (fun _ _ h hdrift => h.drift hdrift.state) fun _ _ hexec h => Server.booted_exec hexec h

theorem System.Run.minted
    (hrun : (Server.system backend).Run ⟨Server.new H boot, threads⟩ tr c) {u : Nat}
    {s s' : Server H} {fh : Bytes} (hmint : ⟨u, s, .mapOp .nextBootFh, fh, s'⟩ ∈ tr) :
    ∃ number, fh = newFhBootNonce boot.random ++ be64 number := by
  have hbooted := (hrun.invariant_event (I := fun s => s.state.Booted boot)
    (Server.booted_new H boot) (fun _ _ h hdrift => h.drift hdrift.state)
    (fun _ _ hexec h => Server.booted_exec hexec h) hmint).1
  refine ⟨s.state.nextFh, ?_⟩
  rw [← hbooted.nonce]
  exact (hrun.exec hmint).1

theorem System.Run.resolveObject_stale
    (hrun : (Server.system backend).Run ⟨Server.new H boot, threads⟩ tr c) {fh : Bytes}
    (hbody : persistentFhBody fh = none)
    (hnonce : fh.take fhNonceLen ≠ newFhBootNonce boot.random) {t : Nat}
    {f : Except NfsStat4 (Bytes × ServerObject) → α} {a : α}
    (hthread : threads[t]? = some (f <$> resolveObject backend (some fh)))
    (hreturned : c.threads[t]? = some (.ret a)) : a = f (.error .stale) := by
  have hbooted : ∀ e ∈ tr, e.before.state.Booted boot := fun e he =>
    (hrun.invariant_event (I := fun s => s.state.Booted boot) (Server.booted_new H boot)
      (fun _ _ h hdrift => h.drift hdrift.state)
      (fun _ _ hexec h => Server.booted_exec hexec h) he).1
  let T := fun p => p = f <$> resolveObject backend (some fh) ∨ p = .ret (f (.error .stale))
  have hstep : ∀ e ∈ tr, e.thread = t → ∀ k, T (.call e.call k) → T (k e.answer) := by
    rintro ⟨u, s, q, r, s'⟩ he - k (hp | hp)
    · -- The thread looks the bytes up, and the table is not even consulted.
      cases hp
      have hunresolved : s.state.resolveFh fh = none := by
        refine StateManager.resolveFh_eq_none hbody ?_
        rw [(hbooted _ he).nonce]
        exact hnonce
      have hr : r = none := (hrun.exec he).1.trans hunresolved
      subst hr
      refine Or.inr ?_
      show (f <$> (decodePersistentFh backend fh >>= _)) = _
      rw [decodePersistentFh_eq backend hbody]
      rfl
    · cases hp
  obtain ⟨p, hp, hprogress⟩ := hrun.thread hthread (show T _ from Or.inl rfl) hstep
  cases hreturned.symm.trans hp
  rcases hprogress with h | h
  · cases h
  · cases h
    rfl

end

/-- **Filehandles never change meaning across a restart.** Take two boots with different
nonces, any requests against each of the two servers, and a boot-scoped filehandle minted in
the first. The second server never resolves it: not in its table, and not through the
backend's decoder. It does not have the persistent layout, and no persistent filehandle of
either server equals it. -/
theorem filehandle_across_restart {H₁ H₂ α₁ α₂ : Type} [DecidableEq H₁] [DecidableEq H₂]
    {backend₁ : Backend H₁} {backend₂ : Backend H₂} {boot₁ boot₂ : Boot}
    (hnonces : newFhBootNonce boot₁.random ≠ newFhBootNonce boot₂.random)
    {threads₁ : List (Request H₁ α₁)} {tr₁ : Trace H₁}
    {c₁ : Machine H₁ α₁}
    {threads₂ : List (Request H₂ α₂)} {tr₂ : Trace H₂}
    {c₂ : Machine H₂ α₂}
    (hrun₁ : (Server.system backend₁).Run ⟨Server.new H₁ boot₁, threads₁⟩ tr₁ c₁)
    (hrun₂ : (Server.system backend₂).Run ⟨Server.new H₂ boot₂, threads₂⟩ tr₂ c₂)
    {u : Nat} {s s' : Server H₁} {fh : Bytes}
    (hmint : ⟨u, s, .mapOp .nextBootFh, fh, s'⟩ ∈ tr₁) :
    c₂.state.state.resolveFh fh = none ∧
    (∀ (t : Nat) (f : Except NfsStat4 (Bytes × ServerObject) → α₂) (a : α₂),
      threads₂[t]? = some (f <$> resolveObject backend₂ (some fh)) →
      c₂.threads[t]? = some (.ret a) → a = f (.error .stale)) ∧
    persistentFhBody fh = none ∧
    (∀ id, c₁.state.state.persistentFh.get id ≠ some fh) ∧
    (∀ id, c₂.state.state.persistentFh.get id ≠ some fh) := by
  obtain ⟨number, rfl⟩ := hrun₁.minted hmint
  have hhead := head_bootFh boot₁.random number
  have hbody := persistentFhBody_of_head hhead
  have hnonce : (newFhBootNonce boot₁.random ++ be64 number).take fhNonceLen ≠
      newFhBootNonce boot₂.random := by
    rw [take_bootFh]
    exact hnonces
  refine ⟨?_, ?_, hbody, ?_, ?_⟩
  · exact StateManager.resolveFh_eq_none hbody (by rw [hrun₂.booted.nonce]; exact hnonce)
  · exact fun t f a ht ha => hrun₂.resolveObject_stale hbody hnonce ht ha
  · exact fun id hget => hhead (hrun₁.booted.tagged id _ hget)
  · exact fun id hget => hhead (hrun₂.booted.tagged id _ hget)

/-- A boot other than `Boot.fixed`. -/
def Boot.other : Boot := { Boot.fixed with random := fun _ => 9 }

/-- A filehandle minted in one boot and used in the next. -/
theorem filehandle_across_restart_minted :
    let c := ((Server.scripted Backend.single .someFile).play
      ⟨Server.new Unit .other, [id <$> resolveObject Backend.single (some Scripted.fh)]⟩ [0]).2
    c.state.state.resolveFh Scripted.fh = none ∧
      ∀ a, c.threads[0]? = some (.ret a) → a = .error .stale := by
  intro c
  have hrun₁ := (Server.scripted Backend.single .someFile).play_run
    ⟨Server.new Unit .fixed, [id <$> objectToFh (.fs 1)]⟩ [0, 0, 0, 0]
  have hrun₂ := (Server.scripted Backend.single .someFile).play_run
    ⟨Server.new Unit .other, [id <$> resolveObject Backend.single (some Scripted.fh)]⟩ [0]
  -- The fourth call of the first run draws the number.
  have h := filehandle_across_restart (by decide) hrun₁ hrun₂ (List.mem_of_getElem? (i := 3) rfl)
  exact ⟨h.1, fun a ha => h.2.1 0 id a rfl ha⟩

end EmbedNfs

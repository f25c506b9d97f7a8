import EmbedNfs.Properties.Invalidation

/-!
# The two filehandle tables

`object_to_fh` and `fh_to_object` under the three calls that write them, made one at a time:
recording a backend's encoding, asking for a filehandle and invalidating objects. As long as the
counter of boot-scoped filehandles has not come round, each table is the inverse of the other,
whatever encodings collide, and every filehandle that is given out is well formed and leads back
to its object.
-/

namespace EmbedNfs

/-- An encoding that a backend may give: `record_persistent_fh` gets no others. -/
abbrev Encoding := { encoded : Bytes // 1 ≤ encoded.length ∧ encoded.length ≤ 127 }

section

variable {H : Type}

/-- The states of a server whose filehandle calls are made one at a time, with the number of
boot-scoped filehandles minted so far. -/
inductive FilehandleRun (boot : Boot) : Nat → Server H → Prop where
  | new : FilehandleRun boot 0 (Server.new H boot)
  | record {minted : Nat} {s : Server H} (h : FilehandleRun boot minted s) (id : ObjectId)
      (encoded : Encoding) :
      FilehandleRun boot minted { s with state := s.state.recordPersistentFh id encoded.val }
  | objectToFh {minted : Nat} {s s' : Server H} (h : FilehandleRun boot minted s)
      (object : ServerObject) (r : Option Bytes)
      (halone : Request.alone (objectToFh object) s = some (r, s')) :
      FilehandleRun boot
        (minted + filehandlesMinted (Request.events (EmbedNfs.objectToFh object) s)) s'
  | invalidateObjects {minted : Nat} {s s' : Server H} (h : FilehandleRun boot minted s)
      (ids : List ObjectId) (counts : InvalidationCounts)
      (halone : Request.alone (invalidateObjects (s.state.fhShardMask + 1) ids) s =
        some (counts, s')) : FilehandleRun boot minted s'

end

/-- Each table is the inverse of the other. -/
def StateManager.Inverse (s : StateManager) : Prop :=
  ∀ object fh, s.objectToFh.get object = some fh ↔ s.fhToObject.get fh = some object

theorem StateManager.Inverse.paired {s : StateManager} (h : s.Inverse) : s.Paired :=
  fun object fh => (h object fh).mp

/-- The layouts of filehandles: a tagged encoding, or one of the boot's so many. -/
def FhLayout (boot : Boot) (minted : Nat) (fh : Bytes) : Prop :=
  (persistentFhBody fh).isSome = true ∨
    ∃ i < minted, fh = newFhBootNonce boot.random ++ be64 (BitVec.ofNat 64 (1 + i))

/-- What holds of the tables after so many boot-scoped filehandles. -/
structure FilehandleTables (boot : Boot) (minted : Nat) (s : StateManager) : Prop where
  nonce : s.fhBootNonce = newFhBootNonce boot.random
  next : s.nextFh = BitVec.ofNat 64 (1 + minted)
  recorded : ∀ id fh, s.persistentFh.get id = some fh → (persistentFhBody fh).isSome = true
  layout : ∀ fh object, s.fhToObject.get fh = some object → FhLayout boot minted fh
  inverse : minted ≤ 2 ^ 64 → s.Inverse

theorem FhLayout.mono {boot : Boot} {minted n : Nat} {fh : Bytes} (h : FhLayout boot minted fh) :
    FhLayout boot (minted + n) fh := by
  rcases h with hbody | ⟨i, hi, heq⟩
  · exact .inl hbody
  · exact .inr ⟨i, by omega, heq⟩

theorem persistentFhBody_encoding (encoded : Encoding) :
    persistentFhBody (persistentFhTag :: encoded.val) = some encoded.val := by
  have hne : encoded.val ≠ [] := List.length_pos_iff.mp encoded.property.1
  rw [persistentFhBody, if_pos ⟨rfl, hne, encoded.property.2⟩]

theorem persistentFhBody_bootFh (boot : Boot) (number : U64) :
    persistentFhBody (newFhBootNonce boot.random ++ be64 number) = none := by
  cases hbody : persistentFhBody (newFhBootNonce boot.random ++ be64 number) with
  | none => rfl
  | some body =>
    have hhead := congrArg List.head? (head_of_persistentFhBody hbody)
    have hlen := length_newFhBootNonce boot.random
    rw [List.head?_append_of_ne_nil _ (by
      intro hnil
      rw [hnil] at hlen
      cases hlen), List.head?_cons] at hhead
    exact absurd hhead (head_newFhBootNonce boot.random)

theorem FhLayout.valid {boot : Boot} {minted : Nat} {s : StateManager} {fh : Bytes}
    (h : FhLayout boot minted fh) (hnonce : s.fhBootNonce = newFhBootNonce boot.random) :
    fhHasValidFormat fh = true ∧ fh.length ≤ 128 ∧ s.resolveFh fh = s.fhToObject.get fh := by
  rcases h with hbody | ⟨i, -, rfl⟩
  · obtain ⟨body, hbody⟩ := Option.isSome_iff_exists.mp hbody
    have hfh := head_of_persistentFhBody hbody
    have hlen : body.length ≤ maxPersistentHandleLen := by
      rw [hfh, persistentFhBody] at hbody
      split at hbody
      · rename_i hcond
        exact hcond.2.2
      · cases hbody
    refine ⟨?_, ?_, ?_⟩
    · simp only [fhHasValidFormat, hbody, Option.isSome_some, or_true, decide_true]
    · rw [hfh, List.length_cons]
      exact Nat.succ_le_succ hlen
    · rw [StateManager.resolveFh, if_neg (by simp [hbody])]
  · have hlen : (newFhBootNonce boot.random ++ be64 (BitVec.ofNat 64 (1 + i))).length = fhLen := by
      rw [List.length_append, length_newFhBootNonce, length_be64, fhLen]
    have htake : (newFhBootNonce boot.random ++ be64 (BitVec.ofNat 64 (1 + i))).take fhNonceLen =
        s.fhBootNonce := by
      rw [hnonce, ← length_newFhBootNonce boot.random, List.take_left]
    refine ⟨?_, ?_, ?_⟩
    · simp only [fhHasValidFormat, hlen, true_or, decide_true]
    · rw [hlen]
      decide
    · rw [StateManager.resolveFh, if_neg (by simp [hlen, htake])]

/-! ## Steps -/

namespace FilehandleTables

variable {boot : Boot} {minted : Nat} {s s' : StateManager}

theorem new (boot : Boot) : FilehandleTables boot 0 (StateManager.new boot) where
  nonce := rfl
  next := rfl
  recorded _ _ h := by cases h
  layout _ _ h := by cases h
  inverse _ _ _ := ⟨nofun, nofun⟩

theorem record (h : FilehandleTables boot minted s) (id : ObjectId) (encoded : Encoding) :
    FilehandleTables boot minted (s.recordPersistentFh id encoded.val) where
  nonce := h.nonce
  next := h.next
  recorded id' fh hget := by
    rw [StateManager.recordPersistentFh, Table.get_insert] at hget
    split at hget
    · cases hget
      rw [persistentFhBody_encoding]
      rfl
    · exact h.recorded id' fh hget
  layout := h.layout
  inverse := h.inverse

theorem inverse_insert {object : ServerObject} {fh : Bytes} (h : s.Inverse)
    (hobject : s.objectToFh.get object = none) (hfh : s.fhToObject.get fh = none)
    (hfhs : s'.fhToObject = s.fhToObject.insert fh object)
    (hobjects : s'.objectToFh = s.objectToFh.insert object fh) : s'.Inverse := by
  intro object' fh'
  rw [hfhs, hobjects, Table.get_insert, Table.get_insert]
  by_cases ho : object' = object <;> by_cases hf : fh' = fh
  · simp [ho, hf]
  · -- the new object has no other filehandle
    have hother := h object fh'
    rw [hobject] at hother
    simp only [ho, if_true, hf, if_false, ← hother, Option.some_inj, reduceCtorEq, iff_false]
    exact fun heq => hf heq.symm
  · have hother := h object' fh
    rw [hfh] at hother
    simp only [ho, if_false, hf, if_true, hother, Option.some_inj, reduceCtorEq, false_iff]
    exact fun heq => ho heq.symm
  · simp only [ho, hf, if_false]
    exact h object' fh'

theorem next_fresh (h : FilehandleTables boot minted s) (hle : minted < 2 ^ 64) :
    s.fhToObject.get (s.bootFh s.nextFh) = none := by
  refine Option.eq_none_iff_forall_ne_some.mpr fun object hget => ?_
  rw [StateManager.bootFh, h.nonce, h.next] at hget
  rcases h.layout _ object hget with hbody | ⟨i, hi, heq⟩
  · rw [persistentFhBody_bootFh] at hbody
    cases hbody
  · have hnumber := congrArg BitVec.toNat (be64_injective (List.append_cancel_left heq))
    rw [BitVec.toNat_ofNat, BitVec.toNat_ofNat] at hnumber
    omega

/-- **Step lemma.** What asking for a filehandle does to the tables. -/
theorem mint {object : ServerObject} {n : Nat} {r : Option Bytes}
    (h : FilehandleTables boot minted s) (hstep : MintStep object s s' n)
    (hnames : NamesObject object r s s') : FilehandleTables boot (minted + n) s' := by
  by_cases hget : s.objectToFh.get object = none
  · cases hstep with
    | none _ hs =>
      rw [hs]
      exact h
    | claim id fh hrecorded hclaimed hobjects hnext hnonce =>
      have hbody := h.recorded id fh hrecorded
      refine ⟨hnonce.trans h.nonce, hnext.trans h.next, ?_, fun fh' object' hget' => ?_,
        fun hle => ?_⟩
      · rw [hnames.persistent]
        exact h.recorded
      · rcases hclaimed with ⟨-, hfhs⟩ | ⟨-, hfhs⟩
        · rw [hfhs] at hget'
          exact h.layout fh' object' hget'
        · rw [hfhs, Table.get_insert] at hget'
          split at hget'
          · rename_i heq
            rw [heq]
            exact .inl hbody
          · exact h.layout fh' object' hget'
      · rcases hclaimed with ⟨hfh, -⟩ | ⟨hfresh, hfhs⟩
        · -- an object that its encoding leads to already has that filehandle
          rw [(h.inverse hle object fh).mpr hfh] at hget
          cases hget
        · exact inverse_insert (h.inverse hle) hget hfresh hfhs hobjects
    | boot hs =>
      have hfh : s.bootFh s.nextFh =
          newFhBootNonce boot.random ++ be64 (BitVec.ofNat 64 (1 + minted)) := by
        rw [StateManager.bootFh, h.nonce, h.next]
      refine ⟨by rw [hs]; exact h.nonce, ?_, ?_, fun fh' object' hget' => ?_, fun hle => ?_⟩
      · rw [hs]
        show s.nextFh + 1 = _
        rw [h.next, ofNat_succ]
        rfl
      · rw [hnames.persistent]
        exact h.recorded
      · rw [hs, Table.get_insert] at hget'
        split at hget'
        · rename_i heq
          exact .inr ⟨minted, Nat.lt_succ_self _, heq.trans hfh⟩
        · exact (h.layout fh' object' hget').mono
      · exact inverse_insert (h.inverse (by omega)) hget (h.next_fresh (by omega))
          (by rw [hs]) (by rw [hs])
  · have hs := hnames.same hget
    cases hstep with
    | none _ hs =>
      rw [hs]
      exact h
    | claim id fh hrecorded hclaimed hobjects hnext hnonce =>
      rw [hs]
      exact h
    | boot hs' =>
      -- a new filehandle would have moved the counter
      have hnext := congrArg StateManager.nextFh (hs.symm.trans hs')
      have hsucc : s.nextFh = s.nextFh + 1 := hnext
      generalize s.nextFh = number at hsucc
      bv_omega

/-- **Step lemma.** Invalidating objects takes pairs out of both tables. -/
theorem invalidate {H : Type} {t t' : Server H} {ids : List ObjectId}
    {counts : InvalidationCounts} (h : FilehandleTables boot minted t.state)
    (halone : Request.alone (invalidateObjects (t.state.fhShardMask + 1) ids) t =
      some (counts, t')) : FilehandleTables boot minted t'.state := by
  by_cases hids : ids = []
  · subst hids
    cases halone
    exact h
  · have hsweep := alone_invalidateObjects_sweep hids t
    rw [halone] at hsweep
    obtain ⟨-, hs⟩ := Prod.mk.inj (Option.some.inj hsweep)
    refine ⟨by rw [hs]; exact h.nonce, by rw [hs]; exact h.next, fun id fh hget => ?_,
      fun fh object hget => ?_, fun hle => ?_⟩
    · rw [hs] at hget
      exact h.recorded id fh (Table.get_retain_eq_some.mp hget).1
    · rw [hs] at hget
      exact h.layout fh object (Table.get_retain_eq_some.mp hget).1
    · have hinverse := h.inverse hle
      have hwithout := alone_invalidateObjects hinverse.paired ids
      rw [halone] at hwithout
      obtain ⟨-, hs'⟩ := Prod.mk.inj (Option.some.inj hwithout)
      intro object fh
      rw [hs']
      simp only [StateManager.without, StateManager.leftOver, Table.get_retain_eq_some]
      rw [hinverse object fh]

end FilehandleTables

section

variable {H : Type} {boot : Boot} {minted : Nat} {s : Server H}

/-- **Run lemma.** The tables after any sequence of calls. -/
theorem FilehandleRun.tables (h : FilehandleRun boot minted s) :
    FilehandleTables boot minted s.state := by
  induction h with
  | new => exact FilehandleTables.new boot
  | record _ id encoded ih => exact ih.record id encoded
  | @objectToFh minted s s' _ object r halone ih =>
    obtain ⟨r', s₁, hmint, hstep, hnames⟩ := alone_objectToFh object s
    rw [halone] at hmint
    cases hmint
    exact ih.mint hstep hnames
  | invalidateObjects _ ids counts halone ih => exact ih.invalidate halone

/-- After every sequence of calls that mints at most `2 ^ 64` boot-scoped filehandles, the tables are
inverse to each other, and a filehandle that `object_to_fh` returns then is well formed, has at
most 128 bytes and is resolved to its object. -/
theorem filehandle_tables_inverse (h : FilehandleRun boot minted s) (hminted : minted ≤ 2 ^ 64) :
    s.state.Inverse ∧
    ∀ (object : ServerObject) (fh : Bytes) (s' : Server H),
      Request.alone (objectToFh object) s = some (some fh, s') →
      minted + filehandlesMinted (Request.events (objectToFh object) s) ≤ 2 ^ 64 →
        fhHasValidFormat fh = true ∧ fh.length ≤ 128 ∧ s'.state.resolveFh fh = some object := by
  refine ⟨h.tables.inverse hminted, fun object fh s' halone hminted' => ?_⟩
  have htables := (h.objectToFh object (some fh) halone).tables
  obtain ⟨r, s₁, hmint, -, hnames⟩ := alone_objectToFh object s
  rw [halone] at hmint
  cases hmint
  have hfh := (htables.inverse hminted' object fh).mp (hnames.named fh rfl)
  obtain ⟨hformat, hlength, hresolve⟩ := (htables.layout fh object hfh).valid htables.nonce
  exact ⟨hformat, hlength, hresolve.trans hfh⟩

end

/-- Two objects with colliding encodings get different filehandles. -/
theorem filehandle_tables_inverse_collision :
    ∃ s : Server Unit, FilehandleRun .fixed 1 s ∧ s.state.Inverse ∧
      s.state.objectToFh.get (.fs 1) = some [persistentFhTag, 7] ∧
      s.state.objectToFh.get (.fs 2) = some (newFhBootNonce Boot.fixed.random ++ be64 1) := by
  have hnew : FilehandleRun .fixed 0 (Server.new Unit .fixed) := .new
  have hrecorded := (hnew.record 1 ⟨[7], by decide⟩).record 2 ⟨[7], by decide⟩
  have hfirst := hrecorded.objectToFh (.fs 1) (some [persistentFhTag, 7]) rfl
  have hsecond := hfirst.objectToFh (.fs 2)
    (some (newFhBootNonce Boot.fixed.random ++ be64 1)) rfl
  exact ⟨_, hsecond, (filehandle_tables_inverse hsecond (by decide)).1, by decide +kernel,
    by decide +kernel⟩

/-! ## The counter comes round -/

theorem filehandleRun_comesRound (n : Nat) (hn : n ≤ 2 ^ 64) :
    ∃ s : Server Nat, FilehandleRun .fixed (1 + n) s ∧
      ComesRound (newFhBootNonce Boot.fixed.random) n s.state := by
  induction n with
  | zero =>
    have hnew : FilehandleRun .fixed 0 (Server.new Nat .fixed) := .new
    obtain ⟨r, s, halone, hminted, hs⟩ := alone_objectToFh_boot (.namedAttrDir 1)
      (Server.new Nat .fixed) rfl rfl fun _ => rfl
    refine ⟨s, ?_, ?_⟩
    · have hrun := hnew.objectToFh _ r halone
      rwa [hminted] at hrun
    · rw [hs]
      exact ComesRound.first_minted
  | succ n ih =>
    obtain ⟨s, hrun, hround⟩ := ih (by omega)
    obtain ⟨r, s', halone, hminted, hs⟩ := alone_objectToFh_boot _ s
      (hround.free n le_rfl (by omega)) hround.retired hround.persistent
    refine ⟨s', ?_, ?_⟩
    · have hrun' := hrun.objectToFh _ r halone
      rwa [hminted] at hrun'
    · rw [hs]
      exact hround.minted (by omega)

/-- After `2 ^ 64 + 1` boot-scoped filehandles the first one leads to another object than the one that
still has it. -/
theorem filehandle_tables_wrap :
    ∃ s : Server Nat, FilehandleRun .fixed (2 ^ 64 + 1) s ∧ ¬ s.state.Inverse := by
  obtain ⟨s, hrun, hround⟩ := filehandleRun_comesRound (2 ^ 64) le_rfl
  refine ⟨s, by rwa [Nat.add_comm] at hrun, fun hinverse => ?_⟩
  obtain ⟨id, hlast⟩ := hround.last (by omega)
  have hone : BitVec.ofNat 64 (1 + 2 ^ 64) = 1 := by decide
  rw [hone] at hlast
  have hfirst := (hinverse _ _).mp hround.first
  rw [hfirst] at hlast
  cases hlast

end EmbedNfs

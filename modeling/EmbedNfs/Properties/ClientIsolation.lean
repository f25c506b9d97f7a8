import EmbedNfs.Effects.Helpers
import EmbedNfs.Properties.StateidKeys
import EmbedNfs.Server.Scripted

/-!
# Isolation of clients

An operation that is bound to one client and given the stateid of another client's open,
lock or delegation fails and touches nobody's opens, locks and delegations. The stateid
itself names the other client, so the lookup fails in whatever state it is made, and every
operation that takes a stateid makes the lookup before it changes anything.

FREE_STATEID takes no client at all, so it refuses only what is in use. DELEGRETURN is a stub where
directory delegations are disabled: it changes nothing and says `ok`.
-/

namespace EmbedNfs

/-- The result is an error, with a status that says so. -/
def Refused {α : Type} (r : Except NfsStat4 α) : Prop := ∃ status, r = .error status ∧ status ≠ .ok

theorem Refused.of_ne {α : Type} {r : Except NfsStat4 α} (hok : ∀ a, r ≠ .ok a)
    (herror : r ≠ .error .ok) : Refused r := by
  cases r with
  | ok a => exact absurd rfl (hok a)
  | error status => exact ⟨status, rfl, fun h => herror (by rw [h])⟩

/-! ## Lookups of foreign stateids -/

namespace StateManager

variable {s : StateManager} {clientid : Clientid4} {stateid : Stateid4}

theorem resolveConcrete_refused (h : s.inner.KeysEmbed)
    (hforeign : stateid.other.clientid ≠ clientid) :
    Refused (s.resolveConcrete (some clientid) stateid) := by
  refine .of_ne (fun resolved hok => ?_) (resolveConcrete_ne_error_ok s (some clientid) stateid)
  rcases resolveConcrete_ok hok with ⟨opened, hget, -, hclient, -⟩ | ⟨lock, -, hget, -, hclient, -⟩
  · exact hforeign ((h.openFiles _ _ hget).symm.trans (hclient clientid rfl))
  · exact hforeign ((h.lockFiles _ _ hget).symm.trans (hclient clientid rfl))

theorem returnDelegationState_refused (h : s.inner.KeysEmbed)
    (hforeign : stateid.other.clientid ≠ clientid) :
    Refused (s.returnDelegationState stateid (some clientid)) := by
  refine .of_ne (fun s' hok => ?_) (returnDelegationState_ne_error_ok s stateid (some clientid))
  obtain ⟨⟨state, hget, hclient⟩, -⟩ := returnDelegationState_ok hok
  exact hforeign ((h.delegations _ _ hget).symm.trans (hclient clientid rfl))

end StateManager

namespace StateManager

/-- What a stateid names is in use: an open that is active or has active locks, or an active lock,
or a live delegation. -/
def StateidInUse (s : StateManager) (other : StateidOther) : Prop :=
  (∃ a, s.inner.openFiles.get other = some a ∧ (a.active = true ∨ s.locksHeld other = true)) ∨
  s.inner.openFiles.get other = none ∧
    ((∃ a, s.inner.lockFiles.get other = some a ∧ a.active = true) ∨
      s.inner.lockFiles.get other = none ∧
        ∃ a, s.inner.delegations.get other = some a ∧ a.status.isLive = true)

theorem freeStateid_refused {s : StateManager} {stateid : Stateid4}
    (h : s.StateidInUse stateid.other) : Refused (s.freeStateid stateid) := by
  have hseq := validateStateidSeq_ne_error_ok
  unfold StateidInUse at h
  refine .of_ne (fun s' hok => ?_) fun herror => ?_
  · simp only [freeStateid, bind, Except.bind, pure, Except.pure, throw, throwThe,
      MonadExceptOf.throw] at hok
    grind
  · simp only [freeStateid, bind, Except.bind, pure, Except.pure, throw, throwThe,
      MonadExceptOf.throw] at herror
    grind

end StateManager

/-! ## Answers and calls -/

/-- The answers that a request of the client may get while `other` is a stateid that does not
name the client, from a backend whose errors are errors. -/
def Call.MayAnswer {H : Type} (clientid : Clientid4) (other : StateidOther) :
    (c : Call H) → c.Ret → Prop
  | .guarded (.resolveConcrete clientid' stateid), r =>
    clientid' = some clientid → stateid.other = other → Refused r
  | .guarded (.returnDelegationState stateid clientid'), r =>
    clientid' = some clientid → stateid.other = other → Refused r
  | .guarded (.freeStateid _), r => Refused r
  | .register _, r => r ≠ .error .ok
  | .backend _ _ _ _, r => r ≠ .error .ok
  | _, _ => True

/-- The calls that leave opens, locks and delegations alone, reaping aside. -/
def Call.Harmless {H : Type} (clientid : Clientid4) (other : StateidOther) : Call H → Prop
  | .guarded .reapExpiredClients | .guarded (.resolveConcrete _ _)
  | .guarded (.namedAttrCount _) | .guarded (.setNamedAttrCount _ _ _)
  | .guarded (.ensureMeta _ _) | .guarded (.freeStateid _) => True
  | .guarded (.returnDelegationState stateid clientid') =>
    clientid' = some clientid ∧ stateid.other = other
  | .guarded _ => False
  | _ => True

/-- A FREE_STATEID finds in use what it names. -/
def Call.FindsHeld {H : Type} (s : Server H) : Call H → Prop
  | .guarded (.freeStateid stateid) => s.state.StateidInUse stateid.other
  | _ => True

/-- Whether the call is that of FREE_STATEID. -/
def Call.frees {H : Type} : Call H → Bool
  | .guarded (.freeStateid _) => true
  | _ => false

theorem Call.findsHeld_of_not_frees {H : Type} {s : Server H} {c : Call H}
    (h : c.frees = false) : c.FindsHeld s := by
  unfold Call.FindsHeld
  split
  · cases h
  · trivial

/-- The backend reports no error that says "success". -/
def Call.Honest {H : Type} : (c : Call H) → c.Ret → Prop
  | .backend _ _ _ _, r => r ≠ .error .ok
  | _, _ => True

section

variable {H : Type} [DecidableEq H] {backend : Backend H} {s s' : Server H} {c : Call H}
  {r : c.Ret} {clientid : Clientid4} {other : StateidOther}

theorem Server.register_ne_error_ok (handle : H) :
    (Server.register backend s handle).1 ≠ .error .ok := by
  unfold Server.register
  split
  · simp
  · split <;> simp

theorem Call.mayAnswer_of_exec (hexec : (Server.system backend).exec s c r s')
    (hkeys : s.state.inner.KeysEmbed) (hforeign : other.clientid ≠ clientid)
    (hheld : c.FindsHeld s) (hhonest : c.Honest r) : c.MayAnswer clientid other r := by
  cases c with
  | guarded q =>
    cases q with
    | resolveConcrete clientid' stateid =>
      rintro rfl rfl
      rw [hexec.1]
      exact StateManager.resolveConcrete_refused hkeys hforeign
    | returnDelegationState stateid clientid' =>
      rintro rfl rfl
      rw [hexec.1]
      obtain ⟨status, herror, hne⟩ := StateManager.returnDelegationState_refused hkeys hforeign
      exact ⟨status, by simp [StateManager.runSection, herror, StateManager.commitUnit], hne⟩
    | freeStateid stateid =>
      rw [hexec.1]
      obtain ⟨status, herror, hne⟩ := StateManager.freeStateid_refused hheld
      exact ⟨status, by simp [StateManager.runSection, herror, StateManager.commitUnit], hne⟩
    | _ => trivial
  | register handle =>
    have hr : r = (Server.register backend s handle).1 := congrArg Prod.fst hexec
    rw [hr]
    exact Server.register_ne_error_ok handle
  | backend ctx origin dirs q => exact hhonest
  | _ => trivial

/-- Opens, locks and delegations are the same in both states. -/
structure StateInner.SameStates (a b : StateInner) : Prop where
  openFiles : a.openFiles = b.openFiles
  lockFiles : a.lockFiles = b.lockFiles
  delegations : a.delegations = b.delegations

theorem StateManager.OnlyMetadata.sameStates {s s' : StateManager} (h : s'.OnlyMetadata s) :
    s'.inner.SameStates s.inner := by
  obtain ⟨entries, changeid, fileid, rfl⟩ := h
  exact ⟨rfl, rfl, rfl⟩

theorem Call.Harmless.sameStates (h : c.Harmless clientid other)
    (hexec : (Server.system backend).exec s c r s') (hkeys : s.state.inner.KeysEmbed)
    (hforeign : other.clientid ≠ clientid) (hheld : c.FindsHeld s) :
    c = .guarded .reapExpiredClients ∨ s'.state.inner.SameStates s.state.inner := by
  cases c with
  | guarded q =>
    rw [hexec.2]
    cases q with
    | reapExpiredClients => exact Or.inl rfl
    | resolveConcrete clientid' stateid => exact Or.inr ⟨rfl, rfl, rfl⟩
    | namedAttrCount object => exact Or.inr ⟨rfl, rfl, rfl⟩
    | setNamedAttrCount object fileType count =>
      exact Or.inr (s.state.setNamedAttrCount_only object fileType count).sameStates
    | ensureMeta object fileType => exact Or.inr (s.state.ensureMeta_only object fileType).sameStates
    | returnDelegationState stateid clientid' =>
      obtain ⟨rfl, rfl⟩ := h
      obtain ⟨status, herror, -⟩ := StateManager.returnDelegationState_refused hkeys hforeign
      simp only [StateManager.runSection, herror, StateManager.commitUnit]
      exact Or.inr ⟨rfl, rfl, rfl⟩
    | freeStateid stateid =>
      obtain ⟨status, herror, -⟩ := StateManager.freeStateid_refused hheld
      simp only [StateManager.runSection, herror, StateManager.commitUnit]
      exact Or.inr ⟨rfl, rfl, rfl⟩
    | _ => exact h.elim
  | mapOp q =>
    rw [hexec.2]
    have hinner := s.state.runMapOp_inner q
    exact Or.inr ⟨by rw [hinner], by rw [hinner], by rw [hinner]⟩
  | _ =>
    obtain ⟨persistentFh, hs⟩ := Server.exec_other hexec (by simp) (by simp)
    rw [hs]
    exact Or.inr ⟨rfl, rfl, rfl⟩

end

/-- The program gets along with harmless calls and returns values with `Q`. -/
abbrev Isolated {H α : Type} (clientid : Clientid4) (other : StateidOther) (Q : α → Prop)
    (p : Request H α) : Prop :=
  p.Along (Call.MayAnswer clientid other) (Call.Harmless clientid other) Q

section

variable {H α : Type} {clientid : Clientid4} {other : StateidOther}

theorem Helper.isolated {Q : α → Prop} {p : Request H α} (h : Helper True Q p) :
    Isolated clientid other Q p := by
  refine h.mono (fun c r hr _ => ?_) (fun c hc => ?_) fun _ hQ => hQ
  · cases c with
    | register handle => exact hr
    | backend ctx origin dirs q => exact hr
    | _ => trivial
  · cases c with
    | guarded q => cases q <;> trivial
    | _ => trivial

/-! ## The lookup -/

theorem normalizeStateid_of_concrete {requested stateid : Stateid4} {current : Option Stateid4}
    {mode : CurrentStateidMode} (h : concreteStateid requested current mode = .ok stateid) :
    normalizeStateid requested current mode = .ok (.concrete stateid) := by
  unfold concreteStateid at h
  grind

theorem resolveStateidOp_refused {requested stateid : Stateid4} {current : Option Stateid4}
    {mode : CurrentStateidMode}
    (h : normalizeStateid requested current mode = .ok (.concrete stateid))
    (hother : stateid.other = other) :
    Isolated (H := H) clientid other Refused
      (resolveStateidOp (some clientid) requested current mode) := by
  refine ⟨trivial, fun _ _ => ?_⟩
  dsimp only [Program.bind]
  rw [h]
  exact ⟨trivial, fun r hr => hr rfl hother⟩

theorem resolveStateidOp_none {stateid : Stateid4} (mode : CurrentStateidMode)
    (hother : stateid.other = other) :
    Isolated (H := H) clientid other
      (fun r => Refused r ∨ r = .ok .anonymous ∨ r = .ok .bypass)
      (resolveStateidOp (some clientid) stateid none mode) :=
  resolveStateidOp_along trivial trivial (Or.inl ⟨_, rfl, by decide⟩) (Or.inr (Or.inl rfl))
    (Or.inr (Or.inr rfl)) fun _ hr => Or.inl (hr rfl hother)

end

/-! ## Operations -/

/-- The stateid a LOCK request names. -/
def Locker4.stateid : Locker4 → Stateid4
  | .newLockOwner openStateid _ => openStateid
  | .existingLockOwner lockStateid => lockStateid

section

variable {H : Type} {backend : Backend H} {ctx : OpContext} {clientid : Clientid4}
  {stateid : Stateid4} {currentFh : Option Bytes} {currentStateid : Option Stateid4}

theorem resolveObject_refused {k : Except NfsStat4 (Bytes × ServerObject) → Request H NfsResop4}
    (herror : ∀ status, status ≠ .ok →
      Isolated clientid stateid.other (·.status ≠ .ok) (k (.error status)))
    (hok : ∀ fh object, Isolated clientid stateid.other (·.status ≠ .ok) (k (.ok (fh, object)))) :
    Isolated clientid stateid.other (·.status ≠ .ok) (resolveObject backend currentFh >>= k) := by
  refine Program.Along.bind (resolveObject_helper currentFh).isolated fun r hr => ?_
  rcases r with status | ⟨fh, object⟩
  · exact herror status fun h => hr trivial (by rw [h])
  · exact hok fh object

theorem lookup_refused {k : Except NfsStat4 ResolvedStateid → Request H NfsResop4}
    (mode : CurrentStateidMode)
    (herror : ∀ status, status ≠ .ok →
      Isolated clientid stateid.other (·.status ≠ .ok) (k (.error status)))
    (hanonymous : Isolated clientid stateid.other (·.status ≠ .ok) (k (.ok .anonymous)))
    (hbypass : Isolated clientid stateid.other (·.status ≠ .ok) (k (.ok .bypass))) :
    Isolated clientid stateid.other (·.status ≠ .ok)
      (resolveStateidOp (some clientid) stateid none mode >>= k) := by
  refine Program.Along.bind (resolveStateidOp_none mode rfl) fun r hr => ?_
  rcases hr with ⟨status, rfl, hne⟩ | rfl | rfl
  · exact herror status hne
  · exact hanonymous
  · exact hbypass

theorem opClose_refused {requested : Stateid4} (hctx : ctx.sequenceClientid = some clientid)
    (hstateid : concreteStateid requested currentStateid .preserveSeqid = .ok stateid) :
    Isolated clientid stateid.other (·.status ≠ .ok)
      (opClose backend ctx requested currentFh currentStateid) := by
  unfold opClose
  rw [hctx, hstateid]
  refine resolveObject_refused (fun _ hne => hne) fun fh object => ?_
  show Isolated clientid stateid.other _
    (resolveStateidOp (some clientid) stateid none .preserveSeqid >>= _)
  exact lookup_refused _ (fun _ hne => hne) nofun nofun

theorem opOpenDowngrade_refused {args : OpenDowngradeArgs4}
    (hctx : ctx.sequenceClientid = some clientid)
    (hstateid : concreteStateid args.openStateid currentStateid .preserveSeqid = .ok stateid) :
    Isolated (H := H) clientid stateid.other (·.status ≠ .ok)
      (opOpenDowngrade ctx args currentStateid) := by
  unfold opOpenDowngrade
  rw [hctx, hstateid]
  show Isolated clientid stateid.other _
    (resolveStateidOp (some clientid) stateid none .preserveSeqid >>= _)
  exact lookup_refused _ (fun _ hne => hne) nofun nofun

theorem lockNewOwner_refused {args : LockArgs4} {object : ServerObject} {requested : Stateid4}
    {lockOwner : StateOwner4}
    (hstateid : concreteStateid requested currentStateid .zeroSeqid = .ok stateid) :
    Isolated (H := H) clientid stateid.other (·.status ≠ .ok)
      (lockNewOwner args object currentStateid clientid requested lockOwner) := by
  unfold lockNewOwner
  rw [hstateid]
  show Isolated clientid stateid.other _
    (resolveStateidOp (some clientid) stateid none .zeroSeqid >>= _)
  exact lookup_refused _ (fun _ hne => hne) nofun nofun

theorem lockExistingOwner_refused {args : LockArgs4} {object : ServerObject}
    {requested : Stateid4}
    (hstateid : concreteStateid requested currentStateid .zeroSeqid = .ok stateid) :
    Isolated (H := H) clientid stateid.other (·.status ≠ .ok)
      (lockExistingOwner args object currentStateid clientid requested) := by
  unfold lockExistingOwner
  rw [hstateid]
  show Isolated clientid stateid.other _
    (resolveStateidOp (some clientid) stateid none .zeroSeqid >>= _)
  exact lookup_refused _ (fun _ hne => hne) nofun nofun

theorem validateLockBounds_ne_error_ok (offset length : U64) :
    validateLockBounds offset length ≠ .error .ok := by
  unfold validateLockBounds
  split
  · simp
  · split <;> simp

theorem opLock_refused {args : LockArgs4} (hctx : ctx.sequenceClientid = some clientid)
    (hstateid : concreteStateid args.locker.stateid currentStateid .zeroSeqid = .ok stateid) :
    Isolated clientid stateid.other (·.status ≠ .ok)
      (opLock backend ctx args currentFh currentStateid) := by
  unfold opLock
  refine resolveObject_refused (fun _ hne => hne) fun fh object => ?_
  show Isolated clientid stateid.other _ (buildAttr backend ctx.request object >>= _)
  refine Program.Along.bind (buildAttr_helper object).isolated fun r hr => ?_
  cases r with
  | error e => exact hr.toNfsstat4 trivial
  | ok attr =>
    dsimp only
    split
    · exact nofun
    · have hbounds := validateLockBounds_ne_error_ok args.offset args.length
      split
      · rename_i status herror
        exact fun h => hbounds (by rw [herror]; cases h; rfl)
      · rw [hctx]
        dsimp only
        cases hlocker : args.locker with
        | newLockOwner openStateid lockOwner =>
          rw [hlocker] at hstateid
          exact lockNewOwner_refused hstateid
        | existingLockOwner lockStateid =>
          rw [hlocker] at hstateid
          exact lockExistingOwner_refused hstateid

theorem opLocku_refused {args : LockuArgs4} (hctx : ctx.sequenceClientid = some clientid)
    (hstateid : concreteStateid args.lockStateid currentStateid .zeroSeqid = .ok stateid) :
    Isolated clientid stateid.other (·.status ≠ .ok)
      (opLocku backend ctx args currentFh currentStateid) := by
  unfold opLocku
  refine resolveObject_refused (fun _ hne => hne) fun fh object => ?_
  rw [hctx, hstateid]
  show Isolated clientid stateid.other _
    (resolveStateidOp (some clientid) stateid none .zeroSeqid >>= _)
  exact lookup_refused _ (fun _ hne => hne) nofun nofun

theorem opFreeStateid_refused {requested : Stateid4}
    (hstateid : concreteStateid requested currentStateid .zeroSeqid = .ok stateid) :
    Isolated (H := H) clientid stateid.other (·.status ≠ .ok)
      (opFreeStateid requested currentStateid) := by
  unfold opFreeStateid
  rw [hstateid]
  refine ⟨trivial, fun _ _ => ⟨trivial, fun r hr => ?_⟩⟩
  obtain ⟨status, rfl, hne⟩ := hr
  exact hne

theorem opDelegReturn_refused {config : DelegationConfig} {requested : Stateid4}
    {state : CompoundState} (hctx : ctx.sequenceClientid = some clientid)
    (henabled : config.stateOpsEnabled state.minorversion = true)
    (hstateid : concreteStateid requested state.currentStateid .zeroSeqid = .ok stateid) :
    Isolated (H := H) clientid stateid.other (·.status ≠ .ok)
      (opDelegReturn config ctx requested state) := by
  unfold opDelegReturn
  rw [hctx, henabled, hstateid]
  refine ⟨trivial, fun _ _ => ⟨⟨rfl, rfl⟩, fun r hr => ?_⟩⟩
  obtain ⟨status, rfl, hne⟩ := hr rfl rfl
  exact hne

/-! ### Reads, writes and truncation -/

theorem Isolated.andThen_refused {α β : Type} {other : StateidOther}
    {p : Request H (Except NfsStat4 α)} {f : α → Request H (Except NfsStat4 β)}
    (hp : Isolated clientid other Refused p) :
    Isolated clientid other Refused (Request.andThen p f) := by
  refine Program.Along.bind hp fun r hr => ?_
  obtain ⟨status, rfl, hne⟩ := hr
  exact ⟨status, rfl, hne⟩

theorem validateIoStateid_refused {object : ServerObject} {requested : Stateid4} {isWrite : Bool}
    {offset length : U64}
    (hstateid : concreteStateid requested currentStateid .zeroSeqid = .ok stateid) :
    Isolated (H := H) clientid stateid.other Refused
      (validateIoStateid object requested currentStateid (some clientid) isWrite offset
        length) :=
  .andThen_refused
    (.andThen_refused (resolveStateidOp_refused (normalizeStateid_of_concrete hstateid) rfl))

theorem opRead_refused {args : ReadArgs4} (hctx : ctx.sequenceClientid = some clientid)
    (hstateid : concreteStateid args.stateid currentStateid .zeroSeqid = .ok stateid) :
    Isolated clientid stateid.other (·.status ≠ .ok)
      (opRead backend ctx args currentFh currentStateid) := by
  unfold opRead
  refine resolveObject_refused (fun _ hne => hne) fun fh object => ?_
  rw [hctx]
  show Isolated clientid stateid.other _ (validateIoStateid _ _ _ _ _ _ _ >>= _)
  refine Program.Along.bind (validateIoStateid_refused hstateid) fun r hr => ?_
  obtain ⟨status, rfl, hne⟩ := hr
  exact hne

theorem opWrite_refused {writeVerifier : Verifier4} {args : WriteArgs4}
    (hctx : ctx.sequenceClientid = some clientid)
    (hstateid : concreteStateid args.stateid currentStateid .zeroSeqid = .ok stateid) :
    Isolated clientid stateid.other (·.status ≠ .ok)
      (opWrite backend writeVerifier ctx args currentFh currentStateid) := by
  unfold opWrite
  refine resolveObject_refused (fun _ hne => hne) fun fh object => ?_
  rw [hctx]
  show Isolated clientid stateid.other _ (validateIoStateid _ _ _ _ _ _ _ >>= _)
  refine Program.Along.bind (validateIoStateid_refused hstateid) fun r hr => ?_
  obtain ⟨status, rfl, hne⟩ := hr
  exact hne

theorem opSetattr_refused {config : DelegationConfig} {args : SetattrArgs4} {setAttrs : SetAttrs}
    (hctx : ctx.sequenceClientid = some clientid)
    (hattrs : decodeSetattr args.objAttributes = .ok setAttrs) (hsize : setAttrs.size.isSome = true)
    (hstateid : concreteStateid args.stateid currentStateid .zeroSeqid = .ok stateid) :
    Isolated clientid stateid.other (·.status ≠ .ok)
      (opSetattr backend config ctx args currentFh currentStateid) := by
  obtain ⟨size, hsome⟩ := Option.isSome_iff_exists.mp hsize
  unfold opSetattr
  refine resolveObject_refused (fun _ hne => hne) fun fh object => ?_
  rw [hattrs]
  have hgate : Isolated (H := H) clientid stateid.other (Genuine True .ok)
      (setattrGate ctx object setAttrs) := by
    unfold setattrGate
    rw [hsome]
    exact (namedAttrGate_helper object _).isolated
  show Isolated clientid stateid.other _ (setattrGate ctx object setAttrs >>= _)
  refine Program.Along.bind hgate fun r hr => ?_
  cases r with
  | error status => exact fun h => hr trivial (by cases h; rfl)
  | ok _ =>
    -- A size change fetches the attributes.
    have hcurrent : Isolated clientid stateid.other
        (fun r => r ≠ .error .ok ∧ r ≠ .ok none)
        (setattrCurrent backend config ctx object setAttrs) := by
      unfold setattrCurrent
      rw [if_pos (Or.inl hsize)]
      refine Program.Along.bind (buildAttr_helper object).isolated fun r hr => ?_
      cases r with
      | ok attr => exact ⟨nofun, nofun⟩
      | error e =>
        exact ⟨fun h => hr.toNfsstat4 trivial (Except.error.inj h), nofun⟩
    show Isolated clientid stateid.other _
      (setattrCurrent backend config ctx object setAttrs >>= _)
    refine Program.Along.bind hcurrent fun r hr => ?_
    rcases r with status | ⟨_ | attr⟩
    · exact fun h => hr.1 (by cases h; rfl)
    · exact absurd rfl hr.2
    · show Isolated clientid stateid.other _
        (setattrDirectory config ctx object setAttrs (some attr) >>= _)
      unfold setattrDirectory
      dsimp only
      cases hdir : attr.isDir with
      | true =>
        simp only [↓reduceIte, hsize]
        exact nofun
      | false =>
        simp only [Bool.false_eq_true, ↓reduceIte]
        show Isolated clientid stateid.other _
          (setattrSize ctx args object setAttrs (some attr) currentStateid >>= _)
        have hrefused : Isolated (H := H) clientid stateid.other Refused
            (setattrSize ctx args object setAttrs (some attr) currentStateid) := by
          unfold setattrSize
          rw [hsome, hctx]
          refine Program.Along.bind (validateIoStateid_refused hstateid) fun r hr => ?_
          obtain ⟨status, rfl, hne⟩ := hr
          exact ⟨status, rfl, hne⟩
        refine Program.Along.bind hrefused fun r hr => ?_
        obtain ⟨status, rfl, hne⟩ := hr
        exact hne

end

/-! ## Runs -/

section

variable {H : Type}

/-- The stateid that an operation acts on: CLOSE, OPEN_DOWNGRADE, LOCK, LOCKU, DELEGRETURN,
FREE_STATEID, READ, WRITE, and a SETATTR that sets the size. -/
def NfsArgop4.actsOn (state : CompoundState) : NfsArgop4 → Option Stateid4
  | .close stateid => (concreteStateid stateid state.currentStateid .preserveSeqid).toOption
  | .openDowngrade args =>
    (concreteStateid args.openStateid state.currentStateid .preserveSeqid).toOption
  | .lock args => (concreteStateid args.locker.stateid state.currentStateid .zeroSeqid).toOption
  | .locku args => (concreteStateid args.lockStateid state.currentStateid .zeroSeqid).toOption
  | .read args => (concreteStateid args.stateid state.currentStateid .zeroSeqid).toOption
  | .write args => (concreteStateid args.stateid state.currentStateid .zeroSeqid).toOption
  | .setattr args =>
    match decodeSetattr args.objAttributes with
    | .ok attrs =>
      if attrs.size.isSome then
        (concreteStateid args.stateid state.currentStateid .zeroSeqid).toOption
      else none
    | .error _ => none
  | .delegReturn stateid => (concreteStateid stateid state.currentStateid .zeroSeqid).toOption
  | .freeStateid stateid => (concreteStateid stateid state.currentStateid .zeroSeqid).toOption
  | _ => none

/-- Whether the operation is the stub of DELEGRETURN. -/
def NfsArgop4.isStub (cfg : ServerConfig H) (state : CompoundState) : NfsArgop4 → Bool
  | .delegReturn _ => !cfg.delegations.stateOpsEnabled state.minorversion
  | _ => false

/-- The result of an operation that acts on another client's state: an error, except for the
stub. -/
def NfsArgop4.Refuses (cfg : ServerConfig H) (state : CompoundState) (op : NfsArgop4)
    (res : NfsResop4) : Prop :=
  res.status = .ok ↔ op.isStub cfg state = true

theorem handleOp_refused {cfg : ServerConfig H} {ctx : OpContext} {connectionId : U64}
    {op : NfsArgop4} {state : CompoundState} {clientid : Clientid4} {stateid : Stateid4}
    (hctx : ctx.sequenceClientid = some clientid) (hop : op.actsOn state = some stateid) :
    Isolated clientid stateid.other (fun r => op.Refuses cfg state r.1)
      (handleOp cfg ctx connectionId op state) := by
  have hkeep : op.isStub cfg state = false → ∀ {p : Request H NfsResop4},
      Isolated clientid stateid.other (·.status ≠ .ok) p →
      Isolated clientid stateid.other (fun r => op.Refuses cfg state r.1) (keepState state p) := by
    intro hstub p hp
    refine Program.Along.bind hp fun res hres => ?_
    show res.status = .ok ↔ op.isStub cfg state = true
    rw [hstub]
    exact ⟨fun h => absurd h hres, nofun⟩
  cases op with
  | close requested => exact hkeep rfl (opClose_refused hctx (of_toOption_eq_some hop))
  | openDowngrade args => exact hkeep rfl (opOpenDowngrade_refused hctx (of_toOption_eq_some hop))
  | lock args => exact hkeep rfl (opLock_refused hctx (of_toOption_eq_some hop))
  | locku args => exact hkeep rfl (opLocku_refused hctx (of_toOption_eq_some hop))
  | read args => exact hkeep rfl (opRead_refused hctx (of_toOption_eq_some hop))
  | write args => exact hkeep rfl (opWrite_refused hctx (of_toOption_eq_some hop))
  | setattr args =>
    simp only [NfsArgop4.actsOn] at hop
    split at hop
    · rename_i attrs hattrs
      split at hop
      · rename_i hsize
        exact hkeep rfl (opSetattr_refused hctx hattrs hsize (of_toOption_eq_some hop))
      · cases hop
    · cases hop
  | freeStateid requested => exact hkeep rfl (opFreeStateid_refused (of_toOption_eq_some hop))
  | delegReturn requested =>
    cases henabled : cfg.delegations.stateOpsEnabled state.minorversion with
    | true =>
      refine hkeep ?_ (opDelegReturn_refused hctx henabled (of_toOption_eq_some hop))
      simp [NfsArgop4.isStub, henabled]
    | false =>
      have hstub : opDelegReturn (H := H) cfg.delegations ctx requested state =
          .ret (.delegReturn .ok) := by
        simp [opDelegReturn, henabled]
      show Isolated clientid stateid.other _ (keepState state _)
      rw [hstub]
      show _ ↔ _
      simp [NfsArgop4.isStub, henabled, NfsResop4.status]
  | _ => cases hop

/-- The entry of a stateid, in whichever table it is, belongs to the client. -/
def StateInner.Owns (inner : StateInner) (clientid : Clientid4) (other : StateidOther) : Prop :=
  (∃ a, inner.openFiles.get other = some a ∧ a.clientid = clientid) ∨
  (∃ a, inner.lockFiles.get other = some a ∧ a.owner.clientid = clientid) ∨
  (∃ a, inner.delegations.get other = some a ∧ a.clientid = clientid)

theorem StateInner.KeysEmbed.clientid_eq {inner : StateInner} (h : inner.KeysEmbed)
    {clientid : Clientid4} {other : StateidOther} (howns : inner.Owns clientid other) :
    other.clientid = clientid := by
  rcases howns with ⟨a, ha, hc⟩ | ⟨a, ha, hc⟩ | ⟨a, ha, hc⟩
  · exact (h.openFiles _ _ ha).symm.trans hc
  · exact (h.lockFiles _ _ ha).symm.trans hc
  · exact (h.delegations _ _ ha).symm.trans hc

end

/-- **Isolation of clients.** Let any requests run against a server, and let one of them be an
operation bound to a client and given a stateid whose open, lock or delegation belongs to a
different client; if it is FREE_STATEID, let what it is given be in use. However its steps
interleave with the others', none of them changes an open, a lock or a delegation, except by reaping
clients whose lease has expired; and the operation ends with an error, except for the stub of
DELEGRETURN, which ends with `ok`. The backend is assumed not to report errors that say
"success". -/
theorem client_isolation {H α : Type} [DecidableEq H] {cfg : ServerConfig H} {boot : Boot}
    {threads : List (Request H α)} {tr₀ tr : Trace H}
    {c₀ c : Machine H α}
    (hreached : (Server.system cfg.backend).Run ⟨Server.new H boot, threads⟩ tr₀ c₀)
    {t : Nat} {f : NfsResop4 × CompoundState → α} {ctx : OpContext} {connectionId : U64}
    {op : NfsArgop4} {state : CompoundState} {clientid owner : Clientid4} {stateid : Stateid4}
    (hthread : c₀.threads[t]? = some (f <$> handleOp cfg ctx connectionId op state))
    (hctx : ctx.sequenceClientid = some clientid) (hop : op.actsOn state = some stateid)
    (howns : c₀.state.state.inner.Owns owner stateid.other) (hforeign : owner ≠ clientid)
    (hrun : (Server.system cfg.backend).Run c₀ tr c)
    (hheld : ∀ e ∈ tr, e.thread = t → e.call.FindsHeld e.before)
    (hhonest : ∀ e ∈ tr, e.call.Honest e.answer) :
    (∀ e ∈ tr, e.thread = t → e.call ≠ .guarded .reapExpiredClients →
      e.after.state.inner.SameStates e.before.state.inner) ∧
    (∀ a, c.threads[t]? = some (.ret a) →
      ∃ res state', a = f (res, state') ∧ op.Refuses cfg state res) := by
  have hkeys := hreached.keysEmbed (StateInner.keysEmbed_new boot)
  have hother : stateid.other.clientid ≠ clientid := by
    rw [hkeys.clientid_eq howns]
    exact hforeign
  have halong : Isolated clientid stateid.other
      (fun a => ∃ res state', a = f (res, state') ∧ op.Refuses cfg state res)
      (f <$> handleOp cfg ctx connectionId op state) :=
    Program.Along.bind (handleOp_refused hctx hop) fun a ha => ⟨a.1, a.2, rfl, ha⟩
  have hmay : ∀ e ∈ tr, e.thread = t → e.call.MayAnswer clientid stateid.other e.answer :=
    fun e he het =>
      Call.mayAnswer_of_exec (hrun.exec he) (hrun.keysEmbed_event hkeys he) hother (hheld e he het)
        (hhonest e he)
  obtain ⟨hharmless, p, hp, hend⟩ := hrun.along hthread hmay halong
  refine ⟨fun e he het hreap => ?_, fun a ha => ?_⟩
  · exact ((hharmless e he het).sameStates (hrun.exec he) (hrun.keysEmbed_event hkeys he)
      hother (hheld e he het)).resolve_left hreap
  · cases ha.symm.trans hp
    exact hend

/-! ## Two clients -/

theorem Server.scripted_honest {H α : Type} [DecidableEq H] {backend : Backend H} {attrs : Attrs}
    (c : Machine H α) (schedule : List Nat) :
    ∀ e ∈ ((Server.scripted backend attrs).play c schedule).1, e.call.Honest e.answer := by
  intro e he
  rw [(Server.scripted backend attrs).answer_of_mem_play c schedule he]
  obtain ⟨u, s, q, r, s'⟩ := e
  cases q with
  | backend ctx origin dirs q => cases q <;> exact nofun
  | _ => trivial

open Scripted

/-- With directory delegations disabled, DELEGRETURN answers `ok` to a client that names
another client's open. With any configuration, FREE_STATEID frees what another client has
closed. -/
theorem client_isolation_exceptions :
    (∃ tr c, (Server.system Backend.single).Run
        ⟨Server.new Unit .fixed, setUp ++ [opBy (some 1) (.delegReturn ⟨1, .mint 2 2⟩)]⟩ tr c ∧
      c.state.state.inner.Owns 2 (.mint 2 2) ∧
      (c.threads[5]?.bind Program.result).map (·.1) = some (.delegReturn .ok)) ∧
    (∃ tr c₁ tr' c, (Server.system Backend.single).Run
        ⟨Server.new Unit .fixed, setUp ++ [opBy (some 2) (.close ⟨1, .mint 2 2⟩),
          opBy (some 1) (.freeStateid ⟨2, .mint 2 2⟩)]⟩ tr c₁ ∧
      c₁.state.state.inner.Owns 2 (.mint 2 2) ∧
      (Server.system Backend.single).Run c₁ tr' c ∧ (∀ e ∈ tr', e.thread = 6) ∧
      c.state.state.inner.openFiles.get (.mint 2 2) = none ∧
      (c.threads[6]?.bind Program.result).map (·.1) = some (.freeStateid .ok)) := by
  refine ⟨⟨_, _, run_run _ [5], Or.inl ⟨⟨.fs 1, 2, [1], 1, true, 3, 0⟩, ?_, rfl⟩, ?_⟩,
    ⟨_, _, _, _, run_run _ (List.replicate 20 5),
      Or.inl ⟨⟨.fs 1, 2, [1], 2, false, 3, 0⟩, ?_, rfl⟩,
      (Server.scripted Backend.single .someFile).play_run _ (List.replicate 20 6), ?_, ?_, ?_⟩⟩
  · decide +kernel
  · decide +kernel
  · decide +kernel
  · intro e he
    exact of_decide_eq_true (List.all_eq_true.mp (show List.all _ (fun e => e.thread = 6) = true by
      decide +kernel) e he)
  · decide +kernel
  · decide +kernel

/-- One client closes the other's open. -/
theorem client_isolation_close :
    let c₀ := (run [id <$> opBy (some 1) (.close ⟨1, .mint 2 2⟩)] []).2
    let played := (Server.scripted Backend.single .someFile).play c₀ (List.replicate 20 5)
    c₀.state.state.inner.Owns 2 (.mint 2 2) ∧
    (∀ e ∈ played.1, e.thread = 5 → e.call ≠ .guarded .reapExpiredClients →
      e.after.state.inner.SameStates e.before.state.inner) ∧
    ∃ res state', played.2.threads[5]? = some (.ret (res, state')) ∧ res.status ≠ .ok := by
  intro c₀ played
  have howns : c₀.state.state.inner.Owns 2 (.mint 2 2) :=
    Or.inl ⟨⟨.fs 1, 2, [1], 1, true, 3, 0⟩, by decide +kernel, rfl⟩
  have hthread : c₀.threads[5]? = some (id <$> opBy (some 1) (.close ⟨1, .mint 2 2⟩)) :=
    (Server.scripted Backend.single .someFile).threads_play _ (by decide)
  have hrun : (Server.system Backend.single).Run c₀ played.1 played.2 :=
    (Server.scripted Backend.single .someFile).play_run c₀ _
  have hfrees : (played.1.all fun e => !e.call.frees) = true := by decide +kernel
  have h := client_isolation (run_run _ _) hthread rfl rfl howns (by decide) hrun
    (fun e he _ => Call.findsHeld_of_not_frees (by simpa using List.all_eq_true.mp hfrees e he))
    (Server.scripted_honest c₀ _)
  have hreturned : played.2.threads[5]?.any Program.returned = true := by decide +kernel
  obtain ⟨a, ha⟩ := Program.of_returned hreturned
  obtain ⟨res, state', rfl, hne⟩ := h.2 a ha
  exact ⟨howns, h.1, res, state', ha, fun h => by cases hne.mp h⟩

end EmbedNfs

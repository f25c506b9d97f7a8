import EmbedNfs.Effects.Operations
import EmbedNfs.Properties.LockOpens
import EmbedNfs.Server.Scripted

/-!
# Ownership of opens and locks

OPEN and LOCK take the client of the new state from the owner in their arguments, not from the
SEQUENCE of their COMPOUND, while every later lookup compares with the client of the SEQUENCE.
A client that puts another client id there gets a stateid it cannot use, and leaves an open or
a lock behind that belongs to somebody else. Where the two agree, the state belongs to the
requesting client, and the stateid resolves for as long as the state stays as it is.
-/

namespace EmbedNfs

/-- An entry of the open table or of the lock table. -/
inductive HeldState where
  | opened (state : OpenFileState)
  | locked (state : LockFileState)
  deriving DecidableEq, Repr

namespace HeldState

def clientid : HeldState → Clientid4
  | .opened state => state.clientid
  | .locked state => state.owner.clientid

def active : HeldState → Bool
  | .opened state => state.active
  | .locked state => state.active

def stateidSeq : HeldState → U32
  | .opened state => state.stateidSeq
  | .locked state => state.stateidSeq

/-- The entry is in its table under the stateid. -/
def At (held : HeldState) (other : StateidOther) (inner : StateInner) : Prop :=
  match held with
  | .opened state => inner.openFiles.get other = some state
  | .locked state => inner.lockFiles.get other = some state

/-- The lookup of the stateid has found the entry. -/
def FoundAs (held : HeldState) (other : StateidOther) : ResolvedStateid → Prop
  | .opened found => ∃ state, held = .opened state ∧ found = ⟨other, state.object, state.shareAccess⟩
  | .locked found => ∃ state, held = .locked state ∧ found.other = other ∧
      found.object = state.object ∧ found.owner = state.owner
  | _ => False

end HeldState

/-! ## Lookups that succeed -/

theorem normalizeStateid_of_not_reserved {stateid : Stateid4} (h : stateid.other.reserved = false)
    (current : Option Stateid4) (mode : CurrentStateidMode) :
    normalizeStateid stateid current mode = .ok (.concrete stateid) := by
  have hzero : stateid.other ≠ 0 := fun heq => by simp [StateidOther.reserved, heq] at h
  have hones : stateid.other ≠ BitVec.allOnes 96 := fun heq => by
    simp [StateidOther.reserved, heq] at h
  have hanonymous : stateid ≠ .anonymous := fun heq => hzero (by rw [heq]; rfl)
  have hbypass : stateid ≠ .bypass := fun heq => hones (by rw [heq]; rfl)
  have hcurrent : stateid ≠ .current := fun heq => hzero (by rw [heq]; rfl)
  have hinvalid : stateid.isInvalidSpecial = false := by
    simp only [Stateid4.isInvalidSpecial, hzero, hones, or_self, false_and, decide_false]
  simp [normalizeStateid, hanonymous, hbypass, hcurrent, hinvalid]

theorem validateStateidSeq_self (seq : U32) : validateStateidSeq seq seq = .ok () := by
  simp [validateStateidSeq]

namespace StateManager

variable {s : StateManager} {clientid : Clientid4} {other : StateidOther}

theorem resolveConcrete_opened {state : OpenFileState} (hget : s.inner.openFiles.get other = some state)
    (hactive : state.active = true) (hclient : state.clientid = clientid) :
    s.resolveConcrete (some clientid) ⟨state.stateidSeq, other⟩ =
      .ok (.opened ⟨other, state.object, state.shareAccess⟩) := by
  simp [resolveConcrete, hget, validateStateidSeq_self, hactive, hclient, bind, Except.bind, pure,
    Except.pure]

theorem resolveConcrete_locked {lock : LockFileState} {opened : OpenFileState}
    (hopen : s.inner.openFiles.get other = none) (hget : s.inner.lockFiles.get other = some lock)
    (hclient : lock.owner.clientid = clientid)
    (hopened : s.inner.openFiles.get lock.openStateOther = some opened)
    (hactive : opened.active = true) (hclient' : opened.clientid = clientid) :
    s.resolveConcrete (some clientid) ⟨lock.stateidSeq, other⟩ =
      .ok (.locked ⟨other, lock.object, lock.owner,
        ⟨lock.openStateOther, opened.object, opened.shareAccess⟩⟩) := by
  simp [resolveConcrete, hopen, hget, validateStateidSeq_self, hclient, hopened, hactive, hclient',
    bind, Except.bind, pure, Except.pure]

theorem resolveStateid_held {held : HeldState} (hkeys : s.inner.KeysEmbed)
    (hstand : s.inner.LocksStand) (hat : held.At other s.inner) (hactive : held.active = true)
    (hclient : held.clientid = clientid)
    (hopen : ∀ lock, held = .locked lock → lock.openStateOther.clientid = clientid)
    (current : Option Stateid4) (mode : CurrentStateidMode) :
    ∃ resolved, s.resolveStateid (some clientid) ⟨held.stateidSeq, other⟩ current mode =
      .ok resolved ∧ held.FoundAs other resolved := by
  cases held with
  | opened state =>
    have hreserved := hstand.openKeys other state hat
    refine ⟨.opened ⟨other, state.object, state.shareAccess⟩, ?_, state, rfl, rfl⟩
    rw [resolveStateid, normalizeStateid_of_not_reserved hreserved]
    exact resolveConcrete_opened hat hactive hclient
  | locked lock =>
    have hreserved := hstand.lockKeys other lock hat
    have hown := hopen lock rfl
    obtain ⟨opened, hget, hopened, -⟩ :=
      hstand.stands other lock hat hactive (hclient.trans hown.symm)
    refine ⟨.locked ⟨other, lock.object, lock.owner,
      ⟨lock.openStateOther, opened.object, opened.shareAccess⟩⟩, ?_, lock, rfl, rfl, rfl, rfl⟩
    rw [resolveStateid, normalizeStateid_of_not_reserved hreserved]
    exact resolveConcrete_locked (hstand.apart other lock hat) hat hclient hget hopened
      ((hkeys.openFiles _ _ hget).trans hown)

end StateManager

/-! ## Sections that hand out stateids -/

section

variable {H : Type}

/-- The stateid that a section of OPEN or LOCK hands out. -/
def Call.grants : (c : Call H) → c.Ret → Option Stateid4
  | .guarded (.createOpenState _ _ _ _), r => r.toOption
  | .guarded (.createLockState _ _ _ _ _ _), r => r.toOption
  | .guarded (.updateLockState _ _ _ _), r => r.toOption
  | _, _ => none

/-- A section that hands out a stateid does so on behalf of the client. -/
def Call.Own (clientid : Clientid4) : Call H → Prop
  | .guarded (.createOpenState _ owner _ _) => owner.clientid = clientid
  | .guarded (.createLockState openStateid owner _ _ _ _) =>
    owner.clientid = clientid ∧ openStateid.other.clientid = clientid
  | .guarded (.updateLockState stateid _ _ _) => stateid.other.clientid = clientid
  | _ => True

end

/-- The state that a section has just handed out: an active entry of the client, and for a lock
an open of the same client. -/
def HeldState.Granted (held : HeldState) (clientid : Clientid4) (stateid : Stateid4)
    (inner : StateInner) : Prop :=
  held.At stateid.other inner ∧ held.active = true ∧ held.clientid = clientid ∧
    held.stateidSeq = stateid.seqid ∧
    ∀ lock, held = .locked lock → lock.openStateOther.clientid = clientid

namespace StateManager

variable {s s' : StateManager} {clientid : Clientid4} {stateid : Stateid4}

theorem createOpenState_granted {object : ServerObject} {owner : StateOwner4} {access deny : U32}
    (h : s.createOpenState object owner access deny = .ok (stateid, s'))
    (howner : owner.clientid = clientid) :
    ∃ held : HeldState, held.Granted clientid stateid s'.inner := by
  obtain ⟨-, ⟨other, state, hfind, -, rfl, rfl⟩ | ⟨-, -, rfl, rfl⟩⟩ := createOpenState_ok h
  · obtain ⟨hget, hmatch⟩ := Table.of_find?_eq_some hfind
    simp only [decide_eq_true_eq] at hmatch
    obtain ⟨hactive, -, hclient, -⟩ := hmatch
    exact ⟨.opened _, Table.get_modify_self hget _, hactive, hclient.trans howner, rfl,
      nofun⟩
  · exact ⟨.opened _, Table.get_insert_self _ _ _, rfl, howner, rfl,
      nofun⟩

theorem createLockState_granted {openStateid : Stateid4} {owner : StateOwner4}
    {object : ServerObject} {locktype : NfsLockType4} {offset length : U64}
    (h : s.createLockState openStateid owner object locktype offset length = .ok (stateid, s'))
    (howner : owner.clientid = clientid) (hopen : openStateid.other.clientid = clientid) :
    ∃ held : HeldState, held.Granted clientid stateid s'.inner := by
  obtain ⟨-, -, -, rfl, rfl⟩ := createLockState_ok h
  refine ⟨.locked _, Table.get_insert_self _ _ _, rfl, howner, rfl, fun lock hlock => ?_⟩
  rw [← HeldState.locked.inj hlock]
  exact hopen

theorem updateLockState_granted {requested : Stateid4} {locktype : NfsLockType4}
    {offset length : U64}
    (h : s.updateLockState requested locktype offset length = .ok (stateid, s'))
    (hkeys : s.inner.KeysEmbed) (hclient : requested.other.clientid = clientid)
    (hsafe : s.stateidSafe (.updateLockState requested locktype offset length) = true) :
    ∃ held : HeldState, held.Granted clientid stateid s'.inner := by
  obtain ⟨lock, hlock, -, rfl, rfl⟩ := updateLockState_ok h
  have howner : lock.owner.clientid = clientid := (hkeys.lockFiles _ _ hlock).trans hclient
  simp only [stateidSafe, hlock, Option.all_some] at hsafe
  obtain ⟨opened, hget, -, -, hopened⟩ := openStands_eq_true hsafe
  refine ⟨.locked _, Table.get_modify_self hlock _, rfl, howner, rfl, fun lock' heq => ?_⟩
  rw [← HeldState.locked.inj heq]
  exact ((hkeys.openFiles _ _ hget).symm.trans hopened).trans howner

end StateManager

theorem Call.Own.granted {H : Type} [DecidableEq H] {backend : Backend H} {s s' : Server H}
    {c : Call H} {r : c.Ret} {clientid : Clientid4} {stateid : Stateid4} (h : c.Own clientid)
    (hexec : (Server.system backend).exec s c r s') (hkeys : s.state.inner.KeysEmbed)
    (hsafe : s.stateidSafe c = true) (hgrants : c.grants r = some stateid) :
    ∃ held : HeldState, held.Granted clientid stateid s'.state.inner := by
  let P := fun s : StateManager => ∃ held : HeldState, held.Granted clientid stateid s.inner
  cases c with
  | guarded q =>
    obtain ⟨rfl, rfl⟩ := hexec
    cases q with
    | createOpenState object owner access deny =>
      exact StateManager.commit_of_ok P (of_toOption_eq_some hgrants) fun s' hok =>
        StateManager.createOpenState_granted hok h
    | createLockState openStateid owner object locktype offset length =>
      exact StateManager.commit_of_ok P (of_toOption_eq_some hgrants) fun s' hok =>
        StateManager.createLockState_granted hok h.1 h.2
    | updateLockState requested locktype offset length =>
      exact StateManager.commit_of_ok P (of_toOption_eq_some hgrants) fun s' hok =>
        StateManager.updateLockState_granted hok hkeys h hsafe
    | _ => cases hgrants
  | _ => cases hgrants

/-! ## OPEN -/

section

variable {H α : Type} {backend : Backend H} {ctx : OpContext} {clientid : Clientid4}
  {hidden : Stateid4 → Prop}

/-- The answers that a request of the client may get, none of which hands out a `hidden`
stateid: a lookup for the client succeeds for stateids of the client only. -/
def Call.OwnAnswer (clientid : Clientid4) (hidden : Stateid4 → Prop) : (c : Call H) → c.Ret → Prop
  | .guarded (.resolveConcrete clientid' stateid), r =>
    clientid' = some clientid → ∀ resolved, r = .ok resolved → stateid.other.clientid = clientid
  | c, r => ∀ stateid, hidden stateid → c.grants r ≠ some stateid

/-- The program hands out stateids on behalf of the client only and returns values with `Q`. -/
abbrev Owned (clientid : Clientid4) (hidden : Stateid4 → Prop) (Q : α → Prop)
    (p : Request H α) : Prop :=
  p.Along (Call.OwnAnswer clientid hidden) (Call.Own clientid) Q

/-- The result does not carry a hidden stateid. -/
def NfsResop4.Hides (hidden : Stateid4 → Prop) (res : NfsResop4) : Prop :=
  ∀ stateid, hidden stateid → returnedStateid res ≠ some stateid

theorem Owned.of_mutating {p : Request H α} (h : p.All Call.Mutating) :
    Owned clientid hidden (fun _ => True) p := by
  refine h.mono (fun _ _ _ => trivial) (fun c hc => ?_) fun _ h => h
  cases c with
  | guarded q => cases q <;> first | exact hc.elim | trivial
  | _ => trivial

theorem Owned.of_background {p : Request H α} (h : p.All Call.Background) :
    Owned clientid hidden (fun _ => True) p :=
  .of_mutating (Background.mutating h)

theorem NfsResop4.hides_open (status : NfsStat4) : (NfsResop4.open status none).Hides hidden :=
  fun stateid _ => by simp [returnedStateid]

theorem finishOpen_owned {args : OpenArgs4} {minorversion : U32} {container : ServerObject}
    {beforeAttr : Except FsError ServerFileAttr} {currentFh : Option Bytes} {target : OpenTarget}
    (howner : args.owner.clientid = clientid) :
    Owned clientid hidden (fun a => a.1.Hides hidden)
      (finishOpen backend ctx args minorversion container beforeAttr currentFh target) := by
  refine ⟨trivial, fun _ _ => ⟨howner, fun r hr => ?_⟩⟩
  cases r with
  | error status => exact NfsResop4.hides_open status
  | ok stateid =>
    show Owned clientid hidden _ (objectToFh target.object >>= _)
    refine Program.Along.bind (Owned.of_background (objectToFh_helper _).background) fun fh _ => ?_
    cases fh with
    | none => exact NfsResop4.hides_open _
    | some fh =>
      show Owned clientid hidden _ (openChangeInfo backend ctx container beforeAttr target >>= _)
      refine Program.Along.bind (Owned.of_background openChangeInfo_background) fun r _ => ?_
      cases r with
      | error status => exact NfsResop4.hides_open status
      | ok cinfo =>
        show Owned clientid hidden _ (notifyOpen backend ctx args target.object >>= _)
        refine Program.Along.bind (Owned.of_background notifyOpen_background) fun _ _ => ?_
        exact hr

theorem opOpen_owned {config : DelegationConfig} {args : OpenArgs4} {currentFh : Option Bytes}
    {minorversion : U32} (howner : args.owner.clientid = clientid) :
    Owned clientid hidden (fun a => a.1.Hides hidden)
      (opOpen backend config ctx args currentFh minorversion) := by
  unfold opOpen
  split
  · exact NfsResop4.hides_open _
  · refine Program.Along.bind (Owned.of_background (resolveObject_helper _).background) fun r _ => ?_
    rcases r with status | ⟨fh, container⟩
    · exact NfsResop4.hides_open status
    · show Owned clientid hidden _ (openXattrGate ctx args container >>= _)
      refine Program.Along.bind (Owned.of_background openXattrGate_background) fun r _ => ?_
      cases r with
      | error status => exact NfsResop4.hides_open status
      | ok _ =>
        show Owned clientid hidden _ (buildAttr backend ctx.request container >>= _)
        refine Program.Along.bind (Owned.of_background (buildAttr_helper _).background)
          fun beforeAttr _ => ?_
        refine Program.Along.bind (Owned.of_mutating openTarget_mutating) fun r _ => ?_
        cases r with
        | error status => exact NfsResop4.hides_open status
        | ok target =>
          show Owned clientid hidden _ (buildAttr backend ctx.request target.object >>= _)
          refine Program.Along.bind (Owned.of_background (buildAttr_helper _).background) fun r _ => ?_
          cases r with
          | error e => exact NfsResop4.hides_open _
          | ok attr =>
            dsimp only
            split
            · exact NfsResop4.hides_open _
            · split
              · exact NfsResop4.hides_open _
              · refine Program.Along.bind (Owned.of_background openAccessCheck_background)
                  fun r _ => ?_
                cases r with
                | error status => exact NfsResop4.hides_open status
                | ok _ => exact finishOpen_owned howner

theorem opOpenReclaim_owned {cfg : ServerConfig H} {args : OpenArgs4} {state : CompoundState}
    (howner : args.owner.clientid = clientid) :
    Owned clientid hidden (fun a => a.1.Hides hidden) (opOpenReclaim cfg ctx args state) := by
  unfold opOpenReclaim
  split
  · exact opOpen_owned howner
  · refine ⟨trivial, fun _ _ => ⟨trivial, fun r _ => ?_⟩⟩
    cases r with
    | error status => exact NfsResop4.hides_open status
    | ok _ => exact opOpen_owned howner

/-! ## LOCK -/

theorem NfsResop4.hides_lock (status : NfsStat4) (denied : Option LockDenied4) :
    (NfsResop4.lock status none denied).Hides hidden :=
  fun stateid _ => by simp [returnedStateid]

theorem resolveStateidOp_owned (stateid : Stateid4) (mode : CurrentStateidMode) :
    Owned (H := H) clientid hidden
      (fun r => ∀ resolved, r = .ok resolved →
        resolved = .anonymous ∨ resolved = .bypass ∨ stateid.other.clientid = clientid)
      (resolveStateidOp (some clientid) stateid none mode) := by
  refine resolveStateidOp_along trivial trivial ?_ ?_ ?_ fun r hr resolved hok =>
    Or.inr (Or.inr (hr rfl resolved hok))
  · exact nofun
  · exact fun resolved hok => Or.inl (Except.ok.inj hok).symm
  · exact fun resolved hok => Or.inr (Or.inl (Except.ok.inj hok).symm)

theorem lockNewOwner_owned {args : LockArgs4} {object : ServerObject}
    {currentStateid : Option Stateid4} {requested : Stateid4} {lockOwner : StateOwner4}
    (howner : lockOwner.clientid = clientid) :
    Owned (H := H) clientid hidden (NfsResop4.Hides hidden)
      (lockNewOwner args object currentStateid clientid requested lockOwner) := by
  unfold lockNewOwner
  split
  · rename_i openStateid _
    show Owned clientid hidden _ (resolveStateidOp (some clientid) openStateid none .zeroSeqid >>= _)
    refine Program.Along.bind (resolveStateidOp_owned openStateid _) fun r hr => ?_
    split
    · rename_i opened
      have hopen : openStateid.other.clientid = clientid := by
        simpa using hr (.opened opened) rfl
      split
      · exact NfsResop4.hides_lock _ _
      · refine ⟨trivial, fun _ _ => ⟨trivial, fun denied _ => ?_⟩⟩
        cases denied with
        | some denied => exact NfsResop4.hides_lock _ _
        | none =>
          refine ⟨trivial, fun _ _ => ⟨⟨howner, hopen⟩, fun r hr => ?_⟩⟩
          cases r with
          | error status => exact NfsResop4.hides_lock _ _
          | ok stateid => exact hr
    · exact NfsResop4.hides_lock _ _
    · exact NfsResop4.hides_lock _ _
  · exact NfsResop4.hides_lock _ _

theorem lockExistingOwner_owned {args : LockArgs4} {object : ServerObject}
    {currentStateid : Option Stateid4} {requested : Stateid4} :
    Owned (H := H) clientid hidden (NfsResop4.Hides hidden)
      (lockExistingOwner args object currentStateid clientid requested) := by
  unfold lockExistingOwner
  split
  · rename_i lockStateid _
    show Owned clientid hidden _ (resolveStateidOp (some clientid) lockStateid none .zeroSeqid >>= _)
    refine Program.Along.bind (resolveStateidOp_owned lockStateid _) fun r hr => ?_
    split
    · rename_i lock
      have hclient : lockStateid.other.clientid = clientid := by
        simpa using hr (.locked lock) rfl
      split
      · refine ⟨trivial, fun _ _ => ⟨trivial, fun denied _ => ?_⟩⟩
        cases denied with
        | some denied => exact NfsResop4.hides_lock _ _
        | none =>
          refine ⟨trivial, fun _ _ => ⟨hclient, fun r hr => ?_⟩⟩
          cases r with
          | error status => exact NfsResop4.hides_lock _ _
          | ok stateid => exact hr
      · exact NfsResop4.hides_lock _ _
    · exact NfsResop4.hides_lock _ _
    · exact NfsResop4.hides_lock _ _
  · exact NfsResop4.hides_lock _ _

theorem opLock_owned {args : LockArgs4} {currentFh : Option Bytes}
    {currentStateid : Option Stateid4} (hctx : ctx.sequenceClientid = some clientid)
    (howner : ∀ openStateid owner, args.locker = .newLockOwner openStateid owner →
      owner.clientid = clientid) :
    Owned clientid hidden (NfsResop4.Hides hidden)
      (opLock backend ctx args currentFh currentStateid) := by
  unfold opLock
  refine Program.Along.bind (Owned.of_background (resolveObject_helper _).background) fun r _ => ?_
  rcases r with status | ⟨fh, object⟩
  · exact NfsResop4.hides_lock _ _
  · show Owned clientid hidden _ (buildAttr backend ctx.request object >>= _)
    refine Program.Along.bind (Owned.of_background (buildAttr_helper _).background) fun r _ => ?_
    cases r with
    | error e => exact NfsResop4.hides_lock _ _
    | ok attr =>
      dsimp only
      split
      · exact NfsResop4.hides_lock _ _
      · split
        · exact NfsResop4.hides_lock _ _
        · rw [hctx]
          dsimp only
          split
          · rename_i openStateid owner hlocker
            exact lockNewOwner_owned (howner openStateid owner hlocker)
          · exact lockExistingOwner_owned

/-! ## Runs -/

/-- The operations that make an open or a lock, or add to one. -/
def NfsArgop4.makesState : NfsArgop4 → Bool
  | .open _ | .lock _ => true
  | _ => false

/-- The owner in the arguments of OPEN, or of LOCK for a new lock owner. -/
def NfsArgop4.stateOwner : NfsArgop4 → Option StateOwner4
  | .open args => some args.owner
  | .lock ⟨_, _, _, .newLockOwner _ owner⟩ => some owner
  | _ => none

theorem handleOp_owned {cfg : ServerConfig H} {connectionId : U64} {op : NfsArgop4}
    {state : CompoundState} (hctx : ctx.sequenceClientid = some clientid)
    (hop : op.makesState = true)
    (howner : ∀ owner, op.stateOwner = some owner → owner.clientid = clientid) :
    Owned clientid hidden (fun a => a.1.Hides hidden) (handleOp cfg ctx connectionId op state) := by
  cases op with
  | «open» args =>
    exact Program.Along.bind (opOpenReclaim_owned (howner _ rfl)) fun _ hres => hres
  | lock args =>
    refine Program.Along.bind (opLock_owned hctx fun openStateid owner hlocker => ?_)
      fun _ hres => hres
    obtain ⟨locktype, offset, length, locker⟩ := args
    subst hlocker
    exact howner owner rfl
  | _ => cases hop

theorem Call.ownAnswer_of_exec [DecidableEq H] {s s' : Server H} {c : Call H} {r : c.Ret}
    (hexec : (Server.system backend).exec s c r s') (hkeys : s.state.inner.KeysEmbed)
    (hhidden : ∀ stateid, hidden stateid → c.grants r ≠ some stateid) :
    c.OwnAnswer clientid hidden r := by
  cases c with
  | guarded q =>
    cases q with
    | resolveConcrete clientid' stateid =>
      rintro rfl resolved hok
      rw [hexec.1] at hok
      rcases StateManager.resolveConcrete_ok hok with
        ⟨opened, hget, -, hclient, -⟩ | ⟨lock, -, hget, -, hclient, -⟩
      · exact (hkeys.openFiles _ _ hget).symm.trans (hclient clientid rfl)
      · exact (hkeys.lockFiles _ _ hget).symm.trans (hclient clientid rfl)
    | _ => exact hhidden
  | _ => exact hhidden

end

/-- **Ownership of opens and locks.** Let an OPEN or LOCK that is bound to a client run among
any other requests, with that client's id in its owner argument. Suppose that no step of the
run mints a stateid in use or activates a lock whose open is gone. Then whatever state the
operation creates or upgrades belongs to the client, its stateid resolves for the client in
every later state in which the entry is unchanged, and the stateid that the operation returns
is that of such a state. -/
theorem state_ownership {H α : Type} [DecidableEq H] {cfg : ServerConfig H} {boot : Boot}
    {threads : List (Request H α)} {tr₀ tr : Trace H}
    {c₀ c : Machine H α}
    (hreached : (Server.system cfg.backend).Run ⟨Server.new H boot, threads⟩ tr₀ c₀)
    {t : Nat} {f : NfsResop4 × CompoundState → α} {ctx : OpContext} {connectionId : U64}
    {op : NfsArgop4} {state : CompoundState} {clientid : Clientid4}
    (hthread : c₀.threads[t]? = some (f <$> handleOp cfg ctx connectionId op state))
    (hctx : ctx.sequenceClientid = some clientid) (hop : op.makesState = true)
    (howner : ∀ owner, op.stateOwner = some owner → owner.clientid = clientid)
    (hrun : (Server.system cfg.backend).Run c₀ tr c)
    (hsafe : ∀ e ∈ tr₀ ++ tr, e.before.stateidSafe e.call = true) :
    (∀ e ∈ tr, e.thread = t → ∀ stateid, e.call.grants e.answer = some stateid →
      ∃ held : HeldState, held.At stateid.other e.after.state.inner ∧ held.active = true ∧
        held.clientid = clientid ∧
        (held.At stateid.other c.state.state.inner → ∀ current mode, ∃ resolved,
          c.state.state.resolveStateid (some clientid) stateid current mode = .ok resolved ∧
          held.FoundAs stateid.other resolved)) ∧
    (∀ a, c.threads[t]? = some (.ret a) → ∃ res state', a = f (res, state') ∧
      ∀ stateid, returnedStateid res = some stateid →
        ∃ e ∈ tr, e.thread = t ∧ e.call.grants e.answer = some stateid) := by
  have hkeys₀ := hreached.keysEmbed (StateInner.keysEmbed_new boot)
  have hstand₀ := hreached.locksStand (StateInner.keysEmbed_new boot)
    (StateInner.locksStand_new boot) fun e he => hsafe e (List.mem_append_left _ he)
  have hsafe' : ∀ e ∈ tr, e.before.stateidSafe e.call = true :=
    fun e he => hsafe e (List.mem_append_right _ he)
  -- The stateids that the operation is not handed out by any of its steps.
  let hidden : Stateid4 → Prop := fun stateid =>
    ∀ e ∈ tr, e.thread = t → e.call.grants e.answer ≠ some stateid
  have halong : Owned clientid hidden
      (fun a => ∃ res state', a = f (res, state') ∧ res.Hides hidden)
      (f <$> handleOp cfg ctx connectionId op state) :=
    Program.Along.bind (handleOp_owned hctx hop howner) fun a ha => ⟨a.1, a.2, rfl, ha⟩
  have hmay : ∀ e ∈ tr, e.thread = t → e.call.OwnAnswer clientid hidden e.answer :=
    fun e he het => Call.ownAnswer_of_exec (hrun.exec he) (hrun.keysEmbed_event hkeys₀ he)
      fun stateid hhidden => hhidden e he het
  obtain ⟨hown, p, hp, hend⟩ := hrun.along hthread hmay halong
  refine ⟨fun e he het stateid hgrants => ?_, fun a ha => ?_⟩
  · obtain ⟨held, hat, hactive, hclient, hseq, hopen⟩ := (hown e he het).granted (hrun.exec he)
      (hrun.keysEmbed_event hkeys₀ he) (hsafe' e he) hgrants
    refine ⟨held, hat, hactive, hclient, fun hlater current mode => ?_⟩
    obtain ⟨seqid, other⟩ := stateid
    cases hseq
    exact StateManager.resolveStateid_held (hrun.keysEmbed hkeys₀)
      (hrun.locksStand hkeys₀ hstand₀ hsafe') hlater hactive hclient hopen current mode
  · cases ha.symm.trans hp
    obtain ⟨res, state', rfl, hhides⟩ := hend
    refine ⟨res, state', rfl, fun stateid hreturned => ?_⟩
    by_contra hnone
    push Not at hnone
    exact hhides stateid hnone hreturned

/-! ## Two clients -/

open Scripted

/-- The stateid that a thread has returned. -/
def Scripted.stateidOf (c : Machine Unit (NfsResop4 × CompoundState))
    (t : Nat) : Option Stateid4 :=
  (c.threads[t]?.bind Program.result).bind fun a => returnedStateid a.1

theorem Scripted.stateidOf_ret
    {c : Machine Unit (NfsResop4 × CompoundState)} {t : Nat}
    {a : NfsResop4 × CompoundState} (h : c.threads[t]? = some (.ret a)) :
    stateidOf c t = returnedStateid a.1 := by
  simp [stateidOf, h, Program.result]

/-- A client puts the other client's id in the owner of an OPEN, and in the lock owner of a
LOCK. Both succeed, make a state that belongs to the other client, and return a stateid that
does not resolve. -/
theorem state_ownership_foreign_owner :
    (∃ tr c, (Server.system Backend.single).Run
        ⟨Server.new Unit .fixed,
          setUp ++ [opBy (some 1) (.open ⟨3, 0, ⟨2, [9]⟩, .noCreate, .fh⟩)]⟩ tr c ∧
      stateidOf c 5 = some ⟨1, .mint 3 2⟩ ∧
      c.state.state.inner.openFiles.get (.mint 3 2) = some ⟨.fs 1, 2, [9], 1, true, 3, 0⟩ ∧
      c.state.state.resolveStateid (some 1) ⟨1, .mint 3 2⟩ none .zeroSeqid =
        .error .badStateid) ∧
    (∃ tr c, (Server.system Backend.single).Run
        ⟨Server.new Unit .fixed, setUp ++ [opBy (some 1)
          (.lock ⟨.writeLt, 0, 10, .newLockOwner ⟨1, .mint 1 1⟩ ⟨2, [1]⟩⟩)]⟩ tr c ∧
      stateidOf c 5 = some ⟨1, .mint 3 2⟩ ∧
      c.state.state.inner.lockFiles.get (.mint 3 2) =
        some ⟨.fs 1, ⟨2, [1]⟩, .mint 1 1, [⟨.writeLt, 0, 10⟩], true, 1⟩ ∧
      c.state.state.resolveStateid (some 1) ⟨1, .mint 3 2⟩ none .zeroSeqid =
        .error .badStateid) := by
  refine ⟨⟨_, _, run_run _ (List.replicate 20 5), ?_, ?_, ?_⟩,
    ⟨_, _, run_run _ (List.replicate 20 5), ?_, ?_, ?_⟩⟩
  · decide +kernel
  · decide +kernel
  · decide +kernel
  · decide +kernel
  · decide +kernel
  · decide +kernel

/-- A lock that a client takes under its own open. -/
theorem state_ownership_lock :
    let c₀ := (run [id <$> lockBy 1 (.mint 1 1) .writeLt 0 10] []).2
    let played := (Server.scripted Backend.single .someFile).play c₀ (List.replicate 20 5)
    ∃ e ∈ played.1, e.thread = 5 ∧ e.call.grants e.answer = some ⟨1, .mint 3 1⟩ ∧
      ∃ held : HeldState, held.At (.mint 3 1) e.after.state.inner ∧ held.clientid = 1 ∧
        (held.At (.mint 3 1) played.2.state.state.inner → ∀ current mode, ∃ resolved,
          played.2.state.state.resolveStateid (some 1) ⟨1, .mint 3 1⟩ current mode =
            .ok resolved) := by
  intro c₀ played
  have hthread : c₀.threads[5]? = some (id <$> handleOp config ⟨⟨.none⟩, some 1, none⟩ 1
      (.lock ⟨.writeLt, 0, 10, .newLockOwner ⟨1, .mint 1 1⟩ ⟨1, [1]⟩⟩)
      { minorversion := 1, currentFh := some fh }) :=
    (Server.scripted Backend.single .someFile).threads_play _ (by decide)
  have hsafe : ∀ e ∈ (run [id <$> lockBy 1 (.mint 1 1) .writeLt 0 10] []).1 ++ played.1,
      e.before.stateidSafe e.call = true := List.all_eq_true.mp (by decide +kernel)
  have howner : ∀ owner, (NfsArgop4.lock ⟨.writeLt, 0, 10,
      .newLockOwner ⟨1, .mint 1 1⟩ ⟨1, [1]⟩⟩).stateOwner = some owner → owner.clientid = 1 := by
    rintro owner ⟨⟩
    rfl
  have hrun : (Server.system Backend.single).Run c₀ played.1 played.2 :=
    (Server.scripted Backend.single .someFile).play_run c₀ _
  obtain ⟨howned, hreturn⟩ :=
    state_ownership (run_run _ _) hthread rfl rfl howner hrun hsafe
  have hstateid : stateidOf played.2 5 = some ⟨1, .mint 3 1⟩ := by decide +kernel
  have hreturned : played.2.threads[5]?.any Program.returned = true := by decide +kernel
  obtain ⟨a, ha⟩ := Program.of_returned hreturned
  obtain ⟨res, state', rfl, hres⟩ := hreturn a ha
  obtain ⟨e, he, het, hgrants⟩ := hres _ ((stateidOf_ret ha).symm.trans hstateid)
  obtain ⟨held, hat, -, hclient, hresolves⟩ := howned e he het _ hgrants
  refine ⟨e, he, het, hgrants, held, hat, hclient, fun hlater current mode => ?_⟩
  obtain ⟨resolved, hresolved, -⟩ := hresolves hlater current mode
  exact ⟨resolved, hresolved⟩

end EmbedNfs

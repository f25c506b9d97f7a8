import EmbedNfs.Effects.Calls
import EmbedNfs.Server.Ops.File

/-!
# What the helpers of requests do

Requests resolve filehandles, ask the backend for attributes and mint filehandles through a
handful of helpers. These make auxiliary calls only: they touch the guarded tables by reaping
and by keeping metadata, and none of their backend calls changes a directory.

A second fact is proved along with it. Helpers pass on the errors of the backend, so a helper
that fails with the code for success got it from outside. `honest` says whether such answers
are ruled out: with `True` for it the result is a genuine one, with `False` nothing is assumed
about the outside.
-/

namespace EmbedNfs

/-- The calls that helpers make. -/
def Call.Auxiliary {H : Type} : Call H → Prop
  | .guarded .reapExpiredClients | .guarded (.namedAttrCount _)
  | .guarded (.setNamedAttrCount _ _ _) | .guarded (.ensureMeta _ _) => True
  | .guarded _ => False
  | .mapOp (.retire _) => False
  | .retireMatching _ => False
  | .backend _ _ dirs _ => dirs = []
  | _ => True

/-- The call does not fail with the code for success. -/
def Call.Sound {H : Type} : (c : Call H) → c.Ret → Prop
  | .register _, r => r ≠ .error .ok
  | .backend _ _ _ _, r => r ≠ .error .ok
  | _, _ => True

/-- The program makes auxiliary calls only and returns values with `Q`. -/
abbrev Helper {H α : Type} (honest : Prop) (Q : α → Prop) (p : Request H α) : Prop :=
  p.Along (fun c r => honest → c.Sound r) Call.Auxiliary Q

/-- Unless somebody is dishonest, the result is not the error `e`. -/
def Genuine {ε α : Type} (honest : Prop) (e : ε) (r : Except ε α) : Prop := honest → r ≠ .error e

theorem Genuine.ok {ε α : Type} {honest : Prop} {e : ε} (a : α) :
    Genuine honest e (.ok a : Except ε α) :=
  nofun

theorem of_toOption_eq_some {ε α : Type} {r : Except ε α} {a : α} (h : r.toOption = some a) :
    r = .ok a := by
  cases r with
  | ok b =>
    cases h
    rfl
  | error e => cases h

section

variable {H α β ε : Type} {honest : Prop} {backend : Backend H} {ctx : RequestContext}

/-- Whatever the outside answers, a helper makes auxiliary calls only. -/
theorem Helper.all {Q : α → Prop} {p : Request H α} (h : Helper False Q p) :
    p.All Call.Auxiliary :=
  h.mono (fun _ _ _ hf => hf.elim) (fun _ hc => hc) fun _ _ => trivial

/-- Helpers compose: the first error is passed on, and none of them is made up. -/
theorem Helper.andThen {e : ε} {p : Request H (Except ε α)} {f : α → Request H (Except ε β)}
    (hp : Helper honest (Genuine honest e) p) (hf : ∀ a, Helper honest (Genuine honest e) (f a)) :
    Helper honest (Genuine honest e) (Request.andThen p f) := by
  refine Program.Along.bind hp fun r hr => ?_
  cases r with
  | ok a => exact hf a
  | error e' => exact fun hh h => hr hh (by cases h; rfl)

/-- A question to the backend changes no directory. -/
theorem askBackend_helper (c : BackendCall H) :
    Helper honest (Genuine honest .ok) (askBackend ctx c) :=
  ⟨rfl, fun _ hr => hr⟩

theorem resolveBackendHandle_helper (id : ObjectId) :
    Helper (H := H) honest (Genuine honest .ok) (resolveBackendHandle id) := by
  refine ⟨trivial, fun r _ => ?_⟩
  cases r with
  | none => exact nofun
  | some handle => exact .ok handle

/-- Registering a handle is a call of its own. -/
theorem registerHandle_helper (handle : H) :
    Helper honest (Genuine honest .ok) (registerHandle handle) := by
  refine ⟨trivial, fun r _ => ?_⟩
  cases r with
  | some id => exact .ok id
  | none => exact ⟨trivial, fun r hr => hr⟩

/-! ## Filehandles -/

theorem publishFh_helper (object : ServerObject) (fh : Bytes) :
    Helper (H := H) honest (fun _ => True) (publishFh object fh) := by
  refine ⟨trivial, fun r _ => ?_⟩
  cases r with
  | some winner =>
    show Helper honest _ (if winner ≠ fh then _ else _)
    split
    · exact ⟨trivial, fun _ _ => trivial⟩
    · trivial
  | none =>
    refine ⟨trivial, fun r _ => ?_⟩
    cases r with
    | true => exact ⟨trivial, fun _ _ => ⟨trivial, fun _ _ => trivial⟩⟩
    | false => trivial

/-- The encoding on record is claimed, unless it already names another object. -/
theorem claimPersistentFh_helper (object : ServerObject) :
    Helper (H := H) honest (fun _ => True) (claimPersistentFh object) := by
  cases object with
  | fs id =>
    refine ⟨trivial, fun r _ => ?_⟩
    cases r with
    | none => trivial
    | some fh =>
      refine ⟨trivial, fun r _ => ?_⟩
      cases r with
      | true => trivial
      | false => trivial
  | namedAttrDir id => trivial
  | namedAttrFile parent name => trivial

/-- Minting a filehandle writes the two maps only. -/
theorem objectToFh_helper (object : ServerObject) :
    Helper (H := H) honest (fun _ => True) (objectToFh object) := by
  refine ⟨trivial, fun r _ => ?_⟩
  cases r with
  | some fh => trivial
  | none =>
    refine ⟨trivial, fun r _ => ?_⟩
    cases r with
    | true => trivial
    | false =>
      show Helper honest _ (claimPersistentFh object >>= _)
      refine Program.Along.bind (claimPersistentFh_helper object) fun claimed _ => ?_
      cases claimed with
      | some fh => exact publishFh_helper object fh
      | none => exact ⟨trivial, fun fh _ => ⟨trivial, fun _ _ => publishFh_helper object fh⟩⟩

/-- No error of the backend is taken for success when a filehandle is decoded. -/
theorem decodeHandleStatus_eq_ok {e : FsError} (h : decodeHandleStatus e = .ok) : e = .ok := by
  cases e <;> simp_all [decodeHandleStatus, FsError.toNfsstat4]

theorem Genuine.toNfsstat4 {e : FsError} (h : Genuine honest .ok (.error e : Except FsError α)) :
    honest → e.toNfsstat4 ≠ .ok :=
  fun hh heq => h hh (by rw [FsError.toNfsstat4_eq_ok.mp heq])

/-- A filehandle that the maps do not have is given to the backend to decode. -/
theorem decodePersistentFh_helper (fh : Bytes) :
    Helper honest (Genuine honest .ok) (decodePersistentFh backend fh) := by
  have hstale : Genuine honest .ok (.error .stale : Except NfsStat4 ServerObject) :=
    nofun
  unfold decodePersistentFh
  split
  · split
    · refine Program.Along.bind (askBackend_helper _) fun r hr => ?_
      cases r with
      | error e =>
        exact fun hh h => hr hh (by rw [decodeHandleStatus_eq_ok (Except.error.inj h)])
      | ok handle =>
        show Helper honest _ (registerHandle handle >>= _)
        refine Program.Along.bind (registerHandle_helper handle) fun r hr => ?_
        cases r with
        | error e => exact fun hh h => hr.toNfsstat4 hh (Except.error.inj h)
        | ok id =>
          show Helper honest _ (objectToFh (.fs id) >>= _)
          refine Program.Along.bind (objectToFh_helper (.fs id)) fun minted _ => ?_
          cases minted with
          | none => exact hstale
          | some minted =>
            dsimp only
            split
            · exact .ok _
            · exact hstale
    · exact hstale
  · exact hstale

/-- Finding the object of a filehandle may register its handle and nothing more. -/
theorem resolveObject_helper (fh : Option Bytes) :
    Helper honest (Genuine honest .ok) (resolveObject backend fh) := by
  unfold resolveObject
  split
  · refine ⟨trivial, fun r _ => ?_⟩
    cases r with
    | some object => exact .ok _
    | none =>
      show Helper honest _ (decodePersistentFh backend _ >>= _)
      refine Program.Along.bind (decodePersistentFh_helper _) fun r hr => ?_
      cases r with
      | ok object => exact .ok _
      | error status => exact fun hh h => hr hh (by cases h; rfl)
  · exact nofun

/-! ## Attributes and rights -/

theorem getattr_helper (id : ObjectId) :
    Helper (H := H) honest (Genuine honest .ok) (getattr ctx id) :=
  (resolveBackendHandle_helper id).andThen fun _ => askBackend_helper _

theorem kindOf_helper (id : ObjectId) :
    Helper (H := H) honest (Genuine honest .ok) (kindOf ctx id) :=
  (getattr_helper id).andThen fun _ => Genuine.ok _

theorem lookup_helper (dirId : ObjectId) (name : String) :
    Helper (H := H) honest (Genuine honest .ok) (lookup ctx dirId name) :=
  (resolveBackendHandle_helper dirId).andThen fun _ =>
    (askBackend_helper _).andThen fun child => registerHandle_helper child

theorem xattrCount_helper (parent : ObjectId) :
    Helper honest (Genuine honest .ok) (xattrCount backend ctx parent) := by
  refine (resolveBackendHandle_helper parent).andThen fun handle => ?_
  split
  · exact (askBackend_helper _).andThen fun names => Genuine.ok _
  · exact nofun

theorem xattrValue_helper (parent : ObjectId) (name : String) :
    Helper honest (Genuine honest .ok) (xattrValue backend ctx parent name) := by
  refine (resolveBackendHandle_helper parent).andThen fun handle => ?_
  split
  · exact (askBackend_helper _).andThen fun value => Genuine.ok _
  · exact nofun

/-- The number of named attributes is counted outside the lock and stored under it. -/
theorem refreshXattrSummary_helper (parent : ObjectId) :
    Helper honest (Genuine honest .ok) (refreshXattrSummary backend ctx parent) :=
  (xattrCount_helper parent).andThen fun _ => ⟨trivial, fun _ _ => Genuine.ok _⟩

/-- The attributes of an object are put together from the backend and the metadata on record. -/
theorem buildAttr_helper (object : ServerObject) :
    Helper honest (Genuine honest .ok) (buildAttr backend ctx object) := by
  cases object with
  | fs id => exact (getattr_helper id).andThen fun attrs => Genuine.ok _
  | namedAttrDir parent =>
    unfold buildAttr
    dsimp only
    split
    · refine Helper.andThen ?_ fun count => (getattr_helper parent).andThen fun _ => ?_
      · refine ⟨trivial, fun r _ => ?_⟩
        cases r with
        | some count => exact .ok count
        | none =>
          refine (xattrCount_helper parent).andThen fun count => ?_
          exact ⟨trivial, fun _ _ => Genuine.ok _⟩
      · exact ⟨trivial, fun _ _ => Genuine.ok _⟩
    · exact nofun
  | namedAttrFile parent name =>
    refine (getattr_helper parent).andThen fun _ =>
      (xattrValue_helper parent name).andThen fun _ => ?_
    exact ⟨trivial, fun _ _ => Genuine.ok _⟩

/-- A change value that cannot be read is replaced, so this helper does not fail. -/
theorem mutationChangeInfo_helper (object : ServerObject) (before : U64) :
    Helper honest (fun _ => True) (mutationChangeInfo backend ctx object before) := by
  refine Program.Along.bind (buildAttr_helper object) fun r _ => ?_
  cases r with
  | ok attr => trivial
  | error e => trivial

/-- Access is refused by the backend or with ACCESS. -/
theorem requireAccess_helper (id : ObjectId) (need : AccessMask) :
    Helper (H := H) honest (Genuine honest .ok) (requireAccess ctx id need) := by
  refine Program.Along.bind
    ((resolveBackendHandle_helper id).andThen fun _ => askBackend_helper _) fun r hr => ?_
  cases r with
  | error e => exact fun hh h => hr.toNfsstat4 hh (Except.error.inj h)
  | ok granted =>
    show Genuine honest _ (if granted.contains need then _ else _)
    split
    · exact .ok _
    · exact nofun

theorem namedAttrGate_helper {ctx : OpContext} (object : ServerObject) (need : AccessMask) :
    Helper (H := H) honest (Genuine honest .ok) (namedAttrGate ctx object need) := by
  cases object with
  | fs id => exact .ok _
  | namedAttrDir id => exact .ok _
  | namedAttrFile parent name => exact requireAccess_helper parent need

/-! ## Lookups of stateids -/

/-- A lookup of a stateid as it stands: it is refused or special, or the tables are asked. -/
theorem resolveStateidOp_along {may : (c : Call H) → c.Ret → Prop} {P : Call H → Prop}
    {Q : Except NfsStat4 ResolvedStateid → Prop} {clientid : Option Clientid4}
    {stateid : Stateid4} {mode : CurrentStateidMode} (hreap : P (.guarded .reapExpiredClients))
    (hresolve : P (.guarded (.resolveConcrete clientid stateid)))
    (hbad : Q (.error .badStateid)) (hanonymous : Q (.ok .anonymous)) (hbypass : Q (.ok .bypass))
    (hanswer : ∀ r, may (.guarded (.resolveConcrete clientid stateid)) r → Q r) :
    (resolveStateidOp clientid stateid none mode).Along may P Q := by
  refine ⟨hreap, fun _ _ => ?_⟩
  dsimp only [Program.bind]
  rcases normalizeStateid_none stateid mode with h | h | h | h
  · rw [h]
    exact hbad
  · rw [h]
    exact hanonymous
  · rw [h]
    exact hbypass
  · rw [h]
    exact ⟨hresolve, hanswer⟩

/-! ## Minting filehandles -/

/-- The part of `object_to_fh` for an object that has no filehandle yet. -/
def mintFh (object : ServerObject) : Request H (Option Bytes) :=
  claimPersistentFh object >>= fun claimed => Option.elim claimed
    (mapOp .nextBootFh >>= fun fh => mapOp (.fhToObjectInsert fh object) >>= fun _ =>
      publishFh object fh)
    (publishFh object)

/-- `object_to_fh` in its two parts. -/
theorem objectToFh_eq (object : ServerObject) :
    (objectToFh object : Request H _) = mapOp (.objectToFhGet object) >>= fun fh =>
      Option.elim fh (mapOp (.isRetired object) >>= fun retired =>
        if retired then .ret none else mintFh object) fun fh => .ret (some fh) := by
  unfold objectToFh mintFh
  refine congrArg (mapOp (.objectToFhGet object) >>= ·) (funext fun fh => ?_)
  cases fh with
  | some fh => rfl
  | none =>
    refine congrArg (mapOp (.isRetired object) >>= ·) (funext fun retired => ?_)
    cases retired with
    | true => rfl
    | false =>
      refine congrArg (claimPersistentFh object >>= ·) (funext fun claimed => ?_)
      cases claimed with
      | none => rfl
      | some fh => rfl

section

variable {P : Call H → Prop} (hP : ∀ q, q ≠ .nextBootFh → P (.mapOp q))
include hP

theorem claimPersistentFh_all (object : ServerObject) :
    (claimPersistentFh object : Request H _).All P := by
  unfold claimPersistentFh
  cases object with
  | fs id =>
    refine ⟨hP _ (by simp), fun r _ => ?_⟩
    cases r with
    | none => trivial
    | some fh =>
      refine ⟨hP _ (by simp), fun r _ => ?_⟩
      cases r with
      | true => trivial
      | false => trivial
  | _ => trivial

theorem publishFh_all (object : ServerObject) (fh : Bytes) :
    (publishFh object fh : Request H _).All P := by
  unfold publishFh
  refine ⟨hP _ (by simp), fun r _ => ?_⟩
  cases r with
  | some winner =>
    show Program.Along _ _ _ (if winner ≠ fh then _ else _)
    split
    · exact ⟨hP _ (by simp), fun _ _ => trivial⟩
    · trivial
  | none =>
    refine ⟨hP _ (by simp), fun r _ => ?_⟩
    cases r with
    | true => exact ⟨hP _ (by simp), fun _ _ => ⟨hP _ (by simp), fun _ _ => trivial⟩⟩
    | false => trivial

theorem objectToFh_all (hnext : P (.mapOp .nextBootFh)) (object : ServerObject) :
    (objectToFh object : Request H _).All P := by
  have hmint : (mintFh object : Request H _).All P := by
    refine (claimPersistentFh_all hP object).bind fun claimed => ?_
    cases claimed with
    | some fh => exact publishFh_all hP object fh
    | none => exact ⟨hnext, fun fh _ => ⟨hP _ (by simp), fun _ _ => publishFh_all hP object fh⟩⟩
  rw [objectToFh_eq]
  refine ⟨hP _ (by simp), fun fh _ => ?_⟩
  cases fh with
  | some fh => trivial
  | none =>
    refine ⟨hP _ (by simp), fun retired _ => ?_⟩
    cases retired with
    | true => trivial
    | false => exact hmint

end

/-! ## Recalls -/

/-- The calls that a recall makes once the delegations are marked. -/
def Call.Recalling : Call H → Prop
  | .guarded (.callbackConnectionIds _) | .guarded (.nextCallbackTargetOn _ _)
  | .guarded (.delegationRecallComplete _) | .guarded (.revokeRecallableDelegation _) => True
  | c => c.Auxiliary

theorem Call.Auxiliary.recalling {c : Call H} (h : c.Auxiliary) : c.Recalling := by
  cases c with
  | guarded q => cases q <;> first | exact h | trivial
  | _ => exact h

/-- The calls among them that are not callbacks. -/
def Call.Quiet : Call H → Prop
  | .sendCallback _ _ _ => False
  | c => c.Recalling

theorem Call.Quiet.recalling {c : Call H} (h : c.Quiet) : c.Recalling := by
  cases c with
  | sendCallback target stateid fh => exact h.elim
  | _ => exact h

/-- A program without callbacks is one of a recall. -/
theorem Quiet.recalling {α : Type} {p : Request H α} (h : p.All Call.Quiet) :
    p.All Call.Recalling :=
  h.mono (fun _ _ h => h) (fun _ => Call.Quiet.recalling) fun _ h => h

theorem reapThen_quiet {c : Section} (h : (Call.guarded c : Call H).Quiet) :
    (reapThen c : Request H c.Ret).All Call.Quiet :=
  ⟨trivial, fun _ _ => ⟨h, fun _ _ => trivial⟩⟩

/-- The connections of a client are tried one by one until a target is found on one of them. -/
theorem nextCallbackTarget_all {P : Call H → Prop} {clientid : Clientid4}
    (hids : P (.guarded (.callbackConnectionIds clientid)))
    (hconnected : ∀ id, P (.hasConnection id))
    (htarget : ∀ id, P (.guarded (.nextCallbackTargetOn clientid id))) :
    (nextCallbackTarget clientid : Request H _).All P := by
  refine ⟨hids, fun ids _ => ?_⟩
  induction ids with
  | nil => trivial
  | cons id ids ih =>
    refine ⟨hconnected id, fun connected _ => ?_⟩
    cases connected with
    | false => exact ih trivial
    | true =>
      refine ⟨htarget id, fun target _ => ?_⟩
      cases target with
      | some target => trivial
      | none => exact ih trivial

theorem nextCallbackTarget_quiet (clientid : Clientid4) :
    (nextCallbackTarget clientid : Request H _).All Call.Quiet :=
  nextCallbackTarget_all trivial (fun _ => trivial) fun _ => trivial

/-- The calls of the wait for recalled delegations. -/
def Call.Polling : Call H → Prop
  | .guarded .reapExpiredClients | .guarded (.delegationRecallComplete _)
  | .guarded (.revokeRecallableDelegation _) | .now => True
  | _ => False

theorem Call.Polling.quiet {c : Call H} (h : c.Polling) : c.Quiet := by
  cases c with
  | guarded q => cases q <;> first | exact h.elim | trivial
  | now => trivial
  | _ => exact h.elim

theorem stillOutstanding_polling (stateids : List Stateid4) :
    (stillOutstanding stateids : Request H _).All Call.Polling := by
  induction stateids with
  | nil => trivial
  | cons stateid stateids ih =>
    refine ⟨trivial, fun complete _ => ?_⟩
    show Program.All Call.Polling (stillOutstanding stateids >>= _)
    exact Program.Along.bind ih fun _ _ => trivial

theorem revokeAll_polling (stateids : List Stateid4) :
    (revokeAll stateids : Request H _).All Call.Polling :=
  Program.Along.each fun _ _ =>
    Program.Along.discard ⟨trivial, fun _ _ => ⟨trivial, fun _ _ => trivial⟩⟩

/-- The wait asks for the outstanding delegations in turn and revokes what is left at its end. -/
theorem pollRecalled_polling (deadline : Instant) (fuel : Nat) (stateids : List Stateid4) :
    (pollRecalled deadline fuel stateids : Request H _).All Call.Polling := by
  induction fuel generalizing stateids with
  | zero =>
    unfold pollRecalled
    refine Program.Along.bind (stillOutstanding_polling stateids) fun remaining _ => ?_
    split
    · trivial
    · exact ⟨trivial, fun _ _ => revokeAll_polling remaining⟩
  | succ fuel ih =>
    unfold pollRecalled
    refine Program.Along.bind (stillOutstanding_polling stateids) fun remaining _ => ?_
    split
    · trivial
    · refine ⟨trivial, fun now _ => ?_⟩
      show Program.All Call.Polling (if deadline ≤ now then _ else _)
      split
      · exact revokeAll_polling remaining
      · exact ih remaining

theorem pollRecalled_quiet (deadline : Instant) (fuel : Nat) (stateids : List Stateid4) :
    (pollRecalled deadline fuel stateids : Request H _).All Call.Quiet :=
  (pollRecalled_polling deadline fuel stateids).mono (fun _ _ h => h) (fun _ => Call.Polling.quiet)
    fun _ h => h

/-- The calls that carry the callbacks of a recall, and those of the wait for its end. -/
def Call.Calling : Call H → Prop
  | .guarded (.callbackConnectionIds _) | .guarded (.nextCallbackTargetOn _ _)
  | .hasConnection _ | .sendCallback _ _ _ | .callbackReply _ => True
  | c => c.Polling

theorem Call.Polling.calling {c : Call H} (h : c.Polling) : c.Calling := by
  cases c with
  | guarded q => cases q <;> first | exact h | trivial
  | now => trivial
  | _ => exact h.elim

theorem sendDirectoryRecall_calling (recalled : DirectoryDelegationRecall) (fh : Bytes) :
    (sendDirectoryRecall recalled fh : Request H _).All Call.Calling := by
  refine Program.Along.bind (nextCallbackTarget_all trivial (fun _ => trivial) fun _ => trivial)
    fun target _ => ?_
  cases target with
  | none => trivial
  | some target =>
    refine ⟨trivial, fun sent _ => ?_⟩
    cases sent with
    | error e => trivial
    | ok _ =>
      refine ⟨trivial, fun r _ => ?_⟩
      cases r with
      | ok response => trivial
      | error e => trivial

/-- Recalls are sent one after another; a delegation whose recall cannot be sent is revoked. -/
theorem sendRecalls_calling (fh : Bytes) (recalls : List DirectoryDelegationRecall) :
    (sendRecalls fh recalls : Request H _).All Call.Calling := by
  refine Program.Along.each fun recalled _ => ?_
  split
  · refine Program.Along.bind (sendDirectoryRecall_calling recalled fh) fun r _ => ?_
    cases r with
    | ok _ => trivial
    | error status =>
      exact Program.Along.discard ⟨trivial, fun _ _ => ⟨trivial, fun _ _ => trivial⟩⟩
  · trivial

theorem Call.Calling.recalling {c : Call H} (h : c.Calling) : c.Recalling := by
  cases c with
  | guarded q => cases q <;> first | exact h.elim | trivial
  | backend ctx origin dirs q => exact h.elim
  | mapOp q => exact h.elim
  | retireMatching q => exact h.elim
  | _ => trivial

theorem sendRecalls_recalling (fh : Bytes) (recalls : List DirectoryDelegationRecall) :
    (sendRecalls fh recalls : Request H _).All Call.Recalling :=
  (sendRecalls_calling fh recalls).mono (fun _ _ h => h) (fun _ => Call.Calling.recalling)
    fun _ h => h

/-- A recall marks the delegations, mints a filehandle and calls back. -/
theorem recallDirectoryDelegations_all {P : Call H → Prop} (config : DelegationConfig)
    (object : ServerObject) (excluded : Option Clientid4)
    (hbegin : P (.guarded (.beginDirectoryRecallExcluding object excluded)))
    (hfh : (objectToFh object : Request H _).All P) (hrest : ∀ c : Call H, c.Calling → P c) :
    (recallDirectoryDelegations config object excluded : Request H _).All P := by
  have lift : ∀ {α : Type} {p : Request H α}, p.All Call.Calling → p.All P :=
    fun hp => hp.mono (fun _ _ h => h) hrest fun _ h => h
  unfold recallDirectoryDelegations
  split
  · refine ⟨hrest _ trivial, fun _ _ => ⟨hbegin, fun recalls _ => ?_⟩⟩
    show Program.All P (if recalls.isEmpty then _ else _)
    split
    · trivial
    · refine Program.Along.bind hfh fun fh _ => ?_
      cases fh with
      | none => trivial
      | some fh =>
        refine Program.Along.bind (lift (sendRecalls_calling fh recalls)) fun _ _ => ?_
        refine ⟨hrest _ trivial, fun _ _ => lift ?_⟩
        exact (pollRecalled_polling _ _ _).mono (fun _ _ h => h) (fun _ => Call.Polling.calling)
          fun _ h => h
  · trivial

/-- The same for a property of all the calls of a recall. -/
theorem recallDirectoryDelegations_along {P : Call H → Prop} (config : DelegationConfig)
    (object : ServerObject) (excluded : Option Clientid4)
    (hbegin : P (.guarded (.beginDirectoryRecallExcluding object excluded)))
    (hrest : ∀ c : Call H, c.Recalling → P c) :
    (recallDirectoryDelegations config object excluded : Request H _).All P :=
  recallDirectoryDelegations_all config object excluded hbegin
    ((objectToFh_helper object).all.mono (fun _ _ h => h)
      (fun c hc => hrest c (Call.Auxiliary.recalling hc)) fun _ _ => trivial)
    fun c hc => hrest c (Call.Calling.recalling hc)

end

end EmbedNfs

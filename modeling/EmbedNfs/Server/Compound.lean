import EmbedNfs.Server.Ops.Attrs
import EmbedNfs.Server.Ops.Directory
import EmbedNfs.Server.Ops.Locking
import EmbedNfs.Server.Ops.Readdir

/-!
# COMPOUND execution

`server/compound.rs` and GET_DIR_DELEGATION. A COMPOUND runs its operations in order, with a
current and a saved filehandle and stateid, and stops at the first that fails. The client an
NFSv4.1 COMPOUND acts for is the one its leading SEQUENCE is bound to.
-/

namespace EmbedNfs

variable {H : Type}

/-- What a server is configured with. -/
structure ServerConfig (H : Type) where
  backend : Backend H
  delegations : DelegationConfig
  writeVerifier : Verifier4
  encodeFattr4 : FattrEncoder := fun _ _ _ _ _ _ => ⟨⟨[]⟩, []⟩

/-- `CompoundExecutionState`. -/
structure CompoundState where
  currentFh : Option Bytes := none
  currentStateid : Option Stateid4 := none
  savedFh : Option Bytes := none
  savedStateid : Option Stateid4 := none
  minorversion : U32
  deriving DecidableEq, Repr

/-- `delegation_state_ops_enabled`. -/
def DelegationConfig.stateOpsEnabled (config : DelegationConfig) (minorversion : U32) : Bool :=
  minorversion ≠ 0 ∧ config.directoryDelegations

/-! ## Operations on stateids -/

/-- The status of a result that carries no value. -/
def statusOf : Except NfsStat4 Unit → NfsStat4
  | .ok () => .ok
  | .error status => status

/-- `op_get_dir_delegation`. -/
def opGetDirDelegation (cfg : ServerConfig H) (ctx : OpContext) (currentFh : Option Bytes)
    (minorversion : U32) : Request H NfsResop4 := do
  if !cfg.delegations.stateOpsEnabled minorversion then return .getDirDelegation .notsupp none
  let some clientid := ctx.sequenceClientid | return .getDirDelegation .opNotInSession none
  let object ← match ← resolveObject cfg.backend currentFh with
    | .ok (_, object) => pure object
    | .error status => return .getDirDelegation status none
  match object with
  | .namedAttrDir _ => return .getDirDelegation .notsupp none
  | .namedAttrFile _ _ => return .getDirDelegation .notdir none
  | .fs _ =>
    let attr ← match ← buildAttr cfg.backend ctx.request object with
      | .ok attr => pure attr
      | .error e => return .getDirDelegation e.toNfsstat4 none
    if !attr.isDir then return .getDirDelegation .notdir none
    if !(← hasCallbackPath clientid) then return .getDirDelegation .dirDelegUnavail none
    match ← reapThen (.grantDirectoryDelegation object clientid ctx.sequenceSessionid
        cfg.delegations.maxDelegationsPerClient cfg.delegations.maxDelegationsTotal) with
    | .ok (.granted stateid) =>
      return .getDirDelegation .ok (some (.ok attr.changeId stateid))
    | .ok .alreadyHeld => return .getDirDelegation .ok (some .unavail)
    | .ok .unavailable => return .getDirDelegation .dirDelegUnavail none
    | .error status => return .getDirDelegation status none

/-- The FREE_STATEID arm of `handle_op`. -/
def opFreeStateid (requested : Stateid4) (currentStateid : Option Stateid4) :
    Request H NfsResop4 := do
  let stateid ← match concreteStateid requested currentStateid .zeroSeqid with
    | .ok stateid => pure stateid
    | .error status => return .freeStateid status
  return .freeStateid (statusOf (← reapThen (.freeStateid stateid)))

/-- The DELEGRETURN arm of `handle_op`. -/
def opDelegReturn (config : DelegationConfig) (ctx : OpContext) (requested : Stateid4)
    (state : CompoundState) : Request H NfsResop4 := do
  if !config.stateOpsEnabled state.minorversion then return .delegReturn .ok
  let stateid ← match concreteStateid requested state.currentStateid .zeroSeqid with
    | .ok stateid => pure stateid
    | .error status => return .delegReturn status
  return .delegReturn
    (statusOf (← reapThen (.returnDelegationState stateid ctx.sequenceClientid)))

/-- The DELEGPURGE arm of `handle_op`. -/
def opDelegPurge (config : DelegationConfig) (ctx : OpContext) (minorversion : U32) :
    Request H NfsResop4 := do
  let some clientid := ctx.sequenceClientid | return .delegPurge .ok
  if !config.stateOpsEnabled minorversion then return .delegPurge .ok
  reapThen (.purgeClientDelegations clientid)
  return .delegPurge .ok

/-- The OPEN arm of `handle_op`: the reclaim check, then `op_open`. -/
def opOpenReclaim (cfg : ServerConfig H) (ctx : OpContext) (args : OpenArgs4)
    (state : CompoundState) : Request H (NfsResop4 × Option Bytes) := do
  match ctx.sequenceClientid with
  | none => opOpen cfg.backend cfg.delegations ctx args state.currentFh state.minorversion
  | some clientid =>
    match ← reapThen (.validateOpenReclaim clientid args.claim) with
    | .error status => return (.open status none, state.currentFh)
    | .ok () =>
      opOpen cfg.backend cfg.delegations ctx args state.currentFh state.minorversion

/-- `op_reclaim_complete`. -/
def opReclaimComplete (backend : Backend H) (ctx : OpContext) (oneFs : Bool)
    (currentFh : Option Bytes) : Request H NfsResop4 := do
  let some clientid := ctx.sequenceClientid | return .reclaimComplete .opNotInSession
  if oneFs then
    if let .error status ← resolveObject backend currentFh then
      return .reclaimComplete status
  return .reclaimComplete (statusOf (← guarded (.reclaimComplete clientid oneFs)))

/-- The PUTROOTFH arm of `handle_op`, with the new current filehandle. -/
def opPutrootfh (backend : Backend H) (currentFh : Option Bytes) :
    Request H (NfsResop4 × Option Bytes) := do
  match ← registerHandle backend.root with
  | .error e => return (.putrootfh e.toNfsstat4, currentFh)
  | .ok id =>
    match ← objectToFh (.fs id) with
    | some fh => return (.putrootfh .ok, some fh)
    | none => return (.putrootfh .stale, currentFh)

/-! ## Dispatch -/

/-- Pair a result with an unchanged execution state. -/
def keepState (state : CompoundState) (p : Request H NfsResop4) :
    Request H (NfsResop4 × CompoundState) := do
  return (← p, state)

/-- Store the filehandle an operation leaves as the current one. -/
def storeFh (state : CompoundState) (p : Request H (NfsResop4 × Option Bytes)) :
    Request H (NfsResop4 × CompoundState) := do
  let (res, fh) ← p
  return (res, { state with currentFh := fh })

/-- The result of an operation that exists in NFSv4.0 only. -/
def onlyV40 (state : CompoundState) (refused : NfsResop4) (p : Request H NfsResop4) :
    Request H (NfsResop4 × CompoundState) :=
  if state.minorversion ≠ 0 then return (refused, state) else keepState state p

/-- `handle_op`. -/
def handleOp (cfg : ServerConfig H) (ctx : OpContext) (connectionId : U64) (op : NfsArgop4)
    (state : CompoundState) : Request H (NfsResop4 × CompoundState) :=
  match op with
  | .close stateid =>
    keepState state (opClose cfg.backend ctx stateid state.currentFh state.currentStateid)
  | .create args => storeFh state (opCreate cfg.backend cfg.delegations ctx args state.currentFh)
  | .getfh =>
    match state.currentFh with
    | some fh => return (.getfh .ok (some fh), state)
    | none => return (.getfh .nofilehandle none, state)
  | .link newname =>
    keepState state
      (opLink cfg.backend cfg.delegations ctx newname state.currentFh state.savedFh)
  | .lookup name => storeFh state (opLookup cfg.backend ctx name state.currentFh)
  | .open args => storeFh state (opOpenReclaim cfg ctx args state)
  | .putfh object =>
    if fhHasValidFormat object then return (.putfh .ok, { state with currentFh := some object })
    else return (.putfh .badhandle, state)
  | .putrootfh => storeFh state (opPutrootfh cfg.backend state.currentFh)
  | .read args =>
    keepState state (opRead cfg.backend ctx args state.currentFh state.currentStateid)
  | .remove target =>
    keepState state (opRemove cfg.backend cfg.delegations ctx target state.currentFh)
  | .rename args =>
    keepState state
      (opRename cfg.backend cfg.delegations ctx args state.currentFh state.savedFh)
  | .restorefh =>
    match state.savedFh with
    | some fh => return (.restorefh .ok, { state with currentFh := some fh })
    | none => return (.restorefh .nofilehandle, state)
  | .savefh =>
    match state.currentFh with
    | some fh => return (.savefh .ok, { state with savedFh := some fh })
    | none => return (.savefh .nofilehandle, state)
  | .setattr args =>
    keepState state
      (opSetattr cfg.backend cfg.delegations ctx args state.currentFh state.currentStateid)
  | .write args =>
    keepState state
      (opWrite cfg.backend cfg.writeVerifier ctx args state.currentFh state.currentStateid)
  | .exchangeId args =>
    keepState state do
      match ← guarded (.exchangeId args) with
      | .ok res => return .exchangeId .ok (some res)
      | .error status => return .exchangeId status none
  | .createSession args =>
    keepState state do
      match ← guarded (.createSession args connectionId) with
      | .ok res => return .createSession .ok (some res)
      | .error status => return .createSession status none
  | .destroySession sessionid =>
    keepState state do
      return .destroySession (statusOf (← guarded (.destroySession sessionid connectionId)))
  | .sequence _ => return (.sequence .serverfault none, state)
  | .reclaimComplete oneFs =>
    keepState state (opReclaimComplete cfg.backend ctx oneFs state.currentFh)
  | .destroyClientid clientid =>
    keepState state do
      return .destroyClientid (statusOf (← guarded (.destroyClientid clientid)))
  | .bindConnToSession args =>
    keepState state do
      match ← guarded (.bindConnToSession args connectionId) with
      | .ok dir => return .bindConnToSession .ok (some dir)
      | .error status => return .bindConnToSession status none
  | .freeStateid stateid => keepState state (opFreeStateid stateid state.currentStateid)
  | .testStateid stateids =>
    keepState state do return .testStateid .ok (← reapThen (.testStateids stateids))
  | .delegReturn stateid => keepState state (opDelegReturn cfg.delegations ctx stateid state)
  | .openConfirm stateid =>
    onlyV40 state (.openConfirm .notsupp none) do
      match ← reapThen (.confirmOpenState stateid) with
      | .ok stateid => return .openConfirm .ok (some stateid)
      | .error status => return .openConfirm status none
  | .renew clientid =>
    onlyV40 state (.renew .notsupp) do
      return .renew (statusOf (← guarded (.renew clientid)))
  | .setClientId args =>
    onlyV40 state (.setClientId .notsupp none) do
      return .setClientId .ok (some (← guarded (.setClientId args)))
  | .setClientIdConfirm args =>
    onlyV40 state (.setClientIdConfirm .notsupp) do
      return .setClientIdConfirm (statusOf (← guarded (.setClientIdConfirm args)))
  | .lock args =>
    keepState state (opLock cfg.backend ctx args state.currentFh state.currentStateid)
  | .lockt args => keepState state (opLockt cfg.backend ctx args state.currentFh)
  | .locku args =>
    keepState state (opLocku cfg.backend ctx args state.currentFh state.currentStateid)
  | .openAttr => storeFh state (opOpenattr cfg.backend state.currentFh)
  | .delegPurge => keepState state (opDelegPurge cfg.delegations ctx state.minorversion)
  | .openDowngrade args => keepState state (opOpenDowngrade ctx args state.currentStateid)
  | .getDirDelegation =>
    keepState state (opGetDirDelegation cfg ctx state.currentFh state.minorversion)
  | .readdir args =>
    keepState state (opReaddir cfg.backend cfg.encodeFattr4 ctx.request args state.currentFh
      state.minorversion)
  | .illegal => return (.illegal .opIllegal, state)

/-! ## State between operations -/

/-- `returned_stateid`. -/
def returnedStateid : NfsResop4 → Option Stateid4
  | .open .ok (some res) => some res.stateid
  | .close .ok stateid => some stateid
  | .lock .ok (some stateid) _ => some stateid
  | .locku .ok (some stateid) => some stateid
  | .openDowngrade .ok (some stateid) => some stateid
  | .getDirDelegation .ok (some (.ok _ stateid)) => some stateid
  | _ => none

/-- `apply_compound_state_transition`. -/
def applyTransition (op : NfsArgop4) (res : NfsResop4) (state : CompoundState) :
    CompoundState :=
  if res.status ≠ .ok then state
  else
    let state :=
      match returnedStateid res with
      | some stateid => { state with currentStateid := some stateid }
      | none => state
    match op with
    | .savefh => { state with savedFh := state.currentFh, savedStateid := state.currentStateid }
    | .restorefh => { state with currentStateid := state.savedStateid }
    | .putfh _ | .putrootfh | .lookup _ | .create _ | .openAttr =>
      { state with currentStateid := state.currentFh.map fun _ => .anonymous }
    | _ => state

/-! ## COMPOUND -/

/-- `allows_compound_without_sequence`. -/
def NfsArgop4.allowedWithoutSequence : NfsArgop4 → Bool
  | .exchangeId _ | .createSession _ | .destroySession _ | .destroyClientid _
  | .bindConnToSession _ => true
  | _ => false

/-- `error_res_for_op`. -/
def NfsArgop4.errorRes (op : NfsArgop4) (status : NfsStat4) : NfsResop4 :=
  match op with
  | .close _ => .close status .anonymous
  | .create _ => .create status none
  | .getfh => .getfh status none
  | .link _ => .link status none
  | .lookup _ => .lookup status
  | .open _ => .open status none
  | .putfh _ => .putfh status
  | .putrootfh => .putrootfh status
  | .read _ => .read status none
  | .remove _ => .remove status none
  | .rename _ => .rename status none none
  | .restorefh => .restorefh status
  | .savefh => .savefh status
  | .setattr _ => .setattr status ⟨[]⟩
  | .write _ => .write status none
  | .exchangeId _ => .exchangeId status none
  | .createSession _ => .createSession status none
  | .destroySession _ => .destroySession status
  | .sequence _ => .sequence status none
  | .reclaimComplete _ => .reclaimComplete status
  | .destroyClientid _ => .destroyClientid status
  | .bindConnToSession _ => .bindConnToSession status none
  | .freeStateid _ => .freeStateid status
  | .testStateid _ => .testStateid status []
  | .delegReturn _ => .delegReturn status
  | .openConfirm _ => .openConfirm status none
  | .renew _ => .renew status
  | .setClientId _ => .setClientId status none
  | .setClientIdConfirm _ => .setClientIdConfirm status
  | .lock _ => .lock status none none
  | .lockt _ => .lockt status none
  | .locku _ => .locku status none
  | .openAttr => .openAttr status
  | .delegPurge => .delegPurge status
  | .openDowngrade _ => .openDowngrade status none
  | .getDirDelegation => .getDirDelegation status none
  | .readdir _ => .readdir status none
  | .illegal => .illegal status

/-- The status of an operation that needs a leading SEQUENCE and has none. -/
def NfsArgop4.withoutSequence : NfsArgop4 → NfsStat4
  | .illegal => .opIllegal
  | _ => .opNotInSession

structure Compound4Args where
  minorversion : U32
  argarray : List NfsArgop4
  deriving DecidableEq, Repr

structure Compound4Res where
  status : NfsStat4
  resarray : List NfsResop4
  deriving DecidableEq, Repr

/-- The session of a leading SEQUENCE. -/
def Compound4Args.leadingSession (args : Compound4Args) : Option Sessionid4 :=
  match args.argarray with
  | .sequence seq :: _ => some seq.sessionid
  | _ => none

/-- Why an operation after the first may not stand where it stands, if it may not. -/
def misplaced (ctx : OpContext) (isLast : Bool) : NfsArgop4 → Option NfsStat4
  | .sequence _ => some .sequencePos
  | .bindConnToSession _ => some .notOnlyOp
  | .destroySession sessionid =>
    if ctx.sequenceSessionid = some sessionid ∧ !isLast then some .notOnlyOp else none
  | .destroyClientid clientid =>
    if ctx.sequenceClientid = some clientid then some .clientidBusy else none
  | _ => none

/-- The operations after the first, up to the first that fails. -/
def runOps (cfg : ServerConfig H) (ctx : OpContext) (connectionId : U64) :
    List NfsArgop4 → CompoundState → Request H Compound4Res
  | [], _ => return ⟨.ok, []⟩
  | op :: ops, state => do
    match misplaced ctx ops.isEmpty op with
    | some status => return ⟨status, [op.errorRes status]⟩
    | none =>
      let (res, state) ← handleOp cfg ctx connectionId op state
      if res.status ≠ .ok then return ⟨res.status, [res]⟩
      let rest ← runOps cfg ctx connectionId ops (applyTransition op res state)
      return ⟨rest.status, res :: rest.resarray⟩

/-- The first operation: a SEQUENCE has been prepared by the transport. -/
def runFirst (cfg : ServerConfig H) (ctx : OpContext) (connectionId : U64) (op : NfsArgop4)
    (prepared : Option NfsResop4) (state : CompoundState) :
    Request H (NfsResop4 × CompoundState) :=
  match op, prepared with
  | .sequence _, some res => return (res, state)
  | _, _ => handleOp cfg ctx connectionId op state

/-- The client that the session of a leading SEQUENCE belongs to. -/
def leadingClientid (args : Compound4Args) : Request H (Option Clientid4) :=
  match args.leadingSession with
  | some sessionid => guarded (.sessionClientid sessionid)
  | none => return none

/-- `handle_compound`. -/
def handleCompound (cfg : ServerConfig H) (request : RequestContext) (connectionId : U64)
    (args : Compound4Args) (prepared : Option NfsResop4) : Request H Compound4Res := do
  if 2 < args.minorversion.toNat then return ⟨.minorVersMismatch, []⟩
  let clientid ← leadingClientid args
  let ctx : OpContext := ⟨request, clientid, args.leadingSession⟩
  match args.argarray with
  | [] => return ⟨.ok, []⟩
  | op :: ops =>
    if args.minorversion ≠ 0 ∧ args.leadingSession.isNone ∧ op.allowedWithoutSequence ∧
        !ops.isEmpty then
      return ⟨.notOnlyOp, [op.errorRes .notOnlyOp]⟩
    if args.minorversion ≠ 0 ∧ args.leadingSession.isNone ∧ !op.allowedWithoutSequence then
      return ⟨op.withoutSequence, [op.errorRes op.withoutSequence]⟩
    let (res, state) ← runFirst cfg ctx connectionId op prepared
      { minorversion := args.minorversion }
    if res.status ≠ .ok then return ⟨res.status, [res]⟩
    let rest ← runOps cfg ctx connectionId ops (applyTransition op res state)
    return ⟨rest.status, res :: rest.resarray⟩

end EmbedNfs

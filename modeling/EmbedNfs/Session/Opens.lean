import EmbedNfs.Session.Clients

/-!
# Opens

The sections of `session/opens.rs` that create, upgrade, downgrade, close and free open
states. An open is keyed by client, open owner and object: a repeated OPEN upgrades the
owner's open to the union of the shares instead of minting a second stateid. Shares are
checked and installed under one acquisition of the lock.
-/

namespace EmbedNfs

/-- Outcome of `close_state`: the bumped stateid, and whether the last writer left. -/
structure CloseOutcome where
  stateid : Stateid4
  lastWriter : Bool
  deriving DecidableEq, Repr

namespace StateManager

/-- `has_conflicting_share_deny`. -/
def hasConflictingShareDeny (s : StateManager) (object : ServerObject) (access : U32)
    (ignoreOpenOther : Option StateidOther) : Bool :=
  s.inner.openFiles.any fun other state =>
    state.active ∧ state.object = object ∧ some other ≠ ignoreOpenOther ∧
      state.shareDeny &&& access ≠ 0

/-- The owner's own active open of the object, if it has one. -/
def existingOpen (s : StateManager) (object : ServerObject) (owner : StateOwner4) :
    Option (StateidOther × OpenFileState) :=
  s.inner.openFiles.find? fun _ state =>
    state.active ∧ state.object = object ∧ state.clientid = owner.clientid ∧
      state.owner = owner.owner

/-- Whether some other active open of the object conflicts with the wanted share. -/
def shareConflict (s : StateManager) (object : ServerObject) (ownOther : Option StateidOther)
    (wantAccess wantDeny : U32) : Bool :=
  s.inner.openFiles.any fun other state =>
    state.active ∧ some other ≠ ownOther ∧ state.object = object ∧
      (state.shareDeny &&& wantAccess ≠ 0 ∨ wantDeny &&& state.shareAccess ≠ 0)

/-- `create_open_state`. -/
def createOpenState (s : StateManager) (object : ServerObject) (owner : StateOwner4)
    (shareAccess shareDeny : U32) : Except NfsStat4 (Stateid4 × StateManager) :=
  let shareAccess := shareAccess &&& open4ShareAccessBoth
  if shareAccess = 0 ∨ shareDeny &&& ~~~open4ShareDenyBoth ≠ 0 then .error .inval
  else if s.isRetired object then .error .stale
  else
    match s.existingOpen object owner with
    | some (other, state) =>
      let wantAccess := state.shareAccess ||| shareAccess
      let wantDeny := state.shareDeny ||| shareDeny
      if s.shareConflict object (some other) wantAccess wantDeny then .error .shareDenied
      else
        .ok (⟨state.stateidSeq + 1, other⟩,
          { s with
            inner.openFiles := s.inner.openFiles.modify other fun state =>
              { state with
                shareAccess := wantAccess
                shareDeny := wantDeny
                stateidSeq := state.stateidSeq + 1 } })
    | none =>
      if s.shareConflict object none shareAccess shareDeny then .error .shareDenied
      else
        let other := StateidOther.mint s.nextStateid owner.clientid
        let state : OpenFileState :=
          { object, clientid := owner.clientid, owner := owner.owner, stateidSeq := 1,
            active := true, shareAccess, shareDeny }
        .ok (⟨1, other⟩,
          { s with
            nextStateid := s.nextStateid + 1
            inner.openFiles := s.inner.openFiles.insert other state })

/-- `confirm_open_state`. -/
def confirmOpenState (s : StateManager) (stateid : Stateid4) :
    Except NfsStat4 (Stateid4 × StateManager) := do
  let some state := s.inner.openFiles.get stateid.other | throw .badStateid
  if !state.active then throw .badStateid
  validateStateidSeq state.stateidSeq stateid.seqid
  return (⟨state.stateidSeq + 1, stateid.other⟩,
    { s with
      inner.openFiles := s.inner.openFiles.modify stateid.other fun state =>
        { state with stateidSeq := state.stateidSeq + 1 } })

/-- Whether an active lock state was created under the open. -/
def locksHeld (s : StateManager) (openOther : StateidOther) : Bool :=
  s.inner.lockFiles.any fun _ lock => lock.active ∧ lock.openStateOther = openOther

/-- `close_state`. -/
def closeState (s : StateManager) (stateid : Stateid4) :
    Except NfsStat4 (CloseOutcome × StateManager) := do
  let some state := s.inner.openFiles.get stateid.other | throw .badStateid
  validateStateidSeq state.stateidSeq stateid.seqid
  if !state.active then throw .badStateid
  if s.locksHeld stateid.other then throw .locksHeld
  let wasWriter := state.shareAccess &&& open4ShareAccessWrite ≠ 0
  let openFiles := s.inner.openFiles.modify stateid.other fun state =>
    { state with active := false, stateidSeq := state.stateidSeq + 1 }
  let writersRemain := openFiles.any fun _ open' =>
    open'.active ∧ open'.object = state.object ∧ open'.shareAccess &&& open4ShareAccessWrite ≠ 0
  return ({ stateid := ⟨state.stateidSeq + 1, stateid.other⟩,
            lastWriter := wasWriter ∧ !writersRemain },
    { s with inner.openFiles := openFiles })

/-- `free_stateid`. -/
def freeStateid (s : StateManager) (stateid : Stateid4) : Except NfsStat4 StateManager := do
  if let some state := s.inner.openFiles.get stateid.other then
    validateStateidSeq state.stateidSeq stateid.seqid
    if state.active ∨ s.locksHeld stateid.other then throw .locksHeld
    return { s with inner.openFiles := s.inner.openFiles.erase stateid.other }
  if let some lock := s.inner.lockFiles.get stateid.other then
    validateStateidSeq lock.stateidSeq stateid.seqid
    if lock.active then throw .locksHeld
    return { s with inner.lockFiles := s.inner.lockFiles.erase stateid.other }
  if let some delegation := s.inner.delegations.get stateid.other then
    validateStateidSeq delegation.stateidSeq stateid.seqid
    if delegation.status.isLive then throw .locksHeld
    return { s with inner := s.inner.removeDelegationLocked stateid.other }
  throw .badStateid

/-- `open_downgrade`. -/
def openDowngrade (s : StateManager) (openStateid : Stateid4) (shareAccess shareDeny : U32) :
    Except NfsStat4 (Stateid4 × StateManager) := do
  let accessMode := shareAccess &&& ~~~open4ShareAccessWantDelegMask
  if accessMode ∉ [open4ShareAccessRead, open4ShareAccessWrite, open4ShareAccessBoth] then
    throw .inval
  if shareDeny ∉
      [open4ShareDenyNone, open4ShareDenyRead, open4ShareDenyWrite, open4ShareDenyBoth] then
    throw .inval
  let some state := s.inner.openFiles.get openStateid.other | throw .badStateid
  validateStateidSeq state.stateidSeq openStateid.seqid
  if !state.active then throw .badStateid
  if accessMode &&& ~~~state.shareAccess ≠ 0 ∨ shareDeny &&& ~~~state.shareDeny ≠ 0 then
    throw .inval
  return (⟨state.stateidSeq + 1, openStateid.other⟩,
    { s with
      inner.openFiles := s.inner.openFiles.modify openStateid.other fun state =>
        { state with
          shareAccess := accessMode
          shareDeny := shareDeny
          stateidSeq := state.stateidSeq + 1 } })

/-! ## What a successful section did -/

/-- What a successful `createOpenState` did: upgrade the owner's own open, or mint a new
one. -/
theorem createOpenState_ok {s s' : StateManager} {object : ServerObject} {owner : StateOwner4}
    {access deny : U32} {stateid : Stateid4}
    (h : s.createOpenState object owner access deny = .ok (stateid, s')) :
    s.isRetired object = false ∧
      ((∃ other state, s.existingOpen object owner = some (other, state) ∧
        s.shareConflict object (some other) (state.shareAccess ||| access &&& open4ShareAccessBoth)
          (state.shareDeny ||| deny) = false ∧
        stateid = ⟨state.stateidSeq + 1, other⟩ ∧
        s' = { s with
          inner.openFiles := s.inner.openFiles.modify other fun open' =>
            { open' with
              shareAccess := state.shareAccess ||| access &&& open4ShareAccessBoth
              shareDeny := state.shareDeny ||| deny
              stateidSeq := open'.stateidSeq + 1 } }) ∨
      (s.existingOpen object owner = none ∧
        s.shareConflict object none (access &&& open4ShareAccessBoth) deny = false ∧
        stateid = ⟨1, .mint s.nextStateid owner.clientid⟩ ∧
        s' = { s with
          nextStateid := s.nextStateid + 1
          inner.openFiles := s.inner.openFiles.insert (.mint s.nextStateid owner.clientid)
            { object, clientid := owner.clientid, owner := owner.owner, stateidSeq := 1,
              active := true, shareAccess := access &&& open4ShareAccessBoth,
              shareDeny := deny } })) := by
  unfold createOpenState at h
  grind

theorem confirmOpenState_ok {s s' : StateManager} {requested stateid : Stateid4}
    (h : s.confirmOpenState requested = .ok (stateid, s')) :
    s' = { s with
      inner.openFiles := s.inner.openFiles.modify requested.other fun open' =>
        { open' with stateidSeq := open'.stateidSeq + 1 } } := by
  simp only [confirmOpenState, bind, Except.bind, pure, Except.pure, throw, throwThe,
    MonadExceptOf.throw] at h
  grind

theorem closeState_ok {s s' : StateManager} {stateid : Stateid4} {out : CloseOutcome}
    (h : s.closeState stateid = .ok (out, s')) :
    s.locksHeld stateid.other = false ∧
    s' = { s with inner.openFiles := s.inner.openFiles.modify stateid.other fun open' =>
      { open' with active := false, stateidSeq := open'.stateidSeq + 1 } } := by
  simp only [closeState, bind, Except.bind, pure, Except.pure, throw, throwThe,
    MonadExceptOf.throw] at h
  grind

theorem freeStateid_ok {s s' : StateManager} {stateid : Stateid4}
    (h : s.freeStateid stateid = .ok s') :
    ((∀ opened, s.inner.openFiles.get stateid.other = some opened → opened.active = false) ∧
      s' = { s with inner.openFiles := s.inner.openFiles.erase stateid.other }) ∨
    s' = { s with inner.lockFiles := s.inner.lockFiles.erase stateid.other } ∨
    s' = { s with inner := s.inner.removeDelegationLocked stateid.other } := by
  simp only [freeStateid, bind, Except.bind, pure, Except.pure, throw, throwThe,
    MonadExceptOf.throw] at h
  grind

theorem openDowngrade_ok {s s' : StateManager} {requested stateid : Stateid4}
    {access deny : U32} (h : s.openDowngrade requested access deny = .ok (stateid, s')) :
    ∃ state mode, s.inner.openFiles.get requested.other = some state ∧
      mode &&& ~~~state.shareAccess = 0 ∧ deny &&& ~~~state.shareDeny = 0 ∧
      s' = { s with
        inner.openFiles := s.inner.openFiles.modify requested.other fun open' =>
          { open' with
            shareAccess := mode, shareDeny := deny, stateidSeq := open'.stateidSeq + 1 } } := by
  simp only [openDowngrade, bind, Except.bind, pure, Except.pure, throw, throwThe,
    MonadExceptOf.throw] at h
  grind

section

variable {s s' : StateManager} {requested stateid : Stateid4}

theorem confirmOpenState_returns (h : s.confirmOpenState requested = .ok (stateid, s')) :
    ∃ state, s.inner.openFiles.get requested.other = some state ∧
      validateStateidSeq state.stateidSeq requested.seqid = .ok () ∧
      stateid = ⟨state.stateidSeq + 1, requested.other⟩ := by
  simp only [confirmOpenState, bind, Except.bind, pure, Except.pure, throw, throwThe,
    MonadExceptOf.throw] at h
  grind

theorem closeState_returns {outcome : CloseOutcome}
    (h : s.closeState requested = .ok (outcome, s')) :
    ∃ state, s.inner.openFiles.get requested.other = some state ∧
      validateStateidSeq state.stateidSeq requested.seqid = .ok () ∧
      outcome.stateid = ⟨state.stateidSeq + 1, requested.other⟩ := by
  simp only [closeState, bind, Except.bind, pure, Except.pure, throw, throwThe,
    MonadExceptOf.throw] at h
  grind

theorem openDowngrade_returns {access deny : U32}
    (h : s.openDowngrade requested access deny = .ok (stateid, s')) :
    ∃ state, s.inner.openFiles.get requested.other = some state ∧
      validateStateidSeq state.stateidSeq requested.seqid = .ok () ∧
      stateid = ⟨state.stateidSeq + 1, requested.other⟩ := by
  simp only [openDowngrade, bind, Except.bind, pure, Except.pure, throw, throwThe,
    MonadExceptOf.throw] at h
  grind

/-- What `free_stateid` frees, it has checked the seqid of. -/
theorem freeStateid_checks (h : s.freeStateid requested = .ok s') :
    (∃ state, s.inner.openFiles.get requested.other = some state ∧
      validateStateidSeq state.stateidSeq requested.seqid = .ok ()) ∨
    (∃ state, s.inner.lockFiles.get requested.other = some state ∧
      validateStateidSeq state.stateidSeq requested.seqid = .ok ()) ∨
    ∃ state, s.inner.delegations.get requested.other = some state := by
  simp only [freeStateid, bind, Except.bind, pure, Except.pure, throw, throwThe,
    MonadExceptOf.throw] at h
  grind

end

end StateManager

end EmbedNfs

import EmbedNfs.Server.Objects

/-!
# Recalling directory delegations

`recall_directory_delegations` of `server/ops/delegation.rs`. A recall
marks the directory's delegations, sends a callback for each one it marked, and polls until
they are returned or revoked or the deadline has passed; then it revokes what is left. Each
of these is a step of its own.

The polling loop takes as fuel the number of polls that fit before the deadline, one every
ten milliseconds, and one more; with the fuel used up the deadline counts as passed.
-/

namespace EmbedNfs

variable {H : Type}

/-! ## Callback paths -/

/-- The first element for which the program answers yes. -/
def anyConnection : List U64 → Request H Bool
  | [] => return false
  | connectionId :: rest => do
    if ← Program.perform (Call.hasConnection connectionId) then return true
    anyConnection rest

/-- `has_callback_path`. -/
def hasCallbackPath (clientid : Clientid4) : Request H Bool := do
  let ids ← guarded (.callbackConnectionIds clientid)
  anyConnection ids

/-- The loop of `next_callback_target` over the client's connections. -/
def firstCallbackTarget (clientid : Clientid4) : List U64 → Request H (Option CallbackTarget)
  | [] => return none
  | connectionId :: rest => do
    if ← Program.perform (Call.hasConnection connectionId) then
      if let some target ← guarded (.nextCallbackTargetOn clientid connectionId) then
        return some target
    firstCallbackTarget clientid rest

/-- `next_callback_target`. -/
def nextCallbackTarget (clientid : Clientid4) : Request H (Option CallbackTarget) := do
  let ids ← guarded (.callbackConnectionIds clientid)
  firstCallbackTarget clientid ids

/-- `callback_error_status`. -/
def CallbackError.status : CallbackError → NfsStat4
  | .timeout => .delay
  | .noConnection | .sendFailed | .rpcRejected | .badReply => .cbPathDown

/-- The loop of `validate_recall_response` over the results. -/
def validateRecallResults (sawRecall : Bool) : List NfsCbResop4 → Except NfsStat4 Unit
  | [] => if sawRecall then .ok () else .error .serverfault
  | .sequence status :: rest =>
    if status ≠ .ok then .error status else validateRecallResults sawRecall rest
  | .recall status :: rest =>
    if status = .ok then validateRecallResults true rest else .error status

/-- `validate_recall_response`. -/
def validateRecallResponse (response : CbCompound4Res) : Except NfsStat4 Unit :=
  if response.status ≠ .ok then .error response.status
  else validateRecallResults false response.resarray

/-- `send_directory_recall`. -/
def sendDirectoryRecall (recalled : DirectoryDelegationRecall) (fh : Bytes) :
    Request H (Except NfsStat4 Unit) := do
  match ← nextCallbackTarget recalled.clientid with
  | none => return .error .cbPathDown
  | some target =>
    match ← Program.perform (Call.sendCallback target recalled.stateid fh) with
    | .error e => return .error e.status
    | .ok () =>
      match ← Program.perform (Call.callbackReply target) with
      | .error e => return .error e.status
      | .ok response => return validateRecallResponse response

/-! ## Waiting -/

/-- The delegations among `stateids` that are still live. -/
def stillOutstanding : List Stateid4 → Request H (List Stateid4)
  | [] => return []
  | stateid :: rest => do
    let complete ← guarded (.delegationRecallComplete stateid)
    let remaining ← stillOutstanding rest
    return if complete then remaining else stateid :: remaining

/-- Revoke the delegations that did not come back in time. -/
def revokeAll (stateids : List Stateid4) : Request H Unit :=
  Program.each stateids fun stateid => do
    discard <| reapThen (.revokeRecallableDelegation stateid)

/-- The loop of `wait_for_recalled_delegations`. -/
def pollRecalled (deadline : Instant) : Nat → List Stateid4 → Request H Unit
  | fuel, outstanding => do
    let remaining ← stillOutstanding outstanding
    if remaining.isEmpty then return ()
    let now ← Program.perform Call.now
    match fuel with
    | 0 => revokeAll remaining
    | fuel + 1 => if deadline ≤ now then revokeAll remaining else pollRecalled deadline fuel remaining

/-- The polls that fit before the deadline. -/
def DelegationConfig.polls (config : DelegationConfig) : Nat :=
  config.recallTimeout / 10000000 + 1

/-- `wait_for_recalled_delegations`. -/
def waitForRecalledDelegations (config : DelegationConfig)
    (recalls : List DirectoryDelegationRecall) : Request H Unit := do
  let now ← Program.perform Call.now
  pollRecalled (now + config.recallTimeout) config.polls (recalls.map (·.stateid))

/-! ## Recall -/

/-- Send the callbacks; a delegation whose callback fails is revoked. -/
def sendRecalls (fh : Bytes) (recalls : List DirectoryDelegationRecall) : Request H Unit :=
  Program.each recalls fun recalled => do
    if recalled.sendCallback then
      match ← sendDirectoryRecall recalled fh with
      | .ok () => return ()
      | .error _ => discard <| reapThen (.revokeRecallableDelegation recalled.stateid)

/-- `recall_directory_delegations`. It never fails. -/
def recallDirectoryDelegations (config : DelegationConfig) (object : ServerObject)
    (excluded : Option Clientid4) : Request H Unit := do
  if config.directoryDelegations then
    let recalls ← reapThen (.beginDirectoryRecallExcluding object excluded)
    if recalls.isEmpty then return ()
    match ← objectToFh object with
    | none => return ()
    | some fh =>
      sendRecalls fh recalls
      waitForRecalledDelegations config recalls

end EmbedNfs

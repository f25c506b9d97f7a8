import EmbedNfs.Session.Delegations

/-!
# Clients, leases and sessions

The sections of `session/clients.rs`. Most of them first reap expired clients under the same
lock acquisition; `reapExpiredClients` is that pass. An arithmetic step written `+=` in the
source wraps, as it does in a release build.
-/

namespace EmbedNfs

/-! ## Lease expiry -/

namespace StateInner

/-- `revoke_client_state`. -/
def revokeClientState (inner : StateInner) (clientid : Clientid4) : StateInner :=
  let inner :=
    { inner with
      openFiles := inner.openFiles.retain fun _ state => state.clientid ≠ clientid
      lockFiles := inner.lockFiles.retain fun _ state => state.owner.clientid ≠ clientid }
  inner.removeClientDelegationsLocked clientid

/-- `drop_client_state`, without the flag that says whether the client existed. -/
def dropClientState (inner : StateInner) (clientid : Clientid4) : StateInner :=
  let inner :=
    { inner with sessions := inner.sessions.retain fun _ session => session.clientid ≠ clientid }
  let inner := inner.revokeClientState clientid
  { inner with clients := inner.clients.erase clientid }

/-- Whether the lease has run out at `now`. -/
def leaseExpired (now : Instant) (client : ClientState) : Bool :=
  match client.leaseState with
  | .active deadline => deadline ≤ now
  | .revoked _ _ => false

/-- Whether a revoked client is past its retention or has no session left. -/
def dropDue (now : Instant) (sessions : Table Sessionid4 SessionState) (clientid : Clientid4)
    (client : ClientState) : Bool :=
  match client.leaseState with
  | .active _ => false
  | .revoked since _ =>
    revokedRetention ≤ now - since ∨ !sessions.any fun _ session => session.clientid = clientid

/-- Revoke one client whose lease has run out. -/
def expireClient (now : Instant) (inner : StateInner) (clientid : Clientid4) : StateInner :=
  let inner := inner.revokeClientState clientid
  { inner with
    clients := inner.clients.modify clientid fun client =>
      { client with leaseState := .revoked now seq4StatusExpiredAllStateRevoked } }

/-- `reap_expired_clients_locked`. -/
def reapExpiredClientsLocked (inner : StateInner) (now : Instant) : StateInner :=
  let expiredActive := inner.clients.keysWhere fun _ client => leaseExpired now client
  let inner := expiredActive.foldl (expireClient now) inner
  let dropRevoked := inner.clients.keysWhere (dropDue now inner.sessions)
  dropRevoked.foldl dropClientState inner

/-- `client_has_active_state`. -/
def clientHasActiveState (inner : StateInner) (clientid : Clientid4) : Bool :=
  (inner.sessions.any fun _ session => session.clientid = clientid) ||
  (inner.openFiles.any fun _ state => state.clientid = clientid) ||
  (inner.lockFiles.any fun _ state => state.owner.clientid = clientid) ||
  inner.hasLiveClientDelegations clientid

end StateInner

/-- `lease_deadline`. -/
def leaseDeadline (now : Instant) : Instant := now + leaseDuration

/-! ## Backchannel parameters -/

/-- `callback_auth`: the first security flavor the server can use for callbacks. -/
def callbackAuth : List CallbackSecParms4 → Option OpaqueAuth
  | [] => none
  | .none :: _ => some .null
  | .sys body :: _ => some ⟨1, body⟩
  | .rpcSecGss :: secParms => callbackAuth secParms

/-- `callback_backchannel`. The server offers one backchannel slot, so the highest slot id
is zero. -/
def callbackBackchannel (args : CreateSessionArgs4) (responseBackChan : ChannelAttrs4) :
    Option BackchannelState :=
  match callbackAuth args.secParms with
  | none => none
  | some auth =>
    if args.cbProgram = 0 then none
    else some
      { cbProgram := args.cbProgram
        auth
        nextSequenceid := 1
        highestSlotid :=
          if responseBackChan.maxrequests = 0 then 0 else responseBackChan.maxrequests - 1 }

/-- The attributes CREATE_SESSION grants for the fore channel. -/
def grantedForeChan (requested : ChannelAttrs4) : ChannelAttrs4 where
  headerpadsize := 0
  maxrequestsize := U32.min requested.maxrequestsize maxRequestSize
  maxresponsesize := U32.min requested.maxresponsesize maxRequestSize
  maxresponsesizeCached := U32.min requested.maxresponsesizeCached maxCachedResponse
  maxoperations := U32.min requested.maxoperations maxForeChanSlots
  maxrequests := U32.min requested.maxrequests maxForeChanSlots
  rdmaIrd := []

/-- The attributes CREATE_SESSION grants for the backchannel. -/
def grantedBackChan : ChannelAttrs4 where
  headerpadsize := 0
  maxrequestsize := 4096
  maxresponsesize := 4096
  maxresponsesizeCached := 0
  maxoperations := 2
  maxrequests := 1
  rdmaIrd := []

/-- The sixteen bytes of a session id: client id, then the client's session counter. -/
def mintSessionid (clientid : Clientid4) (clientSequenceId : Sequenceid4) : Sessionid4 :=
  clientid ++ clientSequenceId.setWidth 64

/-- A slot that has seen no request. -/
def SlotState.fresh : SlotState := ⟨1, none, none⟩

/-! ## Sections -/

namespace StateManager

/-- `reap_expired_clients`. -/
def reapExpiredClients (s : StateManager) : StateManager :=
  { s with inner := s.inner.reapExpiredClientsLocked s.clock }

/-- The client that EXCHANGE_ID replaces once its session is created: a confirmed or revoked
instance of the same owner with another verifier, else a revoked one with the same. -/
def replacedClient (clients : Table Clientid4 ClientState) (owner : ClientOwner4) :
    Option Clientid4 :=
  ((clients.find? fun _ client =>
      client.owner.ownerid = owner.ownerid ∧ client.owner.verifier ≠ owner.verifier ∧
        (client.confirmed ∨ !client.leaseState.isActive)).or
    (clients.find? fun _ client =>
      client.owner.ownerid = owner.ownerid ∧ client.owner.verifier = owner.verifier ∧
        !client.leaseState.isActive)).map fun (_, client) => client.clientid

/-- The unconfirmed instances of the same owner that a new EXCHANGE_ID drops. -/
def staleUnconfirmed (clients : Table Clientid4 ClientState) (owner : ClientOwner4) :
    List Clientid4 :=
  (clients.values.filter fun client =>
    client.owner.ownerid = owner.ownerid ∧ client.owner.verifier ≠ owner.verifier ∧
      !client.confirmed ∧ client.leaseState.isActive).map fun client => client.clientid

/-- `exchange_id`, once the state protection has been found to be `SP4_NONE` and expired
clients have been reaped. -/
def exchangeIdReaped (s : StateManager) (args : ExchangeIdArgs4) :
    ExchangeIdRes4 × StateManager :=
  let existing := s.inner.clients.find? fun _ client =>
    client.owner.ownerid = args.clientowner.ownerid ∧
      client.owner.verifier = args.clientowner.verifier ∧ client.leaseState.isActive
  match existing with
  | some (_, client) =>
    let confirmedFlag := if client.confirmed then exchgid4FlagConfirmedR else 0
    ({ clientid := client.clientid, sequenceid := client.sequenceId,
       flags := exchgid4FlagUseNonPnfs ||| confirmedFlag }, s)
  | none =>
    let oldClientid := replacedClient s.inner.clients args.clientowner
    let inner := (staleUnconfirmed s.inner.clients args.clientowner).foldl
      StateInner.dropClientState s.inner
    let id := s.nextClientid
    let client : ClientState :=
      { clientid := id, owner := args.clientowner, confirmed := false,
        reclaimCompleteGlobal := false, sequenceId := 1, statusFlags := 0,
        replacedClientid := oldClientid, leaseState := .active (leaseDeadline s.clock),
        v40Confirm := none }
    ({ clientid := id, sequenceid := 1, flags := exchgid4FlagUseNonPnfs },
      { s with
        nextClientid := s.nextClientid + 1
        inner := { inner with clients := inner.clients.insert id client } })

/-- `exchange_id`. -/
def exchangeId (s : StateManager) (args : ExchangeIdArgs4) :
    Except NfsStat4 ExchangeIdRes4 × StateManager :=
  if args.stateProtect ≠ .none then (.error .inval, s)
  else
    let (res, s) := s.reapExpiredClients.exchangeIdReaped args
    (.ok res, s)

/-- The session that `create_session` installs. -/
def newSession (args : CreateSessionArgs4) (connectionId : U64) : SessionState :=
  let backchannel := callbackBackchannel args grantedBackChan
  let acceptBack := backchannel.isSome ∧ args.flags &&& createSession4FlagConnBackChan ≠ 0
  { clientid := args.clientid
    slots := List.replicate (max (U32.min args.foreChanAttrs.maxrequests maxForeChanSlots).toNat 1) .fresh
    foreConnections := [connectionId]
    backConnections := if acceptBack then [connectionId] else []
    backchannel }

/-- The tables once `create_session` has confirmed the client and advanced its counter, and
has dropped the client that this one replaces. -/
def confirmClient (s : StateManager) (clientid : Clientid4) (clientSequenceId : Sequenceid4)
    (replaced : Option Clientid4) : StateInner :=
  let inner :=
    { s.inner with
      clients := s.inner.clients.modify clientid fun client =>
        { client with
          sequenceId := clientSequenceId, confirmed := true, statusFlags := 0,
          leaseState := .active (leaseDeadline s.clock), replacedClientid := none } }
  match replaced with
  | some oldClientid => inner.dropClientState oldClientid
  | none => inner

/-- `create_session`, once expired clients have been reaped. -/
def createSessionReaped (s : StateManager) (args : CreateSessionArgs4) (connectionId : U64) :
    Except NfsStat4 (CreateSessionRes4 × StateManager) := do
  let some client := s.inner.clients.get args.clientid | throw .staleClientid
  if !client.leaseState.isActive then throw .staleClientid
  if args.sequence ≠ client.sequenceId then throw .seqMisordered
  let clientSequenceId := client.sequenceId + 1
  let inner := s.confirmClient args.clientid clientSequenceId client.replacedClientid
  let sessionid := mintSessionid args.clientid clientSequenceId
  let session := newSession args connectionId
  return ({ sessionid
            sequenceid := args.sequence
            flags := if session.backConnections.isEmpty then 0 else createSession4FlagConnBackChan
            foreChanAttrs := grantedForeChan args.foreChanAttrs
            backChanAttrs := grantedBackChan },
    { s with inner := { inner with sessions := inner.sessions.insert sessionid session } })

/-- `destroy_session`, once expired clients have been reaped. -/
def destroySessionReaped (s : StateManager) (sessionid : Sessionid4) (connectionId : U64) :
    Except NfsStat4 StateManager := do
  let some session := s.inner.sessions.get sessionid | throw .badSession
  if connectionId ∉ session.foreConnections ∧ connectionId ∉ session.backConnections then
    throw .connNotBoundToSession
  return { s with inner.sessions := s.inner.sessions.erase sessionid }

/-- `destroy_clientid`, once expired clients have been reaped. -/
def destroyClientidReaped (s : StateManager) (clientid : Clientid4) :
    Except NfsStat4 StateManager :=
  if s.inner.clientHasActiveState clientid then .error .clientidBusy
  else if (s.inner.clients.get clientid).isSome then
    .ok { s with inner := s.inner.dropClientState clientid }
  else .error .staleClientid

/-- `bind_connection_direction`: the session with the connection bound, and the direction
granted. -/
def bindConnectionDirection (session : SessionState) (clientDir : U32) (connectionId : U64) :
    Except NfsStat4 (U32 × SessionState) :=
  let fore := { session with foreConnections := setInsert connectionId session.foreConnections }
  let back := { session with backConnections := setInsert connectionId session.backConnections }
  let both :=
    { fore with backConnections := setInsert connectionId session.backConnections }
  if clientDir = cdfc4Fore then .ok (cdfs4Fore, fore)
  else if clientDir = cdfc4Back then
    if session.backchannel.isSome then .ok (cdfs4Back, back) else .error .inval
  else if clientDir = cdfc4ForeOrBoth then
    if session.backchannel.isSome then .ok (cdfs4Both, both) else .ok (cdfs4Fore, fore)
  else if clientDir = cdfc4BackOrBoth then
    if session.backchannel.isSome then .ok (cdfs4Both, both) else .error .inval
  else .error .inval

/-- `bind_conn_to_session`, once expired clients have been reaped. -/
def bindConnToSessionReaped (s : StateManager) (args : BindConnToSessionArgs4)
    (connectionId : U64) : Except NfsStat4 (U32 × StateManager) := do
  let some session := s.inner.sessions.get args.sessionid | throw .badSession
  let (dir, bound) ← bindConnectionDirection session args.dir connectionId
  return (dir, { s with inner.sessions := s.inner.sessions.modify args.sessionid fun _ => bound })

/-- `session_clientid`. -/
def sessionClientid (s : StateManager) (sessionid : Sessionid4) : Option Clientid4 :=
  (s.inner.sessions.get sessionid).map fun session => session.clientid

/-- `callback_connection_ids`. -/
def callbackConnectionIds (s : StateManager) (clientid : Clientid4) : List U64 :=
  (s.inner.sessions.values.filter fun session =>
    session.clientid = clientid ∧ session.backchannel.isSome).flatMap
      fun session => session.backConnections

/-- `next_callback_target_on`. -/
def nextCallbackTargetOn (s : StateManager) (clientid : Clientid4) (connectionId : U64) :
    Option CallbackTarget × StateManager :=
  let found := s.inner.sessions.find? fun _ session =>
    session.clientid = clientid ∧ session.backchannel.isSome ∧
      connectionId ∈ session.backConnections
  match found with
  | none => (none, s)
  | some (sessionid, session) =>
    match session.backchannel with
    | none => (none, s)
    | some backchannel =>
      let next := backchannel.nextSequenceid + 1
      let bumped := { backchannel with nextSequenceid := if next = 0 then 1 else next }
      (some
        { sessionid, connectionId, cbProgram := backchannel.cbProgram,
          auth := backchannel.auth, sequenceid := backchannel.nextSequenceid,
          highestSlotid := backchannel.highestSlotid },
        { s with
          inner.sessions := s.inner.sessions.modify sessionid fun session =>
            { session with backchannel := some bumped } })

/-- `remove_connection`. -/
def removeConnection (s : StateManager) (connectionId : U64) : StateManager :=
  { s with
    inner.sessions := s.inner.sessions.mapValues fun _ session =>
      { session with
        foreConnections := setRemove connectionId session.foreConnections
        backConnections := setRemove connectionId session.backConnections } }

/-- `reclaim_complete`, once expired clients have been reaped. -/
def reclaimCompleteReaped (s : StateManager) (clientid : Clientid4) (oneFs : Bool) :
    Except NfsStat4 StateManager := do
  let some client := s.inner.clients.get clientid | throw .staleClientid
  if oneFs then return s
  if client.reclaimCompleteGlobal then throw .completeAlready
  return { s with
    inner.clients := s.inner.clients.modify clientid fun client =>
      { client with reclaimCompleteGlobal := true } }

/-- `validate_open_reclaim`. -/
def validateOpenReclaim (s : StateManager) (clientid : Clientid4) (claim : OpenClaim4) :
    Except NfsStat4 Unit := do
  let some client := s.inner.clients.get clientid | throw .staleClientid
  if !client.leaseState.isActive then throw .staleClientid
  match claim with
  | .previous _ => if client.reclaimCompleteGlobal then throw .noGrace
  | _ => return ()

/-- `next_v40_confirm_verifier`. -/
def nextV40ConfirmVerifier (s : StateManager) (clientid : Clientid4) : Verifier4 :=
  s.writeVerifier ^^^ clientid

/-- `set_client_id`, once expired clients have been reaped. -/
def setClientIdReaped (s : StateManager) (args : SetClientIdArgs4) :
    SetClientIdRes4 × StateManager :=
  let existing := (s.inner.clients.find? fun _ client =>
    client.owner.ownerid = args.client.ownerid ∧
      client.owner.verifier = args.client.verifier ∧ client.confirmed).map
        fun (_, client) => client.clientid
  let stale := (s.inner.clients.values.filter fun client =>
    client.owner.ownerid = args.client.ownerid ∧ !client.confirmed).map
      fun client => client.clientid
  let inner := stale.foldl StateInner.dropClientState s.inner
  match existing with
  | some clientid =>
    let confirm := s.nextV40ConfirmVerifier clientid
    (⟨clientid, confirm⟩,
      { s with
        inner := { inner with
          clients := inner.clients.modify clientid fun client =>
            { client with
              v40Confirm := some confirm
              leaseState := .active (leaseDeadline s.clock) } } })
  | none =>
    let clientid := s.nextClientid
    let confirm := s.nextV40ConfirmVerifier clientid
    let client : ClientState :=
      { clientid, owner := args.client, confirmed := false, reclaimCompleteGlobal := false,
        sequenceId := 1, statusFlags := 0, replacedClientid := none,
        leaseState := .active (leaseDeadline s.clock), v40Confirm := some confirm }
    (⟨clientid, confirm⟩,
      { s with
        nextClientid := s.nextClientid + 1
        inner := { inner with clients := inner.clients.insert clientid client } })

/-- `set_client_id_confirm`, once expired clients have been reaped. -/
def setClientIdConfirmReaped (s : StateManager) (args : SetClientIdConfirmArgs4) :
    Except NfsStat4 StateManager := do
  let some client := s.inner.clients.get args.clientid | throw .staleClientid
  if client.v40Confirm ≠ some args.verifier then throw .staleClientid
  return { s with
    inner.clients := s.inner.clients.modify args.clientid fun client =>
      { client with
        v40Confirm := none, confirmed := true, statusFlags := 0,
        leaseState := .active (leaseDeadline s.clock) } }

/-- `renew`. It does not reap. -/
def renew (s : StateManager) (clientid : Clientid4) : Except NfsStat4 StateManager := do
  let some client := s.inner.clients.get clientid | throw .staleClientid
  if !client.confirmed then throw .staleClientid
  if !client.leaseState.isActive then throw .expired
  return { s with
    inner.clients := s.inner.clients.modify clientid fun client =>
      { client with leaseState := .active (leaseDeadline s.clock) } }

/-! ## What a successful section did -/

/-- EXCHANGE_ID finds a running instance, or it drops the stale ones and enrols a new one. -/
theorem exchangeIdReaped_cases (s : StateManager) (args : ExchangeIdArgs4) :
    (∃ k client, s.inner.clients.get k = some client ∧
      client.owner.ownerid = args.clientowner.ownerid ∧
      client.owner.verifier = args.clientowner.verifier ∧ client.leaseState.isActive = true ∧
      (s.exchangeIdReaped args).1.clientid = client.clientid ∧
      (s.exchangeIdReaped args).2 = s) ∨
    ((∀ k client, s.inner.clients.get k = some client →
        client.owner.ownerid = args.clientowner.ownerid →
        client.owner.verifier = args.clientowner.verifier → client.leaseState.isActive = false) ∧
      (s.exchangeIdReaped args).1.clientid = s.nextClientid ∧
      ∃ inner, inner = (staleUnconfirmed s.inner.clients args.clientowner).foldl
          StateInner.dropClientState s.inner ∧
        (s.exchangeIdReaped args).2 =
          { s with
            nextClientid := s.nextClientid + 1
            inner := { inner with
              clients := inner.clients.insert s.nextClientid
                { clientid := s.nextClientid, owner := args.clientowner, confirmed := false,
                  reclaimCompleteGlobal := false, sequenceId := 1, statusFlags := 0,
                  replacedClientid := replacedClient s.inner.clients args.clientowner,
                  leaseState := .active (leaseDeadline s.clock), v40Confirm := none } } }) := by
  unfold exchangeIdReaped
  dsimp only
  split
  · rename_i k client hfind
    obtain ⟨hget, hmatch⟩ := Table.of_find?_eq_some hfind
    simp only [decide_eq_true_eq] at hmatch
    exact Or.inl ⟨k, client, hget, hmatch.1, hmatch.2.1, hmatch.2.2, rfl, rfl⟩
  · rename_i hfind
    refine Or.inr ⟨fun k client hget howner hverifier => ?_, rfl, _, rfl, rfl⟩
    have hmatch := Table.find?_eq_none.mp hfind k client hget
    simpa [howner, hverifier] using hmatch

theorem createSessionReaped_ok {s s' : StateManager} {args : CreateSessionArgs4} {conn : U64}
    {res : CreateSessionRes4} (h : s.createSessionReaped args conn = .ok (res, s')) :
    ∃ client inner, s.inner.clients.get args.clientid = some client ∧
      client.leaseState.isActive = true ∧
      inner = s.confirmClient args.clientid (client.sequenceId + 1) client.replacedClientid ∧
      res.sessionid = mintSessionid args.clientid (client.sequenceId + 1) ∧
      s' = { s with
        inner := { inner with
          sessions := inner.sessions.insert res.sessionid (newSession args conn) } } := by
  simp only [createSessionReaped, bind, Except.bind, pure, Except.pure, throw, throwThe,
    MonadExceptOf.throw] at h
  grind

theorem destroySessionReaped_ok {s s' : StateManager} {sessionid : Sessionid4} {conn : U64}
    (h : s.destroySessionReaped sessionid conn = .ok s') :
    s' = { s with inner.sessions := s.inner.sessions.erase sessionid } := by
  simp only [destroySessionReaped, bind, Except.bind, pure, Except.pure, throw, throwThe,
    MonadExceptOf.throw] at h
  grind

theorem destroyClientidReaped_ok {s s' : StateManager} {clientid : Clientid4}
    (h : s.destroyClientidReaped clientid = .ok s') :
    s' = { s with inner := s.inner.dropClientState clientid } := by
  unfold destroyClientidReaped at h
  grind

theorem bindConnectionDirection_ok {session bound : SessionState} {dir granted : U32} {conn : U64}
    (h : bindConnectionDirection session dir conn = .ok (granted, bound)) :
    bound.clientid = session.clientid ∧ bound.slots = session.slots := by
  unfold bindConnectionDirection at h
  grind

theorem bindConnToSessionReaped_ok {s s' : StateManager} {args : BindConnToSessionArgs4}
    {conn : U64} {dir : U32} (h : s.bindConnToSessionReaped args conn = .ok (dir, s')) :
    ∃ session bound, s.inner.sessions.get args.sessionid = some session ∧
      bound.clientid = session.clientid ∧ bound.slots = session.slots ∧
      s' = { s with
        inner.sessions := s.inner.sessions.modify args.sessionid fun _ => bound } := by
  simp only [bindConnToSessionReaped, bind, Except.bind, pure, Except.pure, throw, throwThe,
    MonadExceptOf.throw] at h
  split at h
  · rename_i session hsession
    split at h
    · cases h
    · rename_i v hv
      obtain ⟨hclient, hslots⟩ := bindConnectionDirection_ok hv
      simp only [Except.ok.injEq, Prod.mk.injEq] at h
      exact ⟨session, v.2, hsession, hclient, hslots, h.2.symm⟩
  · cases h

theorem reclaimCompleteReaped_ok {s s' : StateManager} {clientid : Clientid4} {oneFs : Bool}
    (h : s.reclaimCompleteReaped clientid oneFs = .ok s') :
    s' = s ∨ s' = { s with
      inner.clients := s.inner.clients.modify clientid fun client =>
        { client with reclaimCompleteGlobal := true } } := by
  simp only [reclaimCompleteReaped, bind, Except.bind, pure, Except.pure, throw, throwThe,
    MonadExceptOf.throw] at h
  grind

theorem setClientIdConfirmReaped_ok {s s' : StateManager} {args : SetClientIdConfirmArgs4}
    (h : s.setClientIdConfirmReaped args = .ok s') :
    s' = { s with
      inner.clients := s.inner.clients.modify args.clientid fun client =>
        { client with
          v40Confirm := none, confirmed := true, statusFlags := 0,
          leaseState := .active (leaseDeadline s.clock) } } := by
  simp only [setClientIdConfirmReaped, bind, Except.bind, pure, Except.pure, throw, throwThe,
    MonadExceptOf.throw] at h
  grind

theorem renew_ok {s s' : StateManager} {clientid : Clientid4} (h : s.renew clientid = .ok s') :
    s' = { s with
      inner.clients := s.inner.clients.modify clientid fun client =>
        { client with leaseState := .active (leaseDeadline s.clock) } } := by
  simp only [renew, bind, Except.bind, pure, Except.pure, throw, throwThe,
    MonadExceptOf.throw] at h
  grind

/-- RENEW succeeds for a confirmed client with a running lease only. -/
theorem renew_active {s s' : StateManager} {clientid : Clientid4}
    (h : s.renew clientid = .ok s') :
    ∃ client, s.inner.clients.get clientid = some client ∧
      client.leaseState.isActive = true := by
  simp only [renew, bind, Except.bind, pure, Except.pure, throw, throwThe,
    MonadExceptOf.throw] at h
  grind

theorem nextCallbackTargetOn_only (s : StateManager) (clientid : Clientid4) (conn : U64) :
    ∃ sessions, (s.nextCallbackTargetOn clientid conn).2 = { s with inner.sessions := sessions } ∧
      ∀ k, (sessions.get k).map (fun session => (session.clientid, session.slots)) =
        (s.inner.sessions.get k).map fun session => (session.clientid, session.slots) := by
  unfold nextCallbackTargetOn
  dsimp only
  split
  · exact ⟨_, rfl, fun _ => rfl⟩
  · split
    · exact ⟨_, rfl, fun _ => rfl⟩
    · refine ⟨_, rfl, fun k => ?_⟩
      rw [Table.get_modify]
      split
      · simp [Function.comp_def]
      · rfl

end StateManager

end EmbedNfs

import EmbedNfs.Effects.Leases
import EmbedNfs.Effects.Shrinking

/-!
# What a section does to the clients

Eleven sections work on the table of clients, and all but RENEW reap expired clients first.
`ClientAct` says what they do after that: to the clients, to the sessions and to what the
clients have open. Every other section leaves the clients alone.
-/

namespace EmbedNfs

/-- The sections that work on the table of clients. -/
def Section.administers : Section → Bool
  | .reapExpiredClients | .exchangeId _ | .createSession _ _ | .destroySession _ _
  | .destroyClientid _ | .bindConnToSession _ _ | .reclaimComplete _ _ | .setClientId _
  | .setClientIdConfirm _ | .renew _ | .prepareSequence _ _ _ => true
  | _ => false

/-- Whether such a section reaps expired clients first. EXCHANGE_ID does not when it refuses
the state protection. -/
def Section.reaps : Section → Bool
  | .renew _ => false
  | .exchangeId args => args.stateProtect = .none
  | c => c.administers

/-- A client that has said that its reclaims are complete. -/
def ClientState.reclaimed (client : ClientState) : ClientState :=
  { client with reclaimCompleteGlobal := true }

/-- A client whose lease is extended. -/
def ClientState.extended (now : Instant) (client : ClientState) : ClientState :=
  { client with leaseState := .active (leaseDeadline now) }

namespace StateManager

/-- The state on which a section works. -/
def reapedFor (s : StateManager) (c : Section) : StateManager :=
  if c.reaps then s.reapExpiredClients else s

/-- What a section does to the clients once it has reaped. -/
inductive ClientAct (s : StateManager) (c : Section) (s' : StateManager) : Prop where
  | sessions (sessions : Table Sessionid4 SessionState)
      (hsessions : sessions.SubBy SessionState.clientid s.inner.sessions)
      (h : s' = { s with inner.sessions := sessions })
  | reclaimed (clientid : Clientid4)
      (h : s' = { s with
        inner.clients := s.inner.clients.modify clientid ClientState.reclaimed })
  | sequenced (clientid : Clientid4) (client : ClientState)
      (sessions : Table Sessionid4 SessionState) (hc : c.reaps = true)
      (hget : s.inner.clients.get clientid = some client)
      (hactive : client.leaseState.isActive = true)
      (hsessions : sessions.SubBy SessionState.clientid s.inner.sessions)
      (h : s' = { s with
        inner.sessions := sessions
        inner.clients := s.inner.clients.modify clientid (ClientState.extended s.clock) })
  | renewed (clientid : Clientid4) (client : ClientState) (hc : c = .renew clientid)
      (hget : s.inner.clients.get clientid = some client)
      (hactive : client.leaseState.isActive = true)
      (h : s' = { s with
        inner.clients := s.inner.clients.modify clientid (ClientState.extended s.clock) })
  | destroyed (clientid : Clientid4) (h : s' = { s with inner := s.inner.dropClientState clientid })
  | exchanged (args : ExchangeIdArgs4) (hc : c = .exchangeId args) (hreaps : c.reaps = true)
      (h : s' = (s.exchangeIdReaped args).2)
  | created (args : CreateSessionArgs4) (conn : U64) (res : CreateSessionRes4)
      (hc : c = .createSession args conn) (h : s.createSessionReaped args conn = .ok (res, s'))
  | introduced (args : SetClientIdArgs4) (hc : c = .setClientId args)
      (h : s' = (s.setClientIdReaped args).2)
  | confirmed (args : SetClientIdConfirmArgs4) (hc : c = .setClientIdConfirm args)
      (h : s.setClientIdConfirmReaped args = .ok s')

theorem ClientAct.refl (s : StateManager) (c : Section) : ClientAct s c s :=
  .sessions s.inner.sessions (.refl _) rfl

theorem bindForechannelForSequence_clientid {session bound : SessionState} {conn : U64}
    (h : bindForechannelForSequence session conn = .ok bound) :
    bound.clientid = session.clientid := by
  unfold bindForechannelForSequence at h
  grind

theorem prepareSequenceReaped_clientAct (s : StateManager) (args : SequenceArgs4)
    (fingerprint : Bytes) (conn : U64) :
    ClientAct s (.prepareSequence args fingerprint conn)
      (s.prepareSequenceReaped args fingerprint conn).2 := by
  unfold prepareSequenceReaped
  split
  · exact .refl s _
  rename_i session hsession
  split
  · exact .refl s _
  split
  · exact .refl s _
  rename_i client hclient
  split
  · exact .refl s _
  rename_i bound hbound
  have hsub : ∀ slots, (s.inner.sessions.modify args.sessionid fun _ => { bound with slots }).SubBy
      SessionState.clientid s.inner.sessions := by
    intro slots
    refine Table.modify_subBy fun old hold => ?_
    cases hsession.symm.trans hold
    show bound.clientid = session.clientid
    exact bindForechannelForSequence_clientid hbound
  split
  · exact .sessions _ (hsub bound.slots) rfl
  · rename_i deadline hlease
    have hactive : client.leaseState.isActive = true := by
      rw [hlease]
      rfl
    dsimp only
    split
    · exact .sequenced session.clientid client _ rfl hclient hactive (hsub _) rfl
    · exact .sessions _ (hsub _) rfl

theorem runSection_clientAct (s : StateManager) (c : Section) (h : c.administers = true) :
    ClientAct (s.reapedFor c) c (s.runSection c).2 := by
  cases c with
  | reapExpiredClients => exact .refl _ _
  | exchangeId args =>
    simp only [reapedFor, Section.reaps, runSection, exchangeId]
    by_cases hprotect : args.stateProtect = .none
    · simp only [hprotect, decide_true, if_true, ne_eq, not_true, if_false]
      exact .exchanged args rfl (decide_eq_true hprotect) rfl
    · simp only [hprotect, decide_false, Bool.false_eq_true, if_false, ne_eq, not_false_eq_true,
        if_true]
      exact .refl s _
  | createSession args conn =>
    refine commit_keeps (ClientAct s.reapExpiredClients _) (.refl _ _) fun res s' hok => ?_
    exact .created args conn res rfl hok
  | destroySession sessionid conn =>
    refine commitUnit_keeps (ClientAct s.reapExpiredClients _) (.refl _ _) fun s' hok => ?_
    exact .sessions _ (Table.erase_sub _ _).subBy (destroySessionReaped_ok hok)
  | destroyClientid clientid =>
    refine commitUnit_keeps (ClientAct s.reapExpiredClients _) (.refl _ _) fun s' hok => ?_
    exact .destroyed clientid (destroyClientidReaped_ok hok)
  | bindConnToSession args conn =>
    refine commit_keeps (ClientAct s.reapExpiredClients _) (.refl _ _) fun dir s' hok => ?_
    obtain ⟨session, bound, hget, hclient, -, hs'⟩ := bindConnToSessionReaped_ok hok
    refine .sessions _ (Table.modify_subBy fun old hold => ?_) hs'
    cases hget.symm.trans hold
    exact hclient
  | reclaimComplete clientid oneFs =>
    refine commitUnit_keeps (ClientAct s.reapExpiredClients _) (.refl _ _) fun s' hok => ?_
    rcases reclaimCompleteReaped_ok hok with rfl | hs'
    · exact .refl _ _
    · exact .reclaimed clientid hs'
  | setClientId args => exact .introduced args rfl rfl
  | setClientIdConfirm args =>
    refine commitUnit_keeps (ClientAct s.reapExpiredClients _) (.refl _ _) fun s' hok => ?_
    exact .confirmed args rfl hok
  | renew clientid =>
    refine commitUnit_keeps (ClientAct s _) (.refl _ _) fun s' hok => ?_
    obtain ⟨client, hget, hactive⟩ := renew_active hok
    exact .renewed clientid client rfl hget hactive (renew_ok hok)
  | prepareSequence args fingerprint conn => exact prepareSequenceReaped_clientAct _ _ _ _
  | _ => cases h

/-! ## Confirmation -/

end StateManager

/-- A client for which CREATE_SESSION has succeeded. -/
def ClientState.established (now : Instant) (sequenceId : Sequenceid4) (client : ClientState) :
    ClientState :=
  { client with
    sequenceId, confirmed := true, statusFlags := 0, leaseState := .active (leaseDeadline now),
    replacedClientid := none }

namespace StateManager

section

variable (s : StateManager) (clientid : Clientid4) (seq : Sequenceid4)
  (replaced : Option Clientid4)

theorem get_confirmClient_clients (k : Clientid4) :
    (s.confirmClient clientid seq replaced).clients.get k =
      if replaced = some k then none
      else (s.inner.clients.modify clientid (ClientState.established s.clock seq)).get k := by
  cases replaced with
  | none => rfl
  | some old =>
    show ((StateInner.dropClientState _ old).clients).get k = _
    rw [StateInner.dropClientState_clients, Table.get_erase]
    by_cases hk : k = old
    · simp [hk]
    · rw [if_neg hk, if_neg fun heq => hk (Option.some.inj heq).symm]
      rfl

theorem get_confirmClient_sessions (i : Sessionid4) :
    (s.confirmClient clientid seq replaced).sessions.get i =
      (s.inner.sessions.get i).filter fun session => replaced ≠ some session.clientid := by
  cases replaced with
  | none =>
    show s.inner.sessions.get i = _
    cases s.inner.sessions.get i with
    | none => rfl
    | some session => simp [Option.filter_some]
  | some old =>
    show ((StateInner.dropClientState _ old).sessions).get i = _
    rw [StateInner.dropClientState_sessions, Table.get_retain]
    simp [eq_comm]

end

end StateManager

/-- A client that has introduced itself again with SETCLIENTID. -/
def ClientState.reintroduced (now : Instant) (confirm : Verifier4) (client : ClientState) :
    ClientState :=
  { client with v40Confirm := some confirm, leaseState := .active (leaseDeadline now) }

/-- A client for which SETCLIENTID_CONFIRM has succeeded. -/
def ClientState.acknowledged (now : Instant) (client : ClientState) : ClientState :=
  { client with
    v40Confirm := none, confirmed := true, statusFlags := 0,
    leaseState := .active (leaseDeadline now) }

namespace StateManager

theorem setClientIdReaped_cases (s : StateManager) (args : SetClientIdArgs4) :
    ∃ (clientids : List Clientid4) (inner : StateInner),
      inner = clientids.foldl StateInner.dropClientState s.inner ∧
      ((∃ confirm, (s.setClientIdReaped args).2 =
        { s with
          inner := { inner with
            clients := inner.clients.modify (s.setClientIdReaped args).1.clientid
              (ClientState.reintroduced s.clock confirm) } }) ∨
      ∃ client : ClientState, client.leaseState.isActive = true ∧ client.statusFlags = 0 ∧
        (s.setClientIdReaped args).2 =
        { s with
          nextClientid := s.nextClientid + 1
          inner := { inner with clients := inner.clients.insert s.nextClientid client } }) := by
  unfold setClientIdReaped
  dsimp only
  split
  · exact ⟨_, _, rfl, Or.inl ⟨_, rfl⟩⟩
  · refine ⟨_, _, rfl, Or.inr ⟨_, ?_, ?_, rfl⟩⟩
    · rfl
    · rfl

theorem setClientIdConfirmReaped_clients {s s' : StateManager} {args : SetClientIdConfirmArgs4}
    (h : s.setClientIdConfirmReaped args = .ok s') :
    s' = { s with
      inner.clients :=
        s.inner.clients.modify args.clientid (ClientState.acknowledged s.clock) } :=
  setClientIdConfirmReaped_ok h

/-! ## The other sections -/

end StateManager

/-- A client without the flags that tell it what happened to its delegations. -/
def ClientState.standing (client : ClientState) : ClientState := { client with statusFlags := 0 }

namespace StateManager

/-- Clients are the same but for their flags, and sessions keep their clients. -/
structure Still (s' s : StateManager) : Prop where
  clients : ∀ k, (s'.inner.clients.get k).map ClientState.standing =
    (s.inner.clients.get k).map ClientState.standing
  sessions : s'.inner.sessions.SubBy SessionState.clientid s.inner.sessions
  nextClientid : s'.nextClientid = s.nextClientid
  clock : s'.clock = s.clock

theorem Still.of_sessions {s s' : StateManager} (hclients : s'.inner.clients = s.inner.clients)
    (hsessions : s'.inner.sessions = s.inner.sessions)
    (hnext : s'.nextClientid = s.nextClientid) (hclock : s'.clock = s.clock) : s'.Still s :=
  ⟨fun _ => by rw [hclients], hsessions ▸ .refl _, hnext, hclock⟩

theorem Still.refl (s : StateManager) : s.Still s := .of_sessions rfl rfl rfl rfl

theorem OnlyFiles.still {s s' : StateManager} (h : s'.OnlyFiles s) : s'.Still s := by
  obtain ⟨openFiles, lockFiles, nextStateid, rfl⟩ := h
  exact .of_sessions rfl rfl rfl rfl

theorem OnlyMetadata.still {s s' : StateManager} (h : s'.OnlyMetadata s) : s'.Still s := by
  obtain ⟨entries, changeid, fileid, rfl⟩ := h
  exact .of_sessions rfl rfl rfl rfl

theorem runSection_still (s : StateManager) (c : Section) (h : c.administers = false) :
    (s.runSection c).2.Still s := by
  have hrefl := Still.refl s
  cases hfiles : c.ofFiles with
  | true => exact (s.runSection_onlyFiles c hfiles).still
  | false =>
  cases hmeta : c.metadataOf with
  | some object => exact (s.runSection_onlyMetadata hmeta).still
  | none =>
  cases hdelegations : c.ofDelegations with
  | true =>
    obtain ⟨_, _, ⟨_, _, _, rfl⟩, -, hs⟩ := s.runSection_onlyDelegations c hdelegations
    rw [hs]
    exact .of_sessions rfl rfl rfl rfl
  | false =>
    cases c with
    | nextCallbackTargetOn clientid conn =>
      obtain ⟨sessions, heq, hview⟩ := s.nextCallbackTargetOn_only clientid conn
      show (s.nextCallbackTargetOn clientid conn).2.Still s
      rw [heq]
      refine ⟨fun _ => rfl, fun k session hk => ?_, rfl, rfl⟩
      have hview := hview k
      rw [show sessions.get k = some session from hk, Option.map_some] at hview
      obtain ⟨old, hold, hpair⟩ := Option.map_eq_some_iff.mp hview.symm
      exact ⟨old, hold, (Prod.mk.inj hpair).1.symm⟩
    | removeConnection conn =>
      exact ⟨fun _ => rfl, Table.mapValues_subBy fun _ _ _ => rfl, rfl, rfl⟩
    | freeStateid stateid =>
      refine commitUnit_snd hrefl fun s' hok => ?_
      rcases freeStateid_ok hok with ⟨-, rfl⟩ | rfl | rfl
      · exact .of_sessions rfl rfl rfl rfl
      · exact .of_sessions rfl rfl rfl rfl
      · obtain ⟨_, _, _, honly⟩ := s.inner.removeDelegationLocked_only stateid.other
        rw [honly]
        exact .of_sessions rfl rfl rfl rfl
    | revokeRecallableDelegation stateid =>
      refine commitUnit_snd hrefl fun s' hok => ?_
      obtain ⟨state, -, rfl⟩ := revokeRecallableDelegation_ok hok
      refine ⟨fun k => ?_, .refl _, rfl, rfl⟩
      rw [Table.get_modify]
      split
      · rw [Option.map_map]
        rfl
      · rfl
    | finishSequence token response =>
      refine commitUnit_snd hrefl fun s' hok => ?_
      rw [finishSequence_ok hok]
      exact ⟨fun _ => rfl, Table.modify_subBy fun _ _ => rfl, rfl, rfl⟩
    | _ =>
      first
        | (cases h; done)
        | (cases hfiles; done)
        | (cases hmeta; done)
        | (cases hdelegations; done)
        | exact .of_sessions rfl rfl rfl rfl

end StateManager

end EmbedNfs

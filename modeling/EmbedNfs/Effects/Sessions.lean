import EmbedNfs.Effects.Calls
import EmbedNfs.Effects.Shrinking

/-!
# What a step does to clients and sessions

Client ids come from a counter, session ids from a counter of the client, and what a slot
executes from a counter of the slot. Five sections move these counters or fill a reply
cache: EXCHANGE_ID and SETCLIENTID enrol a client, CREATE_SESSION issues a session,
`prepare_sequence` executes a request and `finish_sequence` stores a reply. Every other step
`Fades`: clients keep their counters and sessions their slots, or they go.
-/

namespace EmbedNfs

/-- The slot that executes a request. -/
def SlotState.executing (sequenceid : Sequenceid4) (fingerprint : Bytes) : SlotState :=
  ⟨sequenceid + 1, some fingerprint, none⟩

/-- The slot that has stored a reply. -/
def SlotState.stored (fingerprint response : Bytes) (slot : SlotState) : SlotState :=
  { slot with inProgress := none, cachedReply := some ⟨fingerprint, response⟩ }

/-- Clients of `a` are clients of `b` with the same session counter, and sessions of `a` are
sessions of `b` with the same slots. -/
structure StateInner.Fades (a b : StateInner) : Prop where
  clients : a.clients.SubBy ClientState.sequenceId b.clients
  sessions : a.sessions.SubBy SessionState.slots b.sessions

/-- The tables fade, and no client was enrolled. -/
structure StateManager.Fades (a b : StateManager) : Prop where
  nextClientid : a.nextClientid = b.nextClientid
  inner : a.inner.Fades b.inner

namespace StateInner

theorem Fades.refl (a : StateInner) : a.Fades a := ⟨.refl _, .refl _⟩

theorem Fades.trans {a b c : StateInner} (h : a.Fades b) (h' : b.Fades c) : a.Fades c :=
  ⟨h.clients.trans h'.clients, h.sessions.trans h'.sessions⟩

theorem Fades.modify_clients {a b : StateInner} (h : a.Fades b) (k : Clientid4)
    {f : ClientState → ClientState} (hf : ∀ client, (f client).sequenceId = client.sequenceId) :
    Fades { a with clients := a.clients.modify k f } b :=
  ⟨(Table.modify_subBy fun client _ => hf client).trans h.clients, h.sessions⟩

theorem removeDelegationLocked_fades (inner : StateInner) (other : StateidOther) :
    (inner.removeDelegationLocked other).Fades inner := by
  unfold removeDelegationLocked
  split
  · exact .refl _
  · exact ⟨.refl _, .refl _⟩

theorem removeClientDelegationsLocked_fades (inner : StateInner) (clientid : Clientid4) :
    (inner.removeClientDelegationsLocked clientid).Fades inner :=
  foldl_rel Fades.refl (fun _ _ _ => Fades.trans) removeDelegationLocked_fades _ _

theorem revokeClientState_fades (inner : StateInner) (clientid : Clientid4) :
    (inner.revokeClientState clientid).Fades inner :=
  (removeClientDelegationsLocked_fades _ clientid).trans ⟨.refl _, .refl _⟩

theorem dropClientState_fades (inner : StateInner) (clientid : Clientid4) :
    (inner.dropClientState clientid).Fades inner := by
  have h := revokeClientState_fades
    { inner with sessions := inner.sessions.retain fun _ session => session.clientid ≠ clientid }
    clientid
  exact ⟨(Table.erase_sub _ _).subBy.trans h.clients,
    h.sessions.trans (Table.retain_sub _ _).subBy⟩

theorem dropClientStates_fades (inner : StateInner) (clientids : List Clientid4) :
    (clientids.foldl dropClientState inner).Fades inner :=
  foldl_rel Fades.refl (fun _ _ _ => Fades.trans) dropClientState_fades _ _

theorem expireClient_fades (now : Instant) (inner : StateInner) (clientid : Clientid4) :
    (expireClient now inner clientid).Fades inner :=
  (revokeClientState_fades inner clientid).modify_clients clientid fun _ => rfl

theorem reapExpiredClientsLocked_fades (inner : StateInner) (now : Instant) :
    (inner.reapExpiredClientsLocked now).Fades inner :=
  (dropClientStates_fades _ _).trans
    (foldl_rel Fades.refl (fun _ _ _ => Fades.trans) (expireClient_fades now) _ _)

end StateInner

namespace StateManager

theorem Fades.of_eq {s s' : StateManager} (hn : s'.nextClientid = s.nextClientid)
    (hc : s'.inner.clients = s.inner.clients) (hs : s'.inner.sessions = s.inner.sessions) :
    s'.Fades s :=
  ⟨hn, hc ▸ .refl _, hs ▸ .refl _⟩

theorem Fades.refl (s : StateManager) : s.Fades s := .of_eq rfl rfl rfl

theorem Fades.trans {a b c : StateManager} (h : a.Fades b) (h' : b.Fades c) : a.Fades c :=
  ⟨h.nextClientid.trans h'.nextClientid, h.inner.trans h'.inner⟩

theorem reapExpiredClients_fades (s : StateManager) : s.reapExpiredClients.Fades s :=
  ⟨rfl, StateInner.reapExpiredClientsLocked_fades _ _⟩

theorem Drift.session {s s' : StateManager} (h : s.Drift s') {k : Sessionid4}
    {session : SessionState} (hk : s'.inner.sessions.get k = some session) :
    ∃ old, s.inner.sessions.get k = some old ∧ old.Reordered session := by
  have hrel := h.sessions k
  rw [hk] at hrel
  cases hold : s.inner.sessions.get k with
  | none =>
    rw [hold] at hrel
    cases hrel
  | some old =>
    rw [hold] at hrel
    cases hrel with
    | some hr => exact ⟨old, rfl, hr⟩

theorem Drift.fades {s s' : StateManager} (h : s.Drift s') : s'.Fades s := by
  refine ⟨h.nextClientid, Table.Sub.subBy fun k v hk => (h.clients k).trans hk, ?_⟩
  intro k session hk
  obtain ⟨old, hold, hr⟩ := h.session hk
  exact ⟨old, hold, hr.slots⟩

theorem OnlyMetadata.fades {s s' : StateManager} (h : s'.OnlyMetadata s) : s'.Fades s := by
  obtain ⟨entries, changeid, fileid, rfl⟩ := h
  exact .of_eq rfl rfl rfl

/-! ## The five sections -/

/-- A client was enrolled under the next id, with a new session counter; otherwise the tables
fade. -/
structure Enrols (s' s : StateManager) : Prop where
  nextClientid : s'.nextClientid = s.nextClientid + 1
  clients : ∀ k client, s'.inner.clients.get k = some client →
    (k = s.nextClientid ∧ client.sequenceId = 1) ∨
      ∃ old, s.inner.clients.get k = some old ∧ client.sequenceId = old.sequenceId
  sessions : s'.inner.sessions.SubBy SessionState.slots s.inner.sessions

theorem Enrols.of_fades {a b c : StateManager} (h : a.Enrols b) (h' : b.Fades c) :
    a.Enrols c where
  nextClientid := by rw [h.nextClientid, h'.nextClientid]
  clients k client hk := by
    rcases h.clients k client hk with ⟨hkey, hseq⟩ | ⟨old, hold, hseq⟩
    · exact Or.inl ⟨hkey.trans h'.nextClientid, hseq⟩
    · obtain ⟨old', hold', hseq'⟩ := h'.inner.clients k old hold
      exact Or.inr ⟨old', hold', hseq.trans hseq'⟩
  sessions := h.sessions.trans h'.inner.sessions

theorem Enrols.of_insert {s : StateManager} {inner : StateInner} {client : ClientState}
    (hinner : inner.Fades s.inner) (hseq : client.sequenceId = 1) :
    Enrols { s with
      nextClientid := s.nextClientid + 1
      inner := { inner with clients := inner.clients.insert s.nextClientid client } } s where
  nextClientid := rfl
  clients k client' hk := by
    rw [Table.get_insert] at hk
    split at hk
    · rename_i hkey
      cases hk
      exact Or.inl ⟨hkey, hseq⟩
    · exact Or.inr (hinner.clients k client' hk)
  sessions := hinner.sessions

theorem exchangeId_enrols (s : StateManager) (args : ExchangeIdArgs4) :
    (s.exchangeId args).2.Fades s ∨ (s.exchangeId args).2.Enrols s := by
  have hreap := reapExpiredClients_fades s
  unfold exchangeId
  split
  · exact Or.inl (.refl s)
  · unfold exchangeIdReaped
    dsimp only
    split
    · exact Or.inl hreap
    · refine Or.inr (Enrols.of_fades ?_ hreap)
      exact .of_insert (StateInner.dropClientStates_fades _ _) rfl

theorem setClientId_enrols (s : StateManager) (args : SetClientIdArgs4) :
    (s.reapExpiredClients.setClientIdReaped args).2.Fades s ∨
      (s.reapExpiredClients.setClientIdReaped args).2.Enrols s := by
  have hreap := reapExpiredClients_fades s
  unfold setClientIdReaped
  dsimp only
  have hdrop := StateInner.dropClientStates_fades s.reapExpiredClients.inner
  split
  · refine Or.inl (Fades.trans (b := s.reapExpiredClients) ⟨rfl, ?_⟩ hreap)
    exact (hdrop _).modify_clients _ fun _ => rfl
  · exact Or.inr (Enrols.of_fades (.of_insert (hdrop _) rfl) hreap)

/-- A session was issued to a client, whose counter is advanced and whose new value is in the
session's id. Its slots are new; other clients and sessions fade. -/
structure Issues (clientid : Clientid4) (sessionid : Sessionid4) (s' s : StateManager) :
    Prop where
  nextClientid : s'.nextClientid = s.nextClientid
  issued : ∃ client, s.inner.clients.get clientid = some client ∧
    sessionid = mintSessionid clientid (client.sequenceId + 1)
  clients : ∀ k client, s'.inner.clients.get k = some client →
    ∃ old, s.inner.clients.get k = some old ∧
      client.sequenceId = if k = clientid then old.sequenceId + 1 else old.sequenceId
  sessions : ∀ k session, s'.inner.sessions.get k = some session →
    (k = sessionid ∧ ∀ slot ∈ session.slots, slot = .fresh) ∨
      ∃ old, s.inner.sessions.get k = some old ∧ session.slots = old.slots

theorem confirmClient_fades (s : StateManager) (clientid : Clientid4) (seq : Sequenceid4)
    (replaced : Option Clientid4) :
    (s.confirmClient clientid seq replaced).Fades
      { s.inner with
        clients := s.inner.clients.modify clientid fun client =>
          { client with
            sequenceId := seq, confirmed := true, statusFlags := 0,
            leaseState := .active (leaseDeadline s.clock), replacedClientid := none } } := by
  unfold confirmClient
  cases replaced with
  | none => exact .refl _
  | some old => exact StateInner.dropClientState_fades _ old

theorem createSession_issues {s : StateManager} {args : CreateSessionArgs4} {conn : U64}
    {res : CreateSessionRes4} (h : (s.runSection (.createSession args conn)).1 = .ok res) :
    Issues args.clientid res.sessionid (s.runSection (.createSession args conn)).2 s := by
  have hreap := reapExpiredClients_fades s
  refine commit_of_ok (Issues args.clientid res.sessionid · s) h fun s' hok => ?_
  obtain ⟨client, inner, hclient, -, rfl, hid, rfl⟩ := createSessionReaped_ok hok
  obtain ⟨old, hold, hseq⟩ := hreap.inner.clients _ _ hclient
  have hconfirm := confirmClient_fades s.reapExpiredClients args.clientid (client.sequenceId + 1)
    client.replacedClientid
  refine ⟨hreap.nextClientid, ⟨old, hold, by rw [hid, hseq]⟩, ?_, ?_⟩
  · intro k client' hk
    obtain ⟨mid, hmid, hseq'⟩ := hconfirm.clients k client' hk
    rw [Table.get_modify] at hmid
    split at hmid
    · rename_i hkey
      obtain ⟨prev, hprev, rfl⟩ := Option.map_eq_some_iff.mp hmid
      rw [hkey, hold]
      exact ⟨old, rfl, by rw [if_pos rfl, hseq', hseq]⟩
    · rename_i hkey
      obtain ⟨prev, hprev, hseq''⟩ := hreap.inner.clients k mid hmid
      exact ⟨prev, hprev, by rw [if_neg hkey, hseq', hseq'']⟩
  · intro k session hk
    rw [Table.get_insert] at hk
    split at hk
    · rename_i hkey
      cases hk
      exact Or.inl ⟨hkey, fun slot hslot => List.eq_of_mem_replicate hslot⟩
    · exact Or.inr ((hconfirm.sessions.trans hreap.inner.sessions) k session hk)

theorem createSession_error {s : StateManager} {args : CreateSessionArgs4} {conn : U64}
    {status : NfsStat4} (h : (s.runSection (.createSession args conn)).1 = .error status) :
    (s.runSection (.createSession args conn)).2 = s.reapExpiredClients := by
  have h' : (s.reapExpiredClients.commit
      (s.reapExpiredClients.createSessionReaped args conn)).1 = .error status := h
  show (s.reapExpiredClients.commit
    (s.reapExpiredClients.createSessionReaped args conn)).2 = _
  cases hr : s.reapExpiredClients.createSessionReaped args conn with
  | ok out =>
    rw [hr] at h'
    cases h'
  | error status' => rfl

/-- The slots of one session were rewritten; otherwise the tables fade. -/
structure UpdatesSlots (sessionid : Sessionid4) (f : List SlotState → List SlotState)
    (s' s : StateManager) : Prop where
  nextClientid : s'.nextClientid = s.nextClientid
  clients : s'.inner.clients.SubBy ClientState.sequenceId s.inner.clients
  sessions : ∀ k session, s'.inner.sessions.get k = some session →
    ∃ old, s.inner.sessions.get k = some old ∧
      session.slots = if k = sessionid then f old.slots else old.slots

theorem UpdatesSlots.of_fades {sessionid : Sessionid4} {f : List SlotState → List SlotState}
    {a b c : StateManager} (h : a.UpdatesSlots sessionid f b) (h' : b.Fades c) :
    a.UpdatesSlots sessionid f c where
  nextClientid := h.nextClientid.trans h'.nextClientid
  clients := h.clients.trans h'.inner.clients
  sessions k session hk := by
    obtain ⟨old, hold, hslots⟩ := h.sessions k session hk
    obtain ⟨old', hold', hslots'⟩ := h'.inner.sessions k old hold
    exact ⟨old', hold', hslots' ▸ hslots⟩

/-- The answers of `classifySlot`: execute and advance the slot, or leave it alone and perhaps
replay the reply that is cached for the same fingerprint. -/
theorem classifySlot_cases (slot : SlotState) (args : SequenceArgs4) (fingerprint : Bytes)
    (res : SequenceRes4) :
    (args.sequenceid = slot.sequenceId ∧
      classifySlot slot args fingerprint res =
        (.execute res ⟨args.sessionid, args.slotid, fingerprint⟩,
          SlotState.executing args.sequenceid fingerprint)) ∨
    ∃ replay, classifySlot slot args fingerprint res = (replay, slot) ∧
      (∀ res token, replay ≠ .execute res token) ∧
      ∀ response, replay = .replay response → slot.cachedReply = some ⟨fingerprint, response⟩ := by
  unfold classifySlot
  split
  · rename_i h
    exact Or.inl ⟨h, by rw [h]; rfl⟩
  · refine Or.inr ?_
    split
    · exact ⟨_, rfl, by simp, by simp⟩
    · split
      · split
        · exact ⟨_, rfl, by simp, by simp⟩
        · exact ⟨_, rfl, by simp, by simp⟩
      · split
        · rename_i cached hcached
          split
          · rename_i hfingerprint
            refine ⟨_, rfl, by simp, fun response hresponse => ?_⟩
            cases hresponse
            rw [hcached, ← hfingerprint]
          · exact ⟨_, rfl, by simp, by simp⟩
        · exact ⟨_, rfl, by simp, by simp⟩

theorem bindForechannelForSequence_slots {session bound : SessionState} {conn : U64}
    (h : bindForechannelForSequence session conn = .ok bound) : bound.slots = session.slots := by
  unfold bindForechannelForSequence at h
  split at h
  · cases h
  · cases h
    rfl

theorem UpdatesSlots.of_modify {s : StateManager} {sessionid : Sessionid4}
    {session bound : SessionState} {clients : Table Clientid4 ClientState}
    {f : List SlotState → List SlotState} (hget : s.inner.sessions.get sessionid = some session)
    (hslots : bound.slots = f session.slots)
    (hclients : clients.SubBy ClientState.sequenceId s.inner.clients) :
    UpdatesSlots sessionid f
      { s with
        inner.sessions := s.inner.sessions.modify sessionid fun _ => bound
        inner.clients := clients } s := by
  refine ⟨rfl, hclients, fun k session' hk => ?_⟩
  rcases Table.of_get_modify hk with ⟨rfl, -, -, rfl⟩ | ⟨hkey, hk⟩
  · exact ⟨session, hget, by rw [if_pos rfl, hslots]⟩
  · exact ⟨session', hk, by rw [if_neg hkey]⟩

theorem UpdatesSlots.fades {s s' : StateManager} {sessionid : Sessionid4}
    {f : List SlotState → List SlotState} (h : s'.UpdatesSlots sessionid f s)
    (hf : ∀ old, s.inner.sessions.get sessionid = some old → f old.slots = old.slots) :
    s'.Fades s := by
  refine ⟨h.nextClientid, h.clients, fun k session hk => ?_⟩
  obtain ⟨old, hold, hslots⟩ := h.sessions k session hk
  split at hslots
  · rename_i hkey
    exact ⟨old, hold, hslots.trans (hf old (hkey ▸ hold))⟩
  · exact ⟨old, hold, hslots⟩

/-- What `prepare_sequence` does to a state: execute a request on a slot whose counter it
matches, or fade and perhaps replay a cached reply. -/
inductive Prepared (args : SequenceArgs4) (fingerprint : Bytes) (s : StateManager) :
    SequenceReplay × StateManager → Prop where
  | execute {s' : StateManager} {session : SessionState} {slot : SlotState} (res : SequenceRes4)
      (hsession : s.inner.sessions.get args.sessionid = some session)
      (hslot : session.slots[args.slotid.toNat]? = some slot)
      (hseq : slot.sequenceId = args.sequenceid)
      (hupdates : s'.UpdatesSlots args.sessionid
        (·.set args.slotid.toNat (SlotState.executing args.sequenceid fingerprint)) s) :
      Prepared args fingerprint s
        (.execute res ⟨args.sessionid, args.slotid, fingerprint⟩, s')
  | other {s' : StateManager} {replay : SequenceReplay} (hfades : s'.Fades s)
      (hexecute : ∀ res token, replay ≠ .execute res token)
      (hreplay : ∀ response, replay = .replay response → ∃ session slot,
        s.inner.sessions.get args.sessionid = some session ∧
        session.slots[args.slotid.toNat]? = some slot ∧
        slot.cachedReply = some ⟨fingerprint, response⟩) :
      Prepared args fingerprint s (replay, s')

theorem Prepared.of_error {args : SequenceArgs4} {fingerprint : Bytes} {s : StateManager}
    (status : NfsStat4) : Prepared args fingerprint s (.error status, s) :=
  .other (.refl s) (by simp) (by simp)

theorem prepareSequenceReaped_prepared (s : StateManager) (args : SequenceArgs4)
    (fingerprint : Bytes) (conn : U64) :
    Prepared args fingerprint s (s.prepareSequenceReaped args fingerprint conn) := by
  unfold prepareSequenceReaped
  split
  · exact .of_error _
  rename_i session hsession
  split
  · exact .of_error _
  rename_i slot hslot
  split
  · exact .of_error _
  rename_i client hclient
  split
  · exact .of_error _
  rename_i bound hbound
  have hslots := bindForechannelForSequence_slots hbound
  split
  · refine .other ?_ (by simp) (by simp)
    exact (UpdatesSlots.of_modify (f := id) hsession hslots (.refl _)).fades fun _ _ => rfl
  -- An active lease: the slot decides.
  have hclients : ∀ replay : SequenceReplay,
      (if replay.renewsLease then
        s.inner.clients.modify session.clientid fun client =>
          { client with leaseState := .active (leaseDeadline s.clock) }
        else s.inner.clients).SubBy ClientState.sequenceId s.inner.clients := by
    intro replay
    split
    · exact Table.modify_subBy fun _ _ => rfl
    · exact .refl _
  rcases classifySlot_cases slot args fingerprint (sequenceRes bound args client.statusFlags) with
    ⟨hseq, hclass⟩ | ⟨replay, hclass, hexecute, hreplay⟩
  · rw [hclass]
    refine .execute _ hsession hslot hseq.symm ?_
    exact .of_modify hsession (by rw [hslots]) (hclients _)
  · rw [hclass]
    refine .other ?_ hexecute fun response hr => ⟨session, slot, hsession, hslot, hreplay response hr⟩
    refine (UpdatesSlots.of_modify (f := (·.set args.slotid.toNat slot)) hsession
      (by rw [hslots]) (hclients _)).fades fun old hold => ?_
    cases hsession.symm.trans hold
    obtain ⟨hlt, heq⟩ := List.getElem?_eq_some_iff.mp hslot
    rw [← heq]
    exact List.set_getElem_self hlt

theorem Prepared.of_fades {args : SequenceArgs4} {fingerprint : Bytes} {s t : StateManager}
    {out : SequenceReplay × StateManager} (h : Prepared args fingerprint s out) (hs : s.Fades t) :
    Prepared args fingerprint t out := by
  cases h with
  | execute res hsession hslot hseq hupdates =>
    obtain ⟨old, hold, hslots⟩ := hs.inner.sessions _ _ hsession
    exact .execute res hold (hslots ▸ hslot) hseq (hupdates.of_fades hs)
  | other hfades hexecute hreplay =>
    refine .other (hfades.trans hs) hexecute fun response hr => ?_
    obtain ⟨session, slot, hsession, hslot, hcached⟩ := hreplay response hr
    obtain ⟨old, hold, hslots⟩ := hs.inner.sessions _ _ hsession
    exact ⟨old, slot, hold, hslots ▸ hslot, hcached⟩

theorem prepareSequence_prepared (s : StateManager) (args : SequenceArgs4) (fingerprint : Bytes)
    (conn : U64) : Prepared args fingerprint s (s.prepareSequence args fingerprint conn) :=
  (prepareSequenceReaped_prepared _ args fingerprint conn).of_fades (reapExpiredClients_fades s)

theorem finishSequence_error {s : StateManager} {token : SequenceCacheToken} {response : Bytes}
    {status : NfsStat4} {session : SessionState} (h : s.finishSequence token response = .error status)
    (hsession : s.inner.sessions.get token.sessionid = some session) :
    session.slots[token.slotid.toNat]? = none := by
  rw [List.getElem?_eq_none_iff]
  simp only [finishSequence, hsession, bind, Except.bind, pure, Except.pure, throw, throwThe,
    MonadExceptOf.throw] at h
  grind

theorem finishSequence_updates {s s' : StateManager} {token : SequenceCacheToken}
    {response : Bytes} (h : s.finishSequence token response = .ok s') :
    s'.UpdatesSlots token.sessionid
      (·.modify token.slotid.toNat (SlotState.stored token.fingerprint response)) s := by
  rw [finishSequence_ok h]
  refine ⟨rfl, .refl _, fun k session hk => ?_⟩
  rcases Table.of_get_modify hk with ⟨rfl, old, hold, rfl⟩ | ⟨hkey, hk⟩
  · exact ⟨old, hold, by rw [if_pos rfl]; rfl⟩
  · exact ⟨session, hk, by rw [if_neg hkey]⟩

end StateManager

/-! ## All sections -/

/-- The sections that enrol a client, issue a session, execute a request or store a reply. -/
def Section.tracksSessions : Section → Bool
  | .exchangeId _ | .setClientId _ | .createSession _ _ | .prepareSequence _ _ _
  | .finishSequence _ _ => true
  | _ => false

open StateManager in
theorem StateManager.runSection_fades (s : StateManager) (c : Section)
    (h : c.tracksSessions = false) : (s.runSection c).2.Fades s := by
  have hrefl := Fades.refl s
  have hreap := reapExpiredClients_fades s
  have hmodify : ∀ (t : StateManager) (k : Clientid4) (f : ClientState → ClientState),
      (∀ client, (f client).sequenceId = client.sequenceId) →
        Fades { t with inner.clients := t.inner.clients.modify k f } t :=
    fun t k f hf => ⟨rfl, (StateInner.Fades.refl t.inner).modify_clients k hf⟩
  cases hfiles : c.ofFiles with
  | true =>
    obtain ⟨_, _, _, hs⟩ := s.runSection_onlyFiles c hfiles
    rw [hs]
    exact .of_eq rfl rfl rfl
  | false =>
  cases hmeta : c.metadataOf with
  | some object => exact (s.runSection_onlyMetadata hmeta).fades
  | none =>
  cases hdelegations : c.ofDelegations with
  | true =>
    obtain ⟨_, _, ⟨_, _, _, rfl⟩, -, hs⟩ := s.runSection_onlyDelegations c hdelegations
    rw [hs]
    exact .of_eq rfl rfl rfl
  | false =>
  cases c with
  | reapExpiredClients => exact hreap
  | destroySession sessionid conn =>
    refine Fades.trans (commitUnit_snd (.refl _) fun s' hok => ?_) hreap
    rw [destroySessionReaped_ok hok]
    exact ⟨rfl, .refl _, (Table.erase_sub _ _).subBy⟩
  | destroyClientid clientid =>
    refine Fades.trans (commitUnit_snd (.refl _) fun s' hok => ?_) hreap
    rw [destroyClientidReaped_ok hok]
    exact ⟨rfl, StateInner.dropClientState_fades _ _⟩
  | bindConnToSession args conn =>
    refine Fades.trans (commit_snd (.refl _) fun a s' hok => ?_) hreap
    obtain ⟨session, bound, hget, -, hslots, rfl⟩ := bindConnToSessionReaped_ok hok
    exact (UpdatesSlots.of_modify (f := id) hget hslots (.refl _)).fades fun _ _ => rfl
  | nextCallbackTargetOn clientid conn =>
    obtain ⟨sessions, heq, hview⟩ := s.nextCallbackTargetOn_only clientid conn
    show (s.nextCallbackTargetOn clientid conn).2.Fades s
    rw [heq]
    refine ⟨rfl, .refl _, fun k session hk => ?_⟩
    have hview := hview k
    rw [show sessions.get k = some session from hk, Option.map_some] at hview
    obtain ⟨old, hold, hpair⟩ := Option.map_eq_some_iff.mp hview.symm
    exact ⟨old, hold, (Prod.mk.inj hpair).2.symm⟩
  | removeConnection conn => exact ⟨rfl, .refl _, Table.mapValues_subBy fun _ _ _ => rfl⟩
  | reclaimComplete clientid oneFs =>
    refine Fades.trans (commitUnit_snd (.refl _) fun s' hok => ?_) hreap
    rcases reclaimCompleteReaped_ok hok with rfl | rfl
    · exact .refl _
    · exact hmodify _ _ _ fun _ => rfl
  | setClientIdConfirm args =>
    refine Fades.trans (commitUnit_snd (.refl _) fun s' hok => ?_) hreap
    rw [setClientIdConfirmReaped_ok hok]
    exact hmodify _ _ _ fun _ => rfl
  | renew clientid =>
    refine commitUnit_snd hrefl fun s' hok => ?_
    rw [renew_ok hok]
    exact hmodify _ _ _ fun _ => rfl
  | freeStateid stateid =>
    refine commitUnit_snd hrefl fun s' hok => ?_
    rcases freeStateid_ok hok with ⟨-, rfl⟩ | rfl | rfl
    · exact .of_eq rfl rfl rfl
    · exact .of_eq rfl rfl rfl
    · exact ⟨rfl, StateInner.removeDelegationLocked_fades _ _⟩
  | revokeRecallableDelegation stateid =>
    refine commitUnit_snd hrefl fun s' hok => ?_
    obtain ⟨state, -, rfl⟩ := revokeRecallableDelegation_ok hok
    exact ⟨rfl, Table.modify_subBy fun _ _ => rfl, .refl _⟩
  | _ =>
    first
      | (cases h; done)
      | (cases hfiles; done)
      | (cases hmeta; done)
      | (cases hdelegations; done)
      | exact .of_eq rfl rfl rfl

theorem StateManager.runMapOp_fades (s : StateManager) (c : MapOp) :
    (s.runMapOp c).2.Fades s := by
  obtain ⟨_, _, _, _, _, _, h⟩ := s.runMapOp_only c
  rw [h]
  exact .of_eq rfl rfl rfl

theorem Server.exec_fades {H : Type} [DecidableEq H] {backend : Backend H} {s s' : Server H}
    {c : Call H} {r : c.Ret} (h : (Server.system backend).exec s c r s')
    (hc : ∀ q, c = .guarded q → q.tracksSessions = false) : s'.state.Fades s.state := by
  cases c with
  | guarded q =>
    rw [h.2]
    exact s.state.runSection_fades q (hc q rfl)
  | mapOp q =>
    rw [h.2]
    exact s.state.runMapOp_fades q
  | _ =>
    obtain ⟨persistentFh, hs⟩ := Server.exec_other h (by simp) (by simp)
    rw [hs]
    exact .of_eq rfl rfl rfl

/-! ## One step -/

section

variable {H : Type}

/-- A step that may enrol a client. -/
def Call.enrols : Call H → Bool
  | .guarded (.exchangeId _) | .guarded (.setClientId _) => true
  | _ => false

/-- The sections that may enrol a client. -/
def Section.enrols : Section → Bool
  | .exchangeId _ | .setClientId _ => true
  | _ => false

theorem Section.enrols_call {c : Section} (h : c.enrols = true) :
    (Call.guarded c : Call H).enrols = true := by
  cases c with
  | exchangeId args => rfl
  | setClientId args => rfl
  | _ => cases h

/-- The session that a step issues, with the client it is issued to. -/
def Call.issues : (c : Call H) → c.Ret → Option (Clientid4 × Sessionid4)
  | .guarded (.createSession args _), .ok res => some (args.clientid, res.sessionid)
  | _, _ => none

/-- The session, the slot and the sequence id of the request that a step executes. -/
def Call.executes : (c : Call H) → c.Ret → Option (Sessionid4 × Slotid4 × Sequenceid4)
  | .guarded (.prepareSequence args _ _), .execute _ _ =>
    some (args.sessionid, args.slotid, args.sequenceid)
  | _, _ => none

/-- The reply that a step stores, with its token. -/
def Call.stores : Call H → Option (SequenceCacheToken × Bytes)
  | .guarded (.finishSequence token response) => some (token, response)
  | _ => none

theorem Call.quiet {c : Call H} {r : c.Ret}
    (hc : ∀ q, c = .guarded q → q.tracksSessions = false) :
    c.issues r = none ∧ c.executes r = none := by
  cases c with
  | guarded q =>
    have hq := hc q rfl
    cases q with
    | createSession args conn => cases hq
    | prepareSequence args fingerprint conn => cases hq
    | _ => exact ⟨rfl, rfl⟩
  | _ => exact ⟨rfl, rfl⟩

/-- What one step does to clients and sessions. -/
inductive SessionStep (s s' : StateManager) (c : Call H) (r : c.Ret) : Prop where
  | fades (hs : s'.Fades s) (hissues : c.issues r = none) (hexecutes : c.executes r = none)
  | enrols (hs : s'.Enrols s) (henrols : c.enrols = true) (hissues : c.issues r = none)
      (hexecutes : c.executes r = none)
  | issues (clientid : Clientid4) (sessionid : Sessionid4) (hs : s'.Issues clientid sessionid s)
      (hissues : c.issues r = some (clientid, sessionid)) (hexecutes : c.executes r = none)
  | executes {session : SessionState} {slot : SlotState} (args : SequenceArgs4)
      (fingerprint : Bytes) (hsession : s.inner.sessions.get args.sessionid = some session)
      (hslot : session.slots[args.slotid.toNat]? = some slot)
      (hseq : slot.sequenceId = args.sequenceid)
      (hs : s'.UpdatesSlots args.sessionid
        (·.set args.slotid.toNat (SlotState.executing args.sequenceid fingerprint)) s)
      (hissues : c.issues r = none)
      (hexecutes : c.executes r = some (args.sessionid, args.slotid, args.sequenceid))
      (hcall : ∃ conn, c = .guarded (.prepareSequence args fingerprint conn))
  | stores (token : SequenceCacheToken) (response : Bytes)
      (hs : s'.UpdatesSlots token.sessionid
        (·.modify token.slotid.toNat (SlotState.stored token.fingerprint response)) s)
      (hstores : c.stores = some (token, response)) (hissues : c.issues r = none)
      (hexecutes : c.executes r = none)

/-- **Every step is one of these.** -/
theorem Server.exec_sessionStep [DecidableEq H] {backend : Backend H} {s s' : Server H}
    {c : Call H} {r : c.Ret} (h : (Server.system backend).exec s c r s') :
    SessionStep s.state s'.state c r := by
  by_cases hc : ∀ q, c = .guarded q → q.tracksSessions = false
  · obtain ⟨hissues, hexecutes⟩ := Call.quiet (r := r) hc
    exact .fades (Server.exec_fades h hc) hissues hexecutes
  simp only [not_forall, Bool.not_eq_false] at hc
  obtain ⟨q, rfl, hq⟩ := hc
  obtain ⟨hr, hs⟩ := h
  have hs' : s'.state = (s.state.runSection q).2 := by rw [hs]
  cases q with
  | exchangeId args =>
    rcases s.state.exchangeId_enrols args with hfades | henrols
    · exact .fades (hs' ▸ hfades) rfl rfl
    · exact .enrols (hs' ▸ henrols) rfl rfl rfl
  | setClientId args =>
    rcases s.state.setClientId_enrols args with hfades | henrols
    · exact .fades (hs' ▸ hfades) rfl rfl
    · exact .enrols (hs' ▸ henrols) rfl rfl rfl
  | createSession args conn =>
    cases r with
    | error status =>
      refine .fades ?_ rfl rfl
      rw [hs', StateManager.createSession_error hr.symm]
      exact s.state.reapExpiredClients_fades
    | ok res => exact .issues _ _ (hs' ▸ StateManager.createSession_issues hr.symm) rfl rfl
  | prepareSequence args fingerprint conn =>
    have hprepared := s.state.prepareSequence_prepared args fingerprint conn
    have hout : s.state.prepareSequence args fingerprint conn = (r, s'.state) := by
      rw [hr, hs']
      rfl
    rw [hout] at hprepared
    cases hprepared with
    | execute res hsession hslot hseq hupdates =>
      exact .executes args fingerprint hsession hslot hseq hupdates rfl rfl ⟨conn, rfl⟩
    | other hfades hexecute hreplay =>
      refine .fades hfades rfl ?_
      cases r with
      | execute res token => exact absurd rfl (hexecute res token)
      | _ => rfl
  | finishSequence token response =>
    have hs'' : s'.state = (s.state.commitUnit (s.state.finishSequence token response)).2 := hs'
    cases hok : s.state.finishSequence token response with
    | error status =>
      rw [hok] at hs''
      exact .fades (hs'' ▸ .refl _) rfl rfl
    | ok t =>
      rw [hok] at hs''
      rw [show s'.state = t from hs'']
      exact .stores token response (StateManager.finishSequence_updates hok) rfl rfl rfl
  | _ => cases hq

end

end EmbedNfs

import EmbedNfs.Session.Clients

/-!
# SEQUENCE and the reply cache

`session/sequence.rs`. `prepareSequence` classifies a request on a slot as a new execution,
a retry whose reply is cached, or an error; `finishSequence` stores the encoded reply. The
two are separate sections, and the request runs between them.
-/

namespace EmbedNfs

/-- `sequence_res`. -/
def sequenceRes (session : SessionState) (args : SequenceArgs4) (statusFlags : U32) :
    SequenceRes4 where
  sessionid := args.sessionid
  sequenceid := args.sequenceid
  slotid := args.slotid
  highestSlotid := BitVec.ofNat 32 (session.slots.length - 1)
  targetHighestSlotid := BitVec.ofNat 32 (session.slots.length - 1)
  statusFlags := statusFlags

/-- `bind_forechannel_for_sequence`. -/
def bindForechannelForSequence (session : SessionState) (connectionId : U64) :
    Except NfsStat4 SessionState :=
  if connectionId ∈ session.backConnections ∧ connectionId ∉ session.foreConnections then
    .error .connNotBoundToSession
  else .ok { session with foreConnections := setInsert connectionId session.foreConnections }

/-- What `prepare_sequence` decides from the slot alone, and the slot it leaves. -/
def classifySlot (slot : SlotState) (args : SequenceArgs4) (fingerprint : Bytes)
    (res : SequenceRes4) : SequenceReplay × SlotState :=
  if args.sequenceid = slot.sequenceId then
    (.execute res { sessionid := args.sessionid, slotid := args.slotid, fingerprint },
      { sequenceId := slot.sequenceId + 1, inProgress := some fingerprint, cachedReply := none })
  else if args.sequenceid ≠ slot.sequenceId - 1 then (.error .seqMisordered, slot)
  else
    match slot.inProgress with
    | some inProgress =>
      if inProgress = fingerprint then (.error .delay, slot) else (.error .seqFalseRetry, slot)
    | none =>
      match slot.cachedReply with
      | some cached =>
        if cached.fingerprint = fingerprint then (.replay cached.response, slot)
        else (.error .seqFalseRetry, slot)
      | none => (.error .serverfault, slot)

/-- Whether the answer renews the client's lease. -/
def SequenceReplay.renewsLease : SequenceReplay → Bool
  | .execute _ _ => true
  | .replay _ => true
  | .statusOnly _ => false
  | .error _ => false

namespace StateManager

/-- `prepare_sequence`, once expired clients have been reaped. -/
def prepareSequenceReaped (s : StateManager) (args : SequenceArgs4) (fingerprint : Bytes)
    (connectionId : U64) : SequenceReplay × StateManager :=
  match s.inner.sessions.get args.sessionid with
  | none => (.error .badSession, s)
  | some session =>
    match session.slots[args.slotid.toNat]? with
    | none => (.error .badSlot, s)
    | some slot =>
      match s.inner.clients.get session.clientid with
      | none => (.error .badSession, s)
      | some client =>
        match bindForechannelForSequence session connectionId with
        | .error status => (.error status, s)
        | .ok bound =>
          match client.leaseState with
          | .revoked _ statusFlags =>
            (.statusOnly (sequenceRes bound args statusFlags),
              { s with
                inner.sessions := s.inner.sessions.modify args.sessionid fun _ => bound })
          | .active _ =>
            let (replay, slot) :=
              classifySlot slot args fingerprint (sequenceRes bound args client.statusFlags)
            let bound := { bound with slots := bound.slots.set args.slotid.toNat slot }
            (replay,
              { s with
                inner.sessions := s.inner.sessions.modify args.sessionid fun _ => bound
                inner.clients :=
                  if replay.renewsLease then
                    s.inner.clients.modify session.clientid fun client =>
                      { client with leaseState := .active (leaseDeadline s.clock) }
                  else s.inner.clients })

/-- `prepare_sequence`. -/
def prepareSequence (s : StateManager) (args : SequenceArgs4) (fingerprint : Bytes)
    (connectionId : U64) : SequenceReplay × StateManager :=
  s.reapExpiredClients.prepareSequenceReaped args fingerprint connectionId

/-- `finish_sequence`. -/
def finishSequence (s : StateManager) (token : SequenceCacheToken) (response : Bytes) :
    Except NfsStat4 StateManager := do
  let some session := s.inner.sessions.get token.sessionid | throw .badSession
  if session.slots.length ≤ token.slotid.toNat then throw .badSlot
  return { s with
    inner.sessions := s.inner.sessions.modify token.sessionid fun session =>
      { session with
        slots := session.slots.modify token.slotid.toNat fun slot =>
          { slot with
            inProgress := none
            cachedReply := some { fingerprint := token.fingerprint, response } } } }

theorem finishSequence_ok {s s' : StateManager} {token : SequenceCacheToken} {response : Bytes}
    (h : s.finishSequence token response = .ok s') :
    s' = { s with
      inner.sessions := s.inner.sessions.modify token.sessionid fun session =>
        { session with
          slots := session.slots.modify token.slotid.toNat fun slot =>
            { slot with
              inProgress := none
              cachedReply := some { fingerprint := token.fingerprint, response } } } } := by
  simp only [finishSequence, bind, Except.bind, pure, Except.pure, throw, throwThe,
    MonadExceptOf.throw] at h
  grind

theorem prepareSequenceReaped_only (s : StateManager) (args : SequenceArgs4)
    (fingerprint : Bytes) (conn : U64) :
    ∃ sessions clients, (s.prepareSequenceReaped args fingerprint conn).2 =
      { s with inner.sessions := sessions, inner.clients := clients } := by
  unfold prepareSequenceReaped
  repeat' split
  all_goals exact ⟨_, _, rfl⟩

end StateManager

end EmbedNfs

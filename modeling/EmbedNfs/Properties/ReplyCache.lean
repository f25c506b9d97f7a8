import EmbedNfs.Effects.Operations
import EmbedNfs.Effects.Sessions
import EmbedNfs.Properties.SessionHistory
import EmbedNfs.Server.Transport

/-!
# Replies and the requests they belong to

A cached reply was stored by a `finish_sequence`, and only the request that was accepted for
execution calls it, with the token it was given. So a replayed reply leads back to the
request that produced it. A request whose reply is stored or replayed answers with it at
once: it is the last thing the request does.
-/

namespace EmbedNfs

section

variable {H : Type}

/-- The session and the slot of the request that a step answers from the cache, with the
answer. -/
def Call.replays : (c : Call H) → c.Ret → Option (Sessionid4 × Slotid4 × Bytes)
  | .guarded (.prepareSequence args _ _), .replay response =>
    some (args.sessionid, args.slotid, response)
  | _, _ => none

/-- The fingerprint that a step shows to the reply cache. -/
def Call.fingerprint : Call H → Option Bytes
  | .guarded (.prepareSequence _ fingerprint _) => some fingerprint
  | _ => none

/-- The steps of the reply cache. -/
def Call.usesReplies : Call H → Bool
  | .guarded (.prepareSequence _ _ _) | .guarded (.finishSequence _ _) => true
  | _ => false

/-! ## Stored replies -/

/-- Every cached reply was stored for its slot, under its fingerprint. -/
def RepliesStored (tr : Trace H) (s : StateManager) : Prop :=
  ∀ k session i slot cached, s.inner.sessions.get k = some session →
    session.slots[i]? = some slot → slot.cachedReply = some cached →
    ∃ e ∈ tr, ∃ token, e.call.stores = some (token, cached.response) ∧
      token.sessionid = k ∧ token.slotid.toNat = i ∧ token.fingerprint = cached.fingerprint

namespace RepliesStored

variable {tr : Trace H} {e : ServerEvent H} {s s' : StateManager}

/-- Slots that fade away take their replies with them. -/
theorem of_fades (h : RepliesStored tr s) (hs : s'.Fades s) : RepliesStored tr s' := by
  intro k session i slot cached hk hslot hcached
  obtain ⟨old, hold, heq⟩ := hs.inner.sessions k session hk
  exact h k old i slot cached hold (heq ▸ hslot) hcached

theorem append (h : RepliesStored tr s) : RepliesStored (tr ++ [e]) s := by
  intro k session i slot cached hk hslot hcached
  obtain ⟨e', he', htoken⟩ := h k session i slot cached hk hslot hcached
  exact ⟨e', List.mem_append_left _ he', htoken⟩

/-- Slots are rewritten: a cached reply was there before, or is one that may be added. -/
theorem of_updatesSlots {sessionid : Sessionid4} {f : List SlotState → List SlotState}
    (h : RepliesStored tr s) (hs : s'.UpdatesSlots sessionid f s)
    (hf : ∀ slots i slot cached, (f slots)[i]? = some slot → slot.cachedReply = some cached →
      (∃ old, slots[i]? = some old ∧ old.cachedReply = some cached) ∨
        ∃ e ∈ tr, ∃ token, e.call.stores = some (token, cached.response) ∧
          token.sessionid = sessionid ∧ token.slotid.toNat = i ∧
          token.fingerprint = cached.fingerprint) : RepliesStored tr s' := by
  intro k session i slot cached hk hslot hcached
  obtain ⟨old, hold, heq⟩ := hs.sessions k session hk
  by_cases hkey : k = sessionid
  · rw [if_pos hkey] at heq
    rw [heq] at hslot
    rcases hf old.slots i slot cached hslot hcached with ⟨slot', hslot', hcached'⟩ | hnew
    · exact h k old i slot' cached hold hslot' hcached'
    · rw [hkey]
      exact hnew
  · rw [if_neg hkey] at heq
    exact h k old i slot cached hold (heq ▸ hslot) hcached

variable [DecidableEq H] {backend : Backend H}

/-- **Step lemma.** Only `finish_sequence` puts a reply into a slot, and it is in the trace from
then on. -/
theorem step {u : Nat} {s s' : Server H} {c : Call H} {r : c.Ret} (h : RepliesStored tr s.state)
    (hexec : (Server.system backend).exec s c r s') :
    RepliesStored (tr ++ [⟨u, s, c, r, s'⟩]) s'.state := by
  have happend := h.append (e := ⟨u, s, c, r, s'⟩)
  cases Server.exec_sessionStep hexec with
  | fades hs => exact happend.of_fades hs
  | enrols hs =>
    intro k session i slot cached hk hslot hcached
    obtain ⟨old, hold, heq⟩ := hs.sessions k session hk
    exact happend k old i slot cached hold (heq ▸ hslot) hcached
  | issues clientid sessionid hs =>
    intro k session i slot cached hk hslot hcached
    rcases hs.sessions k session hk with ⟨-, hfresh⟩ | ⟨old, hold, heq⟩
    · rw [hfresh slot (List.mem_of_getElem? hslot)] at hcached
      cases hcached
    · exact happend k old i slot cached hold (heq ▸ hslot) hcached
  | executes args fingerprint hsession hslot hseq hs =>
    refine happend.of_updatesSlots hs fun slots i slot cached hslot hcached => Or.inl ?_
    rw [List.getElem?_set] at hslot
    split at hslot
    · split at hslot
      · cases hslot
        cases hcached
      · cases hslot
    · exact ⟨slot, hslot, hcached⟩
  | stores token response hs hstores =>
    refine happend.of_updatesSlots hs fun slots i slot cached hslot hcached => ?_
    rw [List.getElem?_modify] at hslot
    obtain ⟨old, hold, rfl⟩ := Option.map_eq_some_iff.mp hslot
    by_cases hi : token.slotid.toNat = i
    · rw [if_pos hi] at hcached
      cases hcached
      exact Or.inr ⟨_, List.mem_append_right _ (List.mem_singleton.mpr rfl), token, hstores,
        rfl, hi, rfl⟩
    · rw [if_neg hi] at hcached
      exact Or.inl ⟨old, hold, hcached⟩

end RepliesStored

/-- **Run lemma.** Every reply in the cache was stored by a request of the run. -/
theorem System.Run.repliesStored [DecidableEq H] {backend : Backend H} {boot : Boot} {α : Type}
    {threads : List (Request H α)} {tr : Trace H} {c : Machine H α}
    (hrun : (Server.system backend).Run ⟨Server.new H boot, threads⟩ tr c) :
    RepliesStored tr c.state.state := by
  refine hrun.invariant_trace (I := fun tr s => RepliesStored tr s.state) ?_ ?_ ?_
  · intro k session i slot cached hk
    simp [Server.new, StateManager.new] at hk
  · intro tr s s' h hdrift
    exact h.of_fades hdrift.state.fades
  · intro tr e hexec h
    exact h.step hexec

/-! ## Requests -/

/-- What `prepare_sequence` may answer: a token names the slot and the fingerprint of the
request, and `known` holds of what is executed. -/
def Call.Tokens (known : Sessionid4 × Slotid4 × Sequenceid4 → Prop) : (c : Call H) → c.Ret → Prop
  | .guarded (.prepareSequence args fingerprint _), .execute _ token =>
    token = ⟨args.sessionid, args.slotid, fingerprint⟩ ∧
      known (args.sessionid, args.slotid, args.sequenceid)
  | _, _ => True

/-- How a request uses the reply cache: under the fingerprint of its record, and storing a
reply only for what it has executed. -/
def Call.Serves (record : Bytes) (known : Sessionid4 × Slotid4 × Sequenceid4 → Prop) :
    Call H → Prop
  | .guarded (.prepareSequence _ fingerprint _) =>
    ∃ call payload, RpcCallHeader.decode record = .ok (call, payload) ∧
      fingerprint = replayFingerprint call.cred payload
  | .guarded (.finishSequence token _) =>
    ∃ call payload, RpcCallHeader.decode record = .ok (call, payload) ∧
      token.fingerprint = replayFingerprint call.cred payload ∧
      ∃ q, known (token.sessionid, token.slotid, q)
  | _ => True

/-- The reply that a request sends right after it has stored it or has found it cached. -/
def Call.lastReply (record : Bytes) : (c : Call H) → c.Ret → Option (Option Bytes)
  | .guarded (.prepareSequence _ _ _), .replay response =>
    (RpcCallHeader.decode record).toOption.map fun p => some (rpcReplyAccepted p.1.xid ++ response)
  | .guarded (.finishSequence _ response), _ =>
    (RpcCallHeader.decode record).toOption.map fun p => some (rpcReplyAccepted p.1.xid ++ response)
  | _, _ => none

/-- The operations of a COMPOUND do not use the reply cache, -/
theorem Call.Requested.serves {c : Call H} (h : c.Requested) (record : Bytes)
    (known : Sessionid4 × Slotid4 × Sequenceid4 → Prop) : c.Serves record known := by
  cases c with
  | guarded q => cases q <;> first | exact True.intro | exact h.elim
  | _ => exact True.intro

/-- and do not end a request. -/
theorem Call.Requested.lastReply {c : Call H} (h : c.Requested) (record : Bytes)
    (r : c.Ret) : c.lastReply record r = none := by
  cases c with
  | guarded q => cases q <;> first | rfl | exact h.elim
  | _ => rfl

variable (cfg : ServerConfig H) (policy : AuthPolicy) (codec : CompoundCodec) {connectionId : U64}

theorem handleCompound_serves (record : Bytes)
    (known : Sessionid4 × Slotid4 × Sequenceid4 → Prop) (ctx : RequestContext)
    (args : Compound4Args) (prepared : Option NfsResop4) :
    (handleCompound cfg ctx connectionId args prepared).Along (Call.Tokens known)
      (Call.Serves record known) fun _ => True :=
  handleCompound_requested.mono (fun _ _ _ => True.intro)
    (fun _ hc => hc.serves record known) fun _ _ => True.intro

/-- The fingerprint is that of the record, and a reply is stored under the token that was handed
out. -/
theorem processCompound_serves {record payload : Bytes} {call : RpcCallHeader}
    (hdecode : RpcCallHeader.decode record = .ok (call, payload))
    (known : Sessionid4 × Slotid4 × Sequenceid4 → Prop) :
    (processCompound cfg codec call.cred payload connectionId).Along (Call.Tokens known)
      (Call.Serves record known) fun _ => True := by
  unfold processCompound
  split
  · split
    · rename_i seqArgs hseq
      refine ⟨⟨call, payload, hdecode, rfl⟩, fun r hr => ?_⟩
      cases r with
      | execute res token =>
        obtain ⟨rfl, hknown⟩ := hr
        change Program.Along _ _ _ (handleCompound cfg _ connectionId _ _ >>= _)
        refine Program.Along.bind (handleCompound_serves cfg record known _ _ _) fun result _ => ?_
        exact ⟨⟨call, payload, hdecode, rfl, _, hknown⟩, fun _ _ => True.intro⟩
      | replay cached => exact True.intro
      | statusOnly res => exact True.intro
      | error status => exact True.intro
    · exact Program.Along.bind (handleCompound_serves cfg record known _ _ _) fun _ _ => True.intro
  · exact True.intro

theorem processRpcMessage_serves (record : Bytes) (connectionId : U64)
    (known : Sessionid4 × Slotid4 × Sequenceid4 → Prop) :
    (processRpcMessage cfg policy codec record connectionId).Along (Call.Tokens known)
      (Call.Serves record known) fun _ => True := by
  unfold processRpcMessage
  split
  · exact True.intro
  · rename_i call payload hdecode
    repeat' split
    all_goals first
      | exact True.intro
      | exact Program.Along.bind (processCompound_serves cfg codec hdecode known) fun _ _ => True.intro

/-- After a stored or replayed reply the request only sends it. -/
theorem processRpcMessage_closes (record : Bytes) (connectionId : U64) :
    (processRpcMessage cfg policy codec record connectionId).Closes (Call.lastReply record) := by
  have hcompound : ∀ ctx args prepared,
      (handleCompound cfg ctx connectionId args prepared).All
        fun c => ∀ r, Call.lastReply record c r = none :=
    fun ctx args prepared => handleCompound_requested.mono (fun _ _ h => h)
      (fun _ hc r => hc.lastReply record r) fun _ _ => True.intro
  unfold processRpcMessage
  split
  · exact True.intro
  · rename_i call payload hdecode
    repeat' split
    all_goals try exact True.intro
    unfold processCompound
    split
    · split
      · intro r
        cases r with
        | execute res token =>
          change Program.Closes _ ((handleCompound cfg _ connectionId _ _ >>= _) >>= _)
          rw [Program.bind_assoc]
          refine .bind (hcompound _ _ _) fun result => ?_
          intro r
          simp only [Call.lastReply, hdecode]
          rfl
        | replay cached =>
          simp only [Call.lastReply, hdecode]
          rfl
        | statusOnly res => exact True.intro
        | error status => exact True.intro
      · change Program.Closes _ ((handleCompound cfg _ connectionId _ _ >>= _) >>= _)
        rw [Program.bind_assoc]
        exact .bind (hcompound _ _ _) fun _ => True.intro
    · exact True.intro

theorem Call.stores_eq_some {c : Call H} {token : SequenceCacheToken} {response : Bytes}
    (h : c.stores = some (token, response)) : c = .guarded (.finishSequence token response) := by
  cases c with
  | guarded q =>
    cases q with
    | finishSequence token' response' =>
      cases h
      rfl
    | _ => cases h
  | _ => cases h

theorem Call.lastReply_of_stores {c : Call H} {r : c.Ret} {token : SequenceCacheToken}
    {record response payload : Bytes} {call : RpcCallHeader} (h : c.stores = some (token, response))
    (hdecode : RpcCallHeader.decode record = .ok (call, payload)) :
    c.lastReply record r = some (some (rpcReplyAccepted call.xid ++ response)) := by
  cases c with
  | guarded q =>
    cases q with
    | finishSequence token' response' =>
      cases h
      simp only [Call.lastReply, hdecode]
      rfl
    | _ => cases h
  | _ => cases h

/-- All steps of a request show the cache the same fingerprint. -/
theorem Call.Serves.fingerprint {c : Call H} {record payload fingerprint : Bytes}
    {known : Sessionid4 × Slotid4 × Sequenceid4 → Prop} {call : RpcCallHeader}
    (h : c.Serves record known) (hfingerprint : c.fingerprint = some fingerprint)
    (hdecode : RpcCallHeader.decode record = .ok (call, payload)) :
    fingerprint = replayFingerprint call.cred payload := by
  cases c with
  | guarded q =>
    cases q with
    | prepareSequence args fingerprint' conn =>
      cases hfingerprint
      obtain ⟨call', payload', hdecode', hprint⟩ := h
      cases hdecode.symm.trans hdecode'
      exact hprint
    | _ => cases hfingerprint
  | _ => cases hfingerprint

/-! ## From a replay to the request that produced the reply -/

section

variable [DecidableEq H] {backend : Backend H}

/-- A replayed reply is cached in the slot, under the fingerprint of the request. -/
theorem Server.exec_replays {s s' : Server H} {c : Call H} {r : c.Ret} {k : Sessionid4}
    {i : Slotid4} {response : Bytes} (hexec : (Server.system backend).exec s c r s')
    (h : c.replays r = some (k, i, response)) :
    ∃ args fingerprint conn session slot, c = .guarded (.prepareSequence args fingerprint conn) ∧
      s.state.inner.sessions.get k = some session ∧ session.slots[i.toNat]? = some slot ∧
      slot.cachedReply = some ⟨fingerprint, response⟩ ∧
      ∀ record call payload, RpcCallHeader.decode record = .ok (call, payload) →
        c.lastReply record r = some (some (rpcReplyAccepted call.xid ++ response)) := by
  cases c with
  | guarded q =>
    cases q with
    | prepareSequence args fingerprint conn =>
      cases r with
      | replay response' =>
        cases h
        have hprepared := s.state.prepareSequence_prepared args fingerprint conn
        have hanswer : (s.state.prepareSequence args fingerprint conn).1 = .replay response :=
          hexec.1.symm
        generalize s.state.prepareSequence args fingerprint conn = out at hprepared hanswer
        cases hprepared with
        | execute => cases hanswer
        | other hfades hexecute hreplay =>
          obtain ⟨session, slot, hsession, hslot, hcached⟩ := hreplay response hanswer
          refine ⟨args, fingerprint, conn, session, slot, rfl, hsession, hslot, hcached, ?_⟩
          intro record call payload hdecode
          simp only [Call.lastReply, hdecode]
          rfl
      | _ => cases h
    | _ => cases h
  | _ => cases h

/-- The state manager hands out tokens for what it executes. -/
theorem Call.tokens_of_exec {s s' : Server H} {c : Call H} {r : c.Ret}
    {known : Sessionid4 × Slotid4 × Sequenceid4 → Prop}
    (hexec : (Server.system backend).exec s c r s')
    (hknown : ∀ x, c.executes r = some x → known x) : c.Tokens known r := by
  cases c with
  | guarded q =>
    cases q with
    | prepareSequence args fingerprint conn =>
      cases r with
      | execute res token =>
        refine ⟨?_, hknown _ rfl⟩
        have hprepared := s.state.prepareSequence_prepared args fingerprint conn
        have hanswer : (s.state.prepareSequence args fingerprint conn).1 = .execute res token :=
          hexec.1.symm
        generalize s.state.prepareSequence args fingerprint conn = out at hprepared hanswer
        cases hprepared with
        | execute => exact (SequenceReplay.execute.inj hanswer).2.symm
        | other hfades hexecute hreplay => exact absurd hanswer (hexecute res token)
      | _ => exact True.intro
    | _ => exact True.intro
  | _ => exact True.intro

end

end

end EmbedNfs

import EmbedNfs.Effects.Leases
import EmbedNfs.Properties.ReplyCache
import EmbedNfs.Server.Scripted

/-!
# At-most-once execution

A session id is issued once, a slot executes a sequence id again only after all the others,
and a replayed reply is the reply of a request with the same credential and the same bytes
that was executed on the same slot.
-/

namespace EmbedNfs

section

variable {H : Type}

/-- The thread serves the record, on some connection. -/
def ServesRecord (cfg : ServerConfig H) (policy : AuthPolicy) (codec : CompoundCodec)
    (threads : List (Request H (Option Bytes))) (t : Nat) (record : Bytes) : Prop :=
  ∃ conn, threads[t]? = some (processRpcMessage cfg policy codec record conn)

/-- Every thread serves a record, or does not touch the reply cache. -/
def RpcThreads (cfg : ServerConfig H) (policy : AuthPolicy) (codec : CompoundCodec)
    (threads : List (Request H (Option Bytes))) : Prop :=
  ∀ t p, threads[t]? = some p →
    (∃ record, ServesRecord cfg policy codec threads t record) ∨
      p.All fun c => c.usesReplies = false

theorem rpcThreads_of_sections {cfg : ServerConfig H} {policy : AuthPolicy}
    {codec : CompoundCodec} {sections : List Section} (records : List (Bytes × U64))
    (h : ∀ q ∈ sections, (Call.guarded q : Call H).usesReplies = false) :
    RpcThreads cfg policy codec (sections.map (Server.sectionThread none) ++
      records.map fun r => processRpcMessage cfg policy codec r.1 r.2) := by
  intro t p hp
  rcases List.mem_append.mp (List.mem_of_getElem? hp) with hmem | hmem
  · obtain ⟨q, hq, rfl⟩ := List.mem_map.mp hmem
    exact Or.inr ⟨h q hq, fun _ _ => True.intro⟩
  · obtain ⟨⟨record, conn⟩, -, rfl⟩ := List.mem_map.mp hmem
    exact Or.inl ⟨record, conn, hp⟩

variable [DecidableEq H] {cfg : ServerConfig H} {policy : AuthPolicy} {codec : CompoundCodec}
  {boot : Boot} {threads : List (Request H (Option Bytes))} {tr tr' : Trace H}
  {c : Machine H (Option Bytes)}
  {e : ServerEvent H}

theorem System.Run.serves_record
    (hrun : (Server.system cfg.backend).Run ⟨Server.new H boot, threads⟩ (tr ++ e :: tr') c)
    {record : Bytes} (hserves : ServesRecord cfg policy codec threads e.thread record) :
    e.call.Serves record fun x =>
      ∃ e' ∈ tr, e'.thread = e.thread ∧ e'.call.executes e'.answer = some x := by
  obtain ⟨conn, hp⟩ := hserves
  have halong := processRpcMessage_serves cfg policy codec record conn fun x =>
    ∃ e' ∈ tr, e'.thread = e.thread ∧ e'.call.executes e'.answer = some x
  refine hrun.call_along hp (fun e' he' ht => ?_) halong
  refine Call.tokens_of_exec (hrun.exec (List.mem_append_left _ he')) fun x hx => ?_
  exact ⟨e', he', ht, hx⟩

theorem System.Run.serves
    (hrun : (Server.system cfg.backend).Run ⟨Server.new H boot, threads⟩ (tr ++ e :: tr') c)
    (hthreads : RpcThreads cfg policy codec threads) (huses : e.call.usesReplies = true) :
    ∃ record, ServesRecord cfg policy codec threads e.thread record ∧
      e.call.Serves record fun x =>
        ∃ e' ∈ tr, e'.thread = e.thread ∧ e'.call.executes e'.answer = some x := by
  obtain ⟨p, hp⟩ := hrun.thread_of_event
  rcases hthreads e.thread p hp with ⟨record, hrecord⟩ | hall
  · exact ⟨record, hrecord, hrun.serves_record hrecord⟩
  · have hfalse := hrun.call_along hp (fun _ _ _ => True.intro) hall
    rw [huses] at hfalse
    cases hfalse

theorem System.Run.replied
    (hrun : (Server.system cfg.backend).Run ⟨Server.new H boot, threads⟩ tr c) {record : Bytes}
    (hserves : ServesRecord cfg policy codec threads e.thread record) (he : e ∈ tr)
    {reply : Option Bytes} (hlast : e.call.lastReply record e.answer = some reply) :
    c.threads[e.thread]? = some (.ret reply) := by
  obtain ⟨conn, hp⟩ := hserves
  have hcloses := processRpcMessage_closes cfg policy codec record conn
  exact (hrun.closes hp hcloses).2 e he rfl reply hlast

/-- **Replays.** A replayed reply is that of a request which was executed on the same slot, with
the same credential and the same COMPOUND bytes, and which has sent the reply. -/
theorem System.Run.replay_of_execute
    (hrun : (Server.system cfg.backend).Run ⟨Server.new H boot, threads⟩ (tr ++ e :: tr') c)
    (hthreads : RpcThreads cfg policy codec threads) {sessionid : Sessionid4} {slotid : Slotid4}
    {response : Bytes} (hreplays : e.call.replays e.answer = some (sessionid, slotid, response)) :
    ∃ e' ∈ tr, ∃ q record record' call call' payload,
      e'.call.executes e'.answer = some (sessionid, slotid, q) ∧
      ServesRecord cfg policy codec threads e.thread record ∧
      ServesRecord cfg policy codec threads e'.thread record' ∧
      RpcCallHeader.decode record = .ok (call, payload) ∧
      RpcCallHeader.decode record' = .ok (call', payload) ∧ call'.cred = call.cred ∧
      c.threads[e.thread]? = some (.ret (some (rpcReplyAccepted call.xid ++ response))) ∧
      c.threads[e'.thread]? = some (.ret (some (rpcReplyAccepted call'.xid ++ response))) := by
  obtain ⟨ts, k, hbefore, -, hexec, -⟩ := hrun.at_event
  obtain ⟨args, fingerprint, conn, session, slot, hcall, hsession, hslot, hcached, hlast⟩ :=
    Server.exec_replays hexec hreplays
  -- The reply was stored for the slot, by another request.
  obtain ⟨e₂, he₂, token, hstores, hsid, hslotid, hfingerprint⟩ :=
    hbefore.repliesStored sessionid session slotid.toNat slot _ hsession hslot hcached
  obtain ⟨tr₁, tr₂, rfl⟩ := List.append_of_mem he₂
  have hcall₂ := Call.stores_eq_some hstores
  have hmem : e ∈ tr₁ ++ e₂ :: tr₂ ++ e :: tr' := by simp
  have hmem₂ : e₂ ∈ tr₁ ++ e₂ :: tr₂ ++ e :: tr' := by simp
  -- Both requests have used the cache under the fingerprint of their records.
  have hrun₂ : (Server.system cfg.backend).Run ⟨Server.new H boot, threads⟩
      (tr₁ ++ e₂ :: (tr₂ ++ e :: tr')) c := by simpa using hrun
  obtain ⟨record, hrecord, hserves⟩ := hrun.serves hthreads (by rw [hcall]; rfl)
  obtain ⟨record', hrecord', hserves'⟩ := hrun₂.serves hthreads (by rw [hcall₂]; rfl)
  rw [hcall] at hserves
  rw [hcall₂] at hserves'
  obtain ⟨call, payload, hdecode, hprint⟩ := hserves
  obtain ⟨call', payload', hdecode', hprint', q, e₁, he₁, hthread, hexecutes⟩ := hserves'
  have hprints : replayFingerprint call.cred payload = replayFingerprint call'.cred payload' := by
    rw [← hprint, ← hprint', hfingerprint]
  obtain ⟨hcred, rfl⟩ := replayFingerprint_inj (RpcCallHeader.decode_cred hdecode)
    (RpcCallHeader.decode_cred hdecode') hprints
  have hslot' : token.slotid = slotid := BitVec.eq_of_toNat_eq hslotid
  refine ⟨e₁, List.mem_append_left _ he₁, q, record, record', call, call', payload, ?_, hrecord,
    hthread ▸ hrecord', hdecode, hdecode', hcred.symm, ?_, ?_⟩
  · rw [hexecutes, hsid, hslot']
  · exact hrun.replied hrecord hmem (hlast record call payload hdecode)
  · rw [hthread]
    exact hrun.replied hrecord' hmem₂ (Call.lastReply_of_stores hstores hdecode')

/-- **Distance.** While the counters are fresh, a slot that executes a sequence id again has
executed all the others in between. -/
theorem System.Run.executions_between
    {tr₁ tr₂ tr₃ : Trace H} {e' : ServerEvent H}
    (hrun : (Server.system cfg.backend).Run ⟨Server.new H boot, threads⟩
      (tr₁ ++ e :: (tr₂ ++ e' :: tr₃)) c)
    (hfresh : CountersFresh (tr₁ ++ e :: (tr₂ ++ e' :: tr₃))) {sessionid : Sessionid4}
    {slotid : Slotid4} {q : Sequenceid4}
    (he : e.call.executes e.answer = some (sessionid, slotid, q))
    (he' : e'.call.executes e'.answer = some (sessionid, slotid, q)) :
    2 ^ 32 - 1 ≤ (executions sessionid slotid tr₂).length := by
  obtain ⟨n, hcounted, -⟩ := (hrun.sessionHistory hfresh).slots.counted sessionid slotid
  rw [executions_append, executions_cons_some he, executions_append,
    executions_cons_some he'] at hcounted
  exact counted_gap hcounted.symm

end

/-- **At most once.** Let any records be served, and any other requests run, with their steps
interleaved in any order. A reply that is replayed was sent for a request that was executed on
the same session and slot, with the same credential and the same COMPOUND bytes. As long as there
were at most `2 ^ 64` EXCHANGE_IDs and SETCLIENTIDs, and fewer than `2 ^ 32` sessions were created
for each client, no session id is issued twice, and a slot that executes a sequence id again has
executed at least `2 ^ 32 - 1` others in between. -/
theorem at_most_once {H : Type} [DecidableEq H] {cfg : ServerConfig H} (policy : AuthPolicy)
    (codec : CompoundCodec) {boot : Boot} {threads : List (Request H (Option Bytes))}
    {tr : Trace H} {c : Machine H (Option Bytes)}
    (hrun : (Server.system cfg.backend).Run ⟨Server.new H boot, threads⟩ tr c) :
    (RpcThreads cfg policy codec threads →
      ∀ tr₁ e tr₂ sessionid slotid response, tr = tr₁ ++ e :: tr₂ →
      e.call.replays e.answer = some (sessionid, slotid, response) →
      ∃ e' ∈ tr₁, ∃ q record record' call call' payload,
        e'.call.executes e'.answer = some (sessionid, slotid, q) ∧
        ServesRecord cfg policy codec threads e.thread record ∧
        ServesRecord cfg policy codec threads e'.thread record' ∧
        RpcCallHeader.decode record = .ok (call, payload) ∧
        RpcCallHeader.decode record' = .ok (call', payload) ∧ call'.cred = call.cred ∧
        c.threads[e.thread]? = some (.ret (some (rpcReplyAccepted call.xid ++ response))) ∧
        c.threads[e'.thread]? = some (.ret (some (rpcReplyAccepted call'.xid ++ response)))) ∧
    (enrolments tr ≤ 2 ^ 64 → (∀ clientid, sessionsOf clientid tr < 2 ^ 32) →
      ((sessionsIssued tr).map Prod.snd).Nodup ∧
      ∀ tr₁ e tr₂ e' tr₃ sessionid slotid q, tr = tr₁ ++ e :: (tr₂ ++ e' :: tr₃) →
        e.call.executes e.answer = some (sessionid, slotid, q) →
        e'.call.executes e'.answer = some (sessionid, slotid, q) →
        2 ^ 32 - 1 ≤ (executions sessionid slotid tr₂).length) := by
  refine ⟨fun hthreads => ?_, fun hclients hsessions => ?_⟩
  · rintro tr₁ e tr₂ sessionid slotid response rfl hreplays
    exact hrun.replay_of_execute hthreads hreplays
  · have hfresh : CountersFresh tr := ⟨hclients, hsessions⟩
    refine ⟨(hrun.sessionHistory hfresh).clients.distinct, ?_⟩
    rintro tr₁ e tr₂ e' tr₃ sessionid slotid q rfl he he'
    exact hrun.executions_between hfresh he he'

/-- A record is served and sent again: the second reply is the first one. -/
theorem at_most_once_retry :
    let serve := fun xid => processRpcMessage Scripted.config ⟨[.none]⟩ Scripted.codec
      (Scripted.record xid [1]) 0
    let threads := Scripted.sessionSetUp.map (Server.sectionThread none) ++ [serve 5, serve 6]
    let played := (Server.scripted Backend.single .someFile).play ⟨Server.new Unit .fixed, threads⟩
      [0, 1, 2, 2, 2, 3]
    RpcThreads Scripted.config ⟨[.none]⟩ Scripted.codec threads ∧
    (∃ e ∈ played.1, e.thread = 3 ∧
      e.call.replays e.answer = some (mintSessionid 1 2, 0, [0])) ∧
    enrolments played.1 ≤ 2 ^ 64 ∧ ((sessionsIssued played.1).map Prod.snd).Nodup ∧
    ∃ e ∈ played.1, ∃ q, e.call.executes e.answer = some (mintSessionid 1 2, 0, q) := by
  intro serve threads played
  have hrun : (Server.system Scripted.config.backend).Run ⟨Server.new Unit .fixed, threads⟩
      played.1 played.2 := (Server.scripted Backend.single .someFile).play_run _ _
  have hthreads : RpcThreads Scripted.config ⟨[.none]⟩ Scripted.codec threads := by
    have hsections : ∀ q ∈ Scripted.sessionSetUp, (Call.guarded q : Call Unit).usesReplies = false := by
      decide
    exact rpcThreads_of_sections [(Scripted.record 5 [1], 0), (Scripted.record 6 [1], 0)] hsections
  have hreplays : ∃ e ∈ played.1, e.thread = 3 ∧
      e.call.replays e.answer = some (mintSessionid 1 2, 0, [0]) := by decide +kernel
  have hclients : enrolments played.1 ≤ 2 ^ 64 := by decide +kernel
  have hsessions : ∀ clientid, sessionsOf clientid played.1 < 2 ^ 32 := by
    intro clientid
    have hissued : (sessionsIssued played.1).length < 2 ^ 32 := by decide +kernel
    exact List.countP_le_length.trans_lt hissued
  have honce := at_most_once ⟨[.none]⟩ Scripted.codec hrun
  refine ⟨hthreads, hreplays, hclients, (honce.2 hclients hsessions).1, ?_⟩
  obtain ⟨e, he, -, hreplay⟩ := hreplays
  obtain ⟨tr₁, tr₂, hsplit⟩ := List.append_of_mem he
  obtain ⟨e', he', q, -, -, -, -, -, hexecutes, -⟩ :=
    honce.1 hthreads tr₁ e tr₂ _ _ _ hsplit hreplay
  exact ⟨e', hsplit ▸ List.mem_append_left _ he', q, hexecutes⟩

/-- **Slots execute in order.** Let any requests run, with their steps interleaved in any order,
and the counters be fresh. A slot of a session executes the sequence ids from 1 on, each after the
one before it; and as long as the session is there, the slot stores the next one. -/
theorem slot_order {H α : Type} [DecidableEq H] {backend : Backend H} {boot : Boot}
    {threads : List (Request H α)} {tr : Trace H} {c : Machine H α}
    (hrun : (Server.system backend).Run ⟨Server.new H boot, threads⟩ tr c)
    (hfresh : CountersFresh tr) (sessionid : Sessionid4) (slotid : Slotid4) :
    ∃ n, executions sessionid slotid tr = counted 32 1 n ∧
      ∀ session slot, c.state.state.inner.sessions.get sessionid = some session →
        session.slots[slotid.toNat]? = some slot → slot.sequenceId = BitVec.ofNat 32 (1 + n) :=
  (hrun.sessionHistory hfresh).slots.counted sessionid slotid

/-- Three requests on a new session, the second of which is sent twice. -/
theorem slot_order_three :
    let sections := Scripted.sessionSetUp ++
      ([1, 2, 2, 3] : List Sequenceid4).map fun q =>
        .prepareSequence ⟨mintSessionid 1 2, q, 0, 0, false⟩ [] 0
    let tr := (Server.new Unit .fixed).sectionEvents 0 sections
    ∃ n, executions (mintSessionid 1 2) 0 tr = counted 32 1 n ∧ n = 3 := by
  intro sections tr
  have hrun : (Server.system Backend.single).Run _ tr _ :=
    Server.sections_run () sections (Server.new Unit .fixed) []
  have hclients : enrolments tr ≤ 2 ^ 64 := by decide +kernel
  have hissued : (sessionsIssued tr).length < 2 ^ 32 := by decide +kernel
  have hlength : (executions (mintSessionid 1 2) 0 tr).length = 3 := by decide +kernel
  obtain ⟨n, hn, -⟩ := slot_order hrun
    ⟨hclients, fun _ => List.countP_le_length.trans_lt hissued⟩ (mintSessionid 1 2) 0
  rw [hn, counted, List.length_map, List.length_range] at hlength
  exact ⟨n, hn, hlength⟩

/-! ## Many clients -/

/-- An instance of the second client introduces itself. -/
def restart (k : Nat) : Section := .exchangeId ⟨⟨BitVec.ofNat 64 k, [2]⟩, .none⟩

/-- `k` instances of the second client have introduced themselves, at the time `0`. -/
structure Restarted (k : Nat) (s : StateManager) : Prop where
  clock : s.clock = 0
  nextClientid : s.nextClientid = BitVec.ofNat 64 (2 + k)
  active : ∀ id client, s.inner.clients.get id = some client →
    client.leaseState = .active leaseDuration
  verifiers : ∀ id client, s.inner.clients.get id = some client → client.owner.ownerid = [2] →
    ∃ j < k, client.owner.verifier = BitVec.ofNat 64 j
  newest : 0 < k → ∃ client, s.inner.clients.get (BitVec.ofNat 64 (1 + k)) = some client ∧
    client.sequenceId = 1

namespace Restarted

variable {k : Nat} {s : StateManager}

theorem reap (h : Restarted k s) : s.reapExpiredClients = s := by
  have hsame : s.inner.reapExpiredClientsLocked s.clock = s.inner := by
    refine StateInner.reapExpiredClientsLocked_of_active _ fun id client hget => ?_
    refine ⟨leaseDuration, h.active id client hget, ?_⟩
    rw [h.clock]
    decide
  rw [StateManager.reapExpiredClients, hsame]

theorem step (h : Restarted k s) (hk : k < 2 ^ 64) :
    Restarted (k + 1) (s.runSection (restart k)).2 := by
  show Restarted (k + 1) (s.reapExpiredClients.exchangeIdReaped ⟨⟨BitVec.ofNat 64 k, [2]⟩, .none⟩).2
  rw [h.reap]
  rcases s.exchangeIdReaped_cases ⟨⟨BitVec.ofNat 64 k, [2]⟩, .none⟩ with
    ⟨id, client, hget, hownerid, hverifier, -⟩ | ⟨-, -, inner, hinner, hs⟩
  · obtain ⟨j, hj, hverifier'⟩ := h.verifiers id client hget hownerid
    have hsame : BitVec.ofNat 64 (0 + k) = BitVec.ofNat 64 (0 + j) := by
      simpa using hverifier.symm.trans hverifier'
    have heq := ofNat_add_injective hk (by omega) hsame
    omega
  · have hold : ∀ id client, inner.clients.get id = some client →
        s.inner.clients.get id = some client := by
      rw [hinner]
      exact fun _ _ hget => (StateInner.of_get_dropClientStates_clients hget).2
    have hclock : leaseDeadline s.clock = leaseDuration := by
      rw [h.clock, leaseDeadline]
      exact Nat.zero_add _
    rw [hs]
    refine ⟨h.clock, ?_, fun id client hget => ?_, fun id client hget hownerid => ?_, fun _ => ?_⟩
    · show s.nextClientid + 1 = _
      rw [h.nextClientid, ofNat_succ]
      rfl
    · rcases Table.of_get_insert hget with ⟨-, rfl⟩ | ⟨-, hget⟩
      · exact congrArg _ hclock
      · exact h.active id client (hold id client hget)
    · rcases Table.of_get_insert hget with ⟨-, rfl⟩ | ⟨-, hget⟩
      · exact ⟨k, by omega, rfl⟩
      · obtain ⟨j, hj, hverifier⟩ := h.verifiers id client (hold id client hget) hownerid
        exact ⟨j, by omega, hverifier⟩
    · rw [show 1 + (k + 1) = 2 + k by omega, ← h.nextClientid]
      exact ⟨_, Table.get_insert_self _ _ _, rfl⟩

theorem createSession (h : Restarted (2 ^ 64) s) :
    ∃ res, (s.runSection (.createSession (Scripted.sessionArgs 1 1) 0)).1 = .ok res ∧
      res.sessionid = mintSessionid 1 2 := by
  obtain ⟨client, hget, hseq⟩ := h.newest (by decide)
  have hget' : s.inner.clients.get 1 = some client := hget
  have hactive : client.leaseState.isActive = true := by
    rw [h.active _ _ hget]
    rfl
  show ∃ res, (s.reapExpiredClients.commit
    (s.reapExpiredClients.createSessionReaped (Scripted.sessionArgs 1 1) 0)).1 = .ok res ∧ _
  rw [h.reap]
  have hok : ∃ out, s.createSessionReaped (Scripted.sessionArgs 1 1) 0 = .ok out := by
    simp only [StateManager.createSessionReaped, Scripted.sessionArgs, hget', hactive, hseq]
    exact ⟨_, rfl⟩
  obtain ⟨⟨res, s'⟩, hok⟩ := hok
  refine ⟨res, by rw [hok]; rfl, ?_⟩
  obtain ⟨client', -, hclient', -, -, hid, -⟩ := StateManager.createSessionReaped_ok hok
  cases hget'.symm.trans hclient'
  rw [hid, hseq]
  rfl

theorem set_up :
    Restarted 0 (Scripted.sessionSetUp.foldl Server.afterSection (Server.new Unit .fixed)).state := by
  have hentries : ∀ e ∈ (Scripted.sessionSetUp.foldl Server.afterSection
      (Server.new Unit .fixed)).state.inner.clients.entries,
      e.2.leaseState = .active leaseDuration ∧ e.2.owner.ownerid ≠ [2] := by decide +kernel
  refine ⟨rfl, by decide +kernel, fun id client hget => ?_, fun id client hget hownerid => ?_,
    fun h => absurd h (by decide)⟩
  · exact (hentries (id, client) (Table.mem_entries.mpr hget)).1
  · exact absurd hownerid (hentries (id, client) (Table.mem_entries.mpr hget)).2

theorem restarts (n : Nat) (hn : n ≤ 2 ^ 64) {s : Server Unit} (h : Restarted 0 s.state) :
    Restarted n (((List.range n).map restart).foldl Server.afterSection s).state := by
  induction n with
  | zero => exact h
  | succ n ih =>
    have hn' : n < 2 ^ 64 := hn
    rw [List.range_succ, List.map_append, List.foldl_append, List.map_singleton,
      List.foldl_cons, List.foldl_nil, Server.state_afterSection]
    exact (ih hn'.le).step hn'

end Restarted

theorem sessionsIssued_restarts (s : Server Unit) (t : Nat) (ks : List Nat) :
    sessionsIssued (s.sectionEvents t (ks.map restart)) = [] := by
  induction ks generalizing s t with
  | nil => rfl
  | cons k ks ih => exact ih (s.afterSection (restart k)) (t + 1)

/-- After `2 ^ 64` more EXCHANGE_IDs the client id `1` is given out again, and the session id
`(1, 2)` with it. -/
theorem at_most_once_wraps :
    let sections := Scripted.sessionSetUp ++ (List.range (2 ^ 64)).map restart ++
      [.createSession (Scripted.sessionArgs 1 1) 0]
    ∃ tr c, (Server.system Backend.single).Run
        ⟨Server.new Unit .fixed, sections.map (Server.sectionThread (none : Option Bytes))⟩ tr c ∧
      sessionsIssued tr = [(1, mintSessionid 1 2), (1, mintSessionid 1 2)] := by
  intro sections
  refine ⟨_, _, Server.sections_run none sections (Server.new Unit .fixed) [], ?_⟩
  have hrestarted := Restarted.restarts (2 ^ 64) le_rfl Restarted.set_up
  obtain ⟨res, hres, hid⟩ := hrestarted.createSession
  have hfirst : sessionsIssued ((Server.new Unit .fixed).sectionEvents 0 Scripted.sessionSetUp) =
      [(1, mintSessionid 1 2)] := by decide +kernel
  have hlast : ∀ (s : Server Unit) t, s.state =
      (((List.range (2 ^ 64)).map restart).foldl Server.afterSection
        (Scripted.sessionSetUp.foldl Server.afterSection (Server.new Unit .fixed))).state →
      sessionsIssued (s.sectionEvents t [.createSession (Scripted.sessionArgs 1 1) 0]) =
        [(1, mintSessionid 1 2)] := by
    intro s t hs
    rw [← hs] at hres
    rw [← hid]
    refine sessionsIssued_some ?_
    show Call.issues (H := Unit) (.guarded (.createSession (Scripted.sessionArgs 1 1) 0))
      (s.state.runSection (.createSession (Scripted.sessionArgs 1 1) 0)).1 = _
    rw [hres]
    rfl
  simp only [sections, Server.sectionEvents_append, sessionsIssued_append,
    sessionsIssued_restarts, List.append_nil, List.foldl_append]
  exact congrArg₂ (· ++ ·) hfirst (hlast _ _ rfl)

end EmbedNfs

import EmbedNfs.Properties.AtMostOnce
import EmbedNfs.Properties.SlotReplies

/-!
# What a retry gets

The retry of the request that a slot has accepted last is delayed until that request has stored
its reply, and then gets this reply, as long as slots accept a request only when none is in
progress on them. A slot that accepts the next request while the last one is being executed
loses track: when the older request stores its reply, the slot forgets that the newer one is in
progress, and a retry of the newer one is taken for a false retry (`retry_of_newer_refused`).
-/

namespace EmbedNfs

/-- The session is there, its client has a lease, and the connection may be used for requests. -/
def StateManager.admits (s : StateManager) (sessionid : Sessionid4) (connectionId : U64) : Bool :=
  (s.reapExpiredClients.inner.sessions.get sessionid).any fun session =>
    ((s.reapExpiredClients.inner.clients.get session.clientid).any fun client =>
      client.leaseState.isActive) &&
      !decide (connectionId ∈ session.backConnections ∧ connectionId ∉ session.foreConnections)

theorem StateManager.prepareSequence_admitted {s : StateManager} {args : SequenceArgs4}
    {fingerprint : Bytes} {conn : U64} {slot : SlotState} (h : s.admits args.sessionid conn = true)
    (hslot : ∀ session, s.inner.sessions.get args.sessionid = some session →
      session.slots[args.slotid.toNat]? = some slot) :
    ∃ res, (s.prepareSequence args fingerprint conn).1 =
      (classifySlot slot args fingerprint res).1 := by
  obtain ⟨session, hsession, h⟩ := (Option.any_eq_true _ _).mp h
  obtain ⟨hclient, hbound⟩ := Bool.and_eq_true_iff.mp h
  obtain ⟨client, hclient, hactive⟩ := (Option.any_eq_true _ _).mp hclient
  obtain ⟨old, hold, hslots⟩ := (reapExpiredClients_fades s).inner.sessions _ session hsession
  have hslot' : session.slots[args.slotid.toNat]? = some slot := hslots ▸ hslot old hold
  have hbound : ¬(conn ∈ session.backConnections ∧ conn ∉ session.foreConnections) := by
    simpa only [Bool.not_eq_eq_eq_not, Bool.not_true, decide_eq_false_iff_not] using hbound
  cases hlease : client.leaseState with
  | revoked deadline flags =>
    rw [hlease] at hactive
    cases hactive
  | active deadline =>
    simp only [prepareSequence, prepareSequenceReaped, hsession, hslot', hclient,
      bindForechannelForSequence, if_neg hbound, hlease]
    exact ⟨_, rfl⟩

theorem classifySlot_executing {args : SequenceArgs4} {fingerprint : Bytes} {res : SequenceRes4} :
    (classifySlot (.executing args.sequenceid fingerprint) args fingerprint res).1 =
      .error .delay := by
  simp [classifySlot, SlotState.executing]

theorem classifySlot_stored {args : SequenceArgs4} {fingerprint response : Bytes}
    {res : SequenceRes4} :
    (classifySlot (.stored fingerprint response (.executing args.sequenceid fingerprint)) args
      fingerprint res).1 = .replay response := by
  simp [classifySlot, SlotState.stored, SlotState.executing]

section

variable {H : Type}

/-- The status with which a step refuses a request. -/
def Call.refusal : (c : Call H) → c.Ret → Option NfsStat4
  | .guarded (.prepareSequence _ _ _), .error status => some status
  | _, _ => none

/-- The SEQUENCE that a step prepares, with the fingerprint and the connection of the request. -/
def Call.sequence : Call H → Option (SequenceArgs4 × Bytes × U64)
  | .guarded (.prepareSequence args fingerprint conn) => some (args, fingerprint, conn)
  | _ => none

theorem Call.eq_of_sequence {c : Call H} {args : SequenceArgs4} {fingerprint : Bytes} {conn : U64}
    (h : c.sequence = some (args, fingerprint, conn)) :
    c = .guarded (.prepareSequence args fingerprint conn) := by
  cases c with
  | guarded q =>
    cases q with
    | prepareSequence _ _ _ =>
      cases h
      rfl
    | _ => cases h
  | _ => cases h

/-- Whether the step accepts no request on the slot while another one is in progress there. -/
def Event.acceptsIdle (k : Sessionid4) (i : Slotid4) (e : ServerEvent H) : Bool :=
  (e.call.executes e.answer).all fun (k', i', _) => !(k' == k && i' == i) ||
    ((e.before.state.inner.sessions.get k).bind (·.slots[i.toNat]?)).all (·.inProgress.isNone)

theorem Event.idle_of_acceptsIdle {e : ServerEvent H} {k : Sessionid4}
    {i : Slotid4} {q : Sequenceid4} {session : SessionState} {slot : SlotState}
    (h : e.acceptsIdle k i = true) (hexecutes : e.call.executes e.answer = some (k, i, q))
    (hsession : e.before.state.inner.sessions.get k = some session)
    (hslot : session.slots[i.toNat]? = some slot) : slot.inProgress = none := by
  simpa [acceptsIdle, hexecutes, hsession, hslot] using h

variable [DecidableEq H] {cfg : ServerConfig H} {policy : AuthPolicy} {codec : CompoundCodec}
  {boot : Boot} {threads : List (Request H (Option Bytes))} {tr tr' : Trace H}
  {c : Machine H (Option Bytes)}
  {e f : ServerEvent H}

theorem System.Run.storer
    (hrun : (Server.system cfg.backend).Run ⟨Server.new H boot, threads⟩ (tr ++ f :: tr') c)
    (hthreads : RpcThreads cfg policy codec threads) {token : SequenceCacheToken}
    {response : Bytes} (hstores : f.call.stores = some (token, response)) :
    (∃ e ∈ tr, e.thread = f.thread ∧ e.call.fingerprint = some token.fingerprint ∧
      ∃ q, e.call.executes e.answer = some (token.sessionid, token.slotid, q)) ∧
    ∀ f' ∈ tr, f'.thread = f.thread → f'.call.stores = none := by
  have hcall := Call.stores_eq_some hstores
  obtain ⟨record, hrecord, hserves⟩ := hrun.serves hthreads (by rw [hcall]; rfl)
  rw [hcall] at hserves
  obtain ⟨call, payload, hdecode, hprint, q, e, he, hthread, hexecutes⟩ := hserves
  refine ⟨⟨e, he, hthread, ?_, q, hexecutes⟩, fun f' hf' ht => ?_⟩
  · obtain ⟨tr₁, tr₂, rfl⟩ := List.append_of_mem he
    have hrun' : (Server.system cfg.backend).Run ⟨Server.new H boot, threads⟩
        (tr₁ ++ e :: (tr₂ ++ f :: tr')) c := by simpa using hrun
    have hserves := hrun'.serves_record (hthread ▸ hrecord)
    obtain ⟨fingerprint, hfingerprint⟩ := Call.fingerprint_of_executes hexecutes
    rw [hfingerprint, hprint]
    exact congrArg some (Call.Serves.fingerprint hserves hfingerprint hdecode)
  · -- It would have sent its reply and could not go on.
    by_contra hne
    obtain ⟨⟨token', response'⟩, hstores'⟩ := Option.ne_none_iff_exists'.mp hne
    obtain ⟨ts, k, hbefore, hgoes, -, -⟩ := hrun.at_event
    have hsent := hbefore.replied (ht ▸ hrecord) hf'
      (Call.lastReply_of_stores hstores' hdecode)
    rw [ht] at hsent
    cases hgoes.symm.trans hsent

/-- **Run lemma.** A slot stays in step with its history, as long as it accepts requests only when
it is idle. -/
theorem System.Run.slotReplies
    (hrun : (Server.system cfg.backend).Run ⟨Server.new H boot, threads⟩ tr c)
    (hthreads : RpcThreads cfg policy codec threads) (hfresh : CountersFresh tr) {k : Sessionid4}
    {i : Slotid4} (hidle : ∀ e ∈ tr, e.acceptsIdle k i = true) :
    SlotReplies k i tr c.state.state := by
  refine hrun.invariant_history (I := fun tr s => CountersFresh tr →
    (∀ e ∈ tr, e.acceptsIdle k i = true) → SlotReplies k i tr s.state) ?_ ?_ ?_ hfresh hidle
  · intro _ _
    refine ⟨fun _ _ _ _ _ hlast => absurd rfl hlast.executions_ne, ?_⟩
    intro before e since _ heq
    exact absurd heq.symm (by simp)
  · intro tr s s' h hdrift hfresh hidle
    exact (h hfresh hidle).of_fades hdrift.state.fades
  · intro tr f c' hrun hexec h hfresh hidle
    obtain ⟨ts, k, hbefore, -, -, -⟩ := hrun.last
    have hold := h hfresh.of_append fun e he => hidle e (List.mem_append_left _ he)
    refine hold.step hexec (hbefore.sessionHistory hfresh.of_append) hfresh ?_ ?_
    · intro q session slot
      exact Event.idle_of_acceptsIdle (hidle f (by simp))
    · intro token response hstores
      exact hrun.storer hthreads hstores

theorem System.Run.finished_replied
    (hrun : (Server.system cfg.backend).Run ⟨Server.new H boot, threads⟩ tr c)
    (hthreads : RpcThreads cfg policy codec threads) {k : Sessionid4} {i : Slotid4} {t : Nat}
    {response : Bytes} (h : Finished k i t response tr) :
    ∃ record call payload, ServesRecord cfg policy codec threads t record ∧
      RpcCallHeader.decode record = .ok (call, payload) ∧
      c.threads[t]? = some (.ret (some (rpcReplyAccepted call.xid ++ response))) := by
  obtain ⟨f, hf, rfl, fingerprint, hstores⟩ := h
  have hcall := Call.stores_eq_some hstores
  obtain ⟨tr₁, tr₂, rfl⟩ := List.append_of_mem hf
  obtain ⟨record, hrecord, hserves⟩ := hrun.serves hthreads (by rw [hcall]; rfl)
  rw [hcall] at hserves
  obtain ⟨call, payload, hdecode, -⟩ := hserves
  exact ⟨record, call, payload, hrecord, hdecode,
    hrun.replied hrecord hf (Call.lastReply_of_stores hstores hdecode)⟩

theorem SlotReplies.answer {backend : Backend H} {args : SequenceArgs4} {fingerprint : Bytes}
    {conn : U64} (h : SlotReplies args.sessionid args.slotid tr f.before.state)
    (hexec : (Server.system backend).exec f.before f.call f.answer f.after)
    (hcall : f.call = .guarded (.prepareSequence args fingerprint conn))
    (hadmits : f.before.state.admits args.sessionid conn = true)
    (hlast : LastAccepted tr args.sessionid args.slotid args.sequenceid fingerprint e tr') :
    ((∀ response, ¬Finished args.sessionid args.slotid e.thread response tr') →
      f.call.refusal f.answer = some .delay) ∧
    ∀ response, Finished args.sessionid args.slotid e.thread response tr' →
      f.call.replays f.answer = some (args.sessionid, args.slotid, response) := by
  obtain ⟨t, s, call, answer, s'⟩ := f
  dsimp only at hcall hadmits h
  subst hcall
  have hanswer : answer = (s.state.prepareSequence args fingerprint conn).1 := hexec.1
  have hclassified : ∀ slot, (∀ session, s.state.inner.sessions.get args.sessionid = some session →
      session.slots[args.slotid.toNat]? = some slot) →
      ∃ res, answer = (classifySlot slot args fingerprint res).1 := by
    intro slot hslot
    rw [hanswer]
    exact StateManager.prepareSequence_admitted hadmits hslot
  refine ⟨fun hnot => ?_, fun response hfinished => ?_⟩
  · obtain ⟨res, rfl⟩ := hclassified (.executing args.sequenceid fingerprint) fun session hsession =>
      by
        obtain ⟨slot, hslot, hunfinished, -⟩ := h.last _ _ _ _ session hlast hsession
        rw [hslot, hunfinished hnot]
    rw [classifySlot_executing]
    rfl
  · obtain ⟨res, rfl⟩ := hclassified
      (.stored fingerprint response (.executing args.sequenceid fingerprint)) fun session hsession =>
      by
        obtain ⟨slot, hslot, -, hstored⟩ := h.last _ _ _ _ session hlast hsession
        rw [hslot, hstored response hfinished]
    rw [classifySlot_stored]
    rfl

end

/-- **Retries.** Let any records be served, and any other requests run, with their steps
interleaved in any order, and let a slot accept requests only when it is idle. A retry of the
request that the slot has accepted last, with its SEQUENCE and under its fingerprint, is delayed
as long as that request has not finished. Then it gets the reply that the request has sent. -/
theorem retry_fidelity {H : Type} [DecidableEq H] {cfg : ServerConfig H} (policy : AuthPolicy)
    (codec : CompoundCodec) {boot : Boot} {threads : List (Request H (Option Bytes))}
    {tr : Trace H} {c : Machine H (Option Bytes)}
    (hrun : (Server.system cfg.backend).Run ⟨Server.new H boot, threads⟩ tr c)
    (hthreads : RpcThreads cfg policy codec threads) (hclients : enrolments tr ≤ 2 ^ 64)
    (hsessions : ∀ clientid, sessionsOf clientid tr < 2 ^ 32) :
    ∀ tr₁ e tr₂ f tr₃ args fingerprint conn, tr = tr₁ ++ e :: (tr₂ ++ f :: tr₃) →
      (∀ e' ∈ tr₁ ++ e :: tr₂, e'.acceptsIdle args.sessionid args.slotid = true) →
      e.call.executes e.answer = some (args.sessionid, args.slotid, args.sequenceid) →
      e.call.fingerprint = some fingerprint → executions args.sessionid args.slotid tr₂ = [] →
      f.call.sequence = some (args, fingerprint, conn) →
      f.before.state.admits args.sessionid conn = true →
      ((∀ response, ¬Finished args.sessionid args.slotid e.thread response tr₂) →
        f.call.refusal f.answer = some .delay) ∧
      ∀ response, Finished args.sessionid args.slotid e.thread response tr₂ →
        f.call.replays f.answer = some (args.sessionid, args.slotid, response) ∧
        ∃ record call payload, ServesRecord cfg policy codec threads e.thread record ∧
          RpcCallHeader.decode record = .ok (call, payload) ∧
          c.threads[e.thread]? = some (.ret (some (rpcReplyAccepted call.xid ++ response))) := by
  rintro tr₁ e tr₂ f tr₃ args fingerprint conn rfl hidle hexecutes hfingerprint hnone hcall hadmits
  have hsplit : tr₁ ++ e :: (tr₂ ++ f :: tr₃) = (tr₁ ++ e :: tr₂) ++ f :: tr₃ := by simp
  have hfresh : CountersFresh (tr₁ ++ e :: (tr₂ ++ f :: tr₃)) := ⟨hclients, hsessions⟩
  have hrun' := hrun
  rw [hsplit] at hrun' hfresh
  obtain ⟨ts, k, hbefore, -, hexec, -⟩ := hrun'.at_event
  have hslots := hbefore.slotReplies hthreads hfresh.of_append hidle
  obtain ⟨hdelay, hreplay⟩ := hslots.answer hexec (Call.eq_of_sequence hcall) hadmits
    ⟨⟨tr₁, rfl⟩, hexecutes, hfingerprint, hnone⟩
  refine ⟨hdelay, fun response hfinished => ⟨hreplay response hfinished, ?_⟩⟩
  obtain ⟨f', hf', hstored⟩ := hfinished
  exact hrun.finished_replied hthreads ⟨f', by simp [hf'], hstored⟩

namespace Scripted

/-- A client with a session sends its first request and sends it again, its second request and
sends it again. -/
def retryThreads : List (Request Unit (Option Bytes)) :=
  sessionSetUp.map (Server.sectionThread none) ++
    [(record 5 [1], 0), (record 6 [1], 0), (record 7 [2], 0), (record 8 [2], 0)].map fun r =>
      processRpcMessage config ⟨[.none]⟩ codec r.1 r.2

/-- The run of these threads in the order of a schedule. -/
def retryRun (schedule : List Nat) : Trace Unit ×
    Machine Unit (Option Bytes) :=
  (Server.scripted Backend.single .someFile).play ⟨Server.new Unit .fixed, retryThreads⟩ schedule

theorem retryRun_run (schedule : List Nat) :
    (Server.system config.backend).Run ⟨Server.new Unit .fixed, retryThreads⟩
      (retryRun schedule).1 (retryRun schedule).2 :=
  (Server.scripted Backend.single .someFile).play_run _ _

theorem retryThreads_rpc : RpcThreads config ⟨[.none]⟩ codec retryThreads := by
  refine rpcThreads_of_sections _ ?_
  decide

/-- The SEQUENCE of the first request. -/
def firstSequence : SequenceArgs4 := ⟨mintSessionid 1 2, 1, 0, 0, true⟩

/-- The fingerprint of the first request. -/
def firstPrint : Bytes := replayFingerprint OpaqueAuth.null [1]

/-- The first request finishes and is sent again. -/
def finishedRun : Trace Unit ×
    Machine Unit (Option Bytes) :=
  retryRun [0, 1, 2, 2, 2, 3]

/-- The second request is accepted while the first one is being executed, and is sent again when
the first one has finished. -/
def overtakingRun : Trace Unit ×
    Machine Unit (Option Bytes) :=
  retryRun [0, 1, 2, 4, 2, 2, 5]

end Scripted

open Scripted

theorem exists_of_length_six {X : Type} {xs : List X} (h : xs.length = 6) :
    ∃ a b c d e f, xs = [a, b, c, d, e, f] :=
  match xs, h with
  | [a, b, c, d, e, f], _ => ⟨a, b, c, d, e, f, rfl⟩

theorem retry_fidelity_finished :
    ∃ f ∈ finishedRun.1, f.thread = 3 ∧
      f.call.replays f.answer = some (mintSessionid 1 2, 0, [0]) := by
  have hrun : (Server.system config.backend).Run ⟨Server.new Unit .fixed, retryThreads⟩
    finishedRun.1 finishedRun.2 := retryRun_run _
  have hclients : enrolments finishedRun.1 ≤ 2 ^ 64 := by decide +kernel
  have hissued : (sessionsIssued finishedRun.1).length < 2 ^ 32 := by decide +kernel
  have hidle : finishedRun.1.all (Event.acceptsIdle (mintSessionid 1 2) 0) = true := by
    decide +kernel
  have hthreads : finishedRun.1.map (fun e => e.thread) = [0, 1, 2, 2, 2, 3] := by decide +kernel
  have hexecutes : finishedRun.1.map (fun e => e.call.executes e.answer) =
      [none, none, some (mintSessionid 1 2, 0, 1), none, none, none] := by decide +kernel
  have hprints : finishedRun.1.map (fun e => e.call.fingerprint) =
      [none, none, some firstPrint, none, none, some firstPrint] := by decide +kernel
  have hstores : finishedRun.1.map (fun e => e.call.stores.map fun p =>
      (p.1.sessionid, p.1.slotid, p.2)) =
      [none, none, none, none, some (mintSessionid 1 2, 0, [0]), none] := by decide +kernel
  have hsequence : finishedRun.1[5]?.bind (fun e => e.call.sequence) =
      some (firstSequence, firstPrint, 0) := by decide +kernel
  have hadmits : finishedRun.1[5]?.any (fun e => e.before.state.admits (mintSessionid 1 2) 0) =
      true := by decide +kernel
  generalize finishedRun.1 = tr at *
  have hlength : tr.length = 6 := by simpa using congrArg List.length hthreads
  obtain ⟨e₀, e₁, e₂, e₃, e₄, e₅, rfl⟩ := exists_of_length_six hlength
  simp only [List.map_cons, List.map_nil, List.cons.injEq] at hthreads hexecutes hprints hstores
  obtain ⟨-, -, ht₂, -, ht₄, ht₅, -⟩ := hthreads
  obtain ⟨-, -, hexecutes, hnone₃, hnone₄, -⟩ := hexecutes
  obtain ⟨⟨token, response⟩, hstores, htoken⟩ := Option.map_eq_some_iff.mp hstores.2.2.2.2.1
  simp only [Prod.mk.injEq] at htoken
  obtain ⟨hsession, hslot, rfl⟩ := htoken
  refine ⟨e₅, by simp, ht₅, ?_⟩
  have hfidelity := retry_fidelity ⟨[.none]⟩ codec hrun retryThreads_rpc hclients
    (fun _ => List.countP_le_length.trans_lt hissued) [e₀, e₁] e₂ [e₃, e₄] e₅ [] firstSequence
    firstPrint 0 rfl (fun e he => List.all_eq_true.mp hidle e (by grind)) hexecutes hprints.2.2.1
    (by simp [executions, hnone₃, hnone₄]) hsequence hadmits
  have hfinished : Finished (mintSessionid 1 2) 0 e₂.thread [0] [e₃, e₄] :=
    ⟨e₄, by simp, ht₄.trans ht₂.symm, token.fingerprint, by rw [hstores, ← hsession, ← hslot]⟩
  exact (hfidelity.2 [0] hfinished).1

/-- The older request finishes, and a retry of the newer one, which has not, is refused as a false
retry. -/
theorem retry_of_newer_refused :
    RpcThreads config ⟨[.none]⟩ codec retryThreads ∧
    (Server.system config.backend).Run ⟨Server.new Unit .fixed, retryThreads⟩
      overtakingRun.1 overtakingRun.2 ∧
    overtakingRun.1.map (fun e => e.thread) = [0, 1, 2, 4, 2, 2, 5] ∧
    overtakingRun.1.map (fun e => e.call.executes e.answer) =
      [none, none, some (mintSessionid 1 2, 0, 1), some (mintSessionid 1 2, 0, 2), none, none,
        none] ∧
    overtakingRun.1.map (fun e => e.call.stores.isSome) =
      [false, false, false, false, false, true, false] ∧
    overtakingRun.1[6]?.bind (fun e => e.call.sequence) =
      overtakingRun.1[3]?.bind (fun e => e.call.sequence) ∧
    overtakingRun.1[6]?.bind (fun e => e.call.refusal e.answer) = some .seqFalseRetry :=
  ⟨retryThreads_rpc, retryRun_run _, by decide +kernel, by decide +kernel, by decide +kernel,
    by decide +kernel, by decide +kernel⟩

end EmbedNfs

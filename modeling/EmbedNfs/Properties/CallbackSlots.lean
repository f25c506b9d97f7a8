import EmbedNfs.Effects.Backchannel
import EmbedNfs.Lib.Slot
import EmbedNfs.Properties.RecallCompleteness
import EmbedNfs.Properties.SessionHistory

/-!
# The callback slot of a session

A recall takes the next sequence id of the session under the lock, and then hands the callback to
the connection and waits for the reply. Nothing holds the session's slot in between: two recalls
may both have an id, hand over in either order, and wait at the same time; and an id whose
connection is gone is never handed over. As long as neither happens, the callbacks of a session
carry the ids one, two, three and so on, each handed over when the one before has been answered
or has timed out.
-/

namespace EmbedNfs

open Slot

variable {H : Type}

/-! ## Acts -/

/-- What a call does with a callback slot. -/
def Call.callbackAct : (c : Call H) → c.Ret → Option (Act CallbackTarget)
  | .sendCallback target _ _, .ok _ => some (.handOver target)
  | .sendCallback target _ _, .error _ => some (.fail target)
  | .callbackReply target, _ => some (.reply target)
  | c, r => (c.reserves r).map .reserve

/-- What it does with the slot of one session. -/
def Call.slotAct (sessionid : Sessionid4) (c : Call H) (r : c.Ret) : Option (Act CallbackTarget) :=
  (c.callbackAct r).filter fun a => a.ticket.sessionid = sessionid

/-- The acts on the slot, with their threads. -/
def slotActs (sessionid : Sessionid4) (tr : Trace H) : Slot.History CallbackTarget :=
  tr.filterMap fun e => (e.call.slotAct sessionid e.answer).map fun a => (e.thread, a)

/-- The sequence id of the `i`-th callback, counted from zero. -/
def callbackSequenceid (i : Nat) : Sequenceid4 := BitVec.ofNat 32 (1 + i % (2 ^ 32 - 1))

section

variable {sessionid : Sessionid4} {tr : Trace H} {e : ServerEvent H}

theorem slotActs_concat_none (h : e.call.slotAct sessionid e.answer = none) :
    slotActs sessionid (tr ++ [e]) = slotActs sessionid tr := by
  simp [slotActs, h]

theorem slotActs_concat_some {a : Act CallbackTarget}
    (h : e.call.slotAct sessionid e.answer = some a) :
    slotActs sessionid (tr ++ [e]) = slotActs sessionid tr ++ [(e.thread, a)] := by
  simp [slotActs, h]

theorem Call.slotAct_reserved (c : Call H) (r : c.Ret) :
    (c.slotAct sessionid r).bind Act.reserved? =
      (c.reserves r).filter fun target => target.sessionid = sessionid := by
  unfold Call.slotAct
  cases c with
  | sendCallback target stateid fh =>
    cases r <;> by_cases h : target.sessionid = sessionid <;>
      simp [Call.callbackAct, Call.reserves, Act.ticket, Act.reserved?, Option.filter, h]
  | callbackReply target =>
    by_cases h : target.sessionid = sessionid <;>
      simp [Call.callbackAct, Call.reserves, Act.ticket, Act.reserved?, Option.filter, h]
  | guarded q =>
    show (((Call.reserves (H := H) (.guarded q) r).map Act.reserve).filter _).bind _ = _
    cases Call.reserves (H := H) (.guarded q) r with
    | none => rfl
    | some target =>
      by_cases h : target.sessionid = sessionid <;>
        simp [Act.ticket, Act.reserved?, Option.filter, h]
  | _ => rfl

theorem reserved_slotActs_concat :
    (slotActs sessionid (tr ++ [e])).reserved = (slotActs sessionid tr).reserved ++
      ((e.call.reserves e.answer).filter fun target => target.sessionid = sessionid).toList := by
  rw [← Call.slotAct_reserved]
  cases h : e.call.slotAct sessionid e.answer with
  | none => simp [slotActs_concat_none h]
  | some a =>
    rw [slotActs_concat_some h]
    cases hreserved : a.reserved? <;> simp [History.reserved, hreserved]

end

/-! ## What a recall does with the slot -/

/-- The contract for the slot of one session: the acts come in their order. -/
def slotContract (sessionid : Sessionid4) :
    Contract (Call H) Call.Ret (Server H) (Phase CallbackTarget) where
  inv _ := True
  phase m c r := ((c.slotAct sessionid r).map Phase.next).getD m
  rely _ _ _ := True
  guar m _ c r _ := ∀ a, c.slotAct sessionid r = some a → m.Allows a
  rely_refl _ _ := True.intro
  rely_trans _ _ _ _ _ _ := True.intro

theorem slotContract_phaseAfter (sessionid : Sessionid4) (t : Nat) (tr : Trace H) :
    (slotContract sessionid).phaseAfter t .idle tr = (slotActs sessionid tr).phaseOf t := by
  induction tr using List.reverseRecOn with
  | nil => rfl
  | append_singleton tr e ih =>
    rw [Contract.phaseAfter_append, ih]
    show (if e.thread = t then ((e.call.slotAct sessionid e.answer).map Phase.next).getD _ else _)
      = _
    cases h : e.call.slotAct sessionid e.answer with
    | none => simp [slotActs_concat_none h]
    | some a => simp [slotActs_concat_some h, History.phaseOf_concat]

/-- The phase of a thread that has the target, if it is one of the session. -/
def holding (sessionid : Sessionid4) (target : CallbackTarget) (m : Phase CallbackTarget) :
    Phase CallbackTarget :=
  if target.sessionid = sessionid then m else .idle

section

variable {α : Type} {sessionid : Sessionid4} {m : Phase CallbackTarget}

theorem slotContract_act (sessionid : Sessionid4) {c : Call H} {r : c.Ret}
    {a : Act CallbackTarget} (hact : c.callbackAct r = some a) (hallows : m.Allows a)
    (s s' : Server H) :
    (slotContract sessionid).guar (holding sessionid a.ticket m) s c r s' ∧
      (slotContract sessionid).phase (holding sessionid a.ticket m) c r =
        holding sessionid a.ticket (Phase.next a) := by
  have hslot : c.slotAct sessionid r =
      if a.ticket.sessionid = sessionid then some a else none := by
    by_cases h : a.ticket.sessionid = sessionid <;> simp [Call.slotAct, hact, Option.filter, h]
  show (∀ b, c.slotAct sessionid r = some b → _) ∧
    ((c.slotAct sessionid r).map Phase.next).getD _ = _
  unfold holding
  rw [hslot]
  by_cases h : a.ticket.sessionid = sessionid
  · rw [if_pos h, if_pos h, if_pos h]
    refine ⟨fun b hb => ?_, rfl⟩
    cases hb
    exact hallows
  · rw [if_neg h, if_neg h, if_neg h]
    refine ⟨fun b hb => ?_, rfl⟩
    cases hb

theorem slotContract_actless {c : Call H} {r : c.Ret} (h : c.callbackAct r = none)
    (s s' : Server H) :
    (slotContract sessionid).guar m s c r s' ∧ (slotContract sessionid).phase m c r = m := by
  have hnone : c.slotAct sessionid r = none := by
    rw [Call.slotAct, h]
    rfl
  show (∀ b, c.slotAct sessionid r = some b → _) ∧
    ((c.slotAct sessionid r).map Phase.next).getD m = m
  rw [hnone]
  refine ⟨fun b hb => ?_, rfl⟩
  cases hb

theorem Call.Polling.actless {c : Call H} (h : c.Polling) (r : c.Ret) : c.callbackAct r = none := by
  cases c with
  | guarded q => cases q <;> first | rfl | exact h.elim
  | now => rfl
  | _ => exact h.elim

variable [DecidableEq H] {backend : Backend H} {s : Server H}

theorem safe_of_actless {p : Request H α} (hp : p.All fun c => ∀ r, c.callbackAct r = none) :
    (slotContract sessionid).Safe (Server.system backend) (fun m' _ _ => m' = m) m p s := by
  refine (Contract.Safe.along (J := fun m' _ => m' = m) hp (fun _ _ _ _ _ _ => True.intro)
    (fun _ _ _ h _ => h) ?_ rfl).mono fun _ _ _ _ h => h.2
  intro m' s c r s' hc _ hm _
  obtain ⟨hguar, hphase⟩ := slotContract_actless (m := m') (hc r) s s'
  exact ⟨hguar, hphase.trans hm⟩

theorem holding_idle (target : CallbackTarget) : holding sessionid target .idle = .idle :=
  ite_self _

theorem firstCallbackTarget_slot (clientid : Clientid4) (ids : List U64) :
    (slotContract sessionid).Safe (Server.system backend)
      (fun m target _ => m = (target.map fun x => holding sessionid x (.reserved x)).getD .idle)
      .idle (firstCallbackTarget clientid ids) s := by
  induction ids generalizing s with
  | nil => exact fun _ _ _ => rfl
  | cons id ids ih =>
    intro _ _ _ connected s₁ _ _
    refine ⟨(slotContract_actless rfl _ _).1, ?_⟩
    cases connected with
    | false => exact ih
    | true =>
      intro s₂ _ _ target s₃ _ _
      cases target with
      | none => exact ⟨(slotContract_actless rfl _ _).1, ih⟩
      | some x =>
        have hact := slotContract_act (H := H) sessionid (m := .idle)
          (c := .guarded (.nextCallbackTargetOn clientid id)) (r := some x) (a := .reserve x)
          rfl rfl s₂ s₃
        rw [show Act.ticket (.reserve x) = x from rfl, holding_idle] at hact
        exact ⟨hact.1, fun _ _ _ => hact.2⟩

theorem sendDirectoryRecall_slot (recalled : DirectoryDelegationRecall) (fh : Bytes) :
    (slotContract sessionid).Safe (Server.system backend) (fun m _ _ => m = .idle) .idle
      (sendDirectoryRecall recalled fh) s := by
  refine Contract.Safe.bind (Contract.Safe.mono (Q := fun m target _ =>
    m = (target.map fun x => holding sessionid x (.reserved x)).getD .idle) ?_ ?_)
  · intro _ _ _ ids s₁ _ _
    exact ⟨(slotContract_actless rfl _ _).1, firstCallbackTarget_slot recalled.clientid ids⟩
  · intro m target s₁ _ hm
    subst hm
    cases target with
    | none => exact fun _ _ _ => rfl
    | some x =>
      intro s₂ _ _ sent s₃ _ _
      cases sent with
      | error e =>
        have hact := slotContract_act (H := H) sessionid (m := .reserved x)
          (c := .sendCallback x recalled.stateid fh) (r := .error e) (a := .fail x) rfl rfl s₂ s₃
        exact ⟨hact.1, fun _ _ _ => hact.2.trans (holding_idle x)⟩
      | ok _ =>
        have hact := slotContract_act (H := H) sessionid (m := .reserved x)
          (c := .sendCallback x recalled.stateid fh) (r := .ok ()) (a := .handOver x) rfl rfl s₂ s₃
        refine ⟨hact.1, ?_⟩
        show (slotContract sessionid).Safe _ _ ((slotContract sessionid).phase _ _ _) _ _
        rw [show Option.getD (Option.map (fun x => holding sessionid x (.reserved x)) (some x))
          .idle = holding sessionid (Act.handOver x).ticket (.reserved x) from rfl, hact.2]
        intro s₄ _ _ r s₅ _ _
        have hreply := slotContract_act (H := H) sessionid (m := .waiting x)
          (c := .callbackReply x) (r := r) (a := .reply x) rfl rfl s₄ s₅
        refine ⟨hreply.1, ?_⟩
        cases r with
        | ok response => exact fun _ _ _ => hreply.2.trans (holding_idle x)
        | error e => exact fun _ _ _ => hreply.2.trans (holding_idle x)

theorem sendRecalls_slot (fh : Bytes) (recalls : List DirectoryDelegationRecall) :
    (slotContract sessionid).Safe (Server.system backend) (fun m _ _ => m = .idle) .idle
      (sendRecalls fh recalls) s := by
  refine Contract.Safe.each (fun _ m _ => m = Phase.idle) (fun _ _ _ h _ => h) ?_ rfl
  rintro recalled recalls m s rfl
  cases hsend : recalled.sendCallback with
  | false => exact fun _ _ _ => rfl
  | true =>
    refine Contract.Safe.bind ((sendDirectoryRecall_slot recalled fh).mono ?_)
    rintro m r s _ rfl
    cases r with
    | ok _ => exact fun _ _ _ => rfl
    | error status =>
      have hrevoke : (reapThen (.revokeRecallableDelegation recalled.stateid) : Request H _).All
          fun c => ∀ r, c.callbackAct r = none :=
        reapThen_all (fun _ => rfl) fun _ => rfl
      exact safe_of_actless (Program.Along.discard hrevoke)

theorem recallDirectoryDelegations_slot (config : DelegationConfig) (object : ServerObject)
    (excluded : Option Clientid4) :
    (slotContract sessionid).Safe (Server.system backend) (fun m _ _ => m = .idle) .idle
      (recallDirectoryDelegations config object excluded) s := by
  unfold recallDirectoryDelegations
  split
  · refine fun _ _ _ _ _ _ _ => ⟨(slotContract_actless rfl _ _).1, ?_⟩
    refine fun _ _ _ recalls _ _ _ => ⟨(slotContract_actless rfl _ _).1, ?_⟩
    show (slotContract sessionid).Safe _ _ .idle (if recalls.isEmpty then _ else _) _
    split
    · exact fun _ _ _ => rfl
    · have hfh : (objectToFh object : Request H _).All fun c => ∀ r, c.callbackAct r = none :=
        objectToFh_all (fun _ _ _ => rfl) (fun _ => rfl) object
      refine Contract.Safe.bind ((safe_of_actless hfh).mono ?_)
      rintro m fh s _ rfl
      cases fh with
      | none => exact fun _ _ _ => rfl
      | some fh =>
        refine Contract.Safe.bind ((sendRecalls_slot fh recalls).mono ?_)
        rintro m _ s _ rfl
        have hwait : (waitForRecalledDelegations config recalls : Request H _).All Call.Polling :=
          ⟨True.intro, fun _ _ => pollRecalled_polling _ _ _⟩
        exact safe_of_actless (hwait.mono (fun _ _ h => h) (fun _ => Call.Polling.actless)
          fun _ h => h)
  · exact fun _ _ _ => rfl

end

/-- The request uses callback slots only by recalling the delegations of directories. -/
inductive CallsBackByRecall : {α : Type} → Request H α → Prop where
  | silent {α : Type} {p : Request H α} (h : p.All fun c => ∀ r, c.callbackAct r = none) :
    CallsBackByRecall p
  | recalling (config : DelegationConfig) (object : ServerObject) (excluded : Option Clientid4) :
    CallsBackByRecall (recallDirectoryDelegations config object excluded)
  | bind {α β : Type} {p : Request H β} {f : β → Request H α} (hp : CallsBackByRecall p)
    (hf : ∀ b, CallsBackByRecall (f b)) : CallsBackByRecall (p >>= f)

theorem CallsBackByRecall.safe {α : Type} [DecidableEq H] {p : Request H α}
    (h : CallsBackByRecall p) (backend : Backend H) (sessionid : Sessionid4) (s : Server H) :
    (slotContract sessionid).Safe (Server.system backend) (fun m _ _ => m = .idle) .idle p s := by
  induction h generalizing s with
  | silent h => exact safe_of_actless h
  | recalling config object excluded => exact recallDirectoryDelegations_slot config object excluded
  | bind _ _ ihp ihf =>
    refine Contract.Safe.bind ((ihp s).mono ?_)
    rintro m b s _ rfl
    exact ihf b s

/-! ## Runs -/

section

variable {sessionid : Sessionid4} {tr : Trace H}

/-- The ids that were taken count from one, and the session has the next one. -/
structure CallbackHistory (sessionid : Sessionid4) (tr : Trace H) (s : StateManager) : Prop where
  taken : (slotActs sessionid tr).reserved.map (·.sequenceid) =
    (List.range (slotActs sessionid tr).reserved.length).map callbackSequenceid
  next : ∀ session q, s.inner.sessions.get sessionid = some session →
    session.nextCallback = some q →
      q = callbackSequenceid (slotActs sessionid tr).reserved.length
  known : (slotActs sessionid tr).reserved ≠ [] → sessionid ∈ (sessionsIssued tr).map Prod.snd

theorem nextCallbackSequenceid_callbackSequenceid (i : Nat) :
    nextCallbackSequenceid (callbackSequenceid i) = callbackSequenceid (i + 1) := by
  have hadd : callbackSequenceid i + 1 = BitVec.ofNat 32 (2 + i % (2 ^ 32 - 1)) := by
    rw [show 2 + i % (2 ^ 32 - 1) = (1 + i % (2 ^ 32 - 1)) + 1 by omega, BitVec.ofNat_add]
    rfl
  unfold nextCallbackSequenceid
  rw [hadd]
  by_cases hlast : i % (2 ^ 32 - 1) = 2 ^ 32 - 2
  · have hnext : (i + 1) % (2 ^ 32 - 1) = 0 := by omega
    rw [hlast, callbackSequenceid, hnext]
    rfl
  · have hnext : (i + 1) % (2 ^ 32 - 1) = i % (2 ^ 32 - 1) + 1 := by omega
    have hne : BitVec.ofNat 32 (2 + i % (2 ^ 32 - 1)) ≠ 0 := by
      intro hzero
      have htoNat := congrArg BitVec.toNat hzero
      rw [BitVec.toNat_ofNat, show BitVec.toNat (0 : BitVec 32) = 0 from rfl] at htoNat
      omega
    rw [if_neg hne, callbackSequenceid, hnext]
    congr 1
    omega

namespace CallbackHistory

variable {e : ServerEvent H} {s s' : StateManager}

theorem append (h : CallbackHistory sessionid tr s)
    (hreserved : (slotActs sessionid (tr ++ [e])).reserved = (slotActs sessionid tr).reserved)
    (hnext : ∀ session q, s'.inner.sessions.get sessionid = some session →
      session.nextCallback = some q →
        q = callbackSequenceid (slotActs sessionid tr).reserved.length) :
    CallbackHistory sessionid (tr ++ [e]) s' where
  taken := by
    rw [hreserved]
    exact h.taken
  next := by
    rw [hreserved]
    exact hnext
  known hne := by
    rw [hreserved] at hne
    rw [sessionsIssued_append, List.map_append]
    exact List.mem_append_left _ (h.known hne)

theorem reserve (h : CallbackHistory sessionid tr s) {target : CallbackTarget}
    (hreserves : e.call.reserves e.answer = some target) (hsession : target.sessionid = sessionid)
    {session : SessionState} (hget : s.inner.sessions.get sessionid = some session)
    (hseq : session.nextCallback = some target.sequenceid)
    (hknown : sessionid ∈ (sessionsIssued tr).map Prod.snd)
    (hnext : ∀ session q, s'.inner.sessions.get sessionid = some session →
      session.nextCallback = some q → q = nextCallbackSequenceid target.sequenceid) :
    CallbackHistory sessionid (tr ++ [e]) s' := by
  have hreserved : (slotActs sessionid (tr ++ [e])).reserved =
      (slotActs sessionid tr).reserved ++ [target] := by
    rw [reserved_slotActs_concat, hreserves]
    simp [Option.filter, hsession]
  have hlast := h.next session _ hget hseq
  refine ⟨?_, ?_, fun _ => ?_⟩
  · rw [hreserved, List.map_append, h.taken, List.length_append, List.length_singleton,
      List.range_succ, List.map_append, List.map_singleton, List.map_singleton, hlast]
  · intro session' q hget' hq
    rw [hreserved, List.length_append, List.length_singleton,
      ← nextCallbackSequenceid_callbackSequenceid, ← hlast]
    exact hnext session' q hget' hq
  · rw [sessionsIssued_append, List.map_append]
    exact List.mem_append_left _ hknown

end CallbackHistory

variable {α : Type} [DecidableEq H] {backend : Backend H} {boot : Boot}
  {threads : List (Request H α)} {c : Machine H α}

/-- **Run lemma.** If callbacks are sent one at a time, the slot is used in turns. -/
theorem System.Run.inTurn {s₀ : Server H} (hthreads : ∀ p ∈ threads, CallsBackByRecall p)
    (hrun : (Server.system backend).Run ⟨s₀, threads⟩ tr c)
    (hone : (slotActs sessionid tr).OneAtATime) :
    ∃ turn, History.InTurn turn (slotActs sessionid tr) := by
  refine hrun.invariant_history (I := fun tr _ => (slotActs sessionid tr).OneAtATime →
    ∃ turn, History.InTurn turn (slotActs sessionid tr)) (fun _ => ⟨_, .nil⟩)
    (fun _ _ _ h _ => h) ?_ hone
  intro tr e c' hrun' _ ih hone
  cases hact : e.call.slotAct sessionid e.answer with
  | none =>
    rw [slotActs_concat_none hact] at hone ⊢
    exact ih hone
  | some a =>
    rw [slotActs_concat_some hact] at hone ⊢
    obtain ⟨turn, hturn⟩ := ih hone.of_concat
    -- the thread that acts keeps the contract
    obtain ⟨p, hp⟩ := hrun'.thread_of_event
    obtain ⟨-, hguar, -⟩ := hrun'.contract (m := Phase.idle) True.intro
      (fun _ _ _ _ _ => ⟨True.intro, True.intro⟩) (fun _ _ _ _ _ _ => ⟨True.intro, fun _ =>
        True.intro⟩) hp ((hthreads p (List.mem_of_getElem? hp)).safe backend sessionid _)
    have hallows := hguar tr e [] rfl rfl a hact
    rw [slotContract_phaseAfter] at hallows
    exact hturn.step hallows hone

theorem System.Run.callbackHistory
    (hrun : (Server.system backend).Run ⟨Server.new H boot, threads⟩ tr c)
    (hfresh : CountersFresh tr) (sessionid : Sessionid4) :
    CallbackHistory sessionid tr c.state.state := by
  refine hrun.invariant_history (I := fun tr s => CountersFresh tr →
    CallbackHistory sessionid tr s.state) ?_ ?_ ?_ hfresh
  · refine fun _ => ⟨rfl, fun session q hget _ => ?_, fun hne => absurd rfl hne⟩
    cases hget
  · intro tr s s' h hdrift hfresh
    refine ⟨(h hfresh).taken, fun session q hget hq => ?_, (h hfresh).known⟩
    obtain ⟨old, hold, hsame⟩ := hdrift.state.keepsCallbacks _ _ hget
    exact (h hfresh).next old q hold (hsame.symm.trans hq)
  · intro tr e c' hrun' hexec ih hfresh
    have h := ih hfresh.of_append
    obtain ⟨_, _, hbefore, -, -, -⟩ := hrun'.last
    have hsessions := hbefore.sessionHistory hfresh.of_append
    have hunchanged : (e.call.reserves e.answer).filter (fun target =>
        target.sessionid = sessionid) = none →
        (slotActs sessionid (tr ++ [e])).reserved = (slotActs sessionid tr).reserved := by
      intro hnone
      rw [reserved_slotActs_concat, hnone]
      exact List.append_nil _
    cases Server.exec_backchannelStep hexec with
    | keeps hs hreserves =>
      refine h.append (hunchanged (by rw [hreserves]; rfl)) fun session q hget hq => ?_
      obtain ⟨old, hold, hsame⟩ := hs _ _ hget
      exact h.next old q hold (hsame.symm.trans hq)
    | issues clientid issued hissues hs hreserves =>
      refine h.append (hunchanged (by rw [hreserves]; rfl)) fun session q hget hq => ?_
      rcases hs _ _ hget with ⟨hkey, hone⟩ | ⟨old, hold, hsame⟩
      · -- the session is new, so no id of it has been taken
        have hnew : sessionid ∉ (sessionsIssued tr).map Prod.snd := by
          have hdistinct := (hrun'.sessionHistory hfresh).clients.distinct
          rw [sessionsIssued_append, sessionsIssued_some hissues, List.map_append] at hdistinct
          rw [hkey]
          exact fun hmem => (List.disjoint_of_nodup_append hdistinct) hmem (by simp)
        have hnil : (slotActs sessionid tr).reserved = [] := by
          by_contra hne
          exact hnew (h.known hne)
        rw [hone q hq, hnil]
        rfl
      · exact h.next old q hold (hsame.symm.trans hq)
    | reserves target hreserves hget hs =>
      obtain ⟨session, hget, hseq⟩ := hget
      by_cases hsession : target.sessionid = sessionid
      · rw [hsession] at hget
        refine h.reserve hreserves hsession hget hseq (hsessions.slots.known _ _ hget) ?_
        intro session' q hget' hq
        obtain ⟨old, -, hsame⟩ := hs _ _ hget'
        rw [if_pos hsession.symm] at hsame
        exact Option.some.inj (hq.symm.trans hsame)
      · refine h.append (hunchanged (by simp [hreserves, Option.filter, hsession])) ?_
        intro session' q hget' hq
        obtain ⟨old, hold, hsame⟩ := hs _ _ hget'
        rw [if_neg (Ne.symm hsession)] at hsame
        exact h.next old q hold (hsame.symm.trans hq)

end

/-- **The callback slot is used in order.** Let requests run in any interleaving that use callback
slots only by recalling. If a recall takes an id of the session only when every id taken before
has had its reply or its timeout, and each callback can be handed to its connection, then the
callbacks handed over for the session carry the ids one, two, three and so on, and each is handed
over only after every one before it was answered or timed out. -/
theorem callback_slot_order {H α : Type} [DecidableEq H] {backend : Backend H} {boot : Boot}
    {threads : List (Request H α)} {tr : Trace H} {c : Machine H α}
    (hthreads : ∀ p ∈ threads, CallsBackByRecall p)
    (hrun : (Server.system backend).Run ⟨Server.new H boot, threads⟩ tr c)
    (hfresh : CountersFresh tr) (sessionid : Sessionid4)
    (hone : (slotActs sessionid tr).OneAtATime) :
    (slotActs sessionid tr).handedOver.map (·.sequenceid) =
      (List.range (slotActs sessionid tr).handedOver.length).map callbackSequenceid ∧
    ∀ pre t x post, slotActs sessionid tr = pre ++ (t, .handOver x) :: post →
      ∀ pre' u y post', pre = pre' ++ (u, .handOver y) :: post' → (u, .reply y) ∈ post' := by
  obtain ⟨turn, hturn⟩ := hrun.inTurn hthreads hone
  refine ⟨?_, fun pre t x post hsplit pre' u y post' hpre => hturn.spaced hsplit hpre⟩
  have htaken := (hrun.callbackHistory hfresh sessionid).taken
  -- what is handed over is the beginning of what was taken
  have hreserved := hturn.reserved_eq
  rw [hreserved, List.map_append, List.length_append] at htaken
  have hprefix := congrArg (List.take (slotActs sessionid tr).handedOver.length) htaken
  rw [← List.map_take, List.take_range, Nat.min_eq_left (Nat.le_add_right _ _),
    List.take_left' (List.length_map _)] at hprefix
  exact hprefix

namespace Scripted

/-- A world in which every connection takes callbacks and no reply ever comes. -/
def callingAnswer (s : Server Unit) : (c : Call Unit) → c.Ret × Server Unit
  | .sendCallback _ _ _ => (.ok (), s)
  | c => Server.connectedAnswer Backend.single .someDir s c

def calling : (Server.system (Backend.single : Backend Unit)).Resolver where
  answer := callingAnswer
  exec s c := by cases c <;> first | rfl | exact ⟨rfl, rfl⟩

/-- A client with a callback connection gets delegations on two directories. -/
def twoGrants : List Section :=
  [.exchangeId ⟨⟨1, [1]⟩, .none⟩, .createSession (callbackSessionArgs 1 1) 0,
    .grantDirectoryDelegation (.fs 1) 1 none 2 2, .grantDirectoryDelegation (.fs 2) 1 none 2 2]

/-- A recall for a directory that does not wait. -/
def directoryRecall (id : ObjectId) : Request Unit Unit :=
  recallDirectoryDelegations ⟨true, 0, 2, 2⟩ (.fs id) none

def recallThreads : List (Request Unit Unit) :=
  twoGrants.map (Server.sectionThread ()) ++ [directoryRecall 1, directoryRecall 2]

/-- The grants, and then the recalls for the two directories as scheduled. -/
def twoRecalls (schedule : List Nat) :
    Trace Unit × Machine Unit Unit :=
  calling.play ⟨Server.new Unit .fixed, recallThreads⟩ ([0, 1, 2, 3] ++ schedule)

end Scripted

open Scripted

theorem twoRecalls_run (schedule : List Nat) :
    (Server.system Backend.single).Run ⟨Server.new Unit .fixed, recallThreads⟩
      (twoRecalls schedule).1 (twoRecalls schedule).2 :=
  System.Resolver.play_run _ _ _

theorem recallThreads_callBack : ∀ p ∈ recallThreads, CallsBackByRecall p := by
  intro p hp
  rcases List.mem_append.mp hp with hp | hp
  · obtain ⟨q, hq, rfl⟩ := List.mem_map.mp hp
    have hsilent : ∀ q ∈ twoGrants, ∀ r, (Call.guarded q : Call Unit).callbackAct r = none := by
      simp only [twoGrants, List.forall_mem_cons]
      exact ⟨fun _ => rfl, fun _ => rfl, fun _ => rfl, fun _ => rfl, by simp⟩
    exact .silent ⟨hsilent q hq, fun _ _ => True.intro⟩
  · rcases List.mem_pair.mp hp with rfl | rfl
    · exact .recalling _ _ _
    · exact .recalling _ _ _

/-- One recall after the other: the callbacks carry one and two. -/
theorem callback_slot_order_two :
    (slotActs (mintSessionid 1 2)
        (twoRecalls (List.replicate 20 4 ++ List.replicate 20 5)).1).handedOver.map
      (·.sequenceid) = (List.range 2).map callbackSequenceid := by
  have hclients : enrolments (twoRecalls (List.replicate 20 4 ++ List.replicate 20 5)).1 ≤
      2 ^ 64 := by decide +kernel
  have hissued : (sessionsIssued
      (twoRecalls (List.replicate 20 4 ++ List.replicate 20 5)).1).length < 2 ^ 32 := by
    decide +kernel
  have hone : (slotActs (mintSessionid 1 2)
      (twoRecalls (List.replicate 20 4 ++ List.replicate 20 5)).1).OneAtATime := by
    decide +kernel
  have horder := callback_slot_order recallThreads_callBack (twoRecalls_run _)
    ⟨hclients, fun clientid => List.countP_le_length.trans_lt hissued⟩ _ hone
  have hlength : (slotActs (mintSessionid 1 2)
      (twoRecalls (List.replicate 20 4 ++ List.replicate 20 5)).1).handedOver.length = 2 := by
    decide +kernel
  rw [hlength] at horder
  exact horder.1

/-- Both recalls take an id before either hands its callback over: the second callback goes first,
and the first follows while the second has no reply. -/
theorem callback_slot_race :
    let run := twoRecalls (List.replicate 12 4 ++ List.replicate 13 5 ++ [4])
    (Server.system Backend.single).Run ⟨Server.new Unit .fixed, recallThreads⟩ run.1 run.2 ∧
    (∀ p ∈ recallThreads, CallsBackByRecall p) ∧
    (slotActs (mintSessionid 1 2) run.1).handedOver.map (·.sequenceid) = [2, 1] ∧
    (slotActs (mintSessionid 1 2) run.1).countP (·.2.isReply) = 0 :=
  ⟨twoRecalls_run _, recallThreads_callBack, by decide +kernel, by decide +kernel⟩

end EmbedNfs

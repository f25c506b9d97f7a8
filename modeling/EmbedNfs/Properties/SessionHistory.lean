import EmbedNfs.Effects.Sessions
import EmbedNfs.Lib.Counter

/-!
# Clients, sessions and slots over a run

What a trace says about the three kinds of counters. The client ids in the tables were given
out by the first counter, the sessions of a client by the client's counter, and the requests
that a slot has executed by the slot's counter. As long as the counter of client ids has not
come round, and no client has come round with its sessions, no session id is issued twice, so
the slots of a new session have no history.
-/

namespace EmbedNfs

section

variable {H : Type}

/-- How many EXCHANGE_IDs and SETCLIENTIDs a trace has, each of which allocates at most one client
id. -/
def enrolments (tr : Trace H) : Nat := tr.countP fun e => e.call.enrols

/-- The sessions issued in a trace, with their clients. -/
def sessionsIssued (tr : Trace H) : List (Clientid4 × Sessionid4) :=
  tr.filterMap fun e => e.call.issues e.answer

/-- How many sessions were issued to a client. -/
def sessionsOf (clientid : Clientid4) (tr : Trace H) : Nat :=
  (sessionsIssued tr).countP fun p => p.1 = clientid

/-- The sequence ids that a slot has executed, in order. -/
def executions (sessionid : Sessionid4) (slotid : Slotid4) (tr : Trace H) : List Sequenceid4 :=
  ((tr.filterMap fun e => e.call.executes e.answer).filter
    fun x => x.1 = sessionid ∧ x.2.1 = slotid).map fun x => x.2.2

variable {tr tr' : Trace H} {e : ServerEvent H} {clientid : Clientid4}
  {sessionid : Sessionid4} {slotid : Slotid4}

theorem enrolments_append : enrolments (tr ++ tr') = enrolments tr + enrolments tr' :=
  List.countP_append

theorem sessionsIssued_append :
    sessionsIssued (tr ++ tr') = sessionsIssued tr ++ sessionsIssued tr' :=
  List.filterMap_append

theorem sessionsOf_append :
    sessionsOf clientid (tr ++ tr') = sessionsOf clientid tr + sessionsOf clientid tr' := by
  simp only [sessionsOf, sessionsIssued_append, List.countP_append]

theorem executions_append :
    executions sessionid slotid (tr ++ tr') =
      executions sessionid slotid tr ++ executions sessionid slotid tr' := by
  simp only [executions, List.filterMap_append, List.filter_append, List.map_append]

theorem sessionsIssued_none (h : e.call.issues e.answer = none) : sessionsIssued [e] = [] := by
  simp [sessionsIssued, h]

theorem sessionsIssued_some {p : Clientid4 × Sessionid4} (h : e.call.issues e.answer = some p) :
    sessionsIssued [e] = [p] := by
  simp [sessionsIssued, h]

theorem executions_none (h : e.call.executes e.answer = none) :
    executions sessionid slotid [e] = [] := by
  simp [executions, h]

theorem executions_some {k : Sessionid4} {i : Slotid4} {q : Sequenceid4}
    (h : e.call.executes e.answer = some (k, i, q)) :
    executions sessionid slotid [e] = if k = sessionid ∧ i = slotid then [q] else [] := by
  by_cases hk : k = sessionid ∧ i = slotid
  · simp [executions, h, hk]
  · simp [executions, h, hk]

theorem executions_cons_some {q : Sequenceid4}
    (h : e.call.executes e.answer = some (sessionid, slotid, q)) :
    executions sessionid slotid (e :: tr) = q :: executions sessionid slotid tr := by
  simp [executions, h]

/-! ## Clients -/

/-- The counters of clients and of their sessions agree with the trace, and no session id was
issued twice. -/
structure ClientHistory (tr : Trace H) (s : StateManager) : Prop where
  enrolled : ∃ n ≤ enrolments tr, s.nextClientid = BitVec.ofNat 64 (1 + n) ∧
    (∀ k client, s.inner.clients.get k = some client → ∃ j < n, k = BitVec.ofNat 64 (1 + j)) ∧
    ∀ p ∈ sessionsIssued tr, ∃ j < n, p.1 = BitVec.ofNat 64 (1 + j)
  counter : ∀ k client, s.inner.clients.get k = some client →
    client.sequenceId = BitVec.ofNat 32 (1 + sessionsOf k tr)
  minted : ∀ p ∈ sessionsIssued tr, ∃ j < sessionsOf p.1 tr,
    p.2 = mintSessionid p.1 (BitVec.ofNat 32 (2 + j))
  distinct : ((sessionsIssued tr).map Prod.snd).Nodup

theorem mintSessionid_inj {k k' : Clientid4} {q q' : Sequenceid4}
    (h : mintSessionid k q = mintSessionid k' q') : k = k' ∧ q = q' := by
  unfold mintSessionid at h
  have hleft := congrArg (fun x => x.extractLsb' 64 64) h
  have hright := congrArg (fun x => (x.setWidth 64).setWidth 32) h
  simp only [BitVec.extractLsb'_append_eq_left] at hleft
  simp only [BitVec.setWidth_append_eq_right] at hright
  exact ⟨hleft, by simpa using hright⟩

namespace ClientHistory

variable {s s' : StateManager}

theorem of_subBy (h : ClientHistory tr s) (hnext : s'.nextClientid = s.nextClientid)
    (hs : s'.inner.clients.SubBy ClientState.sequenceId s.inner.clients) :
    ClientHistory tr s' where
  enrolled := by
    obtain ⟨n, hn, hnext', hclients, hissued⟩ := h.enrolled
    refine ⟨n, hn, hnext.trans hnext', ?_, hissued⟩
    intro k client hk
    obtain ⟨old, hold, -⟩ := hs k client hk
    exact hclients k old hold
  counter k client hk := by
    obtain ⟨old, hold, hseq⟩ := hs k client hk
    exact hseq.trans (h.counter k old hold)
  minted := h.minted
  distinct := h.distinct

theorem of_fades (h : ClientHistory tr s) (hs : s'.Fades s) : ClientHistory tr s' :=
  h.of_subBy hs.nextClientid hs.inner.clients

theorem append (h : ClientHistory tr s) (he : e.call.issues e.answer = none) :
    ClientHistory (tr ++ [e]) s := by
  have hissued : sessionsIssued (tr ++ [e]) = sessionsIssued tr := by
    rw [sessionsIssued_append, sessionsIssued_none he, List.append_nil]
  have hof : ∀ k, sessionsOf k (tr ++ [e]) = sessionsOf k tr := by
    intro k
    simp only [sessionsOf, hissued]
  refine ⟨?_, ?_, ?_, ?_⟩
  · obtain ⟨n, hn, hnext, hclients, hold⟩ := h.enrolled
    refine ⟨n, ?_, hnext, hclients, ?_⟩
    · rw [enrolments_append]
      omega
    · rwa [hissued]
  · intro k client hk
    rw [hof]
    exact h.counter k client hk
  · intro p hp
    rw [hissued] at hp
    rw [hof]
    exact h.minted p hp
  · rw [hissued]
    exact h.distinct

theorem enrol (h : ClientHistory tr s) (hs : s'.Enrols s) (he : e.call.issues e.answer = none)
    (henrols : e.call.enrols = true) (hbound : enrolments (tr ++ [e]) ≤ 2 ^ 64) :
    ClientHistory (tr ++ [e]) s' := by
  obtain ⟨n, hn, hnext, hclients, hissued⟩ := h.enrolled
  have hcount : enrolments (tr ++ [e]) = enrolments tr + 1 := by
    rw [enrolments_append]
    simp [enrolments, henrols]
  have hfresh : sessionsOf s.nextClientid tr = 0 := by
    rw [sessionsOf, List.countP_eq_zero]
    intro p hp heq
    obtain ⟨j, hj, hpj⟩ := hissued p hp
    have hid : BitVec.ofNat 64 (1 + j) = BitVec.ofNat 64 (1 + n) := by
      rw [← hpj, ← hnext]
      simpa using heq
    have := ofNat_add_injective (by omega) (by omega) hid
    omega
  have hold := h.append he
  have hof : ∀ k, sessionsOf k (tr ++ [e]) = sessionsOf k tr := by
    intro k
    simp only [sessionsOf, sessionsIssued_append, sessionsIssued_none he, List.append_nil]
  refine ⟨⟨n + 1, by omega, ?_, ?_, ?_⟩, ?_, hold.minted, hold.distinct⟩
  · rw [hs.nextClientid, hnext, ofNat_succ]
    rfl
  · intro k client hk
    rcases hs.clients k client hk with ⟨hkey, -⟩ | ⟨old, hold', -⟩
    · exact ⟨n, by omega, hkey.trans hnext⟩
    · obtain ⟨j, hj, hkj⟩ := hclients k old hold'
      exact ⟨j, by omega, hkj⟩
  · intro p hp
    rw [sessionsIssued_append, sessionsIssued_none he, List.append_nil] at hp
    obtain ⟨j, hj, hpj⟩ := hissued p hp
    exact ⟨j, by omega, hpj⟩
  · intro k client hk
    rw [hof]
    rcases hs.clients k client hk with ⟨hkey, hseq⟩ | ⟨old, hold', hseq⟩
    · rw [hseq, hkey, hfresh]
      rfl
    · rw [hseq]
      exact h.counter k old hold'

theorem issue (h : ClientHistory tr s) (hs : s'.Issues clientid sessionid s)
    (he : e.call.issues e.answer = some (clientid, sessionid))
    (hbound : sessionsOf clientid (tr ++ [e]) < 2 ^ 32) : ClientHistory (tr ++ [e]) s' := by
  obtain ⟨n, hn, hnext, hclients, hissued⟩ := h.enrolled
  obtain ⟨client, hclient, hid⟩ := hs.issued
  have hof : ∀ k, sessionsOf k (tr ++ [e]) =
      sessionsOf k tr + if clientid = k then 1 else 0 := by
    intro k
    rw [sessionsOf_append]
    congr 1
    simp [sessionsOf, sessionsIssued_some he, List.countP_cons]
  have hself : sessionsOf clientid (tr ++ [e]) = sessionsOf clientid tr + 1 := by
    rw [hof, if_pos rfl]
  have hmint : sessionid = mintSessionid clientid (BitVec.ofNat 32 (2 + sessionsOf clientid tr)) := by
    rw [hid, h.counter clientid client hclient, ofNat_succ,
      show 2 + sessionsOf clientid tr = 1 + sessionsOf clientid tr + 1 by omega]
  have hmem : ∀ p ∈ sessionsIssued (tr ++ [e]), p ∈ sessionsIssued tr ∨ p = (clientid, sessionid) := by
    intro p hp
    rw [sessionsIssued_append, sessionsIssued_some he] at hp
    simpa using hp
  refine ⟨⟨n, ?_, hs.nextClientid.trans hnext, ?_, ?_⟩, ?_, ?_, ?_⟩
  · rw [enrolments_append]
    omega
  · intro k client' hk
    obtain ⟨old, hold, -⟩ := hs.clients k client' hk
    exact hclients k old hold
  · intro p hp
    rcases hmem p hp with hp | rfl
    · exact hissued p hp
    · exact hclients clientid client hclient
  · intro k client' hk
    obtain ⟨old, hold, hseq⟩ := hs.clients k client' hk
    rw [hseq, hof, h.counter k old hold]
    by_cases hk' : k = clientid
    · rw [if_pos hk', if_pos hk'.symm, ← Nat.add_assoc, ofNat_succ]
    · rw [if_neg hk', if_neg (Ne.symm hk')]
      rfl
  · intro p hp
    rcases hmem p hp with hp | rfl
    · obtain ⟨j, hj, hpj⟩ := h.minted p hp
      exact ⟨j, by rw [hof]; omega, hpj⟩
    · exact ⟨sessionsOf clientid tr, by rw [hself]; omega, hmint⟩
  · rw [sessionsIssued_append, sessionsIssued_some he, List.map_append, List.nodup_append]
    refine ⟨h.distinct, by simp, ?_⟩
    intro x hx y hy heq
    simp only [List.map_cons, List.map_nil, List.mem_singleton] at hy
    obtain ⟨p, hp, rfl⟩ := List.mem_map.mp hx
    obtain ⟨j, hj, hpj⟩ := h.minted p hp
    -- An equal id would be of the same client, with an earlier number.
    have hids := mintSessionid_inj (hpj.symm.trans (heq.trans (hy.trans hmint)))
    rw [hids.1] at hj
    have := ofNat_add_injective (by omega) (by omega) hids.2
    omega

theorem not_issued (h : ClientHistory tr s) (hs : s'.Issues clientid sessionid s)
    (he : e.call.issues e.answer = some (clientid, sessionid))
    (hbound : sessionsOf clientid (tr ++ [e]) < 2 ^ 32) :
    sessionid ∉ (sessionsIssued tr).map Prod.snd := by
  have hdistinct := (h.issue hs he hbound).distinct
  rw [sessionsIssued_append, sessionsIssued_some he, List.map_append,
    List.nodup_append] at hdistinct
  intro hmem
  exact hdistinct.2.2 _ hmem _ (List.mem_singleton.mpr rfl) rfl

theorem of_updatesSlots {f : List SlotState → List SlotState} (h : ClientHistory tr s)
    (hs : s'.UpdatesSlots sessionid f s) : ClientHistory tr s' :=
  h.of_subBy hs.nextClientid hs.clients

end ClientHistory

/-! ## Slots -/

/-- Sessions have been issued, and the counter of every slot agrees with what the slot has
executed. -/
structure SlotHistory (tr : Trace H) (s : StateManager) : Prop where
  known : ∀ k session, s.inner.sessions.get k = some session →
    k ∈ (sessionsIssued tr).map Prod.snd
  executed : ∀ k i, executions k i tr ≠ [] → k ∈ (sessionsIssued tr).map Prod.snd
  counted : ∀ k i, ∃ n, executions k i tr = counted 32 1 n ∧
    ∀ session slot, s.inner.sessions.get k = some session →
      session.slots[i.toNat]? = some slot → slot.sequenceId = BitVec.ofNat 32 (1 + n)

namespace SlotHistory

variable {s s' : StateManager}

theorem of_fades (h : SlotHistory tr s) (hs : s'.Fades s) : SlotHistory tr s' where
  known k session hk := by
    obtain ⟨old, hold, -⟩ := hs.inner.sessions k session hk
    exact h.known k old hold
  executed := h.executed
  counted k i := by
    obtain ⟨n, hexecuted, hslots⟩ := h.counted k i
    refine ⟨n, hexecuted, fun session slot hk hslot => ?_⟩
    obtain ⟨old, hold, heq⟩ := hs.inner.sessions k session hk
    exact hslots old slot hold (heq ▸ hslot)

theorem append (h : SlotHistory tr s) (hissues : e.call.issues e.answer = none)
    (hexecutes : e.call.executes e.answer = none) : SlotHistory (tr ++ [e]) s := by
  have hissued : sessionsIssued (tr ++ [e]) = sessionsIssued tr := by
    rw [sessionsIssued_append, sessionsIssued_none hissues, List.append_nil]
  have hexec : ∀ k i, executions k i (tr ++ [e]) = executions k i tr := by
    intro k i
    rw [executions_append, executions_none hexecutes, List.append_nil]
  refine ⟨?_, ?_, ?_⟩
  · rw [hissued]
    exact h.known
  · intro k i hne
    rw [hexec] at hne
    rw [hissued]
    exact h.executed k i hne
  · intro k i
    rw [hexec]
    exact h.counted k i

theorem issue (h : SlotHistory tr s) (hs : s'.Issues clientid sessionid s)
    (he : e.call.issues e.answer = some (clientid, sessionid))
    (hexecutes : e.call.executes e.answer = none)
    (hnew : sessionid ∉ (sessionsIssued tr).map Prod.snd) : SlotHistory (tr ++ [e]) s' := by
  have hissued : (sessionsIssued (tr ++ [e])).map Prod.snd =
      (sessionsIssued tr).map Prod.snd ++ [sessionid] := by
    rw [sessionsIssued_append, sessionsIssued_some he, List.map_append]
    rfl
  have hexec : ∀ k i, executions k i (tr ++ [e]) = executions k i tr := by
    intro k i
    rw [executions_append, executions_none hexecutes, List.append_nil]
  refine ⟨?_, ?_, ?_⟩
  · intro k session hk
    rw [hissued, List.mem_append]
    rcases hs.sessions k session hk with ⟨hkey, -⟩ | ⟨old, hold, -⟩
    · exact Or.inr (List.mem_singleton.mpr hkey)
    · exact Or.inl (h.known k old hold)
  · intro k i hne
    rw [hexec] at hne
    rw [hissued]
    exact List.mem_append_left _ (h.executed k i hne)
  · intro k i
    rw [hexec]
    obtain ⟨n, hexecuted, hslots⟩ := h.counted k i
    refine ⟨n, hexecuted, fun session slot hk hslot => ?_⟩
    rcases hs.sessions k session hk with ⟨hkey, hfresh⟩ | ⟨old, hold, heq⟩
    · -- The new session: nothing was executed on its id.
      have hnil : executions k i tr = [] := by
        by_contra hne
        exact hnew (hkey ▸ h.executed k i hne)
      have hn : n = 0 := by
        have hlength := congrArg List.length (hnil.symm.trans hexecuted)
        simpa [EmbedNfs.counted] using hlength.symm
      rw [hfresh slot (List.mem_of_getElem? hslot), hn]
      rfl
    · exact hslots old slot hold (heq ▸ hslot)

theorem execute {args : SequenceArgs4} {fingerprint : Bytes} {session : SessionState}
    {slot : SlotState} (h : SlotHistory tr s)
    (hsession : s.inner.sessions.get args.sessionid = some session)
    (hslot : session.slots[args.slotid.toNat]? = some slot)
    (hseq : slot.sequenceId = args.sequenceid)
    (hs : s'.UpdatesSlots args.sessionid
      (·.set args.slotid.toNat (SlotState.executing args.sequenceid fingerprint)) s)
    (hissues : e.call.issues e.answer = none)
    (he : e.call.executes e.answer = some (args.sessionid, args.slotid, args.sequenceid)) :
    SlotHistory (tr ++ [e]) s' := by
  have hissued : sessionsIssued (tr ++ [e]) = sessionsIssued tr := by
    rw [sessionsIssued_append, sessionsIssued_none hissues, List.append_nil]
  have hexec : ∀ k i, executions k i (tr ++ [e]) = executions k i tr ++
      if args.sessionid = k ∧ args.slotid = i then [args.sequenceid] else [] := by
    intro k i
    rw [executions_append, executions_some he]
  refine ⟨?_, ?_, ?_⟩
  · intro k session' hk
    obtain ⟨old, hold, -⟩ := hs.sessions k session' hk
    rw [hissued]
    exact h.known k old hold
  · intro k i hne
    rw [hissued]
    rw [hexec] at hne
    by_cases hki : args.sessionid = k ∧ args.slotid = i
    · exact hki.1 ▸ h.known _ session hsession
    · rw [if_neg hki, List.append_nil] at hne
      exact h.executed k i hne
  · intro k i
    rw [hexec]
    obtain ⟨n, hexecuted, hslots⟩ := h.counted k i
    by_cases hki : args.sessionid = k ∧ args.slotid = i
    · obtain ⟨rfl, rfl⟩ := hki
      have hn := hslots session slot hsession hslot
      refine ⟨n + 1, ?_, fun session' slot' hk hslot' => ?_⟩
      · rw [if_pos ⟨rfl, rfl⟩, hexecuted, counted_succ, ← hn, hseq]
      · obtain ⟨old, hold, heq⟩ := hs.sessions _ session' hk
        cases hsession.symm.trans hold
        rw [if_pos rfl] at heq
        have hlt := (List.getElem?_eq_some_iff.mp hslot).1
        rw [heq, List.getElem?_set_self hlt] at hslot'
        cases hslot'
        show args.sequenceid + 1 = _
        rw [← hseq, hn, ofNat_succ]
        rfl
    · refine ⟨n, by rw [if_neg hki, List.append_nil, hexecuted], fun session' slot' hk hslot' => ?_⟩
      obtain ⟨old, hold, heq⟩ := hs.sessions k session' hk
      refine hslots old slot' hold ?_
      by_cases hk' : k = args.sessionid
      · have hi : args.slotid.toNat ≠ i.toNat := by
          intro hi
          exact hki ⟨hk'.symm, BitVec.eq_of_toNat_eq hi⟩
        rw [if_pos hk'] at heq
        rwa [heq, List.getElem?_set_ne hi] at hslot'
      · rw [if_neg hk'] at heq
        exact heq ▸ hslot'

theorem store {token : SequenceCacheToken} {response : Bytes} (h : SlotHistory tr s)
    (hs : s'.UpdatesSlots token.sessionid (·.modify token.slotid.toNat
      (SlotState.stored token.fingerprint response)) s) : SlotHistory tr s' where
  known k session hk := by
    obtain ⟨old, hold, -⟩ := hs.sessions k session hk
    exact h.known k old hold
  executed := h.executed
  counted k i := by
    obtain ⟨n, hexecuted, hslots⟩ := h.counted k i
    refine ⟨n, hexecuted, fun session slot hk hslot => ?_⟩
    obtain ⟨old, hold, heq⟩ := hs.sessions k session hk
    by_cases hk' : k = token.sessionid
    · rw [if_pos hk'] at heq
      rw [heq, List.getElem?_modify] at hslot
      obtain ⟨slot', hslot', rfl⟩ := Option.map_eq_some_iff.mp hslot
      have hseq := hslots old slot' hold hslot'
      by_cases hi : token.slotid.toNat = i.toNat
      · simpa [hi, SlotState.stored] using hseq
      · simpa [hi] using hseq
    · rw [if_neg hk'] at heq
      exact hslots old slot hold (heq ▸ hslot)

end SlotHistory

/-! ## Runs -/

/-- The two histories together. -/
structure SessionHistory (tr : Trace H) (s : StateManager) : Prop where
  clients : ClientHistory tr s
  slots : SlotHistory tr s

/-- The counters have not come round: there were at most `2 ^ 64` EXCHANGE_IDs and SETCLIENTIDs, and
fewer than `2 ^ 32` sessions were issued to any client. -/
structure CountersFresh (tr : Trace H) : Prop where
  clients : enrolments tr ≤ 2 ^ 64
  sessions : ∀ clientid, sessionsOf clientid tr < 2 ^ 32

theorem CountersFresh.of_append (h : CountersFresh (tr ++ tr')) : CountersFresh tr where
  clients := by
    have := h.clients
    rw [enrolments_append] at this
    omega
  sessions clientid := by
    have := h.sessions clientid
    rw [sessionsOf_append] at this
    omega

namespace SessionHistory

theorem of_fades {s s' : StateManager} (h : SessionHistory tr s) (hs : s'.Fades s) :
    SessionHistory tr s' :=
  ⟨h.clients.of_fades hs, h.slots.of_fades hs⟩

theorem append {s s' : StateManager} (h : SessionHistory tr s) (hs : s'.Fades s)
    (hissues : e.call.issues e.answer = none) (hexecutes : e.call.executes e.answer = none) :
    SessionHistory (tr ++ [e]) s' :=
  ⟨(h.clients.append hissues).of_fades hs, (h.slots.append hissues hexecutes).of_fades hs⟩

theorem enrol {s s' : StateManager} (h : SessionHistory tr s) (hs : s'.Enrols s)
    (hissues : e.call.issues e.answer = none) (hexecutes : e.call.executes e.answer = none)
    (henrols : e.call.enrols = true) (hbound : CountersFresh (tr ++ [e])) :
    SessionHistory (tr ++ [e]) s' := by
  refine ⟨h.clients.enrol hs hissues henrols hbound.clients, ?_⟩
  have hslots := h.slots.append hissues hexecutes
  refine ⟨fun k session hk => ?_, hslots.executed, fun k i => ?_⟩
  · obtain ⟨old, hold, -⟩ := hs.sessions k session hk
    exact hslots.known k old hold
  · obtain ⟨n, hexecuted, hseq⟩ := hslots.counted k i
    refine ⟨n, hexecuted, fun session slot hk hslot => ?_⟩
    obtain ⟨old, hold, heq⟩ := hs.sessions k session hk
    exact hseq old slot hold (heq ▸ hslot)

theorem new (boot : Boot) : SessionHistory ([] : Trace H) (.new boot) := by
  refine ⟨⟨⟨0, by simp, rfl, ?_, by simp [sessionsIssued]⟩, ?_, ?_, ?_⟩, ⟨?_, ?_, ?_⟩⟩
  · intro k client hk
    simp [StateManager.new] at hk
  · intro k client hk
    simp [StateManager.new] at hk
  · simp [sessionsIssued]
  · simp [sessionsIssued]
  · intro k session hk
    simp [StateManager.new] at hk
  · simp [executions]
  · intro k i
    refine ⟨0, rfl, fun session slot hk => ?_⟩
    simp [StateManager.new] at hk

variable [DecidableEq H] {backend : Backend H}

/-- **Step lemma.** Every step keeps the histories, as long as the counters are fresh. -/
theorem step {u : Nat} {s s' : Server H} {c : Call H} {r : c.Ret}
    (h : SessionHistory tr s.state) (hexec : (Server.system backend).exec s c r s')
    (hbound : CountersFresh (tr ++ [⟨u, s, c, r, s'⟩])) :
    SessionHistory (tr ++ [⟨u, s, c, r, s'⟩]) s'.state := by
  cases Server.exec_sessionStep hexec with
  | fades hs hissues hexecutes => exact h.append hs hissues hexecutes
  | enrols hs henrols hissues hexecutes => exact h.enrol hs hissues hexecutes henrols hbound
  | issues clientid sessionid hs hissues hexecutes =>
    have hclients := h.clients.issue hs hissues (hbound.sessions _)
    have hnew := h.clients.not_issued hs hissues (hbound.sessions _)
    exact ⟨hclients, h.slots.issue hs hissues hexecutes hnew⟩
  | executes args fingerprint hsession hslot hseq hs hissues hexecutes =>
    exact ⟨(h.clients.append hissues).of_updatesSlots hs,
      h.slots.execute hsession hslot hseq hs hissues hexecutes⟩
  | stores token response hs hstores hissues hexecutes =>
    exact ⟨(h.clients.append hissues).of_updatesSlots hs,
      (h.slots.append hissues hexecutes).store hs⟩

end SessionHistory

/-- **Run lemma.** The histories hold after every run whose counters have stayed fresh. -/
theorem System.Run.sessionHistory [DecidableEq H] {backend : Backend H} {boot : Boot} {α : Type}
    {threads : List (Request H α)} {c : Machine H α}
    (hrun : (Server.system backend).Run ⟨Server.new H boot, threads⟩ tr c)
    (hfresh : CountersFresh tr) : SessionHistory tr c.state.state := by
  refine hrun.invariant_trace (I := fun tr s => CountersFresh tr → SessionHistory tr s.state)
    ?_ ?_ ?_ hfresh
  · intro _
    exact .new boot
  · intro tr s s' h hdrift hfresh
    exact (h hfresh).of_fades hdrift.state.fades
  · intro tr e hexec h hfresh
    exact (h hfresh.of_append).step hexec hfresh

end

end EmbedNfs

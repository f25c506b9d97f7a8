import EmbedNfs.Lib.Slot
import EmbedNfs.Properties.ReplyCache

/-!
# What a slot holds

A slot takes a request while another one is still being executed on it, and a reply is stored
in the slot whoever produced it. If neither happens, the slot is in step with its history: as
long as the request that it accepted last has not stored its reply, the slot says that it is in
progress, and then it holds that reply.
-/

namespace EmbedNfs

section

variable {H : Type}

/-- The thread has stored a reply for the slot. -/
def Finished (k : Sessionid4) (i : Slotid4) (t : Nat) (response : Bytes) (tr : Trace H) : Prop :=
  ∃ f ∈ tr, f.thread = t ∧ ∃ fingerprint, f.call.stores = some (⟨k, i, fingerprint⟩, response)

/-- The slot has accepted the request in the event, and none after it. -/
structure LastAccepted (tr : Trace H) (k : Sessionid4) (i : Slotid4) (q : Sequenceid4)
    (fingerprint : Bytes) (e : ServerEvent H) (since : Trace H) : Prop where
  split : ∃ before, tr = before ++ e :: since
  executes : e.call.executes e.answer = some (k, i, q)
  fingerprint : e.call.fingerprint = some fingerprint
  last : executions k i since = []

/-- The slot is in step with its history. -/
structure SlotReplies (k : Sessionid4) (i : Slotid4) (tr : Trace H) (s : StateManager) : Prop where
  last : ∀ q fingerprint e since session, LastAccepted tr k i q fingerprint e since →
    s.inner.sessions.get k = some session → ∃ slot, session.slots[i.toNat]? = some slot ∧
      ((∀ response, ¬Finished k i e.thread response since) →
        slot = .executing q fingerprint) ∧
      ∀ response, Finished k i e.thread response since →
        slot = SlotState.stored fingerprint response (.executing q fingerprint)
  earlier : ∀ before e since q, tr = before ++ e :: since →
    e.call.executes e.answer = some (k, i, q) → executions k i since ≠ [] →
    ∃ response, Finished k i e.thread response since

variable {tr tr' : Trace H} {e f : ServerEvent H} {k : Sessionid4}
  {i : Slotid4} {q : Sequenceid4} {fingerprint response : Bytes} {t : Nat}
  {s s' : StateManager}

theorem Call.fingerprint_of_executes {c : Call H} {r : c.Ret}
    {x : Sessionid4 × Slotid4 × Sequenceid4} (h : c.executes r = some x) :
    ∃ fingerprint, c.fingerprint = some fingerprint := by
  cases c with
  | guarded q =>
    cases q with
    | prepareSequence args fingerprint conn => exact ⟨fingerprint, rfl⟩
    | _ => cases h
  | _ => cases h

theorem Finished.append (h : Finished k i t response tr) : Finished k i t response (tr ++ tr') := by
  obtain ⟨f, hf, hstores⟩ := h
  exact ⟨f, List.mem_append_left _ hf, hstores⟩

theorem finished_concat :
    Finished k i t response (tr ++ [f]) ↔ Finished k i t response tr ∨
      f.thread = t ∧ ∃ fingerprint, f.call.stores = some (⟨k, i, fingerprint⟩, response) := by
  simp [Finished, or_and_right, exists_or]

theorem slot_of_same {slot executing : SlotState} {stored : Bytes → SlotState}
    (hsame : ∀ response, Finished k i t response tr' ↔ Finished k i t response tr)
    (h : ((∀ response, ¬Finished k i t response tr) → slot = executing) ∧
      ∀ response, Finished k i t response tr → slot = stored response) :
    ((∀ response, ¬Finished k i t response tr') → slot = executing) ∧
      ∀ response, Finished k i t response tr' → slot = stored response := by
  simpa only [hsame] using h

namespace LastAccepted

theorem executions_ne (h : LastAccepted tr k i q fingerprint e tr') : executions k i tr ≠ [] := by
  obtain ⟨before, rfl⟩ := h.split
  rw [executions_append, executions_cons_some h.executes]
  simp

theorem unique {q' : Sequenceid4} {fingerprint' : Bytes} {since since' : Trace H}
    (h : LastAccepted tr k i q fingerprint e since)
    (h' : LastAccepted tr k i q' fingerprint' f since') : e = f ∧ since = since' := by
  obtain ⟨before, rfl⟩ := h.split
  obtain ⟨before', heq⟩ := h'.split
  rcases List.append_eq_append_iff.mp heq with ⟨c, -, hc⟩ | ⟨c, -, hc⟩
  · cases c with
    | nil =>
      cases hc
      exact ⟨rfl, rfl⟩
    | cons x c =>
      -- The second request came after the first.
      rw [List.cons_append] at hc
      obtain ⟨-, hsince⟩ := List.cons.inj hc
      have hlast := h.last
      rw [hsince, executions_append, executions_cons_some h'.executes] at hlast
      simp at hlast
  · cases c with
    | nil =>
      cases hc
      exact ⟨rfl, rfl⟩
    | cons x c =>
      rw [List.cons_append] at hc
      obtain ⟨-, hsince⟩ := List.cons.inj hc
      have hlast := h'.last
      rw [hsince, executions_append, executions_cons_some h.executes] at hlast
      simp at hlast

theorem of_concat (h : LastAccepted (tr ++ [f]) k i q fingerprint e tr')
    (hf : ∀ q', f.call.executes f.answer ≠ some (k, i, q')) :
    ∃ since, tr' = since ++ [f] ∧ LastAccepted tr k i q fingerprint e since := by
  obtain ⟨before, heq⟩ := h.split
  rcases concat_eq_append_cons heq with ⟨-, -, rfl⟩ | ⟨since, rfl, htr⟩
  · exact absurd h.executes (hf q)
  · refine ⟨since, rfl, ⟨before, htr⟩, h.executes, h.fingerprint, ?_⟩
    have hlast := h.last
    rw [executions_append] at hlast
    exact (List.append_eq_nil_iff.mp hlast).1

end LastAccepted

namespace SlotReplies

theorem of_sessions (h : SlotReplies k i tr s)
    (hsessions : ∀ session, executions k i tr ≠ [] → s'.inner.sessions.get k = some session →
      ∃ old, s.inner.sessions.get k = some old ∧ session.slots = old.slots) :
    SlotReplies k i tr s' where
  last q fingerprint e since session hlast hsession := by
    obtain ⟨old, hold, hslots⟩ := hsessions session hlast.executions_ne hsession
    rw [hslots]
    exact h.last q fingerprint e since old hlast hold
  earlier := h.earlier

theorem of_fades (h : SlotReplies k i tr s) (hs : s'.Fades s) : SlotReplies k i tr s' :=
  h.of_sessions fun session _ hk => hs.inner.sessions k session hk

theorem append (h : SlotReplies k i tr s) (hexecutes : f.call.executes f.answer = none)
    (hstores : ∀ token response session, f.call.stores = some (token, response) →
      s.inner.sessions.get token.sessionid = some session →
      session.slots[token.slotid.toNat]? = none) : SlotReplies k i (tr ++ [f]) s where
  last q fingerprint e since session hlast hsession := by
    obtain ⟨since, rfl, hold⟩ := hlast.of_concat fun q' => by rw [hexecutes]; simp
    obtain ⟨slot, hslot, hreplies⟩ := h.last q fingerprint e since session hold hsession
    refine ⟨slot, hslot, slot_of_same (fun response => ?_) hreplies⟩
    rw [finished_concat]
    refine or_iff_left ?_
    rintro ⟨-, fingerprint', hf⟩
    have hnone := hstores _ _ session hf hsession
    exact absurd (hslot.symm.trans hnone) (by simp)
  earlier before e since q heq hexec hne := by
    rcases concat_eq_append_cons heq with ⟨rfl, -, rfl⟩ | ⟨since, rfl, htr⟩
    · rw [hexecutes] at hexec
      cases hexec
    · rw [executions_append, executions_none hexecutes, List.append_nil] at hne
      obtain ⟨response, hfinished⟩ := h.earlier before e since q htr hexec hne
      exact ⟨response, hfinished.append⟩

theorem issue (h : SlotReplies k i tr s) {clientid : Clientid4} {sessionid : Sessionid4}
    (hslots : SlotHistory tr s) (hs : s'.Issues clientid sessionid s)
    (hnew : sessionid ∉ (sessionsIssued tr).map Prod.snd) : SlotReplies k i tr s' := by
  refine h.of_sessions fun session hne hk => ?_
  rcases hs.sessions k session hk with ⟨rfl, -⟩ | hold
  · exact absurd (hslots.executed k i hne) hnew
  · exact hold

theorem execute {args : SequenceArgs4} {session : SessionState} {slot : SlotState}
    (h : SlotReplies k i tr s) (hsession : s.inner.sessions.get args.sessionid = some session)
    (hslot : session.slots[args.slotid.toNat]? = some slot)
    (hidle : args.sessionid = k ∧ args.slotid = i → slot.inProgress = none)
    (hs : s'.UpdatesSlots args.sessionid
      (·.set args.slotid.toNat (SlotState.executing args.sequenceid fingerprint)) s)
    (hexecutes : f.call.executes f.answer = some (args.sessionid, args.slotid, args.sequenceid))
    (hfingerprint : f.call.fingerprint = some fingerprint) (hstores : f.call.stores = none) :
    SlotReplies k i (tr ++ [f]) s' where
  last q fingerprint' e since session' hlast hsession' := by
    obtain ⟨old, hold, hslots⟩ := hs.sessions k session' hsession'
    by_cases hki : k = args.sessionid ∧ i = args.slotid
    · obtain ⟨rfl, rfl⟩ := hki
      -- The event itself is the last one.
      have hself : LastAccepted (tr ++ [f]) args.sessionid args.slotid args.sequenceid fingerprint
          f [] := ⟨⟨tr, rfl⟩, hexecutes, hfingerprint, rfl⟩
      obtain ⟨rfl, rfl⟩ := hlast.unique hself
      cases hexecutes.symm.trans hlast.executes
      cases hfingerprint.symm.trans hlast.fingerprint
      cases hsession.symm.trans hold
      have hlt := (List.getElem?_eq_some_iff.mp hslot).1
      rw [hslots, if_pos rfl]
      refine ⟨_, List.getElem?_set_self hlt, fun _ => rfl, fun response hfinished => ?_⟩
      obtain ⟨f', hf', -⟩ := hfinished
      cases hf'
    · obtain ⟨since, rfl, hlast'⟩ := hlast.of_concat fun q' hq' => by
        rw [hexecutes] at hq'
        cases hq'
        exact hki ⟨rfl, rfl⟩
      obtain ⟨slot', hslot', hreplies⟩ := h.last q fingerprint' e since old hlast' hold
      refine ⟨slot', ?_, slot_of_same (fun response => ?_) hreplies⟩
      · rw [hslots]
        split
        · rename_i hk
          have hi : args.slotid.toNat ≠ i.toNat := fun hi =>
            hki ⟨hk, (BitVec.eq_of_toNat_eq hi).symm⟩
          rw [List.getElem?_set_ne hi, hslot']
        · exact hslot'
      · rw [finished_concat, hstores]
        simp
  earlier before e since q heq hexec hne := by
    rcases concat_eq_append_cons heq with ⟨rfl, -, rfl⟩ | ⟨since, rfl, htr⟩
    · exact absurd rfl hne
    · suffices hfinished : ∃ response, Finished k i e.thread response since by
        obtain ⟨response, hfinished⟩ := hfinished
        exact ⟨response, hfinished.append⟩
      by_cases hempty : executions k i since = []
      · -- It was the last one, and nothing is in progress any more.
        by_contra hnot
        rw [executions_append, hempty, List.nil_append, executions_some hexecutes] at hne
        split at hne
        · rename_i hki
          obtain ⟨rfl, rfl⟩ := hki
          obtain ⟨fingerprint', hfingerprint'⟩ := Call.fingerprint_of_executes hexec
          obtain ⟨slot', hslot', hunfinished, -⟩ := h.last q fingerprint' e since session
            ⟨⟨before, htr⟩, hexec, hfingerprint', hempty⟩ hsession
          cases hslot.symm.trans hslot'
          have hnone := hidle ⟨rfl, rfl⟩
          rw [hunfinished fun response hfin => hnot ⟨response, hfin⟩] at hnone
          cases hnone
        · exact hne rfl
      · exact h.earlier before e since q htr hexec hempty

/-- The request that stores its reply is the one that the slot has accepted last. -/
theorem storer_last {token : SequenceCacheToken}
    (h : SlotReplies token.sessionid token.slotid tr s)
    (haccepted : ∃ e ∈ tr, e.thread = t ∧ e.call.fingerprint = some token.fingerprint ∧
      ∃ q, e.call.executes e.answer = some (token.sessionid, token.slotid, q))
    (honce : ∀ f' ∈ tr, f'.thread = t → f'.call.stores = none) :
    ∃ e since q, e.thread = t ∧
      LastAccepted tr token.sessionid token.slotid q token.fingerprint e since ∧
      ∀ response, ¬Finished token.sessionid token.slotid e.thread response since := by
  obtain ⟨e, he, hthread, hfingerprint, q, hexec⟩ := haccepted
  obtain ⟨before, since, htr⟩ := List.append_of_mem he
  have hnot : ∀ response, ¬Finished token.sessionid token.slotid e.thread response since := by
    rintro response ⟨f', hf', ht, fingerprint, hstores'⟩
    have hmem : f' ∈ tr := by
      rw [htr]
      exact List.mem_append_right _ (List.mem_cons_of_mem _ hf')
    rw [honce f' hmem (ht.trans hthread)] at hstores'
    cases hstores'
  refine ⟨e, since, q, hthread, ⟨⟨before, htr⟩, hexec, hfingerprint, ?_⟩, hnot⟩
  by_contra hne
  obtain ⟨response, hfinished⟩ := h.earlier before e since q htr hexec hne
  exact hnot response hfinished

theorem store {token : SequenceCacheToken} (h : SlotReplies k i tr s)
    (hs : s'.UpdatesSlots token.sessionid (·.modify token.slotid.toNat
      (SlotState.stored token.fingerprint response)) s)
    (hstores : f.call.stores = some (token, response))
    (hexecutes : f.call.executes f.answer = none)
    (haccepted : ∃ e ∈ tr, e.thread = f.thread ∧ e.call.fingerprint = some token.fingerprint ∧
      ∃ q, e.call.executes e.answer = some (token.sessionid, token.slotid, q))
    (honce : ∀ f' ∈ tr, f'.thread = f.thread → f'.call.stores = none) :
    SlotReplies k i (tr ++ [f]) s' := by
  refine ⟨fun q fingerprint e since session hlast hsession => ?_,
    fun before e since q heq hexec hne => ?_⟩
  · obtain ⟨since, rfl, hold⟩ := hlast.of_concat fun q' => by rw [hexecutes]; simp
    obtain ⟨session', hsession', hslots⟩ := hs.sessions k session hsession
    obtain ⟨slot, hslot, hunfinished, hfinished⟩ :=
      h.last q fingerprint e since session' hold hsession'
    by_cases hki : k = token.sessionid ∧ i = token.slotid
    · obtain ⟨rfl, rfl⟩ := hki
      obtain ⟨e₀, since₀, q₀, hthread, hlast₀, hnot⟩ := h.storer_last haccepted honce
      obtain ⟨rfl, rfl⟩ := hold.unique hlast₀
      cases hlast₀.executes.symm.trans hold.executes
      cases hlast₀.fingerprint.symm.trans hold.fingerprint
      refine ⟨SlotState.stored token.fingerprint response slot, ?_, fun hnone => ?_,
        fun response' hfin => ?_⟩
      · rw [hslots, if_pos rfl, List.getElem?_modify_eq, hslot]
        rfl
      · exact absurd (finished_concat.mpr (Or.inr ⟨hthread.symm, token.fingerprint, hstores⟩))
          (hnone response)
      · rcases finished_concat.mp hfin with hfin | ⟨-, fingerprint', hstores'⟩
        · exact absurd hfin (hnot response')
        · obtain ⟨-, rfl⟩ := Prod.mk.inj (Option.some.inj (hstores.symm.trans hstores'))
          rw [hunfinished hnot]
    · refine ⟨slot, ?_, slot_of_same (fun response' => ?_) ⟨hunfinished, hfinished⟩⟩
      · rw [hslots]
        split
        · rename_i hk
          have hi : token.slotid.toNat ≠ i.toNat := fun hi =>
            hki ⟨hk, (BitVec.eq_of_toNat_eq hi).symm⟩
          rw [List.getElem?_modify, hslot]
          simp [hi]
        · exact hslot
      · rw [finished_concat]
        refine or_iff_left ?_
        rintro ⟨-, fingerprint', hstores'⟩
        cases hstores.symm.trans hstores'
        exact hki ⟨rfl, rfl⟩
  · rcases concat_eq_append_cons heq with ⟨rfl, -, rfl⟩ | ⟨since, rfl, htr'⟩
    · exact absurd rfl hne
    · rw [executions_append, executions_none hexecutes, List.append_nil] at hne
      obtain ⟨response', hfin⟩ := h.earlier before e since q htr' hexec hne
      exact ⟨response', hfin.append⟩

variable [DecidableEq H] {backend : Backend H}

/-- **Step lemma.** The slot stays in step with its history, if it accepts a request only when none
is in progress on it, and a reply is stored by a request that was accepted. -/
theorem step (h : SlotReplies k i tr f.before.state)
    (hexec : (Server.system backend).exec f.before f.call f.answer f.after)
    (hhistory : SessionHistory tr f.before.state)
    (hfresh : CountersFresh (tr ++ [f]))
    (hidle : ∀ q session slot, f.call.executes f.answer = some (k, i, q) →
      f.before.state.inner.sessions.get k = some session → session.slots[i.toNat]? = some slot →
      slot.inProgress = none)
    (hstorer : ∀ token response, f.call.stores = some (token, response) →
      (∃ e ∈ tr, e.thread = f.thread ∧ e.call.fingerprint = some token.fingerprint ∧
        ∃ q, e.call.executes e.answer = some (token.sessionid, token.slotid, q)) ∧
      ∀ f' ∈ tr, f'.thread = f.thread → f'.call.stores = none) :
    SlotReplies k i (tr ++ [f]) f.after.state := by
  cases hstores : f.call.stores with
  | some p =>
    obtain ⟨token, response⟩ := p
    obtain ⟨haccepted, honce⟩ := hstorer token response hstores
    have hcall := Call.stores_eq_some hstores
    obtain ⟨t, before, call, answer, after⟩ := f
    dsimp only at hcall
    subst hcall
    obtain ⟨-, hafter⟩ := Server.exec_guarded hexec
    dsimp only at *
    rw [hafter]
    show SlotReplies _ _ _ (before.state.commitUnit (before.state.finishSequence token response)).2
    cases hok : before.state.finishSequence token response with
    | ok s' =>
      refine h.store ?_ hstores rfl haccepted honce
      exact StateManager.finishSequence_updates hok
    | error status =>
      refine h.append rfl fun token' response' session hsome hsession => ?_
      cases hstores.symm.trans hsome
      exact StateManager.finishSequence_error hok hsession
  | none =>
    have hnone : ∀ token response session, f.call.stores = some (token, response) →
        f.before.state.inner.sessions.get token.sessionid = some session →
        session.slots[token.slotid.toNat]? = none := by
      intro token response session hsome
      rw [hstores] at hsome
      cases hsome
    cases Server.exec_sessionStep hexec with
    | fades hs hissues hexecutes => exact (h.append hexecutes hnone).of_fades hs
    | enrols hs _ _ hexecutes =>
      exact (h.append hexecutes hnone).of_sessions fun session _ hk => hs.sessions k session hk
    | issues clientid sessionid hs hissues hexecutes =>
      have hnew := hhistory.clients.not_issued hs hissues (hfresh.sessions _)
      refine (h.issue hhistory.slots hs hnew).append hexecutes fun token response session hsome => ?_
      rw [hstores] at hsome
      cases hsome
    | executes args fingerprint hsession hslot hseq hs hissues hexecutes hcall =>
      obtain ⟨conn, hcall⟩ := hcall
      refine h.execute hsession hslot ?_ hs hexecutes (by rw [hcall]; rfl) hstores
      rintro ⟨rfl, rfl⟩
      exact hidle _ _ _ hexecutes hsession hslot
    | stores token response hs hsome =>
      rw [hstores] at hsome
      cases hsome

end SlotReplies

end

end EmbedNfs

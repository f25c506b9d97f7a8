import EmbedNfs.Effects.Clients
import EmbedNfs.Properties.ClientNumbers
import EmbedNfs.Server.Scripted

/-!
# Confirmation tokens

SETCLIENTID returns a client id and a token, and SETCLIENTID_CONFIRM has to bring both back. The
record of a client holds its token until that happens, so the tokens in the table are those of the
last SETCLIENTIDs, unused. The token is made of the client id and a constant of the boot: it is new
exactly if the id is, and the id is not when SETCLIENTID finds a confirmed record of the same owner
and verifier.
-/

namespace EmbedNfs

/-! ## The history of tokens -/

/-- A SETCLIENTID with the pair that it returned, or a SETCLIENTID_CONFIRM that succeeded. -/
inductive TokenEvent where
  | introduced (owner : ClientOwner4) (res : SetClientIdRes4)
  | confirmed (clientid : Clientid4) (verifier : Verifier4)
  deriving DecidableEq

def TokenEvent.clientid : TokenEvent → Clientid4
  | introduced _ res => res.clientid
  | confirmed clientid _ => clientid

/-- Not two SETCLIENTIDs of one owner with the same pair. -/
def TokenEvent.Apart : TokenEvent → TokenEvent → Prop
  | .introduced owner res, .introduced owner' res' => owner.ownerid = owner'.ownerid → res ≠ res'
  | _, _ => True

/-- The table has a confirmed record of the owner, with its verifier. -/
def StateManager.recognises (s : StateManager) (owner : ClientOwner4) : Bool :=
  s.inner.clients.any fun _ client =>
    client.owner.ownerid = owner.ownerid ∧ client.owner.verifier = owner.verifier ∧ client.confirmed

section

variable {H : Type}

def Call.tokenEvent : (c : Call H) → c.Ret → Option TokenEvent
  | .guarded (.setClientId args), res => some (.introduced args.client res)
  | .guarded (.setClientIdConfirm args), .ok () => some (.confirmed args.clientid args.verifier)
  | _, _ => none

/-- SETCLIENTID and SETCLIENTID_CONFIRM. -/
def Call.onTokens : Call H → Bool
  | .guarded (.setClientId _) | .guarded (.setClientIdConfirm _) => true
  | _ => false

def tokenHistory (tr : Trace H) : List TokenEvent :=
  tr.filterMap fun e => e.call.tokenEvent e.answer

theorem tokenHistory_concat (tr : Trace H) (e : ServerEvent H) :
    tokenHistory (tr ++ [e]) = tokenHistory tr ++ (e.call.tokenEvent e.answer).toList := by
  rw [tokenHistory, List.filterMap_append]
  cases h : e.call.tokenEvent e.answer with
  | none => simp [tokenHistory, h]
  | some x => simp [tokenHistory, h]

/-- A SETCLIENTID for which the table has such a record. -/
def Call.recognised : Call H → StateManager → Bool
  | .guarded (.setClientId args), s => s.reapExpiredClients.recognises args.client
  | _, _ => false

theorem Call.tokenEvent_of_recognised {c : Call H} (r : c.Ret) {s : StateManager}
    (h : c.recognised s = true) : ∃ owner res, c.tokenEvent r = some (.introduced owner res) := by
  cases c with
  | guarded q =>
    cases q with
    | setClientId args => exact ⟨args.client, r, rfl⟩
    | _ => cases h
  | _ => cases h

/-- No SETCLIENTID of the trace finds one. -/
def AllNew (tr : Trace H) : Prop := ∀ e ∈ tr, e.call.recognised e.before.state = false

end

/-- The last event about the client id is a SETCLIENTID that returned it with the token. -/
def Opened (clientid : Clientid4) (token : Verifier4) (history : List TokenEvent) : Prop :=
  ∃ earlier owner later, history = earlier ++ .introduced owner ⟨clientid, token⟩ :: later ∧
    ∀ x ∈ later, x.clientid ≠ clientid

namespace Opened

variable {clientid : Clientid4} {token : Verifier4} {history : List TokenEvent}

theorem introduced (owner : ClientOwner4) :
    Opened clientid token (history ++ [.introduced owner ⟨clientid, token⟩]) :=
  ⟨history, owner, [], rfl, nofun⟩

theorem append (h : Opened clientid token history) {more : List TokenEvent}
    (hmore : ∀ x ∈ more, x.clientid ≠ clientid) : Opened clientid token (history ++ more) := by
  obtain ⟨earlier, owner, later, rfl, hlater⟩ := h
  refine ⟨earlier, owner, later ++ more, by simp, fun x hx => ?_⟩
  rcases List.mem_append.mp hx with hx | hx
  · exact hlater x hx
  · exact hmore x hx

end Opened

/-! ## What sections do to tokens -/

/-- Whose record it is. -/
def ClientState.who (client : ClientState) : Clientid4 × ClientOwner4 :=
  (client.clientid, client.owner)

namespace StateManager

/-- The token that the client has still to bring back. -/
def token (s : StateManager) (k : Clientid4) : Option Verifier4 :=
  (s.inner.clients.get k).bind ClientState.v40Confirm

/-- The tokens of the first are tokens of the second. -/
def TokensFrom (s' s : StateManager) : Prop :=
  ∀ k token, s'.token k = some token → s.token k = some token

variable {s s' : StateManager} {k : Clientid4} {client : ClientState}

theorem TokensFrom.trans {s'' : StateManager} (h : s''.TokensFrom s') (h' : s'.TokensFrom s) :
    s''.TokensFrom s := fun k token htoken => h' k token (h k token htoken)

theorem TokensFrom.of_subBy
    (h : s'.inner.clients.SubBy ClientState.v40Confirm s.inner.clients) : s'.TokensFrom s := by
  intro k token htoken
  obtain ⟨client, hk, hclient⟩ := Option.bind_eq_some_iff.mp htoken
  obtain ⟨old, hold, hsame⟩ := h k client hk
  exact Option.bind_eq_some_iff.mpr ⟨old, hold, hsame.symm.trans hclient⟩

theorem TokensFrom.of_modify {l : Clientid4} {f : ClientState → ClientState}
    (hclients : s'.inner.clients = s.inner.clients.modify l f)
    (hf : ∀ client, (f client).v40Confirm = client.v40Confirm) : s'.TokensFrom s := by
  refine .of_subBy ?_
  rw [hclients]
  exact Table.modify_subBy fun client _ => hf client

theorem setClientIdReaped_res (s : StateManager) (args : SetClientIdArgs4) :
    (s.setClientIdReaped args).1.setclientidConfirm =
        s.nextV40ConfirmVerifier (s.setClientIdReaped args).1.clientid ∧
      ((s.recognises args.client = true ∧ ∃ k client, s.inner.clients.get k = some client ∧
          client.owner = args.client ∧ (s.setClientIdReaped args).1.clientid = client.clientid) ∨
        (s.recognises args.client = false ∧
          (s.setClientIdReaped args).1.clientid = s.nextClientid ∧
          ((s.setClientIdReaped args).2.inner.clients.get s.nextClientid).isSome = true)) := by
  unfold setClientIdReaped
  dsimp only
  split
  · rename_i clientid hfound
    obtain ⟨⟨k, client⟩, hfind, rfl⟩ := Option.map_eq_some_iff.mp hfound
    obtain ⟨hget, hp⟩ := Table.of_find?_eq_some hfind
    obtain ⟨hid, hverifier, -⟩ := of_decide_eq_true hp
    refine ⟨rfl, Or.inl ⟨Table.any_eq_true.mpr ⟨k, client, hget, hp⟩, k, client, hget, ?_, rfl⟩⟩
    show (⟨client.owner.verifier, client.owner.ownerid⟩ : ClientOwner4) = args.client
    rw [hverifier, hid]
  · rename_i hnone
    refine ⟨rfl, Or.inr ⟨?_, rfl, ?_⟩⟩
    · exact Table.any_eq_false.mpr (Table.find?_eq_none.mp (Option.map_eq_none_iff.mp hnone))
    · rw [Table.get_insert_self]
      rfl

theorem setClientIdReaped_get {args : SetClientIdArgs4}
    (hk : (s.setClientIdReaped args).2.inner.clients.get k = some client) :
    (k ≠ (s.setClientIdReaped args).1.clientid → s.inner.clients.get k = some client) ∧
      (k = (s.setClientIdReaped args).1.clientid →
        client.v40Confirm = some (s.setClientIdReaped args).1.setclientidConfirm) ∧
      ((k = (s.setClientIdReaped args).1.clientid ∧ client.clientid = k ∧
          client.owner = args.client) ∨
        ∃ old, s.inner.clients.get k = some old ∧ client.who = old.who) := by
  unfold setClientIdReaped at hk ⊢
  dsimp only at hk ⊢
  split at hk
  · rcases Table.of_get_modify hk with ⟨rfl, old, hold, rfl⟩ | ⟨hkey, hk⟩
    · have hold := (StateInner.of_get_dropClientStates_clients hold).2
      exact ⟨fun hne => absurd rfl hne, fun _ => rfl, Or.inr ⟨old, hold, rfl⟩⟩
    · have hold := (StateInner.of_get_dropClientStates_clients hk).2
      exact ⟨fun _ => hold, fun h => absurd h hkey, Or.inr ⟨client, hold, rfl⟩⟩
  · rcases Table.of_get_insert hk with ⟨rfl, rfl⟩ | ⟨hkey, hk⟩
    · exact ⟨fun hne => absurd rfl hne, fun _ => rfl, Or.inl ⟨rfl, rfl, rfl⟩⟩
    · have hold := (StateInner.of_get_dropClientStates_clients hk).2
      exact ⟨fun _ => hold, fun h => absurd h hkey, Or.inr ⟨client, hold, rfl⟩⟩

theorem setClientIdReaped_writeVerifier (args : SetClientIdArgs4) :
    (s.setClientIdReaped args).2.writeVerifier = s.writeVerifier := by
  unfold setClientIdReaped
  dsimp only
  split <;> rfl

theorem setClientIdConfirmReaped_token {args : SetClientIdConfirmArgs4}
    (h : s.setClientIdConfirmReaped args = .ok s') :
    s.token args.clientid = some args.verifier := by
  simp only [setClientIdConfirmReaped, bind, Except.bind, pure, Except.pure, throw, throwThe,
    MonadExceptOf.throw] at h
  grind [token]

theorem reaped_subBy {W : Type} (view : ClientState → W)
    (h : ∀ client, view (StateInner.expired s.clock client) = view client) :
    s.reapExpiredClients.inner.clients.SubBy view s.inner.clients := by
  intro k client hk
  obtain ⟨-, old, hold, rfl⟩ := StateInner.of_get_reap_clients _ _ hk
  refine ⟨old, hold, ?_⟩
  unfold StateInner.afterExpiry
  split
  · exact h old
  · rfl

theorem reap_tokensFrom (s : StateManager) : s.reapExpiredClients.TokensFrom s :=
  .of_subBy (reaped_subBy _ fun _ => rfl)

theorem runSection_tokensFrom {q : Section}
    (hq : (Call.guarded q : Call Unit).onTokens = false) : (s.runSection q).2.TokensFrom s := by
  cases hadministers : q.administers with
  | false =>
    refine .of_subBy fun k client hk => ?_
    have hstill := (s.runSection_still q hadministers).clients k
    rw [hk, Option.map_some] at hstill
    obtain ⟨old, hold, hsame⟩ := Option.map_eq_some_iff.mp hstill.symm
    exact ⟨old, hold, (congrArg ClientState.v40Confirm hsame).symm⟩
  | true =>
    have hreaped : (s.reapedFor q).TokensFrom s := by
      unfold reapedFor
      split
      · exact s.reap_tokensFrom
      · exact fun _ _ => id
    refine TokensFrom.trans ?_ hreaped
    cases s.runSection_clientAct q hadministers with
    | sessions sessions _ hs =>
      rw [hs]
      exact .of_subBy (.refl _)
    | reclaimed l hs | sequenced l _ sessions _ _ _ _ hs | renewed l _ _ _ _ hs =>
      rw [hs]
      exact .of_modify rfl fun _ => rfl
    | destroyed l hs =>
      rw [hs]
      refine .of_subBy ?_
      dsimp only
      rw [StateInner.dropClientState_clients]
      exact (Table.erase_sub _ _).subBy
    | exchanged args hc hreaps hs =>
      rw [hs]
      rcases (s.reapedFor q).exchangeIdReaped_cases args with
        ⟨_, _, -, -, -, -, -, hs'⟩ | ⟨-, -, inner, hinner, hs'⟩
      · rw [hs']
        exact fun _ _ => id
      · -- The new record has no token.
        intro k token htoken
        rw [hs'] at htoken
        obtain ⟨client, hk, hclient⟩ := Option.bind_eq_some_iff.mp htoken
        rcases Table.of_get_insert hk with ⟨-, rfl⟩ | ⟨-, hk⟩
        · cases hclient
        · rw [hinner] at hk
          have hold := (StateInner.of_get_dropClientStates_clients hk).2
          exact Option.bind_eq_some_iff.mpr ⟨client, hold, hclient⟩
    | created args conn res hc hok =>
      obtain ⟨_, inner, -, -, hinner, -, hs⟩ := createSessionReaped_ok hok
      rw [hs]
      refine .of_subBy fun k client hk => ?_
      dsimp only at hk
      rw [hinner, get_confirmClient_clients] at hk
      split at hk
      · cases hk
      · refine Table.modify_subBy ?_ k client hk
        exact fun _ _ => rfl
    | introduced args hc | confirmed args hc =>
      rw [hc] at hq
      cases hq

end StateManager

/-! ## Steps -/

/-- What a step does to the tokens, by its event in the history. -/
inductive TokenStep {H : Type} (s s' : StateManager) (c : Call H) : Option TokenEvent → Prop where
  | introduced (args : SetClientIdArgs4) (hc : c = .guarded (.setClientId args))
      (hs : s' = (s.reapExpiredClients.setClientIdReaped args).2) :
      TokenStep s s' c
        (some (.introduced args.client (s.reapExpiredClients.setClientIdReaped args).1))
  | confirmed (args : SetClientIdConfirmArgs4)
      (htoken : s.reapExpiredClients.token args.clientid = some args.verifier)
      (hs : s' = { s.reapExpiredClients with
        inner.clients := s.reapExpiredClients.inner.clients.modify args.clientid
          (ClientState.acknowledged s.reapExpiredClients.clock) }) :
      TokenStep s s' c (some (.confirmed args.clientid args.verifier))
  | refused (hs : s' = s.reapExpiredClients) : TokenStep s s' c none
  | other (hc : c.onTokens = false) (hs : s'.TokensFrom s) : TokenStep s s' c none

/-- A token after a step is the one that the step has returned, or it was there and the step is not
about its client. -/
theorem TokenStep.token {H : Type} {s s' : StateManager} {c : Call H} {x : Option TokenEvent}
    (h : TokenStep s s' c x) {k : Clientid4} {token : Verifier4} (htoken : s'.token k = some token) :
    (∃ owner, x = some (.introduced owner ⟨k, token⟩)) ∨
      s.token k = some token ∧ ∀ y ∈ x, y.clientid ≠ k := by
  have hreaped := s.reap_tokensFrom k token
  cases h with
  | introduced args _ hs =>
    rw [hs] at htoken
    obtain ⟨client, hk, hclient⟩ := Option.bind_eq_some_iff.mp htoken
    obtain ⟨hother, hsame, -⟩ := StateManager.setClientIdReaped_get hk
    by_cases hkey : k = (s.reapExpiredClients.setClientIdReaped args).1.clientid
    · refine Or.inl ⟨args.client, ?_⟩
      cases (hsame hkey).symm.trans hclient
      rw [hkey]
    · refine Or.inr ⟨hreaped (Option.bind_eq_some_iff.mpr ⟨client, hother hkey, hclient⟩), ?_⟩
      rintro y ⟨⟩
      exact Ne.symm hkey
  | confirmed args _ hs =>
    rw [hs] at htoken
    obtain ⟨client, hk, hclient⟩ := Option.bind_eq_some_iff.mp htoken
    rcases Table.of_get_modify hk with ⟨rfl, old, -, rfl⟩ | ⟨hkey, hk⟩
    · cases hclient
    · refine Or.inr ⟨hreaped (Option.bind_eq_some_iff.mpr ⟨client, hk, hclient⟩), ?_⟩
      rintro y ⟨⟩
      exact Ne.symm hkey
  | refused hs =>
    rw [hs] at htoken
    exact Or.inr ⟨hreaped htoken, nofun⟩
  | other _ hs => exact Or.inr ⟨hs k token htoken, nofun⟩

section

variable {H α : Type} [DecidableEq H] {backend : Backend H} {boot : Boot}
  {threads : List (Request H α)} {tr : Trace H} {c : Machine H α}
  {e : ServerEvent H}

/-- **Every step is one of these.** -/
theorem Server.exec_tokenStep
    (hexec : (Server.system backend).exec e.before e.call e.answer e.after) :
    TokenStep e.before.state e.after.state e.call (e.call.tokenEvent e.answer) := by
  obtain ⟨t, before, call, answer, after⟩ := e
  dsimp only at *
  cases call with
  | guarded q =>
    obtain ⟨hanswer, rfl⟩ := hexec
    cases q with
    | setClientId args =>
      rw [hanswer]
      exact .introduced args rfl rfl
    | setClientIdConfirm args =>
      rw [hanswer]
      show TokenStep _ (StateManager.commitUnit _ _).2 _
        (Call.tokenEvent (.guarded (.setClientIdConfirm args)) (StateManager.commitUnit _ _).1)
      cases hok : before.state.reapExpiredClients.setClientIdConfirmReaped args with
      | error status => exact .refused rfl
      | ok s' =>
        exact .confirmed args (StateManager.setClientIdConfirmReaped_token hok)
          (StateManager.setClientIdConfirmReaped_clients hok)
    | _ => exact .other rfl (StateManager.runSection_tokensFrom rfl)
  | _ =>
    rcases Server.exec_inner hexec with ⟨q, hq, -⟩ | hinner
    · cases hq
    · refine .other rfl fun k token htoken => ?_
      rw [StateManager.token, ← hinner]
      exact htoken

/-! ## Runs -/

/-- **Every token in the table is open.** -/
theorem System.Run.opened (hrun : (Server.system backend).Run ⟨Server.new H boot, threads⟩ tr c)
    {k : Clientid4} {token : Verifier4} (htoken : c.state.state.token k = some token) :
    Opened k token (tokenHistory tr) := by
  refine hrun.invariant_trace (I := fun tr s => ∀ k token, s.state.token k = some token →
    Opened k token (tokenHistory tr)) ?_ ?_ ?_ k token htoken
  · intro k token htoken
    cases htoken
  · intro tr s s' h hd k token htoken
    refine h k token ?_
    rw [StateManager.token, hd.state.clients k]
    exact htoken
  · intro tr e hexec h k token htoken
    rw [tokenHistory_concat]
    rcases (Server.exec_tokenStep hexec).token htoken with ⟨owner, hevent⟩ | ⟨hopen, hother⟩
    · rw [hevent]
      exact .introduced owner
    · exact (h k token hopen).append fun x hx => hother x (Option.mem_toList.mp hx)

/-- The pairs of one owner are different, and their client ids come from the counter. -/
structure PairsApart (tr : Trace H) (s : StateManager) : Prop where
  apart : (tokenHistory tr).Pairwise TokenEvent.Apart
  given : ∃ n ≤ enrolments tr, s.Numbered n ∧
    ∀ owner res, .introduced owner res ∈ tokenHistory tr → GivenOut n res.clientid

/-- **Step lemma.** A SETCLIENTID that does not recognise its owner returns an id that none has
returned. -/
theorem PairsApart.step (h : PairsApart tr e.before.state)
    (hexec : (Server.system backend).exec e.before e.call e.answer e.after)
    (hbound : enrolments (tr ++ [e]) ≤ 2 ^ 64) (hnew : e.call.recognised e.before.state = false) :
    PairsApart (tr ++ [e]) e.after.state := by
  obtain ⟨hapart, n, hn, hnumbered, hgiven⟩ := h
  obtain ⟨m, hnm, hm, hnumbered'⟩ := hnumbered.step hexec
  have hgiven' : ∀ owner res, .introduced owner res ∈ tokenHistory tr →
      GivenOut m res.clientid := fun owner res hx => (hgiven owner res hx).mono hnm
  have hstep := Server.exec_tokenStep hexec
  rw [enrolments_append] at hbound
  constructor <;> rw [tokenHistory_concat]
  all_goals generalize e.call.tokenEvent e.answer = x at hstep ⊢
  · rw [List.pairwise_append]
    cases hstep with
    | introduced args hcall hs =>
      rw [hcall] at hnew
      obtain ⟨-, ⟨hknown, -⟩ | ⟨-, hid, -⟩⟩ :=
        e.before.state.reapExpiredClients.setClientIdReaped_res args
      · cases hnew.symm.trans hknown
      have hone : enrolments [e] = 1 := by simp [enrolments, hcall, Call.enrols]
      refine ⟨hapart, List.pairwise_singleton _ _, fun a ha b hb => ?_⟩
      rw [List.mem_singleton.mp hb]
      cases a with
      | confirmed k token => trivial
      | introduced owner' res' =>
        rintro - rfl
        exact hnumbered.ne_next (by omega) (hgiven owner' _ ha) hid.symm
    | confirmed args =>
      refine ⟨hapart, List.pairwise_singleton _ _, fun a _ b hb => ?_⟩
      rw [List.mem_singleton.mp hb]
      cases a <;> trivial
    | _ => exact ⟨hapart, .nil, fun _ _ b hb => by cases hb⟩
  · rw [enrolments_append]
    refine ⟨m, by omega, hnumbered', fun owner res hx => ?_⟩
    rcases List.mem_append.mp hx with hx | hx
    · exact hgiven' owner res hx
    cases hstep with
    | introduced args hcall hs =>
      -- The id has just been given out, since there is a record under it.
      rw [hcall] at hnew
      cases List.mem_singleton.mp hx
      obtain ⟨-, ⟨hknown, -⟩ | ⟨-, hid, hrecord⟩⟩ :=
        e.before.state.reapExpiredClients.setClientIdReaped_res args
      · cases hnew.symm.trans hknown
      rw [← hs, ← hid] at hrecord
      obtain ⟨client, hclient⟩ := Option.isSome_iff_exists.mp hrecord
      exact hnumbered'.clients _ client hclient
    | confirmed args => cases List.mem_singleton.mp hx
    | _ => cases hx

theorem System.Run.pairsApart
    (hrun : (Server.system backend).Run ⟨Server.new H boot, threads⟩ tr c)
    (hbound : enrolments tr ≤ 2 ^ 64) (hnew : AllNew tr) : PairsApart tr c.state.state := by
  refine hrun.invariant_trace (I := fun tr s => enrolments tr ≤ 2 ^ 64 → AllNew tr →
    PairsApart tr s.state) ?_ ?_ ?_ hbound hnew
  · exact fun _ _ => ⟨.nil, 0, Nat.le_refl 0, .new boot, nofun⟩
  · intro tr s s' h hd hbound hnew
    obtain ⟨hapart, n, hn, hnumbered, hgiven⟩ := h hbound hnew
    exact ⟨hapart, n, hn, hnumbered.drift hd.state, hgiven⟩
  · intro tr e hexec h hbound hnew
    have hless : enrolments tr ≤ 2 ^ 64 := by
      rw [enrolments_append] at hbound
      omega
    exact (h hless fun e' he' => hnew e' (List.mem_append_left _ he')).step hexec hbound
      (hnew e (by simp))

/-- Every record was made by a SETCLIENTID, which returned its id with the token that belongs to
the id. -/
structure Introduced (boot : Boot) (tr : Trace H) (s : StateManager) : Prop where
  writeVerifier : s.writeVerifier = boot.writeVerifier
  clients : ∀ k client, s.inner.clients.get k = some client → client.clientid = k ∧
    .introduced client.owner ⟨k, boot.writeVerifier ^^^ k⟩ ∈ tokenHistory tr

theorem Introduced.step (h : Introduced boot tr e.before.state)
    (hexec : (Server.system backend).exec e.before e.call e.answer e.after)
    (honly : e.call.onTokens = true) : Introduced boot (tr ++ [e]) e.after.state := by
  obtain ⟨hboot, hknown⟩ := h
  have hstep := Server.exec_tokenStep hexec
  -- A record that was there before the step has its event in the history.
  have hkept : ∀ k (client old : ClientState),
      e.before.state.reapExpiredClients.inner.clients.get k = some old →
      client.who = old.who → client.clientid = k ∧
        .introduced client.owner ⟨k, boot.writeVerifier ^^^ k⟩ ∈ tokenHistory (tr ++ [e]) := by
    intro k client old hold hwho
    obtain ⟨first, hfirst, hwho'⟩ :=
      StateManager.reaped_subBy ClientState.who (fun _ => rfl) k old hold
    obtain ⟨hid, howner⟩ := Prod.mk.inj (hwho.trans hwho')
    obtain ⟨hkey, hmem⟩ := hknown k first hfirst
    rw [tokenHistory_concat, hid, howner]
    exact ⟨hkey, List.mem_append_left _ hmem⟩
  generalize hx : e.call.tokenEvent e.answer = x at hstep
  cases hstep with
  | introduced args _ hs =>
    rw [hs]
    refine ⟨(StateManager.setClientIdReaped_writeVerifier args).trans hboot,
      fun k client hk => ?_⟩
    obtain ⟨-, -, ⟨rfl, hid, howner⟩ | ⟨old, hget, hwho⟩⟩ :=
      StateManager.setClientIdReaped_get hk
    · have htoken := (e.before.state.reapExpiredClients.setClientIdReaped_res args).1
      rw [tokenHistory_concat, hx, howner, ← hboot]
      refine ⟨hid, List.mem_append_right _ (List.mem_singleton.mpr ?_)⟩
      exact congrArg _ (congrArg _ htoken.symm)
    · exact hkept k client old hget hwho
  | confirmed args _ hs =>
    rw [hs]
    refine ⟨hboot, fun k client hk => ?_⟩
    rcases Table.of_get_modify hk with ⟨rfl, old, hold, rfl⟩ | ⟨-, hk⟩
    · exact hkept _ _ old hold rfl
    · exact hkept k client client hk rfl
  | refused hs =>
    rw [hs]
    exact ⟨hboot, fun k client hk => hkept k client client hk rfl⟩
  | other hc =>
    rw [honly] at hc
    cases hc

theorem System.Run.introduced
    (hrun : (Server.system backend).Run ⟨Server.new H boot, threads⟩ tr c)
    (honly : ∀ e ∈ tr, e.call.onTokens = true) : Introduced boot tr c.state.state := by
  refine hrun.invariant_trace (I := fun tr s => (∀ e ∈ tr, e.call.onTokens = true) →
    Introduced boot tr s.state) ?_ ?_ ?_ honly
  · exact fun _ => ⟨rfl, nofun⟩
  · intro tr s s' h hd honly
    exact ⟨hd.state.writeVerifier.trans (h honly).writeVerifier,
      fun k client hk => (h honly).clients k client ((hd.state.clients k).trans hk)⟩
  · intro tr e hexec h honly
    exact (h fun e' he' => honly e' (List.mem_append_left _ he')).step hexec (honly e (by simp))

/-- **Confirmation tokens.** Let any requests run against a server, with their steps interleaved in
any order. A SETCLIENTID_CONFIRM succeeds only with the pair of the last SETCLIENTID that returned
its client id, and only once. As long as the counter of client ids has not come round and no
SETCLIENTID finds a confirmed record of its owner and verifier, two SETCLIENTIDs of one owner return
different pairs. In a run of SETCLIENTID and SETCLIENTID_CONFIRM calls only they do not if one
finds such a record. -/
theorem confirm_tokens (hrun : (Server.system backend).Run ⟨Server.new H boot, threads⟩ tr c) :
    (∀ earlier k token later, tokenHistory tr = earlier ++ .confirmed k token :: later →
      Opened k token earlier) ∧
    (enrolments tr ≤ 2 ^ 64 → AllNew tr → (tokenHistory tr).Pairwise TokenEvent.Apart) ∧
    ((∀ e ∈ tr, e.call.onTokens = true) → (tokenHistory tr).Pairwise TokenEvent.Apart →
      AllNew tr) := by
  refine ⟨fun earlier k token later hhistory => ?_,
    fun hbound hnew => (hrun.pairsApart hbound hnew).apart, fun honly hapart => ?_⟩
  · obtain ⟨tr₁, tr', rfl, rfl, hrest⟩ := List.filterMap_eq_append_iff.mp hhistory
    obtain ⟨tr₂, e, tr₃, rfl, hnone, hevent, -⟩ := List.filterMap_eq_cons_iff.mp hrest
    rw [← List.append_assoc] at hrun
    obtain ⟨ts, p, hbefore, -, hexec, -⟩ := hrun.at_event
    have hsame : tokenHistory (tr₁ ++ tr₂) = tokenHistory tr₁ := by
      rw [tokenHistory, List.filterMap_append, List.filterMap_eq_nil_iff.mpr hnone,
        List.append_nil]
      rfl
    have hstep := Server.exec_tokenStep hexec
    rw [hevent] at hstep
    cases hstep with
    | confirmed args htoken _ =>
      have hopened := hbefore.opened (e.before.state.reap_tokensFrom _ _ htoken)
      rw [hsame] at hopened
      exact hopened
  · intro e he
    obtain ⟨tr₁, tr₂, rfl⟩ := List.append_of_mem he
    obtain ⟨ts, p, hbefore, -, hexec, -⟩ := hrun.at_event
    have hintroduced := hbefore.introduced fun e' he' => honly e' (List.mem_append_left _ he')
    cases hrecognised : e.call.recognised e.before.state with
    | false => rfl
    | true =>
      obtain ⟨owner, res, hevent⟩ := Call.tokenEvent_of_recognised e.answer hrecognised
      rw [tokenHistory, List.filterMap_append, List.filterMap_cons, hevent] at hapart
      have hstep := Server.exec_tokenStep hexec
      rw [hevent] at hstep
      cases hstep with
      | introduced args hcall _ =>
        rw [hcall] at hrecognised
        obtain ⟨htoken, ⟨-, l, client, hget, howner, hid⟩ | ⟨hnew, -⟩⟩ :=
          e.before.state.reapExpiredClients.setClientIdReaped_res args
        · -- The SETCLIENTID that made the record has returned the same pair.
          obtain ⟨old, hold, hwho⟩ :=
            StateManager.reaped_subBy ClientState.who (fun _ => rfl) l client hget
          obtain ⟨hid', howner'⟩ := Prod.mk.inj hwho
          obtain ⟨hkey, hmem⟩ := hintroduced.clients l old hold
          have hpair := (List.pairwise_append.mp hapart).2.2 _ hmem _ List.mem_cons_self
          refine absurd ?_ (hpair (by rw [← howner', howner]))
          rw [← hid'.trans hkey, ← hid, ← hintroduced.writeVerifier]
          exact congrArg _ htoken.symm
        · cases hnew.symm.trans hrecognised

end

/-! ## An owner that comes again -/

namespace Scripted

/-- An owner introduces itself, confirms and introduces itself again. -/
def introductions (verifier : Verifier4) : List Section :=
  [.setClientId ⟨⟨1, [1]⟩⟩, .setClientIdConfirm ⟨1, 1⟩, .setClientId ⟨⟨verifier, [1]⟩⟩]

def introductionEvents (verifier : Verifier4) : Trace Unit :=
  (Server.new Unit .fixed).sectionEvents 0 (introductions verifier)

theorem introductions_run (verifier : Verifier4) :
    (Server.system Backend.single).Run
      ⟨Server.new Unit .fixed, (introductions verifier).map (Server.sectionThread ())⟩
      (introductionEvents verifier)
      ⟨(introductions verifier).foldl Server.afterSection (Server.new Unit .fixed),
        (introductions verifier).map fun _ => .ret ()⟩ :=
  Server.sections_run () (introductions verifier) _ []

end Scripted

open Scripted

/-- With a new verifier the second pair is another one. -/
theorem confirm_tokens_restarted :
    tokenHistory (introductionEvents 2) =
        [.introduced ⟨1, [1]⟩ ⟨1, 1⟩, .confirmed 1 1, .introduced ⟨2, [1]⟩ ⟨2, 2⟩] ∧
      (tokenHistory (introductionEvents 2)).Pairwise TokenEvent.Apart ∧
      Opened 1 1 [.introduced ⟨1, [1]⟩ ⟨1, 1⟩] := by
  have hhistory : tokenHistory (introductionEvents 2) =
      [.introduced ⟨1, [1]⟩ ⟨1, 1⟩, .confirmed 1 1, .introduced ⟨2, [1]⟩ ⟨2, 2⟩] := by
    decide +kernel
  obtain ⟨hopened, hapart, -⟩ := confirm_tokens (introductions_run 2)
  have hnew : AllNew (introductionEvents 2) := by
    unfold AllNew
    decide +kernel
  exact ⟨hhistory, hapart (by decide +kernel) hnew, hopened [_] 1 1 [_] hhistory⟩

/-- With the same verifier it is the same pair. -/
theorem confirm_token_repeated :
    (Server.system Backend.single).Run
        ⟨Server.new Unit .fixed, (introductions 1).map (Server.sectionThread ())⟩
        (introductionEvents 1)
        ⟨(introductions 1).foldl Server.afterSection (Server.new Unit .fixed),
          (introductions 1).map fun _ => .ret ()⟩ ∧
      (∀ e ∈ introductionEvents 1, e.call.onTokens = true) ∧
      tokenHistory (introductionEvents 1) =
        [.introduced ⟨1, [1]⟩ ⟨1, 1⟩, .confirmed 1 1, .introduced ⟨1, [1]⟩ ⟨1, 1⟩] ∧
      ¬(tokenHistory (introductionEvents 1)).Pairwise TokenEvent.Apart := by
  have hhistory : tokenHistory (introductionEvents 1) =
      [.introduced ⟨1, [1]⟩ ⟨1, 1⟩, .confirmed 1 1, .introduced ⟨1, [1]⟩ ⟨1, 1⟩] := by
    decide +kernel
  refine ⟨introductions_run 1, by decide +kernel, hhistory, fun hapart => ?_⟩
  rw [hhistory] at hapart
  exact List.rel_of_pairwise_cons hapart (List.mem_cons_of_mem _ (List.mem_singleton_self _)) rfl rfl

end EmbedNfs

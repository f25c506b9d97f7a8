import EmbedNfs.Effects.Clients
import EmbedNfs.Effects.Sessions

/-!
# What a step does to the backchannel

A session has one callback slot, and its backchannel counts the sequence ids for it.
CREATE_SESSION starts the count at one and `next_callback_target_on` takes the next id. Every
other step leaves the count as it is, or drops the session.
-/

namespace EmbedNfs

/-- The sequence id of the session's next callback. -/
def SessionState.nextCallback (session : SessionState) : Option Sequenceid4 :=
  session.backchannel.map BackchannelState.nextSequenceid

/-- The sequence id after another one. Zero is left out. -/
def nextCallbackSequenceid (sequenceid : Sequenceid4) : Sequenceid4 :=
  if sequenceid + 1 = 0 then 1 else sequenceid + 1

/-- The tables keep the backchannels of the sessions that stay. -/
def StateInner.KeepsCallbacks (a b : StateInner) : Prop :=
  a.sessions.SubBy SessionState.nextCallback b.sessions

namespace StateInner

theorem dropClientStates_keepsCallbacks (inner : StateInner) (clientids : List Clientid4) :
    (clientids.foldl dropClientState inner).KeepsCallbacks inner := by
  intro k session hk
  rw [get_dropClientStates_sessions] at hk
  exact ⟨session, (Option.filter_eq_some_iff.mp hk).1, rfl⟩

theorem dropClientState_keepsCallbacks (inner : StateInner) (clientid : Clientid4) :
    (inner.dropClientState clientid).KeepsCallbacks inner :=
  inner.dropClientStates_keepsCallbacks [clientid]

end StateInner

namespace StateManager

theorem reapExpiredClients_keepsCallbacks (s : StateManager) :
    s.reapExpiredClients.inner.KeepsCallbacks s.inner := by
  intro k session hk
  rw [show s.reapExpiredClients.inner.sessions.get k = _ from
    StateInner.get_reap_sessions ..] at hk
  exact ⟨session, (Option.filter_eq_some_iff.mp hk).1, rfl⟩

theorem confirmClient_keepsCallbacks (s : StateManager) (clientid : Clientid4)
    (seq : Sequenceid4) (replaced : Option Clientid4) :
    (s.confirmClient clientid seq replaced).KeepsCallbacks s.inner := by
  intro k session hk
  rw [get_confirmClient_sessions] at hk
  exact ⟨session, (Option.filter_eq_some_iff.mp hk).1, rfl⟩

theorem bindConnectionDirection_backchannel {session bound : SessionState} {dir granted : U32}
    {conn : U64} (h : bindConnectionDirection session dir conn = .ok (granted, bound)) :
    bound.backchannel = session.backchannel := by
  unfold bindConnectionDirection at h
  grind

theorem bindConnToSessionReaped_keepsCallbacks {s s' : StateManager}
    {args : BindConnToSessionArgs4} {conn : U64} {dir : U32}
    (h : s.bindConnToSessionReaped args conn = .ok (dir, s')) :
    s'.inner.KeepsCallbacks s.inner := by
  simp only [bindConnToSessionReaped, bind, Except.bind, pure, Except.pure, throw, throwThe,
    MonadExceptOf.throw] at h
  split at h
  · rename_i session hsession
    split at h
    · cases h
    · rename_i v hv
      simp only [Except.ok.injEq, Prod.mk.injEq] at h
      rw [← h.2]
      refine Table.modify_subBy fun old hold => ?_
      cases hsession.symm.trans hold
      exact congrArg (Option.map _) (bindConnectionDirection_backchannel hv)
  · cases h

theorem bindForechannelForSequence_backchannel {session bound : SessionState} {conn : U64}
    (h : bindForechannelForSequence session conn = .ok bound) :
    bound.backchannel = session.backchannel := by
  unfold bindForechannelForSequence at h
  grind

theorem prepareSequenceReaped_keepsCallbacks (s : StateManager) (args : SequenceArgs4)
    (fingerprint : Bytes) (conn : U64) :
    (s.prepareSequenceReaped args fingerprint conn).2.inner.KeepsCallbacks s.inner := by
  unfold prepareSequenceReaped
  split
  · exact .refl _
  rename_i session hsession
  split
  · exact .refl _
  split
  · exact .refl _
  split
  · exact .refl _
  rename_i bound hbound
  have hsub : ∀ slots, (s.inner.sessions.modify args.sessionid fun _ => { bound with slots }).SubBy
      SessionState.nextCallback s.inner.sessions := by
    intro slots
    refine Table.modify_subBy fun old hold => ?_
    cases hsession.symm.trans hold
    show bound.backchannel.map _ = session.backchannel.map _
    rw [bindForechannelForSequence_backchannel hbound]
  split
  · exact hsub bound.slots
  · exact hsub _

theorem runSection_keepsCallbacks (s : StateManager) (c : Section)
    (hcreate : ∀ args conn, c ≠ .createSession args conn)
    (hnext : ∀ clientid conn, c ≠ .nextCallbackTargetOn clientid conn) :
    (s.runSection c).2.inner.KeepsCallbacks s.inner := by
  let R (s' s : StateManager) : Prop := s'.inner.KeepsCallbacks s.inner
  have hrefl : ∀ s, R s s := fun s => .refl _
  have hreap := s.reapExpiredClients_keepsCallbacks
  cases hdelegations : c.ofDelegations with
  | true =>
    obtain ⟨_, _, ⟨_, _, _, rfl⟩, -, hs⟩ := s.runSection_onlyDelegations c hdelegations
    rw [hs]
    exact .refl _
  | false =>
  cases hfiles : c.ofFiles with
  | true =>
    obtain ⟨openFiles, lockFiles, nextStateid, heq⟩ := s.runSection_onlyFiles c hfiles
    rw [heq]
    exact .refl _
  | false =>
  cases hmeta : c.metadataOf with
  | some object =>
    obtain ⟨_, _, _, heq⟩ := s.runSection_onlyMetadata hmeta
    rw [heq]
    exact .refl _
  | none =>
    cases c with
    | createSession args conn => exact absurd rfl (hcreate args conn)
    | nextCallbackTargetOn clientid conn => exact absurd rfl (hnext clientid conn)
    | reapExpiredClients => exact hreap
    | exchangeId args =>
      show (s.exchangeId args).2.inner.KeepsCallbacks s.inner
      unfold exchangeId
      split
      · exact .refl _
      · unfold exchangeIdReaped
        dsimp only
        split
        · exact hreap
        · exact (StateInner.dropClientStates_keepsCallbacks _ _).trans hreap
    | setClientId args =>
      show (s.reapExpiredClients.setClientIdReaped args).2.inner.KeepsCallbacks s.inner
      unfold setClientIdReaped
      dsimp only
      have hdrop := StateInner.dropClientStates_keepsCallbacks s.reapExpiredClients.inner
      split
      · exact (hdrop _).trans hreap
      · exact (hdrop _).trans hreap
    | destroySession sessionid conn =>
      refine Table.SubBy.trans (commitUnit_snd (R := R) (hrefl _) fun s' hok => ?_) hreap
      rw [destroySessionReaped_ok hok]
      exact (Table.erase_sub _ _).subBy
    | destroyClientid clientid =>
      refine Table.SubBy.trans (commitUnit_snd (R := R) (hrefl _) fun s' hok => ?_) hreap
      rw [destroyClientidReaped_ok hok]
      exact StateInner.dropClientState_keepsCallbacks _ _
    | bindConnToSession args conn =>
      refine Table.SubBy.trans (commit_snd (R := R) (hrefl _) fun a s' hok => ?_) hreap
      exact bindConnToSessionReaped_keepsCallbacks hok
    | reclaimComplete clientid oneFs =>
      refine Table.SubBy.trans (commitUnit_snd (R := R) (hrefl _) fun s' hok => ?_) hreap
      rcases reclaimCompleteReaped_ok hok with rfl | rfl
      · exact hrefl _
      · exact hrefl _
    | setClientIdConfirm args =>
      refine Table.SubBy.trans (commitUnit_snd (R := R) (hrefl _) fun s' hok => ?_) hreap
      rw [setClientIdConfirmReaped_ok hok]
      exact hrefl _
    | renew clientid =>
      refine commitUnit_snd (R := R) (hrefl s) fun s' hok => ?_
      rw [renew_ok hok]
      exact hrefl s
    | prepareSequence args fingerprint conn =>
      exact (prepareSequenceReaped_keepsCallbacks _ args fingerprint conn).trans hreap
    | finishSequence token response =>
      refine commitUnit_snd (R := R) (hrefl s) fun s' hok => ?_
      rw [finishSequence_ok hok]
      exact Table.modify_subBy fun _ _ => rfl
    | removeConnection conn => exact Table.mapValues_subBy fun _ _ _ => rfl
    | freeStateid stateid =>
      refine commitUnit_snd (R := R) (hrefl s) fun s' hok => ?_
      rcases freeStateid_ok hok with ⟨-, rfl⟩ | rfl | rfl
      · exact hrefl s
      · exact hrefl s
      · obtain ⟨_, _, _, honly⟩ := s.inner.removeDelegationLocked_only stateid.other
        rw [honly]
        exact hrefl s
    | revokeRecallableDelegation stateid =>
      refine commitUnit_snd (R := R) (hrefl s) fun s' hok => ?_
      obtain ⟨state, -, rfl⟩ := revokeRecallableDelegation_ok hok
      exact hrefl s
    | _ =>
      first
        | (cases hfiles; done)
        | (cases hmeta; done)
        | (cases hdelegations; done)
        | exact hrefl s

/-! ## The two sections that count -/

theorem newSession_nextCallback {args : CreateSessionArgs4} {conn : U64} {q : Sequenceid4}
    (h : (newSession args conn).nextCallback = some q) : q = 1 := by
  obtain ⟨backchannel, hback, rfl⟩ := Option.map_eq_some_iff.mp h
  have hback : callbackBackchannel args grantedBackChan = some backchannel := hback
  unfold callbackBackchannel at hback
  split at hback
  · cases hback
  · split at hback
    · cases hback
    · cases hback
      rfl

theorem createSession_callbacks {s : StateManager} {args : CreateSessionArgs4} {conn : U64}
    {res : CreateSessionRes4} (h : (s.runSection (.createSession args conn)).1 = .ok res)
    {k : Sessionid4} {session : SessionState}
    (hk : (s.runSection (.createSession args conn)).2.inner.sessions.get k = some session) :
    (k = res.sessionid ∧ ∀ q, session.nextCallback = some q → q = 1) ∨
      ∃ old, s.inner.sessions.get k = some old ∧ session.nextCallback = old.nextCallback := by
  have hreap := s.reapExpiredClients_keepsCallbacks
  revert hk
  refine commit_of_ok (fun s' => s'.inner.sessions.get k = some session → _) h fun s' hok => ?_
  intro hk
  obtain ⟨client, inner, -, -, rfl, -, rfl⟩ := createSessionReaped_ok hok
  rw [Table.get_insert] at hk
  split at hk
  · rename_i hkey
    cases hk
    exact Or.inl ⟨hkey, fun q => newSession_nextCallback⟩
  · exact Or.inr (((s.reapExpiredClients.confirmClient_keepsCallbacks _ _ _).trans hreap) k _ hk)

theorem nextCallbackTargetOn_none {s : StateManager} {clientid : Clientid4} {conn : U64}
    (h : (s.nextCallbackTargetOn clientid conn).1 = none) :
    (s.nextCallbackTargetOn clientid conn).2 = s := by
  unfold nextCallbackTargetOn at h ⊢
  dsimp only at h ⊢
  split
  · rfl
  · split
    · rfl
    · simp_all

theorem nextCallbackTargetOn_some {s : StateManager} {clientid : Clientid4} {conn : U64}
    {target : CallbackTarget} (h : (s.nextCallbackTargetOn clientid conn).1 = some target) :
    (∃ session, s.inner.sessions.get target.sessionid = some session ∧
      session.nextCallback = some target.sequenceid) ∧
    ∀ k session, (s.nextCallbackTargetOn clientid conn).2.inner.sessions.get k = some session →
      ∃ old, s.inner.sessions.get k = some old ∧ session.nextCallback =
        if k = target.sessionid then some (nextCallbackSequenceid target.sequenceid)
        else old.nextCallback := by
  unfold nextCallbackTargetOn at h ⊢
  dsimp only at h ⊢
  split at h
  · cases h
  · rename_i sessionid session hfound
    obtain ⟨hget, -⟩ := Table.of_find?_eq_some hfound
    split at h
    · cases h
    · rename_i backchannel hback
      cases h
      refine ⟨⟨session, hget, by rw [SessionState.nextCallback, hback]; rfl⟩, ?_⟩
      intro k session' hk
      rcases Table.of_get_modify hk with ⟨rfl, old, hold, rfl⟩ | ⟨hkey, hk⟩
      · exact ⟨old, hold, (if_pos rfl).symm⟩
      · exact ⟨session', hk, (if_neg hkey).symm⟩

end StateManager

/-! ## One step -/

section

variable {H : Type}

/-- The target that the call takes. -/
def Call.reserves : (c : Call H) → c.Ret → Option CallbackTarget
  | .guarded (.nextCallbackTargetOn _ _), target => target
  | _, _ => none

/-- What a step does to the counts: they stay, a new session begins, or a target is taken. -/
inductive BackchannelStep (s s' : StateManager) (c : Call H) (r : c.Ret) : Prop where
  | keeps (hs : s'.inner.KeepsCallbacks s.inner) (hreserves : c.reserves r = none)
  | issues (clientid : Clientid4) (sessionid : Sessionid4)
      (hissues : c.issues r = some (clientid, sessionid))
      (hs : ∀ k session, s'.inner.sessions.get k = some session →
        (k = sessionid ∧ ∀ q, session.nextCallback = some q → q = 1) ∨
          ∃ old, s.inner.sessions.get k = some old ∧ session.nextCallback = old.nextCallback)
      (hreserves : c.reserves r = none)
  | reserves (target : CallbackTarget) (hreserves : c.reserves r = some target)
      (hget : ∃ session, s.inner.sessions.get target.sessionid = some session ∧
        session.nextCallback = some target.sequenceid)
      (hs : ∀ k session, s'.inner.sessions.get k = some session →
        ∃ old, s.inner.sessions.get k = some old ∧ session.nextCallback =
          if k = target.sessionid then some (nextCallbackSequenceid target.sequenceid)
          else old.nextCallback)

variable [DecidableEq H] {backend : Backend H} {s s' : Server H} {c : Call H} {r : c.Ret}

theorem Server.exec_backchannelStep (h : (Server.system backend).exec s c r s') :
    BackchannelStep s.state s'.state c r := by
  cases c with
  | guarded q =>
    obtain ⟨hr, hs⟩ := Server.exec_guarded h
    by_cases hcreate : ∃ args conn, q = .createSession args conn
    · obtain ⟨args, conn, rfl⟩ := hcreate
      rw [hs]
      cases r with
      | error status =>
        refine .keeps ?_ rfl
        rw [StateManager.createSession_error hr.symm]
        exact s.state.reapExpiredClients_keepsCallbacks
      | ok res =>
        exact .issues args.clientid res.sessionid rfl
          (fun _ _ hk => StateManager.createSession_callbacks hr.symm hk) rfl
    by_cases hnext : ∃ clientid conn, q = .nextCallbackTargetOn clientid conn
    · obtain ⟨clientid, conn, rfl⟩ := hnext
      have hr : r = (s.state.nextCallbackTargetOn clientid conn).1 := hr
      have hs : s'.state = (s.state.nextCallbackTargetOn clientid conn).2 := hs
      rw [hs]
      cases htarget : (s.state.nextCallbackTargetOn clientid conn).1 with
      | none =>
        rw [StateManager.nextCallbackTargetOn_none htarget]
        exact .keeps (.refl _) (hr.trans htarget)
      | some target =>
        obtain ⟨hget, hcounts⟩ := StateManager.nextCallbackTargetOn_some htarget
        exact .reserves target (hr.trans htarget) hget hcounts
    · rw [hs]
      refine .keeps (s.state.runSection_keepsCallbacks q ?_ ?_) ?_
      · exact fun args conn heq => hcreate ⟨args, conn, heq⟩
      · exact fun clientid conn heq => hnext ⟨clientid, conn, heq⟩
      · cases q <;> first | rfl | exact absurd ⟨_, _, rfl⟩ hnext
  | _ =>
    have hinner : s'.state.inner = s.state.inner := by
      rcases Server.exec_inner h with ⟨q, hq, -⟩ | hinner
      · cases hq
      · exact hinner
    refine .keeps ?_ rfl
    rw [hinner]
    exact .refl _

theorem StateManager.Drift.keepsCallbacks {s s' : StateManager} (h : s.Drift s') :
    s'.inner.KeepsCallbacks s.inner := by
  intro k session hk
  obtain ⟨old, hold, hr⟩ := h.session hk
  exact ⟨old, hold, congrArg (Option.map _) hr.backchannel⟩

end

end EmbedNfs

import EmbedNfs.Effects.Clients
import EmbedNfs.Effects.Delegations
import EmbedNfs.Effects.Holdings
import EmbedNfs.Server.Scripted

/-!
# The revocation flag

Revoking a delegation sets a flag in the record of its client, which SEQUENCE reports from then on.
Nothing clears the flag when the delegations are gone: neither FREE_STATEID, with which a client
acknowledges the loss, nor DELEGPURGE or an invalidation. CREATE_SESSION and SETCLIENTID_CONFIRM
clear it whether they are gone or not. The flag tells the truth as long as no step takes the last
revoked delegation of a client away, and none clears the flag of a client that still has one.
-/

namespace EmbedNfs

/-- The flag that SEQUENCE reports. -/
def ClientState.flagged (client : ClientState) : Bool :=
  client.statusFlags &&& seq4StatusRecallableStateRevoked ≠ 0

theorem ClientState.flagged_of_zero {client : ClientState} (h : client.statusFlags = 0) :
    client.flagged = false := by
  simp [flagged, h]

namespace StateInner

/-- The client has a delegation that has been revoked and not been freed. -/
def hasRevoked (inner : StateInner) (clientid : Clientid4) : Bool :=
  inner.delegations.any fun _ state => state.clientid = clientid ∧ state.status = .revoked

/-- Every client with a revoked delegation among those to go has one that stays. -/
def spares (inner : StateInner) (gone : StateidOther → DelegationState → Bool) : Bool :=
  !inner.delegations.any fun k state => state.status = .revoked ∧ gone k state ∧
    !inner.delegations.any fun k' state' =>
      state'.clientid = state.clientid ∧ state'.status = .revoked ∧ !gone k' state'

/-- The flags of running clients tell the truth. -/
def Signals (inner : StateInner) : Prop :=
  ∀ l client, inner.clients.get l = some client → client.leaseState.isActive = true →
    client.flagged = inner.hasRevoked l

variable {a b : StateInner} {l : Clientid4}

theorem hasRevoked_iff : a.hasRevoked l = true ↔ ∃ k state, a.delegations.get k = some state ∧
    state.clientid = l ∧ state.status = .revoked := by
  simp [hasRevoked, Table.any_eq_true]

theorem hasRevoked_congr (h : ∀ k state, state.clientid = l → state.status = .revoked →
    (a.delegations.get k = some state ↔ b.delegations.get k = some state)) :
    a.hasRevoked l = b.hasRevoked l := by
  rw [Bool.eq_iff_iff, hasRevoked_iff, hasRevoked_iff]
  refine exists_congr fun k => exists_congr fun state => ?_
  refine and_congr_left fun hstate => ?_
  exact h k state hstate.1 hstate.2

theorem hasRevoked_of_sub (h : a.delegations.Sub b.delegations) (hnone : b.hasRevoked l = false) :
    a.hasRevoked l = false := by
  rw [Bool.eq_false_iff, ne_eq, hasRevoked_iff] at hnone ⊢
  rintro ⟨k, state, hk, hstate⟩
  exact hnone ⟨k, state, h k state hk, hstate⟩

theorem hasRevoked_of_spares {gone : StateidOther → DelegationState → Bool}
    (hspares : b.spares gone = true)
    (hget : ∀ k state, state.status = .revoked → (a.delegations.get k = some state ↔
      b.delegations.get k = some state ∧ gone k state = false)) :
    a.hasRevoked l = b.hasRevoked l := by
  rw [Bool.eq_iff_iff, hasRevoked_iff, hasRevoked_iff]
  constructor
  · rintro ⟨k, state, hk, hid, hrevoked⟩
    exact ⟨k, state, ((hget k state hrevoked).mp hk).1, hid, hrevoked⟩
  · rintro ⟨k, state, hk, hid, hrevoked⟩
    cases hgone : gone k state with
    | false => exact ⟨k, state, (hget k state hrevoked).mpr ⟨hk, hgone⟩, hid, hrevoked⟩
    | true =>
      unfold spares at hspares
      rw [Bool.not_eq_true', Table.any_eq_false] at hspares
      have hother := hspares k state hk
      simp only [hrevoked, hgone, true_and, decide_eq_false_iff_not, Bool.not_eq_true',
        Bool.not_eq_false, Table.any_eq_true, decide_eq_true_eq] at hother
      obtain ⟨k', state', hk', hid', hrevoked', hkept⟩ := hother
      exact ⟨k', state', (hget k' state' hrevoked').mpr ⟨hk', hkept⟩, hid'.trans hid, hrevoked'⟩

theorem Signals.of_same (h : b.Signals)
    (hsame : ∀ l client, a.clients.get l = some client → client.leaseState.isActive = true →
      (∃ old, b.clients.get l = some old ∧ old.leaseState.isActive = true ∧
        old.statusFlags = client.statusFlags) ∧ a.hasRevoked l = b.hasRevoked l) :
    a.Signals := by
  intro l client hclient hactive
  obtain ⟨⟨old, hold, hold', hflags⟩, hrevoked⟩ := hsame l client hclient hactive
  rw [hrevoked, ← h l old hold hold']
  unfold ClientState.flagged
  rw [hflags]

theorem Signals.of_clients (h : b.Signals) (hclients : a.clients = b.clients)
    (hrevoked : ∀ l, a.hasRevoked l = b.hasRevoked l) : a.Signals :=
  h.of_same fun l client hclient hactive =>
    ⟨⟨client, hclients ▸ hclient, hactive, rfl⟩, hrevoked l⟩

theorem Signals.of_sameFor (h : b.Signals)
    (hsame : ∀ l client, a.clients.get l = some client → client.leaseState.isActive = true →
      SameFor l a b) : a.Signals :=
  h.of_same fun l client hclient hactive =>
    have hl := hsame l client hclient hactive
    ⟨⟨client, hl.client ▸ hclient, hactive, rfl⟩,
      hasRevoked_congr fun k state hid _ => hl.delegations k state hid⟩

theorem Indexed.sameFor_of_reap (hindexed : b.Indexed) {now : Instant} {client : ClientState}
    (hclient : (b.reapExpiredClientsLocked now).clients.get l = some client)
    (hactive : client.leaseState.isActive = true) :
    SameFor l (b.reapExpiredClientsLocked now) b := by
  obtain ⟨hdropping, old, hold, rfl⟩ := b.of_get_reap_clients now hclient
  refine hindexed.sameFor_reap_of_not_mem (fun hexpiring => ?_) hdropping
  obtain ⟨old', hold', hexpired⟩ := (b.mem_expiring now).mp hexpiring
  cases hold.symm.trans hold'
  simp [afterExpiry, hexpired, expired, ClientLeaseState.isActive] at hactive

theorem Signals.reap (h : b.Signals) (hindexed : b.Indexed) (now : Instant) :
    (b.reapExpiredClientsLocked now).Signals :=
  h.of_sameFor fun _ _ hclient hactive => hindexed.sameFor_of_reap hclient hactive

theorem Signals.drop (h : b.Signals) (hindexed : b.Indexed) (clientids : List Clientid4) :
    (clientids.foldl StateInner.dropClientState b).Signals := by
  refine h.of_sameFor fun l client hclient _ => hindexed.sameFor_drop ?_
  exact (of_get_dropClientStates_clients hclient).1

theorem Signals.modify (h : b.Signals) {k : Clientid4} {f : ClientState → ClientState}
    (hf : ∀ client, b.clients.get k = some client → (f client).leaseState.isActive = true →
      (f client).flagged = b.hasRevoked k) :
    Signals { b with clients := b.clients.modify k f } := by
  intro l client hclient hactive
  have hget : (b.clients.modify k f).get l = some client := hclient
  rcases Table.of_get_modify hget with ⟨rfl, old, hold, rfl⟩ | ⟨-, hget⟩
  · exact hf old hold hactive
  · exact h l client hget hactive

theorem Signals.insert (h : b.Signals) {k : Clientid4} {new : ClientState}
    (hflags : new.statusFlags = 0) (hrevoked : b.hasRevoked k = false) :
    Signals { b with clients := b.clients.insert k new } := by
  intro l client hclient hactive
  rcases Table.of_get_insert hclient with ⟨rfl, rfl⟩ | ⟨-, hget⟩
  · show _ = b.hasRevoked l
    rw [hrevoked]
    exact ClientState.flagged_of_zero hflags
  · exact h l client hget hactive

end StateInner

theorem StateInner.Signals.onlyMetadata {s s' : StateManager} (h : s.inner.Signals)
    (hs : s'.OnlyMetadata s) : s'.inner.Signals := by
  obtain ⟨_, _, _, rfl⟩ := hs
  exact h

/-! ## Sections -/

namespace StateManager

/-- The step does not put the flag of a client out of step: it takes no last revoked delegation of
a client away, does not clear the flag of a client that has one, enrols no client under an id with
one, and revives no expired client with a flag that does not fit. -/
def signalSafe (s : StateManager) : Section → Bool
  | .freeStateid stateid =>
    !(s.freeStateid stateid).isOk || s.inner.spares fun k _ => k = stateid.other
  | .purgeClientDelegations clientid => s.inner.spares fun _ state => state.clientid = clientid
  | .dropBelonging ids => s.inner.spares fun _ state => belongsTo state.object ids
  | .grantDirectoryDelegation object clientid sessionid perClient total =>
    match s.grantDirectoryDelegation object clientid sessionid perClient total with
    | .ok (.granted stateid, _) => s.inner.spares fun k _ => k = stateid.other
    | _ => true
  | .createSession args _ => !s.reapExpiredClients.inner.hasRevoked args.clientid
  | .setClientIdConfirm args => !s.reapExpiredClients.inner.hasRevoked args.clientid
  | .exchangeId _ => !s.reapExpiredClients.inner.hasRevoked s.nextClientid
  | .setClientId args =>
    let reaped := s.reapExpiredClients
    let clientid := (reaped.setClientIdReaped args).1.clientid
    !reaped.inner.hasRevoked s.nextClientid &&
      (reaped.inner.clients.get clientid).all fun client =>
        client.leaseState.isActive || client.flagged = reaped.inner.hasRevoked clientid
  | _ => true

variable {s s' : StateManager} {c : Section}

theorem ClientAct.signals (h : ClientAct s c s') (hindexed : s.inner.Indexed)
    (hsignals : s.inner.Signals)
    (hcreate : ∀ args conn, c = .createSession args conn → s.inner.hasRevoked args.clientid = false)
    (hconfirm : ∀ args, c = .setClientIdConfirm args → s.inner.hasRevoked args.clientid = false)
    (hexchange : ∀ args, c = .exchangeId args → c.reaps = true →
      s.inner.hasRevoked s.nextClientid = false)
    (hintroduce : ∀ args, c = .setClientId args → s.inner.hasRevoked s.nextClientid = false ∧
      ∀ client, s.inner.clients.get (s.setClientIdReaped args).1.clientid = some client →
        client.leaseState.isActive = true ∨
          client.flagged = s.inner.hasRevoked (s.setClientIdReaped args).1.clientid) :
    s'.inner.Signals := by
  cases h with
  | sessions sessions _ h =>
    rw [h]
    exact hsignals
  | reclaimed clientid h =>
    rw [h]
    exact hsignals.modify fun client hclient hactive => hsignals clientid client hclient hactive
  | sequenced clientid client sessions _ hget hactive _ h =>
    rw [h]
    have hmodified := hsignals.modify (k := clientid) (f := ClientState.extended s.clock)
      fun client' hclient' _ => by
        cases hget.symm.trans hclient'
        exact hsignals clientid client hget hactive
    exact hmodified
  | renewed clientid client _ hget hactive h =>
    rw [h]
    refine hsignals.modify fun client' hclient' _ => ?_
    cases hget.symm.trans hclient'
    exact hsignals clientid client hget hactive
  | destroyed clientid h =>
    rw [h]
    exact hsignals.drop hindexed [clientid]
  | exchanged args hc hreaps h =>
    rw [h]
    rcases s.exchangeIdReaped_cases args with ⟨_, _, _, _, _, _, _, hs⟩ | ⟨-, -, inner, rfl, hs⟩
    · rw [hs]
      exact hsignals
    · rw [hs]
      refine (hsignals.drop hindexed _).insert rfl ?_
      exact StateInner.hasRevoked_of_sub (StateInner.dropClientStates_shrunk _ _).delegations
        (hexchange args hc hreaps)
  | created args conn res hc h =>
    obtain ⟨client, inner, hget, hactive, rfl, -, hs⟩ := createSessionReaped_ok h
    rw [hs]
    have hconfirmed : StateInner.Signals { s.inner with
        clients := s.inner.clients.modify args.clientid
          (ClientState.established s.clock (client.sequenceId + 1)) } := by
      refine hsignals.modify fun client' _ _ => ?_
      rw [hcreate args conn hc]
      exact ClientState.flagged_of_zero rfl
    have hindexed' := hindexed.with_tables (s.inner.clients.modify args.clientid
      (ClientState.established s.clock (client.sequenceId + 1))) s.inner.sessions
      s.inner.openFiles s.inner.lockFiles
    cases hreplaced : client.replacedClientid with
    | none => exact hconfirmed
    | some old => exact hconfirmed.drop hindexed' [old]
  | introduced args hc h =>
    rw [h]
    obtain ⟨hnext, hfound⟩ := hintroduce args hc
    obtain ⟨clientids, inner, rfl, hs⟩ := s.setClientIdReaped_cases args
    have hdropped := hsignals.drop hindexed clientids
    rcases hs with ⟨confirm, hs⟩ | ⟨client, -, hflags, hs⟩
    · rw [hs]
      refine hdropped.modify fun client hclient _ => ?_
      show client.flagged = _
      have hsame :=
        hindexed.sameFor_drop (StateInner.of_get_dropClientStates_clients hclient).1
      rcases hfound client (hsame.client ▸ hclient) with hactive | hfits
      · exact hdropped _ client hclient hactive
      · rw [hfits]
        exact (StateInner.hasRevoked_congr fun k state hid _ => hsame.delegations k state hid).symm
    · rw [hs]
      refine hdropped.insert hflags ?_
      exact StateInner.hasRevoked_of_sub (StateInner.dropClientStates_shrunk _ _).delegations hnext
  | confirmed args hc h =>
    rw [setClientIdConfirmReaped_clients h]
    refine hsignals.modify fun client _ _ => ?_
    rw [hconfirm args hc]
    exact ClientState.flagged_of_zero rfl

theorem removeDelegationLocked_signals (h : s.inner.Signals) (other : StateidOther)
    (hspares : (s.inner.spares fun k _ => k = other) = true) :
    (s.inner.removeDelegationLocked other).Signals := by
  obtain ⟨_, _, _, honly⟩ := s.inner.removeDelegationLocked_only other
  have hclients : (s.inner.removeDelegationLocked other).clients = s.inner.clients := by rw [honly]
  refine h.of_clients hclients fun l => StateInner.hasRevoked_of_spares hspares ?_
  intro k state _
  rw [StateInner.get_removeDelegationLocked]
  by_cases hk : k = other
  · simp [hk]
  · simp [hk]

theorem revokeRecallableDelegation_signals {stateid : Stateid4} (h : s.inner.Signals)
    (hok : s.revokeRecallableDelegation stateid = .ok s') : s'.inner.Signals := by
  obtain ⟨state, hget, rfl⟩ := revokeRecallableDelegation_ok hok
  intro l client hclient hactive
  have hclient' : (s.inner.clients.modify state.clientid fun client =>
      { client with statusFlags := client.statusFlags ||| seq4StatusRecallableStateRevoked }).get l =
        some client := hclient
  rcases Table.of_get_modify hclient' with ⟨rfl, old, -, rfl⟩ | ⟨hl, hclient'⟩
  · have hset : ∀ flags : U32, (flags ||| seq4StatusRecallableStateRevoked) &&&
        seq4StatusRecallableStateRevoked ≠ 0 := by
      intro flags
      have habsorb : (flags ||| seq4StatusRecallableStateRevoked) &&&
          seq4StatusRecallableStateRevoked = seq4StatusRecallableStateRevoked := by
        ext i hi
        simp only [BitVec.getElem_and, BitVec.getElem_or]
        cases seq4StatusRecallableStateRevoked[i] <;> simp
      rw [habsorb]
      decide
    have hrevoked : ∃ k state', (s.inner.delegations.modify stateid.other fun deleg =>
        { deleg with status := .revoked }).get k = some state' ∧
        state'.clientid = state.clientid ∧ state'.status = .revoked :=
      ⟨stateid.other, _, Table.get_modify_self hget _, rfl, rfl⟩
    rw [StateInner.hasRevoked_iff.mpr hrevoked]
    exact decide_eq_true (hset old.statusFlags)
  · rw [h l client hclient' hactive]
    refine StateInner.hasRevoked_congr fun k state' hid hrevoked => ?_
    show _ ↔ (s.inner.delegations.modify stateid.other _).get k = some state'
    rw [Table.get_modify]
    split
    · rename_i hk
      subst hk
      constructor
      · intro hk
        cases hget.symm.trans hk
        exact absurd hid.symm hl
      · intro hk
        rw [hget] at hk
        cases hk
        exact absurd hid.symm hl
    · rfl

theorem markRecall_of_revoked {now : Instant} {excluded : Option Clientid4}
    {state : DelegationState} (h : (markRecall now excluded state).status = .revoked) :
    markRecall now excluded state = state := by
  unfold markRecall at h ⊢
  split at h
  · cases h
  · rename_i hnot
    rw [if_neg hnot]

theorem grantDirectoryDelegation_signals {object : ServerObject} {clientid : Clientid4}
    {sessionid : Option Sessionid4} {perClient total : Nat} {grant : DirectoryDelegationGrant}
    (h : s.inner.Signals)
    (hsafe : s.signalSafe (.grantDirectoryDelegation object clientid sessionid perClient total) =
      true)
    (hok : s.grantDirectoryDelegation object clientid sessionid perClient total =
      .ok (grant, s')) : s'.inner.Signals := by
  rcases grantDirectoryDelegation_ok hok with rfl | ⟨-, -, rfl, rfl⟩
  · exact h
  · simp only [signalSafe, hok] at hsafe
    refine h.of_clients rfl fun l => StateInner.hasRevoked_of_spares hsafe ?_
    intro k state hrevoked
    rw [Table.get_insert]
    by_cases hk : k = .mint s.nextStateid clientid
    · simp only [hk, if_true, decide_true, Bool.true_eq_false, and_false, iff_false]
      rintro ⟨⟩
      cases hrevoked
    · simp [hk]

theorem returnDelegationState_signals {stateid : Stateid4} {clientid : Option Clientid4}
    (h : s.inner.Signals) (hok : s.returnDelegationState stateid clientid = .ok s') :
    s'.inner.Signals := by
  obtain ⟨hstatus, rfl⟩ := returnDelegationState_status hok
  refine removeDelegationLocked_signals h _ ?_
  unfold StateInner.spares
  rw [Bool.not_eq_true', Table.any_eq_false]
  intro k state hk
  rw [decide_eq_false_iff_not]
  rintro ⟨hrevoked, hgone, -⟩
  exact hstatus state (of_decide_eq_true hgone ▸ hk) hrevoked

theorem removeClientDelegationsLocked_signals (h : s.inner.Signals) (hindexed : s.inner.Indexed)
    (clientid : Clientid4)
    (hspares : (s.inner.spares fun _ state => state.clientid = clientid) = true) :
    (s.inner.removeClientDelegationsLocked clientid).Signals := by
  obtain ⟨_, _, _, honly⟩ := s.inner.removeClientDelegationsLocked_only clientid
  have hclients : (s.inner.removeClientDelegationsLocked clientid).clients = s.inner.clients := by
    rw [honly]
  refine h.of_clients hclients fun l => StateInner.hasRevoked_of_spares hspares ?_
  intro k state _
  rw [hindexed.get_removeClientDelegationsLocked, Option.filter_eq_some_iff]
  simp

theorem beginDirectoryRecallExcluding_signals (h : s.inner.Signals) (object : ServerObject)
    (excluded : Option Clientid4) :
    (s.beginDirectoryRecallExcluding object excluded).2.inner.Signals := by
  refine h.of_clients rfl fun l => StateInner.hasRevoked_congr fun k state _ hrevoked => ?_
  show (beginRecalls s.clock excluded (indexed s.inner.dirDelegations object)
    s.inner.delegations).2.get k = some state ↔ _
  rw [get_beginRecalls]
  split
  · rw [Option.map_eq_some_iff]
    constructor
    · rintro ⟨old, hold, rfl⟩
      rw [hold, markRecall_of_revoked hrevoked]
    · intro hk
      refine ⟨state, hk, ?_⟩
      unfold markRecall
      rw [if_neg (by simp [hrevoked])]
  · rfl

theorem dropBelonging_signals (h : s.inner.Signals) (ids : List ObjectId)
    (hspares : (s.inner.spares fun _ state => belongsTo state.object ids) = true) :
    (s.dropBelonging ids).2.inner.Signals := by
  refine h.of_clients rfl fun l => StateInner.hasRevoked_of_spares hspares ?_
  intro k state _
  rw [get_dropBelonging_delegations, Table.mem_keysWhere]
  refine and_congr_right fun hk => ?_
  rw [hk]
  simp

theorem runSection_administers_signals (s : StateManager) (c : Section)
    (hadministers : c.administers = true) (hindexed : s.inner.Indexed) (h : s.inner.Signals)
    (hsafe : s.signalSafe c = true) : (s.runSection c).2.inner.Signals := by
  have hboth : (s.reapedFor c).inner.Indexed ∧ (s.reapedFor c).inner.Signals := by
    unfold reapedFor
    split
    · exact ⟨hindexed.reap s.clock, h.reap hindexed s.clock⟩
    · exact ⟨hindexed, h⟩
  refine (s.runSection_clientAct c hadministers).signals hboth.1 hboth.2 ?_ ?_ ?_ ?_
  · rintro args conn rfl
    exact (Bool.not_eq_true' _).mp hsafe
  · rintro args rfl
    exact (Bool.not_eq_true' _).mp hsafe
  · rintro args rfl hreaps
    rw [reapedFor, if_pos hreaps]
    exact (Bool.not_eq_true' _).mp hsafe
  · rintro args rfl
    obtain ⟨hnext, hfound⟩ := Bool.and_eq_true_iff.mp hsafe
    refine ⟨(Bool.not_eq_true' _).mp hnext, fun client hclient => ?_⟩
    have hclient' : s.reapExpiredClients.inner.clients.get
        (s.reapExpiredClients.setClientIdReaped args).1.clientid = some client := hclient
    rw [hclient', Option.all_some, Bool.or_eq_true, decide_eq_true_eq] at hfound
    exact hfound

theorem runSection_signals (s : StateManager) (c : Section) (hindexed : s.inner.Indexed)
    (h : s.inner.Signals) (hsafe : s.signalSafe c = true) : (s.runSection c).2.inner.Signals := by
  cases hadministers : c.administers with
  | true => exact s.runSection_administers_signals c hadministers hindexed h hsafe
  | false =>
    cases hfiles : c.ofFiles with
    | true =>
      obtain ⟨_, _, _, hs⟩ := s.runSection_onlyFiles c hfiles
      rw [hs]
      exact h
    | false =>
    cases hmeta : c.metadataOf with
    | some object => exact h.onlyMetadata (s.runSection_onlyMetadata hmeta)
    | none =>
      cases c with
      | freeStateid stateid =>
        refine commitUnit_keeps (fun s => s.inner.Signals) h fun s' hok => ?_
        rcases freeStateid_ok hok with ⟨-, rfl⟩ | rfl | rfl
        · exact h
        · exact h
        · simp only [signalSafe, hok, Except.isOk, Except.toBool, Bool.not_true,
            Bool.false_or] at hsafe
          exact removeDelegationLocked_signals h _ hsafe
      | grantDirectoryDelegation object clientid sessionid perClient total =>
        exact commit_keeps (fun s => s.inner.Signals) h fun grant s' =>
          grantDirectoryDelegation_signals h hsafe
      | returnDelegationState stateid clientid =>
        exact commitUnit_keeps (fun s => s.inner.Signals) h fun s' =>
          returnDelegationState_signals h
      | purgeClientDelegations clientid =>
        exact removeClientDelegationsLocked_signals h hindexed clientid hsafe
      | beginDirectoryRecallExcluding object excluded =>
        exact beginDirectoryRecallExcluding_signals h object excluded
      | revokeRecallableDelegation stateid =>
        exact commitUnit_keeps (fun s => s.inner.Signals) h fun s' =>
          revokeRecallableDelegation_signals h
      | dropBelonging ids => exact dropBelonging_signals h ids hsafe
      | nextCallbackTargetOn clientid conn =>
        obtain ⟨_, hs, -⟩ := s.nextCallbackTargetOn_only clientid conn
        show (s.nextCallbackTargetOn clientid conn).2.inner.Signals
        rw [hs]
        exact h
      | finishSequence token response =>
        refine commitUnit_keeps (fun s => s.inner.Signals) h fun s' hok => ?_
        rw [finishSequence_ok hok]
        exact h
      | _ =>
        first
          | (cases hadministers; done)
          | (cases hfiles; done)
          | (cases hmeta; done)
          | exact h

end StateManager

/-! ## Runs -/

/-- `StateManager.signalSafe` for a call of the server. -/
def Server.signalSafe {H : Type} (s : Server H) : Call H → Bool
  | .guarded q => s.state.signalSafe q
  | _ => true

theorem StateManager.prepareSequenceReaped_execute {s : StateManager} {args : SequenceArgs4}
    {fingerprint : Bytes} {conn : U64} {res : SequenceRes4} {token : SequenceCacheToken}
    (h : (s.prepareSequenceReaped args fingerprint conn).1 = .execute res token) :
    ∃ session client, s.inner.sessions.get args.sessionid = some session ∧
      s.inner.clients.get session.clientid = some client ∧
      client.leaseState.isActive = true ∧ res.statusFlags = client.statusFlags := by
  unfold prepareSequenceReaped at h
  split at h
  · cases h
  rename_i session hsession
  split at h
  · cases h
  rename_i slot hslot
  split at h
  · cases h
  rename_i client hclient
  split at h
  · cases h
  split at h
  · cases h
  rename_i deadline hlease
  refine ⟨session, client, hsession, hclient, by rw [hlease]; rfl, ?_⟩
  dsimp only at h
  unfold classifySlot at h
  split at h
  · cases h
    rfl
  · exfalso
    repeat' split at h
    all_goals cases h

section

variable {H α : Type} [DecidableEq H] {backend : Backend H} {boot : Boot}
  {threads : List (Request H α)} {tr : Trace H} {c : Machine H α}

theorem System.Run.signals
    (hrun : (Server.system backend).Run ⟨Server.new H boot, threads⟩ tr c)
    (hsafe : ∀ e ∈ tr, e.before.signalSafe e.call = true) :
    c.state.state.inner.Indexed ∧ c.state.state.inner.Signals := by
  refine hrun.inner_invariant (I := fun inner => inner.Indexed ∧ inner.Signals)
    ⟨StateInner.indexed_new boot, nofun⟩ ?_ ?_
  · intro s s' hd h
    refine ⟨hd.indexed h.1, h.2.of_same fun l client hclient hactive => ?_⟩
    refine ⟨⟨client, (hd.clients l).trans hclient, hactive, rfl⟩, ?_⟩
    refine StateInner.hasRevoked_congr fun k state _ _ => ?_
    rw [hd.delegations k]
  · intro e he q hq h
    have hstep := hsafe e he
    rw [hq] at hstep
    exact ⟨e.before.state.runSection_indexed q h.1,
      e.before.state.runSection_signals q h.1 h.2 hstep⟩

/-- **Revocation is signalled for as long as it is unacknowledged.** Let any requests run against
a server, with their steps interleaved in any order, and let no step put a flag out of step. In
every state, and for every session of a client whose lease is running, SEQUENCE reports the flag
exactly if the client has a delegation that has been revoked and not been freed. -/
theorem revocation_signalled
    (hrun : (Server.system backend).Run ⟨Server.new H boot, threads⟩ tr c)
    (hsafe : ∀ e ∈ tr, e.before.signalSafe e.call = true) (args : SequenceArgs4)
    (fingerprint : Bytes) (conn : U64) (res : SequenceRes4) (token : SequenceCacheToken)
    (clientid : Clientid4) (hsession : c.state.state.sessionClientid args.sessionid = some clientid)
    (hexecute : (c.state.state.runSection (.prepareSequence args fingerprint conn)).1 =
      .execute res token) :
    res.statusFlags &&& seq4StatusRecallableStateRevoked ≠ 0 ↔
      ∃ k state, c.state.state.inner.delegations.get k = some state ∧
        state.clientid = clientid ∧ state.status = .revoked := by
  obtain ⟨hindexed, hsignals⟩ := hrun.signals hsafe
  obtain ⟨session, client, hget, hclient, hactive, hflags⟩ :=
    StateManager.prepareSequenceReaped_execute hexecute
  have hid : session.clientid = clientid := by
    have hold : (c.state.state.inner.sessions.get args.sessionid).filter _ = some session :=
      (StateInner.get_reap_sessions _ _ _).symm.trans hget
    have hsame := (Option.filter_eq_some_iff.mp hold).1
    rw [StateManager.sessionClientid, hsame] at hsession
    exact Option.some.inj hsession
  subst hid
  -- Reaping does not touch a client whose lease is running.
  have hreaped := hindexed.sameFor_of_reap hclient hactive
  have hflagged : client.flagged = c.state.state.inner.hasRevoked session.clientid :=
    hsignals _ client (hreaped.client ▸ hclient) hactive
  rw [hflags, ← StateInner.hasRevoked_iff, ← hflagged]
  simp [ClientState.flagged]

end

namespace Scripted

/-- A client's delegation is recalled and revoked. -/
def revokedSections : List Section :=
  sessionSetUp ++ [.grantDirectoryDelegation (.fs 1) 1 none 1 2,
    .beginDirectoryRecallExcluding (.fs 1) none, .revokeRecallableDelegation ⟨1, .mint 1 1⟩]

/-- The first request on the client's session. -/
def openingSequence : SequenceArgs4 := ⟨mintSessionid 1 2, 1, 0, 0, false⟩

end Scripted

open Scripted in
/-- The client has acknowledged the loss with FREE_STATEID, and is told of it all the same. -/
theorem revocation_signalled_after_free :
    let sections := revokedSections ++ [Section.freeStateid ⟨1, .mint 1 1⟩]
    ∃ tr c, (Server.system Backend.single).Run
        ⟨Server.new Unit .fixed, sections.map (Server.sectionThread ())⟩ tr c ∧
      c.state.state.inner.delegations.entries = [] ∧
      ∃ res token, (c.state.state.runSection (.prepareSequence openingSequence [] 0)).1 =
          .execute res token ∧
        res.statusFlags &&& seq4StatusRecallableStateRevoked ≠ 0 := by
  intro sections
  refine ⟨_, _, Server.sections_run () sections _ [], by decide +kernel,
    ⟨mintSessionid 1 2, 1, 0, 0, 0, 0x40⟩, ⟨mintSessionid 1 2, 0, []⟩, by decide +kernel,
    by decide⟩

open Scripted in
/-- The client is told as long as it has not acknowledged the loss. -/
theorem revocation_signalled_unacknowledged :
    let s := (revokedSections.foldl Server.afterSection (Server.new Unit .fixed)).state
    (0x40 : U32) &&& seq4StatusRecallableStateRevoked ≠ 0 ↔
      ∃ k state, s.inner.delegations.get k = some state ∧ state.clientid = 1 ∧
        state.status = .revoked := by
  intro s
  have hrun : (Server.system Backend.single).Run
      ⟨Server.new Unit .fixed, revokedSections.map (Server.sectionThread ())⟩ _ _ :=
    Server.sections_run () revokedSections _ []
  have hall : ((Server.new Unit .fixed).sectionEvents 0 revokedSections).all (fun e =>
      e.before.signalSafe e.call) = true := by decide +kernel
  have hsession : s.sessionClientid (mintSessionid 1 2) = some 1 := by decide +kernel
  have hexecute : (s.runSection (.prepareSequence openingSequence [] 0)).1 =
      .execute ⟨mintSessionid 1 2, 1, 0, 0, 0, 0x40⟩ ⟨mintSessionid 1 2, 0, []⟩ := by
    decide +kernel
  exact revocation_signalled hrun (List.all_eq_true.mp hall) openingSequence [] 0 _ _ 1 hsession
    hexecute

end EmbedNfs

import EmbedNfs.Effects.Leases
import EmbedNfs.Effects.Shrinking

/-!
# What a step does to delegations

A grant installs one delegation. Every other section leaves each delegation as it was, moves it
on (granted, being recalled, revoked) or takes it away; none comes back to life. The two indexes
stay exact throughout.
-/

namespace EmbedNfs

/-- What may become of a delegation: it can only cease to be live. -/
structure DelegationState.Ages (a b : DelegationState) : Prop where
  object : a.object = b.object
  clientid : a.clientid = b.clientid
  stateidSeq : a.stateidSeq = b.stateidSeq
  live : a.status.isLive = true → b.status.isLive = true
  granted : a.status = .granted → b.status = .granted

theorem DelegationState.Ages.refl (a : DelegationState) : a.Ages a := ⟨rfl, rfl, rfl, id, id⟩

/-- Every delegation of the first table comes from the second. -/
def DelegationsAge (t u : Table StateidOther DelegationState) : Prop :=
  ∀ k a, t.get k = some a → ∃ b, u.get k = some b ∧ a.Ages b

theorem DelegationsAge.of_sub {t u : Table StateidOther DelegationState} (h : t.Sub u) :
    DelegationsAge t u :=
  fun k a ha => ⟨a, h k a ha, .refl a⟩

theorem markRecall_ages (now : Instant) (excluded : Option Clientid4) (state : DelegationState) :
    (StateManager.markRecall now excluded state).Ages state := by
  unfold StateManager.markRecall
  split
  · rename_i hgranted
    exact ⟨rfl, rfl, rfl, fun _ => by rw [hgranted.1]; rfl, fun _ => hgranted.1⟩
  · exact .refl state

namespace StateManager

theorem beginDirectoryRecallExcluding_age (s : StateManager) (object : ServerObject)
    (excluded : Option Clientid4) :
    DelegationsAge (s.beginDirectoryRecallExcluding object excluded).2.inner.delegations
      s.inner.delegations := by
  intro k a ha
  have hget := get_beginRecalls s.clock excluded (indexed s.inner.dirDelegations object)
    s.inner.delegations k
  rw [show (beginRecalls s.clock excluded (indexed s.inner.dirDelegations object)
    s.inner.delegations).2.get k = some a from ha] at hget
  split at hget
  · obtain ⟨b, hb, rfl⟩ := Option.map_eq_some_iff.mp hget.symm
    exact ⟨b, hb, markRecall_ages _ _ b⟩
  · exact ⟨a, hget.symm, .refl a⟩

theorem revokeRecallableDelegation_age {s s' : StateManager} {stateid : Stateid4}
    (h : s.revokeRecallableDelegation stateid = .ok s') :
    DelegationsAge s'.inner.delegations s.inner.delegations := by
  obtain ⟨state, -, rfl⟩ := revokeRecallableDelegation_ok h
  intro k a ha
  rcases Table.of_get_modify ha with ⟨rfl, b, hb, rfl⟩ | ⟨-, ha⟩
  · exact ⟨b, hb, rfl, rfl, rfl, (by cases ·), (by cases ·)⟩
  · exact ⟨a, ha, .refl a⟩

theorem revokeRecallableDelegation_dead {s : StateManager} (stateid : Stateid4)
    (hseq : ∀ state, s.inner.delegations.get stateid.other = some state →
      state.stateidSeq = stateid.seqid) {state : DelegationState}
    (h : (s.runSection (.revokeRecallableDelegation stateid)).2.inner.delegations.get
      stateid.other = some state) : state.status = .revoked := by
  have h' : (s.commitUnit (s.revokeRecallableDelegation stateid)).2.inner.delegations.get
      stateid.other = some state := h
  cases hold : s.inner.delegations.get stateid.other with
  | none =>
    simp only [revokeRecallableDelegation, hold] at h'
    exact absurd (hold.symm.trans h') (by simp)
  | some old =>
    have hok : s.revokeRecallableDelegation stateid = .ok
        { s with
          inner.delegations := s.inner.delegations.modify stateid.other fun state =>
            { state with status := .revoked }
          inner.clients := s.inner.clients.modify old.clientid fun client =>
            { client with
              statusFlags := client.statusFlags ||| seq4StatusRecallableStateRevoked } } := by
      simp only [revokeRecallableDelegation, hold, validateStateidSeq, hseq old hold]
      simp [bind, Except.bind, pure, Except.pure]
    rw [hok] at h'
    have hget : (s.inner.delegations.modify stateid.other fun state =>
        { state with status := .revoked }).get stateid.other = some state := h'
    rw [Table.get_modify_self hold] at hget
    cases hget
    rfl

/-- **Delegations age.** Only a grant makes a delegation, or brings one to life. -/
theorem runSection_age (s : StateManager) (c : Section)
    (hc : ∀ object clientid sessionid perClient total,
      c ≠ .grantDirectoryDelegation object clientid sessionid perClient total) :
    DelegationsAge (s.runSection c).2.inner.delegations s.inner.delegations := by
  have hrefl := DelegationsAge.of_sub (Table.Sub.refl s.inner.delegations)
  cases hfiles : c.ofFiles with
  | true =>
    obtain ⟨_, _, _, h⟩ := s.runSection_onlyFiles c hfiles
    rw [h]
    exact hrefl
  | false =>
    cases c with
    | grantDirectoryDelegation object clientid sessionid perClient total =>
      exact absurd rfl (hc object clientid sessionid perClient total)
    | beginDirectoryRecallExcluding object excluded =>
      exact s.beginDirectoryRecallExcluding_age object excluded
    | revokeRecallableDelegation stateid =>
      refine commitUnit_snd (R := fun s' s => DelegationsAge s'.inner.delegations s.inner.delegations)
        hrefl fun s' hok => ?_
      exact revokeRecallableDelegation_age hok
    | _ => first | exact .of_sub (s.runSection_shrunk _ rfl).delegations | cases hfiles

end StateManager

/-! ## The indexes -/

/-- A property of the delegations and their indexes that only a grant can break: delegations may
be removed one at a time or with the objects they are on, and they may age in place. -/
structure DelegationClosed (P : StateInner → Prop) : Prop where
  same : ∀ a b : StateInner, P b → a.delegations = b.delegations →
    a.dirDelegations = b.dirDelegations → a.clientDelegations = b.clientDelegations → P a
  remove : ∀ inner other, P inner → P (inner.removeDelegationLocked other)
  age : ∀ a b : StateInner, P b → DelegationsAge a.delegations b.delegations →
    (∀ k, (b.delegations.get k).isSome = true → (a.delegations.get k).isSome = true) →
    a.dirDelegations = b.dirDelegations → a.clientDelegations = b.clientDelegations → P a
  drop : ∀ (s : StateManager) ids, P s.inner → P (s.dropBelonging ids).2.inner

namespace DelegationClosed

variable {P : StateInner → Prop}

theorem foldl {f : StateInner → Clientid4 → StateInner} (hf : ∀ inner id, P inner → P (f inner id))
    (ids : List Clientid4) {inner : StateInner} (h : P inner) : P (ids.foldl f inner) := by
  induction ids generalizing inner with
  | nil => exact h
  | cons id ids ih => exact ih (hf inner id h)

variable (hP : DelegationClosed P)

include hP

theorem removeClientDelegations (inner : StateInner) (clientid : Clientid4) (h : P inner) :
    P (inner.removeClientDelegationsLocked clientid) := by
  have hfold : ∀ (others : List StateidOther) (inner : StateInner), P inner →
      P (others.foldl StateInner.removeDelegationLocked inner) := by
    intro others
    induction others with
    | nil => exact fun _ h => h
    | cons other others ih => exact fun inner h => ih _ (hP.remove inner other h)
  exact hfold _ _ h

theorem revokeClientState (inner : StateInner) (clientid : Clientid4) (h : P inner) :
    P (inner.revokeClientState clientid) :=
  hP.removeClientDelegations _ clientid (hP.same _ inner h rfl rfl rfl)

theorem dropClientState (inner : StateInner) (clientid : Clientid4) (h : P inner) :
    P (inner.dropClientState clientid) := by
  have hsessions : P { inner with
      sessions := inner.sessions.retain fun _ session => session.clientid ≠ clientid } :=
    hP.same _ inner h rfl rfl rfl
  exact hP.same _ _ (hP.revokeClientState _ clientid hsessions) rfl rfl rfl

theorem dropClientStates (inner : StateInner) (clientids : List Clientid4) (h : P inner) :
    P (clientids.foldl StateInner.dropClientState inner) :=
  foldl hP.dropClientState clientids h

theorem reap (inner : StateInner) (now : Instant) (h : P inner) :
    P (inner.reapExpiredClientsLocked now) := by
  rw [StateInner.reapExpiredClientsLocked_eq]
  refine hP.dropClientStates _ _ (foldl (fun inner id h => ?_) _ h)
  exact hP.same _ _ (hP.revokeClientState inner id h) rfl rfl rfl

theorem exchangeIdReaped (s : StateManager) (args : ExchangeIdArgs4) (h : P s.inner) :
    P (s.exchangeIdReaped args).2.inner := by
  rcases s.exchangeIdReaped_cases args with ⟨_, _, _, _, _, _, _, hs⟩ | ⟨_, _, inner, hinner, hs⟩
  · rw [hs]
    exact h
  · rw [hs, hinner]
    exact hP.same _ _ (hP.dropClientStates _ _ h) rfl rfl rfl

theorem confirmClient (s : StateManager) (clientid : Clientid4) (seq : Sequenceid4)
    (replaced : Option Clientid4) (h : P s.inner) : P (s.confirmClient clientid seq replaced) := by
  unfold StateManager.confirmClient
  cases replaced with
  | none => exact hP.same _ _ h rfl rfl rfl
  | some old => exact hP.dropClientState _ old (hP.same _ _ h rfl rfl rfl)

theorem setClientIdReaped (s : StateManager) (args : SetClientIdArgs4) (h : P s.inner) :
    P (s.setClientIdReaped args).2.inner := by
  unfold StateManager.setClientIdReaped
  dsimp only
  split
  · exact hP.same _ _ (hP.dropClientStates _ _ h) rfl rfl rfl
  · exact hP.same _ _ (hP.dropClientStates _ _ h) rfl rfl rfl

theorem beginDirectoryRecall (s : StateManager) (object : ServerObject)
    (excluded : Option Clientid4) (h : P s.inner) :
    P (s.beginDirectoryRecallExcluding object excluded).2.inner := by
  refine hP.age _ _ h (s.beginDirectoryRecallExcluding_age object excluded) (fun k hk => ?_) rfl rfl
  have hget := StateManager.get_beginRecalls s.clock excluded
    (indexed s.inner.dirDelegations object) s.inner.delegations k
  rw [show (s.beginDirectoryRecallExcluding object excluded).2.inner.delegations.get k = _ from hget]
  split
  · rw [Option.isSome_map]
    exact hk
  · exact hk

theorem revokeRecallable {s s' : StateManager} {stateid : Stateid4} (h : P s.inner)
    (hok : s.revokeRecallableDelegation stateid = .ok s') : P s'.inner := by
  have hage := StateManager.revokeRecallableDelegation_age hok
  obtain ⟨state, -, rfl⟩ := StateManager.revokeRecallableDelegation_ok hok
  refine hP.age _ _ h hage (fun k hk => ?_) rfl rfl
  rw [Table.get_modify]
  split
  · rw [Option.isSome_map]
    exact hk
  · exact hk

open StateManager in
/-- **Every section but a grant keeps such a property.** -/
theorem runSection (s : StateManager) (c : Section) (h : P s.inner)
    (hc : ∀ object clientid sessionid perClient total,
      c ≠ .grantDirectoryDelegation object clientid sessionid perClient total) :
    P (s.runSection c).2.inner := by
  have hreap : P s.reapExpiredClients.inner := hP.reap s.inner s.clock h
  cases hfiles : c.ofFiles with
  | true =>
    obtain ⟨_, _, _, hs⟩ := s.runSection_onlyFiles c hfiles
    rw [hs]
    exact hP.same _ _ h rfl rfl rfl
  | false =>
  cases hsessions : c.ofSessions with
  | true =>
    obtain ⟨t, _, _, rfl | rfl, hs⟩ := s.runSection_onlySessions c hsessions
    · rw [hs]
      exact hP.same _ _ h rfl rfl rfl
    · rw [hs]
      exact hP.same _ _ hreap rfl rfl rfl
  | false =>
  cases hmeta : c.metadataOf with
  | some object =>
    obtain ⟨_, _, _, hs⟩ := s.runSection_onlyMetadata hmeta
    rw [hs]
    exact hP.same _ _ h rfl rfl rfl
  | none =>
    cases c with
    | exchangeId args =>
      show P (s.exchangeId args).2.inner
      unfold StateManager.exchangeId
      split
      · exact h
      · exact hP.exchangeIdReaped _ args hreap
    | createSession args conn =>
      refine commit_keeps (fun s => P s.inner) hreap fun a s' hok => ?_
      obtain ⟨client, inner, -, -, rfl, -, rfl⟩ := createSessionReaped_ok hok
      exact hP.same _ _ (hP.confirmClient _ _ _ _ hreap) rfl rfl rfl
    | destroyClientid clientid =>
      refine commitUnit_keeps (fun s => P s.inner) hreap fun s' hok => ?_
      rw [destroyClientidReaped_ok hok]
      exact hP.dropClientState _ clientid hreap
    | setClientId args => exact hP.setClientIdReaped _ args hreap
    | freeStateid stateid =>
      refine commitUnit_keeps (fun s => P s.inner) h fun s' hok => ?_
      rcases freeStateid_ok hok with ⟨-, rfl⟩ | rfl | rfl
      · exact hP.same _ _ h rfl rfl rfl
      · exact hP.same _ _ h rfl rfl rfl
      · exact hP.remove _ _ h
    | grantDirectoryDelegation object clientid sessionid perClient total =>
      exact absurd rfl (hc object clientid sessionid perClient total)
    | returnDelegationState stateid clientid =>
      refine commitUnit_keeps (fun s => P s.inner) h fun s' hok => ?_
      obtain ⟨-, rfl⟩ := returnDelegationState_ok hok
      exact hP.remove _ _ h
    | purgeClientDelegations clientid => exact hP.removeClientDelegations _ clientid h
    | beginDirectoryRecallExcluding object excluded =>
      exact hP.beginDirectoryRecall s object excluded h
    | revokeRecallableDelegation stateid =>
      exact commitUnit_keeps (fun s => P s.inner) h fun s' hok => hP.revokeRecallable h hok
    | dropBelonging ids => exact hP.drop s ids h
    | _ =>
      first
        | (cases hfiles; done)
        | (cases hsessions; done)
        | (cases hmeta; done)
        | exact h

end DelegationClosed

theorem StateInner.Indexed.of_age {a b : StateInner} (h : b.Indexed)
    (hd : DelegationsAge a.delegations b.delegations)
    (hdir : a.dirDelegations = b.dirDelegations)
    (hc : a.clientDelegations = b.clientDelegations) : a.Indexed where
  byObject k state hk := by
    obtain ⟨old, hold, hage⟩ := hd k state hk
    rw [hdir, hage.object]
    exact h.byObject k old hold
  byClient k state hk := by
    obtain ⟨old, hold, hage⟩ := hd k state hk
    rw [hc, hage.clientid]
    exact h.byClient k old hold
  named clientid k hk := by
    rw [hc] at hk
    exact h.named clientid k hk
  embedded k state hk := by
    obtain ⟨old, hold, hage⟩ := hd k state hk
    rw [hage.clientid]
    exact h.embedded k old hold

namespace StateManager

theorem grantDirectoryDelegation_indexed {s s' : StateManager} {object : ServerObject}
    {clientid : Clientid4} {sessionid : Option Sessionid4} {perClient total : Nat}
    {grant : DirectoryDelegationGrant} (h : s.inner.Indexed)
    (hok : s.grantDirectoryDelegation object clientid sessionid perClient total =
      .ok (grant, s')) : s'.inner.Indexed := by
  rcases grantDirectoryDelegation_ok hok with rfl | ⟨-, -, -, rfl⟩
  · exact h
  · refine ⟨fun k state hk => ?_, fun k state hk => ?_, fun x k hk => ?_, fun k state hk => ?_⟩
    · rw [mem_indexed_addToIndex]
      rcases Table.of_get_insert hk with ⟨rfl, rfl⟩ | ⟨-, hk⟩
      · exact Or.inl ⟨rfl, rfl⟩
      · exact Or.inr (h.byObject k state hk)
    · rw [mem_indexed_addToIndex]
      rcases Table.of_get_insert hk with ⟨rfl, rfl⟩ | ⟨-, hk⟩
      · exact Or.inl ⟨rfl, rfl⟩
      · exact Or.inr (h.byClient k state hk)
    · rw [mem_indexed_addToIndex] at hk
      rcases hk with ⟨rfl, rfl⟩ | hk
      · exact StateidOther.clientid_mint _ _
      · exact h.named x k hk
    · rcases Table.of_get_insert hk with ⟨rfl, rfl⟩ | ⟨-, hk⟩
      · rw [StateidOther.clientid_mint]
      · exact h.embedded k state hk

theorem get_dropBelonging_delegations {s : StateManager} {ids : List ObjectId} {k : StateidOther}
    {state : DelegationState} :
    (s.dropBelonging ids).2.inner.delegations.get k = some state ↔
      s.inner.delegations.get k = some state ∧
        k ∉ s.inner.delegations.keysWhere (fun _ state => belongsTo state.object ids) := by
  have hget : (s.dropBelonging ids).2.inner.delegations.get k =
      if k ∈ s.inner.delegations.keysWhere (fun _ state => belongsTo state.object ids) then none
      else s.inner.delegations.get k := Table.get_foldl_erase _ _ k
  rw [hget]
  split
  · rename_i hmem
    simp [hmem]
  · rename_i hnot
    simp [hnot]

theorem dropBelonging_indexed {s : StateManager} (ids : List ObjectId) (h : s.inner.Indexed) :
    (s.dropBelonging ids).2.inner.Indexed := by
  have hkept : ∀ k state, (s.dropBelonging ids).2.inner.delegations.get k = some state →
      s.inner.delegations.get k = some state ∧
        k ∉ s.inner.delegations.keysWhere (fun _ state => belongsTo state.object ids) :=
    fun k state hk => get_dropBelonging_delegations.mp hk
  refine ⟨fun k state hk => ?_, fun k state hk => ?_, fun x k hk => ?_, fun k state hk => ?_⟩
  · obtain ⟨hold, hnot⟩ := hkept k state hk
    refine mem_indexed_retain.mpr ⟨?_, h.byObject k state hold⟩
    rw [Bool.not_eq_true', Bool.eq_false_iff]
    exact fun hbelongs => hnot (Table.mem_keysWhere.mpr ⟨state, hold, hbelongs⟩)
  · obtain ⟨hold, hnot⟩ := hkept k state hk
    exact mem_indexed_mapValues.mpr ⟨h.byClient k state hold, decide_eq_true hnot⟩
  · exact h.named x k (mem_indexed_mapValues.mp hk).1
  · exact h.embedded k state (hkept k state hk).1

end StateManager

theorem StateInner.Indexed.of_same {a b : StateInner} (h : b.Indexed)
    (hd : a.delegations = b.delegations) (hdir : a.dirDelegations = b.dirDelegations)
    (hc : a.clientDelegations = b.clientDelegations) : a.Indexed :=
  h.of_age (hd ▸ .of_sub (.refl _)) hdir hc

theorem StateInner.indexed_closed : DelegationClosed StateInner.Indexed where
  same _ _ := Indexed.of_same
  remove _ other h := h.removeDelegationLocked other
  age _ _ h hage _ := h.of_age hage
  drop _ ids h := StateManager.dropBelonging_indexed ids h

namespace StateManager

/-- **The indexes stay exact.** -/
theorem runSection_indexed (s : StateManager) (c : Section) (h : s.inner.Indexed) :
    (s.runSection c).2.inner.Indexed := by
  by_cases hgrant : ∃ object clientid sessionid perClient total,
      c = .grantDirectoryDelegation object clientid sessionid perClient total
  · obtain ⟨object, clientid, sessionid, perClient, total, rfl⟩ := hgrant
    exact commit_keeps (fun s => s.inner.Indexed) h fun _ _ => grantDirectoryDelegation_indexed h
  · exact StateInner.indexed_closed.runSection s c h
      fun object clientid sessionid perClient total heq =>
        hgrant ⟨object, clientid, sessionid, perClient, total, heq⟩

theorem Drift.indexed {s s' : StateManager} (hd : s.Drift s') (h : s.inner.Indexed) :
    s'.inner.Indexed where
  byObject k state hk :=
    (hd.dirDelegations _).mem_iff.mp (h.byObject k state ((hd.delegations k).trans hk))
  byClient k state hk :=
    (hd.clientDelegations _).mem_iff.mp (h.byClient k state ((hd.delegations k).trans hk))
  named clientid k hk := h.named clientid k ((hd.clientDelegations _).mem_iff.mpr hk)
  embedded k state hk := h.embedded k state ((hd.delegations k).trans hk)

end StateManager

theorem StateInner.indexed_new (boot : Boot) : (StateManager.new boot).inner.Indexed where
  byObject k state hk := by cases hk
  byClient k state hk := by cases hk
  named clientid k hk := by cases hk
  embedded k state hk := by cases hk

section

variable {H : Type} [DecidableEq H] {backend : Backend H}

theorem Server.exec_indexed {s s' : Server H} {q : Call H} {r : q.Ret}
    (hexec : (Server.system backend).exec s q r s') (h : s.state.inner.Indexed) :
    s'.state.inner.Indexed := by
  rcases Server.exec_inner hexec with ⟨q', -, hs⟩ | hs
  · rw [hs]
    exact s.state.runSection_indexed q' h
  · rw [hs]
    exact h

theorem System.Run.indexed {α : Type} {c c' : Machine H α}
    {tr : Trace H}
    (hrun : (Server.system backend).Run c tr c') (h : c.state.state.inner.Indexed) :
    c'.state.state.inner.Indexed :=
  hrun.invariant (I := fun s => s.state.inner.Indexed) h
    (fun _ _ h hdrift => hdrift.state.indexed h) fun _ _ hexec h => Server.exec_indexed hexec h

end

end EmbedNfs

import EmbedNfs.Properties.LeaseReaping

/-!
# What is on record for a client

The delegations of a client are found through an index, its sessions, opens and locks by a scan.
DESTROY_CLIENTID asks all four. The index lists exactly the client's delegations. The scans of
opens and locks do not look at `active`: an open that has been closed and a lock that has been
released keep the client busy until FREE_STATEID has been called for them.
-/

namespace EmbedNfs

section

variable {H α : Type} [DecidableEq H] {backend : Backend H} {boot : Boot}
  {threads : List (Request H α)} {tr : Trace H} {c : Machine H α}

/-- **The delegation indexes are exact.** As long as the counter of stateids has not come round,
the index of a client lists the delegations of that client, and the index of an object those on
that object. -/
theorem delegation_indexes_exact
    (hrun : (Server.system backend).Run ⟨Server.new H boot, threads⟩ tr c)
    (hissued : stateidsIssued tr < 2 ^ 32) (k : StateidOther) (clientid : Clientid4)
    (object : ServerObject) :
    let inner := c.state.state.inner
    (k ∈ indexed inner.clientDelegations clientid ↔
      ∃ state, inner.delegations.get k = some state ∧ state.clientid = clientid) ∧
    (k ∈ indexed inner.dirDelegations object ↔
      ∃ state, inner.delegations.get k = some state ∧ state.object = object) := by
  intro inner
  have hindexed : inner.Indexed := hrun.indexed (StateInner.indexed_new boot)
  have htraced : inner.Traced := hrun.delegationHistory.traced hissued
  exact ⟨htraced.mem_client hindexed, htraced.mem_dir hindexed⟩

end

open Scripted in
/-- One of two delegations is left after the other's directory has been invalidated. -/
theorem delegation_indexes_exact_invalidated :
    let sections := sessionSetUp ++ [.grantDirectoryDelegation (.fs 1) 1 none 2 2,
      .grantDirectoryDelegation (.fs 2) 1 none 2 2, .dropBelonging [1]]
    let inner := (sections.foldl Server.afterSection (Server.new Unit .fixed)).state.inner
    indexed inner.clientDelegations 1 = [.mint 2 1] ∧
      ∃ state, inner.delegations.get (.mint 2 1) = some state ∧ state.clientid = 1 := by
  intro sections inner
  have hrun : (Server.system Backend.single).Run
      ⟨Server.new Unit .fixed, sections.map (Server.sectionThread ())⟩ _ _ :=
    Server.sections_run () sections _ []
  have hissued : stateidsIssued ((Server.new Unit .fixed).sectionEvents 0 sections) < 2 ^ 32 := by
    decide +kernel
  have hindex : indexed inner.clientDelegations 1 = [.mint 2 1] := by decide +kernel
  refine ⟨hindex, (delegation_indexes_exact hrun hissued (.mint 2 1) 1 (.fs 2)).1.mp ?_⟩
  exact hindex ▸ List.mem_singleton_self _

/-! ## DESTROY_CLIENTID -/

namespace StateInner

/-- The client has a session, an active open or lock, or a delegation that it may still use. -/
inductive InUse (inner : StateInner) (clientid : Clientid4) : Prop where
  | session (i : Sessionid4) (session : SessionState) (hget : inner.sessions.get i = some session)
      (hid : session.clientid = clientid)
  | opened (k : StateidOther) (state : OpenFileState) (hget : inner.openFiles.get k = some state)
      (hid : state.clientid = clientid) (hactive : state.active = true)
  | locked (k : StateidOther) (state : LockFileState) (hget : inner.lockFiles.get k = some state)
      (hid : state.owner.clientid = clientid) (hactive : state.active = true)
  | delegated (k : StateidOther) (state : DelegationState)
      (hget : inner.delegations.get k = some state) (hid : state.clientid = clientid)
      (hlive : state.status.isLive = true)

/-- Nothing that the client has closed or released is still recorded. -/
structure Tidy (inner : StateInner) (clientid : Clientid4) : Prop where
  openFiles : ∀ k state, inner.openFiles.get k = some state → state.clientid = clientid →
    state.active = true
  lockFiles : ∀ k state, inner.lockFiles.get k = some state → state.owner.clientid = clientid →
    state.active = true

variable {inner : StateInner} {clientid : Clientid4}

theorem Indexed.hasLiveClientDelegations_iff (h : inner.Indexed) :
    inner.hasLiveClientDelegations clientid = true ↔
      ∃ k state, inner.delegations.get k = some state ∧ state.clientid = clientid ∧
        state.status.isLive = true := by
  unfold hasLiveClientDelegations isLiveDelegation
  rw [List.any_eq_true]
  constructor
  · rintro ⟨k, hk, hlive⟩
    obtain ⟨state, hget, hlive⟩ := (Option.any_eq_true _ _).mp hlive
    exact ⟨k, state, hget, (h.embedded k state hget).trans (h.named clientid k hk), hlive⟩
  · rintro ⟨k, state, hget, rfl, hlive⟩
    exact ⟨k, h.byClient k state hget, by rw [hget]; exact hlive⟩

theorem Indexed.clientHasActiveState_iff (h : inner.Indexed) :
    inner.clientHasActiveState clientid = true ↔
      inner.InUse clientid ∨ ¬inner.Tidy clientid := by
  unfold clientHasActiveState
  simp only [Bool.or_eq_true, Table.any_eq_true, decide_eq_true_eq,
    h.hasLiveClientDelegations_iff]
  constructor
  · intro hbusy
    -- What the scans find is in use, or it is an entry that is not active any more.
    refine or_iff_not_imp_right.mpr fun htidy => ?_
    have htidy := not_not.mp htidy
    rcases hbusy with ((⟨i, session, hget, hid⟩ | ⟨k, state, hget, hid⟩) | ⟨k, state, hget, hid⟩) |
      ⟨k, state, hget, hid, hlive⟩
    · exact .session i session hget hid
    · exact .opened k state hget hid (htidy.openFiles k state hget hid)
    · exact .locked k state hget hid (htidy.lockFiles k state hget hid)
    · exact .delegated k state hget hid hlive
  · rintro (huse | huntidy)
    · cases huse with
      | session i session hget hid => exact Or.inl (Or.inl (Or.inl ⟨i, session, hget, hid⟩))
      | opened k state hget hid _ => exact Or.inl (Or.inl (Or.inr ⟨k, state, hget, hid⟩))
      | locked k state hget hid _ => exact Or.inl (Or.inr ⟨k, state, hget, hid⟩)
      | delegated k state hget hid hlive => exact Or.inr ⟨k, state, hget, hid, hlive⟩
    · by_contra hidle
      simp only [not_or, not_exists, not_and] at hidle
      obtain ⟨⟨⟨-, hopens⟩, hlocks⟩, -⟩ := hidle
      exact huntidy ⟨fun k state hget hid => absurd hid (hopens k state hget),
        fun k state hget hid => absurd hid (hlocks k state hget)⟩

theorem not_inUse_of_closed (hsessions : inner.sessions.entries.isEmpty = true)
    (hopens : (inner.openFiles.any fun _ state => state.active) = false)
    (hlocks : inner.lockFiles.entries.isEmpty = true)
    (hdelegations : inner.delegations.entries.isEmpty = true) : ¬inner.InUse clientid := by
  intro huse
  cases huse with
  | session i session hget _ =>
    rw [Table.get_eq_none_of_isEmpty hsessions] at hget
    cases hget
  | opened k state hget _ hactive =>
    rw [Table.any_eq_false.mp hopens k state hget] at hactive
    cases hactive
  | locked k state hget _ _ =>
    rw [Table.get_eq_none_of_isEmpty hlocks] at hget
    cases hget
  | delegated k state hget _ _ =>
    rw [Table.get_eq_none_of_isEmpty hdelegations] at hget
    cases hget

end StateInner

section

variable {H α : Type} [DecidableEq H] {backend : Backend H} {boot : Boot}
  {threads : List (Request H α)} {tr : Trace H} {c : Machine H α}

theorem destroyClientid_busy {s : StateManager} {clientid : Clientid4}
    (h : s.reapExpiredClients.inner.clientHasActiveState clientid = true) :
    s.runSection (.destroyClientid clientid) = (.error .clientidBusy, s.reapExpiredClients) := by
  show s.reapExpiredClients.commitUnit (s.reapExpiredClients.destroyClientidReaped clientid) = _
  rw [StateManager.destroyClientidReaped, if_pos h]
  rfl

theorem destroyClientid_idle {s : StateManager} {clientid : Clientid4}
    (h : s.reapExpiredClients.inner.clientHasActiveState clientid = false)
    (hpresent : (s.reapExpiredClients.inner.clients.get clientid).isSome = true) :
    (s.runSection (.destroyClientid clientid)).1 = .ok () ∧
      (s.runSection (.destroyClientid clientid)).2.inner.clients.get clientid = none := by
  have hresult : s.runSection (.destroyClientid clientid) = s.reapExpiredClients.commitUnit
    (s.reapExpiredClients.destroyClientidReaped clientid) := rfl
  rw [hresult, StateManager.destroyClientidReaped, if_neg (by simp [h]), if_pos hpresent]
  refine ⟨rfl, ?_⟩
  show (s.reapExpiredClients.inner.dropClientState clientid).clients.get clientid = none
  rw [StateInner.dropClientState_clients, Table.get_erase, if_pos rfl]

/-- **DESTROY_CLIENTID is refused exactly when something is in use**, precisely for a client that
has something in use, or has nothing closed or released on record. The call first makes the reaping
pass; what is said is about the state that this leaves. -/
theorem destroy_clientid_exact
    (hrun : (Server.system backend).Run ⟨Server.new H boot, threads⟩ tr c)
    (clientid : Clientid4) :
    let reaped := c.state.state.reapExpiredClients
    let result := c.state.state.runSection (.destroyClientid clientid)
    (reaped.inner.clients.get clientid).isSome = true →
    ((((result.1 = .ok () ∧ result.2.inner.clients.get clientid = none) ↔
        ¬reaped.inner.InUse clientid) ∧
      (reaped.inner.InUse clientid → result = (.error .clientidBusy, reaped))) ↔
      reaped.inner.InUse clientid ∨ reaped.inner.Tidy clientid) := by
  intro reaped result hpresent
  have hindexed : reaped.inner.Indexed :=
    c.state.state.runSection_indexed .reapExpiredClients (hrun.indexed (StateInner.indexed_new boot))
  have hiff : reaped.inner.clientHasActiveState clientid = true ↔ _ :=
    hindexed.clientHasActiveState_iff
  by_cases huse : reaped.inner.InUse clientid
  · have hbusy : result = (.error .clientidBusy, reaped) :=
      destroyClientid_busy (hiff.mpr (Or.inl huse))
    simp [hbusy, huse]
  · by_cases htidy : reaped.inner.Tidy clientid
    · have hidle : reaped.inner.clientHasActiveState clientid = false := by
        simpa [huse, htidy] using hiff
      simp only [huse, htidy, or_true, iff_true, not_false_eq_true, false_imp_iff, and_true]
      exact destroyClientid_idle hidle hpresent
    · -- Only what has been closed or released is left, and the client is busy all the same.
      have hbusy : result = (.error .clientidBusy, reaped) :=
        destroyClientid_busy (hiff.mpr (Or.inr htidy))
      simp [hbusy, huse, htidy]

end

namespace Scripted

/-- A client that destroys its session after it has opened a file and closed it again. -/
def closedAgain : List Section :=
  sessionSetUp ++ [.createOpenState (.fs 1) ⟨1, [1]⟩ 1 0, .closeState ⟨1, .mint 1 1⟩,
    .destroySession (mintSessionid 1 2) 0]

end Scripted

open Scripted in
/-- The closed open is all that is left of the client, and it keeps the client busy. -/
theorem destroy_clientid_closed_open :
    (∃ tr c, (Server.system Backend.single).Run
      ⟨Server.new Unit .fixed, closedAgain.map (Server.sectionThread ())⟩ tr c ∧
      (c.state.state.reapExpiredClients.inner.clients.get 1).isSome = true ∧
      ¬c.state.state.reapExpiredClients.inner.InUse 1 ∧
      (c.state.state.runSection (.destroyClientid 1)).1 = .error .clientidBusy) := by
  refine ⟨_, _, Server.sections_run () closedAgain _ [], by decide +kernel, ?_, by decide +kernel⟩
  exact StateInner.not_inUse_of_closed (by decide +kernel) (by decide +kernel) (by decide +kernel)
    (by decide +kernel)

open Scripted in
/-- FREE_STATEID for the closed open, and the client can go. -/
theorem destroy_clientid_exact_freed :
    let sections := closedAgain ++ [.freeStateid ⟨2, .mint 1 1⟩]
    let s := (sections.foldl Server.afterSection (Server.new Unit .fixed)).state
    (s.reapExpiredClients.inner.clients.get 1).isSome = true ∧
      ((s.runSection (.destroyClientid 1)).1 = .ok () ∧
        (s.runSection (.destroyClientid 1)).2.inner.clients.get 1 = none ↔
          ¬s.reapExpiredClients.inner.InUse 1) := by
  intro sections s
  have hrun : (Server.system Backend.single).Run
      ⟨Server.new Unit .fixed, sections.map (Server.sectionThread ())⟩ _ _ :=
    Server.sections_run () sections _ []
  have hpresent : (s.reapExpiredClients.inner.clients.get 1).isSome = true := by decide +kernel
  have hopens : s.reapExpiredClients.inner.openFiles.entries.isEmpty = true := by decide +kernel
  have hlocks : s.reapExpiredClients.inner.lockFiles.entries.isEmpty = true := by decide +kernel
  refine ⟨hpresent, ((destroy_clientid_exact hrun 1 hpresent).mpr (Or.inr
    ⟨fun k state hget => ?_, fun k state hget => ?_⟩)).1⟩
  · rw [Table.get_eq_none_of_isEmpty hopens] at hget
    cases hget
  · rw [Table.get_eq_none_of_isEmpty hlocks] at hget
    cases hget

end EmbedNfs

import EmbedNfs.Effects.Holdings
import EmbedNfs.Properties.ClientNumbers
import EmbedNfs.Properties.StateidKeys
import EmbedNfs.Server.Scripted

/-!
# A lease that has run out

Expiry is applied by the sections that reap; until one of them runs, the record of a client whose
time is over still says that its lease is active. Three operations give a record a new deadline
without looking at the old one, and a stateid is looked up some time after clients were last
reaped. Apart from these, a lease that has run out stays so, and what was held under it is never
used again.
-/

namespace EmbedNfs

namespace StateManager

variable {s s' : StateManager} {l : Clientid4}

/-- If the client is in the table with an active lease, then its time is over. -/
def Lapsed (s : StateManager) (l : Clientid4) : Prop :=
  ∀ client, s.inner.clients.get l = some client → ∀ deadline,
    client.leaseState = .active deadline → deadline ≤ s.clock

/-- The client has no active lease. -/
def Ceased (s : StateManager) (l : Clientid4) : Prop :=
  ∀ client, s.inner.clients.get l = some client → client.leaseState.isActive = false

theorem Ceased.lapsed (h : s.Ceased l) : s.Lapsed l := by
  intro client hl deadline hlease
  have hactive := h client hl
  rw [hlease] at hactive
  cases hactive

theorem Lapsed.of_leases (h : s.Lapsed l) (hclock : s.clock ≤ s'.clock)
    (hsub : ∀ client', s'.inner.clients.get l = some client' →
      ∃ client, s.inner.clients.get l = some client ∧ client'.leaseState = client.leaseState) :
    s'.Lapsed l := by
  intro client' hl deadline hlease
  obtain ⟨client, hold, hsame⟩ := hsub client' hl
  exact Nat.le_trans (h client hold deadline (hsame ▸ hlease)) hclock

theorem Lapsed.reap (h : s.Lapsed l) : s.reapExpiredClients.Ceased l := by
  intro client hl
  obtain ⟨-, old, hold, rfl⟩ := StateInner.of_get_reap_clients _ _ hl
  unfold StateInner.afterExpiry
  split
  · rfl
  · rename_i hrunning
    cases hlease : old.leaseState with
    | active deadline =>
      have hle := h old hold deadline hlease
      simp [StateInner.leaseExpired, hlease, hle] at hrunning
    | revoked since flags => rfl

theorem Lapsed.of_modify (h : s.Lapsed l) {k : Clientid4} {f : ClientState → ClientState}
    (hclock : s'.clock = s.clock) (hclients : s'.inner.clients = s.inner.clients.modify k f)
    (hf : k = l → ∀ client, s.inner.clients.get l = some client →
      (f client).leaseState = client.leaseState) : s'.Lapsed l := by
  refine h.of_leases (Nat.le_of_eq hclock.symm) fun client' hl => ?_
  rw [hclients] at hl
  rcases Table.of_get_modify hl with ⟨rfl, client, hold, rfl⟩ | ⟨-, hl⟩
  · exact ⟨client, hold, hf rfl client hold⟩
  · exact ⟨client', hl, rfl⟩

theorem Lapsed.of_insert (h : s.Lapsed l) {k : Clientid4} {new : ClientState}
    (hclock : s'.clock = s.clock) (hclients : s'.inner.clients = s.inner.clients.insert k new)
    (hk : k ≠ l) : s'.Lapsed l := by
  refine h.of_leases (Nat.le_of_eq hclock.symm) fun client' hl => ?_
  rw [hclients, Table.get_insert, if_neg (Ne.symm hk)] at hl
  exact ⟨client', hl, rfl⟩

theorem Lapsed.drop (h : s.Lapsed l) (clientids : List Clientid4) :
    Lapsed { s with inner := clientids.foldl StateInner.dropClientState s.inner } l := by
  refine h.of_leases (Nat.le_refl _) fun client' hl => ?_
  exact ⟨client', (StateInner.of_get_dropClientStates_clients hl).2, rfl⟩

end StateManager

/-- The client whose lease a section has extended without looking at its deadline. -/
def Section.prolongs : (c : Section) → c.Ret → Option Clientid4
  | .renew clientid, .ok () => some clientid
  | .setClientId _, res => some res.clientid
  | .setClientIdConfirm args, .ok () => some args.clientid
  | _, _ => none

namespace StateManager

variable {s s' : StateManager} {l : Clientid4}

theorem renew_lapsed (h : s.Lapsed l) {k : Clientid4}
    (hprolongs : (Section.renew k).prolongs (s.runSection (.renew k)).1 = some l →
      s.inner.clients.get l = none) : (s.runSection (.renew k)).2.Lapsed l := by
  change Section.prolongs (.renew k) (s.commitUnit (s.renew k)).1 = _ → _ at hprolongs
  show (s.commitUnit (s.renew k)).2.Lapsed l
  cases hok : s.renew k with
  | error status => exact h
  | ok s' =>
    rw [hok] at hprolongs
    have hs' := renew_ok hok
    show s'.Lapsed l
    rw [hs']
    refine h.of_modify (k := k) (f := ClientState.extended s.clock) rfl rfl ?_
    rintro rfl client hget
    rw [hprolongs rfl] at hget
    cases hget

theorem ClientAct.lapsed {c : Section} (hact : ClientAct s c s') (h : s.Lapsed l)
    (hceased : c.reaps = true → s.Ceased l) (hnext : c.enrols = true → s.nextClientid ≠ l)
    (hrenew : ∀ k, c ≠ .renew k)
    (hintroduced : ∀ args, c = .setClientId args →
      (s.setClientIdReaped args).1.clientid = l → s.inner.clients.get l = none)
    (hconfirmed : ∀ args, c = .setClientIdConfirm args → args.clientid = l →
      s.setClientIdConfirmReaped args = .ok s' → s.inner.clients.get l = none) :
    s'.Lapsed l := by
  cases hact with
  | sessions sessions hsessions hs =>
    rw [hs]
    exact h
  | reclaimed clientid hs =>
    rw [hs]
    exact h.of_modify (k := clientid) (f := ClientState.reclaimed) rfl rfl fun _ _ _ => rfl
  | sequenced clientid client sessions hc hget hactive _ hs =>
    rw [hs]
    refine h.of_modify (k := clientid) (f := ClientState.extended s.clock) rfl rfl ?_
    rintro rfl
    rw [hceased hc client hget] at hactive
    cases hactive
  | renewed clientid client hc _ _ hs => exact absurd hc (hrenew clientid)
  | destroyed clientid hs =>
    rw [hs]
    exact h.drop [clientid]
  | exchanged args hc _ hs =>
    rw [hs]
    rcases s.exchangeIdReaped_cases args with
      ⟨k, client, -, -, -, -, -, hs⟩ | ⟨-, -, inner, hinner, hs⟩
    · rw [hs]
      exact h
    · rw [hs]
      have hdrop := h.drop (staleUnconfirmed s.inner.clients args.clientowner)
      rw [← hinner] at hdrop
      exact hdrop.of_insert (k := s.nextClientid) rfl rfl (hnext (by rw [hc]; rfl))
  | created args conn res hc hok =>
    obtain ⟨client, inner, hget, hactive, hinner, -, rfl⟩ := createSessionReaped_ok hok
    have hne : args.clientid ≠ l := by
      rintro rfl
      rw [hceased (by rw [hc]; rfl) client hget] at hactive
      cases hactive
    refine h.of_leases (Nat.le_refl _) fun client' hl => ?_
    change inner.clients.get l = some client' at hl
    rw [hinner, get_confirmClient_clients, Table.get_modify, if_neg (Ne.symm hne)] at hl
    split at hl
    · cases hl
    · exact ⟨client', hl, rfl⟩
  | introduced args hc hs =>
    rw [hs]
    obtain ⟨clientids, inner, hinner, ⟨confirm, hs⟩ | ⟨client, hactive, -, hs⟩⟩ :=
      s.setClientIdReaped_cases args
    · have hdrop := h.drop clientids
      rw [← hinner] at hdrop
      rw [hs]
      refine hdrop.of_modify (k := (s.setClientIdReaped args).1.clientid)
        (f := ClientState.reintroduced s.clock confirm) rfl rfl fun heq client hget => ?_
      have hnone := hintroduced args hc heq
      change inner.clients.get l = some client at hget
      rw [hinner, StateInner.get_dropClientStates_clients, hnone] at hget
      split at hget
      · cases hget
      · cases hget
    · have hdrop := h.drop clientids
      rw [← hinner] at hdrop
      rw [hs]
      exact hdrop.of_insert (k := s.nextClientid) rfl rfl (hnext (by rw [hc]; rfl))
  | confirmed args hc hok =>
    rw [setClientIdConfirmReaped_clients hok]
    refine h.of_modify (k := args.clientid) (f := ClientState.acknowledged s.clock) rfl rfl ?_
    intro heq client hget
    rw [hconfirmed args hc heq hok] at hget
    cases hget

/-- **A lease that has run out stays so.** No section brings it back, unless it is one that does
not look at the deadline. -/
theorem Lapsed.runSection (h : s.Lapsed l) (c : Section)
    (hnext : c.enrols = true → s.nextClientid ≠ l)
    (hprolongs : c.prolongs (s.runSection c).1 = some l → s.inner.clients.get l = none) :
    (s.runSection c).2.Lapsed l := by
  by_cases hrenew : ∃ k, c = .renew k
  · obtain ⟨k, rfl⟩ := hrenew
    exact renew_lapsed h hprolongs
  cases hadmin : c.administers with
  | false =>
    have hstill := s.runSection_still c hadmin
    refine h.of_leases (Nat.le_of_eq hstill.clock.symm) fun client' hl => ?_
    have hmap := hstill.clients l
    rw [hl, Option.map_some] at hmap
    obtain ⟨client, hget, hsame⟩ := Option.map_eq_some_iff.mp hmap.symm
    have hlease : client.standing.leaseState = client'.standing.leaseState := by rw [hsame]
    exact ⟨client, hget, hlease.symm⟩
  | true =>
    have hceased : c.reaps = true → (s.reapedFor c).Ceased l := by
      intro hc
      rw [reapedFor, if_pos hc]
      exact h.reap
    have hlapsed : (s.reapedFor c).Lapsed l := by
      unfold reapedFor
      split
      · exact h.reap.lapsed
      · exact h
    have hnext' : c.enrols = true → (s.reapedFor c).nextClientid ≠ l := by
      unfold reapedFor
      split
      · exact hnext
      · exact hnext
    have hnone : s.inner.clients.get l = none → (s.reapedFor c).inner.clients.get l = none := by
      intro hl
      unfold reapedFor
      split
      · show (s.inner.reapExpiredClientsLocked s.clock).clients.get l = none
        rw [StateInner.get_reap_clients, hl]
        split
        · rfl
        · rfl
      · exact hl
    refine (s.runSection_clientAct c hadmin).lapsed hlapsed hceased hnext'
      (fun k hk => hrenew ⟨k, hk⟩) ?_ ?_
    · rintro args rfl heq
      exact hnone (hprolongs (congrArg some heq))
    · rintro args rfl heq hok
      refine hnone (hprolongs ?_)
      change s.reapExpiredClients.setClientIdConfirmReaped args = _ at hok
      change Section.prolongs (.setClientIdConfirm args)
        (s.reapExpiredClients.commitUnit (s.reapExpiredClients.setClientIdConfirmReaped args)).1 = _
      rw [hok]
      exact congrArg some heq

end StateManager

/-! ## Use of what is held -/

/-- The stateid names an open, a lock state or a delegation. -/
def StateInner.Has (inner : StateInner) (x : StateidOther) : Prop :=
  (inner.openFiles.get x).isSome = true ∨ (inner.lockFiles.get x).isSome = true ∨
    (inner.delegations.get x).isSome = true

instance (inner : StateInner) (x : StateidOther) : Decidable (inner.Has x) :=
  inferInstanceAs (Decidable (_ ∨ _ ∨ _))

/-- The stateid names an open, a lock state or a delegation of the client. -/
inductive StateInner.HeldBy (inner : StateInner) (l : Clientid4) (x : StateidOther) : Prop where
  | opened (state : OpenFileState) (hget : inner.openFiles.get x = some state)
      (hid : state.clientid = l)
  | locked (state : LockFileState) (hget : inner.lockFiles.get x = some state)
      (hid : state.owner.clientid = l)
  | delegated (state : DelegationState) (hget : inner.delegations.get x = some state)
      (hid : state.clientid = l)

/-- The opens, lock states and delegations that a section has used. A lock state is used
together with its open, and a repeated OPEN uses the open it upgrades. -/
def Section.uses : (c : Section) → c.Ret → List StateidOther
  | .createOpenState _ _ _ _, .ok stateid => [stateid.other]
  | .confirmOpenState stateid, .ok _ => [stateid.other]
  | .closeState stateid, .ok _ => [stateid.other]
  | .freeStateid stateid, .ok _ => [stateid.other]
  | .openDowngrade stateid _ _, .ok _ => [stateid.other]
  | .createLockState openStateid _ _ _ _ _, .ok _ => [openStateid.other]
  | .updateLockState stateid _ _ _, .ok _ => [stateid.other]
  | .unlockState stateid _ _, .ok _ => [stateid.other]
  | .resolveConcrete _ stateid, .ok (.locked lock) => [stateid.other, lock.openState.other]
  | .resolveConcrete _ stateid, .ok _ => [stateid.other]
  | .returnDelegationState stateid _, .ok _ => [stateid.other]
  | _, _ => []

namespace StateInner

variable {inner : StateInner} {l : Clientid4} {x : StateidOther}

theorem Has.of_openFiles {state : OpenFileState} (h : inner.openFiles.get x = some state) :
    inner.Has x := Or.inl (by rw [h]; rfl)

theorem Has.of_lockFiles {state : LockFileState} (h : inner.lockFiles.get x = some state) :
    inner.Has x := Or.inr (Or.inl (by rw [h]; rfl))

theorem Has.of_delegations {state : DelegationState} (h : inner.delegations.get x = some state) :
    inner.Has x := Or.inr (Or.inr (by rw [h]; rfl))

theorem KeysEmbed.holds (hkeys : inner.KeysEmbed) (h : inner.Has x) : inner.Holds x.clientid := by
  rcases h with h | h | h
  · obtain ⟨state, hget⟩ := Option.isSome_iff_exists.mp h
    exact .opened x state hget (hkeys.openFiles x state hget)
  · obtain ⟨state, hget⟩ := Option.isSome_iff_exists.mp h
    exact .locked x state hget (hkeys.lockFiles x state hget)
  · obtain ⟨state, hget⟩ := Option.isSome_iff_exists.mp h
    exact .delegated x state hget (hkeys.delegations x state hget)

theorem KeysEmbed.clientid_of_heldBy (hkeys : inner.KeysEmbed) (h : inner.HeldBy l x) :
    x.clientid = l := by
  rcases h with ⟨state, hget, hid⟩ | ⟨state, hget, hid⟩ | ⟨state, hget, hid⟩
  · exact (hkeys.openFiles x state hget).symm.trans hid
  · exact (hkeys.lockFiles x state hget).symm.trans hid
  · exact (hkeys.delegations x state hget).symm.trans hid

end StateInner

namespace StateManager

variable {s : StateManager} {x : StateidOther}

theorem has_of_uses (s : StateManager) (c : Section) (h : x ∈ c.uses (s.runSection c).1) :
    s.inner.Has x ∨ (s.runSection c).2.inner.Has x := by
  revert h
  let P (r : c.Ret) (s' : StateManager) : Prop := x ∈ c.uses r → s.inner.Has x ∨ s'.inner.Has x
  have herror : ∀ {Q : Prop}, x ∈ ([] : List StateidOther) → Q := nofun
  show P (s.runSection c).1 (s.runSection c).2
  cases c with
  | createOpenState object owner access deny =>
    refine commit_answers P (fun _ => herror) fun a s' hok h => ?_
    obtain rfl := List.mem_singleton.mp h
    obtain ⟨-, ⟨other, state, hfind, -, rfl, rfl⟩ | ⟨-, -, rfl, rfl⟩⟩ := createOpenState_ok hok
    · exact Or.inl (.of_openFiles (Table.of_find?_eq_some hfind).1)
    · exact Or.inr (.of_openFiles (Table.get_insert_self _ _ _))
  | confirmOpenState stateid =>
    refine commit_answers P (fun _ => herror) fun a s' hok h => ?_
    obtain rfl := List.mem_singleton.mp h
    obtain ⟨state, hget, -⟩ := confirmOpenState_returns hok
    exact Or.inl (.of_openFiles hget)
  | closeState stateid =>
    refine commit_answers P (fun _ => herror) fun a s' hok h => ?_
    obtain rfl := List.mem_singleton.mp h
    obtain ⟨state, hget, -⟩ := closeState_returns hok
    exact Or.inl (.of_openFiles hget)
  | openDowngrade stateid access deny =>
    refine commit_answers P (fun _ => herror) fun a s' hok h => ?_
    obtain rfl := List.mem_singleton.mp h
    obtain ⟨state, mode, hget, -, -, -⟩ := openDowngrade_ok hok
    exact Or.inl (.of_openFiles hget)
  | createLockState openStateid owner object locktype offset length =>
    refine commit_answers P (fun _ => herror) fun a s' hok h => ?_
    obtain rfl := List.mem_singleton.mp h
    obtain ⟨-, -, ⟨opened, hget, -, -⟩, -, -⟩ := createLockState_ok hok
    exact Or.inl (.of_openFiles hget)
  | updateLockState stateid locktype offset length =>
    refine commit_answers P (fun _ => herror) fun a s' hok h => ?_
    obtain rfl := List.mem_singleton.mp h
    obtain ⟨state, hget, -, -, -⟩ := updateLockState_ok hok
    exact Or.inl (.of_lockFiles hget)
  | unlockState stateid offset length =>
    refine commit_answers P (fun _ => herror) fun a s' hok h => ?_
    obtain rfl := List.mem_singleton.mp h
    obtain ⟨state, hget, -, -⟩ := unlockState_ok hok
    exact Or.inl (.of_lockFiles hget)
  | freeStateid stateid =>
    show P (s.commitUnit (s.freeStateid stateid)).1 (s.commitUnit (s.freeStateid stateid)).2
    cases hok : s.freeStateid stateid with
    | error status => exact herror
    | ok s' =>
      intro h
      obtain rfl := List.mem_singleton.mp h
      rcases freeStateid_checks hok with ⟨state, hget, -⟩ | ⟨state, hget, -⟩ | ⟨state, hget⟩
      · exact Or.inl (.of_openFiles hget)
      · exact Or.inl (.of_lockFiles hget)
      · exact Or.inl (.of_delegations hget)
  | returnDelegationState stateid clientid =>
    show P (s.commitUnit (s.returnDelegationState stateid clientid)).1
      (s.commitUnit (s.returnDelegationState stateid clientid)).2
    cases hok : s.returnDelegationState stateid clientid with
    | error status => exact herror
    | ok s' =>
      intro h
      obtain rfl := List.mem_singleton.mp h
      obtain ⟨⟨state, hget, -⟩, -⟩ := returnDelegationState_ok hok
      exact Or.inl (.of_delegations hget)
  | resolveConcrete clientid stateid =>
    show P (s.resolveConcrete clientid stateid) s
    cases hok : s.resolveConcrete clientid stateid with
    | error status => exact herror
    | ok resolved =>
      intro h
      rcases resolveConcrete_ok hok with
        ⟨opened, hget, -, -, rfl⟩ | ⟨lock, opened, hget, hopened, -, -, rfl⟩
      · obtain rfl := List.mem_singleton.mp h
        exact Or.inl (.of_openFiles hget)
      · rcases List.mem_cons.mp h with rfl | h
        · exact Or.inl (.of_lockFiles hget)
        · obtain rfl := List.mem_singleton.mp h
          exact Or.inl (.of_openFiles hopened)
  | _ => exact herror

end StateManager

/-! ## Runs -/

section

variable {H α : Type}

/-- The client whose lease a call has extended without looking at its deadline. -/
def Call.prolongs : (c : Call H) → c.Ret → Option Clientid4
  | .guarded q, r => q.prolongs r
  | _, _ => none

/-- The opens, lock states and delegations that a call has used. -/
def Call.uses : (c : Call H) → c.Ret → List StateidOther
  | .guarded q, r => q.uses r
  | _, _ => []

/-- The event made the open, lock state or delegation. -/
def Makes (e : ServerEvent H) (x : StateidOther) : Prop :=
  ¬e.before.state.inner.Has x ∧ e.after.state.inner.Has x

instance (e : ServerEvent H) (x : StateidOther) : Decidable (Makes e x) :=
  inferInstanceAs (Decidable (_ ∧ _))

variable [DecidableEq H] {backend : Backend H} {tr : Trace H}
  {c c' : Machine H α}

theorem System.Run.lapsed (hrun : (Server.system backend).Run c tr c') {n : Nat} {l : Clientid4}
    (hnumbered : c.state.state.Numbered n) (hgiven : GivenOut n l) (h : c.state.state.Lapsed l)
    (hbound : n + enrolments tr ≤ 2 ^ 64)
    (hprolongs : ∀ e ∈ tr, ∀ k client, e.call.prolongs e.answer = some k →
      e.before.state.inner.clients.get k = some client →
      ∃ deadline, client.leaseState = .active deadline ∧ e.before.state.clock < deadline) :
    c'.state.state.Lapsed l := by
  let I (tr : Trace H) (s : Server H) : Prop :=
    n + enrolments tr ≤ 2 ^ 64 →
    (∀ e ∈ tr, ∀ k client, e.call.prolongs e.answer = some k →
      e.before.state.inner.clients.get k = some client →
      ∃ deadline, client.leaseState = .active deadline ∧ e.before.state.clock < deadline) →
    s.state.Lapsed l ∧ ∃ m, n ≤ m ∧ m ≤ n + enrolments tr ∧ s.state.Numbered m
  refine (hrun.invariant_trace (I := I) ?_ ?_ ?_ hbound hprolongs).1
  · exact fun _ _ => ⟨h, n, Nat.le_refl n, Nat.le_add_right n _, hnumbered⟩
  · intro tr s s' hI hd hbound hprolongs
    obtain ⟨hlapsed, m, hn, hm, hnumbered⟩ := hI hbound hprolongs
    refine ⟨hlapsed.of_leases hd.state.clock fun client hl => ?_, m, hn, hm,
      hnumbered.drift hd.state⟩
    exact ⟨client, (hd.state.clients l).trans hl, rfl⟩
  · intro tr e hexec hI hbound hprolongs
    rw [enrolments_append] at hbound
    obtain ⟨hlapsed, m, hn, hm, hnumbered⟩ :=
      hI (by omega) fun e he => hprolongs e (List.mem_append_left _ he)
    obtain ⟨m', hn', hm', hnumbered'⟩ := hnumbered.step hexec
    refine ⟨?_, m', by omega, by rw [enrolments_append]; omega, hnumbered'⟩
    have hrunning := hprolongs e (by simp) l
    obtain ⟨t, before, call, answer, after⟩ := e
    by_cases hsection : ∃ q, call = .guarded q
    · obtain ⟨q, rfl⟩ := hsection
      obtain ⟨hanswer, hafter⟩ := Server.exec_guarded hexec
      dsimp only at *
      rw [hafter]
      refine hlapsed.runSection q (fun henrols => ?_) fun hq => ?_
      · have hcount : enrolments [(⟨t, before, .guarded q, answer, after⟩ :
            ServerEvent H)] = 1 := by
          simp [enrolments, Section.enrols_call henrols]
        exact hnumbered.ne_next (by omega) (hgiven.mono hn)
      · cases hget : before.state.inner.clients.get l with
        | none => rfl
        | some client =>
          obtain ⟨deadline, hlease, hlt⟩ := hrunning client (hanswer ▸ hq) hget
          exact absurd (hlapsed client hget deadline hlease) (Nat.not_le.mpr hlt)
    · obtain ⟨hinner, hclock⟩ := Server.exec_unguarded hexec fun q hq => hsection ⟨q, hq⟩
      refine hlapsed.of_leases (Nat.le_of_eq hclock.symm) fun client hl => ?_
      rw [hinner] at hl
      exact ⟨client, hl, rfl⟩

theorem StateManager.Drift.has {s s' : StateManager} {x : StateidOther} (hd : s.Drift s')
    (h : s'.inner.Has x) : s.inner.Has x := by
  unfold StateInner.Has
  rw [hd.openFiles x, hd.lockFiles x, hd.delegations x]
  exact h

/-- What is there at the end and was not there at the beginning was made in between. -/
theorem System.Run.made (hrun : (Server.system backend).Run c tr c') {x : StateidOther}
    (h : ¬c.state.state.inner.Has x) (hhas : c'.state.state.inner.Has x) :
    ∃ e ∈ tr, Makes e x := by
  refine hrun.invariant_trace (I := fun tr s => s.state.inner.Has x → ∃ e ∈ tr, Makes e x)
    (fun hc => absurd hc h) (fun tr s s' hI hd hs' => hI (hd.state.has hs')) ?_ hhas
  intro tr e _ hI hafter
  by_cases hold : e.before.state.inner.Has x
  · obtain ⟨m, hm, hmakes⟩ := hI hold
    exact ⟨m, List.mem_append_left _ hm, hmakes⟩
  · exact ⟨e, by simp, hold, hafter⟩

theorem System.Run.has_enrolled (hrun : (Server.system backend).Run c tr c') {x : StateidOther}
    (hindexed : c.state.state.inner.Indexed) (hkeys : c.state.state.inner.KeysEmbed)
    (h : c.state.state.inner.Enrolled x.clientid) (hhas : c'.state.state.inner.Has x) :
    c'.state.state.inner.Enrolled x.clientid ∨ ∃ e ∈ tr, Makes e x := by
  let I (tr : Trace H) (s : Server H) : Prop :=
    s.state.inner.Indexed ∧ s.state.inner.KeysEmbed ∧
      (s.state.inner.Has x → s.state.inner.Enrolled x.clientid ∨ ∃ e ∈ tr, Makes e x)
  refine (hrun.invariant_trace (I := I) ⟨hindexed, hkeys, fun _ => Or.inl h⟩ ?_ ?_).2.2 hhas
  · rintro tr s s' ⟨hindexed, hkeys, hI⟩ hd
    refine ⟨hd.state.indexed hindexed, hd.state.keysEmbed hkeys, fun hhas => ?_⟩
    refine (hI (hd.state.has hhas)).imp_left fun ⟨client, hget, hactive⟩ => ⟨client, ?_, hactive⟩
    rw [← hd.state.clients x.clientid, hget]
  · rintro tr e hexec ⟨hindexed, hkeys, hI⟩
    have hkeys' := Server.exec_keysEmbed hexec hkeys
    refine ⟨Server.exec_indexed hexec hindexed, hkeys', fun hhas => ?_⟩
    by_cases hold : e.before.state.inner.Has x
    · rcases hI hold with henrolled | ⟨m, hm, hmakes⟩
      · left
        rcases Server.exec_inner hexec with ⟨q, -, hs⟩ | hs
        · rw [hs] at hkeys' hhas ⊢
          exact (e.before.state.runSection_holds q hindexed (hkeys'.holds hhas)).2 henrolled
        · rw [hs]
          exact henrolled
      · exact Or.inr ⟨m, List.mem_append_left _ hm, hmakes⟩
    · exact Or.inr ⟨e, by simp, hold, hhas⟩

/-- Once clients have been reaped, what a client held whose lease had run out is gone. -/
theorem System.Run.made_of_reaped {r : ServerEvent H} {tr' : Trace H} {x : StateidOther}
    (hrun : (Server.system backend).Run c (tr ++ r :: tr') c')
    (hindexed : c.state.state.inner.Indexed) (hkeys : c.state.state.inner.KeysEmbed)
    (h : c.state.state.inner.Enrolled x.clientid)
    (hreaps : r.call = .guarded .reapExpiredClients) (hlapsed : r.before.state.Lapsed x.clientid)
    (hhas : c'.state.state.inner.Has x) : ∃ e ∈ tr ++ r :: tr', Makes e x := by
  obtain ⟨ts, k, hbefore, hthread, hexec, hrest⟩ := hrun.at_event
  have hsplit : tr ++ r :: tr' = (tr ++ [r]) ++ tr' := by simp
  rw [hsplit]
  by_cases hafter : r.after.state.inner.Has x
  · rcases (hbefore.step hthread hexec).has_enrolled hindexed hkeys h hafter with
      ⟨client, hget, hactive⟩ | ⟨m, hm, hmakes⟩
    · obtain ⟨t, before, call, answer, after⟩ := r
      dsimp only at hreaps hlapsed hget
      subst hreaps
      rw [(Server.exec_guarded hexec).2] at hget
      rw [hlapsed.reap client hget] at hactive
      cases hactive
    · exact ⟨m, List.mem_append_left _ hm, hmakes⟩
  · obtain ⟨m, hm, hmakes⟩ := hrest.made hafter hhas
    exact ⟨m, List.mem_append_right _ hm, hmakes⟩

end

/-- **Lease expiry is final.** Let any requests run against a server, with their steps interleaved
in any order, and let the lease of a client have run out at some point. If from then on RENEW,
SETCLIENTID and SETCLIENTID_CONFIRM succeed only for clients whose lease is running, stateids are
used by requests that reap after that point (or while the lease of their client is running), and the
counter of client ids does not come round, then the client never again has a lease that is running,
and nothing that it held is used again: what is used later under the same stateid has been made
after that point. -/
theorem lease_expiry_final {H α : Type} [DecidableEq H] {backend : Backend H} {boot : Boot}
    {threads : List (Request H α)} {tr tr' : Trace H}
    {c c' : Machine H α}
    (hrun : (Server.system backend).Run ⟨Server.new H boot, threads⟩ tr c)
    (hrun' : (Server.system backend).Run c tr' c') {l : Clientid4} {client : ClientState}
    (hl : c.state.state.inner.clients.get l = some client)
    (hexpired : StateInner.leaseExpired c.state.state.clock client = true)
    (hbound : enrolments (tr ++ tr') ≤ 2 ^ 64)
    (hprolongs : ∀ e ∈ tr', ∀ k client, e.call.prolongs e.answer = some k →
      e.before.state.inner.clients.get k = some client →
      ∃ deadline, client.leaseState = .active deadline ∧ e.before.state.clock < deadline)
    (huses : ∀ tr₁ e tr₂, tr' = tr₁ ++ e :: tr₂ → ∀ x ∈ e.call.uses e.answer,
      (∃ r ∈ tr₁, r.call = .guarded .reapExpiredClients) ∨
      ∀ client, e.before.state.inner.clients.get x.clientid = some client →
        StateInner.leaseExpired e.before.state.clock client = false) :
    (∀ client, c'.state.state.inner.clients.get l = some client → ∀ deadline,
      client.leaseState = .active deadline → deadline ≤ c'.state.state.clock) ∧
    ∀ x, c.state.state.inner.HeldBy l x → ∀ tr₁ e tr₂, tr' = tr₁ ++ e :: tr₂ →
      x ∈ e.call.uses e.answer → ∃ m ∈ tr₁ ++ [e], Makes m x := by
  obtain ⟨n, -, hn, hnumbered⟩ := hrun.numbered (.new boot)
  have hgiven := hnumbered.clients l client hl
  have hindexed := hrun.indexed (StateInner.indexed_new boot)
  have hkeys := hrun.keysEmbed (StateInner.keysEmbed_new boot)
  rw [enrolments_append] at hbound
  obtain ⟨deadline, hlease, hle⟩ : ∃ deadline, client.leaseState = .active deadline ∧
      deadline ≤ c.state.state.clock := by
    unfold StateInner.leaseExpired at hexpired
    split at hexpired
    · rename_i deadline hlease
      exact ⟨deadline, hlease, of_decide_eq_true hexpired⟩
    · cases hexpired
  have hlapsed : c.state.state.Lapsed l := by
    intro client' hl' deadline' hlease'
    cases hl.symm.trans hl'
    cases hlease.symm.trans hlease'
    exact hle
  refine ⟨hrun'.lapsed hnumbered hgiven hlapsed (by omega) hprolongs, ?_⟩
  rintro x hheld tr₁ e tr₂ rfl hx
  obtain ⟨ts, k, hearlier, -, hexec, -⟩ := hrun'.at_event
  have hcount : enrolments tr₁ ≤ enrolments (tr₁ ++ e :: tr₂) := by
    rw [enrolments_append]
    omega
  have hprolongs' : ∀ e' ∈ tr₁, _ := fun e' he' => hprolongs e' (List.mem_append_left _ he')
  have hbefore := hearlier.lapsed hnumbered hgiven hlapsed (by omega) hprolongs'
  have hclientid := hkeys.clientid_of_heldBy hheld
  have henrolled : c.state.state.inner.Enrolled x.clientid := by
    rw [hclientid]
    exact ⟨client, hl, by rw [hlease]; rfl⟩
  have hhas : e.before.state.inner.Has x ∨ e.after.state.inner.Has x := by
    obtain ⟨t, before, call, answer, after⟩ := e
    cases call with
    | guarded q =>
      obtain ⟨hanswer, hafter⟩ := Server.exec_guarded hexec
      dsimp only at *
      rw [hafter]
      exact before.state.has_of_uses q (hanswer ▸ hx)
    | _ => cases hx
  by_cases hold : e.before.state.inner.Has x
  · rcases huses tr₁ e tr₂ rfl x hx with ⟨r, hr, hreaps⟩ | hrunning
    · -- The lease of the client was lapsed when clients were reaped.
      obtain ⟨tr₃, tr₄, rfl⟩ := List.append_of_mem hr
      obtain ⟨ts', k', hreaping, -⟩ := hearlier.at_event
      have hcount' : enrolments tr₃ ≤ enrolments (tr₃ ++ r :: tr₄) := by
        rw [enrolments_append]
        omega
      have hlapsed' := hreaping.lapsed hnumbered hgiven hlapsed (by omega)
        fun e' he' => hprolongs' e' (List.mem_append_left _ he')
      obtain ⟨m, hm, hmakes⟩ := hearlier.made_of_reaped hindexed hkeys henrolled hreaps
        (hclientid ▸ hlapsed') hold
      exact ⟨m, List.mem_append_left _ hm, hmakes⟩
    rcases hearlier.has_enrolled hindexed hkeys henrolled hold with
      ⟨client', hget, hactive⟩ | ⟨m, hm, hmakes⟩
    · -- The lease of the client is lapsed, so the stateid is not used.
      have hrunning := hrunning client' hget
      rw [hclientid] at hget
      cases hlease' : client'.leaseState with
      | active deadline' =>
        have hle' := hbefore client' hget deadline' hlease'
        simp [StateInner.leaseExpired, hlease', hle'] at hrunning
      | revoked since flags =>
        rw [hlease'] at hactive
        cases hactive
    · exact ⟨m, List.mem_append_left _ hm, hmakes⟩
  · exact ⟨e, by simp, hold, hhas.resolve_left hold⟩

/-! ## One client, after its lease has run out -/

namespace Scripted

/-- An NFSv4.0 client introduces itself and opens the object. -/
def tenantCompounds : List Compound4Args :=
  [⟨0, [.setClientId ⟨⟨1, [1]⟩⟩]⟩, ⟨0, [.setClientIdConfirm ⟨1, 1⟩]⟩,
    ⟨0, [.putrootfh, .open ⟨3, 0, ⟨1, [1]⟩, .noCreate, .fh⟩]⟩]

/-- It renews its lease and closes the open. -/
def renewCompounds : List Compound4Args :=
  tenantCompounds ++ [⟨0, [.renew 1]⟩, ⟨0, [.putrootfh, .close ⟨0, .mint 1 1⟩]⟩]

/-- Another client introduces itself, and then the first one closes the open. -/
def supersededCompounds : List Compound4Args :=
  tenantCompounds ++ [⟨0, [.setClientId ⟨⟨1, [2]⟩⟩]⟩, ⟨0, [.putrootfh, .close ⟨0, .mint 1 1⟩]⟩]

/-- The first three requests, and after them the time of a lease. -/
def tenancy (compounds : List Compound4Args) : Trace Unit ×
    Machine Unit (Option Bytes) :=
  Server.playPhases (Server.scripted Backend.single .someFile)
    ⟨Server.new Unit .fixed, requests config compounds⟩
    [(0, [0, 1] ++ List.replicate 20 2), (leaseDuration, [])]

/-- The other two. -/
def aftermath (compounds : List Compound4Args) : Trace Unit ×
    Machine Unit (Option Bytes) :=
  (Server.scripted Backend.single .someFile).play (tenancy compounds).2
    ([3, 3] ++ List.replicate 20 4)

theorem tenancy_run (compounds : List Compound4Args) :
    (Server.system Backend.single).Run ⟨Server.new Unit .fixed, requests config compounds⟩
      (tenancy compounds).1 (tenancy compounds).2 :=
  Server.playPhases_run _ _ _

theorem aftermath_run (compounds : List Compound4Args) :
    (Server.system Backend.single).Run (tenancy compounds).2 (aftermath compounds).1
      (aftermath compounds).2 :=
  System.Resolver.play_run _ _ _

/-- Whether the event extends running leases only, and uses no stateid of a client whose lease
has run out. -/
def observant (e : ServerEvent Unit) : Bool :=
  let now := e.before.state.clock
  ((e.call.prolongs e.answer).all fun k => (e.before.state.inner.clients.get k).all fun client =>
    client.leaseState.isActive ∧ StateInner.leaseExpired now client = false) ∧
  (e.call.uses e.answer).all fun x => (e.before.state.inner.clients.get x.clientid).all fun client =>
    StateInner.leaseExpired now client = false

theorem prolongs_of_observant {e : ServerEvent Unit}
    (h : observant e = true) {k : Clientid4} {client : ClientState}
    (hk : e.call.prolongs e.answer = some k)
    (hclient : e.before.state.inner.clients.get k = some client) :
    ∃ deadline, client.leaseState = .active deadline ∧ e.before.state.clock < deadline := by
  have hp := (of_decide_eq_true h).1
  rw [hk, Option.all_some, hclient, Option.all_some] at hp
  obtain ⟨hactive, hexpired⟩ := of_decide_eq_true hp
  cases hlease : client.leaseState with
  | active deadline =>
    simp only [StateInner.leaseExpired, hlease, decide_eq_false_iff_not, Nat.not_le] at hexpired
    exact ⟨deadline, rfl, hexpired⟩
  | revoked since flags =>
    rw [hlease] at hactive
    cases hactive

theorem uses_of_observant {e : ServerEvent Unit}
    (h : observant e = true) {x : StateidOther} {client : ClientState}
    (hx : x ∈ e.call.uses e.answer)
    (hclient : e.before.state.inner.clients.get x.clientid = some client) :
    StateInner.leaseExpired e.before.state.clock client = false := by
  have hp := List.all_eq_true.mp (of_decide_eq_true h).2 x hx
  rw [hclient, Option.all_some] at hp
  exact of_decide_eq_true hp

end Scripted

open Scripted

/-- RENEW gives a new lease to a client whose time is over, and the client goes on to close the
open that it held. -/
theorem lease_expiry_final_renew :
    ∃ tr c tr' c', (Server.system Backend.single).Run
        ⟨Server.new Unit .fixed, requests config renewCompounds⟩ tr c ∧
      (Server.system Backend.single).Run c tr' c' ∧
      (∃ client, c.state.state.inner.clients.get 1 = some client ∧
        StateInner.leaseExpired c.state.state.clock client = true) ∧
      (∃ client deadline, c'.state.state.inner.clients.get 1 = some client ∧
        client.leaseState = .active deadline ∧ c'.state.state.clock < deadline) ∧
      c.state.state.inner.HeldBy 1 (.mint 1 1) ∧
      (∃ e ∈ tr', .mint 1 1 ∈ e.call.uses e.answer) ∧ ∀ e ∈ tr', ¬Makes e (.mint 1 1) := by
  refine ⟨_, _, _, _, tenancy_run renewCompounds, aftermath_run renewCompounds,
    ⟨⟨1, ⟨1, [1]⟩, true, false, 1, 0, none, .active leaseDuration, none⟩, by decide +kernel⟩,
    ⟨⟨1, ⟨1, [1]⟩, true, false, 1, 0, none, .active (2 * leaseDuration), none⟩,
      2 * leaseDuration, by decide +kernel⟩, ?_, by decide +kernel, by decide +kernel⟩
  have hopened : (tenancy renewCompounds).2.state.state.inner.openFiles.get (.mint 1 1) =
      some ⟨.fs 1, 1, [1], 1, true, 3, 0⟩ := by decide +kernel
  exact .opened _ hopened rfl

/-- Once another client has introduced itself, the lease is gone and the open cannot be closed. -/
theorem lease_expiry_final_superseded :
    ∃ tr c tr' c', (Server.system Backend.single).Run
        ⟨Server.new Unit .fixed, requests config supersededCompounds⟩ tr c ∧
      (Server.system Backend.single).Run c tr' c' ∧
      (∃ client, c.state.state.inner.clients.get 1 = some client ∧
        StateInner.leaseExpired c.state.state.clock client = true) ∧
      ((∀ client, c'.state.state.inner.clients.get 1 = some client → ∀ deadline,
        client.leaseState = .active deadline → deadline ≤ c'.state.state.clock) ∧
      ∀ x, c.state.state.inner.HeldBy 1 x → ∀ tr₁ e tr₂, tr' = tr₁ ++ e :: tr₂ →
        x ∈ e.call.uses e.answer → ∃ m ∈ tr₁ ++ [e], Makes m x) := by
  let tr' := (aftermath supersededCompounds).1
  have hrun := tenancy_run supersededCompounds
  have hrun' : (Server.system Backend.single).Run _ tr' _ := aftermath_run supersededCompounds
  have hclient : (tenancy supersededCompounds).2.state.state.inner.clients.get 1 =
      some ⟨1, ⟨1, [1]⟩, true, false, 1, 0, none, .active leaseDuration, none⟩ := by
    decide +kernel
  have hobservant : ∀ e ∈ tr', observant e = true := by decide +kernel
  refine ⟨_, _, tr', _, hrun, hrun', ⟨_, hclient, by decide +kernel⟩, ?_⟩
  exact lease_expiry_final hrun hrun' hclient (by decide +kernel) (by decide +kernel)
    (fun e he k client => prolongs_of_observant (hobservant e he))
    fun tr₁ e tr₂ heq x hx => .inr fun client =>
      uses_of_observant (hobservant e (by rw [heq]; simp)) hx

end EmbedNfs

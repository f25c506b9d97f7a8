import EmbedNfs.Effects.Clients
import EmbedNfs.Effects.Delegations
import EmbedNfs.Effects.Entries

/-!
# What belongs to a client

The sessions, opens, lock states and delegations of a client. They go with its record, and the
opens, lock states and delegations already when its lease runs out. So a section that leaves a
client any of these leaves it its lease as well.
-/

namespace EmbedNfs

/-- Nothing in the tables belongs to the client. -/
structure StateInner.Without (inner : StateInner) (l : Clientid4) : Prop where
  client : inner.clients.get l = none
  sessions : ∀ i session, inner.sessions.get i = some session → session.clientid ≠ l
  openFiles : ∀ x state, inner.openFiles.get x = some state → state.clientid ≠ l
  lockFiles : ∀ x state, inner.lockFiles.get x = some state → state.owner.clientid ≠ l
  delegations : ∀ x state, inner.delegations.get x = some state → state.clientid ≠ l

/-- What belongs to the client is the same in both. -/
structure StateInner.SameFor (l : Clientid4) (a b : StateInner) : Prop where
  client : a.clients.get l = b.clients.get l
  sessions : ∀ i session, session.clientid = l →
    (a.sessions.get i = some session ↔ b.sessions.get i = some session)
  openFiles : ∀ x state, state.clientid = l →
    (a.openFiles.get x = some state ↔ b.openFiles.get x = some state)
  lockFiles : ∀ x state, state.owner.clientid = l →
    (a.lockFiles.get x = some state ↔ b.lockFiles.get x = some state)
  delegations : ∀ x state, state.clientid = l →
    (a.delegations.get x = some state ↔ b.delegations.get x = some state)

namespace StateInner

variable {a b c : StateInner} {l : Clientid4}

theorem Without.of_sub (h : b.Without l) (hclient : a.clients.get l = none)
    (hsessions : a.sessions.Sub b.sessions) (hfiles : a.Shrunk b) : a.Without l where
  client := hclient
  sessions i session hi := h.sessions i session (hsessions i session hi)
  openFiles x state hx := h.openFiles x state (hfiles.openFiles x state hx)
  lockFiles x state hx := h.lockFiles x state (hfiles.lockFiles x state hx)
  delegations x state hx := h.delegations x state (hfiles.delegations x state hx)

theorem Indexed.without_drop (h : b.Indexed) {clientids : List Clientid4} (hl : l ∈ clientids) :
    (clientids.foldl StateInner.dropClientState b).Without l := by
  have hout : ∀ {V : Type} (owner : V → Clientid4) {o : Option V} {v : V},
      o.filter (fun v => owner v ∉ clientids) = some v → owner v ≠ l := by
    intro V owner o v hv heq
    obtain ⟨-, hnot⟩ := Option.filter_eq_some_iff.mp hv
    exact of_decide_eq_true hnot (heq ▸ hl)
  refine ⟨?_, ?_, ?_, ?_, ?_⟩
  · rw [get_dropClientStates_clients, if_pos hl]
  · intro i session hi
    rw [get_dropClientStates_sessions] at hi
    exact hout SessionState.clientid hi
  · intro x state hx
    rw [get_dropClientStates_openFiles] at hx
    exact hout OpenFileState.clientid hx
  · intro x state hx
    rw [get_dropClientStates_lockFiles] at hx
    exact hout (fun state : LockFileState => state.owner.clientid) hx
  · intro x state hx
    rw [(h.dropClientStates clientids).2] at hx
    exact hout DelegationState.clientid hx

theorem SameFor.refl (a : StateInner) : SameFor l a a :=
  ⟨rfl, fun _ _ _ => .rfl, fun _ _ _ => .rfl, fun _ _ _ => .rfl, fun _ _ _ => .rfl⟩

theorem SameFor.trans (h : SameFor l a b) (h' : SameFor l b c) : SameFor l a c where
  client := h.client.trans h'.client
  sessions i session hid := (h.sessions i session hid).trans (h'.sessions i session hid)
  openFiles x state hid := (h.openFiles x state hid).trans (h'.openFiles x state hid)
  lockFiles x state hid := (h.lockFiles x state hid).trans (h'.lockFiles x state hid)
  delegations x state hid := (h.delegations x state hid).trans (h'.delegations x state hid)

theorem filter_keeps {V : Type} {o : Option V} {v : V} {p : V → Bool} (hp : p v = true) :
    o.filter p = some v ↔ o = some v := by
  rw [Option.filter_eq_some_iff, and_iff_left hp]

theorem Indexed.sameFor_drop (h : b.Indexed) {clientids : List Clientid4} (hl : l ∉ clientids) :
    SameFor l (clientids.foldl StateInner.dropClientState b) b := by
  refine ⟨?_, ?_, ?_, ?_, ?_⟩
  · rw [get_dropClientStates_clients, if_neg hl]
  · rintro i session rfl
    rw [get_dropClientStates_sessions]
    exact filter_keeps (by simp [hl])
  · rintro x state rfl
    rw [get_dropClientStates_openFiles]
    exact filter_keeps (by simp [hl])
  · rintro x state rfl
    rw [get_dropClientStates_lockFiles]
    exact filter_keeps (by simp [hl])
  · rintro x state rfl
    rw [(h.dropClientStates clientids).2]
    exact filter_keeps (by simp [hl])

theorem Indexed.sameFor_reap_of_not_mem (h : b.Indexed) {now : Instant}
    (hexpiring : l ∉ b.expiring now) (hdropping : l ∉ b.dropping now) :
    SameFor l (b.reapExpiredClientsLocked now) b := by
  refine ⟨?_, ?_, ?_, ?_, ?_⟩
  · rw [get_reap_clients, if_neg hdropping]
    cases hclient : b.clients.get l with
    | none => rfl
    | some client =>
      have hlease : leaseExpired now client = false := by
        rw [← Bool.not_eq_true]
        exact fun hexpired => hexpiring ((b.mem_expiring now).mpr ⟨client, hclient, hexpired⟩)
      simp [afterExpiry, hlease]
  · rintro i session rfl
    rw [get_reap_sessions]
    exact filter_keeps (by simp [hdropping])
  · rintro x state rfl
    rw [get_reap_openFiles]
    exact filter_keeps (by simp [hexpiring, hdropping])
  · rintro x state rfl
    rw [get_reap_lockFiles]
    exact filter_keeps (by simp [hexpiring, hdropping])
  · rintro x state rfl
    rw [h.get_reap_delegations]
    exact filter_keeps (by simp [hexpiring, hdropping])

theorem Indexed.sameFor_reap (h : b.Indexed) {now : Instant} {client : ClientState}
    (hclient : b.clients.get l = some client) (hlease : leaseExpired now client = false)
    (hdue : dropDue now b.sessions l client = false) :
    SameFor l (b.reapExpiredClientsLocked now) b := by
  have hsame : afterExpiry now client = client := by
    unfold afterExpiry
    rw [hlease]
    rfl
  have hexpiring : l ∉ b.expiring now := by
    rw [mem_expiring]
    rintro ⟨found, hfound, hexpired⟩
    cases hclient.symm.trans hfound
    rw [hlease] at hexpired
    cases hexpired
  have hdropping : l ∉ b.dropping now := by
    rw [mem_dropping]
    rintro ⟨found, hfound, hdrop⟩
    cases hclient.symm.trans hfound
    rw [hsame, hdue] at hdrop
    cases hdrop
  exact h.sameFor_reap_of_not_mem hexpiring hdropping

end StateInner

/-! ## Leases and what is held under them -/

namespace StateInner

/-- The client is in the table, with an active lease. -/
def Enrolled (inner : StateInner) (l : Clientid4) : Prop :=
  ∃ client, inner.clients.get l = some client ∧ client.leaseState.isActive = true

/-- Some open, lock state or delegation is the client's. -/
inductive Holds (inner : StateInner) (l : Clientid4) : Prop where
  | opened (x : StateidOther) (state : OpenFileState) (hget : inner.openFiles.get x = some state)
      (hid : state.clientid = l)
  | locked (x : StateidOther) (state : LockFileState) (hget : inner.lockFiles.get x = some state)
      (hid : state.owner.clientid = l)
  | delegated (x : StateidOther) (state : DelegationState)
      (hget : inner.delegations.get x = some state) (hid : state.clientid = l)

/-- A client that holds something in `a` held something in `b`, and if its lease was active in
`b` then so it is in `a`. -/
def Outlasts (a b : StateInner) : Prop :=
  ∀ l, a.Holds l → b.Holds l ∧ (b.Enrolled l → a.Enrolled l)

variable {a b c : StateInner} {l : Clientid4}

theorem Holds.of_subBy (h : a.Holds l)
    (ho : a.openFiles.SubBy OpenFileState.clientid b.openFiles)
    (hl : a.lockFiles.SubBy (fun state => state.owner.clientid) b.lockFiles)
    (hd : a.delegations.SubBy DelegationState.clientid b.delegations) : b.Holds l := by
  cases h with
  | opened x state hget hid =>
    obtain ⟨old, hold, hsame⟩ := ho x state hget
    exact .opened x old hold (hsame.symm.trans hid)
  | locked x state hget hid =>
    obtain ⟨old, hold, hsame⟩ := hl x state hget
    exact .locked x old hold (hsame.symm.trans hid)
  | delegated x state hget hid =>
    obtain ⟨old, hold, hsame⟩ := hd x state hget
    exact .delegated x old hold (hsame.symm.trans hid)

theorem Holds.of_shrunk (h : a.Holds l) (hs : a.Shrunk b) : b.Holds l :=
  h.of_subBy hs.openFiles.subBy hs.lockFiles.subBy hs.delegations.subBy

theorem Without.not_holds (h : a.Without l) : ¬a.Holds l := by
  rintro (⟨x, state, hget, hid⟩ | ⟨x, state, hget, hid⟩ | ⟨x, state, hget, hid⟩)
  · exact h.openFiles x state hget hid
  · exact h.lockFiles x state hget hid
  · exact h.delegations x state hget hid

theorem Outlasts.trans (h : a.Outlasts b) (h' : b.Outlasts c) : a.Outlasts c := by
  intro l hl
  obtain ⟨hb, hlease⟩ := h l hl
  obtain ⟨hc, hlease'⟩ := h' l hb
  exact ⟨hc, fun henrolled => hlease (hlease' henrolled)⟩

theorem Outlasts.refl (a : StateInner) : a.Outlasts a := fun _ hl => ⟨hl, id⟩

theorem Enrolled.modify (h : b.Enrolled l) {k : Clientid4} {f : ClientState → ClientState}
    (hclients : a.clients = b.clients.modify k f)
    (hf : ∀ client, client.leaseState.isActive = true → (f client).leaseState.isActive = true) :
    a.Enrolled l := by
  obtain ⟨client, hget, hactive⟩ := h
  by_cases hk : l = k
  · exact ⟨f client, by rw [hclients, Table.get_modify, if_pos hk, hget]; rfl, hf client hactive⟩
  · exact ⟨client, by rw [hclients, Table.get_modify, if_neg hk, hget], hactive⟩

theorem Outlasts.of_modify {k : Clientid4} {f : ClientState → ClientState}
    (hclients : a.clients = b.clients.modify k f)
    (hf : ∀ client, client.leaseState.isActive = true → (f client).leaseState.isActive = true)
    (hs : a.Shrunk b) : a.Outlasts b :=
  fun _ hl => ⟨hl.of_shrunk hs, fun henrolled => henrolled.modify hclients hf⟩

theorem Outlasts.of_clients (hclients : a.clients = b.clients) (hs : a.Shrunk b) :
    a.Outlasts b := by
  refine fun l hl => ⟨hl.of_shrunk hs, fun ⟨client, hget, hactive⟩ => ⟨client, ?_, hactive⟩⟩
  rw [hclients, hget]

theorem Outlasts.of_insert {k : Clientid4} {new : ClientState}
    (hclients : a.clients = b.clients.insert k new) (hnew : new.leaseState.isActive = true)
    (hs : a.Shrunk b) : a.Outlasts b := by
  refine fun l hl => ⟨hl.of_shrunk hs, fun ⟨client, hget, hactive⟩ => ?_⟩
  by_cases hk : l = k
  · exact ⟨new, by rw [hclients, Table.get_insert, if_pos hk], hnew⟩
  · exact ⟨client, by rw [hclients, Table.get_insert, if_neg hk, hget], hactive⟩

theorem Indexed.outlasts_drop (h : b.Indexed) (clientids : List Clientid4) :
    Outlasts (clientids.foldl StateInner.dropClientState b) b := by
  intro l hl
  have hkeep : l ∉ clientids := fun hmem => (h.without_drop hmem).not_holds hl
  refine ⟨hl.of_shrunk (dropClientStates_shrunk b clientids), fun ⟨client, hget, hactive⟩ => ?_⟩
  exact ⟨client, by rw [get_dropClientStates_clients, if_neg hkeep, hget], hactive⟩

theorem Indexed.not_expiring (h : b.Indexed) {now : Instant}
    (hl : (b.reapExpiredClientsLocked now).Holds l) :
    l ∉ b.expiring now ∧ l ∉ b.dropping now := by
  have hkeep : ∀ {V : Type} (owner : V → Clientid4) {o : Option V} {v : V},
      o.filter (fun v => owner v ∉ b.expiring now ∧ owner v ∉ b.dropping now) = some v →
        owner v = l → l ∉ b.expiring now ∧ l ∉ b.dropping now := by
    rintro V owner o v hv rfl
    exact of_decide_eq_true (Option.filter_eq_some_iff.mp hv).2
  rcases hl with ⟨x, state, hget, hid⟩ | ⟨x, state, hget, hid⟩ | ⟨x, state, hget, hid⟩
  · rw [get_reap_openFiles] at hget
    exact hkeep OpenFileState.clientid hget hid
  · rw [get_reap_lockFiles] at hget
    exact hkeep (fun state : LockFileState => state.owner.clientid) hget hid
  · rw [h.get_reap_delegations] at hget
    exact hkeep DelegationState.clientid hget hid

theorem Indexed.outlasts_reap (h : b.Indexed) (now : Instant) :
    (b.reapExpiredClientsLocked now).Outlasts b := by
  intro l hl
  obtain ⟨hexpiring, hdropping⟩ := h.not_expiring hl
  refine ⟨hl.of_shrunk (reapExpiredClientsLocked_shrunk b now),
    fun ⟨client, hget, hactive⟩ => ⟨client, ?_, hactive⟩⟩
  have hlease : ¬leaseExpired now client = true := by
    intro hexpired
    exact hexpiring ((b.mem_expiring now).mpr ⟨client, hget, hexpired⟩)
  rw [get_reap_clients, if_neg hdropping, hget, Option.map_some, afterExpiry, if_neg hlease]

end StateInner

namespace StateManager

variable {s s' : StateManager} {c : Section}

theorem ClientAct.outlasts (h : ClientAct s c s') (hindexed : s.inner.Indexed) :
    s'.inner.Outlasts s.inner := by
  cases h with
  | sessions sessions hsessions hs =>
    rw [hs]
    exact .of_clients rfl (.of_eq rfl rfl rfl)
  | reclaimed clientid hs =>
    rw [hs]
    exact .of_modify rfl (fun _ hactive => hactive) (.of_eq rfl rfl rfl)
  | sequenced clientid client sessions _ _ _ _ hs =>
    rw [hs]
    exact .of_modify rfl (fun _ _ => rfl) (.of_eq rfl rfl rfl)
  | renewed clientid client _ _ _ hs =>
    rw [hs]
    exact .of_modify rfl (fun _ _ => rfl) (.of_eq rfl rfl rfl)
  | destroyed clientid hs =>
    rw [hs]
    exact hindexed.outlasts_drop [clientid]
  | exchanged args _ _ hs =>
    rw [hs]
    rcases s.exchangeIdReaped_cases args with
      ⟨k, client, -, -, -, -, -, hs⟩ | ⟨-, -, inner, hinner, hs⟩
    · rw [hs]
      exact .refl _
    · rw [hs]
      refine StateInner.Outlasts.trans ?_ (hinner ▸ hindexed.outlasts_drop _)
      exact .of_insert rfl rfl (.of_eq rfl rfl rfl)
  | created args conn res _ hok =>
    obtain ⟨client, inner, -, -, hinner, -, rfl⟩ := createSessionReaped_ok hok
    have hsessions : ∀ sessions, StateInner.Outlasts { inner with sessions := sessions } inner :=
      fun sessions => .of_clients rfl (.of_eq rfl rfl rfl)
    refine (hsessions _).trans ?_
    rw [hinner]
    let confirmed : StateInner :=
      { s.inner with
        clients := s.inner.clients.modify args.clientid
          (ClientState.established s.clock (client.sequenceId + 1)) }
    have hestablished : confirmed.Outlasts s.inner :=
      .of_modify rfl (fun _ _ => rfl) (.of_eq rfl rfl rfl)
    unfold confirmClient
    cases client.replacedClientid with
    | none => exact hestablished
    | some old =>
      have hindexed' : confirmed.Indexed := hindexed.with_tables _ _ _ _
      exact (hindexed'.outlasts_drop [old]).trans hestablished
  | introduced args _ hs =>
    rw [hs]
    obtain ⟨clientids, inner, hinner, ⟨confirm, hs⟩ | ⟨client, hactive, -, hs⟩⟩ :=
      s.setClientIdReaped_cases args
    · rw [hs]
      refine StateInner.Outlasts.trans ?_ (hinner ▸ hindexed.outlasts_drop clientids)
      exact .of_modify rfl (fun _ _ => rfl) (.of_eq rfl rfl rfl)
    · rw [hs]
      refine StateInner.Outlasts.trans ?_ (hinner ▸ hindexed.outlasts_drop clientids)
      exact .of_insert rfl hactive (.of_eq rfl rfl rfl)
  | confirmed args _ hok =>
    rw [setClientIdConfirmReaped_clients hok]
    exact .of_modify rfl (fun _ _ => rfl) (.of_eq rfl rfl rfl)

end StateManager

/-- The client for which a section has made an open, a lock state or a delegation. -/
def Section.founds : (c : Section) → c.Ret → Option Clientid4
  | .createOpenState _ owner _ _, .ok _ => some owner.clientid
  | .createLockState _ owner _ _ _ _, .ok _ => some owner.clientid
  | .grantDirectoryDelegation _ clientid _ _ _, .ok (.granted _) => some clientid
  | _, _ => none

namespace StateManager

theorem holds_or_founds (s : StateManager) (c : Section) {l : Clientid4}
    (h : (s.runSection c).2.inner.Holds l) :
    s.inner.Holds l ∨ c.founds (s.runSection c).1 = some l := by
  revert h
  let P (r : c.Ret) (s' : StateManager) : Prop :=
    s'.inner.Holds l → s.inner.Holds l ∨ c.founds r = some l
  show P (s.runSection c).1 (s.runSection c).2
  cases hc : c.rewrites with
  | false => exact fun h => Or.inl (h.of_shrunk (s.runSection_shrunk c hc))
  | true =>
    cases c with
    | createOpenState object owner access deny =>
      refine commit_answers P (fun _ => Or.inl) fun a s' hok h => ?_
      obtain ⟨-, ⟨other, state, -, -, -, rfl⟩ | ⟨-, -, -, rfl⟩⟩ := createOpenState_ok hok
      · exact Or.inl (h.of_subBy (Table.modify_subBy fun _ _ => rfl) (.refl _) (.refl _))
      · cases h with
        | opened x state hget hid =>
          rcases Table.of_get_insert hget with ⟨-, rfl⟩ | ⟨-, hget⟩
          · exact Or.inr (congrArg some hid)
          · exact Or.inl (.opened x state hget hid)
        | locked x state hget hid => exact Or.inl (.locked x state hget hid)
        | delegated x state hget hid => exact Or.inl (.delegated x state hget hid)
    | confirmOpenState stateid =>
      refine commit_answers P (fun _ => Or.inl) fun a s' hok h => ?_
      rw [confirmOpenState_ok hok] at h
      exact Or.inl (h.of_subBy (Table.modify_subBy fun _ _ => rfl) (.refl _) (.refl _))
    | closeState stateid =>
      refine commit_answers P (fun _ => Or.inl) fun a s' hok h => ?_
      rw [(closeState_ok hok).2] at h
      exact Or.inl (h.of_subBy (Table.modify_subBy fun _ _ => rfl) (.refl _) (.refl _))
    | openDowngrade stateid access deny =>
      refine commit_answers P (fun _ => Or.inl) fun a s' hok h => ?_
      obtain ⟨state, mode, -, -, -, rfl⟩ := openDowngrade_ok hok
      exact Or.inl (h.of_subBy (Table.modify_subBy fun _ _ => rfl) (.refl _) (.refl _))
    | createLockState openStateid owner object locktype offset length =>
      refine commit_answers P (fun _ => Or.inl) fun a s' hok h => ?_
      obtain ⟨-, -, -, -, rfl⟩ := createLockState_ok hok
      cases h with
      | opened x state hget hid => exact Or.inl (.opened x state hget hid)
      | locked x state hget hid =>
        rcases Table.of_get_insert hget with ⟨-, rfl⟩ | ⟨-, hget⟩
        · exact Or.inr (congrArg some hid)
        · exact Or.inl (.locked x state hget hid)
      | delegated x state hget hid => exact Or.inl (.delegated x state hget hid)
    | updateLockState stateid locktype offset length =>
      refine commit_answers P (fun _ => Or.inl) fun a s' hok h => ?_
      obtain ⟨state, -, -, -, rfl⟩ := updateLockState_ok hok
      exact Or.inl (h.of_subBy (.refl _) (Table.modify_subBy fun _ _ => rfl) (.refl _))
    | unlockState stateid offset length =>
      refine commit_answers P (fun _ => Or.inl) fun a s' hok h => ?_
      obtain ⟨state, -, -, rfl⟩ := unlockState_ok hok
      refine Or.inl (h.of_subBy (.refl _) (Table.modify_subBy fun lock _ => ?_) (.refl _))
      unfold unlockRanges
      split <;> rfl
    | grantDirectoryDelegation object clientid sessionid maxPerClient maxTotal =>
      refine commit_answers P (fun _ => Or.inl) fun a s' hok h => ?_
      rcases grantDirectoryDelegation_ok hok with rfl | ⟨-, -, rfl, rfl⟩
      · exact Or.inl h
      · cases h with
        | opened x state hget hid => exact Or.inl (.opened x state hget hid)
        | locked x state hget hid => exact Or.inl (.locked x state hget hid)
        | delegated x state hget hid =>
          rcases Table.of_get_insert hget with ⟨-, rfl⟩ | ⟨-, hget⟩
          · exact Or.inr (congrArg some hid)
          · exact Or.inl (.delegated x state hget hid)
    | beginDirectoryRecallExcluding object excluded =>
      refine fun h => Or.inl (h.of_subBy (.refl _) (.refl _) fun x state hx => ?_)
      obtain ⟨old, hold, hages⟩ := s.beginDirectoryRecallExcluding_age object excluded x state hx
      exact ⟨old, hold, hages.clientid⟩
    | revokeRecallableDelegation stateid =>
      refine commitUnit_keeps (fun s' => s'.inner.Holds l → s.inner.Holds l ∨ _) Or.inl
        fun s' hok h => ?_
      obtain ⟨state, -, rfl⟩ := revokeRecallableDelegation_ok hok
      exact Or.inl (h.of_subBy (.refl _) (.refl _) (Table.modify_subBy fun _ _ => rfl))
    | _ => cases hc

/-- **What is held is held under a lease.** A client that holds something after a section held
something before, and its lease is active if it was; or the section has just made it that. -/
theorem runSection_holds (s : StateManager) (c : Section) (hindexed : s.inner.Indexed)
    {l : Clientid4} (h : (s.runSection c).2.inner.Holds l) :
    (s.inner.Holds l ∨ c.founds (s.runSection c).1 = some l) ∧
      (s.inner.Enrolled l → (s.runSection c).2.inner.Enrolled l) := by
  cases hadmin : c.administers with
  | true =>
    have hreaped : (s.reapedFor c).inner.Indexed ∧ (s.reapedFor c).inner.Outlasts s.inner := by
      unfold reapedFor
      split
      · exact ⟨hindexed.reap s.clock, hindexed.outlasts_reap s.clock⟩
      · exact ⟨hindexed, .refl _⟩
    have hact := (s.runSection_clientAct c hadmin).outlasts hreaped.1
    obtain ⟨hheld, hlease⟩ := (hact.trans hreaped.2) l h
    exact ⟨Or.inl hheld, hlease⟩
  | false =>
    have hstill := s.runSection_still c hadmin
    refine ⟨?_, fun ⟨client, hget, hactive⟩ => ?_⟩
    · exact s.holds_or_founds c h
    · have hmap := hstill.clients l
      rw [hget, Option.map_some] at hmap
      obtain ⟨client', hget', hsame⟩ := Option.map_eq_some_iff.mp hmap
      refine ⟨client', hget', ?_⟩
      have hlease : client'.standing.leaseState = client.standing.leaseState := by rw [hsame]
      exact (congrArg ClientLeaseState.isActive hlease).trans hactive

end StateManager

end EmbedNfs

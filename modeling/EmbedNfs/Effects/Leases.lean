import EmbedNfs.Effects.Calls

/-!
# What happens to a client that goes

The exact effect on the tables of dropping a client, of revoking its state and of the reaping
pass. A client whose lease has run out loses its opens, locks and delegations, and its record
says so; if it has no session, or has been in that state for long enough, it goes as well,
with its sessions.
-/

namespace EmbedNfs

namespace StateInner

/-! ## Delegations -/

@[simp] theorem get_removeDelegationLocked (inner : StateInner) (other k : StateidOther) :
    (inner.removeDelegationLocked other).delegations.get k =
      if k = other then none else inner.delegations.get k := by
  unfold removeDelegationLocked
  split
  · rename_i hnone
    by_cases hk : k = other
    · simp [hk, hnone]
    · simp [hk]
  · simp

/-- The delegations that the index lists for the client go, whether the index is exact or not. -/
theorem get_removeClientDelegationsLocked (inner : StateInner) (clientid : Clientid4)
    (k : StateidOther) :
    (inner.removeClientDelegationsLocked clientid).delegations.get k =
      if k ∈ indexed inner.clientDelegations clientid then none else inner.delegations.get k := by
  have hfold : ∀ (others : List StateidOther) (inner : StateInner),
      (others.foldl removeDelegationLocked inner).delegations.get k =
        if k ∈ others then none else inner.delegations.get k := by
    intro others
    induction others with
    | nil => simp
    | cons other others ih =>
      intro inner
      rw [List.foldl_cons, ih, get_removeDelegationLocked]
      by_cases hk : k = other
      · simp [hk]
      · simp [hk]
  exact hfold _ _

/-- The two indexes list every delegation under its directory and under its client, and stateids
name their client. -/
structure Indexed (inner : StateInner) : Prop where
  byObject : ∀ k state, inner.delegations.get k = some state →
    k ∈ indexed inner.dirDelegations state.object
  byClient : ∀ k state, inner.delegations.get k = some state →
    k ∈ indexed inner.clientDelegations state.clientid
  named : ∀ clientid k, k ∈ indexed inner.clientDelegations clientid → k.clientid = clientid
  embedded : ∀ k state, inner.delegations.get k = some state → state.clientid = k.clientid

/-- A delegation that goes is taken out of both indexes, where it is listed under its own keys. -/
theorem mem_indexed_removeDelegationLocked (inner : StateInner) (other k : StateidOther) :
    (∀ object, k ∈ indexed (inner.removeDelegationLocked other).dirDelegations object ↔
      k ∈ indexed inner.dirDelegations object ∧
        ¬∃ state, inner.delegations.get other = some state ∧ object = state.object ∧ k = other) ∧
    ∀ clientid, k ∈ indexed (inner.removeDelegationLocked other).clientDelegations clientid ↔
      k ∈ indexed inner.clientDelegations clientid ∧
        ¬∃ state, inner.delegations.get other = some state ∧ clientid = state.clientid ∧
          k = other := by
  unfold StateInner.removeDelegationLocked
  split
  · rename_i hnone
    simp [hnone]
  · rename_i state hstate
    simp [mem_indexed_removeFromIndex, hstate]

/-- The indexes stay exact when a delegation goes. -/
theorem Indexed.removeDelegationLocked {inner : StateInner} (h : inner.Indexed)
    (other : StateidOther) : (inner.removeDelegationLocked other).Indexed := by
  have hget : ∀ k state, (inner.removeDelegationLocked other).delegations.get k = some state →
      k ≠ other ∧ inner.delegations.get k = some state := by
    intro k state hk
    rw [inner.get_removeDelegationLocked other] at hk
    split at hk
    · cases hk
    · rename_i hne
      exact ⟨hne, hk⟩
  have hmem := inner.mem_indexed_removeDelegationLocked other
  refine ⟨fun k state hk => ?_, fun k state hk => ?_, fun clientid k hk => ?_, fun k state hk => ?_⟩
  · obtain ⟨hne, hold⟩ := hget k state hk
    refine ((hmem k).1 _).mpr ⟨h.byObject k state hold, ?_⟩
    rintro ⟨_, _, _, heq⟩
    exact hne heq
  · obtain ⟨hne, hold⟩ := hget k state hk
    refine ((hmem k).2 _).mpr ⟨h.byClient k state hold, ?_⟩
    rintro ⟨_, _, _, heq⟩
    exact hne heq
  · exact h.named clientid k (((hmem k).2 _).mp hk).1
  · exact h.embedded k state (hget k state hk).2

theorem Indexed.removeClientDelegationsLocked {inner : StateInner} (h : inner.Indexed)
    (clientid : Clientid4) : (inner.removeClientDelegationsLocked clientid).Indexed := by
  have hfold : ∀ (others : List StateidOther) (inner : StateInner), inner.Indexed →
      (others.foldl StateInner.removeDelegationLocked inner).Indexed := by
    intro others
    induction others with
    | nil => exact fun _ h => h
    | cons other others ih => exact fun _ h => ih _ (h.removeDelegationLocked other)
  exact hfold _ _ h

/-- With an exact index, the delegations of the client go, and no others. -/
theorem Indexed.get_removeClientDelegationsLocked {inner : StateInner}
    (h : inner.Indexed) (clientid : Clientid4) (k : StateidOther) :
    (inner.removeClientDelegationsLocked clientid).delegations.get k =
      (inner.delegations.get k).filter fun state => state.clientid ≠ clientid := by
  rw [StateInner.get_removeClientDelegationsLocked]
  cases hget : inner.delegations.get k with
  | none => simp
  | some state =>
    have hmem : k ∈ indexed inner.clientDelegations clientid ↔ state.clientid = clientid := by
      constructor
      · intro hk
        rw [h.embedded k state hget, h.named clientid k hk]
      · rintro rfl
        exact h.byClient k state hget
    by_cases hclient : state.clientid = clientid
    · simp [hmem, hclient, Option.filter]
    · simp [hmem, hclient, Option.filter]

/-! ## Revoking and dropping -/

section

variable (inner : StateInner) (clientid : Clientid4)

/-- Expiry takes the opens and locks of the client, apart from its delegations. -/
theorem revokeClientState_only :
    (inner.revokeClientState clientid).OnlyDelegations
      { inner with
        openFiles := inner.openFiles.retain fun _ state => state.clientid ≠ clientid
        lockFiles := inner.lockFiles.retain fun _ state => state.owner.clientid ≠ clientid } :=
  removeClientDelegationsLocked_only _ clientid

@[simp] theorem revokeClientState_clients :
    (inner.revokeClientState clientid).clients = inner.clients := by
  obtain ⟨_, _, _, h⟩ := inner.revokeClientState_only clientid
  rw [h]

@[simp] theorem revokeClientState_sessions :
    (inner.revokeClientState clientid).sessions = inner.sessions := by
  obtain ⟨_, _, _, h⟩ := inner.revokeClientState_only clientid
  rw [h]

@[simp] theorem revokeClientState_openFiles :
    (inner.revokeClientState clientid).openFiles =
      inner.openFiles.retain fun _ state => state.clientid ≠ clientid := by
  obtain ⟨_, _, _, h⟩ := inner.revokeClientState_only clientid
  rw [h]

@[simp] theorem revokeClientState_lockFiles :
    (inner.revokeClientState clientid).lockFiles =
      inner.lockFiles.retain fun _ state => state.owner.clientid ≠ clientid := by
  obtain ⟨_, _, _, h⟩ := inner.revokeClientState_only clientid
  rw [h]

@[simp] theorem dropClientState_clients :
    (inner.dropClientState clientid).clients = inner.clients.erase clientid := by
  simp [dropClientState]

@[simp] theorem dropClientState_sessions :
    (inner.dropClientState clientid).sessions =
      inner.sessions.retain fun _ session => session.clientid ≠ clientid := by
  simp [dropClientState]

@[simp] theorem dropClientState_openFiles :
    (inner.dropClientState clientid).openFiles =
      inner.openFiles.retain fun _ state => state.clientid ≠ clientid := by
  simp [dropClientState]

@[simp] theorem dropClientState_lockFiles :
    (inner.dropClientState clientid).lockFiles =
      inner.lockFiles.retain fun _ state => state.owner.clientid ≠ clientid := by
  simp [dropClientState]

variable {inner}

/-- The indexes do not depend on the other tables. -/
theorem Indexed.with_tables (h : inner.Indexed)
    (clients : Table Clientid4 ClientState) (sessions : Table Sessionid4 SessionState)
    (openFiles : Table StateidOther OpenFileState) (lockFiles : Table StateidOther LockFileState) :
    Indexed { inner with clients, sessions, openFiles, lockFiles } :=
  ⟨h.byObject, h.byClient, h.named, h.embedded⟩

theorem Indexed.revokeClientState (h : inner.Indexed) :
    (inner.revokeClientState clientid).Indexed := by
  have h' := h.with_tables inner.clients inner.sessions
    (inner.openFiles.retain fun _ state => state.clientid ≠ clientid)
    (inner.lockFiles.retain fun _ state => state.owner.clientid ≠ clientid)
  exact h'.removeClientDelegationsLocked clientid

/-- Expiry takes the delegations of the client and no others. -/
theorem Indexed.get_revokeClientState (h : inner.Indexed) (k : StateidOther) :
    (inner.revokeClientState clientid).delegations.get k =
      (inner.delegations.get k).filter fun state => state.clientid ≠ clientid := by
  have h' := h.with_tables inner.clients inner.sessions
    (inner.openFiles.retain fun _ state => state.clientid ≠ clientid)
    (inner.lockFiles.retain fun _ state => state.owner.clientid ≠ clientid)
  exact h'.get_removeClientDelegationsLocked clientid k

theorem Indexed.dropClientState (h : inner.Indexed) :
    (inner.dropClientState clientid).Indexed := by
  have h' := h.with_tables inner.clients
    (inner.sessions.retain fun _ session => session.clientid ≠ clientid) inner.openFiles
    inner.lockFiles
  exact (h'.revokeClientState clientid).with_tables _ _ _ _

theorem Indexed.get_dropClientState (h : inner.Indexed) (k : StateidOther) :
    (inner.dropClientState clientid).delegations.get k =
      (inner.delegations.get k).filter fun state => state.clientid ≠ clientid := by
  have h' := h.with_tables inner.clients
    (inner.sessions.retain fun _ session => session.clientid ≠ clientid) inner.openFiles
    inner.lockFiles
  exact h'.get_revokeClientState clientid k

end

/-! ## Several clients -/

section

variable (inner : StateInner) (clientids : List Clientid4)

/-- The records of the clients go. -/
theorem get_dropClientStates_clients (k : Clientid4) :
    (clientids.foldl dropClientState inner).clients.get k =
      if k ∈ clientids then none else inner.clients.get k := by
  rw [← Table.get_foldl_erase, List.foldl_hom StateInner.clients]
  exact fun inner id => (dropClientState_clients inner id).symm

variable {inner clientids} in
theorem of_get_dropClientStates_clients {k : Clientid4} {client : ClientState}
    (h : (clientids.foldl dropClientState inner).clients.get k = some client) :
    k ∉ clientids ∧ inner.clients.get k = some client := by
  rw [get_dropClientStates_clients] at h
  split at h
  · cases h
  · rename_i hk
    exact ⟨hk, h⟩

/-- Their sessions go with them. -/
theorem get_dropClientStates_sessions (k : Sessionid4) :
    (clientids.foldl dropClientState inner).sessions.get k =
      (inner.sessions.get k).filter fun session => session.clientid ∉ clientids := by
  rw [← Table.get_foldl_retain, List.foldl_hom StateInner.sessions]
  exact fun inner id => (dropClientState_sessions inner id).symm

/-- So do their opens, -/
theorem get_dropClientStates_openFiles (k : StateidOther) :
    (clientids.foldl dropClientState inner).openFiles.get k =
      (inner.openFiles.get k).filter fun state => state.clientid ∉ clientids := by
  rw [← Table.get_foldl_retain, List.foldl_hom StateInner.openFiles]
  exact fun inner id => (dropClientState_openFiles inner id).symm

/-- and the locks of their lock owners. -/
theorem get_dropClientStates_lockFiles (k : StateidOther) :
    (clientids.foldl dropClientState inner).lockFiles.get k =
      (inner.lockFiles.get k).filter fun state => state.owner.clientid ∉ clientids := by
  rw [← Table.get_foldl_retain _ fun state : LockFileState => state.owner.clientid,
    List.foldl_hom StateInner.lockFiles]
  exact fun inner id => (dropClientState_lockFiles inner id).symm

end

/-- What takes the delegations of one client takes those of a list of clients. -/
theorem Indexed.foldl {f : StateInner → Clientid4 → StateInner}
    (hf : ∀ inner clientid, inner.Indexed → (f inner clientid).Indexed ∧
      ∀ k, (f inner clientid).delegations.get k =
        (inner.delegations.get k).filter fun state => state.clientid ≠ clientid)
    {inner : StateInner} (h : inner.Indexed) (clientids : List Clientid4) :
    (clientids.foldl f inner).Indexed ∧
      ∀ k, (clientids.foldl f inner).delegations.get k =
        (inner.delegations.get k).filter fun state => state.clientid ∉ clientids := by
  induction clientids generalizing inner with
  | nil =>
    refine ⟨h, fun k => ?_⟩
    cases hget : inner.delegations.get k with
    | none => simp [hget]
    | some state => simp [hget, Option.filter]
  | cons id ids ih =>
    obtain ⟨hone, hget⟩ := hf inner id h
    obtain ⟨hrest, hget'⟩ := ih hone
    refine ⟨hrest, fun k => ?_⟩
    rw [List.foldl_cons, hget', hget, Option.filter_filter]
    congr 1
    funext state
    simp

theorem Indexed.dropClientStates {inner : StateInner} (h : inner.Indexed)
    (clientids : List Clientid4) :
    (clientids.foldl StateInner.dropClientState inner).Indexed ∧
      ∀ k, (clientids.foldl StateInner.dropClientState inner).delegations.get k =
        (inner.delegations.get k).filter fun state => state.clientid ∉ clientids :=
  Indexed.foldl (fun _ id h => ⟨h.dropClientState id, h.get_dropClientState id⟩) h clientids

/-! ## Expiry -/

/-- The record of a client whose lease has run out. -/
def expired (now : Instant) (client : ClientState) : ClientState :=
  { client with leaseState := .revoked now seq4StatusExpiredAllStateRevoked }

section

variable (now : Instant) (inner : StateInner) (clientids : List Clientid4)

/-- An expired client keeps its record, in which the lease is revoked. -/
theorem get_expireClients_clients (k : Clientid4) :
    (clientids.foldl (expireClient now) inner).clients.get k =
      if k ∈ clientids then (inner.clients.get k).map (expired now) else inner.clients.get k := by
  induction clientids generalizing inner with
  | nil => simp
  | cons id ids ih =>
    rw [List.foldl_cons, ih]
    by_cases hk : k = id
    · subst hk
      cases hget : inner.clients.get k with
      | none => simp [expireClient, hget]
      | some client => simp [expireClient, hget, expired]
    · simp [expireClient, hk]

/-- Expiry leaves the sessions alone. -/
theorem expireClients_sessions :
    (clientids.foldl (expireClient now) inner).sessions = inner.sessions := by
  induction clientids generalizing inner with
  | nil => rfl
  | cons id ids ih =>
    rw [List.foldl_cons, ih]
    simp [expireClient]

theorem get_expireClients_openFiles (k : StateidOther) :
    (clientids.foldl (expireClient now) inner).openFiles.get k =
      (inner.openFiles.get k).filter fun state => state.clientid ∉ clientids := by
  rw [← Table.get_foldl_retain, List.foldl_hom StateInner.openFiles]
  simp [expireClient]

theorem get_expireClients_lockFiles (k : StateidOther) :
    (clientids.foldl (expireClient now) inner).lockFiles.get k =
      (inner.lockFiles.get k).filter fun state => state.owner.clientid ∉ clientids := by
  rw [← Table.get_foldl_retain _ fun state : LockFileState => state.owner.clientid,
    List.foldl_hom StateInner.lockFiles]
  simp [expireClient]

end

theorem Indexed.expireClients (now : Instant) {inner : StateInner} (h : inner.Indexed)
    (clientids : List Clientid4) :
    (clientids.foldl (expireClient now) inner).Indexed ∧
      ∀ k, (clientids.foldl (expireClient now) inner).delegations.get k =
        (inner.delegations.get k).filter fun state => state.clientid ∉ clientids := by
  refine Indexed.foldl (f := expireClient now) (fun inner id h => ⟨?_, ?_⟩) h clientids
  · exact (h.revokeClientState id).with_tables _ _ _ _
  · exact h.get_revokeClientState id

/-! ## The reaping pass -/

/-- The clients whose lease has run out. -/
def expiring (inner : StateInner) (now : Instant) : List Clientid4 :=
  inner.clients.keysWhere fun _ client => leaseExpired now client

/-- What expiry makes of a record. -/
def afterExpiry (now : Instant) (client : ClientState) : ClientState :=
  if leaseExpired now client then expired now client else client

/-- The clients that go. -/
def dropping (inner : StateInner) (now : Instant) : List Clientid4 :=
  (((inner.expiring now).foldl (expireClient now) inner).clients).keysWhere
    (dropDue now inner.sessions)

section

variable (inner : StateInner) (now : Instant)

theorem mem_expiring {k : Clientid4} :
    k ∈ inner.expiring now ↔
      ∃ client, inner.clients.get k = some client ∧ leaseExpired now client = true :=
  Table.mem_keysWhere

/-- Every record is either expired or stays as it is. -/
theorem get_expiring_clients (k : Clientid4) :
    ((inner.expiring now).foldl (expireClient now) inner).clients.get k =
      (inner.clients.get k).map (afterExpiry now) := by
  rw [get_expireClients_clients]
  cases hget : inner.clients.get k with
  | none => simp
  | some client =>
    have hmem : k ∈ inner.expiring now ↔ leaseExpired now client = true := by
      simp [mem_expiring, hget]
    simp only [hmem, afterExpiry, Option.map_some]
    split
    · rfl
    · rfl

/-- A client goes if its record is due once the expired ones are revoked. -/
theorem mem_dropping {k : Clientid4} :
    k ∈ inner.dropping now ↔
      ∃ client, inner.clients.get k = some client ∧
        dropDue now inner.sessions k (afterExpiry now client) = true := by
  rw [dropping, Table.mem_keysWhere, get_expiring_clients]
  constructor
  · rintro ⟨client', hmap, hdue⟩
    obtain ⟨client, hget, rfl⟩ := Option.map_eq_some_iff.mp hmap
    exact ⟨client, hget, hdue⟩
  · rintro ⟨client, hget, hdue⟩
    exact ⟨_, by rw [hget]; rfl, hdue⟩

/-- Reaping in two passes over the clients: one that expires and one that drops. -/
theorem reapExpiredClientsLocked_eq :
    inner.reapExpiredClientsLocked now =
      (inner.dropping now).foldl dropClientState
        ((inner.expiring now).foldl (expireClient now) inner) := by
  rw [reapExpiredClientsLocked, dropping, expireClients_sessions]
  rfl

/-- The record of a client after reaping. -/
theorem get_reap_clients (k : Clientid4) :
    (inner.reapExpiredClientsLocked now).clients.get k =
      if k ∈ inner.dropping now then none else (inner.clients.get k).map (afterExpiry now) := by
  rw [reapExpiredClientsLocked_eq, get_dropClientStates_clients, get_expiring_clients]

/-- A client that is there after reaping was there before, and its lease may have been revoked. -/
theorem of_get_reap_clients {k : Clientid4} {client : ClientState}
    (h : (inner.reapExpiredClientsLocked now).clients.get k = some client) :
    k ∉ inner.dropping now ∧
      ∃ old, inner.clients.get k = some old ∧ client = afterExpiry now old := by
  rw [get_reap_clients] at h
  split at h
  · cases h
  · rename_i hkeep
    obtain ⟨old, hold, hclient⟩ := Option.map_eq_some_iff.mp h
    exact ⟨hkeep, old, hold, hclient.symm⟩

/-- A session goes with the record of its client only. -/
theorem get_reap_sessions (k : Sessionid4) :
    (inner.reapExpiredClientsLocked now).sessions.get k =
      (inner.sessions.get k).filter fun session => session.clientid ∉ inner.dropping now := by
  rw [reapExpiredClientsLocked_eq, get_dropClientStates_sessions, expireClients_sessions]

/-- An open goes when the lease of its client runs out, or with the record. -/
theorem get_reap_openFiles (k : StateidOther) :
    (inner.reapExpiredClientsLocked now).openFiles.get k =
      (inner.openFiles.get k).filter fun state =>
        state.clientid ∉ inner.expiring now ∧ state.clientid ∉ inner.dropping now := by
  rw [reapExpiredClientsLocked_eq, get_dropClientStates_openFiles, get_expireClients_openFiles,
    Option.filter_filter]
  congr 1
  simp

theorem get_reap_lockFiles (k : StateidOther) :
    (inner.reapExpiredClientsLocked now).lockFiles.get k =
      (inner.lockFiles.get k).filter fun state =>
        state.owner.clientid ∉ inner.expiring now ∧ state.owner.clientid ∉ inner.dropping now := by
  rw [reapExpiredClientsLocked_eq, get_dropClientStates_lockFiles, get_expireClients_lockFiles,
    Option.filter_filter]
  congr 1
  simp

variable {inner}

/-- Reaping keeps the indexes exact. -/
theorem Indexed.reap (h : inner.Indexed) :
    (inner.reapExpiredClientsLocked now).Indexed := by
  rw [reapExpiredClientsLocked_eq]
  exact ((h.expireClients now _).1.dropClientStates _).1

/-- Delegations go as opens do. -/
theorem Indexed.get_reap_delegations (h : inner.Indexed) (k : StateidOther) :
    (inner.reapExpiredClientsLocked now).delegations.get k =
      (inner.delegations.get k).filter fun state =>
        state.clientid ∉ inner.expiring now ∧ state.clientid ∉ inner.dropping now := by
  obtain ⟨hexpired, hget⟩ := h.expireClients now (inner.expiring now)
  rw [reapExpiredClientsLocked_eq, (hexpired.dropClientStates _).2, hget, Option.filter_filter]
  congr 1
  funext state
  simp

/-- While all leases run, reaping does nothing. -/
theorem reapExpiredClientsLocked_of_active
    (h : ∀ k client, inner.clients.get k = some client →
      ∃ deadline, client.leaseState = .active deadline ∧ now < deadline) :
    inner.reapExpiredClientsLocked now = inner := by
  have hexpiring : inner.expiring now = [] := by
    rw [List.eq_nil_iff_forall_not_mem]
    intro k hk
    obtain ⟨client, hget, hexpired⟩ := (inner.mem_expiring now).mp hk
    obtain ⟨deadline, hlease, hlt⟩ := h k client hget
    simp only [leaseExpired, hlease, decide_eq_true_eq] at hexpired
    exact absurd hexpired (Nat.not_le.mpr hlt)
  have hdropping : inner.dropping now = [] := by
    rw [List.eq_nil_iff_forall_not_mem]
    intro k hk
    rw [dropping, hexpiring, Table.mem_keysWhere] at hk
    obtain ⟨client, hget, hdue⟩ := hk
    obtain ⟨deadline, hlease, -⟩ := h k client hget
    simp [dropDue, hlease] at hdue
  rw [reapExpiredClientsLocked_eq, hexpiring, hdropping]
  rfl

end

end StateInner

end EmbedNfs

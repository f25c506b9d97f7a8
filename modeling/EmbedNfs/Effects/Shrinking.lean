import EmbedNfs.Session.Calls

/-!
# Sections that only take entries away

Reaping, dropping a client and the sweep of a retirement remove opens, locks and delegations
and do nothing else to them. `StateInner.Shrunk` is that relation; every section that is not
about a single open, lock or delegation stays within it. What is removed is chosen by client
or by object, so an active open does not go without the locks of its client on the object.
-/

namespace EmbedNfs

/-- The opens, locks and delegations of `a` are among those of `b`. -/
structure StateInner.Shrunk (a b : StateInner) : Prop where
  openFiles : a.openFiles.Sub b.openFiles
  lockFiles : a.lockFiles.Sub b.lockFiles
  delegations : a.delegations.Sub b.delegations
  /-- An active open goes together with the locks of its client on the object. -/
  withLocks : ∀ k opened, b.openFiles.get k = some opened → opened.active = true →
    a.openFiles.get k = none → ∀ k' lock, a.lockFiles.get k' = some lock →
      lock.object = opened.object → lock.owner.clientid ≠ opened.clientid

namespace StateInner

/-- Where no open goes, no locks have to go with one. -/
theorem Shrunk.of_openFiles {a b : StateInner} (ho : a.openFiles = b.openFiles)
    (hl : a.lockFiles.Sub b.lockFiles) (hd : a.delegations.Sub b.delegations) : a.Shrunk b where
  openFiles := ho ▸ .refl _
  lockFiles := hl
  delegations := hd
  withLocks k opened hget _ hgone := by
    rw [ho, hget] at hgone
    cases hgone

theorem Shrunk.of_eq {a b : StateInner} (ho : a.openFiles = b.openFiles)
    (hl : a.lockFiles = b.lockFiles) (hd : a.delegations = b.delegations) : a.Shrunk b :=
  .of_openFiles ho (hl ▸ .refl _) (hd ▸ .refl _)

theorem Shrunk.refl (a : StateInner) : a.Shrunk a := .of_eq rfl rfl rfl

theorem Shrunk.trans {a b c : StateInner} (h : a.Shrunk b) (h' : b.Shrunk c) : a.Shrunk c where
  openFiles := h.openFiles.trans h'.openFiles
  lockFiles := h.lockFiles.trans h'.lockFiles
  delegations := h.delegations.trans h'.delegations
  withLocks k opened hget hactive hgone k' lock hlock := by
    cases hb : b.openFiles.get k with
    | none => exact h'.withLocks k opened hget hactive hb k' lock (h.lockFiles k' lock hlock)
    | some opened' =>
      have heq : opened' = opened :=
        Option.some.inj ((h'.openFiles k opened' hb).symm.trans hget)
      rw [heq] at hb
      exact h.withLocks k opened hb hactive hgone k' lock hlock

/-- Only the three tables count. -/
theorem Shrunk.congr {a a' b : StateInner} (h : a.Shrunk b) (ho : a'.openFiles = a.openFiles)
    (hl : a'.lockFiles = a.lockFiles) (hd : a'.delegations = a.delegations) : a'.Shrunk b :=
  (Shrunk.of_eq ho hl hd).trans h

/-! ## Clients -/

theorem removeDelegationLocked_shrunk (inner : StateInner) (other : StateidOther) :
    (inner.removeDelegationLocked other).Shrunk inner := by
  unfold removeDelegationLocked
  split
  · exact .refl _
  · exact .of_openFiles rfl (.refl _) (Table.erase_sub _ _)

theorem removeClientDelegationsLocked_shrunk (inner : StateInner) (clientid : Clientid4) :
    (inner.removeClientDelegationsLocked clientid).Shrunk inner :=
  foldl_rel Shrunk.refl (fun _ _ _ => Shrunk.trans) removeDelegationLocked_shrunk _ _

/-- The opens of the client go with the locks that belong to them. -/
theorem revokeClientState_shrunk (inner : StateInner) (clientid : Clientid4) :
    (inner.revokeClientState clientid).Shrunk inner := by
  refine (removeClientDelegationsLocked_shrunk _ _).trans
    ⟨Table.retain_sub _ _, Table.retain_sub _ _, .refl _, ?_⟩
  intro k opened hget _ hgone k' lock hlock _
  have hopened : opened.clientid = clientid := by
    simpa [hget] using hgone
  have hkept := (Table.get_retain_eq_some.mp hlock).2
  rw [hopened]
  simpa using hkept

theorem dropClientState_shrunk (inner : StateInner) (clientid : Clientid4) :
    (inner.dropClientState clientid).Shrunk inner := by
  have h := revokeClientState_shrunk
    { inner with sessions := inner.sessions.retain fun _ session => session.clientid ≠ clientid }
    clientid
  exact (h.trans (Shrunk.of_eq (b := inner) rfl rfl rfl)).congr rfl rfl rfl

/-- Shrinking is transitive, so a list of clients goes like one client. -/
theorem dropClientStates_shrunk (inner : StateInner) (clientids : List Clientid4) :
    (clientids.foldl dropClientState inner).Shrunk inner :=
  foldl_rel Shrunk.refl (fun _ _ _ => Shrunk.trans) dropClientState_shrunk _ _

theorem expireClient_shrunk (now : Instant) (inner : StateInner) (clientid : Clientid4) :
    (expireClient now inner clientid).Shrunk inner :=
  (revokeClientState_shrunk inner clientid).congr rfl rfl rfl

/-- Reaping makes nothing: it takes from clients whose lease has run out. -/
theorem reapExpiredClientsLocked_shrunk (inner : StateInner) (now : Instant) :
    (inner.reapExpiredClientsLocked now).Shrunk inner :=
  (dropClientStates_shrunk _ _).trans
    (foldl_rel Shrunk.refl (fun _ _ _ => Shrunk.trans) (expireClient_shrunk now) _ _)

end StateInner

namespace StateManager

/-- The opens, locks and delegations of `a` are among those of `b`. -/
def Shrunk (a b : StateManager) : Prop := a.inner.Shrunk b.inner

theorem Shrunk.refl (s : StateManager) : s.Shrunk s := StateInner.Shrunk.refl _

theorem Shrunk.trans {a b c : StateManager} (h : a.Shrunk b) (h' : b.Shrunk c) : a.Shrunk c :=
  StateInner.Shrunk.trans h h'

theorem reapExpiredClients_shrunk (s : StateManager) : s.reapExpiredClients.Shrunk s :=
  StateInner.reapExpiredClientsLocked_shrunk _ _

/-! ## Sections with an error path -/

/-- A section that fails leaves the state as it was, so a reflexive relation has to be shown for its
success only. -/
theorem commit_snd {α : Type} {R : StateManager → StateManager → Prop} {s : StateManager}
    {r : Except NfsStat4 (α × StateManager)} (hrefl : R s s)
    (h : ∀ a s', r = .ok (a, s') → R s' s) : R (s.commit r).2 s := by
  unfold commit
  split
  · exact h _ _ rfl
  · exact hrefl

/-- A property of the state is kept if success keeps it. -/
theorem commit_keeps {α : Type} (P : StateManager → Prop) {s : StateManager}
    {r : Except NfsStat4 (α × StateManager)} (hs : P s) (h : ∀ a s', r = .ok (a, s') → P s') :
    P (s.commit r).2 :=
  commit_snd (R := fun s' _ => P s') hs h

theorem commitUnit_snd {R : StateManager → StateManager → Prop} {s : StateManager}
    {r : Except NfsStat4 StateManager} (hrefl : R s s)
    (h : ∀ s', r = .ok s' → R s' s) : R (s.commitUnit r).2 s := by
  unfold commitUnit
  split
  · exact h _ rfl
  · exact hrefl

theorem commitUnit_keeps (P : StateManager → Prop) {s : StateManager}
    {r : Except NfsStat4 StateManager} (hs : P s) (h : ∀ s', r = .ok s' → P s') :
    P (s.commitUnit r).2 :=
  commitUnit_snd (R := fun s' _ => P s') hs h

/-- The answer and the state of a section that may fail, together. -/
theorem commit_answers {α : Type} (P : Except NfsStat4 α → StateManager → Prop) {s : StateManager}
    {r : Except NfsStat4 (α × StateManager)} (hs : ∀ status, P (.error status) s)
    (h : ∀ a s', r = .ok (a, s') → P (.ok a) s') : P (s.commit r).1 (s.commit r).2 := by
  cases r with
  | ok p => exact h p.1 p.2 rfl
  | error status => exact hs status

/-- What success establishes holds where the answer is a success. -/
theorem commit_of_ok {α : Type} (P : StateManager → Prop) {s : StateManager}
    {r : Except NfsStat4 (α × StateManager)} {a : α} (hok : (s.commit r).1 = .ok a)
    (h : ∀ s', r = .ok (a, s') → P s') : P (s.commit r).2 := by
  cases r with
  | ok p =>
    cases hok
    exact h p.2 rfl
  | error status => cases hok

theorem commitUnit_of_ok (P : StateManager → Prop) {s : StateManager}
    {r : Except NfsStat4 StateManager} (hok : (s.commitUnit r).1 = .ok ())
    (h : ∀ s', r = .ok s' → P s') : P (s.commitUnit r).2 := by
  cases r with
  | ok s' => exact h s' rfl
  | error status => cases hok

theorem Shrunk.of_inner {s s' : StateManager} (ho : s'.inner.openFiles = s.inner.openFiles)
    (hl : s'.inner.lockFiles = s.inner.lockFiles)
    (hd : s'.inner.delegations = s.inner.delegations) : s'.Shrunk s :=
  StateInner.Shrunk.of_eq ho hl hd

/-! ## Client and session sections -/

/-- EXCHANGE_ID may drop an older record of the owner, with all its state. -/
theorem exchangeId_shrunk (s : StateManager) (args : ExchangeIdArgs4) :
    (s.exchangeId args).2.Shrunk s := by
  unfold exchangeId
  split
  · exact .refl _
  · refine Shrunk.trans ?_ (reapExpiredClients_shrunk s)
    unfold exchangeIdReaped
    dsimp only
    split
    · exact .refl _
    · have h := StateInner.dropClientStates_shrunk s.reapExpiredClients.inner
        (staleUnconfirmed s.reapExpiredClients.inner.clients args.clientowner)
      exact h.congr rfl rfl rfl

/-- Confirmation drops the record that is replaced, with all its state. -/
theorem confirmClient_shrunk (s : StateManager) (clientid : Clientid4) (seq : Sequenceid4)
    (replaced : Option Clientid4) : (s.confirmClient clientid seq replaced).Shrunk s.inner := by
  unfold confirmClient
  cases replaced with
  | none => exact .of_eq rfl rfl rfl
  | some old => exact (StateInner.dropClientState_shrunk _ old).trans (.of_eq rfl rfl rfl)

theorem setClientIdReaped_shrunk (s : StateManager) (args : SetClientIdArgs4) :
    (s.setClientIdReaped args).2.Shrunk s := by
  unfold setClientIdReaped
  dsimp only
  split
  all_goals exact (StateInner.dropClientStates_shrunk _ _).congr rfl rfl rfl

/-- FREE_STATEID removes one entry of one of the three tables. -/
theorem freeStateid_shrunk {s s' : StateManager} {stateid : Stateid4}
    (h : s.freeStateid stateid = .ok s') : s'.Shrunk s := by
  rcases freeStateid_ok h with ⟨hfreed, rfl⟩ | rfl | rfl
  · refine ⟨Table.erase_sub _ _, .refl _, .refl _, ?_⟩
    intro k opened hget hactive hgone
    -- Only an inactive open can be freed.
    have hk : k = stateid.other := by
      by_contra hne
      simp [hne, hget] at hgone
    rw [hk] at hget
    rw [hfreed opened hget] at hactive
    cases hactive
  · exact .of_openFiles rfl (Table.erase_sub _ _) (.refl _)
  · exact StateInner.removeDelegationLocked_shrunk _ _

theorem dropBelonging_shrunk (s : StateManager) (ids : List ObjectId) :
    (s.dropBelonging ids).2.Shrunk s := by
  refine ⟨Table.foldl_erase_sub _ _, Table.foldl_erase_sub _ _, Table.foldl_erase_sub _ _, ?_⟩
  intro k opened hget _ hgone k' lock hlock hobject
  simp only [dropBelonging, Table.get_foldl_erase, Table.mem_keysWhere] at hgone hlock
  split at hlock
  · cases hlock
  · rename_i hkept
    split at hgone
    · rename_i hdropped
      obtain ⟨opened', hget', hbelongs⟩ := hdropped
      rw [Option.some.inj (hget'.symm.trans hget), ← hobject] at hbelongs
      exact absurd ⟨lock, hlock, hbelongs⟩ hkept
    · rw [hget] at hgone
      cases hgone

theorem OnlyMetadata.shrunk {s s' : StateManager} (h : s'.OnlyMetadata s) : s'.Shrunk s := by
  obtain ⟨entries, changeid, fileid, rfl⟩ := h
  exact .of_inner rfl rfl rfl

end StateManager

/-! ## Kinds of sections -/

/-- The sections that make or rewrite an open or a lock state. -/
def Section.ofFiles : Section → Bool
  | .createOpenState _ _ _ _ | .confirmOpenState _ | .closeState _ | .openDowngrade _ _ _
  | .createLockState _ _ _ _ _ _ | .updateLockState _ _ _ _ | .unlockState _ _ _ => true
  | _ => false

/-- The first differs from the second in opens, locks and the counter of stateids only. -/
def StateManager.OnlyFiles (s' s : StateManager) : Prop :=
  ∃ openFiles lockFiles nextStateid, s' =
    { s with
      inner.openFiles := openFiles, inner.lockFiles := lockFiles, nextStateid := nextStateid }

/-- The sections that write an open. -/
def Section.ofOpens : Section → Bool
  | .createOpenState _ _ _ _ | .confirmOpenState _ | .closeState _ | .openDowngrade _ _ _ => true
  | _ => false

/-- The first differs from the second in opens and at most one new stateid. -/
def StateManager.OnlyOpens (s' s : StateManager) : Prop :=
  ∃ openFiles n, (n = s.nextStateid ∨ n = s.nextStateid + 1) ∧
    s' = { s with inner.openFiles := openFiles, nextStateid := n }

/-- **Frame lemma.** OPEN, OPEN_CONFIRM, CLOSE and OPEN_DOWNGRADE write opens only. -/
theorem StateManager.runSection_onlyOpens (s : StateManager) (c : Section)
    (h : c.ofOpens = true) : (s.runSection c).2.OnlyOpens s := by
  have hrefl : s.OnlyOpens s := ⟨_, _, Or.inl rfl, rfl⟩
  cases c with
  | createOpenState object owner access deny =>
    refine commit_snd (R := OnlyOpens) hrefl fun a s' hok => ?_
    obtain ⟨-, ⟨other, state, -, -, -, rfl⟩ | ⟨-, -, -, rfl⟩⟩ := createOpenState_ok hok
    · exact ⟨_, _, Or.inl rfl, rfl⟩
    · exact ⟨_, _, Or.inr rfl, rfl⟩
  | confirmOpenState stateid =>
    refine commit_snd (R := OnlyOpens) hrefl fun a s' hok => ?_
    exact ⟨_, _, Or.inl rfl, confirmOpenState_ok hok⟩
  | closeState stateid =>
    refine commit_snd (R := OnlyOpens) hrefl fun a s' hok => ?_
    exact ⟨_, _, Or.inl rfl, (closeState_ok hok).2⟩
  | openDowngrade stateid access deny =>
    refine commit_snd (R := OnlyOpens) hrefl fun a s' hok => ?_
    obtain ⟨state, mode, -, -, -, rfl⟩ := openDowngrade_ok hok
    exact ⟨_, _, Or.inl rfl, rfl⟩
  | _ => cases h

/-- The sections that write a lock state. -/
def Section.locks : Section → Bool
  | .createLockState _ _ _ _ _ _ | .updateLockState _ _ _ _ | .unlockState _ _ _ => true
  | _ => false

/-- The first differs from the second in locks and at most one new stateid. -/
def StateManager.OnlyLocks (s' s : StateManager) : Prop :=
  ∃ lockFiles n, (n = s.nextStateid ∨ n = s.nextStateid + 1) ∧
    s' = { s with inner.lockFiles := lockFiles, nextStateid := n }

/-- **Frame lemma.** LOCK and LOCKU write lock states only. -/
theorem StateManager.runSection_onlyLocks (s : StateManager) (c : Section)
    (h : c.locks = true) : (s.runSection c).2.OnlyLocks s := by
  have hrefl : s.OnlyLocks s := ⟨_, _, Or.inl rfl, rfl⟩
  cases c with
  | createLockState openStateid owner object locktype offset length =>
    refine commit_snd (R := OnlyLocks) hrefl fun a s' hok => ?_
    obtain ⟨-, -, -, -, rfl⟩ := createLockState_ok hok
    exact ⟨_, _, Or.inr rfl, rfl⟩
  | updateLockState stateid locktype offset length =>
    refine commit_snd (R := OnlyLocks) hrefl fun a s' hok => ?_
    obtain ⟨state, -, -, -, rfl⟩ := updateLockState_ok hok
    exact ⟨_, _, Or.inl rfl, rfl⟩
  | unlockState stateid offset length =>
    refine commit_snd (R := OnlyLocks) hrefl fun a s' hok => ?_
    obtain ⟨state, -, -, rfl⟩ := unlockState_ok hok
    exact ⟨_, _, Or.inl rfl, rfl⟩
  | _ => cases h

theorem Section.ofFiles_eq (c : Section) : c.ofFiles = (c.ofOpens || c.locks) := by
  cases c <;> rfl

/-- The frame of the sections on opens and on locks. -/
theorem StateManager.runSection_onlyFiles (s : StateManager) (c : Section)
    (h : c.ofFiles = true) : (s.runSection c).2.OnlyFiles s := by
  rw [c.ofFiles_eq, Bool.or_eq_true] at h
  rcases h with h | h
  · obtain ⟨_, _, -, hs⟩ := s.runSection_onlyOpens c h
    exact ⟨_, _, _, hs⟩
  · obtain ⟨_, _, -, hs⟩ := s.runSection_onlyLocks c h
    exact ⟨_, _, _, hs⟩

namespace StateInner

/-- The first differs from the second in its delegations and their indexes only. -/
def OnlyDelegations (a b : StateInner) : Prop :=
  ∃ delegations dirs clients, a =
    { b with
      delegations := delegations, dirDelegations := dirs, clientDelegations := clients }

theorem OnlyDelegations.refl (a : StateInner) : a.OnlyDelegations a := ⟨_, _, _, rfl⟩

theorem OnlyDelegations.trans {a b c : StateInner} (h : a.OnlyDelegations b)
    (h' : b.OnlyDelegations c) : a.OnlyDelegations c := by
  obtain ⟨_, _, _, rfl⟩ := h
  obtain ⟨_, _, _, rfl⟩ := h'
  exact ⟨_, _, _, rfl⟩

/-- A delegation goes from the table and the two indexes, and nothing else changes. -/
theorem removeDelegationLocked_only (inner : StateInner) (other : StateidOther) :
    (inner.removeDelegationLocked other).OnlyDelegations inner := by
  unfold removeDelegationLocked
  split
  · exact .refl inner
  · exact ⟨_, _, _, rfl⟩

theorem removeClientDelegationsLocked_only (inner : StateInner) (clientid : Clientid4) :
    (inner.removeClientDelegationsLocked clientid).OnlyDelegations inner :=
  foldl_rel OnlyDelegations.refl (fun _ _ _ => OnlyDelegations.trans)
    removeDelegationLocked_only _ _

end StateInner

/-- The sections that grant, recall or take back delegations. -/
def Section.ofDelegations : Section → Bool
  | .grantDirectoryDelegation _ _ _ _ _ | .beginDirectoryRecallExcluding _ _
  | .returnDelegationState _ _ | .purgeClientDelegations _ => true
  | _ => false

/-- The first differs from the second in delegations and at most one new stateid. -/
def StateManager.OnlyDelegations (s' s : StateManager) : Prop :=
  ∃ inner n, inner.OnlyDelegations s.inner ∧ (n = s.nextStateid ∨ n = s.nextStateid + 1) ∧
    s' = { s with inner, nextStateid := n }

/-- **Frame lemma.** A grant, a recall, a return and DELEGPURGE leave all but delegations alone. -/
theorem StateManager.runSection_onlyDelegations (s : StateManager) (c : Section)
    (h : c.ofDelegations = true) : (s.runSection c).2.OnlyDelegations s := by
  have hrefl : s.OnlyDelegations s := ⟨_, _, .refl _, Or.inl rfl, rfl⟩
  cases c with
  | grantDirectoryDelegation object clientid sessionid maxPerClient maxTotal =>
    refine commit_snd (R := OnlyDelegations) hrefl fun a s' hok => ?_
    rcases grantDirectoryDelegation_ok hok with rfl | ⟨-, -, -, rfl⟩
    · exact ⟨_, _, .refl _, Or.inl rfl, rfl⟩
    · exact ⟨_, _, ⟨_, _, _, rfl⟩, Or.inr rfl, rfl⟩
  | beginDirectoryRecallExcluding object excluded =>
    exact ⟨_, _, ⟨_, _, _, rfl⟩, Or.inl rfl, rfl⟩
  | returnDelegationState stateid clientid =>
    refine commitUnit_snd (R := OnlyDelegations) hrefl fun s' hok => ?_
    obtain ⟨-, rfl⟩ := returnDelegationState_ok hok
    exact ⟨_, _, s.inner.removeDelegationLocked_only _, Or.inl rfl, rfl⟩
  | purgeClientDelegations clientid =>
    exact ⟨_, _, s.inner.removeClientDelegationsLocked_only clientid, Or.inl rfl, rfl⟩
  | _ => cases h

/-- The object whose metadata a section makes or changes. -/
def Section.metadataOf : Section → Option ServerObject
  | .ensureMeta object _ | .touchData object _ | .touchMetadata object _
  | .setNamedAttrCount object _ _ | .applySetattr object _ _ => some object
  | _ => none

/-- **Frame lemma.** Metadata is written by sections that write nothing else. -/
theorem StateManager.runSection_onlyMetadata (s : StateManager) {c : Section}
    {object : ServerObject} (h : c.metadataOf = some object) :
    (s.runSection c).2.OnlyMetadata s := by
  cases c with
  | ensureMeta object fileType => exact s.ensureMeta_only object fileType
  | touchData object fileType => exact s.touch_only object fileType
  | touchMetadata object fileType => exact s.touch_only object fileType
  | setNamedAttrCount object fileType count => exact s.setNamedAttrCount_only object fileType count
  | applySetattr object fileType attrs => exact s.applySetattr_only object fileType attrs
  | _ => cases h

/-- The sections that edit the records of clients and sessions and nothing else. -/
def Section.ofSessions : Section → Bool
  | .reapExpiredClients | .destroySession _ _ | .bindConnToSession _ _ | .nextCallbackTargetOn _ _
  | .removeConnection _ | .reclaimComplete _ _ | .setClientIdConfirm _ | .renew _
  | .prepareSequence _ _ _ | .finishSequence _ _ => true
  | _ => false

/-- The first differs from the second, or from the second with its expired clients reaped, in
clients and sessions only. -/
def StateManager.OnlySessions (s' s : StateManager) : Prop :=
  ∃ t clients sessions, (t = s ∨ t = s.reapExpiredClients) ∧
    s' = { t with inner.clients := clients, inner.sessions := sessions }

open StateManager in
/-- **Frame lemma.** Apart from reaping, these sections edit clients and sessions only. -/
theorem StateManager.runSection_onlySessions (s : StateManager) (c : Section)
    (h : c.ofSessions = true) : (s.runSection c).2.OnlySessions s := by
  have hrefl : s.OnlySessions s := ⟨s, _, _, Or.inl rfl, rfl⟩
  have hreap : s.reapExpiredClients.OnlySessions s := ⟨_, _, _, Or.inr rfl, rfl⟩
  cases c with
  | reapExpiredClients => exact hreap
  | destroySession sessionid conn =>
    refine commitUnit_keeps (·.OnlySessions s) hreap fun s' hok => ?_
    exact ⟨_, _, _, Or.inr rfl, destroySessionReaped_ok hok⟩
  | bindConnToSession args conn =>
    refine commit_keeps (·.OnlySessions s) hreap fun a s' hok => ?_
    obtain ⟨session, bound, -, -, -, hs⟩ := bindConnToSessionReaped_ok hok
    exact ⟨_, _, _, Or.inr rfl, hs⟩
  | nextCallbackTargetOn clientid conn =>
    obtain ⟨sessions, hs, -⟩ := s.nextCallbackTargetOn_only clientid conn
    exact ⟨s, _, sessions, Or.inl rfl, hs⟩
  | removeConnection conn => exact ⟨s, _, _, Or.inl rfl, rfl⟩
  | reclaimComplete clientid oneFs =>
    refine commitUnit_keeps (·.OnlySessions s) hreap fun s' hok => ?_
    rcases reclaimCompleteReaped_ok hok with rfl | hs
    · exact hreap
    · exact ⟨_, _, _, Or.inr rfl, hs⟩
  | setClientIdConfirm args =>
    refine commitUnit_keeps (·.OnlySessions s) hreap fun s' hok => ?_
    exact ⟨_, _, _, Or.inr rfl, setClientIdConfirmReaped_ok hok⟩
  | renew clientid =>
    refine commitUnit_keeps (·.OnlySessions s) hrefl fun s' hok => ?_
    exact ⟨s, _, _, Or.inl rfl, renew_ok hok⟩
  | prepareSequence args fingerprint conn =>
    obtain ⟨sessions, clients, hs⟩ :=
      s.reapExpiredClients.prepareSequenceReaped_only args fingerprint conn
    exact ⟨_, clients, sessions, Or.inr rfl, hs⟩
  | finishSequence token response =>
    refine commitUnit_keeps (·.OnlySessions s) hrefl fun s' hok => ?_
    exact ⟨s, _, _, Or.inl rfl, finishSequence_ok hok⟩
  | _ => cases h

/-! ## All sections -/

/-- The sections that create an open, a lock or a delegation, or rewrite one in place. -/
def Section.rewrites : Section → Bool
  | .createOpenState _ _ _ _ | .confirmOpenState _ | .closeState _ | .openDowngrade _ _ _
  | .createLockState _ _ _ _ _ _ | .updateLockState _ _ _ _ | .unlockState _ _ _
  | .grantDirectoryDelegation _ _ _ _ _ | .beginDirectoryRecallExcluding _ _
  | .revokeRecallableDelegation _ => true
  | _ => false

open StateManager in
/-- **Step lemma.** A section that does not make or rewrite state takes some away or leaves all of
it. -/
theorem StateManager.runSection_shrunk (s : StateManager) (c : Section)
    (h : c.rewrites = false) : (s.runSection c).2.Shrunk s := by
  have hreap := reapExpiredClients_shrunk s
  cases hsessions : c.ofSessions with
  | true =>
    obtain ⟨t, clients, sessions, rfl | rfl, hs⟩ := s.runSection_onlySessions c hsessions
    · rw [hs]
      exact .of_inner rfl rfl rfl
    · rw [hs]
      exact hreap.congr rfl rfl rfl
  | false =>
  cases hmeta : c.metadataOf with
  | some object => exact (s.runSection_onlyMetadata hmeta).shrunk
  | none =>
  cases c with
  | exchangeId args => exact exchangeId_shrunk s args
  | createSession args conn =>
    refine Shrunk.trans (commit_snd (.refl _) fun a s' hok => ?_) hreap
    obtain ⟨client, inner, -, -, rfl, -, rfl⟩ := createSessionReaped_ok hok
    have hc := confirmClient_shrunk s.reapExpiredClients args.clientid (client.sequenceId + 1)
      client.replacedClientid
    exact hc.congr rfl rfl rfl
  | destroyClientid clientid =>
    refine Shrunk.trans (commitUnit_snd (.refl _) fun s' hok => ?_) hreap
    rw [destroyClientidReaped_ok hok]
    exact StateInner.dropClientState_shrunk _ _
  | setClientId args => exact Shrunk.trans (setClientIdReaped_shrunk _ _) hreap
  | freeStateid stateid => exact commitUnit_snd (.refl _) fun s' hok => freeStateid_shrunk hok
  | returnDelegationState stateid clientid =>
    refine commitUnit_snd (.refl _) fun s' hok => ?_
    obtain ⟨-, rfl⟩ := returnDelegationState_ok hok
    exact StateInner.removeDelegationLocked_shrunk _ _
  | purgeClientDelegations clientid =>
    exact StateInner.removeClientDelegationsLocked_shrunk _ _
  | dropBelonging ids => exact dropBelonging_shrunk s ids
  | _ =>
    first
      | (cases h; done)
      | (cases hmeta; done)
      | (cases hsessions; done)
      | exact .of_inner rfl rfl rfl

end EmbedNfs

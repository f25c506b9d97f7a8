import EmbedNfs.Properties.StateidKeys

/-!
# The open under a lock

A lock is taken under an open. While the lock is active its open is too, on the same object:
CLOSE refuses while locks are held, and a client or an object is dropped with all of its opens
and locks. Two things can break this. `updateLockState` makes a lock state active again
without a look at its open, which may have been closed since the lookup of the request. And
once the counter of stateids has gone round, a new open or lock can get the stateid of another
one. `StateManager.stateidSafe` says that a section does neither.
-/

namespace EmbedNfs

/-- The stateids kept for the special stateids. -/
def StateidOther.reserved (other : StateidOther) : Bool := other = 0 ∨ other = BitVec.allOnes 96

namespace StateManager

/-- The next stateid for the client is not reserved and names no open and no lock. -/
def mintsUnused (s : StateManager) (clientid : Clientid4) : Bool :=
  let other := StateidOther.mint s.nextStateid clientid
  !other.reserved && (s.inner.openFiles.get other).isNone && (s.inner.lockFiles.get other).isNone

/-- The lock's open is active and still the one of the lock's client and object. -/
def openStands (s : StateManager) (lock : LockFileState) : Bool :=
  (s.inner.openFiles.get lock.openStateOther).any fun opened =>
    opened.active ∧ opened.object = lock.object ∧ opened.clientid = lock.owner.clientid

/-- A section that mints a stateid mints an unused one, and a section that activates a lock
finds its open active. -/
def stateidSafe (s : StateManager) : Section → Bool
  | .createOpenState object owner _ _ =>
    (s.existingOpen object owner).isSome || s.mintsUnused owner.clientid
  | .createLockState _ owner _ _ _ _ => s.mintsUnused owner.clientid
  | .updateLockState stateid _ _ _ => (s.inner.lockFiles.get stateid.other).all s.openStands
  | _ => true

end StateManager

/-- `StateManager.stateidSafe` for a call of the server. -/
def Server.stateidSafe {H : Type} (s : Server H) : Call H → Bool
  | .guarded c => s.state.stateidSafe c
  | _ => true

/-! ## The invariant -/

/-- The lock's open is active and on the same object. -/
def LockFileState.Stands (lock : LockFileState) (opens : Table StateidOther OpenFileState) :
    Prop :=
  ∃ opened, opens.get lock.openStateOther = some opened ∧ opened.active = true ∧
    opened.object = lock.object

/-- Active locks stand on active opens of their client, and no stateid names two things. -/
structure StateInner.LocksStand (inner : StateInner) : Prop where
  stands : ∀ k lock, inner.lockFiles.get k = some lock → lock.active = true →
    lock.owner.clientid = lock.openStateOther.clientid → lock.Stands inner.openFiles
  inactive : ∀ k lock, inner.lockFiles.get k = some lock → lock.active = false → lock.ranges = []
  apart : ∀ k lock, inner.lockFiles.get k = some lock → inner.openFiles.get k = none
  openKeys : ∀ k opened, inner.openFiles.get k = some opened → k.reserved = false
  lockKeys : ∀ k lock, inner.lockFiles.get k = some lock → k.reserved = false

namespace StateInner.LocksStand

variable {inner inner' : StateInner}

theorem of_shrunk (h : inner.LocksStand) (hkeys : inner.KeysEmbed) (hs : inner'.Shrunk inner) :
    inner'.LocksStand where
  stands k lock hlock hactive hclient := by
    obtain ⟨opened, hget, hopened, hobject⟩ :=
      h.stands k lock (hs.lockFiles k lock hlock) hactive hclient
    cases hget' : inner'.openFiles.get lock.openStateOther with
    | some opened' =>
      have heq := Option.some.inj ((hs.openFiles _ _ hget').symm.trans hget)
      exact ⟨opened', hget', by rw [heq]; exact hopened, by rw [heq]; exact hobject⟩
    | none =>
      -- The open would have gone with the locks of its client.
      have hne := hs.withLocks _ opened hget hopened hget' k lock hlock hobject.symm
      exact absurd (hclient.trans (hkeys.openFiles _ _ hget).symm) hne
  inactive k lock hlock := h.inactive k lock (hs.lockFiles k lock hlock)
  apart k lock hlock := by
    cases hget : inner'.openFiles.get k with
    | none => rfl
    | some opened =>
      have hnone := h.apart k lock (hs.lockFiles k lock hlock)
      rw [hs.openFiles k opened hget] at hnone
      cases hnone
  openKeys k opened hget := h.openKeys k opened (hs.openFiles k opened hget)
  lockKeys k lock hlock := h.lockKeys k lock (hs.lockFiles k lock hlock)

theorem of_get (h : inner.LocksStand) (ho : ∀ k, inner'.openFiles.get k = inner.openFiles.get k)
    (hl : ∀ k, inner'.lockFiles.get k = inner.lockFiles.get k) : inner'.LocksStand where
  stands k lock hlock hactive hclient := by
    obtain ⟨opened, hget, hopened⟩ := h.stands k lock ((hl k).symm.trans hlock) hactive hclient
    exact ⟨opened, (ho _).trans hget, hopened⟩
  inactive k lock hlock := h.inactive k lock ((hl k).symm.trans hlock)
  apart k lock hlock := (ho k).trans (h.apart k lock ((hl k).symm.trans hlock))
  openKeys k opened hget := h.openKeys k opened ((ho k).symm.trans hget)
  lockKeys k lock hlock := h.lockKeys k lock ((hl k).symm.trans hlock)

theorem modify_open (h : inner.LocksStand) {other : StateidOther}
    {f : OpenFileState → OpenFileState} (hobject : ∀ a, (f a).object = a.object)
    (hactive : (∀ a, (f a).active = a.active) ∨
      ∀ k lock, inner.lockFiles.get k = some lock → lock.active = true →
        lock.openStateOther ≠ other) :
    { inner with openFiles := inner.openFiles.modify other f }.LocksStand where
  stands k lock hlock hlockActive hclient := by
    obtain ⟨opened, hget, hopened, hobj⟩ := h.stands k lock hlock hlockActive hclient
    by_cases hk : lock.openStateOther = other
    · have hsame := (hactive.resolve_right fun hnone => hnone k lock hlock hlockActive hk) opened
      refine ⟨f opened, ?_, hsame.trans hopened, (hobject opened).trans hobj⟩
      rw [hk] at hget ⊢
      simp [hget]
    · exact ⟨opened, by simp [hk, hget], hopened, hobj⟩
  inactive := h.inactive
  apart k lock hlock := by simp [h.apart k lock hlock]
  openKeys k opened hget := by
    have hsome : ((inner.openFiles.modify other f).get k).isSome = true := by
      rw [show (inner.openFiles.modify other f).get k = some opened from hget]
      rfl
    cases hb : inner.openFiles.get k with
    | some b => exact h.openKeys k b hb
    | none => simp [hb] at hsome
  lockKeys := h.lockKeys

theorem insert_open (h : inner.LocksStand) {other : StateidOther} {new : OpenFileState}
    (hreserved : other.reserved = false) (hopen : inner.openFiles.get other = none)
    (hlock : inner.lockFiles.get other = none) :
    { inner with openFiles := inner.openFiles.insert other new }.LocksStand where
  stands k lock hget hactive hclient := by
    obtain ⟨opened, hopened, hrest⟩ := h.stands k lock hget hactive hclient
    refine ⟨opened, ?_, hrest⟩
    have hne : lock.openStateOther ≠ other := by
      intro heq
      rw [heq, hopen] at hopened
      cases hopened
    simp [hne, hopened]
  inactive := h.inactive
  apart k lock hget := by
    have hne : k ≠ other := by
      rintro rfl
      rw [show inner.lockFiles.get k = some lock from hget] at hlock
      cases hlock
    simp [hne, h.apart k lock hget]
  openKeys k opened hget := by
    simp only [Table.get_insert] at hget
    split at hget
    · rename_i hk
      rw [hk]
      exact hreserved
    · exact h.openKeys k opened hget
  lockKeys := h.lockKeys

theorem write_lock (h : inner.LocksStand) {locks : Table StateidOther LockFileState}
    {other : StateidOther} {new : LockFileState}
    (hget : ∀ k lock, locks.get k = some lock →
      (k = other ∧ lock = new) ∨ inner.lockFiles.get k = some lock)
    (hreserved : other.reserved = false) (hopen : inner.openFiles.get other = none)
    (hinactive : new.active = false → new.ranges = [])
    (hstands : new.active = true → new.owner.clientid = new.openStateOther.clientid →
      new.Stands inner.openFiles) :
    { inner with lockFiles := locks }.LocksStand where
  stands k lock hlock := by
    rcases hget k lock hlock with ⟨-, rfl⟩ | hold
    · exact hstands
    · exact h.stands k lock hold
  inactive k lock hlock := by
    rcases hget k lock hlock with ⟨-, rfl⟩ | hold
    · exact hinactive
    · exact h.inactive k lock hold
  apart k lock hlock := by
    rcases hget k lock hlock with ⟨rfl, -⟩ | hold
    · exact hopen
    · exact h.apart k lock hold
  openKeys := h.openKeys
  lockKeys k lock hlock := by
    rcases hget k lock hlock with ⟨rfl, -⟩ | hold
    · exact hreserved
    · exact h.lockKeys k lock hold

theorem insert_lock (h : inner.LocksStand) {other : StateidOther} {new : LockFileState}
    (hreserved : other.reserved = false) (hopen : inner.openFiles.get other = none)
    (hinactive : new.active = false → new.ranges = [])
    (hstands : new.active = true → new.owner.clientid = new.openStateOther.clientid →
      new.Stands inner.openFiles) :
    { inner with lockFiles := inner.lockFiles.insert other new }.LocksStand := by
  refine h.write_lock (fun k lock hlock => ?_) hreserved hopen hinactive hstands
  rw [Table.get_insert] at hlock
  split at hlock
  · rename_i hk
    exact Or.inl ⟨hk, (Option.some.inj hlock).symm⟩
  · exact Or.inr hlock

theorem modify_lock (h : inner.LocksStand) {other : StateidOther} {lock : LockFileState}
    (hlock : inner.lockFiles.get other = some lock) (f : LockFileState → LockFileState)
    (hinactive : (f lock).active = false → (f lock).ranges = [])
    (hstands : (f lock).active = true → (f lock).owner.clientid = (f lock).openStateOther.clientid →
      (f lock).Stands inner.openFiles) :
    { inner with lockFiles := inner.lockFiles.modify other f }.LocksStand := by
  refine h.write_lock ?_ (h.lockKeys other lock hlock) (h.apart other lock hlock) hinactive
    hstands
  intro k a ha
  rcases Table.of_get_modify ha with ⟨rfl, old, hold, rfl⟩ | ⟨-, ha⟩
  · cases hlock.symm.trans hold
    exact Or.inl ⟨rfl, rfl⟩
  · exact Or.inr ha

end StateInner.LocksStand

/-! ## Sections -/

namespace StateManager

theorem mintsUnused_eq_true {s : StateManager} {clientid : Clientid4}
    (h : s.mintsUnused clientid = true) :
    (StateidOther.mint s.nextStateid clientid).reserved = false ∧
      s.inner.openFiles.get (.mint s.nextStateid clientid) = none ∧
      s.inner.lockFiles.get (.mint s.nextStateid clientid) = none := by
  simpa [mintsUnused, and_assoc] using h

theorem openStands_eq_true {s : StateManager} {lock : LockFileState}
    (h : s.openStands lock = true) :
    ∃ opened, s.inner.openFiles.get lock.openStateOther = some opened ∧ opened.active = true ∧
      opened.object = lock.object ∧ opened.clientid = lock.owner.clientid := by
  unfold openStands at h
  cases hget : s.inner.openFiles.get lock.openStateOther with
  | none => simp [hget] at h
  | some opened => exact ⟨opened, rfl, by simpa [hget] using h⟩

theorem locksHeld_eq_false {s : StateManager} {other : StateidOther}
    (h : s.locksHeld other = false) {k : StateidOther} {lock : LockFileState}
    (hlock : s.inner.lockFiles.get k = some lock) (hactive : lock.active = true) :
    lock.openStateOther ≠ other := by
  have hk := Table.any_eq_false.mp h k lock hlock
  simpa [hactive] using hk

theorem unlockRanges_active {lock : LockFileState} (offset length : U64)
    (h : lock.active = false → lock.ranges = []) :
    ((unlockRanges offset length lock).active = true → lock.active = true) ∧
    ((unlockRanges offset length lock).active = false →
      (unlockRanges offset length lock).ranges = []) := by
  unfold unlockRanges
  cases hactive : lock.active with
  | true =>
    refine ⟨fun _ => rfl, ?_⟩
    split
    · simp
    · simp
  | false =>
    -- There is nothing to take away.
    simp [h hactive]

/-- **Locks keep standing.** A safe section keeps the invariant. -/
theorem runSection_locksStand (s : StateManager) (c : Section) (hkeys : s.inner.KeysEmbed)
    (h : s.inner.LocksStand) (hsafe : s.stateidSafe c = true) :
    (s.runSection c).2.inner.LocksStand := by
  cases hc : c.rewrites with
  | false => exact h.of_shrunk hkeys (s.runSection_shrunk c hc)
  | true =>
  cases hdelegations : c.ofDelegations with
  | true =>
    obtain ⟨_, _, ⟨_, _, _, rfl⟩, -, hs⟩ := s.runSection_onlyDelegations c hdelegations
    rw [hs]
    exact h.of_get (fun _ => rfl) fun _ => rfl
  | false =>
    let P := fun s : StateManager => s.inner.LocksStand
    cases c with
    | createOpenState object owner access deny =>
      refine commit_keeps P h fun a s' hok => ?_
      obtain ⟨-, ⟨other, state, -, -, -, rfl⟩ | ⟨hnone, -, -, rfl⟩⟩ := createOpenState_ok hok
      · exact h.modify_open (fun _ => rfl) (Or.inl fun _ => rfl)
      · simp only [stateidSafe, hnone, Option.isSome_none, Bool.false_or] at hsafe
        obtain ⟨hreserved, hopen, hlock⟩ := mintsUnused_eq_true hsafe
        exact h.insert_open hreserved hopen hlock
    | confirmOpenState stateid =>
      refine commit_keeps P h fun a s' hok => ?_
      rw [confirmOpenState_ok hok]
      exact h.modify_open (fun _ => rfl) (Or.inl fun _ => rfl)
    | closeState stateid =>
      refine commit_keeps P h fun a s' hok => ?_
      obtain ⟨hheld, rfl⟩ := closeState_ok hok
      exact h.modify_open (fun _ => rfl)
        (Or.inr fun k lock hlock hactive => locksHeld_eq_false hheld hlock hactive)
    | openDowngrade stateid access deny =>
      refine commit_keeps P h fun a s' hok => ?_
      obtain ⟨state, mode, -, -, -, rfl⟩ := openDowngrade_ok hok
      exact h.modify_open (fun _ => rfl) (Or.inl fun _ => rfl)
    | createLockState openStateid owner object locktype offset length =>
      refine commit_keeps P h fun a s' hok => ?_
      obtain ⟨-, -, ⟨opened, hget, hactive, hobject⟩, -, rfl⟩ := createLockState_ok hok
      obtain ⟨hreserved, hopen, -⟩ := mintsUnused_eq_true hsafe
      exact h.insert_lock hreserved hopen (fun hfalse => by cases hfalse)
        fun _ _ => ⟨opened, hget, hactive, hobject⟩
    | updateLockState stateid locktype offset length =>
      refine commit_keeps P h fun a s' hok => ?_
      obtain ⟨lock, hlock, -, -, rfl⟩ := updateLockState_ok hok
      simp only [stateidSafe, hlock, Option.all_some] at hsafe
      obtain ⟨opened, hget, hactive, hobject, -⟩ := openStands_eq_true hsafe
      exact h.modify_lock hlock _ (fun hfalse => by cases hfalse)
        fun _ _ => ⟨opened, hget, hactive, hobject⟩
    | unlockState stateid offset length =>
      refine commit_keeps P h fun a s' hok => ?_
      obtain ⟨lock, hlock, -, rfl⟩ := unlockState_ok hok
      obtain ⟨hactive, hinactive⟩ :=
        unlockRanges_active offset length (h.inactive _ lock hlock)
      refine h.modify_lock hlock _ hinactive fun hnew => ?_
      have hstands := h.stands _ lock hlock (hactive hnew)
      unfold unlockRanges
      split
      · exact hstands
      · exact hstands
    | revokeRecallableDelegation stateid =>
      refine commitUnit_snd (R := fun s' _ => P s') h fun s' hok => ?_
      obtain ⟨state, -, rfl⟩ := revokeRecallableDelegation_ok hok
      exact h.of_get (fun _ => rfl) fun _ => rfl
    | _ => first | (cases hc; done) | cases hdelegations

end StateManager

theorem StateInner.locksStand_new (boot : Boot) : (StateManager.new boot).inner.LocksStand where
  stands k lock hlock := by cases hlock
  inactive k lock hlock := by cases hlock
  apart k lock hlock := rfl
  openKeys k opened hget := by cases hget
  lockKeys k lock hlock := by cases hlock

theorem System.Run.locksStand {H α : Type} [DecidableEq H] {backend : Backend H}
    {c c' : Machine H α}
    {tr : Trace H}
    (hrun : (Server.system backend).Run c tr c') (hkeys : c.state.state.inner.KeysEmbed)
    (h : c.state.state.inner.LocksStand)
    (hsafe : ∀ e ∈ tr, e.before.stateidSafe e.call = true) : c'.state.state.inner.LocksStand := by
  have hboth : c'.state.state.inner.KeysEmbed ∧ c'.state.state.inner.LocksStand := by
    refine hrun.inner_invariant (I := fun inner => inner.KeysEmbed ∧ inner.LocksStand) ⟨hkeys, h⟩
      (fun s s' hd hI => ⟨hd.keysEmbed hI.1, ?_⟩) fun e he q hq hI => ⟨?_, ?_⟩
    · exact hI.2.of_get (fun k => (hd.openFiles k).symm) fun k => (hd.lockFiles k).symm
    · exact e.before.state.runSection_keysEmbed q hI.1
    · have hq' := hsafe e he
      rw [hq] at hq'
      exact e.before.state.runSection_locksStand q hI.1 hI.2 hq'
  exact hboth.2

end EmbedNfs

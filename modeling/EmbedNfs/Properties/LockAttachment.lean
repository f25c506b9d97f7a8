import EmbedNfs.Properties.LockLastByte
import EmbedNfs.Properties.LockOpens

/-!
# Locks and the opens under them

A lock state names the open that it was taken under. CLOSE is refused while an active lock names
the open, but LOCK with an existing lock stateid looks at the open in one section and activates the
lock in a later one, and LOCK for a new owner takes the owner's clientid from the request, so that
expiry may take the open and leave the lock. Where neither happens, every active lock has its open.

TEST_STATEID looks at less than the operations that use a stateid: not at the open under a lock
state, and at `active` before the sequence number.
-/

namespace EmbedNfs

/-! ## Owners -/

/-- Lock states belong to the client of the open that they name. -/
def StateInner.OwnersMatch (inner : StateInner) : Prop :=
  ∀ k lock, inner.lockFiles.get k = some lock →
    lock.owner.clientid = lock.openStateOther.clientid

namespace StateManager

/-- A new lock owner has the clientid of the open that the lock is taken under. -/
def ownerMatches (s : StateManager) : Section → Bool
  | .createLockState openStateid owner _ _ _ _ =>
    (s.inner.openFiles.get openStateid.other).all fun opened => opened.clientid = owner.clientid
  | _ => true

theorem runSection_ownersMatch (s : StateManager) (q : Section) (hkeys : s.inner.KeysEmbed)
    (h : s.inner.OwnersMatch) (hq : s.ownerMatches q = true) :
    (s.runSection q).2.inner.OwnersMatch := by
  cases hlocks : q.locks with
  | false => exact fun k lock hlock => h k lock (s.runSection_locks_sub q hlocks k lock hlock)
  | true =>
    cases q with
    | createLockState openStateid owner object locktype offset length =>
      refine commit_keeps (fun s => s.inner.OwnersMatch) h fun stateid s' hok k lock hlock => ?_
      obtain ⟨-, -, ⟨opened, hopened, -, -⟩, -, rfl⟩ := createLockState_ok hok
      rcases Table.of_get_insert hlock with ⟨-, rfl⟩ | ⟨-, hlock⟩
      · simp only [ownerMatches, hopened, Option.all_some, decide_eq_true_eq] at hq
        exact hq.symm.trans (hkeys.openFiles _ opened hopened)
      · exact h k lock hlock
    | updateLockState requested locktype offset length =>
      refine commit_keeps (fun s => s.inner.OwnersMatch) h fun stateid s' hok k lock hlock => ?_
      obtain ⟨-, -, -, -, rfl⟩ := updateLockState_ok hok
      rcases Table.of_get_modify hlock with ⟨rfl, old, hget, rfl⟩ | ⟨-, hlock⟩
      · exact h _ old hget
      · exact h k lock hlock
    | unlockState requested offset length =>
      refine commit_keeps (fun s => s.inner.OwnersMatch) h fun stateid s' hok k lock hlock => ?_
      obtain ⟨-, -, -, rfl⟩ := unlockState_ok hok
      rcases Table.of_get_modify hlock with ⟨rfl, old, hget, rfl⟩ | ⟨-, hlock⟩
      · have howner : (unlockRanges offset length old).owner = old.owner := by
          unfold unlockRanges
          split <;> rfl
        have hopen : (unlockRanges offset length old).openStateOther = old.openStateOther := by
          unfold unlockRanges
          split <;> rfl
        rw [howner, hopen]
        exact h _ old hget
      · exact h k lock hlock
    | _ => cases hlocks

end StateManager

/-- `StateManager.ownerMatches` for a call of the server. -/
def Server.ownerMatches {H : Type} (s : Server H) : Call H → Bool
  | .guarded q => s.state.ownerMatches q
  | _ => true

section

variable {H α : Type} [DecidableEq H] {backend : Backend H} {boot : Boot}
  {threads : List (Request H α)} {tr : Trace H} {c : Machine H α}

theorem System.Run.ownersMatch
    (hrun : (Server.system backend).Run ⟨Server.new H boot, threads⟩ tr c)
    (howner : ∀ e ∈ tr, e.before.ownerMatches e.call = true) :
    c.state.state.inner.OwnersMatch := by
  have h : c.state.state.inner.KeysEmbed ∧ c.state.state.inner.OwnersMatch := by
    refine hrun.inner_invariant (I := fun inner => inner.KeysEmbed ∧ inner.OwnersMatch)
      ⟨StateInner.keysEmbed_new boot, nofun⟩ ?_ ?_
    · exact fun s s' hd h =>
        ⟨hd.keysEmbed h.1, fun k lock hlock => h.2 k lock ((hd.lockFiles k).trans hlock)⟩
    · intro e he q hq h
      have hmatch := howner e he
      rw [hq] at hmatch
      exact ⟨e.before.state.runSection_keysEmbed q h.1,
        e.before.state.runSection_ownersMatch q h.1 h.2 hmatch⟩
  exact h.2

/-- **Locks stay attached to a live open.** Let any requests run against a server, with their
steps interleaved in any order. Suppose no stateid is minted that is reserved or in use, no lock
state is activated again after its open has gone, and new lock owners are of the client of the
open. Then the open that an active lock names exists, is active and is an open of the same
object. -/
theorem locks_stay_attached
    (hrun : (Server.system backend).Run ⟨Server.new H boot, threads⟩ tr c)
    (hsafe : ∀ e ∈ tr, e.before.stateidSafe e.call = true)
    (howner : ∀ e ∈ tr, e.before.ownerMatches e.call = true) (k : StateidOther)
    (lock : LockFileState) (hget : c.state.state.inner.lockFiles.get k = some lock)
    (hactive : lock.active = true) :
    ∃ opened, c.state.state.inner.openFiles.get lock.openStateOther = some opened ∧
      opened.active = true ∧ opened.object = lock.object := by
  have hstands := hrun.locksStand (StateInner.keysEmbed_new boot) (StateInner.locksStand_new boot)
    hsafe
  exact hstands.stands k lock hget hactive (hrun.ownersMatch howner k lock hget)

end

open Scripted in
/-- LOCK with an existing lock stateid finds the open; then CLOSE closes it, as the lock has been
released; then LOCK activates the lock. -/
theorem locks_stay_attached_race :
    let requests := [lockBy 1 (.mint 1 1) .writeLt 0 10,
      opBy (some 1) (.locku ⟨⟨1, .mint 3 1⟩, 0, 10⟩),
      opBy (some 1) (.lock ⟨.writeLt, 4, 2, .existingLockOwner ⟨2, .mint 3 1⟩⟩),
      opBy (some 1) (.close ⟨1, .mint 1 1⟩)]
    ∃ tr c, (Server.system Backend.single).Run ⟨Server.new Unit .fixed, setUp ++ requests⟩ tr c ∧
      c.state.state.inner.lockFiles.get (.mint 3 1) =
        some ⟨.fs 1, ⟨1, [1]⟩, .mint 1 1, [⟨.writeLt, 4, 2⟩], true, 3⟩ ∧
      (c.state.state.inner.openFiles.get (.mint 1 1)).map (·.active) = some false := by
  intro requests
  exact ⟨_, _, run_run requests (List.replicate 9 5 ++ List.replicate 9 6 ++ List.replicate 7 7 ++
    List.replicate 12 8 ++ List.replicate 2 7), by decide +kernel, by decide +kernel⟩

open Scripted in
/-- A lock that is taken under an open of its own client. -/
theorem locks_stay_attached_taken :
    let s := ((lockSections 0 10).foldl Server.afterSection (Server.new Unit .fixed)).state
    let lock : LockFileState := ⟨.fs 1, ⟨1, [2]⟩, .mint 1 1, [⟨.writeLt, 0, 10⟩], true, 1⟩
    s.inner.lockFiles.get (.mint 2 1) = some lock ∧
      ∃ opened, s.inner.openFiles.get (.mint 1 1) = some opened ∧ opened.active = true ∧
        opened.object = .fs 1 := by
  intro s lock
  have hrun : (Server.system Backend.single).Run
      ⟨Server.new Unit .fixed, (lockSections 0 10).map (Server.sectionThread ())⟩ _ _ :=
    Server.sections_run () (lockSections 0 10) _ []
  have hget : s.inner.lockFiles.get (.mint 2 1) = some lock := by decide +kernel
  have hall : ((Server.new Unit .fixed).sectionEvents 0 (lockSections 0 10)).all (fun e =>
      e.before.stateidSafe e.call && e.before.ownerMatches e.call) = true := by decide +kernel
  have hboth := fun e he => Bool.and_eq_true_iff.mp (List.all_eq_true.mp hall e he)
  exact ⟨hget, locks_stay_attached hrun (fun e he => (hboth e he).1) (fun e he => (hboth e he).2)
    (.mint 2 1) lock hget rfl⟩

/-! ## TEST_STATEID -/

/-- The status of a result. -/
def resultStatus {α : Type} : Except NfsStat4 α → NfsStat4
  | .ok _ => .ok
  | .error status => status

/-- The stateid is that of an open or a lock of the client. -/
def StateInner.RecordedFor (inner : StateInner) (clientid : Clientid4) (k : StateidOther) : Prop :=
  (∃ opened, inner.openFiles.get k = some opened ∧ opened.clientid = clientid) ∨
    ∃ lock, inner.lockFiles.get k = some lock ∧ lock.owner.clientid = clientid

/-- What TEST_STATEID does not look at is in order: a closed open is not asked for with an older
sequence number, and a lock state that is asked for with its own has an active open of the client
under it. -/
structure StateInner.Usable (inner : StateInner) (clientid : Clientid4) (stateid : Stateid4) :
    Prop where
  opened : ∀ opened, inner.openFiles.get stateid.other = some opened → opened.active = false →
    validateStateidSeq opened.stateidSeq stateid.seqid ≠ .error .oldStateid
  locked : ∀ lock, inner.openFiles.get stateid.other = none →
    inner.lockFiles.get stateid.other = some lock →
    validateStateidSeq lock.stateidSeq stateid.seqid = .ok () →
      ∃ opened, inner.openFiles.get lock.openStateOther = some opened ∧ opened.active = true ∧
        opened.clientid = clientid

theorem validateStateidSeq_cases (stored provided : U32) :
    validateStateidSeq stored provided = .ok () ∨
      validateStateidSeq stored provided = .error .oldStateid ∨
      validateStateidSeq stored provided = .error .badStateid := by
  unfold validateStateidSeq
  grind

namespace StateManager

variable {s : StateManager} {clientid : Clientid4} {stateid : Stateid4}

theorem resolveConcrete_of_opened {opened : OpenFileState}
    (hget : s.inner.openFiles.get stateid.other = some opened)
    (hclient : opened.clientid = clientid) :
    (∀ status, validateStateidSeq opened.stateidSeq stateid.seqid = .error status →
      resultStatus (s.resolveConcrete (some clientid) stateid) = status) ∧
    (validateStateidSeq opened.stateidSeq stateid.seqid = .ok () →
      resultStatus (s.resolveConcrete (some clientid) stateid) =
        if opened.active then .ok else .badStateid) := by
  subst hclient
  simp only [resolveConcrete, hget, bind, Except.bind, pure, Except.pure, throw, throwThe,
    MonadExceptOf.throw]
  constructor
  · intro status hseq
    rw [hseq]
    rfl
  · intro hseq
    rw [hseq]
    cases opened.active <;> simp [resultStatus]

theorem resolveConcrete_of_locked {lock : LockFileState}
    (hnone : s.inner.openFiles.get stateid.other = none)
    (hget : s.inner.lockFiles.get stateid.other = some lock)
    (hclient : lock.owner.clientid = clientid) :
    (∀ status, validateStateidSeq lock.stateidSeq stateid.seqid = .error status →
      resultStatus (s.resolveConcrete (some clientid) stateid) = status) ∧
    (validateStateidSeq lock.stateidSeq stateid.seqid = .ok () →
      resultStatus (s.resolveConcrete (some clientid) stateid) =
        if (s.inner.openFiles.get lock.openStateOther).any fun opened =>
          opened.active ∧ opened.clientid = clientid then .ok else .badStateid) := by
  subst hclient
  simp only [resolveConcrete, hnone, hget, bind, Except.bind, pure, Except.pure, throw, throwThe,
    MonadExceptOf.throw]
  constructor
  · intro status hseq
    rw [hseq]
    rfl
  · intro hseq
    rw [hseq]
    cases s.inner.openFiles.get lock.openStateOther with
    | none => simp [resultStatus]
    | some opened =>
      cases hactive : opened.active with
      | false => simp [resultStatus, hactive]
      | true =>
        by_cases hid : lock.owner.clientid = opened.clientid
        · simp [resultStatus, hactive, hid]
        · simp [resultStatus, hactive, hid, Ne.symm hid]

theorem resolveStateid_of_not_special (s : StateManager) (clientid : Option Clientid4)
    (hspecial : stateid.isSpecial = false) (current : Option Stateid4)
    (mode : CurrentStateidMode) :
    s.resolveStateid clientid stateid current mode =
      if stateid.isInvalidSpecial then .error .badStateid else s.resolveConcrete clientid stateid := by
  simp only [Stateid4.isSpecial, Bool.decide_or, Bool.or_eq_false_iff, decide_eq_false_iff_not]
    at hspecial
  simp only [resolveStateid, normalizeStateid, if_neg hspecial.1, if_neg hspecial.2.1,
    if_neg hspecial.2.2]
  split <;> rfl

theorem usable_of_opened {opened : OpenFileState}
    (hget : s.inner.openFiles.get stateid.other = some opened) :
    s.inner.Usable clientid stateid ↔ (opened.active = false →
      validateStateidSeq opened.stateidSeq stateid.seqid ≠ .error .oldStateid) := by
  refine ⟨fun h => h.opened opened hget, fun h => ⟨fun opened' hget' => ?_, fun _ hnone => ?_⟩⟩
  · cases hget.symm.trans hget'
    exact h
  · cases hget.symm.trans hnone

theorem usable_of_locked {lock : LockFileState}
    (hnone : s.inner.openFiles.get stateid.other = none)
    (hget : s.inner.lockFiles.get stateid.other = some lock) :
    s.inner.Usable clientid stateid ↔ (validateStateidSeq lock.stateidSeq stateid.seqid = .ok () →
      ∃ opened, s.inner.openFiles.get lock.openStateOther = some opened ∧ opened.active = true ∧
        opened.clientid = clientid) := by
  refine ⟨fun h => h.locked lock hnone hget, fun h => ⟨fun _ hopen => ?_, fun lock' _ hget' => ?_⟩⟩
  · cases hnone.symm.trans hopen
  · cases hget.symm.trans hget'
    exact h

/-- TEST_STATEID agrees with the lookup exactly where nothing is amiss that it does not look at. -/
theorem testStateid_eq_iff (hkeys : s.inner.KeysEmbed) (hspecial : stateid.isSpecial = false)
    (hrecorded : s.inner.RecordedFor clientid stateid.other) (current : Option Stateid4)
    (mode : CurrentStateidMode) :
    s.testStateid stateid = resultStatus (s.resolveStateid (some clientid) stateid current mode) ↔
      stateid.isInvalidSpecial = true ∨ s.inner.Usable clientid stateid := by
  rw [s.resolveStateid_of_not_special _ hspecial]
  unfold testStateid
  cases hinvalid : stateid.isInvalidSpecial with
  | true => simp [hspecial, resultStatus]
  | false =>
    simp only [hspecial, Bool.false_eq_true, or_self, ↓reduceIte, false_or]
    cases hopen : s.inner.openFiles.get stateid.other with
    | some opened =>
      have hclient : opened.clientid = clientid := by
        rcases hrecorded with ⟨opened', hget, hid⟩ | ⟨lock, hget, hid⟩
        · cases hopen.symm.trans hget
          exact hid
        · rw [hkeys.openFiles _ opened hopen, ← hkeys.lockFiles _ lock hget]
          exact hid
      obtain ⟨herror, hok⟩ := resolveConcrete_of_opened hopen hclient
      rw [usable_of_opened hopen]
      rcases validateStateidSeq_cases opened.stateidSeq stateid.seqid with h | h | h
      · simp [hok h, h]
      · -- A closed open with an older number: `badStateid` here, `oldStateid` there.
        cases hactive : opened.active <;> simp [herror _ h, h, hactive]
      · simp [herror _ h, h]
    | none =>
      rcases hrecorded with ⟨opened, hget, -⟩ | ⟨lock, hlock, hclient⟩
      · cases hopen.symm.trans hget
      obtain ⟨herror, hok⟩ := resolveConcrete_of_locked hopen hlock hclient
      rw [usable_of_locked hopen hlock]
      rcases validateStateidSeq_cases lock.stateidSeq stateid.seqid with h | h | h
      · -- TEST_STATEID says that the lock is good, the lookup asks for the open.
        cases hunder : s.inner.openFiles.get lock.openStateOther <;> simp [hok h, h, hlock, hunder]
      · simp [herror _ h, h, hlock]
      · simp [herror _ h, h, hlock]

end StateManager

section

variable {H α : Type} [DecidableEq H] {backend : Backend H} {boot : Boot}
  {threads : List (Request H α)} {tr : Trace H} {c : Machine H α}

/-- **TEST_STATEID agrees with use**, in every reachable state, for every client and every
stateid of an open or a lock recorded for it, exactly where nothing is amiss that TEST_STATEID does
not look at. -/
theorem test_stateid_agrees
    (hrun : (Server.system backend).Run ⟨Server.new H boot, threads⟩ tr c) (clientid : Clientid4)
    (stateid : Stateid4) (hspecial : stateid.isSpecial = false)
    (hrecorded : c.state.state.inner.RecordedFor clientid stateid.other)
    (current : Option Stateid4) (mode : CurrentStateidMode) :
    (c.state.state.runSection (.testStateids [stateid])).1 =
      [resultStatus (c.state.state.resolveStateid (some clientid) stateid current mode)] ↔
    stateid.isInvalidSpecial = true ∨ c.state.state.inner.Usable clientid stateid := by
  have hkeys := hrun.keysEmbed (StateInner.keysEmbed_new boot)
  rw [← StateManager.testStateid_eq_iff hkeys hspecial hrecorded current mode]
  exact List.singleton_inj

end

namespace Scripted

/-- The lock is released and the open closed. -/
def releasedSections : List Section :=
  lockSections 0 10 ++ [.unlockState ⟨1, .mint 2 1⟩ 0 10, .closeState ⟨1, .mint 1 1⟩]

end Scripted

open Scripted in
/-- A lock stateid whose open has been closed: TEST_STATEID says that it is good, and no operation
accepts it. -/
theorem test_stateid_closed_open :
    ∃ tr c, (Server.system Backend.single).Run
        ⟨Server.new Unit .fixed, releasedSections.map (Server.sectionThread ())⟩ tr c ∧
      c.state.state.inner.RecordedFor 1 (.mint 2 1) ∧
      (c.state.state.runSection (.testStateids [⟨2, .mint 2 1⟩])).1 = [.ok] ∧
      resultStatus (c.state.state.resolveStateid (some 1) ⟨2, .mint 2 1⟩ none .zeroSeqid) =
        .badStateid := by
  refine ⟨_, _, Server.sections_run () releasedSections _ [],
    Or.inr ⟨⟨.fs 1, ⟨1, [2]⟩, .mint 1 1, [], false, 2⟩, by decide +kernel, rfl⟩,
    by decide +kernel, by decide +kernel⟩

open Scripted in
/-- A lock stateid under an active open. -/
theorem test_stateid_agrees_locked :
    let s := ((lockSections 0 10).foldl Server.afterSection (Server.new Unit .fixed)).state
    (s.runSection (.testStateids [⟨1, .mint 2 1⟩])).1 =
      [resultStatus (s.resolveStateid (some 1) ⟨1, .mint 2 1⟩ none .zeroSeqid)] := by
  intro s
  have hrun : (Server.system Backend.single).Run
      ⟨Server.new Unit .fixed, (lockSections 0 10).map (Server.sectionThread ())⟩ _ _ :=
    Server.sections_run () (lockSections 0 10) _ []
  have hopen : s.inner.openFiles.get (.mint 1 1) =
      some ⟨.fs 1, 1, [1], 1, true, 3, 0⟩ := by decide +kernel
  have hnone : s.inner.openFiles.get (.mint 2 1) = none := by decide +kernel
  have hlock : s.inner.lockFiles.get (.mint 2 1) =
      some ⟨.fs 1, ⟨1, [2]⟩, .mint 1 1, [⟨.writeLt, 0, 10⟩], true, 1⟩ := by decide +kernel
  refine (test_stateid_agrees hrun 1 ⟨1, .mint 2 1⟩ (by decide) (Or.inr ⟨_, hlock, rfl⟩) none
    .zeroSeqid).mpr (Or.inr ⟨fun opened hget => ?_, fun lock _ hget _ => ?_⟩)
  · cases hnone.symm.trans hget
  · cases hlock.symm.trans hget
    exact ⟨_, hopen, rfl, rfl⟩

end EmbedNfs

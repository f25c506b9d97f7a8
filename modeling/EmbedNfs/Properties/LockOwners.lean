import EmbedNfs.Properties.LockBytes

/-!
# Lock states of one owner

`createLockState` makes a lock state for a lock owner without looking whether the owner has one
on the file already, where `createOpenState` would look. An owner that sends LOCK in the form for
new owners twice has two lock states, and a LOCKU under one of them leaves what the other one
holds. If the form is used only by owners without a lock state on the file, there is one lock
state for every owner and file, and LOCKU gives up every byte that it names.
-/

namespace EmbedNfs

open LockRange

/-! ## Sections that see to it -/

/-- The owner has a lock state on the object, active or not. -/
def StateManager.locks (s : StateManager) (owner : StateOwner4) (object : ServerObject) : Bool :=
  s.inner.lockFiles.any fun _ lock => lock.owner = owner ∧ lock.object = object

/-- A lock state is created only for an owner that has none on the object. Nor does LOCKU name the
last byte alone while a range of the lock state starts at zero: what is left of such a range has
the length that means "to the end of the file". -/
def StateManager.lockAlone (s : StateManager) : Section → Bool
  | .createLockState _ owner object _ _ _ => !s.locks owner object
  | .unlockState requested offset _ =>
    offset ≠ u64Max ∨ (s.inner.lockFiles.get requested.other).all fun lock =>
      lock.ranges.all fun range => range.offset ≠ 0
  | _ => true

/-- `StateManager.lockAlone` for a call of the server. -/
def Server.lockAlone {H : Type} (s : Server H) : Call H → Bool
  | .guarded q => s.state.lockAlone q
  | _ => true

/-- The lock state and the range of a successful LOCKU. -/
def Call.unlocks {H : Type} : (c : Call H) → c.Ret → Option (StateidOther × U64 × U64)
  | .guarded (.unlockState requested offset length), .ok _ => some (requested.other, offset, length)
  | _, _ => none

/-- Every owner has at most one lock state on an object. -/
def OneLockState (locks : Table StateidOther LockFileState) : Prop :=
  ∀ k l a b, locks.get k = some a → locks.get l = some b → a.owner = b.owner →
    a.object = b.object → k = l

namespace OneLockState

variable {locks locks' : Table StateidOther LockFileState}

theorem of_sub (h : OneLockState locks) (hsub : locks'.Sub locks) : OneLockState locks' :=
  fun k l a b ha hb => h k l a b (hsub k a ha) (hsub l b hb)

theorem modify (h : OneLockState locks) (key : StateidOther) {f : LockFileState → LockFileState}
    (howner : ∀ a, (f a).owner = a.owner) (hobject : ∀ a, (f a).object = a.object) :
    OneLockState (locks.modify key f) := by
  have hold : ∀ k a, (locks.modify key f).get k = some a →
      ∃ a', locks.get k = some a' ∧ a'.owner = a.owner ∧ a'.object = a.object := by
    intro k a ha
    rcases Table.of_get_modify ha with ⟨rfl, a', ha', rfl⟩ | ⟨-, ha⟩
    · exact ⟨a', ha', (howner a').symm, (hobject a').symm⟩
    · exact ⟨a, ha, rfl, rfl⟩
  intro k l a b ha hb hown hobj
  obtain ⟨a', ha', hown', hobj'⟩ := hold k a ha
  obtain ⟨b', hb', hown'', hobj''⟩ := hold l b hb
  exact h k l a' b' ha' hb' (by rw [hown', hown'', hown]) (by rw [hobj', hobj'', hobj])

theorem insert (h : OneLockState locks) (key : StateidOther) {new : LockFileState}
    (hnew : ∀ k a, locks.get k = some a → a.owner = new.owner → a.object ≠ new.object) :
    OneLockState (locks.insert key new) := by
  intro k l a b ha hb hown hobj
  rcases Table.of_get_insert ha with ⟨rfl, rfl⟩ | ⟨-, ha'⟩ <;>
    rcases Table.of_get_insert hb with ⟨rfl, rfl⟩ | ⟨-, hb'⟩
  · rfl
  · exact absurd hobj.symm (hnew l b hb' hown.symm)
  · exact absurd hobj (hnew k a ha' hown)
  · exact h k l a b ha' hb' hown hobj

end OneLockState

theorem unlockRanges_owner (offset length : U64) (lock : LockFileState) :
    (StateManager.unlockRanges offset length lock).owner = lock.owner ∧
      (StateManager.unlockRanges offset length lock).object = lock.object := by
  unfold StateManager.unlockRanges
  split <;> exact ⟨rfl, rfl⟩

theorem StateManager.runSection_oneLockState (s : StateManager) (q : Section)
    (h : OneLockState s.inner.lockFiles) (halone : s.lockAlone q = true) :
    OneLockState (s.runSection q).2.inner.lockFiles := by
  cases hq : q.locks with
  | false => exact h.of_sub (s.runSection_locks_sub q hq)
  | true =>
    let P := fun s : StateManager => OneLockState s.inner.lockFiles
    cases q with
    | createLockState openStateid owner object locktype offset length =>
      refine commit_keeps P h fun a s' hok => ?_
      obtain ⟨-, -, -, -, rfl⟩ := createLockState_ok hok
      refine h.insert _ fun k a ha hown hobj => ?_
      have hlocks : s.locks owner object = true :=
        Table.any_eq_true.mpr ⟨k, a, ha, decide_eq_true ⟨hown, hobj⟩⟩
      simp [lockAlone, hlocks] at halone
    | updateLockState requested locktype offset length =>
      refine commit_keeps P h fun a s' hok => ?_
      obtain ⟨lock, -, -, -, rfl⟩ := updateLockState_ok hok
      exact h.modify _ (fun _ => rfl) fun _ => rfl
    | unlockState requested offset length =>
      refine commit_keeps P h fun a s' hok => ?_
      obtain ⟨lock, -, -, rfl⟩ := unlockState_ok hok
      exact h.modify _ (fun a => (unlockRanges_owner offset length a).1)
        fun a => (unlockRanges_owner offset length a).2
    | _ => cases hq

/-! ## What LOCKU leaves -/

section

variable {H α : Type} [DecidableEq H] {backend : Backend H} {boot : Boot}
  {threads : List (Request H α)} {tr : Trace H} {c : Machine H α}

theorem System.Run.oneLockState
    (hrun : (Server.system backend).Run ⟨Server.new H boot, threads⟩ tr c)
    (halone : ∀ e ∈ tr, e.before.lockAlone e.call = true) :
    OneLockState c.state.state.inner.lockFiles := by
  refine hrun.inner_invariant (I := fun inner => OneLockState inner.lockFiles) ?_ ?_ ?_
  · intro k l a b ha
    cases ha
  · exact fun s s' hdrift h => h.of_sub fun k v hv => (hdrift.lockFiles k).trans hv
  · intro e he q hq h
    have hq' := halone e he
    rw [hq] at hq'
    exact e.before.state.runSection_oneLockState q h hq'

theorem Server.exec_unlocks {s s' : Server H} {c : Call H} {r : c.Ret}
    {k : StateidOther} {offset length : U64}
    (hexec : (Server.system backend).exec s c r s') (hunlocks : c.unlocks r = some (k, offset, length))
    (halone : s.lockAlone c = true)
    (hvalid : ∀ lock, s.state.inner.lockFiles.get k = some lock → ∀ range ∈ lock.ranges, range.Valid) :
    ∃ lock, s.state.inner.lockFiles.get k = some lock ∧
      ∀ l a, s'.state.inner.lockFiles.get l = some a →
        (l = k ∧ ∀ range ∈ a.ranges, ∀ b, range.Covers b →
          ¬(offset.toNat ≤ b ∧ b < lockEnd offset length)) ∨
        (l ≠ k ∧ s.state.inner.lockFiles.get l = some a) := by
  cases c with
  | guarded q =>
    cases q with
    | unlockState requested offset' length' =>
      obtain ⟨hr, hs'⟩ := Server.exec_guarded hexec
      have hs'' : (r, s'.state) =
          s.state.commit (s.state.unlockState requested offset' length') := by
        rw [hr, hs']
        rfl
      cases hok : s.state.unlockState requested offset' length' with
      | error status =>
        rw [hok] at hs''
        rw [(Prod.mk.inj hs'').1] at hunlocks
        cases hunlocks
      | ok p =>
        obtain ⟨stateid, t⟩ := p
        rw [hok] at hs''
        obtain ⟨rfl, hs'⟩ := Prod.mk.inj hs''
        cases hunlocks
        obtain ⟨lock, hget, hbounds, rfl⟩ := StateManager.unlockState_ok hok
        refine ⟨lock, hget, fun l a ha => ?_⟩
        rw [hs'] at ha
        rcases Table.of_get_modify ha with ⟨rfl, old, hold, rfl⟩ | ⟨hl, ha⟩
        · cases hget.symm.trans hold
          refine Or.inl ⟨rfl, fun piece hpiece b hb => ?_⟩
          rw [StateManager.unlockRanges_ranges] at hpiece
          obtain ⟨range, hrange, hp⟩ := List.mem_flatMap.mp hpiece
          refine cutRange_outside (hvalid lock hget range hrange) hbounds ?_ hp hb
          have halone' := of_decide_eq_true halone
          rw [hget] at halone'
          refine halone'.imp id fun hall => ?_
          exact of_decide_eq_true (List.all_eq_true.mp hall range hrange)
        · exact Or.inr ⟨hl, ha⟩
    | _ => cases hunlocks
  | _ => cases hunlocks

/-- **One lock state per owner and file.** Let any requests run against a server, with their steps
interleaved in any order, and let every lock state be created for an owner that has none on the
object, and no LOCKU name the last byte alone of ranges that start at zero. Then no owner ever has
two active lock states on an object, and after a successful LOCKU the owner of the lock state
holds no byte of its range on the object. -/
theorem one_lock_state
    (hrun : (Server.system backend).Run ⟨Server.new H boot, threads⟩ tr c)
    (halone : ∀ e ∈ tr, e.before.lockAlone e.call = true) :
    (∀ k l a b, c.state.state.inner.lockFiles.get k = some a →
      c.state.state.inner.lockFiles.get l = some b → a.active = true → b.active = true →
      a.owner = b.owner → a.object = b.object → k = l) ∧
    ∀ e ∈ tr, ∀ k offset length, e.call.unlocks e.answer = some (k, offset, length) →
      ∃ lock, e.before.state.inner.lockFiles.get k = some lock ∧
        ∀ l a, e.after.state.inner.lockFiles.get l = some a → a.owner = lock.owner →
          a.object = lock.object → ∀ range ∈ a.ranges, ∀ b, range.Covers b →
            ¬(offset.toNat ≤ b ∧ b < lockEnd offset length) := by
  constructor
  · exact fun k l a b ha hb _ _ => hrun.oneLockState halone k l a b ha hb
  · intro e he k offset length hunlocks
    obtain ⟨tr₁, tr₂, rfl⟩ := List.append_of_mem he
    obtain ⟨ts, next, hbefore, -, hexec, -⟩ := hrun.at_event
    have hone := hbefore.oneLockState fun e' he' => halone e' (List.mem_append_left _ he')
    obtain ⟨lock, hget, hafter⟩ := Server.exec_unlocks hexec hunlocks (halone e he)
      fun lock hlock => (hbefore.follows k lock hlock).valid
    refine ⟨lock, hget, fun l a ha hown hobj range hrange b hb => ?_⟩
    rcases hafter l a ha with ⟨-, hout⟩ | ⟨hl, hold⟩
    · exact hout range hrange b hb
    · exact absurd (hone l k a lock hold hget hown hobj) hl

end

open Scripted

/-- A LOCKU of the middle of a locked range, by an owner with one lock state. -/
theorem one_lock_state_single :
    let run := run [lockBy 1 (.mint 1 1) .writeLt 0 10,
        opBy (some 1) (.locku ⟨⟨1, .mint 3 1⟩, 4, 2⟩)]
      (List.replicate 9 5 ++ List.replicate 7 6)
    ∃ e ∈ run.1, e.call.unlocks e.answer = some (.mint 3 1, 4, 2) ∧
      ∃ lock, e.before.state.inner.lockFiles.get (.mint 3 1) = some lock ∧
        ∀ l a, e.after.state.inner.lockFiles.get l = some a → a.owner = lock.owner →
          a.object = lock.object → ∀ range ∈ a.ranges, ∀ b, range.Covers b →
            ¬((4 : U64).toNat ≤ b ∧ b < lockEnd 4 2) := by
  intro run
  have halone : ∀ e ∈ run.1, e.before.lockAlone e.call = true :=
    List.all_eq_true.mp (by decide +kernel)
  have hany : (run.1.any fun e => e.call.unlocks e.answer = some (.mint 3 1, 4, 2)) = true := by
    decide +kernel
  obtain ⟨e, he, hunlocks⟩ := List.any_eq_true.mp hany
  have hunlocks := of_decide_eq_true hunlocks
  exact ⟨e, he, hunlocks, (one_lock_state (run_run _ _) halone).2 e he _ _ _ hunlocks⟩

/-- One owner that sends LOCK in the form for new owners twice: it has two active lock states on
the file, and when it gives up the first range, it still holds byte 5 of it. -/
theorem one_lock_state_twice :
    ∃ tr c, (Server.system Backend.single).Run
        ⟨Server.new Unit .fixed, setUp ++
          [lockBy 1 (.mint 1 1) .writeLt 0 10, lockBy 1 (.mint 1 1) .writeLt 0 10,
            opBy (some 1) (.locku ⟨⟨1, .mint 3 1⟩, 0, 10⟩)]⟩ tr c ∧
      ∃ e ∈ tr, e.call.unlocks e.answer = some (.mint 3 1, 0, 10) ∧
        e.before.state.inner.lockFiles.get (.mint 3 1) =
          some ⟨.fs 1, ⟨1, [1]⟩, .mint 1 1, [⟨.writeLt, 0, 10⟩], true, 1⟩ ∧
        e.before.state.inner.lockFiles.get (.mint 4 1) =
          some ⟨.fs 1, ⟨1, [1]⟩, .mint 1 1, [⟨.writeLt, 0, 10⟩], true, 1⟩ ∧
        e.after.state.inner.lockFiles.get (.mint 4 1) =
          some ⟨.fs 1, ⟨1, [1]⟩, .mint 1 1, [⟨.writeLt, 0, 10⟩], true, 1⟩ ∧
        (LockRange.mk .writeLt 0 10).Covers 5 := by
  refine ⟨_, _, run_run _ (List.replicate 9 5 ++ List.replicate 9 6 ++ List.replicate 7 7), ?_⟩
  have hcovers : (LockRange.mk .writeLt 0 10).Covers 5 := by
    unfold LockRange.Covers
    decide
  simp only [hcovers, and_true]
  decide +kernel

end EmbedNfs

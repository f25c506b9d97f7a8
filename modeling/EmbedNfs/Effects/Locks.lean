import EmbedNfs.Effects.Shrinking

/-!
# What a step does to the locks

Three sections write lock states: `createLockState` adds one, `updateLockState` and
`unlockState` rewrite the ranges of one. Every other section only takes lock states away.
-/

namespace EmbedNfs

open StateManager in
theorem StateManager.runSection_locks_sub (s : StateManager) (c : Section)
    (h : c.locks = false) : (s.runSection c).2.inner.lockFiles.Sub s.inner.lockFiles := by
  cases hopens : c.ofOpens with
  | true =>
    obtain ⟨_, _, -, hs⟩ := s.runSection_onlyOpens c hopens
    rw [hs]
    exact .refl _
  | false =>
  cases hdelegations : c.ofDelegations with
  | true =>
    obtain ⟨_, _, ⟨_, _, _, rfl⟩, -, hs⟩ := s.runSection_onlyDelegations c hdelegations
    rw [hs]
    exact .refl _
  | false =>
  cases c with
  | revokeRecallableDelegation stateid =>
    let R := fun a b : StateManager => a.inner.lockFiles.Sub b.inner.lockFiles
    refine commitUnit_snd (R := R) (.refl _) fun s' hok => ?_
    obtain ⟨state, -, rfl⟩ := revokeRecallableDelegation_ok hok
    exact .refl _
  | _ =>
    first
      | (cases h; done)
      | (cases hopens; done)
      | (cases hdelegations; done)
      | exact (s.runSection_shrunk _ rfl).lockFiles

end EmbedNfs

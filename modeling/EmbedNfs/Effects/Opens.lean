import EmbedNfs.Effects.Shrinking

/-!
# What a step does to the opens

Apart from `createOpenState`, no step adds an open or gives one more than it had: an open is
removed, its shares are narrowed, it becomes inactive, or its sequence number moves.
-/

namespace EmbedNfs

/-- The open `a` is what is left of `b`: same key fields, and no share `b` did not have. -/
structure OpenFileState.Narrowed (a b : OpenFileState) : Prop where
  object : a.object = b.object
  clientid : a.clientid = b.clientid
  owner : a.owner = b.owner
  active : a.active = true → b.active = true
  shareAccess : a.shareAccess &&& ~~~b.shareAccess = 0
  shareDeny : a.shareDeny &&& ~~~b.shareDeny = 0

theorem OpenFileState.Narrowed.of_shares {a b : OpenFileState} (hobject : a.object = b.object)
    (hclientid : a.clientid = b.clientid) (howner : a.owner = b.owner)
    (hactive : a.active = true → b.active = true) (haccess : a.shareAccess = b.shareAccess)
    (hdeny : a.shareDeny = b.shareDeny) : a.Narrowed b :=
  ⟨hobject, hclientid, howner, hactive, by rw [haccess, BitVec.and_not_self],
    by rw [hdeny, BitVec.and_not_self]⟩

/-- Every open of the first table is what is left of an open of the second. -/
def OpensNarrowed (t u : Table StateidOther OpenFileState) : Prop :=
  ∀ k a, t.get k = some a → ∃ b, u.get k = some b ∧ a.Narrowed b

theorem OpensNarrowed.of_sub {t u : Table StateidOther OpenFileState} (h : t.Sub u) :
    OpensNarrowed t u :=
  fun k a ha => ⟨a, h k a ha, .of_shares rfl rfl rfl id rfl rfl⟩

theorem OpensNarrowed.of_modify {t : Table StateidOther OpenFileState} {other : StateidOther}
    {f : OpenFileState → OpenFileState} (hf : ∀ a, t.get other = some a → (f a).Narrowed a) :
    OpensNarrowed (t.modify other f) t := by
  intro k a ha
  rcases Table.of_get_modify ha with ⟨rfl, b, hb, rfl⟩ | ⟨-, ha⟩
  · exact ⟨b, hb, hf b hb⟩
  · exact OpensNarrowed.of_sub (.refl t) k a ha

/-- The section that can add or widen an open. -/
def Section.opens : Section → Bool
  | .createOpenState _ _ _ _ => true
  | _ => false

open StateManager in
theorem StateManager.runSection_opensNarrowed (s : StateManager) (c : Section)
    (h : c.opens = false) :
    OpensNarrowed (s.runSection c).2.inner.openFiles s.inner.openFiles := by
  have hrefl : OpensNarrowed s.inner.openFiles s.inner.openFiles := .of_sub (.refl _)
  cases hc : c.rewrites with
  | false => exact .of_sub (s.runSection_shrunk c hc).openFiles
  | true =>
  cases hlocks : c.locks with
  | true =>
    obtain ⟨_, _, -, hs⟩ := s.runSection_onlyLocks c hlocks
    rw [hs]
    exact hrefl
  | false =>
  cases hdelegations : c.ofDelegations with
  | true =>
    obtain ⟨_, _, ⟨_, _, _, rfl⟩, -, hs⟩ := s.runSection_onlyDelegations c hdelegations
    rw [hs]
    exact hrefl
  | false =>
    let R := fun a b : StateManager => OpensNarrowed a.inner.openFiles b.inner.openFiles
    cases c with
    | createOpenState object owner access deny => cases h
    | confirmOpenState stateid =>
      refine commit_snd (R := R) hrefl fun a s' hok => ?_
      rw [confirmOpenState_ok hok]
      exact .of_modify fun a _ => .of_shares rfl rfl rfl id rfl rfl
    | closeState stateid =>
      refine commit_snd (R := R) hrefl fun a s' hok => ?_
      rw [(closeState_ok hok).2]
      exact .of_modify fun a _ => .of_shares rfl rfl rfl nofun rfl rfl
    | openDowngrade stateid access deny =>
      refine commit_snd (R := R) hrefl fun a s' hok => ?_
      obtain ⟨state, mode, hget, haccess, hdeny, rfl⟩ := openDowngrade_ok hok
      refine .of_modify fun b hb => ?_
      cases hget.symm.trans hb
      exact ⟨rfl, rfl, rfl, id, haccess, hdeny⟩
    | revokeRecallableDelegation stateid =>
      refine commitUnit_snd (R := R) hrefl fun s' hok => ?_
      obtain ⟨state, -, rfl⟩ := revokeRecallableDelegation_ok hok
      exact hrefl
    | _ =>
      first
        | (cases hc; done)
        | (cases hlocks; done)
        | cases hdelegations

end EmbedNfs

import EmbedNfs.Effects.Locks
import EmbedNfs.Effects.Opens

/-!
# Where entries come from

An open, a lock state or a delegation keeps its object and its client for as long as it is in
its table. So an entry found after a section was there before, under the same stateid and
with the same object and client, or the section has just created it: under the next number,
minted for the client, and for an object that is not retired.
-/

namespace EmbedNfs

/-- The object and the client an entry is for. -/
structure Identity where
  object : ServerObject
  clientid : Clientid4
  deriving DecidableEq, Repr

def OpenFileState.identity (state : OpenFileState) : Identity := ⟨state.object, state.clientid⟩

def LockFileState.identity (state : LockFileState) : Identity :=
  ⟨state.object, state.owner.clientid⟩

def DelegationState.identity (state : DelegationState) : Identity :=
  ⟨state.object, state.clientid⟩

/-- Every entry of `t'` was in `t` with the same identity, or is one that may be created in
state `s`. -/
def Descends {V : Type} (identity : V → Identity) (s : StateManager)
    (t' t : Table StateidOther V) : Prop :=
  ∀ k a, t'.get k = some a →
    (∃ b, t.get k = some b ∧ identity a = identity b) ∨
      (s.isRetired (identity a).object = false ∧ k = .mint s.nextStateid (identity a).clientid)

namespace Descends

variable {V : Type} {identity : V → Identity} {s : StateManager} {t t' : Table StateidOther V}

theorem of_sub (h : t'.Sub t) : Descends identity s t' t :=
  fun k a ha => Or.inl ⟨a, h k a ha, rfl⟩

theorem refl : Descends identity s t t := of_sub (.refl t)

theorem of_modify {k : StateidOther} {f : V → V} (hf : ∀ a, identity (f a) = identity a) :
    Descends identity s (t.modify k f) t := by
  intro k' a ha
  rcases Table.of_get_modify ha with ⟨rfl, b, hb, rfl⟩ | ⟨-, ha⟩
  · exact Or.inl ⟨b, hb, hf b⟩
  · exact Or.inl ⟨a, ha, rfl⟩

theorem of_insert {key : StateidOther} {new : V}
    (hretired : s.isRetired (identity new).object = false)
    (hkey : key = .mint s.nextStateid (identity new).clientid) :
    Descends identity s (t.insert key new) t := by
  intro k a ha
  rw [Table.get_insert] at ha
  split at ha
  · rename_i hk
    cases ha
    exact Or.inr ⟨hretired, hk.trans hkey⟩
  · exact Or.inl ⟨a, ha, rfl⟩

end Descends

/-- `Descends` for the three tables. -/
structure StateManager.Descends (s' s : StateManager) : Prop where
  openFiles : EmbedNfs.Descends OpenFileState.identity s s'.inner.openFiles s.inner.openFiles
  lockFiles : EmbedNfs.Descends LockFileState.identity s s'.inner.lockFiles s.inner.lockFiles
  delegations :
    EmbedNfs.Descends DelegationState.identity s s'.inner.delegations s.inner.delegations

namespace StateManager

theorem Descends.of_shrunk {s s' : StateManager} (h : s'.Shrunk s) : s'.Descends s :=
  ⟨.of_sub h.openFiles, .of_sub h.lockFiles, .of_sub h.delegations⟩

theorem Descends.refl (s : StateManager) : s.Descends s := .of_shrunk (.refl s)

theorem beginDirectoryRecallExcluding_descends (s : StateManager) (object : ServerObject)
    (excluded : Option Clientid4) :
    (s.beginDirectoryRecallExcluding object excluded).2.Descends s := by
  refine ⟨.refl, .refl, ?_⟩
  intro k a ha
  have hget := get_beginRecalls s.clock excluded (indexed s.inner.dirDelegations object)
    s.inner.delegations k
  rw [show (beginRecalls s.clock excluded (indexed s.inner.dirDelegations object)
    s.inner.delegations).2.get k = some a from ha] at hget
  have hmark : ∀ b, (markRecall s.clock excluded b).identity = b.identity := by
    intro b
    unfold markRecall
    split <;> rfl
  split at hget
  · obtain ⟨b, hb, rfl⟩ := Option.map_eq_some_iff.mp hget.symm
    exact Or.inl ⟨b, hb, hmark b⟩
  · exact Or.inl ⟨a, hget.symm, rfl⟩

/-- **Entries keep their identity.** After any section, every open, lock state and delegation
was there before for the same object and client, or is new. -/
theorem runSection_descends (s : StateManager) (c : Section) :
    (s.runSection c).2.Descends s := by
  cases hc : c.rewrites with
  | false => exact .of_shrunk (s.runSection_shrunk c hc)
  | true =>
    have hrefl := Descends.refl s
    cases c with
    | createOpenState object owner access deny =>
      refine commit_snd (R := Descends) hrefl fun a s' hok => ?_
      obtain ⟨hretired, ⟨other, state, -, -, -, rfl⟩ | ⟨-, -, -, rfl⟩⟩ := createOpenState_ok hok
      · exact ⟨.of_modify fun _ => rfl, .refl, .refl⟩
      · exact ⟨.of_insert hretired rfl, .refl, .refl⟩
    | confirmOpenState stateid =>
      refine commit_snd (R := Descends) hrefl fun a s' hok => ?_
      rw [confirmOpenState_ok hok]
      exact ⟨.of_modify fun _ => rfl, .refl, .refl⟩
    | closeState stateid =>
      refine commit_snd (R := Descends) hrefl fun a s' hok => ?_
      rw [(closeState_ok hok).2]
      exact ⟨.of_modify fun _ => rfl, .refl, .refl⟩
    | openDowngrade stateid access deny =>
      refine commit_snd (R := Descends) hrefl fun a s' hok => ?_
      obtain ⟨state, mode, -, -, -, rfl⟩ := openDowngrade_ok hok
      exact ⟨.of_modify fun _ => rfl, .refl, .refl⟩
    | createLockState openStateid owner object locktype offset length =>
      refine commit_snd (R := Descends) hrefl fun a s' hok => ?_
      obtain ⟨-, hretired, -, -, rfl⟩ := createLockState_ok hok
      exact ⟨.refl, .of_insert hretired rfl, .refl⟩
    | updateLockState stateid locktype offset length =>
      refine commit_snd (R := Descends) hrefl fun a s' hok => ?_
      obtain ⟨state, -, -, -, rfl⟩ := updateLockState_ok hok
      exact ⟨.refl, .of_modify fun _ => rfl, .refl⟩
    | unlockState stateid offset length =>
      refine commit_snd (R := Descends) hrefl fun a s' hok => ?_
      obtain ⟨state, -, -, rfl⟩ := unlockState_ok hok
      refine ⟨.refl, .of_modify fun lock => ?_, .refl⟩
      unfold unlockRanges
      split <;> rfl
    | grantDirectoryDelegation object clientid sessionid maxPerClient maxTotal =>
      refine commit_snd (R := Descends) hrefl fun a s' hok => ?_
      rcases grantDirectoryDelegation_ok hok with rfl | ⟨hretired, -, -, rfl⟩
      · exact hrefl
      · exact ⟨.refl, .refl, .of_insert hretired rfl⟩
    | beginDirectoryRecallExcluding object excluded =>
      exact s.beginDirectoryRecallExcluding_descends object excluded
    | revokeRecallableDelegation stateid =>
      refine commitUnit_snd (R := Descends) hrefl fun s' hok => ?_
      obtain ⟨state, -, rfl⟩ := revokeRecallableDelegation_ok hok
      exact ⟨.refl, .refl, .of_modify fun _ => rfl⟩
    | _ => cases hc

end StateManager

end EmbedNfs

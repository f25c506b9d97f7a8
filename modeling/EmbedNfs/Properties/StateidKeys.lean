import EmbedNfs.Effects.Calls
import EmbedNfs.Effects.Entries

/-!
# Stateids name their client

A stateid is minted with the client id of its owner in its last eight bytes, and no entry
changes its client. So the stateid of an open, a lock state or a delegation tells which
client it belongs to, in every reachable state, whatever numbers are reused.
-/

namespace EmbedNfs

/-- Every entry belongs to the client that its stateid names. -/
structure StateInner.KeysEmbed (inner : StateInner) : Prop where
  openFiles : ∀ k a, inner.openFiles.get k = some a → a.clientid = k.clientid
  lockFiles : ∀ k a, inner.lockFiles.get k = some a → a.owner.clientid = k.clientid
  delegations : ∀ k a, inner.delegations.get k = some a → a.clientid = k.clientid

theorem clientid_eq_of_descends {V : Type} {identity : V → Identity} {s : StateManager}
    {t t' : Table StateidOther V} (h : Descends identity s t' t)
    (ht : ∀ k a, t.get k = some a → (identity a).clientid = k.clientid) {k : StateidOther} {a : V}
    (ha : t'.get k = some a) : (identity a).clientid = k.clientid := by
  rcases h k a ha with ⟨b, hb, heq⟩ | ⟨-, rfl⟩
  · rw [heq]
    exact ht k b hb
  · rw [StateidOther.clientid_mint]

theorem StateManager.runSection_keysEmbed (s : StateManager) (c : Section)
    (h : s.inner.KeysEmbed) : (s.runSection c).2.inner.KeysEmbed := by
  have hd := s.runSection_descends c
  exact
    { openFiles := fun k a => clientid_eq_of_descends hd.openFiles h.openFiles
      lockFiles := fun k a => clientid_eq_of_descends hd.lockFiles h.lockFiles
      delegations := fun k a => clientid_eq_of_descends hd.delegations h.delegations }

theorem StateManager.Drift.keysEmbed {s s' : StateManager} (hd : s.Drift s')
    (h : s.inner.KeysEmbed) : s'.inner.KeysEmbed where
  openFiles k a ha := h.openFiles k a ((hd.openFiles k).trans ha)
  lockFiles k a ha := h.lockFiles k a ((hd.lockFiles k).trans ha)
  delegations k a ha := h.delegations k a ((hd.delegations k).trans ha)

theorem StateInner.keysEmbed_new (boot : Boot) : (StateManager.new boot).inner.KeysEmbed where
  openFiles k a ha := by cases ha
  lockFiles k a ha := by cases ha
  delegations k a ha := by cases ha

section

variable {H α : Type} [DecidableEq H] {backend : Backend H}
  {c c' : Machine H α}
  {tr : Trace H}

theorem Server.exec_keysEmbed {s s' : Server H} {q : Call H} {r : q.Ret}
    (hexec : (Server.system backend).exec s q r s') (h : s.state.inner.KeysEmbed) :
    s'.state.inner.KeysEmbed := by
  rcases Server.exec_inner hexec with ⟨q', -, hs⟩ | hs
  · rw [hs]
    exact s.state.runSection_keysEmbed q' h
  · rw [hs]
    exact h

theorem System.Run.keysEmbed (hrun : (Server.system backend).Run c tr c')
    (h : c.state.state.inner.KeysEmbed) : c'.state.state.inner.KeysEmbed :=
  hrun.invariant (I := fun s => s.state.inner.KeysEmbed) h
    (fun _ _ h hdrift => hdrift.state.keysEmbed h) fun _ _ hexec h => Server.exec_keysEmbed hexec h

theorem System.Run.keysEmbed_event (hrun : (Server.system backend).Run c tr c')
    (h : c.state.state.inner.KeysEmbed) {e : ServerEvent H} (he : e ∈ tr) :
    e.before.state.inner.KeysEmbed :=
  (hrun.invariant_event (I := fun s => s.state.inner.KeysEmbed) h
    (fun _ _ h hdrift => hdrift.state.keysEmbed h)
    (fun _ _ hexec h => Server.exec_keysEmbed hexec h) he).1

end

end EmbedNfs

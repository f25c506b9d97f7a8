import EmbedNfs.Effects.Maps
import EmbedNfs.Server.Calls

/-!
# From sections to runs

Which part of the server a call can touch. A section touches the guarded tables and not the
maps, a map operation the maps and not the tables, and every other call neither, except that
registration records persistent filehandles. `Run.inner_invariant` turns facts about sections
into facts about runs of the server.
-/

namespace EmbedNfs

theorem StateManager.runMapOp_only (s : StateManager) (c : MapOp) :
    ∃ objectToFh fhToObject persistentFh retiredObjects nextFh nextConnectionid, (s.runMapOp c).2 =
      { s with objectToFh, fhToObject, persistentFh, retiredObjects, nextFh, nextConnectionid } := by
  cases c with
  | objectToFhEntry object fh =>
    simp only [runMapOp]
    split <;> exact ⟨_, _, _, _, _, _, rfl⟩
  | fhToObjectClaim fh object =>
    simp only [runMapOp]
    split <;> exact ⟨_, _, _, _, _, _, rfl⟩
  | _ => exact ⟨_, _, _, _, _, _, rfl⟩

theorem StateManager.runMapOp_inner (s : StateManager) (c : MapOp) :
    (s.runMapOp c).2.inner = s.inner := by
  obtain ⟨_, _, _, _, _, _, h⟩ := s.runMapOp_only c
  rw [h]

theorem StateManager.runMapOp_clock (s : StateManager) (c : MapOp) :
    (s.runMapOp c).2.clock = s.clock := by
  obtain ⟨_, _, _, _, _, _, h⟩ := s.runMapOp_only c
  rw [h]

section

variable {H : Type} [DecidableEq H] {backend : Backend H}

theorem Server.exec_other {s s' : Server H} {c : Call H} {r : c.Ret}
    (h : (Server.system backend).exec s c r s') (hsection : ∀ q, c ≠ .guarded q)
    (hmapOp : ∀ q, c ≠ .mapOp q) :
    ∃ persistentFh, s'.state = { s.state with persistentFh } := by
  have hsame : s' = s → ∃ persistentFh, s'.state = { s.state with persistentFh } :=
    fun hs => ⟨s.state.persistentFh, by rw [hs]⟩
  cases c with
  | guarded q => exact absurd rfl (hsection q)
  | mapOp q => exact absurd rfl (hmapOp q)
  | register handle =>
    rw [show s' = (Server.register backend s handle).2 from congrArg Prod.snd h]
    unfold Server.register
    split
    · exact ⟨_, rfl⟩
    · split
      · exact ⟨_, rfl⟩
      · dsimp only
        split
        · exact ⟨_, rfl⟩
        · exact ⟨_, rfl⟩
  | retireMatching fence =>
    rw [show s' = (s.retireMatching fence).2 from congrArg Prod.snd h]
    exact ⟨_, rfl⟩
  | registered handle => exact hsame h.2
  | backendHandle id => exact hsame h.2
  | now => exact hsame h.2
  | hasConnection id => exact hsame h
  | sendCallback target stateid fh => exact hsame h
  | callbackReply target => exact hsame h
  | backend ctx origin dirs q => exact hsame h

theorem Server.exec_inner {s s' : Server H} {c : Call H} {r : c.Ret}
    (h : (Server.system backend).exec s c r s') :
    (∃ q, c = .guarded q ∧ s'.state = (s.state.runSection q).2) ∨
      s'.state.inner = s.state.inner := by
  cases c with
  | guarded q => exact Or.inl ⟨q, rfl, by rw [h.2]⟩
  | mapOp q => exact Or.inr (by rw [h.2]; exact s.state.runMapOp_inner q)
  | _ =>
    obtain ⟨persistentFh, hs⟩ := Server.exec_other h (by simp) (by simp)
    exact Or.inr (by rw [hs])

theorem Server.exec_guarded {s s' : Server H} {q : Section} {r : q.Ret}
    (h : (Server.system backend).exec s (.guarded q) r s') :
    r = (s.state.runSection q).1 ∧ s'.state = (s.state.runSection q).2 :=
  ⟨h.1, by rw [h.2]⟩

theorem Server.exec_unguarded {s s' : Server H} {c : Call H} {r : c.Ret}
    (h : (Server.system backend).exec s c r s') (hsection : ∀ q, c ≠ .guarded q) :
    s'.state.inner = s.state.inner ∧ s'.state.clock = s.state.clock := by
  cases c with
  | guarded q => exact absurd rfl (hsection q)
  | mapOp q =>
    rw [h.2]
    exact ⟨s.state.runMapOp_inner q, s.state.runMapOp_clock q⟩
  | _ =>
    obtain ⟨persistentFh, hs⟩ := Server.exec_other h (by simp) (by simp)
    rw [hs]
    exact ⟨rfl, rfl⟩

variable {α : Type} {c c' : Machine H α}
  {tr : Trace H}

/-- **Invariants of the guarded tables.** A property that the surroundings keep and that the
sections of the trace keep holds at the end of the run. -/
theorem System.Run.inner_invariant {I : StateInner → Prop}
    (h : (Server.system backend).Run c tr c') (h₀ : I c.state.state.inner)
    (henv : ∀ s s' : StateManager, s.Drift s' → I s.inner → I s'.inner)
    (hstep : ∀ e ∈ tr, ∀ q, e.call = .guarded q → I e.before.state.inner →
      I (e.before.state.runSection q).2.inner) : I c'.state.state.inner := by
  refine h.invariant (I := fun s : Server H => I s.state.inner) h₀
    (fun s s' hI hd => henv _ _ hd.state hI) fun e he hexec hI => ?_
  rcases Server.exec_inner hexec with ⟨q, hq, hs⟩ | hs
  · rw [hs]
    exact hstep e he q hq hI
  · rw [hs]
    exact hI

end

end EmbedNfs

import EmbedNfs.Properties.SessionHistory

/-!
# The numbers of clients

Client ids are given out by a counter, so a client that is in the table has a number below the
counter, and a new client gets an id that nobody has had for as long as the counter has not
come round.
-/

namespace EmbedNfs

/-- The id is one of the first `n` that are given out. -/
def GivenOut (n : Nat) (k : Clientid4) : Prop := ∃ j < n, k = BitVec.ofNat 64 (1 + j)

theorem GivenOut.mono {n m : Nat} {k : Clientid4} (h : GivenOut n k) (hle : n ≤ m) :
    GivenOut m k := by
  obtain ⟨j, hj, hk⟩ := h
  exact ⟨j, by omega, hk⟩

namespace StateManager

variable {s s' : StateManager} {n : Nat}

/-- The client ids given out so far are the first `n`, and only they are in use. -/
structure Numbered (s : StateManager) (n : Nat) : Prop where
  next : s.nextClientid = BitVec.ofNat 64 (1 + n)
  clients : ∀ k client, s.inner.clients.get k = some client → GivenOut n k

namespace Numbered

theorem new (boot : Boot) : (StateManager.new boot).Numbered 0 :=
  ⟨rfl, nofun⟩

theorem ne_next (h : s.Numbered n) (hn : n < 2 ^ 64) {k : Clientid4} (hk : GivenOut n k) :
    s.nextClientid ≠ k := by
  rintro rfl
  obtain ⟨j, hj, hid⟩ := hk
  have := ofNat_add_injective (by omega) (by omega) (h.next.symm.trans hid)
  omega

theorem fresh (h : s.Numbered n) (hn : n < 2 ^ 64) :
    s.inner.clients.get s.nextClientid = none := by
  cases hget : s.inner.clients.get s.nextClientid with
  | none => rfl
  | some client => exact absurd rfl (h.ne_next hn (h.clients _ client hget))

theorem of_sub (h : s.Numbered n) (hnext : s'.nextClientid = s.nextClientid)
    (hclients : ∀ k client, s'.inner.clients.get k = some client →
      ∃ old, s.inner.clients.get k = some old) : s'.Numbered n := by
  refine ⟨hnext.trans h.next, fun k client hk => ?_⟩
  obtain ⟨old, hold⟩ := hclients k client hk
  exact h.clients k old hold

theorem drift (h : s.Numbered n) (hd : s.Drift s') : s'.Numbered n :=
  h.of_sub hd.nextClientid fun k client hk => ⟨client, (hd.clients k).trans hk⟩

theorem enrol (h : s.Numbered n) (hs : s'.Enrols s) : s'.Numbered (n + 1) := by
  refine ⟨?_, fun k client hk => ?_⟩
  · rw [hs.nextClientid, h.next, ofNat_succ]
    rfl
  · rcases hs.clients k client hk with ⟨hkey, -⟩ | ⟨old, hold, -⟩
    · exact ⟨n, by omega, hkey.trans h.next⟩
    · exact (h.clients k old hold).mono (by omega)

end Numbered

end StateManager

section

variable {H : Type} [DecidableEq H] {backend : Backend H} {n : Nat}

theorem StateManager.Numbered.step {e : ServerEvent H}
    (h : e.before.state.Numbered n)
    (hexec : (Server.system backend).exec e.before e.call e.answer e.after) :
    ∃ m, n ≤ m ∧ m ≤ n + enrolments [e] ∧ e.after.state.Numbered m := by
  cases Server.exec_sessionStep hexec with
  | fades hs =>
    refine ⟨n, by omega, by omega, h.of_sub hs.nextClientid fun k client hk => ?_⟩
    obtain ⟨old, hold, -⟩ := hs.inner.clients k client hk
    exact ⟨old, hold⟩
  | enrols hs henrols =>
    have hcount : enrolments [e] = 1 := by simp [enrolments, henrols]
    exact ⟨n + 1, by omega, by omega, h.enrol hs⟩
  | issues clientid sessionid hs =>
    refine ⟨n, by omega, by omega, h.of_sub hs.nextClientid fun k client hk => ?_⟩
    obtain ⟨old, hold, -⟩ := hs.clients k client hk
    exact ⟨old, hold⟩
  | executes args fingerprint _ _ _ hs =>
    refine ⟨n, by omega, by omega, h.of_sub hs.nextClientid fun k client hk => ?_⟩
    obtain ⟨old, hold, -⟩ := hs.clients k client hk
    exact ⟨old, hold⟩
  | stores token response hs =>
    refine ⟨n, by omega, by omega, h.of_sub hs.nextClientid fun k client hk => ?_⟩
    obtain ⟨old, hold, -⟩ := hs.clients k client hk
    exact ⟨old, hold⟩

/-- **Numbers of clients.** A run gives out no more numbers than it has enrolments. -/
theorem System.Run.numbered {α : Type} {c c' : Machine H α}
    {tr : Trace H} (hrun : (Server.system backend).Run c tr c') (h : c.state.state.Numbered n) :
    ∃ m, n ≤ m ∧ m ≤ n + enrolments tr ∧ c'.state.state.Numbered m := by
  refine hrun.invariant_trace (I := fun tr s => ∃ m, n ≤ m ∧ m ≤ n + enrolments tr ∧
    s.state.Numbered m) ⟨n, Nat.le_refl n, Nat.le_add_right n _, h⟩ ?_ ?_
  · rintro tr s s' ⟨m, hn, hm, hnumbered⟩ hd
    exact ⟨m, hn, hm, hnumbered.drift hd.state⟩
  · rintro tr e hexec ⟨m, hn, hm, hnumbered⟩
    obtain ⟨m', hn', hm', hnumbered'⟩ := hnumbered.step hexec
    refine ⟨m', by omega, ?_, hnumbered'⟩
    rw [enrolments_append]
    omega

end

end EmbedNfs

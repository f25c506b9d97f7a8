import Mathlib.Data.BitVec
import Mathlib.Data.List.Nodup
import Mathlib.Data.List.Range

/-!
# Wrapping counters

A `w`-bit counter that starts at `b` gives out `counted w b n` in its first `n` steps. The
values are distinct for as long as the counter has not come round, and between two equal
ones there are at least `2 ^ w - 1` others.
-/

namespace EmbedNfs

variable {w b n : Nat}

theorem ofNat_succ : BitVec.ofNat w n + 1 = BitVec.ofNat w (n + 1) := by
  rw [BitVec.ofNat_add]
  rfl

/-- Values of a counter are equal only when it has come round in between. -/
theorem ofNat_add_eq_iff {i j : Nat} :
    BitVec.ofNat w (b + i) = BitVec.ofNat w (b + j) ↔ i % 2 ^ w = j % 2 ^ w := by
  rw [← BitVec.toNat_inj, BitVec.toNat_ofNat, BitVec.toNat_ofNat]
  exact ⟨Nat.ModEq.add_left_cancel' b, Nat.ModEq.add_left b⟩

theorem ofNat_add_injective {i j : Nat} (hi : i < 2 ^ w) (hj : j < 2 ^ w)
    (h : BitVec.ofNat w (b + i) = BitVec.ofNat w (b + j)) : i = j := by
  have h' := ofNat_add_eq_iff.mp h
  rwa [Nat.mod_eq_of_lt hi, Nat.mod_eq_of_lt hj] at h'

/-- The first `n` values of a `w`-bit counter that starts at `b`. -/
def counted (w b n : Nat) : List (BitVec w) := (List.range n).map fun j => BitVec.ofNat w (b + j)

theorem counted_succ : counted w b (n + 1) = counted w b n ++ [BitVec.ofNat w (b + n)] := by
  simp [counted, List.range_succ]

theorem getElem?_counted {i : Nat} {x : BitVec w} (h : (counted w b n)[i]? = some x) :
    i < n ∧ x = BitVec.ofNat w (b + i) := by
  obtain ⟨hi, hx⟩ := List.getElem?_eq_some_iff.mp h
  have hlt : i < n := by simpa [counted] using hi
  simp only [counted, List.getElem_map, List.getElem_range] at hx
  exact ⟨hlt, hx.symm⟩

/-- **Distance of equal values.** A counter repeats a value only after all the others. -/
theorem counted_gap {l₁ l₂ l₃ : List (BitVec w)} {x : BitVec w}
    (h : counted w b n = l₁ ++ x :: (l₂ ++ x :: l₃)) : 2 ^ w - 1 ≤ l₂.length := by
  have hfirst : (counted w b n)[l₁.length]? = some x := by simp [h]
  have hsecond : (counted w b n)[l₁.length + (l₂.length + 1)]? = some x := by
    rw [h, List.getElem?_append_right (by omega), Nat.add_sub_cancel_left,
      List.getElem?_cons_succ, List.getElem?_append_right (by omega), Nat.sub_self]
    rfl
  have heq := (getElem?_counted hfirst).2.symm.trans (getElem?_counted hsecond).2
  have hmod : l₁.length % 2 ^ w = (l₁.length + (l₂.length + 1)) % 2 ^ w := ofNat_add_eq_iff.mp heq
  have hdvd : 2 ^ w ∣ l₂.length + 1 := by
    have h' := (Nat.modEq_iff_dvd' (Nat.le_add_right _ _)).mp hmod
    rwa [Nat.add_sub_cancel_left] at h'
  have := Nat.le_of_dvd (Nat.succ_pos _) hdvd
  omega

end EmbedNfs

import Mathlib.Logic.Function.Basic
import Mathlib.Data.Nat.ModEq

/-! # Ring buffers

The values of consecutive numbers in `cap` cells, each in the cell of its remainder. -/
namespace RingBuffer

variable {α : Type*} {cap lo hi : ℕ} {val cells : ℕ → α}

/-- The cells hold the values of the numbers from `lo` to `hi`. -/
structure Holds (cap lo hi : ℕ) (val cells : ℕ → α) : Prop where
  room : hi < lo + cap
  cell : ∀ k, lo ≤ k → k ≤ hi → cells (k % cap) = val k

/-- Numbers that are held together lie in different cells. -/
theorem eq_of_cell_eq (room : hi < lo + cap) {j k : ℕ} (hj : lo ≤ j) (hj' : j ≤ hi) (hk : lo ≤ k)
    (hk' : k ≤ hi) (h : j % cap = k % cap) : j = k := by
  rcases Nat.le_total j k with hjk | hjk
  · have hdvd : cap ∣ k - j := (Nat.modEq_iff_dvd' hjk).mp h
    have hzero := Nat.eq_zero_of_dvd_of_lt hdvd (by omega)
    omega
  · have hdvd : cap ∣ j - k := (Nat.modEq_iff_dvd' hjk).mp h.symm
    have hzero := Nat.eq_zero_of_dvd_of_lt hdvd (by omega)
    omega

/-- The value of a number that is held is written to its cell. -/
theorem Holds.write (h : Holds cap lo hi val cells) {k : ℕ} (hlo : lo ≤ k) (hhi : k ≤ hi) (v : α) :
    Holds cap lo hi (Function.update val k v) (Function.update cells (k % cap) v) := by
  refine ⟨h.room, fun i hi₁ hi₂ => ?_⟩
  by_cases hik : i = k
  · subst hik
    simp
  · have hcell : i % cap ≠ k % cap := fun he => hik (eq_of_cell_eq h.room hi₁ hi₂ hlo hhi he)
    rw [Function.update_of_ne hik, Function.update_of_ne hcell]
    exact h.cell i hi₁ hi₂

/-- The next number takes the cell of one that is no longer held. -/
theorem Holds.advance (h : Holds cap lo hi val cells) {lo' : ℕ} (hlo : lo ≤ lo')
    (room : hi + 1 < lo' + cap) (v : α) :
    Holds cap lo' (hi + 1) (Function.update val (hi + 1) v)
      (Function.update cells ((hi + 1) % cap) v) := by
  refine ⟨room, fun i hi₁ hi₂ => ?_⟩
  by_cases hik : i = hi + 1
  · subst hik
    simp
  · have hcell : i % cap ≠ (hi + 1) % cap := fun he =>
      hik (eq_of_cell_eq room hi₁ hi₂ (by omega) (by omega) he)
    rw [Function.update_of_ne hik, Function.update_of_ne hcell]
    exact h.cell i (by omega) (by omega)

theorem Holds.congr {val' : ℕ → α} (h : Holds cap lo hi val cells)
    (hval : ∀ k, lo ≤ k → k ≤ hi → val' k = val k) : Holds cap lo hi val' cells :=
  ⟨h.room, fun k hlo hhi => (h.cell k hlo hhi).trans (hval k hlo hhi).symm⟩

end RingBuffer

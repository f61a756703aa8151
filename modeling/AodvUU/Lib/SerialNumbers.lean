import Mathlib.Data.Nat.ModEq
import Mathlib.Logic.Function.Iterate
import Mathlib.Tactic.Ring

/-! # Serial numbers

Numbers of `w` bits on a circle that leaves zero out, and what comparing them as signed
numbers says about the circle. -/
namespace SerialNumbers

/-- The successor on the circle of the non-zero numbers; zero stays. -/
def next {w : ℕ} (s : BitVec w) : BitVec w :=
  if s = 0 then 0 else if s = BitVec.allOnes w then 1 else s + 1

/-- At most `k` steps lead from `s` to `t`. -/
def Within {w : ℕ} (k : ℕ) (s t : BitVec w) : Prop := ∃ n ≤ k, next^[n] s = t

/-- A number that hears another: the larger of the two as signed numbers, or the successor
when they are equal. -/
def raise {w : ℕ} (own heard : BitVec w) : BitVec w :=
  if own.slt heard then heard else if own = heard then next own else own

section Circle

variable {w : ℕ} {s t : BitVec w}

theorem toNat_pos (hs : s ≠ 0) : 0 < s.toNat := by
  have hne : s.toNat ≠ 0 := by
    intro h0
    exact hs (BitVec.eq_of_toNat_eq (by simpa using h0))
  exact Nat.pos_of_ne_zero hne

theorem toNat_one (h : 1 < 2 ^ w) : (1 : BitVec w).toNat = 1 := by
  simp [Nat.mod_eq_of_lt h]

theorem toNat_next (hs : s ≠ 0) : (next s).toNat = s.toNat % (2 ^ w - 1) + 1 := by
  have hpos := toNat_pos hs
  have hlt := s.isLt
  unfold next
  rw [if_neg hs]
  split
  · next hall =>
    have hnat : s.toNat = 2 ^ w - 1 := by rw [hall, BitVec.toNat_allOnes]
    rw [hnat, Nat.mod_self, toNat_one (by omega)]
  · next hall =>
    have hnat : s.toNat ≠ 2 ^ w - 1 := by
      intro h
      exact hall (BitVec.eq_of_toNat_eq (by rw [h, BitVec.toNat_allOnes]))
    have hsmall : s.toNat < 2 ^ w - 1 := by omega
    rw [Nat.mod_eq_of_lt hsmall, BitVec.toNat_add, toNat_one (by omega),
      Nat.mod_eq_of_lt (by omega)]

theorem next_ne_zero (hs : s ≠ 0) : next s ≠ 0 := by
  intro h
  have hnat := toNat_next hs
  rw [h] at hnat
  simp at hnat

theorem iterate_ne_zero (hs : s ≠ 0) (n : ℕ) : next^[n] s ≠ 0 := by
  induction n with
  | zero => exact hs
  | succ n ih =>
    rw [Function.iterate_succ_apply']
    exact next_ne_zero ih

/-- One lap of the circle is `2 ^ w - 1` steps. -/
theorem toNat_iterate (hs : s ≠ 0) (n : ℕ) :
    (next^[n] s).toNat = (s.toNat - 1 + n) % (2 ^ w - 1) + 1 := by
  induction n with
  | zero =>
    have hpos := toNat_pos hs
    have hlt := s.isLt
    rw [Function.iterate_zero_apply, Nat.add_zero, Nat.mod_eq_of_lt (by omega)]
    omega
  | succ n ih =>
    rw [Function.iterate_succ_apply', toNat_next (iterate_ne_zero hs n), ih, Nat.mod_add_mod,
      Nat.add_assoc]

theorem toNat_iterate_of_lt (hs : s ≠ 0) {n : ℕ} (h : s.toNat + n < 2 ^ w) :
    (next^[n] s).toNat = s.toNat + n := by
  have hpos := toNat_pos hs
  rw [toNat_iterate hs, Nat.mod_eq_of_lt (by omega)]
  omega

theorem toNat_iterate_of_le (hs : s ≠ 0) {n : ℕ} (h : 2 ^ w ≤ s.toNat + n) (hn : n < 2 ^ w - 1) :
    (next^[n] s).toNat = s.toNat + n + 1 - 2 ^ w := by
  have hpos := toNat_pos hs
  have hlt := s.isLt
  have hlap : s.toNat - 1 + n = (s.toNat + n - 2 ^ w) + (2 ^ w - 1) := by omega
  rw [toNat_iterate hs, hlap, Nat.add_mod_right, Nat.mod_eq_of_lt (by omega)]
  omega

theorem eq_zero_of_iterate_eq (hs : s ≠ 0) {n : ℕ} (hn : n < 2 ^ w - 1) (h : next^[n] s = s) :
    n = 0 := by
  have hpos := toNat_pos hs
  have hlt := s.isLt
  by_cases hwrap : s.toNat + n < 2 ^ w
  · have hnat := toNat_iterate_of_lt hs hwrap
    rw [h] at hnat
    omega
  · have hnat := toNat_iterate_of_le hs (by omega) hn
    rw [h] at hnat
    omega

theorem Within.refl (k : ℕ) (s : BitVec w) : Within k s s := ⟨0, Nat.zero_le k, rfl⟩

/-- Two numbers closer than half a lap are ahead of each other only when they are equal. -/
theorem Within.antisymm {k : ℕ} (hk : 2 * k < 2 ^ w - 1) (hs : s ≠ 0) (h : Within k s t)
    (h' : Within k t s) : s = t := by
  obtain ⟨a, ha, rfl⟩ := h
  obtain ⟨b, hb, hback⟩ := h'
  have hround : next^[b + a] s = s := by rw [Function.iterate_add_apply, hback]
  have hzero := eq_zero_of_iterate_eq hs (by omega) hround
  have ha0 : a = 0 := by omega
  rw [ha0, Function.iterate_zero_apply]

end Circle

/-! ## Signed comparison -/

section Signed

variable {v : ℕ} {s t : BitVec (v + 2)}

theorem two_pow_add_two (v : ℕ) : 2 ^ (v + 2) = 4 * 2 ^ v ∧ 2 ^ (v + 1) = 2 * 2 ^ v :=
  ⟨by ring, by ring⟩

theorem slt_iff :
    s.slt t = true ↔ (if s.toNat < 2 ^ (v + 1) then (s.toNat : ℤ) else s.toNat - 2 ^ (v + 2)) <
      if t.toNat < 2 ^ (v + 1) then (t.toNat : ℤ) else t.toNat - 2 ^ (v + 2) := by
  have hcond : ∀ x : BitVec (v + 2), x.toInt =
      if x.toNat < 2 ^ (v + 1) then (x.toNat : ℤ) else x.toNat - 2 ^ (v + 2) := by
    intro x
    have hhalf : 2 * x.toNat < 2 ^ (v + 2) ↔ x.toNat < 2 ^ (v + 1) := by
      have := two_pow_add_two v
      omega
    simp only [BitVec.toInt_eq_toNat_cond, hhalf]
    norm_cast
  rw [BitVec.slt_iff_toInt_lt, hcond, hcond]

/-- A signed comparison sees a walk of up to a quarter of the numbers, unless the walk leads
from the positive numbers to the negative ones. -/
theorem slt_iterate_iff (hs : s ≠ 0) {n : ℕ} (h1 : 1 ≤ n) (hn : n ≤ 2 ^ v) :
    s.slt (next^[n] s) = true ↔ 2 ^ (v + 1) ≤ s.toNat ∨ s.toNat + n < 2 ^ (v + 1) := by
  have hpow := two_pow_add_two v
  have hlt := s.isLt
  have hcast : (2 : ℤ) ^ (v + 2) = ((2 ^ (v + 2) : ℕ) : ℤ) := by norm_cast
  rw [slt_iff, hcast]
  by_cases hwrap : s.toNat + n < 2 ^ (v + 2)
  · rw [toNat_iterate_of_lt hs hwrap]
    split <;> split <;> omega
  · rw [toNat_iterate_of_le hs (by omega) (by omega)]
    split <;> split <;> omega

theorem raise_self (s : BitVec (v + 2)) : raise s s = next s := by
  have hself : ¬ s.slt s = true := by
    rw [BitVec.slt_iff_toInt_lt]
    exact lt_irrefl _
  rw [raise, if_neg hself, if_pos rfl]

theorem raise_of_slt (h : s.slt t = true) : raise s t = t := by
  rw [raise, if_pos h]

theorem raise_of_not_slt (hne : s ≠ t) (h : ¬ s.slt t = true) : raise s t = s := by
  rw [raise, if_neg h, if_neg hne]

/-- A walk that goes backwards for the signed comparison has passed the top. -/
theorem behind_of_slt (ht : t ≠ 0) (hne : s ≠ t) (hback : Within (2 ^ v) t s)
    (h : s.slt t = true) : t.toNat < 2 ^ (v + 1) ∧ 2 ^ (v + 1) ≤ s.toNat := by
  have hpow := two_pow_add_two v
  obtain ⟨n, hn, hwalk⟩ := hback
  have h1 : 1 ≤ n := by
    refine Nat.pos_of_ne_zero fun h0 => hne ?_
    rw [← hwalk, h0, Function.iterate_zero_apply]
  have hunseen : ¬ t.slt (next^[n] t) = true := by
    rw [BitVec.slt_iff_toInt_lt] at h ⊢
    rw [hwalk]
    exact lt_asymm h
  rw [slt_iterate_iff ht h1 hn] at hunseen
  have hnat := toNat_iterate_of_lt ht (n := n) (by omega)
  rw [hwalk] at hnat
  omega

/-- The rule of the signed maximum stays or moves ahead, unless the number heard is a
positive one behind a negative own number. -/
theorem within_raise_iff (hs : s ≠ 0) (ht : t ≠ 0)
    (hnear : Within (2 ^ v) s t ∨ Within (2 ^ v) t s) :
    Within (2 ^ v) s (raise s t) ↔
      ¬ (t.toNat < 2 ^ (v + 1) ∧ 2 ^ (v + 1) ≤ s.toNat ∧ Within (2 ^ v) t s) := by
  have hpow := two_pow_add_two v
  have hpos : 0 < 2 ^ v := Nat.two_pow_pos v
  have hlap : 2 * 2 ^ v < 2 ^ (v + 2) - 1 := by omega
  by_cases hne : s = t
  · subst hne
    rw [raise_self]
    constructor
    · rintro - ⟨hlow, hhigh, -⟩
      omega
    · intro _
      exact ⟨1, hpos, rfl⟩
  by_cases hslt : s.slt t = true
  · rw [raise_of_slt hslt]
    constructor
    · rintro hahead ⟨-, -, hback⟩
      exact hne (hahead.antisymm hlap hs hback)
    · intro hgood
      rcases hnear with hahead | hback
      · exact hahead
      · obtain ⟨hlow, hhigh⟩ := behind_of_slt ht hne hback hslt
        exact absurd ⟨hlow, hhigh, hback⟩ hgood
  · rw [raise_of_not_slt hne hslt]
    constructor
    · rintro - ⟨hlow, hhigh, -⟩
      have hlt := s.isLt
      have hcast : (2 : ℤ) ^ (v + 2) = ((2 ^ (v + 2) : ℕ) : ℤ) := by norm_cast
      rw [slt_iff, hcast, if_neg (by omega), if_pos hlow] at hslt
      omega
    · intro _
      exact Within.refl _ s

end Signed

end SerialNumbers

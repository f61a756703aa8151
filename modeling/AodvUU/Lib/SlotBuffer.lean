import Mathlib.Algebra.Group.Nat.Defs
import Mathlib.Data.List.Range
import Mathlib.Tactic.ByContra

/-! # Messages assembled slot by slot

A message begins with a fixed part. Slots of one size are appended to it, and a counter of so many
bits, 1 at first, tells where the next one goes. -/
namespace SlotBuffer

/-- `offset` computes the end of the message from the counter. -/
structure Layout (width : ℕ) where
  fixed : ℕ
  slot : ℕ
  slot_pos : 0 < slot
  offset : BitVec width → ℕ
  offset_eq : ∀ count, count ≠ 0 → offset count = fixed + slot * (count.toNat - 1)

variable {width : ℕ} (L : Layout width) {cap : ℕ}

/-- An append that finds `count` writes inside `cap` bytes and does not wrap the counter. -/
structure Layout.Fits (cap : ℕ) (count : BitVec width) : Prop where
  inside : L.offset count + L.slot ≤ cap
  counted : count.toNat + 1 < 2 ^ width

/-- All appends fit, and so does what is sent. -/
structure Layout.Stays (cap : ℕ) (found : List (BitVec width)) (last : BitVec width) :
    Prop where
  appends : ∀ count ∈ found, L.Fits cap count
  sent : L.offset last ≤ cap

/-- The counters that `k` appends find, the first of which finds `i`. -/
def counts (width i k : ℕ) : List (BitVec width) := (List.range' i k).map (BitVec.ofNat width)

theorem counts_succ (i k : ℕ) :
    counts width i (k + 1) = BitVec.ofNat width i :: counts width (i + 1) k := by
  unfold counts
  rw [List.range'_succ, List.map_cons]

variable {L}

theorem Layout.offset_ofNat {i : ℕ} (hpos : 0 < i) (hlt : i < 2 ^ width) :
    L.offset (BitVec.ofNat width i) = L.fixed + L.slot * (i - 1) := by
  have hnat : (BitVec.ofNat width i).toNat = i := by
    rw [BitVec.toNat_ofNat, Nat.mod_eq_of_lt hlt]
  have hne : BitVec.ofNat width i ≠ 0 := by
    intro hzero
    rw [hzero] at hnat
    exact hpos.ne hnat
  rw [L.offset_eq _ hne, hnat]

/-- A message whose slots would all lie inside the buffer is assembled inside it. -/
theorem Layout.stays_of_le {k : ℕ} (hwide : cap < L.fixed + L.slot * (2 ^ width - 1))
    (hk : L.fixed + L.slot * k ≤ cap) :
    L.Stays cap (counts width 1 k) (BitVec.ofNat width (k + 1)) := by
  have hcount : k < 2 ^ width - 1 := Nat.lt_of_mul_lt_mul_left (a := L.slot) (by omega)
  constructor
  · intro count hmem
    obtain ⟨i, hi, rfl⟩ := List.mem_map.mp hmem
    rw [List.mem_range'_1] at hi
    have hnat : (BitVec.ofNat width i).toNat = i := by
      rw [BitVec.toNat_ofNat, Nat.mod_eq_of_lt (by omega)]
    refine ⟨?_, by omega⟩
    rw [L.offset_ofNat (by omega) (by omega), Nat.add_assoc, ← Nat.mul_succ]
    exact (Nat.add_le_add_left (Nat.mul_le_mul_left _ (by omega)) _).trans hk
  · rw [L.offset_ofNat (by omega) (by omega)]
    exact hk

/-- The first slot that does not lie inside the buffer is written before the counter wraps. -/
theorem Layout.not_stays_of_lt {k : ℕ} (hfixed : L.fixed ≤ cap)
    (hwide : cap < L.fixed + L.slot * (2 ^ width - 1)) (hk : cap < L.fixed + L.slot * k)
    (last : BitVec width) : ¬ L.Stays cap (counts width 1 k) last := by
  intro hstays
  -- the number of slots that lie inside
  have hquot : L.slot * ((cap - L.fixed) / L.slot) ≤ cap - L.fixed := Nat.mul_div_le _ _
  have hnext : cap - L.fixed < L.slot * ((cap - L.fixed) / L.slot + 1) :=
    Nat.lt_mul_div_succ _ L.slot_pos
  generalize (cap - L.fixed) / L.slot = q at hquot hnext
  have hqk : q < k := Nat.lt_of_mul_lt_mul_left (a := L.slot) (by omega)
  have hqw : q < 2 ^ width - 1 := Nat.lt_of_mul_lt_mul_left (a := L.slot) (by omega)
  have hmem : BitVec.ofNat width (q + 1) ∈ counts width 1 k :=
    List.mem_map_of_mem (List.mem_range'_1.mpr (by omega))
  have hinside := (hstays.appends _ hmem).inside
  rw [L.offset_ofNat (by omega) (by omega), Nat.add_sub_cancel] at hinside
  rw [Nat.mul_succ] at hnext
  omega

theorem Layout.stays_iff {k : ℕ} (hfixed : L.fixed ≤ cap)
    (hwide : cap < L.fixed + L.slot * (2 ^ width - 1)) :
    L.Stays cap (counts width 1 k) (BitVec.ofNat width (k + 1)) ↔ L.fixed + L.slot * k ≤ cap := by
  refine ⟨fun h => ?_, L.stays_of_le hwide⟩
  by_contra hlt
  exact L.not_stays_of_lt hfixed hwide (by omega) _ h

end SlotBuffer

import Mathlib.Data.Nat.Notation

/-! # Words in byte memory

A memory is a map from addresses to bytes, and a word of `w` bits lies in it with its lowest
byte first. -/
namespace ByteMem

abbrev Mem := ℕ → BitVec 8

variable {w v : ℕ} {m m' : Mem} {off off' i : ℕ}

/-- The number of bytes of a word. -/
def wordSize (w : ℕ) : ℕ := (w + 7) / 8

def storeWord (off : ℕ) (x : BitVec w) (m : Mem) : Mem := fun i =>
  if off ≤ i ∧ i < off + wordSize w then x.extractLsb' (8 * (i - off)) 8 else m i

def loadWord (w : ℕ) (m : Mem) (off : ℕ) : BitVec w :=
  (BitVec.ofBoolListLE ((List.range w).map fun i => (m (off + i / 8)).getLsbD (i % 8))).setWidth w

/-- The first `len` bytes of a memory, in a zeroed one. -/
def copy (len : ℕ) (m : Mem) : Mem := fun i => if i < len then m i else 0

theorem getLsbD_loadWord (m : Mem) (off i : ℕ) :
    (loadWord w m off).getLsbD i = (decide (i < w) && (m (off + i / 8)).getLsbD (i % 8)) := by
  unfold loadWord
  rw [BitVec.getLsbD_setWidth, BitVec.getLsbD_ofBoolListLE, List.getD_eq_getElem?_getD]
  by_cases hi : i < w
  · simp [hi]
  · simp [hi]

/-- A load only depends on the bytes of the word. -/
theorem loadWord_congr (h : ∀ i < wordSize w, m (off + i) = m' (off' + i)) :
    loadWord w m off = loadWord w m' off' := by
  apply BitVec.eq_of_getLsbD_eq
  intro i hi
  have hbyte : i / 8 < wordSize w := by
    unfold wordSize
    omega
  rw [getLsbD_loadWord, getLsbD_loadWord, h (i / 8) hbyte]

@[simp] theorem loadWord_storeWord (off : ℕ) (x : BitVec w) (m : Mem) :
    loadWord w (storeWord off x m) off = x := by
  apply BitVec.eq_of_getLsbD_eq
  intro i hi
  have hbyte : off ≤ off + i / 8 ∧ off + i / 8 < off + wordSize w := by
    unfold wordSize
    omega
  have hbit : 8 * (off + i / 8 - off) + i % 8 = i := by omega
  have hlow : i % 8 < 8 := Nat.mod_lt _ (by decide)
  rw [getLsbD_loadWord, storeWord, if_pos hbyte, BitVec.getLsbD_extractLsb', hbit]
  simp [hi, hlow]

/-- A store elsewhere does not matter. -/
theorem loadWord_storeWord_of_disjoint (x : BitVec v) (m : Mem)
    (h : off + wordSize w ≤ off' ∨ off' + wordSize v ≤ off) :
    loadWord w (storeWord off' x m) off = loadWord w m off := by
  apply loadWord_congr
  intro i hi
  have hout : ¬ (off' ≤ off + i ∧ off + i < off' + wordSize v) := by omega
  rw [storeWord, if_neg hout]

theorem storeWord_of_outside (x : BitVec w) (m : Mem) (h : ¬ (off ≤ i ∧ i < off + wordSize w)) :
    storeWord off x m i = m i := if_neg h

theorem storeWord_byte (off : ℕ) (x : BitVec 8) (m : Mem) (i : ℕ) :
    storeWord off x m i = if i = off then x else m i := by
  have hword : wordSize 8 = 1 := rfl
  by_cases hi : i = off
  · subst hi
    rw [storeWord, if_pos ⟨Nat.le_refl _, by omega⟩, if_pos rfl]
    apply BitVec.eq_of_getLsbD_eq
    intro j hj
    rw [BitVec.getLsbD_extractLsb']
    simp [hj]
  · rw [storeWord_of_outside x m (by omega), if_neg hi]

theorem loadWord_copy {len : ℕ} (h : off + wordSize w ≤ len) :
    loadWord w (copy len m) off = loadWord w m off := by
  apply loadWord_congr
  intro i hi
  have hin : off + i < len := by omega
  rw [copy, if_pos hin]

/-! ## Records -/

/-- How the values of a type lie in memory, in a fixed number of bytes. -/
structure Codec (α : Type*) where
  size : ℕ
  store : ℕ → α → Mem → Mem
  load : Mem → ℕ → α
  load_store : ∀ off x m, load (store off x m) off = x
  store_outside : ∀ off x m i, ¬ (off ≤ i ∧ i < off + size) → store off x m i = m i
  load_congr : ∀ m m' off, (∀ i, off ≤ i → i < off + size → m i = m' i) → load m off = load m' off

end ByteMem

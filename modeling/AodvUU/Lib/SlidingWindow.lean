import Mathlib.Data.List.DropRight

/-! # Sliding windows

A limiter that remembers its last `k` admissions and admits the next one only if it is far
enough from the oldest of them. `Far` is any relation. -/
namespace SlidingWindow

variable {α : Type*} (Far : α → α → Prop)

/-- Any `k + 1` consecutive elements span far enough. -/
def Spaced (k : ℕ) (ts : List α) : Prop :=
  ∀ i (h : i + k < ts.length), Far ts[i] ts[i + k]

/-- The next element is far enough from the `k`-th last. -/
def Admits (k : ℕ) (ts : List α) (t : α) : Prop :=
  ∀ s, ts[ts.length - k]? = some s → k ≤ ts.length → Far s t

/-- The window after `t` is admitted; `none` if it is not. -/
def admitted [DecidableRel Far] (k : ℕ) (w : List α) (t : α) : Option (List α) :=
  if w.length < k then some (w ++ [t])
  else
    match w with
    | [] => none
    | s :: rest => if Far s t then some (rest ++ [t]) else none

variable {Far} {k : ℕ} {ts : List α} {t : α}

theorem spaced_nil : Spaced Far k [] := by
  intro i h
  exact absurd h (Nat.not_lt_zero _)

theorem spaced_concat (hk : 0 < k) (hs : Spaced Far k ts) (ht : Admits Far k ts t) :
    Spaced Far k (ts ++ [t]) := by
  intro i hi
  rw [List.length_append, List.length_singleton] at hi
  rw [List.getElem_append_left (by omega)]
  by_cases hin : i + k < ts.length
  · rw [List.getElem_append_left hin]
    exact hs i hin
  · have hlast : ts[ts.length - k]? = some ts[i] := by
      rw [show ts.length - k = i by omega]
      exact List.getElem?_eq_getElem _
    rw [List.getElem_append_right (by omega)]
    simpa using ht _ hlast (by omega)

/-- The last `k` elements are enough to decide, and the limiter keeps exactly these. -/
theorem admit_rtake [DecidableRel Far] [Decidable (Admits Far k ts t)] (hk : 0 < k) :
    admitted Far k (ts.rtake k) t =
      if Admits Far k ts t then some ((ts ++ [t]).rtake k) else none := by
  obtain ⟨m, rfl⟩ : ∃ m, k = m + 1 := ⟨k - 1, by omega⟩
  unfold admitted
  rw [List.rtake_concat_succ]
  by_cases hlen : ts.length < m + 1
  · have hall : ts.rtake (m + 1) = ts ∧ ts.rtake m = ts := by
      constructor <;> simp [List.rtake, show ts.length - (m + 1) = 0 by omega,
        show ts.length - m = 0 by omega]
    rw [hall.1, hall.2, if_pos hlen, if_pos]
    intro s _ hle
    omega
  · have hpos : ts.length - (m + 1) < ts.length := by omega
    have hcons : ts.rtake (m + 1) = ts[ts.length - (m + 1)] :: ts.rtake m := by
      unfold List.rtake
      rw [List.drop_eq_getElem_cons hpos, show ts.length - (m + 1) + 1 = ts.length - m by omega]
    have hiff : Admits Far (m + 1) ts t ↔ Far ts[ts.length - (m + 1)] t := by
      constructor
      · intro h
        exact h _ (List.getElem?_eq_getElem hpos) (by omega)
      · intro h s hs _
        rw [List.getElem?_eq_getElem hpos] at hs
        cases hs
        exact h
    have hfull : ¬ (ts.rtake (m + 1)).length < m + 1 := by
      simp only [List.rtake, List.length_drop]
      omega
    rw [if_neg hfull, hcons]
    simp only [hiff]

end SlidingWindow

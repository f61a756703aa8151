import Mathlib.Data.List.Basic

/-! # Duplicates told by the last tag

A sender puts each item on a line any number of times before it turns to the next. A receiver
remembers the tag of the last item and passes over an item with the same tag. One tag is null: it
stands for no item, and an item that bears it is never passed over. -/
namespace LastTag

variable {α τ : Type*} {tag : α → τ} {null last : τ} {xs ys zs : List α} {x y : α}

/-- Each item of the first list, in order, any number of times. -/
inductive Repeats : List α → List α → Prop
  | nil : Repeats [] []
  | skip (x : α) {xs ys : List α} : Repeats xs ys → Repeats (x :: xs) ys
  | again (x : α) {xs ys : List α} : Repeats (x :: xs) ys → Repeats (x :: xs) (x :: ys)

theorem Repeats.nil_right : ∀ xs : List α, Repeats xs []
  | [] => .nil
  | x :: xs => .skip x (nil_right xs)

/-- What is lost on the line was put on it less often. -/
theorem Repeats.sublist (h : Repeats xs ys) (hz : zs.Sublist ys) : Repeats xs zs := by
  induction h generalizing zs with
  | nil =>
    obtain rfl := List.sublist_nil.mp hz
    exact .nil
  | skip x _ ih => exact .skip x (ih hz)
  | again x _ ih =>
    cases hz with
    | cons _ hz => exact ih hz
    | cons_cons _ hz => exact .again x (ih hz)

theorem Repeats.next (h : Repeats xs ys) (x : α) : Repeats (xs ++ [x]) ys := by
  induction h with
  | nil => exact .skip x .nil
  | skip y _ ih => exact .skip y ih
  | again y _ ih => exact .again y ih

theorem Repeats.put (h : Repeats (xs ++ [x]) ys) : Repeats (xs ++ [x]) (ys ++ [x]) := by
  generalize hz : xs ++ [x] = zs at h
  induction h generalizing xs with
  | nil => cases xs <;> cases hz
  | skip y hrest ih =>
    cases xs with
    | nil =>
      obtain ⟨rfl, rfl⟩ := List.cons.inj hz
      cases hrest
      exact .again x (.skip x .nil)
    | cons z xs =>
      obtain ⟨rfl, hxs⟩ := List.cons.inj hz
      exact .skip z (ih hxs)
  | again y _ ih => exact .again y (ih hz)

theorem Repeats.mem (h : Repeats xs ys) (hy : y ∈ ys) : y ∈ xs := by
  induction h with
  | nil => exact hy
  | skip x _ ih => exact List.mem_cons_of_mem x (ih hy)
  | again x _ ih =>
    obtain rfl | hy := List.mem_cons.mp hy
    · exact List.mem_cons_self
    · exact ih hy

/-! ## The receiver -/

/-- The tag that the receiver remembers in the end. -/
def seen (tag : α → τ) (last : τ) (ys : List α) : τ := ys.foldl (fun _ y => tag y) last

theorem seen_concat (y : α) : seen tag last (ys ++ [y]) = tag y := by
  unfold seen
  rw [List.foldl_append]
  rfl

variable [DecidableEq τ]

/-- What it passes on, from the tag it remembers. -/
def passed (tag : α → τ) (null last : τ) : List α → List α
  | [] => []
  | y :: ys =>
    if last ≠ null ∧ last = tag y then passed tag null last ys
    else y :: passed tag null (tag y) ys

/-- One more item is passed on unless the tag is the one that is remembered. -/
theorem passed_concat (y : α) : passed tag null last (ys ++ [y]) =
    passed tag null last ys ++
      if seen tag last ys ≠ null ∧ seen tag last ys = tag y then [] else [y] := by
  induction ys generalizing last with
  | nil =>
    change (if last ≠ null ∧ last = tag y then [] else [y]) = [] ++ _
    rw [List.nil_append]
    rfl
  | cons x ys ih =>
    rw [List.cons_append]
    unfold passed
    by_cases hx : last ≠ null ∧ last = tag x
    · rw [if_pos hx, if_pos hx, ih]
      unfold seen
      rw [List.foldl_cons, ← hx.2]
    · rw [if_neg hx, if_neg hx, ih, List.cons_append]
      rfl

theorem passed_sublist (last : τ) (ys : List α) : (passed tag null last ys).Sublist ys := by
  induction ys generalizing last with
  | nil => exact .refl _
  | cons y ys ih =>
    unfold passed
    split
    · exact (ih last).cons y
    · exact (ih (tag y)).cons_cons y

/-- Items that bear a tag of their own. -/
abbrev tagged (tag : α → τ) (null : τ) (xs : List α) : List α :=
  xs.filter fun x => tag x ≠ null

/-- The items that bear a tag are passed on at most once each, in the order in which they were
sent. -/
theorem tagged_passed (h : Repeats xs ys) (last : τ) :
    (tagged tag null (passed tag null last ys)).Sublist (tagged tag null xs) := by
  induction xs generalizing ys last with
  | nil =>
    cases h
    exact .refl _
  | cons x xs ih =>
    -- Behind the first copy of an item the others are passed over.
    have hrest : tag x ≠ null → ∀ ys, Repeats (x :: xs) ys →
        (tagged tag null (passed tag null (tag x) ys)).Sublist (tagged tag null xs) := by
      intro hx ys
      induction ys with
      | nil => exact fun _ => List.nil_sublist _
      | cons y ys ihys =>
        intro hys
        cases hys with
        | skip _ hys => exact ih hys (tag x)
        | again _ hys =>
          unfold passed
          rw [if_pos ⟨hx, rfl⟩]
          exact ihys hys
    induction ys generalizing last with
    | nil => exact List.nil_sublist _
    | cons y ys ihys =>
      cases h with
      | skip _ h => exact (ih h last).trans (List.Sublist.filter _ (List.sublist_cons_self x xs))
      | again _ h =>
        unfold passed
        split
        · exact ihys h last
        · by_cases hx : tag x = null
          · rw [tagged, List.filter_cons_of_neg (by simpa using hx)]
            exact ihys h (tag x)
          · rw [tagged, tagged, List.filter_cons_of_pos (by simpa using hx),
              List.filter_cons_of_pos (by simpa using hx)]
            exact (hrest hx ys h).cons_cons x

/-- When every item bears a tag, each is passed on at most once. -/
theorem passed_sublist_of_tagged (h : Repeats xs ys) (hxs : ∀ x ∈ xs, tag x ≠ null) (last : τ) :
    (passed tag null last ys).Sublist xs := by
  have hkeep : tagged tag null xs = xs := List.filter_eq_self.mpr fun x hx => by
    simpa using hxs x hx
  have hpass : tagged tag null (passed tag null last ys) = passed tag null last ys :=
    List.filter_eq_self.mpr fun y hy => by
      simpa using hxs y (h.mem ((passed_sublist last ys).subset hy))
  have htagged : (tagged tag null (passed tag null last ys)).Sublist (tagged tag null xs) :=
    tagged_passed h last
  rwa [hkeep, hpass] at htagged

end LastTag

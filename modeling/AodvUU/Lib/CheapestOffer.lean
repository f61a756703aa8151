import Mathlib.Data.List.Perm.Basic
import Mathlib.Order.Lattice

/-! # The cheapest of a stream of offers

Offers of several series arrive one by one, and one offer is held. An offer is dropped when a
cheaper one of its series is on record, and passed over when the one held is as cheap. The records
hold the first cost of each series only. -/
namespace CheapestOffer

/-- The series of an offer, and what it costs. -/
structure Scheme (α ι κ : Type*) where
  series : α → ι
  cost : α → κ

structure State (α ι κ : Type*) where
  seen : List (ι × κ)
  held : Option α

variable {α ι κ : Type*} [DecidableEq ι] [LinearOrder κ] (S : Scheme α ι κ)

namespace Scheme

/-- A cheaper offer of the series is on record. -/
def Beaten (seen : List (ι × κ)) (x : α) : Prop := ∃ r ∈ seen, r.1 = S.series x ∧ r.2 < S.cost x

def Improves (held : Option α) (x : α) : Prop := ∀ y ∈ held, S.cost x < S.cost y

instance (seen : List (ι × κ)) (x : α) : Decidable (S.Beaten seen x) :=
  inferInstanceAs (Decidable (∃ r ∈ seen, _))

instance (held : Option α) (x : α) : Decidable (S.Improves held x) :=
  match held with
  | none => isTrue fun _ hy => by cases hy
  | some y => decidable_of_iff (S.cost x < S.cost y)
      ⟨fun h _ hy => Option.mem_some.mp hy ▸ h, fun h => h y rfl⟩

def record (x : α) (seen : List (ι × κ)) : List (ι × κ) :=
  if ∃ r ∈ seen, r.1 = S.series x then seen else (S.series x, S.cost x) :: seen

/-- The offer becomes the one held. -/
def Takes (s : State α ι κ) (x : α) : Prop := ¬ S.Beaten s.seen x ∧ S.Improves s.held x

instance (s : State α ι κ) (x : α) : Decidable (S.Takes s x) := inferInstanceAs (Decidable (_ ∧ _))

def step (s : State α ι κ) (x : α) : State α ι κ where
  seen := if S.Beaten s.seen x then s.seen else S.record x s.seen
  held := if S.Takes s x then some x else s.held

def run (s : State α ι κ) (xs : List α) : State α ι κ := xs.foldl S.step s

/-- The offers taken, in the order of arrival. -/
def taken : State α ι κ → List α → List α
  | _, [] => []
  | s, x :: xs => if S.Takes s x then x :: taken (S.step s x) xs else taken (S.step s x) xs

variable {S} {s : State α ι κ} {x : α} {xs ys : List α}

/-! ## One offer -/

theorem step_held_of_takes (h : S.Takes s x) : (S.step s x).held = some x := if_pos h

theorem step_held_of_not_takes (h : ¬ S.Takes s x) : (S.step s x).held = s.held := if_neg h

omit [LinearOrder κ] in
theorem mem_record {r : ι × κ} (h : r ∈ S.record x s.seen) :
    r ∈ s.seen ∨ r = (S.series x, S.cost x) := by
  unfold record at h
  split at h
  · exact .inl h
  · exact (List.mem_cons.mp h).symm

theorem step_seen_of_beaten (h : S.Beaten s.seen x) : (S.step s x).seen = s.seen := if_pos h

theorem step_seen_of_not_beaten (h : ¬ S.Beaten s.seen x) :
    (S.step s x).seen = S.record x s.seen := if_neg h

theorem mem_step_seen {r : ι × κ} (h : r ∈ (S.step s x).seen) :
    r ∈ s.seen ∨ r = (S.series x, S.cost x) := by
  unfold step at h
  dsimp only at h
  split at h
  · exact .inl h
  · exact mem_record h

theorem mem_step_held {y : α} (h : y ∈ (S.step s x).held) : y ∈ s.held ∨ y = x := by
  unfold step at h
  dsimp only at h
  split at h
  · exact .inr (Option.mem_some.mp h).symm
  · exact .inl h

/-! ## Runs -/

/-- What is on record was there or has arrived. -/
theorem mem_run_seen {r : ι × κ} (h : r ∈ (S.run s xs).seen) :
    r ∈ s.seen ∨ ∃ y ∈ xs, r = (S.series y, S.cost y) := by
  induction xs generalizing s with
  | nil => exact .inl h
  | cons x xs ih =>
    rcases ih h with hstep | ⟨y, hy, heq⟩
    · rcases mem_step_seen hstep with hold | heq
      · exact .inl hold
      · exact .inr ⟨x, List.mem_cons_self, heq⟩
    · exact .inr ⟨y, List.mem_cons_of_mem x hy, heq⟩

theorem mem_run_held {y : α} (h : y ∈ (S.run s xs).held) : y ∈ s.held ∨ y ∈ xs := by
  induction xs generalizing s with
  | nil => exact .inl h
  | cons x xs ih =>
    rcases ih h with hstep | hy
    · rcases mem_step_held hstep with hold | rfl
      · exact .inl hold
      · exact .inr List.mem_cons_self
    · exact .inr (List.mem_cons_of_mem x hy)

/-- Nothing replaces an offer but a cheaper one. -/
theorem run_held_of_le (hx : s.held = some x) (h : ∀ y ∈ xs, S.cost x ≤ S.cost y) :
    (S.run s xs).held = some x := by
  induction xs generalizing s with
  | nil => exact hx
  | cons y ys ih =>
    refine ih ?_ fun z hz => h z (List.mem_cons_of_mem y hz)
    rw [step_held_of_not_takes, hx]
    rintro ⟨-, himp⟩
    exact (h y List.mem_cons_self).not_gt (himp x hx)

omit [DecidableEq ι] in
theorem exists_first_minimum (S : Scheme α ι κ) (hne : xs ≠ []) : ∃ before x after,
    xs = before ++ x :: after ∧ (∀ y ∈ before, S.cost x < S.cost y) ∧
      ∀ y ∈ after, S.cost x ≤ S.cost y := by
  induction xs with
  | nil => exact absurd rfl hne
  | cons x xs ih =>
    by_cases hle : ∀ y ∈ xs, S.cost x ≤ S.cost y
    · exact ⟨[], x, xs, rfl, (fun _ h => by cases h), hle⟩
    · simp only [not_forall, not_le] at hle
      obtain ⟨z, hz, hlt⟩ := hle
      obtain ⟨before, y, after, rfl, hbefore, hafter⟩ := ih (List.ne_nil_of_mem hz)
      have hyz : S.cost y ≤ S.cost z := by
        rcases List.mem_append.mp hz with hmem | hmem
        · exact (hbefore z hmem).le
        · rcases List.mem_cons.mp hmem with rfl | hmem
          · exact le_rfl
          · exact hafter z hmem
      refine ⟨x :: before, y, after, rfl, fun w hw => ?_, hafter⟩
      rcases List.mem_cons.mp hw with rfl | hw
      · exact hyz.trans_lt hlt
      · exact hbefore w hw

omit [DecidableEq ι] in
theorem le_of_first {before after : List α} (hbefore : ∀ y ∈ before, S.cost x < S.cost y)
    (hafter : ∀ y ∈ after, S.cost x ≤ S.cost y) {y : α} (hy : y ∈ before ++ x :: after) :
    S.cost x ≤ S.cost y := by
  rcases List.mem_append.mp hy with h | h
  · exact (hbefore y h).le
  · rcases List.mem_cons.mp h with rfl | h
    · exact le_rfl
    · exact hafter y h

/-- Of the offers that cost least, the first ends up held, unless it was beaten from the start. -/
theorem run_held_first {before after : List α} (hheld : s.held = none)
    (hbefore : ∀ y ∈ before, S.cost x < S.cost y) (hafter : ∀ y ∈ after, S.cost x ≤ S.cost y)
    (hx : ¬ S.Beaten s.seen x) : (S.run s (before ++ x :: after)).held = some x := by
  have htakes : S.Takes (S.run s before) x := by
    constructor
    · rintro ⟨r, hr, hseries, hlt⟩
      rcases mem_run_seen hr with hold | ⟨y, hy, rfl⟩
      · exact hx ⟨r, hold, hseries, hlt⟩
      · exact lt_asymm hlt (hbefore y hy)
    · intro y hy
      rcases mem_run_held hy with hold | hmem
      · rw [hheld] at hold
        cases hold
      · exact hbefore y hmem
  have hsplit : S.run s (before ++ x :: after) = S.run (S.step (S.run s before) x) after := by
    unfold run
    rw [List.foldl_append, List.foldl_cons]
  rw [hsplit]
  exact run_held_of_le (step_held_of_takes htakes) hafter

/-! ## Independence of the order -/

/-- No offer that costs least is beaten from the start. -/
def Unbeaten (S : Scheme α ι κ) (seen : List (ι × κ)) (xs : List α) : Prop :=
  ∀ x ∈ xs, (∀ y ∈ xs, S.cost x ≤ S.cost y) → ¬ S.Beaten seen x

omit [DecidableEq ι] in
theorem Unbeaten.perm (h : S.Unbeaten s.seen xs) (hp : ys.Perm xs) : S.Unbeaten s.seen ys :=
  fun x hx hmin => h x (hp.subset hx) fun y hy => hmin y (hp.symm.subset hy)

theorem run_first_minimum (hheld : s.held = none) (hopen : S.Unbeaten s.seen xs) (hne : xs ≠ []) :
    ∃ before x after, xs = before ++ x :: after ∧ (∀ y ∈ before, S.cost x < S.cost y) ∧
      (∀ y ∈ after, S.cost x ≤ S.cost y) ∧ (S.run s xs).held = some x := by
  obtain ⟨before, x, after, rfl, hbefore, hafter⟩ := exists_first_minimum S hne
  have hx : ¬ S.Beaten s.seen x :=
    hopen x (by simp) fun y hy => le_of_first hbefore hafter hy
  exact ⟨before, x, after, rfl, hbefore, hafter, run_held_first hheld hbefore hafter hx⟩

theorem run_cost_perm (hheld : s.held = none) (hopen : S.Unbeaten s.seen xs) (hp : ys.Perm xs) :
    (S.run s ys).held.map S.cost = (S.run s xs).held.map S.cost := by
  by_cases hne : xs = []
  · subst hne
    rw [hp.eq_nil]
  · have hne' : ys ≠ [] := fun h => hne (by
      subst h
      exact hp.nil_eq.symm)
    obtain ⟨b, x, a, heq, hb, ha, hx⟩ := run_first_minimum hheld hopen hne
    obtain ⟨b', y, a', heq', hb', ha', hy⟩ := run_first_minimum hheld (hopen.perm hp) hne'
    have hxy : S.cost x ≤ S.cost y :=
      le_of_first hb ha (heq ▸ hp.subset (heq'.symm ▸ by simp))
    have hyx : S.cost y ≤ S.cost x :=
      le_of_first hb' ha' (heq' ▸ hp.symm.subset (heq.symm ▸ by simp))
    rw [hx, hy, Option.map_some, Option.map_some, le_antisymm hyx hxy]

/-! ## The offers taken -/

theorem taken_lt_held {y : α} (hheld : s.held = some x) (hy : y ∈ S.taken s xs) :
    S.cost y < S.cost x := by
  induction xs generalizing s x with
  | nil => cases hy
  | cons z zs ih =>
    unfold taken at hy
    split at hy
    · next htakes =>
      have hzx : S.cost z < S.cost x := htakes.2 x hheld
      rcases List.mem_cons.mp hy with rfl | hy
      · exact hzx
      · exact (ih (step_held_of_takes htakes) hy).trans hzx
    · next hskip => exact ih ((step_held_of_not_takes hskip).trans hheld) hy

theorem taken_decreasing (S : Scheme α ι κ) (s : State α ι κ) (xs : List α) :
    (S.taken s xs).Pairwise fun x y => S.cost y < S.cost x := by
  induction xs generalizing s with
  | nil => exact .nil
  | cons x xs ih =>
    unfold taken
    split
    · next htakes =>
      exact List.pairwise_cons.mpr
        ⟨fun y hy => taken_lt_held (step_held_of_takes htakes) hy, ih _⟩
    · exact ih _

end Scheme

end CheapestOffer

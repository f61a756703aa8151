import Mathlib.Data.List.Chain
import Mathlib.Logic.Relation

/-! # Following next hops

Who passes on to whom is a relation between nodes. When one node chooses new next hops, a loop
can close over these alone. -/
namespace NextHopGraph

open Relation (ReflTransGen TransGen)

variable {ι : Type*} {R R' : ι → ι → Prop} {a : ι}

/-- Whoever follows the relation meets no node twice. -/
def LoopFree (R : ι → ι → Prop) : Prop := ∀ l : List ι, l.IsChain R → l.Nodup

theorem loopFree_iff : LoopFree R ↔ ∀ x, ¬ TransGen R x x := by
  constructor
  · intro h x hx
    obtain ⟨y, hxy, hyx⟩ := TransGen.head'_iff.mp hx
    obtain ⟨l, hchain, hlast⟩ := List.exists_isChain_cons_of_relationReflTransGen hyx
    have hnodup := h (x :: y :: l) (.cons_cons hxy hchain)
    apply (List.nodup_cons.mp hnodup).1
    rw [← hlast]
    exact List.getLast_mem _
  · intro h l hl
    have hpair : l.Pairwise (TransGen R) :=
      List.isChain_iff_pairwise.mp (hl.imp fun _ _ => TransGen.single)
    refine hpair.imp fun hxy heq => ?_
    subst heq
    exact h _ hxy

/-- The way leads down. -/
theorem rank_le (f : ι → ℕ) (h : ∀ x y, R x y → f y < f x) {x y : ι} (hxy : ReflTransGen R x y) :
    f y ≤ f x := by
  induction hxy with
  | refl => exact le_refl _
  | tail _ hstep ih => exact (h _ _ hstep).le.trans ih

/-- Nothing loops where each hop comes nearer. -/
theorem loopFree_of_rank (f : ι → ℕ) (h : ∀ x y, R x y → f y < f x) : LoopFree R := by
  refine loopFree_iff.mpr fun x hx => ?_
  obtain ⟨y, hxy, hyx⟩ := TransGen.head'_iff.mp hx
  exact (rank_le f h hyx).not_gt (h x y hxy)

/-- Only `a` chooses new next hops. -/
def SameButAt (a : ι) (R R' : ι → ι → Prop) : Prop := ∀ x, x ≠ a → ∀ y, R' x y ↔ R x y

/-- The way to `a` does not depend on what `a` chooses. -/
theorem SameButAt.reaches (h : SameButAt a R R') {x : ι} (hx : ReflTransGen R x a) :
    ReflTransGen R' x a := by
  induction hx using ReflTransGen.head_induction_on with
  | refl => exact .refl
  | @head x y hstep _ ih =>
    by_cases hxa : x = a
    · rw [hxa]
    · exact .head ((h x hxa y).mpr hstep) ih

theorem SameButAt.symm (h : SameButAt a R R') : SameButAt a R' R :=
  fun x hx y => (h x hx y).symm

/-- A way that is new leads to `a` and on over one of its next hops. -/
theorem SameButAt.through (h : SameButAt a R R') {x y : ι} (hxy : TransGen R' x y) :
    TransGen R x y ∨ ReflTransGen R' x a ∧ ∃ b, R' a b ∧ ReflTransGen R' b y := by
  induction hxy with
  | @single y hstep =>
    by_cases hxa : x = a
    · subst hxa
      exact .inr ⟨.refl, y, hstep, .refl⟩
    · exact .inl (.single ((h x hxa y).mp hstep))
  | @tail y z _ hstep ih =>
    rcases ih with hold | ⟨hxa, b, hab, hby⟩
    · by_cases hya : y = a
      · subst hya
        exact .inr ⟨h.reaches hold.to_reflTransGen, z, hstep, .refl⟩
      · exact .inl (hold.tail ((h y hya z).mp hstep))
    · exact .inr ⟨hxa, b, hab, hby.tail hstep⟩

/-- No loop closes exactly when no next hop of `a` had a way to `a` before. -/
theorem SameButAt.loopFree_iff (h : SameButAt a R R') (hR : LoopFree R) :
    LoopFree R' ↔ ∀ b, R' a b → ¬ ReflTransGen R b a := by
  rw [NextHopGraph.loopFree_iff] at hR ⊢
  constructor
  · intro hR' b hab hback
    exact hR' a (TransGen.head' hab (h.reaches hback))
  · intro hnone x hx
    rcases h.through hx with hold | ⟨hxa, b, hab, hbx⟩
    · exact hR x hold
    · exact hnone b hab (h.symm.reaches (hbx.trans hxa))

/-- The new next hops of `a` for which it is enough to look: those it did not have. -/
theorem SameButAt.loopFree_of_new (h : SameButAt a R R') (hR : LoopFree R)
    (hnew : ∀ b, R' a b → R a b ∨ ¬ ReflTransGen R b a) : LoopFree R' := by
  refine (h.loopFree_iff hR).mpr fun b hab hback => ?_
  rcases hnew b hab with hold | hnone
  · exact NextHopGraph.loopFree_iff.mp hR a (TransGen.head' hold hback)
  · exact hnone hback

end NextHopGraph

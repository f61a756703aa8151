import Mathlib.Data.List.Chain
import Mathlib.Data.Set.Basic
import Mathlib.Logic.Relation
import Mathlib.Order.Basic

/-! # Distance vectors with sequence numbers

For each destination a node follows the newest number it has heard and, under one number, the
smallest cost. What a node has announced may be taken at any later time, by any node, any number
of times. Nodes `ι`, numbers `S` and costs `C` are arbitrary. -/
namespace DistanceVector

variable {ι S C : Type*}

/-- The route of one node to one destination. -/
structure Entry (ι S C : Type*) where
  seq : S
  cost : C
  next : ι
  valid : Prop

/-- What a sender announces about a destination. -/
structure Advert (ι S C : Type*) where
  sender : ι
  dest : ι
  seq : S
  cost : C

structure Net (ι S C : Type*) where
  table : ι → ι → Option (Entry ι S C)
  adverts : Set (Advert ι S C)

def Net.empty : Net ι S C := ⟨fun _ _ => none, ∅⟩

/-- `x` has a valid route to `d`, over `y`. -/
def Net.Forwards (N : Net ι S C) (d x y : ι) : Prop :=
  ∃ e, N.table x d = some e ∧ e.valid ∧ e.next = y

section Order

variable [Preorder S] [Preorder C]

/-- The entry is at least as good as a route with this number and cost, or newer. -/
def Entry.Covers (e : Entry ι S C) (s : S) (c : C) : Prop :=
  s < e.seq ∨ (e.seq = s ∧ e.valid ∧ e.cost ≤ c)

/-- A route with this number and cost replaces the entry. -/
def Entry.Outdated (e : Entry ι S C) (s : S) (c : C) : Prop :=
  e.seq < s ∨ (s = e.seq ∧ (¬ e.valid ∨ c < e.cost))

/-- An entry stays as it was, or it is invalidated with a newer number. -/
structure Entry.Fades (e e' : Entry ι S C) : Prop where
  next : e'.next = e.next
  cost : e'.cost = e.cost
  seq : (e'.seq = e.seq ∧ (e'.valid ↔ e.valid)) ∨ (e.seq < e'.seq ∧ ¬ e'.valid)

def Net.Covers (N : Net ι S C) (x d : ι) (s : S) (c : C) : Prop :=
  ∃ e, N.table x d = some e ∧ e.Covers s c

/-- The announcement is about the sender, or about a route that the sender has or had. -/
def Net.Backs (N : Net ι S C) (a : Advert ι S C) : Prop :=
  a.sender = a.dest ∨ N.Covers a.sender a.dest a.seq a.cost

inductive Step [DecidableEq ι] (N : Net ι S C) : Net ι S C → Prop
  | fade (x : ι) (t : ι → Option (Entry ι S C))
      (h : ∀ d, Option.Rel Entry.Fades (N.table x d) (t d)) :
      Step N { N with table := Function.update N.table x t }
  | take (x : ι) (a : Advert ι S C) (ha : a ∈ N.adverts) (c : C) (hc : a.cost < c)
      (hx : x ≠ a.dest) (hnew : ∀ e, N.table x a.dest = some e → e.Outdated a.seq c) :
      Step N { N with
        table := Function.update N.table x
          (Function.update (N.table x) a.dest (some ⟨a.seq, c, a.sender, True⟩)) }
  | announce (A : Set (Advert ι S C)) (h : ∀ a ∈ A, a ∈ N.adverts ∨ N.Backs a) :
      Step N { N with adverts := A }

abbrev Steps [DecidableEq ι] : Net ι S C → Net ι S C → Prop := Relation.ReflTransGen Step

/-! ## Routes only improve -/

omit [Preorder C] in
theorem fades_some {o o' : Option (Entry ι S C)} (h : Option.Rel Entry.Fades o o') {e : Entry ι S C}
    (he : o = some e) : ∃ e', o' = some e' ∧ e.Fades e' := by
  cases h with
  | some hf =>
    cases he
    exact ⟨_, rfl, hf⟩
  | none => cases he

omit [Preorder C] in
theorem some_fades {o o' : Option (Entry ι S C)} (h : Option.Rel Entry.Fades o o')
    {e' : Entry ι S C} (he' : o' = some e') : ∃ e, o = some e ∧ e.Fades e' := by
  cases h with
  | some hf =>
    cases he'
    exact ⟨_, rfl, hf⟩
  | none => cases he'

theorem Entry.Covers.fades {e e' : Entry ι S C} {s : S} {c : C} (h : e.Covers s c)
    (hf : e.Fades e') : e'.Covers s c := by
  rcases hf.seq with ⟨hseq, hvalid⟩ | ⟨hlt, -⟩
  · rcases h with hnew | ⟨heq, hv, hc⟩
    · exact .inl (hseq ▸ hnew)
    · exact .inr ⟨hseq.trans heq, hvalid.mpr hv, hf.cost ▸ hc⟩
  · rcases h with hnew | ⟨rfl, -, -⟩
    · exact .inl (hnew.trans hlt)
    · exact .inl hlt

/-- What replaces an entry covers what the entry has covered. -/
theorem Entry.Covers.replaced {e : Entry ι S C} {s s' : S} {c c' : C} (h : e.Covers s c)
    (ho : e.Outdated s' c') (next : ι) : Entry.Covers ⟨s', c', next, True⟩ s c := by
  rcases ho with hlt | ⟨rfl, hworse⟩
  · rcases h with hnew | ⟨rfl, -, -⟩
    · exact .inl (hnew.trans hlt)
    · exact .inl hlt
  · rcases h with hnew | ⟨rfl, hv, hc⟩
    · exact .inl hnew
    · rcases hworse with hinv | hless
      · exact absurd hv hinv
      · exact .inr ⟨rfl, trivial, (hless.trans_le hc).le⟩

variable [DecidableEq ι]

theorem Step.covers {N N' : Net ι S C} (h : Step N N') {x d : ι} {s : S} {c : C}
    (hc : N.Covers x d s c) : N'.Covers x d s c := by
  obtain ⟨e, he, hcov⟩ := hc
  cases h with
  | fade y t h =>
    by_cases hy : x = y
    · subst hy
      obtain ⟨e', he', hfade⟩ := fades_some (h d) he
      exact ⟨e', by simpa using he', hcov.fades hfade⟩
    · exact ⟨e, by simpa [Function.update_of_ne hy] using he, hcov⟩
  | take y a _ c' _ _ hnew =>
    by_cases hy : x = y
    · subst hy
      by_cases hd : d = a.dest
      · subst hd
        exact ⟨_, by simp, hcov.replaced (hnew e he) a.sender⟩
      · exact ⟨e, by simpa [Function.update_of_ne hd] using he, hcov⟩
    · exact ⟨e, by simpa [Function.update_of_ne hy] using he, hcov⟩
  | announce => exact ⟨e, he, hcov⟩

theorem Step.backs {N N' : Net ι S C} (h : Step N N') {a : Advert ι S C} (ha : N.Backs a) :
    N'.Backs a :=
  ha.imp_right h.covers

/-- A table that ages behind a route just taken over. -/
theorem Steps.takeFade {N : Net ι S C} {x : ι} {a : Advert ι S C} (ha : a ∈ N.adverts) {c : C}
    (hc : a.cost < c) (hx : x ≠ a.dest)
    (hnew : ∀ e, N.table x a.dest = some e → e.Outdated a.seq c) {t : ι → Option (Entry ι S C)}
    (ht : ∀ d, Option.Rel Entry.Fades
      (Function.update (N.table x) a.dest (some ⟨a.seq, c, a.sender, True⟩) d) (t d)) :
    Steps N { N with table := Function.update N.table x t } := by
  refine .tail (.single (.take x a ha c hc hx hnew)) ?_
  have hfade : ∀ M : Net ι S C, (∀ d, Option.Rel Entry.Fades (M.table x d) (t d)) →
      Step M { M with table := Function.update M.table x t } := fun M h => .fade x t h
  have hlast := hfade ⟨Function.update N.table x (Function.update (N.table x) a.dest
    (some ⟨a.seq, c, a.sender, True⟩)), N.adverts⟩ fun d => by simpa using ht d
  rwa [Function.update_idem] at hlast

/-! ## The invariant -/

/-- No node routes to itself, the next hop of a route is its destination or has a better route,
and every announcement is backed by its sender. -/
structure Net.Sound (N : Net ι S C) : Prop where
  own : ∀ d, N.table d d = none
  route : ∀ x d e, N.table x d = some e → e.valid →
    e.next = d ∨ ∃ c, c < e.cost ∧ N.Covers e.next d e.seq c
  advert : ∀ a ∈ N.adverts, N.Backs a

omit [DecidableEq ι] in
theorem empty_sound : (Net.empty : Net ι S C).Sound :=
  ⟨fun _ => rfl, fun _ _ _ he => (Option.some_ne_none _ he.symm).elim, fun _ ha => ha.elim⟩

theorem Step.sound {N N' : Net ι S C} (h : Step N N') (hs : N.Sound) : N'.Sound := by
  have hroute : ∀ e : Entry ι S C, ∀ d,
      (e.next = d ∨ ∃ c, c < e.cost ∧ N.Covers e.next d e.seq c) →
      e.next = d ∨ ∃ c, c < e.cost ∧ N'.Covers e.next d e.seq c := by
    rintro e d (hd | ⟨c, hc, hcov⟩)
    · exact .inl hd
    · exact .inr ⟨c, hc, h.covers hcov⟩
  cases h with
  | fade x t h =>
    refine ⟨fun d => ?_, fun y d e he hv => hroute e d ?_,
      fun a ha => (Step.fade x t h).backs (hs.advert a ha)⟩
    · by_cases hd : d = x
      · subst hd
        have hnone : t d = none := by
          by_contra hsome
          obtain ⟨e, he⟩ := Option.ne_none_iff_exists'.mp hsome
          obtain ⟨e₀, he₀, -⟩ := some_fades (h d) he
          cases (hs.own d).symm.trans he₀
        simpa using hnone
      · simpa [Function.update_of_ne hd] using hs.own d
    · by_cases hy : y = x
      · subst hy
        obtain ⟨e₀, hold, hfade⟩ := some_fades (h d) (by simpa using he)
        rcases hfade.seq with ⟨hseq, hvalid⟩ | ⟨-, hinv⟩
        · rw [hfade.next, hfade.cost, hseq]
          exact hs.route y d e₀ hold (hvalid.mp hv)
        · exact absurd hv hinv
      · exact hs.route y d e (by simpa [Function.update_of_ne hy] using he) hv
  | take x a ha c hc hx hnew =>
    refine ⟨fun d => ?_, fun y d e he hv => hroute e d ?_,
      fun b hb => (Step.take x a ha c hc hx hnew).backs (hs.advert b hb)⟩
    · by_cases hd : d = x
      · subst hd
        simpa [Function.update_of_ne hx] using hs.own d
      · simpa [Function.update_of_ne hd] using hs.own d
    · by_cases hy : y = x
      · subst hy
        by_cases hd : d = a.dest
        · subst hd
          have hentry : e = ⟨a.seq, c, a.sender, True⟩ := by simpa using he.symm
          subst hentry
          exact (hs.advert a ha).imp_right fun hcov => ⟨a.cost, hc, hcov⟩
        · exact hs.route y d e (by simpa [Function.update_of_ne hd] using he) hv
      · exact hs.route y d e (by simpa [Function.update_of_ne hy] using he) hv
  | announce A hA =>
    exact ⟨hs.own, hs.route, fun a ha => (hA a ha).elim (hs.advert a) id⟩

theorem Steps.sound {N N' : Net ι S C} (h : Steps N N') (hs : N.Sound) : N'.Sound := by
  induction h with
  | refl => exact hs
  | tail _ hstep ih => exact hstep.sound ih

/-! ## No loops -/

/-- A route to `d` further from it: an older number, or the same number and a larger cost. -/
def Entry.Behind (e e' : Entry ι S C) : Prop := e.seq < e'.seq ∨ (e.seq = e'.seq ∧ e'.cost < e.cost)

omit [DecidableEq ι]

theorem Entry.Behind.trans {e e' e'' : Entry ι S C} (h : e.Behind e') (h' : e'.Behind e'') :
    e.Behind e'' := by
  rcases h with hlt | ⟨heq, hc⟩
  · rcases h' with hlt' | ⟨heq', -⟩
    · exact .inl (hlt.trans hlt')
    · exact .inl (heq' ▸ hlt)
  · rcases h' with hlt' | ⟨heq', hc'⟩
    · exact .inl (heq ▸ hlt')
    · exact .inr ⟨heq.trans heq', hc'.trans hc⟩

theorem Entry.Behind.irrefl (e : Entry ι S C) : ¬ e.Behind e := by
  rintro (hlt | ⟨-, hlt⟩)
  · exact lt_irrefl _ hlt
  · exact lt_irrefl _ hlt

/-- The next hop on the way is closer. -/
theorem Net.Sound.behind_next {N : Net ι S C} (h : N.Sound) {d x : ι} {e e' : Entry ι S C}
    (he : N.table x d = some e) (hv : e.valid) (he' : N.table e.next d = some e') :
    e.Behind e' := by
  rcases h.route x d e he hv with hd | ⟨c, hc, e₁, he₁, hcov⟩
  · rw [hd, h.own d] at he'
    cases he'
  · cases he'.symm.trans he₁
    rcases hcov with hnew | ⟨heq, -, hle⟩
    · exact .inl hnew
    · exact .inr ⟨heq.symm, hle.trans_lt hc⟩

theorem Net.Sound.behind {N : Net ι S C} (h : N.Sound) {d x y : ι}
    (hp : Relation.TransGen (N.Forwards d) x y) {e e' : Entry ι S C} (he : N.table x d = some e)
    (he' : N.table y d = some e') : e.Behind e' := by
  induction hp generalizing e' with
  | single hxy =>
    obtain ⟨e₁, he₁, hv, rfl⟩ := hxy
    cases he.symm.trans he₁
    exact h.behind_next he hv he'
  | tail _ hyz ih =>
    obtain ⟨e₁, he₁, hv, rfl⟩ := hyz
    exact (ih he₁).trans (h.behind_next he₁ hv he')

theorem Net.Sound.acyclic {N : Net ι S C} (h : N.Sound) (d x : ι) :
    ¬ Relation.TransGen (N.Forwards d) x x := by
  intro hp
  obtain ⟨y, ⟨e, he, -, -⟩, -⟩ := Relation.TransGen.head'_iff.mp hp
  exact Entry.Behind.irrefl e (h.behind hp he he)

/-- A walk along a relation without cycles does not meet a node twice. -/
theorem nodup_of_isChain {R : ι → ι → Prop} (hR : ∀ x, ¬ Relation.TransGen R x x) {l : List ι}
    (hl : l.IsChain R) : l.Nodup := by
  have hpair : l.Pairwise (Relation.TransGen R) :=
    List.isChain_iff_pairwise.mp (hl.imp fun _ _ => Relation.TransGen.single)
  refine hpair.imp fun {x y} hxy heq => ?_
  subst heq
  exact hR x hxy

theorem Net.Sound.nodup {N : Net ι S C} (h : N.Sound) (d : ι) {l : List ι}
    (hl : l.IsChain (N.Forwards d)) : l.Nodup :=
  nodup_of_isChain (h.acyclic d) hl

end Order

end DistanceVector

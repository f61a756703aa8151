import Mathlib.Data.List.Basic

/-! # Messages held across calls

A walk assembles a message in a buffer. On its way it calls code that may use the same buffer for
messages of its own. -/

/-- For each item the code `enter` runs, unless the item is passed over, and then the walk writes:
`note` is what happens to the state, `write` what the message should become. Code that `spoils` the
buffer leaves a `foreign` message in it, one that the walk never writes. -/
structure HeldMessage (σ α β : Type*) where
  ok : σ → Prop
  buf : σ → β
  made : σ → Bool
  enter : α → σ → Option σ
  note : α → σ → σ
  write : α → σ → Option β → Option β
  foreign : β → Prop
  spoils : α → σ → Prop
  enter_ok : ∀ {a s s'}, ok s → enter a s = some s' → ok s'
  enter_made : ∀ {a s s'}, enter a s = some s' → made s' = made s
  enter_buf : ∀ {a s s'}, ok s → enter a s = some s' → ¬ spoils a s → buf s' = buf s
  enter_foreign : ∀ {a s s'}, ok s → enter a s = some s' → spoils a s → foreign (buf s')
  note_ok : ∀ {a s}, ok s → ok (note a s)
  note_made : ∀ {a s m}, made s = m.isSome → made (note a s) = (write a s m).isSome
  note_buf : ∀ {a s m}, made s = m.isSome → (∀ b, m = some b → buf s = b) →
    ∀ b, write a s m = some b → buf (note a s) = b
  note_foreign : ∀ {a s}, made s = true → foreign (buf s) → foreign (buf (note a s))
  write_own : ∀ {a s m}, (∀ b, m = some b → ¬ foreign b) → ∀ b, write a s m = some b → ¬ foreign b
  write_some : ∀ {a s b}, (write a s (some b)).isSome

namespace HeldMessage

variable {σ α β : Type*} (W : HeldMessage σ α β)

def next (s : σ) (a : α) : σ :=
  match W.enter a s with
  | none => s
  | some s' => W.note a s'

/-- The walk beside the message it means to write. -/
def both (p : σ × Option β) (a : α) : σ × Option β :=
  match W.enter a p.1 with
  | none => p
  | some s' => (W.note a s', W.write a s' p.2)

/-- The walk knows whether it has begun a message. -/
structure Paired (p : σ × Option β) : Prop where
  ok : W.ok p.1
  made : W.made p.1 = p.2.isSome
  own : ∀ b, p.2 = some b → ¬ W.foreign b

/-- The buffer holds what the walk has written. -/
def Holds (p : σ × Option β) : Prop := ∀ b, p.2 = some b → W.buf p.1 = b

/-- The code for `a` runs while a message is held, and spoils it. -/
def Interrupts (s : σ) (a : α) : Prop :=
  W.made s = true ∧ (W.enter a s).isSome ∧ W.spoils a s

variable {W} {p : σ × Option β} {a : α}

theorem both_fst (p : σ × Option β) (a : α) : (W.both p a).1 = W.next p.1 a := by
  unfold both next
  cases W.enter a p.1 <;> rfl

theorem foldl_both_fst (p : σ × Option β) (l : List α) :
    (l.foldl W.both p).1 = l.foldl W.next p.1 := by
  induction l generalizing p with
  | nil => rfl
  | cons a l ih => rw [List.foldl_cons, List.foldl_cons, ih, both_fst]

/-! ## One item -/

theorem Paired.step (h : W.Paired p) : W.Paired (W.both p a) := by
  unfold both
  cases henter : W.enter a p.1 with
  | none => exact h
  | some s' =>
    exact ⟨W.note_ok (W.enter_ok h.ok henter),
      W.note_made ((W.enter_made henter).trans h.made), W.write_own h.own⟩

theorem Paired.foldl (h : W.Paired p) (l : List α) : W.Paired (l.foldl W.both p) := by
  induction l generalizing p with
  | nil => exact h
  | cons a l ih => exact ih h.step

theorem Holds.step (hp : W.Paired p) (h : W.Holds p) (hk : ¬ W.Interrupts p.1 a) :
    W.Holds (W.both p a) := by
  unfold both
  cases henter : W.enter a p.1 with
  | none => exact h
  | some s' =>
    refine W.note_buf ((W.enter_made henter).trans hp.made) fun b hb => ?_
    have hmade : W.made p.1 = true := by
      rw [hp.made, hb]
      rfl
    rw [W.enter_buf hp.ok henter fun hs => hk ⟨hmade, by rw [henter]; rfl, hs⟩]
    exact h b hb

/-- A foreign message under the hands of the walk stays one. -/
theorem foreign_step (hp : W.Paired p) (hsome : p.2.isSome) (hf : W.foreign (W.buf p.1)) :
    (W.both p a).2.isSome ∧ W.foreign (W.buf (W.both p a).1) := by
  unfold both
  cases henter : W.enter a p.1 with
  | none => exact ⟨hsome, hf⟩
  | some s' =>
    have hmade : W.made s' = true := (W.enter_made henter).trans (hp.made.trans hsome)
    have hf' : W.foreign (W.buf s') := by
      by_cases hs : W.spoils a p.1
      · exact W.enter_foreign hp.ok henter hs
      · rw [W.enter_buf hp.ok henter hs]
        exact hf
    obtain ⟨b, hb⟩ := Option.isSome_iff_exists.mp hsome
    rw [hb]
    exact ⟨W.write_some, W.note_foreign hmade hf'⟩

theorem foreign_foldl (hp : W.Paired p) (hsome : p.2.isSome) (hf : W.foreign (W.buf p.1))
    (l : List α) : ¬ W.Holds (l.foldl W.both p) := by
  induction l generalizing p with
  | nil =>
    intro h
    obtain ⟨b, hb⟩ := Option.isSome_iff_exists.mp hsome
    exact hp.own b hb (h b hb ▸ hf)
  | cons a l ih =>
    obtain ⟨hsome', hf'⟩ := foreign_step (a := a) hp hsome hf
    exact ih hp.step hsome' hf'

/-- A message once spoilt is not repaired by the rest of the walk. -/
theorem not_interrupts_of_holds (hp : W.Paired p) {l : List α}
    (hend : W.Holds (l.foldl W.both (W.both p a))) : ¬ W.Interrupts p.1 a := by
  rintro ⟨hmade, hsome, hs⟩
  obtain ⟨s', henter⟩ := Option.isSome_iff_exists.mp hsome
  obtain ⟨b, hb⟩ := Option.isSome_iff_exists.mp (hp.made.symm.trans hmade)
  have hboth : W.both p a = (W.note a s', W.write a s' (some b)) := by
    unfold both
    rw [henter, hb]
  have hf := W.note_foreign (a := a) ((W.enter_made henter).trans hmade)
    (W.enter_foreign hp.ok henter hs)
  refine absurd hend (foreign_foldl hp.step ?_ ?_ l)
  · rw [hboth]
    exact W.write_some
  · rw [hboth]
    exact hf

/-! ## The walk -/

/-- The walk ends with its own message if and only if no code that ran while it held one spoilt
it. -/
theorem holds_foldl_iff (hp : W.Paired p) (h : W.Holds p) (l : List α) :
    W.Holds (l.foldl W.both p) ↔
      ∀ l₁ a l₂, l = l₁ ++ a :: l₂ → ¬ W.Interrupts (l₁.foldl W.next p.1) a := by
  induction l generalizing p with
  | nil => exact ⟨fun _ l₁ a l₂ heq => absurd heq (by simp), fun _ => h⟩
  | cons a l ih =>
    rw [List.foldl_cons]
    constructor
    · intro hend l₁ b l₂ heq
      have hkeep := not_interrupts_of_holds hp hend
      cases l₁ with
      | nil =>
        obtain ⟨rfl, -⟩ := List.cons.inj heq
        exact hkeep
      | cons x l₁ =>
        obtain ⟨rfl, rfl⟩ := List.cons.inj heq
        rw [List.foldl_cons, ← both_fst]
        exact (ih hp.step (Holds.step hp h hkeep)).mp hend l₁ b l₂ rfl
    · intro hall
      refine (ih hp.step (Holds.step hp h (hall [] a l rfl))).mpr fun l₁ b l₂ heq => ?_
      have hkeep := hall (a :: l₁) b l₂ (by rw [heq]; rfl)
      rwa [List.foldl_cons, ← both_fst] at hkeep

end HeldMessage

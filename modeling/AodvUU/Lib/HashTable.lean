import Mathlib.Data.List.FinRange
import Mathlib.Data.List.Nodup
import Mathlib.Data.List.Perm.Basic
import Mathlib.Algebra.BigOperators.Fin

/-! # Chained hash tables

A table of `m` buckets whose elements carry their own key. The abstract value of a
well-formed table is the partial map `lookup`; each operation is described by its effect
on that map and on the number of elements that satisfy a test. -/
namespace HashTable

variable {κ α : Type*} [DecidableEq κ] {m : ℕ}

abbrev Buckets (m : ℕ) (α : Type*) := Fin m → List α

/-- All elements, bucket by bucket. -/
def entries (t : Buckets m α) : List α := (List.finRange m).flatMap t

def count (p : α → Bool) (t : Buckets m α) : ℕ := (entries t).countP p

def lookup (key : α → κ) (hash : κ → Fin m) (t : Buckets m α) (k : κ) : Option α :=
  (t (hash k)).find? (fun a => key a = k)

/-- A new element goes to the head of its bucket. -/
def insert (key : α → κ) (hash : κ → Fin m) (t : Buckets m α) (a : α) : Buckets m α :=
  Function.update t (hash (key a)) (a :: t (hash (key a)))

def adjust (key : α → κ) (t : Buckets m α) (k : κ) (f : α → α) : Buckets m α :=
  fun i => (t i).map (fun a => if key a = k then f a else a)

def erase (key : α → κ) (t : Buckets m α) (k : κ) : Buckets m α :=
  fun i => (t i).filter (fun a => key a ≠ k)

structure WellFormed (key : α → κ) (hash : κ → Fin m) (t : Buckets m α) : Prop where
  bucket : ∀ i, ∀ a ∈ t i, hash (key a) = i
  nodup : ∀ i, ((t i).map key).Nodup

variable {key : α → κ} {hash : κ → Fin m} {t : Buckets m α} {a b : α} {k l : κ} {f : α → α}

@[simp] theorem mem_entries : a ∈ entries t ↔ ∃ i, a ∈ t i := by
  simp [entries]

omit [DecidableEq κ] in
theorem wellFormed_empty : WellFormed key hash (fun _ => [] : Buckets m α) :=
  ⟨by simp, by simp⟩

omit [DecidableEq κ] in
theorem WellFormed.key_injective (h : WellFormed key hash t) (ha : a ∈ entries t)
    (hb : b ∈ entries t) (hk : key a = key b) : a = b := by
  obtain ⟨i, ha⟩ := mem_entries.mp ha
  obtain ⟨j, hb⟩ := mem_entries.mp hb
  have hij : i = j := by rw [← h.bucket i a ha, ← h.bucket j b hb, hk]
  subst j
  exact List.inj_on_of_nodup_map (h.nodup i) ha hb hk

theorem WellFormed.lookup_eq_some (h : WellFormed key hash t) :
    lookup key hash t k = some a ↔ a ∈ entries t ∧ key a = k := by
  constructor
  · intro hl
    have hk := List.find?_some hl
    exact ⟨mem_entries.mpr ⟨_, List.mem_of_find?_eq_some hl⟩, by simpa using hk⟩
  · rintro ⟨ha, rfl⟩
    cases hl : lookup key hash t (key a) with
    | none =>
      obtain ⟨i, hi⟩ := mem_entries.mp ha
      have hm := List.find?_eq_none.mp hl a (by rwa [h.bucket i a hi])
      simp at hm
    | some b =>
      have hk := List.find?_some hl
      have hb : b ∈ entries t := mem_entries.mpr ⟨_, List.mem_of_find?_eq_some hl⟩
      rw [h.key_injective hb ha (by simpa using hk)]

theorem WellFormed.lookup_eq_none (h : WellFormed key hash t) :
    lookup key hash t k = none ↔ ∀ a ∈ entries t, key a ≠ k := by
  rw [← Option.not_isSome_iff_eq_none, Option.isSome_iff_exists]
  simp only [h.lookup_eq_some, not_exists, not_and, ne_eq]

omit [DecidableEq κ] in
theorem WellFormed.nodup_entries (h : WellFormed key hash t) : ((entries t).map key).Nodup := by
  rw [entries, List.map_flatMap, List.nodup_flatMap]
  refine ⟨fun i _ => h.nodup i, ?_⟩
  refine (List.nodup_finRange m).imp fun hij k hi hj => ?_
  obtain ⟨a, ha, rfl⟩ := List.mem_map.mp hi
  obtain ⟨b, hb, hk⟩ := List.mem_map.mp hj
  exact hij (by rw [← h.bucket _ a ha, ← h.bucket _ b hb, hk])

/-! ## What the operations do to the map -/

theorem WellFormed.insert (h : WellFormed key hash t)
    (hn : lookup key hash t (key a) = none) : WellFormed key hash (insert key hash t a) := by
  have hnew : ∀ b ∈ t (hash (key a)), key b ≠ key a := fun b hb =>
    h.lookup_eq_none.mp hn b (mem_entries.mpr ⟨_, hb⟩)
  constructor
  · intro i b hb
    by_cases hi : i = hash (key a)
    · subst hi
      simp only [HashTable.insert, Function.update_self, List.mem_cons] at hb
      rcases hb with rfl | hb
      · rfl
      · exact h.bucket _ b hb
    · simp only [HashTable.insert, Function.update_of_ne hi] at hb
      exact h.bucket i b hb
  · intro i
    by_cases hi : i = hash (key a)
    · subst hi
      simp only [HashTable.insert, Function.update_self, List.map_cons, List.nodup_cons]
      refine ⟨?_, h.nodup _⟩
      simpa using hnew
    · simpa only [HashTable.insert, Function.update_of_ne hi] using h.nodup i

theorem lookup_insert (t : Buckets m α) (a : α) (k : κ) :
    lookup key hash (insert key hash t a) k =
      if key a = k then some a else lookup key hash t k := by
  by_cases hk : key a = k
  · subst hk
    simp [lookup, insert]
  · by_cases hi : hash k = hash (key a)
    · simp [lookup, insert, hi, hk]
    · simp [lookup, insert, Function.update_of_ne hi, hk]

theorem map_key_adjust (hf : ∀ a, key a = k → key (f a) = k) (l : List α) :
    (l.map (fun a => if key a = k then f a else a)).map key = l.map key := by
  rw [List.map_map]
  refine List.map_congr_left fun a _ => ?_
  by_cases ha : key a = k
  · simp [ha, hf a ha]
  · simp [ha]

theorem mem_adjust : b ∈ entries (adjust key t k f) ↔
    ∃ a ∈ entries t, b = if key a = k then f a else a := by
  simp only [mem_entries, adjust, List.mem_map]
  constructor
  · rintro ⟨i, a, ha, rfl⟩
    exact ⟨a, ⟨i, ha⟩, rfl⟩
  · rintro ⟨a, ⟨i, ha⟩, rfl⟩
    exact ⟨i, a, ha, rfl⟩

/-- A test that fails on the adjusted element, before and after, does not see the change. -/
theorem filter_entries_adjust (p : α → Bool)
    (hp : ∀ a, key a = k → p a = false ∧ p (f a) = false) :
    (entries (adjust key t k f)).filter p = (entries t).filter p := by
  have hmap : entries (adjust key t k f) =
      (entries t).map fun a => if key a = k then f a else a := by
    unfold entries adjust
    rw [List.map_flatMap]
  rw [hmap, List.filter_map]
  have hfilter : (entries t).filter (p ∘ fun a => if key a = k then f a else a) =
      (entries t).filter p := by
    refine List.filter_congr fun a _ => ?_
    by_cases hk : key a = k
    · simp [hk, hp a hk]
    · simp [hk]
  rw [hfilter]
  refine (List.map_congr_left fun a ha => ?_).trans (List.map_id _)
  have hk : key a ≠ k := by
    intro hk
    have hpa := (List.mem_filter.mp ha).2
    rw [(hp a hk).1] at hpa
    cases hpa
  exact if_neg hk

theorem WellFormed.adjust (h : WellFormed key hash t) (hf : ∀ a, key a = k → key (f a) = k) :
    WellFormed key hash (adjust key t k f) := by
  constructor
  · intro i b hb
    obtain ⟨a, ha, rfl⟩ := List.mem_map.mp hb
    rw [← h.bucket i a ha]
    by_cases hk : key a = k
    · simp [hk, hf a hk]
    · simp [hk]
  · intro i
    rw [HashTable.adjust, map_key_adjust hf]
    exact h.nodup i

theorem lookup_adjust (hf : ∀ a, key a = k → key (f a) = k) :
    lookup key hash (adjust key t k f) l =
      if k = l then (lookup key hash t l).map f else lookup key hash t l := by
  have hkey : ∀ a, key (if key a = k then f a else a) = key a := by
    intro a
    by_cases ha : key a = k
    · simp [ha, hf a ha]
    · simp [ha]
  simp only [lookup, adjust, List.find?_map, Function.comp_def, hkey]
  cases hl : (t (hash l)).find? (fun a => decide (key a = l)) with
  | none => simp
  | some a =>
    have ha : key a = l := by simpa using List.find?_some hl
    by_cases hk : k = l
    · simp [hk, ha]
    · simp [hk, ha, Ne.symm hk]

theorem mem_erase : b ∈ entries (erase key t k) ↔ b ∈ entries t ∧ key b ≠ k := by
  simp [erase]

theorem WellFormed.erase (h : WellFormed key hash t) :
    WellFormed key hash (erase key t k) := by
  constructor
  · intro i b hb
    exact h.bucket i b (List.mem_filter.mp hb).1
  · intro i
    exact (h.nodup i).sublist (List.filter_sublist.map key)

theorem lookup_erase (t : Buckets m α) (k l : κ) : lookup key hash (erase key t k) l =
    if k = l then none else lookup key hash t l := by
  simp only [lookup, erase, List.find?_filter]
  by_cases hk : k = l
  · subst hk
    simp
  · rw [if_neg hk]
    congr 1
    funext a
    by_cases ha : key a = l
    · simp [ha, Ne.symm hk]
    · simp [ha]

/-! ## The order inside the buckets -/

omit [DecidableEq κ] in
theorem entries_perm {t' : Buckets m α} (hp : ∀ i, (t' i).Perm (t i)) :
    (entries t').Perm (entries t) :=
  List.Perm.flatMap_left _ fun i _ => hp i

omit [DecidableEq κ] in
theorem WellFormed.perm {t' : Buckets m α} (h : WellFormed key hash t)
    (hp : ∀ i, (t' i).Perm (t i)) : WellFormed key hash t' := by
  constructor
  · intro i a ha
    exact h.bucket i a ((hp i).mem_iff.mp ha)
  · intro i
    exact (((hp i).map key).nodup_iff).mpr (h.nodup i)

/-- The map that a table stands for does not depend on the order. -/
theorem WellFormed.lookup_perm {t' : Buckets m α} (h : WellFormed key hash t)
    (hp : ∀ i, (t' i).Perm (t i)) (k : κ) : lookup key hash t' k = lookup key hash t k := by
  apply Option.ext
  intro a
  rw [(h.perm hp).lookup_eq_some, h.lookup_eq_some, (entries_perm hp).mem_iff]

/-! ## Counting -/

theorem count_eq_sum (p : α → Bool) (t : Buckets m α) : count p t = ∑ i, (t i).countP p := by
  rw [count, entries, List.countP_flatMap, Fin.sum_univ_def]
  rfl

theorem length_entries (t : Buckets m α) : (entries t).length = count (fun _ => true) t := by
  simp [count]

omit [DecidableEq κ] in
theorem count_insert (p : α → Bool) (t : Buckets m α) (a : α) :
    count p (insert key hash t a) = count p t + (if p a then 1 else 0) := by
  simp only [count_eq_sum, insert]
  rw [← Finset.add_sum_erase _ _ (Finset.mem_univ (hash (key a))),
    ← Finset.add_sum_erase _ (fun i => (t i).countP p) (Finset.mem_univ (hash (key a)))]
  have hrest : ∑ i ∈ Finset.univ.erase (hash (key a)),
      (Function.update t (hash (key a)) (a :: t (hash (key a))) i).countP p =
      ∑ i ∈ Finset.univ.erase (hash (key a)), (t i).countP p :=
    Finset.sum_congr rfl fun i hi => by rw [Function.update_of_ne (Finset.ne_of_mem_erase hi)]
  rw [hrest, Function.update_self, List.countP_cons]
  omega

theorem count_adjust_of_eq (p : α → Bool) (hp : ∀ a ∈ entries t, key a = k → p (f a) = p a) :
    count p (adjust key t k f) = count p t := by
  simp only [count_eq_sum, adjust, List.countP_map]
  refine Finset.sum_congr rfl fun i _ => List.countP_congr fun a ha => ?_
  by_cases hk : key a = k
  · simp [hk, hp a (mem_entries.mpr ⟨i, ha⟩) hk]
  · simp [hk]

/-- A bucket without repeated keys holds one element for each of its keys. -/
theorem filter_key_eq_singleton {l : List α} (hn : (l.map key).Nodup) (ha : a ∈ l) :
    l.filter (fun b => key b = key a) = [a] := by
  induction l with
  | nil => simp at ha
  | cons b l ih =>
    obtain ⟨hb, hn⟩ := List.nodup_cons.mp hn
    rcases List.mem_cons.mp ha with rfl | ha
    · have hrest : ∀ c ∈ l, ¬ decide (key c = key a) = true := by
        intro c hc he
        exact hb (List.mem_map.mpr ⟨c, hc, by simpa using he⟩)
      rw [List.filter_cons_of_pos (by simp), List.filter_eq_nil_iff.mpr hrest]
    · have hba : key b ≠ key a := fun e => hb (e ▸ List.mem_map_of_mem ha)
      rw [List.filter_cons_of_neg (by simpa using hba), ih hn ha]

/-- In a well-formed table the rest of the elements is what is left after an erasure, so
every count splits at the element found. -/
theorem WellFormed.count_erase (h : WellFormed key hash t) (p : α → Bool)
    (hl : lookup key hash t k = some a) :
    count p t = count p (HashTable.erase key t k) + (if p a then 1 else 0) := by
  obtain ⟨ha, rfl⟩ := h.lookup_eq_some.mp hl
  obtain ⟨i, hi⟩ := mem_entries.mp ha
  have hsplit : ∀ j, (t j).countP p = (HashTable.erase key t (key a) j).countP p +
      (if j = i then (if p a then 1 else 0) else 0) := by
    intro j
    rw [List.countP_eq_countP_filter_add (t j) p (fun b => decide (key b ≠ key a))]
    congr 1
    simp only [ne_eq, decide_not, Bool.not_not]
    by_cases hj : j = i
    · subst hj
      rw [if_pos rfl, filter_key_eq_singleton (h.nodup j) hi]
      simp [List.countP_cons]
    · rw [if_neg hj, List.countP_eq_zero]
      intro b hb hpb
      obtain ⟨hb, hk⟩ := List.mem_filter.mp hb
      have hk : key b = key a := by simpa using hk
      exact hj (by rw [← h.bucket j b hb, hk, h.bucket i a hi])
  rw [count_eq_sum, count_eq_sum, Finset.sum_congr rfl fun j _ => hsplit j,
    Finset.sum_add_distrib]
  simp

/-- Adjusting the element found changes a count by what that one element contributes. -/
theorem WellFormed.count_adjust (h : WellFormed key hash t) (p : α → Bool)
    (hf : ∀ a, key a = k → key (f a) = k) (hl : lookup key hash t k = some a) :
    count p (HashTable.adjust key t k f) + (if p a then 1 else 0) =
      count p t + (if p (f a) then 1 else 0) := by
  have herase : HashTable.erase key (HashTable.adjust key t k f) k = HashTable.erase key t k := by
    funext i
    simp only [HashTable.erase, HashTable.adjust, List.filter_map]
    have hkey : ∀ b, decide (key (if key b = k then f b else b) ≠ k) = decide (key b ≠ k) := by
      intro b
      by_cases hb : key b = k
      · simp [hb, hf b hb]
      · simp [hb]
    simp only [Function.comp_def, hkey]
    have hid : ∀ b ∈ (t i).filter (fun b => key b ≠ k), (if key b = k then f b else b) = id b := by
      intro b hb
      exact if_neg (by simpa using (List.mem_filter.mp hb).2)
    rw [List.map_congr_left hid, List.map_id]
  have h1 := h.count_erase p hl
  have hnew : lookup key hash (HashTable.adjust key t k f) k = some (f a) := by
    rw [lookup_adjust hf, if_pos rfl, hl]
    rfl
  have h2 := (h.adjust hf).count_erase p hnew
  rw [herase] at h2
  omega

end HashTable

import AodvUU.Neighbor
import Mathlib.Data.List.Find

/-! # The routing table is a map

The invariant of `rt_tbl`, kept by every effect and so by every event. -/
namespace AodvUU

variable {c : Ctx} {s : Scope}

structure RtWf (n : Node) : Prop where
  table : HashTable.WellFormed RtTable.destAddr hashing n.tbl
  hash : ∀ rt ∈ n.entries, rt.hash = rt.destAddr
  numEntries : n.numEntries = n.entries.length
  precursors : ∀ rt ∈ n.entries, rt.PrecWf

/-! ## The lookup function -/

theorem RtWf.rtTableFind_eq_lookup {n : Node} (h : RtWf n) (a : InAddr) :
    rtTableFind n a = n.lookup a := by
  unfold rtTableFind
  split
  · next hzero =>
    have hempty : n.entries = [] := List.length_eq_zero_iff.mp (h.numEntries ▸ hzero)
    exact (h.table.lookup_eq_none.mpr fun rt hrt => by
      rw [show HashTable.entries n.tbl = [] from hempty] at hrt
      cases hrt).symm
  · refine List.find?_congr fun rt hrt => ?_
    simp [h.hash rt (HashTable.mem_entries.mpr ⟨_, hrt⟩)]

theorem RtWf.lookup_eq_some {n : Node} (h : RtWf n) {a : InAddr} {rt : RtTable} :
    n.lookup a = some rt ↔ rt ∈ n.entries ∧ rt.destAddr = a := h.table.lookup_eq_some

theorem RtWf.lookup_eq_none {n : Node} (h : RtWf n) {a : InAddr} :
    n.lookup a = none ↔ ∀ rt ∈ n.entries, rt.destAddr ≠ a := h.table.lookup_eq_none

/-! ## Preservation -/

theorem mem_entries_modRt {n : Node} {a : InAddr} {f : RtTable → RtTable} {rt : RtTable}
    (h : rt ∈ (n.modRt a f).entries) : ∃ rt' ∈ n.entries, rt = rt' ∨ rt = f rt' := by
  obtain ⟨rt', hrt', rfl⟩ := HashTable.mem_adjust.mp h
  exact ⟨rt', hrt', by split <;> simp⟩

theorem mem_entries_storeEntry {n : Node} {rt rt' : RtTable}
    (h : rt' ∈ (storeEntry rt n).entries) : rt' = rt ∨ rt' ∈ n.entries := by
  obtain ⟨i, hi⟩ := HashTable.mem_entries.mp h
  by_cases hb : i = hashing rt.destAddr
  · subst hb
    simp only [storeEntry, HashTable.insert, Function.update_self, List.mem_cons] at hi
    exact hi.imp id fun hi => HashTable.mem_entries.mpr ⟨_, hi⟩
  · simp only [storeEntry, HashTable.insert, Function.update_of_ne hb] at hi
    exact Or.inr (HashTable.mem_entries.mpr ⟨_, hi⟩)

theorem RtWf.of_table {n n' : Node} (h : RtWf n) (ht : n'.tbl = n.tbl)
    (he : n'.numEntries = n.numEntries) : RtWf n' := by
  have hent : n'.entries = n.entries := congrArg HashTable.entries ht
  exact ⟨ht ▸ h.table, hent ▸ h.hash, by rw [he, hent, h.numEntries], hent ▸ h.precursors⟩

theorem RtWf.modRt {n : Node} (h : RtWf n) (a : InAddr) {f : RtTable → RtTable}
    (hd : ∀ rt, (f rt).destAddr = rt.destAddr) (hh : ∀ rt, (f rt).hash = rt.hash)
    (hp : ∀ rt, rt.PrecWf → (f rt).PrecWf) : RtWf (n.modRt a f) := by
  refine ⟨h.table.adjust fun rt hrt => (hd rt).trans hrt, ?_, ?_, ?_⟩
  · intro rt hrt
    obtain ⟨rt', hrt', rfl | rfl⟩ := mem_entries_modRt hrt
    · exact h.hash _ hrt'
    · rw [hh, hd, h.hash _ hrt']
  · have hlen : (n.modRt a f).entries.length = n.entries.length := by
      unfold Node.entries
      rw [HashTable.length_entries, HashTable.length_entries]
      exact HashTable.count_adjust_of_eq _ fun _ _ _ => rfl
    rw [hlen, ← h.numEntries]
    rfl
  · intro rt hrt
    obtain ⟨rt', hrt', rfl | rfl⟩ := mem_entries_modRt hrt
    · exact h.precursors _ hrt'
    · exact hp _ (h.precursors _ hrt')

theorem RtWf.rtTableInvalidate {n : Node} (h : RtWf n) (a : InAddr) :
    RtWf (rtTableInvalidate c a n) := by
  unfold AodvUU.rtTableInvalidate
  split
  · exact h
  · split
    · exact h
    · have hmod : RtWf (n.modRt a (·.invalidated c)) :=
        h.modRt a (fun _ => rfl) (fun _ => rfl) (fun _ hp => hp)
      exact hmod.of_table rfl rfl

theorem RtWf.rtTableDelete {n : Node} (h : RtWf n) (a : InAddr) : RtWf (rtTableDelete a n) := by
  unfold AodvUU.rtTableDelete
  split
  · exact h
  · next rt hrt =>
    have hmem : ∀ rt ∈ HashTable.entries (HashTable.erase RtTable.destAddr n.tbl a),
        rt ∈ n.entries := fun rt hrt => (HashTable.mem_erase.mp hrt).1
    refine ⟨h.table.erase, fun rt hrt => h.hash rt (hmem rt hrt), ?_,
      fun rt hrt => h.precursors rt (hmem rt hrt)⟩
    have hcount := h.table.count_erase (fun _ => true) hrt
    have hnum := h.numEntries
    unfold Node.entries at hnum ⊢
    rw [HashTable.length_entries] at hnum ⊢
    simp only [if_true] at hcount
    dsimp only
    omega

theorem RtWf.storeEntry {n : Node} (h : RtWf n) {rt : RtTable} (hash : rt.hash = rt.destAddr)
    (prec : rt.nprec = 0 ∧ rt.precursors = []) (absent : n.lookup rt.destAddr = none) :
    RtWf (storeEntry rt n) := by
  refine ⟨h.table.insert absent, ?_, ?_, ?_⟩
  · intro rt' hrt'
    rcases mem_entries_storeEntry hrt' with rfl | hrt'
    · exact hash
    · exact h.hash rt' hrt'
  · have hnum := h.numEntries
    unfold Node.entries at hnum ⊢
    rw [HashTable.length_entries] at hnum ⊢
    simp [AodvUU.storeEntry, HashTable.count_insert, hnum]
  · intro rt' hrt'
    rcases mem_entries_storeEntry hrt' with rfl | hrt'
    · exact ⟨by rw [prec.1, prec.2]; rfl, by rw [prec.2]; exact List.nodup_nil⟩
    · exact h.precursors rt' hrt'

/-! ## The writes of an update -/

structure RtTable.SamePlace (rt rt' : RtTable) : Prop where
  destAddr : rt'.destAddr = rt.destAddr
  hash : rt'.hash = rt.hash
  nprec : rt'.nprec = rt.nprec
  precursors : rt'.precursors = rt.precursors

theorem RtTable.write_samePlace (now : Time) (next : InAddr) (hops : BitVec 8)
    (seqno life : BitVec 32) (state : RtState) (flags : BitVec 16) (chan : Option (Int × ℚ))
    (rt : RtTable) : rt.SamePlace (rt.write now next hops seqno life state flags chan) := by
  unfold RtTable.write RtTable.updateTimeout
  constructor <;> dsimp only <;> split_ifs <;> rfl

/-- What an update does apart from the link break in its middle. -/
inductive Rewrite : Node → Node → Prop where
  | entry (n : Node) (a : InAddr) (f : RtTable → RtTable) (h : ∀ rt : RtTable, rt.SamePlace (f rt)) :
      Rewrite n (n.modRt a f)
  | counters (n : Node) (k : BitVec 32) (b : Bool) :
      Rewrite n { n with numActive := k, neighborRerouted := b }

theorem Rewrite.ipaddr {n n' : Node} (h : Rewrite n n') : n'.ipaddr = n.ipaddr := by
  cases h <;> rfl

theorem RtWf.rewrite {n n' : Node} (h : RtWf n) (hr : Rewrite n n') : RtWf n' := by
  cases hr with
  | entry a f hf =>
    refine h.modRt a (fun rt => (hf rt).destAddr) (fun rt => (hf rt).hash) fun rt hp => ?_
    rw [RtTable.PrecWf, (hf rt).nprec, (hf rt).precursors]
    exact hp
  | counters k b => exact h.of_table rfl rfl

def Scope.all : Scope := ⟨True, True, True, True, Rewrite⟩

theorem breakOneHop_effects (hl : c.LinkBreaks s) (a : InAddr) (n : Node) :
    Effects c s n (breakOneHop c a n) := by
  refine (Effects.entry a _ (fun rt => ?_) n).trans (hl a _)
  constructor <;> simp [RtTable.PrecWf]

theorem beforeUpdate_effects (hs : ∀ n n', Rewrite n n' → s.update n n') (hl : c.LinkBreaks s)
    (a : InAddr) (hops : BitVec 8) (state : RtState) (n : Node) :
    Effects c s n (beforeUpdate c a hops state n) := by
  have hcounters : ∀ (n : Node) k b,
      Effects c s n { n with numActive := k, neighborRerouted := b } := fun n k b =>
    .of (.update (hs _ _ (.counters n k b)) rfl)
  have hactive : Effects c s n (if (n.rt a).state = .invalid ∧ state = .valid then
      { n with numActive := n.numActive + 1 } else n) := by
    split
    · exact hcounters n _ n.neighborRerouted
    · exact .refl n
  unfold beforeUpdate
  dsimp only
  split
  · exact (hactive.trans (hcounters _ _ _)).trans (breakOneHop_effects hl a _)
  · exact hactive

theorem updates_of_rewrite (hs : ∀ n n', Rewrite n n' → s.update n n') (hl : c.LinkBreaks s) :
    c.Updates s := by
  intro chan a next hops seqno life flags n _
  have hwrite : Rewrite (beforeUpdate c a hops .valid n) _ :=
    .entry _ a _ (RtTable.write_samePlace c.now next hops seqno life .valid
      (updateFlags (n.rt a) .valid flags) chan)
  exact ((beforeUpdate_effects hs hl a hops .valid n).trans
    (.of (.update (hs _ _ hwrite) hwrite.ipaddr))).trans (flushSeek_effects _ _)

theorem updates_all (hl : c.LinkBreaks .all) : c.Updates .all :=
  updates_of_rewrite (fun _ _ h => h) hl

theorem described_within (hw : s.write) (hs : ∀ n n', Rewrite n n' → s.update n n')
    (log : ℚ → ℚ) (cf : Conf) : (Extern.described log cf).Within s cf where
  linkBreaks env := described_linkBreaks log cf env
  neighborAdds env := described_neighborAdds hw log cf env
    (updates_of_rewrite hs fun a n => neighborLinkBreakDescribed_effects a n)

/-! ## Preservation by events -/

theorem effect_preserves_rtWf {n n' : Node} (h : RtWf n) (he : Effect c .all n n') : RtWf n' := by
  cases he with
  | traffic ht => exact h.of_table ht.tbl ht.numEntries
  | entry a f hf =>
    exact h.modRt a (fun rt => (hf rt).destAddr) (fun rt => (hf rt).hash)
      (fun rt => (hf rt).precursors)
  | invalidate a => exact h.rtTableInvalidate a
  | buffer | incr => exact h.of_table rfl rfl
  | delete hs a => exact h.rtTableDelete a
  | insert hs rt hash prec absent =>
    refine h.storeEntry hash prec ?_
    exact absent.elim (fun ha => (h.rtTableFind_eq_lookup _).symm.trans ha) id
  | setSeqno hs a v => exact h.modRt a (fun _ => rfl) (fun _ => rfl) fun _ hp => hp
  | update hs addr => exact h.rewrite hs
  | raise hs v =>
    exact h.of_table (seqnoRaise_sameTable v n).tbl (seqnoRaise_sameTable v n).numEntries
  | flood hs a v ttl flags | reflood hs a v ttl flags =>
    have hsame : SameTable n (onEachChannel (rreqSendWithChannel c a v ttl flags) n) :=
      flood_sameTable a v ttl flags n
    exact h.of_table hsame.tbl hsame.numEntries

theorem effects_preserve_rtWf {n n' : Node} (h : RtWf n) (he : Effects c .all n n') :
    RtWf n' := by
  induction he with
  | refl => exact h
  | tail _ he ih => exact effect_preserves_rtWf ih he

theorem init_rtWf (a : InAddr) : RtWf (Node.init c a) := by
  have hempty : (Node.init c a).entries = [] := by
    simp [Node.entries, Node.init, HashTable.entries]
  constructor
  · exact HashTable.wellFormed_empty
  · simp [hempty]
  · rw [hempty]
    rfl
  · simp [hempty]

/-! ## Every run -/

variable {cf : Conf} {ext : Extern} {a : InAddr} {n : Node}

theorem step_preserves_rtWf {env : Env} (hext : ext.Within .all cf) (h : RtWf n) (e : Event)
    (recs : List RerrRecord) : RtWf (step ⟨cf, ext, env⟩ e (recs, n)).2 := by
  by_cases hq : ∃ q, e = .ifqueue q
  · obtain ⟨q, rfl⟩ := hq
    exact h.of_table rfl rfl
  · exact effects_preserve_rtWf h (step_effects (hext.linkBreaks env)
      (updates_all (hext.linkBreaks env)) (hext.neighborAdds env) trivial trivial trivial e recs n
      (fun q he => hq ⟨q, he⟩) fun _ _ _ _ _ => trivial)

theorem reachable_rtWf (hext : ext.Within .all cf) (h : Reachable cf ext a n) : RtWf n := by
  induction h with
  | init env => exact init_rtWf a
  | step env recs e _ _ ih => exact step_preserves_rtWf hext ih e recs

/-- In every run the table is a map from destinations to entries, and `rt_table_find` is its
lookup. -/
theorem reachable_table_is_map (hext : ext.Within .all cf) (h : Reachable cf ext a n) :
    (n.entries.map (·.destAddr)).Nodup ∧
    (∀ i, ∀ rt ∈ n.tbl i, (i : ℕ) = (rt.destAddr &&& rtTablemask).toNat ∧
      rt.hash = rt.destAddr) ∧
    n.numEntries = n.entries.length ∧
    (∀ rt ∈ n.entries, rt.nprec = rt.precursors.length ∧ rt.precursors.Nodup) ∧
    (∀ d rt, rtTableFind n d = some rt ↔ rt ∈ n.entries ∧ rt.destAddr = d) ∧
    (∀ d, rtTableFind n d = none ↔ ∀ rt ∈ n.entries, rt.destAddr ≠ d) := by
  have hwf := reachable_rtWf hext h
  refine ⟨hwf.table.nodup_entries, fun i rt hrt => ⟨?_, ?_⟩, hwf.numEntries, hwf.precursors,
    fun d rt => ?_, fun d => ?_⟩
  · rw [← hwf.table.bucket i rt hrt]
    rfl
  · exact hwf.hash rt (HashTable.mem_entries.mpr ⟨i, hrt⟩)
  · rw [hwf.rtTableFind_eq_lookup, hwf.lookup_eq_some]
  · rw [hwf.rtTableFind_eq_lookup, hwf.lookup_eq_none]

/-- Four entries, one of which is no longer valid and one has a precursor. -/
theorem metNode_table_is_map :
    let n := metNode
    (n.entries.length = 4 ∧ (n.rt 8).state = .invalid ∧ (n.rt 9).nprec = 1) ∧
    (n.entries.map (·.destAddr)).Nodup ∧
    (∀ i, ∀ rt ∈ n.tbl i, (i : ℕ) = (rt.destAddr &&& rtTablemask).toNat ∧
      rt.hash = rt.destAddr) ∧
    n.numEntries = n.entries.length ∧
    (∀ rt ∈ n.entries, rt.nprec = rt.precursors.length ∧ rt.precursors.Nodup) ∧
    (∀ d rt, rtTableFind n d = some rt ↔ rt ∈ n.entries ∧ rt.destAddr = d) ∧
    (∀ d, rtTableFind n d = none ↔ ∀ rt ∈ n.entries, rt.destAddr ≠ d) :=
  ⟨by decide +kernel, reachable_table_is_map
    (described_within trivial (fun _ _ h => h) sampleLog {}) metNode_reachable⟩

end AodvUU

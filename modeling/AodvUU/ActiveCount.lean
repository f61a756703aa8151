import AodvUU.TableInvariant

/-! # The counter of active routes

`num_active` against the number of valid entries, over all runs. -/
namespace AodvUU

variable {c : Ctx}

def Node.validCount (n : Node) : ℕ := HashTable.count (fun rt => rt.state = .valid) n.tbl

def Node.Ahead (k : BitVec 32) (n : Node) : Prop :=
  n.numActive = BitVec.ofNat 32 n.validCount + k

theorem Node.Ahead.of_sameTable {n n' : Node} {k : BitVec 32} (h : n.Ahead k)
    (hs : SameTable n n') : n'.Ahead k := by
  unfold Node.Ahead Node.validCount
  rw [hs.numActive, hs.tbl]
  exact h

theorem validCount_modRt_of_state {n : Node} {f : RtTable → RtTable} (a : InAddr)
    (hf : ∀ rt, (f rt).state = rt.state) : (n.modRt a f).validCount = n.validCount :=
  HashTable.count_adjust_of_eq (fun rt : RtTable => rt.state = .valid) fun rt _ _ => by
    simp [hf rt]

theorem Node.Ahead.modRt {n : Node} {k : BitVec 32} (h : n.Ahead k) (a : InAddr)
    {f : RtTable → RtTable} (hf : ∀ rt, (f rt).state = rt.state) : (n.modRt a f).Ahead k := by
  unfold Node.Ahead
  rw [validCount_modRt_of_state a hf]
  exact h

theorem RtWf.validCount_modRt {n : Node} (h : RtWf n) {a : InAddr} {rt : RtTable}
    {f : RtTable → RtTable} (hd : ∀ rt, (f rt).destAddr = rt.destAddr)
    (hl : n.lookup a = some rt) :
    (n.modRt a f).validCount + (if rt.state = .valid then 1 else 0) =
      n.validCount + (if (f rt).state = .valid then 1 else 0) := by
  have hcount := h.table.count_adjust (fun rt : RtTable => rt.state = .valid)
    (fun rt hrt => (hd rt).trans hrt) hl
  simp only [decide_eq_true_eq] at hcount
  exact hcount

theorem RtWf.validCount_erase {n : Node} (h : RtWf n) {a : InAddr} {rt : RtTable}
    (hl : n.lookup a = some rt) :
    n.validCount = HashTable.count (fun rt : RtTable => rt.state = .valid)
      (HashTable.erase RtTable.destAddr n.tbl a) + (if rt.state = .valid then 1 else 0) := by
  have hcount := h.table.count_erase (fun rt : RtTable => rt.state = .valid) hl
  simp only [decide_eq_true_eq] at hcount
  exact hcount

/-! ## Effects that keep the balance -/

theorem Node.Ahead.invalidate {n : Node} {k : BitVec 32} (h : n.Ahead k) (hwf : RtWf n)
    (a : InAddr) : (rtTableInvalidate c a n).Ahead k := by
  unfold rtTableInvalidate
  split
  · exact h
  · next rt hrt =>
    split
    · exact h
    · next hs =>
      have hcount : (n.modRt a (·.invalidated c)).validCount + (if rt.state = .valid then 1 else 0) =
          n.validCount + (if (rt.invalidated c).state = .valid then 1 else 0) :=
        hwf.validCount_modRt (fun _ => rfl) hrt
      have hv : rt.state = .valid := by cases h : rt.state <;> simp_all
      rw [if_pos hv, if_neg (by simp [RtTable.invalidated])] at hcount
      have hactive : n.numActive =
          BitVec.ofNat 32 ((n.modRt a (·.invalidated c)).validCount + 1) + k := by
        rw [hcount]
        exact h
      show n.numActive - 1 = BitVec.ofNat 32 (n.modRt a (·.invalidated c)).validCount + k
      rw [hactive, BitVec.ofNat_add]
      bv_omega

theorem Node.Ahead.delete {n : Node} {k : BitVec 32} (h : n.Ahead k) (hwf : RtWf n)
    (a : InAddr) : (rtTableDelete a n).Ahead k := by
  unfold rtTableDelete
  split
  · exact h
  · next rt hrt =>
    have hcount := hwf.validCount_erase hrt
    unfold Node.Ahead at h
    rw [hcount, BitVec.ofNat_add] at h
    show (if rt.state = .valid then n.numActive - 1 else n.numActive) = BitVec.ofNat 32 _ + k
    unfold Node.validCount
    split
    · next hv =>
      rw [if_pos hv] at h
      dsimp only
      rw [h]
      bv_omega
    · next hv =>
      rw [if_neg hv] at h
      simpa using h

theorem Node.Ahead.insert {n : Node} {k : BitVec 32} (h : n.Ahead k) (rt : RtTable) :
    (storeEntry rt n).Ahead k := by
  have hcount : (storeEntry rt n).validCount =
      n.validCount + (if rt.state = .valid then 1 else 0) := by
    have hcount : HashTable.count (fun rt : RtTable => rt.state = .valid) (storeEntry rt n).tbl =
        HashTable.count (fun rt : RtTable => rt.state = .valid) n.tbl + _ :=
      HashTable.count_insert _ n.tbl rt
    simp only [decide_eq_true_eq] at hcount
    exact hcount
  unfold Node.Ahead
  rw [hcount, BitVec.ofNat_add]
  unfold Node.Ahead at h
  simp only [storeEntry]
  cases hs : rt.state
  · simpa [hs] using h
  · simp only [reduceCtorEq, if_false, if_true, h]
    bv_omega

theorem Effect.ahead {n n' : Node} {k : BitVec 32} (he : Effect c {} n n') (hwf : RtWf n)
    (h : n.Ahead k) : n'.Ahead k := by
  cases he with
  | traffic ht => exact h.of_sameTable ht.sameTable
  | entry a f hf => exact h.modRt a fun rt => (hf rt).state
  | invalidate a => exact h.invalidate hwf a
  | buffer => exact h
  | delete hs | insert hs | setSeqno hs | update hs | raise hs | incr hs | flood hs | reflood hs =>
    exact hs.elim

theorem Effects.rtWf {n n' : Node} (he : Effects c {} n n') (hwf : RtWf n) : RtWf n' :=
  effects_preserve_rtWf hwf he.widen

theorem Effects.ahead {n n' : Node} {k : BitVec 32} (he : Effects c {} n n') (hwf : RtWf n)
    (h : n.Ahead k) : n'.Ahead k := by
  induction he with
  | refl => exact h
  | tail hs he ih => exact he.ahead (Effects.rtWf hs hwf) ih

theorem Effect.rerouted {n n' : Node} (he : Effect c {} n n') :
    n'.neighborRerouted = n.neighborRerouted := by
  cases he with
  | traffic ht => exact ht.rerouted
  | entry | buffer => rfl
  | invalidate a => unfold rtTableInvalidate; split <;> [rfl; split <;> rfl]
  | delete hs | insert hs | setSeqno hs | update hs | raise hs | incr hs | flood hs | reflood hs =>
    exact hs.elim

theorem Effects.rerouted {n n' : Node} (he : Effects c {} n n') :
    n'.neighborRerouted = n.neighborRerouted := by
  induction he with
  | refl => rfl
  | tail _ he ih => exact he.rerouted.trans ih

/-! ## Updates -/

/-- Before the entry is written the counter is one ahead if the entry is to change state, and
the entry is still in its old state unless a valid neighbour was rerouted. -/
theorem beforeUpdate_ahead (hl : c.LinkBreaks {}) {n : Node} (hwf : RtWf n) (ha : n.Ahead 0)
    {a : InAddr} {rt : RtTable} (hrt : n.lookup a = some rt) (hops : BitVec 8)
    (hr : (beforeUpdate c a hops .valid n).neighborRerouted = false) :
    RtWf (beforeUpdate c a hops .valid n) ∧
    (beforeUpdate c a hops .valid n).Ahead (if rt.state = .invalid then 1 else 0) ∧
    ∃ rt', (beforeUpdate c a hops .valid n).lookup a = some rt' ∧ rt'.state = rt.state := by
  revert hr
  unfold beforeUpdate
  rw [rt_of_lookup hrt]
  dsimp only
  have hactive : ∀ b,
      ({ n with numActive := n.numActive + 1, neighborRerouted := b } : Node).Ahead 1 := by
    intro b
    unfold Node.Ahead at ha ⊢
    show n.numActive + 1 = BitVec.ofNat 32 n.validCount + 1
    rw [ha]
    simp
  have hwf' : ∀ k b, RtWf { n with numActive := k, neighborRerouted := b } :=
    fun _ _ => hwf.of_table rfl rfl
  cases hs : rt.state with
  | invalid =>
    simp only [and_self, if_true]
    split
    · intro _
      have hbreak := fun b => breakOneHop_effects hl a
        { n with numActive := n.numActive + 1, neighborRerouted := b }
      obtain ⟨rt', hrt', hage⟩ := (hbreak _).ages.lookup_eq_some hrt
      refine ⟨(hbreak _).rtWf (hwf' _ _), (hbreak _).ahead (hwf' _ _) (hactive _), rt', hrt', ?_⟩
      rcases hage.aged with ⟨hs', _⟩ | ⟨hv, _, _⟩
      · exact hs'.trans hs
      · rw [hs] at hv
        cases hv
    · intro _
      exact ⟨hwf' _ n.neighborRerouted, hactive n.neighborRerouted, rt, hrt, hs⟩
  | valid =>
    simp only [reduceCtorEq, false_and, if_false]
    split
    · intro hr
      have hbreak := fun b => breakOneHop_effects hl a { n with neighborRerouted := b }
      rw [(hbreak _).rerouted] at hr
      simp at hr
    · intro _
      exact ⟨hwf, ha, rt, hrt, hs⟩

theorem rtTableUpdateGen_ahead (hl : c.LinkBreaks {}) {n : Node} (hwf : RtWf n) (ha : n.Ahead 0)
    {a : InAddr} (hfound : n.lookup a ≠ none) (chan : Option (Int × ℚ)) (next : InAddr)
    (hops : BitVec 8) (seqno life : BitVec 32) (flags : BitVec 16)
    (hr : (rtTableUpdateGen c chan a next hops seqno life .valid flags n).neighborRerouted = false) :
    (rtTableUpdateGen c chan a next hops seqno life .valid flags n).Ahead 0 := by
  obtain ⟨rt, hrt⟩ := Option.ne_none_iff_exists'.mp hfound
  unfold rtTableUpdateGen at hr ⊢
  dsimp only at hr ⊢
  set f := fun rt' : RtTable => rt'.write c.now next hops seqno life .valid
    (updateFlags (n.rt a) .valid flags) chan
  have hflush : Effects c {} ((beforeUpdate c a hops .valid n).modRt a f) _ :=
    flushSeek_effects a _
  rw [hflush.rerouted] at hr
  obtain ⟨hwf', ha', rt', hrt', hs⟩ := beforeUpdate_ahead hl hwf ha hrt hops hr
  have hplace : ∀ rt' : RtTable, rt'.SamePlace (f rt') :=
    RtTable.write_samePlace c.now next hops seqno life .valid _ chan
  have hmod : RtWf ((beforeUpdate c a hops .valid n).modRt a f) :=
    hwf'.rewrite (.entry _ a f hplace)
  refine hflush.ahead hmod ?_
  have hcount := hwf'.validCount_modRt (fun rt => (hplace rt).destAddr) hrt'
  rw [hs, if_pos (show (f rt').state = .valid from rfl)] at hcount
  unfold Node.Ahead at ha' ⊢
  show (beforeUpdate c a hops .valid n).numActive = _
  rw [ha']
  cases h : rt.state with
  | invalid =>
    rw [h, if_neg (by decide), add_zero] at hcount
    rw [hcount, BitVec.ofNat_add]
    simp
  | valid =>
    rw [h, if_pos rfl, Nat.add_right_cancel_iff] at hcount
    rw [hcount]
    simp

/-! ## Every run -/

/-- Nothing but the two insertion functions, the two update functions, `rt_table_invalidate` and
`rt_table_delete` touches the counter or the states. -/
def Scope.calls : Scope where
  write := True
  delete := True
  own := True
  retry := True
  update n n' := ∃ c' : Ctx, c'.LinkBreaks {} ∧ ∃ chan a next hops seqno life flags,
    n.lookup a ≠ none ∧ n' = rtTableUpdateGen c' chan a next hops seqno life .valid flags n

theorem updates_calls (hl : c.LinkBreaks {}) : c.Updates .calls := by
  intro chan a next hops seqno life flags n hfound
  exact .of (.update ⟨c, hl, chan, a, next, hops, seqno, life, flags, hfound, rfl⟩
    (updates_all hl.widen chan a next hops seqno life flags n hfound).ipaddr)

theorem effect_calls_preserves_rtWf {n n' : Node} (h : RtWf n) (he : Effect c .calls n n') :
    RtWf n' := by
  cases he with
  | traffic ht => exact h.of_table ht.tbl ht.numEntries
  | entry a f hf => exact effect_preserves_rtWf (c := c) h (.entry a f hf)
  | invalidate a => exact h.rtTableInvalidate a
  | buffer | incr => exact h.of_table rfl rfl
  | delete hs a => exact h.rtTableDelete a
  | insert hs rt hash prec absent =>
    exact effect_preserves_rtWf (c := c) h (.insert trivial rt hash prec absent)
  | setSeqno hs a v => exact effect_preserves_rtWf (c := c) h (.setSeqno trivial a v)
  | update hs addr =>
    obtain ⟨c', hl, chan, a, next, hops, seqno, life, flags, hfound, rfl⟩ := hs
    exact effects_preserve_rtWf h
      (updates_all hl.widen chan a next hops seqno life flags n hfound)
  | raise hs v => exact effect_preserves_rtWf (c := c) h (.raise trivial v)
  | flood hs a v ttl flags => exact effect_preserves_rtWf h (.flood trivial a v ttl flags)
  | reflood hs a v ttl flags => exact effect_preserves_rtWf h (.reflood trivial a v ttl flags)

theorem effects_calls_preserve_rtWf {n n' : Node} (h : RtWf n) (he : Effects c .calls n n') :
    RtWf n' := by
  induction he with
  | refl => exact h
  | tail _ he ih => exact effect_calls_preserves_rtWf ih he

/-- The counter is right as long as no valid neighbour was rerouted. -/
structure Node.Balanced (n : Node) : Prop where
  wf : RtWf n
  count : n.neighborRerouted = false → n.Ahead 0

theorem Node.Balanced.of_sameTable {n n' : Node} (h : n.Balanced) (hs : SameTable n n') :
    n'.Balanced :=
  ⟨h.wf.of_table hs.tbl hs.numEntries, fun hr => (h.count (hs.rerouted ▸ hr)).of_sameTable hs⟩

theorem Node.Balanced.of_ageing {n n' : Node} (h : n.Balanced) (he : Effect c {} n n') :
    n'.Balanced :=
  ⟨(Effects.of he).rtWf h.wf, fun hr => he.ahead h.wf (h.count (he.rerouted ▸ hr))⟩

theorem rerouted_of_update (hl : c.LinkBreaks {}) {n : Node} {a next : InAddr}
    {chan : Option (Int × ℚ)} {hops : BitVec 8} {seqno life : BitVec 32} {flags : BitVec 16}
    (hr : (rtTableUpdateGen c chan a next hops seqno life .valid flags n).neighborRerouted =
      false) : n.neighborRerouted = false := by
  have hbreak := fun k b => breakOneHop_effects hl a
    { n with numActive := k, neighborRerouted := b }
  have hbefore : (beforeUpdate c a hops .valid n).neighborRerouted = false := by
    have hflush : Effects c {} _ (rtTableUpdateGen c chan a next hops seqno life .valid flags n) :=
      flushSeek_effects a _
    exact hflush.rerouted.symm.trans hr
  revert hbefore
  unfold beforeUpdate
  dsimp only
  split_ifs
  · intro h
    rw [(hbreak _ _).rerouted] at h
    exact (Bool.or_eq_false_iff.mp h).1
  · intro h
    rw [(hbreak n.numActive _).rerouted] at h
    exact (Bool.or_eq_false_iff.mp h).1
  · exact id
  · exact id

theorem effect_preserves_balanced {n n' : Node} (h : n.Balanced) (he : Effect c .calls n n') :
    n'.Balanced := by
  refine ⟨effect_calls_preserves_rtWf h.wf he, fun hr => ?_⟩
  cases he with
  | traffic ht => exact (h.of_sameTable ht.sameTable).count hr
  | entry a f hf => exact (h.of_ageing (c := c) (.entry a f hf)).count hr
  | invalidate a => exact (h.of_ageing (c := c) (.invalidate a)).count hr
  | buffer | incr => exact (h.of_sameTable ⟨rfl, rfl, rfl, rfl, rfl⟩).count hr
  | delete hs a =>
    have hdel : (rtTableDelete a n).neighborRerouted = n.neighborRerouted := by
      unfold rtTableDelete
      split <;> rfl
    exact (h.count (hdel ▸ hr)).delete h.wf a
  | insert hs rt hash prec absent => exact (h.count hr).insert rt
  | setSeqno hs a v => exact (h.count hr).modRt a fun _ => rfl
  | update hs addr =>
    obtain ⟨c', hl, chan, a, next, hops, seqno, life, flags, hfound, rfl⟩ := hs
    exact rtTableUpdateGen_ahead hl h.wf (h.count (rerouted_of_update hl hr)) hfound chan next
      hops seqno life flags hr
  | raise hs v => exact (h.of_sameTable (seqnoRaise_sameTable v n)).count hr
  | flood hs a v ttl flags =>
    have hsame : SameTable n (onEachChannel (rreqSendWithChannel c a v ttl flags) n).seqnoIncr :=
      (flood_sameTable a v ttl flags n).trans ⟨rfl, rfl, rfl, rfl, rfl⟩
    exact (h.of_sameTable hsame).count hr
  | reflood hs a v ttl flags => exact (h.of_sameTable (flood_sameTable a v ttl flags n)).count hr

theorem effects_preserve_balanced {n n' : Node} (h : n.Balanced) (he : Effects c .calls n n') :
    n'.Balanced := by
  induction he with
  | refl => exact h
  | tail _ he ih => exact effect_preserves_balanced ih he

variable {cf : Conf} {ext : Extern} {a : InAddr} {n : Node}

/-- What is assumed of the external neighbour functions: a link break marks and invalidates
entries, and an addition calls the functions of `routing_table.c`. -/
structure Extern.CallsOnly (cf : Conf) (ext : Extern) : Prop where
  linkBreaks : ∀ env, Ctx.LinkBreaks ⟨cf, ext, env⟩ {}
  neighborAdds : ∀ env, Ctx.NeighborAdds ⟨cf, ext, env⟩ .calls

theorem step_preserves_balanced {env : Env} (hext : ext.CallsOnly cf) (h : n.Balanced)
    (e : Event) (recs : List RerrRecord) : (step ⟨cf, ext, env⟩ e (recs, n)).2.Balanced := by
  by_cases hq : ∃ q, e = .ifqueue q
  · obtain ⟨q, rfl⟩ := hq
    exact h.of_sameTable ⟨rfl, rfl, rfl, rfl, rfl⟩
  · exact effects_preserve_balanced h (step_effects (hext.linkBreaks env).widen
      (updates_calls (hext.linkBreaks env)) (hext.neighborAdds env) trivial trivial trivial e recs
      n (fun q he => hq ⟨q, he⟩) fun _ _ _ _ _ => trivial)

theorem init_balanced (c : Ctx) (a : InAddr) : (Node.init c a).Balanced :=
  ⟨init_rtWf a, fun _ => rfl⟩

theorem reachable_balanced (hext : ext.CallsOnly cf) (h : Reachable cf ext a n) : n.Balanced := by
  induction h with
  | init env => exact init_balanced ⟨cf, ext, env⟩ a
  | step env recs e _ _ ih => exact step_preserves_balanced hext ih e recs

theorem described_callsOnly (log : ℚ → ℚ) (cf : Conf) : (Extern.described log cf).CallsOnly cf where
  linkBreaks env := described_linkBreaks log cf env
  neighborAdds env := described_neighborAdds trivial log cf env
    (updates_calls fun a n => neighborLinkBreakDescribed_effects a n)

/-- Until a valid neighbour becomes a multi-hop route, `num_active` is the number of valid
entries. -/
theorem numActive_eq_count_valid (hext : ext.CallsOnly cf) (h : Reachable cf ext a n)
    (hr : n.neighborRerouted = false) :
    n.numActive = BitVec.ofNat 32 (n.entries.countP (·.state = .valid)) := by
  have hahead := (reachable_balanced hext h).count hr
  unfold Node.Ahead at hahead
  rw [show (0 : BitVec 32) = 0#32 from rfl, BitVec.add_zero] at hahead
  exact hahead

/-- Three of the four entries are valid. -/
theorem metNode_numActive : (metNode.entries.length = 4 ∧ metNode.numActive = 3) ∧
    metNode.numActive = BitVec.ofNat 32 (metNode.entries.countP (·.state = .valid)) :=
  ⟨by decide +kernel, numActive_eq_count_valid (described_callsOnly sampleLog {})
    metNode_reachable (by decide +kernel)⟩

/-- The agent then receives a request of 2 that 3 relayed. -/
def reroutedNode : Node :=
  (step (sampleCtx 1000) (.recv (rreqFrom 3 0
      { type := aodvRreq, hcnt := 1, rreqId := 7, destAddr := 9, origAddr := 2, origSeqno := 6,
        exts := [.cost 0] })) ([], heardNode 5)).2

/-- The neighbour that becomes a two-hop route is counted out and never in again. -/
theorem numActive_ne_count_valid :
    ¬ ∀ n, Reachable {} (.described sampleLog {}) 1 n →
      n.numActive = BitVec.ofNat 32 (n.entries.countP (·.state = .valid)) := by
  intro hall
  have hreach : Reachable {} (.described sampleLog {}) 1 reroutedNode :=
    .step { now := 1000 } [] (.recv _) trivial (heardNode_reachable 5)
  exact absurd (hall reroutedNode hreach) (by decide +kernel)

end AodvUU

import AodvUU.Unreachable
import AodvUU.NextHops

/-! # What an update leaves alone

The entry written holds what the caller asked for; of the others only `rt_timer` may move, as long
as no link breaks under them. -/
namespace AodvUU

variable {c : Ctx}

/-! ## Entries with another expiry -/

def RtTable.Retimed (rt rt' : RtTable) : Prop := rt' = { rt with rtTimer := rt'.rtTimer }

namespace RtTable.Retimed

variable {rt rt' rt'' : RtTable}

theorem refl (rt : RtTable) : rt.Retimed rt := rfl

theorem trans (h : rt.Retimed rt') (h' : rt'.Retimed rt'') : rt.Retimed rt'' := by
  unfold RtTable.Retimed at h h' ⊢
  rw [h', h]

theorem updateTimeout (now : Time) (life : BitVec 32) (rt : RtTable) :
    rt.Retimed (rt.updateTimeout now life) := by
  unfold RtTable.updateTimeout
  split_ifs <;> rfl

theorem destAddr (h : rt.Retimed rt') : rt'.destAddr = rt.destAddr := by rw [h]
theorem destSeqno (h : rt.Retimed rt') : rt'.destSeqno = rt.destSeqno := by rw [h]
theorem nextHop (h : rt.Retimed rt') : rt'.nextHop = rt.nextHop := by rw [h]
theorem hcnt (h : rt.Retimed rt') : rt'.hcnt = rt.hcnt := by rw [h]
theorem flags (h : rt.Retimed rt') : rt'.flags = rt.flags := by rw [h]
theorem state (h : rt.Retimed rt') : rt'.state = rt.state := by rw [h]
theorem channel (h : rt.Retimed rt') : rt'.channel = rt.channel := by rw [h]
theorem cost (h : rt.Retimed rt') : rt'.cost = rt.cost := by rw [h]
theorem nprec (h : rt.Retimed rt') : rt'.nprec = rt.nprec := by rw [h]
theorem precursors (h : rt.Retimed rt') : rt'.precursors = rt.precursors := by rw [h]

theorem over_iff (h : rt.Retimed rt') {a : InAddr} : rt'.Over a ↔ rt.Over a := by
  unfold RtTable.Over
  rw [h.state, h.nextHop]

end RtTable.Retimed

/-- `rt_table_update_timeout` at one time, any number of times. -/
abbrev RtTable.Renewed (now : Time) : RtTable → RtTable → Prop :=
  Relation.ReflTransGen fun rt rt' => ∃ life, rt' = rt.updateTimeout now life

theorem RtTable.Renewed.retimed {now : Time} {rt rt' : RtTable} (h : rt.Renewed now rt') :
    rt.Retimed rt' := by
  induction h with
  | refl => exact .refl rt
  | tail _ hstep ih =>
    obtain ⟨life, rfl⟩ := hstep
    exact ih.trans (.updateTimeout now life _)

abbrev Node.Renews (now : Time) (n n' : Node) : Prop := n.Entrywise (RtTable.Renewed now) n'

namespace Node.Renews

variable {n n' n'' : Node} {now : Time}

theorem of_tbl (h : n'.tbl = n.tbl) : n.Renews now n' :=
  Node.Entrywise.of_lookup (fun _ => .refl) fun a => lookup_of_tbl h a

theorem trans (h : n.Renews now n') (h' : n'.Renews now n'') : n.Renews now n'' :=
  Node.Entrywise.trans (fun _ _ _ => Relation.ReflTransGen.trans) h h'

theorem timeout (a : InAddr) (life : BitVec 32) (n : Node) :
    n.Renews c.now (rtTableUpdateTimeout c a life n) :=
  Node.Entrywise.modRt (fun _ => .refl) a
    (fun rt => (RtTable.Retimed.updateTimeout c.now life rt).destAddr)
    (fun _ => .single ⟨life, rfl⟩) n

theorem refreshQueued (rt : RtTable) (a : InAddr) (n : Node) :
    n.Renews c.now (refreshQueued c rt a n) := by
  have hfirst := fun b => Node.Renews.timeout (c := c) b (msecs c.conf.activeRouteTimeout) n
  unfold AodvUU.refreshQueued
  split
  · dsimp only
    split
    · exact hfirst _
    · split
      · exact (hfirst _).trans (.timeout _ _ _)
      · exact hfirst _
  · exact .of_tbl rfl

theorem packetQueueSetVerdict (a : InAddr) (v : Verdict) (n : Node) :
    n.Renews c.now (packetQueueSetVerdict c a v n) := by
  have htake : n.Renews c.now (takeQueued a n) := .of_tbl rfl
  unfold AodvUU.packetQueueSetVerdict
  cases v with
  | encSend =>
    dsimp only
    split
    · exact .of_tbl rfl
    · split
      · exact htake
      · split
        · exact (htake.trans (.timeout _ _ _)).trans (.refreshQueued _ a _)
        · exact htake
  | send =>
    dsimp only
    split
    · exact .of_tbl rfl
    · refine Node.Renews.trans (.of_tbl ?_) (.refreshQueued _ a _)
      rw [sendQueued_eq]
      rfl
  | drop =>
    refine .of_tbl ?_
    exact congrArg Routes.tbl ((foldl_routes _ (fun n qp => handOut_routes _ n) _).trans
      (takeQueued_routes a n))

theorem flushSeek (a : InAddr) (n : Node) : n.Renews c.now (flushSeek c a n) := by
  unfold AodvUU.flushSeek
  split
  · split
    · exact .of_tbl rfl
    · exact Node.Renews.trans (.of_tbl rfl) (.packetQueueSetVerdict a _ (seekListRemove a n))
  · exact .of_tbl rfl

end Node.Renews

abbrev Node.Retimes (n n' : Node) : Prop := n.Entrywise RtTable.Retimed n'

namespace Node.Retimes

variable {n n' n'' : Node} {now : Time}

theorem of_renews (h : n.Renews now n') : n.Retimes n' :=
  Node.Entrywise.mono (fun _ _ => RtTable.Renewed.retimed) h

theorem of_tbl (h : n'.tbl = n.tbl) : n.Retimes n' :=
  Node.Entrywise.of_lookup .refl fun a => lookup_of_tbl h a

theorem trans (h : n.Retimes n') (h' : n'.Retimes n'') : n.Retimes n'' :=
  Node.Entrywise.trans (fun _ _ _ => RtTable.Retimed.trans) h h'

theorem timeout (a : InAddr) (life : BitVec 32) (n : Node) :
    n.Retimes (rtTableUpdateTimeout c a life n) := of_renews (.timeout (c := c) a life n)

theorem packetQueueSetVerdict (a : InAddr) (v : Verdict) (n : Node) :
    n.Retimes (packetQueueSetVerdict c a v n) := of_renews (.packetQueueSetVerdict a v n)

theorem flushSeek (a : InAddr) (n : Node) : n.Retimes (flushSeek c a n) :=
  of_renews (.flushSeek a n)

end Node.Retimes

/-! ## Link breaks that are sparing -/

/-- The link break of `a` touches the entry of `a` and the valid routes over `a`, no others. -/
def Ctx.SparesOthers (c : Ctx) : Prop :=
  ∀ a n, RtWf n → ∀ b rt, n.lookup b = some rt → b ≠ a → ¬ rt.Over a →
    (c.ext.neighborLinkBreak c.env a n).lookup b = some rt

/-- The link break of a neighbour loses the routes over it. -/
def Ctx.LosesLinks (c : Ctx) : Prop :=
  ∀ a n, RtWf n → n.LosesLink a (c.ext.neighborLinkBreak c.env a n)

/-- The update of `a` to `hops` hops begins with a link break. -/
def RtTable.Breaks (rt : RtTable) (hops : BitVec 8) : Prop := 1 < hops.toNat ∧ rt.hcnt = 1

theorem countActive_lookup (a b : InAddr) (state : RtState) (n : Node) :
    (if (n.rt a).state = .invalid ∧ state = .valid then
      { n with numActive := n.numActive + 1 } else n).lookup b = n.lookup b := by
  split <;> rfl

theorem beforeUpdate_of_not_breaks {n : Node} {a : InAddr} {hops : BitVec 8}
    (h : ¬ (n.rt a).Breaks hops) (state : RtState) (b : InAddr) :
    (beforeUpdate c a hops state n).lookup b = n.lookup b := by
  have hskip : ¬ (1 < hops.toNat ∧ (n.rt a).hcnt = 1) := h
  unfold beforeUpdate
  dsimp only
  rw [if_neg hskip]
  exact countActive_lookup a b state n

/-- The entry whose link breaks, with its Hello state reset. -/
def RtTable.helloReset (rt : RtTable) : RtTable :=
  { rt with lastHelloTime := 0, helloCnt := 0, helloTimer := rt.helloTimer.remove }

theorem beforeUpdate_of_breaks {n : Node} {a : InAddr} {hops : BitVec 8}
    (h : (n.rt a).Breaks hops) (state : RtState) :
    ∃ n₁ : Node, (∀ b, b ≠ a → n₁.lookup b = n.lookup b) ∧
      n₁.lookup a = (n.lookup a).map RtTable.helloReset ∧ n₁.sendBuf = n.sendBuf ∧
      (RtWf n → RtWf n₁) ∧ beforeUpdate c a hops state n = c.ext.neighborLinkBreak c.env a n₁ := by
  have hbreak : 1 < hops.toNat ∧ (n.rt a).hcnt = 1 := h
  unfold beforeUpdate breakOneHop
  dsimp only
  rw [if_pos hbreak]
  refine ⟨_, fun b hb => ?_, ?_, ?_, fun hwf => ?_, rfl⟩
  · have hmod := fun n' : Node => lookup_modRt (n := n') (f := RtTable.helloReset) a b fun _ => rfl
    refine (hmod _).trans ((if_neg (Ne.symm hb)).trans ?_)
    exact countActive_lookup a b state n
  · have hmod := fun n' : Node => lookup_modRt (n := n') (f := RtTable.helloReset) a a fun _ => rfl
    refine (hmod _).trans ((if_pos rfl).trans ?_)
    exact congrArg (Option.map _) (countActive_lookup a a state n)
  · show (if (n.rt a).state = .invalid ∧ state = .valid then
      { n with numActive := n.numActive + 1 } else n).sendBuf = n.sendBuf
    split <;> rfl
  · refine RtWf.modRt ?_ a (fun _ => rfl) (fun _ => rfl) fun _ hp => hp
    refine hwf.of_table ?_ ?_ <;> split <;> rfl

theorem beforeUpdate_spares (hs : c.SparesOthers) {n : Node} (hwf : RtWf n) {a : InAddr}
    {hops : BitVec 8} (state : RtState) {b : InAddr} {rt : RtTable} (hb : b ≠ a)
    (hrt : n.lookup b = some rt) (hover : (n.rt a).Breaks hops → ¬ rt.Over a) :
    (beforeUpdate c a hops state n).lookup b = some rt := by
  by_cases hbreak : (n.rt a).Breaks hops
  · obtain ⟨n₁, hlook, -, -, hwf₁, heq⟩ := beforeUpdate_of_breaks (c := c) hbreak state
    rw [heq]
    exact hs a n₁ (hwf₁ hwf) b rt ((hlook b hb).trans hrt) hb (hover hbreak)
  · rw [beforeUpdate_of_not_breaks hbreak]
    exact hrt

/-! ## The entry written and the others -/

section Update

variable {n : Node} {a : InAddr}

theorem RtWf.rtTableUpdateGen (hl : c.LinkBreaks {}) (h : RtWf n) (ha : n.lookup a ≠ none)
    (chan : Option (Int × ℚ)) (next : InAddr) (hops : BitVec 8) (seqno life : BitVec 32)
    (flags : BitVec 16) : RtWf (rtTableUpdateGen c chan a next hops seqno life .valid flags n) :=
  effects_preserve_rtWf h (updates_all hl.widen chan a next hops seqno life flags n ha)

theorem rtTableUpdateGen_writes (hl : c.LinkBreaks {}) {rt : RtTable} (hrt : n.lookup a = some rt)
    (chan : Option (Int × ℚ)) (next : InAddr) (hops : BitVec 8) (seqno life : BitVec 32)
    (state : RtState) (flags : BitVec 16) :
    ∃ rt₁ rt', rt.Ages rt₁ ∧
      (rtTableUpdateGen c chan a next hops seqno life state flags n).lookup a = some rt' ∧
      (rt₁.write c.now next hops seqno life state (updateFlags rt state flags) chan).Retimed rt' := by
  obtain ⟨rt₁, hrt₁, hage⟩ := (beforeUpdate_ages hl a hops state n).lookup_eq_some hrt
  have hwrite := lookup_modRt (n := beforeUpdate c a hops state n) a a fun rt =>
    RtTable.write_destAddr c.now next hops seqno life state (updateFlags (n.rt a) state flags) chan rt
  rw [if_pos rfl, hrt₁, rt_of_lookup hrt] at hwrite
  obtain ⟨rt', hrt', hret⟩ := Node.Entrywise.lookup_eq_some
    (Node.Retimes.flushSeek (c := c) a _) hwrite
  refine ⟨rt₁, rt', hage, ?_, hret⟩
  unfold rtTableUpdateGen
  dsimp only
  rw [rt_of_lookup hrt]
  exact hrt'

theorem rtTableUpdateGen_spares (hs : c.SparesOthers) (hwf : RtWf n) {b : InAddr} {rt : RtTable}
    (hb : b ≠ a) (hrt : n.lookup b = some rt) (chan : Option (Int × ℚ)) (next : InAddr)
    {hops : BitVec 8} (seqno life : BitVec 32) (state : RtState) (flags : BitVec 16)
    (hover : (n.rt a).Breaks hops → ¬ rt.Over a) :
    ∃ rt', (rtTableUpdateGen c chan a next hops seqno life state flags n).lookup b = some rt' ∧
      rt.Retimed rt' := by
  have hbefore := beforeUpdate_spares hs hwf state hb hrt hover
  have hwrite := lookup_modRt (n := beforeUpdate c a hops state n) a b fun rt =>
    RtTable.write_destAddr c.now next hops seqno life state (updateFlags (n.rt a) state flags) chan rt
  rw [if_neg (Ne.symm hb), hbefore] at hwrite
  exact Node.Entrywise.lookup_eq_some (Node.Retimes.flushSeek (c := c) a _) hwrite

theorem rtTableUpdateGen_none (hl : c.LinkBreaks {}) {b : InAddr} (hb : b ≠ a)
    (hnone : n.lookup b = none) (chan : Option (Int × ℚ)) (next : InAddr) (hops : BitVec 8)
    (seqno life : BitVec 32) (state : RtState) (flags : BitVec 16) :
    (rtTableUpdateGen c chan a next hops seqno life state flags n).lookup b = none := by
  have hbefore := (beforeUpdate_ages hl a hops state n).lookup_eq_none hnone
  have hwrite := lookup_modRt (n := beforeUpdate c a hops state n) a b fun rt =>
    RtTable.write_destAddr c.now next hops seqno life state (updateFlags (n.rt a) state flags) chan rt
  rw [if_neg (Ne.symm hb), hbefore] at hwrite
  exact Node.Entrywise.lookup_eq_none (Node.Retimes.flushSeek (c := c) a _) hwrite

theorem rtTableUpdateGen_others (hl : c.LinkBreaks {}) (hs : c.SparesOthers) (hwf : RtWf n)
    {b : InAddr} (hb : b ≠ a) (chan : Option (Int × ℚ)) (next : InAddr) {hops : BitVec 8}
    (seqno life : BitVec 32) (state : RtState) (flags : BitVec 16)
    (hover : (n.rt a).Breaks hops → ¬ (n.rt b).Over a) :
    Option.Rel RtTable.Retimed (n.lookup b)
      ((rtTableUpdateGen c chan a next hops seqno life state flags n).lookup b) := by
  cases hrt : n.lookup b with
  | none =>
    rw [rtTableUpdateGen_none hl hb hrt chan next hops seqno life state flags]
    exact .none
  | some rt =>
    rw [rt_of_lookup hrt] at hover
    obtain ⟨rt', hrt', hret⟩ :=
      rtTableUpdateGen_spares hs hwf hb hrt chan next seqno life state flags hover
    rw [hrt']
    exact .some hret

theorem rtTableUpdateGen_breaks (hlost : c.LosesLinks) (hwf : RtWf n) (chan : Option (Int × ℚ))
    (next : InAddr) {hops : BitVec 8} (seqno life : BitVec 32) (state : RtState) (flags : BitVec 16)
    (hbreak : (n.rt a).Breaks hops) {b : InAddr} (hb : b ≠ a) {rt' : RtTable}
    (hrt' : (rtTableUpdateGen c chan a next hops seqno life state flags n).lookup b = some rt')
    (hnext : rt'.nextHop = a) : rt'.state = .invalid := by
  obtain ⟨n₁, -, -, -, hwf₁, heq⟩ := beforeUpdate_of_breaks (c := c) hbreak state
  have hwrite := lookup_modRt (n := beforeUpdate c a hops state n) a b fun rt =>
    RtTable.write_destAddr c.now next hops seqno life state (updateFlags (n.rt a) state flags) chan rt
  rw [if_neg (Ne.symm hb)] at hwrite
  obtain ⟨rt, hrt, hret⟩ := Node.Entrywise.exists_before
    (Node.Retimes.flushSeek (c := c) a _) hrt'
  rw [hwrite, heq] at hrt
  rw [hret.state]
  exact (hlost a n₁ (hwf₁ hwf)).lost b rt hrt (.inr (hret.nextHop.symm.trans hnext))

theorem rtTableAdd_stores (next : InAddr) (hops : BitVec 8) (seqno life : BitVec 32)
    (state : RtState) (flags : BitVec 16) (ch : Int) (cost : ℚ) (n : Node) :
    (∃ rt', (rtTableAdd c a next hops seqno life state flags ch cost n).lookup a = some rt' ∧
      (newEntry c a next hops seqno life state flags ch cost).Retimed rt') ∧
    ∀ b, b ≠ a → Option.Rel RtTable.Retimed (n.lookup b)
      ((rtTableAdd c a next hops seqno life state flags ch cost n).lookup b) := by
  have hstore := lookup_storeEntry (newEntry c a next hops seqno life state flags ch cost) n
  have hflush := Node.Retimes.flushSeek (c := c) a
    (storeEntry (newEntry c a next hops seqno life state flags ch cost) n)
  constructor
  · exact Node.Entrywise.lookup_eq_some hflush ((hstore a).trans (if_pos rfl))
  · intro b hb
    have hold := hflush b
    rw [hstore b, newEntry, if_neg (Ne.symm hb)] at hold
    exact hold

theorem rtTableInsert_stores (h : n.lookup a = none) (next : InAddr) (hops : BitVec 8)
    (seqno life : BitVec 32) (state : RtState) (flags : BitVec 16) :
    (∃ rt', (rtTableInsert c a next hops seqno life state flags n).lookup a = some rt' ∧
      (newEntry c a next hops seqno life state flags (-1) 100000).Retimed rt') ∧
    ∀ b, b ≠ a → Option.Rel RtTable.Retimed (n.lookup b)
      ((rtTableInsert c a next hops seqno life state flags n).lookup b) := by
  rw [rtTableInsert_eq, if_pos h]
  exact rtTableAdd_stores next hops seqno life state flags (-1) 100000 n

end Update

/-! ## The course of a route -/

/-- Where a route leads and how far, with its number, state and flags. -/
structure Course where
  nextHop : InAddr
  hcnt : ℕ
  destSeqno : BitVec 32
  state : RtState
  flags : BitVec 16
deriving DecidableEq, Repr

def RtTable.course (rt : RtTable) : Course where
  nextHop := rt.nextHop
  hcnt := rt.hcnt.toNat
  destSeqno := rt.destSeqno
  state := rt.state
  flags := rt.flags

theorem over_of_course {rt rt' : RtTable} (h : rt'.course = rt.course) {b : InAddr} :
    rt'.Over b ↔ rt.Over b := by
  have hnext : rt'.nextHop = rt.nextHop := congrArg Course.nextHop h
  have hstate : rt'.state = rt.state := congrArg Course.state h
  unfold RtTable.Over
  rw [hnext, hstate]

def Node.course (n : Node) (a : InAddr) : Option Course := (n.lookup a).map RtTable.course

theorem RtTable.Retimed.course {rt rt' : RtTable} (h : rt.Retimed rt') :
    rt'.course = rt.course := by
  rw [h]
  rfl

theorem course_of_retimed {n n' : Node} {a : InAddr}
    (h : Option.Rel RtTable.Retimed (n.lookup a) (n'.lookup a)) : n'.course a = n.course a := by
  unfold Node.course
  generalize n.lookup a = x at h ⊢
  generalize n'.lookup a = y at h ⊢
  cases h with
  | some hret => exact congrArg some hret.course
  | none => rfl

theorem course_of_tbl {n n' : Node} (h : n'.tbl = n.tbl) (a : InAddr) :
    n'.course a = n.course a :=
  congrArg (Option.map RtTable.course) (lookup_of_tbl h a)

theorem course_modRt {f : RtTable → RtTable} (hdest : ∀ rt, (f rt).destAddr = rt.destAddr)
    (hf : ∀ rt, (f rt).course = rt.course) (a b : InAddr) (n : Node) :
    (n.modRt a f).course b = n.course b := by
  unfold Node.course
  rw [lookup_modRt a b hdest]
  split
  · rw [Option.map_map]
    exact congrArg (fun g => Option.map g _) (funext hf)
  · rfl

theorem course_of_routes {n n' : Node} (h : n'.routes = n.routes) (a : InAddr) :
    n'.course a = n.course a := course_of_tbl (congrArg Routes.tbl h) a

theorem addPrecursors_course (fwd rev : InAddr) (b : InAddr) (n : Node) :
    (addPrecursors fwd rev n).course b = n.course b := by
  have hadd : ∀ (a addr : InAddr) (n : Node), (precursorAdd a addr n).course b = n.course b := by
    intro a addr n
    refine course_modRt (fun rt => (rt.precursorAdd_keeps addr).destAddr) (fun rt => ?_) a b n
    unfold RtTable.precursorAdd
    split <;> rfl
  unfold addPrecursors
  rw [hadd, hadd]

theorem rtTableUpdateTimeout_course (a b : InAddr) (life : BitVec 32) (n : Node) :
    (rtTableUpdateTimeout c a life n).course b = n.course b :=
  course_modRt (fun rt => (RtTable.Retimed.updateTimeout c.now life rt).destAddr)
    (fun rt => (RtTable.Retimed.updateTimeout c.now life rt).course) a b n

theorem rrepForward_course (rrep : RREP) (size : ℕ) (rev fwd : InAddr) (ttl : Int) (b : InAddr)
    (n : Node) : (rrepForward c rrep size rev fwd ttl n).course b = n.course b := by
  unfold rrepForward
  rw [rtTableUpdateTimeout_course, addPrecursors_course,
    course_of_routes (aodvSocketSend_routes _ _ _ _)]
  refine course_of_routes ?_ b
  dsimp only
  split <;> rfl

section Course

variable {n : Node} {a : InAddr}

theorem rtTableUpdateGen_course (hl : c.LinkBreaks {}) {rt : RtTable} (hrt : n.lookup a = some rt)
    (chan : Option (Int × ℚ)) (next : InAddr) (hops : BitVec 8) (seqno life : BitVec 32)
    (state : RtState) (flags : BitVec 16) :
    (rtTableUpdateGen c chan a next hops seqno life state flags n).course a =
      some ⟨next, hops.toNat, seqno, state, updateFlags rt state flags⟩ := by
  obtain ⟨rt₁, rt', -, hrt', hret⟩ :=
    rtTableUpdateGen_writes hl hrt chan next hops seqno life state flags
  unfold Node.course
  rw [hrt', Option.map_some, hret.course]
  simp [RtTable.course]

theorem rtTableUpdateGen_course_other (hl : c.LinkBreaks {}) (hs : c.SparesOthers) (hwf : RtWf n)
    {b : InAddr} (hb : b ≠ a) (chan : Option (Int × ℚ)) (next : InAddr) {hops : BitVec 8}
    (seqno life : BitVec 32) (state : RtState) (flags : BitVec 16)
    (hover : (n.rt a).Breaks hops → ¬ (n.rt b).Over a) :
    (rtTableUpdateGen c chan a next hops seqno life state flags n).course b = n.course b := by
  exact course_of_retimed (rtTableUpdateGen_others hl hs hwf hb chan next seqno life state flags hover)

end Course

/-! ## The described link break is sparing -/

theorem linkBreakWalk_lookup {n : Node} (hwf : RtWf n) {a b : InAddr} {rt : RtTable}
    (hrt : n.lookup b = some rt) (hb : b ≠ a) (hover : ¬ rt.Over a) :
    (linkBreakWalk c a n).2.lookup b = some rt := by
  have hkept : (rtTableInvalidate c a n).lookup b = some rt := by
    rw [lookup_rtTableInvalidate, if_neg (Ne.symm hb), hrt]
  have hnot : b ∉ routesOver a (rtTableInvalidate c a n) := by
    intro hmem
    obtain ⟨rt', hrt', hdest⟩ := List.mem_map.mp hmem
    obtain ⟨hent, hsel⟩ := List.mem_filter.mp hrt'
    have hlook := (hwf.rtTableInvalidate (c := c) a).lookup_eq_some.mpr ⟨hent, hdest⟩
    rw [hkept] at hlook
    cases hlook
    simp only [decide_eq_true_eq] at hsel
    exact hover ⟨hsel.1, hsel.2.1⟩
  unfold linkBreakWalk
  dsimp only
  rw [linkBreakVisits_others _ _ _ _ hnot]
  split
  · exact hkept
  · exact (lookup_of_routes (linkBreakRerr_routes a _)).trans hkept

theorem described_sparesOthers (log : ℚ → ℚ) (cf : Conf) (env : Env) :
    Ctx.SparesOthers ⟨cf, .described log cf, env⟩ := by
  intro a n hwf b rt hrt hb hover
  have hwalk := linkBreakWalk_lookup
    (c := ⟨cf, ⟨fun _ _ _ n => n, fun _ _ n => n, log, fun _ es => es⟩, env⟩) hwf hrt hb hover
  change (neighborLinkBreakDescribed _ a n).lookup b = some rt
  unfold neighborLinkBreakDescribed
  dsimp only
  split
  · rw [lookup_of_tbl (aodvSocketSend_traffic _ _ _ _).tbl]
    exact hwalk
  · exact hwalk

end AodvUU

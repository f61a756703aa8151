import AodvUU.Repair
import AodvUU.Transmits

/-! # The RERR of the repairing node

It lists the mended entries that have precursors, in the order of the walk. The receiver is
chosen along the way, from a local that starts uninitialised. -/
namespace AodvUU

variable {c : Ctx}

/-! ## Link breaks under repair -/

/-- The link break of a neighbour under repair builds no RERR and leaves its precursors, where no
valid route leads over it. -/
def Ctx.QuietRepairs (c : Ctx) : Prop :=
  ∀ a n rt, RtWf n → n.lookup a = some rt → hasFlag rt.flags rtRepair →
    (∀ b, b ≠ a → ¬ (n.rt b).Over a) →
    (c.ext.neighborLinkBreak c.env a n).sendBuf = n.sendBuf ∧
    ∃ rt', (c.ext.neighborLinkBreak c.env a n).lookup a = some rt' ∧
      rt'.precursors = rt.precursors ∧ rt'.nprec = rt.nprec

theorem described_quietRepairs (log : ℚ → ℚ) (cf : Conf) (env : Env) :
    Ctx.QuietRepairs ⟨cf, .described log cf, env⟩ := by
  intro a n rt hwf hrt hflag hover
  change (neighborLinkBreakDescribed _ a n).sendBuf = n.sendBuf ∧
    ∃ rt', (neighborLinkBreakDescribed _ a n).lookup a = some rt' ∧ _
  generalize (⟨cf, ⟨fun _ _ _ n => n, fun _ _ n => n, log, fun _ es => es⟩, env⟩ : Ctx) = c
  have hnone : routesOver a (rtTableInvalidate c a n) = [] := by
    unfold routesOver
    rw [List.map_eq_nil_iff, List.filter_eq_nil_iff]
    intro rt' hrt' hsel
    simp only [decide_eq_true_eq] at hsel
    have hlook := (hwf.rtTableInvalidate (c := c) a).lookup_eq_some.mpr ⟨hrt', rfl⟩
    rw [lookup_rtTableInvalidate, if_neg (Ne.symm hsel.2.2)] at hlook
    apply hover rt'.destAddr hsel.2.2
    rw [rt_of_lookup hlook]
    exact ⟨hsel.1, hsel.2.1⟩
  have hwalk : linkBreakWalk c a n = (false, rtTableInvalidate c a n) := by
    unfold linkBreakWalk
    dsimp only
    rw [hnone, rt_of_lookup hrt, if_pos hflag]
    rfl
  unfold neighborLinkBreakDescribed
  rw [hwalk]
  refine ⟨rtTableInvalidate_sendBuf a n, ?_⟩
  have hlook := lookup_rtTableInvalidate (c := c) a n a
  rw [if_pos rfl, hrt, Option.map_some] at hlook
  refine ⟨_, hlook, ?_⟩
  split
  · exact ⟨rfl, rfl⟩
  · exact ⟨rfl, rfl⟩

theorem rtTableUpdateGen_quiet (hq : c.QuietRepairs) {n : Node} (hwf : RtWf n) {a : InAddr}
    {rt : RtTable} (hrt : n.lookup a = some rt) (hflag : hasFlag rt.flags rtRepair)
    (chan : Option (Int × ℚ)) (next : InAddr) {hops : BitVec 8} (seqno life : BitVec 32)
    (state : RtState) (flags : BitVec 16)
    (hover : rt.Breaks hops → ∀ b, b ≠ a → ¬ (n.rt b).Over a) :
    (rtTableUpdateGen c chan a next hops seqno life state flags n).sendBuf = n.sendBuf ∧
    ∃ rt', (rtTableUpdateGen c chan a next hops seqno life state flags n).lookup a = some rt' ∧
      rt'.nextHop = next ∧ rt'.precursors = rt.precursors ∧ rt'.nprec = rt.nprec := by
  obtain ⟨hbuf, rt₁, hrt₁, hprec, hnprec⟩ : (beforeUpdate c a hops state n).sendBuf = n.sendBuf ∧
      ∃ rt₁, (beforeUpdate c a hops state n).lookup a = some rt₁ ∧
        rt₁.precursors = rt.precursors ∧ rt₁.nprec = rt.nprec := by
    by_cases hbreak : rt.Breaks hops
    · obtain ⟨n₁, hlook, hself, hbuf, hwf₁, heq⟩ :=
        beforeUpdate_of_breaks (c := c) (n := n) (a := a) (rt_of_lookup hrt ▸ hbreak) state
      rw [hrt, Option.map_some] at hself
      obtain ⟨hbuf', rt', hrt', hprec⟩ := hq a n₁ _ (hwf₁ hwf) hself hflag fun b hb => by
        have hsame : n₁.rt b = n.rt b := congrArg (Option.getD · default) (hlook b hb)
        rw [hsame]
        exact hover hbreak b hb
      rw [heq]
      exact ⟨hbuf'.trans hbuf, rt', hrt', hprec⟩
    · have hskip : ¬ (n.rt a).Breaks hops := rt_of_lookup hrt ▸ hbreak
      refine ⟨?_, rt, (beforeUpdate_of_not_breaks hskip state a).trans hrt, rfl, rfl⟩
      have hno : ¬ (1 < hops.toNat ∧ (n.rt a).hcnt = 1) := hskip
      unfold beforeUpdate
      dsimp only
      rw [if_neg hno]
      split <;> rfl
  have hwrite := lookup_modRt (n := beforeUpdate c a hops state n) a a fun rt =>
    RtTable.write_destAddr c.now next hops seqno life state (updateFlags (n.rt a) state flags) chan rt
  rw [if_pos rfl, hrt₁, Option.map_some] at hwrite
  obtain ⟨rt', hrt', hret⟩ := Node.Entrywise.lookup_eq_some
    (Node.Retimes.flushSeek (c := c) a _) hwrite
  have hplace := RtTable.write_samePlace c.now next hops seqno life state
    (updateFlags (n.rt a) state flags) chan rt₁
  refine ⟨(flushSeek_frame a _).2.trans hbuf, rt', hrt', ?_, ?_, ?_⟩
  · rw [hret.nextHop, RtTable.write_nextHop]
  · rw [hret.precursors, hplace.precursors, hprec]
  · rw [hret.nprec, hplace.nprec, hnprec]

/-! ## The entries mended -/

def RtTable.Mends (rrep : RREP) (rt : RtTable) : Prop :=
  hasFlag rt.flags rtRepair ∧ (rt.destAddr = rrep.destAddr ∨ rt.nextHop = rrep.destAddr)

instance (rrep : RREP) (rt : RtTable) : Decidable (rt.Mends rrep) :=
  inferInstanceAs (Decidable (_ ∧ _))

def RtTable.mendedHops (rrep : RREP) (rt : RtTable) : BitVec 8 :=
  if rt.destAddr = rrep.destAddr then rrep.hcnt + 1 else rrep.hcnt + rt.hcnt

def RtTable.mendedSeqno (rrep : RREP) (rt : RtTable) : BitVec 32 :=
  if rt.destAddr = rrep.destAddr then rrep.destSeqno else rt.destSeqno

theorem lrRepaired_eq (rrep : RREP) (ipSrc a : InAddr) (n : Node) :
    lrRepaired c rrep ipSrc a n = if (n.rt a).Mends rrep then
      some (rtTableUpdate c a ipSrc ((n.rt a).mendedHops rrep) ((n.rt a).mendedSeqno rrep)
        rrep.lifetime .valid 0 n) else none := by
  unfold lrRepaired RtTable.Mends RtTable.mendedHops RtTable.mendedSeqno
  dsimp only
  split_ifs <;> simp_all

/-- A link that breaks in the walk is not the one to the sender, and no valid route leads over
it. -/
def Node.MendsQuietly (n : Node) (rrep : RREP) (ipSrc : InAddr) : Prop :=
  ∀ rt ∈ n.entries, rt.Mends rrep → rt.Breaks (rt.mendedHops rrep) → rt.destAddr ≠ ipSrc ∧
    ∀ rt' ∈ n.entries, rt'.destAddr ≠ rt.destAddr → ¬ rt'.Over rt.destAddr

def Node.lrListed (n : Node) (rrep : RREP) (l : List InAddr) : List InAddr :=
  l.filter fun a => (n.rt a).Mends rrep ∧ (n.rt a).nprec ≠ 0

/-- The receiver chosen for the destinations `l`, from the value `g` of the local. -/
def Node.lrUnicast (n : Node) (g : InAddr) : List InAddr → InAddr
  | [] => g
  | a :: l => l.foldl (fun u b => if u ≠ 0 ∧ (n.rt b).precursors.any (· ≠ u) then 0 else u)
      (if (n.rt a).nprec = 1 then (n.rt a).precursors.headD 0 else g)

theorem lrUnicast_concat {n : Node} {g : InAddr} {l : List InAddr} (hl : l ≠ []) (a : InAddr) :
    n.lrUnicast g (l ++ [a]) =
      if n.lrUnicast g l ≠ 0 ∧ (n.rt a).precursors.any (· ≠ n.lrUnicast g l) then 0
      else n.lrUnicast g l := by
  cases l with
  | nil => exact absurd rfl hl
  | cons b l => exact List.foldl_append

/-! ## The walk -/

/-- The RERR in the buffer is about `us`, the local holds its receiver. -/
structure LrRerr.Reports (n : Node) (g : InAddr) (us : List InAddr) (s : LrRerr) : Prop where
  made : s.made = true ↔ us ≠ []
  message : us ≠ [] → ∃ m, s.node.sendBuf = .rerr m ∧
    m.destAddr :: m.more.map (·.destAddr) = us ∧ m.destCount = BitVec.ofNat 8 us.length
  unicast : s.unicastDest = n.lrUnicast g us

/-- An entry is as it was but for its expiry, or leads over the sender. -/
def RtTable.MovedTo (ipSrc : InAddr) (rt rt' : RtTable) : Prop :=
  rt.Retimed rt' ∨ rt'.nextHop = ipSrc

structure LrRerr.Notes (rrep : RREP) (ipSrc g : InAddr) (n : Node) (l : List InAddr) (s : LrRerr) :
    Prop where
  wf : RtWf s.node
  unvisited : ∀ a, a ∉ l → Option.Rel RtTable.Retimed (n.lookup a) (s.node.lookup a)
  visited : ∀ a, Option.Rel (RtTable.MovedTo ipSrc) (n.lookup a) (s.node.lookup a)
  reports : s.Reports n g (n.lrListed rrep l)

section Walk

variable {rrep : RREP} {ipSrc g a : InAddr} {n : Node} {l : List InAddr} {s : LrRerr}

theorem lrListed_concat (n : Node) (rrep : RREP) (l : List InAddr) (a : InAddr) :
    n.lrListed rrep (l ++ [a]) =
      n.lrListed rrep l ++ if (n.rt a).Mends rrep ∧ (n.rt a).nprec ≠ 0 then [a] else [] := by
  unfold Node.lrListed
  rw [List.filter_append]
  congr 1
  split_ifs with h <;> simp [h]

theorem LrRerr.Reports.add {us : List InAddr} (h : s.Reports n g us)
    (hdest : (s.node.rt a).destAddr = a) (hprec : (s.node.rt a).precursors = (n.rt a).precursors)
    (hnprec : (s.node.rt a).nprec = (n.rt a).nprec) :
    (lrRerrAdd a s).Reports n g (us ++ if (n.rt a).nprec ≠ 0 then [a] else []) := by
  unfold lrRerrAdd
  dsimp only
  rw [hdest, hprec, hnprec]
  by_cases hzero : (n.rt a).nprec = 0
  · rw [if_pos hzero, if_neg (not_not.mpr hzero), List.append_nil]
    exact h
  · rw [if_neg hzero, if_pos hzero]
    cases us with
    | nil =>
      have hmade : s.made = false := by simpa using h.made
      rw [hmade, if_neg Bool.false_ne_true]
      refine ⟨by simp, fun _ => ⟨_, rfl, rfl, rfl⟩, ?_⟩
      rw [h.unicast]
      rfl
    | cons b us =>
      have hmade : s.made = true := h.made.mpr (List.cons_ne_nil b us)
      obtain ⟨m, hbuf, hlist, hcount⟩ := h.message (List.cons_ne_nil b us)
      rw [if_pos hmade]
      refine ⟨by simp [hmade], fun _ => ⟨rerrAddUdest m a (s.node.rt a).destSeqno, ?_, ?_, ?_⟩, ?_⟩
      · unfold Node.addRerrUdest
        dsimp only
        rw [hbuf]
        rfl
      · rw [← hlist]
        simp [rerrAddUdest]
      · show m.destCount + 1 = _
        rw [hcount, List.length_append, List.length_singleton, BitVec.ofNat_add (b :: us).length 1]
        rfl
      · rw [lrUnicast_concat (List.cons_ne_nil b us), ← h.unicast]

theorem RtTable.Retimed.mends {rt rt' : RtTable} (h : rt.Retimed rt') :
    (rt'.Mends rrep ↔ rt.Mends rrep) ∧ rt'.mendedHops rrep = rt.mendedHops rrep := by
  unfold RtTable.Mends RtTable.mendedHops
  rw [h.flags, h.destAddr, h.nextHop, h.hcnt]
  exact ⟨Iff.rfl, rfl⟩

theorem RtTable.MovedTo.retimed {rt rt' rt'' : RtTable} (h : rt.MovedTo ipSrc rt')
    (h' : rt'.Retimed rt'') : rt.MovedTo ipSrc rt'' :=
  h.imp (fun hret => hret.trans h') fun hnext => h'.nextHop.trans hnext

theorem LrRerr.Notes.skip (h : s.Notes rrep ipSrc g n l) (hskip : ¬ (n.rt a).Mends rrep) :
    s.Notes rrep ipSrc g n (l ++ [a]) := by
  refine ⟨h.wf, fun b hb => h.unvisited b fun hmem => hb (List.mem_append_left _ hmem),
    h.visited, ?_⟩
  rw [lrListed_concat, if_neg fun hm => hskip hm.1, List.append_nil]
  exact h.reports

theorem not_over_of_movedTo (hwf : RtWf n) (hquiet : n.MendsQuietly rrep ipSrc) {n' : Node}
    (hmoved : ∀ b, Option.Rel (RtTable.MovedTo ipSrc) (n.lookup b) (n'.lookup b)) {rt₀ : RtTable}
    (hrt₀ : n.lookup a = some rt₀) (hmends : rt₀.Mends rrep)
    (hbreak : rt₀.Breaks (rt₀.mendedHops rrep)) {b : InAddr} (hb : b ≠ a) :
    ¬ (n'.rt b).Over a := by
  intro hover
  obtain ⟨hmem, hdest⟩ := hwf.lookup_eq_some.mp hrt₀
  obtain ⟨hsrc, hnone⟩ := hquiet rt₀ hmem hmends hbreak
  rw [hdest] at hsrc hnone
  have hrel := hmoved b
  rw [lookup_of_over hover] at hrel
  obtain ⟨rtb, hrtb, hret | hnext⟩ := optionRel_some hrel
  · obtain ⟨hmemb, hdestb⟩ := hwf.lookup_eq_some.mp hrtb
    exact hnone rtb hmemb (hdestb.trans_ne hb) (hret.over_iff.mp hover)
  · exact hsrc (hover.2.symm.trans hnext)

theorem LrRerr.Notes.entry (h : s.Notes rrep ipSrc g n l) {rt₀ : RtTable}
    (hrt₀ : n.lookup a = some rt₀) (ha : a ∉ l) :
    ∃ rt, s.node.lookup a = some rt ∧ rt₀.Retimed rt := by
  have hrel := h.unvisited a ha
  rw [hrt₀] at hrel
  exact some_optionRel hrel

theorem LrRerr.Notes.mend_quiet (hq : c.QuietRepairs) (hwf : RtWf n)
    (hquiet : n.MendsQuietly rrep ipSrc) (h : s.Notes rrep ipSrc g n l) {rt rt₀ : RtTable}
    (hrt₀ : n.lookup a = some rt₀) (hrt : s.node.lookup a = some rt) (hret : rt₀.Retimed rt)
    (hmends : rt₀.Mends rrep) :
    (rt.Breaks (rt.mendedHops rrep) → ∀ b, b ≠ a → ¬ (s.node.rt b).Over a) ∧
    (rtTableUpdate c a ipSrc (rt.mendedHops rrep) (rt.mendedSeqno rrep) rrep.lifetime .valid 0
      s.node).sendBuf = s.node.sendBuf ∧
    ∃ rt', (rtTableUpdate c a ipSrc (rt.mendedHops rrep) (rt.mendedSeqno rrep) rrep.lifetime
        .valid 0 s.node).lookup a = some rt' ∧
      rt'.nextHop = ipSrc ∧ rt'.precursors = rt₀.precursors ∧ rt'.nprec = rt₀.nprec := by
  have hover : rt.Breaks (rt.mendedHops rrep) → ∀ b, b ≠ a → ¬ (s.node.rt b).Over a := by
    rintro ⟨hfar, hone⟩ b hb
    rw [hret.mends.2] at hfar
    exact not_over_of_movedTo hwf hquiet h.visited hrt₀ hmends ⟨hfar, hret.hcnt ▸ hone⟩ hb
  obtain ⟨hbuf, rt', hrt', hnext, hprec, hnprec⟩ := rtTableUpdateGen_quiet hq h.wf hrt
    (hret.mends.1.mpr hmends).1 none ipSrc (rt.mendedSeqno rrep) rrep.lifetime .valid 0 hover
  exact ⟨hover, hbuf, rt', hrt', hnext, hprec.trans hret.precursors, hnprec.trans hret.nprec⟩

theorem LrRerr.Notes.mend (hl : c.LinkBreaks {}) (hs : c.SparesOthers) (hq : c.QuietRepairs)
    (hwf : RtWf n) (hquiet : n.MendsQuietly rrep ipSrc) (h : s.Notes rrep ipSrc g n l)
    {rt rt₀ : RtTable} (hrt₀ : n.lookup a = some rt₀) (hrt : s.node.lookup a = some rt)
    (hret : rt₀.Retimed rt) (hmends : rt₀.Mends rrep) :
    (lrRerrAdd a { s with
      node := rtTableUpdate c a ipSrc (rt.mendedHops rrep) (rt.mendedSeqno rrep) rrep.lifetime
        .valid 0 s.node }).Notes rrep ipSrc g n (l ++ [a]) := by
  have hsome : s.node.lookup a ≠ none := by
    rw [hrt]
    exact Option.some_ne_none rt
  have hwf' := h.wf.rtTableUpdateGen hl hsome none ipSrc (rt.mendedHops rrep)
    (rt.mendedSeqno rrep) rrep.lifetime 0
  obtain ⟨hover, hbuf, rt', hrt', hnext, hprec, hnprec⟩ :=
    h.mend_quiet hq hwf hquiet hrt₀ hrt hret hmends
  have hothers : ∀ b, b ≠ a → Option.Rel RtTable.Retimed (s.node.lookup b)
      ((rtTableUpdate c a ipSrc (rt.mendedHops rrep) (rt.mendedSeqno rrep) rrep.lifetime .valid 0
        s.node).lookup b) := fun b hb =>
    rtTableUpdateGen_others hl hs h.wf hb none ipSrc _ _ _ _ fun hbreak =>
      hover (rt_of_lookup hrt ▸ hbreak) b hb
  unfold rtTableUpdate at hothers hbuf hrt' ⊢
  generalize rtTableUpdateGen c none a ipSrc (rt.mendedHops rrep) (rt.mendedSeqno rrep)
    rrep.lifetime .valid 0 s.node = n' at *
  have hroutes := lrRerrAdd_routes a { s with node := n' }
  have hlook : ∀ b, (lrRerrAdd a { s with node := n' }).node.lookup b = n'.lookup b := fun b =>
    lookup_of_routes hroutes
  refine ⟨rtWf_of_routes hroutes hwf', fun b hb => ?_, fun b => ?_, ?_⟩
  · rw [hlook]
    have hba : b ≠ a := fun he => hb (he ▸ List.mem_append_right _ (List.mem_singleton_self _))
    exact optionRel_trans (R := RtTable.Retimed) (fun _ _ _ => RtTable.Retimed.trans)
      (h.unvisited b fun hmem => hb (List.mem_append_left _ hmem)) (hothers b hba)
  · rw [hlook]
    by_cases hba : b = a
    · rw [hba, hrt₀, hrt']
      exact .some (.inr hnext)
    · exact optionRel_comp (R := RtTable.MovedTo ipSrc) (S := RtTable.Retimed)
        (fun _ _ _ => RtTable.MovedTo.retimed) (h.visited b) (hothers b hba)
  · have hsame : LrRerr.Reports n g (n.lrListed rrep l) { s with node := n' } := by
      refine ⟨h.reports.made, fun hne => ?_, h.reports.unicast⟩
      dsimp only
      rw [hbuf]
      exact h.reports.message hne
    rw [lrListed_concat]
    have hadd := hsame.add (a := a) (by
      dsimp only
      rw [rt_of_lookup hrt']
      exact destAddr_of_lookup hrt') (by
      dsimp only
      rw [rt_of_lookup hrt', rt_of_lookup hrt₀, hprec]) (by
      dsimp only
      rw [rt_of_lookup hrt', rt_of_lookup hrt₀, hnprec])
    rw [rt_of_lookup hrt₀] at hadd ⊢
    simp only [hmends, true_and]
    exact hadd

theorem LrRerr.Notes.step (hl : c.LinkBreaks {}) (hs : c.SparesOthers) (hq : c.QuietRepairs)
    (hwf : RtWf n) (hquiet : n.MendsQuietly rrep ipSrc) (h : s.Notes rrep ipSrc g n l)
    {rt₀ : RtTable} (hrt₀ : n.lookup a = some rt₀) (ha : a ∉ l) :
    (lrRepairEntry c rrep ipSrc s a).Notes rrep ipSrc g n (l ++ [a]) := by
  obtain ⟨rt, hrt, hret⟩ := h.entry hrt₀ ha
  unfold lrRepairEntry
  rw [lrRepaired_eq, rt_of_lookup hrt]
  by_cases hmends : rt₀.Mends rrep
  · rw [if_pos (hret.mends.1.mpr hmends)]
    exact h.mend hl hs hq hwf hquiet hrt₀ hrt hret hmends
  · rw [if_neg fun hm => hmends (hret.mends.1.mp hm)]
    exact h.skip (rt_of_lookup hrt₀ ▸ hmends)

theorem notes_foldl (hl : c.LinkBreaks {}) (hs : c.SparesOthers) (hq : c.QuietRepairs)
    (hwf : RtWf n) (hquiet : n.MendsQuietly rrep ipSrc) (l' : List InAddr) :
    ∀ (l : List InAddr) (s : LrRerr), s.Notes rrep ipSrc g n l → (l ++ l').Nodup →
      (∀ a ∈ l', n.lookup a ≠ none) →
      (l'.foldl (lrRepairEntry c rrep ipSrc) s).Notes rrep ipSrc g n (l ++ l') := by
  induction l' with
  | nil =>
    intro l s h _ _
    rw [List.append_nil]
    exact h
  | cons a l' ih =>
    intro l s h hnodup hknown
    have ha : a ∉ l := fun hmem =>
      (List.disjoint_of_nodup_append hnodup) hmem List.mem_cons_self
    obtain ⟨rt₀, hrt₀⟩ := Option.ne_none_iff_exists'.mp (hknown a List.mem_cons_self)
    rw [List.append_cons] at hnodup ⊢
    exact ih _ _ (h.step hl hs hq hwf hquiet hrt₀ ha) hnodup
      fun b hb => hknown b (List.mem_cons_of_mem a hb)

end Walk

/-! ## The receiver -/

def lrRerrDest (s : LrRerr) : Option InAddr :=
  if s.made then
    if (rtTableFind s.node s.unicastDest).isSome ∧ s.node.sendBuf.rerrCount = 1 ∧
        s.unicastDest ≠ 0 then some s.unicastDest
    else if s.node.sendBuf.rerrCount ≠ 0 then some aodvBroadcast
    else none
  else none

theorem lrRerrSend_eq (s : LrRerr) : lrRerrSend c s = match lrRerrDest s with
    | none => s.node
    | some d => aodvSocketSend c d (rerrCalcSize s.node.sendBuf) 1 s.node := by
  unfold lrRerrSend sendRerr lrRerrDest
  dsimp only
  split_ifs <;> rfl

def lrRerrWalk (c : Ctx) (rrep : RREP) (ipSrc : InAddr) (n : Node) : LrRerr :=
  (n.entries.map (·.destAddr)).foldl (lrRepairEntry c rrep ipSrc)
    { unicastDest := c.env.uninitAddr, node := n }

/-- The destinations that the RERR of the repairing node is made for. -/
def Node.lrReported (n : Node) (rrep : RREP) : List InAddr :=
  n.lrListed rrep (n.entries.map (·.destAddr))

section Receiver

variable {rrep : RREP} {ipSrc g : InAddr} {n : Node} {s : LrRerr}

theorem LrRerr.Notes.start (hwf : RtWf n) (g : InAddr) :
    LrRerr.Notes rrep ipSrc g n [] { unicastDest := g, node := n } := by
  refine ⟨hwf, fun a _ => ?_, fun a => ?_, ⟨by simp [Node.lrListed], ?_, rfl⟩⟩
  · exact Node.Entrywise.of_lookup RtTable.Retimed.refl (fun _ => rfl) a
  · exact Node.Entrywise.of_lookup (fun rt => .inl (.refl rt)) (fun _ => rfl) a
  · exact fun hne => absurd rfl hne

theorem lookup_ne_none_of_mem (hwf : RtWf n) {a : InAddr} (ha : a ∈ n.entries.map (·.destAddr)) :
    n.lookup a ≠ none := by
  obtain ⟨rt, hrt, rfl⟩ := List.mem_map.mp ha
  rw [hwf.lookup_eq_some.mpr ⟨hrt, rfl⟩]
  exact Option.some_ne_none rt

theorem lrRerrWalk_notes (hl : c.LinkBreaks {}) (hs : c.SparesOthers) (hq : c.QuietRepairs)
    (hwf : RtWf n) (hquiet : n.MendsQuietly rrep ipSrc) :
    (lrRerrWalk c rrep ipSrc n).Notes rrep ipSrc c.env.uninitAddr n
      (n.entries.map (·.destAddr)) :=
  notes_foldl hl hs hq hwf hquiet _ [] _ (.start hwf _) hwf.table.nodup_entries
    fun _ => lookup_ne_none_of_mem hwf

/-- The local after further destinations: its first value if that was the precursor of all of
them, or zero. -/
theorem unicast_foldl (n : Node) (l : List InAddr) (u : InAddr) :
    l.foldl (fun u b => if u ≠ 0 ∧ (n.rt b).precursors.any (· ≠ u) then 0 else u) u =
      if ∀ b ∈ l, ∀ p ∈ (n.rt b).precursors, p = u then u else 0 := by
  induction l generalizing u with
  | nil => simp
  | cons b l ih =>
    rw [List.foldl_cons, ih]
    by_cases hall : ∀ p ∈ (n.rt b).precursors, p = u
    · have hstay : ¬ (u ≠ 0 ∧ (n.rt b).precursors.any (· ≠ u)) := by simpa using fun _ => hall
      rw [if_neg hstay]
      refine if_congr ?_ rfl rfl
      rw [List.forall_mem_cons, and_iff_right hall]
    · by_cases hu : u = 0
      · simp [hu]
      · have hclear : u ≠ 0 ∧ (n.rt b).precursors.any (· ≠ u) := ⟨hu, by simpa using hall⟩
        have hmore : ¬ ∀ b' ∈ b :: l, ∀ p ∈ (n.rt b').precursors, p = u := fun h =>
          hall (h b List.mem_cons_self)
        rw [if_pos hclear, if_neg hmore]
        exact ite_self 0

theorem lrUnicast_cons (n : Node) (g a : InAddr) (l : List InAddr) :
    n.lrUnicast g (a :: l) =
      if ∀ b ∈ l, ∀ p ∈ (n.rt b).precursors,
        p = if (n.rt a).nprec = 1 then (n.rt a).precursors.headD 0 else g then
        if (n.rt a).nprec = 1 then (n.rt a).precursors.headD 0 else g
      else 0 :=
  unicast_foldl n l _

end Receiver

/-! ## Who is told -/

/-- The RERR about the entries of `n` goes to every upstream node. -/
structure LrRerr.TellsUpstream (n : Node) (rrep : RREP) (s : LrRerr) : Prop where
  covered : ∀ rt ∈ n.entries, rt.Mends rrep → ∀ p ∈ rt.precursors,
    ∃ d, lrRerrDest s = some d ∧ (d = aodvBroadcast ∨ d = p)
  addressed : ∀ d, lrRerrDest s = some d → d = aodvBroadcast ∨
    ∃ m, s.node.sendBuf = .rerr m ∧ m.destCount = 1 ∧ (n.rt m.destAddr).precursors = [d]

def Node.CountsToZero (n : Node) (rrep : RREP) : Prop :=
  n.lrReported rrep ≠ [] ∧ (n.lrReported rrep).length % 256 = 0

/-- The first destination has several precursors, the local was never set, and what it holds is
the address `g` of an entry. -/
def Node.SendsAstray (n : Node) (rrep : RREP) (g : InAddr) : Prop :=
  ∃ a l, n.lrReported rrep = a :: l ∧ l.length % 256 = 0 ∧ (n.rt a).nprec ≠ 1 ∧
    g ≠ 0 ∧ g ≠ aodvBroadcast ∧ n.lookup g ≠ none ∧ ∀ b ∈ l, ∀ p ∈ (n.rt b).precursors, p = g

section Upstream

variable {rrep : RREP} {ipSrc g : InAddr} {n : Node} {s : LrRerr} {l : List InAddr}

theorem LrRerr.Notes.known (h : s.Notes rrep ipSrc g n l) (a : InAddr) :
    (rtTableFind s.node a).isSome ↔ n.lookup a ≠ none := by
  rw [h.wf.rtTableFind_eq_lookup]
  have hrel := h.visited a
  generalize n.lookup a = x at hrel ⊢
  generalize s.node.lookup a = y at hrel ⊢
  cases hrel <;> simp

theorem LrRerr.Notes.dest (h : s.Notes rrep ipSrc g n l) {us : List InAddr}
    (hus : n.lrListed rrep l = us) :
    lrRerrDest s = if us = [] then none
      else if n.lookup (n.lrUnicast g us) ≠ none ∧ us.length % 256 = 1 ∧ n.lrUnicast g us ≠ 0 then
        some (n.lrUnicast g us)
      else if us.length % 256 ≠ 0 then some aodvBroadcast
      else none := by
  obtain ⟨hmade, hmessage, hunicast⟩ := hus ▸ h.reports
  unfold lrRerrDest
  by_cases hnil : us = []
  · rw [if_neg fun hm => hmade.mp hm hnil, if_pos hnil]
  · obtain ⟨m, hbuf, -, hcount⟩ := hmessage hnil
    have hword : ∀ k : ℕ, k < 256 → (m.destCount = BitVec.ofNat 8 k ↔ us.length % 256 = k) := by
      intro k hk
      rw [hcount, ← BitVec.toNat_inj, BitVec.toNat_ofNat, BitVec.toNat_ofNat, Nat.mod_eq_of_lt (a := k) hk]
    have hone := hword 1 (by omega)
    have hzero := hword 0 (by omega)
    rw [if_pos (hmade.mpr hnil), if_neg hnil, hunicast, hbuf]
    exact if_congr (and_congr (h.known _) (and_congr_left' hone)) rfl
      (if_congr (not_congr hzero) rfl rfl)

theorem precursors_of_reported (hwf : RtWf n) {a : InAddr} (ha : a ∈ n.lrReported rrep) :
    (n.rt a).precursors ≠ [] ∧ ∃ rt ∈ n.entries, rt.Mends rrep ∧ n.rt a = rt := by
  obtain ⟨hmem, hmends, hnprec⟩ : a ∈ n.entries.map (·.destAddr) ∧ (n.rt a).Mends rrep ∧
      (n.rt a).nprec ≠ 0 := by simpa [Node.lrReported, Node.lrListed] using ha
  obtain ⟨rt, hrt, rfl⟩ := List.mem_map.mp hmem
  have hfind := rt_of_lookup (hwf.lookup_eq_some.mpr ⟨hrt, rfl⟩)
  rw [hfind] at hmends hnprec ⊢
  refine ⟨fun hnil => hnprec ?_, rt, hrt, hmends, rfl⟩
  rw [(hwf.precursors rt hrt).1, hnil]
  rfl

theorem reported_of_precursors (hwf : RtWf n) {rt : RtTable} (hrt : rt ∈ n.entries)
    (hmends : rt.Mends rrep) (hprec : rt.precursors ≠ []) : rt.destAddr ∈ n.lrReported rrep := by
  have hfind := rt_of_lookup (hwf.lookup_eq_some.mpr ⟨hrt, rfl⟩)
  have hnprec : rt.nprec ≠ 0 := by
    rw [(hwf.precursors rt hrt).1]
    simpa using hprec
  refine List.mem_filter.mpr ⟨List.mem_map_of_mem hrt, ?_⟩
  simpa [hfind] using ⟨hmends, hnprec⟩

theorem sole_precursor (hwf : RtWf n) (hstray : ¬ n.SendsAstray rrep g) {a : InAddr}
    {l : List InAddr} (hus : n.lrReported rrep = a :: l) (hcount : (a :: l).length % 256 = 1)
    (hknown : n.lookup (n.lrUnicast g (a :: l)) ≠ none) (hne : n.lrUnicast g (a :: l) ≠ 0) :
    n.lrUnicast g (a :: l) = aodvBroadcast ∨
      (n.rt a).precursors = [n.lrUnicast g (a :: l)] ∧
        ∀ b ∈ l, ∀ p ∈ (n.rt b).precursors, p = n.lrUnicast g (a :: l) := by
  have heq := lrUnicast_cons n g a l
  obtain ⟨hsome, rt, hrt, -, hfind⟩ :=
    precursors_of_reported hwf (hus ▸ List.mem_cons_self : a ∈ n.lrReported rrep)
  by_cases hall : ∀ b ∈ l, ∀ p ∈ (n.rt b).precursors,
      p = if (n.rt a).nprec = 1 then (n.rt a).precursors.headD 0 else g
  · rw [if_pos hall] at heq
    by_cases hone : (n.rt a).nprec = 1
    · rw [if_pos hone] at heq hall
      refine .inr ⟨?_, heq ▸ hall⟩
      have hlen : (n.rt a).precursors.length = 1 := by
        have hwell := (hwf.precursors rt hrt).1
        rw [← hfind] at hwell
        omega
      obtain ⟨p, hp⟩ := List.length_eq_one_iff.mp hlen
      rw [heq, hp]
      rfl
    · rw [if_neg hone] at heq hall
      rw [heq] at hknown hne ⊢
      refine .inl (by_contra fun hbcast => hstray ⟨a, l, hus, ?_, hone, hne, hbcast, hknown, hall⟩)
      rw [List.length_cons] at hcount
      omega
  · rw [if_neg hall] at heq
    exact absurd heq hne

theorem LrRerr.Notes.head (h : s.Notes rrep ipSrc g n l) {a : InAddr} {us : List InAddr}
    (hus : n.lrListed rrep l = a :: us) :
    ∃ m, s.node.sendBuf = .rerr m ∧ m.destAddr = a ∧
      m.destCount = BitVec.ofNat 8 (a :: us).length := by
  obtain ⟨m, hbuf, hlist, hcount⟩ := h.reports.message (hus ▸ List.cons_ne_nil a us)
  rw [hus] at hlist hcount
  exact ⟨m, hbuf, (List.cons.inj hlist).1, hcount⟩

theorem LrRerr.Notes.tells (hwf : RtWf n)
    (h : s.Notes rrep ipSrc g n (n.entries.map (·.destAddr)))
    (hzero : ¬ n.CountsToZero rrep) (hstray : ¬ n.SendsAstray rrep g) : s.TellsUpstream n rrep := by
  cases hus : n.lrReported rrep with
  | nil =>
    have hdest := h.dest hus
    rw [if_pos rfl] at hdest
    refine ⟨fun rt hrt hmends p hp => ?_, fun d hd => by cases hdest.symm.trans hd⟩
    have hmem := reported_of_precursors hwf hrt hmends (List.ne_nil_of_mem hp)
    rw [hus] at hmem
    cases hmem
  | cons a us =>
    have hlen : (a :: us).length % 256 ≠ 0 := fun hlen =>
      hzero ⟨hus ▸ List.cons_ne_nil a us, hus ▸ hlen⟩
    have hdest := h.dest hus
    rw [if_neg (List.cons_ne_nil a us)] at hdest
    by_cases huni : n.lookup (n.lrUnicast g (a :: us)) ≠ none ∧ (a :: us).length % 256 = 1 ∧
        n.lrUnicast g (a :: us) ≠ 0
    · rw [if_pos huni] at hdest
      obtain ⟨hknown, hcount, hne⟩ := huni
      have hsole := sole_precursor hwf hstray hus hcount hknown hne
      constructor
      · intro rt hrt hmends p hp
        refine ⟨_, hdest, hsole.imp_right fun ⟨hfirst, hrest⟩ => ?_⟩
        have hmem := reported_of_precursors hwf hrt hmends (List.ne_nil_of_mem hp)
        rw [← rt_of_lookup (hwf.lookup_eq_some.mpr ⟨hrt, rfl⟩)] at hp
        rw [hus] at hmem
        rcases List.mem_cons.mp hmem with heq | hmem
        · rw [heq, hfirst] at hp
          exact (List.mem_singleton.mp hp).symm
        · exact (hrest _ hmem p hp).symm
      · intro d hd
        cases hdest.symm.trans hd
        refine hsole.imp_right fun ⟨hfirst, _⟩ => ?_
        obtain ⟨m, hbuf, hhead, hm⟩ := h.head hus
        refine ⟨m, hbuf, ?_, hhead ▸ hfirst⟩
        rw [hm, ← BitVec.toNat_inj, BitVec.toNat_ofNat, hcount]
        rfl
    · rw [if_neg huni, if_pos hlen] at hdest
      exact ⟨fun rt _ _ p _ => ⟨_, hdest, .inl rfl⟩, fun d hd => by
        cases hdest.symm.trans hd
        exact .inl rfl⟩

theorem LrRerr.TellsUpstream.sound (hwf : RtWf n)
    (h : s.Notes rrep ipSrc g n (n.entries.map (·.destAddr))) (ht : s.TellsUpstream n rrep) :
    ¬ n.CountsToZero rrep ∧ ¬ n.SendsAstray rrep g := by
  constructor
  · rintro ⟨hne, hlen⟩
    obtain ⟨a, ha⟩ := List.exists_mem_of_ne_nil _ hne
    obtain ⟨hsome, rt, hrt, hmends, hfind⟩ := precursors_of_reported hwf ha
    obtain ⟨p, hp⟩ := List.exists_mem_of_ne_nil _ hsome
    obtain ⟨d, hd, -⟩ := ht.covered rt hrt hmends p (hfind ▸ hp)
    have hdest := h.dest (show n.lrListed rrep _ = n.lrReported rrep from rfl)
    rw [if_neg hne, if_neg (by omega), if_neg (not_not.mpr hlen)] at hdest
    cases hdest.symm.trans hd
  · rintro ⟨a, us, hus, hlen, hone, hg, hbcast, hknown, hall⟩
    have hfirst : n.lrUnicast g (a :: us) = g := by
      rw [lrUnicast_cons, if_neg hone, if_pos hall]
    have hcount : (a :: us).length % 256 = 1 := by
      rw [List.length_cons]
      omega
    have hdest := h.dest hus
    rw [hfirst, if_neg (List.cons_ne_nil a us), if_pos ⟨hknown, hcount, hg⟩] at hdest
    obtain ⟨m, hbuf, -, hprec⟩ := (ht.addressed g hdest).resolve_left hbcast
    obtain ⟨m', hbuf', hhead, -⟩ := h.head hus
    cases hbuf.symm.trans hbuf'
    rw [hhead] at hprec
    obtain ⟨-, rt, hrt, -, hfind⟩ :=
      precursors_of_reported hwf (hus ▸ List.mem_cons_self : a ∈ n.lrReported rrep)
    rw [hfind] at hone hprec
    apply hone
    rw [(hwf.precursors rt hrt).1, hprec]
    rfl

end Upstream

/-- The repairing node tells every upstream node, by broadcast or as the one precursor of the one
destination, unless the number of destinations has come round to zero or the local was never set. -/
theorem repair_told_upstream_iff (hl : c.LinkBreaks {}) (hs : c.SparesOthers)
    (hq : c.QuietRepairs) {n : Node} (hwf : RtWf n) {rrep : RREP} {rreplen : ℕ} (ipSrc : InAddr)
    (ipTtl : Int) (hlen : rrepSize ≤ rreplen) (hdest : rrep.destAddr ≠ n.ipaddr)
    (horig : rrep.origAddr = n.ipaddr) (hquiet : n.MendsQuietly rrep ipSrc) :
    (rrepProcessLr c rrep rreplen ipSrc ipTtl n = helloKeepAlive c
      (match lrRerrDest (lrRerrWalk c rrep ipSrc n) with
      | none => (lrRerrWalk c rrep ipSrc n).node
      | some d => aodvSocketSend c d (rerrCalcSize (lrRerrWalk c rrep ipSrc n).node.sendBuf) 1
          (lrRerrWalk c rrep ipSrc n).node)) ∧
    ((lrRerrWalk c rrep ipSrc n).TellsUpstream n rrep ↔
      ¬ n.CountsToZero rrep ∧ ¬ n.SendsAstray rrep c.env.uninitAddr) := by
  have hnotes := lrRerrWalk_notes hl hs hq hwf hquiet
  refine ⟨?_, fun ht => ht.sound hwf hnotes, fun ⟨hzero, hstray⟩ => hnotes.tells hwf hzero hstray⟩
  rw [rrepProcessLr_origin hlen hdest horig]
  unfold rrepLrOrigin
  rw [lrRerrSend_eq]
  rfl

/-! ## A route with two precursors -/

def upstreamNode : Node := precursorAdd 9 5 (precursorAdd 9 4 repairingNode)

theorem upstreamNode_rtWf : RtWf upstreamNode :=
  effects_preserve_rtWf repairingNode_rtWf ((precursorAdd_effects (c := repairCtx 0) (s := .all) 9 4
    repairingNode).trans (precursorAdd_effects 9 5 _))

theorem two_precursors_told :
    (lrRerrWalk (repairCtx 2000) replyOverNeighbor 3 upstreamNode).TellsUpstream upstreamNode
      replyOverNeighbor := by
  have hnone : ¬ upstreamNode.CountsToZero replyOverNeighbor ∧
      ¬ upstreamNode.SendsAstray replyOverNeighbor 0 :=
    ⟨fun h => absurd h.2 (by decide +kernel), fun ⟨_, _, _, _, _, hg, _⟩ => hg rfl⟩
  exact (repair_told_upstream_iff (c := repairCtx 2000)
    (described_linkBreaks sampleLog repairConf _) (described_sparesOthers sampleLog repairConf _)
    (described_quietRepairs sampleLog repairConf _) upstreamNode_rtWf 3 10 (le_refl rrepSize)
    (by decide +kernel) (by decide +kernel) (by
      unfold Node.MendsQuietly RtTable.Breaks RtTable.Over
      decide +kernel)).2.mpr hnone

/-- The local holds the address of 2, which has an entry. -/
theorem two_precursors_not_told :
    ¬ (lrRerrWalk ⟨repairConf, .described sampleLog repairConf, { now := 2000, uninitAddr := 2 }⟩
      replyOverNeighbor 3 upstreamNode).TellsUpstream upstreamNode replyOverNeighbor := by
  intro h
  obtain ⟨rt, hrt, hmends, hp⟩ : ∃ rt ∈ upstreamNode.entries, rt.Mends replyOverNeighbor ∧
      4 ∈ rt.precursors := by
    decide +kernel
  obtain ⟨d, hd, heq⟩ := h.covered rt hrt hmends 4 hp
  have hastray : lrRerrDest (lrRerrWalk ⟨repairConf, .described sampleLog repairConf,
      { now := 2000, uninitAddr := 2 }⟩ replyOverNeighbor 3 upstreamNode) = some 2 := by
    decide +kernel
  cases hastray.symm.trans hd
  exact absurd heq (by decide)

end AodvUU

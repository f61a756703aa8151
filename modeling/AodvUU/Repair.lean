import AodvUU.Updates
import AodvUU.SeekList

/-! # A local repair that succeeds

The walk over the table with which the repairing node takes in the reply. It is followed one
entry at a time; no entry is visited twice, and the link break of an update finds no valid route
over the neighbour that breaks. -/
namespace AodvUU

variable {c : Ctx}

/-! ## The order of the buckets -/

theorem RtWf.perm {n : Node} (h : RtWf n) {tbl : HashTable.Buckets rtTablesize RtTable}
    (hp : ∀ i, (tbl i).Perm (n.tbl i)) : RtWf { n with tbl := tbl } := by
  have hent : (HashTable.entries tbl).Perm n.entries := HashTable.entries_perm hp
  constructor
  · exact h.table.perm hp
  · exact fun rt hrt => h.hash rt (hent.mem_iff.mp hrt)
  · exact h.numEntries.trans hent.length_eq.symm
  · exact fun rt hrt => h.precursors rt (hent.mem_iff.mp hrt)

/-! ## One entry -/

/-- Where a route leads once the reply `rrep` has come in from `ipSrc`. -/
def RtTable.repaired (rrep : RREP) (ipSrc : InAddr) (rt : RtTable) : Course :=
  if hasFlag rt.flags rtRepair then
    if rt.destAddr = rrep.destAddr then
      ⟨ipSrc, rrep.hcnt.toNat + 1, rrep.destSeqno, .valid, 0⟩
    else if rt.nextHop = rrep.destAddr then
      ⟨ipSrc, rrep.hcnt.toNat + rt.hcnt.toNat, rt.destSeqno, .valid, 0⟩
    else rt.course
  else rt.course

/-- What the walk relies on: neighbours are their own next hops, no route leads over the
destination of the reply, and the hop counts do not wrap. -/
structure Node.Mendable (n : Node) (rrep : RREP) (ipSrc : InAddr) : Prop where
  oneHop : ∀ rt ∈ n.entries, rt.hcnt = 1 → rt.nextHop = rt.destAddr
  unrouted : ∀ rt ∈ n.entries, rt.destAddr ≠ rrep.destAddr → ¬ rt.Over rrep.destAddr
  direct : ipSrc = rrep.destAddr ↔ rrep.hcnt = 0
  short : ∀ rt ∈ n.entries, rrep.hcnt.toNat + rt.hcnt.toNat < 255

structure LrRerr.Mended (rrep : RREP) (ipSrc : InAddr) (n : Node) (l : List InAddr) (s : LrRerr) :
    Prop where
  wf : RtWf s.node
  course : ∀ a, s.node.course a =
    (n.lookup a).map fun rt => if a ∈ l then rt.repaired rrep ipSrc else rt.course

theorem updateFlags_zero (rt : RtTable) (state : RtState) : updateFlags rt state 0 = 0 := by
  unfold updateFlags
  split <;> rfl

theorem lrRerrAdd_routes (a : InAddr) (s : LrRerr) :
    (lrRerrAdd a s).node.routes = s.node.routes := by
  unfold lrRerrAdd
  dsimp only
  split_ifs <;> rfl

theorem rtWf_of_routes {n n' : Node} (h : n'.routes = n.routes) (hwf : RtWf n) : RtWf n' :=
  hwf.of_table (congrArg Routes.tbl h) (congrArg Routes.numEntries h)

section Walk

variable {rrep : RREP} {ipSrc a : InAddr} {n : Node} {l : List InAddr} {s : LrRerr}

/-- The entry of `a` is taken to the course `k`, and no other entry moves. -/
theorem LrRerr.Mended.move (h : s.Mended rrep ipSrc n l) {n' : Node} (hwf : RtWf n')
    {rt₀ : RtTable} (hrt₀ : n.lookup a = some rt₀)
    (hself : n'.course a = some (rt₀.repaired rrep ipSrc))
    (hothers : ∀ b, b ≠ a → n'.course b = s.node.course b) (made : Bool) (dest : InAddr) :
    (lrRerrAdd a ⟨made, dest, n'⟩).Mended rrep ipSrc n (a :: l) := by
  have hroutes := lrRerrAdd_routes a ⟨made, dest, n'⟩
  refine ⟨rtWf_of_routes hroutes hwf, fun b => ?_⟩
  rw [course_of_routes hroutes]
  by_cases hb : b = a
  · rw [hb, hrt₀, Option.map_some, if_pos List.mem_cons_self]
    exact hself
  · simp only [List.mem_cons, hb, false_or]
    exact (hothers b hb).trans (h.course b)

theorem LrRerr.Mended.skip (h : s.Mended rrep ipSrc n l) (ha : a ∉ l)
    (hskip : ∀ rt₀, n.lookup a = some rt₀ → rt₀.repaired rrep ipSrc = rt₀.course) :
    s.Mended rrep ipSrc n (a :: l) := by
  refine ⟨h.wf, fun b => (h.course b).trans ?_⟩
  cases hrt₀ : n.lookup b with
  | none => rfl
  | some rt₀ =>
    by_cases hb : b = a
    · subst hb
      simp [ha, hskip rt₀ hrt₀]
    · simp [hb]

theorem LrRerr.Mended.found (h : s.Mended rrep ipSrc n l) (ha : a ∉ l) {rt : RtTable}
    (hrt : s.node.lookup a = some rt) : ∃ rt₀, n.lookup a = some rt₀ ∧ rt.course = rt₀.course := by
  have hcourse := h.course a
  unfold Node.course at hcourse
  rw [hrt, Option.map_some] at hcourse
  obtain ⟨rt₀, hrt₀, heq⟩ := Option.map_eq_some_iff.mp hcourse.symm
  rw [if_neg ha] at heq
  exact ⟨rt₀, hrt₀, heq.symm⟩

theorem LrRerr.Mended.unrouted (h : s.Mended rrep ipSrc n l) (hm : n.Mendable rrep ipSrc)
    (hwf : RtWf n) (hhops : rrep.hcnt ≠ 0) {b : InAddr} (hb : b ≠ rrep.destAddr) :
    ¬ (s.node.rt b).Over rrep.destAddr := by
  intro hover
  have hcourse := h.course b
  unfold Node.course at hcourse
  rw [lookup_of_over hover, Option.map_some] at hcourse
  obtain ⟨rt₀, hrt₀, heq⟩ := Option.map_eq_some_iff.mp hcourse.symm
  obtain ⟨hmem, hdest⟩ := hwf.lookup_eq_some.mp hrt₀
  have hold : ¬ rt₀.Over rrep.destAddr := hm.unrouted rt₀ hmem (hdest.trans_ne hb)
  have hstate : (s.node.rt b).course.state = .valid := hover.1
  have hnext : (s.node.rt b).course.nextHop = rrep.destAddr := hover.2
  have hne : ipSrc ≠ rrep.destAddr := fun he => hhops (hm.direct.mp he)
  have hcases : rt₀.course = (s.node.rt b).course ∨ (s.node.rt b).course.nextHop = ipSrc := by
    rw [← heq]
    unfold RtTable.repaired
    split_ifs <;> simp
  rcases hcases with hsame | hmoved
  · rw [← hsame] at hstate hnext
    exact hold ⟨hstate, hnext⟩
  · exact hne (hmoved.symm.trans hnext)

theorem course_eq_iff {rt rt₀ : RtTable} : rt.course = rt₀.course ↔ rt.nextHop = rt₀.nextHop ∧
    rt.hcnt = rt₀.hcnt ∧ rt.destSeqno = rt₀.destSeqno ∧ rt.state = rt₀.state ∧
    rt.flags = rt₀.flags := by
  simp [RtTable.course, BitVec.toNat_inj]

theorem LrRerr.Mended.update (hl : c.LinkBreaks {}) (hs : c.SparesOthers)
    (h : s.Mended rrep ipSrc n l) {rt rt₀ : RtTable} (hrt : s.node.lookup a = some rt)
    (hrt₀ : n.lookup a = some rt₀) {hops : BitVec 8} {seqno : BitVec 32}
    (hgoal : rt₀.repaired rrep ipSrc = ⟨ipSrc, hops.toNat, seqno, .valid, 0⟩)
    (hover : rt.Breaks hops → ∀ b, b ≠ a → ¬ (s.node.rt b).Over a) :
    (lrRerrAdd a { s with
      node := rtTableUpdate c a ipSrc hops seqno rrep.lifetime .valid 0 s.node }).Mended
      rrep ipSrc n (a :: l) := by
  have hsome : s.node.lookup a ≠ none := by
    rw [hrt]
    exact Option.some_ne_none rt
  have hwf := h.wf.rtTableUpdateGen hl hsome none ipSrc hops seqno rrep.lifetime 0
  refine h.move hwf hrt₀ ?_ (fun b hb => ?_) s.made s.unicastDest
  · have hself := rtTableUpdateGen_course hl hrt none ipSrc hops seqno rrep.lifetime .valid 0
    rw [updateFlags_zero] at hself
    rw [hgoal]
    exact hself
  · refine rtTableUpdateGen_course_other hl hs h.wf hb none ipSrc _ _ _ _ fun hbreak => ?_
    rw [rt_of_lookup hrt] at hbreak
    exact hover hbreak b hb

theorem LrRerr.Mended.dest (hl : c.LinkBreaks {}) (hs : c.SparesOthers) (hwf : RtWf n)
    (hm : n.Mendable rrep ipSrc) (h : s.Mended rrep ipSrc n l) {rt rt₀ : RtTable}
    (hrt : s.node.lookup a = some rt) (hrt₀ : n.lookup a = some rt₀)
    (hflag : hasFlag rt₀.flags rtRepair) (hN : a = rrep.destAddr) :
    (lrRerrAdd a { s with
      node := rtTableUpdate c a ipSrc (rrep.hcnt + 1) rrep.destSeqno rrep.lifetime .valid 0
        s.node }).Mended rrep ipSrc n (a :: l) := by
  obtain ⟨hmem, hdest⟩ := hwf.lookup_eq_some.mp hrt₀
  have hshort := hm.short rt₀ hmem
  have hops : (rrep.hcnt + 1).toNat = rrep.hcnt.toNat + 1 := by
    rw [BitVec.toNat_add]
    exact Nat.mod_eq_of_lt (by simp; omega)
  refine h.update hl hs hrt hrt₀ ?_ fun hbreak b hb => ?_
  · rw [RtTable.repaired, if_pos hflag, if_pos (hdest.trans hN), hops]
  · have hfar : 1 < (rrep.hcnt + 1).toNat := hbreak.1
    have hzero : rrep.hcnt ≠ 0 := by
      intro hzero
      rw [hops, hzero] at hfar
      simp at hfar
    rw [hN] at hb ⊢
    exact h.unrouted hm hwf hzero hb

theorem LrRerr.Mended.via (hl : c.LinkBreaks {}) (hs : c.SparesOthers) (hwf : RtWf n)
    (hm : n.Mendable rrep ipSrc) (h : s.Mended rrep ipSrc n l) {rt rt₀ : RtTable}
    (hrt : s.node.lookup a = some rt) (hrt₀ : n.lookup a = some rt₀)
    (hcourse : rt.course = rt₀.course) (hflag : hasFlag rt₀.flags rtRepair)
    (hN : a ≠ rrep.destAddr) (hvia : rt₀.nextHop = rrep.destAddr) :
    (lrRerrAdd a { s with
      node := rtTableUpdate c a ipSrc (rrep.hcnt + rt.hcnt) rt.destSeqno rrep.lifetime .valid 0
        s.node }).Mended rrep ipSrc n (a :: l) := by
  obtain ⟨hmem, hdest⟩ := hwf.lookup_eq_some.mp hrt₀
  obtain ⟨-, hhcnt, hseqno, -, -⟩ := course_eq_iff.mp hcourse
  have hshort := hm.short rt₀ hmem
  have hops : (rrep.hcnt + rt.hcnt).toNat = rrep.hcnt.toNat + rt₀.hcnt.toNat := by
    rw [hhcnt, BitVec.toNat_add]
    exact Nat.mod_eq_of_lt (by omega)
  refine h.update hl hs hrt hrt₀ ?_ fun hbreak b hb => ?_
  · rw [RtTable.repaired, if_pos hflag, if_neg (hdest.trans_ne hN), if_pos hvia, hops, hseqno]
  · have hnear := hm.oneHop rt₀ hmem (hhcnt.symm.trans hbreak.2)
    exact (hN (hdest.symm.trans (hnear.symm.trans hvia))).elim

theorem LrRerr.Mended.step (hl : c.LinkBreaks {}) (hs : c.SparesOthers) (hwf : RtWf n)
    (hm : n.Mendable rrep ipSrc) (h : s.Mended rrep ipSrc n l) (ha : a ∉ l) :
    (lrRepairEntry c rrep ipSrc s a).Mended rrep ipSrc n (a :: l) := by
  cases hrt : s.node.lookup a with
  | none =>
    have hnone : n.lookup a = none := by
      have hcourse := h.course a
      unfold Node.course at hcourse
      rw [hrt] at hcourse
      exact Option.map_eq_none_iff.mp hcourse.symm
    have hpass : lrRepairEntry c rrep ipSrc s a = s := by
      have hdefault : s.node.rt a = default := by simp [Node.rt, hrt]
      unfold lrRepairEntry lrRepaired
      rw [hdefault]
      rfl
    rw [hpass]
    exact h.skip ha fun rt₀ hrt₀ => by cases hnone.symm.trans hrt₀
  | some rt =>
    obtain ⟨rt₀, hrt₀, hcourse⟩ := h.found ha hrt
    have hdest := destAddr_of_lookup hrt
    have hdest₀ := destAddr_of_lookup hrt₀
    obtain ⟨hnext, -, -, -, hflags⟩ := course_eq_iff.mp hcourse
    have hskip : rt₀.repaired rrep ipSrc = rt₀.course → s.Mended rrep ipSrc n (a :: l) := by
      intro hsame
      refine h.skip ha fun rt₁ hrt₁ => ?_
      cases hrt₀.symm.trans hrt₁
      exact hsame
    unfold lrRepairEntry lrRepaired
    rw [rt_of_lookup hrt]
    dsimp only
    rw [hflags, hnext, hdest]
    unfold RtTable.repaired at hskip
    rw [hdest₀] at hskip
    by_cases hflag : hasFlag rt₀.flags rtRepair
    · rw [if_pos hflag] at hskip ⊢
      by_cases hN : a = rrep.destAddr
      · rw [if_pos hN]
        exact h.dest hl hs hwf hm hrt hrt₀ hflag hN
      · rw [if_neg hN] at hskip ⊢
        by_cases hvia : rt₀.nextHop = rrep.destAddr
        · rw [if_pos hvia]
          exact h.via hl hs hwf hm hrt hrt₀ hcourse hflag hN hvia
        · rw [if_neg hvia] at hskip ⊢
          exact hskip rfl
    · rw [if_neg hflag] at hskip ⊢
      exact hskip rfl

theorem mended_foldl (hl : c.LinkBreaks {}) (hs : c.SparesOthers) (hwf : RtWf n)
    (hm : n.Mendable rrep ipSrc) (l' : List InAddr) :
    ∀ (l : List InAddr) (s : LrRerr), s.Mended rrep ipSrc n l → l'.Nodup → (∀ a ∈ l', a ∉ l) →
      (l'.foldl (lrRepairEntry c rrep ipSrc) s).Mended rrep ipSrc n (l'.reverse ++ l) := by
  induction l' with
  | nil => exact fun l s h _ _ => h
  | cons a l' ih =>
    intro l s h hnodup hnew
    obtain ⟨ha, hnodup'⟩ := List.nodup_cons.mp hnodup
    have hstep := h.step hl hs hwf hm (hnew a List.mem_cons_self)
    rw [List.foldl_cons, List.reverse_cons, List.append_assoc]
    refine ih (a :: l) _ hstep hnodup' fun b hb hmem => ?_
    rcases List.mem_cons.mp hmem with rfl | hmem
    · exact ha hb
    · exact hnew b (List.mem_cons_of_mem a hb) hmem

end Walk

/-! ## The whole walk -/

theorem rrepProcessLr_origin {rrep : RREP} {rreplen : ℕ} {n : Node} (hlen : rrepSize ≤ rreplen)
    (hdest : rrep.destAddr ≠ n.ipaddr) (horig : rrep.origAddr = n.ipaddr) (ipSrc : InAddr)
    (ipTtl : Int) : rrepProcessLr c rrep rreplen ipSrc ipTtl n =
      helloKeepAlive c (rrepLrOrigin c rrep ipSrc n) := by
  unfold rrepProcessLr
  rw [if_neg (by omega), if_neg hdest, if_pos horig]

theorem lrRerrSend_routes (s : LrRerr) : (lrRerrSend c s).routes = s.node.routes := by
  unfold lrRerrSend
  split
  · exact sendRerr_routes _ _
  · rfl

theorem rrepLrOrigin_course (hl : c.LinkBreaks {}) (hs : c.SparesOthers) {n : Node} (hwf : RtWf n)
    {rrep : RREP} {ipSrc : InAddr} (hm : n.Mendable rrep ipSrc) (a : InAddr) :
    (rrepLrOrigin c rrep ipSrc n).course a = (n.lookup a).map (RtTable.repaired rrep ipSrc) := by
  have hstart : LrRerr.Mended rrep ipSrc n [] { unicastDest := c.env.uninitAddr, node := n } :=
    ⟨hwf, fun a => by simp [Node.course]⟩
  have hend := mended_foldl hl hs hwf hm (n.entries.map (·.destAddr)) [] _ hstart
    hwf.table.nodup_entries fun _ _ => List.not_mem_nil
  unfold rrepLrOrigin
  rw [course_of_routes (lrRerrSend_routes _), hend.course a]
  cases hrt : n.lookup a with
  | none => rfl
  | some rt =>
    obtain ⟨hmem, hdest⟩ := hwf.lookup_eq_some.mp hrt
    have hvisited : a ∈ (n.entries.map (·.destAddr)).reverse ++ [] := by
      rw [List.append_nil, List.mem_reverse]
      exact List.mem_map.mpr ⟨rt, hmem, hdest⟩
    rw [Option.map_some, Option.map_some, if_pos hvisited]

theorem rrepProcessLr_course (hl : c.LinkBreaks {}) (hs : c.SparesOthers) {n : Node} (hwf : RtWf n)
    {rrep : RREP} {rreplen : ℕ} {ipSrc : InAddr} (hm : n.Mendable rrep ipSrc) (ipTtl : Int)
    (hlen : rrepSize ≤ rreplen) (hdest : rrep.destAddr ≠ n.ipaddr) (horig : rrep.origAddr = n.ipaddr)
    (a : InAddr) : (rrepProcessLr c rrep rreplen ipSrc ipTtl n).course a =
      (n.lookup a).map (RtTable.repaired rrep ipSrc) := by
  rw [rrepProcessLr_origin hlen hdest horig, course_of_routes (helloKeepAlive_routes _)]
  exact rrepLrOrigin_course hl hs hwf hm a

theorem Node.Mendable.perm {n : Node} {rrep : RREP} {ipSrc : InAddr} (h : n.Mendable rrep ipSrc)
    {tbl : HashTable.Buckets rtTablesize RtTable} (hp : ∀ i, (tbl i).Perm (n.tbl i)) :
    Node.Mendable { n with tbl := tbl } rrep ipSrc := by
  have hent : (HashTable.entries tbl).Perm n.entries := HashTable.entries_perm hp
  constructor
  · exact fun rt hrt => h.oneHop rt (hent.mem_iff.mp hrt)
  · exact fun rt hrt => h.unrouted rt (hent.mem_iff.mp hrt)
  · exact h.direct
  · exact fun rt hrt => h.short rt (hent.mem_iff.mp hrt)

/-- A local repair reply that reaches the repairing node restores the marked routes to its
destination and over it, and no others, in whatever order the entries lie in their buckets. -/
theorem local_repair_restores (hl : c.LinkBreaks {}) (hs : c.SparesOthers) {n : Node} (hwf : RtWf n)
    (rrep : RREP) {rreplen : ℕ} (ipSrc : InAddr) (ipTtl : Int) (hlen : rrepSize ≤ rreplen)
    (hdest : rrep.destAddr ≠ n.ipaddr) (horig : rrep.origAddr = n.ipaddr)
    (hone : ∀ rt ∈ n.entries, rt.hcnt = 1 → rt.nextHop = rt.destAddr)
    (hover : ∀ rt ∈ n.entries, rt.destAddr ≠ rrep.destAddr →
      ¬ (rt.state = .valid ∧ rt.nextHop = rrep.destAddr))
    (hdirect : ipSrc = rrep.destAddr ↔ rrep.hcnt = 0)
    (hshort : ∀ rt ∈ n.entries, rrep.hcnt.toNat + rt.hcnt.toNat < 255) :
    (∀ a rt, n.lookup a = some rt →
      ∃ rt', (rrepProcessLr c rrep rreplen ipSrc ipTtl n).lookup a = some rt' ∧
        rt'.course =
          if hasFlag rt.flags rtRepair ∧ a = rrep.destAddr then
            ⟨ipSrc, rrep.hcnt.toNat + 1, rrep.destSeqno, .valid, 0⟩
          else if hasFlag rt.flags rtRepair ∧ rt.nextHop = rrep.destAddr then
            ⟨ipSrc, rrep.hcnt.toNat + rt.hcnt.toNat, rt.destSeqno, .valid, 0⟩
          else rt.course) ∧
    (∀ a, n.lookup a = none → (rrepProcessLr c rrep rreplen ipSrc ipTtl n).lookup a = none) ∧
    ∀ tbl : HashTable.Buckets rtTablesize RtTable, (∀ i, (tbl i).Perm (n.tbl i)) → ∀ a,
      (rrepProcessLr c rrep rreplen ipSrc ipTtl { n with tbl := tbl }).course a =
        (rrepProcessLr c rrep rreplen ipSrc ipTtl n).course a := by
  have hm : n.Mendable rrep ipSrc := ⟨hone, hover, hdirect, hshort⟩
  have hcourse := rrepProcessLr_course hl hs hwf hm ipTtl hlen hdest horig
  refine ⟨fun a rt hrt => ?_, fun a hnone => ?_, fun tbl hp a => ?_⟩
  · have hafter := hcourse a
    rw [hrt, Option.map_some] at hafter
    obtain ⟨rt', hrt', heq⟩ := Option.map_eq_some_iff.mp hafter
    refine ⟨rt', hrt', heq.trans ?_⟩
    unfold RtTable.repaired
    rw [destAddr_of_lookup hrt]
    by_cases hflag : hasFlag rt.flags rtRepair <;> simp [hflag]
  · have hafter := hcourse a
    rw [hnone] at hafter
    exact Option.map_eq_none_iff.mp hafter
  · rw [rrepProcessLr_course hl hs (hwf.perm hp) (hm.perm hp) ipTtl hlen hdest horig, hcourse a]
    exact congrArg (Option.map _) (hwf.table.lookup_perm hp a)

/-! ## A reply over another neighbour -/

theorem repairingNode_rtWf : RtWf repairingNode :=
  reachable_rtWf (described_within trivial (fun _ _ h => h) sampleLog repairConf)
    repairingNode_reachable.reachable

def replyOverNeighbor : RREP := rrepCreate rrepLocalRepair 1 2 4 1 5000

theorem repaired_over_neighbor :
    ∃ rt', (rrepProcessLr (repairCtx 2000) replyOverNeighbor rrepSize 3 10 repairingNode).lookup 9 =
      some rt' ∧ rt'.course = ⟨3, 3, 7, .valid, 0⟩ := by
  have hentries : ∀ rt ∈ repairingNode.entries, (rt.hcnt = 1 → rt.nextHop = rt.destAddr) ∧
      ¬ (rt.state = .valid ∧ rt.nextHop = replyOverNeighbor.destAddr) ∧
      replyOverNeighbor.hcnt.toNat + rt.hcnt.toNat < 255 := by
    decide +kernel
  obtain ⟨rt, hrt, hcourse⟩ : ∃ rt, repairingNode.lookup 9 = some rt ∧
      rt.course = ⟨2, 2, 7, .invalid, rtRepair⟩ :=
    Option.map_eq_some_iff.mp (show repairingNode.course 9 = some _ by decide +kernel)
  obtain ⟨rt', hrt', heq⟩ := (local_repair_restores (c := repairCtx 2000)
    (described_linkBreaks sampleLog repairConf _) (described_sparesOthers sampleLog repairConf _)
    repairingNode_rtWf replyOverNeighbor 3 10 (le_refl rrepSize) (by decide) (by decide +kernel)
    (fun rt hrt => (hentries rt hrt).1) (fun rt hrt _ => (hentries rt hrt).2.1) (by decide)
    fun rt hrt => (hentries rt hrt).2.2).1 9 rt hrt
  have hflags : rt.flags = rtRepair := congrArg Course.flags hcourse
  have hnext : rt.nextHop = 2 := congrArg Course.nextHop hcourse
  have hhcnt : rt.hcnt.toNat = 2 := congrArg Course.hcnt hcourse
  have hseqno : rt.destSeqno = 7 := congrArg Course.destSeqno hcourse
  refine ⟨rt', hrt', heq.trans ?_⟩
  rw [hflags, hnext, hhcnt, hseqno]
  exact (if_neg (by decide)).trans (if_pos (by decide))

end AodvUU

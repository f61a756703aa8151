import AodvUU.Lib.SlotBuffer
import AodvUU.LrAnswers
import AodvUU.LrErrors
import AodvUU.LocalRepairWire

/-! # The send buffer

Local repair assembles its messages by appending one destination after the other. How many there
are depends on the routing table. -/
namespace AodvUU

variable {c : Ctx}

def sendBufSize : ℕ := recvBufSize

/-! ## The three layouts -/

def rreqSlots : SlotBuffer.Layout 32 where
  fixed := rreqSize
  slot := aodvExtHdrSize + 12
  slot_pos := by decide
  offset count := 2 * (count.toNat - 1) + (rreqSize + (count.toNat - 1) * 12)
  offset_eq count _ := by
    have hhdr : aodvExtHdrSize = 2 := rfl
    rw [hhdr]
    omega

def rrepSlots : SlotBuffer.Layout 32 where
  fixed := rrepSize
  slot := aodvExtHdrSize + 8
  slot_pos := by decide
  offset count := 2 * (count.toNat - 1) + (rrepSize + (count.toNat - 1) * 8)
  offset_eq count _ := by
    have hhdr : aodvExtHdrSize = 2 := rfl
    rw [hhdr]
    omega

def rerrSlots : SlotBuffer.Layout 8 where
  fixed := rerrSize
  slot := rerrUdestSize
  slot_pos := by decide
  offset count := rerrSize + count.toNat * rerrUdestSize - rerrUdestSize
  offset_eq count hne := by
    have hsize : rerrUdestSize = 8 := rfl
    have hpos : count.toNat ≠ 0 := fun h => hne (BitVec.eq_of_toNat_eq h)
    rw [hsize]
    omega

-- The lengths with which the three are sent.
example (q : RREQ) (p : RREP) (e : AodvMsg) : rreqExtOffset q = rreqSlots.offset q.destCount ∧
    rrepExtOffset p = rrepSlots.offset p.destCount ∧ rerrCalcSize e = rerrSlots.offset e.rerrCount :=
  ⟨rfl, rfl, rfl⟩

/-! ## Requests -/

/-- The requests that the calls of `rreq_add_udest` in the table walk find. -/
def repairFound (nextHop : InAddr) : List RtTable → RREQ → List RREQ
  | [], _ => []
  | u :: us, m =>
    (if u.destAddr = nextHop then [] else [m]) ++ repairFound nextHop us (repairAdd nextHop m u)

def repairRequestFound (n : Node) (a : InAddr) : List RREQ :=
  let rt := n.rt a
  let m := (rreqCreate (rreqLocalRepairFlag ||| rreqDestOnly) rt.nextHop 0 n.ipaddr n).bufRreq
  if rt.nextHop ≠ rt.destAddr then
    m :: repairFound rt.nextHop (sharingNextHop rt n) (rreqAddUdest m rt.destAddr rt.destSeqno)
  else repairFound rt.nextHop (sharingNextHop rt n) m

theorem repairFound_counts (nextHop : InAddr) (us : List RtTable) {m : RREQ} {i : ℕ}
    (hm : m.destCount = BitVec.ofNat 32 i) :
    (repairFound nextHop us m).map (·.destCount) =
      SlotBuffer.counts 32 i (us.filter (·.destAddr ≠ nextHop)).length ∧
    (us.foldl (repairAdd nextHop) m).destCount =
      BitVec.ofNat 32 (i + (us.filter (·.destAddr ≠ nextHop)).length) := by
  induction us generalizing m i with
  | nil => exact ⟨rfl, hm⟩
  | cons u us ih =>
    unfold repairFound
    rw [List.foldl_cons]
    by_cases hu : u.destAddr = nextHop
    · have hadd : repairAdd nextHop m u = { m with destSeqno := u.destSeqno } := if_pos hu
      rw [if_pos hu, hadd, List.filter_cons_of_neg (by simpa using hu)]
      exact ih hm
    · have hadd : repairAdd nextHop m u = rreqAddUdest m u.destAddr u.destSeqno := if_neg hu
      have hcount : (rreqAddUdest m u.destAddr u.destSeqno).destCount = BitVec.ofNat 32 (i + 1) := by
        rw [BitVec.ofNat_add, ← hm]
        rfl
      obtain ⟨hfound, hlast⟩ := ih hcount
      rw [if_neg hu, hadd, List.filter_cons_of_pos (by simpa using hu), List.length_cons]
      refine ⟨?_, ?_⟩
      · rw [SlotBuffer.counts_succ, List.map_append, hfound]
        exact congrArg (· :: _) hm
      · rw [hlast, Nat.add_assoc, Nat.add_comm 1]

theorem repairRequestFound_counts (n : Node) (a : InAddr) :
    (repairRequestFound n a).map (·.destCount) = SlotBuffer.counts 32 1 (repairUdests n a).length ∧
    (repairRequest n a).destCount = BitVec.ofNat 32 ((repairUdests n a).length + 1) := by
  have hone : (rreqCreate (rreqLocalRepairFlag ||| rreqDestOnly) (n.rt a).nextHop 0 n.ipaddr
      n).bufRreq.destCount = BitVec.ofNat 32 1 := rfl
  unfold repairRequestFound repairRequest repairUdests repairEntries
  dsimp only
  generalize (rreqCreate (rreqLocalRepairFlag ||| rreqDestOnly) (n.rt a).nextHop 0 n.ipaddr
    n).bufRreq = m at hone ⊢
  rw [List.length_map, List.length_append]
  by_cases hown : (n.rt a).nextHop ≠ (n.rt a).destAddr
  · have htwo : (rreqAddUdest m (n.rt a).destAddr (n.rt a).destSeqno).destCount =
        BitVec.ofNat 32 2 := by
      show m.destCount + 1 = _
      rw [hone]
      rfl
    obtain ⟨hfound, hlast⟩ := repairFound_counts (n.rt a).nextHop (sharingNextHop (n.rt a) n) htwo
    rw [if_pos hown, if_pos hown, if_pos hown, List.length_singleton, Nat.add_comm 1]
    refine ⟨?_, ?_⟩
    · rw [List.map_cons, hfound, SlotBuffer.counts_succ]
      exact congrArg (· :: _) hone
    · rw [hlast]
      exact congrArg (BitVec.ofNat 32) (by omega)
  · obtain ⟨hfound, hlast⟩ := repairFound_counts (n.rt a).nextHop (sharingNextHop (n.rt a) n) hone
    rw [if_neg hown, if_neg hown, if_neg hown, List.length_nil, Nat.zero_add]
    exact ⟨hfound, hlast.trans (congrArg (BitVec.ofNat 32) (Nat.add_comm _ _))⟩

/-! ## Replies -/

/-- The replies that the calls of `rrep_add_udest` find. -/
def rrepFound : RREP → List Udest → List RREP
  | _, [] => []
  | m, ud :: uds => m :: rrepFound (rrepAddUdest m ud.destAddr ud.destSeqno) uds

def RREP.created (m : RREP) : RREP := { m with exts := [], destCount := 1 }

theorem rrepFound_counts {m : RREP} {i : ℕ} (hm : m.destCount = BitVec.ofNat 32 i)
    (uds : List Udest) :
    (rrepFound m uds).map (·.destCount) = SlotBuffer.counts 32 i uds.length := by
  induction uds generalizing m i with
  | nil => rfl
  | cons ud uds ih =>
    have hcount : (rrepAddUdest m ud.destAddr ud.destSeqno).destCount = BitVec.ofNat 32 (i + 1) := by
      rw [BitVec.ofNat_add, ← hm]
      rfl
    unfold rrepFound
    rw [List.map_cons, ih hcount, List.length_cons, SlotBuffer.counts_succ]
    exact congrArg (· :: _) hm

/-- The reply is assembled from what was created and `k` destinations. -/
structure RREP.Lists (m : RREP) (k : ℕ) : Prop where
  length : m.udests.length = k
  count : m.destCount = BitVec.ofNat 32 (k + 1)
  assembled :
    m = m.udests.foldl (fun m ud => rrepAddUdest m ud.destAddr ud.destSeqno) m.created

theorem rrepAddUdest_foldl_eq (m : RREP) (uds : List Udest) :
    uds.foldl (fun m ud => rrepAddUdest m ud.destAddr ud.destSeqno) m =
      { m with
        exts := m.exts ++ uds.map .rrepUdest
        destCount := m.destCount + BitVec.ofNat 32 uds.length } := by
  induction uds generalizing m with
  | nil => simp
  | cons ud uds ih =>
    rw [List.foldl_cons, ih, List.length_cons, Nat.add_comm, BitVec.ofNat_add, ← BitVec.add_assoc]
    simp [rrepAddUdest]

theorem RREP.lists_foldl {m : RREP} (hm : m.created = m) (uds : List Udest) :
    (uds.foldl (fun m ud => rrepAddUdest m ud.destAddr ud.destSeqno) m).Lists uds.length := by
  have hexts : m.exts = [] := hm ▸ rfl
  have hone : m.destCount = 1 := hm ▸ rfl
  have heq := rrepAddUdest_foldl_eq m uds
  have hudests : (uds.foldl (fun m ud => rrepAddUdest m ud.destAddr ud.destSeqno) m).udests =
      uds := by
    rw [heq]
    unfold RREP.udests
    rw [hexts, List.nil_append, List.filterMap_map]
    exact List.filterMap_some
  have hcreated : (uds.foldl (fun m ud => rrepAddUdest m ud.destAddr ud.destSeqno) m).created =
      m := by
    rw [heq]
    exact hm
  refine ⟨congrArg List.length hudests, ?_, ?_⟩
  · rw [rrepAddUdest_foldl, hone, BitVec.ofNat_add, BitVec.add_comm]
    rfl
  · rw [hcreated, hudests]

theorem mem_lrExtsReplies {orig : InAddr} {es : List Ext} {n : Node} {r : LrReply}
    (hr : r ∈ lrExtsReplies c orig es n) : r.rrep.Lists 1 := by
  induction es generalizing n with
  | nil => cases hr
  | cons e es ih =>
    cases e with
    | rreqUdest ud =>
      unfold lrExtsReplies at hr
      split at hr
      · rcases List.mem_cons.mp hr with rfl | hr
        · exact RREP.lists_foldl rfl [⟨ud.destAddr, (n.seqnoRaise ud.destSeqno).seqno⟩]
        · exact ih hr
      · exact ih hr
    | cost | rrepUdest | helloInterval | helloNeighborSet | other => exact ih hr

theorem lrDestinationReply_lists (rreq : RREQ) (n : Node) :
    (lrDestinationReply c rreq n).rrep.Lists rreq.udests.length := by
  have hlists := RREP.lists_foldl (m := rrepCreate rrepLocalRepair 0
    (n.seqnoRaise rreq.destSeqno).ipaddr (n.seqnoRaise rreq.destSeqno).seqno rreq.origAddr
    (msecs c.conf.myRouteTimeout)) rfl (rreq.udests.map fun ud => ⟨ud.destAddr, ud.destSeqno⟩)
  rw [List.foldl_map, List.length_map] at hlists
  exact hlists

theorem mem_lrReplies_lists (hl : c.LinkBreaks {}) {rreq : RREQ} {rreqlen : ℕ} {ipSrc : InAddr}
    {n : Node} {r : LrReply} (hr : r ∈ lrReplies c rreq rreqlen ipSrc n) :
    r.rrep.Lists 1 ∨ n.AnswersLr rreq rreqlen ipSrc ∧ r.rrep.Lists rreq.udests.length := by
  have hpass := lrPass_ipaddr hl rreq ipSrc n
  unfold lrReplies at hr
  split at hr
  · next htakes =>
    dsimp only at hr
    rw [hpass] at hr
    rcases List.mem_append.mp hr with hr | hr
    · exact .inl (mem_lrExtsReplies hr)
    · split at hr
      · next hdest =>
        refine .inr ⟨⟨htakes, hdest⟩, ?_⟩
        have hlists := lrDestinationReply_lists (c := c) { rreq with
          exts := (rreqLrExts c rreq.origAddr rreq.exts (rreqLrReverse c rreq ipSrc
            (rreqRecordInsert c rreq.origAddr rreq.rreqId n))).1 } (rreqLrExts c rreq.origAddr
          rreq.exts (rreqLrReverse c rreq ipSrc (rreqRecordInsert c rreq.origAddr rreq.rreqId n))).2
        have hlength := congrArg List.length (rreqLrExts_listed (c := c) rreq.origAddr rreq.exts
          (rreqLrReverse c rreq ipSrc (rreqRecordInsert c rreq.origAddr rreq.rreqId n)))
        rw [List.length_map, List.length_map] at hlength
        rw [List.mem_singleton.mp hr]
        exact hlength ▸ hlists
      · cases hr
  · cases hr

theorem RREP.Lists.stays_iff {m : RREP} {k : ℕ} (h : m.Lists k) :
    rrepSlots.Stays sendBufSize ((rrepFound m.created m.udests).map (·.destCount)) m.destCount ↔
      k ≤ 79 := by
  have hone : m.created.destCount = BitVec.ofNat 32 1 := rfl
  rw [rrepFound_counts hone, h.length, h.count]
  refine (SlotBuffer.Layout.stays_iff (L := rrepSlots) (by decide) (by decide)).trans ?_
  have hfixed : rrepSlots.fixed = 32 := rfl
  have hslot : rrepSlots.slot = 10 := rfl
  have hbuf : sendBufSize = 824 := rfl
  rw [hfixed, hslot, hbuf]
  omega

theorem lrReplies_stay_iff (hl : c.LinkBreaks {}) (rreq : RREQ) (rreqlen : ℕ) (ipSrc : InAddr)
    (n : Node) :
    (∀ r ∈ lrReplies c rreq rreqlen ipSrc n, rrepSlots.Stays sendBufSize
      ((rrepFound r.rrep.created r.rrep.udests).map (·.destCount)) r.rrep.destCount) ↔
    (n.AnswersLr rreq rreqlen ipSrc → rreq.udests.length ≤ 79) := by
  constructor
  · intro h hanswers
    obtain ⟨r, hr, -, hrouted⟩ := hanswers.reply hl
    have hlength : r.rrep.udests.length = rreq.udests.length := by
      have hlen := congrArg List.length hrouted
      unfold RREP.routed at hlen
      simpa using hlen
    rcases mem_lrReplies_lists hl hr with hlists | ⟨-, hlists⟩
    · have hone := hlists.length.symm.trans hlength
      omega
    · exact hlists.stays_iff.mp (h r hr)
  · intro h r hr
    rcases mem_lrReplies_lists hl hr with hlists | ⟨hanswers, hlists⟩
    · exact hlists.stays_iff.mpr (by omega)
    · exact hlists.stays_iff.mpr (h hanswers)

/-! ## Errors -/

/-- The messages that the calls of `rerr_add_udest` in the walk of the repairing node find. -/
def lrRerrFound (c : Ctx) (rrep : RREP) (ipSrc : InAddr) : List InAddr → LrRerr → List AodvMsg
  | [], _ => []
  | a :: l, s =>
    (match lrRepaired c rrep ipSrc a s.node with
    | none => []
    | some n => if (n.rt a).nprec ≠ 0 ∧ s.made then [n.sendBuf] else []) ++
      lrRerrFound c rrep ipSrc l (lrRepairEntry c rrep ipSrc s a)

section Errors

variable {rrep : RREP} {ipSrc g a : InAddr} {n : Node} {l : List InAddr} {s : LrRerr}

theorem lrListed_append (n : Node) (rrep : RREP) (l l' : List InAddr) :
    n.lrListed rrep (l ++ l') = n.lrListed rrep l ++ n.lrListed rrep l' := List.filter_append l l'

theorem LrRerr.Notes.found (hq : c.QuietRepairs) (hwf : RtWf n)
    (hquiet : n.MendsQuietly rrep ipSrc) (h : s.Notes rrep ipSrc g n l) {rt₀ : RtTable}
    (hrt₀ : n.lookup a = some rt₀) (ha : a ∉ l) :
    (match lrRepaired c rrep ipSrc a s.node with
    | none => []
    | some n => if (n.rt a).nprec ≠ 0 ∧ s.made then [n.sendBuf] else []) =
      if (n.rt a).Mends rrep ∧ (n.rt a).nprec ≠ 0 ∧ s.made then [s.node.sendBuf] else [] := by
  obtain ⟨rt, hrt, hret⟩ := h.entry hrt₀ ha
  rw [lrRepaired_eq, rt_of_lookup hrt, rt_of_lookup hrt₀]
  by_cases hmends : rt₀.Mends rrep
  · rw [if_pos (hret.mends.1.mpr hmends)]
    obtain ⟨-, hbuf, rt', hrt', -, -, hnprec⟩ :=
      h.mend_quiet hq hwf hquiet hrt₀ hrt hret hmends
    dsimp only
    rw [rt_of_lookup hrt', hbuf, hnprec]
    simp only [hmends, true_and]
  · rw [if_neg fun hm => hmends (hret.mends.1.mp hm), if_neg fun hm => hmends hm.1]

theorem lrRerrFound_counts (hl : c.LinkBreaks {}) (hs : c.SparesOthers) (hq : c.QuietRepairs)
    (hwf : RtWf n) (hquiet : n.MendsQuietly rrep ipSrc) (l' : List InAddr) :
    ∀ (l : List InAddr) (s : LrRerr), s.Notes rrep ipSrc g n l → (l ++ l').Nodup →
      (∀ a ∈ l', n.lookup a ≠ none) →
      (lrRerrFound c rrep ipSrc l' s).map AodvMsg.rerrCount =
        SlotBuffer.counts 8 (max 1 (n.lrListed rrep l).length)
          ((n.lrListed rrep (l ++ l')).length - max 1 (n.lrListed rrep l).length) := by
  induction l' with
  | nil =>
    intro l s _ _ _
    rw [List.append_nil, Nat.sub_eq_zero_of_le (Nat.le_max_right _ _)]
    rfl
  | cons a l' ih =>
    intro l s h hnodup hknown
    have ha : a ∉ l := fun hmem =>
      (List.disjoint_of_nodup_append hnodup) hmem List.mem_cons_self
    obtain ⟨rt₀, hrt₀⟩ := Option.ne_none_iff_exists'.mp (hknown a List.mem_cons_self)
    have hnext := h.step hl hs hq hwf hquiet hrt₀ ha
    rw [List.append_cons] at hnodup ⊢
    have hrest := ih _ _ hnext hnodup fun b hb => hknown b (List.mem_cons_of_mem a hb)
    unfold lrRerrFound
    rw [List.map_append, hrest, h.found hq hwf hquiet hrt₀ ha, lrListed_append n rrep (l ++ [a]) l',
      lrListed_concat]
    have hmade := h.reports.made
    have hmessage := h.reports.message
    generalize n.lrListed rrep l = us at hmade hmessage
    by_cases hlisted : (n.rt a).Mends rrep ∧ (n.rt a).nprec ≠ 0
    · rw [if_pos hlisted]
      by_cases hus : us = []
      · rw [if_neg fun happ => hmade.mp happ.2.2 hus, hus]
        rfl
      · obtain ⟨m, hbuf, -, hcount⟩ := hmessage hus
        have hpos : 0 < us.length := List.length_pos_of_ne_nil hus
        have hlen : (us ++ [a]).length = us.length + 1 := List.length_append
        have hall : (us ++ [a] ++ n.lrListed rrep l').length =
            us.length + 1 + (n.lrListed rrep l').length := by
          rw [List.length_append, hlen]
        have hleft : us.length + 1 + (n.lrListed rrep l').length - us.length =
            us.length + 1 + (n.lrListed rrep l').length - (us.length + 1) + 1 := by omega
        rw [if_pos ⟨hlisted.1, hlisted.2, hmade.mpr hus⟩, hall, hlen,
          Nat.max_eq_right (by omega), Nat.max_eq_right (by omega), hleft, SlotBuffer.counts_succ]
        refine congrArg (· :: _) ?_
        rw [hbuf]
        exact hcount
    · rw [if_neg hlisted, if_neg fun happ => hlisted ⟨happ.1, happ.2.1⟩, List.append_nil]
      rfl

/-- Nothing is made, or the number of destinations decides. -/
theorem lrRerrWalk_stays_iff (hl : c.LinkBreaks {}) (hs : c.SparesOthers) (hq : c.QuietRepairs)
    (hwf : RtWf n) (hquiet : n.MendsQuietly rrep ipSrc) :
    ((lrRerrWalk c rrep ipSrc n).made = true → rerrSlots.Stays sendBufSize
      ((lrRerrFound c rrep ipSrc (n.entries.map (·.destAddr))
        { unicastDest := c.env.uninitAddr, node := n }).map AodvMsg.rerrCount)
      (lrRerrWalk c rrep ipSrc n).node.sendBuf.rerrCount) ↔
    (n.lrReported rrep).length ≤ 101 := by
  have hend := lrRerrWalk_notes hl hs hq hwf hquiet
  have hfound := lrRerrFound_counts hl hs hq hwf hquiet (n.entries.map RtTable.destAddr) [] _
    (.start hwf c.env.uninitAddr) hwf.table.nodup_entries fun _ => lookup_ne_none_of_mem hwf
  rw [hfound, hend.reports.made, List.nil_append]
  change (n.lrReported rrep ≠ [] → rerrSlots.Stays sendBufSize (SlotBuffer.counts 8 1
    ((n.lrReported rrep).length - 1)) _) ↔ _
  by_cases hus : n.lrReported rrep = []
  · simp [hus]
  · obtain ⟨m, hbuf, -, hcount⟩ := hend.reports.message hus
    have hpos : 0 < (n.lrReported rrep).length := List.length_pos_of_ne_nil hus
    have hlast : (lrRerrWalk c rrep ipSrc n).node.sendBuf.rerrCount =
        BitVec.ofNat 8 ((n.lrReported rrep).length - 1 + 1) := by
      rw [hbuf, Nat.sub_add_cancel hpos]
      exact hcount
    rw [hlast]
    refine (imp_iff_right hus).trans
      ((SlotBuffer.Layout.stays_iff (L := rerrSlots) (by decide) (by decide)).trans ?_)
    have hfixed : rerrSlots.fixed = 24 := rfl
    have hslot : rerrSlots.slot = 8 := rfl
    have hcap : sendBufSize = 824 := rfl
    rw [hfixed, hslot, hcap]
    omega

end Errors

/-! ## All three -/

theorem repairRequest_stays_iff (n : Node) (a : InAddr) :
    rreqSlots.Stays sendBufSize ((repairRequestFound n a).map (·.destCount))
      (repairRequest n a).destCount ↔ (repairUdests n a).length ≤ 56 := by
  obtain ⟨hfound, hlast⟩ := repairRequestFound_counts n a
  rw [hfound, hlast]
  refine (SlotBuffer.Layout.stays_iff (L := rreqSlots) (by decide) (by decide)).trans ?_
  have hfixed : rreqSlots.fixed = 32 := rfl
  have hslot : rreqSlots.slot = 14 := rfl
  have hcap : sendBufSize = 824 := rfl
  rw [hfixed, hslot, hcap]
  omega

/-- Requests, replies and errors of local repair are assembled and sent inside the send buffer
exactly when they list at most 56, 79 and 101 destinations. -/
theorem messages_stay_iff (hl : c.LinkBreaks {}) (hs : c.SparesOthers) (hq : c.QuietRepairs)
    (n : Node) :
    (∀ a, (∀ rt, n.lookup a = some rt → hasFlag rt.flags rtRepair →
        ∃ t ttl s, rreqLocalRepair c a n = seekListInsert s (aodvSocketSend c aodvBroadcast
          (rreqExtOffset (repairRequest n a)) ttl
          { rreqCreate (rreqLocalRepairFlag ||| rreqDestOnly) rt.nextHop 0 n.ipaddr n with
            tbl := t, sendBuf := .rreq (repairRequest n a) })) ∧
      (rreqSlots.Stays sendBufSize ((repairRequestFound n a).map (·.destCount))
        (repairRequest n a).destCount ↔ (repairUdests n a).length ≤ 56)) ∧
    (∀ rreq rreqlen ipSrc,
      (∀ r ∈ lrReplies c rreq rreqlen ipSrc n, r.rrep =
        r.rrep.udests.foldl (fun m ud => rrepAddUdest m ud.destAddr ud.destSeqno) r.rrep.created) ∧
      ((∀ r ∈ lrReplies c rreq rreqlen ipSrc n, rrepSlots.Stays sendBufSize
          ((rrepFound r.rrep.created r.rrep.udests).map (·.destCount)) r.rrep.destCount) ↔
        (n.AnswersLr rreq rreqlen ipSrc → rreq.udests.length ≤ 79))) ∧
    ∀ rrep ipSrc, RtWf n → n.MendsQuietly rrep ipSrc →
      (((lrRerrWalk c rrep ipSrc n).made = true → rerrSlots.Stays sendBufSize
          ((lrRerrFound c rrep ipSrc (n.entries.map (·.destAddr))
            { unicastDest := c.env.uninitAddr, node := n }).map AodvMsg.rerrCount)
          (lrRerrWalk c rrep ipSrc n).node.sendBuf.rerrCount) ↔
        (n.lrReported rrep).length ≤ 101) := by
  refine ⟨fun a => ⟨fun rt hrt hflag => rreqLocalRepair_sends hrt hflag,
    repairRequest_stays_iff n a⟩, fun rreq rreqlen ipSrc => ⟨fun r hr => ?_,
    lrReplies_stay_iff hl rreq rreqlen ipSrc n⟩, fun rrep ipSrc hwf hquiet =>
    lrRerrWalk_stays_iff hl hs hq hwf hquiet⟩
  rcases mem_lrReplies_lists hl hr with hlists | ⟨-, hlists⟩
  · exact hlists.assembled
  · exact hlists.assembled

/-! ## A large table -/

/-- Agent 1 repairs its routes to some destinations over 200. -/
def repairsOver (k : ℕ) : Node :=
  (List.range k).foldl (fun n i => rtTableInsert (repairCtx 0) (BitVec.ofNat 32 (256 + i)) 200 2 7
    5000 .invalid rtRepair n) (Node.init (repairCtx 0) 1)

theorem repairsOver_rtWf (k : ℕ) : RtWf (repairsOver k) :=
  List.foldlRecOn (motive := RtWf) _ _ (init_rtWf 1) fun n hwf _ _ =>
    effects_preserve_rtWf hwf (rtTableInsert_effects (s := .all) trivial _ _ _ _ _ _ _ n)

def crowdedNode : Node := repairsOver 58

def mendingNode : Node :=
  [256, 257, 258].foldl (fun n a => precursorAdd a 7 n) (repairsOver 4)

theorem mendingNode_rtWf : RtWf mendingNode :=
  List.foldlRecOn (motive := RtWf) _ _ (repairsOver_rtWf 4) fun n hwf a _ =>
    effects_preserve_rtWf hwf (precursorAdd_effects (c := repairCtx 0) (s := .all) a 7 n)

def replyOver200 : RREP := rrepCreate rrepLocalRepair 0 200 6 1 600

/-- A request for four destinations, the replies to a request that lists three, and a route error
for three. -/
theorem small_messages_stay :
    ((repairUdests mendingNode 256).length = 4 ∧
      rreqSlots.Stays sendBufSize ((repairRequestFound mendingNode 256).map (·.destCount))
        (repairRequest mendingNode 256).destCount) ∧
    ((lrReplies (repairCtx 2000) (requestListing [1, 256, 257]) 62 3 mendingNode).length = 2 ∧
      ∀ r ∈ lrReplies (repairCtx 2000) (requestListing [1, 256, 257]) 62 3 mendingNode,
        rrepSlots.Stays sendBufSize
          ((rrepFound r.rrep.created r.rrep.udests).map (·.destCount)) r.rrep.destCount) ∧
    (lrRerrWalk (repairCtx 2000) replyOver200 3 mendingNode).node.sendBuf.rerrCount = 3 ∧
    rerrSlots.Stays sendBufSize
      ((lrRerrFound (repairCtx 2000) replyOver200 3 (mendingNode.entries.map (·.destAddr))
        { unicastDest := 0, node := mendingNode }).map AodvMsg.rerrCount)
      (lrRerrWalk (repairCtx 2000) replyOver200 3 mendingNode).node.sendBuf.rerrCount := by
  have hstay := messages_stay_iff (c := repairCtx 2000) (described_linkBreaks sampleLog repairConf _)
    (described_sparesOthers sampleLog repairConf _) (described_quietRepairs sampleLog repairConf _)
    mendingNode
  have hquiet : mendingNode.MendsQuietly replyOver200 3 := by
    unfold Node.MendsQuietly RtTable.Breaks RtTable.Over
    decide +kernel
  refine ⟨⟨by decide +kernel, (hstay.1 256).2.mpr (by decide +kernel)⟩, ⟨by decide +kernel, ?_⟩,
    by decide +kernel, ?_⟩
  · exact (hstay.2.1 (requestListing [1, 256, 257]) 62 3).2.mpr fun _ => by decide +kernel
  · exact (hstay.2.2 replyOver200 3 mendingNode_rtWf hquiet).mpr (by decide +kernel)
      (by decide +kernel)

/-- The 57th append ends at offset 830. -/
theorem large_request_overruns : RtWf crowdedNode ∧ hasFlag (crowdedNode.rt 256).flags rtRepair ∧
    ¬ rreqSlots.Stays sendBufSize ((repairRequestFound crowdedNode 256).map (·.destCount))
      (repairRequest crowdedNode 256).destCount := by
  refine ⟨repairsOver_rtWf 58, by decide +kernel, fun h => ?_⟩
  have hsent : rreqExtOffset (repairRequest crowdedNode 256) ≤ sendBufSize := h.sent
  exact absurd hsent (by decide +kernel)

end AodvUU

import AodvUU.LrReplies
import AodvUU.Retries

/-! # The replies to a local repair request

The handler calls `rrep_send` for every listed destination that is the node itself, and once more
where the node is the next hop sought. Only these replies are of type RREP_LR. -/
namespace AodvUU

variable (c : Ctx)

/-! ## The replies made -/

def RREQ.udests (rreq : RREQ) : List RreqUdest := rreq.exts.filterMap Ext.udest

/-- A reply passed to `rrep_send`, and the state it is made in. -/
structure LrReply where
  node : Node
  rrep : RREP

def LrReply.send (orig : InAddr) (r : LrReply) : Node :=
  rrepSend c orig none (rrepExtOffset r.rrep) (aodvSocketNewMsg (.rrep r.rrep) r.node)

def lrUdestReply (orig : InAddr) (ud : RreqUdest) (n : Node) : LrReply where
  node := n.seqnoRaise ud.destSeqno
  rrep := rrepAddUdest (rrepCreate rrepLocalRepair 0 (n.seqnoRaise ud.destSeqno).ipaddr
    (n.seqnoRaise ud.destSeqno).seqno orig (msecs c.conf.myRouteTimeout)) ud.destAddr
    (n.seqnoRaise ud.destSeqno).seqno

/-- The reply of the next hop sought is about itself and about all listed destinations. -/
def lrDestinationReply (rreq : RREQ) (n : Node) : LrReply where
  node := n.seqnoRaise rreq.destSeqno
  rrep := rreq.udests.foldl (fun m ud => rrepAddUdest m ud.destAddr ud.destSeqno)
    (rrepCreate rrepLocalRepair 0 (n.seqnoRaise rreq.destSeqno).ipaddr
      (n.seqnoRaise rreq.destSeqno).seqno rreq.origAddr (msecs c.conf.myRouteTimeout))

/-- The replies of the first pass, in the order of the list. -/
def lrExtsReplies (orig : InAddr) : List Ext → Node → List LrReply
  | [], _ => []
  | .rreqUdest ud :: es, n =>
    if ud.ifValid ≠ 0 ∧ ud.destAddr = n.ipaddr then
      lrUdestReply c orig ud n :: lrExtsReplies orig es ((lrUdestReply c orig ud n).send c orig)
    else lrExtsReplies orig es n
  | _ :: es, n => lrExtsReplies orig es n

def Node.TakesLr (n : Node) (rreq : RREQ) (rreqlen : ℕ) (ipSrc : InAddr) : Prop :=
  rreq.origAddr ≠ n.ipaddr ∧ rreqSize ≤ rreqlen ∧ rreqBlacklistFind n ipSrc = none ∧
    rreqRecordFind n rreq.origAddr rreq.rreqId = none

instance (n : Node) (rreq : RREQ) (rreqlen : ℕ) (ipSrc : InAddr) :
    Decidable (n.TakesLr rreq rreqlen ipSrc) :=
  inferInstanceAs (Decidable (_ ∧ _ ∧ _ = none ∧ _ = none))

/-- All RREP_LR that `rreq_process_lr` sends for a request. -/
def lrReplies (rreq : RREQ) (rreqlen : ℕ) (ipSrc : InAddr) (n : Node) : List LrReply :=
  if n.TakesLr rreq rreqlen ipSrc then
    let n := rreqRecordInsert c rreq.origAddr rreq.rreqId n |> rreqLrReverse c rreq ipSrc
    let r := rreqLrExts c rreq.origAddr rreq.exts n
    lrExtsReplies c rreq.origAddr rreq.exts n ++
      if rreq.destAddr = r.2.ipaddr then [lrDestinationReply c { rreq with exts := r.1 } r.2] else []
  else []

variable {c}

/-! ## They are what the handler sends -/

theorem rreqLrUdest_sends (orig : InAddr) (ud : RreqUdest) (n : Node) :
    rreqLrUdest c orig ud n = (lrUdestReply c orig ud n).send c orig := rfl

theorem foldl_listed {f : RREP → Ext → RREP}
    (hf : ∀ m e, f m e = match Ext.udest e with
      | some ud => rrepAddUdest m ud.destAddr ud.destSeqno
      | none => m) (es : List Ext) (m : RREP) :
    es.foldl f m =
      (es.filterMap Ext.udest).foldl (fun m ud => rrepAddUdest m ud.destAddr ud.destSeqno) m := by
  induction es generalizing m with
  | nil => rfl
  | cons e es ih =>
    rw [List.foldl_cons, ih, hf]
    cases e <;> rfl

theorem rreqLrDestination_sends (rreq : RREQ) (n : Node) :
    rreqLrDestination c rreq n = (lrDestinationReply c rreq n).send c rreq.origAddr := by
  unfold rreqLrDestination
  dsimp only
  rw [foldl_listed fun m e => by cases e <;> rfl]
  rfl

theorem rreqLrExts_sends (orig : InAddr) (es : List Ext) (n : Node) :
    (rreqLrExts c orig es n).2 =
      ((lrExtsReplies c orig es n).getLast?.map (LrReply.send c orig)).getD n := by
  induction es generalizing n with
  | nil => rfl
  | cons e es ih =>
    cases e with
    | rreqUdest ud =>
      unfold rreqLrExts lrExtsReplies
      split
      · dsimp only
        rw [ih, rreqLrUdest_sends, List.getLast?_cons]
        cases (lrExtsReplies c orig es ((lrUdestReply c orig ud n).send c orig)).getLast? <;> rfl
      · exact ih n
    | cost | rrepUdest | helloInterval | helloNeighborSet | other => exact ih n

theorem Node.TakesLr.process {rreq : RREQ} {rreqlen : ℕ} {ipSrc : InAddr} {n : Node}
    (h : n.TakesLr rreq rreqlen ipSrc) (ipTtl : Int) :
    rreqProcessLr c rreq rreqlen ipSrc ipTtl n =
      let r := rreqLrExts c rreq.origAddr rreq.exts
        (rreqLrReverse c rreq ipSrc (rreqRecordInsert c rreq.origAddr rreq.rreqId n))
      rreqLrAnswer c { rreq with exts := r.1 } rreqlen ipTtl r.2 := by
  obtain ⟨horig, hlen, hblack, hrec⟩ := h
  unfold rreqProcessLr
  rw [if_neg horig, if_neg (by omega), hblack, hrec, if_neg (by simp), if_neg (by simp)]

/-! ## What they list -/

theorem answered_foldl (m : RREP) (uds : List RreqUdest) :
    (uds.foldl (fun m ud => rrepAddUdest m ud.destAddr ud.destSeqno) m).udests =
      m.udests ++ uds.map fun ud => ⟨ud.destAddr, ud.destSeqno⟩ := by
  induction uds generalizing m with
  | nil => simp
  | cons ud uds ih =>
    have hone : (rrepAddUdest m ud.destAddr ud.destSeqno).udests =
        m.udests ++ [⟨ud.destAddr, ud.destSeqno⟩] := List.filterMap_append
    rw [List.foldl_cons, ih, hone, List.map_cons, List.append_assoc]
    rfl

theorem destAddr_foldl (m : RREP) (uds : List RreqUdest) :
    (uds.foldl (fun m ud => rrepAddUdest m ud.destAddr ud.destSeqno) m).destAddr = m.destAddr :=
  List.foldlRecOn (motive := fun m' : RREP => m'.destAddr = m.destAddr) _ _ rfl
    fun _ h _ _ => h

theorem lrDestinationReply_routed (rreq : RREQ) (n : Node) :
    (lrDestinationReply c rreq n).rrep.routed =
      rreq.udests.map (·.destAddr) ++ [n.ipaddr] := by
  have hown : (n.seqnoRaise rreq.destSeqno).ipaddr = n.ipaddr :=
    (seqnoRaise_sameTable rreq.destSeqno n).ipaddr
  unfold RREP.routed lrDestinationReply
  rw [answered_foldl, destAddr_foldl]
  simp [rrepCreate, RREP.udests, hown, Function.comp_def]

theorem lrUdestReply_routed (orig : InAddr) {ud : RreqUdest} {n : Node}
    (h : ud.destAddr = n.ipaddr) : (lrUdestReply c orig ud n).rrep.routed = [n.ipaddr, n.ipaddr] := by
  have hown : (n.seqnoRaise ud.destSeqno).ipaddr = n.ipaddr :=
    (seqnoRaise_sameTable ud.destSeqno n).ipaddr
  simp [RREP.routed, RREP.udests, lrUdestReply, rrepAddUdest, rrepCreate, Ext.answered, h, hown]

theorem rreqLrExts_listed (orig : InAddr) (es : List Ext) (n : Node) :
    ((rreqLrExts c orig es n).1.filterMap Ext.udest).map RreqUdest.destAddr =
      (es.filterMap Ext.udest).map RreqUdest.destAddr := by
  induction es generalizing n with
  | nil => rfl
  | cons e es ih =>
    cases e with
    | rreqUdest ud =>
      unfold rreqLrExts
      split
      · exact congrArg (ud.destAddr :: ·) (ih _)
      · exact congrArg (ud.destAddr :: ·) (ih n)
    | cost | rrepUdest | helloInterval | helloNeighborSet | other => exact ih n

/-! ## Destinations the replier can reach -/

/-- There is a valid route to `a` that does not lead back over `next`. -/
def Node.Reaches (n : Node) (a next : InAddr) : Prop :=
  ∃ rt, n.lookup a = some rt ∧ rt.state = .valid ∧ rt.nextHop ≠ next

theorem lrPass_ipaddr (hl : c.LinkBreaks {}) (rreq : RREQ) (ipSrc : InAddr) (n : Node) :
    (rreqLrExts c rreq.origAddr rreq.exts (rreqLrReverse c rreq ipSrc
      (rreqRecordInsert c rreq.origAddr rreq.rreqId n))).2.ipaddr = n.ipaddr := by
  have hexts := (rreqLrExts_effects (c := c) (s := .all) hl.widen trivial rreq.origAddr rreq.exts
    (rreqLrReverse c rreq ipSrc (rreqRecordInsert c rreq.origAddr rreq.rreqId n))).ipaddr
  have hrev := (rreqLrReverse_effects (updates_all hl.widen) trivial rreq ipSrc
    (rreqRecordInsert c rreq.origAddr rreq.rreqId n)).ipaddr
  exact (hexts.trans hrev).trans (congrArg Routes.ipaddr (rreqRecordInsert_routes _ _ n))

theorem lrExtsReplies_routed (hl : c.LinkBreaks {}) (orig : InAddr) (es : List Ext) {n : Node}
    {r : LrReply} (hr : r ∈ lrExtsReplies c orig es n) {d : InAddr} (hd : d ∈ r.rrep.routed) :
    d = n.ipaddr := by
  induction es generalizing n with
  | nil => cases hr
  | cons e es ih =>
    cases e with
    | rreqUdest ud =>
      unfold lrExtsReplies at hr
      split at hr
      · next hown =>
        rcases List.mem_cons.mp hr with rfl | hr
        · rw [lrUdestReply_routed orig hown.2] at hd
          simpa using hd
        · have hsame : ((lrUdestReply c orig ud n).send c orig).ipaddr = n.ipaddr := by
            have heff := rreqLrExts_effects (c := c) (s := .all) hl.widen trivial orig
              [.rreqUdest ud] n
            have hpass : (rreqLrExts c orig [.rreqUdest ud] n).2 =
                (lrUdestReply c orig ud n).send c orig := by
              unfold rreqLrExts
              rw [if_pos hown]
              rfl
            exact hpass ▸ heff.ipaddr
          exact (ih hr).trans hsame
      · exact ih hr
    | cost | rrepUdest | helloInterval | helloNeighborSet | other => exact ih hr

/-- The node is the next hop sought, and the request is not dropped. -/
def Node.AnswersLr (n : Node) (rreq : RREQ) (rreqlen : ℕ) (ipSrc : InAddr) : Prop :=
  n.TakesLr rreq rreqlen ipSrc ∧ rreq.destAddr = n.ipaddr

theorem mem_lrReplies (hl : c.LinkBreaks {}) {rreq : RREQ} {rreqlen : ℕ} {ipSrc : InAddr} {n : Node}
    {r : LrReply} (hr : r ∈ lrReplies c rreq rreqlen ipSrc n) :
    (∀ d ∈ r.rrep.routed, d = n.ipaddr) ∨
      n.AnswersLr rreq rreqlen ipSrc ∧
        r.rrep.routed = rreq.udests.map (·.destAddr) ++ [n.ipaddr] := by
  have hpass := lrPass_ipaddr hl rreq ipSrc n
  unfold lrReplies at hr
  split at hr
  · next htakes =>
    dsimp only at hr
    rw [hpass] at hr
    rcases List.mem_append.mp hr with hr | hr
    · left
      intro d hd
      have hrev := (rreqLrReverse_effects (updates_all hl.widen) trivial rreq ipSrc
        (rreqRecordInsert c rreq.origAddr rreq.rreqId n)).ipaddr
      exact (lrExtsReplies_routed hl _ _ hr hd).trans
        (hrev.trans (congrArg Routes.ipaddr (rreqRecordInsert_routes _ _ n)))
    · split at hr
      · next hdest =>
        right
        refine ⟨⟨htakes, hdest⟩, ?_⟩
        rw [List.mem_singleton.mp hr, lrDestinationReply_routed, hpass]
        exact congrArg (· ++ [n.ipaddr]) (rreqLrExts_listed _ _ _)
      · cases hr
  · cases hr

theorem Node.AnswersLr.reply (hl : c.LinkBreaks {}) {rreq : RREQ} {rreqlen : ℕ} {ipSrc : InAddr}
    {n : Node} (h : n.AnswersLr rreq rreqlen ipSrc) :
    ∃ r ∈ lrReplies c rreq rreqlen ipSrc n,
      (∀ ipTtl, rreqProcessLr c rreq rreqlen ipSrc ipTtl n = r.send c rreq.origAddr) ∧
      r.rrep.routed = rreq.udests.map (·.destAddr) ++ [n.ipaddr] := by
  have hpass := lrPass_ipaddr hl rreq ipSrc n
  unfold lrReplies
  rw [if_pos h.1]
  dsimp only
  rw [hpass, if_pos h.2]
  refine ⟨_, List.mem_append.mpr (.inr (List.mem_singleton_self _)), fun ipTtl => ?_, ?_⟩
  · rw [h.1.process]
    unfold rreqLrAnswer
    dsimp only
    rw [hpass, if_pos h.2]
    exact rreqLrDestination_sends _ _
  · rw [lrDestinationReply_routed, hpass]
    exact congrArg (· ++ [n.ipaddr]) (rreqLrExts_listed _ _ _)

/-- The replies that the handler sends claim only what the node can reach exactly when the request
lists nothing else, or is not for this node. The table `t` may be the one the request finds or the
one the reply is made with. -/
theorem replies_reach_iff (hl : c.LinkBreaks {}) (rreq : RREQ) (rreqlen : ℕ) (ipSrc : InAddr)
    (n t : Node) :
    (n.TakesLr rreq rreqlen ipSrc → ∀ ipTtl,
      let n₁ := rreqLrReverse c rreq ipSrc (rreqRecordInsert c rreq.origAddr rreq.rreqId n)
      let r := rreqLrExts c rreq.origAddr rreq.exts n₁
      rreqProcessLr c rreq rreqlen ipSrc ipTtl n =
        rreqLrAnswer c { rreq with exts := r.1 } rreqlen ipTtl r.2 ∧
      r.2 = ((lrExtsReplies c rreq.origAddr rreq.exts n₁).getLast?.map
        (LrReply.send c rreq.origAddr)).getD n₁ ∧
      (rreq.destAddr = n.ipaddr → rreqLrAnswer c { rreq with exts := r.1 } rreqlen ipTtl r.2 =
        (lrDestinationReply c { rreq with exts := r.1 } r.2).send c rreq.origAddr)) ∧
    ((∀ r ∈ lrReplies c rreq rreqlen ipSrc n, ∀ d ∈ r.rrep.routed,
        d = n.ipaddr ∨ t.Reaches d ipSrc) ↔
      (n.AnswersLr rreq rreqlen ipSrc → ∀ ud ∈ rreq.udests,
        ud.destAddr = n.ipaddr ∨ t.Reaches ud.destAddr ipSrc)) := by
  refine ⟨fun htakes ipTtl => ⟨htakes.process ipTtl, rreqLrExts_sends _ _ _, fun hdest => ?_⟩, ?_⟩
  · unfold rreqLrAnswer
    rw [if_pos (hdest.trans (lrPass_ipaddr hl rreq ipSrc n).symm)]
    exact rreqLrDestination_sends _ _
  constructor
  · intro h hanswers ud hud
    obtain ⟨r, hr, -, hlist⟩ := hanswers.reply hl
    refine h r hr ud.destAddr ?_
    rw [hlist]
    exact List.mem_append.mpr (.inl (List.mem_map_of_mem hud))
  · intro h r hr d hd
    rcases mem_lrReplies hl hr with hself | ⟨hanswers, hlist⟩
    · exact .inl (hself d hd)
    · rw [hlist] at hd
      rcases List.mem_append.mp hd with hd | hd
      · obtain ⟨ud, hud, rfl⟩ := List.mem_map.mp hd
        exact h hanswers ud hud
      · exact .inl (List.mem_singleton.mp hd)

/-! ## Two requests for agent 1 -/

/-- Agent 7 lost its next hop 1, and with it the routes to some destinations. -/
def requestListing (as : List InAddr) : RREQ :=
  as.foldl (fun m a => rreqAddUdest m a 4)
    { type := aodvRreqLr, hcnt := 1, rreqId := 3, destAddr := 1, origAddr := 7, origSeqno := 6 }

/-- Agent 1 has routes to 9 and 2 over 2, and the request comes over 3. -/
theorem listed_destinations_reached :
    (lrReplies (sampleCtx 4000) (requestListing [1, 9, 2]) 62 3 metNode).map (·.rrep.routed) =
      [[1, 1], [1, 9, 2, 1]] ∧
    ∀ r ∈ lrReplies (sampleCtx 4000) (requestListing [1, 9, 2]) 62 3 metNode,
      ∀ d ∈ r.rrep.routed, d = metNode.ipaddr ∨ metNode.Reaches d 3 := by
  refine ⟨by decide +kernel, ?_⟩
  refine (replies_reach_iff (described_linkBreaks sampleLog {} { now := 4000 })
    (requestListing [1, 9, 2]) 62 3 metNode metNode).2.mpr fun _ ud hud => ?_
  have hlisted : ud.destAddr = 1 ∨ ud.destAddr = 9 ∨ ud.destAddr = 2 := by
    revert ud hud
    decide
  have hreaches : ∀ a : InAddr, a = 9 ∨ a = 2 → metNode.Reaches a 3 := by
    intro a ha
    refine ⟨metNode.rt a, ?_⟩
    rcases ha with rfl | rfl <;> decide +kernel
  rcases hlisted with hown | hvalid
  · exact .inl (hown.trans (by decide +kernel))
  · exact .inr (hreaches ud.destAddr hvalid)

/-- Agent 1 claims a route to 9, which it does not have. -/
theorem unknown_destination_claimed :
    ¬ ∀ (n : Node) (rreq : RREQ) (rreqlen : ℕ) (ipSrc : InAddr),
      Reachable {} (.described sampleLog {}) 1 n →
      ∀ r ∈ lrReplies (sampleCtx 1) rreq rreqlen ipSrc n, ∀ d ∈ r.rrep.routed,
        d = n.ipaddr ∨ r.node.Reaches d ipSrc := by
  intro hall
  obtain ⟨r, hr, hlist, hnone⟩ : ∃ r ∈ lrReplies (sampleCtx 1) (requestListing [9]) 46 2 (heardNode 5),
      (9 : InAddr) ∈ r.rrep.routed ∧ r.node.lookup 9 = none := by
    have hreply : ((lrReplies (sampleCtx 1) (requestListing [9]) 46 2 (heardNode 5)).map fun r =>
        (r.rrep.routed, r.node.lookup 9)) = [([9, 1], none)] := by
      decide +kernel
    generalize lrReplies (sampleCtx 1) (requestListing [9]) 46 2 (heardNode 5) = l at hreply ⊢
    match l with
    | [] => cases hreply
    | r :: _ =>
      obtain ⟨hlist, hnone⟩ := Prod.mk.inj (List.cons.inj hreply).1
      exact ⟨r, List.mem_cons_self, by rw [hlist]; decide, hnone⟩
  rcases hall (heardNode 5) (requestListing [9]) 46 2 (heardNode_reachable 5) r hr 9 hlist with
    hown | ⟨rt, hrt, -, -⟩
  · exact absurd hown (by decide)
  · rw [hnone] at hrt
    cases hrt

end AodvUU

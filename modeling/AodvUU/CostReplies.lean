import AodvUU.PathCosts
import AodvUU.Suspicion

/-! # Replies out of the table

An intermediate node with a fresh route answers a request itself, and with the G flag tells the
destination about the originator too. The cost of a route travels in an extension behind the
reply. -/
namespace AodvUU

variable (c : Ctx)

/-! ## The replies made -/

/-- A call of `rrep_send_with_channel`: the entry of `rev` leads to the receiver, that of `fwd` is
the route told. -/
structure CostReply where
  node : Node
  rrep : RREP
  rev : InAddr
  fwd : InAddr
  size : ℕ
  channel : Int

def CostReply.send (r : CostReply) : Node :=
  rrepSendWithChannel c r.rev (some r.fwd) r.size r.channel (aodvSocketNewMsg (.rrep r.rrep) r.node)

def CostReply.sent (r : CostReply) : RREP :=
  { r.rrep with exts := takeExts (r.size - rrepSize) r.rrep.exts }

def routeReply (rreq : RREQ) (fwdRt : RtTable) (n : Node) : CostReply where
  node := n
  rrep := rrepCreateWithCost 0 fwdRt.hcnt fwdRt.destAddr fwdRt.destSeqno rreq.origAddr
    (lifetime c fwdRt) fwdRt.cost
  rev := rreq.origAddr
  fwd := fwdRt.destAddr
  size := rreqCostSize
  channel := fwdRt.channel

def gratuitousReply (rreq : RREQ) (fwdRt : RtTable) (n : Node) : CostReply where
  node := n
  rrep := rrepCreateWithCost 0 (n.rt rreq.origAddr).hcnt rreq.origAddr
    (n.rt rreq.origAddr).destSeqno fwdRt.destAddr (lifetime c fwdRt) (n.rt fwdRt.destAddr).cost
  rev := fwdRt.destAddr
  fwd := rreq.origAddr
  size := rrepSize
  channel := fwdRt.channel

def intermediateReplies (rreq : RREQ) (fwdRt : RtTable) (n : Node) : List CostReply :=
  routeReply c rreq fwdRt n ::
    if rreq.g then [gratuitousReply c rreq fwdRt ((routeReply c rreq fwdRt n).send c)] else []

/-- The request is answered out of the table. The reverse route has led to `n₁`, where `fwdRt` is
the entry of the destination. -/
structure Node.AnswersBetween (n n₁ : Node) (rreq : RREQ) (len : ℕ) (src : InAddr)
    (fwdRt : RtTable) : Prop where
  plain : rreq.type ≠ aodvRreqLr
  foreign : rreq.origAddr ≠ n.ipaddr
  complete : rreqSize ≤ len
  trusted : rreqBlacklistFind n src = none
  cheapest : rreqRecordFindLessCost n rreq.origAddr rreq.rreqId
    (receivedCost c n src rreq.channel rreq.exts) = none
  reverse : rreqReverse c rreq src (receivedCost c n src rreq.channel rreq.exts)
    (rreqRecordInsertWithCost c rreq.origAddr rreq.rreqId
      (receivedCost c n src rreq.channel rreq.exts) n) = some n₁
  between : rreq.destAddr ≠ n₁.ipaddr
  found : rtTableFind n₁ rreq.destAddr = some fwdRt
  channel : fwdRt.channel ≠ -1
  fresh : fwdRt.state = .valid ∧ ¬ rreq.d ∧ fwdRt.destSeqno ≠ 0 ∧
    ¬ fresher rreq.destSeqno fwdRt.destSeqno

variable {c}

/-! ## They are what the handler sends -/

theorem rreqIntermediate_sends (rreq : RREQ) (fwdRt : RtTable) (n : Node) :
    some (rreqIntermediate c rreq fwdRt n) =
      (intermediateReplies c rreq fwdRt n).getLast?.map (CostReply.send c) := by
  unfold rreqIntermediate intermediateReplies
  dsimp only
  cases rreq.g <;> rfl

theorem Node.AnswersBetween.process {n n₁ : Node} {rreq : RREQ} {len : ℕ} {src : InAddr}
    {fwdRt : RtTable} (h : n.AnswersBetween c n₁ rreq len src fwdRt) (ttl : Int) :
    some (rreqProcess c rreq len src ttl n) =
      (intermediateReplies c rreq fwdRt n₁).getLast?.map (CostReply.send c) := by
  have hlen := h.complete
  have hcheapest := h.cheapest
  have hreverse := h.reverse
  unfold receivedCost at hcheapest hreverse
  have hreverse' : rreqReverse c { rreq with
      exts := rreq.exts.map (Ext.addCost (getCost c n src rreq.channel)) } src
      (lastCost (c.ext.log maxNum) (rreq.exts.map (Ext.addCost (getCost c n src rreq.channel))))
      (rreqRecordInsertWithCost c rreq.origAddr rreq.rreqId
        (lastCost (c.ext.log maxNum) (rreq.exts.map (Ext.addCost (getCost c n src rreq.channel))))
        n) = some n₁ := hreverse
  unfold rreqProcess rreqHandle
  dsimp only
  rw [if_neg h.plain, if_neg h.foreign, if_neg (by omega), h.trusted, if_neg (by simp), hcheapest,
    if_neg (by simp), hreverse']
  dsimp only
  rw [if_neg h.between]
  unfold rreqRelay
  dsimp only
  rw [h.found]
  dsimp only
  rw [if_neg h.channel, if_pos h.fresh]
  exact rreqIntermediate_sends _ fwdRt n₁

theorem CostReply.send_ofReply (hc : c.BreaksAsDocumented) (r : CostReply) :
    r.node.Emits (Output.OfReply r.node fun m => m = r.sent) (r.send c) := by
  have hnew : r.node.Hands (Output.OfReply r.node fun m => m = r.sent)
      (aodvSocketNewMsg (.rrep r.rrep) r.node) := (Node.Hands.refl r.node).still rfl rfl rfl
  refine (hnew.rrepSendGen (ofReply_permits r.node _) hc.breaksLinks hc.buildsErrors rfl _ _ _ _
    fun dst ch o ho m hm => ?_).emits
  cases ho.sent hm
  exact .inr (.inr rfl)

/-! ## What they advertise -/

/-- The reply carries the cost of its route in `n`, and who takes it stores that cost and the cost
of its own link. -/
structure CostReply.Advertises (n : Node) (r : CostReply) : Prop where
  cost : r.sent.exts = [.cost (n.rt r.rrep.destAddr).cost]
  stored : ∀ (c' : Ctx) (n' : Node) (src : InAddr) (ttl : Int) (ch : BitVec 8),
    c'.BreaksAsDocumented → RtWf n' → n'.TakesReply c' { r.sent with channel := ch } r.size src →
    ∃ rt, (rrepProcess c' { r.sent with channel := ch } r.size src ttl n').lookup r.rrep.destAddr =
      some rt ∧ rt.nextHop = src ∧ rt.cost = (n.rt r.rrep.destAddr).cost + getCost c' n' src ch

theorem rrepProcess_stores (hc : c.BreaksAsDocumented) {n : Node} (hwf : RtWf n) (rrep : RREP)
    (hlr : rrep.lr = false) {v : ℚ} (hexts : rrep.exts = [.cost v]) {len : ℕ} {src : InAddr}
    (ht : n.TakesReply c rrep len src) (ttl : Int) :
    ∃ rt, (rrepProcess c rrep len src ttl n).lookup rrep.destAddr = some rt ∧ rt.nextHop = src ∧
      rt.cost = v + getCost c n src rrep.channel := by
  obtain ⟨rt, hrt, hnext, -, hcost⟩ := rrepProcess_entry hc hwf rrep hlr ht ttl
  refine ⟨rt, hrt, hnext, hcost.trans ?_⟩
  rw [hexts]
  rfl

theorem routeReply_advertises {n : Node} {fwdRt : RtTable}
    (hrt : n.lookup fwdRt.destAddr = some fwdRt)
    (rreq : RREQ) : (routeReply c rreq fwdRt n).Advertises n := by
  have hcost : (routeReply c rreq fwdRt n).sent.exts = [.cost (n.rt fwdRt.destAddr).cost] := by
    rw [rt_of_lookup hrt]
    rfl
  refine ⟨hcost, fun c' n' src ttl ch hc' hwf' ht => ?_⟩
  exact rrepProcess_stores hc' hwf' { (routeReply c rreq fwdRt n).sent with channel := ch } rfl
    hcost ht ttl

theorem gratuitousReply_not_advertises (rreq : RREQ) (fwdRt : RtTable) (n n' : Node) :
    ¬ (gratuitousReply c rreq fwdRt n').Advertises n := by
  intro h
  have hcut : (gratuitousReply c rreq fwdRt n').sent.exts = [] := rfl
  cases hcut.symm.trans h.cost

/-- The replies of an intermediate node advertise its own costs exactly when no gratuitous one is
asked for. -/
theorem own_costs_advertised_iff (hc : c.BreaksAsDocumented) {n n₁ : Node} (hwf : RtWf n)
    {rreq : RREQ} {len : ℕ} {src : InAddr} {fwdRt : RtTable}
    (h : n.AnswersBetween c n₁ rreq len src fwdRt) :
    (∀ ttl, some (rreqProcess c rreq len src ttl n) =
      (intermediateReplies c rreq fwdRt n₁).getLast?.map (CostReply.send c)) ∧
    (∀ r ∈ intermediateReplies c rreq fwdRt n₁,
      r.node.Emits (Output.OfReply r.node fun m => m = r.sent) (r.send c)) ∧
    ((∀ r ∈ intermediateReplies c rreq fwdRt n₁, r.Advertises n₁) ↔ rreq.g = false) := by
  refine ⟨h.process, fun r _ => r.send_ofReply hc, fun hall => ?_, fun hg r hr => ?_⟩
  · by_contra hg
    have hmem : gratuitousReply c rreq fwdRt ((routeReply c rreq fwdRt n₁).send c) ∈
        intermediateReplies c rreq fwdRt n₁ := by
      unfold intermediateReplies
      rw [if_pos (by simpa using hg)]
      exact List.mem_cons_of_mem _ (List.mem_singleton_self _)
    exact gratuitousReply_not_advertises rreq fwdRt n₁ _ (hall _ hmem)
  · have hrec := rreqRecordInsertWithCost_traffic (c := c) rreq.origAddr rreq.rreqId
      (receivedCost c n src rreq.channel rreq.exts) n
    have hwf₁ : RtWf n₁ := effects_preserve_rtWf (hwf.of_table hrec.tbl hrec.numEntries)
      (rreqReverse_effects (updates_all hc.linkBreaks.widen) trivial h.reverse)
    have hrt := (hwf₁.rtTableFind_eq_lookup _).symm.trans h.found
    unfold intermediateReplies at hr
    rw [if_neg (by simp [hg])] at hr
    rw [List.mem_singleton.mp hr]
    exact routeReply_advertises (by rw [destAddr_of_lookup hrt]; exact hrt) rreq

/-! ## A request for 9 -/

def routedNode : Node :=
  (step (sampleCtx 0) (.recv (rreqFrom 2 0
      { type := aodvRreq, hcnt := 1, rreqId := 7, destAddr := 8, origAddr := 9, origSeqno := 6,
        exts := [.cost 10] })) ([], Node.init (sampleCtx 0) 1)).2

theorem routedNode_rtWf : RtWf routedNode :=
  reachable_rtWf (described_within trivial (fun _ _ h => h) sampleLog {})
    (.step { now := 0 } [] (.recv _) trivial (.init { now := 0 }))

def requestFor9 (g : Bool) : RREQ :=
  { type := aodvRreq, hcnt := 1, rreqId := 4, destAddr := 9, origAddr := 7, origSeqno := 6, g,
    exts := [.cost 20] }

def reversedNode (g : Bool) : Node :=
  let cost := receivedCost (sampleCtx 0) routedNode 3 0 (requestFor9 g).exts
  (rreqReverse (sampleCtx 0) (requestFor9 g) 3 cost
    (rreqRecordInsertWithCost (sampleCtx 0) 7 4 cost routedNode)).getD routedNode

theorem Node.AnswersBetween.of_checks (hl : c.LinkBreaks {}) {n : Node} (hwf : RtWf n)
    {rreq : RREQ} {len : ℕ} {src : InAddr} {n₁ : Node}
    (htrusted : (rreqBlacklistFind n src).isNone)
    (hcheapest : (rreqRecordFindLessCost n rreq.origAddr rreq.rreqId
      (receivedCost c n src rreq.channel rreq.exts)).isNone)
    (hsome : (rreqReverse c rreq src (receivedCost c n src rreq.channel rreq.exts)
      (rreqRecordInsertWithCost c rreq.origAddr rreq.rreqId
        (receivedCost c n src rreq.channel rreq.exts) n)).isSome)
    (hn₁ : (rreqReverse c rreq src (receivedCost c n src rreq.channel rreq.exts)
      (rreqRecordInsertWithCost c rreq.origAddr rreq.rreqId
        (receivedCost c n src rreq.channel rreq.exts) n)).getD n = n₁)
    (hfound : (n₁.lookup rreq.destAddr).isSome)
    (hplain : rreq.type ≠ aodvRreqLr ∧ rreq.origAddr ≠ n.ipaddr ∧ rreqSize ≤ len)
    (hbetween : rreq.destAddr ≠ n₁.ipaddr ∧ (n₁.rt rreq.destAddr).channel ≠ -1 ∧
      (n₁.rt rreq.destAddr).state = .valid ∧ ¬ rreq.d ∧ (n₁.rt rreq.destAddr).destSeqno ≠ 0 ∧
      ¬ fresher rreq.destSeqno (n₁.rt rreq.destAddr).destSeqno) :
    n.AnswersBetween c n₁ rreq len src (n₁.rt rreq.destAddr) := by
  obtain ⟨n₂, hrev⟩ := Option.isSome_iff_exists.mp hsome
  obtain ⟨rt, hrt⟩ := Option.isSome_iff_exists.mp hfound
  rw [hrev, Option.getD_some] at hn₁
  subst hn₁
  have hrec := rreqRecordInsertWithCost_traffic (c := c) rreq.origAddr rreq.rreqId
    (receivedCost c n src rreq.channel rreq.exts) n
  have hwf₁ : RtWf n₂ := effects_preserve_rtWf (hwf.of_table hrec.tbl hrec.numEntries)
    (rreqReverse_effects (updates_all hl.widen) trivial hrev)
  rw [rt_of_lookup hrt] at hbetween ⊢
  exact ⟨hplain.1, hplain.2.1, hplain.2.2, Option.isNone_iff_eq_none.mp htrusted,
    Option.isNone_iff_eq_none.mp hcheapest, hrev, hbetween.1,
    (hwf₁.rtTableFind_eq_lookup _).trans hrt, hbetween.2.1, hbetween.2.2⟩

theorem requestFor9_answered (g : Bool) : routedNode.AnswersBetween (sampleCtx 0) (reversedNode g)
    (requestFor9 g) rreqCostSize 3 ((reversedNode g).rt 9) := by
  refine Node.AnswersBetween.of_checks (described_linkBreaks sampleLog {} { now := 0 })
    routedNode_rtWf rfl ?_ ?_ rfl ?_ ?_ ?_
  all_goals
    revert g
    decide +kernel

/-- The reply has the cost 100010 of the route over 2. -/
theorem one_reply_advertises :
    (routeReply (sampleCtx 0) (requestFor9 false) ((reversedNode false).rt 9)
      (reversedNode false)).Advertises (reversedNode false) :=
  (own_costs_advertised_iff (described_breaksAsDocumented sampleLog {} { now := 0 })
    routedNode_rtWf (requestFor9_answered false)).2.2.mpr rfl _ List.mem_cons_self

/-- Agent 9 gets a reply about 7 without a cost. -/
theorem gratuitous_reply_without_cost :
    routedNode.AnswersBetween (sampleCtx 0) (reversedNode true) (requestFor9 true) rreqCostSize 3
      ((reversedNode true).rt 9) ∧
    ∃ r ∈ intermediateReplies (sampleCtx 0) (requestFor9 true) ((reversedNode true).rt 9)
      (reversedNode true), r.rrep.destAddr = 7 ∧ r.sent.exts = [] ∧
        ¬ r.Advertises (reversedNode true) := by
  refine ⟨requestFor9_answered true, gratuitousReply (sampleCtx 0) (requestFor9 true)
    ((reversedNode true).rt 9) ((routeReply (sampleCtx 0) (requestFor9 true)
      ((reversedNode true).rt 9) (reversedNode true)).send (sampleCtx 0)), ?_, rfl, rfl,
    gratuitousReply_not_advertises _ _ _ _⟩
  exact List.mem_cons_of_mem _ (List.mem_singleton_self _)

end AodvUU

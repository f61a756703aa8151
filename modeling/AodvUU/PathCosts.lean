import AodvUU.InvariantRule
import AodvUU.Transmits

/-! # Costs and hop counts along a path

A request counts its hops in the message, a reply takes the hop count of the entry that it has
just made. Each receiver adds the cost of the link to the extension. -/
namespace AodvUU

variable {c : Ctx}

/-- What is documented of the external link break: its effects, its outputs, and that it builds
route errors. -/
structure Ctx.BreaksAsDocumented (c : Ctx) : Prop where
  linkBreaks : c.LinkBreaks {}
  breaksLinks : c.BreaksLinks
  buildsErrors : c.BuildsErrors

/-- From `n` to `n'` the message is handed out, and it was not waiting. -/
def Node.Transmits (n n' : Node) (m : AodvMsg) : Prop :=
  (∀ qp ∈ n.pq, qp.p.control ≠ some m) ∧ ∃ o, n.Sent n' o ∧ o.sent = some m

def Output.OfRequest (n₀ : Node) (Q : RREQ → Prop) (o : Output) : Prop :=
  ∀ m, o.sent = some (.rreq m) → (∃ qp ∈ n₀.pq, qp.p.control = some (.rreq m)) ∨ Q m

/-- Replies with `Q` only, unless they were waiting or are about the agent itself. -/
def Output.OfReply (n₀ : Node) (Q : RREP → Prop) (o : Output) : Prop :=
  ∀ m, o.sent = some (.rrep m) → (∃ qp ∈ n₀.pq, qp.p.control = some (.rrep m)) ∨
    m.destAddr = n₀.ipaddr ∨ Q m

theorem Node.Transmits.request {Q : RREQ → Prop} {n n' : Node} {m : RREQ}
    (h : n.Transmits n' (.rreq m)) (he : n.Emits (Output.OfRequest n Q) n') : Q m := by
  obtain ⟨hwait, o, hsent, hm⟩ := h
  rcases he.sent hsent m hm with ⟨qp, hqp, hc⟩ | hQ
  · exact absurd hc (hwait qp hqp)
  · exact hQ

theorem Node.Transmits.reply {Q : RREP → Prop} {n n' : Node} {m : RREP}
    (h : n.Transmits n' (.rrep m)) (hm : m.destAddr ≠ n.ipaddr)
    (he : n.Emits (Output.OfReply n Q) n') : Q m := by
  obtain ⟨hwait, o, hsent, ho⟩ := h
  rcases he.sent hsent m ho with ⟨qp, hqp, hc⟩ | hown | hQ
  · exact absurd hc (hwait qp hqp)
  · exact absurd hown hm
  · exact hQ

theorem ofRequest_permits (n₀ : Node) (Q : RREQ → Prop) : n₀.Permits (Output.OfRequest n₀ Q) := by
  refine ⟨fun o ho m hm => ?_, fun o ho m hm => ?_⟩
  · rcases ho _ hm with hr | hw
    · exact hr.elim
    · exact .inl hw
  · obtain ⟨_, _, ho, -⟩ := ho
    cases ho.sent hm

theorem ofReply_permits (n₀ : Node) (Q : RREP → Prop) : n₀.Permits (Output.OfReply n₀ Q) := by
  refine ⟨fun o ho m hm => ?_, fun o ho m hm => ?_⟩
  · rcases ho _ hm with hr | hw
    · exact hr.elim
    · exact .inl hw
  · obtain ⟨_, _, ho, hown, -⟩ := ho
    cases ho.sent hm
    exact .inr (.inl hown)

/-! ## Requests -/

theorem forwardedRequest_fields (fwd : Option RtTable) (rreq : RREQ) (size : ℕ) :
    (forwardedRequest fwd rreq size).type = rreq.type ∧
    (forwardedRequest fwd rreq size).hcnt = rreq.hcnt + 1 ∧
    (forwardedRequest fwd rreq size).exts =
      takeExts (size - rreqSize) (takeExts (size - rreqSize) rreq.exts) := by
  unfold forwardedRequest raiseDestSeqno
  cases fwd with
  | none => exact ⟨rfl, rfl, rfl⟩
  | some rt =>
    dsimp only
    split
    · exact ⟨rfl, rfl, rfl⟩
    · exact ⟨rfl, rfl, rfl⟩

theorem rreqProcess_ofRequest (hc : c.BreaksAsDocumented) (rreq : RREQ) {v : ℚ}
    (htype : rreq.type = aodvRreq) (hexts : rreq.exts = [.cost v]) (len : ℕ) (src : InAddr)
    (ttl : Int) (n : Node) :
    n.Emits (Output.OfRequest n fun m => m.type = aodvRreq ∧ m.hcnt = rreq.hcnt + 1 ∧
      m.exts = [.cost (v + getCost c n src rreq.channel)]) (rreqProcess c rreq len src ttl n) := by
  unfold rreqProcess
  rw [if_neg (by rw [htype]; decide)]
  split_ifs
  · exact .refl n
  · exact .refl n
  · exact .refl n
  · refine (Node.Hands.rreqHandle (ofRequest_permits n _) ?_ hc.breaksLinks hc.buildsErrors ?_).emits
    · intro m dst ch o _ ho m' hm'
      cases ho.sent hm'
    · intro _ fwd ch o ho m hm
      cases ho.sent hm
      obtain ⟨ht, hh, he⟩ := forwardedRequest_fields fwd { rreq with
        exts := rreq.exts.map (Ext.addCost (getCost c n src rreq.channel)) } rreqCostSize
      refine .inr ⟨ht.trans htype, hh, he.trans ?_⟩
      dsimp only
      rw [hexts]
      rfl

/-- A request on its way from its originator, with the costs of the links behind it, the last
link first. -/
inductive RreqPath : List ℚ → RREQ → Prop
  | origin {m : RREQ} (n : Node) (flags : BitVec 8) (dest : InAddr) (seqno : BitVec 32)
      (orig : InAddr) (h : (rreqCreateWithCost flags dest seqno orig 0 n).sendBuf.trunc rreqCostSize =
        .rreq m) : RreqPath [] m
  | forward {l : List ℚ} {m m' : RREQ} (c : Ctx) (hc : c.BreaksAsDocumented) (n : Node) (len : ℕ)
      (src : InAddr) (ttl : Int) (ch : BitVec 8)
      (h : n.Transmits (rreqProcess c { m with channel := ch } len src ttl n) (.rreq m')) :
      RreqPath l m → RreqPath (getCost c n src ch :: l) m'

theorem RreqPath.carries {l : List ℚ} {m : RREQ} (h : RreqPath l m) :
    m.type = aodvRreq ∧ m.hcnt = BitVec.ofNat 8 l.length ∧ m.exts = [.cost l.sum] := by
  induction h with
  | origin n flags dest seqno orig h =>
    cases h
    exact ⟨rfl, rfl, rfl⟩
  | @forward l m m' c hc n len src ttl ch h _ ih =>
    obtain ⟨htype, hhops, hexts⟩ := ih
    obtain ⟨htype', hhops', hexts'⟩ := h.request
      (rreqProcess_ofRequest hc { m with channel := ch } htype hexts len src ttl n)
    refine ⟨htype', ?_, ?_⟩
    · rw [hhops', hhops, List.length_cons, BitVec.ofNat_add]
      rfl
    · rw [hexts', List.sum_cons, add_comm]

/-! ## The reverse route -/

/-- The request is not dropped before it has made its reverse route. -/
structure Node.TakesRequest (c : Ctx) (n : Node) (rreq : RREQ) (len : ℕ) (src : InAddr) : Prop where
  foreign : rreq.origAddr ≠ n.ipaddr
  complete : rreqSize ≤ len
  trusted : rreqBlacklistFind n src = none
  cheapest : rreqRecordFindLessCost n rreq.origAddr rreq.rreqId
    (receivedCost c n src rreq.channel rreq.exts) = none
  newer : ∀ rt, n.lookup rreq.origAddr = some rt → rt.destSeqno = 0 ∨
    fresher rreq.origSeqno rt.destSeqno ∨ (rreq.origSeqno = rt.destSeqno ∧
      (rt.state = .invalid ∨ receivedCost c n src rreq.channel rreq.exts < rt.cost))

theorem rreqReverse_some {n : Node} (hwf : RtWf n) {rreq : RREQ} {cost : ℚ}
    (h : ∀ rt, n.lookup rreq.origAddr = some rt → rt.destSeqno = 0 ∨
      fresher rreq.origSeqno rt.destSeqno ∨ (rreq.origSeqno = rt.destSeqno ∧
        (rt.state = .invalid ∨ cost < rt.cost))) (src : InAddr) :
    ∃ n', rreqReverse c rreq src cost n = some n' := by
  unfold rreqReverse
  rw [hwf.rtTableFind_eq_lookup]
  cases hrt : n.lookup rreq.origAddr with
  | none => exact ⟨_, rfl⟩
  | some rt =>
    dsimp only
    rw [if_pos (h rt hrt)]
    exact ⟨_, rfl⟩

theorem rreqRelay_keeps (hl : c.LinkBreaks {}) {rreq : RREQ} (ttl : Int) {n : Node} (hwf : RtWf n)
    (ho : rreq.origAddr ≠ n.ipaddr) (hd : rreq.destAddr ≠ n.ipaddr) {a : InAddr} {rt : RtTable}
    (hrt : n.lookup a = some rt) (hch : rt.channel ≠ -1) :
    ∃ rt', (rreqRelay c rreq ttl n).lookup a = some rt' ∧ rt.Ages rt' := by
  have hforward : ∀ fwd m, rreq.origAddr ≠ m.ipaddr → m.lookup a = some rt → ∃ rt',
      (rreqForward c fwd rreq rreqCostSize ttl m).lookup a = some rt' ∧ rt.Ages rt' := by
    intro fwd m hm hlook
    exact (rreqForward_effects fwd rreqCostSize ttl hm : Effects c {} m _).ages.lookup_eq_some hlook
  unfold rreqRelay
  rw [hwf.rtTableFind_eq_lookup]
  cases hfwd : n.lookup rreq.destAddr with
  | none => exact hforward none n ho hrt
  | some fwdRt =>
    dsimp only
    split
    · next hno =>
      have hdel : (rtTableDelete fwdRt.destAddr n).lookup a = some rt := by
        rw [lookup_rtTableDelete, destAddr_of_lookup hfwd, if_neg]
        · exact hrt
        · rintro rfl
          cases hfwd.symm.trans hrt
          exact hch hno
      have hip : (rtTableDelete fwdRt.destAddr n).ipaddr = n.ipaddr := by
        unfold rtTableDelete
        split <;> rfl
      exact hforward none _ (by rw [hip]; exact ho) hdel
    · split
      · exact (rreqIntermediate_effects hl ho
          (by rw [destAddr_of_lookup hfwd]; exact hd)).ages.lookup_eq_some hrt
      · exact hforward (some fwdRt) n ho hrt

theorem rreqHandle_entry (hc : c.BreaksAsDocumented) {n : Node} (hwf : RtWf n) (rreq : RREQ)
    (ho : rreq.origAddr ≠ n.ipaddr)
    (hless : rreqRecordFindLessCost n rreq.origAddr rreq.rreqId
      (lastCost (c.ext.log maxNum) rreq.exts) = none)
    (hnew : ∀ rt, n.lookup rreq.origAddr = some rt → rt.destSeqno = 0 ∨
      fresher rreq.origSeqno rt.destSeqno ∨ (rreq.origSeqno = rt.destSeqno ∧
        (rt.state = .invalid ∨ lastCost (c.ext.log maxNum) rreq.exts < rt.cost)))
    (src : InAddr) (ttl : Int) :
    ∃ rt, (rreqHandle c rreq src ttl n).lookup rreq.origAddr = some rt ∧ rt.nextHop = src ∧
      rt.hcnt = rreq.hcnt + 1 ∧ rt.cost = lastCost (c.ext.log maxNum) rreq.exts := by
  have hrec : Traffic n (rreqRecordInsertWithCost c rreq.origAddr rreq.rreqId
      (lastCost (c.ext.log maxNum) rreq.exts) n) := rreqRecordInsertWithCost_traffic _ _ _ n
  have hcases := rreqHandle_cases c rreq src ttl n
  dsimp only at hcases
  generalize rreqRecordInsertWithCost c rreq.origAddr rreq.rreqId
    (lastCost (c.ext.log maxNum) rreq.exts) n = n₀ at hrec hcases
  have hwf₀ : RtWf n₀ := hwf.of_table hrec.tbl hrec.numEntries
  have hlook : n₀.lookup rreq.origAddr = n.lookup rreq.origAddr := by
    unfold Node.lookup
    rw [hrec.tbl]
  obtain ⟨n₁, hrev⟩ := rreqReverse_some (c := c) hwf₀ (by rw [hlook]; exact hnew) src
  have heff := rreqReverse_effects (updates_all hc.linkBreaks.widen) trivial hrev
  have ho₀ : rreq.origAddr ≠ n₀.ipaddr := by
    rw [hrec.ipaddr]
    exact ho
  have ho₁ : rreq.origAddr ≠ n₁.ipaddr := by
    rw [heff.ipaddr]
    exact ho₀
  obtain ⟨-, w, hover, hhops, hinst⟩ := rreqReverse_installs hc.linkBreaks hwf₀ ho₀ hrev
  obtain ⟨rt, hrt, hage⟩ := hinst.entry
  have hanswer : rreqHandle c rreq src ttl n = rreqAnswer c rreq ttl n₁ := by
    rcases hcases with ⟨hcheaper, -⟩ | ⟨-, ⟨hnone, -⟩ | ⟨n₂, hrev', heq⟩⟩
    · rw [hless] at hcheaper
      cases hcheaper
    · cases hnone.symm.trans hrev
    · cases hrev'.symm.trans hrev
      exact heq
  have htail : ∃ rt', (rreqAnswer c rreq ttl n₁).lookup rreq.origAddr = some rt' ∧
      rt.Ages rt' := by
    unfold rreqAnswer
    split
    · have hraise : (n₁.seqnoRaise rreq.destSeqno).lookup rreq.origAddr = some rt := by
        unfold Node.seqnoRaise
        split_ifs <;> exact hrt
      unfold rreqDestination
      exact (rrepReply_effects hc.linkBreaks _ _ _ _ fun _ => rfl :
        Effects c {} (n₁.seqnoRaise rreq.destSeqno) _).ages.lookup_eq_some hraise
    · next hdest =>
      refine rreqRelay_keeps hc.linkBreaks ttl (effects_preserve_rtWf hwf₀ heff) ho₁ hdest hrt ?_
      rw [hage.channel, hover.channel]
      omega
  obtain ⟨rt', hrt', hage'⟩ := htail
  rw [hanswer]
  refine ⟨rt', hrt', ?_, ?_, ?_⟩
  · rw [hage'.nextHop, hage.nextHop, hover.nextHop]
  · rw [hage'.hcnt, hage.hcnt, hhops]
  · rw [hage'.cost, hage.cost, hover.cost]

/-! ## Replies -/

theorem rrepHandle_entry (hc : c.BreaksAsDocumented) {n n' : Node} (hwf : RtWf n) (rrep : RREP)
    (hd : rrep.destAddr ≠ n.ipaddr) {src : InAddr}
    (hroute : rrepRoute c rrep src (lastCost (c.ext.log maxNum) rrep.exts) n = some n') (ttl : Int) :
    (n'.rt rrep.destAddr).hcnt = rrep.hcnt + 1 ∧
    ∃ rt, (rrepHandle c rrep src ttl n).lookup rrep.destAddr = some rt ∧ rt.nextHop = src ∧
      rt.hcnt = rrep.hcnt + 1 ∧ rt.cost = lastCost (c.ext.log maxNum) rrep.exts := by
  have heff := rrepRoute_effects (updates_all hc.linkBreaks.widen) trivial hroute
  obtain ⟨-, w, hover, hhops, hinst⟩ := rrepRoute_installs hc.linkBreaks hwf hd hroute
  obtain ⟨rt, hrt, hage⟩ := hinst.entry
  have hd' : rrep.destAddr ≠ n'.ipaddr := by
    rw [heff.ipaddr]
    exact hd
  refine ⟨by rw [rt_of_lookup hrt, hage.hcnt, hhops], ?_⟩
  unfold rrepHandle
  dsimp only
  rw [hroute]
  obtain ⟨rt', hrt', hage'⟩ := (rrepTail_effects (rtTableFind n rrep.destAddr)
    ((rtTableFind n rrep.origAddr).map (·.destAddr)) ttl hd' : Effects c {} n' _).ages.lookup_eq_some hrt
  refine ⟨rt', hrt', ?_, ?_, ?_⟩
  · rw [hage'.nextHop, hage.nextHop, hover.nextHop]
  · rw [hage'.hcnt, hage.hcnt, hhops]
  · rw [hage'.cost, hage.cost, hover.cost]

/-- The replies that come out of a plain reply with one cost extension: they have the cost and the
hop count of the agent's own entry. -/
theorem rrepHandle_ofReply (hc : c.BreaksAsDocumented) (rrep : RREP) {v : ℚ}
    (hexts : rrep.exts = [.cost v]) (src : InAddr) (ttl : Int) {n : Node} (hwf : RtWf n)
    (hd : rrep.destAddr ≠ n.ipaddr) :
    n.Emits (Output.OfReply n fun m => m.lr = rrep.lr ∧ m.hcnt = rrep.hcnt + 1 ∧ m.exts = [.cost v] ∧
      ∃ rt, (rrepHandle c rrep src ttl n).lookup rrep.destAddr = some rt ∧
        m.hcnt = rt.hcnt ∧ m.exts = [.cost rt.cost]) (rrepHandle c rrep src ttl n) := by
  refine (Node.Hands.rrepHandle (ofReply_permits n _) hc.breaksLinks
    fun n' hroute dst ch o ho m hm => .inr (.inr ?_)).emits
  obtain ⟨hhops, rt, hrt, -, hhops', hcost⟩ := rrepHandle_entry hc hwf rrep hd hroute ttl
  have hcost' : rt.cost = v := by
    rw [hcost, hexts]
    rfl
  have hexts' : takeExts (rrepCostSize - rrepSize) (takeExts (rrepCostSize - rrepSize) rrep.exts) =
      [.cost v] := by
    rw [hexts]
    rfl
  cases ho.sent hm
  refine ⟨rfl, hhops, hexts', rt, hrt, hhops.trans hhops'.symm, ?_⟩
  rw [hcost']
  exact hexts'

theorem rrepProcess_ofReply (hc : c.BreaksAsDocumented) (rrep : RREP) {v : ℚ}
    (hlr : rrep.lr = false)
    (hexts : rrep.exts = [.cost v]) (len : ℕ) (src : InAddr) (ttl : Int) {n : Node} (hwf : RtWf n) :
    n.Emits (Output.OfReply n fun m => m.lr = false ∧ m.hcnt = rrep.hcnt + 1 ∧
      m.exts = [.cost (v + getCost c n src rrep.channel)] ∧
      ∃ rt, (rrepProcess c rrep len src ttl n).lookup rrep.destAddr = some rt ∧
        m.hcnt = rt.hcnt ∧ m.exts = [.cost rt.cost]) (rrepProcess c rrep len src ttl n) := by
  have hadd : rrep.exts.map (Ext.addCost (getCost c n src rrep.channel)) =
      [.cost (v + getCost c n src rrep.channel)] := by
    rw [hexts]
    rfl
  by_cases hdrop : len < rrepSize ∨ rrep.destAddr = n.ipaddr
  · have hn : rrepProcess c rrep len src ttl n = n := by
      unfold rrepProcess
      rw [if_neg (by rw [hlr]; decide)]
      rcases hdrop with h | h
      · rw [if_pos h]
      · rw [if_pos h, ite_self]
    rw [hn]
    exact .refl n
  · have hn : rrepProcess c rrep len src ttl n = rrepHandle c { rrep with
        exts := rrep.exts.map (Ext.addCost (getCost c n src rrep.channel)) } src ttl n := by
      unfold rrepProcess
      rw [if_neg (by rw [hlr]; decide), if_neg fun h => hdrop (.inl h), if_neg fun h => hdrop (.inr h)]
    rw [hn]
    refine (rrepHandle_ofReply hc { rrep with
      exts := rrep.exts.map (Ext.addCost (getCost c n src rrep.channel)) } hadd src ttl hwf
      fun h => hdrop (.inr h)).mono fun o ho m hm => ?_
    rcases ho m hm with hw | hown | ⟨h1, h2, h3, h4⟩
    · exact .inl hw
    · exact .inr (.inl hown)
    · exact .inr (.inr ⟨h1.trans hlr, h2, h3, h4⟩)

/-- A reply on its way from the destination. A node passes on what it hears about another. -/
inductive RrepPath : List ℚ → RREP → Prop
  | origin {m : RREP} (flags : BitVec 8) (dest : InAddr) (seqno : BitVec 32) (orig : InAddr)
      (life : BitVec 32) (h : (AodvMsg.rrep (rrepCreateWithCost flags 0 dest seqno orig life 0)).trunc
        rrepCostSize = .rrep m) : RrepPath [] m
  | forward {l : List ℚ} {m m' : RREP} (c : Ctx) (hc : c.BreaksAsDocumented) (n : Node) (hwf : RtWf n)
      (len : ℕ) (src : InAddr) (ttl : Int) (ch : BitVec 8) (hown : m'.destAddr ≠ n.ipaddr)
      (h : n.Transmits (rrepProcess c { m with channel := ch } len src ttl n) (.rrep m')) :
      RrepPath l m → RrepPath (getCost c n src ch :: l) m'

theorem RrepPath.carries {l : List ℚ} {m : RREP} (h : RrepPath l m) :
    m.lr = false ∧ m.hcnt = BitVec.ofNat 8 l.length ∧ m.exts = [.cost l.sum] := by
  induction h with
  | origin flags dest seqno orig life h =>
    cases h
    exact ⟨rfl, rfl, rfl⟩
  | @forward l m m' c hc n hwf len src ttl ch hown h _ ih =>
    obtain ⟨hlr, hhops, hexts⟩ := ih
    obtain ⟨hlr', hhops', hexts', -⟩ := h.reply hown
      (rrepProcess_ofReply hc { m with channel := ch } hlr hexts len src ttl hwf)
    refine ⟨hlr', ?_, ?_⟩
    · rw [hhops', hhops, List.length_cons, BitVec.ofNat_add]
      rfl
    · rw [hexts', List.sum_cons, add_comm]

/-- The reply is not dropped before it has made its forward route. -/
structure Node.TakesReply (c : Ctx) (n : Node) (rrep : RREP) (len : ℕ) (src : InAddr) : Prop where
  foreign : rrep.destAddr ≠ n.ipaddr
  complete : rrepSize ≤ len
  newer : ∀ rt, n.lookup rrep.destAddr = some rt →
    rt.Outdated rrep.destSeqno (receivedCost c n src rrep.channel rrep.exts)

theorem rrepRoute_some {n : Node} (hwf : RtWf n) (rrep : RREP) {cost : ℚ}
    (h : ∀ rt, n.lookup rrep.destAddr = some rt → rt.Outdated rrep.destSeqno cost) (src : InAddr) :
    ∃ n', rrepRoute c rrep src cost n = some n' := by
  unfold rrepRoute
  rw [hwf.rtTableFind_eq_lookup]
  cases hrt : n.lookup rrep.destAddr with
  | none => exact ⟨_, rfl⟩
  | some rt =>
    have hnew := h rt hrt
    unfold RtTable.Outdated at hnew
    dsimp only
    rw [if_pos hnew]
    exact ⟨_, rfl⟩

/-! ## Accepted messages -/

theorem rreqProcess_entry (hc : c.BreaksAsDocumented) {n : Node} (hwf : RtWf n) (rreq : RREQ)
    (htype : rreq.type = aodvRreq) {len : ℕ} {src : InAddr} (ht : n.TakesRequest c rreq len src)
    (ttl : Int) :
    ∃ rt, (rreqProcess c rreq len src ttl n).lookup rreq.origAddr = some rt ∧ rt.nextHop = src ∧
      rt.hcnt = rreq.hcnt + 1 ∧ rt.cost = receivedCost c n src rreq.channel rreq.exts := by
  have hlen := ht.complete
  obtain ⟨rt, hrt, hnext, hhops, hcost⟩ := rreqHandle_entry hc hwf { rreq with
    exts := rreq.exts.map (Ext.addCost (getCost c n src rreq.channel)) } ht.foreign ht.cheapest
    ht.newer src ttl
  refine ⟨rt, ?_, hnext, hhops, hcost⟩
  unfold rreqProcess
  rw [if_neg (by rw [htype]; decide), if_neg ht.foreign, if_neg (by omega), ht.trusted]
  exact hrt

theorem rrepProcess_entry (hc : c.BreaksAsDocumented) {n : Node} (hwf : RtWf n) (rrep : RREP)
    (hlr : rrep.lr = false) {len : ℕ} {src : InAddr} (ht : n.TakesReply c rrep len src)
    (ttl : Int) :
    ∃ rt, (rrepProcess c rrep len src ttl n).lookup rrep.destAddr = some rt ∧ rt.nextHop = src ∧
      rt.hcnt = rrep.hcnt + 1 ∧ rt.cost = receivedCost c n src rrep.channel rrep.exts := by
  have hlen := ht.complete
  obtain ⟨n', hroute⟩ := rrepRoute_some (c := c) hwf { rrep with
    exts := rrep.exts.map (Ext.addCost (getCost c n src rrep.channel)) } ht.newer src
  obtain ⟨-, rt, hrt, hnext, hhops, hcost⟩ := rrepHandle_entry hc hwf { rrep with
    exts := rrep.exts.map (Ext.addCost (getCost c n src rrep.channel)) } ht.foreign hroute ttl
  refine ⟨rt, ?_, hnext, hhops, hcost⟩
  unfold rrepProcess
  rw [if_neg (by rw [hlr]; decide), if_neg (by omega), if_neg ht.foreign]
  exact hrt

/-! ## Along a path -/

theorem toNat_hops {l : List ℚ} (h : (l.length + 1 : Int) ≤ netDiameter) :
    (BitVec.ofNat 8 l.length + 1).toNat = l.length + 1 := by
  have hk : l.length + 1 ≤ 35 := by
    have : (l.length + 1 : Int) ≤ 35 := h
    omega
  rw [BitVec.toNat_add, BitVec.toNat_ofNat]
  simp
  omega

theorem receivedCost_path (c : Ctx) (n : Node) (src : InAddr) (ch : BitVec 8) {exts : List Ext}
    {l : List ℚ} (h : exts = [.cost l.sum]) :
    receivedCost c n src ch exts = (getCost c n src ch :: l).sum := by
  rw [h, List.sum_cons, add_comm]
  rfl

/-- The node at the end of a path installs a route with the number of links and the sum of their
costs, to the originator of the request and to the destination of the reply alike. What it passes
on of the reply is that route. -/
theorem routes_have_path_cost (hc : c.BreaksAsDocumented) {n : Node} (hwf : RtWf n) (len : ℕ) (src : InAddr)
    (ttl : Int) (ch : BitVec 8) (l : List ℚ) (hk : (l.length + 1 : Int) ≤ netDiameter) :
    (∀ m, RreqPath l m → n.TakesRequest c { m with channel := ch } len src →
      ∃ rt, (rreqProcess c { m with channel := ch } len src ttl n).lookup m.origAddr = some rt ∧
        rt.nextHop = src ∧ rt.hcnt.toNat = l.length + 1 ∧
        rt.cost = (getCost c n src ch :: l).sum) ∧
    ∀ m, RrepPath l m → n.TakesReply c { m with channel := ch } len src →
      ∃ rt, (rrepProcess c { m with channel := ch } len src ttl n).lookup m.destAddr = some rt ∧
        rt.nextHop = src ∧ rt.hcnt.toNat = l.length + 1 ∧
        rt.cost = (getCost c n src ch :: l).sum ∧
        ∀ m', n.Transmits (rrepProcess c { m with channel := ch } len src ttl n) (.rrep m') →
          m'.destAddr ≠ n.ipaddr → m'.hcnt = rt.hcnt ∧ m'.exts = [.cost rt.cost] := by
  refine ⟨fun m hpath ht => ?_, fun m hpath ht => ?_⟩
  · obtain ⟨htype, hhops, hexts⟩ := hpath.carries
    obtain ⟨rt, hrt, hnext, hh, hcost⟩ :=
      rreqProcess_entry hc hwf { m with channel := ch } htype ht ttl
    refine ⟨rt, hrt, hnext, ?_, hcost.trans (receivedCost_path c n src ch hexts)⟩
    rw [hh]
    dsimp only
    rw [hhops]
    exact toNat_hops hk
  · obtain ⟨hlr, hhops, hexts⟩ := hpath.carries
    obtain ⟨rt, hrt, hnext, hh, hcost⟩ :=
      rrepProcess_entry hc hwf { m with channel := ch } hlr ht ttl
    refine ⟨rt, hrt, hnext, ?_, hcost.trans (receivedCost_path c n src ch hexts), ?_⟩
    · rw [hh]
      dsimp only
      rw [hhops]
      exact toNat_hops hk
    · intro m' hsent hown
      obtain ⟨-, -, -, rt', hrt', hwire⟩ := hsent.reply hown
        (rrepProcess_ofReply hc { m with channel := ch } hlr hexts len src ttl hwf)
      cases hrt'.symm.trans hrt
      exact hwire

theorem described_breaksAsDocumented (log : ℚ → ℚ) (cf : Conf) (env : Env) :
    Ctx.BreaksAsDocumented ⟨cf, .described log cf, env⟩ :=
  ⟨described_linkBreaks log cf env, described_breaksLinks log cf env,
    described_buildsErrors log cf env⟩

def Node.rreqOut (n : Node) : Option RREQ :=
  n.out.findSome? fun o => match o.sent with
    | some (.rreq m) => some m
    | _ => none

theorem transmits_of_rreqOut {n n' : Node} {m : RREQ} (hout : n.out = []) (hpq : n.pq = [])
    (h : n'.rreqOut = some m) : n.Transmits n' (.rreq m) := by
  obtain ⟨o, ho, hm⟩ := List.exists_of_findSome?_eq_some h
  refine ⟨?_, o, ⟨n'.out, ?_, ho⟩, ?_⟩
  · rw [hpq]
    exact fun qp hqp => absurd hqp List.not_mem_nil
  · rw [hout]
    rfl
  · split at hm
    · next m' hsent =>
      cases hm
      exact hsent
    · cases hm

def firstCopy : RREQ :=
  { type := aodvRreq, destAddr := 9, origAddr := 3, origSeqno := 2, exts := [.cost 0] }

def firstRelay : Node :=
  rreqProcess (sampleCtx 0) { firstCopy with channel := 0 } rreqCostSize 3 32
    (Node.init (sampleCtx 0) 1)

def secondCopy : RREQ := firstRelay.rreqOut.getD {}

/-- Two links away, agent 2 has heard of neither, and each link counts 100000. -/
theorem routes_have_path_cost_two :
    ∃ rt, (rreqProcess (sampleCtx 0) { secondCopy with channel := 0 } rreqCostSize 1 31
        (Node.init (sampleCtx 0) 2)).lookup 3 = some rt ∧
      rt.nextHop = 1 ∧ rt.hcnt.toNat = 2 ∧ rt.cost = 200000 := by
  have hcopy : firstRelay.rreqOut = some secondCopy := by
    have hsome : firstRelay.rreqOut.isSome = true := by decide +kernel
    obtain ⟨m, hm⟩ := Option.isSome_iff_exists.mp hsome
    unfold secondCopy
    rw [hm]
    rfl
  have horig : secondCopy.origAddr = 3 := by decide +kernel
  have horigin : RreqPath [] firstCopy :=
    .origin (Node.init (sampleCtx 0) 3) 0 9 0 3 rfl
  have hsent : (Node.init (sampleCtx 0) 1).Transmits firstRelay (.rreq secondCopy) :=
    transmits_of_rreqOut rfl rfl hcopy
  unfold firstRelay at hsent
  have hpath : RreqPath [getCost (sampleCtx 0) (Node.init (sampleCtx 0) 1) 3 0] secondCopy :=
    .forward (sampleCtx 0) (described_breaksAsDocumented sampleLog {} { now := 0 })
      (Node.init (sampleCtx 0) 1) rreqCostSize 3 32 0 hsent horigin
  have hempty : ∀ a, (Node.init (sampleCtx 0) 2).lookup a = none := fun _ => rfl
  have htakes : (Node.init (sampleCtx 0) 2).TakesRequest (sampleCtx 0)
      { secondCopy with channel := 0 } rreqCostSize 1 := by
    refine ⟨?_, by decide, rfl, rfl, fun rt hrt => ?_⟩
    · show secondCopy.origAddr ≠ 2
      rw [horig]
      decide
    · cases (hempty _).symm.trans hrt
  obtain ⟨rt, hrt, hnext, hhops, hcost⟩ := (routes_have_path_cost
    (described_breaksAsDocumented sampleLog {} { now := 0 }) (init_rtWf (c := sampleCtx 0) 2) rreqCostSize 1
    31 0 _ (by decide)).1 secondCopy hpath htakes
  rw [horig] at hrt
  refine ⟨rt, hrt, hnext, hhops, hcost.trans ?_⟩
  decide +kernel

end AodvUU

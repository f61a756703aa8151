import AodvUU.DestSeqno
import AodvUU.Lib.DistanceVector
import AodvUU.OwnSeqno
import AodvUU.PathCosts
import AodvUU.Suspicion
import Mathlib.Data.Int.ConditionallyCompleteOrder

/-! # What plain requests and replies announce

A request announces the route to its originator, a reply the route to its destination, each with a
sequence number and an accumulated cost. Handled, it becomes an entry over its sender or changes
nothing; what is sent on is backed by an entry of the sender. -/
namespace AodvUU

open DistanceVector (Advert)

variable {c : Ctx}

abbrev RouteAdvert := Advert InAddr ℤ ℚ

/-- An entry, its number as the signed comparisons read it. -/
def RtTable.route (rt : RtTable) : DistanceVector.Entry InAddr ℤ ℚ :=
  ⟨rt.destSeqno.toInt, rt.cost, rt.nextHop, rt.state = .valid⟩

/-- The agent has, or has had, the route that it announces. -/
def Node.Knows (n : Node) (a : RouteAdvert) : Prop :=
  a.dest = n.ipaddr ∨ ∃ rt, n.lookup a.dest = some rt ∧ rt.route.Covers a.seq a.cost

/-! ## Announcements -/

structure Announcement where
  dest : InAddr
  seqno : BitVec 32
  exts : List Ext

def Packet.announced (p : Packet) : Option Announcement :=
  match p.control with
  | some (.rreq m) =>
    if m.type = aodvRreq then some ⟨m.origAddr, m.origSeqno, m.exts⟩ else none
  | some (.rrep m) =>
    if m.type = aodvRrep ∧ m.lr = false ∧ ¬ (p.ttl = 1 ∧ p.daddr = aodvBroadcast) then
      some ⟨m.destAddr, m.destSeqno, m.exts⟩
    else none
  | _ => none

/-- The announcement is the sender's own, with a number and one cost, and has `Q`. -/
structure Announcement.From (own : InAddr) (Q : RouteAdvert → Prop) (x : Announcement)
    (saddr : InAddr) : Prop where
  saddr : saddr = own
  seqno : x.seqno ≠ 0
  cost : ∃ v, x.exts = [.cost v] ∧ Q ⟨own, x.dest, x.seqno.toInt, v⟩

def Output.Announces (own : InAddr) (Q : RouteAdvert → Prop) (o : Output) : Prop :=
  ∀ i p d, o = .sched i p d → ∀ x, p.announced = some x → x.From own Q p.saddr

theorem Output.Announces.mono {own : InAddr} {Q R : RouteAdvert → Prop} {o : Output}
    (h : o.Announces own Q) (hQR : ∀ a, Q a → R a) : o.Announces own R := by
  intro i p d ho x hx
  obtain ⟨hs, hv, v, he, hQ⟩ := h i p d ho x hx
  exact ⟨hs, hv, v, he, hQR _ hQ⟩

theorem Output.Control.announces_request {own dst : InAddr} {ttl ch : Int} {m : RREQ}
    {Q : RouteAdvert → Prop} {o : Output} (ho : o.Control own dst ttl ch (.rreq m))
    (hv : m.origSeqno ≠ 0) {v : ℚ} (he : m.exts = [.cost v])
    (hQ : Q ⟨own, m.origAddr, m.origSeqno.toInt, v⟩) : o.Announces own Q := by
  rintro i p d rfl x hx
  obtain ⟨htype, hs, -, -, hm, -⟩ := ho
  unfold Packet.announced Packet.control at hx
  rw [if_pos htype, hm] at hx
  dsimp only at hx
  split at hx
  · cases hx
    exact ⟨hs, hv, v, he, hQ⟩
  · cases hx

theorem Output.Control.announces_reply {own dst : InAddr} {ttl ch : Int} {m : RREP}
    {Q : RouteAdvert → Prop} {o : Output} (ho : o.Control own dst ttl ch (.rrep m))
    (hv : m.destSeqno ≠ 0) {v : ℚ} (he : m.exts = [.cost v])
    (hQ : Q ⟨own, m.destAddr, m.destSeqno.toInt, v⟩) : o.Announces own Q := by
  rintro i p d rfl x hx
  obtain ⟨htype, hs, -, -, hm, -⟩ := ho
  unfold Packet.announced Packet.control at hx
  rw [if_pos htype, hm] at hx
  dsimp only at hx
  split at hx
  · cases hx
    exact ⟨hs, hv, v, he, hQ⟩
  · cases hx

theorem announces_permits {n : Node} (hpq : n.pq = []) (Q : RouteAdvert → Prop) :
    n.Permits (Output.Announces n.ipaddr Q) := by
  refine ⟨fun o ho i p d heq x hx => ?_, fun o ho i p d heq x hx => ?_⟩
  · subst heq
    unfold Packet.announced at hx
    cases hm : p.control with
    | none =>
      rw [hm] at hx
      cases hx
    | some m =>
      rw [hm] at hx
      have hplain := ho m hm
      rw [hpq] at hplain
      rcases hplain with hr | ⟨qp, hqp, -⟩
      · cases m with
        | rerr | rrepAck | overlaid => cases hx
        | rreq | rrep => exact hr.elim
      · cases hqp
  · subst heq
    obtain ⟨ch, m, ⟨htype, -, hdst, httl, hm, -⟩, -⟩ := ho
    unfold Packet.announced Packet.control at hx
    rw [if_pos htype, hm] at hx
    dsimp only at hx
    rw [if_neg fun h => h.2.2 ⟨httl, hdst⟩] at hx
    cases hx

/-! ## Tables -/

/-- An agent to which the tests on numbers and channels apply as they are meant: its entries have a
number and a channel, none is flagged as one-way, and none is about itself. -/
structure Node.Regular (n : Node) : Prop where
  wf : RtWf n
  trusting : n.Trusting
  own : n.lookup n.ipaddr = none
  entry : ∀ a rt, n.lookup a = some rt → rt.destSeqno ≠ 0 ∧ rt.channel ≠ -1

/-- What a message from `src` about a route does to the table. -/
inductive Node.Learns (n : Node) (src d : InAddr) (seqno : BitVec 32) (cost : ℚ) (n' : Node) : Prop
  | ignored (h : n.Ages n')
  | taken (hd : d ≠ n.ipaddr)
      (hnew : ∀ rt, n.lookup d = some rt → rt.Outdated seqno cost) (w : RtTable) (ch : ℕ)
      (hw : w.RouteOver src seqno ch cost) (h : n.Installs d w n')

theorem rreqRelay_ages (hl : c.LinkBreaks {}) {rreq : RREQ} (ttl : Int) {n : Node} (hwf : RtWf n)
    (hch : ∀ a rt, n.lookup a = some rt → rt.channel ≠ -1) (ho : rreq.origAddr ≠ n.ipaddr)
    (hd : rreq.destAddr ≠ n.ipaddr) : n.Ages (rreqRelay c rreq ttl n) := by
  have hforward : ∀ fwd, n.Ages (rreqForward c fwd rreq rreqCostSize ttl n) := fun fwd =>
    (rreqForward_effects fwd rreqCostSize ttl ho : Effects c {} n _).ages
  unfold rreqRelay
  rw [hwf.rtTableFind_eq_lookup]
  cases hfwd : n.lookup rreq.destAddr with
  | none => exact hforward none
  | some fwdRt =>
    dsimp only
    rw [if_neg (hch _ fwdRt hfwd)]
    split
    · exact (rreqIntermediate_effects hl ho (by rw [destAddr_of_lookup hfwd]; exact hd)).ages
    · exact hforward (some fwdRt)

theorem rreqAnswer_ages (hl : c.LinkBreaks {}) {rreq : RREQ} (ttl : Int) {n : Node} (hwf : RtWf n)
    (hch : ∀ a rt, n.lookup a = some rt → rt.channel ≠ -1) (ho : rreq.origAddr ≠ n.ipaddr) :
    n.Ages (rreqAnswer c rreq ttl n) := by
  unfold rreqAnswer
  split
  · have hraise : n.Ages (n.seqnoRaise rreq.destSeqno) :=
      .of_tbl (seqnoRaise_sameTable rreq.destSeqno n).tbl
    unfold rreqDestination
    exact hraise.trans (rrepReply_effects hl _ _ _ _ fun _ => rfl :
      Effects c {} (n.seqnoRaise rreq.destSeqno) _).ages
  · next hdest => exact rreqRelay_ages hl ttl hwf hch ho hdest

theorem Node.Installs.channel {n n' : Node} {a : InAddr} {w : RtTable} (h : n.Installs a w n')
    (hch : ∀ b rt, n.lookup b = some rt → rt.channel ≠ -1) (hw : w.channel ≠ -1) (b : InAddr)
    (rt' : RtTable) (hrt' : n'.lookup b = some rt') : rt'.channel ≠ -1 := by
  by_cases hb : b = a
  · subst hb
    obtain ⟨rt, hrt, hage⟩ := h.entry
    cases hrt.symm.trans hrt'
    rw [hage.channel]
    exact hw
  · have hrel := h.others b hb
    rw [hrt'] at hrel
    obtain ⟨rt, hrt, hage⟩ := optionRel_some hrel
    rw [hage.channel]
    exact hch b rt hrt

/-- What is known once the reverse route has been made from `n₀`, which differs from `n` by a
record. -/
structure Node.Reversed (c : Ctx) (n n₁ : Node) (rreq : RREQ) (src : InAddr) (ttl : Int) (cost : ℚ) :
    Prop where
  wf : RtWf n₁
  channel : ∀ a rt, n₁.lookup a = some rt → rt.channel ≠ -1
  new : ∀ rt, n.lookup rreq.origAddr = some rt → rt.Outdated rreq.origSeqno cost
  ages : n₁.Ages (if rreq.destAddr = n₁.ipaddr then rreqDestination c rreq n₁
    else rreqRelay c rreq ttl n₁)
  installs : ∃ w : RtTable, w.RouteOver src rreq.origSeqno rreq.channel.toNat cost ∧
    n.Installs rreq.origAddr w (if rreq.destAddr = n₁.ipaddr then rreqDestination c rreq n₁
      else rreqRelay c rreq ttl n₁)

theorem Node.Regular.reversed (hc : c.BreaksAsDocumented) {n n₀ n₁ : Node} (hn : n.Regular)
    (hrec : Traffic n n₀) {rreq : RREQ} (ho : rreq.origAddr ≠ n.ipaddr) {src : InAddr} {cost : ℚ}
    (hrev : rreqReverse c rreq src cost n₀ = some n₁) (ttl : Int) :
    n.Reversed c n₁ rreq src ttl cost := by
  have hlook : n₀.lookup = n.lookup := by
    unfold Node.lookup
    rw [hrec.tbl]
  have hwf₀ : RtWf n₀ := hn.wf.of_table hrec.tbl hrec.numEntries
  have ho₀ : rreq.origAddr ≠ n₀.ipaddr := hrec.ipaddr ▸ ho
  obtain ⟨hnew, w, hover, -, hinst⟩ := rreqReverse_installs hc.linkBreaks hwf₀ ho₀ hrev
  have heff := rreqReverse_effects (updates_all hc.linkBreaks.widen) trivial hrev
  have hwf₁ := effects_preserve_rtWf hwf₀ heff
  have hch := hinst.channel (fun a rt hrt => (hn.entry a rt (hlook ▸ hrt)).2) (by
    rw [hover.channel]
    omega)
  have htail := rreqAnswer_ages hc.linkBreaks ttl hwf₁ hch (heff.ipaddr ▸ ho₀)
  rw [hlook] at hnew
  exact ⟨hwf₁, hch, hnew, htail, w, hover, (Node.Ages.of_tbl hrec.tbl).installs (hinst.ages htail)⟩

theorem rreqHandle_learns (hc : c.BreaksAsDocumented) {n : Node} (hn : n.Regular) (rreq : RREQ)
    (ho : rreq.origAddr ≠ n.ipaddr) (src : InAddr) (ttl : Int) :
    n.Learns src rreq.origAddr rreq.origSeqno (lastCost (c.ext.log maxNum) rreq.exts)
      (rreqHandle c rreq src ttl n) := by
  have hrec : Traffic n (rreqRecordInsertWithCost c rreq.origAddr rreq.rreqId
      (lastCost (c.ext.log maxNum) rreq.exts) n) := rreqRecordInsertWithCost_traffic _ _ _ n
  rcases rreqHandle_cases c rreq src ttl n with ⟨-, heq⟩ | ⟨-, ⟨-, heq⟩ | ⟨n₁, hrev, heq⟩⟩
  · rw [heq]
    exact .ignored (.of_tbl rfl)
  · rw [heq]
    exact .ignored (.of_tbl hrec.tbl)
  · have hr := hn.reversed hc hrec ho hrev ttl
    obtain ⟨w, hover, hinst⟩ := hr.installs
    rw [heq]
    exact .taken ho hr.new w _ hover hinst

theorem rrepHandle_installs (hc : c.BreaksAsDocumented) {n n₁ : Node} (hwf : RtWf n) {rrep : RREP}
    (hd : rrep.destAddr ≠ n.ipaddr) {src : InAddr}
    (hroute : rrepRoute c rrep src (lastCost (c.ext.log maxNum) rrep.exts) n = some n₁)
    (ttl : Int) :
    (∀ rt, n.lookup rrep.destAddr = some rt →
      rt.Outdated rrep.destSeqno (lastCost (c.ext.log maxNum) rrep.exts)) ∧
    ∃ w : RtTable, w.RouteOver src rrep.destSeqno rrep.channel.toNat
      (lastCost (c.ext.log maxNum) rrep.exts) ∧
      n.Installs rrep.destAddr w (rrepHandle c rrep src ttl n) := by
  obtain ⟨hnew, w, hover, -, hinst⟩ := rrepRoute_installs hc.linkBreaks hwf hd hroute
  have heff := rrepRoute_effects (updates_all hc.linkBreaks.widen) trivial hroute
  refine ⟨hnew, w, hover, ?_⟩
  unfold rrepHandle
  dsimp only
  rw [hroute]
  exact hinst.ages (rrepTail_effects (rtTableFind n rrep.destAddr)
    ((rtTableFind n rrep.origAddr).map (·.destAddr)) ttl (heff.ipaddr ▸ hd) :
    Effects c {} n₁ _).ages

theorem rrepHandle_learns (hc : c.BreaksAsDocumented) {n : Node} (hn : n.Regular) (rrep : RREP)
    (hd : rrep.destAddr ≠ n.ipaddr) (src : InAddr) (ttl : Int) :
    n.Learns src rrep.destAddr rrep.destSeqno (lastCost (c.ext.log maxNum) rrep.exts)
      (rrepHandle c rrep src ttl n) := by
  cases hroute : rrepRoute c rrep src (lastCost (c.ext.log maxNum) rrep.exts) n with
  | none =>
    unfold rrepHandle
    dsimp only
    rw [hroute]
    exact .ignored (.of_tbl rfl)
  | some n₁ =>
    obtain ⟨hnew, w, hover, hinst⟩ := rrepHandle_installs hc hn.wf hd hroute ttl
    exact .taken hd hnew w _ hover hinst

/-! ## Numbers -/

theorem seqnoIncr_ne_zero {v : BitVec 32} (h : v ≠ 0) : seqnoIncr v ≠ 0 := by
  unfold seqnoIncr
  rw [if_neg h]
  split
  · decide
  · bv_omega

theorem RtTable.Ages.numbered {rt rt' : RtTable} (h : rt.Ages rt') (h0 : rt.destSeqno ≠ 0) :
    rt'.destSeqno ≠ 0 := by
  rcases h.aged with ⟨-, hs⟩ | ⟨-, -, hs⟩
  · rw [hs]
    exact h0
  · rw [hs]
    exact seqnoIncr_ne_zero h0

theorem seqnoRaise_ne_zero (v : BitVec 32) {n : Node} (h : n.seqno ≠ 0) :
    (n.seqnoRaise v).seqno ≠ 0 := by
  unfold Node.seqnoRaise
  split_ifs with h0 hlt heq
  · exact h
  · exact h0
  · exact seqnoIncr_ne_zero h
  · exact h

theorem Effect.seqno_ne_zero {n n' : Node} (he : Effect c .all n n') (h : n.seqno ≠ 0) :
    n'.seqno ≠ 0 := by
  cases he with
  | traffic ht => exact ht.seqno ▸ h
  | entry | insert | setSeqno | buffer => exact h
  | invalidate a => exact (rtTableInvalidate_tableChange a n).seqno ▸ h
  | delete hs a => exact (rtTableDelete_tableChange a n).seqno ▸ h
  | update hs addr => exact hs.tableChange.seqno ▸ h
  | raise hs v => exact seqnoRaise_ne_zero v h
  | incr hs => exact seqnoIncr_ne_zero h
  | flood hs a v ttl flags =>
    apply seqnoIncr_ne_zero
    rw [(flood_number a v ttl flags n).1]
    exact h
  | reflood hs a v ttl flags => exact (flood_number a v ttl flags n).1 ▸ h

theorem Effects.seqno_ne_zero {n n' : Node} (he : Effects c .all n n') (h : n.seqno ≠ 0) :
    n'.seqno ≠ 0 := by
  induction he with
  | refl => exact h
  | tail _ hstep ih => exact hstep.seqno_ne_zero ih

/-- No number in the table has come to the largest `int32_t`. -/
def Node.NumbersBelow (n : Node) : Prop :=
  ∀ a rt, n.lookup a = some rt → rt.destSeqno.toNat < maxSeqno.toNat

theorem RtTable.Ages.fades {rt rt' : RtTable} (h : rt.Ages rt') (h0 : rt.destSeqno ≠ 0)
    (hb : rt'.destSeqno.toNat < maxSeqno.toNat) : rt.route.Fades rt'.route := by
  refine ⟨h.nextHop, h.cost, ?_⟩
  rcases h.aged with ⟨hst, hs⟩ | ⟨-, hst, hs⟩
  · refine .inl ⟨congrArg BitVec.toInt hs, ?_⟩
    show rt'.state = .valid ↔ rt.state = .valid
    rw [hst]
  · refine .inr ⟨?_, ?_⟩
    · show rt.destSeqno.toInt < rt'.destSeqno.toInt
      rw [hs] at hb ⊢
      unfold seqnoIncr maxSeqno at *
      rw [if_neg h0] at hb ⊢
      split_ifs at hb ⊢ with hmax
      · rw [hmax]
        decide
      · simp only [BitVec.toInt_eq_toNat_cond]
        split_ifs <;> bv_omega
    · show ¬ rt'.state = .valid
      rw [hst]
      exact nofun

/-! ## What is sent on -/

theorem Node.Ages.knows {n n' : Node} (h : n.Ages n') (hb : n'.NumbersBelow) {d : InAddr}
    {rt : RtTable} (hrt : n.lookup d = some rt) (h0 : rt.destSeqno ≠ 0) (hv : rt.state = .valid)
    (own : InAddr) : n'.Knows ⟨own, d, rt.destSeqno.toInt, rt.cost⟩ := by
  obtain ⟨rt', hrt', hage⟩ := h.lookup_eq_some hrt
  have hself : rt.route.Covers rt.destSeqno.toInt rt.cost := .inr ⟨rfl, hv, le_rfl⟩
  exact .inr ⟨rt', hrt', hself.fades (hage.fades h0 (hb d rt' hrt'))⟩

theorem Node.Installs.knows {n n' : Node} {d src : InAddr} {seqno : BitVec 32} {ch : Int} {cost : ℚ}
    {w : RtTable} (h : n.Installs d w n') (hw : w.RouteOver src seqno ch cost) (h0 : seqno ≠ 0)
    (hb : n'.NumbersBelow) (own : InAddr) : n'.Knows ⟨own, d, seqno.toInt, cost⟩ := by
  obtain ⟨rt', hrt', hage⟩ := h.entry
  have hself : w.route.Covers seqno.toInt cost :=
    .inr ⟨congrArg BitVec.toInt hw.destSeqno, hw.state, hw.cost.le⟩
  exact .inr ⟨rt', hrt', hself.fades (hage.fades (hw.destSeqno ▸ h0) (hb d rt' hrt'))⟩

theorem rreqDestination_announces (hc : c.BreaksAsDocumented) {n₀ n : Node} {Q : RouteAdvert → Prop}
    (hP : n₀.Permits (Output.Announces n₀.ipaddr Q))
    (h : n₀.Hands (Output.Announces n₀.ipaddr Q) n) (h0 : n.seqno ≠ 0) (rreq : RREQ)
    (hown : ∀ a : RouteAdvert, a.dest = n₀.ipaddr → Q a) :
    n₀.Hands (Output.Announces n₀.ipaddr Q) (rreqDestination c rreq n) := by
  have hraise := h.seqnoRaise rreq.destSeqno
  have hnew : n₀.Hands (Output.Announces n₀.ipaddr Q) (aodvSocketNewMsg (.rrep
      (rrepCreateWithCost 0 0 (n.seqnoRaise rreq.destSeqno).ipaddr
        (n.seqnoRaise rreq.destSeqno).seqno rreq.origAddr (msecs c.conf.myRouteTimeout) 0))
      (n.seqnoRaise rreq.destSeqno)) := hraise.still rfl rfl rfl
  unfold rreqDestination
  refine hnew.rrepSendGen hP hc.breaksLinks hc.buildsErrors rfl _ _ _ _ fun dst ch o ho => ?_
  exact ho.announces_reply (v := 0) (seqnoRaise_ne_zero _ h0) rfl (hown _ hraise.ipaddr)

theorem rreqIntermediate_announces (hc : c.BreaksAsDocumented) {n₀ n : Node}
    {Q : RouteAdvert → Prop} (hP : n₀.Permits (Output.Announces n₀.ipaddr Q))
    (h : n₀.Hands (Output.Announces n₀.ipaddr Q) n) {rreq : RREQ} (hg : rreq.g = false)
    {fwdRt : RtTable} (h0 : fwdRt.destSeqno ≠ 0)
    (hQ : Q ⟨n₀.ipaddr, fwdRt.destAddr, fwdRt.destSeqno.toInt, fwdRt.cost⟩) :
    n₀.Hands (Output.Announces n₀.ipaddr Q) (rreqIntermediate c rreq fwdRt n) := by
  have hnew : n₀.Hands (Output.Announces n₀.ipaddr Q) (aodvSocketNewMsg (.rrep
      (rrepCreateWithCost 0 fwdRt.hcnt fwdRt.destAddr fwdRt.destSeqno rreq.origAddr
        (lifetime c fwdRt) fwdRt.cost)) n) := h.still rfl rfl rfl
  unfold rreqIntermediate
  dsimp only
  rw [hg, if_neg Bool.false_ne_true]
  refine hnew.rrepSendGen hP hc.breaksLinks hc.buildsErrors rfl _ _ _ _ fun dst ch o ho => ?_
  exact ho.announces_reply (v := fwdRt.cost) h0 rfl hQ

theorem rreqForward_announces {n₀ n : Node} {Q : RouteAdvert → Prop}
    (h : n₀.Hands (Output.Announces n₀.ipaddr Q) n) {rreq : RREQ} (h0 : rreq.origSeqno ≠ 0) {v : ℚ}
    (hexts : rreq.exts = [.cost v]) (hQ : Q ⟨n₀.ipaddr, rreq.origAddr, rreq.origSeqno.toInt, v⟩)
    (fwd : Option RtTable) (ttl : Int) :
    n₀.Hands (Output.Announces n₀.ipaddr Q) (rreqForward c fwd rreq rreqCostSize ttl n) := by
  obtain ⟨ho, hs⟩ : (raiseDestSeqno fwd rreq).origAddr = rreq.origAddr ∧
      (raiseDestSeqno fwd rreq).origSeqno = rreq.origSeqno := by
    unfold raiseDestSeqno
    cases fwd with
    | none => exact ⟨rfl, rfl⟩
    | some rt =>
      dsimp only
      split <;> exact ⟨rfl, rfl⟩
  refine h.rreqForward fwd rreq rreqCostSize ttl fun _ ch o hctl => ?_
  refine hctl.announces_request (v := v) ?_ ?_ ?_
  · show (raiseDestSeqno fwd rreq).origSeqno ≠ 0
    rw [hs]
    exact h0
  · rw [(forwardedRequest_fields fwd rreq rreqCostSize).2.2, hexts]
    rfl
  · show Q ⟨n₀.ipaddr, (raiseDestSeqno fwd rreq).origAddr,
      (raiseDestSeqno fwd rreq).origSeqno.toInt, v⟩
    rw [ho, hs]
    exact hQ

theorem rreqRelay_announces (hc : c.BreaksAsDocumented) {n₀ n : Node} {Q : RouteAdvert → Prop}
    (hP : n₀.Permits (Output.Announces n₀.ipaddr Q))
    (h : n₀.Hands (Output.Announces n₀.ipaddr Q) n) (hwf : RtWf n)
    (hch : ∀ a rt, n.lookup a = some rt → rt.channel ≠ -1) {rreq : RREQ} (hg : rreq.g = false)
    (h0 : rreq.origSeqno ≠ 0) {v : ℚ} (hexts : rreq.exts = [.cost v])
    (hQ : Q ⟨n₀.ipaddr, rreq.origAddr, rreq.origSeqno.toInt, v⟩)
    (hfwd : ∀ rt, n.lookup rreq.destAddr = some rt → rt.destSeqno ≠ 0 → rt.state = .valid →
      Q ⟨n₀.ipaddr, rreq.destAddr, rt.destSeqno.toInt, rt.cost⟩) (ttl : Int) :
    n₀.Hands (Output.Announces n₀.ipaddr Q) (rreqRelay c rreq ttl n) := by
  unfold rreqRelay
  rw [hwf.rtTableFind_eq_lookup]
  cases hrt : n.lookup rreq.destAddr with
  | none => exact rreqForward_announces h h0 hexts hQ none ttl
  | some rt =>
    dsimp only
    rw [if_neg (hch _ rt hrt)]
    split
    · next hans =>
      obtain ⟨hv, -, hs, -⟩ := hans
      refine rreqIntermediate_announces hc hP h hg hs ?_
      rw [destAddr_of_lookup hrt]
      exact hfwd rt hrt hs hv
    · exact rreqForward_announces h h0 hexts hQ (some rt) ttl

theorem rreqHandle_announces (hc : c.BreaksAsDocumented) {n : Node} (hn : n.Regular)
    (hpq : n.pq = []) (hs : n.seqno ≠ 0) (rreq : RREQ) (hg : rreq.g = false)
    (ho : rreq.origAddr ≠ n.ipaddr) (h0 : rreq.origSeqno ≠ 0) {v : ℚ} (hexts : rreq.exts = [.cost v])
    (src : InAddr) (ttl : Int) (hb : (rreqHandle c rreq src ttl n).NumbersBelow) :
    n.Hands (Output.Announces n.ipaddr (rreqHandle c rreq src ttl n).Knows)
      (rreqHandle c rreq src ttl n) := by
  have hcost : lastCost (c.ext.log maxNum) rreq.exts = v := by
    rw [hexts]
    rfl
  have hip : (rreqHandle c rreq src ttl n).ipaddr = n.ipaddr :=
    (rreqHandle_effects (s := .all) hc.linkBreaks.widen (updates_all hc.linkBreaks.widen) trivial
      trivial trivial src ttl ho).ipaddr
  have hP := announces_permits hpq (rreqHandle c rreq src ttl n).Knows
  have hrec : Traffic n (rreqRecordInsertWithCost c rreq.origAddr rreq.rreqId v n) :=
    rreqRecordInsertWithCost_traffic _ _ _ n
  have hcases := rreqHandle_cases c rreq src ttl n
  dsimp only at hcases
  rw [hcost] at hcases
  have hhands := (Node.Hands.refl (P := Output.Announces n.ipaddr
    (rreqHandle c rreq src ttl n).Knows) n).rreqRecord (c := c) rreq.origAddr rreq.rreqId v
  generalize rreqHandle c rreq src ttl n = n' at hb hip hP hhands hcases ⊢
  rcases hcases with ⟨-, rfl⟩ | ⟨-, ⟨-, rfl⟩ | ⟨n₁, hrev, heq⟩⟩
  · exact .refl n'
  · exact hhands
  · have hr := hn.reversed hc hrec ho hrev ttl
    obtain ⟨w, hover, hinst⟩ := hr.installs
    have htail := hr.ages
    have hroute := hhands.rreqReverse hP hc.breaksLinks hrev
    have heff := rreqReverse_effects (s := .all) (updates_all hc.linkBreaks.widen) trivial hrev
    unfold rreqAnswer at heq
    rw [← heq] at htail hinst
    split at heq
    · subst heq
      refine rreqDestination_announces hc hP hroute ?_ rreq fun a ha => .inl (ha.trans hip.symm)
      exact heff.seqno_ne_zero (hrec.seqno ▸ hs)
    · subst heq
      refine rreqRelay_announces hc hP hroute hr.wf hr.channel hg h0 hexts ?_ ?_ ttl
      · exact hinst.knows hover h0 hb _
      · exact fun rt hrt hs hv => htail.knows hb hrt hs hv _

theorem rrepHandle_announces (hc : c.BreaksAsDocumented) {n : Node} (hn : n.Regular)
    (hpq : n.pq = []) (rrep : RREP) (hd : rrep.destAddr ≠ n.ipaddr) (h0 : rrep.destSeqno ≠ 0) {v : ℚ}
    (hexts : rrep.exts = [.cost v]) (src : InAddr) (ttl : Int)
    (hb : (rrepHandle c rrep src ttl n).NumbersBelow) :
    n.Hands (Output.Announces n.ipaddr (rrepHandle c rrep src ttl n).Knows)
      (rrepHandle c rrep src ttl n) := by
  have hcost : lastCost (c.ext.log maxNum) rrep.exts = v := by
    rw [hexts]
    rfl
  have hexts' : takeExts (rrepCostSize - rrepSize) (takeExts (rrepCostSize - rrepSize) rrep.exts) =
      [.cost v] := by
    rw [hexts]
    rfl
  refine Node.Hands.rrepHandle (announces_permits hpq _) hc.breaksLinks
    fun n₁ hroute dst ch o ho => ?_
  obtain ⟨-, w, hover, hinst⟩ := rrepHandle_installs hc hn.wf hd hroute ttl
  rw [hcost] at hover
  exact ho.announces_reply (v := v) h0 hexts' (hinst.knows hover h0 hb _)

/-! ## Received messages -/

theorem rreqProcess_plain (c : Ctx) {rreq : RREQ} (htype : rreq.type = aodvRreq) (len : ℕ)
    (src : InAddr) (ttl : Int) (n : Node) :
    rreqProcess c rreq len src ttl n = n ∨ (rreq.origAddr ≠ n.ipaddr ∧
      rreqProcess c rreq len src ttl n = rreqHandle c { rreq with
        exts := rreq.exts.map (Ext.addCost (getCost c n src rreq.channel)) } src ttl n) := by
  unfold rreqProcess
  rw [if_neg (by rw [htype]; decide)]
  split_ifs with ho
  · exact .inl rfl
  · exact .inl rfl
  · exact .inl rfl
  · exact .inr ⟨ho, rfl⟩

theorem rrepProcess_plain (c : Ctx) {rrep : RREP} (hlr : rrep.lr = false) (len : ℕ) (src : InAddr)
    (ttl : Int) (n : Node) :
    rrepProcess c rrep len src ttl n = n ∨ (rrep.destAddr ≠ n.ipaddr ∧
      rrepProcess c rrep len src ttl n = rrepHandle c { rrep with
        exts := rrep.exts.map (Ext.addCost (getCost c n src rrep.channel)) } src ttl n) := by
  unfold rrepProcess
  rw [if_neg (by rw [hlr]; decide)]
  split_ifs with hlen hd
  · exact .inl rfl
  · exact .inl rfl
  · exact .inr ⟨hd, rfl⟩

/-- What one agent makes of a message from `src` about a route: an entry or nothing, and outputs
that announce what it knows. -/
structure Node.Hears (n : Node) (src d : InAddr) (seqno : BitVec 32) (cost : ℚ) (n' : Node) :
    Prop where
  learns : n.Learns src d seqno cost n'
  hands : n.Hands (Output.Announces n.ipaddr n'.Knows) n'

theorem Node.Hears.of_eq {n n' : Node} (h : n' = n) (src d : InAddr) (seqno : BitVec 32)
    (cost : ℚ) :
    n.Hears src d seqno cost n' := by
  subst h
  exact ⟨.ignored (.of_tbl rfl), .refl _⟩

variable {n : Node} {len : ℕ} {src : InAddr} {ttl : Int}

theorem rreqProcess_hears (hc : c.BreaksAsDocumented) (hn : n.Regular) (hpq : n.pq = [])
    (hs : n.seqno ≠ 0) {rreq : RREQ} (htype : rreq.type = aodvRreq) (hg : rreq.g = false)
    (h0 : rreq.origSeqno ≠ 0) {v : ℚ} (hexts : rreq.exts = [.cost v])
    (hb : (rreqProcess c rreq len src ttl n).NumbersBelow) :
    n.Hears src rreq.origAddr rreq.origSeqno (v + getCost c n src rreq.channel)
      (rreqProcess c rreq len src ttl n) := by
  rcases rreqProcess_plain c htype len src ttl n with hsame | ⟨ho, hhandle⟩
  · exact .of_eq hsame _ _ _ _
  · have hadd : rreq.exts.map (Ext.addCost (getCost c n src rreq.channel)) =
        [.cost (v + getCost c n src rreq.channel)] := by
      rw [hexts]
      rfl
    rw [hhandle, hadd] at hb ⊢
    exact ⟨rreqHandle_learns hc hn { rreq with
        exts := [.cost (v + getCost c n src rreq.channel)] } ho src ttl,
      rreqHandle_announces hc hn hpq hs { rreq with
        exts := [.cost (v + getCost c n src rreq.channel)] } hg ho h0 rfl src ttl hb⟩

theorem rrepProcess_hears (hc : c.BreaksAsDocumented) (hn : n.Regular) (hpq : n.pq = [])
    {rrep : RREP} (hlr : rrep.lr = false) (h0 : rrep.destSeqno ≠ 0) {v : ℚ}
    (hexts : rrep.exts = [.cost v]) (hb : (rrepProcess c rrep len src ttl n).NumbersBelow) :
    n.Hears src rrep.destAddr rrep.destSeqno (v + getCost c n src rrep.channel)
      (rrepProcess c rrep len src ttl n) := by
  rcases rrepProcess_plain c hlr len src ttl n with hsame | ⟨hd, hhandle⟩
  · exact .of_eq hsame _ _ _ _
  · have hadd : rrep.exts.map (Ext.addCost (getCost c n src rrep.channel)) =
        [.cost (v + getCost c n src rrep.channel)] := by
      rw [hexts]
      rfl
    rw [hhandle, hadd] at hb ⊢
    exact ⟨rrepHandle_learns hc hn { rrep with
        exts := [.cost (v + getCost c n src rrep.channel)] } hd src ttl,
      rrepHandle_announces hc hn hpq { rrep with
        exts := [.cost (v + getCost c n src rrep.channel)] } hd h0 rfl src ttl hb⟩

end AodvUU

import AodvUU.CostReplies
import AodvUU.Lib.CheapestOffer
import AodvUU.RequestLists
import AodvUU.Updates

/-! # The copies of a flood

The copies of a route request reach a node over several neighbours and channels. The record of a
request keeps the cost of its first copy, the routing table that of the reverse route, and both
decide whether a copy is taken. -/
namespace AodvUU

/-! ## Routes kept -/

theorem RtTable.Keeps.trans (x y z : RtTable) (h : x.Keeps y) (h' : y.Keeps z) : x.Keeps z :=
  ⟨h'.destAddr.trans h.destAddr, h'.hash.trans h.hash, h'.destSeqno.trans h.destSeqno,
    h'.nextHop.trans h.nextHop, h'.hcnt.trans h.hcnt, h'.state.trans h.state,
    h'.channel.trans h.channel, h'.cost.trans h.cost, fun hp => h'.precursors (h.precursors hp)⟩

theorem RtTable.Keeps.refl (rt : RtTable) : rt.Keeps rt :=
  ⟨rfl, rfl, rfl, rfl, rfl, rfl, rfl, rfl, id⟩

theorem RtTable.Keeps.routeOver {rt rt' : RtTable} (h : rt.Keeps rt') {next : InAddr}
    {seqno : BitVec 32} {ch : Int} {cost : ℚ} (hr : rt.RouteOver next seqno ch cost) :
    rt'.RouteOver next seqno ch cost :=
  ⟨h.nextHop.trans hr.nextHop, h.destSeqno.trans hr.destSeqno, h.channel.trans hr.channel,
    h.cost.trans hr.cost, h.state.trans hr.state⟩

section Handler

variable {c : Ctx} {n n' : Node}

abbrev Node.KeepsRoutes (n n' : Node) : Prop := n.Entrywise RtTable.Keeps n'

theorem keepsRoutes_of_routes (h : n'.routes = n.routes) : n.KeepsRoutes n' :=
  .of_lookup .refl fun _ => lookup_of_routes h

theorem rrepSendGen_keepsRoutes (channel : Option Int) {rev : InAddr} (fwd : Option InAddr)
    (size : ℕ) (h : ¬ n.Suspects c rev) : n.KeepsRoutes (rrepSendGen c channel rev fwd size n) := by
  have hadd : ∀ (a addr : InAddr) (m : Node), m.KeepsRoutes (precursorAdd a addr m) := by
    intro a addr m
    exact .modRt .refl a (fun rt => (rt.precursorAdd_keeps addr).destAddr)
      (fun rt => rt.precursorAdd_keeps addr) m
  unfold rrepSendGen
  dsimp only
  rw [suspectUnidir_of_not h]
  refine Node.Entrywise.trans .trans ?_ (keepsRoutes_of_routes (helloKeepAlive_routes _))
  have hsend : ∀ dst ch, n.KeepsRoutes (aodvSocketSend c dst size maxTtl (setChannelNum ch n)) :=
    fun dst ch => keepsRoutes_of_routes (aodvSocketSend_routes _ _ _ _)
  cases fwd with
  | none => exact hsend _ _
  | some fwd => exact ((hsend _ _).trans .trans (hadd fwd _ _)).trans .trans (hadd rev _ _)

section Trusting

variable (hack : c.conf.unidirHack = false)
include hack

theorem reply_keepsRoutes (h : n.Trusting) (m : AodvMsg) (channel : Option Int) (rev : InAddr)
    (fwd : Option InAddr) (size : ℕ) :
    n.KeepsRoutes (rrepSendGen c channel rev fwd size (aodvSocketNewMsg m n)) := by
  have hnew : n.KeepsRoutes (aodvSocketNewMsg m n) :=
    keepsRoutes_of_routes (aodvSocketNewMsg_routes m n)
  have htrust : (aodvSocketNewMsg m n).Trusting := h.of_routes (aodvSocketNewMsg_routes m n)
  exact hnew.trans .trans
    (rrepSendGen_keepsRoutes channel fwd size (htrust.not_suspects hack rev))

theorem rreqDestination_keepsRoutes (h : n.Trusting) (rreq : RREQ) :
    n.KeepsRoutes (rreqDestination c rreq n) := by
  have hraise : (n.seqnoRaise rreq.destSeqno).routes = n.routes := seqnoRaise_routes _ n
  have hkept : n.KeepsRoutes (n.seqnoRaise rreq.destSeqno) := keepsRoutes_of_routes hraise
  exact hkept.trans .trans (reply_keepsRoutes hack (h.of_routes hraise) _ (some _) _ none _)

theorem rreqIntermediate_keepsRoutes (h : n.Trusting) (rreq : RREQ) (fwdRt : RtTable) :
    n.KeepsRoutes (rreqIntermediate c rreq fwdRt n) := by
  have hfirst := fun m rev fwd => reply_keepsRoutes hack h m (some fwdRt.channel) rev fwd rreqCostSize
  have htrust := fun m rev fwd => h.reply hack m (some fwdRt.channel) rev fwd rreqCostSize
  unfold rreqIntermediate
  dsimp only
  split
  · exact (hfirst _ _ _).trans .trans (reply_keepsRoutes hack (htrust _ _ _) _ (some _) _ _ _)
  · exact hfirst _ _ _

theorem rreqRelay_keepsRoute (h : n.Trusting) (hwf : RtWf n) (rreq : RREQ) (ttl : Int) {a : InAddr}
    {rt : RtTable} (hrt : n.lookup a = some rt) (hch : rt.channel ≠ -1) :
    ∃ rt', (rreqRelay c rreq ttl n).lookup a = some rt' ∧ rt.Keeps rt' := by
  unfold rreqRelay
  rw [hwf.rtTableFind_eq_lookup]
  cases hfwd : n.lookup rreq.destAddr with
  | none => exact (keepsRoutes_of_routes (rreqForward_routes _ _ _ _ _)).lookup_eq_some hrt
  | some fwdRt =>
    dsimp only
    split
    · next hno =>
      have hdel : (rtTableDelete fwdRt.destAddr n).lookup a = some rt := by
        rw [lookup_rtTableDelete, destAddr_of_lookup hfwd, if_neg]
        · exact hrt
        · rintro rfl
          cases hfwd.symm.trans hrt
          exact hch hno
      exact (keepsRoutes_of_routes (rreqForward_routes _ _ _ _ _)).lookup_eq_some hdel
    · split
      · exact (rreqIntermediate_keepsRoutes hack h rreq fwdRt).lookup_eq_some hrt
      · exact (keepsRoutes_of_routes (rreqForward_routes _ _ _ _ _)).lookup_eq_some hrt

end Trusting

/-! ## The reverse route -/

theorem rreqReverse_stores (hl : c.LinkBreaks {}) (hwf : RtWf n) {rreq : RREQ}
    (hown : rreq.origAddr ≠ n.ipaddr) {src : InAddr} {cost : ℚ}
    (h : rreqReverse c rreq src cost n = some n') :
    ∃ rt, n'.lookup rreq.origAddr = some rt ∧
      rt.RouteOver src rreq.origSeqno rreq.channel.toNat cost ∧ rt.hcnt = rreq.hcnt + 1 := by
  unfold rreqReverse at h
  rw [hwf.rtTableFind_eq_lookup] at h
  dsimp only at h
  split at h
  · next hnone =>
    cases h
    obtain ⟨rt, hrt, hret⟩ := (rtTableAdd_stores (c := c) src (rreq.hcnt + 1) rreq.origSeqno
      (reverseLife rreq) .valid 0 rreq.channel.toNat cost n (a := rreq.origAddr)).1
    rw [rtTableInsertWithChannel_of_none hnone hown]
    exact ⟨rt, hrt, ⟨hret.nextHop, hret.destSeqno, hret.channel, hret.cost, hret.state⟩, hret.hcnt⟩
  · next revRt hrt =>
    split at h
    · cases h
      obtain ⟨rt₁, rt, -, hrt', hret⟩ := rtTableUpdateGen_writes hl hrt
        (some (rreq.channel.toNat, cost)) src (rreq.hcnt + 1) rreq.origSeqno (reverseLife rreq)
        .valid revRt.flags
      refine ⟨rt, hrt', ⟨?_, ?_, ?_, ?_, ?_⟩, ?_⟩
      · simp [hret.nextHop]
      · simp [hret.destSeqno]
      · simp [hret.channel]
      · simp [hret.cost]
      · simp [hret.state]
      · simp [hret.hcnt]
    · cases h

theorem rreqReverse_none (hwf : RtWf n) {rreq : RREQ} {cost : ℚ} {rt : RtTable}
    (hrt : n.lookup rreq.origAddr = some rt) (h : ¬ (rt.destSeqno = 0 ∨
      fresher rreq.origSeqno rt.destSeqno ∨ (rreq.origSeqno = rt.destSeqno ∧
        (rt.state = .invalid ∨ cost < rt.cost)))) (src : InAddr) :
    rreqReverse c rreq src cost n = none := by
  unfold rreqReverse
  rw [hwf.rtTableFind_eq_lookup, hrt]
  dsimp only
  rw [if_neg h]

theorem rreqAnswer_keepsRoute (hack : c.conf.unidirHack = false) (h : n.Trusting) (hwf : RtWf n)
    (rreq : RREQ) (ttl : Int) {a : InAddr} {rt : RtTable} (hrt : n.lookup a = some rt)
    (hch : rt.channel ≠ -1) :
    ∃ rt', (rreqAnswer c rreq ttl n).lookup a = some rt' ∧ rt.Keeps rt' := by
  unfold rreqAnswer
  split
  · exact (rreqDestination_keepsRoutes hack h rreq).lookup_eq_some hrt
  · exact rreqRelay_keepsRoute hack h hwf rreq ttl hrt hch

theorem Ctx.Preserves.rreqAnswer {β : Type*} {view : RequestLists → β} (h : c.Preserves view)
    (rreq : RREQ) (ttl : Int) (n : Node) :
    view (rreqAnswer c rreq ttl n).lists = view n.lists := by
  unfold AodvUU.rreqAnswer
  split
  · exact h.rreqDestination rreq n
  · exact h.rreqRelay rreq ttl n

end Handler

/-! ## Copies -/

/-- A copy of a request, with what is at hand when it is processed. -/
structure Copy where
  env : Env
  rreq : RREQ
  len : ℕ
  src : InAddr
  ttl : Int

/-- A copy and its cost, that of the link it came over included. -/
structure Arrival where
  copy : Copy
  cost : ℚ

section Run

variable (cf : Conf) (ext : Extern)

def Copy.process (x : Copy) (n : Node) : Node :=
  rreqProcess ⟨cf, ext, x.env⟩ x.rreq x.len x.src x.ttl n

def Copy.arrive (x : Copy) (n : Node) : Arrival :=
  ⟨x, receivedCost ⟨cf, ext, x.env⟩ n x.src x.rreq.channel x.rreq.exts⟩

def processAll (xs : List Copy) (n : Node) : Node := xs.foldl (fun n x => x.process cf ext n) n

/-- The copies with the costs that they have on arrival. -/
def arrivals : List Copy → Node → List Arrival
  | [], _ => []
  | x :: xs, n => x.arrive cf ext n :: arrivals xs (x.process cf ext n)

/-- The copies that make the node hand something out, an answer or the request itself. -/
def actedOn : List Copy → Node → List Arrival
  | [], _ => []
  | x :: xs, n =>
    if (x.process cf ext n).out.length = n.out.length then actedOn xs (x.process cf ext n)
    else x.arrive cf ext n :: actedOn xs (x.process cf ext n)

end Run

/-- A plain copy of the flood that is not dropped at once. -/
structure Copy.OfFlood (x : Copy) (orig : InAddr) (seqno : BitVec 32) (n : Node) : Prop where
  plain : x.rreq.type ≠ aodvRreqLr
  origAddr : x.rreq.origAddr = orig
  origSeqno : x.rreq.origSeqno = seqno
  complete : rreqSize ≤ x.len
  trusted : rreqBlacklistFind n x.src = none

structure RtTable.Follows (rt : RtTable) (seqno : BitVec 32) (d : Arrival) : Prop extends
    rt.RouteOver d.copy.src seqno d.copy.rreq.channel.toNat d.cost where
  hcnt : rt.hcnt = d.copy.rreq.hcnt + 1

/-- A number is unknown or older than the one of the flood. -/
def RtTable.Stale (rt : RtTable) (seqno : BitVec 32) : Prop :=
  rt.destSeqno = 0 ∨ fresher seqno rt.destSeqno

/-! ## Copies as offers -/

def floodOffers : CheapestOffer.Scheme Arrival (BitVec 32) ℚ where
  series d := d.copy.rreq.rreqId
  cost := Arrival.cost

/-- The requests of an originator on record, with their first costs. -/
def Node.seenCosts (n : Node) (orig : InAddr) : List (BitVec 32 × ℚ) :=
  (n.rreqRecords.filter (·.origAddr = orig)).map fun r => (r.rreqId, r.cost)

theorem mem_seenCosts {n : Node} {orig : InAddr} {r : BitVec 32 × ℚ} :
    r ∈ n.seenCosts orig ↔
      ∃ rec ∈ n.rreqRecords, rec.origAddr = orig ∧ rec.rreqId = r.1 ∧ rec.cost = r.2 := by
  unfold Node.seenCosts
  constructor
  · intro h
    obtain ⟨rec, hrec, rfl⟩ := List.mem_map.mp h
    obtain ⟨hmem, horig⟩ := List.mem_filter.mp hrec
    exact ⟨rec, hmem, of_decide_eq_true horig, rfl, rfl⟩
  · rintro ⟨rec, hmem, horig, hid, hcost⟩
    exact List.mem_map.mpr ⟨rec, List.mem_filter.mpr ⟨hmem, decide_eq_true horig⟩,
      Prod.ext hid hcost⟩

theorem rreqRecordFindLessCost_isSome {n : Node} {orig : InAddr} {d : Arrival} :
    (rreqRecordFindLessCost n orig d.copy.rreq.rreqId d.cost).isSome ↔
      floodOffers.Beaten (n.seenCosts orig) d := by
  unfold rreqRecordFindLessCost
  rw [List.find?_isSome]
  constructor
  · rintro ⟨rec, hmem, hp⟩
    obtain ⟨horig, hid, hcost⟩ := of_decide_eq_true hp
    exact ⟨(rec.rreqId, rec.cost), mem_seenCosts.mpr ⟨rec, hmem, horig, rfl, rfl⟩, hid, hcost⟩
  · rintro ⟨r, hr, hid, hcost⟩
    obtain ⟨rec, hmem, horig, hid', hcost'⟩ := mem_seenCosts.mp hr
    exact ⟨rec, hmem, decide_eq_true ⟨horig, hid'.trans hid, hcost' ▸ hcost⟩⟩

theorem seenCosts_insert {c : Ctx} (n : Node) (orig : InAddr) (d : Arrival) :
    (rreqRecordInsertWithCost c orig d.copy.rreq.rreqId d.cost n).seenCosts orig =
      floodOffers.record d (n.seenCosts orig) := by
  have hknown : (∃ r ∈ n.seenCosts orig, r.1 = floodOffers.series d) ↔
      (rreqRecordFind n orig d.copy.rreq.rreqId).isSome := by
    unfold rreqRecordFind
    rw [List.find?_isSome]
    constructor
    · rintro ⟨r, hr, hid⟩
      obtain ⟨rec, hmem, horig, hid', -⟩ := mem_seenCosts.mp hr
      exact ⟨rec, hmem, decide_eq_true ⟨horig, hid'.trans hid⟩⟩
    · rintro ⟨rec, hmem, hp⟩
      obtain ⟨horig, hid⟩ := of_decide_eq_true hp
      exact ⟨(rec.rreqId, rec.cost), mem_seenCosts.mpr ⟨rec, hmem, horig, rfl, rfl⟩, hid⟩
  unfold rreqRecordInsertWithCost CheapestOffer.Scheme.record
  cases hfind : rreqRecordFind n orig d.copy.rreq.rreqId with
  | some rec =>
    rw [if_pos (hknown.mpr (by rw [hfind]; rfl))]
  | none =>
    rw [if_neg fun h => by simpa [hfind] using hknown.mp h]
    unfold Node.seenCosts
    dsimp only
    rw [List.filter_cons_of_pos (by simp)]
    rfl

/-! ## A node follows the cheapest offer -/

/-- What is assumed of the external functions: a link break breaks links only, suspects none, and
leaves the lists behind requests alone. -/
structure Extern.Unobtrusive (cf : Conf) (ext : Extern) : Prop where
  linkBreaks : ∀ env, Ctx.LinkBreaks ⟨cf, ext, env⟩ {}
  unsuspecting : ∀ env, Ctx.Unsuspecting ⟨cf, ext, env⟩
  aside : ∀ env, Ctx.BreaksAside ⟨cf, ext, env⟩

theorem described_unobtrusive (log : ℚ → ℚ) (cf : Conf) :
    (Extern.described log cf).Unobtrusive cf where
  linkBreaks env := described_linkBreaks log cf env
  unsuspecting env := described_unsuspecting log cf env
  aside env := described_breaksAside log cf env

/-- The node, reached from `n₀`, has the records and the reverse route of the offers so far. -/
structure Node.Mirrors (orig : InAddr) (seqno : BitVec 32) (n₀ n : Node)
    (s : CheapestOffer.State Arrival (BitVec 32) ℚ) : Prop where
  wf : RtWf n
  trusting : n.Trusting
  foreign : orig ≠ n.ipaddr
  blacklist : n.rreqBlacklist = n₀.rreqBlacklist
  seen : n.seenCosts orig = s.seen
  stale : s.held = none → ∀ rt, n.lookup orig = some rt → rt.Stale seqno
  follows : ∀ d, s.held = some d → ∃ rt, n.lookup orig = some rt ∧ rt.Follows seqno d

section Simulation

variable {cf : Conf} {ext : Extern} {orig : InAddr} {seqno : BitVec 32} {n₀ n : Node}
  {s : CheapestOffer.State Arrival (BitVec 32) ℚ} {x : Copy}

theorem fresher_irrefl (v : BitVec 32) : fresher v v = false := by
  unfold fresher
  simp [BitVec.slt]

def Copy.arrived (cf : Conf) (ext : Extern) (x : Copy) (n : Node) : RREQ :=
  { x.rreq with
    exts := x.rreq.exts.map (Ext.addCost (getCost ⟨cf, ext, x.env⟩ n x.src x.rreq.channel)) }

theorem Copy.OfFlood.process (hx : x.OfFlood orig seqno n₀) (ho : orig ≠ n.ipaddr)
    (hblack : n.rreqBlacklist = n₀.rreqBlacklist) :
    x.process cf ext n =
      rreqHandle ⟨cf, ext, x.env⟩ (x.arrived cf ext n) x.src x.ttl n := by
  have hlen := hx.complete
  have htrusted : rreqBlacklistFind n x.src = none := by
    unfold rreqBlacklistFind
    rw [hblack]
    exact hx.trusted
  unfold Copy.process rreqProcess
  rw [if_neg hx.plain, if_neg (hx.origAddr ▸ ho), if_neg (by omega), htrusted, if_neg (by simp)]
  rfl

theorem Node.Mirrors.reverse (h : n₀.Mirrors orig seqno n s) (hseq : seqno ≠ 0) {n₁ : Node}
    (hr : n₁.routes = n.routes) (c : Ctx) (rreq : RREQ) (horig : rreq.origAddr = orig)
    (hno : rreq.origSeqno = seqno) (src : InAddr) (d : Arrival) :
    (floodOffers.Improves s.held d ∧ ∃ n₂, rreqReverse c rreq src d.cost n₁ = some n₂) ∨
      ((¬ floodOffers.Improves s.held d) ∧ rreqReverse c rreq src d.cost n₁ = none) := by
  subst horig hno
  have hwf : RtWf n₁ := h.wf.of_table (congrArg Routes.tbl hr) (congrArg Routes.numEntries hr)
  cases hheld : s.held with
  | none =>
    refine .inl ⟨(fun _ hy => by cases hy), rreqReverse_some hwf (fun rt hrt => ?_) src⟩
    rw [lookup_of_routes hr] at hrt
    rcases h.stale hheld rt hrt with h0 | hf
    · exact .inl h0
    · exact .inr (.inl hf)
  | some e =>
    obtain ⟨rt, hrt, hroute⟩ := h.follows e hheld
    rw [← lookup_of_routes hr] at hrt
    by_cases hlt : d.cost < e.cost
    · refine .inl ⟨fun y hy => ?_, rreqReverse_some hwf (fun rt' hrt' => ?_) src⟩
      · cases hy
        exact hlt
      · cases hrt.symm.trans hrt'
        exact .inr (.inr ⟨hroute.destSeqno.symm, .inr (hroute.cost ▸ hlt)⟩)
    · refine .inr ⟨fun himp => hlt (himp e rfl), rreqReverse_none hwf hrt ?_ src⟩
      rw [hroute.destSeqno, hroute.state, hroute.cost, fresher_irrefl]
      rintro (h0 | hf | ⟨-, hinv | hless⟩)
      · exact hseq h0
      · cases hf
      · cases hinv
      · exact hlt hless

theorem seenCosts_of_own {n n' : Node} (h : n'.lists.own = n.lists.own) (orig : InAddr) :
    n'.seenCosts orig = n.seenCosts orig := by
  have hrec : n'.rreqRecords = n.rreqRecords := congrArg Prod.fst h
  unfold Node.seenCosts
  rw [hrec]

theorem rreqRecordInsertWithCost_aside (c : Ctx) (orig : InAddr) (id : BitVec 32) (cost : ℚ)
    (n : Node) : (rreqRecordInsertWithCost c orig id cost n).rreqBlacklist = n.rreqBlacklist ∧
      (rreqRecordInsertWithCost c orig id cost n).out = n.out := by
  unfold rreqRecordInsertWithCost
  split <;> exact ⟨rfl, rfl⟩

theorem Node.Mirrors.taken (hext : ext.Unobtrusive cf) (hack : cf.unidirHack = false)
    (h : n₀.Mirrors orig seqno n s) (rreq : RREQ) (horig : rreq.origAddr = orig)
    (hno : rreq.origSeqno = seqno) {d : Arrival} (hhops : d.copy.rreq.hcnt = rreq.hcnt)
    (hch : d.copy.rreq.channel = rreq.channel) (env : Env) (ttl : Int) {n₂ : Node}
    (hrev : rreqReverse ⟨cf, ext, env⟩ rreq d.copy.src d.cost
      (rreqRecordInsertWithCost ⟨cf, ext, env⟩ orig d.copy.rreq.rreqId d.cost n) = some n₂) :
    (rreqAnswer ⟨cf, ext, env⟩ rreq ttl n₂).rreqBlacklist = n₀.rreqBlacklist ∧
      (rreqAnswer ⟨cf, ext, env⟩ rreq ttl n₂).seenCosts orig = floodOffers.record d s.seen ∧
      ∃ rt, (rreqAnswer ⟨cf, ext, env⟩ rreq ttl n₂).lookup orig = some rt ∧ rt.Follows seqno d := by
  subst horig hno
  have hroutes := rreqRecordInsertWithCost_routes (c := ⟨cf, ext, env⟩) rreq.origAddr
    d.copy.rreq.rreqId d.cost n
  have hrec := seenCosts_insert (c := ⟨cf, ext, env⟩) n rreq.origAddr d
  have haside := rreqRecordInsertWithCost_aside ⟨cf, ext, env⟩ rreq.origAddr d.copy.rreq.rreqId d.cost n
  generalize rreqRecordInsertWithCost ⟨cf, ext, env⟩ rreq.origAddr d.copy.rreq.rreqId d.cost n = n₁
    at hrev hroutes hrec haside
  have hl := hext.linkBreaks env
  have hwf₁ : RtWf n₁ :=
    h.wf.of_table (congrArg Routes.tbl hroutes) (congrArg Routes.numEntries hroutes)
  have hforeign₁ : rreq.origAddr ≠ n₁.ipaddr := by
    rw [show n₁.ipaddr = n.ipaddr from congrArg Routes.ipaddr hroutes]
    exact h.foreign
  have hwf₂ : RtWf n₂ :=
    effects_preserve_rtWf hwf₁ (rreqReverse_effects (updates_all hl.widen) trivial hrev)
  have htrust₂ : n₂.Trusting :=
    (h.trusting.of_routes hroutes).rreqReverse (hext.unsuspecting env) hrev
  obtain ⟨rt, hrt, hover, hhcnt⟩ := rreqReverse_stores hl hwf₁ hforeign₁ hrev
  obtain ⟨rt', hrt', hkeep⟩ := rreqAnswer_keepsRoute (c := ⟨cf, ext, env⟩) hack htrust₂ hwf₂ rreq ttl
    hrt (by rw [hover.channel]; omega)
  have hown : (rreqAnswer ⟨cf, ext, env⟩ rreq ttl n₂).lists.own = n₁.lists.own :=
    ((hext.aside env).preserves_own.rreqAnswer rreq ttl n₂).trans
      ((hext.aside env).preserves_own.rreqReverse hrev)
  refine ⟨?_, ?_, rt', hrt', ?_⟩
  · exact (congrArg Prod.snd hown).trans (haside.1.trans h.blacklist)
  · rw [seenCosts_of_own hown, hrec, h.seen]
  · exact ⟨hch.symm ▸ hkeep.routeOver hover, by rw [hkeep.hcnt, hhcnt, hhops]⟩

theorem Node.Mirrors.step (hext : ext.Unobtrusive cf) (hack : cf.unidirHack = false)
    (hseq : seqno ≠ 0) (h : n₀.Mirrors orig seqno n s) (hx : x.OfFlood orig seqno n₀) :
    n₀.Mirrors orig seqno (x.process cf ext n) (floodOffers.step s (x.arrive cf ext n)) ∧
      ((x.process cf ext n).out.length ≠ n.out.length →
        floodOffers.Takes s (x.arrive cf ext n)) := by
  have hl := hext.linkBreaks x.env
  have heff : Effects ⟨cf, ext, x.env⟩ .all n (x.process cf ext n) :=
    rreqProcess_effects hl.widen (updates_all hl.widen) trivial trivial trivial _ _ _ _ _
  have hwf' := effects_preserve_rtWf h.wf heff
  have htrust' : (x.process cf ext n).Trusting :=
    h.trusting.rreqProcess ⟨hext.unsuspecting x.env, hack⟩ _ _ _ _
  have hforeign' : orig ≠ (x.process cf ext n).ipaddr := heff.ipaddr ▸ h.foreign
  have hreverse := h.reverse hseq
    (rreqRecordInsertWithCost_routes (c := ⟨cf, ext, x.env⟩) orig x.rreq.rreqId
      (x.arrive cf ext n).cost n)
    ⟨cf, ext, x.env⟩ (x.arrived cf ext n) hx.origAddr hx.origSeqno x.src (x.arrive cf ext n)
  have hcases := rreqHandle_cases ⟨cf, ext, x.env⟩ (x.arrived cf ext n) x.src x.ttl n
  rw [← hx.process h.foreign h.blacklist,
    show (x.arrived cf ext n).origAddr = orig from hx.origAddr] at hcases
  rcases hcases with ⟨hless, heq⟩ | ⟨hless, ⟨hrev, heq⟩ | ⟨n₂, hrev, heq⟩⟩
  · -- a cheaper copy of the request is on record
    have hbeaten : floodOffers.Beaten s.seen (x.arrive cf ext n) :=
      h.seen ▸ rreqRecordFindLessCost_isSome.mp hless
    have hskip : ¬ floodOffers.Takes s (x.arrive cf ext n) := fun ht => ht.1 hbeaten
    have hseen := CheapestOffer.Scheme.step_seen_of_beaten hbeaten
    have hheld := CheapestOffer.Scheme.step_held_of_not_takes hskip
    rw [heq] at hwf' htrust' hforeign' ⊢
    refine ⟨⟨hwf', htrust', hforeign', h.blacklist, h.seen.trans hseen.symm, ?_, ?_⟩, ?_⟩
    · rw [hheld]
      exact h.stale
    · rw [hheld]
      exact h.follows
    · exact fun hout => absurd rfl hout
  · -- the reverse route is as cheap
    have hbeaten : ¬ floodOffers.Beaten s.seen (x.arrive cf ext n) :=
      fun hb => hless (rreqRecordFindLessCost_isSome.mpr (h.seen.symm ▸ hb))
    have hroutes : (x.process cf ext n).routes = n.routes :=
      heq ▸ rreqRecordInsertWithCost_routes _ _ _ n
    have haside := rreqRecordInsertWithCost_aside ⟨cf, ext, x.env⟩ orig
      (x.arrive cf ext n).copy.rreq.rreqId (x.arrive cf ext n).cost n
    have hskip : ¬ floodOffers.Takes s (x.arrive cf ext n) := by
      rintro ⟨-, himp⟩
      rcases hreverse with ⟨-, n₂, hsome⟩ | ⟨hno, -⟩
      · cases hsome.symm.trans hrev
      · exact hno himp
    have hheld := CheapestOffer.Scheme.step_held_of_not_takes hskip
    have hseen := CheapestOffer.Scheme.step_seen_of_not_beaten hbeaten
    refine ⟨⟨hwf', htrust', hforeign', ?_, ?_, ?_, ?_⟩, ?_⟩
    · exact heq ▸ haside.1.trans h.blacklist
    · rw [hseen, ← h.seen, heq]
      exact seenCosts_insert n orig (x.arrive cf ext n)
    · rw [hheld, lookup_of_routes hroutes]
      exact h.stale
    · rw [hheld, lookup_of_routes hroutes]
      exact h.follows
    · exact fun hout => absurd (congrArg List.length (heq ▸ haside.2)) hout
  · -- the copy is the cheapest so far
    have hbeaten : ¬ floodOffers.Beaten s.seen (x.arrive cf ext n) :=
      fun hb => hless (rreqRecordFindLessCost_isSome.mpr (h.seen.symm ▸ hb))
    have htakes : floodOffers.Takes s (x.arrive cf ext n) := by
      refine ⟨hbeaten, ?_⟩
      rcases hreverse with ⟨himp, -⟩ | ⟨-, hnone⟩
      · exact himp
      · cases hrev.symm.trans hnone
    obtain ⟨hblack, hrecs, hroute⟩ := h.taken hext hack (x.arrived cf ext n) hx.origAddr
      hx.origSeqno (d := x.arrive cf ext n) rfl rfl x.env x.ttl hrev
    have hheld := CheapestOffer.Scheme.step_held_of_takes htakes
    have hseen := CheapestOffer.Scheme.step_seen_of_not_beaten hbeaten
    rw [heq] at hwf' htrust' hforeign' ⊢
    refine ⟨⟨hwf', htrust', hforeign', hblack, hrecs.trans hseen.symm, ?_, ?_⟩, fun _ => htakes⟩
    · rw [hheld]
      exact fun hnone => absurd hnone (by simp)
    · rw [hheld]
      rintro d ⟨rfl⟩
      exact hroute

theorem Node.Mirrors.run (hext : ext.Unobtrusive cf) (hack : cf.unidirHack = false)
    (hseq : seqno ≠ 0) (h : n₀.Mirrors orig seqno n s) {xs : List Copy}
    (hxs : ∀ x ∈ xs, x.OfFlood orig seqno n₀) :
    n₀.Mirrors orig seqno (processAll cf ext xs n) (floodOffers.run s (arrivals cf ext xs n)) ∧
      (actedOn cf ext xs n).Sublist (floodOffers.taken s (arrivals cf ext xs n)) := by
  induction xs generalizing n s with
  | nil => exact ⟨h, .slnil⟩
  | cons x xs ih =>
    obtain ⟨hstep, hacts⟩ := h.step hext hack hseq (hxs x List.mem_cons_self)
    obtain ⟨hrun, hsub⟩ := ih hstep fun y hy => hxs y (List.mem_cons_of_mem x hy)
    refine ⟨hrun, ?_⟩
    unfold actedOn arrivals CheapestOffer.Scheme.taken
    split
    · split
      · exact hsub.cons _
      · exact hsub
    · next hout =>
      rw [if_pos (hacts hout)]
      exact hsub.cons_cons _

end Simulation

/-! ## Costs that stay -/

section Steady

variable {cf : Conf} {ext : Extern}

theorem Copy.arrive_congr (x : Copy) {n n' : Node} (hnb : n'.neighbors = n.neighbors)
    (hnum : n'.neighborNum = n.neighborNum) : x.arrive cf ext n' = x.arrive cf ext n := by
  have hfind : ∀ a, findNeighbor n' a = findNeighbor n a := by
    intro a
    unfold findNeighbor
    rw [hnb, hnum]
  unfold Copy.arrive receivedCost getCost
  rw [hfind, hnb]

theorem Copy.process_neighbors (hext : ext.Unobtrusive cf) (hello : cf.SteadyHellos) {x : Copy}
    (hplain : x.rreq.type ≠ aodvRreqLr) (n : Node) :
    (x.process cf ext n).neighbors = n.neighbors ∧
      (x.process cf ext n).neighborNum = n.neighborNum := by
  have hpre := (hext.aside x.env).preserves hello
  have hhandle : ∀ rreq : RREQ,
      (rreqHandle ⟨cf, ext, x.env⟩ rreq x.src x.ttl n).neighbors = n.neighbors ∧
      (rreqHandle ⟨cf, ext, x.env⟩ rreq x.src x.ttl n).neighborNum = n.neighborNum := by
    intro rreq
    have hrec : ∀ id cost,
        (rreqRecordInsertWithCost ⟨cf, ext, x.env⟩ rreq.origAddr id cost n).neighbors = n.neighbors ∧
        (rreqRecordInsertWithCost ⟨cf, ext, x.env⟩ rreq.origAddr id cost n).neighborNum =
          n.neighborNum := by
      intro id cost
      unfold rreqRecordInsertWithCost
      split <;> exact ⟨rfl, rfl⟩
    rcases rreqHandle_cases ⟨cf, ext, x.env⟩ rreq x.src x.ttl n with
      ⟨-, heq⟩ | ⟨-, ⟨-, heq⟩ | ⟨n₂, hrev, heq⟩⟩
    · rw [heq]
      exact ⟨rfl, rfl⟩
    · rw [heq]
      exact hrec _ _
    · have hlists : (rreqAnswer ⟨cf, ext, x.env⟩ rreq x.ttl n₂).lists =
          (rreqRecordInsertWithCost ⟨cf, ext, x.env⟩ rreq.origAddr _ _ n).lists :=
        (hpre.rreqAnswer rreq x.ttl n₂).trans (hpre.rreqReverse hrev)
      rw [heq]
      exact ⟨(congrArg RequestLists.neighbors hlists).trans (hrec _ _).1,
        (congrArg RequestLists.neighborNum hlists).trans (hrec _ _).2⟩
  unfold Copy.process rreqProcess
  rw [if_neg hplain]
  split_ifs
  · exact ⟨rfl, rfl⟩
  · exact ⟨rfl, rfl⟩
  · exact ⟨rfl, rfl⟩
  · exact hhandle _

theorem arrivals_eq (hext : ext.Unobtrusive cf) (hello : cf.SteadyHellos) {xs : List Copy}
    (hplain : ∀ x ∈ xs, x.rreq.type ≠ aodvRreqLr) (n : Node) :
    arrivals cf ext xs n = xs.map (·.arrive cf ext n) := by
  induction xs generalizing n with
  | nil => rfl
  | cons x xs ih =>
    have hkept := Copy.process_neighbors hext hello (hplain x List.mem_cons_self) n
    have hsame : ∀ y : Copy, y.arrive cf ext (x.process cf ext n) = y.arrive cf ext n :=
      fun y => y.arrive_congr hkept.1 hkept.2
    unfold arrivals
    rw [ih fun y hy => hplain y (List.mem_cons_of_mem x hy), List.map_cons]
    simp only [hsame]

end Steady

theorem arrivals_copy (cf : Conf) (ext : Extern) (xs : List Copy) (n : Node) :
    (arrivals cf ext xs n).map Arrival.copy = xs := by
  induction xs generalizing n with
  | nil => rfl
  | cons x xs ih =>
    unfold arrivals
    rw [List.map_cons, ih]
    rfl

/-! ## The reverse route of a flood -/

section Flood

variable {cf : Conf} {ext : Extern} {a orig : InAddr} {seqno : BitVec 32} {n : Node}

theorem Node.Mirrors.start (hwf : RtWf n) (htrust : n.Trusting) (ho : orig ≠ n.ipaddr)
    (hstale : ∀ rt, n.lookup orig = some rt → rt.Stale seqno) :
    n.Mirrors orig seqno n ⟨n.seenCosts orig, none⟩ :=
  ⟨hwf, htrust, ho, rfl, rfl, fun _ => hstale, fun _ h => by cases h⟩

/-- No copy that costs least is beaten by a record from before. -/
def Node.OpenTo (n : Node) (orig : InAddr) (ds : List Arrival) : Prop :=
  ∀ d ∈ ds, (∀ e ∈ ds, d.cost ≤ e.cost) →
    rreqRecordFindLessCost n orig d.copy.rreq.rreqId d.cost = none

theorem Node.OpenTo.unbeaten {ds : List Arrival} (h : n.OpenTo orig ds) :
    floodOffers.Unbeaten (n.seenCosts orig) ds := by
  intro d hd hmin hbeaten
  have hfound := rreqRecordFindLessCost_isSome.mpr hbeaten
  rw [h d hd hmin] at hfound
  cases hfound

/-- The route of a flood is that of its first cheapest copy, whatever the order of the copies. -/
theorem reverse_route_cheapest (hext : ext.Unobtrusive cf) (hw : ext.Within .all cf)
    (hack : cf.unidirHack = false) (hn : Reachable cf ext a n) (ho : orig ≠ n.ipaddr)
    (hseq : seqno ≠ 0) (hstale : ∀ rt, n.lookup orig = some rt → rt.Stale seqno) {xs : List Copy}
    (hne : xs ≠ []) (hxs : ∀ x ∈ xs, x.OfFlood orig seqno n)
    (hopen : n.OpenTo orig (arrivals cf ext xs n)) :
    (∃ before d after rt, arrivals cf ext xs n = before ++ d :: after ∧
      (∀ e ∈ before, d.cost < e.cost) ∧ (∀ e ∈ after, d.cost ≤ e.cost) ∧
      (processAll cf ext xs n).lookup orig = some rt ∧ rt.Follows seqno d) ∧
    ((actedOn cf ext xs n).Pairwise fun d e => e.cost < d.cost) ∧
    (∀ ys, (arrivals cf ext ys n).Perm (arrivals cf ext xs n) →
      ((processAll cf ext ys n).rt orig).cost = ((processAll cf ext xs n).rt orig).cost) ∧
    (cf.SteadyHellos → ∀ ys, ys.Perm xs →
      ((processAll cf ext ys n).rt orig).cost = ((processAll cf ext xs n).rt orig).cost) := by
  have hwf : RtWf n := reachable_rtWf hw hn
  have htrust : n.Trusting := reachable_trusting (fun env => ⟨hext.unsuspecting env, hack⟩) hn
  have hstart := Node.Mirrors.start hwf htrust ho hstale
  have hunbeaten := hopen.unbeaten
  obtain ⟨hrun, hsub⟩ := hstart.run hext hack hseq hxs
  have hds : arrivals cf ext xs n ≠ [] := by
    intro hnil
    apply hne
    rw [← arrivals_copy cf ext xs n, hnil]
    rfl
  obtain ⟨before, d, after, hsplit, hbefore, hafter, hheld⟩ :=
    CheapestOffer.Scheme.run_first_minimum
      (s := (⟨n.seenCosts orig, none⟩ : CheapestOffer.State Arrival (BitVec 32) ℚ)) rfl hunbeaten hds
  obtain ⟨rt, hrt, hfollows⟩ := hrun.follows d hheld
  have hperm : ∀ ys, (arrivals cf ext ys n).Perm (arrivals cf ext xs n) →
      ((processAll cf ext ys n).rt orig).cost = ((processAll cf ext xs n).rt orig).cost := by
    intro ys hp
    have hcopies : ys.Perm xs := by
      have hmap := hp.map Arrival.copy
      rwa [arrivals_copy, arrivals_copy] at hmap
    obtain ⟨hrun', -⟩ := hstart.run hext hack hseq fun y hy => hxs y (hcopies.subset hy)
    have hsame := CheapestOffer.Scheme.run_cost_perm
      (s := (⟨n.seenCosts orig, none⟩ : CheapestOffer.State Arrival (BitVec 32) ℚ)) rfl hunbeaten hp
    rw [hheld, Option.map_some] at hsame
    obtain ⟨e, hheld', hcost⟩ := Option.map_eq_some_iff.mp hsame
    obtain ⟨rt', hrt', hfollows'⟩ := hrun'.follows e hheld'
    rw [rt_of_lookup hrt, rt_of_lookup hrt', hfollows.cost, hfollows'.cost]
    exact hcost
  refine ⟨⟨before, d, after, rt, hsplit, hbefore, hafter, hrt, hfollows⟩, ?_, hperm, ?_⟩
  · exact (CheapestOffer.Scheme.taken_decreasing floodOffers _ _).sublist hsub
  · intro hello ys hp
    refine hperm ys ?_
    rw [arrivals_eq hext hello fun y hy => (hxs y (hp.subset hy)).plain,
      arrivals_eq hext hello fun x hx => (hxs x hx).plain]
    exact hp.map _

end Flood

/-! ## Floods from 7 -/

/-- Agent 1 has taken request 4 of 7, which has the number 5. -/
def outdatedNode : Node :=
  (step (sampleCtx 0) (.recv (rreqFrom 2 0
      { type := aodvRreq, hcnt := 1, rreqId := 4, destAddr := 8, origAddr := 7, origSeqno := 5,
        exts := [.cost 10] })) ([], Node.init (sampleCtx 0) 1)).2

theorem outdatedNode_reachable : Reachable {} (.described sampleLog {}) 1 outdatedNode :=
  .step { now := 0 } [] (.recv _) trivial (.init { now := 0 })

theorem outdatedNode_blacklist : outdatedNode.rreqBlacklist = [] := by
  have hmap : outdatedNode.rreqBlacklist.map (·.destAddr) = [] := by decide +kernel
  exact List.map_eq_nil_iff.mp hmap

theorem outdatedNode_stale : ∀ rt, outdatedNode.lookup 7 = some rt → rt.Stale 6 := by
  have hold : (outdatedNode.lookup 7).map (·.destSeqno) = some 5 := by decide +kernel
  intro rt hrt
  rw [hrt] at hold
  have hfive : rt.destSeqno = 5 := Option.some.inj hold
  refine .inr ?_
  rw [hfive]
  decide

def copyFrom7 (now : Time) (id : BitVec 32) (dest src : InAddr) (cost : ℚ) : Copy where
  env := { now }
  rreq := { type := aodvRreq, hcnt := 1, rreqId := id, destAddr := dest, origAddr := 7,
            origSeqno := 6, exts := [.cost cost] }
  len := rreqCostSize
  src := src
  ttl := 9

theorem copyFrom7_ofFlood {n : Node} (h : n.rreqBlacklist = []) (now : Time) (id : BitVec 32)
    (dest src : InAddr) (cost : ℚ) : (copyFrom7 now id dest src cost).OfFlood 7 6 n := by
  refine ⟨?_, rfl, rfl, ?_, ?_⟩
  · show aodvRreq ≠ aodvRreqLr
    decide
  · show rreqSize ≤ rreqCostSize
    decide
  · unfold rreqBlacklistFind
    rw [h]
    rfl

/-- Requests 5 and 6 of 7 over the neighbours 2 and 3, the second cheaper. -/
def twoCopies : List Copy := [copyFrom7 20 5 8 2 30, copyFrom7 30 6 8 3 20]

theorem twoCopies_open :
    outdatedNode.OpenTo 7 (arrivals {} (.described sampleLog {}) twoCopies outdatedNode) := by
  have hids : outdatedNode.rreqRecords.map (·.rreqId) = [4] := by decide +kernel
  intro d hd _
  have hcopy := List.mem_map_of_mem (f := Arrival.copy) hd
  rw [arrivals_copy] at hcopy
  have hne : d.copy.rreq.rreqId ≠ 4 := by
    rcases List.mem_cons.mp hcopy with heq | hcopy
    · rw [heq]
      decide
    · rw [List.mem_singleton.mp hcopy]
      decide
  refine List.find?_eq_none.mpr fun r hr hp => hne ?_
  have hid : r.rreqId ∈ outdatedNode.rreqRecords.map (·.rreqId) := List.mem_map_of_mem hr
  rw [hids, List.mem_singleton] at hid
  exact (of_decide_eq_true hp).2.1.symm.trans hid

/-- The route that the two copies make, in either order. -/
theorem two_copies_make_route :
    (∃ rt, (processAll {} (.described sampleLog {}) twoCopies outdatedNode).lookup 7 = some rt ∧
      rt.state = .valid ∧ rt.destSeqno = 6) ∧
    ((processAll {} (.described sampleLog {}) twoCopies.reverse outdatedNode).rt 7).cost =
      ((processAll {} (.described sampleLog {}) twoCopies outdatedNode).rt 7).cost := by
  have hflood : ∀ x ∈ twoCopies, x.OfFlood 7 6 outdatedNode := by
    intro x hx
    rcases List.mem_cons.mp hx with rfl | hx
    · exact copyFrom7_ofFlood outdatedNode_blacklist _ _ _ _ _
    · rw [List.mem_singleton.mp hx]
      exact copyFrom7_ofFlood outdatedNode_blacklist _ _ _ _ _
  obtain ⟨⟨-, d, -, rt, -, -, -, hrt, hfollows⟩, -, -, hperm⟩ :=
    @reverse_route_cheapest {} (.described sampleLog {}) 1 7 6 outdatedNode
      (described_unobtrusive sampleLog {}) (described_within trivial (fun _ _ h => h) sampleLog {})
      rfl outdatedNode_reachable (by decide +kernel) (by decide) outdatedNode_stale twoCopies
      (List.cons_ne_nil _ _) hflood twoCopies_open
  exact ⟨⟨rt, hrt, hfollows.state, hfollows.destSeqno⟩,
    hperm (.inr (by decide)) _ (List.reverse_perm twoCopies)⟩

/-! ## What a record and a Hello do to a flood -/

/-- `sampleLog` with the value that the cost of a link has with a full window and no Hello
acknowledged. -/
def hushedLog (x : ℚ) : ℚ :=
  if x = 29263509 / 100000000 then -12288288727744885 / 10000000000000000 else sampleLog x

def hushedConf : Conf := { optimizedHellos := true }

def hushedExt : Extern := .described hushedLog hushedConf

def startedNode : Node :=
  (step ⟨hushedConf, hushedExt, { now := 1000000 }⟩ .start
    ([], Node.init ⟨hushedConf, hushedExt, { now := 0 }⟩ 1)).2

/-- Without traffic the Hellos stop at the eleventh timer expiry. -/
def stoppedNode : Node :=
  (List.range 11).foldl (fun n (i : ℕ) =>
    (step ⟨hushedConf, hushedExt, { now := 1300000 + 300000 * i }⟩ .helloTimer ([], n)).2) startedNode

/-- Then 2 is heard. -/
def hushedNode : Node :=
  (step ⟨hushedConf, hushedExt, { now := 4400000 }⟩ (.recv (helloFrom 2 3 0)) ([], stoppedNode)).2

theorem hushedNode_reachable : Reachable hushedConf hushedExt 1 hushedNode := by
  have hstarted : Reachable hushedConf hushedExt 1 startedNode :=
    .step { now := 1000000 } [] .start trivial (.init { now := 0 })
  have hstopped : Reachable hushedConf hushedExt 1 stoppedNode :=
    List.foldlRecOn (motive := Reachable hushedConf hushedExt 1) _ _ hstarted
      fun _ hn _ _ => .step _ [] .helloTimer trivial hn
  exact .step { now := 4400000 } [] (.recv (helloFrom 2 3 0)) trivial hstopped

/-- A record with a smaller cost hides the new number. And where the answer to one copy starts the
Hellos, the other costs more when it comes second. -/
theorem flood_depends_on_past_and_order :
    (Reachable {} (.described sampleLog {}) 1 outdatedNode ∧ 7 ≠ outdatedNode.ipaddr ∧
      (∀ rt, outdatedNode.lookup 7 = some rt → rt.Stale 6) ∧
      (copyFrom7 20 4 8 2 30).OfFlood 7 6 outdatedNode ∧
      ((processAll {} (.described sampleLog {}) [copyFrom7 20 4 8 2 30] outdatedNode).lookup 7).map
        (·.destSeqno) = some 5) ∧
    Reachable hushedConf hushedExt 1 hushedNode ∧ 7 ≠ hushedNode.ipaddr ∧
      hushedNode.lookup 7 = none ∧
      (∀ x ∈ [copyFrom7 4500000 5 1 2 30, copyFrom7 4500000 6 1 9 20], x.OfFlood 7 6 hushedNode) ∧
      ((processAll hushedConf hushedExt
        [copyFrom7 4500000 6 1 9 20, copyFrom7 4500000 5 1 2 30] hushedNode).rt 7).cost ≠
      ((processAll hushedConf hushedExt
        [copyFrom7 4500000 5 1 2 30, copyFrom7 4500000 6 1 9 20] hushedNode).rt 7).cost := by
  have hblack : hushedNode.rreqBlacklist = [] := by
    have hmap : hushedNode.rreqBlacklist.map (·.destAddr) = [] := by decide +kernel
    exact List.map_eq_nil_iff.mp hmap
  have hnew : hushedNode.lookup 7 = none := by
    have hnone : (hushedNode.lookup 7).isNone := by decide +kernel
    exact Option.isNone_iff_eq_none.mp hnone
  refine ⟨⟨outdatedNode_reachable, by decide +kernel, outdatedNode_stale,
    copyFrom7_ofFlood outdatedNode_blacklist _ _ _ _ _, by decide +kernel⟩,
    hushedNode_reachable, by decide +kernel, hnew, fun x hx => ?_, by decide +kernel⟩
  rcases List.mem_cons.mp hx with rfl | hx
  · exact copyFrom7_ofFlood hblack _ _ _ _ _
  · rw [List.mem_singleton.mp hx]
    exact copyFrom7_ofFlood hblack _ _ _ _ _

end AodvUU

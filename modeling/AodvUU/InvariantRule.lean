import AodvUU.ActiveCount
import AodvUU.Channel
import AodvUU.Routes

/-! # The invariant rule, handler by handler

`Calm` and `Ctx.Keeps` list what an invariant of table and seek list survives. The calls
that only some invariants survive are hypotheses of the handlers that make them, in the state
and with the arguments the source passes. -/
namespace AodvUU

/-- The same route in the same state, its `rt_timer` still pending if it was. -/
structure RtTable.Quiet (rt rt' : RtTable) : Prop where
  destAddr : rt'.destAddr = rt.destAddr
  hash : rt'.hash = rt.hash
  nextHop : rt'.nextHop = rt.nextHop
  hcnt : rt'.hcnt = rt.hcnt
  state : rt'.state = rt.state
  channel : rt'.channel = rt.channel
  cost : rt'.cost = rt.cost
  handler : rt'.rtTimer.handler = rt.rtTimer.handler
  used : rt.rtTimer.used → rt'.rtTimer.used
  precursors : rt.PrecWf → rt'.PrecWf

theorem lookup_of_routes {n n' : Node} (h : n'.routes = n.routes) {a : InAddr} :
    n'.lookup a = n.lookup a := by
  have htbl : n'.tbl = n.tbl := congrArg Routes.tbl h
  unfold Node.lookup
  rw [htbl]

theorem RtTable.Quiet.of_timer {rt rt' : RtTable} (hk : rt.Keeps rt')
    (ht : rt'.rtTimer = rt.rtTimer) : rt.Quiet rt' :=
  ⟨hk.destAddr, hk.hash, hk.nextHop, hk.hcnt, hk.state, hk.channel, hk.cost, by rw [ht],
    fun h => by rw [ht]; exact h, hk.precursors⟩

theorem RtTable.updateTimeout_quiet (now : Time) (life : BitVec 32) (rt : RtTable) :
    rt.Quiet (rt.updateTimeout now life) := by
  have hk := RtTable.updateTimeout_keeps now life rt
  have htimer : (rt.updateTimeout now life).rtTimer = rt.rtTimer ∨
      (rt.updateTimeout now life).rtTimer = rt.rtTimer.setTimeout now life.toNat := by
    unfold RtTable.updateTimeout
    split_ifs
    · exact .inr rfl
    · exact .inl rfl
    · exact .inr rfl
  refine ⟨hk.destAddr, hk.hash, hk.nextHop, hk.hcnt, hk.state, hk.channel, hk.cost, ?_, ?_,
    hk.precursors⟩
  · rcases htimer with h | h <;> rw [h]
    rfl
  · intro hu
    rcases htimer with h | h <;> rw [h]
    · exact hu
    · rfl

theorem RtTable.Quiet.refl (rt : RtTable) : rt.Quiet rt :=
  ⟨rfl, rfl, rfl, rfl, rfl, rfl, rfl, rfl, id, id⟩

theorem RtTable.Quiet.trans (x y z : RtTable) (hxy : x.Quiet y) (hyz : y.Quiet z) : x.Quiet z :=
  ⟨hyz.destAddr.trans hxy.destAddr, hyz.hash.trans hxy.hash, hyz.nextHop.trans hxy.nextHop,
    hyz.hcnt.trans hxy.hcnt, hyz.state.trans hxy.state, hyz.channel.trans hxy.channel,
    hyz.cost.trans hxy.cost, hyz.handler.trans hxy.handler, fun h => hyz.used (hxy.used h),
    fun h => hyz.precursors (hxy.precursors h)⟩

/-- An invariant that reads table, seek list and address, and survives what changes neither a
route nor its state. -/
structure Calm (I : Node → Prop) : Prop where
  wf : ∀ n, I n → RtWf n
  routes : ∀ n n', n'.routes = n.routes → I n → I n'
  quiet : ∀ a f n, (∀ rt : RtTable, rt.Quiet (f rt)) → I n → I (n.modRt a f)
  seek : ∀ l n, (l.map SeekList.destAddr).Sublist (n.seekhead.map SeekList.destAddr) → I n →
    I { n with seekhead := l }

structure Ctx.Keeps (c : Ctx) (I : Node → Prop) : Prop extends Calm I where
  linkBreak : ∀ a n, I n → I (c.ext.neighborLinkBreak c.env a n)

/-- A valid route that a message or the neighbour functions store. -/
structure Route where
  dest : InAddr
  next : InAddr
  hops : BitVec 8
  seqno : BitVec 32
  life : BitVec 32
  chan : Option (Int × ℚ) := none

def Route.entry (c : Ctx) (r : Route) (flags : BitVec 16) : RtTable :=
  newEntry c r.dest r.next r.hops r.seqno r.life .valid flags ((r.chan.map Prod.fst).getD (-1))
    ((r.chan.map Prod.snd).getD 100000)

def Route.update (c : Ctx) (r : Route) (flags : BitVec 16) (n : Node) : Node :=
  rtTableUpdateGen c r.chan r.dest r.next r.hops r.seqno r.life .valid flags n

/-- The two ways to store a route keep an invariant. With a channel the agent's own address is
refused. -/
structure Ctx.Takes (c : Ctx) (I : Node → Prop) (r : Route) (n : Node) : Prop where
  insert : ∀ flags, n.lookup r.dest = none → (r.chan ≠ none → r.dest ≠ n.ipaddr) →
    I (storeEntry (r.entry c flags) n)
  update : ∀ flags, n.lookup r.dest ≠ none → I (r.update c flags n)

def Route.write (c : Ctx) (r : Route) (flags : BitVec 16) (rt : RtTable) : RtTable :=
  rt.write c.now r.next r.hops r.seqno r.life .valid flags r.chan

/-- A search is added when there is none for its destination. -/
def Searches (I : Node → Prop) : Prop :=
  ∀ s n, seekListFind n s.destAddr = none → I n → I (seekListInsert s n)

def RREQ.route (rreq : RREQ) (ipSrc : InAddr) (chan : Option (Int × ℚ)) : Route :=
  ⟨rreq.origAddr, ipSrc, rreq.hcnt + 1, rreq.origSeqno, reverseLife rreq, chan⟩

def RREP.route (rrep : RREP) (dest ipSrc : InAddr) (chan : Option (Int × ℚ)) : Route :=
  ⟨dest, ipSrc, rrep.hcnt + 1, rrep.destSeqno, rrep.lifetime, chan⟩

/-- The route the repairing node stores for an entry marked for repair. -/
def RREP.repairRoute (rrep : RREP) (ipSrc : InAddr) (rt : RtTable) : Route :=
  if rt.destAddr = rrep.destAddr then rrep.route rt.destAddr ipSrc none
  else ⟨rt.destAddr, ipSrc, rrep.hcnt + rt.hcnt, rt.destSeqno, rrep.lifetime, none⟩

theorem RREP.repairRoute_dest (rrep : RREP) (ipSrc : InAddr) (rt : RtTable) :
    (rrep.repairRoute ipSrc rt).dest = rt.destAddr := by
  unfold RREP.repairRoute
  split <;> rfl

def receivedCost (c : Ctx) (n : Node) (ipSrc : InAddr) (channel : BitVec 8) (exts : List Ext) : ℚ :=
  lastCost (c.ext.log maxNum) (exts.map (Ext.addCost (getCost c n ipSrc channel)))

def helloLife (interval : BitVec 32) : BitVec 32 :=
  msecs allowedHelloLoss * interval + msecs routeTimeoutSlack

def RREP.helloRoute (hello : RREP) (interval : BitVec 32) : Route :=
  ⟨hello.destAddr, hello.destAddr, 1, hello.destSeqno, helloLife interval, none⟩

/-- A data packet meets an entry under repair, which starts a local repair. -/
def Packet.MeetsRepair (p : Packet) (n : Node) : Prop :=
  p.daddr ≠ aodvBroadcast ∧ p.daddr ≠ n.ipaddr ∧ ∃ rt, rtTableFind n p.daddr = some rt ∧ rt.unusable ∧
    hasFlag rt.flags rtRepair

def Packet.BreaksLink (p : Packet) (cf : Conf) (n : Node) : Prop :=
  ¬ (p.ptype = .aodvuu ∨ p.ptype = .other ∨ p.daddr = aodvBroadcast) ∧
  seekListFind n p.daddr = none ∧ cf.localRepair ∧
  ∃ rtNextHop rt, rtTableFind n p.nextHop = some rtNextHop ∧ rtTableFind n p.daddr = some rt ∧
    rtNextHop.state = .valid ∧ rt.state = .valid ∧ rt.nextHop = p.nextHop ∧
    rt.hcnt.toNat ≤ maxRepairTtl

theorem lookup_ne_none_of_flag {n : Node} {a : InAddr} {bit : BitVec 16}
    (h : hasFlag (n.rt a).flags bit) : n.lookup a ≠ none := by
  intro hnone
  rw [Node.rt, hnone] at h
  simp [hasFlag, show (default : RtTable).flags = 0 from rfl] at h

theorem lrRepairEntry_others {c : Ctx} (hl : c.LinkBreaks {}) (rrep : RREP) (ipSrc a : InAddr)
    (s : LrRerr) (b : InAddr) (hb : b ≠ a) :
    Option.Rel RtTable.Ages (s.node.lookup b) ((lrRepairEntry c rrep ipSrc s a).node.lookup b) := by
  have hadd : ∀ s : LrRerr, (lrRerrAdd a s).node.lookup b = s.node.lookup b := by
    intro s
    unfold lrRerrAdd
    dsimp only
    split_ifs <;> rfl
  have hupdate : ∀ hops seqno, s.node.lookup a ≠ none → Option.Rel RtTable.Ages (s.node.lookup b)
      ((rtTableUpdate c a ipSrc hops seqno rrep.lifetime .valid 0 s.node).lookup b) := by
    intro hops seqno hsome
    obtain ⟨rt, hrt⟩ := Option.ne_none_iff_exists'.mp hsome
    obtain ⟨_, -, hinst⟩ := rtTableUpdateGen_installs hl hrt none ipSrc hops seqno rrep.lifetime
      .valid 0
    exact hinst.others b hb
  unfold lrRepairEntry
  cases hr : lrRepaired c rrep ipSrc a s.node with
  | none => exact Node.Ages.of_tbl rfl b
  | some n' =>
    dsimp only
    rw [hadd]
    unfold lrRepaired at hr
    dsimp only at hr
    split_ifs at hr with hflag
    all_goals
      cases hr
      exact hupdate _ _ (lookup_ne_none_of_flag hflag)

namespace Calm

variable {c : Ctx} {I : Node → Prop} {n : Node} (h : Calm I)
include h

theorem quietly (n₀ : Node) : Calm fun n => I n ∧ n₀.Entrywise RtTable.Quiet n where
  wf n hn := h.wf n hn.1
  routes n n' hr hn := ⟨h.routes n n' hr hn.1, .trans .trans hn.2
    (.of_lookup .refl fun _ => lookup_of_routes hr)⟩
  quiet a f n hf hn := ⟨h.quiet a f n hf hn.1, .trans .trans hn.2
    (.modRt .refl a (fun rt => (hf rt).destAddr) hf n)⟩
  seek l n hs hn := ⟨h.seek l n hs hn.1, hn.2⟩

/-! ## Routing table and packet queue -/

theorem lookup_eq (hn : I n) (a : InAddr) : rtTableFind n a = n.lookup a :=
  (h.wf n hn).rtTableFind_eq_lookup a

theorem timeout (a : InAddr) (life : BitVec 32) (hn : I n) :
    I (rtTableUpdateTimeout c a life n) :=
  h.quiet a _ n (RtTable.updateTimeout_quiet c.now life) hn

theorem precursorAdd (a addr : InAddr) (hn : I n) : I (precursorAdd a addr n) :=
  h.quiet a _ n (fun rt => .of_timer (RtTable.precursorAdd_keeps addr rt) (by
    unfold RtTable.precursorAdd
    split <;> rfl)) hn

theorem precursorListDestroy (a : InAddr) (hn : I n) : I (precursorListDestroy a n) :=
  h.quiet a _ n (fun rt => .of_timer (RtTable.precursorListDestroy_keeps rt) rfl) hn

theorem addPrecursors (fwd rev : InAddr) (hn : I n) : I (addPrecursors fwd rev n) :=
  h.precursorAdd rev _ (h.precursorAdd fwd _ hn)

theorem updateRouteTimeout (rt : RtTable) (inet : Bool) (hn : I n) :
    I (updateRouteTimeout c rt inet n) := by
  unfold AodvUU.updateRouteTimeout
  split
  · have hfirst : I (if c.conf.llfeedback ∨ inet ∨ rt.hcnt ≠ 1 ∨ rt.helloTimer.used then
        rtTableUpdateTimeout c rt.destAddr (msecs c.conf.activeRouteTimeout) n else n) := by
      split
      · exact h.timeout _ _ hn
      · exact hn
    dsimp only
    split
    · exact hfirst
    · split
      · exact h.timeout _ _ hfirst
      · exact hfirst
  · exact hn

theorem rtTableUpdateRouteTimeouts (fwd rev : Option InAddr) (hn : I n) :
    I (rtTableUpdateRouteTimeouts c fwd rev n) :=
  rtTableUpdateRouteTimeouts_keeps (fun rt inet _ hm => h.updateRouteTimeout rt inet hm) fwd rev hn

theorem refreshQueued (rt : RtTable) (a : InAddr) (hn : I n) : I (refreshQueued c rt a n) := by
  unfold AodvUU.refreshQueued
  have hfirst : ∀ b, I (rtTableUpdateTimeout c b (msecs c.conf.activeRouteTimeout) n) :=
    fun b => h.timeout b _ hn
  split
  · dsimp only
    split
    · exact hfirst _
    · split
      · exact h.timeout _ _ (hfirst _)
      · exact hfirst _
  · exact hn

theorem packetQueueSetVerdict (a : InAddr) (v : Verdict) (hn : I n) :
    I (packetQueueSetVerdict c a v n) := by
  have htake : I (takeQueued a n) := h.routes n _ rfl hn
  unfold AodvUU.packetQueueSetVerdict
  cases v with
  | encSend =>
    dsimp only
    split
    · exact hn
    · split
      · exact htake
      · split
        · exact h.refreshQueued _ a (h.timeout _ _ htake)
        · exact htake
  | send =>
    dsimp only
    split
    · exact h.routes n _ rfl hn
    · exact h.refreshQueued _ a (h.routes n _ (by simp) hn)
  | drop =>
    exact h.routes n _ ((foldl_routes _ (fun n qp => handOut_routes _ n) _).trans rfl) hn

theorem seekListRemove (a : InAddr) (hn : I n) : I (seekListRemove a n) :=
  h.seek _ n ((List.eraseP_sublist).map _) hn

theorem flushSeek (a : InAddr) (hn : I n) : I (flushSeek c a n) := by
  unfold AodvUU.flushSeek
  split
  · split
    · exact hn
    · exact h.packetQueueSetVerdict a _ (h.seekListRemove a hn)
  · exact hn

theorem rtTableInsert (a next : InAddr) (hops : BitVec 8) (seqno life : BitVec 32)
    (state : RtState) (flags : BitVec 16)
    (hins : n.lookup a = none →
      I (storeEntry (newEntry c a next hops seqno life state flags (-1) 100000) n)) (hn : I n) :
    I (rtTableInsert c a next hops seqno life state flags n) := by
  rw [rtTableInsert_eq]
  split
  · next hnone => exact h.flushSeek a (hins hnone)
  · exact hn

theorem rtTableInsertWithChannel {a next : InAddr} {hops : BitVec 8} {seqno life : BitVec 32}
    (flags : BitVec 16) {ch : Int} {cost : ℚ} (hnone : n.lookup a = none)
    (ht : c.Takes I ⟨a, next, hops, seqno, life, some (ch, cost)⟩ n) (hn : I n) :
    I (rtTableInsertWithChannel c a next hops seqno life .valid flags ch cost n) := by
  unfold AodvUU.rtTableInsertWithChannel
  split
  · exact hn
  · split
    · exact hn
    · next hown => exact h.flushSeek a (ht.insert flags hnone fun _ => hown)

theorem countActive (a : InAddr) (hn : I n) :
    I (if (n.rt a).state = .invalid ∧ RtState.valid = .valid then
      { n with numActive := n.numActive + 1 } else n) := by
  split
  · exact h.routes n _ rfl hn
  · exact hn

theorem update {r : Route} (flags : BitVec 16) (hops : r.hops.toNat ≤ 1)
    (hwrite : ∀ flags n, I n → I (n.modRt r.dest (r.write c flags))) (hn : I n) :
    I (r.update c flags n) := by
  have hbefore : beforeUpdate c r.dest r.hops .valid n =
      if (n.rt r.dest).state = .invalid ∧ RtState.valid = .valid then
        { n with numActive := n.numActive + 1 } else n := by
    unfold beforeUpdate
    dsimp only
    rw [if_neg fun hlong => absurd hlong.1 (by omega)]
  refine h.flushSeek r.dest (hwrite _ _ ?_)
  rw [hbefore]
  exact h.countActive r.dest hn

/-! ## Discovery -/

theorem keepWaiting (a : InAddr) (hn : I n) : I (keepWaiting c a n) := by
  unfold AodvUU.keepWaiting
  split
  · exact h.timeout _ _ hn
  · exact hn

theorem flood (a : InAddr) (v : BitVec 32) (ttl : Int) (flags : BitVec 8) (hn : I n) :
    I (onEachChannel (rreqSendWithChannel c a v ttl flags) n) :=
  h.routes n _ (onEachChannel_routes (fun i n => by simp) n) hn

theorem rreqRouteDiscovery (hs : Searches I) (a : InAddr) (flags : BitVec 8) (hn : I n) :
    I (rreqRouteDiscovery c a flags n) := by
  unfold AodvUU.rreqRouteDiscovery
  cases hfind : seekListFind n a with
  | some s => exact hn
  | none =>
    -- the flood leaves the seek list as it was when it was searched
    have hsearch : ∀ (n₁ : Node) (v : BitVec 32) (s : SeekList), s.destAddr = a → I n₁ →
        n₁.seekhead = n.seekhead → I (seekListInsert s
          (onEachChannel (rreqSendWithChannel c a v 32 flags) n₁).seqnoIncr) := by
      intro n₁ v s hd hn₁ hseek
      have hflood : (onEachChannel (rreqSendWithChannel c a v 32 flags) n₁).seqnoIncr.routes =
          n₁.routes :=
        (seqnoIncr_routes _).trans (onEachChannel_routes (fun i n => by simp) n₁)
      refine hs s _ ?_ (h.routes n₁ _ hflood hn₁)
      have hlist : (onEachChannel (rreqSendWithChannel c a v 32 flags) n₁).seqnoIncr.seekhead =
          n.seekhead := (congrArg Routes.seekhead hflood).trans hseek
      unfold seekListFind at hfind ⊢
      rw [hd, hlist]
      exact hfind
    cases hrt : rtTableFind n a with
    | none => exact hsearch n _ _ rfl hn rfl
    | some rt =>
      refine hsearch (AodvUU.keepWaiting c rt.destAddr n) _ _ rfl (h.keepWaiting _ hn) ?_
      unfold AodvUU.keepWaiting
      split <;> rfl

/-! ## Replies -/

theorem rrepForward (rrep : RREP) (size : ℕ) (rev fwd : InAddr) (ttl : Int) (hn : I n) :
    I (rrepForward c rrep size rev fwd ttl n) := by
  unfold AodvUU.rrepForward
  refine h.timeout _ _ (h.addPrecursors fwd rev (h.routes n _ ?_ hn))
  rw [aodvSocketSend_routes]
  dsimp only
  split <;> rfl

theorem helloKeepAlive (hn : I n) : I (helloKeepAlive c n) :=
  h.routes n _ (helloKeepAlive_routes n) hn

/-! ## Replies to a local repair -/

theorem rrepLrRoute (rrep : RREP) (ipSrc a : InAddr)
    (ht : ∀ n, I n → c.Takes I (rrep.route a ipSrc none) n)
    (hn : I n) : I (rrepLrRoute c rrep ipSrc a n) := by
  unfold AodvUU.rrepLrRoute
  split
  · have hnew := h.rtTableInsert a ipSrc (rrep.hcnt + 1) rrep.destSeqno rrep.lifetime .valid 0
      (fun hnone => (ht n hn).insert 0 hnone fun hch => absurd rfl hch) hn
    exact (ht _ hnew).update 0 (lookup_rtTableInsert _ _ _ _ _ _ _ n)
  · next fwdRt hfind => exact (ht n hn).update _ (lookup_of_rtTableFind hfind)

theorem rrepLrUdests (rrep : RREP) (ipSrc : InAddr)
    (ht : ∀ n, I n → ∀ ud, Ext.rrepUdest ud ∈ rrep.exts →
      c.Takes I (rrep.route ud.destAddr ipSrc none) n)
    (hn : I n) : I (rrepLrUdests c rrep ipSrc n) := by
  unfold AodvUU.rrepLrUdests
  refine List.foldlRecOn (motive := fun n : Node => I n) _ _ hn fun n hn e he => ?_
  cases e with
  | rrepUdest ud => exact h.rrepLrRoute rrep ipSrc ud.destAddr (fun n hn => ht n hn ud he) hn
  | cost | rreqUdest | helloInterval | helloNeighborSet | other => exact hn

theorem rrepLrRelay (rrep : RREP) (len : ℕ) (rev : Option InAddr) (ttl : Int) (hn : I n) :
    I (rrepLrRelay c rrep len rev ttl n) := by
  unfold AodvUU.rrepLrRelay
  cases rev with
  | none => exact hn
  | some rev =>
    dsimp only
    split
    · exact h.rrepForward _ _ _ _ _ hn
    · exact hn

theorem rrepAcknowledge (rrep : RREP) (hn : I n) : I (rrepAcknowledge c rrep n) :=
  h.routes n _ (rrepAcknowledge_routes rrep n) hn

theorem rrepLrForwarder (rrep : RREP) (len : ℕ) (ipSrc : InAddr) (ttl : Int)
    (ht : ∀ n, I n → ∀ a, a = rrep.destAddr ∨ (∃ ud, Ext.rrepUdest ud ∈ rrep.exts ∧
      a = ud.destAddr) →
      c.Takes I (rrep.route a ipSrc none) n)
    (hn : I n) : I (rrepLrForwarder c rrep len ipSrc ttl n) := by
  unfold AodvUU.rrepLrForwarder
  dsimp only
  refine h.rrepLrRelay _ _ _ _ (h.rrepAcknowledge rrep (h.rrepLrRoute _ _ _ ?_ ?_))
  · exact fun n hn => ht n hn _ (.inl rfl)
  · exact h.rrepLrUdests rrep ipSrc (fun n hn ud he => ht n hn _ (.inr ⟨ud, he, rfl⟩)) hn

theorem lrRerrAdd (a : InAddr) (s : LrRerr) (hn : I s.node) : I (lrRerrAdd a s).node := by
  unfold AodvUU.lrRerrAdd
  dsimp only
  split_ifs
  · exact hn
  all_goals exact h.routes s.node _ rfl hn

theorem lrRepairEntry (rrep : RREP) (ipSrc a : InAddr) (s : LrRerr)
    (ht : ∀ rt, s.node.lookup a = some rt → hasFlag rt.flags rtRepair →
      rt.destAddr = rrep.destAddr ∨ rt.nextHop = rrep.destAddr →
      c.Takes I (rrep.repairRoute ipSrc rt) s.node)
    (hn : I s.node) : I (lrRepairEntry c rrep ipSrc s a).node := by
  have hrepaired : ∀ n', lrRepaired c rrep ipSrc a s.node = some n' → I n' := by
    intro n' hn'
    unfold lrRepaired at hn'
    dsimp only at hn'
    split_ifs at hn' with hflag hdest hnext
    all_goals
      have hsome := lookup_ne_none_of_flag hflag
      obtain ⟨rt, hrt⟩ := Option.ne_none_iff_exists'.mp hsome
      have hda := destAddr_of_lookup hrt
      rw [rt_of_lookup hrt] at hflag hdest
    · have htake := ht rt hrt hflag (.inl hdest)
      rw [RREP.repairRoute, if_pos hdest, hda] at htake
      cases hn'
      exact htake.update 0 hsome
    · rw [rt_of_lookup hrt] at hnext hn'
      have htake := ht rt hrt hflag (.inr hnext)
      rw [RREP.repairRoute, if_neg hdest, hda] at htake
      cases hn'
      exact htake.update 0 hsome
  unfold AodvUU.lrRepairEntry
  cases hr : lrRepaired c rrep ipSrc a s.node with
  | none => exact hn
  | some n' => exact h.lrRerrAdd a _ (hrepaired n' hr)

theorem lrWalk (hl : c.LinkBreaks {}) {n₀ : Node} (rrep : RREP) (ipSrc : InAddr)
    (ht : ∀ n, I n → ∀ a rt₀ rt, n₀.lookup a = some rt₀ → rt₀.Ages rt → n.lookup a = some rt →
      hasFlag rt.flags rtRepair → rt.destAddr = rrep.destAddr ∨ rt.nextHop = rrep.destAddr →
      c.Takes I (rrep.repairRoute ipSrc rt) n)
    {as : List InAddr} (hnodup : as.Nodup) {s : LrRerr}
    (hahead : ∀ a ∈ as, Option.Rel RtTable.Ages (n₀.lookup a) (s.node.lookup a)) (hn : I s.node) :
    I (as.foldl (AodvUU.lrRepairEntry c rrep ipSrc) s).node := by
  induction as generalizing s with
  | nil => exact hn
  | cons a as ih =>
    obtain ⟨hnew, hrest⟩ := List.nodup_cons.mp hnodup
    refine ih hrest (fun b hb => ?_) (h.lrRepairEntry rrep ipSrc a s (fun rt hrt => ?_) hn)
    · have hba : b ≠ a := fun hba => hnew (hba ▸ hb)
      exact optionRel_trans (R := RtTable.Ages) (fun _ _ _ => RtTable.Ages.trans)
        (hahead b (List.mem_cons_of_mem a hb)) (lrRepairEntry_others hl rrep ipSrc a s b hba)
    · have hrel := hahead a List.mem_cons_self
      rw [hrt] at hrel
      obtain ⟨rt₀, hrt₀, hage⟩ := optionRel_some hrel
      exact ht s.node hn a rt₀ rt hrt₀ hage hrt

theorem rrepLrOrigin (hl : c.LinkBreaks {}) (rrep : RREP) (ipSrc : InAddr)
    (ht : ∀ n', I n' → ∀ a rt₀ rt, n.lookup a = some rt₀ → rt₀.Ages rt → n'.lookup a = some rt →
      hasFlag rt.flags rtRepair → rt.destAddr = rrep.destAddr ∨ rt.nextHop = rrep.destAddr →
      c.Takes I (rrep.repairRoute ipSrc rt) n')
    (hn : I n) : I (rrepLrOrigin c rrep ipSrc n) := by
  unfold AodvUU.rrepLrOrigin lrRerrSend
  have hwalk : I ((n.entries.map (·.destAddr)).foldl (AodvUU.lrRepairEntry c rrep ipSrc)
      { unicastDest := c.env.uninitAddr, node := n }).node :=
    h.lrWalk hl rrep ipSrc ht (h.wf n hn).table.nodup_entries (fun a _ => Node.Ages.of_tbl rfl a) hn
  split
  · exact h.routes _ _ (sendRerr_routes _ _) hwalk
  · exact hwalk

theorem rrepProcessLr (hl : c.LinkBreaks {}) (rrep : RREP) (len : ℕ) (ipSrc : InAddr) (ttl : Int)
    (hrep : rrep.destAddr ≠ n.ipaddr → rrep.origAddr = n.ipaddr → ∀ n', I n' → ∀ a rt₀ rt,
      n.lookup a = some rt₀ → rt₀.Ages rt → n'.lookup a = some rt → hasFlag rt.flags rtRepair →
      rt.destAddr = rrep.destAddr ∨ rt.nextHop = rrep.destAddr →
      c.Takes I (rrep.repairRoute ipSrc rt) n')
    (hfwd : rrep.destAddr ≠ n.ipaddr → rrep.origAddr ≠ n.ipaddr → ∀ n, I n → ∀ a,
      a = rrep.destAddr ∨ (∃ ud, Ext.rrepUdest ud ∈ rrep.exts ∧ a = ud.destAddr) →
      c.Takes I (rrep.route a ipSrc none) n)
    (hn : I n) : I (rrepProcessLr c rrep len ipSrc ttl n) := by
  unfold AodvUU.rrepProcessLr
  split_ifs with hlen hdest horig
  · exact hn
  · exact hn
  · exact h.helloKeepAlive (h.rrepLrOrigin hl rrep ipSrc (hrep hdest horig) hn)
  · exact h.helloKeepAlive (h.rrepLrForwarder rrep len ipSrc ttl (hfwd hdest horig) hn)

/-! ## Plain replies -/

theorem rrepRelay (rrep : RREP) (rev : Option InAddr) (ttl : Int) (hn : I n) :
    I (rrepRelay c rrep rev ttl n) := by
  unfold AodvUU.rrepRelay
  cases rev with
  | none => exact hn
  | some rev =>
    dsimp only
    split
    · exact h.rrepForward _ _ _ _ _ (h.routes n _ rfl hn)
    · exact hn

theorem rrepRoute {rrep : RREP} {ipSrc : InAddr} {cost : ℚ} {n' : Node}
    (ht : c.Takes I (rrep.route rrep.destAddr ipSrc (some (rrep.channel.toNat, cost))) n)
    (hn : I n) (hr : rrepRoute c rrep ipSrc cost n = some n') : I n' := by
  unfold AodvUU.rrepRoute at hr
  cases hfind : rtTableFind n rrep.destAddr with
  | none =>
    rw [hfind] at hr
    cases hr
    exact h.rtTableInsertWithChannel 0 (h.lookup_eq hn _ ▸ hfind) ht hn
  | some fwdRt =>
    rw [hfind] at hr
    dsimp only at hr
    split_ifs at hr
    cases hr
    exact ht.update _ (lookup_of_rtTableFind hfind)

theorem rrepHandle (rrep : RREP) (ipSrc : InAddr) (ttl : Int)
    (ht : c.Takes I (rrep.route rrep.destAddr ipSrc
      (some (rrep.channel.toNat, lastCost (c.ext.log maxNum) rrep.exts))) n)
    (hn : I n) : I (rrepHandle c rrep ipSrc ttl n) := by
  unfold AodvUU.rrepHandle
  dsimp only
  split
  · exact hn
  · next n' hr =>
    have hack := h.rrepAcknowledge (c := c) rrep (h.rrepRoute ht hn hr)
    refine h.helloKeepAlive ?_
    split
    · exact h.routes _ _ (rrepArrived_routes _ _ _) hack
    · exact h.rrepRelay _ _ _ hack

theorem rrepProcess (rrep : RREP) (len : ℕ) (ipSrc : InAddr) (ttl : Int)
    (hlr : rrep.lr → I (AodvUU.rrepProcessLr c rrep len ipSrc ttl n))
    (ht : rrep.lr = false → rrep.destAddr ≠ n.ipaddr → c.Takes I (rrep.route rrep.destAddr ipSrc
      (some (rrep.channel.toNat, receivedCost c n ipSrc rrep.channel rrep.exts))) n)
    (hn : I n) : I (rrepProcess c rrep len ipSrc ttl n) := by
  unfold AodvUU.rrepProcess
  split_ifs with hl hlen hdest
  · exact hlr hl
  · exact hn
  · exact hn
  · exact h.rrepHandle _ _ _ (ht (by simpa using hl) hdest) hn

theorem rrepAckProcess (ack : RREPAck) (ipSrc : InAddr) (hn : I n) :
    I (rrepAckProcess ack ipSrc n) := by
  unfold AodvUU.rrepAckProcess
  split
  · exact h.routes n _ rfl hn
  · split
    · exact hn
    · exact h.quiet _ _ n (fun _ => ⟨rfl, rfl, rfl, rfl, rfl, rfl, rfl, rfl, id, id⟩) hn

/-! ## Requests -/

theorem rreqForward (fwd : Option RtTable) (rreq : RREQ) (size : ℕ) (ttl : Int) (hn : I n) :
    I (rreqForward c fwd rreq size ttl n) := h.routes n _ (rreqForward_routes _ _ _ _ n) hn

theorem rreqLrReverse (rreq : RREQ) (ipSrc : InAddr) (ht : c.Takes I (rreq.route ipSrc none) n)
    (hn : I n) : I (rreqLrReverse c rreq ipSrc n) := by
  unfold AodvUU.rreqLrReverse
  dsimp only
  split
  · exact h.rtTableInsert _ _ _ _ _ _ 0 (fun hnone => ht.insert 0 hnone fun hch => absurd rfl hch)
      hn
  · next revRt hfind =>
    split
    · exact ht.update _ (lookup_of_rtTableFind hfind)
    · exact hn

theorem rreqReverse {rreq : RREQ} {ipSrc : InAddr} {cost : ℚ} {n' : Node}
    (ht : c.Takes I (rreq.route ipSrc (some (rreq.channel.toNat, cost))) n)
    (hn : I n) (hr : rreqReverse c rreq ipSrc cost n = some n') : I n' := by
  unfold AodvUU.rreqReverse at hr
  cases hfind : rtTableFind n rreq.origAddr with
  | none =>
    rw [hfind] at hr
    cases hr
    exact h.rtTableInsertWithChannel 0 (h.lookup_eq hn _ ▸ hfind) ht hn
  | some revRt =>
    rw [hfind] at hr
    dsimp only at hr
    split_ifs at hr
    cases hr
    exact ht.update _ (lookup_of_rtTableFind hfind)

/-! ## Route errors -/

theorem rerrApply (hs : Searches I) (rerr : RERR) (ud : Udest)
    (hinv : rerr.n = false → ∀ n', n'.routes = n.routes → I (rtTableInvalidate c ud.destAddr n'))
    (hn : I n) : I (rerrApply c rerr ud n) := by
  have hdrop : I (ifqDropByDest ud.destAddr n) := h.routes n _ rfl hn
  have hinv' : I (if rerr.n then ifqDropByDest ud.destAddr n
      else rtTableInvalidate c ud.destAddr (ifqDropByDest ud.destAddr n)) := by
    split
    · exact hdrop
    · next hnd => exact hinv (by simpa using hnd) _ rfl
  unfold AodvUU.rerrApply
  refine h.quiet _ _ _ (fun _ => ⟨rfl, rfl, rfl, rfl, rfl, rfl, rfl, rfl, id, id⟩) ?_
  split
  · exact h.rreqRouteDiscovery hs _ _ hinv'
  · exact hinv'

theorem rerrAdd (rerr : RERR) (a : InAddr) (w : RerrWalk) (hn : I w.node) :
    I (rerrAdd rerr a w).node := by
  unfold AodvUU.rerrAdd
  dsimp only
  split
  · split
    · exact h.routes w.node _ rfl hn
    · exact h.routes w.node _ rfl hn
  · exact hn

theorem rerrStep (hs : Searches I) (rerr : RERR) (ipSrc : InAddr) (w : RerrWalk) (ud : Udest)
    (hinv : rerr.n = false → ∀ n, I n → ∀ rt, n.lookup ud.destAddr = some rt →
      rt.state = .valid → rt.nextHop = ipSrc → I (rtTableInvalidate c ud.destAddr n))
    (hn : I w.node) : I (rerrStep c rerr ipSrc w ud).node := by
  unfold AodvUU.rerrStep
  split
  · exact hn
  · next rt hfind =>
    split
    · next hover =>
      have hinv' : rerr.n = false → ∀ n', n'.routes = w.node.routes →
          I (rtTableInvalidate c ud.destAddr n') := by
        intro hnd n' hr
        refine hinv hnd n' (h.routes _ _ hr hn) rt ?_ hover.1 hover.2
        rw [lookup_of_routes hr, ← h.lookup_eq hn, hfind]
      have hadd : I (AodvUU.rerrAdd rerr ud.destAddr
          { w with node := AodvUU.rerrApply c rerr ud w.node }).node :=
        h.rerrAdd rerr _ _ (h.rerrApply hs rerr ud hinv' hn)
      dsimp only
      split
      · exact h.precursorListDestroy _ hadd
      · exact hadd
    · exact hn

theorem rerrProcess (hs : Searches I) (rerr : RERR) (len : ℕ) (ipSrc : InAddr)
    (recs : List RerrRecord)
    (hinv : ∀ ud ∈ rerr.walk, rerr.n = false → ∀ n, I n → ∀ rt, n.lookup ud.destAddr = some rt →
      rt.state = .valid → rt.nextHop = ipSrc → I (rtTableInvalidate c ud.destAddr n))
    (hn : I n) : I (rerrProcess c rerr len ipSrc recs n).2 := by
  unfold AodvUU.rerrProcess
  split
  · exact hn
  · dsimp only
    split
    · exact hn
    · unfold AodvUU.rerrWalk
      have hwalk : I (rerr.walk.foldl (AodvUU.rerrStep c rerr ipSrc) { node := n }).node :=
        List.foldlRecOn (motive := fun w : RerrWalk => I w.node) _ _ hn fun w hw ud hud =>
          h.rerrStep hs rerr ipSrc w ud (hinv ud hud) hw
      dsimp only
      split
      · exact h.routes _ _ (sendRerr_routes _ _) hwalk
      · exact hwalk

/-! ## Hellos -/

theorem helloUpdateTimeout (a : InAddr) (time : Int) (hn : I n) :
    I (helloUpdateTimeout c a time n) :=
  h.quiet _ _ n (fun _ => ⟨rfl, rfl, rfl, rfl, rfl, rfl, rfl, rfl, id, id⟩) hn

theorem helloRoute (hello : RREP) (interval : BitVec 32) (flags : BitVec 16)
    (ht : (n.lookup hello.destAddr = none → c.conf.receiveNHellos = 0) →
      c.Takes I (hello.helloRoute interval) n)
    (hinv : c.conf.receiveNHellos ≠ 0 → n.lookup hello.destAddr = none →
      I (storeEntry (newEntry c hello.destAddr hello.destAddr 1 hello.destSeqno
        (helloLife interval) .invalid flags (-1) 100000) n))
    (hn : I n) : I (helloRoute c hello interval flags n) := by
  have hcount : ∀ (f : RtTable → BitVec 8 × Time) (n : Node), I n →
      I (n.modRt hello.destAddr fun rt =>
        { rt with helloCnt := (f rt).1, lastHelloTime := (f rt).2 }) := fun f n hn =>
    h.quiet _ _ n (fun _ => ⟨rfl, rfl, rfl, rfl, rfl, rfl, rfl, rfl, id, id⟩) hn
  unfold AodvUU.helloRoute
  dsimp only
  split
  · refine h.helloUpdateTimeout _ _ (hcount (fun rt => (1, rt.lastHelloTime)) _ ?_)
    refine h.rtTableInsert _ _ _ _ _ _ flags (fun hnone => ?_) hn
    split
    · next hrec => exact hinv hrec hnone
    · next hrec =>
      exact (ht fun _ => not_not.mp hrec).insert flags hnone fun hch => absurd rfl hch
  · next rt hfind =>
    split_ifs
    · exact h.helloUpdateTimeout _ _ hn
    · exact hcount (fun rt => (if timevalDiff c.now rt.lastHelloTime <
        (interval + interval / 2).toNat then rt.helloCnt + 1 else 1, c.now)) n hn
    · have hfound := lookup_of_rtTableFind hfind
      exact h.helloUpdateTimeout _ _ ((ht fun hnone => absurd hnone hfound).update flags hfound)

theorem helloProcess (hello : RREP)
    (ht : ∀ n', n'.routes = n.routes → (n.lookup hello.destAddr = none →
      c.conf.receiveNHellos = 0) → ∀ flags, c.Takes I (hello.helloRoute
        (helloExts n.ipaddr hello.exts (msecs helloInterval, flags)).1) n')
    (hinv : c.conf.receiveNHellos ≠ 0 → ∀ n', n'.routes = n.routes →
      n.lookup hello.destAddr = none → ∀ interval flags,
      I (storeEntry (newEntry c hello.destAddr hello.destAddr 1 hello.destSeqno
        (helloLife interval) .invalid flags (-1) 100000) n'))
    (hn : I n) : I (helloProcess c hello n) := by
  unfold AodvUU.helloProcess
  dsimp only
  have hpre : (helloAcknowledge c hello (helloCount hello (helloRecord hello n))).routes =
      n.routes := by simp
  have hip : (helloAcknowledge c hello (helloCount hello (helloRecord hello n))).ipaddr =
      n.ipaddr := congrArg Routes.ipaddr hpre
  rw [hip]
  refine h.helloRoute hello _ _ (fun hone => ht _ hpre (fun hnone => hone ?_) _)
    (fun hrec hnone => ?_) (h.routes n _ hpre hn)
  · exact (lookup_of_routes hpre).trans hnone
  · exact hinv hrec _ hpre (lookup_of_routes hpre ▸ hnone) _ _

/-! ## Timers -/

theorem ifqBuffer (a : InAddr) (hn : I n) : I (ifqBuffer c a n) :=
  h.routes n _ (ifqBuffer_routes a n) hn

theorem routeDiscoveryTimeout (i : ℕ)
    (hgive : ∀ s, n.seekhead[i]? = some s → rreqRetries ≤ s.reqs → ∀ n', I n' → n'.tbl = n.tbl →
      hasFlag (n'.rt s.destAddr).flags rtRepair → I (localRepairTimeout c s.destAddr n'))
    (hn : I n) : I (routeDiscoveryTimeout c i n) := by
  unfold AodvUU.routeDiscoveryTimeout
  cases hs : n.seekhead[i]? with
  | none => exact hn
  | some s =>
    dsimp only
    split
    · unfold AodvUU.routeDiscoveryRetry
      have hdest : (s.retry c).destAddr = s.destAddr := by
        unfold SeekList.retry
        split
        · dsimp only
          split <;> rfl
        · rfl
      have hset : I { n with seekhead := n.seekhead.set i (s.retry c) } := by
        refine h.seek _ n ?_ hn
        rw [List.map_set, hdest]
        have hlt : i < n.seekhead.length := (List.getElem?_eq_some_iff.mp hs).1
        have hget : n.seekhead[i] = s := (List.getElem?_eq_some_iff.mp hs).2
        rw [show (n.seekhead.map SeekList.destAddr).set i s.destAddr =
          n.seekhead.map SeekList.destAddr by
            rw [← hget, ← List.getElem_map SeekList.destAddr (h := by simpa using hlt),
              List.set_getElem_self]]
      refine h.flood _ _ _ _ ?_
      split
      · exact hset
      · exact h.keepWaiting _ hset
    · next hreqs =>
      unfold AodvUU.noRouteFound
      have hdrop : (AodvUU.packetQueueSetVerdict c s.destAddr .drop n).routes = n.routes := by
        unfold AodvUU.packetQueueSetVerdict
        exact (foldl_routes _ (fun n qp => handOut_routes _ n) _).trans rfl
      have herase : I { AodvUU.packetQueueSetVerdict c s.destAddr .drop n with
          seekhead := (AodvUU.packetQueueSetVerdict c s.destAddr .drop n).seekhead.eraseIdx i } :=
        h.seek _ _ ((List.eraseIdx_sublist _ _).map _) (h.routes n _ hdrop hn)
      dsimp only
      split
      · exact herase
      · next repairRt hfind =>
        split
        · next hflag =>
          have hlook := h.lookup_eq herase s.destAddr
          rw [hfind] at hlook
          rw [destAddr_of_rtTableFind hfind]
          refine hgive s hs (not_lt.mp hreqs) _ herase (congrArg Routes.tbl hdrop) ?_
          rw [rt_of_lookup hlook.symm]
          exact hflag
        · exact herase

/-! ## Packets -/

theorem noRoute (p : Packet) (fwd rev : Option RtTable) (hn : I n) : I (noRoute c p fwd rev n) := by
  have hrerr : I (noRouteRerr c p fwd n) := by
    unfold noRouteRerr
    split
    · exact h.timeout _ _ (h.routes n _ rfl hn)
    · exact h.routes n _ rfl hn
  unfold AodvUU.noRoute
  exact h.routes _ _ (by simp) hrerr

/-- A discovery or a local repair comes last: what it may rely on is `I`, what it has to
establish is `J`. -/
theorem processPacket {J : Node → Prop} {p : Packet} (hIJ : ∀ n, I n → J n)
    (hdisc : ∀ n flags, I n → J (AodvUU.rreqRouteDiscovery c p.daddr flags n))
    (hrep : p.MeetsRepair n → ∀ n, I n → J (rreqLocalRepair c p.daddr n)) (hn : I n) :
    J (processPacket c p n) := by
  have hseek : ∀ fwd n₁, (∀ rt, fwd = some rt → rt.destAddr = p.daddr ∧
      (hasFlag rt.flags rtRepair → p.MeetsRepair n)) → I n₁ → J (seekRoute c p fwd n₁) := by
    intro fwd n₁ hfwd hn
    have hadd : I (packetQueueAdd c p p.daddr n₁) := h.routes n₁ _ (by simp) hn
    unfold seekRoute
    cases fwd with
    | none => exact hdisc _ _ hadd
    | some rt =>
      dsimp only
      split
      · next hflag =>
        rw [(hfwd rt rfl).1]
        exact hrep ((hfwd rt rfl).2 hflag) _ hadd
      · exact hdisc _ _ hadd
  unfold AodvUU.processPacket
  split_ifs with hdir hbc
  · exact hIJ _ (h.routes n _ rfl hn)
  · exact hIJ _ (h.routes n _ (by simp) hn)
  · exact hIJ _ (h.routes n _ rfl hn)
  · unfold processUnicast
    dsimp only
    have hupd := h.rtTableUpdateRouteTimeouts (c := c) ((rtTableFind n p.daddr).map (·.destAddr))
      ((rtTableFind n p.saddr).map (·.destAddr)) hn
    obtain ⟨hrest, htimers⟩ := rtTableUpdateRouteTimeouts_timersOnly (c := c)
      ((rtTableFind n p.daddr).map (·.destAddr)) ((rtTableFind n p.saddr).map (·.destAddr)) n
    generalize AodvUU.rtTableUpdateRouteTimeouts c _ _ n = n₁ at hupd hrest htimers ⊢
    unfold routeUnicast
    split
    · exact hIJ _ (h.routes n₁ _ rfl hupd)
    · next hown =>
      cases hfind : rtTableFind n p.daddr with
      | none =>
        dsimp only [Option.map]
        split
        · exact hIJ _ (h.noRoute _ _ _ hupd)
        · exact hseek none n₁ (fun rt hrt => by cases hrt) hupd
      | some rt =>
        dsimp only [Option.map]
        obtain ⟨t, hrt₁⟩ := htimers p.daddr rt (h.lookup_eq hn _ ▸ hfind)
        have hrt : n₁.rt rt.destAddr = { rt with rtTimer := t } :=
          (congrArg n₁.rt (destAddr_of_rtTableFind hfind)).trans (rt_of_lookup hrt₁)
        rw [hrt]
        split_ifs with hunus hup
        · exact hIJ _ (h.noRoute _ _ _ hupd)
        · refine hseek _ n₁ (fun rt' hrt' => ?_) hupd
          cases hrt'
          have hip : n₁.ipaddr = n.ipaddr := by rw [hrest]
          refine ⟨?_, fun hflag => ⟨hbc, hip ▸ hown, rt, hfind, hunus, hflag⟩⟩
          exact (destAddr_of_rtTableFind hfind : rt.destAddr = p.daddr)
        · unfold forwardData
          exact hIJ _ (h.helloKeepAlive (h.routes n₁ _ (sendPacket_routes p _ 0 n₁) hupd))

end Calm

namespace Ctx.Keeps

variable {c : Ctx} {I : Node → Prop} {n : Node} (h : c.Keeps I)
include h

/-! ## Updates, with the link break in their middle -/

theorem beforeUpdate (a : InAddr) (hops : BitVec 8) (hn : I n) :
    I (beforeUpdate c a hops .valid n) := by
  have hactive := h.countActive a hn
  unfold AodvUU.beforeUpdate
  dsimp only
  generalize (if (n.rt a).state = .invalid ∧ RtState.valid = .valid then
    { n with numActive := n.numActive + 1 } else n) = n₁ at hactive ⊢
  split
  · refine h.linkBreak _ _ (h.quiet _ _ _ (fun _ => ?_) (h.routes n₁ _ rfl hactive))
    exact ⟨rfl, rfl, rfl, rfl, rfl, rfl, rfl, rfl, id, id⟩
  · exact hactive

theorem takes {r : Route}
    (hins : ∀ flags, n.lookup r.dest = none → (r.chan ≠ none → r.dest ≠ n.ipaddr) →
      I (storeEntry (r.entry c flags) n))
    (hwrite : ∀ flags n, I n → I (n.modRt r.dest (r.write c flags))) (hn : I n) :
    c.Takes I r n where
  insert := hins
  update _ _ := h.flushSeek r.dest (hwrite _ _ (h.beforeUpdate r.dest r.hops hn))

/-! ## Replies -/

theorem suspectUnidir (rev : InAddr) (hn : I n) : I (suspectUnidir c rev n) := by
  unfold AodvUU.suspectUnidir
  dsimp only
  split
  · split
    · exact hn
    · split
      · refine h.quiet _ _ _ (fun rt => ?_) (h.linkBreak _ _ (h.quiet _ _ _ (fun rt => ?_) hn))
        · exact ⟨rfl, rfl, rfl, rfl, rfl, rfl, rfl, rfl, id, id⟩
        · exact ⟨rfl, rfl, rfl, rfl, rfl, rfl, rfl, rfl, id, id⟩
      · exact hn
  · exact hn

theorem rrepSendGen (ch : Option Int) (rev : InAddr) (fwd : Option InAddr) (size : ℕ) (hn : I n) :
    I (rrepSendGen c ch rev fwd size n) := by
  have hsuspect := h.suspectUnidir rev hn
  unfold AodvUU.rrepSendGen
  dsimp only
  refine h.routes _ _ (helloKeepAlive_routes _) ?_
  have hsend := h.routes _ (aodvSocketSend c
      ((setChannelNum (ch.getD (AodvUU.suspectUnidir c rev n).channelNum)
        (AodvUU.suspectUnidir c rev n)).rt rev).nextHop size maxTtl
      (setChannelNum (ch.getD (AodvUU.suspectUnidir c rev n).channelNum)
        (AodvUU.suspectUnidir c rev n))) (by simp) hsuspect
  cases fwd with
  | none => exact hsend
  | some f => exact h.addPrecursors f rev hsend

theorem reply (m : AodvMsg) (ch : Option Int) (rev : InAddr) (fwd : Option InAddr) (size : ℕ)
    (hn : I n) : I (AodvUU.rrepSendGen c ch rev fwd size (aodvSocketNewMsg m n)) :=
  h.rrepSendGen ch rev fwd size (h.routes n _ rfl hn)

/-! ## Requests -/

theorem rreqLrExts (orig : InAddr) (exts : List Ext) (hn : I n) :
    I (rreqLrExts c orig exts n).2 := by
  induction exts generalizing n with
  | nil => exact hn
  | cons e es ih =>
    cases e with
    | rreqUdest ud =>
      unfold AodvUU.rreqLrExts
      split
      · exact ih (h.reply _ none orig none _ (h.routes n _ (seqnoRaise_routes _ n) hn))
      · exact ih hn
    | cost | rrepUdest | helloInterval | helloNeighborSet | other =>
      unfold AodvUU.rreqLrExts
      exact ih hn

theorem rreqLrDestination (rreq : RREQ) (hn : I n) : I (rreqLrDestination c rreq n) :=
  h.reply _ none _ none _ (h.routes n _ (seqnoRaise_routes _ n) hn)

theorem rreqLrIntermediate (rreq : RREQ) (fwdRt : RtTable) (hn : I n) :
    I (rreqLrIntermediate c rreq fwdRt n) := by
  unfold AodvUU.rreqLrIntermediate
  dsimp only
  split
  · exact h.reply _ none _ _ _ (h.reply _ none _ _ _ hn)
  · exact h.reply _ none _ _ _ hn

theorem rreqLrAnswer (rreq : RREQ) (len : ℕ) (ttl : Int) (hn : I n) :
    I (rreqLrAnswer c rreq len ttl n) := by
  unfold AodvUU.rreqLrAnswer
  split
  · exact h.rreqLrDestination rreq hn
  · split
    · exact h.rreqForward _ _ _ _ hn
    · split
      · exact h.rreqLrIntermediate _ _ hn
      · exact h.rreqForward _ _ _ _ hn

theorem rreqProcessLr (rreq : RREQ) (len : ℕ) (ipSrc : InAddr) (ttl : Int)
    (ht : rreq.origAddr ≠ n.ipaddr → ∀ n', n'.routes = n.routes →
      c.Takes I (rreq.route ipSrc none) n')
    (hn : I n) : I (rreqProcessLr c rreq len ipSrc ttl n) := by
  unfold AodvUU.rreqProcessLr
  split_ifs with horig
  · exact hn
  · exact hn
  · exact hn
  · exact hn
  · have hrec : (rreqRecordInsert c rreq.origAddr rreq.rreqId n).routes = n.routes := by simp
    exact h.rreqLrAnswer _ _ _ (h.rreqLrExts _ _
      (h.rreqLrReverse rreq ipSrc (ht horig _ hrec) (h.routes n _ hrec hn)))

theorem rreqDestination (rreq : RREQ) (hn : I n) : I (rreqDestination c rreq n) :=
  h.reply _ (some _) _ none _ (h.routes n _ (seqnoRaise_routes _ n) hn)

theorem rreqIntermediate (rreq : RREQ) (fwdRt : RtTable) (hn : I n) :
    I (rreqIntermediate c rreq fwdRt n) := by
  unfold AodvUU.rreqIntermediate
  dsimp only
  split
  · exact h.reply _ (some _) _ _ _ (h.reply _ (some _) _ _ _ hn)
  · exact h.reply _ (some _) _ _ _ hn

theorem rreqRelay (rreq : RREQ) (ttl : Int)
    (hdel : ∀ rt, n.lookup rreq.destAddr = some rt → rt.channel = -1 →
      I (rtTableDelete rreq.destAddr n))
    (hn : I n) : I (rreqRelay c rreq ttl n) := by
  unfold AodvUU.rreqRelay
  cases hfind : rtTableFind n rreq.destAddr with
  | none => exact h.rreqForward _ _ _ _ hn
  | some fwdRt =>
    dsimp only
    split
    · next hch =>
      rw [destAddr_of_rtTableFind hfind]
      exact h.rreqForward _ _ _ _ (hdel fwdRt (h.lookup_eq hn _ ▸ hfind) hch)
    · split
      · exact h.rreqIntermediate _ _ hn
      · exact h.rreqForward _ _ _ _ hn

theorem rreqHandle (rreq : RREQ) (ipSrc : InAddr) (ttl : Int)
    (ht : ∀ n', n'.routes = n.routes → c.Takes I (rreq.route ipSrc
      (some (rreq.channel.toNat, lastCost (c.ext.log maxNum) rreq.exts))) n')
    (hdel : ∀ n', I n' → ∀ rt, n'.lookup rreq.destAddr = some rt → rt.channel = -1 →
      I (rtTableDelete rreq.destAddr n'))
    (hn : I n) : I (rreqHandle c rreq ipSrc ttl n) := by
  have hrec : (rreqRecordInsertWithCost c rreq.origAddr rreq.rreqId
    (lastCost (c.ext.log maxNum) rreq.exts) n).routes = n.routes := by simp
  rcases rreqHandle_cases c rreq ipSrc ttl n with ⟨-, heq⟩ | ⟨-, ⟨-, heq⟩ | ⟨n₁, hrev, heq⟩⟩
  · rw [heq]
    exact hn
  · rw [heq]
    exact h.routes n _ hrec hn
  · have hroute := h.rreqReverse (ht _ hrec) (h.routes n _ hrec hn) hrev
    rw [heq]
    unfold rreqAnswer
    split
    · exact h.rreqDestination _ hroute
    · exact h.rreqRelay _ _ (hdel n₁ hroute) hroute

theorem rreqProcess (rreq : RREQ) (len : ℕ) (ipSrc : InAddr) (ttl : Int)
    (hlr : rreq.type = aodvRreqLr → I (AodvUU.rreqProcessLr c rreq len ipSrc ttl n))
    (ht : rreq.type ≠ aodvRreqLr → rreq.origAddr ≠ n.ipaddr → ∀ n', n'.routes = n.routes →
      c.Takes I (rreq.route ipSrc
        (some (rreq.channel.toNat, receivedCost c n ipSrc rreq.channel rreq.exts))) n')
    (hdel : rreq.type ≠ aodvRreqLr → ∀ n', I n' → ∀ rt, n'.lookup rreq.destAddr = some rt →
      rt.channel = -1 → I (rtTableDelete rreq.destAddr n'))
    (hn : I n) : I (rreqProcess c rreq len ipSrc ttl n) := by
  unfold AodvUU.rreqProcess
  split_ifs with htype horig
  · exact hlr htype
  · exact hn
  · exact hn
  · exact hn
  · exact h.rreqHandle _ _ _ (ht htype horig) (hdel htype) hn

/-! ## Timers -/

theorem helloTimeout (a : InAddr) (hn : I n) : I (helloTimeout c a n) := by
  unfold AodvUU.helloTimeout
  dsimp only
  split
  · refine h.linkBreak a _ ?_
    split
    · exact h.ifqBuffer a
        (h.quiet _ _ n (fun _ => ⟨rfl, rfl, rfl, rfl, rfl, rfl, rfl, rfl, id, id⟩) hn)
    · exact hn
  · exact hn

theorem timerStep (e : Event) (n : Node)
    (hexp : ∀ a, e = .rtTimer a → I (rtTimerTimeout c a n))
    (hseek : ∀ i, e = .seekTimer i → I (AodvUU.routeDiscoveryTimeout c i n))
    (hn : I n) : I (timerStep c e n) := by
  have hoff : ∀ a (f : RtTable → Timer × Timer), I (n.modRt a fun rt =>
      { rt with ackTimer := (f rt).1, helloTimer := (f rt).2 }) := fun a f =>
    h.quiet _ _ n (fun _ => ⟨rfl, rfl, rfl, rfl, rfl, rfl, rfl, rfl, id, id⟩) hn
  cases e with
  | rtTimer a => exact hexp a rfl
  | seekTimer i => exact hseek i rfl
  | ackTimer a =>
    unfold AodvUU.timerStep
    dsimp only
    split
    · exact h.routes _ _ (rreqBlacklistInsert_routes _ _)
        (hoff a fun rt => (rt.ackTimer.remove, rt.helloTimer))
    · exact hn
  | rtHelloTimer a =>
    unfold AodvUU.timerStep
    dsimp only
    split
    · exact h.helloTimeout a (hoff a fun rt => (rt.ackTimer, rt.helloTimer.remove))
    · exact hn
  | helloTimer =>
    unfold AodvUU.timerStep
    dsimp only
    split
    · exact h.routes n _ (by simp) hn
    · exact hn
  | packetQueueTimer =>
    exact h.routes n _ (packetQueueGarbageCollect_routes n) hn
  | start | recv | packetFailed | rerrRecordTimer | ifqueue => exact hn
  | rreqRecordTimer | blacklistTimer | waitOnRebootTimer => exact h.routes n _ rfl hn

/-! ## Packets -/

theorem packetFailed {J : Node → Prop} {p : Packet} (hIJ : ∀ n, I n → J n)
    (hrep : p.BreaksLink c.conf n → ∀ n, I n → J (rreqLocalRepair c p.daddr n)) (hn : I n) :
    J (packetFailed c p n) := by
  have hdrop : ∀ n, I n → J (dropFailed p n) := fun n hn =>
    hIJ _ (h.routes n _ (dropFailed_routes p n) hn)
  unfold AodvUU.packetFailed
  split_ifs with hdata hsought
  · exact hIJ _ (h.routes n _ rfl hn)
  · exact hIJ _ (h.routes n _ (by simp) hn)
  · split
    · next rtNextHop rt hnext hfind =>
      split_ifs with hinvalid hother hrepair
      · exact hdrop n hn
      · exact hIJ _ (h.routes n _ rfl hn)
      · have hvalid : rtNextHop.state = .valid ∧ rt.state = .valid := by
          cases hs : rtNextHop.state <;> cases hs' : rt.state <;> simp_all
        rw [destAddr_of_rtTableFind hfind]
        refine hrep ⟨hdata, by simpa using hsought, hrepair.1, rtNextHop, rt, hnext, hfind,
          hvalid.1, hvalid.2, not_not.mp hother, hrepair.2⟩ _ (h.linkBreak _ _ (h.quiet _ _ _
          (fun _ => ⟨rfl, rfl, rfl, rfl, rfl, rfl, rfl, rfl, id, id⟩) ?_))
        exact h.ifqBuffer _ (h.routes n _ (by simp) hn)
      · exact hdrop _ (h.linkBreak _ _ hn)
    · exact hdrop n hn

end Ctx.Keeps

/-! ## Local repair -/

section LocalRepair

variable {c : Ctx}

/-- What a local repair for the next hop does to an entry. -/
structure RtTable.Marked (hop : InAddr) (rt rt' : RtTable) : Prop where
  destAddr : rt'.destAddr = rt.destAddr
  nextHop : rt'.nextHop = rt.nextHop
  hcnt : rt'.hcnt = rt.hcnt
  state : rt'.state = rt.state
  channel : rt'.channel = rt.channel
  cost : rt'.cost = rt.cost
  used : rt.rtTimer.used → rt'.rtTimer.used
  handler : rt'.rtTimer.handler = rt.rtTimer.handler ∨
    (rt.nextHop = hop ∧ rt'.rtTimer.handler = .routeExpireTimeout)

theorem RtTable.Marked.refl {h : InAddr} (rt : RtTable) : rt.Marked h rt :=
  ⟨rfl, rfl, rfl, rfl, rfl, rfl, id, .inl rfl⟩

theorem RtTable.Marked.trans {h : InAddr} (x y z : RtTable) (hxy : x.Marked h y)
    (hyz : y.Marked h z) : x.Marked h z := by
  refine ⟨hyz.destAddr.trans hxy.destAddr, hyz.nextHop.trans hxy.nextHop,
    hyz.hcnt.trans hxy.hcnt, hyz.state.trans hxy.state, hyz.channel.trans hxy.channel,
    hyz.cost.trans hxy.cost, fun hu => hyz.used (hxy.used hu), ?_⟩
  rcases hyz.handler with hsame | ⟨hnext, hexp⟩
  · rw [hsame]
    exact hxy.handler
  · exact .inr ⟨hxy.nextHop ▸ hnext, hexp⟩

/-- A local repair marks the entries that share a next hop. -/
abbrev Node.Marks (hop : InAddr) (n n' : Node) : Prop := n.Entrywise (RtTable.Marked hop) n'

theorem marks_of_routes {h : InAddr} {n n' : Node} (hr : n'.routes = n.routes) : n.Marks h n' :=
  Node.Entrywise.of_lookup .refl fun _ => lookup_of_routes hr

theorem markRepair_marks {h a : InAddr} {n : Node}
    (hnext : ∀ rt, n.lookup a = some rt → rt.nextHop = h) : n.Marks h (markRepair c a n) := by
  have hwait : ∀ n : Node, n.Marks h (keepWaiting c a n) := by
    intro n
    unfold keepWaiting
    split
    · refine .modRt .refl a (fun rt => (RtTable.updateTimeout_quiet _ _ rt).destAddr)
        (fun rt => ?_) n
      have hq := RtTable.updateTimeout_quiet c.now (msecs (2 * netTraversalTime)) rt
      exact ⟨hq.destAddr, hq.nextHop, hq.hcnt, hq.state, hq.channel, hq.cost, hq.used,
        .inl hq.handler⟩
    · exact .of_lookup .refl fun _ => rfl
  refine Node.Entrywise.trans RtTable.Marked.trans ?_ (hwait _)
  intro b
  rw [lookup_modRt (f := fun rt =>
    { rt with
      flags := rt.flags ||| rtRepair
      rtTimer := { rt.rtTimer with handler := .routeExpireTimeout } }) a b fun _ => rfl]
  cases hb : n.lookup b with
  | none => split <;> exact .none
  | some rt =>
    split
    · next hab => exact .some ⟨rfl, rfl, rfl, rfl, rfl, rfl, id, .inr ⟨hnext rt (hab ▸ hb), rfl⟩⟩
    · exact .some (.refl rt)

theorem repairAll_marks {h : InAddr} {n₀ n : Node} (hwf : RtWf n₀) (hmarks : n₀.Marks h n)
    {l : List RtTable} (hl : ∀ u ∈ l, u ∈ n₀.entries ∧ u.nextHop = h) :
    n₀.Marks h (l.foldl (fun n u => repairUdest c h u n) n) := by
  refine List.foldlRecOn (motive := fun n : Node => n₀.Marks h n) _ _ hmarks fun n hn u hu => ?_
  obtain ⟨hmem, hnext⟩ := hl u hu
  have hlook : n₀.lookup u.destAddr = some u := hwf.lookup_eq_some.mpr ⟨hmem, rfl⟩
  unfold repairUdest
  refine Node.Entrywise.trans RtTable.Marked.trans
    (Node.Entrywise.trans RtTable.Marked.trans hn (markRepair_marks fun rt hrt => ?_))
    (marks_of_routes (modRreq_routes _ _))
  obtain ⟨rt₀, hrt₀, hmark⟩ := hn.exists_before hrt
  cases hlook.symm.trans hrt₀
  exact hmark.nextHop.trans hnext

theorem rreqLocalRepair_marks {a : InAddr} {n : Node} (hwf : RtWf n) :
    n.Marks (n.rt a).nextHop (rreqLocalRepair c a n) := by
  unfold rreqLocalRepair
  dsimp only
  split
  · have hnext : ∀ rt, n.lookup a = some rt → rt.nextHop = (n.rt a).nextHop :=
      fun rt hrt => by rw [rt_of_lookup hrt]
    generalize hreq : (if (n.rt a).nextHop ≠ (n.rt a).destAddr then
      (rreqCreate (rreqLocalRepairFlag ||| rreqDestOnly) (n.rt a).nextHop 0 n.ipaddr n).modRreq
        (rreqAddUdest · (n.rt a).destAddr (n.rt a).destSeqno)
      else rreqCreate (rreqLocalRepairFlag ||| rreqDestOnly) (n.rt a).nextHop 0 n.ipaddr n) = n₁
    have hroutes : n₁.routes = n.routes := by
      rw [← hreq]
      split
      · exact modRreq_routes _ _
      · rfl
    have hlook : ∀ rt, n₁.lookup a = some rt → rt.nextHop = (n.rt a).nextHop := fun rt hrt =>
      hnext rt (lookup_of_routes hroutes ▸ hrt)
    have hmark := markRepair_marks (c := c) hlook
    have hwf₁ : RtWf (markRepair c a n₁) := effects_preserve_rtWf
      (hwf.of_table (congrArg Routes.tbl hroutes) (congrArg Routes.numEntries hroutes))
      (markRepair_effects a n₁)
    have hall := repairAll_marks (c := c) hwf₁ (.of_lookup RtTable.Marked.refl fun _ => rfl)
      (l := sharingNextHop (n.rt a) (markRepair c a n₁)) (h := (n.rt a).nextHop) fun u hu => by
        obtain ⟨hmem, hcond⟩ := List.mem_filter.mp hu
        exact ⟨hmem, (by simpa using hcond : _ ∧ _).1⟩
    refine Node.Entrywise.trans RtTable.Marked.trans (marks_of_routes hroutes)
      (Node.Entrywise.trans RtTable.Marked.trans (Node.Entrywise.trans RtTable.Marked.trans hmark
        hall) (.of_lookup .refl fun b => ?_))
    exact lookup_of_routes (aodvSocketSend_routes aodvBroadcast _ _ _)
  · exact .of_lookup .refl fun _ => rfl

end LocalRepair

/-! ## Invariants of well-formed tables -/

section WellFormed

variable {c : Ctx} {P : Node → Prop}

theorem Calm.of_wf (routes : ∀ n n' : Node, n'.routes = n.routes → P n → P n')
    (quiet : ∀ a f n, (∀ rt : RtTable, rt.Quiet (f rt)) → P n → P (n.modRt a f))
    (seek : ∀ l n, (l.map SeekList.destAddr).Sublist (n.seekhead.map SeekList.destAddr) → P n →
      P { n with seekhead := l }) : Calm fun n => RtWf n ∧ P n where
  wf _ hn := hn.1
  routes n n' hr hn := ⟨hn.1.of_table (congrArg Routes.tbl hr) (congrArg Routes.numEntries hr),
    routes n n' hr hn.2⟩
  quiet a f n hf hn := ⟨hn.1.modRt a (fun rt => (hf rt).destAddr) (fun rt => (hf rt).hash)
    fun rt => (hf rt).precursors, quiet a f n hf hn.2⟩
  seek l n hs hn := ⟨hn.1.of_table rfl rfl, seek l n hs hn.2⟩

theorem Ctx.Keeps.of_wf (hl : c.LinkBreaks {})
    (routes : ∀ n n' : Node, n'.routes = n.routes → P n → P n')
    (quiet : ∀ a f n, (∀ rt : RtTable, rt.Quiet (f rt)) → P n → P (n.modRt a f))
    (seek : ∀ l n, (l.map SeekList.destAddr).Sublist (n.seekhead.map SeekList.destAddr) → P n →
      P { n with seekhead := l })
    (linkBreak : ∀ a n, RtWf n → P n → P (c.ext.neighborLinkBreak c.env a n)) :
    c.Keeps fun n => RtWf n ∧ P n where
  toCalm := .of_wf routes quiet seek
  linkBreak a n hn := ⟨(hl a n).rtWf hn.1, linkBreak a n hn.1 hn.2⟩

theorem RtWf.store {n : Node} (h : RtWf n) (r : Route) (flags : BitVec 16)
    (hnone : n.lookup r.dest = none) : RtWf (AodvUU.storeEntry (r.entry c flags) n) :=
  h.storeEntry rfl ⟨rfl, rfl⟩ hnone

theorem lookup_routeWrite (r : Route) (flags : BitVec 16) (n : Node) (b : InAddr) :
    (n.modRt r.dest (r.write c flags)).lookup b =
      if r.dest = b then (n.lookup b).map (r.write c flags) else n.lookup b :=
  lookup_modRt r.dest b fun _ => RtTable.write_destAddr _ _ _ _ _ _ _ _ _

theorem RtWf.write {n : Node} (h : RtWf n) (r : Route) (flags : BitVec 16) :
    RtWf (n.modRt r.dest (r.write c flags)) :=
  h.rewrite (.entry n r.dest _
    (RtTable.write_samePlace c.now r.next r.hops r.seqno r.life .valid flags r.chan))

theorem Ctx.Keeps.takes_wf (h : c.Keeps fun n => RtWf n ∧ P n) {r : Route} {n : Node}
    (hins : ∀ flags, n.lookup r.dest = none → (r.chan ≠ none → r.dest ≠ n.ipaddr) →
      P (storeEntry (r.entry c flags) n))
    (hwrite : ∀ flags n, RtWf n → P n → P (n.modRt r.dest (r.write c flags)))
    (hn : RtWf n ∧ P n) : c.Takes (fun n => RtWf n ∧ P n) r n :=
  h.takes (fun flags hnone hown => ⟨hn.1.store r flags hnone, hins flags hnone hown⟩)
    (fun flags n hn => ⟨hn.1.write r flags, hwrite flags n hn.1 hn.2⟩) hn

end WellFormed

end AodvUU

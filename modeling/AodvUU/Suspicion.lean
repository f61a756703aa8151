import AodvUU.NeighborCalls
import AodvUU.Runs

/-! # Suspected links

An entry is flagged as one-way, or waits for an acknowledgement, because `rrep_send` or a Hello
suspects its link. Without `unidir_hack` nothing ever raises the first suspicion. -/
namespace AodvUU

/-- The link is not flagged as one-way, and no acknowledgement is awaited over it. -/
structure RtTable.Trusted (rt : RtTable) : Prop where
  unflagged : hasFlag rt.flags rtUnidir = false
  unawaited : rt.ackTimer.used = false

def Node.Trusting (n : Node) : Prop := ∀ rt ∈ n.entries, rt.Trusted

/-- The condition under which `rrep_send` starts the acknowledgement timer of the next hop. -/
def Node.Suspects (c : Ctx) (rev : InAddr) (n : Node) : Prop :=
  (((n.rt rev).state = .valid ∧ hasFlag (n.rt rev).flags rtUnidir) ∨
    ((n.rt rev).hcnt = 1 ∧ c.conf.unidirHack)) ∧
  ∃ neighbor, rtTableFind n (n.rt rev).nextHop = some neighbor ∧ neighbor.state = .valid ∧
    neighbor.ackTimer.used = false

/-- What is assumed of the external functions: they suspect no link of their own. -/
structure Ctx.Unsuspecting (c : Ctx) : Prop where
  linkBreak : ∀ a n, n.Trusting → (c.ext.neighborLinkBreak c.env a n).Trusting
  neighborAdd : ∀ m a n, n.Trusting → (c.ext.neighborAdd c.env m a n).Trusting

structure Ctx.Trusts (c : Ctx) : Prop extends c.Unsuspecting where
  hack : c.conf.unidirHack = false

theorem suspectUnidir_of_not {c : Ctx} {rev : InAddr} {n : Node} (h : ¬ n.Suspects c rev) :
    suspectUnidir c rev n = n := by
  unfold suspectUnidir
  dsimp only
  split
  · next hlink =>
    split
    · rfl
    · next neighbor hfind =>
      rw [if_neg]
      rintro ⟨hvalid, hack⟩
      exact h ⟨hlink, neighbor, hfind, hvalid, by simpa using hack⟩
  · rfl

/-! ## Flags -/

theorem hasFlag_helloFlags (flags : BitVec 16) :
    hasFlag ((flags.setWidth 8).setWidth 16) rtUnidir = hasFlag flags rtUnidir := by
  have hbit : (flags.setWidth 8).setWidth 16 &&& rtUnidir = flags &&& rtUnidir := by
    apply BitVec.eq_of_getLsbD_eq
    intro i hi
    have hone : rtUnidir.getLsbD i = decide (i = 0) := by
      rw [show rtUnidir = 1#16 from rfl, BitVec.getLsbD_one]
      simp
    simp only [BitVec.getLsbD_and, hone]
    by_cases hz : i = 0
    · subst hz
      simp
    · simp [hz]
  rw [hasFlag, hasFlag, hbit]

theorem updateFlags_unflagged {rt : RtTable} {state : RtState} {flags : BitVec 16}
    (h : hasFlag flags rtUnidir = false) : hasFlag (updateFlags rt state flags) rtUnidir = false := by
  unfold updateFlags
  split
  · exact hasFlag_and_right h
  · exact h

theorem RtTable.Trusted.repair {rt : RtTable} (h : rt.Trusted) :
    hasFlag (rt.flags ||| rtRepair) rtUnidir = false := by
  rw [hasFlag_markRepair]
  exact h.unflagged

theorem helloExts_unflagged (own : InAddr) (exts : List Ext) {acc : BitVec 32 × BitVec 16}
    (h : hasFlag acc.2 rtUnidir = false) :
    hasFlag (helloExts own exts acc).2 rtUnidir = false := by
  induction exts generalizing acc with
  | nil => exact h
  | cons e es ih =>
    cases e with
    | helloInterval i => exact ih h
    | helloNeighborSet as =>
      apply ih
      dsimp only
      split
      · exact hasFlag_and_right h
      · exact h
    | cost | rreqUdest | rrepUdest | other => exact h


theorem RtTable.Trusted.write {rt : RtTable} (h : rt.Trusted) (now : Time) (next : InAddr)
    (hops : BitVec 8) (seqno life : BitVec 32) (state : RtState) {flags : BitVec 16}
    (hflags : hasFlag flags rtUnidir = false) (chan : Option (Int × ℚ)) :
    (rt.write now next hops seqno life state flags chan).Trusted := by
  rw [RtTable.write_eq]
  exact ⟨hflags, h.unawaited⟩

namespace Node.Trusting

variable {c : Ctx} {n n' : Node}

/-! ## Tables -/

theorem of_tbl (h : n.Trusting) (ht : n'.tbl = n.tbl) : n'.Trusting := by
  have hent : n'.entries = n.entries := congrArg HashTable.entries ht
  unfold Node.Trusting
  rw [hent]
  exact h

theorem of_routes (h : n.Trusting) (hr : n'.routes = n.routes) : n'.Trusting :=
  h.of_tbl (congrArg Routes.tbl hr)

theorem rt (h : n.Trusting) (a : InAddr) : (n.rt a).Trusted := by
  cases hrt : n.lookup a with
  | none =>
    have hdefault : n.rt a = default := by
      unfold Node.rt
      rw [hrt]
      rfl
    rw [hdefault]
    exact ⟨by decide, rfl⟩
  | some rt =>
    rw [rt_of_lookup hrt]
    exact h rt (HashTable.mem_entries.mpr ⟨_, List.mem_of_find?_eq_some hrt⟩)

theorem found (h : n.Trusting) {a : InAddr} {rt : RtTable} (hfind : rtTableFind n a = some rt) :
    rt.Trusted := by
  unfold rtTableFind at hfind
  split at hfind
  · cases hfind
  · exact h rt (HashTable.mem_entries.mpr ⟨_, List.mem_of_find?_eq_some hfind⟩)

theorem modRt (h : n.Trusting) (a : InAddr) {f : RtTable → RtTable}
    (hf : ∀ rt : RtTable, rt.Trusted → (f rt).Trusted) : (n.modRt a f).Trusting := by
  intro rt hrt
  obtain ⟨rt₀, hrt₀, rfl⟩ := HashTable.mem_adjust.mp hrt
  split
  · exact hf rt₀ (h rt₀ hrt₀)
  · exact h rt₀ hrt₀

theorem modRt_same (h : n.Trusting) (a : InAddr) {f : RtTable → RtTable}
    (hflags : ∀ rt : RtTable, (f rt).flags = rt.flags)
    (hack : ∀ rt : RtTable, (f rt).ackTimer = rt.ackTimer) : (n.modRt a f).Trusting :=
  h.modRt a fun rt hrt => ⟨(hflags rt).symm ▸ hrt.unflagged, (hack rt).symm ▸ hrt.unawaited⟩

theorem storeEntry (h : n.Trusting) {rt : RtTable} (hrt : rt.Trusted) :
    (storeEntry rt n).Trusting := by
  intro rt' hrt'
  obtain ⟨i, hi⟩ := HashTable.mem_entries.mp hrt'
  by_cases hb : i = hashing rt.destAddr
  · subst hb
    have hcons : rt' ∈ rt :: n.tbl (hashing rt.destAddr) := by
      simpa [AodvUU.storeEntry, HashTable.insert] using hi
    rcases List.mem_cons.mp hcons with rfl | hold
    · exact hrt
    · exact h rt' (HashTable.mem_entries.mpr ⟨_, hold⟩)
  · have hold : rt' ∈ n.tbl i := by
      simpa [AodvUU.storeEntry, HashTable.insert, Function.update_of_ne hb] using hi
    exact h rt' (HashTable.mem_entries.mpr ⟨i, hold⟩)

theorem delete (h : n.Trusting) (a : InAddr) : (rtTableDelete a n).Trusting := by
  unfold rtTableDelete
  split
  · exact h
  · exact fun rt hrt => h rt (HashTable.mem_erase.mp hrt).1

theorem invalidate (h : n.Trusting) (a : InAddr) : (rtTableInvalidate c a n).Trusting := by
  unfold rtTableInvalidate
  split
  · exact h
  · split
    · exact h
    · exact (h.modRt a (f := (·.invalidated c)) fun rt hrt => ⟨hrt.unflagged, rfl⟩).of_tbl rfl

/-! ## Routing table -/

theorem timeout (h : n.Trusting) (a : InAddr) (life : BitVec 32) :
    (rtTableUpdateTimeout c a life n).Trusting := by
  refine h.modRt_same a (fun rt => ?_) fun rt => ?_
  all_goals
    unfold RtTable.updateTimeout
    split_ifs <;> rfl

theorem precursorAdd (h : n.Trusting) (a addr : InAddr) : (precursorAdd a addr n).Trusting := by
  refine h.modRt_same a (fun rt => ?_) fun rt => ?_
  all_goals
    unfold RtTable.precursorAdd
    split <;> rfl

theorem precursorListDestroy (h : n.Trusting) (a : InAddr) : (precursorListDestroy a n).Trusting :=
  h.modRt_same a (fun _ => rfl) fun _ => rfl

theorem addPrecursors (h : n.Trusting) (fwd rev : InAddr) : (addPrecursors fwd rev n).Trusting :=
  (h.precursorAdd fwd _).precursorAdd rev _

theorem updateRouteTimeout (h : n.Trusting) (rt : RtTable) (inet : Bool) :
    (updateRouteTimeout c rt inet n).Trusting := by
  unfold AodvUU.updateRouteTimeout
  split
  · have hfirst : (if c.conf.llfeedback ∨ inet ∨ rt.hcnt ≠ 1 ∨ rt.helloTimer.used then
        rtTableUpdateTimeout c rt.destAddr (msecs c.conf.activeRouteTimeout) n else n).Trusting := by
      split
      · exact h.timeout _ _
      · exact h
    dsimp only
    split
    · exact hfirst
    · split
      · exact hfirst.timeout _ _
      · exact hfirst
  · exact h

theorem rtTableUpdateRouteTimeouts (h : n.Trusting) (fwd rev : Option InAddr) :
    (rtTableUpdateRouteTimeouts c fwd rev n).Trusting :=
  rtTableUpdateRouteTimeouts_keeps (I := Node.Trusting)
    (fun rt inet _ hm => hm.updateRouteTimeout rt inet) fwd rev h

theorem refreshQueued (h : n.Trusting) (rt : RtTable) (a : InAddr) :
    (refreshQueued c rt a n).Trusting := by
  unfold AodvUU.refreshQueued
  split
  · dsimp only
    split
    · exact h.timeout _ _
    · split
      · exact (h.timeout _ _).timeout _ _
      · exact h.timeout _ _
  · exact h

theorem packetQueueSetVerdict (h : n.Trusting) (a : InAddr) (v : Verdict) :
    (packetQueueSetVerdict c a v n).Trusting := by
  have htake : (takeQueued a n).Trusting := h.of_tbl rfl
  unfold AodvUU.packetQueueSetVerdict
  cases v with
  | encSend =>
    dsimp only
    split
    · exact h
    · split
      · exact htake
      · split
        · exact (htake.timeout _ _).refreshQueued _ a
        · exact htake
  | send =>
    dsimp only
    split
    · exact h.of_tbl rfl
    · exact (htake.of_routes (sendQueued_routes _ _ _ _)).refreshQueued _ a
  | drop => exact htake.of_routes (foldl_routes _ (fun n qp => handOut_routes _ n) _)

theorem flushSeek (h : n.Trusting) (a : InAddr) : (flushSeek c a n).Trusting := by
  unfold AodvUU.flushSeek
  split
  · split
    · exact h
    · refine Node.Trusting.packetQueueSetVerdict ?_ a _
      exact h.of_tbl rfl
  · exact h

theorem rtTableAdd (h : n.Trusting) (a next : InAddr) (hops : BitVec 8) (seqno life : BitVec 32)
    (state : RtState) {flags : BitVec 16} (hflags : hasFlag flags rtUnidir = false) (ch : Int)
    (cost : ℚ) : (rtTableAdd c a next hops seqno life state flags ch cost n).Trusting :=
  (h.storeEntry ⟨hflags, rfl⟩).flushSeek a

theorem rtTableInsert (h : n.Trusting) (a next : InAddr) (hops : BitVec 8) (seqno life : BitVec 32)
    (state : RtState) {flags : BitVec 16} (hflags : hasFlag flags rtUnidir = false) :
    (rtTableInsert c a next hops seqno life state flags n).Trusting := by
  unfold AodvUU.rtTableInsert
  split
  · exact h
  · exact h.rtTableAdd a next hops seqno life state hflags _ _

theorem rtTableInsertWithChannel (h : n.Trusting) (a next : InAddr) (hops : BitVec 8)
    (seqno life : BitVec 32) (state : RtState) {flags : BitVec 16}
    (hflags : hasFlag flags rtUnidir = false) (ch : Int) (cost : ℚ) :
    (rtTableInsertWithChannel c a next hops seqno life state flags ch cost n).Trusting := by
  unfold AodvUU.rtTableInsertWithChannel
  split_ifs
  · exact h
  · exact h
  · exact h.rtTableAdd a next hops seqno life state hflags ch cost

theorem rtTableUpdateGen (h : n.Trusting) (hc : c.Unsuspecting) (chan : Option (Int × ℚ))
    (a next : InAddr) (hops : BitVec 8) (seqno life : BitVec 32) (state : RtState)
    {flags : BitVec 16} (hflags : hasFlag flags rtUnidir = false) :
    (rtTableUpdateGen c chan a next hops seqno life state flags n).Trusting := by
  have hbefore : (beforeUpdate c a hops state n).Trusting := by
    have hactive : (if (n.rt a).state = .invalid ∧ state = .valid then
        { n with numActive := n.numActive + 1 } else n).Trusting := by
      split
      · exact h.of_tbl rfl
      · exact h
    unfold beforeUpdate
    dsimp only
    split
    · unfold breakOneHop
      refine hc.linkBreak a _ ?_
      refine Node.Trusting.modRt_same ?_ a (fun _ => rfl) fun _ => rfl
      exact hactive.of_tbl rfl
    · exact hactive
  refine Node.Trusting.flushSeek (hbefore.modRt a fun rt hrt => ?_) a
  exact hrt.write _ _ _ _ _ _ (updateFlags_unflagged hflags) _

/-! ## Discovery -/

theorem keepWaiting (h : n.Trusting) (a : InAddr) : (keepWaiting c a n).Trusting := by
  unfold AodvUU.keepWaiting
  split
  · exact h.timeout _ _
  · exact h

theorem rreqRouteDiscovery (h : n.Trusting) (a : InAddr) (flags : BitVec 8) :
    (rreqRouteDiscovery c a flags n).Trusting := by
  have hflood : ∀ (n : Node) (v : BitVec 32), n.Trusting →
      (onEachChannel (rreqSendWithChannel c a v 32 flags) n).Trusting := fun n v hn =>
    hn.of_routes (onEachChannel_routes (fun i n => by simp) n)
  unfold AodvUU.rreqRouteDiscovery
  split
  · exact h
  · cases hrt : rtTableFind n a with
    | none => exact (hflood n _ h).of_tbl rfl
    | some rt => exact (hflood _ _ (h.keepWaiting rt.destAddr)).of_tbl rfl

theorem markRepair (h : n.Trusting) (a : InAddr) : (markRepair c a n).Trusting := by
  unfold AodvUU.markRepair
  refine Node.Trusting.keepWaiting (h.modRt a fun rt hrt => ?_) a
  exact ⟨hrt.repair, hrt.unawaited⟩

theorem rreqLocalRepair (h : n.Trusting) (a : InAddr) : (rreqLocalRepair c a n).Trusting := by
  have hwalk : ∀ (hop : InAddr) (l : List RtTable) (n : Node), n.Trusting →
      (l.foldl (fun n u => repairUdest c hop u n) n).Trusting := by
    intro hop l n hn
    refine List.foldlRecOn (motive := fun n : Node => n.Trusting) _ _ hn fun n hn u _ => ?_
    unfold repairUdest
    exact (hn.markRepair u.destAddr).of_routes (modRreq_routes _ _)
  have hsend : ∀ (n : Node) len ttl s, n.Trusting →
      (seekListInsert s (aodvSocketSend c aodvBroadcast len ttl n)).Trusting := fun n len ttl s hn =>
    (hn.of_routes (aodvSocketSend_routes _ _ _ _)).of_tbl rfl
  unfold AodvUU.rreqLocalRepair
  dsimp only
  split
  · refine hsend _ _ _ _ (hwalk _ _ _ (Node.Trusting.markRepair ?_ a))
    split
    · exact Node.Trusting.of_routes (n := rreqCreate _ _ _ _ n) (h.of_tbl rfl) (modRreq_routes _ _)
    · exact h.of_tbl rfl
  · exact h

/-! ## Replies -/

theorem not_suspects (h : n.Trusting) (hhack : c.conf.unidirHack = false) (rev : InAddr) :
    ¬ n.Suspects c rev := by
  rintro ⟨⟨-, hflag⟩ | ⟨-, hack⟩, -⟩
  · rw [(h.rt rev).unflagged] at hflag
    cases hflag
  · rw [hhack] at hack
    cases hack

theorem rrepSendGen (h : n.Trusting) (hhack : c.conf.unidirHack = false) (channel : Option Int)
    (rev : InAddr) (fwd : Option InAddr) (size : ℕ) :
    (rrepSendGen c channel rev fwd size n).Trusting := by
  unfold AodvUU.rrepSendGen
  dsimp only
  rw [suspectUnidir_of_not (h.not_suspects hhack rev)]
  have hsend : ∀ dst ch, (aodvSocketSend c dst size maxTtl (setChannelNum ch n)).Trusting :=
    fun dst ch => h.of_routes (aodvSocketSend_routes _ _ _ _)
  refine Node.Trusting.of_routes ?_ (helloKeepAlive_routes _)
  cases fwd with
  | none => exact hsend _ _
  | some fwd => exact (hsend _ _).addPrecursors fwd rev

theorem reply (h : n.Trusting) (hhack : c.conf.unidirHack = false) (m : AodvMsg)
    (channel : Option Int) (rev : InAddr) (fwd : Option InAddr) (size : ℕ) :
    (AodvUU.rrepSendGen c channel rev fwd size (aodvSocketNewMsg m n)).Trusting :=
  Node.Trusting.rrepSendGen (n := aodvSocketNewMsg m n) (h.of_tbl rfl) hhack channel rev fwd size

theorem rrepForward (h : n.Trusting) (rrep : RREP) (size : ℕ) (rev fwd : InAddr) (ttl : Int) :
    (rrepForward c rrep size rev fwd ttl n).Trusting := by
  unfold AodvUU.rrepForward
  refine Node.Trusting.timeout (Node.Trusting.addPrecursors (h.of_routes ?_) fwd rev) rev _
  rw [aodvSocketSend_routes]
  dsimp only
  split <;> rfl

/-! ## Replies to a local repair -/

theorem rrepLrRoute (h : n.Trusting) (hc : c.Unsuspecting) (rrep : RREP) (ipSrc a : InAddr) :
    (rrepLrRoute c rrep ipSrc a n).Trusting := by
  unfold AodvUU.rrepLrRoute
  split
  · have hunflagged : hasFlag (0 : BitVec 16) rtUnidir = false := rfl
    have hnew := h.rtTableInsert (c := c) a ipSrc (rrep.hcnt + 1) rrep.destSeqno rrep.lifetime
      .valid hunflagged
    exact hnew.rtTableUpdateGen hc none a ipSrc _ _ _ _ hunflagged
  · next fwdRt hfind => exact h.rtTableUpdateGen hc none a ipSrc _ _ _ _ (h.found hfind).unflagged

theorem rrepLrForwarder (h : n.Trusting) (hc : c.Unsuspecting) (rrep : RREP) (len : ℕ)
    (ipSrc : InAddr) (ttl : Int) : (rrepLrForwarder c rrep len ipSrc ttl n).Trusting := by
  have hudests : (rrepLrUdests c rrep ipSrc n).Trusting := by
    unfold rrepLrUdests
    refine List.foldlRecOn (motive := fun n : Node => n.Trusting) _ _ h fun n hn e _ => ?_
    cases e with
    | rrepUdest ud => exact hn.rrepLrRoute hc rrep ipSrc ud.destAddr
    | cost | rreqUdest | helloInterval | helloNeighborSet | other => exact hn
  have hack := (hudests.rrepLrRoute hc rrep ipSrc rrep.destAddr).of_routes
    (rrepAcknowledge_routes (c := c) rrep _)
  unfold AodvUU.rrepLrForwarder rrepLrRelay
  dsimp only
  split
  · exact hack
  · split
    · exact hack.rrepForward _ _ _ _ _
    · exact hack

theorem lrRepairEntry (hc : c.Unsuspecting) (rrep : RREP) (ipSrc a : InAddr) {s : LrRerr}
    (h : s.node.Trusting) : (lrRepairEntry c rrep ipSrc s a).node.Trusting := by
  unfold AodvUU.lrRepairEntry
  cases hrep : lrRepaired c rrep ipSrc a s.node with
  | none => exact h
  | some n' =>
    have hn' : n'.Trusting := by
      unfold lrRepaired at hrep
      dsimp only at hrep
      split_ifs at hrep
      · cases hrep
        exact h.rtTableUpdateGen hc none _ _ _ _ _ _ rfl
      · cases hrep
        exact h.rtTableUpdateGen hc none _ _ _ _ _ _ rfl
    dsimp only
    unfold lrRerrAdd
    dsimp only
    split_ifs
    all_goals exact hn'.of_tbl rfl

theorem rrepProcessLr (h : n.Trusting) (hc : c.Unsuspecting) (rrep : RREP) (len : ℕ)
    (ipSrc : InAddr) (ttl : Int) : (rrepProcessLr c rrep len ipSrc ttl n).Trusting := by
  unfold AodvUU.rrepProcessLr
  split_ifs
  · exact h
  · exact h
  · refine Node.Trusting.of_routes ?_ (helloKeepAlive_routes _)
    unfold rrepLrOrigin lrRerrSend
    have hwalk : ((n.entries.map (·.destAddr)).foldl (AodvUU.lrRepairEntry c rrep ipSrc)
        { unicastDest := c.env.uninitAddr, node := n }).node.Trusting :=
      List.foldlRecOn (motive := fun s : LrRerr => s.node.Trusting) _ _ h
        fun s hs a _ => lrRepairEntry hc rrep ipSrc a hs
    split
    · exact hwalk.of_routes (sendRerr_routes _ _)
    · exact hwalk
  · exact (h.rrepLrForwarder hc rrep len ipSrc ttl).of_routes (helloKeepAlive_routes _)

/-! ## Plain replies -/

theorem rrepHandle (h : n.Trusting) (hc : c.Unsuspecting) (rrep : RREP) (ipSrc : InAddr)
    (ttl : Int) : (rrepHandle c rrep ipSrc ttl n).Trusting := by
  have hroute : ∀ n', rrepRoute c rrep ipSrc (lastCost (c.ext.log maxNum) rrep.exts) n = some n' →
      n'.Trusting := by
    intro n' hr
    unfold rrepRoute at hr
    split at hr
    · cases hr
      exact h.rtTableInsertWithChannel _ _ _ _ _ _ rfl _ _
    · next fwdRt hfind =>
      split at hr
      · cases hr
        exact h.rtTableUpdateGen hc _ _ _ _ _ _ _ (h.found hfind).unflagged
      · cases hr
  unfold AodvUU.rrepHandle
  dsimp only
  split
  · exact h
  · next n' hr =>
    have hack := (hroute n' hr).of_routes (rrepAcknowledge_routes (c := c) rrep n')
    refine Node.Trusting.of_routes ?_ (helloKeepAlive_routes _)
    split
    · exact hack.of_routes (rrepArrived_routes _ _ _)
    · unfold rrepRelay
      split
      · exact hack
      · split
        · refine Node.Trusting.rrepForward ?_ _ _ _ _ _
          exact hack.of_tbl rfl
        · exact hack

theorem rrepProcess (h : n.Trusting) (hc : c.Unsuspecting) (rrep : RREP) (len : ℕ) (ipSrc : InAddr)
    (ttl : Int) : (rrepProcess c rrep len ipSrc ttl n).Trusting := by
  unfold AodvUU.rrepProcess
  split_ifs
  · exact h.rrepProcessLr hc rrep len ipSrc ttl
  · exact h
  · exact h
  · exact h.rrepHandle hc _ ipSrc ttl

theorem rrepAckProcess (h : n.Trusting) (ack : RREPAck) (ipSrc : InAddr) :
    (rrepAckProcess ack ipSrc n).Trusting := by
  unfold AodvUU.rrepAckProcess
  split
  · exact h.of_tbl rfl
  · split
    · exact h
    · exact h.modRt _ fun rt hrt => ⟨hrt.unflagged, rfl⟩

/-! ## Requests -/

theorem rreqLrReverse (h : n.Trusting) (hc : c.Unsuspecting) (rreq : RREQ) (ipSrc : InAddr) :
    (rreqLrReverse c rreq ipSrc n).Trusting := by
  unfold AodvUU.rreqLrReverse
  dsimp only
  split
  · exact h.rtTableInsert _ _ _ _ _ _ rfl
  · next revRt hfind =>
    split
    · exact h.rtTableUpdateGen hc none _ _ _ _ _ _ (h.found hfind).unflagged
    · exact h

theorem rreqLrExts (h : n.Trusting) (hhack : c.conf.unidirHack = false) (orig : InAddr)
    (exts : List Ext) : (rreqLrExts c orig exts n).2.Trusting := by
  induction exts generalizing n with
  | nil => exact h
  | cons e es ih =>
    cases e with
    | rreqUdest ud =>
      unfold AodvUU.rreqLrExts
      split
      · exact ih ((h.of_routes (seqnoRaise_routes _ n)).reply hhack _ none orig none _)
      · exact ih h
    | cost | rrepUdest | helloInterval | helloNeighborSet | other => exact ih h

theorem rreqProcessLr (h : n.Trusting) (hc : c.Trusts) (rreq : RREQ) (len : ℕ) (ipSrc : InAddr)
    (ttl : Int) : (rreqProcessLr c rreq len ipSrc ttl n).Trusting := by
  unfold AodvUU.rreqProcessLr
  split_ifs
  · exact h
  · exact h
  · exact h
  · exact h
  · have hrec := h.of_routes (rreqRecordInsert_routes (c := c) rreq.origAddr rreq.rreqId n)
    have hexts := (hrec.rreqLrReverse hc.toUnsuspecting rreq ipSrc).rreqLrExts hc.hack
      rreq.origAddr rreq.exts
    dsimp only
    unfold rreqLrAnswer
    split
    · exact (hexts.of_routes (seqnoRaise_routes _ _)).reply hc.hack _ none _ none _
    · split
      · exact hexts.of_routes (rreqForward_routes _ _ _ _ _)
      · split
        · unfold rreqLrIntermediate
          dsimp only
          have hfirst := fun m rev fwd => hexts.reply hc.hack m none rev fwd rrepSize
          split
          · exact (hfirst _ _ _).reply hc.hack _ none _ _ _
          · exact hfirst _ _ _
        · exact hexts.of_routes (rreqForward_routes _ _ _ _ _)

theorem rreqReverse (h : n.Trusting) (hc : c.Unsuspecting) {rreq : RREQ} {ipSrc : InAddr} {cost : ℚ}
    (hr : rreqReverse c rreq ipSrc cost n = some n') : n'.Trusting := by
  unfold AodvUU.rreqReverse at hr
  dsimp only at hr
  split at hr
  · cases hr
    exact h.rtTableInsertWithChannel _ _ _ _ _ _ rfl _ _
  · next revRt hfind =>
    split at hr
    · cases hr
      exact h.rtTableUpdateGen hc _ _ _ _ _ _ _ (h.found hfind).unflagged
    · cases hr

theorem rreqRelay (h : n.Trusting) (hhack : c.conf.unidirHack = false) (rreq : RREQ) (ttl : Int) :
    (rreqRelay c rreq ttl n).Trusting := by
  unfold AodvUU.rreqRelay
  split
  · exact h.of_routes (rreqForward_routes _ _ _ _ _)
  · next fwdRt _ =>
    split
    · exact (h.delete fwdRt.destAddr).of_routes (rreqForward_routes _ _ _ _ _)
    · split
      · unfold rreqIntermediate
        dsimp only
        have hfirst := fun m rev fwd => h.reply hhack m (some fwdRt.channel) rev fwd rreqCostSize
        split
        · exact (hfirst _ _ _).reply hhack _ (some _) _ _ _
        · exact hfirst _ _ _
      · exact h.of_routes (rreqForward_routes _ _ _ _ _)

theorem rreqHandle (h : n.Trusting) (hc : c.Trusts) (rreq : RREQ) (ipSrc : InAddr) (ttl : Int) :
    (rreqHandle c rreq ipSrc ttl n).Trusting := by
  have hrec : (rreqRecordInsertWithCost c rreq.origAddr rreq.rreqId
      (lastCost (c.ext.log maxNum) rreq.exts) n).Trusting :=
    h.of_routes (rreqRecordInsertWithCost_routes _ _ _ n)
  rcases rreqHandle_cases c rreq ipSrc ttl n with ⟨-, heq⟩ | ⟨-, ⟨-, heq⟩ | ⟨n₁, hrev, heq⟩⟩
  · rw [heq]
    exact h
  · rw [heq]
    exact hrec
  · have hroute := hrec.rreqReverse hc.toUnsuspecting hrev
    rw [heq]
    unfold rreqAnswer
    split
    · exact (hroute.of_routes (seqnoRaise_routes _ _)).reply hc.hack _ (some _) _ none _
    · exact hroute.rreqRelay hc.hack _ ttl

theorem rreqProcess (h : n.Trusting) (hc : c.Trusts) (rreq : RREQ) (len : ℕ) (ipSrc : InAddr)
    (ttl : Int) : (rreqProcess c rreq len ipSrc ttl n).Trusting := by
  unfold AodvUU.rreqProcess
  split_ifs
  · exact h.rreqProcessLr hc rreq len ipSrc ttl
  · exact h
  · exact h
  · exact h
  · exact h.rreqHandle hc _ ipSrc ttl

/-! ## Route errors -/

theorem rerrStep (rerr : RERR) (ipSrc : InAddr) (w : RerrWalk) (ud : Udest)
    (h : w.node.Trusting) : (rerrStep c rerr ipSrc w ud).node.Trusting := by
  have happly : (rerrApply c rerr ud w.node).Trusting := by
    have hdrop : (ifqDropByDest ud.destAddr w.node).Trusting := h.of_tbl rfl
    have hinv : (if rerr.n then ifqDropByDest ud.destAddr w.node
        else rtTableInvalidate c ud.destAddr (ifqDropByDest ud.destAddr w.node)).Trusting := by
      split
      · exact hdrop
      · exact hdrop.invalidate _
    unfold rerrApply
    refine Node.Trusting.modRt_same ?_ _ (fun _ => rfl) fun _ => rfl
    split
    · exact hinv.rreqRouteDiscovery _ _
    · exact hinv
  have hadd : (rerrAdd rerr ud.destAddr
      { w with node := rerrApply c rerr ud w.node }).node.Trusting := by
    unfold rerrAdd
    dsimp only
    split_ifs
    all_goals exact happly.of_tbl rfl
  unfold AodvUU.rerrStep
  split
  · exact h
  · split
    · dsimp only
      split
      · exact hadd.precursorListDestroy _
      · exact hadd
    · exact h

theorem rerrProcess (h : n.Trusting) (rerr : RERR) (len : ℕ) (ipSrc : InAddr)
    (recs : List RerrRecord) : (rerrProcess c rerr len ipSrc recs n).2.Trusting := by
  unfold AodvUU.rerrProcess
  split
  · exact h
  · dsimp only
    split
    · exact h
    · unfold rerrWalk
      have hwalk : (rerr.walk.foldl (AodvUU.rerrStep c rerr ipSrc) { node := n }).node.Trusting :=
        List.foldlRecOn (motive := fun w : RerrWalk => w.node.Trusting) _ _ h
          fun w hw ud _ => rerrStep rerr ipSrc w ud hw
      dsimp only
      split
      · exact hwalk.of_routes (sendRerr_routes _ _)
      · exact hwalk

/-! ## Hellos -/

theorem helloUpdateTimeout (h : n.Trusting) (a : InAddr) (time : Int) :
    (helloUpdateTimeout c a time n).Trusting :=
  h.modRt_same a (fun _ => rfl) fun _ => rfl

theorem helloRoute (h : n.Trusting) (hc : c.Unsuspecting) (hello : RREP) (interval : BitVec 32)
    {flags : BitVec 16} (hflags : hasFlag flags rtUnidir = false) :
    (helloRoute c hello interval flags n).Trusting := by
  unfold AodvUU.helloRoute
  dsimp only
  split
  · refine Node.Trusting.helloUpdateTimeout (Node.Trusting.modRt ?_ _ fun rt hrt => ?_) _ _
    · exact h.rtTableInsert _ _ _ _ _ _ hflags
    · exact ⟨hrt.unflagged, hrt.unawaited⟩
  · split_ifs
    · exact h.helloUpdateTimeout _ _
    · exact h.modRt_same _ (fun _ => rfl) fun _ => rfl
    · exact (h.rtTableUpdateGen hc none _ _ _ _ _ _ hflags).helloUpdateTimeout _ _

theorem helloProcess (h : n.Trusting) (hc : c.Trusts) (hello : RREP) :
    (helloProcess c hello n).Trusting := by
  have hpre : (helloAcknowledge c hello (helloCount hello (helloRecord hello n))).Trusting :=
    h.of_routes (by simp)
  unfold AodvUU.helloProcess
  dsimp only
  refine hpre.helloRoute hc.toUnsuspecting hello _ (helloExts_unflagged _ _ ?_)
  rw [hc.hack]
  cases hfind : rtTableFind (helloAcknowledge c hello (helloCount hello (helloRecord hello n)))
      hello.destAddr with
  | none => rfl
  | some rt =>
    show hasFlag ((rt.flags.setWidth 8).setWidth 16) rtUnidir = false
    rw [hasFlag_helloFlags]
    exact (hpre.found hfind).unflagged

/-! ## Timers -/

theorem localRepairTimeout (h : n.Trusting) (a : InAddr) : (localRepairTimeout c a n).Trusting := by
  have hend : (n.modRt a fun rt => { rt with flags := rt.flags &&& ~~~rtRepair }).Trusting :=
    h.modRt a fun rt hrt => ⟨hasFlag_and_right hrt.unflagged, hrt.unawaited⟩
  unfold AodvUU.localRepairTimeout
  dsimp only
  refine Node.Trusting.modRt_same (Node.Trusting.precursorListDestroy ?_ a) a (fun _ => rfl)
    fun _ => rfl
  split
  · exact hend
  · exact hend.of_routes (by simp)

theorem rtTimerTimeout (h : n.Trusting) (hc : c.Unsuspecting) (a : InAddr) :
    (rtTimerTimeout c a n).Trusting := by
  have hoff : (n.modRt a fun rt => { rt with rtTimer := rt.rtTimer.remove }).Trusting :=
    h.modRt_same a (fun _ => rfl) fun _ => rfl
  unfold AodvUU.rtTimerTimeout
  dsimp only
  split
  · split
    · unfold routeExpireTimeout
      split
      · exact hc.linkBreak a _ hoff
      · exact (hoff.invalidate a).precursorListDestroy a
    · exact hoff.delete a
    · exact hoff.localRepairTimeout a
    · exact hoff
  · exact h

theorem routeDiscoveryTimeout (h : n.Trusting) (i : ℕ) :
    (routeDiscoveryTimeout c i n).Trusting := by
  unfold AodvUU.routeDiscoveryTimeout
  split
  · exact h
  · next s _ =>
    split
    · unfold routeDiscoveryRetry
      have hset : ({ n with seekhead := n.seekhead.set i (s.retry c) } : Node).Trusting := h.of_tbl rfl
      have hflood : ∀ (n : Node) a v ttl flags, n.Trusting →
          (onEachChannel (rreqSendWithChannel c a v ttl flags) n).Trusting := fun n a v ttl flags hn =>
        hn.of_routes (onEachChannel_routes (fun i n => by simp) n)
      refine hflood _ _ _ _ _ ?_
      split
      · exact hset
      · exact hset.keepWaiting _
    · unfold noRouteFound
      have hdrop := h.packetQueueSetVerdict (c := c) s.destAddr .drop
      have hgone : ∀ l, ({ AodvUU.packetQueueSetVerdict c s.destAddr .drop n with
          seekhead := l } : Node).Trusting := fun l => hdrop.of_tbl rfl
      dsimp only
      split
      · exact hgone _
      · split
        · exact (hgone _).localRepairTimeout _
        · exact hgone _

theorem helloTimeout (h : n.Trusting) (hc : c.Unsuspecting) (a : InAddr) :
    (helloTimeout c a n).Trusting := by
  unfold AodvUU.helloTimeout
  dsimp only
  split
  · refine hc.linkBreak a _ ?_
    split
    · refine Node.Trusting.of_routes ?_ (ifqBuffer_routes a _)
      exact h.modRt a fun rt hrt => ⟨hrt.repair, hrt.unawaited⟩
    · exact h
  · exact h

theorem ackTimer (h : n.Trusting) (a : InAddr) : AodvUU.timerStep c (.ackTimer a) n = n := by
  unfold AodvUU.timerStep
  dsimp only
  rw [(h.rt a).unawaited, if_neg Bool.false_ne_true]

theorem timerStep (h : n.Trusting) (hc : c.Unsuspecting) (e : Event) :
    (timerStep c e n).Trusting := by
  cases e with
  | rtTimer a => exact h.rtTimerTimeout hc a
  | ackTimer a =>
    rw [h.ackTimer a]
    exact h
  | rtHelloTimer a =>
    unfold AodvUU.timerStep
    dsimp only
    split
    · refine Node.Trusting.helloTimeout (h.modRt a fun rt hrt => ?_) hc a
      exact ⟨hrt.unflagged, hrt.unawaited⟩
    · exact h
  | seekTimer i => exact h.routeDiscoveryTimeout i
  | helloTimer =>
    unfold AodvUU.timerStep
    dsimp only
    split
    · exact h.of_routes (by simp)
    · exact h
  | packetQueueTimer => exact h.of_routes (packetQueueGarbageCollect_routes n)
  | start | recv | packetFailed | rerrRecordTimer | ifqueue => exact h
  | rreqRecordTimer | blacklistTimer | waitOnRebootTimer => exact h.of_tbl rfl

/-! ## Packets -/

theorem noRoute (h : n.Trusting) (p : Packet) (fwd rev : Option RtTable) :
    (noRoute c p fwd rev n).Trusting := by
  have hrerr : (noRouteRerr c p fwd n).Trusting := by
    unfold noRouteRerr
    cases fwd with
    | none => exact h.of_tbl rfl
    | some fwdRt => exact Node.Trusting.timeout (n := aodvSocketNewMsg _ n) (h.of_tbl rfl) _ _
  unfold AodvUU.noRoute
  exact hrerr.of_routes (by simp)

theorem seekRoute (h : n.Trusting) (p : Packet) (fwd : Option RtTable) :
    (seekRoute c p fwd n).Trusting := by
  have hadd : (packetQueueAdd c p p.daddr n).Trusting := h.of_routes (packetQueueAdd_routes _ _ _)
  unfold AodvUU.seekRoute
  dsimp only
  split
  · split
    · exact hadd.rreqLocalRepair _
    · exact hadd.rreqRouteDiscovery _ _
  · exact hadd.rreqRouteDiscovery _ _

theorem processUnicast (h : n.Trusting) (p : Packet) : (processUnicast c p n).Trusting := by
  unfold AodvUU.processUnicast
  dsimp only
  have hupd := h.rtTableUpdateRouteTimeouts (c := c) ((rtTableFind n p.daddr).map (·.destAddr))
    ((rtTableFind n p.saddr).map (·.destAddr))
  generalize AodvUU.rtTableUpdateRouteTimeouts c _ _ n = n₁ at hupd ⊢
  unfold routeUnicast
  dsimp only
  split
  · exact hupd.of_tbl rfl
  · split
    · split
      · split
        · exact hupd.noRoute _ _ _
        · exact hupd.seekRoute _ _
      · unfold forwardData
        refine Node.Trusting.of_routes ?_ (helloKeepAlive_routes _)
        exact (hupd.of_routes (sendPacket_routes p _ 0 n₁)).of_tbl rfl
    · split
      · exact hupd.noRoute _ _ _
      · exact hupd.seekRoute _ _

theorem processPacket (h : n.Trusting) (p : Packet) : (processPacket c p n).Trusting := by
  have hout : ∀ o, (n.handOut o).Trusting := fun o => h.of_tbl rfl
  unfold AodvUU.processPacket
  split_ifs
  · exact hout _
  · exact h.of_routes (sendPacket_routes _ _ _ _)
  · exact hout _
  · exact h.processUnicast p

theorem packetFailed (h : n.Trusting) (hc : c.Unsuspecting) (p : Packet) :
    (packetFailed c p n).Trusting := by
  have hdrop : ∀ n : Node, n.Trusting → (dropFailed p n).Trusting := fun n hn =>
    hn.of_routes (dropFailed_routes p n)
  unfold AodvUU.packetFailed
  split_ifs
  · exact h.of_tbl rfl
  · exact h.of_routes (packetQueueAdd_routes _ _ _)
  · split
    · split_ifs
      · exact hdrop n h
      · exact h.of_tbl rfl
      · refine Node.Trusting.rreqLocalRepair (hc.linkBreak _ _ ?_) _
        refine Node.Trusting.modRt ?_ _ fun rt hrt => ⟨hrt.repair, hrt.unawaited⟩
        exact h.of_routes (by simp)
      · exact hdrop _ (hc.linkBreak _ _ h)
    · exact hdrop n h

theorem recv (h : n.Trusting) (hc : c.Trusts) (p : Packet) (recs : List RerrRecord) :
    (recv c p (recs, n)).2.Trusting :=
  recv_cases (I := Node.Trusting) recs (h.of_routes rfl) h
    (fun _ _ _ => h.processPacket _) (fun hello _ _ => h.helloProcess hc hello)
    (fun _ m _ _ => hc.neighborAdd m p.saddr n h)
    (fun rrep _ _ _ hn => hn.rrepProcess hc.toUnsuspecting rrep _ _ _)
    (fun rreq _ _ _ hn => hn.rreqProcess hc rreq _ _ _)
    (fun rerr _ _ _ hn => hn.rerrProcess rerr _ _ recs)
    fun ack _ hn => hn.rrepAckProcess ack p.saddr

theorem step (h : n.Trusting) (hc : c.Trusts) (e : Event) (recs : List RerrRecord) :
    (step c e (recs, n)).2.Trusting := by
  have htimer : (AodvUU.timerStep c e n).Trusting := h.timerStep hc.toUnsuspecting e
  cases e with
  | start => exact h.of_routes (startAODVUUAgent_routes n)
  | recv p => exact h.recv hc p recs
  | packetFailed p => exact h.packetFailed hc.toUnsuspecting p
  | ifqueue q => exact h.of_tbl rfl
  | rerrRecordTimer r =>
    unfold AodvUU.step
    dsimp only
    split <;> exact h
  | rtTimer | ackTimer | rtHelloTimer | seekTimer | rreqRecordTimer | blacklistTimer | helloTimer
  | packetQueueTimer | waitOnRebootTimer => exact htimer

end Node.Trusting

/-! ## Every run -/

/-- Without `unidir_hack` an agent never suspects a link. -/
theorem reachable_trusting {cf : Conf} {ext : Extern} {a : InAddr} {n : Node}
    (hc : ∀ env, Ctx.Trusts ⟨cf, ext, env⟩) (h : Reachable cf ext a n) : n.Trusting := by
  induction h with
  | init env =>
    intro rt hrt
    obtain ⟨i, hi⟩ := HashTable.mem_entries.mp hrt
    cases hi
  | step env recs e _ _ ih => exact ih.step (hc env) e recs

/-! ## The described functions -/

section Described

variable {c : Ctx}

theorem neighborLinkBreakDescribed_trusting (a : InAddr) {n : Node} (h : n.Trusting) :
    (neighborLinkBreakDescribed c a n).Trusting := by
  refine neighborLinkBreakDescribed_keeps (I := Node.Trusting) ?_
    fun _ _ _ _ hm => hm.of_routes (aodvSocketSend_routes _ _ _ _)
  exact linkBreakWalk_keeps (I := Node.Trusting)
    (fun b _ hm => hm.modRt b fun rt hrt => ⟨hrt.repair, hrt.unawaited⟩)
    (fun b _ hm => hm.invalidate b) (fun b w hw => hw.of_routes (linkBreakRerr_routes b w)) a h

theorem described_unsuspecting (log : ℚ → ℚ) (cf : Conf) (env : Env) :
    Ctx.Unsuspecting ⟨cf, .described log cf, env⟩ where
  linkBreak a _ hn := neighborLinkBreakDescribed_trusting a hn
  neighborAdd _ src n hn := by
    have hbreak : Ctx.Unsuspecting ⟨cf, .linkBreak log cf, env⟩ :=
      ⟨fun a _ hn => neighborLinkBreakDescribed_trusting a hn, fun _ _ _ hn => hn⟩
    show (neighborAddDescribed ⟨cf, .linkBreak log cf, env⟩ src n).Trusting
    unfold neighborAddDescribed
    split
    · exact hn.rtTableInsert _ _ _ _ _ _ rfl
    · next rt hfind =>
      have hupdate := hn.rtTableUpdateGen hbreak none src src 1 rt.destSeqno
        (msecs cf.activeRouteTimeout) .valid (hn.found hfind).unflagged
      split
      · exact hn
      · dsimp only
        split
        · exact hupdate.helloUpdateTimeout _ _
        · exact hupdate

end Described

end AodvUU

import AodvUU.RouteTimers
import AodvUU.Transmits

/-! # Packets that wait for a route

The functions that store a route release the packets that wait for its destination when they find
a search for it. A local repair searches for the lost next hop, not for the destination. -/
namespace AodvUU

variable {c : Ctx}

/-! ## Calls -/

/-- A call that stores a route to `d`, as the handlers make them: they look `d` up first, and none
passes `RT_INET_DEST`. -/
inductive RouteCall (c : Ctx) (d : InAddr) (n : Node) : Node → Prop
  | insert (next : InAddr) (hops : BitVec 8) (seqno life : BitVec 32) (state : RtState)
      (flags : BitVec 16) (hinet : hasFlag flags rtInetDest = false) (hnew : n.lookup d = none) :
      RouteCall c d n (rtTableInsert c d next hops seqno life state flags n)
  | insertWithChannel (next : InAddr) (hops : BitVec 8) (seqno life : BitVec 32) (state : RtState)
      (flags : BitVec 16) (ch : Int) (cost : ℚ) (hinet : hasFlag flags rtInetDest = false)
      (hnew : n.lookup d = none) :
      RouteCall c d n (rtTableInsertWithChannel c d next hops seqno life state flags ch cost n)
  | update (next : InAddr) (hops : BitVec 8) (seqno life : BitVec 32) (state : RtState)
      (flags : BitVec 16) (hinet : hasFlag flags rtInetDest = false) (hfound : n.lookup d ≠ none) :
      RouteCall c d n (rtTableUpdate c d next hops seqno life state flags n)
  | updateWithChannel (next : InAddr) (hops : BitVec 8) (seqno life : BitVec 32) (state : RtState)
      (flags : BitVec 16) (ch : Int) (cost : ℚ) (hinet : hasFlag flags rtInetDest = false)
      (hfound : n.lookup d ≠ none) :
      RouteCall c d n (rtTableUpdateWithChannel c d next hops seqno life state flags ch cost n)

/-- The packets that waited for `d` have left the queue, handed to `sendPacket` one after the
other for the next hop of the route. -/
structure Node.Releases (c : Ctx) (d : InAddr) (n n' : Node) : Prop where
  gone : ∀ qp ∈ n'.pq, qp.destAddr ≠ d
  sent : ∃ m : Node, m.ipaddr = n.ipaddr ∧ m.channelNum = n.channelNum ∧ n.out <+: m.out ∧
    n'.out = (sendQueued c (n'.rt d).nextHop (n.pq.filter (·.destAddr = d)) 0 m).out

/-- The external link break leaves the packet queue and the searches alone. -/
structure Ctx.KeepsQueue (c : Ctx) : Prop where
  breaksLinks : c.BreaksLinks
  pq : ∀ a n, (c.ext.neighborLinkBreak c.env a n).pq = n.pq
  sought : ∀ a n, (c.ext.neighborLinkBreak c.env a n).sought = n.sought

/-! ## The release -/

theorem filter_eq_nil_of_ne {l : List QPkt} {d : InAddr} (h : ∀ qp ∈ l, qp.destAddr ≠ d) :
    l.filter (·.destAddr = d) = [] := by
  refine List.filter_eq_nil_iff.mpr fun qp hqp => ?_
  simpa using h qp hqp

theorem flushSeek_unsought {d : InAddr} {n : Node} (h : seekListFind n d = none) :
    flushSeek c d n = n := by
  unfold flushSeek
  rw [h]
  split <;> rfl

theorem flushSeek_sought {d : InAddr} {n : Node} (hwf : RtWf n) {rt : RtTable}
    (hrt : n.lookup d = some rt) (hv : rt.state = .valid)
    (hinet : hasFlag rt.flags rtInetDest = false) (h : seekListFind n d ≠ none) :
    flushSeek c d n = refreshQueued c rt d (sendQueued c rt.nextHop
      (n.pq.filter (·.destAddr = d)) 0 (takeQueued d (seekListRemove d n))) := by
  obtain ⟨s, hs⟩ := Option.ne_none_iff_exists'.mp h
  have hfind : rtTableFind (seekListRemove d n) d = some rt := by
    have hwf' : RtWf (seekListRemove d n) := hwf.of_table rfl rfl
    exact (hwf'.rtTableFind_eq_lookup d).trans hrt
  unfold flushSeek
  rw [rt_of_lookup hrt, if_pos hv, hs, hinet]
  simp only [packetQueueSetVerdict, hfind, Bool.false_eq_true, if_false]
  rfl

theorem flushSeek_releases_iff {d : InAddr} {n m : Node} (hwf : RtWf m) {rt : RtTable}
    (hrt : m.lookup d = some rt) (hv : rt.state = .valid)
    (hinet : hasFlag rt.flags rtInetDest = false) (hip : m.ipaddr = n.ipaddr)
    (hch : m.channelNum = n.channelNum) (hout : n.out <+: m.out) (hpq : m.pq = n.pq) :
    n.Releases c d (flushSeek c d m) ↔
      (∀ qp ∈ n.pq, qp.destAddr ≠ d) ∨ seekListFind m d ≠ none := by
  cases hs : seekListFind m d with
  | none =>
    rw [flushSeek_unsought hs]
    constructor
    · intro hrel
      exact .inl (hpq ▸ hrel.gone)
    · rintro (hnone | hfound)
      · refine ⟨hpq ▸ hnone, m, hip, hch, hout, ?_⟩
        rw [filter_eq_nil_of_ne hnone]
        rfl
      · exact absurd rfl hfound
  | some s =>
    have hfound : seekListFind m d ≠ none := by
      rw [hs]
      exact Option.some_ne_none s
    refine ⟨fun _ => .inr (Option.some_ne_none s), fun _ => ?_⟩
    have hflush := flushSeek_sought (c := c) hwf hrt hv hinet hfound
    have hnext : ((flushSeek c d m).rt d).nextHop = rt.nextHop := by
      obtain ⟨rt', hrt', hage⟩ :=
        (flushSeek_effects d m : Effects c {} _ _).ages.lookup_eq_some hrt
      rw [rt_of_lookup hrt', hage.nextHop]
    refine ⟨fun qp hqp => ?_, takeQueued d (seekListRemove d m), hip, hch, hout, ?_⟩
    · rw [hflush, refreshQueued_eq, sendQueued_eq] at hqp
      obtain ⟨-, hne⟩ := List.mem_filter.mp hqp
      simpa using hne
    · rw [hnext, hflush, refreshQueued_out, hpq]

/-! ## Insertions and updates -/

theorem rtTableAdd_releases_iff {d next : InAddr} {hops : BitVec 8} {seqno life : BitVec 32}
    {state : RtState} {flags : BitVec 16} {ch : Int} {cost : ℚ} {n : Node} (hwf : RtWf n)
    (hinet : hasFlag flags rtInetDest = false) (hnew : n.lookup d = none) {rt : RtTable}
    (hrt : (rtTableAdd c d next hops seqno life state flags ch cost n).lookup d = some rt)
    (hv : rt.state = .valid) :
    n.Releases c d (rtTableAdd c d next hops seqno life state flags ch cost n) ↔
      (∀ qp ∈ n.pq, qp.destAddr ≠ d) ∨ seekListFind n d ≠ none := by
  have hlook : (storeEntry (newEntry c d next hops seqno life state flags ch cost) n).lookup d =
      some (newEntry c d next hops seqno life state flags ch cost) := by
    rw [lookup_storeEntry]
    exact if_pos rfl
  have hstate : state = .valid := by
    obtain ⟨rt', hrt', hage⟩ := (flushSeek_effects d (storeEntry (newEntry c d next hops seqno life
      state flags ch cost) n) : Effects c {} _ _).ages.lookup_eq_some hlook
    cases hrt.symm.trans hrt'
    rcases hage.aged with ⟨hs, -⟩ | ⟨hs, -, -⟩
    · exact hs.symm.trans hv
    · exact hs
  have hstore : RtWf (storeEntry (newEntry c d next hops seqno life state flags ch cost) n) :=
    hwf.storeEntry rfl ⟨rfl, rfl⟩ hnew
  exact flushSeek_releases_iff hstore hlook hstate hinet rfl rfl (List.prefix_refl _) rfl

theorem beforeUpdate_keepsQueue (hq : c.KeepsQueue) (a : InAddr) (hops : BitVec 8)
    (state : RtState) (n : Node) :
    (beforeUpdate c a hops state n).ipaddr = n.ipaddr ∧
    (beforeUpdate c a hops state n).channelNum = n.channelNum ∧
    n.out <+: (beforeUpdate c a hops state n).out ∧
    (beforeUpdate c a hops state n).pq = n.pq ∧
    (beforeUpdate c a hops state n).sought = n.sought := by
  have hbreak : ∀ m : Node, m.ipaddr = n.ipaddr → m.channelNum = n.channelNum → m.out = n.out →
      m.pq = n.pq → m.sought = n.sought →
      (breakOneHop c a m).ipaddr = n.ipaddr ∧ (breakOneHop c a m).channelNum = n.channelNum ∧
      n.out <+: (breakOneHop c a m).out ∧ (breakOneHop c a m).pq = n.pq ∧
      (breakOneHop c a m).sought = n.sought := by
    intro m hip hch hout hpq hs
    have hb := hq.breaksLinks a (m.modRt a fun rt =>
      { rt with lastHelloTime := 0, helloCnt := 0, helloTimer := rt.helloTimer.remove })
    obtain ⟨l, hl, -⟩ := hb.emits
    refine ⟨hb.ipaddr.trans hip, hb.channelNum.trans hch, ⟨l, ?_⟩, (hq.pq a _).trans hpq,
      (hq.sought a _).trans hs⟩
    rw [← hout]
    exact hl.symm
  unfold beforeUpdate
  dsimp only
  split_ifs
  · exact hbreak _ rfl rfl rfl rfl rfl
  · exact hbreak _ rfl rfl rfl rfl rfl
  · exact ⟨rfl, rfl, List.prefix_refl _, rfl, rfl⟩
  · exact ⟨rfl, rfl, List.prefix_refl _, rfl, rfl⟩

theorem hasFlag_updateFlags {flags : BitVec 16} (h : hasFlag flags rtInetDest = false)
    (rt : RtTable) (state : RtState) : hasFlag (updateFlags rt state flags) rtInetDest = false := by
  unfold updateFlags
  split
  · have hand : flags &&& ~~~rtRepair &&& rtInetDest = flags &&& rtInetDest := by
      rw [BitVec.and_assoc, show ~~~rtRepair &&& rtInetDest = rtInetDest from rfl]
    rw [hasFlag, hand]
    exact h
  · exact h

theorem rtTableUpdateGen_releases_iff (hl : c.LinkBreaks {}) (hq : c.KeepsQueue)
    {chan : Option (Int × ℚ)} {d next : InAddr} {hops : BitVec 8} {seqno life : BitVec 32}
    {state : RtState} {flags : BitVec 16} {n : Node} (hwf : RtWf n)
    (hinet : hasFlag flags rtInetDest = false) (hfound : n.lookup d ≠ none) {rt : RtTable}
    (hrt : (rtTableUpdateGen c chan d next hops seqno life state flags n).lookup d = some rt)
    (hv : rt.state = .valid) :
    n.Releases c d (rtTableUpdateGen c chan d next hops seqno life state flags n) ↔
      (∀ qp ∈ n.pq, qp.destAddr ≠ d) ∨ seekListFind n d ≠ none := by
  have hbefore : RtWf (beforeUpdate c d hops state n) := effects_preserve_rtWf hwf
    (beforeUpdate_effects (fun _ _ h => h) hl.widen d hops state n)
  obtain ⟨rt₀, hrt₀⟩ := Option.ne_none_iff_exists'.mp
    ((beforeUpdate_ages hl d hops state n).lookup_ne_none hfound)
  obtain ⟨hip, hch, hout, hpq, hsought⟩ := beforeUpdate_keepsQueue hq d hops state n
  have hplace := RtTable.write_samePlace c.now next hops seqno life state
    (updateFlags (n.rt d) state flags) chan
  have hlook : ((beforeUpdate c d hops state n).modRt d (·.write c.now next hops seqno life state
      (updateFlags (n.rt d) state flags) chan)).lookup d = some (rt₀.write c.now next hops seqno
        life state (updateFlags (n.rt d) state flags) chan) := by
    rw [lookup_modRt d d fun rt => (hplace rt).destAddr, if_pos rfl, hrt₀]
    rfl
  have hstate : state = .valid := by
    obtain ⟨rt', hrt', hage⟩ := (flushSeek_effects d _ : Effects c {} _ _).ages.lookup_eq_some hlook
    cases hrt.symm.trans hrt'
    rcases hage.aged with ⟨hs, -⟩ | ⟨hs, -, -⟩
    · exact hs.symm.trans hv
    · exact hs
  have hflush := flushSeek_releases_iff (c := c) (n := n)
    (m := (beforeUpdate c d hops state n).modRt d (·.write c.now next hops seqno life state
      (updateFlags (n.rt d) state flags) chan)) (hbefore.rewrite (.entry _ d _ hplace)) hlook hstate
    (by rw [RtTable.write_flags]; exact hasFlag_updateFlags hinet (n.rt d) state) hip hch hout hpq
  have hseek : seekListFind ((beforeUpdate c d hops state n).modRt d (·.write c.now next hops seqno
      life state (updateFlags (n.rt d) state flags) chan)) d = none ↔ seekListFind n d = none := by
    rw [seekListFind_eq_none, seekListFind_eq_none, ← hsought]
    rfl
  exact hflush.trans (or_congr_right (not_congr hseek))

/-- A call that leaves the entry for `d` valid releases the packets for `d` exactly when none
waits or a search for `d` is in the seek list. -/
theorem call_releases_iff (hl : c.LinkBreaks {}) (hq : c.KeepsQueue) {d : InAddr} {n n' : Node}
    (hwf : RtWf n) (hcall : RouteCall c d n n') {rt : RtTable} (hrt : n'.lookup d = some rt)
    (hv : rt.state = .valid) :
    n.Releases c d n' ↔ (∀ qp ∈ n.pq, qp.destAddr ≠ d) ∨ seekListFind n d ≠ none := by
  cases hcall with
  | insert next hops seqno life state flags hinet hnew =>
    rw [rtTableInsert_eq, if_pos hnew] at hrt ⊢
    exact rtTableAdd_releases_iff hwf hinet hnew hrt hv
  | insertWithChannel next hops seqno life state flags ch cost hinet hnew =>
    unfold rtTableInsertWithChannel at hrt ⊢
    split_ifs at hrt ⊢
    · rw [hnew] at hrt
      cases hrt
    · rw [hnew] at hrt
      cases hrt
    · exact rtTableAdd_releases_iff hwf hinet hnew hrt hv
  | update next hops seqno life state flags hinet hfound =>
    exact rtTableUpdateGen_releases_iff hl hq hwf hinet hfound hrt hv
  | updateWithChannel next hops seqno life state flags ch cost hinet hfound =>
    exact rtTableUpdateGen_releases_iff hl hq hwf hinet hfound hrt hv

/-! ## The described link break -/

theorem linkBreakWalk_pq (a : InAddr) (n : Node) : (linkBreakWalk c a n).2.pq = n.pq := by
  refine linkBreakWalk_keeps (I := fun m => m.pq = n.pq) (fun _ _ hm => hm) (fun b m hm => ?_)
    (fun b w hw => ?_) a rfl
  · rw [← hm]
    unfold rtTableInvalidate
    split
    · rfl
    · split <;> rfl
  · rw [← hw]
    unfold linkBreakRerr
    dsimp only
    split_ifs <;> rfl

theorem described_keepsQueue (log : ℚ → ℚ) (cf : Conf) (env : Env) :
    Ctx.KeepsQueue ⟨cf, .described log cf, env⟩ where
  breaksLinks := described_breaksLinks log cf env
  pq a n := neighborLinkBreakDescribed_keeps (I := fun m => m.pq = n.pq) (linkBreakWalk_pq a n)
    fun _ _ _ _ hm => by
      rw [aodvSocketSend_frame]
      exact hm
  sought a n := neighborLinkBreakDescribed_sought a n

/-! ## A route that is found -/

def foundNode : Node :=
  rtTableInsertWithChannel (sampleCtx 2000) 9 2 2 6 3000 .valid 0 0 1 searchingNode

theorem searchingNode_releases : searchingNode.pq.map QPkt.destAddr = [9] ∧
    searchingNode.Releases (sampleCtx 2000) 9 foundNode := by
  have hreach : Reachable {} (.described sampleLog {}) 1 searchingNode :=
    .step { now := 1000 } [] (.recv (ownData 1 9)) trivial (.init { now := 0 })
  have hwf := reachable_rtWf (described_within trivial (fun _ _ h => h) sampleLog {}) hreach
  have hsome : (foundNode.lookup 9).isSome := by decide +kernel
  obtain ⟨rt, hrt⟩ := Option.isSome_iff_exists.mp hsome
  have hv : (foundNode.rt 9).state = .valid := by decide +kernel
  have hnone : (searchingNode.lookup 9).isNone := by decide +kernel
  have hsought : (seekListFind searchingNode 9).isSome := by decide +kernel
  refine ⟨by decide +kernel, (call_releases_iff (described_linkBreaks sampleLog {} { now := 2000 })
    (described_keepsQueue sampleLog {} { now := 2000 }) hwf (.insertWithChannel 2 2 6 3000 .valid 0 0
      1 rfl (Option.isNone_iff_eq_none.mp hnone)) hrt ?_).mpr
        (.inr (Option.ne_none_iff_isSome.mpr hsought))⟩
  rw [← rt_of_lookup hrt]
  exact hv

/-! ## A route that is repaired -/

/-- Agent 2 answers the repair that a packet for 9 has started. -/
def repairReply : Packet where
  ptype := .aodvuu
  saddr := 2
  daddr := 1
  ttl := 5
  prevHop := 2
  len := rrepSize
  msg := some (.rrep (rrepCreate rrepLocalRepair 0 2 8 1 3000))

/-- The reply makes the route to 9 valid; the search was for 2, and the packet for 9 stays. -/
theorem repaired_route_keeps_packets :
    ¬ ∀ n, Reachable repairConf (.described sampleLog repairConf) 1 n → ∀ env recs p,
      p.ptype = .aodvuu → ∀ d, (n.rt d).state = .invalid →
        ((step ⟨repairConf, .described sampleLog repairConf, env⟩ (.recv p) (recs, n)).2.rt d).state =
          .valid →
        ∀ qp ∈ (step ⟨repairConf, .described sampleLog repairConf, env⟩ (.recv p) (recs, n)).2.pq,
          qp.destAddr ≠ d := by
  intro hall
  have hkept := hall _ repairingNode_reachable.reachable { now := 2000 } [] repairReply rfl 9
    (by decide +kernel) (by decide +kernel)
  exact absurd hkept (by decide +kernel)

end AodvUU

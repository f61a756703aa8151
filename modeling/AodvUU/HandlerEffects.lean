import AodvUU.Effects

/-! # Effects of the handlers

One lemma for each function, from the socket up to a whole event. -/
namespace AodvUU

variable {c : Ctx} {s : Scope}

/-! ## Socket -/

theorem handOut_traffic {n₀ n : Node} {o : Output} (h : Traffic n₀ n)
    (ho : ∀ m, o.sent = some m → n₀.Sendable m) : Traffic n₀ (n.handOut o) where
  ipaddr := h.ipaddr
  seqno := h.seqno
  seqnoWrapped := h.seqnoWrapped
  tbl := h.tbl
  numEntries := h.numEntries
  numActive := h.numActive
  rerouted := h.rerouted
  sendBuf := h.sendBuf
  waiting := h.waiting
  out o' ho' := by
    rcases List.mem_append.mp ho' with ho' | ho'
    · exact h.out o' ho'
    · rw [List.mem_singleton.mp ho']
      exact Or.inr ho

theorem handOut_traffic_of_not_sent (n : Node) {o : Output} (ho : o.sent = none) :
    Traffic n (n.handOut o) :=
  handOut_traffic (Traffic.refl n) (by simp [ho])

theorem schedule_traffic {n₀ n : Node} {p : Packet} (a : InAddr) (delay : ℚ) (h : Traffic n₀ n)
    (hp : ∀ m, p.control = some m → n₀.Sendable m) : Traffic n₀ (schedule c p a delay n) := by
  unfold schedule
  split
  · refine List.foldlRecOn _ _ h fun n' hn' i _ => ?_
    exact handOut_traffic hn' (by simpa [Output.sent, Packet.control] using hp)
  · exact handOut_traffic h (by simpa [Output.sent, Packet.control] using hp)

theorem sendPacket_traffic {n₀ n : Node} {p : Packet} (a : InAddr) (delay : ℚ)
    (h : Traffic n₀ n) (hp : ∀ m, p.control = some m → n₀.Sendable m) :
    Traffic n₀ (sendPacket c p a delay n) := by
  unfold sendPacket
  split
  · split
    · exact handOut_traffic h (by simp [Output.sent])
    · exact schedule_traffic a delay h (by simpa [Packet.control] using hp)
  · split
    · exact schedule_traffic a delay h hp
    · exact handOut_traffic h (by simp [Output.sent])

theorem traffic_of_eq {n n' : Node} (ipaddr : n'.ipaddr = n.ipaddr) (seqno : n'.seqno = n.seqno)
    (wrapped : n'.seqnoWrapped = n.seqnoWrapped) (tbl : n'.tbl = n.tbl)
    (entries : n'.numEntries = n.numEntries) (active : n'.numActive = n.numActive)
    (rerouted : n'.neighborRerouted = n.neighborRerouted)
    (buf : n'.sendBuf = n.sendBuf) (pq : n'.pq = n.pq) (ifq : n'.ifqueue = n.ifqueue)
    (out : n'.out = n.out) : Traffic n n' where
  ipaddr := ipaddr
  seqno := seqno
  seqnoWrapped := wrapped
  tbl := tbl
  numEntries := entries
  numActive := active
  rerouted := rerouted
  sendBuf := buf
  waiting m hm := by simpa [Node.waiting, pq, ifq] using hm
  out o ho := Or.inl (out ▸ ho)

theorem rateLimit_traffic {n n' : Node} (h : rateLimit c n = some n') : Traffic n n' := by
  unfold rateLimit at h
  split at h
  · split at h
    · obtain ⟨r, -, rfl⟩ := Option.map_eq_some_iff.mp h
      exact traffic_of_eq rfl rfl rfl rfl rfl rfl rfl rfl rfl rfl rfl
    · split at h
      · obtain ⟨r, -, rfl⟩ := Option.map_eq_some_iff.mp h
        exact traffic_of_eq rfl rfl rfl rfl rfl rfl rfl rfl rfl rfl rfl
      · cases h
        exact Traffic.refl n
  · cases h
    exact Traffic.refl n

theorem aodvSocketSend_traffic (a : InAddr) (len : ℕ) (ttl : BitVec 8) (n : Node) :
    Traffic n (aodvSocketSend c a len ttl n) := by
  unfold aodvSocketSend
  split
  · exact Traffic.refl n
  · cases h : rateLimit c n with
    | none => exact Traffic.refl n
    | some n' =>
      have hlimit := rateLimit_traffic h
      refine sendPacket_traffic a 0 ?_ ?_
      · split
        · exact hlimit.trans (traffic_of_eq rfl rfl rfl rfl rfl rfl rfl rfl rfl rfl rfl)
        · exact hlimit
      · intro m hm
        exact Or.inr ⟨len, by simpa [controlPacket, Packet.control, eq_comm] using hm⟩

theorem aodvSocketSend_effects (a : InAddr) (len : ℕ) (ttl : BitVec 8) (n : Node) :
    Effects c s n (aodvSocketSend c a len ttl n) := .traffic (aodvSocketSend_traffic a len ttl n)

theorem setChannelNum_effects (ch : Int) (n : Node) : Effects c s n (setChannelNum ch n) :=
  .traffic (traffic_of_eq rfl rfl rfl rfl rfl rfl rfl rfl rfl rfl rfl)

/-! ## Routing table -/

theorem RtTable.updateTimeout_keeps (now : Time) (life : BitVec 32) (rt : RtTable) :
    rt.Keeps (rt.updateTimeout now life) := by
  unfold RtTable.updateTimeout
  split_ifs <;> constructor <;> simp [RtTable.PrecWf]

theorem RtTable.precursorAdd_keeps (a : InAddr) (rt : RtTable) :
    rt.Keeps (rt.precursorAdd a) := by
  unfold RtTable.precursorAdd
  split_ifs with ha
  · constructor <;> simp
  · constructor <;> simp [RtTable.PrecWf]
    intro hn hd
    exact ⟨hn, ha, hd⟩

theorem RtTable.precursorListDestroy_keeps (rt : RtTable) :
    rt.Keeps rt.precursorListDestroy := by
  constructor <;> simp [RtTable.precursorListDestroy, RtTable.PrecWf]
  omega

theorem precursorAdd_effects (a b : InAddr) (n : Node) : Effects c s n (precursorAdd a b n) :=
  .entry a _ (RtTable.precursorAdd_keeps b) n

theorem precursorListDestroy_effects (a : InAddr) (n : Node) :
    Effects c s n (precursorListDestroy a n) :=
  .entry a _ RtTable.precursorListDestroy_keeps n

theorem rtTableUpdateTimeout_effects (a : InAddr) (life : BitVec 32) (n : Node) :
    Effects c s n (rtTableUpdateTimeout c a life n) :=
  .entry a _ (RtTable.updateTimeout_keeps c.now life) n

theorem updateRouteTimeout_effects (rt : RtTable) (inet : Bool) (n : Node) :
    Effects c s n (updateRouteTimeout c rt inet n) := by
  unfold updateRouteTimeout
  split
  · have hfirst : Effects c s n (if c.conf.llfeedback ∨ inet ∨ rt.hcnt ≠ 1 ∨ rt.helloTimer.used then
        rtTableUpdateTimeout c rt.destAddr (msecs c.conf.activeRouteTimeout) n else n) := by
      split
      · exact rtTableUpdateTimeout_effects _ _ n
      · exact .refl n
    dsimp only
    split
    · exact hfirst
    · split
      · exact hfirst.trans (rtTableUpdateTimeout_effects _ _ _)
      · exact hfirst
  · exact .refl n

theorem rtTableUpdateRouteTimeouts_effects (fwd rev : Option InAddr) (n : Node) :
    Effects c s n (rtTableUpdateRouteTimeouts c fwd rev n) :=
  rtTableUpdateRouteTimeouts_keeps (I := Effects c s n)
    (fun rt inet m hm => hm.trans (updateRouteTimeout_effects rt inet m)) fwd rev (.refl n)

/-! ## Packet queue and seek list -/

theorem mem_waiting_of_pq {n : Node} {qp : QPkt} {m : AodvMsg} (hq : qp ∈ n.pq)
    (hm : qp.p.control = some m) : m ∈ n.waiting :=
  ⟨qp.p, List.mem_append_left _ (List.mem_map_of_mem hq), hm⟩

theorem traffic_of_pq_subset {n : Node} {pq : List QPkt} (k : ℕ) (h : ∀ qp ∈ pq, qp ∈ n.pq) :
    Traffic n { n with pq, pqLen := k } where
  ipaddr := rfl
  seqno := rfl
  seqnoWrapped := rfl
  tbl := rfl
  numEntries := rfl
  numActive := rfl
  rerouted := rfl
  sendBuf := rfl
  waiting m hm := by
    obtain ⟨p, hp, hm⟩ := hm
    rcases List.mem_append.mp hp with hp | hp
    · obtain ⟨qp, hq, rfl⟩ := List.mem_map.mp hp
      exact mem_waiting_of_pq (h qp hq) hm
    · exact ⟨p, List.mem_append_right _ hp, hm⟩
  out o ho := Or.inl ho

theorem packetQueueAdd_traffic {n₀ n : Node} {p : Packet} (a : InAddr) (h : Traffic n₀ n)
    (hp : ∀ m, p.control = some m → m ∈ n₀.waiting) : Traffic n₀ (packetQueueAdd c p a n) := by
  have hadd : ∀ n, Traffic n₀ n → Traffic n₀
      { n with pq := n.pq ++ [⟨a, c.now, p⟩], pqLen := n.pqLen + 1 } := by
    intro n h
    refine ⟨h.ipaddr, h.seqno, h.seqnoWrapped, h.tbl, h.numEntries, h.numActive, h.rerouted,
      h.sendBuf, ?_, h.out⟩
    rintro m ⟨q, hq, hm⟩
    simp only [List.map_append, List.map_cons, List.map_nil, List.mem_append,
      List.mem_singleton] at hq
    rcases hq with (hq | rfl) | hq
    · exact h.waiting m ⟨q, List.mem_append_left _ hq, hm⟩
    · exact hp m hm
    · exact h.waiting m ⟨q, List.mem_append_right _ hq, hm⟩
  unfold packetQueueAdd
  refine hadd _ ?_
  split
  · split
    · exact h
    · next qp rest hpq =>
      refine handOut_traffic (h.trans (traffic_of_pq_subset _ ?_)) (by simp [Output.sent])
      intro q hq
      rw [hpq]
      exact List.mem_cons_of_mem _ hq
  · exact h

theorem dropAll_traffic {α : Type*} {n₀ n : Node} (l : List α) (f : α → Output)
    (hf : ∀ x, (f x).sent = none) (h : Traffic n₀ n) :
    Traffic n₀ (l.foldl (fun n x => n.handOut (f x)) n) :=
  h.trans (Traffic.foldl l (fun n x _ => handOut_traffic_of_not_sent n (hf x)) n)

theorem packetQueueGarbageCollect_traffic (n : Node) :
    Traffic n (packetQueueGarbageCollect c n) :=
  dropAll_traffic _ (fun qp : QPkt => .drop qp.p .qTimeout) (fun _ => rfl)
    (traffic_of_pq_subset _ fun _ hq => (List.mem_filter.mp hq).1)

theorem sendQueued_traffic {n₀ n : Node} (a : InAddr) (qps : List QPkt) (delay : ℚ)
    (h : Traffic n₀ n) (hq : ∀ qp ∈ qps, qp ∈ n₀.pq) :
    Traffic n₀ (sendQueued c a qps delay n) := by
  induction qps generalizing n delay with
  | nil => exact h
  | cons qp qps ih =>
    refine ih _ (sendPacket_traffic a delay h ?_) (fun q hq' => hq q (by simp [hq']))
    exact fun m hm => Or.inl (mem_waiting_of_pq (hq qp (by simp)) hm)

theorem takeQueued_traffic (a : InAddr) (n : Node) : Traffic n (takeQueued a n) :=
  traffic_of_pq_subset _ fun _ hq => (List.mem_filter.mp hq).1

theorem refreshQueued_effects (rt : RtTable) (a : InAddr) (n : Node) :
    Effects c s n (refreshQueued c rt a n) := by
  unfold refreshQueued
  split
  · have hfirst : Effects c s n
        (rtTableUpdateTimeout c rt.destAddr (msecs c.conf.activeRouteTimeout) n) :=
      rtTableUpdateTimeout_effects _ _ n
    dsimp only
    split
    · exact hfirst
    · split
      · exact hfirst.trans (rtTableUpdateTimeout_effects _ _ _)
      · exact hfirst
  · exact .refl n

theorem packetQueueSetVerdict_effects (a : InAddr) (v : Verdict) (n : Node) :
    Effects c s n (packetQueueSetVerdict c a v n) := by
  have htake := takeQueued_traffic a n
  cases v with
  | encSend =>
    simp only [packetQueueSetVerdict]
    split
    · exact .refl n
    · split
      · exact .traffic htake
      · split
        · exact ((Effects.traffic htake).trans (rtTableUpdateTimeout_effects _ _ _)).trans
            (refreshQueued_effects _ _ _)
        · exact .traffic htake
  | send =>
    simp only [packetQueueSetVerdict]
    split
    · exact .traffic (traffic_of_pq_subset n.pqLen fun _ hq => List.mem_of_mem_eraseP hq)
    · refine (Effects.traffic (sendQueued_traffic _ _ 0 htake ?_)).trans
        (refreshQueued_effects _ _ _)
      exact fun qp hq => (List.mem_filter.mp hq).1
  | drop =>
    exact .traffic (dropAll_traffic _ (fun qp : QPkt => .drop qp.p .noRoute) (fun _ => rfl) htake)

theorem seekListRemove_traffic (a : InAddr) (n : Node) : Traffic n (seekListRemove a n) :=
  traffic_of_eq rfl rfl rfl rfl rfl rfl rfl rfl rfl rfl rfl

theorem flushSeek_effects (a : InAddr) (n : Node) : Effects c s n (flushSeek c a n) := by
  unfold flushSeek
  split
  · split
    · exact .refl n
    · exact (Effects.traffic (seekListRemove_traffic a n)).trans
        (packetQueueSetVerdict_effects _ _ _)
  · exact .refl n

/-! ## Insert and update -/

theorem rtTableAdd_effects (hw : s.write) (a next : InAddr) (hops : BitVec 8)
    (seqno life : BitVec 32) (state : RtState) (flags : BitVec 16) (ch : Int) (cost : ℚ) (n : Node)
    (h : rtTableFind n a = none ∨ n.lookup a = none) :
    Effects c s n (rtTableAdd c a next hops seqno life state flags ch cost n) :=
  (Effects.of (.insert hw _ rfl ⟨rfl, rfl⟩ h)).trans (flushSeek_effects _ _)

theorem rtTableInsert_effects (hw : s.write) (a next : InAddr) (hops : BitVec 8)
    (seqno life : BitVec 32) (state : RtState) (flags : BitVec 16) (n : Node) :
    Effects c s n (rtTableInsert c a next hops seqno life state flags n) := by
  rw [rtTableInsert_eq]
  split
  · next h => exact rtTableAdd_effects hw _ _ _ _ _ _ _ _ _ n (Or.inr h)
  · exact .refl n

theorem rtTableInsertWithChannel_effects (hw : s.write) (a next : InAddr) (hops : BitVec 8)
    (seqno life : BitVec 32) (state : RtState) (flags : BitVec 16) (ch : Int) (cost : ℚ) (n : Node)
    (h : rtTableFind n a = none) :
    Effects c s n (rtTableInsertWithChannel c a next hops seqno life state flags ch cost n) := by
  unfold rtTableInsertWithChannel
  split
  · exact .refl n
  · split
    · exact .refl n
    · exact rtTableAdd_effects hw _ _ _ _ _ _ _ _ _ n (Or.inl h)

theorem lookup_rtTableInsert (a next : InAddr) (hops : BitVec 8) (seqno life : BitVec 32)
    (state : RtState) (flags : BitVec 16) (n : Node) :
    (rtTableInsert c a next hops seqno life state flags n).lookup a ≠ none := by
  rw [rtTableInsert_eq]
  split
  · have hflush : Effects c {} _ _ := flushSeek_effects a
      (storeEntry (newEntry c a next hops seqno life state flags (-1) 100000) n)
    refine hflush.ages.lookup_ne_none ?_
    rw [lookup_storeEntry, newEntry, if_pos rfl]
    simp
  · next h => exact h

/-! ## Hello -/

theorem modNeighbor_traffic (j : ℕ) (f : NeighborInfo → NeighborInfo) (n : Node) :
    Traffic n (n.modNeighbor j f) :=
  traffic_of_eq rfl rfl rfl rfl rfl rfl rfl rfl rfl rfl rfl

theorem updateStaInfo_traffic (n : Node) : Traffic n (updateStaInfo c n) :=
  traffic_of_eq rfl rfl rfl rfl rfl rfl rfl rfl rfl rfl rfl

theorem updateNeighborInfo_traffic (n : Node) : Traffic n (updateNeighborInfo n) := by
  refine (Traffic.foldl _ ?_ n).trans (Traffic.foldl _ ?_ _)
  · intro n a _
    dsimp only
    split
    · exact modNeighbor_traffic _ _ n
    · exact traffic_of_eq rfl rfl rfl rfl rfl rfl rfl rfl rfl rfl rfl
  · intro n j _
    split
    · exact modNeighbor_traffic _ _ n
    · exact Traffic.refl n

theorem helloAdvance_traffic (n : Node) : Traffic n (helloAdvance n) :=
  traffic_of_eq rfl rfl rfl rfl rfl rfl rfl rfl rfl rfl rfl

theorem helloBroadcast_effects (n : Node) : Effects c s n (helloBroadcast c n) := by
  have hprep : Traffic n (updateNeighborInfo (updateStaInfo c (helloAdvance n))) :=
    ((helloAdvance_traffic n).trans (updateStaInfo_traffic _)).trans (updateNeighborInfo_traffic _)
  refine ((Effects.traffic hprep).trans (.of (.buffer _ ?_))).trans (aodvSocketSend_effects _ _ _ _)
  intro v hv
  rw [hprep.ipaddr] at hv
  simp only [AodvMsg.ownNumber, rrepCreate, if_true, Option.some.injEq] at hv
  exact Or.inl (hv.symm.trans hprep.seqno.symm)

theorem helloSend_effects (n : Node) : Effects c s n (helloSend c n) := by
  unfold helloSend
  split
  · exact .traffic (traffic_of_eq rfl rfl rfl rfl rfl rfl rfl rfl rfl rfl rfl)
  · dsimp only
    split
    · exact (helloBroadcast_effects n).trans
        (.traffic (traffic_of_eq rfl rfl rfl rfl rfl rfl rfl rfl rfl rfl rfl))
    · split <;> exact .traffic (traffic_of_eq rfl rfl rfl rfl rfl rfl rfl rfl rfl rfl rfl)

theorem helloStart_effects (n : Node) : Effects c s n (helloStart c n) := by
  unfold helloStart
  split
  · exact .refl n
  · refine Effects.trans ?_ (helloSend_effects _)
    exact .traffic (traffic_of_eq rfl rfl rfl rfl rfl rfl rfl rfl rfl rfl rfl)

theorem helloKeepAlive_effects (n : Node) : Effects c s n (helloKeepAlive c n) := by
  unfold helloKeepAlive
  split
  · exact helloStart_effects n
  · exact .refl n

theorem helloRecord_traffic (hello : RREP) (n : Node) : Traffic n (helloRecord hello n) := by
  unfold helloRecord
  split
  · exact modNeighbor_traffic _ _ n
  · exact traffic_of_eq rfl rfl rfl rfl rfl rfl rfl rfl rfl rfl rfl

theorem helloAcknowledge_effects (hello : RREP) (n : Node) :
    Effects c s n (helloAcknowledge c hello n) := by
  have hbuf : Effects c s n (aodvSocketNewMsg (.rrepAck (helloAck hello n)) n) := .buffer _ rfl
  exact (hbuf.trans (setChannelNum_effects _ _)).trans (aodvSocketSend_effects _ _ _ _)

theorem helloUpdateTimeout_effects (a : InAddr) (time : Int) (n : Node) :
    Effects c s n (helloUpdateTimeout c a time n) :=
  .entry a _ (fun rt => by constructor <;> simp [RtTable.PrecWf]) n

theorem helloRoute_effects (hu : c.Updates s) (hw : s.write) (hello : RREP)
    (interval : BitVec 32) (flags : BitVec 16) (n : Node) :
    Effects c s n (helloRoute c hello interval flags n) := by
  unfold helloRoute
  dsimp only
  split
  · refine ((rtTableInsert_effects hw _ _ _ _ _ _ _ n).trans (.entry _ _ (fun rt => ?_) _)).trans
      (helloUpdateTimeout_effects _ _ _)
    constructor <;> simp [RtTable.PrecWf]
  · next rt hfind =>
    split
    · exact helloUpdateTimeout_effects _ _ n
    · split
      · exact .entry _ _ (fun rt => by constructor <;> simp [RtTable.PrecWf]) n
      · exact (hu _ _ _ _ _ _ _ n (lookup_of_rtTableFind hfind)).trans
          (helloUpdateTimeout_effects _ _ _)

theorem helloProcess_effects (hu : c.Updates s) (hw : s.write) (hello : RREP) (n : Node) :
    Effects c s n (helloProcess c hello n) :=
  ((Effects.traffic ((helloRecord_traffic hello n).trans (modNeighbor_traffic _ _ _))).trans
    (helloAcknowledge_effects hello _)).trans (helloRoute_effects hu hw hello _ _ _)

/-! ## Route requests: sending -/

theorem rreqRecordInsertWithCost_traffic (orig : InAddr) (id : BitVec 32) (cost : ℚ) (n : Node) :
    Traffic n (rreqRecordInsertWithCost c orig id cost n) := by
  unfold rreqRecordInsertWithCost
  split
  · exact Traffic.refl n
  · exact traffic_of_eq rfl rfl rfl rfl rfl rfl rfl rfl rfl rfl rfl

theorem rreqBlacklistInsert_traffic (a : InAddr) (n : Node) :
    Traffic n (rreqBlacklistInsert c a n) := by
  unfold rreqBlacklistInsert
  split
  · exact Traffic.refl n
  · exact traffic_of_eq rfl rfl rfl rfl rfl rfl rfl rfl rfl rfl rfl

theorem AodvMsg.ownNumber_trunc (own : InAddr) (len : ℕ) (m : AodvMsg) :
    (m.trunc len).ownNumber own = m.ownNumber own := by
  cases m <;> rfl

theorem rreqForwardWithChannel_effects {rreq : RREQ} (size : ℕ) (ttl : Int) (ch : ℕ) {n : Node}
    (h : rreq.origAddr ≠ n.ipaddr) :
    Effects c s n (rreqForwardWithChannel c rreq size ttl ch n) := by
  have hbuf : Effects c s n (aodvSocketQueueMsg (.rreq { rreq with hcnt := rreq.hcnt + 1 }) size n) :=
    .buffer _ (by rw [AodvMsg.ownNumber_trunc]; exact if_neg h)
  exact (hbuf.trans (setChannelNum_effects _ _)).trans (aodvSocketSend_effects _ _ _ _)

theorem keepWaiting_effects (a : InAddr) (n : Node) : Effects c s n (keepWaiting c a n) := by
  unfold keepWaiting
  split
  · exact rtTableUpdateTimeout_effects _ _ n
  · exact .refl n

theorem rreqRouteDiscovery_effects (ho : s.own) (a : InAddr) (flags : BitVec 8) (n : Node) :
    Effects c s n (rreqRouteDiscovery c a flags n) := by
  unfold rreqRouteDiscovery
  split
  · exact .refl n
  · dsimp only
    refine (Effects.trans ?_ (.of (.flood ho a _ _ flags))).trans
      (.traffic (traffic_of_eq rfl rfl rfl rfl rfl rfl rfl rfl rfl rfl rfl))
    split
    · exact .refl n
    · exact keepWaiting_effects _ n

theorem markRepair_effects (a : InAddr) (n : Node) : Effects c s n (markRepair c a n) :=
  (Effects.entry a _ (fun rt => by constructor <;> simp [RtTable.PrecWf]) n).trans
    (keepWaiting_effects a _)

theorem modRreq_effects {f : RREQ → RREQ} (h : ∀ m, (f m).origAddr = m.origAddr ∧
    (f m).origSeqno = m.origSeqno) (n : Node) : Effects c s n (n.modRreq f) := by
  unfold Node.modRreq
  split
  · next m hm =>
    refine .of (.buffer (.rreq (f m)) fun v hv => Or.inr ?_)
    simpa [AodvMsg.ownNumber, h, hm] using hv
  · exact .refl n

theorem repairUdest_effects (a : InAddr) (u : RtTable) (n : Node) :
    Effects c s n (repairUdest c a u n) := by
  refine (markRepair_effects u.destAddr n).trans (modRreq_effects (fun m => ?_) _)
  split <;> simp [rreqAddUdest]

theorem rreqCreate_effects (ho : s.own) (flags : BitVec 8) (a : InAddr) (v : BitVec 32)
    (n : Node) : Effects c s n (rreqCreate flags a v n.ipaddr n) := by
  have hid : Traffic n { n with rreqId := n.rreqId + 1 } :=
    traffic_of_eq rfl rfl rfl rfl rfl rfl rfl rfl rfl rfl rfl
  refine ((Effects.traffic hid).trans (.of (.incr ho))).trans (.of (.buffer _ ?_))
  intro v hv
  left
  simpa [AodvMsg.ownNumber, Node.seqnoIncr, eq_comm] using hv

theorem rreqLocalRepair_effects (ho : s.own) (a : InAddr) (n : Node) :
    Effects c s n (rreqLocalRepair c a n) := by
  unfold rreqLocalRepair
  dsimp only
  split
  · have hseek : ∀ (sk : SeekList) (n : Node), Effects c s n (seekListInsert sk n) := fun sk n =>
      .traffic (traffic_of_eq rfl rfl rfl rfl rfl rfl rfl rfl rfl rfl rfl)
    refine Effects.trans ?_ (hseek _ _)
    refine Effects.trans ?_ (aodvSocketSend_effects _ _ _ _)
    refine Effects.trans ?_ (.foldl _ (fun n u _ => repairUdest_effects _ u n) _)
    refine Effects.trans ?_ (markRepair_effects _ _)
    have hcreate : Effects c s n
        (rreqCreate (rreqLocalRepairFlag ||| rreqDestOnly) (n.rt a).nextHop 0 n.ipaddr n) :=
      rreqCreate_effects ho _ _ _ n
    split
    · refine hcreate.trans (modRreq_effects ?_ _)
      exact fun m => ⟨rfl, rfl⟩
    · exact hcreate
  · exact .refl n

/-! ## Route replies -/

theorem suspectUnidir_effects (hl : c.LinkBreaks s) (rev : InAddr) (n : Node) :
    Effects c s n (suspectUnidir c rev n) := by
  unfold suspectUnidir
  dsimp only
  split
  · split
    · exact .refl n
    · split
      · refine ((Effects.entry _ _ (fun rt => ?_) n).trans (hl _ _)).trans
          (.entry _ _ (fun rt => ?_) _) <;> constructor <;> simp [RtTable.PrecWf]
      · exact .refl n
  · exact .refl n

theorem addPrecursors_effects (fwd rev : InAddr) (n : Node) :
    Effects c s n (addPrecursors fwd rev n) :=
  (precursorAdd_effects _ _ n).trans (precursorAdd_effects _ _ _)

theorem rrepSendGen_effects (hl : c.LinkBreaks s) (ch : Option Int) (rev : InAddr)
    (fwd : Option InAddr) (size : ℕ) (n : Node) :
    Effects c s n (rrepSendGen c ch rev fwd size n) := by
  unfold rrepSendGen
  refine Effects.trans ?_ (helloKeepAlive_effects _)
  have hsend := ((suspectUnidir_effects hl rev n).trans (setChannelNum_effects
    (ch.getD (suspectUnidir c rev n).channelNum) _)).trans (aodvSocketSend_effects
    ((setChannelNum (ch.getD (suspectUnidir c rev n).channelNum)
      (suspectUnidir c rev n)).rt rev).nextHop size maxTtl _)
  cases fwd with
  | none => exact hsend
  | some fwd => exact hsend.trans (addPrecursors_effects fwd rev _)

theorem rrepForward_effects {rrep : RREP} (size : ℕ) (rev fwd : InAddr) (ttl : Int) {n : Node}
    (h : rrep.destAddr ≠ n.ipaddr) : Effects c s n (rrepForward c rrep size rev fwd ttl n) := by
  have hqueue : Effects c s n (aodvSocketQueueMsg (.rrep rrep) size n) :=
    .buffer _ (by rw [AodvMsg.ownNumber_trunc]; exact if_neg h)
  unfold rrepForward
  refine Effects.trans ?_ (rtTableUpdateTimeout_effects _ _ _)
  refine Effects.trans ?_ (addPrecursors_effects _ _ _)
  refine Effects.trans (hqueue.trans ?_) (aodvSocketSend_effects _ _ _ _)
  exact .buffer _ (if_neg h)

theorem rrepAcknowledge_effects (rrep : RREP) (n : Node) :
    Effects c s n (rrepAcknowledge c rrep n) := by
  unfold rrepAcknowledge
  split
  · exact (Effects.buffer _ rfl).trans (aodvSocketSend_effects _ _ _ _)
  · exact .refl n

theorem rrepLrRoute_effects (hu : c.Updates s) (hw : s.write) (rrep : RREP)
    (ipSrc dest : InAddr) (n : Node) : Effects c s n (rrepLrRoute c rrep ipSrc dest n) := by
  unfold rrepLrRoute
  split
  · exact (rtTableInsert_effects hw _ _ _ _ _ _ _ n).trans
      (hu _ _ _ _ _ _ _ _ (lookup_rtTableInsert _ _ _ _ _ _ _ n))
  · next fwdRt hfind => exact hu _ _ _ _ _ _ _ n (lookup_of_rtTableFind hfind)

theorem rrepLrUdests_effects (hu : c.Updates s) (hw : s.write) (rrep : RREP)
    (ipSrc : InAddr) (n : Node) : Effects c s n (rrepLrUdests c rrep ipSrc n) := by
  refine Effects.foldl _ (fun n e _ => ?_) n
  cases e with
  | rrepUdest ud => exact rrepLrRoute_effects hu hw _ _ _ n
  | cost | rreqUdest | helloInterval | helloNeighborSet | other => exact .refl n

theorem AodvMsg.ownNumber_addUdest (own a : InAddr) (v w : BitVec 32) (m : AodvMsg)
    (h : (m.addUdest a v).ownNumber own = some w) : m.ownNumber own = some w := by
  cases m <;> simp_all [AodvMsg.addUdest, AodvMsg.ownNumber]

theorem addRerrUdest_effects (a : InAddr) (v : BitVec 32) (n : Node) :
    Effects c s n (n.addRerrUdest a v) :=
  .of (.buffer _ fun w hw => Or.inr (AodvMsg.ownNumber_addUdest _ a v w _ hw))

theorem sendRerr_effects (a : InAddr) (n : Node) : Effects c s n (sendRerr c a n) := by
  unfold sendRerr
  dsimp only
  split
  · exact aodvSocketSend_effects _ _ _ n
  · split
    · exact aodvSocketSend_effects _ _ _ n
    · exact .refl n

theorem lrRerrAdd_effects (a : InAddr) (r : LrRerr) :
    Effects c s r.node (lrRerrAdd a r).node := by
  unfold lrRerrAdd
  dsimp only
  split
  · exact .refl _
  · split
    · exact addRerrUdest_effects _ _ _
    · have hid : Traffic r.node { r.node with rerrId := r.node.rerrId + 1 } :=
        traffic_of_eq rfl rfl rfl rfl rfl rfl rfl rfl rfl rfl rfl
      exact (Effects.traffic hid).trans (.buffer _ rfl)

theorem lrRepairEntry_effects (hu : c.Updates s) (rrep : RREP)
    (ipSrc a : InAddr) (r : LrRerr) :
    Effects c s r.node (lrRepairEntry c rrep ipSrc r a).node := by
  unfold lrRepairEntry
  split
  · exact .refl _
  · next n hn =>
    refine Effects.trans ?_ (lrRerrAdd_effects a _)
    have hent : hasFlag (r.node.rt a).flags rtRepair → r.node.lookup a ≠ none := by
      intro hflag hnone
      rw [Node.rt, hnone] at hflag
      exact absurd hflag (by decide)
    simp only [lrRepaired] at hn
    split_ifs at hn with hflag <;> cases hn <;> exact hu _ _ _ _ _ _ _ _ (hent hflag)

theorem rrepLrOrigin_effects (hu : c.Updates s) (rrep : RREP) (ipSrc : InAddr) (n : Node) :
    Effects c s n (rrepLrOrigin c rrep ipSrc n) := by
  have hwalk : ∀ (l : List InAddr) (r : LrRerr),
      Effects c s r.node (l.foldl (lrRepairEntry c rrep ipSrc) r).node := by
    intro l
    induction l with
    | nil => exact fun r => .refl _
    | cons a l ih => exact fun r => (lrRepairEntry_effects hu rrep ipSrc a r).trans (ih _)
  unfold rrepLrOrigin lrRerrSend
  have h := hwalk (n.entries.map (·.destAddr)) { unicastDest := c.env.uninitAddr, node := n }
  split
  · exact h.trans (sendRerr_effects _ _)
  · exact h

structure SameTable (n n' : Node) : Prop where
  ipaddr : n'.ipaddr = n.ipaddr
  tbl : n'.tbl = n.tbl
  numEntries : n'.numEntries = n.numEntries
  numActive : n'.numActive = n.numActive
  rerouted : n'.neighborRerouted = n.neighborRerouted

theorem Traffic.sameTable {n n' : Node} (h : Traffic n n') : SameTable n n' :=
  ⟨h.ipaddr, h.tbl, h.numEntries, h.numActive, h.rerouted⟩

theorem SameTable.trans {n n' n'' : Node} (h : SameTable n n') (h' : SameTable n' n'') :
    SameTable n n'' :=
  ⟨h'.ipaddr.trans h.ipaddr, h'.tbl.trans h.tbl, h'.numEntries.trans h.numEntries,
    h'.numActive.trans h.numActive, h'.rerouted.trans h.rerouted⟩

theorem flood_sameTable (a : InAddr) (v : BitVec 32) (ttl : Int) (flags : BitVec 8) (n : Node) :
    SameTable n (onEachChannel (rreqSendWithChannel c a v ttl flags) n) := by
  refine List.foldlRecOn _ _ ⟨rfl, rfl, rfl, rfl, rfl⟩ fun n' hn' i _ => ?_
  refine SameTable.trans ?_ (aodvSocketSend_traffic _ _ _ _).sameTable
  exact hn'.trans ⟨rfl, rfl, rfl, rfl, rfl⟩

theorem seqnoRaise_sameTable (v : BitVec 32) (n : Node) : SameTable n (n.seqnoRaise v) := by
  unfold Node.seqnoRaise
  split_ifs <;> exact ⟨rfl, rfl, rfl, rfl, rfl⟩

theorem Effect.ipaddr {n n' : Node} (h : Effect c s n n') : n'.ipaddr = n.ipaddr := by
  cases h with
  | traffic h => exact h.ipaddr
  | entry | buffer | insert | setSeqno | incr => rfl
  | update hs addr => exact addr
  | invalidate a => unfold rtTableInvalidate; split <;> [rfl; split <;> rfl]
  | delete hs a => unfold rtTableDelete; split <;> rfl
  | raise hs v => exact (seqnoRaise_sameTable v n).ipaddr
  | flood hs a v ttl flags => exact (flood_sameTable a v ttl flags n).ipaddr
  | reflood hs a v ttl flags => exact (flood_sameTable a v ttl flags n).ipaddr

theorem Effects.ipaddr {n n' : Node} (h : Effects c s n n') : n'.ipaddr = n.ipaddr := by
  induction h with
  | refl => rfl
  | tail _ h ih => exact h.ipaddr.trans ih

theorem rrepLrRelay_effects {rrep : RREP} (len : ℕ) (rev : Option InAddr) (ttl : Int) {n : Node}
    (h : rrep.destAddr ≠ n.ipaddr) : Effects c s n (rrepLrRelay c rrep len rev ttl n) := by
  unfold rrepLrRelay
  split
  · exact .refl n
  · split
    · exact rrepForward_effects _ _ _ _ h
    · exact .refl n

theorem rrepLrForwarder_effects (hu : c.Updates s) (hw : s.write) {rrep : RREP} (len : ℕ)
    (ipSrc : InAddr) (ttl : Int) {n : Node} (h : rrep.destAddr ≠ n.ipaddr) :
    Effects c s n (rrepLrForwarder c rrep len ipSrc ttl n) := by
  have hroute : Effects c s n (rrepAcknowledge c rrep
      (rrepLrRoute c rrep ipSrc rrep.destAddr (rrepLrUdests c rrep ipSrc n))) :=
    ((rrepLrUdests_effects hu hw rrep ipSrc n).trans (rrepLrRoute_effects hu hw _ _ _ _)).trans
      (rrepAcknowledge_effects _ _)
  exact hroute.trans (rrepLrRelay_effects _ _ _ (hroute.ipaddr ▸ h))

theorem rrepProcessLr_effects (hu : c.Updates s) (hw : s.write) (rrep : RREP) (len : ℕ)
    (ipSrc : InAddr) (ttl : Int) (n : Node) :
    Effects c s n (rrepProcessLr c rrep len ipSrc ttl n) := by
  unfold rrepProcessLr
  split_ifs with hlen hdest horig
  · exact .refl n
  · exact .refl n
  · exact (rrepLrOrigin_effects hu rrep ipSrc n).trans (helloKeepAlive_effects _)
  · exact (rrepLrForwarder_effects hu hw _ _ _ hdest).trans (helloKeepAlive_effects _)

theorem rrepArrived_effects (rrep : RREP) (pre : Option RtTable) (n : Node) :
    Effects c s n (rrepArrived c rrep pre n) := by
  unfold rrepArrived
  dsimp only
  split
  · have hbuf : Effects c s n (aodvSocketNewMsg (.rerr (rerrCreate rerrNodelete
        (n.rt rrep.destAddr).destAddr (n.rt rrep.destAddr).destSeqno)) n) := .buffer _ rfl
    split
    · exact hbuf.trans (aodvSocketSend_effects _ _ _ _)
    · exact hbuf
  · exact .refl n

theorem rrepRelay_effects {rrep : RREP} (rev : Option InAddr) (ttl : Int) {n : Node}
    (h : rrep.destAddr ≠ n.ipaddr) : Effects c s n (rrepRelay c rrep rev ttl n) := by
  unfold rrepRelay
  split
  · exact .refl n
  · split
    · exact (setChannelNum_effects _ n).trans (rrepForward_effects _ _ _ _ h)
    · exact .refl n

theorem rrepRoute_effects (hu : c.Updates s) (hw : s.write) {rrep : RREP} {ipSrc : InAddr}
    {cost : ℚ} {n n' : Node} (h : rrepRoute c rrep ipSrc cost n = some n') :
    Effects c s n n' := by
  unfold rrepRoute at h
  split at h
  · next hfind =>
    cases h
    exact rtTableInsertWithChannel_effects hw _ _ _ _ _ _ _ _ _ n hfind
  · next fwdRt hfind =>
    split at h
    · cases h
      exact hu _ _ _ _ _ _ _ n (lookup_of_rtTableFind hfind)
    · cases h

theorem rrepTail_effects {rrep : RREP} (pre : Option RtTable) (rev : Option InAddr) (ttl : Int)
    {n : Node} (h : rrep.destAddr ≠ n.ipaddr) :
    Effects c s n (helloKeepAlive c
      (if rrep.origAddr = (rrepAcknowledge c rrep n).ipaddr
        then rrepArrived c rrep pre (rrepAcknowledge c rrep n)
        else rrepRelay c rrep rev ttl (rrepAcknowledge c rrep n))) := by
  refine Effects.trans ?_ (helloKeepAlive_effects _)
  have hack : Effects c s n (rrepAcknowledge c rrep n) := rrepAcknowledge_effects rrep n
  split
  · exact hack.trans (rrepArrived_effects _ _ _)
  · exact hack.trans (rrepRelay_effects _ _ (hack.ipaddr ▸ h))

theorem rrepHandle_effects (hu : c.Updates s) (hw : s.write) {rrep : RREP}
    (ipSrc : InAddr) (ttl : Int) {n : Node} (h : rrep.destAddr ≠ n.ipaddr) :
    Effects c s n (rrepHandle c rrep ipSrc ttl n) := by
  unfold rrepHandle
  dsimp only
  split
  · exact .refl n
  · next n' hroute =>
    have heff := rrepRoute_effects hu hw hroute
    exact heff.trans (rrepTail_effects _ _ _ (heff.ipaddr ▸ h))

theorem rrepProcess_effects (hu : c.Updates s) (hw : s.write) (rrep : RREP) (len : ℕ)
    (ipSrc : InAddr) (ttl : Int) (n : Node) :
    Effects c s n (rrepProcess c rrep len ipSrc ttl n) := by
  unfold rrepProcess
  split_ifs with hlr hlen hdest
  · exact rrepProcessLr_effects hu hw rrep len ipSrc ttl n
  · exact .refl n
  · exact .refl n
  · exact rrepHandle_effects hu hw ipSrc ttl hdest

theorem rrepAckProcess_effects (ack : RREPAck) (ipSrc : InAddr) (n : Node) :
    Effects c s n (rrepAckProcess ack ipSrc n) := by
  unfold rrepAckProcess helloAckProcess
  split
  · exact .traffic (modNeighbor_traffic _ _ n)
  · split
    · exact .refl n
    · exact .entry _ _ (fun rt => by constructor <;> simp [RtTable.PrecWf]) n

/-! ## Route requests: receiving -/

theorem rreqForward_effects (fwd : Option RtTable) {rreq : RREQ} (size : ℕ) (ttl : Int) {n : Node}
    (h : rreq.origAddr ≠ n.ipaddr) : Effects c s n (rreqForward c fwd rreq size ttl n) := by
  have horig : (raiseDestSeqno fwd rreq).origAddr = rreq.origAddr := by
    unfold raiseDestSeqno
    split <;> [rfl; split_ifs <;> rfl]
  have hcopies : ∀ (l : List ℕ) (n : Node), rreq.origAddr ≠ n.ipaddr → Effects c s n
      (l.foldl (fun n i => rreqForwardWithChannel c (raiseDestSeqno fwd rreq) size (ttl - 1) i n)
        n) := by
    intro l
    induction l with
    | nil => exact fun n _ => .refl n
    | cons i l ih =>
      intro n hn
      have hcopy : Effects c s n
          (rreqForwardWithChannel c (raiseDestSeqno fwd rreq) size (ttl - 1) i n) :=
        rreqForwardWithChannel_effects size (ttl - 1) i (horig ▸ hn)
      exact hcopy.trans (ih _ (hcopy.ipaddr ▸ hn))
  unfold rreqForward
  split
  · exact hcopies _ n h
  · exact .refl n

theorem seqnoRaise_effects (ho : s.own) (v : BitVec 32) (n : Node) :
    Effects c s n (n.seqnoRaise v) := .of (.raise ho v)

theorem rrepReply_effects (hl : c.LinkBreaks s) {m : RREP} (ch : Option Int) (rev : InAddr)
    (fwd : Option InAddr) (size : ℕ) {n : Node}
    (h : m.destAddr = n.ipaddr → m.destSeqno = n.seqno) :
    Effects c s n (rrepSendGen c ch rev fwd size (aodvSocketNewMsg (.rrep m) n)) := by
  refine Effects.trans (.of (.buffer _ fun v hv => Or.inl ?_)) (rrepSendGen_effects hl _ _ _ _ _)
  simp only [AodvMsg.ownNumber] at hv
  split at hv
  · next hdest => exact (Option.some.inj hv).symm.trans (h hdest)
  · cases hv

theorem rreqLrReverse_effects (hu : c.Updates s) (hw : s.write) (rreq : RREQ)
    (ipSrc : InAddr) (n : Node) : Effects c s n (rreqLrReverse c rreq ipSrc n) := by
  unfold rreqLrReverse
  dsimp only
  split
  · exact rtTableInsert_effects hw _ _ _ _ _ _ _ n
  · next revRt hfind =>
    split
    · exact hu _ _ _ _ _ _ _ n (lookup_of_rtTableFind hfind)
    · exact .refl n

theorem rreqLrUdest_effects (hl : c.LinkBreaks s) (ho : s.own) (orig : InAddr)
    (ud : RreqUdest) (n : Node) : Effects c s n (rreqLrUdest c orig ud n) := by
  unfold rreqLrUdest
  exact (seqnoRaise_effects ho ud.destSeqno n).trans (rrepReply_effects hl _ _ _ _ fun _ => rfl)

theorem rreqLrExts_effects (hl : c.LinkBreaks s) (ho : s.own) (orig : InAddr) (exts : List Ext)
    (n : Node) : Effects c s n (rreqLrExts c orig exts n).2 := by
  induction exts generalizing n with
  | nil => exact .refl n
  | cons e es ih =>
    cases e with
    | rreqUdest ud =>
      simp only [rreqLrExts]
      split
      · exact (rreqLrUdest_effects hl ho orig ud n).trans (ih _)
      · exact ih n
    | cost | rrepUdest | helloInterval | helloNeighborSet | other => exact ih n

theorem foldl_rrepAddUdest (exts : List Ext) (m : RREP) :
    (exts.foldl (fun m e => match e with
      | .rreqUdest ud => rrepAddUdest m ud.destAddr ud.destSeqno
      | _ => m) m).destSeqno = m.destSeqno := by
  induction exts generalizing m with
  | nil => rfl
  | cons e es ih => cases e <;> exact ih _

theorem rreqLrDestination_effects (hl : c.LinkBreaks s) (ho : s.own) (rreq : RREQ) (n : Node) :
    Effects c s n (rreqLrDestination c rreq n) := by
  unfold rreqLrDestination
  exact (seqnoRaise_effects ho rreq.destSeqno n).trans
    (rrepReply_effects hl _ _ _ _ fun _ => foldl_rrepAddUdest _ _)

theorem rreqLrIntermediate_effects (hl : c.LinkBreaks s) {rreq : RREQ} {fwdRt : RtTable}
    {n : Node} (ho : rreq.origAddr ≠ n.ipaddr) (hd : fwdRt.destAddr ≠ n.ipaddr) :
    Effects c s n (rreqLrIntermediate c rreq fwdRt n) := by
  have hreply : Effects c s n (rrepSend c rreq.origAddr (some fwdRt.destAddr) rrepSize
      (aodvSocketNewMsg (.rrep (rrepCreate 0 fwdRt.hcnt fwdRt.destAddr fwdRt.destSeqno
        rreq.origAddr (lifetime c fwdRt))) n)) :=
    rrepReply_effects hl _ _ _ _ fun h => absurd h hd
  unfold rreqLrIntermediate
  dsimp only
  split
  · exact hreply.trans (rrepReply_effects hl _ _ _ _ fun h => absurd h (hreply.ipaddr ▸ ho))
  · exact hreply

theorem rreqLrAnswer_effects (hl : c.LinkBreaks s) (ho : s.own) {rreq : RREQ} (len : ℕ)
    (ttl : Int) {n : Node} (h : rreq.origAddr ≠ n.ipaddr) :
    Effects c s n (rreqLrAnswer c rreq len ttl n) := by
  unfold rreqLrAnswer
  split
  · exact rreqLrDestination_effects hl ho _ _
  · next hdest =>
    split
    · exact rreqForward_effects _ _ _ h
    · next fwdRt hfwd =>
      split
      · exact rreqLrIntermediate_effects hl h (destAddr_of_rtTableFind hfwd ▸ hdest)
      · exact rreqForward_effects _ _ _ h

theorem rreqProcessLr_effects (hl : c.LinkBreaks s) (hu : c.Updates s) (hw : s.write)
    (ho : s.own) (rreq : RREQ) (len : ℕ) (ipSrc : InAddr) (ttl : Int) (n : Node) :
    Effects c s n (rreqProcessLr c rreq len ipSrc ttl n) := by
  unfold rreqProcessLr
  split_ifs with horig hlen hblack hrec
  · exact .refl n
  · exact .refl n
  · exact .refl n
  · exact .refl n
  · dsimp only
    have hrecord : Effects c s n (rreqRecordInsert c rreq.origAddr rreq.rreqId n) :=
      .traffic (rreqRecordInsertWithCost_traffic _ _ _ n)
    have hexts := (hrecord.trans (rreqLrReverse_effects hu hw rreq ipSrc _)).trans
      (rreqLrExts_effects hl ho rreq.origAddr rreq.exts _)
    exact hexts.trans (rreqLrAnswer_effects hl ho len ttl (hexts.ipaddr ▸ horig))

theorem rreqReverse_effects (hu : c.Updates s) (hw : s.write) {rreq : RREQ} {ipSrc : InAddr}
    {cost : ℚ} {n n' : Node} (h : rreqReverse c rreq ipSrc cost n = some n') :
    Effects c s n n' := by
  unfold rreqReverse at h
  dsimp only at h
  split at h
  · next hfind =>
    cases h
    exact rtTableInsertWithChannel_effects hw _ _ _ _ _ _ _ _ _ n hfind
  · next fwdRt hfind =>
    split at h
    · cases h
      exact hu _ _ _ _ _ _ _ n (lookup_of_rtTableFind hfind)
    · cases h

theorem rreqDestination_effects (hl : c.LinkBreaks s) (ho : s.own) (rreq : RREQ) (n : Node) :
    Effects c s n (rreqDestination c rreq n) := by
  unfold rreqDestination
  exact (seqnoRaise_effects ho rreq.destSeqno n).trans (rrepReply_effects hl _ _ _ _ fun _ => rfl)

theorem rreqIntermediate_effects (hl : c.LinkBreaks s) {rreq : RREQ} {fwdRt : RtTable}
    {n : Node} (ho : rreq.origAddr ≠ n.ipaddr) (hd : fwdRt.destAddr ≠ n.ipaddr) :
    Effects c s n (rreqIntermediate c rreq fwdRt n) := by
  have hreply : Effects c s n (rrepSendWithChannel c rreq.origAddr (some fwdRt.destAddr)
      rreqCostSize fwdRt.channel (aodvSocketNewMsg (.rrep (rrepCreateWithCost 0 fwdRt.hcnt
        fwdRt.destAddr fwdRt.destSeqno rreq.origAddr (lifetime c fwdRt) fwdRt.cost)) n)) :=
    rrepReply_effects hl _ _ _ _ fun h => absurd h hd
  unfold rreqIntermediate
  dsimp only
  split
  · exact hreply.trans (rrepReply_effects hl _ _ _ _ fun h => absurd h (hreply.ipaddr ▸ ho))
  · exact hreply

theorem rreqRelay_effects (hl : c.LinkBreaks s) (hd : s.delete) {rreq : RREQ} (ttl : Int)
    {n : Node} (ho : rreq.origAddr ≠ n.ipaddr) (hdest : rreq.destAddr ≠ n.ipaddr) :
    Effects c s n (rreqRelay c rreq ttl n) := by
  unfold rreqRelay
  split
  · exact rreqForward_effects _ _ _ ho
  · next fwdRt hfwd =>
    split
    · have hdel : Effects c s n (rtTableDelete fwdRt.destAddr n) := .of (.delete hd _)
      exact hdel.trans (rreqForward_effects _ _ _ (hdel.ipaddr ▸ ho))
    · split
      · exact rreqIntermediate_effects hl ho (destAddr_of_rtTableFind hfwd ▸ hdest)
      · exact rreqForward_effects _ _ _ ho

theorem rreqAnswer_effects (hl : c.LinkBreaks s) (hd : s.delete) (ho : s.own) {rreq : RREQ}
    (ttl : Int) {n : Node} (h : rreq.origAddr ≠ n.ipaddr) :
    Effects c s n (rreqAnswer c rreq ttl n) := by
  unfold rreqAnswer
  split
  · exact rreqDestination_effects hl ho _ _
  · next hdest => exact rreqRelay_effects hl hd _ h hdest

theorem rreqHandle_effects (hl : c.LinkBreaks s) (hu : c.Updates s) (hw : s.write)
    (hd : s.delete) (ho : s.own) {rreq : RREQ} (ipSrc : InAddr) (ttl : Int) {n : Node}
    (h : rreq.origAddr ≠ n.ipaddr) : Effects c s n (rreqHandle c rreq ipSrc ttl n) := by
  have hrec : Effects c s n (rreqRecordInsertWithCost c rreq.origAddr rreq.rreqId
      (lastCost (c.ext.log maxNum) rreq.exts) n) :=
    .traffic (rreqRecordInsertWithCost_traffic _ _ _ n)
  rcases rreqHandle_cases c rreq ipSrc ttl n with ⟨-, heq⟩ | ⟨-, ⟨-, heq⟩ | ⟨n₁, hrev, heq⟩⟩
  · rw [heq]
  · rw [heq]
    exact hrec
  · have hroute := hrec.trans (rreqReverse_effects hu hw hrev)
    rw [heq]
    exact hroute.trans (rreqAnswer_effects hl hd ho ttl (hroute.ipaddr ▸ h))

theorem rreqProcess_effects (hl : c.LinkBreaks s) (hu : c.Updates s) (hw : s.write) (hd : s.delete)
    (ho : s.own) (rreq : RREQ) (len : ℕ) (ipSrc : InAddr) (ttl : Int) (n : Node) :
    Effects c s n (rreqProcess c rreq len ipSrc ttl n) := by
  unfold rreqProcess
  split_ifs with hlr horig hlen hblack
  · exact rreqProcessLr_effects hl hu hw ho rreq len ipSrc ttl n
  · exact .refl n
  · exact .refl n
  · exact .refl n
  · exact rreqHandle_effects hl hu hw hd ho ipSrc ttl horig

/-! ## Route errors -/

theorem traffic_of_ifqueue_filter (p : Packet → Bool) (n : Node) :
    Traffic n { n with ifqueue := n.ifqueue.map (·.filter p) } where
  ipaddr := rfl
  seqno := rfl
  seqnoWrapped := rfl
  tbl := rfl
  numEntries := rfl
  numActive := rfl
  rerouted := rfl
  sendBuf := rfl
  waiting m hm := by
    obtain ⟨q, hq, hm⟩ := hm
    refine ⟨q, ?_, hm⟩
    cases hi : n.ifqueue with
    | none => simpa [hi] using hq
    | some l =>
      simp only [hi, Option.map_some, Option.getD_some, List.mem_append, List.mem_filter] at hq ⊢
      exact hq.imp id And.left
  out o ho := Or.inl ho

theorem rerrApply_effects (hw : s.write) (ho : s.own) (rerr : RERR) (ud : Udest) (n : Node) :
    Effects c s n (rerrApply c rerr ud n) := by
  unfold rerrApply
  have hifq : Effects c s n (ifqDropByDest ud.destAddr n) :=
    .traffic (traffic_of_ifqueue_filter _ n)
  have hinv : Effects c s n (if rerr.n then ifqDropByDest ud.destAddr n
      else rtTableInvalidate c ud.destAddr (ifqDropByDest ud.destAddr n)) := by
    split
    · exact hifq
    · exact hifq.trans (.invalidate _ _)
  refine Effects.trans ?_ (.of (.setSeqno hw _ _))
  split
  · exact hinv.trans (rreqRouteDiscovery_effects ho _ _ _)
  · exact hinv

theorem rerrAdd_effects (rerr : RERR) (a : InAddr) (w : RerrWalk) :
    Effects c s w.node (rerrAdd rerr a w).node := by
  unfold rerrAdd
  dsimp only
  split
  · split
    · exact addRerrUdest_effects _ _ _
    · exact .buffer _ rfl
  · exact .refl _

theorem rerrStep_effects (hw : s.write) (ho : s.own) (rerr : RERR) (ipSrc : InAddr)
    (w : RerrWalk) (ud : Udest) : Effects c s w.node (rerrStep c rerr ipSrc w ud).node := by
  unfold rerrStep
  split
  · exact .refl _
  · split
    · have hadd : Effects c s w.node (rerrAdd rerr ud.destAddr
          { w with node := rerrApply c rerr ud w.node }).node :=
        (rerrApply_effects hw ho rerr ud w.node).trans
          (rerrAdd_effects rerr ud.destAddr { w with node := rerrApply c rerr ud w.node })
      dsimp only
      split
      · exact hadd.trans (precursorListDestroy_effects _ _)
      · exact hadd
    · exact .refl _

theorem rerrWalk_effects (hw : s.write) (ho : s.own) (rerr : RERR) (ipSrc : InAddr) (n : Node) :
    Effects c s n (rerrWalk c rerr ipSrc n) := by
  have hwalk : ∀ (l : List Udest) (w : RerrWalk),
      Effects c s w.node (l.foldl (rerrStep c rerr ipSrc) w).node := by
    intro l
    induction l with
    | nil => exact fun w => .refl _
    | cons ud l ih => exact fun w => (rerrStep_effects hw ho rerr ipSrc w ud).trans (ih _)
  unfold rerrWalk
  dsimp only
  split
  · exact (hwalk rerr.walk { node := n }).trans (sendRerr_effects _ _)
  · exact hwalk rerr.walk { node := n }

theorem rerrProcess_effects (hw : s.write) (ho : s.own) (rerr : RERR) (len : ℕ) (ipSrc : InAddr)
    (recs : List RerrRecord) (n : Node) :
    Effects c s n (rerrProcess c rerr len ipSrc recs n).2 := by
  unfold rerrProcess
  split
  · exact .refl n
  · dsimp only
    split
    · exact .refl n
    · exact rerrWalk_effects hw ho rerr ipSrc n

/-! ## Timeouts -/

theorem ifqBuffer_traffic (a : InAddr) (n : Node) : Traffic n (ifqBuffer c a n) := by
  refine List.foldlRecOn _ _ (traffic_of_ifqueue_filter _ n) fun n' hn' p hp => ?_
  refine packetQueueAdd_traffic _ hn' fun m hm => ⟨p, ?_, hm⟩
  exact List.mem_append_right _ (List.mem_filter.mp hp).1

theorem ifqDrop_traffic (a : InAddr) (n : Node) : Traffic n (ifqDrop a n) :=
  dropAll_traffic _ (fun p => .drop p .noRoute) (fun _ => rfl) (traffic_of_ifqueue_filter _ n)

theorem localRepairTimeout_effects (a : InAddr) (n : Node) :
    Effects c s n (localRepairTimeout c a n) := by
  unfold localRepairTimeout
  dsimp only
  refine Effects.trans ?_ (.entry _ _ (fun rt => by constructor <;> simp [RtTable.PrecWf]) _)
  refine Effects.trans ?_ (precursorListDestroy_effects _ _)
  have hflag : Effects c s n (n.modRt a fun rt => { rt with flags := rt.flags &&& ~~~rtRepair }) :=
    .entry _ _ (fun rt => by constructor <;> simp [RtTable.PrecWf]) n
  split
  · exact hflag
  · exact (hflag.trans (.buffer _ rfl)).trans (aodvSocketSend_effects _ _ _ _)

theorem routeExpireTimeout_effects (hl : c.LinkBreaks s) (a : InAddr) (n : Node) :
    Effects c s n (routeExpireTimeout c a n) := by
  unfold routeExpireTimeout
  split
  · exact hl a n
  · exact (Effects.invalidate a n).trans (precursorListDestroy_effects _ _)

theorem routeDeleteTimeout_effects (hd : s.delete) (a : InAddr) (n : Node) :
    Effects c s n (routeDeleteTimeout a n) := .of (.delete hd a)

theorem helloTimeout_effects (hl : c.LinkBreaks s) (a : InAddr) (n : Node) :
    Effects c s n (helloTimeout c a n) := by
  unfold helloTimeout
  dsimp only
  split
  · refine Effects.trans ?_ (hl a _)
    split
    · exact (Effects.entry _ _ (fun rt => by constructor <;> simp [RtTable.PrecWf]) n).trans
        (.traffic (ifqBuffer_traffic _ _))
    · exact .refl n
  · exact .refl n

theorem rtTimerTimeout_effects (hl : c.LinkBreaks s) (hd : s.delete) (a : InAddr) (n : Node) :
    Effects c s n (rtTimerTimeout c a n) := by
  unfold rtTimerTimeout
  dsimp only
  split
  · have hoff : Effects c s n (n.modRt a fun rt => { rt with rtTimer := rt.rtTimer.remove }) :=
      .entry _ _ (fun rt => by constructor <;> simp [RtTable.PrecWf]) n
    split
    · exact hoff.trans (routeExpireTimeout_effects hl a _)
    · exact hoff.trans (routeDeleteTimeout_effects hd a _)
    · exact hoff.trans (localRepairTimeout_effects a _)
    · exact hoff
  · exact .refl n

theorem routeDiscoveryRetry_effects (hr : s.retry) (i : ℕ) (sk : SeekList) (n : Node) :
    Effects c s n (routeDiscoveryRetry c i sk n) := by
  have hset : Effects c s n { n with seekhead := n.seekhead.set i (sk.retry c) } :=
    .traffic (traffic_of_eq rfl rfl rfl rfl rfl rfl rfl rfl rfl rfl rfl)
  unfold routeDiscoveryRetry
  dsimp only
  refine Effects.trans ?_ (.of (.reflood hr _ _ _ _))
  split
  · exact hset
  · exact hset.trans (keepWaiting_effects _ _)

theorem noRouteFound_effects (i : ℕ) (sk : SeekList) (n : Node) :
    Effects c s n (noRouteFound c i sk n) := by
  have herase : ∀ n : Node, Effects c s n { n with seekhead := n.seekhead.eraseIdx i } :=
    fun n => .traffic (traffic_of_eq rfl rfl rfl rfl rfl rfl rfl rfl rfl rfl rfl)
  have hdrop := (packetQueueSetVerdict_effects sk.destAddr .drop n).trans (herase _)
  unfold noRouteFound
  dsimp only
  split
  · exact hdrop
  · split
    · exact hdrop.trans (localRepairTimeout_effects _ _)
    · exact hdrop

theorem routeDiscoveryTimeout_effects (i : ℕ) (n : Node)
    (hr : ∀ sk, n.seekhead[i]? = some sk → sk.reqs < rreqRetries → s.retry) :
    Effects c s n (routeDiscoveryTimeout c i n) := by
  unfold routeDiscoveryTimeout
  split
  · exact .refl n
  · next sk hsk =>
    split
    · next hlt => exact routeDiscoveryRetry_effects (hr sk hsk hlt) i sk n
    · exact noRouteFound_effects i sk n

/-! ## Events -/

theorem noRouteRerr_effects (p : Packet) (fwd : Option RtTable) (n : Node) :
    Effects c s n (noRouteRerr c p fwd n) := by
  unfold noRouteRerr
  split
  · exact (Effects.buffer _ rfl).trans (rtTableUpdateTimeout_effects _ _ _)
  · exact .buffer _ rfl

theorem worbReset_traffic (n : Node) : Traffic n (worbReset c n) := by
  unfold worbReset
  split
  · exact traffic_of_eq rfl rfl rfl rfl rfl rfl rfl rfl rfl rfl rfl
  · exact Traffic.refl n

theorem noRoute_effects (p : Packet) (fwd rev : Option RtTable) (n : Node) :
    Effects c s n (noRoute c p fwd rev n) :=
  ((noRouteRerr_effects p fwd n).trans (aodvSocketSend_effects _ _ _ _)).trans
    (.traffic ((worbReset_traffic _).trans (handOut_traffic_of_not_sent _ rfl)))

theorem seekRoute_effects (ho : s.own) {p : Packet} (hp : p.control = none)
    (fwd : Option RtTable) (n : Node) : Effects c s n (seekRoute c p fwd n) := by
  have hadd : Effects c s n (packetQueueAdd c p p.daddr n) :=
    .traffic (packetQueueAdd_traffic _ (Traffic.refl n) (by simp [hp]))
  unfold seekRoute
  dsimp only
  split
  · split
    · exact hadd.trans (rreqLocalRepair_effects ho _ _)
    · exact hadd.trans (rreqRouteDiscovery_effects ho _ _ _)
  · exact hadd.trans (rreqRouteDiscovery_effects ho _ _ _)

theorem forwardData_effects {p : Packet} (hp : p.control = none) (rt : RtTable) (n : Node) :
    Effects c s n (forwardData c p rt n) := by
  have hsend : Traffic n (sendPacket c p rt.nextHop 0 n) :=
    sendPacket_traffic rt.nextHop 0 (Traffic.refl n) (by simp [hp])
  have htime : Traffic (sendPacket c p rt.nextHop 0 n)
      { sendPacket c p rt.nextHop 0 n with fwdTime := c.now } :=
    traffic_of_eq rfl rfl rfl rfl rfl rfl rfl rfl rfl rfl rfl
  exact (Effects.traffic (hsend.trans htime)).trans (helloKeepAlive_effects _)

theorem routeUnicast_effects (ho : s.own) {p : Packet} (hp : p.control = none)
    (fwd rev : Option InAddr) (n : Node) : Effects c s n (routeUnicast c p fwd rev n) := by
  unfold routeUnicast
  split
  · exact .traffic (handOut_traffic_of_not_sent n rfl)
  · split
    · dsimp only
      split_ifs
      · exact noRoute_effects _ _ _ n
      · exact seekRoute_effects ho hp _ n
      · exact forwardData_effects hp _ n
    · split_ifs
      · exact noRoute_effects _ _ _ n
      · exact seekRoute_effects ho hp _ n

theorem processUnicast_effects (ho : s.own) {p : Packet} (hp : p.control = none) (n : Node) :
    Effects c s n (processUnicast c p n) :=
  (rtTableUpdateRouteTimeouts_effects _ _ n).trans (routeUnicast_effects ho hp _ _ _)

theorem processPacket_effects (ho : s.own) {p : Packet} (hp : p.control = none) (n : Node) :
    Effects c s n (processPacket c p n) := by
  unfold processPacket
  split_ifs
  · exact .traffic (handOut_traffic_of_not_sent n rfl)
  · exact .traffic (sendPacket_traffic _ _ (Traffic.refl n) (by simp [hp]))
  · exact .traffic (handOut_traffic_of_not_sent n rfl)
  · exact processUnicast_effects ho hp n

theorem aodvSocketProcessPacket_effects (hl : c.LinkBreaks s) (hu : c.Updates s)
    (ha : c.NeighborAdds s)
    (hw : s.write) (hd : s.delete) (ho : s.own) (m : AodvMsg) (len : ℕ) (src dst : InAddr)
    (ttl : Int) (recs : List RerrRecord) (n : Node) :
    Effects c s n (aodvSocketProcessPacket c m len src dst ttl (recs, n)).2 := by
  have hadd := ha m src n
  cases m with
  | rrep rrep =>
    simp only [aodvSocketProcessPacket]
    split
    · exact helloProcess_effects hu hw rrep n
    · exact hadd.trans (rrepProcess_effects hu hw _ _ _ _ _)
  | rreq rreq => exact hadd.trans (rreqProcess_effects hl hu hw hd ho _ _ _ _ _)
  | overlaid rreq uds => exact hadd.trans (rreqProcess_effects hl hu hw hd ho _ _ _ _ _)
  | rerr rerr => exact hadd.trans (rerrProcess_effects hw ho _ _ _ _ _)
  | rrepAck ack => exact hadd.trans (rrepAckProcess_effects _ _ _)

theorem recv_effects (hl : c.LinkBreaks s) (hu : c.Updates s) (ha : c.NeighborAdds s) (hw : s.write)
    (hd : s.delete) (ho : s.own) (p : Packet) (recs : List RerrRecord) (n : Node) :
    Effects c s n (recv c p (recs, n)).2 := by
  unfold recv
  split
  · exact .traffic (handOut_traffic_of_not_sent n rfl)
  · dsimp only
    split
    · unfold recvAODVUUPacket
      split
      · exact .refl n
      · split
        · exact .refl n
        · exact aodvSocketProcessPacket_effects hl hu ha hw hd ho _ _ _ _ _ _ n
    · next htype =>
      refine processPacket_effects ho ?_ n
      exact if_neg htype

theorem dropFailed_effects (p : Packet) (n : Node) : Effects c s n (dropFailed p n) :=
  .traffic ((handOut_traffic_of_not_sent n rfl).trans (ifqDrop_traffic _ _))

theorem packetFailed_effects (hl : c.LinkBreaks s) (ho : s.own) (p : Packet) (n : Node) :
    Effects c s n (packetFailed c p n) := by
  unfold packetFailed
  split_ifs with hdata hseek
  · exact .traffic (handOut_traffic_of_not_sent n rfl)
  · refine .traffic (packetQueueAdd_traffic _ (Traffic.refl n) ?_)
    simp_all [Packet.control]
  · have hadd : Effects c s n (packetQueueAdd c p p.daddr n) :=
      .traffic (packetQueueAdd_traffic _ (Traffic.refl n) (by simp_all [Packet.control]))
    split
    · split_ifs
      · exact dropFailed_effects p n
      · exact .traffic (handOut_traffic_of_not_sent n rfl)
      · refine Effects.trans ?_ (rreqLocalRepair_effects ho _ _)
        refine Effects.trans ?_ (hl _ _)
        exact (hadd.trans (.traffic (ifqBuffer_traffic _ _))).trans
          (.entry _ _ (fun rt => by constructor <;> simp [RtTable.PrecWf]) _)
      · exact (hl _ n).trans (dropFailed_effects p _)
    · exact dropFailed_effects p n

theorem timerStep_effects (hl : c.LinkBreaks s) (hd : s.delete) (e : Event) (n : Node)
    (hr : ∀ i sk, e = .seekTimer i → n.seekhead[i]? = some sk → sk.reqs < rreqRetries → s.retry) :
    Effects c s n (timerStep c e n) := by
  cases e with
  | rtTimer a => exact rtTimerTimeout_effects hl hd a n
  | ackTimer a =>
    simp only [timerStep]
    split
    · exact (Effects.entry _ _ (fun rt => by constructor <;> simp [RtTable.PrecWf]) n).trans
        (.traffic (rreqBlacklistInsert_traffic _ _))
    · exact .refl n
  | rtHelloTimer a =>
    simp only [timerStep]
    split
    · exact (Effects.entry _ _ (fun rt => by constructor <;> simp [RtTable.PrecWf]) n).trans
        (helloTimeout_effects hl _ _)
    · exact .refl n
  | seekTimer i => exact routeDiscoveryTimeout_effects i n (hr i · rfl)
  | rreqRecordTimer orig id => exact .traffic (traffic_of_eq rfl rfl rfl rfl rfl rfl rfl rfl rfl rfl rfl)
  | blacklistTimer a => exact .traffic (traffic_of_eq rfl rfl rfl rfl rfl rfl rfl rfl rfl rfl rfl)
  | helloTimer =>
    simp only [timerStep]
    split
    · have hstop : Traffic n (helloStop n) :=
        traffic_of_eq rfl rfl rfl rfl rfl rfl rfl rfl rfl rfl rfl
      exact (Effects.traffic hstop).trans (helloSend_effects _)
    · exact .refl n
  | packetQueueTimer =>
    have hcollect : Effects c s n (packetQueueGarbageCollect c n) :=
      .traffic (packetQueueGarbageCollect_traffic n)
    exact hcollect.trans (.traffic (traffic_of_eq rfl rfl rfl rfl rfl rfl rfl rfl rfl rfl rfl))
  | waitOnRebootTimer => exact .traffic (traffic_of_eq rfl rfl rfl rfl rfl rfl rfl rfl rfl rfl rfl)
  | start | recv | packetFailed | rerrRecordTimer | ifqueue => exact .refl n

theorem startAODVUUAgent_effects (n : Node) : Effects c s n (startAODVUUAgent c n) := by
  unfold startAODVUUAgent
  refine Effects.trans ?_ (helloStart_effects _)
  split
  · exact .traffic (traffic_of_eq rfl rfl rfl rfl rfl rfl rfl rfl rfl rfl rfl)
  · exact .refl n

theorem step_effects (hl : c.LinkBreaks s) (hu : c.Updates s) (ha : c.NeighborAdds s) (hw : s.write)
    (hd : s.delete)
    (ho : s.own) (e : Event) (recs : List RerrRecord) (n : Node) (hq : ∀ q, e ≠ .ifqueue q)
    (hr : ∀ i sk, e = .seekTimer i → n.seekhead[i]? = some sk → sk.reqs < rreqRetries → s.retry) :
    Effects c s n (step c e (recs, n)).2 := by
  have htimer := timerStep_effects hl hd e n hr
  cases e with
  | start => exact startAODVUUAgent_effects n
  | recv p => exact recv_effects hl hu ha hw hd ho p recs n
  | packetFailed p => exact packetFailed_effects hl ho p n
  | ifqueue q => exact absurd rfl (hq q)
  | rerrRecordTimer r =>
    simp only [step]
    split <;> exact .refl n
  | rtTimer | ackTimer | rtHelloTimer | seekTimer | rreqRecordTimer | blacklistTimer | helloTimer
  | packetQueueTimer | waitOnRebootTimer => exact htimer

end AodvUU

import AodvUU.Transmits

/-! # Hop limits

A request is passed on only with a TTL above one, a reply with whatever TTL it has. The TTLs are
the 8-bit numbers that `aodv_socket_send` takes. -/
namespace AodvUU

variable {c : Ctx}

/-! ## Messages passed on -/

/-- The request or the reply `m` on its way onward. -/
inductive AodvMsg.PassedOn : AodvMsg → AodvMsg → Prop
  | rreq {m m' : RREQ} (orig : m'.origAddr = m.origAddr) (id : m'.rreqId = m.rreqId) :
      PassedOn (.rreq m) (.rreq m')
  | rrep {m m' : RREP} (dest : m'.destAddr = m.destAddr) (orig : m'.origAddr = m.origAddr) :
      PassedOn (.rrep m) (.rrep m')

/-- The handlers of requests and replies, those of a local repair included. -/
def AodvMsg.handle (c : Ctx) (m : AodvMsg) (len : ℕ) (src : InAddr) (ttl : Int) (n : Node) : Node :=
  match m with
  | .rreq m => rreqProcess c m len src ttl n
  | .rrep m => rrepProcess c m len src ttl n
  | _ => n

/-- The handler of `m`, received with TTL `t`, hands `m'` out with TTL `t'`. -/
def Node.Forwards (c : Ctx) (n : Node) (m : AodvMsg) (len : ℕ) (src : InAddr) (t : BitVec 8)
    (m' : AodvMsg) (t' : BitVec 8) : Prop :=
  m.PassedOn m' ∧ (∀ qp ∈ n.pq, qp.p.control ≠ some m') ∧
  ∃ i q d, n.Sent (m.handle c len src t.toNat n) (.sched i q d) ∧ q.control = some m' ∧
    q.ttl = t'.toNat

/-- What is asked of an output that carries `m` on: a TTL below `t`, which is above one. -/
def Output.TtlBelow (n₀ : Node) (m : AodvMsg) (t : Int) (o : Output) : Prop :=
  ∀ i q d m', o = .sched i q d → q.control = some m' → m.PassedOn m' →
    (∀ qp ∈ n₀.pq, qp.p.control ≠ some m') → 1 < t ∧ q.ttl < t

theorem Output.TtlBelow.of_control {n₀ : Node} {m m' : AodvMsg} {t ttl ch : Int}
    {own dst : InAddr} {o : Output} (ho : o.Control own dst ttl ch m')
    (h : m.PassedOn m' → 1 < t ∧ ttl < t) : o.TtlBelow n₀ m t := by
  rintro i q d m'' rfl hm'' hpass -
  obtain ⟨hp, -, -, httl, hmsg, -⟩ := ho
  have heq : q.control = some m' := by
    unfold Packet.control
    rw [if_pos hp, hmsg]
  cases heq.symm.trans hm''
  rw [httl]
  exact h hpass

theorem ttlBelow_permits (n₀ : Node) {m : AodvMsg} {t : Int}
    (hm : ∀ rrep, m = .rrep rrep → rrep.destAddr ≠ n₀.ipaddr) :
    n₀.Permits (Output.TtlBelow n₀ m t) := by
  refine ⟨fun o ho => ?_, fun o ho => ?_⟩
  · rintro i q d m' rfl hm' hpass hpq
    rcases ho m' hm' with hr | ⟨qp, hqp, hc⟩
    · cases hpass with
      | rreq | rrep => exact hr.elim
    · exact absurd hc (hpq qp hqp)
  · obtain ⟨ch, hello, ho, hdest, -⟩ := ho
    refine .of_control ho fun hpass => ?_
    cases hpass with
    | rrep dest => exact absurd (dest.symm.trans hdest) (hm _ rfl)

theorem rreq_ttlBelow (hl : c.BreaksLinks) (hb : c.BuildsErrors) (rreq : RREQ) (len : ℕ)
    (src : InAddr) (t : BitVec 8) (n : Node) :
    n.Emits (Output.TtlBelow n (.rreq rreq) t.toNat) (rreqProcess c rreq len src t.toNat n) := by
  have hP := ttlBelow_permits n (m := .rreq rreq) (t := t.toNat) nofun
  have hreply : n.PermitsReplies (Output.TtlBelow n (.rreq rreq) t.toNat) :=
    fun m dst ch o _ ho => .of_control ho nofun
  have hpass : (1 : Int) < t.toNat → ∀ m' ch (o : Output), o.Control n.ipaddr aodvBroadcast
      (BitVec.ofInt 8 (t.toNat - 1)).toNat ch (.rreq m') →
        o.TtlBelow n (.rreq rreq) t.toNat := by
    intro hpos m' ch o ho
    refine .of_control ho fun _ => ⟨hpos, ?_⟩
    rw [BitVec.toNat_ofInt]
    omega
  unfold rreqProcess
  split
  · exact (Node.Hands.rreqProcessLr hP hreply hl hb fun hpos exts fwd => hpass hpos _).emits
  · split_ifs
    · exact .refl n
    · exact .refl n
    · exact .refl n
    · exact (Node.Hands.rreqHandle hP hreply hl hb fun hpos fwd => hpass hpos _).emits

theorem rrep_ttlBelow (hl : c.BreaksLinks) (hb : c.BuildsErrors) (rrep : RREP) (len : ℕ)
    (src : InAddr) {t : BitVec 8} (ht : rrepSize ≤ len → 1 < t) (n : Node) :
    n.Emits (Output.TtlBelow n (.rrep rrep) t.toNat) (rrepProcess c rrep len src t.toNat n) := by
  by_cases hlen : len < rrepSize
  · have hdrop : rrepProcess c rrep len src t.toNat n = n := by
      unfold rrepProcess rrepProcessLr
      rw [if_pos hlen, if_pos hlen, ite_self]
    rw [hdrop]
    exact .refl n
  · have hpos : (1 : Int) < t.toNat := by
      have := BitVec.lt_def.mp (ht (by omega))
      simp at this
      omega
    have hpass : ∀ m' dst ch (o : Output),
        o.Control n.ipaddr dst (BitVec.ofInt 8 (t.toNat - 1)).toNat ch m' →
        o.TtlBelow n (.rrep rrep) t.toNat := by
      intro m' dst ch o ho
      refine .of_control ho fun _ => ⟨hpos, ?_⟩
      rw [BitVec.toNat_ofInt]
      omega
    by_cases hdest : rrep.destAddr = n.ipaddr
    · have hdrop : rrepProcess c rrep len src t.toNat n = n := by
        unfold rrepProcess rrepProcessLr
        rw [if_neg hlen, if_pos hdest, if_neg hlen, if_pos hdest, ite_self]
      rw [hdrop]
      exact .refl n
    · have hP := ttlBelow_permits n (m := .rrep rrep) (t := t.toNat)
        fun m hm => by cases hm; exact hdest
      unfold rrepProcess
      split
      · exact (Node.Hands.rrepProcessLr hP hl hb fun _ hcnt exts => hpass _).emits
      · exact (Node.Hands.rrepHandle hP hl fun n' _ => hpass _).emits

/-! ## Replies that are always passed on -/

/-- Nothing stands in the way of a reply of so many hops for `orig`: no link break, no search,
and the agent may send. -/
structure Node.Ready (orig : InAddr) (hops : BitVec 8) (n : Node) : Prop where
  wf : RtWf n
  up : (n.rt orig).state = .valid
  hops : ∀ a rt, n.lookup a = some rt → rt.hcnt = 1 → hops.toNat ≤ 1
  seek : n.seekhead = []
  started : n.waitOnReboot = false

namespace Node.Ready

variable {orig : InAddr} {hops : BitVec 8} {n : Node}

theorem flush (h : n.Ready orig hops) (a : InAddr) : (flushSeek c a n).Ready orig hops := by
  have hnone : seekListFind n a = none := by
    unfold seekListFind
    rw [h.seek]
    rfl
  unfold flushSeek
  rw [hnone]
  split <;> exact h

theorem lookup (h : n.Ready orig hops) : ∃ rt, n.lookup orig = some rt ∧ rt.state = .valid := by
  have hup := h.up
  unfold Node.rt at hup
  cases hrt : n.lookup orig with
  | none =>
    rw [hrt] at hup
    cases hup
  | some rt =>
    rw [hrt] at hup
    exact ⟨rt, rfl, hup⟩

theorem write (h : n.Ready orig hops) (a next : InAddr) (seqno life : BitVec 32) (flags : BitVec 16)
    (chan : Option (Int × ℚ)) :
    (n.modRt a (·.write c.now next hops seqno life .valid flags chan)).Ready orig hops := by
  have hplace := RtTable.write_samePlace c.now next hops seqno life .valid flags chan
  have hlook := fun b => lookup_modRt (n := n) a b fun rt => (hplace rt).destAddr
  refine ⟨?_, ?_, ?_, h.seek, h.started⟩
  · refine h.wf.modRt a (fun rt => (hplace rt).destAddr) (fun rt => (hplace rt).hash) fun rt hp => ?_
    unfold RtTable.PrecWf at hp ⊢
    rw [(hplace rt).nprec, (hplace rt).precursors]
    exact hp
  · obtain ⟨rt, hrt, hv⟩ := h.lookup
    unfold Node.rt
    rw [hlook orig, hrt]
    split
    · exact RtTable.write_state _ _ _ _ _ _ _ _ _
    · exact hv
  · intro b rt hrt hone
    rw [hlook b] at hrt
    split at hrt
    · obtain ⟨rt₀, -, rfl⟩ := Option.map_eq_some_iff.mp hrt
      rw [RtTable.write_hcnt] at hone
      rw [hone]
      decide
    · exact h.hops b rt hrt hone

theorem update (h : n.Ready orig hops) (chan : Option (Int × ℚ)) {a : InAddr}
    (ha : n.lookup a ≠ none) (next : InAddr) (seqno life : BitVec 32) (flags : BitVec 16) :
    (rtTableUpdateGen c chan a next hops seqno life .valid flags n).Ready orig hops := by
  have hbefore : (beforeUpdate c a hops .valid n).Ready orig hops := by
    obtain ⟨rt, hrt⟩ := Option.ne_none_iff_exists'.mp ha
    have hshort : ¬ (1 < hops.toNat ∧ (n.rt a).hcnt = 1) := by
      rintro ⟨hlong, hone⟩
      rw [rt_of_lookup hrt] at hone
      have := h.hops a rt hrt hone
      omega
    unfold beforeUpdate
    dsimp only
    rw [if_neg hshort]
    split
    · exact ⟨h.wf.of_table rfl rfl, h.up, h.hops, h.seek, h.started⟩
    · exact h
  exact (hbefore.write a next seqno life _ chan).flush a

theorem store (h : n.Ready orig hops) {a : InAddr} (ha : n.lookup a = none) (next : InAddr)
    (seqno life : BitVec 32) (flags : BitVec 16) (ch : Int) (cost : ℚ) :
    (rtTableAdd c a next hops seqno life .valid flags ch cost n).Ready orig hops := by
  refine Node.Ready.flush ⟨h.wf.storeEntry rfl ⟨rfl, rfl⟩ ha, ?_, ?_, h.seek, h.started⟩ a
  · obtain ⟨rt, hrt, hv⟩ := h.lookup
    unfold Node.rt
    rw [lookup_storeEntry]
    split
    · rfl
    · rw [hrt]
      exact hv
  · intro b rt hrt hone
    rw [lookup_storeEntry] at hrt
    split at hrt
    · cases hrt
      have hhops : hops = 1 := hone
      rw [hhops]
      decide
    · exact h.hops b rt hrt hone

theorem lrRoute {rrep : RREP} (h : n.Ready orig (rrep.hcnt + 1)) (src a : InAddr) :
    (rrepLrRoute c rrep src a n).Ready orig (rrep.hcnt + 1) := by
  unfold rrepLrRoute
  rw [h.wf.rtTableFind_eq_lookup]
  cases hrt : n.lookup a with
  | none =>
    have hins : (rtTableInsert c a src (rrep.hcnt + 1) rrep.destSeqno rrep.lifetime .valid 0 n).Ready
        orig (rrep.hcnt + 1) := by
      rw [rtTableInsert_eq, if_pos hrt]
      exact h.store hrt _ _ _ _ _ _
    exact hins.update none (lookup_rtTableInsert _ _ _ _ _ _ _ n) _ _ _ _
  | some rt => exact h.update none (by rw [hrt]; exact Option.some_ne_none rt) _ _ _ _

theorem lrUdests {rrep : RREP} (h : n.Ready orig (rrep.hcnt + 1)) (src : InAddr) :
    (rrepLrUdests c rrep src n).Ready orig (rrep.hcnt + 1) := by
  unfold rrepLrUdests
  refine List.foldlRecOn (motive := fun n' : Node => n'.Ready orig (rrep.hcnt + 1)) _ _ h
    fun n' hn' e _ => ?_
  cases e with
  | rrepUdest ud => exact hn'.lrRoute src ud.destAddr
  | cost | rreqUdest | helloInterval | helloNeighborSet | other => exact hn'

theorem acknowledge (h : n.Ready orig hops) (rrep : RREP) :
    (rrepAcknowledge c rrep n).Ready orig hops := by
  have hsend : ∀ b len ttl m, (aodvSocketSend c b len ttl (aodvSocketNewMsg m n)).Ready orig hops := by
    intro b len ttl m
    rw [aodvSocketSend_frame]
    exact ⟨h.wf.of_table rfl rfl, h.up, h.hops, h.seek, h.started⟩
  unfold rrepAcknowledge
  split
  · exact hsend _ _ _ _
  · exact h

theorem route {rrep : RREP} (h : n.Ready orig (rrep.hcnt + 1)) (hown : rrep.destAddr ≠ n.ipaddr)
    (hnew : ∀ rt, n.lookup rrep.destAddr = some rt → rt.destSeqno = 0) (src : InAddr) (cost : ℚ) :
    ∃ n', rrepRoute c rrep src cost n = some n' ∧ n'.Ready orig (rrep.hcnt + 1) := by
  unfold rrepRoute
  rw [h.wf.rtTableFind_eq_lookup]
  cases hrt : n.lookup rrep.destAddr with
  | none =>
    refine ⟨_, rfl, ?_⟩
    rw [rtTableInsertWithChannel_of_none hrt hown]
    exact h.store hrt _ _ _ _ _ _
  | some rt =>
    dsimp only
    rw [if_pos (.inl (hnew rt hrt))]
    exact ⟨_, rfl, h.update _ (by rw [hrt]; exact Option.some_ne_none rt) _ _ _ _⟩

end Node.Ready

theorem schedule_some (hif : 0 < c.conf.nIfaces) (p : Packet) (a : InAddr) (delay : ℚ) (n : Node) :
    ∃ i q d, p.Copy q ∧ n.Sent (schedule c p a delay n) (.sched i q d) := by
  by_cases hbc : p.daddr = aodvBroadcast
  · obtain ⟨k, hk⟩ := Nat.exists_eq_succ_of_ne_zero (by omega : c.conf.nIfaces ≠ 0)
    unfold schedule
    rw [if_pos hbc, hk]
    simp only [bind_pure_comp, List.map_eq_map, List.range_succ, List.map_append, List.foldl_append]
    refine ⟨k, { p with nextHop := 0, prevHop := n.ipaddr, channel := k }, c.env.uniform / 50,
      ⟨rfl, rfl, rfl, rfl, fun _ => rfl⟩, ?_⟩
    refine Node.Emits.then_sent (P := fun _ => True) ?_ ⟨_, rfl, List.mem_singleton.mpr rfl⟩
    exact .foldl _ (fun n' _ _ => .handOut trivial n') n
  · exact ⟨_, { p with nextHop := a, prevHop := n.ipaddr, channel := n.channelNum }, _,
      ⟨rfl, rfl, rfl, rfl, fun _ => rfl⟩, schedule_sent hbc a delay n⟩

theorem aodvSocketSend_some (hr : c.conf.ratelimit = false) (hif : 0 < c.conf.nIfaces) {n : Node}
    (hw : n.waitOnReboot = false) (a : InAddr) (len : ℕ) (ttl : BitVec 8) :
    ∃ i q d, n.Sent (aodvSocketSend c a len ttl n) (.sched i q d) ∧
      q.control = some (n.sendBuf.trunc len) ∧ q.ttl = ttl.toNat := by
  have hsched : ∀ n' : Node, n'.out = n.out → n'.ipaddr = n.ipaddr → ∃ i q d,
      n.Sent (sendPacket c (controlPacket a len ttl n) a 0 n') (.sched i q d) ∧
      q.control = some (n.sendBuf.trunc len) ∧ q.ttl = ttl.toNat := by
    intro n' hout hip
    obtain ⟨i, q, d, hcopy, hsent⟩ := schedule_some hif (controlPacket a len ttl n) a 0 n'
    refine ⟨i, q, d, ?_, ?_, hcopy.ttl rfl⟩
    · unfold sendPacket
      rw [if_neg (fun h => by cases h.1), if_pos ⟨rfl, hip.symm⟩]
      exact (Node.sent_congr hout).mp hsent
    · unfold Packet.control
      rw [hcopy.ptype, hcopy.msg]
      rfl
  unfold aodvSocketSend rateLimit
  rw [hw, hr]
  simp only [Bool.false_eq_true, false_and, if_false]
  split
  · exact hsched _ rfl rfl
  · exact hsched _ rfl rfl

theorem rrepForward_some (hr : c.conf.ratelimit = false) (hif : 0 < c.conf.nIfaces) {n : Node}
    (hw : n.waitOnReboot = false) (rrep : RREP) (size : ℕ) (rev fwd : InAddr) (ttl : Int) :
    ∃ i q d, n.Sent (rrepForward c rrep size rev fwd ttl n) (.sched i q d) ∧
      q.control = some ((forwardedReply rrep size fwd n).trunc size) ∧
      q.ttl = (BitVec.ofInt 8 ttl).toNat := by
  have hnew : (aodvSocketNewMsg (forwardedReply rrep size fwd n) n).waitOnReboot = false := hw
  obtain ⟨i, q, d, hsent, hq⟩ := aodvSocketSend_some hr hif hnew (n.rt rev).nextHop size
    (BitVec.ofInt 8 ttl)
  refine ⟨i, q, d, ?_, hq⟩
  rw [rrepForward_eq]
  exact Node.Sent.emits (P := fun _ => True) hsent (.of_out rfl)

section Forwarded

variable (hl : c.BreaksLinks) (hr : c.conf.ratelimit = false) (hif : 0 < c.conf.nIfaces)
  (rrep : RREP) {n : Node} (h : n.Ready rrep.origAddr (rrep.hcnt + 1))
  (hdest : rrep.destAddr ≠ n.ipaddr) (horig : rrep.origAddr ≠ n.ipaddr)
include hl hr hif h hdest horig

theorem rrepProcessLr_passes {len : ℕ} (hlen : rrepSize ≤ len) (src : InAddr) (t : BitVec 8) :
    ∃ m i q d, AodvMsg.PassedOn (.rrep rrep) m ∧
      n.Sent (rrepProcessLr c rrep len src t.toNat n) (.sched i q d) ∧ q.control = some m ∧
      q.ttl = (BitVec.ofInt 8 (t.toNat - 1)).toNat := by
  have hall : n.Permits fun _ => True := ⟨fun _ _ => trivial, fun _ _ => trivial⟩
  have hudests := h.lrUdests (c := c) src
  have hready := (hudests.lrRoute (c := c) src rrep.destAddr).acknowledge (c := c) rrep
  have hhands := (((Node.Hands.refl n).rrepLrUdests hall hl rrep src).rrepLrRoute hall hl rrep src
    rrep.destAddr).rrepAcknowledge (c := c) hall rrep
  obtain ⟨rt, hrt, -⟩ := hudests.lookup
  have hrev : (rtTableFind (rrepLrUdests c rrep src n) rrep.origAddr).map (·.destAddr) =
      some rrep.origAddr := by
    rw [hudests.wf.rtTableFind_eq_lookup, hrt, Option.map_some, destAddr_of_lookup hrt]
  obtain ⟨i, q, d, hsent, hc, httl⟩ := rrepForward_some hr hif hready.started
    { rrep with a := false } len rrep.origAddr rrep.destAddr (t.toNat - 1)
  refine ⟨_, i, q, d, ?_, ?_, hc, httl⟩
  · exact .rrep rfl rfl
  · unfold rrepProcessLr rrepLrForwarder rrepLrRelay
    rw [if_neg (by omega), if_neg hdest, if_neg horig]
    dsimp only
    rw [hrev]
    dsimp only
    rw [if_pos hready.up]
    exact (hhands.emits.then_sent hsent).emits (helloKeepAlive_emits _)

theorem rrepHandle_passes (hnew : ∀ rt, n.lookup rrep.destAddr = some rt → rt.destSeqno = 0)
    (src : InAddr) (t : BitVec 8) :
    ∃ m i q d, AodvMsg.PassedOn (.rrep rrep) m ∧
      n.Sent (rrepHandle c rrep src t.toNat n) (.sched i q d) ∧ q.control = some m ∧
      q.ttl = (BitVec.ofInt 8 (t.toNat - 1)).toNat := by
  have hall : n.Permits fun _ => True := ⟨fun _ _ => trivial, fun _ _ => trivial⟩
  obtain ⟨n', hroute, hready⟩ := h.route (c := c) hdest hnew src
    (lastCost (c.ext.log maxNum) rrep.exts)
  have hready' := hready.acknowledge (c := c) rrep
  have hhands := ((Node.Hands.refl n).rrepRoute hall hl hroute).rrepAcknowledge (c := c) hall rrep
  obtain ⟨rt, hrt, -⟩ := h.lookup
  have hrev : (rtTableFind n rrep.origAddr).map (·.destAddr) = some rrep.origAddr := by
    rw [h.wf.rtTableFind_eq_lookup, hrt, Option.map_some, destAddr_of_lookup hrt]
  have hstarted : (setChannelNum ((rrepAcknowledge c rrep n').rt rrep.origAddr).channel
      (rrepAcknowledge c rrep n')).waitOnReboot = false := hready'.started
  obtain ⟨i, q, d, hsent, hc, httl⟩ := rrepForward_some hr hif hstarted
    { rrep with a := false } rrepCostSize rrep.origAddr rrep.destAddr (t.toNat - 1)
  refine ⟨_, i, q, d, ?_, ?_, hc, httl⟩
  · exact .rrep rfl rfl
  · unfold rrepHandle rrepRelay
    rw [hroute, hrev]
    dsimp only
    rw [if_neg (by rw [hhands.ipaddr]; exact horig), if_pos hready'.up]
    exact (hhands.emits.then_sent hsent).emits (helloKeepAlive_emits _)

theorem reply_forwarded (hq : ∀ qp ∈ n.pq, qp.p.control = none)
    (hnew : ∀ rt, n.lookup rrep.destAddr = some rt → rt.destSeqno = 0) {len : ℕ}
    (hlen : rrepSize ≤ len) (src : InAddr) (t : BitVec 8) :
    ∃ m, n.Forwards c (.rrep rrep) len src t m (BitVec.ofInt 8 (t.toNat - 1)) := by
  have hwait : ∀ m, ∀ qp ∈ n.pq, qp.p.control ≠ some m := by
    intro m qp hqp hc
    rw [hq qp hqp] at hc
    cases hc
  by_cases hlr : rrep.lr = true
  · obtain ⟨m, i, q, d, hpass, hsent, hc, httl⟩ :=
      rrepProcessLr_passes hl hr hif rrep h hdest horig hlen src t
    refine ⟨m, hpass, hwait m, i, q, d, ?_, hc, httl⟩
    unfold AodvMsg.handle rrepProcess
    dsimp only
    rw [if_pos hlr]
    exact hsent
  · obtain ⟨m, i, q, d, hpass, hsent, hc, httl⟩ := rrepHandle_passes hl hr hif { rrep with
      exts := rrep.exts.map (Ext.addCost (getCost c n src rrep.channel)) } h hdest horig hnew src t
    refine ⟨m, ?_, hwait m, i, q, d, ?_, hc, httl⟩
    · cases hpass with
      | rrep hd ho => exact .rrep hd ho
    · unfold AodvMsg.handle rrepProcess
      dsimp only
      rw [if_neg hlr, if_neg (by omega), if_neg hdest]
      exact hsent

end Forwarded

/-! ## Chains of nodes -/

/-- `k` nodes in a row pass a message on, each as it hears it from the one before, whatever their
tables; the last copy has TTL `t`. Every message received meets a condition. -/
inductive Chain (ok : AodvMsg → ℕ → BitVec 8 → Prop) : ℕ → AodvMsg → BitVec 8 → Prop
  | start (m : AodvMsg) (t : BitVec 8) : Chain ok 0 m t
  | hop {k : ℕ} {m m' : AodvMsg} {t t' : BitVec 8} (c : Ctx) (n : Node) (len : ℕ) (src : InAddr)
      (ch : BitVec 8) (hl : c.BreaksLinks) (hb : c.BuildsErrors) (hok : ok m len t)
      (h : n.Forwards c m len src t m' t') :
      Chain ok k m t → Chain ok (k + 1) (m'.setChannel ch) t'

/-- The message is a request, or a reply with a TTL above one; a reply shorter than its fixed
part is dropped. -/
def AodvMsg.Limited (m : AodvMsg) (len : ℕ) (t : BitVec 8) : Prop :=
  ∀ rrep, m = .rrep rrep → rrepSize ≤ len → 1 < t

theorem forwards_ttl_lt {m m' : AodvMsg} {len : ℕ} {t t' : BitVec 8} {n : Node} {src : InAddr}
    (hl : c.BreaksLinks) (hb : c.BuildsErrors) (hlim : m.Limited len t)
    (h : n.Forwards c m len src t m' t') : 1 < t ∧ t' < t := by
  obtain ⟨hpass, hwait, i, q, d, hsent, hc, httl⟩ := h
  have hemits : n.Emits (Output.TtlBelow n m t.toNat) (m.handle c len src t.toNat n) := by
    cases hpass with
    | rreq => exact rreq_ttlBelow hl hb _ len src t n
    | rrep => exact rrep_ttlBelow hl hb _ len src (hlim _ rfl) n
  obtain ⟨hone, hlt⟩ := hemits.sent hsent i q d m' rfl hc hpass hwait
  rw [BitVec.lt_def, BitVec.lt_def]
  simp
  omega

theorem chain_length_le {k : ℕ} {m : AodvMsg} {t : BitVec 8} (h : Chain AodvMsg.Limited k m t) :
    k + t.toNat ≤ maxTtl.toNat := by
  induction h with
  | start m t =>
    have := t.isLt
    show 0 + t.toNat ≤ 255
    omega
  | hop c n len src ch hl hb hok hforw _ ih =>
    have hlt := BitVec.lt_def.mp (forwards_ttl_lt hl hb hok hforw).2
    omega

/-- An agent that hears of no one, with a route to the originator of a reply. -/
def readyNode (own orig : InAddr) : Node :=
  storeEntry { destAddr := orig, hcnt := 2, state := .valid, hash := orig }
    (Node.init (sampleCtx 0) own)

theorem readyNode_ready (own orig : InAddr) (hops : BitVec 8) :
    (readyNode own orig).Ready orig hops := by
  have hempty : ∀ a, (Node.init (sampleCtx 0) own).lookup a = none := fun _ => rfl
  refine ⟨(init_rtWf own).storeEntry rfl ⟨rfl, rfl⟩ (hempty orig), ?_, ?_, rfl, rfl⟩
  · unfold Node.rt readyNode
    rw [lookup_storeEntry, if_pos rfl]
    rfl
  · intro a rt hrt hone
    unfold readyNode at hrt
    rw [lookup_storeEntry] at hrt
    split at hrt
    · cases hrt
      cases hone
    · cases (hempty a).symm.trans hrt

theorem exists_other (a b : InAddr) : ∃ own, a ≠ own ∧ b ≠ own := by
  by_contra hnone
  have hb : ∀ own, a ≠ own → b = own := fun own ha => by
    by_contra hb
    exact hnone ⟨own, ha, hb⟩
  by_cases ha : a = 0
  · have h1 := hb 1 (by rw [ha]; decide)
    have h2 := hb 2 (by rw [ha]; decide)
    exact absurd (h1.symm.trans h2) (by decide)
  · have h0 := hb 0 ha
    by_cases ha' : a = 1
    · have h2 := hb 2 (by rw [ha']; decide)
      exact absurd (h0.symm.trans h2) (by decide)
    · exact absurd (h0.symm.trans (hb 1 ha')) (by decide)

theorem exists_forwards (rrep : RREP) {len : ℕ} (hlen : rrepSize ≤ len) (src : InAddr)
    (t : BitVec 8) : ∃ n m, Node.Forwards (sampleCtx 0) n (.rrep rrep) len src t (.rrep m)
      (BitVec.ofInt 8 (t.toNat - 1)) := by
  obtain ⟨own, hdest, horig⟩ := exists_other rrep.destAddr rrep.origAddr
  have hready := readyNode_ready own rrep.origAddr (rrep.hcnt + 1)
  have hnew : ∀ rt, (readyNode own rrep.origAddr).lookup rrep.destAddr = some rt →
      rt.destSeqno = 0 := by
    intro rt hrt
    unfold readyNode at hrt
    rw [lookup_storeEntry] at hrt
    split at hrt
    · cases hrt
      rfl
    · cases hrt
  have hpq : (readyNode own rrep.origAddr).pq = [] := rfl
  have hwait : ∀ qp ∈ (readyNode own rrep.origAddr).pq, qp.p.control = none := by
    rw [hpq]
    exact fun qp hqp => absurd hqp List.not_mem_nil
  have hsends : (sampleCtx 0).conf.ratelimit = false ∧ 0 < (sampleCtx 0).conf.nIfaces := by decide
  obtain ⟨m, hforw⟩ := reply_forwarded (described_breaksLinks sampleLog {} { now := 0 }) hsends.1
    hsends.2 rrep hready hdest horig hwait hnew hlen src t
  have hpass := hforw.1
  cases hpass with
  | rrep hd ho => exact ⟨_, _, hforw⟩

/-- A request is passed on only with a TTL above one and with a smaller one, a reply of the full
length exactly when its TTL is above one. A chain of such hops is no longer than the TTL
allows. -/
theorem forwarded_within_ttl (m : AodvMsg) (len : ℕ) (src : InAddr) (t : BitVec 8) :
    ((∀ c n m' t', Ctx.BreaksLinks c → Ctx.BuildsErrors c →
      Node.Forwards c n m len src t m' t' → 1 < t ∧ t' < t) ↔ m.Limited len t) ∧
    ∀ k, Chain AodvMsg.Limited k m t → k ≤ maxTtl.toNat := by
  refine ⟨⟨fun hall => ?_, fun hlim => ?_⟩, fun k h => ?_⟩
  · rintro rrep rfl hlen
    obtain ⟨n, m', hforw⟩ := exists_forwards rrep hlen src t
    exact (hall (sampleCtx 0) n _ _ (described_breaksLinks sampleLog {} { now := 0 })
      (described_buildsErrors sampleLog {} { now := 0 }) hforw).1
  · exact fun c n m' t' hl hb hforw => forwards_ttl_lt hl hb hlim hforw
  · have := chain_length_le h
    omega

/-- Nothing ends a chain of replies. -/
theorem reply_chain_unbounded (k : ℕ) :
    ∃ rrep t, Chain (fun _ _ _ => True) k (.rrep rrep) t := by
  induction k with
  | zero => exact ⟨{}, 0, .start _ _⟩
  | succ k ih =>
    obtain ⟨rrep, t, hchain⟩ := ih
    obtain ⟨n, m, hforw⟩ := exists_forwards rrep (Nat.le_refl rrepSize) 0 t
    exact ⟨_, _, .hop (sampleCtx 0) n rrepSize 0 0 (described_breaksLinks sampleLog {} { now := 0 })
      (described_buildsErrors sampleLog {} { now := 0 }) trivial hforw hchain⟩

/-- A reply that agent 1 hears with TTL 0 goes on to its neighbour 2 with TTL 255. -/
theorem reply_forwarded_wraps :
    ¬ ∀ n, Reachable {} (.described sampleLog {}) 1 n → ∀ m len src t m' t',
      n.Forwards (sampleCtx 0) m len src t m' t' → 1 < t ∧ t' < t := by
  intro hall
  have hwf := (reachable_balanced (described_callsOnly sampleLog {}) (heardNode_reachable 6)).wf
  have hsends : (sampleCtx 0).conf.ratelimit = false ∧ 0 < (sampleCtx 0).conf.nIfaces := by decide
  have hready : (heardNode 6).Ready 2 1 := by
    refine ⟨hwf, by decide +kernel, fun a rt _ _ => by decide, by decide +kernel, by decide +kernel⟩
  have hwait : ∀ qp ∈ (heardNode 6).pq, qp.p.control = none := by
    have hpq : (heardNode 6).pq = [] := List.length_eq_zero_iff.mp (by decide +kernel)
    rw [hpq]
    exact fun qp hqp => absurd hqp List.not_mem_nil
  have hnew : ∀ rt, (heardNode 6).lookup 9 = some rt → rt.destSeqno = 0 := by
    have hnone : ((heardNode 6).lookup 9).isNone = true := by decide +kernel
    intro rt hrt
    rw [hrt] at hnone
    cases hnone
  obtain ⟨m, hforw⟩ := reply_forwarded (described_breaksLinks sampleLog {} { now := 0 })
    hsends.1 hsends.2
    { type := aodvRrep, destAddr := 9, origAddr := 2, destSeqno := 5, lifetime := 3000 } hready
    (by decide +kernel) (by decide +kernel) hwait hnew (Nat.le_refl rrepSize) 3 0
  exact absurd (hall _ (heardNode_reachable 6) _ _ _ _ _ _ hforw).1 (by decide)

end AodvUU

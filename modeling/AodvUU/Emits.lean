import AodvUU.RouteWrites

/-! # What the handlers hand out

The trace `out` only grows. For each function the outputs it adds are described by a predicate,
from the socket up. -/
namespace AodvUU

variable {c : Ctx}

/-- The outputs added on the way from `n` to `n'` satisfy `P`. -/
def Node.Emits (P : Output → Prop) (n n' : Node) : Prop := ∃ l, n'.out = n.out ++ l ∧ ∀ o ∈ l, P o

namespace Node.Emits

variable {P Q : Output → Prop} {n n' n'' : Node}

theorem of_out (h : n'.out = n.out) : n.Emits P n' := ⟨[], by simp [h], by simp⟩

theorem refl (n : Node) : n.Emits P n := of_out rfl

theorem trans (h : n.Emits P n') (h' : n'.Emits P n'') : n.Emits P n'' := by
  obtain ⟨l, hl, hP⟩ := h
  obtain ⟨l', hl', hP'⟩ := h'
  refine ⟨l ++ l', by rw [hl', hl, List.append_assoc], fun o ho => ?_⟩
  exact (List.mem_append.mp ho).elim (hP o) (hP' o)

theorem mono (h : n.Emits P n') (hPQ : ∀ o, P o → Q o) : n.Emits Q n' := by
  obtain ⟨l, hl, hP⟩ := h
  exact ⟨l, hl, fun o ho => hPQ o (hP o ho)⟩

theorem handOut {o : Output} (ho : P o) (n : Node) : n.Emits P (n.handOut o) :=
  ⟨[o], rfl, by simpa using ho⟩

theorem mem (h : n.Emits P n') {o : Output} (ho : o ∈ n'.out) : o ∈ n.out ∨ P o := by
  obtain ⟨l, hl, hP⟩ := h
  rw [hl] at ho
  exact (List.mem_append.mp ho).imp_right (hP o)

theorem foldl {α : Type*} {f : Node → α → Node} (l : List α)
    (h : ∀ n : Node, ∀ x ∈ l, n.Emits P (f n x)) (n : Node) : n.Emits P (l.foldl f n) := by
  induction l generalizing n with
  | nil => exact refl n
  | cons x l ih => exact (h n x (by simp)).trans (ih (fun n y hy => h n y (by simp [hy])) (f n x))

end Node.Emits

structure Packet.Copy (p q : Packet) : Prop where
  ptype : q.ptype = p.ptype
  saddr : q.saddr = p.saddr
  daddr : q.daddr = p.daddr
  msg : q.msg = p.msg
  ttl : p.direction = .down → q.ttl = p.ttl

/-- `sendPacket` schedules the packet instead of dropping it. -/
def Packet.Passes (p : Packet) (own : InAddr) : Prop :=
  (p.direction = .up ∧ p.saddr ≠ own ∧ 1 < p.ttl) ∨ (p.direction = .down ∧ p.saddr = own)

instance (p : Packet) (own : InAddr) : Decidable (p.Passes own) :=
  inferInstanceAs (Decidable (_ ∨ _))

/-- What `sendPacket` of the agent `own` does with a packet while `channelNum` is `ch`. -/
def Output.Sends (own : InAddr) (ch : Int) (p : Packet) : Output → Prop
  | .sched i q _ => p.Passes own ∧ p.Copy q ∧ (p.daddr ≠ aodvBroadcast → i = ch)
  | .drop _ _ => True
  | .deliver _ => False

def Output.Control (own dst : InAddr) (ttl ch : Int) (m : AodvMsg) : Output → Prop
  | .sched i q _ => q.ptype = .aodvuu ∧ q.saddr = own ∧ q.daddr = dst ∧ q.ttl = ttl ∧
      q.msg = some m ∧ (dst ≠ aodvBroadcast → i = ch)
  | .drop _ _ => True
  | .deliver _ => False

theorem schedule_emits {p p' : Packet} {n : Node} (hp : p.Passes n.ipaddr) (hcopy : p.Copy p')
    (a : InAddr) (delay : ℚ) :
    n.Emits (Output.Sends n.ipaddr n.channelNum p) (schedule c p' a delay n) := by
  obtain ⟨h1, h2, h3, h4, h5⟩ := hcopy
  unfold schedule
  split
  · next hbc =>
    refine .foldl _ (fun n' i _ => .handOut ?_ n') n
    exact ⟨hp, ⟨h1, h2, h3, h4, h5⟩, fun h => absurd (h3 ▸ hbc) h⟩
  · exact .handOut ⟨hp, ⟨h1, h2, h3, h4, h5⟩, fun _ => rfl⟩ n

theorem sendPacket_emits (p : Packet) (a : InAddr) (delay : ℚ) (n : Node) :
    n.Emits (Output.Sends n.ipaddr n.channelNum p) (sendPacket c p a delay n) := by
  unfold sendPacket
  split_ifs with hup httl hdown
  · exact .handOut trivial n
  · refine schedule_emits (.inl ⟨hup.1, hup.2, by omega⟩) ?_ a delay
    exact ⟨rfl, rfl, rfl, rfl, fun h => by rw [hup.1] at h; cases h⟩
  · exact schedule_emits (.inr hdown) ⟨rfl, rfl, rfl, rfl, fun _ => rfl⟩ a delay
  · exact .handOut trivial n

theorem rateLimit_eq {n n' : Node} (h : rateLimit c n = some n') :
    ∃ r r', n' = { n with rreqRatel := r, rerrRatel := r' } := by
  unfold rateLimit at h
  split at h
  · split at h
    · obtain ⟨r, -, rfl⟩ := Option.map_eq_some_iff.mp h
      exact ⟨r, n.rerrRatel, rfl⟩
    · split at h
      · obtain ⟨r, -, rfl⟩ := Option.map_eq_some_iff.mp h
        exact ⟨n.rreqRatel, r, rfl⟩
      · cases h
        exact ⟨n.rreqRatel, n.rerrRatel, rfl⟩
  · cases h
    exact ⟨n.rreqRatel, n.rerrRatel, rfl⟩

/-- `aodv_socket_send` hands the buffer to `sendPacket` and leaves everything else but the
trace, the rate windows and the broadcast time. -/
theorem aodvSocketSend_eq (a : InAddr) (len : ℕ) (ttl : BitVec 8) (n : Node) :
    aodvSocketSend c a len ttl n = n ∨ ∃ r r' t, aodvSocketSend c a len ttl n =
      sendPacket c (controlPacket a len ttl n) a 0
        { n with rreqRatel := r, rerrRatel := r', bcastTime := t } := by
  unfold aodvSocketSend
  split
  · exact .inl rfl
  · cases h : rateLimit c n with
    | none => exact .inl rfl
    | some n' =>
      obtain ⟨r, r', rfl⟩ := rateLimit_eq h
      dsimp only
      split
      · exact .inr ⟨r, r', c.now, rfl⟩
      · exact .inr ⟨r, r', n.bcastTime, rfl⟩

theorem aodvSocketSend_emits (a : InAddr) (len : ℕ) (ttl : BitVec 8) (n : Node) :
    n.Emits (Output.Control n.ipaddr a ttl.toNat n.channelNum (n.sendBuf.trunc len))
      (aodvSocketSend c a len ttl n) := by
  rcases aodvSocketSend_eq (c := c) a len ttl n with h | ⟨r, r', t, h⟩
  · rw [h]
    exact .refl n
  · rw [h]
    refine Node.Emits.mono (sendPacket_emits _ a 0 _) fun o ho => ?_
    cases o with
    | sched i q d =>
      obtain ⟨-, ⟨h1, h2, h3, h4, h5⟩, hch⟩ := ho
      exact ⟨h1, h2, h3, h5 rfl, h4, hch⟩
    | drop | deliver => exact ho

theorem schedule_eq (p : Packet) (a : InAddr) (delay : ℚ) (n : Node) :
    schedule c p a delay n = { n with out := (schedule c p a delay n).out } := by
  unfold schedule
  split
  · exact List.foldlRecOn (motive := fun n' : Node => n' = { n with out := n'.out }) _ _ rfl
      fun n' hn' i _ => congrArg (Node.handOut _) hn'
  · rfl

theorem sendPacket_eq (p : Packet) (a : InAddr) (delay : ℚ) (n : Node) :
    sendPacket c p a delay n = { n with out := (sendPacket c p a delay n).out } := by
  unfold sendPacket
  split_ifs
  · rfl
  · exact schedule_eq _ a delay n
  · exact schedule_eq p a delay n
  · rfl

theorem aodvSocketSend_frame (a : InAddr) (len : ℕ) (ttl : BitVec 8) (n : Node) :
    aodvSocketSend c a len ttl n =
      { n with
        rreqRatel := (aodvSocketSend c a len ttl n).rreqRatel
        rerrRatel := (aodvSocketSend c a len ttl n).rerrRatel
        bcastTime := (aodvSocketSend c a len ttl n).bcastTime
        out := (aodvSocketSend c a len ttl n).out } := by
  rcases aodvSocketSend_eq (c := c) a len ttl n with h | ⟨r, r', t, h⟩
  · rw [h]
  · rw [h, sendPacket_eq]

/-! ## Queued packets -/

theorem sendQueued_eq (a : InAddr) (qps : List QPkt) (delay : ℚ) (n : Node) :
    sendQueued c a qps delay n = { n with out := (sendQueued c a qps delay n).out } := by
  induction qps generalizing delay n with
  | nil => rfl
  | cons qp qps ih =>
    unfold sendQueued
    rw [ih, sendPacket_eq]

theorem sendQueued_emits (a : InAddr) (qps : List QPkt) (delay : ℚ) (n : Node) :
    n.Emits (fun o => ∃ qp ∈ qps, o.Sends n.ipaddr n.channelNum qp.p) (sendQueued c a qps delay n) := by
  induction qps generalizing delay n with
  | nil => exact .refl n
  | cons qp qps ih =>
    unfold sendQueued
    have hfirst : n.Emits (fun o => ∃ q ∈ qp :: qps, o.Sends n.ipaddr n.channelNum q.p)
        (sendPacket c qp.p a delay n) :=
      (sendPacket_emits qp.p a delay n).mono fun o ho => ⟨qp, by simp, ho⟩
    refine hfirst.trans ((ih _ _).mono fun o ho => ?_)
    obtain ⟨q, hq, ho⟩ := ho
    rw [sendPacket_eq] at ho
    exact ⟨q, by simp [hq], ho⟩

theorem refreshQueued_out (rt : RtTable) (a : InAddr) (n : Node) :
    (refreshQueued c rt a n).out = n.out := by
  unfold refreshQueued
  split
  · dsimp only
    split
    · rfl
    · split <;> rfl
  · rfl

theorem packetQueueSetVerdict_emits (a : InAddr) (v : Verdict) (n : Node) :
    n.Emits (fun o => (∃ qp ∈ n.pq, qp.destAddr = a ∧ o.Sends n.ipaddr n.channelNum qp.p) ∨
      ∃ p r, o = .drop p r) (packetQueueSetVerdict c a v n) := by
  cases v with
  | encSend =>
    simp only [packetQueueSetVerdict]
    split
    · exact .refl n
    · split
      · exact .of_out rfl
      · split
        · exact .of_out (refreshQueued_out _ _ _)
        · exact .of_out rfl
  | send =>
    simp only [packetQueueSetVerdict]
    split
    · exact .of_out rfl
    · next rt _ =>
      refine Node.Emits.trans ?_ (.of_out (refreshQueued_out _ _ _))
      refine Node.Emits.mono (sendQueued_emits rt.nextHop _ 0 (takeQueued a n)) fun o ho => .inl ?_
      obtain ⟨qp, hqp, ho⟩ := ho
      obtain ⟨hmem, hdest⟩ := List.mem_filter.mp hqp
      exact ⟨qp, hmem, by simpa using hdest, ho⟩
  | drop =>
    simp only [packetQueueSetVerdict]
    refine Node.Emits.trans (.of_out rfl : n.Emits _ (takeQueued a n)) ?_
    exact .foldl _ (fun n' qp _ => .handOut (.inr ⟨_, _, rfl⟩) n') _

theorem flushSeek_emits (a : InAddr) (n : Node) :
    n.Emits (fun o => (∃ qp ∈ n.pq, qp.destAddr = a ∧ o.Sends n.ipaddr n.channelNum qp.p) ∨
      ∃ p r, o = .drop p r) (flushSeek c a n) := by
  unfold flushSeek
  split
  · split
    · exact .refl n
    · exact packetQueueSetVerdict_emits a _ (seekListRemove a n)
  · exact .refl n

theorem packetQueueAdd_emits (p : Packet) (a : InAddr) (n : Node) :
    n.Emits (fun o => ∃ p r, o = .drop p r) (packetQueueAdd c p a n) := by
  unfold packetQueueAdd
  dsimp only
  split
  · cases hpq : n.pq with
    | nil => exact .of_out rfl
    | cons qp rest => exact ⟨[.drop qp.p .qFull], rfl, by simp⟩
  · exact .of_out rfl

/-! ## Hellos -/

def Output.Hello (own : InAddr) (o : Output) : Prop :=
  ∃ ch m, o.Control own aodvBroadcast 1 ch (.rrep m) ∧ m.destAddr = own ∧ m.origAddr = own

theorem updateNeighborInfo_frame (n : Node) : (updateNeighborInfo n).out = n.out ∧
    (updateNeighborInfo n).ipaddr = n.ipaddr ∧ (updateNeighborInfo n).pq = n.pq := by
  unfold updateNeighborInfo
  refine List.foldlRecOn (motive := fun n' : Node =>
    n'.out = n.out ∧ n'.ipaddr = n.ipaddr ∧ n'.pq = n.pq) _ _ ?_ fun n' hn' j _ => ?_
  · refine List.foldlRecOn (motive := fun n' : Node =>
      n'.out = n.out ∧ n'.ipaddr = n.ipaddr ∧ n'.pq = n.pq) _ _ ⟨rfl, rfl, rfl⟩ fun n' hn' j _ => ?_
    split <;> exact hn'
  · split <;> exact hn'

theorem helloBroadcast_emits (n : Node) :
    n.Emits (Output.Hello n.ipaddr) (helloBroadcast c n) := by
  unfold helloBroadcast
  dsimp only
  obtain ⟨hout, hip, -⟩ := updateNeighborInfo_frame (updateStaInfo c (helloAdvance n))
  refine Node.Emits.trans (.of_out hout : n.Emits _ _)
    (Node.Emits.mono (aodvSocketSend_emits aodvBroadcast _ 1 _) fun o ho => ?_)
  have hown : o.Control n.ipaddr aodvBroadcast 1 _ (.rrep _) := hip ▸ ho
  exact ⟨_, _, hown, rfl, rfl⟩

theorem helloSend_emits (n : Node) : n.Emits (Output.Hello n.ipaddr) (helloSend c n) := by
  unfold helloSend
  split
  · exact .of_out rfl
  · dsimp only
    split_ifs
    · exact (helloBroadcast_emits n).trans (.of_out rfl)
    · exact .of_out rfl
    · exact .of_out rfl

theorem helloKeepAlive_emits (n : Node) : n.Emits (Output.Hello n.ipaddr) (helloKeepAlive c n) := by
  unfold helloKeepAlive helloStart
  split_ifs
  · exact .refl n
  · exact helloSend_emits { n with fwdTime := c.now, helloTimer := { handler := .helloSend } }
  · exact .refl n

/-! ## Requests -/

/-- A request about `own` with the number it is about to have. -/
def Output.Flood (own : InAddr) (seqno : BitVec 32) (o : Output) : Prop :=
  ∃ ttl ch m, o.Control own aodvBroadcast ttl ch (.rreq m) ∧ m.origAddr = own ∧
    m.origSeqno = seqno + 1 ∧ m.exts = [.cost 0]

theorem rreqSendWithChannel_emits (a : InAddr) (v : BitVec 32) (ttl : Int) (flags : BitVec 8)
    (channel : ℕ) (n : Node) :
    n.Emits (Output.Flood n.ipaddr n.seqno) (rreqSendWithChannel c a v ttl flags channel n) := by
  unfold rreqSendWithChannel
  refine Node.Emits.trans (.of_out rfl : n.Emits _ _)
    (Node.Emits.mono (aodvSocketSend_emits aodvBroadcast _ _ _) fun o ho => ?_)
  exact ⟨_, _, _, ho, rfl, rfl, rfl⟩

theorem flood_emits (a : InAddr) (v : BitVec 32) (ttl : Int) (flags : BitVec 8) (n : Node) :
    n.Emits (Output.Flood n.ipaddr n.seqno)
      (onEachChannel (rreqSendWithChannel c a v ttl flags) n) := by
  have hcopies : n.Emits (Output.Flood n.ipaddr n.seqno)
        (onEachChannel (rreqSendWithChannel c a v ttl flags) n) ∧
      (onEachChannel (rreqSendWithChannel c a v ttl flags) n).ipaddr = n.ipaddr ∧
      (onEachChannel (rreqSendWithChannel c a v ttl flags) n).seqno = n.seqno := by
    refine List.foldlRecOn (motive := fun n' : Node => n.Emits (Output.Flood n.ipaddr n.seqno) n' ∧
      n'.ipaddr = n.ipaddr ∧ n'.seqno = n.seqno) _ _ ⟨.refl n, rfl, rfl⟩ fun n' hn' i _ => ?_
    obtain ⟨hemits, hip, hs⟩ := hn'
    have hsend := rreqSendWithChannel_emits (c := c) a v ttl flags i n'
    rw [hip, hs] at hsend
    refine ⟨hemits.trans hsend, ?_, ?_⟩
    · exact (aodvSocketSend_traffic _ _ _ _).ipaddr.trans hip
    · exact (aodvSocketSend_traffic _ _ _ _).seqno.trans hs
  exact hcopies.1

theorem keepWaiting_frame (a : InAddr) (n : Node) : (keepWaiting c a n).out = n.out ∧
    (keepWaiting c a n).ipaddr = n.ipaddr ∧ (keepWaiting c a n).seqno = n.seqno := by
  unfold keepWaiting
  split <;> exact ⟨rfl, rfl, rfl⟩

theorem rreqRouteDiscovery_emits (a : InAddr) (flags : BitVec 8) (n : Node) :
    n.Emits (Output.Flood n.ipaddr n.seqno) (rreqRouteDiscovery c a flags n) := by
  have hseek : ∀ (n : Node) (sk : SeekList), (seekListInsert sk n.seqnoIncr).out = n.out :=
    fun _ _ => rfl
  unfold rreqRouteDiscovery
  split
  · exact .refl n
  · dsimp only
    refine Node.Emits.trans ?_ (.of_out (hseek _ _))
    cases rtTableFind n a with
    | none => exact flood_emits a _ _ flags n
    | some rt =>
      obtain ⟨hout, hip, hs⟩ := keepWaiting_frame (c := c) rt.destAddr n
      have hflood := flood_emits (c := c) a rt.destSeqno 32 flags (keepWaiting c rt.destAddr n)
      rw [hip, hs] at hflood
      exact Node.Emits.trans (.of_out hout) hflood

def Output.IsControl (own : InAddr) (o : Output) : Prop := ∃ dst ttl ch m, o.Control own dst ttl ch m

theorem modRreq_eq (f : RREQ → RREQ) (n : Node) :
    ∃ m, n.modRreq f = { n with sendBuf := m } := by
  unfold Node.modRreq
  split
  · exact ⟨_, rfl⟩
  · exact ⟨n.sendBuf, rfl⟩

theorem markRepair_eq (a : InAddr) (n : Node) : ∃ t, markRepair c a n = { n with tbl := t } := by
  unfold markRepair keepWaiting
  split
  · exact ⟨_, rfl⟩
  · exact ⟨_, rfl⟩

/-- The request is put together in the send buffer while the table is marked. -/
theorem repairAll_eq (a : InAddr) (us : List RtTable) (n : Node) :
    ∃ t m, us.foldl (fun n u => repairUdest c a u n) n = { n with tbl := t, sendBuf := m } := by
  induction us generalizing n with
  | nil => exact ⟨n.tbl, n.sendBuf, rfl⟩
  | cons u us ih =>
    obtain ⟨t, hmark⟩ := markRepair_eq (c := c) u.destAddr n
    obtain ⟨m, hmod⟩ := modRreq_eq (fun m => if u.destAddr = a then { m with destSeqno := u.destSeqno }
      else rreqAddUdest m u.destAddr u.destSeqno) (markRepair c u.destAddr n)
    obtain ⟨t', m', hall⟩ := ih (repairUdest c a u n)
    refine ⟨t', m', hall.trans ?_⟩
    unfold repairUdest
    rw [hmod, hmark]

theorem rreqLocalRepair_eq {a : InAddr} {n : Node} (hflag : hasFlag (n.rt a).flags rtRepair) :
    ∃ t m len ttl s, s.destAddr = (n.rt a).nextHop ∧
      rreqLocalRepair c a n = seekListInsert s (aodvSocketSend c aodvBroadcast len ttl
        { rreqCreate (rreqLocalRepairFlag ||| rreqDestOnly) (n.rt a).nextHop 0 n.ipaddr n with
          tbl := t, sendBuf := m }) := by
  unfold rreqLocalRepair
  dsimp only
  rw [if_pos hflag]
  have hadd : ∃ m, (if (n.rt a).nextHop ≠ (n.rt a).destAddr then
      (rreqCreate (rreqLocalRepairFlag ||| rreqDestOnly) (n.rt a).nextHop 0 n.ipaddr n).modRreq
        (rreqAddUdest · (n.rt a).destAddr (n.rt a).destSeqno)
      else rreqCreate (rreqLocalRepairFlag ||| rreqDestOnly) (n.rt a).nextHop 0 n.ipaddr n) =
      { rreqCreate (rreqLocalRepairFlag ||| rreqDestOnly) (n.rt a).nextHop 0 n.ipaddr n with
        sendBuf := m } := by
    split
    · exact modRreq_eq _ _
    · exact ⟨_, rfl⟩
  obtain ⟨m, hadd⟩ := hadd
  rw [hadd]
  obtain ⟨t, hmark⟩ := markRepair_eq (c := c) a
    { rreqCreate (rreqLocalRepairFlag ||| rreqDestOnly) (n.rt a).nextHop 0 n.ipaddr n with
      sendBuf := m }
  rw [hmark]
  obtain ⟨t', m', hall⟩ := repairAll_eq (c := c) (n.rt a).nextHop
    (sharingNextHop (n.rt a)
      { rreqCreate (rreqLocalRepairFlag ||| rreqDestOnly) (n.rt a).nextHop 0 n.ipaddr n with
        sendBuf := m, tbl := t })
    { rreqCreate (rreqLocalRepairFlag ||| rreqDestOnly) (n.rt a).nextHop 0 n.ipaddr n with
      sendBuf := m, tbl := t }
  rw [hall]
  exact ⟨t', m', _, _, _, rfl, rfl⟩

theorem rreqLocalRepair_emits (a : InAddr) (n : Node) :
    n.Emits (Output.IsControl n.ipaddr) (rreqLocalRepair c a n) := by
  by_cases hflag : hasFlag (n.rt a).flags rtRepair
  · obtain ⟨t, m, len, ttl, s, -, hrepair⟩ := rreqLocalRepair_eq (c := c) hflag
    rw [hrepair]
    refine Node.Emits.trans (.of_out rfl) (Node.Emits.mono
      (aodvSocketSend_emits aodvBroadcast len ttl
        { rreqCreate (rreqLocalRepairFlag ||| rreqDestOnly) (n.rt a).nextHop 0 n.ipaddr n with
          tbl := t, sendBuf := m }) fun o ho => ?_)
    exact ⟨_, _, _, _, ho⟩
  · unfold rreqLocalRepair
    dsimp only
    rw [if_neg hflag]
    exact .refl n

/-! ## Link breaks -/

/-- A message without a route: a route error or an acknowledgement. -/
def AodvMsg.Routeless : AodvMsg → Prop
  | .rerr _ | .rrepAck _ => True
  | _ => False

def Output.Routeless (o : Output) : Prop := ∀ m, o.sent = some m → m.Routeless

/-- What is documented of `neighbor_link_break`: routes are invalidated and route errors sent. -/
structure LinkBreak (n n' : Node) : Prop where
  ipaddr : n'.ipaddr = n.ipaddr
  seqno : n'.seqno = n.seqno
  channelNum : n'.channelNum = n.channelNum
  ages : n.Ages n'
  unidir : ∀ a rt rt', n.lookup a = some rt → n'.lookup a = some rt' →
    hasFlag rt'.flags rtUnidir = hasFlag rt.flags rtUnidir
  pq : ∀ qp ∈ n'.pq, qp ∈ n.pq
  emits : n.Emits Output.Routeless n'

theorem LinkBreak.trans {n n' n'' : Node} (h : LinkBreak n n') (h' : LinkBreak n' n'') :
    LinkBreak n n'' where
  ipaddr := h'.ipaddr.trans h.ipaddr
  seqno := h'.seqno.trans h.seqno
  channelNum := h'.channelNum.trans h.channelNum
  ages := h.ages.trans h'.ages
  unidir a rt rt'' hrt hrt'' := by
    obtain ⟨rt', hrt', -⟩ := h.ages.lookup_eq_some hrt
    exact (h'.unidir a rt' rt'' hrt' hrt'').trans (h.unidir a rt rt' hrt hrt')
  pq qp hqp := h.pq qp (h'.pq qp hqp)
  emits := h.emits.trans h'.emits

def Ctx.BreaksLinks (c : Ctx) : Prop := ∀ a n, LinkBreak n (c.ext.neighborLinkBreak c.env a n)

/-! ## Replies -/

theorem suspectUnidir_emits (hl : c.BreaksLinks) (rev : InAddr) (n : Node) :
    n.Emits Output.Routeless (suspectUnidir c rev n) := by
  unfold suspectUnidir
  dsimp only
  split
  · split
    · exact .refl n
    · split
      · refine Node.Emits.trans (Node.Emits.trans ?_ (hl _ _).emits) (.of_out rfl)
        exact .of_out rfl
      · exact .refl n
  · exact .refl n

theorem Output.Control.sent {own dst : InAddr} {ttl ch : Int} {m m' : AodvMsg} {o : Output}
    (h : o.Control own dst ttl ch m) (hm : o.sent = some m') : m' = m := by
  cases o with
  | sched i q d =>
    obtain ⟨hp, -, -, -, hmsg, -⟩ := h
    have hq : (if q.ptype = .aodvuu then q.msg else none) = some m' := hm
    rw [if_pos hp, hmsg] at hq
    exact (Option.some.inj hq).symm
  | drop | deliver => cases hm

theorem rrepAcknowledge_emits (rrep : RREP) (n : Node) :
    n.Emits Output.Routeless (rrepAcknowledge c rrep n) := by
  unfold rrepAcknowledge
  split
  · refine Node.Emits.trans (.of_out rfl : n.Emits _ (aodvSocketNewMsg (.rrepAck rrepAckCreate) n))
      (Node.Emits.mono (aodvSocketSend_emits _ _ _ _) fun o ho m hm => ?_)
    rw [ho.sent hm]
    trivial
  · exact .refl n

theorem rrepArrived_emits (rrep : RREP) (pre : Option RtTable) (n : Node) :
    n.Emits Output.Routeless (rrepArrived c rrep pre n) := by
  unfold rrepArrived
  dsimp only
  split
  · split
    · refine Node.Emits.trans ?_
        (Node.Emits.mono (aodvSocketSend_emits _ _ _ _) fun o ho m hm => ?_)
      · exact .of_out rfl
      · rw [ho.sent hm]
        trivial
    · exact .of_out rfl
  · exact .refl n

theorem rreqForwardWithChannel_emits (rreq : RREQ) (size : ℕ) (ttl : Int) (channel : ℕ)
    (n : Node) :
    n.Emits (fun o => o.Control n.ipaddr aodvBroadcast (BitVec.ofInt 8 ttl).toNat channel
      (.rreq { rreq with
        hcnt := rreq.hcnt + 1
        exts := takeExts (size - rreqSize) (takeExts (size - rreqSize) rreq.exts) }))
      (rreqForwardWithChannel c rreq size ttl channel n) := by
  unfold rreqForwardWithChannel
  exact Node.Emits.trans (.of_out rfl : n.Emits _ _) (aodvSocketSend_emits aodvBroadcast _ _ _)

def Output.Forward (own : InAddr) (rreq : RREQ) (size : ℕ) (o : Output) : Prop :=
  ∃ ttl ch m, o.Control own aodvBroadcast ttl ch (.rreq m) ∧ m.type = rreq.type ∧ m.g = rreq.g ∧
    m.origAddr = rreq.origAddr ∧ m.origSeqno = rreq.origSeqno ∧
    m.exts = takeExts (size - rreqSize) (takeExts (size - rreqSize) rreq.exts)

theorem rreqForward_emits (fwd : Option RtTable) (rreq : RREQ) (size : ℕ) (ttl : Int) (n : Node) :
    n.Emits (Output.Forward n.ipaddr rreq size) (rreqForward c fwd rreq size ttl n) := by
  have hraise : (raiseDestSeqno fwd rreq).type = rreq.type ∧ (raiseDestSeqno fwd rreq).g = rreq.g ∧
      (raiseDestSeqno fwd rreq).origAddr = rreq.origAddr ∧
      (raiseDestSeqno fwd rreq).origSeqno = rreq.origSeqno ∧
      (raiseDestSeqno fwd rreq).exts = rreq.exts := by
    unfold raiseDestSeqno
    split
    · exact ⟨rfl, rfl, rfl, rfl, rfl⟩
    · split <;> exact ⟨rfl, rfl, rfl, rfl, rfl⟩
  obtain ⟨htype, hg, horig, hseqno, hexts⟩ := hraise
  have hcopies : ∀ l : List ℕ, n.Emits (Output.Forward n.ipaddr rreq size)
        (l.foldl (fun n i =>
          rreqForwardWithChannel c (raiseDestSeqno fwd rreq) size (ttl - 1) i n) n) ∧
      (l.foldl (fun n i =>
          rreqForwardWithChannel c (raiseDestSeqno fwd rreq) size (ttl - 1) i n) n).ipaddr =
        n.ipaddr := by
    intro l
    refine List.foldlRecOn (motive := fun n' : Node =>
      n.Emits (Output.Forward n.ipaddr rreq size) n' ∧ n'.ipaddr = n.ipaddr) _ _
      ⟨.refl n, rfl⟩ fun n' hn' i _ => ?_
    obtain ⟨hemits, hip⟩ := hn'
    refine ⟨hemits.trans ((rreqForwardWithChannel_emits _ size _ i n').mono fun o ho => ?_), ?_⟩
    · rw [hip] at ho
      exact ⟨_, _, _, ho, htype, hg, horig, hseqno, by rw [← hexts]⟩
    · exact (aodvSocketSend_traffic _ _ _ _).ipaddr.trans hip
  unfold rreqForward
  split
  · exact (hcopies _).1
  · exact .refl n

def forwardedReply (rrep : RREP) (size : ℕ) (fwd : InAddr) (n : Node) : AodvMsg :=
  .rrep { rrep with hcnt := (n.rt fwd).hcnt, exts := takeExts (size - rrepSize) rrep.exts }

theorem rrepForward_eq (rrep : RREP) (size : ℕ) (rev fwd : InAddr) (ttl : Int) (n : Node) :
    rrepForward c rrep size rev fwd ttl n =
      rtTableUpdateTimeout c rev (msecs c.conf.activeRouteTimeout) (addPrecursors fwd rev
        (aodvSocketSend c (n.rt rev).nextHop size (BitVec.ofInt 8 ttl)
          (aodvSocketNewMsg (forwardedReply rrep size fwd n) n))) := rfl

theorem rrepForward_emits (rrep : RREP) (size : ℕ) (rev fwd : InAddr) (ttl : Int) (n : Node) :
    n.Emits (fun o => o.Control n.ipaddr (n.rt rev).nextHop (BitVec.ofInt 8 ttl).toNat n.channelNum
      ((forwardedReply rrep size fwd n).trunc size)) (rrepForward c rrep size rev fwd ttl n) := by
  have hsend := aodvSocketSend_emits (c := c) (n.rt rev).nextHop size (BitVec.ofInt 8 ttl)
    (aodvSocketNewMsg (forwardedReply rrep size fwd n) n)
  have hframe : ∀ n' : Node, (rtTableUpdateTimeout c rev (msecs c.conf.activeRouteTimeout)
      (addPrecursors fwd rev n')).out = n'.out := fun _ => rfl
  rw [rrepForward_eq]
  exact Node.Emits.trans (Node.Emits.trans (.of_out rfl) hsend) (.of_out (hframe _))

/-! ## Writes to the table -/

/-- The output carries no route, unless the packet was waiting in the packet queue. -/
def Output.Plain (n : Node) (o : Output) : Prop :=
  ∀ m, o.sent = some m → m.Routeless ∨ ∃ qp ∈ n.pq, qp.p.control = some m

theorem flushSeek_plain {n₀ n : Node} (hpq : ∀ qp ∈ n.pq, qp ∈ n₀.pq) (a : InAddr) :
    n.Emits (Output.Plain n₀) (flushSeek c a n) := by
  refine (flushSeek_emits a n).mono fun o ho m hm => ?_
  rcases ho with ⟨qp, hqp, -, ho⟩ | ⟨p, r, rfl⟩
  · refine .inr ⟨qp, hpq qp hqp, ?_⟩
    cases o with
    | sched i q d =>
      obtain ⟨-, ⟨hp, -, -, hmsg, -⟩, -⟩ := ho
      rw [← hm]
      show _ = q.control
      rw [Packet.control, Packet.control, hp, hmsg]
    | drop | deliver => cases hm
  · cases hm

theorem rtTableAdd_plain (a next : InAddr) (hops : BitVec 8) (seqno life : BitVec 32)
    (state : RtState) (flags : BitVec 16) (ch : Int) (cost : ℚ) (n : Node) :
    n.Emits (Output.Plain n) (rtTableAdd c a next hops seqno life state flags ch cost n) :=
  Node.Emits.trans (.of_out rfl) (flushSeek_plain (fun _ h => h) a)

theorem rtTableUpdateGen_plain (hl : c.BreaksLinks) (chan : Option (Int × ℚ)) (a next : InAddr)
    (hops : BitVec 8) (seqno life : BitVec 32) (state : RtState) (flags : BitVec 16) (n : Node) :
    n.Emits (Output.Plain n) (rtTableUpdateGen c chan a next hops seqno life state flags n) := by
  have hbreak : ∀ m : Node, m.out = n.out → m.pq = n.pq →
      n.Emits (Output.Plain n) (breakOneHop c a m) ∧
      ∀ qp ∈ (breakOneHop c a m).pq, qp ∈ n.pq := by
    intro m hout hpq
    have hb := hl a (m.modRt a fun rt =>
      { rt with lastHelloTime := 0, helloCnt := 0, helloTimer := rt.helloTimer.remove })
    refine ⟨?_, fun qp hqp => hpq ▸ hb.pq qp hqp⟩
    exact Node.Emits.trans (.of_out hout) (Node.Emits.mono hb.emits fun o ho m' hm' => .inl (ho m' hm'))
  have hbefore : n.Emits (Output.Plain n) (beforeUpdate c a hops state n) ∧
      ∀ qp ∈ (beforeUpdate c a hops state n).pq, qp ∈ n.pq := by
    unfold beforeUpdate
    dsimp only
    split_ifs
    · exact hbreak _ rfl rfl
    · exact hbreak _ rfl rfl
    · exact ⟨.of_out rfl, fun _ h => h⟩
    · exact ⟨.refl n, fun _ h => h⟩
  unfold rtTableUpdateGen
  dsimp only
  refine Node.Emits.trans (Node.Emits.trans hbefore.1 ?_) (flushSeek_plain ?_ a)
  · exact .of_out rfl
  · exact hbefore.2

theorem rtTableInsertWithChannel_plain (a next : InAddr) (hops : BitVec 8)
    (seqno life : BitVec 32) (state : RtState) (flags : BitVec 16) (ch : Int) (cost : ℚ) (n : Node) :
    n.Emits (Output.Plain n)
      (rtTableInsertWithChannel c a next hops seqno life state flags ch cost n) := by
  unfold rtTableInsertWithChannel
  split_ifs
  · exact .refl n
  · exact .refl n
  · exact rtTableAdd_plain a next hops seqno life state flags ch cost n

theorem rreqReverse_plain (hl : c.BreaksLinks) {rreq : RREQ} {ipSrc : InAddr} {cost : ℚ}
    {n n' : Node} (h : rreqReverse c rreq ipSrc cost n = some n') : n.Emits (Output.Plain n) n' := by
  unfold rreqReverse at h
  dsimp only at h
  split at h
  · cases h
    exact rtTableInsertWithChannel_plain _ _ _ _ _ _ _ _ _ n
  · split at h
    · cases h
      exact rtTableUpdateGen_plain hl _ _ _ _ _ _ _ _ n
    · cases h

theorem rrepRoute_plain (hl : c.BreaksLinks) {rrep : RREP} {ipSrc : InAddr} {cost : ℚ}
    {n n' : Node} (h : rrepRoute c rrep ipSrc cost n = some n') : n.Emits (Output.Plain n) n' := by
  unfold rrepRoute at h
  split at h
  · cases h
    exact rtTableInsertWithChannel_plain _ _ _ _ _ _ _ _ _ n
  · split at h
    · cases h
      exact rtTableUpdateGen_plain hl _ _ _ _ _ _ _ _ n
    · cases h

/-! ## The described link break -/

theorem LinkBreak.refl (n : Node) : LinkBreak n n where
  ipaddr := rfl
  seqno := rfl
  channelNum := rfl
  ages := .of_tbl rfl
  unidir a rt rt' hrt hrt' := by
    cases hrt.symm.trans hrt'
    rfl
  pq _ h := h
  emits := .refl n

theorem LinkBreak.buffer (n : Node) (m : AodvMsg) : LinkBreak n { n with sendBuf := m } where
  ipaddr := rfl
  seqno := rfl
  channelNum := rfl
  ages := .of_tbl rfl
  unidir := (LinkBreak.refl n).unidir
  pq _ h := h
  emits := .of_out rfl

theorem rtTableInvalidate_linkBreak (a : InAddr) (n : Node) :
    LinkBreak n (rtTableInvalidate c a n) := by
  have hframe : (rtTableInvalidate c a n).ipaddr = n.ipaddr ∧
      (rtTableInvalidate c a n).seqno = n.seqno ∧
      (rtTableInvalidate c a n).channelNum = n.channelNum ∧
      (rtTableInvalidate c a n).pq = n.pq ∧ (rtTableInvalidate c a n).out = n.out := by
    unfold rtTableInvalidate
    split
    · exact ⟨rfl, rfl, rfl, rfl, rfl⟩
    · split <;> exact ⟨rfl, rfl, rfl, rfl, rfl⟩
  obtain ⟨hip, hs, hch, hpq, hout⟩ := hframe
  refine ⟨hip, hs, hch, (Effect.invalidate a : Effect c {} n _).ages, ?_, fun qp hqp => hpq ▸ hqp,
    .of_out hout⟩
  intro b rt rt' hrt hrt'
  rw [lookup_rtTableInvalidate, hrt] at hrt'
  split at hrt'
  · cases hrt'
    dsimp only
    split <;> rfl
  · cases hrt'
    rfl

theorem hasFlag_markRepair (flags : BitVec 16) :
    hasFlag (flags ||| rtRepair) rtUnidir = hasFlag flags rtUnidir := by
  have hand : (flags ||| rtRepair) &&& rtUnidir = flags &&& rtUnidir := by
    rw [BitVec.and_or_distrib_right, show rtRepair &&& rtUnidir = 0#16 from rfl, BitVec.or_zero]
  rw [hasFlag, hasFlag, hand]

theorem linkBreak_modRt (a : InAddr) {f : RtTable → RtTable} (hf : ∀ rt : RtTable, rt.Ages (f rt))
    (hu : ∀ rt, hasFlag (f rt).flags rtUnidir = hasFlag rt.flags rtUnidir) (n : Node) :
    LinkBreak n (n.modRt a f) := by
  refine ⟨rfl, rfl, rfl, .modRt a hf n, ?_, fun _ h => h, .of_out rfl⟩
  intro b rt rt' hrt hrt'
  rw [lookup_modRt a b fun rt => (hf rt).destAddr, hrt] at hrt'
  split at hrt'
  · cases hrt'
    exact hu rt
  · cases hrt'
    rfl

/-- The walk and the error it puts together: once made, the buffer holds a route error. -/
structure LinkBreakWalk (n : Node) (w : Bool × Node) : Prop where
  linkBreak : LinkBreak n w.2
  buffer : w.1 = true → ∃ m, w.2.sendBuf = .rerr m

theorem linkBreakRerr_walk {n : Node} {w : Bool × Node} (h : LinkBreakWalk n w) (a : InAddr) :
    LinkBreakWalk n (linkBreakRerr a w) := by
  unfold linkBreakRerr
  dsimp only
  split_ifs with hprec hmade
  · exact h
  · obtain ⟨m, hm⟩ := h.buffer hmade
    exact ⟨h.linkBreak.trans (.buffer w.2 _), fun _ => ⟨_, congrArg (AodvMsg.addUdest _ _) hm⟩⟩
  · exact ⟨h.linkBreak.trans (.buffer w.2 _), fun _ => ⟨_, rfl⟩⟩

theorem linkBreakVisit_walk {n : Node} {w : Bool × Node} (h : LinkBreakWalk n w) (repair : Bool)
    (a : InAddr) : LinkBreakWalk n (linkBreakVisit c repair w a) := by
  have hmark : LinkBreakWalk n (w.1, if repair then
      w.2.modRt a fun rt => { rt with flags := rt.flags ||| rtRepair } else w.2) := by
    split
    · refine ⟨h.linkBreak.trans (linkBreak_modRt a (fun rt => ?_)
        (fun rt => hasFlag_markRepair rt.flags) w.2), h.buffer⟩
      exact ⟨rfl, rfl, rfl, rfl, rfl, .inl ⟨rfl, rfl⟩⟩
    · exact h
  have hbuf : ∀ m : Node, (rtTableInvalidate c a m).sendBuf = m.sendBuf := by
    intro m
    unfold rtTableInvalidate
    split <;> [rfl; split <;> rfl]
  refine linkBreakRerr_walk ⟨hmark.linkBreak.trans (rtTableInvalidate_linkBreak a _), fun hw => ?_⟩ a
  obtain ⟨m, hm⟩ := hmark.buffer hw
  exact ⟨m, (hbuf _).trans hm⟩

theorem linkBreakWalk_walk (a : InAddr) (n : Node) : LinkBreakWalk n (linkBreakWalk c a n) := by
  have hfirst : LinkBreakWalk n (false, rtTableInvalidate c a n) :=
    ⟨rtTableInvalidate_linkBreak a n, nofun⟩
  unfold linkBreakWalk
  refine List.foldlRecOn (motive := LinkBreakWalk n) _ _ ?_
    fun w hw b _ => linkBreakVisit_walk hw _ b
  split
  · exact hfirst
  · exact linkBreakRerr_walk hfirst a

theorem sendRerr_linkBreak (a : InAddr) (len : ℕ) (ttl : BitVec 8) {n : Node} {m : RERR}
    (hm : n.sendBuf = .rerr m) : LinkBreak n (aodvSocketSend c a len ttl n) := by
  have htraffic := aodvSocketSend_traffic (c := c) a len ttl n
  have hlook : ∀ b, (aodvSocketSend c a len ttl n).lookup b = n.lookup b := fun b => by
    rw [Node.lookup, htraffic.tbl]
    rfl
  refine ⟨htraffic.ipaddr, htraffic.seqno, ?_, .of_tbl htraffic.tbl, ?_, ?_, ?_⟩
  · rw [aodvSocketSend_frame]
  · intro b rt rt' hrt hrt'
    cases hrt.symm.trans ((hlook b).symm.trans hrt')
    rfl
  · rw [aodvSocketSend_frame]
    exact fun _ h => h
  · refine (aodvSocketSend_emits a len ttl n).mono fun o ho m' hm' => ?_
    rw [ho.sent hm', hm]
    trivial

theorem neighborLinkBreakDescribed_linkBreak (a : InAddr) (n : Node) :
    LinkBreak n (neighborLinkBreakDescribed c a n) := by
  obtain ⟨hbreak, hbuf⟩ := linkBreakWalk_walk (c := c) a n
  unfold neighborLinkBreakDescribed
  dsimp only
  split
  · next hmade =>
    obtain ⟨m, hm⟩ := hbuf hmade
    exact hbreak.trans (sendRerr_linkBreak _ _ _ hm)
  · exact hbreak

theorem described_breaksLinks (log : ℚ → ℚ) (cf : Conf) (env : Env) :
    Ctx.BreaksLinks ⟨cf, .described log cf, env⟩ :=
  fun a n => neighborLinkBreakDescribed_linkBreak a n

end AodvUU

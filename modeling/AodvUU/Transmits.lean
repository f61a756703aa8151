import AodvUU.Channel

/-! # What the handlers of requests and replies transmit

A predicate that lets waiting packets, messages without a route and own Hellos through holds of
all that these handlers hand out, once it holds of the replies they build and of the message they
pass on. -/
namespace AodvUU

variable {c : Ctx}

/-- From `n₀` to `n` only outputs with `P` were handed out, and no packet joined the queue. -/
structure Node.Hands (P : Output → Prop) (n₀ n : Node) : Prop where
  emits : n₀.Emits P n
  pq : ∀ qp ∈ n.pq, qp ∈ n₀.pq
  ipaddr : n.ipaddr = n₀.ipaddr

/-- What `P` lets through without regard to the message that is handled. -/
structure Node.Permits (n₀ : Node) (P : Output → Prop) : Prop where
  plain : ∀ o, o.Plain n₀ → P o
  hello : ∀ o, o.Hello n₀.ipaddr → P o

/-- The external link break builds route errors and nothing else in the send buffer. -/
def Ctx.BuildsErrors (c : Ctx) : Prop := ∀ a n,
  (c.ext.neighborLinkBreak c.env a n).sendBuf = n.sendBuf ∨
    ∃ m, (c.ext.neighborLinkBreak c.env a n).sendBuf = .rerr m

/-! ## Packet queue -/

theorem refreshQueued_eq (rt : RtTable) (a : InAddr) (n : Node) :
    refreshQueued c rt a n = { n with tbl := (refreshQueued c rt a n).tbl } := by
  unfold refreshQueued
  split
  · dsimp only
    split
    · rfl
    · split <;> rfl
  · rfl

theorem packetQueueSetVerdict_frame (a : InAddr) (v : Verdict) (n : Node) :
    (∀ qp ∈ (packetQueueSetVerdict c a v n).pq, qp ∈ n.pq) ∧
    (packetQueueSetVerdict c a v n).sendBuf = n.sendBuf := by
  have htake : ∀ qp ∈ (takeQueued a n).pq, qp ∈ n.pq := fun qp hqp => List.mem_of_mem_filter hqp
  cases v with
  | encSend =>
    simp only [packetQueueSetVerdict]
    split
    · exact ⟨fun qp hqp => hqp, rfl⟩
    · split
      · exact ⟨htake, rfl⟩
      · split
        · rw [refreshQueued_eq]
          exact ⟨htake, rfl⟩
        · exact ⟨htake, rfl⟩
  | send =>
    simp only [packetQueueSetVerdict]
    split
    · exact ⟨fun qp hqp => List.mem_of_mem_eraseP hqp, rfl⟩
    · rw [refreshQueued_eq, sendQueued_eq]
      exact ⟨htake, rfl⟩
  | drop =>
    simp only [packetQueueSetVerdict]
    exact List.foldlRecOn (motive := fun n' : Node => (∀ qp ∈ n'.pq, qp ∈ n.pq) ∧
      n'.sendBuf = n.sendBuf) _ _ ⟨htake, rfl⟩ fun n' hn' _ _ => hn'

theorem flushSeek_frame (a : InAddr) (n : Node) :
    (∀ qp ∈ (flushSeek c a n).pq, qp ∈ n.pq) ∧ (flushSeek c a n).sendBuf = n.sendBuf := by
  unfold flushSeek
  split
  · split
    · exact ⟨fun qp hqp => hqp, rfl⟩
    · exact packetQueueSetVerdict_frame a _ (seekListRemove a n)
  · exact ⟨fun qp hqp => hqp, rfl⟩

theorem helloKeepAlive_pq (n : Node) : (helloKeepAlive c n).pq = n.pq := by
  have hbroadcast : ∀ n' : Node, (helloBroadcast c n').pq = n'.pq := by
    intro n'
    unfold helloBroadcast
    rw [aodvSocketSend_frame]
    exact (updateNeighborInfo_frame _).2.2
  unfold helloKeepAlive helloStart
  split_ifs
  · rfl
  · unfold helloSend
    dsimp only
    split_ifs
    · rfl
    · exact hbroadcast _
    · rfl
    · rfl
  · rfl

theorem suspectUnidir_buffer (hb : c.BuildsErrors) (rev : InAddr) (n : Node) :
    (suspectUnidir c rev n).sendBuf = n.sendBuf ∨ ∃ m, (suspectUnidir c rev n).sendBuf = .rerr m := by
  unfold suspectUnidir
  dsimp only
  split
  · split
    · exact .inl rfl
    · next neighbor _ =>
      split
      · exact hb neighbor.destAddr (n.modRt neighbor.destAddr fun rt =>
          { rt with flags := rt.flags ||| rtUnidir, helloTimer := rt.helloTimer.remove })
      · exact .inl rfl
  · exact .inl rfl

theorem rtTableUpdateGen_buffer (hb : c.BuildsErrors) (chan : Option (Int × ℚ)) (a next : InAddr)
    (hops : BitVec 8) (seqno life : BitVec 32) (state : RtState) (flags : BitVec 16) (n : Node) :
    (rtTableUpdateGen c chan a next hops seqno life state flags n).sendBuf = n.sendBuf ∨
      ∃ m, (rtTableUpdateGen c chan a next hops seqno life state flags n).sendBuf = .rerr m := by
  have hbefore : (beforeUpdate c a hops state n).sendBuf = n.sendBuf ∨
      ∃ m, (beforeUpdate c a hops state n).sendBuf = .rerr m := by
    unfold beforeUpdate breakOneHop
    dsimp only
    split_ifs
    · exact hb a _
    · exact hb a _
    · exact .inl rfl
    · exact .inl rfl
  unfold rtTableUpdateGen
  dsimp only
  rw [(flushSeek_frame a _).2]
  exact hbefore

namespace Node.Hands

variable {P : Output → Prop} {n₀ n n' : Node}

theorem refl (n : Node) : n.Hands P n := ⟨.refl n, fun _ h => h, rfl⟩

theorem still (h : n₀.Hands P n) (hout : n'.out = n.out) (hpq : n'.pq = n.pq)
    (hip : n'.ipaddr = n.ipaddr) : n₀.Hands P n' :=
  ⟨h.emits.trans (.of_out hout), fun qp hqp => h.pq qp (hpq ▸ hqp), hip.trans h.ipaddr⟩

theorem send (h : n₀.Hands P n) {a : InAddr} {len : ℕ} {ttl : BitVec 8}
    (hP : ∀ o, o.Control n₀.ipaddr a ttl.toNat n.channelNum (n.sendBuf.trunc len) → P o) :
    n₀.Hands P (aodvSocketSend c a len ttl n) := by
  have hsend := aodvSocketSend_emits (c := c) a len ttl n
  rw [h.ipaddr] at hsend
  refine ⟨h.emits.trans (hsend.mono hP), ?_, ?_⟩
  · rw [aodvSocketSend_frame]
    exact h.pq
  · rw [aodvSocketSend_frame]
    exact h.ipaddr

theorem sendRouteless (h : n₀.Hands P n) (hP : n₀.Permits P) (a : InAddr) (len : ℕ) (ttl : BitVec 8)
    (hm : (n.sendBuf.trunc len).Routeless) : n₀.Hands P (aodvSocketSend c a len ttl n) := by
  refine h.send fun o ho => hP.plain o fun m hsent => .inl ?_
  rw [ho.sent hsent]
  exact hm

theorem linkBreak (h : n₀.Hands P n) (hP : n₀.Permits P) (hl : c.BreaksLinks) (a : InAddr) :
    n₀.Hands P (c.ext.neighborLinkBreak c.env a n) := by
  have hbreak := hl a n
  refine ⟨h.emits.trans (hbreak.emits.mono fun o ho => ?_), ?_, hbreak.ipaddr.trans h.ipaddr⟩
  · exact hP.plain o fun m hm => .inl (ho m hm)
  · exact fun qp hqp => h.pq qp (hbreak.pq qp hqp)

theorem flushSeek (h : n₀.Hands P n) (hP : n₀.Permits P) (a : InAddr) :
    n₀.Hands P (flushSeek c a n) := by
  refine ⟨h.emits.trans ((flushSeek_plain h.pq a).mono hP.plain), ?_, ?_⟩
  · exact fun qp hqp => h.pq qp ((flushSeek_frame a n).1 qp hqp)
  · exact (flushSeek_effects a n : Effects c {} _ _).ipaddr.trans h.ipaddr

theorem helloKeepAlive (h : n₀.Hands P n) (hP : n₀.Permits P) :
    n₀.Hands P (helloKeepAlive c n) := by
  have hhello := helloKeepAlive_emits (c := c) n
  rw [h.ipaddr] at hhello
  refine ⟨h.emits.trans (hhello.mono hP.hello), ?_, ?_⟩
  · rw [helloKeepAlive_pq]
    exact h.pq
  · exact (helloKeepAlive_effects n : Effects c {} _ _).ipaddr.trans h.ipaddr

/-! ## Routing table -/

theorem rtTableUpdateGen (h : n₀.Hands P n) (hP : n₀.Permits P) (hl : c.BreaksLinks)
    (chan : Option (Int × ℚ)) (a next : InAddr) (hops : BitVec 8) (seqno life : BitVec 32)
    (state : RtState) (flags : BitVec 16) :
    n₀.Hands P (rtTableUpdateGen c chan a next hops seqno life state flags n) := by
  have hbefore : n₀.Hands P (beforeUpdate c a hops state n) := by
    have hactive : n₀.Hands P (if (n.rt a).state = .invalid ∧ state = .valid then
        { n with numActive := n.numActive + 1 } else n) := by
      split
      · exact h.still rfl rfl rfl
      · exact h
    unfold beforeUpdate
    dsimp only
    split
    · unfold breakOneHop
      refine Node.Hands.linkBreak ?_ hP hl a
      exact hactive.still rfl rfl rfl
    · exact hactive
  refine Node.Hands.flushSeek ?_ hP a
  exact hbefore.still rfl rfl rfl

theorem rtTableInsert (h : n₀.Hands P n) (hP : n₀.Permits P) (a next : InAddr) (hops : BitVec 8)
    (seqno life : BitVec 32) (state : RtState) (flags : BitVec 16) :
    n₀.Hands P (rtTableInsert c a next hops seqno life state flags n) := by
  unfold AodvUU.rtTableInsert
  split
  · exact h
  · refine Node.Hands.flushSeek ?_ hP a
    exact h.still rfl rfl rfl

theorem rtTableInsertWithChannel (h : n₀.Hands P n) (hP : n₀.Permits P) (a next : InAddr)
    (hops : BitVec 8) (seqno life : BitVec 32) (state : RtState) (flags : BitVec 16) (ch : Int)
    (cost : ℚ) :
    n₀.Hands P (rtTableInsertWithChannel c a next hops seqno life state flags ch cost n) := by
  unfold AodvUU.rtTableInsertWithChannel
  split_ifs
  · exact h
  · exact h
  · refine Node.Hands.flushSeek ?_ hP a
    exact h.still rfl rfl rfl

/-! ## Replies -/

theorem suspectUnidir (h : n₀.Hands P n) (hP : n₀.Permits P) (hl : c.BreaksLinks) (rev : InAddr) :
    n₀.Hands P (suspectUnidir c rev n) := by
  unfold AodvUU.suspectUnidir
  dsimp only
  split
  · split
    · exact h
    · next neighbor _ =>
      split
      · have hmark : n₀.Hands P (n.modRt neighbor.destAddr fun rt =>
            { rt with flags := rt.flags ||| rtUnidir, helloTimer := rt.helloTimer.remove }) :=
          h.still rfl rfl rfl
        exact (hmark.linkBreak hP hl neighbor.destAddr).still rfl rfl rfl
      · exact h
  · exact h

theorem rrepSendGen (h : n₀.Hands P n) (hP : n₀.Permits P) (hl : c.BreaksLinks)
    (hb : c.BuildsErrors) {m : RREP} (hm : n.sendBuf = .rrep m) (channel : Option Int)
    (rev : InAddr) (fwd : Option InAddr) (size : ℕ)
    (hreply : ∀ dst ch o, o.Control n₀.ipaddr dst 255 ch ((AodvMsg.rrep m).trunc size) → P o) :
    n₀.Hands P (rrepSendGen c channel rev fwd size n) := by
  have hsuspect := h.suspectUnidir hP hl rev
  have hsend : ∀ dst ch, n₀.Hands P
      (aodvSocketSend c dst size maxTtl (setChannelNum ch (AodvUU.suspectUnidir c rev n))) := by
    intro dst ch
    have hset : n₀.Hands P (setChannelNum ch (AodvUU.suspectUnidir c rev n)) :=
      hsuspect.still rfl rfl rfl
    rcases suspectUnidir_buffer hb rev n with hbuf | ⟨m', hbuf⟩
    · refine hset.send fun o ho => hreply dst ch o ?_
      rw [← hm, ← hbuf]
      exact ho
    · refine hset.sendRouteless hP dst size maxTtl ?_
      show (AodvMsg.trunc size (AodvUU.suspectUnidir c rev n).sendBuf).Routeless
      rw [hbuf]
      trivial
  unfold AodvUU.rrepSendGen
  refine Node.Hands.helloKeepAlive ?_ hP
  cases fwd with
  | none => exact hsend _ _
  | some f => exact (hsend _ _).still rfl rfl rfl

theorem rrepForward (h : n₀.Hands P n) (rrep : RREP) (size : ℕ) (rev fwd : InAddr) (ttl : Int)
    (hpass : ∀ dst ch o, o.Control n₀.ipaddr dst (BitVec.ofInt 8 ttl).toNat ch
      ((forwardedReply rrep size fwd n).trunc size) → P o) :
    n₀.Hands P (rrepForward c rrep size rev fwd ttl n) := by
  have hbuf : n₀.Hands P (aodvSocketNewMsg (forwardedReply rrep size fwd n) n) :=
    h.still rfl rfl rfl
  rw [rrepForward_eq]
  exact (hbuf.send fun o ho => hpass _ _ o ho).still rfl rfl rfl

theorem rrepAcknowledge (h : n₀.Hands P n) (hP : n₀.Permits P) (rrep : RREP) :
    n₀.Hands P (rrepAcknowledge c rrep n) := by
  have hnew : n₀.Hands P (aodvSocketNewMsg (.rrepAck rrepAckCreate) n) := h.still rfl rfl rfl
  unfold AodvUU.rrepAcknowledge
  split
  · exact hnew.sendRouteless hP _ _ _ trivial
  · exact h

theorem rrepArrived (h : n₀.Hands P n) (hP : n₀.Permits P) (rrep : RREP) (pre : Option RtTable) :
    n₀.Hands P (rrepArrived c rrep pre n) := by
  unfold AodvUU.rrepArrived
  dsimp only
  split
  · split
    · refine Node.Hands.sendRouteless ?_ hP _ _ 1 trivial
      exact h.still rfl rfl rfl
    · exact h.still rfl rfl rfl
  · exact h

end Node.Hands

/-! ## Requests -/

def forwardedRequest (fwd : Option RtTable) (rreq : RREQ) (size : ℕ) : RREQ :=
  let m := raiseDestSeqno fwd rreq
  { m with hcnt := m.hcnt + 1, exts := takeExts (size - rreqSize) (takeExts (size - rreqSize) m.exts) }

/-- `P` lets replies through that ask for no acknowledgement. -/
def Node.PermitsReplies (n₀ : Node) (P : Output → Prop) : Prop :=
  ∀ (m : RREP) dst ch o, m.a = false → o.Control n₀.ipaddr dst 255 ch (.rrep m) → P o

namespace Node.Hands

variable {P : Output → Prop} {n₀ n n' : Node}

theorem rreqForward (h : n₀.Hands P n) (fwd : Option RtTable) (rreq : RREQ) (size : ℕ) (ttl : Int)
    (hpass : 1 < ttl → ∀ ch o, o.Control n₀.ipaddr aodvBroadcast (BitVec.ofInt 8 (ttl - 1)).toNat ch
      (.rreq (forwardedRequest fwd rreq size)) → P o) :
    n₀.Hands P (rreqForward c fwd rreq size ttl n) := by
  unfold AodvUU.rreqForward
  split
  · next hpos =>
    refine List.foldlRecOn (motive := n₀.Hands P) _ _ h fun n' hn' i _ => ?_
    have hbuf : n₀.Hands P (setChannelNum i (aodvSocketQueueMsg (.rreq { raiseDestSeqno fwd rreq with
        hcnt := (raiseDestSeqno fwd rreq).hcnt + 1 }) size n')) := hn'.still rfl rfl rfl
    exact hbuf.send fun o ho => hpass hpos _ o ho
  · exact h

theorem rreqReverse (h : n₀.Hands P n) (hP : n₀.Permits P) (hl : c.BreaksLinks) {rreq : RREQ}
    {ipSrc : InAddr} {cost : ℚ} (hrev : rreqReverse c rreq ipSrc cost n = some n') :
    n₀.Hands P n' := by
  unfold AodvUU.rreqReverse at hrev
  dsimp only at hrev
  split at hrev
  · cases hrev
    exact h.rtTableInsertWithChannel hP _ _ _ _ _ _ _ _ _
  · split at hrev
    · cases hrev
      exact h.rtTableUpdateGen hP hl _ _ _ _ _ _ _ _
    · cases hrev

theorem rreqLrReverse (h : n₀.Hands P n) (hP : n₀.Permits P) (hl : c.BreaksLinks) (rreq : RREQ)
    (ipSrc : InAddr) : n₀.Hands P (rreqLrReverse c rreq ipSrc n) := by
  unfold AodvUU.rreqLrReverse
  dsimp only
  split
  · exact h.rtTableInsert hP _ _ _ _ _ _ _
  · split
    · exact h.rtTableUpdateGen hP hl _ _ _ _ _ _ _ _
    · exact h

theorem rreqRecord (h : n₀.Hands P n) (orig : InAddr) (id : BitVec 32) (cost : ℚ) :
    n₀.Hands P (rreqRecordInsertWithCost c orig id cost n) := by
  unfold rreqRecordInsertWithCost
  split
  · exact h
  · exact h.still rfl rfl rfl

theorem seqnoRaise (h : n₀.Hands P n) (v : BitVec 32) : n₀.Hands P (n.seqnoRaise v) := by
  unfold Node.seqnoRaise
  split_ifs
  · exact h
  · exact h.still rfl rfl rfl
  · exact h.still rfl rfl rfl
  · exact h

theorem reply (h : n₀.Hands P n) (hP : n₀.Permits P) (hreply : n₀.PermitsReplies P)
    (hl : c.BreaksLinks) (hb : c.BuildsErrors) {m : RREP} (hm : m.a = false) (channel : Option Int)
    (rev : InAddr) (fwd : Option InAddr) (size : ℕ) :
    n₀.Hands P (AodvUU.rrepSendGen c channel rev fwd size (aodvSocketNewMsg (.rrep m) n)) := by
  have hnew : n₀.Hands P (aodvSocketNewMsg (.rrep m) n) := h.still rfl rfl rfl
  exact hnew.rrepSendGen hP hl hb rfl channel rev fwd size
    fun dst ch o ho => hreply { m with exts := takeExts (size - rrepSize) m.exts } dst ch o hm ho

theorem rreqLrExts (hP : n₀.Permits P) (hreply : n₀.PermitsReplies P) (hl : c.BreaksLinks)
    (hb : c.BuildsErrors) (orig : InAddr) (exts : List Ext) (h : n₀.Hands P n) :
    n₀.Hands P (rreqLrExts c orig exts n).2 := by
  induction exts generalizing n with
  | nil => exact h
  | cons e es ih =>
    cases e with
    | rreqUdest ud =>
      unfold AodvUU.rreqLrExts
      split
      · refine ih ?_
        unfold rreqLrUdest
        exact (h.seqnoRaise _).reply hP hreply hl hb rfl _ _ _ _
      · exact ih h
    | cost | rrepUdest | helloInterval | helloNeighborSet | other => exact ih h

theorem rreqLrDestination (h : n₀.Hands P n) (hP : n₀.Permits P) (hreply : n₀.PermitsReplies P)
    (hl : c.BreaksLinks) (hb : c.BuildsErrors) (rreq : RREQ) :
    n₀.Hands P (rreqLrDestination c rreq n) := by
  unfold AodvUU.rreqLrDestination
  refine (h.seqnoRaise _).reply hP hreply hl hb ?_ _ _ _ _
  refine List.foldlRecOn (motive := fun m : RREP => m.a = false) _ _ rfl fun m hm e _ => ?_
  cases e with
  | rreqUdest | cost | rrepUdest | helloInterval | helloNeighborSet | other => exact hm

theorem rreqLrIntermediate (h : n₀.Hands P n) (hP : n₀.Permits P) (hreply : n₀.PermitsReplies P)
    (hl : c.BreaksLinks) (hb : c.BuildsErrors) (rreq : RREQ) (fwdRt : RtTable) :
    n₀.Hands P (rreqLrIntermediate c rreq fwdRt n) := by
  have hfirst : ∀ m : RREP, m.a = false → n₀.Hands P
      (rrepSend c rreq.origAddr (some fwdRt.destAddr) rrepSize (aodvSocketNewMsg (.rrep m) n)) :=
    fun m hm => h.reply hP hreply hl hb hm _ _ _ _
  unfold AodvUU.rreqLrIntermediate
  dsimp only
  split
  · exact (hfirst _ rfl).reply hP hreply hl hb rfl _ _ _ _
  · exact hfirst _ rfl

theorem rreqLrAnswer (h : n₀.Hands P n) (hP : n₀.Permits P) (hreply : n₀.PermitsReplies P)
    (hl : c.BreaksLinks) (hb : c.BuildsErrors) {rreq : RREQ} {len : ℕ} {ttl : Int}
    (hpass : 1 < ttl → ∀ fwd ch o, o.Control n₀.ipaddr aodvBroadcast
      (BitVec.ofInt 8 (ttl - 1)).toNat ch (.rreq (forwardedRequest fwd rreq len)) → P o) :
    n₀.Hands P (rreqLrAnswer c rreq len ttl n) := by
  unfold AodvUU.rreqLrAnswer
  split
  · exact h.rreqLrDestination hP hreply hl hb rreq
  · split
    · exact h.rreqForward none rreq len ttl fun hpos => hpass hpos none
    · next fwdRt _ =>
      split
      · exact h.rreqLrIntermediate hP hreply hl hb rreq fwdRt
      · exact h.rreqForward (some fwdRt) rreq len ttl fun hpos => hpass hpos (some fwdRt)

theorem rreqProcessLr (hP : n.Permits P) (hreply : n.PermitsReplies P) (hl : c.BreaksLinks)
    (hb : c.BuildsErrors) {rreq : RREQ} {len : ℕ} {ipSrc : InAddr} {ttl : Int}
    (hpass : 1 < ttl → ∀ exts fwd ch o, o.Control n.ipaddr aodvBroadcast
      (BitVec.ofInt 8 (ttl - 1)).toNat ch
      (.rreq (forwardedRequest fwd { rreq with exts } len)) → P o) :
    n.Hands P (rreqProcessLr c rreq len ipSrc ttl n) := by
  unfold AodvUU.rreqProcessLr
  split_ifs
  · exact .refl n
  · exact .refl n
  · exact .refl n
  · exact .refl n
  · have hrec : n.Hands P (rreqRecordInsert c rreq.origAddr rreq.rreqId n) :=
      (Node.Hands.refl n).rreqRecord _ _ _
    exact ((hrec.rreqLrReverse hP hl rreq ipSrc).rreqLrExts hP hreply hl hb rreq.origAddr
      rreq.exts).rreqLrAnswer hP hreply hl hb fun hpos => hpass hpos _

theorem rreqIntermediate (h : n₀.Hands P n) (hP : n₀.Permits P) (hreply : n₀.PermitsReplies P)
    (hl : c.BreaksLinks) (hb : c.BuildsErrors) (rreq : RREQ) (fwdRt : RtTable) :
    n₀.Hands P (rreqIntermediate c rreq fwdRt n) := by
  have hfirst : ∀ m : RREP, m.a = false → n₀.Hands P (rrepSendWithChannel c rreq.origAddr
      (some fwdRt.destAddr) rreqCostSize fwdRt.channel (aodvSocketNewMsg (.rrep m) n)) :=
    fun m hm => h.reply hP hreply hl hb hm _ _ _ _
  unfold AodvUU.rreqIntermediate
  dsimp only
  split
  · exact (hfirst _ rfl).reply hP hreply hl hb rfl _ _ _ _
  · exact hfirst _ rfl

theorem rreqRelay (h : n₀.Hands P n) (hP : n₀.Permits P) (hreply : n₀.PermitsReplies P)
    (hl : c.BreaksLinks) (hb : c.BuildsErrors) {rreq : RREQ} {ttl : Int}
    (hpass : 1 < ttl → ∀ fwd ch o, o.Control n₀.ipaddr aodvBroadcast
      (BitVec.ofInt 8 (ttl - 1)).toNat ch (.rreq (forwardedRequest fwd rreq rreqCostSize)) → P o) :
    n₀.Hands P (rreqRelay c rreq ttl n) := by
  have hforward : ∀ fwd n', n₀.Hands P n' →
      n₀.Hands P (AodvUU.rreqForward c fwd rreq rreqCostSize ttl n') := fun fwd n' hn' =>
    hn'.rreqForward fwd rreq rreqCostSize ttl fun hpos => hpass hpos fwd
  unfold AodvUU.rreqRelay
  split
  · exact hforward none n h
  · next fwdRt _ =>
    split
    · have hdel : n₀.Hands P (rtTableDelete fwdRt.destAddr n) := by
        unfold rtTableDelete
        split
        · exact h
        · exact h.still rfl rfl rfl
      exact hforward none _ hdel
    · split
      · exact h.rreqIntermediate hP hreply hl hb rreq fwdRt
      · exact hforward (some fwdRt) n h

theorem rreqHandle (hP : n.Permits P) (hreply : n.PermitsReplies P) (hl : c.BreaksLinks)
    (hb : c.BuildsErrors) {rreq : RREQ} {ipSrc : InAddr} {ttl : Int}
    (hpass : 1 < ttl → ∀ fwd ch o, o.Control n.ipaddr aodvBroadcast
      (BitVec.ofInt 8 (ttl - 1)).toNat ch (.rreq (forwardedRequest fwd rreq rreqCostSize)) → P o) :
    n.Hands P (rreqHandle c rreq ipSrc ttl n) := by
  have hrec := (Node.Hands.refl (P := P) n).rreqRecord (c := c) rreq.origAddr rreq.rreqId
    (lastCost (c.ext.log maxNum) rreq.exts)
  rcases rreqHandle_cases c rreq ipSrc ttl n with ⟨-, heq⟩ | ⟨-, ⟨-, heq⟩ | ⟨n₁, hrev, heq⟩⟩
  · rw [heq]
    exact .refl n
  · rw [heq]
    exact hrec
  · have hroute := hrec.rreqReverse hP hl hrev
    rw [heq]
    unfold rreqAnswer
    split
    · unfold rreqDestination
      exact (hroute.seqnoRaise _).reply hP hreply hl hb rfl _ _ _ _
    · exact hroute.rreqRelay hP hreply hl hb hpass

/-! ## Replies to a local repair -/

theorem rrepLrRoute (h : n₀.Hands P n) (hP : n₀.Permits P) (hl : c.BreaksLinks) (rrep : RREP)
    (ipSrc dest : InAddr) : n₀.Hands P (rrepLrRoute c rrep ipSrc dest n) := by
  unfold AodvUU.rrepLrRoute
  split
  · exact (h.rtTableInsert hP _ _ _ _ _ _ _).rtTableUpdateGen hP hl none _ _ _ _ _ _ _
  · exact h.rtTableUpdateGen hP hl none _ _ _ _ _ _ _

theorem rrepLrUdests (h : n₀.Hands P n) (hP : n₀.Permits P) (hl : c.BreaksLinks) (rrep : RREP)
    (ipSrc : InAddr) : n₀.Hands P (rrepLrUdests c rrep ipSrc n) := by
  unfold AodvUU.rrepLrUdests
  refine List.foldlRecOn (motive := n₀.Hands P) _ _ h fun n' hn' e _ => ?_
  cases e with
  | rrepUdest ud => exact hn'.rrepLrRoute hP hl rrep ipSrc ud.destAddr
  | cost | rreqUdest | helloInterval | helloNeighborSet | other => exact hn'

theorem rrepLrForwarder (h : n₀.Hands P n) (hP : n₀.Permits P) (hl : c.BreaksLinks) (rrep : RREP)
    (len : ℕ) (ipSrc : InAddr) (ttl : Int)
    (hpass : ∀ hcnt exts dst ch o, o.Control n₀.ipaddr dst (BitVec.ofInt 8 (ttl - 1)).toNat ch
      (.rrep { rrep with a := false, hcnt, exts }) → P o) :
    n₀.Hands P (rrepLrForwarder c rrep len ipSrc ttl n) := by
  have hroutes := (h.rrepLrUdests hP hl rrep ipSrc).rrepLrRoute hP hl rrep ipSrc rrep.destAddr
  have hack := hroutes.rrepAcknowledge (c := c) hP rrep
  unfold AodvUU.rrepLrForwarder rrepLrRelay
  dsimp only
  split
  · exact hack
  · split
    · exact hack.rrepForward _ _ _ _ _ fun dst ch o ho => hpass _ _ dst ch o ho
    · exact hack

theorem lrRerrAdd_cases (a : InAddr) (s : LrRerr) : lrRerrAdd a s = s ∨
    (s.made = true ∧ ∃ u, lrRerrAdd a s = { s with
      unicastDest := u
      node := s.node.addRerrUdest (s.node.rt a).destAddr (s.node.rt a).destSeqno }) ∨
    (s.made = false ∧ ∃ u m, lrRerrAdd a s =
      ⟨true, u, aodvSocketNewMsg (.rerr m) { s.node with rerrId := s.node.rerrId + 1 }⟩) := by
  unfold lrRerrAdd
  dsimp only
  split
  · exact .inl rfl
  · split
    · next hmade => exact .inr (.inl ⟨hmade, _, rfl⟩)
    · next hmade => exact .inr (.inr ⟨by simpa using hmade, _, _, rfl⟩)

theorem lrRepairEntry (hP : n₀.Permits P) (hl : c.BreaksLinks) (hb : c.BuildsErrors) (rrep : RREP)
    (ipSrc a : InAddr) {s : LrRerr} (h : n₀.Hands P s.node)
    (hmade : s.made = true → ∃ m, s.node.sendBuf = .rerr m) :
    n₀.Hands P (lrRepairEntry c rrep ipSrc s a).node ∧
    ((lrRepairEntry c rrep ipSrc s a).made = true →
      ∃ m, (lrRepairEntry c rrep ipSrc s a).node.sendBuf = .rerr m) := by
  unfold AodvUU.lrRepairEntry
  cases hrep : lrRepaired c rrep ipSrc a s.node with
  | none => exact ⟨h, hmade⟩
  | some n' =>
    have hupdate : ∀ hops seqno, n₀.Hands P
          (rtTableUpdate c a ipSrc hops seqno rrep.lifetime .valid 0 s.node) ∧
        (s.made = true → ∃ m, (rtTableUpdate c a ipSrc hops seqno rrep.lifetime .valid 0
          s.node).sendBuf = .rerr m) := by
      intro hops seqno
      refine ⟨h.rtTableUpdateGen hP hl none _ _ _ _ _ _ _, fun hs => ?_⟩
      rcases rtTableUpdateGen_buffer hb none a ipSrc hops seqno rrep.lifetime .valid 0 s.node with
        hbuf | hbuf
      · obtain ⟨m, hm⟩ := hmade hs
        exact ⟨m, hbuf.trans hm⟩
      · exact hbuf
    have hn' : n₀.Hands P n' ∧ (s.made = true → ∃ m, n'.sendBuf = .rerr m) := by
      unfold lrRepaired at hrep
      dsimp only at hrep
      split_ifs at hrep
      · cases hrep
        exact hupdate _ _
      · cases hrep
        exact hupdate _ _
    obtain ⟨hhands, hbuf⟩ := hn'
    dsimp only
    rcases lrRerrAdd_cases a { s with node := n' } with hadd | ⟨hs, u, hadd⟩ | ⟨-, u, m, hadd⟩
    · rw [hadd]
      exact ⟨hhands, hbuf⟩
    · rw [hadd]
      obtain ⟨m, hm⟩ := hbuf hs
      exact ⟨hhands.still rfl rfl rfl, fun _ => ⟨_, congrArg (AodvMsg.addUdest _ _) hm⟩⟩
    · rw [hadd]
      exact ⟨hhands.still rfl rfl rfl, fun _ => ⟨m, rfl⟩⟩

theorem sendRerr (h : n₀.Hands P n) (hP : n₀.Permits P) {m : RERR} (hm : n.sendBuf = .rerr m)
    (dst : InAddr) : n₀.Hands P (sendRerr c dst n) := by
  have hsend : ∀ a len, n₀.Hands P (aodvSocketSend c a len 1 n) := by
    intro a len
    refine h.sendRouteless hP a len 1 ?_
    rw [hm]
    trivial
  unfold AodvUU.sendRerr
  dsimp only
  split_ifs
  · exact hsend _ _
  · exact hsend _ _
  · exact h

theorem rrepLrOrigin (h : n₀.Hands P n) (hP : n₀.Permits P) (hl : c.BreaksLinks)
    (hb : c.BuildsErrors) (rrep : RREP) (ipSrc : InAddr) :
    n₀.Hands P (rrepLrOrigin c rrep ipSrc n) := by
  have hwalk : ∀ l : List InAddr, n₀.Hands P (l.foldl (AodvUU.lrRepairEntry c rrep ipSrc)
        { unicastDest := c.env.uninitAddr, node := n }).node ∧
      ((l.foldl (AodvUU.lrRepairEntry c rrep ipSrc)
        { unicastDest := c.env.uninitAddr, node := n }).made = true →
      ∃ m, (l.foldl (AodvUU.lrRepairEntry c rrep ipSrc)
        { unicastDest := c.env.uninitAddr, node := n }).node.sendBuf = .rerr m) := fun l =>
    List.foldlRecOn (motive := fun s : LrRerr => n₀.Hands P s.node ∧
      (s.made = true → ∃ m, s.node.sendBuf = .rerr m)) l _ ⟨h, nofun⟩
      fun s hs a _ => lrRepairEntry hP hl hb rrep ipSrc a hs.1 hs.2
  obtain ⟨hhands, hmade⟩ := hwalk (n.entries.map (·.destAddr))
  unfold AodvUU.rrepLrOrigin lrRerrSend
  split
  · next hs =>
    obtain ⟨m, hm⟩ := hmade hs
    exact hhands.sendRerr hP hm _
  · exact hhands

theorem rrepProcessLr (hP : n.Permits P) (hl : c.BreaksLinks) (hb : c.BuildsErrors) {rrep : RREP}
    {len : ℕ} {ipSrc : InAddr} {ttl : Int}
    (hpass : rrep.destAddr ≠ n.ipaddr → ∀ hcnt exts dst ch o, o.Control n.ipaddr dst
      (BitVec.ofInt 8 (ttl - 1)).toNat ch (.rrep { rrep with a := false, hcnt, exts }) → P o) :
    n.Hands P (rrepProcessLr c rrep len ipSrc ttl n) := by
  have hn : n.Hands P n := .refl n
  unfold AodvUU.rrepProcessLr
  split_ifs with hlen hdest
  · exact hn
  · exact hn
  · exact (hn.rrepLrOrigin hP hl hb rrep ipSrc).helloKeepAlive hP
  · exact (hn.rrepLrForwarder hP hl rrep len ipSrc ttl (hpass hdest)).helloKeepAlive hP

/-! ## Plain replies -/

theorem rrepRoute (h : n₀.Hands P n) (hP : n₀.Permits P) (hl : c.BreaksLinks) {rrep : RREP}
    {ipSrc : InAddr} {cost : ℚ} (hroute : rrepRoute c rrep ipSrc cost n = some n') :
    n₀.Hands P n' := by
  unfold AodvUU.rrepRoute at hroute
  split at hroute
  · cases hroute
    exact h.rtTableInsertWithChannel hP _ _ _ _ _ _ _ _ _
  · split at hroute
    · cases hroute
      exact h.rtTableUpdateGen hP hl _ _ _ _ _ _ _ _
    · cases hroute

theorem rt_rrepAcknowledge (rrep : RREP) (n : Node) (a : InAddr) :
    (AodvUU.rrepAcknowledge c rrep n).rt a = n.rt a := by
  have hsend : ∀ b len ttl m, (aodvSocketSend c b len ttl (aodvSocketNewMsg m n)).rt a = n.rt a := by
    intro b len ttl m
    rw [aodvSocketSend_frame]
    rfl
  unfold AodvUU.rrepAcknowledge
  split
  · exact hsend _ _ _ _
  · rfl

theorem rrepHandle (hP : n.Permits P) (hl : c.BreaksLinks) {rrep : RREP} {ipSrc : InAddr}
    {ttl : Int}
    (hpass : ∀ n', AodvUU.rrepRoute c rrep ipSrc (lastCost (c.ext.log maxNum) rrep.exts) n =
      some n' → ∀ dst ch o, o.Control n.ipaddr dst (BitVec.ofInt 8 (ttl - 1)).toNat ch
        (.rrep { rrep with
          a := false
          hcnt := (n'.rt rrep.destAddr).hcnt
          exts := takeExts (rrepCostSize - rrepSize) (takeExts (rrepCostSize - rrepSize) rrep.exts) })
        → P o) :
    n.Hands P (rrepHandle c rrep ipSrc ttl n) := by
  unfold AodvUU.rrepHandle
  dsimp only
  split
  · exact .refl n
  · next n' hroute =>
    have hack := ((Node.Hands.refl (P := P) n).rrepRoute hP hl hroute).rrepAcknowledge (c := c) hP rrep
    split
    · exact (hack.rrepArrived hP rrep _).helloKeepAlive hP
    · refine Node.Hands.helloKeepAlive ?_ hP
      unfold rrepRelay
      split
      · exact hack
      · next rev _ =>
        split
        · have hset : n.Hands P (setChannelNum ((AodvUU.rrepAcknowledge c rrep n').rt rev).channel
              (AodvUU.rrepAcknowledge c rrep n')) := hack.still rfl rfl rfl
          refine hset.rrepForward _ _ _ _ _ fun dst ch o ho => hpass n' hroute dst ch o ?_
          rw [← rt_rrepAcknowledge (c := c) rrep n']
          exact ho
        · exact hack

end Node.Hands

/-! ## The described link break -/

theorem linkBreakRerr_unmade {a : InAddr} {w : Bool × Node} (h : (linkBreakRerr a w).1 = false) :
    w.1 = false ∧ (linkBreakRerr a w).2 = w.2 := by
  unfold linkBreakRerr at h ⊢
  dsimp only at h ⊢
  split_ifs at h ⊢
  exact ⟨h, rfl⟩

theorem rtTableInvalidate_sendBuf (a : InAddr) (n : Node) :
    (rtTableInvalidate c a n).sendBuf = n.sendBuf := by
  unfold rtTableInvalidate
  split
  · rfl
  · split <;> rfl

theorem linkBreakWalk_unmade {a : InAddr} {n : Node} (h : (linkBreakWalk c a n).1 = false) :
    (linkBreakWalk c a n).2.sendBuf = n.sendBuf := by
  have hrerr : ∀ b (w : Bool × Node), (w.1 = false → w.2.sendBuf = n.sendBuf) →
      (linkBreakRerr b w).1 = false → (linkBreakRerr b w).2.sendBuf = n.sendBuf := by
    intro b w hw hun
    obtain ⟨hfalse, heq⟩ := linkBreakRerr_unmade hun
    rw [heq]
    exact hw hfalse
  have hwalk : (linkBreakWalk c a n).1 = false → (linkBreakWalk c a n).2.sendBuf = n.sendBuf := by
    unfold linkBreakWalk
    refine List.foldlRecOn (motive := fun w : Bool × Node => w.1 = false → w.2.sendBuf = n.sendBuf)
      _ _ ?_ fun w hw b _ => hrerr b _ fun hfalse => ?_
    · split
      · exact fun _ => rtTableInvalidate_sendBuf a n
      · exact hrerr a _ fun _ => rtTableInvalidate_sendBuf a n
    · dsimp only
      rw [rtTableInvalidate_sendBuf]
      split
      · exact hw hfalse
      · exact hw hfalse
  exact hwalk h

theorem described_buildsErrors (log : ℚ → ℚ) (cf : Conf) (env : Env) :
    Ctx.BuildsErrors ⟨cf, .described log cf, env⟩ := by
  intro a n
  show (neighborLinkBreakDescribed _ a n).sendBuf = n.sendBuf ∨
    ∃ m, (neighborLinkBreakDescribed _ a n).sendBuf = .rerr m
  unfold neighborLinkBreakDescribed
  dsimp only
  split
  · next hmade =>
    rw [(aodvSocketSend_traffic _ _ _ _).sendBuf]
    exact .inr ((linkBreakWalk_walk a n).buffer hmade)
  · next hun => exact .inl (linkBreakWalk_unmade (by simpa using hun))

end AodvUU

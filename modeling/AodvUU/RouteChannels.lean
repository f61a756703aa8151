import AodvUU.LrAnswers
import AodvUU.SharedBuffer

/-! # The channels of replies

`rrep_send_with_channel` sets the channel before it sends; `rrep_send` and `rrep_forward` use what
`channelNum` holds. Each call is followed to the packet that it hands out. -/
namespace AodvUU

variable {c : Ctx}

/-! ## Replies on one channel -/

def Output.ReplyOn (orig : InAddr) (ch : Int) (o : Output) : Prop :=
  ∀ i q d m, o = .sched i q d → q.control = some (.rrep m) → m.origAddr = orig →
    q.daddr ≠ aodvBroadcast → i = ch

section ReplyOn

variable {orig own dst : InAddr} {ch ttl : Int} {o : Output}

theorem Output.ReplyOn.of_sent (h : ∀ m, o.sent ≠ some (.rrep m)) : o.ReplyOn orig ch := by
  rintro i q d m rfl hm
  exact absurd hm (h m)

theorem Output.Control.replyOn {m : AodvMsg} (h : o.Control own dst ttl ch m) :
    o.ReplyOn orig ch := by
  rintro i q d m rfl hm ho hu
  obtain ⟨-, -, hdst, -, -, hi⟩ := h
  exact hi (hdst ▸ hu)

theorem Output.Control.replyOn_of_broadcast {ch' : Int} {m : AodvMsg}
    (h : o.Control own aodvBroadcast ttl ch' m) : o.ReplyOn orig ch := by
  rintro i q d m rfl hm ho hu
  obtain ⟨-, -, hdst, -⟩ := h
  exact absurd hdst hu

theorem Output.Routeless.replyOn (h : o.Routeless) : o.ReplyOn orig ch :=
  .of_sent fun _ hm => h _ hm

theorem Output.Hello.replyOn (h : o.Hello own) : o.ReplyOn orig ch := by
  obtain ⟨_, _, ho, -⟩ := h
  exact ho.replyOn_of_broadcast

end ReplyOn

/-- Unicast replies for `orig` that were not waiting leave on the channel of its entry. -/
def RepliesOnChannel (n n' : Node) (orig : InAddr) : Prop :=
  ∀ i q d m, n.Sent n' (.sched i q d) → q.control = some (.rrep m) → m.origAddr = orig →
    q.daddr ≠ aodvBroadcast → (∀ qp ∈ n.pq, qp.p.control ≠ some (.rrep m)) →
    ∀ rev, n'.lookup orig = some rev → i = rev.channel

theorem repliesOnChannel_of_plain {n n' : Node} {orig : InAddr}
    (h : n.Emits (Output.Plain n) n') : RepliesOnChannel n n' orig := by
  intro i q d m hsent hm _ _ hpq
  rcases h.sent hsent _ hm with hr | ⟨qp, hqp, hc⟩
  · exact hr.elim
  · exact absurd hc (hpq qp hqp)

theorem repliesOnChannel_of_emits {n n' : Node} {orig : InAddr} {ch : Int}
    (h : n.Emits (fun o => o.Plain n ∨ o.ReplyOn orig ch) n')
    (hrev : ∀ rev, n'.lookup orig = some rev → rev.channel = ch) :
    RepliesOnChannel n n' orig := by
  intro i q d m hsent hm ho hu hpq rev hrt
  rcases h.sent hsent with hplain | hreply
  · rcases hplain _ hm with hr | ⟨qp, hqp, hc⟩
    · exact hr.elim
    · exact absurd hc (hpq qp hqp)
  · exact (hreply i q d m rfl hm ho hu).trans (hrev rev hrt).symm

/-! ## One call -/

theorem aodvSocketSend_sent {n : Node} (hwait : ¬ (n.waitOnReboot ∧ n.sendBuf.type = aodvRrep))
    (hrreq : n.sendBuf.type ≠ aodvRreq) (hrerr : n.sendBuf.type ≠ aodvRerr) {a : InAddr}
    (ha : a ≠ aodvBroadcast) (len : ℕ) (ttl : BitVec 8) :
    ∃ q d, q.control = some (n.sendBuf.trunc len) ∧ q.daddr = a ∧
      n.Sent (aodvSocketSend c a len ttl n) (.sched n.channelNum q d) := by
  have hrate : rateLimit c n = some n := by
    unfold rateLimit
    split_ifs <;> rfl
  obtain ⟨q, d, hcopy, hsent⟩ := sendPacket_sent (c := c) (p := controlPacket a len ttl n) (n := n)
    (.inr ⟨rfl, rfl⟩) ha a 0
  refine ⟨q, d, ?_, hcopy.daddr, ?_⟩
  · unfold Packet.control
    rw [hcopy.ptype, hcopy.msg]
    rfl
  · unfold aodvSocketSend
    rw [if_neg hwait, hrate]
    dsimp only
    rw [if_neg ha]
    exact hsent

def Output.NoUnicastReply (o : Output) : Prop :=
  ∀ i q d m, o = .sched i q d → q.control = some (.rrep m) → q.daddr = aodvBroadcast

theorem Output.NoUnicastReply.of_sent {o : Output} (h : ∀ m, o.sent ≠ some (.rrep m)) :
    o.NoUnicastReply := by
  rintro i q d m rfl hm
  exact absurd hm (h m)

theorem Output.NoUnicastReply.replyOn {o : Output} (h : o.NoUnicastReply) {orig : InAddr} {ch : Int} :
    o.ReplyOn orig ch := fun i q d m ho hm _ hu => absurd (h i q d m ho hm) hu

theorem Output.Routeless.noUnicastReply {o : Output} (h : o.Routeless) : o.NoUnicastReply :=
  .of_sent fun _ hm => h _ hm

theorem Output.Hello.noUnicastReply {own : InAddr} {o : Output} (h : o.Hello own) :
    o.NoUnicastReply := by
  obtain ⟨_, _, ho, -⟩ := h
  rintro i q d m rfl -
  exact ho.2.2.1

namespace RrepCall

variable {k : RrepCall}

def message (k : RrepCall) : AodvMsg := (AodvMsg.rrep k.rrep).trunc k.size

def interface (k : RrepCall) : Int := k.channel.getD k.node.channelNum

/-- The reply reaches the next hop alone: it is neither overwritten nor held back after a reboot,
and there is a next hop. -/
def Transmits (c : Ctx) (k : RrepCall) : Prop :=
  ¬ k.Interrupted c ∧ ¬ ((k.atSend c).waitOnReboot ∧ k.rrep.type = aodvRrep) ∧
    (k.node.rt k.rev).nextHop ≠ aodvBroadcast

theorem suspectUnidir_channelNum (hb : c.BreaksLinks) (rev : InAddr) (n : Node) :
    (suspectUnidir c rev n).channelNum = n.channelNum := by
  unfold suspectUnidir
  dsimp only
  split
  · split
    · rfl
    · split
      · exact (hb _ _).channelNum
      · rfl
  · rfl

theorem atSend_channelNum (hb : c.BreaksLinks) (k : RrepCall) :
    (k.atSend c).channelNum = k.interface := by
  unfold atSend interface setChannelNum
  dsimp only
  rw [suspectUnidir_channelNum hb]
  rfl

theorem rt_nextHop_of_ages {n n' : Node} (h : n.Ages n') (a : InAddr) :
    (n'.rt a).nextHop = (n.rt a).nextHop := by
  have hrel := h a
  unfold Node.rt
  generalize n.lookup a = x at hrel ⊢
  generalize n'.lookup a = y at hrel ⊢
  cases hrel with
  | some hage => exact hage.nextHop
  | none => rfl

theorem atSend_nextHop (hl : c.LinkBreaks {}) (k : RrepCall) :
    ((k.atSend c).rt k.rev).nextHop = (k.node.rt k.rev).nextHop := by
  have hage : k.start.Ages (suspectUnidir c k.rev k.start) :=
    (suspectUnidir_effects hl k.rev k.start).ages
  exact rt_nextHop_of_ages hage k.rev

theorem send_wf (hl : c.LinkBreaks {}) (hwf : RtWf k.node) : RtWf (k.send c) := by
  have hwf' : RtWf k.start := hwf.of_table rfl rfl
  have heff : Effects c .all k.start (k.send c) := rrepSendGen_effects hl.widen _ _ _ _ _
  exact effects_preserve_rtWf hwf' heff

theorem send_emits (hl : c.LinkBreaks {}) (hb : c.BreaksLinks) (ht : c.TellsUsers)
    (hwf : RtWf k.node) : k.start.Emits (fun o => o.NoUnicastReply ∨ k.Transmits c ∧
      ∃ own ttl, o.Control own (k.node.rt k.rev).nextHop ttl k.interface k.message) (k.send c) := by
  have hsend : (k.atSend c).Emits (fun o => o.NoUnicastReply ∨ k.Transmits c ∧
      ∃ own ttl, o.Control own (k.node.rt k.rev).nextHop ttl k.interface k.message)
      (aodvSocketSend c ((k.atSend c).rt k.rev).nextHop k.size maxTtl (k.atSend c)) := by
    by_cases hint : k.Interrupted c
    · obtain ⟨hsus, htells⟩ := hint
      have hwf' : RtWf k.start := hwf.of_table rfl rfl
      obtain ⟨e, he, -⟩ := (suspectUnidir_sendBuf ht hwf' hsus).2 htells
      have hbuf : (k.atSend c).sendBuf = .rerr e := he
      refine (aodvSocketSend_emits _ _ _ _).mono fun o ho => .inl (.of_sent fun m hm => ?_)
      have hcases := ho.sent hm
      rw [hbuf] at hcases
      cases hcases
    · have hbuf := (RrepCall.atSend_sendBuf_iff ht hwf).mpr hint
      by_cases hwait : (k.atSend c).waitOnReboot ∧ k.rrep.type = aodvRrep
      · unfold aodvSocketSend
        rw [if_pos ⟨hwait.1, by rw [hbuf]; exact hwait.2⟩]
        exact .refl _
      · refine (aodvSocketSend_emits _ _ _ _).mono fun o ho => ?_
        rw [hbuf, atSend_channelNum hb, atSend_nextHop hl] at ho
        by_cases hnext : (k.node.rt k.rev).nextHop = aodvBroadcast
        · left
          rintro i q d m rfl -
          exact ho.2.2.1.trans hnext
        · exact .inr ⟨⟨hint, hwait, hnext⟩, _, _, ho⟩
  have hsuspect : k.start.Emits (fun o => o.NoUnicastReply ∨ k.Transmits c ∧
      ∃ own ttl, o.Control own (k.node.rt k.rev).nextHop ttl k.interface k.message) (k.atSend c) := by
    refine Node.Emits.trans ?_ (.of_out rfl : (suspectUnidir c k.rev k.start).Emits _ (k.atSend c))
    exact (suspectUnidir_emits hb k.rev k.start).mono fun _ ho => .inl ho.noUnicastReply
  rw [k.send_eq]
  refine Node.Emits.trans ?_ ((helloKeepAlive_emits _).mono fun _ ho => .inl ho.noUnicastReply)
  cases k.fwd with
  | none => exact hsuspect.trans hsend
  | some fwd => exact (hsuspect.trans hsend).trans (.of_out rfl)

theorem Transmits.sent (h : k.Transmits c) (hl : c.LinkBreaks {}) (hb : c.BreaksLinks)
    (ht : c.TellsUsers) (hwf : RtWf k.node)
    (htype : k.rrep.type = aodvRrep ∨ k.rrep.type = aodvRrepLr) :
    ∃ q d, q.control = some k.message ∧ q.daddr ≠ aodvBroadcast ∧
      k.start.Sent (k.send c) (.sched k.interface q d) := by
  obtain ⟨hint, hwait, hnext⟩ := h
  have hbuf := (RrepCall.atSend_sendBuf_iff ht hwf).mpr hint
  have hkind : (k.atSend c).sendBuf.type = k.rrep.type := by
    rw [hbuf]
    rfl
  obtain ⟨q, d, hq, hdst, hsent⟩ := aodvSocketSend_sent (c := c) (n := k.atSend c)
    (by rwa [hkind]) (by rw [hkind]; rcases htype with h | h <;> rw [h] <;> decide)
    (by rw [hkind]; rcases htype with h | h <;> rw [h] <;> decide)
    (a := ((k.atSend c).rt k.rev).nextHop) (by rwa [atSend_nextHop hl]) k.size maxTtl
  rw [hbuf] at hq
  rw [atSend_channelNum hb] at hsent
  refine ⟨q, d, hq, by rwa [hdst, atSend_nextHop hl], ?_⟩
  have hbefore : k.start.Emits Output.Routeless (k.atSend c) :=
    (suspectUnidir_emits hb k.rev k.start).trans (.of_out rfl)
  rw [k.send_eq]
  refine Node.Sent.emits ?_ (helloKeepAlive_emits _)
  cases k.fwd with
  | none => exact hbefore.then_sent hsent
  | some fwd => exact (hbefore.then_sent hsent).emits (P := Output.Routeless) (.of_out rfl)

end RrepCall

/-! ## One call after the other -/

/-- What was waiting, carries no route, or is right about the channel. -/
def Output.OnRoute (n : Node) (orig : InAddr) (ch : Int) (o : Output) : Prop :=
  o.Plain n ∨ o.ReplyOn orig ch

/-- No reply is sent on the way from `n` to `n'`, and the route to `orig` keeps its channel. -/
structure Quiet (n₀ : Node) (orig : InAddr) (n n' : Node) : Prop where
  emits : n.Emits (fun o => o.Plain n₀ ∨ o.NoUnicastReply) n'
  keeps : ∀ rev, n.lookup orig = some rev → ∃ rev', n'.lookup orig = some rev' ∧
    rev'.channel = rev.channel

theorem Quiet.of_ages {n₀ n n' : Node} {orig : InAddr}
    (h : n.Emits (fun o => o.Plain n₀ ∨ o.NoUnicastReply) n') (hages : n.Ages n') :
    Quiet n₀ orig n n' := by
  refine ⟨h, fun rev hrev => ?_⟩
  obtain ⟨rev', hrev', hage⟩ := hages.lookup_eq_some hrev
  exact ⟨rev', hrev', hage.channel⟩

theorem Quiet.refl (n₀ : Node) (orig : InAddr) (n : Node) : Quiet n₀ orig n n :=
  .of_ages (.refl n) (.of_tbl rfl)

theorem Quiet.trans {n₀ n m n' : Node} {orig : InAddr} (h : Quiet n₀ orig n m)
    (h' : Quiet n₀ orig m n') : Quiet n₀ orig n n' := by
  refine ⟨h.emits.trans h'.emits, fun rev hrev => ?_⟩
  obtain ⟨rev₁, hrev₁, hch⟩ := h.keeps rev hrev
  obtain ⟨rev₂, hrev₂, hch'⟩ := h'.keeps rev₁ hrev₁
  exact ⟨rev₂, hrev₂, hch'.trans hch⟩

/-- The handler goes from `n` to `n'` through the calls of `l`, one after the other. -/
inductive Replies (c : Ctx) (n₀ : Node) (orig : InAddr) : Node → List RrepCall → Node → Prop
  | done {n n' : Node} (h : Quiet n₀ orig n n') : Replies c n₀ orig n [] n'
  | call {n n' : Node} {k : RrepCall} {l : List RrepCall} (h : Quiet n₀ orig n k.node)
    (hwf : RtWf k.node) (htype : k.rrep.type = aodvRrep ∨ k.rrep.type = aodvRrepLr)
    (hrest : Replies c n₀ orig (k.send c) l n') : Replies c n₀ orig n (k :: l) n'

namespace Replies

variable {n₀ n m n' : Node} {orig : InAddr} {l l' : List RrepCall}

theorem quiet (h : Quiet n₀ orig n m) (hr : Replies c n₀ orig m l n') : Replies c n₀ orig n l n' := by
  cases hr with
  | done h' => exact .done (h.trans h')
  | call h' hwf htype hrest => exact .call (h.trans h') hwf htype hrest

theorem append (h : Replies c n₀ orig n l m) (h' : Replies c n₀ orig m l' n') :
    Replies c n₀ orig n (l ++ l') n' := by
  induction h with
  | done hq => exact h'.quiet hq
  | call hq hwf htype _ ih => exact .call hq hwf htype (ih h')

theorem send_ages (hl : c.LinkBreaks {}) (k : RrepCall) : k.node.Ages (k.send c) := by
  have hstart : k.node.Ages k.start := .of_tbl rfl
  exact hstart.trans (rrepSendGen_effects hl _ _ _ _ _ : Effects c {} k.start (k.send c)).ages

theorem keeps (hl : c.LinkBreaks {}) (h : Replies c n₀ orig n l n') {rev : RtTable}
    (hrev : n.lookup orig = some rev) :
    ∃ rev', n'.lookup orig = some rev' ∧ rev'.channel = rev.channel := by
  induction h generalizing rev with
  | done hq => exact hq.keeps rev hrev
  | call hq _ _ _ ih =>
    obtain ⟨rev₁, hrev₁, hch⟩ := hq.keeps rev hrev
    obtain ⟨rev₂, hrev₂, hage⟩ := (send_ages hl _).lookup_eq_some hrev₁
    obtain ⟨rev', hrev', hch'⟩ := ih hrev₂
    exact ⟨rev', hrev', (hch'.trans hage.channel).trans hch⟩

theorem sent (hl : c.LinkBreaks {}) (hb : c.BreaksLinks) (ht : c.TellsUsers)
    (h : Replies c n₀ orig n l n') : n.Emits (fun _ => True) n' ∧ ∀ k ∈ l, k.Transmits c →
      ∃ q d, q.control = some k.message ∧ q.daddr ≠ aodvBroadcast ∧
        n.Sent n' (.sched k.interface q d) := by
  induction h with
  | done hq => exact ⟨hq.emits.mono fun _ _ => trivial, fun _ hk => absurd hk List.not_mem_nil⟩
  | @call n n' k l hq hwf htype _ ih =>
    obtain ⟨hrest, hsent⟩ := ih
    have hstart : k.node.Emits (fun _ => True) k.start := .of_out rfl
    have hcall := hstart.trans ((RrepCall.send_emits hl hb ht hwf).mono fun _ _ => trivial)
    refine ⟨((hq.emits.mono fun _ _ => trivial).trans hcall).trans hrest, fun j hj htrans => ?_⟩
    rcases List.mem_cons.mp hj with rfl | hj
    · obtain ⟨q, d, hmsg, hu, hs⟩ := htrans.sent hl hb ht hwf htype
      exact ⟨q, d, hmsg, hu, hq.emits.then_sent ((hstart.then_sent hs).emits hrest)⟩
    · obtain ⟨q, d, hmsg, hu, hs⟩ := hsent j hj htrans
      exact ⟨q, d, hmsg, hu, hq.emits.then_sent (hcall.then_sent hs)⟩

theorem onRoute (hl : c.LinkBreaks {}) (hb : c.BreaksLinks) (ht : c.TellsUsers)
    (h : Replies c n₀ orig n l n') {ch : Int}
    (hon : ∀ k ∈ l, k.rrep.origAddr = orig → k.Transmits c →
      (∀ qp ∈ n₀.pq, qp.p.control ≠ some k.message) → k.interface = ch) :
    n.Emits (Output.OnRoute n₀ orig ch) n' := by
  induction h with
  | done hq => exact hq.emits.mono fun _ ho => ho.imp_right (·.replyOn)
  | @call n n' k l hq hwf _ _ ih =>
    have hcall : k.node.Emits (Output.OnRoute n₀ orig ch) (k.send c) := by
      refine Node.Emits.trans (.of_out rfl) ((RrepCall.send_emits hl hb ht hwf).mono fun o ho => ?_)
      rcases ho with hno | ⟨htrans, own, ttl, ho⟩
      · exact .inr hno.replyOn
      · by_cases hwaiting : ∀ qp ∈ n₀.pq, qp.p.control ≠ some k.message
        · right
          rintro i q d m rfl hm horig hu
          have hmsg := ho.sent hm
          have hsame : m.origAddr = k.rrep.origAddr := by
            cases hmsg
            rfl
          obtain ⟨-, -, hdaddr, -, -, hi⟩ := ho
          exact (hi (hdaddr ▸ hu)).trans
            (hon k List.mem_cons_self (hsame.symm.trans horig) htrans hwaiting)
        · refine .inl fun m hm => .inr ?_
          rw [ho.sent hm]
          simpa using hwaiting
    refine ((hq.emits.mono fun _ ho => ho.imp_right (·.replyOn)).trans hcall).trans
      (ih fun j hj => hon j (List.mem_cons_of_mem k hj))

theorem repliesOnChannel_iff (hl : c.LinkBreaks {}) (hb : c.BreaksLinks) (ht : c.TellsUsers)
    (h : Replies c n₀ orig n l n') (hpre : n₀.Emits (Output.Plain n₀) n) {rev : RtTable}
    (hrev : n.lookup orig = some rev) : RepliesOnChannel n₀ n' orig ↔
      ∀ k ∈ l, k.rrep.origAddr = orig → k.Transmits c →
        (∀ qp ∈ n₀.pq, qp.p.control ≠ some k.message) → k.interface = rev.channel := by
  obtain ⟨rev', hrev', hch⟩ := h.keeps hl hrev
  constructor
  · intro hon k hk horig htrans hwaiting
    obtain ⟨q, d, hmsg, hu, hs⟩ := (h.sent hl hb ht).2 k hk htrans
    exact (hon _ q d _ (hpre.then_sent hs) hmsg horig hu hwaiting rev' hrev').trans hch
  · intro hon
    have hemits : n₀.Emits (fun o => o.Plain n₀ ∨ o.ReplyOn orig rev.channel) n' :=
      (hpre.mono fun _ => .inl).trans (h.onRoute hl hb ht hon)
    refine repliesOnChannel_of_emits hemits fun rt hrt => ?_
    cases hrev'.symm.trans hrt
    exact hch

end Replies

/-! ## Plain requests -/

/-- What is asked of the entry an intermediate node answers from. -/
structure RtTable.Answers (rt : RtTable) (rreq : RREQ) : Prop where
  channel : rt.channel ≠ -1
  state : rt.state = .valid
  destOnly : ¬ rreq.d
  seqno : rt.destSeqno ≠ 0
  fresh : ¬ fresher rreq.destSeqno rt.destSeqno

section Requests

variable (c) in
/-- The request with the cost of the link it came over. -/
def RREQ.costed (rreq : RREQ) (ipSrc : InAddr) (n : Node) : RREQ :=
  { rreq with exts := rreq.exts.map (Ext.addCost (getCost c n ipSrc rreq.channel)) }

theorem answers_costed (rreq : RREQ) (ipSrc : InAddr) (n : Node) (rt : RtTable) :
    rt.Answers (rreq.costed c ipSrc n) ↔ rt.Answers rreq :=
  ⟨fun h => ⟨h.channel, h.state, h.destOnly, h.seqno, h.fresh⟩,
    fun h => ⟨h.channel, h.state, h.destOnly, h.seqno, h.fresh⟩⟩

variable (c) in
/-- The request is not dropped; `n₁` is the state with its reverse route. -/
def Node.TakesRreq (n : Node) (rreq : RREQ) (len : ℕ) (ipSrc : InAddr) (n₁ : Node) : Prop :=
  let rreq := rreq.costed c ipSrc n
  let cost := lastCost (c.ext.log maxNum) rreq.exts
  rreq.origAddr ≠ n.ipaddr ∧ rreqSize ≤ len ∧ rreqBlacklistFind n ipSrc = none ∧
    rreqRecordFindLessCost n rreq.origAddr rreq.rreqId cost = none ∧
    rreqReverse c rreq ipSrc cost
      (rreqRecordInsertWithCost c rreq.origAddr rreq.rreqId cost n) = some n₁

variable (c) in
def destinationCall (rreq : RREQ) (n : Node) : RrepCall where
  channel := some rreq.channel.toNat
  rev := rreq.origAddr
  fwd := none
  size := rrepCostSize
  rrep := rrepCreateWithCost 0 0 (n.seqnoRaise rreq.destSeqno).ipaddr
    (n.seqnoRaise rreq.destSeqno).seqno rreq.origAddr (msecs c.conf.myRouteTimeout) 0
  node := n.seqnoRaise rreq.destSeqno

variable (c) in
/-- The reply that an intermediate node makes from its entry for the originator. -/
def intermediateCall (rreq : RREQ) (fwdRt : RtTable) (n : Node) : RrepCall where
  channel := some fwdRt.channel
  rev := rreq.origAddr
  fwd := some fwdRt.destAddr
  size := rreqCostSize
  rrep := rrepCreateWithCost 0 fwdRt.hcnt fwdRt.destAddr fwdRt.destSeqno rreq.origAddr
    (lifetime c fwdRt) fwdRt.cost
  node := n

variable (c) in
def gratuitousCall (rreq : RREQ) (fwdRt : RtTable) (n : Node) : RrepCall where
  channel := some fwdRt.channel
  rev := fwdRt.destAddr
  fwd := some rreq.origAddr
  size := rrepSize
  rrep := rrepCreateWithCost 0 (n.rt rreq.origAddr).hcnt rreq.origAddr
    (n.rt rreq.origAddr).destSeqno fwdRt.destAddr (lifetime c fwdRt) (n.rt fwdRt.destAddr).cost
  node := n

theorem rreqIntermediate_calls (rreq : RREQ) (fwdRt : RtTable) (n : Node) :
    rreqIntermediate c rreq fwdRt n =
      let n₁ := (intermediateCall c rreq fwdRt n).send c
      if rreq.g then (gratuitousCall c rreq fwdRt n₁).send c else n₁ := rfl

theorem rreqProcess_cases {rreq : RREQ} (htype : rreq.type ≠ aodvRreqLr) (len : ℕ) (ipSrc : InAddr)
    (ttl : Int) (n : Node) :
    ((rreqProcess c rreq len ipSrc ttl n).out = n.out ∧ ∀ n₁, ¬ n.TakesRreq c rreq len ipSrc n₁) ∨
      ∃ n₁, n.TakesRreq c rreq len ipSrc n₁ ∧
        rreqProcess c rreq len ipSrc ttl n = rreqAnswer c (rreq.costed c ipSrc n) ttl n₁ := by
  have hcases := rreqHandle_cases c (rreq.costed c ipSrc n) ipSrc ttl n
  have hrec : (rreqRecordInsertWithCost c rreq.origAddr rreq.rreqId
      (lastCost (c.ext.log maxNum) (rreq.costed c ipSrc n).exts) n).out = n.out := by
    unfold rreqRecordInsertWithCost
    split <;> rfl
  unfold rreqProcess
  rw [if_neg htype]
  split_ifs with hown hlen hblack
  · exact .inl ⟨rfl, fun n₁ h => h.1 hown⟩
  · exact .inl ⟨rfl, fun n₁ h => absurd h.2.1 (by omega)⟩
  · exact .inl ⟨rfl, fun n₁ h => by rw [h.2.2.1] at hblack; cases hblack⟩
  · change (rreqHandle c (rreq.costed c ipSrc n) ipSrc ttl n).out = n.out ∧ _ ∨
      ∃ n₁, _ ∧ rreqHandle c (rreq.costed c ipSrc n) ipSrc ttl n = _
    rcases hcases with ⟨hless, heq⟩ | ⟨hless, ⟨hrev, heq⟩ | ⟨n₁, hrev, heq⟩⟩
    · rw [heq]
      exact .inl ⟨rfl, fun n₁ h => by rw [h.2.2.2.1] at hless; cases hless⟩
    · rw [heq]
      exact .inl ⟨hrec, fun n₁ h => by cases hrev.symm.trans h.2.2.2.2⟩
    · rw [heq]
      exact .inr ⟨n₁, ⟨hown, by omega, by simpa using hblack, by simpa using hless, hrev⟩, rfl⟩

structure Node.OnReverse (n : Node) (rreq : RREQ) (n₁ : Node) : Prop where
  wf : RtWf n₁
  ipaddr : n₁.ipaddr = n.ipaddr
  plain : n.Emits (Output.Plain n) n₁
  entry : ∃ rev, n₁.lookup rreq.origAddr = some rev ∧ rev.channel = rreq.channel.toNat

theorem Node.TakesRreq.reversed (hl : c.LinkBreaks {}) (hb : c.BreaksLinks) {n n₁ : Node}
    (hwf : RtWf n) {rreq : RREQ} {len : ℕ} {ipSrc : InAddr}
    (h : n.TakesRreq c rreq len ipSrc n₁) : n.OnReverse rreq n₁ := by
  obtain ⟨hown, -, -, -, hrev⟩ := h
  have hrec : Traffic n (rreqRecordInsertWithCost c rreq.origAddr rreq.rreqId
      (lastCost (c.ext.log maxNum) (rreq.costed c ipSrc n).exts) n) :=
    rreqRecordInsertWithCost_traffic _ _ _ n
  have hframe : (rreqRecordInsertWithCost c rreq.origAddr rreq.rreqId
        (lastCost (c.ext.log maxNum) (rreq.costed c ipSrc n).exts) n).out = n.out ∧
      (rreqRecordInsertWithCost c rreq.origAddr rreq.rreqId
        (lastCost (c.ext.log maxNum) (rreq.costed c ipSrc n).exts) n).pq = n.pq := by
    unfold rreqRecordInsertWithCost
    split <;> exact ⟨rfl, rfl⟩
  change rreqReverse c _ ipSrc _ (rreqRecordInsertWithCost c rreq.origAddr rreq.rreqId
    (lastCost (c.ext.log maxNum) (rreq.costed c ipSrc n).exts) n) = some n₁ at hrev
  generalize rreqRecordInsertWithCost c rreq.origAddr rreq.rreqId
    (lastCost (c.ext.log maxNum) (rreq.costed c ipSrc n).exts) n = n₀ at hrec hframe hrev
  have hwf₀ : RtWf n₀ := hwf.of_table hrec.tbl hrec.numEntries
  obtain ⟨-, w, hroute, -, hinst⟩ := rreqReverse_installs hl hwf₀ (hrec.ipaddr ▸ hown) hrev
  have heff := rreqReverse_effects (updates_all hl.widen) trivial hrev
  refine ⟨effects_preserve_rtWf hwf₀ heff, heff.ipaddr.trans hrec.ipaddr, ?_, ?_⟩
  · refine Node.Emits.trans (.of_out hframe.1) ((rreqReverse_plain hb hrev).mono fun o ho => ?_)
    unfold Output.Plain at ho ⊢
    rw [← hframe.2]
    exact ho
  · obtain ⟨rev, hlook, hage⟩ := hinst.entry
    exact ⟨rev, hlook, hage.channel.trans hroute.channel⟩

variable (c) in
/-- The request is answered from an entry of another channel, and the reply goes out: no packet
with it was waiting. -/
def Node.AnswersAstray (n : Node) (rreq : RREQ) (len : ℕ) (ipSrc : InAddr) : Prop :=
  rreq.destAddr ≠ n.ipaddr ∧ ∃ n₁ rt, n.TakesRreq c rreq len ipSrc n₁ ∧
    n₁.lookup rreq.destAddr = some rt ∧ rt.Answers rreq ∧ rt.channel ≠ rreq.channel.toNat ∧
    (intermediateCall c rreq rt n₁).Transmits c ∧
    ∀ qp ∈ n.pq, qp.p.control ≠ some (intermediateCall c rreq rt n₁).message

theorem rreqAnswer_intermediate (rreq : RREQ) (ttl : Int) {n₁ : Node} (hwf : RtWf n₁)
    (hdest : rreq.destAddr ≠ n₁.ipaddr) {rt : RtTable} (hrt : n₁.lookup rreq.destAddr = some rt)
    (hans : rt.Answers rreq) : rreqAnswer c rreq ttl n₁ = rreqIntermediate c rreq rt n₁ := by
  unfold rreqAnswer rreqRelay
  rw [if_neg hdest, hwf.rtTableFind_eq_lookup, hrt]
  dsimp only
  rw [if_neg hans.channel, if_pos ⟨hans.state, hans.destOnly, hans.seqno, hans.fresh⟩]

theorem seqnoRaise_quiet (n₀ : Node) (orig : InAddr) (v : BitVec 32) (n : Node) :
    Quiet n₀ orig n (n.seqnoRaise v) := by
  refine .of_ages (.of_out ?_) (.of_tbl (seqnoRaise_sameTable v n).tbl)
  unfold Node.seqnoRaise
  split_ifs <;> rfl

theorem RtWf.seqnoRaise {n : Node} (h : RtWf n) (v : BitVec 32) : RtWf (n.seqnoRaise v) :=
  h.of_table (seqnoRaise_sameTable v n).tbl (seqnoRaise_sameTable v n).numEntries

theorem rreqForward_quiet (n₀ : Node) {orig : InAddr} (fwd : Option RtTable) {rreq : RREQ}
    (size : ℕ) (ttl : Int) {n : Node} (horig : rreq.origAddr ≠ n.ipaddr) :
    Quiet n₀ orig n (rreqForward c fwd rreq size ttl n) := by
  refine .of_ages ((rreqForward_emits fwd rreq size ttl n).mono fun o ho => .inr ?_)
    (rreqForward_effects (s := {}) fwd size ttl horig).ages
  obtain ⟨_, _, _, ho, -⟩ := ho
  rintro i q d m rfl -
  exact ho.2.2.1

section Answers

variable {n₀ n₁ : Node}

theorem rreqDestination_replies (hwf : RtWf n₁) (rreq : RREQ) :
    Replies c n₀ rreq.origAddr n₁ [destinationCall c rreq n₁] (rreqDestination c rreq n₁) :=
  .call (seqnoRaise_quiet n₀ _ rreq.destSeqno n₁) (hwf.seqnoRaise rreq.destSeqno) (.inl rfl)
    (.done (.refl n₀ _ _))

theorem rreqIntermediate_replies (hl : c.LinkBreaks {}) (hwf : RtWf n₁) (rreq : RREQ) (rt : RtTable) :
    Replies c n₀ rreq.origAddr n₁
      (intermediateCall c rreq rt n₁ ::
        if rreq.g then [gratuitousCall c rreq rt ((intermediateCall c rreq rt n₁).send c)] else [])
      (rreqIntermediate c rreq rt n₁) := by
  have hwf' : RtWf ((intermediateCall c rreq rt n₁).send c) := RrepCall.send_wf hl hwf
  refine .call (.refl n₀ _ n₁) hwf (.inl rfl) ?_
  rw [rreqIntermediate_calls]
  dsimp only
  split
  · exact .call (.refl n₀ _ _) hwf' (.inl rfl) (.done (.refl n₀ _ _))
  · exact .done (.refl n₀ _ _)

theorem rreqAnswer_quiet (rreq : RREQ) (hwf : RtWf n₁) (ttl : Int) (horig : rreq.origAddr ≠ n₁.ipaddr)
    (hdest : rreq.destAddr ≠ n₁.ipaddr) {rev : RtTable} (hrev : n₁.lookup rreq.origAddr = some rev)
    (hch : rev.channel ≠ -1)
    (hans : ∀ rt, n₁.lookup rreq.destAddr = some rt → ¬ rt.Answers rreq) :
    Quiet n₀ rreq.origAddr n₁ (rreqAnswer c rreq ttl n₁) := by
  unfold rreqAnswer rreqRelay
  rw [if_neg hdest, hwf.rtTableFind_eq_lookup]
  split
  · exact rreqForward_quiet n₀ none _ ttl horig
  · next rt hrt =>
    split
    · next hnone =>
      have hdel : (rtTableDelete rt.destAddr n₁).out = n₁.out ∧
          (rtTableDelete rt.destAddr n₁).ipaddr = n₁.ipaddr := by
        unfold rtTableDelete
        split <;> exact ⟨rfl, rfl⟩
      refine Quiet.trans ?_ (rreqForward_quiet n₀ none _ ttl (hdel.2 ▸ horig))
      have hother : rreq.origAddr ≠ rt.destAddr := by
        intro he
        rw [he, destAddr_of_lookup hrt, hrt] at hrev
        cases hrev
        exact hch hnone
      refine ⟨.of_out hdel.1, fun rev' hrev' => ⟨rev', ?_, rfl⟩⟩
      rw [lookup_rtTableDelete, if_neg (Ne.symm hother)]
      exact hrev'
    · next hneg =>
      split
      · next h => exact absurd ⟨hneg, h.1, h.2.1, h.2.2.1, h.2.2.2⟩ (hans rt hrt)
      · exact rreqForward_quiet n₀ (some rt) _ ttl horig

end Answers

/-- The replies to a plain request leave on the channel of its reverse route, unless an entry of
another channel answers it. -/
theorem rreqProcess_on_channel_iff (hl : c.LinkBreaks {}) (hb : c.BreaksLinks) (ht : c.TellsUsers)
    {n : Node} (hwf : RtWf n) {rreq : RREQ} (htype : rreq.type ≠ aodvRreqLr) (len : ℕ)
    (ipSrc : InAddr) (ttl : Int) :
    RepliesOnChannel n (rreqProcess c rreq len ipSrc ttl n) rreq.origAddr ↔
      ¬ n.AnswersAstray c rreq len ipSrc := by
  rcases rreqProcess_cases (c := c) htype len ipSrc ttl n with ⟨hout, hnot⟩ | ⟨n₁, htakes, heq⟩
  · refine iff_of_true (repliesOnChannel_of_plain (.of_out hout)) ?_
    rintro ⟨-, n₁, rt, htakes, -⟩
    exact hnot n₁ htakes
  have hsame : ∀ n₂, n.TakesRreq c rreq len ipSrc n₂ → n₂ = n₁ := fun n₂ h₂ =>
    Option.some.inj (h₂.2.2.2.2.symm.trans htakes.2.2.2.2)
  obtain ⟨hwf₁, hip, hplain, rev, hrev, hch⟩ := htakes.reversed hl hb hwf
  have horig : rreq.origAddr ≠ n₁.ipaddr := hip ▸ htakes.1
  have hiff : ∀ l, Replies c n rreq.origAddr n₁ l (rreqAnswer c (rreq.costed c ipSrc n) ttl n₁) →
      (RepliesOnChannel n (rreqProcess c rreq len ipSrc ttl n) rreq.origAddr ↔
        ∀ k ∈ l, k.rrep.origAddr = rreq.origAddr → k.Transmits c →
          (∀ qp ∈ n.pq, qp.p.control ≠ some k.message) → k.interface = rreq.channel.toNat) := by
    intro l hl'
    rw [heq, hl'.repliesOnChannel_iff hl hb ht hplain hrev, hch]
  by_cases hdest : rreq.destAddr = n₁.ipaddr
  · have hl' : Replies c n rreq.origAddr n₁ [destinationCall c (rreq.costed c ipSrc n) n₁]
        (rreqDestination c (rreq.costed c ipSrc n) n₁) :=
      rreqDestination_replies hwf₁ (rreq.costed c ipSrc n)
    have hans : rreqAnswer c (rreq.costed c ipSrc n) ttl n₁ =
        rreqDestination c (rreq.costed c ipSrc n) n₁ := if_pos hdest
    rw [hiff _ (by rw [hans]; exact hl')]
    refine iff_of_true (fun k hk _ _ _ => ?_) fun h => h.1 (hdest.trans hip)
    rw [List.mem_singleton.mp hk]
    rfl
  by_cases hans : ∃ rt, n₁.lookup rreq.destAddr = some rt ∧ rt.Answers rreq
  · obtain ⟨rt, hrt, hans⟩ := hans
    have hdestAddr := destAddr_of_lookup hrt
    have hintermediate : rreqAnswer c (rreq.costed c ipSrc n) ttl n₁ =
        rreqIntermediate c (rreq.costed c ipSrc n) rt n₁ :=
      rreqAnswer_intermediate (rreq.costed c ipSrc n) ttl hwf₁ hdest hrt
        ((answers_costed rreq ipSrc n rt).mpr hans)
    rw [hiff _ (by
      rw [hintermediate]
      exact rreqIntermediate_replies hl hwf₁ (rreq.costed c ipSrc n) rt)]
    constructor
    · rintro hall ⟨-, n₂, rt₂, htakes₂, hrt₂, -, hne, htrans, hwaiting⟩
      cases hsame n₂ htakes₂
      cases hrt.symm.trans hrt₂
      exact hne (hall _ List.mem_cons_self rfl htrans hwaiting)
    · intro hnot k hk hrep htrans hwaiting
      rcases List.mem_cons.mp hk with rfl | hk
      · by_contra hne
        exact hnot ⟨fun h => hdest (h.trans hip.symm), n₁, rt, htakes, hrt, hans, hne, htrans, hwaiting⟩
      · -- the gratuitous reply is for the originator only if that is the destination as well
        split at hk
        · rw [List.mem_singleton.mp hk] at hrep ⊢
          have he : rt.destAddr = rreq.origAddr := hrep
          rw [hdestAddr] at he
          rw [he] at hrt
          cases hrev.symm.trans hrt
          exact hch
        · cases hk
  · have hquiet : Quiet n rreq.origAddr n₁ (rreqAnswer c (rreq.costed c ipSrc n) ttl n₁) :=
      rreqAnswer_quiet (rreq.costed c ipSrc n) hwf₁ ttl horig hdest hrev (by rw [hch]; omega) fun rt hrt h =>
        hans ⟨rt, hrt, (answers_costed rreq ipSrc n rt).mp h⟩
    rw [hiff [] (.done hquiet)]
    refine iff_of_true (fun k hk => absurd hk List.not_mem_nil) ?_
    rintro ⟨-, n₂, rt, htakes₂, hrt, hrt', -⟩
    cases hsame n₂ htakes₂
    exact hans ⟨rt, hrt, hrt'⟩

end Requests

theorem rrepRelay_replyOn (orig : InAddr) (rrep : RREP) (ttl : Int) (n : Node) :
    n.Emits (Output.ReplyOn orig (n.rt rrep.origAddr).channel)
      (rrepRelay c rrep (some rrep.origAddr) ttl n) := by
  unfold rrepRelay
  dsimp only
  split
  · refine Node.Emits.trans ?_ ((rrepForward_emits _ _ _ _ _ _).mono fun _ ho => ho.replyOn)
    exact .of_out rfl
  · exact .refl n

theorem rrepHandle_on_channel (hl : c.LinkBreaks {}) (hb : c.BreaksLinks) {n : Node}
    (rrep : RREP) (hown : rrep.destAddr ≠ n.ipaddr) (ipSrc : InAddr) (ttl : Int) :
    RepliesOnChannel n (rrepHandle c rrep ipSrc ttl n) rrep.origAddr := by
  unfold rrepHandle
  dsimp only
  split
  · exact repliesOnChannel_of_plain (.refl n)
  · next n₁ hroute =>
    have hip : n₁.ipaddr = n.ipaddr :=
      (rrepRoute_effects (updates_all hl.widen) trivial hroute).ipaddr
    have hack : Effects c {} n₁ (rrepAcknowledge c rrep n₁) := rrepAcknowledge_effects rrep n₁
    have hbefore : n.Emits (Output.Plain n) (rrepAcknowledge c rrep n₁) :=
      (rrepRoute_plain hb hroute).trans
        ((rrepAcknowledge_emits rrep n₁).mono fun _ ho m hm => .inl (ho m hm))
    generalize rrepAcknowledge c rrep n₁ = m at hack hbefore ⊢
    -- the entry keeps the channel it has when the reply is passed on
    have hkeep : ∀ n', Effects c {} m n' → ∀ rev, n'.lookup rrep.origAddr = some rev →
        rev.channel = (m.rt rrep.origAddr).channel := by
      intro n' heff rev hrev
      obtain ⟨rt, hrt, hage⟩ := Node.Wanes.of_ages heff.ages _ rev hrev
      rw [rt_of_lookup hrt]
      exact hage.channel
    split
    · refine repliesOnChannel_of_emits ((hbefore.mono fun _ => .inl).trans (Node.Emits.trans
        ((rrepArrived_emits rrep _ m).mono fun _ ho => .inr ho.replyOn)
        ((helloKeepAlive_emits _).mono fun _ ho => .inr ho.replyOn))) (hkeep _ ?_)
      exact (rrepArrived_effects rrep _ m).trans (helloKeepAlive_effects _)
    · have hrelay : m.Emits (Output.ReplyOn rrep.origAddr (m.rt rrep.origAddr).channel)
          (rrepRelay c rrep ((rtTableFind n rrep.origAddr).map (·.destAddr)) ttl m) := by
        cases hfind : rtTableFind n rrep.origAddr with
        | none => exact .refl m
        | some rev =>
          rw [Option.map_some, destAddr_of_rtTableFind hfind]
          exact rrepRelay_replyOn _ rrep ttl m
      refine repliesOnChannel_of_emits ((hbefore.mono fun _ => .inl).trans (Node.Emits.trans
        (hrelay.mono fun _ => .inr)
        ((helloKeepAlive_emits _).mono fun _ ho => .inr ho.replyOn))) (hkeep _ ?_)
      refine (rrepRelay_effects _ ttl ?_).trans (helloKeepAlive_effects _)
      rw [hack.ipaddr, hip]
      exact hown

/-! ## Requests about a local repair -/

section LrRequests

def LrReply.call (orig : InAddr) (r : LrReply) : RrepCall where
  channel := none
  rev := orig
  fwd := none
  size := rrepExtOffset r.rrep
  rrep := r.rrep
  node := r.node

variable (c) in
def lrIntermediateCall (rreq : RREQ) (fwdRt : RtTable) (n : Node) : RrepCall where
  channel := none
  rev := rreq.origAddr
  fwd := some fwdRt.destAddr
  size := rrepSize
  rrep := rrepCreate 0 fwdRt.hcnt fwdRt.destAddr fwdRt.destSeqno rreq.origAddr (lifetime c fwdRt)
  node := n

variable (c) in
def lrGratuitousCall (rreq : RREQ) (fwdRt : RtTable) (n : Node) : RrepCall where
  channel := none
  rev := fwdRt.destAddr
  fwd := some rreq.origAddr
  size := rrepSize
  rrep := rrepCreate 0 (n.rt rreq.origAddr).hcnt rreq.origAddr (n.rt rreq.origAddr).destSeqno
    fwdRt.destAddr (lifetime c fwdRt)
  node := n

variable (c) in
def lrAnswerCalls (rreq : RREQ) (n : Node) : List RrepCall :=
  if rreq.destAddr = n.ipaddr then [(lrDestinationReply c rreq n).call rreq.origAddr]
  else
    match rtTableFind n rreq.destAddr with
    | none => []
    | some fwdRt =>
      if fwdRt.state = .valid ∧ ¬ rreq.d ∧
          fwdRt.destSeqno ≠ 0 ∧ ¬ fresher rreq.destSeqno fwdRt.destSeqno then
        lrIntermediateCall c rreq fwdRt n ::
          if rreq.g then
            [lrGratuitousCall c rreq fwdRt ((lrIntermediateCall c rreq fwdRt n).send c)]
          else []
      else []

variable (c) in
def lrReversed (rreq : RREQ) (ipSrc : InAddr) (n : Node) : Node :=
  rreqLrReverse c rreq ipSrc (rreqRecordInsert c rreq.origAddr rreq.rreqId n)

variable (c) in
/-- All calls of `rrep_send` that `rreq_process_lr` makes. -/
def lrCalls (rreq : RREQ) (len : ℕ) (ipSrc : InAddr) (n : Node) : List RrepCall :=
  if n.TakesLr rreq len ipSrc then
    let r := rreqLrExts c rreq.origAddr rreq.exts (lrReversed c rreq ipSrc n)
    (lrExtsReplies c rreq.origAddr rreq.exts (lrReversed c rreq ipSrc n)).map
      (LrReply.call rreq.origAddr) ++ lrAnswerCalls c { rreq with exts := r.1 } r.2
  else []

variable {n₀ n : Node} {rreq : RREQ}

theorem rreqLrExts_replies (hl : c.LinkBreaks {}) (orig : InAddr) (es : List Ext) {n : Node}
    (hwf : RtWf n) : Replies c n₀ orig n ((lrExtsReplies c orig es n).map (LrReply.call orig))
      (rreqLrExts c orig es n).2 := by
  induction es generalizing n with
  | nil => exact .done (.refl n₀ orig n)
  | cons e es ih =>
    cases e with
    | rreqUdest ud =>
      unfold rreqLrExts lrExtsReplies
      split
      · have hwf' : RtWf (((lrUdestReply c orig ud n).call orig).send c) :=
          RrepCall.send_wf hl (hwf.seqnoRaise ud.destSeqno)
        exact .call (seqnoRaise_quiet n₀ orig ud.destSeqno n) (hwf.seqnoRaise ud.destSeqno)
          (.inr rfl) (ih hwf')
      · exact ih hwf
    | cost | rrepUdest | helloInterval | helloNeighborSet | other => exact ih hwf

theorem type_foldl (m : RREP) (uds : List RreqUdest) :
    (uds.foldl (fun m ud => rrepAddUdest m ud.destAddr ud.destSeqno) m).type = m.type :=
  List.foldlRecOn (motive := fun m' : RREP => m'.type = m.type) _ _ rfl fun _ h _ _ => h

theorem rreqLrAnswer_replies (hl : c.LinkBreaks {}) (hwf : RtWf n) (rreq : RREQ)
    (horig : rreq.origAddr ≠ n.ipaddr) (len : ℕ) (ttl : Int) :
    Replies c n₀ rreq.origAddr n (lrAnswerCalls c rreq n) (rreqLrAnswer c rreq len ttl n) := by
  unfold lrAnswerCalls rreqLrAnswer
  by_cases hdest : rreq.destAddr = n.ipaddr
  · rw [if_pos hdest, if_pos hdest, rreqLrDestination_sends]
    exact .call (seqnoRaise_quiet n₀ _ rreq.destSeqno n) (hwf.seqnoRaise rreq.destSeqno)
      (.inr (type_foldl _ _)) (.done (.refl n₀ _ _))
  rw [if_neg hdest, if_neg hdest]
  cases rtTableFind n rreq.destAddr with
  | none => exact .done (rreqForward_quiet n₀ none len ttl horig)
  | some fwdRt =>
    dsimp only
    by_cases hans : fwdRt.state = .valid ∧ ¬ rreq.d ∧
        fwdRt.destSeqno ≠ 0 ∧ ¬ fresher rreq.destSeqno fwdRt.destSeqno = true
    · rw [if_pos hans, if_pos hans]
      have hwf' : RtWf ((lrIntermediateCall c rreq fwdRt n).send c) := RrepCall.send_wf hl hwf
      refine .call (.refl n₀ _ n) hwf (.inl rfl) ?_
      unfold rreqLrIntermediate
      dsimp only
      by_cases hg : rreq.g
      · rw [if_pos hg, if_pos hg]
        exact .call (.refl n₀ _ _) hwf' (.inl rfl) (.done (.refl n₀ _ _))
      · rw [if_neg hg, if_neg hg]
        exact .done (.refl n₀ _ _)
    · rw [if_neg hans, if_neg hans]
      exact .done (rreqForward_quiet n₀ (some fwdRt) len ttl horig)

theorem lrReversed_wf (hl : c.LinkBreaks {}) (hwf : RtWf n) (rreq : RREQ) (ipSrc : InAddr) :
    RtWf (lrReversed c rreq ipSrc n) :=
  effects_preserve_rtWf (rtWf_of_routes (rreqRecordInsert_routes _ _ n) hwf)
    (rreqLrReverse_effects (updates_all hl.widen) trivial rreq ipSrc _)

theorem rreqLrReverse_entry (hl : c.LinkBreaks {}) (hwf : RtWf n) (rreq : RREQ) (ipSrc : InAddr) :
    ∃ rev, (rreqLrReverse c rreq ipSrc n).lookup rreq.origAddr = some rev := by
  unfold rreqLrReverse
  rw [hwf.rtTableFind_eq_lookup]
  dsimp only
  split
  · next hnone =>
    obtain ⟨rev, hrev, -⟩ := (rtTableInsert_installs (c := c) hnone ipSrc (rreq.hcnt + 1)
      rreq.origSeqno (reverseLife rreq) .valid 0).entry
    exact ⟨rev, hrev⟩
  · next rt hrt =>
    split
    · obtain ⟨_, -, hinst⟩ := rtTableUpdateGen_installs hl hrt none ipSrc (rreq.hcnt + 1)
        rreq.origSeqno (reverseLife rreq) .valid rt.flags
      obtain ⟨rev, hrev, -⟩ := hinst.entry
      exact ⟨rev, hrev⟩
    · exact ⟨rt, hrt⟩

theorem rreqLrReverse_plain (hb : c.BreaksLinks) (rreq : RREQ) (ipSrc : InAddr) (n : Node) :
    n.Emits (Output.Plain n) (rreqLrReverse c rreq ipSrc n) := by
  unfold rreqLrReverse
  dsimp only
  split
  · rw [rtTableInsert_eq]
    split
    · exact rtTableAdd_plain _ _ _ _ _ _ _ _ _ n
    · exact .refl n
  · split
    · exact rtTableUpdateGen_plain hb _ _ _ _ _ _ _ _ n
    · exact .refl n

/-- The replies to a request about a local repair leave on the channel of the reverse route exactly
when `channelNum` holds it at each call. -/
theorem rreqProcessLr_on_channel_iff (hl : c.LinkBreaks {}) (hb : c.BreaksLinks) (ht : c.TellsUsers)
    (hwf : RtWf n) (rreq : RREQ) (len : ℕ) (ipSrc : InAddr) (ttl : Int) :
    RepliesOnChannel n (rreqProcessLr c rreq len ipSrc ttl n) rreq.origAddr ↔
      ∀ k ∈ lrCalls c rreq len ipSrc n, k.rrep.origAddr = rreq.origAddr → k.Transmits c →
        (∀ qp ∈ n.pq, qp.p.control ≠ some k.message) →
        k.interface = ((lrReversed c rreq ipSrc n).rt rreq.origAddr).channel := by
  unfold lrCalls
  by_cases htakes : n.TakesLr rreq len ipSrc
  · rw [if_pos htakes, htakes.process]
    dsimp only
    have hrec : (rreqRecordInsert c rreq.origAddr rreq.rreqId n).out = n.out ∧
        (rreqRecordInsert c rreq.origAddr rreq.rreqId n).pq = n.pq := by
      unfold rreqRecordInsert rreqRecordInsertWithCost
      split <;> exact ⟨rfl, rfl⟩
    have hplain : n.Emits (Output.Plain n) (lrReversed c rreq ipSrc n) := by
      refine Node.Emits.trans (.of_out hrec.1) ((rreqLrReverse_plain hb rreq ipSrc _).mono
        fun o ho => ?_)
      unfold Output.Plain at ho ⊢
      rw [← hrec.2]
      exact ho
    have hwf₁ : RtWf (lrReversed c rreq ipSrc n) := lrReversed_wf hl hwf rreq ipSrc
    obtain ⟨rev, hrev⟩ := rreqLrReverse_entry (c := c) hl
      (rtWf_of_routes (rreqRecordInsert_routes rreq.origAddr rreq.rreqId n) hwf) rreq ipSrc
    have hip := lrPass_ipaddr (c := c) hl rreq ipSrc n
    have heff := rreqLrExts_effects (c := c) (s := .all) hl.widen trivial rreq.origAddr rreq.exts
      (lrReversed c rreq ipSrc n)
    let r := rreqLrExts c rreq.origAddr rreq.exts (lrReversed c rreq ipSrc n)
    have hexts : Replies c n rreq.origAddr (lrReversed c rreq ipSrc n)
        ((lrExtsReplies c rreq.origAddr rreq.exts (lrReversed c rreq ipSrc n)).map
          (LrReply.call rreq.origAddr)) r.2 :=
      rreqLrExts_replies hl rreq.origAddr rreq.exts hwf₁
    have hanswer : Replies c n rreq.origAddr r.2 (lrAnswerCalls c { rreq with exts := r.1 } r.2)
        (rreqLrAnswer c { rreq with exts := r.1 } len ttl r.2) :=
      rreqLrAnswer_replies hl (effects_preserve_rtWf hwf₁ heff) { rreq with exts := r.1 }
        (hip.symm ▸ htakes.1) len ttl
    rw [show (lrReversed c rreq ipSrc n).rt rreq.origAddr = rev from rt_of_lookup hrev]
    exact (hexts.append hanswer).repliesOnChannel_iff hl hb ht hplain hrev
  · have hdrop : rreqProcessLr c rreq len ipSrc ttl n = n := by
      unfold rreqProcessLr
      split_ifs with h1 h2 h3 h4
      · rfl
      · rfl
      · rfl
      · rfl
      · exact absurd ⟨h1, by omega, by simpa using h3, by simpa using h4⟩ htakes
    rw [hdrop, if_neg htakes]
    exact iff_of_true (repliesOnChannel_of_plain (.refl n)) fun k hk => absurd hk List.not_mem_nil

end LrRequests

/-! ## Replies about a local repair -/

section LrReplies

variable {n : Node} {rrep : RREP}

variable (c) in
/-- The state in which a forwarder passes the reply on. -/
def lrRelayNode (rrep : RREP) (ipSrc : InAddr) (n : Node) : Node :=
  rrepAcknowledge c rrep (lrRoutes c rrep ipSrc rrep.routed n)

variable (c) in
/-- The reply is passed on while `channelNum` is not the channel of the reverse route. -/
def Node.RelaysAstray (n : Node) (rrep : RREP) (len : ℕ) (ipSrc : InAddr) : Prop :=
  let m := lrRelayNode c rrep ipSrc n
  rrepSize ≤ len ∧ rrep.destAddr ≠ n.ipaddr ∧ rrep.origAddr ≠ n.ipaddr ∧
    rtTableFind (rrepLrUdests c rrep ipSrc n) rrep.origAddr ≠ none ∧
    ∃ rev, m.lookup rrep.origAddr = some rev ∧ rev.state = .valid ∧
      rev.nextHop ≠ aodvBroadcast ∧ ¬ (m.waitOnReboot ∧ rrep.type = aodvRrep) ∧
      m.channelNum ≠ rev.channel ∧ ∀ qp ∈ n.pq, qp.p.control ≠
        some ((forwardedReply { rrep with a := false } len rrep.destAddr m).trunc len)

theorem repliesOnChannel_of_quiet {n' : Node} {orig : InAddr}
    (h : n.Emits (fun o => o.Plain n ∨ o.NoUnicastReply) n') : RepliesOnChannel n n' orig := by
  have hemits : n.Emits (fun o => o.Plain n ∨ o.ReplyOn orig (n'.rt orig).channel) n' :=
    h.mono fun _ ho => ho.imp_right fun hno => hno.replyOn
  refine repliesOnChannel_of_emits hemits fun rev hrev => ?_
  rw [rt_of_lookup hrev]

theorem quiet_permits (n : Node) : n.Permits fun o => o.Plain n ∨ o.NoUnicastReply where
  plain _ ho := .inl ho
  hello _ ho := .inr ho.noUnicastReply

theorem lrRelayNode_hands (hb : c.BreaksLinks) (rrep : RREP) (ipSrc : InAddr) (n : Node) :
    n.Hands (fun o => o.Plain n ∨ o.NoUnicastReply) (lrRelayNode c rrep ipSrc n) := by
  unfold lrRelayNode lrRoutes
  rw [← rrepLr_routed]
  exact ((((Node.Hands.refl n).rrepLrUdests (quiet_permits n) hb rrep ipSrc).rrepLrRoute
    (quiet_permits n) hb rrep ipSrc rrep.destAddr).rrepAcknowledge (quiet_permits n) rrep)

theorem rrepLrForwarder_eq (rrep : RREP) (len : ℕ) (ipSrc : InAddr) (ttl : Int) (n : Node) :
    rrepLrForwarder c rrep len ipSrc ttl n = rrepLrRelay c rrep len
      ((rtTableFind (rrepLrUdests c rrep ipSrc n) rrep.origAddr).map (·.destAddr)) ttl
      (lrRelayNode c rrep ipSrc n) := by
  unfold rrepLrForwarder lrRelayNode lrRoutes
  rw [← rrepLr_routed]

theorem rrepForward_sent (rrep : RREP) (len : ℕ) (rev fwd : InAddr) (ttl : Int) {m : Node}
    (htype : rrep.type = aodvRrep ∨ rrep.type = aodvRrepLr)
    (hwait : ¬ (m.waitOnReboot ∧ rrep.type = aodvRrep)) (hnext : (m.rt rev).nextHop ≠ aodvBroadcast) :
    ∃ q d, q.control = some ((forwardedReply rrep len fwd m).trunc len) ∧
      q.daddr ≠ aodvBroadcast ∧
      m.Sent (rrepForward c rrep len rev fwd ttl m) (.sched m.channelNum q d) := by
  have hkind : (aodvSocketNewMsg (forwardedReply rrep len fwd m) m).sendBuf.type = rrep.type := rfl
  obtain ⟨q, d, hq, hdst, hsent⟩ := aodvSocketSend_sent (c := c)
    (n := aodvSocketNewMsg (forwardedReply rrep len fwd m) m) hwait
    (by rw [hkind]; rcases htype with h | h <;> rw [h] <;> decide)
    (by rw [hkind]; rcases htype with h | h <;> rw [h] <;> decide) hnext len (BitVec.ofInt 8 ttl)
  refine ⟨q, d, hq, hdst ▸ hnext, ?_⟩
  rw [rrepForward_eq]
  exact (Node.Emits.then_sent (P := Output.Routeless) (.of_out rfl) hsent).emits
    (P := Output.Routeless) (.of_out rfl)

theorem rrepForward_waits (rrep : RREP) (len : ℕ) (rev fwd : InAddr) (ttl : Int) {m : Node}
    (hwait : m.waitOnReboot ∧ rrep.type = aodvRrep) :
    (rrepForward c rrep len rev fwd ttl m).out = m.out := by
  have hsend : ∀ a, aodvSocketSend c a len (BitVec.ofInt 8 ttl)
      (aodvSocketNewMsg (forwardedReply rrep len fwd m) m) =
        aodvSocketNewMsg (forwardedReply rrep len fwd m) m := fun a => if_pos hwait
  rw [rrepForward_eq, hsend]
  rfl

/-- The reply about a local repair leaves on the channel of the reverse route, unless it is passed
on while `channelNum` is another. -/
theorem rrepProcessLr_on_channel_iff (hb : c.BreaksLinks) (he : c.BuildsErrors)
    (htype : rrep.type = aodvRrep ∨ rrep.type = aodvRrepLr) (len : ℕ) (ipSrc : InAddr) (ttl : Int) :
    RepliesOnChannel n (rrepProcessLr c rrep len ipSrc ttl n) rrep.origAddr ↔
      ¬ n.RelaysAstray c rrep len ipSrc := by
  have hn : n.Hands (fun o => o.Plain n ∨ o.NoUnicastReply) n := .refl n
  unfold rrepProcessLr
  split_ifs with hlen hdest horig
  · exact iff_of_true (repliesOnChannel_of_plain (.refl n)) fun h => absurd h.1 (by omega)
  · exact iff_of_true (repliesOnChannel_of_plain (.refl n)) fun h => h.2.1 hdest
  · refine iff_of_true (repliesOnChannel_of_quiet ?_) fun h => h.2.2.1 horig
    exact ((hn.rrepLrOrigin (quiet_permits n) hb he rrep ipSrc).helloKeepAlive (quiet_permits n)).emits
  rw [rrepLrForwarder_eq]
  have hbefore := lrRelayNode_hands hb rrep ipSrc n
  unfold Node.RelaysAstray
  dsimp only
  generalize lrRelayNode c rrep ipSrc n = m at hbefore ⊢
  cases hfind : rtTableFind (rrepLrUdests c rrep ipSrc n) rrep.origAddr with
  | none =>
    refine iff_of_true (repliesOnChannel_of_quiet ?_) fun h => h.2.2.2.1 rfl
    exact (hbefore.helloKeepAlive (quiet_permits n)).emits
  | some rev₀ =>
    unfold rrepLrRelay
    rw [Option.map_some, destAddr_of_rtTableFind hfind]
    dsimp only
    split_ifs with hvalid
    · have hown : rrep.destAddr ≠ m.ipaddr := hbefore.ipaddr.symm ▸ hdest
      have hforward : Effects c {} m (rrepForward c { rrep with a := false } len rrep.origAddr
          rrep.destAddr (ttl - 1) m) := rrepForward_effects len rrep.origAddr rrep.destAddr _ hown
      have hages : m.Ages (helloKeepAlive c (rrepForward c { rrep with a := false } len rrep.origAddr
          rrep.destAddr (ttl - 1) m)) :=
        (hforward.trans (helloKeepAlive_effects _)).ages
      have hemits := rrepForward_emits (c := c) { rrep with a := false } len rrep.origAddr
        rrep.destAddr (ttl - 1) m
      constructor
      · rintro hon ⟨-, -, -, -, rev, hrev, -, hnext, hwait, hne, hpq⟩
        rw [← rt_of_lookup hrev] at hnext
        obtain ⟨q, d, hq, hu, hsent⟩ := rrepForward_sent (c := c) { rrep with a := false } len
          rrep.origAddr rrep.destAddr (ttl - 1) htype hwait hnext
        obtain ⟨rev', hrev', hage⟩ := hages.lookup_eq_some hrev
        have hi := hon _ q d _ (hbefore.emits.then_sent (hsent.emits (helloKeepAlive_emits _))) hq
          rfl hu hpq rev' hrev'
        exact hne (hi.trans hage.channel)
      · intro hnot i q d m' hsent hm' ho hu hpq rev' hrev'
        obtain ⟨rev, hrev, hage⟩ := Node.Wanes.of_ages hages _ rev' hrev'
        by_cases hwait : m.waitOnReboot ∧ rrep.type = aodvRrep
        · refine repliesOnChannel_of_quiet ((hbefore.emits.trans (.of_out ?_)).trans
            ((helloKeepAlive_emits _).mono fun _ h => .inr h.noUnicastReply)) i q d m' hsent hm' ho hu
            hpq rev' hrev'
          exact rrepForward_waits _ len _ _ _ hwait
        have hall : n.Emits (fun o => (o.Plain n ∨ o.NoUnicastReply) ∨
            o.Control m.ipaddr (m.rt rrep.origAddr).nextHop (BitVec.ofInt 8 (ttl - 1)).toNat
              m.channelNum ((forwardedReply { rrep with a := false } len rrep.destAddr m).trunc len))
            (helloKeepAlive c (rrepForward c { rrep with a := false } len rrep.origAddr
              rrep.destAddr (ttl - 1) m)) :=
          ((hbefore.emits.mono fun _ => .inl).trans (hemits.mono fun _ => .inr)).trans
            ((helloKeepAlive_emits _).mono fun _ h => .inl (.inr h.noUnicastReply))
        rcases hall.sent hsent with (hplain | hno) | hctl
        · rcases hplain _ hm' with hr | ⟨qp, hqp, hc⟩
          · exact hr.elim
          · exact absurd hc (hpq qp hqp)
        · exact absurd (hno i q d m' rfl hm') hu
        · have hmsg : q.control = some _ := hctl.sent hm' ▸ hm'
          obtain ⟨-, -, hdst, -, -, hi⟩ := hctl
          have hnext : (m.rt rrep.origAddr).nextHop ≠ aodvBroadcast := hdst ▸ hu
          rw [hage.channel, hi hnext]
          rw [rt_of_lookup hrev] at hvalid hnext
          by_contra hne
          exact hnot ⟨by omega, hdest, horig, Option.some_ne_none _, rev, hrev, hvalid, hnext, hwait,
            hne, fun qp hqp hc => hpq qp hqp (hc.trans (hmsg.symm.trans hm'))⟩
    · refine iff_of_true (repliesOnChannel_of_quiet ?_) ?_
      · exact (hbefore.helloKeepAlive (quiet_permits n)).emits
      · rintro ⟨-, -, -, -, rev, hrev, hstate, -⟩
        exact hvalid (rt_of_lookup hrev ▸ hstate)

end LrReplies

/-! ## Every reachable state -/

variable {cf : Conf} {ext : Extern} {a : InAddr} {n : Node}

/-- A data packet leaves on the channel of its route exactly when `channelNum` already holds
it, at the agent's input and for released packets alike. A plain request is answered on the
channel of the reverse route, unless an entry of another channel answers it, and a plain reply
is always passed on along the channel of the reverse route. Requests and replies about a local
repair go by `channelNum`. -/
theorem route_channel_used (hext : ext.CallsOnly cf)
    (hb : ∀ env, Ctx.BreaksLinks ⟨cf, ext, env⟩) (ht : ∀ env, Ctx.TellsUsers ⟨cf, ext, env⟩)
    (he : ∀ env, Ctx.BuildsErrors ⟨cf, ext, env⟩) (h : Reachable cf ext a n) (env : Env) :
    (∀ (p : Packet) rt, p.ptype ≠ .aodvuu → p.daddr ≠ aodvBroadcast →
      rtTableFind n p.daddr = some rt → rt.state = .valid → 0 ≤ rt.channel →
      ((∀ i q d, n.Sent (processPacket ⟨cf, ext, env⟩ p n) (.sched i q d) →
          q.ptype ≠ .aodvuu → i = rt.channel) ↔
        n.channelNum = rt.channel ∨ ¬ p.Forwarded n rt)) ∧
    (∀ (m : Node) dest rt, rtTableFind m dest = some rt → rt.state = .valid → 0 ≤ rt.channel →
      ((∀ i q d, m.Sent (packetQueueSetVerdict ⟨cf, ext, env⟩ dest .send m) (.sched i q d) →
          q.daddr ≠ aodvBroadcast → i = rt.channel) ↔
        m.channelNum = rt.channel ∨ ∀ qp ∈ m.pq, qp.destAddr = dest →
          qp.p.daddr ≠ aodvBroadcast → ¬ qp.p.Passes m.ipaddr)) ∧
    (∀ (rreq : RREQ) len ipSrc ttl, rreq.type ≠ aodvRreqLr →
      (RepliesOnChannel n (rreqProcess ⟨cf, ext, env⟩ rreq len ipSrc ttl n) rreq.origAddr ↔
        ¬ n.AnswersAstray ⟨cf, ext, env⟩ rreq len ipSrc)) ∧
    (∀ (rrep : RREP) len ipSrc ttl, ¬ rrep.lr →
      RepliesOnChannel n (rrepProcess ⟨cf, ext, env⟩ rrep len ipSrc ttl n) rrep.origAddr) ∧
    (∀ (rreq : RREQ) len ipSrc ttl, rreq.type = aodvRreqLr →
      (RepliesOnChannel n (rreqProcess ⟨cf, ext, env⟩ rreq len ipSrc ttl n) rreq.origAddr ↔
        ∀ k ∈ lrCalls ⟨cf, ext, env⟩ rreq len ipSrc n, k.rrep.origAddr = rreq.origAddr →
          k.Transmits ⟨cf, ext, env⟩ → (∀ qp ∈ n.pq, qp.p.control ≠ some k.message) →
          k.interface = ((lrReversed ⟨cf, ext, env⟩ rreq ipSrc n).rt rreq.origAddr).channel)) ∧
    (∀ (rrep : RREP) len ipSrc ttl, rrep.lr → rrep.type = aodvRrep ∨ rrep.type = aodvRrepLr →
      (RepliesOnChannel n (rrepProcess ⟨cf, ext, env⟩ rrep len ipSrc ttl n) rrep.origAddr ↔
        ¬ n.RelaysAstray ⟨cf, ext, env⟩ rrep len ipSrc)) := by
  have hwf := (reachable_balanced hext h).wf
  have hself : ∀ orig, RepliesOnChannel n n orig := fun _ => repliesOnChannel_of_plain (.refl n)
  refine ⟨fun p rt hp hu hfind _ _ => processPacket_on_channel_iff hwf hp hu hfind,
    fun m dest rt hfind _ _ => setVerdict_on_channel_iff hfind,
    fun rreq len ipSrc ttl htype =>
      rreqProcess_on_channel_iff (hext.linkBreaks env) (hb env) (ht env) hwf htype len ipSrc ttl,
    fun rrep len ipSrc ttl hlr => ?_, fun rreq len ipSrc ttl htype => ?_,
    fun rrep len ipSrc ttl hlr htype => ?_⟩
  · unfold rrepProcess
    split_ifs with hlen hown
    · exact hself _
    · exact hself _
    · exact rrepHandle_on_channel (hext.linkBreaks env) (hb env) { rrep with
        exts := rrep.exts.map (Ext.addCost (getCost ⟨cf, ext, env⟩ n ipSrc rrep.channel)) }
        hown ipSrc ttl
  · unfold rreqProcess
    rw [if_pos htype]
    exact rreqProcessLr_on_channel_iff (hext.linkBreaks env) (hb env) (ht env) hwf rreq len ipSrc ttl
  · unfold rrepProcess
    rw [if_pos hlr]
    exact rrepProcessLr_on_channel_iff (hb env) (he env) htype len ipSrc ttl

/-- Agent 1 after a request of 2, received on channel `ch` and passed on over all channels. -/
def floodedNode (ch : Int) : Node :=
  (step (sampleCtx 0) (.recv (rreqFrom 2 ch
      { type := aodvRreq, rreqId := 7, destAddr := 9, origAddr := 2, origSeqno := 6,
        exts := [.cost 0] })) ([], Node.init (sampleCtx 0) 1)).2

theorem floodedNode_reachable (ch : Int) :
    Reachable {} (.described sampleLog {}) 1 (floodedNode ch) :=
  .step { now := 0 } [] (.recv (rreqFrom 2 ch _)) trivial (.init { now := 0 })

/-- The last copy went out on channel 2, the channel of the route. A request for the agent that
comes over channel 0 is answered there. -/
theorem route_channel_used_flooded :
    ((dataFrom 3 2).Forwarded (floodedNode 2) ((floodedNode 2).rt 2) ∧
      ∀ i q d, (floodedNode 2).Sent (processPacket (sampleCtx 0) (dataFrom 3 2) (floodedNode 2))
        (.sched i q d) → q.ptype ≠ .aodvuu → i = 2) ∧
    RepliesOnChannel (floodedNode 2) (rreqProcess (sampleCtx 0)
      { channel := 0, type := aodvRreq, rreqId := 4, destAddr := 1, origAddr := 5, origSeqno := 6,
        exts := [.cost 0] } rreqCostSize 5 9 (floodedNode 2)) 5 := by
  have hused := route_channel_used (described_callsOnly sampleLog {})
    (described_breaksLinks sampleLog {}) (described_tellsUsers sampleLog {})
    (described_buildsErrors sampleLog {}) (floodedNode_reachable 2) { now := 0 }
  refine ⟨⟨by decide +kernel, ?_⟩, ?_⟩
  · exact (hused.1 (dataFrom 3 2) ((floodedNode 2).rt 2) (by decide) (by decide) (by decide +kernel)
      (by decide +kernel) (by decide +kernel)).mpr (by decide +kernel)
  · refine (hused.2.2.1 _ rreqCostSize 5 9 (by decide)).mpr fun h => h.1 ?_
    decide +kernel

/-- Here the route has channel 1, and a data packet over it leaves on channel 2. -/
theorem route_channel_not_used :
    ¬ ∀ n, Reachable {} (.described sampleLog {}) 1 n → ∀ (p : Packet) rt, p.ptype ≠ .aodvuu →
      p.daddr ≠ aodvBroadcast → rtTableFind n p.daddr = some rt → rt.state = .valid →
      0 ≤ rt.channel → ∀ i q d, n.Sent (processPacket (sampleCtx 0) p n) (.sched i q d) →
        q.ptype ≠ .aodvuu → i = rt.channel := by
  intro hall
  have hwf := (reachable_balanced (described_callsOnly sampleLog {}) (floodedNode_reachable 1)).wf
  have hfind : rtTableFind (floodedNode 1) 2 = some ((floodedNode 1).rt 2) := by decide +kernel
  have hsent := hall _ (floodedNode_reachable 1) (dataFrom 3 2) _ (by decide) (by decide) hfind
    (by decide +kernel) (by decide +kernel)
  have hch := (processPacket_on_channel_iff hwf (by decide) (by decide) hfind).mp hsent
  exact absurd hch (by decide +kernel)

end AodvUU

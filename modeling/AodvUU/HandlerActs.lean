import AodvUU.Acts

/-! # Acts of the handlers

One lemma for each function, up to a whole event. The channels that a handler stores or tunes to
are those of the message, of the floods, and of an entry it answers from. -/
namespace AodvUU

variable {c : Ctx} {l : Licence}

/-! ## Messages received -/

def AodvMsg.channel : AodvMsg → BitVec 8
  | .rreq m => m.channel
  | .rrep m => m.channel
  | .rerr m => m.channel
  | .rrepAck m => m.channel
  | .overlaid m _ => m.channel

theorem Packet.received_channel {p : Packet} {m : AodvMsg} (h : p.received = some m) :
    p.received.isSome ∧ m.channel = BitVec.ofInt 8 p.channel := by
  obtain ⟨m', -, rfl⟩ := Option.map_eq_some_iff.mp h
  refine ⟨by rw [h]; rfl, ?_⟩
  cases m' <;> rfl

theorem Packet.hello_channel {p : Packet} {hello : RREP} (h : p.hello = some hello) :
    p.received.isSome ∧ hello.channel = BitVec.ofInt 8 p.channel := by
  unfold Packet.hello at h
  split at h
  · next rrep hrec =>
    split at h
    · cases h
      exact Packet.received_channel hrec
    · cases h
  · cases h

theorem Packet.reply_channel {p : Packet} {rrep : RREP} (h : p.reply = some rrep) :
    p.received.isSome ∧ rrep.channel = BitVec.ofInt 8 p.channel := by
  unfold Packet.reply at h
  split at h
  · next rrep' hrec =>
    split at h
    · cases h
    · cases h
      exact Packet.received_channel hrec
  · cases h

theorem RREQ.overlay_channel (m : RREQ) (uds : List Udest) :
    (m.overlay c uds).channel = m.channel := by
  unfold RREQ.overlay
  dsimp only
  split <;> rfl

theorem Packet.request_channel {p : Packet} {rreq : RREQ} (h : p.request c = some rreq) :
    p.received.isSome ∧ rreq.channel = BitVec.ofInt 8 p.channel := by
  unfold Packet.request at h
  split at h
  · next rreq' hrec =>
    cases h
    exact Packet.received_channel hrec
  · next rreq' uds hrec =>
    cases h
    obtain ⟨hsome, hch⟩ := Packet.received_channel hrec
    exact ⟨hsome, (RREQ.overlay_channel rreq' uds).trans hch⟩
  · cases h

/-- An invariant of an agent with a licence for Hellos and for the channels that floods use. -/
structure Ctx.Steady (c : Ctx) (l : Licence) (I : Node → Prop) : Prop extends Ctx.Carries c l I where
  breaks : c.BreaksPlainly
  hello : l.hello
  floods : ∀ i : ℕ, i < channelCount → l.channel i

namespace Ctx.Steady

variable {I : Node → Prop} {n : Node} (h : c.Steady l I)
include h

theorem linkBreak (a : InAddr) (hn : I n) : I (c.ext.neighborLinkBreak c.env a n) :=
  h.acts (h.breaks a n) hn

theorem event (e : HelloEvent) (hn : I n) : I (e.run c n) := h.act _ _ (.hello e h.hello) hn

/-! ## Hellos -/

theorem helloSend (hn : I n) : I (helloSend c n) := by
  have htimer : ∀ (t : Timer) (n : Node), I n → I { n with helloTimer := t } := fun t n hn =>
    h.still (n := n) rfl rfl rfl hn
  have hbroadcast : I (helloBroadcast c n) := by
    unfold helloBroadcast
    exact h.aodvSocketSend _ _ _ (h.newMsg _ (h.event .sent hn))
  unfold AodvUU.helloSend
  dsimp only
  split_ifs
  · exact htimer _ n hn
  · exact htimer _ _ hbroadcast
  · exact htimer _ n hn
  · exact htimer _ n hn

theorem helloStart (hn : I n) : I (helloStart c n) := by
  unfold AodvUU.helloStart
  split
  · exact hn
  · exact h.helloSend (h.still (n := n) rfl rfl rfl hn)

theorem helloKeepAlive (hn : I n) : I (helloKeepAlive c n) := by
  unfold AodvUU.helloKeepAlive
  split
  · exact h.helloStart hn
  · exact hn

theorem rtTableUpdate (a next : InAddr) (hops : BitVec 8) (seqno life : BitVec 32)
    (state : RtState) (flags : BitVec 16) (hn : I n) :
    I (rtTableUpdate c a next hops seqno life state flags n) :=
  h.rtTableUpdateGen h.breaks _ _ _ _ _ _ _ (fun _ hx => by cases hx) hn

theorem helloRoute (hello : RREP) (interval : BitVec 32) (flags : BitVec 16) (hn : I n) :
    I (helloRoute c hello interval flags n) := by
  unfold AodvUU.helloRoute
  dsimp only
  split
  · refine h.helloUpdateTimeout _ _ (h.keep _ (fun _ => rfl) ?_)
    exact h.rtTableInsert _ _ _ _ _ _ _ hn
  · split_ifs
    · exact h.helloUpdateTimeout _ _ hn
    · exact h.keep _ (fun _ => rfl) hn
    · exact h.helloUpdateTimeout _ _ (h.rtTableUpdate _ _ _ _ _ _ _ hn)

theorem helloProcess (hello : RREP) (hch : l.channel hello.channel.toNat) (hn : I n) :
    I (helloProcess c hello n) := by
  unfold AodvUU.helloProcess helloAcknowledge
  dsimp only
  have hheard : I (helloCount hello (helloRecord hello n)) := h.event (.heard hello) hn
  refine h.helloRoute _ _ _ (h.aodvSocketSend _ _ _ (h.act _ _ (.tune _ hch) ?_))
  exact h.newMsg _ hheard

/-! ## Discovery -/

theorem keepWaiting (a : InAddr) (hn : I n) : I (keepWaiting c a n) := by
  unfold AodvUU.keepWaiting
  split
  · exact h.timeout _ _ hn
  · exact hn

theorem onEachChannel {f : ℕ → Node → Node}
    (hf : ∀ i : ℕ, l.channel i → ∀ n, I n → I (f i n)) (hn : I n) : I (onEachChannel f n) := by
  unfold AodvUU.onEachChannel
  refine List.foldlRecOn (motive := fun n : Node => I n) _ _ hn fun n hn i hi => ?_
  exact hf i (h.floods i (List.mem_range.mp hi)) n hn

theorem flood (a : InAddr) (v : BitVec 32) (ttl : Int) (flags : BitVec 8) (hn : I n) :
    I (AodvUU.onEachChannel (rreqSendWithChannel c a v ttl flags) n) := by
  refine h.onEachChannel (fun i hi n hn => ?_) hn
  have hmsg := h.act _ _ (.tune i hi) hn
  unfold rreqSendWithChannel
  exact h.aodvSocketSend _ _ _ (h.still (n := setChannelNum i n) rfl rfl rfl hmsg)

theorem rreqRouteDiscovery (a : InAddr) (flags : BitVec 8) (hn : I n) :
    I (rreqRouteDiscovery c a flags n) := by
  have hsearch : ∀ (s : SeekList) (n : Node), I n → I (seekListInsert s n.seqnoIncr) :=
    fun s n hn => h.still (n := n) rfl rfl rfl hn
  unfold AodvUU.rreqRouteDiscovery
  split
  · exact hn
  · dsimp only
    refine hsearch _ _ (h.flood _ _ _ _ ?_)
    split
    · exact hn
    · exact h.keepWaiting _ hn

theorem rreqForward (fwd : Option RtTable) (rreq : RREQ) (size : ℕ) (ttl : Int) (hn : I n) :
    I (rreqForward c fwd rreq size ttl n) := by
  unfold AodvUU.rreqForward
  split
  · refine h.onEachChannel (fun i hi n hn => ?_) hn
    unfold rreqForwardWithChannel
    refine h.aodvSocketSend _ _ _ (h.act _ _ (.tune i hi) ?_)
    exact h.still (n := n) rfl rfl rfl hn
  · exact hn

theorem modRreq (f : RREQ → RREQ) (hn : I n) : I (n.modRreq f) := by
  unfold Node.modRreq
  split
  · exact h.newMsg _ hn
  · exact hn

theorem markRepair (a : InAddr) (hn : I n) : I (markRepair c a n) :=
  h.keepWaiting a (h.keep a (fun _ => rfl) hn)

theorem rreqLocalRepair (a : InAddr) (hn : I n) : I (rreqLocalRepair c a n) := by
  have hsearch : ∀ (s : SeekList) (n : Node), I n → I (seekListInsert s n) :=
    fun s n hn => h.still (n := n) rfl rfl rfl hn
  have hcreate : I (rreqCreate (rreqLocalRepairFlag ||| rreqDestOnly) (n.rt a).nextHop 0 n.ipaddr n) :=
    h.still (n := n) rfl rfl rfl hn
  unfold AodvUU.rreqLocalRepair
  dsimp only
  split
  · refine hsearch _ _ (h.aodvSocketSend _ _ _ ?_)
    refine List.foldlRecOn (motive := fun n : Node => I n) _ _ (h.markRepair a ?_) fun n hn u _ =>
      h.modRreq _ (h.markRepair _ hn)
    split
    · exact h.modRreq _ hcreate
    · exact hcreate
  · exact hn

/-! ## Replies -/

theorem suspectUnidir (rev : InAddr) (hn : I n) : I (suspectUnidir c rev n) := by
  unfold AodvUU.suspectUnidir
  dsimp only
  split
  · split
    · exact hn
    · split
      · refine h.keep _ (fun _ => rfl) (h.linkBreak _ ?_)
        exact h.keep _ (fun _ => rfl) hn
      · exact hn
  · exact hn

theorem rrepSendGen {ch : Option Int} (rev : InAddr) (fwd : Option InAddr) (size : ℕ)
    (hch : ∀ x, ch = some x → l.channel x) (hn : I n) : I (rrepSendGen c ch rev fwd size n) := by
  have hsuspect := h.suspectUnidir rev hn
  unfold AodvUU.rrepSendGen
  dsimp only
  refine h.helloKeepAlive ?_
  generalize AodvUU.suspectUnidir c rev n = n₁ at hsuspect ⊢
  have htuned : I (setChannelNum (ch.getD n₁.channelNum) n₁) := by
    cases ch with
    | none => exact hsuspect
    | some x => exact h.act _ _ (.tune x (hch x rfl)) hsuspect
  have hsend := h.aodvSocketSend ((setChannelNum (ch.getD n₁.channelNum) n₁).rt rev).nextHop size
    maxTtl htuned
  cases fwd with
  | none => exact hsend
  | some f => exact h.addPrecursors f rev hsend

theorem reply (m : AodvMsg) {ch : Option Int} (rev : InAddr) (fwd : Option InAddr) (size : ℕ)
    (hch : ∀ x, ch = some x → l.channel x) (hn : I n) :
    I (AodvUU.rrepSendGen c ch rev fwd size (aodvSocketNewMsg m n)) :=
  h.rrepSendGen rev fwd size hch (h.newMsg m hn)

theorem plainReply (m : AodvMsg) (rev : InAddr) (fwd : Option InAddr) (size : ℕ) (hn : I n) :
    I (rrepSend c rev fwd size (aodvSocketNewMsg m n)) :=
  h.reply m rev fwd size (fun _ hx => by cases hx) hn

theorem rrepForward (rrep : RREP) (size : ℕ) (rev fwd : InAddr) (ttl : Int) (hn : I n) :
    I (rrepForward c rrep size rev fwd ttl n) := by
  rw [rrepForward_eq]
  exact h.timeout _ _ (h.addPrecursors _ _ (h.aodvSocketSend _ _ _ (h.newMsg _ hn)))

theorem rrepAcknowledge (rrep : RREP) (hn : I n) : I (rrepAcknowledge c rrep n) := by
  unfold AodvUU.rrepAcknowledge
  split
  · exact h.aodvSocketSend _ _ _ (h.newMsg _ hn)
  · exact hn

theorem rrepLrRoute (rrep : RREP) (ipSrc a : InAddr) (hn : I n) :
    I (rrepLrRoute c rrep ipSrc a n) := by
  unfold AodvUU.rrepLrRoute
  split
  · exact h.rtTableUpdate _ _ _ _ _ _ _ (h.rtTableInsert _ _ _ _ _ _ _ hn)
  · exact h.rtTableUpdate _ _ _ _ _ _ _ hn

theorem rrepLrUdests (rrep : RREP) (ipSrc : InAddr) (hn : I n) :
    I (rrepLrUdests c rrep ipSrc n) := by
  unfold AodvUU.rrepLrUdests
  refine List.foldlRecOn (motive := fun n : Node => I n) _ _ hn fun n hn e _ => ?_
  cases e with
  | rrepUdest ud => exact h.rrepLrRoute rrep ipSrc ud.destAddr hn
  | cost | rreqUdest | helloInterval | helloNeighborSet | other => exact hn

theorem rrepLrRelay (rrep : RREP) (len : ℕ) (rev : Option InAddr) (ttl : Int) (hn : I n) :
    I (rrepLrRelay c rrep len rev ttl n) := by
  unfold AodvUU.rrepLrRelay
  cases rev with
  | none => exact hn
  | some rev =>
    dsimp only
    split
    · exact h.rrepForward _ _ _ _ _ hn
    · exact hn

theorem rrepLrForwarder (rrep : RREP) (len : ℕ) (ipSrc : InAddr) (ttl : Int) (hn : I n) :
    I (rrepLrForwarder c rrep len ipSrc ttl n) :=
  h.rrepLrRelay _ _ _ _ (h.rrepAcknowledge rrep
    (h.rrepLrRoute _ _ _ (h.rrepLrUdests rrep ipSrc hn)))

theorem lrRerrAdd (a : InAddr) (s : LrRerr) (hn : I s.node) : I (lrRerrAdd a s).node := by
  unfold AodvUU.lrRerrAdd
  dsimp only
  split_ifs
  · exact hn
  all_goals exact h.still (n := s.node) rfl rfl rfl hn

theorem lrRepairEntry (rrep : RREP) (ipSrc a : InAddr) (s : LrRerr) (hn : I s.node) :
    I (lrRepairEntry c rrep ipSrc s a).node := by
  unfold AodvUU.lrRepairEntry
  cases hr : lrRepaired c rrep ipSrc a s.node with
  | none => exact hn
  | some n' =>
    refine h.lrRerrAdd a _ ?_
    unfold lrRepaired at hr
    dsimp only at hr
    split_ifs at hr
    all_goals
      cases hr
      exact h.rtTableUpdate _ _ _ _ _ _ _ hn

theorem rrepLrOrigin (rrep : RREP) (ipSrc : InAddr) (hn : I n) :
    I (rrepLrOrigin c rrep ipSrc n) := by
  unfold AodvUU.rrepLrOrigin lrRerrSend
  have hwalk : I ((n.entries.map (·.destAddr)).foldl (AodvUU.lrRepairEntry c rrep ipSrc)
      { unicastDest := c.env.uninitAddr, node := n }).node :=
    List.foldlRecOn (motive := fun s : LrRerr => I s.node) _ _ hn fun s hs a _ =>
      h.lrRepairEntry rrep ipSrc a s hs
  split
  · exact h.sendRerr _ hwalk
  · exact hwalk

theorem rrepProcessLr (rrep : RREP) (len : ℕ) (ipSrc : InAddr) (ttl : Int) (hn : I n) :
    I (rrepProcessLr c rrep len ipSrc ttl n) := by
  unfold AodvUU.rrepProcessLr
  split_ifs
  · exact hn
  · exact hn
  · exact h.helloKeepAlive (h.rrepLrOrigin rrep ipSrc hn)
  · exact h.helloKeepAlive (h.rrepLrForwarder rrep len ipSrc ttl hn)

theorem rrepArrived (rrep : RREP) (pre : Option RtTable) (hn : I n) :
    I (rrepArrived c rrep pre n) := by
  unfold AodvUU.rrepArrived
  dsimp only
  split_ifs
  · exact h.aodvSocketSend _ _ _ (h.newMsg _ hn)
  · exact h.newMsg _ hn
  · exact hn

theorem rrepRelay (rrep : RREP) (rev : Option InAddr) (ttl : Int)
    (hrev : ∀ a, rev = some a → (n.rt a).state = .valid → l.channel (n.rt a).channel) (hn : I n) :
    I (rrepRelay c rrep rev ttl n) := by
  unfold AodvUU.rrepRelay
  cases rev with
  | none => exact hn
  | some a =>
    dsimp only
    split
    · next hvalid => exact h.rrepForward _ _ _ _ _ (h.act _ _ (.tune _ (hrev a rfl hvalid)) hn)
    · exact hn

theorem rrepRoute {rrep : RREP} {ipSrc : InAddr} {cost : ℚ} {n' : Node}
    (hch : l.channel rrep.channel.toNat) (hn : I n)
    (hr : AodvUU.rrepRoute c rrep ipSrc cost n = some n') : I n' := by
  unfold AodvUU.rrepRoute at hr
  cases hfind : rtTableFind n rrep.destAddr with
  | none =>
    rw [hfind] at hr
    cases hr
    exact h.rtTableInsertWithChannel _ _ _ _ _ _ _ _ hch hn
  | some fwdRt =>
    rw [hfind] at hr
    dsimp only at hr
    split_ifs at hr
    cases hr
    exact h.rtTableUpdateGen h.breaks _ _ _ _ _ _ _ (fun x hx => by cases hx; exact hch) hn

theorem rrepHandle (rrep : RREP) (ipSrc : InAddr) (ttl : Int)
    (hch : l.channel rrep.channel.toNat)
    (hrev : ∀ n', AodvUU.rrepRoute c rrep ipSrc (lastCost (c.ext.log maxNum) rrep.exts) n = some n' →
      I n' → rrep.origAddr ≠ n'.ipaddr → (n'.rt rrep.origAddr).state = .valid →
      l.channel (n'.rt rrep.origAddr).channel)
    (hn : I n) : I (rrepHandle c rrep ipSrc ttl n) := by
  unfold AodvUU.rrepHandle
  dsimp only
  split
  · exact hn
  · next n' hr =>
    have hroute := h.rrepRoute hch hn hr
    have hack := h.rrepAcknowledge rrep hroute
    have hroutes := rrepAcknowledge_routes (c := c) rrep n'
    have hrt : ∀ a, (AodvUU.rrepAcknowledge c rrep n').rt a = n'.rt a := fun a =>
      congrArg (Option.getD · default) (lookup_of_routes hroutes)
    have hip : (AodvUU.rrepAcknowledge c rrep n').ipaddr = n'.ipaddr :=
      congrArg Routes.ipaddr hroutes
    refine h.helloKeepAlive ?_
    split
    · exact h.rrepArrived _ _ hack
    · next horig =>
      refine h.rrepRelay _ _ _ (fun a ha hvalid => ?_) hack
      obtain ⟨rt, hfind, rfl⟩ := Option.map_eq_some_iff.mp ha
      rw [destAddr_of_rtTableFind hfind, hrt] at hvalid ⊢
      exact hrev n' hr hroute (hip ▸ horig) hvalid

theorem rrepProcess (rrep : RREP) (len : ℕ) (ipSrc : InAddr) (ttl : Int)
    (hch : l.channel rrep.channel.toNat)
    (hrev : rrep.lr = false → rrepSize ≤ len → rrep.destAddr ≠ n.ipaddr → ∀ n',
      AodvUU.rrepRoute c { rrep with
        exts := rrep.exts.map (Ext.addCost (getCost c n ipSrc rrep.channel)) } ipSrc
        (receivedCost c n ipSrc rrep.channel rrep.exts) n = some n' →
      I n' → rrep.origAddr ≠ n'.ipaddr → (n'.rt rrep.origAddr).state = .valid →
      l.channel (n'.rt rrep.origAddr).channel)
    (hn : I n) : I (rrepProcess c rrep len ipSrc ttl n) := by
  unfold AodvUU.rrepProcess
  split_ifs with hlr hlen hdest
  · exact h.rrepProcessLr _ _ _ _ hn
  · exact hn
  · exact hn
  · exact h.rrepHandle _ _ _ hch (hrev (by simpa using hlr) (not_lt.mp hlen) hdest) hn

theorem rrepAckProcess (ack : RREPAck) (ipSrc : InAddr) (hn : I n) :
    I (rrepAckProcess ack ipSrc n) := by
  unfold AodvUU.rrepAckProcess
  split
  · exact h.event (.acked ack ipSrc) hn
  · split
    · exact hn
    · exact h.keep _ (fun _ => rfl) hn

/-! ## Requests -/

theorem seqnoRaise (v : BitVec 32) (hn : I n) : I (n.seqnoRaise v) := by
  unfold Node.seqnoRaise
  split_ifs
  · exact hn
  · exact h.still (n := n) rfl rfl rfl hn
  · exact h.still (n := n) rfl rfl rfl hn
  · exact hn

theorem rreqLrReverse (rreq : RREQ) (ipSrc : InAddr) (hn : I n) :
    I (rreqLrReverse c rreq ipSrc n) := by
  unfold AodvUU.rreqLrReverse
  dsimp only
  split
  · exact h.rtTableInsert _ _ _ _ _ _ _ hn
  · split
    · exact h.rtTableUpdate _ _ _ _ _ _ _ hn
    · exact hn

theorem rreqLrExts (orig : InAddr) (exts : List Ext) (hn : I n) :
    I (rreqLrExts c orig exts n).2 := by
  induction exts generalizing n with
  | nil => exact hn
  | cons e es ih =>
    cases e with
    | rreqUdest ud =>
      unfold AodvUU.rreqLrExts
      split
      · exact ih (h.plainReply _ orig none _ (h.seqnoRaise _ hn))
      · exact ih hn
    | cost | rrepUdest | helloInterval | helloNeighborSet | other =>
      unfold AodvUU.rreqLrExts
      exact ih hn

theorem rreqLrIntermediate (rreq : RREQ) (fwdRt : RtTable) (hn : I n) :
    I (rreqLrIntermediate c rreq fwdRt n) := by
  unfold AodvUU.rreqLrIntermediate
  dsimp only
  split
  · exact h.plainReply _ _ _ _ (h.plainReply _ _ _ _ hn)
  · exact h.plainReply _ _ _ _ hn

theorem rreqLrAnswer (rreq : RREQ) (len : ℕ) (ttl : Int) (hn : I n) :
    I (rreqLrAnswer c rreq len ttl n) := by
  unfold AodvUU.rreqLrAnswer
  split
  · unfold rreqLrDestination
    exact h.plainReply _ _ _ _ (h.seqnoRaise _ hn)
  · split
    · exact h.rreqForward _ _ _ _ hn
    · split
      · exact h.rreqLrIntermediate _ _ hn
      · exact h.rreqForward _ _ _ _ hn

theorem rreqRecordInsertWithCost (orig : InAddr) (id : BitVec 32) (cost : ℚ) (hn : I n) :
    I (rreqRecordInsertWithCost c orig id cost n) := by
  unfold AodvUU.rreqRecordInsertWithCost
  split
  · exact hn
  · exact h.still (n := n) rfl rfl rfl hn

theorem rreqProcessLr (rreq : RREQ) (len : ℕ) (ipSrc : InAddr) (ttl : Int) (hn : I n) :
    I (rreqProcessLr c rreq len ipSrc ttl n) := by
  unfold AodvUU.rreqProcessLr
  split_ifs
  · exact hn
  · exact hn
  · exact hn
  · exact hn
  · exact h.rreqLrAnswer _ _ _ (h.rreqLrExts _ _
      (h.rreqLrReverse rreq ipSrc (h.rreqRecordInsertWithCost _ _ _ hn)))

theorem rreqReverse {rreq : RREQ} {ipSrc : InAddr} {cost : ℚ} {n' : Node}
    (hch : l.channel rreq.channel.toNat) (hn : I n)
    (hr : AodvUU.rreqReverse c rreq ipSrc cost n = some n') : I n' := by
  unfold AodvUU.rreqReverse at hr
  cases hfind : rtTableFind n rreq.origAddr with
  | none =>
    rw [hfind] at hr
    cases hr
    exact h.rtTableInsertWithChannel _ _ _ _ _ _ _ _ hch hn
  | some revRt =>
    rw [hfind] at hr
    dsimp only at hr
    split_ifs at hr
    cases hr
    exact h.rtTableUpdateGen h.breaks _ _ _ _ _ _ _ (fun x hx => by cases hx; exact hch) hn

theorem rreqIntermediate (rreq : RREQ) {fwdRt : RtTable} (hch : l.channel fwdRt.channel)
    (hn : I n) :
    I (rreqIntermediate c rreq fwdRt n) := by
  have htuned : ∀ x, some fwdRt.channel = some x → l.channel x := fun x hx => by
    cases hx
    exact hch
  unfold AodvUU.rreqIntermediate
  dsimp only
  split
  · exact h.reply _ _ _ _ htuned (h.reply _ _ _ _ htuned hn)
  · exact h.reply _ _ _ _ htuned hn

theorem rreqRelay (hknows : ∀ n, I n → l.Knows n) (rreq : RREQ) (ttl : Int) (hn : I n) :
    I (rreqRelay c rreq ttl n) := by
  unfold AodvUU.rreqRelay
  cases hfind : rtTableFind n rreq.destAddr with
  | none => exact h.rreqForward _ _ _ _ hn
  | some fwdRt =>
    dsimp only
    split_ifs with hch hfresh
    · exact h.rreqForward _ _ _ _ (h.rtTableDelete _ hn)
    · exact h.rreqIntermediate _ (hknows n hn fwdRt (mem_of_rtTableFind hfind) hch) hn
    · exact h.rreqForward _ _ _ _ hn

theorem rreqHandle (hknows : ∀ n, I n → l.Knows n) (rreq : RREQ) (ipSrc : InAddr) (ttl : Int)
    (hch : l.channel rreq.channel.toNat) (hn : I n) : I (rreqHandle c rreq ipSrc ttl n) := by
  have hrec := h.rreqRecordInsertWithCost rreq.origAddr rreq.rreqId
    (lastCost (c.ext.log maxNum) rreq.exts) hn
  rcases rreqHandle_cases c rreq ipSrc ttl n with ⟨-, heq⟩ | ⟨-, ⟨-, heq⟩ | ⟨n₁, hrev, heq⟩⟩
  · rw [heq]
    exact hn
  · rw [heq]
    exact hrec
  · have hroute := h.rreqReverse hch hrec hrev
    rw [heq]
    unfold rreqAnswer
    split
    · unfold rreqDestination
      refine h.reply _ _ _ _ (fun x hx => ?_) (h.seqnoRaise _ hroute)
      cases hx
      exact hch
    · exact h.rreqRelay hknows _ _ hroute

theorem rreqProcess (hknows : ∀ n, I n → l.Knows n) (rreq : RREQ) (len : ℕ) (ipSrc : InAddr)
    (ttl : Int) (hch : l.channel rreq.channel.toNat) (hn : I n) :
    I (rreqProcess c rreq len ipSrc ttl n) := by
  unfold AodvUU.rreqProcess
  split_ifs
  · exact h.rreqProcessLr _ _ _ _ hn
  · exact hn
  · exact hn
  · exact hn
  · exact h.rreqHandle hknows _ _ _ hch hn

/-! ## Route errors -/

theorem rerrApply (rerr : RERR) (ud : Udest) (hn : I n) : I (rerrApply c rerr ud n) := by
  have hdrop : I (ifqDropByDest ud.destAddr n) := h.still (n := n) rfl rfl rfl hn
  have hinv : I (if rerr.n then ifqDropByDest ud.destAddr n
      else AodvUU.rtTableInvalidate c ud.destAddr (ifqDropByDest ud.destAddr n)) := by
    split
    · exact hdrop
    · exact h.rtTableInvalidate _ hdrop
  unfold AodvUU.rerrApply
  refine h.keep _ (fun _ => rfl) ?_
  split
  · exact h.rreqRouteDiscovery _ _ hinv
  · exact hinv

theorem rerrAdd (rerr : RERR) (a : InAddr) (w : RerrWalk) (hn : I w.node) :
    I (rerrAdd rerr a w).node := by
  unfold AodvUU.rerrAdd
  dsimp only
  split
  · split
    · exact h.still (n := w.node) rfl rfl rfl hn
    · exact h.newMsg _ hn
  · exact hn

theorem rerrStep (rerr : RERR) (ipSrc : InAddr) (w : RerrWalk) (ud : Udest) (hn : I w.node) :
    I (rerrStep c rerr ipSrc w ud).node := by
  unfold AodvUU.rerrStep
  split
  · exact hn
  · split
    · have hadd : I (AodvUU.rerrAdd rerr ud.destAddr
          { w with node := AodvUU.rerrApply c rerr ud w.node }).node :=
        h.rerrAdd rerr _ _ (h.rerrApply rerr ud hn)
      dsimp only
      split
      · exact h.precursorListDestroy _ hadd
      · exact hadd
    · exact hn

theorem rerrProcess (rerr : RERR) (len : ℕ) (ipSrc : InAddr) (recs : List RerrRecord) (hn : I n) :
    I (rerrProcess c rerr len ipSrc recs n).2 := by
  unfold AodvUU.rerrProcess
  split
  · exact hn
  · dsimp only
    split
    · exact hn
    · unfold AodvUU.rerrWalk
      have hwalk : I (rerr.walk.foldl (AodvUU.rerrStep c rerr ipSrc) { node := n }).node :=
        List.foldlRecOn (motive := fun w : RerrWalk => I w.node) _ _ hn fun w hw ud _ =>
          h.rerrStep rerr ipSrc w ud hw
      dsimp only
      split
      · exact h.sendRerr _ hwalk
      · exact hwalk

/-! ## Timers -/

theorem ifqBuffer (a : InAddr) (hn : I n) : I (ifqBuffer c a n) :=
  List.foldlRecOn (motive := fun n : Node => I n) _ _ (h.still (n := n) rfl rfl rfl hn)
    fun _ hn p _ => h.packetQueueAdd p p.daddr hn

theorem localRepairTimeout (a : InAddr) (hn : I n) : I (localRepairTimeout c a n) := by
  have hflag := h.keep a (f := fun rt => { rt with flags := rt.flags &&& ~~~rtRepair })
    (fun _ => rfl) hn
  unfold AodvUU.localRepairTimeout
  dsimp only
  refine h.keep a (fun _ => rfl) (h.precursorListDestroy a ?_)
  split
  · exact hflag
  · exact h.aodvSocketSend _ _ _ (h.newMsg _ hflag)

theorem rtTimerTimeout (a : InAddr) (hn : I n) : I (rtTimerTimeout c a n) := by
  have hoff := h.keep a (f := fun rt => { rt with rtTimer := rt.rtTimer.remove }) (fun _ => rfl) hn
  unfold AodvUU.rtTimerTimeout
  dsimp only
  split
  · split
    · unfold routeExpireTimeout
      split
      · exact h.linkBreak _ hoff
      · exact h.precursorListDestroy _ (h.rtTableInvalidate _ hoff)
    · exact h.rtTableDelete _ hoff
    · exact h.localRepairTimeout _ hoff
    · exact hoff
  · exact hn

theorem helloTimeout (a : InAddr) (hn : I n) : I (helloTimeout c a n) := by
  unfold AodvUU.helloTimeout
  dsimp only
  split
  · refine h.linkBreak _ ?_
    split
    · exact h.ifqBuffer _ (h.keep _ (fun _ => rfl) hn)
    · exact hn
  · exact hn

theorem routeDiscoveryTimeout (i : ℕ) (hn : I n) : I (routeDiscoveryTimeout c i n) := by
  have hseek : ∀ (ss : List SeekList) (n : Node), I n → I { n with seekhead := ss } :=
    fun ss n hn => h.still (n := n) rfl rfl rfl hn
  unfold AodvUU.routeDiscoveryTimeout
  split
  · exact hn
  · split
    · unfold routeDiscoveryRetry
      dsimp only
      refine h.flood _ _ _ _ ?_
      split
      · exact hseek _ n hn
      · exact h.keepWaiting _ (hseek _ n hn)
    · unfold noRouteFound
      have hdrop : ∀ s : SeekList, I { AodvUU.packetQueueSetVerdict c s.destAddr .drop n with
          seekhead := (AodvUU.packetQueueSetVerdict c s.destAddr .drop n).seekhead.eraseIdx i } :=
        fun s => hseek _ _ (h.packetQueueSetVerdict _ .drop hn)
      dsimp only
      split
      · exact hdrop _
      · split
        · exact h.localRepairTimeout _ (hdrop _)
        · exact hdrop _

theorem timerStep (e : Event) (hn : I n) : I (timerStep c e n) := by
  cases e with
  | rtTimer a => exact h.rtTimerTimeout a hn
  | seekTimer i => exact h.routeDiscoveryTimeout i hn
  | ackTimer a =>
    unfold AodvUU.timerStep
    dsimp only
    split
    · unfold rrepAckTimeout rreqBlacklistInsert
      split
      · exact h.keep _ (fun _ => rfl) hn
      · exact h.still (n := Node.modRt a _ n) rfl rfl rfl (h.keep _ (fun _ => rfl) hn)
    · exact hn
  | rtHelloTimer a =>
    unfold AodvUU.timerStep
    dsimp only
    split
    · exact h.helloTimeout a (h.keep _ (fun _ => rfl) hn)
    · exact hn
  | helloTimer =>
    unfold AodvUU.timerStep
    dsimp only
    split
    · exact h.helloSend (h.still (n := n) rfl rfl rfl hn)
    · exact hn
  | packetQueueTimer =>
    have hcollect : I (packetQueueGarbageCollect c n) :=
      h.dropAll _ (fun qp : QPkt => (qp.p, .qTimeout)) (h.still (n := n) rfl rfl rfl hn)
    exact h.still (n := packetQueueGarbageCollect c n) rfl rfl rfl hcollect
  | start | recv | packetFailed | rerrRecordTimer | ifqueue => exact hn
  | rreqRecordTimer | blacklistTimer | waitOnRebootTimer => exact h.still (n := n) rfl rfl rfl hn

/-! ## Packets -/

theorem noRoute (p : Packet) (fwd rev : Option RtTable) (hn : I n) : I (noRoute c p fwd rev n) := by
  have hreset : ∀ n, I n → I (worbReset c n) := by
    intro n hn
    unfold worbReset
    split
    · exact h.still (n := n) rfl rfl rfl hn
    · exact hn
  unfold AodvUU.noRoute
  refine h.drop _ _ (hreset _ (h.aodvSocketSend _ _ _ ?_))
  unfold noRouteRerr
  split
  · exact h.timeout _ _ (h.newMsg _ hn)
  · exact h.newMsg _ hn

theorem seekRoute (p : Packet) (fwd : Option RtTable) (hn : I n) : I (seekRoute c p fwd n) := by
  have hadd := h.packetQueueAdd p p.daddr hn
  unfold AodvUU.seekRoute
  dsimp only
  split
  · split
    · exact h.rreqLocalRepair _ hadd
    · exact h.rreqRouteDiscovery _ _ hadd
  · exact h.rreqRouteDiscovery _ _ hadd

theorem processPacket (p : Packet) (hn : I n) : I (processPacket c p n) := by
  have hdeliver : ∀ n : Node, I n → I (n.handOut (.deliver p)) := fun n hn =>
    h.act _ _ (.handOut _ fun _ _ _ ho => by cases ho) hn
  unfold AodvUU.processPacket
  split_ifs
  · exact h.drop _ _ hn
  · exact h.sendPacket _ _ _ hn
  · exact hdeliver n hn
  · unfold processUnicast routeUnicast
    have hupd := h.rtTableUpdateRouteTimeouts ((rtTableFind n p.daddr).map (·.destAddr))
      ((rtTableFind n p.saddr).map (·.destAddr)) hn
    dsimp only
    split
    · exact hdeliver _ hupd
    · split
      · split_ifs
        · exact h.noRoute _ _ _ hupd
        · exact h.seekRoute _ _ hupd
        · unfold forwardData
          exact h.helloKeepAlive (h.still (n := sendPacket c p _ 0 _) rfl rfl rfl
            (h.sendPacket _ _ _ hupd))
      · split
        · exact h.noRoute _ _ _ hupd
        · exact h.seekRoute _ _ hupd

theorem dropFailed (p : Packet) (hn : I n) : I (dropFailed p n) := by
  unfold AodvUU.dropFailed ifqDrop
  exact h.dropAll _ (fun q : Packet => (q, .noRoute))
    (h.still (n := n.handOut (.drop p .macCallback)) rfl rfl rfl (h.drop _ _ hn))

theorem packetFailed (p : Packet) (hn : I n) : I (packetFailed c p n) := by
  unfold AodvUU.packetFailed
  split_ifs
  · exact h.drop _ _ hn
  · exact h.packetQueueAdd _ _ hn
  · split
    · split_ifs
      · exact h.dropFailed p hn
      · exact h.drop _ _ hn
      · refine h.rreqLocalRepair _ (h.linkBreak _ (h.keep _ (fun _ => rfl) ?_))
        exact h.ifqBuffer _ (h.packetQueueAdd _ _ hn)
      · exact h.dropFailed p (h.linkBreak _ hn)
    · exact h.dropFailed p hn

/-- What a packet brings is on the channel it arrived on. A plain reply reads the channel of an
entry besides. -/
theorem recv (hadds : c.AddsPlainly) (hknows : ∀ n, I n → l.Knows n) {p : Packet}
    (recs : List RerrRecord)
    (hch : p.received.isSome → l.channel (BitVec.ofInt 8 p.channel).toNat)
    (hreply : ∀ rrep m, p.reply = some rrep → p.received = some m → p.saddr ≠ n.ipaddr →
      I (c.ext.neighborAdd c.env m p.saddr n) →
      I (AodvUU.rrepProcess c rrep p.len p.saddr p.ttl (c.ext.neighborAdd c.env m p.saddr n)))
    (hn : I n) : I (AodvUU.recv c p (recs, n)).2 := by
  refine recv_cases (J := I) (I := fun n' => I n' ∧ ∃ m, p.received = some m ∧
    n' = c.ext.neighborAdd c.env m p.saddr n) recs (h.drop _ _ hn) hn
    (fun _ _ dir => h.processPacket _ hn) (fun hello hhello _ => ?_)
    (fun _ m hm _ => ⟨h.acts (hadds m p.saddr n) hn, m, hm, rfl⟩) (fun rrep hrrep hown n' hn' => ?_)
    (fun rreq hrreq _ n' hn' => ?_) (fun rerr _ _ n' hn' => h.rerrProcess rerr _ _ recs hn'.1)
    (fun ack n' hn' => h.rrepAckProcess ack p.saddr hn'.1)
  · obtain ⟨hrec, hchan⟩ := Packet.hello_channel hhello
    exact h.helloProcess hello (hchan ▸ hch hrec) hn
  · obtain ⟨hadd, m, hm, rfl⟩ := hn'
    exact hreply rrep m hrrep hm hown hadd
  · obtain ⟨hrec, hchan⟩ := Packet.request_channel hrreq
    exact h.rreqProcess hknows rreq _ _ _ (hchan ▸ hch hrec) hn'.1

theorem step (hadds : c.AddsPlainly) (hknows : ∀ n, I n → l.Knows n) (recs : List RerrRecord)
    (e : Event)
    (hch : ∀ p, e = .recv p → p.received.isSome → l.channel (BitVec.ofInt 8 p.channel).toNat)
    (hreply : ∀ p rrep m, e = .recv p → p.reply = some rrep → p.received = some m →
      p.saddr ≠ n.ipaddr → I (c.ext.neighborAdd c.env m p.saddr n) →
      I (AodvUU.rrepProcess c rrep p.len p.saddr p.ttl (c.ext.neighborAdd c.env m p.saddr n)))
    (hn : I n) : I (AodvUU.step c e (recs, n)).2 := by
  have htimer := h.timerStep e hn
  cases e with
  | start =>
    refine h.helloStart ?_
    split
    · exact h.still (n := n) rfl rfl rfl hn
    · exact hn
  | recv p =>
    exact h.recv hadds hknows recs (hch p rfl) (fun rrep m => hreply p rrep m rfl) hn
  | packetFailed p => exact h.packetFailed p hn
  | ifqueue q => exact h.still (n := n) rfl rfl rfl hn
  | rerrRecordTimer r =>
    unfold AodvUU.step
    dsimp only
    split <;> exact hn
  | rtTimer | ackTimer | rtHelloTimer | seekTimer | rreqRecordTimer | blacklistTimer | helloTimer
  | packetQueueTimer | waitOnRebootTimer => exact htimer

end Ctx.Steady

end AodvUU

import AodvUU.ActiveCount
import AodvUU.Emits

/-! # The channel of a route

A unicast leaves on interface `channelNum`, which floods, replies and acknowledgements set in
passing. Data packets use whatever it holds. -/
namespace AodvUU

variable {c : Ctx}

def Node.Sent (n n' : Node) (o : Output) : Prop := ∃ l, n'.out = n.out ++ l ∧ o ∈ l

theorem Node.Emits.sent {P : Output → Prop} {n n' : Node} {o : Output} (h : n.Emits P n')
    (hs : n.Sent n' o) : P o := by
  obtain ⟨l, hl, hP⟩ := h
  obtain ⟨l', hl', ho⟩ := hs
  rw [List.append_cancel_left (hl'.symm.trans hl)] at ho
  exact hP o ho

theorem Node.Sent.emits {P : Output → Prop} {n n' n'' : Node} {o : Output} (h : n.Sent n' o)
    (h' : n'.Emits P n'') : n.Sent n'' o := by
  obtain ⟨l, hl, ho⟩ := h
  obtain ⟨l', hl', -⟩ := h'
  exact ⟨l ++ l', by rw [hl', hl, List.append_assoc], List.mem_append_left _ ho⟩

theorem Node.Emits.then_sent {P : Output → Prop} {n n' n'' : Node} {o : Output} (h : n.Emits P n')
    (h' : n'.Sent n'' o) : n.Sent n'' o := by
  obtain ⟨l, hl, -⟩ := h
  obtain ⟨l', hl', ho⟩ := h'
  exact ⟨l ++ l', by rw [hl', hl, List.append_assoc], List.mem_append_right _ ho⟩

theorem Node.sent_congr {n n' m : Node} {o : Output} (h : n'.out = n.out) :
    n'.Sent m o ↔ n.Sent m o := by
  unfold Node.Sent
  rw [h]

/-! ## Packets that pass -/

theorem schedule_sent {p : Packet} (hu : p.daddr ≠ aodvBroadcast) (a : InAddr) (delay : ℚ)
    (n : Node) : n.Sent (schedule c p a delay n) (.sched n.channelNum
      { p with nextHop := a, prevHop := n.ipaddr, channel := n.channelNum } delay) := by
  unfold schedule
  rw [if_neg hu]
  exact ⟨_, rfl, List.mem_singleton.mpr rfl⟩

theorem sendPacket_sent {p : Packet} {n : Node} (hp : p.Passes n.ipaddr)
    (hu : p.daddr ≠ aodvBroadcast) (a : InAddr) (delay : ℚ) :
    ∃ q d, p.Copy q ∧ n.Sent (sendPacket c p a delay n) (.sched n.channelNum q d) := by
  unfold sendPacket
  rcases hp with ⟨hup, hsrc, httl⟩ | ⟨hdown, hsrc⟩
  · rw [if_pos ⟨hup, hsrc⟩, if_neg (by omega)]
    have hsent := schedule_sent (c := c) (p := { p with ttl := p.ttl - 1, direction := .down }) hu
      a delay n
    refine ⟨_, _, ?_, hsent⟩
    exact ⟨rfl, rfl, rfl, rfl, fun h => by rw [hup] at h; cases h⟩
  · rw [if_neg (fun h => by rw [hdown] at h; cases h.1), if_pos ⟨hdown, hsrc⟩]
    refine ⟨_, _, ?_, schedule_sent hu a delay n⟩
    exact ⟨rfl, rfl, rfl, rfl, fun _ => rfl⟩

theorem sendQueued_sent {qp : QPkt} {qps : List QPkt} (hqp : qp ∈ qps) {n : Node}
    (hp : qp.p.Passes n.ipaddr) (hu : qp.p.daddr ≠ aodvBroadcast) (a : InAddr) (delay : ℚ) :
    ∃ q d, qp.p.Copy q ∧ n.Sent (sendQueued c a qps delay n) (.sched n.channelNum q d) := by
  induction qps generalizing n delay with
  | nil => cases hqp
  | cons qp' qps ih =>
    unfold sendQueued
    rcases List.mem_cons.mp hqp with rfl | hqp
    · obtain ⟨q, d, hcopy, hsent⟩ := sendPacket_sent hp hu a delay
      exact ⟨q, d, hcopy, hsent.emits (sendQueued_emits a qps _ _)⟩
    · have hframe := sendPacket_eq (c := c) qp'.p a delay n
      have hip : (sendPacket c qp'.p a delay n).ipaddr = n.ipaddr := by rw [hframe]
      have hch : (sendPacket c qp'.p a delay n).channelNum = n.channelNum := by rw [hframe]
      obtain ⟨q, d, hcopy, hsent⟩ := ih hqp (hip ▸ hp) (delay + 5 / 1000)
      exact ⟨q, d, hcopy, (sendPacket_emits qp'.p a delay n).then_sent (hch ▸ hsent)⟩

/-- The packets released for a route leave on its channel exactly when `channelNum` holds it,
or none of them is unicast and passes. -/
theorem setVerdict_on_channel_iff {n : Node} {dest : InAddr} {rt : RtTable}
    (hfind : rtTableFind n dest = some rt) :
    (∀ i q d, n.Sent (packetQueueSetVerdict c dest .send n) (.sched i q d) →
      q.daddr ≠ aodvBroadcast → i = rt.channel) ↔
    n.channelNum = rt.channel ∨
      ∀ qp ∈ n.pq, qp.destAddr = dest → qp.p.daddr ≠ aodvBroadcast → ¬ qp.p.Passes n.ipaddr := by
  constructor
  · intro hall
    by_contra hneg
    simp only [not_or, not_forall, not_not] at hneg
    obtain ⟨hch, qp, hqp, hdest, hu, hp⟩ := hneg
    have hmem : qp ∈ n.pq.filter (·.destAddr = dest) := List.mem_filter.mpr ⟨hqp, by simpa using hdest⟩
    obtain ⟨q, d, hcopy, hsent⟩ := sendQueued_sent (c := c) (n := takeQueued dest n) hmem hp hu
      rt.nextHop 0
    refine hch (hall n.channelNum q d ?_ (hcopy.daddr ▸ hu))
    simp only [packetQueueSetVerdict, hfind]
    exact Node.Sent.emits (P := fun _ => True) hsent (.of_out (refreshQueued_out _ _ _))
  · intro hcond i q d hsent hu
    rcases (packetQueueSetVerdict_emits dest .send n).sent hsent with
      ⟨qp, hqp, hdest, hp, hcopy, hch⟩ | ⟨_, _, ho⟩
    · have hu' : qp.p.daddr ≠ aodvBroadcast := hcopy.daddr ▸ hu
      rcases hcond with hn | hnone
      · rw [hch hu', hn]
      · exact absurd hp (hnone qp hqp hdest hu')
    · cases ho

/-! ## Data packets -/

structure TimersOnly (n n' : Node) : Prop where
  rest : n' = { n with tbl := n'.tbl }
  entry : ∀ a rt, n.lookup a = some rt → ∃ t, n'.lookup a = some { rt with rtTimer := t }

namespace TimersOnly

variable {n n' n'' : Node}

theorem refl (n : Node) : TimersOnly n n := ⟨rfl, fun _ rt h => ⟨rt.rtTimer, h⟩⟩

theorem trans (h : TimersOnly n n') (h' : TimersOnly n' n'') : TimersOnly n n'' := by
  refine ⟨?_, fun a rt hrt => ?_⟩
  · rw [h'.rest, h.rest]
  · obtain ⟨t, hrt'⟩ := h.entry a rt hrt
    obtain ⟨t', hrt''⟩ := h'.entry a _ hrt'
    exact ⟨t', hrt''⟩

end TimersOnly

theorem rtTableUpdateTimeout_timersOnly (a : InAddr) (life : BitVec 32) (n : Node) :
    TimersOnly n (rtTableUpdateTimeout c a life n) := by
  have hupdate : ∀ rt : RtTable, ∃ t, rt.updateTimeout c.now life = { rt with rtTimer := t } := by
    intro rt
    unfold RtTable.updateTimeout
    split_ifs <;> exact ⟨_, rfl⟩
  refine ⟨rfl, fun b rt hrt => ?_⟩
  obtain ⟨t, ht⟩ := hupdate rt
  unfold rtTableUpdateTimeout
  rw [lookup_modRt a b fun rt => (RtTable.updateTimeout_keeps c.now life rt).destAddr, hrt]
  split
  · exact ⟨t, by rw [← ht]; rfl⟩
  · exact ⟨rt.rtTimer, rfl⟩

theorem updateRouteTimeout_timersOnly (rt : RtTable) (inet : Bool) (n : Node) :
    TimersOnly n (updateRouteTimeout c rt inet n) := by
  unfold updateRouteTimeout
  split
  · dsimp only
    have hfirst : TimersOnly n (if c.conf.llfeedback ∨ inet ∨ rt.hcnt ≠ 1 ∨ rt.helloTimer.used then
        rtTableUpdateTimeout c rt.destAddr (msecs c.conf.activeRouteTimeout) n else n) := by
      split
      · exact rtTableUpdateTimeout_timersOnly _ _ n
      · exact .refl n
    split
    · exact hfirst
    · split
      · exact hfirst.trans (rtTableUpdateTimeout_timersOnly _ _ _)
      · exact hfirst
  · exact .refl n

theorem rtTableUpdateRouteTimeouts_timersOnly (fwd rev : Option InAddr) (n : Node) :
    TimersOnly n (rtTableUpdateRouteTimeouts c fwd rev n) :=
  rtTableUpdateRouteTimeouts_keeps (I := TimersOnly n)
    (fun rt inet m hm => hm.trans (updateRouteTimeout_timersOnly rt inet m)) fwd rev (.refl n)

def Output.NoData : Output → Prop
  | .sched _ q _ => q.ptype = .aodvuu
  | _ => True

theorem Output.Control.noData {own dst : InAddr} {ttl ch : Int} {m : AodvMsg} {o : Output}
    (h : o.Control own dst ttl ch m) : o.NoData := by
  cases o with
  | sched i q d => exact h.1
  | drop | deliver => trivial

theorem helloKeepAlive_noData (n : Node) : n.Emits Output.NoData (helloKeepAlive c n) :=
  (helloKeepAlive_emits n).mono fun _ ⟨_, _, ho, _⟩ => ho.noData

theorem noRoute_noData (p : Packet) (fwd rev : Option RtTable) (n : Node) :
    n.Emits Output.NoData (noRoute c p fwd rev n) := by
  have hrerr : (noRouteRerr c p fwd n).out = n.out := by
    unfold noRouteRerr
    split <;> rfl
  have hworb : ∀ n' : Node, n'.Emits Output.NoData (worbReset c n') := by
    intro n'
    unfold worbReset
    split <;> exact .of_out rfl
  have hsend : (noRouteRerr c p fwd n).Emits Output.NoData (aodvSocketSend c (rerrDest rev)
      (rerrCalcSize (noRouteRerr c p fwd n).sendBuf) 1 (noRouteRerr c p fwd n)) :=
    (aodvSocketSend_emits _ _ 1 _).mono fun _ ho => ho.noData
  exact (((Node.Emits.of_out hrerr).trans hsend).trans (hworb _)).trans (.handOut trivial _)

theorem seekRoute_noData (p : Packet) (fwd : Option RtTable) (n : Node) :
    n.Emits Output.NoData (seekRoute c p fwd n) := by
  have hadd : n.Emits Output.NoData (packetQueueAdd c p p.daddr n) :=
    (packetQueueAdd_emits p _ n).mono fun _ ⟨_, _, ho⟩ => by rw [ho]; trivial
  have hdiscover : ∀ flags n', Node.Emits Output.NoData n' (rreqRouteDiscovery c p.daddr flags n') :=
    fun flags n' => (rreqRouteDiscovery_emits p.daddr flags n').mono
      fun _ ⟨_, _, _, ho, _⟩ => ho.noData
  unfold seekRoute
  dsimp only
  split
  · split
    · exact hadd.trans ((rreqLocalRepair_emits _ _).mono fun _ ⟨_, _, _, _, ho⟩ => ho.noData)
    · exact hadd.trans (hdiscover _ _)
  · exact hadd.trans (hdiscover _ _)

/-- The data packet is handed to `sendPacket` and passes. -/
def Packet.Forwarded (p : Packet) (n : Node) (rt : RtTable) : Prop :=
  p.daddr ≠ n.ipaddr ∧ ¬ rt.unusable ∧ p.Passes n.ipaddr

instance (p : Packet) (n : Node) (rt : RtTable) : Decidable (p.Forwarded n rt) :=
  inferInstanceAs (Decidable (_ ∧ _ ∧ _))

/-- The part of `processPacket` behind the refreshed timeouts: data leaves only over a usable
route. -/
theorem routeUnicast_emits (p : Packet) (rev : Option InAddr) {n : Node} {rt : RtTable}
    (hrt : n.lookup p.daddr = some rt) :
    n.Emits (fun o => o.NoData ∨ (p.Forwarded n rt ∧ o.Sends n.ipaddr n.channelNum p))
      (routeUnicast c p (some p.daddr) rev n) := by
  unfold routeUnicast
  dsimp only
  rw [rt_of_lookup hrt]
  split
  · exact .handOut (.inl trivial) n
  · next hown =>
    split
    · split
      · exact (noRoute_noData p _ _ n).mono fun _ => .inl
      · exact (seekRoute_noData p _ n).mono fun _ => .inl
    · next husable =>
      unfold forwardData
      refine Node.Emits.trans ((sendPacket_emits p rt.nextHop 0 n).mono fun o ho => ?_)
        ((helloKeepAlive_noData _).mono fun _ => .inl)
      cases o with
      | sched i q d => exact .inr ⟨⟨hown, husable, ho.1⟩, ho⟩
      | drop => exact .inl trivial
      | deliver => exact ho.elim

theorem routeUnicast_sent {p : Packet} (rev : Option InAddr) {n : Node} {rt : RtTable}
    (hrt : n.lookup p.daddr = some rt) (hp : p.Forwarded n rt) (hu : p.daddr ≠ aodvBroadcast) :
    ∃ q d, p.Copy q ∧ n.Sent (routeUnicast c p (some p.daddr) rev n) (.sched n.channelNum q d) := by
  obtain ⟨hown, husable, hpass⟩ := hp
  obtain ⟨q, d, hcopy, hsent⟩ := sendPacket_sent (c := c) hpass hu rt.nextHop 0
  unfold routeUnicast
  dsimp only
  rw [rt_of_lookup hrt, if_neg hown, if_neg husable]
  exact ⟨q, d, hcopy, hsent.emits (helloKeepAlive_emits
    { sendPacket c p rt.nextHop 0 n with fwdTime := c.now })⟩

/-- A data packet leaves on the channel of its route exactly when `channelNum` holds it, or the
packet is not sent. -/
theorem processPacket_on_channel_iff {n : Node} (hwf : RtWf n) {p : Packet} {rt : RtTable}
    (hp : p.ptype ≠ .aodvuu) (hu : p.daddr ≠ aodvBroadcast)
    (hfind : rtTableFind n p.daddr = some rt) :
    (∀ i q d, n.Sent (processPacket c p n) (.sched i q d) → q.ptype ≠ .aodvuu → i = rt.channel) ↔
    n.channelNum = rt.channel ∨ ¬ p.Forwarded n rt := by
  have hrt := (hwf.rtTableFind_eq_lookup p.daddr).symm.trans hfind
  by_cases hdir : p.direction = .none
  · have hnot : ¬ p.Forwarded n rt := by
      rintro ⟨-, -, ⟨h, -⟩ | ⟨h, -⟩⟩ <;> rw [hdir] at h <;> cases h
    refine iff_of_true (fun i q d hsent => ?_) (.inr hnot)
    unfold processPacket at hsent
    rw [if_pos hdir] at hsent
    exact (Node.Emits.handOut (P := fun o => ∃ q r, o = .drop q r) ⟨_, _, rfl⟩ n).sent hsent
      |>.elim fun _ h => h.elim fun _ h => by cases h
  · have hroute : processPacket c p n = routeUnicast c p (some p.daddr)
        ((rtTableFind n p.saddr).map (·.destAddr))
        (rtTableUpdateRouteTimeouts c (some p.daddr)
          ((rtTableFind n p.saddr).map (·.destAddr)) n) := by
      unfold processPacket processUnicast
      rw [if_neg hdir, if_neg hu, hfind]
      dsimp only [Option.map]
      rw [destAddr_of_rtTableFind hfind]
    rw [hroute]
    obtain ⟨hrest, hentry⟩ := rtTableUpdateRouteTimeouts_timersOnly (c := c) (some p.daddr)
      ((rtTableFind n p.saddr).map (·.destAddr)) n
    obtain ⟨t, hrt'⟩ := hentry _ _ hrt
    generalize rtTableUpdateRouteTimeouts c (some p.daddr)
      ((rtTableFind n p.saddr).map (·.destAddr)) n = n' at hrest hrt' ⊢
    have hout : n'.out = n.out := by rw [hrest]
    have hip : n'.ipaddr = n.ipaddr := by rw [hrest]
    have hch : n'.channelNum = n.channelNum := by rw [hrest]
    have hforw : p.Forwarded n' { rt with rtTimer := t } ↔ p.Forwarded n rt := by
      unfold Packet.Forwarded
      rw [hip]
      rfl
    rw [← hforw, ← hch]
    constructor
    · intro hall
      by_contra hneg
      rw [not_or, not_not] at hneg
      obtain ⟨q, d, hcopy, hsent⟩ := routeUnicast_sent (c := c)
        ((rtTableFind n p.saddr).map (·.destAddr)) hrt' hneg.2 hu
      exact hneg.1 (hall _ q d ((Node.sent_congr hout).mp hsent) (hcopy.ptype ▸ hp))
    · intro hcond i q d hsent hq
      rcases (routeUnicast_emits p _ hrt').sent ((Node.sent_congr hout).mpr hsent) with
        hno | ⟨hf, -, -, hi⟩
      · exact absurd hno hq
      · exact (hi hu).trans (hcond.resolve_right (not_not.mpr hf))

end AodvUU

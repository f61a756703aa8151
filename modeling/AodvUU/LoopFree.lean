import AodvUU.Announcements
import AodvUU.Network

/-! # Loop freedom of cost-metric routing

A network that runs `rreq_process`, `rrep_process`, `rreq_route_discovery` and
`rt_table_invalidate` behaves like a distance vector protocol with sequence numbers, whose routes
have no loops. -/
namespace AodvUU

open DistanceVector (Net Steps Step)

variable {cf : Conf} {ext : Extern} {c : Ctx}

/-! ## The network -/

def Process.put (P : Process) (a : InAddr) (n : Node) : Process :=
  { P with node := Function.update P.node a n }

def Process.Forwards (P : Process) (d a b : InAddr) : Prop :=
  ∃ rt ∈ (P.node a).entries, rt.destAddr = d ∧ rt.state = .valid ∧ rt.nextHop = b

/-- No sequence number has come to the largest `int32_t`. -/
def Process.NumbersBelow (P : Process) : Prop :=
  ∀ a, (P.node a).seqno.toNat < maxSeqno.toNat ∧
    ∀ rt ∈ (P.node a).entries, rt.destSeqno.toNat < maxSeqno.toNat

/-- One step of one agent. What an agent has scheduled stays on the air: it is delivered at any
later time, in any order, often or never. -/
inductive CostStep (cf : Conf) (ext : Extern) (P : Process) : Process → Prop
  | discover (env : Env) (a dest : InAddr) (flags : BitVec 8) :
      CostStep cf ext P (P.put a (rreqRouteDiscovery ⟨cf, ext, env⟩ dest flags (P.node a)))
  | request (env : Env) (a : InAddr) (p : Packet) (hair : P.Carries a p) (rreq : RREQ)
      (hp : p.received = some (.rreq rreq)) (htype : rreq.type = aodvRreq) (hg : rreq.g = false)
      (hcost : 0 < getCost ⟨cf, ext, env⟩ (P.node a) p.saddr rreq.channel) :
      CostStep cf ext P
        (P.put a (rreqProcess ⟨cf, ext, env⟩ rreq p.len p.saddr p.ttl (P.node a)))
  | reply (env : Env) (a : InAddr) (p : Packet) (hair : P.Carries a p) (rrep : RREP)
      (hp : p.reply = some rrep) (htype : rrep.type = aodvRrep) (hlr : rrep.lr = false)
      (hcost : 0 < getCost ⟨cf, ext, env⟩ (P.node a) p.saddr rrep.channel) :
      CostStep cf ext P
        (P.put a (rrepProcess ⟨cf, ext, env⟩ rrep p.len p.saddr p.ttl (P.node a)))
  | invalidate (env : Env) (a d : InAddr) :
      CostStep cf ext P (P.put a (rtTableInvalidate ⟨cf, ext, env⟩ d (P.node a)))
  -- Hellos and their acknowledgements set the records of the neighbours, with the costs.
  | measure (a : InAddr) (neighbors : ℕ → NeighborInfo) (neighborNum : ℕ) :
      CostStep cf ext P (P.put a { P.node a with neighbors, neighborNum })

/-- The runs from empty tables in which no sequence number comes to its end. -/
inductive CostNetwork (cf : Conf) (ext : Extern) : Process → Prop
  | init (env : InAddr → Env) : CostNetwork cf ext (Process.init cf ext env)
  | step {P P' : Process} (h : CostStep cf ext P P') (hb : P'.NumbersBelow) :
      CostNetwork cf ext P → CostNetwork cf ext P'

/-! ## One agent -/

structure Node.Announcing (a : InAddr) (n : Node) : Prop where
  ipaddr : n.ipaddr = a
  regular : n.Regular
  pq : n.pq = []
  seqno : n.seqno ≠ 0
  below : n.seqno.toNat < maxSeqno.toNat
  out : ∀ o ∈ n.out, o.Announces a fun _ => True

theorem Node.Ages.numbered {n n' : Node} (h : n.Ages n')
    (hn : ∀ a rt, n.lookup a = some rt → rt.destSeqno ≠ 0 ∧ rt.channel ≠ -1) (a : InAddr)
    (rt' : RtTable) (hrt' : n'.lookup a = some rt') : rt'.destSeqno ≠ 0 ∧ rt'.channel ≠ -1 := by
  obtain ⟨rt, hrt, hage⟩ := Node.Entrywise.exists_before h hrt'
  obtain ⟨h0, hch⟩ := hn a rt hrt
  exact ⟨hage.numbered h0, by rw [hage.channel]; exact hch⟩

theorem Node.Learns.regular {n n' : Node} {src d : InAddr} {seqno : BitVec 32} {cost : ℚ}
    (h : n.Learns src d seqno cost n') (hn : n.Regular) (h0 : seqno ≠ 0) (hwf : RtWf n')
    (ht : n'.Trusting) (hip : n'.ipaddr = n.ipaddr) : n'.Regular := by
  cases h with
  | ignored hage =>
    exact ⟨hwf, ht, hip ▸ hage.lookup_eq_none hn.own, hage.numbered hn.entry⟩
  | taken hd _ w ch hw hinst =>
    refine ⟨hwf, ht, ?_, fun a rt' hrt' => ?_⟩
    · rw [hip]
      have hrel := hinst.others n.ipaddr (Ne.symm hd)
      rw [hn.own] at hrel
      revert hrel
      generalize n'.lookup n.ipaddr = x
      rintro (_ | _)
      rfl
    · refine ⟨?_, hinst.channel (fun b rt hrt => (hn.entry b rt hrt).2) (by
        rw [hw.channel]
        omega) a rt' hrt'⟩
      by_cases ha : a = d
      · subst ha
        obtain ⟨rt, hrt, hage⟩ := hinst.entry
        cases hrt.symm.trans hrt'
        exact hage.numbered (hw.destSeqno ▸ h0)
      · have hrel := hinst.others a ha
        rw [hrt'] at hrel
        obtain ⟨rt, hrt, hage⟩ := optionRel_some hrel
        exact hage.numbered (hn.entry a rt hrt).1

theorem Node.Hands.announcing {n n' : Node} {a : InAddr}
    (h : n.Hands (Output.Announces n.ipaddr n'.Knows) n') (hn : n.Announcing a)
    (hreg : n'.Regular) (hs : n'.seqno ≠ 0) (hb : n'.seqno.toNat < maxSeqno.toNat) :
    n'.Announcing a := by
  refine ⟨h.ipaddr.trans hn.ipaddr, hreg, ?_, hs, hb, fun o ho => ?_⟩
  · refine List.eq_nil_iff_forall_not_mem.mpr fun qp hqp => ?_
    have hold := h.pq qp hqp
    rw [hn.pq] at hold
    cases hold
  · rcases h.emits.mem ho with hold | hnew
    · exact hn.out o hold
    · rw [hn.ipaddr] at hnew
      exact hnew.mono fun _ _ => trivial

/-! ## The abstract network -/

def Process.Offers (P : Process) (x : RouteAdvert) : Prop :=
  ∃ b, ∃ p ∈ (P.node b).scheduled, ∃ y v, p.announced = some y ∧ y.exts = [.cost v] ∧
    x = ⟨p.saddr, y.dest, y.seqno.toInt, v⟩

def Process.net (P : Process) : Net InAddr ℤ ℚ where
  table a d := ((P.node a).lookup d).map RtTable.route
  adverts := { x | P.Offers x }

theorem relFades_of_ages {o o' : Option RtTable} (h : Option.Rel RtTable.Ages o o')
    (h0 : ∀ rt, o = some rt → rt.destSeqno ≠ 0)
    (hb : ∀ rt, o' = some rt → rt.destSeqno.toNat < maxSeqno.toNat) :
    Option.Rel DistanceVector.Entry.Fades (o.map RtTable.route) (o'.map RtTable.route) := by
  cases h with
  | some hage => exact .some (hage.fades (h0 _ rfl) (hb _ rfl))
  | none => exact .none

theorem put_table (P : Process) (a : InAddr) (n : Node) : (P.put a n).net.table =
    Function.update P.net.table a fun d => (n.lookup d).map RtTable.route := by
  funext b d
  by_cases hb : b = a
  · subst hb
    simp [Process.net, Process.put]
  · simp [Process.net, Process.put, Function.update_of_ne hb]

theorem put_ages {P : Process} {a : InAddr} {n : Node} (ha : (P.node a).Announcing a)
    (h : (P.node a).Ages n) (hb : n.NumbersBelow) :
    Steps P.net ⟨(P.put a n).net.table, P.net.adverts⟩ := by
  rw [put_table]
  exact .single (.fade a _ fun d =>
    relFades_of_ages (h d) (fun rt hrt => (ha.regular.entry d rt hrt).1) (hb d))

theorem Node.Regular.outdated {n : Node} (hn : n.Regular) {d : InAddr} {rt : RtTable}
    (hrt : n.lookup d = some rt) {seqno : BitVec 32} {cost : ℚ} (h : rt.Outdated seqno cost) :
    rt.route.Outdated seqno.toInt cost := by
  have hunflagged := (hn.trusting rt (hn.wf.lookup_eq_some.mp hrt).1).unflagged
  rcases h with hzero | hfresh | ⟨heq, hinv | hflag | hless⟩
  · exact absurd hzero (hn.entry d rt hrt).1
  · exact .inl (BitVec.slt_iff_toInt_lt.mp hfresh)
  · refine .inr ⟨congrArg BitVec.toInt heq, .inl ?_⟩
    show ¬ rt.state = .valid
    rw [hinv]
    exact nofun
  · rw [hunflagged] at hflag
    cases hflag
  · exact .inr ⟨congrArg BitVec.toInt heq, .inr hless⟩

theorem Node.Installs.fades {n n' : Node} {d src : InAddr} {seqno : BitVec 32} {ch : Int} {cost : ℚ}
    {w : RtTable} (h : n.Installs d w n') (hw : w.RouteOver src seqno ch cost) (h0 : seqno ≠ 0)
    (hn : ∀ a rt, n.lookup a = some rt → rt.destSeqno ≠ 0) (hb : n'.NumbersBelow) (b : InAddr) :
    Option.Rel DistanceVector.Entry.Fades
      (Function.update (fun b => (n.lookup b).map RtTable.route) d
        (some ⟨seqno.toInt, cost, src, True⟩) b)
      ((n'.lookup b).map RtTable.route) := by
  have hentry : w.route = ⟨seqno.toInt, cost, src, True⟩ := by
    unfold RtTable.route
    rw [hw.destSeqno, hw.cost, hw.nextHop, hw.state, eq_self]
  by_cases hbd : b = d
  · subst hbd
    obtain ⟨rt, hrt, hage⟩ := h.entry
    rw [Function.update_self, hrt, ← hentry]
    exact .some (hage.fades (hw.destSeqno ▸ h0) (hb b rt hrt))
  · rw [Function.update_of_ne hbd]
    exact relFades_of_ages (h.others b hbd) (hn b) (hb b)

theorem put_installs {P : Process} {a src d : InAddr} {n : Node} {seqno : BitVec 32} {v cost : ℚ}
    (ha : (P.node a).Announcing a) (hx : P.Offers ⟨src, d, seqno.toInt, v⟩) (hv : v < cost)
    (h0 : seqno ≠ 0) (hd : d ≠ a)
    (hnew : ∀ rt, (P.node a).lookup d = some rt → rt.Outdated seqno cost) {w : RtTable} {ch : Int}
    (hw : w.RouteOver src seqno ch cost) (hinst : (P.node a).Installs d w n) (hb : n.NumbersBelow) :
    Steps P.net ⟨(P.put a n).net.table, P.net.adverts⟩ := by
  rw [put_table]
  refine Steps.takeFade (N := P.net) (a := ⟨src, d, seqno.toInt, v⟩) hx hv (Ne.symm hd) (fun e he => ?_)
    (hinst.fades hw h0 (fun b rt hrt => (ha.regular.entry b rt hrt).1) hb)
  obtain ⟨rt, hrt, rfl⟩ := Option.map_eq_some_iff.mp he
  exact ha.regular.outdated hrt (hnew rt hrt)

theorem mem_scheduled {n : Node} {p : Packet} (h : p ∈ n.scheduled) :
    ∃ i d, Output.sched i p d ∈ n.out := by
  obtain ⟨o, ho, hp⟩ := List.mem_filterMap.mp h
  cases o with
  | sched i q d =>
    cases hp
    exact ⟨i, d, ho⟩
  | drop | deliver => cases hp

theorem put_steps {P : Process} {a : InAddr} {n : Node} (ha : (P.node a).Announcing a)
    (htable : Steps P.net ⟨(P.put a n).net.table, P.net.adverts⟩)
    (hout : (P.node a).Hands (Output.Announces (P.node a).ipaddr n.Knows) n) :
    Steps P.net (P.put a n).net := by
  refine htable.tail (.announce _ ?_)
  rintro x ⟨b, p, hp, y, v, hy, hexts, rfl⟩
  by_cases hb : b = a
  · subst hb
    obtain ⟨i, d, ho⟩ := mem_scheduled hp
    have hnode : (P.put b n).node b = n := Function.update_self _ _ _
    rw [hnode] at ho
    rcases hout.emits.mem ho with hold | hnew
    · exact .inl ⟨b, p, List.mem_filterMap.mpr ⟨_, hold, rfl⟩, y, v, hy, hexts, rfl⟩
    · right
      obtain ⟨hs, -, v', hexts', hknows⟩ := hnew i p d rfl y hy
      rw [hexts] at hexts'
      cases hexts'
      rw [ha.ipaddr] at hs hknows
      rw [hs]
      rcases hknows with hown | ⟨rt, hrt, hcov⟩
      · exact .inl ((hown.trans (hout.ipaddr.trans ha.ipaddr)).symm)
      · refine .inr ⟨rt.route, ?_, hcov⟩
        show ((Process.put P b n).node b |>.lookup y.dest).map RtTable.route = _
        rw [hnode, hrt]
        rfl
  · left
    have hnode : (P.put a n).node b = P.node b := Function.update_of_ne hb _ _
    rw [hnode] at hp
    exact ⟨b, p, hp, y, v, hy, hexts, rfl⟩

/-! ## Steps -/

theorem Packet.Arrives.announced {p q : Packet} (h : p.Arrives q) : q.announced = p.announced := by
  unfold Packet.announced Packet.control
  rw [h.ptype, h.msg, h.ttl, h.daddr]

theorem Process.Carries.offers {P : Process} {a : InAddr} {q : Packet} (h : P.Carries a q)
    (hP : ∀ b, (P.node b).Announcing b) {y : Announcement} (hy : q.announced = some y) :
    y.seqno ≠ 0 ∧ ∃ v, y.exts = [.cost v] ∧ P.Offers ⟨q.saddr, y.dest, y.seqno.toInt, v⟩ := by
  obtain ⟨b, p, hp, harr, -⟩ := h
  obtain ⟨i, d, ho⟩ := mem_scheduled hp
  rw [harr.announced] at hy
  obtain ⟨-, h0, v, hexts, -⟩ := (hP b).out _ ho i p d rfl y hy
  rw [harr.saddr]
  exact ⟨h0, v, hexts, b, p, hp, y, v, hy, hexts, rfl⟩

theorem announced_of_request {p : Packet} {rreq : RREQ} (hp : p.received = some (.rreq rreq))
    (htype : rreq.type = aodvRreq) :
    p.announced = some ⟨rreq.origAddr, rreq.origSeqno, rreq.exts⟩ := by
  obtain ⟨m, hm, hset⟩ := Option.map_eq_some_iff.mp hp
  unfold Packet.announced
  rw [hm]
  cases m with
  | rreq m =>
    cases hset
    dsimp only at htype ⊢
    rw [if_pos htype]
  | rrep | rerr | rrepAck | overlaid => cases hset

theorem announced_of_reply {p : Packet} {rrep : RREP} (hp : p.reply = some rrep)
    (htype : rrep.type = aodvRrep) (hlr : rrep.lr = false) :
    p.announced = some ⟨rrep.destAddr, rrep.destSeqno, rrep.exts⟩ := by
  unfold Packet.reply at hp
  split at hp
  · next m hrec =>
    split at hp
    · cases hp
    · next hhello =>
      cases hp
      obtain ⟨m, hm, hset⟩ := Option.map_eq_some_iff.mp hrec
      unfold Packet.announced
      rw [hm]
      cases m with
      | rrep m =>
        cases hset
        dsimp only at htype hlr hhello ⊢
        rw [if_pos ⟨htype, hlr, fun h => hhello ⟨htype, h⟩⟩]
      | rreq | rerr | rrepAck | overlaid => cases hset
  · cases hp

theorem put_announcing {P : Process} {a : InAddr} {n : Node} (hP : ∀ b, (P.node b).Announcing b)
    (hn : n.Announcing a) (b : InAddr) : ((P.put a n).node b).Announcing b := by
  by_cases hb : b = a
  · subst hb
    rw [show (P.put b n).node b = n from Function.update_self _ _ _]
    exact hn
  · rw [show (P.put a n).node b = P.node b from Function.update_of_ne hb _ _]
    exact hP b

theorem Process.NumbersBelow.put {P : Process} {a : InAddr} {n : Node}
    (h : (P.put a n).NumbersBelow) : n.seqno.toNat < maxSeqno.toNat ∧ n.NumbersBelow := by
  have ha := h a
  rw [show (P.put a n).node a = n from Function.update_self _ _ _] at ha
  exact ⟨ha.1, fun d rt hrt => ha.2 rt (HashTable.mem_entries.mpr ⟨_, List.mem_of_find?_eq_some hrt⟩)⟩

theorem put_hears {P : Process} (hP : ∀ b, (P.node b).Announcing b) {a src d : InAddr} {n : Node}
    {seqno : BitVec 32} {v g : ℚ} (hoffer : P.Offers ⟨src, d, seqno.toInt, v⟩) (h0 : seqno ≠ 0)
    (hg : 0 < g) (h : (P.node a).Hears src d seqno (v + g) n) (hwf : RtWf n) (ht : n.Trusting)
    (hs : n.seqno ≠ 0) (hb : (P.put a n).NumbersBelow) :
    Steps P.net (P.put a n).net ∧ ∀ b, ((P.put a n).node b).Announcing b := by
  obtain ⟨hseq, hbelow⟩ := hb.put
  have hreg := h.learns.regular (hP a).regular h0 hwf ht h.hands.ipaddr
  refine ⟨put_steps (hP a) ?_ h.hands,
    put_announcing hP (h.hands.announcing (hP a) hreg hs hseq)⟩
  cases h.learns with
  | ignored hage => exact put_ages (hP a) hage hbelow
  | taken hd hnew w ch hw hinst =>
    exact put_installs (hP a) hoffer (lt_add_of_pos_right v hg) h0 ((hP a).ipaddr ▸ hd) hnew hw hinst
      hbelow

theorem rreqRouteDiscovery_frame (a : InAddr) (flags : BitVec 8) (n : Node) :
    n.Ages (rreqRouteDiscovery c a flags n) ∧ (rreqRouteDiscovery c a flags n).pq = n.pq := by
  have hflood : ∀ (n : Node) v, (onEachChannel (rreqSendWithChannel c a v 32 flags) n).tbl = n.tbl ∧
      (onEachChannel (rreqSendWithChannel c a v 32 flags) n).pq = n.pq := by
    intro n v
    refine List.foldlRecOn (motive := fun n' : Node => n'.tbl = n.tbl ∧ n'.pq = n.pq) _ _ ⟨rfl, rfl⟩
      fun n' hn' i _ => ?_
    unfold rreqSendWithChannel
    rw [aodvSocketSend_frame]
    exact hn'
  have hkeep : ∀ b, n.Ages (keepWaiting c b n) ∧ (keepWaiting c b n).pq = n.pq := by
    intro b
    unfold keepWaiting
    split
    · exact ⟨(rtTableUpdateTimeout_effects b _ n : Effects c {} n _).ages, rfl⟩
    · exact ⟨.of_tbl rfl, rfl⟩
  unfold rreqRouteDiscovery
  split
  · exact ⟨.of_tbl rfl, rfl⟩
  · cases rtTableFind n a with
    | none => exact ⟨.of_tbl (hflood n _).1, (hflood n _).2⟩
    | some rt =>
      obtain ⟨hage, hpq⟩ := hkeep rt.destAddr
      exact ⟨hage.trans (.of_tbl (hflood _ _).1), (hflood _ _).2.trans hpq⟩

theorem discover_hands (a : InAddr) (flags : BitVec 8) {n : Node} (h0 : n.seqno + 1 ≠ 0) :
    n.Hands (Output.Announces n.ipaddr (rreqRouteDiscovery c a flags n).Knows)
      (rreqRouteDiscovery c a flags n) := by
  have hip : (rreqRouteDiscovery c a flags n).ipaddr = n.ipaddr :=
    (rreqRouteDiscovery_effects (s := .all) trivial a flags n).ipaddr
  refine ⟨(rreqRouteDiscovery_emits a flags n).mono fun o ho => ?_, fun qp hqp => ?_, hip⟩
  · obtain ⟨ttl, ch, m, hctl, horig, hs, hexts⟩ := ho
    refine hctl.announces_request (v := 0) ?_ hexts (.inl (horig.trans hip.symm))
    rw [hs]
    exact h0
  · rw [(rreqRouteDiscovery_frame a flags n).2] at hqp
    exact hqp

theorem invalidate_hands (d : InAddr) {n : Node} (hpq : n.pq = []) :
    n.Hands (Output.Announces n.ipaddr (rtTableInvalidate c d n).Knows) (rtTableInvalidate c d n) := by
  have hbreak := rtTableInvalidate_linkBreak (c := c) d n
  exact ⟨hbreak.emits.mono fun o ho =>
    (announces_permits hpq _).plain o fun m hm => .inl (ho m hm), hbreak.pq, hbreak.ipaddr⟩

theorem put_ageing {P : Process} (hP : ∀ b, (P.node b).Announcing b) {a : InAddr} {n : Node}
    (hage : (P.node a).Ages n)
    (hout : (P.node a).Hands (Output.Announces (P.node a).ipaddr n.Knows) n) (hwf : RtWf n)
    (ht : n.Trusting) (hs : n.seqno ≠ 0) (hb : (P.put a n).NumbersBelow) :
    Steps P.net (P.put a n).net ∧ ∀ b, ((P.put a n).node b).Announcing b := by
  obtain ⟨hseq, hbelow⟩ := hb.put
  have hreg : n.Regular := ⟨hwf, ht, by
    rw [hout.ipaddr]
    exact hage.lookup_eq_none (hP a).regular.own, hage.numbered (hP a).regular.entry⟩
  exact ⟨put_steps (hP a) (put_ages (hP a) hage hbelow) hout,
    put_announcing hP (hout.announcing (hP a) hreg hs hseq)⟩

theorem CostStep.refines (hext : ∀ env, Ctx.BreaksAsDocumented ⟨cf, ext, env⟩)
    (htrust : ∀ env, Ctx.Trusts ⟨cf, ext, env⟩) {P P' : Process} (h : CostStep cf ext P P')
    (hb : P'.NumbersBelow) (hP : ∀ b, (P.node b).Announcing b) :
    Steps P.net P'.net ∧ ∀ b, (P'.node b).Announcing b := by
  have hall : ∀ env, Ctx.LinkBreaks ⟨cf, ext, env⟩ .all := fun env => (hext env).linkBreaks.widen
  cases h with
  | discover env a dest flags =>
    have heff := rreqRouteDiscovery_effects (c := ⟨cf, ext, env⟩) (s := .all) trivial dest flags
      (P.node a)
    have hbelow := (hP a).below
    unfold maxSeqno at hbelow
    exact put_ageing hP (rreqRouteDiscovery_frame dest flags _).1
      (discover_hands dest flags (by bv_omega)) (effects_preserve_rtWf (hP a).regular.wf heff)
      ((hP a).regular.trusting.rreqRouteDiscovery dest flags) (heff.seqno_ne_zero (hP a).seqno) hb
  | request env a p hair rreq hp htype hg hcost =>
    obtain ⟨h0, v, hexts, hoffer⟩ := hair.offers hP (announced_of_request hp htype)
    have heff := rreqProcess_effects (hall env) (updates_all (hall env)) trivial trivial trivial rreq
      p.len p.saddr p.ttl (P.node a)
    exact put_hears hP hoffer h0 hcost
      (rreqProcess_hears (hext env) (hP a).regular (hP a).pq (hP a).seqno htype hg h0 hexts hb.put.2)
      (effects_preserve_rtWf (hP a).regular.wf heff)
      ((hP a).regular.trusting.rreqProcess (htrust env) rreq p.len p.saddr p.ttl)
      (heff.seqno_ne_zero (hP a).seqno) hb
  | reply env a p hair rrep hp htype hlr hcost =>
    obtain ⟨h0, v, hexts, hoffer⟩ := hair.offers hP (announced_of_reply hp htype hlr)
    have heff := rrepProcess_effects (updates_all (hall env)) trivial rrep p.len p.saddr p.ttl
      (P.node a)
    exact put_hears hP hoffer h0 hcost
      (rrepProcess_hears (hext env) (hP a).regular (hP a).pq hlr h0 hexts hb.put.2)
      (effects_preserve_rtWf (hP a).regular.wf heff)
      ((hP a).regular.trusting.rrepProcess (htrust env).toUnsuspecting rrep p.len p.saddr p.ttl)
      (heff.seqno_ne_zero (hP a).seqno) hb
  | measure a neighbors neighborNum =>
    have hreg := (hP a).regular
    exact put_ageing hP (.of_tbl rfl) ⟨.of_out rfl, fun _ hqp => hqp, rfl⟩ (hreg.wf.of_table rfl rfl)
      hreg.trusting (hP a).seqno hb
  | invalidate env a d =>
    have heff : Effects ⟨cf, ext, env⟩ .all (P.node a) _ := .invalidate d _
    exact put_ageing hP (rtTableInvalidate_linkBreak d _).ages (invalidate_hands d (hP a).pq)
      (effects_preserve_rtWf (hP a).regular.wf heff) ((hP a).regular.trusting.invalidate d)
      (heff.seqno_ne_zero (hP a).seqno) hb

/-! ## Runs -/

theorem init_announcing (env : InAddr → Env) (a : InAddr) :
    ((Process.init cf ext env).node a).Announcing a where
  ipaddr := rfl
  regular := by
    refine ⟨init_rtWf a, fun rt hrt => ?_, rfl, fun _ _ hrt => nomatch hrt⟩
    obtain ⟨_, hmem⟩ := HashTable.mem_entries.mp hrt
    cases hmem
  pq := rfl
  seqno := by
    show (1 : BitVec 32) ≠ 0
    decide
  below := by
    show (1 : BitVec 32).toNat < maxSeqno.toNat
    decide
  out _ ho := nomatch ho

theorem init_net (env : InAddr → Env) : (Process.init cf ext env).net = .empty := by
  have hadverts : { x | (Process.init cf ext env).Offers x } = ∅ := by
    refine Set.eq_empty_of_forall_notMem ?_
    rintro x ⟨b, p, hp, -⟩
    cases hp
  unfold Process.net
  rw [hadverts]
  rfl

theorem CostNetwork.sound (hext : ∀ env, Ctx.BreaksAsDocumented ⟨cf, ext, env⟩)
    (htrust : ∀ env, Ctx.Trusts ⟨cf, ext, env⟩) {P : Process} (h : CostNetwork cf ext P) :
    P.net.Sound ∧ ∀ b, (P.node b).Announcing b := by
  induction h with
  | init env => exact ⟨init_net env ▸ DistanceVector.empty_sound, init_announcing env⟩
  | step hstep hb _ ih =>
    obtain ⟨hsteps, hP⟩ := hstep.refines hext htrust hb ih.2
    exact ⟨hsteps.sound ih.1, hP⟩

theorem Process.Forwards.net {P : Process} (hP : ∀ b, (P.node b).Announcing b) {d a b : InAddr}
    (h : P.Forwards d a b) : P.net.Forwards d a b := by
  obtain ⟨rt, hrt, hd, hv, hnext⟩ := h
  have hlook := (hP a).regular.wf.lookup_eq_some.mpr ⟨hrt, hd⟩
  exact ⟨rt.route, congrArg (Option.map RtTable.route) hlook, hv, hnext⟩

/-- Following the next hops of the valid entries for a destination never leads to an agent
twice. -/
theorem cost_routes_loop_free (hext : ∀ env, Ctx.BreaksAsDocumented ⟨cf, ext, env⟩)
    (hsuspect : ∀ env, Ctx.Unsuspecting ⟨cf, ext, env⟩) (hhack : cf.unidirHack = false) {P : Process}
    (h : CostNetwork cf ext P) (d : InAddr) (l : List InAddr) (hl : l.IsChain (P.Forwards d)) :
    l.Nodup := by
  obtain ⟨hsound, hP⟩ := h.sound hext fun env => ⟨hsuspect env, hhack⟩
  exact hsound.nodup d (hl.imp fun a b hab => hab.net hP)

/-! ## A request two links away -/

/-- The request that the `k`-th packet of `b` on the air brings. -/
def Process.heard (P : Process) (b : InAddr) (k : ℕ) : RREQ :=
  match (P.aired b k).received with
  | some (.rreq rreq) => rreq
  | _ => {}

def Process.hear (P : Process) (a b : InAddr) (k : ℕ) : Process :=
  P.put a (rreqProcess (sampleCtx 0) (P.heard b k) (P.aired b k).len (P.aired b k).saddr
    (P.aired b k).ttl (P.node a))

/-- `a` has measured half on every channel of the link to `b`. -/
def Process.measured (P : Process) (a b : InAddr) : Process :=
  P.put a { P.node a with
    neighbors := fun _ => { ipaddr := b, channelCost := fun _ => 1 / 2 }
    neighborNum := 1 }

def measuredRun : Process :=
  ((Process.init {} (.described sampleLog {}) fun _ => { now := 0 }).measured 1 3).measured 2 1

/-- Agent 3 looks for 9. Its request comes to 1 and, over a poor link, to 2, which then hears of
the way over 1. -/
def askedRun : Process := measuredRun.put 3 (rreqRouteDiscovery (sampleCtx 0) 9 0 (measuredRun.node 3))

def relayedRun : Process := askedRun.hear 1 3 0

def overheardRun : Process := relayedRun.hear 2 3 0

def heardRun : Process := overheardRun.hear 2 1 0

theorem Process.NumbersBelow.of_put {P : Process} (h : P.NumbersBelow) {a : InAddr} {n : Node}
    (hn : n.seqno.toNat < maxSeqno.toNat ∧ ∀ rt ∈ n.entries, rt.destSeqno.toNat < maxSeqno.toNat) :
    (P.put a n).NumbersBelow := by
  intro b
  by_cases hb : b = a
  · subst hb
    rw [show (P.put b n).node b = n from Function.update_self _ _ _]
    exact hn
  · rw [show (P.put a n).node b = P.node b from Function.update_of_ne hb _ _]
    exact h b

theorem costStep_hear {P : Process} {a b : InAddr} {k : ℕ} (hk : k < (P.node b).scheduled.length)
    (hd : (P.aired b k).daddr = aodvBroadcast) (htype : (P.heard b k).type = aodvRreq)
    (hg : (P.heard b k).g = false)
    (hcost : 0 < getCost (sampleCtx 0) (P.node a) (P.aired b k).saddr (P.heard b k).channel) :
    CostStep {} (.described sampleLog {}) P (P.hear a b k) := by
  refine .request { now := 0 } a (P.aired b k) ⟨b, P.aired b k, ?_, .refl _, .inl hd⟩ _ ?_ htype hg
    hcost
  · unfold Process.aired
    rw [List.getD_eq_getElem?_getD, List.getElem?_eq_getElem hk]
    exact List.getElem_mem hk
  · unfold Process.heard at htype ⊢
    split at htype
    · assumption
    · exact absurd htype (by decide)

theorem heardRun_network : CostNetwork {} (.described sampleLog {}) heardRun := by
  have hinit : (Process.init {} (.described sampleLog {}) fun _ => { now := 0 }).NumbersBelow := by
    intro a
    refine ⟨?_, fun rt hrt => ?_⟩
    · show (1 : BitVec 32).toNat < maxSeqno.toNat
      decide
    · obtain ⟨_, hmem⟩ := HashTable.mem_entries.mp hrt
      cases hmem
  have hmeasured : measuredRun.NumbersBelow :=
    (hinit.of_put (by decide +kernel)).of_put (by decide +kernel)
  have hnetwork : CostNetwork {} (.described sampleLog {}) measuredRun :=
    .step (.measure 2 _ 1) hmeasured
      (.step (.measure 1 _ 1) (hinit.of_put (by decide +kernel)) (.init _))
  have hasked : askedRun.NumbersBelow := hmeasured.of_put (by decide +kernel)
  have hrelayed : relayedRun.NumbersBelow := hasked.of_put (by decide +kernel)
  have hoverheard : overheardRun.NumbersBelow := hrelayed.of_put (by decide +kernel)
  have hheard : heardRun.NumbersBelow := hoverheard.of_put (by decide +kernel)
  refine .step (costStep_hear ?_ ?_ ?_ ?_ ?_) hheard (.step (costStep_hear ?_ ?_ ?_ ?_ ?_) hoverheard
    (.step (costStep_hear ?_ ?_ ?_ ?_ ?_) hrelayed
      (.step (.discover { now := 0 } 3 9 0) hasked hnetwork)))
  all_goals decide +kernel

theorem cost_routes_loop_free_heard : [2, 1, 3].IsChain (heardRun.Forwards 3) ∧
    ∀ l : List InAddr, l.IsChain (heardRun.Forwards 3) → l.Nodup := by
  refine ⟨?_, fun l => cost_routes_loop_free
    (fun env => described_breaksAsDocumented sampleLog {} env)
    (fun env => described_unsuspecting sampleLog {} env) rfl heardRun_network 3 l⟩
  have hstep : ∀ a b : InAddr, ((heardRun.node a).entries.any fun rt =>
      rt.destAddr = 3 ∧ rt.state = .valid ∧ rt.nextHop = b) = true → heardRun.Forwards 3 a b := by
    intro a b hany
    obtain ⟨rt, hrt, hrt'⟩ := List.any_eq_true.mp hany
    exact ⟨rt, hrt, of_decide_eq_true hrt'⟩
  refine .cons_cons (hstep 2 1 ?_) (.cons_cons (hstep 1 3 ?_) (.singleton 3))
  · decide +kernel
  · decide +kernel

end AodvUU

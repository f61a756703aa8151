import AodvUU.InvariantRule

/-! # Packets received, and runs under a condition

What a packet brings is read off it by partial functions, so that a condition on a run can speak
of the messages in it. -/
namespace AodvUU

/-! ## Packets received -/

/-- The message of a control packet, with the channel it arrived on. -/
def Packet.received (p : Packet) : Option AodvMsg :=
  p.control.map (·.setChannel (BitVec.ofInt 8 p.channel))

def Packet.hello (p : Packet) : Option RREP :=
  match p.received with
  | some (.rrep rrep) =>
    if rrep.type = aodvRrep ∧ p.ttl = 1 ∧ p.daddr = aodvBroadcast then some rrep else none
  | _ => none

def Packet.reply (p : Packet) : Option RREP :=
  match p.received with
  | some (.rrep rrep) =>
    if rrep.type = aodvRrep ∧ p.ttl = 1 ∧ p.daddr = aodvBroadcast then none else some rrep
  | _ => none

def Packet.request (c : Ctx) (p : Packet) : Option RREQ :=
  match p.received with
  | some (.rreq rreq) => some rreq
  | some (.overlaid rreq uds) =>
    some { rreq.overlay c uds with
      exts := takeExts (p.len - rreqSize) (rreq.overlay c uds).exts }
  | _ => none

def Packet.error (p : Packet) : Option RERR :=
  match p.received with
  | some (.rerr rerr) => some rerr
  | _ => none

/-- What a received packet leads to, one hypothesis for each handler. A handler of a message
other than a Hello runs behind `neighbor_add`. -/
theorem recv_cases {c : Ctx} {I J : Node → Prop} {p : Packet} {n : Node} (recs : List RerrRecord)
    (hloop : J (n.handOut (.drop p .routeLoop))) (hstay : J n)
    (hdata : p.ptype ≠ .aodvuu → ¬ (p.saddr = n.ipaddr ∧ p.numForwards ≠ 0) → ∀ dir,
      J (processPacket c { p with direction := dir } n))
    (hhello : ∀ hello, p.hello = some hello → p.saddr ≠ n.ipaddr → J (helloProcess c hello n))
    (hadd : p.saddr ≠ n.ipaddr → ∀ m, p.received = some m → p.hello = none →
      I (c.ext.neighborAdd c.env m p.saddr n))
    (hreply : ∀ rrep, p.reply = some rrep → p.saddr ≠ n.ipaddr → ∀ n', I n' →
      J (rrepProcess c rrep p.len p.saddr p.ttl n'))
    (hrequest : ∀ rreq, p.request c = some rreq → p.saddr ≠ n.ipaddr → ∀ n', I n' →
      J (rreqProcess c rreq p.len p.saddr p.ttl n'))
    (herror : ∀ rerr, p.error = some rerr → p.saddr ≠ n.ipaddr → ∀ n', I n' →
      J (rerrProcess c rerr p.len p.saddr recs n').2)
    (hack : ∀ ack n', I n' → J (rrepAckProcess ack p.saddr n')) :
    J (recv c p (recs, n)).2 := by
  unfold recv
  split
  · exact hloop
  · next hnotLoop =>
    dsimp only
    generalize (if p.saddr = n.ipaddr then Direction.down else .up) = dir
    split
    · next hctl =>
      unfold recvAODVUUPacket
      dsimp only
      cases hm : p.msg with
      | none => exact hstay
      | some m =>
        dsimp only
        split
        · exact hstay
        · next hown =>
          have hrec : p.received = some (m.setChannel (BitVec.ofInt 8 p.channel)) := by
            unfold Packet.received Packet.control
            rw [if_pos hctl, hm]
            rfl
          have hn' := hadd hown _ hrec
          unfold Packet.hello at hn'
          rw [hrec] at hn'
          unfold aodvSocketProcessPacket
          generalize m.setChannel (BitVec.ofInt 8 p.channel) = m' at hrec hn' ⊢
          cases m' with
          | rrep rrep =>
            dsimp only
            split
            · next hhi =>
              exact hhello rrep (by unfold Packet.hello; rw [hrec]; exact if_pos hhi) hown
            · next hhi =>
              exact hreply rrep (by unfold Packet.reply; rw [hrec]; exact if_neg hhi) hown _
                (hn' (if_neg hhi))
          | rreq rreq => exact hrequest rreq (by unfold Packet.request; rw [hrec]) hown _ (hn' rfl)
          | overlaid rreq uds =>
            exact hrequest _ (by unfold Packet.request; rw [hrec]) hown _ (hn' rfl)
          | rerr rerr => exact herror rerr (by unfold Packet.error; rw [hrec]) hown _ (hn' rfl)
          | rrepAck ack => exact hack ack _ (hn' rfl)
    · next hctl => exact hdata hctl hnotLoop dir

/-! ## One event -/

/-- An invariant survives an event if it survives the handlers that are special to it: what a
packet leads to, a failed transmission, an expired route, and a discovery given up. -/
theorem Ctx.Keeps.step {c : Ctx} {I : Node → Prop} (h : c.Keeps I) {n : Node}
    (recs : List RerrRecord) (e : Event)
    (hrecv : ∀ p, e = .recv p → I (recv c p (recs, n)).2)
    (hfail : ∀ p, e = .packetFailed p → I (AodvUU.packetFailed c p n))
    (hexp : ∀ a, e = .rtTimer a → I (rtTimerTimeout c a n))
    (hgive : ∀ i s, e = .seekTimer i → n.seekhead[i]? = some s → rreqRetries ≤ s.reqs →
      ∀ n', I n' → n'.tbl = n.tbl → hasFlag (n'.rt s.destAddr).flags rtRepair →
        I (localRepairTimeout c s.destAddr n'))
    (hn : I n) : I (AodvUU.step c e (recs, n)).2 := by
  have htimer : I (AodvUU.timerStep c e n) :=
    h.timerStep e n hexp
      (fun i he => h.routeDiscoveryTimeout i (fun s hs hreqs => hgive i s he hs hreqs) hn) hn
  cases e with
  | start => exact h.routes n _ (startAODVUUAgent_routes n) hn
  | recv p => exact hrecv p rfl
  | packetFailed p => exact hfail p rfl
  | ifqueue q => exact h.routes n _ rfl hn
  | rerrRecordTimer r =>
    unfold AodvUU.step
    dsimp only
    split <;> exact hn
  | rtTimer | ackTimer | rtHelloTimer | seekTimer | rreqRecordTimer | blacklistTimer | helloTimer
  | packetQueueTimer | waitOnRebootTimer => exact htimer

/-! ## Runs under a condition -/

/-- The runs of one agent whose every step meets a condition on the state before it. -/
inductive ReachableIf (ok : Env → Node → Event → Prop) (cf : Conf) (ext : Extern) (a : InAddr) :
    Node → Prop
  | init (env : Env) : ReachableIf ok cf ext a (Node.init ⟨cf, ext, env⟩ a)
  | step {n : Node} (env : Env) (recs : List RerrRecord) (e : Event) (he : e.Legal n)
      (hok : ok env n e) :
      ReachableIf ok cf ext a n → ReachableIf ok cf ext a (step ⟨cf, ext, env⟩ e (recs, n)).2

theorem ReachableIf.reachable {ok : Env → Node → Event → Prop} {cf : Conf} {ext : Extern}
    {a : InAddr} {n : Node} (h : ReachableIf ok cf ext a n) : Reachable cf ext a n := by
  induction h with
  | init env => exact .init env
  | step env recs e he _ _ ih => exact .step env recs e he ih

theorem ReachableIf.invariant {ok : Env → Node → Event → Prop} {cf : Conf} {ext : Extern}
    {a : InAddr} {I : Node → Prop} {n : Node}
    (hinit : ∀ env : Env, I (Node.init ⟨cf, ext, env⟩ a))
    (hstep : ∀ (env : Env) recs e n, I n → ok env n e →
      I (AodvUU.step ⟨cf, ext, env⟩ e (recs, n)).2)
    (h : ReachableIf ok cf ext a n) : I n := by
  induction h with
  | init env => exact hinit env
  | step env recs e _ hok _ ih => exact hstep env recs e _ ih hok

end AodvUU

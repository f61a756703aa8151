import AodvUU.Timeout

/-! # The agent

The entry points of class `AODVUU`: data packets, control packets, failed transmissions and
timers, and the runs they make up. -/
namespace AodvUU

variable (c : Ctx)

/-! ## Data packets -/

/-- The RERR about a packet's destination, built in the send buffer. -/
def noRouteRerr (p : Packet) (fwd : Option RtTable) (n : Node) : Node :=
  match fwd with
  | some fwdRt =>
    aodvSocketNewMsg (.rerr (rerrCreate 0 fwdRt.destAddr fwdRt.destSeqno)) n
      |> rtTableUpdateTimeout c fwdRt.destAddr (msecs c.conf.deletePeriod)
  | none => aodvSocketNewMsg (.rerr (rerrCreate 0 p.daddr 0)) n

/-- Unicast to the source of the data where there is a route, else broadcast. -/
def rerrDest (rev : Option RtTable) : InAddr :=
  match rev with
  | some revRt => if revRt.state = .valid then revRt.nextHop else aodvBroadcast
  | none => aodvBroadcast

def worbReset (n : Node) : Node :=
  if n.waitOnReboot then
    { n with worbTimer := n.worbTimer.setTimeout c.now c.conf.deletePeriod } else n

/-- A forwarded packet without a route: the source is told. -/
def noRoute (p : Packet) (fwd rev : Option RtTable) (n : Node) : Node :=
  let n := noRouteRerr c p fwd n
  aodvSocketSend c (rerrDest rev) (rerrCalcSize n.sendBuf) 1 n
    |> worbReset c
    |>.handOut (.drop p .noRoute)

def seekRoute (p : Packet) (fwd : Option RtTable) (n : Node) : Node :=
  let n := packetQueueAdd c p p.daddr n
  let discover := rreqRouteDiscovery c p.daddr (if p.ptype = .tcp then rreqGratuitous else 0)
  match fwd with
  | some fwdRt =>
    if hasFlag fwdRt.flags rtRepair then rreqLocalRepair c fwdRt.destAddr n else discover n
  | none => discover n

def RtTable.unusable (rt : RtTable) : Bool :=
  rt.state = .invalid ∨ (rt.hcnt = 1 ∧ hasFlag rt.flags rtUnidir)

def forwardData (p : Packet) (fwdRt : RtTable) (n : Node) : Node :=
  let n := sendPacket c p fwdRt.nextHop 0 n
  helloKeepAlive c { n with fwdTime := c.now }

/-- The packet is accepted, forwarded, or its route is missing. -/
def routeUnicast (p : Packet) (fwd rev : Option InAddr) (n : Node) : Node :=
  if p.daddr = n.ipaddr then n.handOut (.deliver p)
  else
    match fwd with
    | some a =>
      let fwdRt := n.rt a
      if fwdRt.unusable then
        if ¬ hasFlag fwdRt.flags rtRepair ∧ p.direction = .up then
          noRoute c p (some fwdRt) (rev.map n.rt) n
        else seekRoute c p (some fwdRt) n
      else forwardData c p fwdRt n
    | none =>
      if p.direction = .up then noRoute c p none (rev.map n.rt) n else seekRoute c p none n

def processUnicast (p : Packet) (n : Node) : Node :=
  let rev := (rtTableFind n p.saddr).map (·.destAddr)
  let fwd := (rtTableFind n p.daddr).map (·.destAddr)
  rtTableUpdateRouteTimeouts c fwd rev n |> routeUnicast c p fwd rev

def processPacket (p : Packet) (n : Node) : Node :=
  if p.direction = .none then n.handOut (.drop p .plain)
  else if p.daddr = aodvBroadcast then
    if p.direction = .down then sendPacket c p p.daddr 0 n else n.handOut (.deliver p)
  else processUnicast c p n

/-! ## Control packets -/

abbrev Agent := List RerrRecord × Node

/-- The second component of an agent's state is its own, the first is shared. -/
def own (f : Node → Node) (s : Agent) : Agent := (s.1, f s.2)

def aodvSocketProcessPacket (m : AodvMsg) (len : ℕ) (src dst : InAddr) (ttl : Int)
    (s : Agent) : Agent :=
  let s' := own (c.ext.neighborAdd c.env m src) s
  match m with
  | .rrep rrep =>
    if rrep.type = aodvRrep ∧ ttl = 1 ∧ dst = aodvBroadcast then own (helloProcess c rrep) s
    else own (rrepProcess c rrep len src ttl) s'
  | .rreq rreq => own (rreqProcess c rreq len src ttl) s'
  | .overlaid rreq uds =>
    let rreq := rreq.overlay c uds
    own (rreqProcess c { rreq with exts := takeExts (len - rreqSize) rreq.exts } len src ttl) s'
  | .rerr rerr => rerrProcess c rerr len src s'.1 s'.2
  | .rrepAck ack => own (rrepAckProcess ack src) s'

def recvAODVUUPacket (p : Packet) (s : Agent) : Agent :=
  match p.msg with
  | none => s
  | some m =>
    if p.saddr = s.2.ipaddr then s
    else aodvSocketProcessPacket c (m.setChannel (BitVec.ofInt 8 p.channel)) p.len p.saddr
      p.daddr p.ttl s

def recv (p : Packet) (s : Agent) : Agent :=
  if p.saddr = s.2.ipaddr ∧ p.numForwards ≠ 0 then own (·.handOut (.drop p .routeLoop)) s
  else
    let p := { p with direction := if p.saddr = s.2.ipaddr then .down else .up }
    if p.ptype = .aodvuu then recvAODVUUPacket c p s else own (processPacket c p) s

/-! ## Failed transmissions -/

def dropFailed (p : Packet) (n : Node) : Node :=
  n.handOut (.drop p .macCallback) |> ifqDrop p.nextHop

def packetFailed (p : Packet) (n : Node) : Node :=
  if p.ptype = .aodvuu ∨ p.ptype = .other ∨ p.daddr = aodvBroadcast then
    n.handOut (.drop p .macCallback)
  else if (seekListFind n p.daddr).isSome then packetQueueAdd c p p.daddr n
  else
    match rtTableFind n p.nextHop, rtTableFind n p.daddr with
    | some rtNextHop, some rt =>
      if rtNextHop.state = .invalid ∨ rt.state = .invalid then dropFailed p n
      else if rt.nextHop ≠ p.nextHop then n.handOut (.drop p .macCallback)
      else if c.conf.localRepair ∧ rt.hcnt.toNat ≤ maxRepairTtl then
        packetQueueAdd c p p.daddr n
          |> ifqBuffer c p.nextHop
          |>.modRt rtNextHop.destAddr (fun rt => { rt with flags := rt.flags ||| rtRepair })
          |> c.ext.neighborLinkBreak c.env rtNextHop.destAddr
          |> rreqLocalRepair c rt.destAddr
      else c.ext.neighborLinkBreak c.env rtNextHop.destAddr n |> dropFailed p
    | _, _ => dropFailed p n

/-! ## Events -/

def startAODVUUAgent (n : Node) : Node :=
  let n := if n.waitOnReboot then
      { n with
        worbTimer :=
          Timer.setTimeout { handler := .waitOnRebootTimeout } c.now c.conf.deletePeriod }
    else n
  helloStart c n

inductive Event where
  | start
  | recv (p : Packet)
  | packetFailed (p : Packet)
  | rtTimer (a : InAddr)
  | ackTimer (a : InAddr)
  | rtHelloTimer (a : InAddr)
  | seekTimer (i : ℕ)
  | rreqRecordTimer (orig : InAddr) (id : BitVec 32)
  | blacklistTimer (a : InAddr)
  | rerrRecordTimer (r : RerrRecord)
  | helloTimer
  | packetQueueTimer
  | waitOnRebootTimer
  | ifqueue (q : Option (List Packet))

/-- The timers of this agent's own data. A timer that is not pending does nothing. -/
def timerStep (e : Event) (n : Node) : Node :=
  match e with
  | .rtTimer a => rtTimerTimeout c a n
  | .ackTimer a =>
    if (n.rt a).ackTimer.used then
      n.modRt a (fun rt => { rt with ackTimer := rt.ackTimer.remove }) |> rrepAckTimeout c a
    else n
  | .rtHelloTimer a =>
    if (n.rt a).helloTimer.used then
      n.modRt a (fun rt => { rt with helloTimer := rt.helloTimer.remove }) |> helloTimeout c a
    else n
  | .seekTimer i => routeDiscoveryTimeout c i n
  | .rreqRecordTimer orig id => rreqRecordTimeout orig id n
  | .blacklistTimer a => rreqBlacklistTimeout a n
  | .helloTimer => if n.helloTimer.used then helloSend c (helloStop n) else n
  | .packetQueueTimer => packetQueueTimeout c n
  | .waitOnRebootTimer => waitOnRebootTimeout n
  | _ => n

/-- One event at an agent. `ifqueue` stands for what the link layer does to its queue. -/
def step (e : Event) (s : Agent) : Agent :=
  match e with
  | .start => own (startAODVUUAgent c) s
  | .recv p => recv c p s
  | .packetFailed p => own (packetFailed c p) s
  | .ifqueue q => own (fun n => { n with ifqueue := q }) s
  | .rerrRecordTimer r =>
    if r ∈ s.1 ∧ r.agent = s.2.ipaddr then
      (rerrRecordTimeout r.origAddr r.rerrId r.lastAddr s.1, s.2) else s
  | e => own (timerStep c e) s

/-- The interface queue holds packets that the agent scheduled. -/
def Event.Legal (n : Node) : Event → Prop
  | .ifqueue q => ∀ p ∈ q.getD [], ∃ i d, Output.sched i p d ∈ n.out
  | _ => True

/-- The states of one agent over all its runs. What other agents do to the shared records
between two events is arbitrary. -/
inductive Reachable (cf : Conf) (ext : Extern) (a : InAddr) : Node → Prop where
  | init (env : Env) : Reachable cf ext a (Node.init ⟨cf, ext, env⟩ a)
  | step {n : Node} (env : Env) (recs : List RerrRecord) (e : Event) (he : e.Legal n) :
      Reachable cf ext a n → Reachable cf ext a (step ⟨cf, ext, env⟩ e (recs, n)).2

end AodvUU

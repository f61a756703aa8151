import Mathlib.Algebra.Order.Field.Rat
import AodvUU.Lib.HashTable

/-! # Data of a routing agent

`defs.h`, `params.h`, the message structs and the members of class `AODVUU`. Multi-byte
fields are in host order (the ns-2 port defines `ntohl` and `htonl` as the identity); a
`double` is an exact rational. The port runs one enabled device, number `NS_DEV_NR`. -/
namespace AodvUU

abbrev InAddr := BitVec 32

instance : LawfulBEq InAddr := inferInstance

/-- `struct timeval`, in microseconds. -/
abbrev Time := Int

def timevalDiff (t₁ t₂ : Time) : Int := (t₁ - t₂).tdiv 1000
def timevalAddMsec (t : Time) (msec : Int) : Time := t + msec * 1000

def hasFlag (flags bit : BitVec w) : Bool := flags &&& bit != 0

/-! ## Parameters -/

def allowedHelloLoss : Int := 2
def helloInterval : Int := 300
def localAddTtl : Int := 2
def netDiameter : Int := 35
def nodeTraversalTime : Int := 35
def netTraversalTime : Int := nodeTraversalTime * netDiameter
def maxRepairTtl : Int := 3 * netDiameter / 10
def nextHopWait : Int := nodeTraversalTime + 10
def pathDiscoveryTime : Int := 2 * netTraversalTime
def rerrTime : Int := 1 * netTraversalTime
def rreqRetries : Int := 2
def timeoutBuffer : Int := 2
def ttlIncrement : Int := 2
def ttlThreshold : Int := 7
def rreqRatelimit : ℕ := 10
def rerrRatelimit : ℕ := 10
def ringTraversalTime (ttl : Int) : Int := nodeTraversalTime * (ttl + timeoutBuffer)
def maxTtl : BitVec 8 := 255
def channelCount : ℕ := 3
def maxSequenceLen : ℕ := 10
def maxChannelNum : ℕ := 3
def routeTimeoutSlack : Int := 100
def helloDelay : Int := 50
def maxQueueLength : ℕ := 512
def maxQueueTime : Int := 10000
def garbageCollectTime : Int := 1000

def aodvBroadcast : InAddr := 0xFFFFFFFF

def aodvRreq : BitVec 8 := 1
def aodvRrep : BitVec 8 := 2
def aodvRerr : BitVec 8 := 3
def aodvRrepAck : BitVec 8 := 4
def aodvRreqLr : BitVec 8 := 5
def aodvRrepLr : BitVec 8 := 6
def aodvRerrLr : BitVec 8 := 7

def rreqJoin : BitVec 8 := 0x1
def rreqRepair : BitVec 8 := 0x2
def rreqGratuitous : BitVec 8 := 0x4
def rreqDestOnly : BitVec 8 := 0x8
def rreqLocalRepairFlag : BitVec 8 := 0x16
def rrepAckFlag : BitVec 8 := 0x1
def rrepRepair : BitVec 8 := 0x2
def rrepLocalRepair : BitVec 8 := 0x4
def rerrNodelete : BitVec 8 := 0x1
def rerrLocalRepair : BitVec 8 := 0x2

def rtUnidir : BitVec 16 := 0x1
def rtRepair : BitVec 16 := 0x2
def rtInetDest : BitVec 16 := 0x8

/-- The run-time settings that Tcl binds. -/
structure Conf where
  unidirHack : Bool := false
  rreqGratuitous : Bool := false
  expandingRingSearch : Bool := false
  localRepair : Bool := false
  receiveNHellos : Int := 0
  helloJittering : Bool := false
  optimizedHellos : Bool := false
  ratelimit : Bool := false
  llfeedback : Bool := false
  waitOnReboot : Bool := false
  nIfaces : ℕ := 3

def Conf.activeRouteTimeout (cf : Conf) : Int := if cf.llfeedback then 10000 else 3000
def Conf.ttlStart (cf : Conf) : Int := if cf.llfeedback then 1 else 2
def Conf.deletePeriod (cf : Conf) : Int :=
  if cf.llfeedback then 10000 else 5 * max 3000 (allowedHelloLoss * helloInterval)
def Conf.myRouteTimeout (cf : Conf) : Int := 2 * cf.activeRouteTimeout
def Conf.blacklistTimeout (cf : Conf) : Int :=
  rreqRetries * netTraversalTime + (ttlThreshold - cf.ttlStart).tdiv ttlIncrement + 1 + rreqRetries

/-! ## Timers -/

inductive Handler where
  | routeExpireTimeout
  | routeDeleteTimeout
  | localRepairTimeout
  | rrepAckTimeout
  | helloTimeout
  | routeDiscoveryTimeout
  | rreqRecordTimeout
  | rerrRecordTimeout
  | rreqBlacklistTimeout
  | helloSend
  | packetQueueTimeout
  | waitOnRebootTimeout
  deriving DecidableEq, Repr

structure Timer where
  used : Bool := false
  timeout : Time := 0
  handler : Handler
  deriving DecidableEq, Repr

/-- Re-arming a pending timer takes it off the queue first. -/
def Timer.setTimeout (t : Timer) (now : Time) (msec : Int) : Timer :=
  { t with used := true, timeout := timevalAddMsec now msec }

def Timer.remove (t : Timer) : Timer := { t with used := false }

/-! ## Messages -/

structure RreqUdest where
  destAddr : InAddr
  destSeqno : BitVec 32
  ifValid : BitVec 32
  deriving DecidableEq, Repr

/-- `RREP_udest` and `RERR_udest` -/
structure Udest where
  destAddr : InAddr
  destSeqno : BitVec 32
  deriving DecidableEq, Repr

/-- `AODV_ext` with its data. Cost extensions have type 1 in requests and in replies. -/
inductive Ext where
  | cost (c : ℚ)
  | rreqUdest (ud : RreqUdest)
  | rrepUdest (ud : Udest)
  | helloInterval (interval : BitVec 32)
  | helloNeighborSet (addrs : List InAddr)
  | other (type : BitVec 8) (length : ℕ)
  deriving DecidableEq

def aodvExtHdrSize : ℕ := 2

def Ext.size : Ext → ℕ
  | .cost _ => aodvExtHdrSize + 8
  | .rreqUdest _ => aodvExtHdrSize + 12
  | .rrepUdest _ => aodvExtHdrSize + 8
  | .helloInterval _ => aodvExtHdrSize + 4
  | .helloNeighborSet as => aodvExtHdrSize + 4 * as.length
  | .other _ len => aodvExtHdrSize + len

structure RREQ where
  channel : BitVec 8 := 0
  type : BitVec 8 := 0
  lr : Bool := false
  d : Bool := false
  g : Bool := false
  r : Bool := false
  j : Bool := false
  hcnt : BitVec 8 := 0
  rreqId : BitVec 32 := 0
  destAddr : InAddr := 0
  destSeqno : BitVec 32 := 0
  origAddr : InAddr := 0
  origSeqno : BitVec 32 := 0
  destCount : BitVec 32 := 0
  exts : List Ext := []

structure RREP where
  channel : BitVec 8 := 0
  type : BitVec 8 := 0
  res1 : BitVec 5 := 0
  lr : Bool := false
  a : Bool := false
  r : Bool := false
  pre : BitVec 5 := 0
  hcnt : BitVec 8 := 0
  destAddr : InAddr := 0
  destSeqno : BitVec 32 := 0
  origAddr : InAddr := 0
  lifetime : BitVec 32 := 0
  destCount : BitVec 32 := 0
  helloSent : BitVec 32 := 0
  exts : List Ext := []

/-- The fixed struct and, in `more`, the pairs stored behind it. -/
structure RERR where
  channel : BitVec 8 := 0
  type : BitVec 8 := 0
  lr : Bool := false
  n : Bool := false
  destCount : BitVec 8 := 0
  destAddr : InAddr := 0
  destSeqno : BitVec 32 := 0
  rerrId : BitVec 32 := 0
  rerrOriginAddr : InAddr := 0
  more : List Udest := []

structure RREPAck where
  channel : BitVec 8 := 0
  type : BitVec 8 := 0
  isHelloAck : BitVec 8 := 0
  helloIndex : BitVec 8 := 0
  channelHelloReceived : BitVec 8 := 0
  hostStability : BitVec 8 := 0

/-- The message type byte selects the struct. `overlaid` is what the send buffer holds when
`rerr_add_udest` writes on after a route discovery has put a RREQ there. -/
inductive AodvMsg where
  | rreq (m : RREQ)
  | rrep (m : RREP)
  | rerr (m : RERR)
  | rrepAck (m : RREPAck)
  | overlaid (m : RREQ) (uds : List Udest)

def AodvMsg.type : AodvMsg → BitVec 8
  | .rreq m => m.type
  | .rrep m => m.type
  | .rerr m => m.type
  | .rrepAck m => m.type
  | .overlaid m _ => m.type

def AodvMsg.setChannel (ch : BitVec 8) : AodvMsg → AodvMsg
  | .rreq m => .rreq { m with channel := ch }
  | .rrep m => .rrep { m with channel := ch }
  | .rerr m => .rerr { m with channel := ch }
  | .rrepAck m => .rrepAck { m with channel := ch }
  | .overlaid m uds => .overlaid { m with channel := ch } uds

def AodvMsg.rerrCount : AodvMsg → BitVec 8
  | .rreq m => m.hcnt
  | .rrep m => m.hcnt
  | .rerr m => m.destCount
  | .rrepAck m => m.channelHelloReceived
  | .overlaid m uds => m.hcnt + BitVec.ofNat 8 uds.length

def rreqSize : ℕ := 32
def rrepSize : ℕ := 32
def rerrSize : ℕ := 24
def rrepAckSize : ℕ := 7
def rerrUdestSize : ℕ := 8
def rreqCostSize : ℕ := rreqSize + 2 + 8
def rrepCostSize : ℕ := rrepSize + 2 + 8
def rreqExtOffset (m : RREQ) : ℕ := 2 * (m.destCount.toNat - 1) + (rreqSize + (m.destCount.toNat - 1) * 12)
def rrepExtOffset (m : RREP) : ℕ := 2 * (m.destCount.toNat - 1) + (rrepSize + (m.destCount.toNat - 1) * 8)
def rerrCalcSize (m : AodvMsg) : ℕ := rerrSize + m.rerrCount.toNat * rerrUdestSize - rerrUdestSize

/-- The extensions that lie in the first `room` bytes behind the fixed struct. -/
def takeExts (room : ℕ) : List Ext → List Ext
  | [] => []
  | e :: es => if e.size ≤ room then e :: takeExts (room - e.size) es else []

/-- What is left of a message of which `len` bytes are copied. -/
def AodvMsg.trunc (len : ℕ) : AodvMsg → AodvMsg
  | .rreq m => .rreq { m with exts := takeExts (len - rreqSize) m.exts }
  | .rrep m => .rrep { m with exts := takeExts (len - rrepSize) m.exts }
  | .rerr m => .rerr { m with more := m.more.take ((len - rerrSize) / rerrUdestSize) }
  | .rrepAck m => .rrepAck m
  | .overlaid m uds => .overlaid m uds

/-! ## Packets -/

inductive Direction where
  | up
  | down
  | none
  deriving DecidableEq, Repr

inductive PType where
  | aodvuu
  | tcp
  | data
  | other
  deriving DecidableEq, Repr

/-- The common and IP header fields that the agent reads, and the message of a control
packet. `len` is the IP payload length. -/
structure Packet where
  uid : ℕ := 0
  ptype : PType := .data
  saddr : InAddr
  daddr : InAddr
  ttl : Int
  direction : Direction := .none
  numForwards : ℕ := 0
  prevHop : InAddr := 0
  nextHop : InAddr := 0
  channel : Int := 0
  len : ℕ := 0
  msg : Option AodvMsg := none

inductive DropReason where
  | plain
  | noRoute
  | ttl
  | routeLoop
  | macCallback
  | qTimeout
  | qFull
  | endOfSimulation
  deriving DecidableEq, Repr

/-- What leaves the agent: a packet scheduled on a link layer, dropped, or handed to the
agent's target. -/
inductive Output where
  | sched (iface : Int) (p : Packet) (delay : ℚ)
  | drop (p : Packet) (reason : DropReason)
  | deliver (p : Packet)

/-! ## Tables and lists -/

inductive RtState where
  | invalid
  | valid
  deriving DecidableEq, Repr

structure RtTable where
  destAddr : InAddr := 0
  destSeqno : BitVec 32 := 0
  nextHop : InAddr := 0
  hcnt : BitVec 8 := 0
  flags : BitVec 16 := 0
  state : RtState := .invalid
  rtTimer : Timer := { handler := .routeExpireTimeout }
  ackTimer : Timer := { handler := .rrepAckTimeout }
  helloTimer : Timer := { handler := .helloTimeout }
  lastHelloTime : Time := 0
  helloCnt : BitVec 8 := 0
  hash : BitVec 32 := 0
  nprec : Int := 0
  precursors : List InAddr := []
  channel : Int := -1
  cost : ℚ := 100000
  deriving DecidableEq

instance : Inhabited RtTable := ⟨{}⟩

def rtTablesize : ℕ := 64
def rtTablemask : InAddr := 63

structure RreqRecord where
  origAddr : InAddr
  rreqId : BitVec 32
  recTimer : Timer
  cost : ℚ

/-- `rec_timer` waits in the timer queue of the agent that inserted the record. -/
structure RerrRecord where
  origAddr : InAddr
  rerrId : BitVec 32
  lastAddr : InAddr
  recTimer : Timer
  agent : InAddr
  deriving DecidableEq, Repr

structure Blacklist where
  destAddr : InAddr
  blTimer : Timer

structure SeekList where
  destAddr : InAddr
  destSeqno : BitVec 32
  flags : BitVec 8
  reqs : Int := 0
  ttl : Int
  seekTimer : Timer := { handler := .routeDiscoveryTimeout }

/-- `struct q_pkt` -/
structure QPkt where
  destAddr : InAddr
  qTime : Time
  p : Packet

inductive Verdict where
  | drop
  | send
  | encSend
  deriving DecidableEq, Repr

structure NeighborInfo where
  ipaddr : InAddr := 0
  neighborSta : Int := 0
  isValid : Int := 0
  channelHelloSelfReceived : ℕ → Int := fun _ => 0
  channelHelloRemoteSent : Int := 0
  channelHelloRemoteReceived : ℕ → Int := fun _ => 0
  channelHelloSequence : ℕ → ℕ → Int := fun _ _ => 0
  hostStabilitySequence : ℕ → Int := fun _ => 0
  channelCost : ℕ → ℚ := fun _ => 0

structure StaInfo where
  neighborNum : Int := 0
  neighborChange : Int := 0
  avaChannelNum : Int := 0
  bestChannelSNR : ℚ := 0
  isStable : Int := 0

/-- `rreq_ratel` with `num_rreq`, and `rerr_ratel` with `num_rerr`. -/
structure Ratel where
  stamp : ℕ → Time := fun _ => 0
  num : ℕ := 0

/-! ## The agent -/

/-- The members of class `AODVUU`: `this_host`, `rt_tbl`, the lists, the timers, the send
buffer. `ipaddr` is `DEV_NR(NS_DEV_NR).ipaddr`. `out` is the trace of what the agent handed
out, oldest first. Two ghosts record what a run has done: `seqnoWrapped` that `seqno_incr`
took `this_host.seqno` past the largest signed 32-bit number, `neighborRerouted` that an update
was called with more than one hop on a valid entry of one hop. -/
structure Node where
  ipaddr : InAddr
  seqno : BitVec 32 := 1
  bcastTime : Time := 0
  fwdTime : Time := 0
  rreqId : BitVec 32 := 0
  rerrId : BitVec 32 := 0
  neighbors : ℕ → NeighborInfo
  neighborNum : ℕ := 0
  stability : StaInfo := {}
  helloHead : ℕ := 0
  helloTail : ℕ := 0
  stabilitySequence : ℕ → Int := fun _ => 0
  numEntries : ℕ := 0
  numActive : BitVec 32 := 0
  tbl : HashTable.Buckets rtTablesize RtTable := fun _ => []
  rreqRecords : List RreqRecord := []
  rreqBlacklist : List Blacklist := []
  seekhead : List SeekList := []
  pq : List QPkt := []
  pqLen : ℕ := 0
  garbageCollectTimer : Timer := { handler := .packetQueueTimeout }
  ifqueue : Option (List Packet) := none
  channelNum : Int := 0
  helloTimer : Timer := { handler := .helloSend }
  waitOnReboot : Bool := false
  worbTimer : Timer := { handler := .waitOnRebootTimeout }
  rreqRatel : Ratel := {}
  rerrRatel : Ratel := {}
  sendBuf : AodvMsg
  out : List Output := []
  seqnoWrapped : Bool := false
  neighborRerouted : Bool := false

/-- Readings of one MAC layer. -/
structure MacObs where
  state : Int := 1
  snr : ℚ := 0

/-- What a handler reads from outside the agent while it runs: the clock, random draws, the
MAC layers, and the contents of locals that the source leaves uninitialised. -/
structure Env where
  now : Time
  uniform : ℚ := 0
  jitter : Int := 0
  mac : ℕ → MacObs := fun _ => {}
  uninitTtl : Int := 0
  uninitAddr : InAddr := 0
  uninitCost : ℚ := 0

/-- Code the agent links against that is not part of the repository, `aodv_neighbor.c` and
the C library's `log`; and the reading of an extension area over which RERR pairs were
written, the byte order of a `double` being left open. -/
structure Extern where
  neighborAdd : Env → AodvMsg → InAddr → Node → Node
  neighborLinkBreak : Env → InAddr → Node → Node
  log : ℚ → ℚ
  spill : List Udest → List Ext → List Ext

/-- Everything fixed while one event is handled. -/
structure Ctx where
  conf : Conf
  ext : Extern
  env : Env

def Ctx.now (c : Ctx) : Time := c.env.now

/-- The state the constructor of `AODVUU` leaves, once Tcl has set the address. -/
def Node.init (c : Ctx) (ipaddr : InAddr) : Node where
  ipaddr := ipaddr
  neighbors := fun i => { channelCost := fun _ => if i < maxSequenceLen then 1 / 2 else 0 }
  garbageCollectTimer :=
    Timer.setTimeout { handler := .packetQueueTimeout } c.now garbageCollectTime
  waitOnReboot := c.conf.waitOnReboot
  sendBuf := .rrepAck {}

/-! ## Sequence numbers -/

def seqnoIncr (s : BitVec 32) : BitVec 32 :=
  if s = 0 then 0 else if s = 0xFFFFFFFF then 1 else s + 1

def Node.seqnoIncr (n : Node) : Node :=
  { n with
    seqno := AodvUU.seqnoIncr n.seqno
    seqnoWrapped := n.seqnoWrapped || n.seqno == 0x7FFFFFFF || n.seqno == 0xFFFFFFFF }

def fresher (a b : BitVec 32) : Bool := b.slt a

def Node.seqnoRaise (n : Node) (s : BitVec 32) : Node :=
  if s = 0 then n
  else if n.seqno.slt s then { n with seqno := s }
  else if n.seqno = s then n.seqnoIncr
  else n

end AodvUU

import Mathlib.Algebra.Order.Floor.Ring
import Mathlib.Data.Rat.Floor
import AodvUU.ChannelSnr

/-! # The medium access of a channel

Class `Mac802_11` for an ad hoc network: a station senses the medium, backs off, and moves
unicast packets with RTS, CTS, DATA and ACK. Sizes are in bytes and times in seconds, as exact
rationals. A timer holds the time at which its handler runs. -/
namespace AodvUU

/-! ## Frames and state -/

/-- The states without those of management frames. -/
inductive MacState where
  | idle
  | recv
  | send
  | rts
  | cts
  | ack
  | coll
  deriving DecidableEq, Repr

/-- Type and subtype of a frame. -/
inductive FrameKind where
  | rts
  | cts
  | ack
  | data
  | noise
  deriving DecidableEq, Repr

def FrameKind.fcType : FrameKind → FcType
  | .rts | .cts | .ack => .control
  | .data => .data
  | .noise => .reserved

def macBroadcast : BitVec 32 := 0xFFFFFFFF

structure Frame where
  kind : FrameKind
  uid : ℕ := 0
  size : ℕ := 0
  iface : Int := -2
  error : Bool := false
  numForwards : ℕ := 0
  txtime : ℚ := 0
  rxPr : ℚ := 0
  cpThresh : ℚ := 10
  xmitFailure : Bool := false
  retry : Bool := false
  duration : BitVec 16 := 0
  ra : BitVec 32 := 0
  ta : BitVec 32 := 0
  scontrol : BitVec 16 := 0
  deriving DecidableEq, Repr

/-- What is bound at set-up. The lengths of control frames and of the header of a data frame
include the PLCP header. -/
structure MacConf where
  index : BitVec 32
  cwMin : ℕ
  cwMax : ℕ
  slotTime : ℚ
  sifs : ℚ
  plcpHdrLen : ℕ
  plcpDataRate : ℚ
  rtsLen : ℕ
  ctsLen : ℕ
  ackLen : ℕ
  noiseLen : ℕ
  hdrLen11 : ℕ
  rtsThreshold : ℕ
  shortRetryLimit : ℕ
  longRetryLimit : ℕ
  basicRate : ℚ
  dataRate : ℚ
  bugFixTimer : Bool
  cacheNodeCount : ℕ

inductive MacDrop where
  | collision
  | retryCountExceeded
  | busy
  | invalidState
  | duplicate
  | notForUs
  deriving DecidableEq, Repr

inductive XmitReason where
  | rts
  | ack
  deriving DecidableEq, Repr

/-- What passes the station. `air` goes down, `up` to the link layer, `failure` and `ready` are
callbacks. `accept` notes a packet from above, with its number, `freed` that its sending ends, and
`heard` a frame that begins to arrive. -/
inductive MacLog where
  | air (p : Frame)
  | up (p : Frame)
  | drop (p : Frame) (why : MacDrop)
  | failure (p : Frame) (reason : XmitReason)
  | ready
  | accept (p : Frame)
  | freed (p : Frame)
  | heard (p : Frame)
  deriving DecidableEq, Repr

/-- A backoff that is running ends after `ready`, the random number of slots later. -/
structure Backoff where
  paused : Bool
  ready : ℚ
  deriving DecidableEq, Repr

/-- What the environment decides during an event: a number drawn, and the packet that the
interface queue hands down when it is called back. -/
structure MacEnv where
  random : ℕ := 0
  next : Option Frame := none

structure Station where
  mac : Mac802_11 := {}
  nav : ℚ := 0
  txState : MacState := .idle
  rxState : MacState := .idle
  txActive : Bool := false
  pktRTS : Option Frame := none
  pktCTRL : Option Frame := none
  pktTx : Option Frame := none
  pktRx : Option Frame := none
  callback : Bool := false
  cw : ℕ
  ssrc : ℕ := 0
  slrc : ℕ := 0
  staSeqno : BitVec 16 := 1
  cache : BitVec 32 → BitVec 16 := fun _ => 0
  mhIF : Option ℚ := none
  mhNav : Option ℚ := none
  mhRecv : Option ℚ := none
  mhSend : Option ℚ := none
  mhDefer : Option ℚ := none
  mhBackoff : Option Backoff := none
  mhNoise : Option ℚ := none
  mhValid : Option ℚ := none
  noisePower : ℚ := 0
  noiseFlag : Bool := false
  log : List MacLog := []

/-! ## Times -/

def maxPropagationDelay : ℚ := 2 / 10 ^ 6

def noiseInterval : ℚ := 1 / 1000

def sec (us : BitVec 16) : ℚ := us.toNat / 10 ^ 6

def usec (t : ℚ) : BitVec 16 := BitVec.ofInt 16 ⌊t * 10 ^ 6 + 1 / 2⌋

namespace MacConf

variable (c : MacConf)

def difs : ℚ := c.sifs + 2 * c.slotTime

def eifs : ℚ := c.sifs + c.difs + 8 * c.ackLen / c.plcpDataRate

def txtime (psz : ℕ) (drt : ℚ) : ℚ :=
  (c.plcpHdrLen * 8 : ℕ) / c.plcpDataRate + ((psz : ℤ) - c.plcpHdrLen) * 8 / drt

def rtsTimeout : ℚ :=
  c.txtime c.rtsLen c.basicRate + maxPropagationDelay + c.sifs + c.txtime c.ctsLen c.basicRate +
    maxPropagationDelay

def ctsTimeout (p : Frame) : ℚ :=
  c.txtime c.ctsLen c.basicRate + maxPropagationDelay + sec p.duration + maxPropagationDelay -
    c.sifs - c.txtime c.ackLen c.basicRate

def dataTimeout (p : Frame) : ℚ :=
  if p.ra = macBroadcast then p.txtime
  else p.txtime + maxPropagationDelay + c.sifs + c.txtime c.ackLen c.basicRate +
    maxPropagationDelay

def thresh (p : Frame) : ℕ :=
  if p.size ≤ c.rtsThreshold then c.shortRetryLimit else c.longRetryLimit

/-- The packets that are sent without an RTS. -/
def Short (p : Frame) : Prop := p.size < c.rtsThreshold ∨ p.ra = macBroadcast

instance (p : Frame) : Decidable (c.Short p) := inferInstanceAs (Decidable (_ ∨ _))

/-! ## Frames that are built -/

def rtsFrame (dst : BitVec 32) (p : Frame) : Frame :=
  { kind := .rts
    size := c.rtsLen
    ra := dst
    ta := c.index
    txtime := c.txtime c.rtsLen c.basicRate
    duration := usec (c.sifs + c.txtime c.ctsLen c.basicRate + c.sifs + p.txtime + c.sifs +
      c.txtime c.ackLen c.basicRate) }

def ctsFrame (dst : BitVec 32) (rtsDuration : BitVec 16) : Frame :=
  { kind := .cts
    size := c.ctsLen
    ra := dst
    txtime := c.txtime c.ctsLen c.basicRate
    duration := usec (sec rtsDuration - c.sifs - c.txtime c.ctsLen c.basicRate) }

def ackFrame (dst : BitVec 32) : Frame :=
  { kind := .ack
    size := c.ackLen
    ra := dst
    txtime := c.txtime c.ackLen c.basicRate
    duration := 0 }

def noiseFrame : Frame :=
  { kind := .noise
    size := c.noiseLen
    ra := macBroadcast
    ta := c.index
    txtime := c.txtime c.noiseLen c.basicRate
    duration := usec (2 * c.sifs + 2 * c.txtime c.noiseLen c.basicRate) }

def dataFrame (p : Frame) : Frame :=
  { p with
    kind := .data
    size := p.size + c.hdrLen11
    retry := false
    txtime := c.txtime (p.size + c.hdrLen11)
      (if p.ra = macBroadcast then c.basicRate else c.dataRate)
    duration := if p.ra = macBroadcast then 0 else usec (c.txtime c.ackLen c.basicRate + c.sifs) }

end MacConf

namespace Station

variable (c : MacConf) (t : ℚ)

def note (o : MacLog) (s : Station) : Station := { s with log := s.log ++ [o] }

/-! ## Carrier sense -/

def isIdle (s : Station) : Bool := s.rxState = .idle ∧ s.txState = .idle ∧ s.nav ≤ t

def checkBackoffTimer (s : Station) : Station :=
  match s.mhBackoff with
  | none => s
  | some b =>
    if s.isIdle t then
      if b.paused then { s with mhBackoff := some { paused := false, ready := t + c.difs } } else s
    else if b.paused then s else { s with mhBackoff := some { b with paused := true } }

def setRxState (newState : MacState) (s : Station) : Station :=
  { s with rxState := newState }.checkBackoffTimer c t

def setTxState (newState : MacState) (s : Station) : Station :=
  { s with txState := newState }.checkBackoffTimer c t

def setNav (us : BitVec 16) (s : Station) : Station :=
  if s.nav < t + sec us then { s with nav := t + sec us, mhNav := some (t + sec us) } else s

def startDefer (delay : ℚ) (s : Station) : Option Station :=
  if s.mhDefer.isNone then some { s with mhDefer := some (t + delay) } else none

def startRecv (delay : ℚ) (s : Station) : Option Station :=
  if s.mhRecv.isNone then some { s with mhRecv := some (t + delay) } else none

def startBackoff (difs : ℚ) (s : Station) : Option Station :=
  if s.mhBackoff.isNone then
    some { s with mhBackoff := some { paused := !s.isIdle t, ready := t + difs } }
  else none

/-! ## Packets that end here -/

/-- A frame with errors is freed in silence, and so is one that is neither to us nor from us. -/
def discard (p : Frame) (why : MacDrop) (s : Station) : Station :=
  if p.error then s
  else
    match p.kind with
    | .noise => s
    | .rts => if p.ta = c.index ∨ p.ra = c.index then s.note (.drop p why) else s
    | .cts | .ack => if p.ra = c.index then s.note (.drop p why) else s
    | .data =>
      if p.ra = c.index ∨ p.ta = c.index ∨ p.ra = macBroadcast then s.note (.drop p why) else s

def capture (p : Frame) (s : Station) : Station := s.setNav t (usec (c.eifs + p.txtime))

/-- Of two frames that collide the one that lasts longer stays. -/
def collision (p : Frame) (s : Station) : Option Station :=
  if s.rxState = .recv ∨ s.rxState = .coll then
    let s := if s.rxState = .recv then s.setRxState c t .coll else s
    match s.pktRx, s.mhRecv with
    | some q, some e =>
      if e - t < p.txtime then
        let s := { s with mhRecv := none }.discard c q .collision
        { s with pktRx := some p }.startRecv t p.txtime
      else some (s.discard c p .collision)
    | _, _ => none
  else none

/-! ## Outgoing packets -/

def incCw (s : Station) : Station := { s with cw := min (2 * s.cw + 1) c.cwMax }

def rstCw (s : Station) : Station := { s with cw := c.cwMin }

/-- `none` is a failed assertion. -/
def sendRTS (dst : BitVec 32) (s : Station) : Option Station :=
  match s.pktTx, s.pktRTS with
  | some p, none =>
    if p.size < c.rtsThreshold ∨ dst = macBroadcast then some s
    else some { s with pktRTS := some (c.rtsFrame dst p) }
  | _, _ => none

def sendCTS (dst : BitVec 32) (rtsDuration : BitVec 16) (s : Station) : Option Station :=
  if s.pktCTRL.isSome then none
  else some { s with pktCTRL := some (c.ctsFrame dst rtsDuration) }

def sendACK (dst : BitVec 32) (s : Station) : Option Station :=
  if s.pktCTRL.isSome then none
  else some { s with pktCTRL := some (c.ackFrame dst) }

def sendDATA (p : Frame) (s : Station) : Option Station :=
  if s.pktTx.isSome then none else some { s with pktTx := some (c.dataFrame p) }

/-! ## Transmitting -/

/-- The frame goes on the air, and one that is being received is lost. -/
def transmit (p : Frame) (timeout : ℚ) (s : Station) : Option Station :=
  if s.rxState ≠ .idle ∧ s.pktRx.isNone ∨ s.mhSend.isSome ∨ s.mhIF.isSome then none
  else some (note (.air p) { s with
    txActive := true
    pktRx := if s.rxState = .idle then s.pktRx else s.pktRx.map fun q => { q with error := true }
    mhSend := some (t + timeout)
    mhIF := some (t + p.txtime) })

/-- The result is `false` for a return value of `-1`: there was nothing to do. -/
def checkPktCTRL (s : Station) : Option (Bool × Station) :=
  match s.pktCTRL with
  | none => some (false, s)
  | some p =>
    if s.txState = .cts ∨ s.txState = .ack then some (false, s)
    else
      match p.kind with
      | .cts =>
        if s.isIdle t then
          ((s.setTxState c t .cts).transmit t p (c.ctsTimeout p)).map (true, ·)
        else some (true, { s.discard c p .busy with pktCTRL := none })
      | .ack =>
        ((s.setTxState c t .ack).transmit t p (c.txtime c.ackLen c.basicRate)).map (true, ·)
      | _ => none

def checkPktRTS (s : Station) : Option (Bool × Station) :=
  if s.mhBackoff.isSome then none
  else
    match s.pktRTS with
    | none => some (false, s)
    | some p =>
      if p.kind ≠ .rts then none
      else if s.isIdle t then
        ((s.setTxState c t .rts).transmit t p c.rtsTimeout).map (true, ·)
      else ((s.incCw c).startBackoff t 0).map (true, ·)

def checkPktTx (s : Station) : Option (Bool × Station) :=
  if s.mhBackoff.isSome then none
  else
    match s.pktTx with
    | none => some (false, s)
    | some p =>
      if p.kind ≠ .data then none
      else if s.isIdle t then
        ((s.setTxState c t .send).transmit t p (c.dataTimeout p)).map (true, ·)
      else
        ((s.sendRTS c p.ra).bind fun s => (s.incCw c).startBackoff t 0).map (true, ·)

/-! ## A packet from above -/

/-- The wait before the first attempt, with `random` the number drawn. -/
def contend (random : ℕ) (s : Station) : Option Station :=
  if c.bugFixTimer then s.startBackoff t c.difs
  else s.startDefer t (c.difs + (random % s.cw : ℕ) * c.slotTime)

/-- A packet waits for the medium, unless a timer is running for it already. -/
def await (random : ℕ) (s : Station) : Option Station :=
  if s.mhBackoff.isSome then some s
  else if s.isIdle t then
    if s.mhDefer.isSome then some s else s.contend c t random
  else s.startBackoff t 0

/-- The data packet is assigned a sequence number. -/
def number (p : Frame) (s : Station) : Station :=
  note (.accept { c.dataFrame p with scontrol := s.staSeqno }) { s with
    pktTx := some { c.dataFrame p with scontrol := s.staSeqno }
    staSeqno := s.staSeqno + 1 }

def send (random : ℕ) (p : Frame) (s : Station) : Option Station := do
  let s ← { s with callback := true }.sendDATA c p
  let s ← s.sendRTS c p.ra
  (s.number c p).await c t random

variable (e : MacEnv)

/-- What there is to do next: a reply, the RTS, the packet, or to ask for one. -/
def resumeNext (s : Station) : Option Station :=
  if s.pktCTRL.isSome then s.startDefer t c.sifs
  else if s.pktRTS.isSome then
    if s.mhBackoff.isSome then some s else s.contend c t e.random
  else
    match s.pktTx with
    | some p =>
      if s.mhBackoff.isSome then some s
      else if c.Short p then s.contend c t e.random
      else s.startDefer t c.sifs
    | none =>
      if s.callback then
        match e.next with
        | none => some ({ s with callback := false }.note .ready)
        | some p => ({ s with callback := false }.note .ready).send c t e.random p
      else some s

def txResume (s : Station) : Option Station :=
  if s.mhSend.isSome ∨ s.mhDefer.isSome then none
  else (s.resumeNext c t e).map (setTxState c t .idle)

def rxResume (s : Station) : Option Station :=
  if s.pktRx.isSome ∨ s.mhRecv.isSome then none else some (s.setRxState c t .idle)

/-! ## Retransmission -/

/-- The packet given back to the link layer has no MAC header. -/
def giveUp (p : Frame) (reason : XmitReason) (s : Station) : Station :=
  if p.xmitFailure then
    let q := { p with size := p.size - c.hdrLen11 }
    note (.freed p) { (s.note (.failure q reason)).discard c q .retryCountExceeded with
      pktTx := none }
  else note (.freed p) { s.discard c p .retryCountExceeded with pktTx := none }

def retransmitRTS (s : Station) : Option Station :=
  match s.pktTx, s.pktRTS, s.mhBackoff with
  | some p, some r, none =>
    if c.shortRetryLimit ≤ s.ssrc + 1 then
      let s := { s.discard c r .retryCountExceeded with pktRTS := none }
      some ({ s.giveUp c p .rts with ssrc := 0 }.rstCw c)
    else
      ({ s with ssrc := s.ssrc + 1, pktRTS := some { r with retry := true } }.incCw c).startBackoff
        t 0
  | _, _, _ => none

/-- The count of failures that a packet of this size is held to. -/
def rcount (p : Frame) (s : Station) : ℕ := if p.size ≤ c.rtsThreshold then s.ssrc else s.slrc

def setRcount (p : Frame) (k : ℕ) (s : Station) : Station :=
  if p.size ≤ c.rtsThreshold then { s with ssrc := k } else { s with slrc := k }

def retransmitDATA (s : Station) : Option Station :=
  match s.mhBackoff, s.pktTx, s.pktRTS with
  | none, some p, none =>
    if p.ra = macBroadcast then
      ((note (.freed p) { s with pktTx := none }).rstCw c).startBackoff t 0
    else if c.thresh p ≤ s.rcount c p + 1 then
      some (((s.giveUp c p .ack).setRcount c p 0).rstCw c)
    else do
      let s := s.setRcount c p (s.rcount c p + 1)
      let s ← { s with pktTx := some { p with retry := true } }.sendRTS c p.ra
      (s.incCw c).startBackoff t 0
  | _, _, _ => none

/-! ## Frames received -/

def stopSend (s : Station) : Option Station :=
  if s.mhSend.isSome then some { s with mhSend := none } else none

def recvRTS (p : Frame) (s : Station) : Option Station :=
  if s.txState ≠ .idle ∨ s.pktCTRL.isSome then some (s.discard c p .busy)
  else do
    let s ← s.sendCTS c p.ta p.duration
    { s with mhDefer := none }.txResume c t e

def recvCTS (p : Frame) (s : Station) : Option Station :=
  if s.txState ≠ .rts then some (s.discard c p .invalidState)
  else if s.pktRTS.isNone ∨ s.pktTx.isNone then none
  else do
    let s ← s.stopSend
    { s with pktRTS := none, ssrc := 0 }.txResume c t e

def recvACK (p : Frame) (s : Station) : Option Station :=
  if s.txState ≠ .send then some (s.discard c p .invalidState)
  else
    match s.pktTx with
    | none => none
    | some q => do
      let s ← s.stopSend
      let s := note (.freed q) { s.setRcount c q 0 with pktTx := none }
      let s ← (s.rstCw c).startBackoff t 0
      s.txResume c t e

/-- The cache holds the number of the last packet from each node. -/
def deliver (p : Frame) (s : Station) : Station :=
  if p.ra = macBroadcast then s.note (.up p)
  else if p.ta.toNat < c.cacheNodeCount then
    if s.cache p.ta ≠ 0 ∧ s.cache p.ta = p.scontrol then s.discard c p .duplicate
    else { s with cache := Function.update s.cache p.ta p.scontrol }.note (.up p)
  else s.note (.up p)

def ackAfterCts (dst : BitVec 32) (s : Station) : Option Station :=
  if s.pktCTRL.isNone then none
  else do
    let s ← s.stopSend
    let s ← { s with pktCTRL := none }.sendACK c dst
    s.txResume c t e

def ackShort (dst : BitVec 32) (s : Station) : Option Station := do
  let s ← s.sendACK c dst
  if s.mhSend.isSome then some s else s.txResume c t e

/-- The size that is compared is the one on the air. -/
def recvDATA (p : Frame) (s : Station) : Option Station :=
  let q := { p with size := p.size - c.hdrLen11, numForwards := p.numForwards + 1 }
  if p.ra = macBroadcast then some (s.deliver c q)
  else if c.rtsThreshold ≤ p.size then
    if s.txState = .cts then (s.ackAfterCts c t e p.ta).map (deliver c q)
    else some (s.discard c q .busy)
  else if s.pktCTRL.isSome then some (s.discard c q .busy)
  else (s.ackShort c t e p.ta).map (deliver c q)

def recvNoise (p : Frame) (s : Station) : Station :=
  { s with noisePower := p.rxPr, noiseFlag := true, mhValid := some (t + 2) }

/-! ## Timer handlers -/

def received (p : Frame) (s : Station) : Option Station :=
  let s := if p.ra = c.index then s else s.setNav t p.duration
  if p.ra ≠ c.index ∧ p.ra ≠ macBroadcast then some (s.discard c p .notForUs)
  else
    match p.kind with
    | .rts => s.recvRTS c t e p
    | .cts => s.recvCTS c t e p
    | .ack => s.recvACK c t e p
    | .data => s.recvDATA c t e p
    | .noise => some (s.recvNoise t p)

/-- A frame is lost on a station that is transmitting, in a collision and by errors. -/
def arrived (p : Frame) (s : Station) : Option Station :=
  if s.txActive then some s
  else if s.rxState = .coll then some ((s.discard c p .collision).setNav t (usec c.eifs))
  else if p.error then some (s.setNav t (usec c.eifs))
  else s.received c t e p

def recvTimer (s : Station) : Option Station :=
  match s.pktRx with
  | none => none
  | some p =>
    if s.rxState = .recv ∨ s.rxState = .coll then
      (s.arrived c t e p).bind fun s => { s with pktRx := none }.rxResume c t
    else none

/-- What the end of a transmission, or of the wait for an answer, means. -/
def sendEnded (s : Station) : Option Station :=
  match s.txState with
  | .rts => s.retransmitRTS c t
  | .cts | .ack => if s.pktCTRL.isSome then some { s with pktCTRL := none } else none
  | .send => s.retransmitDATA c t
  | .idle => some s
  | .recv | .coll => none

def sendTimer (s : Station) : Option Station := (s.sendEnded c t).bind (txResume c t e)

def checkBoth (s : Station) : Option Station :=
  (s.checkPktRTS c t).bind fun (done, s) =>
    if done then some s else (s.checkPktTx c t).map Prod.snd

def backoffHandler (s : Station) : Option Station :=
  if s.pktCTRL.isSome then if s.mhSend.isSome ∨ s.mhDefer.isSome then some s else none
  else s.checkBoth c t

def deferHandler (s : Station) : Option Station :=
  if s.pktCTRL.isNone ∧ s.pktRTS.isNone ∧ s.pktTx.isNone then none
  else
    (s.checkPktCTRL c t).bind fun (done, s) =>
      if done then some s
      else if s.mhBackoff.isSome then none
      else s.checkBoth c t

def navHandler (s : Station) : Station :=
  match s.mhBackoff with
  | some b =>
    if s.isIdle t ∧ b.paused then
      { s with mhBackoff := some { paused := false, ready := t + c.difs } }
    else s
  | none => s

def txHandler (s : Station) : Station := { s with txActive := false }

/-- A source of noise does not look at the medium. -/
def noiseHandler (s : Station) : Station :=
  note (.air c.noiseFrame) { s with txActive := true, mhNoise := some (t + noiseInterval) }

def validHandler (s : Station) : Station := { s with noisePower := 0, noiseFlag := false }

/-! ## The first bit of a frame -/

/-- A frame that begins during another is overpowered by it or collides with it. -/
def recvFrame (p : Frame) (s : Station) : Option Station :=
  let s := s.note (.heard p)
  let p := { p with error := p.error || s.txActive }
  if s.rxState = .idle then
    { s.setRxState c t .recv with pktRx := some p }.startRecv t p.txtime
  else
    match s.pktRx with
    | none => none
    | some q =>
      if p.cpThresh ≤ q.rxPr / p.rxPr then some (s.capture c t p) else s.collision c t p

/-- `Mac802_11::recv`: a negative mode frees every packet. -/
def recv (dir : Direction) (p : Frame) (s : Station) : Option Station :=
  let p := { p with iface := c.index.toInt }
  let f : MacFrame := { direction := dir, fcType := p.kind.fcType, rxPr := p.rxPr }
  let s := { s with mac := s.mac.recv f }
  if s.mac.workMode < 0 then some s
  else if dir = .down then s.send c t e.random p
  else s.recvFrame c t p

end Station

/-! ## Events -/

/-- A packet from above, the first bit of a frame, or a timer that runs out. -/
inductive MacEvent where
  | send (p : Frame)
  | recv (p : Frame)
  | recvTimer
  | sendTimer
  | deferTimer
  | backoffTimer
  | navTimer
  | txTimer
  | noiseTimer
  | validTimer

/-- A timer is no longer busy when its handler runs. `none` is a failed assertion. -/
def Station.step (c : MacConf) (t : ℚ) (e : MacEnv) (s : Station) : MacEvent → Option Station
  | .send p => s.recv c t e .down p
  | .recv p => s.recv c t e .up p
  | .recvTimer => { s with mhRecv := none }.recvTimer c t e
  | .sendTimer => { s with mhSend := none }.sendTimer c t e
  | .deferTimer => { s with mhDefer := none }.deferHandler c t
  | .backoffTimer => { s with mhBackoff := none }.backoffHandler c t
  | .navTimer => some ({ s with mhNav := none }.navHandler c t)
  | .txTimer => some { s with mhIF := none }.txHandler
  | .noiseTimer => some (s.noiseHandler c t)
  | .validTimer => some { s with mhValid := none }.validHandler

/-! ## Runs -/

/-- A source of noise, in a negative mode, starts its timer when the mode is set. -/
def Station.init (c : MacConf) (workMode noiseChannel channelNum : Int) : Station :=
  { cw := c.cwMin
    mac := { workMode }
    mhNoise :=
      if workMode < 0 ∧ (noiseChannel = channelNum ∨ noiseChannel = -1) then some noiseInterval
      else none }

/-- The interface queue hands down a packet only after it was called back, and a handler runs when
the time of its timer has come. -/
def Station.Due (t : ℚ) (s : Station) : MacEvent → Prop
  | .send _ => s.callback = false
  | .recv _ => True
  | .recvTimer => s.mhRecv = some t
  | .sendTimer => s.mhSend = some t
  | .deferTimer => s.mhDefer = some t
  | .backoffTimer => ∃ b, s.mhBackoff = some b ∧ b.paused = false ∧ b.ready ≤ t
  | .navTimer => s.mhNav = some t
  | .txTimer => s.mhIF = some t
  | .noiseTimer => s.mhNoise = some t
  | .validTimer => s.mhValid = some t

structure Station.InTime (t : ℚ) (s : Station) : Prop where
  mhIF : ∀ x, s.mhIF = some x → t ≤ x
  mhNav : ∀ x, s.mhNav = some x → t ≤ x
  mhRecv : ∀ x, s.mhRecv = some x → t ≤ x
  mhSend : ∀ x, s.mhSend = some x → t ≤ x
  mhDefer : ∀ x, s.mhDefer = some x → t ≤ x
  mhNoise : ∀ x, s.mhNoise = some x → t ≤ x
  mhValid : ∀ x, s.mhValid = some x → t ≤ x

/-- The states after any events of a kind, in any order that the timers allow. -/
inductive MacReachable (c : MacConf) (ok : ℚ → Station → MacEvent → Prop) : ℚ → Station → Prop
  | init (workMode noiseChannel channelNum : Int) :
      MacReachable c ok 0 (Station.init c workMode noiseChannel channelNum)
  | step {t t' : ℚ} {s s' : Station} {e : MacEnv} {ev : MacEvent} (ht : t ≤ t')
      (htime : s.InTime t') (hdue : s.Due t' ev) (hok : ok t' s ev)
      (hstep : s.step c t' e ev = some s') :
      MacReachable c ok t s → MacReachable c ok t' s'

instance Station.decidableDue (t : ℚ) (s : Station) : (ev : MacEvent) → Decidable (s.Due t ev)
  | .send _ => inferInstanceAs (Decidable (s.callback = false))
  | .recv _ => .isTrue trivial
  | .recvTimer => inferInstanceAs (Decidable (s.mhRecv = some t))
  | .sendTimer => inferInstanceAs (Decidable (s.mhSend = some t))
  | .deferTimer => inferInstanceAs (Decidable (s.mhDefer = some t))
  | .backoffTimer => decidable_of_iff (∃ b ∈ s.mhBackoff, b.paused = false ∧ b.ready ≤ t) .rfl
  | .navTimer => inferInstanceAs (Decidable (s.mhNav = some t))
  | .txTimer => inferInstanceAs (Decidable (s.mhIF = some t))
  | .noiseTimer => inferInstanceAs (Decidable (s.mhNoise = some t))
  | .validTimer => inferInstanceAs (Decidable (s.mhValid = some t))

instance Station.decidableInTime (t : ℚ) (s : Station) : Decidable (s.InTime t) :=
  decidable_of_iff ((∀ x ∈ s.mhIF, t ≤ x) ∧ (∀ x ∈ s.mhNav, t ≤ x) ∧ (∀ x ∈ s.mhRecv, t ≤ x) ∧
    (∀ x ∈ s.mhSend, t ≤ x) ∧ (∀ x ∈ s.mhDefer, t ≤ x) ∧ (∀ x ∈ s.mhNoise, t ≤ x) ∧
    ∀ x ∈ s.mhValid, t ≤ x)
    ⟨fun ⟨hI, hN, hR, hS, hD, hNo, hV⟩ => ⟨hI, hN, hR, hS, hD, hNo, hV⟩,
      fun ⟨hI, hN, hR, hS, hD, hNo, hV⟩ => ⟨hI, hN, hR, hS, hD, hNo, hV⟩⟩

/-- A schedule of events, as far as it is one of a run. -/
def Station.run (c : MacConf) (ok : ℚ → Station → MacEvent → Prop)
    [∀ t s ev, Decidable (ok t s ev)] : ℚ → Station → List (ℚ × MacEvent) → Option (ℚ × Station)
  | t, s, [] => some (t, s)
  | t, s, (t', ev) :: evs =>
    if t ≤ t' ∧ s.InTime t' ∧ s.Due t' ev ∧ ok t' s ev then
      (s.step c t' {} ev).bind fun s => Station.run c ok t' s evs
    else none

theorem MacReachable.run {c : MacConf} {ok : ℚ → Station → MacEvent → Prop}
    [∀ t s ev, Decidable (ok t s ev)] {evs : List (ℚ × MacEvent)} {t : ℚ} {s : Station}
    {r : ℚ × Station} (h : MacReachable c ok t s) (hr : s.run c ok t evs = some r) :
    MacReachable c ok r.1 r.2 := by
  induction evs generalizing t s with
  | nil =>
    obtain rfl := Option.some.inj hr
    exact h
  | cons x evs ih =>
    obtain ⟨t', ev⟩ := x
    unfold Station.run at hr
    split at hr
    · next hgo =>
      obtain ⟨s', hs', hrest⟩ := Option.bind_eq_some_iff.mp hr
      exact ih (.step hgo.1 hgo.2.1 hgo.2.2.1 hgo.2.2.2 hs' h) hrest
    · cases hr

/-- A station at 1 Mb/s, with RTS for packets from 1000 bytes on. -/
def sampleMac (index : BitVec 32) : MacConf :=
  { index
    cwMin := 31
    cwMax := 1023
    slotTime := 20 / 10 ^ 6
    sifs := 10 / 10 ^ 6
    plcpHdrLen := 24
    plcpDataRate := 10 ^ 6
    rtsLen := 44
    ctsLen := 38
    ackLen := 38
    noiseLen := 44
    hdrLen11 := 52
    rtsThreshold := 1000
    shortRetryLimit := 7
    longRetryLimit := 4
    basicRate := 10 ^ 6
    dataRate := 10 ^ 6
    bugFixTimer := true
    cacheNodeCount := 10 }

end AodvUU

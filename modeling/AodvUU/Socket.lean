import AodvUU.Defs

/-! # Sending

`sendPacket` of `aodv-uu.cc` and the send side of `aodv_socket.c`. Every message is built in
the one send buffer of the agent, and `aodv_socket_send` transmits what the buffer holds. -/
namespace AodvUU

variable (c : Ctx)

def Node.handOut (o : Output) (n : Node) : Node := { n with out := n.out ++ [o] }

def setChannelNum (ch : Int) (n : Node) : Node := { n with channelNum := ch }

/-- Broadcasts go out on every interface, unicasts on interface `channelNum`. -/
def schedule (p : Packet) (nextHop : InAddr) (delay : ℚ) (n : Node) : Node :=
  if p.daddr = aodvBroadcast then
    let p := { p with nextHop := 0, prevHop := n.ipaddr }
    (List.range c.conf.nIfaces).foldl
      (fun n i => n.handOut (.sched i { p with channel := i } (c.env.uniform / 50))) n
  else
    let p := { p with nextHop := nextHop, prevHop := n.ipaddr, channel := n.channelNum }
    n.handOut (.sched n.channelNum p delay)

def sendPacket (p : Packet) (nextHop : InAddr) (delay : ℚ) (n : Node) : Node :=
  if p.direction = .up ∧ p.saddr ≠ n.ipaddr then
    -- forwarding
    if p.ttl - 1 < 1 then n.handOut (.drop { p with ttl := p.ttl - 1 } .ttl)
    else schedule c { p with ttl := p.ttl - 1, direction := .down } nextHop delay n
  else if p.direction = .down ∧ p.saddr = n.ipaddr then
    schedule c p nextHop delay n
  else n.handOut (.drop p .plain)

def aodvSocketNewMsg (m : AodvMsg) (n : Node) : Node := { n with sendBuf := m }

/-- `aodv_socket_queue_msg` copies `size` bytes of a message into the send buffer. -/
def aodvSocketQueueMsg (m : AodvMsg) (size : ℕ) (n : Node) : Node :=
  { n with sendBuf := m.trunc size }

/-- One of the two sliding windows of `aodv_socket_send`; `none` means the packet is dropped. -/
def Ratel.slide (limit : ℕ) (now : Time) (r : Ratel) : Option Ratel :=
  if r.num = limit - 1 then
    if timevalDiff now (r.stamp 0) < 1000 then none
    else some { r with
      stamp := fun i => if i < r.num - 1 then r.stamp (i + 1)
        else if i = r.num - 1 then now else r.stamp i }
  else some { stamp := Function.update r.stamp r.num now, num := r.num + 1 }

def rateLimit (n : Node) : Option Node :=
  if c.conf.ratelimit then
    if n.sendBuf.type = aodvRreq then
      (n.rreqRatel.slide rreqRatelimit c.now).map fun r => { n with rreqRatel := r }
    else if n.sendBuf.type = aodvRerr then
      (n.rerrRatel.slide rerrRatelimit c.now).map fun r => { n with rerrRatel := r }
    else some n
  else some n

/-- The packet `aodv_socket_send` wraps around the first `len` bytes of the send buffer. -/
def controlPacket (dst : InAddr) (len : ℕ) (ttl : BitVec 8) (n : Node) : Packet where
  ptype := .aodvuu
  saddr := n.ipaddr
  daddr := dst
  ttl := ttl.toNat
  direction := .down
  prevHop := n.ipaddr
  len := len
  msg := some (n.sendBuf.trunc len)

def aodvSocketSend (dst : InAddr) (len : ℕ) (ttl : BitVec 8) (n : Node) : Node :=
  if n.waitOnReboot ∧ n.sendBuf.type = aodvRrep then n
  else
    match rateLimit c n with
    | none => n
    | some n' =>
      let n'' := if dst = aodvBroadcast then { n' with bcastTime := c.now } else n'
      sendPacket c (controlPacket dst len ttl n) dst 0 n''

end AodvUU

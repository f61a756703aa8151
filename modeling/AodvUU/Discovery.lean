import AodvUU.Hello

/-! # Route requests: sending

The originating and forwarding part of `aodv_rreq.c`, the request records and the
blacklist. -/
namespace AodvUU

variable (c : Ctx)

/-! ## Request records -/

def rreqRecordFind (n : Node) (orig : InAddr) (id : BitVec 32) : Option RreqRecord :=
  n.rreqRecords.find? (fun r => r.origAddr = orig ∧ r.rreqId = id)

def rreqRecordFindLessCost (n : Node) (orig : InAddr) (id : BitVec 32) (cost : ℚ) :
    Option RreqRecord :=
  n.rreqRecords.find? (fun r => r.origAddr = orig ∧ r.rreqId = id ∧ r.cost < cost)

def rreqRecordInsertWithCost (orig : InAddr) (id : BitVec 32) (cost : ℚ) (n : Node) : Node :=
  match rreqRecordFind n orig id with
  | some _ => n
  | none =>
    let recTimer := Timer.setTimeout { handler := .rreqRecordTimeout } c.now pathDiscoveryTime
    { n with rreqRecords := ⟨orig, id, recTimer, cost⟩ :: n.rreqRecords }

/-- `rreq_record_insert` leaves the cost of a new record as `malloc` returned it. -/
def rreqRecordInsert (orig : InAddr) (id : BitVec 32) (n : Node) : Node :=
  rreqRecordInsertWithCost c orig id c.env.uninitCost n

def rreqBlacklistFind (n : Node) (a : InAddr) : Option Blacklist :=
  n.rreqBlacklist.find? (·.destAddr = a)

def rreqBlacklistInsert (a : InAddr) (n : Node) : Node :=
  match rreqBlacklistFind n a with
  | some _ => n
  | none =>
    let blTimer :=
      Timer.setTimeout { handler := .rreqBlacklistTimeout } c.now c.conf.blacklistTimeout
    { n with rreqBlacklist := ⟨a, blTimer⟩ :: n.rreqBlacklist }

/-! ## Sending and forwarding -/

def rreqSendWithChannel (destAddr : InAddr) (destSeqno : BitVec 32) (ttl : Int)
    (flags : BitVec 8) (channel : ℕ) (n : Node) : Node :=
  let flags := if c.conf.rreqGratuitous then flags ||| rreqGratuitous else flags
  setChannelNum channel n
    |> rreqCreateWithCost flags destAddr destSeqno n.ipaddr 0
    |> aodvSocketSend c aodvBroadcast rreqCostSize (BitVec.ofInt 8 ttl)

/-- One copy for each channel, as in the loops over `Channel_Count`. -/
def onEachChannel (f : ℕ → Node → Node) (n : Node) : Node :=
  (List.range channelCount).foldl (fun n i => f i n) n

def rreqForwardWithChannel (rreq : RREQ) (size : ℕ) (ttl : Int) (channel : ℕ) (n : Node) : Node :=
  aodvSocketQueueMsg (.rreq { rreq with hcnt := rreq.hcnt + 1 }) size n
    |> setChannelNum channel
    |> aodvSocketSend c aodvBroadcast size (BitVec.ofInt 8 ttl)

/-- An entry that waits for a reply is kept for two net traversal times. -/
def keepWaiting (a : InAddr) (n : Node) : Node :=
  if timevalDiff (n.rt a).rtTimer.timeout c.now < 2 * netTraversalTime then
    rtTableUpdateTimeout c a (msecs (2 * netTraversalTime)) n
  else n

/-- Whatever TTL the ring search computes, the request goes out with 32. -/
def rreqRouteDiscovery (destAddr : InAddr) (flags : BitVec 8) (n : Node) : Node :=
  match seekListFind n destAddr with
  | some _ => n
  | none =>
    let rt := rtTableFind n destAddr
    let destSeqno := (rt.map (·.destSeqno)).getD 0
    let n := match rt with
      | none => n
      | some rt => keepWaiting c rt.destAddr n
    let ttl : Int := 32
    let n := onEachChannel (rreqSendWithChannel c destAddr destSeqno ttl flags) n
    let wait := if c.conf.expandingRingSearch then ringTraversalTime ttl else netTraversalTime
    n.seqnoIncr |> seekListInsert
      { destAddr, destSeqno, flags, ttl
        seekTimer := Timer.setTimeout { handler := .routeDiscoveryTimeout } c.now wait }

/-! ## Local repair -/

/-- A write to the request that lies in the send buffer. -/
def Node.modRreq (f : RREQ → RREQ) (n : Node) : Node :=
  match n.sendBuf with
  | .rreq m => { n with sendBuf := .rreq (f m) }
  | _ => n

def Node.bufRreq (n : Node) : RREQ :=
  match n.sendBuf with
  | .rreq m => m
  | _ => {}

def markRepair (a : InAddr) (n : Node) : Node :=
  n.modRt a (fun rt =>
      { rt with
        flags := rt.flags ||| rtRepair
        rtTimer := { rt.rtTimer with handler := .routeExpireTimeout } })
    |> keepWaiting c a

/-- The other entries that the lost next hop served, in table order. -/
def sharingNextHop (rt : RtTable) (n : Node) : List RtTable :=
  n.entries.filter (fun u => u.nextHop = rt.nextHop ∧ u.destAddr ≠ rt.destAddr)

/-- The number of the lost next hop becomes the number asked for; any other destination is
listed behind the request. -/
def repairUdest (nextHop : InAddr) (u : RtTable) (n : Node) : Node :=
  markRepair c u.destAddr n |>.modRreq fun m =>
    if u.destAddr = nextHop then { m with destSeqno := u.destSeqno }
    else rreqAddUdest m u.destAddr u.destSeqno

/-- The search is for the lost next hop. -/
def rreqLocalRepair (a : InAddr) (n : Node) : Node :=
  let rt := n.rt a
  if hasFlag rt.flags rtRepair then
    let flags := rreqLocalRepairFlag ||| rreqDestOnly
    let n := rreqCreate flags rt.nextHop 0 n.ipaddr n
    let n := if rt.nextHop ≠ rt.destAddr then
      n.modRreq (rreqAddUdest · rt.destAddr rt.destSeqno) else n
    let n := markRepair c a n
    let others := sharingNextHop rt n
    let n := others.foldl (fun n u => repairUdest c rt.nextHop u n) n
    let maxTtl : ℕ := others.foldl (fun t u => max t u.hcnt.toNat) rt.hcnt.toNat
    let n := aodvSocketSend c aodvBroadcast (rreqExtOffset n.bufRreq)
      (BitVec.ofNat 8 (maxTtl + 1)) n
    let wait := if c.conf.expandingRingSearch then 2 * c.env.uninitTtl * nodeTraversalTime
      else netTraversalTime
    n |> seekListInsert
      { destAddr := rt.nextHop, destSeqno := n.bufRreq.destSeqno, flags
        ttl := maxTtl + localAddTtl
        seekTimer := Timer.setTimeout { handler := .routeDiscoveryTimeout } c.now wait }
  else n

end AodvUU

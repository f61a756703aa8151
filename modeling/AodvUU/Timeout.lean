import AodvUU.Rerr

/-! # Timeouts

`aodv_timeout.c` and the interface queue. An expired timer is off the queue when its handler
runs. -/
namespace AodvUU

variable (c : Ctx)

/-! ## Interface queue -/

/-- `IFQ_BUFFER`: the packets for a next hop move to the packet queue. -/
def ifqBuffer (a : InAddr) (n : Node) : Node :=
  ((n.ifqueue.getD []).filter (·.nextHop = a)).foldl (fun n p => packetQueueAdd c p p.daddr n)
    { n with ifqueue := n.ifqueue.map (·.filter (·.nextHop ≠ a)) }

def ifqDrop (a : InAddr) (n : Node) : Node :=
  ((n.ifqueue.getD []).filter (·.nextHop = a)).foldl (fun n p => n.handOut (.drop p .noRoute))
    { n with ifqueue := n.ifqueue.map (·.filter (·.nextHop ≠ a)) }

/-! ## Routes -/

def localRepairTimeout (a : InAddr) (n : Node) : Node :=
  let n := n.modRt a fun rt => { rt with flags := rt.flags &&& ~~~rtRepair }
  let rt := n.rt a
  let n := if rt.nprec = 0 then n else
    let rerr := rerrCreate 0 rt.destAddr rt.destSeqno
    let dest := if rt.nprec = 1 then rt.precursors.headD 0 else aodvBroadcast
    aodvSocketNewMsg (.rerr rerr) n |> aodvSocketSend c dest (rerrCalcSize (.rerr rerr)) 1
  precursorListDestroy a n |>.modRt a fun rt =>
    { rt with rtTimer :=
        { (rt.rtTimer.setTimeout c.now c.conf.deletePeriod) with handler := .routeDeleteTimeout } }

def routeExpireTimeout (a : InAddr) (n : Node) : Node :=
  if (n.rt a).hcnt = 1 then c.ext.neighborLinkBreak c.env a n
  else rtTableInvalidate c a n |> precursorListDestroy a

def routeDeleteTimeout (a : InAddr) (n : Node) : Node := rtTableDelete a n

def helloTimeout (a : InAddr) (n : Node) : Node :=
  let rt := n.rt a
  if rt.state = .valid ∧ ¬ hasFlag rt.flags rtUnidir then
    let n := if c.conf.localRepair ∧ rt.hcnt.toNat ≤ maxRepairTtl then
        n.modRt a (fun rt => { rt with flags := rt.flags ||| rtRepair }) |> ifqBuffer c a
      else n
    c.ext.neighborLinkBreak c.env a n
  else n

def rrepAckTimeout (a : InAddr) (n : Node) : Node := rreqBlacklistInsert c a n

/-- The entry's own timer runs the handler stored in it. -/
def rtTimerTimeout (a : InAddr) (n : Node) : Node :=
  let t := (n.rt a).rtTimer
  if t.used then
    let n := n.modRt a fun rt => { rt with rtTimer := rt.rtTimer.remove }
    match t.handler with
    | .routeExpireTimeout => routeExpireTimeout c a n
    | .routeDeleteTimeout => routeDeleteTimeout a n
    | .localRepairTimeout => localRepairTimeout c a n
    | _ => n
  else n

/-! ## Discovery -/

def SeekList.retry (s : SeekList) : SeekList :=
  if c.conf.expandingRingSearch then
    let s := if s.ttl < ttlThreshold then { s with ttl := s.ttl + ttlIncrement }
      else { s with ttl := netDiameter, reqs := s.reqs + 1 }
    { s with seekTimer := s.seekTimer.setTimeout c.now (ringTraversalTime s.ttl) }
  else
    { s with
      reqs := s.reqs + 1
      seekTimer := s.seekTimer.setTimeout c.now ((s.reqs + 1) * 2 * netTraversalTime) }

def routeDiscoveryRetry (i : ℕ) (s : SeekList) (n : Node) : Node :=
  let s := s.retry c
  let n := { n with seekhead := n.seekhead.set i s }
  let n := match rtTableFind n s.destAddr with
    | none => n
    | some rt => keepWaiting c rt.destAddr n
  onEachChannel (rreqSendWithChannel c s.destAddr s.destSeqno s.ttl s.flags) n

def noRouteFound (i : ℕ) (s : SeekList) (n : Node) : Node :=
  let n := packetQueueSetVerdict c s.destAddr .drop n
  let n := { n with seekhead := n.seekhead.eraseIdx i }
  match rtTableFind n s.destAddr with
  | none => n
  | some repairRt =>
    if hasFlag repairRt.flags rtRepair then localRepairTimeout c repairRt.destAddr n else n

def routeDiscoveryTimeout (i : ℕ) (n : Node) : Node :=
  match n.seekhead[i]? with
  | none => n
  | some s => if s.reqs < rreqRetries then routeDiscoveryRetry c i s n else noRouteFound c i s n

/-! ## Other timers -/

def rreqRecordTimeout (orig : InAddr) (id : BitVec 32) (n : Node) : Node :=
  { n with rreqRecords := n.rreqRecords.eraseP (fun r => r.origAddr = orig ∧ r.rreqId = id) }

def rreqBlacklistTimeout (a : InAddr) (n : Node) : Node :=
  { n with rreqBlacklist := n.rreqBlacklist.eraseP (·.destAddr = a) }

def rerrRecordTimeout (orig : InAddr) (id : BitVec 32) (last : InAddr)
    (recs : List RerrRecord) : List RerrRecord :=
  recs.eraseP (fun r => r.origAddr = orig ∧ r.rerrId = id ∧ r.lastAddr = last)

def waitOnRebootTimeout (n : Node) : Node := { n with waitOnReboot := false }

def packetQueueTimeout (n : Node) : Node :=
  let n := packetQueueGarbageCollect c n
  { n with garbageCollectTimer := n.garbageCollectTimer.setTimeout c.now garbageCollectTime }

end AodvUU

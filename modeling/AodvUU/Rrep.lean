import AodvUU.Discovery

/-! # Route replies

`aodv_rrep.c`. `rrep_send` transmits the reply that `rrep_create` left in the send buffer. -/
namespace AodvUU

variable (c : Ctx)

/-! ## Sending -/

/-- `rrep_flags` asks for an acknowledgement here but never reaches the message. -/
def suspectUnidir (rev : InAddr) (n : Node) : Node :=
  let revRt := n.rt rev
  if (revRt.state = .valid ∧ hasFlag revRt.flags rtUnidir) ∨
      (revRt.hcnt = 1 ∧ c.conf.unidirHack) then
    match rtTableFind n revRt.nextHop with
    | none => n
    | some neighbor =>
      if neighbor.state = .valid ∧ ¬ neighbor.ackTimer.used then
        n.modRt neighbor.destAddr (fun rt =>
            { rt with flags := rt.flags ||| rtUnidir, helloTimer := rt.helloTimer.remove })
          |> c.ext.neighborLinkBreak c.env neighbor.destAddr
          |>.modRt neighbor.destAddr fun rt =>
            { rt with ackTimer := rt.ackTimer.setTimeout c.now nextHopWait }
      else n
  else n

def addPrecursors (fwd rev : InAddr) (n : Node) : Node :=
  let n := precursorAdd fwd (n.rt rev).nextHop n
  precursorAdd rev (n.rt fwd).nextHop n

/-- Both send functions; `rrep_send` leaves `channelNum` as it is. -/
def rrepSendGen (channel : Option Int) (rev : InAddr) (fwd : Option InAddr) (size : ℕ)
    (n : Node) : Node :=
  let n := suspectUnidir c rev n
  let n := setChannelNum (channel.getD n.channelNum) n
  let n := aodvSocketSend c (n.rt rev).nextHop size maxTtl n
  let n := match fwd with
    | none => n
    | some fwd => addPrecursors fwd rev n
  helloKeepAlive c n

def rrepSendWithChannel (rev : InAddr) (fwd : Option InAddr) (size : ℕ) (channel : Int)
    (n : Node) : Node := rrepSendGen c (some channel) rev fwd size n

def rrepSend (rev : InAddr) (fwd : Option InAddr) (size : ℕ) (n : Node) : Node :=
  rrepSendGen c none rev fwd size n

def rrepForward (rrep : RREP) (size : ℕ) (rev fwd : InAddr) (ttl : Int) (n : Node) : Node :=
  aodvSocketQueueMsg (.rrep rrep) size n
    |> (fun n => match n.sendBuf with
      | .rrep m => { n with sendBuf := .rrep { m with hcnt := (n.rt fwd).hcnt } }
      | _ => n)
    |> aodvSocketSend c (n.rt rev).nextHop size (BitVec.ofInt 8 ttl)
    |> addPrecursors fwd rev
    |> rtTableUpdateTimeout c rev (msecs c.conf.activeRouteTimeout)

/-- The acknowledgement a reply with the A flag asks for. -/
def rrepAcknowledge (rrep : RREP) (n : Node) : Node :=
  if rrep.a then
    let n := aodvSocketNewMsg (.rrepAck rrepAckCreate) n
    aodvSocketSend c (n.rt rrep.destAddr).nextHop nextHopWait.toNat maxTtl n
  else n

/-! ## Costs carried by a message -/

def Ext.addCost (g : ℚ) : Ext → Ext
  | .cost v => .cost (v + g)
  | e => e

def lastCost (init : ℚ) : List Ext → ℚ
  | [] => init
  | .cost v :: es => lastCost v es
  | _ :: es => lastCost init es

def maxNum : ℚ := 10 ^ 18

/-! ## Replies to a local repair -/

/-- The pair of calls that a forwarder makes for every destination of the reply. A new entry
is updated once more, with `flags & !RT_REPAIR`, which is 0. -/
def rrepLrRoute (rrep : RREP) (ipSrc dest : InAddr) (n : Node) : Node :=
  match rtTableFind n dest with
  | none =>
    rtTableInsert c dest ipSrc (rrep.hcnt + 1) rrep.destSeqno rrep.lifetime .valid 0 n
      |> rtTableUpdate c dest ipSrc (rrep.hcnt + 1) rrep.destSeqno rrep.lifetime .valid 0
  | some fwdRt =>
    rtTableUpdate c dest ipSrc (rrep.hcnt + 1) rrep.destSeqno rrep.lifetime .valid fwdRt.flags n

/-- The freshness test on `rrep_seqno` is commented out in the source. -/
def rrepLrUdests (rrep : RREP) (ipSrc : InAddr) (n : Node) : Node :=
  rrep.exts.foldl (fun n e => match e with
    | .rrepUdest ud => rrepLrRoute c rrep ipSrc ud.destAddr n
    | _ => n) n

/-- `rev` is what the lookup of `rrep_orig` found before the forward route was made. -/
def rrepLrRelay (rrep : RREP) (rreplen : ℕ) (rev : Option InAddr) (ipTtl : Int) (n : Node) :
    Node :=
  match rev with
  | none => n
  | some rev =>
    if (n.rt rev).state = .valid then
      rrepForward c { rrep with a := false } rreplen rev rrep.destAddr (ipTtl - 1) n
    else n

def rrepLrForwarder (rrep : RREP) (rreplen : ℕ) (ipSrc : InAddr) (ipTtl : Int) (n : Node) :
    Node :=
  let n := rrepLrUdests c rrep ipSrc n
  let rev := (rtTableFind n rrep.origAddr).map (·.destAddr)
  rrepLrRoute c rrep ipSrc rrep.destAddr n
    |> rrepAcknowledge c rrep
    |> rrepLrRelay c rrep rreplen rev ipTtl

/-- The RERR of the repairing node lies in the send buffer once `made`. -/
structure LrRerr where
  made : Bool := false
  unicastDest : InAddr
  node : Node

/-- The two updates the repairing node chooses between; `none` where the entry is passed
over. -/
def lrRepaired (rrep : RREP) (ipSrc a : InAddr) (n : Node) : Option Node :=
  let rtU := n.rt a
  if hasFlag rtU.flags rtRepair then
    if rtU.destAddr = rrep.destAddr then
      some (rtTableUpdate c a ipSrc (rrep.hcnt + 1) rrep.destSeqno rrep.lifetime .valid 0 n)
    else if rtU.nextHop = rrep.destAddr then
      some (rtTableUpdate c a ipSrc (rrep.hcnt + rtU.hcnt) rtU.destSeqno rrep.lifetime .valid 0 n)
    else none
  else none

def lrRerrAdd (a : InAddr) (s : LrRerr) : LrRerr :=
  let rtU := s.node.rt a
  if rtU.nprec = 0 then s
  else if s.made then
    { s with
      unicastDest := if s.unicastDest ≠ 0 ∧ rtU.precursors.any (· ≠ s.unicastDest) then 0
        else s.unicastDest
      node := s.node.addRerrUdest rtU.destAddr rtU.destSeqno }
  else
    let rerr := { rerrCreate (rerrNodelete ||| rerrLocalRepair) rtU.destAddr rtU.destSeqno with
      rerrId := s.node.rerrId
      rerrOriginAddr := s.node.ipaddr }
    { made := true
      unicastDest := if rtU.nprec = 1 then rtU.precursors.headD 0 else s.unicastDest
      node := aodvSocketNewMsg (.rerr rerr) { s.node with rerrId := s.node.rerrId + 1 } }

def lrRepairEntry (rrep : RREP) (ipSrc : InAddr) (s : LrRerr) (a : InAddr) : LrRerr :=
  match lrRepaired c rrep ipSrc a s.node with
  | none => s
  | some n => lrRerrAdd a { s with node := n }

def lrRerrSend (s : LrRerr) : Node :=
  if s.made then sendRerr c s.unicastDest s.node else s.node

/-- The repairing node walks its table. No call in the walk adds or removes an entry, so the
destinations found at its start are the ones visited. -/
def rrepLrOrigin (rrep : RREP) (ipSrc : InAddr) (n : Node) : Node :=
  lrRerrSend c ((n.entries.map (·.destAddr)).foldl (lrRepairEntry c rrep ipSrc)
    { unicastDest := c.env.uninitAddr, node := n })

def rrepProcessLr (rrep : RREP) (rreplen : ℕ) (ipSrc : InAddr) (ipTtl : Int) (n : Node) : Node :=
  if rreplen < rrepSize then n
  else if rrep.destAddr = n.ipaddr then n
  else if rrep.origAddr = n.ipaddr then rrepLrOrigin c rrep ipSrc n |> helloKeepAlive c
  else rrepLrForwarder c rrep rreplen ipSrc ipTtl n |> helloKeepAlive c

/-! ## Plain replies -/

/-- The reply has arrived. A NO DELETE RERR goes out about a route that came out of repair
longer than it was; `pre` is the entry before the reply. -/
def rrepArrived (rrep : RREP) (pre : Option RtTable) (n : Node) : Node :=
  let preHcnt := (pre.map (·.hcnt)).getD 0
  let preFlags := (pre.map (·.flags)).getD 0
  let fwdRt := n.rt rrep.destAddr
  if hasFlag preFlags rtRepair ∧ preHcnt.toNat < fwdRt.hcnt.toNat then
    let rerr := rerrCreate rerrNodelete fwdRt.destAddr fwdRt.destSeqno
    let n := aodvSocketNewMsg (.rerr rerr) n
    if fwdRt.nprec ≠ 0 then aodvSocketSend c aodvBroadcast (rerrCalcSize (.rerr rerr)) 1 n else n
  else n

def rrepRelay (rrep : RREP) (rev : Option InAddr) (ipTtl : Int) (n : Node) : Node :=
  match rev with
  | none => n
  | some rev =>
    if (n.rt rev).state = .valid then
      setChannelNum (n.rt rev).channel n
        |> rrepForward c { rrep with a := false } rrepCostSize rev rrep.destAddr (ipTtl - 1)
    else n

/-- The forward route; `none` where the reply is dropped. -/
def rrepRoute (rrep : RREP) (ipSrc : InAddr) (cost : ℚ) (n : Node) : Option Node :=
  match rtTableFind n rrep.destAddr with
  | none =>
    some (rtTableInsertWithChannel c rrep.destAddr ipSrc (rrep.hcnt + 1) rrep.destSeqno
      rrep.lifetime .valid 0 rrep.channel.toNat cost n)
  | some fwdRt =>
    if fwdRt.destSeqno = 0 ∨ fresher rrep.destSeqno fwdRt.destSeqno ∨
        (rrep.destSeqno = fwdRt.destSeqno ∧
          (fwdRt.state = .invalid ∨ hasFlag fwdRt.flags rtUnidir ∨ cost < fwdRt.cost)) then
      some (rtTableUpdateWithChannel c rrep.destAddr ipSrc (rrep.hcnt + 1) rrep.destSeqno
        rrep.lifetime .valid fwdRt.flags rrep.channel.toNat cost n)
    else none

/-- The part behind the extension loop, which has added the link cost to the message. -/
def rrepHandle (rrep : RREP) (ipSrc : InAddr) (ipTtl : Int) (n : Node) : Node :=
  let fwd := rtTableFind n rrep.destAddr
  let rev := (rtTableFind n rrep.origAddr).map (·.destAddr)
  match rrepRoute c rrep ipSrc (lastCost (c.ext.log maxNum) rrep.exts) n with
  | none => n
  | some n =>
    let n := rrepAcknowledge c rrep n
    helloKeepAlive c
      (if rrep.origAddr = n.ipaddr then rrepArrived c rrep fwd n
      else rrepRelay c rrep rev ipTtl n)

def rrepProcess (rrep : RREP) (rreplen : ℕ) (ipSrc : InAddr) (ipTtl : Int) (n : Node) : Node :=
  if rrep.lr then rrepProcessLr c rrep rreplen ipSrc ipTtl n
  else if rreplen < rrepSize then n
  else if rrep.destAddr = n.ipaddr then n
  else
    rrepHandle c { rrep with
      exts := rrep.exts.map (Ext.addCost (getCost c n ipSrc rrep.channel)) } ipSrc ipTtl n

/-! ## Acknowledgements -/

/-- A Hello acknowledgement fills the slots of the neighbour's record; the slot behind the
last record when there is none. -/
def helloAckProcess (ack : RREPAck) (ipSrc : InAddr) (n : Node) : Node :=
  let ch := ack.channel.toNat
  let slot := ack.helloIndex.toNat % maxSequenceLen
  n.modNeighbor ((findNeighbor n ipSrc).getD n.neighborNum) fun nb =>
    let nb := if n.helloHead ≤ ack.helloIndex.toNat then
        { nb with
          hostStabilitySequence :=
            Function.update nb.hostStabilitySequence slot ack.hostStability.toNat
          channelHelloSequence := Function.update nb.channelHelloSequence ch
            (Function.update (nb.channelHelloSequence ch) slot 1) }
      else nb
    { nb with
      channelHelloRemoteReceived := Function.update nb.channelHelloRemoteReceived ch
        ack.channelHelloReceived.toNat }

def rrepAckProcess (ack : RREPAck) (ipSrc : InAddr) (n : Node) : Node :=
  if ack.isHelloAck ≠ 0 then helloAckProcess ack ipSrc n
  else
    match rtTableFind n ipSrc with
    | none => n
    | some rt => n.modRt rt.destAddr fun rt => { rt with ackTimer := rt.ackTimer.remove }

end AodvUU

import AodvUU.Messages

/-! # Hello messages

`aodv_hello.c` and `getCost`. -/
namespace AodvUU

variable (c : Ctx)

/-! ## Neighbour records -/

def findNeighbor (n : Node) (a : InAddr) : Option ℕ :=
  (List.range n.neighborNum).find? (fun j => (n.neighbors j).ipaddr = a)

def Node.modNeighbor (j : ℕ) (f : NeighborInfo → NeighborInfo) (n : Node) : Node :=
  { n with neighbors := Function.update n.neighbors j (f (n.neighbors j)) }

def getCost (n : Node) (src : InAddr) (channel : BitVec 8) : ℚ :=
  match findNeighbor n src with
  | some j =>
    min 100000 (-(c.ext.log (max (1 / 1000000) ((n.neighbors j).channelCost channel.toNat))))
  | none => 100000

/-- Destinations with a pending Hello timer, in table order. -/
def heard (n : Node) : List InAddr :=
  (n.entries.filter (·.helloTimer.used)).map (·.destAddr)

def svmResult (s : StaInfo) : ℚ :=
  s.neighborNum * (76960165 / 100000000) + s.neighborChange * (-39568155 / 100000000) +
    s.avaChannelNum * (198846181 / 100000000) + s.bestChannelSNR * (402854831 / 100000000) +
    (-1308570038 / 100000000)

def updateStaInfo (n : Node) : Node :=
  let current := (heard n).foldl (fun as a => if a ∈ as then as else as ++ [a]) []
  let known := List.range n.neighborNum
  let appeared := current.countP fun a =>
    ¬ known.any fun j => (n.neighbors j).ipaddr = a ∧ (n.neighbors j).isValid = 1
  let gone := known.countP fun j =>
    (n.neighbors j).isValid ≠ 0 ∧ (n.neighbors j).ipaddr ∉ heard n
  let ava := (List.range 3).countP fun i => (c.env.mac i).state = 1
  let best := (List.range 3).foldl (fun b i => if (c.env.mac i).snr > b then (c.env.mac i).snr else b) 0
  let s : StaInfo :=
    { neighborNum := current.length
      neighborChange := (appeared + gone : ℕ)
      avaChannelNum := ava
      bestChannelSNR := if best > 3 then 3 else best }
  { n with stability := { s with
      isStable := if svmResult s < 0 ∨ s.neighborNum = 0 ∨ s.avaChannelNum = 0 then 0 else 1 } }

def updateNeighborInfo (n : Node) : Node :=
  let n := (heard n).foldl (fun n a =>
    match findNeighbor n a with
    | some j => n.modNeighbor j fun nb => { nb with isValid := 1 }
    | none =>
      { n.modNeighbor n.neighborNum
          (fun nb => { nb with ipaddr := a, neighborSta := 0, isValid := 1 }) with
        neighborNum := n.neighborNum + 1 }) n
  (List.range n.neighborNum).foldl (fun n j =>
    if (n.neighbors j).isValid ≠ 0 ∧ (n.neighbors j).ipaddr ∉ heard n then
      n.modNeighbor j fun nb => { nb with isValid := 0 }
    else n) n

/-! ## Channel costs -/

def windowFull (n : Node) : Bool :=
  n.helloHead % maxSequenceLen = (n.helloTail + 1) % maxSequenceLen

def deliverRate (n : Node) (nb : NeighborInfo) (channel : ℕ) : ℚ :=
  let positiveRate : ℚ := if n.helloTail > 0 then nb.channelHelloRemoteReceived channel / n.helloTail else 0
  let negativeRate : ℚ := if nb.channelHelloRemoteSent > 0 then
    nb.channelHelloSelfReceived channel / nb.channelHelloRemoteSent else 0
  if positiveRate * negativeRate > 1 then 1 else positiveRate * negativeRate

/-- The ARMA model over the last three acknowledgement slots. -/
def predictConnectTime (n : Node) (nb : NeighborInfo) (channel : ℕ) : ℚ :=
  let series := nb.channelHelloSequence channel
  886773 / 1000000 + 39934 / 1000000 * series (n.helloTail % maxSequenceLen) +
    706171 / 1000000 * series ((n.helloTail - 1) % maxSequenceLen) +
    80530 / 1000000 * series ((n.helloTail - 2) % maxSequenceLen)

/-- Here the slots are indexed by the Hello number itself, not modulo the window. -/
def stableCount (n : Node) (nb : NeighborInfo) : ℕ :=
  ((List.range n.helloTail).filter (fun k => n.helloHead ≤ k)).countP
    fun k => n.stabilitySequence k ≠ 0 ∧ nb.hostStabilitySequence k ≠ 0

def channelCost (n : Node) (nb : NeighborInfo) (channel : ℕ) : ℚ :=
  if windowFull n then
    33 / 100 * deliverRate n nb channel + 33 / 100 * predictConnectTime n nb channel +
      33 / 100 * (stableCount n nb / maxSequenceLen)
  else if deliverRate n nb channel < 1 / 100 then 1 / 100 else deliverRate n nb channel

/-- The block of `hello_send` that updates the costs and moves the window. -/
def helloAdvance (n : Node) : Node :=
  let n := { n with
    stabilitySequence :=
      Function.update n.stabilitySequence (n.helloTail % maxSequenceLen) n.stability.isStable }
  let n := { n with
    neighbors := fun j =>
      let nb := n.neighbors j
      if j < n.neighborNum then
        { nb with
          channelCost := fun ch =>
            if ch < maxChannelNum then channelCost n nb ch else nb.channelCost ch }
      else nb }
  let n := { n with
    helloHead := if windowFull n then n.helloHead + 1 else n.helloHead
    helloTail := n.helloTail + 1 }
  { n with
    neighbors := fun j =>
      let nb := n.neighbors j
      if j < 20 then
        { nb with
          channelHelloSequence := fun ch k =>
            if ch < maxChannelNum ∧ k = n.helloTail % maxSequenceLen then 0
            else nb.channelHelloSequence ch k }
      else nb }

/-! ## Sending -/

/-- Every address is copied to the start of the data, while the 8-bit length still grows. -/
def helloNeighborSet (n : Node) : List InAddr :=
  match 4 * (heard n).length % 256 / 4 with
  | 0 => []
  | k + 1 => (heard n).getLastD 0 :: List.replicate k 0

def helloStop (n : Node) : Node := { n with helloTimer := n.helloTimer.remove }

def helloJitter : Int := if c.conf.helloJittering then c.env.jitter else 0

def helloBroadcast (n : Node) : Node :=
  let rrep := rrepCreate 0 0 n.ipaddr n.seqno n.ipaddr (msecs (allowedHelloLoss * helloInterval))
  let n := helloAdvance n
  let exts := if c.conf.unidirHack ∧ helloNeighborSet n ≠ [] then
    [Ext.helloNeighborSet (helloNeighborSet n)] else []
  let n := updateNeighborInfo (updateStaInfo c n)
  aodvSocketNewMsg (.rrep { rrep with
      exts
      res1 := BitVec.ofInt 5 n.stability.isStable
      helloSent := BitVec.ofNat 32 n.helloTail }) n
    |> aodvSocketSend c aodvBroadcast (rrepSize + (exts.map Ext.size).sum) 1

def helloSend (n : Node) : Node :=
  if c.conf.optimizedHellos ∧ timevalDiff c.now n.fwdTime > c.conf.activeRouteTimeout then
    helloStop n
  else
    let timeDiff := timevalDiff c.now n.bcastTime
    let jitter := helloJitter c
    if timeDiff ≥ helloInterval then
      let n := helloBroadcast c n
      { n with helloTimer := n.helloTimer.setTimeout c.now (helloInterval + jitter) }
    else if helloInterval - timeDiff + jitter < 0 then
      { n with helloTimer := n.helloTimer.setTimeout c.now (helloInterval - timeDiff - jitter) }
    else
      { n with helloTimer := n.helloTimer.setTimeout c.now (helloInterval - timeDiff + jitter) }

def helloStart (n : Node) : Node :=
  if n.helloTimer.used then n
  else helloSend c { n with fwdTime := c.now, helloTimer := { handler := .helloSend } }

/-- Hellos are only kept going by traffic when they are optimized. -/
def helloKeepAlive (n : Node) : Node :=
  if ¬ c.conf.llfeedback ∧ c.conf.optimizedHellos then helloStart c n else n

/-! ## Receiving -/

/-- The neighbour lookup at the start of `hello_process`. -/
def helloRecord (hello : RREP) (n : Node) : Node :=
  match findNeighbor n hello.destAddr with
  | some j => n.modNeighbor j fun nb => { nb with neighborSta := hello.res1.toNat }
  | none =>
    { n.modNeighbor n.neighborNum
        (fun nb => { nb with ipaddr := hello.destAddr, neighborSta := hello.res1.toNat }) with
      neighborNum := n.neighborNum + 1 }

/-- The slot that counts the Hello; a record with address 0 is taken over. -/
def helloSlot (n : Node) (a : InAddr) : ℕ :=
  ((List.range n.neighborNum).find?
    (fun j => (n.neighbors j).ipaddr = a ∨ (n.neighbors j).ipaddr = 0)).getD n.neighborNum

def helloCount (hello : RREP) (n : Node) : Node :=
  n.modNeighbor (helloSlot n hello.destAddr) fun nb =>
    { nb with
      ipaddr := hello.destAddr
      channelHelloSelfReceived := Function.update nb.channelHelloSelfReceived
        hello.channel.toNat (nb.channelHelloSelfReceived hello.channel.toNat + 1)
      channelHelloRemoteSent := hello.helloSent.toInt }

def helloAck (hello : RREP) (n : Node) : RREPAck :=
  let nb := n.neighbors (helloSlot n hello.destAddr)
  { rrepAckCreate with
    isHelloAck := 1
    channel := hello.channel
    helloIndex := hello.helloSent.setWidth 8
    channelHelloReceived := BitVec.ofInt 8 (nb.channelHelloSelfReceived hello.channel.toNat)
    hostStability := BitVec.ofInt 8 n.stability.isStable }

/-- The acknowledgement goes back on the channel of the Hello. -/
def helloAcknowledge (hello : RREP) (n : Node) : Node :=
  aodvSocketNewMsg (.rrepAck (helloAck hello n)) n
    |> setChannelNum hello.channel.toNat
    |> aodvSocketSend c hello.destAddr rrepAckSize maxTtl

/-- The extension loop; an unknown extension ends it. -/
def helloExts (own : InAddr) : List Ext → BitVec 32 × BitVec 16 → BitVec 32 × BitVec 16
  | .helloInterval i :: es, (_, flags) => helloExts own es (i, flags)
  | .helloNeighborSet as :: es, (i, flags) =>
    helloExts own es (i, if own ∈ as then flags &&& ~~~rtUnidir else flags)
  | _, acc => acc

def helloUpdateTimeout (a : InAddr) (time : Int) (n : Node) : Node :=
  n.modRt a fun rt =>
    { rt with
      helloTimer := rt.helloTimer.setTimeout c.now (time + helloDelay)
      lastHelloTime := c.now }

/-- The route part of `hello_process`, from the flags and the announced interval on. -/
def helloRoute (hello : RREP) (interval : BitVec 32) (flags : BitVec 16) (n : Node) : Node :=
  let a := hello.destAddr
  let state : RtState := if c.conf.receiveNHellos ≠ 0 then .invalid else .valid
  let timeout := msecs allowedHelloLoss * interval + msecs routeTimeoutSlack
  let refresh := helloUpdateTimeout c a (msecs allowedHelloLoss * interval).toNat
  match rtTableFind n a with
  | none =>
    rtTableInsert c a a 1 hello.destSeqno timeout state flags n
      |>.modRt a (fun rt => { rt with helloCnt := 1 }) |> refresh
  | some rt =>
    if hasFlag flags rtUnidir ∧ rt.state = .valid ∧ 1 < rt.hcnt.toNat then refresh n
    else if c.conf.receiveNHellos ≠ 0 ∧ (rt.helloCnt.toNat : Int) < c.conf.receiveNHellos - 1 then
      n.modRt a fun rt =>
        { rt with
          helloCnt := if timevalDiff c.now rt.lastHelloTime < (interval + interval / 2).toNat then
            rt.helloCnt + 1 else 1
          lastHelloTime := c.now }
    else rtTableUpdate c a a 1 hello.destSeqno timeout .valid flags n |> refresh

def helloProcess (hello : RREP) (n : Node) : Node :=
  let n := helloRecord hello n |> helloCount hello |> helloAcknowledge c hello
  let flags : BitVec 16 := match rtTableFind n hello.destAddr with
    | none => 0
    | some rt => (rt.flags.setWidth 8).setWidth 16
  let flags := if c.conf.unidirHack then flags ||| rtUnidir else flags
  let (interval, flags) := helloExts n.ipaddr hello.exts (msecs helloInterval, flags)
  helloRoute c hello interval flags n

end AodvUU

import AodvUU.Rrep

/-! # Route requests: receiving

`rreq_process` and `rreq_process_lr`. -/
namespace AodvUU

variable (c : Ctx)

/-- `PATH_DISCOVERY_TIME - 2 * rreq_new_hcnt * NODE_TRAVERSAL_TIME`, in 32 bits. -/
def reverseLife (rreq : RREQ) : BitVec 32 :=
  msecs (pathDiscoveryTime - 2 * (rreq.hcnt.toNat + 1) * nodeTraversalTime)

/-- The number a request asks for rises to what this node knows. -/
def raiseDestSeqno (fwdRt : Option RtTable) (rreq : RREQ) : RREQ :=
  match fwdRt with
  | none => rreq
  | some rt =>
    if ¬ hasFlag rt.flags rtInetDest ∧ fresher rt.destSeqno rreq.destSeqno then
      { rreq with destSeqno := rt.destSeqno }
    else rreq

def rreqForward (fwdRt : Option RtTable) (rreq : RREQ) (size : ℕ) (ipTtl : Int) (n : Node) : Node :=
  if ipTtl > 1 then
    onEachChannel (rreqForwardWithChannel c (raiseDestSeqno fwdRt rreq) size (ipTtl - 1)) n
  else n

/-! ## Local repair requests -/

def rreqLrReverse (rreq : RREQ) (ipSrc : InAddr) (n : Node) : Node :=
  let hops := rreq.hcnt + 1
  match rtTableFind n rreq.origAddr with
  | none => rtTableInsert c rreq.origAddr ipSrc hops rreq.origSeqno (reverseLife rreq) .valid 0 n
  | some revRt =>
    if revRt.destSeqno = 0 ∨ fresher rreq.origSeqno revRt.destSeqno ∨
        (rreq.origSeqno = revRt.destSeqno ∧
          (revRt.state = .invalid ∨ rreq.hcnt.toNat + 1 < revRt.hcnt.toNat)) then
      rtTableUpdate c rreq.origAddr ipSrc hops rreq.origSeqno (reverseLife rreq) .valid
        revRt.flags n
    else n

/-- A listed destination that is this node itself is answered at once. -/
def rreqLrUdest (orig : InAddr) (ud : RreqUdest) (n : Node) : Node :=
  let n := n.seqnoRaise ud.destSeqno
  let rrep := rrepCreate rrepLocalRepair 0 n.ipaddr n.seqno orig (msecs c.conf.myRouteTimeout)
  let rrep := rrepAddUdest rrep ud.destAddr n.seqno
  aodvSocketNewMsg (.rrep rrep) n |> rrepSend c orig none (rrepExtOffset rrep)

/-- The first pass over the extensions answers and marks them. -/
def rreqLrExts (orig : InAddr) : List Ext → Node → List Ext × Node
  | [], n => ([], n)
  | .rreqUdest ud :: es, n =>
    if ud.ifValid ≠ 0 ∧ ud.destAddr = n.ipaddr then
      let r := rreqLrExts orig es (rreqLrUdest c orig ud n)
      (.rreqUdest { ud with ifValid := 0 } :: r.1, r.2)
    else
      let r := rreqLrExts orig es n
      (.rreqUdest ud :: r.1, r.2)
  | e :: es, n =>
    let r := rreqLrExts orig es n
    (e :: r.1, r.2)

/-- The destination answers for all listed destinations with the numbers of the request. -/
def rreqLrDestination (rreq : RREQ) (n : Node) : Node :=
  let n := n.seqnoRaise rreq.destSeqno
  let rrep := rrepCreate rrepLocalRepair 0 n.ipaddr n.seqno rreq.origAddr
    (msecs c.conf.myRouteTimeout)
  let rrep := rreq.exts.foldl (fun m e => match e with
    | .rreqUdest ud => rrepAddUdest m ud.destAddr ud.destSeqno
    | _ => m) rrep
  aodvSocketNewMsg (.rrep rrep) n |> rrepSend c rreq.origAddr none (rrepExtOffset rrep)

/-- The remaining time of the route a reply is made from. -/
def lifetime (rt : RtTable) : BitVec 32 := msecs (timevalDiff rt.rtTimer.timeout c.now)

def rreqLrIntermediate (rreq : RREQ) (fwdRt : RtTable) (n : Node) : Node :=
  let life := lifetime c fwdRt
  let n := aodvSocketNewMsg
      (.rrep (rrepCreate 0 fwdRt.hcnt fwdRt.destAddr fwdRt.destSeqno rreq.origAddr life)) n
    |> rrepSend c rreq.origAddr (some fwdRt.destAddr) rrepSize
  if rreq.g then
    let revRt := n.rt rreq.origAddr
    aodvSocketNewMsg
        (.rrep (rrepCreate 0 revRt.hcnt rreq.origAddr revRt.destSeqno fwdRt.destAddr life)) n
      |> rrepSend c fwdRt.destAddr (some rreq.origAddr) rrepSize
  else n

def rreqLrAnswer (rreq : RREQ) (rreqlen : ℕ) (ipTtl : Int) (n : Node) : Node :=
  if rreq.destAddr = n.ipaddr then rreqLrDestination c rreq n
  else
    match rtTableFind n rreq.destAddr with
    | none => rreqForward c none rreq rreqlen ipTtl n
    | some fwdRt =>
      if fwdRt.state = .valid ∧ ¬ rreq.d ∧
          fwdRt.destSeqno ≠ 0 ∧ ¬ fresher rreq.destSeqno fwdRt.destSeqno then
        rreqLrIntermediate c rreq fwdRt n
      else rreqForward c (some fwdRt) rreq rreqlen ipTtl n

def rreqProcessLr (rreq : RREQ) (rreqlen : ℕ) (ipSrc : InAddr) (ipTtl : Int) (n : Node) : Node :=
  if rreq.origAddr = n.ipaddr then n
  else if rreqlen < rreqSize then n
  else if (rreqBlacklistFind n ipSrc).isSome then n
  else if (rreqRecordFind n rreq.origAddr rreq.rreqId).isSome then n
  else
    let n := rreqRecordInsert c rreq.origAddr rreq.rreqId n |> rreqLrReverse c rreq ipSrc
    let r := rreqLrExts c rreq.origAddr rreq.exts n
    rreqLrAnswer c { rreq with exts := r.1 } rreqlen ipTtl r.2

/-! ## Plain requests -/

/-- The reverse route; `none` where the request is dropped. -/
def rreqReverse (rreq : RREQ) (ipSrc : InAddr) (cost : ℚ) (n : Node) : Option Node :=
  let hops := rreq.hcnt + 1
  match rtTableFind n rreq.origAddr with
  | none =>
    some (rtTableInsertWithChannel c rreq.origAddr ipSrc hops rreq.origSeqno (reverseLife rreq)
      .valid 0 rreq.channel.toNat cost n)
  | some revRt =>
    if revRt.destSeqno = 0 ∨ fresher rreq.origSeqno revRt.destSeqno ∨
        (rreq.origSeqno = revRt.destSeqno ∧
          (revRt.state = .invalid ∨ cost < revRt.cost)) then
      some (rtTableUpdateWithChannel c rreq.origAddr ipSrc hops rreq.origSeqno
        (reverseLife rreq) .valid revRt.flags rreq.channel.toNat cost n)
    else none

def rreqDestination (rreq : RREQ) (n : Node) : Node :=
  let n := n.seqnoRaise rreq.destSeqno
  let rrep := rrepCreateWithCost 0 0 n.ipaddr n.seqno rreq.origAddr
    (msecs c.conf.myRouteTimeout) 0
  aodvSocketNewMsg (.rrep rrep) n
    |> rrepSendWithChannel c rreq.origAddr none rrepCostSize rreq.channel.toNat

/-- The reply leaves on the channel of the forward route. The gratuitous one is cut before
its cost. -/
def rreqIntermediate (rreq : RREQ) (fwdRt : RtTable) (n : Node) : Node :=
  let life := lifetime c fwdRt
  let n := aodvSocketNewMsg (.rrep (rrepCreateWithCost 0 fwdRt.hcnt fwdRt.destAddr
      fwdRt.destSeqno rreq.origAddr life fwdRt.cost)) n
    |> rrepSendWithChannel c rreq.origAddr (some fwdRt.destAddr) rreqCostSize fwdRt.channel
  if rreq.g then
    let revRt := n.rt rreq.origAddr
    aodvSocketNewMsg (.rrep (rrepCreateWithCost 0 revRt.hcnt rreq.origAddr revRt.destSeqno
        fwdRt.destAddr life (n.rt fwdRt.destAddr).cost)) n
      |> rrepSendWithChannel c fwdRt.destAddr (some rreq.origAddr) rrepSize fwdRt.channel
  else n

/-- A route to the destination without a channel is deleted first. -/
def rreqRelay (rreq : RREQ) (ipTtl : Int) (n : Node) : Node :=
  match rtTableFind n rreq.destAddr with
  | none => rreqForward c none rreq rreqCostSize ipTtl n
  | some fwdRt =>
    if fwdRt.channel = -1 then
      rtTableDelete fwdRt.destAddr n |> rreqForward c none rreq rreqCostSize ipTtl
    else if fwdRt.state = .valid ∧ ¬ rreq.d ∧
        fwdRt.destSeqno ≠ 0 ∧ ¬ fresher rreq.destSeqno fwdRt.destSeqno then
      rreqIntermediate c rreq fwdRt n
    else rreqForward c (some fwdRt) rreq rreqCostSize ipTtl n

/-- The part behind the extension loop, which has added the link cost to the message. -/
def rreqHandle (rreq : RREQ) (ipSrc : InAddr) (ipTtl : Int) (n : Node) : Node :=
  let cost := lastCost (c.ext.log maxNum) rreq.exts
  if (rreqRecordFindLessCost n rreq.origAddr rreq.rreqId cost).isSome then n
  else
    let n := rreqRecordInsertWithCost c rreq.origAddr rreq.rreqId cost n
    match rreqReverse c rreq ipSrc cost n with
    | none => n
    | some n =>
      if rreq.destAddr = n.ipaddr then rreqDestination c rreq n else rreqRelay c rreq ipTtl n

/-- What `rreqHandle` does once the reverse route is made. -/
def rreqAnswer (rreq : RREQ) (ttl : Int) (n : Node) : Node :=
  if rreq.destAddr = n.ipaddr then rreqDestination c rreq n else rreqRelay c rreq ttl n

theorem rreqHandle_cases (c : Ctx) (rreq : RREQ) (src : InAddr) (ttl : Int) (n : Node) :
    let cost := lastCost (c.ext.log maxNum) rreq.exts
    let n₁ := rreqRecordInsertWithCost c rreq.origAddr rreq.rreqId cost n
    ((rreqRecordFindLessCost n rreq.origAddr rreq.rreqId cost).isSome ∧
      rreqHandle c rreq src ttl n = n) ∨
    ((¬ (rreqRecordFindLessCost n rreq.origAddr rreq.rreqId cost).isSome) ∧
      ((rreqReverse c rreq src cost n₁ = none ∧ rreqHandle c rreq src ttl n = n₁) ∨
      ∃ n₂, rreqReverse c rreq src cost n₁ = some n₂ ∧
        rreqHandle c rreq src ttl n = rreqAnswer c rreq ttl n₂)) := by
  dsimp only
  unfold rreqHandle
  dsimp only
  split
  · next hless => exact .inl ⟨hless, rfl⟩
  · next hless =>
    refine .inr ⟨hless, ?_⟩
    split
    · next hrev => exact .inl ⟨hrev, rfl⟩
    · next n₂ hrev => exact .inr ⟨n₂, hrev, rfl⟩

def rreqProcess (rreq : RREQ) (rreqlen : ℕ) (ipSrc : InAddr) (ipTtl : Int) (n : Node) : Node :=
  if rreq.type = aodvRreqLr then rreqProcessLr c rreq rreqlen ipSrc ipTtl n
  else if rreq.origAddr = n.ipaddr then n
  else if rreqlen < rreqSize then n
  else if (rreqBlacklistFind n ipSrc).isSome then n
  else
    rreqHandle c { rreq with
      exts := rreq.exts.map (Ext.addCost (getCost c n ipSrc rreq.channel)) } ipSrc ipTtl n

end AodvUU

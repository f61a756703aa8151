import AodvUU.Rreq

/-! # Route errors

`aodv_rerr.c`. `rerr_records` is a static variable of the file: all agents of a process
share the one list, which is therefore passed next to the agent. -/
namespace AodvUU

variable (c : Ctx)

def rerrRecordFind (recs : List RerrRecord) (orig : InAddr) (id : BitVec 32)
    (last : InAddr) : Option RerrRecord :=
  recs.find? (fun r => r.origAddr = orig ∧ r.rerrId = id ∧ r.lastAddr = last)

def rerrRecordInsert (orig : InAddr) (id : BitVec 32) (last agent : InAddr)
    (recs : List RerrRecord) : List RerrRecord :=
  match rerrRecordFind recs orig id last with
  | some _ => recs
  | none =>
    let recTimer := Timer.setTimeout { handler := .rerrRecordTimeout } c.now rerrTime
    ⟨orig, id, last, recTimer, agent⟩ :: recs

def ifqDropByDest (a : InAddr) (n : Node) : Node :=
  { n with ifqueue := n.ifqueue.map (·.filter (·.daddr ≠ a)) }

/-- The walk over the unreachable destinations and the RERR it assembles on the way. -/
structure RerrWalk where
  made : Bool := false
  unicastDest : InAddr := 0
  node : Node

def newRerrFlags (rerr : RERR) : BitVec 8 :=
  (if rerr.n then rerrNodelete else 0) ||| (if rerr.lr then rerrLocalRepair else 0)

/-- The part of the loop body that extends the new RERR. -/
def rerrAdd (rerr : RERR) (a : InAddr) (w : RerrWalk) : RerrWalk :=
  let rt := w.node.rt a
  if rt.nprec ≠ 0 ∧ ¬ hasFlag rt.flags rtRepair then
    if w.made then
      { w with
        unicastDest := if w.unicastDest ≠ 0 ∧ rt.precursors.any (· ≠ w.unicastDest) then 0
          else w.unicastDest
        node := w.node.addRerrUdest rt.destAddr rt.destSeqno }
    else
      let m := { rerrCreate (newRerrFlags rerr) rt.destAddr rt.destSeqno with
        rerrId := rerr.rerrId
        rerrOriginAddr := rerr.rerrOriginAddr }
      { made := true
        unicastDest := if rt.nprec = 1 then rt.precursors.headD 0 else w.unicastDest
        node := aodvSocketNewMsg (.rerr m) w.node }
  else w

/-- What happens to the entry of an unreachable destination. The test on sequence numbers is
disabled by a leading `0 &&`. -/
def rerrApply (rerr : RERR) (ud : Udest) (n : Node) : Node :=
  let n := ifqDropByDest ud.destAddr n
  let n := if rerr.n then n else rtTableInvalidate c ud.destAddr n
  let n := if rerr.lr then rreqRouteDiscovery c ud.destAddr 0 n else n
  n.modRt ud.destAddr fun rt => { rt with destSeqno := ud.destSeqno }

def rerrStep (rerr : RERR) (ipSrc : InAddr) (w : RerrWalk) (ud : Udest) : RerrWalk :=
  match rtTableFind w.node ud.destAddr with
  | none => w
  | some rt =>
    if rt.state = .valid ∧ rt.nextHop = ipSrc then
      let w := rerrAdd rerr ud.destAddr { w with node := rerrApply c rerr ud w.node }
      if (w.node.rt ud.destAddr).state = .invalid then
        { w with node := precursorListDestroy ud.destAddr w.node }
      else w
    else w

def rerrWalk (rerr : RERR) (ipSrc : InAddr) (n : Node) : Node :=
  let w := rerr.walk.foldl (rerrStep c rerr ipSrc) { node := n }
  if w.made then sendRerr c w.unicastDest w.node else w.node

/-- The record is made before the length is checked. -/
def rerrProcess (rerr : RERR) (rerrlen : ℕ) (ipSrc : InAddr) (recs : List RerrRecord) (n : Node) :
    List RerrRecord × Node :=
  if (rerrRecordFind recs rerr.rerrOriginAddr rerr.rerrId ipSrc).isSome then (recs, n)
  else
    let recs := rerrRecordInsert c rerr.rerrOriginAddr rerr.rerrId ipSrc n.ipaddr recs
    if rerrlen < rerrCalcSize (.rerr rerr) then (recs, n)
    else (recs, rerrWalk c rerr ipSrc n)

end AodvUU

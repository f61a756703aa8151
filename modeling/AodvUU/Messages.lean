import AodvUU.RoutingTable

/-! # Building messages

The `*_create` and `*_add_*` functions. Each starts from a zeroed send buffer. -/
namespace AodvUU

/-! ## Flags -/

theorem hasFlag_cleared {w : ℕ} (flags bit : BitVec w) :
    hasFlag (flags &&& ~~~bit) bit = false := by
  have hand : (flags &&& ~~~bit) &&& bit = 0 := by
    ext i hi
    simp
  simp [hasFlag, hand]

theorem hasFlag_set {w : ℕ} {bit : BitVec w} (h : bit ≠ 0) (flags : BitVec w) :
    hasFlag (flags ||| bit) bit = true := by
  have hand : (flags ||| bit) &&& bit = bit := by
    ext i hi
    simp only [BitVec.getElem_and, BitVec.getElem_or]
    cases flags[i] <;> cases bit[i] <;> rfl
  simpa [hasFlag, hand] using h

theorem hasFlag_and_right {w : ℕ} {flags mask bit : BitVec w} (h : hasFlag flags bit = false) :
    hasFlag (flags &&& mask) bit = false := by
  have hzero : flags &&& bit = 0 := by simpa [hasFlag] using h
  have hand : flags &&& mask &&& bit = 0 := by
    rw [BitVec.and_assoc, BitVec.and_comm mask, ← BitVec.and_assoc, hzero]
    exact BitVec.zero_and
  simp [hasFlag, hand]

/-! ## Messages -/

variable (c : Ctx)

/-- `rreq_create`: the number advertised is the one just incremented. -/
def rreqCreate (flags : BitVec 8) (destAddr : InAddr) (destSeqno : BitVec 32)
    (origAddr : InAddr) (n : Node) : Node :=
  let n := { n with rreqId := n.rreqId + 1 }.seqnoIncr
  let lr := hasFlag flags rreqLocalRepairFlag
  aodvSocketNewMsg (.rreq {
    type := if lr then aodvRreqLr else aodvRreq
    rreqId := n.rreqId - 1
    destAddr, destSeqno, origAddr
    origSeqno := n.seqno
    destCount := 1
    j := hasFlag flags rreqJoin
    r := hasFlag flags rreqRepair
    g := hasFlag flags rreqGratuitous
    d := hasFlag flags rreqDestOnly
    lr }) n

/-- `rreq_create_with_cost`: the number advertised is one ahead of `this_host.seqno`, which
stays as it is. -/
def rreqCreateWithCost (flags : BitVec 8) (destAddr : InAddr) (destSeqno : BitVec 32)
    (origAddr : InAddr) (cost : ℚ) (n : Node) : Node :=
  let n := { n with rreqId := n.rreqId + 1 }
  aodvSocketNewMsg (.rreq {
    type := aodvRreq
    rreqId := n.rreqId - 1
    destAddr, destSeqno, origAddr
    origSeqno := n.seqno + 1
    j := hasFlag flags rreqJoin
    r := hasFlag flags rreqRepair
    g := hasFlag flags rreqGratuitous
    d := hasFlag flags rreqDestOnly
    exts := [.cost cost] }) n

def rreqAddUdest (m : RREQ) (udest : InAddr) (udestSeqno : BitVec 32) : RREQ :=
  { m with
    exts := m.exts ++ [.rreqUdest ⟨udest, udestSeqno, 1⟩]
    destCount := m.destCount + 1 }

def rrepCreate (flags : BitVec 8) (hcnt : BitVec 8) (destAddr : InAddr)
    (destSeqno : BitVec 32) (origAddr : InAddr) (life : BitVec 32) : RREP :=
  let lr := hasFlag flags rrepLocalRepair
  { type := if lr then aodvRrepLr else aodvRrep
    hcnt, destAddr, destSeqno, origAddr
    lifetime := life
    destCount := 1
    r := hasFlag flags rrepRepair
    a := hasFlag flags rrepAckFlag
    lr }

def rrepCreateWithCost (flags : BitVec 8) (hcnt : BitVec 8) (destAddr : InAddr)
    (destSeqno : BitVec 32) (origAddr : InAddr) (life : BitVec 32) (cost : ℚ) : RREP :=
  { type := aodvRrep
    hcnt, destAddr, destSeqno, origAddr
    lifetime := life
    r := hasFlag flags rrepRepair
    a := hasFlag flags rrepAckFlag
    exts := [.cost cost] }

def rrepAckCreate : RREPAck := { type := aodvRrepAck }

def rrepAddUdest (m : RREP) (udest : InAddr) (udestSeqno : BitVec 32) : RREP :=
  { m with
    exts := m.exts ++ [.rrepUdest ⟨udest, udestSeqno⟩]
    destCount := m.destCount + 1 }

def rerrCreate (flags : BitVec 8) (destAddr : InAddr) (destSeqno : BitVec 32) : RERR :=
  let lr := hasFlag flags rerrLocalRepair
  { type := if lr then aodvRerrLr else aodvRerr
    n := hasFlag flags rerrNodelete
    lr, destAddr, destSeqno
    destCount := 1 }

def rerrAddUdest (m : RERR) (udest : InAddr) (udestSeqno : BitVec 32) : RERR :=
  { m with
    more := m.more ++ [⟨udest, udestSeqno⟩]
    destCount := m.destCount + 1 }

/-- `rerr_add_udest` on whatever the send buffer holds by now. -/
def AodvMsg.addUdest (udest : InAddr) (udestSeqno : BitVec 32) : AodvMsg → AodvMsg
  | .rerr m => .rerr (rerrAddUdest m udest udestSeqno)
  | .rreq m => .overlaid m [⟨udest, udestSeqno⟩]
  | .overlaid m uds => .overlaid m (uds ++ [⟨udest, udestSeqno⟩])
  | m => m

def Node.addRerrUdest (udest : InAddr) (udestSeqno : BitVec 32) (n : Node) : Node :=
  { n with sendBuf := n.sendBuf.addUdest udest udestSeqno }

/-- The choice at the end of `rerr_process` and of `rrep_process_lr`: one destination with
one precursor is unicast. -/
def sendRerr (unicastDest : InAddr) (n : Node) : Node :=
  let len := rerrCalcSize n.sendBuf
  if (rtTableFind n unicastDest).isSome ∧ n.sendBuf.rerrCount = 1 ∧ unicastDest ≠ 0 then
    aodvSocketSend c unicastDest len 1 n
  else if n.sendBuf.rerrCount ≠ 0 then aodvSocketSend c aodvBroadcast len 1 n
  else n

/-- How a receiver reads a request over which pairs were written. The first two pairs fall on
`dest_seqno` to `dest_count`, the others on the extensions. -/
def RREQ.overlay (m : RREQ) (uds : List Udest) : RREQ :=
  let m := { m with hcnt := m.hcnt + BitVec.ofNat 8 uds.length }
  match uds with
  | [] => m
  | [a] => { m with destSeqno := a.destAddr, origAddr := a.destSeqno }
  | a :: b :: uds =>
    { m with
      destSeqno := a.destAddr
      origAddr := a.destSeqno
      origSeqno := b.destAddr
      destCount := b.destSeqno
      exts := c.ext.spill uds m.exts }

/-- The `k`-th pair from `RERR_UDEST_FIRST` on. The stride of eight bytes reads `rerr_id` and
`rerr_origin_addr` as the second pair; behind the message the receive buffer is zero. -/
def RERR.pair (m : RERR) : ℕ → Udest
  | 0 => ⟨m.destAddr, m.destSeqno⟩
  | 1 => ⟨m.rerrId, m.rerrOriginAddr⟩
  | k + 2 => m.more.getD k ⟨0, 0⟩

/-- The unreachable destinations in the order in which `rerr_process` walks them. -/
def RERR.walk (m : RERR) : List Udest := (List.range m.destCount.toNat).map m.pair

end AodvUU

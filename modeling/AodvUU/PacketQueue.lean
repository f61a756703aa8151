import AodvUU.Transmits
import AodvUU.Lib.Fifo

/-! # The packet queue

`packet_queue.cc` over any sequence of calls: where the packets go that were put into the
queue. -/
namespace AodvUU

open Fifo

variable (c : Ctx)

/-! ## Start and end -/

def packetQueueInit (n : Node) : Node :=
  { n with
    pq := []
    pqLen := 0
    garbageCollectTimer :=
      Timer.setTimeout { handler := .packetQueueTimeout } c.now garbageCollectTime }

def packetQueueDestroy (n : Node) : Node :=
  n.pq.foldl (fun n qp => n.handOut (.drop qp.p .endOfSimulation))
    { n with pq := [], pqLen := n.pqLen - n.pq.length }

/-! ## Calls -/

/-- A call that a packet leaves the queue with. -/
inductive Fate where
  | sent (qp : QPkt) (nextHop : InAddr) (delay : ℚ)
  | dropped (qp : QPkt) (reason : DropReason)

def Fate.qpkt : Fate → QPkt
  | .sent qp _ _ => qp
  | .dropped qp _ => qp

def Fate.isSent : Fate → Bool
  | .sent .. => true
  | .dropped .. => false

def Fate.call (n : Node) : Fate → Node
  | .sent qp nextHop delay => sendPacket c qp.p nextHop delay n
  | .dropped qp reason => n.handOut (.drop qp.p reason)

inductive QueueOp where
  | add (p : Packet)
  | garbageCollect
  | setVerdict (dest : InAddr) (verdict : Verdict)
  | destroy

def QueueOp.run (op : QueueOp) (n : Node) : Node :=
  match op with
  | .add p => packetQueueAdd c p p.daddr n
  | .garbageCollect => packetQueueGarbageCollect c n
  | .setVerdict dest verdict => packetQueueSetVerdict c dest verdict n
  | .destroy => packetQueueDestroy n

/-- Packets are sent only where the destination has an entry. -/
def QueueOp.Ok (n : Node) : QueueOp → Prop
  | .setVerdict _ .drop => True
  | .setVerdict dest .send => rtTableFind n dest ≠ none
  | .setVerdict _ .encSend => False
  | _ => True

def QueueOp.enters (op : QueueOp) : List QPkt :=
  match op with
  | .add p => [⟨p.daddr, c.now, p⟩]
  | _ => []

/-- The packets sent one after the other, `ARP_DELAY` apart. -/
def sends (nextHop : InAddr) : List QPkt → ℚ → List Fate
  | [], _ => []
  | qp :: qps, delay => .sent qp nextHop delay :: sends nextHop qps (delay + 5 / 1000)

/-- What becomes of the packets that leave the queue in a call. -/
def QueueOp.fates (op : QueueOp) (n : Node) : List Fate :=
  match op with
  | .add _ => if n.pqLen ≥ maxQueueLength then (n.pq.take 1).map (.dropped · .qFull) else []
  | .garbageCollect =>
    (n.pq.filter fun qp => timevalDiff c.now qp.qTime > maxQueueTime).map (.dropped · .qTimeout)
  | .setVerdict dest .drop => (n.pq.filter (·.destAddr = dest)).map (.dropped · .noRoute)
  | .setVerdict dest _ =>
    match rtTableFind n dest with
    | none => []
    | some rt => sends rt.nextHop (n.pq.filter (·.destAddr = dest)) 0
  | .destroy => n.pq.map (.dropped · .endOfSimulation)

/-- Sequences of calls after `packet_queue_init`, with the packets that entered the queue and
what became of those that left it. Between two calls the agent does anything that leaves the queue
alone. -/
inductive QueueRun (cf : Conf) (ext : Extern) : List QPkt → List Fate → Node → Prop
  | init (env : Env) (n : Node) : QueueRun cf ext [] [] (packetQueueInit ⟨cf, ext, env⟩ n)
  | other {entered : List QPkt} {fates : List Fate} {n n' : Node} (hpq : n'.pq = n.pq)
      (hlen : n'.pqLen = n.pqLen) :
      QueueRun cf ext entered fates n → QueueRun cf ext entered fates n'
  | op {entered : List QPkt} {fates : List Fate} {n : Node} (env : Env) (op : QueueOp)
      (hok : op.Ok n) : QueueRun cf ext entered fates n →
      QueueRun cf ext (entered ++ op.enters ⟨cf, ext, env⟩) (fates ++ op.fates ⟨cf, ext, env⟩ n)
        (op.run ⟨cf, ext, env⟩ n)

/-! ## One call -/

variable {c}

theorem sends_qpkt (nextHop : InAddr) (qps : List QPkt) (delay : ℚ) :
    (sends nextHop qps delay).map Fate.qpkt = qps := by
  induction qps generalizing delay with
  | nil => rfl
  | cons qp qps ih => exact congrArg (qp :: ·) (ih _)

theorem sends_isSent {nextHop : InAddr} {qps : List QPkt} {delay : ℚ} {f : Fate}
    (hf : f ∈ sends nextHop qps delay) : f.isSent := by
  induction qps generalizing delay with
  | nil => cases hf
  | cons qp qps ih =>
    rcases List.mem_cons.mp hf with rfl | hf
    · rfl
    · exact ih hf

theorem sends_foldl (nextHop : InAddr) (qps : List QPkt) (delay : ℚ) (n : Node) :
    (sends nextHop qps delay).foldl (Fate.call c) n = sendQueued c nextHop qps delay n := by
  induction qps generalizing delay n with
  | nil => rfl
  | cons qp qps ih => exact ih _ _

theorem dropped_foldl (reason : DropReason) (qps : List QPkt) (n : Node) :
    (qps.map (Fate.dropped · reason)).foldl (Fate.call c) n =
      qps.foldl (fun n qp => n.handOut (.drop qp.p reason)) n :=
  List.foldl_map

theorem dropped_qpkt (reason : DropReason) (qps : List QPkt) :
    (qps.map (Fate.dropped · reason)).map Fate.qpkt = qps := by
  rw [List.map_map]
  exact List.map_id qps

theorem handOut_foldl_eq {α : Type*} (l : List α) (f : α → Output) (n : Node) :
    l.foldl (fun n x => n.handOut (f x)) n = { n with out := n.out ++ l.map f } := by
  induction l generalizing n with
  | nil => simp
  | cons x l ih =>
    rw [List.foldl_cons, ih]
    simp [Node.handOut]

/-- The packets that stay are in their old order, the others leave each with one call, and what
enters goes behind them. -/
structure QueueOp.Splits (op : QueueOp) (c : Ctx) (n n' : Node) (stay : List QPkt) : Prop where
  pq : n'.pq = stay ++ op.enters c
  order : stay.Sublist n.pq
  perm : n.pq.Perm (stay ++ (op.fates c n).map Fate.qpkt)
  len : n'.pqLen = n'.pq.length
  bound : n.pqLen ≤ maxQueueLength → n'.pqLen ≤ maxQueueLength
  out : n'.out = ((op.fates c n).foldl (Fate.call c) n).out

theorem packetQueueAdd_splits (p : Packet) {n : Node} (hlen : n.pqLen = n.pq.length) :
    ∃ stay, (QueueOp.add p).Splits c n (packetQueueAdd c p p.daddr n) stay := by
  unfold packetQueueAdd
  by_cases hfull : n.pqLen ≥ maxQueueLength
  · have hfates : (QueueOp.add p).fates c n = (n.pq.take 1).map (.dropped · .qFull) := if_pos hfull
    rw [if_pos hfull]
    cases hpq : n.pq with
    | nil =>
      rw [hpq] at hlen
      rw [hlen] at hfull
      exact absurd hfull (by decide)
    | cons qp rest =>
      rw [hpq] at hlen hfates
      refine ⟨rest, rfl, ?_, ?_, ?_, ?_, ?_⟩
      · rw [hpq]
        exact List.sublist_cons_self qp rest
      · rw [hpq, hfates]
        exact @List.perm_append_comm _ [qp] _
      · show n.pqLen - 1 + 1 = (rest ++ [_]).length
        rw [hlen, List.length_append]
        rfl
      · intro hbound
        show n.pqLen - 1 + 1 ≤ maxQueueLength
        rw [hlen, List.length_cons] at hbound ⊢
        exact hbound
      · rw [hfates]
        rfl
  · have hfates : (QueueOp.add p).fates c n = [] := if_neg hfull
    rw [if_neg hfull]
    refine ⟨n.pq, rfl, .refl _, ?_, ?_, ?_, ?_⟩
    · rw [hfates, List.map_nil, List.append_nil]
    · show n.pqLen + 1 = (n.pq ++ [_]).length
      rw [hlen, List.length_append]
      rfl
    · intro _
      exact not_le.mp hfull
    · rw [hfates]
      rfl

theorem QueueOp.Splits.of_filter {op : QueueOp} {n n' : Node} (sel : QPkt → Bool)
    (henters : op.enters c = []) (hlen : n.pqLen = n.pq.length)
    (hfates : (op.fates c n).map Fate.qpkt = n.pq.filter sel)
    (hpq : n'.pq = n.pq.filter fun qp => !sel qp)
    (hpqLen : n'.pqLen = n.pqLen - (n.pq.filter sel).length)
    (hout : n'.out = ((op.fates c n).foldl (Fate.call c) n).out) :
    op.Splits c n n' (n.pq.filter fun qp => !sel qp) := by
  have hperm := perm_filter_append sel n.pq
  refine ⟨?_, List.filter_sublist, ?_, ?_, ?_, hout⟩
  · rw [henters, List.append_nil, hpq]
  · rw [hfates]
    exact hperm
  · have hsum := hperm.length_eq
    rw [List.length_append] at hsum
    rw [hpqLen, hpq, hlen]
    omega
  · intro hbound
    rw [hpqLen]
    exact (Nat.sub_le _ _).trans hbound

theorem packetQueueGarbageCollect_splits {n : Node} (hlen : n.pqLen = n.pq.length) :
    ∃ stay, QueueOp.garbageCollect.Splits c n (packetQueueGarbageCollect c n) stay := by
  have hfates : QueueOp.garbageCollect.fates c n = (n.pq.filter fun qp =>
    timevalDiff c.now qp.qTime > maxQueueTime).map (.dropped · .qTimeout) := rfl
  refine ⟨_, .of_filter (fun qp => timevalDiff c.now qp.qTime > maxQueueTime) rfl hlen ?_ ?_ ?_ ?_⟩
  · rw [hfates, dropped_qpkt]
  · unfold packetQueueGarbageCollect
    dsimp only
    rw [handOut_foldl_eq]
    exact List.filter_congr fun qp _ => decide_not
  · unfold packetQueueGarbageCollect
    dsimp only
    rw [handOut_foldl_eq]
  · rw [hfates, dropped_foldl]
    unfold packetQueueGarbageCollect
    dsimp only
    rw [handOut_foldl_eq, handOut_foldl_eq]

theorem packetQueueDestroy_splits {n : Node} (hlen : n.pqLen = n.pq.length) :
    ∃ stay, QueueOp.destroy.Splits c n (packetQueueDestroy n) stay := by
  have hfates : QueueOp.destroy.fates c n = n.pq.map (.dropped · .endOfSimulation) := rfl
  have hpq : packetQueueDestroy n = { n with
      pq := []
      pqLen := n.pqLen - n.pq.length
      out := n.out ++ n.pq.map (.drop ·.p .endOfSimulation) } := handOut_foldl_eq _ _ _
  refine ⟨_, .of_filter (fun _ => true) rfl hlen ?_ ?_ ?_ ?_⟩
  · rw [hfates, dropped_qpkt, List.filter_true]
  · rw [hpq]
    exact (List.filter_false n.pq).symm
  · rw [hpq, List.filter_true]
  · rw [hfates, dropped_foldl, handOut_foldl_eq, hpq]

theorem sendPacket_out_congr {n m : Node} (hip : m.ipaddr = n.ipaddr)
    (hch : m.channelNum = n.channelNum) (hout : m.out = n.out) (p : Packet) (nextHop : InAddr)
    (delay : ℚ) : (sendPacket c p nextHop delay m).out = (sendPacket c p nextHop delay n).out := by
  have hsched : ∀ p : Packet,
      (schedule c p nextHop delay m).out = (schedule c p nextHop delay n).out := by
    intro p
    unfold schedule
    split
    · dsimp only
      rw [handOut_foldl_eq, handOut_foldl_eq, hip, hout]
    · simp only [Node.handOut, hip, hch, hout]
  unfold sendPacket
  rw [hip]
  split_ifs
  · simp only [Node.handOut, hout]
  · exact hsched _
  · exact hsched p
  · simp only [Node.handOut, hout]

theorem sendQueued_out_congr {n m : Node} (hip : m.ipaddr = n.ipaddr)
    (hch : m.channelNum = n.channelNum) (hout : m.out = n.out) (nextHop : InAddr)
    (qps : List QPkt) (delay : ℚ) :
    (sendQueued c nextHop qps delay m).out = (sendQueued c nextHop qps delay n).out := by
  induction qps generalizing delay m n with
  | nil => exact hout
  | cons qp qps ih =>
    unfold sendQueued
    refine ih ?_ ?_ (sendPacket_out_congr hip hch hout qp.p nextHop delay) _
    · rw [sendPacket_eq _ _ _ m, sendPacket_eq _ _ _ n]
      exact hip
    · rw [sendPacket_eq _ _ _ m, sendPacket_eq _ _ _ n]
      exact hch

theorem QueueOp.setVerdict_fates {dest : InAddr} {verdict : Verdict} {n : Node}
    (hok : (QueueOp.setVerdict dest verdict).Ok n) :
    ((QueueOp.setVerdict dest verdict).fates c n).map Fate.qpkt =
      n.pq.filter (·.destAddr = dest) ∧
    ∀ f ∈ (QueueOp.setVerdict dest verdict).fates c n, f.isSent ↔ verdict = .send := by
  unfold QueueOp.fates
  cases verdict with
  | drop =>
    refine ⟨dropped_qpkt _ _, fun f hf => ?_⟩
    obtain ⟨qp, -, rfl⟩ := List.mem_map.mp hf
    simp [Fate.isSent]
  | send =>
    obtain ⟨rt, hrt⟩ := Option.ne_none_iff_exists'.mp hok
    dsimp only
    rw [hrt]
    exact ⟨sends_qpkt _ _ _, fun f hf => by simp [sends_isSent hf]⟩
  | encSend => exact absurd hok id

theorem packetQueueSetVerdict_splits {dest : InAddr} {verdict : Verdict} {n : Node}
    (hok : (QueueOp.setVerdict dest verdict).Ok n) (hlen : n.pqLen = n.pq.length) :
    (QueueOp.setVerdict dest verdict).Splits c n (packetQueueSetVerdict c dest verdict n)
      (n.pq.filter fun qp => !decide (qp.destAddr = dest)) := by
  have htake : (takeQueued dest n).pq = n.pq.filter fun qp => !decide (qp.destAddr = dest) :=
    List.filter_congr fun qp _ => decide_not
  cases verdict with
  | drop =>
    have heq : packetQueueSetVerdict c dest .drop n = { takeQueued dest n with
        out := n.out ++ (n.pq.filter (·.destAddr = dest)).map (.drop ·.p .noRoute) } :=
      handOut_foldl_eq _ _ _
    refine .of_filter (fun qp => qp.destAddr = dest) rfl hlen ?_ ?_ ?_ ?_
    · exact (QueueOp.setVerdict_fates hok).1
    · rw [heq]
      exact htake
    · rw [heq]
      rfl
    · rw [heq]
      unfold QueueOp.fates
      dsimp only
      rw [dropped_foldl, handOut_foldl_eq]
  | send =>
    obtain ⟨rt, hrt⟩ := Option.ne_none_iff_exists'.mp hok
    have hfates : (QueueOp.setVerdict dest .send).fates c n =
        sends rt.nextHop (n.pq.filter (·.destAddr = dest)) 0 := by
      unfold QueueOp.fates
      dsimp only
      rw [hrt]
    have heq : packetQueueSetVerdict c dest .send n = refreshQueued c rt dest
        (sendQueued c rt.nextHop (n.pq.filter (·.destAddr = dest)) 0 (takeQueued dest n)) := by
      unfold packetQueueSetVerdict
      dsimp only
      rw [hrt]
    refine .of_filter (fun qp => qp.destAddr = dest) rfl hlen ?_ ?_ ?_ ?_
    · exact (QueueOp.setVerdict_fates hok).1
    · rw [heq, refreshQueued_eq, sendQueued_eq]
      exact htake
    · rw [heq, refreshQueued_eq, sendQueued_eq]
      rfl
    · rw [hfates, sends_foldl, heq, refreshQueued_eq]
      exact sendQueued_out_congr (by rfl) (by rfl) (by rfl) _ _ _
  | encSend => exact absurd hok id

theorem QueueOp.run_splits {op : QueueOp} {n : Node} (hok : op.Ok n)
    (hlen : n.pqLen = n.pq.length) : ∃ stay, op.Splits c n (op.run c n) stay := by
  cases op with
  | add p => exact packetQueueAdd_splits p hlen
  | garbageCollect => exact packetQueueGarbageCollect_splits hlen
  | setVerdict dest verdict => exact ⟨_, packetQueueSetVerdict_splits hok hlen⟩
  | destroy => exact packetQueueDestroy_splits hlen

/-! ## Runs -/

/-- The length counter is true, the queue has room, and every packet is accounted for. -/
structure QueueSound (entered : List QPkt) (fates : List Fate) (n : Node) : Prop where
  len : n.pqLen = n.pq.length
  bound : n.pqLen ≤ maxQueueLength
  accounts : Accounts entered n.pq (fates.map Fate.qpkt)

theorem QueueSound.op {entered : List QPkt} {fates : List Fate} {n : Node}
    (h : QueueSound entered fates n) {op : QueueOp} (hok : op.Ok n) :
    QueueSound (entered ++ op.enters c) (fates ++ op.fates c n) (op.run c n) := by
  obtain ⟨stay, hs⟩ := op.run_splits (c := c) hok h.len
  refine ⟨hs.len, hs.bound h.bound, ?_⟩
  rw [hs.pq, List.map_append]
  exact (h.accounts.leave hs.perm hs.order).enter (op.enters c)

theorem QueueRun.sound {cf : Conf} {ext : Extern} {entered : List QPkt} {fates : List Fate}
    {n : Node} (h : QueueRun cf ext entered fates n) : QueueSound entered fates n := by
  induction h with
  | init env n => exact ⟨rfl, Nat.zero_le _, accounts_nil⟩
  | other hpq hlen _ ih =>
    refine ⟨?_, ?_, ?_⟩
    · rw [hpq, hlen]
      exact ih.len
    · rw [hlen]
      exact ih.bound
    · rw [hpq]
      exact ih.accounts
  | op env op hok _ ih => exact ih.op hok

/-- The queue has a true length within its bound and keeps the order of arrival. Every packet
added is queued, or was passed once to `sendPacket`, or once to `drop`: the calls made are those
listed. A verdict takes the packets for its destination in their order and no others. -/
theorem packet_queue_conserves {cf : Conf} {ext : Extern} {entered : List QPkt}
    {fates : List Fate} {n : Node} (h : QueueRun cf ext entered fates n) :
    n.pqLen = n.pq.length ∧ n.pqLen ≤ maxQueueLength ∧ n.pq.Sublist entered ∧
    entered.Perm (n.pq ++ ((fates.filter Fate.isSent).map Fate.qpkt ++
      (fates.filter (!·.isSent)).map Fate.qpkt)) ∧
    (∀ (env : Env) (op : QueueOp), op.Ok n → (op.run ⟨cf, ext, env⟩ n).out =
      ((op.fates ⟨cf, ext, env⟩ n).foldl (Fate.call ⟨cf, ext, env⟩) n).out) ∧
    ∀ (env : Env) (dest : InAddr) (verdict : Verdict),
      (QueueOp.setVerdict dest verdict).Ok n →
      (packetQueueSetVerdict ⟨cf, ext, env⟩ dest verdict n).pq =
        n.pq.filter (·.destAddr ≠ dest) ∧
      ((QueueOp.setVerdict dest verdict).fates ⟨cf, ext, env⟩ n).map Fate.qpkt =
        n.pq.filter (·.destAddr = dest) ∧
      ∀ f ∈ (QueueOp.setVerdict dest verdict).fates ⟨cf, ext, env⟩ n,
        f.isSent ↔ verdict = .send := by
  have hs := h.sound
  refine ⟨hs.len, hs.bound, hs.accounts.order, ?_, ?_, ?_⟩
  · refine hs.accounts.perm.trans (List.Perm.append_left n.pq ?_)
    rw [← List.map_append]
    exact (List.filter_append_perm Fate.isSent fates).symm.map _
  · intro env op hok
    obtain ⟨stay, hsplit⟩ := op.run_splits (c := ⟨cf, ext, env⟩) hok hs.len
    exact hsplit.out
  · intro env dest verdict hok
    have hsplit := packetQueueSetVerdict_splits (c := ⟨cf, ext, env⟩) hok hs.len
    refine ⟨?_, QueueOp.setVerdict_fates hok⟩
    · have hpq := hsplit.pq
      rw [show (QueueOp.setVerdict dest verdict).enters ⟨cf, ext, env⟩ = [] from rfl,
        List.append_nil] at hpq
      rw [hpq]
      exact List.filter_congr fun qp _ => (decide_not).symm

/-- Two packets are queued, and those for one of the destinations dropped. -/
def queuedNode : Node :=
  packetQueueSetVerdict (sampleCtx 0) 9 .drop (packetQueueAdd (sampleCtx 0) (dataFrom 1 8) 8
    (packetQueueAdd (sampleCtx 0) (dataFrom 1 9) 9
      (packetQueueInit (sampleCtx 0) (Node.init (sampleCtx 0) 1))))

theorem queuedNode_conserves : ∃ entered fates,
    QueueRun {} (.described sampleLog {}) entered fates queuedNode ∧
    entered.map QPkt.destAddr = [9, 8] ∧ fates.map (·.qpkt.destAddr) = [9] ∧
    queuedNode.pq.map QPkt.destAddr = [8] ∧ queuedNode.pqLen = queuedNode.pq.length := by
  have hrun : QueueRun {} (.described sampleLog {}) _ _ queuedNode :=
    .op { now := 0 } (.setVerdict 9 .drop) trivial (.op { now := 0 } (.add (dataFrom 1 8)) trivial
      (.op { now := 0 } (.add (dataFrom 1 9)) trivial (.init { now := 0 } _)))
  exact ⟨_, _, hrun, by decide +kernel, by decide +kernel, by decide +kernel,
    (packet_queue_conserves hrun).1⟩

end AodvUU

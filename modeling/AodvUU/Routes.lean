import AodvUU.TableInvariant

/-! # The rule for invariants of table and seek list

Sending, queueing and the neighbour records leave the table and the seek list alone. An
invariant that the functions of `routing_table.c`, the seek list and the external neighbour
functions keep is kept by every handler. -/
namespace AodvUU

structure Routes where
  ipaddr : InAddr
  tbl : HashTable.Buckets rtTablesize RtTable
  numEntries : ℕ
  seekhead : List SeekList

def Node.routes (n : Node) : Routes := ⟨n.ipaddr, n.tbl, n.numEntries, n.seekhead⟩

variable {c : Ctx}

/-! ## Functions that leave the routes alone -/

theorem foldl_routes {α : Type*} {f : Node → α → Node} (l : List α)
    (h : ∀ n x, (f n x).routes = n.routes) (n : Node) : (l.foldl f n).routes = n.routes := by
  induction l generalizing n with
  | nil => rfl
  | cons x l ih => exact (ih (f n x)).trans (h n x)

@[simp] theorem handOut_routes (o : Output) (n : Node) : (n.handOut o).routes = n.routes := rfl

@[simp] theorem setChannelNum_routes (ch : Int) (n : Node) :
    (setChannelNum ch n).routes = n.routes := rfl

@[simp] theorem aodvSocketNewMsg_routes (m : AodvMsg) (n : Node) :
    (aodvSocketNewMsg m n).routes = n.routes := rfl

@[simp] theorem aodvSocketQueueMsg_routes (m : AodvMsg) (size : ℕ) (n : Node) :
    (aodvSocketQueueMsg m size n).routes = n.routes := rfl

@[simp] theorem schedule_routes (p : Packet) (a : InAddr) (delay : ℚ) (n : Node) :
    (schedule c p a delay n).routes = n.routes := by
  unfold schedule
  dsimp only
  split
  · exact foldl_routes _ (fun n i => handOut_routes _ n) n
  · rfl

@[simp] theorem sendPacket_routes (p : Packet) (a : InAddr) (delay : ℚ) (n : Node) :
    (sendPacket c p a delay n).routes = n.routes := by
  unfold sendPacket
  split_ifs <;> simp

theorem linkBreakRerr_routes (a : InAddr) (w : Bool × Node) :
    (linkBreakRerr a w).2.routes = w.2.routes := by
  unfold linkBreakRerr
  dsimp only
  split_ifs <;> rfl

theorem rateLimit_routes {n n' : Node} (h : rateLimit c n = some n') : n'.routes = n.routes := by
  unfold rateLimit at h
  split_ifs at h
  · obtain ⟨r, -, rfl⟩ := Option.map_eq_some_iff.mp h
    rfl
  · obtain ⟨r, -, rfl⟩ := Option.map_eq_some_iff.mp h
    rfl
  · cases h
    rfl
  · cases h
    rfl

@[simp] theorem aodvSocketSend_routes (a : InAddr) (len : ℕ) (ttl : BitVec 8) (n : Node) :
    (aodvSocketSend c a len ttl n).routes = n.routes := by
  unfold aodvSocketSend
  split
  · rfl
  · cases h : rateLimit c n with
    | none => rfl
    | some n' =>
      have hn' := rateLimit_routes h
      simp only [sendPacket_routes]
      split
      · exact hn'
      · exact hn'

@[simp] theorem packetQueueAdd_routes (p : Packet) (a : InAddr) (n : Node) :
    (packetQueueAdd c p a n).routes = n.routes := by
  unfold packetQueueAdd
  dsimp only
  split
  · cases n.pq <;> rfl
  · rfl

@[simp] theorem packetQueueGarbageCollect_routes (n : Node) :
    (packetQueueGarbageCollect c n).routes = n.routes := by
  unfold packetQueueGarbageCollect
  exact (foldl_routes _ (fun n qp => handOut_routes _ n) _).trans rfl

@[simp] theorem sendQueued_routes (a : InAddr) (qps : List QPkt) (delay : ℚ) (n : Node) :
    (sendQueued c a qps delay n).routes = n.routes := by
  induction qps generalizing delay n with
  | nil => rfl
  | cons qp qps ih => exact (ih _ _).trans (sendPacket_routes _ _ _ n)

@[simp] theorem takeQueued_routes (a : InAddr) (n : Node) :
    (takeQueued a n).routes = n.routes := rfl

@[simp] theorem addRerrUdest_routes (u : InAddr) (v : BitVec 32) (n : Node) :
    (n.addRerrUdest u v).routes = n.routes := rfl

@[simp] theorem sendRerr_routes (a : InAddr) (n : Node) : (sendRerr c a n).routes = n.routes := by
  unfold sendRerr
  dsimp only
  split_ifs <;> simp

@[simp] theorem seqnoIncr_routes (n : Node) : n.seqnoIncr.routes = n.routes := rfl

@[simp] theorem seqnoRaise_routes (v : BitVec 32) (n : Node) :
    (n.seqnoRaise v).routes = n.routes := by
  unfold Node.seqnoRaise
  split_ifs <;> rfl

/-! ## Hellos -/

@[simp] theorem modNeighbor_routes (j : ℕ) (f : NeighborInfo → NeighborInfo) (n : Node) :
    (n.modNeighbor j f).routes = n.routes := rfl

@[simp] theorem updateStaInfo_routes (n : Node) : (updateStaInfo c n).routes = n.routes := rfl

@[simp] theorem updateNeighborInfo_routes (n : Node) :
    (updateNeighborInfo n).routes = n.routes := by
  unfold updateNeighborInfo
  refine (foldl_routes _ (fun n j => ?_) _).trans (foldl_routes _ (fun n a => ?_) n)
  · split <;> rfl
  · split <;> rfl

@[simp] theorem helloAdvance_routes (n : Node) : (helloAdvance n).routes = n.routes := rfl

@[simp] theorem helloStop_routes (n : Node) : (helloStop n).routes = n.routes := rfl

@[simp] theorem helloBroadcast_routes (n : Node) : (helloBroadcast c n).routes = n.routes := by
  simp [helloBroadcast]

@[simp] theorem helloSend_routes (n : Node) : (helloSend c n).routes = n.routes := by
  unfold helloSend
  dsimp only
  split_ifs
  · rfl
  · exact helloBroadcast_routes n
  · rfl
  · rfl

@[simp] theorem helloStart_routes (n : Node) : (helloStart c n).routes = n.routes := by
  unfold helloStart
  split
  · rfl
  · exact helloSend_routes _

@[simp] theorem helloKeepAlive_routes (n : Node) : (helloKeepAlive c n).routes = n.routes := by
  unfold helloKeepAlive
  split <;> simp

@[simp] theorem helloRecord_routes (hello : RREP) (n : Node) :
    (helloRecord hello n).routes = n.routes := by
  unfold helloRecord
  split <;> rfl

@[simp] theorem helloCount_routes (hello : RREP) (n : Node) :
    (helloCount hello n).routes = n.routes := rfl

@[simp] theorem helloAcknowledge_routes (hello : RREP) (n : Node) :
    (helloAcknowledge c hello n).routes = n.routes := by
  simp [helloAcknowledge]

/-! ## Requests and replies -/

@[simp] theorem rreqRecordInsertWithCost_routes (orig : InAddr) (id : BitVec 32) (cost : ℚ)
    (n : Node) : (rreqRecordInsertWithCost c orig id cost n).routes = n.routes := by
  unfold rreqRecordInsertWithCost
  split <;> rfl

@[simp] theorem rreqRecordInsert_routes (orig : InAddr) (id : BitVec 32) (n : Node) :
    (rreqRecordInsert c orig id n).routes = n.routes :=
  rreqRecordInsertWithCost_routes orig id _ n

@[simp] theorem rreqBlacklistInsert_routes (a : InAddr) (n : Node) :
    (rreqBlacklistInsert c a n).routes = n.routes := by
  unfold rreqBlacklistInsert
  split <;> rfl

@[simp] theorem rreqSendWithChannel_routes (a : InAddr) (v : BitVec 32) (ttl : Int)
    (flags : BitVec 8) (channel : ℕ) (n : Node) :
    (rreqSendWithChannel c a v ttl flags channel n).routes = n.routes := by
  simp only [rreqSendWithChannel, aodvSocketSend_routes]
  rfl

theorem onEachChannel_routes {f : ℕ → Node → Node} (h : ∀ i n, (f i n).routes = n.routes)
    (n : Node) : (onEachChannel f n).routes = n.routes :=
  foldl_routes _ (fun n i => h i n) n

@[simp] theorem rreqForward_routes (fwd : Option RtTable) (rreq : RREQ) (size : ℕ) (ttl : Int)
    (n : Node) : (rreqForward c fwd rreq size ttl n).routes = n.routes := by
  unfold rreqForward
  split
  · exact onEachChannel_routes (fun i n => by simp [rreqForwardWithChannel]) n
  · rfl

@[simp] theorem modRreq_routes (f : RREQ → RREQ) (n : Node) : (n.modRreq f).routes = n.routes := by
  unfold Node.modRreq
  split <;> rfl

@[simp] theorem rrepAcknowledge_routes (rrep : RREP) (n : Node) :
    (rrepAcknowledge c rrep n).routes = n.routes := by
  unfold rrepAcknowledge
  split <;> simp

@[simp] theorem rrepArrived_routes (rrep : RREP) (pre : Option RtTable) (n : Node) :
    (rrepArrived c rrep pre n).routes = n.routes := by
  unfold rrepArrived
  dsimp only
  split_ifs <;> simp

/-! ## Queues and timers -/

@[simp] theorem ifqBuffer_routes (a : InAddr) (n : Node) : (ifqBuffer c a n).routes = n.routes :=
  foldl_routes _ (fun n p => packetQueueAdd_routes p p.daddr n) _

@[simp] theorem ifqDrop_routes (a : InAddr) (n : Node) : (ifqDrop a n).routes = n.routes := by
  unfold ifqDrop
  exact (foldl_routes _ (fun n p => handOut_routes _ n) _).trans rfl

@[simp] theorem ifqDropByDest_routes (a : InAddr) (n : Node) :
    (ifqDropByDest a n).routes = n.routes := rfl

@[simp] theorem dropFailed_routes (p : Packet) (n : Node) :
    (dropFailed p n).routes = n.routes := by
  simp [dropFailed]

@[simp] theorem startAODVUUAgent_routes (n : Node) :
    (startAODVUUAgent c n).routes = n.routes := by
  unfold startAODVUUAgent
  refine (helloStart_routes _).trans ?_
  split <;> rfl

@[simp] theorem worbReset_routes (n : Node) : (worbReset c n).routes = n.routes := by
  unfold worbReset
  split <;> rfl

end AodvUU

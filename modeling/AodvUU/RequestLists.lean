import AodvUU.Routes

/-! # The lists that requests are judged by

Which requests were seen, who is blacklisted and what the links cost. A request that is answered or
passed on changes none of it beyond its own record, as long as no Hello goes out. -/
namespace AodvUU

structure RequestLists where
  rreqRecords : List RreqRecord
  rreqBlacklist : List Blacklist
  neighbors : ℕ → NeighborInfo
  neighborNum : ℕ

def Node.lists (n : Node) : RequestLists :=
  ⟨n.rreqRecords, n.rreqBlacklist, n.neighbors, n.neighborNum⟩

/-- The lists without the neighbour records, which Hellos work on. -/
def RequestLists.own (l : RequestLists) : List RreqRecord × List Blacklist :=
  (l.rreqRecords, l.rreqBlacklist)

variable {c : Ctx}

/-! ## Functions that leave the lists alone -/

theorem foldl_lists {α : Type*} {f : Node → α → Node} (l : List α)
    (h : ∀ n x, (f n x).lists = n.lists) (n : Node) : (l.foldl f n).lists = n.lists := by
  induction l generalizing n with
  | nil => rfl
  | cons x l ih => exact (ih (f n x)).trans (h n x)

@[simp] theorem handOut_lists (o : Output) (n : Node) : (n.handOut o).lists = n.lists := rfl

@[simp] theorem setChannelNum_lists (ch : Int) (n : Node) :
    (setChannelNum ch n).lists = n.lists := rfl

@[simp] theorem aodvSocketNewMsg_lists (m : AodvMsg) (n : Node) :
    (aodvSocketNewMsg m n).lists = n.lists := rfl

@[simp] theorem aodvSocketQueueMsg_lists (m : AodvMsg) (size : ℕ) (n : Node) :
    (aodvSocketQueueMsg m size n).lists = n.lists := rfl

@[simp] theorem modRt_lists (a : InAddr) (f : RtTable → RtTable) (n : Node) :
    (n.modRt a f).lists = n.lists := rfl

@[simp] theorem sendPacket_lists (p : Packet) (a : InAddr) (delay : ℚ) (n : Node) :
    (sendPacket c p a delay n).lists = n.lists := by
  have hschedule : ∀ p, (schedule c p a delay n).lists = n.lists := by
    intro p
    unfold schedule
    dsimp only
    split
    · exact foldl_lists _ (fun n i => handOut_lists _ n) n
    · rfl
  unfold sendPacket
  split_ifs
  · rfl
  · exact hschedule _
  · exact hschedule p
  · rfl

@[simp] theorem aodvSocketSend_lists (a : InAddr) (len : ℕ) (ttl : BitVec 8) (n : Node) :
    (aodvSocketSend c a len ttl n).lists = n.lists := by
  have hrate : ∀ n', rateLimit c n = some n' → n'.lists = n.lists := by
    intro n' h
    unfold rateLimit at h
    split_ifs at h
    · obtain ⟨r, -, rfl⟩ := Option.map_eq_some_iff.mp h
      rfl
    · obtain ⟨r, -, rfl⟩ := Option.map_eq_some_iff.mp h
      rfl
    · cases h
      rfl
    · cases h
      rfl
  unfold aodvSocketSend
  split
  · rfl
  · cases h : rateLimit c n with
    | none => rfl
    | some n' =>
      have hn' := hrate n' h
      simp only [sendPacket_lists]
      split
      · exact hn'
      · exact hn'

@[simp] theorem sendQueued_lists (a : InAddr) (qps : List QPkt) (delay : ℚ) (n : Node) :
    (sendQueued c a qps delay n).lists = n.lists := by
  induction qps generalizing delay n with
  | nil => rfl
  | cons qp qps ih => exact (ih _ _).trans (sendPacket_lists _ _ _ n)

@[simp] theorem seqnoRaise_lists (v : BitVec 32) (n : Node) : (n.seqnoRaise v).lists = n.lists := by
  unfold Node.seqnoRaise
  split_ifs <;> rfl

@[simp] theorem rtTableUpdateTimeout_lists (a : InAddr) (life : BitVec 32) (n : Node) :
    (rtTableUpdateTimeout c a life n).lists = n.lists := rfl

@[simp] theorem refreshQueued_lists (rt : RtTable) (a : InAddr) (n : Node) :
    (refreshQueued c rt a n).lists = n.lists := by
  unfold refreshQueued
  split
  · dsimp only
    split
    · rfl
    · split <;> rfl
  · rfl

@[simp] theorem packetQueueSetVerdict_lists (a : InAddr) (v : Verdict) (n : Node) :
    (packetQueueSetVerdict c a v n).lists = n.lists := by
  have htake : (takeQueued a n).lists = n.lists := rfl
  unfold packetQueueSetVerdict
  cases v with
  | encSend =>
    dsimp only
    split
    · rfl
    · split
      · rfl
      · split
        · rw [refreshQueued_lists, rtTableUpdateTimeout_lists, htake]
        · rfl
  | send =>
    dsimp only
    split
    · rfl
    · rw [refreshQueued_lists, sendQueued_lists, htake]
  | drop => exact foldl_lists _ (fun n qp => handOut_lists _ n) (takeQueued a n)

@[simp] theorem flushSeek_lists (a : InAddr) (n : Node) : (flushSeek c a n).lists = n.lists := by
  unfold flushSeek
  split
  · split
    · rfl
    · exact packetQueueSetVerdict_lists a _ (seekListRemove a n)
  · rfl

@[simp] theorem rtTableInsertWithChannel_lists (a next : InAddr) (hops : BitVec 8)
    (seqno life : BitVec 32) (state : RtState) (flags : BitVec 16) (ch : Int) (cost : ℚ) (n : Node) :
    (rtTableInsertWithChannel c a next hops seqno life state flags ch cost n).lists = n.lists := by
  unfold rtTableInsertWithChannel
  split_ifs
  · rfl
  · rfl
  · exact flushSeek_lists a _

@[simp] theorem addPrecursors_lists (fwd rev : InAddr) (n : Node) :
    (addPrecursors fwd rev n).lists = n.lists := rfl

@[simp] theorem rtTableDelete_lists (a : InAddr) (n : Node) :
    (rtTableDelete a n).lists = n.lists := by
  unfold rtTableDelete
  split <;> rfl

@[simp] theorem rreqForward_lists (fwd : Option RtTable) (rreq : RREQ) (size : ℕ) (ttl : Int)
    (n : Node) : (rreqForward c fwd rreq size ttl n).lists = n.lists := by
  unfold rreqForward
  split
  · exact foldl_lists _ (fun n i => by simp [rreqForwardWithChannel]) n
  · rfl

/-! ## Hellos -/

theorem foldl_own {α : Type*} {f : Node → α → Node} (l : List α)
    (h : ∀ n x, (f n x).lists.own = n.lists.own) (n : Node) :
    (l.foldl f n).lists.own = n.lists.own := by
  induction l generalizing n with
  | nil => rfl
  | cons x l ih => exact (ih (f n x)).trans (h n x)

theorem updateNeighborInfo_own (n : Node) : (updateNeighborInfo n).lists.own = n.lists.own := by
  unfold updateNeighborInfo
  refine (foldl_own _ (fun n j => ?_) _).trans (foldl_own _ (fun n a => ?_) n)
  · split <;> rfl
  · split <;> rfl

theorem helloBroadcast_own (n : Node) : (helloBroadcast c n).lists.own = n.lists.own := by
  unfold helloBroadcast
  dsimp only
  rw [aodvSocketSend_lists, aodvSocketNewMsg_lists]
  exact updateNeighborInfo_own _

theorem helloKeepAlive_own (n : Node) : (helloKeepAlive c n).lists.own = n.lists.own := by
  unfold helloKeepAlive
  split
  · unfold helloStart
    split
    · rfl
    · unfold helloSend
      dsimp only
      split_ifs
      · rfl
      · exact helloBroadcast_own _
      · rfl
      · rfl
  · rfl

/-! ## The handler -/

/-- What `view` shows of the lists survives where traffic may start Hellos, and a link break. -/
structure Ctx.Preserves {β : Type*} (c : Ctx) (view : RequestLists → β) : Prop where
  keepAlive : ∀ n, view (helloKeepAlive c n).lists = view n.lists
  linkBreak : ∀ a n, view (c.ext.neighborLinkBreak c.env a n).lists = view n.lists

def Ctx.BreaksAside (c : Ctx) : Prop := ∀ a n, (c.ext.neighborLinkBreak c.env a n).lists = n.lists

def Conf.SteadyHellos (cf : Conf) : Prop := cf.llfeedback ∨ ¬ cf.optimizedHellos

theorem Ctx.BreaksAside.preserves_own (h : c.BreaksAside) : c.Preserves RequestLists.own where
  keepAlive := helloKeepAlive_own
  linkBreak a n := congrArg RequestLists.own (h a n)

theorem Ctx.BreaksAside.preserves (h : c.BreaksAside) (hello : c.conf.SteadyHellos) :
    c.Preserves id where
  keepAlive n := by
    unfold helloKeepAlive
    rw [if_neg]
    rintro ⟨hfeed, hopt⟩
    exact hello.elim hfeed fun hno => hno hopt
  linkBreak := h

namespace Ctx.Preserves

variable {β : Type*} {view : RequestLists → β} (h : c.Preserves view)
include h

theorem beforeUpdate (a : InAddr) (hops : BitVec 8) (state : RtState) (n : Node) :
    view (beforeUpdate c a hops state n).lists = view n.lists := by
  have hactive : (if (n.rt a).state = .invalid ∧ state = .valid then
      { n with numActive := n.numActive + 1 } else n).lists = n.lists := by
    split <;> rfl
  unfold AodvUU.beforeUpdate
  dsimp only
  split
  · unfold breakOneHop
    exact (h.linkBreak a _).trans (congrArg view hactive)
  · exact congrArg view hactive

theorem rreqReverse {rreq : RREQ} {ipSrc : InAddr} {cost : ℚ} {n n' : Node}
    (hr : rreqReverse c rreq ipSrc cost n = some n') : view n'.lists = view n.lists := by
  unfold AodvUU.rreqReverse at hr
  dsimp only at hr
  split at hr
  · cases hr
    rw [rtTableInsertWithChannel_lists]
  · split at hr
    · cases hr
      unfold rtTableUpdateWithChannel rtTableUpdateGen
      rw [flushSeek_lists, modRt_lists]
      exact h.beforeUpdate _ _ _ n
    · cases hr

theorem suspectUnidir (rev : InAddr) (n : Node) :
    view (suspectUnidir c rev n).lists = view n.lists := by
  unfold AodvUU.suspectUnidir
  dsimp only
  split
  · split
    · rfl
    · split
      · exact h.linkBreak _ _
      · rfl
  · rfl

theorem rrepSendGen (channel : Option Int) (rev : InAddr) (fwd : Option InAddr) (size : ℕ)
    (n : Node) : view (rrepSendGen c channel rev fwd size n).lists = view n.lists := by
  unfold AodvUU.rrepSendGen
  dsimp only
  refine (h.keepAlive _).trans ?_
  cases fwd with
  | none =>
    rw [aodvSocketSend_lists, setChannelNum_lists]
    exact h.suspectUnidir rev n
  | some fwd =>
    rw [addPrecursors_lists, aodvSocketSend_lists, setChannelNum_lists]
    exact h.suspectUnidir rev n

theorem reply (m : AodvMsg) (channel : Option Int) (rev : InAddr) (fwd : Option InAddr) (size : ℕ)
    (n : Node) :
    view (AodvUU.rrepSendGen c channel rev fwd size (aodvSocketNewMsg m n)).lists = view n.lists :=
  h.rrepSendGen channel rev fwd size (aodvSocketNewMsg m n)

theorem rreqDestination (rreq : RREQ) (n : Node) :
    view (rreqDestination c rreq n).lists = view n.lists :=
  (h.reply _ (some _) _ none _ _).trans (congrArg view (seqnoRaise_lists _ n))

theorem rreqIntermediate (rreq : RREQ) (fwdRt : RtTable) (n : Node) :
    view (rreqIntermediate c rreq fwdRt n).lists = view n.lists := by
  unfold AodvUU.rreqIntermediate
  dsimp only
  split
  · exact (h.reply _ (some _) _ (some _) _ _).trans (h.reply _ (some _) _ (some _) _ n)
  · exact h.reply _ (some _) _ (some _) _ n

theorem rreqRelay (rreq : RREQ) (ttl : Int) (n : Node) :
    view (rreqRelay c rreq ttl n).lists = view n.lists := by
  unfold AodvUU.rreqRelay
  split
  · rw [rreqForward_lists]
  · split
    · rw [rreqForward_lists, rtTableDelete_lists]
    · split
      · exact h.rreqIntermediate rreq _ n
      · rw [rreqForward_lists]

end Ctx.Preserves

/-! ## The described link break -/

theorem rtTableInvalidate_lists (a : InAddr) (n : Node) :
    (rtTableInvalidate c a n).lists = n.lists := by
  unfold rtTableInvalidate
  split
  · rfl
  · split <;> rfl

theorem linkBreakRerr_lists (a : InAddr) (w : Bool × Node) :
    (linkBreakRerr a w).2.lists = w.2.lists := by
  unfold linkBreakRerr
  dsimp only
  split_ifs <;> rfl

theorem described_breaksAside (log : ℚ → ℚ) (cf : Conf) (env : Env) :
    Ctx.BreaksAside ⟨cf, .described log cf, env⟩ := by
  intro a n
  refine neighborLinkBreakDescribed_keeps (I := fun m => m.lists = n.lists) ?_
    fun dst len ttl m hm => (aodvSocketSend_lists dst len ttl m).trans hm
  exact linkBreakWalk_keeps (I := fun m => m.lists = n.lists) (fun _ _ hm => hm)
    (fun b m hm => (rtTableInvalidate_lists b m).trans hm)
    (fun b w hw => (linkBreakRerr_lists b w).trans hw) a rfl

end AodvUU

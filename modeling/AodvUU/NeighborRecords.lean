import AodvUU.NeighborBounds

/-! # Neighbour records

The lookup that counts a Hello takes an address of zero for a free slot, and the one that
processes an acknowledgement ends behind the last record when it finds none. -/
namespace AodvUU

variable {c : Ctx} {n n' : Node} {a : InAddr}

def HelloEvent.source : HelloEvent → Option InAddr
  | .sent => none
  | .heard hello => some hello.destAddr
  | .acked _ ipSrc => some ipSrc

/-- What a record or a free slot holds is changed only in the record of `a`. -/
structure Node.TouchesOnly (n : Node) (a : InAddr) (n' : Node) : Prop where
  changed : ∀ j, n'.neighbors j ≠ n.neighbors j →
    j < n'.neighborNum ∧ (n'.neighbors j).ipaddr = a ∧
      (j < n.neighborNum → (n.neighbors j).ipaddr = a)
  kept : n.neighborNum ≤ n'.neighborNum
  made : ∀ j, n.neighborNum ≤ j → j < n'.neighborNum → (n'.neighbors j).ipaddr = a

/-- The event has room, no record of address zero comes before that of the sender of a Hello,
and only neighbours with a record acknowledge one. -/
def Tidy (n : Node) (e : HelloEvent) : Prop :=
  Room n e ∧
  match e with
  | .sent => True
  | .heard hello =>
    hello.destAddr = 0 ∨ ∀ j < n.slot hello.destAddr, (n.neighbors j).ipaddr ≠ 0
  | .acked _ ipSrc => n.Recorded ipSrc

/-! ## One event -/

theorem Node.Records.touchesOnly (h : n.Records a n') : n.TouchesOnly a n' := by
  have hnum := h.num
  have hle := slot_le n a
  refine ⟨fun j hj => ?_, by omega, fun j hj hj' => ?_⟩
  · have hja : j = n.slot a := by
      by_contra hne
      exact hj (h.others j hne)
    subst hja
    exact ⟨by omega, h.ipaddr, fun hlt => ipaddr_slot (slot_lt_iff.mp hlt)⟩
  · have hja : j = n.slot a := by omega
    subst hja
    exact h.ipaddr

theorem ipaddr_helloSlot (h : helloSlot n a < n.slot a) :
    (n.neighbors (helloSlot n a)).ipaddr = 0 := by
  have hne := ipaddr_ne_of_lt_slot h
  have hle := slot_le n a
  unfold helloSlot at h hne ⊢
  cases hf : (List.range n.neighborNum).find?
      (fun j => decide ((n.neighbors j).ipaddr = a ∨ (n.neighbors j).ipaddr = 0)) with
  | none =>
    rw [hf, Option.getD_none] at h
    omega
  | some j =>
    have hp := List.find?_some hf
    rw [hf, Option.getD_some] at hne
    exact (of_decide_eq_true hp).resolve_left hne

theorem helloSlot_eq (hrec : n.Recorded a)
    (h : a = 0 ∨ ∀ j < n.slot a, (n.neighbors j).ipaddr ≠ 0) : helloSlot n a = n.slot a := by
  refine le_antisymm (helloSlot_le_slot hrec) (not_lt.mp fun hlt => ?_)
  have hzero := ipaddr_helloSlot hlt
  rcases h with h0 | hall
  · exact ipaddr_ne_of_lt_slot hlt (hzero.trans h0.symm)
  · exact hall _ hlt hzero

theorem Node.Records.helloSlot (h : n.Records a n')
    (hzero : a = 0 ∨ ∀ j < n.slot a, (n.neighbors j).ipaddr ≠ 0) :
    helloSlot n' a = n.slot a := by
  refine (helloSlot_eq h.recorded ?_).trans h.slot
  refine hzero.imp id fun hall j hj => ?_
  rw [h.slot] at hj
  rw [h.others j hj.ne]
  exact hall j hj

theorem heard_records {hello : RREP} (h : Tidy n (.heard hello)) :
    n.Records hello.destAddr (HelloEvent.run c (.heard hello) n) := by
  have hrec := helloRecord_records hello n
  have hslot := hrec.helloSlot h.2
  constructor
  · exact hrec.num
  · simp [HelloEvent.run, helloCount, Node.modNeighbor, hslot]
  · intro j hj
    rw [← hrec.others j hj]
    simp [HelloEvent.run, helloCount, Node.modNeighbor, hslot, hj]

theorem heard_touchesOnly_iff {hello : RREP} (hroom : Room n (.heard hello)) :
    n.TouchesOnly hello.destAddr (HelloEvent.run c (.heard hello) n) ↔ Tidy n (.heard hello) := by
  constructor
  · intro h
    refine ⟨hroom, ?_⟩
    by_contra hnot
    simp only [not_or, not_forall, not_not] at hnot
    obtain ⟨hne, j, hj, hzero⟩ := hnot
    have hrec := helloRecord_records hello n
    have hnum := hrec.num
    have hmin : helloSlot (helloRecord hello n) hello.destAddr ≤ j := by
      unfold helloSlot
      cases hf : (List.range (helloRecord hello n).neighborNum).find? (fun i =>
          decide (((helloRecord hello n).neighbors i).ipaddr = hello.destAddr ∨
            ((helloRecord hello n).neighbors i).ipaddr = 0)) with
      | none =>
        have hnone := List.find?_eq_none.mp hf j (List.mem_range.mpr (by omega))
        rw [hrec.others j hj.ne] at hnone
        simp [hzero] at hnone
      | some i =>
        obtain ⟨-, -, hall⟩ := List.find?_range_eq_some.mp hf
        by_contra hgt
        have hnone := hall j (not_le.mp hgt)
        rw [hrec.others j hj.ne] at hnone
        simp [hzero] at hnone
    have hlt := hmin.trans_lt hj
    have hold := ipaddr_helloSlot (hlt.trans_le hrec.slot.ge)
    rw [hrec.others _ hlt.ne] at hold
    have hnew : ((HelloEvent.run c (.heard hello) n).neighbors
        (helloSlot (helloRecord hello n) hello.destAddr)).ipaddr = hello.destAddr := by
      simp [HelloEvent.run, helloCount, Node.modNeighbor]
    have hchanged := h.changed (helloSlot (helloRecord hello n) hello.destAddr) fun heq => by
      rw [heq, hold] at hnew
      exact hne hnew.symm
    have hle := slot_le n hello.destAddr
    exact hne ((hchanged.2.2 (by omega)).symm.trans hold)
  · exact fun h => (heard_records h).touchesOnly

theorem acked_records {ack : RREPAck} {ipSrc : InAddr} (h : n.Recorded ipSrc) :
    n.Records ipSrc (HelloEvent.run c (.acked ack ipSrc) n) := by
  have hlt := slot_lt_iff.mpr h
  have hdef : (findNeighbor n ipSrc).getD n.neighborNum = n.slot ipSrc := rfl
  constructor
  · exact (max_eq_left hlt).symm
  · have hip := ipaddr_slot h
    simp only [HelloEvent.run, helloAckProcess, Node.modNeighbor, hdef, Function.update_self]
    split <;> exact hip
  · intro j hj
    simp [HelloEvent.run, helloAckProcess, Node.modNeighbor, hdef, hj]

theorem sent_extends (n : Node) : n.Extends (HelloEvent.run c .sent n) := by
  obtain ⟨hnum, hip⟩ := helloAdvance_records n
  have hadv : n.Extends (updateStaInfo c (helloAdvance n)) := .of_eq hnum hip
  exact hadv.trans (updateNeighborInfo_extends _)

theorem Tidy.touchesOnly {e : HelloEvent} (h : Tidy n e) {x : InAddr} (hx : e.source = some x) :
    n.TouchesOnly x (e.run c n) := by
  cases e with
  | sent => cases hx
  | heard hello =>
    cases hx
    exact (heard_records h).touchesOnly
  | acked ack ipSrc =>
    cases hx
    exact (acked_records h.2).touchesOnly

theorem Tidy.extends_run {e : HelloEvent} (h : Tidy n e) : n.Extends (e.run c n) := by
  cases e with
  | sent => exact sent_extends n
  | heard hello => exact (heard_records h).toExtends
  | acked ack ipSrc => exact (acked_records h.2).toExtends

/-! ## Runs -/

theorem Node.SameHello.toExtends (h : n.SameHello n') : n.Extends n' := by
  refine .of_eq h.neighborNum fun j => ?_
  rw [(h.neighbors j).rest]

theorem HelloRun.unique {ok : Node → HelloEvent → Prop} {cf : Conf} {ext : Extern}
    (hok : ∀ n e, ok n e → Tidy n e) (h : HelloRun ok cf ext a n) : n.Unique := by
  induction h with
  | init env =>
    intro i j hi
    exact absurd hi (Nat.not_lt_zero i)
  | event env e he _ ih => exact (hok _ e he).extends_run.unique ih
  | rest hsame _ ih => exact hsame.toExtends.unique ih

/-- Records are unique, and a Hello or an acknowledgement touches its source's record only, as
long as every event is tidy. -/
theorem neighbor_records_unique_and_isolated {cf : Conf} {ext : Extern}
    (h : HelloRun Tidy cf ext a n) :
    n.Unique ∧
    (∀ c e x, Tidy n e → HelloEvent.source e = some x → n.TouchesOnly x (e.run c n)) ∧
    ∀ c hello, Room n (.heard hello) →
      (n.TouchesOnly hello.destAddr (HelloEvent.run c (.heard hello) n) ↔ Tidy n (.heard hello)) :=
  ⟨h.unique fun _ _ => id, fun _ _ _ he hx => he.touchesOnly hx,
    fun _ _ hroom => heard_touchesOnly_iff hroom⟩

/-! ## Concrete runs -/

instance (n : Node) : (e : HelloEvent) → Decidable (Tidy n e)
  | .sent => inferInstanceAs (Decidable (Room n .sent ∧ True))
  | .heard hello => inferInstanceAs (Decidable (Room n (.heard hello) ∧
      (hello.destAddr = 0 ∨ ∀ j < n.slot hello.destAddr, (n.neighbors j).ipaddr ≠ 0)))
  | .acked ack ipSrc => inferInstanceAs (Decidable (Room n (.acked ack ipSrc) ∧ n.Recorded ipSrc))

theorem busyNode_unique_and_isolated : busyNode.Unique ∧
    (∀ c e x, Tidy busyNode e → HelloEvent.source e = some x →
      busyNode.TouchesOnly x (e.run c busyNode)) ∧
    ∀ c hello, Room busyNode (.heard hello) →
      (busyNode.TouchesOnly hello.destAddr (HelloEvent.run c (.heard hello) busyNode) ↔
        Tidy busyNode (.heard hello)) :=
  neighbor_records_unique_and_isolated (busyNode_run (by decide +kernel))

/-- A Hello from 2 takes the record of node 0, and an acknowledgement from a node without a
record fills the slot of the next neighbour. -/
theorem neighbor_records_shared :
    (∃ n, Reachable {} (.described sampleLog {}) 1 n ∧ ¬ n.Unique) ∧
    ∃ n ack, Reachable {} (.described sampleLog {}) 1 n ∧ ¬ n.Recorded 5 ∧
      ¬ n.TouchesOnly 5 (HelloEvent.run (sampleCtx 0) (.acked ack 5) n) := by
  refine ⟨⟨hearAll [0, 2], hearAll_reachable _, fun hu => ?_⟩,
    Node.init (sampleCtx 0) 1, { isHelloAck := 1, channelHelloReceived := 1 },
    .init { now := 0 }, ?_, fun h => ?_⟩
  · have heq := hu 0 1 (by decide +kernel) (by decide +kernel) (by decide +kernel)
    exact absurd heq (by decide)
  · rintro ⟨j, hj, -⟩
    exact absurd hj (Nat.not_lt_zero j)
  · refine absurd (h.changed 0 fun heq => ?_).1 (Nat.not_lt_zero 0)
    have hrec := congrArg (fun nb => nb.channelHelloRemoteReceived 0) heq
    exact absurd hrec (by decide +kernel)

end AodvUU

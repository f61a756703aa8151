import AodvUU.HelloRun
import AodvUU.Neighbor

/-! # Bounds of the neighbour table

`this_host.neighbors` has twenty records, and so has the local array of `update_sta_info`; a
record has three channels. No function checks either bound. -/
namespace AodvUU

variable {c : Ctx} {n : Node} {a : InAddr}

def maxNeighbors : ℕ := 20

/-! ## What is accessed -/

/-- The slots of the first loop of `update_neighbor_info`, for the addresses it meets. -/
def noteSlots : List InAddr → Node → List ℕ
  | [], _ => []
  | a :: as, n => n.slot a :: noteSlots as (noteNeighbor n a)

def infoSlots (n : Node) : List ℕ :=
  noteSlots (heard n) n ++ List.range (updateNeighborInfo n).neighborNum

def HelloEvent.slots (c : Ctx) : HelloEvent → Node → List ℕ
  | .sent, n => infoSlots (updateStaInfo c (helloAdvance n))
  | .heard hello, n => [n.slot hello.destAddr, helloSlot (helloRecord hello n) hello.destAddr]
  | .acked _ ipSrc, n => [n.slot ipSrc]

def HelloEvent.channels : HelloEvent → List ℕ
  | .sent => List.range maxChannelNum
  | .heard hello => [hello.channel.toNat]
  | .acked ack _ => [ack.channel.toNat]

/-- How many neighbours `update_sta_info` notes in its local array. -/
def HelloEvent.current (c : Ctx) : HelloEvent → Node → Int
  | .sent, n => (updateStaInfo c (helloAdvance n)).stability.neighborNum
  | _, _ => 0

structure HelloEvent.InBounds (c : Ctx) (e : HelloEvent) (n : Node) : Prop where
  slots : ∀ j ∈ e.slots c n, j < maxNeighbors
  channels : ∀ ch ∈ e.channels, ch < maxChannelNum
  current : e.current c n ≤ maxNeighbors
  num : (e.run c n).neighborNum ≤ maxNeighbors

/-- There is a slot for every address the event makes a record for, and the channel is one of
the three. -/
def Room (n : Node) : HelloEvent → Prop
  | .sent => n.neighborNum + (n.unrecorded (heard n)).card ≤ maxNeighbors
  | .heard hello => hello.channel.toNat < maxChannelNum ∧
      (n.Recorded hello.destAddr ∨ n.neighborNum < maxNeighbors)
  | .acked ack ipSrc => ack.channel.toNat < maxChannelNum ∧
      (n.Recorded ipSrc ∨ n.neighborNum < maxNeighbors)

/-! ## Hellos received -/

theorem helloSlot_le_slot (h : n.Recorded a) : helloSlot n a ≤ n.slot a := by
  have hlt := slot_lt_iff.mpr h
  unfold helloSlot
  cases hf : (List.range n.neighborNum).find?
      (fun j => decide ((n.neighbors j).ipaddr = a ∨ (n.neighbors j).ipaddr = 0)) with
  | none =>
    have hnone := List.find?_eq_none.mp hf (n.slot a) (List.mem_range.mpr hlt)
    simp [ipaddr_slot h] at hnone
  | some j =>
    obtain ⟨-, -, hmin⟩ := List.find?_range_eq_some.mp hf
    by_contra hgt
    have hslot := hmin (n.slot a) (not_le.mp hgt)
    simp [ipaddr_slot h] at hslot

theorem slot_lt_of_room {k : ℕ} (hn : n.neighborNum ≤ k) : n.slot a < k ↔
    n.Recorded a ∨ n.neighborNum < k := by
  constructor
  · intro hlt
    by_cases hrec : n.Recorded a
    · exact .inl hrec
    · rw [slot_of_not_recorded hrec] at hlt
      exact .inr hlt
  · rintro (hrec | hlt)
    · exact (slot_lt_iff.mpr hrec).trans_le hn
    · exact (slot_le n a).trans_lt hlt

theorem heard_inBounds_iff (hn : n.neighborNum ≤ maxNeighbors) (hello : RREP) :
    (HelloEvent.heard hello).InBounds c n ↔ Room n (.heard hello) := by
  have hrec := helloRecord_records hello n
  constructor
  · intro h
    refine ⟨h.channels _ (List.mem_singleton.mpr rfl), (slot_lt_of_room hn).mp ?_⟩
    exact h.slots _ (List.mem_cons_self ..)
  · rintro ⟨hch, hroom⟩
    have hslot : n.slot hello.destAddr < maxNeighbors := (slot_lt_of_room hn).mpr hroom
    refine ⟨fun j hj => ?_, fun ch hc => ?_, ?_, ?_⟩
    · rcases List.mem_pair.mp hj with rfl | rfl
      · exact hslot
      · have hle := helloSlot_le_slot hrec.recorded
        rw [hrec.slot] at hle
        exact hle.trans_lt hslot
    · rw [List.mem_singleton.mp hc]
      exact hch
    · exact Int.natCast_nonneg _
    · have hnum : (HelloEvent.run c (.heard hello) n).neighborNum =
          max n.neighborNum (n.slot hello.destAddr + 1) := hrec.num
      omega

/-! ## Acknowledgements -/

theorem acked_inBounds_iff (hn : n.neighborNum ≤ maxNeighbors) (ack : RREPAck) (ipSrc : InAddr) :
    (HelloEvent.acked ack ipSrc).InBounds c n ↔ Room n (.acked ack ipSrc) := by
  constructor
  · intro h
    refine ⟨h.channels _ (List.mem_singleton.mpr rfl), (slot_lt_of_room hn).mp ?_⟩
    exact h.slots _ (List.mem_singleton.mpr rfl)
  · rintro ⟨hch, hroom⟩
    refine ⟨fun j hj => ?_, fun ch hc => ?_, Int.natCast_nonneg _, hn⟩
    · rw [List.mem_singleton.mp hj]
      exact (slot_lt_of_room hn).mpr hroom
    · rw [List.mem_singleton.mp hc]
      exact hch

/-! ## Hellos sent -/

theorem distinct_spec (as acc : List InAddr) (h : acc.Nodup) :
    (as.foldl (fun as a => if a ∈ as then as else as ++ [a]) acc).Nodup ∧
    (as.foldl (fun as a => if a ∈ as then as else as ++ [a]) acc).toFinset =
      acc.toFinset ∪ as.toFinset := by
  induction as generalizing acc with
  | nil => simpa using h
  | cons a as ih =>
    rw [List.foldl_cons, List.toFinset_cons, Finset.union_insert]
    split
    · next ha =>
      have hins : insert a (acc.toFinset ∪ as.toFinset) = acc.toFinset ∪ as.toFinset :=
        Finset.insert_eq_of_mem (by simp [ha])
      rw [hins]
      exact ih acc h
    · next ha =>
      have hnodup : (acc ++ [a]).Nodup := by
        rw [List.nodup_append]
        refine ⟨h, List.nodup_singleton a, fun x hx y hy => ?_⟩
        rw [List.mem_singleton.mp hy]
        rintro rfl
        exact ha hx
      obtain ⟨hn, hs⟩ := ih (acc ++ [a]) hnodup
      refine ⟨hn, hs.trans ?_⟩
      ext x
      simp only [Finset.mem_union, Finset.mem_insert, List.mem_toFinset, List.mem_append,
        List.mem_singleton]
      tauto

theorem updateStaInfo_current (n : Node) :
    (updateStaInfo c n).stability.neighborNum = ((heard n).toFinset.card : Int) := by
  obtain ⟨hn, hs⟩ := distinct_spec (heard n) [] List.nodup_nil
  rw [List.toFinset_nil, Finset.empty_union] at hs
  rw [← hs, List.toFinset_card_of_nodup hn]
  rfl

theorem card_heard_le (n : Node) (as : List InAddr) :
    as.toFinset.card ≤ n.neighborNum + (n.unrecorded as).card := by
  have hsplit := Finset.card_filter_add_card_filter_not (s := as.toFinset)
    (fun a => findNeighbor n a = none)
  have hrec : (as.toFinset.filter fun a => ¬ findNeighbor n a = none).card ≤
      (Finset.range n.neighborNum).card := by
    have hmem : ∀ b ∈ as.toFinset.filter fun a => ¬ findNeighbor n a = none, n.Recorded b := by
      intro b hb
      by_contra hnone
      exact (Finset.mem_filter.mp hb).2 (findNeighbor_eq_none.mpr hnone)
    refine Finset.card_le_card_of_injOn n.slot (fun b hb => ?_) (fun b hb d hd h => ?_)
    · exact Finset.mem_coe.mpr (Finset.mem_range.mpr (slot_lt_iff.mpr (hmem b hb)))
    · exact slot_injective (hmem b hb) (hmem d hd) h
  rw [Finset.card_range] at hrec
  have hdef : (n.unrecorded as).card =
      (as.toFinset.filter fun a => findNeighbor n a = none).card := rfl
  omega

theorem noteSlots_lt (as : List InAddr) (n : Node) :
    ∀ j ∈ noteSlots as n, j < (as.foldl noteNeighbor n).neighborNum := by
  induction as generalizing n with
  | nil =>
    intro j hj
    cases hj
  | cons a as ih =>
    intro j hj
    rcases List.mem_cons.mp hj with rfl | hj
    · have hrec := noteNeighbor_records n a
      have hnum := hrec.num
      have hmono := (Node.Extends.foldl as
        (fun n b => (noteNeighbor_records n b).toExtends) (noteNeighbor n a)).num
      rw [List.foldl_cons]
      omega
    · exact ih (noteNeighbor n a) j hj

theorem infoSlots_lt (n : Node) : ∀ j ∈ infoSlots n, j < (updateNeighborInfo n).neighborNum := by
  intro j hj
  rcases List.mem_append.mp hj with hj | hj
  · rw [updateNeighborInfo_eq, (foldl_clearGone_records _ _).1]
    exact noteSlots_lt (heard n) n j hj
  · exact List.mem_range.mp hj

theorem helloAdvance_records (n : Node) : (helloAdvance n).neighborNum = n.neighborNum ∧
    ∀ j, ((helloAdvance n).neighbors j).ipaddr = (n.neighbors j).ipaddr := by
  refine ⟨rfl, fun j => ?_⟩
  unfold helloAdvance
  dsimp only
  split_ifs <;> rfl

theorem recorded_helloAdvance (n : Node) (b : InAddr) :
    (updateStaInfo c (helloAdvance n)).Recorded b ↔ n.Recorded b := by
  obtain ⟨hnum, hip⟩ := helloAdvance_records n
  refine exists_congr fun j => and_congr ?_ ?_
  · exact Iff.of_eq (congrArg (j < ·) hnum)
  · exact Iff.of_eq (congrArg (· = b) (hip j))

theorem sent_num (n : Node) : (HelloEvent.run c .sent n).neighborNum =
    n.neighborNum + (n.unrecorded (heard n)).card := by
  have hheard : heard (updateStaInfo c (helloAdvance n)) = heard n := rfl
  have hnum : (updateStaInfo c (helloAdvance n)).neighborNum = n.neighborNum := rfl
  refine (updateNeighborInfo_num _).trans ?_
  rw [hheard, hnum, unrecorded_congr (recorded_helloAdvance n)]

theorem sent_inBounds_iff (n : Node) : HelloEvent.sent.InBounds c n ↔ Room n .sent := by
  have hnum := sent_num (c := c) n
  constructor
  · intro h
    have hle := h.num
    rw [hnum] at hle
    exact hle
  · intro h
    have hroom : n.neighborNum + (n.unrecorded (heard n)).card ≤ maxNeighbors := h
    refine ⟨fun j hj => ?_, fun ch hc => List.mem_range.mp hc, ?_, hnum.trans_le hroom⟩
    · have hlt := infoSlots_lt _ j hj
      exact hlt.trans_le (hnum.trans_le hroom)
    · have hcur : HelloEvent.current c .sent n = ((heard n).toFinset.card : Int) :=
        updateStaInfo_current (c := c) (helloAdvance n)
      have hcard := card_heard_le n (heard n)
      rw [hcur]
      exact_mod_cast hcard.trans hroom

/-! ## Runs -/

theorem inBounds_iff (hn : n.neighborNum ≤ maxNeighbors) (e : HelloEvent) :
    e.InBounds c n ↔ Room n e := by
  cases e with
  | sent => exact sent_inBounds_iff n
  | heard hello => exact heard_inBounds_iff hn hello
  | acked ack ipSrc => exact acked_inBounds_iff hn ack ipSrc

theorem HelloRun.neighborNum_le {ok : Node → HelloEvent → Prop} {cf : Conf} {ext : Extern}
    (hok : ∀ n e, ok n e → Room n e) (h : HelloRun ok cf ext a n) : n.neighborNum ≤ maxNeighbors := by
  induction h with
  | init env => exact Nat.zero_le _
  | event env e he _ ih => exact ((inBounds_iff ih e).mpr (hok _ e he)).num
  | rest hsame _ ih => exact hsame.neighborNum.trans_le ih

/-- Every access to the neighbour tables is in bounds as long as every event has room. -/
theorem neighbor_tables_in_bounds {cf : Conf} {ext : Extern} (h : HelloRun Room cf ext a n) :
    n.neighborNum ≤ maxNeighbors ∧ ∀ c e, HelloEvent.InBounds c e n ↔ Room n e := by
  have hn := h.neighborNum_le fun _ _ => id
  exact ⟨hn, fun c e => inBounds_iff hn e⟩

/-! ## Concrete runs -/

def HelloEvent.runAll (c : Ctx) (es : List HelloEvent) (n : Node) : Node :=
  es.foldl (fun n e => e.run c n) n

def HelloEvent.Allowed (ok : Node → HelloEvent → Prop) (c : Ctx) : List HelloEvent → Node → Prop
  | [], _ => True
  | e :: es, n => ok n e ∧ HelloEvent.Allowed ok c es (e.run c n)

instance HelloEvent.decidableAllowed (ok : Node → HelloEvent → Prop) [∀ n e, Decidable (ok n e)]
    (c : Ctx) : (es : List HelloEvent) → (n : Node) → Decidable (HelloEvent.Allowed ok c es n)
  | [], _ => .isTrue trivial
  | e :: es, n =>
    have := HelloEvent.decidableAllowed ok c es (e.run c n)
    inferInstanceAs (Decidable (_ ∧ _))

theorem HelloRun.runAll {ok : Node → HelloEvent → Prop} {cf : Conf} {ext : Extern} {env : Env}
    {es : List HelloEvent} (h : HelloRun ok cf ext a n)
    (hok : HelloEvent.Allowed ok ⟨cf, ext, env⟩ es n) :
    HelloRun ok cf ext a (HelloEvent.runAll ⟨cf, ext, env⟩ es n) := by
  induction es generalizing n with
  | nil => exact h
  | cons e es ih => exact ih (.event env e hok.1 h) hok.2

instance (n : Node) (a : InAddr) : Decidable (n.Recorded a) :=
  inferInstanceAs (Decidable (∃ j < n.neighborNum, (n.neighbors j).ipaddr = a))

instance (n : Node) : (e : HelloEvent) → Decidable (Room n e)
  | .sent => inferInstanceAs (Decidable (_ ≤ _))
  | .heard _ | .acked _ _ => inferInstanceAs (Decidable (_ ∧ (n.Recorded _ ∨ _)))

/-- A context in which every channel is free and clear. -/
def calmCtx (t : Time) : Ctx :=
  ⟨{}, .described sampleLog {}, { now := t, mac := fun _ => { state := 1, snr := 3 } }⟩

/-- The first Hello of a neighbour, as it arrives on a channel. -/
def helloOn (a : InAddr) (ch : BitVec 8) : RREP :=
  { rrepCreate 0 0 a 1 a (msecs (allowedHelloLoss * helloInterval)) with
    channel := ch
    helloSent := 1 }

/-- The Hello with a number, as it arrives on a channel. -/
def helloNumbered (a : InAddr) (ch : BitVec 8) (k : ℕ) : RREP :=
  { helloOn a ch with helloSent := BitVec.ofNat 32 k }

/-- The acknowledgement of that Hello, from a stable node that has heard all so far. -/
def ackNumbered (ch : BitVec 8) (k : ℕ) : RREPAck :=
  { type := aodvRrepAck, isHelloAck := 1, helloIndex := BitVec.ofNat 8 k, channel := ch
    channelHelloReceived := BitVec.ofNat 8 k, hostStability := 1 }

/-- Twelve Hellos are sent. All of 2 and every other one of 3 are heard; 2 acknowledges two in
three. -/
def busyHour : List HelloEvent :=
  (List.range 12).flatMap fun k =>
    [.heard (helloNumbered 2 0 (k + 1)), .sent] ++
    (if k % 2 = 0 then [.heard (helloNumbered 3 1 (k + 1))] else []) ++
    (if k % 3 = 0 then [] else [.acked (ackNumbered 0 (k + 1)) 2])

/-- Agent 1 with records for 2 and 3, and a full window. -/
def busyNode : Node := HelloEvent.runAll (calmCtx 0) busyHour (Node.init (calmCtx 0) 1)

theorem busyNode_run {ok : Node → HelloEvent → Prop}
    (hok : HelloEvent.Allowed ok (calmCtx 0) busyHour (Node.init (calmCtx 0) 1)) :
    HelloRun ok {} (.described sampleLog {}) 1 busyNode :=
  HelloRun.runAll (.init (calmCtx 0).env) hok

theorem busyNode_in_bounds : (busyNode.neighborNum = 2 ∧ busyNode.neighborNum ≤ maxNeighbors) ∧
    ∀ c e, HelloEvent.InBounds c e busyNode ↔ Room busyNode e := by
  have hbounds := neighbor_tables_in_bounds (n := busyNode) (busyNode_run (by decide +kernel))
  exact ⟨⟨by decide +kernel, hbounds.1⟩, hbounds.2⟩

/-- Agent 1 after one Hello from each of a number of nodes. -/
def hearAll (as : List InAddr) : Node :=
  as.foldl (fun n a => (step (sampleCtx 0) (.recv (helloFrom a 1 0)) ([], n)).2)
    (Node.init (sampleCtx 0) 1)

theorem hearAll_reachable (as : List InAddr) :
    Reachable {} (.described sampleLog {}) 1 (hearAll as) := by
  have hfold : ∀ n, Reachable {} (.described sampleLog {}) 1 n →
      Reachable {} (.described sampleLog {}) 1
        (as.foldl (fun n a => (step (sampleCtx 0) (.recv (helloFrom a 1 0)) ([], n)).2) n) := by
    induction as with
    | nil => exact fun _ h => h
    | cons b as ih => exact fun n h => ih _ (.step { now := 0 } [] (.recv (helloFrom b 1 0)) trivial h)
  exact hfold _ (.init { now := 0 })

/-- Of four interfaces the last has no place in a record, and of 21 neighbours the last has
none in the table. -/
theorem neighbor_tables_out_of_bounds :
    (∃ n, Reachable { nIfaces := 4 } (.described sampleLog { nIfaces := 4 }) 1 n ∧
      ¬ HelloEvent.InBounds (sampleCtx 0) (.heard (helloOn 2 3)) n) ∧
    ∃ n, Reachable {} (.described sampleLog {}) 1 n ∧ maxNeighbors < n.neighborNum := by
  refine ⟨⟨_, .init { now := 0 }, fun h => ?_⟩, ?_⟩
  · have hch := h.channels 3 (List.mem_singleton.mpr rfl)
    exact absurd hch (by decide)
  · exact ⟨hearAll ((List.range 21).map fun i => BitVec.ofNat 32 (i + 2)), hearAll_reachable _,
      by decide +kernel⟩

end AodvUU

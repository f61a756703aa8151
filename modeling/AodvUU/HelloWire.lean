import AodvUU.Neighbor
import AodvUU.ExtWalk

/-! # The neighbour set of a Hello as bytes

The extension that `hello_send` writes with `unidir_hack`, and what the loop of
`hello_process` reads of it. -/
namespace AodvUU
namespace HelloWire

open ByteMem

/-! ## Writing -/

/-- `memcpy` to the start of the data, and four more bytes of length. -/
def addNeighbor (b : Mem) (a : InAddr) : Mem :=
  let b := storeWord (extData rrepSize) a b
  storeWord (rrepSize + 1) (b (rrepSize + 1) + 4) b

/-- The extension for the destinations of the entries in table order. -/
def neighborSetExt (as : List InAddr) (b : Mem) : Mem :=
  as.foldl addNeighbor (b |> storeWord rrepSize rrepHelloNeighborSetExt
    |> storeWord (rrepSize + 1) (0 : BitVec 8))

def msgSize (b : Mem) : ℕ :=
  if extLength b rrepSize ≠ 0 then rrepSize + extSize b rrepSize else rrepSize

def transmit (b : Mem) : Mem := copy (msgSize b) b

/-! ## Reading -/

/-- The addresses that the inner loop reads, four bytes apart. -/
def addresses (v : Mem × ℕ) : List InAddr :=
  if extType v.1 (rrepSize + v.2) = rrepHelloNeighborSetExt then
    (List.range ((extLength v.1 (rrepSize + v.2) + 3) / 4)).map fun i =>
      loadWord 32 v.1 (extData (rrepSize + v.2) + 4 * i)
  else []

/-- `RT_UNIDIR` is cleared when the own address is read. -/
def readFlags (own : InAddr) (vs : List (Mem × ℕ)) (flags : BitVec 16) : BitVec 16 :=
  vs.foldl (fun flags v => if own ∈ addresses v then flags &&& ~~~rtUnidir else flags) flags

/-! ## What is written -/

/-- Behind the fixed struct: the type, the length in 8 bits, the last address and zeros. -/
structure Written (as : List InAddr) (b : Mem) : Prop where
  type : b rrepSize = rrepHelloNeighborSetExt
  length : b (rrepSize + 1) = BitVec.ofNat 8 (4 * as.length)
  first : as ≠ [] → loadWord 32 b (extData rrepSize) = as.getLastD 0
  rest : ∀ i, extData rrepSize + 4 ≤ i → b i = 0

theorem Written.addNeighbor {as : List InAddr} {b : Mem} (h : Written as b) (a : InAddr) :
    Written (as ++ [a]) (addNeighbor b a) := by
  have hword : wordSize 32 = 4 := rfl
  have hbyte : wordSize 8 = 1 := rfl
  have hdata : extData rrepSize = rrepSize + 2 := rfl
  unfold HelloWire.addNeighbor
  dsimp only
  constructor
  · rw [storeWord_of_outside _ _ (by omega), storeWord_of_outside _ _ (by omega)]
    exact h.type
  · rw [storeWord_byte, if_pos rfl, storeWord_of_outside _ _ (by omega), h.length,
      List.length_append, List.length_singleton, Nat.mul_add, BitVec.ofNat_add]
    rfl
  · intro _
    rw [loadWord_storeWord_of_disjoint _ _ (.inr (by omega)), loadWord_storeWord]
    simp
  · intro i hi
    rw [storeWord_of_outside _ _ (by omega), storeWord_of_outside _ _ (by omega)]
    exact h.rest i hi

theorem neighborSetExt_written {b : Mem} (hb : ∀ i, rrepSize ≤ i → b i = 0) (as : List InAddr) :
    Written as (neighborSetExt as b) := by
  unfold neighborSetExt
  induction as using List.reverseRecOn with
  | nil =>
    have hword : wordSize 8 = 1 := rfl
    have hdata : extData rrepSize = rrepSize + 2 := rfl
    refine ⟨?_, ?_, fun h => absurd rfl h, fun i hi => ?_⟩
    · rw [List.foldl_nil, storeWord_byte, if_neg (by omega), storeWord_byte, if_pos rfl]
    · rw [List.foldl_nil, storeWord_byte, if_pos rfl]
      rfl
    · rw [List.foldl_nil, storeWord_byte, if_neg (by omega), storeWord_byte, if_neg (by omega)]
      exact hb i (by omega)
  | append_singleton as a ih =>
    rw [List.foldl_append]
    exact ih.addNeighbor a

/-! ## What is read -/

variable {as : List InAddr} {b : Mem}

theorem Written.extLength (h : Written as b) (hlen : as.length ≤ 63) :
    AodvUU.extLength b rrepSize = 4 * as.length := by
  unfold AodvUU.extLength
  rw [h.length, BitVec.toNat_ofNat]
  omega

theorem Written.msgSize (h : Written as b) (hlen : as.length ≤ 63) (hne : as ≠ []) :
    msgSize b = extData rrepSize + 4 * as.length := by
  have hpos := List.length_pos_of_ne_nil hne
  have hext := h.extLength hlen
  unfold HelloWire.msgSize extSize
  rw [if_pos (by omega), hext, extData]
  omega

theorem Written.word (h : Written as b) {i : ℕ} (hi : 0 < i) :
    loadWord 32 b (extData rrepSize + 4 * i) = 0 := by
  have hzero : loadWord 32 b (extData rrepSize + 4 * i) = loadWord 32 (fun _ => 0) 0 :=
    loadWord_congr fun j _ => h.rest _ (by omega)
  rw [hzero]
  decide

theorem Written.walk (h : Written as b) (hlen : as.length ≤ 63) (hne : as ≠ []) :
    (∃ e, helloLoop.Walk (HelloWire.msgSize b) (transmit b) 0 [(transmit b, 0)] e) ∧
    addresses (transmit b, 0) = as.getLastD 0 :: List.replicate (as.length - 1) 0 := by
  have hpos := List.length_pos_of_ne_nil hne
  have hsize := h.msgSize hlen hne
  have hdata : extData rrepSize = rrepSize + 2 := rfl
  have hword : wordSize 32 = 4 := rfl
  have hbyte : ∀ i, i < HelloWire.msgSize b → transmit b i = b i := fun i hi => if_pos hi
  have htype : extType (transmit b) rrepSize = rrepHelloNeighborSetExt :=
    (hbyte _ (by omega)).trans h.type
  have hext : AodvUU.extLength (transmit b) rrepSize = 4 * as.length := by
    rw [← h.extLength hlen]
    exact congrArg BitVec.toNat (hbyte _ (by omega))
  constructor
  · refine ⟨(transmit b, _), .next ?_ ?_ (.done ?_)⟩
    · show decide _ = true
      rw [decide_eq_true_iff]
      omega
    · exact if_pos (.inr htype)
    · show ¬ decide _ = true
      have hnext : extSize (transmit b) (helloLoop.fixed + 0) = 2 + 4 * as.length :=
        congrArg (aodvExtHdrSize + ·) hext
      rw [decide_eq_true_iff, hnext]
      omega
  · refine (if_pos htype).trans ?_
    show (List.range ((AodvUU.extLength (transmit b) rrepSize + 3) / 4)).map
      (fun i => loadWord 32 (transmit b) (extData rrepSize + 4 * i)) = _
    rw [hext]
    obtain ⟨k, hk⟩ : ∃ k, as.length = k + 1 := ⟨as.length - 1, by omega⟩
    rw [hk, show (4 * (k + 1) + 3) / 4 = k + 1 by omega, List.range_succ_eq_map, List.map_cons,
      List.map_map, Nat.add_sub_cancel]
    congr 1
    · exact (loadWord_copy (by rw [hsize]; omega)).trans (h.first hne)
    · refine List.eq_replicate_iff.mpr ⟨by simp, fun x hx => ?_⟩
      obtain ⟨i, hi, rfl⟩ := List.mem_map.mp hx
      have hi := List.mem_range.mp hi
      exact (loadWord_copy (by rw [hsize]; simp; omega)).trans (h.word (Nat.succ_pos i))

theorem hasFlag_readFlags (own : InAddr) (vs : List (Mem × ℕ)) (flags : BitVec 16) :
    hasFlag (readFlags own vs flags) rtUnidir = true ↔
      hasFlag flags rtUnidir = true ∧ own ∉ vs.flatMap addresses := by
  induction vs generalizing flags with
  | nil => simp [readFlags]
  | cons v vs ih =>
    have hcons : readFlags own (v :: vs) flags = readFlags own vs
      (if own ∈ addresses v then flags &&& ~~~rtUnidir else flags) := rfl
    rw [hcons, ih, List.flatMap_cons, List.mem_append]
    by_cases hv : own ∈ addresses v
    · simp [hv, hasFlag_cleared]
    · simp [hv]

end HelloWire

/-! ## The round trip -/

open ByteMem HelloWire

/-- Every listed address is the last one or zero, and zero is listed where there are several. -/
structure NeighborSetCarried (as : List InAddr) : Prop where
  covered : ∀ a ∈ as, a = as.getLastD 0 ∨ a = 0
  zero : 1 < as.length → 0 ∈ as

theorem helloNeighborSet_eq {n : Node} (hlen : (heard n).length ≤ 63) (hne : heard n ≠ []) :
    helloNeighborSet n = (heard n).getLastD 0 :: List.replicate ((heard n).length - 1) 0 := by
  obtain ⟨k, hk⟩ : ∃ k, (heard n).length = k + 1 :=
    ⟨_, (Nat.succ_pred_eq_of_pos (List.length_pos_of_ne_nil hne)).symm⟩
  have hlength : 4 * (heard n).length % 256 / 4 = k + 1 := by omega
  unfold helloNeighborSet
  rw [hlength, hk, Nat.add_sub_cancel]

theorem neighborSetCarried_iff {as : List InAddr} (hne : as ≠ []) :
    (∀ a, a ∈ as.getLastD 0 :: List.replicate (as.length - 1) 0 ↔ a ∈ as) ↔
      NeighborSetCarried as := by
  have hpos := List.length_pos_of_ne_nil hne
  have hlast : as.getLastD 0 ∈ as := by
    rw [List.getLastD_eq_getLast?, List.getLast?_eq_getLast_of_ne_nil hne]
    exact List.getLast_mem hne
  simp only [List.mem_cons, List.mem_replicate]
  constructor
  · intro h
    refine ⟨fun a ha => ?_, fun hlen => ?_⟩
    · rcases (h a).mpr ha with ha | ⟨-, ha⟩
      · exact .inl ha
      · exact .inr ha
    · exact (h 0).mp (.inr ⟨by omega, rfl⟩)
  · intro h a
    constructor
    · rintro (rfl | ⟨hlen, rfl⟩)
      · exact hlast
      · exact h.zero (by omega)
    · intro ha
      rcases h.covered a ha with ha' | rfl
      · exact .inl ha'
      · by_cases hlen : as.length - 1 = 0
        · refine .inl ?_
          obtain ⟨x, rfl⟩ := List.length_eq_one_iff.mp (show as.length = 1 by omega)
          simpa using ha
        · exact .inr ⟨hlen, rfl⟩

/-- The neighbour set arrives as the set of entries heard, and clears `RT_UNIDIR` at just those
receivers, exactly when it holds no address but its last and zero. -/
theorem hello_neighbor_set_round_trip_iff (n : Node) (hlen : (heard n).length ≤ 63) (b : Mem)
    (hb : ∀ i, rrepSize ≤ i → b i = 0) :
    ∃ vs e, helloLoop.Walk (msgSize (neighborSetExt (heard n) b))
        (transmit (neighborSetExt (heard n) b)) 0 vs e ∧
      vs.flatMap addresses = helloNeighborSet n ∧
      (((∀ a, a ∈ vs.flatMap addresses ↔ a ∈ heard n) ∧
        ∀ own flags, ¬ hasFlag (readFlags own vs (flags ||| rtUnidir)) rtUnidir ↔ own ∈ heard n) ↔
      NeighborSetCarried (heard n)) := by
  have hw := neighborSetExt_written hb (heard n)
  -- the flag is cleared exactly at the receivers read
  have hflags : ∀ (vs : List (Mem × ℕ)) (own : InAddr) (flags : BitVec 16),
      ¬ hasFlag (readFlags own vs (flags ||| rtUnidir)) rtUnidir ↔ own ∈ vs.flatMap addresses := by
    intro vs own flags
    rw [hasFlag_readFlags, hasFlag_set (by decide)]
    simp
  have hiff : ∀ vs : List (Mem × ℕ), ((∀ a, a ∈ vs.flatMap addresses ↔ a ∈ heard n) ∧
      ∀ (own : InAddr) (flags : BitVec 16),
        ¬ hasFlag (readFlags own vs (flags ||| rtUnidir)) rtUnidir ↔ own ∈ heard n) ↔
      ∀ a, a ∈ vs.flatMap addresses ↔ a ∈ heard n := by
    intro vs
    refine ⟨fun h => h.1, fun h => ⟨h, fun own flags => ?_⟩⟩
    rw [hflags, h]
  by_cases hne : heard n = []
  · have hext : extLength (neighborSetExt (heard n) b) rrepSize = 0 := by
      rw [hw.extLength hlen, hne]
      rfl
    have hsize : msgSize (neighborSetExt (heard n) b) = rrepSize := if_neg (not_not.mpr hext)
    refine ⟨[], _, .done ?_, ?_, ?_⟩
    · rw [hsize]
      decide
    · unfold helloNeighborSet
      rw [hne]
      rfl
    · rw [hiff, hne]
      exact ⟨fun _ => ⟨nofun, nofun⟩, fun _ a => .rfl⟩
  · obtain ⟨⟨e, hwalk⟩, haddr⟩ := hw.walk hlen hne
    refine ⟨_, e, hwalk, ?_, ?_⟩
    · rw [List.flatMap_singleton, haddr, helloNeighborSet_eq hlen hne]
    · rw [hiff, List.flatMap_singleton, haddr]
      exact neighborSetCarried_iff hne

/-! ## Two neighbours -/

def hackConf : Conf := { unidirHack := true }

/-- Agent 1 after Hellos from the addresses, the last one first. -/
def hearing : List InAddr → Node
  | [] => Node.init ⟨hackConf, .described sampleLog hackConf, { now := 0 }⟩ 1
  | a :: as => (step ⟨hackConf, .described sampleLog hackConf, { now := 0 }⟩
      (.recv (helloFrom a 7 0)) ([], hearing as)).2

theorem hearing_reachable (as : List InAddr) :
    Reachable hackConf (.described sampleLog hackConf) 1 (hearing as) := by
  induction as with
  | nil => exact .init { now := 0 }
  | cons a as ih => exact .step { now := 0 } [] (.recv (helloFrom a 7 0)) trivial ih

theorem zero_and_neighbor_carried : heard (hearing [2, 0]) = [0, 2] ∧ ∃ vs e,
    helloLoop.Walk (msgSize (neighborSetExt (heard (hearing [2, 0])) fun _ => 0))
      (transmit (neighborSetExt (heard (hearing [2, 0])) fun _ => 0)) 0 vs e ∧
    (∀ a, a ∈ vs.flatMap addresses ↔ a ∈ heard (hearing [2, 0])) ∧
    ∀ own flags, ¬ hasFlag (readFlags own vs (flags ||| rtUnidir)) rtUnidir ↔
      own ∈ heard (hearing [2, 0]) := by
  have hheard : heard (hearing [2, 0]) = [0, 2] := by decide +kernel
  obtain ⟨vs, e, hwalk, -, hiff⟩ := hello_neighbor_set_round_trip_iff (hearing [2, 0])
    (by rw [hheard]; decide) (fun _ => 0) fun _ _ => rfl
  have hcarried : NeighborSetCarried (heard (hearing [2, 0])) := by
    rw [hheard]
    exact ⟨by simp, by simp⟩
  exact ⟨hheard, vs, e, hwalk, hiff.mpr hcarried⟩

/-- The sender lists 2 and 3, and the receivers read 3 and 0. -/
theorem two_neighbors_not_carried : ¬ ∀ n, Reachable hackConf (.described sampleLog hackConf) 1 n →
    (heard n).length ≤ 63 → ∀ b : Mem, (∀ i, rrepSize ≤ i → b i = 0) →
    ∀ vs e, helloLoop.Walk (msgSize (neighborSetExt (heard n) b))
      (transmit (neighborSetExt (heard n) b)) 0 vs e →
    ∀ a, a ∈ vs.flatMap addresses ↔ a ∈ heard n := by
  intro hall
  have hheard : heard (hearing [3, 2]) = [2, 3] := by decide +kernel
  have hlen : (heard (hearing [3, 2])).length ≤ 63 := by rw [hheard]; decide
  have hne : heard (hearing [3, 2]) ≠ [] := by rw [hheard]; decide
  have hwritten := neighborSetExt_written (b := fun _ => 0) (fun _ _ => rfl) (heard (hearing [3, 2]))
  obtain ⟨⟨e, hwalk⟩, haddr⟩ := hwritten.walk hlen hne
  have hround := hall _ (hearing_reachable _) hlen (fun _ => 0) (fun _ _ => rfl) _ e hwalk 2
  rw [List.flatMap_singleton, haddr, hheard] at hround
  exact absurd hround (by decide)

end AodvUU

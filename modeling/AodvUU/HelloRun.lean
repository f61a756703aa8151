import Mathlib.Data.Finset.Card
import Mathlib.Data.List.Dedup
import AodvUU.Rrep

/-! # Runs of the Hello protocol

What `hello_send`, `hello_process` and `rrep_ack_process` do to the neighbour table and the
Hello window of one agent, as three events; everything else the agent does leaves both alone. -/
namespace AodvUU

/-! ## Slots of the neighbour table -/

/-- The slot of the first record of `a`, or the one behind the last record. -/
def Node.slot (n : Node) (a : InAddr) : ℕ := (findNeighbor n a).getD n.neighborNum

def Node.Recorded (n : Node) (a : InAddr) : Prop := ∃ j < n.neighborNum, (n.neighbors j).ipaddr = a

variable {n n' : Node} {a : InAddr}

theorem findNeighbor_eq_some {j : ℕ} : findNeighbor n a = some j ↔
    j < n.neighborNum ∧ (n.neighbors j).ipaddr = a ∧ ∀ i < j, (n.neighbors i).ipaddr ≠ a := by
  unfold findNeighbor
  rw [List.find?_range_eq_some]
  simp only [decide_eq_true_eq, List.mem_range, Bool.not_eq_true', decide_eq_false_iff_not]
  tauto

theorem findNeighbor_eq_none : findNeighbor n a = none ↔ ¬ n.Recorded a := by
  unfold findNeighbor Node.Recorded
  rw [List.find?_eq_none]
  simp

theorem slot_le (n : Node) (a : InAddr) : n.slot a ≤ n.neighborNum := by
  unfold Node.slot
  cases h : findNeighbor n a with
  | none => exact le_refl _
  | some j => exact (findNeighbor_eq_some.mp h).1.le

theorem slot_lt_iff : n.slot a < n.neighborNum ↔ n.Recorded a := by
  constructor
  · intro hlt
    by_contra hnone
    rw [Node.slot, findNeighbor_eq_none.mpr hnone] at hlt
    exact lt_irrefl _ hlt
  · intro hrec
    cases h : findNeighbor n a with
    | none => exact absurd hrec (findNeighbor_eq_none.mp h)
    | some j =>
      rw [Node.slot, h]
      exact (findNeighbor_eq_some.mp h).1

theorem slot_of_not_recorded (h : ¬ n.Recorded a) : n.slot a = n.neighborNum :=
  le_antisymm (slot_le n a) (not_lt.mp fun hlt => h (slot_lt_iff.mp hlt))

theorem ipaddr_slot (h : n.Recorded a) : (n.neighbors (n.slot a)).ipaddr = a := by
  cases hf : findNeighbor n a with
  | none => exact absurd h (findNeighbor_eq_none.mp hf)
  | some j =>
    rw [Node.slot, hf]
    exact (findNeighbor_eq_some.mp hf).2.1

theorem ipaddr_ne_of_lt_slot {i : ℕ} (h : i < n.slot a) : (n.neighbors i).ipaddr ≠ a := by
  intro hi
  cases hf : findNeighbor n a with
  | none => exact findNeighbor_eq_none.mp hf ⟨i, h.trans_le (slot_le n a), hi⟩
  | some j =>
    rw [Node.slot, hf] at h
    exact (findNeighbor_eq_some.mp hf).2.2 i h hi

theorem slot_eq {j : ℕ} (hle : j ≤ n.neighborNum) (hbefore : ∀ i < j, (n.neighbors i).ipaddr ≠ a)
    (hat : j < n.neighborNum → (n.neighbors j).ipaddr = a) : n.slot a = j := by
  rcases lt_trichotomy (n.slot a) j with hlt | heq | hgt
  · have hrec := slot_lt_iff.mp (hlt.trans_le hle)
    exact absurd (ipaddr_slot hrec) (hbefore _ hlt)
  · exact heq
  · exact absurd (hat (hgt.trans_le (slot_le n a))) (ipaddr_ne_of_lt_slot hgt)

theorem slot_injective {b : InAddr} (ha : n.Recorded a) (hb : n.Recorded b)
    (h : n.slot a = n.slot b) : a = b := by
  rw [← ipaddr_slot ha, ← ipaddr_slot hb, h]

def Node.Unique (n : Node) : Prop :=
  ∀ i j, i < n.neighborNum → j < n.neighborNum → (n.neighbors i).ipaddr = (n.neighbors j).ipaddr →
    i = j

/-- The records stay those of the same addresses; others may follow, which are about new ones. -/
structure Node.Extends (n n' : Node) : Prop where
  num : n.neighborNum ≤ n'.neighborNum
  ipaddr : ∀ j < n.neighborNum, (n'.neighbors j).ipaddr = (n.neighbors j).ipaddr
  unique : n.Unique → n'.Unique

namespace Node.Extends

theorem refl (n : Node) : n.Extends n := ⟨le_refl _, fun _ _ => rfl, id⟩

theorem trans {n'' : Node} (h : n.Extends n') (h' : n'.Extends n'') : n.Extends n'' :=
  ⟨h.num.trans h'.num, fun j hj => (h'.ipaddr j (hj.trans_le h.num)).trans (h.ipaddr j hj),
    fun hu => h'.unique (h.unique hu)⟩

theorem of_eq (hnum : n'.neighborNum = n.neighborNum)
    (hip : ∀ j, (n'.neighbors j).ipaddr = (n.neighbors j).ipaddr) : n.Extends n' := by
  refine ⟨hnum.ge, fun j _ => hip j, fun hu i j hi hj h => ?_⟩
  rw [hip i, hip j] at h
  exact hu i j (hnum ▸ hi) (hnum ▸ hj) h

theorem foldl {α : Type*} {f : Node → α → Node} (l : List α)
    (h : ∀ (n : Node) (x : α), n.Extends (f n x)) (n : Node) : n.Extends (l.foldl f n) := by
  induction l generalizing n with
  | nil => exact refl n
  | cons x l ih => exact (h n x).trans (ih (f n x))

theorem recorded {b : InAddr} (h : n.Extends n') (hb : n.Recorded b) : n'.Recorded b := by
  obtain ⟨j, hj, hip⟩ := hb
  exact ⟨j, hj.trans_le h.num, (h.ipaddr j hj).trans hip⟩

theorem slot_eq {b : InAddr} (h : n.Extends n') (hb : n.Recorded b) : n'.slot b = n.slot b := by
  have hlt := slot_lt_iff.mpr hb
  refine AodvUU.slot_eq (hlt.le.trans h.num) (fun i hi => ?_) (fun _ => ?_)
  · rw [h.ipaddr i (hi.trans hlt)]
    exact ipaddr_ne_of_lt_slot hi
  · rw [h.ipaddr _ hlt]
    exact ipaddr_slot hb

theorem slot_ge {b : InAddr} (h : n.Extends n') (hb : ¬ n.Recorded b) :
    n.neighborNum ≤ n'.slot b := by
  by_contra hlt
  have hrec : n'.Recorded b := slot_lt_iff.mp ((not_le.mp hlt).trans_le h.num)
  have hip := h.ipaddr (n'.slot b) (not_le.mp hlt)
  rw [ipaddr_slot hrec] at hip
  exact hb ⟨_, not_le.mp hlt, hip.symm⟩

end Node.Extends

/-- A record for `a` is found, or made behind the others. -/
structure Node.Records (n : Node) (a : InAddr) (n' : Node) : Prop where
  num : n'.neighborNum = max n.neighborNum (n.slot a + 1)
  ipaddr : (n'.neighbors (n.slot a)).ipaddr = a
  others : ∀ j, j ≠ n.slot a → n'.neighbors j = n.neighbors j

namespace Node.Records

variable (h : n.Records a n')
include h

theorem num_of_recorded (hrec : n.Recorded a) : n'.neighborNum = n.neighborNum := by
  have hlt := slot_lt_iff.mpr hrec
  rw [h.num]
  omega

theorem num_of_not_recorded (hrec : ¬ n.Recorded a) : n'.neighborNum = n.neighborNum + 1 := by
  rw [h.num, slot_of_not_recorded hrec]
  omega

theorem slot : n'.slot a = n.slot a := by
  have hnum := h.num
  refine slot_eq (by omega) (fun i hi => ?_) (fun _ => h.ipaddr)
  rw [h.others i hi.ne]
  exact ipaddr_ne_of_lt_slot hi

theorem recorded : n'.Recorded a := by
  have hnum := h.num
  refine slot_lt_iff.mp ?_
  rw [h.slot]
  omega

theorem ipaddr_of_lt {j : ℕ} (hj : j < n.neighborNum) :
    (n'.neighbors j).ipaddr = (n.neighbors j).ipaddr := by
  by_cases hja : j = n.slot a
  · subst hja
    rw [h.ipaddr, ipaddr_slot (slot_lt_iff.mp hj)]
  · rw [h.others j hja]

theorem recorded_iff {b : InAddr} (hb : b ≠ a) : n'.Recorded b ↔ n.Recorded b := by
  have hnum := h.num
  constructor
  · rintro ⟨j, hj, hip⟩
    have hja : j ≠ n.slot a := by
      rintro rfl
      exact hb (hip.symm.trans h.ipaddr)
    have hle := slot_le n a
    exact ⟨j, by omega, by rw [← hip, h.others j hja]⟩
  · rintro ⟨j, hj, hip⟩
    exact ⟨j, by omega, (h.ipaddr_of_lt hj).trans hip⟩

theorem toExtends : n.Extends n' := by
  have hnum := h.num
  refine ⟨by omega, fun j hj => h.ipaddr_of_lt hj, fun hu i j hi hj hij => ?_⟩
  have hle := slot_le n a
  -- A record behind the others stands in the slot of `a`, which had no record before.
  have hnew : ∀ k, k < n'.neighborNum → n.neighborNum ≤ k → k = n.slot a ∧ ¬ n.Recorded a := by
    intro k hk hk'
    have hka : k = n.slot a := by omega
    exact ⟨hka, fun hrec => absurd (slot_lt_iff.mpr hrec) (by omega)⟩
  rcases Nat.lt_or_ge i n.neighborNum with hi' | hi' <;>
    rcases Nat.lt_or_ge j n.neighborNum with hj' | hj'
  · rw [h.ipaddr_of_lt hi', h.ipaddr_of_lt hj'] at hij
    exact hu i j hi' hj' hij
  · obtain ⟨rfl, hrec⟩ := hnew j hj hj'
    rw [h.ipaddr, h.ipaddr_of_lt hi'] at hij
    exact absurd ⟨i, hi', hij⟩ hrec
  · obtain ⟨rfl, hrec⟩ := hnew i hi hi'
    rw [h.ipaddr, h.ipaddr_of_lt hj'] at hij
    exact absurd ⟨j, hj', hij.symm⟩ hrec
  · rw [(hnew i hi hi').1, (hnew j hj hj').1]

end Node.Records

theorem records_found {j : ℕ} (hj : findNeighbor n a = some j) {f : NeighborInfo → NeighborInfo}
    (hf : ∀ nb, (f nb).ipaddr = nb.ipaddr) : n.Records a (n.modNeighbor j f) := by
  have hslot : n.slot a = j := by rw [Node.slot, hj]; rfl
  obtain ⟨hlt, hip, -⟩ := findNeighbor_eq_some.mp hj
  constructor
  · rw [hslot]
    exact (max_eq_left hlt).symm
  · rw [hslot]
    simp [Node.modNeighbor, hf, hip]
  · intro i hi
    rw [hslot] at hi
    simp [Node.modNeighbor, hi]

theorem records_made (hnone : findNeighbor n a = none) {f : NeighborInfo → NeighborInfo}
    (hf : ∀ nb, (f nb).ipaddr = a) : n.Records a
      { n.modNeighbor n.neighborNum f with neighborNum := n.neighborNum + 1 } := by
  have hslot : n.slot a = n.neighborNum := by rw [Node.slot, hnone]; rfl
  constructor
  · rw [hslot]
    exact (max_eq_right (Nat.le_succ _)).symm
  · rw [hslot]
    simp [Node.modNeighbor, hf]
  · intro i hi
    rw [hslot] at hi
    simp [Node.modNeighbor, hi]

/-! ## The events -/

inductive HelloEvent where
  | sent
  | heard (hello : RREP)
  | acked (ack : RREPAck) (ipSrc : InAddr)

def HelloEvent.run (c : Ctx) : HelloEvent → Node → Node
  | .sent, n => updateNeighborInfo (updateStaInfo c (helloAdvance n))
  | .heard hello, n => helloCount hello (helloRecord hello n)
  | .acked ack ipSrc, n => helloAckProcess ack ipSrc n

/-- The same record, except for what lies behind its last array of Hello slots. -/
structure NeighborInfo.Same (nb nb' : NeighborInfo) : Prop where
  rest : nb' = { nb with hostStabilitySequence := nb'.hostStabilitySequence }
  stable : ∀ k < maxSequenceLen, nb'.hostStabilitySequence k = nb.hostStabilitySequence k

/-- The Hello data stays; behind the arrays of Hello slots anything may lie. -/
structure Node.SameHello (n n' : Node) : Prop where
  ipaddr : n'.ipaddr = n.ipaddr
  neighbors : ∀ j, (n.neighbors j).Same (n'.neighbors j)
  neighborNum : n'.neighborNum = n.neighborNum
  stability : n'.stability = n.stability
  helloHead : n'.helloHead = n.helloHead
  helloTail : n'.helloTail = n.helloTail
  series : ∀ k < maxSequenceLen, n'.stabilitySequence k = n.stabilitySequence k

/-- The runs of one agent, of which each Hello event meets a condition on the state before it. -/
inductive HelloRun (ok : Node → HelloEvent → Prop) (cf : Conf) (ext : Extern) (a : InAddr) :
    Node → Prop
  | init (env : Env) : HelloRun ok cf ext a (Node.init ⟨cf, ext, env⟩ a)
  | event {n : Node} (env : Env) (e : HelloEvent) (hok : ok n e) :
      HelloRun ok cf ext a n → HelloRun ok cf ext a (e.run ⟨cf, ext, env⟩ n)
  | rest {n n' : Node} (h : n.SameHello n') : HelloRun ok cf ext a n → HelloRun ok cf ext a n'

/-! ## Records made by the events -/

variable {c : Ctx}

theorem helloRecord_records (hello : RREP) (n : Node) :
    n.Records hello.destAddr (helloRecord hello n) := by
  unfold helloRecord
  cases h : findNeighbor n hello.destAddr with
  | some j => exact records_found h fun _ => rfl
  | none => exact records_made h fun _ => rfl

/-- The body of the first loop of `update_neighbor_info`. -/
def noteNeighbor (n : Node) (a : InAddr) : Node :=
  match findNeighbor n a with
  | some j => n.modNeighbor j fun nb => { nb with isValid := 1 }
  | none =>
    { n.modNeighbor n.neighborNum
        (fun nb => { nb with ipaddr := a, neighborSta := 0, isValid := 1 }) with
      neighborNum := n.neighborNum + 1 }

theorem noteNeighbor_records (n : Node) (a : InAddr) : n.Records a (noteNeighbor n a) := by
  unfold noteNeighbor
  cases h : findNeighbor n a with
  | some j => exact records_found h fun _ => rfl
  | none => exact records_made h fun _ => rfl

/-! ## What stays -/

/-- The names, the states and the validity of records apart, the records are the same. -/
def NeighborInfo.SameCounts (nb nb' : NeighborInfo) : Prop :=
  nb' = { nb with
    ipaddr := nb'.ipaddr, neighborSta := nb'.neighborSta, isValid := nb'.isValid }

/-- Only that, the number of records and the stability of the agent differ. -/
structure Node.Relabels (n n' : Node) : Prop where
  neighbors : ∀ j, (n.neighbors j).SameCounts (n'.neighbors j)
  ipaddr : n'.ipaddr = n.ipaddr
  tbl : n'.tbl = n.tbl
  helloHead : n'.helloHead = n.helloHead
  helloTail : n'.helloTail = n.helloTail
  stabilitySequence : n'.stabilitySequence = n.stabilitySequence

namespace Node.Relabels

theorem refl (n : Node) : n.Relabels n := ⟨fun _ => rfl, rfl, rfl, rfl, rfl, rfl⟩

theorem trans {n'' : Node} (h : n.Relabels n') (h' : n'.Relabels n'') : n.Relabels n'' := by
  refine ⟨fun j => ?_, h'.ipaddr.trans h.ipaddr, h'.tbl.trans h.tbl,
    h'.helloHead.trans h.helloHead, h'.helloTail.trans h.helloTail,
    h'.stabilitySequence.trans h.stabilitySequence⟩
  have hfirst := h.neighbors j
  have hsecond := h'.neighbors j
  unfold NeighborInfo.SameCounts at hfirst hsecond ⊢
  rw [hsecond, hfirst]

theorem foldl {α : Type*} {f : Node → α → Node} (l : List α)
    (h : ∀ (n : Node) (x : α), n.Relabels (f n x)) (n : Node) : n.Relabels (l.foldl f n) := by
  induction l generalizing n with
  | nil => exact refl n
  | cons x l ih => exact (h n x).trans (ih (f n x))

theorem modNeighbor (j : ℕ) {f : NeighborInfo → NeighborInfo}
    (hf : ∀ nb : NeighborInfo, nb.SameCounts (f nb))
    (n : Node) : n.Relabels (n.modNeighbor j f) := by
  refine ⟨fun i => ?_, rfl, rfl, rfl, rfl, rfl⟩
  by_cases hij : i = j
  · subst hij
    simpa [Node.modNeighbor] using hf _
  · simp [Node.modNeighbor, hij, NeighborInfo.SameCounts]

end Node.Relabels

theorem helloRecord_relabels (hello : RREP) (n : Node) : n.Relabels (helloRecord hello n) := by
  unfold helloRecord
  cases findNeighbor n hello.destAddr with
  | some j =>
    refine .modNeighbor j (fun _ => ?_) n
    exact rfl
  | none =>
    have hmod := Node.Relabels.modNeighbor n.neighborNum (f := fun nb =>
      { nb with ipaddr := hello.destAddr, neighborSta := hello.res1.toNat }) (fun _ => rfl) n
    exact ⟨hmod.neighbors, rfl, rfl, rfl, rfl, rfl⟩

theorem noteNeighbor_relabels (n : Node) (a : InAddr) : n.Relabels (noteNeighbor n a) := by
  unfold noteNeighbor
  cases findNeighbor n a with
  | some j =>
    refine .modNeighbor j (fun _ => ?_) n
    exact rfl
  | none =>
    have hmod := Node.Relabels.modNeighbor n.neighborNum (f := fun nb =>
      { nb with ipaddr := a, neighborSta := 0, isValid := 1 }) (fun _ => rfl) n
    exact ⟨hmod.neighbors, rfl, rfl, rfl, rfl, rfl⟩

/-! ## Sending -/

theorem heard_congr (h : n'.tbl = n.tbl) : heard n' = heard n := by
  unfold heard Node.entries
  rw [h]

/-- The body of the second loop of `update_neighbor_info`. -/
def clearGone (n : Node) (j : ℕ) : Node :=
  if (n.neighbors j).isValid ≠ 0 ∧ (n.neighbors j).ipaddr ∉ heard n then
    n.modNeighbor j fun nb => { nb with isValid := 0 }
  else n

theorem updateNeighborInfo_eq (n : Node) : updateNeighborInfo n =
    (List.range ((heard n).foldl noteNeighbor n).neighborNum).foldl clearGone
      ((heard n).foldl noteNeighbor n) := rfl

theorem clearGone_relabels (n : Node) (j : ℕ) : n.Relabels (clearGone n j) := by
  unfold clearGone
  split
  · refine .modNeighbor j (fun _ => ?_) n
    exact rfl
  · exact .refl n

theorem clearGone_records (n : Node) (j : ℕ) : (clearGone n j).neighborNum = n.neighborNum ∧
    ∀ i, ((clearGone n j).neighbors i).ipaddr = (n.neighbors i).ipaddr := by
  unfold clearGone
  split
  · refine ⟨rfl, fun i => ?_⟩
    by_cases hij : i = j
    · subst hij
      simp [Node.modNeighbor]
    · simp [Node.modNeighbor, hij]
  · exact ⟨rfl, fun _ => rfl⟩

theorem foldl_clearGone_records (l : List ℕ) (n : Node) :
    (l.foldl clearGone n).neighborNum = n.neighborNum ∧
    ∀ i, ((l.foldl clearGone n).neighbors i).ipaddr = (n.neighbors i).ipaddr := by
  induction l generalizing n with
  | nil => exact ⟨rfl, fun _ => rfl⟩
  | cons j l ih =>
    obtain ⟨hnum, hip⟩ := clearGone_records n j
    obtain ⟨hnum', hip'⟩ := ih (clearGone n j)
    exact ⟨hnum'.trans hnum, fun i => (hip' i).trans (hip i)⟩

theorem updateNeighborInfo_relabels (n : Node) : n.Relabels (updateNeighborInfo n) := by
  rw [updateNeighborInfo_eq]
  exact (Node.Relabels.foldl _ noteNeighbor_relabels n).trans (.foldl _ clearGone_relabels _)

theorem updateNeighborInfo_extends (n : Node) : n.Extends (updateNeighborInfo n) := by
  rw [updateNeighborInfo_eq]
  have hnote := Node.Extends.foldl (heard n) (fun n a => (noteNeighbor_records n a).toExtends) n
  obtain ⟨hnum, hip⟩ := foldl_clearGone_records
    (List.range ((heard n).foldl noteNeighbor n).neighborNum) ((heard n).foldl noteNeighbor n)
  exact hnote.trans (.of_eq hnum hip)

/-- The addresses without a record among those that are heard. -/
def Node.unrecorded (n : Node) (as : List InAddr) : Finset InAddr :=
  as.toFinset.filter fun a => findNeighbor n a = none

theorem mem_unrecorded {as : List InAddr} {b : InAddr} :
    b ∈ n.unrecorded as ↔ b ∈ as ∧ ¬ n.Recorded b := by
  unfold Node.unrecorded
  rw [Finset.mem_filter, List.mem_toFinset, findNeighbor_eq_none]

theorem unrecorded_congr {as : List InAddr} (h : ∀ b, n'.Recorded b ↔ n.Recorded b) :
    n'.unrecorded as = n.unrecorded as := by
  ext b
  rw [mem_unrecorded, mem_unrecorded, h b]

theorem foldl_noteNeighbor_num (as : List InAddr) (n : Node) :
    (as.foldl noteNeighbor n).neighborNum = n.neighborNum + (n.unrecorded as).card := by
  induction as generalizing n with
  | nil => rfl
  | cons a as ih =>
    have hrec := noteNeighbor_records n a
    rw [List.foldl_cons, ih]
    by_cases ha : n.Recorded a
    · have hset : n.unrecorded (a :: as) = (noteNeighbor n a).unrecorded as := by
        ext b
        rw [mem_unrecorded, mem_unrecorded, List.mem_cons]
        by_cases hb : b = a
        · subst hb
          simp [ha, hrec.recorded]
        · simp [hb, hrec.recorded_iff hb]
      rw [hset, hrec.num_of_recorded ha]
    · have hset : n.unrecorded (a :: as) = insert a ((noteNeighbor n a).unrecorded as) := by
        ext b
        rw [Finset.mem_insert, mem_unrecorded, mem_unrecorded, List.mem_cons]
        by_cases hb : b = a
        · subst hb
          simp [ha]
        · simp [hb, hrec.recorded_iff hb]
      have hfresh : a ∉ (noteNeighbor n a).unrecorded as := fun h =>
        (mem_unrecorded.mp h).2 hrec.recorded
      rw [hset, Finset.card_insert_of_notMem hfresh, hrec.num_of_not_recorded ha]
      omega

theorem updateNeighborInfo_num (n : Node) : (updateNeighborInfo n).neighborNum =
    n.neighborNum + (n.unrecorded (heard n)).card := by
  rw [updateNeighborInfo_eq, (foldl_clearGone_records _ _).1, foldl_noteNeighbor_num]

end AodvUU

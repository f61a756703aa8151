import AodvUU.NeighborBounds

/-! # Changes of the neighbourhood

`update_sta_info` counts how the neighbours that are heard differ from the records marked valid,
and `update_neighbor_info` marks the records so that they agree. -/
namespace AodvUU

variable {c : Ctx} {n n' : Node} {a b : InAddr}

/-! ## The two sets -/

def Node.current (n : Node) : Finset InAddr := (heard n).toFinset

def Node.tracked (n : Node) : Finset InAddr :=
  ((Finset.range n.neighborNum).filter fun j => (n.neighbors j).isValid = 1).image
    fun j => (n.neighbors j).ipaddr

def Node.known (n : Node) : Finset InAddr :=
  (Finset.range n.neighborNum).image fun j => (n.neighbors j).ipaddr

def Node.Flagged (n : Node) : Prop :=
  ∀ j < n.neighborNum, (n.neighbors j).isValid = 0 ∨ (n.neighbors j).isValid = 1

theorem mem_tracked : a ∈ n.tracked ↔
    ∃ j < n.neighborNum, (n.neighbors j).isValid = 1 ∧ (n.neighbors j).ipaddr = a := by
  unfold Node.tracked
  simp only [Finset.mem_image, Finset.mem_filter, Finset.mem_range, and_assoc]

theorem mem_known : a ∈ n.known ↔ n.Recorded a := by
  unfold Node.known Node.Recorded
  simp only [Finset.mem_image, Finset.mem_range]

theorem Node.Flagged.ne_zero_iff (h : n.Flagged) {j : ℕ} (hj : j < n.neighborNum) :
    (n.neighbors j).isValid ≠ 0 ↔ (n.neighbors j).isValid = 1 := by
  have hflag := h j hj
  omega

/-! ## Counting the changes -/

theorem countP_eq_card {α : Type*} [DecidableEq α] {l : List α} (h : l.Nodup) (p : α → Bool) :
    l.countP p = (l.toFinset.filter fun x => p x).card := by
  rw [List.countP_eq_length_filter, ← List.toFinset_card_of_nodup (h.filter p),
    List.toFinset_filter]

theorem appeared_eq (n : Node) : ((heard n).foldl (fun as a => if a ∈ as then as else as ++ [a])
    []).countP (fun a => ¬ (List.range n.neighborNum).any fun j =>
      (n.neighbors j).ipaddr = a ∧ (n.neighbors j).isValid = 1) = (n.current \ n.tracked).card := by
  obtain ⟨hnodup, hset⟩ := distinct_spec (heard n) [] List.nodup_nil
  rw [List.toFinset_nil, Finset.empty_union] at hset
  rw [countP_eq_card hnodup, hset]
  refine congrArg Finset.card (Finset.ext fun a => ?_)
  rw [Finset.mem_filter, Finset.mem_sdiff, mem_tracked]
  refine and_congr Iff.rfl ?_
  simp [and_comm]

theorem gone_eq (hu : n.Unique) (hf : n.Flagged) : (List.range n.neighborNum).countP (fun j =>
    (n.neighbors j).isValid ≠ 0 ∧ (n.neighbors j).ipaddr ∉ heard n) =
      (n.tracked \ n.current).card := by
  have himage : n.tracked \ n.current = ((Finset.range n.neighborNum).filter fun j =>
      (n.neighbors j).isValid ≠ 0 ∧ (n.neighbors j).ipaddr ∉ heard n).image
        fun j => (n.neighbors j).ipaddr := by
    ext a
    rw [Finset.mem_sdiff, mem_tracked]
    unfold Node.current
    simp only [Finset.mem_image, Finset.mem_filter, Finset.mem_range, List.mem_toFinset]
    constructor
    · rintro ⟨⟨j, hj, hv, rfl⟩, hgone⟩
      exact ⟨j, ⟨hj, (hf.ne_zero_iff hj).mpr hv, hgone⟩, rfl⟩
    · rintro ⟨j, ⟨hj, hv, hgone⟩, rfl⟩
      exact ⟨⟨j, hj, (hf.ne_zero_iff hj).mp hv, rfl⟩, hgone⟩
  rw [countP_eq_card List.nodup_range, himage, Finset.card_image_of_injOn]
  · refine congrArg Finset.card (Finset.ext fun j => ?_)
    simp
  · intro i hi j hj hij
    simp only [Finset.coe_filter, Finset.mem_range, Set.mem_ofPred_eq] at hi hj
    exact hu i j hi.1 hj.1 hij

theorem updateStaInfo_change (hu : n.Unique) (hf : n.Flagged) :
    (updateStaInfo c n).stability.neighborChange =
      ((n.current \ n.tracked).card + (n.tracked \ n.current).card : ℕ) := by
  rw [← appeared_eq n, ← gone_eq hu hf]
  rfl

/-! ## Marking the records -/

structure Node.Flags (n : Node) (as : List InAddr) (n' : Node) : Prop where
  records : n.Extends n'
  marked : ∀ a ∈ as, n'.Recorded a ∧ (n'.neighbors (n'.slot a)).isValid = 1

theorem noteNeighbor_isValid (n : Node) (a : InAddr) :
    ((noteNeighbor n a).neighbors (n.slot a)).isValid = 1 := by
  unfold noteNeighbor Node.slot
  cases findNeighbor n a with
  | some j => simp [Node.modNeighbor]
  | none => simp [Node.modNeighbor]

theorem foldl_noteNeighbor_marks (as seen : List InAddr) (n₀ n : Node) (h : n₀.Flags seen n) :
    n₀.Flags (seen ++ as) (as.foldl noteNeighbor n) := by
  induction as generalizing seen n with
  | nil => simpa using h
  | cons a as ih =>
    have hrec := noteNeighbor_records n a
    have hext := hrec.toExtends
    rw [List.foldl_cons, ← List.singleton_append, ← List.append_assoc]
    refine ih (seen ++ [a]) _ ⟨h.records.trans hext, fun b hb => ?_⟩
    rcases List.mem_append.mp hb with hb | hb
    · obtain ⟨hb, hv⟩ := h.marked b hb
      refine ⟨hext.recorded hb, ?_⟩
      rw [hext.slot_eq hb]
      by_cases hslot : n.slot b = n.slot a
      · rw [hslot]
        exact noteNeighbor_isValid n a
      · rw [hrec.others _ hslot]
        exact hv
    · obtain rfl := List.mem_singleton.mp hb
      refine ⟨hrec.recorded, ?_⟩
      rw [hrec.slot]
      exact noteNeighbor_isValid n b

theorem noteAll_marks (n : Node) : n.Flags (heard n) ((heard n).foldl noteNeighbor n) := by
  have hnone : n.Flags [] n := ⟨.refl n, fun a ha => absurd ha List.not_mem_nil⟩
  have hall := foldl_noteNeighbor_marks (heard n) [] n n hnone
  rwa [List.nil_append] at hall

theorem foldl_clearGone_isValid (l : List ℕ) (n : Node) (j : ℕ) :
    ((l.foldl clearGone n).neighbors j).isValid =
      if j ∈ l ∧ (n.neighbors j).ipaddr ∉ heard n then 0 else (n.neighbors j).isValid := by
  induction l generalizing n with
  | nil => simp
  | cons i l ih =>
    have hrel := clearGone_relabels n i
    have hip := (clearGone_records n i).2
    have hstep : ((clearGone n i).neighbors j).isValid =
        if j = i ∧ (n.neighbors j).ipaddr ∉ heard n then 0 else (n.neighbors j).isValid := by
      unfold clearGone
      by_cases hij : j = i
      · subst hij
        split_ifs with h h' h' <;> simp_all [Node.modNeighbor]
      · rw [if_neg (fun h : j = i ∧ _ => hij h.1)]
        split
        · simp [Node.modNeighbor, hij]
        · rfl
    rw [List.foldl_cons, ih, heard_congr hrel.tbl, hip j, hstep]
    simp only [List.mem_cons]
    split_ifs <;> first | rfl | tauto

theorem updateNeighborInfo_isValid (hu : n.Unique) {j : ℕ}
    (hj : j < (updateNeighborInfo n).neighborNum) :
    ((updateNeighborInfo n).neighbors j).isValid =
      if ((updateNeighborInfo n).neighbors j).ipaddr ∈ heard n then 1 else 0 := by
  have hmarks := noteAll_marks n
  have hrel := Node.Relabels.foldl (heard n) noteNeighbor_relabels n
  rw [updateNeighborInfo_eq] at hj ⊢
  generalize (heard n).foldl noteNeighbor n = n₁ at hmarks hrel hj ⊢
  obtain ⟨hnum, hip⟩ := foldl_clearGone_records (List.range n₁.neighborNum) n₁
  rw [hnum] at hj
  rw [foldl_clearGone_isValid, hip, heard_congr hrel.tbl]
  by_cases hheard : (n₁.neighbors j).ipaddr ∈ heard n
  · obtain ⟨hrec, hv⟩ := hmarks.marked _ hheard
    have hslot : n₁.slot (n₁.neighbors j).ipaddr = j :=
      hmarks.records.unique hu _ _ (slot_lt_iff.mpr hrec) hj (ipaddr_slot hrec)
    rw [hslot] at hv
    simp [hheard, hv]
  · simp [hheard, hj]

theorem updateNeighborInfo_flagged (hu : n.Unique) : (updateNeighborInfo n).Flagged := by
  intro j hj
  rw [updateNeighborInfo_isValid hu hj]
  split_ifs
  · exact .inr rfl
  · exact .inl rfl

theorem updateNeighborInfo_current (n : Node) : (updateNeighborInfo n).current = n.current := by
  unfold Node.current
  rw [heard_congr (updateNeighborInfo_relabels n).tbl]

theorem updateNeighborInfo_tracked (hu : n.Unique) :
    (updateNeighborInfo n).tracked = n.current := by
  have hmarks := noteAll_marks n
  ext a
  rw [mem_tracked]
  unfold Node.current
  rw [List.mem_toFinset]
  constructor
  · rintro ⟨j, hj, hv, rfl⟩
    rw [updateNeighborInfo_isValid hu hj] at hv
    by_contra hnot
    rw [if_neg hnot] at hv
    cases hv
  · intro ha
    obtain ⟨hnum, hip⟩ := foldl_clearGone_records
      (List.range ((heard n).foldl noteNeighbor n).neighborNum) ((heard n).foldl noteNeighbor n)
    rw [← updateNeighborInfo_eq] at hnum hip
    obtain ⟨j, hj, hja⟩ := (hmarks.marked a ha).1
    rw [← hnum] at hj
    rw [← hip j] at hja
    refine ⟨j, hj, ?_, hja⟩
    rw [updateNeighborInfo_isValid hu hj, hja, if_pos ha]

theorem updateNeighborInfo_num_eq (hu : n.Unique) :
    (updateNeighborInfo n).neighborNum = (n.known ∪ n.current).card := by
  have hknown : n.known.card = n.neighborNum := by
    unfold Node.known
    rw [Finset.card_image_of_injOn, Finset.card_range]
    intro i hi j hj hij
    exact hu i j (by simpa using hi) (by simpa using hj) hij
  have hnew : n.current \ n.known = n.unrecorded (heard n) := by
    ext a
    rw [Finset.mem_sdiff, mem_known, mem_unrecorded]
    exact and_congr List.mem_toFinset Iff.rfl
  rw [updateNeighborInfo_num, ← Finset.union_sdiff_self_eq_union,
    Finset.card_union_of_disjoint Finset.disjoint_sdiff, hknown, hnew]

/-! ## Every run -/

def Node.AllFlags (n : Node) : Prop :=
  ∀ j, (n.neighbors j).isValid = 0 ∨ (n.neighbors j).isValid = 1

theorem Node.AllFlags.modNeighbor (h : n.AllFlags) (i : ℕ) {f : NeighborInfo → NeighborInfo}
    (hf : ∀ nb, (f nb).isValid = nb.isValid ∨ (f nb).isValid = 0 ∨ (f nb).isValid = 1) :
    (n.modNeighbor i f).AllFlags := by
  intro j
  by_cases hij : j = i
  · subst hij
    rw [show (n.modNeighbor j f).neighbors j = f (n.neighbors j) by simp [Node.modNeighbor]]
    rcases hf (n.neighbors j) with hkept | hset
    · rw [hkept]
      exact h j
    · exact hset
  · rw [show (n.modNeighbor i f).neighbors j = n.neighbors j by simp [Node.modNeighbor, hij]]
    exact h j

theorem Node.AllFlags.info (h : n.AllFlags) : (updateNeighborInfo n).AllFlags := by
  have hnote : ∀ n a, n.AllFlags → (noteNeighbor n a).AllFlags := by
    intro n a h
    unfold noteNeighbor
    split
    · exact h.modNeighbor _ fun _ => .inr (.inr rfl)
    · exact h.modNeighbor n.neighborNum (f := fun nb =>
        { nb with ipaddr := a, neighborSta := 0, isValid := 1 }) fun _ => .inr (.inr rfl)
  have hclear : ∀ n j, n.AllFlags → (clearGone n j).AllFlags := by
    intro n j h
    unfold clearGone
    split
    · exact h.modNeighbor _ fun _ => .inr (.inl rfl)
    · exact h
  rw [updateNeighborInfo_eq]
  have hnotes := List.foldlRecOn (motive := Node.AllFlags) (heard n) noteNeighbor h
    fun n hn a _ => hnote n a hn
  exact List.foldlRecOn (motive := Node.AllFlags) _ clearGone hnotes fun n hn j _ => hclear n j hn

/-- `isValid` is a flag in every run. -/
theorem HelloRun.flagged {ok : Node → HelloEvent → Prop} {cf : Conf} {ext : Extern}
    (h : HelloRun ok cf ext a n) : n.AllFlags := by
  induction h with
  | init env => exact fun _ => .inl rfl
  | @event n env e _ _ ih =>
    cases e with
    | sent =>
      refine Node.AllFlags.info fun j => ?_
      have hadv : ((helloAdvance n).neighbors j).isValid = (n.neighbors j).isValid := by
        unfold helloAdvance
        dsimp only
        split_ifs <;> rfl
      have hj := ih j
      rw [← hadv] at hj
      exact hj
    | heard hello =>
      show (helloCount hello (helloRecord hello n)).AllFlags
      unfold helloCount
      refine Node.AllFlags.modNeighbor ?_ _ fun _ => .inl rfl
      unfold helloRecord
      split
      · exact ih.modNeighbor _ fun _ => .inl rfl
      · exact ih.modNeighbor n.neighborNum (f := fun nb =>
          { nb with ipaddr := hello.destAddr, neighborSta := hello.res1.toNat }) fun _ => .inl rfl
    | acked ack ipSrc =>
      show (helloAckProcess ack ipSrc n).AllFlags
      unfold helloAckProcess
      dsimp only
      refine ih.modNeighbor _ fun nb => .inl ?_
      split_ifs <;> rfl
  | rest hsame _ ih =>
    intro j
    rw [(hsame.neighbors j).rest]
    exact ih j

/-! ## The count of changes -/

/-- `update_sta_info` counts the neighbours that are heard and the symmetric difference to the
records marked valid, and touches no record. After `update_neighbor_info` the records marked valid
are those of the neighbours that are heard, every record is there under its address, the table has
room for the new ones, and the next count of changes is zero. In every run the marks are flags. -/
theorem neighbor_change_counts_difference :
    (∀ (c : Ctx) (n : Node), n.Unique → n.Flagged → (n.known ∪ n.current).card ≤ maxNeighbors →
      (updateStaInfo c n).stability.neighborNum = n.current.card ∧
      (updateStaInfo c n).stability.neighborChange =
        ((n.current \ n.tracked).card + (n.tracked \ n.current).card : ℕ) ∧
      ((updateStaInfo c n).neighborNum = n.neighborNum ∧
        (updateStaInfo c n).neighbors = n.neighbors) ∧
      (updateNeighborInfo (updateStaInfo c n)).tracked = n.current ∧
      (updateNeighborInfo (updateStaInfo c n)).Unique ∧
      (n.neighborNum ≤ (updateNeighborInfo (updateStaInfo c n)).neighborNum ∧
        ∀ j < n.neighborNum, ((updateNeighborInfo (updateStaInfo c n)).neighbors j).ipaddr =
          (n.neighbors j).ipaddr) ∧
      (∀ j ∈ infoSlots (updateStaInfo c n), j < maxNeighbors) ∧
      ∀ c' : Ctx, (updateStaInfo c'
        (updateNeighborInfo (updateStaInfo c n))).stability.neighborChange = 0) ∧
    ∀ (ok : Node → HelloEvent → Prop) (cf : Conf) (ext : Extern) (a : InAddr) (n : Node),
      HelloRun ok cf ext a n → n.Flagged := by
  refine ⟨fun c n hu hf hroom => ?_, fun ok cf ext a n h j _ => h.flagged j⟩
  have hu' : (updateStaInfo c n).Unique := hu
  have hsta : n.Extends (updateStaInfo c n) := .of_eq rfl fun _ => rfl
  have hext := hsta.trans (updateNeighborInfo_extends (updateStaInfo c n))
  have htracked : (updateNeighborInfo (updateStaInfo c n)).tracked = n.current :=
    updateNeighborInfo_tracked hu'
  have hcurrent : (updateNeighborInfo (updateStaInfo c n)).current = n.current :=
    updateNeighborInfo_current (updateStaInfo c n)
  have hnum : (updateNeighborInfo (updateStaInfo c n)).neighborNum = (n.known ∪ n.current).card :=
    updateNeighborInfo_num_eq hu'
  refine ⟨updateStaInfo_current n, updateStaInfo_change hu hf, ⟨rfl, rfl⟩, htracked,
    hext.unique hu, ⟨hext.num, hext.ipaddr⟩, fun j hj => ?_, fun c' => ?_⟩
  · exact (infoSlots_lt _ j hj).trans_le (hnum.trans_le hroom)
  · rw [updateStaInfo_change (hext.unique hu) (updateNeighborInfo_flagged hu'), htracked, hcurrent,
      Finset.sdiff_self]
    rfl

/-- Agent 1 hears 3 and 2, and has a valid record of 4 that it no longer hears. -/
def shiftedNode : Node :=
  let n := hearAll [3, 2]
  { n.modNeighbor n.neighborNum fun nb => { nb with ipaddr := 4, isValid := 1 } with
    neighborNum := n.neighborNum + 1 }

/-- Two neighbours appear, and one is gone. -/
theorem shiftedNode_change :
    (updateStaInfo (sampleCtx 0) shiftedNode).stability.neighborNum = 2 ∧
    (updateStaInfo (sampleCtx 0) shiftedNode).stability.neighborChange = 3 ∧
    (updateNeighborInfo (updateStaInfo (sampleCtx 0) shiftedNode)).tracked = {2, 3} ∧
    (updateStaInfo (sampleCtx 0) (updateNeighborInfo
      (updateStaInfo (sampleCtx 0) shiftedNode))).stability.neighborChange = 0 := by
  have hcurrent : shiftedNode.current = {2, 3} := by decide +kernel
  have htracked : shiftedNode.tracked = {4} := by decide +kernel
  have hknown : shiftedNode.known = {2, 3, 4} := by decide +kernel
  have hunique : ∀ i < shiftedNode.neighborNum, ∀ j < shiftedNode.neighborNum,
      (shiftedNode.neighbors i).ipaddr = (shiftedNode.neighbors j).ipaddr → i = j := by decide +kernel
  have hflagged : ∀ j < shiftedNode.neighborNum,
      (shiftedNode.neighbors j).isValid = 0 ∨ (shiftedNode.neighbors j).isValid = 1 := by
    decide +kernel
  obtain ⟨hnum, hchange, -, htrack, -, -, -, hagain⟩ := 
    neighbor_change_counts_difference.1 (sampleCtx 0) shiftedNode
      (fun i j hi hj => hunique i hi j hj) hflagged (by rw [hcurrent, hknown]; decide)
  rw [hcurrent] at hnum htrack
  rw [hcurrent, htracked] at hchange
  exact ⟨hnum, hchange, htrack, hagain _⟩

end AodvUU

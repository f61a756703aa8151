import AodvUU.HelloWindow
import AodvUU.NeighborChange

/-! # The stability scan

Once its window is full, `hello_send` counts the Hellos of the window that the node and a
neighbour call stable. Both keep the values of the last Hellos in ten slots, and the count reads
the slots by the numbers of the Hellos themselves. -/
namespace AodvUU

variable {c : Ctx} {n n' : Node} {a x : InAddr} {own theirs : ℕ → Int}

/-! ## What is read -/

/-- The node when `hello_send` has stored its own stability for the Hello. -/
def Node.storeStability (n : Node) : Node :=
  { n with
    stabilitySequence :=
      Function.update n.stabilitySequence (n.helloTail % maxSequenceLen) n.stability.isStable }

/-- The third part of a cost in the branch of the full window. -/
def stabilityRatio (n : Node) (nb : NeighborInfo) : ℚ :=
  stableCount n.storeStability nb / maxSequenceLen

/-- The indices that `hello_send` uses on the three arrays of Hello slots. -/
def helloIndices (n : Node) : List ℕ :=
  [n.helloTail % maxSequenceLen, (n.helloTail + 1) % maxSequenceLen] ++
    if windowFull n ∧ 0 < n.neighborNum then
      [(n.helloTail - 1) % maxSequenceLen, (n.helloTail - 2) % maxSequenceLen] ++
        (List.range n.helloTail).filter (n.helloHead ≤ ·)
    else []

def bothStable (n : Node) (own theirs : ℕ → Int) : Finset ℕ :=
  (Finset.Ico n.helloHead n.helloTail).filter fun k => own k ≠ 0 ∧ theirs k ≠ 0

/-- The scan is in bounds, and for the neighbour `x` counts the Hellos that both call stable. -/
structure ScanSound (n : Node) (x : InAddr) (own theirs : ℕ → Int) : Prop where
  indices : ∀ i ∈ helloIndices n, i < maxSequenceLen
  ratio : windowFull n → n.Recorded x → stabilityRatio n (n.neighbors (n.slot x)) =
    ((bothStable n own theirs).card : ℚ) / maxSequenceLen

/-- No neighbour is scanned, or the Hellos of the window have the numbers of their slots. -/
def ScanFits (n : Node) : Prop := n.neighborNum = 0 ∨ n.helloTail ≤ maxSequenceLen

/-- What arrives is tidy, and only Hellos that were sent are acknowledged. -/
def Attested (n : Node) : HelloEvent → Prop
  | .sent => True
  | .heard hello => Tidy n (.heard hello)
  | .acked ack ipSrc => Tidy n (.acked ack ipSrc) ∧ ack.helloIndex.toNat ≤ n.helloTail

/-- The runs of one agent, with its own stability at each Hello, and that which `x` last
acknowledged it with, or zero. -/
inductive StabilityRun (ok : Node → HelloEvent → Prop) (cf : Conf) (ext : Extern) (a x : InAddr) :
    (ℕ → Int) → (ℕ → Int) → Node → Prop
  | init (env : Env) :
      StabilityRun ok cf ext a x (fun _ => 0) (fun _ => 0) (Node.init ⟨cf, ext, env⟩ a)
  | sent {own theirs : ℕ → Int} {n : Node} (env : Env) (hok : ok n .sent) :
      StabilityRun ok cf ext a x own theirs n →
      StabilityRun ok cf ext a x (Function.update own n.helloTail n.stability.isStable) theirs
        (HelloEvent.run ⟨cf, ext, env⟩ .sent n)
  | heard {own theirs : ℕ → Int} {n : Node} (env : Env) (hello : RREP) (hok : ok n (.heard hello)) :
      StabilityRun ok cf ext a x own theirs n →
      StabilityRun ok cf ext a x own theirs (HelloEvent.run ⟨cf, ext, env⟩ (.heard hello) n)
  | acked {own theirs : ℕ → Int} {n : Node} (env : Env) (ack : RREPAck) (ipSrc : InAddr)
      (hok : ok n (.acked ack ipSrc)) : StabilityRun ok cf ext a x own theirs n →
      StabilityRun ok cf ext a x own
        (if ipSrc = x then Function.update theirs ack.helloIndex.toNat ack.hostStability.toNat
          else theirs)
        (HelloEvent.run ⟨cf, ext, env⟩ (.acked ack ipSrc) n)
  | rest {own theirs : ℕ → Int} {n n' : Node} (h : n.SameHello n') :
      StabilityRun ok cf ext a x own theirs n → StabilityRun ok cf ext a x own theirs n'

theorem helloAdvance_full_cost (hfull : windowFull n) {j ch : ℕ} (hj : j < n.neighborNum)
    (hch : ch < maxChannelNum) : ((helloAdvance n).neighbors j).channelCost ch =
      33 / 100 * deliverRate n.storeStability (n.neighbors j) ch +
        33 / 100 * predictConnectTime n.storeStability (n.neighbors j) ch +
        33 / 100 * stabilityRatio n (n.neighbors j) := by
  have hcost : ((helloAdvance n).neighbors j).channelCost ch =
      channelCost n.storeStability (n.neighbors j) ch := by
    unfold helloAdvance
    dsimp only
    rw [if_pos hj]
    split_ifs <;> simp [hch, Node.storeStability]
  rw [hcost]
  exact if_pos hfull

/-! ## The window -/

def Node.Slides (n : Node) : Prop := n.helloHead = n.helloTail - (maxSequenceLen - 1)

theorem Node.Slides.windowed (h : n.Slides) : n.Windowed := by
  unfold Node.Slides at h
  unfold Node.Windowed
  rw [show maxSequenceLen = 10 from rfl] at h ⊢
  omega

theorem Node.Slides.full_iff (h : n.Slides) : windowFull n ↔ maxSequenceLen - 1 ≤ n.helloTail := by
  rw [windowFull_iff h.windowed]
  unfold Node.Slides at h
  rw [show maxSequenceLen = 10 from rfl] at h ⊢
  omega

theorem Node.Slides.run_sent (h : n.Slides) : (HelloEvent.run c .sent n).Slides := by
  have hfull := h.full_iff
  unfold Node.Slides at h ⊢
  rw [sent_head, sent_tail]
  rw [show maxSequenceLen = 10 from rfl] at h hfull ⊢
  split_ifs with hw
  · have hle := hfull.mp hw
    omega
  · have hlt : ¬ 9 ≤ n.helloTail := fun hle => hw (hfull.mpr hle)
    omega

theorem heard_window (hello : RREP) (n : Node) :
    (HelloEvent.run c (.heard hello) n).helloHead = n.helloHead ∧
    (HelloEvent.run c (.heard hello) n).helloTail = n.helloTail :=
  ⟨(helloRecord_relabels hello n).helloHead, (helloRecord_relabels hello n).helloTail⟩

theorem StabilityRun.slides {ok : Node → HelloEvent → Prop} {cf : Conf} {ext : Extern}
    (h : StabilityRun ok cf ext a x own theirs n) : n.Slides := by
  induction h with
  | init env => rfl
  | sent env _ _ ih => exact ih.run_sent
  | @heard _ _ n env hello _ _ ih =>
    obtain ⟨hhead, htail⟩ := heard_window (c := ⟨cf, ext, env⟩) hello n
    unfold Node.Slides
    rw [hhead, htail]
    exact ih
  | acked env ack ipSrc _ _ ih => exact ih
  | rest hsame _ ih =>
    unfold Node.Slides
    rw [hsame.helloHead, hsame.helloTail]
    exact ih

theorem Node.Slides.indices_iff (h : n.Slides) :
    (∀ i ∈ helloIndices n, i < maxSequenceLen) ↔ ScanFits n := by
  have hfull := h.full_iff
  unfold Node.Slides at h
  unfold helloIndices ScanFits
  constructor
  · intro hin
    by_contra hnot
    rw [not_or] at hnot
    have hw : windowFull n := hfull.mpr (by omega)
    refine absurd (hin (n.helloTail - 1) ?_) (by omega)
    rw [if_pos ⟨hw, Nat.pos_of_ne_zero hnot.1⟩]
    rw [show maxSequenceLen = 10 from rfl] at h hnot
    simp
    omega
  · intro hfits i hi
    have hmod : ∀ j, j % maxSequenceLen < maxSequenceLen := fun j => Nat.mod_lt _ (by decide)
    rcases List.mem_append.mp hi with hi | hi
    · rcases List.mem_pair.mp hi with rfl | rfl <;> exact hmod _
    · split_ifs at hi with hw
      · rcases List.mem_append.mp hi with hi | hi
        · rcases List.mem_pair.mp hi with rfl | rfl <;> exact hmod _
        · have hlt := List.mem_range.mp (List.mem_filter.mp hi).1
          omega
      · cases hi

/-! ## What the slots hold -/

/-- The window starts nine Hellos back, its slots hold the node's own stability, and those of the
record of `x` what `x` has acknowledged, as long as no slot was used twice. -/
structure Node.Stables (n : Node) (x : InAddr) (own theirs : ℕ → Int) : Prop where
  head : n.Slides
  ownSlots : ∀ k, n.helloHead ≤ k → k < n.helloTail →
    n.stabilitySequence (k % maxSequenceLen) = own k
  theirSlots : n.helloTail ≤ maxSequenceLen → ∀ k, n.helloHead ≤ k → k < maxSequenceLen →
    (n.neighbors (n.slot x)).hostStabilitySequence k = theirs k
  free : ∀ j, n.neighborNum ≤ j → ∀ k < maxSequenceLen,
    (n.neighbors j).hostStabilitySequence k = 0
  none : ¬ n.Recorded x → theirs = fun _ => 0

namespace Node.Stables

variable (h : n.Stables x own theirs)
include h

theorem of_kept {own' : ℕ → Int} (hext : n.Extends n') (hle : n.helloTail ≤ n'.helloTail)
    (hhead : n'.Slides)
    (hown : ∀ k, n'.helloHead ≤ k → k < n'.helloTail →
      n'.stabilitySequence (k % maxSequenceLen) = own' k)
    (hkept : ∀ j, ∀ k < maxSequenceLen, (n'.neighbors j).hostStabilitySequence k =
      (n.neighbors j).hostStabilitySequence k) : n'.Stables x own' theirs := by
  refine ⟨hhead, hown, fun htail k hk hlt => ?_, fun j hj k hlt => ?_, fun hx => ?_⟩
  · rw [hkept _ k hlt]
    by_cases hx : n.Recorded x
    · rw [hext.slot_eq hx]
      refine h.theirSlots (hle.trans htail) k ?_ hlt
      have hold := h.head
      unfold Node.Slides at hold hhead
      omega
    · rw [h.free _ (hext.slot_ge hx) k hlt, h.none hx]
  · rw [hkept j k hlt]
    exact h.free j (hext.num.trans hj) k hlt
  · exact h.none fun hrec => hx (hext.recorded hrec)

theorem run_heard {hello : RREP} (ht : Tidy n (.heard hello)) :
    (HelloEvent.run c (.heard hello) n).Stables x own theirs := by
  have hrel := helloRecord_relabels hello n
  obtain ⟨hheads, htail⟩ := heard_window (c := c) hello n
  have hseries : (HelloEvent.run c (.heard hello) n).stabilitySequence = n.stabilitySequence :=
    hrel.stabilitySequence
  refine h.of_kept (heard_records ht).toExtends htail.ge ?_ ?_ fun j k _ => ?_
  · unfold Node.Slides
    rw [htail, hheads]
    exact h.head
  · rw [htail, hheads, hseries]
    exact h.ownSlots
  · have hrec : ((helloRecord hello n).neighbors j).hostStabilitySequence =
        (n.neighbors j).hostStabilitySequence := by
      rw [hrel.neighbors j]
    have hcount : ((HelloEvent.run c (.heard hello) n).neighbors j).hostStabilitySequence =
        ((helloRecord hello n).neighbors j).hostStabilitySequence := by
      simp only [HelloEvent.run, helloCount, Node.modNeighbor]
      by_cases hj : j = helloSlot (helloRecord hello n) hello.destAddr
      · subst hj
        rw [Function.update_self]
      · rw [Function.update_of_ne hj]
    rw [hcount, hrec]

theorem run_same (hs : n.SameHello n') : n'.Stables x own theirs := by
  refine h.of_kept hs.toExtends hs.helloTail.ge ?_ ?_ fun j => (hs.neighbors j).stable
  · unfold Node.Slides
    rw [hs.helloHead, hs.helloTail]
    exact h.head
  · rw [hs.helloHead, hs.helloTail]
    intro k hk hlt
    rw [hs.series _ (Nat.mod_lt _ (by decide))]
    exact h.ownSlots k hk hlt

theorem run_sent : (HelloEvent.run c .sent n).Stables x
    (Function.update own n.helloTail n.stability.isStable) theirs := by
  have hhead := h.head
  have hseries : (HelloEvent.run c .sent n).stabilitySequence =
      Function.update n.stabilitySequence (n.helloTail % maxSequenceLen) n.stability.isStable :=
    (updateNeighborInfo_relabels _).stabilitySequence
  have hheads : (HelloEvent.run c .sent n).helloHead = n.helloTail + 1 - (maxSequenceLen - 1) :=
    sent_tail (c := c) n ▸ h.head.run_sent
  refine h.of_kept (sent_extends n) (by rw [sent_tail]; omega) h.head.run_sent ?_ fun j k _ => ?_
  · rw [hheads, sent_tail, hseries]
    intro k hk hlt
    by_cases hkt : k = n.helloTail
    · rw [hkt, Function.update_self, Function.update_self]
    · have hcell : k % maxSequenceLen ≠ n.helloTail % maxSequenceLen := by
        intro he
        have hwin := h.head.windowed
        have hlow : n.helloHead ≤ k := by
          unfold Node.Slides at hhead
          omega
        exact hkt (RingBuffer.eq_of_cell_eq hwin.2 hlow (by omega) hwin.1 le_rfl he)
      rw [Function.update_of_ne hkt, Function.update_of_ne hcell]
      unfold Node.Slides at hhead
      exact h.ownSlots k (by omega) (by omega)
  · have hrel : ((helloAdvance n).neighbors j).SameCounts
        ((HelloEvent.run c .sent n).neighbors j) := (updateNeighborInfo_relabels _).neighbors j
    rw [hrel]
    unfold helloAdvance
    dsimp only
    split_ifs <;> rfl

theorem run_acked {ack : RREPAck} {ipSrc : InAddr} (hrec : n.Recorded ipSrc)
    (hindex : ack.helloIndex.toNat ≤ n.helloTail) :
    (HelloEvent.run c (.acked ack ipSrc) n).Stables x own
      (if ipSrc = x then Function.update theirs ack.helloIndex.toNat ack.hostStability.toNat
        else theirs) := by
  have hrecs : n.Records ipSrc (HelloEvent.run c (.acked ack ipSrc) n) := acked_records hrec
  have hext := hrecs.toExtends
  have hlt := slot_lt_iff.mpr hrec
  have hnum : (HelloEvent.run c (.acked ack ipSrc) n).neighborNum = n.neighborNum := rfl
  have hfree : ∀ j, (HelloEvent.run c (.acked ack ipSrc) n).neighborNum ≤ j →
      ∀ k < maxSequenceLen,
        ((HelloEvent.run c (.acked ack ipSrc) n).neighbors j).hostStabilitySequence k = 0 := by
    intro j hj k hk
    rw [hrecs.others j (by omega)]
    exact h.free j (by omega) k hk
  refine ⟨h.head, h.ownSlots, fun htail k hk hlen => ?_, hfree, fun hx => ?_⟩
  · by_cases hx : n.Recorded x
    · rw [hext.slot_eq hx]
      by_cases hsrc : ipSrc = x
      · subst hsrc
        rw [if_pos rfl]
        have hold := h.theirSlots htail k hk hlen
        have hdef : (findNeighbor n ipSrc).getD n.neighborNum = n.slot ipSrc := rfl
        simp only [HelloEvent.run, helloAckProcess, Node.modNeighbor, hdef, Function.update_self]
        by_cases hin : n.helloHead ≤ ack.helloIndex.toNat
        · rw [if_pos hin]
          dsimp only
          by_cases hki : k = ack.helloIndex.toNat
          · rw [← hki, Nat.mod_eq_of_lt hlen, Function.update_self, Function.update_self]
          · have hcell : k ≠ ack.helloIndex.toNat % maxSequenceLen := by
              intro he
              have hroom : n.helloHead + 9 < n.helloHead + maxSequenceLen :=
                Nat.add_lt_add_left (by decide) _
              have hlen' : k < 10 := hlen
              have hhead := h.head
              unfold Node.Slides at hhead
              rw [show maxSequenceLen = 10 from rfl] at hhead
              exact hki (RingBuffer.eq_of_cell_eq hroom hk (by omega) hin (by omega)
                ((Nat.mod_eq_of_lt hlen).trans he))
            rw [Function.update_of_ne hki, Function.update_of_ne hcell]
            exact hold
        · rw [if_neg hin]
          have hki : k ≠ ack.helloIndex.toNat := fun he => hin (he ▸ hk)
          rw [Function.update_of_ne hki]
          exact hold
      · rw [if_neg hsrc, hrecs.others _ fun he => hsrc (slot_injective hx hrec he).symm]
        exact h.theirSlots htail k hk hlen
    · have hsrc : ipSrc ≠ x := fun he => hx (he ▸ hrec)
      rw [if_neg hsrc, h.none hx]
      exact hfree _ (hext.slot_ge hx) k hlen
  · have hsrc : ipSrc ≠ x := fun he => hx (he ▸ hext.recorded hrec)
    rw [if_neg hsrc]
    exact h.none fun hrec => hx (hext.recorded hrec)

end Node.Stables

theorem StabilityRun.mono {ok ok' : Node → HelloEvent → Prop} {cf : Conf} {ext : Extern}
    (h : StabilityRun ok cf ext a x own theirs n) (hok : ∀ n e, ok n e → ok' n e) :
    StabilityRun ok' cf ext a x own theirs n := by
  induction h with
  | init env => exact .init env
  | sent env he _ ih => exact .sent env (hok _ _ he) ih
  | heard env hello he _ ih => exact .heard env hello (hok _ _ he) ih
  | acked env ack ipSrc he _ ih => exact .acked env ack ipSrc (hok _ _ he) ih
  | rest hsame _ ih => exact .rest hsame ih

theorem StabilityRun.stables {cf : Conf} {ext : Extern}
    (h : StabilityRun Attested cf ext a x own theirs n) : n.Stables x own theirs := by
  induction h with
  | init env =>
    refine ⟨rfl, fun k _ hk => absurd hk (Nat.not_lt_zero k), fun _ _ _ _ => rfl,
      fun _ _ _ _ => rfl, fun _ => rfl⟩
  | sent env _ _ ih => exact ih.run_sent
  | heard env hello hok _ ih => exact ih.run_heard hok
  | acked env ack ipSrc hok _ ih => exact ih.run_acked hok.1.2 hok.2
  | rest hsame _ ih => exact ih.run_same hsame

/-! ## The scan -/

theorem Node.Stables.ratio (h : n.Stables x own theirs) (htail : n.helloTail ≤ maxSequenceLen) :
    stabilityRatio n (n.neighbors (n.slot x)) =
      ((bothStable n own theirs).card : ℚ) / maxSequenceLen := by
  have hhead := h.head
  unfold Node.Slides at hhead
  have hcount : stableCount n.storeStability (n.neighbors (n.slot x)) =
      (bothStable n own theirs).card := by
    have hslots : ∀ k, n.helloHead ≤ k → k < n.helloTail →
        n.storeStability.stabilitySequence k = own k ∧
        (n.neighbors (n.slot x)).hostStabilitySequence k = theirs k := by
      intro k hle hlt
      rw [show maxSequenceLen = 10 from rfl] at hhead htail
      have hcell : k ≠ n.helloTail % maxSequenceLen := by
        rw [show maxSequenceLen = 10 from rfl]
        omega
      have hk : k < maxSequenceLen := lt_of_lt_of_le hlt htail
      have hown := h.ownSlots k hle hlt
      rw [Nat.mod_eq_of_lt hk] at hown
      exact ⟨(Function.update_of_ne hcell _ _).trans hown, h.theirSlots htail k hle hk⟩
    unfold stableCount
    rw [countP_eq_card (List.nodup_range.filter _)]
    refine congrArg Finset.card (Finset.ext fun k => ?_)
    unfold bothStable
    rw [Finset.mem_filter, Finset.mem_filter, Finset.mem_Ico, List.mem_toFinset, List.mem_filter,
      List.mem_range, decide_eq_true_iff, decide_eq_true_iff]
    show (k < n.helloTail ∧ n.helloHead ≤ k) ∧ _ ↔ _
    rw [and_comm (a := k < n.helloTail)]
    refine and_congr_right fun hk => ?_
    rw [(hslots k hk.1 hk.2).1, (hslots k hk.1 hk.2).2]
  unfold stabilityRatio
  rw [hcount]

/-- After any number of Hellos the window is one of at most ten, and the scan of its slots is in
bounds exactly when no neighbour is scanned or no Hello has a number beyond the slots. As long as
what arrived was attested, it then counts the right Hellos, in the third part of a cost. -/
theorem stability_scan_sound_iff {ok : Node → HelloEvent → Prop} {cf : Conf} {ext : Extern}
    (h : StabilityRun ok cf ext a x own theirs n) :
    (n.helloHead ≤ n.helloTail ∧ n.helloTail - n.helloHead < maxSequenceLen) ∧
    ((∀ i ∈ helloIndices n, i < maxSequenceLen) ↔ ScanFits n) ∧
    ((∀ n e, ok n e → Attested n e) → (ScanSound n x own theirs ↔ ScanFits n)) ∧
    (windowFull n → ∀ j < n.neighborNum, ∀ ch < maxChannelNum,
      ((helloAdvance n).neighbors j).channelCost ch =
        33 / 100 * deliverRate n.storeStability (n.neighbors j) ch +
          33 / 100 * predictConnectTime n.storeStability (n.neighbors j) ch +
          33 / 100 * stabilityRatio n (n.neighbors j)) := by
  have hslides := h.slides
  refine ⟨⟨hslides.windowed.1, ?_⟩, hslides.indices_iff, fun hok => ⟨fun hsound => ?_, fun hfits => ?_⟩,
    fun hfull j hj ch hch => helloAdvance_full_cost hfull hj hch⟩
  · have hroom := hslides.windowed.2
    rw [show maxSequenceLen = 10 from rfl] at hroom ⊢
    omega
  · exact hslides.indices_iff.mp hsound.indices
  · have hs := (h.mono hok).stables
    refine ⟨hslides.indices_iff.mpr hfits, fun _ hrec => ?_⟩
    have hnum : n.neighborNum ≠ 0 := by
      have hlt := slot_lt_iff.mpr hrec
      omega
    exact hs.ratio (hfits.resolve_left hnum)

/-! ## Concrete runs -/

theorem sendingLink_stability (k : ℕ) : ∃ own theirs, StabilityRun Attested {}
    (.described sampleLog {}) 1 2 own theirs (sendingLink k).a := by
  induction k with
  | zero =>
    refine ⟨_, _, .heard { now := 0 } (helloOn 2 0) ?_ (.init { now := 0 })⟩
    exact ⟨⟨by decide, .inr (by decide)⟩, .inr fun j hj => absurd hj (by decide +revert)⟩
  | succ k ih =>
    obtain ⟨own, theirs, hrun⟩ := ih
    rw [sendingLink_succ]
    exact ⟨_, theirs, .sent { now := 0 } trivial hrun⟩

/-- The eleventh Hello is the last whose scan stays in its slots. -/
theorem sendingLink_scan_sound : ∃ own theirs, windowFull (sendingLink 10).a ∧
    (sendingLink 10).a.neighborNum = 1 ∧ ScanSound (sendingLink 10).a 2 own theirs := by
  obtain ⟨own, theirs, hrun⟩ := sendingLink_stability 10
  obtain ⟨htail, hhead, hnum, -, -⟩ := sendingLink_spec 10
  refine ⟨own, theirs, ?_, hnum, 
    ((stability_scan_sound_iff hrun).2.2.1 fun _ _ h => h).mpr (.inr htail.le)⟩
  unfold windowFull
  rw [htail, hhead]
  rfl

/-- The scan of the twelfth uses index 10. -/
theorem sendingLink_scan_out_of_bounds : ∃ own theirs,
    StabilityRun Attested {} (.described sampleLog {}) 1 2 own theirs (sendingLink 11).a ∧
    10 ∈ helloIndices (sendingLink 11).a ∧ ¬ ScanSound (sendingLink 11).a 2 own theirs := by
  obtain ⟨own, theirs, hrun⟩ := sendingLink_stability 11
  obtain ⟨htail, hhead, hnum, -, -⟩ := sendingLink_spec 11
  have hmem : 10 ∈ helloIndices (sendingLink 11).a := by
    unfold helloIndices windowFull
    rw [htail, hhead, hnum]
    decide
  exact ⟨own, theirs, hrun, hmem, fun h => absurd (h.indices 10 hmem) (by decide)⟩

end AodvUU

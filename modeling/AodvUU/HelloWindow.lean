import AodvUU.Lib.RingBuffer
import AodvUU.NeighborRecords

/-! # The Hello window

A node numbers its Hellos and keeps, for each neighbour and channel, which of the last ones were
acknowledged. The neighbour's acknowledgements carry the number of the Hello and the count of
Hellos received in eight bits each. -/
namespace AodvUU

variable {c : Ctx} {n n' : Node} {a x : InAddr}

/-! ## The window -/

def Node.Windowed (n : Node) : Prop :=
  n.helloHead ≤ n.helloTail ∧ n.helloTail < n.helloHead + maxSequenceLen

theorem windowFull_iff (h : n.Windowed) : windowFull n ↔
    n.helloTail + 1 = n.helloHead + maxSequenceLen := by
  obtain ⟨hle, hlt⟩ := h
  unfold windowFull
  rw [decide_eq_true_iff]
  rw [show maxSequenceLen = 10 from rfl] at hlt ⊢
  omega

theorem sent_head (n : Node) : (HelloEvent.run c .sent n).helloHead =
    if windowFull n then n.helloHead + 1 else n.helloHead :=
  (updateNeighborInfo_relabels _).helloHead

theorem sent_tail (n : Node) : (HelloEvent.run c .sent n).helloTail = n.helloTail + 1 :=
  (updateNeighborInfo_relabels _).helloTail

theorem sent_room (h : n.Windowed) :
    n.helloHead ≤ (HelloEvent.run c .sent n).helloHead ∧
    (HelloEvent.run c .sent n).helloHead ≤ n.helloTail + 1 ∧
    n.helloTail + 1 < (HelloEvent.run c .sent n).helloHead + maxSequenceLen := by
  have hfull := windowFull_iff h
  obtain ⟨hle, hlt⟩ := h
  rw [sent_head]
  have hlen : maxSequenceLen = 10 := rfl
  by_cases hw : windowFull n
  · rw [if_pos hw]
    have heq := hfull.mp hw
    omega
  · rw [if_neg hw]
    have hne : n.helloTail + 1 ≠ n.helloHead + maxSequenceLen := fun heq => hw (hfull.mpr heq)
    omega

theorem Node.Windowed.run (h : n.Windowed) (e : HelloEvent) : (e.run c n).Windowed := by
  cases e with
  | sent =>
    obtain ⟨-, hle, hlt⟩ := sent_room (c := c) h
    rw [← sent_tail (c := c)] at hle hlt
    exact ⟨hle, hlt⟩
  | heard hello =>
    have hrel := helloRecord_relabels hello n
    have hhead : (HelloEvent.run c (.heard hello) n).helloHead = n.helloHead := hrel.helloHead
    have htail : (HelloEvent.run c (.heard hello) n).helloTail = n.helloTail := hrel.helloTail
    unfold Node.Windowed
    rw [hhead, htail]
    exact h
  | acked ack ipSrc => exact h

/-! ## What a record shows -/

theorem heard_neighbors (hello : RREP) (n : Node) (j : ℕ) :
    ((HelloEvent.run c (.heard hello) n).neighbors j).channelHelloSequence =
      (n.neighbors j).channelHelloSequence ∧
    ((HelloEvent.run c (.heard hello) n).neighbors j).channelHelloRemoteReceived =
      (n.neighbors j).channelHelloRemoteReceived ∧
    ((HelloEvent.run c (.heard hello) n).neighbors j).channelCost =
      (n.neighbors j).channelCost := by
  have hrel : (n.neighbors j).SameCounts ((helloRecord hello n).neighbors j) :=
    (helloRecord_relabels hello n).neighbors j
  have hcount : ∀ {α : Type} (f : NeighborInfo → α),
      (∀ nb : NeighborInfo, ∀ ip self sent, f { nb with
        ipaddr := ip, channelHelloSelfReceived := self, channelHelloRemoteSent := sent } = f nb) →
      f ((HelloEvent.run c (.heard hello) n).neighbors j) = f ((helloRecord hello n).neighbors j) := by
    intro α f hf
    simp only [HelloEvent.run, helloCount, Node.modNeighbor]
    by_cases hjs : j = helloSlot (helloRecord hello n) hello.destAddr
    · subst hjs
      rw [Function.update_self, hf]
    · rw [Function.update_of_ne hjs]
  refine ⟨?_, ?_, ?_⟩
  · rw [hcount NeighborInfo.channelHelloSequence fun _ _ _ _ => rfl, hrel]
  · rw [hcount NeighborInfo.channelHelloRemoteReceived fun _ _ _ _ => rfl, hrel]
  · rw [hcount NeighborInfo.channelCost fun _ _ _ _ => rfl, hrel]

/-- On one channel: of the Hellos in the window those in `acked` are marked, and `last` was
counted. -/
structure NeighborInfo.Shows (nb : NeighborInfo) (head tail : ℕ) (acked : List (ℕ × ℕ))
    (last : ℕ → ℕ) (ch : ℕ) : Prop where
  series : RingBuffer.Holds maxSequenceLen head tail (fun k => if (ch, k) ∈ acked then 1 else 0)
    (nb.channelHelloSequence ch)
  count : nb.channelHelloRemoteReceived ch = last ch

structure NeighborInfo.Blank (nb : NeighborInfo) (ch : ℕ) : Prop where
  series : ∀ k, nb.channelHelloSequence ch k = 0
  count : nb.channelHelloRemoteReceived ch = 0

theorem NeighborInfo.Blank.shows {nb : NeighborInfo} {ch head tail : ℕ} (h : nb.Blank ch)
    (room : tail < head + maxSequenceLen) : nb.Shows head tail [] (fun _ => 0) ch := by
  refine ⟨⟨room, fun k _ _ => ?_⟩, h.count⟩
  rw [h.series]
  simp

/-- The record of `x`, or the slot it will get, shows which Hellos `x` has acknowledged; the
slots behind the records are blank. -/
structure Node.AckedBy (n : Node) (x : InAddr) (acked : List (ℕ × ℕ)) (last : ℕ → ℕ) : Prop where
  windowed : n.Windowed
  own : ∀ ch < maxChannelNum,
    (n.neighbors (n.slot x)).Shows n.helloHead n.helloTail acked last ch
  free : ∀ j, n.neighborNum ≤ j → ∀ ch < maxChannelNum, (n.neighbors j).Blank ch
  none : ¬ n.Recorded x → acked = [] ∧ last = fun _ => 0
  sent : ∀ p ∈ acked, p.2 ≤ n.helloTail

namespace Node.AckedBy

variable {acked : List (ℕ × ℕ)} {last : ℕ → ℕ} (h : n.AckedBy x acked last)
include h

theorem of_kept (hext : n.Extends n') (hw : n'.helloHead = n.helloHead ∧ n'.helloTail = n.helloTail)
    (hown : n.Recorded x → ∀ ch < maxChannelNum,
      (n'.neighbors (n.slot x)).channelHelloSequence ch =
        (n.neighbors (n.slot x)).channelHelloSequence ch ∧
      (n'.neighbors (n.slot x)).channelHelloRemoteReceived ch =
        (n.neighbors (n.slot x)).channelHelloRemoteReceived ch)
    (hfree : ∀ j, n.neighborNum ≤ j → ∀ ch < maxChannelNum, (n.neighbors j).Blank ch →
      (n'.neighbors j).Blank ch) : n'.AckedBy x acked last := by
  have hwin : n'.Windowed := by
    unfold Node.Windowed
    rw [hw.1, hw.2]
    exact h.windowed
  refine ⟨hwin, fun ch hch => ?_, fun j hj ch hch => ?_, fun hx => ?_, fun p hp => ?_⟩
  · by_cases hx : n.Recorded x
    · obtain ⟨hseries, hcount⟩ := hown hx ch hch
      have hshow := h.own ch hch
      rw [hext.slot_eq hx, hw.1, hw.2]
      exact ⟨hseries ▸ hshow.series, hcount.trans hshow.count⟩
    · obtain ⟨rfl, rfl⟩ := h.none hx
      have hj := hext.slot_ge hx
      exact (hfree _ hj ch hch (h.free _ hj ch hch)).shows hwin.2
  · have hj' : n.neighborNum ≤ j := hext.num.trans hj
    exact hfree j hj' ch hch (h.free j hj' ch hch)
  · exact h.none fun hrec => hx (hext.recorded hrec)
  · rw [hw.2]
    exact h.sent p hp

theorem run_heard {hello : RREP} (ht : Tidy n (.heard hello)) :
    (HelloEvent.run c (.heard hello) n).AckedBy x acked last := by
  have hrec := heard_records (c := c) ht
  have hrel := helloRecord_relabels hello n
  refine h.of_kept hrec.toExtends ⟨hrel.helloHead, hrel.helloTail⟩ (fun _ ch _ => ?_)
    (fun j _ ch _ hb => ?_)
  · obtain ⟨hs, hc, -⟩ := heard_neighbors (c := c) hello n (n.slot x)
    rw [hs, hc]
    exact ⟨rfl, rfl⟩
  · obtain ⟨hs, hc, -⟩ := heard_neighbors (c := c) hello n j
    exact ⟨hs ▸ hb.series, hc ▸ hb.count⟩

theorem run_same (hs : n.SameHello n') : n'.AckedBy x acked last := by
  have hkept : ∀ j, (n'.neighbors j).channelHelloSequence = (n.neighbors j).channelHelloSequence ∧
      (n'.neighbors j).channelHelloRemoteReceived =
        (n.neighbors j).channelHelloRemoteReceived := by
    intro j
    rw [(hs.neighbors j).rest]
    exact ⟨rfl, rfl⟩
  refine h.of_kept hs.toExtends ⟨hs.helloHead, hs.helloTail⟩ (fun _ ch _ => ?_)
    (fun j _ ch _ hb => ?_)
  · obtain ⟨hseries, hcount⟩ := hkept (n.slot x)
    rw [hseries, hcount]
    exact ⟨rfl, rfl⟩
  · obtain ⟨hseries, hcount⟩ := hkept j
    exact ⟨hseries ▸ hb.series, hcount ▸ hb.count⟩

theorem run_acked_other {ack : RREPAck} {ipSrc : InAddr} (hne : ipSrc ≠ x)
    (hrec : n.Recorded ipSrc) : (HelloEvent.run c (.acked ack ipSrc) n).AckedBy x acked last := by
  have hrecs : n.Records ipSrc (HelloEvent.run c (.acked ack ipSrc) n) := acked_records hrec
  refine h.of_kept hrecs.toExtends ⟨rfl, rfl⟩ (fun hx ch _ => ?_) (fun j hj ch _ hb => ?_)
  · have hslot : n.slot x ≠ n.slot ipSrc := fun he => hne (slot_injective hrec hx he.symm)
    rw [hrecs.others _ hslot]
    exact ⟨rfl, rfl⟩
  · have hslot : j ≠ n.slot ipSrc := by
      have hlt := slot_lt_iff.mpr hrec
      omega
    rw [hrecs.others j hslot]
    exact hb

end Node.AckedBy

/-! ## Sending -/

theorem sent_neighbors (n : Node) (j : ℕ) :
    ((HelloEvent.run c .sent n).neighbors j).channelHelloRemoteReceived =
      (n.neighbors j).channelHelloRemoteReceived ∧
    ((HelloEvent.run c .sent n).neighbors j).channelHelloSelfReceived =
      (n.neighbors j).channelHelloSelfReceived ∧
    ∀ ch < maxChannelNum, ((HelloEvent.run c .sent n).neighbors j).channelHelloSequence ch =
      if j < 20 then Function.update ((n.neighbors j).channelHelloSequence ch)
        ((n.helloTail + 1) % maxSequenceLen) 0
      else (n.neighbors j).channelHelloSequence ch := by
  have hrel : ((helloAdvance n).neighbors j).SameCounts
      ((HelloEvent.run c .sent n).neighbors j) := (updateNeighborInfo_relabels _).neighbors j
  rw [hrel]
  refine ⟨?_, ?_, fun ch hch => ?_⟩
  · unfold helloAdvance
    dsimp only
    split_ifs <;> rfl
  · unfold helloAdvance
    dsimp only
    split_ifs <;> rfl
  · unfold helloAdvance
    dsimp only
    split_ifs with hj
    all_goals first
      | rfl
      | (funext k
         rw [Function.update_apply]
         simp only [hch, true_and])

theorem NeighborInfo.Blank.sent {j ch : ℕ} (hch : ch < maxChannelNum)
    (h : (n.neighbors j).Blank ch) : ((HelloEvent.run c .sent n).neighbors j).Blank ch := by
  obtain ⟨hcount, -, hseries⟩ := sent_neighbors (c := c) n j
  refine ⟨fun k => ?_, by rw [hcount, h.count]⟩
  rw [hseries ch hch]
  split
  · by_cases hk : k = (n.helloTail + 1) % maxSequenceLen
    · rw [hk, Function.update_self]
    · rw [Function.update_of_ne hk, h.series]
  · exact h.series k

namespace Node.AckedBy

variable {acked : List (ℕ × ℕ)} {last : ℕ → ℕ} (h : n.AckedBy x acked last)
include h

theorem run_sent (ht : Tidy n .sent) : (HelloEvent.run c .sent n).AckedBy x acked last := by
  have hext := sent_extends (c := c) n
  obtain ⟨hlo, -, hroom⟩ := sent_room (c := c) h.windowed
  have hwin := h.windowed.run (c := c) .sent
  have hnew : ∀ ch, (ch, n.helloTail + 1) ∉ acked := by
    intro ch hmem
    have hle := h.sent _ hmem
    simp at hle
  refine ⟨hwin, fun ch hch => ?_, fun j hj ch hch => ?_, fun hx => ?_, fun p hp => ?_⟩
  · by_cases hx : n.Recorded x
    · have hslot : n.slot x < 20 := by
        have hlt := slot_lt_iff.mpr hx
        have hle : n.neighborNum + (n.unrecorded (heard n)).card ≤ 20 := ht.1
        omega
      obtain ⟨hcount, -, hseries⟩ := sent_neighbors (c := c) n (n.slot x)
      have hshow := h.own ch hch
      rw [hext.slot_eq hx]
      refine ⟨?_, by rw [hcount, hshow.count]⟩
      rw [hseries ch hch, if_pos hslot, sent_tail]
      refine (hshow.series.advance hlo hroom 0).congr fun k _ hk => ?_
      by_cases hkt : k = n.helloTail + 1
      · rw [hkt, Function.update_self, if_neg (hnew ch)]
      · rw [Function.update_of_ne hkt]
    · obtain ⟨rfl, rfl⟩ := h.none hx
      have hblank := h.free _ (hext.slot_ge hx) ch hch
      exact (hblank.sent hch).shows hwin.2
  · exact (h.free j (hext.num.trans hj) ch hch).sent hch
  · exact h.none fun hrec => hx (hext.recorded hrec)
  · rw [sent_tail]
    exact (h.sent p hp).trans (Nat.le_succ _)

/-- An acknowledgement from `x` itself. The index it carries is that of the Hello as long as that
is small, and once the Hello has left the window it does not matter. -/
theorem run_acked {ack : RREPAck} {k count : ℕ} (hrec : n.Recorded x)
    (hindex : ack.helloIndex.toNat = k % 256)
    (hcount : ack.channelHelloReceived.toNat = count) (hsent : k ≤ n.helloTail)
    (hsmall : k < 256 ∨ k < n.helloHead) :
    (HelloEvent.run c (.acked ack x) n).AckedBy x ((ack.channel.toNat, k) :: acked)
      (Function.update last ack.channel.toNat count) := by
  have hrecs : n.Records x (HelloEvent.run c (.acked ack x) n) := acked_records hrec
  have hlt := slot_lt_iff.mpr hrec
  have hnum : (HelloEvent.run c (.acked ack x) n).neighborNum = n.neighborNum := rfl
  refine ⟨h.windowed, fun ch hch' => ?_, fun j hj ch hch' => ?_, fun hx => absurd hrecs.recorded hx,
    fun p hp => ?_⟩
  · rw [hrecs.slot]
    have hshow := h.own ch hch'
    have hdef : (findNeighbor n x).getD n.neighborNum = n.slot x := rfl
    by_cases hcc : ch = ack.channel.toNat
    · subst hcc
      constructor
      · by_cases hin : n.helloHead ≤ k
        · have hk : ack.helloIndex.toNat = k := by omega
          have hseries := hshow.series.write hin hsent 1
          simp only [HelloEvent.run, helloAckProcess, Node.modNeighbor, hdef,
            Function.update_self, hk, if_pos hin]
          refine hseries.congr fun i _ _ => ?_
          by_cases hik : i = k
          · rw [hik, Function.update_self, if_pos (List.mem_cons_self ..)]
          · rw [Function.update_of_ne hik]
            simp [hik]
        · have hout : ¬ n.helloHead ≤ ack.helloIndex.toNat := by omega
          simp only [HelloEvent.run, helloAckProcess, Node.modNeighbor, hdef,
            Function.update_self, if_neg hout]
          refine hshow.series.congr fun i hi _ => ?_
          have hik : i ≠ k := by omega
          simp [hik]
      · simp only [HelloEvent.run, helloAckProcess, Node.modNeighbor, hdef, Function.update_self]
        rw [hcount]
    · have hmem : ∀ i, (ch, i) ∈ (ack.channel.toNat, k) :: acked ↔ (ch, i) ∈ acked := by
        intro i
        rw [List.mem_cons, Prod.mk.injEq]
        tauto
      constructor
      · have hkept : ((HelloEvent.run c (.acked ack x) n).neighbors (n.slot x)).channelHelloSequence
            ch = (n.neighbors (n.slot x)).channelHelloSequence ch := by
          simp only [HelloEvent.run, helloAckProcess, Node.modNeighbor, hdef, Function.update_self]
          split
          · exact Function.update_of_ne hcc _ _
          · rfl
        rw [hkept]
        exact hshow.series.congr fun i _ _ => by simp only [hmem i]
      · rw [Function.update_of_ne hcc, ← hshow.count]
        simp only [HelloEvent.run, helloAckProcess, Node.modNeighbor, hdef, Function.update_self]
        split <;> exact Function.update_of_ne hcc _ _
  · rw [hrecs.others j (by omega)]
    exact h.free j (by omega) ch hch'
  · rcases List.mem_cons.mp hp with rfl | hp
    · exact hsent
    · exact h.sent p hp

end Node.AckedBy

/-! ## What the neighbour counts -/

/-- The record of `x`, or the slot it will get, counts the Hellos received from `x`. -/
structure Node.HeardFrom (n : Node) (x : InAddr) (count : ℕ → ℕ) : Prop where
  own : ∀ ch, (n.neighbors (n.slot x)).channelHelloSelfReceived ch = count ch
  free : ∀ j, n.neighborNum ≤ j → ∀ ch, (n.neighbors j).channelHelloSelfReceived ch = 0

namespace Node.HeardFrom

variable {count : ℕ → ℕ} (h : n.HeardFrom x count)
include h

theorem zero_of_not_recorded (hx : ¬ n.Recorded x) (ch : ℕ) : count ch = 0 := by
  have hown := h.own ch
  rw [slot_of_not_recorded hx, h.free _ (le_refl _) ch] at hown
  exact_mod_cast hown.symm

theorem of_kept (hext : n.Extends n')
    (hkept : ∀ j, (j = n.slot x ∧ n.Recorded x ∨ n.neighborNum ≤ j) →
      ((n'.neighbors j).channelHelloSelfReceived = (n.neighbors j).channelHelloSelfReceived ∨
        j < n'.neighborNum ∧ (n'.neighbors j).ipaddr ≠ x)) : n'.HeardFrom x count := by
  have hfree : ∀ j, n.neighborNum ≤ j → (n'.neighborNum ≤ j ∨ j = n'.slot x) → ∀ ch,
      (n'.neighbors j).channelHelloSelfReceived ch = 0 := by
    intro j hj hout ch
    rcases hkept j (.inr hj) with heq | ⟨hlt, hne⟩
    · rw [heq]
      exact h.free j hj ch
    · rcases hout with hle | rfl
      · omega
      · exact absurd (ipaddr_slot (slot_lt_iff.mp hlt)) hne
  refine ⟨fun ch => ?_, fun j hj ch => hfree j (hext.num.trans hj) (.inl hj) ch⟩
  by_cases hx : n.Recorded x
  · have hlt := slot_lt_iff.mpr hx
    rw [hext.slot_eq hx]
    rcases hkept _ (.inl ⟨rfl, hx⟩) with heq | ⟨-, hne⟩
    · rw [heq]
      exact h.own ch
    · rw [hext.ipaddr _ hlt] at hne
      exact absurd (ipaddr_slot hx) hne
  · rw [hfree _ (hext.slot_ge hx) (.inr rfl) ch, h.zero_of_not_recorded hx ch]
    rfl

theorem run_sent : (HelloEvent.run c .sent n).HeardFrom x count :=
  h.of_kept (sent_extends n) fun j _ => .inl (sent_neighbors n j).2.1

theorem run_same (hs : n.SameHello n') : n'.HeardFrom x count := by
  refine h.of_kept hs.toExtends fun j _ => .inl ?_
  rw [(hs.neighbors j).rest]

theorem run_acked {ack : RREPAck} {ipSrc : InAddr} (hrec : n.Recorded ipSrc) :
    (HelloEvent.run c (.acked ack ipSrc) n).HeardFrom x count := by
  have hrecs : n.Records ipSrc (HelloEvent.run c (.acked ack ipSrc) n) := acked_records hrec
  refine h.of_kept hrecs.toExtends fun j _ => .inl ?_
  by_cases hj : j = n.slot ipSrc
  · subst hj
    have hdef : (findNeighbor n ipSrc).getD n.neighborNum = n.slot ipSrc := rfl
    simp only [HelloEvent.run, helloAckProcess, Node.modNeighbor, hdef, Function.update_self]
    split <;> rfl
  · rw [hrecs.others j hj]

theorem run_heard_other {hello : RREP} (hne : hello.destAddr ≠ x) (ht : Tidy n (.heard hello)) :
    (HelloEvent.run c (.heard hello) n).HeardFrom x count := by
  have hrecs := heard_records (c := c) ht
  refine h.of_kept hrecs.toExtends fun j _ => ?_
  by_cases hj : j = n.slot hello.destAddr
  · subst hj
    refine .inr ⟨?_, fun he => hne (hrecs.ipaddr.symm.trans he)⟩
    rw [hrecs.num]
    exact (Nat.lt_succ_self _).trans_le (le_max_right _ _)
  · rw [hrecs.others j hj]
    exact .inl rfl

theorem run_heard {hello : RREP} (hx : hello.destAddr = x) (ht : Tidy n (.heard hello)) :
    (HelloEvent.run c (.heard hello) n).HeardFrom x
      (Function.update count hello.channel.toNat (count hello.channel.toNat + 1)) := by
  subst hx
  have hrecs := heard_records (c := c) ht
  have hslot := (helloRecord_records hello n).helloSlot ht.2
  have hself : ((helloRecord hello n).neighbors
        (n.slot hello.destAddr)).channelHelloSelfReceived =
      (n.neighbors (n.slot hello.destAddr)).channelHelloSelfReceived := by
    have hrel := (helloRecord_relabels hello n).neighbors (n.slot hello.destAddr)
    rw [hrel]
  refine ⟨fun ch => ?_, fun j hj ch => ?_⟩
  · rw [hrecs.slot]
    simp only [HelloEvent.run, helloCount, Node.modNeighbor, hslot, Function.update_self]
    rw [hself]
    by_cases hch : ch = hello.channel.toNat
    · rw [hch, Function.update_self, Function.update_self, h.own]
      push_cast
      rfl
    · rw [Function.update_of_ne hch, Function.update_of_ne hch, h.own]
  · have hnum := hrecs.num
    rw [hrecs.others j (by omega)]
    exact h.free j (by omega) ch

end Node.HeardFrom

/-! ## Two nodes -/

/-- An acknowledgement on its way, and what it is about: the channel and the number of the Hello,
and how many Hellos had been received on that channel. -/
structure InFlight where
  ack : RREPAck
  channel : ℕ
  hello : ℕ
  received : ℕ

/-- Node `a` sends Hellos and `b` acknowledges them; `acks` is in the order of sending. The rest
records the run: the acknowledgements processed, by channel and Hello, what the last of them on a
channel was about, and the Hellos that `b` has received. -/
structure HelloLink where
  a : Node
  b : Node
  acks : List InFlight := []
  acked : List (ℕ × ℕ) := []
  last : ℕ → ℕ := fun _ => 0
  heard : ℕ → ℕ := fun _ => 0

inductive LinkEvent where
  | sends
  | hears (hello : RREP) (k : ℕ)
  | processes
  | loses (i : ℕ)
  | atA (e : HelloEvent)
  | atB (e : HelloEvent)

def HelloLink.run (c : Ctx) (s : HelloLink) : LinkEvent → HelloLink
  | .sends => { s with a := HelloEvent.run c .sent s.a }
  | .hears hello k =>
    let b := HelloEvent.run c (.heard hello) s.b
    let ch := hello.channel.toNat
    { s with
      b := b
      acks := s.acks ++ [⟨helloAck hello b, ch, k, s.heard ch + 1⟩]
      heard := Function.update s.heard ch (s.heard ch + 1) }
  | .processes =>
    match s.acks with
    | [] => s
    | f :: fs =>
      { s with
        a := HelloEvent.run c (.acked f.ack s.b.ipaddr) s.a
        acks := fs
        acked := (f.channel, f.hello) :: s.acked
        last := Function.update s.last f.channel f.received }
  | .loses i => { s with acks := s.acks.eraseIdx i }
  | .atA e => { s with a := e.run c s.a }
  | .atB e => { s with b := e.run c s.b }

/-- `b` hears Hellos that `a` has sent; what else happens at the two is not part of the
link. -/
def LinkEvent.Legal (s : HelloLink) : LinkEvent → Prop
  | .hears hello k => hello.destAddr = s.a.ipaddr ∧ 0 < k ∧ k ≤ s.a.helloTail ∧
      hello.helloSent = BitVec.ofNat 32 k
  | .atA e => e ≠ .sent ∧ ∀ ack, e ≠ .acked ack s.b.ipaddr
  | .atB e => ∀ hello, e = .heard hello → hello.destAddr ≠ s.a.ipaddr
  | _ => True

/-- The events of both nodes are tidy, and an acknowledgement comes before its Hello's number or
its count has outgrown eight bits, or when the Hello has left the window. -/
def SmallCounters (s : HelloLink) : LinkEvent → Prop
  | .sends => Tidy s.a .sent
  | .hears hello _ => Tidy s.b (.heard hello)
  | .processes => ∀ f ∈ s.acks.head?, Tidy s.a (.acked f.ack s.b.ipaddr) ∧
      (f.hello < 256 ∨ f.hello < s.a.helloHead) ∧ f.received < 256
  | .loses _ => True
  | .atA e => Tidy s.a e
  | .atB e => Tidy s.b e

inductive LinkRun (ok : HelloLink → LinkEvent → Prop) (c c' : Ctx) (x y : InAddr) :
    HelloLink → Prop
  | init : LinkRun ok c c' x y { a := Node.init c x, b := Node.init c' y }
  | event {s : HelloLink} (env : Env) (e : LinkEvent) (he : e.Legal s) (hok : ok s e) :
      LinkRun ok c c' x y s → LinkRun ok c c' x y (s.run { c with env } e)
  | rest {s : HelloLink} {a b : Node} (ha : s.a.SameHello a) (hb : s.b.SameHello b) :
      LinkRun ok c c' x y s → LinkRun ok c c' x y { s with a, b }

/-! ## The window is faithful -/

theorem HelloEvent.run_ipaddr (e : HelloEvent) (n : Node) : (e.run c n).ipaddr = n.ipaddr := by
  cases e with
  | sent => exact (updateNeighborInfo_relabels _).ipaddr
  | heard hello => exact (helloRecord_relabels hello n).ipaddr
  | acked ack ipSrc => rfl

/-- The fields of an acknowledgement are those of what it is about, in eight bits. -/
structure InFlight.Carries (f : InFlight) (tail : ℕ) : Prop where
  channel : f.ack.channel.toNat = f.channel
  index : f.ack.helloIndex.toNat = f.hello % 256
  count : f.ack.channelHelloReceived.toNat = f.received % 256
  sent : f.hello ≤ tail

structure HelloLink.Faithful (s : HelloLink) : Prop where
  acked : s.a.AckedBy s.b.ipaddr s.acked s.last
  heard : s.b.HeardFrom s.a.ipaddr s.heard
  flight : ∀ f ∈ s.acks, f.Carries s.a.helloTail

theorem helloAck_carries {s : HelloLink} (h : s.b.HeardFrom s.a.ipaddr s.heard) {hello : RREP}
    {k : ℕ} (hdest : hello.destAddr = s.a.ipaddr) (hk : k ≤ s.a.helloTail)
    (hsent : hello.helloSent = BitVec.ofNat 32 k) (ht : Tidy s.b (.heard hello)) :
    InFlight.Carries ⟨helloAck hello (HelloEvent.run c (.heard hello) s.b), hello.channel.toNat, k,
      s.heard hello.channel.toNat + 1⟩ s.a.helloTail := by
  have hrecs := heard_records (c := c) ht
  have hslot := hrecs.helloSlot ht.2
  have hcount := (h.run_heard (c := c) hdest ht).own hello.channel.toNat
  rw [Function.update_self, ← hdest, hrecs.slot] at hcount
  refine ⟨rfl, ?_, ?_, hk⟩
  · show (hello.helloSent.setWidth 8).toNat = k % 256
    rw [hsent, BitVec.toNat_setWidth, BitVec.toNat_ofNat]
    omega
  · show (BitVec.ofInt 8 (((HelloEvent.run c (.heard hello) s.b).neighbors
      (helloSlot (HelloEvent.run c (.heard hello) s.b) hello.destAddr)).channelHelloSelfReceived
        hello.channel.toNat)).toNat = (s.heard hello.channel.toNat + 1) % 256
    rw [hslot, hcount, BitVec.toNat_ofInt]
    omega

theorem HelloLink.Faithful.run {s : HelloLink} (h : s.Faithful) {e : LinkEvent}
    (he : e.Legal s) (hok : SmallCounters s e) : (s.run c e).Faithful := by
  cases e with
  | sends =>
    refine ⟨h.acked.run_sent hok, ?_, fun f hf => ?_⟩
    · have hip : (HelloEvent.run c .sent s.a).ipaddr = s.a.ipaddr := HelloEvent.run_ipaddr _ _
      show s.b.HeardFrom (HelloEvent.run c .sent s.a).ipaddr s.heard
      rw [hip]
      exact h.heard
    · have hc := h.flight f hf
      have htail : (s.run c .sends).a.helloTail = s.a.helloTail + 1 := sent_tail s.a
      exact ⟨hc.channel, hc.index, hc.count, htail ▸ hc.sent.trans (Nat.le_succ _)⟩
  | hears hello k =>
    obtain ⟨hdest, -, hk, hsent⟩ := he
    have hip : (HelloEvent.run c (.heard hello) s.b).ipaddr = s.b.ipaddr :=
      HelloEvent.run_ipaddr _ _
    have hheard := h.heard.run_heard (c := c) hdest hok
    refine ⟨?_, hheard, fun f hf => ?_⟩
    · show s.a.AckedBy (HelloEvent.run c (.heard hello) s.b).ipaddr s.acked s.last
      rw [hip]
      exact h.acked
    · rcases List.mem_append.mp hf with hf | hf
      · exact h.flight f hf
      · rw [List.mem_singleton.mp hf]
        exact helloAck_carries h.heard hdest hk hsent hok
  | processes =>
    cases hacks : s.acks with
    | nil =>
      have hsame : s.run c .processes = s := by
        unfold HelloLink.run
        rw [hacks]
      rw [hsame]
      exact h
    | cons f fs =>
      obtain ⟨ht, hsmall, hcount⟩ := hok f (by rw [hacks]; rfl)
      have hc := h.flight f (by rw [hacks]; exact List.mem_cons_self ..)
      have hrun : s.run c .processes =
          { s with
            a := HelloEvent.run c (.acked f.ack s.b.ipaddr) s.a
            acks := fs
            acked := (f.channel, f.hello) :: s.acked
            last := Function.update s.last f.channel f.received } := by
        unfold HelloLink.run
        rw [hacks]
      rw [hrun]
      refine ⟨?_, h.heard, fun g hg => h.flight g (by rw [hacks]; exact List.mem_cons_of_mem _ hg)⟩
      have hrec := h.acked.run_acked (c := c) ht.2 hc.index
        (hc.count.trans (Nat.mod_eq_of_lt hcount)) hc.sent hsmall
      rw [hc.channel] at hrec
      exact hrec
  | loses i =>
    exact ⟨h.acked, h.heard, fun f hf => h.flight f (List.mem_of_mem_eraseIdx hf)⟩
  | atA e =>
    have hip : (e.run c s.a).ipaddr = s.a.ipaddr := HelloEvent.run_ipaddr _ _
    have hheard : s.b.HeardFrom (e.run c s.a).ipaddr s.heard := by
      rw [hip]
      exact h.heard
    obtain ⟨hsent, hother⟩ := he
    cases e with
    | sent => exact absurd rfl hsent
    | heard hello =>
      have htail : (HelloEvent.run c (.heard hello) s.a).helloTail = s.a.helloTail :=
        (helloRecord_relabels hello s.a).helloTail
      refine ⟨h.acked.run_heard (c := c) hok, hheard, fun f hf => ?_⟩
      have hc := h.flight f hf
      exact ⟨hc.channel, hc.index, hc.count, hc.sent.trans_eq htail.symm⟩
    | acked ack ipSrc =>
      have hne : ipSrc ≠ s.b.ipaddr := fun heq => hother ack (by rw [heq])
      exact ⟨h.acked.run_acked_other (c := c) hne hok.2, hheard, h.flight⟩
  | atB e =>
    have hip : (e.run c s.b).ipaddr = s.b.ipaddr := HelloEvent.run_ipaddr _ _
    have hacked : s.a.AckedBy (e.run c s.b).ipaddr s.acked s.last := by
      rw [hip]
      exact h.acked
    cases e with
    | sent => exact ⟨hacked, h.heard.run_sent, h.flight⟩
    | heard hello => exact ⟨hacked, h.heard.run_heard_other (c := c) (he hello rfl) hok, h.flight⟩
    | acked ack ipSrc => exact ⟨hacked, h.heard.run_acked (c := c) hok.2, h.flight⟩

theorem HelloLink.Faithful.init (c c' : Ctx) (x y : InAddr) :
    HelloLink.Faithful { a := Node.init c x, b := Node.init c' y } where
  acked :=
    { windowed := ⟨le_refl 0, Nat.zero_lt_succ 9⟩
      own := fun ch _ => NeighborInfo.Blank.shows ⟨fun _ => rfl, rfl⟩ (Nat.zero_lt_succ 9)
      free := fun j _ ch _ => ⟨fun _ => rfl, rfl⟩
      none := fun _ => ⟨rfl, rfl⟩
      sent := fun p hp => by cases hp }
  heard := ⟨fun _ => rfl, fun _ _ _ => rfl⟩
  flight f hf := by cases hf

theorem HelloLink.Faithful.rest {s : HelloLink} {a b : Node} (h : s.Faithful) (ha : s.a.SameHello a)
    (hb : s.b.SameHello b) : HelloLink.Faithful { s with a, b } := by
  refine ⟨?_, ?_, fun f hf => ?_⟩
  · show a.AckedBy b.ipaddr s.acked s.last
    rw [hb.ipaddr]
    exact h.acked.run_same ha
  · show b.HeardFrom a.ipaddr s.heard
    rw [ha.ipaddr]
    exact h.heard.run_same hb
  · have hc := h.flight f hf
    exact ⟨hc.channel, hc.index, hc.count, hc.sent.trans_eq ha.helloTail.symm⟩

theorem LinkRun.faithful {c c' : Ctx} {x y : InAddr} {s : HelloLink}
    (h : LinkRun SmallCounters c c' x y s) : s.Faithful := by
  induction h with
  | init => exact HelloLink.Faithful.init c c' x y
  | event env e he hok _ ih => exact ih.run he hok
  | rest ha hb _ ih => exact ih.rest ha hb

/-- In the record for the neighbour the slots of the window say which Hellos it has acknowledged,
and the count is the one its last acknowledgement on the channel stood for. -/
theorem hello_window_faithful {c c' : Ctx} {x y : InAddr} {s : HelloLink}
    (h : LinkRun SmallCounters c c' x y s) {j : ℕ}
    (hj : findNeighbor s.a s.b.ipaddr = some j) {ch : ℕ} (hch : ch < maxChannelNum) :
    (∀ k, s.a.helloHead ≤ k → k ≤ s.a.helloTail →
      ((s.a.neighbors j).channelHelloSequence ch (k % maxSequenceLen) = 1 ↔
        (ch, k) ∈ s.acked)) ∧
    (s.a.neighbors j).channelHelloRemoteReceived ch = s.last ch := by
  have hslot : s.a.slot s.b.ipaddr = j := by
    unfold Node.slot
    rw [hj]
    rfl
  have hshow := h.faithful.acked.own ch hch
  rw [hslot] at hshow
  refine ⟨fun k hlo hhi => ?_, hshow.count⟩
  rw [hshow.series.cell k hlo hhi]
  by_cases hmem : (ch, k) ∈ s.acked
  · simp [hmem]
  · simp [hmem]

/-! ## Concrete runs -/

def freshLink : HelloLink :=
  { a := Node.init (sampleCtx 0) 1, b := Node.init (sampleCtx 0) 2 }

def sendingLink (k : ℕ) : HelloLink :=
  (fun s => s.run (sampleCtx 0) .sends)^[k]
    (freshLink.run (sampleCtx 0) (.atA (.heard (helloOn 2 0))))

theorem sendingLink_succ (k : ℕ) :
    sendingLink (k + 1) = (sendingLink k).run (sampleCtx 0) .sends :=
  Function.iterate_succ_apply' _ k _

theorem sendingLink_spec (k : ℕ) : (sendingLink k).a.helloTail = k ∧
    (sendingLink k).a.helloHead = k - 9 ∧ (sendingLink k).a.neighborNum = 1 ∧
    ((sendingLink k).a.neighbors 0).ipaddr = 2 ∧ heard (sendingLink k).a = [] := by
  induction k with
  | zero => exact ⟨rfl, rfl, by decide +kernel, by decide +kernel, by decide +kernel⟩
  | succ k ih =>
    obtain ⟨htail, hhead, hnum, hip, hheard⟩ := ih
    have hwin : (sendingLink k).a.Windowed := by
      unfold Node.Windowed
      rw [htail, hhead, show maxSequenceLen = 10 from rfl]
      omega
    have hfull := windowFull_iff hwin
    rw [htail, hhead, show maxSequenceLen = 10 from rfl] at hfull
    have ha : (sendingLink (k + 1)).a = HelloEvent.run (sampleCtx 0) .sent (sendingLink k).a := by
      rw [sendingLink_succ]
      rfl
    have hext := sent_extends (c := sampleCtx 0) (sendingLink k).a
    rw [ha]
    refine ⟨?_, ?_, ?_, ?_, ?_⟩
    · rw [sent_tail, htail]
    · rw [sent_head, hhead]
      split
      · next hw =>
        have heq := hfull.mp hw
        omega
      · next hw =>
        have hne : k + 1 ≠ k - 9 + 10 := fun heq => hw (hfull.mpr heq)
        omega
    · rw [sent_num, hnum, hheard]
      rfl
    · rw [hext.ipaddr 0 (by omega), hip]
    · exact (heard_congr (updateNeighborInfo_relabels _).tbl).trans hheard

theorem sendingLink_run (k : ℕ) :
    LinkRun SmallCounters (sampleCtx 0) (sampleCtx 0) 1 2 (sendingLink k) := by
  induction k with
  | zero =>
    refine .event { now := 0 } (.atA (.heard (helloOn 2 0))) ⟨nofun, nofun⟩ ?_ .init
    exact ⟨⟨by decide, .inr (by decide)⟩, .inr fun j hj => absurd hj (by decide +revert)⟩
  | succ k ih =>
    obtain ⟨-, -, hnum, -, hheard⟩ := sendingLink_spec k
    rw [sendingLink_succ]
    refine .event { now := 0 } .sends trivial ⟨?_, trivial⟩ ih
    show (sendingLink k).a.neighborNum +
      ((sendingLink k).a.unrecorded (heard (sendingLink k).a)).card ≤ 20
    rw [hnum, hheard]
    exact Nat.lt_succ_of_lt (by decide)

theorem sendingLink_rest (k : ℕ) : (sendingLink k).b = Node.init (sampleCtx 0) 2 ∧
    (sendingLink k).acks = [] ∧ (sendingLink k).acked = [] ∧
    (sendingLink k).a.ipaddr = 1 := by
  induction k with
  | zero => exact ⟨rfl, rfl, rfl, rfl⟩
  | succ k ih =>
    rw [sendingLink_succ]
    exact ⟨ih.1, ih.2.1, ih.2.2.1, (HelloEvent.run_ipaddr _ _).trans ih.2.2.2⟩

/-- The last Hello has been received, and its acknowledgement is on its way. -/
def answeredLink (k : ℕ) : HelloLink :=
  (sendingLink k).run (sampleCtx 0) (.hears (helloNumbered 1 0 k) k)

theorem answeredLink_run {k : ℕ} (hk : 0 < k) :
    LinkRun SmallCounters (sampleCtx 0) (sampleCtx 0) 1 2 (answeredLink k) := by
  obtain ⟨htail, -⟩ := sendingLink_spec k
  obtain ⟨hb, -, -, hip⟩ := sendingLink_rest k
  refine .event { now := 0 } (.hears (helloNumbered 1 0 k) k) ⟨hip.symm, hk, htail.ge, rfl⟩ ?_
    (sendingLink_run k)
  show Tidy (sendingLink k).b (.heard (helloNumbered 1 0 k))
  rw [hb]
  exact ⟨⟨Nat.zero_lt_succ 2, .inr (by decide)⟩, .inr fun j hj => absurd hj (Nat.not_lt_zero j)⟩

def answer (k : ℕ) : RREPAck :=
  helloAck (helloNumbered 1 0 k)
    (HelloEvent.run (sampleCtx 0) (.heard (helloNumbered 1 0 k)) (Node.init (sampleCtx 0) 2))

theorem answeredLink_acks (k : ℕ) :
    ∃ received, (answeredLink k).acks = [⟨answer k, 0, k, received⟩] ∧
      (answeredLink k).acked = [] ∧ (answeredLink k).a = (sendingLink k).a ∧
      (answeredLink k).b.ipaddr = 2 := by
  obtain ⟨hb, hacks, hacked, -⟩ := sendingLink_rest k
  refine ⟨(sendingLink k).heard 0 + 1, ?_, hacked, rfl, ?_⟩
  · show (sendingLink k).acks ++ [_] = _
    rw [hacks, hb]
    rfl
  · show (HelloEvent.run (sampleCtx 0) _ (sendingLink k).b).ipaddr = 2
    rw [HelloEvent.run_ipaddr, hb]
    rfl

instance (s : HelloLink) : (e : LinkEvent) → Decidable (e.Legal s)
  | .hears _ _ => inferInstanceAs (Decidable (_ ∧ _ ∧ _ ∧ _))
  | .sends | .processes | .loses _ => .isTrue trivial
  | .atA .sent => .isFalse fun h => h.1 rfl
  | .atA (.heard _) => .isTrue ⟨nofun, nofun⟩
  | .atA (.acked _ x) => decidable_of_iff (x ≠ s.b.ipaddr)
      ⟨fun h => ⟨nofun, fun _ heq => h (HelloEvent.acked.inj heq).2⟩,
        fun h heq => h.2 _ (congrArg _ heq)⟩
  | .atB .sent | .atB (.acked _ _) => .isTrue nofun
  | .atB (.heard hello) => decidable_of_iff (hello.destAddr ≠ s.a.ipaddr)
      ⟨fun h _ heq => HelloEvent.heard.inj heq ▸ h, fun h => h _ rfl⟩

instance (s : HelloLink) : (e : LinkEvent) → Decidable (SmallCounters s e)
  | .sends | .hears _ _ | .atA _ | .atB _ => inferInstanceAs (Decidable (Tidy _ _))
  | .processes => inferInstanceAs (Decidable (∀ f ∈ s.acks.head?, _))
  | .loses _ => .isTrue trivial

def LinkEvent.Allowed (c : Ctx) : List LinkEvent → HelloLink → Prop
  | [], _ => True
  | e :: es, s => (e.Legal s ∧ SmallCounters s e) ∧ LinkEvent.Allowed c es (s.run c e)

instance LinkEvent.decidableAllowed (c : Ctx) :
    (es : List LinkEvent) → (s : HelloLink) → Decidable (LinkEvent.Allowed c es s)
  | [], _ => .isTrue trivial
  | e :: es, s =>
    have := LinkEvent.decidableAllowed c es (s.run c e)
    inferInstanceAs (Decidable (_ ∧ _))

theorem LinkRun.runAll {x y : InAddr} {es : List LinkEvent} {s : HelloLink}
    (h : LinkRun SmallCounters c c x y s) (hes : LinkEvent.Allowed c es s) :
    LinkRun SmallCounters c c x y (es.foldl (HelloLink.run c) s) := by
  induction es generalizing s with
  | nil => exact h
  | cons e es ih => exact ih (.event c.env e hes.1.1 hes.1.2 h) hes.2

/-- Of twelve Hellos two in three are heard, now on one channel and now on the other, and every
fourth acknowledgement is lost. -/
def talk : List LinkEvent :=
  (List.range 12).flatMap fun k => .sends :: if k % 3 = 2 then [] else
    [.hears (helloNumbered 1 (BitVec.ofNat 8 (k % 2)) (k + 1)) (k + 1),
      if k % 4 = 3 then .loses 0 else .processes]

def talkingLink : HelloLink := talk.foldl (HelloLink.run (sampleCtx 0)) (sendingLink 0)

theorem hello_window_faithful_talking :
    (talkingLink.a.helloHead = 3 ∧ talkingLink.a.helloTail = 12 ∧
      talkingLink.acked = [(0, 11), (1, 10), (0, 7), (0, 5), (1, 2), (0, 1)]) ∧
    (∀ k, talkingLink.a.helloHead ≤ k → k ≤ talkingLink.a.helloTail →
      ((talkingLink.a.neighbors 0).channelHelloSequence 0 (k % maxSequenceLen) = 1 ↔
        (0, k) ∈ talkingLink.acked)) ∧
    (talkingLink.a.neighbors 0).channelHelloRemoteReceived 0 = talkingLink.last 0 := by
  have hrun : LinkRun SmallCounters (sampleCtx 0) (sampleCtx 0) 1 2 talkingLink :=
    (sendingLink_run 0).runAll (by decide +kernel)
  exact ⟨by decide +kernel,
    hello_window_faithful hrun (j := 0) (by decide +kernel) (by decide)⟩

theorem answer_index (k : ℕ) : (answer k).helloIndex.toNat = k % 256 := by
  show ((BitVec.ofNat 32 k).setWidth 8).toNat = k % 256
  rw [BitVec.toNat_setWidth, BitVec.toNat_ofNat]
  omega

theorem acked_before_window {ack : RREPAck} {j ch : ℕ} (h : ack.helloIndex.toNat < n.helloHead) :
    ((HelloEvent.run c (.acked ack x) n).neighbors j).channelHelloSequence ch =
      (n.neighbors j).channelHelloSequence ch := by
  simp only [HelloEvent.run, helloAckProcess, Node.modNeighbor, if_neg (not_le.mpr h)]
  by_cases hj : j = (findNeighbor n x).getD n.neighborNum
  · subst hj
    simp
  · simp [hj]

theorem LinkRun.mono {ok ok' : HelloLink → LinkEvent → Prop} {c c' : Ctx} {x y : InAddr}
    {s : HelloLink} (hok : ∀ s e, ok s e → ok' s e) (h : LinkRun ok c c' x y s) :
    LinkRun ok' c c' x y s := by
  induction h with
  | init => exact .init
  | event env e he h _ ih => exact .event env e he (hok _ e h) ih
  | rest ha hb _ ih => exact .rest ha hb ih

theorem acked_window (ack : RREPAck) (n : Node) :
    (HelloEvent.run c (.acked ack x) n).helloHead = n.helloHead ∧
    (HelloEvent.run c (.acked ack x) n).helloTail = n.helloTail := ⟨rfl, rfl⟩

/-- The 256th Hello is acknowledged with index 0, which is no longer in the window. -/
theorem hello_window_unfaithful : ∃ s,
    LinkRun (fun _ _ => True) (sampleCtx 0) (sampleCtx 0) 1 2 s ∧
    ∃ j k, findNeighbor s.a s.b.ipaddr = some j ∧ s.a.helloHead ≤ k ∧ k ≤ s.a.helloTail ∧
      (0, k) ∈ s.acked ∧ (s.a.neighbors j).channelHelloSequence 0 (k % maxSequenceLen) ≠ 1 := by
  obtain ⟨received, hacks, hacked, ha, hb⟩ := answeredLink_acks 256
  obtain ⟨htail, hhead, hnum, hip, -⟩ := sendingLink_spec 256
  have hfree : LinkRun (fun _ _ => True) (sampleCtx 0) (sampleCtx 0) 1 2 (answeredLink 256) :=
    (answeredLink_run (by decide)).mono fun _ _ _ => trivial
  have hrun := LinkRun.event { now := 0 } .processes trivial trivial hfree
  have hblank := (answeredLink_run (k := 256) (by decide)).faithful.acked.own 0 (by decide)
  have hindex := answer_index 256
  generalize answeredLink 256 = s at *
  generalize (sendingLink 256).a = n at *
  generalize answer 256 = ack at *
  subst ha
  have hrec : s.a.Recorded 2 := ⟨0, by omega, hip⟩
  have hrecs : s.a.Records 2 (HelloEvent.run (sampleCtx 0) (.acked ack 2) s.a) := acked_records hrec
  have hfind : findNeighbor (HelloEvent.run (sampleCtx 0) (.acked ack 2) s.a) 2 = some 0 := by
    refine findNeighbor_eq_some.mpr ⟨?_, ?_, fun i hi => absurd hi (Nat.not_lt_zero i)⟩
    · rw [hrecs.num_of_recorded hrec]
      omega
    · rw [hrecs.ipaddr_of_lt (by omega), hip]
  have hslot : s.a.slot s.b.ipaddr = 0 := by
    rw [hb]
    exact slot_eq (Nat.zero_le _) (fun i hi => absurd hi (Nat.not_lt_zero i)) fun _ => hip
  have hsame : s.run (sampleCtx 0) .processes =
      { s with
        a := HelloEvent.run (sampleCtx 0) (.acked ack 2) s.a
        acks := []
        acked := [(0, 256)]
        last := Function.update s.last 0 received } := by
    unfold HelloLink.run
    rw [hacks, hacked, hb]
  rw [show ({ sampleCtx 0 with env := { now := 0 } } : Ctx) = sampleCtx 0 from rfl, hsame] at hrun
  obtain ⟨hhead', htail'⟩ := acked_window (c := sampleCtx 0) (x := 2) ack s.a
  have hcell : ((HelloEvent.run (sampleCtx 0) (.acked ack 2) s.a).neighbors 0).channelHelloSequence 0
      (256 % maxSequenceLen) = 0 := by
    -- The slot holds what was put there when the Hello was sent.
    have hold := hblank.series.cell 256 (by omega) htail.ge
    rw [hslot, hacked] at hold
    rw [acked_before_window (by omega), hold]
    exact if_neg List.not_mem_nil
  refine ⟨_, hrun, 0, 256, ?_, ?_, ?_, ?_, ?_⟩
  · rw [hb]
    exact hfind
  · rw [hhead']
    omega
  · rw [htail']
    omega
  · exact List.mem_cons_self ..
  · rw [hcell]
    decide

end AodvUU

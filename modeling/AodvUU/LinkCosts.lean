import Mathlib.Tactic.Linarith
import Mathlib.Tactic.FieldSimp
import AodvUU.HelloWindow
import AodvUU.PathCosts

/-! # Link costs

The score of a link is bounded as long as the Hello window is filling. Once it is full, `hello_send`
adds up three parts that are bounded one by one, and the sum can pass one. -/
namespace AodvUU

variable {c : Ctx} {n n' : Node} {a : InAddr}

/-! ## Ranges of the counters -/

structure Node.Counted (n : Node) : Prop where
  windowed : n.Windowed
  series : ∀ j, ∀ ch < maxChannelNum, ∀ k, (n.neighbors j).channelHelloSequence ch k = 0 ∨
    (n.neighbors j).channelHelloSequence ch k = 1

theorem acked_neighbors (ack : RREPAck) (ipSrc : InAddr) (n : Node) (j : ℕ) :
    (∀ ch k, ((HelloEvent.run c (.acked ack ipSrc) n).neighbors j).channelHelloSequence ch k =
        (n.neighbors j).channelHelloSequence ch k ∨
      ((HelloEvent.run c (.acked ack ipSrc) n).neighbors j).channelHelloSequence ch k = 1) ∧
    ((HelloEvent.run c (.acked ack ipSrc) n).neighbors j).channelCost =
      (n.neighbors j).channelCost := by
  simp only [HelloEvent.run, helloAckProcess, Node.modNeighbor]
  by_cases hj : j = (findNeighbor n ipSrc).getD n.neighborNum
  · subst hj
    rw [Function.update_self]
    split
    · refine ⟨fun ch k => ?_, rfl⟩
      dsimp only
      by_cases hch : ch = ack.channel.toNat
      · subst hch
        rw [Function.update_self]
        by_cases hk : k = ack.helloIndex.toNat % maxSequenceLen
        · rw [hk, Function.update_self]
          exact .inr rfl
        · rw [Function.update_of_ne hk]
          exact .inl rfl
      · rw [Function.update_of_ne hch]
        exact .inl rfl
    · exact ⟨fun _ _ => .inl rfl, rfl⟩
  · rw [Function.update_of_ne hj]
    exact ⟨fun _ _ => .inl rfl, rfl⟩

theorem Node.Counted.run (h : n.Counted) (e : HelloEvent) : (e.run c n).Counted := by
  refine ⟨h.windowed.run e, fun j ch hch k => ?_⟩
  have hold := h.series j ch hch k
  cases e with
  | sent =>
    rw [(sent_neighbors n j).2.2 ch hch]
    split
    · by_cases hk : k = (n.helloTail + 1) % maxSequenceLen
      · rw [hk, Function.update_self]
        exact .inl rfl
      · rw [Function.update_of_ne hk]
        exact hold
    · exact hold
  | heard hello =>
    rw [(heard_neighbors hello n j).1]
    exact hold
  | acked ack ipSrc =>
    rcases (acked_neighbors (c := c) ack ipSrc n j).1 ch k with h0 | h1
    · rw [h0]
      exact hold
    · exact .inr h1

theorem Node.Counted.run_same (h : n.Counted) (hs : n.SameHello n') : n'.Counted := by
  refine ⟨?_, fun j ch hch k => ?_⟩
  · unfold Node.Windowed
    rw [hs.helloHead, hs.helloTail]
    exact h.windowed
  · rw [(hs.neighbors j).rest]
    exact h.series j ch hch k

/-! ## The score -/

theorem stableCount_le (h : n.Windowed) (nb : NeighborInfo) : stableCount n nb ≤ 9 := by
  obtain ⟨hle, hlt⟩ := h
  rw [show maxSequenceLen = 10 from rfl] at hlt
  have hlen : ∀ t, ((List.range t).filter (fun k => n.helloHead ≤ k)).length ≤ t - n.helloHead := by
    intro t
    induction t with
    | zero => exact Nat.zero_le _
    | succ t ih =>
      have hlast : ([t].filter (fun k => n.helloHead ≤ k)).length =
          if n.helloHead ≤ t then 1 else 0 := by
        by_cases ht : n.helloHead ≤ t <;> simp [ht]
      rw [List.range_succ, List.filter_append, List.length_append, hlast]
      split <;> omega
  have hcount : stableCount n nb ≤ _ := List.countP_le_length
  exact hcount.trans ((hlen n.helloTail).trans (by omega))

/-- What the acknowledgements of the last Hello and of the second last before it, and the stable
slots, leave of the bound when the Hello between them was acknowledged. -/
def slack (n : Node) (nb : NeighborInfo) (ch : ℕ) : ℚ :=
  100 / 33 - 1592944 / 1000000 -
    39934 / 1000000 * nb.channelHelloSequence ch (n.helloTail % maxSequenceLen) -
    80530 / 1000000 * nb.channelHelloSequence ch ((n.helloTail - 2) % maxSequenceLen) -
    stableCount n nb / 10

/-- The window is not full, or the Hello before the last was not acknowledged, or the delivery
counts fit into the slack. -/
def Tame (n : Node) (nb : NeighborInfo) (ch : ℕ) : Prop :=
  ¬ windowFull n ∨
  nb.channelHelloSequence ch ((n.helloTail - 1) % maxSequenceLen) = 0 ∨
  1 ≤ slack n nb ch ∨ nb.channelHelloRemoteSent ≤ 0 ∨
  (nb.channelHelloRemoteReceived ch * nb.channelHelloSelfReceived ch : ℚ) ≤
    slack n nb ch * (n.helloTail * nb.channelHelloRemoteSent)

theorem deliverRate_le_one (n : Node) (nb : NeighborInfo) (ch : ℕ) : deliverRate n nb ch ≤ 1 := by
  have hdef : ∃ x : ℚ, deliverRate n nb ch = if x > 1 then 1 else x := ⟨_, rfl⟩
  obtain ⟨x, hx⟩ := hdef
  rw [hx]
  split
  · exact le_refl _
  · next h => exact not_lt.mp h

theorem deliverRate_le_iff {nb : NeighborInfo} {ch : ℕ} {s : ℚ} (hs : 0 < s)
    (ht : 0 < n.helloTail) : deliverRate n nb ch ≤ s ↔
      1 ≤ s ∨ nb.channelHelloRemoteSent ≤ 0 ∨
      (nb.channelHelloRemoteReceived ch * nb.channelHelloSelfReceived ch : ℚ) ≤
        s * (n.helloTail * nb.channelHelloRemoteSent) := by
  have htail : (0 : ℚ) < n.helloTail := by exact_mod_cast ht
  unfold deliverRate
  rw [if_pos ht]
  by_cases hsent : nb.channelHelloRemoteSent > 0
  · have hrate : (0 : ℚ) < n.helloTail * nb.channelHelloRemoteSent :=
      mul_pos htail (by exact_mod_cast hsent)
    have hmul : (nb.channelHelloRemoteReceived ch / n.helloTail : ℚ) *
        (nb.channelHelloSelfReceived ch / nb.channelHelloRemoteSent) =
        nb.channelHelloRemoteReceived ch * nb.channelHelloSelfReceived ch /
          (n.helloTail * nb.channelHelloRemoteSent) := div_mul_div_comm _ _ _ _
    rw [if_pos hsent]
    dsimp only
    rw [hmul, ← div_le_iff₀ hrate]
    generalize (nb.channelHelloRemoteReceived ch * nb.channelHelloSelfReceived ch /
      (n.helloTail * nb.channelHelloRemoteSent) : ℚ) = x
    split
    · next h1 =>
      constructor
      · exact .inl
      · rintro (h | h | h)
        · exact h
        · omega
        · linarith
    · next h1 =>
      constructor
      · exact fun h => .inr (.inr h)
      · rintro (h | h | h)
        · linarith
        · omega
        · exact h
  · rw [if_neg hsent]
    simp only [mul_zero]
    rw [if_neg (by norm_num)]
    simp only [hs.le, true_iff]
    exact .inr (.inl (not_lt.mp hsent))

theorem channelCost_le_one_iff (h : n.Counted) (j : ℕ) {ch : ℕ} (hch : ch < maxChannelNum) :
    channelCost n (n.neighbors j) ch ≤ 1 ↔ Tame n (n.neighbors j) ch := by
  have hrate := deliverRate_le_one n (n.neighbors j) ch
  have hstable : (stableCount n (n.neighbors j) : ℚ) ≤ 9 := by
    exact_mod_cast stableCount_le h.windowed (n.neighbors j)
  have hstable' : (0 : ℚ) ≤ stableCount n (n.neighbors j) := Nat.cast_nonneg _
  have h01 : ∀ k, (0 : ℚ) ≤ (n.neighbors j).channelHelloSequence ch k ∧
      ((n.neighbors j).channelHelloSequence ch k : ℚ) ≤ 1 := by
    intro k
    rcases h.series j ch hch k with h0 | h1
    · rw [h0]
      norm_num
    · rw [h1]
      norm_num
  have hs0 := h01 (n.helloTail % maxSequenceLen)
  have hs2 := h01 ((n.helloTail - 2) % maxSequenceLen)
  unfold channelCost
  by_cases hfull : windowFull n
  · rw [if_pos hfull]
    have htail : 0 < n.helloTail := by
      have heq := (windowFull_iff h.windowed).mp hfull
      rw [show maxSequenceLen = 10 from rfl] at heq
      omega
    have hlen : (maxSequenceLen : ℚ) = 10 := by norm_num [maxSequenceLen]
    have hslack : 0 < slack n (n.neighbors j) ch := by
      unfold slack
      linarith [hs0.2, hs2.2]
    unfold predictConnectTime
    dsimp only
    rw [hlen]
    rcases h.series j ch hch ((n.helloTail - 1) % maxSequenceLen) with h0 | h1
    · rw [h0]
      constructor
      · exact fun _ => .inr (.inl h0)
      · intro _
        push_cast
        linarith [hs0.2, hs2.2]
    · rw [h1]
      have htame : Tame n (n.neighbors j) ch ↔
          deliverRate n (n.neighbors j) ch ≤ slack n (n.neighbors j) ch := by
        rw [deliverRate_le_iff hslack htail]
        unfold Tame
        rw [h1]
        simp [hfull]
      rw [htame]
      unfold slack
      push_cast
      constructor
      · intro hcost
        linarith
      · intro hcost
        linarith
  · rw [if_neg hfull]
    constructor
    · exact fun _ => .inl hfull
    · intro _
      split
      · norm_num
      · exact hrate

/-! ## The costs a Hello computes -/

theorem stableCount_noted (h : n.Windowed) (nb : NeighborInfo) (v : Int) :
    stableCount { n with
      stabilitySequence :=
        Function.update n.stabilitySequence (n.helloTail % maxSequenceLen) v } nb =
      stableCount n nb := by
  obtain ⟨-, hlt⟩ := h
  rw [show maxSequenceLen = 10 from rfl] at hlt ⊢
  unfold stableCount
  refine List.countP_congr fun k hk => ?_
  obtain ⟨hrange, hlo⟩ := List.mem_filter.mp hk
  have hk' := List.mem_range.mp hrange
  have hlo' : n.helloHead ≤ k := of_decide_eq_true hlo
  have hne : k ≠ n.helloTail % 10 := by
    dsimp only at hk'
    omega
  simp only [Function.update_of_ne hne]

theorem sent_cost (h : n.Windowed) (j : ℕ) {ch : ℕ} (hch : ch < maxChannelNum) :
    ((HelloEvent.run c .sent n).neighbors j).channelCost ch =
      if j < n.neighborNum then channelCost n (n.neighbors j) ch
      else (n.neighbors j).channelCost ch := by
  have hrel : ((helloAdvance n).neighbors j).SameCounts
      ((HelloEvent.run c .sent n).neighbors j) := (updateNeighborInfo_relabels _).neighbors j
  have hnoted : channelCost { n with
      stabilitySequence := Function.update n.stabilitySequence (n.helloTail % maxSequenceLen)
        n.stability.isStable } (n.neighbors j) ch = channelCost n (n.neighbors j) ch := by
    have hstable := stableCount_noted h (n.neighbors j) n.stability.isStable
    unfold channelCost
    rw [hstable]
    rfl
  rw [hrel, ← hnoted]
  unfold helloAdvance
  dsimp only
  split_ifs
  all_goals first
    | rfl
    | (dsimp only
       rw [if_pos hch])

/-- The event has room, and the costs of a Hello stay tame. -/
def LinksTame (n : Node) (e : HelloEvent) : Prop :=
  Room n e ∧ (e = .sent → ∀ j < n.neighborNum, ∀ ch < maxChannelNum, Tame n (n.neighbors j) ch)

theorem HelloRun.counted {ok : Node → HelloEvent → Prop} {cf : Conf} {ext : Extern}
    (h : HelloRun ok cf ext a n) : n.Counted := by
  induction h with
  | init env => exact ⟨⟨le_refl 0, Nat.zero_lt_succ 9⟩, fun _ _ _ _ => .inl rfl⟩
  | event env e _ _ ih => exact ih.run e
  | rest hsame _ ih => exact ih.run_same hsame

theorem HelloRun.cost_le_one {cf : Conf} {ext : Extern} (h : HelloRun LinksTame cf ext a n) (j : ℕ)
    {ch : ℕ} (hch : ch < maxChannelNum) : (n.neighbors j).channelCost ch ≤ 1 := by
  induction h generalizing j with
  | init env =>
    show (if j < maxSequenceLen then (1 / 2 : ℚ) else 0) ≤ 1
    split <;> norm_num
  | @event n env e hok hrun ih =>
    have hcounted := hrun.counted
    cases e with
    | sent =>
      rw [sent_cost hcounted.windowed j hch]
      split
      · next hj => exact (channelCost_le_one_iff hcounted j hch).mpr (hok.2 rfl j hj ch hch)
      · exact ih j
    | heard hello =>
      rw [(heard_neighbors hello n j).2.2]
      exact ih j
    | acked ack ipSrc =>
      rw [(acked_neighbors ack ipSrc n j).2]
      exact ih j
  | rest hsame _ ih =>
    rw [(hsame.neighbors j).rest]
    exact ih j

theorem getCost_nonneg (hlog : ∀ x, 0 < x → x ≤ 1 → c.ext.log x ≤ 0) {ch : BitVec 8}
    (hcost : ∀ j, (n.neighbors j).channelCost ch.toNat ≤ 1) (src : InAddr) :
    0 ≤ getCost c n src ch := by
  unfold getCost
  cases findNeighbor n src with
  | none => norm_num
  | some j =>
    dsimp only
    have hpos : (0 : ℚ) < max (1 / 1000000) ((n.neighbors j).channelCost ch.toNat) :=
      lt_max_of_lt_left (by norm_num)
    have hle : max (1 / 1000000) ((n.neighbors j).channelCost ch.toNat) ≤ 1 :=
      max_le (by norm_num) (hcost j)
    have hneg := hlog _ hpos hle
    exact le_min (by norm_num) (neg_nonneg.mpr hneg)

/-- Link costs are not negative and no message becomes cheaper at a hop as long as every Hello is
tame, which is when the costs it computes are at most one. -/
theorem link_costs_nonneg {cf : Conf} {ext : Extern} {env : Env}
    (h : HelloRun LinksTame cf ext a n)
    (hlog : ∀ x, 0 < x → x ≤ 1 → ext.log x ≤ 0)
    (hc : Ctx.BreaksAsDocumented ⟨cf, ext, env⟩) :
    (∀ j, ∀ ch < maxChannelNum, (n.neighbors j).channelCost ch ≤ 1) ∧
    (∀ j < n.neighborNum, ∀ ch < maxChannelNum,
      (((HelloEvent.run ⟨cf, ext, env⟩ .sent n).neighbors j).channelCost ch ≤ 1 ↔
        Tame n (n.neighbors j) ch)) ∧
    (∀ src (ch : BitVec 8), ch.toNat < maxChannelNum → 0 ≤ getCost ⟨cf, ext, env⟩ n src ch) ∧
    (∀ m m' v len src ttl, m.type = aodvRreq → m.exts = [.cost v] → m.channel.toNat < maxChannelNum →
      n.Transmits (rreqProcess ⟨cf, ext, env⟩ m len src ttl n) (.rreq m') →
      ∃ v', m'.exts = [.cost v'] ∧ v ≤ v') ∧
    (∀ m m' v len src ttl, m.lr = false → m.exts = [.cost v] → m.channel.toNat < maxChannelNum →
      RtWf n → m'.destAddr ≠ n.ipaddr →
      n.Transmits (rrepProcess ⟨cf, ext, env⟩ m len src ttl n) (.rrep m') →
      ∃ v', m'.exts = [.cost v'] ∧ v ≤ v') := by
  have hcost : ∀ src (ch : BitVec 8), ch.toNat < maxChannelNum →
      0 ≤ getCost ⟨cf, ext, env⟩ n src ch :=
    fun src ch hch => getCost_nonneg hlog (fun j => h.cost_le_one j hch) src
  refine ⟨fun j ch hch => h.cost_le_one j hch, fun j hj ch hch => ?_, hcost, ?_, ?_⟩
  · rw [sent_cost h.counted.windowed j hch, if_pos hj]
    exact channelCost_le_one_iff h.counted j hch
  · intro m m' v len src ttl htype hexts hch hsent
    obtain ⟨-, -, hexts'⟩ := hsent.request (rreqProcess_ofRequest hc m htype hexts len src ttl n)
    exact ⟨_, hexts', le_add_of_nonneg_right (hcost src m.channel hch)⟩
  · intro m m' v len src ttl hlr hexts hch hwf hown hsent
    obtain ⟨-, -, hexts', -⟩ := hsent.reply hown
      (rrepProcess_ofReply hc m hlr hexts len src ttl hwf)
    exact ⟨_, hexts', le_add_of_nonneg_right (hcost src m.channel hch)⟩

/-! ## Concrete runs -/

instance (n : Node) (nb : NeighborInfo) (ch : ℕ) : Decidable (Tame n nb ch) :=
  inferInstanceAs (Decidable (¬ (_ = true) ∨ _ = _ ∨ _ ≤ _ ∨ _ ≤ _ ∨ _ ≤ _))

instance (n : Node) : (e : HelloEvent) → Decidable (LinksTame n e)
  | .sent => decidable_of_iff
      (Room n .sent ∧ ∀ j < n.neighborNum, ∀ ch < maxChannelNum, Tame n (n.neighbors j) ch)
      ⟨fun h => ⟨h.1, fun _ => h.2⟩, fun h => ⟨h.1, h.2 rfl⟩⟩
  | .heard hello => decidable_of_iff (Room n (.heard hello)) ⟨fun h => ⟨h, nofun⟩, And.left⟩
  | .acked ack ipSrc => decidable_of_iff (Room n (.acked ack ipSrc)) ⟨fun h => ⟨h, nofun⟩, And.left⟩

/-- The window of 1 is full, and the Hello before the last was acknowledged. -/
theorem busyNode_link_costs :
    (windowFull busyNode ∧ (busyNode.neighbors 0).channelHelloSequence 0
      ((busyNode.helloTail - 1) % maxSequenceLen) = 1) ∧
    (∀ j, ∀ ch < maxChannelNum, (busyNode.neighbors j).channelCost ch ≤ 1) ∧
    (∀ j < busyNode.neighborNum, ∀ ch < maxChannelNum,
      (((HelloEvent.run (calmCtx 0) .sent busyNode).neighbors j).channelCost ch ≤ 1 ↔
        Tame busyNode (busyNode.neighbors j) ch)) ∧
    ∀ src (ch : BitVec 8), ch.toNat < maxChannelNum → 0 ≤ getCost (calmCtx 0) busyNode src ch := by
  have hlog : ∀ x : ℚ, 0 < x → x ≤ 1 → sampleLog x ≤ 0 := by
    intro x _ hx
    unfold sampleLog
    split
    · next h => norm_num [h] at hx
    · split <;> norm_num
  have hrun : HelloRun LinksTame {} (.described sampleLog {}) 1 busyNode :=
    busyNode_run (by decide +kernel)
  obtain ⟨hle, htame, hcost, -⟩ := link_costs_nonneg hrun hlog
    (described_breaksAsDocumented sampleLog {} (calmCtx 0).env)
  rw [show calmCtx 0 = ⟨{}, .described sampleLog {}, (calmCtx 0).env⟩ from rfl]
  exact ⟨by decide +kernel, hle, htame, hcost⟩

def numberedFrom (src : InAddr) (k : ℕ) : Packet :=
  { helloFrom src 1 0 with msg := some (.rrep (helloNumbered src 0 k)) }

/-- The acknowledgement of that Hello, from a node that has heard all so far. -/
def ackFrom (src : InAddr) (k : ℕ) : Packet where
  ptype := .aodvuu
  saddr := src
  daddr := 1
  ttl := 1
  prevHop := src
  len := rrepAckSize
  msg := some (.rrepAck
    { type := aodvRrepAck, isHelloAck := 1, helloIndex := BitVec.ofNat 8 k
      channelHelloReceived := BitVec.ofNat 8 k, hostStability := 1 })

def calmStep (n : Node) (p : ℕ × Event) : Node :=
  (step (calmCtx (helloInterval * 1000 * p.1)) p.2 ([], n)).2

theorem calmStep_reachable {l : List (ℕ × Event)} (hl : ∀ p ∈ l, ∀ n, p.2.Legal n)
    (h : Reachable {} (.described sampleLog {}) 1 n) :
    Reachable {} (.described sampleLog {}) 1 (l.foldl calmStep n) := by
  induction l generalizing n with
  | nil => exact h
  | cons p l ih =>
    refine ih (fun q hq => hl q (List.mem_cons_of_mem _ hq)) ?_
    exact .step (calmCtx (helloInterval * 1000 * p.1)).env [] p.2 (hl p (List.mem_cons_self ..) n) h

/-- A perfect link: every Hello is heard and acknowledged, up to the Hello that finds the window
full. -/
def perfectLink : List (ℕ × Event) :=
  (List.range 9).flatMap (fun k =>
    [(k + 1, .recv (numberedFrom 2 (k + 1))), (k + 1, if k = 0 then .start else .helloTimer),
      (k + 1, .recv (ackFrom 2 (k + 1)))]) ++ [(10, .helloTimer)]

theorem perfectLink_legal : ∀ p ∈ perfectLink, ∀ n, p.2.Legal n := by
  intro p hp n
  rcases List.mem_append.mp hp with hp | hp
  · obtain ⟨k, -, hk⟩ := List.mem_flatMap.mp hp
    rcases List.mem_cons.mp hk with rfl | hk
    · trivial
    · rcases List.mem_pair.mp hk with rfl | rfl
      · dsimp only
        split <;> trivial
      · trivial
  · rw [List.mem_singleton.mp hp]
    trivial

/-- On a perfect link the score is above one, and the link cost is negative. -/
theorem link_cost_negative : ∃ n, Reachable {} (.described sampleLog {}) 1 n ∧
    1 < (n.neighbors 0).channelCost 0 ∧
    ∀ c : Ctx, (∀ x, 1 < x → 0 < c.ext.log x) → getCost c n 2 0 < 0 := by
  have hcost : 1 < ((perfectLink.foldl calmStep (Node.init (calmCtx 0) 1)).neighbors 0).channelCost 0 := by
    decide +kernel
  have hfind : findNeighbor (perfectLink.foldl calmStep (Node.init (calmCtx 0) 1)) 2 = some 0 := by
    decide +kernel
  have hreach := calmStep_reachable perfectLink_legal (.init (calmCtx 0).env)
  rw [show Node.init ⟨{}, .described sampleLog {}, (calmCtx 0).env⟩ 1 = Node.init (calmCtx 0) 1
    from rfl] at hreach
  generalize perfectLink.foldl calmStep (Node.init (calmCtx 0) 1) = n at hcost hfind hreach
  refine ⟨n, hreach, hcost, fun c hlog => ?_⟩
  unfold getCost
  rw [hfind]
  dsimp only
  rw [show (0 : BitVec 8).toNat = 0 from rfl]
  have hpos := hlog (max (1 / 1000000) ((n.neighbors 0).channelCost 0)) (lt_max_of_lt_right hcost)
  exact (min_le_right _ _).trans_lt (neg_neg_of_pos hpos)

end AodvUU

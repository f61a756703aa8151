import AodvUU.PacketQueue

/-! # The traversal of a verdict

`packet_queue_set_verdict` detaches every packet for the destination before it looks at the
verdict, and counts it out of the queue after that. `PQ_SEND` without an entry returns in
between, and `PQ_ENC_SEND` has no case without `CONFIG_GATEWAY`. -/
namespace AodvUU

open Fifo

variable (c : Ctx)

/-! ## The traversal -/

/-- The `switch`: the calls made for a packet; `none` stands for `return -1`. -/
def verdictCase (verdict : Verdict) (rt : Option RtTable) (qp : QPkt) (delay : ℚ) :
    Option (List Fate) :=
  match verdict, rt with
  | .send, none => none
  | .send, some rt => some [.sent qp rt.nextHop delay]
  | .drop, _ => some [.dropped qp .noRoute]
  | .encSend, _ => some []

/-- What the function returns, the calls of `sendPacket` and `drop` it made, and the node. -/
structure VerdictWalk where
  ret : Int
  calls : List Fate
  node : Node

/-- The loop over the queue, of which `passed` are the packets that stayed. -/
def verdictWalk (dest : InAddr) (verdict : Verdict) (rt : Option RtTable) :
    List QPkt → List QPkt → ℚ → VerdictWalk → VerdictWalk
  | _, [], _, w => w
  | passed, qp :: rest, delay, w =>
    if qp.destAddr = dest then
      let n := { w.node with pq := passed ++ rest }
      match verdictCase verdict rt qp delay with
      | none => { w with ret := -1, node := n }
      | some calls =>
        let n := calls.foldl (Fate.call c) n
        verdictWalk dest verdict rt passed rest
          (if verdict = .send then delay + 5 / 1000 else delay)
          ⟨w.ret + 1, w.calls ++ calls, { n with pqLen := n.pqLen - 1 }⟩
    else verdictWalk dest verdict rt (passed ++ [qp]) rest delay w

def verdictRefresh (dest : InAddr) (verdict : Verdict) (inetRt rt : Option RtTable) (n : Node) :
    Node :=
  match rt with
  | none => n
  | some rt =>
    if rt.state = .valid ∧ dest ≠ n.ipaddr then
      match verdict, inetRt with
      | .drop, _ => n
      | .encSend, some inetRt =>
        rtTableUpdateTimeout c inetRt.destAddr (msecs c.conf.activeRouteTimeout) n
          |> refreshQueued c rt dest
      | _, _ => refreshQueued c rt dest n
    else n

def setVerdict (dest : InAddr) (verdict : Verdict) (n : Node) : VerdictWalk :=
  let finish (inetRt rt : Option RtTable) : VerdictWalk :=
    let w := verdictWalk c dest verdict rt [] n.pq 0 ⟨0, [], n⟩
    if w.ret = -1 then w else { w with node := verdictRefresh c dest verdict inetRt rt w.node }
  match verdict with
  | .encSend =>
    match rtTableFind n dest with
    | none => ⟨-1, [], n⟩
    | some inetRt => finish (some inetRt) (rtTableFind n inetRt.nextHop)
  | _ => finish none (rtTableFind n dest)

/-- A packet to send waits for a destination without an entry. -/
def SendsUnrouted (n : Node) (dest : InAddr) (verdict : Verdict) : Prop :=
  verdict = .send ∧ rtTableFind n dest = none ∧ ∃ qp ∈ n.pq, qp.destAddr = dest

/-- A packet to encapsulate waits for a destination with an entry. -/
def Encapsulates (n : Node) (dest : InAddr) (verdict : Verdict) : Prop :=
  verdict = .encSend ∧ rtTableFind n dest ≠ none ∧ ∃ qp ∈ n.pq, qp.destAddr = dest

/-! ## The calls -/

variable {c} {dest : InAddr} {verdict : Verdict} {rt : Option RtTable}

/-- The calls for the packets that the loop finds from a delay on. -/
def verdictFates (verdict : Verdict) (rt : Option RtTable) (qps : List QPkt) (delay : ℚ) :
    List Fate :=
  match verdict, rt with
  | .send, some rt => sends rt.nextHop qps delay
  | .drop, _ => qps.map (.dropped · .noRoute)
  | _, _ => []

theorem verdictFates_cons (hrt : verdict = .send → rt ≠ none) (qp : QPkt) (qps : List QPkt)
    (delay : ℚ) : ∃ calls, verdictCase verdict rt qp delay = some calls ∧
      verdictFates verdict rt (qp :: qps) delay = calls ++ verdictFates verdict rt qps
        (if verdict = .send then delay + 5 / 1000 else delay) := by
  cases verdict with
  | send =>
    obtain ⟨rt, rfl⟩ := Option.ne_none_iff_exists'.mp (hrt rfl)
    exact ⟨_, rfl, rfl⟩
  | drop => exact ⟨_, rfl, rfl⟩
  | encSend => exact ⟨_, rfl, rfl⟩

theorem verdictFates_nil (delay : ℚ) : verdictFates verdict rt [] delay = [] := by
  cases verdict <;> cases rt <;> rfl

theorem verdictFates_qpkt {qps : List QPkt} {delay : ℚ} (henc : verdict ≠ .encSend)
    (hrt : verdict = .send → rt ≠ none ∨ qps = []) :
    (verdictFates verdict rt qps delay).map Fate.qpkt = qps := by
  cases verdict with
  | send =>
    cases rt with
    | none =>
      rw [(hrt rfl).resolve_left fun h => h rfl]
      rfl
    | some rt => exact sends_qpkt _ _ _
  | drop => exact dropped_qpkt _ _
  | encSend => exact absurd rfl henc

def Node.withQueue (qps : List QPkt) (len : ℕ) (n : Node) : Node :=
  { n with pq := qps, pqLen := len }

theorem Fate.call_withQueue (f : Fate) (qps : List QPkt) (len : ℕ) (n : Node) :
    f.call c (n.withQueue qps len) = (f.call c n).withQueue qps len := by
  cases f with
  | sent qp nextHop delay =>
    have hout := congrArg (fun o => { n with pq := qps, pqLen := len, out := o })
      (sendPacket_out_congr (c := c) (n := n) (m := n.withQueue qps len) (by rfl) (by rfl) (by rfl)
        qp.p nextHop delay)
    have hqueue := congrArg (Node.withQueue qps len)
      (sendPacket_eq (c := c) qp.p nextHop delay n)
    exact ((sendPacket_eq _ _ _ _).trans hout).trans hqueue.symm
  | dropped qp reason => rfl

theorem foldl_call_withQueue (calls : List Fate) (qps : List QPkt) (len : ℕ) (n : Node) :
    calls.foldl (Fate.call c) (n.withQueue qps len) =
      (calls.foldl (Fate.call c) n).withQueue qps len := by
  induction calls generalizing n with
  | nil => rfl
  | cons f calls ih => rw [List.foldl_cons, Fate.call_withQueue, ih, List.foldl_cons]

/-! ## The loop -/

theorem verdictWalk_eq (hrt : verdict = .send → rt ≠ none) (todo passed : List QPkt) (delay : ℚ)
    (w : VerdictWalk) (hpq : w.node.pq = passed ++ todo) :
    verdictWalk c dest verdict rt passed todo delay w =
      ⟨w.ret + (todo.filter (·.destAddr = dest)).length,
        w.calls ++ verdictFates verdict rt (todo.filter (·.destAddr = dest)) delay,
        ((verdictFates verdict rt (todo.filter (·.destAddr = dest)) delay).foldl (Fate.call c)
          w.node).withQueue (passed ++ todo.filter (·.destAddr ≠ dest))
            (w.node.pqLen - (todo.filter (·.destAddr = dest)).length)⟩ := by
  induction todo generalizing passed delay w with
  | nil =>
    rw [List.append_nil] at hpq
    unfold verdictWalk
    simp [verdictFates_nil, Node.withQueue, ← hpq]
  | cons qp rest ih =>
    unfold verdictWalk
    by_cases hqp : qp.destAddr = dest
    · obtain ⟨calls, hcase, hfates⟩ := verdictFates_cons hrt qp
        (rest.filter (·.destAddr = dest)) delay
      have hdetach : calls.foldl (Fate.call c) { w.node with pq := passed ++ rest } =
          (calls.foldl (Fate.call c) w.node).withQueue (passed ++ rest) w.node.pqLen :=
        foldl_call_withQueue calls (passed ++ rest) w.node.pqLen w.node
      have hcount : ∀ n : Node, { n.withQueue (passed ++ rest) w.node.pqLen with
          pqLen := (n.withQueue (passed ++ rest) w.node.pqLen).pqLen - 1 } =
            n.withQueue (passed ++ rest) (w.node.pqLen - 1) := fun _ => rfl
      have hfind : (qp :: rest).filter (·.destAddr = dest) =
          qp :: rest.filter (·.destAddr = dest) := List.filter_cons_of_pos (by simpa using hqp)
      have hpass : (qp :: rest).filter (·.destAddr ≠ dest) = rest.filter (·.destAddr ≠ dest) :=
        List.filter_cons_of_neg (by simpa using hqp)
      rw [if_pos hqp]
      dsimp only
      rw [hcase]
      dsimp only
      rw [hdetach, hcount, ih passed _ _ rfl, foldl_call_withQueue, hfind, hpass, hfates,
        List.foldl_append, List.length_cons, List.append_assoc]
      congr 1
      · show w.ret + 1 + _ = w.ret + _
        omega
      · show Node.withQueue _ (w.node.pqLen - 1 - _) _ = _
        rw [Nat.sub_sub, Nat.add_comm 1]
        rfl
    · rw [if_neg hqp, ih (passed ++ [qp]) delay w (by simpa using hpq)]
      simp [hqp]

theorem verdictWalk_unrouted (todo passed : List QPkt) (delay : ℚ) (w : VerdictWalk)
    (hpq : w.node.pq = passed ++ todo) :
    verdictWalk c dest .send none passed todo delay w =
      if ∃ qp ∈ todo, qp.destAddr = dest then
        ⟨-1, w.calls,
          w.node.withQueue (passed ++ todo.eraseP (·.destAddr = dest)) w.node.pqLen⟩
      else w := by
  induction todo generalizing passed with
  | nil =>
    unfold verdictWalk
    simp
  | cons qp rest ih =>
    unfold verdictWalk
    by_cases hqp : qp.destAddr = dest
    · simp [hqp, verdictCase, Node.withQueue]
    · rw [if_neg hqp, ih (passed ++ [qp]) (by simpa using hpq)]
      simp [hqp]

/-! ## The verdict -/

theorem verdictRefresh_eq (inetRt rt : Option RtTable) (n : Node) :
    verdictRefresh c dest verdict inetRt rt n =
      { n with tbl := (verdictRefresh c dest verdict inetRt rt n).tbl } := by
  unfold verdictRefresh
  split
  · rfl
  · split
    · split
      · rfl
      · rw [refreshQueued_eq]
        rfl
      · rw [refreshQueued_eq]
    · rfl

/-- It fails without a change, or with a packet lost, or handles the packets for the
destination. -/
theorem setVerdict_cases (dest : InAddr) (verdict : Verdict) (n : Node) :
    (verdict = .encSend ∧ rtTableFind n dest = none ∧
      setVerdict c dest verdict n = ⟨-1, [], n⟩) ∨
    (SendsUnrouted n dest verdict ∧ setVerdict c dest verdict n =
      ⟨-1, [], n.withQueue (n.pq.eraseP (·.destAddr = dest)) n.pqLen⟩) ∨
    ¬ SendsUnrouted n dest verdict ∧ (verdict = .encSend → rtTableFind n dest ≠ none) ∧
      ∃ inetRt rt, (verdict ≠ .encSend → inetRt = none ∧ rt = rtTableFind n dest) ∧
        (verdict = .encSend → inetRt = rtTableFind n dest ∧
          ∀ i, inetRt = some i → rt = rtTableFind n i.nextHop) ∧
        setVerdict c dest verdict n = ⟨(n.pq.filter (·.destAddr = dest)).length,
          verdictFates verdict rt (n.pq.filter (·.destAddr = dest)) 0,
          verdictRefresh c dest verdict inetRt rt
            (((verdictFates verdict rt (n.pq.filter (·.destAddr = dest)) 0).foldl (Fate.call c)
              n).withQueue (n.pq.filter (·.destAddr ≠ dest))
                (n.pqLen - (n.pq.filter (·.destAddr = dest)).length))⟩ := by
  have hfinish : ∀ rt : Option RtTable, (verdict = .send → rt ≠ none) →
      verdictWalk c dest verdict rt [] n.pq 0 ⟨0, [], n⟩ =
        ⟨(n.pq.filter (·.destAddr = dest)).length,
          verdictFates verdict rt (n.pq.filter (·.destAddr = dest)) 0,
          ((verdictFates verdict rt (n.pq.filter (·.destAddr = dest)) 0).foldl (Fate.call c)
            n).withQueue (n.pq.filter (·.destAddr ≠ dest))
              (n.pqLen - (n.pq.filter (·.destAddr = dest)).length)⟩ := by
    intro rt hrt
    rw [verdictWalk_eq hrt n.pq [] 0 ⟨0, [], n⟩ rfl, Int.zero_add]
    rfl
  have hcount : ((n.pq.filter (·.destAddr = dest)).length : Int) ≠ -1 := by omega
  cases verdict with
  | drop =>
    refine .inr (.inr ⟨fun h => (nomatch h.1), fun h => (nomatch h), none, rtTableFind n dest,
      fun _ => ⟨rfl, rfl⟩, fun h => (nomatch h), ?_⟩)
    unfold setVerdict
    dsimp only
    rw [hfinish _ fun h => nomatch h]
    exact if_neg hcount
  | send =>
    by_cases hroute : rtTableFind n dest = none
    · have hwalk := @verdictWalk_unrouted c dest n.pq [] 0 ⟨0, [], n⟩ rfl
      by_cases hwait : ∃ qp ∈ n.pq, qp.destAddr = dest
      · refine .inr (.inl ⟨⟨rfl, hroute, hwait⟩, ?_⟩)
        unfold setVerdict
        dsimp only
        rw [hroute, hwalk, if_pos hwait]
        exact if_pos rfl
      · have hnone : n.pq.filter (·.destAddr = dest) = [] := by
          simpa using fun qp hqp heq => hwait ⟨qp, hqp, heq⟩
        have hall : n.pq.filter (·.destAddr ≠ dest) = n.pq := by
          simpa using fun qp hqp heq => hwait ⟨qp, hqp, heq⟩
        refine .inr (.inr ⟨fun h => hwait h.2.2, fun h => (nomatch h), none, none,
          fun _ => ⟨rfl, hroute.symm⟩, fun h => (nomatch h), ?_⟩)
        unfold setVerdict
        dsimp only
        rw [hroute, hwalk, if_neg hwait, hnone, hall]
        exact if_neg (show (0 : Int) ≠ -1 by decide)
    · refine .inr (.inr ⟨fun h => hroute h.2.1, fun h => (nomatch h), none, rtTableFind n dest,
        fun _ => ⟨rfl, rfl⟩, fun h => (nomatch h), ?_⟩)
      unfold setVerdict
      dsimp only
      rw [hfinish _ fun _ => hroute]
      exact if_neg hcount
  | encSend =>
    cases hroute : rtTableFind n dest with
    | none =>
      refine .inl ⟨rfl, rfl, ?_⟩
      unfold setVerdict
      dsimp only
      rw [hroute]
    | some inetRt =>
      refine .inr (.inr ⟨fun h => (nomatch h.1), fun _ h => (nomatch h), some inetRt,
        rtTableFind n inetRt.nextHop, fun h => absurd rfl h, fun _ => ⟨rfl, ?_⟩, ?_⟩)
      · rintro i hi
        cases hi
        rfl
      · unfold setVerdict
        dsimp only
        rw [hroute]
        dsimp only
        rw [hfinish _ fun h => nomatch h]
        exact if_neg hcount

/-- The traversal leaves the node that the summary of the function describes. -/
theorem setVerdict_node (dest : InAddr) (verdict : Verdict) (n : Node) :
    (setVerdict c dest verdict n).node = packetQueueSetVerdict c dest verdict n := by
  have htake : n.withQueue (n.pq.filter (·.destAddr ≠ dest))
      (n.pqLen - (n.pq.filter (·.destAddr = dest)).length) = takeQueued dest n := rfl
  rcases setVerdict_cases (c := c) dest verdict n with ⟨rfl, hroute, heq⟩ |
    ⟨⟨rfl, hroute, -⟩, heq⟩ | ⟨hrouted, henc, inetRt, rt, hplain, hinet, heq⟩
  · rw [heq]
    unfold packetQueueSetVerdict
    dsimp only
    rw [hroute]
  · rw [heq]
    unfold packetQueueSetVerdict
    dsimp only
    rw [hroute]
    rfl
  · rw [heq]
    dsimp only
    rw [← foldl_call_withQueue, htake]
    unfold packetQueueSetVerdict
    cases verdict with
    | drop =>
      have hstay : ∀ n', verdictRefresh c dest .drop inetRt rt n' = n' := by
        intro n'
        unfold verdictRefresh
        split
        · rfl
        · split <;> rfl
      rw [hstay]
      exact dropped_foldl _ _ _
    | send =>
      obtain ⟨rfl, rfl⟩ := hplain (by decide)
      dsimp only
      cases hroute : rtTableFind n dest with
      | none =>
        have hnone : ∀ qp ∈ n.pq, ¬ qp.destAddr = dest := fun qp hqp h =>
          hrouted ⟨rfl, hroute, qp, hqp, h⟩
        have hkeep : n.pq.eraseP (·.destAddr = dest) = n.pq :=
          List.eraseP_of_forall_not (by simpa using hnone)
        have hall : n.pq.filter (·.destAddr ≠ dest) = n.pq := by simpa using hnone
        have hempty : n.pq.filter (·.destAddr = dest) = [] := by simpa using hnone
        show takeQueued dest n = { n with pq := n.pq.eraseP (·.destAddr = dest) }
        unfold takeQueued
        rw [hkeep, hall, hempty]
        rfl
      | some rt =>
        have hrefresh : ∀ n', verdictRefresh c dest .send none (some rt) n' =
            refreshQueued c rt dest n' := by
          intro n'
          unfold verdictRefresh refreshQueued
          dsimp only
          split_ifs <;> rfl
        rw [hrefresh]
        exact congrArg (refreshQueued c rt dest) (sends_foldl _ _ _ _)
    | encSend =>
      obtain ⟨rfl, hnext⟩ := hinet rfl
      obtain ⟨i, hi⟩ := Option.ne_none_iff_exists'.mp (henc rfl)
      obtain rfl := hnext i hi
      dsimp only
      rw [hi]
      dsimp only
      cases rtTableFind n i.nextHop with
      | none => rfl
      | some rt => rfl

/-- The traversal does what the agent does. A verdict that fails leaves the queue as it was unless
it sends without an entry. Every packet that leaves the queue was passed to `sendPacket` or `drop`, unless a packet was detached
in a verdict that then fails, or was to be encapsulated. -/
theorem failed_verdict_leaves_queue (c : Ctx) (dest : InAddr) (verdict : Verdict) (n : Node) :
    (setVerdict c dest verdict n).node = packetQueueSetVerdict c dest verdict n ∧
    (((setVerdict c dest verdict n).ret = -1 →
        (setVerdict c dest verdict n).node.pq = n.pq ∧
        (setVerdict c dest verdict n).node.pqLen = n.pqLen) ↔ ¬ SendsUnrouted n dest verdict) ∧
    (n.pq.Perm ((setVerdict c dest verdict n).node.pq ++
        (setVerdict c dest verdict n).calls.map Fate.qpkt) ↔
      ¬ SendsUnrouted n dest verdict ∧ ¬ Encapsulates n dest verdict) := by
  refine ⟨setVerdict_node dest verdict n, ?_⟩
  rcases setVerdict_cases (c := c) dest verdict n with ⟨rfl, hroute, heq⟩ | ⟨hlost, heq⟩ |
    ⟨hrouted, henc, inetRt, rt, hplain, hinet, heq⟩
  · have hsend : ¬ SendsUnrouted n dest .encSend := fun h => nomatch h.1
    have henc : ¬ Encapsulates n dest .encSend := fun h => h.2.1 hroute
    rw [heq]
    simp [hsend, henc]
  · obtain ⟨qp, hqp, hdest⟩ := hlost.2.2
    have hlen : (n.pq.eraseP (·.destAddr = dest)).length + 1 = n.pq.length := by
      have hpos := List.length_pos_of_mem hqp
      rw [List.length_eraseP_of_mem hqp (by simpa using hdest)]
      omega
    rw [heq]
    refine ⟨iff_of_false (fun h => ?_) (not_not.mpr hlost), iff_of_false (fun h => ?_)
      fun h => h.1 hlost⟩
    · have hpq := congrArg List.length (h rfl).1
      change (n.pq.eraseP (·.destAddr = dest)).length = n.pq.length at hpq
      omega
    · have hpq := h.length_eq
      rw [List.length_append] at hpq
      change n.pq.length = (n.pq.eraseP (·.destAddr = dest)).length + 0 at hpq
      omega
  · rw [heq]
    dsimp only
    rw [verdictRefresh_eq]
    refine ⟨iff_of_true (fun h => ?_) hrouted, ?_⟩
    · omega
    · show n.pq.Perm (n.pq.filter (fun qp : QPkt => decide (qp.destAddr ≠ dest)) ++ _) ↔ _
      have hsplit : n.pq.Perm (n.pq.filter (fun qp : QPkt => decide (qp.destAddr ≠ dest)) ++
          n.pq.filter (·.destAddr = dest)) := by
        have hperm := perm_filter_append (fun qp : QPkt => decide (qp.destAddr = dest)) n.pq
        simpa using hperm
      by_cases henc' : verdict = .encSend
      · subst henc'
        have hcalls : verdictFates .encSend rt (n.pq.filter (·.destAddr = dest)) 0 = [] := by
          cases rt <;> rfl
        rw [hcalls, List.map_nil, List.append_nil]
        constructor
        · intro hperm
          refine ⟨hrouted, fun h => ?_⟩
          obtain ⟨qp, hqp, hdest⟩ := h.2.2
          have hmem := List.mem_filter.mp (hperm.mem_iff.mp hqp)
          exact of_decide_eq_true hmem.2 hdest
        · rintro ⟨-, hnot⟩
          have hall : n.pq.filter (fun qp : QPkt => decide (qp.destAddr ≠ dest)) = n.pq := by
            simpa using fun (qp : QPkt) hqp heq => hnot ⟨rfl, henc rfl, qp, hqp, heq⟩
          rw [hall]
      · obtain ⟨-, rfl⟩ := hplain henc'
        refine iff_of_true ?_ ⟨hrouted, fun h => henc' h.1⟩
        rw [verdictFates_qpkt henc' fun hs => ?_]
        · exact hsplit
        · by_contra hnot
          rw [not_or, not_not] at hnot
          obtain ⟨qp, hqp⟩ := List.exists_mem_of_ne_nil _ hnot.2
          have hmem := List.mem_filter.mp hqp
          exact hrouted ⟨hs, hnot.1, qp, hmem.1, of_decide_eq_true hmem.2⟩

def waitingNode : Node :=
  packetQueueAdd (sampleCtx 0) (dataFrom 1 9) 9
    (packetQueueInit (sampleCtx 0) (Node.init (sampleCtx 0) 1))

/-- It leaves the queue, whose length stays one, and is not passed on. -/
theorem failed_verdict_loses_packet :
    (setVerdict (sampleCtx 0) 9 .send waitingNode).ret = -1 ∧
    (waitingNode.pq.map QPkt.destAddr = [9] ∧ waitingNode.pqLen = 1) ∧
    ((setVerdict (sampleCtx 0) 9 .send waitingNode).node.pq.map QPkt.destAddr = [] ∧
      (setVerdict (sampleCtx 0) 9 .send waitingNode).node.pqLen = 1) ∧
    (setVerdict (sampleCtx 0) 9 .send waitingNode).calls.length = 0 ∧
    ¬ (setVerdict (sampleCtx 0) 9 .send waitingNode).node.pq = waitingNode.pq := by
  refine ⟨by decide +kernel, by decide +kernel, by decide +kernel, by decide +kernel, fun h => ?_⟩
  have hlen := congrArg List.length h
  exact absurd hlen (by decide +kernel)

end AodvUU

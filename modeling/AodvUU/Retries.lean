import Mathlib.Data.Rat.Floor
import AodvUU.LocalRepairWire
import AodvUU.PacketQueue

/-! # Searches that find nothing

The timer of a search expires, repeats the request and is armed again, until it gives up. -/
namespace AodvUU

variable {c : Ctx} {cf : Conf} {ext : Extern}

/-! ## The requests of a search -/

def searchRequest (c : Ctx) (n : Node) (destAddr : InAddr) (destSeqno : BitVec 32)
    (flags : BitVec 8) (k : ℕ) : RREQ :=
  let flags := if c.conf.rreqGratuitous then flags ||| rreqGratuitous else flags
  { type := aodvRreq
    rreqId := n.rreqId + BitVec.ofNat 32 k
    destAddr, destSeqno
    origAddr := n.ipaddr
    origSeqno := n.seqno + 1
    j := hasFlag flags rreqJoin
    r := hasFlag flags rreqRepair
    g := hasFlag flags rreqGratuitous
    d := hasFlag flags rreqDestOnly
    exts := [.cost 0] }

theorem rreqSendWithChannel_eq (a : InAddr) (seqno : BitVec 32) (ttl : Int) (flags : BitVec 8)
    (ch : ℕ) (n : Node) : rreqSendWithChannel c a seqno ttl flags ch n =
      aodvSocketSend c aodvBroadcast rreqCostSize (BitVec.ofInt 8 ttl)
        { n with
          channelNum := ch
          rreqId := n.rreqId + 1
          sendBuf := .rreq (searchRequest c n a seqno flags 0) } := by
  have hid : n.rreqId + 1 - 1 = n.rreqId + BitVec.ofNat 32 0 := by
    rw [BitVec.add_sub_cancel]
    exact (BitVec.add_zero _).symm
  unfold rreqSendWithChannel rreqCreateWithCost searchRequest setChannelNum aodvSocketNewMsg
  dsimp only
  rw [hid]

theorem searchRequest_shift {n n' : Node} (hip : n'.ipaddr = n.ipaddr) (hs : n'.seqno = n.seqno)
    {j : ℕ} (hid : n'.rreqId = n.rreqId + BitVec.ofNat 32 j) (a : InAddr) (seqno : BitVec 32)
    (flags : BitVec 8) : searchRequest c n' a seqno flags 0 = searchRequest c n a seqno flags j := by
  unfold searchRequest
  rw [hip, hs, hid, BitVec.add_assoc]
  rw [← BitVec.ofNat_add, Nat.add_zero]

/-- The copies of a request that a node broadcasts, one on each interface. -/
def requestCopies (c : Ctx) (own : InAddr) (ttl : Int) (m : RREQ) : List Output :=
  (List.range c.conf.nIfaces).map fun i : ℕ => .sched i
    { ptype := .aodvuu
      saddr := own
      daddr := aodvBroadcast
      ttl := (BitVec.ofInt 8 ttl).toNat
      direction := .down
      prevHop := own
      channel := i
      len := rreqCostSize
      msg := some (.rreq m) } (c.env.uniform / 50)

theorem trunc_searchRequest (n : Node) (a : InAddr) (seqno : BitVec 32) (flags : BitVec 8) (k : ℕ) :
    AodvMsg.trunc rreqCostSize (.rreq (searchRequest c n a seqno flags k)) =
      .rreq (searchRequest c n a seqno flags k) := rfl

theorem schedule_broadcast {p : Packet} (h : p.daddr = aodvBroadcast) (a : InAddr) (delay : ℚ)
    (n : Node) : schedule c p a delay n = { n with
      out := n.out ++ (List.range c.conf.nIfaces).map fun i : ℕ =>
        .sched i { p with nextHop := 0, prevHop := n.ipaddr, channel := i } (c.env.uniform / 50) } := by
  unfold schedule
  rw [if_pos h]
  simp only [bind_pure_comp, List.map_eq_map]
  rw [handOut_foldl_eq, List.map_map]
  rfl

theorem aodvSocketSend_rreq (hr : c.conf.ratelimit = false) {n : Node} {m : RREQ}
    (hbuf : n.sendBuf = .rreq m) (htype : m.type = aodvRreq) (len : ℕ) (ttl : BitVec 8) :
    aodvSocketSend c aodvBroadcast len ttl n =
      schedule c (controlPacket aodvBroadcast len ttl n) aodvBroadcast 0
        { n with bcastTime := c.now } := by
  have hsend : ¬ (n.waitOnReboot = true ∧ n.sendBuf.type = aodvRrep) := by
    rw [hbuf]
    exact fun h => absurd (htype.symm.trans h.2) (by decide)
  have hlimit : rateLimit c n = some n := by
    unfold rateLimit
    rw [hr]
    rfl
  unfold aodvSocketSend
  rw [if_neg hsend, hlimit]
  dsimp only
  rw [if_pos rfl]
  unfold sendPacket
  rw [if_neg (by simp [controlPacket]), if_pos ⟨rfl, rfl⟩]

theorem rreqSendWithChannel_out (hr : c.conf.ratelimit = false) (a : InAddr) (seqno : BitVec 32)
    (ttl : Int) (flags : BitVec 8) (ch : ℕ) (n : Node) :
    rreqSendWithChannel c a seqno ttl flags ch n = { n with
      channelNum := ch
      rreqId := n.rreqId + 1
      sendBuf := .rreq (searchRequest c n a seqno flags 0)
      bcastTime := c.now
      out := n.out ++ requestCopies c n.ipaddr ttl (searchRequest c n a seqno flags 0) } := by
  rw [rreqSendWithChannel_eq, aodvSocketSend_rreq hr rfl rfl, schedule_broadcast rfl]
  unfold controlPacket requestCopies
  dsimp only
  rw [trunc_searchRequest]

theorem search_out (hr : c.conf.ratelimit = false) (a : InAddr) (seqno : BitVec 32) (ttl : Int)
    (flags : BitVec 8) (n : Node) :
    (onEachChannel (rreqSendWithChannel c a seqno ttl flags) n).out =
      n.out ++ (List.range channelCount).flatMap fun k =>
        requestCopies c n.ipaddr ttl (searchRequest c n a seqno flags k) := by
  have hall : onEachChannel (rreqSendWithChannel c a seqno ttl flags) n =
      rreqSendWithChannel c a seqno ttl flags 2 (rreqSendWithChannel c a seqno ttl flags 1
        (rreqSendWithChannel c a seqno ttl flags 0 n)) := rfl
  have hrange : List.range channelCount = [0, 1, 2] := rfl
  have h₀ := rreqSendWithChannel_out hr a seqno ttl flags 0 n
  generalize rreqSendWithChannel c a seqno ttl flags 0 n = n₁ at hall h₀
  have h₁ := rreqSendWithChannel_out hr a seqno ttl flags 1 n₁
  generalize rreqSendWithChannel c a seqno ttl flags 1 n₁ = n₂ at hall h₁
  have h₂ := rreqSendWithChannel_out hr a seqno ttl flags 2 n₂
  have hreq₁ : searchRequest c n₁ a seqno flags 0 = searchRequest c n a seqno flags 1 :=
    searchRequest_shift (by rw [h₀]) (by rw [h₀]) (by rw [h₀]; rfl) a seqno flags
  have hreq₂ : searchRequest c n₂ a seqno flags 0 = searchRequest c n a seqno flags 2 := by
    refine searchRequest_shift (by rw [h₁, h₀]) (by rw [h₁, h₀]) ?_ a seqno flags
    rw [h₁, h₀]
    exact BitVec.add_assoc _ _ _
  rw [hall, h₂, hreq₂, h₁, hreq₁, h₀, hrange]
  simp [List.append_assoc]

/-! ## Counting the expiries -/

/-- The expiries after which a search that starts with the TTL `t` is given up. -/
def discoveryExpiries (cf : Conf) (t : Int) : ℕ :=
  ((if cf.expandingRingSearch then max 0 ⌈(((ttlThreshold - t : ℤ) : ℚ) / ttlIncrement)⌉ else 0) +
    rreqRetries + 1).toNat

def SeekList.expiriesLeft (cf : Conf) (s : SeekList) : Int :=
  (if cf.expandingRingSearch then max 0 ⌈(((ttlThreshold - s.ttl : ℤ) : ℚ) / ttlIncrement)⌉ else 0) +
    rreqRetries - s.reqs + 1

/-- The TTL has passed the threshold before a request counts as a retry. -/
structure SeekList.Ringed (cf : Conf) (s : SeekList) : Prop where
  ttl : 0 ≤ s.ttl
  reqs : 0 ≤ s.reqs ∧ s.reqs ≤ rreqRetries
  ring : cf.expandingRingSearch = true → 0 < s.reqs → ttlThreshold ≤ s.ttl

theorem ceil_rings_of_le {t : Int} (h : ttlThreshold ≤ t) :
    max 0 ⌈(((ttlThreshold - t : ℤ) : ℚ) / ttlIncrement)⌉ = 0 := by
  rw [max_eq_left_iff, Int.ceil_le]
  have hinc : (0 : ℚ) ≤ ttlIncrement := by decide
  have hneg : ((ttlThreshold - t : ℤ) : ℚ) ≤ 0 := by exact_mod_cast sub_nonpos.mpr h
  exact div_nonpos_of_nonpos_of_nonneg hneg hinc

theorem ceil_rings_of_lt {t : Int} (h : t < ttlThreshold) :
    max 0 ⌈(((ttlThreshold - t : ℤ) : ℚ) / ttlIncrement)⌉ =
      max 0 ⌈(((ttlThreshold - (t + ttlIncrement) : ℤ) : ℚ) / ttlIncrement)⌉ + 1 := by
  have hinc : (0 : ℚ) < ttlIncrement := by decide
  have hstep : (((ttlThreshold - t : ℤ) : ℚ) / ttlIncrement) =
      ((ttlThreshold - (t + ttlIncrement) : ℤ) : ℚ) / ttlIncrement + 1 := by
    push_cast
    field_simp
    ring
  have hpos : 0 < ⌈(((ttlThreshold - t : ℤ) : ℚ) / ttlIncrement)⌉ := by
    rw [Int.ceil_pos]
    have hgap : (0 : ℚ) < ((ttlThreshold - t : ℤ) : ℚ) := by exact_mod_cast sub_pos.mpr h
    exact div_pos hgap hinc
  rw [hstep, Int.ceil_add_one] at hpos ⊢
  omega

theorem SeekList.Ringed.retry {s : SeekList} (h : s.Ringed c.conf) (hreqs : s.reqs < rreqRetries) :
    (s.retry c).Ringed c.conf ∧ (s.retry c).expiriesLeft c.conf + 1 = s.expiriesLeft c.conf := by
  have hinc : ttlIncrement = 2 := rfl
  have hdiam : netDiameter = 35 := rfl
  have hthr : ttlThreshold = 7 := rfl
  obtain ⟨httl, ⟨hpos, -⟩, hring⟩ := h
  unfold SeekList.retry SeekList.expiriesLeft
  by_cases hers : c.conf.expandingRingSearch = true
  · simp only [hers, if_true]
    by_cases hlow : s.ttl < ttlThreshold
    · rw [if_pos hlow]
      dsimp only
      refine ⟨⟨by dsimp only; omega, ⟨hpos, by dsimp only; omega⟩, fun _ hr => ?_⟩, ?_⟩
      · have := hring hers hr
        omega
      · rw [ceil_rings_of_lt hlow]
        omega
    · rw [if_neg hlow]
      dsimp only
      refine ⟨⟨by dsimp only; omega, ⟨by dsimp only; omega, by dsimp only; omega⟩,
        fun _ _ => by dsimp only; omega⟩, ?_⟩
      rw [ceil_rings_of_le (by omega), ceil_rings_of_le (not_lt.mp hlow)]
      omega
  · simp only [hers, Bool.false_eq_true, if_false]
    refine ⟨⟨httl, ⟨by dsimp only; omega, by dsimp only; omega⟩, fun h' => absurd h' hers⟩, ?_⟩
    omega

theorem SeekList.Ringed.last {s : SeekList} (h : s.Ringed cf) :
    rreqRetries ≤ s.reqs ↔ s.expiriesLeft cf = 1 := by
  have hret : rreqRetries = 2 := rfl
  obtain ⟨-, ⟨-, hle⟩, hring⟩ := h
  unfold SeekList.expiriesLeft
  split
  · next hers =>
    constructor
    · intro hreqs
      rw [ceil_rings_of_le (hring hers (by omega))]
      omega
    · intro hone
      have hnonneg := le_max_left (0 : Int) ⌈(((ttlThreshold - s.ttl : ℤ) : ℚ) / ttlIncrement)⌉
      omega
  · omega

theorem SeekList.Ringed.rearmed {s : SeekList} (h : s.Ringed c.conf) :
    ∃ d : Int, 0 < d ∧ (s.retry c).seekTimer = s.seekTimer.setTimeout c.now d := by
  have hinc : ttlIncrement = 2 := rfl
  have hdiam : netDiameter = 35 := rfl
  have hring : ∀ ttl : Int, 0 ≤ ttl → 0 < ringTraversalTime ttl := by
    intro ttl httl
    have hnode : nodeTraversalTime = 35 := rfl
    have hbuf : timeoutBuffer = 2 := rfl
    unfold ringTraversalTime
    rw [hnode, hbuf]
    omega
  have httl := h.ttl
  have hpos := h.reqs.1
  unfold SeekList.retry
  split
  · dsimp only
    split
    · exact ⟨_, hring (s.ttl + ttlIncrement) (by omega), rfl⟩
    · exact ⟨_, hring netDiameter (by omega), rfl⟩
  · have htrav : netTraversalTime = 1225 := rfl
    refine ⟨(s.reqs + 1) * 2 * netTraversalTime, ?_, rfl⟩
    rw [htrav]
    omega

/-! ## One expiry -/

def retryState (c : Ctx) (i : ℕ) (s : SeekList) (n : Node) : Node :=
  match rtTableFind { n with seekhead := n.seekhead.set i s } s.destAddr with
  | none => { n with seekhead := n.seekhead.set i s }
  | some rt => keepWaiting c rt.destAddr { n with seekhead := n.seekhead.set i s }

theorem routeDiscoveryTimeout_retry {n : Node} {i : ℕ} {s : SeekList} (hs : n.seekhead[i]? = some s)
    (hreqs : s.reqs < rreqRetries) : routeDiscoveryTimeout c i n =
      onEachChannel (rreqSendWithChannel c (s.retry c).destAddr (s.retry c).destSeqno
        (s.retry c).ttl (s.retry c).flags) (retryState c i (s.retry c) n) := by
  unfold routeDiscoveryTimeout
  rw [hs]
  exact if_pos hreqs

theorem retryState_eq (i : ℕ) (s : SeekList) (n : Node) : ∃ t, retryState c i s n =
    { n with seekhead := n.seekhead.set i s, tbl := t } := by
  unfold retryState
  split
  · exact ⟨n.tbl, rfl⟩
  · unfold keepWaiting
    split
    · exact ⟨_, rfl⟩
    · exact ⟨n.tbl, rfl⟩

theorem SeekList.retry_same (s : SeekList) : (s.retry c).destAddr = s.destAddr ∧
    (s.retry c).destSeqno = s.destSeqno ∧ (s.retry c).flags = s.flags := by
  unfold SeekList.retry
  split
  · dsimp only
    split <;> exact ⟨rfl, rfl, rfl⟩
  · exact ⟨rfl, rfl, rfl⟩

theorem retry_seekhead {n : Node} {i : ℕ} {s : SeekList} (hs : n.seekhead[i]? = some s)
    (hreqs : s.reqs < rreqRetries) :
    (routeDiscoveryTimeout c i n).seekhead = n.seekhead.set i (s.retry c) := by
  obtain ⟨t, ht⟩ := retryState_eq (c := c) i (s.retry c) n
  rw [routeDiscoveryTimeout_retry hs hreqs, ht]
  exact congrArg Routes.seekhead (onEachChannel_routes (fun k n =>
    rreqSendWithChannel_routes _ _ _ _ k n) _)

theorem localRepairTimeout_queue (a : InAddr) (n : Node) :
    (localRepairTimeout c a n).seekhead = n.seekhead ∧ (localRepairTimeout c a n).pq = n.pq ∧
    ∃ rest, (localRepairTimeout c a n).out = n.out ++ rest := by
  have htail : ∀ f n₁, (Node.modRt a f (precursorListDestroy a n₁)).seekhead = n₁.seekhead ∧
      (Node.modRt a f (precursorListDestroy a n₁)).pq = n₁.pq ∧
      (Node.modRt a f (precursorListDestroy a n₁)).out = n₁.out := fun _ _ => ⟨rfl, rfl, rfl⟩
  unfold localRepairTimeout
  dsimp only
  rw [(htail _ _).1, (htail _ _).2.1, (htail _ _).2.2]
  split
  · exact ⟨rfl, rfl, [], (List.append_nil _).symm⟩
  · obtain ⟨rest, hrest, -⟩ := aodvSocketSend_emits (c := c)
      (if ((n.modRt a fun rt => { rt with flags := rt.flags &&& ~~~rtRepair }).rt a).nprec = 1 then
        ((n.modRt a fun rt => { rt with flags := rt.flags &&& ~~~rtRepair }).rt a).precursors.headD 0
        else aodvBroadcast) _ _ _
    refine ⟨?_, ?_, rest, hrest⟩ <;> rw [aodvSocketSend_frame] <;> rfl

theorem noRouteFound_gives_up (i : ℕ) (s : SeekList) (n : Node) :
    (noRouteFound c i s n).seekhead = n.seekhead.eraseIdx i ∧
    (noRouteFound c i s n).pq = n.pq.filter (·.destAddr ≠ s.destAddr) ∧
    ∃ rest, (noRouteFound c i s n).out = n.out ++
      (n.pq.filter (·.destAddr = s.destAddr)).map (fun qp => .drop qp.p .noRoute) ++ rest := by
  have hdrop : packetQueueSetVerdict c s.destAddr .drop n =
      { takeQueued s.destAddr n with
        out := n.out ++ (n.pq.filter (·.destAddr = s.destAddr)).map
          (fun qp => .drop qp.p .noRoute) } := handOut_foldl_eq _ _ _
  unfold noRouteFound
  rw [hdrop]
  dsimp only
  split
  · exact ⟨rfl, rfl, [], (List.append_nil _).symm⟩
  · next rt _ =>
    split
    · obtain ⟨hseek, hpq, hout⟩ := localRepairTimeout_queue (c := c) rt.destAddr
        { takeQueued s.destAddr n with
          out := n.out ++ (n.pq.filter (·.destAddr = s.destAddr)).map (fun qp => .drop qp.p .noRoute)
          seekhead := n.seekhead.eraseIdx i }
      exact ⟨hseek, hpq, hout⟩
    · exact ⟨rfl, rfl, [], (List.append_nil _).symm⟩

/-! ## All expiries -/

/-- What the expiry of the timer at place `i` leaves of the search there. -/
inductive Ctx.Leaves (c : Ctx) (i : ℕ) (n : Node) : Option SeekList → Prop
  | kept (s : SeekList) (h : (routeDiscoveryTimeout c i n).seekhead = n.seekhead.set i s) :
      Leaves c i n (some s)
  | removed (h : (routeDiscoveryTimeout c i n).seekhead = n.seekhead.eraseIdx i) : Leaves c i n none

/-- The search `s₀` after `k` expiries of its timer. Between two of them anything may happen to
the agent that leaves the search in its list. -/
inductive Sought (cf : Conf) (ext : Extern) (s₀ : SeekList) : ℕ → Option SeekList → Prop
  | start : Sought cf ext s₀ 0 (some s₀)
  | expire {k : ℕ} {s : SeekList} {r : Option SeekList} (env : Env) (n : Node) (i : ℕ)
      (hs : n.seekhead[i]? = some s) (hr : Ctx.Leaves ⟨cf, ext, env⟩ i n r) :
      Sought cf ext s₀ k (some s) → Sought cf ext s₀ (k + 1) r

theorem Ctx.Leaves.eq {n : Node} {i : ℕ} {s : SeekList} {r : Option SeekList}
    (h : c.Leaves i n r) (hs : n.seekhead[i]? = some s) :
    r = if s.reqs < rreqRetries then some (s.retry c) else none := by
  have hi : i < n.seekhead.length := (List.getElem?_eq_some_iff.mp hs).1
  have hlen : n.seekhead.length ≠ (n.seekhead.eraseIdx i).length := by
    rw [List.length_eraseIdx_of_lt hi]
    omega
  by_cases hreqs : s.reqs < rreqRetries
  · have hseek := retry_seekhead (c := c) hs hreqs
    rw [if_pos hreqs]
    cases h with
    | kept s' hs' =>
      have hget : (n.seekhead.set i s')[i]? = (n.seekhead.set i (s.retry c))[i]? := by
        rw [← hs', hseek]
      rw [List.getElem?_set_self hi, List.getElem?_set_self hi] at hget
      exact hget
    | removed hr =>
      rw [hseek] at hr
      exact (hlen (by rw [← hr, List.length_set])).elim
  · have hseek : (routeDiscoveryTimeout c i n).seekhead = n.seekhead.eraseIdx i := by
      unfold routeDiscoveryTimeout
      rw [hs]
      exact (congrArg Node.seekhead (if_neg hreqs)).trans (noRouteFound_gives_up i s n).1
    rw [if_neg hreqs]
    cases h with
    | kept s' hs' =>
      rw [hseek] at hs'
      exact (hlen (by rw [hs', List.length_set])).elim
    | removed => rfl

theorem Sought.same {s₀ s : SeekList} {k : ℕ} (h : Sought cf ext s₀ k (some s)) :
    s.destAddr = s₀.destAddr ∧ s.destSeqno = s₀.destSeqno ∧ s.flags = s₀.flags := by
  generalize hr : some s = r at h
  induction h generalizing s with
  | start =>
    cases hr
    exact ⟨rfl, rfl, rfl⟩
  | @expire k s' r env n i hs hleaves _ ih =>
    obtain ⟨hdest, hseqno, hflags⟩ := ih rfl
    have hkept := hr.trans (hleaves.eq hs)
    split at hkept
    · cases hkept
      obtain ⟨hdest', hseqno', hflags'⟩ := SeekList.retry_same (c := ⟨cf, ext, env⟩) s'
      exact ⟨hdest'.trans hdest, hseqno'.trans hseqno, hflags'.trans hflags⟩
    · cases hkept

def SeekList.Counted (cf : Conf) (s₀ : SeekList) (k : ℕ) : Option SeekList → Prop
  | some s => s.Ringed cf ∧ s.expiriesLeft cf + k = s₀.expiriesLeft cf
  | none => k = s₀.expiriesLeft cf

theorem Sought.counted {s₀ : SeekList} (h₀ : s₀.Ringed cf) {k : ℕ} {r : Option SeekList}
    (h : Sought cf ext s₀ k r) : s₀.Counted cf k r := by
  induction h with
  | start => exact ⟨h₀, by simp⟩
  | @expire k s r env n i hs hr _ ih =>
    obtain ⟨hring, hleft⟩ := ih
    rw [hr.eq hs]
    by_cases hreqs : s.reqs < rreqRetries
    · rw [if_pos hreqs]
      obtain ⟨hring', hleft'⟩ := SeekList.Ringed.retry (c := ⟨cf, ext, env⟩) hring hreqs
      refine ⟨hring', ?_⟩
      dsimp only at hleft'
      push_cast
      omega
    · rw [if_neg hreqs]
      have hlast := hring.last.mp (not_lt.mp hreqs)
      unfold SeekList.Counted
      push_cast
      omega

theorem expiriesLeft_start {s : SeekList} (hreqs : s.reqs = 0) :
    s.expiriesLeft cf = discoveryExpiries cf s.ttl := by
  have hret : rreqRetries = 2 := rfl
  unfold SeekList.expiriesLeft discoveryExpiries
  rw [hreqs, hret]
  split
  · have hnonneg := le_max_left (0 : Int) ⌈(((ttlThreshold - s.ttl : ℤ) : ℚ) / ttlIncrement)⌉
    omega
  · omega

/-- A search that finds nothing is given up at its last expiry. Until then every expiry arms the
timer again and repeats the request on every channel. -/
theorem route_discovery_gives_up {s₀ : SeekList} (hreqs : s₀.reqs = 0) (httl : 0 ≤ s₀.ttl) :
    (∀ k r, Sought cf ext s₀ k r → k ≤ discoveryExpiries cf s₀.ttl ∧
      (r = none ↔ k = discoveryExpiries cf s₀.ttl)) ∧
    ∀ k s env n i, Sought cf ext s₀ k (some s) → n.seekhead[i]? = some s →
      (k + 1 < discoveryExpiries cf s₀.ttl → ∃ s' d n₁,
        (routeDiscoveryTimeout ⟨cf, ext, env⟩ i n).seekhead = n.seekhead.set i s' ∧
        0 < d ∧ s'.seekTimer = s.seekTimer.setTimeout env.now d ∧
        n₁.out = n.out ∧ routeDiscoveryTimeout ⟨cf, ext, env⟩ i n =
          onEachChannel (rreqSendWithChannel ⟨cf, ext, env⟩ s₀.destAddr s₀.destSeqno s'.ttl
            s₀.flags) n₁ ∧
        (cf.ratelimit = false → (routeDiscoveryTimeout ⟨cf, ext, env⟩ i n).out =
          n.out ++ (List.range channelCount).flatMap fun ch =>
            requestCopies ⟨cf, ext, env⟩ n.ipaddr s'.ttl
              (searchRequest ⟨cf, ext, env⟩ n s₀.destAddr s₀.destSeqno s₀.flags ch))) ∧
      (k + 1 = discoveryExpiries cf s₀.ttl →
        (routeDiscoveryTimeout ⟨cf, ext, env⟩ i n).seekhead = n.seekhead.eraseIdx i ∧
        (routeDiscoveryTimeout ⟨cf, ext, env⟩ i n).pq = n.pq.filter (·.destAddr ≠ s₀.destAddr) ∧
        ∃ rest, (routeDiscoveryTimeout ⟨cf, ext, env⟩ i n).out = n.out ++
          (n.pq.filter (·.destAddr = s₀.destAddr)).map (fun qp => .drop qp.p .noRoute) ++ rest) := by
  have hret : rreqRetries = 2 := rfl
  have h₀ : s₀.Ringed cf := ⟨httl, by omega, fun _ h => by omega⟩
  have hstart : s₀.expiriesLeft cf = discoveryExpiries cf s₀.ttl := expiriesLeft_start hreqs
  have hpositive : ∀ s : SeekList, s.Ringed cf → 1 ≤ s.expiriesLeft cf := by
    intro s hs
    have hle := hs.reqs.2
    unfold SeekList.expiriesLeft
    split
    · have hnonneg := le_max_left (0 : Int) ⌈(((ttlThreshold - s.ttl : ℤ) : ℚ) / ttlIncrement)⌉
      omega
    · omega
  refine ⟨fun k r h => ?_, fun k s env n i h hs => ?_⟩
  · have hcount := h.counted h₀
    cases r with
    | none =>
      unfold SeekList.Counted at hcount
      have hk : k = discoveryExpiries cf s₀.ttl := by omega
      exact ⟨hk.le, iff_of_true rfl hk⟩
    | some s =>
      obtain ⟨hring, hleft⟩ := hcount
      have hleft' := hpositive s hring
      have hk : k ≠ discoveryExpiries cf s₀.ttl := by omega
      exact ⟨by omega, iff_of_false (Option.some_ne_none s) hk⟩
  · obtain ⟨hring, hleft⟩ := h.counted h₀
    obtain ⟨hdest, hseqno, hflags⟩ := h.same
    constructor
    · intro hk
      have hmore : s.reqs < rreqRetries := by
        by_contra hnot
        have hlast := hring.last.mp (not_lt.mp hnot)
        omega
      obtain ⟨d, hd, htimer⟩ := SeekList.Ringed.rearmed (c := ⟨cf, ext, env⟩) hring
      obtain ⟨hdest', hseqno', hflags'⟩ := SeekList.retry_same (c := ⟨cf, ext, env⟩) s
      obtain ⟨t, ht⟩ := retryState_eq (c := ⟨cf, ext, env⟩) i (s.retry ⟨cf, ext, env⟩) n
      have hretry := routeDiscoveryTimeout_retry (c := ⟨cf, ext, env⟩) hs hmore
      rw [hdest', hseqno', hflags', hdest, hseqno, hflags] at hretry
      refine ⟨s.retry ⟨cf, ext, env⟩, d, retryState ⟨cf, ext, env⟩ i (s.retry ⟨cf, ext, env⟩) n,
        retry_seekhead hs hmore, hd, htimer, by rw [ht], hretry, fun hr => ?_⟩
      rw [hretry, search_out hr, ht]
      rfl
    · intro hk
      have hlast : ¬ s.reqs < rreqRetries := not_lt.mpr (hring.last.mpr (by omega))
      have hgive : routeDiscoveryTimeout ⟨cf, ext, env⟩ i n = noRouteFound ⟨cf, ext, env⟩ i s n := by
        unfold routeDiscoveryTimeout
        rw [hs]
        exact if_neg hlast
      rw [hgive, ← hdest]
      exact noRouteFound_gives_up i s n

/-- With the ring search from TTL 2 the sixth expiry is the last. -/
theorem route_discovery_gives_up_after_six :
    discoveryExpiries { expandingRingSearch := true } 2 = 6 ∧
    ∀ k r, Sought { expandingRingSearch := true } (.described sampleLog {})
      { destAddr := 9, destSeqno := 0, flags := 0, ttl := 2 } k r → k ≤ 6 ∧ (r = none ↔ k = 6) := by
  have hsix : discoveryExpiries { expandingRingSearch := true } 2 = 6 := by decide +kernel
  refine ⟨hsix, fun k r h => ?_⟩
  have hgives := (@route_discovery_gives_up { expandingRingSearch := true }
    (.described sampleLog {}) { destAddr := 9, destSeqno := 0, flags := 0, ttl := 2 } rfl
    (by decide)).1 k r h
  rw [← hsix]
  exact hgives

/-! ## What a retry asks for -/

def Ext.udest : Ext → Option RreqUdest
  | .rreqUdest ud => some ud
  | _ => none

/-- Two requests of one type with the same flags and the same additional destinations. -/
structure RREQ.AsksLike (m m' : RREQ) : Prop where
  type : m.type = m'.type
  lr : m.lr = m'.lr
  d : m.d = m'.d
  g : m.g = m'.g
  r : m.r = m'.r
  j : m.j = m'.j
  udests : m.exts.filterMap Ext.udest = m'.exts.filterMap Ext.udest

/-- The two functions that enter a search into the list. -/
inductive Origin where
  | discovery
  | repair

/-- A search is entered, and `m` is the request sent for it; a discovery sends one on every
channel. -/
inductive SearchStart (cf : Conf) (ext : Extern) : Origin → SeekList → RREQ → Prop
  | discovery {s : SeekList} (env : Env) (n : Node) (a : InAddr) (flags : BitVec 8) (ch : ℕ)
      (hs : (rreqRouteDiscovery ⟨cf, ext, env⟩ a flags n).seekhead = s :: n.seekhead) :
      SearchStart cf ext .discovery s (searchRequest ⟨cf, ext, env⟩ n a s.destSeqno flags ch)
  | repair {s : SeekList} (env : Env) (n : Node) (a : InAddr)
      (hs : (rreqLocalRepair ⟨cf, ext, env⟩ a n).seekhead = s :: n.seekhead) :
      SearchStart cf ext .repair s (rreqLocalRepair ⟨cf, ext, env⟩ a n).bufRreq

theorem flood_eq (a : InAddr) (seqno : BitVec 32) (ttl : Int) (flags : BitVec 8) (n : Node) :
    onEachChannel (rreqSendWithChannel c a seqno ttl flags) n =
      (List.range channelCount).foldl (fun n' (k : ℕ) =>
        aodvSocketSend c aodvBroadcast rreqCostSize (BitVec.ofInt 8 ttl) { n' with
          channelNum := k
          rreqId := n'.rreqId + 1
          sendBuf := .rreq (searchRequest c n a seqno flags k) }) n := by
  unfold onEachChannel
  suffices hall : ∀ K, (List.range K).foldl
      (fun n i => rreqSendWithChannel c a seqno ttl flags i n) n =
      (List.range K).foldl (fun n' (k : ℕ) =>
        aodvSocketSend c aodvBroadcast rreqCostSize (BitVec.ofInt 8 ttl) { n' with
          channelNum := k
          rreqId := n'.rreqId + 1
          sendBuf := .rreq (searchRequest c n a seqno flags k) }) n ∧
      ((List.range K).foldl (fun n i => rreqSendWithChannel c a seqno ttl flags i n) n).ipaddr =
        n.ipaddr ∧
      ((List.range K).foldl (fun n i => rreqSendWithChannel c a seqno ttl flags i n) n).seqno =
        n.seqno ∧
      ((List.range K).foldl (fun n i => rreqSendWithChannel c a seqno ttl flags i n) n).rreqId =
        n.rreqId + BitVec.ofNat 32 K from (hall channelCount).1
  intro K
  induction K with
  | zero => exact ⟨rfl, rfl, rfl, (BitVec.add_zero _).symm⟩
  | succ K ih =>
    rw [List.range_succ, List.foldl_concat, List.foldl_concat]
    obtain ⟨heq, hip, hs, hid⟩ := ih
    generalize (List.range K).foldl (fun n i => rreqSendWithChannel c a seqno ttl flags i n) n = n₁
      at heq hip hs hid
    rw [← heq, rreqSendWithChannel_eq, searchRequest_shift hip hs hid]
    refine ⟨rfl, ?_, ?_, ?_⟩ <;> rw [aodvSocketSend_frame] <;> dsimp only
    · exact hip
    · exact hs
    · rw [hid, BitVec.ofNat_add, BitVec.add_assoc]
      rfl

/-- The requests with which the expiry at place `i` repeats a search. -/
def retryRequests (c : Ctx) (i : ℕ) (n : Node) : List RREQ :=
  match n.seekhead[i]? with
  | none => []
  | some s =>
    if s.reqs < rreqRetries then
      (List.range channelCount).map (searchRequest c n s.destAddr s.destSeqno s.flags)
    else []

/-- A retry passes them to the socket, one for each channel. -/
theorem routeDiscoveryTimeout_sends {n : Node} {i : ℕ} {s : SeekList}
    (hs : n.seekhead[i]? = some s) (hreqs : s.reqs < rreqRetries) :
    routeDiscoveryTimeout c i n = ((retryRequests c i n).zipIdx).foldl (fun n' m =>
      aodvSocketSend c aodvBroadcast rreqCostSize (BitVec.ofInt 8 (s.retry c).ttl) { n' with
        channelNum := m.2
        rreqId := n'.rreqId + 1
        sendBuf := .rreq m.1 }) (retryState c i (s.retry c) n) := by
  obtain ⟨hdest, hseqno, hflags⟩ := SeekList.retry_same (c := c) s
  obtain ⟨t, ht⟩ := retryState_eq (c := c) i (s.retry c) n
  have hrequests : retryRequests c i n =
      (List.range channelCount).map (searchRequest c n s.destAddr s.destSeqno s.flags) := by
    unfold retryRequests
    rw [hs]
    exact if_pos hreqs
  rw [routeDiscoveryTimeout_retry hs hreqs, hdest, hseqno, hflags, flood_eq, hrequests, ht]
  rfl

theorem searchRequest_asksLike (c c' : Ctx) (hcf : c.conf = c'.conf) (n n' : Node)
    (a a' : InAddr) (v v' : BitVec 32) (flags : BitVec 8) (k k' : ℕ) :
    (searchRequest c n a v flags k).AsksLike (searchRequest c' n' a' v' flags k') := by
  unfold searchRequest
  rw [hcf]
  exact ⟨rfl, rfl, rfl, rfl, rfl, rfl, rfl⟩

theorem rreqRouteDiscovery_entry {n : Node} {a : InAddr} {flags : BitVec 8} {s : SeekList}
    (hs : (rreqRouteDiscovery c a flags n).seekhead = s :: n.seekhead) : s.flags = flags := by
  unfold rreqRouteDiscovery at hs
  split at hs
  · exact absurd (congrArg List.length hs) (by simp)
  · obtain ⟨hhead, -⟩ := List.cons.inj hs
    rw [← hhead]

theorem repairAdd_type (nextHop : InAddr) (us : List RtTable) (m : RREQ) :
    (us.foldl (repairAdd nextHop) m).type = m.type := by
  refine List.foldlRecOn (motive := fun m' : RREQ => m'.type = m.type) _ _ rfl fun m' hm u _ => ?_
  unfold repairAdd
  split <;> exact hm

theorem repairRequest_type (n : Node) (a : InAddr) : (repairRequest n a).type = aodvRreqLr := by
  unfold repairRequest
  dsimp only
  rw [repairAdd_type]
  split <;> rfl

theorem rreqLocalRepair_start {n : Node} {a : InAddr} {s : SeekList}
    (hs : (rreqLocalRepair c a n).seekhead = s :: n.seekhead) :
    s.reqs = 0 ∧ (rreqLocalRepair c a n).bufRreq = repairRequest n a := by
  by_cases hflag : hasFlag (n.rt a).flags rtRepair
  · obtain ⟨rt, hrt⟩ := Option.ne_none_iff_exists'.mp (lookup_ne_none_of_flag hflag)
    rw [rt_of_lookup hrt] at hflag
    have hreqs : s.reqs = 0 := by
      unfold rreqLocalRepair at hs
      dsimp only at hs
      rw [rt_of_lookup hrt, if_pos hflag] at hs
      rw [← (List.cons.inj hs).1]
    obtain ⟨t, ttl, s', hrepair⟩ := rreqLocalRepair_sends (c := c) hrt hflag
    refine ⟨hreqs, ?_⟩
    rw [hrepair, aodvSocketSend_frame]
    rfl
  · rw [rreqLocalRepair_of_not_flag hflag] at hs
    exact absurd (congrArg List.length hs) (by simp)

/-- Every retry, which sends a request on each channel, asks for what the first request asked for
exactly when a discovery entered the search: all requests after the first of a local repair are
plain ones. -/
theorem retries_ask_alike_iff {o : Origin} {s₀ : SeekList} {m : RREQ}
    (h : SearchStart cf ext o s₀ m) :
    (∀ s env (n : Node) (i : ℕ), n.seekhead[i]? = some s → s.reqs < rreqRetries →
      routeDiscoveryTimeout ⟨cf, ext, env⟩ i n =
        ((retryRequests ⟨cf, ext, env⟩ i n).zipIdx).foldl (fun n' m =>
          aodvSocketSend ⟨cf, ext, env⟩ aodvBroadcast rreqCostSize
            (BitVec.ofInt 8 (s.retry ⟨cf, ext, env⟩).ttl) { n' with
              channelNum := m.2
              rreqId := n'.rreqId + 1
              sendBuf := .rreq m.1 })
          (retryState ⟨cf, ext, env⟩ i (s.retry ⟨cf, ext, env⟩) n)) ∧
    ((∀ k s env (n : Node) (i : ℕ), Sought cf ext s₀ k (some s) → n.seekhead[i]? = some s →
      ∀ m' ∈ retryRequests ⟨cf, ext, env⟩ i n, m'.AsksLike m) ↔ o = .discovery) := by
  refine ⟨fun s env n i hs hreqs => routeDiscoveryTimeout_sends hs hreqs, ?_⟩
  constructor
  · intro hall
    cases h with
    | discovery => rfl
    | repair env n a hs =>
      obtain ⟨hreqs, hbuf⟩ := rreqLocalRepair_start hs
      have hfirst : (rreqLocalRepair ⟨cf, ext, env⟩ a n).seekhead[0]? = some s₀ := by
        rw [hs]
        rfl
      have hretry : searchRequest ⟨cf, ext, env⟩ (rreqLocalRepair ⟨cf, ext, env⟩ a n) s₀.destAddr
          s₀.destSeqno s₀.flags 0 ∈
          retryRequests ⟨cf, ext, env⟩ 0 (rreqLocalRepair ⟨cf, ext, env⟩ a n) := by
        unfold retryRequests
        rw [hfirst]
        dsimp only
        rw [hreqs, if_pos (by decide)]
        exact List.mem_map_of_mem (List.mem_range.mpr (by decide))
      have halike := hall 0 s₀ env _ 0 .start hfirst _ hretry
      have htype := halike.type
      rw [hbuf, repairRequest_type] at htype
      exact absurd htype (by decide : aodvRreq ≠ aodvRreqLr)
  · rintro rfl k s env n i hk hs m' hm'
    cases h with
    | discovery env₀ n₀ a flags ch₀ hs₀ =>
      unfold retryRequests at hm'
      rw [hs] at hm'
      dsimp only at hm'
      split at hm'
      · obtain ⟨ch, -, rfl⟩ := List.mem_map.mp hm'
        rw [hk.same.2.2, rreqRouteDiscovery_entry hs₀]
        exact searchRequest_asksLike _ _ rfl _ _ _ _ _ _ _ _ _
      · cases hm'

theorem rreqRouteDiscovery_starts {n : Node} {a : InAddr} (hnew : seekListFind n a = none)
    (flags : BitVec 8) :
    ∃ s : SeekList, (rreqRouteDiscovery c a flags n).seekhead = s :: n.seekhead := by
  have hflood : ∀ v n', (onEachChannel (rreqSendWithChannel c a v 32 flags) n').seekhead =
      n'.seekhead := fun v n' => congrArg Routes.seekhead
    (onEachChannel_routes (fun k n => rreqSendWithChannel_routes _ _ _ _ k n) n')
  have hwait : ∀ b, (keepWaiting c b n).seekhead = n.seekhead := by
    intro b
    unfold keepWaiting
    split <;> rfl
  unfold rreqRouteDiscovery
  rw [hnew]
  refine ⟨_, congrArg (List.cons _) ((hflood _ _).trans ?_)⟩
  split
  · rfl
  · exact hwait _

theorem rreqLocalRepair_starts {n : Node} {a : InAddr} (hflag : hasFlag (n.rt a).flags rtRepair) :
    ∃ s : SeekList, (rreqLocalRepair c a n).seekhead = s :: n.seekhead := by
  obtain ⟨t, m, len, ttl, s, -, hrepair⟩ := rreqLocalRepair_eq (c := c) hflag
  refine ⟨s, ?_⟩
  rw [hrepair]
  exact congrArg (s :: ·) (congrArg Routes.seekhead (aodvSocketSend_routes _ _ _ _))

/-- A discovery with the G flag repeats that flag. -/
theorem discovery_retries_alike :
    ∃ s₀ m, SearchStart {} (.described sampleLog {}) .discovery s₀ m ∧ m.g = true ∧
      ∀ k s env (n : Node) (i : ℕ), Sought {} (.described sampleLog {}) s₀ k (some s) →
        n.seekhead[i]? = some s →
        ∀ m' ∈ retryRequests ⟨{}, .described sampleLog {}, env⟩ i n, m'.AsksLike m := by
  obtain ⟨s₀, hs⟩ := rreqRouteDiscovery_starts (c := sampleCtx 0) (n := Node.init (sampleCtx 0) 1)
    (a := 9) rfl rreqGratuitous
  have hstart := @SearchStart.discovery {} (.described sampleLog {}) s₀ { now := 0 }
    (Node.init (sampleCtx 0) 1) 9 rreqGratuitous 0 hs
  exact ⟨s₀, _, hstart, rfl, (retries_ask_alike_iff hstart).2.mpr rfl⟩

/-- Another search for 2 asks with the type of a local repair, its retry with that of a plain
request. -/
theorem repair_retried_as_plain :
    ¬ ∀ o s₀ m, SearchStart repairConf (.described sampleLog repairConf) o s₀ m →
      ∀ k s env (n : Node) (i : ℕ), Sought repairConf (.described sampleLog repairConf) s₀ k (some s) →
        n.seekhead[i]? = some s →
        ∀ m' ∈ retryRequests ⟨repairConf, .described sampleLog repairConf, env⟩ i n,
          m'.AsksLike m := by
  intro hall
  obtain ⟨s₀, hs⟩ := rreqLocalRepair_starts (c := repairCtx 2000) (n := repairingNode) (a := 9)
    (by decide +kernel)
  have hrequests : (retryRequests (repairCtx 2000) 0
      (rreqLocalRepair (repairCtx 2000) 9 repairingNode)).map (·.type) = [1, 1, 1] := by
    decide +kernel
  obtain ⟨m', hm', htype⟩ := List.mem_map.mp (hrequests ▸ List.mem_cons_self :
    (1 : BitVec 8) ∈ (retryRequests (repairCtx 2000) 0
      (rreqLocalRepair (repairCtx 2000) 9 repairingNode)).map (·.type))
  have halike := hall .repair s₀ _ (.repair { now := 2000 } repairingNode 9 hs) 0 s₀ { now := 2000 }
    (rreqLocalRepair (repairCtx 2000) 9 repairingNode) 0 .start (by rw [hs]; rfl) m' hm'
  have hfirst : (rreqLocalRepair (repairCtx 2000) 9 repairingNode).bufRreq.type = aodvRreqLr := by
    decide +kernel
  exact absurd (htype.symm.trans (halike.type.trans hfirst)) (by decide)

end AodvUU

import AodvUU.MacSender

/-! # How often a packet is sent

The failures of a packet are counted against one of two limits, by its size. A CTS resets one of
the two counts. The window doubles at each failure and returns to its minimum. -/
namespace AodvUU

/-- How often the last packet accepted went on the air. -/
def tries (log : List MacLog) : ℕ :=
  log.foldl (fun n o => match o with
    | .accept _ => 0
    | .air p => if p.kind = .data then n + 1 else n
    | _ => n) 0

def MacConf.window (c : MacConf) (k : ℕ) : ℕ := min c.cwMax ((c.cwMin + 1) * 2 ^ k - 1)

variable {c : MacConf} {t : ℚ} {ok : ℚ → Station → MacEvent → Prop} {m m' : Sender} {s : Station}
  {p q : Frame} {log : List MacLog} {o : MacLog} {k : ℕ}

@[simp] theorem tries_accept : tries (log ++ [.accept p]) = 0 := by
  simp [tries]

@[simp] theorem tries_air (hp : p.kind = .data) : tries (log ++ [.air p]) = tries log + 1 := by
  simp [tries, hp]

theorem tries_aside (ho : o.Aside) : tries (log ++ [o]) = tries log := by
  cases o <;> simp_all [tries, MacLog.Aside]

@[simp] theorem tries_ready : tries (log ++ [.ready]) = tries log := by
  simp [tries]

/-! ## The counts -/

/-- A packet of this size is counted by one count alone, or is sent only once. -/
def MacConf.Counts (c : MacConf) (p : Frame) : Prop :=
  p.ra = macBroadcast ∨ p.size ≠ c.rtsThreshold

/-- A broadcast is not retried, and another packet as often as its failures were counted. -/
def Sender.bound (c : MacConf) (p : Frame) (m : Sender) : ℕ :=
  (if p.ra = macBroadcast then 0 else m.count c p) + m.sending.toNat

structure Sender.Counted (c : MacConf) (m : Sender) : Prop where
  ssrc : m.ssrc < max 1 c.shortRetryLimit
  slrc : m.slrc < max 1 c.longRetryLimit
  rts : m.pktRTS.isSome → ∀ p, m.pktTx = some p → ¬ c.Short p
  tries : ∀ p, m.pktTx = some p → c.Counts p → AodvUU.tries m.log ≤ m.bound c p

theorem Sender.count_setCount : (m.setCount c p k).count c p = k := by
  unfold Sender.count Sender.setCount
  split <;> rfl

theorem Sender.Counted.setCount (h : m.Counted c) (hk : k < max 1 (c.thresh p)) :
    (m.setCount c p k).ssrc < max 1 c.shortRetryLimit ∧
      (m.setCount c p k).slrc < max 1 c.longRetryLimit := by
  unfold MacConf.thresh at hk
  unfold Sender.setCount
  split at hk
  · rw [if_pos ‹_›]
    exact ⟨hk, h.slrc⟩
  · rw [if_neg ‹_›]
    exact ⟨h.ssrc, hk⟩

theorem Sender.setCount_log : (m.setCount c p k).log = m.log := by
  unfold Sender.setCount
  split <;> rfl

theorem count_of_long (hlong : ¬ c.Short p) (hcounts : c.Counts p) : m.count c p = m.slrc := by
  unfold MacConf.Short at hlong
  rw [not_or, not_lt] at hlong
  have hsize := hcounts.resolve_left hlong.2
  unfold Sender.count
  rw [if_neg (by omega)]

theorem Sender.Counted.release (hs : m.ssrc < max 1 c.shortRetryLimit)
    (hl : m.slrc < max 1 c.longRetryLimit) : (m.release c p).Counted c :=
  ⟨hs, hl, fun _ _ hq => (nomatch hq), fun _ hq => (nomatch hq)⟩

theorem Sender.Counted.move (h : m.Counted c) (hm : Move c m m') : m'.Counted c := by
  have hreset : ∀ x : Frame, 0 < max 1 (c.thresh x) := fun x => lt_max_of_lt_left one_pos
  obtain ⟨hs, hl, hr, ht⟩ := id h
  cases hm with
  | aside ho => exact ⟨hs, hl, hr, fun p hp hc => (tries_aside ho).trans_le (ht p hp hc)⟩
  | accept htx hrts hcall =>
    refine ⟨hs, hl, fun hsome => ?_, fun p hp hc => tries_accept.trans_le (Nat.zero_le _)⟩
    change m.pktRTS.isSome at hsome
    rw [hrts] at hsome
    cases hsome
  | ready htx hcall =>
    refine ⟨hs, hl, hr, fun p hp hc => ?_⟩
    change m.pktTx = some p at hp
    rw [htx] at hp
    cases hp
  | request htx hrts hlong hkind =>
    refine ⟨hs, hl, fun _ p hp => ?_, ht⟩
    obtain rfl := Option.some.inj (htx.symm.trans hp)
    exact hlong
  | widen => exact ⟨hs, hl, hr, ht⟩
  | cleared hrts =>
    refine ⟨lt_max_of_lt_left one_pos, hl, nofun, fun p hp hc => ?_⟩
    have htry := ht p hp hc
    unfold Sender.bound at htry ⊢
    rwa [count_of_long (hr hrts p hp) hc] at htry ⊢
  | rtsTimeout hrts hcount =>
    have hlong := hr (by rw [hrts]; rfl)
    refine ⟨lt_max_of_lt_right hcount, hl, fun _ => hlong, fun p hp hc => ?_⟩
    have htry := ht p hp hc
    unfold Sender.bound at htry ⊢
    rwa [count_of_long (hlong p hp) hc] at htry ⊢
  | rtsFail htx hrts hcount =>
    exact .release (m := { m with pktRTS := none, ssrc := 0 }) (lt_max_of_lt_left one_pos) hl
  | air htx hkind hrts hsend =>
    refine ⟨hs, hl, hr, fun q hq hc => ?_⟩
    have htry := ht q hq hc
    unfold Sender.bound at htry ⊢
    rw [hsend] at htry
    exact (tries_air hkind).trans_le (Nat.succ_le_succ htry)
  | acked htx hsend => exact .release (h.setCount (hreset _)).1 (h.setCount (hreset _)).2
  | broadcast htx hsend hra => exact .release hs hl
  | @timeout p htx hsend hra hcount =>
    obtain ⟨hs', hl'⟩ := h.setCount (p := p) (lt_max_of_lt_right hcount)
    refine ⟨hs', hl', fun hsome q hq => ?_, fun q hq hc => ?_⟩
    · obtain rfl := Option.some.inj hq
      refine hr ?_ p htx
      unfold Sender.retried Sender.setCount at hsome
      split at hsome <;> exact hsome
    · obtain rfl := Option.some.inj hq
      have htry := ht p htx hc
      unfold Sender.bound at htry ⊢
      rw [if_neg hra, hsend] at htry
      rw [if_neg (show ¬ ({ p with retry := true } : Frame).ra = macBroadcast from hra)]
      have hcount' : (m.setCount c p (m.count c p + 1)).count c p = m.count c p + 1 :=
        Sender.count_setCount
      change AodvUU.tries (m.setCount c p (m.count c p + 1)).log ≤
        (m.setCount c p (m.count c p + 1)).count c p + 0
      rw [Sender.setCount_log, hcount']
      exact htry
  | fail htx hsend hra hcount => exact .release (h.setCount (hreset _)).1 (h.setCount (hreset _)).2

/-! ## The window -/

theorem window_zero (hc : c.cwMin ≤ c.cwMax) : c.window 0 = c.cwMin := by
  unfold MacConf.window
  omega

theorem window_succ (k : ℕ) : min (2 * c.window k + 1) c.cwMax = c.window (k + 1) := by
  unfold MacConf.window
  have hpos : 0 < (c.cwMin + 1) * 2 ^ k := by positivity
  have hdouble : (c.cwMin + 1) * 2 ^ (k + 1) = 2 * ((c.cwMin + 1) * 2 ^ k) := by ring
  rw [hdouble]
  omega

/-- The window has been doubled at least once for each attempt that is over. -/
def Sender.Widened (c : MacConf) (m : Sender) : Prop :=
  ∃ k, m.cw = c.window k ∧ (m.pktTx.isSome → tries m.log ≤ k + m.sending.toNat)

theorem Sender.Widened.move (hc : c.cwMin ≤ c.cwMax) (h : m.Widened c) (hm : Move c m m') :
    m'.Widened c := by
  have hreset : ∀ (m₁ : Sender) (p : Frame), (m₁.release c p).Widened c :=
    fun m₁ p => ⟨0, (window_zero hc).symm, nofun⟩
  obtain ⟨k, hk, ht⟩ := h
  cases hm with
  | aside ho => exact ⟨k, hk, fun hp => (tries_aside ho).trans_le (ht hp)⟩
  | accept => exact ⟨k, hk, fun _ => tries_accept.trans_le (Nat.zero_le _)⟩
  | ready => exact ⟨k, hk, fun hp => tries_ready.trans_le (ht hp)⟩
  | request => exact ⟨k, hk, ht⟩
  | widen =>
    refine ⟨k + 1, ?_, fun hp => (ht hp).trans (Nat.add_le_add_right k.le_succ _)⟩
    rw [← window_succ, ← hk]
  | cleared => exact ⟨k, hk, ht⟩
  | rtsTimeout => exact ⟨k, hk, ht⟩
  | rtsFail => exact hreset _ _
  | air htx hkind hrts hsend =>
    refine ⟨k, hk, fun hp => ?_⟩
    have htry := ht hp
    rw [hsend] at htry
    exact (tries_air hkind).trans_le (Nat.succ_le_succ htry)
  | acked => exact hreset _ _
  | broadcast => exact hreset _ _
  | timeout htx hsend hra hcount =>
    refine ⟨k + 1, ?_, fun _ => ?_⟩
    · rw [← window_succ, ← hk]
      rfl
    · have htry := ht (by rw [htx]; rfl)
      rw [hsend] at htry
      change AodvUU.tries (m.setCount c _ _).log ≤ k + 1 + 0
      rw [Sender.setCount_log]
      exact htry
  | fail => exact hreset _ _

theorem widened_moves (hc : c.cwMin ≤ c.cwMax) (hm : Moves c m m') (h : m.Widened c) :
    m'.Widened c := by
  induction hm with
  | refl => exact h
  | tail _ hstep ih => exact ih.move hc hstep

/-- The contention window is `CWMin` doubled `k` times, up to `CWMax`, and every attempt of the
packet that is over has doubled it. -/
theorem window_of_tries (hc : c.cwMin ≤ c.cwMax) (h : MacReachable c ok t s) :
    ∃ k, s.cw = c.window k ∧
      (s.pktTx.isSome → tries s.log ≤ k + if s.txState = .send then 1 else 0) := by
  obtain ⟨k, hk, ht⟩ := widened_moves hc (reachable_moves h).1 ⟨0, (window_zero hc).symm, nofun⟩
  refine ⟨k, hk, fun hp => (ht hp).trans_eq ?_⟩
  change k + (decide (s.txState = .send)).toNat = _
  by_cases hs : s.txState = .send <;> simp [hs]

def unansweredRun : List (ℚ × MacEvent) :=
  [(0, .send { kind := .data, size := 100, ra := 2, ta := 1 }), (50 / 10 ^ 6, .backoffTimer),
    (1266 / 10 ^ 6, .txTimer), (1584 / 10 ^ 6, .sendTimer), (1640 / 10 ^ 6, .backoffTimer)]

def unanswered : ℚ × Station :=
  ((Station.init (sampleMac 1) 0 0 0).run (sampleMac 1) (fun _ _ _ => True) 0 unansweredRun).get
    (by decide +kernel)

theorem unanswered_reachable :
    MacReachable (sampleMac 1) (fun _ _ _ => True) unanswered.1 unanswered.2 :=
  (MacReachable.init 0 0 0).run (Option.some_get _).symm

theorem unanswered_window : unanswered.2.cw = 63 ∧ ∃ k, unanswered.2.cw = (sampleMac 1).window k ∧
    (unanswered.2.pktTx.isSome →
      tries unanswered.2.log ≤ k + if unanswered.2.txState = .send then 1 else 0) :=
  ⟨by decide +kernel, window_of_tries (by decide) unanswered_reachable⟩

/-! ## The bound -/

theorem counted_init : ({ cw := c.cwMin } : Sender).Counted c :=
  ⟨lt_max_of_lt_left one_pos, lt_max_of_lt_left one_pos, fun hr => (nomatch hr),
    fun _ hp => (nomatch hp)⟩

theorem counted_moves (hm : Moves c m m') (h : m.Counted c) : m'.Counted c := by
  induction hm with
  | refl => exact h
  | tail _ hstep ih => exact ih.move hstep

theorem Sender.Counted.count_lt (h : m.Counted c) : m.count c p < max 1 (c.thresh p) := by
  unfold Sender.count MacConf.thresh
  split
  · exact h.ssrc
  · exact h.slrc

/-- A broadcast goes on the air once. Another packet goes on the air at most as often as its retry
limit says, unless its size is the RTS threshold: then each CTS resets the count. -/
theorem tries_le (h : MacReachable c ok t s) (hp : s.pktTx = some p) :
    (p.ra = macBroadcast → tries s.log ≤ 1) ∧
      (p.ra ≠ macBroadcast → p.size ≠ c.rtsThreshold → tries s.log ≤ max 1 (c.thresh p)) := by
  have hcounted := counted_moves (reachable_moves h).1 counted_init
  have hsend : s.sender.sending.toNat ≤ 1 := Bool.toNat_le _
  constructor
  · intro hra
    have htry := hcounted.tries p hp (.inl hra)
    unfold Sender.bound at htry
    rw [if_pos hra] at htry
    exact htry.trans (by omega)
  · intro hra hsize
    have htry := hcounted.tries p hp (.inr hsize)
    have hlt := hcounted.count_lt (p := p)
    unfold Sender.bound at htry
    rw [if_neg hra] at htry
    exact htry.trans (by omega)

def unansweredPacket : Frame := unanswered.2.pktTx.get (by decide +kernel)

theorem unanswered_tries : tries unanswered.2.log = 2 ∧
    tries unanswered.2.log ≤ max 1 ((sampleMac 1).thresh unansweredPacket) :=
  ⟨by decide +kernel, (tries_le unanswered_reachable (Option.some_get _).symm).2
    (by decide +kernel) (by decide +kernel)⟩

end AodvUU

import AodvUU.MacMedium

/-! # RTS and CTS before data

A packet that is not short goes on the air only after an RTS for it was answered. -/
namespace AodvUU

variable {c : MacConf} {ok : ℚ → Station → MacEvent → Prop} {t : ℚ} {ev : MacEvent}
  {m m' : Sender} {s : Station} {p : Frame} {k : ℕ}

/-! ## The RTS that waits -/

/-- The RTS for a packet, at the first attempt or a later one. -/
structure Frame.RtsFor (c : MacConf) (p r : Frame) : Prop where
  kind : r.kind = .rts
  ra : r.ra = p.ra
  ta : r.ta = c.index
  duration : r.duration = (c.rtsFrame p.ra p).duration

def Sender.Matched (c : MacConf) (m : Sender) : Prop :=
  ∀ r p, m.pktRTS = some r → m.pktTx = some p → p.RtsFor c r

theorem setCount_pktRTS : (m.setCount c p k).pktRTS = m.pktRTS := by
  unfold Sender.setCount
  split <;> rfl

theorem Sender.Matched.move (h : m.Matched c) (hm : Move c m m') : m'.Matched c := by
  intro r p hr hp
  cases hm with
  | aside | ready | widen | air => exact h r p hr hp
  | accept htx hrts hcall =>
    change m.pktRTS = some r at hr
    rw [hrts] at hr
    cases hr
  | request htx hrts hlong hq =>
    obtain rfl := Option.some.inj (htx.symm.trans hp)
    obtain rfl := Option.some.inj hr
    rw [hq]
    exact ⟨rfl, rfl, rfl, rfl⟩
  | cleared => cases hr
  | rtsTimeout hrts hcount =>
    obtain rfl := Option.some.inj hr
    obtain ⟨hkind, hra, hta, hd⟩ := h _ p hrts hp
    exact ⟨hkind, hra, hta, hd⟩
  | rtsFail => cases hp
  | acked | broadcast | fail => cases hp
  | timeout htx hsend hra hcount =>
    obtain rfl := Option.some.inj hp
    have hr' : m.pktRTS = some r := setCount_pktRTS.symm.trans hr
    obtain ⟨hkind, hra, hta, hd⟩ := h r _ hr' htx
    exact ⟨hkind, hra, hta, hd⟩

theorem matched_moves (hm : Moves c m m') (h : m.Matched c) : m'.Matched c := by
  induction hm with
  | refl => exact h
  | tail _ hstep ih => exact ih.move hstep

theorem reachable_matched (h : MacReachable c ok t s) : s.sender.Matched c :=
  matched_moves (reachable_moves h).1 fun _ _ hr => nomatch hr

/-! ## The handshake -/

namespace MacRun

variable {r : MacRun c ok} {i n : ℕ}

/-- No RTS and no data goes on the air from one event to another. -/
def Still (r : MacRun c ok) (i n : ℕ) : Prop :=
  ∀ j, i ≤ j → j < n → ∀ q ∈ newAir (r.state j).2 (r.state (j + 1)).2, q.kind ≠ .rts ∧ q.kind ≠ .data

/-- The RTS for a packet went on the air, and no RTS or data since. -/
def Asked (r : MacRun c ok) (p : Frame) (n : ℕ) : Prop :=
  ∃ i < n, (∃ q, newAir (r.state i).2 (r.state (i + 1)).2 = [q] ∧ p.RtsFor c q) ∧ r.Still (i + 1) n

/-- Then a CTS came through, and again no RTS or data went on the air. -/
def Granted (r : MacRun c ok) (p : Frame) (n : ℕ) : Prop :=
  ∃ j < n, r.Asked p j ∧ (r.state j).2.HearsCts c ∧ r.event j = .recvTimer ∧ r.Still j n

theorem Still.next (h : r.Still i n) (hs : ∀ q ∈ newAir (r.state n).2 (r.state (n + 1)).2,
    q.kind ≠ .rts ∧ q.kind ≠ .data) : r.Still i (n + 1) := by
  intro j hij hj
  by_cases hlast : j = n
  · rw [hlast]
    exact hs
  · exact h j hij (by omega)

theorem Still.nil (hi : n ≤ i) : r.Still i n := fun _ hij hj => absurd hj (by omega)

theorem Asked.next (h : r.Asked p n) (hs : ∀ q ∈ newAir (r.state n).2 (r.state (n + 1)).2,
    q.kind ≠ .rts ∧ q.kind ≠ .data) : r.Asked p (n + 1) := by
  obtain ⟨i, hi, hfor, hstill⟩ := h
  exact ⟨i, by omega, hfor, hstill.next hs⟩

theorem Granted.next (h : r.Granted p n) (hs : ∀ q ∈ newAir (r.state n).2 (r.state (n + 1)).2,
    q.kind ≠ .rts ∧ q.kind ≠ .data) : r.Granted p (n + 1) := by
  obtain ⟨j, hj, hasked, hcts, hev, hstill⟩ := h
  exact ⟨j, by omega, hasked, hcts, hev, hstill.next hs⟩

/-- While an answer is awaited the RTS is out, and a packet that has won the medium was granted
it. -/
structure Handshaking (r : MacRun c ok) (n : ℕ) : Prop where
  held : (r.state n).2.txState = .rts → (r.state n).2.pktRTS.isSome
  asked : (r.state n).2.txState = .rts → ∀ p, (r.state n).2.pktTx = some p → r.Asked p n
  won : ∀ p, (r.state n).2.Won c p → r.Granted p n

theorem Handshaking.silent (h : r.Handshaking n)
    (hsilent : (r.state n).2.Silent c (fun q => r.event n = .recvTimer ∧ (r.state n).2.HearsCts c ∧
      (r.state n).2.pktTx = some q) (r.state (n + 1)).2) : r.Handshaking (n + 1) := by
  have hstill : ∀ q ∈ newAir (r.state n).2 (r.state (n + 1)).2, q.kind ≠ .rts ∧ q.kind ≠ .data := by
    intro q hq
    rw [hsilent.toCalm.newAir] at hq
    cases hq
  refine ⟨fun hr => ?_, fun hr p hp => ?_, fun p hp => ?_⟩
  · obtain ⟨hx, hkeep⟩ := hsilent.asked hr
    exact (hkeep (h.held hx)).1
  · obtain ⟨hx, hkeep⟩ := hsilent.asked hr
    have hsame := (hkeep (h.held hx)).2
    exact (h.asked hx p (hsame ▸ hp)).next hstill
  · obtain hwon | ⟨hev, hcts, hq⟩ := hsilent.won p hp
    · exact (h.won p hwon).next hstill
    · exact ⟨n, by omega, h.asked hcts.1 p hq, hcts, hev, (Still.nil le_rfl).next hstill⟩

theorem Handshaking.airs (h : r.Handshaking n) (hn : n < r.length) {q : Frame}
    (hairs : (r.state n).2.Airs c (r.state (n + 1)).1 q (r.state (n + 1)).2) :
    r.Handshaking (n + 1) := by
  have hstill : q.kind ≠ .rts ∧ q.kind ≠ .data →
      ∀ q' ∈ newAir (r.state n).2 (r.state (n + 1)).2, q'.kind ≠ .rts ∧ q'.kind ≠ .data := by
    intro hk q' hq'
    rw [hairs.newAir] at hq'
    obtain rfl := List.mem_singleton.mp hq'
    exact hk
  refine ⟨fun hr => ?_, fun hr p hp => ?_, fun p hp => ?_⟩
  · rw [hairs.request]
    obtain hq | ⟨hrts, -⟩ := hairs.asked hr
    · rw [hq]
      rfl
    · exact h.held hrts
  · rw [hairs.packet] at hp
    obtain hq | ⟨hrts, hk⟩ := hairs.asked hr
    · have hfor : p.RtsFor c q := reachable_matched (r.reachable hn.le) q p hq hp
      exact ⟨n, by omega, ⟨q, hairs.newAir, hfor⟩, .nil le_rfl⟩
    · exact (h.asked hrts p hp).next (hstill hk)
  · obtain ⟨hwon, hk⟩ := hairs.won p hp
    exact (h.won p hwon).next (hstill hk)

theorem handshaking (r : MacRun c ok) (hn : n ≤ r.length) : r.Handshaking n := by
  induction n with
  | zero =>
    obtain ⟨w, _, k, hstart⟩ := r.start
    constructor
    · rw [hstart]
      exact fun hr => nomatch hr
    · rw [hstart]
      exact fun hr => nomatch hr
    · rw [hstart]
      exact fun p hp => nomatch hp.2.1
  | succ n ih =>
    have hx := r.reachable (i := n) (by omega)
    obtain ⟨e, he⟩ := (r.step n (by omega)).step
    obtain hsilent | ⟨q, hairs⟩ := Station.step_airs he hx.armed
    · exact (ih (by omega)).silent hsilent
    · exact (ih (by omega)).airs (by omega) hairs

end MacRun

/-- A packet that is not short goes on the air only after an RTS for it went out and a CTS to the
station came through, with no other RTS and no data in between. -/
theorem data_after_cts (r : MacRun c ok) {n : ℕ} (hn : n < r.length)
    (hp : p ∈ newAir (r.state n).2 (r.state (n + 1)).2) (hkind : p.kind = .data)
    (hlong : ¬ c.Short p) : r.Granted p n := by
  obtain ⟨e, he⟩ := (r.step n hn).step
  obtain hsilent | ⟨q, hairs⟩ := Station.step_airs he (r.reachable hn.le).armed
  · rw [hsilent.toCalm.newAir] at hp
    cases hp
  · rw [hairs.newAir] at hp
    obtain rfl := List.mem_singleton.mp hp
    exact (r.handshaking hn.le).won p (hairs.data hkind hlong)

/-- A long packet is handed down, and 2 answers its RTS. -/
def answeredRun : List (ℚ × MacEvent) :=
  [(0, .send { kind := .data, uid := 7, size := 2000, ra := 2, ta := 1 }),
    (50 / 10 ^ 6, .backoffTimer), (402 / 10 ^ 6, .txTimer),
    (412 / 10 ^ 6, .recv { kind := .cts, size := 38, txtime := 304 / 10 ^ 6, rxPr := 1, ra := 1 }),
    (716 / 10 ^ 6, .recvTimer)]

def answeredRts : ℚ × Station := runOn (0, Station.init (sampleMac 1) 0 0 0) answeredRun

def sentLong : ℚ × Station := runOn answeredRts [(726 / 10 ^ 6, .deferTimer)]

theorem answeredRts_reachable :
    MacReachable (sampleMac 1) (fun _ _ _ => True) answeredRts.1 answeredRts.2 :=
  (MacReachable.init 0 0 0).run
    (runOn_eq (0, Station.init (sampleMac 1) 0 0 0) answeredRun (by decide +kernel))

theorem sentLong_step :
    MacStep (sampleMac 1) (fun _ _ _ => True) .deferTimer answeredRts sentLong :=
  .run (runOn_eq answeredRts [(726 / 10 ^ 6, .deferTimer)] (by decide +kernel))

theorem sentLong_granted : ∃ r : MacRun (sampleMac 1) (fun _ _ _ => True), ∃ n < r.length,
    r.state n = answeredRts ∧ r.state (n + 1) = sentLong ∧
      ∃ p ∈ newAir answeredRts.2 sentLong.2, (p.kind = .data ∧ p.uid = 7) ∧ r.Granted p n := by
  obtain ⟨p, hp, hkind, huid, hlong⟩ : ∃ p ∈ newAir answeredRts.2 sentLong.2, p.kind = .data ∧
      p.uid = 7 ∧ ¬ (sampleMac 1).Short p := by
    decide +kernel
  obtain ⟨r, n, hn, hx, hy⟩ := sentLong_step.exists_run answeredRts_reachable
  exact ⟨r, n, hn, hx, hy, p, hp, ⟨hkind, huid⟩,
    data_after_cts r hn (by rw [hx, hy]; exact hp) hkind hlong⟩

end AodvUU

import AodvUU.Mac80211

/-! # What the handlers of a station do

For each handler the ways it can end, with the state it comes to and the calls it has made. -/
namespace AodvUU

namespace Station

variable {c : MacConf} {t : ℚ} {e : MacEnv} {s s' : Station} {p : Frame} {dst : BitVec 32}

/-! ## Timers and states -/

theorem checkBackoffTimer_eq : ∃ b, s.checkBackoffTimer c t = { s with mhBackoff := b } := by
  unfold checkBackoffTimer
  split
  · exact ⟨_, rfl⟩
  · split <;> split <;> exact ⟨_, rfl⟩

theorem setRxState_eq (x : MacState) :
    ∃ b, s.setRxState c t x = { s with rxState := x, mhBackoff := b } :=
  checkBackoffTimer_eq

theorem startDefer_cases {x : ℚ} (h : s.startDefer t x = some s') :
    s.mhDefer = none ∧ s' = { s with mhDefer := some (t + x) } := by
  unfold startDefer at h
  split at h
  · next hnone => exact ⟨by simpa using hnone, (Option.some.inj h).symm⟩
  · cases h

theorem startRecv_cases {x : ℚ} (h : s.startRecv t x = some s') :
    s.mhRecv = none ∧ s' = { s with mhRecv := some (t + x) } := by
  unfold startRecv at h
  split at h
  · next hnone => exact ⟨by simpa using hnone, (Option.some.inj h).symm⟩
  · cases h

theorem startBackoff_cases {x : ℚ} (h : s.startBackoff t x = some s') :
    s.mhBackoff = none ∧
      s' = { s with mhBackoff := some { paused := !s.isIdle t, ready := t + x } } := by
  unfold startBackoff at h
  split at h
  · next hnone => exact ⟨by simpa using hnone, (Option.some.inj h).symm⟩
  · cases h

theorem stopSend_cases (h : s.stopSend = some s') : s' = { s with mhSend := none } := by
  unfold stopSend at h
  split at h
  · exact (Option.some.inj h).symm
  · cases h

/-! ## Frames that are built -/

theorem sendRTS_cases (h : s.sendRTS c dst = some s') :
    ∃ p, s.pktTx = some p ∧ s.pktRTS = none ∧
      ((p.size < c.rtsThreshold ∨ dst = macBroadcast) ∧ s' = s ∨
        ¬ (p.size < c.rtsThreshold ∨ dst = macBroadcast) ∧
          s' = { s with pktRTS := some (c.rtsFrame dst p) }) := by
  unfold sendRTS at h
  split at h
  · next p hp hr =>
    refine ⟨p, hp, hr, ?_⟩
    split at h
    · next hs => exact .inl ⟨hs, (Option.some.inj h).symm⟩
    · next hs => exact .inr ⟨hs, (Option.some.inj h).symm⟩
  · cases h

theorem sendCTS_cases {us : BitVec 16} (h : s.sendCTS c dst us = some s') :
    s.pktCTRL = none ∧ s' = { s with pktCTRL := some (c.ctsFrame dst us) } := by
  unfold sendCTS at h
  split at h
  · cases h
  · next hnone => exact ⟨by simpa using hnone, (Option.some.inj h).symm⟩

theorem sendACK_cases (h : s.sendACK c dst = some s') :
    s.pktCTRL = none ∧ s' = { s with pktCTRL := some (c.ackFrame dst) } := by
  unfold sendACK at h
  split at h
  · cases h
  · next hnone => exact ⟨by simpa using hnone, (Option.some.inj h).symm⟩

/-! ## Contention -/

theorem contend_cases {k : ℕ} (h : s.contend c t k = some s') :
    c.bugFixTimer = true ∧ s.startBackoff t c.difs = some s' ∨
      c.bugFixTimer = false ∧ ∃ x, s.startDefer t x = some s' := by
  unfold contend at h
  split at h
  · next hfix => exact .inl ⟨hfix, h⟩
  · next hfix => exact .inr ⟨by simpa using hfix, _, h⟩

theorem await_cases {k : ℕ} (h : s.await c t k = some s') :
    s' = s ∨ s.contend c t k = some s' ∨ s.isIdle t = false ∧ s.startBackoff t 0 = some s' := by
  unfold await at h
  split at h
  · exact .inl (Option.some.inj h).symm
  · split at h
    · split at h
      · exact .inl (Option.some.inj h).symm
      · exact .inr (.inl h)
    · next hbusy => exact .inr (.inr ⟨by simpa using hbusy, h⟩)

theorem transmit_eq {x : ℚ} (h : s.transmit t p x = some s') :
    s.mhSend = none ∧ s' = note (.air p) { s with
      txActive := true
      pktRx := if s.rxState = .idle then s.pktRx else s.pktRx.map fun q => { q with error := true }
      mhSend := some (t + x)
      mhIF := some (t + p.txtime) } := by
  unfold transmit at h
  split at h
  · cases h
  · next hno =>
    refine ⟨?_, (Option.some.inj h).symm⟩
    simpa using fun hs => hno (.inr (.inl hs))

theorem checkPktCTRL_cases {b : Bool} (h : s.checkPktCTRL c t = some (b, s')) :
    b = false ∧ s' = s ∨ b = true ∧
      ((∃ why p, s.pktCTRL = some p ∧ p.kind = .cts ∧ s.isIdle t = false ∧
          s' = { s.discard c p why with pktCTRL := none }) ∨
        ∃ p x y, s.pktCTRL = some p ∧ (p.kind = .cts ∧ s.isIdle t = true ∨ p.kind = .ack) ∧
          (y = .cts ∨ y = .ack) ∧ (s.setTxState c t y).transmit t p x = some s') := by
  unfold checkPktCTRL at h
  split at h
  · cases h
    exact .inl ⟨rfl, rfl⟩
  · next q hq =>
    split at h
    · cases h
      exact .inl ⟨rfl, rfl⟩
    · split at h
      · next hk =>
        split at h
        · next hidle =>
          obtain ⟨s₁, hs₁, heq⟩ := Option.map_eq_some_iff.mp h
          cases heq
          exact .inr ⟨rfl, .inr ⟨q, _, _, hq, .inl ⟨hk, hidle⟩, .inl rfl, hs₁⟩⟩
        · next hidle =>
          cases h
          exact .inr ⟨rfl, .inl ⟨_, q, hq, hk, by simpa using hidle, rfl⟩⟩
      · next hk =>
        obtain ⟨s₁, hs₁, heq⟩ := Option.map_eq_some_iff.mp h
        cases heq
        exact .inr ⟨rfl, .inr ⟨q, _, _, hq, .inr hk, .inr rfl, hs₁⟩⟩
      · cases h

theorem checkPktRTS_cases {b : Bool} (h : s.checkPktRTS c t = some (b, s')) :
    s.pktRTS = none ∧ b = false ∧ s' = s ∨
      ∃ p, s.pktRTS = some p ∧ p.kind = .rts ∧ b = true ∧
        (s.isIdle t = true ∧ (s.setTxState c t .rts).transmit t p c.rtsTimeout = some s' ∨
          s.isIdle t = false ∧ (s.incCw c).startBackoff t 0 = some s') := by
  unfold checkPktRTS at h
  split at h
  · cases h
  · split at h
    · next hr =>
      cases h
      exact .inl ⟨hr, rfl, rfl⟩
    · next p hr =>
      split at h
      · cases h
      · next hk =>
        rw [not_not] at hk
        split at h
        · next hidle =>
          obtain ⟨s₁, hs₁, heq⟩ := Option.map_eq_some_iff.mp h
          cases heq
          exact .inr ⟨p, hr, hk, rfl, .inl ⟨hidle, hs₁⟩⟩
        · next hbusy =>
          obtain ⟨s₁, hs₁, heq⟩ := Option.map_eq_some_iff.mp h
          cases heq
          exact .inr ⟨p, hr, hk, rfl, .inr ⟨by simpa using hbusy, hs₁⟩⟩

theorem checkPktTx_cases {b : Bool} (h : s.checkPktTx c t = some (b, s')) :
    s' = s ∨
      ∃ p, s.pktTx = some p ∧ p.kind = .data ∧
        (s.isIdle t = true ∧ (s.setTxState c t .send).transmit t p (c.dataTimeout p) = some s' ∨
          s.isIdle t = false ∧ ∃ s₁, s.sendRTS c p.ra = some s₁ ∧
            (s₁.incCw c).startBackoff t 0 = some s') := by
  unfold checkPktTx at h
  split at h
  · cases h
  · split at h
    · cases h
      exact .inl rfl
    · next p hp =>
      split at h
      · cases h
      · next hk =>
        rw [not_not] at hk
        split at h
        · next hidle =>
          obtain ⟨s₁, hs₁, heq⟩ := Option.map_eq_some_iff.mp h
          cases heq
          exact .inr ⟨p, hp, hk, .inl ⟨hidle, hs₁⟩⟩
        · next hbusy =>
          obtain ⟨s₁, hs₁, heq⟩ := Option.map_eq_some_iff.mp h
          cases heq
          obtain ⟨s₂, hs₂, hback⟩ := Option.bind_eq_some_iff.mp hs₁
          exact .inr ⟨p, hp, hk, .inr ⟨by simpa using hbusy, s₂, hs₂, hback⟩⟩

theorem checkBoth_cases (h : s.checkBoth c t = some s') :
    s.checkPktRTS c t = some (true, s') ∨
      s.pktRTS = none ∧ ∃ b, s.checkPktTx c t = some (b, s') := by
  obtain ⟨⟨b, s₁⟩, hs₁, hrest⟩ := Option.bind_eq_some_iff.mp h
  obtain ⟨hr, rfl, rfl⟩ | ⟨p, -, -, rfl, -⟩ := checkPktRTS_cases hs₁
  · obtain ⟨⟨b', s₂⟩, hs₂, rfl⟩ := Option.map_eq_some_iff.mp hrest
    exact .inr ⟨hr, b', hs₂⟩
  · obtain rfl := Option.some.inj hrest
    exact .inl hs₁

theorem backoffHandler_cases (h : s.backoffHandler c t = some s') :
    s' = s ∨ s.checkBoth c t = some s' := by
  unfold backoffHandler at h
  split at h
  · split at h
    · exact .inl (Option.some.inj h).symm
    · cases h
  · exact .inr h

theorem deferHandler_cases (h : s.deferHandler c t = some s') :
    s.checkPktCTRL c t = some (true, s') ∨
      s.checkPktCTRL c t = some (false, s) ∧ s.checkBoth c t = some s' := by
  unfold deferHandler at h
  split at h
  · cases h
  · obtain ⟨⟨b, s₁⟩, hs₁, hrest⟩ := Option.bind_eq_some_iff.mp h
    obtain ⟨rfl, rfl⟩ | ⟨rfl, -⟩ := checkPktCTRL_cases hs₁
    · dsimp only at hrest
      rw [if_neg (by simp)] at hrest
      split at hrest
      · cases hrest
      · exact .inr ⟨hs₁, hrest⟩
    · obtain rfl := Option.some.inj hrest
      exact .inl hs₁

theorem navHandler_cases : s.navHandler c t = s ∨ s.navHandler c t =
    { s with mhBackoff := some { paused := false, ready := t + c.difs } } := by
  unfold navHandler
  split
  · split
    · exact .inr rfl
    · exact .inl rfl
  · exact .inl rfl

/-! ## Resuming -/

theorem resumeNext_cases (h : s.resumeNext c t e = some s') :
    s' = s ∨ s.startDefer t c.sifs = some s' ∨ s.contend c t e.random = some s' ∨
      s.pktTx = none ∧ s.callback = true ∧
        (s' = { s with callback := false }.note .ready ∨
          ∃ p, ({ s with callback := false }.note .ready).send c t e.random p = some s') := by
  unfold resumeNext at h
  split at h
  · exact .inr (.inl h)
  · split at h
    · split at h
      · exact .inl (Option.some.inj h).symm
      · exact .inr (.inr (.inl h))
    · split at h
      · split at h
        · exact .inl (Option.some.inj h).symm
        · split at h
          · exact .inr (.inr (.inl h))
          · exact .inr (.inl h)
      · next htx =>
        split at h
        · next hcall =>
          split at h
          · exact .inr (.inr (.inr ⟨htx, hcall, .inl (Option.some.inj h).symm⟩))
          · exact .inr (.inr (.inr ⟨htx, hcall, .inr ⟨_, h⟩⟩))
        · exact .inl (Option.some.inj h).symm

theorem txResume_cases (h : s.txResume c t e = some s') :
    ∃ s₁, s.resumeNext c t e = some s₁ ∧ s' = s₁.setTxState c t .idle := by
  unfold txResume at h
  split at h
  · cases h
  · obtain ⟨s₁, hs₁, heq⟩ := Option.map_eq_some_iff.mp h
    exact ⟨s₁, hs₁, heq.symm⟩

theorem rxResume_cases (h : s.rxResume c t = some s') : s' = s.setRxState c t .idle := by
  unfold rxResume at h
  split at h
  · cases h
  · exact (Option.some.inj h).symm

/-! ## Retransmission -/

theorem retransmitRTS_cases (h : s.retransmitRTS c t = some s') :
    ∃ p r, s.pktTx = some p ∧ s.pktRTS = some r ∧
      (c.shortRetryLimit ≤ s.ssrc + 1 ∧
          s' = { ({ s.discard c r .retryCountExceeded with pktRTS := none }.giveUp c p .rts) with
            ssrc := 0 }.rstCw c ∨
        s.ssrc + 1 < c.shortRetryLimit ∧
          ({ s with ssrc := s.ssrc + 1, pktRTS := some { r with retry := true } }.incCw
            c).startBackoff t 0 = some s') := by
  unfold retransmitRTS at h
  split at h
  · next p r hp hr hb =>
    refine ⟨p, r, hp, hr, ?_⟩
    split at h
    · next hlimit => exact .inl ⟨hlimit, (Option.some.inj h).symm⟩
    · next hlimit => exact .inr ⟨not_le.mp hlimit, h⟩
  · cases h

theorem retransmitDATA_cases (h : s.retransmitDATA c t = some s') :
    ∃ p, s.pktTx = some p ∧ s.pktRTS = none ∧
      (p.ra = macBroadcast ∧
          ((note (.freed p) { s with pktTx := none }).rstCw c).startBackoff t 0 = some s' ∨
        p.ra ≠ macBroadcast ∧ c.thresh p ≤ s.rcount c p + 1 ∧
          s' = ((s.giveUp c p .ack).setRcount c p 0).rstCw c ∨
        p.ra ≠ macBroadcast ∧ s.rcount c p + 1 < c.thresh p ∧
          ∃ s₁, { s.setRcount c p (s.rcount c p + 1) with
              pktTx := some { p with retry := true } }.sendRTS c p.ra = some s₁ ∧
            (s₁.incCw c).startBackoff t 0 = some s') := by
  unfold retransmitDATA at h
  split at h
  · next p hb hp hr =>
    refine ⟨p, hp, hr, ?_⟩
    split at h
    · next hra => exact .inl ⟨hra, h⟩
    · next hra =>
      split at h
      · next hlimit => exact .inr (.inl ⟨hra, hlimit, (Option.some.inj h).symm⟩)
      · next hlimit =>
        obtain ⟨s₁, hs₁, hback⟩ := Option.bind_eq_some_iff.mp h
        exact .inr (.inr ⟨hra, not_le.mp hlimit, s₁, hs₁, hback⟩)
  · cases h

theorem sendEnded_cases (h : s.sendEnded c t = some s') :
    s.txState = .rts ∧ s.retransmitRTS c t = some s' ∨
      (s.txState = .cts ∨ s.txState = .ack) ∧ s' = { s with pktCTRL := none } ∨
      s.txState = .send ∧ s.retransmitDATA c t = some s' ∨ s.txState = .idle ∧ s' = s := by
  unfold sendEnded at h
  split at h
  · next hx => exact .inl ⟨hx, h⟩
  · next hx =>
    split at h
    · exact .inr (.inl ⟨.inl hx, (Option.some.inj h).symm⟩)
    · cases h
  · next hx =>
    split at h
    · exact .inr (.inl ⟨.inr hx, (Option.some.inj h).symm⟩)
    · cases h
  · next hx => exact .inr (.inr (.inl ⟨hx, h⟩))
  · next hx => exact .inr (.inr (.inr ⟨hx, (Option.some.inj h).symm⟩))
  · cases h
  · cases h

/-! ## Frames that end -/

theorem recvRTS_cases (h : s.recvRTS c t e p = some s') :
    s' = s.discard c p .busy ∨ s.txState = .idle ∧
      { s with pktCTRL := some (c.ctsFrame p.ta p.duration), mhDefer := none }.txResume c t e =
        some s' := by
  unfold recvRTS at h
  split at h
  · exact .inl (Option.some.inj h).symm
  · next hno =>
    rw [not_or, not_not] at hno
    obtain ⟨s₁, hs₁, hresume⟩ := Option.bind_eq_some_iff.mp h
    obtain ⟨-, rfl⟩ := sendCTS_cases hs₁
    exact .inr ⟨hno.1, hresume⟩

theorem recvCTS_cases (h : s.recvCTS c t e p = some s') :
    s' = s.discard c p .invalidState ∨ s.txState = .rts ∧ s.pktRTS.isSome ∧
      { s with mhSend := none, pktRTS := none, ssrc := 0 }.txResume c t e = some s' := by
  unfold recvCTS at h
  split at h
  · exact .inl (Option.some.inj h).symm
  · next hrts =>
    rw [not_not] at hrts
    split at h
    · cases h
    · next hsome =>
      rw [not_or] at hsome
      obtain ⟨s₁, hs₁, hresume⟩ := Option.bind_eq_some_iff.mp h
      obtain rfl := stopSend_cases hs₁
      exact .inr ⟨hrts, by simpa [Option.isSome_iff_ne_none] using hsome.1, hresume⟩

theorem recvACK_cases (h : s.recvACK c t e p = some s') :
    s' = s.discard c p .invalidState ∨ s.txState = .send ∧
      ∃ q s₁, s.pktTx = some q ∧
        ((note (.freed q) { setRcount c q 0 { s with mhSend := none } with
          pktTx := none }).rstCw c).startBackoff t 0 = some s₁ ∧
        s₁.txResume c t e = some s' := by
  unfold recvACK at h
  split at h
  · exact .inl (Option.some.inj h).symm
  · next hsend =>
    rw [not_not] at hsend
    split at h
    · cases h
    · next q hq =>
      obtain ⟨s₁, hs₁, hrest⟩ := Option.bind_eq_some_iff.mp h
      obtain ⟨s₂, hs₂, hresume⟩ := Option.bind_eq_some_iff.mp hrest
      obtain rfl := stopSend_cases hs₁
      exact .inr ⟨hsend, q, s₂, hq, hs₂, hresume⟩

theorem ackAfterCts_cases (h : s.ackAfterCts c t e dst = some s') :
    { s with mhSend := none, pktCTRL := some (c.ackFrame dst) }.txResume c t e = some s' := by
  unfold ackAfterCts at h
  split at h
  · cases h
  · obtain ⟨s₁, hs₁, hrest⟩ := Option.bind_eq_some_iff.mp h
    obtain ⟨s₂, hs₂, hresume⟩ := Option.bind_eq_some_iff.mp hrest
    obtain rfl := stopSend_cases hs₁
    obtain ⟨-, rfl⟩ := sendACK_cases hs₂
    exact hresume

theorem ackShort_cases (h : s.ackShort c t e dst = some s') :
    s' = { s with pktCTRL := some (c.ackFrame dst) } ∨ s.mhSend = none ∧
      { s with pktCTRL := some (c.ackFrame dst) }.txResume c t e = some s' := by
  unfold ackShort at h
  obtain ⟨s₁, hs₁, hrest⟩ := Option.bind_eq_some_iff.mp h
  obtain ⟨-, rfl⟩ := sendACK_cases hs₁
  split at hrest
  · exact .inl (Option.some.inj hrest).symm
  · next hquiet => exact .inr ⟨by simpa using hquiet, hrest⟩

theorem recvDATA_cases (h : s.recvDATA c t e p = some s') :
    ∃ q : Frame, q = { p with size := p.size - c.hdrLen11, numForwards := p.numForwards + 1 } ∧
      (s' = s.deliver c q ∨ s' = s.discard c q .busy ∨
        ∃ s₁, s' = s₁.deliver c q ∧ (s.txState = .cts ∧ s.ackAfterCts c t e p.ta = some s₁ ∨
          s.ackShort c t e p.ta = some s₁)) := by
  refine ⟨_, rfl, ?_⟩
  unfold recvDATA at h
  dsimp only at h
  split at h
  · exact .inl (Option.some.inj h).symm
  · split at h
    · split at h
      · next hcts =>
        obtain ⟨s₁, hs₁, heq⟩ := Option.map_eq_some_iff.mp h
        exact .inr (.inr ⟨s₁, heq.symm, .inl ⟨hcts, hs₁⟩⟩)
      · exact .inr (.inl (Option.some.inj h).symm)
    · split at h
      · exact .inr (.inl (Option.some.inj h).symm)
      · obtain ⟨s₁, hs₁, heq⟩ := Option.map_eq_some_iff.mp h
        exact .inr (.inr ⟨s₁, heq.symm, .inr hs₁⟩)

/-- The NAV is set by a frame to somebody else, a broadcast included. -/
theorem received_cases (h : s.received c t e p = some s') :
    ∃ s₁, s₁ = (if p.ra = c.index then s else s.setNav t p.duration) ∧
      (s' = s₁.discard c p .notForUs ∨ (p.ra = c.index ∨ p.ra = macBroadcast) ∧
        (p.kind = .rts ∧ s₁.recvRTS c t e p = some s' ∨
          p.kind = .cts ∧ s₁.recvCTS c t e p = some s' ∨
          p.kind = .ack ∧ s₁.recvACK c t e p = some s' ∨
          p.kind = .data ∧ s₁.recvDATA c t e p = some s' ∨
          p.kind = .noise ∧ s' = s₁.recvNoise t p)) := by
  refine ⟨_, rfl, ?_⟩
  unfold received at h
  dsimp only at h
  split at h
  · exact .inl (Option.some.inj h).symm
  · next hours =>
    refine .inr ⟨by tauto, ?_⟩
    split at h
    · next hk => exact .inl ⟨hk, h⟩
    · next hk => exact .inr (.inl ⟨hk, h⟩)
    · next hk => exact .inr (.inr (.inl ⟨hk, h⟩))
    · next hk => exact .inr (.inr (.inr (.inl ⟨hk, h⟩)))
    · next hk => exact .inr (.inr (.inr (.inr ⟨hk, (Option.some.inj h).symm⟩)))

theorem arrived_cases (h : s.arrived c t e p = some s') :
    s' = s ∨ s' = (s.discard c p .collision).setNav t (usec c.eifs) ∨
      s' = s.setNav t (usec c.eifs) ∨
      s.txActive = false ∧ s.rxState ≠ .coll ∧ p.error = false ∧ s.received c t e p = some s' := by
  unfold arrived at h
  split at h
  · exact .inl (Option.some.inj h).symm
  · next hactive =>
    split at h
    · exact .inr (.inl (Option.some.inj h).symm)
    · next hcoll =>
      split at h
      · exact .inr (.inr (.inl (Option.some.inj h).symm))
      · next herr =>
        exact .inr (.inr (.inr ⟨by simpa using hactive, hcoll, by simpa using herr, h⟩))

theorem recvTimer_cases (h : s.recvTimer c t e = some s') :
    ∃ p s₁, s.pktRx = some p ∧ (s.rxState = .recv ∨ s.rxState = .coll) ∧
      s.arrived c t e p = some s₁ ∧ s' = { s₁ with pktRx := none }.setRxState c t .idle := by
  unfold recvTimer at h
  split at h
  · cases h
  · next p hp =>
    split at h
    · next hrx =>
      obtain ⟨s₁, hs₁, hresume⟩ := Option.bind_eq_some_iff.mp h
      exact ⟨p, s₁, hp, hrx, hs₁, rxResume_cases hresume⟩
    · cases h

/-! ## Frames that begin -/

theorem collision_cases (h : s.collision c t p = some s') :
    ∃ s₁, (s₁ = s ∨ s₁ = s.setRxState c t .coll) ∧
      (s' = s₁.discard c p .collision ∨ ∃ q,
        { ({ s₁ with mhRecv := none }.discard c q .collision) with pktRx := some p }.startRecv t
          p.txtime = some s') := by
  unfold collision at h
  split at h
  · dsimp only at h
    refine ⟨if s.rxState = .recv then s.setRxState c t .coll else s, ?_, ?_⟩
    · split
      · exact .inr rfl
      · exact .inl rfl
    · split at h
      · split at h
        · exact .inr ⟨_, h⟩
        · exact .inl (Option.some.inj h).symm
      · cases h
  · cases h

theorem recvFrame_cases (h : s.recvFrame c t p = some s') :
    ∃ s₁ q, s₁ = s.note (.heard p) ∧ q = { p with error := p.error || s.txActive } ∧
      (s.rxState = .idle ∧
          { s₁.setRxState c t .recv with pktRx := some q }.startRecv t q.txtime = some s' ∨
        s' = s₁.capture c t q ∨ s₁.collision c t q = some s') := by
  refine ⟨_, _, rfl, rfl, ?_⟩
  unfold recvFrame at h
  dsimp only at h
  split at h
  · next hidle => exact .inl ⟨hidle, h⟩
  · split at h
    · cases h
    · split at h
      · exact .inr (.inl (Option.some.inj h).symm)
      · exact .inr (.inr h)

theorem recv_cases {dir : Direction} (h : s.recv c t e dir p = some s') :
    ∃ m q, q = { p with iface := c.index.toInt } ∧
      (s' = { s with mac := m } ∨
        dir = .down ∧ { s with mac := m }.send c t e.random q = some s' ∨
        dir ≠ .down ∧ { s with mac := m }.recvFrame c t q = some s') := by
  refine ⟨s.mac.recv { direction := dir, fcType := p.kind.fcType, rxPr := p.rxPr }, _, rfl, ?_⟩
  unfold recv at h
  dsimp only at h
  split at h
  · exact .inl (Option.some.inj h).symm
  · split at h
    · next hdir => exact .inr (.inl ⟨hdir, h⟩)
    · next hdir => exact .inr (.inr ⟨hdir, h⟩)

end Station

end AodvUU

import AodvUU.MacSender

/-! # What the transmitter leaves alone

Only the first bit of a frame and its end change what a station is receiving, and only data that
came through is passed up. -/
namespace AodvUU

def MacLog.Outward : MacLog → Prop
  | .up _ | .heard _ => False
  | _ => True

def Frame.lost (p : Frame) : Frame := { p with error := true }

namespace Station

/-- The reception goes on, or is lost to a transmission of our own. -/
structure Outgoing (s s' : Station) : Prop where
  cache : s'.cache = s.cache
  rxState : s'.rxState = s.rxState
  mhRecv : s'.mhRecv = s.mhRecv
  pktRx : s'.pktRx = s.pktRx ∨ s'.pktRx = s.pktRx.map Frame.lost
  log : ∃ os : List MacLog, (∀ o ∈ os, o.Outward) ∧ s'.log = s.log ++ os

variable {c : MacConf} {t : ℚ} {e : MacEnv} {s s' s₁ : Station} {p : Frame} {dst : BitVec 32}

theorem Outgoing.refl : s.Outgoing s := ⟨rfl, rfl, rfl, .inl rfl, [], by simp, by simp⟩

theorem Outgoing.trans (h : s.Outgoing s₁) (h' : s₁.Outgoing s') : s.Outgoing s' := by
  obtain ⟨hc, hx, hr, hp, os, hos, hl⟩ := h
  obtain ⟨hc', hx', hr', hp', os', hos', hl'⟩ := h'
  refine ⟨hc'.trans hc, hx'.trans hx, hr'.trans hr, ?_, os ++ os', fun o ho => ?_, ?_⟩
  · obtain hp' | hp' := hp'
    · rwa [hp']
    · obtain hp | hp := hp
      · rw [hp', hp]
        exact .inr rfl
      · rw [hp', hp, Option.map_map]
        exact .inr rfl
  · exact (List.mem_append.mp ho).elim (hos o) (hos' o)
  · rw [hl', hl, List.append_assoc]

theorem Outgoing.of_eq (hc : s'.cache = s.cache) (hx : s'.rxState = s.rxState)
    (hr : s'.mhRecv = s.mhRecv) (hp : s'.pktRx = s.pktRx) (hl : s'.log = s.log) : s.Outgoing s' :=
  ⟨hc, hx, hr, .inl hp, [], by simp, by rw [hl, List.append_nil]⟩

theorem Outgoing.note {o : MacLog} (ho : o.Outward) : s.Outgoing (s.note o) :=
  ⟨rfl, rfl, rfl, .inl rfl, [o], by simpa using ho, rfl⟩

theorem discard_eq (why : MacDrop) : ∃ os : List MacLog, (∀ o ∈ os, o.Outward) ∧
    s.discard c p why = { s with log := s.log ++ os } := by
  have hstay : ∃ os : List MacLog, (∀ o ∈ os, o.Outward) ∧ s = { s with log := s.log ++ os } :=
    ⟨[], by simp, by rw [List.append_nil]⟩
  have hdrop : ∃ os : List MacLog, (∀ o ∈ os, o.Outward) ∧
      s.note (.drop p why) = { s with log := s.log ++ os } :=
    ⟨[.drop p why], by simp [MacLog.Outward], rfl⟩
  unfold discard
  split
  · exact hstay
  · split
    · exact hstay
    all_goals
      split
      · exact hdrop
      · exact hstay

theorem checkBackoffTimer_outgoing : s.Outgoing (s.checkBackoffTimer c t) := by
  obtain ⟨b, hb⟩ := checkBackoffTimer_eq (c := c) (t := t) (s := s)
  rw [hb]
  exact .of_eq rfl rfl rfl rfl rfl

theorem setTxState_outgoing (x : MacState) : s.Outgoing (s.setTxState c t x) :=
  (show s.Outgoing { s with txState := x } from .of_eq rfl rfl rfl rfl rfl).trans
    checkBackoffTimer_outgoing

theorem setNav_outgoing (us : BitVec 16) : s.Outgoing (s.setNav t us) := by
  unfold setNav
  split
  · exact .of_eq rfl rfl rfl rfl rfl
  · exact .refl

theorem startDefer_outgoing {x : ℚ} (h : s.startDefer t x = some s') : s.Outgoing s' := by
  obtain ⟨-, rfl⟩ := startDefer_cases h
  exact .of_eq rfl rfl rfl rfl rfl

theorem startBackoff_outgoing {x : ℚ} (h : s.startBackoff t x = some s') : s.Outgoing s' := by
  obtain ⟨-, rfl⟩ := startBackoff_cases h
  exact .of_eq rfl rfl rfl rfl rfl

theorem widen_outgoing {x : ℚ} (h : (s.incCw c).startBackoff t x = some s') : s.Outgoing s' :=
  (show s.Outgoing (s.incCw c) from .of_eq rfl rfl rfl rfl rfl).trans (startBackoff_outgoing h)

theorem discard_outgoing (why : MacDrop) : s.Outgoing (s.discard c p why) := by
  obtain ⟨os, hos, heq⟩ := discard_eq (c := c) (p := p) (s := s) why
  rw [heq]
  exact ⟨rfl, rfl, rfl, .inl rfl, os, hos, rfl⟩

theorem transmit_outgoing {x : ℚ} (h : s.transmit t p x = some s') : s.Outgoing s' := by
  obtain ⟨-, rfl⟩ := transmit_eq h
  refine ⟨rfl, rfl, rfl, ?_, [.air p], by simp [MacLog.Outward], rfl⟩
  by_cases hx : s.rxState = .idle
  · exact .inl (if_pos hx)
  · exact .inr (if_neg hx)

theorem sendRTS_outgoing (h : s.sendRTS c dst = some s') : s.Outgoing s' := by
  obtain ⟨p, -, -, ⟨-, rfl⟩ | ⟨-, rfl⟩⟩ := sendRTS_cases h
  · exact .refl
  · exact .of_eq rfl rfl rfl rfl rfl

theorem contend_outgoing {k : ℕ} (h : s.contend c t k = some s') : s.Outgoing s' := by
  obtain ⟨-, hback⟩ | ⟨-, x, hdefer⟩ := contend_cases h
  · exact startBackoff_outgoing hback
  · exact startDefer_outgoing hdefer

theorem await_outgoing {k : ℕ} (h : s.await c t k = some s') : s.Outgoing s' := by
  obtain rfl | hcontend | ⟨-, hback⟩ := await_cases h
  · exact .refl
  · exact contend_outgoing hcontend
  · exact startBackoff_outgoing hback

theorem send_outgoing {k : ℕ} (h : s.send c t k p = some s') : s.Outgoing s' := by
  obtain ⟨-, -, hawait⟩ := send_cases h
  refine .trans ?_ (await_outgoing hawait)
  exact ⟨rfl, rfl, rfl, .inl rfl, [.accept (s.sender.numbered c p)], by simp [MacLog.Outward], rfl⟩

theorem resumeNext_outgoing (h : s.resumeNext c t e = some s') : s.Outgoing s' := by
  obtain rfl | hdefer | hcontend | ⟨-, -, hnext⟩ := resumeNext_cases h
  · exact .refl
  · exact startDefer_outgoing hdefer
  · exact contend_outgoing hcontend
  · have hready : s.Outgoing ({ s with callback := false }.note .ready) :=
      ⟨rfl, rfl, rfl, .inl rfl, [.ready], by simp [MacLog.Outward], rfl⟩
    obtain rfl | ⟨p, hsend⟩ := hnext
    · exact hready
    · exact hready.trans (send_outgoing hsend)

theorem txResume_outgoing (h : s.txResume c t e = some s') : s.Outgoing s' := by
  obtain ⟨s₁, hs₁, rfl⟩ := txResume_cases h
  exact (resumeNext_outgoing hs₁).trans (setTxState_outgoing _)

/-! ## Retransmission -/

theorem giveUp_outgoing {reason : XmitReason} : s.Outgoing (s.giveUp c p reason) := by
  have hfreed : ∀ s₁ : Station, s₁.Outgoing (note (.freed p) { s₁ with pktTx := none }) := fun s₁ =>
    ⟨rfl, rfl, rfl, .inl rfl, [.freed p], by simp [MacLog.Outward], rfl⟩
  unfold giveUp
  split
  · exact (Outgoing.note (by trivial)).trans ((discard_outgoing _).trans (hfreed _))
  · exact (discard_outgoing _).trans (hfreed _)

theorem setRcount_outgoing {k : ℕ} : s.Outgoing (s.setRcount c p k) := by
  unfold setRcount
  split <;> exact .of_eq rfl rfl rfl rfl rfl

theorem retransmitRTS_outgoing (h : s.retransmitRTS c t = some s') : s.Outgoing s' := by
  obtain ⟨p, r, -, -, ⟨-, rfl⟩ | ⟨-, hback⟩⟩ := retransmitRTS_cases h
  · have hcut : s.Outgoing { s.discard c r .retryCountExceeded with pktRTS := none } :=
      (discard_outgoing _).trans (.of_eq rfl rfl rfl rfl rfl)
    exact hcut.trans (giveUp_outgoing.trans (.of_eq rfl rfl rfl rfl rfl))
  · have hagain : s.Outgoing { s with ssrc := s.ssrc + 1, pktRTS := some { r with retry := true } } :=
      .of_eq rfl rfl rfl rfl rfl
    exact hagain.trans (widen_outgoing hback)

theorem retransmitDATA_outgoing (h : s.retransmitDATA c t = some s') : s.Outgoing s' := by
  obtain ⟨p, -, -, ⟨-, hback⟩ | ⟨-, -, rfl⟩ | ⟨-, -, s₁, hs₁, hback⟩⟩ := retransmitDATA_cases h
  · have hfreed : s.Outgoing ((note (.freed p) { s with pktTx := none }).rstCw c) :=
      ⟨rfl, rfl, rfl, .inl rfl, [.freed p], by simp [MacLog.Outward], rfl⟩
    exact hfreed.trans (startBackoff_outgoing hback)
  · exact giveUp_outgoing.trans (setRcount_outgoing.trans (.of_eq rfl rfl rfl rfl rfl))
  · have hcount : s.Outgoing { s.setRcount c p (s.rcount c p + 1) with
        pktTx := some { p with retry := true } } :=
      setRcount_outgoing.trans (.of_eq rfl rfl rfl rfl rfl)
    exact hcount.trans ((sendRTS_outgoing hs₁).trans (widen_outgoing hback))

/-! ## Frames received -/

theorem recvRTS_outgoing (h : s.recvRTS c t e p = some s') : s.Outgoing s' := by
  obtain rfl | ⟨-, hresume⟩ := recvRTS_cases h
  · exact discard_outgoing _
  · have hreply : s.Outgoing
        { s with pktCTRL := some (c.ctsFrame p.ta p.duration), mhDefer := none } :=
      .of_eq rfl rfl rfl rfl rfl
    exact hreply.trans (txResume_outgoing hresume)

theorem recvCTS_outgoing (h : s.recvCTS c t e p = some s') : s.Outgoing s' := by
  obtain rfl | ⟨-, -, hresume⟩ := recvCTS_cases h
  · exact discard_outgoing _
  · have hclear : s.Outgoing { s with mhSend := none, pktRTS := none, ssrc := 0 } :=
      .of_eq rfl rfl rfl rfl rfl
    exact hclear.trans (txResume_outgoing hresume)

theorem recvACK_outgoing (h : s.recvACK c t e p = some s') : s.Outgoing s' := by
  obtain rfl | ⟨-, q, s₁, -, hback, hresume⟩ := recvACK_cases h
  · exact discard_outgoing _
  · have hstop : s.Outgoing { s with mhSend := none } := .of_eq rfl rfl rfl rfl rfl
    have hcount : s.Outgoing (setRcount c q 0 { s with mhSend := none }) :=
      hstop.trans setRcount_outgoing
    have hfreed : s.Outgoing ((note (.freed q) { setRcount c q 0 { s with mhSend := none } with
        pktTx := none }).rstCw c) :=
      hcount.trans ⟨rfl, rfl, rfl, .inl rfl, [.freed q], by simp [MacLog.Outward], rfl⟩
    exact hfreed.trans ((startBackoff_outgoing hback).trans (txResume_outgoing hresume))

theorem ackAfterCts_outgoing (h : s.ackAfterCts c t e dst = some s') : s.Outgoing s' := by
  have hack : s.Outgoing { s with mhSend := none, pktCTRL := some (c.ackFrame dst) } :=
    .of_eq rfl rfl rfl rfl rfl
  exact hack.trans (txResume_outgoing (ackAfterCts_cases h))

theorem ackShort_outgoing (h : s.ackShort c t e dst = some s') : s.Outgoing s' := by
  have hack : s.Outgoing { s with pktCTRL := some (c.ackFrame dst) } :=
    .of_eq rfl rfl rfl rfl rfl
  obtain rfl | ⟨-, hresume⟩ := ackShort_cases h
  · exact hack
  · exact hack.trans (txResume_outgoing hresume)

/-! ## Timer handlers -/

theorem checkPktCTRL_outgoing {b : Bool} (h : s.checkPktCTRL c t = some (b, s')) :
    s.Outgoing s' := by
  obtain ⟨-, rfl⟩ | ⟨-, ⟨why, q, -, -, -, rfl⟩ | ⟨q, x, y, -, -, -, hout⟩⟩ := checkPktCTRL_cases h
  · exact .refl
  · exact (discard_outgoing why).trans (.of_eq rfl rfl rfl rfl rfl)
  · exact (setTxState_outgoing _).trans (transmit_outgoing hout)

theorem checkPktRTS_outgoing {b : Bool} (h : s.checkPktRTS c t = some (b, s')) : s.Outgoing s' := by
  obtain ⟨-, -, rfl⟩ | ⟨r, -, -, -, ⟨-, hout⟩ | ⟨-, hback⟩⟩ := checkPktRTS_cases h
  · exact .refl
  · exact (setTxState_outgoing _).trans (transmit_outgoing hout)
  · exact widen_outgoing hback

theorem checkPktTx_outgoing {b : Bool} (h : s.checkPktTx c t = some (b, s')) : s.Outgoing s' := by
  obtain rfl | ⟨p, -, -, ⟨-, hout⟩ | ⟨-, s₁, hs₁, hback⟩⟩ := checkPktTx_cases h
  · exact .refl
  · exact (setTxState_outgoing _).trans (transmit_outgoing hout)
  · exact (sendRTS_outgoing hs₁).trans (widen_outgoing hback)

theorem checkBoth_outgoing (h : s.checkBoth c t = some s') : s.Outgoing s' := by
  obtain hrts | ⟨-, b, hdata⟩ := checkBoth_cases h
  · exact checkPktRTS_outgoing hrts
  · exact checkPktTx_outgoing hdata

theorem sendTimer_outgoing (h : s.sendTimer c t e = some s') : s.Outgoing s' := by
  obtain ⟨s₁, hs₁, hresume⟩ := Option.bind_eq_some_iff.mp h
  refine .trans ?_ (txResume_outgoing hresume)
  obtain ⟨-, hretry⟩ | ⟨-, rfl⟩ | ⟨-, hretry⟩ | ⟨-, rfl⟩ := sendEnded_cases hs₁
  · exact retransmitRTS_outgoing hretry
  · exact .of_eq rfl rfl rfl rfl rfl
  · exact retransmitDATA_outgoing hretry
  · exact .refl

theorem deferHandler_outgoing (h : s.deferHandler c t = some s') : s.Outgoing s' := by
  obtain hctrl | ⟨-, hboth⟩ := deferHandler_cases h
  · exact checkPktCTRL_outgoing hctrl
  · exact checkBoth_outgoing hboth

theorem backoffHandler_outgoing (h : s.backoffHandler c t = some s') : s.Outgoing s' := by
  obtain rfl | hboth := backoffHandler_cases h
  · exact .refl
  · exact checkBoth_outgoing hboth

theorem navHandler_outgoing : s.Outgoing (s.navHandler c t) := by
  obtain hn | hn := navHandler_cases (c := c) (t := t) (s := s) <;>
  · rw [hn]
    exact .of_eq rfl rfl rfl rfl rfl

end Station

end AodvUU

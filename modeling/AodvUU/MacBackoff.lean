import AodvUU.MacMedium

/-! # Contention for the medium

A backoff counts only while the medium is idle, and starts over with a whole DIFS whenever it was
busy. The frames that a station contends for are put on the air by it alone. -/
namespace AodvUU

variable {c : MacConf} {t : ℚ} {e : MacEnv} {s s' s₁ : Station} {p q : Frame}

namespace Station

/-! ## Backoffs that run -/

/-- A backoff that runs afterwards was running before, or begins with a DIFS. -/
def Resumes (c : MacConf) (t : ℚ) (s s' : Station) : Prop :=
  ∀ b, s'.mhBackoff = some b → b.paused = false → s.mhBackoff = some b ∨ b.ready = t + c.difs

theorem Resumes.of_eq (h : s'.mhBackoff = s.mhBackoff) : s.Resumes c t s' :=
  fun _ hb _ => .inl (h ▸ hb)

theorem Resumes.of_core (h : s'.core = s.core) : s.Resumes c t s' :=
  .of_eq (congrArg (·.mhBackoff) h)

theorem Resumes.refl : s.Resumes c t s := .of_eq rfl

theorem Resumes.trans (h : s.Resumes c t s₁) (h' : s₁.Resumes c t s') : s.Resumes c t s' := by
  intro b hb hrun
  obtain hb₁ | hready := h' b hb hrun
  · exact h b hb₁ hrun
  · exact .inr hready

theorem Resumes.head (h : s₁.Resumes c t s') (hb : s₁.mhBackoff = s.mhBackoff) :
    s.Resumes c t s' :=
  (Resumes.of_eq hb).trans h

theorem Resumes.tail (h : s.Resumes c t s₁) (hb : s'.mhBackoff = s₁.mhBackoff) :
    s.Resumes c t s' :=
  h.trans (.of_eq hb)

theorem checkBackoffTimer_resumes : s.Resumes c t (s.checkBackoffTimer c t) := by
  intro b hb hrun
  unfold checkBackoffTimer at hb
  split at hb
  · exact .inl hb
  · next b' hb' =>
    split at hb
    · split at hb
      · obtain rfl := Option.some.inj hb
        exact .inr rfl
      · exact .inl hb
    · split at hb
      · exact .inl hb
      · obtain rfl := Option.some.inj hb
        cases hrun

theorem setRxState_resumes (x : MacState) : s.Resumes c t (s.setRxState c t x) :=
  checkBackoffTimer_resumes.head rfl

theorem setTxState_resumes (x : MacState) : s.Resumes c t (s.setTxState c t x) :=
  checkBackoffTimer_resumes.head rfl

theorem setNav_resumes (us : BitVec 16) : s.Resumes c t (s.setNav t us) := by
  refine .of_eq ?_
  unfold setNav
  split <;> rfl

theorem startDefer_resumes {x : ℚ} (h : s.startDefer t x = some s') : s.Resumes c t s' := by
  obtain ⟨-, rfl⟩ := startDefer_cases h
  exact .of_eq rfl

theorem startBackoff_resumes {x : ℚ} (h : s.startBackoff t x = some s')
    (hx : s.isIdle t = true → x = c.difs) : s.Resumes c t s' := by
  intro b hb hrun
  obtain ⟨-, rfl⟩ := startBackoff_cases h
  obtain rfl := Option.some.inj hb
  have hidle : s.isIdle t = true := by simpa using hrun
  rw [hx hidle]
  exact .inr rfl

theorem startBackoff_paused {x : ℚ} (h : s.startBackoff t x = some s') (hbusy : s.txState ≠ .idle) :
    s.Resumes c t s' :=
  startBackoff_resumes h fun hidle => absurd (isIdle_iff.mp hidle).2.1 hbusy

theorem contend_resumes (hc : c.Ok) {k : ℕ} (h : s.contend c t k = some s') :
    s.Resumes c t s' := by
  obtain ⟨-, hback⟩ | ⟨hno, -⟩ := contend_cases h
  · exact startBackoff_resumes hback fun _ => rfl
  · rw [hc.bugFix] at hno
    cases hno

theorem await_resumes (hc : c.Ok) {k : ℕ} (h : s.await c t k = some s') : s.Resumes c t s' := by
  obtain rfl | hcontend | ⟨hbusy, hback⟩ := await_cases h
  · exact .refl
  · exact contend_resumes hc hcontend
  · exact startBackoff_resumes hback fun hidle => by simp [hbusy] at hidle

theorem send_resumes (hc : c.Ok) {k : ℕ} (h : s.send c t k p = some s') : s.Resumes c t s' := by
  obtain ⟨-, -, hawait⟩ := send_cases h
  exact (await_resumes hc hawait).head rfl

/-! ## Frames that begin -/

theorem collision_resumes (h : s.collision c t p = some s') : s.Resumes c t s' := by
  obtain ⟨s₁, hs₁, hend⟩ := collision_cases h
  have hrx : s.Resumes c t s₁ := by
    obtain rfl | rfl := hs₁
    · exact .refl
    · exact setRxState_resumes _
  obtain rfl | ⟨q, hstart⟩ := hend
  · exact hrx.trans (.of_core (discard_core _))
  · obtain ⟨-, rfl⟩ := startRecv_cases hstart
    have hdis := discard_core (c := c) (p := q) (s := { s₁ with mhRecv := none }) .collision
    exact hrx.trans (.of_eq (congrArg (·.mhBackoff) hdis))

theorem recvFrame_resumes (h : s.recvFrame c t p = some s') : s.Resumes c t s' := by
  have hheard : s.Resumes c t (s.note (.heard p)) := .of_eq rfl
  obtain ⟨s₁, q, rfl, -, ⟨-, hstart⟩ | rfl | hcoll⟩ := recvFrame_cases h
  · obtain ⟨-, rfl⟩ := startRecv_cases hstart
    exact hheard.trans ((setRxState_resumes _).tail rfl)
  · exact hheard.trans (setNav_resumes _)
  · exact hheard.trans (collision_resumes hcoll)

theorem recv_resumes (hc : c.Ok) {dir : Direction} (h : s.recv c t e dir p = some s') :
    s.Resumes c t s' := by
  obtain ⟨mac, q, -, rfl | ⟨-, hsend⟩ | ⟨-, hbegin⟩⟩ := recv_cases h
  · exact .of_eq rfl
  · exact (send_resumes hc hsend).head rfl
  · exact (recvFrame_resumes hbegin).head rfl

/-! ## Resuming -/

theorem resumeNext_resumes (hc : c.Ok) (h : s.resumeNext c t e = some s') : s.Resumes c t s' := by
  obtain rfl | hdefer | hcontend | ⟨-, -, rfl | ⟨p, hsend⟩⟩ := resumeNext_cases h
  · exact .refl
  · exact startDefer_resumes hdefer
  · exact contend_resumes hc hcontend
  · exact .of_eq rfl
  · exact (send_resumes hc hsend).head rfl

theorem txResume_resumes (hc : c.Ok) (h : s.txResume c t e = some s') : s.Resumes c t s' := by
  obtain ⟨s₁, hs₁, rfl⟩ := txResume_cases h
  exact (resumeNext_resumes hc hs₁).trans (setTxState_resumes _)

/-! ## Retransmission -/

theorem giveUp_resumes {reason : XmitReason} : s.Resumes c t (s.giveUp c p reason) := by
  refine .of_eq ?_
  have hgive : (s.giveUp c p reason).core = core { s with pktTx := none } := giveUp_core
  exact congrArg (·.mhBackoff) hgive

theorem retransmitRTS_resumes (h : s.retransmitRTS c t = some s') (hbusy : s.txState ≠ .idle) :
    s.Resumes c t s' := by
  obtain ⟨p, r, -, -, ⟨-, rfl⟩ | ⟨-, hback⟩⟩ := retransmitRTS_cases h
  · have hcut : s.Resumes c t { s.discard c r .retryCountExceeded with pktRTS := none } :=
      .tail (.of_core (discard_core _)) rfl
    exact hcut.trans (giveUp_resumes.tail rfl)
  · exact (startBackoff_paused hback hbusy).head rfl

theorem retransmitDATA_resumes (h : s.retransmitDATA c t = some s') (hbusy : s.txState ≠ .idle) :
    s.Resumes c t s' := by
  obtain ⟨p, -, -, ⟨-, hback⟩ | ⟨-, -, rfl⟩ | ⟨-, -, s₁, hs₁, hback⟩⟩ := retransmitDATA_cases h
  · exact (startBackoff_paused hback hbusy).head rfl
  · exact giveUp_resumes.trans (.tail (.of_core setRcount_core) rfl)
  · have hset := setRcount_core (c := c) (p := p) (s := s) (k := s.rcount c p + 1)
    have htx : (s.setRcount c p (s.rcount c p + 1)).txState = s.txState :=
      congrArg (·.txState) hset
    obtain ⟨q, -, -, ⟨-, rfl⟩ | ⟨-, rfl⟩⟩ := sendRTS_cases hs₁
    all_goals
      have hpaused := startBackoff_paused (c := c) hback fun hidle =>
        hbusy (htx.symm.trans hidle)
      exact .trans (.of_core hset) (hpaused.head rfl)

/-! ## Frames received -/

theorem recvRTS_resumes (hc : c.Ok) (h : s.recvRTS c t e p = some s') : s.Resumes c t s' := by
  obtain rfl | ⟨-, hresume⟩ := recvRTS_cases h
  · exact .of_core (discard_core _)
  · exact (txResume_resumes hc hresume).head rfl

theorem recvCTS_resumes (hc : c.Ok) (h : s.recvCTS c t e p = some s') : s.Resumes c t s' := by
  obtain rfl | ⟨-, -, hresume⟩ := recvCTS_cases h
  · exact .of_core (discard_core _)
  · exact (txResume_resumes hc hresume).head rfl

theorem recvACK_resumes (hc : c.Ok) (h : s.recvACK c t e p = some s') : s.Resumes c t s' := by
  obtain rfl | ⟨hsend, q, s₁, -, hback, hresume⟩ := recvACK_cases h
  · exact .of_core (discard_core _)
  · have hset := setRcount_core (c := c) (p := q) (s := { s with mhSend := none }) (k := 0)
    have htx : (setRcount c q 0 { s with mhSend := none }).txState = s.txState :=
      congrArg (·.txState) hset
    have hcount : s.Resumes c t (setRcount c q 0 { s with mhSend := none }) :=
      .of_eq (congrArg (·.mhBackoff) hset)
    have hpaused := startBackoff_paused (c := c) hback fun hidle => by
      rw [htx.symm.trans hidle] at hsend
      cases hsend
    exact hcount.trans ((hpaused.head rfl).trans (txResume_resumes hc hresume))

theorem ackAfterCts_resumes (hc : c.Ok) {dst : BitVec 32}
    (h : s.ackAfterCts c t e dst = some s') : s.Resumes c t s' :=
  (txResume_resumes hc (ackAfterCts_cases h)).head rfl

theorem ackShort_resumes (hc : c.Ok) {dst : BitVec 32} (h : s.ackShort c t e dst = some s') :
    s.Resumes c t s' := by
  obtain rfl | ⟨-, hresume⟩ := ackShort_cases h
  · exact .of_eq rfl
  · exact (txResume_resumes hc hresume).head rfl

theorem recvDATA_resumes (hc : c.Ok) (h : s.recvDATA c t e p = some s') : s.Resumes c t s' := by
  obtain ⟨q, -, rfl | rfl | ⟨s₁, rfl, ⟨-, hack⟩ | hack⟩⟩ := recvDATA_cases h
  · exact .of_core deliver_core
  · exact .of_core (discard_core _)
  · exact (ackAfterCts_resumes hc hack).trans (.of_core deliver_core)
  · exact (ackShort_resumes hc hack).trans (.of_core deliver_core)

theorem received_resumes (hc : c.Ok) (h : s.received c t e p = some s') : s.Resumes c t s' := by
  obtain ⟨s₁, hs₁, hend⟩ := received_cases h
  have hnav : s.Resumes c t s₁ := by
    rw [hs₁]
    split
    · exact .refl
    · exact setNav_resumes _
  refine hnav.trans ?_
  obtain rfl | ⟨-, ⟨-, hrts⟩ | ⟨-, hcts⟩ | ⟨-, hack⟩ | ⟨-, hdata⟩ | ⟨-, rfl⟩⟩ := hend
  · exact .of_core (discard_core _)
  · exact recvRTS_resumes hc hrts
  · exact recvCTS_resumes hc hcts
  · exact recvACK_resumes hc hack
  · exact recvDATA_resumes hc hdata
  · exact .of_eq rfl

theorem arrived_resumes (hc : c.Ok) (h : s.arrived c t e p = some s') : s.Resumes c t s' := by
  obtain rfl | rfl | rfl | ⟨-, -, -, hthrough⟩ := arrived_cases h
  · exact .refl
  · exact .trans (.of_core (discard_core _)) (setNav_resumes _)
  · exact setNav_resumes _
  · exact received_resumes hc hthrough

/-! ## Timers -/

theorem recvTimer_resumes (hc : c.Ok) (h : s.recvTimer c t e = some s') : s.Resumes c t s' := by
  obtain ⟨p, s₁, -, -, hs₁, rfl⟩ := recvTimer_cases h
  exact (arrived_resumes hc hs₁).trans ((setRxState_resumes _).head rfl)

theorem sendTimer_resumes (hc : c.Ok) (h : s.sendTimer c t e = some s') : s.Resumes c t s' := by
  obtain ⟨s₁, hs₁, hresume⟩ := Option.bind_eq_some_iff.mp h
  refine .trans ?_ (txResume_resumes hc hresume)
  obtain ⟨hrts, hretry⟩ | ⟨-, rfl⟩ | ⟨hsend, hretry⟩ | ⟨-, rfl⟩ := sendEnded_cases hs₁
  · exact retransmitRTS_resumes hretry (by simp [hrts])
  · exact .of_eq rfl
  · exact retransmitDATA_resumes hretry (by simp [hsend])
  · exact .refl

theorem transmit_resumes {x : ℚ} (h : s.transmit t p x = some s') : s.Resumes c t s' := by
  obtain ⟨-, rfl⟩ := transmit_eq h
  exact .of_eq rfl

theorem checkPktRTS_resumes {b : Bool} (h : s.checkPktRTS c t = some (b, s')) :
    s.Resumes c t s' := by
  obtain ⟨-, -, rfl⟩ | ⟨r, -, -, -, ⟨-, hout⟩ | ⟨hbusy, hback⟩⟩ := checkPktRTS_cases h
  · exact .refl
  · exact (setTxState_resumes _).trans (transmit_resumes hout)
  · have hno : ¬ s.isIdle t = true := by simpa using hbusy
    exact (startBackoff_resumes hback fun hidle => absurd hidle hno).head rfl

theorem checkPktTx_resumes {b : Bool} (h : s.checkPktTx c t = some (b, s')) :
    s.Resumes c t s' := by
  obtain rfl | ⟨p, -, -, ⟨-, hout⟩ | ⟨hbusy, s₁, hs₁, hback⟩⟩ := checkPktTx_cases h
  · exact .refl
  · exact (setTxState_resumes _).trans (transmit_resumes hout)
  · have hno : ¬ s.isIdle t = true := by simpa using hbusy
    obtain ⟨q, -, -, ⟨-, rfl⟩ | ⟨-, rfl⟩⟩ := sendRTS_cases hs₁
    all_goals exact (startBackoff_resumes hback fun hidle => absurd hidle hno).head rfl

theorem checkBoth_resumes (h : s.checkBoth c t = some s') : s.Resumes c t s' := by
  obtain hrts | ⟨-, b, hdata⟩ := checkBoth_cases h
  · exact checkPktRTS_resumes hrts
  · exact checkPktTx_resumes hdata

theorem backoffHandler_resumes (h : s.backoffHandler c t = some s') : s.Resumes c t s' := by
  obtain rfl | hboth := backoffHandler_cases h
  · exact .refl
  · exact checkBoth_resumes hboth

theorem deferHandler_resumes (h : s.deferHandler c t = some s') : s.Resumes c t s' := by
  obtain hctrl | ⟨-, hboth⟩ := deferHandler_cases h
  · obtain ⟨-, rfl⟩ | ⟨-, ⟨why, q, -, -, -, rfl⟩ | ⟨q, x, y, -, -, -, hout⟩⟩ :=
      checkPktCTRL_cases hctrl
    · exact .refl
    · exact .tail (.of_core (discard_core (p := q) why)) rfl
    · exact (setTxState_resumes _).trans (transmit_resumes hout)
  · exact checkBoth_resumes hboth

theorem navHandler_resumes : s.Resumes c t (s.navHandler c t) := by
  obtain hn | hn := navHandler_cases (c := c) (t := t) (s := s)
  · rw [hn]
    exact .refl
  · rw [hn]
    intro b hb _
    obtain rfl := Option.some.inj hb
    exact .inr rfl

theorem step_resumes (hc : c.Ok) {ev : MacEvent} (h : s.step c t e ev = some s') :
    s.Resumes c t s' := by
  cases ev with
  | send p | recv p => exact recv_resumes hc h
  | recvTimer => exact (recvTimer_resumes hc h).head rfl
  | sendTimer => exact (sendTimer_resumes hc h).head rfl
  | deferTimer => exact (deferHandler_resumes h).head rfl
  | backoffTimer =>
    intro b hb hrun
    obtain hnone | hready := backoffHandler_resumes h b hb hrun
    · cases hnone
    · exact .inr hready
  | navTimer =>
    obtain rfl := Option.some.inj h
    exact navHandler_resumes.head rfl
  | txTimer | noiseTimer | validTimer =>
    obtain rfl := Option.some.inj h
    exact .of_eq rfl

/-! ## Frames that are contended for -/

end Station

def MacConf.Contends (c : MacConf) (q : Frame) : Prop := q.kind = .rts ∨ q.kind = .data ∧ c.Short q

instance (c : MacConf) (q : Frame) : Decidable (c.Contends q) := inferInstanceAs (Decidable (_ ∨ _))

namespace Station

theorem checkPktTx_sends {b : Bool} (h : s.checkPktTx c t = some (b, s'))
    (hq : q ∈ newAir s s') : s.pktTx = some q := by
  have hcalm (hs : s.Calm s') : s.pktTx = some q := by
    rw [hs.newAir] at hq
    cases hq
  obtain rfl | ⟨p, hp, -, ⟨-, hout⟩ | ⟨-, s₁, hs₁, hback⟩⟩ := checkPktTx_cases h
  · exact hcalm .refl
  · rw [newAir_of_log (transmit_airs hout).1] at hq
    obtain rfl := List.mem_singleton.mp hq
    exact hp
  · obtain ⟨-, rfl⟩ := startBackoff_cases hback
    obtain ⟨q', -, -, ⟨-, rfl⟩ | ⟨-, rfl⟩⟩ := sendRTS_cases hs₁
    all_goals exact hcalm (.of_eq rfl rfl)

theorem checkBoth_sends (h : s.checkBoth c t = some s') (hr : s.pktRTS = none)
    (hq : q ∈ newAir s s') : s.pktTx = some q := by
  obtain hrts | ⟨-, b, hdata⟩ := checkBoth_cases h
  · obtain ⟨-, hno, -⟩ | ⟨p, hp, -⟩ := checkPktRTS_cases hrts
    · cases hno
    · rw [hr] at hp
      cases hp
  · exact checkPktTx_sends hdata hq

theorem checkPktCTRL_some {b : Bool} (h : s.checkPktCTRL c t = some (b, s'))
    (hq : s.pktCTRL = some q) (htx : s.txState = .idle) : b = true := by
  unfold checkPktCTRL at h
  rw [hq] at h
  dsimp only at h
  rw [if_neg (by simp [htx])] at h
  split at h
  · split at h
    · obtain ⟨s₁, -, heq⟩ := Option.map_eq_some_iff.mp h
      cases heq
      rfl
    · cases h
      rfl
  · obtain ⟨s₁, -, heq⟩ := Option.map_eq_some_iff.mp h
    cases heq
    rfl
  · cases h

theorem deferHandler_contends (h : s.deferHandler c t = some s') (htx : s.txState = .idle)
    (hclear : s.pktCTRL = none → s.Cleared c) (hdata : ∀ p, s.pktTx = some p → p.kind = .data)
    (hq : q ∈ newAir s s') : ¬ c.Contends q := by
  obtain hctrl | ⟨hctrl, hboth⟩ := deferHandler_cases h
  · obtain ⟨hno, -⟩ | ⟨-, ⟨why, p, -, -, -, rfl⟩ | ⟨p, x, y, -, hkind, -, hout⟩⟩ :=
      checkPktCTRL_cases hctrl
    · cases hno
    · have hcalm : s.Calm { s.discard c p why with pktCTRL := none } :=
        (discard_calm why).trans (.of_eq rfl rfl)
      rw [hcalm.newAir] at hq
      cases hq
    · rw [newAir_of_log (transmit_airs hout).1] at hq
      obtain rfl := List.mem_singleton.mp hq
      rintro (hk | ⟨hk, -⟩) <;>
      · rw [hk] at hkind
        simp at hkind
  · have hnone : s.pktCTRL = none := by
      by_contra hsome
      obtain ⟨r, hr⟩ := Option.ne_none_iff_exists'.mp hsome
      have := checkPktCTRL_some hctrl hr htx
      cases this
    obtain ⟨hr, p, hp, hlong⟩ := hclear hnone
    obtain rfl := Option.some.inj (hp.symm.trans (checkBoth_sends hboth hr hq))
    rintro (hkind | ⟨-, hshort⟩)
    · rw [hdata p hp] at hkind
      cases hkind
    · exact hlong hshort

theorem Sound.defer_contends {w : Prop} (hs : s.Sound c t w) (hdue : s.Due t .deferTimer)
    (h : s.step c t e .deferTimer = some s') (hq : q ∈ newAir s s') : ¬ c.Contends q := by
  have hdefer : s.mhDefer = some t := hdue
  have hdata := fun p hp => (hs.built.packet p hp).1
  cases hs.phase with
  | clear d htx _ _ _ _ hclear =>
    exact deferHandler_contends (s := { s with mhDefer := none }) h htx (fun _ => hclear) hdata hq
  | reply d q' htx hctrl =>
    refine deferHandler_contends (s := { s with mhDefer := none }) h htx (fun hno => ?_) hdata hq
    rw [show s.pktCTRL = none from hno] at hctrl
    cases hctrl
  | rest _ _ _ hno | rts x _ _ _ hno | cts x _ _ _ _ _ hno | ack x _ _ _ _ _ hno
  | send x _ _ _ _ hno =>
    rw [hdefer] at hno
    cases hno

theorem step_contends {ev : MacEvent} (h : s.step c t e ev = some s') (ha : s.Armed)
    (hq : q ∈ newAir s s') (hcon : c.Contends q) : ev = .backoffTimer ∨ ev = .deferTimer := by
  have hcalm (hs : s.Calm s') : ev = .backoffTimer ∨ ev = .deferTimer := by
    rw [hs.newAir] at hq
    cases hq
  cases ev with
  | send p | recv p => exact hcalm (recv_silent (g := fun _ => True) h).toCalm
  | recvTimer =>
    have hsilent := recvTimer_silent (s := { s with mhRecv := none }) h (ha.of_eq rfl rfl)
    exact hcalm (Silent.untimed (s := s) hsilent rfl rfl rfl rfl rfl).toCalm
  | sendTimer =>
    have hsilent := sendTimer_silent (s := { s with mhSend := none }) (g := fun _ => True) h
    exact hcalm (Silent.untimed (s := s) hsilent rfl rfl rfl rfl rfl).toCalm
  | deferTimer => exact .inr rfl
  | backoffTimer => exact .inl rfl
  | navTimer =>
    obtain rfl := Option.some.inj h
    have hsilent := navHandler_silent (c := c) (t := t) (s := { s with mhNav := none })
      (g := fun _ => True)
    exact hcalm (Silent.untimed (s := s) hsilent rfl rfl rfl rfl rfl).toCalm
  | txTimer | validTimer =>
    obtain rfl := Option.some.inj h
    exact hcalm (.of_eq rfl rfl)
  | noiseTimer =>
    obtain rfl := Option.some.inj h
    rw [newAir_of_log rfl] at hq
    obtain rfl := List.mem_singleton.mp hq
    rcases hcon with hk | ⟨hk, -⟩ <;> cases hk

end Station

/-! ## A DIFS before contention -/

variable {ok : ℚ → Station → MacEvent → Prop} {ev : MacEvent} {y z : ℚ × Station}

theorem MacReachable.counts (h : MacReachable c ok t s) (hc : c.Ok)
    (hok : ∀ t s ev, ok t s ev → c.Legal ev) {b : Backoff} (hb : s.mhBackoff = some b)
    (hrun : b.paused = false) : s.isIdle t = true := by
  obtain hjam | hsound := reachable_sound (w := False) hc hok nofun h
  · rw [hjam.mhBackoff] at hb
    cases hb
  · exact Station.isIdle_iff.mpr (hsound.back.counts b hb hrun)

theorem MacStep.contends (hs : MacStep c ok ev y z) (hy : MacReachable c ok y.1 y.2) (hc : c.Ok)
    (hok : ∀ t s ev, ok t s ev → c.Legal ev) (hq : q ∈ newAir y.2 z.2) (hcon : c.Contends q) :
    ev = .backoffTimer := by
  obtain ⟨e, he⟩ := hs.step
  obtain rfl | rfl := Station.step_contends he hy.armed hq hcon
  · rfl
  · obtain hjam | hsound := reachable_sound (w := False) hc hok nofun hy
    · have hdue : y.2.mhDefer = some z.1 := hs.due
      rw [hjam.mhDefer] at hdue
      cases hdue
    · exact absurd hcon ((hsound.later hs.le).defer_contends hs.due he hq)

namespace MacRun

variable {r : MacRun c ok} {n : ℕ}

/-- At every event from one on to another the station finds the medium idle. -/
def IdleFrom (r : MacRun c ok) (m n : ℕ) : Prop :=
  ∀ i, m ≤ i → i ≤ n → (r.state i).2.isIdle (r.state i).1 = true

/-- A backoff that runs has been running since a DIFS before it is ready. -/
def Waited (r : MacRun c ok) (n : ℕ) : Prop :=
  ∀ b, (r.state n).2.mhBackoff = some b → b.paused = false →
    ∃ m ≤ n, b.ready = (r.state m).1 + c.difs ∧ r.IdleFrom m n

theorem Waited.next (h : r.Waited n) (hn : n < r.length) (hc : c.Ok)
    (hok : ∀ t s ev, ok t s ev → c.Legal ev) : r.Waited (n + 1) := by
  intro b hb hrun
  obtain ⟨e, he⟩ := (r.step n hn).step
  have hidle := (r.reachable hn).counts hc hok hb hrun
  obtain hbefore | hready := Station.step_resumes hc he b hb hrun
  · obtain ⟨m, hm, hu, hsince⟩ := h b hbefore hrun
    refine ⟨m, by omega, hu, fun i hi hin => ?_⟩
    by_cases hlast : i = n + 1
    · rw [hlast]
      exact hidle
    · exact hsince i hi (by omega)
  · refine ⟨n + 1, le_rfl, hready, fun i hi hin => ?_⟩
    obtain rfl : i = n + 1 := by omega
    exact hidle

theorem waited (r : MacRun c ok) (hn : n ≤ r.length) (hc : c.Ok)
    (hok : ∀ t s ev, ok t s ev → c.Legal ev) : r.Waited n := by
  induction n with
  | zero =>
    obtain ⟨w, _, k, hstart⟩ := r.start
    intro b hb
    rw [hstart] at hb
    cases hb
  | succ n ih => exact (ih (by omega)).next (by omega) hc hok

end MacRun

/-- An RTS, or a packet that is sent without one, goes on the air only as a backoff ends, on a
medium that the station has found idle for a DIFS or longer. -/
theorem difs_before_contention (hc : c.Ok) (hok : ∀ t s ev, ok t s ev → c.Legal ev)
    (r : MacRun c ok) {n : ℕ} (hn : n < r.length)
    (hq : q ∈ newAir (r.state n).2 (r.state (n + 1)).2) (hcon : c.Contends q) :
    r.event n = .backoffTimer ∧ (r.state n).2.isIdle (r.state (n + 1)).1 = true ∧
      ∃ m ≤ n, (r.state m).1 + c.difs ≤ (r.state (n + 1)).1 ∧ r.IdleFrom m n := by
  have hs := r.step n hn
  have hy := r.reachable hn.le
  have hev := hs.contends hy hc hok hq hcon
  rw [hev] at hs
  obtain ⟨b, hb, hrun, hready⟩ := hs.due
  obtain ⟨m, hm, hu, hsince⟩ := r.waited hn.le hc hok b hb hrun
  obtain ⟨hrx, htx, hnav⟩ := Station.isIdle_iff.mp (hy.counts hc hok hb hrun)
  exact ⟨hev, Station.isIdle_iff.mpr ⟨hrx, htx, hnav.trans hs.le⟩, m, hm, hu ▸ hready, hsince⟩

/-- A packet is handed down while an ACK to 3 is on the air. -/
def waitingRun : List (ℚ × MacEvent) :=
  [(0, .recv { kind := .ack, size := 38, txtime := 304 / 10 ^ 6, rxPr := 1, ra := 3 }),
    (100 / 10 ^ 6, .send { kind := .data, uid := 7, size := 100, ra := 2, ta := 1 }),
    (304 / 10 ^ 6, .recvTimer), (304 / 10 ^ 6, .navTimer)]

def countingDown : ℚ × Station :=
  ((Station.init (sampleMac 1) 0 0 0).run (sampleMac 1) (fun _ _ ev => (sampleMac 1).Legal ev) 0
    waitingRun).get (by decide +kernel)

def sentShort : ℚ × Station :=
  (countingDown.2.run (sampleMac 1) (fun _ _ ev => (sampleMac 1).Legal ev) countingDown.1
    [(354 / 10 ^ 6, .backoffTimer)]).get (by decide +kernel)

theorem sentShort_waited : sentShort.1 = 354 / 10 ^ 6 ∧
    ∃ r : MacRun (sampleMac 1) (fun _ _ ev => (sampleMac 1).Legal ev), ∃ n < r.length,
      r.state n = countingDown ∧ r.state (n + 1) = sentShort ∧
      ∃ q ∈ newAir countingDown.2 sentShort.2, q.uid = 7 ∧ r.event n = .backoffTimer ∧
        ∃ m ≤ n, (r.state m).1 + (sampleMac 1).difs ≤ sentShort.1 ∧ r.IdleFrom m n := by
  have hreach : MacReachable (sampleMac 1) (fun _ _ ev => (sampleMac 1).Legal ev) countingDown.1
      countingDown.2 := (MacReachable.init 0 0 0).run (Option.some_get _).symm
  have hstep : MacStep (sampleMac 1) (fun _ _ ev => (sampleMac 1).Legal ev) .backoffTimer
      countingDown sentShort := .run (Option.some_get _).symm
  obtain ⟨q, hq, huid, hcon⟩ : ∃ q ∈ newAir countingDown.2 sentShort.2, q.uid = 7 ∧
      (sampleMac 1).Contends q := by
    decide +kernel
  obtain ⟨r, n, hn, hx, hy⟩ := hstep.exists_run hreach
  obtain ⟨hev, -, m, hm, hdifs, hidle⟩ := difs_before_contention sampleMac_ok (fun _ _ _ h => h) r
    hn (by rw [hx, hy]; exact hq) hcon
  exact ⟨by decide +kernel, r, n, hn, hx, hy, q, hq, huid, hev, m, hm, hy ▸ hdifs, hidle⟩

end AodvUU

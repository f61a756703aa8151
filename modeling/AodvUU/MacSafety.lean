import AodvUU.MacHearing

/-! # No assertion fails

A station asserts that no timer is started twice, that a frame is there when it is to be sent or
taken in, and that the backoff is over when a packet goes out. In ad hoc mode and with the timer
fix no order of events breaks these assertions. A packet that waits is w, except in one case. -/
namespace AodvUU

namespace Station

variable {c : MacConf} {t t' : ℚ} {e : MacEnv} {w : Prop} {s s' : Station} {p q : Frame}
  {b : Option Backoff}

/-! ## The end of a transmission -/

theorem Phase.sending {x : ℚ} (h : s.Phase c t w) (hs : s.mhSend = some x) :
    s.txState ≠ .idle ∧ s.mhDefer = none := by
  cases h with
  | rest _ _ hno | clear d _ _ hno | reply d q _ _ hno =>
    rw [hno] at hs
    cases hs
  | rts x htx _ _ hdefer | cts x q htx _ _ _ hdefer | ack x q htx _ _ _ hdefer
  | send x p htx _ _ hdefer => exact ⟨by simp [htx], hdefer⟩

theorem Sound.ended (h : s.Sound c t w) (hs : s.mhSend = some t) {r x : Option Frame}
    {q : Option Frame} (hq : q = s.pktCTRL ∨ q = none)
    (hrequest : ∀ r', r = some r' → r'.kind = .rts ∧ r'.txtime = c.txtime c.rtsLen c.basicRate ∧
      ∃ p, x = some p ∧ ¬ c.Short p)
    (hpacket : ∀ p, x = some p → p.kind = .data ∧ s.callback = true)
    (hasked : ∀ q', q = some q' → x = none → s.pktTx ≠ none → q'.kind = .ack)
    (hcleared : Cleared c { s with pktRTS := r, pktTx := x } → s.mhBackoff = none ∧ q = none ∧
      s.Clean (t + c.sifs)) :
    Resumable c t { s with mhSend := none, pktCTRL := q, pktRTS := r, pktTx := x } := by
  obtain ⟨htx, hdefer⟩ := h.phase.sending hs
  refine ⟨rfl, hdefer, .inr htx,
    { h.built with reply := fun q' hq' => ?_, request := hrequest, packet := hpacket },
    fun q' hq' hcall hx => ?_, h.nav.of_eq rfl rfl,
    fun y hy => ⟨h.air.active y hy, h.air.send y t hy hs⟩, h.back.paused_of_busy (.inr htx),
    fun hcl => ?_⟩
  · obtain rfl | rfl := hq
    · exact h.built.reply q' hq'
    · cases hq'
  · by_cases hnone : s.pktTx = none
    · obtain ⟨q₁, hq₁, hack⟩ := h.asked hcall hnone
      obtain rfl | rfl := hq
      · rwa [show q' = q₁ from Option.some.inj (hq'.symm.trans hq₁)]
      · cases hq'
    · exact hasked q' hq' hx hnone
  · obtain ⟨hback, hnone, hclean⟩ := hcleared hcl
    refine ⟨hback, fun q' hq' => ?_, fun _ => hclean⟩
    rw [show q = some q' from hq'] at hnone
    cases hnone

theorem giveUp_core {reason : XmitReason} :
    (s.giveUp c p reason).core = core { s with pktTx := none } := by
  unfold giveUp
  split
  · obtain ⟨os, -, hdis⟩ := discard_eq (c := c)
      (p := { p with size := p.size - c.hdrLen11 })
      (s := s.note (.failure { p with size := p.size - c.hdrLen11 } reason)) .retryCountExceeded
    dsimp only
    rw [hdis]
    rfl
  · obtain ⟨os, -, hdis⟩ := discard_eq (c := c) (p := p) (s := s) .retryCountExceeded
    rw [hdis]
    rfl

theorem not_cleared_of_rts {r : Frame} (h : s.pktRTS = some r) : ¬ s.Cleared c := by
  rintro ⟨hno, -⟩
  rw [hno] at h
  cases h

theorem not_cleared_of_empty (h : s.pktTx = none) : ¬ s.Cleared c := by
  rintro ⟨-, p, hp, -⟩
  rw [h] at hp
  cases hp

theorem Sound.retransmitRTS (h : s.Sound c t w) (hs : s.mhSend = some t)
    (hback : s.mhBackoff = none) (hrts : s.pktRTS.isSome)
    (hctrl : ∀ q, s.pktCTRL = some q → q.kind = .ack) :
    ∃ s', Station.retransmitRTS c t { s with mhSend := none } = some s' ∧ s'.Resumable c t := by
  obtain ⟨r, hr⟩ := Option.isSome_iff_exists.mp hrts
  obtain ⟨hkind, htime, p, hp, hlong⟩ := h.built.request r hr
  unfold Station.retransmitRTS
  split
  case h_2 hno => exact absurd hback (hno p r hp hr)
  next p' r' hp' hr' _ =>
    obtain rfl := Option.some.inj (hp.symm.trans hp')
    obtain rfl := Option.some.inj (hr.symm.trans hr')
    split
    · have hdrop := h.ended hs (r := none) (x := none) (q := s.pktCTRL) (.inl rfl)
        (fun _ hr => (nomatch hr)) (fun _ hp => (nomatch hp)) (fun q hq _ _ => hctrl q hq)
        fun hcl => absurd hcl (not_cleared_of_empty rfl)
      refine ⟨_, rfl, hdrop.of_core ?_⟩
      obtain ⟨os, -, hdis⟩ :=
        discard_eq (c := c) (p := r) (s := { s with mhSend := none }) .retryCountExceeded
      dsimp only
      rw [hdis]
      exact giveUp_core (s := { s with mhSend := none, pktRTS := none, log := s.log ++ os })
    · have hkeep := h.ended hs (r := some { r with retry := true }) (x := s.pktTx) (q := s.pktCTRL)
        (.inl rfl) (by rintro r' ⟨⟩; exact ⟨hkind, htime, p, hp, hlong⟩) h.built.packet
        (fun q hq _ _ => hctrl q hq) fun hcl => absurd hcl (not_cleared_of_rts rfl)
      exact hkeep.startBackoff (by rfl) hback (not_cleared_of_rts rfl)

theorem setRcount_eq {k : ℕ} : ∃ i j, s.setRcount c p k = { s with ssrc := i, slrc := j } := by
  unfold setRcount
  split <;> exact ⟨_, _, rfl⟩

theorem Sound.retransmitDATA (h : s.Sound c t w) (hs : s.mhSend = some t)
    (hback : s.mhBackoff = none) (hrts : s.pktRTS = none) (hp : s.pktTx = some p)
    (hctrl : ∀ q, s.pktCTRL = some q → q.kind = .ack) :
    ∃ s', Station.retransmitDATA c t { s with mhSend := none } = some s' ∧ s'.Resumable c t := by
  have hdrop := h.ended hs (r := s.pktRTS) (x := none) (q := s.pktCTRL) (.inl rfl)
    (fun r hr => by rw [hrts] at hr; cases hr) (fun _ hp => (nomatch hp))
    (fun q hq _ _ => hctrl q hq) fun hcl => absurd hcl (not_cleared_of_empty rfl)
  unfold Station.retransmitDATA
  split
  case h_2 hno => exact absurd hrts (hno p hback hp)
  next p' _ hp' _ =>
    obtain rfl := Option.some.inj (hp.symm.trans hp')
    split
    · exact hdrop.startBackoff (by rfl) hback (not_cleared_of_empty rfl)
    · split
      · refine ⟨_, rfl, hdrop.of_core ?_⟩
        have hset := setRcount_core (c := c) (p := p) (k := 0)
          (s := giveUp c p .ack { s with mhSend := none })
        exact hset.trans giveUp_core
      · have hnot {r : Option Frame} (hr : r = if c.Short p then none else
            some (c.rtsFrame p.ra { p with retry := true })) :
            ¬ Cleared c { s with pktRTS := r, pktTx := some { p with retry := true } } := by
          rintro ⟨hno, q, hq, hlong⟩
          obtain rfl := Option.some.inj hq
          rw [show r = none from hno, if_neg (show ¬ c.Short p from hlong)] at hr
          cases hr
        have hkeep := h.ended hs (q := s.pktCTRL) (x := some { p with retry := true })
          (r := if c.Short p then none else some (c.rtsFrame p.ra { p with retry := true }))
          (.inl rfl) ?_ ?_ (fun _ _ hno => (nomatch hno)) fun hcl => absurd hcl (hnot rfl)
        · obtain ⟨i, j, hset⟩ := setRcount_eq (c := c) (p := p)
            (k := rcount c p { s with mhSend := none } + 1) (s := { s with mhSend := none })
          have hsent := sendRTS_eq (c := c) (p := { p with retry := true }) (s := { s with
            mhSend := none, ssrc := i, slrc := j, pktTx := some { p with retry := true } }) rfl hrts
          rw [hset]
          simp only [Option.bind_eq_bind]
          rw [show p.ra = ({ p with retry := true } : Frame).ra from rfl, hsent, Option.bind_some]
          exact hkeep.startBackoff (by rfl) hback (hnot rfl)
        · intro r hr
          split at hr
          · cases hr
          · next hlong =>
            obtain rfl := Option.some.inj hr
            exact ⟨rfl, rfl, _, rfl, hlong⟩
        · rintro q ⟨⟩
          exact h.built.packet p hp

theorem sendEnded_eq {x : MacState} (h : s.txState = x) : s.sendEnded c t =
    match x with
    | .rts => s.retransmitRTS c t
    | .cts | .ack => if s.pktCTRL.isSome then some { s with pktCTRL := none } else none
    | .send => s.retransmitDATA c t
    | .idle => some s
    | .recv | .coll => none := by
  cases x <;> simp only [sendEnded, h]

theorem Sound.sendTimer (hc : c.Ok) (h : s.Sound c t w) (hs : s.mhSend = some t) :
    ∃ s', Station.sendTimer c t e { s with mhSend := none } = some s' ∧ s'.TxOk c t w := by
  suffices hend : ∃ s', Station.sendEnded c t { s with mhSend := none } = some s' ∧
      s'.Resumable c t by
    obtain ⟨s₁, hs₁, hresume⟩ := hend
    unfold Station.sendTimer
    rw [hs₁]
    exact hresume.txResume hc
  have hover (hclear : s.Cleared c → s.mhBackoff = none ∧ s.Clean (t + c.sifs)) :
      Resumable c t { s with mhSend := none, pktCTRL := none } :=
    h.ended hs (r := s.pktRTS) (x := s.pktTx) (.inr rfl) h.built.request h.built.packet
      (fun _ hq => (nomatch hq)) fun hcl => ⟨(hclear hcl).1, rfl, (hclear hcl).2⟩
  cases h.phase with
  | rts x htx hctrl hsend hdefer hback hrts =>
    rw [sendEnded_eq (s := { s with mhSend := none }) htx]
    exact h.retransmitRTS hs hback hrts hctrl
  | cts x q htx hctrl hkind hsend hdefer hclear =>
    rw [sendEnded_eq (s := { s with mhSend := none }) htx]
    dsimp only
    rw [if_pos (by rw [hctrl]; rfl)]
    exact ⟨_, rfl, hover fun hcl => absurd hcl hclear⟩
  | ack x q htx hctrl hkind hsend hdefer hclear hclean hair =>
    rw [sendEnded_eq (s := { s with mhSend := none }) htx]
    dsimp only
    rw [if_pos (by rw [hctrl]; rfl)]
    obtain rfl : x = t := Option.some.inj (hsend.symm.trans hs)
    exact ⟨_, rfl, hover fun hcl => ⟨hclear hcl, hclean⟩⟩
  | send x p htx hctrl hsend hdefer hback hrts hp =>
    rw [sendEnded_eq (s := { s with mhSend := none }) htx]
    exact h.retransmitDATA hs hback hrts hp hctrl
  | rest htx _ hno | clear d htx _ hno | reply d q htx _ hno =>
    rw [hs] at hno
    cases hno

theorem RxOk.outgoing (h : s.RxOk c) (hout : s.Outgoing s') : s'.RxOk c := by
  obtain ⟨-, hx, hr, hp, -⟩ := hout
  refine ⟨?_, ?_, ?_⟩
  · intro hidle
    rw [hx] at hidle
    obtain ⟨hnone, hstop⟩ := h.idle hidle
    refine ⟨?_, hr.trans hstop⟩
    obtain hp | hp := hp <;> simp [hp, hnone]
  · intro hbusy
    rw [hx] at hbusy ⊢
    obtain ⟨hstate, hsome, hrun⟩ := h.busy hbusy
    refine ⟨hstate, ?_, by rwa [hr]⟩
    obtain hp | hp := hp <;> simpa [hp] using hsome
  · intro p hq
    obtain hp | hp := hp
    · exact h.heard p (hp ▸ hq)
    · rw [hp] at hq
      obtain ⟨q, hq', rfl⟩ := Option.map_eq_some_iff.mp hq
      exact h.heard q hq'

/-! ## A transmission begins -/

/-- A frame is on the air, with a timer for what comes after it. -/
structure OnAir (t : ℚ) (p : Frame) (x : ℚ) (y : MacState) (s s' : Station) : Prop where
  txState : s'.txState = y
  pktCTRL : s'.pktCTRL = s.pktCTRL
  pktRTS : s'.pktRTS = s.pktRTS
  pktTx : s'.pktTx = s.pktTx
  mhBackoff : s'.mhBackoff = none ↔ s.mhBackoff = none
  mhSend : s'.mhSend = some (t + x)
  mhDefer : s'.mhDefer = none
  air : s'.mhIF = some (t + p.txtime) ∧ s'.txActive = true
  clean : ∀ z, s'.Clean z

theorem checkBackoffTimer_busy (h : s.isIdle t = false) : ∃ b : Option Backoff,
    s.checkBackoffTimer c t = { s with mhBackoff := b } ∧ (b = none ↔ s.mhBackoff = none) ∧
      ∀ b', b = some b' → b'.paused = true := by
  unfold checkBackoffTimer
  split
  · next hnone =>
    refine ⟨none, by rw [← hnone], by simp [hnone], ?_⟩
    rintro b' ⟨⟩
  · next b hb =>
    rw [if_neg (by simp [h])]
    split
    · next hp =>
      refine ⟨some b, by rw [← hb], by simp [hb], ?_⟩
      rintro b' ⟨⟩
      exact hp
    · refine ⟨_, rfl, by simp [hb], ?_⟩
      rintro b' ⟨⟩
      rfl

/-- Nothing of our own is on the air, and no timer runs for it. -/
structure Quiet (c : MacConf) (t : ℚ) (s : Station) : Prop where
  rx : s.RxOk c
  built : s.Built c
  asked : s.callback = true → s.pktTx = none → ∃ q, s.pktCTRL = some q ∧ q.kind = .ack
  nav : s.NavOk t
  send : s.mhSend = none
  defer : s.mhDefer = none
  air : s.mhIF = none

theorem Quiet.transmit (h : s.Quiet c t) {x : ℚ} {y : MacState} (hy : y ≠ .idle)
    (hx : p.txtime ≤ x) (hphase : ∀ s', s.OnAir t p x y s' → s'.Phase c t w) :
    ∃ s', (s.setTxState c t y).transmit t p x = some s' ∧ s'.TxOk c t w := by
  obtain ⟨hrx, hbuilt, hasked, hnav, hsend, hdefer, hair⟩ := h
  have hbusy : ({ s with txState := y } : Station).isIdle t = false :=
    isIdle_of_busy (.inr hy)
  obtain ⟨b, hb, hnone, hpaused⟩ := checkBackoffTimer_busy (c := c) hbusy
  have hfull : ¬ (s.rxState ≠ .idle ∧ s.pktRx.isNone = true ∨ s.mhSend.isSome = true ∨
      s.mhIF.isSome = true) := by
    rw [hsend, hair]
    rintro (⟨hno, hempty⟩ | h | h)
    · obtain ⟨q, hq⟩ := Option.isSome_iff_exists.mp (hrx.busy hno).2.1
      simp [hq] at hempty
    · cases h
    · cases h
  unfold setTxState Station.transmit
  rw [hb, if_neg (by exact hfull)]
  refine ⟨_, rfl, hphase _ ⟨rfl, rfl, rfl, rfl, hnone, rfl, hdefer, ⟨rfl, rfl⟩, ?_⟩,
    hbuilt.of_eq rfl rfl rfl rfl rfl rfl, hasked, hnav.of_eq rfl rfl,
    ⟨fun _ _ => rfl, fun hidle => absurd hidle hy, ?_, ?_⟩,
    ⟨fun _ _ _ => .inr (.inl hy), ?_, after_of_paused hpaused⟩⟩
  · -- What was being received is lost.
    intro z hrecv q r hq hgood
    dsimp only [note] at hrecv hq
    rw [if_neg (by simp [hrecv])] at hq
    obtain ⟨q', -, rfl⟩ := Option.map_eq_some_iff.mp hq
    cases hgood
  · rintro z w ⟨⟩ ⟨⟩
    linarith
  · intro z d _ hd
    rw [show s.mhDefer = some d from hd] at hdefer
    cases hdefer
  · intro b' hb' hrun
    rw [hpaused b' hb'] at hrun
    cases hrun

/-- The lost wake-up: a CTS is given up because the medium is busy, and the packet that was handed
down while it waited has no backoff. -/
def Strands (t : ℚ) (s : Station) (ev : MacEvent) : Prop :=
  ev = .deferTimer ∧ (∃ q, s.pktCTRL = some q ∧ q.kind = .cts) ∧ s.isIdle t = false ∧
    s.pktTx.isSome ∧ s.mhBackoff = none

theorem Sound.quiet (h : s.Sound c t w) (htime : s.InTime t) (hd : s.mhDefer = some t)
    (hsend : s.mhSend = none) : Quiet c t { s with mhDefer := none } := by
  refine ⟨h.toRxOk.of_eq rfl rfl rfl, h.built.of_eq rfl rfl rfl rfl rfl rfl,
    h.asked, h.nav.of_eq rfl rfl, hsend, rfl, ?_⟩
  rw [Option.eq_none_iff_forall_ne_some]
  exact fun x hx => not_le.mpr (h.air.defer x t hx hd) (htime.mhIF x hx)

theorem Sound.replyTimer (h : s.Sound c t w) (htime : s.InTime t)
    (hdefer : s.mhDefer = some t) (htx : s.txState = .idle) (hctrl : s.pktCTRL = some q)
    (hsend : s.mhSend = none) (hclear : s.Cleared c → q.kind = .ack ∧ s.mhBackoff = none)
    (hstrand : w → ¬ s.Strands t .deferTimer) :
    ∃ s', Station.checkPktCTRL c t { s with mhDefer := none } = some (true, s') ∧
      s'.TxOk c t w := by
  have hquiet := h.quiet htime hdefer hsend
  unfold checkPktCTRL
  split
  · next hno =>
    rw [show s.pktCTRL = none from hno] at hctrl
    cases hctrl
  next q' hq' =>
    obtain rfl := Option.some.inj (hctrl.symm.trans hq')
    rw [if_neg (by simp [htx])]
    obtain ⟨hkind, hlen⟩ | ⟨hkind, hlen⟩ := h.built.reply q hctrl
    · rw [hkind]
      obtain ⟨s', hs', hok⟩ := hquiet.transmit (p := q) (w := w) (y := .ack)
        (x := c.txtime c.ackLen c.basicRate) (by simp) hlen.le fun s' ho =>
          .ack _ q ho.txState (ho.pktCTRL.trans hctrl) hkind ho.mhSend ho.mhDefer
            (fun hcl => ho.mhBackoff.mpr (hclear ⟨ho.pktRTS ▸ hcl.1, ho.pktTx ▸ hcl.2⟩).2)
            (ho.clean _) (.inl ⟨hlen ▸ ho.air.1, ho.air.2⟩)
      dsimp only
      rw [hs']
      exact ⟨_, rfl, hok⟩
    · have hnot : ¬ s.Cleared c := fun hcl => by
        rw [(hclear hcl).1] at hkind
        cases hkind
      rw [hkind]
      dsimp only
      split
      · obtain ⟨s', hs', hok⟩ := hquiet.transmit (p := q) (w := w) (y := .cts)
          (x := c.ctsTimeout q) (by simp) hlen fun s' ho =>
            .cts _ q ho.txState (ho.pktCTRL.trans hctrl) hkind ho.mhSend ho.mhDefer fun hcl =>
              hnot ⟨ho.pktRTS ▸ hcl.1, ho.pktTx ▸ hcl.2⟩
        rw [hs']
        exact ⟨_, rfl, hok⟩
      · next hbusy =>
        have hdrop : TxOk c t w { s with mhDefer := none, pktCTRL := none } := by
          refine ⟨.rest htx rfl hsend rfl hnot ?_,
            { h.built with reply := fun q hq => (nomatch hq) }, ?_, h.nav.of_eq rfl rfl,
            { h.air with defer := fun x d _ hd => (nomatch hd) },
            { h.back with after := fun b hb hp =>
              ⟨fun d hd => (nomatch hd), (h.back.after b hb hp).2⟩ }⟩
          · exact fun hw hp hnone =>
              hstrand hw ⟨rfl, ⟨q, hctrl, hkind⟩, Bool.eq_false_iff.mpr hbusy, hp, hnone⟩
          · intro hcall hempty
            obtain ⟨q', hq', hack⟩ := h.asked hcall hempty
            obtain rfl := Option.some.inj (hctrl.symm.trans hq')
            rw [hkind] at hack
            cases hack
        obtain ⟨os, -, hdis⟩ := discard_eq (c := c) (p := q) (s := { s with mhDefer := none }) .busy
        exact ⟨_, rfl, hdrop.of_core (by rw [hdis]; rfl)⟩

theorem checkPktRTS_none (hback : s.mhBackoff = none) (hrts : s.pktRTS = none) :
    s.checkPktRTS c t = some (false, s) := by
  unfold checkPktRTS
  rw [if_neg (by simp [hback])]
  split
  · rfl
  · next r hr =>
    rw [hrts] at hr
    cases hr

theorem Quiet.sendsData (hc : c.Ok) (h : s.Quiet c t) (hidle : s.isIdle t = true)
    (hback : s.mhBackoff = none) (hctrl : s.pktCTRL = none) (hrts : s.pktRTS = none)
    (hp : s.pktTx = some p) : ∃ s', s.checkPktTx c t = some (true, s') ∧ s'.TxOk c t w := by
  have hnone : ∀ s', s.OnAir t p (c.dataTimeout p) .send s' → ∀ q, s'.pktCTRL = some q →
      q.kind = .ack := by
    intro s' ho q hq
    rw [ho.pktCTRL, hctrl] at hq
    cases hq
  obtain ⟨s', hs', hok⟩ := h.transmit (p := p) (w := w) (y := .send) (by simp)
    (hc.txtime_le_dataTimeout p) fun s' ho =>
      .send _ p ho.txState (hnone s' ho) ho.mhSend ho.mhDefer (ho.mhBackoff.mpr hback)
        (ho.pktRTS.trans hrts) (ho.pktTx.trans hp)
  unfold checkPktTx
  rw [if_neg (by simp [hback])]
  split
  · next hno =>
    rw [hp] at hno
    cases hno
  · next q hq =>
    obtain rfl := Option.some.inj (hp.symm.trans hq)
    rw [if_neg (by simp [(h.built.packet p hp).1]), if_pos hidle, hs']
    exact ⟨s', rfl, hok⟩

theorem Sound.packetTimer (hc : c.Ok) (h : s.Sound c t w) (htime : s.InTime t)
    (hdefer : s.mhDefer = some t) (htx : s.txState = .idle) (hctrl : s.pktCTRL = none)
    (hsend : s.mhSend = none) (hclear : s.Cleared c) (hback : s.mhBackoff = none) :
    ∃ s', Station.checkBoth c t { s with mhDefer := none } = some s' ∧ s'.TxOk c t w := by
  obtain ⟨hrts, p, hp, hlong⟩ := hclear
  have hquiet := h.quiet htime hdefer hsend
  unfold checkBoth
  rw [checkPktRTS_none (s := { s with mhDefer := none }) hback hrts, Option.bind_some]
  dsimp only
  rw [if_neg (by simp)]
  by_cases hidle : s.isIdle t = true
  · obtain ⟨s', hs', hok⟩ := hquiet.sendsData (w := w) hc hidle hback hctrl hrts hp
    rw [hs']
    exact ⟨s', rfl, hok⟩
  · have hsent := sendRTS_eq (c := c) (p := p) (s := { s with mhDefer := none }) hp hrts
    rw [if_neg hlong] at hsent
    have hbusy := Bool.eq_false_iff.mpr hidle
    unfold checkPktTx
    rw [if_neg (by simp [hback])]
    split
    · next hno =>
      rw [show s.pktTx = none from hno] at hp
      cases hp
    · next q hq =>
      obtain rfl := Option.some.inj (hp.symm.trans hq)
      rw [if_neg (by simp [(h.built.packet p hp).1]), if_neg (by exact hidle), hsent,
        Option.bind_some]
      rw [startBackoff_busy (by exact hback) (by exact hbusy)]
      have hpaused : ∀ b, some ({ paused := true, ready := t + 0 } : Backoff) = some b →
          b.paused = true := by
        rintro b ⟨⟩
        rfl
      have hwait : TxOk c t w { s with
          mhDefer := none, pktRTS := some (c.rtsFrame p.ra p),
          mhBackoff := some { paused := true, ready := t + 0 } } := by
        refine ⟨.rest htx hctrl hsend rfl (not_cleared_of_rts rfl) fun _ _ => by simp,
          { h.built with request := ?_ }, h.asked, h.nav.of_eq rfl rfl,
          { h.air with defer := fun _ _ _ hd => (nomatch hd) },
          ⟨fun _ _ _ => h.nav.busy hbusy, ?_, after_of_paused hpaused⟩⟩
        · rintro r ⟨⟩
          exact ⟨rfl, rfl, p, hp, hlong⟩
        · intro b hb hrun
          rw [hpaused b hb] at hrun
          cases hrun
      exact ⟨_, rfl, hwait.of_core rfl⟩

theorem Sound.deferTimer (hc : c.Ok) (h : s.Sound c t w) (htime : s.InTime t)
    (hdefer : s.mhDefer = some t) (hstrand : w → ¬ s.Strands t .deferTimer) :
    ∃ s', Station.deferHandler c t { s with mhDefer := none } = some s' ∧ s'.TxOk c t w := by
  unfold deferHandler
  cases h.phase with
  | reply d q htx hctrl hsend _ _ hclear =>
    obtain ⟨s', hs', hok⟩ := h.replyTimer htime hdefer htx hctrl hsend hclear hstrand
    rw [if_neg (by simp [hctrl]), hs']
    exact ⟨s', rfl, hok⟩
  | clear d htx hctrl hsend _ _ hclear hback =>
    obtain ⟨s', hs', hok⟩ := h.packetTimer hc htime hdefer htx hctrl hsend hclear hback
    obtain ⟨-, p, hp, -⟩ := hclear
    have hnothing : Station.checkPktCTRL c t { s with mhDefer := none } =
        some (false, { s with mhDefer := none }) := by
      unfold checkPktCTRL
      split
      · rfl
      · next q hq =>
        rw [show s.pktCTRL = some q from hq] at hctrl
        cases hctrl
    rw [if_neg (by simp [hp]), hnothing, Option.bind_some]
    dsimp only
    rw [if_neg (by simp), if_neg (by simp [hback])]
    exact ⟨s', hs', hok⟩
  | rest _ _ _ hno | rts x _ _ _ hno | cts x q _ _ _ _ hno | ack x q _ _ _ _ hno
  | send x p _ _ _ hno =>
    rw [hdefer] at hno
    cases hno

theorem Sound.backoffTimer (hc : c.Ok) (h : s.Sound c t w) (htime : s.InTime t) {b : Backoff}
    (hb : s.mhBackoff = some b) (hrun : b.paused = false) (hready : b.ready ≤ t) :
    ∃ s', Station.backoffHandler c t { s with mhBackoff := none } = some s' ∧
      s'.TxOk c t w := by
  obtain ⟨hrx, htx, hnav⟩ := h.back.counts b hb hrun
  obtain ⟨hdef, hair⟩ := h.back.after b hb hrun
  have hidle : s.isIdle t = true := isIdle_iff.mpr ⟨hrx, htx, hnav⟩
  have hdefer : s.mhDefer = none := by
    rw [Option.eq_none_iff_forall_ne_some]
    exact fun d hd => not_le.mpr (hdef d hd) (hready.trans (htime.mhDefer d hd))
  have hIF : s.mhIF = none := by
    rw [Option.eq_none_iff_forall_ne_some]
    exact fun x hx => not_le.mpr (hair x hx) (hready.trans (htime.mhIF x hx))
  cases h.phase with
  | clear d _ _ _ hno | reply d q _ _ _ hno =>
    rw [hdefer] at hno
    cases hno
  | rts x hno | cts x q hno | ack x q hno | send x p hno =>
    rw [htx] at hno
    cases hno
  | rest _ hctrl hsend _ hclear =>
    have hquiet : Quiet c t { s with mhBackoff := none } :=
      ⟨h.toRxOk.of_eq rfl rfl rfl, h.built.of_eq rfl rfl rfl rfl rfl rfl,
        h.asked, h.nav.of_eq rfl rfl, hsend, hdefer, hIF⟩
    unfold backoffHandler checkBoth
    rw [if_neg (by simp [hctrl])]
    obtain hrts | ⟨r, hrts⟩ := Option.eq_none_or_eq_some s.pktRTS
    · rw [checkPktRTS_none (s := { s with mhBackoff := none }) rfl hrts, Option.bind_some]
      dsimp only
      rw [if_neg (by simp)]
      obtain hp | ⟨p, hp⟩ := Option.eq_none_or_eq_some s.pktTx
      · refine ⟨{ s with mhBackoff := none }, ?_,
          ⟨.rest htx hctrl hsend hdefer hclear fun _ hsome => by simp [hp] at hsome,
          h.built.of_eq rfl rfl rfl rfl rfl rfl, h.asked, h.nav.of_eq rfl rfl,
          h.air.of_eq rfl rfl rfl rfl rfl, backOk_of_none rfl⟩⟩
        unfold checkPktTx
        rw [if_neg (by simp)]
        split
        · rfl
        · next p hno =>
          rw [show s.pktTx = some p from hno] at hp
          cases hp
      · obtain ⟨s', hs', hok⟩ := hquiet.sendsData (w := w) hc hidle rfl hctrl hrts hp
        rw [hs']
        exact ⟨s', rfl, hok⟩
    · obtain ⟨hkind, hlen, -⟩ := h.built.request r hrts
      have hnone : ∀ s', OnAir t r c.rtsTimeout .rts { s with mhBackoff := none } s' →
          ∀ q, s'.pktCTRL = some q → q.kind = .ack := by
        intro s' ho q hq
        rw [ho.pktCTRL, show s.pktCTRL = none from hctrl] at hq
        cases hq
      obtain ⟨s', hs', hok⟩ := hquiet.transmit (p := r) (w := w) (y := .rts)
        (x := c.rtsTimeout) (by simp) (hlen.trans_le hc.txtime_le_rtsTimeout) fun s' ho =>
          .rts _ ho.txState (hnone s' ho) ho.mhSend ho.mhDefer (ho.mhBackoff.mpr rfl)
            (by rw [ho.pktRTS, show s.pktRTS = some r from hrts]; rfl)
      unfold checkPktRTS
      rw [if_neg (by simp)]
      split
      · next hno =>
        rw [show s.pktRTS = none from hno] at hrts
        cases hrts
      · next r' hr' =>
        obtain rfl := Option.some.inj (hrts.symm.trans hr')
        rw [if_neg (by simp [hkind]), if_pos (by exact hidle), hs']
        exact ⟨s', rfl, hok⟩

/-! ## The other events -/

theorem Sound.navTimer (hc : c.Ok) (h : s.Sound c t w) (hn : s.mhNav = some t) :
    (Station.navHandler c t { s with mhNav := none }).Sound c t w := by
  have hless := hc.sifs_lt_difs
  have hsifs := hc.sifs
  have hover : s.nav ≤ t := (h.nav.runs t hn).ge
  have hnav : NavOk t { s with mhNav := none } := ⟨fun _ => hover, fun _ hno => (nomatch hno)⟩
  have hkeep (b : Option Backoff) (hb : b = none ↔ s.mhBackoff = none)
      (hback : BackOk t { s with mhNav := none, mhBackoff := b }) :
      Sound c t w { s with mhNav := none, mhBackoff := b } :=
    ⟨⟨h.phase.alike ⟨rfl, rfl, rfl, rfl, rfl, rfl, rfl, rfl, hb⟩ le_rfl fun _ hx _ => hx,
      h.built.of_eq rfl rfl rfl rfl rfl rfl, h.asked, hnav.of_eq rfl rfl,
      h.air.of_eq rfl rfl rfl rfl rfl, hback⟩, h.toRxOk.of_eq rfl rfl rfl⟩
  unfold navHandler
  split
  · next b hb =>
    split
    · next hidle =>
      have hall := isIdle_iff.mp hidle.1
      refine hkeep _ (by simp [show s.mhBackoff = some b from hb]) ⟨?_, fun _ _ _ => hall, ?_⟩
      · rintro b' ⟨⟩ ⟨⟩
      · rintro b' ⟨⟩ -
        exact ⟨fun d hd => by linarith [h.phase.defer_le d hd],
          fun x hx => by linarith [h.air.idle hall.2.1 x hx]⟩
    · next hno =>
      refine hkeep s.mhBackoff .rfl { h.back with paused := fun b' hb' hp => ?_ }
      obtain rfl : b = b' := Option.some.inj (hb.symm.trans hb')
      exact hnav.busy (Bool.eq_false_iff.mpr fun hidle => hno ⟨hidle, hp⟩)
  · next hb => exact hkeep s.mhBackoff .rfl (backOk_of_none hb)

theorem Sound.txTimer (h : s.Sound c t w) (hx : s.mhIF = some t) :
    (txHandler { s with mhIF := none }).Sound c t w := by
  refine ⟨⟨?_, h.built.of_eq rfl rfl rfl rfl rfl rfl, h.asked,
    h.nav.of_eq rfl rfl, ⟨fun _ hno => (nomatch hno), fun _ _ hno => (nomatch hno),
      fun _ _ hno => (nomatch hno), fun _ _ hno => (nomatch hno)⟩,
    { h.back with after := fun b hb hp =>
      ⟨(h.back.after b hb hp).1, fun _ hno => (nomatch hno)⟩ }⟩,
    h.toRxOk.of_eq rfl rfl rfl⟩
  cases h.phase with
  | rest htx hctrl hsend hdefer hclear hwoken =>
    exact .rest htx hctrl hsend hdefer hclear hwoken
  | clear d htx hctrl hsend hdefer hd hclear hback hclean =>
    exact .clear d htx hctrl hsend hdefer hd hclear hback hclean
  | reply d q htx hctrl hsend hdefer hd hclear =>
    exact .reply d q htx hctrl hsend hdefer hd hclear
  | rts x htx hctrl hsend hdefer hback hrts => exact .rts x htx hctrl hsend hdefer hback hrts
  | cts x q htx hctrl hkind hsend hdefer hclear =>
    exact .cts x q htx hctrl hkind hsend hdefer hclear
  | ack x q htx hctrl hkind hsend hdefer hclear hclean hair =>
    refine .ack x q htx hctrl hkind hsend hdefer hclear hclean (.inr ?_)
    obtain ⟨hx', -⟩ | hover := hair
    · exact (Option.some.inj (hx'.symm.trans hx)).le
    · exact hover
  | send x p htx hctrl hsend hdefer hback hrts hp =>
    exact .send x p htx hctrl hsend hdefer hback hrts hp

theorem Sound.takes (h : s.Sound c t w) (htx : s.pktTx = none) (hrts : s.pktRTS = none)
    (hb : b ≠ none ∨ s.mhDefer ≠ none)
    (hback : BackOk t { s.taken c p with mhBackoff := b }) :
    TxOk c t w { s.taken c p with mhBackoff := b } := by
  have hnot := taken_not_cleared (c := c) (p := p) (s := s) (b := b)
  have hbuilt := taken_built (p := p) h.built
  refine ⟨?_, hbuilt.of_eq rfl rfl rfl rfl rfl rfl, fun _ hno => (nomatch hno),
    h.nav.of_eq rfl rfl, h.air.of_eq rfl rfl rfl rfl rfl, hback⟩
  cases h.phase with
  | rest hidle hctrl hsend hdefer =>
    exact .rest hidle hctrl hsend hdefer hnot fun _ _ => hb.resolve_right (absurd hdefer)
  | reply d q hidle hctrl hsend hdefer hd =>
    exact .reply d q hidle hctrl hsend hdefer hd fun hcl => absurd hcl hnot
  | cts x q hsent hctrl hkind hsend hdefer => exact .cts x q hsent hctrl hkind hsend hdefer hnot
  | ack x q hsent hctrl hkind hsend hdefer _ hclean hair =>
    exact .ack x q hsent hctrl hkind hsend hdefer (fun hcl => absurd hcl hnot) hclean hair
  | clear d _ _ _ _ _ hno =>
    obtain ⟨-, q, hq, -⟩ := hno
    rw [htx] at hq
    cases hq
  | rts x _ _ _ _ _ hno =>
    rw [hrts] at hno
    cases hno
  | send x q _ _ _ _ _ _ hno =>
    rw [htx] at hno
    cases hno

theorem Sound.send (hc : c.Ok) (h : s.Sound c t w) (hcall : s.callback = false) {k : ℕ} :
    ∃ s', s.send c t k p = some s' ∧ s'.TxOk c t w := by
  have htx : s.pktTx = none := by
    rw [Option.eq_none_iff_forall_ne_some]
    intro q hq
    rw [(h.built.packet q hq).2] at hcall
    cases hcall
  have hrts : s.pktRTS = none := by
    rw [Option.eq_none_iff_forall_ne_some]
    intro r hr
    obtain ⟨-, -, q, hq, -⟩ := h.built.request r hr
    rw [htx] at hq
    cases hq
  have hless := hc.sifs_lt_difs
  have hsifs := hc.sifs
  rw [send_eq htx hrts]
  unfold await
  obtain hb | ⟨b, hb⟩ := Option.eq_none_or_eq_some s.mhBackoff
  case inr =>
    rw [if_pos (by rw [show (s.taken c p).mhBackoff = some b from hb]; rfl)]
    exact ⟨_, rfl, h.takes (b := s.mhBackoff) htx hrts (.inl (by simp [hb]))
      (h.back.of_eq rfl rfl rfl rfl rfl rfl rfl)⟩
  rw [if_neg (by simp [show (s.taken c p).mhBackoff = none from hb])]
  split
  · next hidle =>
    have hall : s.rxState = .idle ∧ s.txState = .idle ∧ s.nav ≤ t := isIdle_iff.mp hidle
    split
    · next hdefer =>
      refine ⟨_, rfl, h.takes (b := s.mhBackoff) htx hrts (.inr fun hno => ?_)
        (h.back.of_eq rfl rfl rfl rfl rfl rfl rfl)⟩
      simp [show (s.taken c p).mhDefer = none from hno] at hdefer
    · next hdefer =>
      have hstart : (s.taken c p).contend c t k = some { s.taken c p with
          mhBackoff := some { paused := false, ready := t + c.difs } } := by
        unfold contend startBackoff
        rw [if_pos hc.bugFix, if_pos (by rw [show (s.taken c p).mhBackoff = none from hb]; rfl),
          hidle]
        rfl
      refine ⟨_, hstart, h.takes htx hrts (.inl (by simp)) ⟨?_, fun _ _ _ => hall, ?_⟩⟩
      · rintro b ⟨⟩ ⟨⟩
      · rintro b ⟨⟩ -
        refine ⟨fun d hd => ?_, fun x hx => by linarith [h.air.idle hall.2.1 x hx]⟩
        rw [show (s.taken c p).mhDefer = some d from hd] at hdefer
        exact absurd rfl hdefer
  · next hbusy =>
    have hidle : (s.taken c p).isIdle t = false := Bool.eq_false_iff.mpr hbusy
    rw [startBackoff_busy (by exact hb) hidle]
    refine ⟨_, rfl, h.takes htx hrts (.inl (by simp)) ⟨fun _ _ _ => h.nav.busy hidle, ?_, ?_⟩⟩
    · rintro b ⟨⟩ ⟨⟩
    · rintro b ⟨⟩ ⟨⟩

/-! ## Events -/

theorem recv_workMode (m : Mac802_11) (f : MacFrame) : (m.recv f).workMode = m.workMode := by
  unfold Mac802_11.recv
  split
  · split <;> rfl
  · rfl

theorem Sound.sampled (h : s.Sound c t w) {m : Mac802_11} (hm : m.workMode = s.mac.workMode) :
    Sound c t w { s with mac := m } := by
  refine h.of_core ?_
  unfold core
  rw [hm]

theorem Sound.of_tx (h : s.Sound c t w) (htx : s'.TxOk c t w) (hout : s.Outgoing s') :
    s'.Sound c t w :=
  ⟨htx, h.toRxOk.outgoing hout⟩

theorem Sound.step (hc : c.Ok) (h : s.Sound c t w) {ev : MacEvent} (htime : s.InTime t)
    (hdue : s.Due t ev) (hlegal : c.Legal ev) (hstrand : w → ¬ s.Strands t ev) :
    ∃ s', s.step c t e ev = some s' ∧ s'.Sound c t w := by
  have hlisten : ¬ s.mac.workMode < 0 := not_lt.mpr h.built.mode
  cases ev with
  | send p =>
    have hmode :=
      recv_workMode s.mac { direction := .down, fcType := p.kind.fcType, rxPr := p.rxPr }
    have hsound := h.sampled hmode
    unfold Station.step Station.recv
    dsimp only
    rw [if_neg (by rw [hmode]; exact hlisten), if_pos rfl]
    obtain ⟨s', hs', hok⟩ := hsound.send (p := { p with iface := c.index.toInt }) (k := e.random) hc
      hdue
    exact ⟨s', hs', hsound.of_tx hok (send_outgoing hs')⟩
  | recv p =>
    have hmode := recv_workMode s.mac { direction := .up, fcType := p.kind.fcType, rxPr := p.rxPr }
    unfold Station.step Station.recv
    dsimp only
    rw [if_neg (by rw [hmode]; exact hlisten), if_neg (by simp)]
    exact (h.sampled hmode).recvFrame (p := { p with iface := c.index.toInt }) hc hlegal
  | recvTimer => exact h.recvTimer hc htime hdue
  | sendTimer =>
    obtain ⟨s', hs', hok⟩ := h.sendTimer (e := e) hc hdue
    have hrx : RxOk c { s with mhSend := none } := h.toRxOk.of_eq rfl rfl rfl
    exact ⟨s', hs', hok, hrx.outgoing (sendTimer_outgoing hs')⟩
  | deferTimer =>
    obtain ⟨s', hs', hok⟩ := h.deferTimer hc htime hdue hstrand
    have hrx : RxOk c { s with mhDefer := none } := h.toRxOk.of_eq rfl rfl rfl
    exact ⟨s', hs', hok, hrx.outgoing (deferHandler_outgoing hs')⟩
  | backoffTimer =>
    obtain ⟨b, hb, hrun, hready⟩ := hdue
    obtain ⟨s', hs', hok⟩ := h.backoffTimer hc htime hb hrun hready
    have hrx : RxOk c { s with mhBackoff := none } := h.toRxOk.of_eq rfl rfl rfl
    exact ⟨s', hs', hok, hrx.outgoing (backoffHandler_outgoing hs')⟩
  | navTimer => exact ⟨_, rfl, h.navTimer hc hdue⟩
  | txTimer => exact ⟨_, rfl, h.txTimer hdue⟩
  | noiseTimer =>
    have hnone := h.built.noise
    rw [show s.mhNoise = some t from hdue] at hnone
    cases hnone
  | validTimer => exact ⟨_, rfl, h.of_core rfl⟩

/-- A source of noise runs no timer but the one for its noise. -/
structure Jamming (s : Station) : Prop where
  mode : s.mac.workMode < 0
  mhIF : s.mhIF = none
  mhNav : s.mhNav = none
  mhRecv : s.mhRecv = none
  mhSend : s.mhSend = none
  mhDefer : s.mhDefer = none
  mhBackoff : s.mhBackoff = none
  mhValid : s.mhValid = none
  pktTx : s.pktTx = none
  callback : s.callback = false

theorem Jamming.step (h : s.Jamming) {ev : MacEvent} (hdue : s.Due t ev) :
    ∃ s', s.step c t e ev = some s' ∧ s'.Jamming := by
  have hfree (dir : Direction) (p : Frame) : ∃ s', s.recv c t e dir p = some s' ∧ s'.Jamming := by
    have hmode := recv_workMode s.mac { direction := dir, fcType := p.kind.fcType, rxPr := p.rxPr }
    unfold Station.recv
    dsimp only
    rw [if_pos (by rw [hmode]; exact h.mode)]
    exact ⟨_, rfl, hmode.trans_lt h.mode, h.mhIF, h.mhNav, h.mhRecv, h.mhSend, h.mhDefer,
      h.mhBackoff, h.mhValid, h.pktTx, h.callback⟩
  have hstop {x : Option ℚ} (hnone : x = none) (hsome : x = some t) : False := by
    rw [hnone] at hsome
    cases hsome
  cases ev with
  | send p => exact hfree .down p
  | recv p => exact hfree .up p
  | recvTimer => exact (hstop h.mhRecv hdue).elim
  | sendTimer => exact (hstop h.mhSend hdue).elim
  | deferTimer => exact (hstop h.mhDefer hdue).elim
  | backoffTimer =>
    obtain ⟨b, hb, -⟩ := hdue
    rw [h.mhBackoff] at hb
    cases hb
  | navTimer => exact (hstop h.mhNav hdue).elim
  | txTimer => exact (hstop h.mhIF hdue).elim
  | noiseTimer =>
    exact ⟨_, rfl, h.mode, h.mhIF, h.mhNav, h.mhRecv, h.mhSend, h.mhDefer, h.mhBackoff, h.mhValid,
      h.pktTx, h.callback⟩
  | validTimer => exact (hstop h.mhValid hdue).elim

theorem init_sound {i n k : Int} (hi : 0 ≤ i) : (Station.init c i n k).Sound c 0 w := by
  have hnoise : (Station.init c i n k).mhNoise = none := if_neg fun h => absurd h.1 (not_lt.mpr hi)
  exact ⟨⟨.rest rfl rfl rfl rfl (not_cleared_of_empty rfl) fun _ h => (nomatch h),
    ⟨hi, hnoise, fun _ h => (nomatch h), fun _ h => (nomatch h), fun _ h => (nomatch h)⟩,
    fun h => (nomatch h), ⟨fun _ => le_rfl, fun _ h => (nomatch h)⟩,
    ⟨fun _ h => (nomatch h), fun _ _ h => (nomatch h), fun _ _ h => (nomatch h),
      fun _ _ h => (nomatch h)⟩, backOk_of_none rfl⟩,
    ⟨fun _ => ⟨rfl, rfl⟩, fun h => absurd rfl h, fun _ h => (nomatch h)⟩⟩

theorem init_jamming {w n k : Int} (hw : w < 0) : (Station.init c w n k).Jamming :=
  ⟨hw, rfl, rfl, rfl, rfl, rfl, rfl, rfl, rfl, rfl⟩

end Station

variable {c : MacConf} {t t' : ℚ} {s s' : Station} {e : MacEnv} {ev : MacEvent}
  {ok : ℚ → Station → MacEvent → Prop}

theorem reachable_sound {w : Prop} (hc : c.Ok) (hok : ∀ t s ev, ok t s ev → c.Legal ev)
    (hstrand : w → ∀ t s ev, ok t s ev → ¬ s.Strands t ev) (h : MacReachable c ok t s) :
    s.Jamming ∨ s.Sound c t w := by
  induction h with
  | init w n k =>
    by_cases hw : 0 ≤ w
    · exact .inr (Station.init_sound hw)
    · exact .inl (Station.init_jamming (not_le.mp hw))
  | @step t t' s s' e ev ht htime hdue hlegal hstep hrun ih =>
    obtain hjam | hsound := ih
    · obtain ⟨s₁, hs₁, hjam'⟩ := hjam.step (c := c) (e := e) hdue
      obtain rfl := Option.some.inj (hstep.symm.trans hs₁)
      exact .inl hjam'
    · obtain ⟨s₁, hs₁, hsound'⟩ := (hsound.later ht).step (e := e) hc htime hdue (hok _ _ _ hlegal)
        fun hw => hstrand hw _ _ _ hlegal
      obtain rfl := Option.some.inj (hstep.symm.trans hs₁)
      exact .inr hsound'

/-- No assertion fails, whatever the order of the events. -/
theorem no_assertion_fails (hc : c.Ok) (h : MacReachable c (fun _ _ ev => c.Legal ev) t s)
    (ht : t ≤ t') (htime : s.InTime t') (hdue : s.Due t' ev) (hlegal : c.Legal ev) :
    (s.step c t' e ev).isSome := by
  rw [Option.isSome_iff_exists]
  obtain hjam | hsound := reachable_sound (w := False) hc (fun _ _ _ hok => hok) nofun h
  · obtain ⟨s', hs', -⟩ := hjam.step (c := c) (e := e) hdue
    exact ⟨s', hs'⟩
  · obtain ⟨s', hs', -⟩ := (hsound.later ht).step (e := e) hc htime hdue hlegal nofun
    exact ⟨s', hs'⟩

/-! ### A CTS that is given up -/

instance MacConf.decidableHears (c : MacConf) (p : Frame) : Decidable (c.Hears p) :=
  inferInstanceAs (Decidable (_ ∧ _))

instance MacConf.decidableLegal (c : MacConf) : (ev : MacEvent) → Decidable (c.Legal ev)
  | .recv p => inferInstanceAs (Decidable (c.Hears p))
  | .send _ | .recvTimer | .sendTimer | .deferTimer | .backoffTimer | .navTimer | .txTimer
  | .noiseTimer | .validTimer => .isTrue trivial

def rtsFrom (src : BitVec 32) : Frame :=
  { kind := .rts, size := 44, ra := 1, ta := src, txtime := 352 / 10 ^ 6, duration := 3000
    rxPr := 1 }

/-- While a CTS waits for the end of a SIFS a packet is handed down, and another frame arrives. -/
def crossedRun : List (ℚ × MacEvent) :=
  [(0, .recv (rtsFrom 2)), (352 / 10 ^ 6, .recvTimer),
    (355 / 10 ^ 6, .send { kind := .data, size := 100, ra := 3, ta := 1 }),
    (358 / 10 ^ 6, .recv (rtsFrom 3))]

theorem sampleMac_ok : (sampleMac 1).Ok :=
  ⟨rfl, by decide +kernel, by decide +kernel, by decide +kernel, by decide +kernel⟩

def crossedStation : ℚ × Station :=
  ((Station.init (sampleMac 1) 0 0 0).run (sampleMac 1) (fun _ _ ev => (sampleMac 1).Legal ev) 0
    crossedRun).get (by decide +kernel)

theorem crossedStation_survives :
    (crossedStation.2.step (sampleMac 1) (362 / 10 ^ 6) {} .deferTimer).isSome :=
  no_assertion_fails sampleMac_ok ((MacReachable.init 0 0 0).run (Option.some_get _).symm)
    (by decide +kernel) (by decide +kernel) (by decide +kernel) trivial

/-! ## What waits is woken -/

/-- While a packet waits, or the queue, a timer runs after which the station goes on: its own, or
one that ends what a backoff is paused for. -/
def Station.Awake (s : Station) : Prop :=
  s.pktTx.isSome ∨ s.callback = true → s.mhSend.isSome ∨ s.mhDefer.isSome ∨
    ∃ b, s.mhBackoff = some b ∧ (b.paused = true → s.mhRecv.isSome ∨ s.mhNav.isSome)

theorem Station.Jamming.awake (h : s.Jamming) : s.Awake := by
  rintro (hp | hcall)
  · simp [h.pktTx] at hp
  · simp [h.callback] at hcall

theorem Station.Sound.awake (h : s.Sound c t True) : s.Awake := by
  intro hwait
  cases h.phase with
  | rest htx hctrl _ _ _ hwoken =>
    have hp : s.pktTx.isSome := by
      obtain hp | hcall := hwait
      · exact hp
      · by_contra hno
        obtain ⟨q, hq, -⟩ := h.asked hcall (by simpa using hno)
        rw [hctrl] at hq
        cases hq
    obtain ⟨b, hb⟩ := Option.ne_none_iff_exists'.mp (hwoken trivial hp)
    refine .inr (.inr ⟨b, hb, fun hpaused => ?_⟩)
    obtain hrx | hsent | hnav := h.back.paused b hb hpaused
    · exact .inl (h.busy hrx).2.2
    · exact absurd htx hsent
    · exact .inr hnav
  | clear d _ _ _ hdefer | reply d q _ _ _ hdefer => exact .inr (.inl (by rw [hdefer]; rfl))
  | rts x _ _ hsend | cts x q _ _ _ hsend | ack x q _ _ _ hsend | send x p _ _ hsend =>
    exact .inl (by rw [hsend]; rfl)

theorem Station.Sound.strands {w : Prop} (h : s.Sound c t w) (hdue : s.Due t ev)
    (hstrand : s.Strands t ev) (hstep : s.step c t e ev = some s') : ¬ s'.Awake := by
  obtain ⟨rfl, ⟨q, hq, hkind⟩, hidle, hsome, hback⟩ := hstrand
  have hdefer : s.mhDefer = some t := hdue
  have hsend : s.mhSend = none ∧ s.txState = .idle := by
    cases h.phase with
    | clear d htx _ hsend | reply d q htx _ hsend => exact ⟨hsend, htx⟩
    | rest _ _ _ hno | rts x _ _ _ hno | cts x q _ _ _ _ hno | ack x q _ _ _ _ hno
    | send x p _ _ _ hno =>
      rw [hdefer] at hno
      cases hno
  have hgone : Station.checkPktCTRL c t { s with mhDefer := none } =
      some (true,
        { Station.discard c q .busy { s with mhDefer := none } with pktCTRL := none }) := by
    unfold Station.checkPktCTRL
    split
    · next hno =>
      rw [show s.pktCTRL = none from hno] at hq
      cases hq
    · next q' hq' =>
      obtain rfl := Option.some.inj (hq.symm.trans hq')
      rw [if_neg (by simp [hsend.2]), hkind]
      dsimp only
      rw [if_neg (by exact Bool.eq_false_iff.mp hidle)]
  have hrun : Station.deferHandler c t { s with mhDefer := none } = some s' := hstep
  unfold Station.deferHandler at hrun
  rw [if_neg (by simp [hq]), hgone, Option.bind_some] at hrun
  obtain rfl := Option.some.inj hrun
  obtain ⟨os, -, hdis⟩ :=
    Station.discard_eq (c := c) (p := q) (s := { s with mhDefer := none }) .busy
  rw [hdis]
  intro hawake
  obtain hs | hd | ⟨b, hb, -⟩ := hawake (.inl hsome)
  · simp [hsend.1] at hs
  · cases hd
  · rw [show s.mhBackoff = some b from hb] at hback
    cases hback

/-- The one way in which a wake-up is lost. -/
theorem awake_iff (hc : c.Ok)
    (h : MacReachable c (fun t s ev => c.Legal ev ∧ ¬ s.Strands t ev) t s) :
    s.Awake ∧ ∀ t' e ev s', t ≤ t' → s.InTime t' → s.Due t' ev → c.Legal ev →
      s.step c t' e ev = some s' → (s'.Awake ↔ ¬ s.Strands t' ev) := by
  obtain hjam | hsound := reachable_sound (w := True) hc (fun _ _ _ hok => hok.1)
    (fun _ _ _ _ hok => hok.2) h
  · refine ⟨hjam.awake, fun t' e ev s' ht htime hdue hlegal hstep => ?_⟩
    obtain ⟨s₁, hs₁, hjam'⟩ := hjam.step (c := c) (e := e) hdue
    obtain rfl := Option.some.inj (hstep.symm.trans hs₁)
    refine iff_of_true hjam'.awake ?_
    rintro ⟨-, -, -, hp, -⟩
    simp [hjam.pktTx] at hp
  · refine ⟨hsound.awake, fun t' e ev s' ht htime hdue hlegal hstep => ⟨fun hawake hstrand => ?_,
      fun hno => ?_⟩⟩
    · exact (hsound.later ht).strands hdue hstrand hstep hawake
    · obtain ⟨s₁, hs₁, hsound'⟩ := (hsound.later ht).step (e := e) hc htime hdue hlegal fun _ => hno
      obtain rfl := Option.some.inj (hstep.symm.trans hs₁)
      exact hsound'.awake

instance Station.decidableStrands (t : ℚ) (s : Station) :
    (ev : MacEvent) → Decidable (s.Strands t ev)
  | .deferTimer => decidable_of_iff ((∃ q ∈ s.pktCTRL, q.kind = .cts) ∧ s.isIdle t = false ∧
      s.pktTx.isSome ∧ s.mhBackoff.isNone) (by simp [Station.Strands])
  | .send _ | .recv _ | .recvTimer | .sendTimer | .backoffTimer | .navTimer | .txTimer
  | .noiseTimer | .validTimer => .isFalse fun h => by cases h.1

def waitingStation : ℚ × Station :=
  ((Station.init (sampleMac 1) 0 0 0).run (sampleMac 1)
    (fun t s ev => (sampleMac 1).Legal ev ∧ ¬ s.Strands t ev) 0 crossedRun).get (by decide +kernel)

theorem waitingStation_stranded : waitingStation.2.Awake ∧ ∃ s',
    waitingStation.2.step (sampleMac 1) (362 / 10 ^ 6) {} .deferTimer = some s' ∧ ¬ s'.Awake := by
  obtain ⟨hawake, hnext⟩ := awake_iff sampleMac_ok
    (s := waitingStation.2) ((MacReachable.init 0 0 0).run (Option.some_get _).symm)
  obtain ⟨s', hs'⟩ := Option.isSome_iff_exists.mp
    (show (waitingStation.2.step (sampleMac 1) (362 / 10 ^ 6) {} .deferTimer).isSome by decide +kernel)
  refine ⟨hawake, s', hs', fun h => ?_⟩
  exact (hnext _ _ .deferTimer s' (by decide +kernel) (by decide +kernel) (by decide +kernel)
    trivial hs').mp h (by decide +kernel)

end AodvUU

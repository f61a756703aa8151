import AodvUU.MacInvariant

/-! # The receiver keeps the invariant

A frame begins to arrive, overpowers another or collides with it, and is looked at when it ends. -/
namespace AodvUU

namespace Station

variable {c : MacConf} {t t' : ℚ} {e : MacEnv} {w : Prop} {s s' : Station} {p q : Frame}
  {b : Option Backoff}

/-! ## Frames that came through -/

/-- What is known when a frame has come through: the station is not transmitting, and no answer of
its own is waiting for the end of a SIFS. -/
structure Hearing (c : MacConf) (t : ℚ) (woken : Prop) (s : Station) : Prop where
  tx : s.TxOk c t woken
  busy : s.rxState ≠ .idle
  recv : s.mhRecv = none
  silent : s.txActive = false
  fresh : s.txState = .idle → s.pktCTRL = none → s.mhDefer = none

theorem Hearing.air (h : s.Hearing c t w) :
    ∀ x, s.mhIF = some x → s.txActive = true ∧ x ≤ t := by
  intro x hx
  have hact := h.tx.air.active x hx
  rw [h.silent] at hact
  cases hact

theorem Hearing.paused (h : s.Hearing c t w) : ∀ b, s.mhBackoff = some b → b.paused = true :=
  h.tx.back.paused_of_busy (.inl h.busy)

theorem clean_of_recv {x : ℚ} (h : s.mhRecv = none) : s.Clean x := by
  intro _ p r _ _ hr
  rw [h] at hr
  cases hr

theorem Hearing.rest (h : s.Hearing c t w) (htx : s.txState = .idle)
    (hctrl : s.pktCTRL = none) : s.mhSend = none ∧ s.mhDefer = none ∧ ¬ s.Cleared c := by
  cases h.tx.phase with
  | rest _ _ hsend hdefer hclear => exact ⟨hsend, hdefer, hclear⟩
  | clear d _ _ _ hdefer =>
    rw [h.fresh htx hctrl] at hdefer
    cases hdefer
  | reply d q _ hq =>
    rw [hctrl] at hq
    cases hq
  | rts x hno | cts x q hno | ack x q hno | send x p hno =>
    rw [htx] at hno
    cases hno

theorem Hearing.discard (h : s.Hearing c t w) (why : MacDrop) :
    (s.discard c p why).TxOk c t w :=
  h.tx.of_core (discard_core why)

theorem Hearing.replies (hc : c.Ok) (h : s.Hearing c t w) (hq : c.Reply q)
    (hclear : ¬ s.Cleared c) (hasked : s.callback = true → s.pktTx = none → q.kind = .ack)
    {x d : Option ℚ} (hx : x = none) (hd : d = none) :
    ∃ s', Station.txResume c t e { s with pktCTRL := some q, mhSend := x, mhDefer := d } =
      some s' ∧ s'.TxOk c t w := by
  refine Resumable.txResume hc ⟨hx, hd, .inl h.busy, { h.tx.built with reply := ?_ }, ?_,
    h.tx.nav.of_eq rfl rfl, h.air, h.paused, fun hcl => absurd hcl hclear⟩
  · rintro q' ⟨⟩
    exact hq
  · rintro q' ⟨⟩
    exact hasked

theorem Hearing.recvRTS (hc : c.Ok) (h : s.Hearing c t w) (hp : c.Hears p)
    (hkind : p.kind = .rts) : ∃ s', s.recvRTS c t e p = some s' ∧ s'.TxOk c t w := by
  unfold Station.recvRTS
  split
  · exact ⟨_, rfl, h.discard _⟩
  · next hno =>
    rw [not_or, not_not] at hno
    have hctrl : s.pktCTRL = none := by simpa using hno.2
    obtain ⟨hsend, -, hclear⟩ := h.rest hno.1 hctrl
    have hcts : c.Reply (c.ctsFrame p.ta p.duration) := .inr ⟨rfl, hp.2 hkind⟩
    unfold sendCTS
    rw [if_neg hno.2]
    refine h.replies (x := s.mhSend) hc hcts hclear (fun hcall htx => ?_) hsend rfl
    obtain ⟨q, hq, -⟩ := h.tx.asked hcall htx
    rw [hctrl] at hq
    cases hq

theorem stopSend_eq {x : ℚ} (h : s.mhSend = some x) :
    s.stopSend = some { s with mhSend := none } := by
  unfold stopSend
  rw [if_pos (by rw [h]; rfl)]

theorem Hearing.recvCTS (hc : c.Ok) (h : s.Hearing c t w) :
    ∃ s', s.recvCTS c t e p = some s' ∧ s'.TxOk c t w := by
  unfold Station.recvCTS
  split
  · exact ⟨_, rfl, h.discard _⟩
  · next hrts =>
    rw [not_not] at hrts
    cases h.tx.phase with
    | rts x htx hctrl hsend hdefer hback hsome =>
      obtain ⟨r, hr⟩ := Option.isSome_iff_exists.mp hsome
      obtain ⟨-, -, p', hp', -⟩ := h.tx.built.request r hr
      rw [if_neg (by simp [hr, hp']), stopSend_eq hsend]
      refine Resumable.txResume hc ⟨rfl, hdefer, .inl h.busy, { h.tx.built with request := ?_ },
        fun q hq _ _ => hctrl q hq, h.tx.nav.of_eq rfl rfl, h.air, h.paused,
        fun _ => ⟨hback, hctrl, fun _ => clean_of_recv h.recv⟩⟩
      rintro r ⟨⟩
    | rest hno | clear d hno | reply d q hno | cts x q hno | ack x q hno | send x p hno =>
      rw [hrts] at hno
      cases hno

theorem Hearing.recvACK (hc : c.Ok) (h : s.Hearing c t w) :
    ∃ s', s.recvACK c t e p = some s' ∧ s'.TxOk c t w := by
  unfold Station.recvACK
  split
  · exact ⟨_, rfl, h.discard _⟩
  · next hsent =>
    rw [not_not] at hsent
    cases h.tx.phase with
    | send x q htx hctrl hsend hdefer hback hrts hq =>
      rw [hq]
      dsimp only
      rw [stopSend_eq hsend]
      have hnot : ¬ Cleared c { s with mhSend := none, pktTx := none } := by
        rintro ⟨-, p, ⟨⟩, -⟩
      have hfree : Resumable c t { s with mhSend := none, pktTx := none } := by
        refine ⟨rfl, hdefer, .inl h.busy, { h.tx.built with request := ?_, packet := ?_ },
          fun q hq _ _ => hctrl q hq, h.tx.nav.of_eq rfl rfl, h.air, h.paused,
          fun hcl => absurd hcl hnot⟩
        · intro r hr
          rw [show s.pktRTS = some r from hr] at hrts
          cases hrts
        · rintro p ⟨⟩
      have hcore : ((note (.freed q) { setRcount c q 0 { s with mhSend := none } with
          pktTx := none }).rstCw c).core = core { s with mhSend := none, pktTx := none } := by
        unfold setRcount
        split <;> rfl
      obtain ⟨s₁, hs₁, hresume⟩ := hfree.startBackoff (x := 0) hcore hback hnot
      simp only [Option.bind_eq_bind, Option.bind_some]
      rw [hs₁]
      exact hresume.txResume hc
    | rest hno | clear d hno | reply d q hno | rts x hno | cts x q hno | ack x q hno =>
      rw [hsent] at hno
      cases hno

theorem Hearing.ackAfterCts (hc : c.Ok) (h : s.Hearing c t w) {d : BitVec 32}
    (hcts : s.txState = .cts) : ∃ s', s.ackAfterCts c t e d = some s' ∧ s'.TxOk c t w := by
  unfold Station.ackAfterCts
  cases h.tx.phase with
  | cts x q htx hctrl hkind hsend hdefer hclear =>
    rw [if_neg (by simp [hctrl]), stopSend_eq hsend]
    simp only [Option.bind_eq_bind, Option.bind_some]
    unfold sendACK
    rw [if_neg (by simp)]
    exact h.replies (d := s.mhDefer) hc (.inl ⟨rfl, rfl⟩) hclear (fun _ _ => rfl) rfl hdefer
  | rest hno | clear d hno | reply d q hno | rts x hno | ack x q hno | send x p hno =>
    rw [hcts] at hno
    cases hno

/-- A short packet is acknowledged at once, or when the transmission of a packet of our own has
ended. -/
theorem Hearing.ackShort (hc : c.Ok) (h : s.Hearing c t w) {d : BitVec 32}
    (hctrl : s.pktCTRL = none) : ∃ s', s.ackShort c t e d = some s' ∧ s'.TxOk c t w := by
  have hack : ∀ q, some (c.ackFrame d) = some q → q.kind = .ack := by
    rintro q ⟨⟩
    rfl
  have hlater (hphase : Phase c t w { s with pktCTRL := some (c.ackFrame d) }) :
      TxOk c t w { s with pktCTRL := some (c.ackFrame d) } := by
    refine ⟨hphase, { h.tx.built with reply := ?_ },
      fun _ _ => ⟨_, rfl, rfl⟩, h.tx.nav.of_eq rfl rfl,
      h.tx.air.of_eq rfl rfl rfl rfl rfl,
      h.tx.back.of_eq rfl rfl rfl rfl rfl rfl rfl⟩
    rintro q ⟨⟩
    exact .inl ⟨rfl, rfl⟩
  unfold Station.ackShort sendACK
  rw [if_neg (by simp [hctrl])]
  simp only [Option.bind_eq_bind, Option.bind_some]
  cases h.tx.phase with
  | rts x htx _ hsend hdefer hback hrts =>
    rw [if_pos (by rw [hsend]; rfl)]
    exact ⟨_, rfl, hlater (.rts x htx hack hsend hdefer hback hrts)⟩
  | send x p htx _ hsend hdefer hback hrts hp =>
    rw [if_pos (by rw [hsend]; rfl)]
    exact ⟨_, rfl, hlater (.send x p htx hack hsend hdefer hback hrts hp)⟩
  | rest htx | clear d htx =>
    obtain ⟨hsend, hdefer, hclear⟩ := h.rest htx hctrl
    rw [if_neg (by simp [hsend])]
    exact h.replies (x := s.mhSend) (d := s.mhDefer) hc (.inl ⟨rfl, rfl⟩) hclear (fun _ _ => rfl)
      hsend hdefer
  | reply d q _ hq | cts x q _ hq | ack x q _ hq =>
    rw [hctrl] at hq
    cases hq

theorem Hearing.recvDATA (hc : c.Ok) (h : s.Hearing c t w) :
    ∃ s', s.recvDATA c t e p = some s' ∧ s'.TxOk c t w := by
  unfold Station.recvDATA
  dsimp only
  split
  · exact ⟨_, rfl, h.tx.of_core deliver_core⟩
  · split
    · split
      · next hcts =>
        obtain ⟨s', hs', hok⟩ := h.ackAfterCts (e := e) (d := p.ta) hc hcts
        exact ⟨_, by rw [hs']; rfl, hok.of_core deliver_core⟩
      · exact ⟨_, rfl, h.discard _⟩
    · split
      · exact ⟨_, rfl, h.discard _⟩
      · next hctrl =>
        obtain ⟨s', hs', hok⟩ := h.ackShort (e := e) (d := p.ta) hc (by simpa using hctrl)
        exact ⟨_, by rw [hs']; rfl, hok.of_core deliver_core⟩

theorem Hearing.setNav (h : s.Hearing c t w) (us : BitVec 16) :
    (s.setNav t us).Hearing c t w := by
  have htx := h.tx.setNav h.busy us
  unfold Station.setNav at htx ⊢
  split at htx
  · rw [if_pos ‹_›]
    exact ⟨htx, h.busy, h.recv, h.silent, h.fresh⟩
  · rw [if_neg ‹_›]
    exact h

theorem Hearing.received (hc : c.Ok) (h : s.Hearing c t w) (hp : c.Hears p) :
    ∃ s', s.received c t e p = some s' ∧ s'.TxOk c t w := by
  unfold Station.received
  dsimp only
  have hnav : Hearing c t w (if p.ra = c.index then s else s.setNav t p.duration) := by
    split
    · exact h
    · exact h.setNav _
  generalize (if p.ra = c.index then s else s.setNav t p.duration) = s₁ at hnav ⊢
  split
  · exact ⟨_, rfl, hnav.discard _⟩
  · cases hkind : p.kind with
    | rts => exact hnav.recvRTS hc hp hkind
    | cts => exact hnav.recvCTS hc
    | ack => exact hnav.recvACK hc
    | data => exact hnav.recvDATA hc
    | noise => exact ⟨_, rfl, hnav.tx.of_core rfl⟩

/-! ## The receiver -/

theorem arrived_mhRecv (h : s.arrived c t e p = some s') : s'.mhRecv = s.mhRecv := by
  obtain hout | ⟨-, s₁, q, rfl, hout, -⟩ := arrived_delivers h
  · exact hout.mhRecv
  · have hcore : (s₁.deliver c q).core = s₁.core := deliver_core
    have hsame : (s₁.deliver c q).core.mhRecv = s₁.core.mhRecv := by rw [hcore]
    exact hsame.trans hout.mhRecv

theorem Sound.hearing (h : s.Sound c t w) (htime : s.InTime t) (hr : s.mhRecv = some t)
    (hp : s.pktRx = some p) (hrx : s.rxState = .recv) (herr : p.error = false)
    (hact : s.txActive = false) : Hearing c t w { s with mhRecv := none } := by
  refine ⟨⟨h.phase.alike ⟨rfl, rfl, rfl, rfl, rfl, rfl, rfl, rfl, .rfl⟩ le_rfl fun _ _ _ =>
    clean_of_recv rfl, h.built.of_eq rfl rfl rfl rfl rfl rfl, h.asked,
    h.nav.of_eq rfl rfl, h.air.of_eq rfl rfl rfl rfl rfl, h.back.of_eq rfl rfl rfl rfl rfl rfl rfl⟩,
    by simp [hrx], rfl, hact, ?_⟩
  intro htx hctrl
  cases h.phase with
  | rest _ _ _ hdefer => exact hdefer
  | clear d _ _ _ hdefer _ _ _ hclean =>
    -- It would have ended before the timer, which is not late.
    have hlate := hclean hrx p t hp herr hr
    exact absurd (htime.mhDefer d hdefer) (not_le.mpr hlate)
  | reply d q _ hq =>
    rw [show s.pktCTRL = none from hctrl] at hq
    cases hq
  | rts x hno | cts x q hno | ack x q hno | send x p hno =>
    rw [show s.txState = .idle from htx] at hno
    cases hno

theorem Sound.recvTimer (hc : c.Ok) (h : s.Sound c t w) (htime : s.InTime t)
    (hr : s.mhRecv = some t) :
    ∃ s', { s with mhRecv := none }.recvTimer c t e = some s' ∧ s'.Sound c t w := by
  have hrx : s.rxState ≠ .idle := by
    intro hidle
    rw [(h.idle hidle).2] at hr
    cases hr
  obtain ⟨hstate, hsome, -⟩ := h.busy hrx
  obtain ⟨p, hp⟩ := Option.isSome_iff_exists.mp hsome
  have htx : TxOk c t w { s with mhRecv := none } :=
    ⟨h.phase.alike ⟨rfl, rfl, rfl, rfl, rfl, rfl, rfl, rfl, .rfl⟩ le_rfl fun _ _ _ =>
      clean_of_recv rfl, h.built.of_eq rfl rfl rfl rfl rfl rfl, h.asked,
      h.nav.of_eq rfl rfl, h.air.of_eq rfl rfl rfl rfl rfl,
      h.back.of_eq rfl rfl rfl rfl rfl rfl rfl⟩
  have hseen : ∃ s', Station.arrived c t e p { s with mhRecv := none } = some s' ∧
      s'.TxOk c t w := by
    unfold Station.arrived
    split
    · exact ⟨_, rfl, htx⟩
    · next hact =>
      split
      · have hdis := discard_outgoing (c := c) (p := p) (s := { s with mhRecv := none }) .collision
        exact ⟨_, rfl, (htx.of_core (discard_core _)).setNav (by rw [hdis.rxState]; exact hrx) _⟩
      · next hcoll =>
        split
        · exact ⟨_, rfl, htx.setNav hrx _⟩
        · next herr =>
          have hhear := h.hearing htime hr hp (hstate.resolve_right hcoll) (by simpa using herr)
            (by simpa using hact)
          exact hhear.received hc (h.heard p hp)
  obtain ⟨s₁, hs₁, hok⟩ := hseen
  unfold Station.recvTimer
  split
  · next hno =>
    rw [show s.pktRx = none from hno] at hp
    cases hp
  · next q hq =>
    obtain rfl := Option.some.inj (hp.symm.trans hq)
    rw [if_pos hstate, hs₁]
    exact hok.rxResume hc (arrived_mhRecv hs₁)

theorem checkBackoffTimer_rx {q : Option Frame} {r : Option ℚ} :
    { s.checkBackoffTimer c t with pktRx := q, mhRecv := r } =
      checkBackoffTimer c t { s with pktRx := q, mhRecv := r } := by
  obtain hb | ⟨b, hb⟩ := Option.eq_none_or_eq_some s.mhBackoff
  · simp only [checkBackoffTimer, hb]
  · simp only [checkBackoffTimer, isIdle, hb]
    by_cases hp : b.paused <;> split <;> simp [hb]

theorem Sound.hears (hc : c.Ok) (h : s.Sound c t w) {y : MacState} {r : ℚ}
    (hy : y = .recv ∨ y = .coll) (hp : c.Hears p)
    (hclean : ∀ x, x ≤ t + c.sifs ∨ s.txActive = true →
      Clean x { s with rxState := y, pktRx := some p, mhRecv := some r }) :
    Sound c t w (checkBackoffTimer c t
      { s with rxState := y, pktRx := some p, mhRecv := some r }) := by
  refine ⟨checkBackoffTimer_txOk hc (h.phase.alike ⟨rfl, rfl, rfl, rfl, rfl, rfl, rfl, rfl, .rfl⟩
    le_rfl fun x _ => hclean x) (h.built.of_eq rfl rfl rfl rfl rfl rfl) h.asked
    (h.nav.of_eq rfl rfl) (h.air.of_eq rfl rfl rfl rfl rfl) h.back.after,
    checkBackoffTimer_rxOk ⟨?_, fun _ => ⟨hy, rfl, rfl⟩, ?_⟩⟩
  · rintro rfl
    simp at hy
  · rintro q ⟨⟩
    exact hp

theorem Sound.begins (hc : c.Ok) (h : s.Sound c t w) (hp : c.Hears p)
    (herr : s.txActive = true → p.error = true) (hrx : s.rxState = .idle) :
    ∃ s', { s.setRxState c t .recv with pktRx := some p }.startRecv t p.txtime = some s' ∧
      s'.Sound c t w := by
  have hnone : (s.setRxState c t .recv).mhRecv = none := by
    obtain ⟨b, hb⟩ := setRxState_eq (c := c) (t := t) (s := s) .recv
    rw [hb]
    exact (h.idle hrx).2
  refine ⟨_, by unfold startRecv; rw [if_pos (by rw [hnone]; rfl)], ?_⟩
  unfold setRxState
  rw [checkBackoffTimer_rx]
  refine h.hears hc (.inl rfl) hp ?_
  rintro x hx - _ _ ⟨⟩ hgood ⟨⟩
  obtain hx | hact := hx
  · linarith [hp.1]
  · rw [herr hact] at hgood
    cases hgood

theorem Sound.of_core (h : s.Sound c t w) (heq : s'.core = s.core) : s'.Sound c t w := by
  refine ⟨h.toTxOk.of_core heq, h.toRxOk.of_eq ?_ ?_ ?_⟩
  · exact (congrArg (fun x : Station => x.rxState) heq :)
  · exact (congrArg (fun x : Station => x.pktRx) heq :)
  · exact (congrArg (fun x : Station => x.mhRecv) heq :)

theorem Sound.collides (hc : c.Ok) (h : s.Sound c t w) (hrx : s.rxState = .recv) :
    (s.setRxState c t .coll).Sound c t w := by
  obtain ⟨-, hsome, hrun⟩ := h.busy (by simp [hrx])
  obtain ⟨q, hq⟩ := Option.isSome_iff_exists.mp hsome
  obtain ⟨r, hr⟩ := Option.isSome_iff_exists.mp hrun
  have hsame : ({ s with rxState := .coll } : Station) =
      { s with rxState := .coll, pktRx := some q, mhRecv := some r } := by rw [← hq, ← hr]
  unfold setRxState
  rw [hsame]
  refine h.hears hc (.inr rfl) (h.heard q hq) ?_
  rintro x - ⟨⟩

theorem Sound.collision (hc : c.Ok) (h : s.Sound c t w) (hp : c.Hears p)
    (hrx : s.rxState ≠ .idle) : ∃ s', s.collision c t p = some s' ∧ s'.Sound c t w := by
  obtain ⟨hstate, -, -⟩ := h.busy hrx
  have hcoll : Sound c t w (if s.rxState = .recv then s.setRxState c t .coll else s) ∧
      (if s.rxState = .recv then s.setRxState c t .coll else s).rxState = .coll := by
    split
    · next hrecv =>
      obtain ⟨b, hb⟩ := setRxState_eq (c := c) (t := t) (s := s) .coll
      exact ⟨h.collides hc hrecv, by rw [hb]⟩
    · next hno => exact ⟨h, hstate.resolve_left hno⟩
  unfold Station.collision
  rw [if_pos hstate]
  generalize (if s.rxState = .recv then s.setRxState c t .coll else s) = s₁ at hcoll ⊢
  obtain ⟨hsound, hcoll⟩ := hcoll
  obtain ⟨-, hsome, hrun⟩ := hsound.busy (by simp [hcoll])
  obtain ⟨q, hq⟩ := Option.isSome_iff_exists.mp hsome
  obtain ⟨r, hr⟩ := Option.isSome_iff_exists.mp hrun
  dsimp only
  split
  case h_2 hno => exact absurd hr (hno q r hq)
  next q r hq hr =>
    split
    · -- The new frame lasts longer.
      have hclean : ∀ x, Clean x { s₁ with pktRx := some p, mhRecv := some (t + p.txtime) } := by
        intro x hrecv
        rw [show s₁.rxState = .recv from hrecv] at hcoll
        cases hcoll
      have hnew : Sound c t w { s₁ with pktRx := some p, mhRecv := some (t + p.txtime) } := by
        refine ⟨⟨hsound.phase.alike ⟨rfl, rfl, rfl, rfl, rfl, rfl, rfl, rfl, .rfl⟩ le_rfl
          fun x _ _ => hclean x, hsound.built.of_eq rfl rfl rfl rfl rfl rfl, hsound.asked,
          hsound.nav.of_eq rfl rfl, hsound.air.of_eq rfl rfl rfl rfl rfl,
          hsound.back.of_eq rfl rfl rfl rfl rfl rfl rfl⟩,
          ⟨fun hidle => ?_, fun _ => ⟨.inr hcoll, rfl, rfl⟩, ?_⟩⟩
        · rw [show s₁.rxState = .idle from hidle] at hcoll
          cases hcoll
        · rintro p' ⟨⟩
          exact hp
      obtain ⟨os, -, hdis⟩ :=
        discard_eq (c := c) (p := q) (s := { s₁ with mhRecv := none }) .collision
      rw [hdis]
      exact ⟨_, rfl, hnew.of_core rfl⟩
    · exact ⟨_, rfl, hsound.of_core (discard_core _)⟩

theorem Sound.setNav (h : s.Sound c t w) (hrx : s.rxState ≠ .idle) (us : BitVec 16) :
    (s.setNav t us).Sound c t w := by
  obtain ⟨hx, hp, hr⟩ := setNav_rx (t := t) (s := s) us
  exact ⟨h.toTxOk.setNav hrx us, h.toRxOk.of_eq hx hp hr⟩

theorem Sound.recvFrame (hc : c.Ok) (h : s.Sound c t w) (hp : c.Hears p) :
    ∃ s', s.recvFrame c t p = some s' ∧ s'.Sound c t w := by
  have hnoted : (s.note (.heard p)).Sound c t w := h.of_core rfl
  have hp' : c.Hears { p with error := p.error || (s.note (.heard p)).txActive } := hp
  unfold Station.recvFrame
  dsimp only
  generalize s.note (.heard p) = s₁ at hnoted hp' ⊢
  split
  · next hrx => exact hnoted.begins hc hp' (fun hact => by simp [hact]) hrx
  · next hrx =>
    obtain ⟨q, hq⟩ := Option.isSome_iff_exists.mp (hnoted.busy hrx).2.1
    rw [hq]
    dsimp only
    split
    · exact ⟨_, rfl, hnoted.setNav hrx _⟩
    · exact hnoted.collision hc hp' hrx

end Station

end AodvUU

import AodvUU.MacSafety

/-! # What goes on the air, and when

Frames go on the air at the end of a SIFS or of a backoff, one at a time. But for an ACK, and for
noise, the station has found the medium idle, so that it is silent while the medium is reserved. -/
namespace AodvUU

/-! ## Paths -/

/-- One event of a run. -/
structure MacStep (c : MacConf) (ok : ℚ → Station → MacEvent → Prop) (ev : MacEvent)
    (x y : ℚ × Station) : Prop where
  le : x.1 ≤ y.1
  inTime : x.2.InTime y.1
  due : x.2.Due y.1 ev
  ok : ok y.1 x.2 ev
  step : ∃ e, x.2.step c y.1 e ev = some y.2

abbrev MacPath (c : MacConf) (ok : ℚ → Station → MacEvent → Prop) :
    ℚ × Station → ℚ × Station → Prop :=
  Relation.ReflTransGen fun x y => ∃ ev, MacStep c ok ev x y

def newAir (s s' : Station) : List Frame :=
  (s'.log.drop s.log.length).filterMap fun | .air p => some p | _ => none

variable {c : MacConf} {ok : ℚ → Station → MacEvent → Prop} {t : ℚ} {e : MacEnv} {ev : MacEvent}
  {s s' s₁ : Station} {p q : Frame} {x y z : ℚ × Station}

theorem MacReachable.next (h : MacReachable c ok x.1 x.2) (hs : MacStep c ok ev x y) :
    MacReachable c ok y.1 y.2 := by
  obtain ⟨e, he⟩ := hs.step
  exact .step hs.le hs.inTime hs.due hs.ok he h

theorem MacReachable.path (h : MacReachable c ok x.1 x.2) (hp : MacPath c ok x y) :
    MacReachable c ok y.1 y.2 := by
  induction hp with
  | refl => exact h
  | tail _ hstep ih =>
    obtain ⟨ev, hev⟩ := hstep
    exact ih.next hev

theorem MacStep.run [∀ t s ev, Decidable (ok t s ev)] {t' : ℚ}
    (hr : x.2.run c ok x.1 [(t', ev)] = some y) : MacStep c ok ev x y := by
  unfold Station.run at hr
  split at hr
  · next hgo =>
    obtain ⟨s', hs', hrest⟩ := Option.bind_eq_some_iff.mp hr
    obtain rfl := Option.some.inj hrest
    exact ⟨hgo.1, hgo.2.1, hgo.2.2.1, hgo.2.2.2, {}, hs'⟩
  · cases hr

theorem MacPath.run [∀ t s ev, Decidable (ok t s ev)] {evs : List (ℚ × MacEvent)}
    (hr : x.2.run c ok x.1 evs = some y) : MacPath c ok x y := by
  induction evs generalizing x with
  | nil =>
    obtain rfl := Option.some.inj hr
    exact .refl
  | cons i evs ih =>
    obtain ⟨t', ev⟩ := i
    unfold Station.run at hr
    split at hr
    · next hgo =>
      obtain ⟨s', hs', hrest⟩ := Option.bind_eq_some_iff.mp hr
      have hstep : MacStep c ok ev x (t', s') :=
        ⟨hgo.1, hgo.2.1, hgo.2.2.1, hgo.2.2.2, {}, hs'⟩
      have hpath : MacPath c ok (t', s') y := ih hrest
      exact .head ⟨ev, hstep⟩ hpath
    · cases hr

/-! ## Runs -/

structure MacRun (c : MacConf) (ok : ℚ → Station → MacEvent → Prop) where
  state : ℕ → ℚ × Station
  event : ℕ → MacEvent
  length : ℕ
  start : ∃ w n k, state 0 = (0, Station.init c w n k)
  step : ∀ i < length, MacStep c ok (event i) (state i) (state (i + 1))

theorem MacRun.reachable (r : MacRun c ok) {i : ℕ} (hi : i ≤ r.length) :
    MacReachable c ok (r.state i).1 (r.state i).2 := by
  induction i with
  | zero =>
    obtain ⟨w, n, k, hstart⟩ := r.start
    rw [hstart]
    exact .init w n k
  | succ i ih => exact (ih (by omega)).next (r.step i (by omega))

theorem MacRun.extend (r : MacRun c ok) (hs : MacStep c ok ev (r.state r.length) y) :
    ∃ r' : MacRun c ok, r'.length = r.length + 1 ∧ r'.state r.length = r.state r.length ∧
      r'.state (r.length + 1) = y := by
  let state : ℕ → ℚ × Station := fun i => if i ≤ r.length then r.state i else y
  have hbefore : ∀ i ≤ r.length, state i = r.state i := fun i hi => if_pos hi
  have hlast : state (r.length + 1) = y := if_neg (by omega)
  refine ⟨⟨state, fun i => if i < r.length then r.event i else ev, r.length + 1, ?_, ?_⟩, rfl,
    hbefore _ le_rfl, hlast⟩
  · rw [hbefore 0 (by omega)]
    exact r.start
  · intro i hi
    rw [hbefore i (by omega)]
    by_cases hlt : i < r.length
    · rw [hbefore (i + 1) hlt, if_pos hlt]
      exact r.step i hlt
    · obtain rfl : i = r.length := by omega
      rw [hlast, if_neg hlt]
      exact hs

theorem MacReachable.exists_run (h : MacReachable c ok t s) :
    ∃ r : MacRun c ok, r.state r.length = (t, s) := by
  induction h with
  | init w n k =>
    exact ⟨⟨fun _ => (0, Station.init c w n k), fun _ => .navTimer, 0, ⟨w, n, k, rfl⟩, nofun⟩, rfl⟩
  | @step t t' s s' e ev ht htime hdue hok hstep _ ih =>
    obtain ⟨r, hr⟩ := ih
    have hs : MacStep c ok ev (r.state r.length) (t', s') := by
      rw [hr]
      exact ⟨ht, htime, hdue, hok, e, hstep⟩
    obtain ⟨r', hlen, -, hlast⟩ := r.extend hs
    exact ⟨r', hlen ▸ hlast⟩

theorem MacStep.exists_run (hx : MacReachable c ok x.1 x.2) (hs : MacStep c ok ev x y) :
    ∃ r : MacRun c ok, ∃ n < r.length, r.state n = x ∧ r.state (n + 1) = y := by
  obtain ⟨r, hr⟩ := hx.exists_run
  have hlater : MacStep c ok ev (r.state r.length) y := by
    rw [hr]
    exact hs
  obtain ⟨r', hlen, hbefore, hlast⟩ := r.extend hlater
  exact ⟨r', r.length, by omega, hbefore.trans hr, hlast⟩

namespace Station

/-! ## Nothing goes on the air -/

def Won (c : MacConf) (p : Frame) (s : Station) : Prop :=
  s.pktRTS = none ∧ s.pktTx = some p ∧ ¬ c.Short p ∧ s.txState ≠ .send

/-- Nothing goes on the air, and the NAV is not shortened. -/
structure Calm (s s' : Station) : Prop where
  log : ∃ os : List MacLog, (∀ p, MacLog.air p ∉ os) ∧ s'.log = s.log ++ os
  nav : s.nav ≤ s'.nav

/-- In addition no packet wins the medium, except as `g` says, and no answer to an RTS is newly
awaited. -/
structure Silent (c : MacConf) (g : Frame → Prop) (s s' : Station) : Prop extends Calm s s' where
  won : ∀ p, s'.Won c p → s.Won c p ∨ g p
  asked : s'.txState = .rts →
    s.txState = .rts ∧ (s.pktRTS.isSome → s'.pktRTS.isSome ∧ s'.pktTx = s.pktTx)

variable {g : Frame → Prop}

theorem Calm.refl : s.Calm s := ⟨⟨[], by simp, by simp⟩, le_rfl⟩

theorem Calm.trans (h : s.Calm s₁) (h' : s₁.Calm s') : s.Calm s' := by
  obtain ⟨⟨os, hos, hl⟩, hn⟩ := h
  obtain ⟨⟨os', hos', hl'⟩, hn'⟩ := h'
  refine ⟨⟨os ++ os', fun p hp => ?_, by rw [hl', hl, List.append_assoc]⟩, hn.trans hn'⟩
  exact (List.mem_append.mp hp).elim (hos p) (hos' p)

theorem Calm.of_eq (hl : s'.log = s.log) (hn : s'.nav = s.nav) : s.Calm s' :=
  ⟨⟨[], by simp, by rw [hl, List.append_nil]⟩, hn.ge⟩

theorem Calm.note {o : MacLog} (ho : ∀ p, o ≠ .air p) : s.Calm (s.note o) := by
  refine ⟨⟨[o], fun p hp => ?_, rfl⟩, le_rfl⟩
  exact ho p (List.mem_singleton.mp hp).symm

theorem Calm.newAir (h : s.Calm s') : newAir s s' = [] := by
  obtain ⟨os, hos, hl⟩ := h.log
  unfold AodvUU.newAir
  rw [hl, List.drop_left, List.filterMap_eq_nil_iff]
  intro o ho
  split
  · exact absurd ho (hos _)
  · rfl

theorem Silent.trans (h : s.Silent c g s₁) (h' : s₁.Silent c g s') : s.Silent c g s' := by
  refine ⟨h.toCalm.trans h'.toCalm, fun p hp => ?_, fun hr => ?_⟩
  · exact (h'.won p hp).elim (h.won p) .inr
  · obtain ⟨hr₁, htx₁⟩ := h'.asked hr
    obtain ⟨hr₀, htx₀⟩ := h.asked hr₁
    refine ⟨hr₀, fun hsome => ?_⟩
    obtain ⟨hrts, htx⟩ := htx₀ hsome
    obtain ⟨hrts', htx'⟩ := htx₁ hrts
    exact ⟨hrts', htx'.trans htx⟩

theorem Silent.of_eq (h : s.Calm s') (htx : s'.txState = s.txState) (hrts : s'.pktRTS = s.pktRTS)
    (hp : s'.pktTx = s.pktTx) : s.Silent c g s' := by
  refine ⟨h, fun p hwon => .inl ?_, fun hr => ⟨htx ▸ hr, fun hsome => ⟨hrts ▸ hsome, hp⟩⟩⟩
  obtain ⟨hr, ht, hlong, hs⟩ := hwon
  exact ⟨hrts ▸ hr, hp ▸ ht, hlong, htx ▸ hs⟩

theorem Silent.of_core (h : s.Calm s') (heq : s'.core = s.core) : s.Silent c g s' :=
  .of_eq h (congrArg (·.txState) heq) (congrArg (·.pktRTS) heq) (congrArg (·.pktTx) heq)

theorem Silent.untimed (h : s₁.Silent c g s') (hl : s₁.log = s.log) (hn : s₁.nav = s.nav)
    (htx : s₁.txState = s.txState) (hrts : s₁.pktRTS = s.pktRTS) (hp : s₁.pktTx = s.pktTx) :
    s.Silent c g s' :=
  (Silent.of_eq (.of_eq hl hn) htx hrts hp).trans h

theorem Silent.mono {g' : Frame → Prop} (h : s.Silent c g s') (hg : ∀ q, g q → g' q) :
    s.Silent c g' s' :=
  ⟨h.toCalm, fun p hp => (h.won p hp).imp_right (hg p), h.asked⟩

theorem checkBackoffTimer_calm : s.Calm (s.checkBackoffTimer c t) := by
  obtain ⟨b, hb⟩ := checkBackoffTimer_eq (c := c) (t := t) (s := s)
  rw [hb]
  exact .of_eq rfl rfl

theorem setRxState_silent (x : MacState) : s.Silent c g (s.setRxState c t x) := by
  obtain ⟨b, hb⟩ := setRxState_eq (c := c) (t := t) (s := s) x
  rw [hb]
  exact .of_eq (.of_eq rfl rfl) rfl rfl rfl

theorem setNav_calm (us : BitVec 16) : s.Calm (s.setNav t us) := by
  unfold setNav
  split
  · next hlt => exact ⟨⟨[], by simp, by simp⟩, hlt.le⟩
  · exact .refl

theorem setNav_silent (us : BitVec 16) : s.Silent c g (s.setNav t us) := by
  refine .of_eq (setNav_calm us) ?_ ?_ ?_ <;>
  · unfold setNav
    split <;> rfl

theorem le_setNav (us : BitVec 16) : t + sec us ≤ (s.setNav t us).nav := by
  unfold setNav
  split
  · exact le_rfl
  · next hle => exact not_lt.mp hle

theorem discard_calm (why : MacDrop) : s.Calm (s.discard c p why) := by
  have hdrop : s.Calm (s.note (.drop p why)) := .note (by simp)
  unfold discard
  split
  · exact .refl
  · split
    · exact .refl
    all_goals
      split
      · exact hdrop
      · exact .refl

theorem discard_silent (why : MacDrop) : s.Silent c g (s.discard c p why) :=
  .of_core (discard_calm why) (discard_core why)

theorem Waits.calm (h : s.Waits s') : s.Calm s' :=
  .of_eq (congrArg Sender.log h.sender) h.nav

theorem startRecv_silent {x : ℚ} (h : s.startRecv t x = some s') : s.Silent c g s' := by
  obtain ⟨-, rfl⟩ := startRecv_cases h
  exact .of_eq (.of_eq rfl rfl) rfl rfl rfl

theorem collision_silent (h : s.collision c t p = some s') : s.Silent c g s' := by
  obtain ⟨s₁, hs₁, hend⟩ := collision_cases h
  have hrx : s.Silent c g s₁ := by
    obtain rfl | rfl := hs₁
    · exact .of_core .refl rfl
    · exact setRxState_silent _
  obtain rfl | ⟨q, hstart⟩ := hend
  · exact hrx.trans (discard_silent _)
  · have hstop : s₁.Silent c g { s₁ with mhRecv := none } := .of_eq (.of_eq rfl rfl) rfl rfl rfl
    have hdis : Silent c g { s₁ with mhRecv := none }
      (discard c q .collision { s₁ with mhRecv := none }) := discard_silent _
    refine hrx.trans (hstop.trans (hdis.trans (.trans ?_ (startRecv_silent hstart))))
    exact .of_eq (.of_eq rfl rfl) rfl rfl rfl

theorem recvFrame_silent (h : s.recvFrame c t p = some s') : s.Silent c g s' := by
  have hheard : s.Silent c g (s.note (.heard p)) := .of_core (.note (by simp)) rfl
  obtain ⟨s₁, q, rfl, -, ⟨-, hstart⟩ | rfl | hcoll⟩ := recvFrame_cases h
  · refine hheard.trans (.trans (setRxState_silent (t := t) .recv)
      (.trans ?_ (startRecv_silent hstart)))
    exact .of_eq (.of_eq rfl rfl) rfl rfl rfl
  · exact hheard.trans (setNav_silent _)
  · exact hheard.trans (collision_silent hcoll)

theorem deliver_silent : s.Silent c g (s.deliver c p) := by
  refine .of_core ?_ deliver_core
  have hup : s.Calm (s.note (.up p)) := .note (by simp)
  unfold deliver
  split
  · exact hup
  · split
    · split
      · exact discard_calm _
      · exact ⟨hup.log, hup.nav⟩
    · exact hup

/-! ## A packet from above -/

theorem send_calm {k : ℕ} (h : s.send c t k p = some s') : s.Calm s' ∧ s'.txState = s.txState ∧
    ∀ q, s'.pktRTS = none → s'.pktTx = some q → c.Short q := by
  obtain ⟨htx, hrts, -⟩ := send_cases h
  rw [send_eq htx hrts] at h
  have hw := await_waits h
  have htaken : s.Calm (s.taken c p) :=
    ⟨⟨[.accept (s.sender.numbered c p)], by simp, rfl⟩, le_rfl⟩
  refine ⟨htaken.trans hw.calm, hw.txState, fun q hnone hq => ?_⟩
  by_contra hlong
  have hrts' : (s.taken c p).pktRTS = none := (congrArg Sender.pktRTS hw.sender).symm.trans hnone
  have hq' : (s.taken c p).pktTx = some q := (congrArg Sender.pktTx hw.sender).symm.trans hq
  exact taken_not_cleared (b := (s.taken c p).mhBackoff) ⟨hrts', q, hq', hlong⟩

theorem send_silent {k : ℕ} (h : s.send c t k p = some s') : s.Silent c g s' := by
  obtain ⟨hcalm, htx, hshort⟩ := send_calm h
  refine ⟨hcalm, fun q hwon => absurd (hshort q hwon.1 hwon.2.1) hwon.2.2.1, fun hr => ?_⟩
  refine ⟨htx ▸ hr, fun hsome => ?_⟩
  rw [(send_cases h).2.1] at hsome
  cases hsome

/-! ## Resuming -/

theorem resumeNext_calm (h : s.resumeNext c t e = some s') : s.Calm s' ∧
    ∀ p, s'.pktRTS = none → s'.pktTx = some p → ¬ c.Short p → s.pktRTS = none ∧ s.pktTx = some p := by
  have hwaits : ∀ s₁, s.Waits s₁ → s.Calm s₁ ∧ ∀ p, s₁.pktRTS = none → s₁.pktTx = some p →
      ¬ c.Short p → s.pktRTS = none ∧ s.pktTx = some p := fun s₁ hw =>
    ⟨hw.calm, fun p hr hp _ => ⟨(congrArg Sender.pktRTS hw.sender).symm.trans hr,
      (congrArg Sender.pktTx hw.sender).symm.trans hp⟩⟩
  obtain rfl | hdefer | hcontend | ⟨-, -, hnext⟩ := resumeNext_cases h
  · exact hwaits _ .refl
  · exact hwaits s' (startDefer_waits hdefer)
  · exact hwaits s' (contend_waits hcontend)
  · have hready : s.Calm ({ s with callback := false }.note .ready) :=
      ⟨⟨[.ready], by simp, rfl⟩, le_rfl⟩
    obtain rfl | ⟨q, hsend⟩ := hnext
    · exact ⟨hready, fun p hr hp _ => ⟨hr, hp⟩⟩
    · obtain ⟨hcalm, -, hshort⟩ := send_calm hsend
      exact ⟨hready.trans hcalm, fun p hr hp hlong => absurd (hshort p hr hp) hlong⟩

theorem txResume_silent {s₀ : Station} (h : s.txResume c t e = some s') (hcalm : s₀.Calm s)
    (hwon : ∀ p, s.pktRTS = none → s.pktTx = some p → ¬ c.Short p → s₀.Won c p ∨ g p) :
    s₀.Silent c g s' := by
  obtain ⟨s₁, hs₁, rfl⟩ := txResume_cases h
  obtain ⟨hresume, hsame⟩ := resumeNext_calm hs₁
  have hidle : Calm s₁ (s₁.setTxState c t .idle) :=
    (show s₁.Calm { s₁ with txState := .idle } from .of_eq rfl rfl).trans checkBackoffTimer_calm
  refine ⟨hcalm.trans (hresume.trans hidle), fun p hp => ?_, fun hr => ?_⟩
  · obtain ⟨hrts, htx, hlong, -⟩ := hp
    have hsender := setTxState_sender (c := c) (t := t) (s := s₁) .idle
    have hrts₁ : s₁.pktRTS = none := (congrArg Sender.pktRTS hsender).symm.trans hrts
    have htx₁ : s₁.pktTx = some p := (congrArg Sender.pktTx hsender).symm.trans htx
    obtain ⟨hr, ht⟩ := hsame p hrts₁ htx₁ hlong
    exact hwon p hr ht hlong
  · rw [setTxState_txState] at hr
    cases hr

/-! ## Retransmission -/

theorem giveUp_calm {reason : XmitReason} : s.Calm (s.giveUp c p reason) := by
  have hfreed : ∀ s₁ : Station, s₁.Calm (note (.freed p) { s₁ with pktTx := none }) := fun s₁ =>
    ⟨⟨[.freed p], by simp, rfl⟩, le_rfl⟩
  unfold giveUp
  split
  · exact (Calm.note (by simp)).trans ((discard_calm _).trans (hfreed _))
  · exact (discard_calm _).trans (hfreed _)

theorem setRcount_calm {k : ℕ} : s.Calm (s.setRcount c p k) := by
  unfold setRcount
  split <;> exact .of_eq rfl rfl

theorem retransmitRTS_calm (h : s.retransmitRTS c t = some s') :
    s.Calm s' ∧ (s'.pktRTS = none → s'.pktTx = none) := by
  obtain ⟨p, r, -, -, ⟨-, rfl⟩ | ⟨-, hback⟩⟩ := retransmitRTS_cases h
  · have hcut : s.Calm { s.discard c r .retryCountExceeded with pktRTS := none } :=
      (discard_calm _).trans (.of_eq rfl rfl)
    refine ⟨hcut.trans (giveUp_calm.trans (.of_eq rfl rfl)), fun _ => ?_⟩
    have hgive : (giveUp c p .rts { s.discard c r .retryCountExceeded with pktRTS := none }).core =
        core { s.discard c r .retryCountExceeded with pktRTS := none, pktTx := none } := giveUp_core
    exact congrArg (·.pktTx) hgive
  · have hw := startBackoff_waits hback
    refine ⟨.trans ?_ hw.calm, fun hnone => ?_⟩
    · exact .of_eq rfl rfl
    rw [show s'.pktRTS = _ from congrArg Sender.pktRTS hw.sender] at hnone
    cases hnone

theorem retransmitDATA_calm (h : s.retransmitDATA c t = some s') :
    s.Calm s' ∧ ∀ p, s'.pktRTS = none → s'.pktTx = some p → c.Short p := by
  obtain ⟨p, -, -, ⟨-, hback⟩ | ⟨-, -, rfl⟩ | ⟨-, -, s₁, hs₁, hback⟩⟩ := retransmitDATA_cases h
  · have hw := startBackoff_waits hback
    refine ⟨.trans ?_ hw.calm, fun q _ hq => ?_⟩
    · exact ⟨⟨[.freed p], by simp, rfl⟩, le_rfl⟩
    rw [show s'.pktTx = none from congrArg Sender.pktTx hw.sender] at hq
    cases hq
  · refine ⟨giveUp_calm.trans (setRcount_calm.trans (.of_eq rfl rfl)), fun q _ hq => ?_⟩
    have hset := setRcount_core (c := c) (p := p) (s := s.giveUp c p .ack) (k := 0)
    have hgive : (s.giveUp c p .ack).core = core { s with pktTx := none } := giveUp_core
    have hnone : (((s.giveUp c p .ack).setRcount c p 0).rstCw c).pktTx = none :=
      (congrArg (·.pktTx) hset).trans (congrArg (·.pktTx) hgive)
    rw [hnone] at hq
    cases hq
  · have hw := startBackoff_waits hback
    have hcount : s.Calm { s.setRcount c p (s.rcount c p + 1) with
        pktTx := some { p with retry := true } } := setRcount_calm.trans (.of_eq rfl rfl)
    obtain ⟨q, hq, hrts, ⟨hshort, rfl⟩ | ⟨hlong, rfl⟩⟩ := sendRTS_cases hs₁
    · obtain rfl := Option.some.inj hq
      refine ⟨hcount.trans (.trans ?_ hw.calm), fun x _ hx => ?_⟩
      · exact .of_eq rfl rfl
      rw [show s'.pktTx = _ from congrArg Sender.pktTx hw.sender] at hx
      obtain rfl := Option.some.inj hx
      exact hshort
    · refine ⟨hcount.trans (.trans ?_ hw.calm), fun x hx _ => ?_⟩
      · exact .of_eq rfl rfl
      rw [show s'.pktRTS = _ from congrArg Sender.pktRTS hw.sender] at hx
      cases hx

/-! ## Frames received -/

theorem won_of_not_send (htx : s.txState ≠ .send) : ∀ p, s.pktRTS = none → s.pktTx = some p →
    ¬ c.Short p → s.Won c p ∨ g p :=
  fun _ hr hp hlong => .inl ⟨hr, hp, hlong, htx⟩

theorem recvRTS_silent (h : s.recvRTS c t e p = some s') : s.Silent c g s' := by
  obtain rfl | ⟨hidle, hresume⟩ := recvRTS_cases h
  · exact discard_silent _
  · refine txResume_silent hresume (.of_eq rfl rfl) ?_
    exact won_of_not_send (s := s) (by simp [hidle])

theorem recvCTS_silent (h : s.recvCTS c t e p = some s')
    (hg : s.txState = .rts → ∀ q, s.pktTx = some q → g q) : s.Silent c g s' := by
  obtain rfl | ⟨hrts, -, hresume⟩ := recvCTS_cases h
  · exact discard_silent _
  · exact txResume_silent hresume (.of_eq rfl rfl) fun q _ hq _ => .inr (hg hrts q hq)

theorem recvACK_silent (h : s.recvACK c t e p = some s') : s.Silent c g s' := by
  obtain rfl | ⟨-, q, s₁, -, hback, hresume⟩ := recvACK_cases h
  · exact discard_silent _
  · have hw := startBackoff_waits hback
    have hstop : s.Calm { s with mhSend := none } := .of_eq rfl rfl
    have hcount : s.Calm (setRcount c q 0 { s with mhSend := none }) := hstop.trans setRcount_calm
    have hfreed : s.Calm ((note (.freed q) { setRcount c q 0 { s with mhSend := none } with
        pktTx := none }).rstCw c) := hcount.trans ⟨⟨[.freed q], by simp, rfl⟩, le_rfl⟩
    refine txResume_silent hresume (hfreed.trans hw.calm) fun x _ hx _ => ?_
    rw [show s₁.pktTx = none from congrArg Sender.pktTx hw.sender] at hx
    cases hx

theorem ackAfterCts_silent {dst : BitVec 32} (h : s.ackAfterCts c t e dst = some s')
    (hcts : s.txState = .cts) : s.Silent c g s' := by
  refine txResume_silent (ackAfterCts_cases h) (.of_eq rfl rfl) ?_
  exact won_of_not_send (s := s) (by simp [hcts])

theorem ackShort_silent {dst : BitVec 32} (h : s.ackShort c t e dst = some s') (ha : s.Armed) :
    s.Silent c g s' := by
  obtain rfl | ⟨hquiet, hresume⟩ := ackShort_cases h
  · exact .of_eq (.of_eq rfl rfl) rfl rfl rfl
  · refine txResume_silent hresume (.of_eq rfl rfl) ?_
    exact won_of_not_send (s := s) fun hs => by simpa [hquiet] using ha hs

theorem recvDATA_silent (h : s.recvDATA c t e p = some s') (ha : s.Armed) : s.Silent c g s' := by
  obtain ⟨q, -, rfl | rfl | ⟨s₁, rfl, ⟨hcts, hack⟩ | hack⟩⟩ := recvDATA_cases h
  · exact deliver_silent
  · exact discard_silent _
  · exact (ackAfterCts_silent hack hcts).trans deliver_silent
  · exact (ackShort_silent hack ha).trans deliver_silent

theorem overheard_silent (h : s.received c t e p = some s') (ha : s.Armed)
    (hg : p.kind = .cts → (p.ra = c.index ∨ p.ra = macBroadcast) → s.txState = .rts →
      ∀ q, s.pktTx = some q → g q) :
    Silent c g (if p.ra = c.index then s else s.setNav t p.duration) s' := by
  obtain ⟨s₁, hs₁, hend⟩ := received_cases h
  rw [← hs₁]
  have hnav : s.Beside s₁ ∧ s.pktTx = s₁.pktTx := by
    rw [hs₁]
    split
    · exact ⟨.refl, rfl⟩
    · exact ⟨setNav_beside _, (congrArg Sender.pktTx (setNav_sender _)).symm⟩
  obtain ⟨hbeside, htx⟩ := hnav
  obtain rfl | ⟨hus, ⟨-, hrts⟩ | ⟨hk, hcts⟩ | ⟨-, hack⟩ | ⟨-, hdata⟩ | ⟨-, rfl⟩⟩ := hend
  · exact discard_silent _
  · exact recvRTS_silent hrts
  · exact recvCTS_silent hcts fun hr q hq => hg hk hus (hbeside.txState ▸ hr) q (htx.trans hq)
  · exact recvACK_silent hack
  · exact recvDATA_silent hdata (ha.of_eq hbeside.txState hbeside.mhSend)
  · exact .of_eq (.of_eq rfl rfl) rfl rfl rfl

theorem received_silent (h : s.received c t e p = some s') (ha : s.Armed)
    (hg : p.kind = .cts → (p.ra = c.index ∨ p.ra = macBroadcast) → s.txState = .rts →
      ∀ q, s.pktTx = some q → g q) : s.Silent c g s' := by
  refine .trans ?_ (overheard_silent h ha hg)
  split
  · exact .of_core .refl rfl
  · exact setNav_silent _

/-! ## Events -/

/-- A CTS to the station comes through while it waits for one. -/
def HearsCts (c : MacConf) (s : Station) : Prop :=
  s.txState = .rts ∧ s.txActive = false ∧ s.rxState = .recv ∧
    ∃ q, s.pktRx = some q ∧ q.error = false ∧ q.kind = .cts ∧ (q.ra = c.index ∨ q.ra = macBroadcast)

theorem arrived_silent (h : s.arrived c t e p = some s') (ha : s.Armed)
    (hrx : s.rxState = .recv ∨ s.rxState = .coll) (hp : s.pktRx = some p) :
    s.Silent c (fun q => s.HearsCts c ∧ s.pktTx = some q) s' := by
  obtain rfl | rfl | rfl | ⟨hactive, hcoll, herr, hthrough⟩ := arrived_cases h
  · exact .of_core .refl rfl
  · exact (discard_silent _).trans (setNav_silent _)
  · exact setNav_silent _
  · exact received_silent hthrough ha fun hk hra htx q hq =>
      ⟨⟨htx, hactive, hrx.resolve_right hcoll, p, hp, herr, hk, hra⟩, hq⟩

theorem recvTimer_silent (h : s.recvTimer c t e = some s') (ha : s.Armed) :
    s.Silent c (fun q => s.HearsCts c ∧ s.pktTx = some q) s' := by
  obtain ⟨p, s₁, hp, hrx, hs₁, rfl⟩ := recvTimer_cases h
  refine (arrived_silent hs₁ ha hrx hp).trans (.trans ?_ (setRxState_silent _))
  exact .of_eq (.of_eq rfl rfl) rfl rfl rfl

theorem sendTimer_silent (h : s.sendTimer c t e = some s') : s.Silent c g s' := by
  obtain ⟨s₁, hs₁, hresume⟩ := Option.bind_eq_some_iff.mp h
  obtain ⟨-, hretry⟩ | ⟨hreply, rfl⟩ | ⟨-, hretry⟩ | ⟨hidle, rfl⟩ := sendEnded_cases hs₁
  · obtain ⟨hcalm, hnone⟩ := retransmitRTS_calm hretry
    refine txResume_silent hresume hcalm fun p hr hp _ => ?_
    rw [hnone hr] at hp
    cases hp
  · have hns : s.txState ≠ .send := by obtain hx | hx := hreply <;> simp [hx]
    exact txResume_silent hresume (.of_eq rfl rfl) (won_of_not_send (s := s) hns)
  · obtain ⟨hcalm, hshort⟩ := retransmitDATA_calm hretry
    exact txResume_silent hresume hcalm fun p hr hp hlong => absurd (hshort p hr hp) hlong
  · exact txResume_silent hresume .refl (won_of_not_send (by simp [hidle]))

theorem navHandler_silent : s.Silent c g (s.navHandler c t) := by
  obtain hn | hn := navHandler_cases (c := c) (t := t) (s := s) <;>
  · rw [hn]
    exact .of_eq (.of_eq rfl rfl) rfl rfl rfl

theorem recv_silent {dir : Direction} (h : s.recv c t e dir p = some s') : s.Silent c g s' := by
  obtain ⟨mac, q, -, hend⟩ := recv_cases h
  have hmac : s.Silent c g { s with mac } := .of_eq (.of_eq rfl rfl) rfl rfl rfl
  obtain rfl | ⟨-, hsend⟩ | ⟨-, hbegin⟩ := hend
  · exact hmac
  · exact hmac.trans (send_silent hsend)
  · exact hmac.trans (recvFrame_silent hbegin)

/-! ## One frame goes on the air -/

/-- But for an ACK and noise the medium is idle, and a long packet has won it. -/
structure Airs (c : MacConf) (t : ℚ) (q : Frame) (s s' : Station) : Prop where
  log : s'.log = s.log ++ [.air q]
  nav : s'.nav = s.nav
  packet : s'.pktTx = s.pktTx
  request : s'.pktRTS = s.pktRTS
  idle : q.kind = .ack ∨ q.kind = .noise ∨ s.isIdle t = true
  won : ∀ p, s'.Won c p → s.Won c p ∧ q.kind ≠ .rts ∧ q.kind ≠ .data
  asked : s'.txState = .rts →
    s.pktRTS = some q ∨ s.txState = .rts ∧ q.kind ≠ .rts ∧ q.kind ≠ .data
  data : q.kind = .data → ¬ c.Short q → s.Won c q

theorem newAir_of_log (h : s'.log = s.log ++ [.air q]) : newAir s s' = [q] := by
  unfold AodvUU.newAir
  rw [h, List.drop_left]
  rfl

theorem Airs.untimed (h : s₁.Airs c t q s') (hl : s₁.log = s.log) (hn : s₁.nav = s.nav)
    (htx : s₁.txState = s.txState) (hrx : s₁.rxState = s.rxState) (hrts : s₁.pktRTS = s.pktRTS)
    (hp : s₁.pktTx = s.pktTx) : s.Airs c t q s' := by
  have hwon : ∀ p, s₁.Won c p ↔ s.Won c p := by
    intro p
    unfold Won
    rw [hrts, hp, htx]
  have hidle : s₁.isIdle t = s.isIdle t := by
    unfold isIdle
    rw [hrx, htx, hn]
  exact ⟨hl ▸ h.log, h.nav.trans hn, h.packet.trans hp, h.request.trans hrts, hidle ▸ h.idle,
    fun p hp => (h.won p hp).imp_left (hwon p).mp, htx ▸ hrts ▸ h.asked,
    fun hd hlong => (hwon q).mp (h.data hd hlong)⟩

theorem Airs.newAir (h : s.Airs c t q s') : newAir s s' = [q] := newAir_of_log h.log

theorem transmit_airs {x : ℚ} {y : MacState} (h : (s.setTxState c t y).transmit t q x = some s') :
    s'.log = s.log ++ [.air q] ∧ s'.nav = s.nav ∧ s'.pktTx = s.pktTx ∧ s'.pktRTS = s.pktRTS ∧
      s'.txState = y := by
  obtain ⟨b, hb⟩ := checkBackoffTimer_eq (c := c) (t := t) (s := { s with txState := y })
  unfold setTxState at h
  rw [hb] at h
  obtain ⟨-, rfl⟩ := transmit_eq h
  exact ⟨rfl, rfl, rfl, rfl, rfl⟩

theorem checkPktRTS_airs {b : Bool} (h : s.checkPktRTS c t = some (b, s')) :
    s.Silent c g s' ∨ ∃ q, s.Airs c t q s' := by
  obtain ⟨-, -, rfl⟩ | ⟨r, hr, hk, -, ⟨hidle, hout⟩ | ⟨-, hback⟩⟩ := checkPktRTS_cases h
  · exact .inl (.of_core .refl rfl)
  · obtain ⟨hlog, hnav, hp, hrts, -⟩ := transmit_airs hout
    refine .inr ⟨r, hlog, hnav, hp, hrts, .inr (.inr hidle), fun p hwon => ?_,
      fun _ => .inl hr, fun hd => ?_⟩
    · rw [hwon.1, hr] at hrts
      cases hrts
    · rw [hk] at hd
      cases hd
  · obtain ⟨-, rfl⟩ := startBackoff_cases hback
    exact .inl (.of_eq (.of_eq rfl rfl) rfl rfl rfl)

theorem checkPktTx_airs {b : Bool} (h : s.checkPktTx c t = some (b, s')) (hrts : s.pktRTS = none) :
    s.Silent c g s' ∨ ∃ q, s.Airs c t q s' := by
  obtain rfl | ⟨p, hp, -, ⟨hidle, hout⟩ | ⟨-, s₁, hs₁, hback⟩⟩ := checkPktTx_cases h
  · exact .inl (.of_core .refl rfl)
  · obtain ⟨hlog, hnav, hpkt, hreq, htx⟩ := transmit_airs hout
    have hquiet : s.txState ≠ .send := by simp [txState_of_isIdle hidle]
    refine .inr ⟨p, hlog, hnav, hpkt, hreq, .inr (.inr hidle), fun q hwon => ?_, fun hr => ?_,
      fun _ hlong => ⟨hrts, hp, hlong, hquiet⟩⟩
    · exact absurd htx hwon.2.2.2
    · rw [htx] at hr
      cases hr
  · obtain ⟨-, rfl⟩ := startBackoff_cases hback
    obtain ⟨q, hq, -, ⟨-, rfl⟩ | ⟨hlong, rfl⟩⟩ := sendRTS_cases hs₁
    · exact .inl (.of_eq (.of_eq rfl rfl) rfl rfl rfl)
    · refine .inl ⟨.of_eq rfl rfl, fun x hx => (nomatch hx.1), fun hr => ⟨hr, fun hsome => ?_⟩⟩
      rw [hrts] at hsome
      cases hsome

theorem checkBoth_airs (h : s.checkBoth c t = some s') :
    s.Silent c g s' ∨ ∃ q, s.Airs c t q s' := by
  obtain hrts | ⟨hnone, b, hdata⟩ := checkBoth_cases h
  · exact checkPktRTS_airs hrts
  · exact checkPktTx_airs hdata hnone

theorem backoffHandler_airs (h : s.backoffHandler c t = some s') :
    s.Silent c g s' ∨ ∃ q, s.Airs c t q s' := by
  obtain rfl | hboth := backoffHandler_cases h
  · exact .inl (.of_core .refl rfl)
  · exact checkBoth_airs hboth

theorem deferHandler_airs (h : s.deferHandler c t = some s') (ha : s.Armed) :
    s.Silent c g s' ∨ ∃ q, s.Airs c t q s' := by
  obtain hctrl | ⟨-, hboth⟩ := deferHandler_cases h
  · obtain ⟨-, rfl⟩ | ⟨-, ⟨why, q, -, -, -, rfl⟩ | ⟨q, x, y, -, hkind, hy, hout⟩⟩ :=
      checkPktCTRL_cases hctrl
    · exact .inl (.of_core .refl rfl)
    · refine .inl ((discard_silent (p := q) why).trans ?_)
      exact .of_eq (.of_eq rfl rfl) rfl rfl rfl
    · -- Data that is on the air would hold the timer of the transmission.
      obtain ⟨hquiet, -⟩ := transmit_cases hout
      have hsend : s.mhSend = none := by
        rw [← hquiet]
        exact (checkBackoffTimer_mhSend (c := c) (t := t) (s := { s with txState := y })).symm
      have hns : s.txState ≠ .send := fun hs => by simpa [hsend] using ha hs
      obtain ⟨hlog, hnav, hp, hrts, htx⟩ := transmit_airs hout
      have hk : q.kind ≠ .rts ∧ q.kind ≠ .data := by
        obtain ⟨hk, -⟩ | hk := hkind <;> simp [hk]
      refine .inr ⟨q, hlog, hnav, hp, hrts, ?_, fun p hwon => ⟨?_, hk⟩, fun hr => ?_,
        fun hd => absurd hd hk.2⟩
      · exact hkind.elim (fun h => .inr (.inr h.2)) .inl
      · exact ⟨hrts ▸ hwon.1, hp ▸ hwon.2.1, hwon.2.2.1, hns⟩
      · rw [htx] at hr
        obtain rfl | rfl := hy <;> cases hr
  · exact checkBoth_airs hboth

theorem step_airs (h : s.step c t e ev = some s') (ha : s.Armed) :
    s.Silent c (fun q => ev = .recvTimer ∧ s.HearsCts c ∧ s.pktTx = some q) s' ∨
      ∃ q, s.Airs c t q s' := by
  cases ev with
  | send p => exact .inl (recv_silent h)
  | recv p => exact .inl (recv_silent h)
  | recvTimer =>
    have hsilent := recvTimer_silent (s := { s with mhRecv := none }) h (ha.of_eq rfl rfl)
    exact .inl (.untimed (hsilent.mono fun q hg => ⟨rfl, hg⟩) rfl rfl rfl rfl rfl)
  | sendTimer =>
    exact .inl (.untimed (sendTimer_silent (s := { s with mhSend := none }) h) rfl rfl rfl rfl rfl)
  | deferTimer =>
    obtain hsilent | ⟨q, hairs⟩ := deferHandler_airs (s := { s with mhDefer := none }) h
      (ha.of_eq rfl rfl)
    · exact .inl (hsilent.untimed rfl rfl rfl rfl rfl)
    · exact .inr ⟨q, hairs.untimed rfl rfl rfl rfl rfl rfl⟩
  | backoffTimer =>
    obtain hsilent | ⟨q, hairs⟩ := backoffHandler_airs (s := { s with mhBackoff := none }) h
    · exact .inl (hsilent.untimed rfl rfl rfl rfl rfl)
    · exact .inr ⟨q, hairs.untimed rfl rfl rfl rfl rfl rfl⟩
  | navTimer =>
    obtain rfl := Option.some.inj h
    exact .inl (.untimed (navHandler_silent (s := { s with mhNav := none })) rfl rfl rfl rfl rfl)
  | txTimer =>
    obtain rfl := Option.some.inj h
    exact .inl (.of_eq (.of_eq rfl rfl) rfl rfl rfl)
  | noiseTimer =>
    obtain rfl := Option.some.inj h
    refine .inr ⟨c.noiseFrame, rfl, rfl, rfl, rfl, .inr (.inl rfl), fun p hp => ⟨hp, ?_⟩, fun hr => ?_,
      fun hd => nomatch hd⟩
    · simp [MacConf.noiseFrame]
    · exact .inr ⟨hr, by simp [MacConf.noiseFrame]⟩
  | validTimer =>
    obtain rfl := Option.some.inj h
    exact .inl (.of_eq (.of_eq rfl rfl) rfl rfl rfl)

end Station

theorem MacReachable.armed (h : MacReachable c ok t s) : s.Armed := (reachable_moves h).2

def runOn (x : ℚ × Station) (evs : List (ℚ × MacEvent)) : ℚ × Station :=
  (x.2.run (sampleMac 1) (fun _ _ _ => True) x.1 evs).getD x

theorem runOn_eq (x : ℚ × Station) (evs : List (ℚ × MacEvent))
    (h : (x.2.run (sampleMac 1) (fun _ _ _ => True) x.1 evs).isSome) :
    x.2.run (sampleMac 1) (fun _ _ _ => True) x.1 evs = some (runOn x evs) := by
  obtain ⟨y, hy⟩ := Option.isSome_iff_exists.mp h
  unfold runOn
  rw [hy]
  rfl

end AodvUU

import AodvUU.MacDelivery

/-! # What a station keeps

A station is in one of few phases: it rests, waits for the end of a SIFS, or has a frame on the
air. The phase says which timers run, and that no frame can come through while an answer of the
station's own is about to go out. -/
namespace AodvUU

/-- The timer fix is on, and there is time between two frames. -/
structure MacConf.Ok (c : MacConf) : Prop where
  bugFix : c.bugFixTimer = true
  sifs : 0 < c.sifs
  slot : 0 < c.slotTime
  cts : 0 ≤ c.txtime c.ctsLen c.basicRate
  ack : 0 ≤ c.txtime c.ackLen c.basicRate

/-- A frame lasts longer than a SIFS, and the duration of an RTS leaves time for the CTS. -/
def MacConf.Hears (c : MacConf) (p : Frame) : Prop :=
  c.sifs < p.txtime ∧ (p.kind = .rts → c.txtime c.ctsLen c.basicRate ≤
    c.ctsTimeout (c.ctsFrame p.ta p.duration))

def MacConf.Legal (c : MacConf) : MacEvent → Prop
  | .recv p => c.Hears p
  | _ => True

theorem MacConf.Ok.sifs_lt_difs {c : MacConf} (hc : c.Ok) : c.sifs < c.difs := by
  have := hc.slot
  unfold difs
  linarith

theorem MacConf.Ok.txtime_le_dataTimeout {c : MacConf} (hc : c.Ok) (p : Frame) :
    p.txtime ≤ c.dataTimeout p := by
  have hsifs := hc.sifs
  have hack := hc.ack
  unfold MacConf.dataTimeout maxPropagationDelay
  split
  · exact le_rfl
  · linarith

theorem MacConf.Ok.txtime_le_rtsTimeout {c : MacConf} (hc : c.Ok) :
    c.txtime c.rtsLen c.basicRate ≤ c.rtsTimeout := by
  have hsifs := hc.sifs
  have hcts := hc.cts
  unfold MacConf.rtsTimeout maxPropagationDelay
  linarith

/-- A reply that is built, with a timeout that covers it. -/
def MacConf.Reply (c : MacConf) (q : Frame) : Prop :=
  q.kind = .ack ∧ q.txtime = c.txtime c.ackLen c.basicRate ∨
    q.kind = .cts ∧ q.txtime ≤ c.ctsTimeout q

namespace Station

variable (c : MacConf) (t : ℚ)

/-! ## The invariant -/

/-- The medium was won for the packet: it is sent without a further backoff. -/
def Cleared (s : Station) : Prop := s.pktRTS = none ∧ ∃ p, s.pktTx = some p ∧ ¬ c.Short p

def Clean (x : ℚ) (s : Station) : Prop :=
  s.rxState = .recv → ∀ p r, s.pktRx = some p → p.error = false → s.mhRecv = some r → x < r

/-- What the transmitter is at, and which of its timers runs. `woken` says that a packet that
waits has a backoff, unless another timer runs for it. -/
inductive Phase (woken : Prop) (s : Station) : Prop
  | rest (htx : s.txState = .idle) (hctrl : s.pktCTRL = none) (hsend : s.mhSend = none)
      (hdefer : s.mhDefer = none) (hclear : ¬ s.Cleared c)
      (hwoken : woken → s.pktTx.isSome → s.mhBackoff ≠ none)
  | clear (d : ℚ) (htx : s.txState = .idle) (hctrl : s.pktCTRL = none) (hsend : s.mhSend = none)
      (hdefer : s.mhDefer = some d) (hd : d ≤ t + c.sifs) (hclear : s.Cleared c)
      (hback : s.mhBackoff = none) (hclean : s.Clean d)
  | reply (d : ℚ) (q : Frame) (htx : s.txState = .idle) (hctrl : s.pktCTRL = some q)
      (hsend : s.mhSend = none) (hdefer : s.mhDefer = some d) (hd : d ≤ t + c.sifs)
      (hclear : s.Cleared c → q.kind = .ack ∧ s.mhBackoff = none)
  | rts (x : ℚ) (htx : s.txState = .rts) (hctrl : ∀ q, s.pktCTRL = some q → q.kind = .ack)
      (hsend : s.mhSend = some x) (hdefer : s.mhDefer = none) (hback : s.mhBackoff = none)
      (hrts : s.pktRTS.isSome)
  | cts (x : ℚ) (q : Frame) (htx : s.txState = .cts) (hctrl : s.pktCTRL = some q)
      (hkind : q.kind = .cts) (hsend : s.mhSend = some x) (hdefer : s.mhDefer = none)
      (hclear : ¬ s.Cleared c)
  | ack (x : ℚ) (q : Frame) (htx : s.txState = .ack) (hctrl : s.pktCTRL = some q)
      (hkind : q.kind = .ack) (hsend : s.mhSend = some x) (hdefer : s.mhDefer = none)
      (hclear : s.Cleared c → s.mhBackoff = none) (hclean : s.Clean (x + c.sifs))
      (hair : s.mhIF = some x ∧ s.txActive = true ∨ x ≤ t)
  | send (x : ℚ) (p : Frame) (htx : s.txState = .send)
      (hctrl : ∀ q, s.pktCTRL = some q → q.kind = .ack) (hsend : s.mhSend = some x)
      (hdefer : s.mhDefer = none) (hback : s.mhBackoff = none) (hrts : s.pktRTS = none)
      (hp : s.pktTx = some p)

/-- The frames that wait are as they were built, and the station is not a source of noise. -/
structure Built (s : Station) : Prop where
  mode : 0 ≤ s.mac.workMode
  noise : s.mhNoise = none
  reply : ∀ q, s.pktCTRL = some q → c.Reply q
  request : ∀ r, s.pktRTS = some r → r.kind = .rts ∧
    r.txtime = c.txtime c.rtsLen c.basicRate ∧ ∃ p, s.pktTx = some p ∧ ¬ c.Short p
  packet : ∀ p, s.pktTx = some p → p.kind = .data ∧ s.callback = true

structure NavOk (s : Station) : Prop where
  ended : s.mhNav = none → s.nav ≤ t
  runs : ∀ x, s.mhNav = some x → x = s.nav

/-- The interface is busy no longer than the transmitter. -/
structure AirOk (s : Station) : Prop where
  active : ∀ x, s.mhIF = some x → s.txActive = true
  idle : s.txState = .idle → ∀ x, s.mhIF = some x → x ≤ t
  send : ∀ x y, s.mhIF = some x → s.mhSend = some y → x ≤ y
  defer : ∀ x d, s.mhIF = some x → s.mhDefer = some d → x < d

/-- All else that is under way ends before a backoff does. -/
def After (s : Station) : Prop :=
  ∀ b, s.mhBackoff = some b → b.paused = false →
    (∀ d, s.mhDefer = some d → d < b.ready) ∧ ∀ x, s.mhIF = some x → x < b.ready

structure BackOk (s : Station) : Prop where
  paused : ∀ b, s.mhBackoff = some b → b.paused = true →
    s.rxState ≠ .idle ∨ s.txState ≠ .idle ∨ s.mhNav.isSome
  counts : ∀ b, s.mhBackoff = some b → b.paused = false →
    s.rxState = .idle ∧ s.txState = .idle ∧ s.nav ≤ t
  after : s.After

/-- The receiver is idle, or holds a frame and runs its timer. -/
structure RxOk (s : Station) : Prop where
  idle : s.rxState = .idle → s.pktRx = none ∧ s.mhRecv = none
  busy : s.rxState ≠ .idle → (s.rxState = .recv ∨ s.rxState = .coll) ∧ s.pktRx.isSome ∧
    s.mhRecv.isSome
  heard : ∀ p, s.pktRx = some p → c.Hears p

/-- What holds of the transmitter, also while a frame that has ended is looked at. The queue is
called back for the next packet, at the latest after an ACK that is sent first. -/
structure TxOk (woken : Prop) (s : Station) : Prop where
  phase : s.Phase c t woken
  built : s.Built c
  asked : s.callback = true → s.pktTx = none → ∃ q, s.pktCTRL = some q ∧ q.kind = .ack
  nav : s.NavOk t
  air : s.AirOk t
  back : s.BackOk t

structure Sound (woken : Prop) (s : Station) : Prop extends TxOk c t woken s, RxOk c s

variable {c t} {t' : ℚ} {e : MacEnv} {w : Prop} {s s' : Station} {p q : Frame}
  {b : Option Backoff}

theorem isIdle_iff : s.isIdle t = true ↔ s.rxState = .idle ∧ s.txState = .idle ∧ s.nav ≤ t := by
  unfold isIdle
  exact decide_eq_true_iff

theorem Built.of_eq (h : s.Built c) (hmode : s'.mac.workMode = s.mac.workMode)
    (hnoise : s'.mhNoise = s.mhNoise) (hctrl : s'.pktCTRL = s.pktCTRL)
    (hrts : s'.pktRTS = s.pktRTS) (htx : s'.pktTx = s.pktTx) (hcall : s'.callback = s.callback) :
    s'.Built c where
  mode := hmode ▸ h.mode
  noise := hnoise.trans h.noise
  reply := hctrl ▸ h.reply
  request := by rw [hrts, htx]; exact h.request
  packet := by rw [htx, hcall]; exact h.packet

theorem NavOk.of_eq (h : s.NavOk t) (hnav : s'.nav = s.nav) (htimer : s'.mhNav = s.mhNav) :
    s'.NavOk t where
  ended := by rw [hnav, htimer]; exact h.ended
  runs := by rw [hnav, htimer]; exact h.runs

theorem AirOk.of_eq (h : s.AirOk t) (hact : s'.txActive = s.txActive)
    (htx : s'.txState = s.txState) (hIF : s'.mhIF = s.mhIF) (hsend : s'.mhSend = s.mhSend)
    (hdefer : s'.mhDefer = s.mhDefer) : s'.AirOk t where
  active := by rw [hIF, hact]; exact h.active
  idle := by rw [htx, hIF]; exact h.idle
  send := by rw [hIF, hsend]; exact h.send
  defer := by rw [hIF, hdefer]; exact h.defer

theorem BackOk.of_eq (h : s.BackOk t) (hb : s'.mhBackoff = s.mhBackoff)
    (hrx : s'.rxState = s.rxState) (htx : s'.txState = s.txState) (hnav : s'.nav = s.nav)
    (htimer : s'.mhNav = s.mhNav) (hIF : s'.mhIF = s.mhIF) (hdefer : s'.mhDefer = s.mhDefer) :
    s'.BackOk t where
  paused := by rw [hb, hrx, htx, htimer]; exact h.paused
  counts := by rw [hb, hrx, htx, hnav]; exact h.counts
  after := by
    unfold After
    rw [hb, hIF, hdefer]
    exact h.after

theorem NavOk.isSome (h : s.NavOk t) (hlate : ¬ s.nav ≤ t) : s.mhNav.isSome := by
  cases hn : s.mhNav with
  | none => exact absurd (h.ended hn) hlate
  | some x => rfl

theorem NavOk.busy (h : s.NavOk t) (hidle : s.isIdle t = false) :
    s.rxState ≠ .idle ∨ s.txState ≠ .idle ∨ s.mhNav.isSome := by
  by_contra hno
  rw [not_or, not_or, not_not, not_not] at hno
  have hnav : s.nav ≤ t := by
    by_contra hlate
    exact hno.2.2 (h.isSome hlate)
  rw [isIdle_iff.mpr ⟨hno.1, hno.2.1, hnav⟩] at hidle
  cases hidle

theorem Phase.defer_le (h : s.Phase c t w) : ∀ d, s.mhDefer = some d → d ≤ t + c.sifs := by
  intro d hd
  cases h with
  | clear d' _ _ _ hdefer hle | reply d' q _ _ _ hdefer hle =>
    obtain rfl := Option.some.inj (hdefer.symm.trans hd)
    exact hle
  | rest _ _ _ hdefer | rts _ _ _ _ hdefer | cts _ _ _ _ _ _ hdefer | ack _ _ _ _ _ _ hdefer
  | send _ _ _ _ _ hdefer =>
    rw [hdefer] at hd
    cases hd

/-- What the phase depends on, besides a frame that arrives. -/
structure Alike (s s' : Station) : Prop where
  txState : s'.txState = s.txState
  pktCTRL : s'.pktCTRL = s.pktCTRL
  pktRTS : s'.pktRTS = s.pktRTS
  pktTx : s'.pktTx = s.pktTx
  mhSend : s'.mhSend = s.mhSend
  mhDefer : s'.mhDefer = s.mhDefer
  mhIF : s'.mhIF = s.mhIF
  txActive : s'.txActive = s.txActive
  mhBackoff : s'.mhBackoff = none ↔ s.mhBackoff = none

theorem Alike.cleared (h : s.Alike s') : s'.Cleared c ↔ s.Cleared c := by
  unfold Cleared
  rw [h.pktRTS, h.pktTx]

/-- A frame that begins to arrive can be in the way of an answer only when it lasts no longer than
a SIFS, or when the station does not hear it. -/
theorem Phase.alike (h : s.Phase c t w) (ha : s.Alike s') (ht : t ≤ t')
    (hclean : ∀ x, s.Clean x → x ≤ t + c.sifs ∨ s.txActive = true → s'.Clean x) :
    s'.Phase c t' w := by
  have hcleared := ha.cleared (c := c)
  cases h with
  | rest htx hctrl hsend hdefer hclear hwoken =>
    refine .rest (ha.txState.trans htx) (ha.pktCTRL.trans hctrl) (ha.mhSend.trans hsend)
      (ha.mhDefer.trans hdefer) (hcleared.not.mpr hclear) fun hw hp hnone => ?_
    rw [ha.pktTx] at hp
    exact hwoken hw hp (ha.mhBackoff.mp hnone)
  | clear d htx hctrl hsend hdefer hd hclear hback hd' =>
    exact .clear d (ha.txState.trans htx) (ha.pktCTRL.trans hctrl) (ha.mhSend.trans hsend)
      (ha.mhDefer.trans hdefer) (by linarith) (hcleared.mpr hclear) (ha.mhBackoff.mpr hback)
      (hclean d hd' (.inl hd))
  | reply d q htx hctrl hsend hdefer hd hclear =>
    refine .reply d q (ha.txState.trans htx) (ha.pktCTRL.trans hctrl) (ha.mhSend.trans hsend)
      (ha.mhDefer.trans hdefer) (by linarith) fun hc => ?_
    obtain ⟨hkind, hback⟩ := hclear (hcleared.mp hc)
    exact ⟨hkind, ha.mhBackoff.mpr hback⟩
  | rts x htx hctrl hsend hdefer hback hrts =>
    exact .rts x (ha.txState.trans htx) (by rwa [ha.pktCTRL]) (ha.mhSend.trans hsend)
      (ha.mhDefer.trans hdefer) (ha.mhBackoff.mpr hback) (by rwa [ha.pktRTS])
  | cts x q htx hctrl hkind hsend hdefer hclear =>
    exact .cts x q (ha.txState.trans htx) (ha.pktCTRL.trans hctrl) hkind (ha.mhSend.trans hsend)
      (ha.mhDefer.trans hdefer) (hcleared.not.mpr hclear)
  | ack x q htx hctrl hkind hsend hdefer hclear hx hair =>
    refine .ack x q (ha.txState.trans htx) (ha.pktCTRL.trans hctrl) hkind (ha.mhSend.trans hsend)
      (ha.mhDefer.trans hdefer) (fun hc => ha.mhBackoff.mpr (hclear (hcleared.mp hc))) ?_ ?_
    · exact hclean _ hx (hair.elim (fun hact => .inr hact.2) fun hover => .inl (by linarith))
    · rw [ha.mhIF, ha.txActive]
      exact hair.imp_right (·.trans ht)
  | send x p htx hctrl hsend hdefer hback hrts hp =>
    exact .send x p (ha.txState.trans htx) (by rwa [ha.pktCTRL]) (ha.mhSend.trans hsend)
      (ha.mhDefer.trans hdefer) (ha.mhBackoff.mpr hback) (ha.pktRTS.trans hrts)
      (ha.pktTx.trans hp)

/-! ## What changes without a change of phase -/

def core (s : Station) : Station :=
  { s with
    mac := { workMode := s.mac.workMode }
    cw := 0
    ssrc := 0
    slrc := 0
    staSeqno := 0
    cache := fun _ => 0
    mhValid := none
    noisePower := 0
    noiseFlag := false
    log := [] }

theorem Phase.core_iff : s.core.Phase c t w ↔ s.Phase c t w := by
  constructor <;>
  · intro h
    exact h.alike ⟨rfl, rfl, rfl, rfl, rfl, rfl, rfl, rfl, .rfl⟩ le_rfl fun _ hx _ => hx

theorem TxOk.core_iff : s.core.TxOk c t w ↔ s.TxOk c t w := by
  constructor
  · exact fun ⟨hphase, hbuilt, hasked, hnav, hair, hback⟩ =>
      ⟨Phase.core_iff.mp hphase, hbuilt.of_eq rfl rfl rfl rfl rfl rfl, hasked,
        hnav.of_eq rfl rfl, hair.of_eq rfl rfl rfl rfl rfl, hback.of_eq rfl rfl rfl rfl rfl rfl rfl⟩
  · exact fun ⟨hphase, hbuilt, hasked, hnav, hair, hback⟩ =>
      ⟨Phase.core_iff.mpr hphase, hbuilt.of_eq rfl rfl rfl rfl rfl rfl, hasked,
        hnav.of_eq rfl rfl, hair.of_eq rfl rfl rfl rfl rfl, hback.of_eq rfl rfl rfl rfl rfl rfl rfl⟩

theorem TxOk.of_core (h : s.TxOk c t w) (heq : s'.core = s.core) : s'.TxOk c t w := by
  rw [← TxOk.core_iff, heq]
  exact TxOk.core_iff.mpr h

theorem RxOk.of_eq (h : s.RxOk c) (hx : s'.rxState = s.rxState) (hp : s'.pktRx = s.pktRx)
    (hr : s'.mhRecv = s.mhRecv) : s'.RxOk c where
  idle := by rw [hx, hp, hr]; exact h.idle
  busy := by rw [hx, hp, hr]; exact h.busy
  heard := by rw [hp]; exact h.heard

theorem discard_core (why : MacDrop) : (s.discard c p why).core = s.core := by
  obtain ⟨os, -, heq⟩ := discard_eq (c := c) (p := p) (s := s) why
  rw [heq]
  rfl

theorem setRcount_core {k : ℕ} : (s.setRcount c p k).core = s.core := by
  unfold setRcount
  split <;> rfl

theorem deliver_core : (s.deliver c p).core = s.core := by
  unfold deliver
  split
  · rfl
  · split
    · split
      · exact discard_core _
      · rfl
    · rfl

/-! ## The backoff timer -/

theorem after_of_paused (h : ∀ b, s.mhBackoff = some b → b.paused = true) : s.After := by
  intro b hb hp
  rw [h b hb] at hp
  cases hp

theorem BackOk.paused_of_busy (h : s.BackOk t) (hbusy : s.rxState ≠ .idle ∨ s.txState ≠ .idle) :
    ∀ b, s.mhBackoff = some b → b.paused = true := by
  intro b hb
  by_contra hp
  obtain ⟨hrx, htx, -⟩ := h.counts b hb (by simpa using hp)
  exact hbusy.elim (absurd hrx) (absurd htx)

theorem backOk_of_none (h : s.mhBackoff = none) : s.BackOk t := by
  refine ⟨?_, ?_, ?_⟩ <;>
  · intro b hb
    rw [h] at hb
    cases hb

theorem checkBackoffTimer_none :
    (s.checkBackoffTimer c t).mhBackoff = none ↔ s.mhBackoff = none := by
  unfold checkBackoffTimer
  split
  · rfl
  · next b hb =>
    split <;> split <;> simp [hb]

theorem checkBackoffTimer_backOk (hc : c.Ok) (hphase : s.Phase c t w) (hnav : s.NavOk t)
    (hair : s.AirOk t) (hafter : s.After) : (s.checkBackoffTimer c t).BackOk t := by
  have hless := hc.sifs_lt_difs
  have hsifs := hc.sifs
  unfold checkBackoffTimer
  split
  · next hnone => exact backOk_of_none hnone
  · next b hb =>
    split
    · next hidle =>
      have hall := isIdle_iff.mp hidle
      split
      · refine ⟨?_, fun _ _ _ => hall, ?_⟩
        · intro b' hb' hp
          obtain rfl := Option.some.inj hb'
          cases hp
        · -- It begins after a SIFS and after what is on the air.
          intro b' hb' _
          obtain rfl := Option.some.inj hb'
          exact ⟨fun d hd => by linarith [hphase.defer_le d hd],
            fun x hx => by linarith [hair.idle hall.2.1 x hx]⟩
      · next hrun =>
        refine ⟨?_, fun _ _ _ => hall, hafter⟩
        intro b' hb' hp
        obtain rfl := Option.some.inj (hb.symm.trans hb')
        exact absurd hp hrun
    · next hbusy =>
      have hwhy := hnav.busy (by simpa using hbusy)
      split
      · next hpaused =>
        refine ⟨fun _ _ _ => hwhy, ?_, hafter⟩
        intro b' hb' hp
        obtain rfl := Option.some.inj (hb.symm.trans hb')
        rw [hpaused] at hp
        cases hp
      · have hall : ∀ b', some { b with paused := true } = some b' → b'.paused = true := by
          rintro b' ⟨⟩
          rfl
        refine ⟨fun _ _ _ => hwhy, fun b' hb' hp => ?_, after_of_paused hall⟩
        rw [hall b' hb'] at hp
        cases hp

theorem checkBackoffTimer_txOk (hc : c.Ok) (hphase : s.Phase c t w) (hbuilt : s.Built c)
    (hasked : s.callback = true → s.pktTx = none → ∃ q, s.pktCTRL = some q ∧ q.kind = .ack)
    (hnav : s.NavOk t) (hair : s.AirOk t) (hafter : s.After) :
    (s.checkBackoffTimer c t).TxOk c t w := by
  have hback := checkBackoffTimer_backOk hc hphase hnav hair hafter
  have hnone := checkBackoffTimer_none (c := c) (t := t) (s := s)
  obtain ⟨b, hb⟩ := checkBackoffTimer_eq (c := c) (t := t) (s := s)
  rw [hb] at hback hnone ⊢
  exact ⟨hphase.alike ⟨rfl, rfl, rfl, rfl, rfl, rfl, rfl, rfl, hnone⟩ le_rfl fun _ hx _ => hx,
    hbuilt.of_eq rfl rfl rfl rfl rfl rfl, hasked,
    hnav.of_eq rfl rfl, hair.of_eq rfl rfl rfl rfl rfl, hback⟩

theorem checkBackoffTimer_rxOk (h : s.RxOk c) : (s.checkBackoffTimer c t).RxOk c := by
  obtain ⟨b, hb⟩ := checkBackoffTimer_eq (c := c) (t := t) (s := s)
  rw [hb]
  exact h.of_eq rfl rfl rfl

/-! ## Time and the NAV -/

theorem Sound.later (h : s.Sound c t w) (ht : t ≤ t') : s.Sound c t' w where
  phase := h.phase.alike ⟨rfl, rfl, rfl, rfl, rfl, rfl, rfl, rfl, .rfl⟩ ht fun _ hx _ => hx
  built := h.built
  asked := h.asked
  nav := ⟨fun hn => (h.nav.ended hn).trans ht, h.nav.runs⟩
  air := ⟨h.air.active, fun htx x hx => (h.air.idle htx x hx).trans ht, h.air.send, h.air.defer⟩
  back := ⟨h.back.paused, fun b hb hp =>
    ⟨(h.back.counts b hb hp).1, (h.back.counts b hb hp).2.1, (h.back.counts b hb hp).2.2.trans ht⟩,
    h.back.after⟩
  toRxOk := h.toRxOk

theorem TxOk.setNav (h : s.TxOk c t w) (hrx : s.rxState ≠ .idle) (us : BitVec 16) :
    (s.setNav t us).TxOk c t w := by
  unfold Station.setNav
  split
  · refine ⟨h.phase.alike ⟨rfl, rfl, rfl, rfl, rfl, rfl, rfl, rfl, .rfl⟩ le_rfl fun _ hx _ => hx,
      h.built.of_eq rfl rfl rfl rfl rfl rfl, h.asked, ⟨?_, ?_⟩,
      h.air.of_eq rfl rfl rfl rfl rfl, ⟨fun _ _ _ => .inl hrx, ?_, h.back.after⟩⟩
    · rintro ⟨⟩
    · rintro x ⟨⟩
      rfl
    · exact fun b hb hp => absurd (h.back.counts b hb hp).1 hrx
  · exact h

theorem setNav_rx (us : BitVec 16) : (s.setNav t us).rxState = s.rxState ∧
    (s.setNav t us).pktRx = s.pktRx ∧ (s.setNav t us).mhRecv = s.mhRecv := by
  unfold Station.setNav
  split <;> exact ⟨rfl, rfl, rfl⟩

/-! ## Resuming -/

/-- What a handler leaves for the transmitter to go on from. -/
structure Resumable (c : MacConf) (t : ℚ) (s : Station) : Prop where
  send : s.mhSend = none
  defer : s.mhDefer = none
  busy : s.rxState ≠ .idle ∨ s.txState ≠ .idle
  built : s.Built c
  asked : ∀ q, s.pktCTRL = some q → s.callback = true → s.pktTx = none → q.kind = .ack
  nav : s.NavOk t
  air : ∀ x, s.mhIF = some x → s.txActive = true ∧ x ≤ t
  back : ∀ b, s.mhBackoff = some b → b.paused = true
  cleared : s.Cleared c → s.mhBackoff = none ∧ (∀ q, s.pktCTRL = some q → q.kind = .ack) ∧
    (s.pktCTRL = none → s.Clean (t + c.sifs))

structure Resumed (c : MacConf) (t : ℚ) (woken : Prop) (s : Station) : Prop where
  phase : Phase c t woken { s with txState := .idle }
  built : s.Built c
  asked : s.callback = true → s.pktTx = none → ∃ q, s.pktCTRL = some q ∧ q.kind = .ack
  nav : s.NavOk t
  active : ∀ x, s.mhIF = some x → s.txActive = true ∧ x ≤ t
  send : s.mhSend = none
  defer : ∀ d, s.mhDefer = some d → t < d
  back : ∀ b, s.mhBackoff = some b → b.paused = true

theorem Resumed.setTxState (hc : c.Ok) (h : s.Resumed c t w) :
    (s.setTxState c t .idle).TxOk c t w := by
  refine checkBackoffTimer_txOk hc h.phase (h.built.of_eq rfl rfl rfl rfl rfl rfl)
    h.asked (h.nav.of_eq rfl rfl)
    ⟨fun x hx => (h.active x hx).1, fun _ x hx => (h.active x hx).2, ?_, ?_⟩
    (after_of_paused h.back)
  · intro x y _ hy
    have hnone := h.send
    rw [show s.mhSend = some y from hy] at hnone
    cases hnone
  · exact fun x d hx hd => ((h.active x hx).2).trans_lt (h.defer d hd)

theorem isIdle_of_busy (h : s.rxState ≠ .idle ∨ s.txState ≠ .idle) : s.isIdle t = false := by
  rw [Bool.eq_false_iff, ne_eq, isIdle_iff]
  exact fun ⟨hrx, htx, _⟩ => h.elim (absurd hrx) (absurd htx)

theorem startBackoff_busy {x : ℚ} (hnone : s.mhBackoff = none) (hbusy : s.isIdle t = false) :
    s.startBackoff t x = some { s with mhBackoff := some { paused := true, ready := t + x } } := by
  unfold startBackoff
  rw [if_pos (by rw [hnone]; rfl), hbusy]
  rfl

theorem contend_busy (hc : c.Ok) {k : ℕ} (hnone : s.mhBackoff = none)
    (hbusy : s.isIdle t = false) : s.contend c t k =
      some { s with mhBackoff := some { paused := true, ready := t + c.difs } } := by
  unfold contend
  rw [if_pos hc.bugFix]
  exact startBackoff_busy hnone hbusy

/-- A packet that is taken, with its RTS when it is long. -/
def taken (c : MacConf) (p : Frame) (s : Station) : Station :=
  { s with
    callback := true
    pktTx := some (s.sender.numbered c p)
    staSeqno := s.staSeqno + 1
    pktRTS := if c.Short (c.dataFrame p) then none else some (c.rtsFrame p.ra (c.dataFrame p))
    log := s.log ++ [.accept (s.sender.numbered c p)] }

theorem sendRTS_eq (htx : s.pktTx = some p) (hrts : s.pktRTS = none) : s.sendRTS c p.ra =
    some { s with pktRTS := if c.Short p then none else some (c.rtsFrame p.ra p) } := by
  unfold sendRTS
  split
  case h_2 hno => exact absurd hrts (hno p htx)
  next q hq _ =>
    obtain rfl := Option.some.inj (htx.symm.trans hq)
    split
    · next hshort =>
      rw [if_pos (show c.Short p from hshort), ← hrts]
    · next hlong => rw [if_neg (show ¬ c.Short p from hlong)]

theorem send_eq {k : ℕ} (htx : s.pktTx = none) (hrts : s.pktRTS = none) :
    s.send c t k p = (s.taken c p).await c t k := by
  have hrequest := sendRTS_eq (c := c) (p := c.dataFrame p)
    (s := { s with callback := true, pktTx := some (c.dataFrame p) }) rfl hrts
  unfold send sendDATA
  rw [if_neg (by rw [show ({ s with callback := true } : Station).pktTx = none from htx]; simp)]
  simp only [Option.bind_eq_bind, Option.bind_some]
  rw [show p.ra = (c.dataFrame p).ra from rfl, hrequest]
  rfl

theorem taken_built (h : s.Built c) : (s.taken c p).Built c := by
  refine ⟨h.mode, h.noise, h.reply, ?_, ?_⟩
  · intro r hr
    unfold taken at hr
    dsimp only at hr
    split at hr
    · cases hr
    · next hlong =>
      obtain rfl := Option.some.inj hr
      exact ⟨rfl, rfl, s.sender.numbered c p, rfl, hlong⟩
  · rintro q ⟨⟩
    exact ⟨rfl, rfl⟩

theorem taken_not_cleared {b : Option Backoff} :
    ¬ Cleared c { s.taken c p with mhBackoff := b } := by
  rintro ⟨hrts, q, hq, hlong⟩
  obtain rfl := Option.some.inj hq
  unfold taken at hrts
  dsimp only at hrts
  rw [if_neg (show ¬ c.Short (c.dataFrame p) from hlong)] at hrts
  cases hrts

theorem Resumable.rests {b : Option Backoff} (h : s.Resumable c t) (hctrl : s.pktCTRL = none)
    (hclear : ¬ s.Cleared c) (hback : ∀ b', b = some b' → b'.paused = true)
    (hwoken : s.pktTx.isSome → b ≠ none) (hasked : s.callback = true → s.pktTx ≠ none) :
    Resumed c t w { s with mhBackoff := b } where
  phase := .rest rfl hctrl h.send h.defer hclear fun _ => hwoken
  built := h.built.of_eq rfl rfl rfl rfl rfl rfl
  asked := fun hcall htx => absurd htx (hasked hcall)
  nav := h.nav.of_eq rfl rfl
  active := h.air
  send := h.send
  defer := fun d hd => by
    have hnone := h.defer
    rw [show s.mhDefer = some d from hd] at hnone
    cases hnone
  back := hback

theorem Resumable.defers (hc : c.Ok) (h : s.Resumable c t)
    (hphase : Phase c t w { s with txState := .idle, mhDefer := some (t + c.sifs) })
    (hasked : s.callback = true → s.pktTx = none → ∃ q, s.pktCTRL = some q ∧ q.kind = .ack) :
    ∃ s', s.startDefer t c.sifs = some s' ∧ s'.Resumed c t w := by
  refine ⟨{ s with mhDefer := some (t + c.sifs) }, ?_, hphase,
    h.built.of_eq rfl rfl rfl rfl rfl rfl, hasked, h.nav.of_eq rfl rfl, h.air,
    h.send, ?_, h.back⟩
  · unfold startDefer
    rw [if_pos (by rw [h.defer]; rfl)]
  · rintro d ⟨⟩
    exact lt_add_of_pos_right t hc.sifs

theorem Resumable.contends (hc : c.Ok) (h : s.Resumable c t) {k : ℕ} (hctrl : s.pktCTRL = none)
    (hclear : ¬ s.Cleared c) (hnone : s.mhBackoff = none)
    (hasked : s.callback = true → s.pktTx ≠ none) :
    ∃ s', s.contend c t k = some s' ∧ s'.Resumed c t w := by
  refine ⟨_, contend_busy hc hnone (isIdle_of_busy h.busy),
    h.rests hctrl hclear ?_ (fun _ => by simp) hasked⟩
  rintro b ⟨⟩
  rfl

theorem Resumable.stays (h : s.Resumable c t) (hctrl : s.pktCTRL = none)
    (hclear : ¬ s.Cleared c) (hwoken : s.pktTx.isSome → s.mhBackoff ≠ none)
    (hasked : s.callback = true → s.pktTx ≠ none) :
    ∃ s', some s = some s' ∧ s'.Resumed c t w :=
  ⟨s, rfl, h.rests (b := s.mhBackoff) hctrl hclear h.back hwoken hasked⟩

theorem Resumable.taken (h : s.Resumable c t) (hctrl : s.pktCTRL = none) :
    (s.taken c p).Resumable c t := by
  have hnot := taken_not_cleared (c := c) (p := p) (s := s) (b := s.mhBackoff)
  refine ⟨h.send, h.defer, h.busy, taken_built h.built, ?_, h.nav.of_eq rfl rfl, h.air, h.back,
    fun hc => absurd hc hnot⟩
  intro q hq
  rw [show (s.taken c p).pktCTRL = none from hctrl] at hq
  cases hq

theorem Resumable.sends (h : s.Resumable c t) {k : ℕ} (hctrl : s.pktCTRL = none)
    (htx : s.pktTx = none) (hrts : s.pktRTS = none) :
    ∃ s', s.send c t k p = some s' ∧ s'.Resumed c t w := by
  rw [send_eq htx hrts]
  have hnew := h.taken (p := p) hctrl
  have hnot := taken_not_cleared (c := c) (p := p) (s := s) (b := s.mhBackoff)
  have hsome : (s.taken c p).callback = true → (s.taken c p).pktTx ≠ none := fun _ => by
    simp [Station.taken]
  unfold await
  obtain hb | ⟨b, hb⟩ := Option.eq_none_or_eq_some (s.taken c p).mhBackoff
  case inr =>
    rw [if_pos (by rw [hb]; rfl)]
    exact hnew.stays hctrl hnot (fun _ => by simp [hb]) hsome
  case inl =>
    rw [if_neg (by simp [hb]), isIdle_of_busy hnew.busy, if_neg (by simp),
      startBackoff_busy hb (isIdle_of_busy hnew.busy)]
    refine ⟨_, rfl, hnew.rests hctrl hnot ?_ (fun _ => by simp) hsome⟩
    rintro b ⟨⟩
    rfl

theorem Resumable.ready (h : s.Resumable c t) (hctrl : s.pktCTRL = none) (htx : s.pktTx = none) :
    Resumable c t ({ s with callback := false }.note .ready) := by
  refine ⟨h.send, h.defer, h.busy, { h.built with packet := ?_ }, ?_,
    h.nav.of_eq rfl rfl, h.air, h.back, ?_⟩
  · intro p hp
    rw [show s.pktTx = some p from hp] at htx
    cases htx
  · intro q hq
    rw [show s.pktCTRL = some q from hq] at hctrl
    cases hctrl
  · rintro ⟨-, p, hp, -⟩
    rw [show s.pktTx = some p from hp] at htx
    cases htx

theorem Resumable.resumeNext (hc : c.Ok) (h : s.Resumable c t) :
    ∃ s', s.resumeNext c t e = some s' ∧ s'.Resumed c t w := by
  unfold Station.resumeNext
  obtain hctrl | ⟨q, hctrl⟩ := Option.eq_none_or_eq_some s.pktCTRL
  case inr =>
    rw [if_pos (by rw [hctrl]; rfl)]
    refine h.defers hc (.reply _ q rfl hctrl h.send rfl le_rfl fun hcl => ?_) fun hcall htx =>
      ⟨q, hctrl, h.asked q hctrl hcall htx⟩
    obtain ⟨hback, hack, -⟩ := h.cleared hcl
    exact ⟨hack q hctrl, hback⟩
  rw [if_neg (by simp [hctrl])]
  obtain hrts | ⟨r, hrts⟩ := Option.eq_none_or_eq_some s.pktRTS
  case inr =>
    rw [if_pos (by rw [hrts]; rfl)]
    obtain ⟨-, -, p, hp, -⟩ := h.built.request r hrts
    have hclear : ¬ s.Cleared c := fun hcl => by
      rw [hcl.1] at hrts
      cases hrts
    have hsome : s.callback = true → s.pktTx ≠ none := fun _ => by simp [hp]
    split
    · next hb => exact h.stays hctrl hclear (fun _ hnone => by simp [hnone] at hb) hsome
    · next hb => exact h.contends hc hctrl hclear (by simpa using hb) hsome
  rw [if_neg (by simp [hrts])]
  split
  · next p htx =>
    have hsome : s.callback = true → s.pktTx ≠ none := fun _ => by simp [htx]
    split
    · next hb =>
      refine h.stays hctrl (fun hcl => ?_) (fun _ hnone => by simp [hnone] at hb) hsome
      rw [(h.cleared hcl).1] at hb
      cases hb
    · next hb =>
      have hnone : s.mhBackoff = none := by simpa using hb
      split
      · next hshort =>
        refine h.contends hc hctrl ?_ hnone hsome
        rintro ⟨-, q, hq, hlong⟩
        obtain rfl := Option.some.inj (htx.symm.trans hq)
        exact hlong hshort
      · next hlong =>
        have hcl : s.Cleared c := ⟨hrts, p, htx, hlong⟩
        have hclean := (h.cleared hcl).2.2 hctrl
        refine h.defers hc (.clear _ rfl hctrl h.send rfl le_rfl hcl hnone hclean) fun _ hno => ?_
        rw [htx] at hno
        cases hno
  · next htx =>
    have hclear : ¬ s.Cleared c := by
      rintro ⟨-, p, hp, -⟩
      rw [htx] at hp
      cases hp
    have hfree := h.ready hctrl htx
    split
    · split
      · exact hfree.stays hctrl hclear (fun hp => by simp [note, htx] at hp) (by simp [note])
      · exact hfree.sends hctrl htx hrts
    · next hcall =>
      exact h.stays hctrl hclear (fun hp => by simp [htx] at hp) fun hc => absurd hc hcall

theorem Resumable.txResume (hc : c.Ok) (h : s.Resumable c t) :
    ∃ s', s.txResume c t e = some s' ∧ s'.TxOk c t w := by
  obtain ⟨s₁, hs₁, hresumed⟩ := h.resumeNext (e := e) (w := w) hc
  refine ⟨s₁.setTxState c t .idle, ?_, hresumed.setTxState hc⟩
  unfold Station.txResume
  rw [if_neg (by simp [h.send, h.defer]), hs₁]
  rfl

theorem TxOk.rxResume (hc : c.Ok) (h : s.TxOk c t w) (hr : s.mhRecv = none) :
    ∃ s', { s with pktRx := none }.rxResume c t = some s' ∧ s'.Sound c t w := by
  refine ⟨_, by unfold Station.rxResume; rw [if_neg (by simp [hr])], ?_, ?_⟩
  · refine checkBackoffTimer_txOk hc
      (h.phase.alike ⟨rfl, rfl, rfl, rfl, rfl, rfl, rfl, rfl, .rfl⟩ le_rfl ?_)
      (h.built.of_eq rfl rfl rfl rfl rfl rfl) h.asked (h.nav.of_eq rfl rfl)
      (h.air.of_eq rfl rfl rfl rfl rfl) h.back.after
    exact fun _ _ _ hrx => by cases hrx
  · refine checkBackoffTimer_rxOk ⟨fun _ => ⟨rfl, hr⟩, fun hno => absurd rfl hno, ?_⟩
    rintro p ⟨⟩

theorem Resumable.of_core (h : s.Resumable c t) (heq : s'.core = s.core) : s'.Resumable c t := by
  have hto : s.core.Resumable c t := { h with
    built := h.built.of_eq rfl rfl rfl rfl rfl rfl
    nav := h.nav.of_eq rfl rfl }
  rw [← heq] at hto
  exact { hto with
    built := hto.built.of_eq rfl rfl rfl rfl rfl rfl
    nav := hto.nav.of_eq rfl rfl }

theorem Resumable.startBackoff (h : s.Resumable c t) (heq : s'.core = s.core) {x : ℚ}
    (hnone : s.mhBackoff = none) (hclear : ¬ s.Cleared c) :
    ∃ s'', s'.startBackoff t x = some s'' ∧ s''.Resumable c t := by
  have h' := h.of_core heq
  have hnone' : s'.mhBackoff = none := (congrArg mhBackoff heq).trans hnone
  have hclear' : ¬ s'.Cleared c := by
    intro hcl
    have hcore : s'.core.Cleared c := hcl
    rw [heq] at hcore
    exact hclear hcore
  refine ⟨_, startBackoff_busy hnone' (isIdle_of_busy h'.busy), ⟨h'.send, h'.defer, h'.busy,
    h'.built.of_eq rfl rfl rfl rfl rfl rfl, h'.asked, h'.nav.of_eq rfl rfl,
    h'.air, ?_, fun hcl => absurd hcl hclear'⟩⟩
  rintro b ⟨⟩
  rfl

end Station

end AodvUU

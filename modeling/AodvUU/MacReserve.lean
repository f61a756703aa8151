import AodvUU.MacMedium

/-! # The medium reserved

A frame says for how long it reserves the medium. A station that hears it, and is not the one it is
for, is silent until then. -/
namespace AodvUU

variable {c : MacConf} {ok : ℚ → Station → MacEvent → Prop} {t : ℚ} {e : MacEnv} {ev : MacEvent}
  {s s' : Station} {p q : Frame} {x y z w : ℚ × Station} {us : BitVec 16}

namespace Station

/-- For how long a frame that has ended reserves the medium: as long as it says, when it is not to
the station, and for an EIFS when it did not come through. So does a frame that is overpowered, when
it begins. -/
def reserves (c : MacConf) (s : Station) : MacEvent → Option (BitVec 16)
  | .recvTimer =>
    match s.pktRx with
    | none => none
    | some p =>
      if s.txActive then none
      else if s.rxState = .coll ∨ p.error then some (usec c.eifs)
      else if p.ra = c.index then none
      else some p.duration
  | .recv p =>
    if s.mac.workMode < 0 ∨ s.rxState = .idle then none
    else
      match s.pktRx with
      | none => none
      | some q => if p.cpThresh ≤ q.rxPr / p.rxPr then some (usec (c.eifs + p.txtime)) else none
  | _ => none

theorem arrived_reserves (h : s.arrived c t e p = some s') (ha : s.Armed)
    (hr : (if s.txActive then none else if s.rxState = .coll ∨ p.error then some (usec c.eifs)
      else if p.ra = c.index then none else some p.duration) = some us) : t + sec us ≤ s'.nav := by
  unfold arrived at h
  split at h
  · next hactive =>
    rw [if_pos hactive] at hr
    cases hr
  · next hactive =>
    rw [if_neg hactive] at hr
    split at h
    · next hcoll =>
      rw [if_pos (.inl hcoll)] at hr
      obtain rfl := Option.some.inj hr
      obtain rfl := Option.some.inj h
      exact le_setNav _
    · next hcoll =>
      split at h
      · next herr =>
        rw [if_pos (.inr herr)] at hr
        obtain rfl := Option.some.inj hr
        obtain rfl := Option.some.inj h
        exact le_setNav _
      · next herr =>
        rw [if_neg (not_or.mpr ⟨hcoll, herr⟩)] at hr
        have hnav := (overheard_silent (g := fun _ => True) h ha fun _ _ _ _ _ => trivial).nav
        split at hr
        · cases hr
        · next hra =>
          obtain rfl := Option.some.inj hr
          rw [if_neg hra] at hnav
          exact (le_setNav _).trans hnav

theorem recvTimer_reserves (h : s.recvTimer c t e = some s') (ha : s.Armed)
    (hr : s.reserves c .recvTimer = some us) : t + sec us ≤ s'.nav := by
  obtain ⟨p, s₁, hp, -, hs₁, rfl⟩ := recvTimer_cases h
  unfold reserves at hr
  dsimp only at hr
  rw [hp] at hr
  have hlater := (setRxState_silent (c := c) (t := t) (g := fun _ => True)
    (s := { s₁ with pktRx := none }) .idle).nav
  exact (arrived_reserves hs₁ ha hr).trans hlater

theorem recv_reserves (h : s.recv c t e .up p = some s') (hr : s.reserves c (.recv p) = some us) :
    t + sec us ≤ s'.nav := by
  unfold recv at h
  dsimp only at h
  rw [recv_workMode] at h
  unfold reserves at hr
  dsimp only at hr
  split at hr
  · cases hr
  · next hbusy =>
    rw [not_or] at hbusy
    rw [if_neg hbusy.1, if_neg (by simp)] at h
    unfold recvFrame at h
    dsimp only [note] at h
    rw [if_neg hbusy.2] at h
    split at hr
    · cases hr
    · next q hq =>
      rw [hq] at h
      split at hr
      · next hweak =>
        obtain rfl := Option.some.inj hr
        dsimp only at h
        rw [if_pos hweak] at h
        obtain rfl := Option.some.inj h
        exact le_setNav _
      · cases hr

theorem step_reserves (h : s.step c t e ev = some s') (ha : s.Armed)
    (hr : s.reserves c ev = some us) : t + sec us ≤ s'.nav := by
  cases ev with
  | recvTimer => exact recvTimer_reserves (s := { s with mhRecv := none }) h (ha.of_eq rfl rfl) hr
  | recv p => exact recv_reserves h hr
  | _ => cases hr

theorem step_nav (h : s.step c t e ev = some s') (ha : s.Armed) : s.nav ≤ s'.nav := by
  obtain hsilent | ⟨q, hairs⟩ := step_airs h ha
  · exact hsilent.nav
  · exact hairs.nav.ge

end Station

theorem MacPath.nav (hx : MacReachable c ok x.1 x.2) (h : MacPath c ok x y) :
    x.2.nav ≤ y.2.nav := by
  induction h with
  | refl => exact le_rfl
  | tail hpath hstep ih =>
    obtain ⟨ev, hev⟩ := hstep
    obtain ⟨e, he⟩ := hev.step
    exact ih.trans (Station.step_nav he (hx.path hpath).armed)

theorem MacStep.idle (hx : MacReachable c ok x.1 x.2) (h : MacStep c ok ev x y)
    (hp : p ∈ newAir x.2 y.2) (hack : p.kind ≠ .ack) (hnoise : p.kind ≠ .noise) :
    x.2.isIdle y.1 = true := by
  obtain ⟨e, he⟩ := h.step
  obtain hsilent | ⟨q, hairs⟩ := Station.step_airs he hx.armed
  · rw [hsilent.toCalm.newAir] at hp
    cases hp
  · rw [hairs.newAir] at hp
    obtain rfl := List.mem_singleton.mp hp
    exact (hairs.idle.resolve_left hack).resolve_left hnoise

theorem MacPath.silent (hy : MacReachable c ok y.1 y.2) (hpath : MacPath c ok y z)
    (hair : MacStep c ok ev z w) (hp : p ∈ newAir z.2 w.2) (hack : p.kind ≠ .ack)
    (hnoise : p.kind ≠ .noise) : y.2.nav ≤ w.1 := by
  have hidle := hair.idle (hy.path hpath) hp hack hnoise
  exact (hpath.nav hy).trans (Station.isIdle_iff.mp hidle).2.2

/-- Once it has heard the medium reserved, a station puts no RTS, CTS or data on the air before the
reservation ends. -/
theorem silent_while_reserved {ev' : MacEvent} (hx : MacReachable c ok x.1 x.2)
    (hstep : MacStep c ok ev x y) (hr : x.2.reserves c ev = some us) (hpath : MacPath c ok y z)
    (hair : MacStep c ok ev' z w) (hp : p ∈ newAir z.2 w.2) (hack : p.kind ≠ .ack)
    (hnoise : p.kind ≠ .noise) : y.1 + sec us ≤ w.1 := by
  obtain ⟨e, he⟩ := hstep.step
  have hreserved := Station.step_reserves he hx.armed hr
  exact hreserved.trans (hpath.silent (hx.next hstep) hair hp hack hnoise)

/-- A station hears that 2 will send a long packet to 3. -/
def reservingRun : List (ℚ × MacEvent) :=
  [(0, .recv ((sampleMac 2).rtsFrame 3 { kind := .data, txtime := 8416 / 10 ^ 6 }))]

/-- It is handed a packet of its own, and the NAV ends. -/
def reservedRun : List (ℚ × MacEvent) :=
  [(400 / 10 ^ 6, .send { kind := .data, uid := 7, size := 100, ra := 4, ta := 1 }),
    (9406 / 10 ^ 6, .navTimer)]

def hearingRts : ℚ × Station := runOn (0, Station.init (sampleMac 1) 0 0 0) reservingRun

def heardRts : ℚ × Station := runOn hearingRts [(352 / 10 ^ 6, .recvTimer)]

def waitedNav : ℚ × Station := runOn heardRts reservedRun

def brokeSilence : ℚ × Station := runOn waitedNav [(9456 / 10 ^ 6, .backoffTimer)]

theorem hearingRts_reachable :
    MacReachable (sampleMac 1) (fun _ _ _ => True) hearingRts.1 hearingRts.2 :=
  (MacReachable.init 0 0 0).run
    (runOn_eq (0, Station.init (sampleMac 1) 0 0 0) reservingRun (by decide +kernel))

theorem heardRts_step : MacStep (sampleMac 1) (fun _ _ _ => True) .recvTimer hearingRts heardRts :=
  .run (runOn_eq hearingRts [(352 / 10 ^ 6, .recvTimer)] (by decide +kernel))

theorem waitedNav_path : MacPath (sampleMac 1) (fun _ _ _ => True) heardRts waitedNav :=
  .run (runOn_eq heardRts reservedRun (by decide +kernel))

theorem brokeSilence_step :
    MacStep (sampleMac 1) (fun _ _ _ => True) .backoffTimer waitedNav brokeSilence :=
  .run (runOn_eq waitedNav [(9456 / 10 ^ 6, .backoffTimer)] (by decide +kernel))

theorem brokeSilence_late : (newAir waitedNav.2 brokeSilence.2).map Frame.uid = [7] ∧
    heardRts.1 + sec 9054 ≤ brokeSilence.1 := by
  refine ⟨by decide +kernel, ?_⟩
  obtain ⟨p, hp, hkind⟩ : ∃ p ∈ newAir waitedNav.2 brokeSilence.2, p.kind = .data := by
    decide +kernel
  exact silent_while_reserved hearingRts_reachable heardRts_step (by decide +kernel) waitedNav_path
    brokeSilence_step hp (by simp [hkind]) (by simp [hkind])

/-! ## The medium is reserved for a whole exchange -/

theorem sec_usec {a : ℚ} (h : 0 ≤ a) (hfit : a * 10 ^ 6 + 1 / 2 < 2 ^ 16) :
    a - 1 / (2 * 10 ^ 6) ≤ sec (usec a) ∧ sec (usec a) ≤ a + 1 / (2 * 10 ^ 6) := by
  have hlow : (0 : ℤ) ≤ ⌊a * 10 ^ 6 + 1 / 2⌋ := Int.floor_nonneg.mpr (by positivity)
  have hhigh : ⌊a * 10 ^ 6 + 1 / 2⌋ < (2 : ℤ) ^ 16 := by
    rw [Int.floor_lt]
    exact_mod_cast hfit
  have hnat : ((usec a).toNat : ℤ) = ⌊a * 10 ^ 6 + 1 / 2⌋ := by
    unfold usec
    rw [BitVec.toNat_ofInt, show ((2 ^ 16 : ℕ) : ℤ) = 2 ^ 16 from rfl, Int.emod_eq_of_lt hlow hhigh,
      Int.toNat_of_nonneg hlow]
  have hcast : ((usec a).toNat : ℚ) = (⌊a * 10 ^ 6 + 1 / 2⌋ : ℤ) := by
    rw [← hnat]
    rfl
  have hle := Int.floor_le (a * 10 ^ 6 + 1 / 2)
  have hlt := Int.lt_floor_add_one (a * 10 ^ 6 + 1 / 2)
  unfold sec
  rw [hcast]
  constructor <;> linarith

/-- What an RTS reserves: from its end to that of the ACK, with no propagation delay. -/
def MacConf.exchangeTime (c : MacConf) (p : Frame) : ℚ :=
  c.sifs + c.txtime c.ctsLen c.basicRate + c.sifs + p.txtime + c.sifs +
    c.txtime c.ackLen c.basicRate

def MacConf.ctsTime (c : MacConf) : ℚ := c.sifs + c.txtime c.ctsLen c.basicRate

theorem le_rtsDuration {b : MacConf} (dst : BitVec 32) (h : 0 ≤ b.exchangeTime p)
    (hfit : b.exchangeTime p * 10 ^ 6 + 1 / 2 < 2 ^ 16) :
    b.exchangeTime p - 1 / (2 * 10 ^ 6) ≤ sec (b.rtsFrame dst p).duration :=
  (sec_usec h hfit).1

theorem le_ctsDuration {b r : MacConf} (dst src : BitVec 32) (h : 0 ≤ b.exchangeTime p)
    (hfit : b.exchangeTime p * 10 ^ 6 + 1 / 2 < 2 ^ 16) (hcts : 0 ≤ r.ctsTime)
    (hleft : r.ctsTime + 1 / (2 * 10 ^ 6) ≤ b.exchangeTime p) :
    b.exchangeTime p - r.ctsTime - 1 / 10 ^ 6 ≤
      sec (r.ctsFrame src (b.rtsFrame dst p).duration).duration := by
  have hlow := (sec_usec h hfit).1
  have hmax : sec (usec (b.exchangeTime p)) ≤ (2 ^ 16 - 1) / 10 ^ 6 := by
    have hcast : ((usec (b.exchangeTime p)).toNat : ℚ) ≤ (65535 : ℕ) := by
      exact_mod_cast Nat.le_of_lt_succ (usec (b.exchangeTime p)).isLt
    rw [Nat.cast_ofNat] at hcast
    unfold sec
    linarith
  have hsub : sec (usec (b.exchangeTime p)) - r.sifs - r.txtime r.ctsLen r.basicRate =
      sec (usec (b.exchangeTime p)) - r.ctsTime := by
    unfold MacConf.ctsTime
    ring
  change b.exchangeTime p - r.ctsTime - 1 / 10 ^ 6 ≤
    sec (usec (sec (usec (b.exchangeTime p)) - r.sifs - r.txtime r.ctsLen r.basicRate))
  rw [hsub]
  have hround := (sec_usec (a := sec (usec (b.exchangeTime p)) - r.ctsTime) (by linarith)
    (by linarith)).1
  linarith

/-- A third station that hears the RTS or the CTS of an exchange is silent for the time that the
sender reckons with for the rest of it, but for the rounding of the durations, as long as this fits
into their 16 bits. -/
theorem exchange_protected {ev' : MacEvent} {b r : MacConf} {d a : BitVec 32}
    (hexchange : 0 ≤ b.exchangeTime p) (hfit : b.exchangeTime p * 10 ^ 6 + 1 / 2 < 2 ^ 16)
    (hx : MacReachable c ok x.1 x.2) (hstep : MacStep c ok .recvTimer x y)
    (hq : x.2.pktRx = some q) (hrx : x.2.rxState = .recv) (hactive : x.2.txActive = false)
    (herr : q.error = false) (hra : q.ra ≠ c.index) (hpath : MacPath c ok y z)
    (hair : MacStep c ok ev' z w) {f : Frame} (hf : f ∈ newAir z.2 w.2) (hack : f.kind ≠ .ack)
    (hnoise : f.kind ≠ .noise) :
    (q.duration = (b.rtsFrame d p).duration →
      y.1 + b.exchangeTime p - 1 / (2 * 10 ^ 6) ≤ w.1) ∧
    (q.duration = (r.ctsFrame a (b.rtsFrame d p).duration).duration → 0 ≤ r.ctsTime →
      r.ctsTime + 1 / (2 * 10 ^ 6) ≤ b.exchangeTime p →
      y.1 + (b.exchangeTime p - r.ctsTime) - 1 / 10 ^ 6 ≤ w.1) := by
  have hr : x.2.reserves c .recvTimer = some q.duration := by
    unfold Station.reserves
    simp [hq, hactive, hrx, herr, hra]
  obtain ⟨e, he⟩ := hstep.step
  have hreserved := Station.step_reserves he hx.armed hr
  have hsilent := hreserved.trans (hpath.silent (hx.next hstep) hair hf hack hnoise)
  constructor
  · intro hd
    rw [hd] at hsilent
    have hround := le_rtsDuration d hexchange hfit
    linarith
  · intro hd hcts hleft
    rw [hd] at hsilent
    have hround := le_ctsDuration (r := r) d a hexchange hfit hcts hleft
    linarith

def longPacket : Frame := { kind := .data, txtime := 8416 / 10 ^ 6 }

/-- A station hears that 3 answers. -/
def answeringRun : List (ℚ × MacEvent) :=
  [(0, .recv ((sampleMac 3).ctsFrame 2 ((sampleMac 2).rtsFrame 3 longPacket).duration))]

/-- It is handed a packet of its own, and the NAV ends. -/
def answeredNavRun : List (ℚ × MacEvent) :=
  [(400 / 10 ^ 6, .send { kind := .data, uid := 7, size := 100, ra := 4, ta := 1 }),
    (9044 / 10 ^ 6, .navTimer)]

def hearingCts : ℚ × Station := runOn (0, Station.init (sampleMac 1) 0 0 0) answeringRun

def heardCts : ℚ × Station := runOn hearingCts [(304 / 10 ^ 6, .recvTimer)]

def waitedCts : ℚ × Station := runOn heardCts answeredNavRun

def brokeCts : ℚ × Station := runOn waitedCts [(9094 / 10 ^ 6, .backoffTimer)]

theorem exchange_waited :
    heardRts.1 + (sampleMac 2).exchangeTime longPacket - 1 / (2 * 10 ^ 6) ≤ brokeSilence.1 ∧
    heardCts.1 + ((sampleMac 2).exchangeTime longPacket - (sampleMac 3).ctsTime) - 1 / 10 ^ 6 ≤
      brokeCts.1 := by
  constructor
  · obtain ⟨f, hf, hkind⟩ : ∃ f ∈ newAir waitedNav.2 brokeSilence.2, f.kind = .data := by
      decide +kernel
    obtain ⟨q, hq, herr, hra, hd⟩ : ∃ q ∈ hearingRts.2.pktRx, q.error = false ∧
        q.ra ≠ (sampleMac 1).index ∧ q.duration = ((sampleMac 2).rtsFrame 3 longPacket).duration := by
      decide +kernel
    exact (exchange_protected (r := sampleMac 3) (a := 2) (by decide +kernel) (by decide +kernel)
      hearingRts_reachable heardRts_step hq (by decide +kernel) (by decide +kernel) herr hra
      waitedNav_path brokeSilence_step hf (by simp [hkind]) (by simp [hkind])).1 hd
  · have hreach : MacReachable (sampleMac 1) (fun _ _ _ => True) hearingCts.1 hearingCts.2 :=
      (MacReachable.init 0 0 0).run
        (runOn_eq (0, Station.init (sampleMac 1) 0 0 0) answeringRun (by decide +kernel))
    have hheard : MacStep (sampleMac 1) (fun _ _ _ => True) .recvTimer hearingCts heardCts :=
      .run (runOn_eq hearingCts [(304 / 10 ^ 6, .recvTimer)] (by decide +kernel))
    have hwaits : MacPath (sampleMac 1) (fun _ _ _ => True) heardCts waitedCts :=
      .run (runOn_eq heardCts answeredNavRun (by decide +kernel))
    have hbreaks : MacStep (sampleMac 1) (fun _ _ _ => True) .backoffTimer waitedCts brokeCts :=
      .run (runOn_eq waitedCts [(9094 / 10 ^ 6, .backoffTimer)] (by decide +kernel))
    obtain ⟨f, hf, hkind⟩ : ∃ f ∈ newAir waitedCts.2 brokeCts.2, f.kind = .data := by
      decide +kernel
    obtain ⟨q, hq, herr, hra, hd⟩ : ∃ q ∈ hearingCts.2.pktRx, q.error = false ∧
        q.ra ≠ (sampleMac 1).index ∧ q.duration = ((sampleMac 3).ctsFrame 2
          ((sampleMac 2).rtsFrame 3 longPacket).duration).duration := by
      decide +kernel
    exact (exchange_protected (by decide +kernel) (by decide +kernel) hreach hheard hq
      (by decide +kernel) (by decide +kernel) herr hra hwaits hbreaks hf (by simp [hkind])
      (by simp [hkind])).2 hd (by decide +kernel) (by decide +kernel)

end AodvUU

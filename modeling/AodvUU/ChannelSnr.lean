import Mathlib.Algebra.BigOperators.Group.List.Basic
import Mathlib.Algebra.Order.Field.Rat
import Mathlib.Data.List.DropRight
import Mathlib.Tactic.Linarith
import Mathlib.Tactic.Positivity
import Mathlib.Tactic.Ring
import AodvUU.Defs

/-! # The SNR of a channel

`Mac802_11` counts noise frames and other frames and keeps three powers of each kind.
`Mac802_11::recv` writes them and `Mac802_11::getSNR` reads them. -/
namespace AodvUU

/-! ## The samples -/

inductive FcType where
  | management
  | control
  | data
  | reserved
  deriving DecidableEq, Repr

/-- What `recv` reads of a frame. -/
structure MacFrame where
  direction : Direction
  fcType : FcType
  rxPr : ℚ

structure PowerSamples where
  num : ℕ := 0
  power1 : ℚ := 0
  power2 : ℚ := 0
  power3 : ℚ := 0

/-- The counter is incremented before it selects the power to write. -/
def PowerSamples.record (power : ℚ) (s : PowerSamples) : PowerSamples :=
  let num := s.num + 1
  if num = 0 then { s with num, power1 := power }
  else if num = 1 then { s with num, power2 := power }
  else if num = 2 then { s with num, power3 := power }
  else { num, power1 := s.power2, power2 := s.power3, power3 := power }

def PowerSamples.avg (s : PowerSamples) : ℚ :=
  if s.num = 0 then 0
  else if s.num = 1 then s.power1
  else if s.num = 2 then (s.power1 + s.power2) / 2
  else (s.power1 + s.power2 + s.power3) / 3

/-- The fields that the samples and their use depend on. -/
structure Mac802_11 where
  workMode : Int := 0
  signal : PowerSamples := {}
  noise : PowerSamples := {}

/-- Frames are freed in a negative mode, and those from above are sent. -/
def Mac802_11.samples (m : Mac802_11) (p : MacFrame) : Bool :=
  ¬ m.workMode < 0 ∧ p.direction ≠ .down

/-- The part of `recv` before the reception itself. -/
def Mac802_11.recv (m : Mac802_11) (p : MacFrame) : Mac802_11 :=
  if m.samples p then
    if p.fcType = .reserved then { m with noise := m.noise.record (p.rxPr * 1000000) }
    else { m with signal := m.signal.record (p.rxPr * 1000000) }
  else m

/-- `none` is a quotient by zero. -/
def Mac802_11.getSNR (m : Mac802_11) : Option ℚ :=
  if m.noise.num = 0 then some 3
  else if m.noise.avg = 0 then none
  else some (m.signal.avg / m.noise.avg)

/-! ## Frames received -/

def Mac802_11.signalPowers (m : Mac802_11) (p : MacFrame) : List ℚ :=
  if m.samples p ∧ p.fcType ≠ .reserved then [p.rxPr] else []

def Mac802_11.noisePowers (m : Mac802_11) (p : MacFrame) : List ℚ :=
  if m.samples p ∧ p.fcType = .reserved then [p.rxPr] else []

/-- The states after any frames, with the powers of the signals and of the noise that were
sampled. -/
inductive Received : List ℚ → List ℚ → Mac802_11 → Prop
  | init : Received [] [] {}
  | recv {ss ns : List ℚ} {m : Mac802_11} (p : MacFrame) (hp : 0 < p.rxPr) :
      Received ss ns m → Received (ss ++ m.signalPowers p) (ns ++ m.noisePowers p) (m.recv p)
  | setWorkMode {ss ns : List ℚ} {m : Mac802_11} (w : Int) :
      Received ss ns m → Received ss ns { m with workMode := w }

def mean (xs : List ℚ) : ℚ := xs.sum / xs.length

/-- The ratio of the means of the last three powers, or of all when there are fewer. -/
def windowSNR (ss ns : List ℚ) : ℚ :=
  if ns = [] then 3 else mean (ss.rtake 3) / mean (ns.rtake 3)

/-- The number of samples of each kind is none or three at least, or no signal was received, or
the second of two signals relates to the first as the second noise does. -/
def SnrExact (ss ns : List ℚ) : Prop :=
  ns = [] ∨ (3 ≤ ns.length ∧ (ss = [] ∨ 3 ≤ ss.length)) ∨
    (ns.length = 2 ∧ (ss = [] ∨ ∃ s₁ s₂ n₁ n₂, ss = [s₁, s₂] ∧ ns = [n₁, n₂] ∧ s₁ * n₂ = n₁ * s₂))

/-! ## What the powers hold -/

variable {ss ns xs : List ℚ} {s : PowerSamples} {m : Mac802_11}

/-- From the second sample on the three powers end the sequence, with a zero before it. -/
structure PowerSamples.Holds (s : PowerSamples) (xs : List ℚ) : Prop where
  num : s.num = xs.length
  zero : xs.length ≤ 1 → s.power1 = 0
  one : ∀ x, xs = [x] → s.power2 = x
  more : 2 ≤ xs.length → (0 :: xs).rtake 3 = [s.power1, s.power2, s.power3]

theorem holds_nil : ({} : PowerSamples).Holds [] := by
  refine ⟨rfl, fun _ => rfl, fun x hx => ?_, fun h => ?_⟩
  · cases hx
  · exact absurd h (by decide)

theorem rtake_of_rtake_succ {α : Type*} {l t : List α} {a : α} {k : ℕ}
    (h : l.rtake (k + 1) = a :: t) (ht : t.length = k) : l.rtake k = t := by
  have hlen := congrArg List.length h
  unfold List.rtake at h hlen ⊢
  rw [List.length_drop, List.length_cons] at hlen
  have hdrop := congrArg (List.drop 1) h
  rw [List.drop_drop, List.drop_one, List.tail_cons] at hdrop
  rw [← hdrop]
  congr 1
  omega

theorem PowerSamples.Holds.record (h : s.Holds xs) (x : ℚ) : (s.record x).Holds (xs ++ [x]) := by
  obtain ⟨hnum, hzero, hone, hmore⟩ := h
  match xs with
  | [] =>
    -- The first power goes to the second place.
    have hrec : s.record x = { s with num := 1, power2 := x } := by
      unfold PowerSamples.record
      rw [hnum]
      rfl
    rw [hrec]
    refine ⟨rfl, fun _ => hzero (by simp), fun y hy => ?_, fun hlen => ?_⟩
    · exact List.singleton_injective hy
    · exact absurd hlen (by simp)
  | [p] =>
    have hrec : s.record x = { s with num := 2, power3 := x } := by
      unfold PowerSamples.record
      rw [hnum]
      rfl
    rw [hrec]
    refine ⟨rfl, fun hlen => absurd hlen (by simp), fun y hy => ?_, fun _ => ?_⟩
    · simp at hy
    · dsimp only
      rw [hzero (by simp), hone p rfl]
      rfl
  | p :: q :: rest =>
    have hlen : 2 ≤ (p :: q :: rest).length := by simp
    have hrec : s.record x =
        { num := s.num + 1, power1 := s.power2, power2 := s.power3, power3 := x } := by
      unfold PowerSamples.record
      dsimp only
      rw [if_neg (by omega), if_neg (by omega), if_neg (by omega)]
    rw [hrec]
    refine ⟨?_, fun h => ?_, fun y hy => ?_, fun _ => ?_⟩
    · rw [List.length_append, ← hnum]
      rfl
    · rw [List.length_append, List.length_singleton] at h
      omega
    · simp at hy
    · rw [← List.cons_append, List.rtake_concat_succ, rtake_of_rtake_succ (hmore hlen) rfl]
      rfl

/-! ## What the means are -/

/-- The mean that the code computes: the first sample of a short sequence counts less. -/
def codeMean : List ℚ → ℚ
  | [] => 0
  | [_] => 0
  | [x, _] => x / 2
  | xs => mean (xs.rtake 3)

theorem rtake_cons_of_length {x : ℚ} {k : ℕ} (h : k ≤ xs.length) :
    (x :: xs).rtake k = xs.rtake k := by
  unfold List.rtake
  rw [List.length_cons, Nat.succ_sub h, List.drop_succ_cons]

theorem PowerSamples.Holds.avg (h : s.Holds xs) : s.avg = codeMean xs := by
  obtain ⟨hnum, hzero, hone, hmore⟩ := h
  unfold PowerSamples.avg
  match xs with
  | [] =>
    rw [hnum]
    rfl
  | [p] =>
    rw [hnum, hzero (by simp)]
    rfl
  | [p, q] =>
    have hslots : [0, p, q] = [s.power1, s.power2, s.power3] := hmore (by simp)
    simp only [List.cons.injEq] at hslots
    rw [hnum, ← hslots.1, ← hslots.2.1, zero_add]
    rfl
  | p :: q :: r :: rest =>
    have hslots := hmore (by simp)
    rw [rtake_cons_of_length (by simp)] at hslots
    rw [hnum]
    show (s.power1 + s.power2 + s.power3) / 3 = mean ((p :: q :: r :: rest).rtake 3)
    rw [hslots]
    simp [mean, add_assoc]

theorem mean_map_mul (xs : List ℚ) (k : ℚ) : mean (xs.map (· * k)) = mean xs * k := by
  unfold mean
  rw [List.sum_map_mul_right, List.map_id', List.length_map]
  ring

theorem codeMean_map_mul (xs : List ℚ) (k : ℚ) : codeMean (xs.map (· * k)) = codeMean xs * k := by
  match xs with
  | [] => simp [codeMean]
  | [p] => simp [codeMean]
  | [p, q] =>
    show p * k / 2 = p / 2 * k
    ring
  | p :: q :: r :: rest =>
    have hmap : ((p :: q :: r :: rest).map (· * k)).rtake 3 =
        ((p :: q :: r :: rest).rtake 3).map (· * k) := by
      unfold List.rtake
      rw [List.length_map, List.map_drop]
    show mean (((p :: q :: r :: rest).map (· * k)).rtake 3) = _
    rw [hmap, mean_map_mul]
    rfl

theorem mean_window_pos (hpos : ∀ x ∈ xs, 0 < x) (hne : xs ≠ []) : 0 < mean (xs.rtake 3) := by
  have hlen : 0 < (xs.rtake 3).length := by
    unfold List.rtake
    have hxs := List.length_pos_of_ne_nil hne
    rw [List.length_drop]
    omega
  have hsum : 0 < (xs.rtake 3).sum := by
    refine List.sum_pos _ (fun x hx => hpos x (List.mem_of_mem_drop hx)) ?_
    exact List.ne_nil_of_length_pos hlen
  unfold mean
  positivity

theorem codeMean_cases (hpos : ∀ x ∈ xs, 0 < x) :
    (xs = [] ∧ codeMean xs = 0 ∧ mean (xs.rtake 3) = 0) ∨
    (xs.length = 1 ∧ codeMean xs = 0) ∨
    (∃ x y, xs = [x, y] ∧ codeMean xs = x / 2 ∧ mean (xs.rtake 3) = (x + y) / 2 ∧ 0 < x ∧ 0 < y) ∨
    (3 ≤ xs.length ∧ codeMean xs = mean (xs.rtake 3)) := by
  match xs with
  | [] => exact .inl ⟨rfl, rfl, by simp [mean]⟩
  | [p] => exact .inr (.inl ⟨rfl, rfl⟩)
  | [p, q] =>
    refine .inr (.inr (.inl ⟨p, q, rfl, rfl, ?_, hpos p (by simp), hpos q (by simp)⟩))
    show mean [p, q] = _
    simp [mean]
  | p :: q :: r :: rest => exact .inr (.inr (.inr ⟨by simp, rfl⟩))

/-! ## Every sequence of frames -/

theorem Received.holds (h : Received ss ns m) :
    m.signal.Holds (ss.map (· * 1000000)) ∧ m.noise.Holds (ns.map (· * 1000000)) ∧
    (∀ x ∈ ss, 0 < x) ∧ ∀ x ∈ ns, 0 < x := by
  induction h with
  | init => exact ⟨holds_nil, holds_nil, by simp, by simp⟩
  | @recv ss ns m p hp _ ih =>
    obtain ⟨hs, hn, hspos, hnpos⟩ := ih
    have hgrow : ∀ xs : List ℚ, (∀ x ∈ xs, 0 < x) → ∀ x ∈ xs ++ [p.rxPr], 0 < x := by
      intro xs hxs x hx
      rcases List.mem_append.mp hx with hx | hx
      · exact hxs x hx
      · rw [List.mem_singleton.mp hx]
        exact hp
    unfold Mac802_11.recv Mac802_11.signalPowers Mac802_11.noisePowers
    by_cases hsam : m.samples p = true
    · by_cases hnoise : p.fcType = .reserved
      · simp only [hsam, hnoise, if_true, ne_eq, not_true, and_false, if_false, List.append_nil,
          and_self, List.map_append, List.map_cons, List.map_nil]
        exact ⟨hs, hn.record _, hspos, hgrow ns hnpos⟩
      · simp only [hsam, hnoise, if_true, ne_eq, not_false_eq_true, and_false, if_false,
          List.append_nil, and_self, List.map_append, List.map_cons, List.map_nil]
        exact ⟨hs.record _, hn, hgrow ss hspos, hnpos⟩
    · simp only [hsam, false_and, if_false, List.append_nil, Bool.false_eq_true]
      exact ⟨hs, hn, hspos, hnpos⟩
  | setWorkMode w _ ih => exact ih

theorem Received.getSNR (h : Received ss ns m) : m.getSNR =
    if ns = [] then some 3 else if ns.length = 1 then none
    else some (codeMean ss / codeMean ns) := by
  obtain ⟨hs, hn, -, hpos⟩ := h.holds
  have hnum : m.noise.num = ns.length := by rw [hn.num, List.length_map]
  unfold Mac802_11.getSNR
  rw [hnum, hs.avg, hn.avg, codeMean_map_mul, codeMean_map_mul]
  by_cases hnil : ns = []
  · rw [if_pos (List.length_eq_zero_iff.mpr hnil), if_pos hnil]
  · rw [if_neg (mt List.length_eq_zero_iff.mp hnil), if_neg hnil]
    rcases codeMean_cases hpos with ⟨rfl, -⟩ | ⟨hone, hcode⟩ | ⟨x, y, rfl, hcode, -, hx, -⟩ |
      ⟨hlen, hcode⟩
    · exact absurd rfl hnil
    · rw [if_pos (by rw [hcode, zero_mul]), if_pos hone]
    · rw [hcode, if_neg (by positivity), if_neg (by simp)]
      rw [mul_div_mul_right _ _ (by norm_num)]
    · have hmean := mean_window_pos hpos hnil
      rw [hcode, if_neg (by positivity), if_neg (by omega)]
      rw [mul_div_mul_right _ _ (by norm_num)]

theorem full_noise_ratio (hpos : ∀ x ∈ ss, 0 < x) {k : ℚ} (hk : 0 < k) :
    codeMean ss / k = mean (ss.rtake 3) / k ↔ ss = [] ∨ 3 ≤ ss.length := by
  rw [div_left_inj' hk.ne']
  rcases codeMean_cases hpos with ⟨rfl, hcode, hmean⟩ | ⟨hone, hcode⟩ |
    ⟨x, y, rfl, hcode, hmean, -, hy⟩ | ⟨hlen, hcode⟩
  · exact iff_of_true (hcode.trans hmean.symm) (.inl rfl)
  · have hnil : ss ≠ [] := List.ne_nil_of_length_eq_add_one hone
    have hmean := mean_window_pos hpos hnil
    refine iff_of_false (fun h => ?_) (not_or.mpr ⟨hnil, by omega⟩)
    rw [hcode] at h
    exact hmean.ne h
  · refine iff_of_false (fun h => ?_) (by simp)
    rw [hcode, hmean] at h
    linarith
  · exact iff_of_true hcode (.inr hlen)

theorem two_noise_ratio (hpos : ∀ x ∈ ss, 0 < x) {n₁ n₂ : ℚ} (hn₁ : 0 < n₁) (hn₂ : 0 < n₂) :
    codeMean ss / (n₁ / 2) = mean (ss.rtake 3) / ((n₁ + n₂) / 2) ↔
      ss = [] ∨ ∃ s₁ s₂, ss = [s₁, s₂] ∧ s₁ * n₂ = n₁ * s₂ := by
  rw [div_eq_div_iff (by positivity) (by positivity)]
  rcases codeMean_cases hpos with ⟨rfl, hcode, hmean⟩ | ⟨hone, hcode⟩ |
    ⟨x, y, rfl, hcode, hmean, -, -⟩ | ⟨hlen, hcode⟩
  · rw [hcode, hmean]
    simp
  · have hnil : ss ≠ [] := List.ne_nil_of_length_eq_add_one hone
    have hmean := mean_window_pos hpos hnil
    refine iff_of_false (fun h => ?_) ?_
    · have hprod : 0 < mean (ss.rtake 3) * (n₁ / 2) := by positivity
      rw [hcode, zero_mul] at h
      exact hprod.ne h
    · rintro (h | ⟨s₁, s₂, rfl, -⟩)
      · exact hnil h
      · simp at hone
  · rw [hcode, hmean]
    constructor
    · intro h
      exact .inr ⟨x, y, rfl, by linarith⟩
    · rintro (h | ⟨s₁, s₂, hss, heq⟩)
      · cases h
      · simp only [List.cons.injEq, and_true] at hss
        obtain ⟨rfl, rfl⟩ := hss
        linarith
  · have hnil : ss ≠ [] := List.ne_nil_of_length_pos (by omega)
    have hmean := mean_window_pos hpos hnil
    refine iff_of_false (fun h => ?_) ?_
    · have hprod : 0 < mean (ss.rtake 3) * n₂ := by positivity
      rw [hcode] at h
      linarith
    · rintro (h | ⟨s₁, s₂, rfl, -⟩)
      · exact hnil h
      · simp at hlen

/-- After any frames the counters are those of the samples, the estimate is a quotient by zero
exactly after one noise frame, and it is the ratio of the means of the last three powers exactly
when the first sample of each kind is out of its window, or cancels. -/
theorem snr_is_window_ratio_iff (h : Received ss ns m) :
    (m.signal.num = ss.length ∧ m.noise.num = ns.length) ∧
    (m.getSNR = none ↔ ns.length = 1) ∧
    (m.getSNR = some (windowSNR ss ns) ↔ SnrExact ss ns) := by
  obtain ⟨hs, hn, hspos, hnpos⟩ := h.holds
  refine ⟨⟨by rw [hs.num, List.length_map], by rw [hn.num, List.length_map]⟩, ?_, ?_⟩
  · rw [h.getSNR]
    by_cases hnil : ns = []
    · simp [hnil]
    · rw [if_neg hnil]
      by_cases hone : ns.length = 1
      · simp [hone]
      · simp [hone]
  · rw [h.getSNR]
    unfold windowSNR SnrExact
    rcases codeMean_cases hnpos with ⟨rfl, -⟩ | ⟨hone, -⟩ | ⟨n₁, n₂, rfl, hcode, hmean, hn₁, hn₂⟩ |
      ⟨hlen, hcode⟩
    · simp
    · have hnil : ns ≠ [] := List.ne_nil_of_length_eq_add_one hone
      rw [if_neg hnil, if_pos hone]
      simp [hnil, hone]
    · rw [if_neg (by simp), if_neg (by simp), if_neg (by simp), hcode, hmean, Option.some_inj,
        two_noise_ratio hspos hn₁ hn₂]
      constructor
      · exact fun h => .inr (.inr ⟨rfl, h.imp id fun ⟨s₁, s₂, hss, heq⟩ =>
          ⟨s₁, s₂, n₁, n₂, hss, rfl, heq⟩⟩)
      · rintro (h | ⟨h, -⟩ | ⟨-, h | ⟨s₁, s₂, n₁', n₂', hss, hns, heq⟩⟩)
        · simp at h
        · simp at h
        · exact .inl h
        · simp only [List.cons.injEq, and_true] at hns
          obtain ⟨rfl, rfl⟩ := hns
          exact .inr ⟨s₁, s₂, hss, heq⟩
    · have hnil : ns ≠ [] := List.ne_nil_of_length_pos (by omega)
      rw [if_neg hnil, if_neg hnil, if_neg (by omega), hcode, Option.some_inj,
        full_noise_ratio hspos (mean_window_pos hnpos hnil)]
      constructor
      · exact fun h => .inr (.inl ⟨hlen, h⟩)
      · rintro (h | ⟨-, h⟩ | ⟨h, -⟩)
        · exact absurd h hnil
        · exact h
        · omega

/-! ## Concrete frames -/

def frameOf (fcType : FcType) (rxPr : ℚ) : MacFrame := ⟨.up, fcType, rxPr⟩

def filledMac : Mac802_11 :=
  [frameOf .reserved 1, frameOf .data 5, frameOf .reserved 2, frameOf .reserved 3, frameOf .data 6,
    frameOf .control 7].foldl Mac802_11.recv {}

theorem filledMac_received : Received [5, 6, 7] [1, 2, 3] filledMac :=
  .recv (frameOf .control 7) (by decide) (.recv (frameOf .data 6) (by decide)
    (.recv (frameOf .reserved 3) (by decide) (.recv (frameOf .reserved 2) (by decide)
      (.recv (frameOf .data 5) (by decide) (.recv (frameOf .reserved 1) (by decide) .init)))))

theorem filledMac_snr : filledMac.getSNR = some (windowSNR [5, 6, 7] [1, 2, 3]) ∧
    windowSNR [5, 6, 7] [1, 2, 3] = 3 :=
  ⟨(snr_is_window_ratio_iff filledMac_received).2.2.mpr (.inr (.inl ⟨by decide, .inr (by decide)⟩)),
    by decide +kernel⟩

/-- One noise frame makes the estimate a quotient by zero, and after two noise frames and a
signal of the same power it is zero. -/
theorem snr_not_window_ratio :
    (∃ m, Received [] [1] m ∧ m.getSNR = none) ∧
    ∃ m, Received [1] [1, 1] m ∧ m.getSNR = some 0 ∧ windowSNR [1] [1, 1] = 1 := by
  have hone : Received [] [1] (Mac802_11.recv {} (frameOf .reserved 1)) :=
    .recv (frameOf .reserved 1) (by decide) .init
  refine ⟨⟨_, hone, by decide +kernel⟩, ?_⟩
  have htwo : Received [] [1, 1] _ := .recv (frameOf .reserved 1) (by decide) hone
  exact ⟨_, .recv (frameOf .data 1) (by decide) htwo, by decide +kernel, by decide +kernel⟩

end AodvUU

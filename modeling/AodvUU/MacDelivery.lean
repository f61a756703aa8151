import AodvUU.Lib.LastTag
import AodvUU.MacReception

/-! # Packets from one station to another

The sender serves one packet after the other. The receiver keeps the number of the last packet
from each node, so that a packet that was sent again is passed up once. -/
namespace AodvUU

open LastTag

/-! ## What a station did with its packets -/

def Frame.key (p : Frame) : ℕ × BitVec 16 := (p.uid, p.scontrol)

def acceptedFrames (log : List MacLog) : List Frame :=
  log.filterMap fun | .accept p => some p | _ => none

def freedFrames (log : List MacLog) : List Frame :=
  log.filterMap fun | .freed p => some p | _ => none

def airedFrames (log : List MacLog) : List Frame :=
  log.filterMap fun | .air p => if p.kind = .data then some p else none | _ => none

def Frame.Between (dst src : BitVec 32) (p : Frame) : Prop :=
  p.kind = .data ∧ p.ra = dst ∧ p.ta = src ∧ p.error = false

instance (dst src : BitVec 32) (p : Frame) : Decidable (p.Between dst src) :=
  inferInstanceAs (Decidable (_ ∧ _ ∧ _ ∧ _))

def Frame.Ours (c : MacConf) (p : Frame) : Prop :=
  p.error = false ∧ p.kind = .data ∧ (p.ra = c.index ∨ p.ra = macBroadcast)

/-- The data from another station that began to arrive. -/
def heardFrames (dst src : BitVec 32) (log : List MacLog) : List Frame :=
  log.filterMap fun | .heard p => if p.Between dst src then some p else none | _ => none

def passedFrames (dst src : BitVec 32) (log : List MacLog) : List Frame :=
  log.filterMap fun | .up p => if p.ra = dst ∧ p.ta = src then some p else none | _ => none

variable {c : MacConf} {t : ℚ} {e : MacEnv} {ok : ℚ → Station → MacEvent → Prop} {m m' : Sender}
  {s s' : Station} {p : Frame} {o : MacLog} {log : List MacLog} {dst src : BitVec 32}

/-! ## The sender serves its packets in order -/

structure Sender.Serves (m : Sender) : Prop where
  conserved : (acceptedFrames m.log).map Frame.key = (freedFrames m.log).map Frame.key ++
    (m.pktTx.map Frame.key).toList
  called : m.log.count .ready + m.callback.toNat = (acceptedFrames m.log).length
  repeats : Repeats ((acceptedFrames m.log).map Frame.key) ((airedFrames m.log).map Frame.key)

theorem accepted_note : acceptedFrames (m.note o).log =
    acceptedFrames m.log ++ (match o with | .accept p => [p] | _ => []) := by
  unfold acceptedFrames Sender.note
  cases o <;> simp

theorem freed_note : freedFrames (m.note o).log =
    freedFrames m.log ++ (match o with | .freed p => [p] | _ => []) := by
  unfold freedFrames Sender.note
  cases o <;> simp

theorem aired_note : airedFrames (m.note o).log =
    airedFrames m.log ++
      (match o with | .air p => if p.kind = .data then [p] else [] | _ => []) := by
  unfold airedFrames Sender.note
  cases o with
  | air p => by_cases hp : p.kind = .data <;> simp [hp]
  | _ => simp

theorem count_ready_note : (m.note o).log.count .ready =
    m.log.count .ready + if o = .ready then 1 else 0 := by
  unfold Sender.note
  rw [List.count_append, List.count_singleton]
  cases o <;> simp

theorem Sender.Serves.of_eq (h : m.Serves) (htx : m'.pktTx.map Frame.key = m.pktTx.map Frame.key)
    (hcall : m'.callback = m.callback) (hlog : m'.log = m.log) : m'.Serves := by
  obtain ⟨hcons, hcalled, hrep⟩ := h
  exact ⟨by rw [hlog, htx, hcons], by rw [hlog, hcall, hcalled], by rw [hlog]; exact hrep⟩

theorem Sender.Serves.aside (h : m.Serves) (ho : o.Aside) : (m.note o).Serves := by
  obtain ⟨hcons, hcalled, hrep⟩ := h
  have hacc : acceptedFrames (m.note o).log = acceptedFrames m.log := by
    rw [accepted_note]
    cases o <;> simp_all [MacLog.Aside]
  have hfreed : freedFrames (m.note o).log = freedFrames m.log := by
    rw [freed_note]
    cases o <;> simp_all [MacLog.Aside]
  have hair : airedFrames (m.note o).log = airedFrames m.log := by
    rw [aired_note]
    cases o <;> simp_all [MacLog.Aside]
  have hcount : (m.note o).log.count .ready = m.log.count .ready := by
    rw [count_ready_note, if_neg (by rintro rfl; exact ho), Nat.add_zero]
  exact ⟨by rw [hacc, hfreed]; exact hcons, by rw [hacc, hcount]; exact hcalled,
    by rw [hacc, hair]; exact hrep⟩

theorem Sender.Serves.release (h : m.Serves) (hp : m.pktTx = some p) : (m.release c p).Serves := by
  obtain ⟨hcons, hcalled, hrep⟩ := h
  unfold Sender.release
  refine ⟨?_, ?_, ?_⟩
  · rw [accepted_note, freed_note]
    simpa [hp, Sender.note] using hcons
  · rw [accepted_note, count_ready_note]
    simpa [Sender.note] using hcalled
  · rw [accepted_note, aired_note]
    simpa using hrep

theorem Sender.Serves.setCount {k : ℕ} (h : m.Serves) : (m.setCount c p k).Serves := by
  unfold Sender.setCount
  split
  · exact h.of_eq rfl rfl rfl
  · exact h.of_eq rfl rfl rfl

theorem setCount_pktTx {k : ℕ} : (m.setCount c p k).pktTx = m.pktTx := by
  unfold Sender.setCount
  split <;> rfl

theorem Sender.Serves.move (h : m.Serves) (hm : Move c m m') : m'.Serves := by
  cases hm with
  | aside ho => exact h.aside ho
  | accept htx hrts hcall =>
    obtain ⟨hcons, hcalled, hrep⟩ := h
    refine ⟨?_, ?_, ?_⟩
    · rw [accepted_note, freed_note]
      simpa [htx, Sender.note] using hcons
    · rw [accepted_note, count_ready_note]
      simpa [hcall, Sender.note] using hcalled
    · rw [accepted_note, aired_note, List.map_append]
      simpa using hrep.next _
  | ready htx hcall =>
    obtain ⟨hcons, hcalled, hrep⟩ := h
    refine ⟨?_, ?_, ?_⟩
    · rw [accepted_note, freed_note]
      simpa [Sender.note] using hcons
    · rw [accepted_note, count_ready_note]
      simpa [hcall, Sender.note] using hcalled
    · rw [accepted_note, aired_note]
      simpa using hrep
  | request => exact h.of_eq rfl rfl rfl
  | widen => exact h.of_eq rfl rfl rfl
  | cleared => exact h.of_eq rfl rfl rfl
  | rtsTimeout => exact h.of_eq rfl rfl rfl
  | rtsFail htx =>
    exact Sender.Serves.release (m := { m with pktRTS := none, ssrc := 0 }) (h.of_eq rfl rfl rfl) htx
  | @air p htx hkind hrts hsend =>
    obtain ⟨hcons, hcalled, hrep⟩ := h
    refine ⟨?_, ?_, ?_⟩
    · rw [accepted_note, freed_note]
      simpa [Sender.note] using hcons
    · rw [accepted_note, count_ready_note]
      simpa [Sender.note] using hcalled
    · rw [htx] at hcons
      rw [accepted_note, aired_note]
      simp only [hkind, if_true, List.append_nil, List.map_append, List.map_cons, List.map_nil]
      rw [hcons] at hrep ⊢
      exact hrep.put
  | acked htx => exact h.setCount.release (setCount_pktTx.trans htx)
  | broadcast htx => exact h.release htx
  | timeout htx => exact h.setCount.of_eq (by rw [setCount_pktTx, htx]; rfl) rfl rfl
  | fail htx => exact h.setCount.release (setCount_pktTx.trans htx)

theorem serves_moves (hm : Moves c m m') (h : m.Serves) : m'.Serves := by
  induction hm with
  | refl => exact h
  | tail _ hstep ih => exact ih.move hstep

theorem serves_init : ({ cw := c.cwMin } : Sender).Serves := ⟨rfl, rfl, .nil⟩

theorem reachable_serves (h : MacReachable c ok t s) : s.sender.Serves :=
  serves_moves (reachable_moves h).1 serves_init

/-- The packets that were accepted are those whose sending has ended, in their order, and then
the one in hand. The queue was called back once for each of them, but for a call that is due. -/
theorem packets_served (h : MacReachable c ok t s) :
    (acceptedFrames s.log).map Frame.key =
        (freedFrames s.log).map Frame.key ++ (s.pktTx.map Frame.key).toList ∧
      s.log.count .ready + s.callback.toNat = (acceptedFrames s.log).length :=
  ⟨(reachable_serves h).conserved, (reachable_serves h).called⟩

/-- A packet to another station is acknowledged, and the next one is taken from the queue. -/
def servedRun : List (ℚ × MacEvent) :=
  [(0, .send { kind := .data, uid := 7, size := 100, ra := 2, ta := 1 }),
    (50 / 10 ^ 6, .backoffTimer), (1266 / 10 ^ 6, .txTimer),
    (1276 / 10 ^ 6, .recv { kind := .ack, size := 38, txtime := 304 / 10 ^ 6, rxPr := 1, ra := 1 }),
    (1580 / 10 ^ 6, .recvTimer),
    (1600 / 10 ^ 6, .send { kind := .data, uid := 8, size := 100, ra := 2, ta := 1 })]

def servedStation : ℚ × Station :=
  ((Station.init (sampleMac 1) 0 0 0).run (sampleMac 1) (fun _ _ _ => True) 0 servedRun).get
    (by decide +kernel)

theorem servedStation_reachable :
    MacReachable (sampleMac 1) (fun _ _ _ => True) servedStation.1 servedStation.2 :=
  (MacReachable.init 0 0 0).run (Option.some_get _).symm

theorem servedStation_served : (freedFrames servedStation.2.log).map Frame.key = [(7, 1)] ∧
    (acceptedFrames servedStation.2.log).map Frame.key =
      (freedFrames servedStation.2.log).map Frame.key ++
        (servedStation.2.pktTx.map Frame.key).toList ∧
      servedStation.2.log.count .ready + servedStation.2.callback.toNat =
        (acceptedFrames servedStation.2.log).length :=
  ⟨by decide +kernel, packets_served servedStation_reachable⟩

/-! ## The numbers of the packets -/

def numbers (n : ℕ) : List (BitVec 16) := (List.range n).map fun i => BitVec.ofNat 16 (i + 1)

structure Sender.Numbers (m : Sender) : Prop where
  next : m.staSeqno = BitVec.ofNat 16 ((acceptedFrames m.log).length + 1)
  past : (acceptedFrames m.log).map (·.scontrol) = numbers (acceptedFrames m.log).length

theorem accepted_move (hm : Move c m m') :
    acceptedFrames m'.log = acceptedFrames m.log ∧ m'.staSeqno = m.staSeqno ∨
      ∃ p, acceptedFrames m'.log = acceptedFrames m.log ++ [m.numbered c p] ∧
        m'.staSeqno = m.staSeqno + 1 := by
  have hrelease : ∀ (m₁ : Sender) (p : Frame), acceptedFrames (m₁.release c p).log =
      acceptedFrames m₁.log ∧ (m₁.release c p).staSeqno = m₁.staSeqno := by
    intro m₁ p
    unfold Sender.release
    exact ⟨accepted_note.trans (List.append_nil _), rfl⟩
  have hcount : ∀ (p : Frame) (k : ℕ), acceptedFrames (m.setCount c p k).log = acceptedFrames m.log ∧
      (m.setCount c p k).staSeqno = m.staSeqno := by
    intro p k
    unfold Sender.setCount
    split <;> exact ⟨rfl, rfl⟩
  cases hm with
  | aside ho =>
    refine .inl ⟨?_, rfl⟩
    rw [accepted_note]
    cases ‹MacLog› <;> simp_all [MacLog.Aside]
  | accept => exact .inr ⟨_, accepted_note, rfl⟩
  | ready => exact .inl ⟨accepted_note.trans (List.append_nil _), rfl⟩
  | request => exact .inl ⟨rfl, rfl⟩
  | widen => exact .inl ⟨rfl, rfl⟩
  | cleared => exact .inl ⟨rfl, rfl⟩
  | rtsTimeout => exact .inl ⟨rfl, rfl⟩
  | rtsFail => exact .inl (hrelease _ _)
  | air => exact .inl ⟨accepted_note.trans (List.append_nil _), rfl⟩
  | @acked p =>
    exact .inl ⟨(hrelease _ _).1.trans (hcount p 0).1, (hrelease _ _).2.trans (hcount p 0).2⟩
  | broadcast => exact .inl (hrelease _ _)
  | timeout => exact .inl (hcount _ _)
  | @fail p =>
    exact .inl ⟨(hrelease _ _).1.trans (hcount p 0).1, (hrelease _ _).2.trans (hcount p 0).2⟩

theorem Sender.Numbers.move (h : m.Numbers) (hm : Move c m m') : m'.Numbers := by
  obtain ⟨hnext, hpast⟩ := h
  obtain ⟨hacc, hseq⟩ | ⟨p, hacc, hseq⟩ := accepted_move hm
  · exact ⟨by rw [hseq, hacc, hnext], by rw [hacc, hpast]⟩
  · refine ⟨?_, ?_⟩
    · rw [hseq, hacc, hnext, List.length_append, List.length_singleton]
      exact (BitVec.ofNat_add (n := 16) _ 1).symm
    · rw [hacc, List.map_append, hpast, List.length_append, List.length_singleton, numbers, numbers,
        List.range_succ, List.map_append]
      simp [Sender.numbered, hnext]

theorem numbers_ne_zero {n : ℕ} (hn : n < 2 ^ 16) {x : BitVec 16} (hx : x ∈ numbers n) : x ≠ 0 := by
  obtain ⟨i, hi, rfl⟩ := List.mem_map.mp hx
  rw [List.mem_range] at hi
  intro h0
  have hnat := congrArg BitVec.toNat h0
  rw [BitVec.toNat_ofNat, Nat.mod_eq_of_lt (by omega)] at hnat
  cases hnat

theorem reachable_numbers (h : MacReachable c ok t s) : s.sender.Numbers := by
  have hrun : ∀ m' : Sender, Moves c { cw := c.cwMin } m' → m'.Numbers := by
    intro m' hm
    induction hm with
    | refl => exact ⟨rfl, rfl⟩
    | tail _ hstep ih => exact ih.move hstep
  exact hrun _ (reachable_moves h).1

/-! ## The receiver -/

/-- The data from another station that is being received. -/
def Station.pending (c : MacConf) (src : BitVec 32) (s : Station) : List Frame :=
  s.pktRx.toList.filter fun p => p.Between c.index src

/-- What was passed up is what the numbers of the frames that came through let pass. -/
structure Station.Receives (c : MacConf) (src : BitVec 32) (zs : List (ℕ × BitVec 16))
    (s : Station) : Prop where
  heard : (zs ++ (s.pending c src).map Frame.key).Sublist
    ((heardFrames c.index src s.log).map Frame.key)
  passed : (passedFrames c.index src s.log).map Frame.key = passed Prod.snd 0 0 zs
  cache : s.cache src = seen Prod.snd 0 zs

variable {zs : List (ℕ × BitVec 16)} {os : List MacLog}

theorem heardFrames_append (l l' : List MacLog) :
    heardFrames dst src (l ++ l') = heardFrames dst src l ++ heardFrames dst src l' :=
  List.filterMap_append

theorem passedFrames_append (l l' : List MacLog) :
    passedFrames dst src (l ++ l') = passedFrames dst src l ++ passedFrames dst src l' :=
  List.filterMap_append

theorem heardFrames_outward (hos : ∀ o ∈ os, o.Outward) : heardFrames dst src os = [] := by
  unfold heardFrames
  rw [List.filterMap_eq_nil_iff]
  intro o ho
  have hout := hos o ho
  cases o <;> first | rfl | exact absurd hout id

theorem passedFrames_outward (hos : ∀ o ∈ os, o.Outward) : passedFrames dst src os = [] := by
  unfold passedFrames
  rw [List.filterMap_eq_nil_iff]
  intro o ho
  have hout := hos o ho
  cases o <;> first | rfl | exact absurd hout id

namespace Station

theorem pending_none (h : s.pktRx = none) : s.pending c src = [] := by
  unfold pending
  rw [h]
  rfl

theorem pending_of_outgoing (h : s.Outgoing s') : s'.pending c src = s.pending c src ∨
    s'.pending c src = [] := by
  unfold pending
  obtain hp | hp := h.pktRx
  · exact .inl (by rw [hp])
  · refine .inr ?_
    rw [hp]
    cases s.pktRx with
    | none => rfl
    | some p => simp [Frame.lost, Frame.Between]

theorem Receives.outgoing (h : s.Receives c src zs) (ho : s.Outgoing s') :
    s'.Receives c src zs := by
  obtain ⟨os, hos, hlog⟩ := ho.log
  refine ⟨?_, ?_, by rw [ho.cache]; exact h.cache⟩
  · rw [hlog, heardFrames_append, heardFrames_outward hos, List.append_nil]
    obtain hp | hp := (pending_of_outgoing ho : s'.pending c src = s.pending c src ∨ _)
    · rw [hp]
      exact h.heard
    · rw [hp, List.map_nil, List.append_nil]
      exact (List.sublist_append_left _ _).trans h.heard
  · rw [hlog, passedFrames_append, passedFrames_outward hos, List.append_nil]
    exact h.passed

theorem receives_of_none (hp : s.pktRx = none)
    (hheard : zs.Sublist ((heardFrames c.index src s.log).map Frame.key))
    (hpassed : (passedFrames c.index src s.log).map Frame.key = passed Prod.snd 0 0 zs)
    (hcache : s.cache src = seen Prod.snd 0 zs) : s.Receives c src zs :=
  ⟨by rw [pending_none hp, List.map_nil, List.append_nil]; exact hheard, hpassed, hcache⟩

theorem Receives.sublist (h : s.Receives c src zs) :
    zs.Sublist ((heardFrames c.index src s.log).map Frame.key) :=
  (List.sublist_append_left _ _).trans h.heard

theorem Receives.clear (h : s.Receives c src zs) : { s with pktRx := none }.Receives c src zs :=
  receives_of_none rfl h.sublist h.passed h.cache

/-! ### The first bit of a frame -/

theorem collision_began (h : s.collision c t p = some s') : s'.cache = s.cache ∧
    (∃ os : List MacLog, (∀ o ∈ os, o.Outward) ∧ s'.log = s.log ++ os) ∧
      (s'.pktRx = s.pktRx ∨ s'.pktRx = some p) := by
  obtain ⟨s₁, hs₁, hend⟩ := collision_cases h
  have hrx : s₁.cache = s.cache ∧ s₁.pktRx = s.pktRx ∧ s₁.log = s.log := by
    obtain rfl | rfl := hs₁
    · exact ⟨rfl, rfl, rfl⟩
    · obtain ⟨b, hb⟩ := setRxState_eq (c := c) (t := t) (s := s) .coll
      rw [hb]
      exact ⟨rfl, rfl, rfl⟩
  obtain ⟨hcache, hp, hlog⟩ := hrx
  obtain rfl | ⟨q, hstart⟩ := hend
  · obtain ⟨os, hos, hdis⟩ := discard_eq (c := c) (p := p) (s := s₁) .collision
    rw [hdis]
    exact ⟨hcache, ⟨os, hos, by rw [hlog]⟩, .inl hp⟩
  · obtain ⟨os, hos, hdis⟩ := discard_eq (c := c) (p := q) (s := { s₁ with mhRecv := none })
      .collision
    rw [hdis] at hstart
    obtain ⟨-, rfl⟩ := startRecv_cases hstart
    exact ⟨hcache, ⟨os, hos, by rw [hlog]⟩, .inr rfl⟩

theorem recvFrame_began (h : s.recvFrame c t p = some s') : s'.cache = s.cache ∧
    (∃ os : List MacLog, (∀ o ∈ os, o.Outward) ∧ s'.log = s.log ++ .heard p :: os) ∧
      (s'.pktRx = s.pktRx ∨ s'.pktRx = some { p with error := p.error || s.txActive }) := by
  obtain ⟨s₁, q, rfl, rfl, ⟨-, hstart⟩ | rfl | hcoll⟩ := recvFrame_cases h
  · obtain ⟨b, hb⟩ := setRxState_eq (c := c) (t := t) (s := s.note (.heard p)) .recv
    rw [hb] at hstart
    obtain ⟨-, rfl⟩ := startRecv_cases hstart
    exact ⟨rfl, ⟨[], by simp, rfl⟩, .inr rfl⟩
  · have hnav := setNav_outgoing (t := t) (s := s.note (.heard p)) (usec (c.eifs + p.txtime))
    obtain ⟨os, hos, hlog⟩ := hnav.log
    refine ⟨hnav.cache, ⟨os, hos, ?_⟩, .inl ?_⟩
    · rw [capture, hlog, note, List.append_assoc]
      rfl
    · unfold capture setNav
      split <;> rfl
  · obtain ⟨hcache, ⟨os, hos, hlog⟩, hp⟩ := collision_began hcoll
    refine ⟨hcache, ⟨os, hos, ?_⟩, hp⟩
    rw [hlog, note, List.append_assoc]
    rfl

theorem Receives.began (h : s.Receives c src zs) (hr : s.recvFrame c t p = some s') :
    s'.Receives c src zs := by
  obtain ⟨hheard, hpassed, hcache⟩ := h
  obtain ⟨hc, ⟨os, hos, hlog⟩, hp⟩ := recvFrame_began hr
  have hnew : (heardFrames c.index src s'.log).map Frame.key =
      (heardFrames c.index src s.log).map Frame.key ++
        (heardFrames c.index src [.heard p]).map Frame.key := by
    rw [hlog, heardFrames_append, ← List.singleton_append, heardFrames_append,
      heardFrames_outward hos, List.append_nil, List.map_append]
  refine ⟨?_, ?_, by rw [hc]; exact hcache⟩
  · rw [hnew]
    obtain hp | hp := hp
    · have hsame : s'.pending c src = s.pending c src := by
        unfold pending
        rw [hp]
      rw [hsame]
      exact hheard.trans (List.sublist_append_left _ _)
    · refine ((List.sublist_append_left _ _).trans hheard).append ?_
      by_cases hnow : ({ p with error := p.error || s.txActive } : Frame).Between c.index src
      · have hgood : p.Between c.index src :=
          ⟨hnow.1, hnow.2.1, hnow.2.2.1, (Bool.or_eq_false_iff.mp hnow.2.2.2).1⟩
        simp [pending, heardFrames, hp, hnow, hgood, Frame.key]
      · simp [pending, hp, hnow]
  · rw [hlog, passedFrames_append, ← List.singleton_append, passedFrames_append,
      passedFrames_outward hos, List.append_nil]
    change (passedFrames c.index src s.log ++ []).map Frame.key = _
    rw [List.append_nil]
    exact hpassed

/-! ### The end of a frame -/

theorem recvDATA_delivers (h : s.recvDATA c t e p = some s') : s.Outgoing s' ∨
    ∃ s₁ q, s' = s₁.deliver c q ∧ s.Outgoing s₁ ∧ q.key = p.key ∧ q.ra = p.ra ∧ q.ta = p.ta := by
  obtain ⟨q, rfl, rfl | rfl | ⟨s₁, rfl, ⟨-, hack⟩ | hack⟩⟩ := recvDATA_cases h
  · exact .inr ⟨s, _, rfl, .refl, rfl, rfl, rfl⟩
  · exact .inl (discard_outgoing _)
  · exact .inr ⟨s₁, _, rfl, ackAfterCts_outgoing hack, rfl, rfl, rfl⟩
  · exact .inr ⟨s₁, _, rfl, ackShort_outgoing hack, rfl, rfl, rfl⟩

theorem arrived_delivers (h : s.arrived c t e p = some s') : s.Outgoing s' ∨ p.Ours c ∧
    ∃ s₁ q, s' = s₁.deliver c q ∧ s.Outgoing s₁ ∧ q.key = p.key ∧ q.ra = p.ra ∧ q.ta = p.ta := by
  obtain rfl | rfl | rfl | ⟨-, -, herr, hthrough⟩ := arrived_cases h
  · exact .inl .refl
  · exact .inl ((discard_outgoing _).trans (setNav_outgoing _))
  · exact .inl (setNav_outgoing _)
  · obtain ⟨s₁, hs₁, hend⟩ := received_cases hthrough
    have hnav : s.Outgoing s₁ := by
      rw [hs₁]
      split
      · exact .refl
      · exact setNav_outgoing _
    obtain rfl | ⟨hours, ⟨-, hrts⟩ | ⟨-, hcts⟩ | ⟨-, hack⟩ | ⟨hkind, hdata⟩ | ⟨-, rfl⟩⟩ := hend
    · exact .inl (hnav.trans (discard_outgoing _))
    · exact .inl (hnav.trans (recvRTS_outgoing hrts))
    · exact .inl (hnav.trans (recvCTS_outgoing hcts))
    · exact .inl (hnav.trans (recvACK_outgoing hack))
    · obtain hout | ⟨s₂, q, heq, hout, hq⟩ := recvDATA_delivers hdata
      · exact .inl (hnav.trans hout)
      · exact .inr ⟨⟨herr, hkind, hours⟩, s₂, q, heq, hnav.trans hout, hq⟩
    · exact .inl (hnav.trans (.of_eq rfl rfl rfl rfl rfl))

theorem Receives.deliver_other {q : Frame} (h : s.Receives c src zs) (hp : s.pktRx = none)
    (hours : q.ra = c.index ∨ q.ra = macBroadcast) (hother : ¬ (q.ra = c.index ∧ q.ta = src)) :
    (s.deliver c q).Receives c src zs := by
  have hup : passedFrames c.index src [.up q] = [] := by simp [passedFrames, hother]
  have hnote : (s.note (.up q)).Receives c src zs := by
    refine receives_of_none hp ?_ ?_ h.cache
    · rw [note, heardFrames_append]
      simpa [heardFrames] using h.sublist
    · rw [note, passedFrames_append, hup, List.append_nil]
      exact h.passed
  unfold deliver
  split
  · exact hnote
  · next hra =>
    have hta : src ≠ q.ta := fun he => hother ⟨hours.resolve_right hra, he.symm⟩
    split
    · split
      · exact h.outgoing (discard_outgoing _)
      · exact ⟨hnote.heard, hnote.passed, (Function.update_of_ne hta _ _).trans h.cache⟩
    · exact hnote

theorem Receives.deliver_from {q : Frame} (h : s.Receives c src zs) (hp : s.pktRx = none)
    (hself : c.index ≠ macBroadcast) (hcount : src.toNat < c.cacheNodeCount)
    (hra : q.ra = c.index) (hta : q.ta = src)
    (hheard : (zs ++ [q.key]).Sublist ((heardFrames c.index src s.log).map Frame.key)) :
    (s.deliver c q).Receives c src (zs ++ [q.key]) := by
  have hlast : seen Prod.snd 0 (zs ++ [q.key]) = q.scontrol := seen_concat q.key
  unfold deliver
  rw [if_neg (by rw [hra]; exact hself), if_pos (by rw [hta]; exact hcount)]
  split
  · next hdup =>
    obtain ⟨os, hos, hdis⟩ := discard_eq (c := c) (p := q) (s := s) .duplicate
    rw [hdis]
    refine receives_of_none hp ?_ ?_ ?_
    · rw [heardFrames_append, heardFrames_outward hos, List.append_nil]
      exact hheard
    · rw [passedFrames_append, passedFrames_outward hos, List.append_nil, h.passed, passed_concat]
      rw [if_pos, List.append_nil]
      rw [← h.cache, ← hta]
      exact hdup
    · rw [hlast, ← hdup.2, hta]
  · next hfresh =>
    refine receives_of_none hp ?_ ?_ ?_
    · rw [note, heardFrames_append]
      simpa [heardFrames] using hheard
    · rw [note, passedFrames_append, List.map_append, passed_concat]
      rw [if_neg (by rw [← h.cache, ← hta]; exact hfresh), ← h.passed]
      simp [passedFrames, hra, hta]
    · rw [hlast, ← hta]
      exact Function.update_self _ _ _

theorem discard_clear (why : MacDrop) : ({ s.discard c p why with pktRx := none } : Station) =
    Station.discard c p why { s with pktRx := none } := by
  unfold discard
  split
  · rfl
  · split
    · rfl
    all_goals split <;> rfl

theorem deliver_clear : ({ s.deliver c p with pktRx := none } : Station) =
    Station.deliver c p { s with pktRx := none } := by
  unfold deliver
  split
  · rfl
  · split
    · by_cases hdup : s.cache p.ta ≠ 0 ∧ s.cache p.ta = p.scontrol
      · rw [if_pos hdup, if_pos hdup]
        exact discard_clear _
      · rw [if_neg hdup, if_neg hdup]
        rfl
    · rfl

theorem Receives.ended (h : s.Receives c src zs) (hself : c.index ≠ macBroadcast)
    (hcount : src.toNat < c.cacheNodeCount) (hr : s.recvTimer c t e = some s') :
    ∃ zs', s'.Receives c src zs' := by
  obtain ⟨p, s₁, hp, -, hs₁, rfl⟩ := recvTimer_cases hr
  have hdone : ∃ zs', ({ s₁ with pktRx := none } : Station).Receives c src zs' := by
    obtain hout | ⟨⟨herr, hkind, hours⟩, s₂, q, rfl, hout, hkey, hra, hta⟩ := arrived_delivers hs₁
    · exact ⟨zs, (h.outgoing hout).clear⟩
    · have hclear : ({ s₂ with pktRx := none } : Station).Receives c src zs :=
        (h.outgoing hout).clear
      rw [deliver_clear]
      by_cases hfrom : p.ra = c.index ∧ p.ta = src
      · refine ⟨zs ++ [q.key], hclear.deliver_from rfl hself hcount (hra.trans hfrom.1)
          (hta.trans hfrom.2) ?_⟩
        have hpend : s.pending c src = [p] := by
          unfold pending
          rw [hp]
          simp [Frame.Between, herr, hkind, hfrom]
        obtain ⟨os, hos, hlog⟩ := hout.log
        have hheard := h.heard
        rw [hpend] at hheard
        rw [hkey, hlog, heardFrames_append, heardFrames_outward hos, List.append_nil]
        exact hheard
      · exact ⟨zs, hclear.deliver_other rfl (by rw [hra]; exact hours) (by rwa [hra, hta])⟩
  obtain ⟨zs', hzs⟩ := hdone
  obtain ⟨b, hb⟩ := setRxState_eq (c := c) (t := t) (s := { s₁ with pktRx := none }) .idle
  rw [hb]
  exact ⟨zs', hzs.heard, hzs.passed, hzs.cache⟩

theorem Receives.step {ev : MacEvent} (h : s.Receives c src zs) (hself : c.index ≠ macBroadcast)
    (hcount : src.toNat < c.cacheNodeCount) (hstep : s.step c t e ev = some s') :
    ∃ zs', s'.Receives c src zs' := by
  have hquiet : ∀ {x y : Station}, s.Outgoing x → x.Outgoing y →
      ∃ zs', y.Receives c src zs' :=
    fun h₁ h₂ => ⟨zs, h.outgoing (h₁.trans h₂)⟩
  have hrecv : ∀ {dir q}, s.recv c t e dir q = some s' → ∃ zs', s'.Receives c src zs' := by
    intro dir q hr
    obtain ⟨mac, p, -, hend⟩ := recv_cases hr
    have hmac : s.Outgoing { s with mac } := .of_eq rfl rfl rfl rfl rfl
    obtain rfl | ⟨-, hsend⟩ | ⟨-, hbegin⟩ := hend
    · exact hquiet .refl hmac
    · exact hquiet hmac (send_outgoing hsend)
    · exact ⟨zs, (h.outgoing hmac).began hbegin⟩
  cases ev with
  | send p => exact hrecv hstep
  | recv p => exact hrecv hstep
  | recvTimer =>
    exact Receives.ended (s := { s with mhRecv := none }) ⟨h.heard, h.passed, h.cache⟩ hself hcount
      hstep
  | sendTimer =>
    exact hquiet (x := { s with mhSend := none }) (.of_eq rfl rfl rfl rfl rfl)
      (sendTimer_outgoing hstep)
  | deferTimer =>
    exact hquiet (x := { s with mhDefer := none }) (.of_eq rfl rfl rfl rfl rfl)
      (deferHandler_outgoing hstep)
  | backoffTimer =>
    exact hquiet (x := { s with mhBackoff := none }) (.of_eq rfl rfl rfl rfl rfl)
      (backoffHandler_outgoing hstep)
  | navTimer =>
    obtain rfl := Option.some.inj hstep
    exact hquiet (x := { s with mhNav := none }) (.of_eq rfl rfl rfl rfl rfl) navHandler_outgoing
  | txTimer =>
    obtain rfl := Option.some.inj hstep
    exact hquiet .refl (.of_eq rfl rfl rfl rfl rfl)
  | noiseTimer =>
    obtain rfl := Option.some.inj hstep
    exact hquiet .refl ⟨rfl, rfl, rfl, .inl rfl, [.air c.noiseFrame], by simp [MacLog.Outward], rfl⟩
  | validTimer =>
    obtain rfl := Option.some.inj hstep
    exact hquiet .refl (.of_eq rfl rfl rfl rfl rfl)

end Station

theorem reachable_receives (h : MacReachable c ok t s) (hself : c.index ≠ macBroadcast)
    (hcount : src.toNat < c.cacheNodeCount) : ∃ zs, s.Receives c src zs := by
  induction h with
  | init => exact ⟨[], .refl _, rfl, rfl⟩
  | step _ _ _ _ hstep _ ih =>
    obtain ⟨zs, hzs⟩ := ih
    exact hzs.step hself hcount hstep

/-! ## From one station to the other -/

/-- Whatever is lost on the medium, the packets that a station passes up from another are among
those that the other accepted, in their order and each at most once: all those with a number
other than 0, which is every packet while the numbers have not wrapped. -/
theorem delivered_in_order {ca cb : MacConf} {oka okb : ℚ → Station → MacEvent → Prop} {ta tb : ℚ}
    {a b : Station} (ha : MacReachable ca oka ta a) (hb : MacReachable cb okb tb b)
    (hself : cb.index ≠ macBroadcast) (hcount : ca.index.toNat < cb.cacheNodeCount)
    (hmedium : ((heardFrames cb.index ca.index b.log).map Frame.key).Sublist
      ((airedFrames a.log).map Frame.key)) :
    (((passedFrames cb.index ca.index b.log).map Frame.key).filter (·.2 ≠ 0)).Sublist
        (((acceptedFrames a.log).map Frame.key).filter (·.2 ≠ 0)) ∧
      ((acceptedFrames a.log).length < 2 ^ 16 →
        ((passedFrames cb.index ca.index b.log).map Frame.key).Sublist
          ((acceptedFrames a.log).map Frame.key)) := by
  obtain ⟨zs, hzs⟩ := reachable_receives hb hself hcount
  have hline : Repeats ((acceptedFrames a.log).map Frame.key) zs :=
    (reachable_serves ha).repeats.sublist (hzs.sublist.trans hmedium)
  rw [hzs.passed]
  refine ⟨tagged_passed hline 0, fun hshort => passed_sublist_of_tagged hline ?_ 0⟩
  intro x hx
  refine numbers_ne_zero hshort ?_
  have hnum := (reachable_numbers ha).past
  change (acceptedFrames a.log).map (·.scontrol) = _ at hnum
  change x.2 ∈ numbers (acceptedFrames a.sender.log).length
  rw [← hnum]
  obtain ⟨p, hp, rfl⟩ := List.mem_map.mp hx
  exact List.mem_map.mpr ⟨p, hp, rfl⟩

/-- The other station hears what the first has put on the air. -/
def hearingRun : List (ℚ × MacEvent) :=
  (airedFrames servedStation.2.log).map (fun p => (1 / 10 ^ 6, .recv { p with rxPr := 1 })) ++
    [(1217 / 10 ^ 6, .recvTimer)]

def hearingStation : ℚ × Station :=
  ((Station.init (sampleMac 2) 0 0 0).run (sampleMac 2) (fun _ _ _ => True) 0 hearingRun).get
    (by decide +kernel)

theorem hearingStation_reachable :
    MacReachable (sampleMac 2) (fun _ _ _ => True) hearingStation.1 hearingStation.2 :=
  (MacReachable.init 0 0 0).run (Option.some_get _).symm

theorem hearingStation_delivered :
    (passedFrames 2 1 hearingStation.2.log).map Frame.key = [(7, 1)] ∧
      ((passedFrames 2 1 hearingStation.2.log).map Frame.key).Sublist
        ((acceptedFrames servedStation.2.log).map Frame.key) :=
  ⟨by decide +kernel, (delivered_in_order servedStation_reachable hearingStation_reachable
    (by decide) (by decide) (by decide +kernel)).2 (by decide +kernel)⟩

end AodvUU

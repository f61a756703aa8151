import Mathlib.Logic.Relation
import AodvUU.MacHandlers

/-! # The sender of a station

A station sends one packet at a time. The sender forgets the medium and the timers: it takes a
packet, puts it on the air after each round of contention, and releases it when it is
acknowledged or given up. Every event of a station is a sequence of its moves. -/
namespace AodvUU

/-- What is neither about the packet that is sent nor about the queue above. -/
def MacLog.Aside : MacLog → Prop
  | .air p => p.kind ≠ .data
  | .up _ | .drop _ _ | .failure _ _ | .heard _ => True
  | .ready | .accept _ | .freed _ => False

/-- `sending` means that data is on the air or its ACK is awaited. -/
structure Sender where
  pktTx : Option Frame := none
  pktRTS : Option Frame := none
  callback : Bool := false
  cw : ℕ
  ssrc : ℕ := 0
  slrc : ℕ := 0
  staSeqno : BitVec 16 := 1
  sending : Bool := false
  log : List MacLog := []

def Sender.note (o : MacLog) (m : Sender) : Sender := { m with log := m.log ++ [o] }

def Station.sender (s : Station) : Sender :=
  { pktTx := s.pktTx
    pktRTS := s.pktRTS
    callback := s.callback
    cw := s.cw
    ssrc := s.ssrc
    slrc := s.slrc
    staSeqno := s.staSeqno
    sending := s.txState = .send
    log := s.log }

def Sender.rest (m : Sender) : Sender := { m with sending := false }

def Sender.count (c : MacConf) (p : Frame) (m : Sender) : ℕ :=
  if p.size ≤ c.rtsThreshold then m.ssrc else m.slrc

def Sender.setCount (c : MacConf) (p : Frame) (k : ℕ) (m : Sender) : Sender :=
  if p.size ≤ c.rtsThreshold then { m with ssrc := k } else { m with slrc := k }

def Sender.release (c : MacConf) (p : Frame) (m : Sender) : Sender :=
  { m with pktTx := none, cw := c.cwMin, sending := false }.note (.freed p)

/-- A packet that was not acknowledged, with one more failure. -/
def Sender.retried (c : MacConf) (p : Frame) (m : Sender) : Sender :=
  { m.setCount c p (m.count c p + 1) with
    pktTx := some { p with retry := true }
    cw := min (2 * m.cw + 1) c.cwMax
    sending := false }

def Sender.numbered (c : MacConf) (p : Frame) (m : Sender) : Frame :=
  { c.dataFrame p with scontrol := m.staSeqno }

inductive Move (c : MacConf) : Sender → Sender → Prop
  | aside {m : Sender} {o : MacLog} (ho : o.Aside) : Move c m (m.note o)
  | accept {m : Sender} {p : Frame} (htx : m.pktTx = none) (hrts : m.pktRTS = none)
      (hcall : m.callback = false) :
      Move c m ({ m with
        pktTx := some (m.numbered c p)
        callback := true
        staSeqno := m.staSeqno + 1 }.note (.accept (m.numbered c p)))
  | ready {m : Sender} (htx : m.pktTx = none) (hcall : m.callback = true) :
      Move c m ({ m with callback := false }.note .ready)
  | request {m : Sender} {p r : Frame} (htx : m.pktTx = some p) (hrts : m.pktRTS = none)
      (hlong : ¬ c.Short p) (hr : r = c.rtsFrame p.ra p) : Move c m { m with pktRTS := some r }
  | widen {m : Sender} : Move c m { m with cw := min (2 * m.cw + 1) c.cwMax }
  | cleared {m : Sender} (hrts : m.pktRTS.isSome) : Move c m { m with pktRTS := none, ssrc := 0 }
  | rtsTimeout {m : Sender} {r : Frame} (hrts : m.pktRTS = some r)
      (hcount : m.ssrc + 1 < c.shortRetryLimit) :
      Move c m { m with ssrc := m.ssrc + 1, pktRTS := some { r with retry := true } }
  | rtsFail {m : Sender} {p : Frame} (htx : m.pktTx = some p) (hrts : m.pktRTS.isSome)
      (hcount : c.shortRetryLimit ≤ m.ssrc + 1) :
      Move c m ({ m with pktRTS := none, ssrc := 0 }.release c p)
  | air {m : Sender} {p : Frame} (htx : m.pktTx = some p) (hkind : p.kind = .data)
      (hrts : m.pktRTS = none) (hsend : m.sending = false) :
      Move c m ({ m with sending := true }.note (.air p))
  | acked {m : Sender} {p : Frame} (htx : m.pktTx = some p) (hsend : m.sending = true) :
      Move c m ((m.setCount c p 0).release c p)
  | broadcast {m : Sender} {p : Frame} (htx : m.pktTx = some p) (hsend : m.sending = true)
      (hra : p.ra = macBroadcast) : Move c m (m.release c p)
  | timeout {m : Sender} {p : Frame} (htx : m.pktTx = some p) (hsend : m.sending = true)
      (hra : p.ra ≠ macBroadcast) (hcount : m.count c p + 1 < c.thresh p) :
      Move c m (m.retried c p)
  | fail {m : Sender} {p : Frame} (htx : m.pktTx = some p) (hsend : m.sending = true)
      (hra : p.ra ≠ macBroadcast) (hcount : c.thresh p ≤ m.count c p + 1) :
      Move c m ((m.setCount c p 0).release c p)

abbrev Moves (c : MacConf) : Sender → Sender → Prop := Relation.ReflTransGen (Move c)

/-! ## What does not concern the sender -/

def Sender.Asides (m m' : Sender) : Prop :=
  ∃ os : List MacLog, (∀ o ∈ os, o.Aside) ∧ m' = { m with log := m.log ++ os }

variable {c : MacConf} {t : ℚ} {e : MacEnv} {m m' m₁ : Sender} {s s' s₁ : Station} {p : Frame}

theorem Sender.Asides.refl : m.Asides m := ⟨[], by simp, by simp⟩

theorem Sender.Asides.trans (h : m.Asides m₁) (h' : m₁.Asides m') : m.Asides m' := by
  obtain ⟨os, hos, rfl⟩ := h
  obtain ⟨os', hos', rfl⟩ := h'
  refine ⟨os ++ os', fun o ho => ?_, by rw [← List.append_assoc]⟩
  exact (List.mem_append.mp ho).elim (hos o) (hos' o)

theorem Sender.Asides.note {o : MacLog} (ho : o.Aside) : m.Asides (m.note o) :=
  ⟨[o], by simpa using ho, rfl⟩

theorem Sender.Asides.moves (h : m.Asides m') : Moves c m m' := by
  obtain ⟨os, hos, rfl⟩ := h
  induction os generalizing m with
  | nil =>
    rw [List.append_nil]
  | cons o os ih =>
    obtain ⟨ho, hos⟩ := List.forall_mem_cons.mp hos
    have htail := ih (m := m.note o) hos
    rw [Sender.note, List.append_assoc] at htail
    exact (Relation.ReflTransGen.single (.aside ho)).trans htail

namespace Station

theorem checkBackoffTimer_sender : (s.checkBackoffTimer c t).sender = s.sender := by
  obtain ⟨b, hb⟩ := checkBackoffTimer_eq (c := c) (t := t) (s := s)
  rw [hb]
  rfl

theorem setTxState_sender (x : MacState) :
    (s.setTxState c t x).sender = { s.sender with sending := x = .send } :=
  checkBackoffTimer_sender

theorem setRxState_sender (x : MacState) : (s.setRxState c t x).sender = s.sender :=
  checkBackoffTimer_sender

theorem setNav_sender (us : BitVec 16) : (s.setNav t us).sender = s.sender := by
  unfold setNav
  split <;> rfl

theorem startDefer_sender {x : ℚ} (h : s.startDefer t x = some s') : s'.sender = s.sender := by
  obtain ⟨-, rfl⟩ := startDefer_cases h
  rfl

theorem startBackoff_sender {x : ℚ} (h : s.startBackoff t x = some s') : s'.sender = s.sender := by
  obtain ⟨-, rfl⟩ := startBackoff_cases h
  rfl

theorem contend_sender {k : ℕ} (h : s.contend c t k = some s') : s'.sender = s.sender := by
  obtain ⟨-, hback⟩ | ⟨-, x, hdefer⟩ := contend_cases h
  · exact startBackoff_sender hback
  · exact startDefer_sender hdefer

/-- While data is on the air or its ACK is awaited, a timer is running. -/
def Armed (s : Station) : Prop := s.txState = .send → s.mhSend.isSome

theorem Armed.of_eq (h : s.Armed) (htx : s'.txState = s.txState) (hs : s'.mhSend = s.mhSend) :
    s'.Armed := by
  intro hsend
  rw [hs]
  exact h (htx ▸ hsend)

theorem armed_of_not_send (h : s.txState ≠ .send) : s.Armed := fun hs => absurd hs h

theorem checkBackoffTimer_txState : (s.checkBackoffTimer c t).txState = s.txState := by
  obtain ⟨b, hb⟩ := checkBackoffTimer_eq (c := c) (t := t) (s := s)
  rw [hb]

theorem checkBackoffTimer_mhSend : (s.checkBackoffTimer c t).mhSend = s.mhSend := by
  obtain ⟨b, hb⟩ := checkBackoffTimer_eq (c := c) (t := t) (s := s)
  rw [hb]

structure Beside (s s' : Station) : Prop where
  asides : s.sender.Asides s'.sender
  txState : s'.txState = s.txState
  mhSend : s'.mhSend = s.mhSend

theorem Beside.refl : s.Beside s := ⟨.refl, rfl, rfl⟩

theorem Beside.trans (h : s.Beside s₁) (h' : s₁.Beside s') : s.Beside s' :=
  ⟨h.asides.trans h'.asides, h'.txState.trans h.txState, h'.mhSend.trans h.mhSend⟩

theorem Beside.moves (h : s.Beside s') (ha : s.Armed) : Moves c s.sender s'.sender ∧ s'.Armed :=
  ⟨h.asides.moves, ha.of_eq h.txState h.mhSend⟩

theorem moves_beside (hb : s.Beside s') (h : Moves c m s.sender ∧ s.Armed) :
    Moves c m s'.sender ∧ s'.Armed :=
  ⟨h.1.trans hb.asides.moves, h.2.of_eq hb.txState hb.mhSend⟩

theorem Beside.of_sender (h : s'.sender = s.sender) (htx : s'.txState = s.txState)
    (hs : s'.mhSend = s.mhSend) : s.Beside s' :=
  ⟨by rw [h]; exact .refl, htx, hs⟩

theorem Beside.note {o : MacLog} (ho : o.Aside) : s.Beside (s.note o) := ⟨.note ho, rfl, rfl⟩

theorem setRxState_beside (x : MacState) : s.Beside (s.setRxState c t x) :=
  .of_sender (setRxState_sender x) checkBackoffTimer_txState checkBackoffTimer_mhSend

theorem setNav_beside (us : BitVec 16) : s.Beside (s.setNav t us) := by
  refine .of_sender (setNav_sender us) ?_ ?_ <;>
  · unfold setNav
    split <;> rfl

theorem startRecv_beside {x : ℚ} (h : s.startRecv t x = some s') : s.Beside s' := by
  obtain ⟨-, rfl⟩ := startRecv_cases h
  exact .of_sender rfl rfl rfl

theorem discard_beside (why : MacDrop) : s.Beside (s.discard c p why) := by
  have hdrop : s.Beside (s.note (.drop p why)) := .note trivial
  unfold discard
  split
  · exact .refl
  · split
    · exact .refl
    all_goals
      split
      · exact hdrop
      · exact .refl

theorem collision_beside (h : s.collision c t p = some s') : s.Beside s' := by
  obtain ⟨s₁, hs₁, hend⟩ := collision_cases h
  have hrx : s.Beside s₁ := by
    obtain rfl | rfl := hs₁
    · exact .refl
    · exact setRxState_beside _
  obtain rfl | ⟨q, hstart⟩ := hend
  · exact hrx.trans (discard_beside _)
  · have hdis := discard_beside (c := c) (p := q) (s := { s₁ with mhRecv := none }) .collision
    have hkept : s₁.Beside { (discard c q .collision { s₁ with mhRecv := none }) with
        pktRx := some p } := ⟨hdis.asides, hdis.txState, hdis.mhSend⟩
    exact hrx.trans (hkept.trans (startRecv_beside hstart))

theorem recvFrame_beside (h : s.recvFrame c t p = some s') : s.Beside s' := by
  have hheard : s.Beside (s.note (.heard p)) := .note trivial
  obtain ⟨s₁, q, rfl, -, ⟨-, hstart⟩ | rfl | hcoll⟩ := recvFrame_cases h
  · have hrx := setRxState_beside (c := c) (t := t) (s := s.note (.heard p)) .recv
    have hkept : (s.note (.heard p)).Beside
        { (s.note (.heard p)).setRxState c t .recv with pktRx := some q } :=
      ⟨hrx.asides, hrx.txState, hrx.mhSend⟩
    exact hheard.trans (hkept.trans (startRecv_beside hstart))
  · exact hheard.trans (setNav_beside _)
  · exact hheard.trans (collision_beside hcoll)

theorem deliver_beside : s.Beside (s.deliver c p) := by
  have hup : s.Beside (s.note (.up p)) := .note trivial
  unfold deliver
  split
  · exact hup
  · split
    · split
      · exact discard_beside _
      · exact ⟨hup.asides, rfl, rfl⟩
    · exact hup

/-! ## Contention -/

theorem transmit_cases {x : ℚ} (h : s.transmit t p x = some s') :
    s.mhSend = none ∧ s'.mhSend = some (t + x) ∧ s'.txState = s.txState ∧
      s'.sender = s.sender.note (.air p) := by
  obtain ⟨hquiet, rfl⟩ := transmit_eq h
  exact ⟨hquiet, rfl, rfl, rfl⟩

theorem txState_of_isIdle (h : s.isIdle t = true) : s.txState = .idle := by
  unfold isIdle at h
  exact (of_decide_eq_true h).2.1

theorem rest_of_not_send (h : s.txState ≠ .send) : s.sender.rest = s.sender := by
  unfold Sender.rest sender
  simp [h]

theorem setTxState_txState (x : MacState) : (s.setTxState c t x).txState = x :=
  checkBackoffTimer_txState

theorem transmit_moves {x : ℚ} {y : MacState} (h : (s.setTxState c t y).transmit t p x = some s')
    (hs : s.txState ≠ .send) (hy : y ≠ .send) (hp : p.kind ≠ .data) :
    Moves c s.sender s'.sender ∧ s'.Armed := by
  obtain ⟨-, -, htx, hsend⟩ := transmit_cases h
  rw [setTxState_txState] at htx
  have hsame : (s.setTxState c t y).sender = s.sender := by
    rw [setTxState_sender, ← rest_of_not_send hs]
    simp [hy, Sender.rest]
  rw [hsame] at hsend
  exact ⟨hsend ▸ .single (.aside hp), armed_of_not_send (htx ▸ hy)⟩

theorem widen_moves {x : ℚ} (h : (s.incCw c).startBackoff t x = some s') :
    Moves c s.sender s'.sender := by
  rw [startBackoff_sender h]
  exact .single .widen

theorem checkPktRTS_moves {b : Bool} (h : s.checkPktRTS c t = some (b, s')) (ha : s.Armed) :
    Moves c s.sender s'.sender ∧ s'.Armed := by
  obtain ⟨-, -, rfl⟩ | ⟨r, -, hk, -, ⟨hidle, hout⟩ | ⟨-, hback⟩⟩ := checkPktRTS_cases h
  · exact ⟨.refl, ha⟩
  · have hns : s.txState ≠ .send := by simp [txState_of_isIdle hidle]
    exact transmit_moves hout hns (by simp) (by simp [hk])
  · refine ⟨widen_moves hback, ?_⟩
    obtain ⟨-, rfl⟩ := startBackoff_cases hback
    exact ha.of_eq rfl rfl

theorem checkPktTx_moves {b : Bool} (h : s.checkPktTx c t = some (b, s')) (ha : s.Armed)
    (hrts : s.pktRTS = none) : Moves c s.sender s'.sender ∧ s'.Armed := by
  obtain rfl | ⟨p, hp, hk, ⟨hidle, hout⟩ | ⟨-, s₁, hs₁, hback⟩⟩ := checkPktTx_cases h
  · exact ⟨.refl, ha⟩
  · obtain ⟨-, hsome, -, hsend⟩ := transmit_cases hout
    refine ⟨?_, fun _ => by rw [hsome]; rfl⟩
    rw [hsend, setTxState_sender]
    have hns : s.sender.sending = false := by simp [sender, txState_of_isIdle hidle]
    exact .single (.air (p := p) hp hk hrts hns)
  · obtain ⟨-, hb'⟩ := startBackoff_cases hback
    obtain ⟨q, hq, -, ⟨-, rfl⟩ | ⟨hlong, rfl⟩⟩ := sendRTS_cases hs₁
    · refine ⟨widen_moves hback, ?_⟩
      rw [hb']
      exact ha.of_eq rfl rfl
    · obtain rfl := Option.some.inj (hp.symm.trans hq)
      have hreq : Move c s.sender { s with pktRTS := some (c.rtsFrame p.ra p) }.sender :=
        .request (p := p) hp hrts hlong rfl
      refine ⟨.head hreq (widen_moves hback), ?_⟩
      rw [hb']
      exact ha.of_eq rfl rfl

/-! ## A packet from above -/

/-- The wait for the medium touches neither the sender nor what is on the air. -/
structure Waits (s s' : Station) : Prop where
  sender : s'.sender = s.sender
  txState : s'.txState = s.txState
  mhSend : s'.mhSend = s.mhSend
  nav : s'.nav = s.nav

theorem Waits.refl : Waits s s := ⟨rfl, rfl, rfl, rfl⟩

theorem startBackoff_waits {x : ℚ} (h : s.startBackoff t x = some s') : Waits s s' := by
  obtain ⟨-, rfl⟩ := startBackoff_cases h
  exact ⟨rfl, rfl, rfl, rfl⟩

theorem startDefer_waits {x : ℚ} (h : s.startDefer t x = some s') : Waits s s' := by
  obtain ⟨-, rfl⟩ := startDefer_cases h
  exact ⟨rfl, rfl, rfl, rfl⟩

theorem contend_waits {k : ℕ} (h : s.contend c t k = some s') : Waits s s' := by
  obtain ⟨-, hback⟩ | ⟨-, x, hdefer⟩ := contend_cases h
  · exact startBackoff_waits hback
  · exact startDefer_waits hdefer

theorem await_waits {k : ℕ} (h : s.await c t k = some s') : Waits s s' := by
  obtain rfl | hcontend | ⟨-, hback⟩ := await_cases h
  · exact .refl
  · exact contend_waits hcontend
  · exact startBackoff_waits hback

theorem send_cases {k : ℕ} (h : s.send c t k p = some s') :
    s.pktTx = none ∧ s.pktRTS = none ∧
      Station.await c t k { s with
        callback := true
        pktTx := some (s.sender.numbered c p)
        staSeqno := s.staSeqno + 1
        pktRTS := if c.Short (c.dataFrame p) then none else some (c.rtsFrame p.ra (c.dataFrame p))
        log := s.log ++ [.accept (s.sender.numbered c p)] } = some s' := by
  unfold send at h
  obtain ⟨s₁, hs₁, hrest⟩ := Option.bind_eq_some_iff.mp h
  obtain ⟨s₂, hs₂, hwait⟩ := Option.bind_eq_some_iff.mp hrest
  clear h hrest
  unfold sendDATA at hs₁
  split at hs₁
  · cases hs₁
  · next hnone =>
    obtain rfl := Option.some.inj hs₁
    obtain ⟨q, hq, hrts, hcase⟩ := sendRTS_cases hs₂
    obtain rfl := Option.some.inj hq
    refine ⟨by simpa using hnone, hrts, ?_⟩
    rw [← hwait]
    congr 1
    obtain ⟨hshort, rfl⟩ | ⟨hlong, rfl⟩ := hcase
    · rw [if_pos (show c.Short (c.dataFrame p) from hshort), ← hrts]
      rfl
    · rw [if_neg (show ¬ c.Short (c.dataFrame p) from hlong)]
      rfl

theorem accept_moves (htx : m.pktTx = none) (hrts : m.pktRTS = none) (hcall : m.callback = false) :
    Moves c m { m with
      callback := true
      pktTx := some (m.numbered c p)
      staSeqno := m.staSeqno + 1
      pktRTS := if c.Short (c.dataFrame p) then none else some (c.rtsFrame p.ra (c.dataFrame p))
      log := m.log ++ [.accept (m.numbered c p)] } := by
  have hacc := Move.accept (c := c) (p := p) htx hrts hcall
  split
  · have hsame : ({ m with
        callback := true
        pktTx := some (m.numbered c p)
        staSeqno := m.staSeqno + 1
        pktRTS := none
        log := m.log ++ [.accept (m.numbered c p)] } : Sender) =
        { m with
          pktTx := some (m.numbered c p)
          callback := true
          staSeqno := m.staSeqno + 1 }.note (.accept (m.numbered c p)) := by
      rw [← hrts]
      rfl
    rw [hsame]
    exact .single hacc
  · next hlong =>
    exact .head hacc (.single (.request (p := m.numbered c p) rfl hrts hlong rfl))

theorem send_moves {k : ℕ} (h : s.send c t k p = some s') (hcall : s.callback = false) :
    Moves c s.sender s'.sender ∧ Moves c s.sender.rest s'.sender.rest ∧
      s'.txState = s.txState ∧ s'.mhSend = s.mhSend := by
  obtain ⟨htx, hrts, hawait⟩ := send_cases h
  have hw := await_waits hawait
  refine ⟨?_, ?_, hw.txState, hw.mhSend⟩
  · rw [hw.sender]
    exact accept_moves (m := s.sender) htx hrts hcall
  · rw [hw.sender]
    exact accept_moves (m := s.sender.rest) htx hrts hcall

/-! ## Resuming -/

theorem resumeNext_moves (h : s.resumeNext c t e = some s') :
    Moves c s.sender.rest s'.sender.rest := by
  obtain rfl | hdefer | hcontend | ⟨htx, hcall, hnext⟩ := resumeNext_cases h
  · exact .refl
  · rw [startDefer_sender hdefer]
  · rw [contend_sender hcontend]
  · have hready : Move c s.sender.rest ({ s with callback := false }.note .ready).sender.rest :=
      .ready htx hcall
    obtain rfl | ⟨p, hsend⟩ := hnext
    · exact .single hready
    · exact .head hready (send_moves hsend rfl).2.1

theorem txResume_moves (h : s.txResume c t e = some s') :
    Moves c s.sender.rest s'.sender ∧ s'.Armed := by
  obtain ⟨s₁, hs₁, rfl⟩ := txResume_cases h
  refine ⟨?_, armed_of_not_send (by rw [setTxState_txState]; decide)⟩
  have hrest : (s₁.setTxState c t .idle).sender = s₁.sender.rest := setTxState_sender _
  rw [hrest]
  exact resumeNext_moves hs₁

/-! ## Retransmission -/

theorem giveUp_sender {r : XmitReason} : ∃ m₁, s.sender.Asides m₁ ∧
    (s.giveUp c p r).sender = { m₁ with pktTx := none }.note (.freed p) := by
  unfold giveUp
  split
  · have hfail : ∀ o, (MacLog.failure o r).Aside := fun _ => trivial
    exact ⟨_, (Sender.Asides.note (hfail _)).trans (discard_beside (s := s.note _) _).asides, rfl⟩
  · exact ⟨_, (discard_beside _).asides, rfl⟩

theorem retransmitRTS_moves (h : s.retransmitRTS c t = some s') :
    Moves c s.sender.rest s'.sender.rest := by
  obtain ⟨p, r, hp, hr, ⟨hlimit, rfl⟩ | ⟨hlimit, hback⟩⟩ := retransmitRTS_cases h
  · obtain ⟨os, hos, hdis⟩ := (discard_beside (c := c) (p := r) (s := s) .retryCountExceeded).asides
    obtain ⟨m₁, ⟨os', hos', rfl⟩, hgive⟩ := giveUp_sender (c := c) (p := p) (r := .rts)
      (s := { s.discard c r .retryCountExceeded with pktRTS := none })
    have hside : s.sender.rest.Asides { s.sender.rest with log := s.log ++ os ++ os' } :=
      Sender.Asides.trans ⟨os, hos, rfl⟩ ⟨os', hos', rfl⟩
    have hfail := Move.rtsFail (c := c) (m := { s.sender.rest with log := s.log ++ os ++ os' })
      (p := p) hp (by simp [sender, Sender.rest, hr]) hlimit
    refine hside.moves.trans (.single ?_)
    have hcut : ({ s.discard c r .retryCountExceeded with pktRTS := none } : Station).sender =
        { (s.discard c r .retryCountExceeded).sender with pktRTS := none } := rfl
    have heq : ({ giveUp c p .rts { s.discard c r .retryCountExceeded with pktRTS := none } with
        ssrc := 0 }.rstCw c).sender.rest =
        { (giveUp c p .rts { s.discard c r .retryCountExceeded with pktRTS := none }).sender with
          ssrc := 0, cw := c.cwMin, sending := false } := rfl
    rw [heq, hgive, hcut, hdis]
    exact hfail
  · rw [startBackoff_sender hback]
    exact .head (.rtsTimeout (m := s.sender.rest) hr hlimit) (.single .widen)

theorem setRcount_sender (k : ℕ) : (s.setRcount c p k).sender = s.sender.setCount c p k := by
  unfold setRcount Sender.setCount
  split <;> rfl

theorem retransmitDATA_moves (h : s.retransmitDATA c t = some s') (hs : s.txState = .send) :
    Moves c s.sender s'.sender.rest := by
  have hsend : s.sender.sending = true := decide_eq_true hs
  obtain ⟨p, hp, hr, ⟨hra, hback⟩ | ⟨hra, hlimit, rfl⟩ | ⟨hra, hlimit, s₁, hs₁, hback⟩⟩ :=
    retransmitDATA_cases h
  · rw [startBackoff_sender hback]
    exact .single (.broadcast (m := s.sender) hp hsend hra)
  · obtain ⟨m₁, ⟨os, hos, rfl⟩, hgive⟩ := giveUp_sender (c := c) (p := p) (r := .ack) (s := s)
    have hside : s.sender.Asides { s.sender with log := s.log ++ os } := ⟨os, hos, rfl⟩
    refine hside.moves.trans (.single ?_)
    have heq : (((s.giveUp c p .ack).setRcount c p 0).rstCw c).sender.rest =
        { ((s.giveUp c p .ack).setRcount c p 0).sender with cw := c.cwMin, sending := false } :=
      rfl
    have hfail := Move.fail (c := c) (m := { s.sender with log := s.log ++ os }) (p := p) hp hsend
      hra hlimit
    rw [heq, setRcount_sender, hgive]
    unfold Sender.setCount at hfail ⊢
    by_cases hsize : p.size ≤ c.rtsThreshold
    · rw [if_pos hsize] at hfail ⊢
      exact hfail
    · rw [if_neg hsize] at hfail ⊢
      exact hfail
  · have htime := Move.timeout (c := c) (m := s.sender) (p := p) hp hsend hra hlimit
    rw [startBackoff_sender hback]
    refine .head htime ?_
    obtain ⟨q, hq, hrts, ⟨-, rfl⟩ | ⟨hlong, rfl⟩⟩ := sendRTS_cases hs₁
    · have hsame : (({ s.setRcount c p (s.rcount c p + 1) with
          pktTx := some { p with retry := true } } : Station).incCw c).sender.rest =
          s.sender.retried c p := by
        unfold setRcount Sender.retried Sender.setCount
        split <;> rfl
      rw [hsame]
    · obtain rfl := Option.some.inj hq
      have hnone : (s.sender.retried c p).pktRTS = none := by
        unfold Sender.retried Sender.setCount
        split <;> exact hr
      have hsame : (({ s.setRcount c p (s.rcount c p + 1) with
          pktTx := some { p with retry := true }
          pktRTS := some (c.rtsFrame p.ra { p with retry := true }) } : Station).incCw
            c).sender.rest = { s.sender.retried c p with
              pktRTS := some (c.rtsFrame p.ra { p with retry := true }) } := by
        unfold setRcount Sender.retried Sender.setCount
        split <;> rfl
      exact hsame ▸ .single (.request rfl hnone hlong rfl)

/-! ## Frames received -/

theorem recvRTS_moves (h : s.recvRTS c t e p = some s') (ha : s.Armed) :
    Moves c s.sender s'.sender ∧ s'.Armed := by
  obtain rfl | ⟨hidle, hresume⟩ := recvRTS_cases h
  · exact (discard_beside _).moves ha
  · obtain ⟨hmoves, harmed⟩ := txResume_moves hresume
    rw [← rest_of_not_send (s := s) (by simp [hidle])]
    exact ⟨hmoves, harmed⟩

theorem recvCTS_moves (h : s.recvCTS c t e p = some s') (ha : s.Armed) :
    Moves c s.sender s'.sender ∧ s'.Armed := by
  obtain rfl | ⟨hrts, hsome, hresume⟩ := recvCTS_cases h
  · exact (discard_beside _).moves ha
  · obtain ⟨hmoves, harmed⟩ := txResume_moves hresume
    rw [← rest_of_not_send (s := s) (by simp [hrts])]
    exact ⟨.head (.cleared (m := s.sender.rest) hsome) hmoves, harmed⟩

theorem recvACK_moves (h : s.recvACK c t e p = some s') (ha : s.Armed) :
    Moves c s.sender s'.sender ∧ s'.Armed := by
  obtain rfl | ⟨hsend, q, s₁, hq, hback, hresume⟩ := recvACK_cases h
  · exact (discard_beside _).moves ha
  · obtain ⟨hmoves, harmed⟩ := txResume_moves hresume
    refine ⟨.head (.acked (m := s.sender) (p := q) hq (decide_eq_true hsend)) ?_, harmed⟩
    rw [startBackoff_sender hback] at hmoves
    have hset := setRcount_sender (c := c) (p := q) (s := { s with mhSend := none }) 0
    have heq : ((note (.freed q) { setRcount c q 0 { s with mhSend := none } with
        pktTx := none }).rstCw c).sender.rest =
        Sender.release c q (setRcount c q 0 { s with mhSend := none }).sender := rfl
    rw [heq, hset] at hmoves
    exact hmoves

theorem ackAfterCts_moves {dst : BitVec 32} (h : s.ackAfterCts c t e dst = some s')
    (hcts : s.txState = .cts) : Moves c s.sender s'.sender ∧ s'.Armed := by
  obtain ⟨hmoves, harmed⟩ := txResume_moves (ackAfterCts_cases h)
  rw [← rest_of_not_send (s := s) (by simp [hcts])]
  exact ⟨hmoves, harmed⟩

theorem ackShort_moves {dst : BitVec 32} (h : s.ackShort c t e dst = some s') (ha : s.Armed) :
    Moves c s.sender s'.sender ∧ s'.Armed := by
  obtain rfl | ⟨hquiet, hresume⟩ := ackShort_cases h
  · exact ⟨.refl, ha.of_eq rfl rfl⟩
  · have hns : s.txState ≠ .send := fun hs => by simpa [hquiet] using ha hs
    obtain ⟨hmoves, harmed⟩ := txResume_moves hresume
    rw [← rest_of_not_send hns]
    exact ⟨hmoves, harmed⟩

theorem recvDATA_moves (h : s.recvDATA c t e p = some s') (ha : s.Armed) :
    Moves c s.sender s'.sender ∧ s'.Armed := by
  obtain ⟨q, -, rfl | rfl | ⟨s₁, rfl, ⟨hcts, hack⟩ | hack⟩⟩ := recvDATA_cases h
  · exact deliver_beside.moves ha
  · exact (discard_beside _).moves ha
  · exact moves_beside deliver_beside (ackAfterCts_moves hack hcts)
  · exact moves_beside deliver_beside (ackShort_moves hack ha)

theorem received_moves (h : s.received c t e p = some s') (ha : s.Armed) :
    Moves c s.sender s'.sender ∧ s'.Armed := by
  obtain ⟨s₁, hs₁, hend⟩ := received_cases h
  have hnav : s.Beside s₁ := by
    rw [hs₁]
    split
    · exact .refl
    · exact setNav_beside _
  obtain ⟨hfirst, harmed⟩ := hnav.moves (c := c) ha
  suffices hm : Moves c s₁.sender s'.sender ∧ s'.Armed from ⟨hfirst.trans hm.1, hm.2⟩
  obtain rfl | ⟨-, ⟨-, hrts⟩ | ⟨-, hcts⟩ | ⟨-, hack⟩ | ⟨-, hdata⟩ | ⟨-, rfl⟩⟩ := hend
  · exact (discard_beside _).moves harmed
  · exact recvRTS_moves hrts harmed
  · exact recvCTS_moves hcts harmed
  · exact recvACK_moves hack harmed
  · exact recvDATA_moves hdata harmed
  · exact ⟨.refl, harmed.of_eq rfl rfl⟩

/-! ## Events -/

theorem arrived_moves (h : s.arrived c t e p = some s') (ha : s.Armed) :
    Moves c s.sender s'.sender ∧ s'.Armed := by
  obtain rfl | rfl | rfl | ⟨-, -, -, hthrough⟩ := arrived_cases h
  · exact ⟨.refl, ha⟩
  · exact ((discard_beside _).trans (setNav_beside _)).moves ha
  · exact (setNav_beside _).moves ha
  · exact received_moves hthrough ha

theorem recvTimer_moves (h : s.recvTimer c t e = some s') (ha : s.Armed) :
    Moves c s.sender s'.sender ∧ s'.Armed := by
  obtain ⟨p, s₁, -, -, hs₁, rfl⟩ := recvTimer_cases h
  obtain ⟨hmoves, harmed⟩ := arrived_moves hs₁ ha
  exact moves_beside (s := { s₁ with pktRx := none }) (setRxState_beside _)
    ⟨hmoves, harmed.of_eq rfl rfl⟩

theorem sendTimer_moves (h : s.sendTimer c t e = some s') :
    Moves c s.sender s'.sender ∧ s'.Armed := by
  obtain ⟨s₁, hs₁, hresume⟩ := Option.bind_eq_some_iff.mp h
  obtain ⟨hmoves, harmed⟩ := txResume_moves hresume
  refine ⟨?_, harmed⟩
  obtain ⟨hrts, hretry⟩ | ⟨hreply, rfl⟩ | ⟨hsend, hretry⟩ | ⟨hidle, rfl⟩ := sendEnded_cases hs₁
  · rw [← rest_of_not_send (s := s) (by simp [hrts])]
    exact (retransmitRTS_moves hretry).trans hmoves
  · have hns : s.txState ≠ .send := by obtain hx | hx := hreply <;> simp [hx]
    rw [← rest_of_not_send hns]
    exact hmoves
  · exact (retransmitDATA_moves hretry hsend).trans hmoves
  · rw [← rest_of_not_send (s := s₁) (by simp [hidle])]
    exact hmoves

theorem checkBoth_moves (h : s.checkBoth c t = some s') (ha : s.Armed) :
    Moves c s.sender s'.sender ∧ s'.Armed := by
  obtain hrts | ⟨hnone, b, hdata⟩ := checkBoth_cases h
  · exact checkPktRTS_moves hrts ha
  · exact checkPktTx_moves hdata ha hnone

theorem deferHandler_moves (h : s.deferHandler c t = some s') (ha : s.Armed) :
    Moves c s.sender s'.sender ∧ s'.Armed := by
  obtain hctrl | ⟨-, hboth⟩ := deferHandler_cases h
  · obtain ⟨-, rfl⟩ | ⟨-, ⟨why, q, -, -, -, rfl⟩ | ⟨q, x, y, -, hkind, hy, hout⟩⟩ :=
      checkPktCTRL_cases hctrl
    · exact ⟨.refl, ha⟩
    · obtain ⟨hmoves, harmed⟩ := (discard_beside (c := c) (p := q) why).moves (c := c) ha
      exact ⟨hmoves, harmed.of_eq rfl rfl⟩
    · -- The timer of a transmission is not running, so that data is not on the air.
      obtain ⟨hquiet, -⟩ := transmit_cases hout
      have hsend : s.mhSend = none := by
        rw [← hquiet]
        exact (checkBackoffTimer_mhSend (c := c) (t := t) (s := { s with txState := y })).symm
      have hns : s.txState ≠ .send := fun hs => by simpa [hsend] using ha hs
      have hdata : q.kind ≠ .data := by
        obtain ⟨hk, -⟩ | hk := hkind <;> simp [hk]
      exact transmit_moves hout hns (by rintro rfl; simp at hy) hdata
  · exact checkBoth_moves hboth ha

theorem backoffHandler_moves (h : s.backoffHandler c t = some s') (ha : s.Armed) :
    Moves c s.sender s'.sender ∧ s'.Armed := by
  obtain rfl | hboth := backoffHandler_cases h
  · exact ⟨.refl, ha⟩
  · exact checkBoth_moves hboth ha

theorem navHandler_sender : (s.navHandler c t).sender = s.sender := by
  obtain hn | hn := navHandler_cases (c := c) (t := t) (s := s)
  · rw [hn]
  · rw [hn]
    rfl

theorem navHandler_armed (ha : s.Armed) : (s.navHandler c t).Armed := by
  obtain hn | hn := navHandler_cases (c := c) (t := t) (s := s) <;>
  · rw [hn]
    exact ha.of_eq rfl rfl

theorem recv_moves {dir : Direction} (h : s.recv c t e dir p = some s')
    (hcall : dir = .down → s.callback = false) (ha : s.Armed) :
    Moves c s.sender s'.sender ∧ s'.Armed := by
  obtain ⟨mac, q, -, rfl | ⟨hdir, hsend⟩ | ⟨-, hbegin⟩⟩ := recv_cases h
  · exact ⟨.refl, ha.of_eq rfl rfl⟩
  · obtain ⟨hmoves, -, htx, hs⟩ := send_moves hsend (hcall hdir)
    exact ⟨hmoves, ha.of_eq htx hs⟩
  · exact (recvFrame_beside hbegin).moves (ha.of_eq rfl rfl)

theorem step_moves {ev : MacEvent} (h : s.step c t e ev = some s') (hdue : s.Due t ev)
    (ha : s.Armed) : Moves c s.sender s'.sender ∧ s'.Armed := by
  cases ev with
  | send p => exact recv_moves h (fun _ => hdue) ha
  | recv p => exact recv_moves h (by simp) ha
  | recvTimer => exact recvTimer_moves (s := { s with mhRecv := none }) h (ha.of_eq rfl rfl)
  | sendTimer => exact sendTimer_moves (s := { s with mhSend := none }) h
  | deferTimer => exact deferHandler_moves (s := { s with mhDefer := none }) h (ha.of_eq rfl rfl)
  | backoffTimer => exact backoffHandler_moves (s := { s with mhBackoff := none }) h (ha.of_eq rfl rfl)
  | navTimer =>
    obtain rfl := Option.some.inj h
    rw [navHandler_sender]
    exact ⟨.refl, navHandler_armed (ha.of_eq rfl rfl)⟩
  | txTimer =>
    obtain rfl := Option.some.inj h
    exact ⟨.refl, ha.of_eq rfl rfl⟩
  | noiseTimer =>
    obtain rfl := Option.some.inj h
    refine ⟨.single (.aside (m := s.sender) ?_), ha.of_eq rfl rfl⟩
    change c.noiseFrame.kind ≠ .data
    simp [MacConf.noiseFrame]
  | validTimer =>
    obtain rfl := Option.some.inj h
    exact ⟨.refl, ha.of_eq rfl rfl⟩

end Station

theorem reachable_moves {ok : ℚ → Station → MacEvent → Prop} (h : MacReachable c ok t s) :
    Moves c { cw := c.cwMin } s.sender ∧ s.Armed := by
  induction h with
  | init => exact ⟨.refl, Station.armed_of_not_send (by simp [Station.init])⟩
  | step _ _ hdue _ hstep _ ih =>
    obtain ⟨hmoves, harmed⟩ := Station.step_moves hstep hdue ih.2
    exact ⟨ih.1.trans hmoves, harmed⟩

end AodvUU

import AodvUU.Network
import AodvUU.SeekList
import AodvUU.Suspicion
import AodvUU.Transmits

/-! # The acknowledgement of a reply

`rrep_send` waits for an acknowledgement over a link that it suspects. It is the A flag of the
reply that asks for one, and no reply is built with it. -/
namespace AodvUU

/-! ## One call -/

def Output.Asks (b : InAddr) (o : Output) : Prop :=
  ∃ i p d m, o = .sched i p d ∧ p.daddr = b ∧ p.control = some (.rrep m) ∧ m.a = true

/-- Whoever's acknowledgement timer was started on the way was sent a reply that asks for one. -/
def Node.AsksAll (n n' : Node) : Prop :=
  ∃ l, n'.out = n.out ++ l ∧ ∀ b, (n.rt b).ackTimer.used = false →
    (n'.rt b).ackTimer.used = true → ∃ o ∈ l, o.Asks b

def Output.Unasking (o : Output) : Prop := ∀ m, o.sent = some (.rrep m) → m.a = false

section Call

variable {c : Ctx} {n n' : Node}

theorem Output.Unasking.not_asks {o : Output} (h : o.Unasking) (b : InAddr) : ¬ o.Asks b := by
  rintro ⟨i, p, d, m, rfl, -, hm, ha⟩
  rw [h m hm] at ha
  cases ha

theorem Output.Routeless.unasking {o : Output} (h : o.Routeless) : o.Unasking :=
  fun _ hm => absurd (h _ hm) id

theorem helloKeepAlive_unasking (n : Node) : n.Emits Output.Unasking (helloKeepAlive c n) := by
  have hbroadcast : ∀ n : Node, n.Emits Output.Unasking (helloBroadcast c n) := by
    intro n
    unfold helloBroadcast
    dsimp only
    obtain ⟨hout, -, -⟩ := updateNeighborInfo_frame (updateStaInfo c (helloAdvance n))
    refine Node.Emits.trans (.of_out hout : n.Emits _ _)
      (Node.Emits.mono (aodvSocketSend_emits aodvBroadcast _ 1 _) fun o ho m hm => ?_)
    cases ho.sent hm
    rfl
  have hsend : ∀ n : Node, n.Emits Output.Unasking (helloSend c n) := by
    intro n
    unfold helloSend
    dsimp only
    split_ifs
    · exact .of_out rfl
    · exact (hbroadcast n).trans (.of_out rfl)
    · exact .of_out rfl
    · exact .of_out rfl
  unfold helloKeepAlive helloStart
  split_ifs
  · exact .refl n
  · exact hsend { n with fwdTime := c.now, helloTimer := { handler := .helloSend } }
  · exact .refl n

theorem rrepSendGen_unasking (hl : c.BreaksLinks) (hb : c.BuildsErrors) {m : RREP}
    (hm : n.sendBuf = .rrep m) (ha : m.a = false) (channel : Option Int) (rev : InAddr)
    (fwd : Option InAddr) (size : ℕ) :
    n.Emits Output.Unasking (rrepSendGen c channel rev fwd size n) := by
  have hsuspect : n.Emits Output.Unasking (suspectUnidir c rev n) :=
    (suspectUnidir_emits hl rev n).mono fun _ => Output.Routeless.unasking
  have hsend : ∀ dst ch, n.Emits Output.Unasking
      (aodvSocketSend c dst size maxTtl (setChannelNum ch (suspectUnidir c rev n))) := by
    intro dst ch
    refine hsuspect.trans (Node.Emits.trans (.of_out rfl)
      (Node.Emits.mono (aodvSocketSend_emits dst size maxTtl _) fun o ho m' hm' => ?_))
    have hsent := ho.sent hm'
    rcases suspectUnidir_buffer hb rev n with hbuf | ⟨e, hbuf⟩
    · rw [show (setChannelNum ch (suspectUnidir c rev n)).sendBuf = .rrep m from hbuf.trans hm]
        at hsent
      cases hsent
      exact ha
    · rw [show (setChannelNum ch (suspectUnidir c rev n)).sendBuf = .rerr e from hbuf] at hsent
      cases hsent
  unfold rrepSendGen
  refine Node.Emits.trans ?_ (helloKeepAlive_unasking _)
  cases fwd with
  | none => exact hsend _ _
  | some f => exact (hsend _ _).trans (.of_out rfl)

theorem rt_of_routes (h : n'.routes = n.routes) (b : InAddr) : n'.rt b = n.rt b := by
  unfold Node.rt
  rw [lookup_of_routes h]

theorem ackTimer_addPrecursors (fwd rev b : InAddr) (n : Node) :
    ((addPrecursors fwd rev n).rt b).ackTimer = (n.rt b).ackTimer := by
  have hadd : ∀ (n : Node) a addr,
      ((precursorAdd a addr n).rt b).ackTimer = (n.rt b).ackTimer := by
    intro n a addr
    have hkeep : ∀ rt : RtTable, (rt.precursorAdd addr).destAddr = rt.destAddr ∧
        (rt.precursorAdd addr).ackTimer = rt.ackTimer := by
      intro rt
      unfold RtTable.precursorAdd
      split <;> exact ⟨rfl, rfl⟩
    unfold precursorAdd Node.rt
    rw [lookup_modRt a b fun rt => (hkeep rt).1]
    cases n.lookup b with
    | none => simp
    | some rt =>
      split
      · exact (hkeep rt).2
      · rfl
  unfold addPrecursors
  rw [hadd, hadd]

theorem ackTimer_rrepSendGen (channel : Option Int) (rev : InAddr) (fwd : Option InAddr) (size : ℕ)
    (n : Node) (b : InAddr) : ((rrepSendGen c channel rev fwd size n).rt b).ackTimer =
      ((suspectUnidir c rev n).rt b).ackTimer := by
  have hsend : ∀ dst ch, (aodvSocketSend c dst size maxTtl
      (setChannelNum ch (suspectUnidir c rev n))).rt b = (suspectUnidir c rev n).rt b := fun dst ch =>
    rt_of_routes (aodvSocketSend_routes _ _ _ _) b
  unfold rrepSendGen
  rw [rt_of_routes (helloKeepAlive_routes _) b]
  cases fwd with
  | none => exact congrArg RtTable.ackTimer (hsend _ _)
  | some f =>
    dsimp only
    rw [ackTimer_addPrecursors, hsend]

theorem Node.Suspects.awaits (hl : c.BreaksLinks) (hwf : RtWf n) {rev : InAddr}
    (h : n.Suspects c rev) : ∃ b, (n.rt b).ackTimer.used = false ∧
      ((suspectUnidir c rev n).rt b).ackTimer.used = true := by
  obtain ⟨hlink, neighbor, hfind, hvalid, hack⟩ := h
  have hlook : n.lookup neighbor.destAddr = some neighbor := by
    rw [destAddr_of_rtTableFind hfind, ← hwf.rtTableFind_eq_lookup]
    exact hfind
  refine ⟨neighbor.destAddr, by rw [rt_of_lookup hlook]; exact hack, ?_⟩
  unfold suspectUnidir
  dsimp only
  rw [if_pos hlink, hfind]
  dsimp only
  rw [if_pos ⟨hvalid, by simp [hack]⟩]
  have hmark : (n.modRt neighbor.destAddr fun rt =>
      { rt with flags := rt.flags ||| rtUnidir, helloTimer := rt.helloTimer.remove }).lookup
      neighbor.destAddr ≠ none := by
    rw [lookup_modRt (f := fun rt =>
      { rt with flags := rt.flags ||| rtUnidir, helloTimer := rt.helloTimer.remove }) _ _ fun _ => rfl,
      if_pos rfl, hlook]
    exact Option.some_ne_none _
  generalize n.modRt neighbor.destAddr (fun rt =>
    { rt with flags := rt.flags ||| rtUnidir, helloTimer := rt.helloTimer.remove }) = n₁ at hmark ⊢
  obtain ⟨rt₁, hrt₁⟩ := Option.ne_none_iff_exists'.mp hmark
  obtain ⟨rt₂, hrt₂, -⟩ := (hl neighbor.destAddr n₁).ages.lookup_eq_some hrt₁
  unfold Node.rt
  rw [lookup_modRt (f := fun rt => { rt with ackTimer := rt.ackTimer.setTimeout c.now nextHopWait })
    _ _ fun _ => rfl, if_pos rfl, hrt₂]
  rfl

theorem rrepSendGen_asks_iff (hl : c.BreaksLinks) (hb : c.BuildsErrors) (hwf : RtWf n) {m : RREP}
    (hm : n.sendBuf = .rrep m) (ha : m.a = false) (channel : Option Int) (rev : InAddr)
    (fwd : Option InAddr) (size : ℕ) :
    n.AsksAll (rrepSendGen c channel rev fwd size n) ↔ ¬ n.Suspects c rev := by
  obtain ⟨l, hout, hun⟩ := rrepSendGen_unasking hl hb hm ha channel rev fwd size
  constructor
  · rintro ⟨l', hout', hasks⟩ hsus
    obtain ⟨b, hbefore, hafter⟩ := hsus.awaits hl hwf
    rw [← ackTimer_rrepSendGen channel rev fwd size] at hafter
    obtain ⟨o, ho, hask⟩ := hasks b hbefore hafter
    have hl' : l' = l := List.append_cancel_left (hout'.symm.trans hout)
    exact (hun o (hl' ▸ ho)).not_asks b hask
  · intro hnot
    refine ⟨l, hout, fun b hbefore hafter => ?_⟩
    rw [ackTimer_rrepSendGen, suspectUnidir_of_not hnot, hbefore] at hafter
    cases hafter

end Call

/-! ## Exchanges without loss -/

/-- A packet on the air for a host, since the time it was sent. -/
structure OnAir where
  dest : InAddr
  p : Packet
  since : Time

/-- Agents and a clock, with what they have sent to each other and not yet received. -/
structure Exchange where
  now : Time
  proc : Process
  pending : List OnAir := []

/-- Who receives a packet: everybody else, or its next hop. -/
def receivers (hosts : List InAddr) (src : InAddr) (p : Packet) : List InAddr :=
  hosts.filter fun b => b ≠ src ∧ (p.daddr = aodvBroadcast ∨ p.nextHop = b)

section Exchange

variable (cf : Conf) (ext : Extern) (hosts : List InAddr)

def Exchange.step (o : Occurrence) (s : Exchange) : Exchange :=
  let proc := s.proc.step cf ext o
  let sent := (proc.node o.agent).scheduled.drop (s.proc.node o.agent).scheduled.length
  { now := o.env.now
    proc
    pending := s.pending ++
      sent.flatMap fun p => (receivers hosts o.agent p).map fun b => ⟨b, p, o.env.now⟩ }

def Exchange.receive (k : ℕ) (env : Env) (s : Exchange) : Exchange :=
  match s.pending[k]? with
  | none => s
  | some d =>
    Exchange.step cf ext hosts ⟨d.dest, env, .recv d.p⟩ { s with pending := s.pending.eraseIdx k }

/-- The clock can be moved on to `now`: a packet that is on its way now and the answer to it
still make it within `NEXT_HOP_WAIT`. -/
structure Exchange.Prompt (now : Time) (s : Exchange) : Prop where
  forward : s.now ≤ now
  inTime : ∀ d ∈ s.pending, 2 * timevalDiff now d.since < nextHopWait

instance (now : Time) (s : Exchange) : Decidable (s.Prompt now) :=
  decidable_of_iff (s.now ≤ now ∧ ∀ d ∈ s.pending, 2 * timevalDiff now d.since < nextHopWait)
    ⟨fun h => ⟨h.1, h.2⟩, fun h => ⟨h.forward, h.inTime⟩⟩

/-- What happens at an agent by itself: no packet is received but data of its own applications,
no transmission fails, and an acknowledgement timer runs out in its time. -/
def Event.Spontaneous (now : Time) (n : Node) : Event → Prop
  | .recv p => p.ptype ≠ .aodvuu ∧ p.saddr = n.ipaddr
  | .packetFailed _ => False
  | .ackTimer b => (n.rt b).ackTimer.timeout ≤ now
  | e => e.Legal n

/-- The exchanges in which every packet arrives, and in time. -/
inductive Timely : Exchange → Prop
  | init (now : Time) (env : InAddr → Env) : Timely ⟨now, Process.init cf ext env, []⟩
  | act {s : Exchange} (o : Occurrence) (hhost : o.agent ∈ hosts) (hprompt : s.Prompt o.env.now)
      (hown : o.event.Spontaneous o.env.now (s.proc.node o.agent)) :
      Timely s → Timely (s.step cf ext hosts o)
  | receive {s : Exchange} (k : ℕ) (env : Env) (hprompt : s.Prompt env.now) :
      Timely s → Timely (s.receive cf ext hosts k env)

variable {cf ext hosts} {s : Exchange}

theorem Exchange.step_reachable {o : Occurrence} (hlegal : o.event.Legal (s.proc.node o.agent))
    (h : ∀ a, Reachable cf ext a (s.proc.node a)) (a : InAddr) :
    Reachable cf ext a ((s.step cf ext hosts o).proc.node a) := by
  by_cases ha : a = o.agent
  · subst ha
    have hnode : (s.step cf ext hosts o).proc.node o.agent = (AodvUU.step ⟨cf, ext, o.env⟩ o.event
        (s.proc.recs, s.proc.node o.agent)).2 := Function.update_self _ _ _
    rw [hnode]
    exact .step o.env s.proc.recs o.event hlegal (h o.agent)
  · have hnode : (s.step cf ext hosts o).proc.node a = s.proc.node a :=
      Function.update_of_ne ha _ _
    rw [hnode]
    exact h a

theorem Timely.reachable (h : Timely cf ext hosts s) (a : InAddr) :
    Reachable cf ext a (s.proc.node a) := by
  induction h generalizing a with
  | init now env => exact .init (env a)
  | @act s o hhost hprompt hown _ ih =>
    refine Exchange.step_reachable ?_ ih a
    cases he : o.event with
    | ifqueue q =>
      rw [he] at hown
      exact hown
    | _ => trivial
  | @receive s k env hprompt _ ih =>
    unfold Exchange.receive
    split
    · exact ih a
    · next d _ =>
      exact Exchange.step_reachable (s := { s with pending := s.pending.eraseIdx k })
        (o := ⟨d.dest, env, .recv d.p⟩) trivial ih a

end Exchange

/-! ## Every exchange -/

/-- A call keeps its promise of an acknowledgement exactly when it does not suspect its link, and
without `unidir_hack` no call does: no acknowledgement timer ever runs out. -/
theorem handshake_without_suspicion {cf : Conf} {ext : Extern} {hosts : List InAddr}
    (hl : ∀ env, Ctx.BreaksLinks ⟨cf, ext, env⟩) (hb : ∀ env, Ctx.BuildsErrors ⟨cf, ext, env⟩)
    (hu : ∀ env, Ctx.Unsuspecting ⟨cf, ext, env⟩) :
    (∀ env n m, RtWf n → n.sendBuf = .rrep m → m.a = false → ∀ channel rev fwd size,
      n.AsksAll (rrepSendGen ⟨cf, ext, env⟩ channel rev fwd size n) ↔
        ¬ n.Suspects ⟨cf, ext, env⟩ rev) ∧
    (cf.unidirHack = false → ∀ s, Timely cf ext hosts s → ∀ a,
      (∀ env rev, ¬ (s.proc.node a).Suspects ⟨cf, ext, env⟩ rev) ∧
      (∀ rt ∈ (s.proc.node a).entries, rt.ackTimer.used = false) ∧
      ∀ env b, timerStep ⟨cf, ext, env⟩ (.ackTimer b) (s.proc.node a) = s.proc.node a) := by
  refine ⟨fun env n m hwf hm ha channel rev fwd size => ?_, fun hhack s hs a => ?_⟩
  · exact rrepSendGen_asks_iff (hl env) (hb env) hwf hm ha channel rev fwd size
  · have htrust : (s.proc.node a).Trusting :=
      reachable_trusting (fun env => ⟨hu env, hhack⟩) (hs.reachable a)
    exact ⟨fun env rev => htrust.not_suspects hhack rev, fun rt hrt => (htrust rt hrt).unawaited,
      fun env b => htrust.ackTimer b⟩

/-! ## A request that is answered -/

namespace Answering

abbrev ext (cf : Conf) : Extern := .described sampleLog cf

abbrev hosts : List InAddr := [1, 2]

/-- Agent 1 has data for its neighbour 2 and asks for a route. -/
def asked (cf : Conf) : Exchange :=
  Exchange.step cf (ext cf) hosts ⟨1, { now := 1000 }, .recv (ownData 1 2)⟩
    ⟨0, Process.init cf (ext cf) fun _ => { now := 0 }, []⟩

/-- The packets on the air arrive one by one, each 100 microseconds after the other. -/
def settle (cf : Conf) : ℕ → Exchange → Exchange
  | 0, s => s
  | k + 1, s => settle cf k (s.receive cf (ext cf) hosts 0 { now := s.now + 100 })

/-- The requests have reached 2, its reply has reached 1, and the data has reached 2. -/
def answered (cf : Conf) : Exchange := settle cf 11 (asked cf)

theorem settle_timely {cf : Conf} (k : ℕ) {s : Exchange} (h : Timely cf (ext cf) hosts s)
    (hprompt : ∀ i < k, (settle cf i s).Prompt ((settle cf i s).now + 100)) :
    Timely cf (ext cf) hosts (settle cf k s) := by
  induction k generalizing s with
  | zero => exact h
  | succ k ih =>
    refine ih (.receive 0 { now := s.now + 100 } (hprompt 0 (Nat.succ_pos k)) h) fun i hi => ?_
    exact hprompt (i + 1) (Nat.succ_lt_succ hi)

theorem answered_timely {cf : Conf}
    (hprompt : ∀ i < 11, (settle cf i (asked cf)).Prompt ((settle cf i (asked cf)).now + 100)) :
    Timely cf (ext cf) hosts (answered cf) := by
  refine settle_timely 11 (.act _ (by decide) ?_ ⟨nofun, rfl⟩ (.init 0 fun _ => { now := 0 })) hprompt
  exact ⟨(by decide : (0 : Time) ≤ 1000), fun d hd => absurd hd List.not_mem_nil⟩

end Answering

/-- Agent 2 has answered the request of 1, which has a route to it, and awaits no acknowledgement. -/
theorem answered_without_suspicion :
    (((Answering.answered {}).proc.node 1).rt 2).state = .valid ∧
    (∀ env n m, RtWf n → n.sendBuf = .rrep m → m.a = false → ∀ channel rev fwd size,
      n.AsksAll (rrepSendGen ⟨{}, .described sampleLog {}, env⟩ channel rev fwd size n) ↔
        ¬ n.Suspects ⟨{}, .described sampleLog {}, env⟩ rev) ∧
    Timely {} (Answering.ext {}) Answering.hosts (Answering.answered {}) ∧ ∀ a,
      (∀ env rev, ¬ ((Answering.answered {}).proc.node a).Suspects
        ⟨{}, .described sampleLog {}, env⟩ rev) ∧
      (∀ rt ∈ ((Answering.answered {}).proc.node a).entries, rt.ackTimer.used = false) ∧
      ∀ env b, timerStep ⟨{}, .described sampleLog {}, env⟩ (.ackTimer b)
        ((Answering.answered {}).proc.node a) = (Answering.answered {}).proc.node a := by
  have htimely : Timely {} (Answering.ext {}) Answering.hosts (Answering.answered {}) :=
    Answering.answered_timely (by decide +kernel)
  have hsound := @handshake_without_suspicion {} (Answering.ext {}) Answering.hosts
    (fun env => described_breaksLinks sampleLog {} env)
    (fun env => described_buildsErrors sampleLog {} env)
    fun env => described_unsuspecting sampleLog {} env
  exact ⟨by decide +kernel, hsound.1, htimely, hsound.2 rfl _ htimely⟩

/-! ## A responsive neighbour -/

namespace Blacklisting

open Answering (ext hosts)

abbrev conf : Conf := { unidirHack := true }

def expired : Exchange :=
  (Answering.answered conf).step conf (ext conf) hosts ⟨2, { now := 47000 }, .ackTimer 1⟩

theorem expired_timely : Timely conf (ext conf) hosts expired := by
  refine .act ⟨2, { now := 47000 }, .ackTimer 1⟩ (by decide) (by decide +kernel) ?_
    (Answering.answered_timely (by decide +kernel))
  show (((Answering.answered conf).proc.node 2).rt 1).ackTimer.timeout ≤ 47000
  decide +kernel

end Blacklisting

/-- Agent 1 got everything and answered at once, and 2 blacklists it. -/
theorem responsive_neighbour_blacklisted :
    ¬ ∀ s, Timely Blacklisting.conf (Answering.ext Blacklisting.conf) Answering.hosts s →
      ∀ a ∈ Answering.hosts, ∀ b ∈ Answering.hosts,
        (rreqBlacklistFind (s.proc.node a) b).isNone := by
  intro hall
  have hlisted : (rreqBlacklistFind (Blacklisting.expired.proc.node 2) 1).isNone = false := by
    decide +kernel
  have hnone := hall _ Blacklisting.expired_timely 2 (by decide) 1 (by decide)
  rw [hlisted] at hnone
  cases hnone

end AodvUU

import AodvUU.RerrRecords
import AodvUU.Runs

/-! # Networks

The agents of a process and what they put on the air. A control packet is received as some agent
scheduled it, late, often or never; data packets come from anywhere. -/
namespace AodvUU

variable {cf : Conf} {ext : Extern} {hosts : Set InAddr}

/-! ## On the air -/

def Node.scheduled (n : Node) : List Packet :=
  n.out.filterMap fun o => match o with
    | .sched _ p _ => some p
    | _ => none

/-- What a receiver reads of a packet is as it was scheduled. -/
structure Packet.Arrives (p q : Packet) : Prop where
  ptype : q.ptype = p.ptype
  saddr : q.saddr = p.saddr
  daddr : q.daddr = p.daddr
  ttl : q.ttl = p.ttl
  channel : q.channel = p.channel
  len : q.len = p.len
  msg : q.msg = p.msg

theorem Packet.Arrives.refl (p : Packet) : p.Arrives p := ⟨rfl, rfl, rfl, rfl, rfl, rfl, rfl⟩

/-- A host can receive a control packet that is on the air for it or for everyone. -/
def Process.Carries (P : Process) (a : InAddr) (q : Packet) : Prop :=
  ∃ b, ∃ p ∈ (P.node b).scheduled, p.Arrives q ∧ (p.daddr = aodvBroadcast ∨ p.daddr = a)

structure Occurrence.Legal (hosts : Set InAddr) (P : Process) (o : Occurrence) : Prop where
  host : o.agent ∈ hosts
  event : o.event.Legal (P.node o.agent)
  air : ∀ p, o.event = .recv p → p.ptype = .aodvuu → P.Carries o.agent p

/-! ## Runs -/

/-- The runs of a network whose every step meets a condition. -/
inductive Network (ok : Env → Node → Event → Prop) (cf : Conf) (ext : Extern)
    (hosts : Set InAddr) : Process → Prop
  | init (env : InAddr → Env) : Network ok cf ext hosts (Process.init cf ext env)
  | step {P : Process} (o : Occurrence) (hlegal : o.Legal hosts P)
      (hok : ok o.env (P.node o.agent) o.event) :
      Network ok cf ext hosts P → Network ok cf ext hosts (P.step cf ext o)

theorem Network.mono {ok ok' : Env → Node → Event → Prop} {P : Process}
    (h : Network ok cf ext hosts P) (himp : ∀ env n e, ok env n e → ok' env n e) :
    Network ok' cf ext hosts P := by
  induction h with
  | init env => exact .init env
  | step o hlegal hok _ ih => exact .step o hlegal (himp _ _ _ hok) ih

theorem Network.agent {ok : Env → Node → Event → Prop} {P : Process}
    (h : Network ok cf ext hosts P) (a : InAddr) : ReachableIf ok cf ext a (P.node a) := by
  induction h with
  | init env => exact .init (env a)
  | @step P o hlegal hok _ ih =>
    by_cases ha : a = o.agent
    · have hnode : (P.step cf ext o).node a =
          (AodvUU.step ⟨cf, ext, o.env⟩ o.event (P.recs, P.node a)).2 := by
        rw [ha]
        exact Function.update_self _ _ _
      rw [hnode]
      exact .step o.env P.recs o.event (ha ▸ hlegal.event) (ha ▸ hok) ih
    · have hnode : (P.step cf ext o).node a = P.node a := Function.update_of_ne ha _ _
      rw [hnode]
      exact ih

def Process.aired (P : Process) (b : InAddr) (k : ℕ) : Packet :=
  (P.node b).scheduled.getD k { saddr := b, daddr := b, ttl := 0 }

theorem legal_of_aired {P : Process} {a b : InAddr} {k : ℕ} (env : Env) (ha : a ∈ hosts)
    (hk : k < (P.node b).scheduled.length)
    (hd : (P.aired b k).daddr = aodvBroadcast ∨ (P.aired b k).daddr = a) :
    Occurrence.Legal hosts P ⟨a, env, .recv (P.aired b k)⟩ := by
  refine ⟨ha, trivial, fun p hp _ => ⟨b, P.aired b k, ?_, ?_, hd⟩⟩
  · unfold Process.aired
    rw [List.getD_eq_getElem?_getD, List.getElem?_eq_getElem hk]
    exact List.getElem_mem hk
  · cases hp
    exact .refl _

theorem legal_of_data {P : Process} {a : InAddr} (env : Env) (ha : a ∈ hosts) {p : Packet}
    (hp : p.ptype ≠ .aodvuu) : Occurrence.Legal hosts P ⟨a, env, .recv p⟩ := by
  refine ⟨ha, trivial, fun q hq hctl => absurd hctl ?_⟩
  cases hq
  exact hp

end AodvUU

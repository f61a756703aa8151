import AodvUU.HandlerActs

/-! # Every run of the agent is a run of Hello events

The steps of `HelloRun` are those of the three functions that work on the neighbour records; all
that the agent does besides leaves these records and the Hello counters as they are. -/
namespace AodvUU

variable {c : Ctx} {n n' : Node}

theorem NeighborInfo.Same.refl (nb : NeighborInfo) : nb.Same nb := ⟨rfl, fun _ _ => rfl⟩

theorem Node.SameHello.of_data (hip : n'.ipaddr = n.ipaddr) (hnb : n'.neighbors = n.neighbors)
    (hnum : n'.neighborNum = n.neighborNum) (hst : n'.stability = n.stability)
    (hhead : n'.helloHead = n.helloHead) (htail : n'.helloTail = n.helloTail)
    (hseq : n'.stabilitySequence = n.stabilitySequence) : n.SameHello n' where
  ipaddr := hip
  neighbors _ := hnb ▸ .refl _
  neighborNum := hnum
  stability := hst
  helloHead := hhead
  helloTail := htail
  series k _ := congrFun hseq k

theorem Act.sameHello {l : Licence} (h : Act c l n n') :
    (∃ e, n' = HelloEvent.run c e n) ∨ n.SameHello n' := by
  cases h with
  | still data =>
    exact .inr (.of_data (congrArg LinkData.ipaddr data) (congrArg LinkData.neighbors data)
      (congrArg LinkData.neighborNum data) (congrArg LinkData.stability data)
      (congrArg LinkData.helloHead data) (congrArg LinkData.helloTail data)
      (congrArg LinkData.stabilitySequence data))
  | handOut | store | write | tune => exact .inr (.of_data rfl rfl rfl rfl rfl rfl rfl)
  | hello e => exact .inl ⟨e, rfl⟩

variable {cf : Conf} {ext : Extern} {a : InAddr}

/-- What is assumed of the external neighbour functions: they neither tune to a channel, nor store
one in an entry, nor work on the neighbour records. -/
structure Extern.Plain (ext : Extern) (cf : Conf) : Prop where
  breaks : ∀ env, Ctx.BreaksPlainly ⟨cf, ext, env⟩
  adds : ∀ env, Ctx.AddsPlainly ⟨cf, ext, env⟩

theorem described_plain (log : ℚ → ℚ) (cf : Conf) : (Extern.described log cf).Plain cf where
  breaks env := described_breaksPlainly log cf env
  adds env := described_addsPlainly log cf env

theorem helloRun_steady (hext : ext.Plain cf) (env : Env) :
    Ctx.Steady ⟨cf, ext, env⟩ ⟨fun _ => True, True⟩ (HelloRun (fun _ _ => True) cf ext a) where
  act n n' hact hn := by
    rcases hact.sameHello with ⟨e, rfl⟩ | hsame
    · exact .event env e trivial hn
    · exact .rest hsame hn
  breaks := hext.breaks env
  hello := trivial
  floods _ _ := trivial

/-- What holds of the runs of Hello events holds of the agent. -/
theorem reachable_helloRun (hext : ext.Plain cf) (h : Reachable cf ext a n) :
    HelloRun (fun _ _ => True) cf ext a n := by
  induction h with
  | init env => exact .init env
  | step env recs e _ _ ih =>
    have hsteady := helloRun_steady (a := a) hext env
    refine hsteady.step (hext.adds env) (fun _ _ _ _ _ => trivial) recs e (fun _ _ _ => trivial) ?_ ih
    intro p rrep m _ _ _ _ hadd
    exact hsteady.rrepProcess rrep _ _ _ trivial (fun _ _ _ _ _ _ _ _ => trivial) hadd

end AodvUU

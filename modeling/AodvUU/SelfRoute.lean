import AodvUU.NeighborCalls
import AodvUU.Network
import AodvUU.SeekList

/-! # Routes to oneself

Requests, replies and the insertion with a channel refuse the agent's own address. A forwarder of
a reply to a local repair stores a route to every destination listed, whoever it is. -/
namespace AodvUU

variable {c : Ctx}

/-! ## The invariant -/

structure Node.NoSelf (a : InAddr) (n : Node) : Prop where
  ipaddr : n.ipaddr = a
  lookup : n.lookup a = none

theorem Node.NoSelf.wanes {a : InAddr} {n n' : Node} (h : n.NoSelf a) (hip : n'.ipaddr = n.ipaddr)
    (hw : n.Wanes n') : n'.NoSelf a := by
  refine ⟨hip.trans h.ipaddr, ?_⟩
  cases hrt : n'.lookup a with
  | none => rfl
  | some rt' =>
    obtain ⟨rt, hrt₀, -⟩ := hw a rt' hrt
    rw [h.lookup] at hrt₀
    cases hrt₀

theorem Node.NoSelf.effects {a : InAddr} {n n' : Node} (h : n.NoSelf a)
    (he : Effects c .waning n n') : n'.NoSelf a :=
  h.wanes he.ipaddr he.wanes

theorem Node.NoSelf.modRt {a : InAddr} {n : Node} (h : n.NoSelf a) (b : InAddr)
    {f : RtTable → RtTable} (hf : ∀ rt, (f rt).destAddr = rt.destAddr) :
    (n.modRt b f).NoSelf a := by
  refine ⟨h.ipaddr, ?_⟩
  rw [lookup_modRt b a hf, h.lookup]
  split <;> rfl

theorem Node.NoSelf.store {a : InAddr} {n : Node} (h : n.NoSelf a) {rt : RtTable}
    (hd : rt.destAddr ≠ a) : (storeEntry rt n).NoSelf a := by
  refine ⟨h.ipaddr, ?_⟩
  rw [lookup_storeEntry, if_neg hd]
  exact h.lookup

theorem noSelf_keeps (hl : c.LinkBreaks {}) (a : InAddr) :
    c.Keeps fun n => RtWf n ∧ n.NoSelf a := by
  refine .of_wf hl (fun n n' hr hn => ?_) (fun b f n hf hn => hn.modRt b fun rt => (hf rt).destAddr)
    (fun _ _ _ hn => ⟨hn.ipaddr, hn.lookup⟩) (fun b n _ hn => ?_)
  · exact ⟨(congrArg Routes.ipaddr hr).trans hn.ipaddr, (lookup_of_routes hr).trans hn.lookup⟩
  · exact hn.wanes (hl b n).ipaddr (.of_ages (hl b n).ages)

theorem noSelf_searches (a : InAddr) : Searches fun n => RtWf n ∧ n.NoSelf a :=
  fun _ _ _ hn => ⟨hn.1.of_table rfl rfl, hn.2.ipaddr, hn.2.lookup⟩

theorem noSelf_takes {a : InAddr} (h : c.Keeps fun n => RtWf n ∧ n.NoSelf a) {r : Route} {n : Node}
    (hself : n.lookup r.dest = none → r.dest ≠ a) (hn : RtWf n ∧ n.NoSelf a) :
    c.Takes (fun n => RtWf n ∧ n.NoSelf a) r n :=
  h.takes_wf (fun _ hnone _ => hn.2.store (hself hnone))
    (fun _ _ _ hn => hn.modRt r.dest fun _ => RtTable.write_destAddr _ _ _ _ _ _ _ _ _) hn

/-! ## One event -/

/-- What the agent receives tells it no route to itself: no Hello does, and no reply to a local
repair that it passes on. -/
def Event.SparesSelf (n : Node) : Event → Prop
  | .recv p => p.saddr ≠ n.ipaddr →
      (∀ hello, p.hello = some hello → hello.destAddr ≠ n.ipaddr) ∧
      ∀ rrep, p.reply = some rrep → rrep.lr → rrep.destAddr ≠ n.ipaddr → rrep.origAddr ≠ n.ipaddr →
        ∀ ud, Ext.rrepUdest ud ∈ rrep.exts → ud.destAddr ≠ n.ipaddr
  | _ => True

theorem Extern.Documented.noSelf {cf : Conf} {ext : Extern} (hext : ext.Documented cf) (env : Env)
    {a src : InAddr} (hsrc : src ≠ a) {n : Node} (hn : RtWf n ∧ n.NoSelf a) (m : AodvMsg) :
    RtWf (ext.neighborAdd env m src n) ∧ (ext.neighborAdd env m src n).NoSelf a := by
  refine hext.neighborAdd (noSelf_keeps (c := ⟨cf, ext, env⟩) (hext.linkBreaks env) a).toCalm
    (fun ext seqno life flags n₁ _ hn₁ hnone => ?_) (fun ext seqno life flags n₁ hn₁ => ?_) hn m
  · exact ⟨hn₁.1.store _ flags hnone, hn₁.2.store hsrc⟩
  · refine ⟨hn₁.1.write ⟨src, src, 1, seqno, life, none⟩ flags, hn₁.2.modRt src fun _ => ?_⟩
    exact RtTable.write_destAddr _ _ _ _ _ _ _ _ _

theorem recv_noSelf {cf : Conf} {ext : Extern} (hext : ext.Documented cf) (env : Env)
    {a : InAddr} {n : Node} (hn : RtWf n ∧ n.NoSelf a) (recs : List RerrRecord) {p : Packet}
    (hok : Event.SparesSelf n (.recv p)) :
    RtWf (recv ⟨cf, ext, env⟩ p (recs, n)).2 ∧ (recv ⟨cf, ext, env⟩ p (recs, n)).2.NoSelf a := by
  have h := noSelf_keeps (c := ⟨cf, ext, env⟩) (hext.linkBreaks env) a
  have hip := hn.2.ipaddr
  refine recv_cases (J := fun n => RtWf n ∧ n.NoSelf a) (I := fun n => RtWf n ∧ n.NoSelf a) recs
    (h.routes n _ rfl hn) hn (fun _ _ dir => ?_) (fun hello hhello hown => ?_)
    (fun hown m _ _ => hext.noSelf env (hip ▸ hown) hn m) (fun rrep hrrep hown n₁ hn₁ => ?_)
    (fun rreq hrreq hown n₁ hn₁ => ?_) (fun rerr _ _ n₁ hn₁ => ?_)
    (fun ack n₁ hn₁ => h.rrepAckProcess ack p.saddr hn₁)
  · refine h.toCalm.processPacket (J := fun n => RtWf n ∧ n.NoSelf a) (fun _ => id)
      (fun n' flags hn' => h.rreqRouteDiscovery (noSelf_searches a) _ flags hn')
      (fun _ n' hn' => ?_) hn
    exact ⟨effects_preserve_rtWf hn'.1 (rreqLocalRepair_effects trivial _ n'),
      hn'.2.effects (rreqLocalRepair_effects trivial _ n')⟩
  · have hdest : hello.destAddr ≠ a := hip ▸ (hok hown).1 hello hhello
    refine h.helloProcess hello (fun n' hr _ _ => noSelf_takes h (fun _ => hdest)
      (h.routes n n' hr hn)) (fun _ n' hr hnone _ _ => ?_) hn
    have hn' := h.routes n n' hr hn
    exact ⟨hn'.1.storeEntry rfl ⟨rfl, rfl⟩ ((lookup_of_routes hr).trans hnone), hn'.2.store hdest⟩
  · have huds := (hok hown).2 rrep hrrep
    rw [hip] at huds
    refine h.rrepProcess rrep _ _ _ (fun hlr => ?_) (fun _ hdest => ?_) hn₁
    · refine h.rrepProcessLr (hext.linkBreaks env) rrep _ _ _ (fun _ _ n' hn' b _ rt _ _ hrt _ _ => ?_)
        (fun hdest horig n' hn' b hb => ?_) hn₁
      · refine noSelf_takes h (fun hnone => ?_) hn'
        rw [RREP.repairRoute_dest, destAddr_of_lookup hrt, hrt] at hnone
        cases hnone
      · refine noSelf_takes h (fun _ => ?_) hn'
        rw [hn₁.2.ipaddr] at hdest horig
        rcases hb with rfl | ⟨ud, hud, rfl⟩
        · exact hdest
        · exact huds hlr hdest horig ud hud
    · exact noSelf_takes h (fun _ => hn₁.2.ipaddr ▸ hdest) hn₁
  · have htakes : rreq.origAddr ≠ n₁.ipaddr → ∀ chan n', n'.routes = n₁.routes →
        Ctx.Takes ⟨cf, ext, env⟩ (fun n => RtWf n ∧ n.NoSelf a) (rreq.route p.saddr chan) n' :=
      fun horig _ n' hr => noSelf_takes h (fun _ => hn₁.2.ipaddr ▸ horig) (h.routes n₁ n' hr hn₁)
    refine h.rreqProcess rreq _ _ _ (fun _ => ?_) (fun _ horig => htakes horig _)
      (fun _ n' hn' _ _ _ => ?_) hn₁
    · exact h.rreqProcessLr rreq _ _ _ (fun horig => htakes horig none) hn₁
    · exact ⟨hn'.1.rtTableDelete _, hn'.2.effects (c := ⟨cf, ext, env⟩)
        (.of (.delete trivial rreq.destAddr))⟩
  · refine h.rerrProcess (noSelf_searches a) rerr _ _ _ (fun ud _ _ n' hn' _ _ _ _ => ?_) hn₁
    exact ⟨hn'.1.rtTableInvalidate _, hn'.2.effects (c := ⟨cf, ext, env⟩) (.invalidate _ n')⟩

theorem step_noSelf {cf : Conf} {ext : Extern} (hext : ext.Documented cf) (env : Env)
    {a : InAddr} {n : Node} (hn : RtWf n ∧ n.NoSelf a) (recs : List RerrRecord) {e : Event}
    (hok : e.SparesSelf n) :
    RtWf (step ⟨cf, ext, env⟩ e (recs, n)).2 ∧ (step ⟨cf, ext, env⟩ e (recs, n)).2.NoSelf a := by
  have hl := hext.linkBreaks env
  have h := noSelf_keeps (c := ⟨cf, ext, env⟩) hl a
  have heffects : ∀ n n', (RtWf n ∧ n.NoSelf a) → Effects ⟨cf, ext, env⟩ .waning n n' →
      RtWf n' ∧ n'.NoSelf a := fun n n' hn he =>
    ⟨effects_waning_preserve_rtWf hn.1 he, hn.2.effects he⟩
  refine h.step recs e (fun p he => ?_) (fun p _ => ?_) (fun b _ => ?_)
    (fun i s _ _ _ n' hn' _ _ => heffects n' _ hn' (localRepairTimeout_effects s.destAddr n')) hn
  · subst he
    exact recv_noSelf hext env hn recs hok
  · exact h.packetFailed (J := fun n => RtWf n ∧ n.NoSelf a) (fun _ => id)
      (fun _ n' hn' => heffects n' _ hn' (rreqLocalRepair_effects trivial _ n')) hn
  · exact heffects n _ hn (rtTimerTimeout_effects hl.widen trivial b n)

/-! ## Every network -/

/-- In every run of a network in which no node is told a route to itself, no node has one. -/
theorem no_route_to_self {cf : Conf} {ext : Extern} {hosts : Set InAddr} {P : Process}
    (hext : ext.Documented cf)
    (h : Network (fun _ n e => e.SparesSelf n) cf ext hosts P) (a : InAddr) :
    ∀ rt ∈ (P.node a).entries, rt.destAddr ≠ a := by
  have hn := (h.agent a).invariant (I := fun n => RtWf n ∧ n.NoSelf a)
    (fun env => ⟨init_rtWf a, rfl, rfl⟩)
    fun env recs e n hn hok => step_noSelf hext env hn recs hok
  intro rt hrt hdest
  have hlook := hn.1.lookup_eq_some.mpr ⟨hrt, hdest⟩
  rw [hn.2.lookup] at hlook
  cases hlook

/-! ## A repair through a listed destination -/

namespace Detour

abbrev ext : Extern := .described sampleLog repairConf

abbrev after (P : Process) (a : InAddr) (now : Time) (e : Event) : Process :=
  P.step repairConf ext ⟨a, { now }, e⟩

/-- Agent `s` looks for 1, and 1 learns a route to it over 2. -/
def searched (s : InAddr) : Process :=
  after (Process.init repairConf ext fun _ => { now := 0 }) s 1000 (.recv (ownData s 1))

def relayed (s : InAddr) : Process := after (searched s) 2 2000 (.recv ((searched s).aired s 0))

def answered (s : InAddr) : Process := after (relayed s) 1 3000 (.recv ((relayed s).aired 2 0))

/-- The link to 2 is gone, and 1 asks for 2 and lists `s`. -/
def repairing (s : InAddr) : Process :=
  after (answered s) 1 4000 (.packetFailed { ownData 1 s with nextHop := 2 })

/-- Agent 3 is a neighbour of 1 by now and passes the request on. -/
def passed (s : InAddr) : Process := after (repairing s) 3 5000 (.recv ((repairing s).aired 1 1))

/-- Agent 2 answers for all destinations listed. -/
def replied (s : InAddr) (k : ℕ) : Process := after (passed s) 2 6000 (.recv ((passed s).aired 3 k))

/-- The answer comes back through 3. -/
def returned (s : InAddr) (k : ℕ) : Process :=
  after (replied s k) 3 7000 (.recv ((replied s k).aired 2 9))

/-- Later 1 hears a Hello of 3. -/
def greeted : Process :=
  let P := after (after (returned 4 8) 3 7500 .start) 3 2000000 .helloTimer
  after P 1 2000100 (.recv (P.aired 3 10))

def hosts : Set InAddr := {1, 2, 3, 4}

def claims (a : InAddr) : Ext → Bool
  | .rrepUdest ud => ud.destAddr = a
  | _ => false

theorem spares_of_recv {n : Node} {p : Packet} (hhello : ∀ hello ∈ p.hello, hello.destAddr ≠ n.ipaddr)
    (hreply : ∀ rrep ∈ p.reply, ∀ e ∈ rrep.exts, ¬ claims n.ipaddr e) :
    Event.SparesSelf n (.recv p) :=
  fun _ => ⟨hhello, fun rrep hrrep _ _ _ _ hud hself =>
    hreply rrep hrrep _ hud (decide_eq_true hself)⟩

theorem hosts_mem : (1 : InAddr) ∈ hosts ∧ (2 : InAddr) ∈ hosts ∧ (3 : InAddr) ∈ hosts ∧
    (4 : InAddr) ∈ hosts := by
  simp [hosts]

theorem aired_network {P : Process} {a : InAddr} (b : InAddr) (k : ℕ) (now : Time) (ha : a ∈ hosts)
    (h : Network (fun _ n e => e.SparesSelf n) repairConf ext hosts P)
    (hair : (k < (P.node b).scheduled.length ∧ (P.aired b k).daddr = aodvBroadcast) ∧
      (P.aired b k).hello.isNone ∧ (P.aired b k).reply.isNone) :
    Network (fun _ n e => e.SparesSelf n) repairConf ext hosts
      (after P a now (.recv (P.aired b k))) := by
  obtain ⟨⟨hk, hbroadcast⟩, hhello, hreply⟩ := hair
  rw [Option.isNone_iff_eq_none] at hhello hreply
  refine .step _ (legal_of_aired { now } ha hk (.inl hbroadcast)) (spares_of_recv ?_ ?_) h
  · rw [hhello]
    exact fun _ h => nomatch h
  · rw [hreply]
    exact fun _ h => nomatch h

theorem replied_network {s : InAddr} {k : ℕ} (hs : s = 3 ∧ k = 11 ∨ s = 4 ∧ k = 8) :
    Network (fun _ n e => e.SparesSelf n) repairConf ext hosts (replied s k) := by
  obtain ⟨h1, h2, h3, h4⟩ := hosts_mem
  have hmem : s ∈ hosts := by
    rcases hs with ⟨rfl, rfl⟩ | ⟨rfl, rfl⟩
    · exact h3
    · exact h4
  have hdata : Event.SparesSelf ((Process.init repairConf ext fun _ => { now := 0 }).node s)
      (.recv (ownData s 1)) := fun hown => absurd rfl hown
  have hsearched : Network (fun _ n e => e.SparesSelf n) repairConf ext hosts (searched s) :=
    .step _ (legal_of_data { now := 1000 } hmem (by simp [ownData])) hdata (.init _)
  have hrelayed : Network (fun _ n e => e.SparesSelf n) repairConf ext hosts (relayed s) :=
    aired_network s 0 2000 h2 hsearched (by rcases hs with ⟨rfl, rfl⟩ | ⟨rfl, rfl⟩ <;> decide +kernel)
  have hanswered : Network (fun _ n e => e.SparesSelf n) repairConf ext hosts (answered s) :=
    aired_network 2 0 3000 h1 hrelayed (by rcases hs with ⟨rfl, rfl⟩ | ⟨rfl, rfl⟩ <;> decide +kernel)
  have hrepairing : Network (fun _ n e => e.SparesSelf n) repairConf ext hosts (repairing s) :=
    .step _ ⟨h1, trivial, fun _ h => by cases h⟩ trivial hanswered
  have hpassed : Network (fun _ n e => e.SparesSelf n) repairConf ext hosts (passed s) :=
    aired_network 1 1 5000 h3 hrepairing (by rcases hs with ⟨rfl, rfl⟩ | ⟨rfl, rfl⟩ <;> decide +kernel)
  exact aired_network 3 k 6000 h2 hpassed (by rcases hs with ⟨rfl, rfl⟩ | ⟨rfl, rfl⟩ <;> decide +kernel)

theorem greeted_network :
    Network (fun _ n e => e.SparesSelf n) repairConf ext hosts greeted := by
  obtain ⟨h1, -, h3, -⟩ := hosts_mem
  have hreturned : Network (fun _ n e => e.SparesSelf n) repairConf ext hosts (returned 4 8) :=
    .step _ (legal_of_aired _ h3 (by decide +kernel) (.inr (by decide +kernel)))
      (spares_of_recv (by decide +kernel) (by decide +kernel)) (replied_network (.inr ⟨rfl, rfl⟩))
  have hstarted : Network (fun _ n e => e.SparesSelf n) repairConf ext hosts
      (after (after (returned 4 8) 3 7500 .start) 3 2000000 .helloTimer) :=
    .step _ ⟨h3, trivial, fun _ h => by cases h⟩ trivial
      (.step _ ⟨h3, trivial, fun _ h => by cases h⟩ trivial hreturned)
  exact .step _ (legal_of_aired _ h1 (by decide +kernel) (.inl (by decide +kernel)))
    (spares_of_recv (by decide +kernel) (by decide +kernel)) hstarted

end Detour

/-- Agent 3 has passed on a reply that lists 4, and 1 has heard a Hello of 3. -/
theorem no_route_to_self_after_reply :
    (((Detour.greeted.node 3).rt 4).nextHop = 2 ∧ ((Detour.greeted.node 1).rt 3).state = .valid) ∧
    (∀ rt ∈ (Detour.greeted.node 3).entries, rt.destAddr ≠ 3) ∧
      ∀ rt ∈ (Detour.greeted.node 1).entries, rt.destAddr ≠ 1 :=
  ⟨by decide +kernel, no_route_to_self (described_documented sampleLog repairConf)
    Detour.greeted_network 3, no_route_to_self (described_documented sampleLog repairConf)
    Detour.greeted_network 1⟩

/-- The reply that 3 passes on lists 3. -/
theorem route_to_self :
    ¬ ∀ P, Network (fun _ _ _ => True) repairConf Detour.ext Detour.hosts P →
      ∀ a ∈ Detour.hosts, ∀ rt ∈ (P.node a).entries, rt.destAddr ≠ a := by
  intro hall
  have hmem : (3 : InAddr) ∈ Detour.hosts := by simp [Detour.hosts]
  have hrun : Network (fun _ _ _ => True) repairConf Detour.ext Detour.hosts (Detour.returned 3 11) :=
    .step _ (legal_of_aired _ hmem (by decide +kernel) (.inr (by decide +kernel))) trivial
      ((Detour.replied_network (.inl ⟨rfl, rfl⟩)).mono fun _ _ _ _ => trivial)
  have hself : ((Detour.returned 3 11).node 3).rt 3 ∈ ((Detour.returned 3 11).node 3).entries := by
    decide +kernel
  exact hall _ hrun 3 hmem _ hself (by decide +kernel)

end AodvUU

import AodvUU.NeighborCalls
import AodvUU.SeekList

/-! # What an entry knows of its link

`rreq_process` and `rrep_process` store the channel and the cost they computed together with the
next hop. `rt_table_update` moves an entry to another next hop and leaves the two as they are. -/
namespace AodvUU

variable {c : Ctx}

/-! ## Lessons -/

/-- Channel and cost of the way to a destination over a next hop. -/
structure Lesson where
  dest : InAddr
  next : InAddr
  channel : Int
  cost : ℚ

/-- What the two handlers compute from a packet received, in the state they start in. -/
inductive Packet.Teaches (c : Ctx) (p : Packet) (n : Node) : Lesson → Prop
  | request {rreq : RREQ} (hreq : p.request c = some rreq) (htype : rreq.type ≠ aodvRreqLr) :
      Teaches c p n ⟨rreq.origAddr, p.saddr, rreq.channel.toNat,
        receivedCost c n p.saddr rreq.channel rreq.exts⟩
  | reply {rrep : RREP} (hrep : p.reply = some rrep) (hlr : rrep.lr = false) :
      Teaches c p n ⟨rrep.destAddr, p.saddr, rrep.channel.toNat,
        receivedCost c n p.saddr rrep.channel rrep.exts⟩

theorem Packet.Teaches.next {p : Packet} {n : Node} {l : Lesson} (h : p.Teaches c n l) :
    l.next = p.saddr := by
  cases h <;> rfl

theorem Packet.Teaches.message {p : Packet} {n : Node} {l : Lesson} (h : p.Teaches c n l) :
    (∃ rreq, p.request c = some rreq) ∨ ∃ rrep, p.reply = some rrep := by
  cases h with
  | request hreq => exact .inl ⟨_, hreq⟩
  | reply hrep => exact .inr ⟨_, hrep⟩

def Event.lessons (c : Ctx) (n : Node) (e : Event) : Set Lesson :=
  { l | ∃ p m, e = .recv p ∧ p.received = some m ∧
    p.Teaches c (c.ext.neighborAdd c.env m p.saddr n) l }

/-- The runs of one agent with the lessons of the messages received so far. -/
inductive Learning (ok : Env → Node → Event → Prop) (cf : Conf) (ext : Extern) (a : InAddr) :
    Set Lesson → Node → Prop
  | init (env : Env) : Learning ok cf ext a ∅ (Node.init ⟨cf, ext, env⟩ a)
  | step {L : Set Lesson} {n : Node} (env : Env) (recs : List RerrRecord) (e : Event)
      (he : e.Legal n) (hok : ok env n e) :
      Learning ok cf ext a L n → Learning ok cf ext a (L ∪ e.lessons ⟨cf, ext, env⟩ n)
        (step ⟨cf, ext, env⟩ e (recs, n)).2

/-! ## The invariant -/

/-- Every entry with a channel, valid or not, knows its link from a lesson. -/
def Node.Taught (L : Set Lesson) (n : Node) : Prop :=
  ∀ a rt, n.lookup a = some rt → 0 ≤ rt.channel → ⟨a, rt.nextHop, rt.channel, rt.cost⟩ ∈ L

/-- Nothing is known of the link of `a` unless it leads to `next`. -/
def Node.LinkTo (n : Node) (a next : InAddr) : Prop :=
  ∀ rt, n.lookup a = some rt → 0 ≤ rt.channel → rt.nextHop = next

theorem Node.LinkTo.rerouted {n₀ n : Node} {a src : InAddr} (h : n₀.LinkTo a src)
    (hr : n₀.Rerouted src n) : n.LinkTo a src := by
  intro rt hrt hch
  rcases hr a rt hrt with hnext | ⟨rt₀, hrt₀, hlapse⟩
  · exact hnext
  · exact hlapse.nextHop.trans (h rt₀ hrt₀ (hlapse.channel ▸ hch))

theorem Node.Taught.of_before {L : Set Lesson} {n n' : Node} (h : n.Taught L)
    (hback : ∀ a rt', n'.lookup a = some rt' → ∃ rt, n.lookup a = some rt ∧
      rt'.nextHop = rt.nextHop ∧ rt'.channel = rt.channel ∧ rt'.cost = rt.cost) :
    n'.Taught L := by
  intro a rt' hrt' hch
  obtain ⟨rt, hrt, hnext, hchan, hcost⟩ := hback a rt' hrt'
  rw [hnext, hchan, hcost]
  exact h a rt hrt (hchan ▸ hch)

theorem Node.Taught.lapses {L : Set Lesson} {n n' : Node} (h : n.Taught L) (hl : n.Lapses n') :
    n'.Taught L := by
  refine h.of_before fun a rt' hrt' => ?_
  obtain ⟨rt, hrt, hlapse⟩ := Node.Entrywise.exists_before hl hrt'
  exact ⟨rt, hrt, hlapse.nextHop, hlapse.channel, hlapse.cost⟩

theorem Node.Taught.wanes {L : Set Lesson} {n n' : Node} (h : n.Taught L) (hw : n.Wanes n') :
    n'.Taught L := by
  refine h.of_before fun a rt' hrt' => ?_
  obtain ⟨rt, hrt, hage⟩ := hw a rt' hrt'
  exact ⟨rt, hrt, hage.nextHop, hage.channel, hage.cost⟩

theorem Node.Taught.mono {L L' : Set Lesson} {n : Node} (h : n.Taught L) (hsub : L ⊆ L') :
    n.Taught L' := fun a rt hrt hch => hsub (h a rt hrt hch)

theorem Node.Taught.store {L : Set Lesson} {n : Node} (h : n.Taught L) {rt : RtTable}
    (hrt : 0 ≤ rt.channel → ⟨rt.destAddr, rt.nextHop, rt.channel, rt.cost⟩ ∈ L) :
    (storeEntry rt n).Taught L := by
  intro a rt' hrt' hch
  rw [lookup_storeEntry] at hrt'
  split at hrt'
  · next hd =>
    cases hrt'
    exact hd ▸ hrt hch
  · exact h a rt' hrt' hch

/-- A route with a channel is a lesson; one without keeps to the link. -/
structure Route.Sound (L : Set Lesson) (n : Node) (r : Route) : Prop where
  taught : ∀ ch cost, r.chan = some (ch, cost) → ⟨r.dest, r.next, ch, cost⟩ ∈ L
  link : r.chan = none → n.LinkTo r.dest r.next

theorem Node.Taught.write {L : Set Lesson} {n : Node} (h : n.Taught L) {r : Route}
    (hr : r.Sound L n) (flags : BitVec 16) : (n.modRt r.dest (r.write c flags)).Taught L := by
  intro a rt' hrt' hch
  rw [lookup_routeWrite] at hrt'
  split at hrt'
  · next hd =>
    obtain ⟨rt, hrt, rfl⟩ := Option.map_eq_some_iff.mp hrt'
    have hnext : (r.write c flags rt).nextHop = r.next := RtTable.write_nextHop _ _ _ _ _ _ _ _ rt
    have hchan : (r.write c flags rt).channel = (r.chan.map Prod.fst).getD rt.channel :=
      RtTable.write_channel _ _ _ _ _ _ _ _ rt
    have hcost : (r.write c flags rt).cost = (r.chan.map Prod.snd).getD rt.cost :=
      RtTable.write_cost _ _ _ _ _ _ _ _ rt
    rw [hchan] at hch
    rw [hnext, hchan, hcost, ← hd]
    cases hc : r.chan with
    | none =>
      rw [hc] at hch
      rw [← hr.link hc rt (hd ▸ hrt) hch, hd]
      exact h a rt hrt hch
    | some p => exact hr.taught p.1 p.2 hc
  · exact h a rt' hrt' hch

theorem Route.Sound.entry {L : Set Lesson} {n : Node} {r : Route} (hr : r.Sound L n)
    (flags : BitVec 16) : 0 ≤ (r.entry c flags).channel →
      ⟨(r.entry c flags).destAddr, (r.entry c flags).nextHop, (r.entry c flags).channel,
        (r.entry c flags).cost⟩ ∈ L := by
  intro hch
  have hchan : (r.entry c flags).channel = (r.chan.map Prod.fst).getD (-1) := rfl
  have hcost : (r.entry c flags).cost = (r.chan.map Prod.snd).getD 100000 := rfl
  rw [hchan] at hch
  rw [hchan, hcost]
  cases hc : r.chan with
  | none =>
    rw [hc] at hch
    exact absurd hch (by decide)
  | some p => exact hr.taught p.1 p.2 hc

/-! ## Handlers -/

/-- What a handler of a message from `src` keeps, `n₀` being the state before the event. -/
abbrev Node.TaughtBy (L : Set Lesson) (src : InAddr) (n₀ n : Node) : Prop :=
  n.Taught L ∧ n₀.Rerouted src n

theorem taught_keeps (hl : c.LinkBreaks {}) (L : Set Lesson) :
    c.Keeps fun n => RtWf n ∧ n.Taught L := by
  refine .of_wf hl (fun n n' hr hn => ?_) (fun a f n hf hn => hn.lapses (.quiet a hf n))
    (fun _ _ _ hn => hn) (fun a n _ hn => hn.wanes (.of_ages (hl a n).ages))
  exact hn.lapses (.of_lookup .refl fun _ => lookup_of_routes hr)

theorem taughtBy_keeps (hl : c.LinkBreaks {})
    (hlose : ∀ a n, RtWf n → n.LosesLink a (c.ext.neighborLinkBreak c.env a n)) (L : Set Lesson)
    (src : InAddr) (n₀ : Node) : c.Keeps fun n => RtWf n ∧ n₀.TaughtBy L src n := by
  have hlapse : ∀ {n n' : Node}, n.Lapses n' → n₀.TaughtBy L src n → n₀.TaughtBy L src n' :=
    fun hl hn => ⟨hn.1.lapses hl, hn.2.lapses hl⟩
  refine .of_wf hl (fun n n' hr hn => ?_) (fun a f n hf hn => ?_) (fun _ _ _ hn => hn)
    (fun a n hwf hn => ?_)
  · exact hlapse (.of_lookup .refl fun _ => lookup_of_routes hr) hn
  · exact hlapse (.quiet a hf n) hn
  · exact hlapse (hlose a n hwf).lapses hn

theorem taught_searches (L : Set Lesson) (src : InAddr) (n₀ : Node) :
    Searches fun n => RtWf n ∧ n₀.TaughtBy L src n :=
  fun _ _ _ hn => ⟨hn.1.of_table rfl rfl, hn.2⟩

theorem taught_takes {L : Set Lesson} {src : InAddr} {n₀ : Node}
    (h : c.Keeps fun n => RtWf n ∧ n₀.TaughtBy L src n) {r : Route} (hnext : r.next = src)
    (hr : r.Sound L n₀) {n : Node} (hn : RtWf n ∧ n₀.TaughtBy L src n) :
    c.Takes (fun n => RtWf n ∧ n₀.TaughtBy L src n) r n := by
  have hsound : ∀ n : Node, n₀.Rerouted src n → r.Sound L n := fun n hn =>
    ⟨hr.taught, fun hc => hnext ▸ (hnext ▸ hr.link hc).rerouted hn⟩
  exact h.takes_wf (fun flags _ _ => ⟨hn.2.1.store (hr.entry flags), hn.2.2.store hnext⟩)
    (fun flags n _ hn => ⟨hn.1.write (hsound n hn.2) flags, hn.2.write hnext flags⟩) hn

theorem taught_store_invalid {L : Set Lesson} {src : InAddr} {n₀ n : Node}
    (hn : RtWf n ∧ n₀.TaughtBy L src n) (hnone : n.lookup src = none) (hops : BitVec 8)
    (seqno life : BitVec 32) (flags : BitVec 16) :
    RtWf (storeEntry (newEntry c src src hops seqno life .invalid flags (-1) 100000) n) ∧
      n₀.TaughtBy L src
        (storeEntry (newEntry c src src hops seqno life .invalid flags (-1) 100000) n) :=
  ⟨hn.1.storeEntry rfl ⟨rfl, rfl⟩ hnone,
    hn.2.1.store fun hch => absurd (show (0 : Int) ≤ -1 from hch) (by decide), hn.2.2.store rfl⟩

/-- No update without a channel moves an entry with a channel to another next hop: neither
`neighbor_add` nor a Hello, nor a request or reply of a local repair. -/
def Event.KeepsLinks (c : Ctx) (n : Node) : Event → Prop
  | .recv p => p.saddr ≠ n.ipaddr →
      (∀ m, p.received = some m → p.hello = none → n.LinkTo p.saddr p.saddr) ∧
      (∀ hello, p.hello = some hello → n.LinkTo hello.destAddr hello.destAddr) ∧
      (∀ rreq, p.request c = some rreq → rreq.type = aodvRreqLr → rreq.origAddr ≠ n.ipaddr →
        n.LinkTo rreq.origAddr p.saddr) ∧
      (∀ rrep, p.reply = some rrep → rrep.lr → rrep.destAddr ≠ n.ipaddr →
        if rrep.origAddr = n.ipaddr then ∀ a rt, n.lookup a = some rt →
          a = rrep.destAddr ∨ rt.nextHop = rrep.destAddr → n.LinkTo a p.saddr
        else ∀ a, a = rrep.destAddr ∨ (∃ ud, Ext.rrepUdest ud ∈ rrep.exts ∧ a = ud.destAddr) →
          n.LinkTo a p.saddr)
  | _ => True

section Step

variable {cf : Conf} {ext : Extern} {env : Env} {L : Set Lesson} {n : Node}

theorem sound_of_link {r : Route} (hc : r.chan = none) (h : n.LinkTo r.dest r.next) :
    r.Sound L n := by
  refine ⟨fun ch cost hsome => ?_, fun _ => h⟩
  rw [hc] at hsome
  cases hsome

theorem sound_of_lesson {r : Route} {ch : Int} {cost : ℚ} (hc : r.chan = some (ch, cost))
    (h : ⟨r.dest, r.next, ch, cost⟩ ∈ L) : r.Sound L n := by
  refine ⟨fun ch' cost' hsome => ?_, fun hnone => ?_⟩
  · rw [hc] at hsome
    cases hsome
    exact h
  · rw [hc] at hnone
    cases hnone

theorem Extern.Documented.taught (hext : ext.Documented cf) (env : Env) {src : InAddr}
    (hn : RtWf n ∧ n.Taught L) (hlink : n.LinkTo src src) (m : AodvMsg) :
    RtWf (ext.neighborAdd env m src n) ∧ n.TaughtBy L src (ext.neighborAdd env m src n) := by
  refine hext.neighborAdd (taughtBy_keeps (c := ⟨cf, ext, env⟩) (hext.linkBreaks env)
    (hext.losesLink env) L src n).toCalm (fun ext seqno life flags n₁ _ hn₁ hnone => ?_)
    (fun ext seqno life flags n₁ hn₁ => ?_) ⟨hn.1, hn.2, .self n⟩ m
  · have hsound : Route.Sound L n ⟨src, src, 1, seqno, life, none⟩ := sound_of_link rfl hlink
    exact ⟨hn₁.1.store _ flags hnone, hn₁.2.1.store (hsound.entry flags), hn₁.2.2.store rfl⟩
  · have hsound : Route.Sound L n₁ ⟨src, src, 1, seqno, life, none⟩ :=
      sound_of_link rfl (hlink.rerouted hn₁.2.2)
    exact ⟨hn₁.1.write ⟨src, src, 1, seqno, life, none⟩ flags, hn₁.2.1.write hsound flags,
      hn₁.2.2.write (r := ⟨src, src, 1, seqno, life, none⟩) rfl flags⟩

theorem rrepProcess_taught (hext : ext.Documented cf) {n₁ : Node} {src : InAddr} {rrep : RREP}
    (len : ℕ) (ttl : Int) (hn₁ : RtWf n₁ ∧ n.TaughtBy L src n₁) (hip : n₁.ipaddr = n.ipaddr)
    (hlesson : rrep.lr = false → ⟨rrep.destAddr, src, rrep.channel.toNat,
      receivedCost ⟨cf, ext, env⟩ n₁ src rrep.channel rrep.exts⟩ ∈ L)
    (hlink : rrep.lr → rrep.destAddr ≠ n.ipaddr →
      if rrep.origAddr = n.ipaddr then ∀ a rt, n.lookup a = some rt →
        a = rrep.destAddr ∨ rt.nextHop = rrep.destAddr → n.LinkTo a src
      else ∀ a, a = rrep.destAddr ∨ (∃ ud, Ext.rrepUdest ud ∈ rrep.exts ∧ a = ud.destAddr) →
        n.LinkTo a src) :
    RtWf (rrepProcess ⟨cf, ext, env⟩ rrep len src ttl n₁) ∧
      (rrepProcess ⟨cf, ext, env⟩ rrep len src ttl n₁).Taught L := by
  have hl := hext.linkBreaks env
  have h := taughtBy_keeps (c := ⟨cf, ext, env⟩) hl (hext.losesLink env) L src n₁
  have hself : RtWf n₁ ∧ n₁.TaughtBy L src n₁ := ⟨hn₁.1, hn₁.2.1, .self n₁⟩
  have hdone : RtWf (rrepProcess ⟨cf, ext, env⟩ rrep len src ttl n₁) ∧
      n₁.TaughtBy L src (rrepProcess ⟨cf, ext, env⟩ rrep len src ttl n₁) := by
    refine h.rrepProcess rrep len src ttl (fun hlr => ?_) (fun hlr _ => ?_) hself
    · refine h.rrepProcessLr hl rrep len src ttl
        (fun hown horig n' hn' a rt₀ rt hrt₀ hage hrt _ hvia => ?_)
        (fun hown horig n' hn' a ha => ?_) hself
      · have hlink := hlink hlr (hip ▸ hown)
        rw [if_pos (hip ▸ horig)] at hlink
        have hdest : (rrep.repairRoute src rt).dest = a :=
          (rrep.repairRoute_dest src rt).trans (destAddr_of_lookup hrt)
        have hroute : (rrep.repairRoute src rt).next = src ∧
            (rrep.repairRoute src rt).chan = none := by
          unfold RREP.repairRoute
          split <;> exact ⟨rfl, rfl⟩
        refine taught_takes h hroute.1 (sound_of_link hroute.2 ?_) hn'
        rw [hdest, hroute.1]
        intro rt₁ hrt₁ hch
        cases hrt₀.symm.trans hrt₁
        rcases hn₁.2.2 a rt₀ hrt₀ with hnext | ⟨rt', hrt', hlapse⟩
        · exact hnext
        · refine hlapse.nextHop.trans (hlink a rt' hrt' ?_ rt' hrt' (hlapse.channel ▸ hch))
          rcases hvia with hd | hnext
          · exact .inl ((destAddr_of_lookup hrt).symm.trans hd)
          · exact .inr (hlapse.nextHop.symm.trans (hage.nextHop.symm.trans hnext))
      · have hlink := hlink hlr (hip ▸ hown)
        rw [if_neg (hip ▸ horig)] at hlink
        exact taught_takes h rfl (sound_of_link rfl ((hlink a ha).rerouted hn₁.2.2)) hn'
    · exact taught_takes h rfl (sound_of_lesson rfl (hlesson hlr)) hself
  exact ⟨hdone.1, hdone.2.1⟩

theorem recv_taught (hext : ext.Documented cf) (hn : RtWf n ∧ n.Taught L) (recs : List RerrRecord)
    {p : Packet} (hlessons : Event.lessons ⟨cf, ext, env⟩ n (.recv p) ⊆ L)
    (hok : Event.KeepsLinks ⟨cf, ext, env⟩ n (.recv p)) :
    RtWf (recv ⟨cf, ext, env⟩ p (recs, n)).2 ∧ (recv ⟨cf, ext, env⟩ p (recs, n)).2.Taught L := by
  have hl := hext.linkBreaks env
  have h := fun src => taughtBy_keeps (c := ⟨cf, ext, env⟩) hl (hext.losesLink env) L src n
  have hself : ∀ src, RtWf n ∧ n.TaughtBy L src n := fun src => ⟨hn.1, hn.2, .self n⟩
  refine recv_cases (J := fun n => RtWf n ∧ n.Taught L)
    (I := fun n₁ => (RtWf n₁ ∧ n.TaughtBy L p.saddr n₁) ∧ n₁.ipaddr = n.ipaddr ∧
      ∀ l, p.Teaches ⟨cf, ext, env⟩ n₁ l → l ∈ L) recs
    ?_ hn (fun _ _ dir => ?_) (fun hello hhello hown => ?_)
    (fun hown m hm hnot => ?_) (fun rrep hrrep hown n₁ hn₁ => ?_)
    (fun rreq hrreq hown n₁ hn₁ => ?_) (fun rerr _ _ n₁ hn₁ => ?_) (fun ack n₁ hn₁ => ?_)
  · have hn' := (h p.saddr).routes n (n.handOut (.drop p .routeLoop)) rfl (hself _)
    exact ⟨hn'.1, hn'.2.1⟩
  · refine (h p.saddr).toCalm.processPacket (J := fun n => RtWf n ∧ n.Taught L)
      (fun n' hn' => ⟨hn'.1, hn'.2.1⟩) (fun n' flags hn' => ?_) (fun _ n' hn' => ?_) (hself _)
    · have hdisc := (h p.saddr).rreqRouteDiscovery (c := ⟨cf, ext, env⟩)
        (taught_searches L p.saddr n) p.daddr flags hn'
      exact ⟨hdisc.1, hdisc.2.1⟩
    · have hrep := rreqLocalRepair_effects (c := ⟨cf, ext, env⟩) (s := .waning) trivial p.daddr n'
      exact ⟨effects_waning_preserve_rtWf hn'.1 hrep, hn'.2.1.wanes hrep.wanes⟩
  · have hlink := (hok hown).2.1 hello hhello
    have hdone := (h hello.destAddr).helloProcess (c := ⟨cf, ext, env⟩) hello
      (fun n' hr _ flags => taught_takes (r := hello.helloRoute _) (h hello.destAddr) rfl
        (sound_of_link rfl hlink) ((h _).routes n n' hr (hself _)))
      (fun _ n' hr hnone interval flags => taught_store_invalid ((h _).routes n n' hr (hself _))
        ((lookup_of_routes hr).trans hnone) 1 hello.destSeqno (helloLife interval) flags) (hself _)
    exact ⟨hdone.1, hdone.2.1⟩
  · refine ⟨hext.taught env hn ((hok hown).1 m hm hnot) m, hext.ipaddr env p.saddr hn.1 m,
      fun l hl => hlessons ⟨p, m, rfl, hm, hl⟩⟩
  · exact rrepProcess_taught hext p.len p.ttl hn₁.1 hn₁.2.1
      (fun hlr => hn₁.2.2 _ (.reply hrrep hlr)) ((hok hown).2.2.2 rrep hrrep)
  · have htakes : ∀ chan n', n'.routes = n₁.routes → (rreq.route p.saddr chan).Sound L n →
        Ctx.Takes ⟨cf, ext, env⟩ (fun n' => RtWf n' ∧ n.TaughtBy L p.saddr n')
          (rreq.route p.saddr chan) n' := fun chan n' hr hsound =>
      taught_takes (h _) rfl hsound ((h _).routes n₁ n' hr hn₁.1)
    have hdone := (h p.saddr).rreqProcess (c := ⟨cf, ext, env⟩) rreq p.len p.saddr p.ttl
      (fun htype => (h p.saddr).rreqProcessLr rreq p.len p.saddr p.ttl (fun horig n' hr =>
        htakes none n' hr (sound_of_link rfl ((hok hown).2.2.1 rreq hrreq htype
          (hn₁.2.1 ▸ horig)))) hn₁.1)
      (fun htype _ n' hr =>
        htakes _ n' hr (sound_of_lesson rfl (hn₁.2.2 _ (.request hrreq htype))))
      (fun _ n' hn' _ _ _ => ⟨hn'.1.rtTableDelete _, hn'.2.1.wanes (.delete _ n'),
        hn'.2.2.delete _⟩) hn₁.1
    exact ⟨hdone.1, hdone.2.1⟩
  · have hdone := (h p.saddr).rerrProcess (c := ⟨cf, ext, env⟩) (taught_searches L p.saddr n) rerr
      p.len p.saddr recs (fun ud _ _ n' hn' _ _ _ _ => ⟨hn'.1.rtTableInvalidate _,
        hn'.2.1.lapses (.invalidate _ n'), hn'.2.2.lapses (.invalidate _ n')⟩) hn₁.1
    exact ⟨hdone.1, hdone.2.1⟩
  · have hdone := (h p.saddr).rrepAckProcess ack p.saddr hn₁.1
    exact ⟨hdone.1, hdone.2.1⟩

theorem step_taught (hext : ext.Documented cf) (hn : RtWf n ∧ n.Taught L) (recs : List RerrRecord)
    {e : Event} (hlessons : e.lessons ⟨cf, ext, env⟩ n ⊆ L) (hok : e.KeepsLinks ⟨cf, ext, env⟩ n) :
    RtWf (step ⟨cf, ext, env⟩ e (recs, n)).2 ∧ (step ⟨cf, ext, env⟩ e (recs, n)).2.Taught L := by
  have hl := hext.linkBreaks env
  have h := taught_keeps (c := ⟨cf, ext, env⟩) hl L
  have heffects : ∀ n n', RtWf n ∧ n.Taught L → Effects ⟨cf, ext, env⟩ .waning n n' →
      RtWf n' ∧ n'.Taught L := fun n n' hn he =>
    ⟨effects_waning_preserve_rtWf hn.1 he, hn.2.wanes he.wanes⟩
  refine h.step recs e (fun p he => ?_) (fun p _ => ?_) (fun a _ => ?_)
    (fun i s _ _ _ n' hn' _ _ => heffects n' _ hn' (localRepairTimeout_effects s.destAddr n')) hn
  · subst he
    exact recv_taught hext hn recs hlessons hok
  · exact h.packetFailed (J := fun n => RtWf n ∧ n.Taught L) (fun _ => id)
      (fun _ n' hn' => heffects n' _ hn' (rreqLocalRepair_effects trivial _ n')) hn
  · exact heffects n _ hn (rtTimerTimeout_effects hl.widen trivial a n)

end Step

/-! ## Every run -/

/-- In every run in which no update without a channel moves an entry with one to another next hop,
the channel and the cost of a valid entry are those of a message from its next hop. -/
theorem entries_know_their_link {cf : Conf} {ext : Extern} {a : InAddr} {L : Set Lesson} {n : Node}
    (hext : ext.Documented cf)
    (h : Learning (fun env n e => e.KeepsLinks ⟨cf, ext, env⟩ n) cf ext a L n) :
    ∀ rt ∈ n.entries, rt.state = .valid → 0 ≤ rt.channel →
      ⟨rt.destAddr, rt.nextHop, rt.channel, rt.cost⟩ ∈ L := by
  have hn : RtWf n ∧ n.Taught L := by
    induction h with
    | init env => exact ⟨init_rtWf a, fun b rt hrt => by cases hrt⟩
    | step env recs e he hok _ ih =>
      exact step_taught hext ⟨ih.1, ih.2.mono Set.subset_union_left⟩ recs Set.subset_union_right hok
  exact fun rt hrt _ hch => hn.2 rt.destAddr rt (hn.1.lookup_eq_some.mpr ⟨hrt, rfl⟩) hch

def greetedNode : Node := (step (repairCtx 0) (.recv (helloFrom 2 7 0)) ([], behindNode)).2

def lrRequest : RREQ :=
  { type := aodvRreqLr, hcnt := 1, rreqId := 8, destAddr := 5, origAddr := 7, origSeqno := 6 }

def consultedNode : Node :=
  (step (repairCtx 1000) (.recv (messageFrom 2 aodvBroadcast 1 rreqSize (.rreq lrRequest)))
    ([], greetedNode)).2

def lrReply : RREP := { rrepCreate rrepLocalRepair 0 5 4 7 3000 with exts := [.rrepUdest ⟨9, 4⟩] }

def linkedNode : Node :=
  (step (repairCtx 2000) (.recv (messageFrom 2 1 1 (rrepSize + 8) (.rrep lrReply)))
    ([], consultedNode)).2

abbrev SampleLearning (L : Set Lesson) (n : Node) : Prop :=
  Learning (fun env n e => e.KeepsLinks ⟨repairConf, .described sampleLog repairConf, env⟩ n) repairConf
    (.described sampleLog repairConf) 1 L n

theorem behindNode_learning : ∃ L, SampleLearning L behindNode := by
  refine ⟨_, .step { now := 0 } [] (.recv (rreqFrom 2 0 _)) trivial (fun _ => ?_)
    (.init { now := 0 })⟩
  refine ⟨fun m _ _ rt hrt => ?_, fun hello hhello => ?_, fun rreq hrreq htype => ?_,
    fun rrep hrrep => ?_⟩
  · cases hrt
  · cases hhello
  · cases hrreq
    cases htype
  · cases hrrep

theorem linkTo_of_lookup {n : Node} {a next : InAddr}
    (h : ∀ rt ∈ n.lookup a, 0 ≤ rt.channel → rt.nextHop = next) : n.LinkTo a next := h

theorem greetedNode_learning : ∃ L, SampleLearning L greetedNode := by
  obtain ⟨L, hL⟩ := behindNode_learning
  refine ⟨_, .step { now := 0 } [] (.recv (helloFrom 2 7 0)) trivial (fun _ => ?_) hL⟩
  refine ⟨fun _ _ hnot => ?_, fun hello hhello => ?_, fun rreq hrreq => ?_, fun rrep hrrep => ?_⟩
  · cases hnot
  · cases hhello
    exact linkTo_of_lookup (n := behindNode) (a := 2) (by decide +kernel)
  · cases hrreq
  · cases hrrep

theorem consultedNode_learning : ∃ L, SampleLearning L consultedNode := by
  obtain ⟨L, hL⟩ := greetedNode_learning
  refine ⟨_, .step { now := 1000 } [] (.recv (messageFrom 2 aodvBroadcast 1 rreqSize _)) trivial
    (fun _ => ?_) hL⟩
  refine ⟨fun _ _ _ => ?_, fun hello hhello => ?_, fun rreq hrreq _ _ => ?_, fun rrep hrrep => ?_⟩
  · exact linkTo_of_lookup (n := greetedNode) (a := 2) (by decide +kernel)
  · cases hhello
  · cases hrreq
    exact linkTo_of_lookup (n := greetedNode) (a := 7) (by decide +kernel)
  · cases hrrep

theorem linkedNode_learning : ∃ L, SampleLearning L linkedNode := by
  obtain ⟨L, hL⟩ := consultedNode_learning
  refine ⟨_, .step { now := 2000 } [] (.recv (messageFrom 2 1 1 (rrepSize + 8) _)) trivial
    (fun _ => ?_) hL⟩
  refine ⟨fun _ _ _ => ?_, fun hello hhello => ?_, fun rreq hrreq => ?_, fun rrep hrrep _ _ => ?_⟩
  · exact linkTo_of_lookup (n := consultedNode) (a := 2) (by decide +kernel)
  · cases hhello
  · cases hrreq
  · cases hrrep
    rw [if_neg (by decide +kernel)]
    rintro a (rfl | ⟨ud, hud, rfl⟩)
    · exact linkTo_of_lookup (n := consultedNode) (a := 5) (by decide +kernel)
    · cases List.mem_singleton.mp hud
      exact linkTo_of_lookup (n := consultedNode) (a := 9) (by decide +kernel)

/-- The route to 9 knows the channel of the request, whatever came over the same link since. -/
theorem linkedNode_knows_link :
    ((linkedNode.rt 9).channel = 0 ∧ (linkedNode.rt 9).destSeqno = 4) ∧
    ∃ L, SampleLearning L linkedNode ∧
      ∀ rt ∈ linkedNode.entries, rt.state = .valid → 0 ≤ rt.channel →
        ⟨rt.destAddr, rt.nextHop, rt.channel, rt.cost⟩ ∈ L := by
  obtain ⟨L, hL⟩ := linkedNode_learning
  exact ⟨by decide +kernel, L, hL,
    entries_know_their_link (described_documented sampleLog repairConf) hL⟩

/-! ## A link that was learned elsewhere -/

/-- Agent 1 has heard of 2 through 3 when a Hello of 2 arrives. -/
def relayedRreq : Packet := rreqFrom 3 0
  { type := aodvRreq, hcnt := 1, rreqId := 7, destAddr := 8, origAddr := 2, origSeqno := 6,
    exts := [.cost 0] }

def heardOfNode : Node :=
  (step (sampleCtx 0) (.recv relayedRreq) ([], Node.init (sampleCtx 0) 1)).2

def movedNode : Node := (step (sampleCtx 1000) (.recv (helloFrom 2 7 0)) ([], heardOfNode)).2

/-- The Hello moves the entry and leaves it the cost of the way over 3. -/
theorem entry_with_foreign_link :
    ¬ ∀ L n, Learning (fun _ _ _ => True) {} (.described sampleLog {}) 1 L n →
      ∀ rt ∈ n.entries, rt.state = .valid → 0 ≤ rt.channel →
        ⟨rt.destAddr, rt.nextHop, rt.channel, rt.cost⟩ ∈ L := by
  intro hall
  have hrun : Learning (fun _ _ _ => True) {} (.described sampleLog {}) 1
      ((∅ ∪ Event.lessons (sampleCtx 0) (Node.init (sampleCtx 0) 1) (.recv relayedRreq)) ∪
        Event.lessons (sampleCtx 1000) heardOfNode (.recv (helloFrom 2 7 0))) movedNode :=
    .step { now := 1000 } [] (.recv (helloFrom 2 7 0)) trivial trivial
      (.step { now := 0 } [] (.recv relayedRreq) trivial trivial (.init { now := 0 }))
  have hmem : movedNode.rt 2 ∈ movedNode.entries := by decide +kernel
  have hnext : (movedNode.rt 2).nextHop = 2 := by decide +kernel
  have hlesson := hall _ _ hrun _ hmem (by decide +kernel) (by decide +kernel)
  rw [hnext] at hlesson
  rcases hlesson with (hempty | hrreq) | hhello
  · exact hempty
  · obtain ⟨p, m, hp, -, hteach⟩ := hrreq
    cases hp
    exact absurd hteach.next (by decide)
  · obtain ⟨p, m, hp, -, hteach⟩ := hhello
    cases hp
    have hreply : (helloFrom 2 7 0).reply = none := rfl
    rcases hteach.message with ⟨rreq, hrreq⟩ | ⟨rrep, hrrep⟩
    · cases hrreq
    · rw [hreply] at hrrep
      cases hrrep

end AodvUU

import AodvUU.InvariantRule

/-! # What the neighbour functions are relied on for

`neighbor_link_break` marks entries and invalidates those that lost their next hop;
`neighbor_add` stores the one-hop route of the neighbour. -/
namespace AodvUU

/-! ## Lapsing entries -/

/-- An entry is marked, or invalidated with a timer running that fits. -/
structure RtTable.Lapses (rt rt' : RtTable) : Prop where
  destAddr : rt'.destAddr = rt.destAddr
  nextHop : rt'.nextHop = rt.nextHop
  hcnt : rt'.hcnt = rt.hcnt
  channel : rt'.channel = rt.channel
  cost : rt'.cost = rt.cost
  timer : (rt'.state = rt.state ∧ rt'.rtTimer.handler = rt.rtTimer.handler ∧
      (rt.rtTimer.used → rt'.rtTimer.used)) ∨
    (rt.state = .valid ∧ rt'.state = .invalid ∧ rt'.rtTimer.used ∧
      (rt'.rtTimer.handler = .routeDeleteTimeout ∨ rt'.rtTimer.handler = .localRepairTimeout))

namespace RtTable.Lapses

variable {rt rt' rt'' : RtTable}

theorem of_quiet (h : rt.Quiet rt') : rt.Lapses rt' :=
  ⟨h.destAddr, h.nextHop, h.hcnt, h.channel, h.cost, .inl ⟨h.state, h.handler, h.used⟩⟩

theorem refl (rt : RtTable) : rt.Lapses rt :=
  ⟨rfl, rfl, rfl, rfl, rfl, .inl ⟨rfl, rfl, id⟩⟩

theorem trans (h : rt.Lapses rt') (h' : rt'.Lapses rt'') : rt.Lapses rt'' := by
  refine ⟨h'.destAddr.trans h.destAddr, h'.nextHop.trans h.nextHop, h'.hcnt.trans h.hcnt,
    h'.channel.trans h.channel, h'.cost.trans h.cost, ?_⟩
  rcases h.timer with ⟨hs, hh, hu⟩ | ⟨hv, hs, hu, hh⟩ <;>
    rcases h'.timer with ⟨hs', hh', hu'⟩ | ⟨hv', hs', hu', hh'⟩
  · exact .inl ⟨hs'.trans hs, hh'.trans hh, fun h => hu' (hu h)⟩
  · exact .inr ⟨hs ▸ hv', hs', hu', hh'⟩
  · exact .inr ⟨hv, hs'.trans hs, hu' hu, by rwa [hh']⟩
  · rw [hs] at hv'
    cases hv'

theorem invalid (h : rt.Lapses rt') (hs : rt.state = .invalid) : rt'.state = .invalid := by
  rcases h.timer with ⟨hs', -, -⟩ | ⟨hv, -, -, -⟩
  · exact hs'.trans hs
  · rw [hs] at hv
    cases hv

theorem valid (h : rt.Lapses rt') (hs : rt'.state = .valid) : rt.state = .valid := by
  cases hv : rt.state with
  | valid => rfl
  | invalid => exact absurd (h.invalid hv) (by rw [hs]; decide)

theorem invalidated (c : Ctx) (hv : rt.state = .valid) : rt.Lapses (rt.invalidated c) := by
  refine ⟨rfl, rfl, rfl, rfl, rfl, .inr ⟨hv, rfl, ?_⟩⟩
  unfold RtTable.invalidated
  dsimp only
  split
  · exact ⟨rfl, .inr rfl⟩
  · exact ⟨rfl, .inl rfl⟩

end RtTable.Lapses

abbrev Node.Lapses (n n' : Node) : Prop := n.Entrywise RtTable.Lapses n'

namespace Node.Lapses

variable {c : Ctx} {n n' n'' : Node}

theorem of_tbl (h : n'.tbl = n.tbl) : n.Lapses n' :=
  Node.Entrywise.of_lookup .refl fun a => by simp [Node.lookup, h]

theorem trans (h : n.Lapses n') (h' : n'.Lapses n'') : n.Lapses n'' :=
  Node.Entrywise.trans (fun _ _ _ => RtTable.Lapses.trans) h h'

theorem quiet (a : InAddr) {f : RtTable → RtTable} (hf : ∀ rt : RtTable, rt.Quiet (f rt))
    (n : Node) : n.Lapses (n.modRt a f) :=
  Node.Entrywise.modRt .refl a (fun rt => (hf rt).destAddr) (fun rt => .of_quiet (hf rt)) n

theorem invalidate (a : InAddr) (n : Node) : n.Lapses (rtTableInvalidate c a n) := by
  intro b
  rw [lookup_rtTableInvalidate]
  cases n.lookup b with
  | none => split <;> exact .none
  | some rt =>
    split
    · refine .some ?_
      dsimp only
      split
      · exact .refl rt
      · next hs => exact .invalidated c (by cases h : rt.state <;> simp_all)
    · exact .some (.refl rt)

end Node.Lapses

theorem state_after_invalidate {c : Ctx} {a : InAddr} {n : Node} {rt : RtTable}
    (h : (rtTableInvalidate c a n).lookup a = some rt) : rt.state = .invalid := by
  rw [lookup_rtTableInvalidate, if_pos rfl, Option.map_eq_some_iff] at h
  obtain ⟨rt₀, -, rfl⟩ := h
  split
  · assumption
  · rfl

/-! ## The contract -/

/-- The link to `a` is lost, and with it every route over `a`. -/
structure Node.LosesLink (a : InAddr) (n n' : Node) : Prop where
  lapses : n.Lapses n'
  lost : ∀ b rt, n'.lookup b = some rt → b = a ∨ rt.nextHop = a → rt.state = .invalid

/-- One call of `neighbor_add` for the neighbour `src`. The function looks the neighbour up and
stores a route that lives for some time. -/
inductive AddCall (cf : Conf) (env : Env) (src : InAddr) : Node → Node → Prop
  | insert {n : Node} (ext : Extern) (seqno life : BitVec 32) (flags : BitVec 16)
      (hlife : life ≠ 0) :
      AddCall cf env src n (rtTableInsert ⟨cf, ext, env⟩ src src 1 seqno life .valid flags n)
  | update {n : Node} (ext : Extern) (seqno life : BitVec 32) (flags : BitVec 16)
      (hfound : n.lookup src ≠ none) :
      AddCall cf env src n (Route.update ⟨cf, ext, env⟩ ⟨src, src, 1, seqno, life, none⟩ flags n)
  | quiet {n : Node} (a : InAddr) (f : RtTable → RtTable) (hf : ∀ rt : RtTable, rt.Quiet (f rt)) :
      AddCall cf env src n (n.modRt a f)
  | routes {n n' : Node} (hr : n'.routes = n.routes) : AddCall cf env src n n'

/-- What is assumed of the external neighbour functions. -/
structure Extern.Documented (cf : Conf) (ext : Extern) : Prop where
  linkBreaks : ∀ env, Ctx.LinkBreaks ⟨cf, ext, env⟩ {}
  losesLink : ∀ env a n, RtWf n → n.LosesLink a (ext.neighborLinkBreak env a n)
  neighborAdds : ∀ env m src n,
    Relation.ReflTransGen (AddCall cf env src) n (ext.neighborAdd env m src n)
  neighborKnown : ∀ env m src n, (ext.neighborAdd env m src n).lookup src ≠ none

theorem AddCall.keeps {cf : Conf} {env : Env} {src : InAddr} {I : Node → Prop} (h : Calm I)
    (hins : ∀ ext seqno life flags n, life ≠ 0 → I n → n.lookup src = none →
      I (storeEntry (Route.entry ⟨cf, ext, env⟩ ⟨src, src, 1, seqno, life, none⟩ flags) n))
    (hwrite : ∀ ext seqno life flags n, I n →
      I (n.modRt src (Route.write ⟨cf, ext, env⟩ ⟨src, src, 1, seqno, life, none⟩ flags)))
    {n n' : Node} (hcall : AddCall cf env src n n') (hn : I n) : I n' := by
  cases hcall with
  | insert ext seqno life flags hlife =>
    exact h.rtTableInsert src src 1 seqno life .valid flags
      (fun hnone => hins ext seqno life flags n hlife hn hnone) hn
  | update ext seqno life flags hfound =>
    exact h.update flags (show (1 : BitVec 8).toNat ≤ 1 by decide)
      (fun flags n hn => hwrite ext seqno life flags n hn) hn
  | quiet a f hf => exact h.quiet a f n hf hn
  | routes hr => exact h.routes n n' hr hn

theorem Extern.Documented.neighborAdd {cf : Conf} {ext : Extern} (hext : ext.Documented cf)
    {env : Env} {src : InAddr} {I : Node → Prop} (h : Calm I)
    (hins : ∀ ext seqno life flags n, life ≠ 0 → I n → n.lookup src = none →
      I (storeEntry (Route.entry ⟨cf, ext, env⟩ ⟨src, src, 1, seqno, life, none⟩ flags) n))
    (hwrite : ∀ ext seqno life flags n, I n →
      I (n.modRt src (Route.write ⟨cf, ext, env⟩ ⟨src, src, 1, seqno, life, none⟩ flags)))
    {n : Node} (hn : I n) (m : AodvMsg) : I (ext.neighborAdd env m src n) := by
  have hcalls := hext.neighborAdds env m src n
  generalize ext.neighborAdd env m src n = n' at hcalls ⊢
  induction hcalls with
  | refl => exact hn
  | tail _ hcall ih => exact hcall.keeps h hins hwrite ih

theorem Extern.Documented.ipaddr {cf : Conf} {ext : Extern} (hext : ext.Documented cf) (env : Env)
    (src : InAddr) {n : Node} (hwf : RtWf n) (m : AodvMsg) :
    (ext.neighborAdd env m src n).ipaddr = n.ipaddr := by
  have h : Ctx.Keeps ⟨cf, ext, env⟩ fun n' => RtWf n' ∧ n'.ipaddr = n.ipaddr :=
    .of_wf (hext.linkBreaks env) (fun _ _ hr hn => (congrArg Routes.ipaddr hr).trans hn)
      (fun _ _ _ _ hn => hn) (fun _ _ _ hn => hn)
      fun a n' _ hn => (hext.linkBreaks env a n').ipaddr.trans hn
  have hdone : RtWf (ext.neighborAdd env m src n) ∧
      (ext.neighborAdd env m src n).ipaddr = n.ipaddr := by
    refine hext.neighborAdd (I := fun n' => RtWf n' ∧ n'.ipaddr = n.ipaddr) h.toCalm
      (fun _ _ _ flags _ _ hn hnone => ⟨hn.1.store _ flags hnone, hn.2⟩)
      (fun ext seqno life flags n₁ hn => ⟨?_, hn.2⟩) ⟨hwf, rfl⟩ m
    exact hn.1.write ⟨src, src, 1, seqno, life, none⟩ flags
  exact hdone.2

/-! ## Routes over the sender -/

/-- Every entry goes over `src` by now, or is an earlier one that lapsed at most. -/
def Node.Rerouted (src : InAddr) (n₀ n : Node) : Prop :=
  ∀ a rt, n.lookup a = some rt → rt.nextHop = src ∨ ∃ rt₀, n₀.lookup a = some rt₀ ∧ rt₀.Lapses rt

namespace Node.Rerouted

variable {c : Ctx} {src : InAddr} {n₀ n n' : Node}

theorem self (n : Node) : n.Rerouted src n := fun _ rt hrt => .inr ⟨rt, hrt, .refl rt⟩

theorem lapses (h : n₀.Rerouted src n) (hl : n.Lapses n') : n₀.Rerouted src n' := by
  intro a rt' hrt'
  obtain ⟨rt, hrt, hlapse⟩ := Node.Entrywise.exists_before hl hrt'
  rcases h a rt hrt with hnext | ⟨rt₀, hrt₀, hlapse₀⟩
  · exact .inl (hlapse.nextHop.trans hnext)
  · exact .inr ⟨rt₀, hrt₀, hlapse₀.trans hlapse⟩

theorem store (h : n₀.Rerouted src n) {rt : RtTable} (hnext : rt.nextHop = src) :
    n₀.Rerouted src (storeEntry rt n) := by
  intro a rt' hrt'
  rw [lookup_storeEntry] at hrt'
  split at hrt'
  · cases hrt'
    exact .inl hnext
  · exact h a rt' hrt'

theorem write (h : n₀.Rerouted src n) {r : Route} (hnext : r.next = src) (flags : BitVec 16) :
    n₀.Rerouted src (n.modRt r.dest (r.write c flags)) := by
  intro a rt' hrt'
  rw [lookup_routeWrite] at hrt'
  split at hrt'
  · obtain ⟨rt, -, rfl⟩ := Option.map_eq_some_iff.mp hrt'
    exact .inl ((RtTable.write_nextHop _ _ _ _ _ _ _ _ rt).trans hnext)
  · exact h a rt' hrt'

theorem delete (h : n₀.Rerouted src n) (a : InAddr) : n₀.Rerouted src (rtTableDelete a n) := by
  intro b rt hrt
  rw [lookup_rtTableDelete] at hrt
  split at hrt
  · cases hrt
  · exact h b rt hrt

end Node.Rerouted

/-! ## The described functions meet it -/

section Described

variable {c : Ctx}

theorem linkBreakRerr_lapses (a : InAddr) (w : Bool × Node) :
    w.2.Lapses (linkBreakRerr a w).2 :=
  .of_tbl (congrArg Routes.tbl (linkBreakRerr_routes a w))

theorem linkBreakVisit_lapses (repair : Bool) (w : Bool × Node) (a : InAddr) :
    w.2.Lapses (linkBreakVisit c repair w a).2 ∧
      ∀ rt, (linkBreakVisit c repair w a).2.lookup a = some rt → rt.state = .invalid := by
  have hmark : w.2.Lapses (if repair then
      w.2.modRt a fun rt => { rt with flags := rt.flags ||| rtRepair } else w.2) := by
    split
    · refine .quiet a (fun _ => ?_) w.2
      exact ⟨rfl, rfl, rfl, rfl, rfl, rfl, rfl, rfl, id, id⟩
    · exact .of_tbl rfl
  have hrerr := linkBreakRerr_lapses a (w.1, rtTableInvalidate c a (if repair then
      w.2.modRt a fun rt => { rt with flags := rt.flags ||| rtRepair } else w.2))
  refine ⟨(hmark.trans (.invalidate a _)).trans hrerr, fun rt hrt => ?_⟩
  obtain ⟨rt₀, hrt₀, hl⟩ := Node.Entrywise.exists_before hrerr hrt
  exact hl.invalid (state_after_invalidate hrt₀)

theorem linkBreakVisits_lapses (repair : Bool) (l : List InAddr) (w : Bool × Node) :
    w.2.Lapses (l.foldl (linkBreakVisit c repair) w).2 ∧
      ∀ b ∈ l, ∀ rt, (l.foldl (linkBreakVisit c repair) w).2.lookup b = some rt →
        rt.state = .invalid := by
  induction l generalizing w with
  | nil => exact ⟨.of_tbl rfl, fun b hb => by cases hb⟩
  | cons a l ih =>
    obtain ⟨hvisit, hinv⟩ := linkBreakVisit_lapses (c := c) repair w a
    obtain ⟨hrest, hlist⟩ := ih (linkBreakVisit c repair w a)
    refine ⟨hvisit.trans hrest, fun b hb rt hrt => ?_⟩
    rcases List.mem_cons.mp hb with rfl | hb
    · obtain ⟨rt₀, hrt₀, hl⟩ := Node.Entrywise.exists_before hrest hrt
      exact hl.invalid (hinv rt₀ hrt₀)
    · exact hlist b hb rt hrt

theorem linkBreakWalk_losesLink (a : InAddr) {n : Node} (hwf : RtWf n) :
    n.LosesLink a (linkBreakWalk c a n).2 := by
  have hfirst : ∀ w : Bool × Node, w = (if hasFlag (n.rt a).flags rtRepair
      then (false, rtTableInvalidate c a n)
      else linkBreakRerr a (false, rtTableInvalidate c a n)) →
      (rtTableInvalidate c a n).Lapses w.2 := by
    rintro w rfl
    split
    · exact .of_tbl rfl
    · exact linkBreakRerr_lapses a (false, rtTableInvalidate c a n)
  have hwf' : RtWf (rtTableInvalidate c a n) := hwf.rtTableInvalidate a
  unfold linkBreakWalk
  dsimp only
  generalize hw : (if hasFlag (n.rt a).flags rtRepair then (false, rtTableInvalidate c a n)
    else linkBreakRerr a (false, rtTableInvalidate c a n)) = w
  obtain ⟨hwalk, hlist⟩ := linkBreakVisits_lapses (c := c) (hasFlag (n.rt a).flags rtRepair)
    (routesOver a (rtTableInvalidate c a n)) w
  have hafter := (hfirst w hw.symm).trans hwalk
  refine ⟨(Node.Lapses.invalidate a n).trans hafter, fun b rt hrt hlost => ?_⟩
  obtain ⟨rt₀, hrt₀, hl⟩ := Node.Entrywise.exists_before hafter hrt
  -- an entry that the walk passes over is invalid before it
  cases hs : rt₀.state with
  | invalid => exact hl.invalid hs
  | valid =>
    have hb : b ≠ a := by
      rintro rfl
      rw [state_after_invalidate hrt₀] at hs
      cases hs
    refine hlist b ?_ rt hrt
    obtain ⟨hmem, hdest⟩ := hwf'.lookup_eq_some.mp hrt₀
    refine List.mem_map.mpr ⟨rt₀, List.mem_filter.mpr ⟨hmem, ?_⟩, hdest⟩
    have hnext := hlost.resolve_left hb
    rw [hl.nextHop] at hnext
    simp [hs, hnext, hdest, hb]

theorem neighborLinkBreakDescribed_losesLink (a : InAddr) {n : Node} (hwf : RtWf n) :
    n.LosesLink a (neighborLinkBreakDescribed c a n) := by
  obtain ⟨hlapses, hlost⟩ := linkBreakWalk_losesLink (c := c) a hwf
  unfold neighborLinkBreakDescribed
  dsimp only
  split
  · have hsend : ∀ b, (aodvSocketSend c aodvBroadcast (rerrCalcSize (linkBreakWalk c a n).2.sendBuf)
        1 (linkBreakWalk c a n).2).lookup b = (linkBreakWalk c a n).2.lookup b := fun b =>
      lookup_of_routes (aodvSocketSend_routes _ _ _ _)
    refine ⟨hlapses.trans (Node.Entrywise.of_lookup .refl hsend), fun b rt hrt => ?_⟩
    rw [hsend] at hrt
    exact hlost b rt hrt
  · exact ⟨hlapses, hlost⟩

theorem neighborAddDescribed_calls (cf : Conf) (ext : Extern) (env : Env) (src : InAddr)
    (n : Node) : Relation.ReflTransGen (AddCall cf env src) n
      (neighborAddDescribed ⟨cf, ext, env⟩ src n) := by
  have hlife : msecs cf.activeRouteTimeout ≠ 0 := by
    unfold Conf.activeRouteTimeout
    split <;> decide
  unfold neighborAddDescribed
  split
  · exact .single (.insert ext 0 _ 0 hlife)
  · next rt hfind =>
    have hupdate : AddCall cf env src n (Route.update ⟨cf, ext, env⟩
        ⟨src, src, 1, rt.destSeqno, msecs cf.activeRouteTimeout, none⟩ rt.flags n) :=
      (.update ext _ _ rt.flags (lookup_of_rtTableFind hfind))
    split
    · exact .refl
    · dsimp only
      split
      · exact .tail (.single hupdate)
          (.quiet src _ fun _ => ⟨rfl, rfl, rfl, rfl, rfl, rfl, rfl, rfl, id, id⟩)
      · exact .single hupdate

theorem neighborAddDescribed_known (hl : c.LinkBreaks {}) (src : InAddr) (n : Node) :
    (neighborAddDescribed c src n).lookup src ≠ none := by
  unfold neighborAddDescribed
  split
  · exact lookup_rtTableInsert src src 1 0 _ .valid 0 n
  · next rt hfind =>
    have hsome := lookup_of_rtTableFind hfind
    obtain ⟨rt₀, hrt₀⟩ := Option.ne_none_iff_exists'.mp hsome
    obtain ⟨_, -, hinst⟩ := rtTableUpdateGen_installs hl hrt₀ none src 1 rt.destSeqno
      (msecs c.conf.activeRouteTimeout) .valid rt.flags
    obtain ⟨rt', hrt', -⟩ := hinst.entry
    have hupdate : (rtTableUpdate c src src 1 rt.destSeqno (msecs c.conf.activeRouteTimeout)
        .valid rt.flags n).lookup src ≠ none := by
      unfold rtTableUpdate
      rw [hrt']
      exact Option.some_ne_none rt'
    split
    · exact hsome
    · dsimp only
      split
      · have hages := (helloUpdateTimeout_effects (c := c) (s := {}) src
          (allowedHelloLoss * helloInterval) (rtTableUpdate c src src 1 rt.destSeqno
            (msecs c.conf.activeRouteTimeout) .valid rt.flags n)).ages
        exact hages.lookup_ne_none hupdate
      · exact hupdate

theorem described_documented (log : ℚ → ℚ) (cf : Conf) :
    (Extern.described log cf).Documented cf where
  linkBreaks env := described_linkBreaks log cf env
  losesLink _ a _ hwf := neighborLinkBreakDescribed_losesLink a hwf
  neighborAdds env _ src n := neighborAddDescribed_calls cf (.linkBreak log cf) env src n
  neighborKnown env _ src n := neighborAddDescribed_known (c := ⟨cf, .linkBreak log cf, env⟩)
    (fun a n => neighborLinkBreakDescribed_effects a n) src n

end Described

end AodvUU

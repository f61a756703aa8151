import AodvUU.NeighborCalls
import AodvUU.SeekList

/-! # The timers of the entries

Every function arms an entry with the handler of its new state, except that a valid entry
inserted with no lifetime gets no timer, that a local repair gives invalid entries the handler
of valid ones, and that the end of a discovery gives a valid entry that of invalid ones. -/
namespace AodvUU

variable {c : Ctx}

/-! ## Fitting timers -/

def RtState.Awaits : RtState → Handler → Prop
  | .valid, h => h = .routeExpireTimeout
  | .invalid, h => h = .routeDeleteTimeout ∨ h = .localRepairTimeout

def RtTable.TimerFits (rt : RtTable) : Prop :=
  rt.rtTimer.used ∧ rt.state.Awaits rt.rtTimer.handler

def Node.Each (F : RtTable → Prop) (n : Node) : Prop := ∀ a rt, n.lookup a = some rt → F rt

abbrev Node.Timed (n : Node) : Prop := n.Each RtTable.TimerFits

theorem RtTable.Lapses.timerFits {rt rt' : RtTable} (h : rt.Lapses rt') (hf : rt.TimerFits) :
    rt'.TimerFits := by
  rcases h.timer with ⟨hs, hh, hu⟩ | ⟨-, hs, hu, hh⟩
  · exact ⟨hu hf.1, by rw [hs, hh]; exact hf.2⟩
  · exact ⟨hu, by rw [hs]; exact hh⟩

theorem RtTable.Lapses.timerFits_of_lost {rt rt' : RtTable} (h : rt.Lapses rt')
    (hv : rt.state = .valid) (hs : rt'.state = .invalid) : rt'.TimerFits := by
  rcases h.timer with ⟨hs', -, -⟩ | ⟨-, -, hu, hh⟩
  · rw [hs, hv] at hs'
    cases hs'
  · exact ⟨hu, by rw [hs]; exact hh⟩

namespace Node.Each

variable {F : RtTable → Prop} {n n' : Node}

theorem routes (h : n.Each F) (hr : n'.routes = n.routes) : n'.Each F :=
  fun a rt hrt => h a rt (lookup_of_routes hr ▸ hrt)

theorem modRt (h : n.Each F) (a : InAddr) {f : RtTable → RtTable}
    (hd : ∀ rt, (f rt).destAddr = rt.destAddr) (hf : ∀ rt, n.lookup a = some rt → F (f rt)) :
    (n.modRt a f).Each F := by
  intro b rt' hrt'
  rw [lookup_modRt a b hd] at hrt'
  split at hrt'
  · next hab =>
    subst hab
    obtain ⟨rt, hrt, rfl⟩ := Option.map_eq_some_iff.mp hrt'
    exact hf rt hrt
  · exact h b rt' hrt'

theorem store (h : n.Each F) {rt : RtTable} (hrt : F rt) : (storeEntry rt n).Each F := by
  intro b rt' hrt'
  rw [lookup_storeEntry] at hrt'
  split at hrt'
  · cases hrt'
    exact hrt
  · exact h b rt' hrt'

theorem delete (h : n.Each F) (a : InAddr) : (rtTableDelete a n).Each F := by
  intro b rt hrt
  rw [lookup_rtTableDelete] at hrt
  split at hrt
  · cases hrt
  · exact h b rt hrt

end Node.Each

/-- A property of timers that a fresh entry has, and that lapses and updates keep. -/
structure TimerInvariant (F : RtTable → Prop) : Prop where
  fits : ∀ rt : RtTable, rt.TimerFits → F rt
  lapses : ∀ rt rt' : RtTable, rt.Lapses rt' → F rt → F rt'
  write : ∀ (c : Ctx) (r : Route) (flags : BitVec 16) (rt : RtTable), F rt → F (r.write c flags rt)

theorem Node.Each.lapses {F : RtTable → Prop} (hF : TimerInvariant F) {n n' : Node} (h : n.Each F)
    (hl : n.Lapses n') : n'.Each F := by
  intro a rt' hrt'
  obtain ⟨rt, hrt, hlapse⟩ := Node.Entrywise.exists_before hl hrt'
  exact hF.lapses rt rt' hlapse (h a rt hrt)

/-! ## Routes -/

theorem Route.entry_timerFits {r : Route} (hlife : r.life ≠ 0) (flags : BitVec 16) :
    (r.entry c flags).TimerFits := by
  unfold Route.entry newEntry
  dsimp only
  rw [if_neg (by decide), if_pos hlife]
  exact ⟨rfl, rfl⟩

theorem newEntry_invalid_timerFits (a next : InAddr) (hops : BitVec 8) (seqno life : BitVec 32)
    (flags : BitVec 16) (ch : Int) (cost : ℚ) :
    (newEntry c a next hops seqno life .invalid flags ch cost).TimerFits := by
  unfold newEntry
  dsimp only
  rw [if_pos rfl]
  split
  · exact ⟨rfl, .inr rfl⟩
  · exact ⟨rfl, .inl rfl⟩

theorem Route.write_timerFits (r : Route) (flags : BitVec 16) {rt : RtTable} (h : rt.TimerFits) :
    (r.write c flags rt).TimerFits := by
  unfold Route.write RtTable.write
  dsimp only
  split
  · exact ⟨h.1, rfl⟩
  · have hq := RtTable.updateTimeout_quiet c.now r.life { rt with
      flags := flags
      destSeqno := r.seqno
      nextHop := r.next
      hcnt := r.hops
      channel := (r.chan.map Prod.fst).getD rt.channel
      cost := (r.chan.map Prod.snd).getD rt.cost
      rtTimer := { rt.rtTimer with handler := .routeExpireTimeout } }
    exact ⟨hq.used h.1, hq.handler⟩

theorem timerFits_timerInvariant : TimerInvariant RtTable.TimerFits where
  fits _ h := h
  lapses _ _ hl h := hl.timerFits h
  write _ r flags _ h := r.write_timerFits flags h

section Keeps

variable {F : RtTable → Prop} (hF : TimerInvariant F)

include hF

theorem each_keeps (hl : c.LinkBreaks {})
    (hlose : ∀ a n, RtWf n → n.LosesLink a (c.ext.neighborLinkBreak c.env a n)) :
    c.Keeps fun n => RtWf n ∧ n.Each F :=
  .of_wf hl (fun _ _ hr hn => hn.routes hr)
    (fun a _ n hf hn => hn.lapses hF (.quiet a hf n))
    (fun _ _ _ hn => hn)
    fun a n hwf hn => hn.lapses hF (hlose a n hwf).lapses

omit hF in
theorem each_searches : Searches fun n => RtWf n ∧ n.Each F :=
  fun _ _ _ hn => ⟨hn.1.of_table rfl rfl, hn.2⟩

theorem each_takes (h : c.Keeps fun n => RtWf n ∧ n.Each F) {r : Route} {n : Node}
    (hlife : n.lookup r.dest = none → r.life ≠ 0) (hn : RtWf n ∧ n.Each F) :
    c.Takes (fun n => RtWf n ∧ n.Each F) r n :=
  h.takes_wf (fun flags hnone _ => hn.2.store (hF.fits _ (r.entry_timerFits (hlife hnone) flags)))
    (fun flags _ _ hn => hn.modRt r.dest (fun _ => RtTable.write_destAddr _ _ _ _ _ _ _ _ _)
      fun rt hrt => hF.write c r flags rt (hn _ rt hrt)) hn

end Keeps

/-! ## Firing -/

/-- `local_repair_timeout` hands its entry over to `route_delete_timeout`. -/
def RtTable.repairEnded (c : Ctx) (rt : RtTable) : RtTable :=
  { rt.precursorListDestroy with
    flags := rt.flags &&& ~~~rtRepair
    rtTimer := { (rt.rtTimer.setTimeout c.now c.conf.deletePeriod) with
      handler := .routeDeleteTimeout } }

theorem lookup_localRepairTimeout (a b : InAddr) (n : Node) :
    (localRepairTimeout c a n).lookup b =
      if a = b then (n.lookup b).map (·.repairEnded c) else n.lookup b := by
  have hmark := lookup_modRt (n := n) (f := fun rt => { rt with flags := rt.flags &&& ~~~rtRepair })
    a b fun _ => rfl
  have htail : ∀ n', Node.lookup (Node.modRt a (fun rt => { rt with rtTimer :=
      { (rt.rtTimer.setTimeout c.now c.conf.deletePeriod) with handler := .routeDeleteTimeout } })
      (precursorListDestroy a n')) b = if a = b then (n'.lookup b).map fun rt =>
        { rt.precursorListDestroy with rtTimer :=
          { (rt.rtTimer.setTimeout c.now c.conf.deletePeriod) with handler := .routeDeleteTimeout } }
        else n'.lookup b := by
    intro n'
    rw [lookup_modRt (f := fun rt => { rt with rtTimer :=
      { (rt.rtTimer.setTimeout c.now c.conf.deletePeriod) with handler := .routeDeleteTimeout } })
      a b fun _ => rfl, precursorListDestroy,
      lookup_modRt (f := (·.precursorListDestroy)) a b fun _ => rfl]
    split
    · cases n'.lookup b <;> rfl
    · rfl
  have hsend : ∀ m dst len n', (aodvSocketSend c dst len 1 (aodvSocketNewMsg m n')).lookup b =
      n'.lookup b := fun m dst len n' =>
    lookup_of_routes ((aodvSocketSend_routes _ _ _ _).trans (aodvSocketNewMsg_routes m n'))
  unfold localRepairTimeout
  dsimp only
  rw [htail]
  split
  · next hab =>
    subst hab
    split
    · rw [hmark, if_pos rfl]
      cases n.lookup a <;> rfl
    · rw [hsend, hmark, if_pos rfl]
      cases n.lookup a <;> rfl
  · next hab =>
    split
    · rw [hmark, if_neg hab]
    · rw [hsend, hmark, if_neg hab]

theorem localRepairTimeout_timed {a : InAddr} {n : Node}
    (h : ∀ b rt, b ≠ a → n.lookup b = some rt → rt.TimerFits)
    (ha : ∀ rt, n.lookup a = some rt → rt.state = .invalid) : (localRepairTimeout c a n).Timed := by
  intro b rt' hrt'
  rw [lookup_localRepairTimeout] at hrt'
  split at hrt'
  · next hab =>
    subst hab
    obtain ⟨rt, hrt, rfl⟩ := Option.map_eq_some_iff.mp hrt'
    refine ⟨rfl, ?_⟩
    rw [show (rt.repairEnded c).state = rt.state from rfl, ha rt hrt]
    exact .inl rfl
  · next hab => exact h b rt' (Ne.symm hab) hrt'

def Node.fired (n : Node) (a : InAddr) : Node :=
  n.modRt a fun rt => { rt with rtTimer := rt.rtTimer.remove }

theorem lookup_fired (n : Node) (a b : InAddr) : (n.fired a).lookup b =
    if a = b then (n.lookup b).map fun rt => { rt with rtTimer := rt.rtTimer.remove }
    else n.lookup b :=
  lookup_modRt (f := fun rt => { rt with rtTimer := rt.rtTimer.remove }) a b fun _ => rfl

theorem rtTimerTimeout_of_absent {a : InAddr} {n : Node} (h : n.lookup a = none) :
    rtTimerTimeout c a n = n := by
  unfold rtTimerTimeout Node.rt
  rw [h]
  rfl

theorem rtTimerTimeout_runs {a : InAddr} {n : Node} {rt : RtTable} (hrt : n.lookup a = some rt)
    (hused : rt.rtTimer.used) :
    rtTimerTimeout c a n = match rt.rtTimer.handler with
      | .routeExpireTimeout => routeExpireTimeout c a (n.fired a)
      | .routeDeleteTimeout => routeDeleteTimeout a (n.fired a)
      | .localRepairTimeout => localRepairTimeout c a (n.fired a)
      | _ => n.fired a := by
  unfold rtTimerTimeout
  rw [rt_of_lookup hrt]
  exact if_pos hused

theorem rtTimerTimeout_fires
    (hlose : ∀ a n, RtWf n → n.LosesLink a (c.ext.neighborLinkBreak c.env a n)) {a : InAddr}
    {n : Node} (hwf : RtWf n) {rt : RtTable} (hrt : n.lookup a = some rt) (hfits : rt.TimerFits) :
    (rt.state = .valid ∧ (n.fired a).Lapses (rtTimerTimeout c a n) ∧
      ∀ rt', (rtTimerTimeout c a n).lookup a = some rt' → rt'.state = .invalid) ∨
    (rt.state = .invalid ∧ rt.rtTimer.handler = .routeDeleteTimeout ∧
      rtTimerTimeout c a n = rtTableDelete a (n.fired a)) ∨
    (rt.state = .invalid ∧ rt.rtTimer.handler = .localRepairTimeout ∧
      rtTimerTimeout c a n = localRepairTimeout c a (n.fired a)) := by
  have hoff : RtWf (n.fired a) := hwf.modRt a (fun _ => rfl) (fun _ => rfl) fun _ hp => hp
  rw [rtTimerTimeout_runs hrt hfits.1]
  cases hs : rt.state with
  | valid =>
    have hh : rt.rtTimer.handler = .routeExpireTimeout := by
      have hawaits := hfits.2
      rw [hs] at hawaits
      exact hawaits
    rw [hh]
    refine .inl ⟨rfl, ?_⟩
    dsimp only
    unfold routeExpireTimeout
    split
    · obtain ⟨hl, hinv⟩ := hlose a (n.fired a) hoff
      exact ⟨hl, fun rt' hrt' => hinv a rt' hrt' (.inl rfl)⟩
    · have hquiet := Node.Lapses.quiet (n := rtTableInvalidate c a (n.fired a)) a
        (f := (·.precursorListDestroy)) fun rt =>
          .of_timer (RtTable.precursorListDestroy_keeps rt) rfl
      refine ⟨(Node.Lapses.invalidate a _).trans hquiet, fun rt' hrt' => ?_⟩
      obtain ⟨rt₁, hrt₁, hlapse⟩ := Node.Entrywise.exists_before hquiet hrt'
      exact hlapse.invalid (state_after_invalidate hrt₁)
  | invalid =>
    have hawaits := hfits.2
    rw [hs] at hawaits
    rcases hawaits with hh | hh
    · rw [hh]
      exact .inr (.inl ⟨rfl, rfl, rfl⟩)
    · rw [hh]
      exact .inr (.inr ⟨rfl, rfl, rfl⟩)

theorem rtTimerTimeout_timed
    (hlose : ∀ a n, RtWf n → n.LosesLink a (c.ext.neighborLinkBreak c.env a n)) (a : InAddr)
    {n : Node} (hn : RtWf n ∧ n.Timed) : (rtTimerTimeout c a n).Timed := by
  cases hrt : n.lookup a with
  | none =>
    rw [rtTimerTimeout_of_absent hrt]
    exact hn.2
  | some rt =>
    have hothers : ∀ b rt, b ≠ a → (n.fired a).lookup b = some rt → rt.TimerFits := by
      intro b rt hb hrt
      rw [lookup_fired, if_neg (Ne.symm hb)] at hrt
      exact hn.2 b rt hrt
    have hself : (n.fired a).lookup a = some { rt with rtTimer := rt.rtTimer.remove } := by
      rw [lookup_fired, if_pos rfl, hrt]
      rfl
    rcases rtTimerTimeout_fires hlose hn.1 hrt (hn.2 a rt hrt) with
      ⟨hv, hl, hinv⟩ | ⟨hs, -, hrun⟩ | ⟨hs, -, hrun⟩
    · intro b rt' hrt'
      obtain ⟨rt₁, hrt₁, hlapse⟩ := Node.Entrywise.exists_before hl hrt'
      by_cases hb : b = a
      · subst hb
        cases hself.symm.trans hrt₁
        exact hlapse.timerFits_of_lost hv (hinv rt' hrt')
      · exact hlapse.timerFits (hothers b rt₁ hb hrt₁)
    · rw [hrun]
      intro b rt' hrt'
      rw [lookup_rtTableDelete] at hrt'
      split at hrt'
      · cases hrt'
      · next hab => exact hothers b rt' (Ne.symm hab) hrt'
    · rw [hrun]
      refine localRepairTimeout_timed hothers fun rt' hrt' => ?_
      cases hself.symm.trans hrt'
      exact hs

/-- How often the timer of an entry has to fire until the entry is gone. -/
def Node.firings (n : Node) (a : InAddr) : ℕ :=
  match n.lookup a with
  | none => 0
  | some rt =>
    if rt.state = .valid then 3 else if rt.rtTimer.handler = .localRepairTimeout then 2 else 1

theorem rtTimerTimeout_firings
    (hlose : ∀ a n, RtWf n → n.LosesLink a (c.ext.neighborLinkBreak c.env a n)) (a : InAddr)
    {n : Node} (hn : RtWf n ∧ n.Timed) :
    (rtTimerTimeout c a n).firings a ≤ n.firings a - 1 := by
  have hinvalid : ∀ n' : Node, (∀ rt', n'.lookup a = some rt' → rt'.state = .invalid) →
      n'.firings a ≤ 2 := by
    intro n' hinv
    unfold Node.firings
    split
    · omega
    · next rt' hrt' =>
      rw [hinv rt' hrt', if_neg (by decide)]
      split <;> omega
  cases hrt : n.lookup a with
  | none =>
    rw [rtTimerTimeout_of_absent hrt]
    unfold Node.firings
    rw [hrt]
    exact Nat.zero_le _
  | some rt =>
    rcases rtTimerTimeout_fires hlose hn.1 hrt (hn.2 a rt hrt) with
      ⟨hv, -, hinv⟩ | ⟨hs, hh, hrun⟩ | ⟨hs, hh, hrun⟩
    · have hbefore : n.firings a = 3 := by
        unfold Node.firings
        rw [hrt]
        exact if_pos hv
      have hafter := hinvalid _ hinv
      omega
    · have hgone : (rtTableDelete a (n.fired a)).lookup a = none := by
        rw [lookup_rtTableDelete, if_pos rfl]
      rw [hrun]
      unfold Node.firings
      rw [hgone]
      exact Nat.zero_le _
    · have hbefore : n.firings a = 2 := by
        unfold Node.firings
        rw [hrt]
        dsimp only
        rw [hs, if_neg (by decide), if_pos hh]
      rw [hrun, hbefore]
      unfold Node.firings
      rw [lookup_localRepairTimeout, if_pos rfl, lookup_fired, if_pos rfl, hrt]
      simp [RtTable.repairEnded, RtTable.precursorListDestroy, hs]

/-! ## Local repair -/

/-- A local repair finds every entry over the lost next hop valid. -/
def Node.ValidOver (n : Node) (hop : InAddr) : Prop :=
  ∀ a rt, n.lookup a = some rt → rt.nextHop = hop → rt.state = .valid

theorem Node.Timed.marks {hop : InAddr} {n n' : Node} (h : n.Timed) (hm : n.Marks hop n')
    (hv : n.ValidOver hop) : n'.Timed := by
  intro a rt' hrt'
  obtain ⟨rt, hrt, hmark⟩ := Node.Entrywise.exists_before hm hrt'
  have hfits := h a rt hrt
  refine ⟨hmark.used hfits.1, ?_⟩
  rw [hmark.state]
  rcases hmark.handler with hsame | ⟨hnext, hexp⟩
  · rw [hsame]
    exact hfits.2
  · rw [hv a rt hrt hnext]
    exact hexp

theorem rreqLocalRepair_timed {a : InAddr} {n : Node} (hn : RtWf n ∧ n.Timed)
    (hv : n.ValidOver (n.rt a).nextHop) :
    RtWf (rreqLocalRepair c a n) ∧ (rreqLocalRepair c a n).Timed :=
  ⟨effects_preserve_rtWf hn.1 (rreqLocalRepair_effects trivial a n),
    hn.2.marks (rreqLocalRepair_marks hn.1) hv⟩

/-! ## One event -/

/-- A later state of the same event, as far as an insertion reads it. -/
structure Node.EachSince (F : RtTable → Prop) (n₀ n : Node) : Prop where
  each : n.Each F
  ipaddr : n.ipaddr = n₀.ipaddr
  known : ∀ a, n.lookup a = none → n₀.lookup a = none

section Since

variable {F : RtTable → Prop}

theorem eachSince_keeps (hF : TimerInvariant F) (hl : c.LinkBreaks {})
    (hlose : ∀ a n, RtWf n → n.LosesLink a (c.ext.neighborLinkBreak c.env a n)) (n₀ : Node) :
    c.Keeps fun n => RtWf n ∧ n₀.EachSince F n := by
  have hold : ∀ {n n' : Node}, n.Lapses n' → n₀.EachSince F n → ∀ a, n'.lookup a = none →
      n₀.lookup a = none := by
    intro n n' hlapse hn a hnone
    refine hn.known a ?_
    cases hrt : n.lookup a with
    | none => rfl
    | some rt =>
      obtain ⟨rt', hrt', -⟩ := hlapse.lookup_eq_some hrt
      rw [hrt'] at hnone
      cases hnone
  refine .of_wf hl (fun n n' hr hn => ?_) (fun a f n hf hn => ?_) (fun _ _ _ hn => ?_)
    (fun a n hwf hn => ?_)
  · exact ⟨hn.each.routes hr, (congrArg Routes.ipaddr hr).trans hn.ipaddr,
      fun a ha => hn.known a (lookup_of_routes hr ▸ ha)⟩
  · have hlapse := Node.Lapses.quiet a hf n
    exact ⟨hn.each.lapses hF hlapse, hn.ipaddr, hold hlapse hn⟩
  · exact ⟨hn.each, hn.ipaddr, hn.known⟩
  · have hlapse := (hlose a n hwf).lapses
    exact ⟨hn.each.lapses hF hlapse, (hl a n).ipaddr.trans hn.ipaddr, hold hlapse hn⟩

theorem Node.EachSince.store {n₀ n : Node} (h : n₀.EachSince F n) {rt : RtTable} (hrt : F rt) :
    n₀.EachSince F (storeEntry rt n) := by
  refine ⟨h.each.store hrt, h.ipaddr, fun a ha => ?_⟩
  rw [lookup_storeEntry] at ha
  split at ha
  · cases ha
  · exact h.known a ha

theorem Node.EachSince.write (hF : TimerInvariant F) {n₀ n : Node} (h : n₀.EachSince F n)
    (r : Route) (flags : BitVec 16) : n₀.EachSince F (n.modRt r.dest (r.write c flags)) := by
  refine ⟨h.each.modRt r.dest (fun _ => RtTable.write_destAddr _ _ _ _ _ _ _ _ _)
    fun rt hrt => hF.write c r flags rt (h.each _ rt hrt), h.ipaddr, fun a ha => h.known a ?_⟩
  rw [lookup_routeWrite] at ha
  split at ha
  · exact Option.map_eq_none_iff.mp ha
  · exact ha

theorem eachSince_takes (hF : TimerInvariant F) {n₀ : Node}
    (h : c.Keeps fun n => RtWf n ∧ n₀.EachSince F n) {r : Route}
    {n : Node} (hlife : n.lookup r.dest = none → r.life ≠ 0) (hn : RtWf n ∧ n₀.EachSince F n) :
    c.Takes (fun n => RtWf n ∧ n₀.EachSince F n) r n :=
  h.takes_wf (fun flags hnone _ => hn.2.store (hF.fits _ (r.entry_timerFits (hlife hnone) flags)))
    (fun flags _ _ hn => hn.write hF r flags) hn

end Since

/-- A route that the packet brings and that is not in the table yet lives for some time. -/
def Packet.InsertsTimed (c : Ctx) (p : Packet) (n : Node) : Prop :=
  p.saddr ≠ n.ipaddr →
  (∀ hello, p.hello = some hello → c.conf.receiveNHellos = 0 → n.lookup hello.destAddr = none →
    helloLife (helloExts n.ipaddr hello.exts (msecs helloInterval, 0)).1 ≠ 0) ∧
  (∀ rreq, p.request c = some rreq → rreq.origAddr ≠ n.ipaddr → rreq.origAddr ≠ p.saddr →
    n.lookup rreq.origAddr = none → reverseLife rreq ≠ 0) ∧
  (∀ rrep, p.reply = some rrep → rrep.destAddr ≠ n.ipaddr → ¬ (rrep.lr ∧ rrep.origAddr = n.ipaddr) →
    ∀ a, a = rrep.destAddr ∨ (rrep.lr ∧ ∃ ud, Ext.rrepUdest ud ∈ rrep.exts ∧ a = ud.destAddr) →
      a ≠ p.saddr → n.lookup a = none → rrep.lifetime ≠ 0)

/-- What keeps the timers fitting: no route without a lifetime is inserted, a local repair starts
only while all routes over the lost next hop are valid, and a discovery given up ends no repair
of a valid route. -/
def Event.KeepsTimers (c : Ctx) (n : Node) : Event → Prop
  | .recv p => p.InsertsTimed c n ∧ (p.ptype ≠ .aodvuu → ¬ (p.saddr = n.ipaddr ∧ p.numForwards ≠ 0) →
      p.MeetsRepair n → n.ValidOver (n.rt p.daddr).nextHop)
  | .packetFailed p => ¬ p.BreaksLink c.conf n
  | .seekTimer i => ∀ s, n.seekhead[i]? = some s → rreqRetries ≤ s.reqs →
      ∀ rt, n.lookup s.destAddr = some rt → hasFlag rt.flags rtRepair → rt.state = .invalid
  | _ => True

theorem helloExts_fst (a b : InAddr) (es : List Ext) (i : BitVec 32) (f g : BitVec 16) :
    (helloExts a es (i, f)).1 = (helloExts b es (i, g)).1 := by
  induction es generalizing i f g with
  | nil => rfl
  | cons e es ih =>
    cases e with
    | helloInterval j => exact ih j f g
    | helloNeighborSet as => exact ih i _ _
    | cost | rreqUdest | rrepUdest | other => rfl

theorem Extern.Documented.eachSince {F : RtTable → Prop} (hF : TimerInvariant F) {cf : Conf}
    {ext : Extern} (hext : ext.Documented cf) (env : Env) (src : InAddr) {n : Node}
    (hn : RtWf n ∧ n.Each F) (m : AodvMsg) :
    RtWf (ext.neighborAdd env m src n) ∧ n.EachSince F (ext.neighborAdd env m src n) := by
  have hself : n.EachSince F n := ⟨hn.2, rfl, fun _ => id⟩
  refine hext.neighborAdd (eachSince_keeps (c := ⟨cf, ext, env⟩) hF (hext.linkBreaks env)
    (hext.losesLink env) n).toCalm (fun ext seqno life flags n₁ hlife hn₁ hnone => ?_)
    (fun ext seqno life flags n₁ hn₁ => ?_) ⟨hn.1, hself⟩ m
  · exact ⟨hn₁.1.store _ flags hnone, hn₁.2.store (hF.fits _ (Route.entry_timerFits hlife flags))⟩
  · have hwrite := hn₁.2.write (c := ⟨cf, ext, env⟩) hF ⟨src, src, 1, seqno, life, none⟩ flags
    exact ⟨hn₁.1.write ⟨src, src, 1, seqno, life, none⟩ flags, hwrite⟩

section Step

variable {n : Node}

theorem processPacket_timed (h : Calm fun n => RtWf n ∧ n.Timed) (hn : RtWf n ∧ n.Timed)
    {p : Packet} (hok : p.MeetsRepair n → n.ValidOver (n.rt p.daddr).nextHop) :
    RtWf (processPacket c p n) ∧ (processPacket c p n).Timed := by
  refine (h.quietly n).processPacket (J := fun n => RtWf n ∧ n.Timed) (fun _ hn' => hn'.1)
    (fun n' flags hn' => h.rreqRouteDiscovery each_searches p.daddr flags hn'.1)
    (fun hmeets n' hn' => rreqLocalRepair_timed hn'.1 fun a rt' hrt' hnext => ?_)
    ⟨hn, .of_lookup .refl fun _ => rfl⟩
  obtain ⟨rt, hrt, hquiet⟩ := hn'.2.exists_before hrt'
  have hfound : ∃ rt₀, n.lookup p.daddr = some rt₀ := by
    obtain ⟨-, -, rt₀, hfind, -, -⟩ := hmeets
    exact ⟨rt₀, (h.lookup_eq hn p.daddr).symm.trans hfind⟩
  obtain ⟨rt₀, hrt₀⟩ := hfound
  obtain ⟨rt₁, hrt₁, hquiet₀⟩ := hn'.2.lookup_eq_some hrt₀
  have hhop : (n'.rt p.daddr).nextHop = (n.rt p.daddr).nextHop := by
    rw [rt_of_lookup hrt₁, rt_of_lookup hrt₀, hquiet₀.nextHop]
  rw [hquiet.state]
  refine hok hmeets a rt hrt ?_
  rw [← hquiet.nextHop, hnext, hhop]

theorem recv_each {F : RtTable → Prop} (hF : TimerInvariant F) {cf : Conf} {ext : Extern}
    (hext : ext.Documented cf) (env : Env) (hn : RtWf n ∧ n.Each F) (recs : List RerrRecord)
    {p : Packet} (hok : p.InsertsTimed ⟨cf, ext, env⟩ n)
    (hdata : p.ptype ≠ .aodvuu → ¬ (p.saddr = n.ipaddr ∧ p.numForwards ≠ 0) → ∀ dir,
      RtWf (processPacket ⟨cf, ext, env⟩ { p with direction := dir } n) ∧
        (processPacket ⟨cf, ext, env⟩ { p with direction := dir } n).Each F) :
    RtWf (recv ⟨cf, ext, env⟩ p (recs, n)).2 ∧ (recv ⟨cf, ext, env⟩ p (recs, n)).2.Each F := by
  have hl := hext.linkBreaks env
  have hlose := hext.losesLink env
  have h := each_keeps (c := ⟨cf, ext, env⟩) hF hl hlose
  refine recv_cases (J := fun n => RtWf n ∧ n.Each F)
    (I := fun n₁ => (RtWf n₁ ∧ n.EachSince F n₁) ∧ n₁.lookup p.saddr ≠ none) recs
    (h.routes n _ rfl hn) hn hdata (fun hello hhello hown => ?_)
    (fun _ m _ _ => ⟨hext.eachSince hF env p.saddr hn m, hext.neighborKnown env m p.saddr n⟩)
    (fun rrep hrrep hown n₁ hn₁ => ?_) (fun rreq hrreq hown n₁ hn₁ => ?_)
    (fun rerr _ _ n₁ hn₁ => ?_) (fun ack n₁ hn₁ => ?_)
  · have hlife := (hok hown).1 hello hhello
    refine h.helloProcess hello (fun n' hr hone flags => each_takes hF h (fun hnone => ?_)
      (h.routes n n' hr hn)) (fun _ n' hr hnone interval flags => ?_) hn
    · have hnone' : n.lookup hello.destAddr = none := (lookup_of_routes hr).symm.trans hnone
      rw [RREP.helloRoute, helloExts_fst n.ipaddr n.ipaddr hello.exts _ flags 0]
      exact hlife (hone hnone') hnone'
    · have hn' := h.routes n n' hr hn
      exact ⟨hn'.1.storeEntry rfl ⟨rfl, rfl⟩ ((lookup_of_routes hr).trans hnone),
        hn'.2.store (hF.fits _ (newEntry_invalid_timerFits _ _ _ _ _ _ _ _))⟩
  · have hlife := (hok hown).2.2 rrep hrrep
    have hsince := eachSince_keeps (c := ⟨cf, ext, env⟩) hF hl hlose n₁
    have hself : RtWf n₁ ∧ n₁.EachSince F n₁ := ⟨hn₁.1.1, hn₁.1.2.each, rfl, fun _ => id⟩
    have hnew : ∀ n', n₁.EachSince F n' → ∀ a, n'.lookup a = none →
        a ≠ p.saddr ∧ n.lookup a = none := fun n' hn' a hnone =>
      ⟨fun heq => hn₁.2 (heq ▸ hn'.known a hnone), hn₁.1.2.known a (hn'.known a hnone)⟩
    have hdone : RtWf (rrepProcess ⟨cf, ext, env⟩ rrep p.len p.saddr p.ttl n₁) ∧
        n₁.EachSince F (rrepProcess ⟨cf, ext, env⟩ rrep p.len p.saddr p.ttl n₁) := by
      refine hsince.rrepProcess rrep p.len p.saddr p.ttl (fun hlr => ?_) (fun hlr hdest => ?_) hself
      · refine hsince.rrepProcessLr hl rrep _ _ _ (fun _ _ n' hn' a _ rt _ _ hrt _ _ => ?_)
          (fun hdest horig n' hn' a ha => ?_) hself
        · refine eachSince_takes hF hsince (fun hnone => ?_) hn'
          rw [RREP.repairRoute_dest, destAddr_of_lookup hrt, hrt] at hnone
          cases hnone
        · refine eachSince_takes hF hsince (fun hnone => ?_) hn'
          obtain ⟨hsrc, hnone'⟩ := hnew n' hn'.2 a hnone
          exact hlife (hn₁.1.2.ipaddr ▸ hdest)
            (fun hlr => horig (hlr.2.trans hn₁.1.2.ipaddr.symm)) a
            (ha.imp_right fun hud => ⟨hlr, hud⟩) hsrc hnone'
      · refine eachSince_takes hF hsince (fun hnone => ?_) hself
        obtain ⟨hsrc, hnone'⟩ := hnew n₁ hself.2 _ hnone
        exact hlife (hn₁.1.2.ipaddr ▸ hdest) (fun hlr' => absurd hlr'.1 (by simp [hlr])) _
          (.inl rfl) hsrc hnone'
    exact ⟨hdone.1, hdone.2.each⟩
  · have hlife := (hok hown).2.1 rreq hrreq
    have htakes : rreq.origAddr ≠ n₁.ipaddr → ∀ chan n', n'.routes = n₁.routes →
        Ctx.Takes ⟨cf, ext, env⟩ (fun n => RtWf n ∧ n.Each F) (rreq.route p.saddr chan) n' := by
      intro horig chan n' hr
      have hn' := h.routes n₁ n' hr ⟨hn₁.1.1, hn₁.1.2.each⟩
      refine each_takes hF h (fun hnone => hlife ?_ ?_ ?_) hn'
      · exact hn₁.1.2.ipaddr ▸ horig
      · intro heq
        have hnone₁ : n₁.lookup rreq.origAddr = none := (lookup_of_routes hr).symm.trans hnone
        exact hn₁.2 (heq ▸ hnone₁)
      · exact hn₁.1.2.known _ ((lookup_of_routes hr).symm.trans hnone)
    have hn₁' : RtWf n₁ ∧ n₁.Each F := ⟨hn₁.1.1, hn₁.1.2.each⟩
    refine h.rreqProcess rreq _ _ _ (fun _ => ?_) (fun _ horig => htakes horig _)
      (fun _ n' hn' _ _ _ => ⟨hn'.1.rtTableDelete _, hn'.2.delete _⟩) hn₁'
    exact h.rreqProcessLr rreq _ _ _ (fun horig => htakes horig none) hn₁'
  · refine h.rerrProcess each_searches rerr _ _ _ (fun ud _ _ n'' hn'' _ _ _ _ => ?_)
      ⟨hn₁.1.1, hn₁.1.2.each⟩
    exact ⟨hn''.1.rtTableInvalidate _, hn''.2.lapses hF (.invalidate _ n'')⟩
  · exact h.rrepAckProcess ack p.saddr ⟨hn₁.1.1, hn₁.1.2.each⟩

theorem step_timed {cf : Conf} {ext : Extern} (hext : ext.Documented cf) (env : Env)
    (hn : RtWf n ∧ n.Timed) (recs : List RerrRecord) {e : Event}
    (hok : e.KeepsTimers ⟨cf, ext, env⟩ n) :
    RtWf (step ⟨cf, ext, env⟩ e (recs, n)).2 ∧ (step ⟨cf, ext, env⟩ e (recs, n)).2.Timed := by
  have hl := hext.linkBreaks env
  have hlose := hext.losesLink env
  have h := each_keeps (c := ⟨cf, ext, env⟩) timerFits_timerInvariant hl hlose
  refine h.step recs e (fun p he => ?_) (fun p he => ?_) (fun a _ => ?_)
    (fun i s he hs hreqs n' hn' htbl hflag => ?_) hn
  · subst he
    exact recv_each timerFits_timerInvariant hext env hn recs hok.1 fun hdata hloop dir =>
      processPacket_timed h.toCalm hn (hok.2 hdata hloop)
  · subst he
    exact h.packetFailed (J := fun n => RtWf n ∧ n.Timed) (fun _ => id)
      (fun hbreak => absurd hbreak hok) hn
  · exact ⟨effects_preserve_rtWf hn.1
      (rtTimerTimeout_effects (c := ⟨cf, ext, env⟩) hl.widen trivial a n),
      rtTimerTimeout_timed hlose a hn⟩
  · subst he
    refine ⟨effects_preserve_rtWf hn'.1 (localRepairTimeout_effects s.destAddr n'),
      localRepairTimeout_timed (fun b rt _ hrt => hn'.2 b rt hrt) fun rt hrt => ?_⟩
    rw [rt_of_lookup hrt] at hflag
    refine hok s hs hreqs rt ?_ hflag
    rw [← hrt, Node.lookup, Node.lookup, htbl]

end Step

/-! ## Every run -/

/-- The timer of one entry fires time and again, and nothing else happens. -/
def Node.fireAll (cf : Conf) (ext : Extern) (a : InAddr) (envs : List Env) (n : Node) : Node :=
  envs.foldl (fun n env => rtTimerTimeout ⟨cf, ext, env⟩ a n) n

theorem fireAll_firings {cf : Conf} {ext : Extern} (hext : ext.Documented cf) (a : InAddr)
    (envs : List Env) {n : Node} (hn : RtWf n ∧ n.Timed) :
    (n.fireAll cf ext a envs).firings a ≤ n.firings a - envs.length := by
  induction envs generalizing n with
  | nil => exact Nat.le_refl _
  | cons env envs ih =>
    have hstep := step_timed hext env hn [] (e := .rtTimer a) trivial
    have hfire := rtTimerTimeout_firings (c := ⟨cf, ext, env⟩) (hext.losesLink env) a hn
    have hrest : ((rtTimerTimeout ⟨cf, ext, env⟩ a n).fireAll cf ext a envs).firings a ≤
        (rtTimerTimeout ⟨cf, ext, env⟩ a n).firings a - envs.length := ih hstep
    have hunfold : n.fireAll cf ext a (env :: envs) =
        (rtTimerTimeout ⟨cf, ext, env⟩ a n).fireAll cf ext a envs := rfl
    rw [hunfold, List.length_cons]
    omega

theorem firings_le (n : Node) (a : InAddr) : n.firings a ≤ 3 := by
  unfold Node.firings
  split
  · omega
  · split
    · omega
    · split <;> omega

theorem lookup_of_firings {n : Node} {a : InAddr} (h : n.firings a = 0) : n.lookup a = none := by
  unfold Node.firings at h
  split at h
  · assumption
  · split_ifs at h

/-- In every run whose steps keep the timers fitting, each entry waits for a handler of its state,
and after three firings of its timer it is gone. -/
theorem entries_have_fitting_timers {cf : Conf} {ext : Extern} {a : InAddr} {n : Node}
    (hext : ext.Documented cf)
    (h : ReachableIf (fun env n e => e.KeepsTimers ⟨cf, ext, env⟩ n) cf ext a n) :
    (∀ rt ∈ n.entries, rt.rtTimer.used ∧ rt.state.Awaits rt.rtTimer.handler) ∧
      ∀ d envs, 3 ≤ envs.length → (n.fireAll cf ext d envs).lookup d = none := by
  have hn := h.invariant (I := fun n => RtWf n ∧ n.Timed)
    (fun env => ⟨init_rtWf a, fun b rt hrt => by cases hrt⟩)
    fun env recs e n hn hok => step_timed hext env hn recs hok
  refine ⟨fun rt hrt => hn.2 rt.destAddr rt (hn.1.lookup_eq_some.mpr ⟨hrt, rfl⟩),
    fun d envs hlen => lookup_of_firings ?_⟩
  have hfire := fireAll_firings hext d envs hn
  have hmost := firings_le n d
  omega

theorem behindNode_timed :
    ReachableIf (fun env n e => e.KeepsTimers ⟨repairConf, .described sampleLog repairConf, env⟩ n)
      repairConf (.described sampleLog repairConf) 1 behindNode := by
  refine .step { now := 0 } [] (.recv (rreqFrom 2 0 _)) trivial
    ⟨fun _ => ⟨fun hello hhello => ?_, fun rreq hrreq => ?_, fun rrep hrrep => ?_⟩,
      fun hdata => absurd rfl hdata⟩ (.init { now := 0 })
  · cases hhello
  · cases hrreq
    decide
  · cases hrrep

/-- The routes of an agent that has seen one request expire and are deleted. -/
theorem behindNode_forgets : behindNode.lookup 9 ≠ none ∧
    (∀ rt ∈ behindNode.entries, rt.rtTimer.used ∧ rt.state.Awaits rt.rtTimer.handler) ∧
      ∀ d envs, 3 ≤ envs.length → (behindNode.fireAll repairConf (.described sampleLog repairConf)
        d envs).lookup d = none :=
  ⟨by decide +kernel, entries_have_fitting_timers (described_documented sampleLog repairConf)
    behindNode_timed⟩

/-- Under repair the invalid route to 9 waits for `route_expire_timeout`. -/
theorem repairing_entry_timer_misfits :
    ¬ ∀ n, Reachable repairConf (.described sampleLog repairConf) 1 n →
      ∀ rt ∈ n.entries, rt.rtTimer.used ∧ rt.state.Awaits rt.rtTimer.handler := by
  intro hall
  have hmem : repairingNode.rt 9 ∈ repairingNode.entries := by decide +kernel
  have hstate : (repairingNode.rt 9).state = .invalid := by decide +kernel
  have hhandler : (repairingNode.rt 9).rtTimer.handler = .routeExpireTimeout := by decide +kernel
  have hawaits := (hall _ repairingNode_reachable.reachable _ hmem).2
  rw [hstate, hhandler] at hawaits
  rcases hawaits with h | h <;> cases h

end AodvUU

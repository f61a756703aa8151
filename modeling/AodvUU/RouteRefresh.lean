import AodvUU.Channel
import AodvUU.InvariantRule

/-! # Routes in use

`rt_table_update_route_timeouts` for a data packet, with a valid entry in both directions. It
tests the Hello timers of the two routes, also where it refreshes their next-hop neighbours. -/
namespace AodvUU

variable {c : Ctx} {n n' : Node} {fwd rev rt rt' : RtTable} {d : InAddr}

/-! ## One entry -/

def activeExpiry (c : Ctx) : Time :=
  timevalAddMsec c.now (msecs c.conf.activeRouteTimeout).toNat

def RtTable.refreshed (c : Ctx) (rt : RtTable) : RtTable :=
  rt.updateTimeout c.now (msecs c.conf.activeRouteTimeout)

theorem timevalDiff_neg {s t : Int} : timevalDiff s t < 0 ↔ s ≤ t - 1000 := by
  unfold timevalDiff
  by_cases hle : 0 ≤ s - t
  · rw [Int.tdiv_eq_ediv_of_nonneg hle]
    omega
  · rw [show s - t = -(t - s) by omega, Int.neg_tdiv,
      Int.tdiv_eq_ediv_of_nonneg (show 0 ≤ t - s by omega)]
    omega

theorem refreshed_timeout (hv : rt.state = .valid) : (rt.refreshed c).rtTimer.timeout =
    if rt.rtTimer.timeout ≤ activeExpiry c - 1000 then activeExpiry c else rt.rtTimer.timeout := by
  unfold RtTable.refreshed RtTable.updateTimeout
  rw [if_pos hv]
  simp only [timevalDiff_neg]
  by_cases h : rt.rtTimer.timeout ≤ activeExpiry c - 1000
  · rw [if_pos h]
    exact congrArg (fun rt : RtTable => rt.rtTimer.timeout) (if_pos h)
  · rw [if_neg h]
    exact congrArg (fun rt : RtTable => rt.rtTimer.timeout) (if_neg h)

theorem refreshed_refreshed (c : Ctx) (rt : RtTable) :
    (rt.refreshed c).refreshed c = rt.refreshed c := by
  let late : RtTable := { rt with
    rtTimer := rt.rtTimer.setTimeout c.now (msecs c.conf.activeRouteTimeout).toNat }
  have hcases : rt.refreshed c = rt ∨ rt.refreshed c = late := by
    unfold RtTable.refreshed RtTable.updateTimeout
    split_ifs
    · exact .inr rfl
    · exact .inl rfl
    · exact .inr rfl
  have hlate : late.refreshed c = late := by
    have hself : ¬ timevalDiff (activeExpiry c) (activeExpiry c) < 0 := by
      rw [timevalDiff_neg]
      exact not_le.mpr (Int.sub_lt_self _ (by decide))
    unfold RtTable.refreshed RtTable.updateTimeout
    split_ifs with hv hlt
    · exact absurd hlt hself
    · rfl
    · rfl
  rcases hcases with h | h
  · rw [h, h]
  · rw [h, hlate]

/-! ## One direction -/

/-- The half of the function for a route refreshes the entry of `d`: the route itself, or its
next-hop neighbour. -/
def RtTable.Refreshes (c : Ctx) (n : Node) (rt : RtTable) (inet : Bool) (d : InAddr) : Prop :=
  d = rt.destAddr ∧ (c.conf.llfeedback ∨ inet ∨ rt.hcnt ≠ 1 ∨ rt.helloTimer.used) ∨
    d = rt.nextHop ∧ d ≠ rt.destAddr ∧ (c.conf.llfeedback ∨ rt.helloTimer.used) ∧
      ∃ nb, n.lookup d = some nb ∧ nb.state = .valid

/-- The entries that `P` names are refreshed, the others stay. -/
def Node.RefreshedOn (c : Ctx) (n : Node) (P : InAddr → Prop) (n' : Node) : Prop :=
  ∀ d, (P d → n'.lookup d = (n.lookup d).map (·.refreshed c)) ∧ (¬ P d → n'.lookup d = n.lookup d)

theorem Node.RefreshedOn.trans {P Q : InAddr → Prop} {n'' : Node} (h : n.RefreshedOn c P n')
    (h' : n'.RefreshedOn c Q n'') : n.RefreshedOn c (fun d => P d ∨ Q d) n'' := by
  intro d
  obtain ⟨hyes, hno⟩ := h d
  obtain ⟨hyes', hno'⟩ := h' d
  by_cases hp : P d <;> by_cases hq : Q d
  · refine ⟨fun _ => ?_, fun hnot => absurd (.inl hp) hnot⟩
    rw [hyes' hq, hyes hp, Option.map_map]
    exact congrArg (fun f => (n.lookup d).map f) (funext fun rt => refreshed_refreshed c rt)
  · exact ⟨fun _ => (hno' hq).trans (hyes hp), fun hnot => absurd (.inl hp) hnot⟩
  · refine ⟨fun _ => ?_, fun hnot => absurd (.inr hq) hnot⟩
    rw [hyes' hq, hno hp]
  · exact ⟨fun h => absurd h (not_or.mpr ⟨hp, hq⟩), fun _ => (hno' hq).trans (hno hp)⟩

theorem Node.RefreshedOn.congr {P Q : InAddr → Prop} (h : n.RefreshedOn c P n')
    (hpq : ∀ d, P d ↔ Q d) : n.RefreshedOn c Q n' :=
  fun d => ⟨fun hq => (h d).1 ((hpq d).mpr hq), fun hq => (h d).2 fun hp => hq ((hpq d).mp hp)⟩

theorem refreshedOn_none (n : Node) : n.RefreshedOn c (fun _ => False) n :=
  fun _ => ⟨fun h => h.elim, fun _ => rfl⟩

theorem refreshedOn_update (a : InAddr) (n : Node) : n.RefreshedOn c (· = a)
    (rtTableUpdateTimeout c a (msecs c.conf.activeRouteTimeout) n) := by
  have hlook : ∀ d, (rtTableUpdateTimeout c a (msecs c.conf.activeRouteTimeout) n).lookup d =
      if a = d then (n.lookup d).map (·.refreshed c) else n.lookup d := fun d =>
    lookup_modRt a d fun rt => (RtTable.updateTimeout_keeps _ _ rt).destAddr
  intro d
  rw [hlook]
  constructor
  · rintro rfl
    exact if_pos rfl
  · intro hd
    exact if_neg (Ne.symm hd)

theorem wf_calm : Calm fun n => RtWf n ∧ True :=
  .of_wf (fun _ _ _ _ => trivial) (fun _ _ _ _ _ => trivial) fun _ _ _ _ => trivial

theorem Node.RefreshedOn.valid_iff {P : InAddr → Prop} (h : n.RefreshedOn c P n') (d : InAddr) :
    (∃ nb, n'.lookup d = some nb ∧ nb.state = .valid) ↔
      ∃ nb, n.lookup d = some nb ∧ nb.state = .valid := by
  by_cases hd : P d
  · rw [(h d).1 hd]
    cases hnb : n.lookup d with
    | none => simp
    | some nb =>
      have hstate : (nb.refreshed c).state = nb.state :=
        (RtTable.updateTimeout_keeps _ _ nb).state
      simp [hstate]
  · rw [(h d).2 hd]

theorem updateRouteTimeout_refreshes (hwf : RtWf n) (hv : rt.state = .valid) (inet : Bool) :
    n.RefreshedOn c (rt.Refreshes c n inet) (updateRouteTimeout c rt inet n) := by
  let first := if c.conf.llfeedback ∨ inet ∨ rt.hcnt ≠ 1 ∨ rt.helloTimer.used then
    rtTableUpdateTimeout c rt.destAddr (msecs c.conf.activeRouteTimeout) n else n
  have hfirst : n.RefreshedOn c (fun d => d = rt.destAddr ∧
      (c.conf.llfeedback ∨ inet ∨ rt.hcnt ≠ 1 ∨ rt.helloTimer.used)) first ∧ RtWf first := by
    by_cases htest : c.conf.llfeedback ∨ inet ∨ rt.hcnt ≠ 1 ∨ rt.helloTimer.used
    · have heq : first = _ := if_pos htest
      rw [heq]
      exact ⟨(refreshedOn_update rt.destAddr n).congr fun d => (and_iff_left htest).symm,
        (wf_calm.timeout _ _ ⟨hwf, trivial⟩).1⟩
    · have heq : first = n := if_neg htest
      rw [heq]
      exact ⟨(refreshedOn_none n).congr fun d => (iff_of_false id fun h => htest h.2), hwf⟩
  have hfind := hfirst.2.rtTableFind_eq_lookup rt.nextHop
  have hvalid := hfirst.1.valid_iff rt.nextHop
  -- Without the second refresh the neighbour does not pass the test.
  have hskip : ¬ (rt.nextHop ≠ rt.destAddr ∧ (c.conf.llfeedback ∨ rt.helloTimer.used) ∧
      ∃ nb, n.lookup rt.nextHop = some nb ∧ nb.state = .valid) →
      n.RefreshedOn c (rt.Refreshes c n inet) first := by
    intro hnot
    refine hfirst.1.congr fun d => (or_iff_left ?_).symm
    rintro ⟨rfl, hrest⟩
    exact hnot hrest
  unfold updateRouteTimeout
  rw [if_pos hv]
  dsimp only
  cases hnext : first.lookup rt.nextHop with
  | none =>
    rw [hfind.trans hnext]
    refine hskip fun h => ?_
    obtain ⟨nb, hnb, -⟩ := hvalid.mpr h.2.2
    cases hnext.symm.trans hnb
  | some nextHopRt =>
    have haddr := destAddr_of_lookup hnext
    have hstate : nextHopRt.state = .valid ↔
        ∃ nb, n.lookup rt.nextHop = some nb ∧ nb.state = .valid := by
      rw [← hvalid, hnext]
      simp
    rw [hfind.trans hnext]
    dsimp only
    rw [haddr]
    by_cases htest : nextHopRt.state = .valid ∧ rt.nextHop ≠ rt.destAddr ∧
        (c.conf.llfeedback ∨ rt.helloTimer.used)
    · rw [if_pos htest]
      refine (hfirst.1.trans (refreshedOn_update rt.nextHop first)).congr fun d => ?_
      refine or_congr Iff.rfl ⟨?_, fun h => h.1⟩
      rintro rfl
      exact ⟨rfl, htest.2.1, htest.2.2, hstate.mp htest.1⟩
    · rw [if_neg htest]
      exact hskip fun h => htest ⟨hstate.mpr h.2.2, h.1, h.2.1⟩

/-! ## Both directions -/

theorem RtTable.Refreshes.congr {P : InAddr → Prop} (h : n.RefreshedOn c P n') {t : Timer}
    {inet : Bool} (d : InAddr) :
    ({ rt with rtTimer := t } : RtTable).Refreshes c n' inet d ↔ rt.Refreshes c n inet d := by
  unfold RtTable.Refreshes
  rw [h.valid_iff d]

def RefreshesFor (c : Ctx) (n : Node) (fwd rev : RtTable) (d : InAddr) : Prop :=
  fwd.Refreshes c n (hasFlag fwd.flags rtInetDest) d ∨ rev.Refreshes c n false d

theorem rtTableUpdateRouteTimeouts_refreshes (hwf : RtWf n) {a b : InAddr}
    (hfwd : n.lookup a = some fwd) (hrev : n.lookup b = some rev) (hfv : fwd.state = .valid)
    (hrv : rev.state = .valid) : n.RefreshedOn c (RefreshesFor c n fwd rev)
      (rtTableUpdateRouteTimeouts c (some a) (some b) n) := by
  have hfirst := updateRouteTimeout_refreshes (c := c) hwf hfv (hasFlag fwd.flags rtInetDest)
  have hwf' : RtWf (updateRouteTimeout c fwd (hasFlag fwd.flags rtInetDest) n) :=
    (wf_calm.updateRouteTimeout _ _ ⟨hwf, trivial⟩).1
  obtain ⟨t, ht⟩ := (updateRouteTimeout_timersOnly (c := c) fwd (hasFlag fwd.flags rtInetDest)
    n).entry b rev hrev
  have hsecond := @updateRouteTimeout_refreshes c _ { rev with rtTimer := t } hwf' hrv false
  unfold rtTableUpdateRouteTimeouts
  dsimp only
  rw [rt_of_lookup hfwd, rt_of_lookup ht]
  exact (hfirst.trans hsecond).congr fun d => or_congr Iff.rfl (RtTable.Refreshes.congr hfirst d)

/-! ## Routes in use stay -/

/-- A neighbour the route goes over, other than its destination, that is valid and of which
Hellos are awaited where the link layer gives no feedback. -/
structure RtTable.GoesOver (c : Ctx) (n : Node) (rt nb : RtTable) : Prop where
  lookup : n.lookup rt.nextHop = some nb
  valid : nb.state = .valid
  ne : nb.destAddr ≠ rt.destAddr
  heard : c.conf.llfeedback ∨ nb.helloTimer.used

/-- From `n` to `n'` no expiry moves earlier, the entries that the routes do not concern stay, and
the neighbours they go over do not expire for as long as a route in use. -/
structure Node.KeepsAlive (c : Ctx) (n : Node) (fwd rev : RtTable) (n' : Node) : Prop where
  later : ∀ d rt rt', n.lookup d = some rt → n'.lookup d = some rt' →
    rt.rtTimer.timeout ≤ rt'.rtTimer.timeout
  others : ∀ d, d ∉ [fwd.destAddr, fwd.nextHop, rev.destAddr, rev.nextHop] →
    n'.lookup d = n.lookup d
  neighbour : ∀ rt ∈ [fwd, rev], ∀ nb, rt.GoesOver c n nb →
    ∀ nb', n'.lookup rt.nextHop = some nb' → activeExpiry c ≤ nb'.rtTimer.timeout

/-- The neighbour expires late enough, or the function refreshes it and finds it a millisecond
short at least. -/
def RefreshReaches (c : Ctx) (n : Node) (fwd rev nb : RtTable) : Prop :=
  activeExpiry c ≤ nb.rtTimer.timeout ∨
    RefreshesFor c n fwd rev nb.destAddr ∧ nb.rtTimer.timeout ≤ activeExpiry c - 1000

theorem refreshed_timeout_ge (hv : rt.state = .valid) :
    rt.rtTimer.timeout ≤ (rt.refreshed c).rtTimer.timeout := by
  rw [refreshed_timeout hv]
  split_ifs with h
  · exact h.trans (Int.sub_le_self _ (by decide))
  · exact le_rfl

theorem RefreshesFor.valid (hfv : fwd.state = .valid) (hrv : rev.state = .valid)
    (hfwd : n.lookup fwd.destAddr = some fwd) (hrev : n.lookup rev.destAddr = some rev)
    (h : RefreshesFor c n fwd rev d) : ∃ rt, n.lookup d = some rt ∧ rt.state = .valid := by
  rcases h with (⟨rfl, -⟩ | ⟨-, -, -, h⟩) | (⟨rfl, -⟩ | ⟨-, -, -, h⟩)
  · exact ⟨fwd, hfwd, hfv⟩
  · exact h
  · exact ⟨rev, hrev, hrv⟩
  · exact h

theorem RefreshesFor.mem (h : RefreshesFor c n fwd rev d) :
    d ∈ [fwd.destAddr, fwd.nextHop, rev.destAddr, rev.nextHop] := by
  rcases h with (⟨rfl, -⟩ | ⟨rfl, -⟩) | (⟨rfl, -⟩ | ⟨rfl, -⟩) <;> simp

/-- A data packet keeps both its routes and their next-hop neighbours alive exactly when every
neighbour expires late enough or is refreshed, which the function decides by the Hello timers of
the two routes. -/
theorem route_timeouts_keep_alive {a b : InAddr} (hwf : RtWf n) (hfwd : n.lookup a = some fwd)
    (hrev : n.lookup b = some rev) (hfv : fwd.state = .valid) (hrv : rev.state = .valid) :
    n.KeepsAlive c fwd rev (rtTableUpdateRouteTimeouts c (some a) (some b) n) ↔
      ∀ rt ∈ [fwd, rev], ∀ nb, rt.GoesOver c n nb → RefreshReaches c n fwd rev nb := by
  obtain rfl := destAddr_of_lookup hfwd
  obtain rfl := destAddr_of_lookup hrev
  have hrefresh := rtTableUpdateRouteTimeouts_refreshes (c := c) hwf hfwd hrev hfv hrv
  generalize rtTableUpdateRouteTimeouts c (some fwd.destAddr) (some rev.destAddr) n = n'
    at hrefresh
  have hneighbour : ∀ rt nb nb' : RtTable, rt.GoesOver c n nb → n'.lookup rt.nextHop = some nb' →
      (activeExpiry c ≤ nb'.rtTimer.timeout ↔ RefreshReaches c n fwd rev nb) := by
    intro rt nb nb' hover hnb'
    have haddr := destAddr_of_lookup hover.lookup
    unfold RefreshReaches
    rw [haddr]
    by_cases hd : RefreshesFor c n fwd rev rt.nextHop
    · rw [(hrefresh rt.nextHop).1 hd, hover.lookup] at hnb'
      cases hnb'
      rw [refreshed_timeout hover.valid]
      split_ifs with hlate
      · exact iff_of_true le_rfl (.inr ⟨hd, hlate⟩)
      · exact (or_iff_left fun h => hlate h.2).symm
    · rw [(hrefresh rt.nextHop).2 hd, hover.lookup] at hnb'
      cases hnb'
      exact (or_iff_left fun h => hd h.1).symm
  have hexists : ∀ rt nb : RtTable, rt.GoesOver c n nb → ∃ nb', n'.lookup rt.nextHop = some nb' := by
    intro rt nb hover
    obtain ⟨nb', hnb', -⟩ := (hrefresh.valid_iff rt.nextHop).mpr ⟨nb, hover.lookup, hover.valid⟩
    exact ⟨nb', hnb'⟩
  constructor
  · intro h rt hrt nb hover
    obtain ⟨nb', hnb'⟩ := hexists rt nb hover
    exact (hneighbour rt nb nb' hover hnb').mp (h.neighbour rt hrt nb hover nb' hnb')
  · intro h
    refine ⟨fun d rt rt' hrt hrt' => ?_, fun d hd => (hrefresh d).2 fun hr => hd hr.mem,
      fun rt hrt nb hover nb' hnb' => (hneighbour rt nb nb' hover hnb').mpr (h rt hrt nb hover)⟩
    by_cases hd : RefreshesFor c n fwd rev d
    · obtain ⟨rt₁, hrt₁, hv⟩ := hd.valid hfv hrv hfwd hrev
      cases hrt.symm.trans hrt₁
      rw [(hrefresh d).1 hd, hrt] at hrt'
      cases hrt'
      exact refreshed_timeout_ge hv
    · rw [(hrefresh d).2 hd, hrt] at hrt'
      cases hrt'
      exact le_rfl

/-! ## Concrete routes -/

def requestOver (nb orig : InAddr) (id : BitVec 32) : Packet := rreqFrom nb 0
  { type := aodvRreq, hcnt := 1, rreqId := id, destAddr := 7, origAddr := orig, origSeqno := 6,
    exts := [.cost 0] }

/-- Agent 1 hears Hellos of 2, over which it has a route to 9, and has a route over 3 to 8. -/
def crossedNode : Node :=
  (step (sampleCtx 2000) (.recv (requestOver 3 8 5))
    ([], (step (sampleCtx 1000) (.recv (requestOver 2 9 4)) ([], heardNode 1)).2)).2

theorem crossedNode_reachable : Reachable {} (.described sampleLog {}) 1 crossedNode :=
  .step { now := 2000 } [] (.recv (requestOver 3 8 5)) trivial
    (.step { now := 1000 } [] (.recv (requestOver 2 9 4)) trivial (heardNode_reachable 1))

theorem crossedNode_lookup {a : InAddr} (h : (crossedNode.lookup a).isSome) :
    crossedNode.lookup a = some (crossedNode.rt a) := by
  obtain ⟨rt, hrt⟩ := Option.isSome_iff_exists.mp h
  rw [rt_of_lookup hrt, hrt]

theorem crossedNode_wf : RtWf crossedNode :=
  reachable_rtWf (described_within trivial (fun _ _ h => h) sampleLog {}) crossedNode_reachable

/-- Data from 2 to 9 refreshes 2 as the route back. -/
theorem crossedNode_keeps_alive : crossedNode.KeepsAlive (sampleCtx 3000) (crossedNode.rt 9)
    (crossedNode.rt 2) (rtTableUpdateRouteTimeouts (sampleCtx 3000) (some 9) (some 2)
      crossedNode) := by
  refine (route_timeouts_keep_alive crossedNode_wf (crossedNode_lookup (by decide +kernel))
    (crossedNode_lookup (by decide +kernel)) (by decide +kernel) (by decide +kernel)).mpr ?_
  intro rt hrt nb hover
  have htwo : (crossedNode.rt 9).nextHop = 2 ∧ (crossedNode.rt 2).nextHop = 2 := by decide +kernel
  have hnext : rt.nextHop = 2 := by
    rcases List.mem_pair.mp hrt with rfl | rfl
    · exact htwo.1
    · exact htwo.2
  have hnb := hover.lookup
  rw [hnext, crossedNode_lookup (by decide +kernel)] at hnb
  cases hnb
  exact .inr ⟨.inr (.inl ⟨rfl, .inr (.inr (.inr (by decide +kernel)))⟩), by decide +kernel⟩

/-- Data from 8 to 9 does not refresh 2, whose Hellos are awaited. -/
theorem route_timeouts_starve_neighbour :
    Reachable {} (.described sampleLog {}) 1 crossedNode ∧
    (crossedNode.rt 9).state = .valid ∧ (crossedNode.rt 8).state = .valid ∧
    ¬ crossedNode.KeepsAlive (sampleCtx 3000) (crossedNode.rt 9) (crossedNode.rt 8)
      (rtTableUpdateRouteTimeouts (sampleCtx 3000) (some 9) (some 8) crossedNode) := by
  refine ⟨crossedNode_reachable, by decide +kernel, by decide +kernel, fun h => ?_⟩
  have hnext : (crossedNode.rt 9).nextHop = 2 := by decide +kernel
  have hover : (crossedNode.rt 9).GoesOver (sampleCtx 3000) crossedNode (crossedNode.rt 2) := by
    refine ⟨?_, by decide +kernel, by decide +kernel, .inr (by decide +kernel)⟩
    rw [hnext]
    exact crossedNode_lookup (by decide +kernel)
  have hsome : ((rtTableUpdateRouteTimeouts (sampleCtx 3000) (some 9) (some 8)
      crossedNode).lookup 2).isSome := by decide +kernel
  obtain ⟨nb, hnb⟩ := Option.isSome_iff_exists.mp hsome
  have hlate := h.neighbour _ (by simp) _ hover nb (hnext ▸ hnb)
  rw [← rt_of_lookup hnb] at hlate
  exact absurd hlate (by decide +kernel)

end AodvUU

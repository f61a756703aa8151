import AodvUU.CostReplies
import AodvUU.Floods
import AodvUU.RouteTimers
import AodvUU.Updates

/-! # Lifetimes of routes

The lifetime that `rreq_process` gives to a reverse route, and the one that an intermediate node
reads off the timer of a valid route. Both are differences in 32 bits. -/
namespace AodvUU

variable {c : Ctx} {n n' : Node}

/-! ## Armed timers -/

/-- The timer of the entry is pending, for one of the handlers of `routing_table.c`. -/
def RtTable.Armed (rt : RtTable) : Prop :=
  rt.rtTimer.used ∧ (rt.rtTimer.handler = .routeExpireTimeout ∨
    rt.rtTimer.handler = .routeDeleteTimeout ∨ rt.rtTimer.handler = .localRepairTimeout)

theorem RtTable.TimerFits.armed {rt : RtTable} (h : rt.TimerFits) : rt.Armed := by
  refine ⟨h.1, ?_⟩
  have hawaits := h.2
  cases hs : rt.state with
  | valid =>
    rw [hs] at hawaits
    exact .inl hawaits
  | invalid =>
    rw [hs] at hawaits
    exact .inr hawaits

theorem armed_timerInvariant : TimerInvariant RtTable.Armed where
  fits _ h := h.armed
  lapses rt rt' hl h := by
    rcases hl.timer with ⟨-, hh, hu⟩ | ⟨-, hs, hu, hh⟩
    · exact ⟨hu h.1, by rw [hh]; exact h.2⟩
    · exact ⟨hu, .inr hh⟩
  write c r flags rt h := by
    unfold Route.write RtTable.write
    dsimp only
    split
    · exact ⟨h.1, .inl rfl⟩
    · have hq := RtTable.updateTimeout_quiet c.now r.life { rt with
        flags := flags
        destSeqno := r.seqno
        nextHop := r.next
        hcnt := r.hops
        channel := (r.chan.map Prod.fst).getD rt.channel
        cost := (r.chan.map Prod.snd).getD rt.cost
        rtTimer := { rt.rtTimer with handler := .routeExpireTimeout } }
      exact ⟨hq.used h.1, .inl hq.handler⟩

theorem localRepairTimeout_armed {a : InAddr}
    (h : ∀ b rt, b ≠ a → n.lookup b = some rt → rt.Armed) :
    (localRepairTimeout c a n).Each RtTable.Armed := by
  intro b rt' hrt'
  rw [lookup_localRepairTimeout] at hrt'
  split at hrt'
  · obtain ⟨rt, -, rfl⟩ := Option.map_eq_some_iff.mp hrt'
    exact ⟨rfl, .inr (.inl rfl)⟩
  · next hab => exact h b rt' (Ne.symm hab) hrt'

/-- The timer of an invalid entry does not wait for `route_expire_timeout`. -/
def Node.ExpiresValid (n : Node) (a : InAddr) : Prop :=
  ∀ rt, n.lookup a = some rt → rt.state = .invalid → rt.rtTimer.handler ≠ .routeExpireTimeout

theorem rtTimerTimeout_armed
    (hlose : ∀ a n, RtWf n → n.LosesLink a (c.ext.neighborLinkBreak c.env a n)) {a : InAddr}
    (hn : RtWf n ∧ n.Each RtTable.Armed) (hexp : n.ExpiresValid a) :
    (rtTimerTimeout c a n).Each RtTable.Armed := by
  cases hrt : n.lookup a with
  | none =>
    rw [rtTimerTimeout_of_absent hrt]
    exact hn.2
  | some rt =>
    have hothers : ∀ b rt, b ≠ a → (n.fired a).lookup b = some rt → rt.Armed := by
      intro b rt hb hrt
      rw [lookup_fired, if_neg (Ne.symm hb)] at hrt
      exact hn.2 b rt hrt
    obtain ⟨hused, hh | hh | hh⟩ := hn.2 a rt hrt
    · have hvalid : rt.state = .valid := by
        cases hs : rt.state with
        | valid => rfl
        | invalid => exact absurd hh (hexp rt hrt hs)
      have hfits : rt.TimerFits := ⟨hused, by rw [hvalid]; exact hh⟩
      rcases rtTimerTimeout_fires hlose hn.1 hrt hfits with ⟨-, hl, hinv⟩ | ⟨hs, -⟩ | ⟨hs, -⟩
      · intro b rt' hrt'
        obtain ⟨rt₁, hrt₁, hlapse⟩ := Node.Entrywise.exists_before hl hrt'
        by_cases hb : b = a
        · subst hb
          have hself : rt₁.state = .valid := by
            rw [lookup_fired, if_pos rfl, hrt] at hrt₁
            cases hrt₁
            exact hvalid
          exact (hlapse.timerFits_of_lost hself (hinv rt' hrt')).armed
        · exact armed_timerInvariant.lapses _ _ hlapse (hothers b rt₁ hb hrt₁)
      · rw [hvalid] at hs
        cases hs
      · rw [hvalid] at hs
        cases hs
    · rw [rtTimerTimeout_runs hrt hused, hh]
      intro b rt' hrt'
      dsimp only at hrt'
      rw [routeDeleteTimeout, lookup_rtTableDelete] at hrt'
      split at hrt'
      · cases hrt'
      · next hab => exact hothers b rt' (Ne.symm hab) hrt'
    · rw [rtTimerTimeout_runs hrt hused, hh]
      exact localRepairTimeout_armed hothers

/-! ## Runs with armed timers -/

/-- What keeps the timers armed: no route without a lifetime is inserted, and no invalid entry runs
`route_expire_timeout`. -/
def Event.KeepsArmed (c : Ctx) (n : Node) : Event → Prop
  | .recv p => p.InsertsTimed c n
  | .rtTimer a => n.ExpiresValid a
  | _ => True

theorem rreqLocalRepair_armed {a : InAddr} (hn : RtWf n ∧ n.Each RtTable.Armed) :
    RtWf (rreqLocalRepair c a n) ∧ (rreqLocalRepair c a n).Each RtTable.Armed := by
  refine ⟨effects_preserve_rtWf hn.1 (rreqLocalRepair_effects trivial a n), fun b rt' hrt' => ?_⟩
  obtain ⟨rt, hrt, hmark⟩ := Node.Entrywise.exists_before (rreqLocalRepair_marks hn.1) hrt'
  obtain ⟨hused, hh⟩ := hn.2 b rt hrt
  refine ⟨hmark.used hused, ?_⟩
  rcases hmark.handler with hsame | ⟨-, hexp⟩
  · rw [hsame]
    exact hh
  · exact .inl hexp

theorem step_armed {cf : Conf} {ext : Extern} (hext : ext.Documented cf) (env : Env)
    (hn : RtWf n ∧ n.Each RtTable.Armed) (recs : List RerrRecord) {e : Event}
    (hok : e.KeepsArmed ⟨cf, ext, env⟩ n) :
    RtWf (step ⟨cf, ext, env⟩ e (recs, n)).2 ∧
      (step ⟨cf, ext, env⟩ e (recs, n)).2.Each RtTable.Armed := by
  have hl := hext.linkBreaks env
  have hlose := hext.losesLink env
  have h := each_keeps (c := ⟨cf, ext, env⟩) armed_timerInvariant hl hlose
  refine h.step recs e (fun p he => ?_) (fun p he => ?_) (fun a he => ?_)
    (fun i s _ _ _ n' hn' _ _ => ?_) hn
  · subst he
    refine recv_each armed_timerInvariant hext env hn recs hok fun _ _ dir => ?_
    exact h.toCalm.processPacket (J := fun n => RtWf n ∧ n.Each RtTable.Armed) (fun _ => id)
      (fun n' flags hn' => h.rreqRouteDiscovery each_searches _ flags hn')
      (fun _ n' hn' => rreqLocalRepair_armed hn') hn
  · subst he
    exact h.packetFailed (J := fun n => RtWf n ∧ n.Each RtTable.Armed) (fun _ => id)
      (fun _ n' hn' => rreqLocalRepair_armed hn') hn
  · subst he
    exact ⟨effects_preserve_rtWf hn.1
      (rtTimerTimeout_effects (c := ⟨cf, ext, env⟩) hl.widen trivial a n),
      rtTimerTimeout_armed hlose hn hok⟩
  · exact ⟨effects_preserve_rtWf hn'.1 (localRepairTimeout_effects s.destAddr n'),
      localRepairTimeout_armed fun b rt _ hrt => hn'.2 b rt hrt⟩

/-! ## Timers on time -/

/-- A pending timer is not overdue, and no further away than 32 bits of milliseconds. -/
def Timer.OnTime (now : Time) (t : Timer) : Prop :=
  t.used → now ≤ t.timeout ∧ t.timeout < timevalAddMsec now (2 ^ 32)

abbrev Node.OnTime (now : Time) (n : Node) : Prop := n.Each fun rt => rt.rtTimer.OnTime now

theorem Timer.setTimeout_onTime (t : Timer) (now : Time) {msec : Int} (h0 : 0 ≤ msec)
    (hmost : msec < 2 ^ 32) : (t.setTimeout now msec).OnTime now := by
  have hlow : 0 ≤ msec * 1000 := by omega
  have hhigh : msec * 1000 < 2 ^ 32 * 1000 := by omega
  exact fun _ => ⟨Int.le_add_of_nonneg_right hlow, Int.add_lt_add_left hhigh now⟩

theorem Timer.setTimeout_onTime_of_life (t : Timer) (now : Time) (life : BitVec 32) :
    (t.setTimeout now life.toNat).OnTime now := by
  have hlt : (life.toNat : Int) < 2 ^ 32 := by exact_mod_cast life.isLt
  exact t.setTimeout_onTime now (Int.natCast_nonneg _) hlt

theorem msecs_of_onTime {t now : Int} (hlow : now ≤ t) (hhigh : t < now + 2 ^ 32 * 1000) :
    ((msecs ((t - now).tdiv 1000)).toNat : ℤ) = (t - now).tdiv 1000 := by
  have hfits : 0 ≤ (t - now) / 1000 ∧ (t - now) / 1000 < 2 ^ 32 := by omega
  unfold msecs
  rw [BitVec.toNat_ofInt, Int.tdiv_eq_ediv_of_nonneg (by omega),
    show ((2 ^ 32 : ℕ) : ℤ) = 2 ^ 32 from rfl, Int.emod_eq_of_lt hfits.1 hfits.2,
    Int.toNat_of_nonneg hfits.1]

theorem lifetime_of_onTime {rt : RtTable} (hused : rt.rtTimer.used) (h : rt.rtTimer.OnTime c.now) :
    ((lifetime c rt).toNat : ℤ) = timevalDiff rt.rtTimer.timeout c.now :=
  msecs_of_onTime (h hused).1 (h hused).2

section OnTime

theorem RtTable.updateTimeout_onTime (life : BitVec 32) {rt : RtTable}
    (h : rt.rtTimer.OnTime c.now) : (rt.updateTimeout c.now life).rtTimer.OnTime c.now := by
  unfold RtTable.updateTimeout
  split_ifs
  · exact rt.rtTimer.setTimeout_onTime_of_life c.now life
  · exact h
  · exact rt.rtTimer.setTimeout_onTime_of_life c.now life

theorem Node.Each.renews_onTime (h : n.OnTime c.now) (hr : n.Renews c.now n') :
    n'.OnTime c.now := by
  intro a rt' hrt'
  obtain ⟨rt, hrt, hrenewed⟩ := Node.Entrywise.exists_before hr hrt'
  clear hrt'
  induction hrenewed with
  | refl => exact h a rt hrt
  | tail _ hlife ih =>
    obtain ⟨life, rfl⟩ := hlife
    exact RtTable.updateTimeout_onTime life ih

theorem newEntry_onTime (a next : InAddr) (hops : BitVec 8) (seqno life : BitVec 32)
    (flags : BitVec 16) (ch : Int) (cost : ℚ) :
    (newEntry c a next hops seqno life .valid flags ch cost).rtTimer.OnTime c.now := by
  unfold newEntry
  dsimp only
  rw [if_neg (by decide)]
  split
  · exact Timer.setTimeout_onTime_of_life _ c.now life
  · intro hused
    cases hused

theorem RtTable.write_onTime (next : InAddr) (hops : BitVec 8) (seqno life : BitVec 32)
    (state : RtState) (flags : BitVec 16) (chan : Option (Int × ℚ)) {rt : RtTable}
    (h : rt.rtTimer.OnTime c.now) :
    (rt.write c.now next hops seqno life state flags chan).rtTimer.OnTime c.now := by
  unfold RtTable.write
  dsimp only
  split
  · exact h
  · exact RtTable.updateTimeout_onTime life h

def Ctx.BreaksOnTime (c : Ctx) : Prop :=
  ∀ a n, n.OnTime c.now → (c.ext.neighborLinkBreak c.env a n).OnTime c.now

theorem beforeUpdate_onTime (hb : c.BreaksOnTime) (a : InAddr) (hops : BitVec 8) (state : RtState)
    (h : n.OnTime c.now) : (beforeUpdate c a hops state n).OnTime c.now := by
  by_cases hbreak : (n.rt a).Breaks hops
  · obtain ⟨n₁, hothers, hself, -, -, heq⟩ := beforeUpdate_of_breaks (c := c) hbreak state
    rw [heq]
    refine hb a n₁ fun b rt hrt => ?_
    by_cases hba : b = a
    · subst hba
      obtain ⟨rt₀, hrt₀, rfl⟩ := Option.map_eq_some_iff.mp (hself.symm.trans hrt)
      exact h b rt₀ hrt₀
    · exact h b rt ((hothers b hba).symm.trans hrt)
  · intro b rt hrt
    exact h b rt ((beforeUpdate_of_not_breaks hbreak state b).symm.trans hrt)

theorem rtTableUpdateGen_onTime (hb : c.BreaksOnTime) (chan : Option (Int × ℚ)) (a next : InAddr)
    (hops : BitVec 8) (seqno life : BitVec 32) (state : RtState) (flags : BitVec 16)
    (h : n.OnTime c.now) :
    (rtTableUpdateGen c chan a next hops seqno life state flags n).OnTime c.now := by
  have hbefore := beforeUpdate_onTime hb a hops state h
  unfold rtTableUpdateGen
  dsimp only
  refine Node.Each.renews_onTime ?_ (.flushSeek a _)
  exact hbefore.modRt a (fun _ => RtTable.write_destAddr _ _ _ _ _ _ _ _ _)
    fun rt hrt => RtTable.write_onTime _ _ _ _ _ _ _ (hbefore a rt hrt)

theorem rreqReverse_onTime (hb : c.BreaksOnTime) {rreq : RREQ} {src : InAddr} {cost : ℚ}
    (h : n.OnTime c.now) (hr : rreqReverse c rreq src cost n = some n') : n'.OnTime c.now := by
  unfold rreqReverse at hr
  dsimp only at hr
  split at hr
  · cases hr
    unfold rtTableInsertWithChannel
    split_ifs
    · exact h
    · exact h
    · exact Node.Each.renews_onTime (h.store (newEntry_onTime _ _ _ _ _ _ _ _)) (.flushSeek _ _)
  · split_ifs at hr
    cases hr
    exact rtTableUpdateGen_onTime hb _ _ _ _ _ _ _ _ h

theorem described_breaksOnTime (log : ℚ → ℚ) {cf : Conf} (env : Env)
    (hdel : 0 ≤ cf.deletePeriod ∧ cf.deletePeriod < 2 ^ 32)
    (hact : 0 ≤ cf.activeRouteTimeout ∧ cf.activeRouteTimeout < 2 ^ 32) :
    Ctx.BreaksOnTime ⟨cf, .described log cf, env⟩ := by
  intro a n hn
  refine neighborLinkBreakDescribed_keeps (I := Node.OnTime env.now) ?_
    fun _ _ _ _ hm => hm.routes (aodvSocketSend_routes _ _ _ _)
  refine linkBreakWalk_keeps (I := Node.OnTime env.now) (fun b m hm => ?_) (fun b m hm => ?_)
    (fun b w hw => hw.routes (linkBreakRerr_routes b w)) a hn
  · exact hm.modRt b (fun _ => rfl) fun rt hrt => hm b rt hrt
  · intro x rt' hrt'
    rw [lookup_rtTableInvalidate] at hrt'
    split at hrt'
    · obtain ⟨rt, hrt, hinv⟩ := Option.map_eq_some_iff.mp hrt'
      split at hinv
      · rw [← hinv]
        exact hm x rt hrt
      · rw [← hinv]
        unfold RtTable.invalidated
        dsimp only
        split
        · exact Timer.setTimeout_onTime rt.rtTimer env.now hact.1 hact.2
        · exact Timer.setTimeout_onTime rt.rtTimer env.now hdel.1 hdel.2
    · exact hm x rt' hrt'

end OnTime

/-! ## Reverse routes -/

theorem reverseLife_bounds_iff {rreq : RREQ} (h : (rreq.hcnt.toNat : ℤ) + 1 ≤ netDiameter) :
    (0 < (reverseLife rreq).toNat ∧ ((reverseLife rreq).toNat : ℤ) ≤ pathDiscoveryTime) ↔
      (rreq.hcnt.toNat : ℤ) + 1 < netDiameter := by
  have hlife : ((reverseLife rreq).toNat : ℤ) = 70 * (35 - (rreq.hcnt.toNat + 1)) := by
    have hmost : (rreq.hcnt.toNat : ℤ) + 1 ≤ 35 := h
    unfold reverseLife msecs pathDiscoveryTime netTraversalTime netDiameter nodeTraversalTime
    rw [BitVec.toNat_ofInt]
    omega
  unfold pathDiscoveryTime netTraversalTime netDiameter nodeTraversalTime
  omega

theorem RtTable.Renewed.quiet {now : Time} {rt rt' : RtTable} (h : rt.Renewed now rt') :
    rt.Quiet rt' := by
  induction h with
  | refl => exact .refl rt
  | tail _ hlife ih =>
    obtain ⟨life, rfl⟩ := hlife
    exact .trans _ _ _ ih (RtTable.updateTimeout_quiet now life _)

theorem newEntry_valid_handler (a next : InAddr) (hops : BitVec 8) (seqno life : BitVec 32)
    (flags : BitVec 16) (ch : Int) (cost : ℚ) :
    (newEntry c a next hops seqno life .valid flags ch cost).rtTimer.handler =
      .routeExpireTimeout := by
  unfold newEntry
  dsimp only
  rw [if_neg (by decide)]
  split <;> rfl

theorem RtTable.write_handler (next : InAddr) (hops : BitVec 8) (seqno life : BitVec 32)
    (state : RtState) (flags : BitVec 16) (chan : Option (Int × ℚ)) (rt : RtTable) :
    (rt.write c.now next hops seqno life state flags chan).rtTimer.handler =
      .routeExpireTimeout := by
  unfold RtTable.write
  dsimp only
  split
  · rfl
  · exact (RtTable.updateTimeout_quiet c.now life _).handler

theorem rreqReverse_expires (hl : c.LinkBreaks {}) (hwf : RtWf n) {rreq : RREQ}
    (hown : rreq.origAddr ≠ n.ipaddr) {src : InAddr} {cost : ℚ}
    (h : rreqReverse c rreq src cost n = some n') :
    ∃ rt, n'.lookup rreq.origAddr = some rt ∧ rt.state = .valid ∧
      rt.rtTimer.handler = .routeExpireTimeout := by
  obtain ⟨rt, hrt, hover, -⟩ := rreqReverse_stores hl hwf hown h
  refine ⟨rt, hrt, hover.state, ?_⟩
  unfold rreqReverse at h
  rw [hwf.rtTableFind_eq_lookup] at h
  dsimp only at h
  split at h
  · next hnone =>
    cases h
    rw [rtTableInsertWithChannel_of_none hnone hown] at hrt
    obtain ⟨rt₀, hrt₀, hrenewed⟩ := (Node.Renews.flushSeek (c := c) _ _).exists_before hrt
    have hstored : (newEntry c rreq.origAddr src (rreq.hcnt + 1) rreq.origSeqno (reverseLife rreq)
        .valid 0 rreq.channel.toNat cost).destAddr = rreq.origAddr := rfl
    rw [lookup_storeEntry, if_pos hstored] at hrt₀
    cases hrt₀
    exact hrenewed.quiet.handler.trans (newEntry_valid_handler _ _ _ _ _ _ _ _)
  · split at h
    · cases h
      obtain ⟨rt₀, hrt₀, hrenewed⟩ := (Node.Renews.flushSeek (c := c) _ _).exists_before hrt
      rw [lookup_modRt _ _ fun _ => RtTable.write_destAddr _ _ _ _ _ _ _ _ _, if_pos rfl] at hrt₀
      obtain ⟨rt₁, -, rfl⟩ := Option.map_eq_some_iff.mp hrt₀
      exact hrenewed.quiet.handler.trans (RtTable.write_handler _ _ _ _ _ _ _ _)
    · cases h

theorem reverseLife_ne_zero {rreq : RREQ} (h : (rreq.hcnt.toNat : ℤ) + 1 ≠ netDiameter) :
    reverseLife rreq ≠ 0 := by
  intro hzero
  have hlife := congrArg BitVec.toNat hzero
  have hcnt : rreq.hcnt.toNat < 256 := rreq.hcnt.isLt
  have hne : (rreq.hcnt.toNat : ℤ) + 1 ≠ 35 := h
  unfold reverseLife msecs pathDiscoveryTime netTraversalTime netDiameter nodeTraversalTime at hlife
  rw [BitVec.toNat_ofInt] at hlife
  simp only [BitVec.ofNat_eq_ofNat, BitVec.toNat_ofNat] at hlife
  omega

theorem rreqReverse_armed {cf : Conf} {ext : Extern} (hext : ext.Documented cf) (env : Env)
    (hn : RtWf n ∧ n.Each RtTable.Armed) {rreq : RREQ} {src : InAddr} {cost : ℚ}
    (hlife : n.lookup rreq.origAddr = none → reverseLife rreq ≠ 0)
    (h : rreqReverse ⟨cf, ext, env⟩ rreq src cost
      (rreqRecordInsertWithCost ⟨cf, ext, env⟩ rreq.origAddr rreq.rreqId cost n) = some n') :
    RtWf n' ∧ n'.Each RtTable.Armed := by
  have hkeeps := each_keeps (c := ⟨cf, ext, env⟩) armed_timerInvariant (hext.linkBreaks env)
    (hext.losesLink env)
  have hrec := rreqRecordInsertWithCost_routes (c := ⟨cf, ext, env⟩) rreq.origAddr rreq.rreqId cost n
  have hn' := hkeeps.routes _ _ hrec hn
  refine hkeeps.rreqReverse (each_takes armed_timerInvariant hkeeps (fun hnone => hlife ?_) hn') hn' h
  exact (lookup_of_routes hrec).symm.trans hnone

/-! ## Every run -/

theorem mem_intermediateReplies_lifetime {rreq : RREQ} {fwdRt : RtTable} {r : CostReply}
    (h : r ∈ intermediateReplies c rreq fwdRt n) : r.rrep.lifetime = lifetime c fwdRt := by
  unfold intermediateReplies at h
  rcases List.mem_cons.mp h with rfl | h
  · rfl
  · split at h
    · rw [List.mem_singleton.mp h]
      rfl
    · cases h

/-- In every run with armed timers, a request over fewer hops than the diameter gives the reverse
route a lifetime within bounds, and its timer is armed; what a reply out of the table advertises is
what the route still has to live. -/
theorem lifetimes_fit {cf : Conf} {ext : Extern} {a : InAddr} {n : Node} (hext : ext.Documented cf)
    (hrun : ReachableIf (fun env n e => e.KeepsArmed ⟨cf, ext, env⟩ n) cf ext a n) (env : Env)
    (hbreak : Ctx.BreaksOnTime ⟨cf, ext, env⟩) (rreq : RREQ) (src : InAddr) :
    let m := ext.neighborAdd env (.rreq rreq) src n
    ((rreq.hcnt.toNat : ℤ) + 1 ≤ netDiameter →
      ((0 < (reverseLife rreq).toNat ∧ ((reverseLife rreq).toNat : ℤ) ≤ pathDiscoveryTime) ↔
        (rreq.hcnt.toNat : ℤ) + 1 < netDiameter)) ∧
    ((m.lookup rreq.origAddr = none → (rreq.hcnt.toNat : ℤ) + 1 ≠ netDiameter) →
      (∀ cost n₁, rreq.origAddr ≠ m.ipaddr → rreqReverse ⟨cf, ext, env⟩ rreq src cost
          (rreqRecordInsertWithCost ⟨cf, ext, env⟩ rreq.origAddr rreq.rreqId cost m) = some n₁ →
        ∃ rt, n₁.lookup rreq.origAddr = some rt ∧ rt.state = .valid ∧ rt.rtTimer.used ∧
          rt.rtTimer.handler = .routeExpireTimeout) ∧
      (m.OnTime env.now → ∀ n₁ len fwdRt, m.AnswersBetween ⟨cf, ext, env⟩ n₁ rreq len src fwdRt →
        ∀ r ∈ intermediateReplies ⟨cf, ext, env⟩ rreq fwdRt n₁, fwdRt.rtTimer.used ∧
          (r.rrep.lifetime.toNat : ℤ) = timevalDiff fwdRt.rtTimer.timeout env.now)) := by
  intro m
  have hn := hrun.invariant (I := fun n => RtWf n ∧ n.Each RtTable.Armed)
    (fun env => ⟨init_rtWf a, fun b rt hrt => by cases hrt⟩)
    fun env recs e n hn hok => step_armed hext env hn recs hok
  obtain ⟨hwf, hsince⟩ := hext.eachSince armed_timerInvariant env src hn (.rreq rreq)
  have hm : RtWf m ∧ m.Each RtTable.Armed := ⟨hwf, hsince.each⟩
  have hrec := fun cost => rreqRecordInsertWithCost_routes (c := ⟨cf, ext, env⟩) rreq.origAddr
    rreq.rreqId cost m
  refine ⟨reverseLife_bounds_iff, fun hnew => ⟨fun cost n₁ hown hrev => ?_,
    fun htime n₁ len fwdRt hans r hr => ?_⟩⟩
  · have hn₁ := rreqReverse_armed hext env hm (fun hnone => reverseLife_ne_zero (hnew hnone)) hrev
    obtain ⟨rt, hrt, hstate, hhandler⟩ := rreqReverse_expires (hext.linkBreaks env)
      (hm.1.of_table (congrArg Routes.tbl (hrec cost)) (congrArg Routes.numEntries (hrec cost)))
      (fun h => hown (h.trans (congrArg Routes.ipaddr (hrec cost)))) hrev
    exact ⟨rt, hrt, hstate, (hn₁.2 _ rt hrt).1, hhandler⟩
  · have hn₁ := rreqReverse_armed hext env hm (fun hnone => reverseLife_ne_zero (hnew hnone))
      hans.reverse
    have htime₁ := rreqReverse_onTime hbreak (htime.routes (hrec _)) hans.reverse
    have hfwd := (hn₁.1.rtTableFind_eq_lookup _).symm.trans hans.found
    rw [mem_intermediateReplies_lifetime hr]
    exact ⟨(hn₁.2 _ fwdRt hfwd).1, lifetime_of_onTime (hn₁.2 _ fwdRt hfwd).1 (htime₁ _ fwdRt hfwd)⟩

theorem routedNode_armed :
    ReachableIf (fun env n e => e.KeepsArmed ⟨{}, .described sampleLog {}, env⟩ n) {}
      (.described sampleLog {}) 1 routedNode := by
  refine .step { now := 0 } [] (.recv (rreqFrom 2 0 _)) trivial
    (fun _ => ⟨fun hello hhello => ?_, fun rreq hrreq => ?_, fun rrep hrrep => ?_⟩)
    (.init { now := 0 })
  · cases hhello
  · cases hrreq
    decide
  · cases hrrep

/-- Agent 1 as it processes the request from 3, and with the reverse route. -/
def enquiredNode : Node :=
  (Extern.described sampleLog {}).neighborAdd { now := 0 } (.rreq (requestFor9 false)) 3 routedNode

def enquiredReversedNode : Node :=
  let cost := receivedCost (sampleCtx 0) enquiredNode 3 0 (requestFor9 false).exts
  (rreqReverse (sampleCtx 0) (requestFor9 false) 3 cost
    (rreqRecordInsertWithCost (sampleCtx 0) 7 4 cost enquiredNode)).getD enquiredNode

theorem enquiredNode_answers : enquiredNode.AnswersBetween (sampleCtx 0) enquiredReversedNode
    (requestFor9 false) rreqCostSize 3 (enquiredReversedNode.rt 9) := by
  have hwf : RtWf enquiredNode := effects_preserve_rtWf routedNode_rtWf
    ((described_within trivial (fun _ _ h => h) sampleLog {}).neighborAdds { now := 0 } _ 3 routedNode)
  refine Node.AnswersBetween.of_checks (described_linkBreaks sampleLog {} { now := 0 })
    hwf ?_ ?_ ?_ rfl ?_ ?_ ?_
  all_goals decide +kernel

theorem enquiredNode_onTime : enquiredNode.OnTime 0 := by
  have hentries : ∀ rt ∈ enquiredNode.entries, rt.rtTimer.used →
      0 ≤ rt.rtTimer.timeout ∧ rt.rtTimer.timeout < timevalAddMsec 0 (2 ^ 32) := by decide +kernel
  intro a rt hrt
  exact hentries rt (HashTable.mem_entries.mpr ⟨_, List.mem_of_find?_eq_some hrt⟩)

/-- The reverse route to 7 lives for 2310 ms, and the reply tells how long the route to 9 has. -/
theorem routedNode_lifetimes :
    (0 < (reverseLife (requestFor9 false)).toNat ∧
      ((reverseLife (requestFor9 false)).toNat : ℤ) ≤ pathDiscoveryTime) ∧
    (∃ rt, enquiredReversedNode.lookup 7 = some rt ∧ rt.state = .valid ∧ rt.rtTimer.used ∧
      rt.rtTimer.handler = .routeExpireTimeout) ∧
    ∀ r ∈ intermediateReplies (sampleCtx 0) (requestFor9 false) (enquiredReversedNode.rt 9)
      enquiredReversedNode, (enquiredReversedNode.rt 9).rtTimer.used ∧
        (r.rrep.lifetime.toNat : ℤ) = timevalDiff (enquiredReversedNode.rt 9).rtTimer.timeout 0 := by
  obtain ⟨hbounds, hfits⟩ := lifetimes_fit (described_documented sampleLog {}) routedNode_armed
    { now := 0 } (described_breaksOnTime sampleLog { now := 0 } (by decide) (by decide))
    (requestFor9 false) 3
  obtain ⟨hreverse, hreplies⟩ := hfits fun _ => by decide
  exact ⟨(hbounds (by decide)).mpr (by decide),
    hreverse _ _ enquiredNode_answers.foreign enquiredNode_answers.reverse,
    hreplies enquiredNode_onTime _ _ _ enquiredNode_answers⟩

/-! ## A request over 35 hops -/

/-- A request of 9 that has come as far as the diameter of the network lets it. -/
def farRequest : RREQ :=
  { type := aodvRreq, hcnt := 34, rreqId := 7, destAddr := 8, origAddr := 9, origSeqno := 6,
    exts := [.cost 10] }

def unarmedNode : Node :=
  (step (sampleCtx 0) (.recv (rreqFrom 2 0 farRequest)) ([], Node.init (sampleCtx 0) 1)).2

/-- The route never expires, and a second later it is told with a lifetime of 49 days. -/
theorem lifetime_wraps :
    Reachable {} (.described sampleLog {}) 1 unarmedNode ∧
      (farRequest.hcnt.toNat : ℤ) + 1 ≤ netDiameter ∧ reverseLife farRequest = 0 ∧
      (unarmedNode.rt 9).state = .valid ∧ (unarmedNode.rt 9).rtTimer.used = false ∧
      (step (sampleCtx 1000000) (.recv (rreqFrom 3 0 (requestFor9 false)))
        ([], unarmedNode)).2.out.any (fun o => match o with
          | .sched _ { msg := some (.rrep rrep), .. } _ =>
            rrep.destAddr = 9 ∧ rrep.lifetime.toNat = 4294966296
          | _ => false) :=
  ⟨.step { now := 0 } [] (.recv _) trivial (.init { now := 0 }), by decide, by decide,
    by decide +kernel, by decide +kernel, by decide +kernel⟩

end AodvUU

import Mathlib.Data.List.Chain
import AodvUU.Repair
import AodvUU.RouteTimers
import AodvUU.Updates

/-! # Consecutive Hellos

How many Hellos of a neighbour in a row make its entry valid. `hello_process` counts them in
one branch, and leaves the gap before the last one unread in the branch that validates. -/
namespace AodvUU

variable {c : Ctx} {n n' n'' : Node} {x : InAddr}

/-! ## Entries that count -/

/-- The entry of `x` is invalid and has counted `k` Hellos, the last at time `t`. -/
def Node.CountsTo (n : Node) (x : InAddr) (k : ℕ) (t : Time) : Prop :=
  ∃ rt, n.lookup x = some rt ∧ rt.state = .invalid ∧ rt.helloCnt.toNat = k ∧ rt.lastHelloTime = t

def Node.ValidAt (n : Node) (x : InAddr) : Prop := ∃ rt, n.lookup x = some rt ∧ rt.state = .valid

/-- No Hello is counted: what has been counted for `x` was counted before. -/
structure Node.Rests (x : InAddr) (n n' : Node) : Prop where
  before : ∀ k t, 0 < k → n'.CountsTo x k t → n.CountsTo x k t

structure RtTable.SameCount (rt rt' : RtTable) : Prop where
  state : rt'.state = rt.state
  helloCnt : rt'.helloCnt = rt.helloCnt
  lastHelloTime : rt'.lastHelloTime = rt.lastHelloTime

theorem RtTable.SameCount.refl (rt : RtTable) : rt.SameCount rt := ⟨rfl, rfl, rfl⟩

theorem RtTable.Retimed.sameCount {rt rt' : RtTable} (h : rt.Retimed rt') : rt.SameCount rt' := by
  constructor <;> rw [h]

namespace Node.Rests

theorem trans (h : n.Rests x n') (h' : n'.Rests x n'') : n.Rests x n'' :=
  ⟨fun k t hk hc => h.before k t hk (h'.before k t hk hc)⟩

theorem of_entry (h : Option.Rel RtTable.SameCount (n.lookup x) (n'.lookup x)) : n.Rests x n' := by
  refine ⟨?_⟩
  rintro k t hk ⟨rt', hrt', hs, rfl, rfl⟩
  rw [hrt'] at h
  obtain ⟨rt, hrt, hsame⟩ := optionRel_some h
  exact ⟨rt, hrt, hsame.state ▸ hs, by rw [hsame.helloCnt], hsame.lastHelloTime.symm⟩

theorem of_lookup (h : n'.lookup x = n.lookup x) : n.Rests x n' := by
  refine ⟨?_⟩
  rintro k t hk ⟨rt, hrt, hrest⟩
  exact ⟨rt, h ▸ hrt, hrest⟩

theorem of_routes (h : n'.routes = n.routes) : n.Rests x n' := of_lookup (lookup_of_routes h)

theorem modRt {a : InAddr} {f : RtTable → RtTable} (hd : ∀ rt, (f rt).destAddr = rt.destAddr)
    (hf : ∀ rt : RtTable, rt.SameCount (f rt)) : n.Rests x (n.modRt a f) :=
  of_entry (Node.Entrywise.modRt .refl a hd hf n x)

theorem retimes (h : n.Retimes n') : n.Rests x n' :=
  of_entry (optionRel_imp (fun _ _ => RtTable.Retimed.sameCount) (h x))

theorem invalidate (a : InAddr) (n : Node) : n.Rests x (rtTableInvalidate c a n) := by
  refine ⟨?_⟩
  rintro k t hk ⟨rt', hrt', hs, hcnt, hlast⟩
  rw [lookup_rtTableInvalidate] at hrt'
  split at hrt'
  · obtain ⟨rt, hrt, hinv⟩ := Option.map_eq_some_iff.mp hrt'
    split at hinv
    · rw [hinv] at hrt
      exact ⟨rt', hrt, hs, hcnt, hlast⟩
    · have hzero : rt'.helloCnt.toNat = 0 := by
        rw [← hinv]
        rfl
      omega
  · exact ⟨rt', hrt', hs, hcnt, hlast⟩

theorem delete (a : InAddr) (n : Node) : n.Rests x (rtTableDelete a n) := by
  refine ⟨?_⟩
  rintro k t hk ⟨rt', hrt', hrest⟩
  rw [lookup_rtTableDelete] at hrt'
  split at hrt'
  · cases hrt'
  · exact ⟨rt', hrt', hrest⟩

theorem precursorListDestroy (a : InAddr) (n : Node) : n.Rests x (precursorListDestroy a n) :=
  modRt (fun _ => rfl) fun _ => ⟨rfl, rfl, rfl⟩

theorem localRepairTimeout (a : InAddr) (n : Node) : n.Rests x (localRepairTimeout c a n) := by
  refine of_entry ?_
  rw [lookup_localRepairTimeout]
  cases n.lookup x with
  | none => split <;> exact .none
  | some rt =>
    split
    · exact .some ⟨rfl, rfl, rfl⟩
    · exact .some (.refl rt)

end Node.Rests

/-! ## Link breaks and timers -/

/-- A broken link is a change of `routing_table.c`, and counts no Hello. -/
structure Extern.BreaksAtRest (ext : Extern) (cf : Conf) : Prop where
  linkBreaks : ∀ env, Ctx.LinkBreaks ⟨cf, ext, env⟩ {}
  rests : ∀ env x a (n : Node), n.Rests x (ext.neighborLinkBreak env a n)

theorem neighborLinkBreakDescribed_rests (a : InAddr) (n : Node) :
    n.Rests x (neighborLinkBreakDescribed c a n) := by
  refine neighborLinkBreakDescribed_keeps (I := n.Rests x) ?_
    fun _ _ _ _ hm => hm.trans (.of_routes (aodvSocketSend_routes _ _ _ _))
  exact linkBreakWalk_keeps (I := n.Rests x)
    (fun _ _ hm => hm.trans (.modRt (fun _ => rfl) fun _ => ⟨rfl, rfl, rfl⟩))
    (fun b m hm => hm.trans (.invalidate b m))
    (fun b w hw => hw.trans (.of_routes (linkBreakRerr_routes b w))) a (.of_lookup rfl)

theorem described_breaksAtRest (log : ℚ → ℚ) (cf : Conf) :
    (Extern.described log cf).BreaksAtRest cf where
  linkBreaks env := described_linkBreaks log cf env
  rests _ _ a n := neighborLinkBreakDescribed_rests a n

section Timers

variable (hbreak : ∀ a (n : Node), n.Rests x (c.ext.neighborLinkBreak c.env a n))

include hbreak

theorem rtTimerTimeout_rests (a : InAddr) (n : Node) : n.Rests x (rtTimerTimeout c a n) := by
  have hoff : n.Rests x (n.modRt a fun rt => { rt with rtTimer := rt.rtTimer.remove }) :=
    .modRt (fun _ => rfl) fun _ => ⟨rfl, rfl, rfl⟩
  unfold rtTimerTimeout
  dsimp only
  split
  · refine hoff.trans ?_
    split
    · unfold routeExpireTimeout
      split
      · exact hbreak a _
      · exact (Node.Rests.invalidate a _).trans (.precursorListDestroy a _)
    · exact .delete a _
    · exact .localRepairTimeout a _
    · exact .of_lookup rfl
  · exact .of_lookup rfl

theorem helloTimeout_rests (a : InAddr) (n : Node) : n.Rests x (helloTimeout c a n) := by
  unfold helloTimeout
  dsimp only
  split
  · split
    · have hmark : n.Rests x (n.modRt a fun rt => { rt with flags := rt.flags ||| rtRepair }) :=
        .modRt (fun _ => rfl) fun _ => ⟨rfl, rfl, rfl⟩
      exact (hmark.trans (.of_routes (ifqBuffer_routes a _))).trans (hbreak a _)
    · exact hbreak a n
  · exact .of_lookup rfl

omit hbreak in
theorem routeDiscoveryTimeout_rests (i : ℕ) (n : Node) :
    n.Rests x (routeDiscoveryTimeout c i n) := by
  unfold routeDiscoveryTimeout
  split
  · exact .of_lookup rfl
  · next s _ =>
    split
    · unfold routeDiscoveryRetry
      dsimp only
      have hset : n.Rests x { n with seekhead := n.seekhead.set i (s.retry c) } := .of_lookup rfl
      refine Node.Rests.trans (hset.trans ?_)
        (.of_routes (onEachChannel_routes (fun i n => by simp) _))
      split
      · exact .of_lookup rfl
      · unfold keepWaiting
        split
        · exact .retimes (.timeout _ _ _)
        · exact .of_lookup rfl
    · unfold noRouteFound
      dsimp only
      have hdrop : n.Rests x { packetQueueSetVerdict c s.destAddr .drop n with
          seekhead := (packetQueueSetVerdict c s.destAddr .drop n).seekhead.eraseIdx i } :=
        (Node.Rests.retimes (.packetQueueSetVerdict _ _ n)).trans (.of_lookup rfl)
      split
      · exact hdrop
      · split
        · exact hdrop.trans (.localRepairTimeout _ _)
        · exact hdrop

theorem timerStep_rests (e : Event) (n : Node) : n.Rests x (timerStep c e n) := by
  cases e with
  | rtTimer a => exact rtTimerTimeout_rests hbreak a n
  | rtHelloTimer a =>
    unfold timerStep
    dsimp only
    split
    · have hoff : n.Rests x (n.modRt a fun rt => { rt with helloTimer := rt.helloTimer.remove }) :=
        .modRt (fun _ => rfl) fun _ => ⟨rfl, rfl, rfl⟩
      exact hoff.trans (helloTimeout_rests hbreak a _)
    · exact .of_lookup rfl
  | ackTimer a =>
    unfold timerStep
    dsimp only
    split
    · have hoff : n.Rests x (n.modRt a fun rt => { rt with ackTimer := rt.ackTimer.remove }) :=
        .modRt (fun _ => rfl) fun _ => ⟨rfl, rfl, rfl⟩
      exact hoff.trans (.of_routes (rreqBlacklistInsert_routes a _))
    · exact .of_lookup rfl
  | seekTimer i => exact routeDiscoveryTimeout_rests i n
  | helloTimer =>
    unfold timerStep
    dsimp only
    split
    · exact .of_routes (by simp)
    · exact .of_lookup rfl
  | packetQueueTimer => exact .of_routes (packetQueueGarbageCollect_routes n)
  | _ => exact .of_lookup rfl

end Timers

/-! ## One Hello -/

def RREP.announced (hello : RREP) : BitVec 32 :=
  (helloExts 0 hello.exts (msecs helloInterval, 0)).1

def ShortGap (now last : Time) (interval : BitVec 32) : Prop :=
  timevalDiff now last < (interval + interval / 2).toNat

instance (now last : Time) (interval : BitVec 32) : Decidable (ShortGap now last interval) :=
  inferInstanceAs (Decidable (_ < _))

theorem lookup_modRt_self {a : InAddr} {rt : RtTable} {f : RtTable → RtTable}
    (hd : ∀ rt, (f rt).destAddr = rt.destAddr) (hrt : n.lookup a = some rt) :
    (n.modRt a f).lookup a = some (f rt) := by
  rw [lookup_modRt a a hd, if_pos rfl, hrt]
  rfl

theorem lookup_modRt_other {a : InAddr} {f : RtTable → RtTable}
    (hd : ∀ rt, (f rt).destAddr = rt.destAddr) (hx : x ≠ a) :
    (n.modRt a f).lookup x = n.lookup x := by
  rw [lookup_modRt a x hd, if_neg (Ne.symm hx)]

theorem rtTableUpdate_oneHop {a : InAddr} (next : InAddr) (seqno life : BitVec 32)
    (state : RtState) (flags : BitVec 16) (n : Node) :
    Node.Retimes (n.modRt a (·.write c.now next 1 seqno life state
      (updateFlags (n.rt a) state flags) none))
      (rtTableUpdate c a next 1 seqno life state flags n) := by
  have hbefore : (beforeUpdate c a 1 state n).tbl = n.tbl := by
    unfold beforeUpdate
    dsimp only
    rw [if_neg (by simp)]
    split <;> rfl
  have hmod : ∀ f, ((beforeUpdate c a 1 state n).modRt a f).tbl = (n.modRt a f).tbl := by
    intro f
    unfold Node.modRt
    rw [hbefore]
  exact (Node.Retimes.of_tbl (hmod _)).trans (.flushSeek a _)

/-- What a Hello does to the entry of its sender: it starts a count, goes on with it, or leaves
the entry valid. -/
theorem helloRoute_cases (hwf : RtWf n) (hrec : 2 ≤ c.conf.receiveNHellos) (hello : RREP)
    (interval : BitVec 32) (flags : BitVec 16) :
    ∃ rt', (helloRoute c hello interval flags n).lookup hello.destAddr = some rt' ∧
      ((n.lookup hello.destAddr = none ∧ rt'.state = .invalid ∧ rt'.helloCnt = 1 ∧
          rt'.lastHelloTime = c.now) ∨
        (∃ rt, n.lookup hello.destAddr = some rt ∧ rt.state = .invalid ∧
          rt.helloCnt.toNat < c.conf.receiveNHellos - 1 ∧ rt'.state = .invalid ∧
          rt'.helloCnt = (if ShortGap c.now rt.lastHelloTime interval then rt.helloCnt + 1 else 1) ∧
          rt'.lastHelloTime = c.now) ∨
        ∃ rt, n.lookup hello.destAddr = some rt ∧ rt'.state = .valid ∧
          (rt.state = .valid ∨ c.conf.receiveNHellos - 1 ≤ rt.helloCnt.toNat)) := by
  have hne : c.conf.receiveNHellos ≠ 0 := by omega
  have hrefresh : ∀ (t : Int) (n' : Node) (rt : RtTable), n'.lookup hello.destAddr = some rt →
      ∃ rt', (helloUpdateTimeout c hello.destAddr t n').lookup hello.destAddr = some rt' ∧
        rt'.state = rt.state ∧ rt'.helloCnt = rt.helloCnt ∧ rt'.lastHelloTime = c.now :=
    fun t n' rt hrt => ⟨_, lookup_modRt_self (fun _ => rfl) hrt, rfl, rfl, rfl⟩
  unfold helloRoute
  dsimp only
  rw [hwf.rtTableFind_eq_lookup, if_pos hne]
  cases hrt : n.lookup hello.destAddr with
  | none =>
    obtain ⟨⟨rt₁, hrt₁, htimed⟩, -⟩ := rtTableInsert_stores (c := c) hrt hello.destAddr 1
      hello.destSeqno (msecs allowedHelloLoss * interval + msecs routeTimeoutSlack) .invalid flags
    have hcount := lookup_modRt_self (f := fun rt => { rt with helloCnt := 1 }) (fun _ => rfl) hrt₁
    obtain ⟨rt', hrt', hs, hcnt, hlast⟩ :=
      hrefresh (msecs allowedHelloLoss * interval).toNat _ _ hcount
    exact ⟨rt', hrt', .inl ⟨rfl, hs.trans htimed.state, hcnt, hlast⟩⟩
  | some rt =>
    dsimp only
    by_cases hmulti : hasFlag flags rtUnidir ∧ rt.state = .valid ∧ 1 < rt.hcnt.toNat
    · rw [if_pos hmulti]
      obtain ⟨rt', hrt', hs, -⟩ := hrefresh (msecs allowedHelloLoss * interval).toNat n rt hrt
      exact ⟨rt', hrt', .inr (.inr ⟨rt, rfl, hs.trans hmulti.2.1, .inl hmulti.2.1⟩)⟩
    rw [if_neg hmulti]
    by_cases hcnt : (rt.helloCnt.toNat : Int) < c.conf.receiveNHellos - 1
    · rw [if_pos ⟨hne, hcnt⟩]
      refine ⟨_, lookup_modRt_self (fun _ => rfl) hrt, ?_⟩
      cases hs : rt.state with
      | invalid => exact .inr (.inl ⟨rt, rfl, hs, hcnt, rfl, rfl, rfl⟩)
      | valid => exact .inr (.inr ⟨rt, rfl, rfl, .inl hs⟩)
    · rw [if_neg fun h => hcnt h.2]
      have hmod := lookup_modRt_self (RtTable.write_destAddr c.now hello.destAddr 1 hello.destSeqno
        (msecs allowedHelloLoss * interval + msecs routeTimeoutSlack) .valid
        (updateFlags (n.rt hello.destAddr) .valid flags) none) hrt
      obtain ⟨rt₁, hrt₁, htimed⟩ := Node.Entrywise.lookup_eq_some (rtTableUpdate_oneHop (c := c)
        hello.destAddr hello.destSeqno (msecs allowedHelloLoss * interval + msecs routeTimeoutSlack)
        .valid flags n) hmod
      obtain ⟨rt', hrt', hs, -⟩ := hrefresh (msecs allowedHelloLoss * interval).toNat _ rt₁ hrt₁
      exact ⟨rt', hrt', .inr (.inr ⟨rt, rfl, hs.trans htimed.state, .inr (not_lt.mp hcnt)⟩)⟩

theorem helloRoute_rests (hwf : RtWf n) {hello : RREP} (hx : x ≠ hello.destAddr)
    (interval : BitVec 32) (flags : BitVec 16) :
    n.Rests x (helloRoute c hello interval flags n) := by
  have hmod : ∀ (f : RtTable → RtTable) (n' : Node), (∀ rt, (f rt).destAddr = rt.destAddr) →
      n'.Rests x (n'.modRt hello.destAddr f) := fun f n' hd =>
    .of_lookup (lookup_modRt_other hd hx)
  unfold helloRoute
  dsimp only
  rw [hwf.rtTableFind_eq_lookup]
  cases hrt : n.lookup hello.destAddr with
  | none =>
    have hinsert : ∀ state, n.Rests x (rtTableInsert c hello.destAddr hello.destAddr 1
        hello.destSeqno (msecs allowedHelloLoss * interval + msecs routeTimeoutSlack) state flags n) :=
      fun state => .of_entry (optionRel_imp (fun _ _ => RtTable.Retimed.sameCount)
        ((rtTableInsert_stores hrt _ _ _ _ state flags).2 x hx))
    dsimp only
    have hone := (hinsert (if c.conf.receiveNHellos ≠ 0 then .invalid else .valid)).trans
      (hmod (fun rt => { rt with helloCnt := 1 }) _ fun _ => rfl)
    refine hone.trans (hmod _ _ ?_)
    exact fun _ => rfl
  | some rt =>
    dsimp only
    have hrefresh : ∀ (t : Int) (n' : Node),
        n'.Rests x (helloUpdateTimeout c hello.destAddr t n') := by
      intro t n'
      refine hmod _ n' ?_
      exact fun _ => rfl
    split
    · exact hrefresh _ n
    · split
      · refine hmod _ n ?_
        exact fun _ => rfl
      · have hwrite := hmod _ n (RtTable.write_destAddr c.now hello.destAddr 1 hello.destSeqno
          (msecs allowedHelloLoss * interval + msecs routeTimeoutSlack) .valid
          (updateFlags (n.rt hello.destAddr) .valid flags) none)
        have hupdate := hwrite.trans (.retimes (rtTableUpdate_oneHop (c := c) _ _ _ _ flags n))
        exact hupdate.trans (hrefresh _ _)

theorem helloProcess_route (c : Ctx) (hello : RREP) (n : Node) :
    ∃ n' flags, n'.routes = n.routes ∧
      helloProcess c hello n = helloRoute c hello hello.announced flags n' := by
  have hroute : ∃ flags, helloProcess c hello n = helloRoute c hello
      (helloExts (helloAcknowledge c hello (helloCount hello (helloRecord hello n))).ipaddr
        hello.exts (msecs helloInterval, flags)).1
      (helloExts (helloAcknowledge c hello (helloCount hello (helloRecord hello n))).ipaddr
        hello.exts (msecs helloInterval, flags)).2
      (helloAcknowledge c hello (helloCount hello (helloRecord hello n))) := ⟨_, rfl⟩
  obtain ⟨flags, hflags⟩ := hroute
  rw [helloExts_fst _ 0 hello.exts (msecs helloInterval) flags 0] at hflags
  exact ⟨_, _, by simp, hflags⟩

theorem helloProcess_rests (hwf : RtWf n) {hello : RREP} (hx : x ≠ hello.destAddr) :
    n.Rests x (helloProcess c hello n) := by
  obtain ⟨n', flags, hroutes, heq⟩ := helloProcess_route c hello n
  rw [heq]
  exact (Node.Rests.of_routes hroutes).trans
    (helloRoute_rests (rtWf_of_routes hroutes hwf) hx _ flags)

theorem helloProcess_counted (hwf : RtWf n) (hrec : 2 ≤ c.conf.receiveNHellos) {hello : RREP}
    {k : ℕ} {t : Time} (hk : 0 < k) (hc : (helloProcess c hello n).CountsTo hello.destAddr k t) :
    t = c.now ∧ (k = 1 ∨ ∃ j last, 0 < j ∧ n.CountsTo hello.destAddr j last ∧ k = j + 1 ∧
      ShortGap c.now last hello.announced) := by
  obtain ⟨n', flags, hroutes, heq⟩ := helloProcess_route c hello n
  obtain ⟨rt', hrt', hcases⟩ := helloRoute_cases (rtWf_of_routes hroutes hwf) hrec hello
    hello.announced flags
  rw [lookup_of_routes hroutes] at hcases
  obtain ⟨rt, hrt, hs, rfl, rfl⟩ := hc
  rw [heq, hrt'] at hrt
  cases hrt
  rcases hcases with ⟨-, -, hone, hlast⟩ | ⟨old, hold, hinv, -, -, hcnt, hlast⟩ | ⟨-, -, hv, -⟩
  · exact ⟨hlast, .inl (by rw [hone]; rfl)⟩
  · refine ⟨hlast, ?_⟩
    by_cases hshort : ShortGap c.now old.lastHelloTime hello.announced
    · rw [if_pos hshort] at hcnt
      rw [hcnt] at hk ⊢
      by_cases hzero : old.helloCnt = 0
      · rw [hzero]
        exact .inl rfl
      · have hpos : 0 < old.helloCnt.toNat := by bv_omega
        refine .inr ⟨_, _, hpos, ⟨old, hold, hinv, rfl, rfl⟩, ?_, hshort⟩
        bv_omega
    · rw [if_neg hshort] at hcnt
      exact .inl (by rw [hcnt]; rfl)
  · rw [hs] at hv
    cases hv

theorem helloProcess_validAt_iff (hwf : RtWf n) (hrec : 2 ≤ c.conf.receiveNHellos) (hello : RREP) :
    (helloProcess c hello n).ValidAt hello.destAddr ↔ n.ValidAt hello.destAddr ∨
      ∃ (k : ℕ) (t : Time), n.CountsTo hello.destAddr k t ∧ c.conf.receiveNHellos - 1 ≤ k := by
  obtain ⟨n', flags, hroutes, heq⟩ := helloProcess_route c hello n
  obtain ⟨rt', hrt', hcases⟩ := helloRoute_cases (rtWf_of_routes hroutes hwf) hrec hello
    hello.announced flags
  rw [lookup_of_routes hroutes] at hcases
  have hafter : (helloProcess c hello n).ValidAt hello.destAddr ↔ rt'.state = .valid := by
    unfold Node.ValidAt
    rw [heq, hrt']
    simp
  rw [hafter]
  rcases hcases with ⟨hnone, hs, -⟩ | ⟨old, hold, hinv, hlt, hs, -⟩ | ⟨old, hold, hs, hwhy⟩
  · refine iff_of_false (by rw [hs]; decide) ?_
    rintro (⟨rt, hrt, -⟩ | ⟨k, t, ⟨rt, hrt, -⟩, -⟩)
    · rw [hnone] at hrt
      cases hrt
    · rw [hnone] at hrt
      cases hrt
  · refine iff_of_false (by rw [hs]; decide) ?_
    rintro (⟨rt, hrt, hv⟩ | ⟨k, t, ⟨rt, hrt, -, rfl, -⟩, hk⟩)
    · rw [hold] at hrt
      cases hrt
      rw [hinv] at hv
      cases hv
    · rw [hold] at hrt
      cases hrt
      omega
  · refine iff_of_true hs ?_
    cases hst : old.state with
    | valid => exact .inl ⟨old, hold, hst⟩
    | invalid =>
      rcases hwhy with hv | hk
      · rw [hst] at hv
        cases hv
      · exact .inr ⟨_, _, ⟨old, hold, hst, rfl, rfl⟩, hk⟩

/-! ## Runs -/

/-- A Hello that arrived, and the interval it announced. -/
structure HelloArrival where
  time : Time
  interval : BitVec 32

/-- Less than one and a half announced intervals after the time before. -/
def HelloArrival.Soon (a : HelloArrival) (last : Time) : Prop :=
  2 * (a.time - last) < 3 * (a.interval.toNat * 1000)

/-- The last `k` Hellos, the newest in front, came soon after each other. -/
def Consecutive (k : ℕ) (as : List HelloArrival) : Prop :=
  k ≤ as.length ∧ (as.take k).IsChain fun new old => new.Soon old.time

theorem lt_of_whole_ms {d : Int} {i : ℕ} (h : 2 * d.tdiv 1000 + 2 ≤ 3 * i) :
    2 * d < 3 * (i * 1000) := by
  have hround := Int.lt_tdiv_add_one_mul_self d (by decide : (0 : Int) < 1000)
  omega

theorem soon_of_shortGap {now last : Time} {interval : BitVec 32}
    (h : ShortGap now last interval) : (HelloArrival.mk now interval).Soon last := by
  have hhalf : (interval + interval / 2).toNat ≤ interval.toNat + interval.toNat / 2 := by
    rw [BitVec.toNat_add]
    exact Nat.mod_le _ _
  have hms : 2 * (now - last).tdiv 1000 + 2 ≤ 3 * (interval.toNat : Int) := by
    unfold ShortGap timevalDiff at h
    omega
  exact lt_of_whole_ms hms

namespace Consecutive

variable {k : ℕ} {as : List HelloArrival}

theorem one (a : HelloArrival) (as : List HelloArrival) : Consecutive 1 (a :: as) :=
  ⟨by simp, by simp⟩

theorem cons (h : Consecutive k as) {a : HelloArrival} (ha : ∀ b ∈ as.head?, a.Soon b.time) :
    Consecutive (k + 1) (a :: as) := by
  refine ⟨by simpa using h.1, ?_⟩
  rw [List.take_succ_cons, List.isChain_cons]
  refine ⟨fun b hb => ha b ?_, h.2⟩
  rw [List.head?_take] at hb
  split at hb
  · cases hb
  · exact hb

theorem mono {l : ℕ} (h : Consecutive k as) (hl : l ≤ k) : Consecutive l as := by
  refine ⟨hl.trans h.1, ?_⟩
  have htake : as.take l = (as.take k).take l := by rw [List.take_take, min_eq_left hl]
  rw [htake]
  exact h.2.take l

theorem soon (h : Consecutive (k + 2) (a :: b :: as)) : a.Soon b.time := by
  have hchain := h.2
  rw [List.take_succ_cons, List.take_succ_cons, List.isChain_cons_cons] at hchain
  exact hchain.1

end Consecutive

/-- The runs of an agent with the Hellos of `x` that it has processed, the newest in front.
Hellos of other neighbours arrive, timers of any kind expire, and whatever else happens counts
no Hello of `x`. -/
inductive HeardFrom (cf : Conf) (ext : Extern) (own x : InAddr) : List HelloArrival → Node → Prop where
  | init (env : Env) : HeardFrom cf ext own x [] (Node.init ⟨cf, ext, env⟩ own)
  | hello {as : List HelloArrival} {n : Node} (env : Env) (hello : RREP) (hx : hello.destAddr = x) :
      HeardFrom cf ext own x as n →
      HeardFrom cf ext own x (⟨env.now, hello.announced⟩ :: as) (helloProcess ⟨cf, ext, env⟩ hello n)
  | other {as : List HelloArrival} {n : Node} (env : Env) (hello : RREP) (hx : x ≠ hello.destAddr) :
      HeardFrom cf ext own x as n →
      HeardFrom cf ext own x as (helloProcess ⟨cf, ext, env⟩ hello n)
  | timer {as : List HelloArrival} {n : Node} (env : Env) (e : Event) :
      HeardFrom cf ext own x as n → HeardFrom cf ext own x as (timerStep ⟨cf, ext, env⟩ e n)
  | rest {as : List HelloArrival} {n n' : Node} (hrest : n.Rests x n') (hwf : RtWf n') :
      HeardFrom cf ext own x as n → HeardFrom cf ext own x as n'

/-- The count of an invalid entry is one of consecutive Hellos, the last at the time noted. -/
structure Node.Tallied (x : InAddr) (as : List HelloArrival) (n : Node) : Prop where
  wf : RtWf n
  count : ∀ k t, 0 < k → n.CountsTo x k t →
    Consecutive k as ∧ ∃ a, as.head? = some a ∧ a.time = t

theorem Node.Tallied.rests {as : List HelloArrival} (h : n.Tallied x as) (hr : n.Rests x n')
    (hwf : RtWf n') : n'.Tallied x as :=
  ⟨hwf, fun k t hk hc => h.count k t hk (hr.before k t hk hc)⟩

theorem helloProcess_tallied {as : List HelloArrival} (hl : c.LinkBreaks {})
    (hrec : 2 ≤ c.conf.receiveNHellos) (hello : RREP) (h : n.Tallied hello.destAddr as) :
    (helloProcess c hello n).Tallied hello.destAddr (⟨c.now, hello.announced⟩ :: as) := by
  have hwf : RtWf (helloProcess c hello n) := effects_preserve_rtWf h.wf
    (helloProcess_effects (updates_all hl.widen) trivial hello n)
  refine ⟨hwf, fun k t hk hc => ?_⟩
  obtain ⟨rfl, hone | ⟨j, last, hj, hold, rfl, hshort⟩⟩ := helloProcess_counted h.wf hrec hk hc
  · subst hone
    exact ⟨.one _ as, _, rfl, rfl⟩
  · obtain ⟨hcons, a, ha, rfl⟩ := h.count j last hj hold
    refine ⟨hcons.cons fun b hb => ?_, _, rfl, rfl⟩
    rw [ha] at hb
    cases hb
    exact soon_of_shortGap hshort

theorem HeardFrom.tallied {cf : Conf} {ext : Extern} {own : InAddr} {as : List HelloArrival}
    (hext : ext.BreaksAtRest cf) (hrec : 2 ≤ cf.receiveNHellos) (h : HeardFrom cf ext own x as n) :
    n.Tallied x as := by
  induction h with
  | init env => exact ⟨init_rtWf own, fun k t _ ⟨rt, hrt, _⟩ => nomatch hrt⟩
  | hello env hello hx _ ih =>
    subst hx
    exact helloProcess_tallied (hext.linkBreaks env) hrec hello ih
  | other env hello hx _ ih =>
    have hl := hext.linkBreaks env
    exact ih.rests (helloProcess_rests ih.wf hx) (effects_preserve_rtWf ih.wf
      (helloProcess_effects (updates_all hl.widen) trivial hello _))
  | timer env e _ ih =>
    have hl := hext.linkBreaks env
    exact ih.rests (timerStep_rests (hext.rests env x) e _) (effects_preserve_rtWf ih.wf
      (timerStep_effects hl.widen trivial e _ fun _ _ _ _ _ => trivial))
  | rest hrest hwf _ ih => exact ih.rests hrest hwf

/-- A Hello makes the entry of its sender valid only behind enough consecutive ones, exactly if
it comes soon after the last whenever the count is one short. -/
theorem hello_validates_consecutive_iff {cf : Conf} {ext : Extern} {own : InAddr}
    {as : List HelloArrival} (hext : ext.BreaksAtRest cf) (hrec : 2 ≤ cf.receiveNHellos)
    (h : HeardFrom cf ext own x as n) (env : Env) (hello : RREP) (hx : hello.destAddr = x) :
    ((helloProcess ⟨cf, ext, env⟩ hello n).ValidAt x → n.ValidAt x ∨
        Consecutive cf.receiveNHellos.toNat (⟨env.now, hello.announced⟩ :: as)) ↔
      ∀ k t, n.CountsTo x k t → cf.receiveNHellos - 1 ≤ k →
        (HelloArrival.mk env.now hello.announced).Soon t := by
  subst hx
  have htallied := h.tallied hext hrec
  rw [helloProcess_validAt_iff (c := ⟨cf, ext, env⟩) htallied.wf hrec hello]
  constructor
  · intro hlaw k t hc (hk : cf.receiveNHellos - 1 ≤ k)
    have hpos : 0 < k := by omega
    obtain ⟨-, a, ha, rfl⟩ := htallied.count k t hpos hc
    rcases hlaw (.inr ⟨k, _, hc, hk⟩) with ⟨rt, hrt, hv⟩ | hcons
    · obtain ⟨rt', hrt', hs, -⟩ := hc
      rw [hrt] at hrt'
      cases hrt'
      rw [hv] at hs
      cases hs
    · obtain ⟨rest, rfl⟩ := List.head?_eq_some_iff.mp ha
      exact (hcons.mono (l := 2) (by omega)).soon
  · rintro hsoon (hv | ⟨k, t, hc, hk⟩)
    · exact .inl hv
    · have hshort : cf.receiveNHellos - 1 ≤ k := hk
      obtain ⟨hcons, a, ha, rfl⟩ := htallied.count k t (by omega) hc
      have hnext := hcons.cons (a := ⟨env.now, hello.announced⟩) fun b hb => by
        rw [ha] at hb
        cases hb
        exact hsoon k _ hc hk
      exact .inr (hnext.mono (by omega))

/-! ## Concrete runs -/

def twoHellosConf : Conf := { receiveNHellos := 2 }

def twoHellosCtx (ms : ℕ) : Ctx :=
  ⟨twoHellosConf, .described sampleLog twoHellosConf, { now := ms * 1000 }⟩

def heardOnce : Node :=
  helloProcess (twoHellosCtx 0) (rrepCreate 0 0 2 5 2 600) (Node.init (twoHellosCtx 0) 1)

theorem heardOnce_heardFrom : HeardFrom twoHellosConf (.described sampleLog twoHellosConf) 1 2
    [⟨0, 300⟩] heardOnce :=
  .hello { now := 0 } (rrepCreate 0 0 2 5 2 600) rfl (.init { now := 0 })

theorem validAt_iff {x : InAddr} : n.ValidAt x ↔ (n.lookup x).map (·.state) = some .valid := by
  rw [Option.map_eq_some_iff]
  rfl

theorem heardOnce_counted {k : ℕ} {t : Time} (h : heardOnce.CountsTo 2 k t) : t = 0 := by
  obtain ⟨rt, hrt, -, -, rfl⟩ := h
  have hlast : (heardOnce.lookup 2).map (·.lastHelloTime) = some 0 := by decide +kernel
  rw [hrt] at hlast
  exact Option.some.inj hlast

/-- The second Hello comes in time. -/
theorem heardOnce_validates_consecutive :
    (helloProcess (twoHellosCtx 300) (rrepCreate 0 0 2 5 2 600) heardOnce).ValidAt 2 ∧
    Consecutive 2 [⟨300000, 300⟩, ⟨0, 300⟩] := by
  have hvalid : (helloProcess (twoHellosCtx 300) (rrepCreate 0 0 2 5 2 600) heardOnce).ValidAt 2 :=
    validAt_iff.mpr (by decide +kernel)
  have hnew : ¬ heardOnce.ValidAt 2 := fun h => absurd (validAt_iff.mp h) (by decide +kernel)
  refine ⟨hvalid, ((hello_validates_consecutive_iff (described_breaksAtRest sampleLog twoHellosConf)
    (by decide) heardOnce_heardFrom { now := 300000 } (rrepCreate 0 0 2 5 2 600) rfl).mpr
    (fun k t hc _ => ?_) hvalid).resolve_left hnew⟩
  rw [heardOnce_counted hc]
  unfold HelloArrival.Soon
  decide +kernel

/-- Half a second is more than one and a half intervals of 300 ms, and makes the neighbour valid
as well. -/
theorem heardOnce_validates_late :
    HeardFrom twoHellosConf (.described sampleLog twoHellosConf) 1 2 [⟨0, 300⟩] heardOnce ∧
    (rrepCreate 0 0 2 5 2 600).announced = 300 ∧
    (helloProcess (twoHellosCtx 500) (rrepCreate 0 0 2 5 2 600) heardOnce).ValidAt 2 ∧
    ¬ heardOnce.ValidAt 2 ∧ ¬ Consecutive 2 [⟨500000, 300⟩, ⟨0, 300⟩] := by
  refine ⟨heardOnce_heardFrom, by decide, validAt_iff.mpr (by decide +kernel),
    fun h => absurd (validAt_iff.mp h) (by decide +kernel), fun h => ?_⟩
  exact absurd h.soon (by unfold HelloArrival.Soon; decide)

end AodvUU

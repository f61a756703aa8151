import AodvUU.Lib.NextHopGraph
import AodvUU.LoopFree
import AodvUU.LrErrors
import AodvUU.LrReplies
import AodvUU.SelfRoute

/-! # Loops through local repair

A reply to a local repair leads its destinations over the sender, however old it is. A loop closes
where the sender's own way to one of them leads through the receiver. -/
namespace AodvUU

open NextHopGraph (SameButAt)

variable {c : Ctx}

/-! ## Ways through a network -/

/-- Following the valid entries for a destination meets no agent twice. -/
def Process.LoopFree (P : Process) : Prop := ∀ d, NextHopGraph.LoopFree (P.Forwards d)

def Process.Reaches (P : Process) (d b a : InAddr) : Prop :=
  Relation.ReflTransGen (P.Forwards d) b a

def Node.RoutesOver (n : Node) (d b : InAddr) : Prop :=
  ∃ rt ∈ n.entries, rt.destAddr = d ∧ rt.state = .valid ∧ rt.nextHop = b

theorem RtWf.routesOver_iff {n : Node} (h : RtWf n) {d b : InAddr} :
    n.RoutesOver d b ↔ (n.rt d).Over b := by
  constructor
  · rintro ⟨rt, hrt, hd, hover⟩
    rw [rt_of_lookup (h.lookup_eq_some.mpr ⟨hrt, hd⟩)]
    exact hover
  · intro hover
    obtain ⟨hmem, hd⟩ := h.lookup_eq_some.mp (lookup_of_over hover)
    exact ⟨n.rt d, hmem, hd, hover⟩

section Put

variable {P : Process} {a src : InAddr} {n' : Node} {S : InAddr → Prop}

theorem put_sameButAt (P : Process) (a : InAddr) (n' : Node) (d : InAddr) :
    SameButAt a (P.Forwards d) ((P.put a n').Forwards d) := by
  intro x hx y
  have hnode : (P.put a n').node x = P.node x := Function.update_of_ne hx _ _
  unfold Process.Forwards
  rw [hnode]

theorem put_forwards {d b : InAddr} : (P.put a n').Forwards d a b ↔ n'.RoutesOver d b := by
  have hnode : (P.put a n').node a = n' := Function.update_self _ _ _
  unfold Process.Forwards
  rw [hnode]
  rfl

theorem Process.LoopFree.put (h : P.LoopFree)
    (honly : ∀ d b, n'.RoutesOver d b → (P.node a).RoutesOver d b ∨ S d ∧ b = src)
    (hnone : ∀ d, S d → ¬ P.Reaches d src a) : (P.put a n').LoopFree := by
  intro d
  refine (put_sameButAt P a n' d).loopFree_of_new (h d) fun b hb => ?_
  rcases honly d b (put_forwards.mp hb) with hold | ⟨hd, rfl⟩
  · exact .inl hold
  · exact .inr (hnone d hd)

theorem Process.LoopFree.put_iff (h : P.LoopFree)
    (honly : ∀ d b, n'.RoutesOver d b → (P.node a).RoutesOver d b ∨ S d ∧ b = src)
    (hall : ∀ d, S d → n'.RoutesOver d src) :
    (P.put a n').LoopFree ↔ ∀ d, S d → ¬ P.Reaches d src a := by
  constructor
  · intro hfree d hd
    have hiff := (put_sameButAt P a n' d).loopFree_iff (h d)
    exact hiff.mp (hfree d) src (put_forwards.mpr (hall d hd))
  · exact h.put honly

end Put

/-! ## What the handler turns -/

def Node.TakesLrReply (n : Node) (rrep : RREP) (rreplen : ℕ) : Prop :=
  rrepSize ≤ rreplen ∧ rrep.destAddr ≠ n.ipaddr

/-- A destination that the handler looks at: at a forwarder those the reply is for, at the repairing
node also those behind the destination of the reply. -/
def Node.LrTouches (n : Node) (rrep : RREP) (rreplen : ℕ) (d : InAddr) : Prop :=
  n.TakesLrReply rrep rreplen ∧
    if rrep.origAddr = n.ipaddr then
      ∃ rt, n.lookup d = some rt ∧ (d = rrep.destAddr ∨ rt.nextHop = rrep.destAddr)
    else d ∈ rrep.routed

/-- The entry leads where it led, if it is valid at all. -/
def RtTable.Stays (rt rt' : RtTable) : Prop :=
  rt'.nextHop = rt.nextHop ∧ (rt'.state = .valid → rt.state = .valid)

theorem RtTable.Stays.of_ages {rt rt' rt'' : RtTable} (h : rt.Stays rt') (hage : rt'.Ages rt'') :
    rt.Stays rt'' := by
  refine ⟨hage.nextHop.trans h.1, fun hvalid => h.2 ?_⟩
  rcases hage.aged with ⟨hsame, -⟩ | ⟨hold, -, -⟩
  · exact hsame ▸ hvalid
  · exact hold

/-- Compared with `n`, entries stay or lead a destination of `S` over `src`. -/
def Node.TurnsOnly (n : Node) (S : InAddr → Prop) (src : InAddr) (n' : Node) : Prop :=
  ∀ b rt', n'.lookup b = some rt' →
    (∃ rt, n.lookup b = some rt ∧ rt.Stays rt') ∨ S b ∧ rt'.nextHop = src

section Only

variable {n n₁ n₂ : Node} {S : InAddr → Prop} {src : InAddr}

theorem Node.TurnsOnly.refl (n : Node) (S : InAddr → Prop) (src : InAddr) :
    n.TurnsOnly S src n :=
  fun _ rt hrt => .inl ⟨rt, hrt, rfl, id⟩

theorem Node.TurnsOnly.of_ages (h : n.TurnsOnly S src n₁) (hage : n₁.Ages n₂) :
    n.TurnsOnly S src n₂ := by
  intro b rt₂ hrt₂
  have hrel := hage b
  rw [hrt₂] at hrel
  obtain ⟨rt₁, hrt₁, hage₁⟩ := optionRel_some hrel
  rcases h b rt₁ hrt₁ with ⟨rt, hrt, hstay⟩ | ⟨hb, hnext⟩
  · exact .inl ⟨rt, hrt, hstay.of_ages hage₁⟩
  · exact .inr ⟨hb, hage₁.nextHop.trans hnext⟩

theorem Node.TurnsOnly.routesOver (h : n.TurnsOnly S src n₁) (hwf : RtWf n) (hwf₁ : RtWf n₁)
    {d b : InAddr} (hroute : n₁.RoutesOver d b) : n.RoutesOver d b ∨ S d ∧ b = src := by
  have hover := hwf₁.routesOver_iff.mp hroute
  rcases h d _ (lookup_of_over hover) with ⟨rt, hrt, hnext, hstate⟩ | ⟨hd, hsrc⟩
  · refine .inl (hwf.routesOver_iff.mpr ?_)
    rw [rt_of_lookup hrt]
    exact ⟨hstate hover.1, hnext.symm.trans hover.2⟩
  · exact .inr ⟨hd, hover.2.symm.trans hsrc⟩

theorem turnsOnly_keeps (hl : c.LinkBreaks {}) (n : Node) (S : InAddr → Prop) (src : InAddr) :
    c.Keeps fun n' => RtWf n' ∧ n.TurnsOnly S src n' := by
  refine .of_wf hl (fun n₁ n₂ hr hn => ?_) (fun a f n₁ hf hn => ?_) (fun _ _ _ hn => hn)
    fun a n₁ _ hn => hn.of_ages (hl a n₁).ages
  · intro b rt' hrt'
    exact hn b rt' (lookup_of_routes hr ▸ hrt')
  · intro b rt' hrt'
    rw [lookup_modRt a b fun rt => (hf rt).destAddr] at hrt'
    split at hrt'
    · obtain ⟨rt₁, hrt₁, rfl⟩ := Option.map_eq_some_iff.mp hrt'
      rcases hn b rt₁ hrt₁ with ⟨rt, hrt, hnext, hstate⟩ | ⟨hb, hnext⟩
      · refine .inl ⟨rt, hrt, (hf rt₁).nextHop.trans hnext, fun hvalid => hstate ?_⟩
        exact (hf rt₁).state ▸ hvalid
      · exact .inr ⟨hb, (hf rt₁).nextHop.trans hnext⟩
    · exact hn b rt' hrt'

theorem turnsOnly_takes (hl : c.LinkBreaks {}) {r : Route} (hdest : S r.dest) (hnext : r.next = src)
    (hn : RtWf n₁ ∧ n.TurnsOnly S src n₁) :
    c.Takes (fun n' => RtWf n' ∧ n.TurnsOnly S src n') r n₁ := by
  refine (turnsOnly_keeps hl n S src).takes_wf (fun flags _ _ b rt' hrt' => ?_)
    (fun flags n₂ _ hn₂ b rt' hrt' => ?_) hn
  · rw [lookup_storeEntry] at hrt'
    split at hrt'
    · next hb =>
      cases hrt'
      subst hb
      exact .inr ⟨hdest, hnext⟩
    · exact hn.2 b rt' hrt'
  · rw [lookup_routeWrite] at hrt'
    split at hrt'
    · next hb =>
      subst hb
      obtain ⟨rt₁, -, rfl⟩ := Option.map_eq_some_iff.mp hrt'
      exact .inr ⟨hdest, (RtTable.write_nextHop ..).trans hnext⟩
    · exact hn₂ b rt' hrt'

end Only

theorem rrepProcessLr_turnsOnly (hl : c.LinkBreaks {}) {n : Node} (hwf : RtWf n) (rrep : RREP)
    (rreplen : ℕ) (ipSrc : InAddr) (ipTtl : Int) :
    RtWf (rrepProcessLr c rrep rreplen ipSrc ipTtl n) ∧
      n.TurnsOnly (n.LrTouches rrep rreplen) ipSrc (rrepProcessLr c rrep rreplen ipSrc ipTtl n) := by
  have hstart : RtWf n ∧ n.TurnsOnly (n.LrTouches rrep rreplen) ipSrc n := ⟨hwf, .refl n _ _⟩
  by_cases hlen : rreplen < rrepSize
  · unfold rrepProcessLr
    rw [if_pos hlen]
    exact hstart
  · refine (turnsOnly_keeps hl n (n.LrTouches rrep rreplen) ipSrc).rrepProcessLr hl rrep rreplen ipSrc
      ipTtl (fun hdest horig n' hn' a rt₀ rt hrt₀ hage hrt _ hsel => ?_)
      (fun hdest horig n' hn' a hsel => ?_) hstart
    · have hself := destAddr_of_lookup hrt
      refine turnsOnly_takes hl ?_ ?_ hn'
      · rw [RREP.repairRoute_dest, hself]
        refine ⟨⟨not_lt.mp hlen, hdest⟩, ?_⟩
        rw [if_pos horig]
        exact ⟨rt₀, hrt₀, hsel.imp (hself.symm.trans ·) (hage.nextHop.symm.trans ·)⟩
      · unfold RREP.repairRoute
        split <;> rfl
    · refine turnsOnly_takes hl ⟨⟨not_lt.mp hlen, hdest⟩, ?_⟩ rfl hn'
      rw [if_neg horig]
      rcases hsel with rfl | ⟨ud, hud, rfl⟩
      · exact List.mem_append.mpr (.inr (List.mem_singleton_self _))
      · exact mem_routed (List.mem_filterMap.mpr ⟨_, hud, rfl⟩)

/-- A destination that leads over the sender once the reply is processed. Where the link to the
sender breaks, a forwarder loses the routes stored before. -/
def Node.LrTurns (n : Node) (rrep : RREP) (rreplen : ℕ) (ipSrc d : InAddr) : Prop :=
  n.TakesLrReply rrep rreplen ∧
    if rrep.origAddr = n.ipaddr then ∃ rt, n.lookup d = some rt ∧ rt.Mends rrep
    else d ∈ rrep.routed ∧ ((n.rt ipSrc).Breaks (rrep.hcnt + 1) → ipSrc ∈ rrep.routed →
      d ∈ rrep.routed.dropWhile (· ≠ ipSrc))

theorem Node.LrTurns.mends {n : Node} {rrep : RREP} {rreplen : ℕ} {ipSrc d : InAddr}
    (h : n.LrTurns rrep rreplen ipSrc d) (horig : rrep.origAddr = n.ipaddr) :
    ∃ rt, n.lookup d = some rt ∧ rt.Mends rrep := by
  have hturned := h.2
  rw [if_pos horig] at hturned
  exact hturned

/-- The routes of `n'` are routes of `n`, but for the destinations in `S`, which lead over `src`. -/
structure Node.Turns (n : Node) (S : InAddr → Prop) (src : InAddr) (n' : Node) : Prop where
  only : ∀ d b, n'.RoutesOver d b → n.RoutesOver d b ∨ S d ∧ b = src
  all : ∀ d, S d → n'.RoutesOver d src

/-! ## At a forwarder -/

section Forwarder

variable {rrep : RREP} {ipSrc : InAddr} {n : Node}

theorem dropWhile_of_first {pre post : List InAddr} (hpre : ipSrc ∉ pre) :
    (pre ++ ipSrc :: post).dropWhile (· ≠ ipSrc) = ipSrc :: post := by
  induction pre with
  | nil => simp
  | cons a pre ih =>
    have ha : a ≠ ipSrc := fun he => hpre (he ▸ List.mem_cons_self)
    rw [List.cons_append, List.dropWhile_cons_of_pos (by simpa using ha)]
    exact ih fun hmem => hpre (List.mem_cons_of_mem a hmem)

theorem Node.Leads.over {a next : InAddr} {seqno : BitVec 32} (h : n.Leads a next seqno) :
    (n.rt a).Over next := by
  obtain ⟨rt, hrt, hvalid, hnext, -⟩ := h
  rw [rt_of_lookup hrt]
  exact ⟨hvalid, hnext⟩

theorem lrRoutes_over_iff (hl : c.LinkBreaks {}) (hs : c.SparesOthers) (hlost : c.LosesLinks)
    (hwf : RtWf n) {d : InAddr} (hd : d ∈ rrep.routed) :
    ((lrRoutes c rrep ipSrc rrep.routed n).rt d).Over ipSrc ↔
      ((n.rt ipSrc).Breaks (rrep.hcnt + 1) → ipSrc ∈ rrep.routed →
        d ∈ rrep.routed.dropWhile (· ≠ ipSrc)) := by
  by_cases hbreak : ipSrc ∈ rrep.routed ∧ (n.rt ipSrc).Breaks (rrep.hcnt + 1)
  · obtain ⟨hmem, hbreak⟩ := hbreak
    obtain ⟨pre, post, heq, hpre⟩ := List.eq_append_cons_of_mem hmem
    obtain ⟨hkept, hlostRoutes⟩ := lrRoutes_broken hl hs hlost hpre post hwf hbreak
    rw [heq] at hd ⊢
    rw [dropWhile_of_first hpre]
    constructor
    · intro hover _ _
      by_contra hnot
      have hpred : d ∈ pre := (List.mem_append.mp hd).resolve_right hnot
      have hinvalid := hlostRoutes d hpred fun hpost => hnot (List.mem_cons_of_mem _ hpost)
      rw [hover.1] at hinvalid
      cases hinvalid
    · intro h
      exact (hkept d (List.mem_cons.mp (h hbreak (heq ▸ hmem)))).over
  · have hall : RerouteAll rrep ipSrc rrep.routed n (lrRoutes c rrep ipSrc rrep.routed n) :=
      lrRoutes_rerouteAll hl hs hlost _ hwf fun hmem hb => hbreak ⟨hmem, hb⟩
    refine iff_of_true (hall.leads d hd).over fun hb hmem => ?_
    exact absurd ⟨hmem, hb⟩ hbreak

theorem forwarder_turns (hl : c.LinkBreaks {}) (hs : c.SparesOthers) (hlost : c.LosesLinks)
    (hwf : RtWf n) {rreplen : ℕ} (htakes : n.TakesLrReply rrep rreplen)
    (horig : rrep.origAddr ≠ n.ipaddr) (ipTtl : Int) :
    n.Turns (n.LrTurns rrep rreplen ipSrc) ipSrc (rrepProcessLr c rrep rreplen ipSrc ipTtl n) := by
  obtain ⟨hwf', honly⟩ := rrepProcessLr_turnsOnly hl hwf rrep rreplen ipSrc ipTtl
  have hover : ∀ d, d ∈ rrep.routed →
      ((rrepProcessLr c rrep rreplen ipSrc ipTtl n).RoutesOver d ipSrc ↔
        ((n.rt ipSrc).Breaks (rrep.hcnt + 1) → ipSrc ∈ rrep.routed →
          d ∈ rrep.routed.dropWhile (· ≠ ipSrc))) := by
    intro d hd
    have hcourse := rrepProcessLr_forwarder (c := c) htakes.1 htakes.2 horig ipSrc ipTtl d
    rw [hwf'.routesOver_iff, over_of_course (rt_course hcourse)]
    exact lrRoutes_over_iff hl hs hlost hwf hd
  constructor
  · intro d b hroute
    refine (honly.routesOver hwf hwf' hroute).imp_right ?_
    rintro ⟨⟨-, hd⟩, rfl⟩
    rw [if_neg horig] at hd
    refine ⟨⟨htakes, ?_⟩, rfl⟩
    rw [if_neg horig]
    exact ⟨hd, (hover d hd).mp hroute⟩
  · rintro d ⟨-, hd⟩
    rw [if_neg horig] at hd
    exact (hover d hd.1).mpr hd.2

end Forwarder

/-! ## At the repairing node -/

/-- What the walk makes of an entry it has or has not come past. -/
def RtTable.Turned (rrep : RREP) (ipSrc : InAddr) (visited : Prop) (rt rt' : RtTable) : Prop :=
  (visited ∧ rt.Mends rrep) ∧ rt'.Over ipSrc ∨ ¬ (visited ∧ rt.Mends rrep) ∧ rt.Retimed rt'

structure LrRerr.Turns (rrep : RREP) (ipSrc : InAddr) (n : Node) (l : List InAddr) (s : LrRerr) :
    Prop where
  wf : RtWf s.node
  entry : ∀ a, Option.Rel (RtTable.Turned rrep ipSrc (a ∈ l)) (n.lookup a) (s.node.lookup a)

section Walk

variable {rrep : RREP} {ipSrc a : InAddr} {n : Node} {l : List InAddr} {s : LrRerr}

theorem RtTable.Turned.movedTo {p : Prop} {rt rt' : RtTable} (h : rt.Turned rrep ipSrc p rt') :
    rt.MovedTo ipSrc rt' := by
  rcases h with ⟨-, hover⟩ | ⟨-, hret⟩
  · exact .inr hover.2
  · exact .inl hret

theorem RtTable.Turned.retimed {p p' : Prop} {rt rt' rt'' : RtTable}
    (h : rt.Turned rrep ipSrc p rt') (hp : p' ↔ p) (hret : rt'.Retimed rt'') :
    rt.Turned rrep ipSrc p' rt'' := by
  unfold RtTable.Turned at h ⊢
  rw [hp]
  rcases h with ⟨hmends, hover⟩ | ⟨hnot, hold⟩
  · exact .inl ⟨hmends, hret.over_iff.mpr hover⟩
  · exact .inr ⟨hnot, hold.trans hret⟩

theorem LrRerr.Turns.step (hl : c.LinkBreaks {}) (hs : c.SparesOthers) (hwf : RtWf n)
    (hquiet : n.MendsQuietly rrep ipSrc) (h : s.Turns rrep ipSrc n l) {rt₀ : RtTable}
    (hrt₀ : n.lookup a = some rt₀) (ha : a ∉ l) :
    (lrRepairEntry c rrep ipSrc s a).Turns rrep ipSrc n (a :: l) := by
  obtain ⟨rt, hrt, hret⟩ : ∃ rt, s.node.lookup a = some rt ∧ rt₀.Retimed rt := by
    have hrel := h.entry a
    rw [hrt₀] at hrel
    obtain ⟨rt, hrt, hturned⟩ := some_optionRel hrel
    exact ⟨rt, hrt, (hturned.resolve_left fun hm => ha hm.1.1).2⟩
  have hmem : ∀ b, b ≠ a → (b ∈ a :: l ↔ b ∈ l) := fun b hb => by simp [hb]
  unfold lrRepairEntry
  rw [lrRepaired_eq, rt_of_lookup hrt]
  by_cases hmends : rt₀.Mends rrep
  · rw [if_pos (hret.mends.1.mpr hmends)]
    dsimp only
    have hsome : s.node.lookup a ≠ none := by
      rw [hrt]
      exact Option.some_ne_none rt
    have hmoved : ∀ b, Option.Rel (RtTable.MovedTo ipSrc) (n.lookup b) (s.node.lookup b) :=
      fun b => optionRel_imp (fun _ _ => RtTable.Turned.movedTo) (h.entry b)
    have hothers : ∀ b, b ≠ a → Option.Rel RtTable.Retimed (s.node.lookup b)
        ((rtTableUpdate c a ipSrc (rt.mendedHops rrep) (rt.mendedSeqno rrep) rrep.lifetime .valid 0
          s.node).lookup b) := by
      intro b hb
      refine rtTableUpdateGen_others hl hs h.wf hb none ipSrc _ _ _ _ fun hbreak => ?_
      obtain ⟨hfar, hone⟩ : rt.Breaks (rt.mendedHops rrep) := rt_of_lookup hrt ▸ hbreak
      rw [hret.mends.2] at hfar
      exact not_over_of_movedTo hwf hquiet hmoved hrt₀ hmends ⟨hfar, hret.hcnt ▸ hone⟩ hb
    obtain ⟨rt₁, rt', -, hrt', hwrite⟩ := rtTableUpdateGen_writes hl hrt none ipSrc
      (rt.mendedHops rrep) (rt.mendedSeqno rrep) rrep.lifetime .valid 0
    have hover : rt'.Over ipSrc := by
      refine ⟨?_, ?_⟩
      · rw [hwrite.state, RtTable.write_state]
      · rw [hwrite.nextHop, RtTable.write_nextHop]
    refine ⟨rtWf_of_routes (lrRerrAdd_routes a _) (h.wf.rtTableUpdateGen hl hsome none ipSrc _ _ _ _),
      fun b => ?_⟩
    rw [lookup_of_routes (lrRerrAdd_routes a _)]
    by_cases hb : b = a
    · rw [hb, hrt₀]
      unfold rtTableUpdate
      rw [hrt']
      exact .some (.inl ⟨⟨List.mem_cons_self, hmends⟩, hover⟩)
    · exact optionRel_comp (fun _ _ _ hturned => hturned.retimed (hmem b hb)) (h.entry b)
        (hothers b hb)
  · rw [if_neg fun hm => hmends (hret.mends.1.mp hm)]
    refine ⟨h.wf, fun b => ?_⟩
    by_cases hb : b = a
    · rw [hb, hrt₀, hrt]
      exact .some (.inr ⟨fun hm => hmends hm.2, hret⟩)
    · exact optionRel_imp (fun _ _ hturned => hturned.retimed (hmem b hb) (.refl _)) (h.entry b)

theorem turns_foldl (hl : c.LinkBreaks {}) (hs : c.SparesOthers) (hwf : RtWf n)
    (hquiet : n.MendsQuietly rrep ipSrc) (l' : List InAddr) :
    ∀ (l : List InAddr) (s : LrRerr), s.Turns rrep ipSrc n l → l'.Nodup → (∀ a ∈ l', a ∉ l) →
      (∀ a ∈ l', n.lookup a ≠ none) →
      (l'.foldl (lrRepairEntry c rrep ipSrc) s).Turns rrep ipSrc n (l'.reverse ++ l) := by
  induction l' with
  | nil => exact fun l s h _ _ _ => h
  | cons a l' ih =>
    intro l s h hnodup hnew hknown
    obtain ⟨ha, hnodup⟩ := List.nodup_cons.mp hnodup
    obtain ⟨rt₀, hrt₀⟩ := Option.ne_none_iff_exists'.mp (hknown a List.mem_cons_self)
    have hstep := h.step hl hs hwf hquiet hrt₀ (hnew a List.mem_cons_self)
    rw [List.reverse_cons, List.append_assoc]
    refine ih (a :: l) _ hstep hnodup (fun b hb hmem => ?_)
      fun b hb => hknown b (List.mem_cons_of_mem a hb)
    rcases List.mem_cons.mp hmem with rfl | hmem
    · exact ha hb
    · exact hnew b (List.mem_cons_of_mem a hb) hmem

theorem LrRerr.Turns.start (hwf : RtWf n) (g : InAddr) :
    LrRerr.Turns rrep ipSrc n [] { unicastDest := g, node := n } := by
  refine ⟨hwf, fun a => Node.Entrywise.of_lookup (fun rt => ?_) (fun _ => rfl) a⟩
  exact .inr ⟨fun h => List.not_mem_nil h.1, .refl rt⟩

theorem lrRerrWalk_turns (hl : c.LinkBreaks {}) (hs : c.SparesOthers) (hwf : RtWf n)
    (hquiet : n.MendsQuietly rrep ipSrc) :
    ∃ l, (∀ a, n.lookup a ≠ none → a ∈ l) ∧
      (lrRerrWalk c rrep ipSrc n).Turns rrep ipSrc n l := by
  refine ⟨(n.entries.map (·.destAddr)).reverse ++ [], fun a ha => ?_, turns_foldl hl hs hwf hquiet _ [] _
    (.start hwf _) hwf.table.nodup_entries (fun _ _ => List.not_mem_nil)
    fun _ => lookup_ne_none_of_mem hwf⟩
  obtain ⟨rt, hrt⟩ := Option.ne_none_iff_exists'.mp ha
  obtain ⟨hmem, hdest⟩ := hwf.lookup_eq_some.mp hrt
  rw [List.append_nil, List.mem_reverse]
  exact List.mem_map.mpr ⟨rt, hmem, hdest⟩

theorem origin_turns (hl : c.LinkBreaks {}) (hs : c.SparesOthers) (hwf : RtWf n) {rreplen : ℕ}
    (htakes : n.TakesLrReply rrep rreplen) (horig : rrep.origAddr = n.ipaddr)
    (hquiet : n.MendsQuietly rrep ipSrc) (ipTtl : Int) :
    n.Turns (n.LrTurns rrep rreplen ipSrc) ipSrc (rrepProcessLr c rrep rreplen ipSrc ipTtl n) := by
  obtain ⟨l, hall, hwalk⟩ := lrRerrWalk_turns hl hs hwf hquiet
  have hroutes : (rrepProcessLr c rrep rreplen ipSrc ipTtl n).routes =
      (lrRerrWalk c rrep ipSrc n).node.routes := by
    rw [rrepProcessLr_origin htakes.1 htakes.2 horig, helloKeepAlive_routes]
    exact lrRerrSend_routes _
  generalize rrepProcessLr c rrep rreplen ipSrc ipTtl n = n' at hroutes ⊢
  have hwf' : RtWf n' := rtWf_of_routes hroutes hwalk.wf
  have hentry : ∀ d, Option.Rel (RtTable.Turned rrep ipSrc (d ∈ l)) (n.lookup d) (n'.lookup d) := by
    intro d
    rw [lookup_of_routes hroutes]
    exact hwalk.entry d
  constructor
  · intro d b hroute
    have hover := hwf'.routesOver_iff.mp hroute
    have hrel := hentry d
    rw [lookup_of_over hover] at hrel
    obtain ⟨rt, hrt, ⟨⟨-, hmends⟩, hsrc⟩ | ⟨-, hret⟩⟩ := optionRel_some hrel
    · refine .inr ⟨⟨htakes, ?_⟩, hover.2.symm.trans hsrc.2⟩
      rw [if_pos horig]
      exact ⟨rt, hrt, hmends⟩
    · refine .inl (hwf.routesOver_iff.mpr ?_)
      rw [rt_of_lookup hrt]
      exact hret.over_iff.mp hover
  · intro d hd
    obtain ⟨rt, hrt, hmends⟩ := hd.mends horig
    have hrel := hentry d
    rw [hrt] at hrel
    obtain ⟨rt', hrt', hturned⟩ := some_optionRel hrel
    have hmem : d ∈ l := hall d (hrt ▸ Option.some_ne_none rt)
    rw [hwf'.routesOver_iff, rt_of_lookup hrt']
    exact (hturned.resolve_right fun h => h.1 ⟨hmem, hmends⟩).2

end Walk

/-! ## Loops -/

theorem rrepProcessLr_turns (hl : c.LinkBreaks {}) (hs : c.SparesOthers) (hlost : c.LosesLinks)
    {n : Node} (hwf : RtWf n) {rrep : RREP} {ipSrc : InAddr} (rreplen : ℕ) (ipTtl : Int)
    (hquiet : rrep.origAddr = n.ipaddr → n.MendsQuietly rrep ipSrc) :
    n.Turns (n.LrTurns rrep rreplen ipSrc) ipSrc (rrepProcessLr c rrep rreplen ipSrc ipTtl n) := by
  by_cases htakes : n.TakesLrReply rrep rreplen
  · by_cases horig : rrep.origAddr = n.ipaddr
    · exact origin_turns hl hs hwf htakes horig (hquiet horig) ipTtl
    · exact forwarder_turns hl hs hlost hwf htakes horig ipTtl
  · have hsame : rrepProcessLr c rrep rreplen ipSrc ipTtl n = n := by
      unfold rrepProcessLr
      by_cases hlen : rreplen < rrepSize
      · rw [if_pos hlen]
      · rw [if_neg hlen, if_pos (by_contra fun hdest => htakes ⟨not_lt.mp hlen, hdest⟩)]
    rw [hsame]
    exact ⟨fun d b h => .inl h, fun d h => absurd h.1 htakes⟩

/-- In a loop-free network the reply closes a loop exactly when the sender has a way to the receiver
for a destination that is turned. Where links break at the repairing node, no loop closes if the
sender has none for any destination looked at. -/
theorem lr_reply_loopFree_iff (hl : c.LinkBreaks {}) (hs : c.SparesOthers) (hlost : c.LosesLinks)
    {P : Process} {a : InAddr} (hwf : RtWf (P.node a)) (hfree : P.LoopFree) (rrep : RREP)
    (rreplen : ℕ) (ipSrc : InAddr) (ipTtl : Int) :
    ((rrep.origAddr = (P.node a).ipaddr → (P.node a).MendsQuietly rrep ipSrc) →
      ((P.put a (rrepProcessLr c rrep rreplen ipSrc ipTtl (P.node a))).LoopFree ↔
        ∀ d, (P.node a).LrTurns rrep rreplen ipSrc d → ¬ P.Reaches d ipSrc a)) ∧
    ((∀ d, (P.node a).LrTouches rrep rreplen d → ¬ P.Reaches d ipSrc a) →
      (P.put a (rrepProcessLr c rrep rreplen ipSrc ipTtl (P.node a))).LoopFree) := by
  refine ⟨fun hquiet => ?_, fun hnone => ?_⟩
  · have hturns := rrepProcessLr_turns hl hs hlost hwf rreplen ipTtl hquiet
    exact hfree.put_iff hturns.only hturns.all
  · obtain ⟨hwf', honly⟩ := rrepProcessLr_turnsOnly hl hwf rrep rreplen ipSrc ipTtl
    exact hfree.put (fun d b => honly.routesOver hwf hwf') hnone

/-! ## A reply that comes back -/

namespace ReplyOverLoop

open Detour (ext after)

/-- Agent 4 looks for 9, and 1, 2 and 3 learn the way back to it, one over the other. -/
def searched : Process :=
  after (Process.init repairConf ext fun _ => { now := 0 }) 4 1000 (.recv (ownData 4 9))

def heardBy1 : Process := after searched 1 2000 (.recv (searched.aired 4 0))

def heardBy2 : Process := after heardBy1 2 3000 (.recv (heardBy1.aired 1 0))

def heardBy3 : Process := after heardBy2 3 4000 (.recv (heardBy2.aired 2 0))

/-- The link from 3 to 2 is gone, and 3 asks for 2 and lists 4. -/
def repairing : Process := after heardBy3 3 5000 (.packetFailed { ownData 3 4 with nextHop := 2 })

def passed : Process := after repairing 1 6000 (.recv (repairing.aired 3 9))

/-- Agent 2 answers for 2 and for 4, which it reaches over 1. -/
def replied : Process := after passed 2 7000 (.recv (passed.aired 1 11))

def hosts : Set InAddr := {1, 2, 3, 4}

theorem replied_network : Network (fun _ _ _ => True) repairConf ext hosts replied := by
  have hmem : (1 : InAddr) ∈ hosts ∧ (2 : InAddr) ∈ hosts ∧ (3 : InAddr) ∈ hosts ∧
      (4 : InAddr) ∈ hosts := by simp [hosts]
  obtain ⟨h1, h2, h3, h4⟩ := hmem
  refine .step _ (legal_of_aired _ h2 (by decide +kernel) (.inl (by decide +kernel))) trivial ?_
  refine .step _ (legal_of_aired _ h1 (by decide +kernel) (.inl (by decide +kernel))) trivial ?_
  refine .step _ ⟨h3, trivial, fun _ h => by cases h⟩ trivial ?_
  refine .step _ (legal_of_aired _ h3 (by decide +kernel) (.inl (by decide +kernel))) trivial ?_
  refine .step _ (legal_of_aired _ h2 (by decide +kernel) (.inl (by decide +kernel))) trivial ?_
  refine .step _ (legal_of_aired _ h1 (by decide +kernel) (.inl (by decide +kernel))) trivial ?_
  refine .step _ (legal_of_data _ h4 (by decide)) trivial ?_
  exact .init fun _ => { now := 0 }

/-- Every next hop is a smaller number, and the destination the smallest. -/
def rank (d x : InAddr) : ℕ := if x = d then 0 else x.toNat

theorem replied_descends {d x y : InAddr} (h : replied.Forwards d x y) : rank d y < rank d x := by
  obtain ⟨rt, hrt, rfl, hvalid, rfl⟩ := h
  by_cases hx : x = 1 ∨ x = 2 ∨ x = 3 ∨ x = 4
  · revert rt
    rcases hx with rfl | rfl | rfl | rfl
    all_goals decide +kernel
  · simp only [not_or] at hx
    obtain ⟨h1, h2, h3, h4⟩ := hx
    have hstep : ∀ (P : Process) (a : InAddr) (now : Time) (e : Event), x ≠ a →
        (after P a now e).node x = P.node x := fun P a now e hne => Function.update_of_ne hne _ _
    unfold replied passed repairing heardBy3 heardBy2 heardBy1 searched at hrt
    rw [hstep _ _ _ _ h2, hstep _ _ _ _ h1, hstep _ _ _ _ h3, hstep _ _ _ _ h3,
      hstep _ _ _ _ h2, hstep _ _ _ _ h1, hstep _ _ _ _ h4] at hrt
    obtain ⟨i, hi⟩ := HashTable.mem_entries.mp hrt
    cases hi

theorem replied_loopFree : replied.LoopFree := fun d =>
  NextHopGraph.loopFree_of_rank (rank d) fun _ _ => replied_descends

def reply : RREP := (replied.aired 2 9).reply.getD (rrepCreate 0 0 0 0 0 0)

theorem replied_reply : (replied.aired 2 9).reply = some reply := by
  have hsome : (replied.aired 2 9).reply.isSome := by decide +kernel
  obtain ⟨rrep, hrrep⟩ := Option.isSome_iff_exists.mp hsome
  unfold reply
  rw [hrrep]
  rfl

def turned : Process :=
  replied.put 1 (rrepProcessLr ⟨repairConf, ext, { now := 8000 }⟩ reply (replied.aired 2 9).len
    (replied.aired 2 9).saddr (replied.aired 2 9).ttl (replied.node 1))

theorem replied_rtWf : RtWf (replied.node 3) :=
  reachable_rtWf (described_within trivial (fun _ _ h => h) sampleLog repairConf)
    (replied_network.agent 3).reachable

theorem node3_mendsQuietly : (replied.node 3).MendsQuietly reply 1 := by
  unfold Node.MendsQuietly RtTable.Breaks RtTable.Over
  decide +kernel

theorem node3_turns {d : InAddr} (h : (replied.node 3).LrTurns reply rrepSize 1 d) :
    ¬ replied.Reaches d 1 3 := by
  intro hback
  have horig : reply.origAddr = (replied.node 3).ipaddr := by decide +kernel
  have hmends : ∀ rt ∈ (replied.node 3).entries, rt.Mends reply → rt.destAddr ≠ 3 := by
    decide +kernel
  obtain ⟨rt, hrt, hmend⟩ := h.mends horig
  obtain ⟨hmem, hdest⟩ := replied_rtWf.lookup_eq_some.mp hrt
  have hne : (3 : InAddr) ≠ d := fun he => hmends rt hmem hmend (hdest.trans he.symm)
  have hle := NextHopGraph.rank_le (rank d) (fun _ _ => replied_descends) hback
  have hfar : rank d 3 = (3 : InAddr).toNat := if_neg hne
  have hnear : rank d 1 ≤ (1 : InAddr).toNat := by
    unfold rank
    split
    · exact Nat.zero_le _
    · exact Nat.le_refl _
  have hthree : (3 : InAddr).toNat = 3 := rfl
  have hone : (1 : InAddr).toNat = 1 := rfl
  omega

end ReplyOverLoop

theorem repaired_routes_loop_free :
    (ReplyOverLoop.replied.put 3 (rrepProcessLr ⟨repairConf, Detour.ext, { now := 8000 }⟩
      ReplyOverLoop.reply rrepSize 1 10 (ReplyOverLoop.replied.node 3))).LoopFree :=
  ((lr_reply_loopFree_iff (c := ⟨repairConf, Detour.ext, { now := 8000 }⟩)
    (described_linkBreaks sampleLog repairConf _) (described_sparesOthers sampleLog repairConf _)
    (fun a _ hwf => neighborLinkBreakDescribed_losesLink a hwf) ReplyOverLoop.replied_rtWf
    ReplyOverLoop.replied_loopFree ReplyOverLoop.reply rrepSize 1 10).1
    fun _ => ReplyOverLoop.node3_mendsQuietly).mpr fun _ => ReplyOverLoop.node3_turns

/-- Agent 2 sends the reply to 1, over which it reaches 4, and 1 turns its route to 4 to 2. -/
theorem lr_reply_closes_loop :
    ¬ ∀ P, Network (fun _ _ _ => True) repairConf Detour.ext ReplyOverLoop.hosts P → P.LoopFree →
      ∀ a ∈ ReplyOverLoop.hosts, ∀ q rrep env, P.Carries a q → q.reply = some rrep → rrep.lr →
        (P.put a (rrepProcessLr ⟨repairConf, Detour.ext, env⟩ rrep q.len q.saddr q.ttl
          (P.node a))).LoopFree := by
  intro hall
  have hmem : (1 : InAddr) ∈ ReplyOverLoop.hosts := by simp [ReplyOverLoop.hosts]
  have hcarries := (legal_of_aired (P := ReplyOverLoop.replied) { now := 8000 } hmem
    (b := 2) (k := 9) (by decide +kernel) (.inr (by decide +kernel))).air _ rfl (by decide +kernel)
  have hfree : ReplyOverLoop.turned.LoopFree := hall _ ReplyOverLoop.replied_network
    ReplyOverLoop.replied_loopFree 1 hmem _ _ { now := 8000 } hcarries
    ReplyOverLoop.replied_reply (by decide +kernel)
  have hroute : ∀ x y : InAddr, ((ReplyOverLoop.turned.node x).entries.any fun rt =>
      rt.destAddr = 4 ∧ rt.state = .valid ∧ rt.nextHop = y) = true →
      ReplyOverLoop.turned.Forwards 4 x y := by
    intro x y hany
    obtain ⟨rt, hrt, hrt'⟩ := List.any_eq_true.mp hany
    exact ⟨rt, hrt, of_decide_eq_true hrt'⟩
  have hloop : ([1, 2, 1] : List InAddr).IsChain (ReplyOverLoop.turned.Forwards 4) :=
    .cons_cons (hroute 1 2 (by decide +kernel))
      (.cons_cons (hroute 2 1 (by decide +kernel)) (.singleton 1))
  exact absurd (hfree 4 _ hloop) (by decide)

end AodvUU

import AodvUU.Updates
import AodvUU.SeekList

/-! # The routes a forwarder takes from a local repair reply

The forwarder stores a route over the sender for every listed destination and then for the one
the reply is about. Storing the sender's own entry can break the link to it, and the routes
stored before are lost again. -/
namespace AodvUU

variable {c : Ctx}

/-! ## What the reply lists -/

def Ext.answered : Ext → Option Udest
  | .rrepUdest ud => some ud
  | _ => none

/-- The destinations that a reply lists with their numbers. -/
def RREP.udests (rrep : RREP) : List Udest := rrep.exts.filterMap Ext.answered

/-- The destinations for which routes are stored, one call after the other. -/
def RREP.routed (rrep : RREP) : List InAddr := rrep.udests.map (·.destAddr) ++ [rrep.destAddr]

theorem rrepLrUdests_eq (rrep : RREP) (ipSrc : InAddr) (n : Node) :
    rrepLrUdests c rrep ipSrc n =
      (rrep.udests.map (·.destAddr)).foldl (fun n a => rrepLrRoute c rrep ipSrc a n) n := by
  unfold rrepLrUdests RREP.udests
  generalize rrep.exts = exts
  induction exts generalizing n with
  | nil => rfl
  | cons e exts ih =>
    rw [List.foldl_cons, ih]
    cases e <;> rfl

theorem rrepLr_routed (rrep : RREP) (ipSrc : InAddr) (n : Node) :
    rrepLrRoute c rrep ipSrc rrep.destAddr (rrepLrUdests c rrep ipSrc n) =
      rrep.routed.foldl (fun n a => rrepLrRoute c rrep ipSrc a n) n := by
  unfold RREP.routed
  rw [rrepLrUdests_eq, List.foldl_append]
  rfl

/-! ## One route -/

/-- There is a valid route to `a` over `next`, with the number `seqno`. -/
def Node.Leads (n : Node) (a next : InAddr) (seqno : BitVec 32) : Prop :=
  ∃ rt, n.lookup a = some rt ∧ rt.state = .valid ∧ rt.nextHop = next ∧ rt.destSeqno = seqno

theorem Node.Leads.of_course {n n' : Node} {a next : InAddr} {seqno : BitVec 32}
    (h : n.Leads a next seqno) (hc : n'.course a = n.course a) : n'.Leads a next seqno := by
  obtain ⟨rt, hrt, hstate, hnext, hseqno⟩ := h
  unfold Node.course at hc
  rw [hrt, Option.map_some] at hc
  obtain ⟨rt', hrt', heq⟩ := Option.map_eq_some_iff.mp hc
  exact ⟨rt', hrt', (congrArg Course.state heq).trans hstate,
    (congrArg Course.nextHop heq).trans hnext, (congrArg Course.destSeqno heq).trans hseqno⟩

theorem rt_course {n n' : Node} {a : InAddr} (h : n'.course a = n.course a) :
    (n'.rt a).course = (n.rt a).course := by
  unfold Node.course at h
  unfold Node.rt
  cases hrt : n.lookup a with
  | none =>
    rw [hrt] at h
    rw [Option.map_eq_none_iff.mp h]
  | some rt =>
    rw [hrt, Option.map_some] at h
    obtain ⟨rt', hrt', heq⟩ := Option.map_eq_some_iff.mp h
    rw [hrt']
    exact heq

theorem rt_hcnt_of_ages {n n' : Node} {a : InAddr}
    (h : Option.Rel RtTable.Ages (n.lookup a) (n'.lookup a)) : (n'.rt a).hcnt = (n.rt a).hcnt := by
  unfold Node.rt
  generalize n.lookup a = x at h ⊢
  generalize n'.lookup a = y at h ⊢
  cases h with
  | some hage => exact hage.hcnt
  | none => rfl

structure Reroutes (rrep : RREP) (ipSrc a : InAddr) (n n' : Node) : Prop where
  wf : RtWf n'
  leads : n'.Leads a ipSrc rrep.destSeqno
  hcnt : (n'.rt a).hcnt = rrep.hcnt + 1
  ages : ∀ b, b ≠ a → Option.Rel RtTable.Ages (n.lookup b) (n'.lookup b)
  spares : ∀ b, b ≠ a → ((n.rt a).Breaks (rrep.hcnt + 1) → ¬ (n.rt b).Over a) →
    n'.course b = n.course b
  breaks : (n.rt a).Breaks (rrep.hcnt + 1) → ∀ b rt', b ≠ a → n'.lookup b = some rt' →
    rt'.nextHop = a → rt'.state = .invalid

section Route

variable {rrep : RREP} {ipSrc a : InAddr} {n : Node}

theorem rtTableUpdate_reroutes (hl : c.LinkBreaks {}) (hs : c.SparesOthers) (hlost : c.LosesLinks)
    (hwf : RtWf n) {rt : RtTable} (hrt : n.lookup a = some rt) (flags : BitVec 16) :
    Reroutes rrep ipSrc a n (rtTableUpdate c a ipSrc (rrep.hcnt + 1) rrep.destSeqno rrep.lifetime
      .valid flags n) := by
  have hsome : n.lookup a ≠ none := by
    rw [hrt]
    exact Option.some_ne_none rt
  obtain ⟨rt₁, rt', -, hrt', hret⟩ := rtTableUpdateGen_writes hl hrt none ipSrc (rrep.hcnt + 1)
    rrep.destSeqno rrep.lifetime .valid flags
  obtain ⟨_, -, hinst⟩ := rtTableUpdateGen_installs hl hrt none ipSrc (rrep.hcnt + 1)
    rrep.destSeqno rrep.lifetime .valid flags
  unfold rtTableUpdate
  constructor
  · exact hwf.rtTableUpdateGen hl hsome none _ _ _ _ _
  · refine ⟨rt', hrt', ?_, ?_, ?_⟩
    · rw [hret.state, RtTable.write_state]
    · rw [hret.nextHop, RtTable.write_nextHop]
    · rw [hret.destSeqno, RtTable.write_destSeqno]
  · rw [rt_of_lookup hrt', hret.hcnt, RtTable.write_hcnt]
  · exact hinst.others
  · exact fun b hb hover => rtTableUpdateGen_course_other hl hs hwf hb none _ _ _ _ _ hover
  · exact fun hbreak b rt' hb => rtTableUpdateGen_breaks hlost hwf none _ _ _ _ _ hbreak hb

theorem rtTableInsert_reroutes (hl : c.LinkBreaks {}) (hs : c.SparesOthers) (hlost : c.LosesLinks)
    (hwf : RtWf n) (hnone : n.lookup a = none) :
    Reroutes rrep ipSrc a n (rtTableUpdate c a ipSrc (rrep.hcnt + 1) rrep.destSeqno rrep.lifetime
      .valid 0 (rtTableInsert c a ipSrc (rrep.hcnt + 1) rrep.destSeqno rrep.lifetime .valid 0 n)) := by
  obtain ⟨⟨rt₁, hrt₁, hret₁⟩, hothers⟩ := rtTableInsert_stores (c := c) hnone ipSrc (rrep.hcnt + 1)
    rrep.destSeqno rrep.lifetime .valid 0
  have hinst := rtTableInsert_installs (c := c) hnone ipSrc (rrep.hcnt + 1) rrep.destSeqno
    rrep.lifetime .valid 0
  have hwf₁ : RtWf (rtTableInsert c a ipSrc (rrep.hcnt + 1) rrep.destSeqno rrep.lifetime .valid 0 n) :=
    effects_preserve_rtWf hwf (rtTableInsert_effects trivial a ipSrc _ _ _ _ _ n)
  generalize rtTableInsert c a ipSrc (rrep.hcnt + 1) rrep.destSeqno rrep.lifetime .valid 0 n = n₁ at *
  have h : Reroutes rrep ipSrc a n₁ _ := rtTableUpdate_reroutes hl hs hlost hwf₁ hrt₁ 0
  have hold : ¬ (n.rt a).Breaks (rrep.hcnt + 1) := by
    intro hbreak
    have hdefault : n.rt a = default := by simp [Node.rt, hnone]
    rw [hdefault] at hbreak
    exact absurd hbreak.2 (by decide)
  have hnew : ¬ (n₁.rt a).Breaks (rrep.hcnt + 1) := by
    rintro ⟨hfar, hone⟩
    rw [rt_of_lookup hrt₁, hret₁.hcnt] at hone
    have heq : rrep.hcnt + 1 = 1 := hone
    rw [heq] at hfar
    exact absurd hfar (by decide)
  constructor
  · exact h.wf
  · exact h.leads
  · exact h.hcnt
  · exact fun b hb => optionRel_trans (R := RtTable.Ages) (fun _ _ _ => RtTable.Ages.trans)
      (hinst.others b hb) (h.ages b hb)
  · intro b hb _
    rw [h.spares b hb fun hbreak => absurd hbreak hnew]
    exact course_of_retimed (hothers b hb)
  · exact fun hbreak => absurd hbreak hold

theorem rrepLrRoute_reroutes (hl : c.LinkBreaks {}) (hs : c.SparesOthers) (hlost : c.LosesLinks)
    (hwf : RtWf n) : Reroutes rrep ipSrc a n (rrepLrRoute c rrep ipSrc a n) := by
  unfold rrepLrRoute
  rw [hwf.rtTableFind_eq_lookup]
  cases hrt : n.lookup a with
  | none => exact rtTableInsert_reroutes hl hs hlost hwf hrt
  | some rt => exact rtTableUpdate_reroutes hl hs hlost hwf hrt rt.flags

end Route

/-! ## One route after the other -/

section Run

variable {rrep : RREP} {ipSrc : InAddr}

abbrev lrRoutes (c : Ctx) (rrep : RREP) (ipSrc : InAddr) (l : List InAddr) (n : Node) : Node :=
  l.foldl (fun n a => rrepLrRoute c rrep ipSrc a n) n

/-- The calls for the destinations of `l` lead all of them over the sender, and leave the other
routes over the sender as they are. -/
structure RerouteAll (rrep : RREP) (ipSrc : InAddr) (l : List InAddr) (n n' : Node) : Prop where
  wf : RtWf n'
  leads : ∀ a ∈ l, n'.Leads a ipSrc rrep.destSeqno
  hcnt : ipSrc ∉ l → (n'.rt ipSrc).hcnt = (n.rt ipSrc).hcnt
  spares : ∀ b, b ∉ l → (n.rt b).nextHop = ipSrc → n'.course b = n.course b

theorem lrRoutes_rerouteAll (hl : c.LinkBreaks {}) (hs : c.SparesOthers) (hlost : c.LosesLinks)
    (l : List InAddr) {n : Node} (hwf : RtWf n)
    (hsafe : ipSrc ∈ l → ¬ (n.rt ipSrc).Breaks (rrep.hcnt + 1)) :
    RerouteAll rrep ipSrc l n (lrRoutes c rrep ipSrc l n) := by
  induction l generalizing n with
  | nil => exact ⟨hwf, nofun, fun _ => rfl, fun _ _ _ => rfl⟩
  | cons a l ih =>
    have hstep : Reroutes rrep ipSrc a n (rrepLrRoute c rrep ipSrc a n) :=
      rrepLrRoute_reroutes hl hs hlost hwf
    have hhcnt : a ≠ ipSrc →
        ((rrepLrRoute c rrep ipSrc a n).rt ipSrc).hcnt = (n.rt ipSrc).hcnt := fun ha =>
      rt_hcnt_of_ages (hstep.ages ipSrc (Ne.symm ha))
    have hrest : RerouteAll rrep ipSrc l (rrepLrRoute c rrep ipSrc a n)
        (lrRoutes c rrep ipSrc l (rrepLrRoute c rrep ipSrc a n)) := by
      refine ih hstep.wf fun hmem => ?_
      rintro ⟨hfar, hone⟩
      by_cases ha : a = ipSrc
      · subst ha
        rw [← hstep.hcnt, hone] at hfar
        exact absurd hfar (by decide)
      · rw [hhcnt ha] at hone
        exact hsafe (List.mem_cons_of_mem a hmem) ⟨hfar, hone⟩
    refine ⟨hrest.wf, fun b hb => ?_, fun hnot => ?_, fun b hb hnext => ?_⟩
    · by_cases hbl : b ∈ l
      · exact hrest.leads b hbl
      · have hba : b = a := (List.mem_cons.mp hb).resolve_right hbl
        rw [hba] at hbl ⊢
        obtain ⟨rt, hrt, -, hnext, -⟩ := hstep.leads
        refine hstep.leads.of_course (hrest.spares a hbl ?_)
        rw [rt_of_lookup hrt]
        exact hnext
    · have ha : a ≠ ipSrc := fun he => hnot (he ▸ List.mem_cons_self)
      exact (hrest.hcnt fun hmem => hnot (List.mem_cons_of_mem a hmem)).trans (hhcnt ha)
    · have hba : b ≠ a := fun he => hb (he ▸ List.mem_cons_self)
      have hfirst : (rrepLrRoute c rrep ipSrc a n).course b = n.course b := by
        refine hstep.spares b hba fun hbreak hover => ?_
        have ha : a = ipSrc := hover.2.symm.trans hnext
        rw [ha] at hbreak
        exact hsafe (ha ▸ List.mem_cons_self) hbreak
      have hlast := hrest.spares b (fun hmem => hb (List.mem_cons_of_mem a hmem))
        ((congrArg Course.nextHop (rt_course hfirst)).trans hnext)
      exact hlast.trans hfirst

/-- The link to the sender breaks: the routes stored before are lost unless they are stored
again. -/
theorem lrRoutes_broken (hl : c.LinkBreaks {}) (hs : c.SparesOthers) (hlost : c.LosesLinks)
    {pre : List InAddr} (hpre : ipSrc ∉ pre) (post : List InAddr) {n : Node} (hwf : RtWf n)
    (hbreak : (n.rt ipSrc).Breaks (rrep.hcnt + 1)) :
    (∀ a, a = ipSrc ∨ a ∈ post →
      (lrRoutes c rrep ipSrc (pre ++ ipSrc :: post) n).Leads a ipSrc rrep.destSeqno) ∧
    ∀ a ∈ pre, a ∉ post →
      ((lrRoutes c rrep ipSrc (pre ++ ipSrc :: post) n).rt a).state = .invalid := by
  have hfirst : RerouteAll rrep ipSrc pre n (lrRoutes c rrep ipSrc pre n) :=
    lrRoutes_rerouteAll hl hs hlost pre hwf fun hmem => absurd hmem hpre
  unfold lrRoutes
  rw [List.foldl_append, List.foldl_cons]
  change RerouteAll rrep ipSrc pre n (pre.foldl _ n) at hfirst
  generalize pre.foldl (fun n a => rrepLrRoute c rrep ipSrc a n) n = n₁ at hfirst ⊢
  have hstep : Reroutes rrep ipSrc ipSrc n₁ (rrepLrRoute c rrep ipSrc ipSrc n₁) :=
    rrepLrRoute_reroutes hl hs hlost hfirst.wf
  have hbreak₁ : (n₁.rt ipSrc).Breaks (rrep.hcnt + 1) := ⟨hbreak.1, by
    rw [hfirst.hcnt hpre]
    exact hbreak.2⟩
  generalize rrepLrRoute c rrep ipSrc ipSrc n₁ = n₂ at hstep ⊢
  have hlast : RerouteAll rrep ipSrc post n₂ (lrRoutes c rrep ipSrc post n₂) := by
    refine lrRoutes_rerouteAll hl hs hlost post hstep.wf fun _ => ?_
    rintro ⟨hfar, hone⟩
    rw [← hstep.hcnt, hone] at hfar
    exact absurd hfar (by decide)
  constructor
  · intro a ha
    by_cases hmem : a ∈ post
    · exact hlast.leads a hmem
    · have heq : a = ipSrc := ha.resolve_right hmem
      subst heq
      obtain ⟨rt, hrt, -, hnext, -⟩ := hstep.leads
      refine hstep.leads.of_course (hlast.spares a hmem ?_)
      rw [rt_of_lookup hrt]
      exact hnext
  · intro a ha hnot
    have hne : a ≠ ipSrc := fun he => hpre (he ▸ ha)
    obtain ⟨rt, hrt, -, hnext, -⟩ := hfirst.leads a ha
    have hage := hstep.ages a hne
    rw [hrt] at hage
    obtain ⟨rt₂, hrt₂, hage₂⟩ := some_optionRel hage
    have hinvalid := hstep.breaks hbreak₁ a rt₂ hne hrt₂ (hage₂.nextHop.trans hnext)
    have hkept := hlast.spares a hnot (by
      rw [rt_of_lookup hrt₂]
      exact hage₂.nextHop.trans hnext)
    have hstate := congrArg Course.state (rt_course hkept)
    rw [rt_of_lookup hrt₂] at hstate
    exact hstate.trans hinvalid

end Run

/-! ## The whole reply -/

theorem rrepLrRelay_course (rrep : RREP) (rreplen : ℕ) (rev : Option InAddr) (ipTtl : Int)
    (b : InAddr) (n : Node) : (rrepLrRelay c rrep rreplen rev ipTtl n).course b = n.course b := by
  unfold rrepLrRelay
  cases rev with
  | none => rfl
  | some rev =>
    dsimp only
    split
    · exact rrepForward_course _ _ _ _ _ b n
    · rfl

theorem rrepProcessLr_forwarder {rrep : RREP} {rreplen : ℕ} {n : Node} (hlen : rrepSize ≤ rreplen)
    (hdest : rrep.destAddr ≠ n.ipaddr) (horig : rrep.origAddr ≠ n.ipaddr) (ipSrc : InAddr)
    (ipTtl : Int) (b : InAddr) : (rrepProcessLr c rrep rreplen ipSrc ipTtl n).course b =
      (lrRoutes c rrep ipSrc rrep.routed n).course b := by
  unfold rrepProcessLr rrepLrForwarder
  rw [if_neg (by omega), if_neg hdest, if_neg horig, course_of_routes (helloKeepAlive_routes _)]
  dsimp only
  rw [rrepLrRelay_course, course_of_routes (rrepAcknowledge_routes _ _), rrepLr_routed]

/-- The sender is a neighbour and becomes a destination further away, after a route over it was
stored that is not stored again. -/
def Node.Undercut (n : Node) (rrep : RREP) (ipSrc : InAddr) : Prop :=
  (1 < (rrep.hcnt + 1).toNat ∧ (n.rt ipSrc).hcnt = 1) ∧
    ∃ pre post, rrep.routed = pre ++ ipSrc :: post ∧ ipSrc ∉ pre ∧ ∃ a ∈ pre, a ∉ post

section Whole

variable {rrep : RREP} {ipSrc : InAddr} {n : Node}

theorem lrRoutes_leads (hl : c.LinkBreaks {}) (hs : c.SparesOthers) (hlost : c.LosesLinks)
    (hwf : RtWf n) (hsafe : ¬ n.Undercut rrep ipSrc) {a : InAddr} (ha : a ∈ rrep.routed) :
    (lrRoutes c rrep ipSrc rrep.routed n).Leads a ipSrc rrep.destSeqno := by
  by_cases hbreak : ipSrc ∈ rrep.routed ∧ (n.rt ipSrc).Breaks (rrep.hcnt + 1)
  · obtain ⟨pre, post, heq, hpre⟩ := List.eq_append_cons_of_mem hbreak.1
    have hfinal := lrRoutes_broken hl hs hlost hpre post hwf hbreak.2
    rw [heq] at ha ⊢
    refine hfinal.1 a ?_
    rcases List.mem_append.mp ha with hmem | hmem
    · refine .inr (by_contra fun hnot => hsafe ?_)
      exact ⟨hbreak.2, pre, post, heq, hpre, a, hmem, hnot⟩
    · exact List.mem_cons.mp hmem
  · have hall : RerouteAll rrep ipSrc rrep.routed n (lrRoutes c rrep ipSrc rrep.routed n) :=
      lrRoutes_rerouteAll hl hs hlost _ hwf fun hmem hb => hbreak ⟨hmem, hb⟩
    exact hall.leads a ha

theorem lrRoutes_number (hl : c.LinkBreaks {}) (hs : c.SparesOthers) (hlost : c.LosesLinks)
    (hwf : RtWf n) {a : InAddr} (ha : a ∈ rrep.routed) {seqno : BitVec 32}
    (h : (lrRoutes c rrep ipSrc rrep.routed n).Leads a ipSrc seqno) : seqno = rrep.destSeqno := by
  have hsame : (lrRoutes c rrep ipSrc rrep.routed n).Leads a ipSrc rrep.destSeqno →
      seqno = rrep.destSeqno := by
    rintro ⟨rt, hrt, -, -, hnum⟩
    obtain ⟨rt', hrt', -, -, hnum'⟩ := h
    cases hrt.symm.trans hrt'
    exact hnum'.symm.trans hnum
  by_cases hcut : n.Undercut rrep ipSrc
  · obtain ⟨hbreak, pre, post, heq, hpre, -⟩ := hcut
    have hfinal := lrRoutes_broken hl hs hlost hpre post hwf hbreak
    rw [heq] at ha h hsame
    by_cases hpost : a = ipSrc ∨ a ∈ post
    · exact hsame (hfinal.1 a hpost)
    · have hmem : a ∈ pre := by
        rcases List.mem_append.mp ha with hmem | hmem
        · exact hmem
        · exact absurd (List.mem_cons.mp hmem) hpost
      have hinvalid := hfinal.2 a hmem fun hp => hpost (.inr hp)
      obtain ⟨rt, hrt, hvalid, -⟩ := h
      rw [rt_of_lookup hrt, hvalid] at hinvalid
      cases hinvalid
  · exact hsame (lrRoutes_leads hl hs hlost hwf hcut ha)

theorem mem_routed {ud : Udest} (h : ud ∈ rrep.udests) : ud.destAddr ∈ rrep.routed :=
  List.mem_append.mpr (.inl (List.mem_map_of_mem h))

/-- A forwarder stores each listed destination with its own number exactly when all numbers of
the reply are the same and no stored route is lost to a broken link. -/
theorem forwarder_stores_numbers_iff (hl : c.LinkBreaks {}) (hs : c.SparesOthers)
    (hlost : c.LosesLinks) (hwf : RtWf n) {rreplen : ℕ} (ipTtl : Int) (hlen : rrepSize ≤ rreplen)
    (hdest : rrep.destAddr ≠ n.ipaddr) (horig : rrep.origAddr ≠ n.ipaddr) :
    ((∀ ud ∈ rrep.udests,
        (rrepProcessLr c rrep rreplen ipSrc ipTtl n).Leads ud.destAddr ipSrc ud.destSeqno) ∧
      (rrepProcessLr c rrep rreplen ipSrc ipTtl n).Leads rrep.destAddr ipSrc rrep.destSeqno) ↔
    (∀ ud ∈ rrep.udests, ud.destSeqno = rrep.destSeqno) ∧ ¬ n.Undercut rrep ipSrc := by
  have hcourse := rrepProcessLr_forwarder (c := c) hlen hdest horig ipSrc ipTtl
  have hleads : ∀ a seqno, (rrepProcessLr c rrep rreplen ipSrc ipTtl n).Leads a ipSrc seqno ↔
      (lrRoutes c rrep ipSrc rrep.routed n).Leads a ipSrc seqno := fun a seqno =>
    ⟨fun h => h.of_course (hcourse a).symm, fun h => h.of_course (hcourse a)⟩
  have hown : rrep.destAddr ∈ rrep.routed :=
    List.mem_append.mpr (.inr (List.mem_singleton_self _))
  simp only [hleads]
  constructor
  · rintro ⟨hlisted, hself⟩
    refine ⟨fun ud hud => lrRoutes_number hl hs hlost hwf (mem_routed hud) (hlisted ud hud), ?_⟩
    rintro ⟨hbreak, pre, post, heq, hpre, a, ha, hnot⟩
    have hinvalid := (lrRoutes_broken hl hs hlost hpre post hwf hbreak).2 a ha hnot
    rw [← heq] at hinvalid
    have hmem : a ∈ rrep.routed := heq ▸ List.mem_append.mpr (.inl ha)
    obtain ⟨rt, hrt, hvalid, -⟩ : ∃ rt, (lrRoutes c rrep ipSrc rrep.routed n).lookup a = some rt ∧
        rt.state = .valid ∧ True := by
      rcases List.mem_append.mp hmem with hlist | hN
      · obtain ⟨ud, hud, rfl⟩ := List.mem_map.mp hlist
        obtain ⟨rt, hrt, hvalid, -⟩ := hlisted ud hud
        exact ⟨rt, hrt, hvalid, trivial⟩
      · obtain ⟨rt, hrt, hvalid, -⟩ := hself
        exact ⟨rt, List.mem_singleton.mp hN ▸ hrt, hvalid, trivial⟩
    rw [rt_of_lookup hrt, hvalid] at hinvalid
    cases hinvalid
  · rintro ⟨hsame, hsafe⟩
    refine ⟨fun ud hud => ?_, lrRoutes_leads hl hs hlost hwf hsafe hown⟩
    rw [hsame ud hud]
    exact lrRoutes_leads hl hs hlost hwf hsafe (mem_routed hud)

end Whole

/-! ## Two replies about agent 3 -/

/-- Agent 3 replies to 7 and lists 4 with the number `seqno`. -/
def replyListing4 (seqno : BitVec 32) : RREP :=
  rrepAddUdest (rrepCreate rrepLocalRepair 0 3 6 7 600) 4 seqno

theorem listed_number_stored :
    (rrepProcessLr (sampleCtx 1) (replyListing4 6) 42 2 10 (heardNode 5)).Leads 4 2 6 ∧
      (rrepProcessLr (sampleCtx 1) (replyListing4 6) 42 2 10 (heardNode 5)).Leads 3 2 6 := by
  have hwf : RtWf (heardNode 5) := reachable_rtWf
    (described_within trivial (fun _ _ h => h) sampleLog {}) (heardNode_reachable 5)
  obtain ⟨hlisted, hself⟩ := (forwarder_stores_numbers_iff (c := sampleCtx 1)
    (described_linkBreaks sampleLog {} _) (described_sparesOthers sampleLog {} _)
    ((described_documented sampleLog {}).losesLink _) hwf 10
    (show rrepSize ≤ 42 by decide) (show (replyListing4 6).destAddr ≠ (heardNode 5).ipaddr by decide)
    (by decide)).mpr ⟨by decide, fun hcut => absurd hcut.1.1 (by decide)⟩
  exact ⟨hlisted ⟨4, 6⟩ (by decide), hself⟩

/-- The number of 3 is stored for 4. -/
theorem listed_number_not_stored :
    ¬ ∀ (rrep : RREP) (rreplen : ℕ) (ipSrc : InAddr) (ipTtl : Int) (n : Node),
      Reachable {} (.described sampleLog {}) 1 n → rrepSize ≤ rreplen →
      rrep.destAddr ≠ n.ipaddr → rrep.origAddr ≠ n.ipaddr →
      (∀ ud ∈ rrep.udests, ud.destAddr ≠ rrep.destAddr ∧ ud.destAddr ≠ n.ipaddr) →
      (∀ ud ∈ rrep.udests, (rrepProcessLr (sampleCtx 1) rrep rreplen ipSrc ipTtl n).Leads
        ud.destAddr ipSrc ud.destSeqno) ∧
      (rrepProcessLr (sampleCtx 1) rrep rreplen ipSrc ipTtl n).Leads rrep.destAddr ipSrc
        rrep.destSeqno := by
  intro hall
  obtain ⟨hlisted, -⟩ := hall (replyListing4 9) 42 2 10 (heardNode 5) (heardNode_reachable 5)
    (by decide) (by decide) (by decide) (by decide)
  obtain ⟨rt, hrt, -, -, hnum⟩ := hlisted ⟨4, 9⟩ (by decide)
  have hstored : (((rrepProcessLr (sampleCtx 1) (replyListing4 9) 42 2 10 (heardNode 5)).lookup 4).map
      RtTable.destSeqno) = some 6 := by
    decide +kernel
  rw [hrt, Option.map_some, hnum] at hstored
  exact absurd hstored (by decide)

end AodvUU

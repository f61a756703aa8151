import AodvUU.ConsecutiveHellos
import AodvUU.DestSeqno
import AodvUU.LrReplies
import AodvUU.ReportBuffer

/-! # Numbers that are stored untested

Hellos, route errors and replies to a local repair carry numbers that their handlers store
without a comparison. Nothing else takes the number of an entry back. -/
namespace AodvUU

variable {c : Ctx} {n n' : Node} {d : InAddr}

def Node.number (n : Node) (d : InAddr) : Option (BitVec 32) := (n.course d).map (·.destSeqno)

theorem number_eq (n : Node) (d : InAddr) : n.number d = (n.lookup d).map (·.destSeqno) := by
  unfold Node.number Node.course
  rw [Option.map_map]
  rfl

theorem number_of_lookup {rt : RtTable} (h : n.lookup d = some rt) :
    n.number d = some rt.destSeqno := by
  rw [number_eq, h]
  rfl

theorem number_of_course (h : n'.course d = n.course d) : n'.number d = n.number d :=
  congrArg (Option.map Course.destSeqno) h

theorem older_iff_number : n.Older n' d ↔
    ∃ v v', n.number d = some v ∧ n'.number d = some v' ∧ v ≠ 0 ∧ fresher v v' := by
  rw [number_eq, number_eq]
  constructor
  · rintro ⟨rt, rt', hrt, hrt', h0, hf⟩
    exact ⟨_, _, by rw [hrt]; rfl, by rw [hrt']; rfl, h0, hf⟩
  · rintro ⟨v, v', hv, hv', h0, hf⟩
    exact older_of_numbers v v' hv hv' h0 hf

theorem not_older_of_number (h : n'.number d = n.number d) : ¬ n.Older n' d := by
  rw [older_iff_number]
  rintro ⟨v, v', hv, hv', -, hf⟩
  cases hv.symm.trans (h.symm.trans hv')
  simp [fresher, BitVec.slt_iff_toInt_lt] at hf

/-! ## Hellos -/

variable (c) in
def helloFlags (hello : RREP) (n : Node) : BitVec 16 :=
  let flags : BitVec 16 := match n.lookup hello.destAddr with
    | none => 0
    | some rt => (rt.flags.setWidth 8).setWidth 16
  let flags := if c.conf.unidirHack then flags ||| rtUnidir else flags
  (helloExts n.ipaddr hello.exts (msecs helloInterval, flags)).2

variable (c) in
/-- A Hello renews the route, which neither leads over several hops nor awaits more Hellos. -/
def Node.HelloRenews (n : Node) (hello : RREP) (rt : RtTable) : Prop :=
  ¬ (hasFlag (helloFlags c hello n) rtUnidir ∧ rt.state = .valid ∧ 1 < rt.hcnt.toNat) ∧
  ¬ (c.conf.receiveNHellos ≠ 0 ∧ (rt.helloCnt.toNat : Int) < c.conf.receiveNHellos - 1)

instance (hello : RREP) (rt : RtTable) : Decidable (n.HelloRenews c hello rt) :=
  inferInstanceAs (Decidable (_ ∧ _))

theorem helloProcess_helloFlags (hwf : RtWf n) (hello : RREP) :
    ∃ n', n'.routes = n.routes ∧
      helloProcess c hello n = helloRoute c hello hello.announced (helloFlags c hello n) n' := by
  have hroutes : (helloAcknowledge c hello (helloCount hello (helloRecord hello n))).routes =
      n.routes := by simp
  refine ⟨_, hroutes, ?_⟩
  unfold helloProcess
  dsimp only
  generalize helloAcknowledge c hello (helloCount hello (helloRecord hello n)) = n₁ at hroutes
  have hip : n₁.ipaddr = n.ipaddr := congrArg Routes.ipaddr hroutes
  rw [(rtWf_of_routes hroutes hwf).rtTableFind_eq_lookup, lookup_of_routes hroutes, hip,
    helloExts_fst n.ipaddr 0 hello.exts (msecs helloInterval) _ 0]
  rfl

theorem helloUpdateTimeout_number (a : InAddr) (t : Time) (n : Node) :
    (helloUpdateTimeout c a t n).number d = n.number d := by
  refine number_of_course (course_modRt ?_ ?_ a d n) <;> exact fun _ => rfl

theorem helloRoute_number (hwf : RtWf n) (hello : RREP) (interval : BitVec 32)
    (flags : BitVec 16) {rt : RtTable} (hrt : n.lookup hello.destAddr = some rt) :
    (helloRoute c hello interval flags n).number hello.destAddr = some
      (if ¬ (hasFlag flags rtUnidir ∧ rt.state = .valid ∧ 1 < rt.hcnt.toNat) ∧
        ¬ (c.conf.receiveNHellos ≠ 0 ∧ (rt.helloCnt.toNat : Int) < c.conf.receiveNHellos - 1)
      then hello.destSeqno else rt.destSeqno) := by
  unfold helloRoute
  dsimp only
  rw [hwf.rtTableFind_eq_lookup, hrt]
  dsimp only
  by_cases hmulti : hasFlag flags rtUnidir ∧ rt.state = .valid ∧ 1 < rt.hcnt.toNat
  · rw [if_pos hmulti, if_neg fun h => h.1 hmulti, helloUpdateTimeout_number]
    exact number_of_lookup hrt
  · rw [if_neg hmulti]
    by_cases hcount : c.conf.receiveNHellos ≠ 0 ∧
        (rt.helloCnt.toNat : Int) < c.conf.receiveNHellos - 1
    · rw [if_pos hcount, if_neg fun h => h.2 hcount, ← number_of_lookup hrt]
      refine number_of_course (course_modRt ?_ ?_ _ _ n) <;> exact fun _ => rfl
    · have hmod := lookup_modRt_self (RtTable.write_destAddr c.now hello.destAddr 1 hello.destSeqno
        (msecs allowedHelloLoss * interval + msecs routeTimeoutSlack) .valid
        (updateFlags (n.rt hello.destAddr) .valid flags) none) hrt
      obtain ⟨rt₁, hrt₁, htimed⟩ := Node.Entrywise.lookup_eq_some (rtTableUpdate_oneHop (c := c)
        hello.destAddr hello.destSeqno (msecs allowedHelloLoss * interval + msecs routeTimeoutSlack)
        .valid flags n) hmod
      rw [if_neg hcount, if_pos ⟨hmulti, hcount⟩, helloUpdateTimeout_number, number_of_lookup hrt₁,
        htimed.destSeqno, RtTable.write_destSeqno]

theorem helloRoute_number_other (hwf : RtWf n) {hello : RREP} (hd : d ≠ hello.destAddr)
    (interval : BitVec 32) (flags : BitVec 16) :
    (helloRoute c hello interval flags n).number d = n.number d := by
  have hmod : ∀ (f : RtTable → RtTable) (n' : Node), (∀ rt, (f rt).destAddr = rt.destAddr) →
      (n'.modRt hello.destAddr f).number d = n'.number d := by
    intro f n' hf
    rw [number_eq, number_eq, lookup_modRt_other hf hd]
  unfold helloRoute
  dsimp only
  rw [hwf.rtTableFind_eq_lookup]
  cases hrt : n.lookup hello.destAddr with
  | none =>
    dsimp only
    rw [helloUpdateTimeout_number]
    refine (hmod _ _ ?_).trans (number_of_course (course_of_retimed
      ((rtTableInsert_stores hrt _ _ _ _ _ flags).2 d hd)))
    exact fun _ => rfl
  | some rt =>
    dsimp only
    split
    · exact helloUpdateTimeout_number _ _ n
    · split
      · refine hmod _ n ?_
        exact fun _ => rfl
      · have htimed := rtTableUpdate_oneHop (c := c) (a := hello.destAddr) hello.destAddr
          hello.destSeqno (msecs allowedHelloLoss * interval + msecs routeTimeoutSlack) .valid
          flags n
        rw [helloUpdateTimeout_number, number_of_course (course_of_retimed (htimed d))]
        exact hmod _ n (RtTable.write_destAddr _ _ _ _ _ _ _ _)

theorem helloProcess_older_iff (hwf : RtWf n) (hello : RREP) :
    n.Older (helloProcess c hello n) d ↔ d = hello.destAddr ∧
      ∃ rt, n.lookup d = some rt ∧ n.HelloRenews c hello rt ∧ rt.destSeqno ≠ 0 ∧
        fresher rt.destSeqno hello.destSeqno := by
  obtain ⟨n₁, hroutes, heq⟩ := helloProcess_helloFlags (c := c) hwf hello
  have hwf₁ := rtWf_of_routes hroutes hwf
  have hlook : ∀ a, n₁.lookup a = n.lookup a := fun a => lookup_of_routes hroutes
  rw [heq]
  by_cases hd : d = hello.destAddr
  · subst hd
    rw [older_iff_number]
    constructor
    · rintro ⟨v, v', hv, hv', h0, hf⟩
      rw [number_eq] at hv
      obtain ⟨rt, hrt, rfl⟩ := Option.map_eq_some_iff.mp hv
      rw [helloRoute_number hwf₁ hello _ _ ((hlook _).trans hrt)] at hv'
      cases hv'
      by_cases hrenew : n.HelloRenews c hello rt
      · unfold Node.HelloRenews at hrenew
        rw [if_pos hrenew] at hf
        exact ⟨rfl, rt, hrt, hrenew, h0, hf⟩
      · unfold Node.HelloRenews at hrenew
        rw [if_neg hrenew] at hf
        simp [fresher, BitVec.slt_iff_toInt_lt] at hf
    · rintro ⟨-, rt, hrt, hrenew, h0, hf⟩
      refine ⟨_, _, number_of_lookup hrt,
        helloRoute_number hwf₁ hello _ _ ((hlook _).trans hrt), h0, ?_⟩
      unfold Node.HelloRenews at hrenew
      rw [if_pos hrenew]
      exact hf
  · refine iff_of_false (not_older_of_number ?_) fun h => hd h.1
    rw [helloRoute_number_other hwf₁ hd, number_eq, number_eq, hlook]

/-! ## Route errors -/

/-- The number that a RERR leaves for a route over its sender: the one listed first, since the
route is lost with it, or the one listed last when nothing is deleted. -/
def listedNumber (nodelete : Bool) (d : InAddr) : List Udest → Option (BitVec 32)
  | [] => none
  | ud :: uds =>
    if ud.destAddr = d then
      if nodelete then (listedNumber nodelete d uds).or (some ud.destSeqno) else some ud.destSeqno
    else listedNumber nodelete d uds

section Walk

variable {rerr : RERR} {src : InAddr} {w : RerrWalk} {ud : Udest}

theorem rerrNote_course (rerr : RERR) (ud : Udest) (w : RerrWalk) (b : InAddr) :
    (rerrNote rerr ud w).node.course b = w.node.course b := by
  have hadd : (rerrAdd rerr ud.destAddr w).node.course b = w.node.course b := by
    rw [rerrAdd_buffer]
    exact course_of_tbl rfl b
  unfold rerrNote
  dsimp only
  split
  · refine Eq.trans (course_modRt ?_ ?_ _ b _) hadd <;> exact fun _ => rfl
  · exact hadd

theorem rerrStep_entry (hwf : RtWf w.node) (rerr : RERR) (src : InAddr) (ud : Udest) (b : InAddr) :
    (rerrStep c rerr src w ud).node.number b =
        (if ud.destAddr = b ∧ (w.node.rt b).Over src then some ud.destSeqno
        else w.node.number b) ∧
      (((rerrStep c rerr src w ud).node.rt b).Over src ↔
        (w.node.rt b).Over src ∧ (ud.destAddr = b → rerr.n = true)) := by
  rw [rerrStep_eq]
  by_cases hover : (w.node.rt ud.destAddr).Over src
  · rw [(rerrEnter_eq_some hwf).mpr ⟨hover, rfl⟩, Option.map_some, Option.getD_some]
    obtain ⟨f, hf, hlook⟩ := rerrApply_lookup (c := c) rerr ud w.node
    have hnote := rerrNote_course rerr ud { w with node := rerrApply c rerr ud w.node } b
    have hsame := hlook b
    rw [number_of_course hnote, over_of_course (rt_course hnote)]
    by_cases hb : ud.destAddr = b
    · subst hb
      rw [if_pos rfl, lookup_of_over hover, Option.map_some] at hsame
      rw [if_pos ⟨rfl, hover⟩, number_of_lookup hsame, rt_of_lookup hsame]
      obtain ⟨hreport, hstate, hseqno⟩ := hf (w.node.rt ud.destAddr)
      refine ⟨congrArg some hseqno, ?_⟩
      unfold RtTable.Over
      rw [hreport.nextHop, hstate]
      cases rerr.n <;> simp
    · rw [if_neg hb] at hsame
      rw [if_neg fun h => hb h.1, number_eq, number_eq, hsame, rt_of_same hsame]
      exact ⟨rfl, fun h => ⟨h, fun he => absurd he hb⟩, And.left⟩
  · have hnone : rerrEnter c rerr src ud w = none := by
      cases henter : rerrEnter c rerr src ud w with
      | none => rfl
      | some w' => exact absurd ((rerrEnter_eq_some hwf).mp henter).1 hover
    have hskip : ¬ (ud.destAddr = b ∧ (w.node.rt b).Over src) := fun h => hover (h.1 ▸ h.2)
    rw [hnone, Option.map_none, Option.getD_none, if_neg hskip]
    exact ⟨rfl, fun h => ⟨h, fun he => absurd ⟨he, h⟩ hskip⟩, And.left⟩

theorem rerrWalk_number (rerr : RERR) (src : InAddr) (l : List Udest) {w : RerrWalk}
    (hwf : RtWf w.node) : (l.foldl (rerrStep c rerr src) w).node.number d =
      if (w.node.rt d).Over src then (listedNumber rerr.n d l).or (w.node.number d)
      else w.node.number d := by
  induction l generalizing w with
  | nil => simp [listedNumber]
  | cons ud l ih =>
    have hwf' : RtWf (rerrStep c rerr src w ud).node :=
      effects_preserve_rtWf hwf (rerrStep_effects trivial trivial rerr src w ud)
    obtain ⟨hnumber, hover⟩ := rerrStep_entry (c := c) hwf rerr src ud d
    rw [List.foldl_cons, ih hwf', hnumber, listedNumber]
    by_cases hw : (w.node.rt d).Over src
    · by_cases hd : ud.destAddr = d
      · cases hn : rerr.n with
        | true =>
          rw [if_pos (hover.mpr ⟨hw, fun _ => hn⟩), if_pos ⟨hd, hw⟩, if_pos hw, if_pos hd, if_pos rfl,
            Option.or_assoc]
          rfl
        | false =>
          rw [if_neg fun h => by simpa [hn] using (hover.mp h).2 hd, if_pos ⟨hd, hw⟩, if_pos hw,
            if_pos hd]
          rfl
      · rw [if_pos (hover.mpr ⟨hw, fun he => absurd he hd⟩), if_neg fun h => hd h.1, if_pos hw,
          if_neg hd]
    · rw [if_neg fun h => hw (hover.mp h).1, if_neg fun h => hw h.2, if_neg hw]

end Walk

def RERR.Heeded (rerr : RERR) (len : ℕ) (src : InAddr) (recs : List RerrRecord) : Prop :=
  rerrRecordFind recs rerr.rerrOriginAddr rerr.rerrId src = none ∧ rerrCalcSize (.rerr rerr) ≤ len

theorem rerrProcess_older_iff (hwf : RtWf n) (rerr : RERR) (len : ℕ) (src : InAddr)
    (recs : List RerrRecord) : n.Older (rerrProcess c rerr len src recs n).2 d ↔
      rerr.Heeded len src recs ∧ ∃ rt v, n.lookup d = some rt ∧ rt.Over src ∧
        listedNumber rerr.n d rerr.walk = some v ∧ rt.destSeqno ≠ 0 ∧ fresher rt.destSeqno v := by
  have hself : ¬ n.Older n d := not_older_of_number rfl
  unfold rerrProcess RERR.Heeded
  split_ifs with hrec hlen
  · refine iff_of_false hself fun h => ?_
    rw [h.1.1] at hrec
    cases hrec
  · exact iff_of_false hself fun h => absurd h.1.2 (by omega)
  · have hheeded : rerrRecordFind recs rerr.rerrOriginAddr rerr.rerrId src = none ∧
        rerrCalcSize (.rerr rerr) ≤ len := ⟨by simpa using hrec, by omega⟩
    have hnumber := rerrWalk_number (c := c) (d := d) rerr src rerr.walk
      (w := { node := n }) hwf
    have hwalk : (rerrWalk c rerr src n).number d =
        (rerr.walk.foldl (rerrStep c rerr src) { node := n }).node.number d := by
      unfold rerrWalk
      dsimp only
      split
      · exact number_of_course (course_of_routes (sendRerr_routes _ _) d)
      · rfl
    rw [older_iff_number, hwalk, hnumber]
    constructor
    · rintro ⟨v, v', hv, hv', h0, hf⟩
      rw [number_eq] at hv
      obtain ⟨rt, hrt, rfl⟩ := Option.map_eq_some_iff.mp hv
      rw [number_of_lookup hrt, rt_of_lookup hrt] at hv'
      refine ⟨hheeded, rt, v', hrt, ?_⟩
      split_ifs at hv' with hover
      · cases hlist : listedNumber rerr.n d rerr.walk with
        | none =>
          rw [hlist] at hv'
          cases hv'
          simp [fresher, BitVec.slt_iff_toInt_lt] at hf
        | some v =>
          rw [hlist] at hv'
          cases hv'
          exact ⟨hover, rfl, h0, hf⟩
      · cases hv'
        simp [fresher, BitVec.slt_iff_toInt_lt] at hf
    · rintro ⟨-, rt, v, hrt, hover, hlist, h0, hf⟩
      refine ⟨_, v, number_of_lookup hrt, ?_, h0, hf⟩
      rw [rt_of_lookup hrt, if_pos hover, hlist]
      rfl

/-! ## Replies to a local repair -/

section Repair

variable {rrep : RREP} {src a : InAddr}

theorem rrepLrRoute_installs (hl : c.LinkBreaks {}) (hwf : RtWf n) (rrep : RREP) (src a : InAddr) :
    ∃ w : RtTable, w.destSeqno = rrep.destSeqno ∧ n.Installs a w (rrepLrRoute c rrep src a n) := by
  have hupdate : ∀ (n₁ : Node) (rt : RtTable) flags, n₁.lookup a = some rt →
      ∃ w : RtTable, w.destSeqno = rrep.destSeqno ∧ n₁.Installs a w
        (rtTableUpdate c a src (rrep.hcnt + 1) rrep.destSeqno rrep.lifetime .valid flags n₁) := by
    intro n₁ rt flags hrt
    obtain ⟨rt₁, -, hinst⟩ := rtTableUpdateGen_installs hl hrt none src (rrep.hcnt + 1)
      rrep.destSeqno rrep.lifetime .valid flags
    exact ⟨_, RtTable.write_destSeqno .., hinst⟩
  unfold rrepLrRoute
  rw [hwf.rtTableFind_eq_lookup]
  cases hrt : n.lookup a with
  | none =>
    have hnew := rtTableInsert_installs (c := c) hrt src (rrep.hcnt + 1) rrep.destSeqno rrep.lifetime
      .valid 0
    obtain ⟨rt₁, hrt₁, -⟩ := hnew.entry
    obtain ⟨w, hw, hinst⟩ := hupdate _ rt₁ 0 hrt₁
    refine ⟨w, hw, fun b hb => ?_, hinst.entry⟩
    exact optionRel_trans (R := RtTable.Ages) (fun _ _ _ => RtTable.Ages.trans) (hnew.others b hb)
      (hinst.others b hb)
  | some rt => exact hupdate n rt rt.flags hrt

/-- A forwarder stores the number of the reply for what it takes a route to; the other entries
age. -/
theorem lrRoutes_entry (hl : c.LinkBreaks {}) (l : List InAddr) {n : Node} (hwf : RtWf n)
    {rt' : RtTable} (hrt' : (lrRoutes c rrep src l n).lookup d = some rt') :
    (∃ rt, n.lookup d = some rt ∧ rt.Ages rt') ∨
      d ∈ l ∧ ∃ w : RtTable, w.destSeqno = rrep.destSeqno ∧ w.Ages rt' := by
  induction l generalizing n with
  | nil => exact .inl ⟨rt', hrt', .refl rt'⟩
  | cons a l ih =>
    have hwf' : RtWf (rrepLrRoute c rrep src a n) :=
      effects_preserve_rtWf hwf (rrepLrRoute_effects (updates_all hl.widen) trivial rrep src a n)
    rcases ih hwf' hrt' with ⟨rt₁, hrt₁, hage⟩ | ⟨hmem, hw⟩
    · obtain ⟨w, hw, hinst⟩ := rrepLrRoute_installs hl hwf rrep src a
      by_cases hd : d = a
      · subst hd
        obtain ⟨rt₂, hrt₂, hwage⟩ := hinst.entry
        cases hrt₁.symm.trans hrt₂
        exact .inr ⟨List.mem_cons_self, w, hw, hwage.trans hage⟩
      · have hrel := hinst.others d hd
        rw [hrt₁] at hrel
        obtain ⟨rt, hrt, hage'⟩ := optionRel_some hrel
        exact .inl ⟨rt, hrt, hage'.trans hage⟩
    · exact .inr ⟨List.mem_cons_of_mem a hmem, hw⟩

theorem lrRepairEntry_entry (hl : c.LinkBreaks {}) {s : LrRerr} {rt' : RtTable}
    (hrt' : (lrRepairEntry c rrep src s a).node.lookup d = some rt') :
    ∃ rt, s.node.lookup d = some rt ∧ (rt.Ages rt' ∨
      d = a ∧ ∃ w : RtTable, w.destSeqno = rt.mendedSeqno rrep ∧ w.Ages rt') := by
  unfold lrRepairEntry at hrt'
  rw [lrRepaired_eq] at hrt'
  by_cases hmend : (s.node.rt a).Mends rrep
  · rw [if_pos hmend] at hrt'
    dsimp only at hrt'
    rw [lookup_of_routes (lrRerrAdd_routes a _)] at hrt'
    obtain ⟨rt, hrt⟩ : ∃ rt, s.node.lookup a = some rt := by
      refine Option.ne_none_iff_exists'.mp fun hnone => ?_
      have hflag := hmend.1
      rw [Node.rt, hnone] at hflag
      exact absurd hflag (by decide)
    obtain ⟨rt₁, -, hinst⟩ := rtTableUpdateGen_installs hl hrt none src
      ((s.node.rt a).mendedHops rrep) ((s.node.rt a).mendedSeqno rrep) rrep.lifetime .valid 0
    by_cases hd : d = a
    · subst hd
      obtain ⟨rt₂, hrt₂, hwage⟩ := hinst.entry
      cases hrt'.symm.trans hrt₂
      refine ⟨rt, hrt, .inr ⟨rfl, _, ?_, hwage⟩⟩
      rw [RtTable.write_destSeqno, rt_of_lookup hrt]
    · have hrel := hinst.others d hd
      have hthere : (rtTableUpdateGen c none a src ((s.node.rt a).mendedHops rrep)
          ((s.node.rt a).mendedSeqno rrep) rrep.lifetime .valid 0 s.node).lookup d = some rt' := hrt'
      rw [hthere] at hrel
      obtain ⟨rt, hrt, hage⟩ := optionRel_some hrel
      exact ⟨rt, hrt, .inl hage⟩
  · rw [if_neg hmend] at hrt'
    exact ⟨rt', hrt', .inl (.refl rt')⟩

theorem lrRepairWalk_entry (hl : c.LinkBreaks {}) (l : List InAddr) (hnodup : l.Nodup) {s : LrRerr}
    {rt' : RtTable} (hrt' : (l.foldl (lrRepairEntry c rrep src) s).node.lookup d = some rt') :
    ∃ rt, s.node.lookup d = some rt ∧ (rt.Ages rt' ∨
      ∃ rt₁ w : RtTable, rt.Ages rt₁ ∧ w.destSeqno = rt₁.mendedSeqno rrep ∧ w.Ages rt') ∧
      (d ∉ l → rt.Ages rt') := by
  induction l generalizing s with
  | nil => exact ⟨rt', hrt', .inl (.refl rt'), fun _ => .refl rt'⟩
  | cons a l ih =>
    obtain ⟨ha, hnodup'⟩ := List.nodup_cons.mp hnodup
    obtain ⟨rt₁, hrt₁, hrest, hlast⟩ := ih hnodup' hrt'
    obtain ⟨rt, hrt, hage | ⟨rfl, w, hw, hwage⟩⟩ := lrRepairEntry_entry hl hrt₁
    · refine ⟨rt, hrt, ?_, fun hd => hage.trans (hlast fun hmem => hd (List.mem_cons_of_mem a hmem))⟩
      rcases hrest with hage' | ⟨rt₂, w, hage', hw, hwage⟩
      · exact .inl (hage.trans hage')
      · exact .inr ⟨rt₂, w, hage.trans hage', hw, hwage⟩
    · refine ⟨rt, hrt, .inr ⟨rt, w, .refl rt, hw, hwage.trans (hlast ha)⟩, fun hd => ?_⟩
      exact absurd List.mem_cons_self hd

/-- The reply is not dropped, and its number is stored for the destination. -/
def RREP.Stores (rrep : RREP) (len : ℕ) (n : Node) (d : InAddr) : Prop :=
  rrepSize ≤ len ∧ rrep.destAddr ≠ n.ipaddr ∧
    if rrep.origAddr = n.ipaddr then d = rrep.destAddr else d ∈ rrep.routed

theorem rrepProcessLr_not_older (hl : c.LinkBreaks {}) (hwf : RtWf n) (len : ℕ) (src : InAddr)
    (ttl : Int) (hd : ∀ rt, n.lookup d = some rt → rt.destSeqno ≠ maxSeqno)
    (hlost : rrep.origAddr = n.ipaddr → ∀ rt, n.lookup d = some rt → rt.state = .valid →
      seqnoIncr rt.destSeqno ≠ maxSeqno)
    (hstores : rrep.Stores len n d → rrep.destSeqno ≠ maxSeqno ∧
      ∀ rt, n.lookup d = some rt → rt.destSeqno ≠ 0 → ¬ fresher rt.destSeqno rrep.destSeqno) :
    ¬ n.Older (rrepProcessLr c rrep len src ttl n) d := by
  have hself : ¬ n.Older n d := not_older_of_number rfl
  by_cases hlen : len < rrepSize
  · unfold rrepProcessLr
    rwa [if_pos hlen]
  by_cases hdest : rrep.destAddr = n.ipaddr
  · unfold rrepProcessLr
    rwa [if_neg hlen, if_pos hdest]
  have hwrite : rrep.Stores len n d → ∀ {rt rt' w : RtTable}, n.lookup d = some rt →
      rt.destSeqno ≠ 0 → w.destSeqno = rrep.destSeqno → w.Ages rt' →
      ¬ fresher rt.destSeqno rt'.destSeqno := by
    intro hst rt rt' w hrt h0 hw hage
    obtain ⟨hmax, hfresh⟩ := hstores hst
    exact fresher_trans (hw ▸ hfresh rt hrt h0) (hage.not_older (hw ▸ hmax))
  by_cases horig : rrep.origAddr = n.ipaddr
  · rw [rrepProcessLr_origin (by omega) hdest horig]
    rintro ⟨rt, rt', hrt, hrt', h0, hf⟩
    unfold rrepLrOrigin at hrt'
    rw [lookup_of_routes (helloKeepAlive_routes _), lookup_of_routes (lrRerrSend_routes _)] at hrt'
    obtain ⟨rt₀, hrt₀, hcases, -⟩ := lrRepairWalk_entry hl _ hwf.table.nodup_entries hrt'
    cases hrt.symm.trans hrt₀
    rcases hcases with hage | ⟨rt₁, w, hage, hw, hwage⟩
    · exact hage.not_older (hd rt hrt) hf
    · unfold RtTable.mendedSeqno at hw
      split_ifs at hw with hda
      · rw [hage.destAddr, destAddr_of_lookup hrt] at hda
        exact hwrite ⟨by omega, hdest, by rwa [if_pos horig]⟩ hrt h0 hw hwage hf
      · refine fresher_trans (hage.not_older (hd rt hrt)) (hw ▸ hwage.not_older ?_) hf
        rw [hw]
        rcases hage.aged with ⟨-, hs⟩ | ⟨hvalid, -, hs⟩
        · rw [hs]
          exact hd rt hrt
        · rw [hs]
          exact hlost horig rt hrt hvalid
  · have hcourse := rrepProcessLr_forwarder (c := c) (by omega : rrepSize ≤ len) hdest horig src ttl d
    rw [older_iff_number, number_of_course hcourse]
    rintro ⟨v, v', hv, hv', h0, hf⟩
    rw [number_eq] at hv hv'
    obtain ⟨rt, hrt, rfl⟩ := Option.map_eq_some_iff.mp hv
    obtain ⟨rt', hrt', rfl⟩ := Option.map_eq_some_iff.mp hv'
    rcases lrRoutes_entry hl _ hwf hrt' with ⟨rt₀, hrt₀, hage⟩ | ⟨hmem, w, hw, hwage⟩
    · cases hrt.symm.trans hrt₀
      exact hage.not_older (hd rt hrt) hf
    · exact hwrite ⟨by omega, hdest, by rwa [if_neg horig]⟩ hrt h0 hw hwage hf

end Repair

/-! ## Every reachable state -/

/-- What takes the number of an entry back. Only Hellos, route errors and replies to a local
repair carry an older number into an entry; otherwise it is the largest number that is
incremented. -/
theorem destSeqno_not_older {cf : Conf} {ext : Extern} {a : InAddr} (hext : ext.CallsOnly cf)
    (h : Reachable cf ext a n) (env : Env) (d : InAddr) :
    ((∀ rt, n.lookup d = some rt → rt.destSeqno ≠ maxSeqno) →
      (∀ rreq len ipSrc ttl, rreq.origSeqno ≠ maxSeqno →
        ¬ n.Older (rreqProcess ⟨cf, ext, env⟩ rreq len ipSrc ttl n) d ∧
        ¬ n.Older (rreqProcessLr ⟨cf, ext, env⟩ rreq len ipSrc ttl n) d) ∧
      (∀ rrep len ipSrc ttl, ¬ rrep.lr → rrep.destSeqno ≠ maxSeqno →
        ¬ n.Older (rrepProcess ⟨cf, ext, env⟩ rrep len ipSrc ttl n) d) ∧
      (∀ rrep len ipSrc ttl,
        (rrep.origAddr = n.ipaddr → ∀ rt, n.lookup d = some rt → rt.state = .valid →
          seqnoIncr rt.destSeqno ≠ maxSeqno) →
        (rrep.Stores len n d → rrep.destSeqno ≠ maxSeqno ∧
          ∀ rt, n.lookup d = some rt → rt.destSeqno ≠ 0 → ¬ fresher rt.destSeqno rrep.destSeqno) →
        ¬ n.Older (rrepProcessLr ⟨cf, ext, env⟩ rrep len ipSrc ttl n) d) ∧
      (∀ e, ¬ n.Older (timerStep ⟨cf, ext, env⟩ e n) d)) ∧
    (∀ hello, n.Older (helloProcess ⟨cf, ext, env⟩ hello n) d ↔ d = hello.destAddr ∧
      ∃ rt, n.lookup d = some rt ∧ n.HelloRenews ⟨cf, ext, env⟩ hello rt ∧ rt.destSeqno ≠ 0 ∧
        fresher rt.destSeqno hello.destSeqno) ∧
    (∀ rerr len ipSrc recs, n.Older (rerrProcess ⟨cf, ext, env⟩ rerr len ipSrc recs n).2 d ↔
      rerr.Heeded len ipSrc recs ∧ ∃ rt v, n.lookup d = some rt ∧ rt.Over ipSrc ∧
        listedNumber rerr.n d rerr.walk = some v ∧ rt.destSeqno ≠ 0 ∧ fresher rt.destSeqno v) := by
  have hwf := (reachable_balanced hext h).wf
  have hl := hext.linkBreaks env
  have hself : ¬ n.Older n d := not_older_of_number rfl
  refine ⟨fun hd => ⟨fun rreq len ipSrc ttl hv => ⟨?_, ?_⟩, fun rrep len ipSrc ttl hlr hv => ?_,
    fun rrep len ipSrc ttl => ?_, fun e => timerStep_not_older hl n e hd⟩, ?_, ?_⟩
  · unfold rreqProcess
    split_ifs with hlr hown
    · exact rreqProcessLr_not_older hl hwf hv len ipSrc ttl hd
    · exact hself
    · exact hself
    · exact hself
    · exact rreqHandle_not_older hl hwf (by exact hown) (by exact hv) ipSrc ttl hd
  · exact rreqProcessLr_not_older hl hwf hv len ipSrc ttl hd
  · unfold rrepProcess
    split_ifs with hlen hown
    · exact hself
    · exact hself
    · exact rrepHandle_not_older hl hwf (by exact hown) (by exact hv) ipSrc ttl hd
  · exact rrepProcessLr_not_older hl hwf len ipSrc ttl hd
  · exact helloProcess_older_iff hwf
  · exact rerrProcess_older_iff hwf

/-- Agent 1 has number 5 for 2. A request with number 3 is tested, a reply with number 6 stored;
a Hello and a RERR with number 6 are not older, a RERR from 4 is not about this route. -/
theorem destSeqno_not_older_heard :
    (heardNode 5).number 2 = some 5 ∧
    ¬ (heardNode 5).Older (rreqProcess (sampleCtx 1)
      { type := aodvRreq, rreqId := 7, destAddr := 1, origAddr := 2, origSeqno := 3,
        exts := [.cost 0] } rreqCostSize 2 5 (heardNode 5)) 2 ∧
    ¬ (heardNode 5).Older (rrepProcessLr (sampleCtx 1)
      { rrepCreate rrepLocalRepair 0 3 6 7 600 with exts := [.rrepUdest ⟨2, 9⟩] } rrepSize 2 5
      (heardNode 5)) 2 ∧
    ¬ (heardNode 5).Older (helloProcess (sampleCtx 1) (rrepCreate 0 0 2 6 2 600) (heardNode 5)) 2 ∧
    (heardNode 5).Older (helloProcess (sampleCtx 1) (rrepCreate 0 0 2 4 2 600) (heardNode 5)) 2 ∧
    ¬ (heardNode 5).Older
      (rerrProcess (sampleCtx 1) (rerrCreate 0 2 6) rerrSize 2 [] (heardNode 5)).2 2 ∧
    ¬ (heardNode 5).Older
      (rerrProcess (sampleCtx 1) (rerrCreate 0 2 3) rerrSize 4 [] (heardNode 5)).2 2 := by
  have hnumber : (heardNode 5).number 2 = some 5 := by decide +kernel
  have hentry : ∀ rt, (heardNode 5).lookup 2 = some rt → rt.destSeqno = 5 := fun rt hrt =>
    Option.some.inj ((number_of_lookup hrt).symm.trans hnumber)
  obtain ⟨htested, hhello, hrerr⟩ := destSeqno_not_older (described_callsOnly sampleLog {})
    (heardNode_reachable 5) { now := 1 } 2
  obtain ⟨hrreq, -, hrepair, -⟩ := htested fun rt hrt => by
    rw [hentry rt hrt]
    decide
  refine ⟨hnumber, (hrreq _ _ _ _ (by decide)).1, hrepair _ _ _ _ ?_ fun _ => ⟨by decide, ?_⟩, ?_, ?_,
    ?_, ?_⟩
  · exact fun horig => absurd horig (by decide)
  · intro rt hrt _
    rw [hentry rt hrt]
    decide
  · rintro holder
    obtain ⟨-, rt, hrt, -, -, hf⟩ := (hhello _).mp holder
    rw [hentry rt hrt] at hf
    exact absurd hf (by decide)
  · obtain ⟨rt, hrt⟩ : ∃ rt, (heardNode 5).lookup 2 = some rt :=
      Option.isSome_iff_exists.mp (by decide +kernel)
    refine (hhello _).mpr ⟨rfl, rt, hrt, ?_, ?_, ?_⟩
    · rw [← rt_of_lookup hrt]
      decide +kernel
    · rw [hentry rt hrt]
      decide
    · rw [hentry rt hrt]
      decide
  · intro holder
    obtain ⟨-, rt, v, hrt, -, hv, -, hf⟩ := (hrerr _ _ _ _).mp holder
    have hlist : listedNumber (rerrCreate 0 2 6).n 2 (rerrCreate 0 2 6).walk = some 6 := by decide
    cases hv.symm.trans hlist
    rw [hentry rt hrt] at hf
    exact absurd hf (by decide)
  · intro holder
    obtain ⟨-, rt, v, hrt, hover, -⟩ := (hrerr _ _ _ _).mp holder
    rw [← rt_of_lookup hrt] at hover
    exact absurd hover (by decide +kernel)

/-! ## Numbers taken back -/

/-- Agent 1 asks neighbours for acknowledgements and has heard a Hello of 2. -/
def suspiciousCtx : Ctx :=
  ⟨{ unidirHack := true }, .described sampleLog { unidirHack := true }, { now := 0 }⟩

def suspiciousNode : Node :=
  (step suspiciousCtx (.recv (helloFrom 2 5 0)) ([], Node.init suspiciousCtx 1)).2

/-- A Hello, a route error and a local repair reply that carry an older number, and the largest
number in an entry that expires or in a request. -/
theorem destSeqno_older :
    (Reachable {} (.described sampleLog {}) 1 (heardNode 5) ∧
      (heardNode 5).Older
        (helloProcess (sampleCtx 0) (rrepCreate 0 0 2 3 2 600) (heardNode 5)) 2 ∧
      (heardNode 5).Older
        (rerrProcess (sampleCtx 0) (rerrCreate 0 2 3) rerrSize 2 [] (heardNode 5)).2 2 ∧
      (heardNode 5).Older
        (rrepProcessLr (sampleCtx 0) (rrepCreate rrepLocalRepair 0 2 3 7 600) rrepSize 2 5
          (heardNode 5)) 2) ∧
    (Reachable {} (.described sampleLog {}) 1 (heardNode maxSeqno) ∧
      (heardNode maxSeqno).Older
        (timerStep (sampleCtx 700000) (.rtTimer 2) (heardNode maxSeqno)) 2) ∧
    (Reachable { unidirHack := true } (.described sampleLog { unidirHack := true }) 1
        suspiciousNode ∧
      suspiciousNode.Older
        (rreqProcess suspiciousCtx
          { type := aodvRreq, rreqId := 7, destAddr := 1, origAddr := 2, origSeqno := maxSeqno,
            exts := [.cost 0] } rreqCostSize 2 5 suspiciousNode) 2) := by
  refine ⟨⟨heardNode_reachable 5, ?_, ?_, ?_⟩, ⟨heardNode_reachable maxSeqno, ?_⟩,
    ⟨.step { now := 0 } [] (.recv (helloFrom 2 5 0)) trivial (.init { now := 0 }), ?_⟩⟩
  · exact older_of_numbers 5 3 (by decide +kernel) (by decide +kernel) (by decide) (by decide)
  · exact older_of_numbers 5 3 (by decide +kernel) (by decide +kernel) (by decide) (by decide)
  · exact older_of_numbers 5 3 (by decide +kernel) (by decide +kernel) (by decide) (by decide)
  · exact older_of_numbers maxSeqno 0x80000000 (by decide +kernel) (by decide +kernel)
      (by decide) (by decide)
  · exact older_of_numbers 5 0x80000000 (by decide +kernel) (by decide +kernel) (by decide)
      (by decide)

end AodvUU

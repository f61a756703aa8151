import AodvUU.RerrWire
import AodvUU.TableInvariant

/-! # Routes lost to a route error

What a plain RERR does to the table, and the RERR it gives rise to. -/
namespace AodvUU

/-! ## Lists with repetitions -/

/-- Each destination once, with the number it is listed with first. -/
def firstUdests : List Udest → List Udest
  | [] => []
  | ud :: uds => ud :: (firstUdests uds).filter (·.destAddr ≠ ud.destAddr)

def findUdest (l : List Udest) (a : InAddr) : Option Udest := l.find? (·.destAddr = a)

theorem findUdest_cons (ud : Udest) (l : List Udest) (a : InAddr) :
    findUdest (ud :: l) a = if ud.destAddr = a then some ud else findUdest l a := by
  unfold findUdest
  rw [List.find?_cons]
  split_ifs with h <;> simp [h]

theorem findUdest_concat (l : List Udest) (ud : Udest) (a : InAddr) :
    findUdest (l ++ [ud]) a =
      (findUdest l a).or (if ud.destAddr = a then some ud else none) := by
  unfold findUdest
  rw [List.find?_append, List.find?_singleton]
  simp only [decide_eq_true_eq]

theorem firstUdests_concat (l : List Udest) (ud : Udest) :
    firstUdests (l ++ [ud]) =
      firstUdests l ++ if findUdest l ud.destAddr = none then [ud] else [] := by
  induction l with
  | nil => rfl
  | cons x l ih =>
    rw [List.cons_append, firstUdests, firstUdests, ih, findUdest_cons, List.filter_append,
      List.cons_append]
    by_cases hx : x.destAddr = ud.destAddr
    · have hdrop : ((if findUdest l ud.destAddr = none then [ud] else []).filter
          (·.destAddr ≠ x.destAddr)) = [] := by
        split <;> simp [hx]
      rw [if_pos hx, hdrop]
      simp
    · have hkeep : ((if findUdest l ud.destAddr = none then [ud] else []).filter
          (·.destAddr ≠ x.destAddr)) = if findUdest l ud.destAddr = none then [ud] else [] := by
        split <;> simp [Ne.symm hx]
      rw [if_neg hx, hkeep]

theorem firstUdests_nodup (l : List Udest) : ((firstUdests l).map (·.destAddr)).Nodup := by
  induction l with
  | nil => exact List.nodup_nil
  | cons ud l ih =>
    rw [firstUdests, List.map_cons, List.nodup_cons]
    refine ⟨fun hmem => ?_, ih.sublist (List.filter_sublist.map _)⟩
    obtain ⟨x, hx, hxa⟩ := List.mem_map.mp hmem
    simpa [hxa] using (List.mem_filter.mp hx).2

theorem mem_firstUdests {l : List Udest} {ud : Udest} :
    ud ∈ firstUdests l ↔ findUdest l ud.destAddr = some ud := by
  induction l with
  | nil => simp [firstUdests, findUdest]
  | cons x l ih =>
    rw [firstUdests, findUdest_cons, List.mem_cons, List.mem_filter, ih]
    by_cases hx : x.destAddr = ud.destAddr
    · simp [hx, eq_comm]
    · have hne : ud ≠ x := fun h => hx (congrArg Udest.destAddr h.symm)
      simp [hx, hne, Ne.symm hx]

/-! ## The table and the report -/

variable {c : Ctx}

def RtTable.Over (rt : RtTable) (a : InAddr) : Prop := rt.state = .valid ∧ rt.nextHop = a

instance (rt : RtTable) (a : InAddr) : Decidable (rt.Over a) :=
  inferInstanceAs (Decidable (_ ∧ _))

variable (c) in
/-- A route that a RERR reports lost with the number `seqno`. -/
def RtTable.lost (seqno : BitVec 32) (rt : RtTable) : RtTable :=
  { rt.invalidated c with destSeqno := seqno, precursors := [], nprec := 0 }

variable (c) in
/-- The entry of `a` behind the destinations `l` of a RERR from `src`. -/
def Node.afterRerr (n : Node) (src : InAddr) (l : List Udest) (a : InAddr) : Option RtTable :=
  (n.lookup a).map fun rt =>
    match findUdest l a with
    | none => rt
    | some ud => if rt.Over src then rt.lost c ud.destSeqno else rt

/-- Somebody uses the route, and it is not being repaired. -/
def Node.Concerns (n : Node) (src : InAddr) (ud : Udest) : Prop :=
  (n.rt ud.destAddr).Over src ∧ (n.rt ud.destAddr).precursors ≠ [] ∧
    ¬ hasFlag (n.rt ud.destAddr).flags rtRepair

instance (n : Node) (src : InAddr) (ud : Udest) : Decidable (n.Concerns src ud) :=
  inferInstanceAs (Decidable (_ ∧ _ ∧ _))

def Node.reported (n : Node) (src : InAddr) (l : List Udest) : List Udest :=
  (firstUdests l).filter (n.Concerns src ·)

def reportOf (rerr : RERR) (ud : Udest) (uds : List Udest) : RERR :=
  { rerrCreate 0 ud.destAddr ud.destSeqno with
    rerrId := rerr.rerrId
    rerrOriginAddr := rerr.rerrOriginAddr
    destCount := BitVec.ofNat 8 (uds.length + 1)
    more := uds }

/-- The report made so far is about `us`, in the state `n` found before the walk. -/
structure RerrWalk.Reports (rerr : RERR) (n : Node) (us : List Udest) (w : RerrWalk) : Prop where
  made : w.made = true ↔ us ≠ []
  message : ∀ ud uds, us = ud :: uds → w.node.sendBuf = .rerr (reportOf rerr ud uds)
  fresh : us = [] → w.unicastDest = 0
  unicast : ∀ ud, us = [ud] →
    w.unicastDest = if (n.rt ud.destAddr).precursors.length = 1
      then (n.rt ud.destAddr).precursors.headD 0 else 0

structure RerrWalk.Told (c : Ctx) (rerr : RERR) (src : InAddr) (n : Node) (l : List Udest)
    (w : RerrWalk) : Prop where
  wf : RtWf w.node
  frame : w.node = { n with
    tbl := w.node.tbl, numActive := w.node.numActive, ifqueue := w.node.ifqueue
    sendBuf := w.node.sendBuf }
  lookup : ∀ a, w.node.lookup a = n.afterRerr c src l a
  reports : w.Reports rerr n (n.reported src l)

/-! ## One destination -/

section Step

variable {n : Node} {src : InAddr} {l : List Udest} {ud : Udest}

theorem lookup_of_over {a b : InAddr} (h : (n.rt a).Over b) : n.lookup a = some (n.rt a) := by
  cases hrt : n.lookup a with
  | none =>
    have hdef : n.rt a = default := by simp [Node.rt, hrt]
    rw [hdef] at h
    cases h.1
  | some rt => rw [rt_of_lookup hrt]

/-- A destination listed again changes nothing, and neither does one without a route over the
sender. -/
theorem afterRerr_skip (h : findUdest l ud.destAddr ≠ none ∨ ¬ (n.rt ud.destAddr).Over src)
    (a : InAddr) : n.afterRerr c src (l ++ [ud]) a = n.afterRerr c src l a := by
  unfold Node.afterRerr
  cases hrt : n.lookup a with
  | none => rfl
  | some rt =>
    rw [Option.map_some, Option.map_some, findUdest_concat]
    by_cases hud : ud.destAddr = a
    · rw [if_pos hud]
      rcases h with h | h
      · obtain ⟨x, hx⟩ := Option.ne_none_iff_exists'.mp (hud ▸ h)
        rw [hx]
        rfl
      · rw [hud, rt_of_lookup hrt] at h
        cases findUdest l a with
        | none => simp [h]
        | some x => rfl
    · rw [if_neg hud, Option.or_none]

theorem reported_skip (h : findUdest l ud.destAddr ≠ none ∨ ¬ (n.rt ud.destAddr).Over src) :
    n.reported src (l ++ [ud]) = n.reported src l := by
  unfold Node.reported
  rw [firstUdests_concat, List.filter_append]
  rcases h with h | h
  · rw [if_neg h]
    simp
  · have hnot : ¬ n.Concerns src ud := fun hc => h hc.1
    split <;> simp [hnot]

theorem reported_concat (h : findUdest l ud.destAddr = none) :
    n.reported src (l ++ [ud]) = n.reported src l ++ if n.Concerns src ud then [ud] else [] := by
  unfold Node.reported
  rw [firstUdests_concat, List.filter_append, if_pos h]
  congr 1
  split_ifs with hc <;> simp [hc]

theorem afterRerr_over {rt : RtTable} (h : n.afterRerr c src l ud.destAddr = some rt)
    (hover : rt.Over src) : findUdest l ud.destAddr = none ∧ n.lookup ud.destAddr = some rt := by
  obtain ⟨rt₀, hrt₀, hrt⟩ := Option.map_eq_some_iff.mp h
  cases hfind : findUdest l ud.destAddr with
  | none =>
    rw [hfind] at hrt
    exact ⟨rfl, hrt ▸ hrt₀⟩
  | some x =>
    rw [hfind] at hrt
    dsimp only at hrt
    split at hrt
    · rw [← hrt] at hover
      cases hover.1
    · next hnot => exact (hnot (hrt ▸ hover)).elim

theorem afterRerr_lost {rt : RtTable} (hrt : n.lookup ud.destAddr = some rt)
    (hnone : findUdest l ud.destAddr = none) (hover : rt.Over src) (a : InAddr) :
    n.afterRerr c src (l ++ [ud]) a =
      if ud.destAddr = a then some (rt.lost c ud.destSeqno) else n.afterRerr c src l a := by
  unfold Node.afterRerr
  rw [findUdest_concat]
  split_ifs with hud
  · rw [← hud, hrt, hnone]
    simp [hover]
  · rw [Option.or_none]

variable {rerr : RERR} {w : RerrWalk}

theorem RerrWalk.Told.skip (h : w.Told c rerr src n l)
    (hskip : findUdest l ud.destAddr ≠ none ∨ ¬ (n.rt ud.destAddr).Over src) :
    w.Told c rerr src n (l ++ [ud]) := by
  refine ⟨h.wf, h.frame, fun a => (h.lookup a).trans (afterRerr_skip hskip a).symm, ?_⟩
  rw [reported_skip hskip]
  exact h.reports

def RtTable.renumbered (c : Ctx) (seqno : BitVec 32) (rt : RtTable) : RtTable :=
  { rt.invalidated c with destSeqno := seqno }

theorem rerrApply_plain (hn : rerr.n = false) (hlr : rerr.lr = false) (ud : Udest) (n : Node) :
    rerrApply c rerr ud n =
      (rtTableInvalidate c ud.destAddr (ifqDropByDest ud.destAddr n)).modRt ud.destAddr
        fun rt => { rt with destSeqno := ud.destSeqno } := by
  unfold rerrApply
  rw [hn, hlr]
  rfl

theorem rerrApply_frame (hn : rerr.n = false) (hlr : rerr.lr = false) (ud : Udest) (n : Node) :
    rerrApply c rerr ud n = { n with
      tbl := (rerrApply c rerr ud n).tbl
      numActive := (rerrApply c rerr ud n).numActive
      ifqueue := (rerrApply c rerr ud n).ifqueue } := by
  rw [rerrApply_plain hn hlr]
  unfold rtTableInvalidate
  split
  · rfl
  · split <;> rfl

theorem lookup_rerrApply (hn : rerr.n = false) (hlr : rerr.lr = false) {rt : RtTable}
    (hrt : n.lookup ud.destAddr = some rt) (hvalid : rt.state = .valid) (a : InAddr) :
    (rerrApply c rerr ud n).lookup a =
      if ud.destAddr = a then some (rt.renumbered c ud.destSeqno) else n.lookup a := by
  have hdrop : ∀ b, (ifqDropByDest ud.destAddr n).lookup b = n.lookup b := fun _ => rfl
  have hset := lookup_modRt (n := rtTableInvalidate c ud.destAddr (ifqDropByDest ud.destAddr n))
    (f := fun rt : RtTable => { rt with destSeqno := ud.destSeqno }) ud.destAddr a fun _ => rfl
  rw [rerrApply_plain hn hlr, hset, lookup_rtTableInvalidate, hdrop]
  split_ifs with ha
  · rw [← ha, hrt]
    simp [hvalid, RtTable.renumbered]
  · rfl

theorem RtWf.rerrApply (hn : rerr.n = false) (hlr : rerr.lr = false) (h : RtWf n) (ud : Udest) :
    RtWf (rerrApply c rerr ud n) := by
  rw [rerrApply_plain hn hlr]
  have hdrop : RtWf (ifqDropByDest ud.destAddr n) := h.of_table rfl rfl
  exact (hdrop.rtTableInvalidate ud.destAddr).modRt _ (fun _ => rfl) (fun _ => rfl) fun _ hp => hp

theorem rerrAdd_buffer (rerr : RERR) (a : InAddr) (w : RerrWalk) :
    (rerrAdd rerr a w).node = { w.node with sendBuf := (rerrAdd rerr a w).node.sendBuf } := by
  unfold rerrAdd
  dsimp only
  split_ifs <;> rfl

theorem precursorListDestroy_renumbered {rt : RtTable} (h : rt.PrecWf) (seqno : BitVec 32) :
    (rt.renumbered c seqno).precursorListDestroy = rt.lost c seqno := by
  have hzero : rt.nprec - rt.precursors.length = 0 := by
    rw [h.1]
    exact Int.sub_self _
  unfold RtTable.precursorListDestroy RtTable.lost RtTable.renumbered
  exact congrArg (fun k => { rt.invalidated c with destSeqno := seqno, precursors := [], nprec := k })
    hzero

theorem concerns_iff {rt : RtTable} (hrt : n.lookup ud.destAddr = some rt) (hover : rt.Over src)
    (h : rt.PrecWf) : n.Concerns src ud ↔ rt.nprec ≠ 0 ∧ ¬ hasFlag rt.flags rtRepair := by
  have hprec : rt.precursors ≠ [] ↔ rt.nprec ≠ 0 := by
    rw [h.1]
    simp
  unfold Node.Concerns
  rw [rt_of_lookup hrt, hprec]
  simp [hover]

theorem rerrAdd_of_not_concerns {a : InAddr}
    (h : ¬ ((w.node.rt a).nprec ≠ 0 ∧ ¬ hasFlag (w.node.rt a).flags rtRepair)) :
    rerrAdd rerr a w = w := by
  unfold rerrAdd
  exact if_neg h

theorem addUdest_reportOf (rerr : RERR) (x ud : Udest) (uds : List Udest) :
    AodvMsg.addUdest ud.destAddr ud.destSeqno (.rerr (reportOf rerr x uds)) =
      .rerr (reportOf rerr x (uds ++ [ud])) := by
  have hcount : BitVec.ofNat 8 (uds.length + 1) + 1 = BitVec.ofNat 8 ((uds ++ [ud]).length + 1) := by
    rw [List.length_append, List.length_singleton, BitVec.ofNat_add (uds.length + 1) 1]
    rfl
  unfold AodvMsg.addUdest rerrAddUdest reportOf
  dsimp only
  rw [hcount]

theorem RerrWalk.Reports.add (hn : rerr.n = false) (hlr : rerr.lr = false) {us : List Udest}
    (h : w.Reports rerr n us) {rt : RtTable} (hprec : rt.PrecWf)
    (hrt : n.lookup ud.destAddr = some rt)
    (hrt' : w.node.lookup ud.destAddr = some (rt.renumbered c ud.destSeqno))
    (hc : rt.nprec ≠ 0 ∧ ¬ hasFlag rt.flags rtRepair) :
    (rerrAdd rerr ud.destAddr w).Reports rerr n (us ++ [ud]) := by
  have hdest : (rt.renumbered c ud.destSeqno).destAddr = ud.destAddr := destAddr_of_lookup hrt'
  have hflags : newRerrFlags rerr = 0 := by
    unfold newRerrFlags
    rw [hn, hlr]
    rfl
  have hone : rt.nprec = 1 ↔ rt.precursors.length = 1 := by
    rw [hprec.1]
    exact Nat.cast_eq_one
  have hentry := rt_of_lookup hrt'
  have hc' : (rt.renumbered c ud.destSeqno).nprec ≠ 0 ∧
      ¬ hasFlag (rt.renumbered c ud.destSeqno).flags rtRepair := hc
  cases us with
  | nil =>
    have hmade : w.made = false := by simpa using h.made
    have hadd : rerrAdd rerr ud.destAddr w =
        { made := true
          unicastDest := if rt.nprec = 1 then rt.precursors.headD 0 else w.unicastDest
          node := aodvSocketNewMsg (.rerr (reportOf rerr ud [])) w.node } := by
      unfold rerrAdd
      dsimp only
      rw [hentry, if_pos hc', if_neg (by simp [hmade]), hdest, hflags]
      rfl
    rw [hadd]
    constructor
    · simp
    · intro x xs hx
      cases hx
      rfl
    · intro hx
      cases hx
    · intro x hx
      cases hx
      rw [rt_of_lookup hrt, h.fresh rfl]
      simp only [hone]
  | cons x xs =>
    have hmade : w.made = true := h.made.mpr (List.cons_ne_nil x xs)
    have hadd : ∃ dest, rerrAdd rerr ud.destAddr w =
        { w with unicastDest := dest, node := w.node.addRerrUdest ud.destAddr ud.destSeqno } := by
      unfold rerrAdd
      dsimp only
      rw [hentry, if_pos hc', if_pos hmade, hdest]
      exact ⟨_, rfl⟩
    obtain ⟨dest, hadd⟩ := hadd
    rw [hadd]
    constructor
    · simp [hmade]
    · intro y ys hy
      cases hy
      have hbuf : w.node.sendBuf = .rerr (reportOf rerr x xs) := h.message x xs rfl
      unfold Node.addRerrUdest
      dsimp only
      rw [hbuf]
      exact addUdest_reportOf rerr x ud xs
    · intro hy
      cases hy
    · intro y hy
      simp at hy

theorem rerrStep_over (hn : rerr.n = false) (hlr : rerr.lr = false) (hwf : RtWf w.node)
    {rt : RtTable} (hrt : w.node.lookup ud.destAddr = some rt) (hover : rt.Over src) :
    let w₁ := rerrAdd rerr ud.destAddr { w with node := rerrApply c rerr ud w.node }
    rerrStep c rerr src w ud = { w₁ with node := precursorListDestroy ud.destAddr w₁.node } := by
  have hrt₁ : (rerrAdd rerr ud.destAddr
      { w with node := rerrApply c rerr ud w.node }).node.lookup ud.destAddr =
      some (rt.renumbered c ud.destSeqno) := by
    rw [rerrAdd_buffer]
    exact (lookup_rerrApply hn hlr hrt hover.1 _).trans (if_pos rfl)
  unfold rerrStep
  rw [hwf.rtTableFind_eq_lookup, hrt]
  refine (if_pos hover).trans (if_pos ?_)
  rw [rt_of_lookup hrt₁]
  rfl

theorem RerrWalk.Told.over (hn : rerr.n = false) (hlr : rerr.lr = false)
    (h : w.Told c rerr src n l) {rt : RtTable} (hrt : w.node.lookup ud.destAddr = some rt)
    (hover : rt.Over src) : (rerrStep c rerr src w ud).Told c rerr src n (l ++ [ud]) := by
  obtain ⟨hnone, hrt₀⟩ := afterRerr_over ((h.lookup _).symm.trans hrt) hover
  have hprec : rt.PrecWf := h.wf.precursors rt (h.wf.lookup_eq_some.mp hrt).1
  have happly : ∀ a, (rerrApply c rerr ud w.node).lookup a =
      if ud.destAddr = a then some (rt.renumbered c ud.destSeqno) else w.node.lookup a :=
    lookup_rerrApply hn hlr hrt hover.1
  have hframe := rerrApply_frame (c := c) hn hlr ud w.node
  have hwf := h.wf.rerrApply (c := c) hn hlr ud
  rw [rerrStep_over hn hlr h.wf hrt hover]
  generalize rerrApply c rerr ud w.node = n₁ at happly hframe hwf
  have hentry : n₁.lookup ud.destAddr = some (rt.renumbered c ud.destSeqno) :=
    (happly _).trans (if_pos rfl)
  have hbuf := rerrAdd_buffer rerr ud.destAddr { w with node := n₁ }
  have hreports : (rerrAdd rerr ud.destAddr { w with node := n₁ }).Reports rerr n
      (n.reported src (l ++ [ud])) := by
    have hsame : ({ w with node := n₁ } : RerrWalk).Reports rerr n (n.reported src l) := by
      refine ⟨h.reports.made, fun x xs hx => ?_, h.reports.fresh, h.reports.unicast⟩
      rw [← h.reports.message x xs hx, hframe]
    rw [reported_concat hnone]
    by_cases hc : rt.nprec ≠ 0 ∧ ¬ hasFlag rt.flags rtRepair
    · rw [if_pos ((concerns_iff hrt₀ hover hprec).mpr hc)]
      exact hsame.add hn hlr hprec hrt₀ hentry hc
    · rw [if_neg (mt (concerns_iff hrt₀ hover hprec).mp hc), List.append_nil,
        rerrAdd_of_not_concerns (by rw [rt_of_lookup hentry]; exact hc)]
      exact hsame
  generalize rerrAdd rerr ud.destAddr { w with node := n₁ } = w₁ at hbuf hreports
  dsimp only at hbuf ⊢
  refine ⟨?_, ?_, fun a => ?_, ⟨hreports.made, hreports.message, hreports.fresh, hreports.unicast⟩⟩
  · have hwf₁ : RtWf w₁.node := by
      rw [hbuf]
      exact hwf.of_table rfl rfl
    exact hwf₁.modRt _ (fun _ => rfl) (fun _ => rfl) fun rt _ =>
      (RtTable.precursorListDestroy_keeps rt).precursors ‹_›
  · rw [hbuf, hframe, h.frame]
    rfl
  · have hlook : w₁.node.lookup a = n₁.lookup a := by
      rw [hbuf]
      rfl
    have hdestroy := lookup_modRt (n := w₁.node) (f := RtTable.precursorListDestroy) ud.destAddr a
      fun _ => rfl
    rw [afterRerr_lost hrt₀ hnone hover, ← h.lookup a]
    refine hdestroy.trans ?_
    rw [hlook, happly]
    split_ifs
    · exact congrArg some (precursorListDestroy_renumbered hprec ud.destSeqno)
    · rfl

theorem RerrWalk.Told.step (hn : rerr.n = false) (hlr : rerr.lr = false)
    (h : w.Told c rerr src n l) (ud : Udest) :
    (rerrStep c rerr src w ud).Told c rerr src n (l ++ [ud]) := by
  have hentry := h.lookup ud.destAddr
  cases hrt : w.node.lookup ud.destAddr with
  | none =>
    have hnone : n.lookup ud.destAddr = none := by
      rw [hrt] at hentry
      exact Option.map_eq_none_iff.mp hentry.symm
    have hskip : rerrStep c rerr src w ud = w := by
      unfold rerrStep
      rw [h.wf.rtTableFind_eq_lookup, hrt]
    rw [hskip]
    refine h.skip (.inr fun hover => ?_)
    cases hnone.symm.trans (lookup_of_over hover)
  | some rt =>
    by_cases hover : rt.Over src
    · exact h.over hn hlr hrt hover
    · have hskip : rerrStep c rerr src w ud = w := by
        unfold rerrStep
        rw [h.wf.rtTableFind_eq_lookup, hrt]
        exact if_neg hover
      rw [hskip]
      apply h.skip
      by_cases hfind : findUdest l ud.destAddr = none
      · right
        intro hover₀
        rw [hrt, Node.afterRerr, lookup_of_over hover₀, hfind] at hentry
        cases hentry
        exact hover hover₀
      · exact .inl hfind

theorem told_foldl (hn : rerr.n = false) (hlr : rerr.lr = false) (l' : List Udest) :
    ∀ (l : List Udest) (w : RerrWalk), w.Told c rerr src n l →
      (l'.foldl (rerrStep c rerr src) w).Told c rerr src n (l ++ l') := by
  induction l' with
  | nil =>
    intro l w h
    rw [List.append_nil]
    exact h
  | cons ud l' ih =>
    intro l w h
    rw [List.foldl_cons, List.append_cons]
    exact ih _ _ (h.step hn hlr ud)

end Step

/-! ## The whole RERR -/

theorem told_nil {n : Node} (hwf : RtWf n) (rerr : RERR) (src : InAddr) :
    RerrWalk.Told c rerr src n [] { node := n } := by
  refine ⟨hwf, rfl, fun a => ?_, by constructor <;> simp [Node.reported, firstUdests]⟩
  unfold Node.afterRerr
  cases n.lookup a <;> rfl

theorem lookup_of_tbl {n n' : Node} (h : n'.tbl = n.tbl) (a : InAddr) :
    n'.lookup a = n.lookup a := by
  unfold Node.lookup
  rw [h]

/-- The receiver of the report: one destination with one precursor has that receiver, if it is
in the table. -/
def Node.reportTo (n : Node) (ud : Udest) (uds : List Udest) : InAddr :=
  match uds, (n.rt ud.destAddr).precursors with
  | [], [a] => if a ≠ 0 ∧ n.lookup a ≠ none then a else aodvBroadcast
  | _, _ => aodvBroadcast

theorem sendRerr_reports {rerr : RERR} {src : InAddr} {n : Node} {l : List Udest} {w : RerrWalk}
    (h : w.Told c rerr src n l) {ud : Udest} {uds : List Udest} (hrep : n.reported src l = ud :: uds)
    (hlen : uds.length < 255) :
    sendRerr c w.unicastDest w.node =
      aodvSocketSend c (n.reportTo ud uds) (rerrCalcSize (.rerr (reportOf rerr ud uds))) 1 w.node := by
  have hbuf := h.reports.message ud uds hrep
  have hcount : (reportOf rerr ud uds).destCount.toNat = uds.length + 1 := by
    unfold reportOf
    rw [BitVec.toNat_ofNat]
    exact Nat.mod_eq_of_lt (by omega)
  have hpos : (reportOf rerr ud uds).destCount ≠ 0 := by
    intro hzero
    rw [hzero] at hcount
    simp at hcount
  have hfind : (rtTableFind w.node w.unicastDest).isSome = (n.lookup w.unicastDest).isSome := by
    rw [h.wf.rtTableFind_eq_lookup, h.lookup, Node.afterRerr, Option.isSome_map]
  unfold sendRerr
  dsimp only
  rw [hfind, hbuf, show AodvMsg.rerrCount (.rerr (reportOf rerr ud uds)) =
    (reportOf rerr ud uds).destCount from rfl, if_pos hpos]
  cases uds with
  | nil =>
    have hdest := h.reports.unicast ud hrep
    have hone : (reportOf rerr ud []).destCount = 1 := rfl
    unfold Node.reportTo
    rw [hdest, hone]
    generalize (n.rt ud.destAddr).precursors = ps
    match ps with
    | [] => simp
    | [a] =>
      simp only [List.length_singleton, if_true, List.headD_cons, true_and]
      by_cases ha : a ≠ 0 ∧ n.lookup a ≠ none
      · rw [if_pos ⟨Option.isSome_iff_ne_none.mpr ha.2, ha.1⟩, if_pos ha]
      · rw [if_neg fun hc => ha ⟨hc.2, Option.isSome_iff_ne_none.mp hc.1⟩, if_neg ha]
    | _ :: _ :: _ => simp
  | cons x xs =>
    have hmany : (reportOf rerr ud (x :: xs)).destCount ≠ 1 := by
      intro hone
      rw [hone] at hcount
      simp at hcount
    rw [if_neg fun hc => hmany hc.2.1]
    rfl

theorem trunc_reportOf {rerr : RERR} {ud : Udest} {uds : List Udest} (hlen : uds.length < 255) :
    AodvMsg.trunc (rerrCalcSize (.rerr (reportOf rerr ud uds))) (.rerr (reportOf rerr ud uds)) =
      .rerr (reportOf rerr ud uds) := by
  have hcount : (reportOf rerr ud uds).destCount.toNat = uds.length + 1 := by
    unfold reportOf
    rw [BitVec.toNat_ofNat]
    exact Nat.mod_eq_of_lt (by omega)
  have hpairs : (rerrCalcSize (.rerr (reportOf rerr ud uds)) - rerrSize) / rerrUdestSize =
      uds.length := by
    unfold rerrCalcSize AodvMsg.rerrCount
    dsimp only
    rw [hcount, rerrSize, rerrUdestSize]
    omega
  unfold AodvMsg.trunc
  dsimp only
  rw [hpairs]
  exact congrArg (fun m => AodvMsg.rerr { reportOf rerr ud uds with more := m }) List.take_length

/-- What a receiver reads of the report: of several destinations the second is replaced by the
number and the originator of the report, and the last is lost. -/
theorem walk_reportOf_iff {rerr : RERR} {ud : Udest} {uds : List Udest} (hlen : uds.length < 255) :
    (reportOf rerr ud uds).walk = ud :: uds ↔
      ∀ x ∈ uds, x = ⟨rerr.rerrId, rerr.rerrOriginAddr⟩ := by
  have hcounted : (reportOf rerr ud uds).Counted := by
    unfold reportOf RERR.Counted
    rw [BitVec.toNat_ofNat]
    exact Nat.mod_eq_of_lt (by omega)
  rw [RERR.walk_of_counted hcounted]
  show (ud :: (⟨rerr.rerrId, rerr.rerrOriginAddr⟩ :: uds).take uds.length) = ud :: uds ↔ _
  rw [List.cons.injEq, and_iff_right rfl]
  exact take_cons_eq_self_iff _ uds

theorem length_firstUdests_le (l : List Udest) : (firstUdests l).length ≤ l.length := by
  induction l with
  | nil => exact le_refl _
  | cons ud l ih =>
    have hfilter := List.length_filter_le (·.destAddr ≠ ud.destAddr) (firstUdests l)
    rw [firstUdests, List.length_cons, List.length_cons]
    omega

theorem length_reported_le (n : Node) (src : InAddr) (rerr : RERR) :
    (n.reported src rerr.walk).length ≤ 255 := by
  have hwalk : rerr.walk.length = rerr.destCount.toNat := by simp [RERR.walk]
  have hfilter := List.length_filter_le (fun ud => decide (n.Concerns src ud)) (firstUdests rerr.walk)
  have hfirst := length_firstUdests_le rerr.walk
  have hbyte := rerr.destCount.isLt
  unfold Node.reported
  omega

/-- A plain RERR from `src` loses the listed routes over `src`, each with the number listed first
for it, and leaves the rest of the agent but the queue below as it is. Those that somebody uses
and nobody repairs are put into one new RERR, which lists them all when there is one only, or when
the others repeat its number and originator. -/
theorem rerr_loses_and_reports (rerr : RERR) (rerrlen : ℕ) (src : InAddr) (recs : List RerrRecord)
    {n : Node} (hwf : RtWf n) (hn : rerr.n = false) (hlr : rerr.lr = false)
    (hnew : rerrRecordFind recs rerr.rerrOriginAddr rerr.rerrId src = none)
    (hlen : rerrCalcSize (.rerr rerr) ≤ rerrlen) :
    (∀ a, (rerrProcess c rerr rerrlen src recs n).2.lookup a =
      (n.lookup a).map fun rt =>
        match findUdest rerr.walk a with
        | none => rt
        | some ud => if rt.Over src then rt.lost c ud.destSeqno else rt) ∧
    (∀ ud, ud ∈ firstUdests rerr.walk ↔ findUdest rerr.walk ud.destAddr = some ud) ∧
    ((firstUdests rerr.walk).map (·.destAddr)).Nodup ∧
    ∃ n₁ : Node,
      n₁ = { n with
        tbl := n₁.tbl, numActive := n₁.numActive, ifqueue := n₁.ifqueue, sendBuf := n₁.sendBuf } ∧
      match (firstUdests rerr.walk).filter (n.Concerns src ·) with
      | [] => (rerrProcess c rerr rerrlen src recs n).2 = n₁
      | ud :: uds =>
        n₁.sendBuf = .rerr (reportOf rerr ud uds) ∧
        (controlPacket (n.reportTo ud uds) (rerrCalcSize (.rerr (reportOf rerr ud uds))) 1 n₁).msg =
          some (.rerr (reportOf rerr ud uds)) ∧
        (rerrProcess c rerr rerrlen src recs n).2 = aodvSocketSend c (n.reportTo ud uds)
          (rerrCalcSize (.rerr (reportOf rerr ud uds))) 1 n₁ ∧
        ((reportOf rerr ud uds).walk = ud :: uds ↔
          ∀ x ∈ uds, x = ⟨rerr.rerrId, rerr.rerrOriginAddr⟩) := by
  have hprocess : (rerrProcess c rerr rerrlen src recs n).2 = rerrWalk c rerr src n := by
    unfold rerrProcess
    rw [hnew, if_neg (by simp), if_neg (by omega)]
  rw [hprocess]
  have htold := told_foldl hn hlr rerr.walk [] _ (told_nil (c := c) hwf rerr src)
  rw [List.nil_append] at htold
  unfold rerrWalk
  dsimp only
  generalize rerr.walk.foldl (rerrStep c rerr src) { node := n } = w at htold
  have hlength := length_reported_le n src rerr
  cases hrep : n.reported src rerr.walk with
  | nil =>
    have hmade : w.made = false := by simpa [hrep] using htold.reports.made
    rw [hmade, if_neg Bool.false_ne_true]
    refine ⟨htold.lookup, fun _ => mem_firstUdests, firstUdests_nodup _, w.node, htold.frame, ?_⟩
    unfold Node.reported at hrep
    rw [hrep]
  | cons ud uds =>
    have hmade : w.made = true := htold.reports.made.mpr (by simp [hrep])
    have hshort : uds.length < 255 := by
      rw [hrep, List.length_cons] at hlength
      omega
    have hsend := sendRerr_reports htold hrep hshort
    have hbuf := htold.reports.message ud uds hrep
    rw [hmade, if_pos rfl, hsend]
    refine ⟨fun a => ?_, fun _ => mem_firstUdests, firstUdests_nodup _, w.node, htold.frame, ?_⟩
    · exact (lookup_of_tbl (aodvSocketSend_traffic _ _ _ _).tbl a).trans (htold.lookup a)
    · unfold Node.reported at hrep
      rw [hrep]
      refine ⟨hbuf, ?_, rfl, walk_reportOf_iff hshort⟩
      rw [controlPacket, hbuf, trunc_reportOf hshort]

theorem RtWf.precursorAdd {n : Node} (h : RtWf n) (a b : InAddr) : RtWf (precursorAdd a b n) :=
  h.modRt a (fun rt => (rt.precursorAdd_keeps b).destAddr) (fun rt => (rt.precursorAdd_keeps b).hash)
    fun rt => (rt.precursorAdd_keeps b).precursors

/-- Agent 1 after its neighbour's Hello, when 7 has begun to use the route to 2. -/
def usedNode : Node := precursorAdd 2 7 (heardNode 5)

theorem usedNode_rtWf : RtWf usedNode :=
  (reachable_rtWf (described_within trivial (fun _ _ h => h) sampleLog {})
    (heardNode_reachable 5)).precursorAdd 2 7

/-- Agent 1 has learnt of 9 and 10 behind 2, and 7 uses both routes. -/
def transitNode : Node :=
  precursorAdd 10 7 (precursorAdd 9 7 ([9, 10].foldl (fun n a =>
    (step (sampleCtx 0) (.recv (rreqFrom 2 0
      { type := aodvRreq, hcnt := 1, rreqId := 7, destAddr := 8, origAddr := a, origSeqno := 6,
        exts := [.cost 0] })) ([], n)).2) (heardNode 5)))

theorem transitNode_rtWf : RtWf transitNode :=
  ((reachable_rtWf (described_within trivial (fun _ _ h => h) sampleLog {})
    (.step { now := 0 } [] (.recv (rreqFrom 2 0 _)) trivial
      (.step { now := 0 } [] (.recv (rreqFrom 2 0 _)) trivial
        (heardNode_reachable 5)))).precursorAdd 9 7).precursorAdd 10 7

/-- The second pair is the number of the report with its originator. -/
def rerrAboutTwo : RERR :=
  { type := aodvRerr, destCount := 2, destAddr := 9, destSeqno := 8, rerrId := 10
    rerrOriginAddr := 6 }

theorem two_lost_and_reported :
    ([9, 10].map fun a => ((rerrProcess (sampleCtx 1) rerrAboutTwo 32 2 [] transitNode).2.lookup a).map
      fun rt => (rt.state, rt.destSeqno, rt.precursors)) =
        [some (.invalid, 8, []), some (.invalid, 6, [])] ∧
    ∃ n₁ : Node, n₁.sendBuf = .rerr (reportOf rerrAboutTwo ⟨9, 8⟩ [⟨10, 6⟩]) ∧
      (rerrProcess (sampleCtx 1) rerrAboutTwo 32 2 [] transitNode).2 =
        aodvSocketSend (sampleCtx 1) aodvBroadcast 32 1 n₁ ∧
      (reportOf rerrAboutTwo ⟨9, 8⟩ [⟨10, 6⟩]).walk = [⟨9, 8⟩, ⟨10, 6⟩] := by
  obtain ⟨htable, -, -, n₁, -, hsend⟩ := rerr_loses_and_reports (c := sampleCtx 1) rerrAboutTwo 32 2 []
    transitNode_rtWf rfl rfl rfl (by decide)
  have hrep : (firstUdests rerrAboutTwo.walk).filter (transitNode.Concerns 2 ·) =
      [⟨9, 8⟩, ⟨10, 6⟩] := by
    decide +kernel
  rw [hrep] at hsend
  obtain ⟨hbuf, -, hresult, hwalk⟩ := hsend
  refine ⟨?_, n₁, hbuf, hresult, hwalk.mpr fun x hx => List.mem_singleton.mp hx⟩
  simp only [List.map_cons, List.map_nil, htable]
  decide +kernel

/-- Of two destinations to be reported the second is lost. -/
def rerrAboutThree : RERR :=
  { type := aodvRerr, destCount := 3, destAddr := 9, destSeqno := 8, rerrOriginAddr := 2
    more := [⟨10, 6⟩, ⟨73, 5⟩] }

theorem reported_destination_lost :
    ¬ ∀ (c : Ctx) (rerr : RERR) (rerrlen : ℕ) (src : InAddr) (recs : List RerrRecord) (n : Node),
      RtWf n → rerr.n = false → rerr.lr = false →
      rerrRecordFind recs rerr.rerrOriginAddr rerr.rerrId src = none →
      rerrCalcSize (.rerr rerr) ≤ rerrlen → (firstUdests rerr.walk).filter (n.Concerns src ·) ≠ [] →
      ∀ m, (rerrProcess c rerr rerrlen src recs n).2.sendBuf = .rerr m →
        m.walk = (firstUdests rerr.walk).filter (n.Concerns src ·) := by
  intro hall
  have hlists := hall (sampleCtx 1) rerrAboutThree 40 2 [] transitNode transitNode_rtWf rfl rfl rfl
    (by decide) (by decide +kernel)
  have hsent : (rerrProcess (sampleCtx 1) rerrAboutThree 40 2 [] transitNode).2.sendBuf =
      .rerr (reportOf rerrAboutThree ⟨9, 8⟩ [⟨10, 6⟩]) := rfl
  exact absurd (hlists _ hsent) (by decide +kernel)

end AodvUU

import AodvUU.Retries
import AodvUU.SharedBuffer

/-! # The RERR under construction

`rerr_process` lists destinations in a RERR of its own. When the RERR is about a local repair, it
starts a route discovery for each destination before it lists it. -/
namespace AodvUU

variable {c : Ctx}

/-! ## What a discovery leaves -/

section Report

variable {n : Node} {a : InAddr} {flags : BitVec 8}

theorem rreqRouteDiscovery_lookup (a : InAddr) (flags : BitVec 8) (n : Node) :
    ∃ f : RtTable → RtTable, (∀ rt : RtTable, rt.Retimed (f rt)) ∧ ∀ b,
      (rreqRouteDiscovery c a flags n).lookup b =
        if a = b then (n.lookup b).map f else n.lookup b := by
  have hflood : ∀ v n' b, (onEachChannel (rreqSendWithChannel c a v 32 flags) n').lookup b =
      n'.lookup b := fun v n' b => lookup_of_routes
    (onEachChannel_routes (fun k n => rreqSendWithChannel_routes _ _ _ _ k n) n')
  have hsame : ∀ b, n.lookup b = if a = b then (n.lookup b).map id else n.lookup b := by
    intro b
    simp
  unfold rreqRouteDiscovery
  split
  · exact ⟨id, fun rt => .refl rt, hsame⟩
  · cases hfind : rtTableFind n a with
    | none => exact ⟨id, fun rt => .refl rt, fun b => (hflood _ _ b).trans (hsame b)⟩
    | some rt =>
      have hdest : rt.destAddr = a := destAddr_of_rtTableFind hfind
      dsimp only
      rw [hdest]
      by_cases hwait : timevalDiff (n.rt a).rtTimer.timeout c.now < 2 * netTraversalTime
      · refine ⟨(·.updateTimeout c.now (msecs (2 * netTraversalTime))),
          RtTable.Retimed.updateTimeout _ _, fun b => (hflood _ _ b).trans ?_⟩
        unfold keepWaiting
        rw [if_pos hwait]
        exact lookup_modRt a b fun rt => (RtTable.Retimed.updateTimeout c.now _ rt).destAddr
      · refine ⟨id, fun rt => .refl rt, fun b => (hflood _ _ b).trans ?_⟩
        unfold keepWaiting
        rw [if_neg hwait]
        exact hsame b

theorem rreqRouteDiscovery_sought (a : InAddr) (flags : BitVec 8) (n : Node) :
    (rreqRouteDiscovery c a flags n).sought = if a ∈ n.sought then n.sought else a :: n.sought := by
  by_cases ha : a ∈ n.sought
  · rw [if_pos ha]
    obtain ⟨s, hs⟩ := Option.ne_none_iff_exists'.mp fun hnone => seekListFind_eq_none.mp hnone ha
    unfold rreqRouteDiscovery
    rw [hs]
  · rw [if_neg ha]
    have hnone := seekListFind_eq_none.mpr ha
    obtain ⟨s, hs⟩ := rreqRouteDiscovery_starts (c := c) hnone flags
    have hdest : s.destAddr = a := by
      unfold rreqRouteDiscovery at hs
      rw [hnone] at hs
      exact congrArg SeekList.destAddr (List.cons.inj hs).1.symm
    unfold Node.sought
    rw [hs, List.map_cons, hdest]

theorem rreqRouteDiscovery_sendBuf (a : InAddr) (flags : BitVec 8) (n : Node) :
    (a ∈ n.sought → (rreqRouteDiscovery c a flags n).sendBuf = n.sendBuf) ∧
    (a ∉ n.sought → ∃ m, (rreqRouteDiscovery c a flags n).sendBuf = .rreq m) := by
  constructor
  · intro ha
    obtain ⟨s, hs⟩ := Option.ne_none_iff_exists'.mp fun hnone => seekListFind_eq_none.mp hnone ha
    unfold rreqRouteDiscovery
    rw [hs]
  · intro ha
    have hflood : ∀ v n', ∃ m, (onEachChannel (rreqSendWithChannel c a v 32 flags) n').sendBuf =
        .rreq m := by
      intro v n'
      unfold onEachChannel
      rw [show channelCount = 2 + 1 from rfl, List.range_succ, List.foldl_concat,
        rreqSendWithChannel_eq, aodvSocketSend_frame]
      exact ⟨_, rfl⟩
    unfold rreqRouteDiscovery
    rw [seekListFind_eq_none.mpr ha]
    exact hflood _ _

/-- What decides whether an entry is reported, and to whom. -/
structure RtTable.SameReport (rt rt' : RtTable) : Prop where
  nextHop : rt'.nextHop = rt.nextHop
  flags : rt'.flags = rt.flags
  nprec : rt'.nprec = rt.nprec
  precursors : rt'.precursors = rt.precursors

/-- The entry of the destination takes the number, and is invalidated unless the RERR forbids it;
no other changes. -/
theorem rerrApply_lookup (rerr : RERR) (ud : Udest) (n : Node) :
    ∃ f : RtTable → RtTable, (∀ rt : RtTable, rt.SameReport (f rt) ∧
        (f rt).state = (if rerr.n then rt.state else .invalid) ∧
        (f rt).destSeqno = ud.destSeqno) ∧ ∀ b,
      (rerrApply c rerr ud n).lookup b =
        if ud.destAddr = b then (n.lookup b).map f else n.lookup b := by
  have hfirst : ∃ f : RtTable → RtTable, (∀ rt : RtTable, rt.SameReport (f rt) ∧
      (f rt).state = if rerr.n then rt.state else .invalid) ∧ ∀ b,
      (if rerr.n then ifqDropByDest ud.destAddr n
        else rtTableInvalidate c ud.destAddr (ifqDropByDest ud.destAddr n)).lookup b =
        if ud.destAddr = b then (n.lookup b).map f else n.lookup b := by
    have hdrop : ∀ b, (ifqDropByDest ud.destAddr n).lookup b = n.lookup b := fun _ => rfl
    cases rerr.n with
    | true =>
      refine ⟨id, fun rt => ⟨⟨rfl, rfl, rfl, rfl⟩, rfl⟩, fun b => (hdrop b).trans ?_⟩
      simp
    | false =>
      refine ⟨fun rt => if rt.state = .invalid then rt else rt.invalidated c, fun rt => ?_,
        fun b => (lookup_rtTableInvalidate _ _ b).trans ?_⟩
      · dsimp only
        split
        · next hinv => exact ⟨⟨rfl, rfl, rfl, rfl⟩, hinv⟩
        · exact ⟨⟨rfl, rfl, rfl, rfl⟩, rfl⟩
      · rw [hdrop]
  obtain ⟨f, hf, hlook⟩ := hfirst
  generalize hn₁ : (if rerr.n then ifqDropByDest ud.destAddr n
    else rtTableInvalidate c ud.destAddr (ifqDropByDest ud.destAddr n)) = n₁ at hlook
  have hsecond : ∃ g : RtTable → RtTable, (∀ rt : RtTable, rt.Retimed (g rt)) ∧ ∀ b,
      (if rerr.lr then rreqRouteDiscovery c ud.destAddr 0 n₁ else n₁).lookup b =
        if ud.destAddr = b then (n₁.lookup b).map g else n₁.lookup b := by
    cases rerr.lr with
    | true => exact rreqRouteDiscovery_lookup _ _ _
    | false => exact ⟨id, fun rt => .refl rt, fun b => by simp⟩
  obtain ⟨g, hg, hlook'⟩ := hsecond
  refine ⟨fun rt => { g (f rt) with destSeqno := ud.destSeqno }, fun rt => ?_, fun b => ?_⟩
  · obtain ⟨hsame, hstate⟩ := hf rt
    have hret := hg (f rt)
    exact ⟨⟨hret.nextHop.trans hsame.nextHop, hret.flags.trans hsame.flags,
      hret.nprec.trans hsame.nprec, hret.precursors.trans hsame.precursors⟩,
      hret.state.trans hstate, rfl⟩
  · have hset := lookup_modRt (f := fun rt : RtTable => { rt with destSeqno := ud.destSeqno })
      (n := if rerr.lr then rreqRouteDiscovery c ud.destAddr 0 n₁ else n₁) ud.destAddr b fun _ => rfl
    unfold rerrApply
    dsimp only
    rw [hn₁, hset, hlook', hlook]
    split_ifs
    · cases n.lookup b <;> rfl
    · rfl

theorem rerrApply_sought (rerr : RERR) (ud : Udest) (n : Node) :
    (rerrApply c rerr ud n).sought =
      if rerr.lr ∧ ud.destAddr ∉ n.sought then ud.destAddr :: n.sought else n.sought := by
  have hfirst : (if rerr.n then ifqDropByDest ud.destAddr n
      else rtTableInvalidate c ud.destAddr (ifqDropByDest ud.destAddr n)).sought = n.sought := by
    split
    · rfl
    · exact rtTableInvalidate_sought _ _
  unfold rerrApply
  dsimp only
  generalize (if rerr.n then ifqDropByDest ud.destAddr n
    else rtTableInvalidate c ud.destAddr (ifqDropByDest ud.destAddr n)) = n₁ at hfirst ⊢
  change (if rerr.lr then rreqRouteDiscovery c ud.destAddr 0 n₁ else n₁).sought = _
  cases rerr.lr with
  | true =>
    rw [if_pos rfl, rreqRouteDiscovery_sought, hfirst]
    by_cases ha : ud.destAddr ∈ n.sought <;> simp [ha]
  | false => simpa using hfirst

theorem rerrApply_sendBuf (rerr : RERR) (ud : Udest) (n : Node) :
    (¬ (rerr.lr ∧ ud.destAddr ∉ n.sought) → (rerrApply c rerr ud n).sendBuf = n.sendBuf) ∧
    (rerr.lr ∧ ud.destAddr ∉ n.sought → ∃ m, (rerrApply c rerr ud n).sendBuf = .rreq m) := by
  have hfirst : (if rerr.n then ifqDropByDest ud.destAddr n
      else rtTableInvalidate c ud.destAddr (ifqDropByDest ud.destAddr n)).sought = n.sought ∧
      (if rerr.n then ifqDropByDest ud.destAddr n
        else rtTableInvalidate c ud.destAddr (ifqDropByDest ud.destAddr n)).sendBuf = n.sendBuf := by
    split
    · exact ⟨rfl, rfl⟩
    · exact ⟨rtTableInvalidate_sought _ _, rtTableInvalidate_sendBuf _ _⟩
  unfold rerrApply
  dsimp only
  generalize (if rerr.n then ifqDropByDest ud.destAddr n
    else rtTableInvalidate c ud.destAddr (ifqDropByDest ud.destAddr n)) = n₁ at hfirst ⊢
  obtain ⟨hsought, hbuf⟩ := hfirst
  change (_ → (if rerr.lr then rreqRouteDiscovery c ud.destAddr 0 n₁ else n₁).sendBuf = _) ∧
    (_ → ∃ m, (if rerr.lr then rreqRouteDiscovery c ud.destAddr 0 n₁ else n₁).sendBuf = .rreq m)
  obtain ⟨hkeep, hspoil⟩ := rreqRouteDiscovery_sendBuf (c := c) ud.destAddr 0 n₁
  rw [hsought] at hkeep hspoil
  rw [← hbuf]
  cases rerr.lr with
  | true => exact ⟨fun h => hkeep (by simpa using h), fun h => hspoil h.2⟩
  | false => exact ⟨fun _ => rfl, fun h => absurd h.1 (by simp)⟩

end Report

/-! ## The walk beside its message -/

/-- A message that only a route discovery leaves, or what `rerr_add_udest` makes of it. -/
def AodvMsg.Request (m : AodvMsg) : Prop := (∃ r, m = .rreq r) ∨ ∃ r uds, m = .overlaid r uds

theorem Request.addUdest {m : AodvMsg} (u : InAddr) (v : BitVec 32) :
    (m.addUdest u v).Request ↔ m.Request := by
  cases m <;> simp [AodvMsg.Request, AodvMsg.addUdest]

variable (c) in
/-- The part of the loop body before the new RERR is extended. -/
def rerrEnter (rerr : RERR) (ipSrc : InAddr) (ud : Udest) (w : RerrWalk) : Option RerrWalk :=
  match rtTableFind w.node ud.destAddr with
  | none => none
  | some rt =>
    if rt.state = .valid ∧ rt.nextHop = ipSrc then
      some { w with node := rerrApply c rerr ud w.node }
    else none

def rerrNote (rerr : RERR) (ud : Udest) (w : RerrWalk) : RerrWalk :=
  let w := rerrAdd rerr ud.destAddr w
  if (w.node.rt ud.destAddr).state = .invalid then
    { w with node := precursorListDestroy ud.destAddr w.node }
  else w

/-- What the walk writes for an entry that it has struck. -/
def rerrWrite (rerr : RERR) (a : InAddr) (w : RerrWalk) (m : Option AodvMsg) : Option AodvMsg :=
  let rt := w.node.rt a
  if rt.nprec ≠ 0 ∧ ¬ hasFlag rt.flags rtRepair then
    match m with
    | some m => some (m.addUdest rt.destAddr rt.destSeqno)
    | none =>
      some (.rerr { rerrCreate (newRerrFlags rerr) rt.destAddr rt.destSeqno with
        rerrId := rerr.rerrId
        rerrOriginAddr := rerr.rerrOriginAddr })
  else m

variable (c) in
def rerrBuild (rerr : RERR) (ipSrc : InAddr) (p : RerrWalk × Option AodvMsg) (ud : Udest) :
    RerrWalk × Option AodvMsg :=
  match rerrEnter c rerr ipSrc ud p.1 with
  | none => p
  | some w => (rerrNote rerr ud w, rerrWrite rerr ud.destAddr w p.2)

theorem rerrStep_eq (rerr : RERR) (ipSrc : InAddr) (w : RerrWalk) (ud : Udest) :
    rerrStep c rerr ipSrc w ud = ((rerrEnter c rerr ipSrc ud w).map (rerrNote rerr ud)).getD w := by
  unfold rerrStep rerrEnter
  cases rtTableFind w.node ud.destAddr with
  | none => rfl
  | some rt =>
    dsimp only
    split <;> rfl

theorem rerrEnter_eq_some {rerr : RERR} {ipSrc : InAddr} {ud : Udest} {w w' : RerrWalk}
    (hwf : RtWf w.node) : rerrEnter c rerr ipSrc ud w = some w' ↔
      (w.node.rt ud.destAddr).Over ipSrc ∧ w' = { w with node := rerrApply c rerr ud w.node } := by
  unfold rerrEnter
  rw [hwf.rtTableFind_eq_lookup]
  cases hrt : w.node.lookup ud.destAddr with
  | none =>
    refine ⟨nofun, fun h => ?_⟩
    cases hrt.symm.trans (lookup_of_over h.1)
  | some rt =>
    rw [rt_of_lookup hrt]
    dsimp only
    split
    · next hover => exact ⟨fun h => ⟨hover, (Option.some.inj h).symm⟩, fun h => congrArg some h.2.symm⟩
    · next hover => exact ⟨nofun, fun h => absurd h.1 hover⟩

theorem rerrNote_node (rerr : RERR) (ud : Udest) (w : RerrWalk) :
    (rerrNote rerr ud w).node.sendBuf = (rerrAdd rerr ud.destAddr w).node.sendBuf ∧
    (rerrNote rerr ud w).made = (rerrAdd rerr ud.destAddr w).made ∧
    (rerrNote rerr ud w).node.sought = w.node.sought := by
  have hsought : (rerrAdd rerr ud.destAddr w).node.sought = w.node.sought := by
    rw [rerrAdd_buffer]
    rfl
  unfold rerrNote
  dsimp only
  split <;> exact ⟨rfl, rfl, hsought⟩

theorem RtWf.rerrNote {w : RerrWalk} (hwf : RtWf w.node) (rerr : RERR) (ud : Udest) :
    RtWf (rerrNote rerr ud w).node := by
  have hadd : RtWf (rerrAdd rerr ud.destAddr w).node := by
    rw [rerrAdd_buffer]
    exact hwf.of_table rfl rfl
  unfold AodvUU.rerrNote
  dsimp only
  split
  · exact hadd.modRt _ (fun _ => rfl) (fun _ => rfl) fun rt _ =>
      (RtTable.precursorListDestroy_keeps rt).precursors ‹_›
  · exact hadd

/-- The node that passes a RERR on holds its own across the discoveries it starts. -/
def rerrHeld (c : Ctx) (rerr : RERR) (ipSrc : InAddr) : HeldMessage RerrWalk Udest AodvMsg where
  ok w := RtWf w.node
  buf w := w.node.sendBuf
  made := RerrWalk.made
  enter := rerrEnter c rerr ipSrc
  note := rerrNote rerr
  write ud := rerrWrite rerr ud.destAddr
  foreign := AodvMsg.Request
  spoils ud w := rerr.lr ∧ ud.destAddr ∉ w.node.sought
  enter_ok := by
    intro ud w w' hwf henter
    obtain ⟨-, rfl⟩ := (rerrEnter_eq_some hwf).mp henter
    exact effects_preserve_rtWf hwf (rerrApply_effects trivial trivial rerr ud w.node)
  enter_made := by
    intro ud w w' henter
    unfold rerrEnter at henter
    split at henter
    · cases henter
    · split at henter
      · cases henter
        rfl
      · cases henter
  enter_buf := by
    intro ud w w' hwf henter hno
    obtain ⟨-, rfl⟩ := (rerrEnter_eq_some hwf).mp henter
    exact (rerrApply_sendBuf rerr ud w.node).1 hno
  enter_foreign := by
    intro ud w w' hwf henter hyes
    obtain ⟨-, rfl⟩ := (rerrEnter_eq_some hwf).mp henter
    exact .inl ((rerrApply_sendBuf rerr ud w.node).2 hyes)
  note_ok := by
    intro ud w hwf
    exact hwf.rerrNote rerr ud
  note_made := by
    intro ud w m hmade
    rw [(rerrNote_node rerr ud w).2.1]
    unfold rerrAdd rerrWrite
    dsimp only
    split
    · cases m with
      | none => rw [hmade]; rfl
      | some m => rw [hmade]; rfl
    · exact hmade
  note_buf := by
    intro ud w m hmade hbuf b hb
    rw [(rerrNote_node rerr ud w).1]
    unfold rerrWrite at hb
    unfold rerrAdd
    dsimp only at hb ⊢
    split
    · next hlisted =>
      rw [if_pos hlisted] at hb
      cases m with
      | none =>
        rw [hmade]
        exact Option.some.inj hb
      | some m =>
        rw [hmade, ← Option.some.inj hb]
        exact congrArg (AodvMsg.addUdest _ _) (hbuf m rfl)
    · next hlisted =>
      rw [if_neg hlisted] at hb
      exact hbuf b hb
  note_foreign := by
    intro ud w hmade hf
    rw [(rerrNote_node rerr ud w).1]
    unfold rerrAdd
    dsimp only
    split
    · rw [hmade]
      exact (Request.addUdest _ _).mpr hf
    · exact hf
  write_own := by
    intro ud w m hown b hb
    unfold rerrWrite at hb
    dsimp only at hb
    split at hb
    · cases m with
      | none =>
        cases hb
        rintro (⟨r, hr⟩ | ⟨r, uds, hr⟩) <;> cases hr
      | some m =>
        cases hb
        exact fun hf => hown m rfl ((Request.addUdest _ _).mp hf)
    · exact hown b hb
  write_some := by
    intro ud w b
    unfold rerrWrite
    dsimp only
    split <;> rfl

/-! ## Discoveries that come in between -/

section Passing

variable {rerr : RERR} {ipSrc : InAddr} {n : Node}

variable (c) in
def rerrMessage (rerr : RERR) (ipSrc : InAddr) (n : Node) : Option AodvMsg :=
  (rerr.walk.foldl (rerrBuild c rerr ipSrc) ({ node := n }, none)).2

/-- Behind a destination to report comes another that is lost with the sender and not sought yet,
so that a RERR about a local repair has it sought. -/
def Node.RerrInterrupted (n : Node) (rerr : RERR) (ipSrc : InAddr) : Prop :=
  rerr.lr ∧ ∃ l₁ ud l₂, rerr.walk = l₁ ++ ud :: l₂ ∧ (∃ x ∈ l₁, n.Concerns ipSrc x) ∧
    (∀ x ∈ l₁, x.destAddr ≠ ud.destAddr) ∧ (n.rt ud.destAddr).Over ipSrc ∧ ud.destAddr ∉ n.sought

/-- The walk over a RERR about a local repair has come past the destinations `l`. -/
structure RerrWalk.Past (n : Node) (ipSrc : InAddr) (l : List Udest) (w : RerrWalk) : Prop where
  wf : RtWf w.node
  unlisted : ∀ a, (∀ x ∈ l, x.destAddr ≠ a) → w.node.lookup a = n.lookup a
  elsewhere : ∀ a, ¬ (n.rt a).Over ipSrc → w.node.lookup a = n.lookup a
  unsought : ∀ a, (∀ x ∈ l, x.destAddr ≠ a) → (a ∈ w.node.sought ↔ a ∈ n.sought)
  sought : ∀ x ∈ l, (n.rt x.destAddr).Over ipSrc → x.destAddr ∈ w.node.sought
  still : ∀ a, (w.node.rt a).Over ipSrc → (n.rt a).SameReport (w.node.rt a)
  made : w.made = true ↔ ∃ x ∈ l, n.Concerns ipSrc x

theorem rt_of_same {n n' : Node} {a : InAddr} (h : n'.lookup a = n.lookup a) : n'.rt a = n.rt a := by
  unfold Node.rt
  rw [h]

theorem RtWf.nprec_ne_zero {n : Node} (hwf : RtWf n) (a : InAddr) :
    (n.rt a).nprec ≠ 0 ↔ (n.rt a).precursors ≠ [] := by
  cases hrt : n.lookup a with
  | none =>
    unfold Node.rt
    rw [hrt]
    exact ⟨fun h => absurd rfl h, fun h => absurd rfl h⟩
  | some rt =>
    rw [rt_of_lookup hrt, (hwf.precursors rt (hwf.lookup_eq_some.mp hrt).1).1]
    simp

theorem RerrWalk.Past.skip {l : List Udest} {w : RerrWalk} (h : w.Past n ipSrc l) {ud : Udest}
    (hskip : ¬ (n.rt ud.destAddr).Over ipSrc) : w.Past n ipSrc (l ++ [ud]) := by
  have hunlisted : ∀ a, (∀ x ∈ l ++ [ud], x.destAddr ≠ a) → ∀ x ∈ l, x.destAddr ≠ a :=
    fun a ha x hx => ha x (List.mem_append_left _ hx)
  refine ⟨h.wf, fun a ha => h.unlisted a (hunlisted a ha), h.elsewhere,
    fun a ha => h.unsought a (hunlisted a ha), fun x hx hover => ?_, h.still, ?_⟩
  · rcases List.mem_append.mp hx with hx | hx
    · exact h.sought x hx hover
    · rw [List.mem_singleton.mp hx] at hover
      exact absurd hover hskip
  · rw [h.made]
    constructor
    · rintro ⟨x, hx, hc⟩
      exact ⟨x, List.mem_append_left _ hx, hc⟩
    · rintro ⟨x, hx, hc⟩
      rcases List.mem_append.mp hx with hx | hx
      · exact ⟨x, hx, hc⟩
      · rw [List.mem_singleton.mp hx] at hc
        exact absurd hc.1 hskip

theorem RtTable.SameReport.refl (rt : RtTable) : rt.SameReport rt := ⟨rfl, rfl, rfl, rfl⟩

theorem RtTable.SameReport.trans {x y z : RtTable} (h : x.SameReport y) (h' : y.SameReport z) :
    x.SameReport z :=
  ⟨h'.nextHop.trans h.nextHop, h'.flags.trans h.flags, h'.nprec.trans h.nprec,
    h'.precursors.trans h.precursors⟩

theorem RerrWalk.Past.repeated {l : List Udest} {w : RerrWalk} (h : w.Past n ipSrc l) {ud : Udest}
    (hover : (n.rt ud.destAddr).Over ipSrc) (hgone : ¬ (w.node.rt ud.destAddr).Over ipSrc) :
    w.Past n ipSrc (l ++ [ud]) := by
  obtain ⟨y, hy, hdest⟩ : ∃ y ∈ l, y.destAddr = ud.destAddr := by
    by_contra hnone
    rw [rt_of_same (h.unlisted _ fun y hy he => hnone ⟨y, hy, he⟩)] at hgone
    exact hgone hover
  refine ⟨h.wf, fun a ha => h.unlisted a fun x hx => ha x (List.mem_append_left _ hx), h.elsewhere,
    fun a ha => h.unsought a fun x hx => ha x (List.mem_append_left _ hx), fun x hx hx' => ?_,
    h.still, ?_⟩
  · rcases List.mem_append.mp hx with hx | hx
    · exact h.sought x hx hx'
    · rw [List.mem_singleton.mp hx, ← hdest]
      exact h.sought y hy (hdest ▸ hover)
  · rw [h.made]
    constructor
    · rintro ⟨x, hx, hc⟩
      exact ⟨x, List.mem_append_left _ hx, hc⟩
    · rintro ⟨x, hx, hc⟩
      rcases List.mem_append.mp hx with hx | hx
      · exact ⟨x, hx, hc⟩
      · rw [List.mem_singleton.mp hx] at hc
        refine ⟨y, hy, ?_⟩
        unfold Node.Concerns at hc ⊢
        rw [hdest]
        exact hc

theorem rerrNote_lookup (rerr : RERR) (ud : Udest) (w : RerrWalk) :
    (∀ b, b ≠ ud.destAddr → (rerrNote rerr ud w).node.lookup b = w.node.lookup b) ∧
    (((rerrNote rerr ud w).node.rt ud.destAddr).state = .valid →
      (rerrNote rerr ud w).node.lookup ud.destAddr = w.node.lookup ud.destAddr) := by
  have hadd : ∀ b, (rerrAdd rerr ud.destAddr w).node.lookup b = w.node.lookup b := by
    intro b
    rw [rerrAdd_buffer]
    rfl
  unfold rerrNote
  dsimp only
  generalize rerrAdd rerr ud.destAddr w = w₁ at hadd
  split
  · next hinv =>
    have hlook : ∀ b, (precursorListDestroy ud.destAddr w₁.node).lookup b =
        if ud.destAddr = b then (w₁.node.lookup b).map RtTable.precursorListDestroy
        else w₁.node.lookup b :=
      fun b => lookup_modRt (n := w₁.node) (f := RtTable.precursorListDestroy) ud.destAddr b
        fun _ => rfl
    refine ⟨fun b hb => ?_, fun hvalid => ?_⟩
    · rw [hlook, if_neg (Ne.symm hb), hadd]
    · have hstate : ((precursorListDestroy ud.destAddr w₁.node).rt ud.destAddr).state =
          (w₁.node.rt ud.destAddr).state := by
        unfold Node.rt
        rw [hlook, if_pos rfl]
        cases w₁.node.lookup ud.destAddr <;> rfl
      dsimp only at hvalid
      rw [hstate, hinv] at hvalid
      cases hvalid
  · exact ⟨fun b _ => hadd b, fun _ => hadd _⟩

theorem RerrWalk.Past.strike (hwf : RtWf n) (hlr : rerr.lr = true) {l : List Udest} {w : RerrWalk}
    (h : w.Past n ipSrc l) {ud : Udest} (hover : (w.node.rt ud.destAddr).Over ipSrc) :
    (rerrNote rerr ud { w with node := rerrApply c rerr ud w.node }).Past n ipSrc (l ++ [ud]) := by
  have hfrom : (n.rt ud.destAddr).Over ipSrc := by
    by_contra hno
    rw [rt_of_same (h.elsewhere _ hno)] at hover
    exact hno hover
  obtain ⟨f, hf, happly⟩ := rerrApply_lookup (c := c) rerr ud w.node
  have hentry : (rerrApply c rerr ud w.node).lookup ud.destAddr =
      some (f (w.node.rt ud.destAddr)) := by
    rw [happly, if_pos rfl, lookup_of_over hover]
    rfl
  have hsame : (n.rt ud.destAddr).SameReport (f (w.node.rt ud.destAddr)) :=
    (h.still _ hover).trans (hf _).1
  have hwf₁ : RtWf (rerrApply c rerr ud w.node) :=
    effects_preserve_rtWf h.wf (rerrApply_effects trivial trivial rerr ud w.node)
  have hsought₁ := rerrApply_sought (c := c) rerr ud w.node
  generalize rerrApply c rerr ud w.node = n₁ at happly hentry hwf₁ hsought₁
  obtain ⟨hothers, hkept⟩ := rerrNote_lookup rerr ud { w with node := n₁ }
  obtain ⟨-, hmade, hsought⟩ := rerrNote_node rerr ud { w with node := n₁ }
  have hwf₂ : RtWf (rerrNote rerr ud { w with node := n₁ }).node :=
    RtWf.rerrNote (w := { w with node := n₁ }) hwf₁ rerr ud
  have hlook : ∀ b, b ≠ ud.destAddr →
      (rerrNote rerr ud { w with node := n₁ }).node.lookup b = w.node.lookup b := by
    intro b hb
    rw [hothers b hb, happly, if_neg (Ne.symm hb)]
  have hmem : ∀ b, b ∈ (rerrNote rerr ud { w with node := n₁ }).node.sought ↔
      b = ud.destAddr ∨ b ∈ w.node.sought := by
    intro b
    rw [hsought, hsought₁, hlr]
    by_cases hin : ud.destAddr ∈ w.node.sought
    · simp only [hin, not_true_eq_false, and_false, if_false]
      exact ⟨.inr, fun hb => hb.elim (fun he => he ▸ hin) id⟩
    · simp [hin]
  refine ⟨hwf₂, fun a ha => ?_, fun a ha => ?_, fun a ha => ?_, fun x hx hx' => ?_, fun a ha => ?_, ?_⟩
  · have hne : a ≠ ud.destAddr := fun he => ha ud (by simp) he.symm
    rw [hlook a hne]
    exact h.unlisted a fun x hx => ha x (List.mem_append_left _ hx)
  · have hne : a ≠ ud.destAddr := fun he => ha (he ▸ hfrom)
    rw [hlook a hne]
    exact h.elsewhere a ha
  · have hne : a ≠ ud.destAddr := fun he => ha ud (by simp) he.symm
    rw [hmem, ← h.unsought a fun x hx => ha x (List.mem_append_left _ hx)]
    simp [hne]
  · rw [hmem]
    rcases List.mem_append.mp hx with hx | hx
    · exact .inr (h.sought x hx hx')
    · exact .inl (congrArg Udest.destAddr (List.mem_singleton.mp hx))
  · by_cases hne : a = ud.destAddr
    · rw [hne] at ha ⊢
      have hkeep := hkept ha.1
      rw [rt_of_lookup (hkeep.trans hentry)]
      exact hsame
    · rw [rt_of_same (hlook a hne)] at ha ⊢
      exact h.still a ha
  · have hlisted : (n₁.rt ud.destAddr).nprec ≠ 0 ∧ ¬ hasFlag (n₁.rt ud.destAddr).flags rtRepair ↔
        n.Concerns ipSrc ud := by
      unfold Node.Concerns
      rw [rt_of_lookup hentry, hsame.nprec, hsame.flags, ← hwf.nprec_ne_zero]
      exact ⟨fun hc => ⟨hfrom, hc⟩, fun hc => hc.2⟩
    have hadd : (rerrAdd rerr ud.destAddr { w with node := n₁ }).made = true ↔
        w.made = true ∨ n.Concerns ipSrc ud := by
      rw [← hlisted]
      unfold rerrAdd
      dsimp only
      by_cases hc : (n₁.rt ud.destAddr).nprec ≠ 0 ∧ ¬ hasFlag (n₁.rt ud.destAddr).flags rtRepair
      · rw [if_pos hc]
        split
        · next hw => exact ⟨fun _ => .inr hc, fun _ => hw⟩
        · exact ⟨fun _ => .inr hc, fun _ => rfl⟩
      · rw [if_neg hc]
        exact ⟨.inl, fun hm => hm.resolve_right hc⟩
    rw [hmade, hadd, h.made]
    simp [or_and_right, exists_or]

theorem rerrStep_past (hwf : RtWf n) (hlr : rerr.lr = true) {l : List Udest} {w : RerrWalk}
    (h : w.Past n ipSrc l) (ud : Udest) : (rerrStep c rerr ipSrc w ud).Past n ipSrc (l ++ [ud]) := by
  rw [rerrStep_eq]
  by_cases hover : (w.node.rt ud.destAddr).Over ipSrc
  · rw [(rerrEnter_eq_some h.wf).mpr ⟨hover, rfl⟩]
    exact h.strike hwf hlr hover
  · have hnone : rerrEnter c rerr ipSrc ud w = none := by
      cases henter : rerrEnter c rerr ipSrc ud w with
      | none => rfl
      | some w' => exact absurd ((rerrEnter_eq_some h.wf).mp henter).1 hover
    rw [hnone]
    by_cases hfrom : (n.rt ud.destAddr).Over ipSrc
    · exact h.repeated hfrom hover
    · exact h.skip hfrom

theorem past_foldl (hwf : RtWf n) (hlr : rerr.lr = true) (l' : List Udest) :
    ∀ (l : List Udest) (w : RerrWalk), w.Past n ipSrc l →
      (l'.foldl (rerrStep c rerr ipSrc) w).Past n ipSrc (l ++ l') := by
  induction l' with
  | nil =>
    intro l w h
    rw [List.append_nil]
    exact h
  | cons ud l' ih =>
    intro l w h
    rw [List.foldl_cons, List.append_cons]
    exact ih _ _ (rerrStep_past hwf hlr h ud)

theorem past_nil (hwf : RtWf n) : RerrWalk.Past n ipSrc [] { node := n } :=
  ⟨hwf, fun _ _ => rfl, fun _ _ => rfl, fun _ _ => .rfl, fun _ hx => absurd hx List.not_mem_nil,
    fun _ _ => .refl _, by simp⟩

/-- The RERR that is passed on is the one that was built, unless a discovery comes in between. -/
theorem report_sent_iff (hwf : RtWf n) :
    let w := rerr.walk.foldl (rerrStep c rerr ipSrc) { node := n }
    rerrWalk c rerr ipSrc n = (if w.made then sendRerr c w.unicastDest w.node else w.node) ∧
    ((∀ m, rerrMessage c rerr ipSrc n = some m → w.node.sendBuf = m) ↔
      ¬ n.RerrInterrupted rerr ipSrc) := by
  refine ⟨rfl, ?_⟩
  have hnext : (rerrHeld c rerr ipSrc).next = rerrStep c rerr ipSrc := by
    funext w ud
    rw [rerrStep_eq]
    unfold HeldMessage.next rerrHeld
    dsimp only
    cases rerrEnter c rerr ipSrc ud w <;> rfl
  have hboth : (rerrHeld c rerr ipSrc).both = rerrBuild c rerr ipSrc := by
    funext p ud
    unfold HeldMessage.both rerrBuild rerrHeld
    dsimp only
    cases rerrEnter c rerr ipSrc ud p.1 <;> rfl
  have hpaired : (rerrHeld c rerr ipSrc).Paired ({ node := n }, none) := ⟨hwf, rfl, nofun⟩
  have hwalk := HeldMessage.holds_foldl_iff hpaired nofun rerr.walk
  have hend : (rerrHeld c rerr ipSrc).Holds
      (rerr.walk.foldl (rerrHeld c rerr ipSrc).both ({ node := n }, none)) ↔
      ∀ m, rerrMessage c rerr ipSrc n = some m →
        (rerr.walk.foldl (rerrStep c rerr ipSrc) { node := n }).node.sendBuf = m := by
    unfold HeldMessage.Holds
    rw [HeldMessage.foldl_both_fst, hnext, hboth]
    rfl
  rw [← hend, hwalk, hnext]
  have hat : ∀ (l₁ : List Udest) (ud : Udest), (rerrHeld c rerr ipSrc).Interrupts
      (l₁.foldl (rerrStep c rerr ipSrc) { node := n }) ud ↔
      rerr.lr ∧ (∃ x ∈ l₁, n.Concerns ipSrc x) ∧ (∀ x ∈ l₁, x.destAddr ≠ ud.destAddr) ∧
        (n.rt ud.destAddr).Over ipSrc ∧ ud.destAddr ∉ n.sought := by
    intro l₁ ud
    by_cases hlr : rerr.lr = true
    · have hnil : RerrWalk.Past n ipSrc [] { node := n } := past_nil hwf
      have hpast := past_foldl (c := c) hwf hlr l₁ [] _ hnil
      rw [List.nil_append] at hpast
      generalize l₁.foldl (rerrStep c rerr ipSrc) { node := n } = w at hpast
      have henter : ((rerrHeld c rerr ipSrc).enter ud w).isSome ↔
          (w.node.rt ud.destAddr).Over ipSrc := by
        rw [Option.isSome_iff_exists]
        exact ⟨fun ⟨w', hw'⟩ => ((rerrEnter_eq_some hpast.wf).mp hw').1,
          fun ho => ⟨_, (rerrEnter_eq_some hpast.wf).mpr ⟨ho, rfl⟩⟩⟩
      unfold HeldMessage.Interrupts
      rw [henter]
      change w.made = true ∧ _ ∧ (rerr.lr = true ∧ ud.destAddr ∉ w.node.sought) ↔ _
      rw [hpast.made]
      constructor
      · rintro ⟨hmade, hover, -, hunsought⟩
        have hfrom : (n.rt ud.destAddr).Over ipSrc := by
          by_contra hno
          rw [rt_of_same (hpast.elsewhere _ hno)] at hover
          exact hno hover
        have hnew : ∀ x ∈ l₁, x.destAddr ≠ ud.destAddr := by
          intro x hx he
          exact hunsought (he ▸ hpast.sought x hx (he ▸ hfrom))
        exact ⟨hlr, hmade, hnew, hfrom, fun hin => hunsought ((hpast.unsought _ hnew).mpr hin)⟩
      · rintro ⟨-, hmade, hnew, hfrom, hunsought⟩
        refine ⟨hmade, ?_, hlr, fun hin => hunsought ((hpast.unsought _ hnew).mp hin)⟩
        rw [rt_of_same (hpast.unlisted _ hnew)]
        exact hfrom
    · exact ⟨fun h => absurd h.2.2.1 hlr, fun h => absurd h.1 hlr⟩
  unfold Node.RerrInterrupted
  simp only [hat]
  constructor
  · rintro hall ⟨hlr, l₁, ud, l₂, heq, hrest⟩
    exact hall l₁ ud l₂ heq ⟨hlr, hrest⟩
  · rintro hno l₁ ud l₂ heq ⟨hlr, hrest⟩
    exact hno ⟨hlr, l₁, ud, l₂, heq, hrest⟩

end Passing

/-! ## A report about two destinations -/

/-- Agent 5 uses the route to 9 behind the neighbour 2. -/
def relayNode : Node := precursorAdd 9 5 behindNode

theorem relayNode_rtWf : RtWf relayNode := by
  have hreach : Reachable repairConf (.described sampleLog repairConf) 1 behindNode :=
    .step { now := 0 } [] (.recv (rreqFrom 2 0 _)) trivial (.init { now := 0 })
  exact (reachable_rtWf (described_within trivial (fun _ _ h => h) sampleLog repairConf) hreach).modRt
    9 (fun rt => (rt.precursorAdd_keeps 5).destAddr) (fun rt => (rt.precursorAdd_keeps 5).hash)
    fun rt => (rt.precursorAdd_keeps 5).precursors

/-- A RERR from 2 about a local repair. The second destination is read from `rerr_id`. -/
def repairReport (count : BitVec 8) : RERR :=
  { rerrCreate rerrLocalRepair 9 7 with destCount := count, rerrId := 2, rerrOriginAddr := 4 }

/-- A report with one destination goes out. With two, the discovery of the second overwrites the
report about the first. -/
theorem one_report_sent :
    (∃ m, rerrMessage (repairCtx 2000) (repairReport 1) 2 relayNode = some m ∧
      ((repairReport 1).walk.foldl (rerrStep (repairCtx 2000) (repairReport 1) 2)
        { node := relayNode }).node.sendBuf = m) ∧
      ¬ ∀ m, rerrMessage (repairCtx 2000) (repairReport 2) 2 relayNode = some m →
        ((repairReport 2).walk.foldl (rerrStep (repairCtx 2000) (repairReport 2) 2)
          { node := relayNode }).node.sendBuf = m := by
  constructor
  · have hsome : (rerrMessage (repairCtx 2000) (repairReport 1) 2 relayNode).isSome := by
      decide +kernel
    obtain ⟨m, hm⟩ := Option.isSome_iff_exists.mp hsome
    refine ⟨m, hm, (report_sent_iff (c := repairCtx 2000) relayNode_rtWf).2.mpr ?_ m hm⟩
    rintro ⟨-, l₁, ud, l₂, heq, ⟨x, hx, -⟩, -⟩
    have hlen := congrArg List.length heq
    have hone : (repairReport 1).walk.length = 1 := by decide
    have hpos := List.length_pos_of_mem hx
    rw [hone, List.length_append, List.length_cons] at hlen
    omega
  · intro hsent
    refine (report_sent_iff (c := repairCtx 2000) relayNode_rtWf).2.mp hsent
      ⟨rfl, [⟨9, 7⟩], ⟨2, 4⟩, [], by decide, ⟨⟨9, 7⟩, by simp, ?_⟩, by decide, ?_, by decide +kernel⟩
    · unfold Node.Concerns RtTable.Over
      decide +kernel
    · unfold RtTable.Over
      decide +kernel

end AodvUU

import AodvUU.HandlerEffects

/-! # Neighbours

`neighbor_add` and `neighbor_link_break` are not part of the repository. The functions here
do what its documentation says of them, and are one choice of the parameters. -/
namespace AodvUU

variable (c : Ctx)

/-! ## The described functions -/

/-- The neighbour's entry is made or renewed, and then its Hello timer. -/
def neighborAddDescribed (src : InAddr) (n : Node) : Node :=
  match rtTableFind n src with
  | none => rtTableInsert c src src 1 0 (msecs c.conf.activeRouteTimeout) .valid 0 n
  | some rt =>
    if hasFlag rt.flags rtUnidir then n
    else
      let n := rtTableUpdate c src src 1 rt.destSeqno (msecs c.conf.activeRouteTimeout) .valid
        rt.flags n
      if ¬ c.conf.llfeedback ∧ (n.rt src).helloTimer.used then
        helloUpdateTimeout c src (allowedHelloLoss * helloInterval) n
      else n

/-- The RERR of a link break lies in the send buffer once it is `made`. -/
def linkBreakRerr (a : InAddr) (w : Bool × Node) : Bool × Node :=
  let rt := w.2.rt a
  if rt.nprec = 0 then w
  else if w.1 then (true, w.2.addRerrUdest rt.destAddr rt.destSeqno)
  else (true, aodvSocketNewMsg (.rerr (rerrCreate 0 rt.destAddr rt.destSeqno)) w.2)

/-- A route over the lost neighbour is marked like the neighbour, invalidated and listed. -/
def linkBreakVisit (repair : Bool) (w : Bool × Node) (a : InAddr) : Bool × Node :=
  let n := if repair then w.2.modRt a fun rt => { rt with flags := rt.flags ||| rtRepair } else w.2
  linkBreakRerr a (w.1, rtTableInvalidate c a n)

def routesOver (a : InAddr) (n : Node) : List InAddr :=
  (n.entries.filter fun rt => rt.state = .valid ∧ rt.nextHop = a ∧ rt.destAddr ≠ a).map
    (·.destAddr)

/-- The neighbour's own entry first, then the routes over it. -/
def linkBreakWalk (a : InAddr) (n : Node) : Bool × Node :=
  let repair := hasFlag (n.rt a).flags rtRepair
  let n := rtTableInvalidate c a n
  (routesOver a n).foldl (linkBreakVisit c repair)
    (if repair then (false, n) else linkBreakRerr a (false, n))

def neighborLinkBreakDescribed (a : InAddr) (n : Node) : Node :=
  let w := linkBreakWalk c a n
  if w.1 then aodvSocketSend c aodvBroadcast (rerrCalcSize w.2.sendBuf) 1 w.2 else w.2

/-- External code with the described link break. It calls nothing external itself. -/
def Extern.linkBreak (log : ℚ → ℚ) (cf : Conf) : Extern where
  neighborAdd _ _ _ n := n
  neighborLinkBreak env a n := neighborLinkBreakDescribed
    ⟨cf, ⟨fun _ _ _ n => n, fun _ _ n => n, log, fun _ es => es⟩, env⟩ a n
  log := log
  spill _ es := es

def Extern.described (log : ℚ → ℚ) (cf : Conf) : Extern :=
  { Extern.linkBreak log cf with
    neighborAdd := fun env _ src n => neighborAddDescribed ⟨cf, .linkBreak log cf, env⟩ src n }

/-! ## Their effects -/

variable {c} {s : Scope}

theorem linkBreakWalk_keeps {I : Node → Prop}
    (hmark : ∀ b m, I m → I (m.modRt b fun rt => { rt with flags := rt.flags ||| rtRepair }))
    (hinv : ∀ b m, I m → I (rtTableInvalidate c b m))
    (hrerr : ∀ b w, I w.2 → I (linkBreakRerr b w).2) (a : InAddr) {n : Node} (hn : I n) :
    I (linkBreakWalk c a n).2 := by
  have hlost := hinv a n hn
  unfold linkBreakWalk
  dsimp only
  refine List.foldlRecOn (motive := fun w : Bool × Node => I w.2) _ _ ?_ fun w hw b _ => ?_
  · split
    · exact hlost
    · exact hrerr a (false, _) hlost
  · unfold linkBreakVisit
    refine hrerr b (w.1, _) (hinv b _ ?_)
    split
    · exact hmark b _ hw
    · exact hw

theorem neighborLinkBreakDescribed_keeps {I : Node → Prop} {a : InAddr} {n : Node}
    (hwalk : I (linkBreakWalk c a n).2)
    (hsend : ∀ dst len ttl m, I m → I (aodvSocketSend c dst len ttl m)) :
    I (neighborLinkBreakDescribed c a n) := by
  unfold neighborLinkBreakDescribed
  dsimp only
  split
  · exact hsend _ _ _ _ hwalk
  · exact hwalk

theorem linkBreakRerr_effects (a : InAddr) (w : Bool × Node) :
    Effects c s w.2 (linkBreakRerr a w).2 := by
  unfold linkBreakRerr
  dsimp only
  split_ifs
  · exact .refl _
  · exact addRerrUdest_effects _ _ _
  · exact .buffer _ rfl

theorem linkBreakWalk_effects (a : InAddr) (n : Node) :
    Effects c s n (linkBreakWalk c a n).2 := by
  refine linkBreakWalk_keeps (I := Effects c s n) (fun b m hm => ?_)
    (fun b m hm => hm.trans (.invalidate b m)) (fun b w hw => hw.trans (linkBreakRerr_effects b w))
    a (.refl n)
  exact hm.trans (.entry _ _ (fun rt => by constructor <;> simp [RtTable.PrecWf]) _)

theorem neighborLinkBreakDescribed_effects (a : InAddr) (n : Node) :
    Effects c s n (neighborLinkBreakDescribed c a n) :=
  neighborLinkBreakDescribed_keeps (linkBreakWalk_effects a n)
    fun _ _ _ _ hm => hm.trans (aodvSocketSend_effects _ _ _ _)

theorem neighborAddDescribed_effects (hu : c.Updates s) (hw : s.write) (src : InAddr)
    (n : Node) : Effects c s n (neighborAddDescribed c src n) := by
  unfold neighborAddDescribed
  split
  · exact rtTableInsert_effects hw _ _ _ _ _ _ _ n
  · next rt hfind =>
    have hupdate := hu none src src 1 rt.destSeqno (msecs c.conf.activeRouteTimeout) rt.flags n
      (lookup_of_rtTableFind hfind)
    split
    · exact .refl n
    · dsimp only
      split
      · exact hupdate.trans (helloUpdateTimeout_effects _ _ _)
      · exact hupdate

theorem described_linkBreaks (log : ℚ → ℚ) (cf : Conf) (env : Env) :
    Ctx.LinkBreaks ⟨cf, .described log cf, env⟩ s :=
  fun a n => neighborLinkBreakDescribed_effects a n

theorem Effects.of_ext {cf : Conf} {env : Env} {ext : Extern} (ext' : Extern) {n n' : Node}
    (h : Effects ⟨cf, ext, env⟩ s n n') : Effects ⟨cf, ext', env⟩ s n n' := by
  refine Relation.ReflTransGen.mono (fun a b hab => ?_) _ _ h
  cases hab with
  | traffic h => exact .traffic h
  | entry a f h => exact .entry a f h
  | invalidate a => exact .invalidate a
  | buffer m h => exact .buffer m h
  | delete hs a => exact .delete hs a
  | insert hs rt hash prec absent => exact .insert hs rt hash prec absent
  | setSeqno hs a v => exact .setSeqno hs a v
  | update hs addr => exact .update hs addr
  | raise hs v => exact .raise hs v
  | incr hs => exact .incr hs
  | flood hs a v ttl flags => exact .flood hs a v ttl flags
  | reflood hs a v ttl flags => exact .reflood hs a v ttl flags

theorem described_neighborAdds (hw : s.write) (log : ℚ → ℚ) (cf : Conf) (env : Env)
    (hu : Ctx.Updates ⟨cf, .linkBreak log cf, env⟩ s) :
    Ctx.NeighborAdds ⟨cf, .described log cf, env⟩ s :=
  fun _ a n => (neighborAddDescribed_effects hu hw a n).of_ext _

/-! ## A concrete agent -/

/-- The two values of the logarithm that a fresh agent uses, as 15 digits of the `double`. -/
def sampleLog (x : ℚ) : ℚ :=
  if x = 10 ^ 18 then 41446531673892822 / 1000000000000000
  else if x = 1 / 2 then -693147180559945 / 1000000000000000
  else 0

def sampleCtx (now : Time) : Ctx := ⟨{}, .described sampleLog {}, { now }⟩

def helloFrom (a : InAddr) (seqno : BitVec 32) (ch : Int) : Packet where
  ptype := .aodvuu
  saddr := a
  daddr := aodvBroadcast
  ttl := 1
  prevHop := a
  channel := ch
  len := rrepSize
  msg := some (.rrep (rrepCreate 0 0 a seqno a (msecs (allowedHelloLoss * helloInterval))))

def rreqFrom (src : InAddr) (ch : Int) (m : RREQ) : Packet where
  ptype := .aodvuu
  saddr := src
  daddr := aodvBroadcast
  ttl := 10
  prevHop := src
  channel := ch
  len := rreqCostSize
  msg := some (.rreq m)

/-- A data packet that arrives at a node on the way. -/
def dataFrom (src dst : InAddr) : Packet where
  saddr := src
  daddr := dst
  ttl := 5
  direction := .up

def heardNode (seqno : BitVec 32) : Node :=
  (step (sampleCtx 0) (.recv (helloFrom 2 seqno 0)) ([], Node.init (sampleCtx 0) 1)).2

theorem heardNode_reachable (seqno : BitVec 32) :
    Reachable {} (.described sampleLog {}) 1 (heardNode seqno) :=
  .step { now := 0 } [] (.recv (helloFrom 2 seqno 0)) trivial (.init { now := 0 })

def messageFrom (src dst : InAddr) (ch : Int) (len : ℕ) (m : AodvMsg) : Packet where
  ptype := .aodvuu
  saddr := src
  daddr := dst
  ttl := 10
  prevHop := src
  channel := ch
  len := len
  msg := some m

/-- Hellos of 2 and 3, a request of 9 for 8 over 2, the reply over 3, and a route error of 3. -/
def metRun : List (Time × Event) :=
  [(0, .recv (helloFrom 2 5 0)), (0, .recv (helloFrom 3 7 1)),
    (1000, .recv (rreqFrom 2 0
      { type := aodvRreq, hcnt := 1, rreqId := 7, destAddr := 8, origAddr := 9, origSeqno := 6,
        exts := [.cost 0] })),
    (2000, .recv (messageFrom 3 1 1 rrepCostSize (.rrep (rrepCreateWithCost 0 1 8 4 9 3000 0)))),
    (3000, .recv (messageFrom 3 1 1 rerrSize (.rerr (rerrCreate 0 8 5))))]

def metNode : Node :=
  metRun.foldl (fun n x => (step (sampleCtx x.1) x.2 ([], n)).2) (Node.init (sampleCtx 0) 1)

theorem metNode_reachable : Reachable {} (.described sampleLog {}) 1 metNode :=
  .step { now := 3000 } [] (.recv _) trivial (.step { now := 2000 } [] (.recv _) trivial
    (.step { now := 1000 } [] (.recv _) trivial (.step { now := 0 } [] (.recv _) trivial
      (.step { now := 0 } [] (.recv _) trivial (.init { now := 0 })))))

end AodvUU

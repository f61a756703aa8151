import AodvUU.OwnSeqno
import AodvUU.Runs

/-! # The seek list

Every search of `rreq_route_discovery` is the only one for its destination. A local repair
searches for the lost next hop without looking whether it is sought already. -/
namespace AodvUU

variable {c : Ctx}

def Node.sought (n : Node) : List InAddr := n.seekhead.map SeekList.destAddr

structure Extern.SearchFree (ext : Extern) : Prop where
  linkBreak : ∀ env a n, RtWf n → (ext.neighborLinkBreak env a n).sought.Sublist n.sought
  neighborAdd : ∀ env m a n, RtWf n → (ext.neighborAdd env m a n).sought.Sublist n.sought

theorem seekListFind_eq_none {n : Node} {a : InAddr} :
    seekListFind n a = none ↔ a ∉ n.sought := by
  unfold seekListFind Node.sought
  rw [List.find?_eq_none]
  simp [eq_comm]

theorem sought_of_routes {n n' : Node} (h : n'.routes = n.routes) : n'.sought = n.sought :=
  congrArg (List.map SeekList.destAddr) (congrArg Routes.seekhead h)

theorem rreqLocalRepair_sought {a : InAddr} {n : Node} (hflag : hasFlag (n.rt a).flags rtRepair) :
    (rreqLocalRepair c a n).sought = (n.rt a).nextHop :: n.sought := by
  obtain ⟨t, m, len, ttl, s, hs, hrepair⟩ := rreqLocalRepair_eq (c := c) hflag
  have hsend := sought_of_routes (aodvSocketSend_routes (c := c) aodvBroadcast len ttl
    { rreqCreate (rreqLocalRepairFlag ||| rreqDestOnly) (n.rt a).nextHop 0 n.ipaddr n with
      tbl := t, sendBuf := m })
  rw [hrepair, ← hs]
  exact congrArg (s.destAddr :: ·) hsend

theorem rreqLocalRepair_of_not_flag {a : InAddr} {n : Node}
    (hflag : ¬ hasFlag (n.rt a).flags rtRepair) : rreqLocalRepair c a n = n := by
  unfold rreqLocalRepair
  dsimp only
  rw [if_neg hflag]

theorem sublist_of_eq {α : Type*} {l l' : List α} (h : l = l') : l.Sublist l' :=
  h ▸ List.Sublist.refl l

theorem rtTableInvalidate_sought (a : InAddr) (n : Node) :
    (rtTableInvalidate c a n).sought = n.sought := by
  unfold rtTableInvalidate
  split
  · rfl
  · split <;> rfl

theorem rtTableDelete_sought (a : InAddr) (n : Node) : (rtTableDelete a n).sought = n.sought := by
  unfold rtTableDelete
  split <;> rfl

/-! ## The described neighbour functions -/

theorem neighborLinkBreakDescribed_sought (a : InAddr) (n : Node) :
    (neighborLinkBreakDescribed c a n).sought = n.sought := by
  refine neighborLinkBreakDescribed_keeps (I := fun m => m.sought = n.sought) ?_
    fun _ _ _ _ hm => (sought_of_routes (aodvSocketSend_routes _ _ _ _)).trans hm
  exact linkBreakWalk_keeps (I := fun m => m.sought = n.sought) (fun _ _ hm => hm)
    (fun b m hm => (rtTableInvalidate_sought b m).trans hm)
    (fun b w hw => (sought_of_routes (linkBreakRerr_routes b w)).trans hw) a rfl

/-! ## One search -/

/-- No destination is sought twice. -/
def Node.OneSearch (n : Node) : Prop := n.sought.Nodup

theorem Node.OneSearch.of_sought {n n' : Node} (h : n.OneSearch) (hs : n'.sought = n.sought) :
    n'.OneSearch := by
  unfold Node.OneSearch
  rw [hs]
  exact h

theorem oneSearch_keeps (hl : c.LinkBreaks {}) (hs : c.ext.SearchFree) :
    c.Keeps fun n => RtWf n ∧ n.OneSearch := by
  refine .of_wf hl (fun n n' hr hn => ?_) (fun a f n _ hn => hn) (fun l n hsub hn => ?_)
    (fun a n hwf hn => ?_)
  · exact hn.of_sought (sought_of_routes hr)
  · exact hn.sublist hsub
  · exact hn.sublist (hs.linkBreak c.env a n hwf)

theorem oneSearch_searches : Searches fun n => RtWf n ∧ n.OneSearch := by
  intro s n hnone hn
  exact ⟨hn.1.of_table rfl rfl, List.nodup_cons.mpr ⟨seekListFind_eq_none.mp hnone, hn.2⟩⟩

theorem oneSearch_takes (hl : c.LinkBreaks {}) (hs : c.ext.SearchFree) (r : Route) {n : Node}
    (hn : RtWf n ∧ n.OneSearch) : c.Takes (fun n => RtWf n ∧ n.OneSearch) r n :=
  (oneSearch_keeps hl hs).takes_wf (fun _ _ _ => hn.2) (fun _ _ _ hn => hn) hn

theorem localRepairTimeout_sought (a : InAddr) (n : Node) :
    (localRepairTimeout c a n).sought = n.sought := by
  have htail : ∀ f n₁, (Node.modRt a f (precursorListDestroy a n₁)).sought = n₁.sought :=
    fun _ _ => rfl
  unfold localRepairTimeout
  dsimp only
  rw [htail]
  split
  · rfl
  · exact (sought_of_routes (aodvSocketSend_routes _ _ _ _)).trans rfl

theorem rtTimerTimeout_sought (hs : c.ext.SearchFree) (a : InAddr) {n : Node} (hwf : RtWf n) :
    (rtTimerTimeout c a n).sought.Sublist n.sought := by
  have hoff : RtWf (n.modRt a fun rt => { rt with rtTimer := rt.rtTimer.remove }) :=
    hwf.modRt a (fun _ => rfl) (fun _ => rfl) fun _ hp => hp
  unfold rtTimerTimeout
  dsimp only
  split
  · split
    · unfold routeExpireTimeout
      split
      · exact hs.linkBreak c.env a _ hoff
      · exact sublist_of_eq (rtTableInvalidate_sought a _)
    · exact sublist_of_eq (rtTableDelete_sought a _)
    · exact sublist_of_eq (localRepairTimeout_sought a _)
    · exact List.Sublist.refl _
  · exact List.Sublist.refl _

theorem seekListRemove_sought (a : InAddr) (n : Node) :
    (seekListRemove a n).sought = n.sought.erase a := by
  have hpred : (fun s : SeekList => decide (s.destAddr = a)) = (a == ·) ∘ SeekList.destAddr := by
    funext s
    simp [eq_comm, Bool.beq_eq_decide_eq]
  unfold Node.sought seekListRemove
  rw [List.erase_eq_eraseP, List.eraseP_map, hpred]

theorem fewerSought_keeps (hl : c.LinkBreaks {}) (hs : c.ext.SearchFree) (n₀ : Node) :
    c.Keeps fun n => RtWf n ∧ n.sought.Sublist n₀.sought := by
  refine .of_wf hl (fun n n' hr hn => ?_) (fun a f n _ hn => hn)
    (fun l _ hsub hn => List.Sublist.trans hsub hn)
    (fun a n hwf hn => (hs.linkBreak c.env a n hwf).trans hn)
  rw [sought_of_routes hr]
  exact hn

theorem neighborAddDescribed_sought (hl : c.LinkBreaks {}) (hs : c.ext.SearchFree) (src : InAddr)
    {n : Node} (hwf : RtWf n) : (neighborAddDescribed c src n).sought.Sublist n.sought := by
  have h := fewerSought_keeps hl hs n
  have hn : RtWf n ∧ n.sought.Sublist n.sought := ⟨hwf, List.Sublist.refl _⟩
  have htakes := fun r : Route => h.takes_wf (r := r) (fun _ _ _ => hn.2) (fun _ _ _ hn => hn) hn
  unfold neighborAddDescribed
  split
  · exact (h.rtTableInsert src src 1 0 (msecs c.conf.activeRouteTimeout) .valid 0 (fun hnone =>
      (htakes ⟨src, src, 1, 0, msecs c.conf.activeRouteTimeout, none⟩).insert 0 hnone
        fun hch => absurd rfl hch) hn).2
  · next rt hfind =>
    have hupdate := (htakes ⟨src, src, 1, rt.destSeqno, msecs c.conf.activeRouteTimeout,
      none⟩).update rt.flags (lookup_of_rtTableFind hfind)
    split
    · exact hn.2
    · dsimp only
      split
      · exact (h.helloUpdateTimeout src _ hupdate).2
      · exact hupdate.2

theorem described_searchFree (log : ℚ → ℚ) (cf : Conf) : (Extern.described log cf).SearchFree where
  linkBreak _ a _ _ := sublist_of_eq (neighborLinkBreakDescribed_sought a _)
  neighborAdd env _ a _ hwf := neighborAddDescribed_sought (c := ⟨cf, .linkBreak log cf, env⟩)
    (fun a n => neighborLinkBreakDescribed_effects a n)
    { linkBreak := fun _ a n _ => sublist_of_eq (neighborLinkBreakDescribed_sought a n)
      neighborAdd := fun _ _ _ n _ => List.Sublist.refl n.sought } a hwf

/-! ## The way to a local repair -/

def Node.hopTo (n : Node) (a : InAddr) : Option InAddr := (n.lookup a).map (·.nextHop)

theorem Node.Ages.hopTo {n n' : Node} (h : n.Ages n') (a : InAddr) : n'.hopTo a = n.hopTo a := by
  unfold Node.hopTo
  cases hrt : n.lookup a with
  | none => rw [h.lookup_eq_none hrt]
  | some rt =>
    obtain ⟨rt', hrt', hage⟩ := h.lookup_eq_some hrt
    rw [hrt']
    exact congrArg some hage.nextHop

theorem Node.rt_nextHop (n : Node) (a : InAddr) : (n.rt a).nextHop = (n.hopTo a).getD 0 := by
  unfold Node.rt Node.hopTo
  cases n.lookup a <;> rfl

/-- A later state of the same event, as far as a local repair reads it. -/
structure Node.BeforeRepair (n₀ n : Node) : Prop where
  hopTo : ∀ a, n.hopTo a = n₀.hopTo a
  once : n.OneSearch
  sought : n.sought.Sublist n₀.sought

theorem beforeRepair_keeps (hl : c.LinkBreaks {}) (hs : c.ext.SearchFree) (n₀ : Node) :
    c.Keeps fun n => RtWf n ∧ n₀.BeforeRepair n := by
  refine .of_wf hl (fun n n' hr hn => ?_) (fun a f n hf hn => ?_) (fun l n hsub hn => ?_)
    (fun a n hwf hn => ?_)
  · have hseek : n'.sought = n.sought := sought_of_routes hr
    refine ⟨fun a => ?_, ?_, hseek ▸ hn.sought⟩
    · rw [← hn.hopTo a]
      exact congrArg (Option.map (·.nextHop)) (lookup_of_routes hr)
    · exact hn.once.of_sought hseek
  · refine ⟨fun b => ?_, hn.once, hn.sought⟩
    rw [← hn.hopTo b, Node.hopTo, lookup_modRt a b fun rt => (hf rt).destAddr]
    unfold Node.hopTo
    split
    · cases n.lookup b with
      | none => rfl
      | some rt => exact congrArg some (hf rt).nextHop
    · rfl
  · exact ⟨hn.hopTo, hn.once.sublist hsub, hsub.trans hn.sought⟩
  · have hsub := hs.linkBreak c.env a n hwf
    exact ⟨fun b => ((hl a n).ages.hopTo b).trans (hn.hopTo b), hn.once.sublist hsub,
      hsub.trans hn.sought⟩

theorem Node.BeforeRepair.self {n : Node} (h : n.OneSearch) : n.BeforeRepair n :=
  ⟨fun _ => rfl, h, List.Sublist.refl _⟩

theorem Node.BeforeRepair.rreqLocalRepair {n₀ n : Node} {a : InAddr} (hl : RtWf n)
    (h : n₀.BeforeRepair n) (hfree : seekListFind n₀ (n₀.rt a).nextHop = none) :
    RtWf (rreqLocalRepair c a n) ∧ (rreqLocalRepair c a n).OneSearch := by
  refine ⟨effects_preserve_rtWf hl (rreqLocalRepair_effects trivial a n), ?_⟩
  by_cases hflag : hasFlag (n.rt a).flags rtRepair
  · unfold Node.OneSearch
    rw [rreqLocalRepair_sought hflag, n.rt_nextHop, h.hopTo, ← n₀.rt_nextHop]
    exact List.nodup_cons.mpr
      ⟨fun hmem => seekListFind_eq_none.mp hfree (h.sought.subset hmem), h.once⟩
  · rw [rreqLocalRepair_of_not_flag hflag]
    exact h.once

/-! ## Every run -/

/-- The event starts no local repair for a next hop that is sought already. -/
def Event.RepairsOnce (cf : Conf) (n : Node) : Event → Prop
  | .recv p => p.ptype ≠ .aodvuu → ¬ (p.saddr = n.ipaddr ∧ p.numForwards ≠ 0) →
      p.MeetsRepair n → seekListFind n (n.rt p.daddr).nextHop = none
  | .packetFailed p => p.BreaksLink cf n → seekListFind n (n.rt p.daddr).nextHop = none
  | _ => True

theorem recv_oneSearch (hl : c.LinkBreaks {}) (hadd : c.NeighborAdds .calls) (hs : c.ext.SearchFree)
    {n : Node} (hn : RtWf n ∧ n.OneSearch) (recs : List RerrRecord) {p : Packet}
    (hok : Event.RepairsOnce c.conf n (.recv p)) :
    RtWf (recv c p (recs, n)).2 ∧ (recv c p (recs, n)).2.OneSearch := by
  have h := oneSearch_keeps hl hs
  have htakes := fun (r : Route) (n' : Node) (hn' : RtWf n' ∧ n'.OneSearch) =>
    oneSearch_takes hl hs r hn'
  refine recv_cases (J := fun n => RtWf n ∧ n.OneSearch) recs (h.routes n _ rfl hn) hn
    (fun hdata hloop dir => ?_) (fun hello _ _ => ?_) (fun _ m _ _ => ?_) (fun rrep _ _ n' hn' => ?_)
    (fun rreq _ _ n' hn' => ?_) (fun rerr _ _ n' hn' => ?_)
    (fun ack n' hn' => h.rrepAckProcess ack p.saddr hn')
  · refine (beforeRepair_keeps hl hs n).processPacket (J := fun n => RtWf n ∧ n.OneSearch)
      (fun n' hn' => ⟨hn'.1, hn'.2.once⟩)
      (fun n' flags hn' => h.rreqRouteDiscovery oneSearch_searches _ _ ⟨hn'.1, hn'.2.once⟩)
      (fun hmeets n' hn' => hn'.2.rreqLocalRepair hn'.1 (hok hdata hloop hmeets))
      ⟨hn.1, .self hn.2⟩
  · refine h.helloProcess hello (fun n' hr _ _ => htakes _ n' (h.routes n n' hr hn))
      (fun _ n' hr hnone _ _ => ?_) hn
    have hn' := h.routes n n' hr hn
    exact ⟨hn'.1.storeEntry rfl ⟨rfl, rfl⟩ ((lookup_of_routes hr).trans hnone), hn'.2⟩
  · exact ⟨effects_calls_preserve_rtWf hn.1 (hadd m p.saddr n),
      hn.2.sublist (hs.neighborAdd c.env m p.saddr n hn.1)⟩
  · refine h.rrepProcess rrep _ _ _ (fun _ => ?_) (fun _ _ => htakes _ n' hn') hn'
    exact h.rrepProcessLr hl rrep _ _ _ (fun _ _ n' hn' _ _ _ _ _ _ _ _ => htakes _ n' hn')
      (fun _ _ n' hn' _ _ => htakes _ n' hn') hn'
  · refine h.rreqProcess rreq _ _ _ (fun _ => ?_) (fun _ _ n'' hr => ?_) (fun _ n'' hn'' _ _ _ => ?_)
      hn'
    · exact h.rreqProcessLr rreq _ _ _
        (fun _ n'' hr => htakes _ n'' (h.routes n' n'' hr hn')) hn'
    · exact htakes _ n'' (h.routes n' n'' hr hn')
    · exact ⟨hn''.1.rtTableDelete _, hn''.2.of_sought (rtTableDelete_sought _ n'')⟩
  · refine h.rerrProcess oneSearch_searches rerr _ _ _ (fun ud _ _ n'' hn'' _ _ _ _ => ?_) hn'
    exact ⟨hn''.1.rtTableInvalidate _, hn''.2.of_sought (rtTableInvalidate_sought _ n'')⟩

theorem step_oneSearch (hl : c.LinkBreaks {}) (hadd : c.NeighborAdds .calls) (hs : c.ext.SearchFree)
    {n : Node} (hn : RtWf n ∧ n.OneSearch) (recs : List RerrRecord) {e : Event}
    (hok : e.RepairsOnce c.conf n) :
    RtWf (step c e (recs, n)).2 ∧ (step c e (recs, n)).2.OneSearch := by
  refine (oneSearch_keeps hl hs).step recs e (fun p he => ?_) (fun p he => ?_) (fun a _ => ?_)
    (fun i s _ _ _ n' hn' _ _ => ?_) hn
  · subst he
    exact recv_oneSearch hl hadd hs hn recs hok
  · subst he
    exact (beforeRepair_keeps hl hs n).packetFailed (J := fun n => RtWf n ∧ n.OneSearch)
      (fun n' hn' => ⟨hn'.1, hn'.2.once⟩)
      (fun hbreak n' hn' => hn'.2.rreqLocalRepair hn'.1 (hok hbreak)) ⟨hn.1, .self hn.2⟩
  · exact ⟨effects_preserve_rtWf hn.1 (rtTimerTimeout_effects hl.widen trivial a n),
      hn.2.sublist (rtTimerTimeout_sought hs a hn.1)⟩
  · exact ⟨effects_preserve_rtWf hn'.1 (localRepairTimeout_effects _ n'),
      hn'.2.of_sought (localRepairTimeout_sought _ n')⟩

variable {cf : Conf} {ext : Extern} {a : InAddr} {n : Node}

/-- In every run in which no local repair starts for a next hop that is being sought, no
destination is sought twice, and the end of a search leaves none for its destination. -/
theorem one_search_per_destination (hext : ext.CallsOnly cf) (hs : ext.SearchFree)
    (h : ReachableIf (fun _ n e => e.RepairsOnce cf n) cf ext a n) :
    (n.seekhead.map SeekList.destAddr).Nodup ∧
      ∀ d, seekListFind (seekListRemove d n) d = none := by
  have hone := h.invariant (I := fun n => RtWf n ∧ n.OneSearch)
    (fun env => ⟨init_rtWf a, List.nodup_nil⟩)
    fun env recs e n hn hok => step_oneSearch (c := ⟨cf, ext, env⟩) (hext.linkBreaks env)
      (hext.neighborAdds env) hs hn recs hok
  refine ⟨hone.2, fun d => seekListFind_eq_none.mpr ?_⟩
  rw [seekListRemove_sought]
  exact fun hmem => (hone.2.mem_erase_iff.mp hmem).1 rfl

/-! ## A run with two searches -/

def repairConf : Conf := { localRepair := true }

def repairCtx (now : Time) : Ctx := ⟨repairConf, .described sampleLog repairConf, { now }⟩

def behindNode : Node :=
  (step (repairCtx 0) (.recv (rreqFrom 2 0
      { type := aodvRreq, hcnt := 1, rreqId := 7, destAddr := 8, origAddr := 9, origSeqno := 6,
        exts := [.cost 0] })) ([], Node.init (repairCtx 0) 1)).2

def failedData : Packet := { ownData 1 9 with nextHop := 2 }

/-- The route to 9 is being repaired by a search for 2. -/
def repairingNode : Node := (step (repairCtx 1000) (.packetFailed failedData) ([], behindNode)).2

theorem repairingNode_reachable :
    ReachableIf (fun _ n e => e.RepairsOnce repairConf n) repairConf
      (.described sampleLog repairConf) 1 repairingNode := by
  refine .step { now := 1000 } [] (.packetFailed failedData) trivial (fun _ => by decide +kernel) ?_
  exact .step { now := 0 } [] (.recv (rreqFrom 2 0 _)) trivial (fun hdata => absurd rfl hdata)
    (.init { now := 0 })

theorem one_search_while_repairing :
    repairingNode.sought = [2] ∧ (repairingNode.seekhead.map SeekList.destAddr).Nodup ∧
      ∀ d, seekListFind (seekListRemove d repairingNode) d = none :=
  ⟨by decide +kernel, one_search_per_destination (described_callsOnly sampleLog repairConf)
    (described_searchFree sampleLog repairConf) repairingNode_reachable⟩

/-- Another packet for 9 starts the second search for 2. -/
theorem two_searches_for_next_hop :
    ¬ ∀ n, Reachable repairConf (.described sampleLog repairConf) 1 n →
      (n.seekhead.map SeekList.destAddr).Nodup := by
  intro hall
  have hreach : Reachable repairConf (.described sampleLog repairConf) 1
      (step (repairCtx 2000) (.recv (ownData 1 9)) ([], repairingNode)).2 :=
    .step { now := 2000 } [] (.recv (ownData 1 9)) trivial repairingNode_reachable.reachable
  exact absurd (hall _ hreach) (by decide +kernel)

end AodvUU

import AodvUU.TableInvariant

/-! # The shared list of route errors

`rerr_records` is one list for all agents of a process. A run of the process is a sequence of
events at its agents; each RERR that one of them receives is a delivery. -/
namespace AodvUU

structure Process where
  recs : List RerrRecord := []
  node : InAddr → Node

structure Occurrence where
  agent : InAddr
  env : Env
  event : Event

/-- What distinguishes records: `orig_addr`, `rerr_id` and `last_addr`. -/
abbrev RerrKey := InAddr × BitVec 32 × InAddr

def RerrRecord.key (r : RerrRecord) : RerrKey := (r.origAddr, r.rerrId, r.lastAddr)

structure RerrInput where
  rerr : RERR
  rerrlen : ℕ
  ipSrc : InAddr

def RerrInput.key (d : RerrInput) : RerrKey := (d.rerr.rerrOriginAddr, d.rerr.rerrId, d.ipSrc)

/-- The RERR that an event at the agent `own` hands to `rerr_process`. -/
def Event.rerr (own : InAddr) : Event → Option RerrInput
  | .recv p =>
    if p.ptype = .aodvuu ∧ p.saddr ≠ own then
      match p.msg with
      | some (.rerr m) => some ⟨{ m with channel := BitVec.ofInt 8 p.channel }, p.len, p.saddr⟩
      | _ => none
    else none
  | _ => none

/-! ## One event -/

section Step

variable {c : Ctx} {n : Node} (recs : List RerrRecord) {e : Event} {d : RerrInput}

variable {recs} in
theorem find_eq_none {o id l : BitVec 32} :
    rerrRecordFind recs o id l = none ↔ ∀ r ∈ recs, r.key ≠ (o, id, l) := by
  simp [rerrRecordFind, RerrRecord.key]

theorem step_of_rerr (h : e.rerr n.ipaddr = some d) :
    step c e (recs, n) = rerrProcess c d.rerr d.rerrlen d.ipSrc recs
      (c.ext.neighborAdd c.env (.rerr d.rerr) d.ipSrc n) := by
  cases e with
  | recv p =>
    simp only [Event.rerr] at h
    split at h
    · next hp =>
      split at h
      · next m hm =>
        cases h
        simp [step, recv, recvAODVUUPacket, hp.1, hp.2, hm, AodvMsg.setChannel,
          aodvSocketProcessPacket, own]
      · cases h
    · cases h
  | _ => cases h

/-- Without a RERR and without a record timer an event leaves the records alone, and they do
not matter to it. -/
theorem step_of_not_rerr (h : e.rerr n.ipaddr = none) (ht : ∀ r, e ≠ .rerrRecordTimer r) :
    step c e (recs, n) = (recs, (step c e ([], n)).2) := by
  cases e with
  | recv p =>
    simp only [step, recv]
    split
    · rfl
    · split
      · next hp =>
        unfold recvAODVUUPacket
        cases hm : p.msg with
        | none => rfl
        | some m =>
          dsimp only
          split
          · rfl
          · next hs =>
            cases m with
            | rerr m =>
              have hsome : (Event.recv p).rerr n.ipaddr ≠ none := by
                simp only [Event.rerr]
                rw [if_pos ⟨hp, hs⟩, hm]
                exact Option.some_ne_none _
              exact absurd h hsome
            | rrep m =>
              simp only [AodvMsg.setChannel, aodvSocketProcessPacket]
              split <;> rfl
            | rreq m => rfl
            | rrepAck m => rfl
            | overlaid m uds => rfl
      · rfl
  | rerrRecordTimer r => exact absurd rfl (ht r)
  | _ => rfl

theorem step_rerrRecordTimer (r : RerrRecord) :
    step c (.rerrRecordTimer r) (recs, n) =
      if r ∈ recs ∧ r.agent = n.ipaddr then (recs.eraseP (fun r' => r'.key = r.key), n)
      else (recs, n) := by
  simp [step, rerrRecordTimeout, RerrRecord.key]

end Step

/-! ## A run of the process -/

variable (cf : Conf) (ext : Extern)

def Process.init (env : InAddr → Env) : Process where
  node a := Node.init ⟨cf, ext, env a⟩ a

def Process.step (P : Process) (o : Occurrence) : Process :=
  let s := AodvUU.step ⟨cf, ext, o.env⟩ o.event (P.recs, P.node o.agent)
  ⟨s.1, Function.update P.node o.agent s.2⟩

/-- Records are told apart by their keys, and an agent keeps its address. -/
structure Process.Wf (P : Process) : Prop where
  ipaddr : ∀ a, (P.node a).ipaddr = a
  keys : (P.recs.map (·.key)).Nodup

variable {cf ext}

theorem step_ipaddr (hext : ext.Within .all cf) (env : Env) (e : Event) (recs : List RerrRecord)
    (n : Node) : (step ⟨cf, ext, env⟩ e (recs, n)).2.ipaddr = n.ipaddr := by
  by_cases hq : ∃ q, e = .ifqueue q
  · obtain ⟨q, rfl⟩ := hq
    rfl
  · exact (step_effects (hext.linkBreaks env) (updates_all (hext.linkBreaks env))
      (hext.neighborAdds env) trivial trivial trivial e recs n (fun q he => hq ⟨q, he⟩)
      fun _ _ _ _ _ => trivial).ipaddr

def newRerrRecord (now : Time) (agent : InAddr) (d : RerrInput) : RerrRecord where
  origAddr := d.rerr.rerrOriginAddr
  rerrId := d.rerr.rerrId
  lastAddr := d.ipSrc
  recTimer := Timer.setTimeout { handler := .rerrRecordTimeout } now rerrTime
  agent := agent

theorem step_recs (hext : ext.Within .all cf) (env : Env) (e : Event) (recs : List RerrRecord)
    (n : Node) :
    let recs' := (step ⟨cf, ext, env⟩ e (recs, n)).1
    recs' = recs ∨
    (∃ d, e.rerr n.ipaddr = some d ∧ (∀ r ∈ recs, r.key ≠ d.key) ∧
      recs' = newRerrRecord env.now n.ipaddr d :: recs) ∨
    (∃ r ∈ recs, r.agent = n.ipaddr ∧ e = .rerrRecordTimer r ∧
      recs' = recs.eraseP (fun r' => r'.key = r.key)) := by
  intro recs'
  cases hd : e.rerr n.ipaddr with
  | some d =>
    have hip : (ext.neighborAdd env (.rerr d.rerr) d.ipSrc n).ipaddr = n.ipaddr :=
      (hext.neighborAdds env (.rerr d.rerr) d.ipSrc n).ipaddr
    have hstep := step_of_rerr (c := ⟨cf, ext, env⟩) recs hd
    have hrecs : recs' = _ := congrArg Prod.fst hstep
    unfold rerrProcess at hrecs
    by_cases hfind : rerrRecordFind recs d.rerr.rerrOriginAddr d.rerr.rerrId d.ipSrc = none
    · refine .inr (.inl ⟨d, rfl, find_eq_none.mp hfind, ?_⟩)
      have hinsert : recs' = rerrRecordInsert ⟨cf, ext, env⟩ d.rerr.rerrOriginAddr d.rerr.rerrId
          d.ipSrc (ext.neighborAdd env (.rerr d.rerr) d.ipSrc n).ipaddr recs := by
        rw [hrecs, if_neg (by simp [hfind])]
        dsimp only
        split <;> rfl
      rw [hinsert, hip]
      unfold rerrRecordInsert
      rw [hfind]
      rfl
    · rw [if_pos (Option.isSome_iff_ne_none.mpr hfind)] at hrecs
      exact .inl hrecs
  | none =>
    by_cases ht : ∃ r, e = .rerrRecordTimer r
    · obtain ⟨r, rfl⟩ := ht
      have hrecs : recs' = _ := congrArg Prod.fst (step_rerrRecordTimer recs r)
      split at hrecs
      · next hr => exact .inr (.inr ⟨r, hr.1, hr.2, rfl, hrecs⟩)
      · exact .inl hrecs
    · have hstep := step_of_not_rerr (c := ⟨cf, ext, env⟩) recs hd
        fun r hr => ht ⟨r, hr⟩
      exact .inl (congrArg Prod.fst hstep)

theorem Process.Wf.step_recs {P : Process} (hext : ext.Within .all cf) (h : P.Wf)
    (o : Occurrence) :
    (P.step cf ext o).recs = P.recs ∨
    (∃ d, o.event.rerr o.agent = some d ∧ (∀ r ∈ P.recs, r.key ≠ d.key) ∧
      (P.step cf ext o).recs = newRerrRecord o.env.now o.agent d :: P.recs) ∨
    (∃ r ∈ P.recs, r.agent = o.agent ∧ o.event = .rerrRecordTimer r ∧
      (P.step cf ext o).recs = P.recs.eraseP (fun r' => r'.key = r.key)) := by
  have hcases := AodvUU.step_recs hext o.env o.event P.recs (P.node o.agent)
  rw [h.ipaddr o.agent] at hcases
  exact hcases

theorem Process.Wf.step {P : Process} (hext : ext.Within .all cf) (h : P.Wf) (o : Occurrence) :
    (P.step cf ext o).Wf where
  ipaddr a := by
    by_cases ha : a = o.agent
    · subst ha
      have hip := step_ipaddr hext o.env o.event P.recs (P.node o.agent)
      simpa [Process.step] using hip.trans (h.ipaddr o.agent)
    · simpa [Process.step, Function.update_of_ne ha] using h.ipaddr a
  keys := by
    rcases h.step_recs hext o with hr | ⟨d, -, hnew, hr⟩ | ⟨r, -, -, -, hr⟩
    · rw [hr]
      exact h.keys
    · rw [hr, List.map_cons, List.nodup_cons]
      refine ⟨fun hmem => ?_, h.keys⟩
      obtain ⟨r, hr, hkey⟩ := List.mem_map.mp hmem
      exact hnew r hr hkey
    · rw [hr]
      exact h.keys.sublist (List.eraseP_sublist.map _)

theorem init_wf (env : InAddr → Env) : (Process.init cf ext env).Wf :=
  ⟨fun _ => rfl, List.nodup_nil⟩

/-! ## Duplicate suppression -/

/-- A RERR handed to `rerr_process`; `skipped` tells that a record for it was found. -/
structure Delivery extends RerrInput where
  agent : InAddr
  time : Time
  skipped : Bool

def Delivery.Applied (d : Delivery) : Prop :=
  d.skipped = false ∧ rerrCalcSize (.rerr d.rerr) ≤ d.rerrlen

def Delivery.SoonAfter (d d' : Delivery) : Prop :=
  d'.time ≤ d.time ∧ d.time ≤ timevalAddMsec d'.time rerrTime

def Process.delivery (P : Process) (o : Occurrence) : Option Delivery :=
  (o.event.rerr (P.node o.agent).ipaddr).map fun d =>
    { d with
      agent := o.agent
      time := o.env.now
      skipped := (rerrRecordFind P.recs d.rerr.rerrOriginAddr d.rerr.rerrId d.ipSrc).isSome }

theorem step_of_delivery {P : Process} {o : Occurrence} {d : Delivery}
    (h : P.delivery o = some d) :
    let n := ext.neighborAdd o.env (.rerr d.rerr) d.ipSrc (P.node o.agent)
    (P.step cf ext o).node o.agent =
      if d.skipped = true ∨ d.rerrlen < rerrCalcSize (.rerr d.rerr) then n
      else rerrWalk ⟨cf, ext, o.env⟩ d.rerr d.ipSrc n := by
  intro n
  obtain ⟨i, hi, rfl⟩ := Option.map_eq_some_iff.mp h
  have hstep := step_of_rerr (c := ⟨cf, ext, o.env⟩) P.recs hi
  have hnode : (P.step cf ext o).node o.agent = _ :=
    (Function.update_self _ _ _).trans (congrArg Prod.snd hstep)
  rw [hnode, rerrProcess]
  by_cases hfind : (rerrRecordFind P.recs i.rerr.rerrOriginAddr i.rerr.rerrId i.ipSrc).isSome
  · simp [hfind, n]
  · by_cases hlen : i.rerrlen < rerrCalcSize (.rerr i.rerr)
    · simp [hfind, hlen, n]
    · simp [hfind, hlen, n]

/-- The runs of a process with their deliveries, latest first. Events come in the order of
their times, and no record outlives its timer. -/
inductive Process.Run (cf : Conf) (ext : Extern) : List Delivery → Time → Process → Prop where
  | init (env : InAddr → Env) (now : Time) : Run cf ext [] now (Process.init cf ext env)
  | step {log : List Delivery} {now : Time} {P : Process} (o : Occurrence) :
      Run cf ext log now P → now ≤ o.env.now →
      (∀ r ∈ P.recs, o.env.now ≤ r.recTimer.timeout) →
      Run cf ext ((P.delivery o).toList ++ log) o.env.now (P.step cf ext o)

structure Process.Logged (P : Process) (log : List Delivery) (now : Time) : Prop where
  past : ∀ d ∈ log, d.time ≤ now
  recorded : ∀ r ∈ P.recs, ∃ d ∈ log, d.skipped = false ∧ d.key = r.key ∧ d.agent = r.agent ∧
    r.recTimer.timeout = timevalAddMsec d.time rerrTime

theorem Process.Logged.step {P : Process} {log : List Delivery} {now : Time} {o : Occurrence}
    (hext : ext.Within .all cf) (hwf : P.Wf) (h : P.Logged log now) (hnow : now ≤ o.env.now) :
    (P.step cf ext o).Logged ((P.delivery o).toList ++ log) o.env.now where
  past d hd := by
    rcases List.mem_append.mp hd with hd | hd
    · obtain ⟨i, -, rfl⟩ := Option.map_eq_some_iff.mp (Option.mem_toList.mp hd)
      exact le_refl _
    · exact le_trans (h.past d hd) hnow
  recorded := by
    have hold : ∀ r ∈ P.recs, ∃ d ∈ (P.delivery o).toList ++ log, d.skipped = false ∧
        d.key = r.key ∧ d.agent = r.agent ∧
        r.recTimer.timeout = timevalAddMsec d.time rerrTime := by
      intro r hr
      obtain ⟨d, hd, hfacts⟩ := h.recorded r hr
      exact ⟨d, List.mem_append_right _ hd, hfacts⟩
    intro r hr
    rcases hwf.step_recs hext o with heq | ⟨d, hd, hnew, heq⟩ | ⟨r', -, -, -, heq⟩
    · exact hold r (heq ▸ hr)
    · rcases List.mem_cons.mp (heq ▸ hr) with rfl | hr
      · have hnone := find_eq_none.mpr hnew
        refine ⟨⟨d, o.agent, o.env.now, false⟩, ?_, rfl, rfl, rfl, rfl⟩
        simp [Process.delivery, hwf.ipaddr o.agent, hd, hnone]
      · exact hold r hr
    · exact hold r (List.mem_of_mem_eraseP (heq ▸ hr))

theorem run_logged {log : List Delivery} {now : Time} {P : Process} (hext : ext.Within .all cf)
    (h : P.Run cf ext log now) : P.Wf ∧ P.Logged log now := by
  induction h with
  | init env now =>
    exact ⟨init_wf env, fun d hd => absurd hd List.not_mem_nil,
      fun r hr => absurd hr List.not_mem_nil⟩
  | step o _ hnow _ ih => exact ⟨ih.1.step hext o, ih.2.step hext ih.1 hnow⟩

/-- A delivery is skipped only for one that applied the same list shortly before. -/
def Delivery.Justified (d : Delivery) (earlier : List Delivery) : Prop :=
  d.skipped = true → ∃ d' ∈ earlier, d'.Applied ∧ d'.agent = d.agent ∧ d'.ipSrc = d.ipSrc ∧
    d'.rerr.walk = d.rerr.walk ∧ d.SoonAfter d'

def OnlyCopiesSkipped : List Delivery → Prop
  | [] => True
  | d :: ds => d.Justified ds ∧ OnlyCopiesSkipped ds

/-- What `rerr_process` relies on when it takes `d` for a copy of `d'`. -/
def Delivery.Copies (d d' : Delivery) : Prop :=
  d'.skipped = false ∧ d'.key = d.key ∧ d.SoonAfter d' →
    d'.agent = d.agent ∧ d'.rerr.walk = d.rerr.walk ∧ rerrCalcSize (.rerr d'.rerr) ≤ d'.rerrlen

theorem delivery_justified {log : List Delivery} {now : Time} {P : Process} {o : Occurrence}
    {d : Delivery} (h : P.Logged log now) (hnow : now ≤ o.env.now)
    (hdue : ∀ r ∈ P.recs, o.env.now ≤ r.recTimer.timeout) (hd : P.delivery o = some d)
    (hcopies : ∀ d' ∈ log, d.Copies d') : d.Justified log := by
  intro hskip
  obtain ⟨i, -, rfl⟩ := Option.map_eq_some_iff.mp hd
  obtain ⟨r, hfind⟩ := Option.isSome_iff_exists.mp hskip
  have hr : r ∈ P.recs := List.mem_of_find?_eq_some hfind
  have hkey : r.key = i.key := by simpa [RerrRecord.key, RerrInput.key] using List.find?_some hfind
  -- the delivery that made the record
  obtain ⟨d', hd', hmade, hkey', -, htime⟩ := h.recorded r hr
  have hsoon : Delivery.SoonAfter ⟨i, o.agent, o.env.now, true⟩ d' :=
    ⟨le_trans (h.past d' hd') hnow, htime ▸ hdue r hr⟩
  obtain ⟨hagent, hwalk, hlen⟩ := hcopies d' hd' ⟨hmade, hkey'.trans hkey, hsoon⟩
  have hsrc : d'.ipSrc = i.ipSrc := congrArg (fun k : RerrKey => k.2.2) (hkey'.trans hkey)
  exact ⟨d', hd', ⟨hmade, hlen⟩, hagent, hsrc, hwalk, hsoon⟩

/-- Duplicate suppression is sound in every run in which two RERRs of one neighbour with equal
`rerr_id` and `rerr_origin_addr` within `RERR_TIME` are copies: to one agent, with one list,
the recorded one not cut short. -/
theorem only_copies_skipped {log : List Delivery} {now : Time} {P : Process}
    (hext : ext.Within .all cf)
    (h : P.Run cf ext log now) (hcopies : log.Pairwise Delivery.Copies) : OnlyCopiesSkipped log := by
  induction h with
  | init env now => trivial
  | @step log now P o hrun hnow hdue ih =>
    cases hd : P.delivery o with
    | none =>
      rw [hd] at hcopies
      exact ih hcopies
    | some d =>
      rw [hd] at hcopies
      obtain ⟨hfirst, hrest⟩ := List.pairwise_cons.mp hcopies
      exact ⟨delivery_justified (run_logged hext hrun).2 hnow hdue hd hfirst, ih hrest⟩

instance (d : Delivery) : Decidable d.Applied := inferInstanceAs (Decidable (_ ∧ _))

instance (d d' : Delivery) : Decidable (d.SoonAfter d') := inferInstanceAs (Decidable (_ ∧ _))

instance (d d' : Delivery) : Decidable (d.Copies d') := inferInstanceAs (Decidable (_ → _))

instance (d : Delivery) (ds : List Delivery) : Decidable (d.Justified ds) :=
  inferInstanceAs (Decidable (_ → _))

instance decidableOnlyCopiesSkipped : (ds : List Delivery) → Decidable (OnlyCopiesSkipped ds)
  | [] => .isTrue trivial
  | d :: ds =>
    have := decidableOnlyCopiesSkipped ds
    inferInstanceAs (Decidable (d.Justified ds ∧ OnlyCopiesSkipped ds))

/-! ## Two route errors of one neighbour -/

def brokenAt2 : Process :=
  (Process.init {} (.described sampleLog {}) fun _ => { now := 0 })
    |>.step {} (.described sampleLog {}) ⟨2, { now := 0 }, .recv (dataFrom 3 8)⟩
    |>.step {} (.described sampleLog {}) ⟨2, { now := 1000 }, .recv (dataFrom 3 9)⟩

def Output.packet : Output → Option Packet
  | .sched _ p _ => some p
  | _ => none

/-- The RERR about 8 or 9 as agent 2 sent it on channel 0. -/
def rerrAbout (dst : InAddr) : Packet :=
  (((brokenAt2.node 2).out.filterMap Output.packet).find? fun p => match p.msg with
    | some (.rerr m) => m.destAddr = dst
    | _ => false).getD (dataFrom 0 0)

theorem brokenAt2_run : brokenAt2.Run {} (.described sampleLog {}) [] 1000 :=
  .step ⟨2, { now := 1000 }, .recv (dataFrom 3 9)⟩
    (.step ⟨2, { now := 0 }, .recv (dataFrom 3 8)⟩ (.init (fun _ => { now := 0 }) 0)
      (by decide) (by decide +kernel)) (by decide) (by decide +kernel)

def toldAt1 : Process :=
  brokenAt2.step {} (.described sampleLog {}) ⟨1, { now := 2000 }, .recv (rerrAbout 8)⟩

theorem toldAt1_run : toldAt1.Run {} (.described sampleLog {})
    ((brokenAt2.delivery ⟨1, { now := 2000 }, .recv (rerrAbout 8)⟩).toList ++ []) 2000 :=
  .step _ brokenAt2_run (by decide) (by decide +kernel)

/-- The RERR about 8 comes twice, and the second copy is skipped. -/
theorem only_copies_skipped_twice :
    let log := (toldAt1.delivery ⟨1, { now := 3000 }, .recv (rerrAbout 8)⟩).toList ++
      ((brokenAt2.delivery ⟨1, { now := 2000 }, .recv (rerrAbout 8)⟩).toList ++ [])
    log.map Delivery.skipped = [true, false] ∧ OnlyCopiesSkipped log :=
  ⟨by decide +kernel, only_copies_skipped (described_within trivial (fun _ _ h => h) sampleLog {})
    (.step _ toldAt1_run (by decide) (by decide +kernel)) (by decide +kernel)⟩

/-- The RERR about 9 is taken for a copy of the one about 8. -/
theorem other_list_skipped :
    ¬ ∀ log now P, Process.Run {} (.described sampleLog {}) log now P → OnlyCopiesSkipped log := by
  intro hall
  have hsound := hall _ _ _ (.step ⟨1, { now := 3000 }, .recv (rerrAbout 9)⟩ toldAt1_run
    (by decide) (by decide +kernel))
  exact absurd hsound (by decide +kernel)

end AodvUU

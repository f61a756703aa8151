import AodvUU.RerrRecords

/-! # One agent of a process

Apart from the shared records, an agent only sees its own events. -/
namespace AodvUU

variable {cf : Conf} {ext : Extern} {b : InAddr}

variable (cf ext) in
def Process.run (P : Process) (os : List Occurrence) : Process := os.foldl (Process.step cf ext) P

def Process.agent (P : Process) (b : InAddr) : Agent := (P.recs.filter (·.agent = b), P.node b)

def runAlone (cf : Conf) (ext : Extern) (s : Agent) (os : List Occurrence) : Agent :=
  os.foldl (fun s o => AodvUU.step ⟨cf, ext, o.env⟩ o.event s) s

/-- No RERR at `b` meets a record with its key that another agent made. -/
def Process.Undisturbed (b : InAddr) (o : Occurrence) (P : Process) : Prop :=
  o.agent = b → ∀ d, o.event.rerr b = some d → ∀ r ∈ P.recs, r.key = d.key → r.agent = b

variable (cf ext) in
def Process.AllUndisturbed (b : InAddr) : List Occurrence → Process → Prop
  | [], _ => True
  | o :: os, P => P.Undisturbed b o ∧ AllUndisturbed b os (P.step cf ext o)

/-! ## One step -/

theorem eraseP_key {recs : List RerrRecord} (h : (recs.map (·.key)).Nodup) (k : RerrKey) :
    recs.eraseP (fun r => r.key = k) = recs.filter (fun r => r.key ≠ k) := by
  induction recs with
  | nil => rfl
  | cons r recs ih =>
    obtain ⟨hnew, hrest⟩ := List.nodup_cons.mp h
    by_cases hk : r.key = k
    · have hall : ∀ r' ∈ recs, r'.key ≠ k := fun r' hr' he =>
        hnew (List.mem_map.mpr ⟨r', hr', he.trans hk.symm⟩)
      rw [List.eraseP_cons_of_pos (by simpa using hk), List.filter_cons_of_neg (by simpa using hk)]
      exact (List.filter_eq_self.mpr (by simpa using hall)).symm
    · rw [List.eraseP_cons_of_neg (by simpa using hk), List.filter_cons_of_pos (by simpa using hk),
        ih hrest]

theorem Process.agent_step_of_ne {P : Process} {o : Occurrence} (hext : ext.Within .all cf)
    (hwf : P.Wf) (hb : o.agent ≠ b) : (P.step cf ext o).agent b = P.agent b := by
  have hnode : (P.step cf ext o).node b = P.node b := Function.update_of_ne (Ne.symm hb) _ _
  have hrecs : (P.step cf ext o).recs.filter (·.agent = b) = P.recs.filter (·.agent = b) := by
    rcases hwf.step_recs hext o with h | ⟨d, -, -, h⟩ | ⟨r, hr, hagent, -, h⟩
    · rw [h]
    · rw [h, List.filter_cons_of_neg]
      simp [newRerrRecord, hb]
    · rw [h, eraseP_key hwf.keys, List.filter_filter]
      refine List.filter_congr fun r' hr' => ?_
      by_cases hr'b : r'.agent = b
      · have hne : r'.key ≠ r.key := by
          intro hkey
          have heq : r' = r := List.inj_on_of_nodup_map hwf.keys hr' hr hkey
          rw [heq, hagent] at hr'b
          exact hb hr'b
        simp [hr'b, hne]
      · simp [hr'b]
  rw [Process.agent, hnode, hrecs, Process.agent]

theorem rerrProcess_own {c : Ctx} {recs : List RerrRecord} {n : Node} {d : RerrInput}
    (hip : n.ipaddr = b) (hu : ∀ r ∈ recs, r.key = d.key → r.agent = b) :
    (fun s : Agent => (s.1.filter (·.agent = b), s.2))
        (rerrProcess c d.rerr d.rerrlen d.ipSrc recs n) =
      rerrProcess c d.rerr d.rerrlen d.ipSrc (recs.filter (·.agent = b)) n := by
  have hfind : rerrRecordFind (recs.filter (·.agent = b)) d.rerr.rerrOriginAddr
      d.rerr.rerrId d.ipSrc = none ↔
      rerrRecordFind recs d.rerr.rerrOriginAddr d.rerr.rerrId d.ipSrc = none := by
    rw [find_eq_none, find_eq_none]
    constructor
    · intro h r hr hkey
      exact h r (List.mem_filter.mpr ⟨hr, by simpa using hu r hr hkey⟩) hkey
    · intro h r hr
      exact h r (List.mem_of_mem_filter hr)
  unfold rerrProcess
  by_cases hnone : rerrRecordFind recs d.rerr.rerrOriginAddr d.rerr.rerrId d.ipSrc = none
  · have hnew : (rerrRecordInsert c d.rerr.rerrOriginAddr d.rerr.rerrId d.ipSrc n.ipaddr recs).filter
        (·.agent = b) = rerrRecordInsert c d.rerr.rerrOriginAddr d.rerr.rerrId d.ipSrc
          n.ipaddr (recs.filter (·.agent = b)) := by
      simp [rerrRecordInsert, hnone, hfind.mpr hnone, hip]
    simp only [hnone, hfind.mpr hnone, Option.isSome_none, Bool.false_eq_true, if_false]
    by_cases hlen : d.rerrlen < rerrCalcSize (.rerr d.rerr)
    · simp [hlen, hnew]
    · simp [hlen, hnew]
  · have hsome := Option.isSome_iff_ne_none.mpr hnone
    have hsome' := Option.isSome_iff_ne_none.mpr (mt hfind.mp hnone)
    simp [hsome, hsome']

/-- Its own records decide what an undisturbed agent does. -/
theorem Process.agent_step {P : Process} {o : Occurrence} (hext : ext.Within .all cf)
    (hwf : P.Wf) (hb : o.agent = b) (hu : P.Undisturbed b o) :
    (P.step cf ext o).agent b = AodvUU.step ⟨cf, ext, o.env⟩ o.event (P.agent b) := by
  subst hb
  have hip : (P.node o.agent).ipaddr = o.agent := hwf.ipaddr o.agent
  have hstep : (P.step cf ext o).agent o.agent =
      (fun s : Agent => (s.1.filter (·.agent = o.agent), s.2))
        (AodvUU.step ⟨cf, ext, o.env⟩ o.event (P.recs, P.node o.agent)) :=
    Prod.ext rfl (Function.update_self _ _ _)
  rw [hstep, Process.agent]
  cases hd : o.event.rerr (P.node o.agent).ipaddr with
  | some d =>
    have hadd : (ext.neighborAdd o.env (.rerr d.rerr) d.ipSrc (P.node o.agent)).ipaddr =
        o.agent := (hext.neighborAdds o.env (.rerr d.rerr) d.ipSrc _).ipaddr.trans hip
    rw [step_of_rerr _ hd, step_of_rerr _ hd]
    exact rerrProcess_own hadd (hu rfl d (hip ▸ hd))
  | none =>
    by_cases ht : ∃ r, o.event = .rerrRecordTimer r
    · obtain ⟨r, hr⟩ := ht
      rw [hr, step_rerrRecordTimer, step_rerrRecordTimer]
      by_cases hown : r ∈ P.recs ∧ r.agent = (P.node o.agent).ipaddr
      · have hown' : r ∈ P.recs.filter (·.agent = o.agent) ∧
            r.agent = (P.node o.agent).ipaddr :=
          ⟨List.mem_filter.mpr ⟨hown.1, by simpa using hown.2.trans hip⟩, hown.2⟩
        have hkeys := hwf.keys.sublist
          ((List.filter_sublist (p := (·.agent = o.agent)) (l := P.recs)).map RerrRecord.key)
        simp only [if_pos hown, if_pos hown', eraseP_key hwf.keys, eraseP_key hkeys,
          List.filter_filter, Bool.and_comm]
      · have hown' : ¬ (r ∈ P.recs.filter (·.agent = o.agent) ∧
            r.agent = (P.node o.agent).ipaddr) :=
          fun h => hown ⟨List.mem_of_mem_filter h.1, h.2⟩
        rw [if_neg hown, if_neg hown']
    · have hother := fun recs => step_of_not_rerr (c := ⟨cf, ext, o.env⟩) recs hd
        fun r hr => ht ⟨r, hr⟩
      rw [hother, hother (P.recs.filter _)]

/-! ## Whole runs -/

theorem Process.agent_run {P : Process} (hext : ext.Within .all cf) (hwf : P.Wf)
    {os : List Occurrence} (hu : P.AllUndisturbed cf ext b os) :
    (P.run cf ext os).agent b = runAlone cf ext (P.agent b) (os.filter (·.agent = b)) := by
  induction os generalizing P with
  | nil => rfl
  | cons o os ih =>
    obtain ⟨hfirst, hrest⟩ := hu
    have hrun := ih (hwf.step hext o) hrest
    by_cases hb : o.agent = b
    · rw [List.filter_cons_of_pos (by simpa using hb)]
      rw [Process.agent_step hext hwf hb hfirst] at hrun
      exact hrun
    · rw [List.filter_cons_of_neg (by simpa using hb)]
      rw [Process.agent_step_of_ne hext hwf hb] at hrun
      exact hrun

/-- Two runs with the same events at `b` leave `b` in the same state, its trace of outputs
included, when its RERRs never meet a record of another agent. -/
theorem same_events_same_agent (hext : ext.Within .all cf) {env env' : InAddr → Env}
    {os os' : List Occurrence} (henv : env b = env' b)
    (hsame : os.filter (·.agent = b) = os'.filter (·.agent = b))
    (hu : (Process.init cf ext env).AllUndisturbed cf ext b os)
    (hu' : (Process.init cf ext env').AllUndisturbed cf ext b os') :
    ((Process.init cf ext env).run cf ext os).agent b =
      ((Process.init cf ext env').run cf ext os').agent b := by
  have hinit : (Process.init cf ext env).agent b = (Process.init cf ext env').agent b := by
    simp [Process.agent, Process.init, henv]
  rw [Process.agent_run hext (init_wf env) hu, Process.agent_run hext (init_wf env') hu', hsame,
    hinit]

/-! ## Two neighbours of agent 2 -/

def routeOver2 : Occurrence :=
  ⟨1, { now := 0 }, .recv (rreqFrom 2 0
    { type := aodvRreq, hcnt := 1, rreqId := 7, destAddr := 4, origAddr := 9, origSeqno := 6,
      exts := [.cost 0] })⟩

def lostAt (a : InAddr) (now : Time) : Occurrence := ⟨a, { now }, .recv (rerrAbout 9)⟩

def quietProcess : Process := .init {} (.described sampleLog {}) fun _ => { now := 0 }

theorem same_events_same_agent_later :
    (quietProcess.run {} (.described sampleLog {})
        [routeOver2, lostAt 1 1000, lostAt 3 2000]).agent 1 =
      (quietProcess.run {} (.described sampleLog {}) [routeOver2, lostAt 1 1000]).agent 1 := by
  have hfirst : quietProcess.Undisturbed 1 routeOver2 := fun _ _ _ _ hr => absurd hr List.not_mem_nil
  have hsecond : (quietProcess.step {} (.described sampleLog {}) routeOver2).Undisturbed 1
      (lostAt 1 1000) := by
    have hnil : (quietProcess.step {} (.described sampleLog {}) routeOver2).recs = [] := by
      decide +kernel
    intro _ _ _ r hr
    rw [hnil] at hr
    exact absurd hr List.not_mem_nil
  exact same_events_same_agent (described_within trivial (fun _ _ h => h) sampleLog {}) rfl rfl
    ⟨hfirst, hsecond, fun h => absurd h (by decide), trivial⟩ ⟨hfirst, hsecond, trivial⟩

/-- When 3 hears it first, 1 keeps its route. -/
theorem same_events_other_agent :
    ¬ ∀ os os' : List Occurrence, os.filter (·.agent = 1) = os'.filter (·.agent = 1) →
      (quietProcess.run {} (.described sampleLog {}) os).agent 1 =
        (quietProcess.run {} (.described sampleLog {}) os').agent 1 := by
  intro hall
  have hsame := hall [routeOver2, lostAt 3 1000, lostAt 1 2000] [routeOver2, lostAt 1 2000] rfl
  have hkept : (((quietProcess.run {} (.described sampleLog {})
      [routeOver2, lostAt 3 1000, lostAt 1 2000]).agent 1).2.rt 9).state = .valid := by
    decide +kernel
  rw [hsame] at hkept
  exact absurd hkept (by decide +kernel)

end AodvUU

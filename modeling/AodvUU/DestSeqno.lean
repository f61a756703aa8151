import AodvUU.ActiveCount
import AodvUU.RouteWrites

/-! # The destination sequence numbers

`dest_seqno` of an entry over one handler. Requests, plain replies and timers test the number
before they write it, or increment it. -/
namespace AodvUU

variable {c : Ctx}

def Node.Older (n n' : Node) (d : InAddr) : Prop :=
  ∃ rt rt', n.lookup d = some rt ∧ n'.lookup d = some rt' ∧ rt.destSeqno ≠ 0 ∧
    fresher rt.destSeqno rt'.destSeqno

theorem Node.Older.of_tbl {n n₀ n' : Node} {d : InAddr} (h : n₀.tbl = n.tbl)
    (ho : n.Older n' d) : n₀.Older n' d := by
  unfold Node.Older Node.lookup
  rw [h]
  exact ho

theorem older_of_numbers {n n' : Node} {d : InAddr} (v v' : BitVec 32)
    (hv : (n.lookup d).map (·.destSeqno) = some v)
    (hv' : (n'.lookup d).map (·.destSeqno) = some v') (h0 : v ≠ 0) (hf : fresher v v') :
    n.Older n' d := by
  obtain ⟨rt, hrt, rfl⟩ := Option.map_eq_some_iff.mp hv
  obtain ⟨rt', hrt', rfl⟩ := Option.map_eq_some_iff.mp hv'
  exact ⟨rt, rt', hrt, hrt', h0, hf⟩

/-- The largest `int32_t`, whose successor is older. -/
def maxSeqno : BitVec 32 := 0x7FFFFFFF

theorem not_fresher_seqnoIncr {v : BitVec 32} (hv : v ≠ maxSeqno) :
    ¬ fresher v (seqnoIncr v) := by
  unfold fresher seqnoIncr maxSeqno at *
  rw [BitVec.slt_iff_toInt_lt, not_lt]
  split_ifs with h0 h1
  · simp [h0]
  · simp [h1]
  · simp only [BitVec.toInt_eq_toNat_cond]
    split_ifs <;> bv_omega

theorem fresher_trans {u v w : BitVec 32} (h : ¬ fresher u v) (h' : ¬ fresher v w) :
    ¬ fresher u w := by
  unfold fresher at *
  rw [BitVec.slt_iff_toInt_lt] at *
  omega

theorem RtTable.Ages.not_older {rt rt' : RtTable} (h : rt.Ages rt') (hv : rt.destSeqno ≠ maxSeqno) :
    ¬ fresher rt.destSeqno rt'.destSeqno := by
  rcases h.aged with ⟨_, hs⟩ | ⟨_, _, hs⟩
  · rw [hs]
    simp [fresher, BitVec.slt_iff_toInt_lt]
  · rw [hs]
    exact not_fresher_seqnoIncr hv

theorem not_fresher_of_tested {old seqno : BitVec 32} {p : Prop}
    (h : old = 0 ∨ fresher seqno old ∨ (seqno = old ∧ p)) (h0 : old ≠ 0) :
    ¬ fresher old seqno := by
  unfold fresher at *
  rw [BitVec.slt_iff_toInt_lt] at *
  rcases h with h | h | ⟨rfl, _⟩
  · exact absurd h h0
  · omega
  · omega

/-! ## One handler -/

theorem Node.Wanes.not_older {n n' : Node} (h : n.Wanes n') {d : InAddr}
    (hd : ∀ rt, n.lookup d = some rt → rt.destSeqno ≠ maxSeqno) : ¬ n.Older n' d := by
  rintro ⟨rt, rt', hrt, hrt', _, hf⟩
  obtain ⟨rt₀, hrt₀, hage⟩ := h d rt' hrt'
  cases hrt.symm.trans hrt₀
  exact hage.not_older (hd rt hrt) hf

theorem Node.Installs.not_older {n n₁ n' : Node} {a : InAddr} {w : RtTable}
    (h : n.Installs a w n₁) (hwane : n₁.Wanes n') (hw : w.destSeqno ≠ maxSeqno)
    (hguard : ∀ rt, n.lookup a = some rt → rt.destSeqno ≠ 0 →
      ¬ fresher rt.destSeqno w.destSeqno) {d : InAddr}
    (hd : ∀ rt, n.lookup d = some rt → rt.destSeqno ≠ maxSeqno) : ¬ n.Older n' d := by
  rintro ⟨rt, rt', hrt, hrt', h0, hf⟩
  obtain ⟨rt₁, hrt₁, hage⟩ := hwane d rt' hrt'
  by_cases hda : d = a
  · subst hda
    obtain ⟨rt₁', hrt₁', hinst⟩ := h.entry
    cases hrt₁.symm.trans hrt₁'
    exact fresher_trans (hguard rt hrt h0) ((hinst.trans hage).not_older hw) hf
  · have hrel := h.others d hda
    rw [hrt, hrt₁] at hrel
    cases hrel with
    | some hage' => exact (hage'.trans hage).not_older (hd rt hrt) hf

theorem rreqHandle_not_older (hl : c.LinkBreaks {}) {n : Node} (hwf : RtWf n) {rreq : RREQ}
    (hown : rreq.origAddr ≠ n.ipaddr) (hv : rreq.origSeqno ≠ maxSeqno) (ipSrc : InAddr)
    (ttl : Int) {d : InAddr} (hd : ∀ rt, n.lookup d = some rt → rt.destSeqno ≠ maxSeqno) :
    ¬ n.Older (rreqHandle c rreq ipSrc ttl n) d := by
  have hrec : Traffic n (rreqRecordInsertWithCost c rreq.origAddr rreq.rreqId
      (lastCost (c.ext.log maxNum) rreq.exts) n) := rreqRecordInsertWithCost_traffic _ _ _ n
  rcases rreqHandle_cases c rreq ipSrc ttl n with ⟨-, heq⟩ | ⟨-, ⟨-, heq⟩ | ⟨n₁, hrev, heq⟩⟩
  · rw [heq]
    exact (Node.Wanes.of_ages (.of_tbl rfl)).not_older hd
  · rw [heq]
    exact (Node.Wanes.of_ages (.of_tbl hrec.tbl)).not_older hd
  · obtain ⟨hguard, w, hroute, -, hinst⟩ := rreqReverse_installs hl
      (hwf.of_table hrec.tbl hrec.numEntries) (hrec.ipaddr ▸ hown) hrev
    have hipaddr : n₁.ipaddr = n.ipaddr :=
      (rreqReverse_effects (updates_all hl.widen) trivial hrev).ipaddr.trans hrec.ipaddr
    have htail := rreqAnswer_effects (s := .waning) hl.widen trivial trivial ttl (hipaddr ▸ hown)
    rw [heq]
    intro holder
    refine hinst.not_older htail.wanes (hroute.destSeqno ▸ hv) (fun rt hrt h0 => ?_) ?_
      (holder.of_tbl hrec.tbl)
    · rw [hroute.destSeqno]
      exact not_fresher_of_tested (hguard rt hrt) h0
    · unfold Node.lookup
      rw [hrec.tbl]
      exact hd

theorem rreqLrReverse_not_older (hl : c.LinkBreaks {}) {n n' : Node} (hwf : RtWf n) {rreq : RREQ}
    (hv : rreq.origSeqno ≠ maxSeqno) (ipSrc : InAddr)
    (hwane : (rreqLrReverse c rreq ipSrc n).Wanes n') {d : InAddr}
    (hd : ∀ rt, n.lookup d = some rt → rt.destSeqno ≠ maxSeqno) : ¬ n.Older n' d := by
  revert hwane
  unfold rreqLrReverse
  rw [hwf.rtTableFind_eq_lookup]
  dsimp only
  split
  · next hnone =>
    intro hwane
    exact (rtTableInsert_installs hnone _ _ _ _ _ _).not_older hwane hv
      (fun rt hrt => (Option.some_ne_none rt (hrt.symm.trans hnone)).elim) hd
  · next revRt hrt =>
    split
    · next hguard =>
      intro hwane
      obtain ⟨rt₁, _, hinst⟩ := rtTableUpdateGen_installs hl hrt none ipSrc (rreq.hcnt + 1)
        rreq.origSeqno (reverseLife rreq) .valid revRt.flags
      refine hinst.not_older hwane (by simpa using hv) (fun rt hrt' h0 => ?_) hd
      cases hrt.symm.trans hrt'
      rw [RtTable.write_destSeqno]
      exact not_fresher_of_tested hguard h0
    · intro hwane
      exact hwane.not_older hd

theorem rreqProcessLr_not_older (hl : c.LinkBreaks {}) {n : Node} (hwf : RtWf n) {rreq : RREQ}
    (hv : rreq.origSeqno ≠ maxSeqno) (len : ℕ) (ipSrc : InAddr) (ttl : Int) {d : InAddr}
    (hd : ∀ rt, n.lookup d = some rt → rt.destSeqno ≠ maxSeqno) :
    ¬ n.Older (rreqProcessLr c rreq len ipSrc ttl n) d := by
  have hself : n.Wanes n := .of_ages (.of_tbl rfl)
  unfold rreqProcessLr
  split_ifs with horig hlen hblack hrec
  · exact hself.not_older hd
  · exact hself.not_older hd
  · exact hself.not_older hd
  · exact hself.not_older hd
  · dsimp only
    have hrec : Traffic n (rreqRecordInsert c rreq.origAddr rreq.rreqId n) :=
      rreqRecordInsertWithCost_traffic _ _ _ n
    have hwf' := hwf.of_table hrec.tbl hrec.numEntries
    have hipaddr := (rreqLrReverse_effects (updates_all hl.widen) trivial rreq ipSrc
      (rreqRecordInsert c rreq.origAddr rreq.rreqId n)).ipaddr.trans hrec.ipaddr
    have hexts := rreqLrExts_effects (s := .waning) hl.widen trivial rreq.origAddr rreq.exts
      (rreqLrReverse c rreq ipSrc (rreqRecordInsert c rreq.origAddr rreq.rreqId n))
    have horig' := hexts.ipaddr.trans hipaddr ▸ horig
    intro holder
    refine rreqLrReverse_not_older hl hwf' hv ipSrc (hexts.trans ?_ : Effects c .waning _ _).wanes
      ?_ (holder.of_tbl hrec.tbl)
    · exact rreqLrAnswer_effects hl.widen trivial len ttl horig'
    · unfold Node.lookup
      rw [hrec.tbl]
      exact hd

theorem rrepHandle_not_older (hl : c.LinkBreaks {}) {n : Node} (hwf : RtWf n) {rrep : RREP}
    (hown : rrep.destAddr ≠ n.ipaddr) (hv : rrep.destSeqno ≠ maxSeqno) (ipSrc : InAddr)
    (ttl : Int) {d : InAddr} (hd : ∀ rt, n.lookup d = some rt → rt.destSeqno ≠ maxSeqno) :
    ¬ n.Older (rrepHandle c rrep ipSrc ttl n) d := by
  unfold rrepHandle
  dsimp only
  split
  · exact (Node.Wanes.of_ages (.of_tbl rfl)).not_older hd
  · next n₁ hroute =>
    obtain ⟨hguard, w, hover, -, hinst⟩ := rrepRoute_installs hl hwf hown hroute
    have hipaddr : n₁.ipaddr = n.ipaddr :=
      (rrepRoute_effects (updates_all hl.widen) trivial hroute).ipaddr
    have htail := rrepTail_effects (c := c) (s := .waning) (rtTableFind n rrep.destAddr)
      ((rtTableFind n rrep.origAddr).map (·.destAddr)) ttl (hipaddr ▸ hown)
    refine hinst.not_older htail.wanes (hover.destSeqno ▸ hv) (fun rt hrt h0 => ?_) hd
    rw [hover.destSeqno]
    exact not_fresher_of_tested (hguard rt hrt) h0

theorem timerStep_not_older (hl : c.LinkBreaks {}) (n : Node) (e : Event) {d : InAddr}
    (hd : ∀ rt, n.lookup d = some rt → rt.destSeqno ≠ maxSeqno) :
    ¬ n.Older (timerStep c e n) d :=
  (timerStep_effects (s := .waning) hl.widen trivial e n fun _ _ _ _ _ => trivial).wanes.not_older hd

end AodvUU

import AodvUU.Lib.SerialNumbers
import AodvUU.DestSeqno
import AodvUU.OwnSeqno

/-! # Sequence numbers around the circle

`seqno_incr` walks the circle of the non-zero numbers. The comparisons cast each of their
operands to a signed number, and do not take the difference. -/
namespace AodvUU

variable {c : Ctx}

open SerialNumbers (next raise)

/-- `n` applications of `seqno_incr` make `t` of `s`, for some `n` up to `k`. -/
def IncrsTo (k : ℕ) (s t : BitVec 32) : Prop := ∃ n ≤ k, seqnoIncr^[n] s = t

theorem seqnoIncr_eq_next : seqnoIncr = next := rfl

theorem fresher_iterate_iff {s : BitVec 32} (hs : s ≠ 0) {n : ℕ} (h1 : 1 ≤ n) (hn : n ≤ 2 ^ 30) :
    fresher (seqnoIncr^[n] s) s ↔ 2 ^ 31 ≤ s.toNat ∨ s.toNat + n < 2 ^ 31 := by
  rw [fresher, seqnoIncr_eq_next]
  exact SerialNumbers.slt_iterate_iff (v := 30) hs h1 hn

theorem seqnoRaise_eq_raise (n : Node) {v : BitVec 32} (hv : v ≠ 0) :
    (n.seqnoRaise v).seqno = raise n.seqno v := by
  unfold Node.seqnoRaise raise
  rw [if_neg hv]
  split
  · rfl
  · split
    · rfl
    · rfl

/-! ## The destination -/

theorem effect_seqno {n n' : Node} (h : Effect c {} n n') : n'.seqno = n.seqno := by
  cases h with
  | traffic ht => exact ht.seqno
  | entry | buffer => rfl
  | invalidate a => exact (rtTableInvalidate_tableChange a n).seqno
  | delete hs | insert hs | setSeqno hs | update hs | raise hs | incr hs | flood hs
  | reflood hs => exact hs.elim

theorem effects_seqno {n n' : Node} (h : Effects c {} n n') : n'.seqno = n.seqno := by
  induction h with
  | refl => rfl
  | tail _ he ih => exact (effect_seqno he).trans ih

theorem rreqDestination_seqno (hl : c.LinkBreaks {}) (rreq : RREQ) (n : Node) :
    (rreqDestination c rreq n).seqno = (n.seqnoRaise rreq.destSeqno).seqno := by
  unfold rreqDestination
  exact effects_seqno (rrepReply_effects hl _ _ _ _ fun _ => rfl)

theorem incrsTo_ne_zero {k : ℕ} {s t : BitVec 32} (ht : t ≠ 0)
    (h : IncrsTo k s t ∨ IncrsTo k t s) : s ≠ 0 := by
  rintro rfl
  rcases h with ⟨n, -, hn⟩ | ⟨n, -, hn⟩
  · have hzero : seqnoIncr^[n] 0 = 0 := Function.iterate_fixed rfl n
    exact ht (hn.symm.trans hzero)
  · exact SerialNumbers.iterate_ne_zero ht n hn

/-- A number is judged fresher than the one it was made of, and the destination does not take
its own number back, exactly as long as the walk between the two does not lead from the
positive numbers to the negative ones. -/
theorem seqno_wraparound_iff (hl : c.LinkBreaks {}) :
    (∀ s : BitVec 32, s ≠ 0 → ∀ n, 1 ≤ n → n ≤ 2 ^ 30 →
      (fresher (seqnoIncr^[n] s) s ↔ 2 ^ 31 ≤ s.toNat ∨ s.toNat + n < 2 ^ 31)) ∧
    ∀ (rreq : RREQ) (n : Node), rreq.destSeqno ≠ 0 →
      IncrsTo (2 ^ 30) n.seqno rreq.destSeqno ∨ IncrsTo (2 ^ 30) rreq.destSeqno n.seqno →
      (IncrsTo (2 ^ 30) n.seqno (rreqDestination c rreq n).seqno ↔
        ¬ (rreq.destSeqno.toNat < 2 ^ 31 ∧ 2 ^ 31 ≤ n.seqno.toNat ∧
          IncrsTo (2 ^ 30) rreq.destSeqno n.seqno)) := by
  constructor
  · intro s hs n h1 hn
    exact fresher_iterate_iff hs h1 hn
  · intro rreq n hv hnear
    have hown : n.seqno ≠ 0 := incrsTo_ne_zero hv hnear
    rw [rreqDestination_seqno hl, seqnoRaise_eq_raise n hv]
    exact SerialNumbers.within_raise_iff (v := 30) hown hv hnear

theorem seqno_wraparound_described :
    (∀ s : BitVec 32, s ≠ 0 → ∀ n, 1 ≤ n → n ≤ 2 ^ 30 →
      (fresher (seqnoIncr^[n] s) s ↔ 2 ^ 31 ≤ s.toNat ∨ s.toNat + n < 2 ^ 31)) ∧
    ∀ (rreq : RREQ) (n : Node), rreq.destSeqno ≠ 0 →
      IncrsTo (2 ^ 30) n.seqno rreq.destSeqno ∨ IncrsTo (2 ^ 30) rreq.destSeqno n.seqno →
      (IncrsTo (2 ^ 30) n.seqno (rreqDestination (sampleCtx 0) rreq n).seqno ↔
        ¬ (rreq.destSeqno.toNat < 2 ^ 31 ∧ 2 ^ 31 ≤ n.seqno.toNat ∧
          IncrsTo (2 ^ 30) rreq.destSeqno n.seqno)) :=
  seqno_wraparound_iff ((described_callsOnly sampleLog {}).linkBreaks { now := 0 })

/-- The number after `0x7FFFFFFF` is not fresher. A destination that has reached it is asked
about the number before, and takes that one for its own. -/
theorem seqno_wraparound_loses :
    ¬ fresher (seqnoIncr^[1] 0x7FFFFFFF) 0x7FFFFFFF ∧
    (rreqDestination (sampleCtx 0) { destAddr := 1, origAddr := 2, destSeqno := 0x7FFFFFFF }
      { Node.init (sampleCtx 0) 1 with seqno := 0x80000000 }).seqno = 0x7FFFFFFF ∧
    seqnoIncr 0x7FFFFFFF = 0x80000000 ∧ ¬ IncrsTo (2 ^ 30) 0x80000000 0x7FFFFFFF := by
  refine ⟨by decide, by decide +kernel, by decide, fun hahead => ?_⟩
  have hback : IncrsTo (2 ^ 30) 0x7FFFFFFF 0x80000000 := ⟨1, by norm_num, by decide⟩
  have heq := SerialNumbers.Within.antisymm (by decide) (by decide) hahead hback
  exact absurd heq (by decide)

end AodvUU

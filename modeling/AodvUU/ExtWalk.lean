import AodvUU.Messages
import AodvUU.Lib.ByteMem

/-! # The extension loops

The loops over the extensions of a received message, on its bytes. An extension is a type
byte, a length byte and data. -/
namespace AodvUU

open ByteMem

/-! ## One extension -/

def rreqCostExt : BitVec 8 := 1
def rrepCostExt : BitVec 8 := 1
def rrepHelloIntervalExt : BitVec 8 := 2
def rrepHelloNeighborSetExt : BitVec 8 := 3
def rreqUdestExt : BitVec 8 := 5
def rrepUdestExt : BitVec 8 := 6

def extType (b : Mem) (off : ℕ) : BitVec 8 := b off
def extLength (b : Mem) (off : ℕ) : ℕ := (b (off + 1)).toNat

def extData (off : ℕ) : ℕ := off + aodvExtHdrSize

def extSize (b : Mem) (off : ℕ) : ℕ := aodvExtHdrSize + extLength b off

theorem extSize_le (b : Mem) (off : ℕ) : extSize b off ≤ aodvExtHdrSize + 255 := by
  have hbyte := (b (off + 1)).isLt
  unfold extSize extLength
  omega

/-! ## The loops -/

/-- A loop behind `fixed` bytes. `more` is its test on the length of the message and the bytes
passed, `needs` how much data the body reads or writes at an extension, and `body` what it
leaves in memory, `none` where it ends the loop. -/
structure ExtLoop where
  fixed : ℕ
  more : ℕ → ℕ → Bool
  needs : Mem → ℕ → ℕ
  body : Mem → ℕ → Option Mem

/-- A run of the loop, with the extensions it visits. -/
inductive ExtLoop.Walk (L : ExtLoop) (len : ℕ) : Mem → ℕ → List (Mem × ℕ) → Mem × ℕ → Prop
  | done {b : Mem} {k : ℕ} (h : ¬ L.more len k) : Walk L len b k [] (b, k)
  | left {b : Mem} {k : ℕ} (h : L.more len k) (hb : L.body b (L.fixed + k) = none) :
      Walk L len b k [(b, k)] (b, k)
  | next {b b' : Mem} {k : ℕ} {vs : List (Mem × ℕ)} {e : Mem × ℕ} (h : L.more len k)
      (hb : L.body b (L.fixed + k) = some b')
      (hw : Walk L len b' (k + extSize b' (L.fixed + k)) vs e) : Walk L len b k ((b, k) :: vs) e

/-- `(rreqlen - extlen) > RREQ_SIZE`: the difference is an unsigned number of 32 bits. -/
def moreUnsigned (fixed len k : ℕ) : Bool :=
  fixed < (BitVec.ofNat 32 len - BitVec.ofNat 32 k).toNat

/-- The loop of `rreq_process` and that of `rrep_process`; `addCost` adds the cost of the link
to a `double`. -/
def costLoop (fixed : ℕ) (costExt : BitVec 8) (addCost : BitVec 64 → BitVec 64) : ExtLoop where
  fixed := fixed
  more := moreUnsigned fixed
  needs b off := if extType b off = costExt then 8 else 0
  body b off := some (if extType b off = costExt then
    storeWord (extData off) (addCost (loadWord 64 b (extData off))) b else b)

def rreqLoop (addCost : BitVec 64 → BitVec 64) : ExtLoop := costLoop rreqSize rreqCostExt addCost
def rrepLoop (addCost : BitVec 64 → BitVec 64) : ExtLoop := costLoop rrepSize rrepCostExt addCost

def rreqUdest (b : Mem) (off : ℕ) : RreqUdest :=
  ⟨loadWord 32 b off, loadWord 32 b (off + 4), loadWord 32 b (off + 8)⟩

/-- The first loop of `rreq_process_lr` takes this node off the list. -/
def rreqLrLoop (own : InAddr) : ExtLoop where
  fixed := rreqSize
  more := moreUnsigned rreqSize
  needs b off := if extType b off = rreqUdestExt then 12 else 0
  body b off :=
    let ud := rreqUdest b (extData off)
    some (if extType b off = rreqUdestExt ∧ ud.ifValid ≠ 0 ∧ ud.destAddr = own then
      storeWord (extData off + 8) (0 : BitVec 32) b else b)

/-- Its second loop, at the destination, reads address and number. -/
def rreqLrDestLoop : ExtLoop where
  fixed := rreqSize
  more := moreUnsigned rreqSize
  needs b off := if extType b off = rreqUdestExt then 8 else 0
  body b _ := some b

def rrepUdest (b : Mem) (off : ℕ) : Udest := ⟨loadWord 32 b off, loadWord 32 b (off + 4)⟩

/-- The loop of `rrep_process_lr`; only a forwarder reads the addresses. -/
def rrepLrLoop (atOrigin : Bool) : ExtLoop where
  fixed := rrepSize
  more := moreUnsigned rrepSize
  needs b off := if extType b off = rrepUdestExt ∧ ¬ atOrigin then 4 else 0
  body b _ := some b

/-- The loop of `hello_process` counts a signed length down. The words of a neighbour set are
read while they begin inside the data. -/
def helloLoop : ExtLoop where
  fixed := rrepSize
  more len k := (rrepSize : Int) < (len : Int) - k
  needs b off :=
    if extType b off = rrepHelloIntervalExt then if extLength b off = 4 then 4 else 0
    else if extType b off = rrepHelloNeighborSetExt then (extLength b off + 3) / 4 * 4
    else 0
  body b off :=
    if extType b off = rrepHelloIntervalExt ∨ extType b off = rrepHelloNeighborSetExt then some b
    else none

theorem ExtLoop.Walk.unique {L : ExtLoop} {len k : ℕ} {b : Mem} {vs vs' : List (Mem × ℕ)}
    {e e' : Mem × ℕ} (h : L.Walk len b k vs e) (h' : L.Walk len b k vs' e') :
    vs = vs' ∧ e = e' := by
  induction h generalizing vs' e' with
  | done hmore =>
    cases h' with
    | done => exact ⟨rfl, rfl⟩
    | left h | next h => exact absurd h hmore
  | left hmore hb =>
    cases h' with
    | done h => exact absurd hmore h
    | left => exact ⟨rfl, rfl⟩
    | next _ hb' =>
      rw [hb] at hb'
      cases hb'
  | next hmore hb _ ih =>
    cases h' with
    | done h => exact absurd hmore h
    | left _ hb' =>
      rw [hb] at hb'
      cases hb'
    | next _ hb' hw =>
      rw [hb] at hb'
      cases hb'
      obtain ⟨rfl, rfl⟩ := ih hw
      exact ⟨rfl, rfl⟩

/-! ## Staying inside the message -/

/-- The offsets of the header and of the data that a visit reads or writes. -/
def ExtLoop.Touches (L : ExtLoop) (v : Mem × ℕ) (i : ℕ) : Prop :=
  L.fixed + v.2 ≤ i ∧ i < L.fixed + v.2 + aodvExtHdrSize + L.needs v.1 (L.fixed + v.2)

/-- The loop ends, and touches nothing outside the first `len` bytes. -/
def ExtLoop.Contained (L : ExtLoop) (len : ℕ) (b : Mem) : Prop :=
  ∃ vs e, L.Walk len b 0 vs e ∧ ∀ v ∈ vs, ∀ i, L.Touches v i → i < len

/-- Header and data of every extension that begins in the message lie in it, and the last one
ends at most `slack` bytes behind it. -/
inductive ExtLoop.Fits (L : ExtLoop) (len slack : ℕ) : Mem → ℕ → Prop
  | ended {b : Mem} {k : ℕ} (hend : len ≤ L.fixed + k) (hslack : L.fixed + k ≤ len + slack) :
      Fits L len slack b k
  | left {b : Mem} {k : ℕ}
      (hin : L.fixed + k + aodvExtHdrSize + L.needs b (L.fixed + k) ≤ len)
      (hb : L.body b (L.fixed + k) = none) : Fits L len slack b k
  | ext {b b' : Mem} {k : ℕ}
      (hin : L.fixed + k + aodvExtHdrSize + L.needs b (L.fixed + k) ≤ len)
      (hb : L.body b (L.fixed + k) = some b')
      (h : Fits L len slack b' (k + extSize b' (L.fixed + k))) : Fits L len slack b k

variable {L : ExtLoop} {len slack : ℕ}

theorem ExtLoop.touches_lt_iff {b : Mem} {k : ℕ} : (∀ i, L.Touches (b, k) i → i < len) ↔
    L.fixed + k + aodvExtHdrSize + L.needs b (L.fixed + k) ≤ len := by
  constructor
  · intro h
    have hpos : 0 < aodvExtHdrSize := by decide
    have hlast := h (L.fixed + k + aodvExtHdrSize + L.needs b (L.fixed + k) - 1)
      ⟨by dsimp only; omega, by dsimp only; omega⟩
    omega
  · rintro h i ⟨-, hi⟩
    exact hi.trans_le h

/-- Where the test is false exactly between the end of the message and `slack` bytes behind it,
the loop stays inside the messages whose extensions fit. -/
theorem ExtLoop.contained_iff_fits (hmore : ∀ k, L.fixed + k ≤ len + 256 →
      (L.more len k = false ↔ len ≤ L.fixed + k ∧ L.fixed + k ≤ len + slack))
    (hfixed : L.fixed ≤ len) (b : Mem) : L.Contained len b ↔ L.Fits len slack b 0 := by
  have hhdr : aodvExtHdrSize = 2 := rfl
  constructor
  · rintro ⟨vs, e, hw, hin⟩
    have hreach : L.fixed + 0 ≤ len + 256 := by omega
    generalize 0 = k at hw hreach
    induction hw with
    | done h =>
      obtain ⟨hend, hslack⟩ := (hmore _ hreach).mp (Bool.eq_false_of_not_eq_true h)
      exact .ended hend hslack
    | left _ hb => exact .left (touches_lt_iff.mp (hin _ (by simp))) hb
    | @next b b' k vs e _ hb _ ih =>
      have hfits := touches_lt_iff.mp (hin (b, k) (by simp))
      have hsize := extSize_le b' (L.fixed + k)
      exact .ext hfits hb (ih (fun v hv => hin v (by simp [hv])) (by omega))
  · have hwalk : ∀ b k, L.fixed + k ≤ len + 256 → L.Fits len slack b k →
        ∃ vs e, L.Walk len b k vs e ∧ ∀ v ∈ vs, ∀ i, L.Touches v i → i < len := by
      intro b k hreach hfits
      induction hfits with
      | ended hend hslack =>
        have hfalse := (hmore _ hreach).mpr ⟨hend, hslack⟩
        exact ⟨[], _, .done (by simp [hfalse]), by simp⟩
      | @left b k hin hb =>
        have htrue : L.more len k := by
          by_contra h
          have := (hmore _ hreach).mp (Bool.eq_false_of_not_eq_true h)
          omega
        refine ⟨_, _, .left htrue hb, fun v hv => ?_⟩
        rw [List.mem_singleton.mp hv]
        exact touches_lt_iff.mpr hin
      | @ext b b' k hin hb _ ih =>
        have htrue : L.more len k := by
          by_contra h
          have := (hmore _ hreach).mp (Bool.eq_false_of_not_eq_true h)
          omega
        have hsize := extSize_le b' (L.fixed + k)
        obtain ⟨vs, e, hw, hvs⟩ := ih (by omega)
        refine ⟨_, e, .next htrue hb hw, fun v hv => ?_⟩
        rcases List.mem_cons.mp hv with rfl | hv
        · exact touches_lt_iff.mpr hin
        · exact hvs v hv
    exact hwalk b 0 (by omega)

/-! ## The five handlers -/

def recvBufSize : ℕ := rerrSize + 100 * rerrUdestSize

/-- Within the reach of one extension the unsigned test is false from the end of the message to
`fixed` bytes behind it; further on the difference has wrapped around. -/
theorem moreUnsigned_eq_false {fixed len k : ℕ} (hfixed : fixed ≤ len) (hlen : len ≤ recvBufSize)
    (hreach : fixed + k ≤ len + 256) :
    moreUnsigned fixed len k = false ↔ len ≤ fixed + k ∧ fixed + k ≤ len + fixed := by
  have hbuf : recvBufSize = 824 := rfl
  unfold moreUnsigned
  rw [decide_eq_false_iff_not, BitVec.toNat_sub, BitVec.toNat_ofNat, BitVec.toNat_ofNat]
  omega

theorem helloLoop_more_eq_false {len k : ℕ} (hreach : rrepSize + k ≤ len + 256) :
    helloLoop.more len k = false ↔ len ≤ rrepSize + k ∧ rrepSize + k ≤ len + 256 := by
  have hmore : helloLoop.more len k = decide ((rrepSize : Int) < (len : Int) - k) := rfl
  rw [hmore, decide_eq_false_iff_not]
  omega

/-- A loop with the unsigned test ends inside the message exactly when the extensions fit, the last
with at most `fixed` bytes too many. -/
theorem contained_iff_of_unsigned {L : ExtLoop} (hmore : L.more = moreUnsigned L.fixed) {len : ℕ}
    (hfixed : L.fixed ≤ len) (hlen : len ≤ recvBufSize) (b : Mem) :
    L.Contained len b ↔ L.Fits len L.fixed b 0 := by
  refine ExtLoop.contained_iff_fits (fun k hreach => ?_) hfixed b
  rw [hmore]
  exact moreUnsigned_eq_false hfixed hlen hreach

/-- Each of the extension loops ends, and touches nothing outside the message, exactly when the
extensions fit into it. -/
theorem ext_loops_contained_iff (addCost : BitVec 64 → BitVec 64) (own : InAddr)
    (atOrigin : Bool) {len : ℕ} (hfixed : rreqSize ≤ len) (hlen : len ≤ recvBufSize) (b : Mem) :
    ((rreqLoop addCost).Contained len b ↔ (rreqLoop addCost).Fits len rreqSize b 0) ∧
    ((rreqLrLoop own).Contained len b ↔ (rreqLrLoop own).Fits len rreqSize b 0) ∧
    (rreqLrDestLoop.Contained len b ↔ rreqLrDestLoop.Fits len rreqSize b 0) ∧
    ((rrepLoop addCost).Contained len b ↔ (rrepLoop addCost).Fits len rrepSize b 0) ∧
    ((rrepLrLoop atOrigin).Contained len b ↔ (rrepLrLoop atOrigin).Fits len rrepSize b 0) ∧
    (helloLoop.Contained len b ↔ helloLoop.Fits len 256 b 0) := by
  refine ⟨?_, ?_, ?_, ?_, ?_, ?_⟩
  · exact contained_iff_of_unsigned rfl hfixed hlen b
  · exact contained_iff_of_unsigned rfl hfixed hlen b
  · exact contained_iff_of_unsigned rfl hfixed hlen b
  · exact contained_iff_of_unsigned rfl hfixed hlen b
  · exact contained_iff_of_unsigned rfl hfixed hlen b
  · exact ExtLoop.contained_iff_fits (fun k hreach => helloLoop_more_eq_false hreach) hfixed b

/-- Eight zero bytes behind the fixed struct are four empty extensions. -/
theorem zero_exts_contained : (rreqLoop id).Contained 40 (fun _ => 0) := by
  refine (ext_loops_contained_iff id 0 false (by decide) (by decide) _).1.mpr ?_
  refine .ext (by decide) rfl (.ext (by decide) rfl (.ext (by decide) rfl (.ext (by decide) rfl ?_)))
  exact .ended (by decide) (by decide)

/-- The one extension of a request of 40 bytes has the length byte 255. The bytes passed are then
more than the message has, and the loop goes on behind it. -/
theorem long_ext_not_contained : ¬ ∀ (addCost : BitVec 64 → BitVec 64) (len : ℕ) (b : Mem),
    rreqSize ≤ len → len ≤ recvBufSize → (rreqLoop addCost).Contained len b := by
  intro hall
  have hcont := hall id 40 (fun i => if i = 33 then 255 else 0) (by decide) (by decide)
  have hfits := (contained_iff_of_unsigned rfl (by decide) (by decide) _).mp hcont
  cases hfits with
  | ended hend => exact absurd hend (by decide)
  | left _ hb => cases hb
  | ext _ hb h =>
    cases hb
    cases h with
    | ended _ hslack => exact absurd hslack (by decide)
    | left hin => exact absurd hin (by decide)
    | ext hin => exact absurd hin (by decide)

end AodvUU

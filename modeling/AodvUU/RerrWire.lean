import AodvUU.Messages
import AodvUU.Lib.ByteMem

/-! # Route errors as bytes

The functions that build and walk a RERR, on the bytes of the buffer. `sizeof(RERR)` is 24:
three bytes behind `dest_count` are padding, and the pairs begin at `dest_addr`, in front of
`rerr_id` and `rerr_origin_addr`. -/
namespace AodvUU
namespace RerrWire

open ByteMem

/-! ## Layout -/

def typeOffset : ℕ := 1
def flagsOffset : ℕ := 2
def destCountOffset : ℕ := 4
def destAddrOffset : ℕ := 8
def destSeqnoOffset : ℕ := 12
def rerrIdOffset : ℕ := 16
def rerrOriginAddrOffset : ℕ := 20

/-- `lr` is bit 6 and `n` bit 7, behind `res1`. -/
def flagBits (lr n : Bool) : BitVec 8 := (if lr then 0x40 else 0) ||| (if n then 0x80 else 0)

def destCount (b : Mem) : BitVec 8 := loadWord 8 b destCountOffset

def udest (b : Mem) (off : ℕ) : Udest := ⟨loadWord 32 b off, loadWord 32 b (off + 4)⟩

theorem udest_storeWord_of_disjoint {w off off' : ℕ} (x : BitVec w) (b : Mem)
    (h : off + rerrUdestSize ≤ off' ∨ off' + wordSize w ≤ off) :
    udest (storeWord off' x b) off = udest b off := by
  have hword : wordSize 32 = 4 := rfl
  have hsize : rerrUdestSize = 8 := rfl
  unfold udest
  rw [loadWord_storeWord_of_disjoint x b (by omega), loadWord_storeWord_of_disjoint x b (by omega)]

theorem udest_storeWords (off : ℕ) (addr seqno : BitVec 32) (b : Mem) :
    udest (storeWord (off + 4) seqno (storeWord off addr b)) off = ⟨addr, seqno⟩ := by
  have hword : wordSize 32 = 4 := rfl
  unfold udest
  rw [loadWord_storeWord_of_disjoint seqno _ (by omega), loadWord_storeWord, loadWord_storeWord]

/-! ## Building -/

def rerrCalcSize (b : Mem) : ℕ := rerrSize + (destCount b).toNat * rerrUdestSize - rerrUdestSize

def rerrCreate (flags : BitVec 8) (destAddr : InAddr) (destSeqno : BitVec 32) : Mem :=
  let lr := hasFlag flags rerrLocalRepair
  (fun _ => 0)
    |> storeWord typeOffset (if lr then aodvRerrLr else aodvRerr)
    |> storeWord flagsOffset (flagBits lr (hasFlag flags rerrNodelete))
    |> storeWord destAddrOffset destAddr
    |> storeWord destSeqnoOffset destSeqno
    |> storeWord destCountOffset (1 : BitVec 8)

/-- The pair goes behind the message, as `RERR_CALC_SIZE` gives its length. -/
def rerrAddUdest (u : InAddr) (udestSeqno : BitVec 32) (b : Mem) : Mem :=
  let off := rerrCalcSize b
  let b := b |> storeWord off u |> storeWord (off + 4) udestSeqno
  storeWord destCountOffset (destCount b + 1) b

def setOrigin (rerrId : BitVec 32) (rerrOriginAddr : InAddr) (b : Mem) : Mem :=
  b |> storeWord rerrIdOffset rerrId |> storeWord rerrOriginAddrOffset rerrOriginAddr

def transmit (b : Mem) : Mem := copy (rerrCalcSize b) b

/-! ## Walking -/

def udestFirst : ℕ := destAddrOffset
def udestNext (off : ℕ) : ℕ := off + rerrUdestSize

/-- The loop of `rerr_process`, `dest_count` times. -/
def walkFrom (b : Mem) : ℕ → ℕ → List Udest
  | _, 0 => []
  | off, k + 1 => udest b off :: walkFrom b (udestNext off) k

def walk (b : Mem) : List Udest := walkFrom b udestFirst (destCount b).toNat

theorem walkFrom_eq (b : Mem) (off k : ℕ) :
    walkFrom b off k = (List.range k).map fun i => udest b (off + rerrUdestSize * i) := by
  induction k generalizing off with
  | zero => rfl
  | succ k ih =>
    rw [walkFrom, ih, List.range_succ_eq_map, List.map_cons, List.map_map]
    refine congrArg₂ List.cons rfl (List.map_congr_left fun i _ => ?_)
    have hoff : udestNext off + rerrUdestSize * i = off + rerrUdestSize * (i + 1) := by
      unfold udestNext rerrUdestSize
      omega
    rw [hoff]
    rfl

end RerrWire

/-! ## The bytes of a message -/

open ByteMem RerrWire in
structure RERR.StoredIn (m : RERR) (b : Mem) : Prop where
  type : loadWord 8 b typeOffset = m.type
  flags : loadWord 8 b flagsOffset = flagBits m.lr m.n
  destCount : RerrWire.destCount b = m.destCount
  first : udest b destAddrOffset = ⟨m.destAddr, m.destSeqno⟩
  origin : udest b rerrIdOffset = ⟨m.rerrId, m.rerrOriginAddr⟩
  more : ∀ k (h : k < m.more.length), udest b (rerrSize + rerrUdestSize * k) = m.more[k]

def RERR.Counted (m : RERR) : Prop := m.destCount.toNat = m.more.length + 1

namespace RERR

open ByteMem RerrWire

variable {m : RERR} {b : Mem}

theorem StoredIn.rerrCalcSize_eq (h : m.StoredIn b) (hc : m.Counted) :
    RerrWire.rerrCalcSize b = rerrSize + rerrUdestSize * m.more.length := by
  unfold RerrWire.rerrCalcSize
  rw [h.destCount, hc]
  unfold rerrUdestSize
  omega

theorem rerrCreate_storedIn (flags : BitVec 8) (destAddr : InAddr) (destSeqno : BitVec 32) :
    (AodvUU.rerrCreate flags destAddr destSeqno).StoredIn
      (RerrWire.rerrCreate flags destAddr destSeqno) where
  type := by
    simp (disch := decide) only [RerrWire.rerrCreate, loadWord_storeWord_of_disjoint,
      loadWord_storeWord]
    rfl
  flags := by
    simp (disch := decide) only [RerrWire.rerrCreate, loadWord_storeWord_of_disjoint,
      loadWord_storeWord]
    rfl
  destCount := loadWord_storeWord _ _ _
  first := (udest_storeWord_of_disjoint _ _ (by decide)).trans (udest_storeWords _ _ _ _)
  origin := by
    simp (disch := decide) only [RerrWire.rerrCreate, udest_storeWord_of_disjoint]
    rfl
  more k h := absurd h (Nat.not_lt_zero k)

theorem StoredIn.setOrigin (h : m.StoredIn b) (rerrId : BitVec 32) (rerrOriginAddr : InAddr) :
    StoredIn { m with rerrId, rerrOriginAddr } (RerrWire.setOrigin rerrId rerrOriginAddr b) where
  type := by
    rw [← h.type]
    simp (disch := decide) only [RerrWire.setOrigin, loadWord_storeWord_of_disjoint]
  flags := by
    rw [← h.flags]
    simp (disch := decide) only [RerrWire.setOrigin, loadWord_storeWord_of_disjoint]
  destCount := by
    rw [← h.destCount]
    simp (disch := decide) only [RerrWire.destCount, RerrWire.setOrigin,
      loadWord_storeWord_of_disjoint]
  first := by
    rw [← h.first]
    simp (disch := decide) only [RerrWire.setOrigin, udest_storeWord_of_disjoint]
  origin := udest_storeWords _ _ _ _
  more k hk := by
    have hbehind : rerrOriginAddrOffset + wordSize 32 ≤ rerrSize + rerrUdestSize * k :=
      Nat.le_add_right 24 _
    have hbehind' : rerrIdOffset + wordSize 32 ≤ rerrSize + rerrUdestSize * k :=
      le_trans (by decide) hbehind
    rw [← h.more k hk, RerrWire.setOrigin, udest_storeWord_of_disjoint _ _ (.inr hbehind),
      udest_storeWord_of_disjoint _ _ (.inr hbehind')]

theorem StoredIn.rerrAddUdest (h : m.StoredIn b) (hc : m.Counted) (u : InAddr)
    (udestSeqno : BitVec 32) :
    (AodvUU.rerrAddUdest m u udestSeqno).StoredIn (RerrWire.rerrAddUdest u udestSeqno b) := by
  have hoff := h.rerrCalcSize_eq hc
  unfold RerrWire.rerrAddUdest
  dsimp only
  generalize RerrWire.rerrCalcSize b = off at hoff ⊢
  have hsize : rerrSize = 24 := rfl
  have hudest : rerrUdestSize = 8 := rfl
  have hcount : destCountOffset = 4 := rfl
  have hword : wordSize 32 = 4 := rfl
  have hbyte : wordSize 8 = 1 := rfl
  have hframe : ∀ i, i + 1 ≤ rerrSize → loadWord 8 (storeWord (off + 4) udestSeqno
      (storeWord off u b)) i = loadWord 8 b i := by
    intro i hi
    rw [loadWord_storeWord_of_disjoint _ _ (by omega), loadWord_storeWord_of_disjoint _ _ (by omega)]
  have hpairs : ∀ i, i + rerrUdestSize ≤ off → udest (storeWord (off + 4) udestSeqno
      (storeWord off u b)) i = udest b i := by
    intro i hi
    rw [udest_storeWord_of_disjoint _ _ (by omega), udest_storeWord_of_disjoint _ _ (by omega)]
  have hstored : udest (storeWord (off + 4) udestSeqno (storeWord off u b)) off =
      ⟨u, udestSeqno⟩ := udest_storeWords off u udestSeqno b
  generalize storeWord (off + 4) udestSeqno (storeWord off u b) = b' at hframe hpairs hstored ⊢
  -- the count lies in front of all pairs
  have hpair : ∀ i, destAddrOffset ≤ i →
      udest (storeWord destCountOffset (RerrWire.destCount b' + 1) b') i = udest b' i :=
    fun i hi => udest_storeWord_of_disjoint _ _ (.inr (le_trans (by decide) hi))
  constructor
  · rw [loadWord_storeWord_of_disjoint _ _ (by decide), hframe _ (by decide)]
    exact h.type
  · rw [loadWord_storeWord_of_disjoint _ _ (by decide), hframe _ (by decide)]
    exact h.flags
  · have hold : RerrWire.destCount b' = m.destCount := (hframe _ (by decide)).trans h.destCount
    rw [RerrWire.destCount, loadWord_storeWord, hold]
    rfl
  · rw [hpair _ le_rfl, hpairs _ (by simp only [destAddrOffset]; omega)]
    exact h.first
  · rw [hpair _ (by decide), hpairs _ (by simp only [rerrIdOffset]; omega)]
    exact h.origin
  · intro k hk
    rw [hpair _ (by simp only [destAddrOffset]; omega)]
    have hk' : k < m.more.length + 1 := by simpa [AodvUU.rerrAddUdest] using hk
    by_cases hlast : k = m.more.length
    · subst hlast
      rw [← hoff, hstored]
      simp [AodvUU.rerrAddUdest]
    · have hlt : k < m.more.length := by omega
      have hbefore : rerrSize + rerrUdestSize * k + rerrUdestSize ≤ off := by
        simp only [rerrUdestSize] at hoff ⊢
        omega
      rw [hpairs _ hbefore, h.more k hlt]
      simp [AodvUU.rerrAddUdest, List.getElem_append_left hlt]

theorem Counted.rerrAddUdest (hc : m.Counted) (hlen : m.more.length < 254) (u : InAddr)
    (udestSeqno : BitVec 32) : (AodvUU.rerrAddUdest m u udestSeqno).Counted := by
  have hone : (1 : BitVec 8).toNat = 1 := rfl
  unfold Counted at hc ⊢
  simp only [AodvUU.rerrAddUdest, List.length_append, List.length_singleton, BitVec.toNat_add,
    hc, hone]
  exact Nat.mod_eq_of_lt (by omega)

theorem StoredIn.transmit (h : m.StoredIn b) (hc : m.Counted) :
    m.StoredIn (RerrWire.transmit b) := by
  have hsize := h.rerrCalcSize_eq hc
  have hword : wordSize 32 = 4 := rfl
  have hpair : ∀ i, i + rerrUdestSize ≤ RerrWire.rerrCalcSize b →
      udest (RerrWire.transmit b) i = udest b i := by
    intro i hi
    have hudest : rerrUdestSize = 8 := rfl
    unfold udest RerrWire.transmit
    rw [loadWord_copy (by omega), loadWord_copy (by omega)]
  have hfixed : ∀ i, i + wordSize 8 ≤ rerrSize →
      loadWord 8 (RerrWire.transmit b) i = loadWord 8 b i := fun i hi => loadWord_copy (by omega)
  constructor
  · exact (hfixed _ (by decide)).trans h.type
  · exact (hfixed _ (by decide)).trans h.flags
  · exact (hfixed _ (by decide)).trans h.destCount
  · rw [hpair _ (by rw [hsize]; exact le_trans (by decide) (Nat.le_add_right rerrSize _))]
    exact h.first
  · rw [hpair _ (by rw [hsize]; exact le_trans (by decide) (Nat.le_add_right rerrSize _))]
    exact h.origin
  · intro k hk
    have hinside : rerrSize + rerrUdestSize * k + rerrUdestSize ≤ RerrWire.rerrCalcSize b := by
      rw [hsize]
      simp only [rerrUdestSize]
      omega
    rw [hpair _ hinside]
    exact h.more k hk

theorem StoredIn.walk_eq (h : m.StoredIn b) (hc : m.Counted) : RerrWire.walk b = m.walk := by
  unfold RerrWire.walk RERR.walk
  rw [walkFrom_eq, h.destCount]
  refine List.map_congr_left fun i hi => ?_
  have hi : i < m.more.length + 1 := hc ▸ List.mem_range.mp hi
  match i with
  | 0 => exact h.first
  | 1 => exact h.origin
  | k + 2 =>
    have hk : k < m.more.length := by omega
    have hoff : udestFirst + rerrUdestSize * (k + 2) = rerrSize + rerrUdestSize * k := by
      simp only [udestFirst, destAddrOffset, rerrUdestSize, rerrSize]
      omega
    rw [hoff, h.more k hk]
    simp [RERR.pair, hk]

end RERR

/-! ## Building and walking -/

/-- A RERR about `p` and then `ps`, as the handlers build it. -/
def RERR.ofPairs (flags : BitVec 8) (p : Udest) (ps : List Udest) : RERR :=
  ps.foldl (fun m q => rerrAddUdest m q.destAddr q.destSeqno)
    (rerrCreate flags p.destAddr p.destSeqno)

def RerrWire.ofPairs (flags : BitVec 8) (p : Udest) (ps : List Udest) : ByteMem.Mem :=
  ps.foldl (fun b q => RerrWire.rerrAddUdest q.destAddr q.destSeqno b)
    (RerrWire.rerrCreate flags p.destAddr p.destSeqno)

theorem RERR.foldl_rerrAddUdest {m : RERR} {b : ByteMem.Mem} (h : m.StoredIn b) (hc : m.Counted)
    (ps : List Udest) (hlen : m.more.length + ps.length < 255) :
    let m' := ps.foldl (fun m q => rerrAddUdest m q.destAddr q.destSeqno) m
    m'.StoredIn (ps.foldl (fun b q => RerrWire.rerrAddUdest q.destAddr q.destSeqno b) b) ∧
      m'.Counted ∧ m'.more = m.more ++ ps ∧ m'.destAddr = m.destAddr ∧
      m'.destSeqno = m.destSeqno := by
  induction ps generalizing m b with
  | nil => exact ⟨h, hc, (List.append_nil _).symm, rfl, rfl⟩
  | cons q ps ih =>
    rw [List.length_cons] at hlen
    have hfirst : m.more.length < 254 := by omega
    have hstep : (rerrAddUdest m q.destAddr q.destSeqno).more.length + ps.length < 255 := by
      rw [rerrAddUdest, List.length_append, List.length_singleton]
      omega
    obtain ⟨hstored, hcount, hmore, haddr, hseqno⟩ :=
      ih (h.rerrAddUdest hc q.destAddr q.destSeqno)
        (hc.rerrAddUdest hfirst q.destAddr q.destSeqno) hstep
    refine ⟨hstored, hcount, hmore.trans ?_, haddr, hseqno⟩
    simp [rerrAddUdest]

/-- The walk reads `rerr_id` and `rerr_origin_addr` as the second pair, and the others one
place late. -/
theorem RERR.walk_of_counted {m : RERR} (hc : m.Counted) :
    m.walk = (⟨m.destAddr, m.destSeqno⟩ :: ⟨m.rerrId, m.rerrOriginAddr⟩ :: m.more).take
      (m.more.length + 1) := by
  unfold RERR.walk
  apply List.ext_getElem
  · rw [hc]
    simp
  · intro i h₁ h₂
    have hi : i < m.more.length + 1 := by simpa [hc.symm] using h₁
    simp only [List.getElem_map, List.getElem_range, List.getElem_take]
    match i with
    | 0 => rfl
    | 1 => rfl
    | k + 2 =>
      have hk : k < m.more.length := by omega
      simp [RERR.pair, hk]

theorem take_cons_eq_self_iff {α : Type*} (x : α) (ps : List α) :
    (x :: ps).take ps.length = ps ↔ ∀ q ∈ ps, q = x := by
  induction ps generalizing x with
  | nil => simp
  | cons q ps ih =>
    rw [List.length_cons, List.take_succ_cons, List.cons.injEq, ih q, List.forall_mem_cons]
    constructor
    · rintro ⟨rfl, hall⟩
      exact ⟨rfl, hall⟩
    · rintro ⟨rfl, hall⟩
      exact ⟨rfl, hall⟩

/-- Decoding returns the encoded list exactly when there is one pair only, or every further
pair repeats what stands in `rerr_id` and `rerr_origin_addr`. -/
theorem rerr_decode_encode_iff (flags : BitVec 8) (p : Udest) (ps : List Udest)
    (hlen : (p :: ps).length ≤ 100) (rerrId : BitVec 32) (rerrOriginAddr : InAddr) :
    RerrWire.walk (RerrWire.transmit (RerrWire.setOrigin rerrId rerrOriginAddr
        (RerrWire.ofPairs flags p ps))) = p :: ps ↔
      ∀ q ∈ ps, q = ⟨rerrId, rerrOriginAddr⟩ := by
  have hcreated : (rerrCreate flags p.destAddr p.destSeqno).Counted := rfl
  have hroom : (rerrCreate flags p.destAddr p.destSeqno).more.length + ps.length < 255 := by
    simp only [rerrCreate, List.length_nil, List.length_cons] at hlen ⊢
    omega
  obtain ⟨hstored, hcount, hmore, haddr, hseqno⟩ := RERR.foldl_rerrAddUdest
    (RERR.rerrCreate_storedIn flags p.destAddr p.destSeqno) hcreated ps hroom
  have hmore : (RERR.ofPairs flags p ps).more = ps := hmore
  have hsent : (RERR.Counted { RERR.ofPairs flags p ps with rerrId, rerrOriginAddr }) := hcount
  have hwalk : RerrWire.walk (RerrWire.transmit (RerrWire.setOrigin rerrId rerrOriginAddr
      (RerrWire.ofPairs flags p ps))) =
      (p :: ⟨rerrId, rerrOriginAddr⟩ :: ps).take (ps.length + 1) := by
    have hbytes := ((hstored.setOrigin rerrId rerrOriginAddr).transmit hsent).walk_eq hsent
    have hfirst : Udest.mk (RERR.ofPairs flags p ps).destAddr (RERR.ofPairs flags p ps).destSeqno =
        p := congrArg₂ Udest.mk haddr hseqno
    refine hbytes.trans ((RERR.walk_of_counted hsent).trans ?_)
    dsimp only
    rw [hmore, hfirst]
  rw [hwalk]
  calc (p :: ⟨rerrId, rerrOriginAddr⟩ :: ps).take (ps.length + 1) = p :: ps
      ↔ (⟨rerrId, rerrOriginAddr⟩ :: ps).take ps.length = ps := by
        rw [List.take_succ_cons, List.cons.injEq, and_iff_right rfl]
    _ ↔ ∀ q ∈ ps, q = ⟨rerrId, rerrOriginAddr⟩ := take_cons_eq_self_iff _ ps

theorem rerr_decode_encode_repeated :
    RerrWire.walk (RerrWire.transmit (RerrWire.setOrigin 3 4
      (RerrWire.ofPairs 0 ⟨8, 5⟩ [⟨3, 4⟩, ⟨3, 4⟩]))) = [⟨8, 5⟩, ⟨3, 4⟩, ⟨3, 4⟩] :=
  (rerr_decode_encode_iff 0 ⟨8, 5⟩ [⟨3, 4⟩, ⟨3, 4⟩] (by decide) 3 4).mpr (by decide)

/-- Of two pairs the second is lost. -/
theorem rerr_decode_encode_two :
    ¬ ∀ (flags : BitVec 8) (p : Udest) (ps : List Udest) (rerrId : BitVec 32)
      (rerrOriginAddr : InAddr), (p :: ps).length ≤ 100 →
      RerrWire.walk (RerrWire.transmit (RerrWire.setOrigin rerrId rerrOriginAddr
        (RerrWire.ofPairs flags p ps))) = p :: ps := by
  intro hall
  have htwo := hall 0 ⟨8, 5⟩ [⟨9, 6⟩] 0 1 (by decide)
  exact absurd htwo (by decide +kernel)

end AodvUU

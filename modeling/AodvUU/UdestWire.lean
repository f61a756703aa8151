import AodvUU.ExtWalk

/-! # Lists of destinations as bytes

Local repair appends one extension for each destination to a request or a reply, behind those
that are there, as `dest_count` tells. -/
namespace AodvUU

open ByteMem

/-- One kind of such extensions: the fixed struct with the place of `dest_count`, the type byte,
and the data. -/
structure UdestList (α : Type) where
  fixed : ℕ
  countOffset : ℕ
  type : BitVec 8
  codec : Codec α
  count_inside : countOffset + 4 ≤ fixed

namespace UdestList

variable {α : Type} (U : UdestList α)

/-! ## Appending -/

def destCount (b : Mem) : BitVec 32 := loadWord 32 b U.countOffset

/-- `RREQ_EXT_OFFSET` and `RREP_EXT_OFFSET` -/
def extOffset (b : Mem) : ℕ :=
  aodvExtHdrSize * ((U.destCount b).toNat - 1) +
    (U.fixed + ((U.destCount b).toNat - 1) * U.codec.size)

/-- `rreq_add_ext` and `rrep_add_ext`, behind the fixed struct. -/
def addExt (off : ℕ) (x : α) (b : Mem) : Mem :=
  b |> storeWord off U.type
    |> storeWord (off + 1) (BitVec.ofNat 8 U.codec.size)
    |> U.codec.store (extData off) x

def addUdest (x : α) (b : Mem) : Mem :=
  let b := U.addExt (U.extOffset b) x b
  storeWord U.countOffset (U.destCount b + 1) b

/-! ## What a message holds -/

def extAt (k : ℕ) : ℕ := U.fixed + (aodvExtHdrSize + U.codec.size) * k

structure Holds (xs : List α) (b : Mem) : Prop where
  count : U.destCount b = BitVec.ofNat 32 (xs.length + 1)
  type : ∀ k < xs.length, b (U.extAt k) = U.type
  length : ∀ k < xs.length, b (U.extAt k + 1) = BitVec.ofNat 8 U.codec.size
  data : ∀ k (h : k < xs.length), U.codec.load b (extData (U.extAt k)) = xs[k]

variable {U} {xs : List α} {b : Mem}

theorem extAt_succ (k : ℕ) : U.extAt (k + 1) = extData (U.extAt k) + U.codec.size := by
  unfold extAt extData
  rw [Nat.mul_add]
  omega

theorem extAt_le {j k : ℕ} (h : j ≤ k) : U.extAt j ≤ U.extAt k :=
  Nat.add_le_add_left (Nat.mul_le_mul_left _ h) _

theorem fixed_le_extAt (k : ℕ) : U.fixed ≤ U.extAt k := Nat.le_add_right _ _

theorem Holds.extOffset (h : U.Holds xs b) (hlen : xs.length + 1 < 2 ^ 32) :
    U.extOffset b = U.extAt xs.length := by
  unfold UdestList.extOffset extAt
  rw [h.count, BitVec.toNat_ofNat, Nat.mod_eq_of_lt hlen, Nat.add_sub_cancel, Nat.add_mul,
    Nat.mul_comm U.codec.size]
  omega

theorem Holds.of_fixed (h : U.Holds xs b) {b' : Mem}
    (hcount : U.destCount b' = U.destCount b) (hb : ∀ i, U.fixed ≤ i → b' i = b i) :
    U.Holds xs b' where
  count := hcount.trans h.count
  type k hk := (hb _ (fixed_le_extAt k)).trans (h.type k hk)
  length k hk := (hb _ ((fixed_le_extAt k).trans (Nat.le_succ _))).trans (h.length k hk)
  data k hk := by
    rw [← h.data k hk]
    refine U.codec.load_congr _ _ _ fun i hi _ => hb i ((fixed_le_extAt k).trans (le_trans ?_ hi))
    exact Nat.le_add_right _ _

theorem Holds.addUdest_fixed (h : U.Holds xs b) (hlen : xs.length + 1 < 2 ^ 32) (x : α) {i : ℕ}
    (hi : i < U.fixed) (hcount : ¬ (U.countOffset ≤ i ∧ i < U.countOffset + 4)) :
    U.addUdest x b i = b i := by
  have hword : wordSize 32 = 4 := rfl
  have hbyte : wordSize 8 = 1 := rfl
  have hhdr : aodvExtHdrSize = 2 := rfl
  have hfixed := U.fixed_le_extAt xs.length
  unfold UdestList.addUdest addExt extData
  rw [h.extOffset hlen, storeWord_of_outside _ _ (by omega),
    U.codec.store_outside _ _ _ _ (by omega), storeWord_of_outside _ _ (by omega),
    storeWord_of_outside _ _ (by omega)]

theorem Holds.addUdest (h : U.Holds xs b) (hlen : xs.length + 1 < 2 ^ 32) (x : α) :
    U.Holds (xs ++ [x]) (U.addUdest x b) := by
  have hoff := h.extOffset hlen
  have hhdr : aodvExtHdrSize = 2 := rfl
  have hword : wordSize 32 = 4 := rfl
  have hbyte : wordSize 8 = 1 := rfl
  have hin := U.count_inside
  have hfixed := U.fixed_le_extAt xs.length
  unfold UdestList.addUdest
  dsimp only
  rw [hoff]
  have hbefore : ∀ i, i < U.extAt xs.length → U.addExt (U.extAt xs.length) x b i = b i := by
    intro i hi
    unfold addExt extData
    rw [U.codec.store_outside _ _ _ _ (by omega), storeWord_of_outside _ _ (by omega),
      storeWord_of_outside _ _ (by omega)]
  have htype : U.addExt (U.extAt xs.length) x b (U.extAt xs.length) = U.type := by
    unfold addExt extData
    rw [U.codec.store_outside _ _ _ _ (by omega), storeWord_of_outside _ _ (by omega),
      storeWord_byte, if_pos rfl]
  have hlength : U.addExt (U.extAt xs.length) x b (U.extAt xs.length + 1) =
      BitVec.ofNat 8 U.codec.size := by
    unfold addExt extData
    rw [U.codec.store_outside _ _ _ _ (by omega), storeWord_byte, if_pos rfl]
  have hdata : U.codec.load (U.addExt (U.extAt xs.length) x b) (extData (U.extAt xs.length)) = x :=
    U.codec.load_store _ _ _
  have hcount : U.destCount (U.addExt (U.extAt xs.length) x b) = BitVec.ofNat 32 (xs.length + 1) := by
    rw [← h.count]
    exact loadWord_congr fun i hi => hbefore _ (by omega)
  generalize U.addExt (U.extAt xs.length) x b = b' at hbefore htype hlength hdata hcount ⊢
  -- the count lies in front of all extensions
  have hrest : ∀ i, U.fixed ≤ i →
      storeWord U.countOffset (U.destCount b' + 1) b' i = b' i :=
    fun i hi => storeWord_of_outside _ _ (by omega)
  have hlast : ∀ k, k < (xs ++ [x]).length → k < xs.length ∨ k = xs.length := by
    intro k hk
    rw [List.length_append, List.length_singleton] at hk
    omega
  have hearlier : ∀ k, k < xs.length → extData (U.extAt k) + U.codec.size ≤ U.extAt xs.length := by
    intro k hk
    rw [← extAt_succ]
    exact extAt_le hk
  refine ⟨?_, fun k hk => ?_, fun k hk => ?_, fun k hk => ?_⟩
  · show loadWord 32 (storeWord U.countOffset (U.destCount b' + 1) b') U.countOffset = _
    rw [loadWord_storeWord, hcount, List.length_append, List.length_singleton]
    exact (BitVec.ofNat_add _ _).symm
  · rw [hrest _ (fixed_le_extAt k)]
    rcases hlast k hk with hk | rfl
    · have := hearlier k hk
      unfold extData at this
      rw [hbefore _ (by omega)]
      exact h.type k hk
    · exact htype
  · have hle := U.fixed_le_extAt k
    rw [hrest _ (by omega)]
    rcases hlast k hk with hk | rfl
    · have := hearlier k hk
      unfold extData at this
      rw [hbefore _ (by omega)]
      exact h.length k hk
    · exact hlength
  · have hload : U.codec.load (storeWord U.countOffset (U.destCount b' + 1) b')
        (extData (U.extAt k)) = U.codec.load b' (extData (U.extAt k)) := by
      refine U.codec.load_congr _ _ _ fun i hi _ => hrest i ?_
      exact (fixed_le_extAt k).trans ((Nat.le_add_right _ _).trans hi)
    rw [hload]
    rcases hlast k hk with hk' | rfl
    · rw [List.getElem_append_left hk', ← h.data k hk']
      have := hearlier k hk'
      exact U.codec.load_congr _ _ _ fun i _ hi => hbefore i (by omega)
    · rw [hdata]
      simp

/-! ## Reading -/

variable (U) in
def read (v : Mem × ℕ) : Option α :=
  if extType v.1 (U.fixed + v.2) = U.type then
    some (U.codec.load v.1 (extData (U.fixed + v.2))) else none

/-- A loop over the message as sent: its body writes at most to the data of the extension it
visits. -/
structure ReadBy (U : UdestList α) (L : ExtLoop) : Prop where
  fixed : L.fixed = U.fixed
  more : L.more = moreUnsigned U.fixed
  body : ∀ b off, extType b off = U.type → ∃ b', L.body b off = some b' ∧
    ∀ i, ¬ (extData off ≤ i ∧ i < extData off + U.codec.size) → b' i = b i

/-- The loop visits the extensions that are there, one after the other, and ends at the end of the
message. -/
theorem Holds.walk {L : ExtLoop} (h : U.Holds xs b) (hL : U.ReadBy L) (hsize : U.codec.size < 256)
    (hfit : U.extAt xs.length ≤ recvBufSize) :
    ∃ vs e, L.Walk (U.extAt xs.length) (copy (U.extAt xs.length) b) 0 vs e ∧
      U.fixed + e.2 = U.extAt xs.length ∧ vs.filterMap U.read = xs := by
  have hhdr : aodvExtHdrSize = 2 := rfl
  have hbuf : recvBufSize = 824 := rfl
  generalize hlen : U.extAt xs.length = len at hfit ⊢
  -- from any extension on, whatever the loop has written to those before
  have hwalk : ∀ m k, k + m = xs.length → ∀ b', (∀ i, U.extAt k ≤ i → i < len → b' i = b i) →
      ∃ vs e, L.Walk len b' (U.extAt k - U.fixed) vs e ∧ U.fixed + e.2 = len ∧
        vs.filterMap U.read = xs.drop k := by
    intro m
    induction m with
    | zero =>
      intro k hk b' hb'
      obtain rfl : k = xs.length := by omega
      have hfixed := U.fixed_le_extAt xs.length
      refine ⟨[], _, .done ?_, ?_, ?_⟩
      · rw [hL.more, hlen, Bool.not_eq_true,
          moreUnsigned_eq_false (by omega) hfit (by omega)]
        omega
      · show U.fixed + (U.extAt xs.length - U.fixed) = len
        omega
      · rw [List.drop_length]
        rfl
    | succ m ih =>
      intro k hk b' hb'
      have hfixed := U.fixed_le_extAt k
      have hnext : extData (U.extAt k) + U.codec.size ≤ len := by
        rw [← extAt_succ, ← hlen]
        exact extAt_le (by omega)
      have hdata : extData (U.extAt k) = U.extAt k + 2 := rfl
      have hoff : L.fixed + (U.extAt k - U.fixed) = U.extAt k := by
        rw [hL.fixed]
        omega
      have hoff' : U.fixed + (U.extAt k - U.fixed) = U.extAt k := by omega
      have htype : extType b' (U.extAt k) = U.type :=
        (hb' _ le_rfl (by omega)).trans (h.type k (by omega))
      obtain ⟨b'', hbody, hkeep⟩ := hL.body b' (U.extAt k) htype
      have hsizek : extSize b'' (U.extAt k) = aodvExtHdrSize + U.codec.size := by
        unfold extSize extLength
        rw [hkeep _ (by omega), hb' _ (by omega) (by omega), h.length k (by omega),
          BitVec.toNat_ofNat, Nat.mod_eq_of_lt hsize]
      have hadvance : U.extAt k - U.fixed + extSize b'' (L.fixed + (U.extAt k - U.fixed)) =
          U.extAt (k + 1) - U.fixed := by
        rw [hoff, hsizek, extAt_succ, hdata]
        omega
      obtain ⟨vs, e, hw, hend, hvs⟩ := ih (k + 1) (by omega) b'' fun i hi hlt => by
        rw [extAt_succ] at hi
        rw [hkeep i (by omega), hb' i (by omega) hlt]
      rw [← hadvance] at hw
      refine ⟨_, e, .next ?_ (by rw [hoff]; exact hbody) hw, hend, ?_⟩
      · have hfalse : moreUnsigned U.fixed len (U.extAt k - U.fixed) = false ↔ _ :=
          moreUnsigned_eq_false (by omega) hfit (by omega)
        rw [hL.more]
        by_contra hno
        have := hfalse.mp (Bool.eq_false_of_not_eq_true hno)
        omega
      · have hlt : k < xs.length := by omega
        have hread : U.read (b', U.extAt k - U.fixed) = some xs[k] := by
          unfold read
          dsimp only
          rw [hoff', if_pos htype, ← h.data k (by omega)]
          exact congrArg some (U.codec.load_congr _ _ _ fun i hi hlt => hb' i (by omega) (by omega))
        rw [List.filterMap_cons_some hread, hvs]
        exact (List.drop_eq_getElem_cons (by omega)).symm
  have hstart := hwalk xs.length 0 (by omega) (copy len b) fun i _ hi => if_pos hi
  have hzero : U.extAt 0 - U.fixed = 0 := by
    unfold extAt
    omega
  rwa [hzero, List.drop_zero] at hstart

end UdestList
end AodvUU

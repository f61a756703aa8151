import AodvUU.SeekList
import AodvUU.UdestWire

/-! # Local repair on the wire

The request of `rreq_local_repair` and the replies to it, byte by byte, from the sender's
functions to the loop of the receiver. -/
namespace AodvUU

open ByteMem

/-! ## The two kinds of lists -/

def rreqUdestCodec : Codec RreqUdest where
  size := 12
  store off ud b := b |> storeWord off ud.destAddr |> storeWord (off + 4) ud.destSeqno
    |> storeWord (off + 8) ud.ifValid
  load := rreqUdest
  load_store off ud b := by
    have hword : wordSize 32 = 4 := rfl
    unfold rreqUdest
    rw [loadWord_storeWord_of_disjoint _ _ (by omega), loadWord_storeWord_of_disjoint _ _ (by omega),
      loadWord_storeWord, loadWord_storeWord_of_disjoint _ _ (by omega), loadWord_storeWord,
      loadWord_storeWord]
  store_outside off ud b i hi := by
    have hword : wordSize 32 = 4 := rfl
    rw [storeWord_of_outside _ _ (by omega), storeWord_of_outside _ _ (by omega),
      storeWord_of_outside _ _ (by omega)]
  load_congr b b' off h := by
    have hword : wordSize 32 = 4 := rfl
    unfold rreqUdest
    rw [loadWord_congr fun i hi => h (off + i) (by omega) (by omega),
      loadWord_congr fun i hi => h (off + 4 + i) (by omega) (by omega),
      loadWord_congr fun i hi => h (off + 8 + i) (by omega) (by omega)]

def rrepUdestCodec : Codec Udest where
  size := 8
  store off ud b := b |> storeWord off ud.destAddr |> storeWord (off + 4) ud.destSeqno
  load := rrepUdest
  load_store off ud b := by
    have hword : wordSize 32 = 4 := rfl
    unfold rrepUdest
    rw [loadWord_storeWord_of_disjoint _ _ (by omega), loadWord_storeWord, loadWord_storeWord]
  store_outside off ud b i hi := by
    have hword : wordSize 32 = 4 := rfl
    rw [storeWord_of_outside _ _ (by omega), storeWord_of_outside _ _ (by omega)]
  load_congr b b' off h := by
    have hword : wordSize 32 = 4 := rfl
    unfold rrepUdest
    rw [loadWord_congr fun i hi => h (off + i) (by omega) (by omega),
      loadWord_congr fun i hi => h (off + 4 + i) (by omega) (by omega)]

def rreqUdests : UdestList RreqUdest where
  fixed := rreqSize
  countOffset := 28
  type := rreqUdestExt
  codec := rreqUdestCodec
  count_inside := by decide

def rrepUdests : UdestList Udest where
  fixed := rrepSize
  countOffset := 24
  type := rrepUdestExt
  codec := rrepUdestCodec
  count_inside := by decide

theorem rreqLrLoop_reads (own : InAddr) : rreqUdests.ReadBy (rreqLrLoop own) where
  fixed := rfl
  more := rfl
  body b off _ := by
    have hword : wordSize 32 = 4 := rfl
    have hsize : rreqUdests.codec.size = 12 := rfl
    unfold rreqLrLoop
    dsimp only
    split
    · exact ⟨_, rfl, fun i hi => storeWord_of_outside _ _ (by omega)⟩
    · exact ⟨b, rfl, fun _ _ => rfl⟩

theorem rreqLrDestLoop_reads : rreqUdests.ReadBy rreqLrDestLoop where
  fixed := rfl
  more := rfl
  body b _ _ := ⟨b, rfl, fun _ _ => rfl⟩

theorem rrepLrLoop_reads (atOrigin : Bool) : rrepUdests.ReadBy (rrepLrLoop atOrigin) where
  fixed := rfl
  more := rfl
  body b _ _ := ⟨b, rfl, fun _ _ => rfl⟩

/-! ## Requests -/

namespace RreqWire

def typeOffset : ℕ := 1
def flagsOffset : ℕ := 2
def hcntOffset : ℕ := 4
def rreqIdOffset : ℕ := 8
def destAddrOffset : ℕ := 12
def destSeqnoOffset : ℕ := 16
def origAddrOffset : ℕ := 20
def origSeqnoOffset : ℕ := 24

/-- `lr` is bit 3, behind `res1`, then `d`, `g`, `r` and `j`. -/
def flagBits (lr d g r j : Bool) : BitVec 8 :=
  (if lr then 0x08 else 0) ||| (if d then 0x10 else 0) ||| (if g then 0x20 else 0) |||
    (if r then 0x40 else 0) ||| (if j then 0x80 else 0)

/-- `rreq_create`, for the numbers it takes from `this_host`. -/
def rreqCreate (flags : BitVec 8) (rreqId : BitVec 32) (destAddr : InAddr) (destSeqno : BitVec 32)
    (origAddr : InAddr) (origSeqno : BitVec 32) : Mem :=
  let lr := hasFlag flags rreqLocalRepairFlag
  (fun _ => 0)
    |> storeWord typeOffset (if lr then aodvRreqLr else aodvRreq)
    |> storeWord rreqIdOffset rreqId
    |> storeWord destAddrOffset destAddr
    |> storeWord destSeqnoOffset destSeqno
    |> storeWord origAddrOffset origAddr
    |> storeWord origSeqnoOffset origSeqno
    |> storeWord rreqUdests.countOffset (1 : BitVec 32)
    |> storeWord flagsOffset (flagBits lr (hasFlag flags rreqDestOnly)
        (hasFlag flags rreqGratuitous) (hasFlag flags rreqRepair) (hasFlag flags rreqJoin))

end RreqWire

open RreqWire

structure RREQ.StoredIn (m : RREQ) (b : Mem) : Prop where
  type : loadWord 8 b typeOffset = m.type
  flags : loadWord 8 b flagsOffset = flagBits m.lr m.d m.g m.r m.j
  hcnt : loadWord 8 b hcntOffset = m.hcnt
  rreqId : loadWord 32 b rreqIdOffset = m.rreqId
  destAddr : loadWord 32 b destAddrOffset = m.destAddr
  destSeqno : loadWord 32 b destSeqnoOffset = m.destSeqno
  origAddr : loadWord 32 b origAddrOffset = m.origAddr
  origSeqno : loadWord 32 b origSeqnoOffset = m.origSeqno
  destCount : rreqUdests.destCount b = m.destCount
  exts : ∃ uds, m.exts = uds.map .rreqUdest ∧ rreqUdests.Holds uds b

theorem rreqCreate_storedIn (flags : BitVec 8) (destAddr : InAddr) (destSeqno : BitVec 32)
    (origAddr : InAddr) (n : Node) :
    (rreqCreate flags destAddr destSeqno origAddr n).bufRreq.StoredIn
      (RreqWire.rreqCreate flags n.rreqId destAddr destSeqno origAddr (seqnoIncr n.seqno)) := by
  have hid : n.rreqId + 1 - 1 = n.rreqId := by
    rw [BitVec.add_sub_cancel]
  constructor
  case exts =>
    refine ⟨[], rfl, ?_, nofun, nofun, nofun⟩
    simp (disch := decide) only [UdestList.destCount, RreqWire.rreqCreate,
      loadWord_storeWord_of_disjoint, loadWord_storeWord]
    rfl
  case rreqId =>
    simp (disch := decide) only [RreqWire.rreqCreate, loadWord_storeWord_of_disjoint,
      loadWord_storeWord]
    exact hid.symm
  all_goals
    simp (disch := decide) only [UdestList.destCount, RreqWire.rreqCreate,
      loadWord_storeWord_of_disjoint, loadWord_storeWord]
    rfl

variable {m : RREQ} {b : Mem}

theorem RREQ.StoredIn.of_fixed (h : m.StoredIn b) {b' : Mem} {uds : List RreqUdest}
    (hb : ∀ i < rreqUdests.countOffset, b' i = b i) (hholds : rreqUdests.Holds uds b') :
    RREQ.StoredIn { m with
      exts := uds.map .rreqUdest, destCount := BitVec.ofNat 32 (uds.length + 1) } b' := by
  have hword : wordSize 32 = 4 := rfl
  have hbyte : wordSize 8 = 1 := rfl
  have hload : ∀ {w : ℕ} (off : ℕ), off + wordSize w ≤ rreqUdests.countOffset →
      loadWord w b' off = loadWord w b off :=
    fun off hoff => loadWord_congr fun i hi => hb _ (by omega)
  exact {
    type := (hload _ (by decide)).trans h.type
    flags := (hload _ (by decide)).trans h.flags
    hcnt := (hload _ (by decide)).trans h.hcnt
    rreqId := (hload _ (by decide)).trans h.rreqId
    destAddr := (hload _ (by decide)).trans h.destAddr
    destSeqno := (hload _ (by decide)).trans h.destSeqno
    origAddr := (hload _ (by decide)).trans h.origAddr
    origSeqno := (hload _ (by decide)).trans h.origSeqno
    destCount := hholds.count
    exts := ⟨uds, rfl, hholds⟩ }

theorem RREQ.StoredIn.addUdest (h : m.StoredIn b) (hlen : m.exts.length + 1 < 2 ^ 32)
    (a : InAddr) (v : BitVec 32) :
    (rreqAddUdest m a v).StoredIn (rreqUdests.addUdest ⟨a, v, 1⟩ b) := by
  obtain ⟨uds, hexts, hholds⟩ := h.exts
  have hcount : m.destCount = BitVec.ofNat 32 (uds.length + 1) := h.destCount.symm.trans hholds.count
  rw [hexts, List.length_map] at hlen
  have hfixed : ∀ i < rreqUdests.countOffset, rreqUdests.addUdest ⟨a, v, 1⟩ b i = b i := by
    intro i hi
    have hcount : rreqUdests.countOffset = 28 := rfl
    have hsize : rreqUdests.fixed = 32 := rfl
    exact hholds.addUdest_fixed hlen _ (by omega) (by omega)
  have hstored := h.of_fixed hfixed (hholds.addUdest hlen ⟨a, v, 1⟩)
  have heq : rreqAddUdest m a v = { m with
      exts := (uds ++ [(⟨a, v, 1⟩ : RreqUdest)]).map .rreqUdest
      destCount := BitVec.ofNat 32 ((uds ++ [(⟨a, v, 1⟩ : RreqUdest)]).length + 1) } := by
    unfold rreqAddUdest
    rw [hexts, hcount, List.map_append, List.length_append, List.length_singleton,
      BitVec.ofNat_add (x := uds.length + 1)]
    rfl
  rw [heq]
  exact hstored

theorem RREQ.StoredIn.setDestSeqno (h : m.StoredIn b) (v : BitVec 32) :
    RREQ.StoredIn { m with destSeqno := v } (storeWord destSeqnoOffset v b) := by
  have hword : wordSize 32 = 4 := rfl
  obtain ⟨uds, hexts, hholds⟩ := h.exts
  constructor
  case destSeqno => exact loadWord_storeWord _ _ _
  case exts =>
    refine ⟨uds, hexts, hholds.of_fixed (loadWord_storeWord_of_disjoint _ _ (by decide)) ?_⟩
    intro i hi
    have hfixed : rreqUdests.fixed = 32 := rfl
    have hoff : destSeqnoOffset = 16 := rfl
    exact storeWord_of_outside _ _ (by omega)
  case destCount => exact (loadWord_storeWord_of_disjoint _ _ (by decide)).trans h.destCount
  case type => exact (loadWord_storeWord_of_disjoint _ _ (by decide)).trans h.type
  case flags => exact (loadWord_storeWord_of_disjoint _ _ (by decide)).trans h.flags
  case hcnt => exact (loadWord_storeWord_of_disjoint _ _ (by decide)).trans h.hcnt
  case rreqId => exact (loadWord_storeWord_of_disjoint _ _ (by decide)).trans h.rreqId
  case destAddr => exact (loadWord_storeWord_of_disjoint _ _ (by decide)).trans h.destAddr
  case origAddr => exact (loadWord_storeWord_of_disjoint _ _ (by decide)).trans h.origAddr
  case origSeqno => exact (loadWord_storeWord_of_disjoint _ _ (by decide)).trans h.origSeqno

/-! ## The request of a local repair -/

/-- The entries whose destinations are listed: the one to repair and those that share its next
hop, except the next hop's own. -/
def repairEntries (n : Node) (rt : RtTable) : List RtTable :=
  (if rt.nextHop ≠ rt.destAddr then [rt] else []) ++
    (sharingNextHop rt n).filter (·.destAddr ≠ rt.nextHop)

def repairUdests (n : Node) (a : InAddr) : List RreqUdest :=
  (repairEntries n (n.rt a)).map fun u => ⟨u.destAddr, u.destSeqno, 1⟩

def repairAdd (nextHop : InAddr) (m : RREQ) (u : RtTable) : RREQ :=
  if u.destAddr = nextHop then { m with destSeqno := u.destSeqno }
  else rreqAddUdest m u.destAddr u.destSeqno

/-- The request in the buffer when `rreq_local_repair` sends it. -/
def repairRequest (n : Node) (a : InAddr) : RREQ :=
  let rt := n.rt a
  let m := (rreqCreate (rreqLocalRepairFlag ||| rreqDestOnly) rt.nextHop 0 n.ipaddr n).bufRreq
  let m := if rt.nextHop ≠ rt.destAddr then rreqAddUdest m rt.destAddr rt.destSeqno else m
  (sharingNextHop rt n).foldl (repairAdd rt.nextHop) m

namespace RreqWire

def repairAdd (nextHop : InAddr) (b : Mem) (u : RtTable) : Mem :=
  if u.destAddr = nextHop then storeWord destSeqnoOffset u.destSeqno b
  else rreqUdests.addUdest ⟨u.destAddr, u.destSeqno, 1⟩ b

def repairRequest (n : Node) (a : InAddr) : Mem :=
  let rt := n.rt a
  let b := rreqCreate (rreqLocalRepairFlag ||| rreqDestOnly) n.rreqId rt.nextHop 0 n.ipaddr
    (seqnoIncr n.seqno)
  let b := if rt.nextHop ≠ rt.destAddr then
    rreqUdests.addUdest ⟨rt.destAddr, rt.destSeqno, 1⟩ b else b
  (sharingNextHop rt n).foldl (repairAdd rt.nextHop) b

end RreqWire

theorem repairAdd_foldl (nextHop : InAddr) (us : List RtTable) (m : RREQ) :
    (us.foldl (repairAdd nextHop) m).destAddr = m.destAddr ∧
    (us.foldl (repairAdd nextHop) m).exts = m.exts ++ (us.filter (·.destAddr ≠ nextHop)).map
      fun u => .rreqUdest ⟨u.destAddr, u.destSeqno, 1⟩ := by
  induction us generalizing m with
  | nil => exact ⟨rfl, (List.append_nil _).symm⟩
  | cons u us ih =>
    obtain ⟨hdest, hexts⟩ := ih (repairAdd nextHop m u)
    rw [List.foldl_cons, hdest, hexts]
    unfold repairAdd
    by_cases hu : u.destAddr = nextHop
    · simp [hu]
    · simp [hu, rreqAddUdest]

theorem repairAdd_storedIn (nextHop : InAddr) (us : List RtTable) {m : RREQ} {b : Mem}
    (h : m.StoredIn b)
    (hlen : m.exts.length + (us.filter (·.destAddr ≠ nextHop)).length < 2 ^ 32 - 1) :
    (us.foldl (repairAdd nextHop) m).StoredIn (us.foldl (RreqWire.repairAdd nextHop) b) := by
  induction us generalizing m b with
  | nil => exact h
  | cons u us ih =>
    rw [List.foldl_cons, List.foldl_cons]
    unfold repairAdd RreqWire.repairAdd
    by_cases hu : u.destAddr = nextHop
    · rw [if_pos hu, if_pos hu]
      refine ih (h.setDestSeqno _) ?_
      simpa [hu] using hlen
    · rw [if_neg hu, if_neg hu]
      have hlen' : m.exts.length + ((us.filter (·.destAddr ≠ nextHop)).length + 1) < 2 ^ 32 - 1 := by
        simpa [hu] using hlen
      refine ih (h.addUdest (by omega) _ _) ?_
      simp only [rreqAddUdest, List.length_append, List.length_singleton]
      omega

theorem repairRequest_exts (n : Node) (a : InAddr) :
    (repairRequest n a).destAddr = (n.rt a).nextHop ∧
    (repairRequest n a).exts = (repairUdests n a).map .rreqUdest := by
  unfold repairRequest repairUdests repairEntries
  obtain ⟨hdest, hexts⟩ := repairAdd_foldl (n.rt a).nextHop (sharingNextHop (n.rt a) n)
    (if (n.rt a).nextHop ≠ (n.rt a).destAddr then
      rreqAddUdest (rreqCreate (rreqLocalRepairFlag ||| rreqDestOnly) (n.rt a).nextHop 0 n.ipaddr
        n).bufRreq (n.rt a).destAddr (n.rt a).destSeqno
      else (rreqCreate (rreqLocalRepairFlag ||| rreqDestOnly) (n.rt a).nextHop 0 n.ipaddr n).bufRreq)
  dsimp only
  rw [hdest, hexts]
  split
  · exact ⟨rfl, by simp [rreqAddUdest, rreqCreate, Node.bufRreq, aodvSocketNewMsg]⟩
  · exact ⟨rfl, by simp [rreqCreate, Node.bufRreq, aodvSocketNewMsg]⟩

theorem repairRequest_storedIn (n : Node) (a : InAddr)
    (hlen : (repairUdests n a).length < 2 ^ 32 - 1) :
    (repairRequest n a).StoredIn (RreqWire.repairRequest n a) := by
  have hcreate := rreqCreate_storedIn (rreqLocalRepairFlag ||| rreqDestOnly) (n.rt a).nextHop 0
    n.ipaddr n
  unfold repairUdests repairEntries at hlen
  unfold repairRequest RreqWire.repairRequest
  dsimp only at hlen ⊢
  rw [List.length_map, List.length_append] at hlen
  split at hlen
  · next hne =>
    rw [if_pos hne, if_pos hne]
    refine repairAdd_storedIn _ _
      (hcreate.addUdest (by simp [rreqCreate, Node.bufRreq, aodvSocketNewMsg]) _ _) ?_
    simpa [rreqAddUdest, rreqCreate, Node.bufRreq, aodvSocketNewMsg] using hlen
  · next hne =>
    rw [if_neg hne, if_neg hne]
    refine repairAdd_storedIn _ _ hcreate ?_
    simpa [rreqCreate, Node.bufRreq, aodvSocketNewMsg] using hlen

/-- The destinations of the table are distinct, each in its bucket. -/
def Node.Distinct (n : Node) : Prop := HashTable.WellFormed RtTable.destAddr hashing n.tbl

theorem mem_repairEntries {n : Node} {rt u : RtTable} (hrt : rt ∈ n.entries)
    (hwf : n.Distinct) :
    u ∈ repairEntries n rt ↔ u ∈ n.entries ∧ u.nextHop = rt.nextHop ∧ u.destAddr ≠ rt.nextHop := by
  unfold repairEntries sharingNextHop
  rw [List.filter_filter, List.mem_append, List.mem_filter]
  have hfirst : u ∈ (if rt.nextHop ≠ rt.destAddr then [rt] else []) ↔
      u = rt ∧ rt.nextHop ≠ rt.destAddr := by
    split <;> simp_all
  rw [hfirst]
  simp only [decide_eq_true_eq, Bool.and_eq_true]
  constructor
  · rintro (⟨rfl, hne⟩ | ⟨hu, hne, hnext, -⟩)
    · exact ⟨hrt, rfl, Ne.symm hne⟩
    · exact ⟨hu, hnext, hne⟩
  · rintro ⟨hu, hnext, hne⟩
    by_cases hdest : u.destAddr = rt.destAddr
    · obtain rfl : u = rt := hwf.key_injective hu hrt hdest
      exact .inl ⟨rfl, Ne.symm hne⟩
    · exact .inr ⟨hu, hne, hnext, hdest⟩

theorem mem_repairUdests {n : Node} {a : InAddr} {rt : RtTable} (hwf : n.Distinct)
    (hrt : n.lookup a = some rt) (ud : RreqUdest) : ud ∈ repairUdests n a ↔
      ud.ifValid = 1 ∧ ud.destAddr ≠ rt.nextHop ∧ ∃ u, n.lookup ud.destAddr = some u ∧
        u.nextHop = rt.nextHop ∧ ud.destSeqno = u.destSeqno := by
  have hlook : ∀ {b : InAddr} {u : RtTable},
      n.lookup b = some u ↔ u ∈ n.entries ∧ u.destAddr = b :=
    HashTable.WellFormed.lookup_eq_some hwf
  have hmem := (hlook.mp hrt).1
  unfold repairUdests
  rw [rt_of_lookup hrt, List.mem_map]
  constructor
  · rintro ⟨u, hu, rfl⟩
    obtain ⟨hu, hnext, hne⟩ := (mem_repairEntries hmem hwf).mp hu
    exact ⟨rfl, hne, u, hlook.mpr ⟨hu, rfl⟩, hnext, rfl⟩
  · rintro ⟨hvalid, hne, u, hu, hnext, hseqno⟩
    obtain ⟨hu, hdest⟩ := hlook.mp hu
    refine ⟨u, (mem_repairEntries hmem hwf).mpr ⟨hu, hnext, hdest ▸ hne⟩, ?_⟩
    rw [hdest, ← hseqno, ← hvalid]

theorem repairEntries_nodup {n : Node} (hwf : n.Distinct) (rt : RtTable) :
    ((repairEntries n rt).map RtTable.destAddr).Nodup := by
  have hothers : (((sharingNextHop rt n).filter (·.destAddr ≠ rt.nextHop)).map
      RtTable.destAddr).Nodup := by
    have hsub : ((sharingNextHop rt n).filter (·.destAddr ≠ rt.nextHop)).Sublist n.entries :=
      List.filter_sublist.trans List.filter_sublist
    exact hwf.nodup_entries.sublist (hsub.map _)
  unfold repairEntries
  split
  · rw [List.singleton_append, List.map_cons, List.nodup_cons]
    refine ⟨fun hmem => ?_, hothers⟩
    obtain ⟨u, hu, hdest⟩ := List.mem_map.mp hmem
    have hne := (List.mem_filter.mp (List.mem_filter.mp hu).1).2
    simp [hdest] at hne
  · exact hothers

theorem sharingNextHop_modRt {a : InAddr} {f : RtTable → RtTable}
    (hf : ∀ rt : RtTable, (f rt).destAddr = rt.destAddr) {rt : RtTable} (hrt : rt.destAddr = a)
    (n : Node) : sharingNextHop rt (n.modRt a f) = sharingNextHop rt n := by
  unfold sharingNextHop
  refine HashTable.filter_entries_adjust _ fun u hu => ⟨?_, ?_⟩
  · simp [hu, hrt]
  · simp [hf, hu, hrt]

theorem sharingNextHop_markRepair {c : Ctx} {a : InAddr} {rt : RtTable} (hrt : rt.destAddr = a)
    (n : Node) : sharingNextHop rt (markRepair c a n) = sharingNextHop rt n := by
  have hmark := sharingNextHop_modRt (a := a) (f := fun rt : RtTable => { rt with
    flags := rt.flags ||| rtRepair
    rtTimer := { rt.rtTimer with handler := .routeExpireTimeout } }) (fun _ => rfl) hrt n
  unfold markRepair keepWaiting
  split
  · refine (sharingNextHop_modRt (fun rt => ?_) hrt _).trans hmark
    exact (RtTable.updateTimeout_keeps _ _ rt).destAddr
  · exact hmark

theorem repairUdest_foldl {c : Ctx} (nextHop : InAddr) (us : List RtTable) {m : RREQ} {n : Node}
    (hm : n.sendBuf = .rreq m) : ∃ t, us.foldl (fun n u => repairUdest c nextHop u n) n =
      { n with tbl := t, sendBuf := .rreq (us.foldl (repairAdd nextHop) m) } := by
  induction us generalizing m n with
  | nil =>
    refine ⟨n.tbl, ?_⟩
    rw [List.foldl_nil, List.foldl_nil, ← hm]
  | cons u us ih =>
    obtain ⟨t, hmark⟩ := markRepair_eq (c := c) u.destAddr n
    have hstep : repairUdest c nextHop u n =
        { n with tbl := t, sendBuf := .rreq (repairAdd nextHop m u) } := by
      unfold repairUdest Node.modRreq
      rw [hmark]
      dsimp only
      rw [hm]
      rfl
    obtain ⟨t', hall⟩ := ih (n := repairUdest c nextHop u n) (by rw [hstep])
    refine ⟨t', hall.trans ?_⟩
    rw [hstep]
    rfl

theorem rreqLocalRepair_sends {c : Ctx} {n : Node} {a : InAddr} {rt : RtTable}
    (hrt : n.lookup a = some rt) (hflag : hasFlag rt.flags rtRepair) :
    ∃ t ttl s, rreqLocalRepair c a n = seekListInsert s (aodvSocketSend c aodvBroadcast
      (rreqExtOffset (repairRequest n a)) ttl
      { rreqCreate (rreqLocalRepairFlag ||| rreqDestOnly) rt.nextHop 0 n.ipaddr n with
        tbl := t, sendBuf := .rreq (repairRequest n a) }) := by
  have hdest : rt.destAddr = a := destAddr_of_lookup hrt
  have hmsg : repairRequest n a = (sharingNextHop rt n).foldl (repairAdd rt.nextHop)
      (if rt.nextHop ≠ rt.destAddr then rreqAddUdest (rreqCreate (rreqLocalRepairFlag |||
        rreqDestOnly) rt.nextHop 0 n.ipaddr n).bufRreq rt.destAddr rt.destSeqno
      else (rreqCreate (rreqLocalRepairFlag ||| rreqDestOnly) rt.nextHop 0 n.ipaddr n).bufRreq) := by
    unfold repairRequest
    rw [rt_of_lookup hrt]
  unfold rreqLocalRepair
  dsimp only
  rw [rt_of_lookup hrt, if_pos hflag]
  have hadd : (if rt.nextHop ≠ rt.destAddr then
      (rreqCreate (rreqLocalRepairFlag ||| rreqDestOnly) rt.nextHop 0 n.ipaddr n).modRreq
        (rreqAddUdest · rt.destAddr rt.destSeqno)
      else rreqCreate (rreqLocalRepairFlag ||| rreqDestOnly) rt.nextHop 0 n.ipaddr n) =
      { rreqCreate (rreqLocalRepairFlag ||| rreqDestOnly) rt.nextHop 0 n.ipaddr n with
        sendBuf := .rreq (if rt.nextHop ≠ rt.destAddr then
          rreqAddUdest (rreqCreate (rreqLocalRepairFlag ||| rreqDestOnly) rt.nextHop 0 n.ipaddr
            n).bufRreq rt.destAddr rt.destSeqno
          else (rreqCreate (rreqLocalRepairFlag ||| rreqDestOnly) rt.nextHop 0 n.ipaddr
            n).bufRreq) } := by
    split <;> rfl
  rw [hadd]
  generalize (if rt.nextHop ≠ rt.destAddr then
    rreqAddUdest (rreqCreate (rreqLocalRepairFlag ||| rreqDestOnly) rt.nextHop 0 n.ipaddr
      n).bufRreq rt.destAddr rt.destSeqno
    else (rreqCreate (rreqLocalRepairFlag ||| rreqDestOnly) rt.nextHop 0 n.ipaddr n).bufRreq) = m
    at hmsg ⊢
  rw [sharingNextHop_markRepair hdest]
  have hsharing : sharingNextHop rt
      { rreqCreate (rreqLocalRepairFlag ||| rreqDestOnly) rt.nextHop 0 n.ipaddr n with
        sendBuf := .rreq m } = sharingNextHop rt n := rfl
  rw [hsharing]
  obtain ⟨t, hmark⟩ := markRepair_eq (c := c) a
    { rreqCreate (rreqLocalRepairFlag ||| rreqDestOnly) rt.nextHop 0 n.ipaddr n with
      sendBuf := .rreq m }
  rw [hmark]
  obtain ⟨t', hall⟩ := repairUdest_foldl (c := c) rt.nextHop (sharingNextHop rt n) (m := m)
    (n := { rreqCreate (rreqLocalRepairFlag ||| rreqDestOnly) rt.nextHop 0 n.ipaddr n with
      sendBuf := .rreq m, tbl := t }) rfl
  rw [hall, ← hmsg]
  exact ⟨t', _, _, rfl⟩

/-! ## Replies -/

namespace RrepWire

def typeOffset : ℕ := 1
def flagsOffset : ℕ := 2
def hcntOffset : ℕ := 4
def destAddrOffset : ℕ := 8
def destSeqnoOffset : ℕ := 12
def origAddrOffset : ℕ := 16
def lifetimeOffset : ℕ := 20

/-- `lr` is bit 5 of 16, behind `res1`, then `a` and `r`; the prefix is 0. -/
def flagBits (lr a r : Bool) : BitVec 16 :=
  (if lr then 0x20 else 0) ||| (if a then 0x40 else 0) ||| (if r then 0x80 else 0)

def rrepCreate (flags : BitVec 8) (hcnt : BitVec 8) (destAddr : InAddr) (destSeqno : BitVec 32)
    (origAddr : InAddr) (life : BitVec 32) : Mem :=
  let lr := hasFlag flags rrepLocalRepair
  (fun _ => 0)
    |> storeWord typeOffset (if lr then aodvRrepLr else aodvRrep)
    |> storeWord hcntOffset hcnt
    |> storeWord destAddrOffset destAddr
    |> storeWord destSeqnoOffset destSeqno
    |> storeWord origAddrOffset origAddr
    |> storeWord lifetimeOffset life
    |> storeWord rrepUdests.countOffset (1 : BitVec 32)
    |> storeWord flagsOffset (flagBits lr (hasFlag flags rrepAckFlag) (hasFlag flags rrepRepair))

theorem rrepCreate_holds (flags : BitVec 8) (hcnt : BitVec 8) (destAddr : InAddr)
    (destSeqno : BitVec 32) (origAddr : InAddr) (life : BitVec 32) :
    rrepUdests.Holds [] (rrepCreate flags hcnt destAddr destSeqno origAddr life) := by
  refine ⟨?_, nofun, nofun, nofun⟩
  simp (disch := decide) only [UdestList.destCount, rrepCreate, loadWord_storeWord_of_disjoint,
    loadWord_storeWord]
  rfl

end RrepWire

theorem UdestList.Holds.foldl {α : Type} {U : UdestList α} {xs : List α} {b : Mem}
    (h : U.Holds xs b) (ys : List α) (hlen : xs.length + ys.length < 2 ^ 32 - 1) :
    U.Holds (xs ++ ys) (ys.foldl (fun b y => U.addUdest y b) b) := by
  induction ys generalizing xs b with
  | nil =>
    rw [List.append_nil]
    exact h
  | cons y ys ih =>
    rw [List.length_cons] at hlen
    have hnext := ih (h.addUdest (by omega) y) (by
      rw [List.length_append, List.length_singleton]
      omega)
    rw [List.append_assoc] at hnext
    exact hnext

theorem rrepAddUdest_foldl (m : RREP) (uds : List Udest) :
    (uds.foldl (fun m ud => rrepAddUdest m ud.destAddr ud.destSeqno) m).destCount =
      m.destCount + BitVec.ofNat 32 uds.length := by
  induction uds generalizing m with
  | nil => simp
  | cons ud uds ih =>
    rw [List.foldl_cons, ih, List.length_cons, Nat.add_comm, BitVec.ofNat_add, ← BitVec.add_assoc]
    rfl

theorem rrepExtOffset_foldl (m : RREP) (hm : m.destCount = 1) {uds : List Udest}
    (hlen : uds.length < 2 ^ 32 - 1) :
    rrepExtOffset (uds.foldl (fun m ud => rrepAddUdest m ud.destAddr ud.destSeqno) m) =
      rrepUdests.extAt uds.length := by
  have hfixed : rrepUdests.fixed = 32 := rfl
  have hsize : rrepUdests.codec.size = 8 := rfl
  have hhdr : aodvExtHdrSize = 2 := rfl
  have hrrep : rrepSize = 32 := rfl
  have hone : (1 : BitVec 32) = BitVec.ofNat 32 1 := rfl
  unfold rrepExtOffset UdestList.extAt
  rw [rrepAddUdest_foldl, hm, hone, ← BitVec.ofNat_add, BitVec.toNat_ofNat,
    Nat.mod_eq_of_lt (by omega), Nat.add_sub_cancel_left, hfixed, hsize, hhdr, hrrep]
  omega

/-! ## The round trips -/

theorem rreqExtOffset_repairRequest {n : Node} {a : InAddr}
    (hlen : (repairUdests n a).length < 2 ^ 32 - 1) :
    rreqUdests.Holds (repairUdests n a) (RreqWire.repairRequest n a) ∧
    rreqExtOffset (repairRequest n a) = rreqUdests.extAt (repairUdests n a).length := by
  have hstored := repairRequest_storedIn n a hlen
  obtain ⟨uds, hexts, hholds⟩ := hstored.exts
  have huds : uds = repairUdests n a := by
    have hinj : Function.Injective Ext.rreqUdest := fun x y h => by injection h
    exact hinj.list_map (hexts.symm.trans (repairRequest_exts n a).2)
  subst huds
  refine ⟨hholds, ?_⟩
  have hoff := hholds.extOffset (by omega)
  unfold UdestList.extOffset at hoff
  rw [hstored.destCount] at hoff
  rw [← hoff]
  unfold rreqExtOffset
  have hfixed : rreqUdests.fixed = 32 := rfl
  have hsize : rreqUdests.codec.size = 12 := rfl
  have hhdr : aodvExtHdrSize = 2 := rfl
  have hrreq : rreqSize = 32 := rfl
  rw [hfixed, hsize, hhdr, hrreq]

/-- The request lists each destination over the lost next hop once, with its number, and asks for
the next hop; the receiver's loop reads the list and ends with the message. A reply's list is read
back in its order. -/
theorem local_repair_lists_round_trip (c : Ctx) {n : Node} {a : InAddr} {rt : RtTable}
    (hwf : n.Distinct) (hrt : n.lookup a = some rt) (hflag : hasFlag rt.flags rtRepair)
    (hfit : (repairUdests n a).length ≤ 56) (own : InAddr) :
    (∃ t ttl s, rreqLocalRepair c a n = seekListInsert s (aodvSocketSend c aodvBroadcast
      (rreqExtOffset (repairRequest n a)) ttl
      { rreqCreate (rreqLocalRepairFlag ||| rreqDestOnly) rt.nextHop 0 n.ipaddr n with
        tbl := t, sendBuf := .rreq (repairRequest n a) })) ∧
    (repairRequest n a).StoredIn (RreqWire.repairRequest n a) ∧
    loadWord 32 (RreqWire.repairRequest n a) RreqWire.destAddrOffset = rt.nextHop ∧
    (∃ vs e, (rreqLrLoop own).Walk (rreqExtOffset (repairRequest n a))
        (copy (rreqExtOffset (repairRequest n a)) (RreqWire.repairRequest n a)) 0 vs e ∧
      rreqSize + e.2 = rreqExtOffset (repairRequest n a) ∧
      ((vs.filterMap rreqUdests.read).map RreqUdest.destAddr).Nodup ∧
      ∀ ud, ud ∈ vs.filterMap rreqUdests.read ↔ ud.ifValid = 1 ∧ ud.destAddr ≠ rt.nextHop ∧
        ∃ u, n.lookup ud.destAddr = some u ∧ u.nextHop = rt.nextHop ∧
          ud.destSeqno = u.destSeqno) ∧
    ∀ (flags hcnt : BitVec 8) (destAddr : InAddr) (destSeqno : BitVec 32) (origAddr : InAddr)
      (life : BitVec 32) (uds : List Udest) (atOrigin : Bool),
      rrepSize + (aodvExtHdrSize + 8) * uds.length ≤ recvBufSize →
      let len := rrepExtOffset (uds.foldl (fun m ud => rrepAddUdest m ud.destAddr ud.destSeqno)
        (rrepCreate flags hcnt destAddr destSeqno origAddr life))
      ∃ vs e, (rrepLrLoop atOrigin).Walk len (copy len (uds.foldl
          (fun b ud => rrepUdests.addUdest ud b)
          (RrepWire.rrepCreate flags hcnt destAddr destSeqno origAddr life))) 0 vs e ∧
        rrepSize + e.2 = len ∧ vs.filterMap rrepUdests.read = uds := by
  have hlen : (repairUdests n a).length < 2 ^ 32 - 1 := by omega
  have hstored := repairRequest_storedIn n a hlen
  refine ⟨rreqLocalRepair_sends hrt hflag, hstored, ?_, ?_, ?_⟩
  · rw [hstored.destAddr, (repairRequest_exts n a).1, rt_of_lookup hrt]
  · obtain ⟨hholds, hsize⟩ := rreqExtOffset_repairRequest hlen
    rw [hsize]
    obtain ⟨vs, e, hw, hend, hread⟩ := hholds.walk (rreqLrLoop_reads own) (by decide) (by
      have hext : rreqUdests.extAt (repairUdests n a).length =
        32 + (2 + 12) * (repairUdests n a).length := rfl
      have hbuf : recvBufSize = 824 := rfl
      omega)
    refine ⟨vs, e, hw, hend, ?_, ?_⟩
    · rw [hread]
      unfold repairUdests
      rw [List.map_map]
      exact repairEntries_nodup hwf (n.rt a)
    · intro ud
      rw [hread]
      exact mem_repairUdests hwf hrt ud
  · intro flags hcnt destAddr destSeqno origAddr life uds atOrigin hbuf
    have hmany : uds.length < 2 ^ 32 - 1 := by
      have hsize : rrepSize + (aodvExtHdrSize + 8) * uds.length = 32 + 10 * uds.length := rfl
      have hrecv : recvBufSize = 824 := rfl
      omega
    dsimp only
    rw [rrepExtOffset_foldl _ rfl hmany]
    have hholds := (RrepWire.rrepCreate_holds flags hcnt destAddr destSeqno origAddr life).foldl uds
      (by simpa using hmany)
    rw [List.nil_append] at hholds
    exact hholds.walk (rrepLrLoop_reads atOrigin) (by decide) hbuf

def behindAll : Node :=
  [9, 10, 73].foldl (fun n a => (step (repairCtx 0) (.recv (rreqFrom 2 0
    { type := aodvRreq, hcnt := 1, rreqId := 7, destAddr := 8, origAddr := a, origSeqno := 6,
      exts := [.cost 0] })) ([], n)).2) (Node.init (repairCtx 0) 1)

/-- A transmission to 2 fails, and all three routes are to be repaired. -/
def repairingAll : Node := (step (repairCtx 1000) (.packetFailed failedData) ([], behindAll)).2

theorem repairingAll_reachable : Reachable repairConf (.described sampleLog repairConf) 1 repairingAll :=
  .step { now := 1000 } [] (.packetFailed failedData) trivial
    (.step { now := 0 } [] (.recv (rreqFrom 2 0 _)) trivial
      (.step { now := 0 } [] (.recv (rreqFrom 2 0 _)) trivial
        (.step { now := 0 } [] (.recv (rreqFrom 2 0 _)) trivial (.init { now := 0 }))))

def repliedPairs : List Udest := [⟨9, 5⟩, ⟨10, 6⟩, ⟨73, 7⟩]

theorem repairing_lists_read :
    (repairUdests repairingAll 9).map RreqUdest.destAddr = [9, 73, 10] ∧
    (∃ vs e, (rreqLrLoop 9).Walk (rreqExtOffset (repairRequest repairingAll 9))
        (copy (rreqExtOffset (repairRequest repairingAll 9))
          (RreqWire.repairRequest repairingAll 9)) 0 vs e ∧
      rreqSize + e.2 = rreqExtOffset (repairRequest repairingAll 9) ∧
      ((vs.filterMap rreqUdests.read).map RreqUdest.destAddr).Nodup) ∧
    ∃ vs e, (rrepLrLoop true).Walk 62 (copy 62 (repliedPairs.foldl
        (fun b ud => rrepUdests.addUdest ud b) (RrepWire.rrepCreate 0 1 2 5 3 600))) 0 vs e ∧
      vs.filterMap rrepUdests.read = repliedPairs := by
  have hlist : (repairUdests repairingAll 9).map RreqUdest.destAddr = [9, 73, 10] := by
    decide +kernel
  have hwf := reachable_rtWf (described_within trivial (fun _ _ h => h) sampleLog repairConf)
    repairingAll_reachable
  have hsome : (repairingAll.lookup 9).isSome := by decide +kernel
  obtain ⟨rt, hrt⟩ := Option.isSome_iff_exists.mp hsome
  have hflag : hasFlag (repairingAll.rt 9).flags rtRepair := by decide +kernel
  rw [rt_of_lookup hrt] at hflag
  have hfit : (repairUdests repairingAll 9).length ≤ 56 := by
    rw [← List.length_map (f := RreqUdest.destAddr), hlist]
    decide
  obtain ⟨-, -, -, ⟨vs, e, hw, hend, hnodup, -⟩, hreply⟩ := local_repair_lists_round_trip
    (repairCtx 2000) hwf.table hrt hflag hfit 9
  obtain ⟨vs', e', hw', -, hread⟩ := hreply 0 1 2 5 3 600 repliedPairs true (by decide)
  exact ⟨hlist, ⟨vs, e, hw, hend, hnodup⟩, vs', e', hw', hread⟩

end AodvUU

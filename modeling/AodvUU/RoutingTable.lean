import AodvUU.Socket

/-! # Routing table and packet queue

`routing_table.c`, `packet_queue.cc` and the seek list. A pointer to an entry is the entry's
`dest_addr`: entries keep it for life, and `Node.rt` follows the pointer. -/
namespace AodvUU

variable (c : Ctx)

def hashing (a : InAddr) : Fin rtTablesize :=
  ⟨(a &&& rtTablemask).toNat, by
    rw [BitVec.toNat_and]
    exact Nat.lt_of_le_of_lt Nat.and_le_right (by decide)⟩

def Node.entries (n : Node) : List RtTable := HashTable.entries n.tbl

def rtTableFind (n : Node) (a : InAddr) : Option RtTable :=
  if n.numEntries = 0 then none
  else (n.tbl (hashing a)).find? (fun rt => rt.hash = a ∧ rt.destAddr = a)

/-- The entry of a destination, the abstract value of the table. -/
def Node.lookup (n : Node) (a : InAddr) : Option RtTable :=
  HashTable.lookup RtTable.destAddr hashing n.tbl a

def Node.rt (n : Node) (a : InAddr) : RtTable := (n.lookup a).getD default

def Node.modRt (a : InAddr) (f : RtTable → RtTable) (n : Node) : Node :=
  { n with tbl := HashTable.adjust RtTable.destAddr n.tbl a f }

/-! ## Precursor lists -/

def RtTable.precursorAdd (addr : InAddr) (rt : RtTable) : RtTable :=
  if addr ∈ rt.precursors then rt
  else { rt with precursors := addr :: rt.precursors, nprec := rt.nprec + 1 }

def RtTable.precursorRemove (addr : InAddr) (rt : RtTable) : RtTable :=
  if addr ∈ rt.precursors then
    { rt with precursors := rt.precursors.erase addr, nprec := rt.nprec - 1 }
  else rt

def RtTable.precursorListDestroy (rt : RtTable) : RtTable :=
  { rt with precursors := [], nprec := rt.nprec - rt.precursors.length }

def precursorAdd (a addr : InAddr) (n : Node) : Node := n.modRt a (·.precursorAdd addr)
def precursorRemove (a addr : InAddr) (n : Node) : Node := n.modRt a (·.precursorRemove addr)
def precursorListDestroy (a : InAddr) (n : Node) : Node := n.modRt a (·.precursorListDestroy)

/-! ## Timeouts -/

/-- A valid entry keeps its old expiry when that is later. -/
def RtTable.updateTimeout (now : Time) (lifetime : BitVec 32) (rt : RtTable) : RtTable :=
  if rt.state = .valid then
    if timevalDiff rt.rtTimer.timeout (timevalAddMsec now lifetime.toNat) < 0 then
      { rt with rtTimer := rt.rtTimer.setTimeout now lifetime.toNat }
    else rt
  else { rt with rtTimer := rt.rtTimer.setTimeout now lifetime.toNat }

def rtTableUpdateTimeout (a : InAddr) (lifetime : BitVec 32) (n : Node) : Node :=
  n.modRt a (·.updateTimeout c.now lifetime)

/-- A configured period passed where the source takes a `u_int32_t`. -/
def msecs (i : Int) : BitVec 32 := BitVec.ofInt 32 i

/-- One of the two halves of `rt_table_update_route_timeouts`: the route and then its
next-hop neighbour. -/
def updateRouteTimeout (rt : RtTable) (inet : Bool) (n : Node) : Node :=
  if rt.state = .valid then
    let n := if c.conf.llfeedback ∨ inet ∨ rt.hcnt ≠ 1 ∨ rt.helloTimer.used then
      rtTableUpdateTimeout c rt.destAddr (msecs c.conf.activeRouteTimeout) n else n
    match rtTableFind n rt.nextHop with
    | none => n
    | some nextHopRt =>
      if nextHopRt.state = .valid ∧ nextHopRt.destAddr ≠ rt.destAddr ∧
          (c.conf.llfeedback ∨ rt.helloTimer.used) then
        rtTableUpdateTimeout c nextHopRt.destAddr (msecs c.conf.activeRouteTimeout) n
      else n
  else n

def rtTableUpdateRouteTimeouts (fwdRt revRt : Option InAddr) (n : Node) : Node :=
  let n := match fwdRt with
    | none => n
    | some a => updateRouteTimeout c (n.rt a) (hasFlag (n.rt a).flags rtInetDest) n
  match revRt with
  | none => n
  | some a => updateRouteTimeout c (n.rt a) false n

/-! ## Seek list -/

def seekListFind (n : Node) (a : InAddr) : Option SeekList :=
  n.seekhead.find? (·.destAddr = a)

def seekListInsert (s : SeekList) (n : Node) : Node := { n with seekhead := s :: n.seekhead }

/-- Removes the entry that `seek_list_find` returns, and its timer with it. -/
def seekListRemove (a : InAddr) (n : Node) : Node :=
  { n with seekhead := n.seekhead.eraseP (·.destAddr = a) }

/-! ## Packet queue -/

def packetQueueAdd (p : Packet) (dest : InAddr) (n : Node) : Node :=
  let n := if n.pqLen ≥ maxQueueLength then
      match n.pq with
      | [] => n
      | qp :: rest => ({ n with pq := rest, pqLen := n.pqLen - 1 }).handOut (.drop qp.p .qFull)
    else n
  { n with pq := n.pq ++ [⟨dest, c.now, p⟩], pqLen := n.pqLen + 1 }

def packetQueueGarbageCollect (n : Node) : Node :=
  let old := n.pq.filter (fun qp => timevalDiff c.now qp.qTime > maxQueueTime)
  old.foldl (fun n qp => n.handOut (.drop qp.p .qTimeout))
    { n with
      pq := n.pq.filter (fun qp => ¬ timevalDiff c.now qp.qTime > maxQueueTime)
      pqLen := n.pqLen - old.length }

/-- Sends the packets one after the other, `ARP_DELAY` apart. -/
def sendQueued (nextHop : InAddr) : List QPkt → ℚ → Node → Node
  | [], _, n => n
  | qp :: qps, delay, n =>
    sendQueued nextHop qps (delay + 5 / 1000) (sendPacket c qp.p nextHop delay n)

def takeQueued (dest : InAddr) (n : Node) : Node :=
  { n with
    pq := n.pq.filter (·.destAddr ≠ dest)
    pqLen := n.pqLen - (n.pq.filter (·.destAddr = dest)).length }

def refreshQueued (rt : RtTable) (dest : InAddr) (n : Node) : Node :=
  if rt.state = .valid ∧ dest ≠ n.ipaddr then
    let n := rtTableUpdateTimeout c rt.destAddr (msecs c.conf.activeRouteTimeout) n
    match rtTableFind n rt.nextHop with
    | none => n
    | some nextHopRt =>
      if nextHopRt.state = .valid ∧ nextHopRt.destAddr ≠ rt.destAddr then
        rtTableUpdateTimeout c nextHopRt.destAddr (msecs c.conf.activeRouteTimeout) n
      else n
  else n

/-- Without `CONFIG_GATEWAY` the verdict `PQ_ENC_SEND` has no case of its own: the packets
are freed. With `PQ_SEND` and no entry for `dest` the first packet is detached and the
function returns. -/
def packetQueueSetVerdict (dest : InAddr) (verdict : Verdict) (n : Node) : Node :=
  let pkts := n.pq.filter (·.destAddr = dest)
  match verdict with
  | .encSend =>
    match rtTableFind n dest with
    | none => n
    | some inetRt =>
      match rtTableFind n inetRt.nextHop with
      | none => takeQueued dest n
      | some rt =>
        if rt.state = .valid ∧ dest ≠ n.ipaddr then
          takeQueued dest n
            |> rtTableUpdateTimeout c inetRt.destAddr (msecs c.conf.activeRouteTimeout)
            |> refreshQueued c rt dest
        else takeQueued dest n
  | .send =>
    match rtTableFind n dest with
    | none => { n with pq := n.pq.eraseP (·.destAddr = dest) }
    | some rt => takeQueued dest n |> sendQueued c rt.nextHop pkts 0 |> refreshQueued c rt dest
  | .drop => pkts.foldl (fun n qp => n.handOut (.drop qp.p .noRoute)) (takeQueued dest n)

/-- A found route ends the search for it and releases the packets that wait for it. -/
def flushSeek (a : InAddr) (n : Node) : Node :=
  if (n.rt a).state = .valid then
    match seekListFind n a with
    | none => n
    | some _ => packetQueueSetVerdict c a
        (if hasFlag (n.rt a).flags rtInetDest then .encSend else .send) (seekListRemove a n)
  else n

/-! ## Insert, update, invalidate, delete -/

def newEntry (destAddr next : InAddr) (hops : BitVec 8) (seqno life : BitVec 32)
    (state : RtState) (flags : BitVec 16) (channel : Int) (cost : ℚ) : RtTable :=
  let rtTimer : Timer :=
    if state = .invalid then
      if hasFlag flags rtRepair then
        Timer.setTimeout { handler := .localRepairTimeout } c.now
          (msecs c.conf.activeRouteTimeout).toNat
      else
        Timer.setTimeout { handler := .routeDeleteTimeout } c.now (msecs c.conf.deletePeriod).toNat
    else if life ≠ 0 then
      Timer.setTimeout { handler := .routeExpireTimeout } c.now life.toNat
    else { handler := .routeExpireTimeout }
  { destAddr, destSeqno := seqno, nextHop := next, hcnt := hops, flags, state, rtTimer,
    hash := destAddr, channel, cost }

def storeEntry (rt : RtTable) (n : Node) : Node :=
  { n with
    tbl := HashTable.insert RtTable.destAddr hashing n.tbl rt
    numEntries := n.numEntries + 1
    numActive := if rt.state = .invalid then n.numActive else n.numActive + 1 }

/-- The part the two insertion functions share, behind their checks. -/
def rtTableAdd (destAddr next : InAddr) (hops : BitVec 8) (seqno life : BitVec 32)
    (state : RtState) (flags : BitVec 16) (channel : Int) (cost : ℚ) (n : Node) : Node :=
  storeEntry (newEntry c destAddr next hops seqno life state flags channel cost) n
    |> flushSeek c destAddr

/-- `rt_table_insert`: nothing changes when `dest_addr` has an entry. -/
def rtTableInsert (destAddr next : InAddr) (hops : BitVec 8) (seqno life : BitVec 32)
    (state : RtState) (flags : BitVec 16) (n : Node) : Node :=
  if (n.tbl (hashing destAddr)).any (·.destAddr = destAddr) then n
  else rtTableAdd c destAddr next hops seqno life state flags (-1) 100000 n

/-- `rt_table_insert_with_channel`: only an entry with the same channel counts as a
duplicate, and the agent's own address is refused. -/
def rtTableInsertWithChannel (destAddr next : InAddr) (hops : BitVec 8)
    (seqno life : BitVec 32) (state : RtState) (flags : BitVec 16) (channel : Int) (cost : ℚ)
    (n : Node) : Node :=
  if (n.tbl (hashing destAddr)).any (fun rt => rt.destAddr = destAddr ∧ rt.channel = channel) then n
  else if destAddr = n.ipaddr then n
  else rtTableAdd c destAddr next hops seqno life state flags channel cost n

/-- A neighbour that becomes a multi-hop route is a broken link first. -/
def breakOneHop (a : InAddr) (n : Node) : Node :=
  c.ext.neighborLinkBreak c.env a
    (n.modRt a fun rt =>
      { rt with lastHelloTime := 0, helloCnt := 0, helloTimer := rt.helloTimer.remove })

/-- The fields `rt_table_update` writes once the link break is over. -/
def RtTable.write (now : Time) (next : InAddr) (hops : BitVec 8) (seqno lifetime : BitVec 32)
    (state : RtState) (flags : BitVec 16) (chan : Option (Int × ℚ)) (rt : RtTable) : RtTable :=
  let rt := { rt with
    flags := flags
    destSeqno := seqno
    nextHop := next
    hcnt := hops
    channel := (chan.map Prod.fst).getD rt.channel
    cost := (chan.map Prod.snd).getD rt.cost
    rtTimer := { rt.rtTimer with handler := .routeExpireTimeout } }
  let rt := if hasFlag flags rtInetDest then rt else rt.updateTimeout now lifetime
  { rt with state := state }

/-- What the update functions do before they write the entry. -/
def beforeUpdate (a : InAddr) (hops : BitVec 8) (state : RtState) (n : Node) : Node :=
  let rt := n.rt a
  let n := if rt.state = .invalid ∧ state = .valid then { n with numActive := n.numActive + 1 }
    else n
  if 1 < hops.toNat ∧ rt.hcnt = 1 then
    breakOneHop c a { n with neighborRerouted := n.neighborRerouted || rt.state = .valid }
  else n

/-- A route that comes back from repair loses the flag, also in the flags passed in. -/
def updateFlags (rt : RtTable) (state : RtState) (flags : BitVec 16) : BitVec 16 :=
  if rt.state = .invalid ∧ state = .valid ∧ hasFlag rt.flags rtRepair then flags &&& ~~~rtRepair
  else flags

/-- Both update functions; `chan` is what `rt_table_update_with_channel` stores in addition. -/
def rtTableUpdateGen (chan : Option (Int × ℚ)) (a next : InAddr) (hops : BitVec 8)
    (seqno lifetime : BitVec 32) (state : RtState) (flags : BitVec 16) (n : Node) : Node :=
  let flags := updateFlags (n.rt a) state flags
  (beforeUpdate c a hops state n).modRt a
      (·.write c.now next hops seqno lifetime state flags chan)
    |> flushSeek c a

def rtTableUpdateWithChannel (a next : InAddr) (hops : BitVec 8) (seqno lifetime : BitVec 32)
    (state : RtState) (flags : BitVec 16) (channel : Int) (cost : ℚ) (n : Node) : Node :=
  rtTableUpdateGen c (some (channel, cost)) a next hops seqno lifetime state flags n

def rtTableUpdate (a next : InAddr) (hops : BitVec 8) (seqno lifetime : BitVec 32)
    (state : RtState) (flags : BitVec 16) (n : Node) : Node :=
  rtTableUpdateGen c none a next hops seqno lifetime state flags n

def RtTable.invalidated (rt : RtTable) : RtTable :=
  { rt with
    rtTimer := if hasFlag rt.flags rtRepair then
        { (rt.rtTimer.setTimeout c.now c.conf.activeRouteTimeout) with
          handler := .localRepairTimeout }
      else { (rt.rtTimer.setTimeout c.now c.conf.deletePeriod) with
          handler := .routeDeleteTimeout }
    helloTimer := rt.helloTimer.remove
    ackTimer := rt.ackTimer.remove
    state := .invalid
    helloCnt := 0
    destSeqno := seqnoIncr rt.destSeqno
    lastHelloTime := 0 }

def rtTableInvalidate (a : InAddr) (n : Node) : Node :=
  match n.lookup a with
  | none => n
  | some rt =>
    if rt.state = .invalid then n
    else { n.modRt a (·.invalidated c) with numActive := n.numActive - 1 }

def rtTableDelete (a : InAddr) (n : Node) : Node :=
  match n.lookup a with
  | none => n
  | some rt =>
    { n with
      tbl := HashTable.erase RtTable.destAddr n.tbl a
      numActive := if rt.state = .valid then n.numActive - 1 else n.numActive
      numEntries := n.numEntries - 1 }

/-! ## Lookups -/

variable {c}

theorem rtTableUpdateRouteTimeouts_keeps {I : Node → Prop}
    (hstep : ∀ rt inet m, I m → I (updateRouteTimeout c rt inet m)) (fwd rev : Option InAddr)
    {n : Node} (hn : I n) : I (rtTableUpdateRouteTimeouts c fwd rev n) := by
  unfold rtTableUpdateRouteTimeouts
  cases fwd with
  | none =>
    cases rev with
    | none => exact hn
    | some b => exact hstep _ _ _ hn
  | some a =>
    have hfwd := hstep (n.rt a) (hasFlag (n.rt a).flags rtInetDest) n hn
    cases rev with
    | none => exact hfwd
    | some b => exact hstep _ _ _ hfwd

theorem destAddr_of_lookup {n : Node} {a : InAddr} {rt : RtTable} (h : n.lookup a = some rt) :
    rt.destAddr = a := by
  simpa using List.find?_some h

theorem rt_of_lookup {n : Node} {a : InAddr} {rt : RtTable} (h : n.lookup a = some rt) :
    n.rt a = rt := by
  have : (n.lookup a).getD default = rt := by rw [h]; rfl
  exact this

theorem lookup_modRt {n : Node} {f : RtTable → RtTable} (a b : InAddr)
    (hf : ∀ rt, (f rt).destAddr = rt.destAddr) :
    (n.modRt a f).lookup b = if a = b then (n.lookup b).map f else n.lookup b :=
  HashTable.lookup_adjust fun rt h => (hf rt).trans h

theorem lookup_storeEntry (rt : RtTable) (n : Node) (b : InAddr) :
    (storeEntry rt n).lookup b = if rt.destAddr = b then some rt else n.lookup b :=
  HashTable.lookup_insert n.tbl rt b

theorem lookup_eq_none_iff_any {n : Node} {a : InAddr} :
    n.lookup a = none ↔ ¬ (n.tbl (hashing a)).any (·.destAddr = a) = true := by
  rw [Node.lookup, HashTable.lookup, List.find?_eq_none, List.any_eq_true, not_exists]
  simp only [not_and, decide_eq_true_eq]

theorem rtTableInsert_eq (a next : InAddr) (hops : BitVec 8) (seqno life : BitVec 32)
    (state : RtState) (flags : BitVec 16) (n : Node) :
    rtTableInsert c a next hops seqno life state flags n =
      if n.lookup a = none then rtTableAdd c a next hops seqno life state flags (-1) 100000 n
      else n := by
  unfold rtTableInsert
  by_cases h : n.lookup a = none
  · rw [if_pos h, if_neg (lookup_eq_none_iff_any.mp h)]
  · rw [if_neg h, if_pos (not_not.mp (mt lookup_eq_none_iff_any.mpr h))]

theorem rtTableInsertWithChannel_of_none {n : Node} {a : InAddr} (h : n.lookup a = none)
    (hown : a ≠ n.ipaddr) (next : InAddr) (hops : BitVec 8) (seqno life : BitVec 32)
    (state : RtState) (flags : BitVec 16) (ch : Int) (cost : ℚ) :
    rtTableInsertWithChannel c a next hops seqno life state flags ch cost n =
      rtTableAdd c a next hops seqno life state flags ch cost n := by
  unfold rtTableInsertWithChannel
  rw [if_neg, if_neg hown]
  intro hany
  obtain ⟨rt, hrt, hd⟩ := List.any_eq_true.mp hany
  exact lookup_eq_none_iff_any.mp h
    (List.any_eq_true.mpr ⟨rt, hrt, decide_eq_true (of_decide_eq_true hd).1⟩)

theorem lookup_rtTableDelete (a : InAddr) (n : Node) (b : InAddr) :
    (rtTableDelete a n).lookup b = if a = b then none else n.lookup b := by
  unfold rtTableDelete
  split
  · next h =>
    split
    · next hab => exact hab ▸ h
    · rfl
  · exact HashTable.lookup_erase n.tbl a b

theorem lookup_rtTableInvalidate (a : InAddr) (n : Node) (b : InAddr) :
    (rtTableInvalidate c a n).lookup b =
      if a = b then (n.lookup b).map fun rt =>
        if rt.state = .invalid then rt else rt.invalidated c
      else n.lookup b := by
  have hmod : ∀ k, ({ n.modRt a (·.invalidated c) with numActive := k } : Node).lookup b =
      if a = b then (n.lookup b).map (·.invalidated c) else n.lookup b := fun _ =>
    lookup_modRt a b fun _ => rfl
  unfold rtTableInvalidate
  split
  · next h =>
    split
    · next hab => simp [← hab, h]
    · rfl
  · next rt h =>
    by_cases hs : rt.state = .invalid
    · rw [if_pos hs]
      split
      · next hab => simp [← hab, h, hs]
      · rfl
    · rw [if_neg hs, hmod]
      split
      · next hab => simp [← hab, h, hs]
      · rfl

theorem destAddr_of_rtTableFind {n : Node} {a : InAddr} {rt : RtTable}
    (h : rtTableFind n a = some rt) : rt.destAddr = a := by
  unfold rtTableFind at h
  split at h
  · cases h
  · have := List.find?_some h
    simp only [decide_eq_true_eq] at this
    exact this.2

theorem mem_of_rtTableFind {n : Node} {a : InAddr} {rt : RtTable}
    (h : rtTableFind n a = some rt) : rt ∈ n.entries := by
  unfold rtTableFind at h
  split at h
  · cases h
  · exact HashTable.mem_entries.mpr ⟨_, List.mem_of_find?_eq_some h⟩

theorem lookup_of_rtTableFind {n : Node} {a : InAddr} {rt : RtTable}
    (h : rtTableFind n a = some rt) : n.lookup a ≠ none := by
  intro hnone
  have hrt := destAddr_of_rtTableFind h
  unfold rtTableFind at h
  split at h
  · cases h
  · have hmem := List.mem_of_find?_eq_some h
    have := List.find?_eq_none.mp hnone rt hmem
    simp [hrt] at this

end AodvUU

import AodvUU.Neighbor
import AodvUU.HelloRun
import AodvUU.Runs

/-! # What the handlers do to channels and to Hello data

Every handler is a sequence of acts that leave the channels of the entries, `channelNum` and the
neighbour records alone, unless its licence says otherwise. -/
namespace AodvUU

/-- The members that Hellos work on, and the channel that unicasts leave on. -/
structure LinkData where
  ipaddr : InAddr
  neighbors : ℕ → NeighborInfo
  neighborNum : ℕ
  stability : StaInfo
  helloHead : ℕ
  helloTail : ℕ
  stabilitySequence : ℕ → Int
  channelNum : Int

def Node.linkData (n : Node) : LinkData :=
  ⟨n.ipaddr, n.neighbors, n.neighborNum, n.stability, n.helloHead, n.helloTail,
    n.stabilitySequence, n.channelNum⟩

/-- The channels a function may tune to or store, and whether it handles Hellos. -/
structure Licence where
  channel : Int → Prop := fun _ => False
  hello : Prop := False

/-- One act within a licence. An entry made without a channel has channel -1. -/
inductive Act (c : Ctx) (l : Licence) : Node → Node → Prop where
  | still {n n' : Node} (data : n'.linkData = n.linkData) (out : n'.out = n.out)
      (channels : ∀ rt' ∈ n'.entries, ∃ rt ∈ n.entries, rt'.channel = rt.channel) : Act c l n n'
  | handOut {n : Node} (o : Output)
      (ho : ∀ i p d, o = .sched i p d → p.daddr ≠ aodvBroadcast → i = n.channelNum) :
      Act c l n (n.handOut o)
  | store {n : Node} (rt : RtTable) (h : rt.channel = -1 ∨ l.channel rt.channel) :
      Act c l n (storeEntry rt n)
  | write {n : Node} (a : InAddr) (f : RtTable → RtTable)
      (hf : ∀ rt : RtTable, (f rt).channel = rt.channel ∨ l.channel (f rt).channel) :
      Act c l n (n.modRt a f)
  | tune {n : Node} (ch : Int) (h : l.channel ch) : Act c l n (setChannelNum ch n)
  | hello {n : Node} (e : HelloEvent) (h : l.hello) : Act c l n (e.run c n)

abbrev Acts (c : Ctx) (l : Licence) : Node → Node → Prop := Relation.ReflTransGen (Act c l)

/-- What is assumed of `neighbor_link_break` and `neighbor_add`: that they too are sequences of
such acts, without a licence. -/
def Ctx.BreaksPlainly (c : Ctx) : Prop := ∀ a n, Acts c {} n (c.ext.neighborLinkBreak c.env a n)

def Ctx.AddsPlainly (c : Ctx) : Prop := ∀ m a n, Acts c {} n (c.ext.neighborAdd c.env m a n)

variable {c : Ctx} {l : Licence}

theorem Act.mono {l' : Licence} {n n' : Node} (hch : ∀ ch, l.channel ch → l'.channel ch)
    (hhello : l.hello → l'.hello) (h : Act c l n n') : Act c l' n n' := by
  cases h with
  | still data out channels => exact .still data out channels
  | handOut o ho => exact .handOut o ho
  | store rt h => exact .store rt (h.imp_right (hch _))
  | write a f hf => exact .write a f fun rt => (hf rt).imp_right (hch _)
  | tune ch h => exact .tune ch (hch ch h)
  | hello e h => exact .hello e (hhello h)

/-- The entries with a channel have one of the licence. -/
def Licence.Knows (l : Licence) (n : Node) : Prop :=
  ∀ rt ∈ n.entries, rt.channel ≠ -1 → l.channel rt.channel

theorem HelloEvent.run_still (e : HelloEvent) (n : Node) : (e.run c n).ipaddr = n.ipaddr ∧
    (e.run c n).tbl = n.tbl ∧ (e.run c n).out = n.out ∧ (e.run c n).channelNum = n.channelNum := by
  cases e with
  | sent =>
    dsimp only [HelloEvent.run, updateNeighborInfo]
    refine List.foldlRecOn (motive := fun n' : Node => n'.ipaddr = n.ipaddr ∧ n'.tbl = n.tbl ∧
      n'.out = n.out ∧ n'.channelNum = n.channelNum) _ _ ?_ fun n' hn' j _ => ?_
    · refine List.foldlRecOn (motive := fun n' : Node => n'.ipaddr = n.ipaddr ∧ n'.tbl = n.tbl ∧
        n'.out = n.out ∧ n'.channelNum = n.channelNum) _ _ ⟨rfl, rfl, rfl, rfl⟩ fun n' hn' a _ => ?_
      split <;> exact hn'
    · split <;> exact hn'
  | heard hello =>
    have hrecord : (helloRecord hello n).ipaddr = n.ipaddr ∧ (helloRecord hello n).tbl = n.tbl ∧
        (helloRecord hello n).out = n.out ∧ (helloRecord hello n).channelNum = n.channelNum := by
      unfold helloRecord
      split <;> exact ⟨rfl, rfl, rfl, rfl⟩
    exact hrecord
  | acked ack ipSrc => exact ⟨rfl, rfl, rfl, rfl⟩

theorem Act.knows {n n' : Node} (h : Act c l n n') (hk : l.Knows n) : l.Knows n' := by
  intro rt' hrt' hch
  cases h with
  | still data out channels =>
    obtain ⟨rt, hrt, heq⟩ := channels rt' hrt'
    rw [heq] at hch ⊢
    exact hk rt hrt hch
  | handOut => exact hk rt' hrt' hch
  | store rt h =>
    rcases mem_entries_storeEntry hrt' with rfl | hrt
    · exact h.resolve_left hch
    · exact hk rt' hrt hch
  | write a f hf =>
    obtain ⟨rt, hrt, rfl | rfl⟩ := mem_entries_modRt hrt'
    · exact hk _ hrt hch
    · rcases hf rt with hsame | hnew
      · rw [hsame] at hch ⊢
        exact hk rt hrt hch
      · exact hnew
  | tune => exact hk rt' hrt' hch
  | hello e =>
    have htbl : (e.run c n).entries = n.entries := congrArg HashTable.entries (e.run_still n).2.1
    exact hk rt' (htbl ▸ hrt') hch

/-! ## Invariants -/

/-- An invariant that survives the acts within a licence. -/
structure Ctx.Carries (c : Ctx) (l : Licence) (I : Node → Prop) : Prop where
  act : ∀ n n', Act c l n n' → I n → I n'

theorem Acts.carries (n₀ : Node) : c.Carries l (Acts c l n₀) where
  act _ _ h hn := hn.tail h

namespace Ctx.Carries

variable {I : Node → Prop} {n : Node} (h : c.Carries l I)
include h

theorem acts {n' : Node} (hs : Acts c {} n n') (hn : I n) : I n' := by
  induction hs with
  | refl => exact hn
  | tail _ hstep ih => exact h.act _ _ (hstep.mono (fun _ => False.elim) False.elim) ih

theorem still {n' : Node} (data : n'.linkData = n.linkData) (out : n'.out = n.out)
    (tbl : n'.tbl = n.tbl) (hn : I n) : I n' := by
  refine h.act n n' (.still data out fun rt hrt => ⟨rt, ?_, rfl⟩) hn
  have hent : n'.entries = n.entries := congrArg HashTable.entries tbl
  exact hent ▸ hrt

theorem keep (a : InAddr) {f : RtTable → RtTable} (hf : ∀ rt : RtTable, (f rt).channel = rt.channel)
    (hn : I n) : I (n.modRt a f) :=
  h.act _ _ (.write a f fun rt => .inl (hf rt)) hn

theorem emits {n' : Node} (he : n.Emits (fun o => ∀ i p d, o = .sched i p d →
      p.daddr ≠ aodvBroadcast → i = n.channelNum) n')
    (data : n'.linkData = n.linkData) (tbl : n'.tbl = n.tbl) (hn : I n) : I n' := by
  obtain ⟨os, hout, hos⟩ := he
  have hall : ∀ (os : List Output) (m : Node), I m → m.channelNum = n.channelNum → (∀ o ∈ os, ∀ i p d,
      o = .sched i p d → p.daddr ≠ aodvBroadcast → i = n.channelNum) →
      I { m with out := m.out ++ os } := by
    intro os
    induction os with
    | nil =>
      intro m hm _ _
      exact h.still (n := m) rfl (List.append_nil m.out) rfl hm
    | cons o os ih =>
      intro m hm hch hos
      have hfirst : I (m.handOut o) := h.act _ _ (.handOut o fun i p d ho hu =>
        (hos o (by simp) i p d ho hu).trans hch.symm) hm
      have hrest := ih (m.handOut o) hfirst hch fun o ho => hos o (by simp [ho])
      exact h.still (n := { m.handOut o with out := (m.handOut o).out ++ os }) rfl
        (List.append_cons m.out o os) rfl hrest
  exact h.still (n := { n with out := n.out ++ os }) data hout tbl (hall os n hn rfl hos)

/-! ## Socket -/

theorem sendPacket (p : Packet) (a : InAddr) (delay : ℚ) (hn : I n) :
    I (sendPacket c p a delay n) := by
  refine h.emits ((sendPacket_emits p a delay n).mono fun o ho i q d heq hu => ?_) ?_ ?_ hn
  · subst heq
    obtain ⟨-, hcopy, hch⟩ := ho
    exact hch (hcopy.daddr ▸ hu)
  · rw [sendPacket_eq]
    rfl
  · rw [sendPacket_eq]

theorem aodvSocketSend (a : InAddr) (len : ℕ) (ttl : BitVec 8) (hn : I n) :
    I (aodvSocketSend c a len ttl n) := by
  rcases aodvSocketSend_eq (c := c) a len ttl n with heq | ⟨r, r', t, heq⟩
  · rw [heq]
    exact hn
  · rw [heq]
    exact h.sendPacket _ a 0 (h.still (n := n) rfl rfl rfl hn)

theorem newMsg (m : AodvMsg) (hn : I n) :
    I (aodvSocketNewMsg m n) := h.still (n := n) rfl rfl rfl hn

/-! ## Routing table and packet queue -/

theorem timeout (a : InAddr) (life : BitVec 32) (hn : I n) : I (rtTableUpdateTimeout c a life n) :=
  h.keep a (fun rt => (RtTable.updateTimeout_quiet c.now life rt).channel) hn

theorem precursorAdd (a addr : InAddr) (hn : I n) : I (precursorAdd a addr n) :=
  h.keep a (fun rt => (RtTable.precursorAdd_keeps addr rt).channel) hn

theorem precursorListDestroy (a : InAddr) (hn : I n) : I (precursorListDestroy a n) :=
  h.keep a (fun _ => rfl) hn

theorem addPrecursors (fwd rev : InAddr) (hn : I n) : I (addPrecursors fwd rev n) :=
  h.precursorAdd rev _ (h.precursorAdd fwd _ hn)

theorem updateRouteTimeout (rt : RtTable) (inet : Bool) (hn : I n) :
    I (updateRouteTimeout c rt inet n) := by
  unfold AodvUU.updateRouteTimeout
  split
  · have hfirst : I (if c.conf.llfeedback ∨ inet ∨ rt.hcnt ≠ 1 ∨ rt.helloTimer.used then
        rtTableUpdateTimeout c rt.destAddr (msecs c.conf.activeRouteTimeout) n else n) := by
      split
      · exact h.timeout _ _ hn
      · exact hn
    dsimp only
    split
    · exact hfirst
    · split
      · exact h.timeout _ _ hfirst
      · exact hfirst
  · exact hn

theorem rtTableUpdateRouteTimeouts (fwd rev : Option InAddr) (hn : I n) :
    I (rtTableUpdateRouteTimeouts c fwd rev n) :=
  rtTableUpdateRouteTimeouts_keeps (fun rt inet _ hm => h.updateRouteTimeout rt inet hm) fwd rev hn

theorem drop (p : Packet) (r : DropReason) (hn : I n) : I (n.handOut (.drop p r)) :=
  h.act _ _ (.handOut _ fun _ _ _ ho => by cases ho) hn

theorem packetQueueAdd (p : Packet) (a : InAddr) (hn : I n) : I (packetQueueAdd c p a n) := by
  have hadd : ∀ n : Node, I n → I { n with pq := n.pq ++ [⟨a, c.now, p⟩], pqLen := n.pqLen + 1 } :=
    fun n hn => h.still (n := n) rfl rfl rfl hn
  unfold AodvUU.packetQueueAdd
  refine hadd _ ?_
  split
  · split
    · exact hn
    · exact h.drop _ _ (h.still (n := n) rfl rfl rfl hn)
  · exact hn

theorem refreshQueued (rt : RtTable) (a : InAddr) (hn : I n) : I (refreshQueued c rt a n) := by
  unfold AodvUU.refreshQueued
  split
  · dsimp only
    split
    · exact h.timeout _ _ hn
    · split
      · exact h.timeout _ _ (h.timeout _ _ hn)
      · exact h.timeout _ _ hn
  · exact hn

theorem sendQueued (a : InAddr) (qps : List QPkt) (delay : ℚ) (hn : I n) :
    I (sendQueued c a qps delay n) := by
  induction qps generalizing n delay with
  | nil => exact hn
  | cons qp qps ih => exact ih _ (h.sendPacket qp.p a delay hn)

theorem dropAll {α : Type*} (as : List α) (f : α → Packet × DropReason) (hn : I n) :
    I (as.foldl (fun n x => n.handOut (.drop (f x).1 (f x).2)) n) :=
  List.foldlRecOn (motive := fun n : Node => I n) _ _ hn fun _ hn _ _ => h.drop _ _ hn

theorem packetQueueSetVerdict (a : InAddr) (v : Verdict) (hn : I n) :
    I (packetQueueSetVerdict c a v n) := by
  have htake : I (takeQueued a n) := h.still (n := n) rfl rfl rfl hn
  unfold AodvUU.packetQueueSetVerdict
  cases v with
  | encSend =>
    dsimp only
    split
    · exact hn
    · split
      · exact htake
      · split
        · exact h.refreshQueued _ a (h.timeout _ _ htake)
        · exact htake
  | send =>
    dsimp only
    split
    · exact h.still (n := n) rfl rfl rfl hn
    · exact h.refreshQueued _ a (h.sendQueued _ _ 0 htake)
  | drop => exact h.dropAll _ (fun qp : QPkt => (qp.p, .noRoute)) htake

theorem flushSeek (a : InAddr) (hn : I n) : I (flushSeek c a n) := by
  unfold AodvUU.flushSeek
  split
  · split
    · exact hn
    · exact h.packetQueueSetVerdict a _ (h.still (n := n) rfl rfl rfl hn)
  · exact hn

theorem rtTableAdd (a next : InAddr) (hops : BitVec 8) (seqno life : BitVec 32) (state : RtState)
    (flags : BitVec 16) {ch : Int} (cost : ℚ) (hch : ch = -1 ∨ l.channel ch) (hn : I n) :
    I (rtTableAdd c a next hops seqno life state flags ch cost n) :=
  h.flushSeek a (h.act _ _ (.store _ hch) hn)

theorem rtTableInsert (a next : InAddr) (hops : BitVec 8) (seqno life : BitVec 32)
    (state : RtState) (flags : BitVec 16) (hn : I n) :
    I (rtTableInsert c a next hops seqno life state flags n) := by
  unfold AodvUU.rtTableInsert
  split
  · exact hn
  · exact h.rtTableAdd _ _ _ _ _ _ _ _ (.inl rfl) hn

theorem rtTableInsertWithChannel (a next : InAddr) (hops : BitVec 8) (seqno life : BitVec 32)
    (state : RtState) (flags : BitVec 16) {ch : Int} (cost : ℚ) (hch : l.channel ch) (hn : I n) :
    I (rtTableInsertWithChannel c a next hops seqno life state flags ch cost n) := by
  unfold AodvUU.rtTableInsertWithChannel
  split
  · exact hn
  · split
    · exact hn
    · exact h.rtTableAdd _ _ _ _ _ _ _ _ (.inr hch) hn

theorem rtTableInvalidate (a : InAddr) (hn : I n) : I (rtTableInvalidate c a n) := by
  unfold AodvUU.rtTableInvalidate
  split
  · exact hn
  · split
    · exact hn
    · have hmod := h.keep a (f := (·.invalidated c)) (fun _ => rfl) hn
      exact h.still (n := n.modRt a (·.invalidated c)) rfl rfl rfl hmod

theorem rtTableDelete (a : InAddr) (hn : I n) : I (rtTableDelete a n) := by
  unfold AodvUU.rtTableDelete
  split
  · exact hn
  · refine h.act n _ (.still rfl rfl fun rt hrt => ⟨rt, ?_, rfl⟩) hn
    exact (HashTable.mem_erase.mp hrt).1

theorem sendRerr (dest : InAddr) (hn : I n) : I (sendRerr c dest n) := by
  unfold AodvUU.sendRerr
  dsimp only
  split_ifs
  · exact h.aodvSocketSend _ _ _ hn
  · exact h.aodvSocketSend _ _ _ hn
  · exact hn

/-! ## Updates, with the link break in their middle -/

theorem beforeUpdate (hb : c.BreaksPlainly) (a : InAddr) (hops : BitVec 8) (state : RtState)
    (hn : I n) : I (beforeUpdate c a hops state n) := by
  unfold AodvUU.beforeUpdate
  dsimp only
  have hactive : I (if (n.rt a).state = .invalid ∧ state = .valid then
      { n with numActive := n.numActive + 1 } else n) := by
    split
    · exact h.still (n := n) rfl rfl rfl hn
    · exact hn
  generalize (if (n.rt a).state = .invalid ∧ state = .valid then
    { n with numActive := n.numActive + 1 } else n) = n₁ at hactive ⊢
  split
  · unfold breakOneHop
    refine h.acts (hb a _) (h.keep a (fun _ => rfl) ?_)
    exact h.still (n := n₁) rfl rfl rfl hactive
  · exact hactive

theorem rtTableUpdateGen (hb : c.BreaksPlainly) {chan : Option (Int × ℚ)} (a next : InAddr)
    (hops : BitVec 8) (seqno life : BitVec 32) (state : RtState) (flags : BitVec 16)
    (hch : ∀ x, chan = some x → l.channel x.1) (hn : I n) :
    I (rtTableUpdateGen c chan a next hops seqno life state flags n) := by
  unfold AodvUU.rtTableUpdateGen
  refine h.flushSeek a (h.act _ _ (.write a _ fun rt => ?_) (h.beforeUpdate hb a hops state hn))
  rw [RtTable.write_channel]
  cases chan with
  | none => exact .inl rfl
  | some x => exact .inr (hch x rfl)

theorem helloUpdateTimeout (a : InAddr) (time : Int) (hn : I n) :
    I (helloUpdateTimeout c a time n) := h.keep a (fun _ => rfl) hn

end Ctx.Carries

/-! ## The described functions -/

section Described

variable {I : Node → Prop} {n : Node}

theorem Ctx.Carries.linkBreakRerr (h : c.Carries l I) (a : InAddr) (w : Bool × Node) (hn : I w.2) :
    I (linkBreakRerr a w).2 := by
  unfold AodvUU.linkBreakRerr
  dsimp only
  split_ifs
  · exact hn
  · exact h.still (n := w.2) rfl rfl rfl hn
  · exact h.newMsg _ hn

theorem neighborLinkBreakDescribed_acts (a : InAddr) (n : Node) :
    Acts c l n (neighborLinkBreakDescribed c a n) := by
  have h := Acts.carries (c := c) (l := l) n
  refine neighborLinkBreakDescribed_keeps (I := Acts c l n) ?_
    fun dst len ttl _ hm => h.aodvSocketSend dst len ttl hm
  exact linkBreakWalk_keeps (I := Acts c l n) (fun b _ hm => h.keep b (fun _ => rfl) hm)
    (fun b _ hm => h.rtTableInvalidate b hm) (fun b w hw => h.linkBreakRerr b w hw) a .refl

theorem described_breaksPlainly (log : ℚ → ℚ) (cf : Conf) (env : Env) :
    Ctx.BreaksPlainly ⟨cf, .described log cf, env⟩ := fun a n => neighborLinkBreakDescribed_acts a n

theorem neighborAddDescribed_acts (hb : c.BreaksPlainly) (src : InAddr) (n : Node) :
    Acts c l n (neighborAddDescribed c src n) := by
  have h := Acts.carries (c := c) (l := l) n
  unfold neighborAddDescribed
  split
  · exact h.rtTableInsert _ _ _ _ _ _ _ .refl
  · next rt _ =>
    have hupdate : Acts c l n (rtTableUpdate c src src 1 rt.destSeqno
        (msecs c.conf.activeRouteTimeout) .valid rt.flags n) :=
      h.rtTableUpdateGen hb _ _ _ _ _ _ _ (fun _ hx => by cases hx) .refl
    split
    · exact .refl
    · dsimp only
      split
      · exact h.helloUpdateTimeout _ _ hupdate
      · exact hupdate

theorem Acts.of_ext {cf : Conf} {env : Env} {ext : Extern} (ext' : Extern) {n n' : Node}
    (h : Acts ⟨cf, ext, env⟩ l n n') : Acts ⟨cf, ext', env⟩ l n n' := by
  refine Relation.ReflTransGen.mono (fun a b hab => ?_) _ _ h
  cases hab with
  | still data out channels => exact .still data out channels
  | handOut o ho => exact .handOut o ho
  | store rt h => exact .store rt h
  | write a f hf => exact .write a f hf
  | tune ch h => exact .tune ch h
  | hello e h =>
    cases e with
    | sent => exact .hello .sent h
    | heard hello => exact .hello (.heard hello) h
    | acked ack ipSrc => exact .hello (.acked ack ipSrc) h

theorem described_addsPlainly (log : ℚ → ℚ) (cf : Conf) (env : Env) :
    Ctx.AddsPlainly ⟨cf, .described log cf, env⟩ := fun _ a n =>
  (neighborAddDescribed_acts (fun b m => neighborLinkBreakDescribed_acts b m) a n).of_ext _

end Described

end AodvUU

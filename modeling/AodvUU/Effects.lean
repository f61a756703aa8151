import Mathlib.Logic.Relation
import AodvUU.Agent

/-! # What the handlers can do to an agent

Every function of the agent is a sequence of a few elementary effects. An invariant is proved
for the effects once; what a particular handler cannot do is the `Scope` it runs in. -/
namespace AodvUU

variable (c : Ctx)

/-! ## Messages on their way out -/

def Packet.control (p : Packet) : Option AodvMsg := if p.ptype = .aodvuu then p.msg else none

def Output.sent : Output → Option AodvMsg
  | .sched _ p _ => p.control
  | _ => none

/-- The control messages that wait in one of the two packet queues. -/
def Node.waiting (n : Node) : Set AodvMsg :=
  { m | ∃ p ∈ n.pq.map (·.p) ++ n.ifqueue.getD [], p.control = some m }

def Node.Sendable (n : Node) (m : AodvMsg) : Prop :=
  m ∈ n.waiting ∨ ∃ len, m = n.sendBuf.trunc len

/-- Sending, queueing and bookkeeping: the table, the own number and the send buffer stay. -/
structure Traffic (n n' : Node) : Prop where
  ipaddr : n'.ipaddr = n.ipaddr
  seqno : n'.seqno = n.seqno
  seqnoWrapped : n'.seqnoWrapped = n.seqnoWrapped
  tbl : n'.tbl = n.tbl
  numEntries : n'.numEntries = n.numEntries
  numActive : n'.numActive = n.numActive
  rerouted : n'.neighborRerouted = n.neighborRerouted
  sendBuf : n'.sendBuf = n.sendBuf
  waiting : ∀ m ∈ n'.waiting, m ∈ n.waiting
  out : ∀ o ∈ n'.out, o ∈ n.out ∨ ∀ m, o.sent = some m → n.Sendable m

namespace Traffic

variable {n n' n'' : Node}

theorem refl (n : Node) : Traffic n n := by
  constructor <;> simp_all

theorem trans (h : Traffic n n') (h' : Traffic n' n'') : Traffic n n'' where
  ipaddr := h'.ipaddr.trans h.ipaddr
  seqno := h'.seqno.trans h.seqno
  seqnoWrapped := h'.seqnoWrapped.trans h.seqnoWrapped
  tbl := h'.tbl.trans h.tbl
  numEntries := h'.numEntries.trans h.numEntries
  numActive := h'.numActive.trans h.numActive
  rerouted := h'.rerouted.trans h.rerouted
  sendBuf := h'.sendBuf.trans h.sendBuf
  waiting m hm := h.waiting m (h'.waiting m hm)
  out o ho := by
    rcases h'.out o ho with ho | ho
    · exact h.out o ho
    · refine Or.inr fun m hm => ?_
      rcases ho m hm with hw | ⟨len, hl⟩
      · exact Or.inl (h.waiting m hw)
      · exact Or.inr ⟨len, by rw [hl, h.sendBuf]⟩

theorem foldl {α : Type*} {f : Node → α → Node} (l : List α) (h : ∀ n, ∀ x ∈ l, Traffic n (f n x))
    (n : Node) : Traffic n (l.foldl f n) := by
  induction l generalizing n with
  | nil => exact refl n
  | cons x l ih =>
    exact (h n x (by simp)).trans (ih (fun n y hy => h n y (by simp [hy])) (f n x))

end Traffic

/-! ## Effects -/

/-- The own number a message carries: that of a request from `own`, or of a reply about it. -/
def AodvMsg.ownNumber (own : InAddr) : AodvMsg → Option (BitVec 32)
  | .rreq m => if m.origAddr = own then some m.origSeqno else none
  | .rrep m => if m.destAddr = own then some m.destSeqno else none
  | _ => none

def RtTable.PrecWf (rt : RtTable) : Prop :=
  rt.nprec = rt.precursors.length ∧ rt.precursors.Nodup

/-- The changes of an entry that leave the route as it is. -/
structure RtTable.Keeps (rt rt' : RtTable) : Prop where
  destAddr : rt'.destAddr = rt.destAddr
  hash : rt'.hash = rt.hash
  destSeqno : rt'.destSeqno = rt.destSeqno
  nextHop : rt'.nextHop = rt.nextHop
  hcnt : rt'.hcnt = rt.hcnt
  state : rt'.state = rt.state
  channel : rt'.channel = rt.channel
  cost : rt'.cost = rt.cost
  precursors : rt.PrecWf → rt'.PrecWf

/-- Which effects beyond sending and ageing are possible: new entries and numbers, deletion,
changes of the agent's own number, requests repeated without one, and what a call of an
update function does. -/
structure Scope where
  write : Prop := False
  delete : Prop := False
  own : Prop := False
  retry : Prop := False
  update : Node → Node → Prop := fun _ _ => False

inductive Effect (s : Scope) : Node → Node → Prop where
  | traffic {n n' : Node} (h : Traffic n n') : Effect s n n'
  | entry {n : Node} (a : InAddr) (f : RtTable → RtTable) (h : ∀ rt : RtTable, rt.Keeps (f rt)) :
      Effect s n (n.modRt a f)
  | invalidate {n : Node} (a : InAddr) : Effect s n (rtTableInvalidate c a n)
  | buffer {n : Node} (m : AodvMsg)
      (h : ∀ v, m.ownNumber n.ipaddr = some v →
        v = n.seqno ∨ n.sendBuf.ownNumber n.ipaddr = some v) :
      Effect s n (aodvSocketNewMsg m n)
  | delete {n : Node} (hs : s.delete) (a : InAddr) : Effect s n (rtTableDelete a n)
  | insert {n : Node} (hs : s.write) (rt : RtTable) (hash : rt.hash = rt.destAddr)
      (prec : rt.nprec = 0 ∧ rt.precursors = [])
      (absent : rtTableFind n rt.destAddr = none ∨ n.lookup rt.destAddr = none) :
      Effect s n (storeEntry rt n)
  | setSeqno {n : Node} (hs : s.write) (a : InAddr) (v : BitVec 32) :
      Effect s n (n.modRt a fun rt => { rt with destSeqno := v })
  | update {n n' : Node} (hs : s.update n n') (addr : n'.ipaddr = n.ipaddr) : Effect s n n'
  | raise {n : Node} (hs : s.own) (v : BitVec 32) : Effect s n (n.seqnoRaise v)
  | incr {n : Node} (hs : s.own) : Effect s n n.seqnoIncr
  | flood {n : Node} (hs : s.own) (a : InAddr) (v : BitVec 32) (ttl : Int) (flags : BitVec 8) :
      Effect s n (onEachChannel (rreqSendWithChannel c a v ttl flags) n).seqnoIncr
  | reflood {n : Node} (hs : s.retry) (a : InAddr) (v : BitVec 32) (ttl : Int)
      (flags : BitVec 8) :
      Effect s n (onEachChannel (rreqSendWithChannel c a v ttl flags) n)

abbrev Effects (s : Scope) : Node → Node → Prop := Relation.ReflTransGen (Effect c s)

/-- What is assumed of `neighbor_link_break` and `neighbor_add`: that they too are sequences
of such effects. -/
def Ctx.LinkBreaks (s : Scope) : Prop :=
  ∀ a n, Effects c s n (c.ext.neighborLinkBreak c.env a n)

def Ctx.NeighborAdds (s : Scope) : Prop :=
  ∀ m a n, Effects c s n (c.ext.neighborAdd c.env m a n)

/-- The calls of the update functions: on an entry that exists, and to make it valid. -/
def Ctx.Updates (s : Scope) : Prop :=
  ∀ chan a next hops seqno life flags n, n.lookup a ≠ none →
    Effects c s n (rtTableUpdateGen c chan a next hops seqno life .valid flags n)

/-- The external neighbour functions change an agent within a scope: in particular they change
the table only as `routing_table.c` does, and look a destination up before they insert it. -/
structure Extern.Within (ext : Extern) (s : Scope) (cf : Conf) : Prop where
  linkBreaks : ∀ env, Ctx.LinkBreaks ⟨cf, ext, env⟩ s
  neighborAdds : ∀ env, Ctx.NeighborAdds ⟨cf, ext, env⟩ s

namespace Effects

variable {c} {s t : Scope} {n n' n'' : Node}

theorem of (h : Effect c s n n') : Effects c s n n' := Relation.ReflTransGen.single h

theorem refl (n : Node) : Effects c s n n := Relation.ReflTransGen.refl

theorem trans (h : Effects c s n n') (h' : Effects c s n' n'') : Effects c s n n'' :=
  Relation.ReflTransGen.trans h h'

theorem foldl {α : Type*} {f : Node → α → Node} (l : List α)
    (h : ∀ n, ∀ x ∈ l, Effects c s n (f n x)) (n : Node) : Effects c s n (l.foldl f n) := by
  induction l generalizing n with
  | nil => exact refl n
  | cons x l ih =>
    exact (h n x (by simp)).trans (ih (fun n y hy => h n y (by simp [hy])) (f n x))

theorem mono (hw : s.write → t.write) (hd : s.delete → t.delete) (ho : s.own → t.own)
    (hr : s.retry → t.retry) (hu : ∀ n n', s.update n n' → t.update n n')
    (h : Effects c s n n') : Effects c t n n' := by
  refine Relation.ReflTransGen.mono (fun a b hab => ?_) _ _ h
  cases hab with
  | traffic h => exact .traffic h
  | entry a f h => exact .entry a f h
  | invalidate a => exact .invalidate a
  | buffer m h => exact .buffer m h
  | delete hs a => exact .delete (hd hs) a
  | insert hs rt hash prec absent => exact .insert (hw hs) rt hash prec absent
  | setSeqno hs a v => exact .setSeqno (hw hs) a v
  | update hs addr => exact .update (hu _ _ hs) addr
  | raise hs v => exact .raise (ho hs) v
  | incr hs => exact .incr (ho hs)
  | flood hs a v ttl flags => exact .flood (ho hs) a v ttl flags
  | reflood hs a v ttl flags => exact .reflood (hr hs) a v ttl flags

theorem widen (h : Effects c {} n n') : Effects c s n n' :=
  h.mono False.elim False.elim False.elim False.elim fun _ _ => False.elim

theorem traffic (h : Traffic n n') : Effects c s n n' := of (.traffic h)

theorem entry (a : InAddr) (f : RtTable → RtTable) (h : ∀ rt : RtTable, rt.Keeps (f rt))
    (n : Node) :
    Effects c s n (n.modRt a f) := of (.entry a f h)

theorem invalidate (a : InAddr) (n : Node) : Effects c s n (rtTableInvalidate c a n) :=
  of (.invalidate a)

theorem buffer (m : AodvMsg) (h : m.ownNumber n.ipaddr = none) :
    Effects c s n (aodvSocketNewMsg m n) := of (.buffer m (by simp [h]))

end Effects

theorem Ctx.LinkBreaks.widen {c : Ctx} {s : Scope} (hl : c.LinkBreaks {}) : c.LinkBreaks s :=
  fun a n => (hl a n).widen

/-! ## Ageing -/

structure RtTable.Ages (rt rt' : RtTable) : Prop where
  destAddr : rt'.destAddr = rt.destAddr
  nextHop : rt'.nextHop = rt.nextHop
  hcnt : rt'.hcnt = rt.hcnt
  channel : rt'.channel = rt.channel
  cost : rt'.cost = rt.cost
  aged : (rt'.state = rt.state ∧ rt'.destSeqno = rt.destSeqno) ∨
    (rt.state = .valid ∧ rt'.state = .invalid ∧ rt'.destSeqno = seqnoIncr rt.destSeqno)

theorem RtTable.Ages.refl (rt : RtTable) : rt.Ages rt :=
  ⟨rfl, rfl, rfl, rfl, rfl, Or.inl ⟨rfl, rfl⟩⟩

theorem RtTable.Ages.trans {rt rt' rt'' : RtTable} (h : rt.Ages rt') (h' : rt'.Ages rt'') :
    rt.Ages rt'' := by
  refine ⟨h'.destAddr.trans h.destAddr, h'.nextHop.trans h.nextHop, h'.hcnt.trans h.hcnt,
    h'.channel.trans h.channel, h'.cost.trans h.cost, ?_⟩
  rcases h.aged with ⟨hs, hn⟩ | ⟨hv, hs, hn⟩ <;> rcases h'.aged with ⟨hs', hn'⟩ | ⟨hv', hs', hn'⟩
  · exact Or.inl ⟨hs'.trans hs, hn'.trans hn⟩
  · exact Or.inr ⟨hs ▸ hv', hs', hn ▸ hn'⟩
  · exact Or.inr ⟨hv, hs'.trans hs, hn'.trans hn⟩
  · rw [hs] at hv'
    cases hv'

theorem RtTable.Keeps.ages {rt rt' : RtTable} (h : rt.Keeps rt') : rt.Ages rt' :=
  ⟨h.destAddr, h.nextHop, h.hcnt, h.channel, h.cost, Or.inl ⟨h.state, h.destSeqno⟩⟩

section OptionRel

variable {α : Type*} {R S T : α → α → Prop} {x y z : Option α}

theorem optionRel_comp (hRS : ∀ x y z, R x y → S y z → T x z) (h : Option.Rel R x y)
    (h' : Option.Rel S y z) : Option.Rel T x z := by
  rcases h with h | _ <;> rcases h' with h' | _
  · exact .some (hRS _ _ _ h h')
  · exact .none

theorem optionRel_trans (hR : ∀ x y z, R x y → R y z → R x z) (h : Option.Rel R x y)
    (h' : Option.Rel R y z) : Option.Rel R x z := optionRel_comp hR h h'

theorem optionRel_imp (hRS : ∀ x y, R x y → S x y) (h : Option.Rel R x y) : Option.Rel S x y := by
  rcases h with h | _
  · exact .some (hRS _ _ h)
  · exact .none

theorem optionRel_some {b : α} (h : Option.Rel R x (some b)) : ∃ a, x = some a ∧ R a b := by
  rcases h with h | _
  exact ⟨_, rfl, h⟩

theorem some_optionRel {a : α} (h : Option.Rel R (some a) y) : ∃ b, y = some b ∧ R a b := by
  rcases h with h | _
  exact ⟨_, rfl, h⟩

end OptionRel

/-- No entry comes and none goes, and each is related to what it was. -/
def Node.Entrywise (R : RtTable → RtTable → Prop) (n n' : Node) : Prop :=
  ∀ a, Option.Rel R (n.lookup a) (n'.lookup a)

namespace Node.Entrywise

variable {R : RtTable → RtTable → Prop} {n n' n'' : Node}

theorem of_lookup (hR : ∀ rt, R rt rt) (h : ∀ a, n'.lookup a = n.lookup a) :
    n.Entrywise R n' := by
  intro a
  rw [h a]
  cases n.lookup a with
  | none => exact .none
  | some rt => exact .some (hR rt)

theorem trans (hR : ∀ x y z, R x y → R y z → R x z) (h : n.Entrywise R n')
    (h' : n'.Entrywise R n'') : n.Entrywise R n'' :=
  fun a => optionRel_trans hR (h a) (h' a)

theorem modRt (hR : ∀ rt, R rt rt) (a : InAddr) {f : RtTable → RtTable}
    (hd : ∀ rt, (f rt).destAddr = rt.destAddr) (hf : ∀ rt, R rt (f rt)) (n : Node) :
    n.Entrywise R (n.modRt a f) := by
  intro b
  rw [lookup_modRt a b hd]
  cases n.lookup b with
  | none => split <;> exact .none
  | some rt =>
    split
    · exact .some (hf rt)
    · exact .some (hR rt)

theorem mono {S : RtTable → RtTable → Prop} (hRS : ∀ rt rt', R rt rt' → S rt rt')
    (h : n.Entrywise R n') : n.Entrywise S n' := by
  exact fun a => optionRel_imp hRS (h a)

theorem lookup_eq_some (h : n.Entrywise R n') {a : InAddr} {rt : RtTable}
    (hrt : n.lookup a = some rt) : ∃ rt', n'.lookup a = some rt' ∧ R rt rt' := by
  have hrel := h a
  rw [hrt] at hrel
  exact some_optionRel hrel

theorem lookup_eq_none (h : n.Entrywise R n') {a : InAddr} (hn : n.lookup a = none) :
    n'.lookup a = none := by
  have hrel := h a
  rw [hn] at hrel
  revert hrel
  generalize n'.lookup a = x
  rintro (_ | _)
  rfl

theorem lookup_ne_none (h : n.Entrywise R n') {a : InAddr} (hn : n.lookup a ≠ none) :
    n'.lookup a ≠ none := by
  obtain ⟨rt, hrt⟩ := Option.ne_none_iff_exists'.mp hn
  obtain ⟨rt', hrt', -⟩ := h.lookup_eq_some hrt
  rw [hrt']
  exact Option.some_ne_none rt'

theorem exists_before (h : n.Entrywise R n') {a : InAddr} {rt' : RtTable}
    (hrt' : n'.lookup a = some rt') : ∃ rt, n.lookup a = some rt ∧ R rt rt' := by
  cases hrt : n.lookup a with
  | none =>
    rw [h.lookup_eq_none hrt] at hrt'
    cases hrt'
  | some rt =>
    obtain ⟨rt'', hrt'', hr⟩ := h.lookup_eq_some hrt
    cases hrt'.symm.trans hrt''
    exact ⟨rt, rfl, hr⟩

end Node.Entrywise

/-- Without a write no entry comes, and none goes; each keeps its route. -/
def Node.Ages (n n' : Node) : Prop := ∀ a, Option.Rel RtTable.Ages (n.lookup a) (n'.lookup a)

namespace Node.Ages

variable {n n' n'' : Node}

theorem of_tbl (h : n'.tbl = n.tbl) : n.Ages n' :=
  Node.Entrywise.of_lookup RtTable.Ages.refl fun a => by simp [Node.lookup, h]

theorem trans (h : n.Ages n') (h' : n'.Ages n'') : n.Ages n'' :=
  Node.Entrywise.trans (fun _ _ _ => RtTable.Ages.trans) h h'

theorem modRt (a : InAddr) {f : RtTable → RtTable} (hf : ∀ rt : RtTable, rt.Ages (f rt))
    (n : Node) :
    n.Ages (n.modRt a f) :=
  Node.Entrywise.modRt RtTable.Ages.refl a (fun rt => (hf rt).destAddr) hf n

end Node.Ages

variable {c}

theorem Effect.ages {n n' : Node} (h : Effect c {} n n') : n.Ages n' := by
  cases h with
  | traffic h => exact .of_tbl h.tbl
  | entry a f hf => exact .modRt a (fun rt => (hf rt).ages) n
  | buffer => exact .of_tbl rfl
  | invalidate a =>
    intro b
    rw [lookup_rtTableInvalidate]
    cases n.lookup b with
    | none => split <;> exact .none
    | some rt =>
      split
      · refine .some ?_
        dsimp only
        split
        · exact .refl rt
        · next hs =>
          have hv : rt.state = .valid := by cases h : rt.state <;> simp_all
          exact ⟨rfl, rfl, rfl, rfl, rfl, Or.inr ⟨hv, rfl, rfl⟩⟩
      · exact .some (.refl rt)
  | delete hs | insert hs | setSeqno hs | update hs | raise hs | incr hs | flood hs | reflood hs =>
    exact hs.elim

theorem Effects.ages {n n' : Node} (h : Effects c {} n n') : n.Ages n' := by
  induction h with
  | refl => exact .of_tbl rfl
  | tail _ h ih => exact ih.trans h.ages

theorem Node.Ages.lookup_eq_some {n n' : Node} (h : n.Ages n') {a : InAddr} {rt : RtTable}
    (hrt : n.lookup a = some rt) : ∃ rt', n'.lookup a = some rt' ∧ rt.Ages rt' :=
  Node.Entrywise.lookup_eq_some h hrt

theorem Node.Ages.lookup_eq_none {n n' : Node} (h : n.Ages n') {a : InAddr}
    (hn : n.lookup a = none) :
    n'.lookup a = none :=
  Node.Entrywise.lookup_eq_none h hn

theorem Node.Ages.lookup_ne_none {n n' : Node} (h : n.Ages n') {a : InAddr}
    (hn : n.lookup a ≠ none) : n'.lookup a ≠ none :=
  Node.Entrywise.lookup_ne_none h hn

end AodvUU

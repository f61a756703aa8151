import AodvUU.TableInvariant

/-! # What a handler writes into the table

A received message writes the entry of one destination. All other entries age, and so may the
entry written, when a link break follows in the same handler. -/
namespace AodvUU

variable {c : Ctx} {s : Scope}

/-! ## Entries that only age or go -/

def Node.Wanes (n n' : Node) : Prop :=
  ∀ a rt', n'.lookup a = some rt' → ∃ rt, n.lookup a = some rt ∧ rt.Ages rt'

namespace Node.Wanes

variable {n n' n'' : Node}

theorem of_ages (h : n.Ages n') : n.Wanes n' := fun _ _ hrt' =>
  Node.Entrywise.exists_before h hrt'

theorem trans (h : n.Wanes n') (h' : n'.Wanes n'') : n.Wanes n'' := by
  intro a rt'' hrt''
  obtain ⟨rt', hrt', hage'⟩ := h' a rt'' hrt''
  obtain ⟨rt, hrt, hage⟩ := h a rt' hrt'
  exact ⟨rt, hrt, hage.trans hage'⟩

theorem delete (a : InAddr) (n : Node) : n.Wanes (rtTableDelete a n) := by
  intro b rt' hrt'
  rw [lookup_rtTableDelete] at hrt'
  split at hrt'
  · cases hrt'
  · exact ⟨rt', hrt', .refl rt'⟩

end Node.Wanes

/-- Everything but the writes of new numbers and routes. -/
def Scope.waning : Scope where
  delete := True
  own := True
  retry := True

theorem Effect.wanes {n n' : Node} (h : Effect c .waning n n') : n.Wanes n' := by
  cases h with
  | traffic h => exact .of_ages (.of_tbl h.tbl)
  | entry a f hf => exact .of_ages (.modRt a (fun rt => (hf rt).ages) n)
  | invalidate a => exact .of_ages (Effect.invalidate a : Effect c {} n _).ages
  | buffer | incr => exact .of_ages (.of_tbl rfl)
  | delete hs a => exact .delete a n
  | insert hs | setSeqno hs | update hs => exact hs.elim
  | raise hs v => exact .of_ages (.of_tbl (seqnoRaise_sameTable v n).tbl)
  | flood hs a v ttl flags => exact .of_ages (.of_tbl (flood_sameTable a v ttl flags n).tbl)
  | reflood hs a v ttl flags => exact .of_ages (.of_tbl (flood_sameTable a v ttl flags n).tbl)

theorem Effects.wanes {n n' : Node} (h : Effects c .waning n n') : n.Wanes n' := by
  induction h with
  | refl => exact .of_ages (.of_tbl rfl)
  | tail _ h ih => exact ih.trans h.wanes

theorem effects_waning_preserve_rtWf {n n' : Node} (h : RtWf n) (he : Effects c .waning n n') :
    RtWf n' :=
  effects_preserve_rtWf h (he.mono False.elim (fun _ => trivial) (fun _ => trivial)
    (fun _ => trivial) fun _ _ => False.elim)

/-! ## The entry written -/

structure Node.Installs (n : Node) (a : InAddr) (w : RtTable) (n' : Node) : Prop where
  others : ∀ b, b ≠ a → Option.Rel RtTable.Ages (n.lookup b) (n'.lookup b)
  entry : ∃ rt', n'.lookup a = some rt' ∧ w.Ages rt'

theorem Node.Ages.installs {n n' n'' : Node} {a : InAddr} {w : RtTable} (h : n'.Installs a w n'')
    (hage : n.Ages n') : n.Installs a w n'' := by
  refine ⟨fun b hb => ?_, h.entry⟩
  exact optionRel_trans (R := RtTable.Ages) (fun _ _ _ => RtTable.Ages.trans) (hage b) (h.others b hb)

theorem Node.Installs.ages {n n' n'' : Node} {a : InAddr} {w : RtTable} (h : n.Installs a w n')
    (hage : n'.Ages n'') : n.Installs a w n'' := by
  obtain ⟨rt', hrt', hw⟩ := h.entry
  obtain ⟨rt'', hrt'', hw'⟩ := hage.lookup_eq_some hrt'
  refine ⟨fun b hb => ?_, rt'', hrt'', hw.trans hw'⟩
  exact optionRel_trans (R := RtTable.Ages) (fun _ _ _ => RtTable.Ages.trans) (h.others b hb) (hage b)

/-! ## Insertion -/

theorem rtTableAdd_installs (a next : InAddr) (hops : BitVec 8) (seqno life : BitVec 32)
    (state : RtState) (flags : BitVec 16) (ch : Int) (cost : ℚ) (n : Node) :
    n.Installs a (newEntry c a next hops seqno life state flags ch cost)
      (rtTableAdd c a next hops seqno life state flags ch cost n) := by
  have hstore : n.Installs a (newEntry c a next hops seqno life state flags ch cost)
      (storeEntry (newEntry c a next hops seqno life state flags ch cost) n) := by
    refine ⟨fun b hb => ?_, _, ?_, .refl _⟩
    · rw [lookup_storeEntry, newEntry, if_neg (Ne.symm hb)]
      exact Node.Ages.of_tbl rfl b
    · rw [lookup_storeEntry, newEntry, if_pos rfl]
  exact hstore.ages (flushSeek_effects a _ : Effects c {} _ _).ages

theorem rtTableInsert_installs {n : Node} {a : InAddr} (h : n.lookup a = none) (next : InAddr)
    (hops : BitVec 8) (seqno life : BitVec 32) (state : RtState) (flags : BitVec 16) :
    n.Installs a (newEntry c a next hops seqno life state flags (-1) 100000)
      (rtTableInsert c a next hops seqno life state flags n) := by
  rw [rtTableInsert_eq, if_pos h]
  exact rtTableAdd_installs a next hops seqno life state flags (-1) 100000 n

theorem rtTableInsertWithChannel_installs {n : Node} {a : InAddr} (h : n.lookup a = none)
    (hown : a ≠ n.ipaddr) (next : InAddr) (hops : BitVec 8) (seqno life : BitVec 32)
    (state : RtState) (flags : BitVec 16) (ch : Int) (cost : ℚ) :
    n.Installs a (newEntry c a next hops seqno life state flags ch cost)
      (rtTableInsertWithChannel c a next hops seqno life state flags ch cost n) := by
  rw [rtTableInsertWithChannel_of_none h hown]
  exact rtTableAdd_installs a next hops seqno life state flags ch cost n

/-! ## Update -/

section Write

variable (now : Time) (next : InAddr) (hops : BitVec 8) (seqno life : BitVec 32) (state : RtState)
  (flags : BitVec 16) (chan : Option (Int × ℚ)) (rt : RtTable)

theorem RtTable.write_eq : rt.write now next hops seqno life state flags chan =
    { rt with
      flags := flags
      destSeqno := seqno
      nextHop := next
      hcnt := hops
      channel := (chan.map Prod.fst).getD rt.channel
      cost := (chan.map Prod.snd).getD rt.cost
      rtTimer := (rt.write now next hops seqno life state flags chan).rtTimer
      state := state } := by
  unfold RtTable.write RtTable.updateTimeout
  dsimp only
  split_ifs <;> rfl

@[simp] theorem RtTable.write_destAddr :
    (rt.write now next hops seqno life state flags chan).destAddr = rt.destAddr := by
  rw [RtTable.write_eq]

@[simp] theorem RtTable.write_flags :
    (rt.write now next hops seqno life state flags chan).flags = flags := by
  rw [RtTable.write_eq]

@[simp] theorem RtTable.write_destSeqno :
    (rt.write now next hops seqno life state flags chan).destSeqno = seqno := by
  rw [RtTable.write_eq]

@[simp] theorem RtTable.write_nextHop :
    (rt.write now next hops seqno life state flags chan).nextHop = next := by
  rw [RtTable.write_eq]

@[simp] theorem RtTable.write_hcnt :
    (rt.write now next hops seqno life state flags chan).hcnt = hops := by
  rw [RtTable.write_eq]

@[simp] theorem RtTable.write_channel :
    (rt.write now next hops seqno life state flags chan).channel =
      (chan.map Prod.fst).getD rt.channel := by
  rw [RtTable.write_eq]

@[simp] theorem RtTable.write_cost :
    (rt.write now next hops seqno life state flags chan).cost =
      (chan.map Prod.snd).getD rt.cost := by
  rw [RtTable.write_eq]

@[simp] theorem RtTable.write_state :
    (rt.write now next hops seqno life state flags chan).state = state := rfl

end Write

theorem beforeUpdate_ages (hl : c.LinkBreaks {}) (a : InAddr) (hops : BitVec 8)
    (state : RtState) (n : Node) : n.Ages (beforeUpdate c a hops state n) := by
  have hactive : n.Ages (if (n.rt a).state = .invalid ∧ state = .valid then
      { n with numActive := n.numActive + 1 } else n) := by
    split <;> exact .of_tbl rfl
  unfold beforeUpdate
  dsimp only
  split
  · refine Node.Ages.trans ?_ (breakOneHop_effects hl a _).ages
    exact hactive.trans (.of_tbl rfl)
  · exact hactive

theorem rtTableUpdateGen_installs (hl : c.LinkBreaks {}) {n : Node} {a : InAddr} {rt : RtTable}
    (hrt : n.lookup a = some rt) (chan : Option (Int × ℚ)) (next : InAddr) (hops : BitVec 8)
    (seqno life : BitVec 32) (state : RtState) (flags : BitVec 16) :
    ∃ rt₁, rt.Ages rt₁ ∧
      n.Installs a
        (rt₁.write c.now next hops seqno life state (updateFlags rt state flags) chan)
        (rtTableUpdateGen c chan a next hops seqno life state flags n) := by
  obtain ⟨rt₁, hrt₁, hage⟩ := (beforeUpdate_ages hl a hops state n).lookup_eq_some hrt
  refine ⟨rt₁, hage, ?_⟩
  have hwrite : (beforeUpdate c a hops state n).Installs a
      (rt₁.write c.now next hops seqno life state (updateFlags (n.rt a) state flags) chan)
      ((beforeUpdate c a hops state n).modRt a
        (·.write c.now next hops seqno life state (updateFlags (n.rt a) state flags) chan)) := by
    have hlook := fun b => lookup_modRt (n := beforeUpdate c a hops state n) a b
      fun rt => RtTable.write_destAddr c.now next hops seqno life state
        (updateFlags (n.rt a) state flags) chan rt
    refine ⟨fun b hb => ?_, _, ?_, .refl _⟩
    · rw [hlook, if_neg (Ne.symm hb)]
      exact Node.Ages.of_tbl rfl b
    · rw [hlook, if_pos rfl, hrt₁]
      rfl
  rw [rt_of_lookup hrt] at hwrite
  unfold rtTableUpdateGen
  dsimp only
  rw [rt_of_lookup hrt]
  exact ((beforeUpdate_ages hl a hops state n).installs hwrite).ages
    (flushSeek_effects a _ : Effects c {} _ _).ages

/-! ## Routes from messages -/

/-- A message replaces an entry with a newer number, or with the same number and a smaller
cost. -/
def RtTable.Outdated (rt : RtTable) (seqno : BitVec 32) (cost : ℚ) : Prop :=
  rt.destSeqno = 0 ∨ fresher seqno rt.destSeqno ∨
    (seqno = rt.destSeqno ∧ (rt.state = .invalid ∨ hasFlag rt.flags rtUnidir ∨ cost < rt.cost))

structure RtTable.RouteOver (w : RtTable) (next : InAddr) (seqno : BitVec 32) (channel : Int)
    (cost : ℚ) : Prop where
  nextHop : w.nextHop = next
  destSeqno : w.destSeqno = seqno
  channel : w.channel = channel
  cost : w.cost = cost
  state : w.state = .valid

theorem rreqReverse_installs (hl : c.LinkBreaks {}) {n n' : Node} (hwf : RtWf n) {rreq : RREQ}
    (hown : rreq.origAddr ≠ n.ipaddr) {ipSrc : InAddr} {cost : ℚ}
    (h : rreqReverse c rreq ipSrc cost n = some n') :
    (∀ rt, n.lookup rreq.origAddr = some rt → rt.Outdated rreq.origSeqno cost) ∧
    ∃ w, w.RouteOver ipSrc rreq.origSeqno rreq.channel.toNat cost ∧ w.hcnt = rreq.hcnt + 1 ∧
      n.Installs rreq.origAddr w n' := by
  unfold rreqReverse at h
  rw [hwf.rtTableFind_eq_lookup] at h
  dsimp only at h
  split at h
  · next hnone =>
    cases h
    refine ⟨fun rt hrt => (Option.some_ne_none rt (hrt.symm.trans hnone)).elim, _,
      ⟨rfl, rfl, rfl, rfl, rfl⟩, rfl,
      rtTableInsertWithChannel_installs hnone hown _ _ _ _ _ _ _ _⟩
  · next revRt hrt =>
    split at h
    · next hguard =>
      cases h
      obtain ⟨rt₁, _, hinst⟩ := rtTableUpdateGen_installs hl hrt (some (rreq.channel.toNat, cost))
        ipSrc (rreq.hcnt + 1) rreq.origSeqno (reverseLife rreq) .valid revRt.flags
      refine ⟨fun rt hrt' => ?_, _, ⟨?_, ?_, ?_, ?_, ?_⟩, ?_, hinst⟩
      · cases hrt.symm.trans hrt'
        rcases hguard with h0 | hf | ⟨he, hi | hc⟩
        · exact .inl h0
        · exact .inr (.inl hf)
        · exact .inr (.inr ⟨he, .inl hi⟩)
        · exact .inr (.inr ⟨he, .inr (.inr hc)⟩)
      all_goals simp
    · cases h

theorem rrepRoute_installs (hl : c.LinkBreaks {}) {n n' : Node} (hwf : RtWf n) {rrep : RREP}
    (hown : rrep.destAddr ≠ n.ipaddr) {ipSrc : InAddr} {cost : ℚ}
    (h : rrepRoute c rrep ipSrc cost n = some n') :
    (∀ rt, n.lookup rrep.destAddr = some rt → rt.Outdated rrep.destSeqno cost) ∧
    ∃ w, w.RouteOver ipSrc rrep.destSeqno rrep.channel.toNat cost ∧ w.hcnt = rrep.hcnt + 1 ∧
      n.Installs rrep.destAddr w n' := by
  unfold rrepRoute at h
  rw [hwf.rtTableFind_eq_lookup] at h
  split at h
  · next hnone =>
    cases h
    refine ⟨fun rt hrt => (Option.some_ne_none rt (hrt.symm.trans hnone)).elim, _,
      ⟨rfl, rfl, rfl, rfl, rfl⟩, rfl,
      rtTableInsertWithChannel_installs hnone hown _ _ _ _ _ _ _ _⟩
  · next fwdRt hrt =>
    split at h
    · next hguard =>
      cases h
      obtain ⟨rt₁, _, hinst⟩ := rtTableUpdateGen_installs hl hrt (some (rrep.channel.toNat, cost))
        ipSrc (rrep.hcnt + 1) rrep.destSeqno rrep.lifetime .valid fwdRt.flags
      refine ⟨fun rt hrt' => ?_, _, ⟨?_, ?_, ?_, ?_, ?_⟩, ?_, hinst⟩
      · cases hrt.symm.trans hrt'
        exact hguard
      all_goals simp
    · cases h

end AodvUU

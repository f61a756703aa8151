import AodvUU.RouteTimers

/-! # Closed next hops

A route over a neighbour relies on the neighbour's own one-hop entry, where a link break finds
it. `rreq_process` deletes that entry when it has no channel, whoever relies on it. -/
namespace AodvUU

variable {c : Ctx}

/-! ## Neighbours in the table -/

/-- A valid one-hop entry leads to the neighbour. -/
def Node.Up (a : InAddr) (n : Node) : Prop :=
  ∃ rt, n.lookup a = some rt ∧ rt.state = .valid ∧ rt.hcnt = 1 ∧ rt.nextHop = a

/-- Every valid route goes over such a neighbour. -/
def Node.Closed (n : Node) : Prop :=
  ∀ a rt, n.lookup a = some rt → rt.state = .valid → n.Up rt.nextHop

/-- No valid route to another destination goes over `a`. -/
def Node.Unused (a : InAddr) (n : Node) : Prop :=
  ∀ b rt, n.lookup b = some rt → b ≠ a → rt.state = .valid → rt.nextHop ≠ a

theorem Node.Closed.unused {n : Node} {a : InAddr} (h : n.Closed) (hdown : ¬ n.Up a) :
    n.Unused a := by
  intro b rt hrt _ hv hnext
  exact hdown (hnext ▸ h b rt hrt hv)

theorem Node.Up.of_lookup {n n' : Node} {a : InAddr} (h : n.Up a)
    (heq : n'.lookup a = n.lookup a) : n'.Up a := by
  unfold Node.Up
  rw [heq]
  exact h

/-! ## Changes that keep state and next hop -/

structure RtTable.SameWay (rt rt' : RtTable) : Prop where
  nextHop : rt'.nextHop = rt.nextHop
  hcnt : rt'.hcnt = rt.hcnt
  state : rt'.state = rt.state

abbrev Node.SameWays (n n' : Node) : Prop := n.Entrywise RtTable.SameWay n'

theorem RtTable.SameWay.refl (rt : RtTable) : rt.SameWay rt := ⟨rfl, rfl, rfl⟩

theorem RtTable.Quiet.sameWay {rt rt' : RtTable} (h : rt.Quiet rt') : rt.SameWay rt' :=
  ⟨h.nextHop, h.hcnt, h.state⟩

theorem RtTable.Marked.sameWay {hop : InAddr} {rt rt' : RtTable} (h : rt.Marked hop rt') :
    rt.SameWay rt' := ⟨h.nextHop, h.hcnt, h.state⟩

namespace Node.SameWays

variable {n n' : Node}

theorem of_quiet (h : n.Entrywise RtTable.Quiet n') : n.SameWays n' :=
  h.mono fun _ _ => RtTable.Quiet.sameWay

theorem of_marks {hop : InAddr} (h : n.Marks hop n') : n.SameWays n' :=
  Node.Entrywise.mono (fun _ _ => RtTable.Marked.sameWay) h

theorem of_routes (h : n'.routes = n.routes) : n.SameWays n' :=
  .of_lookup .refl fun _ => lookup_of_routes h

theorem up (h : n.SameWays n') {a : InAddr} (hup : n.Up a) : n'.Up a := by
  obtain ⟨rt, hrt, hs, hh, hnext⟩ := hup
  obtain ⟨rt', hrt', hway⟩ := Node.Entrywise.lookup_eq_some h hrt
  exact ⟨rt', hrt', hway.state.trans hs, hway.hcnt.trans hh, hway.nextHop.trans hnext⟩

theorem closed (h : n.SameWays n') (hn : n.Closed) : n'.Closed := by
  intro a rt' hrt' hv
  obtain ⟨rt, hrt, hway⟩ := Node.Entrywise.exists_before h hrt'
  rw [hway.nextHop]
  exact h.up (hn a rt hrt (hway.state ▸ hv))

theorem unused (h : n.SameWays n') {a : InAddr} (hn : n.Unused a) : n'.Unused a := by
  intro b rt' hrt' hb hv
  obtain ⟨rt, hrt, hway⟩ := Node.Entrywise.exists_before h hrt'
  rw [hway.nextHop]
  exact hn b rt hrt hb (hway.state ▸ hv)

end Node.SameWays

/-! ## One entry goes -/

theorem Node.Closed.without {n n' : Node} {d : InAddr} (h : n.Closed) (hd : n.Unused d)
    (hsame : ∀ b, b ≠ d → n'.lookup b = n.lookup b)
    (hgone : ∀ rt, n'.lookup d = some rt → rt.state = .invalid) : n'.Closed := by
  intro b rt hrt hv
  by_cases hb : b = d
  · subst hb
    rw [hgone rt hrt] at hv
    cases hv
  · rw [hsame b hb] at hrt
    exact (h b rt hrt hv).of_lookup (hsame _ (hd b rt hrt hb hv))

theorem Node.Closed.invalidate {n : Node} {d : InAddr} (h : n.Closed) (hd : n.Unused d) :
    (rtTableInvalidate c d n).Closed := by
  refine h.without hd (fun b hb => ?_) (fun rt hrt => state_after_invalidate hrt)
  rw [lookup_rtTableInvalidate, if_neg (Ne.symm hb)]

theorem Node.Closed.delete {n : Node} {d : InAddr} (h : n.Closed) (hd : n.Unused d) :
    (rtTableDelete d n).Closed := by
  refine h.without hd (fun b hb => ?_) (fun rt hrt => ?_)
  · rw [lookup_rtTableDelete, if_neg (Ne.symm hb)]
  · rw [lookup_rtTableDelete, if_pos rfl] at hrt
    cases hrt

/-! ## Link breaks -/

structure Node.CutsLink (a : InAddr) (n n' : Node) : Prop extends n.LosesLink a n' where
  spared : ∀ b rt rt', n.lookup b = some rt → n'.lookup b = some rt' → b ≠ a → rt.nextHop ≠ a →
    rt'.state = rt.state

namespace Node.CutsLink

variable {n n' : Node} {a : InAddr}

theorem up (h : n.CutsLink a n') {b : InAddr} (hb : b ≠ a) (hup : n.Up b) : n'.Up b := by
  obtain ⟨rt, hrt, hs, hh, hnext⟩ := hup
  obtain ⟨rt', hrt', hlapse⟩ := Node.Entrywise.lookup_eq_some h.lapses hrt
  refine ⟨rt', hrt', ?_, hlapse.hcnt.trans hh, hlapse.nextHop.trans hnext⟩
  rw [h.spared b rt rt' hrt hrt' hb (hnext ▸ hb), hs]

theorem closed (h : n.CutsLink a n') (hn : n.Closed) : n'.Closed := by
  intro b rt' hrt' hv
  obtain ⟨rt, hrt, hlapse⟩ := Node.Entrywise.exists_before h.lapses hrt'
  have hnext : rt'.nextHop ≠ a := fun hnext => by
    rw [h.lost b rt' hrt' (.inr hnext)] at hv
    cases hv
  refine h.up hnext ?_
  rw [hlapse.nextHop]
  exact hn b rt hrt (hlapse.valid hv)

theorem unused (h : n.CutsLink a n') : n'.Unused a := by
  intro b rt' hrt' _ hv hnext
  rw [h.lost b rt' hrt' (.inr hnext)] at hv
  cases hv

end Node.CutsLink

theorem Node.Lapses.unused {n n' : Node} {a : InAddr} (h : n.Lapses n') (hn : n.Unused a) :
    n'.Unused a := by
  intro b rt' hrt' hb hv
  obtain ⟨rt, hrt, hlapse⟩ := Node.Entrywise.exists_before h hrt'
  rw [hlapse.nextHop]
  exact hn b rt hrt hb (hlapse.valid hv)

/-! ## Routes -/

/-- A route that keeps the next hops closed: the neighbour's own, or one over a neighbour to a
destination that no other route goes over. -/
structure Route.Fits (r : Route) (n : Node) : Prop where
  own : r.dest = r.next → r.hops = 1
  other : r.dest ≠ r.next → n.Up r.next ∧ n.Unused r.dest

theorem Node.Closed.store {n : Node} (h : n.Closed) {rt : RtTable}
    (hnone : n.lookup rt.destAddr = none)
    (hrt : rt.state = .valid → (storeEntry rt n).Up rt.nextHop) : (storeEntry rt n).Closed := by
  intro b rt' hrt' hv
  rw [lookup_storeEntry] at hrt'
  split at hrt'
  · cases hrt'
    exact hrt hv
  · obtain ⟨nb, hnb, hway⟩ := h b rt' hrt' hv
    refine ⟨nb, ?_, hway⟩
    rw [lookup_storeEntry, if_neg, hnb]
    intro heq
    rw [heq, hnb] at hnone
    cases hnone

theorem Node.Closed.storeInvalid {n : Node} (h : n.Closed) {rt : RtTable}
    (hnone : n.lookup rt.destAddr = none) (hs : rt.state = .invalid) : (storeEntry rt n).Closed :=
  h.store hnone fun hv => by
    rw [hs] at hv
    cases hv

theorem Route.Fits.up_store {r : Route} {n : Node} (hr : r.Fits n) (flags : BitVec 16) :
    (storeEntry (r.entry c flags) n).Up r.next := by
  by_cases hd : r.dest = r.next
  · refine ⟨r.entry c flags, ?_, rfl, hr.own hd, rfl⟩
    rw [lookup_storeEntry, if_pos]
    exact hd
  · refine (hr.other hd).1.of_lookup ?_
    rw [lookup_storeEntry, if_neg]
    exact hd

theorem Route.Fits.up_write {r : Route} {n : Node} (hr : r.Fits n) (flags : BitVec 16)
    (hfound : n.lookup r.dest ≠ none) : (n.modRt r.dest (r.write c flags)).Up r.next := by
  by_cases hd : r.dest = r.next
  · obtain ⟨rt, hrt⟩ := Option.ne_none_iff_exists'.mp hfound
    refine ⟨r.write c flags rt, ?_, RtTable.write_state _ _ _ _ _ _ _ _ rt,
      (RtTable.write_hcnt _ _ _ _ _ _ _ _ rt).trans (hr.own hd),
      RtTable.write_nextHop _ _ _ _ _ _ _ _ rt⟩
    rw [lookup_routeWrite, if_pos hd, ← hd, hrt]
    rfl
  · refine (hr.other hd).1.of_lookup ?_
    rw [lookup_routeWrite, if_neg hd]

theorem Node.Closed.write {n : Node} (h : n.Closed) {r : Route} (hr : r.Fits n)
    (flags : BitVec 16) : (n.modRt r.dest (r.write c flags)).Closed := by
  have hdest : n.lookup r.dest ≠ none → (n.modRt r.dest (r.write c flags)).Up r.next :=
    hr.up_write flags
  intro b rt' hrt' hv
  rw [lookup_routeWrite] at hrt'
  split at hrt'
  · next hb =>
    obtain ⟨rt, hrt, rfl⟩ := Option.map_eq_some_iff.mp hrt'
    rw [show (r.write c flags rt).nextHop = r.next from RtTable.write_nextHop _ _ _ _ _ _ _ _ rt]
    refine hdest ?_
    rw [hb, hrt]
    exact Option.some_ne_none rt
  · next hb =>
    have hup := h b rt' hrt' hv
    by_cases hnext : r.dest = rt'.nextHop
    · -- only the neighbour's own route is written while others go over it
      have hown : r.dest = r.next := by
        by_contra hother
        exact (hr.other hother).2 b rt' hrt' (Ne.symm hb) hv hnext.symm
      rw [hnext.symm.trans hown]
      refine hdest ?_
      obtain ⟨nb, hnb, -⟩ := hup
      rw [hnext, hnb]
      exact Option.some_ne_none nb
    · refine hup.of_lookup ?_
      rw [lookup_routeWrite, if_neg hnext]

/-- A route over `src` is welcome if it is the one-hop route to `src`, or if no other route goes
over its destination unless the update breaks that link. -/
structure Node.Welcomes (n : Node) (src a : InAddr) (hops : BitVec 8) : Prop where
  own : a = src → hops = 1
  other : a ≠ src → hops.toNat ≤ 1 → n.Unused a

theorem Calm.beforeUpdate {I J : Node → Prop} (h : Calm I) {a : InAddr} {hops : BitVec 8} {n : Node}
    (hstay : ¬ (1 < hops.toNat ∧ (n.rt a).hcnt = 1) → ∀ n', I n' → J n')
    (hbreak : 1 < hops.toNat → ∀ n', I n' → J (c.ext.neighborLinkBreak c.env a n')) (hn : I n) :
    J (beforeUpdate c a hops .valid n) := by
  have hactive := h.countActive a hn
  unfold AodvUU.beforeUpdate breakOneHop
  dsimp only
  generalize (if (n.rt a).state = .invalid ∧ RtState.valid = .valid then
    { n with numActive := n.numActive + 1 } else n) = n₁ at hactive ⊢
  split
  · next hlong =>
    refine hbreak hlong.1 _ (h.quiet _ _ _ (fun _ => ?_) (h.routes n₁ _ rfl hactive))
    exact ⟨rfl, rfl, rfl, rfl, rfl, rfl, rfl, rfl, id, id⟩
  · next hshort => exact hstay hshort n₁ hactive

theorem closed_takes {I : Node → Prop} (h : Calm I) (hclosed : ∀ n, I n → n.Closed)
    (hcut : ∀ a n, RtWf n → n.CutsLink a (c.ext.neighborLinkBreak c.env a n)) {r : Route} {n : Node}
    (hup : r.dest ≠ r.next → n.Up r.next) (hwel : n.Welcomes r.next r.dest r.hops)
    (hins : ∀ flags, n.lookup r.dest = none → r.Fits n → I (storeEntry (r.entry c flags) n))
    (hbreak : r.dest ≠ r.next → ∀ n', I n' → I (c.ext.neighborLinkBreak c.env r.dest n'))
    (hwrite : ∀ flags n', I n' → n'.lookup r.dest ≠ none → r.Fits n' →
      I (n'.modRt r.dest (r.write c flags)))
    (hn : I n) : c.Takes I r n := by
  refine ⟨fun flags hnone _ => hins flags hnone ⟨hwel.own, fun hd => ⟨hup hd, ?_⟩⟩,
    fun flags hfound => h.flushSeek r.dest ?_⟩
  · refine (hclosed n hn).unused fun ⟨rt, hrt, _⟩ => ?_
    rw [hnone] at hrt
    cases hrt
  · have hbefore : I (AodvUU.beforeUpdate c r.dest r.hops .valid n) ∧
        (AodvUU.beforeUpdate c r.dest r.hops .valid n).lookup r.dest ≠ none ∧
        r.Fits (AodvUU.beforeUpdate c r.dest r.hops .valid n) := by
      refine (h.quietly n).beforeUpdate (J := fun n' => I n' ∧ n'.lookup r.dest ≠ none ∧ r.Fits n')
        (fun hshort n' hn' => ?_) (fun hlong n' hn' => ?_) ⟨hn, .of_lookup .refl fun _ => rfl⟩
      · have hways := Node.SameWays.of_quiet hn'.2
        refine ⟨hn'.1, hn'.2.lookup_ne_none hfound, hwel.own,
          fun hd => ⟨hways.up (hup hd), hways.unused ?_⟩⟩
        by_cases hhops : r.hops.toNat ≤ 1
        · exact hwel.other hd hhops
        · refine (hclosed n hn).unused fun ⟨rt, hrt, _, hone, _⟩ => hshort ⟨by omega, ?_⟩
          rw [rt_of_lookup hrt]
          exact hone
      · have hd : r.dest ≠ r.next := fun hd => by
          rw [hwel.own hd] at hlong
          exact absurd hlong (by decide)
        have hways := Node.SameWays.of_quiet hn'.2
        have hcuts := hcut r.dest n' (h.wf n' hn'.1)
        exact ⟨hbreak hd n' hn'.1, hcuts.lapses.lookup_ne_none (hn'.2.lookup_ne_none hfound),
          fun hown => absurd hown hd,
          fun _ => ⟨hcuts.up (Ne.symm hd) (hways.up (hup hd)), hcuts.unused⟩⟩
    exact hwrite _ _ hbefore.1 hbefore.2.1 hbefore.2.2

/-! ## The neighbour functions -/

/-- A neighbour that sends a message has its one-hop entry afterwards, and a link break leaves the
routes over other neighbours alone. -/
structure Extern.Refreshing (cf : Conf) (ext : Extern) : Prop extends ext.Documented cf where
  refreshed : ∀ env m src n, RtWf n → (ext.neighborAdd env m src n).Up src
  cutsLink : ∀ env a n, RtWf n → n.CutsLink a (ext.neighborLinkBreak env a n)

/-- Beside the entry of `src`, entries lapse at most; that one keeps its channel. -/
structure Node.Beside (src : InAddr) (n n' : Node) : Prop where
  others : ∀ a, a ≠ src → Option.Rel RtTable.Lapses (n.lookup a) (n'.lookup a)
  channel : ∀ rt, n.lookup src = some rt →
    ∃ rt', n'.lookup src = some rt' ∧ rt'.channel = rt.channel

namespace Node.Beside

variable {src : InAddr} {n n' n'' : Node}

theorem self (src : InAddr) (n : Node) : n.Beside src n :=
  ⟨fun a _ => Node.Lapses.of_tbl rfl a, fun rt hrt => ⟨rt, hrt, rfl⟩⟩

theorem lapses (h : n.Beside src n') (hl : n'.Lapses n'') : n.Beside src n'' := by
  refine ⟨fun a ha => optionRel_trans (R := RtTable.Lapses) (fun _ _ _ => RtTable.Lapses.trans)
    (h.others a ha) (hl a), fun rt hrt => ?_⟩
  obtain ⟨rt', hrt', hch⟩ := h.channel rt hrt
  obtain ⟨rt'', hrt'', hlapse⟩ := Node.Entrywise.lookup_eq_some hl hrt'
  exact ⟨rt'', hrt'', hlapse.channel.trans hch⟩

theorem before (h : n.Beside src n') {a : InAddr} (ha : a ≠ src) {rt' : RtTable}
    (hrt' : n'.lookup a = some rt') : ∃ rt, n.lookup a = some rt ∧ rt.Lapses rt' := by
  have hrel := h.others a ha
  rw [hrt'] at hrel
  exact optionRel_some hrel

theorem unused (h : n.Beside src n') (hup : n'.Up src) {a : InAddr} (ha : a ≠ src)
    (hn : n.Unused a) : n'.Unused a := by
  intro b rt' hrt' hb hv
  by_cases hsrc : b = src
  · obtain ⟨rt, hrt, -, -, hnext⟩ := hup
    rw [hsrc, hrt] at hrt'
    cases hrt'
    rw [hnext]
    exact Ne.symm ha
  · obtain ⟨rt, hrt, hlapse⟩ := h.before hsrc hrt'
    rw [hlapse.nextHop]
    exact hn b rt hrt hb (hlapse.valid hv)

theorem unused_src (h : n.Beside src n') (hn : n.Unused src) : n'.Unused src := by
  intro b rt' hrt' hb hv
  obtain ⟨rt, hrt, hlapse⟩ := h.before hb hrt'
  rw [hlapse.nextHop]
  exact hn b rt hrt hb (hlapse.valid hv)

theorem welcomes (h : n.Beside src n') (hup : n'.Up src) {a : InAddr} {hops : BitVec 8}
    (hn : n.Welcomes src a hops) : n'.Welcomes src a hops :=
  ⟨hn.own, fun ha hhops => h.unused hup ha (hn.other ha hhops)⟩

end Node.Beside

theorem Extern.Refreshing.beside {cf : Conf} {ext : Extern} (hext : ext.Refreshing cf) (env : Env)
    (src : InAddr) {n : Node} (hn : RtWf n ∧ n.Closed) (m : AodvMsg) :
    RtWf (ext.neighborAdd env m src n) ∧ (ext.neighborAdd env m src n).Closed ∧
      n.Beside src (ext.neighborAdd env m src n) := by
  have h : Ctx.Keeps ⟨cf, ext, env⟩ fun n' => RtWf n' ∧ n'.Closed ∧ n.Beside src n' := by
    refine .of_wf (hext.linkBreaks env) (fun n₁ n₂ hr hn₁ => ?_) (fun a f n₁ hf hn₁ => ?_)
      (fun _ _ _ hn₁ => ⟨hn₁.1, hn₁.2.lapses (.of_tbl rfl)⟩) (fun a n₁ hwf hn₁ => ?_)
    · exact ⟨(Node.SameWays.of_routes hr).closed hn₁.1,
        hn₁.2.lapses (.of_lookup .refl fun _ => lookup_of_routes hr)⟩
    · have hways : n₁.SameWays (n₁.modRt a f) := .of_quiet
        (.modRt .refl a (fun rt => (hf rt).destAddr) hf n₁)
      exact ⟨hways.closed hn₁.1, hn₁.2.lapses (.quiet a hf n₁)⟩
    · have hcut := hext.cutsLink env a n₁ hwf
      exact ⟨hcut.closed hn₁.1, hn₁.2.lapses hcut.lapses⟩
  refine hext.neighborAdd h.toCalm (fun ext seqno life flags n₁ _ hn₁ hnone => ?_)
    (fun ext seqno life flags n₁ hn₁ => ?_) ⟨hn.1, hn.2, .self src n⟩ m
  · have hfits : Route.Fits ⟨src, src, 1, seqno, life, none⟩ n₁ :=
      ⟨fun _ => rfl, fun hne => absurd rfl hne⟩
    refine ⟨hn₁.1.store _ flags hnone, hn₁.2.1.store hnone fun _ => hfits.up_store flags,
      fun a ha => ?_, fun rt hrt => ?_⟩
    · rw [lookup_storeEntry]
      split
      · next heq => exact absurd (show src = a from heq).symm ha
      · exact hn₁.2.2.others a ha
    · obtain ⟨rt', hrt', -⟩ := hn₁.2.2.channel rt hrt
      rw [hrt'] at hnone
      cases hnone
  · have hfits : Route.Fits ⟨src, src, 1, seqno, life, none⟩ n₁ :=
      ⟨fun _ => rfl, fun hne => absurd rfl hne⟩
    have hlook := fun b => lookup_routeWrite (c := ⟨cf, ext, env⟩)
      ⟨src, src, 1, seqno, life, none⟩ flags n₁ b
    refine ⟨hn₁.1.write ⟨src, src, 1, seqno, life, none⟩ flags, hn₁.2.1.write hfits flags,
      fun a ha => ?_, fun rt hrt => ?_⟩
    · rw [hlook, if_neg (show (src : InAddr) ≠ a from Ne.symm ha)]
      exact hn₁.2.2.others a ha
    · obtain ⟨rt', hrt', hch⟩ := hn₁.2.2.channel rt hrt
      refine ⟨_, (hlook src).trans (by rw [if_pos rfl, hrt']; rfl), ?_⟩
      exact (RtTable.write_channel _ _ _ _ _ _ _ _ rt').trans hch

/-! ## Handlers -/

section Handlers

theorem closed_keeps (hl : c.LinkBreaks {})
    (hcut : ∀ a n, RtWf n → n.CutsLink a (c.ext.neighborLinkBreak c.env a n)) :
    c.Keeps fun n => RtWf n ∧ n.Closed :=
  .of_wf hl (fun _ _ hr hn => (Node.SameWays.of_routes hr).closed hn)
    (fun a _ n hf hn =>
      (Node.SameWays.of_quiet (.modRt .refl a (fun rt => (hf rt).destAddr) hf n)).closed hn)
    (fun _ _ _ hn => hn)
    fun a n hwf hn => (hcut a n hwf).closed hn

theorem closed_searches : Searches fun n => RtWf n ∧ n.Closed :=
  fun _ _ _ hn => ⟨hn.1.of_table rfl rfl, hn.2⟩

theorem closed_takes_route (hl : c.LinkBreaks {})
    (hcut : ∀ a n, RtWf n → n.CutsLink a (c.ext.neighborLinkBreak c.env a n)) {r : Route} {n : Node}
    (hup : r.dest ≠ r.next → n.Up r.next) (hwel : n.Welcomes r.next r.dest r.hops)
    (hn : RtWf n ∧ n.Closed) : c.Takes (fun n => RtWf n ∧ n.Closed) r n := by
  have h := closed_keeps hl hcut
  refine closed_takes h.toCalm (fun _ hn => hn.2) hcut hup hwel (fun flags hnone hfits => ?_)
    (fun _ n' hn' => h.linkBreak r.dest n' hn') (fun flags n' hn' _ hfits => ?_) hn
  · exact ⟨hn.1.store r flags hnone, hn.2.store hnone fun _ => hfits.up_store flags⟩
  · exact ⟨hn'.1.write r flags, hn'.2.write hfits flags⟩

/-! ### Requests -/

/-- The entry for `dest` has a channel, or it is not the sender's and no other route needs it. -/
def Node.Spares (src dest : InAddr) (n : Node) : Prop :=
  (∃ rt, n.lookup dest = some rt ∧ rt.channel ≠ -1) ∨ (dest ≠ src ∧ n.Unused dest)

namespace Node.Spares

variable {src dest : InAddr} {n n' : Node}

theorem lapses (h : n.Spares src dest) (hl : n.Lapses n') : n'.Spares src dest := by
  rcases h with ⟨rt, hrt, hch⟩ | ⟨hne, hunused⟩
  · obtain ⟨rt', hrt', hlapse⟩ := Node.Entrywise.lookup_eq_some hl hrt
    exact .inl ⟨rt', hrt', hlapse.channel ▸ hch⟩
  · exact .inr ⟨hne, hl.unused hunused⟩

theorem beside (h : n.Spares src dest) (hb : n.Beside src n') (hup : n'.Up src) :
    n'.Spares src dest := by
  rcases h with ⟨rt, hrt, hch⟩ | ⟨hne, hunused⟩
  · by_cases hd : dest = src
    · subst hd
      obtain ⟨rt', hrt', hsame⟩ := hb.channel rt hrt
      exact .inl ⟨rt', hrt', hsame ▸ hch⟩
    · have hrel := hb.others dest hd
      rw [hrt] at hrel
      cases hlook : n'.lookup dest with
      | none =>
        rw [hlook] at hrel
        cases hrel
      | some rt' =>
        rw [hlook] at hrel
        rcases hrel with hlapse | _
        exact .inl ⟨rt', hlook, hlapse.channel ▸ hch⟩
  · exact .inr ⟨hne, hb.unused hup hne hunused⟩

theorem store (h : n.Spares src dest) {rt : RtTable} (hnone : n.lookup rt.destAddr = none)
    (hnext : rt.nextHop = src) : (storeEntry rt n).Spares src dest := by
  rcases h with ⟨rt₀, hrt₀, hch⟩ | ⟨hne, hunused⟩
  · refine .inl ⟨rt₀, ?_, hch⟩
    rw [lookup_storeEntry, if_neg, hrt₀]
    intro heq
    rw [heq, hrt₀] at hnone
    cases hnone
  · refine .inr ⟨hne, fun b rt' hrt' hb hv => ?_⟩
    rw [lookup_storeEntry] at hrt'
    split at hrt'
    · cases hrt'
      exact hnext ▸ Ne.symm hne
    · exact hunused b rt' hrt' hb hv

theorem write (h : n.Spares src dest) {r : Route} (hnext : r.next = src)
    (hchan : ∀ p, r.chan = some p → p.1 ≠ -1) (flags : BitVec 16) :
    (n.modRt r.dest (r.write c flags)).Spares src dest := by
  rcases h with ⟨rt, hrt, hch⟩ | ⟨hne, hunused⟩
  · by_cases hd : r.dest = dest
    · refine .inl ⟨r.write c flags rt, ?_, ?_⟩
      · rw [lookup_routeWrite, if_pos hd, hrt]
        rfl
      · rw [show (r.write c flags rt).channel = (r.chan.map Prod.fst).getD rt.channel from
          RtTable.write_channel _ _ _ _ _ _ _ _ rt]
        cases hc : r.chan with
        | none => exact hch
        | some p => exact hchan p hc
    · refine .inl ⟨rt, ?_, hch⟩
      rw [lookup_routeWrite, if_neg hd, hrt]
  · refine .inr ⟨hne, fun b rt' hrt' hb hv => ?_⟩
    rw [lookup_routeWrite] at hrt'
    split at hrt'
    · obtain ⟨rt, -, rfl⟩ := Option.map_eq_some_iff.mp hrt'
      rw [show (r.write c flags rt).nextHop = r.next from
        RtTable.write_nextHop _ _ _ _ _ _ _ _ rt, hnext]
      exact Ne.symm hne
    · exact hunused b rt' hrt' hb hv

theorem delete (h : n.Spares src dest) {rt : RtTable} (hrt : n.lookup dest = some rt)
    (hch : rt.channel = -1) (hclosed : n.Closed) :
    (rtTableDelete dest n).Closed ∧ (rtTableDelete dest n).Spares src dest := by
  rcases h with ⟨rt', hrt', hch'⟩ | ⟨hne, hunused⟩
  · cases hrt.symm.trans hrt'
    exact absurd hch hch'
  · refine ⟨hclosed.delete hunused, .inr ⟨hne, fun b rt' hrt' hb hv => ?_⟩⟩
    rw [lookup_rtTableDelete, if_neg (Ne.symm hb)] at hrt'
    exact hunused b rt' hrt' hb hv

end Node.Spares

theorem spares_keeps (hl : c.LinkBreaks {})
    (hcut : ∀ a n, RtWf n → n.CutsLink a (c.ext.neighborLinkBreak c.env a n)) (src dest : InAddr) :
    c.Keeps fun n => RtWf n ∧ n.Closed ∧ n.Spares src dest := by
  have h := closed_keeps hl hcut
  refine .of_wf hl (fun n n' hr hn => ?_) (fun a f n hf hn => ?_) (fun _ _ _ hn => ?_)
    (fun a n hwf hn => ?_)
  · exact ⟨(Node.SameWays.of_routes hr).closed hn.1,
      hn.2.lapses (.of_lookup .refl fun _ => lookup_of_routes hr)⟩
  · have hways : n.SameWays (n.modRt a f) := .of_quiet
      (.modRt .refl a (fun rt => (hf rt).destAddr) hf n)
    exact ⟨hways.closed hn.1, hn.2.lapses (.quiet a hf n)⟩
  · exact ⟨hn.1, hn.2.lapses (.of_tbl rfl)⟩
  · have hcut := hcut a n hwf
    exact ⟨hcut.closed hn.1, hn.2.lapses hcut.lapses⟩

theorem rreqProcess_own {rreq : RREQ} {len : ℕ} {src : InAddr} {ttl : Int} {n : Node}
    (h : rreq.origAddr = n.ipaddr) : rreqProcess c rreq len src ttl n = n := by
  unfold rreqProcess rreqProcessLr
  split_ifs <;> rfl

theorem rreqProcess_closed (hl : c.LinkBreaks {})
    (hcut : ∀ a n, RtWf n → n.CutsLink a (c.ext.neighborLinkBreak c.env a n)) {rreq : RREQ}
    {src : InAddr} (len : ℕ) (ttl : Int) {n : Node} (hup : n.Up src)
    (hwel : rreq.origAddr ≠ n.ipaddr → n.Welcomes src rreq.origAddr (rreq.hcnt + 1))
    (hspare : rreq.origAddr ≠ n.ipaddr → rreq.type ≠ aodvRreqLr → n.Spares src rreq.destAddr)
    (hn : RtWf n ∧ n.Closed) :
    RtWf (rreqProcess c rreq len src ttl n) ∧ (rreqProcess c rreq len src ttl n).Closed := by
  have h := closed_keeps hl hcut
  by_cases hown : rreq.origAddr = n.ipaddr
  · rw [rreqProcess_own hown]
    exact hn
  have hwel' : ∀ n' : Node, n'.routes = n.routes → n'.Up src ∧
      n'.Welcomes src rreq.origAddr (rreq.hcnt + 1) := by
    intro n' hr
    have hways := Node.SameWays.of_routes hr
    exact ⟨hways.up hup, (hwel hown).own, fun ha hhops => hways.unused ((hwel hown).other ha hhops)⟩
  by_cases htype : rreq.type = aodvRreqLr
  · refine h.rreqProcess rreq len src ttl (fun _ => ?_) (fun hplain => absurd htype hplain)
      (fun hplain => absurd htype hplain) hn
    refine h.rreqProcessLr rreq len src ttl (fun horig n' hr => ?_) hn
    obtain ⟨hup', hwel''⟩ := hwel' n' hr
    exact closed_takes_route hl hcut (fun _ => hup') hwel'' (h.routes n n' hr hn)
  · have hs := spares_keeps hl hcut src rreq.destAddr
    have hdone : RtWf (rreqProcess c rreq len src ttl n) ∧
        (rreqProcess c rreq len src ttl n).Closed ∧
        (rreqProcess c rreq len src ttl n).Spares src rreq.destAddr := by
      refine hs.rreqProcess rreq len src ttl (fun hlr => absurd hlr htype)
        (fun _ horig n' hr => ?_) (fun _ n' hn' rt hrt hch => ?_) ⟨hn.1, hn.2, hspare hown htype⟩
      · obtain ⟨hup', hwel''⟩ := hwel' n' hr
        have hn' := hs.routes n n' hr ⟨hn.1, hn.2, hspare hown htype⟩
        have hchan : ∀ p, (rreq.route src (some ((rreq.channel.toNat : Int),
            receivedCost c n src rreq.channel rreq.exts))).chan = some p → p.1 ≠ -1 := by
          rintro p hp
          cases hp
          omega
        refine closed_takes hs.toCalm (fun _ hn => hn.2.1) hcut (fun _ => hup') hwel''
          (fun flags hnone hfits => ?_) (fun _ n'' hn'' => hs.linkBreak _ n'' hn'')
          (fun flags n'' hn'' _ hfits => ?_) hn'
        · exact ⟨hn'.1.store _ flags hnone, hn'.2.1.store hnone fun _ => hfits.up_store flags,
            hn'.2.2.store hnone rfl⟩
        · exact ⟨hn''.1.write _ flags, hn''.2.1.write hfits flags, hn''.2.2.write rfl hchan flags⟩
      · have hdel := hn'.2.2.delete hrt hch hn'.2.1
        exact ⟨hn'.1.rtTableDelete _, hdel⟩
    exact ⟨hdone.1, hdone.2.1⟩

/-! ### Replies -/

/-- In the handler of a reply all new routes go over its sender. -/
structure Node.Replied (src : InAddr) (n₀ n : Node) : Prop where
  closed : n.Closed
  up : n.Up src
  rerouted : n₀.Rerouted src n

theorem replied_calm (src : InAddr) (n₀ : Node) : Calm fun n => RtWf n ∧ n₀.Replied src n := by
  refine .of_wf (fun n n' hr hn => ?_) (fun a f n hf hn => ?_)
    (fun _ _ _ hn => ⟨hn.closed, hn.up, hn.rerouted⟩)
  · have hways := Node.SameWays.of_routes hr
    exact ⟨hways.closed hn.closed, hways.up hn.up,
      hn.rerouted.lapses (.of_lookup .refl fun _ => lookup_of_routes hr)⟩
  · have hways : n.SameWays (n.modRt a f) := .of_quiet
      (.modRt .refl a (fun rt => (hf rt).destAddr) hf n)
    exact ⟨hways.closed hn.closed, hways.up hn.up, hn.rerouted.lapses (.quiet a hf n)⟩

theorem Node.Rerouted.welcomes {src : InAddr} {n₀ n : Node} (h : n₀.Rerouted src n) {a : InAddr}
    {hops : BitVec 8} (hwel : n₀.Welcomes src a hops) : n.Welcomes src a hops := by
  refine ⟨hwel.own, fun ha hhops b rt hrt hb hv hnext => ?_⟩
  rcases h b rt hrt with hsrc | ⟨rt₀, hrt₀, hlapse⟩
  · exact ha (hnext.symm.trans hsrc)
  · exact hwel.other ha hhops b rt₀ hrt₀ hb (hlapse.valid hv) (hlapse.nextHop.symm.trans hnext)

theorem replied_takes (hl : c.LinkBreaks {})
    (hcut : ∀ a n, RtWf n → n.CutsLink a (c.ext.neighborLinkBreak c.env a n)) {src : InAddr}
    {n₀ : Node} {r : Route} (hnext : r.next = src) (hwel : n₀.Welcomes src r.dest r.hops) {n : Node}
    (hn : RtWf n ∧ n₀.Replied src n) : c.Takes (fun n => RtWf n ∧ n₀.Replied src n) r n := by
  subst hnext
  refine closed_takes (replied_calm r.next n₀) (fun _ hn => hn.2.closed) hcut
    (fun _ => hn.2.up) (hn.2.rerouted.welcomes hwel) (fun flags hnone hfits => ?_)
    (fun hd n' hn' => ?_) (fun flags n' hn' hfound hfits => ?_) hn
  · exact ⟨hn.1.store r flags hnone, hn.2.closed.store hnone fun _ => hfits.up_store flags,
      hfits.up_store flags, hn.2.rerouted.store rfl⟩
  · have hcuts := hcut r.dest n' hn'.1
    exact ⟨(hl r.dest n').rtWf hn'.1, hcuts.closed hn'.2.closed, hcuts.up (Ne.symm hd) hn'.2.up,
      hn'.2.rerouted.lapses hcuts.lapses⟩
  · exact ⟨hn'.1.write r flags, hn'.2.closed.write hfits flags, hfits.up_write flags hfound,
      hn'.2.rerouted.write rfl flags⟩

/-- The destinations that a reply to a local repair makes the agent route over its sender, with
their hop counts. -/
def RREP.Reroutes (rrep : RREP) (src : InAddr) (n : Node) (a : InAddr) (hops : BitVec 8) : Prop :=
  (a = rrep.destAddr ∧ hops = rrep.hcnt + 1) ∨
  (rrep.lr ∧ rrep.origAddr = n.ipaddr ∧ a ≠ rrep.destAddr ∧ a ≠ src ∧
    ∃ rt, n.lookup a = some rt ∧ rt.nextHop = rrep.destAddr ∧ hops = rrep.hcnt + rt.hcnt) ∨
  (rrep.lr ∧ rrep.origAddr ≠ n.ipaddr ∧
    (∃ ud, Ext.rrepUdest ud ∈ rrep.exts ∧ a = ud.destAddr) ∧ hops = rrep.hcnt + 1)

theorem rrepProcess_closed (hl : c.LinkBreaks {})
    (hcut : ∀ a n, RtWf n → n.CutsLink a (c.ext.neighborLinkBreak c.env a n)) {rrep : RREP}
    {src : InAddr} (len : ℕ) (ttl : Int) {n : Node} (hup : n.Up src)
    (hwel : rrep.destAddr ≠ n.ipaddr → ∀ a hops, rrep.Reroutes src n a hops →
      n.Welcomes src a hops)
    (hn : RtWf n ∧ n.Closed) :
    RtWf (rrepProcess c rrep len src ttl n) ∧ (rrepProcess c rrep len src ttl n).Closed := by
  by_cases hlr : rrep.lr
  · have h := replied_calm src n
    have hself : RtWf n ∧ n.Replied src n := ⟨hn.1, hn.2, hup, .self n⟩
    have hdone : RtWf (rrepProcess c rrep len src ttl n) ∧
        n.Replied src (rrepProcess c rrep len src ttl n) := by
      refine h.rrepProcess rrep len src ttl (fun _ => ?_) (fun hplain => ?_) hself
      · refine h.rrepProcessLr hl rrep len src ttl
          (fun hdest horig n' hn' a rt₀ rt hrt₀ hage hrt _ hvia => ?_)
          (fun hdest horig n' hn' a ha => ?_) hself
        · have hda := destAddr_of_lookup hrt
          rw [RREP.repairRoute]
          split
          · next hd =>
            exact replied_takes (r := rrep.route rt.destAddr src none) hl hcut rfl
              (hwel hdest _ _ (.inl ⟨hd, rfl⟩)) hn'
          · next hd =>
            have hnext : rt.nextHop = rrep.destAddr := hvia.resolve_left hd
            have hsrc : a ≠ src := by
              rintro rfl
              obtain ⟨nb, hnb, -, -, hown⟩ := hn'.2.up
              cases hrt.symm.trans hnb
              exact hd (hda.trans (hown.symm.trans hnext))
            refine replied_takes
              (r := ⟨rt.destAddr, src, rrep.hcnt + rt.hcnt, rt.destSeqno, rrep.lifetime, none⟩)
              hl hcut rfl (hwel hdest _ _ (.inr (.inl ?_))) hn'
            refine ⟨hlr, horig, hd, by rwa [hda], rt₀, by rwa [hda], ?_, ?_⟩
            · exact hage.nextHop.symm.trans hnext
            · rw [hage.hcnt]
        · refine replied_takes (r := rrep.route a src none) hl hcut rfl (hwel hdest _ _ ?_) hn'
          rcases ha with rfl | hud
          · exact .inl ⟨rfl, rfl⟩
          · exact .inr (.inr ⟨hlr, horig, hud, rfl⟩)
      · rw [hlr] at hplain
        cases hplain
    exact ⟨hdone.1, hdone.2.closed⟩
  · refine (closed_keeps hl hcut).rrepProcess rrep len src ttl (fun h => absurd h hlr)
      (fun _ hdest => ?_) hn
    exact closed_takes_route hl hcut (fun _ => hup) (hwel hdest _ _ (.inl ⟨rfl, rfl⟩)) hn

/-! ### Errors, data packets and timers -/

theorem rerrProcess_closed (hl : c.LinkBreaks {})
    (hcut : ∀ a n, RtWf n → n.CutsLink a (c.ext.neighborLinkBreak c.env a n)) (rerr : RERR)
    {src : InAddr} (len : ℕ) (recs : List RerrRecord) {n : Node}
    (hlisted : rerr.n = false → (∃ ud ∈ rerr.walk, ud.destAddr = src) → n.Unused src)
    (hn : RtWf n ∧ n.Closed) : RtWf (rerrProcess c rerr len src recs n).2 ∧
      (rerrProcess c rerr len src recs n).2.Closed := by
  have h : Ctx.Keeps c fun n' => RtWf n' ∧ n'.Closed ∧ n.Lapses n' := by
    refine .of_wf hl (fun n₁ n₂ hr hn₁ => ?_) (fun a f n₁ hf hn₁ => ?_)
      (fun _ _ _ hn₁ => hn₁) (fun a n₁ hwf hn₁ => ?_)
    · exact ⟨(Node.SameWays.of_routes hr).closed hn₁.1,
        hn₁.2.trans (.of_lookup .refl fun _ => lookup_of_routes hr)⟩
    · have hways : n₁.SameWays (n₁.modRt a f) := .of_quiet
        (.modRt .refl a (fun rt => (hf rt).destAddr) hf n₁)
      exact ⟨hways.closed hn₁.1, hn₁.2.trans (.quiet a hf n₁)⟩
    · have hcut := hcut a n₁ hwf
      exact ⟨hcut.closed hn₁.1, hn₁.2.trans hcut.lapses⟩
  have hdone : RtWf (rerrProcess c rerr len src recs n).2 ∧
      (rerrProcess c rerr len src recs n).2.Closed ∧
      n.Lapses (rerrProcess c rerr len src recs n).2 := by
    refine h.rerrProcess (fun _ _ _ hn => ⟨hn.1.of_table rfl rfl, hn.2⟩) rerr len src recs
      (fun ud hud hnodelete n' hn' rt hrt _ hnext => ?_) ⟨hn.1, hn.2, .of_tbl rfl⟩
    refine ⟨hn'.1.rtTableInvalidate _, hn'.2.1.invalidate ?_, hn'.2.2.trans (.invalidate _ n')⟩
    by_cases hsrc : ud.destAddr = src
    · rw [hsrc]
      exact hn'.2.2.unused (hlisted hnodelete ⟨ud, hud, hsrc⟩)
    · refine hn'.2.1.unused fun ⟨nb, hnb, _, _, hown⟩ => ?_
      cases hrt.symm.trans hnb
      exact hsrc (hown.symm.trans hnext)
  exact ⟨hdone.1, hdone.2.1⟩

theorem rreqLocalRepair_closed {a : InAddr} {n : Node} (hn : RtWf n ∧ n.Closed) :
    RtWf (rreqLocalRepair c a n) ∧ (rreqLocalRepair c a n).Closed :=
  ⟨effects_preserve_rtWf hn.1 (rreqLocalRepair_effects trivial a n),
    (Node.SameWays.of_marks (rreqLocalRepair_marks hn.1)).closed hn.2⟩

theorem localRepairTimeout_closed (a : InAddr) {n : Node} (hn : RtWf n ∧ n.Closed) :
    RtWf (localRepairTimeout c a n) ∧ (localRepairTimeout c a n).Closed := by
  have hways : n.SameWays (localRepairTimeout c a n) := by
    intro b
    rw [lookup_localRepairTimeout]
    cases n.lookup b with
    | none => split <;> exact .none
    | some rt =>
      split
      · exact .some ⟨rfl, rfl, rfl⟩
      · exact .some (.refl rt)
  exact ⟨effects_preserve_rtWf hn.1 (localRepairTimeout_effects a n), hways.closed hn.2⟩

theorem rtTimerTimeout_closed (hl : c.LinkBreaks {})
    (hcut : ∀ a n, RtWf n → n.CutsLink a (c.ext.neighborLinkBreak c.env a n)) (a : InAddr)
    {n : Node} (hdel : ∀ rt, n.lookup a = some rt → rt.rtTimer.used →
      rt.rtTimer.handler = .routeDeleteTimeout → rt.state = .valid → n.Unused a)
    (hn : RtWf n ∧ n.Closed) : (rtTimerTimeout c a n).Closed := by
  cases hrt : n.lookup a with
  | none =>
    rw [rtTimerTimeout_of_absent hrt]
    exact hn.2
  | some rt =>
    have hoff : RtWf (n.fired a) := hn.1.modRt a (fun _ => rfl) (fun _ => rfl) fun _ hp => hp
    have hways : n.SameWays (n.fired a) :=
      .modRt (f := fun rt => { rt with rtTimer := rt.rtTimer.remove }) .refl a (fun _ => rfl)
        (fun _ => ⟨rfl, rfl, rfl⟩) n
    have hclosed := hways.closed hn.2
    have hrt' : (n.fired a).rt a = { rt with rtTimer := rt.rtTimer.remove } := by
      refine rt_of_lookup ?_
      rw [lookup_fired, if_pos rfl, hrt]
      rfl
    by_cases hused : rt.rtTimer.used
    · rw [rtTimerTimeout_runs hrt hused]
      split
      · unfold routeExpireTimeout
        split
        · exact (hcut a _ hoff).closed hclosed
        · next hmulti =>
          have hunused : (n.fired a).Unused a := hclosed.unused fun ⟨nb, hnb, _, hone, _⟩ =>
            hmulti (by rw [rt_of_lookup hnb]; exact hone)
          exact ((closed_keeps hl hcut).precursorListDestroy a
            ⟨hoff.rtTableInvalidate a, hclosed.invalidate hunused⟩).2
      · next hh =>
        refine hclosed.delete ?_
        cases hs : rt.state with
        | valid => exact hways.unused (hdel rt hrt hused hh hs)
        | invalid =>
          refine hclosed.unused fun ⟨nb, hnb, hv, _, _⟩ => ?_
          rw [rt_of_lookup hnb] at hrt'
          subst hrt'
          exact absurd (hs.symm.trans hv) (by decide)
      · exact (localRepairTimeout_closed a ⟨hoff, hclosed⟩).2
      · exact hclosed
    · unfold rtTimerTimeout
      rw [rt_of_lookup hrt]
      dsimp only
      rw [if_neg hused]
      exact hn.2

end Handlers

/-! ## The described functions -/

section Described

/-- The link to a neighbour that is heard is no longer taken for a one-way link. -/
def clearUnidir (src : InAddr) (n : Node) : Node :=
  n.modRt src fun rt => { rt with flags := rt.flags &&& ~~~rtUnidir }

/-- External code that renews the entry of every neighbour heard. -/

def Extern.refreshing (log : ℚ → ℚ) (cf : Conf) : Extern :=
  { Extern.linkBreak log cf with
    neighborAdd := fun env _ src n =>
      neighborAddDescribed ⟨cf, .linkBreak log cf, env⟩ src (clearUnidir src n) }

theorem up_calm (src : InAddr) : Calm fun n => RtWf n ∧ n.Up src :=
  .of_wf (fun _ _ hr hn => (Node.SameWays.of_routes hr).up hn)
    (fun a _ n hf hn =>
      (Node.SameWays.of_quiet (.modRt .refl a (fun rt => (hf rt).destAddr) hf n)).up hn)
    fun _ _ _ hn => hn

theorem neighborAddDescribed_up (hl : c.LinkBreaks {}) (src : InAddr) {n : Node} (hwf : RtWf n)
    (hflag : ¬ hasFlag (n.rt src).flags rtUnidir) :
    RtWf (neighborAddDescribed c src n) ∧ (neighborAddDescribed c src n).Up src := by
  have h := up_calm src
  have hfits : ∀ seqno life n, Route.Fits ⟨src, src, 1, seqno, life, none⟩ n := fun _ _ _ =>
    ⟨fun _ => rfl, fun hne => absurd rfl hne⟩
  unfold neighborAddDescribed
  cases hfind : rtTableFind n src with
  | none =>
    have hnone : n.lookup src = none := (hwf.rtTableFind_eq_lookup src).symm.trans hfind
    dsimp only
    rw [rtTableInsert_eq, if_pos hnone]
    exact h.flushSeek src ⟨hwf.store (c := c) ⟨src, src, 1, 0, _, none⟩ 0 hnone,
      (hfits 0 _ n).up_store 0⟩
  | some rt =>
    have hlook : n.lookup src = some rt := (hwf.rtTableFind_eq_lookup src).symm.trans hfind
    rw [rt_of_lookup hlook] at hflag
    dsimp only
    rw [if_neg hflag]
    have hupdate : RtWf (rtTableUpdate c src src 1 rt.destSeqno (msecs c.conf.activeRouteTimeout)
        .valid rt.flags n) ∧ (rtTableUpdate c src src 1 rt.destSeqno
          (msecs c.conf.activeRouteTimeout) .valid rt.flags n).Up src := by
      have hbefore : RtWf (beforeUpdate c src 1 .valid n) := effects_preserve_rtWf hwf
        (beforeUpdate_effects (fun _ _ h => h) hl.widen src 1 .valid n)
      have hfound : (beforeUpdate c src 1 .valid n).lookup src ≠ none :=
        (beforeUpdate_ages hl src 1 .valid n).lookup_ne_none (lookup_of_rtTableFind hfind)
      exact h.flushSeek src ⟨hbefore.write ⟨src, src, 1, rt.destSeqno, _, none⟩ _,
        (hfits rt.destSeqno _ _).up_write _ hfound⟩
    split
    · exact h.helloUpdateTimeout _ _ hupdate
    · exact hupdate

theorem linkBreakVisit_others (repair : Bool) (w : Bool × Node) (a b : InAddr) (hb : b ≠ a) :
    (linkBreakVisit c repair w a).2.lookup b = w.2.lookup b := by
  unfold linkBreakVisit
  dsimp only
  rw [lookup_of_routes (linkBreakRerr_routes a _)]
  dsimp only
  rw [lookup_rtTableInvalidate, if_neg (Ne.symm hb)]
  split
  · rw [lookup_modRt (f := fun rt => { rt with flags := rt.flags ||| rtRepair }) a b fun _ => rfl,
      if_neg (Ne.symm hb)]
  · rfl

theorem linkBreakVisits_others (repair : Bool) (l : List InAddr) (w : Bool × Node) (b : InAddr)
    (hb : b ∉ l) : (l.foldl (linkBreakVisit c repair) w).2.lookup b = w.2.lookup b := by
  induction l generalizing w with
  | nil => rfl
  | cons a l ih =>
    obtain ⟨hhead, htail⟩ := not_or.mp (fun h => hb (List.mem_cons.mpr h))
    exact (ih _ htail).trans (linkBreakVisit_others repair w a b hhead)

theorem neighborLinkBreakDescribed_cutsLink (a : InAddr) {n : Node} (hwf : RtWf n) :
    n.CutsLink a (neighborLinkBreakDescribed c a n) := by
  refine ⟨neighborLinkBreakDescribed_losesLink a hwf, fun b rt rt' hrt hrt' hb hnext => ?_⟩
  have hinv : (rtTableInvalidate c a n).lookup b = some rt := by
    rw [lookup_rtTableInvalidate, if_neg (Ne.symm hb), hrt]
  have hskip : b ∉ routesOver a (rtTableInvalidate c a n) := by
    intro hmem
    obtain ⟨u, hu, rfl⟩ := List.mem_map.mp hmem
    obtain ⟨hentry, hover⟩ := List.mem_filter.mp hu
    have hlook := (hwf.rtTableInvalidate (c := c) a).lookup_eq_some.mpr ⟨hentry, rfl⟩
    cases hinv.symm.trans hlook
    simp_all
  have hwalk : (linkBreakWalk c a n).2.lookup b = some rt := by
    unfold linkBreakWalk
    dsimp only
    rw [linkBreakVisits_others _ _ _ _ hskip]
    split
    · exact hinv
    · exact (lookup_of_routes (linkBreakRerr_routes a _)).trans hinv
  have hsame : (neighborLinkBreakDescribed c a n).lookup b = some rt := by
    unfold neighborLinkBreakDescribed
    dsimp only
    split
    · exact (lookup_of_routes (aodvSocketSend_routes _ _ _ _)).trans hwalk
    · exact hwalk
  cases hsame.symm.trans hrt'
  rfl

theorem clearUnidir_flags (src : InAddr) (n : Node) :
    ¬ hasFlag ((clearUnidir src n).rt src).flags rtUnidir := by
  cases hrt : (clearUnidir src n).lookup src with
  | none =>
    rw [Node.rt, hrt]
    decide
  | some rt =>
    have hlook := lookup_modRt (n := n)
      (f := fun rt => { rt with flags := rt.flags &&& ~~~rtUnidir }) src src fun _ => rfl
    rw [rt_of_lookup hrt]
    rw [if_pos rfl] at hlook
    obtain ⟨rt₀, -, rfl⟩ := Option.map_eq_some_iff.mp (hlook.symm.trans hrt)
    simp [hasFlag_cleared]

theorem refreshing_refreshing (log : ℚ → ℚ) (cf : Conf) :
    (Extern.refreshing log cf).Refreshing cf := by
  have hl : ∀ env, Ctx.LinkBreaks ⟨cf, .linkBreak log cf, env⟩ {} :=
    fun env a n => neighborLinkBreakDescribed_effects a n
  refine ⟨⟨fun env a n => neighborLinkBreakDescribed_effects a n,
    fun _ a _ hwf => neighborLinkBreakDescribed_losesLink a hwf, fun env _ src n => ?_,
    fun env _ src n => ?_⟩, fun env _ src n hwf => ?_, fun env a _ hwf =>
      neighborLinkBreakDescribed_cutsLink a hwf⟩
  · have hclear : AddCall cf env src n (clearUnidir src n) :=
      .quiet src _ fun _ => ⟨rfl, rfl, rfl, rfl, rfl, rfl, rfl, rfl, id, id⟩
    exact .head hclear (neighborAddDescribed_calls cf (.linkBreak log cf) env src _)
  · exact neighborAddDescribed_known (c := ⟨cf, .linkBreak log cf, env⟩) (hl env) src _
  · have hwf' : RtWf (clearUnidir src n) :=
      hwf.modRt src (fun _ => rfl) (fun _ => rfl) fun _ hp => hp
    exact (neighborAddDescribed_up (c := ⟨cf, .linkBreak log cf, env⟩) (hl env) src hwf'
      (clearUnidir_flags src n)).2

end Described

/-! ## One event -/

/-- What keeps the next hops closed: a message brings routes that are welcome, the destination of a
request is no neighbour whose entry has no channel and is needed, a route error does not list its
sender while routes go over it, and `route_delete_timeout` finds no valid entry that is needed. -/
def Event.KeepsNextHops (c : Ctx) (n : Node) : Event → Prop
  | .recv p => p.saddr ≠ n.ipaddr →
      (∀ rreq, p.request c = some rreq → rreq.origAddr ≠ n.ipaddr →
        n.Welcomes p.saddr rreq.origAddr (rreq.hcnt + 1) ∧
        (rreq.type ≠ aodvRreqLr → n.Spares p.saddr rreq.destAddr)) ∧
      (∀ rrep, p.reply = some rrep → rrep.destAddr ≠ n.ipaddr →
        ∀ a hops, rrep.Reroutes p.saddr n a hops → n.Welcomes p.saddr a hops) ∧
      (∀ rerr, p.error = some rerr → rerr.n = false →
        (∃ ud ∈ rerr.walk, ud.destAddr = p.saddr) → n.Unused p.saddr)
  | .rtTimer a => ∀ rt, n.lookup a = some rt → rt.rtTimer.used →
      rt.rtTimer.handler = .routeDeleteTimeout → rt.state = .valid → n.Unused a
  | _ => True

section Step

variable {cf : Conf} {ext : Extern} {env : Env} {n : Node}

theorem Node.Beside.reroutes {n₁ : Node} {rrep : RREP} {src a : InAddr} {hops : BitVec 8}
    (h : n.Beside src n₁) (hip : n₁.ipaddr = n.ipaddr) (hre : rrep.Reroutes src n₁ a hops) :
    rrep.Reroutes src n a hops := by
  rcases hre with hdest | ⟨hlr, horig, hne, hsrc, rt, hrt, hnext, hhops⟩ | ⟨hlr, horig, hud⟩
  · exact .inl hdest
  · obtain ⟨rt₀, hrt₀, hlapse⟩ := h.before hsrc hrt
    exact .inr (.inl ⟨hlr, horig.trans hip, hne, hsrc, rt₀, hrt₀,
      hlapse.nextHop.symm.trans hnext, by rw [hhops, hlapse.hcnt]⟩)
  · exact .inr (.inr ⟨hlr, hip ▸ horig, hud⟩)

theorem recv_closed (hext : ext.Refreshing cf) (hn : RtWf n ∧ n.Closed) (recs : List RerrRecord)
    {p : Packet} (hok : Event.KeepsNextHops ⟨cf, ext, env⟩ n (.recv p)) :
    RtWf (recv ⟨cf, ext, env⟩ p (recs, n)).2 ∧ (recv ⟨cf, ext, env⟩ p (recs, n)).2.Closed := by
  have hl := hext.linkBreaks env
  have hcut := hext.cutsLink env
  have h := closed_keeps (c := ⟨cf, ext, env⟩) hl hcut
  refine recv_cases (J := fun n => RtWf n ∧ n.Closed)
    (I := fun n₁ => (RtWf n₁ ∧ n₁.Closed) ∧ n.Beside p.saddr n₁ ∧ n₁.Up p.saddr ∧
      n₁.ipaddr = n.ipaddr) recs
    (h.routes n _ rfl hn) hn (fun _ _ dir => ?_) (fun hello _ _ => ?_)
    (fun _ m _ _ => ?_) (fun rrep hrrep hown n₁ ⟨hn₁, hbeside, hup, hip⟩ => ?_)
    (fun rreq hrreq hown n₁ ⟨hn₁, hbeside, hup, hip⟩ => ?_)
    (fun rerr hrerr hown n₁ ⟨hn₁, hbeside, _, _⟩ => ?_)
    (fun ack n₁ hn₁ => h.rrepAckProcess ack p.saddr hn₁.1)
  · exact h.toCalm.processPacket (J := fun n => RtWf n ∧ n.Closed) (fun _ => id)
      (fun n' flags hn' => h.rreqRouteDiscovery closed_searches p.daddr flags hn')
      (fun _ n' hn' => rreqLocalRepair_closed hn') hn
  · refine h.helloProcess hello (fun n' hr _ flags => ?_) (fun _ n' hr hnone interval flags => ?_)
      hn
    · exact closed_takes_route (r := hello.helloRoute _) hl hcut (fun hne => absurd rfl hne)
        ⟨fun _ => rfl, fun hne => absurd rfl hne⟩ (h.routes n n' hr hn)
    · have hn' := h.routes n n' hr hn
      have hnone' : n'.lookup hello.destAddr = none := (lookup_of_routes hr).trans hnone
      exact ⟨hn'.1.storeEntry rfl ⟨rfl, rfl⟩ hnone', hn'.2.storeInvalid hnone' rfl⟩
  · have hadd := hext.beside env p.saddr hn m
    exact ⟨⟨hadd.1, hadd.2.1⟩, hadd.2.2, hext.refreshed env m p.saddr n hn.1,
      hext.ipaddr env p.saddr hn.1 m⟩
  · have hwel := (hok hown).2.1 rrep hrrep
    exact rrepProcess_closed hl hcut p.len p.ttl hup (fun hdest a hops hre =>
      hbeside.welcomes hup (hwel (hip ▸ hdest) a hops (hbeside.reroutes hip hre))) hn₁
  · have hwel := (hok hown).1 rreq hrreq
    exact rreqProcess_closed hl hcut p.len p.ttl hup
      (fun horig => hbeside.welcomes hup (hwel (hip ▸ horig)).1)
      (fun horig htype => ((hwel (hip ▸ horig)).2 htype).beside hbeside hup) hn₁
  · have hlisted := (hok hown).2.2 rerr hrerr
    exact rerrProcess_closed hl hcut rerr p.len recs
      (fun hnodelete hud => hbeside.unused_src (hlisted hnodelete hud)) hn₁

theorem step_closed (hext : ext.Refreshing cf) (hn : RtWf n ∧ n.Closed) (recs : List RerrRecord)
    {e : Event} (hok : e.KeepsNextHops ⟨cf, ext, env⟩ n) :
    RtWf (step ⟨cf, ext, env⟩ e (recs, n)).2 ∧ (step ⟨cf, ext, env⟩ e (recs, n)).2.Closed := by
  have hl := hext.linkBreaks env
  have hcut := hext.cutsLink env
  have h := closed_keeps (c := ⟨cf, ext, env⟩) hl hcut
  refine h.step recs e (fun p he => ?_) (fun p _ => ?_) (fun a he => ?_)
    (fun i s _ _ _ n' hn' _ _ => localRepairTimeout_closed s.destAddr hn') hn
  · subst he
    exact recv_closed hext hn recs hok
  · exact h.packetFailed (J := fun n => RtWf n ∧ n.Closed) (fun _ => id)
      (fun _ n' hn' => rreqLocalRepair_closed hn') hn
  · subst he
    exact ⟨effects_preserve_rtWf hn.1
      (rtTimerTimeout_effects (c := ⟨cf, ext, env⟩) hl.widen trivial a n),
      rtTimerTimeout_closed hl hcut a hok hn⟩

end Step

/-! ## Every run -/

/-- In every run whose steps keep the next hops closed, each valid route goes over a destination
with a valid one-hop entry. -/
theorem valid_routes_go_over_neighbours {cf : Conf} {ext : Extern} {a : InAddr} {n : Node}
    (hext : ext.Refreshing cf)
    (h : ReachableIf (fun env n e => e.KeepsNextHops ⟨cf, ext, env⟩ n) cf ext a n) :
    ∀ rt ∈ n.entries, rt.state = .valid →
      ∃ nb ∈ n.entries, nb.destAddr = rt.nextHop ∧ nb.state = .valid ∧ nb.hcnt = 1 := by
  have hn := h.invariant (I := fun n => RtWf n ∧ n.Closed)
    (fun env => ⟨init_rtWf a, fun b rt hrt => by cases hrt⟩)
    fun env recs e n hn hok => step_closed hext hn recs hok
  intro rt hrt hv
  obtain ⟨nb, hnb, hs, hone, -⟩ := hn.2 rt.destAddr rt (hn.1.lookup_eq_some.mpr ⟨hrt, rfl⟩) hv
  obtain ⟨hmem, hdest⟩ := hn.1.lookup_eq_some.mp hnb
  exact ⟨nb, hmem, hdest, hs, hone⟩

def refreshingCtx (now : Time) : Ctx := ⟨{}, .refreshing sampleLog {}, { now }⟩

def rreqOverTwo : Packet := rreqFrom 2 0
  { type := aodvRreq, hcnt := 1, rreqId := 7, destAddr := 8, origAddr := 9, origSeqno := 6,
    exts := [.cost 0] }

def overTwoNode : Node :=
  (step (refreshingCtx 0) (.recv rreqOverTwo) ([], Node.init (refreshingCtx 0) 1)).2

theorem overTwoNode_closed : ReachableIf
    (fun env n e => e.KeepsNextHops ⟨{}, .refreshing sampleLog {}, env⟩ n) {}
    (.refreshing sampleLog {}) 1 overTwoNode := by
  have hempty : ∀ a, (Node.init (refreshingCtx 0) 1).Unused a := fun a b rt hrt => by cases hrt
  refine .step { now := 0 } [] (.recv rreqOverTwo) trivial (fun _ => ⟨fun rreq hrreq _ => ?_,
    fun rrep hrrep => ?_, fun rerr hrerr => ?_⟩) (.init { now := 0 })
  · cases hrreq
    refine ⟨⟨fun hown => ?_, fun _ _ => hempty _⟩, fun _ => .inr ⟨?_, hempty _⟩⟩
    · exact absurd hown (by decide)
    · decide
  · cases hrrep
  · cases hrerr

/-- The route to 9 goes over 2, and 2 is a valid neighbour. -/
theorem overTwoNode_has_neighbour : (overTwoNode.rt 9).nextHop = 2 ∧
    ∀ rt ∈ overTwoNode.entries, rt.state = .valid →
      ∃ nb ∈ overTwoNode.entries, nb.destAddr = rt.nextHop ∧ nb.state = .valid ∧ nb.hcnt = 1 :=
  ⟨by decide +kernel,
    valid_routes_go_over_neighbours (refreshing_refreshing sampleLog {}) overTwoNode_closed⟩

/-! ## A neighbour is deleted -/

def rreqForTwo : Packet := rreqFrom 3 0
  { type := aodvRreq, hcnt := 1, rreqId := 8, destAddr := 2, origAddr := 5, origSeqno := 6,
    exts := [.cost 0] }

def danglingNode : Node := (step (refreshingCtx 1000) (.recv rreqForTwo) ([], overTwoNode)).2

/-- The entry of 2 has no channel and is deleted; the route to 9 still goes over 2. -/
theorem route_over_deleted_neighbour :
    ¬ ∀ n, Reachable {} (.refreshing sampleLog {}) 1 n → ∀ rt ∈ n.entries, rt.state = .valid →
      ∃ nb ∈ n.entries, nb.destAddr = rt.nextHop ∧ nb.state = .valid ∧ nb.hcnt = 1 := by
  intro hall
  have hrun : Reachable {} (.refreshing sampleLog {}) 1 danglingNode :=
    .step { now := 1000 } [] (.recv rreqForTwo) trivial overTwoNode_closed.reachable
  have hmem : danglingNode.rt 9 ∈ danglingNode.entries := by decide +kernel
  have hnext : (danglingNode.rt 9).nextHop = 2 := by decide +kernel
  obtain ⟨nb, hnb, hdest, -⟩ := hall _ hrun _ hmem (by decide +kernel)
  have hgone : ∀ nb ∈ danglingNode.entries, nb.destAddr ≠ 2 := by decide +kernel
  exact hgone nb hnb (hdest.trans hnext)

end AodvUU

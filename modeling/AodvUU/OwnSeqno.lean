import AodvUU.TableInvariant

/-! # The agent's own sequence number

`this_host.seqno` against the numbers an agent has put for itself in messages. A request is
sent with the number that `seqno_incr` is about to make; the retry of a discovery sends one
again and does not increment. -/
namespace AodvUU

variable {c : Ctx}

/-- A message that was transmitted, or that may still be. -/
def Node.Holds (n : Node) (m : AodvMsg) : Prop :=
  (∃ o ∈ n.out, o.sent = some m) ∨ m ∈ n.waiting ∨ m = n.sendBuf

/-- No message carries a number of the agent's own above `k`. -/
def Node.OwnUpTo (k : ℕ) (n : Node) : Prop :=
  ∀ m, n.Holds m → ∀ v, m.ownNumber n.ipaddr = some v → v.toNat ≤ k

namespace Node.OwnUpTo

variable {n n' : Node} {k l : ℕ}

theorem mono (h : n.OwnUpTo k) (hkl : k ≤ l) : n.OwnUpTo l :=
  fun m hm v hv => (h m hm v hv).trans hkl

theorem of_sendable (h : n.OwnUpTo k) {m : AodvMsg} (hm : n.Sendable m) {v : BitVec 32}
    (hv : m.ownNumber n.ipaddr = some v) : v.toNat ≤ k := by
  rcases hm with hw | ⟨len, rfl⟩
  · exact h m (.inr (.inl hw)) v hv
  · rw [AodvMsg.ownNumber_trunc] at hv
    exact h _ (.inr (.inr rfl)) v hv

theorem traffic (h : n.OwnUpTo k) (ht : Traffic n n') : n'.OwnUpTo k := by
  intro m hm v hv
  rw [ht.ipaddr] at hv
  rcases hm with ⟨o, ho, hs⟩ | hw | rfl
  · rcases ht.out o ho with ho | hsend
    · exact h m (.inl ⟨o, ho, hs⟩) v hv
    · exact h.of_sendable (hsend m hs) hv
  · exact h m (.inr (.inl (ht.waiting m hw))) v hv
  · rw [ht.sendBuf] at hv
    exact h _ (.inr (.inr rfl)) v hv

theorem newMsg (h : n.OwnUpTo k) {m : AodvMsg}
    (hm : ∀ v, m.ownNumber n.ipaddr = some v → v.toNat ≤ k) :
    (aodvSocketNewMsg m n).OwnUpTo k := by
  intro m' hm' v hv
  rcases hm' with hout | hw | rfl
  · exact h m' (.inl hout) v hv
  · exact h m' (.inr (.inl hw)) v hv
  · exact hm v hv

end Node.OwnUpTo

/-! ## Increments -/

theorem seqnoIncr_toNat {s : BitVec 32} (hs : 0 < s.toNat) (hs' : s.toNat < 2 ^ 31) :
    (seqnoIncr s).toNat = s.toNat + 1 := by
  have h0 : s ≠ 0 := by
    rintro rfl
    simp at hs
  have h1 : s ≠ 0xFFFFFFFF := by
    rintro rfl
    simp at hs'
  rw [seqnoIncr, if_neg h0, if_neg h1]
  bv_omega

/-- As long as the number has not wrapped it is a positive `int32_t`, and no message is ahead of
it. -/
structure Node.OwnBelow (n : Node) : Prop where
  pos : 0 < n.seqno.toNat
  lt : n.seqno.toNat < 2 ^ 31
  upTo : n.OwnUpTo n.seqno.toNat

theorem Node.OwnUpTo.incr {n : Node} (hpos : 0 < n.seqno.toNat) (hlt : n.seqno.toNat < 2 ^ 31)
    (hk : n.OwnUpTo (n.seqno.toNat + 1)) (hw : n.seqnoIncr.seqnoWrapped = false) :
    n.seqnoIncr.OwnBelow := by
  have hnat : n.seqnoIncr.seqno.toNat = n.seqno.toNat + 1 := seqnoIncr_toNat hpos hlt
  have hmax : n.seqno ≠ 0x7FFFFFFF := by
    intro he
    simp [Node.seqnoIncr, he] at hw
  refine ⟨by omega, by bv_omega, ?_⟩
  rw [hnat]
  exact hk

theorem Node.OwnBelow.raise {n : Node} (h : n.OwnBelow) (v : BitVec 32)
    (hw : (n.seqnoRaise v).seqnoWrapped = false) : (n.seqnoRaise v).OwnBelow := by
  unfold Node.seqnoRaise at hw ⊢
  have hpos := h.pos
  have hlt := h.lt
  split_ifs at hw ⊢ with h0 hs he
  · exact h
  · have hv : n.seqno.toNat < v.toNat ∧ v.toNat < 2 ^ 31 := by
      rw [BitVec.slt_iff_toInt_lt] at hs
      simp only [BitVec.toInt_eq_toNat_cond] at hs
      have := v.isLt
      split_ifs at hs <;> omega
    exact ⟨by show 0 < v.toNat; omega, hv.2, h.upTo.mono hv.1.le⟩
  · exact (h.upTo.mono (Nat.le_succ _)).incr hpos hlt hw
  · exact h

/-! ## Floods -/

theorem rreqSendWithChannel_ownUpTo {n : Node} {k : ℕ} (h : n.OwnUpTo k)
    (hk : (n.seqno + 1).toNat ≤ k) (a : InAddr) (v : BitVec 32) (ttl : Int) (flags : BitVec 8)
    (channel : ℕ) : (rreqSendWithChannel c a v ttl flags channel n).OwnUpTo k := by
  unfold rreqSendWithChannel
  refine Node.OwnUpTo.traffic ?_ (aodvSocketSend_traffic _ _ _ _)
  refine Node.OwnUpTo.newMsg h fun w hw => ?_
  simp only [AodvMsg.ownNumber, Option.ite_none_right_eq_some, Option.some.injEq] at hw
  rw [← hw.2]
  exact hk

theorem flood_number (a : InAddr) (v : BitVec 32) (ttl : Int) (flags : BitVec 8) (n : Node) :
    (onEachChannel (rreqSendWithChannel c a v ttl flags) n).seqno = n.seqno ∧
    (onEachChannel (rreqSendWithChannel c a v ttl flags) n).seqnoWrapped = n.seqnoWrapped := by
  refine List.foldlRecOn (motive := fun n' : Node => n'.seqno = n.seqno ∧
    n'.seqnoWrapped = n.seqnoWrapped) _ _ ⟨rfl, rfl⟩ fun n' hn' i _ => ⟨?_, ?_⟩
  · exact (aodvSocketSend_traffic _ _ _ _).seqno.trans hn'.1
  · exact (aodvSocketSend_traffic _ _ _ _).seqnoWrapped.trans hn'.2

theorem flood_ownUpTo {n : Node} {k : ℕ} (h : n.OwnUpTo k) (hk : (n.seqno + 1).toNat ≤ k)
    (a : InAddr) (v : BitVec 32) (ttl : Int) (flags : BitVec 8) :
    (onEachChannel (rreqSendWithChannel c a v ttl flags) n).OwnUpTo k := by
  have hsteps : (onEachChannel (rreqSendWithChannel c a v ttl flags) n).OwnUpTo k ∧
      (onEachChannel (rreqSendWithChannel c a v ttl flags) n).seqno = n.seqno := by
    refine List.foldlRecOn (motive := fun n' : Node => n'.OwnUpTo k ∧ n'.seqno = n.seqno) _ _
      ⟨h, rfl⟩ fun n' hn' i _ => ⟨?_, ?_⟩
    · exact rreqSendWithChannel_ownUpTo hn'.1 (by rw [hn'.2]; exact hk) a v ttl flags i
    · exact (aodvSocketSend_traffic _ _ _ _).seqno.trans hn'.2
  exact hsteps.1

/-! ## Effects -/

/-- The messages and the number stay; only the table changes. -/
structure TableChange (n n' : Node) : Prop where
  ipaddr : n'.ipaddr = n.ipaddr
  seqno : n'.seqno = n.seqno
  seqnoWrapped : n'.seqnoWrapped = n.seqnoWrapped
  holds : ∀ m, n'.Holds m → n.Holds m

def Node.OwnBounded (n : Node) : Prop := n.seqnoWrapped = false → n.OwnBelow

theorem Node.OwnBounded.tableChange {n n' : Node} (h : n.OwnBounded) (ht : TableChange n n') :
    n'.OwnBounded := by
  intro hw
  obtain ⟨hpos, hlt, hup⟩ := h (ht.seqnoWrapped ▸ hw)
  refine ⟨ht.seqno ▸ hpos, ht.seqno ▸ hlt, fun m hm v hv => ?_⟩
  rw [ht.seqno]
  exact hup m (ht.holds m hm) v (ht.ipaddr ▸ hv)

theorem rtTableInvalidate_tableChange (a : InAddr) (n : Node) :
    TableChange n (rtTableInvalidate c a n) := by
  unfold rtTableInvalidate
  split
  · exact ⟨rfl, rfl, rfl, fun _ h => h⟩
  · split <;> exact ⟨rfl, rfl, rfl, fun _ h => h⟩

theorem rtTableDelete_tableChange (a : InAddr) (n : Node) : TableChange n (rtTableDelete a n) := by
  unfold rtTableDelete
  split <;> exact ⟨rfl, rfl, rfl, fun _ h => h⟩

theorem Rewrite.tableChange {n n' : Node} (h : Rewrite n n') : TableChange n n' := by
  cases h <;> exact ⟨rfl, rfl, rfl, fun _ h => h⟩

/-- Everything but a request repeated by the retry of a discovery. -/
def Scope.quiet : Scope := { Scope.all with retry := False }

theorem effect_preserves_ownBounded {n n' : Node} (h : n.OwnBounded)
    (he : Effect c .quiet n n') : n'.OwnBounded := by
  cases he with
  | traffic ht =>
    intro hw
    obtain ⟨hpos, hlt, hup⟩ := h (ht.seqnoWrapped ▸ hw)
    exact ⟨ht.seqno ▸ hpos, ht.seqno ▸ hlt, ht.seqno ▸ hup.traffic ht⟩
  | entry | insert | setSeqno => exact h.tableChange ⟨rfl, rfl, rfl, fun _ h => h⟩
  | invalidate a => exact h.tableChange (rtTableInvalidate_tableChange a n)
  | delete hs a => exact h.tableChange (rtTableDelete_tableChange a n)
  | update hs addr => exact h.tableChange hs.tableChange
  | buffer m hm =>
    intro hw
    obtain ⟨hpos, hlt, hup⟩ := h hw
    refine ⟨hpos, hlt, hup.newMsg fun v hv => ?_⟩
    rcases hm v hv with rfl | hold
    · exact Nat.le_refl _
    · exact hup _ (.inr (.inr rfl)) v hold
  | raise hs v =>
    intro hw
    refine (h ?_).raise v hw
    unfold Node.seqnoRaise Node.seqnoIncr at hw
    split_ifs at hw <;> simp_all
  | incr hs =>
    intro hw
    obtain ⟨hpos, hlt, hup⟩ := h (by simp_all [Node.seqnoIncr])
    exact (hup.mono (Nat.le_succ _)).incr hpos hlt hw
  | flood hs a v ttl flags =>
    intro hw
    obtain ⟨hs', hw'⟩ := flood_number (c := c) a v ttl flags n
    have hn : n.seqnoWrapped = false := by
      simp only [Node.seqnoIncr, hw', Bool.or_eq_false_iff] at hw
      exact hw.1.1
    obtain ⟨hpos, hlt, hup⟩ := h hn
    have hnext : (n.seqno + 1).toNat ≤ n.seqno.toNat + 1 := by bv_omega
    refine Node.OwnUpTo.incr (by rwa [hs']) (by rwa [hs']) ?_ hw
    rw [hs']
    exact flood_ownUpTo (hup.mono (Nat.le_succ _)) hnext a v ttl flags
  | reflood hs => exact hs.elim

theorem effects_preserve_ownBounded {n n' : Node} (h : n.OwnBounded)
    (he : Effects c .quiet n n') : n'.OwnBounded := by
  induction he with
  | refl => exact h
  | tail _ he ih => exact effect_preserves_ownBounded ih he

/-! ## Every run without a retry -/

variable {cf : Conf} {ext : Extern} {a : InAddr} {n : Node}

def Event.Retries (n : Node) : Event → Prop
  | .seekTimer i => ∃ s, n.seekhead[i]? = some s ∧ s.reqs < rreqRetries
  | _ => False

/-- The runs in which no discovery is repeated. -/
inductive RetryFree (cf : Conf) (ext : Extern) (a : InAddr) : Node → Prop where
  | init (env : Env) : RetryFree cf ext a (Node.init ⟨cf, ext, env⟩ a)
  | step {n : Node} (env : Env) (recs : List RerrRecord) (e : Event) (he : e.Legal n)
      (hr : ¬ e.Retries n) :
      RetryFree cf ext a n → RetryFree cf ext a (step ⟨cf, ext, env⟩ e (recs, n)).2

theorem Node.OwnBounded.ifqueue (h : n.OwnBounded) {q : Option (List Packet)}
    (hq : Event.Legal n (.ifqueue q)) : ({ n with ifqueue := q } : Node).OwnBounded := by
  refine h.tableChange ⟨rfl, rfl, rfl, fun m hm => ?_⟩
  rcases hm with hout | ⟨p, hp, hm⟩ | rfl
  · exact .inl hout
  · rcases List.mem_append.mp hp with hp | hp
    · exact .inr (.inl ⟨p, List.mem_append_left _ hp, hm⟩)
    · obtain ⟨i, d, ho⟩ := hq p hp
      exact .inl ⟨_, ho, hm⟩
  · exact .inr (.inr rfl)

theorem step_preserves_ownBounded {env : Env} (hext : ext.Within .quiet cf) (h : n.OwnBounded)
    {e : Event} (he : e.Legal n) (hr : ¬ e.Retries n) (recs : List RerrRecord) :
    (step ⟨cf, ext, env⟩ e (recs, n)).2.OwnBounded := by
  by_cases hq : ∃ q, e = .ifqueue q
  · obtain ⟨q, rfl⟩ := hq
    exact h.ifqueue he
  · refine effects_preserve_ownBounded h (step_effects (hext.linkBreaks env)
      (updates_of_rewrite (fun _ _ h => h) (hext.linkBreaks env)) (hext.neighborAdds env)
      trivial trivial trivial e recs n (fun q hqe => hq ⟨q, hqe⟩) ?_)
    rintro i s rfl hs hlt
    exact hr ⟨s, hs, hlt⟩

theorem init_ownBounded (c : Ctx) (a : InAddr) : (Node.init c a).OwnBounded := by
  have hone : (Node.init c a).seqno.toNat = 1 := rfl
  refine fun _ => ⟨by omega, by omega, fun m hm v hv => ?_⟩
  rcases hm with ⟨o, ho, _⟩ | ⟨p, hp, _⟩ | rfl
  · cases ho
  · cases hp
  · cases hv

theorem retryFree_ownBounded (hext : ext.Within .quiet cf) (h : RetryFree cf ext a n) :
    n.OwnBounded := by
  induction h with
  | init env => exact init_ownBounded ⟨cf, ext, env⟩ a
  | step env recs e he hr _ ih => exact step_preserves_ownBounded hext ih he hr recs

/-- Without a retry and a wrap no number the agent sent about itself is ahead of `seqno`. -/
theorem own_number_le_seqno (hext : ext.Within .quiet cf) (h : RetryFree cf ext a n)
    (hw : n.seqnoWrapped = false) :
    ∀ o ∈ n.out, ∀ m, o.sent = some m → ∀ v, m.ownNumber n.ipaddr = some v → v ≤ n.seqno := by
  intro o ho m hm v hv
  have hbelow := retryFree_ownBounded hext h hw
  exact BitVec.le_def.mpr (hbelow.upTo m (.inl ⟨o, ho, hm⟩) v hv)

def ownData (a dst : InAddr) : Packet where
  saddr := a
  daddr := dst
  ttl := 32
  len := 512

def searchingNode : Node :=
  (step (sampleCtx 1000) (.recv (ownData 1 9)) ([], Node.init (sampleCtx 0) 1)).2

theorem own_number_le_seqno_searching : searchingNode.out ≠ [] ∧
    ∀ o ∈ searchingNode.out, ∀ m, o.sent = some m →
      ∀ v, m.ownNumber searchingNode.ipaddr = some v → v ≤ searchingNode.seqno :=
  ⟨List.ne_nil_of_length_pos (by decide +kernel),
    own_number_le_seqno (described_within trivial (fun _ _ h => h) sampleLog {})
      (.step { now := 1000 } [] (.recv (ownData 1 9)) trivial id (.init { now := 0 }))
      (by decide +kernel)⟩

def retryingNode : Node := (step (sampleCtx 1300000) (.seekTimer 0) ([], searchingNode)).2

/-- The repeated request carries 3 while the number stays 2. -/
theorem own_number_gt_seqno :
    ¬ ∀ n, Reachable {} (.described sampleLog {}) 1 n → n.seqnoWrapped = false →
      ∀ o ∈ n.out, ∀ m, o.sent = some m → ∀ v, m.ownNumber n.ipaddr = some v → v ≤ n.seqno := by
  intro hall
  have hreach : Reachable {} (.described sampleLog {}) 1 retryingNode :=
    .step { now := 1300000 } [] (.seekTimer 0) trivial
      (.step { now := 1000 } [] (.recv (ownData 1 9)) trivial (.init { now := 0 }))
  have hlast : (retryingNode.out.getLast?.bind Output.sent).bind
      (AodvMsg.ownNumber retryingNode.ipaddr) = some 3 := by decide +kernel
  obtain ⟨m, hm, hv⟩ := Option.bind_eq_some_iff.mp hlast
  obtain ⟨o, ho, hsent⟩ := Option.bind_eq_some_iff.mp hm
  have hle := hall retryingNode hreach (by decide +kernel) o (List.mem_of_getLast? ho) m hsent 3 hv
  have hs : retryingNode.seqno = 2 := by decide +kernel
  rw [hs] at hle
  exact absurd hle (by decide)

end AodvUU

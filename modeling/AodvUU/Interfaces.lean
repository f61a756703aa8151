import AodvUU.HelloAgent

/-! # The interface of a unicast

`sendPacket` hands a unicast to the link layer numbered `channelNum`. The number comes from a
message, from a flood, or from an entry. Entries made by `rt_table_insert` have none: `rreq_process`
deletes such an entry before it answers from it, `rrep_process` takes its -1 for the reply. -/
namespace AodvUU

def Conf.HasIface (cf : Conf) (i : Int) : Prop := 0 ≤ i ∧ i < cf.nIfaces

instance (cf : Conf) (i : Int) : Decidable (cf.HasIface i) :=
  inferInstanceAs (Decidable (0 ≤ i ∧ i < cf.nIfaces))

/-- The unicasts handed out, and the next one, have an interface. -/
structure Node.OnIfaces (cf : Conf) (a : InAddr) (n : Node) : Prop where
  ipaddr : n.ipaddr = a
  channelNum : cf.HasIface n.channelNum
  entries : ∀ rt ∈ n.entries, rt.channel ≠ -1 → cf.HasIface rt.channel
  out : ∀ i p d, .sched i p d ∈ n.out → p.daddr ≠ aodvBroadcast → cf.HasIface i

/-- `rrep_process` passes the reply on over a reverse entry that has no channel and keeps
having none while the forward entry is written. -/
def RREP.Strays (c : Ctx) (rrep : RREP) (len : ℕ) (ipSrc : InAddr) (n : Node) : Prop :=
  rrep.lr = false ∧ rrepSize ≤ len ∧ rrep.destAddr ≠ n.ipaddr ∧ rrep.origAddr ≠ n.ipaddr ∧
  rrep.origAddr ≠ rrep.destAddr ∧ (n.rt rrep.origAddr).channel = -1 ∧
  ∃ n', rrepRoute c { rrep with
      exts := rrep.exts.map (Ext.addCost (getCost c n ipSrc rrep.channel)) } ipSrc
      (receivedCost c n ipSrc rrep.channel rrep.exts) n = some n' ∧
    (n'.rt rrep.origAddr).state = .valid

/-- Packets arrive on interfaces that the agent has, and no reply strays. -/
def OnIface (cf : Conf) (ext : Extern) (env : Env) (n : Node) : Event → Prop
  | .recv p => (p.received.isSome → cf.HasIface p.channel) ∧
    ∀ rrep m, p.reply = some rrep → p.received = some m → p.saddr ≠ n.ipaddr →
      ¬ rrep.Strays ⟨cf, ext, env⟩ p.len p.saddr (ext.neighborAdd env m p.saddr n)
  | _ => True

variable {c : Ctx} {cf : Conf} {ext : Extern} {a : InAddr} {n : Node}

theorem Conf.HasIface.received {ch : Int} (h : cf.HasIface ch) :
    cf.HasIface (BitVec.ofInt 8 ch).toNat := by
  obtain ⟨hlo, hhi⟩ := h
  have hcut : ((BitVec.ofInt 8 ch).toNat : Int) = ch % 256 := by
    rw [BitVec.toNat_ofInt]
    omega
  have hle : ch % 256 ≤ ch := by omega
  exact ⟨Int.natCast_nonneg _, hcut ▸ hle.trans_lt hhi⟩

theorem onIfaces_steady (hext : ext.Plain cf) (hch : channelCount ≤ cf.nIfaces) (env : Env) :
    Ctx.Steady ⟨cf, ext, env⟩ ⟨cf.HasIface, True⟩ (Node.OnIfaces cf a) where
  act n n' hact hn := by
    have hknows : (⟨cf.HasIface, True⟩ : Licence).Knows n' := hact.knows hn.entries
    cases hact with
    | still data out channels =>
      have hnum : n'.channelNum = n.channelNum := congrArg LinkData.channelNum data
      refine ⟨(congrArg LinkData.ipaddr data).trans hn.ipaddr, hnum ▸ hn.channelNum, hknows, ?_⟩
      exact fun i p d hi => hn.out i p d (out ▸ hi)
    | handOut o ho =>
      refine ⟨hn.ipaddr, hn.channelNum, hknows, fun i p d hi hu => ?_⟩
      rcases List.mem_append.mp hi with hi | hi
      · exact hn.out i p d hi hu
      · rw [ho i p d (List.mem_singleton.mp hi).symm hu]
        exact hn.channelNum
    | store | write => exact ⟨hn.ipaddr, hn.channelNum, hknows, hn.out⟩
    | tune ch h => exact ⟨hn.ipaddr, h, hknows, hn.out⟩
    | hello e =>
      obtain ⟨hip, -, hout, hnum⟩ := e.run_still (c := ⟨cf, ext, env⟩) n
      exact ⟨hip.trans hn.ipaddr, hnum ▸ hn.channelNum, hknows,
        fun i p d hi => hn.out i p d (hout ▸ hi)⟩
  breaks := hext.breaks env
  hello := trivial
  floods i hi := ⟨Int.natCast_nonneg i, by exact_mod_cast hi.trans_le hch⟩

theorem mem_of_valid {a : InAddr} (h : (n.rt a).state = .valid) : n.rt a ∈ n.entries := by
  cases hrt : n.lookup a with
  | none =>
    rw [Node.rt, hrt] at h
    cases h
  | some rt =>
    rw [rt_of_lookup hrt]
    exact HashTable.mem_entries.mpr ⟨_, List.mem_of_find?_eq_some hrt⟩

theorem rrepProcess_onIfaces (hext : ext.CallsOnly cf) (hplain : ext.Plain cf)
    (hch : channelCount ≤ cf.nIfaces) (env : Env) (hwf : RtWf n) (hn : n.OnIfaces cf a) {rrep : RREP}
    (hchan : cf.HasIface rrep.channel.toNat) {len : ℕ} {ipSrc : InAddr} (ttl : Int)
    (hstay : ¬ rrep.Strays ⟨cf, ext, env⟩ len ipSrc n) :
    (rrepProcess ⟨cf, ext, env⟩ rrep len ipSrc ttl n).OnIfaces cf a := by
  refine (onIfaces_steady hplain hch env).rrepProcess rrep len ipSrc ttl hchan ?_ hn
  intro hlr hlen hdest n' hroute hn' horig hvalid
  by_cases hnone : (n'.rt rrep.origAddr).channel = -1
  · refine absurd ?_ hstay
    obtain ⟨-, w, hw, -, hinst⟩ := rrepRoute_installs (hext.linkBreaks env) hwf hdest hroute
    have hdiff : rrep.origAddr ≠ rrep.destAddr := by
      intro hsame
      obtain ⟨rt', hrt', hage⟩ := hinst.entry
      rw [hsame, rt_of_lookup hrt', hage.channel, hw.channel] at hnone
      omega
    have hip : n'.ipaddr = n.ipaddr := hn'.ipaddr.trans hn.ipaddr.symm
    refine ⟨hlr, hlen, hdest, hip ▸ horig, hdiff, ?_, n', hroute, hvalid⟩
    have hrel := hinst.others _ hdiff
    cases hrt' : n'.lookup rrep.origAddr with
    | none =>
      rw [Node.rt, hrt'] at hvalid
      cases hvalid
    | some rt' =>
      rw [hrt'] at hrel
      obtain ⟨rt, hrt, hage⟩ := optionRel_some hrel
      rw [rt_of_lookup hrt'] at hnone
      rw [rt_of_lookup hrt, ← hage.channel, hnone]
  · exact hn'.entries _ (mem_of_valid hvalid) hnone

theorem step_onIfaces (hext : ext.CallsOnly cf) (hplain : ext.Plain cf)
    (hch : channelCount ≤ cf.nIfaces) (env : Env) (hwf : RtWf n) (hn : n.OnIfaces cf a)
    (recs : List RerrRecord) (e : Event) (hok : OnIface cf ext env n e) :
    (step ⟨cf, ext, env⟩ e (recs, n)).2.OnIfaces cf a := by
  refine (onIfaces_steady hplain hch env).step (hplain.adds env) (fun _ hn => hn.entries) recs e
    ?_ ?_ hn
  · rintro p rfl hrec
    exact (hok.1 hrec).received
  · rintro p rrep m rfl hrrep hm hown hadd
    obtain ⟨hrec, hchan⟩ := Packet.reply_channel hrrep
    have hwf' : RtWf (ext.neighborAdd env m p.saddr n) :=
      effects_calls_preserve_rtWf hwf (hext.neighborAdds env m p.saddr n)
    refine rrepProcess_onIfaces hext hplain hch env hwf' hadd ?_ p.ttl (hok.2 rrep m hrrep hm hown)
    rw [hchan]
    exact (hok.1 hrec).received

/-- Where every packet arrives on an interface and no reply strays, every unicast leaves on an
interface. -/
theorem unicast_iface_valid (hext : ext.CallsOnly cf) (hplain : ext.Plain cf)
    (hch : channelCount ≤ cf.nIfaces) (h : ReachableIf (OnIface cf ext) cf ext a n) :
    cf.HasIface n.channelNum ∧
      ∀ i p d, .sched i p d ∈ n.out → p.daddr ≠ aodvBroadcast → cf.HasIface i := by
  have hn : n.OnIfaces cf a := by
    induction h with
    | init env =>
      have hpos : 0 < cf.nIfaces := Nat.lt_of_lt_of_le (by decide) hch
      refine ⟨rfl, ⟨le_refl _, Int.natCast_pos.mpr hpos⟩, fun rt hrt => ?_, fun _ _ _ h => by cases h⟩
      obtain ⟨i, hi⟩ := HashTable.mem_entries.mp hrt
      cases hi
    | step env recs e _ hok hprev ih =>
      have hwf := (reachable_balanced hext hprev.reachable).wf
      exact step_onIfaces hext hplain hch env hwf ih recs e hok
  exact ⟨hn.channelNum, hn.out⟩

/-! ## A reply in time, and one too late -/

/-- The request of 2 for 4, which agent 1 hears on interface 1. -/
def askedNode : Node :=
  (step (sampleCtx 0) (.recv (rreqFrom 2 1
      { type := aodvRreq, rreqId := 7, destAddr := 4, origAddr := 2, origSeqno := 6, destCount := 1,
        exts := [.cost 0] })) ([], Node.init (sampleCtx 0) 1)).2

def answerAboutFour : RREP :=
  { type := aodvRrep, destAddr := 4, destSeqno := 3, origAddr := 2, lifetime := 6000,
    destCount := 1, exts := [.cost 0] }

def replyToTwo : Packet where
  ptype := .aodvuu
  saddr := 3
  daddr := 1
  ttl := 10
  prevHop := 3
  channel := 2
  len := rrepCostSize
  msg := some (.rrep answerAboutFour)

def answered (t : Time) (n : Node) : Node := (step (sampleCtx t) (.recv replyToTwo) ([], n)).2

theorem answered_onIface :
    ReachableIf (OnIface {} (.described sampleLog {})) {} (.described sampleLog {}) 1
      (answered 1000 askedNode) := by
  refine .step { now := 1000 } [] (.recv replyToTwo) trivial ⟨fun _ => by decide, ?_⟩
    (.step { now := 0 } [] (.recv _) trivial ⟨fun _ => by decide, ?_⟩ (.init { now := 0 }))
  · intro rrep m hrrep hm _ hstray
    cases hm
    cases hrrep
    have hchan := hstray.2.2.2.2.2.1
    revert hchan
    decide +kernel
  · intro rrep m hrrep
    cases hrrep

theorem unicast_iface_valid_answered :
    Conf.HasIface {} (answered 1000 askedNode).channelNum ∧
      ∀ i p d, .sched i p d ∈ (answered 1000 askedNode).out → p.daddr ≠ aodvBroadcast →
        Conf.HasIface {} i :=
  unicast_iface_valid (described_callsOnly sampleLog {}) (described_plain sampleLog {}) (by decide)
    answered_onIface

/-- The reverse entry expires and is deleted; a Hello makes a new one, without a channel. -/
def renewedNode : Node :=
  let n := (step (sampleCtx 3000000) (.rtTimer 2) ([], askedNode)).2
  let n := (step (sampleCtx 18000000) (.rtTimer 2) ([], n)).2
  (step (sampleCtx 18001000) (.recv (helloFrom 2 6 0)) ([], n)).2

theorem renewedNode_reachable : Reachable {} (.described sampleLog {}) 1 renewedNode :=
  .step { now := 18001000 } [] (.recv (helloFrom 2 6 0)) trivial
    (.step { now := 18000000 } [] (.rtTimer 2) trivial
      (.step { now := 3000000 } [] (.rtTimer 2) trivial
        (.step { now := 0 } [] (.recv _) trivial (.init { now := 0 }))))

def Output.unicastOn (i : Int) : Output → Bool
  | .sched j p _ => j = i ∧ p.daddr ≠ aodvBroadcast
  | _ => false

/-- The late reply goes out on interface -1. -/
theorem unicast_iface_invalid :
    ¬ ∀ n, Reachable {} (.described sampleLog {}) 1 n →
      ∀ i p d, .sched i p d ∈ n.out → p.daddr ≠ aodvBroadcast → Conf.HasIface {} i := by
  intro hall
  have hreach : Reachable {} (.described sampleLog {}) 1 (answered 18002000 renewedNode) :=
    .step { now := 18002000 } [] (.recv replyToTwo) trivial renewedNode_reachable
  have hbad : ∃ o ∈ (answered 18002000 renewedNode).out, ∃ p d, o = .sched (-1) p d ∧
      p.daddr ≠ aodvBroadcast := by
    have hany : (answered 18002000 renewedNode).out.any (Output.unicastOn (-1)) = true := by
      decide +kernel
    obtain ⟨o, ho, hbad⟩ := List.any_eq_true.mp hany
    cases o with
    | sched i p d =>
      obtain ⟨rfl, hu⟩ : i = -1 ∧ p.daddr ≠ aodvBroadcast := by simpa [Output.unicastOn] using hbad
      exact ⟨_, ho, p, d, rfl, hu⟩
    | drop | deliver => cases hbad
  obtain ⟨_, ho, p, d, rfl, hu⟩ := hbad
  have hlow := (hall _ hreach (-1) p d ho hu).1
  omega

end AodvUU

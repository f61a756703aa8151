import AodvUU.Lib.HeldMessage
import AodvUU.LrErrors
import AodvUU.Suspicion

/-! # The message under construction

All messages of an agent are built in the one send buffer. Some handlers call code that builds a
message of its own while theirs is not sent yet. -/
namespace AodvUU

variable {c : Ctx}

/-! ## Link breaks that build a message -/

/-- A route that is lost with the neighbour has precursors; the neighbour's own entry counts only
outside of a repair. -/
def Node.TellsOf (n : Node) (a : InAddr) : Prop :=
  (¬ hasFlag (n.rt a).flags rtRepair ∧ (n.rt a).nprec ≠ 0) ∨
    ∃ b, b ≠ a ∧ (n.rt b).Over a ∧ (n.rt b).nprec ≠ 0

def AodvMsg.PlainError (m : AodvMsg) : Prop := ∃ e : RERR, m = .rerr e ∧ e.lr = false

/-- What is documented of `neighbor_link_break`: it builds a RERR where a lost route has precursors,
and uses the send buffer for nothing else. -/
structure Ctx.TellsUsers (c : Ctx) : Prop where
  silent : ∀ a n, RtWf n → ¬ n.TellsOf a → (c.ext.neighborLinkBreak c.env a n).sendBuf = n.sendBuf
  builds : ∀ a n, RtWf n → n.TellsOf a →
    (c.ext.neighborLinkBreak c.env a n).sendBuf.PlainError

theorem RtWf.mem_routesOver {n : Node} (h : RtWf n) {a b : InAddr} :
    b ∈ routesOver a n ↔ b ≠ a ∧ (n.rt b).Over a := by
  unfold routesOver
  simp only [List.mem_map, List.mem_filter, decide_eq_true_eq]
  constructor
  · rintro ⟨rt, ⟨hrt, hv, hnext, hne⟩, rfl⟩
    rw [rt_of_lookup (h.lookup_eq_some.mpr ⟨hrt, rfl⟩)]
    exact ⟨hne, hv, hnext⟩
  · rintro ⟨hne, hover⟩
    obtain ⟨hmem, hd⟩ := h.lookup_eq_some.mp (lookup_of_over hover)
    exact ⟨n.rt b, ⟨hmem, hover.1, hover.2, fun he => hne (hd.symm.trans he)⟩, hd⟩

theorem linkBreakRerr_made (a : InAddr) (w : Bool × Node) :
    (linkBreakRerr a w).1 = true ↔ w.1 = true ∨ (w.2.rt a).nprec ≠ 0 := by
  unfold linkBreakRerr
  dsimp only
  split_ifs with hzero hmade
  · simp [hzero]
  · simp [hmade]
  · simp [hzero]

theorem linkBreakRerr_plainError {a : InAddr} {w : Bool × Node}
    (h : w.1 = true → w.2.sendBuf.PlainError) :
    (linkBreakRerr a w).1 = true → (linkBreakRerr a w).2.sendBuf.PlainError := by
  unfold linkBreakRerr
  dsimp only
  split_ifs with hzero hmade
  · exact h
  · intro _
    obtain ⟨e, he, hlr⟩ := h hmade
    refine ⟨rerrAddUdest e (w.2.rt a).destAddr (w.2.rt a).destSeqno, ?_, hlr⟩
    unfold Node.addRerrUdest
    rw [he]
    rfl
  · exact fun _ => ⟨_, rfl, rfl⟩

theorem rtTableInvalidate_nprec (a b : InAddr) (n : Node) :
    ((rtTableInvalidate c a n).rt b).nprec = (n.rt b).nprec := by
  unfold Node.rt
  rw [lookup_rtTableInvalidate]
  split
  · cases n.lookup b with
    | none => rfl
    | some rt =>
      simp only [Option.map_some, Option.getD_some]
      split <;> rfl
  · rfl

theorem linkBreakVisit_made (repair : Bool) (w : Bool × Node) (a : InAddr) :
    ((linkBreakVisit c repair w a).1 = true ↔ w.1 = true ∨ (w.2.rt a).nprec ≠ 0) ∧
    (∀ b, ((linkBreakVisit c repair w a).2.rt b).nprec = (w.2.rt b).nprec) ∧
    ((w.1 = true → w.2.sendBuf.PlainError) → (linkBreakVisit c repair w a).1 = true →
      (linkBreakVisit c repair w a).2.sendBuf.PlainError) := by
  have hmark : ∀ b, ((rtTableInvalidate c a (if repair then w.2.modRt a fun rt =>
      { rt with flags := rt.flags ||| rtRepair } else w.2)).rt b).nprec = (w.2.rt b).nprec := by
    intro b
    rw [rtTableInvalidate_nprec]
    split
    · unfold Node.rt
      rw [lookup_modRt (f := fun rt => { rt with flags := rt.flags ||| rtRepair }) a b fun _ => rfl]
      split
      · cases w.2.lookup b <;> rfl
      · rfl
    · rfl
  have hbuf : (rtTableInvalidate c a (if repair then w.2.modRt a fun rt =>
      { rt with flags := rt.flags ||| rtRepair } else w.2)).sendBuf = w.2.sendBuf := by
    rw [rtTableInvalidate_sendBuf]
    split <;> rfl
  unfold linkBreakVisit
  refine ⟨?_, fun b => ?_, fun h => linkBreakRerr_plainError fun hmade => ?_⟩
  · rw [linkBreakRerr_made, hmark]
  · have hroutes := lookup_of_routes (a := b) (linkBreakRerr_routes a (w.1, rtTableInvalidate c a
      (if repair then w.2.modRt a fun rt => { rt with flags := rt.flags ||| rtRepair } else w.2)))
    rw [← hmark b]
    unfold Node.rt
    rw [hroutes]
  · rw [hbuf]
    exact h hmade

theorem linkBreakVisits_made (repair : Bool) (l : List InAddr) (w : Bool × Node) :
    ((l.foldl (linkBreakVisit c repair) w).1 = true ↔
      w.1 = true ∨ ∃ b ∈ l, (w.2.rt b).nprec ≠ 0) ∧
    ((w.1 = true → w.2.sendBuf.PlainError) →
      (l.foldl (linkBreakVisit c repair) w).1 = true →
      (l.foldl (linkBreakVisit c repair) w).2.sendBuf.PlainError) := by
  induction l generalizing w with
  | nil => exact ⟨by simp, fun h => h⟩
  | cons a l ih =>
    obtain ⟨hmade, hnprec, hplain⟩ := linkBreakVisit_made (c := c) repair w a
    obtain ⟨hfold, hfoldPlain⟩ := ih (linkBreakVisit c repair w a)
    rw [List.foldl_cons]
    refine ⟨?_, fun h => hfoldPlain (hplain h)⟩
    rw [hfold, hmade]
    simp only [hnprec, List.mem_cons, exists_eq_or_imp, or_assoc]

theorem linkBreakWalk_tells {a : InAddr} {n : Node} (hwf : RtWf n) :
    ((linkBreakWalk c a n).1 = true ↔ n.TellsOf a) ∧
    ((linkBreakWalk c a n).1 = true → (linkBreakWalk c a n).2.sendBuf.PlainError) := by
  have hover : ∀ b, b ≠ a → (rtTableInvalidate c a n).rt b = n.rt b := by
    intro b hb
    unfold Node.rt
    rw [lookup_rtTableInvalidate, if_neg (Ne.symm hb)]
  have hroutes : ∀ b, b ∈ routesOver a (rtTableInvalidate c a n) ↔ b ≠ a ∧ (n.rt b).Over a := by
    intro b
    rw [(hwf.rtTableInvalidate (c := c) a).mem_routesOver]
    exact and_congr_right fun hb => by rw [hover b hb]
  have hlisted : ∀ m : Node, (∀ b, (m.rt b).nprec = (n.rt b).nprec) →
      ((∃ b ∈ routesOver a (rtTableInvalidate c a n), (m.rt b).nprec ≠ 0) ↔
        ∃ b, b ≠ a ∧ (n.rt b).Over a ∧ (n.rt b).nprec ≠ 0) := by
    intro m hm
    simp only [hroutes, hm, and_assoc]
  unfold linkBreakWalk Node.TellsOf
  dsimp only
  split
  · next hrepair =>
    obtain ⟨hmade, hplain⟩ := linkBreakVisits_made (c := c) (hasFlag (n.rt a).flags rtRepair)
      (routesOver a (rtTableInvalidate c a n)) (false, rtTableInvalidate c a n)
    refine ⟨?_, hplain nofun⟩
    rw [hmade, hlisted _ fun b => rtTableInvalidate_nprec a b n]
    simp [hrepair]
  · next hrepair =>
    obtain ⟨hmade, hplain⟩ := linkBreakVisits_made (c := c) (hasFlag (n.rt a).flags rtRepair)
      (routesOver a (rtTableInvalidate c a n)) (linkBreakRerr a (false, rtTableInvalidate c a n))
    have hnprec : ∀ b, ((linkBreakRerr a (false, rtTableInvalidate c a n)).2.rt b).nprec =
        (n.rt b).nprec := by
      intro b
      rw [← rtTableInvalidate_nprec (c := c) a b n]
      unfold Node.rt
      rw [lookup_of_routes (linkBreakRerr_routes a _)]
    refine ⟨?_, hplain (linkBreakRerr_plainError nofun)⟩
    rw [hmade, hlisted _ hnprec, linkBreakRerr_made, rtTableInvalidate_nprec]
    simp [hrepair]

theorem described_tellsUsers (log : ℚ → ℚ) (cf : Conf) (env : Env) :
    Ctx.TellsUsers ⟨cf, .described log cf, env⟩ := by
  constructor
  · intro a n hwf hquiet
    change (neighborLinkBreakDescribed _ a n).sendBuf = n.sendBuf
    unfold neighborLinkBreakDescribed
    dsimp only
    rw [if_neg fun hmade => hquiet ((linkBreakWalk_tells hwf).1.mp hmade)]
    exact linkBreakWalk_unmade (by simpa using fun h => hquiet ((linkBreakWalk_tells hwf).1.mp h))
  · intro a n hwf htells
    change (neighborLinkBreakDescribed _ a n).sendBuf.PlainError
    unfold neighborLinkBreakDescribed
    dsimp only
    rw [if_pos ((linkBreakWalk_tells hwf).1.mpr htells), aodvSocketSend_frame]
    exact (linkBreakWalk_tells hwf).2 ((linkBreakWalk_tells hwf).1.mpr htells)

/-- What a link break looks at before it tells anybody. -/
structure RtTable.SameUsers (rt rt' : RtTable) : Prop where
  nprec : rt'.nprec = rt.nprec
  state : rt'.state = rt.state
  nextHop : rt'.nextHop = rt.nextHop
  repair : hasFlag rt'.flags rtRepair = hasFlag rt.flags rtRepair

theorem RtTable.SameUsers.refl (rt : RtTable) : rt.SameUsers rt := ⟨rfl, rfl, rfl, rfl⟩

theorem Node.Entrywise.tellsOf {n n' : Node} (h : n.Entrywise RtTable.SameUsers n') (a : InAddr) :
    n'.TellsOf a ↔ n.TellsOf a := by
  have hrt : ∀ b, (n.rt b).SameUsers (n'.rt b) := by
    intro b
    have hrel := h b
    unfold Node.rt
    generalize n.lookup b = x, n'.lookup b = y at hrel
    cases hrel with
    | none => exact .refl default
    | some hsame => exact hsame
  unfold Node.TellsOf RtTable.Over
  rw [(hrt a).repair, (hrt a).nprec]
  refine or_congr_right (exists_congr fun b => ?_)
  rw [(hrt b).state, (hrt b).nextHop, (hrt b).nprec]

/-! ## Replies -/

/-- A call of `rrep_send` or `rrep_send_with_channel`: `node` is the state in which the reply is
built. -/
structure RrepCall where
  channel : Option Int
  rev : InAddr
  fwd : Option InAddr
  size : ℕ
  rrep : RREP
  node : Node

namespace RrepCall

def start (k : RrepCall) : Node := aodvSocketNewMsg (.rrep k.rrep) k.node

def send (c : Ctx) (k : RrepCall) : Node := rrepSendGen c k.channel k.rev k.fwd k.size k.start

/-- The state in which the call comes to `aodv_socket_send`. -/
def atSend (c : Ctx) (k : RrepCall) : Node :=
  let n := suspectUnidir c k.rev k.start
  setChannelNum (k.channel.getD n.channelNum) n

/-- The next hop is suspected, and the break of its link is told. -/
def Interrupted (c : Ctx) (k : RrepCall) : Prop :=
  k.node.Suspects c k.rev ∧ k.node.TellsOf (k.node.rt k.rev).nextHop

theorem send_eq (k : RrepCall) : k.send c = helloKeepAlive c
    (let n := aodvSocketSend c ((k.atSend c).rt k.rev).nextHop k.size maxTtl (k.atSend c)
    match k.fwd with
    | none => n
    | some fwd => addPrecursors fwd k.rev n) := rfl

theorem rrep_not_plainError (rrep : RREP) : ¬ (AodvMsg.rrep rrep).PlainError := by
  rintro ⟨e, he, -⟩
  cases he

end RrepCall

theorem hasFlag_repair_unidir (flags : BitVec 16) :
    hasFlag (flags ||| rtUnidir) rtRepair = hasFlag flags rtRepair := by
  have hand : (flags ||| rtUnidir) &&& rtRepair = flags &&& rtRepair := by
    rw [BitVec.and_or_distrib_right, show rtUnidir &&& rtRepair = 0#16 from rfl, BitVec.or_zero]
  unfold hasFlag
  rw [hand]

theorem suspectUnidir_sendBuf (h : c.TellsUsers) {n : Node} (hwf : RtWf n) {rev : InAddr}
    (hsus : n.Suspects c rev) :
    (¬ n.TellsOf (n.rt rev).nextHop → (suspectUnidir c rev n).sendBuf = n.sendBuf) ∧
    (n.TellsOf (n.rt rev).nextHop → (suspectUnidir c rev n).sendBuf.PlainError) := by
  obtain ⟨hlink, nb, hfind, hvalid, hack⟩ := hsus
  have hdest : nb.destAddr = (n.rt rev).nextHop := destAddr_of_rtTableFind hfind
  rw [← hdest]
  have hwf' : RtWf (n.modRt nb.destAddr fun rt =>
      { rt with flags := rt.flags ||| rtUnidir, helloTimer := rt.helloTimer.remove }) :=
    hwf.modRt _ (fun _ => rfl) (fun _ => rfl) fun _ hp => hp
  have hsame := (Node.Entrywise.modRt RtTable.SameUsers.refl nb.destAddr
    (f := fun rt => { rt with flags := rt.flags ||| rtUnidir, helloTimer := rt.helloTimer.remove })
    (fun _ => rfl) (fun rt => ⟨rfl, rfl, rfl, hasFlag_repair_unidir rt.flags⟩) n).tellsOf nb.destAddr
  have hbreak : (suspectUnidir c rev n).sendBuf = (c.ext.neighborLinkBreak c.env nb.destAddr
      (n.modRt nb.destAddr fun rt =>
        { rt with flags := rt.flags ||| rtUnidir, helloTimer := rt.helloTimer.remove })).sendBuf := by
    unfold suspectUnidir
    dsimp only
    rw [if_pos hlink, hfind]
    dsimp only
    rw [if_pos ⟨hvalid, by simp [hack]⟩]
    rfl
  rw [hbreak, ← hsame]
  exact ⟨fun hno => h.silent _ _ hwf' hno, h.builds _ _ hwf'⟩

theorem RrepCall.atSend_sendBuf_iff (h : c.TellsUsers) {k : RrepCall} (hwf : RtWf k.node) :
    (k.atSend c).sendBuf = .rrep k.rrep ↔ ¬ k.Interrupted c := by
  have hwf' : RtWf k.start := hwf.of_table rfl rfl
  change (suspectUnidir c k.rev k.start).sendBuf = .rrep k.rrep ↔
    ¬ (k.start.Suspects c k.rev ∧ k.start.TellsOf (k.start.rt k.rev).nextHop)
  by_cases hsus : k.start.Suspects c k.rev
  · obtain ⟨hsilent, hbuilds⟩ := suspectUnidir_sendBuf h hwf' hsus
    constructor
    · rintro hbuf ⟨-, htells⟩
      exact rrep_not_plainError k.rrep (hbuf ▸ hbuilds htells)
    · exact fun hno => hsilent fun htells => hno ⟨hsus, htells⟩
  · rw [suspectUnidir_of_not hsus]
    exact ⟨fun _ hint => hsus hint.1, fun _ => rfl⟩

/-- Every call of the two send functions transmits the reply that was built for it, unless the next
hop is suspected and somebody uses a route over it. -/
theorem reply_sent_iff (h : c.TellsUsers) {k : RrepCall} (hwf : RtWf k.node) :
    rrepSendGen c k.channel k.rev k.fwd k.size (aodvSocketNewMsg (.rrep k.rrep) k.node) =
      helloKeepAlive c
        (let n := aodvSocketSend c ((k.atSend c).rt k.rev).nextHop k.size maxTtl (k.atSend c)
        match k.fwd with
        | none => n
        | some fwd => addPrecursors fwd k.rev n) ∧
    ((k.atSend c).sendBuf = .rrep k.rrep ↔ ¬ k.Interrupted c) :=
  ⟨k.send_eq, RrepCall.atSend_sendBuf_iff h hwf⟩

/-- A reply of agent 1 to its neighbour 2, over which 7 has a route. -/
def usedReply : RrepCall where
  channel := none
  rev := 2
  fwd := none
  size := rrepSize
  rrep := rrepCreate 0 0 1 5 2 6000
  node := usedNode

def hackCtx (now : Time) : Ctx :=
  ⟨{ unidirHack := true }, .described sampleLog { unidirHack := true }, { now }⟩

theorem usedReply_sent : (usedReply.atSend (sampleCtx 1)).sendBuf = .rrep usedReply.rrep ∧
    (usedReply.atSend (hackCtx 1)).sendBuf ≠ .rrep usedReply.rrep := by
  constructor
  · refine (reply_sent_iff (k := usedReply) (described_tellsUsers sampleLog {} { now := 1 })
      usedNode_rtWf).2.mpr fun hint => ?_
    obtain ⟨⟨hlink, -⟩, -⟩ := hint
    exact absurd hlink (by decide +kernel)
  · intro hbuf
    refine (reply_sent_iff (k := usedReply)
      (described_tellsUsers sampleLog { unidirHack := true } { now := 1 }) usedNode_rtWf).2.mp hbuf
      ⟨⟨.inr (by decide +kernel), usedNode.rt 2, ?_⟩, .inl (by decide +kernel)⟩
    decide +kernel

/-! ## The RERR of the repairing node -/

theorem rtTableUpdateGen_sendBuf (h : c.TellsUsers) {n : Node} (hwf : RtWf n)
    (chan : Option (Int × ℚ)) (a next : InAddr) (hops : BitVec 8) (seqno life : BitVec 32)
    (state : RtState) (flags : BitVec 16) :
    (¬ ((n.rt a).Breaks hops ∧ n.TellsOf a) →
      (rtTableUpdateGen c chan a next hops seqno life state flags n).sendBuf = n.sendBuf) ∧
    ((n.rt a).Breaks hops ∧ n.TellsOf a →
      (rtTableUpdateGen c chan a next hops seqno life state flags n).sendBuf.PlainError) := by
  have hupdate : (rtTableUpdateGen c chan a next hops seqno life state flags n).sendBuf =
      (beforeUpdate c a hops state n).sendBuf := (flushSeek_frame a _).2
  rw [hupdate]
  by_cases hbreak : (n.rt a).Breaks hops
  · obtain ⟨n₁, hothers, hself, hbuf, hwf₁, heq⟩ := beforeUpdate_of_breaks (c := c) hbreak state
    have hsame : n.Entrywise RtTable.SameUsers n₁ := by
      intro b
      by_cases hb : b = a
      · rw [hb, hself]
        cases n.lookup a with
        | none => exact .none
        | some rt => exact .some ⟨rfl, rfl, rfl, rfl⟩
      · rw [hothers b hb]
        cases n.lookup b with
        | none => exact .none
        | some rt => exact .some (.refl rt)
    rw [heq, ← hbuf]
    refine ⟨fun hno => h.silent a n₁ (hwf₁ hwf) fun htells => hno ⟨hbreak, ?_⟩, fun hyes =>
      h.builds a n₁ (hwf₁ hwf) ((hsame.tellsOf a).mpr hyes.2)⟩
    exact (hsame.tellsOf a).mp htells
  · have hno : ¬ (1 < hops.toNat ∧ (n.rt a).hcnt = 1) := hbreak
    refine ⟨fun _ => ?_, fun hyes => absurd hyes.1 hbreak⟩
    unfold beforeUpdate
    dsimp only
    rw [if_neg hno]
    split <;> rfl

/-- What the walk writes for an entry that it has mended. -/
def lrWrite (a : InAddr) (s : LrRerr) (m : Option AodvMsg) : Option AodvMsg :=
  let rtU := s.node.rt a
  if rtU.nprec = 0 then m
  else
    match m with
    | some m => some (m.addUdest rtU.destAddr rtU.destSeqno)
    | none =>
      some (.rerr { rerrCreate (rerrNodelete ||| rerrLocalRepair) rtU.destAddr rtU.destSeqno with
        rerrId := s.node.rerrId
        rerrOriginAddr := s.node.ipaddr })

variable (c) in
def lrBuild (rrep : RREP) (ipSrc : InAddr) (p : LrRerr × Option AodvMsg) (a : InAddr) :
    LrRerr × Option AodvMsg :=
  match lrRepaired c rrep ipSrc a p.1.node with
  | none => p
  | some n => (lrRerrAdd a { p.1 with node := n }, lrWrite a { p.1 with node := n } p.2)

theorem PlainError.addUdest {m : AodvMsg} (u : InAddr) (v : BitVec 32) :
    (m.addUdest u v).PlainError ↔ m.PlainError := by
  constructor
  · rintro ⟨e, he, hlr⟩
    cases m with
    | rerr e' =>
      cases he
      exact ⟨e', rfl, hlr⟩
    | rreq | overlaid | rrep | rrepAck => cases he
  · rintro ⟨e, rfl, hlr⟩
    exact ⟨rerrAddUdest e u v, rfl, hlr⟩

/-- The repairing node holds its RERR across the updates of the entries that follow. -/
def lrHeld (hl : c.LinkBreaks {}) (ht : c.TellsUsers) (rrep : RREP) (ipSrc : InAddr) :
    HeldMessage LrRerr InAddr AodvMsg where
  ok s := RtWf s.node
  buf s := s.node.sendBuf
  made := LrRerr.made
  enter a s := (lrRepaired c rrep ipSrc a s.node).map fun n => { s with node := n }
  note := lrRerrAdd
  write := lrWrite
  foreign := AodvMsg.PlainError
  spoils a s := (s.node.rt a).Breaks ((s.node.rt a).mendedHops rrep) ∧ s.node.TellsOf a
  enter_ok := by
    intro a s s' hok henter
    obtain ⟨n, hn, rfl⟩ := Option.map_eq_some_iff.mp henter
    rw [lrRepaired_eq] at hn
    split at hn
    · next hmends =>
      cases hn
      exact hok.rtTableUpdateGen hl (lookup_ne_none_of_flag hmends.1) none _ _ _ _ _
    · cases hn
  enter_made := by
    intro a s s' henter
    obtain ⟨n, -, rfl⟩ := Option.map_eq_some_iff.mp henter
    rfl
  enter_buf := by
    intro a s s' hok henter
    obtain ⟨n, hn, rfl⟩ := Option.map_eq_some_iff.mp henter
    rw [lrRepaired_eq] at hn
    split at hn
    · cases hn
      exact (rtTableUpdateGen_sendBuf ht hok none a ipSrc _ _ _ _ _).1
    · cases hn
  enter_foreign := by
    intro a s s' hok henter
    obtain ⟨n, hn, rfl⟩ := Option.map_eq_some_iff.mp henter
    rw [lrRepaired_eq] at hn
    split at hn
    · cases hn
      exact (rtTableUpdateGen_sendBuf ht hok none a ipSrc _ _ _ _ _).2
    · cases hn
  note_ok := by
    intro a s hok
    exact rtWf_of_routes (lrRerrAdd_routes a s) hok
  note_made := by
    intro a s m hmade
    unfold lrRerrAdd lrWrite
    dsimp only
    split
    · exact hmade
    · cases m with
      | none => rw [hmade]; rfl
      | some m => rw [hmade]; rfl
  note_buf := by
    intro a s m hmade hbuf b hb
    unfold lrWrite at hb
    unfold lrRerrAdd
    dsimp only at hb ⊢
    split
    · next hzero =>
      rw [if_pos hzero] at hb
      exact hbuf b hb
    · next hzero =>
      rw [if_neg hzero] at hb
      cases m with
      | none =>
        rw [hmade]
        exact Option.some.inj hb
      | some m =>
        rw [hmade, ← Option.some.inj hb]
        exact congrArg (AodvMsg.addUdest _ _) (hbuf m rfl)
  note_foreign := by
    intro a s hmade hf
    unfold lrRerrAdd
    dsimp only
    split
    · exact hf
    · exact (PlainError.addUdest _ _).mpr hf
  write_own := by
    intro a s m hown b hb
    unfold lrWrite at hb
    dsimp only at hb
    split at hb
    · exact hown b hb
    · cases m with
      | none =>
        rintro ⟨e, he, hlr⟩
        cases hb
        cases he
        have hflag : hasFlag (rerrNodelete ||| rerrLocalRepair) rerrLocalRepair = false := hlr
        exact absurd hflag (by decide)
      | some m =>
        cases hb
        exact fun hf => hown m rfl ((PlainError.addUdest _ _).mp hf)
  write_some := by
    intro a s b
    unfold lrWrite
    dsimp only
    split <;> rfl

section Origin

variable {hl : c.LinkBreaks {}} {ht : c.TellsUsers} {rrep : RREP} {ipSrc : InAddr} {n : Node}

theorem lrHeld_next (s : LrRerr) (a : InAddr) :
    (lrHeld hl ht rrep ipSrc).next s a = lrRepairEntry c rrep ipSrc s a := by
  unfold HeldMessage.next lrRepairEntry lrHeld
  dsimp only
  cases lrRepaired c rrep ipSrc a s.node <;> rfl

theorem lrHeld_both (p : LrRerr × Option AodvMsg) (a : InAddr) :
    (lrHeld hl ht rrep ipSrc).both p a = lrBuild c rrep ipSrc p a := by
  unfold HeldMessage.both lrBuild lrHeld
  dsimp only
  cases lrRepaired c rrep ipSrc a p.1.node <;> rfl

end Origin

variable (c) in
def lrWalkOver (rrep : RREP) (ipSrc : InAddr) (n : Node) (l : List InAddr) : LrRerr :=
  l.foldl (lrRepairEntry c rrep ipSrc) { unicastDest := c.env.uninitAddr, node := n }

variable (c) in
def lrMessage (rrep : RREP) (ipSrc : InAddr) (n : Node) : Option AodvMsg :=
  ((n.entries.map (·.destAddr)).foldl (lrBuild c rrep ipSrc)
    ({ unicastDest := c.env.uninitAddr, node := n }, none)).2

variable (c) in
/-- An update behind the first entry listed breaks the link to a neighbour, and this is told. -/
def Node.LrInterrupted (n : Node) (rrep : RREP) (ipSrc : InAddr) : Prop :=
  ∃ l₁ a l₂, n.entries.map (·.destAddr) = l₁ ++ a :: l₂ ∧
    let s := lrWalkOver c rrep ipSrc n l₁
    s.made ∧ (s.node.rt a).Mends rrep ∧ (s.node.rt a).Breaks ((s.node.rt a).mendedHops rrep) ∧
      s.node.TellsOf a

/-- The repairing node sends the RERR that it has written, unless the walk is interrupted. -/
theorem repair_rerr_sent_iff (hl : c.LinkBreaks {}) (ht : c.TellsUsers) (rrep : RREP)
    (ipSrc : InAddr) {n : Node} (hwf : RtWf n) :
    rrepLrOrigin c rrep ipSrc n = lrRerrSend c (lrRerrWalk c rrep ipSrc n) ∧
    ((∀ m, lrMessage c rrep ipSrc n = some m → (lrRerrWalk c rrep ipSrc n).node.sendBuf = m) ↔
      ¬ n.LrInterrupted c rrep ipSrc) := by
  refine ⟨rfl, ?_⟩
  have hpaired : (lrHeld hl ht rrep ipSrc).Paired
      ({ unicastDest := c.env.uninitAddr, node := n }, none) := ⟨hwf, rfl, nofun⟩
  have hnext : (lrHeld hl ht rrep ipSrc).next = lrRepairEntry c rrep ipSrc :=
    funext fun s => funext (lrHeld_next s)
  have hboth : (lrHeld hl ht rrep ipSrc).both = lrBuild c rrep ipSrc :=
    funext fun p => funext (lrHeld_both p)
  have hwalk := HeldMessage.holds_foldl_iff hpaired nofun (n.entries.map (·.destAddr))
  rw [hnext] at hwalk
  have hend : (lrHeld hl ht rrep ipSrc).Holds ((n.entries.map (·.destAddr)).foldl
      (lrHeld hl ht rrep ipSrc).both ({ unicastDest := c.env.uninitAddr, node := n }, none)) ↔
      ∀ m, lrMessage c rrep ipSrc n = some m → (lrRerrWalk c rrep ipSrc n).node.sendBuf = m := by
    unfold HeldMessage.Holds
    rw [HeldMessage.foldl_both_fst, hnext, hboth]
    rfl
  have hint : ∀ s a, (lrHeld hl ht rrep ipSrc).Interrupts s a ↔ s.made ∧ (s.node.rt a).Mends rrep ∧
      (s.node.rt a).Breaks ((s.node.rt a).mendedHops rrep) ∧ s.node.TellsOf a := by
    intro s a
    have hsome : ((lrHeld hl ht rrep ipSrc).enter a s).isSome ↔ (s.node.rt a).Mends rrep := by
      change ((lrRepaired c rrep ipSrc a s.node).map _).isSome ↔ _
      rw [lrRepaired_eq]
      split_ifs with hmends <;> simp [hmends]
    unfold HeldMessage.Interrupts
    rw [hsome]
    rfl
  rw [← hend, hwalk]
  unfold Node.LrInterrupted lrWalkOver
  simp only [hint, not_exists, not_and]

theorem upstream_rerr_sent : ∃ m,
    lrMessage (repairCtx 2000) replyOverNeighbor 3 upstreamNode = some m ∧
      (lrRerrWalk (repairCtx 2000) replyOverNeighbor 3 upstreamNode).node.sendBuf = m := by
  have hsome : (lrMessage (repairCtx 2000) replyOverNeighbor 3 upstreamNode).isSome := by
    decide +kernel
  obtain ⟨m, hm⟩ := Option.isSome_iff_exists.mp hsome
  have hno : ¬ upstreamNode.LrInterrupted (repairCtx 2000) replyOverNeighbor 3 := by
    have hlist : upstreamNode.entries.map (·.destAddr) = [2, 9] := by decide +kernel
    have hhops : ((lrWalkOver (repairCtx 2000) replyOverNeighbor 3 upstreamNode [2]).node.rt 9).hcnt
        = 2 := by
      decide +kernel
    have hsplit : ∀ (l₁ : List InAddr) (a : InAddr) (l₂ : List InAddr), [2, 9] = l₁ ++ a :: l₂ →
        l₁ = [] ∨ l₁ = [2] ∧ a = 9 := by
      intro l₁ a l₂ heq
      match l₁ with
      | [] => exact .inl rfl
      | [b] =>
        obtain ⟨rfl, hrest⟩ := List.cons.inj heq
        exact .inr ⟨rfl, (List.cons.inj hrest).1.symm⟩
      | _ :: _ :: l₁ => exact absurd (congrArg List.length heq) (by simp)
    intro hint
    obtain ⟨l₁, a, l₂, heq, hmade, -, hbreaks, -⟩ := hint
    rw [hlist] at heq
    rcases hsplit l₁ a l₂ heq with hnil | ⟨hone, ha⟩
    · rw [hnil] at hmade
      cases hmade
    · rw [hone, ha] at hbreaks
      have hhop := hbreaks.2
      rw [hhops] at hhop
      exact absurd hhop (by decide)
  exact ⟨m, hm, (repair_rerr_sent_iff (described_linkBreaks sampleLog repairConf _)
    (described_tellsUsers sampleLog repairConf _) replyOverNeighbor 3 upstreamNode_rtWf).2.mpr hno m hm⟩

end AodvUU

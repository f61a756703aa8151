import AodvUU.Neighbor
import AodvUU.Emits
import AodvUU.Lib.SlidingWindow

/-! # The rate limit

What the two windows of `aodv_socket_send` hold after any sequence of calls. -/
namespace AodvUU

open SlidingWindow

variable {c : Ctx}

/-! ## One window -/

def SecondApart (s t : Time) : Prop := timevalAddMsec s 1000 ≤ t

instance : DecidableRel SecondApart := fun _ _ => inferInstanceAs (Decidable (_ ≤ _))

theorem secondApart_iff (s t : Int) : SecondApart s t ↔ 1000 ≤ timevalDiff t s := by
  show s + 1000 * 1000 ≤ t ↔ 1000 ≤ (t - s).tdiv 1000
  rcases le_or_gt 0 (t - s) with hle | hlt
  · rw [Int.tdiv_eq_ediv_of_nonneg hle]
    omega
  · have hneg : (t - s).tdiv 1000 ≤ 0 := by
      rw [← neg_neg (t - s), Int.neg_tdiv, neg_nonpos]
      exact Int.tdiv_nonneg (by omega) (by omega)
    omega

def Ratel.held (r : Ratel) : List Time := (List.range r.num).map r.stamp

theorem Ratel.held_length (r : Ratel) : r.held.length = r.num := by
  unfold Ratel.held
  rw [List.length_map, List.length_range]

theorem Ratel.held_push (r : Ratel) (t : Time) :
    (Ratel.mk (Function.update r.stamp r.num t) (r.num + 1)).held = r.held ++ [t] := by
  unfold Ratel.held
  rw [List.range_succ, List.map_append]
  congr 1
  · refine List.map_congr_left fun i hi => ?_
    exact Function.update_of_ne (List.mem_range.mp hi).ne t r.stamp
  · simp

theorem Ratel.held_shift (r : Ratel) (t : Time) {m : ℕ} (hm : r.num = m + 1) :
    r.held = r.stamp 0 :: r.held.tail ∧
    (Ratel.mk (fun i => if i < r.num - 1 then r.stamp (i + 1)
      else if i = r.num - 1 then t else r.stamp i) r.num).held = r.held.tail ++ [t] := by
  have htail : r.held = r.stamp 0 :: (List.range m).map fun i => r.stamp (i + 1) := by
    unfold Ratel.held
    rw [hm, List.range_succ_eq_map, List.map_cons, List.map_map]
    rfl
  refine ⟨by rw [htail]; rfl, ?_⟩
  rw [htail, List.tail_cons]
  unfold Ratel.held
  dsimp only
  rw [hm, List.range_succ, List.map_append, Nat.add_sub_cancel]
  congr 1
  · refine List.map_congr_left fun i hi => ?_
    exact if_pos (List.mem_range.mp hi)
  · simp

theorem Ratel.slide_held {limit : ℕ} (hlimit : 1 < limit) (now : Time) {r : Ratel}
    (hr : r.num ≤ limit - 1) :
    (r.slide limit now).map Ratel.held = admitted SecondApart (limit - 1) r.held now := by
  unfold Ratel.slide admitted
  rw [r.held_length]
  by_cases hfull : r.num = limit - 1
  · obtain ⟨hcons, hshift⟩ := r.held_shift now (m := limit - 2) (by omega)
    have hlen : ¬ r.num < limit - 1 := hfull.not_lt
    rw [if_pos hfull, if_neg hlen, hcons]
    dsimp only
    by_cases hfar : SecondApart (r.stamp 0) now
    · have hdiff := (secondApart_iff _ _).mp hfar
      rw [if_pos hfar, if_neg (not_lt.mpr hdiff), Option.map_some, hshift]
    · have hdiff := fun h => hfar ((secondApart_iff _ _).mpr h)
      rw [if_neg hfar, if_pos (not_le.mp hdiff)]
      rfl
  · rw [if_neg hfull, if_pos (by omega), Option.map_some, r.held_push]

/-- The window holds the last of the times at which its messages were transmitted, and these
keep their distance. -/
structure Ratel.Follows (limit : ℕ) (ts : List Time) (r : Ratel) : Prop where
  held : r.held = ts.rtake (limit - 1)
  spaced : Spaced SecondApart (limit - 1) ts

theorem Ratel.Follows.num_le {limit : ℕ} {ts : List Time} {r : Ratel} (h : r.Follows limit ts) :
    r.num ≤ limit - 1 := by
  rw [← r.held_length, h.held]
  simp only [List.rtake, List.length_drop]
  omega

theorem Ratel.follows_nil {limit : ℕ} {r : Ratel} (hr : r.num = 0) : r.Follows limit [] := by
  refine ⟨?_, spaced_nil⟩
  unfold Ratel.held
  rw [hr, List.rtake_nil]
  rfl

section
variable {limit : ℕ} {ts : List Time} {r : Ratel} {now : Time}

theorem Ratel.Follows.slide_eq_none (hlimit : 1 < limit) (h : r.Follows limit ts) :
    r.slide limit now = none ↔ ¬ Admits SecondApart (limit - 1) ts now := by
  classical
  have hslide := Ratel.slide_held hlimit now h.num_le
  rw [h.held, admit_rtake (by omega)] at hslide
  rw [← Option.map_eq_none_iff (f := Ratel.held), hslide]
  simp

theorem Ratel.Follows.slide {r' : Ratel} (hlimit : 1 < limit) (h : r.Follows limit ts)
    (hr' : r.slide limit now = some r') : r'.Follows limit (ts ++ [now]) := by
  classical
  have hadmits : Admits SecondApart (limit - 1) ts now := by
    by_contra hnot
    rw [(h.slide_eq_none hlimit).mpr hnot] at hr'
    cases hr'
  have hslide := Ratel.slide_held hlimit now h.num_le
  rw [hr', h.held, admit_rtake (by omega), if_pos hadmits] at hslide
  exact ⟨Option.some.inj hslide, spaced_concat (by omega) h.spaced hadmits⟩

end

/-! ## Calls -/

def transmits (c : Ctx) (n : Node) : Bool :=
  ¬ (n.waitOnReboot ∧ n.sendBuf.type = aodvRrep) ∧ (rateLimit c n).isSome

theorem aodvSocketSend_of_not_transmits {n : Node} (h : ¬ transmits c n) (dst : InAddr) (len : ℕ)
    (ttl : BitVec 8) : aodvSocketSend c dst len ttl n = n := by
  unfold aodvSocketSend
  split
  · rfl
  · next hreboot =>
    have hnone : rateLimit c n = none := by
      simpa [transmits, hreboot] using h
    rw [hnone]

theorem aodvSocketSend_of_transmits {n : Node} (h : transmits c n) (dst : InAddr) (len : ℕ)
    (ttl : BitVec 8) : ∃ n' t, rateLimit c n = some n' ∧ aodvSocketSend c dst len ttl n =
      sendPacket c (controlPacket dst len ttl n) dst 0 { n' with bcastTime := t } := by
  simp only [transmits, decide_eq_true_eq] at h
  obtain ⟨n', hn'⟩ := Option.isSome_iff_exists.mp h.2
  unfold aodvSocketSend
  rw [if_neg h.1, hn']
  dsimp only
  split
  · exact ⟨n', c.now, rfl, rfl⟩
  · exact ⟨n', n'.bcastTime, rfl, rfl⟩

/-- What a call adds to the messages transmitted, each with its type and time. -/
def transmission (c : Ctx) (n : Node) : List (BitVec 8 × Time) :=
  if transmits c n then [(n.sendBuf.type, c.now)] else []

/-- Sequences of calls of `aodv_socket_send` from `aodv_socket_init` on, with the messages
transmitted. Between two calls the agent does anything that leaves the windows alone. -/
inductive Sending (cf : Conf) (ext : Extern) : List (BitVec 8 × Time) → Node → Prop
  | init (n : Node) (hrreq : n.rreqRatel.num = 0) (hrerr : n.rerrRatel.num = 0) :
      Sending cf ext [] n
  | other {sent : List (BitVec 8 × Time)} {n n' : Node} (hrreq : n'.rreqRatel = n.rreqRatel)
      (hrerr : n'.rerrRatel = n.rerrRatel) : Sending cf ext sent n → Sending cf ext sent n'
  | call {sent : List (BitVec 8 × Time)} {n : Node} (env : Env) (dst : InAddr) (len : ℕ)
      (ttl : BitVec 8) : Sending cf ext sent n →
      Sending cf ext (sent ++ transmission ⟨cf, ext, env⟩ n)
        (aodvSocketSend ⟨cf, ext, env⟩ dst len ttl n)

def sentTimes (type : BitVec 8) (sent : List (BitVec 8 × Time)) : List Time :=
  (sent.filter (·.1 = type)).map (·.2)

structure RateWindows (sent : List (BitVec 8 × Time)) (n : Node) : Prop where
  rreq : n.rreqRatel.Follows rreqRatelimit (sentTimes aodvRreq sent)
  rerr : n.rerrRatel.Follows rerrRatelimit (sentTimes aodvRerr sent)

theorem sentTimes_concat_self (type : BitVec 8) (sent : List (BitVec 8 × Time)) (t : Time) :
    sentTimes type (sent ++ [(type, t)]) = sentTimes type sent ++ [t] := by
  simp [sentTimes, List.filter_append]

theorem sentTimes_concat_of_ne {type ty : BitVec 8} (h : ty ≠ type)
    (sent : List (BitVec 8 × Time)) (t : Time) :
    sentTimes type (sent ++ [(ty, t)]) = sentTimes type sent := by
  simp [sentTimes, List.filter_append, h]

theorem RateWindows.rateLimit (hrate : c.conf.ratelimit) {sent : List (BitVec 8 × Time)}
    {n n' : Node} (h : RateWindows sent n) (hn' : AodvUU.rateLimit c n = some n') :
    RateWindows (sent ++ [(n.sendBuf.type, c.now)]) n' := by
  unfold AodvUU.rateLimit at hn'
  rw [if_pos hrate] at hn'
  by_cases hrreq : n.sendBuf.type = aodvRreq
  · rw [if_pos hrreq] at hn'
    obtain ⟨r, hr, rfl⟩ := Option.map_eq_some_iff.mp hn'
    have hne : aodvRreq ≠ aodvRerr := by decide
    rw [hrreq]
    constructor
    · rw [sentTimes_concat_self]
      exact h.rreq.slide (by decide) hr
    · rw [sentTimes_concat_of_ne hne]
      exact h.rerr
  · rw [if_neg hrreq] at hn'
    by_cases hrerr : n.sendBuf.type = aodvRerr
    · rw [if_pos hrerr] at hn'
      obtain ⟨r, hr, rfl⟩ := Option.map_eq_some_iff.mp hn'
      constructor
      · rw [sentTimes_concat_of_ne hrreq]
        exact h.rreq
      · rw [hrerr, sentTimes_concat_self]
        exact h.rerr.slide (by decide) hr
    · rw [if_neg hrerr] at hn'
      cases hn'
      constructor
      · rw [sentTimes_concat_of_ne hrreq]
        exact h.rreq
      · rw [sentTimes_concat_of_ne hrerr]
        exact h.rerr

theorem RateWindows.of_eq {sent : List (BitVec 8 × Time)} {n n' : Node} (h : RateWindows sent n)
    (hrreq : n'.rreqRatel = n.rreqRatel) (hrerr : n'.rerrRatel = n.rerrRatel) :
    RateWindows sent n' := by
  constructor
  · rw [hrreq]
    exact h.rreq
  · rw [hrerr]
    exact h.rerr

theorem RateWindows.call (hrate : c.conf.ratelimit) {sent : List (BitVec 8 × Time)} {n : Node}
    (h : RateWindows sent n) (dst : InAddr) (len : ℕ) (ttl : BitVec 8) :
    RateWindows (sent ++ transmission c n) (aodvSocketSend c dst len ttl n) := by
  unfold transmission
  by_cases ht : transmits c n
  · obtain ⟨n', t, hn', heq⟩ := aodvSocketSend_of_transmits ht dst len ttl
    rw [if_pos ht, heq, sendPacket_eq]
    exact (h.rateLimit hrate hn').of_eq rfl rfl
  · rw [if_neg ht, List.append_nil, aodvSocketSend_of_not_transmits ht]
    exact h

theorem Sending.rateWindows {cf : Conf} {ext : Extern} (hrate : cf.ratelimit)
    {sent : List (BitVec 8 × Time)} {n : Node} (h : Sending cf ext sent n) :
    RateWindows sent n := by
  induction h with
  | init n hrreq hrerr => exact ⟨Ratel.follows_nil hrreq, Ratel.follows_nil hrerr⟩
  | other hrreq hrerr _ ih => exact ih.of_eq hrreq hrerr
  | call env dst len ttl _ ih => exact ih.call hrate dst len ttl

theorem transmits_rreq_iff (hrate : c.conf.ratelimit) {sent : List (BitVec 8 × Time)} {n : Node}
    (h : RateWindows sent n) (ht : n.sendBuf.type = aodvRreq) :
    transmits c n ↔ Admits SecondApart (rreqRatelimit - 1) (sentTimes aodvRreq sent) c.now := by
  have hslide := @Ratel.Follows.slide_eq_none _ _ _ c.now (by decide) h.rreq
  have hne : aodvRreq ≠ aodvRrep := by decide
  rw [← not_iff_not, ← hslide]
  simp [transmits, AodvUU.rateLimit, hrate, ht, hne]

theorem transmits_rerr_iff (hrate : c.conf.ratelimit) {sent : List (BitVec 8 × Time)} {n : Node}
    (h : RateWindows sent n) (ht : n.sendBuf.type = aodvRerr) :
    transmits c n ↔ Admits SecondApart (rerrRatelimit - 1) (sentTimes aodvRerr sent) c.now := by
  have hslide := @Ratel.Follows.slide_eq_none _ _ _ c.now (by decide) h.rerr
  have hne : aodvRerr ≠ aodvRrep ∧ aodvRerr ≠ aodvRreq := by decide
  rw [← not_iff_not, ← hslide]
  simp [transmits, AodvUU.rateLimit, hrate, ht, hne]

theorem aodvSocketSend_windows (dst : InAddr) (len : ℕ) (ttl : BitVec 8) (n : Node) :
    (n.sendBuf.type ≠ aodvRreq → (aodvSocketSend c dst len ttl n).rreqRatel = n.rreqRatel) ∧
    (n.sendBuf.type ≠ aodvRerr → (aodvSocketSend c dst len ttl n).rerrRatel = n.rerrRatel) := by
  by_cases ht : transmits c n
  · obtain ⟨n', t, hn', heq⟩ := aodvSocketSend_of_transmits ht dst len ttl
    rw [heq, sendPacket_eq]
    dsimp only
    unfold AodvUU.rateLimit at hn'
    split at hn'
    · split at hn'
      · next hrreq =>
        obtain ⟨r, -, rfl⟩ := Option.map_eq_some_iff.mp hn'
        exact ⟨fun h => absurd hrreq h, fun _ => rfl⟩
      · split at hn'
        · next hrerr =>
          obtain ⟨r, -, rfl⟩ := Option.map_eq_some_iff.mp hn'
          exact ⟨fun _ => rfl, fun h => absurd hrerr h⟩
        · cases hn'
          exact ⟨fun _ => rfl, fun _ => rfl⟩
    · cases hn'
      exact ⟨fun _ => rfl, fun _ => rfl⟩
  · rw [aodvSocketSend_of_not_transmits ht]
    exact ⟨fun _ => rfl, fun _ => rfl⟩

/-- With `ratelimit` on, any `RREQ_RATELIMIT` consecutive requests that are transmitted span a
second, and so do the route errors. Either window decides for its own type alone, and a message
that it drops changes nothing. -/
theorem sends_are_rate_limited {cf : Conf} {ext : Extern} (hrate : cf.ratelimit)
    {sent : List (BitVec 8 × Time)} {n : Node} (h : Sending cf ext sent n) :
    (∀ i (hi : i + (rreqRatelimit - 1) < (sentTimes aodvRreq sent).length),
      (sentTimes aodvRreq sent)[i] + 1000000 ≤
        (sentTimes aodvRreq sent)[i + (rreqRatelimit - 1)]) ∧
    (∀ i (hi : i + (rerrRatelimit - 1) < (sentTimes aodvRerr sent).length),
      (sentTimes aodvRerr sent)[i] + 1000000 ≤
        (sentTimes aodvRerr sent)[i + (rerrRatelimit - 1)]) ∧
    n.rreqRatel.num ≤ rreqRatelimit - 1 ∧ n.rerrRatel.num ≤ rerrRatelimit - 1 ∧
    ∀ (env : Env) (dst : InAddr) (len : ℕ) (ttl : BitVec 8),
      (n.sendBuf.type = aodvRreq → (transmits ⟨cf, ext, env⟩ n ↔
        Admits SecondApart (rreqRatelimit - 1) (sentTimes aodvRreq sent) env.now)) ∧
      (n.sendBuf.type = aodvRerr → (transmits ⟨cf, ext, env⟩ n ↔
        Admits SecondApart (rerrRatelimit - 1) (sentTimes aodvRerr sent) env.now)) ∧
      (n.sendBuf.type ≠ aodvRreq →
        (aodvSocketSend ⟨cf, ext, env⟩ dst len ttl n).rreqRatel = n.rreqRatel) ∧
      (n.sendBuf.type ≠ aodvRerr →
        (aodvSocketSend ⟨cf, ext, env⟩ dst len ttl n).rerrRatel = n.rerrRatel) ∧
      (¬ transmits ⟨cf, ext, env⟩ n → aodvSocketSend ⟨cf, ext, env⟩ dst len ttl n = n) := by
  have hw := h.rateWindows hrate
  refine ⟨hw.rreq.spaced, hw.rerr.spaced, hw.rreq.num_le, hw.rerr.num_le, ?_⟩
  intro env dst len ttl
  obtain ⟨hrreq, hrerr⟩ := aodvSocketSend_windows (c := ⟨cf, ext, env⟩) dst len ttl n
  exact ⟨transmits_rreq_iff hrate hw, transmits_rerr_iff hrate hw, hrreq, hrerr,
    fun ht => aodvSocketSend_of_not_transmits ht dst len ttl⟩

/-! ## A burst of requests -/

/-- Calls with a request in the buffer, at the given times. -/
def burst : List Time → List (BitVec 8 × Time) × Node
  | [] => ([], { Node.init (sampleCtx 0) 1 with sendBuf := .rreq { type := aodvRreq } })
  | t :: ts =>
    let c : Ctx := ⟨{ ratelimit := true }, .described sampleLog {}, { now := t }⟩
    ((burst ts).1 ++ transmission c (burst ts).2,
      aodvSocketSend c aodvBroadcast rreqSize 1 (burst ts).2)

theorem burst_sending (ts : List Time) :
    Sending { ratelimit := true } (.described sampleLog {}) (burst ts).1 (burst ts).2 := by
  induction ts with
  | nil => exact .init _ rfl rfl
  | cons t ts ih => exact .call { now := t } aodvBroadcast rreqSize 1 ih

/-- Ten requests at once and one a second later: the tenth is dropped. -/
theorem burst_rate_limited :
    sentTimes aodvRreq (burst (1000000 :: List.replicate 10 0)).1 =
      List.replicate 9 0 ++ [1000000] ∧
    (burst (1000000 :: List.replicate 10 0)).2.rreqRatel.num ≤ 9 :=
  ⟨by decide +kernel, (sends_are_rate_limited rfl (burst_sending _)).2.2.1⟩

end AodvUU

import Mathlib.Tactic.Ring
import NewApi.Lib.SlidingWindow

/-!
# Token buckets

A bucket is filled at a rate up to its capacity, and an event takes its cost out of it. What a bucket holds says how many events
there have been: at least what has come in since a time, up to the capacity, is in it or has been taken since then, and no more
than a full bucket and what has come in is (`Sound`). So a bucket whose width fills it refuses only where the window is full
(`Sound.refused`), but what it admits within a window is bounded by a full bucket and what comes in during it
(`Sound.spend_atMost`). Logs have the newest event first.
-/

namespace NewApi.TokenBucket

open SlidingWindow

/-- The events after a time. -/
def since (start : Int) (log : List Int) : ℕ := log.countP fun t => start < t

/-- The events from a time on. -/
def sinceIncl (start : Int) (log : List Int) : ℕ := log.countP fun t => start ≤ t

/-- What a bucket holds after a while. -/
def refill (rate capacity tokens elapsed : Int) : Int := min capacity (tokens + elapsed * rate)

/-- The tokens of a bucket at a time, after the events of a log. -/
structure Sound (cost rate capacity now : Int) (log : List Int) (tokens : Int) : Prop where
  past : Until now log
  nonneg : 0 ≤ tokens
  le_capacity : tokens ≤ capacity
  lower : ∀ start, min capacity ((now - start) * rate) ≤ tokens + cost * since start log
  upper : ∀ start ≤ now, tokens + cost * sinceIncl start log ≤ capacity + (now - start) * rate

section
variable {cost rate capacity now now' start width tokens : Int} {n k : ℕ} {log : List Int}

theorem since_nonneg (hcost : 0 ≤ cost) : 0 ≤ cost * (since start log : Int) := mul_nonneg hcost (Int.natCast_nonneg _)

theorem sinceIncl_eq_zero (h : ∀ t ∈ log, t < start) : sinceIncl start log = 0 :=
  List.countP_eq_zero.2 fun t ht hle => absurd (of_decide_eq_true hle) (Int.not_le.2 (h t ht))

theorem since_cons_of_lt (h : start < now) : since start (now :: log) = since start log + 1 :=
  List.countP_cons_of_pos (decide_eq_true h)

theorem sinceIncl_cons_of_le (h : start ≤ now) : sinceIncl start (now :: log) = sinceIncl start log + 1 :=
  List.countP_cons_of_pos (decide_eq_true h)

/-- The window before a time has the events after its start. -/
theorem recent_eq_since : recent width now log = since (now - width) log :=
  List.countP_congr fun t _ => by
    rw [decide_eq_true_eq, decide_eq_true_eq]
    omega

theorem within_le_sinceIncl : within width start log ≤ sinceIncl start log :=
  List.countP_mono_left fun _ _ h => decide_eq_true (of_decide_eq_true h).1

namespace Sound

/-- A full bucket. -/
theorem full (hcapacity : 0 ≤ capacity) (hrate : 0 ≤ rate) : Sound cost rate capacity now [] capacity where
  past := Until.nil
  nonneg := hcapacity
  le_capacity := le_rfl
  lower start := by
    have hzero : since start [] = 0 := rfl
    simp [hzero]
  upper start hstart := by
    have hzero : sinceIncl start [] = 0 := rfl
    have hfill := mul_nonneg (Int.sub_nonneg.2 hstart) hrate
    simp [hzero, hfill]

/-- The bucket is filled while time goes on. -/
theorem refill (h : Sound cost rate capacity now log tokens) (hnow : now ≤ now') (hcost : 0 ≤ cost) (hrate : 0 ≤ rate) :
    Sound cost rate capacity now' log (refill rate capacity tokens (now' - now)) := by
  have hin : 0 ≤ (now' - now) * rate := mul_nonneg (Int.sub_nonneg.2 hnow) hrate
  have hsplit (start : Int) : (now' - start) * rate = (now - start) * rate + (now' - now) * rate := by ring
  have hle := h.le_capacity
  have hnonneg := h.nonneg
  unfold TokenBucket.refill
  refine ⟨h.past.mono hnow, by omega, min_le_left _ _, fun start => ?_, fun start hstart => ?_⟩
  · have hevents : 0 ≤ cost * (since start log : Int) := since_nonneg hcost
    have hlower := h.lower start
    have hsum := hsplit start
    omega
  · rcases le_or_gt start now with hbefore | hafter
    · have hupper := h.upper start hbefore
      have hsum := hsplit start
      omega
    · have hnone : sinceIncl start log = 0 := sinceIncl_eq_zero fun t ht => (h.past.le_now t ht).trans_lt hafter
      have hfill : 0 ≤ (now' - start) * rate := mul_nonneg (Int.sub_nonneg.2 hstart) hrate
      rw [hnone, Int.natCast_zero, mul_zero]
      omega

/-- An event takes its cost out of the bucket. -/
theorem spend (h : Sound cost rate capacity now log tokens) (hfits : cost ≤ tokens) (hcost : 0 ≤ cost) (hrate : 0 ≤ rate) :
    Sound cost rate capacity now (now :: log) (tokens - cost) := by
  have hle := h.le_capacity
  refine ⟨h.past.cons le_rfl, by omega, by omega, fun start => ?_, fun start hstart => ?_⟩
  · rcases lt_or_ge start now with hbefore | hafter
    · have hlower := h.lower start
      rw [since_cons_of_lt hbefore, Int.natCast_succ, mul_add, mul_one]
      omega
    · have hempty : (now - start) * rate ≤ 0 := mul_nonpos_of_nonpos_of_nonneg (sub_nonpos.2 hafter) hrate
      have hevents : 0 ≤ cost * (since start (now :: log) : Int) := since_nonneg hcost
      omega
  · have hupper := h.upper start hstart
    rw [sinceIncl_cons_of_le hstart, Int.natCast_succ, mul_add, mul_one]
    omega

/-- A bucket that its width fills has too little only where the window is full. -/
theorem refused (h : Sound cost rate capacity now log tokens) (hempty : tokens < cost) (hcost : 0 < cost)
    (hcapacity : capacity = n * cost) (hwidth : width * rate = capacity) : n ≤ recent width now log := by
  rw [recent_eq_since]
  have hlower := h.lower (now - width)
  rw [sub_sub_cancel, hwidth, min_self, hcapacity] at hlower
  have hlt : cost * (n : Int) < cost * (since (now - width) log + 1) := by
    rw [mul_add, mul_one, mul_comm cost]
    omega
  have hn := lt_of_mul_lt_mul_left hlt hcost.le
  omega

/-- What is admitted in a window comes out of a full bucket and what comes in during the window. -/
theorem spend_atMost (h : Sound cost rate capacity now log tokens) (hfits : cost ≤ tokens) (hcost : 0 < cost) (hrate : 0 ≤ rate)
    (hk : capacity + (width - 1) * rate < (k + 1) * cost) (hlog : AtMost k width log) : AtMost k width (now :: log) := by
  intro start
  by_cases hin : start ≤ now ∧ now < start + width
  · have hafter := h.spend hfits hcost.le hrate
    have hupper := hafter.upper start hin.1
    have hnonneg := hafter.nonneg
    have hfill : (now - start) * rate ≤ (width - 1) * rate := mul_le_mul_of_nonneg_right (by omega) hrate
    have hlt : cost * (sinceIncl start (now :: log) : Int) < cost * (k + 1) := by
      rw [mul_comm cost (_ + 1)]
      omega
    have hcount := lt_of_mul_lt_mul_left hlt hcost.le
    exact within_le_sinceIncl.trans (by omega)
  · have hsame : within width start (now :: log) = within width start log :=
      List.countP_cons_of_neg fun hdec => hin (of_decide_eq_true hdec)
    rw [hsame]
    exact hlog start

end Sound

end

end NewApi.TokenBucket

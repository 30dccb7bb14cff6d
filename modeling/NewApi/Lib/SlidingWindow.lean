import Mathlib.Algebra.Order.Ring.Int
import Mathlib.Data.List.Basic

/-!
# Sliding windows

A limiter that admits so many events within a duration need not know all events: it keeps the newest ones, at most as
many as it admits, and may forget all once they are out of the window. The window is full just when it keeps as many as
it admits, and the oldest of them is still in the window (`Keeps.full_iff`). Logs have the newest event first.
-/

namespace NewApi.SlidingWindow

section
variable {n : Nat} {width now now' : Int} {log kept : List Int}

/-- The events in the window. -/
def recent (width now : Int) (log : List Int) : Nat := log.countP fun t => now - t < width

/-- What is kept of a log: its newest events, as many as are admitted or all that are in the window. -/
structure Keeps (n : Nat) (width now : Int) (log kept : List Int) : Prop where
  isPrefix : kept <+: log
  length_le : kept.length ≤ n
  rest : kept.length < n → ∀ t ∈ log.drop kept.length, width ≤ now - t

/-- A log until a time: the newest event first, and none later. -/
structure Until (now : Int) (log : List Int) : Prop where
  sorted : log.Pairwise (· ≥ ·)
  le_now : ∀ t ∈ log, t ≤ now

theorem Until.nil : Until now [] := ⟨List.Pairwise.nil, fun _ ht => absurd ht List.not_mem_nil⟩

theorem Until.mono (h : Until now log) (hnow : now ≤ now') : Until now' log :=
  ⟨h.sorted, fun t ht => (h.le_now t ht).trans hnow⟩

/-- A new event is logged. -/
theorem Until.cons (h : Until now log) (hnow : now ≤ now') : Until now' (now' :: log) := by
  refine ⟨List.pairwise_cons.2 ⟨fun t ht => (h.le_now t ht).trans hnow, h.sorted⟩, fun t ht => ?_⟩
  rcases List.mem_cons.1 ht with rfl | ht
  · exact le_rfl
  · exact (h.le_now t ht).trans hnow

theorem recent_eq_zero (h : ∀ t ∈ log, width ≤ now - t) : recent width now log = 0 :=
  List.countP_eq_zero.2 fun t ht hrecent => absurd (of_decide_eq_true hrecent) (Int.not_lt.2 (h t ht))

theorem recent_eq_length (h : ∀ t ∈ log, now - t < width) : recent width now log = log.length :=
  List.countP_eq_length.2 fun t ht => decide_eq_true (h t ht)

theorem recent_append {log' : List Int} : recent width now (log ++ log') = recent width now log + recent width now log' :=
  List.countP_append

/-- The window is full just when as many are kept as are admitted, and the oldest of them is in the window. -/
theorem Keeps.full_iff (h : Keeps n width now log kept) (hn : 0 < n) (hsorted : log.Pairwise (· ≥ ·)) :
    n ≤ recent width now log ↔ kept.length = n ∧ ∀ t ∈ kept.getLast?, now - t < width := by
  obtain ⟨rest, rfl⟩ := h.isPrefix
  have hle : recent width now kept ≤ kept.length := List.countP_le_length
  rw [recent_append]
  rcases h.length_le.lt_or_eq with hlt | heq
  · have hrest : recent width now rest = 0 := recent_eq_zero fun t ht => h.rest hlt t (by rwa [List.drop_left])
    exact iff_of_false (by omega) fun hand => by omega
  · rw [and_iff_right heq]
    obtain ⟨newer, oldest, rfl⟩ : ∃ newer oldest, kept = newer ++ [oldest] := by
      rcases List.eq_nil_or_concat kept with rfl | ⟨newer, oldest, rfl⟩
      · rw [List.length_nil] at heq
        omega
      · exact ⟨newer, oldest, List.concat_eq_append⟩
    rw [List.getLast?_concat]
    obtain ⟨hkept, -, hacross⟩ := List.pairwise_append.1 hsorted
    constructor
    · intro hfull t ht
      obtain rfl := Option.some.inj ht
      by_contra hout
      have hrest : recent width now rest = 0 := recent_eq_zero fun t ht => by
        have hge := hacross oldest (List.mem_append_right _ (List.mem_singleton.2 rfl)) t ht
        omega
      have holdest : recent width now [oldest] = 0 := recent_eq_zero fun t ht => by
        rw [List.mem_singleton.1 ht]
        omega
      have hnewer : recent width now newer ≤ newer.length := List.countP_le_length
      rw [recent_append, holdest, hrest] at hfull
      rw [List.length_append, List.length_singleton] at heq
      omega
    · intro holdest
      have hall : ∀ t ∈ newer ++ [oldest], now - t < width := by
        intro t ht
        have hin := holdest oldest rfl
        rcases List.mem_append.1 ht with hnewer | hlast
        · have hge := (List.pairwise_append.1 hkept).2.2 t hnewer oldest (List.mem_singleton.2 rfl)
          omega
        · rwa [List.mem_singleton.1 hlast]
      rw [recent_eq_length hall, heq]
      exact Nat.le_add_right n _

/-- What is kept stays enough while time goes on. -/
theorem Keeps.mono (h : Keeps n width now log kept) (hnow : now ≤ now') : Keeps n width now' log kept :=
  ⟨h.isPrefix, h.length_le, fun hlt t ht => by
    have hout := h.rest hlt t ht
    omega⟩

/-- A new event is kept before the others. -/
theorem Keeps.push (h : Keeps n width now log kept) (t : Int) : Keeps n width now (t :: log) ((t :: kept).take n) := by
  obtain ⟨rest, rfl⟩ := h.isPrefix
  refine ⟨?_, List.length_take_le _ _, fun hlt x hx => ?_⟩
  · rw [← List.cons_append]
    exact (List.take_prefix n (t :: kept)).trans (List.prefix_append _ _)
  · rw [List.length_take, List.length_cons] at hlt
    have hshort : kept.length < n := by omega
    rw [List.take_of_length_le (by rw [List.length_cons]; omega), List.length_cons, List.drop_succ_cons] at hx
    exact h.rest hshort x hx

/-- The newest events of a log are enough to keep. -/
theorem Keeps.take : Keeps n width now log (log.take n) := by
  refine ⟨List.take_prefix n log, List.length_take_le n log, fun hlt t ht => ?_⟩
  rw [List.length_take] at hlt
  rw [List.take_of_length_le (by omega), List.drop_length] at ht
  exact absurd ht List.not_mem_nil

/-- Of a log and one more event, the newest are the newest of that event and those kept before. -/
theorem take_cons_take {t : Int} : (t :: log.take n).take n = (t :: log).take n := by
  cases n with
  | zero => rfl
  | succ n => rw [List.take_succ_cons, List.take_succ_cons, List.take_take, Nat.min_eq_left (Nat.le_succ n)]

/-- The events in the interval of the window's width from a time on. -/
def within (width start : Int) (log : List Int) : Nat := log.countP fun t => start ≤ t ∧ t < start + width

/-- No interval of the window's width has more events than are admitted. -/
def AtMost (n : Nat) (width : Int) (log : List Int) : Prop := ∀ start, within width start log ≤ n

theorem AtMost.nil : AtMost n width [] := fun _ => Nat.zero_le n

/-- There is room in every interval for an event at a time when the window is not full. -/
theorem AtMost.cons (h : AtMost n width log) (hlog : Until now log) (hroom : recent width now log < n) :
    AtMost n width (now :: log) := by
  intro start
  unfold within
  rw [List.countP_cons]
  split
  next hin =>
    have hstart := of_decide_eq_true hin
    have hwithin : within width start log ≤ recent width now log := by
      refine List.countP_mono_left fun t ht hbounds => ?_
      have hbounds' := of_decide_eq_true hbounds
      have hle := hlog.le_now t ht
      exact decide_eq_true (by omega)
    unfold within at hwithin
    omega
  next => exact h start

/-- All may be forgotten once they are out of the window. -/
theorem Keeps.nil (h : ∀ t ∈ log, width ≤ now - t) : Keeps n width now log [] :=
  ⟨List.nil_prefix, Nat.zero_le n, fun _ t ht => h t ht⟩

/-- In a log out of the window where its newest event is. -/
theorem out_of_head (hsorted : log.Pairwise (· ≥ ·)) (h : ∀ t ∈ log.head?, width ≤ now - t) :
    ∀ t ∈ log, width ≤ now - t := by
  cases log with
  | nil => exact fun t ht => absurd ht List.not_mem_nil
  | cons newest older =>
    have hnewest := h newest rfl
    rintro t (_ | ⟨_, ht⟩)
    · exact hnewest
    · have hge := (List.pairwise_cons.1 hsorted).1 t ht
      omega

end

end NewApi.SlidingWindow

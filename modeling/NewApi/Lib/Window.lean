import Mathlib.Algebra.BigOperators.Group.List.Basic
import Mathlib.Algebra.Order.Ring.Int

/-!
# Counters over the current window of time

Time is cut into windows, and `start t` names the window of `t`: it grows with time, and two times are in one
window when it is the same for both. A counter holds a sum and the window that the sum is of. It is not reset
when a window ends but read through `current`, which takes it to be empty when its window is over.

A counter `Counts` the entries of a ledger when what is read of it is the sum of the entries in the current
window. This is kept as time goes on (`Counts.elapse`) and when an entry is added to both (`Counts.charge`), and
it is lost when an entry other than zero is added to the ledger alone (`Counts.skip_iff`).
-/

namespace NewApi.Window

structure Counter where
  since : Int
  used : Int
deriving DecidableEq

section
variable (start : Int → Int)

/-- The counter as it is read: empty, when its window is over. -/
def Counter.current (now : Int) (c : Counter) : Counter :=
  if c.since < start now then ⟨start now, 0⟩ else c

/-- The counter after an entry at some time. -/
def Counter.add (now quota : Int) (c : Counter) : Counter :=
  { c.current start now with used := (c.current start now).used + quota }

/-- The sum of the entries in the window of a time. -/
def net (now : Int) (ledger : List (Int × Int)) : Int :=
  ((ledger.filter fun e => start e.1 = start now).map Prod.snd).sum

/-- A counter of the current window or an earlier one counts the entries of a ledger, which are all past. -/
structure Counts (now : Int) (ledger : List (Int × Int)) (c : Counter) : Prop where
  since_le : c.since ≤ start now
  past : ∀ e ∈ ledger, e.1 ≤ now
  used : (c.current start now).used = net start now ledger

variable {start} {now now' quota : Int} {ledger : List (Int × Int)} {c : Counter}

theorem net_append (e : Int × Int) :
    net start now (ledger ++ [e]) = net start now ledger + if start e.1 = start now then e.2 else 0 := by
  unfold net
  rw [List.filter_append, List.map_append, List.sum_append]
  by_cases h : start e.1 = start now
  · rw [if_pos h, List.filter_cons_of_pos (by simpa using h), List.filter_nil, List.map_singleton,
      List.sum_singleton]
  · rw [if_neg h, List.filter_cons_of_neg (by simpa using h), List.filter_nil, List.map_nil, List.sum_nil]

/-- An entry of now is in the current window. -/
theorem net_append_now : net start now (ledger ++ [(now, quota)]) = net start now ledger + quota := by
  rw [net_append, if_pos rfl]

/-- A new window has no entries yet. -/
theorem net_eq_zero (hmono : ∀ t t', t ≤ t' → start t ≤ start t') (hpast : ∀ e ∈ ledger, e.1 ≤ now) (hlt : start now < start now') :
    net start now' ledger = 0 := by
  have hnone : ledger.filter (fun e => start e.1 = start now') = [] := by
    rw [List.filter_eq_nil_iff]
    intro e he
    have hle := hmono _ _ (hpast e he)
    simp only [decide_eq_true_eq]
    omega
  unfold net
  rw [hnone, List.map_nil, List.sum_nil]

/-- What is read of a counter is of the current window. -/
theorem current_since (h : c.since ≤ start now) : (c.current start now).since = start now := by
  unfold Counter.current
  split
  · rfl
  · omega

theorem current_of_since (h : c.since = start now) : c.current start now = c := by
  rw [Counter.current, if_neg (by omega)]

/-- A counter counts on as time passes. -/
theorem Counts.elapse (hmono : ∀ t t', t ≤ t' → start t ≤ start t') (h : Counts start now ledger c) (hle : now ≤ now') :
    Counts start now' ledger c := by
  have hstart := hmono _ _ hle
  have hsince := h.since_le
  refine ⟨hsince.trans hstart, fun e he => (h.past e he).trans hle, ?_⟩
  rcases hstart.eq_or_lt with heq | hlt
  · have hused := h.used
    unfold Counter.current net at hused ⊢
    rw [← heq]
    exact hused
  · rw [net_eq_zero hmono h.past hlt, Counter.current, if_pos (by omega)]

/-- A counter counts the same when it is reset. -/
theorem Counts.reset (h : Counts start now ledger c) : Counts start now ledger (c.current start now) := by
  have hsince := current_since h.since_le
  refine ⟨hsince.le, h.past, ?_⟩
  rw [current_of_since hsince]
  exact h.used

theorem past_append (hpast : ∀ e ∈ ledger, e.1 ≤ now) : ∀ e ∈ ledger ++ [(now, quota)], e.1 ≤ now := by
  intro e he
  rcases List.mem_append.1 he with he | he
  · exact hpast e he
  · rw [List.mem_singleton.1 he]

/-- A counter to which an entry is added counts it. -/
theorem Counts.charge (h : Counts start now ledger c) :
    Counts start now (ledger ++ [(now, quota)]) (c.add start now quota) := by
  have hsince : (c.add start now quota).since = start now := current_since h.since_le
  refine ⟨hsince.le, past_append h.past, ?_⟩
  rw [current_of_since hsince, net_append_now, ← h.used]
  rfl

/-- A counter that is left as it is counts a new entry just when the entry is zero. -/
theorem Counts.skip_iff (h : Counts start now ledger c) :
    Counts start now (ledger ++ [(now, quota)]) c ↔ quota = 0 := by
  have hused := h.used
  constructor
  · intro h'
    have hused' := h'.used
    rw [net_append_now] at hused'
    omega
  · intro hzero
    refine ⟨h.since_le, past_append h.past, ?_⟩
    rw [net_append_now, hzero, Int.add_zero]
    exact hused

/-- A counter whose window is over and to which an entry is added without a reset does not count it. -/
theorem not_counts_stale (h : Counts start now ledger c) (hover : c.since < start now) (hquota : quota ≠ 0) :
    ¬ Counts start now (ledger ++ [(now, quota)]) { c with used := c.used + quota } := by
  intro h'
  have hused := h.used
  have hused' := h'.used
  rw [Counter.current, if_pos hover] at hused hused'
  rw [net_append_now] at hused'
  dsimp only at hused hused'
  omega

end

end NewApi.Window

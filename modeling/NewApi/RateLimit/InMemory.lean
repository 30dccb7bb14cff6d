import Mathlib.Logic.Function.Basic
import Mathlib.Order.Basic
import Mathlib.Algebra.Order.Ring.Int

/-!
# The rate limiter in memory

`InMemoryRateLimiter` keeps, under a key, the times of the last requests that it let through, as many as are allowed
within a duration. A request is let through when there are fewer, or when the oldest of them is out of the duration.
Times and durations are whole seconds.
-/

namespace NewApi.RateLimit

/-- A queue of times, which always has one: the oldest, and the newer ones in order. -/
structure Queue where
  oldest : Int
  newer : List Int := []
deriving DecidableEq

namespace Queue

def times (q : Queue) : List Int := q.oldest :: q.newer

/-- `append`. -/
def push (now : Int) (q : Queue) : Queue := { q with newer := q.newer ++ [now] }

/-- The oldest time goes, and a new one comes. -/
def shift (now : Int) (q : Queue) : Queue :=
  match q.newer with
  | [] => { oldest := now }
  | next :: newer => { oldest := next, newer := newer ++ [now] }

@[simp] theorem times_push (now : Int) (q : Queue) : (q.push now).times = q.times ++ [now] := rfl

@[simp] theorem times_shift (now : Int) (q : Queue) : (q.shift now).times = q.times.tail ++ [now] := by
  obtain ⟨oldest, newer⟩ := q
  cases newer <;> rfl

end Queue

/-- `InMemoryRateLimiter`. -/
structure InMemoryRateLimiter where
  store : String → Option Queue := fun _ => none

namespace InMemoryRateLimiter

/-- `l.store[key] = queue`. -/
def set (key : String) (queue : Queue) (l : InMemoryRateLimiter) : InMemoryRateLimiter :=
  ⟨Function.update l.store key (some queue)⟩

/-- `Request`. -/
def request (key : String) (maxRequestNum duration now : Int) (l : InMemoryRateLimiter) :
    Bool × InMemoryRateLimiter :=
  match l.store key with
  | some queue =>
    if (queue.times.length : Int) < maxRequestNum then (true, l.set key (queue.push now))
    else if now - queue.oldest ≥ duration then (true, l.set key (queue.shift now))
    else (false, l)
  | none => (true, l.set key { oldest := now })

/-- A round of `clearExpiredItems`. -/
def clearExpiredItems (expirationDuration now : Int) (l : InMemoryRateLimiter) : InMemoryRateLimiter :=
  ⟨fun key => (l.store key).filter fun queue => now - (queue.newer.getLast?.getD queue.oldest) ≤ expirationDuration⟩

variable {l : InMemoryRateLimiter} {key key' : String} {maxRequestNum duration now : Int} {queue : Queue}

@[simp] theorem store_set_self : (l.set key queue).store key = some queue := Function.update_self ..

theorem store_set_ne (h : key' ≠ key) : (l.set key queue).store key' = l.store key' := Function.update_of_ne h ..

theorem request_of_refused (h : (l.request key maxRequestNum duration now).1 = false) :
    (l.request key maxRequestNum duration now).2 = l := by
  unfold request at h ⊢
  split at h
  · split at h
    · cases h
    · split at h
      · cases h
      next hlen hold =>
        rw [if_neg hlen, if_neg hold]
  · cases h

theorem store_request_ne (h : key' ≠ key) : (l.request key maxRequestNum duration now).2.store key' = l.store key' := by
  unfold request
  split
  · split
    · exact store_set_ne h
    · split
      · exact store_set_ne h
      · rfl
  · exact store_set_ne h

/-- The times that are kept under a key, the newest first. -/
def kept (key : String) (l : InMemoryRateLimiter) : List Int := ((l.store key).map fun q => q.times.reverse).getD []

theorem kept_congr {l' : InMemoryRateLimiter} (h : l'.store key = l.store key) : l'.kept key = l.kept key := by
  unfold kept
  rw [h]

theorem kept_set : (l.set key queue).kept key = queue.times.reverse := by
  unfold kept
  rw [store_set_self]
  rfl

/-- As long as no more times are kept than requests are allowed, but one at least: a request is refused just if as many
are kept and the oldest is in the duration, and else its time is kept. -/
theorem request_spec (duration now : Int) {n : Nat} (hn : (n : Int) = max 1 maxRequestNum) (hlen : (l.kept key).length ≤ n) :
    ((l.request key maxRequestNum duration now).1 = false ↔
        (l.kept key).length = n ∧ ∀ t ∈ (l.kept key).getLast?, now - t < duration) ∧
      ((l.request key maxRequestNum duration now).1 = true →
        (l.request key maxRequestNum duration now).2.kept key = (now :: l.kept key).take n) := by
  unfold request
  split
  next queue hqueue =>
    have hkept : l.kept key = queue.newer.reverse ++ [queue.oldest] := by
      unfold kept
      rw [hqueue]
      exact List.reverse_cons
    have htimes : (l.kept key).length = queue.times.length := by
      rw [hkept, List.length_append, List.length_reverse]
      rfl
    have hlast : (l.kept key).getLast? = some queue.oldest := by rw [hkept, List.getLast?_concat]
    have hpos : 0 < queue.times.length := Nat.succ_pos _
    split
    next hroom =>
      have hlt : (l.kept key).length < n := by omega
      refine ⟨iff_of_false Bool.noConfusion fun hand => absurd hand.1 hlt.ne, fun _ => ?_⟩
      rw [kept_set, Queue.times_push, List.reverse_append, List.take_of_length_le (by rw [List.length_cons]; omega),
        hkept]
      exact congrArg _ List.reverse_cons
    next hfull =>
    have hlen' : (l.kept key).length = n := by omega
    split
    next hout =>
      refine ⟨iff_of_false Bool.noConfusion fun hand => ?_, fun _ => ?_⟩
      · exact absurd (hand.2 queue.oldest hlast) (Int.not_lt.2 hout)
      · rw [kept_set, Queue.times_shift, List.reverse_append, hkept]
        have hnewer : queue.newer.reverse.length + 1 = n := by
          rw [← hlen', hkept, List.length_append]
          rfl
        rw [← hnewer, List.take_succ_cons, List.take_left]
        rfl
    next hin =>
      refine ⟨iff_of_true rfl ⟨hlen', fun t ht => ?_⟩, fun htrue => (by cases htrue)⟩
      obtain rfl := Option.some.inj (hlast.symm.trans ht)
      exact Int.not_le.1 hin
  next hnone =>
    have hkept : l.kept key = [] := by
      unfold kept
      rw [hnone]
      rfl
    rw [hkept]
    refine ⟨iff_of_false Bool.noConfusion fun hand => ?_, fun _ => ?_⟩
    · have hzero : 0 = n := hand.1
      omega
    · rw [kept_set, List.take_of_length_le (by rw [List.length_singleton]; omega)]
      rfl

theorem kept_clearExpiredItems (expirationDuration : Int) :
    (l.clearExpiredItems expirationDuration now).kept key =
      if ∀ t ∈ (l.kept key).head?, expirationDuration < now - t then [] else l.kept key := by
  unfold kept clearExpiredItems
  dsimp only
  cases l.store key with
  | none => exact (ite_self _).symm
  | some queue =>
    have hhead : queue.times.reverse.head? = some (queue.newer.getLast?.getD queue.oldest) := by
      rw [List.head?_reverse]
      exact List.getLast?_cons
    rw [Option.map_some, Option.getD_some, hhead, Option.filter_some]
    by_cases hold : now - queue.newer.getLast?.getD queue.oldest ≤ expirationDuration
    · rw [if_pos (decide_eq_true hold), if_neg fun hall => absurd (hall _ rfl) (Int.not_lt.2 hold)]
      rfl
    · rw [if_neg fun hdec => hold (of_decide_eq_true hdec), if_pos fun t ht => ?_]
      · rfl
      · obtain rfl := Option.some.inj ht
        exact Int.not_le.1 hold

end InMemoryRateLimiter

end NewApi.RateLimit

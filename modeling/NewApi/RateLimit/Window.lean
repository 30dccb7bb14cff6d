import NewApi.Lib.Run
import NewApi.Lib.SlidingWindow
import NewApi.RateLimit.InMemory

/-!
# The window of a key

A key that is always used with the same limit and duration has a sliding window: in no interval of the duration are more
requests let through than the limit, and a request is refused only where as many were let through within the duration before it.
What is done under other keys, and when the clean-up runs, makes no difference as long as it forgets nothing that is younger than
the duration (`window_exact`).
-/

namespace NewApi.RateLimit.InMemoryRateLimiter

open SlidingWindow Run

/-- A request, or a round of the clean-up loop. -/
inductive Op
  | request (key : String) (maxRequestNum duration now : Int)
  | clearExpiredItems (now : Int)

namespace Op

def now : Op → Int
  | request _ _ _ now => now
  | clearExpiredItems now => now

/-- A request under the key is made with this limit and duration. -/
def Uses (key : String) (maxRequestNum duration : Int) : Op → Prop
  | request key' maxRequestNum' duration' _ => key' = key → maxRequestNum' = maxRequestNum ∧ duration' = duration
  | clearExpiredItems _ => True

/-- A round of the clean-up forgets no time that is in the window. -/
def Spares (expirationDuration duration : Int) : Op → Prop
  | request .. => True
  | clearExpiredItems _ => duration ≤ expirationDuration + 1

theorem spares_of_le {expirationDuration duration : Int} (h : duration ≤ expirationDuration) : ∀ o : Op, o.Spares expirationDuration duration
  | request .. => trivial
  | clearExpiredItems _ => h.trans (Int.le_add_one le_rfl)

instance (key : String) (maxRequestNum duration : Int) : DecidablePred (Uses key maxRequestNum duration)
  | request .. => inferInstanceAs (Decidable (_ → _))
  | clearExpiredItems _ => inferInstanceAs (Decidable True)

end Op

/-- What a request was answered, and when. -/
structure Answer where
  key : String
  now : Int
  admitted : Bool

/-- The limiter, and what it has answered, the last answer first. -/
structure Answers where
  limiter : InMemoryRateLimiter := {}
  answers : List Answer := []

/-- The times of the requests that were let through under a key, the last one first. -/
def Answers.admitted (key : String) (s : Answers) : List Int :=
  (s.answers.filter fun a => a.key = key ∧ a.admitted).map Answer.now

section
variable (expirationDuration : Int) (key : String) (n : Nat) (duration : Int)

/-- The loop and the requests take the mutex, so that one comes after the other. -/
def step (s : Answers) : Op → Answers
  | .request key maxRequestNum duration now =>
    { limiter := (s.limiter.request key maxRequestNum duration now).2
      answers := ⟨key, now, (s.limiter.request key maxRequestNum duration now).1⟩ :: s.answers }
  | .clearExpiredItems now => { s with limiter := s.limiter.clearExpiredItems expirationDuration now }

/-- No interval of the duration has more requests that were let through than the limit. -/
def Limited (s : Answers) : Prop := AtMost n duration (s.admitted key)

/-- A request is refused just where as many as the limit were let through within the duration. -/
def RefusesFull (s : Answers) (o : Op) (_ : Answers) : Prop :=
  ∀ now, o = .request key n duration now →
    ((s.limiter.request key n duration now).1 = false ↔ n ≤ recent duration now (s.admitted key))

/-- The limiter keeps enough of what was let through. -/
structure Window (now : Int) (s : Answers) : Prop where
  log : Until now (s.admitted key)
  keeps : Keeps n duration now (s.admitted key) (s.limiter.kept key)
  limited : Limited key n duration s

end

section
variable {expirationDuration duration now maxRequestNum duration' : Int} {key key' : String} {n : Nat} {l : InMemoryRateLimiter} {s : Answers}
  {a : Answer} {o : Op} {ops : List Op}

theorem admitted_cons : Answers.admitted key ⟨l, a :: s.answers⟩ =
    if a.key = key ∧ a.admitted then a.now :: s.admitted key else s.admitted key := by
  unfold Answers.admitted
  dsimp only
  rw [List.filter_cons]
  simp only [decide_eq_true_eq]
  split
  · rfl
  · rfl

namespace Window

theorem mono (h : Window key n duration now s) {now' : Int} (hnow : now ≤ now') : Window key n duration now' s :=
  ⟨h.log.mono hnow, h.keeps.mono hnow, h.limited⟩

theorem refused_iff (h : Window key n duration now s) (hn : 1 ≤ n) :
    (s.limiter.request key n duration now).1 = false ↔ n ≤ recent duration now (s.admitted key) := by
  rw [h.keeps.full_iff hn h.log.sorted]
  exact (request_spec duration now (max_eq_right (by omega)).symm h.keeps.length_le).1

theorem request (h : Window key n duration now s) (hn : 1 ≤ n) :
    Window key n duration now (step expirationDuration s (.request key n duration now)) := by
  unfold step
  dsimp only
  cases hanswer : (s.limiter.request key n duration now).1 with
  | true =>
    have hkept := (request_spec duration now (max_eq_right (by omega)).symm h.keeps.length_le).2 hanswer
    have hroom : recent duration now (s.admitted key) < n := by
      by_contra hfull
      rw [(h.refused_iff hn).2 (Nat.not_lt.1 hfull)] at hanswer
      cases hanswer
    refine ⟨?_, ?_, ?_⟩
    · rw [admitted_cons, if_pos ⟨rfl, rfl⟩]
      exact h.log.cons (le_refl now)
    · rw [admitted_cons, if_pos ⟨rfl, rfl⟩, hkept]
      exact h.keeps.push now
    · unfold Limited
      rw [admitted_cons, if_pos ⟨rfl, rfl⟩]
      exact AtMost.cons h.limited h.log hroom
  | false =>
    have hsame := request_of_refused hanswer
    have hno : ¬ (key = key ∧ false = true) := fun hno => Bool.false_ne_true hno.2
    refine ⟨?_, ?_, ?_⟩
    · rw [admitted_cons, if_neg hno]
      exact h.log
    · rw [admitted_cons, if_neg hno, hsame]
      exact h.keeps
    · unfold Limited
      rw [admitted_cons, if_neg hno]
      exact h.limited

theorem request_ne (h : Window key n duration now s) (hkey : key' ≠ key) :
    Window key n duration now (step expirationDuration s (.request key' maxRequestNum duration' now)) := by
  have hno : ¬ (key' = key ∧ (s.limiter.request key' maxRequestNum duration' now).1 = true) := fun hno => hkey hno.1
  unfold step
  dsimp only
  refine ⟨?_, ?_, ?_⟩
  · rw [admitted_cons, if_neg hno]
    exact h.log
  · rw [admitted_cons, if_neg hno, kept_congr (store_request_ne hkey.symm)]
    exact h.keeps
  · unfold Limited
    rw [admitted_cons, if_neg hno]
    exact h.limited

theorem clear (h : Window key n duration now s) (hle : duration ≤ expirationDuration + 1) :
    Window key n duration now (step expirationDuration s (.clearExpiredItems now)) := by
  refine ⟨h.log, ?_, h.limited⟩
  show Keeps n duration now (s.admitted key) ((s.limiter.clearExpiredItems expirationDuration now).kept key)
  rw [kept_clearExpiredItems]
  split
  next hexpired =>
    have hkeeps := h.keeps
    cases hkept : s.limiter.kept key with
    | nil => rwa [hkept] at hkeeps
    | cons newest older =>
      rw [hkept] at hkeeps hexpired
      obtain ⟨rest, hlog⟩ := hkeeps.isPrefix
      refine Keeps.nil (out_of_head h.log.sorted fun t ht => ?_)
      rw [← hlog, List.cons_append, List.head?_cons] at ht
      have hout := hexpired t ht
      omega
  next => exact h.keeps

theorem step (h : Window key n duration now s) (hn : 1 ≤ n) (hle : o.Spares expirationDuration duration) (hnow : now ≤ o.now)
    (ho : o.Uses key n duration) :
    Window key n duration o.now (step expirationDuration s o) ∧
      RefusesFull key n duration s o (InMemoryRateLimiter.step expirationDuration s o) := by
  have hlater := h.mono hnow
  cases o with
  | request key' maxRequestNum duration' now' =>
    constructor
    · by_cases hkey : key' = key
      · obtain ⟨rfl, rfl⟩ := ho hkey
        rw [hkey]
        exact hlater.request hn
      · exact hlater.request_ne hkey
    · rintro _ ⟨⟩
      exact hlater.refused_iff hn
  | clearExpiredItems now' => exact ⟨hlater.clear hle, nofun⟩

theorem run (h : Window key n duration now s) (hn : 1 ≤ n) (hle : ∀ o ∈ ops, o.Spares expirationDuration duration)
    (hnow : ∀ o ∈ ops, now ≤ o.now) (htimes : ops.Pairwise fun o o' => o.now ≤ o'.now) (huses : ∀ o ∈ ops, o.Uses key n duration) :
    Holds (InMemoryRateLimiter.step expirationDuration) (Limited key n duration) s ops ∧
      Always (InMemoryRateLimiter.step expirationDuration) (RefusesFull key n duration) s ops := by
  induction ops generalizing s now with
  | nil => exact ⟨h.limited, trivial⟩
  | cons o ops ih =>
    obtain ⟨hfirst, hrest⟩ := List.pairwise_cons.1 htimes
    obtain ⟨hnext, hfull⟩ := h.step hn (hle o List.mem_cons_self) (hnow o List.mem_cons_self) (huses o List.mem_cons_self)
    obtain ⟨hholds, halways⟩ := ih hnext (fun o' ho' => hle o' (List.mem_cons_of_mem o ho')) hfirst hrest
      fun o' ho' => huses o' (List.mem_cons_of_mem o ho')
    exact ⟨⟨h.limited, hholds⟩, hfull, halways⟩

end Window

theorem window_of_spares (hn : 1 ≤ n) (hle : ∀ o ∈ ops, o.Spares expirationDuration duration)
    (htimes : ops.Pairwise fun o o' => o.now ≤ o'.now) (huses : ∀ o ∈ ops, o.Uses key n duration) :
    Holds (step expirationDuration) (Limited key n duration) {} ops ∧
      Always (step expirationDuration) (RefusesFull key n duration) {} ops := by
  cases ops with
  | nil => exact ⟨AtMost.nil, trivial⟩
  | cons o ops =>
    have hstart : Window key n duration o.now {} :=
      ⟨Until.nil, Keeps.nil fun t ht => absurd ht List.not_mem_nil, AtMost.nil⟩
    refine hstart.run hn hle (fun o' ho' => ?_) htimes huses
    rcases List.mem_cons.1 ho' with rfl | hlater
    · exact le_refl _
    · exact (List.pairwise_cons.1 htimes).1 o' hlater

/-- From the start on, no interval of the duration has more requests under a key that were let through than its limit, and one is
refused just where as many were let through within the duration before it. -/
theorem window_exact (hn : 1 ≤ n) (hle : duration ≤ expirationDuration) (ops : List Op)
    (htimes : ops.Pairwise fun o o' => o.now ≤ o'.now) (huses : ∀ o ∈ ops, o.Uses key n duration) :
    Holds (step expirationDuration) (Limited key n duration) {} ops ∧
      Always (step expirationDuration) (RefusesFull key n duration) {} ops :=
  window_of_spares hn (fun o _ => Op.spares_of_le hle o) htimes huses

/-- A request under a key that allows one within two seconds, another one after a second, and a third one after two. -/
def twoKeys : List Op :=
  [.request "a" 1 2 10, .request "b" 5 60 10, .request "a" 1 2 11, .clearExpiredItems 12, .request "a" 1 2 12]

theorem window_exact_twoKeys :
    Holds (step 60) (Limited "a" 1 2) {} twoKeys ∧ Always (step 60) (RefusesFull "a" 1 2) {} twoKeys := by
  refine window_exact (by decide) (by decide) twoKeys ?_ ?_
  · unfold twoKeys
    decide
  · unfold twoKeys
    decide

end

end NewApi.RateLimit.InMemoryRateLimiter

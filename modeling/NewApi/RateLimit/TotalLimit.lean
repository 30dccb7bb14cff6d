import Mathlib.Tactic.Linarith
import NewApi.Lib.TokenBucket
import NewApi.RateLimit.ModelRequest
import NewApi.RateLimit.Window

/-!
# The limit of all requests

A user is told that at most so many requests are let through within so many minutes. With Redis, all requests share a token bucket
that holds the limit times the duration, is filled by the limit a second, and gives the duration to a request; in memory they share
a sliding window. Both refuse only where as many requests as the limit were let through within the duration, but the bucket lets
through nearly twice the limit within it (`BucketRun.Filled.admits`): a full bucket, and what comes in meanwhile. So both keep the limit
just where it is one, or the duration is a second, and the clean-up in memory does not forget what is younger than the duration
(`total_limit_iff`). Times are whole seconds, as both read them.
-/

namespace NewApi.TotalRequestLimit

open SlidingWindow TokenBucket Run

/-! ## The bucket -/

/-- The bucket of a user, and the times of the requests that it let through, the last one first. -/
structure BucketRun where
  bucket : Option (Int × Int) := none
  admitted : List Int := []
deriving DecidableEq

section
variable (totalMaxCount : ℕ) (duration : Int)

/-- `tb.Allow` as `redisRateLimitHandler` calls it. -/
def allow (now : Int) (bucket : Option (Int × Int)) : Bool × Option (Int × Int) :=
  ModelRequestRateLimit.tokenBucket duration totalMaxCount (totalMaxCount * duration) now bucket

namespace BucketRun

/-- A request at a time. -/
def step (s : BucketRun) (now : Int) : BucketRun where
  bucket := (allow totalMaxCount duration now s.bucket).2
  admitted := if (allow totalMaxCount duration now s.bucket).1 then now :: s.admitted else s.admitted

/-- The tokens that are stored are in the bucket's range. -/
def TokensInRange (s : BucketRun) : Prop := ∀ b ∈ s.bucket, 0 ≤ b.1 ∧ b.1 ≤ totalMaxCount * duration

/-- A request is refused only where as many as the limit were let through within the duration. -/
def RefusesOnlyFull (s : BucketRun) (now : Int) (_ : BucketRun) : Prop :=
  (allow totalMaxCount duration now s.bucket).1 = false → totalMaxCount ≤ recent duration now s.admitted

/-- What the bucket holds when a request comes. -/
def held (now : Int) (s : BucketRun) : Int :=
  match s.bucket with
  | none => totalMaxCount * duration
  | some (tokens, lastTime) => refill totalMaxCount (totalMaxCount * duration) tokens (now - lastTime)

/-- What is in the bucket goes with what was let through. -/
def Filled (now : Int) (s : BucketRun) : Prop :=
  match s.bucket with
  | none => s.admitted = []
  | some (tokens, lastTime) =>
    lastTime ≤ now ∧ Sound duration totalMaxCount (totalMaxCount * duration) lastTime s.admitted tokens

end BucketRun

/-- What the user is told, of the bucket: at most the limit in any interval of the duration, no other refusals, and tokens in range. -/
def BucketKeepsLimit : Prop :=
  ∀ times : List Int, times.Pairwise (· ≤ ·) →
    Holds (BucketRun.step totalMaxCount duration)
        (fun s => AtMost totalMaxCount duration s.admitted ∧ s.TokensInRange totalMaxCount duration) {} times ∧
      Always (BucketRun.step totalMaxCount duration) (BucketRun.RefusesOnlyFull totalMaxCount duration) {} times

end

section
variable {totalMaxCount k : ℕ} {duration now now' tokens : Int} {s : BucketRun} {times log : List Int}

theorem within_burst (hnow : 0 ≤ now) (hlt : now < duration) : within duration 0 (now :: List.replicate k 0) = k + 1 := by
  have hlength : (now :: List.replicate k 0).length = k + 1 := by rw [List.length_cons, List.length_replicate]
  rw [← hlength]
  refine List.countP_eq_length.2 fun t ht => decide_eq_true ?_
  rcases List.mem_cons.1 ht with rfl | hzero
  · omega
  · rw [List.eq_of_mem_replicate hzero]
    omega

theorem allow_eq : allow totalMaxCount duration now s.bucket =
    if duration ≤ s.held totalMaxCount duration now then (true, some (s.held totalMaxCount duration now - duration, now))
    else (false, some (s.held totalMaxCount duration now, now)) := by
  unfold allow ModelRequestRateLimit.tokenBucket BucketRun.held
  cases s.bucket with
  | none => rfl
  | some b => rfl

namespace BucketRun

theorem step_of_le (h : duration ≤ s.held totalMaxCount duration now) :
    s.step totalMaxCount duration now = ⟨some (s.held totalMaxCount duration now - duration, now), now :: s.admitted⟩ := by
  unfold step
  rw [allow_eq, if_pos h]
  rfl

theorem step_of_lt (h : s.held totalMaxCount duration now < duration) :
    s.step totalMaxCount duration now = ⟨some (s.held totalMaxCount duration now, now), s.admitted⟩ := by
  unfold step
  rw [allow_eq, if_neg (Int.not_le.2 h)]
  rfl

namespace Filled

theorem sound (h : s.Filled totalMaxCount duration now) (hduration : 0 < duration) :
    Sound duration totalMaxCount (totalMaxCount * duration) now s.admitted (s.held totalMaxCount duration now) := by
  unfold Filled at h
  unfold held
  split at h
  next =>
    rw [h]
    exact Sound.full (mul_nonneg (Int.natCast_nonneg _) hduration.le) (Int.natCast_nonneg _)
  next => exact h.2.refill h.1 hduration.le (Int.natCast_nonneg _)

theorem mono (h : s.Filled totalMaxCount duration now) (hnow : now ≤ now') : s.Filled totalMaxCount duration now' := by
  unfold Filled at h ⊢
  split at h
  next => exact h
  next => exact ⟨h.1.trans hnow, h.2⟩

theorem tokensInRange (h : s.Filled totalMaxCount duration now) : s.TokensInRange totalMaxCount duration := by
  rintro ⟨tokens, lastTime⟩ hbucket
  unfold Filled at h
  rw [Option.mem_def.1 hbucket] at h
  exact ⟨h.2.nonneg, h.2.le_capacity⟩

theorem refusesOnlyFull (h : s.Filled totalMaxCount duration now) (hduration : 0 < duration) :
    s.RefusesOnlyFull totalMaxCount duration now (s.step totalMaxCount duration now) := by
  unfold RefusesOnlyFull
  rw [allow_eq]
  split
  next => exact fun hno => absurd hno Bool.noConfusion
  next hempty =>
    exact fun _ => (h.sound hduration).refused (Int.not_le.1 hempty) hduration rfl (mul_comm _ _)

theorem step (h : s.Filled totalMaxCount duration now) (hduration : 0 < duration) :
    (s.step totalMaxCount duration now).Filled totalMaxCount duration now := by
  have hsound := h.sound hduration
  rcases le_or_gt duration (s.held totalMaxCount duration now) with hfits | hempty
  · rw [step_of_le hfits]
    exact ⟨le_rfl, hsound.spend hfits hduration.le (Int.natCast_nonneg _)⟩
  · rw [step_of_lt hempty]
    exact ⟨le_rfl, hsound⟩

/-- So many requests are let through in any interval of the duration: what comes out of a full bucket, and what comes in during the
interval. -/
theorem admits (h : s.Filled totalMaxCount duration now) (hduration : 0 < duration)
    (hk : totalMaxCount * duration + (duration - 1) * totalMaxCount < (k + 1) * duration) (hlog : AtMost k duration s.admitted) :
    AtMost k duration (s.step totalMaxCount duration now).admitted := by
  rcases le_or_gt duration (s.held totalMaxCount duration now) with hfits | hempty
  · rw [step_of_le hfits]
    exact (h.sound hduration).spend_atMost hfits hduration (Int.natCast_nonneg _) hk hlog
  · rw [step_of_lt hempty]
    exact hlog

/-- A run keeps to the bound of `admits`, refuses only where the window is full, and leaves the tokens in range. -/
theorem run (h : s.Filled totalMaxCount duration now) (hduration : 0 < duration)
    (hk : totalMaxCount * duration + (duration - 1) * totalMaxCount < (k + 1) * duration) (hlog : AtMost k duration s.admitted)
    (hnow : ∀ t ∈ times, now ≤ t) (htimes : times.Pairwise (· ≤ ·)) :
    Holds (BucketRun.step totalMaxCount duration)
        (fun s => AtMost k duration s.admitted ∧ s.TokensInRange totalMaxCount duration) s times ∧
      Always (BucketRun.step totalMaxCount duration) (RefusesOnlyFull totalMaxCount duration) s times := by
  induction times generalizing s now with
  | nil => exact ⟨⟨hlog, h.tokensInRange⟩, trivial⟩
  | cons t times ih =>
    obtain ⟨hfirst, hrest⟩ := List.pairwise_cons.1 htimes
    have hlater := h.mono (hnow t List.mem_cons_self)
    obtain ⟨hholds, halways⟩ := ih (hlater.step hduration) (hlater.admits hduration hk hlog) hfirst hrest
    exact ⟨⟨⟨hlog, h.tokensInRange⟩, hholds⟩, hlater.refusesOnlyFull hduration, halways⟩

end Filled

theorem run_start (hduration : 0 < duration)
    (hk : totalMaxCount * duration + (duration - 1) * totalMaxCount < (k + 1) * duration) (htimes : times.Pairwise (· ≤ ·)) :
    Holds (step totalMaxCount duration) (fun s => AtMost k duration s.admitted ∧ s.TokensInRange totalMaxCount duration) {} times ∧
      Always (step totalMaxCount duration) (RefusesOnlyFull totalMaxCount duration) {} times := by
  cases times with
  | nil => exact ⟨⟨AtMost.nil, fun _ h => absurd h (Option.not_mem_none _)⟩, trivial⟩
  | cons t times =>
    have hstart : (BucketRun.mk none []).Filled totalMaxCount duration t := rfl
    refine hstart.run hduration hk AtMost.nil (fun t' ht' => ?_) htimes
    rcases List.mem_cons.1 ht' with rfl | hlater
    · exact le_rfl
    · exact (List.pairwise_cons.1 htimes).1 t' hlater

theorem run_replicate (hcapacity : tokens ≤ totalMaxCount * duration) (hduration : 0 < duration) (htokens : k * duration ≤ tokens) :
    run (step totalMaxCount duration) ⟨some (tokens, now), log⟩ (List.replicate k now) =
      ⟨some (tokens - k * duration, now), List.replicate k now ++ log⟩ := by
  induction k generalizing tokens log with
  | zero => simp [Run.run]
  | succ k ih =>
    have hpos : 0 ≤ k * duration := mul_nonneg (Int.natCast_nonneg k) hduration.le
    have hsplit : ((k + 1 : ℕ) : Int) * duration = k * duration + duration := by
      push_cast
      ring
    have hheld : (BucketRun.mk (some (tokens, now)) log).held totalMaxCount duration now = tokens := by
      unfold held refill
      dsimp only
      rw [sub_self, zero_mul, add_zero, min_eq_right hcapacity]
    rw [hsplit] at htokens
    have hfirst : step totalMaxCount duration ⟨some (tokens, now), log⟩ now = ⟨some (tokens - duration, now), now :: log⟩ := by
      rw [step_of_le (by rw [hheld]; omega), hheld]
    have hspent : tokens - duration - k * duration = tokens - (k * duration + duration) := by omega
    rw [hsplit]
    show run _ (step totalMaxCount duration ⟨some (tokens, now), log⟩ now) (List.replicate k now) = _
    rw [hfirst, ih (by omega) (by omega), hspent, List.replicate_succ', List.append_assoc, List.singleton_append]

/-- A full bucket is spent at once, and what comes in until just before the end of the duration lets one more request through. -/
theorem too_many (hn : 2 ≤ totalMaxCount) (hduration : 2 ≤ duration) : ¬ BucketKeepsLimit totalMaxCount duration := by
  intro h
  obtain ⟨k, rfl⟩ : ∃ k, totalMaxCount = k + 1 := ⟨totalMaxCount - 1, by omega⟩
  have hcapacity : ((k + 1 : ℕ) : Int) * duration = k * duration + duration := by
    push_cast
    ring
  have hpos : 0 ≤ (k : Int) * duration := mul_nonneg (Int.natCast_nonneg k) (by omega)
  have hfull : (BucketRun.mk none []).held (k + 1) duration 0 = ((k + 1 : ℕ) : Int) * duration := rfl
  have hfirst : step (k + 1) duration ⟨none, []⟩ 0 = ⟨some (k * duration, 0), [0]⟩ := by
    rw [step_of_le (by rw [hfull]; omega), hfull, hcapacity, add_sub_cancel_right]
  have hspent : run (step (k + 1) duration) ⟨some (k * duration, 0), [0]⟩ (List.replicate k 0) =
      ⟨some (0, 0), List.replicate (k + 1) 0⟩ := by
    rw [run_replicate (by omega) (by omega) le_rfl, sub_self, List.replicate_succ']
  have hheld : (BucketRun.mk (some (0, 0)) (List.replicate (k + 1) 0)).held (k + 1) duration (duration - 1) =
      min (((k + 1 : ℕ) : Int) * duration) (0 + (duration - 1 - 0) * (k + 1 : ℕ)) := rfl
  rw [sub_zero, zero_add] at hheld
  have hcomesIn : duration ≤ (duration - 1) * (k + 1 : ℕ) := by
    push_cast
    nlinarith
  have hlast : (step (k + 1) duration ⟨some (0, 0), List.replicate (k + 1) 0⟩ (duration - 1)).admitted =
      (duration - 1) :: List.replicate (k + 1) 0 := by
    rw [step_of_le]
    rw [hheld]
    omega
  have htimes : (0 :: (List.replicate k 0 ++ [duration - 1])).Pairwise (· ≤ ·) := by
    rw [List.pairwise_cons, List.pairwise_append]
    refine ⟨fun t ht => ?_, List.pairwise_replicate.2 (.inr le_rfl), List.pairwise_singleton .., fun t ht t' ht' => ?_⟩
    · rcases List.mem_append.1 ht with hzero | hlast
      · rw [List.eq_of_mem_replicate hzero]
      · rw [List.mem_singleton.1 hlast]
        omega
    · rw [List.eq_of_mem_replicate ht, List.mem_singleton.1 ht']
      omega
  have hholds := (h _ htimes).1.last.1 0
  have hrun : run (step (k + 1) duration) {} (0 :: (List.replicate k 0 ++ [duration - 1])) =
      step (k + 1) duration ⟨some (0, 0), List.replicate (k + 1) 0⟩ (duration - 1) := by
    show run _ (step (k + 1) duration ⟨none, []⟩ 0) _ = _
    rw [hfirst, run_append, hspent]
    rfl
  have hall : within duration 0 ((duration - 1) :: List.replicate (k + 1) 0) = k + 2 := by
    exact within_burst (by omega) (by omega)
  rw [hrun, hlast, hall] at hholds
  omega

end BucketRun

theorem bucketKeepsLimit_iff (hn : 1 ≤ totalMaxCount) (hduration : 1 ≤ duration) :
    BucketKeepsLimit totalMaxCount duration ↔ totalMaxCount = 1 ∨ duration = 1 := by
  constructor
  · intro h
    by_contra hno
    rw [not_or] at hno
    exact BucketRun.too_many (by omega) (by omega) h
  · rintro (rfl | rfl) times htimes
    · exact BucketRun.run_start (by omega) (by omega) htimes
    · exact BucketRun.run_start (by omega) (by omega) htimes

end

/-! ## In memory -/

open RateLimit InMemoryRateLimiter

section
variable (expirationDuration : Int) (key : String) (totalMaxCount : ℕ) (duration : Int)

/-- The loop of the clean-up is started where there is a duration after which keys expire. -/
def Cleans : InMemoryRateLimiter.Op → Prop
  | .request .. => True
  | .clearExpiredItems _ => 0 < expirationDuration

/-- A request under the key is refused only where as many as the limit were let through within the duration. -/
def RefusesOnlyFull (s : Answers) (o : InMemoryRateLimiter.Op) (_ : Answers) : Prop :=
  ∀ now, o = .request key totalMaxCount duration now → (s.limiter.request key totalMaxCount duration now).1 = false →
    totalMaxCount ≤ recent duration now (s.admitted key)

/-- What the user is told, of the limiter in memory, which is used with other keys, too. -/
def MemoryKeepsLimit : Prop :=
  ∀ ops : List InMemoryRateLimiter.Op, (ops.Pairwise fun o o' => o.now ≤ o'.now) → (∀ o ∈ ops, o.Uses key totalMaxCount duration) →
    (∀ o ∈ ops, Cleans expirationDuration o) →
    Holds (InMemoryRateLimiter.step expirationDuration) (Limited key totalMaxCount duration) {} ops ∧
      Always (InMemoryRateLimiter.step expirationDuration) (RefusesOnlyFull key totalMaxCount duration) {} ops

end

section
variable {expirationDuration duration : Int} {key : String} {totalMaxCount k : ℕ}

theorem run_requests (expirationDuration : Int) (key : String) (hn : 1 ≤ totalMaxCount) (hduration : 0 < duration) (hk : k ≤ totalMaxCount) :
    Window key totalMaxCount duration 0
        (run (InMemoryRateLimiter.step expirationDuration) {} (List.replicate k (.request key totalMaxCount duration 0))) ∧
      (run (InMemoryRateLimiter.step expirationDuration) {} (List.replicate k (.request key totalMaxCount duration 0))).admitted key =
        List.replicate k 0 := by
  induction k with
  | zero => exact ⟨⟨Until.nil, Keeps.nil fun t ht => absurd ht List.not_mem_nil, AtMost.nil⟩, rfl⟩
  | succ k ih =>
    obtain ⟨hwindow, hlog⟩ := ih (by omega)
    rw [List.replicate_succ', run_append]
    generalize run (InMemoryRateLimiter.step expirationDuration) {} (List.replicate k _) = s at hwindow hlog ⊢
    have hnext : Window key totalMaxCount duration 0
        (InMemoryRateLimiter.step expirationDuration s (.request key totalMaxCount duration 0)) := hwindow.request hn
    refine ⟨hnext, ?_⟩
    have hrecent : recent duration 0 (s.admitted key) = k := by
      rw [hlog, recent_eq_length, List.length_replicate]
      intro t ht
      rw [List.eq_of_mem_replicate ht]
      omega
    have hanswer : (s.limiter.request key totalMaxCount duration 0).1 = true := by
      rw [← Bool.not_eq_false, hwindow.refused_iff hn, hrecent]
      omega
    show Answers.admitted key ⟨_, ⟨key, 0, (s.limiter.request key totalMaxCount duration 0).1⟩ :: s.answers⟩ = _
    rw [admitted_cons, if_pos ⟨rfl, hanswer⟩, hlog, List.replicate_succ]

/-- As many requests as the limit, a round of the clean-up as soon as it forgets them, and one more request. -/
def burst (expirationDuration : Int) (key : String) (totalMaxCount : ℕ) (duration : Int) : List InMemoryRateLimiter.Op :=
  List.replicate totalMaxCount (.request key totalMaxCount duration 0) ++
    [.clearExpiredItems (expirationDuration + 1), .request key totalMaxCount duration (expirationDuration + 1)]

theorem mem_burst {o : InMemoryRateLimiter.Op} : o ∈ burst expirationDuration key totalMaxCount duration →
    o = .request key totalMaxCount duration 0 ∨ o = .clearExpiredItems (expirationDuration + 1) ∨
      o = .request key totalMaxCount duration (expirationDuration + 1) := by
  unfold burst
  rw [List.mem_append, List.mem_pair]
  exact Or.imp_left List.eq_of_mem_replicate

theorem pairwise_burst (hclean : 0 < expirationDuration) :
    (burst expirationDuration key totalMaxCount duration).Pairwise fun o o' => o.now ≤ o'.now := by
  unfold burst
  rw [List.pairwise_append]
  refine ⟨List.pairwise_replicate.2 (.inr le_rfl), List.pairwise_pair.2 le_rfl, fun o ho o' ho' => ?_⟩
  rw [List.eq_of_mem_replicate ho]
  rcases List.mem_pair.1 ho' with rfl | rfl
  · exact Int.le_add_one hclean.le
  · exact Int.le_add_one hclean.le

theorem forgets (hn : 1 ≤ totalMaxCount) (hclean : 0 < expirationDuration) (hearly : expirationDuration + 1 < duration) :
    ¬ MemoryKeepsLimit expirationDuration key totalMaxCount duration := by
  intro h
  have hfull := run_requests expirationDuration key hn (show 0 < duration by omega) le_rfl
  have huses : ∀ o ∈ burst expirationDuration key totalMaxCount duration, o.Uses key totalMaxCount duration := by
    intro o ho
    rcases mem_burst ho with rfl | rfl | rfl
    · exact fun _ => ⟨rfl, rfl⟩
    · trivial
    · exact fun _ => ⟨rfl, rfl⟩
  have hcleans : ∀ o ∈ burst expirationDuration key totalMaxCount duration, Cleans expirationDuration o := by
    intro o ho
    rcases mem_burst ho with rfl | rfl | rfl
    · trivial
    · exact hclean
    · trivial
  have hend := (h _ (pairwise_burst hclean) huses hcleans).1.last 0
  rw [burst, run_append] at hend
  generalize run (InMemoryRateLimiter.step expirationDuration) {} (List.replicate totalMaxCount _) = s at hfull hend
  obtain ⟨hwindow, hlog⟩ := hfull
  have hforgotten : (s.limiter.clearExpiredItems expirationDuration (expirationDuration + 1)).kept key = [] := by
    rw [kept_clearExpiredItems, if_pos fun t ht => ?_]
    have hzero := List.eq_of_mem_replicate (hlog ▸ hwindow.keeps.isPrefix.subset (List.mem_of_mem_head? ht))
    omega
  have hanswer : ((s.limiter.clearExpiredItems expirationDuration (expirationDuration + 1)).request key totalMaxCount duration
      (expirationDuration + 1)).1 = true := by
    rw [← Bool.not_eq_false, (request_spec duration _ (max_eq_right (by omega)).symm (by rw [hforgotten]; exact Nat.zero_le _)).1,
      hforgotten]
    exact fun hempty => absurd (show 0 = totalMaxCount from hempty.1) (by omega)
  have hadmitted : within duration 0 (Answers.admitted key ⟨_, ⟨key, expirationDuration + 1, ((s.limiter.clearExpiredItems
      expirationDuration (expirationDuration + 1)).request key totalMaxCount duration (expirationDuration + 1)).1⟩ :: s.answers⟩) ≤
      totalMaxCount := hend
  rw [admitted_cons, if_pos ⟨rfl, hanswer⟩, hlog, within_burst (by omega) hearly] at hadmitted
  omega

theorem memoryKeepsLimit_iff (hn : 1 ≤ totalMaxCount) :
    MemoryKeepsLimit expirationDuration key totalMaxCount duration ↔ expirationDuration ≤ 0 ∨ duration ≤ expirationDuration + 1 := by
  constructor
  · intro h
    by_contra hno
    rw [not_or, not_le, not_le] at hno
    exact forgets hn hno.1 hno.2 h
  · intro hspares ops htimes huses hcleans
    have hspare : ∀ o ∈ ops, o.Spares expirationDuration duration := by
      intro o ho
      have hclean := hcleans o ho
      cases o with
      | request => trivial
      | clearExpiredItems now => exact hspares.resolve_left (Int.not_le.2 hclean)
    obtain ⟨hholds, halways⟩ := window_of_spares hn hspare htimes huses
    exact ⟨hholds, halways.imp fun _ _ _ hfull now ho => (hfull now ho).1⟩

/-- Both limiters keep what the user is told just where the limit is one or the duration a second, and the clean-up in memory forgets
no time that is within the duration. -/
theorem total_limit_iff (key : String) (hn : 1 ≤ totalMaxCount) (hduration : 1 ≤ duration) :
    BucketKeepsLimit totalMaxCount duration ∧ MemoryKeepsLimit expirationDuration key totalMaxCount duration ↔
      (totalMaxCount = 1 ∨ duration = 1) ∧ (expirationDuration ≤ 0 ∨ duration ≤ expirationDuration + 1) :=
  and_congr (bucketKeepsLimit_iff hn hduration) (memoryKeepsLimit_iff hn)

theorem total_limit_iff_one : BucketKeepsLimit 1 60 ∧ MemoryKeepsLimit 60 "MRRL7" 1 60 :=
  (total_limit_iff "MRRL7" le_rfl (by decide)).2 ⟨.inl rfl, .inr (by decide)⟩

/-- Of two requests a minute, three are let through within a minute: two of them at once, and one just before its end. In memory, a limit
for half an hour is forgotten where the clean-up is the one that another limit started, for twenty minutes. -/
theorem total_limit_exceeded :
    (run (BucketRun.step 2 60) {} [0, 0, 59]).admitted = [59, 0, 0] ∧ ¬ BucketKeepsLimit 2 60 ∧
      ¬ MemoryKeepsLimit 1200 "MRRL7" 2 1800 := by
  have hadmitted : (run (BucketRun.step 2 60) {} [0, 0, 59]).admitted = [59, 0, 0] := by decide
  refine ⟨hadmitted, fun h => ?_, forgets (by decide) (by decide) (by decide)⟩
  have hmany := (h [0, 0, 59] (by decide)).1.last.1 0
  rw [hadmitted] at hmany
  revert hmany
  decide

end

end NewApi.TotalRequestLimit

import NewApi.Lib.Run
import NewApi.Lib.SlidingWindow
import NewApi.RateLimit.InMemory

/-!
# The rate limit of model requests

A user may make so many requests, and so many successful ones, within a duration. There are two handlers for it. The one
with Redis keeps a list of the times at which requests succeeded, and a token bucket for all requests. The one in memory
asks a limiter that counts what it is asked: one key counts all requests, and a second one is meant to check the
successful ones without counting.

The check of the handler in memory counts every request that passes it, so it refuses as it should in just those runs in
which the requests that pass within the duration reach the limit whenever those that succeed do (`handlers_agree_iff`). Times
are milliseconds.
-/

namespace NewApi.ModelRequestRateLimit

open RateLimit SlidingWindow

/-- The settings, and the user. -/
structure Config where
  userId : Int
  totalMaxCount : Int
  successMaxCount : Nat
  durationMinutes : Int
  /-- After how many seconds the limiter in memory forgets a key. It takes this from whoever starts it. -/
  expirationDuration : Int

/-- `duration`, in seconds. -/
def Config.duration (cfg : Config) : Int := cfg.durationMinutes * 60

/-- A request: when it comes, when it is done, and whether it succeeds (its status is below 400) if it is handled. -/
structure Request where
  start : Int
  finish : Int
  succeeds : Bool
deriving DecidableEq

/-- What becomes of a request. -/
inductive Verdict where
  | totalLimit
  | successLimit
  | passed
deriving DecidableEq

/-- A log, with the request where it passed. -/
def Verdict.logged {α : Type} (verdict : Verdict) (request : α) (log : List α) : List α :=
  match verdict with
  | .passed => request :: log
  | _ => log

/-- `Unix` of a time. -/
def unix (time : Int) : Int := time / 1000

/-! ## With Redis -/

/-- What Redis holds for a user: the times of the requests that succeeded, the newest first, the time at which the list
expires, and the token bucket, with its tokens and its last time. -/
structure RedisState where
  times : List Int := []
  expireAt : Option Int := none
  bucket : Option (Int × Int) := none
deriving DecidableEq

namespace RedisState

/-- The list, where it has not expired. -/
def list (now : Int) (s : RedisState) : List Int :=
  if ∀ expireAt ∈ s.expireAt, now < expireAt then s.times else []

/-- The list once it has expired, if it has. -/
def refresh (now : Int) (s : RedisState) : RedisState :=
  { s with times := s.list now, expireAt := if s.list now = [] then none else s.expireAt }

/-- `EXPIRE`. A key that is not there is left. -/
def expire (now milliseconds : Int) (s : RedisState) : RedisState :=
  if s.times = [] then s else { s with expireAt := some (now + milliseconds) }

end RedisState

section
variable (cfg : Config)

/-- `checkRedisRateLimit`. -/
def checkRedisRateLimit (now : Int) (s : RedisState) : Bool × RedisState :=
  if cfg.successMaxCount = 0 then (true, s)
  else
    let s := s.refresh now
    if s.times.length < cfg.successMaxCount then (true, s)
    else
      match s.times.getLast? with
      | none => (false, s)
      | some oldTime =>
        if (now - oldTime).tdiv 1000 < cfg.duration then (false, s.expire now (cfg.durationMinutes * 60 * 1000))
        else (true, s)

/-- `recordRedisRequest`. -/
def recordRedisRequest (now : Int) (s : RedisState) : RedisState :=
  if cfg.successMaxCount = 0 then s
  else
    let s := s.refresh now
    RedisState.expire now (cfg.durationMinutes * 60 * 1000) { s with times := (now :: s.times).take cfg.successMaxCount }

/-- The script of the token bucket: whether the request is allowed, and the bucket after it. -/
def tokenBucket (requested rate capacity nowInSeconds : Int) (bucket : Option (Int × Int)) :
    Bool × Option (Int × Int) :=
  let tokens :=
    match bucket with
    | none => capacity
    | some (tokens, lastTime) => min capacity (tokens + (nowInSeconds - lastTime) * rate)
  if tokens ≥ requested then (true, some (tokens - requested, nowInSeconds)) else (false, some (tokens, nowInSeconds))

/-- The check of all requests, where they have a limit. -/
def checkRedisTotal (now : Int) (s : RedisState) : Bool × RedisState :=
  if cfg.totalMaxCount > 0 then
    let (allowed, bucket) :=
      tokenBucket cfg.duration cfg.totalMaxCount (cfg.totalMaxCount * cfg.duration) (unix now) s.bucket
    (allowed, { s with bucket })
  else (true, s)

/-- `redisRateLimitHandler`. -/
def redisRateLimitHandler (r : Request) (s : RedisState) : Verdict × RedisState :=
  match checkRedisRateLimit cfg r.start s with
  | (false, s) => (.successLimit, s)
  | (true, s) =>
    match checkRedisTotal cfg r.start s with
    | (false, s) => (.totalLimit, s)
    | (true, s) => (.passed, if r.succeeds then recordRedisRequest cfg r.finish s else s)

/-! ## In memory -/

def totalKey : String := "MRRL" ++ toString cfg.userId

def successKey : String := "MRRLS" ++ toString cfg.userId

def checkKey : String := successKey cfg ++ "_check"

/-- The check of all requests, where they have a limit. -/
def checkMemoryTotal (now : Int) (l : InMemoryRateLimiter) : Bool × InMemoryRateLimiter :=
  if cfg.totalMaxCount > 0 then l.request (totalKey cfg) cfg.totalMaxCount cfg.duration (unix now) else (true, l)

/-- `memoryRateLimitHandler`. -/
def memoryRateLimitHandler (r : Request) (l : InMemoryRateLimiter) : Verdict × InMemoryRateLimiter :=
  match checkMemoryTotal cfg r.start l with
  | (false, l) => (.totalLimit, l)
  | (true, l) =>
    match l.request (checkKey cfg) cfg.successMaxCount cfg.duration (unix r.start) with
    | (false, l) => (.successLimit, l)
    | (true, l) =>
      (.passed,
        if r.succeeds then (l.request (successKey cfg) cfg.successMaxCount cfg.duration (unix r.finish)).2 else l)

end

/-! ## Runs -/

/-- The times at which the requests of a log were done that succeeded. -/
def succeeded (log : List Request) : List Int := (log.filter (·.succeeds)).map (·.finish)

/-- The limit is reached: so many requests of the log succeeded within the duration. -/
def Due (cfg : Config) (now : Int) (log : List Request) : Prop :=
  0 < cfg.successMaxCount ∧ cfg.successMaxCount ≤ recent (cfg.duration * 1000) now (succeeded log)

/-- Both handlers, each with the requests that it let through. `counted` are the times, in seconds, of those that the
one in memory let through since its limiter last forgot them. -/
structure Handlers where
  clock : Int
  redis : RedisState := {}
  redisLog : List Request := []
  memory : InMemoryRateLimiter := {}
  memoryLog : List Request := []
  counted : List Int := []

/-- What can happen: a request, and a round of cleaning in memory. -/
inductive Op where
  | request (r : Request)
  | clearExpiredItems (now : Int)

section
variable (cfg : Config)

def step (s : Handlers) : Op → Handlers
  | .request r =>
    let (redisVerdict, redis) := redisRateLimitHandler cfg r s.redis
    let (memoryVerdict, memory) := memoryRateLimitHandler cfg r s.memory
    { clock := r.finish
      redis
      redisLog := redisVerdict.logged r s.redisLog
      memory
      memoryLog := memoryVerdict.logged r s.memoryLog
      counted := memoryVerdict.logged (unix r.start) s.counted }
  | .clearExpiredItems now =>
    { s with
      clock := now
      memory := s.memory.clearExpiredItems cfg.expirationDuration (unix now)
      counted := if ∀ t ∈ s.counted.head?, cfg.expirationDuration < unix now - t then [] else s.counted }

/-- One request after the other: none comes before the last one is done. -/
def Serial (s : Handlers) : Op → Prop
  | .request r => s.clock ≤ r.start ∧ r.start ≤ r.finish
  | .clearExpiredItems now => s.clock ≤ now

/-- The handler with Redis refuses a request for the success limit just if it is reached. -/
def RedisRefusesDue (s : Handlers) (o : Op) (_ : Handlers) : Prop :=
  ∀ r, o = .request r → ((redisRateLimitHandler cfg r s.redis).1 = .successLimit ↔ Due cfg r.start s.redisLog)

/-- The handler in memory refuses a request for the success limit just if it is reached. -/
def MemoryRefusesDue (s : Handlers) (o : Op) (_ : Handlers) : Prop :=
  ∀ r, o = .request r → ((memoryRateLimitHandler cfg r s.memory).1 = .successLimit ↔ Due cfg r.start s.memoryLog)

/-- Both handlers decide alike. -/
def SameVerdict (s : Handlers) (o : Op) (_ : Handlers) : Prop :=
  ∀ r, o = .request r → (memoryRateLimitHandler cfg r s.memory).1 = (redisRateLimitHandler cfg r s.redis).1

/-- The limit of all requests lets the request through, and within the duration as many were let through as may succeed,
but one at least, just if the success limit is reached. -/
def CountsDue (s : Handlers) : Op → Prop
  | .request r =>
    ((checkMemoryTotal cfg r.start s.memory).1 = true ∧
        max 1 cfg.successMaxCount ≤ recent cfg.duration (unix r.start) s.counted) ↔
      Due cfg r.start s.memoryLog
  | .clearExpiredItems _ => True

end

/-! ## What Redis holds -/

section
variable {cfg : Config} {clock now : Int} {log : List Int} {s : RedisState}

/-- What Redis holds of the times of a log: enough of them, until the last is out of the duration. -/
structure RedisState.Holds (cfg : Config) (clock : Int) (log : List Int) (s : RedisState) : Prop where
  keeps : Keeps cfg.successMaxCount (cfg.duration * 1000) clock log s.times
  expired : ∀ expireAt ∈ s.expireAt, ∀ t ∈ log, t + cfg.duration * 1000 ≤ expireAt

namespace RedisState.Holds

theorem mono (h : s.Holds cfg clock log) (hnow : clock ≤ now) : s.Holds cfg now log := ⟨h.keeps.mono hnow, h.expired⟩

theorem refresh (h : s.Holds cfg now log) : (s.refresh now).Holds cfg now log := by
  refine ⟨?_, fun expireAt he => ?_⟩
  · unfold RedisState.refresh list
    dsimp only
    split
    · exact h.keeps
    next hexpired =>
      push Not at hexpired
      obtain ⟨expireAt, he, hle⟩ := hexpired
      exact Keeps.nil fun t ht => by
        have hout := h.expired expireAt he t ht
        omega
  · unfold RedisState.refresh at he
    dsimp only at he
    split at he
    · cases he
    · exact h.expired expireAt he

theorem expire (h : s.Holds cfg now log) (hlog : Until now log) :
    (s.expire now (cfg.durationMinutes * 60 * 1000)).Holds cfg now log := by
  unfold RedisState.expire
  split
  · exact h
  · refine ⟨h.keeps, fun expireAt he t ht => ?_⟩
    obtain rfl := Option.some.inj he
    have hle := hlog.le_now t ht
    unfold Config.duration
    omega

/-- `checkRedisRateLimit` refuses just if so many times are in the duration. -/
theorem check (h : 0 < cfg.successMaxCount → s.Holds cfg now log) (hlog : Until now log) :
    ((checkRedisRateLimit cfg now s).1 = false ↔
        0 < cfg.successMaxCount ∧ cfg.successMaxCount ≤ recent (cfg.duration * 1000) now log) ∧
      (0 < cfg.successMaxCount → (checkRedisRateLimit cfg now s).2.Holds cfg now log) := by
  unfold checkRedisRateLimit
  split
  next hzero => exact ⟨iff_of_false Bool.noConfusion fun hand => by omega, h⟩
  next hne =>
  have hpos : 0 < cfg.successMaxCount := Nat.pos_of_ne_zero hne
  have hrefresh := (h hpos).refresh
  rw [and_iff_right hpos, forall_prop_of_true hpos, hrefresh.keeps.full_iff hpos hlog.sorted]
  dsimp only
  split
  next hroom => exact ⟨iff_of_false Bool.noConfusion fun hand => absurd hand.1 hroom.ne, hrefresh⟩
  next hfull =>
  have hlen := hrefresh.keeps.length_le.antisymm (Nat.not_lt.1 hfull)
  rw [and_iff_right hlen]
  split
  next hnone =>
    rw [List.getLast?_eq_none_iff] at hnone
    rw [hnone, List.length_nil] at hlen
    omega
  next oldTime hold =>
    have hle : oldTime ≤ now := hlog.le_now oldTime (hrefresh.keeps.isPrefix.subset (List.mem_of_getLast? hold))
    have hseconds : (now - oldTime).tdiv 1000 < cfg.duration ↔ now - oldTime < cfg.duration * 1000 := by
      rw [Int.tdiv_eq_ediv_of_nonneg (by omega)]
      omega
    rw [hold]
    split
    next hin =>
      refine ⟨iff_of_true rfl fun t ht => ?_, hrefresh.expire hlog⟩
      obtain rfl := Option.some.inj ht
      exact hseconds.1 hin
    next hout => exact ⟨iff_of_false Bool.noConfusion fun hand => hout (hseconds.2 (hand oldTime rfl)), hrefresh⟩

/-- `recordRedisRequest` adds a time. -/
theorem record (h : s.Holds cfg now log) (hlog : Until now log) (hpos : 0 < cfg.successMaxCount) :
    (recordRedisRequest cfg now s).Holds cfg now (now :: log) := by
  unfold recordRedisRequest
  rw [if_neg hpos.ne']
  have hkeeps := h.refresh.keeps.push now
  obtain ⟨n, hn⟩ := Nat.exists_eq_succ_of_ne_zero hpos.ne'
  unfold RedisState.expire
  dsimp only
  rw [hn, List.take_succ_cons, if_neg (List.cons_ne_nil _ _)]
  rw [hn, List.take_succ_cons] at hkeeps
  refine ⟨by rwa [hn], fun expireAt he t ht => ?_⟩
  obtain rfl := Option.some.inj he
  have hle := (hlog.cons le_rfl).le_now t ht
  unfold Config.duration
  omega

end RedisState.Holds

end

/-! ## The step lemmas -/

section
variable {cfg : Config} {r : Request}

/-- What Redis holds for a log of requests. -/
def RedisState.HoldsLog (cfg : Config) (clock : Int) (log : List Request) (s : RedisState) : Prop :=
  Until clock (succeeded log) ∧ (0 < cfg.successMaxCount → s.Holds cfg clock (succeeded log))

theorem RedisState.HoldsLog.mono {clock now : Int} {log : List Request} {s : RedisState} (h : s.HoldsLog cfg clock log)
    (hnow : clock ≤ now) : s.HoldsLog cfg now log :=
  ⟨h.1.mono hnow, fun hpos => (h.2 hpos).mono hnow⟩

theorem succeeded_cons {log : List Request} :
    succeeded (r :: log) = if r.succeeds then r.finish :: succeeded log else succeeded log := by
  unfold succeeded
  rw [List.filter_cons]
  split <;> rfl

theorem RedisState.HoldsLog.handled {log : List Request} {s : RedisState} (h : s.HoldsLog cfg r.start log)
    (hfinish : r.start ≤ r.finish) :
    (if r.succeeds then recordRedisRequest cfg r.finish s else s).HoldsLog cfg r.finish (r :: log) := by
  have hdone := h.mono hfinish
  unfold HoldsLog
  rw [succeeded_cons]
  split
  · exact ⟨hdone.1.cons le_rfl, fun hpos => (hdone.2 hpos).record hdone.1 hpos⟩
  · exact hdone

theorem RedisState.HoldsLog.checkRedisTotal {now : Int} {log : List Request} {s : RedisState} (h : s.HoldsLog cfg now log) :
    (checkRedisTotal cfg now s).2.HoldsLog cfg now log := by
  unfold ModelRequestRateLimit.checkRedisTotal
  split
  · exact ⟨h.1, fun hpos => ⟨(h.2 hpos).keeps, (h.2 hpos).expired⟩⟩
  · exact h

/-- What the handler with Redis makes of a request: it refuses it for the success limit just if it is reached. -/
theorem redisRateLimitHandler_spec {clock : Int} {log : List Request} {s : RedisState} (h : s.HoldsLog cfg clock log)
    (hstart : clock ≤ r.start) (hfinish : r.start ≤ r.finish) :
    ((redisRateLimitHandler cfg r s).1 = .successLimit ↔ Due cfg r.start log) ∧
      (redisRateLimitHandler cfg r s).2.HoldsLog cfg r.finish ((redisRateLimitHandler cfg r s).1.logged r log) := by
  obtain ⟨hlog, hholds⟩ := h.mono hstart
  obtain ⟨hcheck, hchecked⟩ := RedisState.Holds.check hholds hlog
  unfold redisRateLimitHandler
  generalize checkRedisRateLimit cfg r.start s = checked at hcheck hchecked ⊢
  obtain ⟨_ | _, s'⟩ := checked
  · exact ⟨iff_of_true rfl (hcheck.1 rfl), RedisState.HoldsLog.mono ⟨hlog, hchecked⟩ hfinish⟩
  · have hnot : ¬ Due cfg r.start log := fun hdue => Bool.noConfusion (hcheck.2 hdue)
    have htotal := RedisState.HoldsLog.checkRedisTotal (s := s') ⟨hlog, hchecked⟩
    dsimp only
    generalize checkRedisTotal cfg r.start s' = total at htotal ⊢
    obtain ⟨_ | _, s''⟩ := total
    · exact ⟨iff_of_false (fun heq => (by cases heq)) hnot, htotal.mono hfinish⟩
    · exact ⟨iff_of_false (fun heq => (by cases heq)) hnot, htotal.handled hfinish⟩

theorem totalKey_ne_checkKey : totalKey cfg ≠ checkKey cfg := fun h => by
  have hlen := congrArg String.length h
  unfold checkKey successKey totalKey at hlen
  rw [String.length_append, String.length_append, String.length_append] at hlen
  have hcheck : "_check".length = 6 := rfl
  have htotal : "MRRL".length = 4 := rfl
  have hsuccess : "MRRLS".length = 5 := rfl
  omega

theorem successKey_ne_checkKey : successKey cfg ≠ checkKey cfg := fun h => by
  have hlen := congrArg String.length h
  unfold checkKey at hlen
  rw [String.length_append] at hlen
  have hcheck : "_check".length = 6 := rfl
  omega

/-- What the limiter in memory holds under the key of the check: the newest times that it counted. -/
structure MemoryHolds (cfg : Config) (clock : Int) (counted : List Int) (l : InMemoryRateLimiter) : Prop where
  until_clock : Until (unix clock) counted
  kept : l.kept (checkKey cfg) = counted.take (max 1 cfg.successMaxCount)

theorem unix_mono {time time' : Int} (h : time ≤ time') : unix time ≤ unix time' := Int.ediv_le_ediv (by decide) h

/-- What the handler in memory makes of a request: it refuses it for the success limit just if it counted so many that
passed. -/
theorem memoryRateLimitHandler_spec {clock : Int} {counted : List Int} {l : InMemoryRateLimiter}
    (h : MemoryHolds cfg clock counted l) (hstart : clock ≤ r.start) (hfinish : r.start ≤ r.finish) :
    ((memoryRateLimitHandler cfg r l).1 = .successLimit ↔
        (checkMemoryTotal cfg r.start l).1 = true ∧
          max 1 cfg.successMaxCount ≤ recent cfg.duration (unix r.start) counted) ∧
      MemoryHolds cfg r.finish ((memoryRateLimitHandler cfg r l).1.logged (unix r.start) counted)
        (memoryRateLimitHandler cfg r l).2 := by
  have hkept : (checkMemoryTotal cfg r.start l).2.kept (checkKey cfg) = counted.take (max 1 cfg.successMaxCount) := by
    rw [← h.kept]
    unfold checkMemoryTotal
    split
    · exact InMemoryRateLimiter.kept_congr (InMemoryRateLimiter.store_request_ne totalKey_ne_checkKey.symm)
    · rfl
  have hdone := h.until_clock.mono (unix_mono (hstart.trans hfinish))
  unfold memoryRateLimitHandler
  generalize checkMemoryTotal cfg r.start l = total at hkept ⊢
  obtain ⟨_ | _, l'⟩ := total
  · exact ⟨iff_of_false (fun heq => (by cases heq)) fun hand => (by cases hand.1), hdone, hkept⟩
  · have hn : ((max 1 cfg.successMaxCount : Nat) : Int) = max 1 (cfg.successMaxCount : Int) := by omega
    have hlen : (l'.kept (checkKey cfg)).length ≤ max 1 cfg.successMaxCount := by
      rw [hkept]
      exact List.length_take_le _ _
    obtain ⟨hrefused, hcounts⟩ := InMemoryRateLimiter.request_spec cfg.duration (unix r.start) hn hlen
    have hsame : (l'.request (checkKey cfg) cfg.successMaxCount cfg.duration (unix r.start)).1 = false →
        (l'.request (checkKey cfg) cfg.successMaxCount cfg.duration (unix r.start)).2 = l' :=
      InMemoryRateLimiter.request_of_refused
    rw [hkept, ← Keeps.take.full_iff (le_max_left 1 _) h.until_clock.sorted] at hrefused
    rw [hkept, take_cons_take] at hcounts
    rw [← hrefused, and_iff_right rfl]
    dsimp only
    generalize l'.request (checkKey cfg) cfg.successMaxCount cfg.duration (unix r.start) = asked at hcounts hsame ⊢
    obtain ⟨_ | _, l''⟩ := asked
    · exact ⟨iff_of_true rfl rfl, hdone,
        (congrArg (InMemoryRateLimiter.kept (checkKey cfg)) (hsame rfl)).trans hkept⟩
    · refine ⟨iff_of_false (fun heq => (by cases heq)) Bool.noConfusion,
        (h.until_clock.cons (unix_mono hstart)).mono (unix_mono hfinish), ?_⟩
      refine Eq.trans ?_ (hcounts rfl)
      dsimp only
      split
      · exact InMemoryRateLimiter.kept_congr (InMemoryRateLimiter.store_request_ne successKey_ne_checkKey.symm)
      · rfl

theorem MemoryHolds.clearExpiredItems {clock now : Int} {counted : List Int} {l : InMemoryRateLimiter}
    (h : MemoryHolds cfg clock counted l) (hnow : clock ≤ now) :
    MemoryHolds cfg now (if ∀ t ∈ counted.head?, cfg.expirationDuration < unix now - t then [] else counted)
      (l.clearExpiredItems cfg.expirationDuration (unix now)) := by
  have hhead : (counted.take (max 1 cfg.successMaxCount)).head? = counted.head? := by
    rw [List.head?_take, if_neg (by omega)]
  have hkept : (l.clearExpiredItems cfg.expirationDuration (unix now)).kept (checkKey cfg) = _ :=
    InMemoryRateLimiter.kept_clearExpiredItems cfg.expirationDuration
  rw [h.kept, hhead] at hkept
  split at hkept
  next hall =>
    rw [if_pos hall]
    exact ⟨Until.nil, hkept.trans List.take_nil.symm⟩
  next hsome =>
    rw [if_neg hsome]
    exact ⟨h.until_clock.mono (unix_mono hnow), hkept⟩

/-- What the handlers hold is in line with their logs. -/
def Inv (cfg : Config) (s : Handlers) : Prop :=
  s.redis.HoldsLog cfg s.clock s.redisLog ∧ MemoryHolds cfg s.clock s.counted s.memory

theorem step_inv (s : Handlers) (o : Op) (h : Inv cfg s) (hserial : Serial s o) : Inv cfg (step cfg s o) := by
  cases o with
  | request r =>
    exact ⟨(redisRateLimitHandler_spec h.1 hserial.1 hserial.2).2,
      (memoryRateLimitHandler_spec h.2 hserial.1 hserial.2).2⟩
  | clearExpiredItems now => exact ⟨h.1.mono hserial, h.2.clearExpiredItems hserial⟩

theorem inv_start (clock : Int) : Inv cfg { clock } :=
  ⟨⟨Until.nil, fun _ => ⟨Keeps.nil fun _ ht => absurd ht List.not_mem_nil, nofun⟩⟩, Until.nil, List.take_nil.symm⟩

theorem redisRefusesDue_step (s : Handlers) (o : Op) (h : Inv cfg s) (hserial : Serial s o) :
    RedisRefusesDue cfg s o (step cfg s o) := by
  rintro r rfl
  exact (redisRateLimitHandler_spec h.1 hserial.1 hserial.2).1

theorem memoryRefusesDue_iff (s : Handlers) (o : Op) (h : Inv cfg s) (hserial : Serial s o) :
    MemoryRefusesDue cfg s o (step cfg s o) ↔ CountsDue cfg s o := by
  cases o with
  | request r =>
    have hspec := (memoryRateLimitHandler_spec h.2 hserial.1 hserial.2).1
    constructor
    · intro hrefuses
      exact hspec.symm.trans (hrefuses r rfl)
    · rintro hcounts _ ⟨⟩
      exact hspec.trans hcounts
  | clearExpiredItems now => exact iff_of_true nofun trivial

end

/-! ## Main results -/

section
variable {cfg : Config} {r : Request}

theorem redis_ne_totalLimit {s : RedisState} (h : cfg.totalMaxCount ≤ 0) :
    (redisRateLimitHandler cfg r s).1 ≠ .totalLimit := by
  unfold redisRateLimitHandler checkRedisTotal
  split
  · exact fun heq => (by cases heq)
  · rw [if_neg (Int.not_lt.2 h)]
    exact fun heq => (by cases heq)

theorem memory_ne_totalLimit {l : InMemoryRateLimiter} (h : cfg.totalMaxCount ≤ 0) :
    (memoryRateLimitHandler cfg r l).1 ≠ .totalLimit := by
  unfold memoryRateLimitHandler checkMemoryTotal
  rw [if_neg (Int.not_lt.2 h)]
  dsimp only
  split <;> exact fun heq => (by cases heq)

theorem Verdict.ext {v w : Verdict} (hv : v ≠ .totalLimit) (hw : w ≠ .totalLimit)
    (h : v = .successLimit ↔ w = .successLimit) : v = w := by
  cases v <;> cases w <;> simp_all

theorem sameVerdict_step (hcfg : cfg.totalMaxCount ≤ 0) (s : Handlers) (o : Op)
    (h : Inv cfg s ∧ s.redisLog = s.memoryLog) (ho : Serial s o ∧ CountsDue cfg s o) :
    SameVerdict cfg s o (step cfg s o) := by
  rintro r rfl
  have hredis := redisRefusesDue_step s (.request r) h.1 ho.1 r rfl
  have hmemory := (memoryRefusesDue_iff s (.request r) h.1 ho.1).2 ho.2 r rfl
  rw [h.2] at hredis
  exact Verdict.ext (memory_ne_totalLimit hcfg) (redis_ne_totalLimit hcfg) (hmemory.trans hredis.symm)

theorem sameLog_step (hcfg : cfg.totalMaxCount ≤ 0) (s : Handlers) (o : Op)
    (h : Inv cfg s ∧ s.redisLog = s.memoryLog) (ho : Serial s o ∧ CountsDue cfg s o) :
    Inv cfg (step cfg s o) ∧ (step cfg s o).redisLog = (step cfg s o).memoryLog := by
  refine ⟨step_inv s o h.1 ho.1, ?_⟩
  cases o with
  | request r =>
    have hsame := sameVerdict_step hcfg s (.request r) h ho r rfl
    exact congrArg₂ (fun verdict log => Verdict.logged verdict r log) hsame.symm h.2
  | clearExpiredItems now => exact h.2

end

/-- For one request after the other: the handler with Redis refuses a request for the success limit just if it is
reached. The one in memory does so just in the runs in which, at each request that the limit of all requests lets
through, as many were let through within the duration as may succeed, but one at least, if the success limit is reached
and not else. In such a run, where there is no limit of all requests, both handlers decide alike. -/
theorem handlers_agree_iff (cfg : Config) (clock : Int) (ops : List Op)
    (hserial : Run.Meets (step cfg) Serial { clock } ops) :
    Run.Always (step cfg) (RedisRefusesDue cfg) { clock } ops ∧
      (Run.Always (step cfg) (MemoryRefusesDue cfg) { clock } ops ↔
        Run.Meets (step cfg) (CountsDue cfg) { clock } ops) ∧
      (cfg.totalMaxCount ≤ 0 → Run.Meets (step cfg) (CountsDue cfg) { clock } ops →
        Run.Always (step cfg) (SameVerdict cfg) { clock } ops) := by
  refine ⟨hserial.always step_inv redisRefusesDue_step (inv_start clock),
    hserial.always_iff step_inv memoryRefusesDue_iff (inv_start clock), fun hcfg hcounts => ?_⟩
  exact (hserial.and hcounts).always (sameLog_step hcfg) (sameVerdict_step hcfg) ⟨inv_start clock, rfl⟩

instance (cfg : Config) (now : Int) (log : List Request) : Decidable (Due cfg now log) :=
  inferInstanceAs (Decidable (_ ∧ _))

instance (cfg : Config) (s : Handlers) : (o : Op) → Decidable (CountsDue cfg s o)
  | .request _ => inferInstanceAs (Decidable (_ ∧ _ ↔ _))
  | .clearExpiredItems _ => isTrue trivial

/-- Two requests, a second apart. -/
def twoRequests (succeeds : Bool) : List Op :=
  [.request { start := 0, finish := 10, succeeds }, .request { start := 1000, finish := 1010, succeeds }]

/-- One success in a minute. -/
def oneSuccess : Config where
  userId := 1
  totalMaxCount := 0
  successMaxCount := 1
  durationMinutes := 1
  expirationDuration := 60

theorem handlers_agree_two_requests :
    Run.Always (step oneSuccess) (SameVerdict oneSuccess) { clock := 0 } (twoRequests true) :=
  (handlers_agree_iff oneSuccess 0 (twoRequests true)
    ⟨⟨by decide, by decide⟩, ⟨by decide, by decide⟩, trivial⟩).2.2 (by decide)
    ⟨by decide +kernel, by decide +kernel, trivial⟩

/-- After a request that failed the next one is refused in memory, and so is the second one where there is no limit. -/
theorem failed_request_counted :
    (Run.Meets (step oneSuccess) Serial { clock := 0 } (twoRequests false) ∧
        ¬ Run.Always (step oneSuccess) (MemoryRefusesDue oneSuccess) { clock := 0 } (twoRequests false)) ∧
      ¬ Run.Always (step { oneSuccess with successMaxCount := 0 })
        (MemoryRefusesDue { oneSuccess with successMaxCount := 0 }) { clock := 0 } (twoRequests true) := by
  refine ⟨⟨⟨⟨by decide, by decide⟩, ⟨by decide, by decide⟩, trivial⟩, fun halways => ?_⟩, fun halways => ?_⟩
  · exact absurd ((halways.2.1 _ rfl).1 (by decide +kernel)) (by decide +kernel)
  · exact absurd ((halways.2.1 _ rfl).1 (by decide +kernel)) (by decide +kernel)

end NewApi.ModelRequestRateLimit

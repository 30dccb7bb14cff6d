import Mathlib.Data.List.Perm.Basic
import NewApi.Lib.Run
import NewApi.RateLimit.InMemory

/-!
# Limits of the subscription accounts

A request to a subscription account passes four limits one after another: the user's rate, the platform's semaphore,
the account's rate, and the account's semaphore. The semaphores are given back where a later limit refuses, and when
the request is done; the rates count attempts. An account without a limit has no use of its semaphore, so a request
must be released with a limit just if it was admitted with one (`limits_accounted`).
-/

namespace NewApi.RateLimit

/-- A buffered channel of permits. -/
structure Semaphore where
  cap : Nat
  held : Nat
  held_le : held ≤ cap

namespace Semaphore

/-- `make(chan struct, cap)`. -/
def new (cap : Nat) : Semaphore := ⟨cap, 0, Nat.zero_le cap⟩

/-- A send that does not block. -/
def acquire (s : Semaphore) : Option Semaphore :=
  if h : s.held < s.cap then some { s with held := s.held + 1, held_le := h } else none

/-- A receive that does not block. -/
def release (s : Semaphore) : Semaphore :=
  { s with held := s.held - 1, held_le := (Nat.sub_le _ _).trans s.held_le }

end Semaphore

/-! ## Semaphores by name -/

section
variable {κ : Type} [DecidableEq κ]

/-- A `sync.Map` of semaphores. The keys of the source are made of the account's id or the platform's name. -/
abbrev Semaphores (κ : Type) := κ → Option Semaphore

namespace Semaphores

/-- `getOrCreateAccountSemaphore` and `getOrCreatePlatformSemaphore`. -/
def getOrCreate (k : κ) (maxConcurrent : Int) (m : Semaphores κ) : Semaphore :=
  (m k).getD (.new maxConcurrent.toNat)

/-- A permit is taken if there is one. The semaphore is there after it. -/
def acquire (k : κ) (maxConcurrent : Int) (m : Semaphores κ) : Bool × Semaphores κ :=
  match (m.getOrCreate k maxConcurrent).acquire with
  | some sem => (true, Function.update m k (some sem))
  | none => (false, Function.update m k (some (m.getOrCreate k maxConcurrent)))

/-- A permit is given back if one is taken. -/
def release (k : κ) (maxConcurrent : Int) (m : Semaphores κ) : Semaphores κ :=
  Function.update m k (some (m.getOrCreate k maxConcurrent).release)

/-- The permits that are taken. -/
def occupancy (k : κ) (m : Semaphores κ) : Nat := ((m k).map Semaphore.held).getD 0

variable {m : Semaphores κ} {k k' : κ} {maxConcurrent : Int}

theorem occupancy_update (sem : Semaphore) :
    occupancy k' (Function.update m k (some sem)) = if k' = k then sem.held else occupancy k' m := by
  unfold occupancy
  rw [Function.update_apply]
  split <;> rfl

omit [DecidableEq κ] in
theorem held_getOrCreate : (m.getOrCreate k maxConcurrent).held = occupancy k m := by
  unfold getOrCreate occupancy
  cases m k <;> rfl

theorem acquire_true (h : (m.acquire k maxConcurrent).1 = true) :
    (∀ k', occupancy k' (m.acquire k maxConcurrent).2 = occupancy k' m + if k' = k then 1 else 0) ∧
      occupancy k m < (m.getOrCreate k maxConcurrent).cap := by
  unfold acquire at h ⊢
  split at h
  next sem hsem =>
    unfold Semaphore.acquire at hsem
    split at hsem
    next hlt =>
      cases hsem
      refine ⟨fun k' => ?_, held_getOrCreate ▸ hlt⟩
      rw [occupancy_update]
      split
      next hk =>
        rw [hk]
        exact congrArg (· + 1) held_getOrCreate
      · rfl
    · cases hsem
  · cases h

theorem acquire_false (h : (m.acquire k maxConcurrent).1 = false) (k' : κ) :
    occupancy k' (m.acquire k maxConcurrent).2 = occupancy k' m := by
  unfold acquire at h ⊢
  split at h
  · cases h
  · dsimp only
    rw [occupancy_update, held_getOrCreate]
    split
    next hk => rw [hk]
    · rfl

theorem occupancy_release (k' : κ) :
    occupancy k' (m.release k maxConcurrent) = occupancy k' m - if k' = k then 1 else 0 := by
  unfold release
  rw [occupancy_update]
  split
  next hk =>
    rw [hk]
    exact congrArg (· - 1) held_getOrCreate
  · rfl

end Semaphores

end

/-! ## The limiter -/

/-- `SubscriptionRateLimiter`. -/
structure SubscriptionRateLimiter where
  userLimiter : InMemoryRateLimiter := {}
  accountLimiter : InMemoryRateLimiter := {}
  accountSemaphores : Semaphores Nat := fun _ => none
  platformSemaphores : Semaphores String := fun _ => none

/-- `DefaultSubscriptionRateLimit.MaxRequests`. -/
def defaultMaxRequests : Int := 30

/-- `DefaultSubscriptionRateLimit.DurationMinutes`, in seconds. -/
def userDuration : Int := 60

/-- `DefaultPlatformConcurrency`, where a platform that is not named has 0. -/
def defaultPlatformConcurrency (platform : String) : Int :=
  if platform ∈ ["claude", "codex", "gemini"] then 20 else 0

def userKey (userId : Int) : String := "user:" ++ toString userId

def accountKey (accountId : Nat) : String := "account:" ++ toString accountId

namespace SubscriptionRateLimiter

/-- `CheckUserRateLimit`. -/
def checkUserRateLimit (userId : Int) (maxRequests now : Int) (rl : SubscriptionRateLimiter) :
    Bool × SubscriptionRateLimiter :=
  let maxRequests := if maxRequests ≤ 0 then defaultMaxRequests else maxRequests
  let r := rl.userLimiter.request (userKey userId) maxRequests userDuration now
  (r.1, { rl with userLimiter := r.2 })

/-- `CheckAccountRateLimit`. -/
def checkAccountRateLimit (accountId : Nat) (rpm now : Int) (rl : SubscriptionRateLimiter) :
    Bool × SubscriptionRateLimiter :=
  if rpm ≤ 0 then (true, rl)
  else
    let r := rl.accountLimiter.request (accountKey accountId) rpm 60 now
    (r.1, { rl with accountLimiter := r.2 })

/-- `AcquireAccountConcurrency`. -/
def acquireAccountConcurrency (accountId : Nat) (maxConcurrent : Int) (rl : SubscriptionRateLimiter) :
    Bool × SubscriptionRateLimiter :=
  if maxConcurrent ≤ 0 then (true, rl)
  else
    let r := rl.accountSemaphores.acquire accountId maxConcurrent
    (r.1, { rl with accountSemaphores := r.2 })

/-- `ReleaseAccountConcurrency`. -/
def releaseAccountConcurrency (accountId : Nat) (maxConcurrent : Int) (rl : SubscriptionRateLimiter) :
    SubscriptionRateLimiter :=
  if maxConcurrent ≤ 0 then rl
  else { rl with accountSemaphores := rl.accountSemaphores.release accountId maxConcurrent }

/-- The permits of a platform, where the caller does not say how many. -/
def platformConcurrency (platform : String) (maxConcurrent : Int) : Int :=
  if maxConcurrent ≤ 0 then
    if defaultPlatformConcurrency platform ≤ 0 then 20 else defaultPlatformConcurrency platform
  else maxConcurrent

/-- `AcquirePlatformConcurrency`. -/
def acquirePlatformConcurrency (platform : String) (maxConcurrent : Int) (rl : SubscriptionRateLimiter) :
    Bool × SubscriptionRateLimiter :=
  let r := rl.platformSemaphores.acquire platform (platformConcurrency platform maxConcurrent)
  (r.1, { rl with platformSemaphores := r.2 })

/-- `ReleasePlatformConcurrency`. -/
def releasePlatformConcurrency (platform : String) (maxConcurrent : Int) (rl : SubscriptionRateLimiter) :
    SubscriptionRateLimiter :=
  { rl with
    platformSemaphores := rl.platformSemaphores.release platform (platformConcurrency platform maxConcurrent) }

end SubscriptionRateLimiter

/-- What a request asks for, with the account's settings. -/
structure Request where
  userId : Int
  accountId : Nat
  platform : String
  rpm : Int := 0
  maxConcurrent : Int := 0
deriving DecidableEq

namespace SubscriptionRateLimiter

/-- `CheckAndLimitSubscriptionRequest`: the status, where 0 lets the request pass, and the message. -/
def checkAndLimitSubscriptionRequest (r : Request) (now : Int) (rl : SubscriptionRateLimiter) :
    (Nat × String) × SubscriptionRateLimiter :=
  match rl.checkUserRateLimit r.userId 0 now with
  | (false, rl) => ((429, "subscription user rate limit exceeded"), rl)
  | (true, rl) =>
    match rl.acquirePlatformConcurrency r.platform 0 with
    | (false, rl) => ((429, "subscription platform concurrency limit exceeded"), rl)
    | (true, rl) =>
      match rl.checkAccountRateLimit r.accountId r.rpm now with
      | (false, rl) => ((429, "subscription account rate limit exceeded"), rl.releasePlatformConcurrency r.platform 0)
      | (true, rl) =>
        match rl.acquireAccountConcurrency r.accountId r.maxConcurrent with
        | (false, rl) =>
          ((429, "subscription account concurrency limit exceeded"), rl.releasePlatformConcurrency r.platform 0)
        | (true, rl) => ((0, ""), rl)

/-- `ReleaseSubscriptionRequestResources`. -/
def releaseSubscriptionRequestResources (accountId : Nat) (platform : String) (maxConcurrent : Int)
    (rl : SubscriptionRateLimiter) : SubscriptionRateLimiter :=
  (rl.releaseAccountConcurrency accountId maxConcurrent).releasePlatformConcurrency platform 0

/-! ### What a check does -/

/-- What a request is counted in: its user's window, and its account's, as far as it gets. -/
structure Counted (r : Request) (now : Int) (rl rl' : SubscriptionRateLimiter) : Prop where
  user : rl'.userLimiter = (rl.userLimiter.request (userKey r.userId) defaultMaxRequests userDuration now).2
  account : rl'.accountLimiter = rl.accountLimiter ∨
    rl'.accountLimiter = (rl.accountLimiter.request (accountKey r.accountId) r.rpm 60 now).2

/-- The permits that a request holds while it is in flight. -/
structure Admitted (r : Request) (rl rl' : SubscriptionRateLimiter) : Prop where
  platform : ∀ p, rl'.platformSemaphores.occupancy p =
    rl.platformSemaphores.occupancy p + if p = r.platform then 1 else 0
  account : ∀ a, rl'.accountSemaphores.occupancy a =
    rl.accountSemaphores.occupancy a + if a = r.accountId ∧ 0 < r.maxConcurrent then 1 else 0
  room : 0 < r.maxConcurrent → rl.accountSemaphores.occupancy r.accountId <
    (rl.accountSemaphores.getOrCreate r.accountId r.maxConcurrent).cap

/-- All semaphores are as occupied as they were. -/
structure SameOccupancy (rl rl' : SubscriptionRateLimiter) : Prop where
  platform : ∀ p, rl'.platformSemaphores.occupancy p = rl.platformSemaphores.occupancy p
  account : ∀ a, rl'.accountSemaphores.occupancy a = rl.accountSemaphores.occupancy a

variable {rl rl' : SubscriptionRateLimiter} {r : Request} {now : Int}

theorem checkUserRateLimit_eq {userId : Int} {b : Bool} (h : rl.checkUserRateLimit userId 0 now = (b, rl')) :
    rl' = { rl with
      userLimiter := (rl.userLimiter.request (userKey userId) defaultMaxRequests userDuration now).2 } := by
  cases h
  rfl

theorem checkAccountRateLimit_eq {accountId : Nat} {rpm : Int} {b : Bool}
    (h : rl.checkAccountRateLimit accountId rpm now = (b, rl')) :
    ∃ accountLimiter, rl' = { rl with accountLimiter } ∧ (accountLimiter = rl.accountLimiter ∨
      accountLimiter = (rl.accountLimiter.request (accountKey accountId) rpm 60 now).2) := by
  unfold checkAccountRateLimit at h
  split at h
  · cases h
    exact ⟨_, rfl, .inl rfl⟩
  · cases h
    exact ⟨_, rfl, .inr rfl⟩

theorem acquirePlatformConcurrency_false {platform : String}
    (h : rl.acquirePlatformConcurrency platform 0 = (false, rl')) :
    ∃ platformSemaphores, rl' = { rl with platformSemaphores } ∧
      ∀ p, platformSemaphores.occupancy p = rl.platformSemaphores.occupancy p := by
  obtain ⟨hacquire, rfl⟩ := Prod.mk.inj h
  exact ⟨_, rfl, Semaphores.acquire_false hacquire⟩

theorem acquirePlatformConcurrency_true {platform : String}
    (h : rl.acquirePlatformConcurrency platform 0 = (true, rl')) :
    ∃ platformSemaphores, rl' = { rl with platformSemaphores } ∧
      ∀ p, platformSemaphores.occupancy p = rl.platformSemaphores.occupancy p + if p = platform then 1 else 0 := by
  obtain ⟨hacquire, rfl⟩ := Prod.mk.inj h
  exact ⟨_, rfl, (Semaphores.acquire_true hacquire).1⟩

theorem acquireAccountConcurrency_false {accountId : Nat} {maxConcurrent : Int}
    (h : rl.acquireAccountConcurrency accountId maxConcurrent = (false, rl')) :
    ∃ accountSemaphores, rl' = { rl with accountSemaphores } ∧
      ∀ a, accountSemaphores.occupancy a = rl.accountSemaphores.occupancy a := by
  unfold acquireAccountConcurrency at h
  split at h
  · cases h
  · obtain ⟨hacquire, rfl⟩ := Prod.mk.inj h
    exact ⟨_, rfl, Semaphores.acquire_false hacquire⟩

theorem acquireAccountConcurrency_true {accountId : Nat} {maxConcurrent : Int}
    (h : rl.acquireAccountConcurrency accountId maxConcurrent = (true, rl')) :
    ∃ accountSemaphores, rl' = { rl with accountSemaphores } ∧
      (∀ a, accountSemaphores.occupancy a =
        rl.accountSemaphores.occupancy a + if a = accountId ∧ 0 < maxConcurrent then 1 else 0) ∧
      (0 < maxConcurrent → rl.accountSemaphores.occupancy accountId <
        (rl.accountSemaphores.getOrCreate accountId maxConcurrent).cap) := by
  unfold acquireAccountConcurrency at h
  split at h
  next hle =>
    cases h
    have hnot : ¬ 0 < maxConcurrent := Int.not_lt.2 hle
    exact ⟨_, rfl, fun a => by rw [if_neg fun h => hnot h.2, Nat.add_zero], fun h => absurd h hnot⟩
  next hlt =>
    have hpos : 0 < maxConcurrent := Int.not_le.1 hlt
    obtain ⟨hacquire, rfl⟩ := Prod.mk.inj h
    obtain ⟨hocc, hroom⟩ := Semaphores.acquire_true hacquire
    refine ⟨_, rfl, fun a => ?_, fun _ => hroom⟩
    rw [hocc, if_congr (and_iff_left hpos).symm rfl rfl]

theorem occupancy_back {platform : String} {m : Semaphores String} {maxConcurrent : Int}
    (h : ∀ p, m.occupancy p = rl.platformSemaphores.occupancy p + if p = platform then 1 else 0) (p : String) :
    (m.release platform maxConcurrent).occupancy p = rl.platformSemaphores.occupancy p := by
  rw [Semaphores.occupancy_release, h, Nat.add_sub_cancel]

theorem check_spec (rl : SubscriptionRateLimiter) (r : Request) (now : Int) :
    Counted r now rl (rl.checkAndLimitSubscriptionRequest r now).2 ∧
      if (rl.checkAndLimitSubscriptionRequest r now).1.1 = 0 then
        Admitted r rl (rl.checkAndLimitSubscriptionRequest r now).2
      else SameOccupancy rl (rl.checkAndLimitSubscriptionRequest r now).2 := by
  unfold checkAndLimitSubscriptionRequest
  split
  next rl₁ huser =>
    obtain rfl := checkUserRateLimit_eq huser
    exact ⟨⟨rfl, .inl rfl⟩, ⟨fun _ => rfl, fun _ => rfl⟩⟩
  next rl₁ huser =>
    obtain rfl := checkUserRateLimit_eq huser
    split
    next hplatform =>
      obtain ⟨m, rfl, hsame⟩ := acquirePlatformConcurrency_false hplatform
      exact ⟨⟨rfl, .inl rfl⟩, ⟨hsame, fun _ => rfl⟩⟩
    next hplatform =>
      obtain ⟨m, rfl, hone⟩ := acquirePlatformConcurrency_true hplatform
      split
      next haccount =>
        obtain ⟨l, rfl, hl⟩ := checkAccountRateLimit_eq haccount
        exact ⟨⟨rfl, hl⟩, ⟨occupancy_back hone, fun _ => rfl⟩⟩
      next haccount =>
        obtain ⟨l, rfl, hl⟩ := checkAccountRateLimit_eq haccount
        split
        next hacquire =>
          obtain ⟨m', rfl, hsame⟩ := acquireAccountConcurrency_false hacquire
          exact ⟨⟨rfl, hl⟩, ⟨occupancy_back hone, hsame⟩⟩
        next hacquire =>
          obtain ⟨m', rfl, hone', hroom⟩ := acquireAccountConcurrency_true hacquire
          exact ⟨⟨rfl, hl⟩, ⟨hone, hone', hroom⟩⟩

theorem occupancy_releaseSubscriptionRequestResources (rl : SubscriptionRateLimiter) (accountId : Nat)
    (platform : String) (maxConcurrent : Int) :
    (∀ p, (rl.releaseSubscriptionRequestResources accountId platform maxConcurrent).platformSemaphores.occupancy p =
      rl.platformSemaphores.occupancy p - if p = platform then 1 else 0) ∧
    ∀ a, (rl.releaseSubscriptionRequestResources accountId platform maxConcurrent).accountSemaphores.occupancy a =
      rl.accountSemaphores.occupancy a - if a = accountId ∧ 0 < maxConcurrent then 1 else 0 := by
  unfold releaseSubscriptionRequestResources releaseAccountConcurrency
  split
  next hle =>
    refine ⟨Semaphores.occupancy_release, fun a => ?_⟩
    rw [if_neg fun h => absurd h.2 (Int.not_lt.2 hle)]
    rfl
  next hlt =>
    refine ⟨Semaphores.occupancy_release, fun a => ?_⟩
    exact (Semaphores.occupancy_release a).trans
      (congrArg _ (if_congr (and_iff_left (Int.not_le.1 hlt)).symm rfl rfl))

end SubscriptionRateLimiter

/-! ## Runs -/

/-- The limiter, and the requests that were admitted and are not released yet. -/
structure State where
  rl : SubscriptionRateLimiter := {}
  inFlight : List Request := []

/-- A check of a request, the release of a request in flight with the limit that its account has then, and a round of
cleaning of the windows. -/
inductive Op where
  | check (r : Request) (now : Int)
  | release (i : Nat) (maxConcurrent : Int)
  | clearExpired (now : Int)

/-- What a call does to the limiter and the requests in flight. -/
def step (s : State) : Op → State
  | .check r now =>
    { rl := (s.rl.checkAndLimitSubscriptionRequest r now).2
      inFlight := if (s.rl.checkAndLimitSubscriptionRequest r now).1.1 = 0 then r :: s.inFlight else s.inFlight }
  | .release i maxConcurrent =>
    match s.inFlight[i]? with
    | some r =>
      { rl := s.rl.releaseSubscriptionRequestResources r.accountId r.platform maxConcurrent
        inFlight := s.inFlight.eraseIdx i }
    | none => s
  | .clearExpired now =>
    { s with rl := { s.rl with
        userLimiter := s.rl.userLimiter.clearExpiredItems userDuration now
        accountLimiter := s.rl.accountLimiter.clearExpiredItems 60 now } }

/-- The requests in flight to a platform. -/
def State.onPlatform (p : String) (s : State) : Nat := s.inFlight.countP fun r => p = r.platform

/-- The requests in flight to an account that were admitted with a limit. -/
def State.limited (a : Nat) (s : State) : Nat := s.inFlight.countP fun r => a = r.accountId ∧ 0 < r.maxConcurrent

/-- A request is released with a limit just if it was admitted with one. -/
def Paired (s : State) : Op → Prop
  | .release i maxConcurrent => ∀ r ∈ s.inFlight[i]?, 0 < maxConcurrent ↔ 0 < r.maxConcurrent
  | _ => True

/-- The semaphores hold a permit for each request in flight, an account's for those with a limit. -/
structure Accounted (s : State) : Prop where
  platform : ∀ p, s.rl.platformSemaphores.occupancy p = s.onPlatform p
  account : ∀ a, s.rl.accountSemaphores.occupancy a = s.limited a

/-- What a check keeps to: a request with a limit is admitted only below it, where its account's semaphore was made
with the same limit; a rejected check leaves the semaphores as they were, and counts the attempt in the user's window
and at most in the account's. -/
def Fair (s : State) : Op → State → Prop
  | .check r now, s' =>
    (if (s.rl.checkAndLimitSubscriptionRequest r now).1.1 = 0 then
      0 < r.maxConcurrent → (∀ sem ∈ s.rl.accountSemaphores r.accountId, (sem.cap : Int) = r.maxConcurrent) →
        (s.limited r.accountId : Int) < r.maxConcurrent
    else SubscriptionRateLimiter.SameOccupancy s.rl s'.rl) ∧
    SubscriptionRateLimiter.Counted r now s.rl s'.rl
  | _, _ => True

theorem countP_eraseIdx {α : Type} {l : List α} {i : Nat} {x : α} (h : l[i]? = some x) (p : α → Bool) :
    (l.eraseIdx i).countP p = l.countP p - if p x then 1 else 0 := by
  obtain ⟨hi, rfl⟩ := List.getElem?_eq_some_iff.1 h
  have hperm : (l[i] :: l.eraseIdx i).Perm l := List.getElem_cons_eraseIdx_perm hi
  rw [← List.Perm.countP_eq p hperm, List.countP_cons, Nat.add_sub_cancel]

theorem Accounted.step {s : State} {o : Op} (h : Accounted s) (ho : Paired s o) :
    Accounted (RateLimit.step s o) := by
  cases o with
  | check r now =>
    have hcheck := (s.rl.check_spec r now).2
    unfold RateLimit.step
    dsimp only
    split at hcheck
    next hadmitted =>
      simp only [if_pos hadmitted]
      refine ⟨fun p => ?_, fun a => ?_⟩
      · unfold State.onPlatform
        rw [hcheck.platform, h.platform, List.countP_cons]
        exact congrArg _ (if_congr (decide_eq_true_iff (p := p = r.platform)).symm rfl rfl)
      · unfold State.limited
        rw [hcheck.account, h.account, List.countP_cons]
        exact congrArg _ (if_congr (decide_eq_true_iff (p := a = r.accountId ∧ 0 < r.maxConcurrent)).symm rfl rfl)
    next hrejected =>
      simp only [if_neg hrejected]
      exact ⟨fun p => (hcheck.platform p).trans (h.platform p), fun a => (hcheck.account a).trans (h.account a)⟩
  | release i maxConcurrent =>
    unfold RateLimit.step
    dsimp only
    split
    next r hr =>
      obtain ⟨hplatform, haccount⟩ :=
        s.rl.occupancy_releaseSubscriptionRequestResources r.accountId r.platform maxConcurrent
      refine ⟨fun p => ?_, fun a => ?_⟩
      · unfold State.onPlatform
        rw [hplatform, h.platform, countP_eraseIdx hr]
        exact congrArg _ (if_congr (decide_eq_true_iff (p := p = r.platform)).symm rfl rfl)
      · unfold State.limited
        rw [haccount, h.account, countP_eraseIdx hr]
        refine congrArg _ (if_congr ?_ rfl rfl)
        rw [decide_eq_true_iff]
        exact and_congr_right fun _ => ho r hr
    · exact h
  | clearExpired now => exact ⟨h.platform, h.account⟩

theorem Accounted.fair {s : State} (h : Accounted s) (o : Op) : Fair s o (RateLimit.step s o) := by
  cases o with
  | check r now =>
    obtain ⟨hcounted, hcheck⟩ := s.rl.check_spec r now
    refine ⟨?_, hcounted⟩
    split
    next hadmitted =>
      intro hpos hsem
      rw [if_pos hadmitted] at hcheck
      have hroom := hcheck.room hpos
      rw [h.account] at hroom
      have hcap : ((s.rl.accountSemaphores.getOrCreate r.accountId r.maxConcurrent).cap : Int) = r.maxConcurrent := by
        unfold Semaphores.getOrCreate
        cases hsome : s.rl.accountSemaphores r.accountId with
        | none => exact Int.toNat_of_nonneg hpos.le
        | some sem => exact hsem sem hsome
      rw [← hcap]
      exact Int.ofNat_lt.2 hroom
    next hrejected =>
      rw [if_neg hrejected] at hcheck
      exact hcheck
  | release i maxConcurrent => trivial
  | clearExpired now => trivial

/-- In every run in which a request is released with a limit just if it was admitted with one, the semaphores hold a
permit for each request in flight to the platform, and for each with a limit to the account, and every check is fair. -/
theorem limits_accounted (ops : List Op) (h : Run.Meets step Paired {} ops) :
    Run.Holds step Accounted {} ops ∧ Run.Always step Fair {} ops := by
  have hstart : Accounted {} := ⟨fun _ => rfl, fun _ => rfl⟩
  exact ⟨h.holds (fun s o hs ho => hs.step ho) (fun s hs => hs) hstart,
    h.always (fun s o hs ho => hs.step ho) (fun s o hs _ => hs.fair o) hstart⟩

/-- A request to an account of the first platform. -/
def claudeRequest (userId : Int) (maxConcurrent : Int) : Request :=
  { userId, accountId := 7, platform := "claude", rpm := 60, maxConcurrent }

/-- Two requests, of which the second one is refused, and the first is released with a limit that is raised since. -/
theorem limits_accounted_two_requests :
    Run.Holds step Accounted {} [.check (claudeRequest 1 1) 100, .check (claudeRequest 2 1) 101, .release 0 3] ∧
      Run.Always step Fair {} [.check (claudeRequest 1 1) 100, .check (claudeRequest 2 1) 101, .release 0 3] := by
  refine limits_accounted _ ⟨trivial, trivial, ?_, trivial⟩
  intro r hr
  have hinFlight : (step (step {} (.check (claudeRequest 1 1) 100)) (.check (claudeRequest 2 1) 101)).inFlight =
      [claudeRequest 1 1] := by decide +kernel
  rw [hinFlight] at hr
  obtain rfl := Option.some.inj hr
  decide

/-- A request without a limit takes no permit of its account, and a check that the account's semaphore refuses is
counted in its user's window. -/
theorem unlimited_not_counted :
    let unlimited := step {} (.check (claudeRequest 1 0) 100)
    let s := step {} (.check (claudeRequest 1 1) 100)
    let refused := s.rl.checkAndLimitSubscriptionRequest (claudeRequest 2 1) 101
    unlimited.inFlight.length = 1 ∧ unlimited.rl.accountSemaphores.occupancy 7 = 0 ∧
      refused.1 = (429, "subscription account concurrency limit exceeded") ∧
      s.rl.userLimiter.store "user:2" = none ∧
      (refused.2.userLimiter.store "user:2").map Queue.times = some [101] := by
  decide +kernel

end NewApi.RateLimit

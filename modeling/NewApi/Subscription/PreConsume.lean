import NewApi.Subscription.Model

/-!
# Consuming a subscription

A request pre-consumes from the first subscription that has enough left, settles the difference later,
or gets what it pre-consumed refunded by its id. The used amount of a subscription goes back to zero at
every reset that its plan provides for. A call in a transaction whose statement fails leaves the store.
-/

namespace NewApi

/-- What `PreConsumeUserSubscription` reports. -/
structure SubscriptionPreConsumeResult where
  userSubscriptionId : Nat
  preConsumed : Int
  amountTotal : Int
  amountUsedBefore : Int
  amountUsedAfter : Int
deriving DecidableEq

/-! ## Resets -/

section
variable (cal : Calendar) (plan : SubscriptionPlan) (now endUnix : Int)

/-- The loop of `maybeResetUserSubscriptionWithPlanTx`: the last reset time that is not after now, and
the one that follows it. -/
def lastReset : Nat → Int → Int → Option (Int × Int)
  | 0, _, _ => none
  | fuel + 1, base, next =>
    if next > 0 ∧ next ≤ now then
      lastReset fuel next (calcNextResetTime cal next plan endUnix)
    else some (base, next)

end

/-- `maybeResetUserSubscriptionWithPlanTx`: the row that is saved. Reset times of a schedule that moves
on are distinct numbers between one and now, so that the loop does not return if it runs out. -/
def maybeResetUserSubscription (cal : Calendar) (plan : SubscriptionPlan) (now : Int)
    (sub : UserSubscription) : Option UserSubscription :=
  if sub.nextResetTime > 0 ∧ sub.nextResetTime > now then some sub
  else if normalizeResetPeriod plan.quotaResetPeriod = .never then some sub
  else
    let base := if sub.lastResetTime ≤ 0 then sub.startTime else sub.lastResetTime
    let next := calcNextResetTime cal base plan sub.endTime
    if next > 0 ∧ next ≤ now then
      (lastReset cal plan now sub.endTime (now.toNat + 1) base next).map fun (base, next) =>
        { sub with amountUsed := 0, lastResetTime := base, nextResetTime := next }
    else if sub.nextResetTime = 0 ∧ next > 0 then
      some { sub with nextResetTime := next, lastResetTime := base }
    else some sub

/-- The columns that `Save` writes. -/
def UserSubscription.saved (sub row : UserSubscription) : UserSubscription := { sub with id := row.id }

@[simp] theorem UserSubscription.saved_id (sub row : UserSubscription) :
    (sub.saved row).id = row.id := rfl

/-- A record that has been refunded. -/
def PreConsumeRecord.refunded (record : PreConsumeRecord) : PreConsumeRecord :=
  { record with status := .refunded }

@[simp] theorem PreConsumeRecord.refunded_requestId (record : PreConsumeRecord) :
    record.refunded.requestId = record.requestId := rfl

namespace SubscriptionStore

/-- `Save` of a subscription that is there. -/
def saveSub (sub : UserSubscription) (s : SubscriptionStore) : SubscriptionStore :=
  { s with subs := s.subs.modify sub.id sub.saved (UserSubscription.saved_id sub) }

/-! ## Pre-consuming -/

/-- The subscriptions a user can consume from, the first to end first. -/
def candidates (userId : Nat) (now : Int) (s : SubscriptionStore) : List UserSubscription :=
  (s.subs.rows.filter fun sub =>
    sub.userId = userId ∧ sub.status = .active ∧ sub.endTime > now).insertionSort EndsBefore

/-- The loop of `PreConsumeUserSubscription` over the candidates. -/
def chargeFirst (cal : Calendar) (planById : Nat → Option SubscriptionPlan) (requestId : String)
    (userId : Nat) (amount now : Int) : List UserSubscription → SubscriptionStore →
      Except SubscriptionError (SubscriptionPreConsumeResult × SubscriptionStore)
  | [], _ => .error (.insufficient amount)
  | candidate :: rest, s =>
    match planById candidate.planId with
    | none => .error .invalidPlan
    | some plan =>
      match maybeResetUserSubscription cal plan now candidate with
      | none => .error .noReturn
      | some sub =>
        if sub.amountTotal > 0 ∧ sub.amountTotal - sub.amountUsed < amount then
          chargeFirst cal planById requestId userId amount now rest (s.saveSub sub)
        else
          let used := sub.amountUsed + amount
          let s := (s.saveSub sub).saveSub { sub with amountUsed := used }
          .ok (⟨sub.id, amount, sub.amountTotal, sub.amountUsed, used⟩,
            { s with records := s.records.insertNew ⟨requestId, userId, sub.id, amount, .consumed⟩ })

/-- `PreConsumeUserSubscription`. The transaction may fail. -/
def preConsumeUserSubscription (cal : Calendar) (planById : Nat → Option SubscriptionPlan)
    (fails : Bool) (requestId : String) (userId : Nat) (amount now : Int) (s : SubscriptionStore) :
    Except SubscriptionError (SubscriptionPreConsumeResult × SubscriptionStore) :=
  if userId = 0 then .error .invalidUserId
  else if GoString.trimSpace requestId = "" then .error .emptyRequestId
  else if amount ≤ 0 then .error .invalidAmount
  else if fails then .error .database
  else
    match s.records.get? requestId with
    | some existing =>
      if existing.status = .refunded then .error .alreadyRefunded
      else
        match s.subs.get? existing.userSubscriptionId with
        | none => .error .notFound
        | some sub =>
          .ok (⟨sub.id, existing.preConsumed, sub.amountTotal, sub.amountUsed, sub.amountUsed⟩, s)
    | none =>
      let candidates := s.candidates userId now
      if candidates = [] then .error .noActive
      else chargeFirst cal planById requestId userId amount now candidates s

/-! ## Settling and refunding -/

/-- The used amount is changed by a delta, and is not negative. -/
def addUsed (delta : Int) (sub : UserSubscription) : UserSubscription :=
  { sub with amountUsed := max 0 (sub.amountUsed + delta) }

@[simp] theorem addUsed_id (delta : Int) (sub : UserSubscription) : (addUsed delta sub).id = sub.id :=
  rfl

/-- `PostConsumeUserSubscriptionDelta`. The transaction may fail. -/
def postConsumeUserSubscriptionDelta (fails : Bool) (userSubscriptionId : Nat) (delta : Int)
    (s : SubscriptionStore) : Except SubscriptionError SubscriptionStore :=
  if userSubscriptionId = 0 then .error .invalidId
  else if delta = 0 then .ok s
  else if fails then .error .database
  else
    match s.subs.get? userSubscriptionId with
    | none => .error .notFound
    | some sub =>
      let newUsed := max 0 (sub.amountUsed + delta)
      if sub.amountTotal > 0 ∧ newUsed > sub.amountTotal then
        .error (.exceedsTotal newUsed sub.amountTotal)
      else
        .ok { s with subs := s.subs.modify userSubscriptionId (addUsed delta) (addUsed_id delta) }

/-- `Save` of a record as refunded, in the transaction that has read it. -/
def saveRefunded (fails : Bool) (requestId : String) (s : SubscriptionStore) :
    Option SubscriptionError × SubscriptionStore :=
  if fails then (some .database, s)
  else
    (none, { s with
      records := s.records.modify requestId .refunded PreConsumeRecord.refunded_requestId })

/-- `RefundSubscriptionPreConsume`: the error, and the store it leaves. The used amount is changed in a
transaction of its own, so that it stays changed where saving the record fails. -/
def refundSubscriptionPreConsume (deltaFails saveFails : Bool) (requestId : String)
    (s : SubscriptionStore) : Option SubscriptionError × SubscriptionStore :=
  if GoString.trimSpace requestId = "" then (some .emptyRequestId, s)
  else
    match s.records.get? requestId with
    | none => (some .notFound, s)
    | some record =>
      if record.status = .refunded then (none, s)
      else if record.preConsumed ≤ 0 then s.saveRefunded saveFails requestId
      else
        match s.postConsumeUserSubscriptionDelta deltaFails record.userSubscriptionId
          (-record.preConsumed) with
        | .error e => (some e, s)
        | .ok s => s.saveRefunded saveFails requestId

/-! ## Resetting -/

/-- `maybeResetUserSubscriptionWithPlanTx` of a subscription, in a transaction of its own. -/
def maybeResetTx (cal : Calendar) (plan : SubscriptionPlan) (fails : Bool) (id : Nat) (now : Int)
    (s : SubscriptionStore) : Except SubscriptionError SubscriptionStore :=
  match s.subs.get? id with
  | none => .error .notFound
  | some sub =>
    if fails then .error .database
    else
      match maybeResetUserSubscription cal plan now sub with
      | none => .error .noReturn
      | some sub => .ok (s.saveSub sub)

/-- One subscription is reset in a transaction, where it is still due; whether it was is reported. -/
def resetSubscription (cal : Calendar) (plan : SubscriptionPlan) (fails : Bool) (id : Nat) (now : Int)
    (s : SubscriptionStore) : Except SubscriptionError (Bool × SubscriptionStore) :=
  match s.subs.get? id with
  | none => .ok (false, s)
  | some locked =>
    if locked.nextResetTime > 0 ∧ locked.nextResetTime ≤ now then
      (s.maybeResetTx cal plan fails id now).map fun s => (true, s)
    else .ok (false, s)

/-- The subscriptions that are due for a reset, the first to be reset first. -/
def dueResets (limit : Int) (now : Int) (s : SubscriptionStore) : List UserSubscription :=
  let limit := if limit ≤ 0 then 200 else limit.toNat
  ((s.subs.rows.filter fun sub =>
    sub.nextResetTime > 0 ∧ sub.nextResetTime ≤ now ∧ sub.status = .active).insertionSort
      fun a b => a.nextResetTime ≤ b.nextResetTime).take limit

/-- The loop of `ResetDueSubscriptions`: the error, how many were reset, and the store it leaves. -/
def resetEach (cal : Calendar) (planById : Nat → Option SubscriptionPlan) (fails : Nat → Bool)
    (now : Int) : List UserSubscription → Nat → SubscriptionStore →
      Option SubscriptionError × Nat × SubscriptionStore
  | [], count, s => (none, count, s)
  | sub :: rest, count, s =>
    match planById sub.planId with
    | none => resetEach cal planById fails now rest count s
    | some plan =>
      match s.resetSubscription cal plan (fails sub.id) sub.id now with
      | .error e => (some e, count, s)
      | .ok (reset, s) =>
        resetEach cal planById fails now rest (if reset then count + 1 else count) s

/-- `ResetDueSubscriptions`. The query may fail, and the transaction of a subscription. -/
def resetDueSubscriptions (cal : Calendar) (planById : Nat → Option SubscriptionPlan)
    (queryFails : Bool) (fails : Nat → Bool) (limit now : Int) (s : SubscriptionStore) :
    Option SubscriptionError × Nat × SubscriptionStore :=
  if queryFails then (some .database, 0, s)
  else resetEach cal planById fails now (s.dueResets limit now) 0 s

end SubscriptionStore

end NewApi

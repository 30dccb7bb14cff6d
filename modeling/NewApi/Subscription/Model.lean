import NewApi.Model.User
import NewApi.Lib.Arith
import NewApi.Lib.GoString
import Mathlib.Data.List.Sort
import Mathlib.Data.List.Dedup

/-!
# Subscriptions

Plans, the subscriptions users have from them, and how a subscription begins and ends: it is created
from a plan, expires, or is invalidated or deleted by an administrator. A plan may move its user to a
group; each subscription remembers the group it moved the user from. Times are Unix seconds, and the
calendar of the server's time zone is a parameter.
-/

namespace NewApi

/-- The calendar, on Unix seconds. -/
structure Calendar where
  /-- `AddDate(years, months, days)`. -/
  addDate : Int → Int → Int → Int → Int
  /-- Midnight of the day, and some days on. -/
  midnightPlus : Int → Int → Int
  /-- `Weekday`, where Sunday is zero. -/
  weekday : Int → Int
  /-- Midnight of the first day of the next month. -/
  nextMonth : Int → Int

/-- A calendar with days and months of fixed lengths. -/
def fixedCalendar : Calendar where
  addDate start years months days := start + ((years * 12 + months) * 30 + days) * 86400
  midnightPlus t days := (t / 86400 + days) * 86400
  weekday t := (t / 86400 + 4) % 7
  nextMonth t := (t / 2592000 + 1) * 2592000

/-- The unit of a plan's duration. -/
inductive DurationUnit
  | year
  | month
  | day
  | hour
  | custom
  | invalid (text : String)
deriving DecidableEq

/-- How often a plan's quota is reset. -/
inductive ResetPeriod
  | never
  | daily
  | weekly
  | monthly
  | custom
deriving DecidableEq

/-- A plan, with the columns that subscriptions are made from. -/
structure SubscriptionPlan where
  id : Nat
  durationUnit : DurationUnit := .month
  durationValue : Int := 1
  customSeconds : Int := 0
  maxPurchasePerUser : Int := 0
  upgradeGroup : String := ""
  totalAmount : Int := 0
  quotaResetPeriod : String := "never"
  quotaResetCustomSeconds : Int := 0
deriving DecidableEq

/-- The status of a subscription. -/
inductive SubscriptionStatus
  | active
  | expired
  | cancelled
deriving DecidableEq

/-- A subscription of a user. -/
structure UserSubscription where
  id : Nat
  userId : Nat
  planId : Nat
  amountTotal : Int
  amountUsed : Int
  startTime : Int
  endTime : Int
  status : SubscriptionStatus
  source : String
  lastResetTime : Int
  nextResetTime : Int
  upgradeGroup : String
  prevUserGroup : String
deriving DecidableEq

/-- The status of a pre-consume record. -/
inductive RecordStatus
  | consumed
  | refunded
deriving DecidableEq

/-- What a request has pre-consumed from a subscription. -/
structure PreConsumeRecord where
  requestId : String
  userId : Nat
  userSubscriptionId : Nat
  preConsumed : Int
  status : RecordStatus
deriving DecidableEq

/-- The users, their subscriptions and the pre-consume records. -/
structure SubscriptionStore where
  users : Users
  subs : Table UserSubscription.id
  records : Table PreConsumeRecord.requestId

/-- Why an operation fails. -/
inductive SubscriptionError
  | invalidPlan
  | invalidUserId
  | invalidId
  | purchaseLimit
  | invalidDurationValue
  | invalidCustomSeconds
  | invalidDurationUnit (text : String)
  | notFound
  | duplicateId
  | emptyRequestId
  | invalidAmount
  | noActive
  | alreadyRefunded
  | insufficient (need : Int)
  | exceedsTotal (used total : Int)
  | noReturn
  | database
deriving DecidableEq

/-! ## Times -/

/-- `Add` of a duration in nanoseconds, in whole seconds. -/
def addDuration (start nanoseconds : Int) : Int := start + nanoseconds / 10 ^ 9

/-- A duration of some seconds, in the nanoseconds of a 64-bit `time.Duration`. -/
def seconds (n : Int) : Int := wrap64 (n * 10 ^ 9)

section
variable (cal : Calendar)

/-- `calcPlanEndTime`. -/
def calcPlanEndTime (start : Int) (plan : SubscriptionPlan) : Except SubscriptionError Int :=
  if plan.durationValue ≤ 0 ∧ plan.durationUnit ≠ .custom then .error .invalidDurationValue
  else
    match plan.durationUnit with
    | .year => .ok (cal.addDate start plan.durationValue 0 0)
    | .month => .ok (cal.addDate start 0 plan.durationValue 0)
    | .day => .ok (addDuration start (seconds (plan.durationValue * 24 * 3600)))
    | .hour => .ok (addDuration start (seconds (plan.durationValue * 3600)))
    | .custom =>
      if plan.customSeconds ≤ 0 then .error .invalidCustomSeconds
      else .ok (addDuration start (seconds plan.customSeconds))
    | .invalid text => .error (.invalidDurationUnit text)

/-- `NormalizeResetPeriod`. -/
def normalizeResetPeriod (period : String) : ResetPeriod :=
  let period := GoString.trimSpace period
  if period = "daily" then .daily
  else if period = "weekly" then .weekly
  else if period = "monthly" then .monthly
  else if period = "custom" then .custom
  else .never

/-- `calcNextResetTime`: zero, where there is none before the end. -/
def calcNextResetTime (base : Int) (plan : SubscriptionPlan) (endUnix : Int) : Int :=
  let beforeEnd next := if endUnix > 0 ∧ next > endUnix then 0 else next
  match normalizeResetPeriod plan.quotaResetPeriod with
  | .never => 0
  | .daily => beforeEnd (cal.midnightPlus base 1)
  | .weekly =>
    let weekday := cal.weekday base
    beforeEnd (cal.midnightPlus base (8 - if weekday = 0 then 7 else weekday))
  | .monthly => beforeEnd (cal.nextMonth base)
  | .custom =>
    if plan.quotaResetCustomSeconds ≤ 0 then 0
    else beforeEnd (addDuration base (seconds plan.quotaResetCustomSeconds))

end

namespace SubscriptionStore

/-! ## Beginning -/

/-- `getUserGroupByIdTx`: empty, where there is no such user. -/
def getUserGroupById (userId : Nat) (s : SubscriptionStore) : String :=
  (s.users.groupOf userId).getD ""

/-- The group a plan moves a user to, and the group it moves the user from; empty, where the user is
in the group already. -/
def upgradeOf (userId : Nat) (plan : SubscriptionPlan) (s : SubscriptionStore) : String × String :=
  let upgradeGroup := GoString.trimSpace plan.upgradeGroup
  let currentGroup := s.getUserGroupById userId
  (upgradeGroup, if upgradeGroup ≠ "" ∧ currentGroup ≠ upgradeGroup then currentGroup else "")

/-- The subscription that is created. -/
def newSubscription (cal : Calendar) (id userId : Nat) (plan : SubscriptionPlan) (source : String)
    (now endUnix : Int) (s : SubscriptionStore) : UserSubscription :=
  let nextReset := calcNextResetTime cal now plan endUnix
  { id := id
    userId := userId
    planId := plan.id
    amountTotal := plan.totalAmount
    amountUsed := 0
    startTime := now
    endTime := endUnix
    status := .active
    source := source
    lastResetTime := if nextReset > 0 then now else 0
    nextResetTime := nextReset
    upgradeGroup := (s.upgradeOf userId plan).1
    prevUserGroup := (s.upgradeOf userId plan).2 }

/-- `CreateUserSubscriptionFromPlanTx`, with the id that the database assigns. -/
def createUserSubscriptionFromPlan (cal : Calendar) (id userId : Nat) (plan : SubscriptionPlan)
    (source : String) (now : Int) (s : SubscriptionStore) :
    Except SubscriptionError SubscriptionStore :=
  if plan.id = 0 then .error .invalidPlan
  else if userId = 0 then .error .invalidUserId
  else if plan.maxPurchasePerUser > 0 ∧
      (s.subs.rows.filter fun sub => sub.userId = userId ∧ sub.planId = plan.id).length ≥
        plan.maxPurchasePerUser then
    .error .purchaseLimit
  else
    match calcPlanEndTime cal now plan with
    | .error e => .error e
    | .ok endUnix =>
      if (s.subs.get? id).isSome then .error .duplicateId
      else
        let upgradeGroup := (s.upgradeOf userId plan).1
        .ok { s with
          users :=
            if upgradeGroup ≠ "" ∧ s.getUserGroupById userId ≠ upgradeGroup then
              s.users.setGroup userId upgradeGroup
            else s.users
          subs := s.subs.insertNew (s.newSubscription cal id userId plan source now endUnix) }

/-! ## Ending -/

/-- The subscription is active, not yet past its end, and upgrades. -/
def IsLive (now : Int) (sub : UserSubscription) : Prop :=
  sub.status = .active ∧ sub.endTime > now ∧ sub.upgradeGroup ≠ ""

instance (now : Int) : DecidablePred (IsLive now) := fun _ => inferInstanceAs (Decidable (_ ∧ _))

/-- `downgradeUserGroupForSubscriptionTx`: the user goes back to the group the subscription moved
them from, unless they are in another group or another subscription upgrades them. -/
def downgradeUserGroupForSubscription (sub : UserSubscription) (now : Int) (s : SubscriptionStore) :
    SubscriptionStore :=
  let upgradeGroup := GoString.trimSpace sub.upgradeGroup
  let currentGroup := s.getUserGroupById sub.userId
  let prevGroup := GoString.trimSpace sub.prevUserGroup
  if upgradeGroup = "" then s
  else if currentGroup ≠ upgradeGroup then s
  else if s.subs.rows.any fun other =>
      other.userId = sub.userId ∧ IsLive now other ∧ other.id ≠ sub.id then
    s
  else if prevGroup = "" ∨ prevGroup = currentGroup then s
  else { s with users := s.users.setGroup sub.userId prevGroup }

/-- A row that is cancelled now. -/
def cancelled (now : Int) (sub : UserSubscription) : UserSubscription :=
  { sub with status := .cancelled, endTime := now }

@[simp] theorem cancelled_id (now : Int) (sub : UserSubscription) : (cancelled now sub).id = sub.id :=
  rfl

/-- `AdminInvalidateUserSubscription`. -/
def adminInvalidateUserSubscription (userSubscriptionId : Nat) (now : Int) (s : SubscriptionStore) :
    Except SubscriptionError SubscriptionStore :=
  if userSubscriptionId = 0 then .error .invalidId
  else
    match s.subs.get? userSubscriptionId with
    | none => .error .notFound
    | some sub =>
      let s := { s with
        subs := s.subs.modify userSubscriptionId (cancelled now) (cancelled_id now) }
      .ok (s.downgradeUserGroupForSubscription sub now)

/-- `AdminDeleteUserSubscription`. -/
def adminDeleteUserSubscription (userSubscriptionId : Nat) (now : Int) (s : SubscriptionStore) :
    Except SubscriptionError SubscriptionStore :=
  if userSubscriptionId = 0 then .error .invalidId
  else
    match s.subs.get? userSubscriptionId with
    | none => .error .notFound
    | some sub =>
      let s := s.downgradeUserGroupForSubscription sub now
      .ok { s with subs := s.subs.filter fun sub => sub.id ≠ userSubscriptionId }

/-- The subscription is still active, though past its end. -/
def IsDue (now : Int) (sub : UserSubscription) : Prop :=
  sub.status = .active ∧ sub.endTime > 0 ∧ sub.endTime ≤ now

instance (now : Int) : DecidablePred (IsDue now) := fun _ => inferInstanceAs (Decidable (_ ∧ _))

/-- A row that has expired. -/
def expired (sub : UserSubscription) : UserSubscription := { sub with status := .expired }

@[simp] theorem expired_id (sub : UserSubscription) : (expired sub).id = sub.id := rfl

/-- The order in which subscriptions end. -/
def EndsBefore (a b : UserSubscription) : Prop :=
  a.endTime < b.endTime ∨ a.endTime = b.endTime ∧ a.id ≤ b.id

instance : DecidableRel EndsBefore := fun _ _ => inferInstanceAs (Decidable (_ ∨ _))

/-- The last one to end, `ORDER BY end_time desc, id desc LIMIT 1`. -/
def lastToEnd (subs : List UserSubscription) : Option UserSubscription :=
  (subs.insertionSort EndsBefore).getLast?

/-- The due subscriptions of a user have expired. -/
def expireRows (now : Int) (userId : Nat) (s : SubscriptionStore) : SubscriptionStore :=
  { s with
    subs := s.subs.modifyWhere (fun sub => sub.userId = userId ∧ IsDue now sub) expired expired_id }

/-- The part of `ExpireDueSubscriptions` that is done for one user, in a transaction. -/
def expireUser (now : Int) (userId : Nat) (s : SubscriptionStore) : SubscriptionStore :=
  let s := s.expireRows now userId
  if s.subs.rows.any fun sub => sub.userId = userId ∧ IsLive now sub then s
  else
    match lastToEnd (s.subs.rows.filter fun sub =>
      sub.userId = userId ∧ sub.status = .expired ∧ sub.upgradeGroup ≠ "") with
    | none => s
    | some lastExpired =>
      let upgradeGroup := GoString.trimSpace lastExpired.upgradeGroup
      let prevGroup := GoString.trimSpace lastExpired.prevUserGroup
      let currentGroup := s.getUserGroupById userId
      if upgradeGroup = "" ∨ prevGroup = "" then s
      else if currentGroup ≠ upgradeGroup ∨ currentGroup = prevGroup then s
      else { s with users := s.users.setGroup userId prevGroup }

/-- The users whose subscriptions a call of `ExpireDueSubscriptions` finds due. -/
def dueUsers (limit : Int) (now : Int) (s : SubscriptionStore) : List Nat :=
  let limit := if limit ≤ 0 then 200 else limit.toNat
  let subs := ((s.subs.rows.filter fun sub => IsDue now sub).insertionSort EndsBefore).take limit
  ((subs.map UserSubscription.userId).filter (· > 0)).dedup

/-- `ExpireDueSubscriptions`, whatever the order in which the users are visited. -/
def expireDueSubscriptions (limit : Int) (now : Int) (s : SubscriptionStore) : SubscriptionStore :=
  (s.dueUsers limit now).foldl (fun s userId => s.expireUser now userId) s

end SubscriptionStore

end NewApi

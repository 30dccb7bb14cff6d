import NewApi.Sales.Model

/-!
# Becoming a sales agent

An administrator sets the level of a user, after a look at how many of the first ten inviters are agents.
A user may also apply; the application carries a level that the inviter's level gives at that time, and is
approved by an administrator, who may choose another level, or by the inviter.
-/

namespace NewApi.Sales

/-- The status of an application. -/
inductive SalesAppStatus
  | pending
  | approved
  | rejected
deriving DecidableEq

/-- An application, with the inviter and the level at the time it was made. -/
structure SalesApplication where
  id : Nat
  userId : Nat
  inviterId : Nat := 0
  proposedLevel : Int := 0
  realName : String
  phone : String
  wechatId : String := ""
  salesChannel : String := ""
  reason : String := ""
  status : SalesAppStatus := .pending
  reviewedBy : Nat := 0
  reviewedAt : Int := 0
  adminRemark : String := ""
  createdAt : Int := 0
deriving DecidableEq

/-- The users and their applications. -/
structure Hierarchy where
  users : Table SalesUser.id
  applications : Table SalesApplication.id

/-- Why a request is refused. -/
inductive AppointError
  | notLoggedIn
  | invalidId
  | levelOutOfRange
  | rateOutOfRange
  | chainFull
  | levelTooHigh (maxAllowed : Int)
  | alreadyPending
  | userNotFound
  | alreadySales
  | nameAndPhoneRequired
  | chainAtLimit
  | invalidAction
  | applicationNotFound
  | alreadyReviewed
  | notAllowed
deriving DecidableEq

/-- The level of a user, 0 where there is none. -/
def levelOf (users : Table SalesUser.id) (id : Nat) : Int :=
  ((users.get? id).map SalesUser.agentLevel).getD 0

/-- The loop of `getReferralChainSalesDepth`. -/
def salesDepthFrom (users : Table SalesUser.id) : Nat → Nat → Int → Int
  | 0, _, depth => depth
  | steps + 1, curr, depth =>
    if curr = 0 then depth
    else
      match users.get? curr with
      | none => depth
      | some u =>
        if u.inviterId = 0 then depth
        else
          salesDepthFrom users steps u.inviterId
            (if levelOf users u.inviterId > 0 then depth + 1 else depth)

/-- `getReferralChainSalesDepth`. -/
def getReferralChainSalesDepth (users : Table SalesUser.id) (userId : Nat) : Int :=
  salesDepthFrom users 10 userId 0

/-- The columns that `AdminSetAgentLevel` writes. -/
def withLevel (agentLevel : Int) (commissionRate : ℚ) (u : SalesUser) : SalesUser :=
  { u with agentLevel := agentLevel, commissionRate := commissionRate }

@[simp] theorem withLevel_id (agentLevel : Int) (commissionRate : ℚ) (u : SalesUser) :
    (withLevel agentLevel commissionRate u).id = u.id := rfl

/-- `AdminSetAgentLevel`. -/
def adminSetAgentLevel (id : Nat) (agentLevel : Int) (commissionRate : ℚ) (h : Hierarchy) :
    Except AppointError Hierarchy :=
  let maxAllowed := 3 - getReferralChainSalesDepth h.users id
  if id = 0 then .error .invalidId
  else if agentLevel < 0 ∨ agentLevel > 3 then .error .levelOutOfRange
  else if commissionRate < 0 ∨ commissionRate > 1 then .error .rateOutOfRange
  else if agentLevel > 0 ∧ maxAllowed < 1 then .error .chainFull
  else if agentLevel > 0 ∧ agentLevel > maxAllowed then .error (.levelTooHigh maxAllowed)
  else
    .ok { h with
      users := h.users.modify id (withLevel agentLevel commissionRate)
        (withLevel_id agentLevel commissionRate) }

/-- `proposedLevelByInviter`. -/
def proposedLevelByInviter (users : Table SalesUser.id) (inviterId : Nat) : Int :=
  if inviterId = 0 then 1
  else
    match users.get? inviterId with
    | none => 1
    | some inviter =>
      if inviter.agentLevel = 0 then 1
      else if inviter.agentLevel = 1 then 2
      else if inviter.agentLevel = 2 then 3
      else if inviter.agentLevel = 3 then 0
      else 1

/-- `UserApplyForSales`. -/
def userApplyForSales (now : Int) (userId : Nat) (realName phone wechatId salesChannel reason : String)
    (h : Hierarchy) : Except AppointError Hierarchy :=
  if userId = 0 then .error .notLoggedIn
  else if ∃ app ∈ h.applications.rows, app.userId = userId ∧ app.status = .pending then
    .error .alreadyPending
  else
    match h.users.get? userId with
    | none => .error .userNotFound
    | some u =>
      if u.agentLevel > 0 then .error .alreadySales
      else if realName = "" ∨ phone = "" then .error .nameAndPhoneRequired
      else
        let proposed := proposedLevelByInviter h.users u.inviterId
        if proposed = 0 then .error .chainAtLimit
        else
          .ok { h with
            applications := h.applications.insertNew
              { id := h.applications.nextKey
                userId := userId
                inviterId := u.inviterId
                proposedLevel := proposed
                realName := realName
                phone := phone
                wechatId := wechatId
                salesChannel := salesChannel
                reason := reason
                createdAt := now } }

/-- The columns that a review writes. -/
def reviewed (status : SalesAppStatus) (adminRemark : String) (reviewerId : Nat) (now : Int)
    (app : SalesApplication) : SalesApplication :=
  { app with
    status := status
    adminRemark := adminRemark
    reviewedBy := reviewerId
    reviewedAt := now }

@[simp] theorem reviewed_id (status : SalesAppStatus) (adminRemark : String) (reviewerId : Nat)
    (now : Int) (app : SalesApplication) :
    (reviewed status adminRemark reviewerId now app).id = app.id := rfl

/-- The columns of the user that an approval writes. -/
def appointed (finalLevel : Int) (u : SalesUser) : SalesUser :=
  { u with agentLevel := finalLevel, isSales := true }

@[simp] theorem appointed_id (finalLevel : Int) (u : SalesUser) : (appointed finalLevel u).id = u.id := rfl

/-- The reviewer is an administrator, or the inviter of the applicant. -/
def MayReview (reviewerId : Nat) (reviewerRole : Int) (app : SalesApplication) : Prop :=
  reviewerRole ≥ 10 ∨ app.inviterId > 0 ∧ reviewerId = app.inviterId

instance (reviewerId : Nat) (reviewerRole : Int) : DecidablePred (MayReview reviewerId reviewerRole) :=
  fun _ => inferInstanceAs (Decidable (_ ∨ _))

/-- The level that an approval gives: an administrator may choose another one than proposed. -/
def finalLevel (reviewerRole overrideLevel : Int) (app : SalesApplication) : Int :=
  if reviewerRole ≥ 10 ∧ overrideLevel ≥ 1 ∧ overrideLevel ≤ 3 then overrideLevel else app.proposedLevel

/-- `ReviewSalesApplication`. -/
def reviewSalesApplication (now : Int) (reviewerId : Nat) (reviewerRole : Int) (id : Nat)
    (action adminRemark : String) (overrideLevel : Int) (h : Hierarchy) :
    Except AppointError Hierarchy :=
  if reviewerId = 0 then .error .notLoggedIn
  else if id = 0 then .error .invalidId
  else if action ≠ "approve" ∧ action ≠ "reject" then .error .invalidAction
  else
    match h.applications.get? id with
    | none => .error .applicationNotFound
    | some app =>
      if app.status ≠ .pending then .error .alreadyReviewed
      else if ¬ MayReview reviewerId reviewerRole app then .error .notAllowed
      else if action = "reject" then
        .ok { h with
          applications := h.applications.modify id (reviewed .rejected adminRemark reviewerId now)
            (reviewed_id .rejected adminRemark reviewerId now) }
      else
        .ok
          { applications := h.applications.modify id (reviewed .approved adminRemark reviewerId now)
              (reviewed_id .approved adminRemark reviewerId now)
            users := h.users.modify app.userId (appointed (finalLevel reviewerRole overrideLevel app))
              (appointed_id (finalLevel reviewerRole overrideLevel app)) }

end NewApi.Sales

import NewApi.Lib.Path
import NewApi.Lib.Run
import NewApi.Sales.Application
import NewApi.Sales.Chain

/-!
# Three levels of sales

No path up the inviters is to have more than three agents on it. Setting a level looks at the inviters of
the user, an application at the level of its inviter when it is made, and a review at nothing; none looks
at the users below.
-/

namespace NewApi.Sales

open Run NewApi.Path

namespace Cap

/-- A call, with the time it is made at. -/
inductive Call
  | setAgentLevel (id : Nat) (agentLevel : Int) (commissionRate : ℚ)
  | apply (now : Int) (userId : Nat) (realName phone wechatId salesChannel reason : String)
  | review (now : Int) (reviewerId : Nat) (reviewerRole : Int) (id : Nat) (action adminRemark : String)
      (overrideLevel : Int)

/-- The users and applications that a call leaves. -/
def step (h : Hierarchy) : Call → Hierarchy
  | .setAgentLevel id agentLevel commissionRate =>
    (adminSetAgentLevel id agentLevel commissionRate h).toOption.getD h
  | .apply now userId realName phone wechatId salesChannel reason =>
    (userApplyForSales now userId realName phone wechatId salesChannel reason h).toOption.getD h
  | .review now reviewerId reviewerRole id action adminRemark overrideLevel =>
    (reviewSalesApplication now reviewerId reviewerRole id action adminRemark overrideLevel
      h).toOption.getD h

/-- The one user is followed by the other, its inviter. -/
def InvitedBy (users : Table SalesUser.id) (a b : Nat) : Prop := inviterOf users a = some b

instance (users : Table SalesUser.id) : DecidableRel (InvitedBy users) := fun _ _ =>
  inferInstanceAs (Decidable (_ = _))

/-- A user has a level. -/
def Seller (users : Table SalesUser.id) (id : Nat) : Prop := 0 < levelOf users id

instance (users : Table SalesUser.id) : DecidablePred (Seller users) := fun _ =>
  inferInstanceAs (Decidable (_ < _))

/-- Every path up the inviters has at most three users with a level. -/
def Capped (h : Hierarchy) : Prop := CappedBy (InvitedBy h.users) 3 (Seller h.users)

/-- The user and the level that a call sets, where it is accepted. -/
def appoints (h : Hierarchy) : Call → Option (Nat × Int)
  | .setAgentLevel id agentLevel commissionRate =>
    if id ≠ 0 ∧ 0 ≤ agentLevel ∧ agentLevel ≤ 3 ∧ 0 ≤ commissionRate ∧ commissionRate ≤ 1 ∧
        (0 < agentLevel → agentLevel ≤ 3 - getReferralChainSalesDepth h.users id) then
      some (id, agentLevel)
    else none
  | .apply .. => none
  | .review _ reviewerId reviewerRole id action _ overrideLevel =>
    match h.applications.get? id with
    | none => none
    | some app =>
      if reviewerId ≠ 0 ∧ id ≠ 0 ∧ action = "approve" ∧ app.status = .pending ∧
          MayReview reviewerId reviewerRole app then
        some (app.userId, finalLevel reviewerRole overrideLevel app)
      else none

/-- Where a call gives a level to a user that had none, no path through that user has three users with a
level yet. -/
def HasRoom (h : Hierarchy) (call : Call) : Prop :=
  ∀ id level, appoints h call = some (id, level) → (h.users.get? id).isSome → 0 < level →
    ¬ Seller h.users id → ∀ below above, (below ++ id :: above).IsChain (InvitedBy h.users) →
      below.countP (fun a => Seller h.users a) + above.countP (fun a => Seller h.users a) < 3

section
variable {h : Hierarchy} {call : Call} {id : Nat} {level : Int}

/-- What a call does to the users: nothing, or it sets the level, and what else, of the one it appoints. -/
structure Appoints (h : Hierarchy) (call : Call) (id : Nat) (level : Int) : Prop where
  appoints : appoints h call = some (id, level)
  users : ∃ f, ∃ hf : ∀ u, (f u).id = u.id, (step h call).users = h.users.modify id f hf ∧
    ∀ u, (f u).agentLevel = level ∧ (f u).inviterId = u.inviterId

theorem setAgentLevel_cases (h : Hierarchy) (id : Nat) (level : Int) (rate : ℚ) :
    (step h (.setAgentLevel id level rate)).users = h.users ∧
        appoints h (.setAgentLevel id level rate) = none ∨
      Appoints h (.setAgentLevel id level rate) id level := by
  by_cases haccepted : id ≠ 0 ∧ 0 ≤ level ∧ level ≤ 3 ∧ 0 ≤ rate ∧ rate ≤ 1 ∧
      (0 < level → level ≤ 3 - getReferralChainSalesDepth h.users id)
  · have happoints : appoints h (.setAgentLevel id level rate) = some (id, level) := if_pos haccepted
    obtain ⟨hid, hlow, hhigh, hrate, hrate', hdepth⟩ := haccepted
    have hok : adminSetAgentLevel id level rate h = .ok { h with
        users := h.users.modify id (withLevel level rate) (withLevel_id level rate) } := by
      unfold adminSetAgentLevel
      dsimp only
      rw [if_neg hid, if_neg (by omega), if_neg (by rw [not_or, not_lt, not_lt]; exact ⟨hrate, hrate'⟩),
        if_neg (by omega), if_neg (by omega)]
    refine .inr ⟨happoints, withLevel level rate, withLevel_id level rate, ?_, fun _ => ⟨rfl, rfl⟩⟩
    unfold step
    dsimp only
    rw [hok]
    rfl
  · refine .inl ⟨?_, if_neg haccepted⟩
    have herror : ∃ e, adminSetAgentLevel id level rate h = .error e := by
      unfold adminSetAgentLevel
      dsimp only
      split
      · exact ⟨_, rfl⟩
      next hid =>
      split
      · exact ⟨_, rfl⟩
      next hrange =>
      split
      · exact ⟨_, rfl⟩
      next hrate =>
      split
      · exact ⟨_, rfl⟩
      split
      · exact ⟨_, rfl⟩
      next hdepth =>
      rw [not_or, not_lt, not_lt] at hrange hrate
      refine absurd ⟨hid, hrange.1, hrange.2, hrate.1, hrate.2, fun hpos => ?_⟩ haccepted
      exact not_lt.1 fun hlt => hdepth ⟨hpos, hlt⟩
    obtain ⟨e, herror⟩ := herror
    unfold step
    dsimp only
    rw [herror]
    rfl

theorem apply_users (h : Hierarchy) (now : Int) (userId : Nat)
    (realName phone wechatId salesChannel reason : String) :
    (step h (.apply now userId realName phone wechatId salesChannel reason)).users = h.users := by
  unfold step userApplyForSales
  dsimp only
  split
  · rfl
  split
  · rfl
  split
  · rfl
  split
  · rfl
  split
  · rfl
  split
  · rfl
  · rfl

theorem review_cases (h : Hierarchy) (now : Int) (reviewerId : Nat) (reviewerRole : Int) (id : Nat)
    (action adminRemark : String) (overrideLevel : Int) :
    (step h (.review now reviewerId reviewerRole id action adminRemark overrideLevel)).users = h.users ∧
        appoints h (.review now reviewerId reviewerRole id action adminRemark overrideLevel) = none ∨
      ∃ userId level, Appoints h (.review now reviewerId reviewerRole id action adminRemark overrideLevel)
        userId level := by
  have hstep : (step h (.review now reviewerId reviewerRole id action adminRemark overrideLevel)) =
      (reviewSalesApplication now reviewerId reviewerRole id action adminRemark overrideLevel
        h).toOption.getD h := rfl
  have happoints : appoints h (.review now reviewerId reviewerRole id action adminRemark overrideLevel) =
      match h.applications.get? id with
      | none => none
      | some app =>
        if reviewerId ≠ 0 ∧ id ≠ 0 ∧ action = "approve" ∧ app.status = .pending ∧
            MayReview reviewerId reviewerRole app then
          some (app.userId, finalLevel reviewerRole overrideLevel app)
        else none := rfl
  unfold reviewSalesApplication at hstep
  cases hget : h.applications.get? id with
  | none =>
    rw [hget] at hstep happoints
    refine .inl ⟨?_, happoints⟩
    rw [hstep]
    split
    · rfl
    split
    · rfl
    split
    · rfl
    · rfl
  | some app =>
    rw [hget] at hstep happoints
    dsimp only at hstep happoints
    split at hstep
    next hreviewer => exact .inl ⟨by rw [hstep]; rfl, happoints.trans (if_neg fun hand => hand.1 hreviewer)⟩
    next hreviewer =>
    split at hstep
    next hid => exact .inl ⟨by rw [hstep]; rfl, happoints.trans (if_neg fun hand => hand.2.1 hid)⟩
    next hid =>
    split at hstep
    next haction =>
      exact .inl ⟨by rw [hstep]; rfl, happoints.trans (if_neg fun hand => haction.1 hand.2.2.1)⟩
    next haction =>
    split at hstep
    next hstatus =>
      exact .inl ⟨by rw [hstep]; rfl, happoints.trans (if_neg fun hand => hstatus hand.2.2.2.1)⟩
    next hstatus =>
    split at hstep
    next hmay =>
      exact .inl ⟨by rw [hstep]; rfl, happoints.trans (if_neg fun hand => hmay hand.2.2.2.2)⟩
    next hmay =>
    split at hstep
    next hreject =>
      refine .inl ⟨by rw [hstep]; rfl, happoints.trans (if_neg fun hand => ?_)⟩
      exact absurd (hand.2.2.1.symm.trans hreject) (by decide)
    next hreject =>
      have happrove : action = "approve" := by
        by_contra hne
        exact haction ⟨hne, hreject⟩
      refine .inr ⟨app.userId, finalLevel reviewerRole overrideLevel app, ?_,
        appointed (finalLevel reviewerRole overrideLevel app), appointed_id _, by rw [hstep]; rfl,
        fun _ => ⟨rfl, rfl⟩⟩
      exact happoints.trans
        (if_pos ⟨hreviewer, hid, happrove, not_not.1 hstatus, not_not.1 hmay⟩)

theorem step_cases (h : Hierarchy) (call : Call) :
    (step h call).users = h.users ∧ appoints h call = none ∨ ∃ id level, Appoints h call id level := by
  cases call with
  | setAgentLevel id level rate =>
    exact (setAgentLevel_cases h id level rate).imp_right fun happoints => ⟨id, level, happoints⟩
  | apply now userId realName phone wechatId salesChannel reason =>
    exact .inl ⟨apply_users h now userId realName phone wechatId salesChannel reason, rfl⟩
  | review now reviewerId reviewerRole id action adminRemark overrideLevel =>
    exact review_cases h now reviewerId reviewerRole id action adminRemark overrideLevel

/-! ## What a call does to the paths -/

theorem levelOf_modify {users : Table SalesUser.id} {f : SalesUser → SalesUser}
    {hf : ∀ u, (f u).id = u.id} (hlevel : ∀ u, (f u).agentLevel = level) (a : Nat) :
    levelOf (users.modify id f hf) a =
      if a = id ∧ (users.get? id).isSome then level else levelOf users a := by
  unfold levelOf
  rw [Table.get?_modify]
  split
  next ha =>
    subst ha
    cases users.get? a with
    | none => exact (if_neg fun hand => nomatch hand.2).symm
    | some u => exact (hlevel u).trans (if_pos ⟨rfl, rfl⟩).symm
  next ha => exact (if_neg fun hand => ha hand.1).symm

theorem invitedBy_step (h : Hierarchy) (call : Call) :
    InvitedBy (step h call).users = InvitedBy h.users := by
  unfold InvitedBy
  rcases step_cases h call with ⟨husers, -⟩ | ⟨id, level, -, f, hf, husers, hf'⟩
  · rw [husers]
  · rw [husers, inviterOf_modify fun u => (hf' u).2]

theorem capped_step_iff (hforest : Acyclic (InvitedBy h.users)) (hcapped : Capped h) :
    Capped (step h call) ↔ HasRoom h call := by
  have hpaths := invitedBy_step h call
  unfold Capped at hcapped ⊢
  rw [hpaths]
  rcases step_cases h call with ⟨husers, hnone⟩ | ⟨id, level, happoints, f, hf, husers, hf'⟩
  · rw [husers]
    refine iff_of_true hcapped fun id level happoints => ?_
    rw [hnone] at happoints
    cases happoints
  · have hlevel : ∀ a, levelOf (step h call).users a =
        if a = id ∧ (h.users.get? id).isSome then level else levelOf h.users a := fun a => by
      rw [husers, levelOf_modify fun u => (hf' u).1]
    have hroom : HasRoom h call ↔ ((h.users.get? id).isSome → 0 < level → ¬ Seller h.users id →
        ∀ below above, (below ++ id :: above).IsChain (InvitedBy h.users) →
          below.countP (fun a => Seller h.users a) + above.countP (fun a => Seller h.users a) < 3) := by
      refine ⟨fun hroom => hroom id level happoints, fun hroom id' level' happoints' => ?_⟩
      rw [happoints] at happoints'
      cases happoints'
      exact hroom
    rw [hroom]
    by_cases hnew : (h.users.get? id).isSome ∧ 0 < level ∧ ¬ Seller h.users id
    · obtain ⟨hmem, hpos, hnot⟩ := hnew
      refine (cappedBy_mark_iff hforest hcapped fun a => ?_).trans
        ⟨fun hroom _ _ _ => hroom, fun hroom => hroom hmem hpos hnot⟩
      unfold Seller
      rw [hlevel]
      split
      next ha => exact iff_of_true hpos (.inr ha.1)
      next ha => exact (or_iff_left fun heq => ha ⟨heq, hmem⟩).symm
    · refine iff_of_true (hcapped.mono fun a ha => ?_) fun hmem hpos hnot => absurd ⟨hmem, hpos, hnot⟩ hnew
      unfold Seller at ha
      rw [hlevel] at ha
      split at ha
      next hand =>
        obtain ⟨rfl, hmem⟩ := hand
        by_contra hnot
        exact hnew ⟨hmem, ha, hnot⟩
      next => exact ha

end

/-- In every run from a forest of inviters that keeps the cap, it is kept just when every call that makes a
user a seller finds room for it on the paths through it. -/
theorem capped_holds_iff (h : Hierarchy) (calls : List Call) (hforest : Acyclic (InvitedBy h.users))
    (hcapped : Capped h) : Holds step Capped h calls ↔ Meets step HasRoom h calls :=
  holds_iff_meets (I := fun h => Acyclic (InvitedBy h.users))
    (fun h call hforest => by rw [invitedBy_step]; exact hforest)
    (fun _ _ hforest hcapped => capped_step_iff hforest hcapped) hforest hcapped

/-! ### A chain appointed from below -/

/-- User 4 was invited by 3, who was invited by 2, who was invited by 1. -/
def fourInARow : Table SalesUser.id :=
  (((Table.insertNew .empty { id := 1 }).insertNew { id := 2, inviterId := 1 }).insertNew
    { id := 3, inviterId := 2 }).insertNew { id := 4, inviterId := 3 }

/-- Each is appointed before its inviter. -/
def fromBelow : List Call :=
  [.setAgentLevel 4 1 0, .setAgentLevel 3 1 0, .setAgentLevel 2 1 0, .setAgentLevel 1 1 0]

theorem fourInARow_acyclic : Acyclic (InvitedBy fourInARow) := by
  refine acyclic_of_lt fun a b hab => ?_
  obtain ⟨u, hget, hinviter⟩ := Option.bind_eq_some_iff.1 hab
  have hrows : ∀ u ∈ fourInARow.rows, u.inviterId = 0 ∨ u.inviterId < u.id := by decide
  obtain ⟨hmem, rfl⟩ := Table.get?_eq_some.1 hget
  split at hinviter
  · cases hinviter
  next hroot =>
    cases hinviter
    exact (hrows u hmem).resolve_left hroot

theorem fourInARow_capped : Capped ⟨fourInARow, .empty⟩ := by
  refine cappedBy_of_forall_not fun id hseller => ?_
  have hrows : ∀ u ∈ fourInARow.rows, u.agentLevel = 0 := by decide
  unfold Seller levelOf at hseller
  cases hget : fourInARow.get? id with
  | none =>
    rw [hget] at hseller
    exact absurd hseller (by decide)
  | some u =>
    rw [hget] at hseller
    exact absurd (hrows u (Table.mem_of_get? hget)) (ne_of_gt hseller)

theorem capped_holds_iff_fromBelow :
    Holds step Capped ⟨fourInARow, .empty⟩ fromBelow ↔ Meets step HasRoom ⟨fourInARow, .empty⟩ fromBelow :=
  capped_holds_iff ⟨fourInARow, .empty⟩ fromBelow fourInARow_acyclic fourInARow_capped

/-- All four are appointed. -/
theorem fromBelow_not_capped : ¬ Holds step Capped ⟨fourInARow, .empty⟩ fromBelow := by
  intro hholds
  exact absurd (hholds.last [4, 3, 2, 1] (by decide +kernel)) (by decide +kernel)

end Cap

end NewApi.Sales

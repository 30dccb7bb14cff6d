import NewApi.Lib.Run
import NewApi.Subscription.Charge

/-!
# What a used amount counts

The used amount of one subscription, over pre-consumptions, settlements, refunds and resets in any order.
Beside the store stand the changes that have been made to the used amount since its last reset, each with
the request that it is for, and the requests that have pre-consumed since then. A settlement or a refund
does not ask when its request has pre-consumed.
-/

namespace NewApi.SubscriptionPeriod

open Run SubscriptionStore

/-- A call that changes used amounts, with the plans it reads and the statements that fail. -/
inductive Call
  | preConsume (planById : Nat → Option SubscriptionPlan) (fails : Bool) (requestId : String)
      (userId : Nat) (amount now : Int)
  /-- `PostConsumeUserSubscriptionDelta` for a request that has pre-consumed. -/
  | settle (fails : Bool) (requestId : String) (delta : Int)
  | refund (deltaFails saveFails : Bool) (requestId : String)
  | maybeReset (plan : SubscriptionPlan) (fails : Bool) (id : Nat) (now : Int)
  | resetDue (planById : Nat → Option SubscriptionPlan) (queryFails : Bool) (fails : Nat → Bool)
      (limit now : Int)

/-- The store that a call leaves. -/
def exec (cal : Calendar) (s : SubscriptionStore) : Call → SubscriptionStore
  | .preConsume planById fails requestId userId amount now =>
    match s.preConsumeUserSubscription cal planById fails requestId userId amount now with
    | .error _ => s
    | .ok (_, s) => s
  | .settle fails requestId delta =>
    match s.records.get? requestId with
    | none => s
    | some record =>
      (s.postConsumeUserSubscriptionDelta fails record.userSubscriptionId delta).toOption.getD s
  | .refund deltaFails saveFails requestId =>
    (s.refundSubscriptionPreConsume deltaFails saveFails requestId).2
  | .maybeReset plan fails id now => (s.maybeResetTx cal plan fails id now).toOption.getD s
  | .resetDue planById queryFails fails limit now =>
    (s.resetDueSubscriptions cal planById queryFails fails limit now).2.2

/-! ## What a call does to one subscription -/

/-- A reset time has come for a subscription of the store. -/
def AdvancesAt (cal : Calendar) (plan : SubscriptionPlan) (now : Int) (id : Nat)
    (s : SubscriptionStore) : Prop :=
  ∃ sub, s.subs.get? id = some sub ∧ Advances cal plan now sub

instance (cal : Calendar) (plan : SubscriptionPlan) (now : Int) (id : Nat) (s : SubscriptionStore) :
    Decidable (AdvancesAt cal plan now id s) :=
  decidable_of_iff ((s.subs.get? id).any fun sub => Advances cal plan now sub)
    (by simp [AdvancesAt, Option.any_eq_true])

/-- The loop of `ResetDueSubscriptions` resets the subscription. -/
def resetsEach (cal : Calendar) (planById : Nat → Option SubscriptionPlan) (fails : Nat → Bool)
    (now : Int) (id : Nat) : List UserSubscription → SubscriptionStore → Bool
  | [], _ => false
  | sub :: rest, s =>
    match planById sub.planId with
    | none => resetsEach cal planById fails now id rest s
    | some plan =>
      match s.resetSubscription cal plan (fails sub.id) sub.id now with
      | .error _ => false
      | .ok (reset, s') =>
        reset && sub.id = id && AdvancesAt cal plan now id s ||
          resetsEach cal planById fails now id rest s'

/-- The call resets the subscription. -/
def resets (cal : Calendar) (id : Nat) (s : SubscriptionStore) : Call → Bool
  | .preConsume planById fails requestId userId amount now =>
    match s.preConsumeUserSubscription cal planById fails requestId userId amount now with
    | .error _ => false
    | .ok _ =>
      s.records.get? requestId = none &&
        decide (∃ c ∈ workedOff cal planById now amount (s.candidates userId now),
          c.id = id ∧ Resets cal planById now c)
  | .settle .. | .refund .. => false
  | .maybeReset plan fails resetId now =>
    match s.maybeResetTx cal plan fails resetId now with
    | .error _ => false
    | .ok _ => resetId = id && AdvancesAt cal plan now id s
  | .resetDue planById queryFails fails limit now =>
    !queryFails && resetsEach cal planById fails now id (s.dueResets limit now) s

/-- What the call adds to the used amount of the subscription, if anything, and for which request. -/
def change (cal : Calendar) (id : Nat) (s : SubscriptionStore) : Call → Option (String × Int)
  | .preConsume planById fails requestId userId amount now =>
    match s.preConsumeUserSubscription cal planById fails requestId userId amount now with
    | .error _ => none
    | .ok (res, _) =>
      if s.records.get? requestId = none ∧ res.userSubscriptionId = id then some (requestId, amount)
      else none
  | .settle fails requestId delta =>
    match s.records.get? requestId with
    | none => none
    | some record =>
      match s.postConsumeUserSubscriptionDelta fails record.userSubscriptionId delta with
      | .error _ => none
      | .ok _ => if record.userSubscriptionId = id then some (requestId, delta) else none
  | .refund deltaFails _ requestId =>
    match s.records.get? requestId with
    | none => none
    | some record =>
      match s.creditBack deltaFails requestId with
      | .error _ => none
      | .ok _ =>
        if 0 < record.preConsumed ∧ record.userSubscriptionId = id then
          some (requestId, -record.preConsumed)
        else none
  | .maybeReset .. | .resetDue .. => none

/-- The call is a pre-consumption. -/
def Call.begins : Call → Bool
  | .preConsume .. => true
  | _ => false

/-! ## Periods -/

/-- What has been done to a subscription since its last reset. -/
structure Period where
  /-- The requests that have pre-consumed. -/
  requests : List String := []
  /-- The changes of the used amount, the first one first, each with its request. -/
  changes : List (String × Int) := []

/-- The changes of the used amount for the requests that have pre-consumed since the last reset. -/
def Period.net (p : Period) : Int :=
  ((p.changes.filter fun c => c.1 ∈ p.requests).map Prod.snd).sum

/-- A counter that starts at zero, and at which all changes since the last reset are made, stopping at
zero where one would take it below. -/
def Period.count (p : Period) : Int := p.changes.foldl (fun used c => max 0 (used + c.2)) 0

/-- All changes are for requests that have pre-consumed since the last reset, and none takes the counter
below zero. -/
def Period.Own (p : Period) : Prop :=
  (∀ c ∈ p.changes, c.1 ∈ p.requests) ∧
    ∀ first, first <+: p.changes → 0 ≤ (first.map Prod.snd).sum

/-- A store, and what has been done to the subscription since its last reset. -/
structure History where
  store : SubscriptionStore
  period : Period

/-- The history after a call. -/
def step (cal : Calendar) (id : Nat) (h : History) (call : Call) : History :=
  let period := if resets cal id h.store call then {} else h.period
  { store := exec cal h.store call
    period :=
      match change cal id h.store call with
      | none => period
      | some c =>
        { requests := if call.begins then c.1 :: period.requests else period.requests
          changes := period.changes ++ [c] } }

/-- The used amount is the net consumption of the requests that have pre-consumed since the last
reset. -/
def CountsOwn (id : Nat) (h : History) : Prop := h.store.usedOf id = h.period.net

/-- The used amount counts all changes since the last reset, for whichever requests. -/
def CountsAll (id : Nat) (h : History) : Prop :=
  h.store.usedOf id = h.period.count ∧ (h.period.Own → h.store.usedOf id = h.period.net)

section
variable {cal : Calendar} {id : Nat} {s s' : SubscriptionStore} {h : History}
  {planById : Nat → Option SubscriptionPlan} {now : Int} {requestId : String}

/-! ## One call -/

/-- The used amount after a reset, where there is one, and a change. -/
def changed (reset : Bool) (used : Int) : Option (String × Int) → Int
  | none => if reset then 0 else used
  | some c => max 0 ((if reset then 0 else used) + c.2)

theorem exec_preConsume_used {fails : Bool} {userId : Nat} {amount : Int} (hused : 0 ≤ s.usedOf id) :
    let call : Call := .preConsume planById fails requestId userId amount now
    (exec cal s call).usedOf id = changed (resets cal id s call) (s.usedOf id) (change cal id s call) := by
  dsimp only [exec, resets, change]
  cases hpre : s.preConsumeUserSubscription cal planById fails requestId userId amount now with
  | error e => rfl
  | ok p =>
    rcases preConsume_spec hpre with ⟨record, _, hrecord, -, -, hs', -⟩ |
      ⟨hnone, hamount, before, c, after, row, hcands, hat, hres, -⟩
    · dsimp only
      rw [hrecord, hs', if_neg fun hand => nomatch hand.1]
      rfl
    obtain ⟨hin, hnodup⟩ := candidates_append hcands
    dsimp only
    rw [hnone, hcands, hat.workedOff, hat.usedOf hin hnodup, hres]
    have hbase : 0 ≤ if ∃ p ∈ before ++ [c], p.id = id ∧ Resets cal planById now p then 0
        else s.usedOf id := by
      split
      · exact Int.le_refl 0
      · exact hused
    simp only [decide_true, Bool.true_and, true_and]
    by_cases hid : c.id = id
    · simp only [hid, if_true, changed, decide_eq_true_eq]
      omega
    · rw [if_neg fun he : id = c.id => hid he.symm, Int.add_zero]
      simp only [hid, if_false, changed, decide_eq_true_eq]

theorem postConsume_used {fails : Bool} {subId : Nat} {delta : Int} (hused : 0 ≤ s.usedOf id)
    (h : s.postConsumeUserSubscriptionDelta fails subId delta = .ok s') :
    s'.usedOf id = if subId = id then max 0 (s.usedOf id + delta) else s.usedOf id := by
  rcases postConsume_spec h with ⟨rfl, rfl⟩ | ⟨-, sub, hat⟩
  · rw [Int.add_zero, Int.max_eq_right hused, ite_self]
  · rw [hat.usedOf]
    simp only [eq_comm]

theorem exec_settle_used {fails : Bool} {delta : Int} (hused : 0 ≤ s.usedOf id) :
    (exec cal s (.settle fails requestId delta)).usedOf id =
      changed false (s.usedOf id) (change cal id s (.settle fails requestId delta)) := by
  dsimp only [exec, change]
  cases s.records.get? requestId with
  | none => rfl
  | some record =>
    dsimp only
    cases hpost : s.postConsumeUserSubscriptionDelta fails record.userSubscriptionId delta with
    | error e => rfl
    | ok s' =>
      dsimp only [Except.toOption, Option.getD]
      rw [postConsume_used hused hpost]
      split <;> rfl

theorem exec_refund_used {deltaFails saveFails : Bool} :
    (exec cal s (.refund deltaFails saveFails requestId)).usedOf id =
      changed false (s.usedOf id) (change cal id s (.refund deltaFails saveFails requestId)) := by
  dsimp only [exec, change]
  rw [refund_eq]
  cases hback : s.creditBack deltaFails requestId with
  | error e => cases s.records.get? requestId <;> rfl
  | ok s₁ =>
    obtain ⟨record, hrecord, -, hcredits⟩ := creditBack_spec hback
    have hsave : (s₁.saveRefunded saveFails requestId).2.usedOf id = s₁.usedOf id := by
      cases saveFails <;> rfl
    dsimp only
    rw [hsave, hrecord]
    dsimp only
    rcases hcredits with ⟨hzero, rfl⟩ | ⟨hpos, sub, hat⟩
    · rw [if_neg fun hand => Int.not_lt.2 hzero hand.1]
      rfl
    · rw [hat.usedOf]
      by_cases hid : record.userSubscriptionId = id
      · rw [if_pos hid.symm, if_pos ⟨hpos, hid⟩]
        rfl
      · rw [if_neg fun he => hid he.symm, if_neg fun hand => hid hand.2]
        rfl

theorem resetsAt_used {plan : SubscriptionPlan} {sub row : UserSubscription}
    (hat : ResetsAt cal plan now sub row s s') :
    s'.usedOf id = if sub.id = id && AdvancesAt cal plan now id s then 0 else s.usedOf id := by
  rw [hat.usedOf]
  refine if_congr ?_ rfl rfl
  rw [Bool.and_eq_true, decide_eq_true_eq, decide_eq_true_eq]
  constructor
  · rintro ⟨rfl, hadv⟩
    exact ⟨rfl, sub, hat.found, hadv⟩
  · rintro ⟨rfl, sub', hsub', hadv⟩
    rw [hat.found] at hsub'
    cases hsub'
    exact ⟨rfl, hadv⟩

theorem exec_maybeReset_used {plan : SubscriptionPlan} {fails : Bool} {resetId : Nat} :
    (exec cal s (.maybeReset plan fails resetId now)).usedOf id =
      changed (resets cal id s (.maybeReset plan fails resetId now)) (s.usedOf id) none := by
  dsimp only [exec, resets]
  cases htx : s.maybeResetTx cal plan fails resetId now with
  | error e => rfl
  | ok s' =>
    obtain ⟨sub, row, rfl, hat⟩ := maybeResetTx_spec htx
    exact resetsAt_used hat

/-- The loop of `ResetDueSubscriptions` resets what it is said to reset. -/
theorem resetEach_used {fails : Nat → Bool} {l : List UserSubscription} {count : Nat} :
    (resetEach cal planById fails now l count s).2.2.usedOf id =
      if resetsEach cal planById fails now id l s then 0 else s.usedOf id := by
  induction l generalizing s count with
  | nil => rfl
  | cons sub l ih =>
    cases hplan : planById sub.planId with
    | none =>
      have hloop : resetsEach cal planById fails now id (sub :: l) s =
          resetsEach cal planById fails now id l s := by rw [resetsEach, hplan]
      rw [hloop, resetEach, hplan]
      exact ih
    | some plan =>
      cases htx : s.resetSubscription cal plan (fails sub.id) sub.id now with
      | error e =>
        have hloop : resetsEach cal planById fails now id (sub :: l) s = false := by
          rw [resetsEach, hplan]
          dsimp only
          rw [htx]
        rw [hloop, resetEach, hplan]
        dsimp only
        rw [htx]
        rfl
      | ok p =>
        obtain ⟨reset, s₁⟩ := p
        have hloop : resetsEach cal planById fails now id (sub :: l) s =
            (reset && sub.id = id && AdvancesAt cal plan now id s ||
              resetsEach cal planById fails now id l s₁) := by
          rw [resetsEach, hplan]
          dsimp only
          rw [htx]
        rw [hloop, resetEach, hplan]
        dsimp only
        rw [htx]
        dsimp only
        rw [ih]
        rcases resetSubscription_spec htx with ⟨rfl, rfl⟩ | ⟨rfl, sub', row, hid, hat⟩
        · rfl
        · rw [resetsAt_used hat, ← hid, Bool.true_and]
          cases resetsEach cal planById fails now id l s₁ with
          | true => rw [Bool.or_true]; rfl
          | false => rw [Bool.or_false]; rfl

theorem exec_used (cal : Calendar) (call : Call) (hused : 0 ≤ s.usedOf id) :
    (exec cal s call).usedOf id =
      changed (resets cal id s call) (s.usedOf id) (change cal id s call) := by
  cases call with
  | preConsume planById fails requestId userId amount now => exact exec_preConsume_used hused
  | settle fails requestId delta => exact exec_settle_used hused
  | refund deltaFails saveFails requestId => exact exec_refund_used
  | maybeReset plan fails resetId now => exact exec_maybeReset_used
  | resetDue planById queryFails fails limit now =>
    dsimp only [exec, resets]
    unfold resetDueSubscriptions
    cases queryFails with
    | true => rfl
    | false => exact resetEach_used

/-! ## Runs -/

theorem Period.count_nonneg (p : Period) : 0 ≤ p.count := by
  rcases p with ⟨requests, changes⟩
  unfold Period.count
  dsimp only
  induction changes using List.reverseRecOn with
  | nil => exact Int.le_refl 0
  | append_singleton changes c _ =>
    rw [List.foldl_append]
    exact Int.le_max_left ..

theorem foldl_eq_sum {changes : List (String × Int)} {used : Int}
    (h : ∀ first, first <+: changes → 0 ≤ used + (first.map Prod.snd).sum) :
    changes.foldl (fun used c => max 0 (used + c.2)) used = used + (changes.map Prod.snd).sum := by
  induction changes generalizing used with
  | nil => exact (Int.add_zero used).symm
  | cons c changes ih =>
    have hc : 0 ≤ used + c.2 := by
      have hfirst := h [c] (by simp)
      rwa [List.map_singleton, List.sum_singleton] at hfirst
    rw [List.foldl_cons, Int.max_eq_right hc, ih, List.map_cons, List.sum_cons, Int.add_assoc]
    intro first hfirst
    have hlonger := h (c :: first) ((List.cons_prefix_cons).2 ⟨rfl, hfirst⟩)
    rwa [List.map_cons, List.sum_cons, ← Int.add_assoc] at hlonger

theorem Period.Own.count_eq_net {p : Period} (h : p.Own) : p.count = p.net := by
  unfold Period.count Period.net
  rw [List.filter_eq_self.2 fun c hc => decide_eq_true (h.1 c hc), foldl_eq_sum, Int.zero_add]
  intro first hfirst
  rw [Int.zero_add]
  exact h.2 first hfirst

theorem step_count (cal : Calendar) (call : Call) (hcount : h.store.usedOf id = h.period.count) :
    (step cal id h call).store.usedOf id = (step cal id h call).period.count := by
  have hused : 0 ≤ h.store.usedOf id := hcount ▸ h.period.count_nonneg
  have hbase : (if resets cal id h.store call then 0 else h.store.usedOf id) =
      (if resets cal id h.store call then {} else h.period : Period).count := by
    split
    · rfl
    · exact hcount
  unfold step
  dsimp only
  rw [exec_used cal call hused]
  cases change cal id h.store call with
  | none => exact hbase
  | some c =>
    rw [changed, hbase]
    show _ = Period.count { requests := _, changes := _ ++ [c] }
    unfold Period.count
    rw [List.foldl_append]
    rfl

/-- In every run that starts with nothing used of the subscription, its used amount counts all changes
since its last reset, and where these are all own, it is the net consumption of the requests that have
pre-consumed since then. -/
theorem usedAmount_countsAll (cal : Calendar) (calls : List Call) (hused : s.usedOf id = 0) :
    Holds (step cal id) (CountsAll id) ⟨s, {}⟩ calls := by
  have hmeets : Meets (step cal id) (fun _ _ => True) ⟨s, {}⟩ calls :=
    meets_of_forall fun _ _ => trivial
  refine hmeets.holds (I := fun h => h.store.usedOf id = h.period.count)
    (fun h call hcount _ => step_count cal call hcount) (fun h hcount => ⟨hcount, fun hown => ?_⟩) hused
  rw [hcount, hown.count_eq_net]

end

/-! ## A refund after a reset -/

/-- A plan that resets its quota of 100 every day. -/
def everyDay : SubscriptionPlan := { id := 1, totalAmount := 100, quotaResetPeriod := "daily" }

/-- A subscription from the plan of which nothing is used. -/
def fresh : SubscriptionStore where
  users := .empty
  subs := Table.insertNew .empty
    { id := 1, userId := 1, planId := 1, amountTotal := 100, amountUsed := 0, startTime := 1000,
      endTime := 1000000, status := .active, source := "order", lastResetTime := 1000,
      nextResetTime := 86400, upgradeGroup := "", prevUserGroup := "" }
  records := .empty

/-- A request pre-consumes before the reset, another one after it, and then the first is refunded. -/
def refundAfterReset : List Call :=
  [.preConsume (fun _ => some everyDay) false "a" 1 60 2000,
    .preConsume (fun _ => some everyDay) false "b" 1 50 90000, .refund false false "a"]

theorem usedAmount_countsAll_refundAfterReset :
    Holds (step fixedCalendar 1) (CountsAll 1) ⟨fresh, {}⟩ refundAfterReset :=
  usedAmount_countsAll fixedCalendar refundAfterReset (by decide)

/-- The refund takes back what the other request has pre-consumed since the reset. -/
theorem refundAfterReset_not_countsOwn :
    ¬ Holds (step fixedCalendar 1) (CountsOwn 1) ⟨fresh, {}⟩ refundAfterReset := by
  intro h
  have hlast := h.last
  exact absurd hlast (by unfold CountsOwn; decide)

end NewApi.SubscriptionPeriod

import NewApi.Lib.Run
import NewApi.Subscription.Charge

/-!
# The quota of a subscription is a bound

Subscriptions are created, consumed from, settled, refunded and reset, by calls in any order, with any
plans at each call and with any statement failing. The used amount of a subscription with a quota stays
between zero and the quota. A call that fails leaves the store, except that resetting the due
subscriptions keeps what it has reset, and that a refund fails after it has credited the subscription
where the record is not saved.
-/

namespace NewApi.SubscriptionQuota

open Run SubscriptionStore

/-- A call of a function that writes a used amount, with the plans it reads and the statements that
fail. -/
inductive Call
  | create (id userId : Nat) (plan : SubscriptionPlan) (source : String) (now : Int)
  | preConsume (planById : Nat → Option SubscriptionPlan) (fails : Bool) (requestId : String)
      (userId : Nat) (amount now : Int)
  | postConsume (fails : Bool) (id : Nat) (delta : Int)
  | refund (deltaFails saveFails : Bool) (requestId : String)
  | maybeReset (plan : SubscriptionPlan) (fails : Bool) (id : Nat) (now : Int)
  | resetDue (planById : Nat → Option SubscriptionPlan) (queryFails : Bool) (fails : Nat → Bool)
      (limit now : Int)

/-- A transaction that fails leaves the store. -/
def transact (s : SubscriptionStore) :
    Except SubscriptionError SubscriptionStore → Option SubscriptionError × SubscriptionStore
  | .error e => (some e, s)
  | .ok s' => (none, s')

/-- The error of a call, and the store it leaves. -/
def exec (cal : Calendar) (s : SubscriptionStore) :
    Call → Option SubscriptionError × SubscriptionStore
  | .create id userId plan source now =>
    transact s (s.createUserSubscriptionFromPlan cal id userId plan source now)
  | .preConsume planById fails requestId userId amount now =>
    transact s
      ((s.preConsumeUserSubscription cal planById fails requestId userId amount now).map Prod.snd)
  | .postConsume fails id delta => transact s (s.postConsumeUserSubscriptionDelta fails id delta)
  | .refund deltaFails saveFails requestId =>
    s.refundSubscriptionPreConsume deltaFails saveFails requestId
  | .maybeReset plan fails id now => transact s (s.maybeResetTx cal plan fails id now)
  | .resetDue planById queryFails fails limit now =>
    let (e, _, s) := s.resetDueSubscriptions cal planById queryFails fails limit now
    (e, s)

/-- The store that a call leaves. -/
def step (cal : Calendar) (s : SubscriptionStore) (call : Call) : SubscriptionStore :=
  (exec cal s call).2

/-- The used amount is between zero and the quota, where there is one. -/
def Bounded (sub : UserSubscription) : Prop :=
  sub.amountTotal > 0 → 0 ≤ sub.amountUsed ∧ sub.amountUsed ≤ sub.amountTotal

/-- Every subscription is within its quota. -/
def AllBounded (s : SubscriptionStore) : Prop := ∀ id sub, s.subs.get? id = some sub → Bounded sub

/-- The columns that a call which fails is to leave. -/
def quotaColumns (s : SubscriptionStore) : List (Nat × Int × Int × Int) :=
  s.subs.rows.map fun sub => (sub.id, sub.amountUsed, sub.lastResetTime, sub.nextResetTime)

/-- A call that fails changes neither these columns nor the records. -/
def ErrorKeepsAll (cal : Calendar) (s : SubscriptionStore) (call : Call) (s' : SubscriptionStore) :
    Prop :=
  (exec cal s call).1 ≠ none → quotaColumns s' = quotaColumns s ∧ s'.records = s.records

/-- What a call that fails leaves. -/
def ErrorKeeps (cal : Calendar) (s : SubscriptionStore) (call : Call) (s' : SubscriptionStore) : Prop :=
  ∀ e, (exec cal s call).1 = some e →
    match call with
    | .create .. | .preConsume .. | .postConsume .. | .maybeReset .. => s' = s
    | .refund deltaFails saveFails requestId =>
      -- Nothing is said of a refund that fails at saving the record.
      (saveFails → (s.refundSubscriptionPreConsume deltaFails false requestId).1 ≠ none) → s' = s
    | .resetDue planById queryFails fails limit now =>
      if queryFails then s' = s
      else
        ∃ before c after count, s.dueResets limit now = before ++ c :: after ∧
          resetEach cal planById fails now before 0 s = (none, count, s') ∧
          s.resetDueSubscriptions cal planById queryFails fails limit now = (some e, count, s')

section
variable {cal : Calendar} {plan : SubscriptionPlan} {planById : Nat → Option SubscriptionPlan}
  {now amount delta : Int} {id userId : Nat} {source : String} {s s' : SubscriptionStore}
  {sub row c : UserSubscription} {before : List UserSubscription} {record : PreConsumeRecord}

/-! ## The bound -/

theorem bounded_of_reset (h : maybeResetUserSubscription cal plan now sub = some row)
    (hsub : Bounded sub) : Bounded row := by
  obtain ⟨-, htotal, hused⟩ := maybeReset_spec h
  intro hpos
  rw [htotal] at hpos ⊢
  rw [hused]
  split
  · exact ⟨Int.le_refl 0, Int.le_of_lt hpos⟩
  · exact hsub hpos

theorem bounded_of_resetOf (h : resetOf cal planById now sub = some row) (hsub : Bounded sub) :
    Bounded row := by
  obtain ⟨plan, -, hreset⟩ := Option.bind_eq_some_iff.1 h
  exact bounded_of_reset hreset hsub

theorem bounded_of_fits (hrow : Bounded row) (hfits : Fits amount row) (hamount : 0 < amount) :
    Bounded { row with amountUsed := row.amountUsed + amount } := by
  intro hpos
  obtain ⟨h0, -⟩ := hrow hpos
  unfold Fits at hfits
  dsimp only at hpos ⊢
  omega

theorem allBounded_of_frame {p : Nat → Prop} (hs : AllBounded s)
    (hset : ∀ id, p id → ∀ row, s'.subs.get? id = some row → Bounded row)
    (hframe : ∀ id, ¬ p id → s'.subs.get? id = s.subs.get? id) : AllBounded s' := by
  intro id row hrow
  by_cases hp : p id
  · exact hset id hp row hrow
  · exact hs id row (hframe id hp ▸ hrow)

theorem allBounded_of_charges (hs : AllBounded s) (hamount : 0 < amount)
    (hin : ∀ p ∈ before ++ [c], s.subs.get? p.id = some p)
    (hat : ChargesAt cal planById now amount before c row s s') : AllBounded s' := by
  have hc : Bounded c := hs c.id c (hin c (List.mem_append_right _ List.mem_cons_self))
  refine allBounded_of_frame (p := fun id => id ∈ before.map UserSubscription.id ∨ id = c.id) hs
    (fun id hid row' hrow' => ?_) fun id hid => ?_
  · rcases hid with hid | rfl
    · obtain ⟨p, hp, rfl⟩ := List.mem_map.1 hid
      obtain ⟨skip, hskip, -, hget⟩ := hat.skipped p hp
      rw [hget] at hrow'
      cases hrow'
      exact bounded_of_resetOf hskip (hs p.id p (hin p (List.mem_append_left _ hp)))
    · rw [hat.charged] at hrow'
      cases hrow'
      exact bounded_of_fits (bounded_of_resetOf hat.reset hc) hat.fits hamount
  · rw [not_or] at hid
    exact hat.frame id hid.1 hid.2

theorem allBounded_of_settles (hs : AllBounded s) (hat : SettlesAt id delta sub s s') :
    AllBounded s' := by
  refine allBounded_of_frame (p := (· = id)) hs (fun id' hid row hrow => ?_) hat.frame
  subst hid
  rw [hat.settled] at hrow
  cases hrow
  exact fun hpos => ⟨Int.le_max_left .., hat.fits hpos⟩

theorem allBounded_of_resets (hs : AllBounded s) (hat : ResetsAt cal plan now sub row s s') :
    AllBounded s' := by
  refine allBounded_of_frame (p := (· = sub.id)) hs (fun id hid row' hrow' => ?_) hat.frame
  subst hid
  rw [hat.saved] at hrow'
  cases hrow'
  exact bounded_of_reset hat.reset (hs sub.id sub hat.found)

theorem allBounded_create (hs : AllBounded s)
    (h : s.createUserSubscriptionFromPlan cal id userId plan source now = .ok s') :
    AllBounded s' := by
  unfold createUserSubscriptionFromPlan at h
  split at h
  · cases h
  split at h
  · cases h
  split at h
  · cases h
  split at h
  · cases h
  next endUnix _ =>
  split at h
  · cases h
  obtain rfl := Except.ok.inj h
  intro id' row hrow
  rcases Table.mem_insertNew.1 (Table.mem_of_get? hrow) with hmem | ⟨rfl, -⟩
  · exact hs row.id row (Table.get?_key hmem)
  · exact fun hpos => ⟨Int.le_refl 0, Int.le_of_lt hpos⟩

theorem transact_inv {P : SubscriptionStore → Prop} {r : Except SubscriptionError SubscriptionStore}
    (hs : P s) (hok : ∀ s', r = .ok s' → P s') : P (transact s r).2 := by
  cases r with
  | error e => exact hs
  | ok s' => exact hok s' rfl

/-- What every call does to the subscriptions: a property that is kept by a new row, a charge, a settlement,
a reset and the mark of a refund is kept by the call. -/
theorem step_inv {P : SubscriptionStore → Prop} (cal : Calendar) (call : Call)
    (hcreate : ∀ s s' id userId plan source now,
      s.createUserSubscriptionFromPlan cal id userId plan source now = .ok s' → P s → P s')
    (hcharges : ∀ s s' planById now amount before c row, 0 < amount →
      (∀ p ∈ before ++ [c], s.subs.get? p.id = some p) →
      ((before ++ [c]).map UserSubscription.id).Nodup →
      ChargesAt cal planById now amount before c row s s' → P s → P s')
    (hsettles : ∀ s s' id delta sub, SettlesAt id delta sub s s' → P s → P s')
    (hresets : ∀ s s' plan now sub row, ResetsAt cal plan now sub row s s' → P s → P s')
    (hmark : ∀ s requestId, P s → P (s.markRefunded requestId)) (hs : P s) : P (step cal s call) := by
  have hcredits : ∀ {record s₁}, CreditsBack record s s₁ → P s₁ := by
    rintro record s₁ (⟨-, rfl⟩ | ⟨-, sub, hat⟩)
    · exact hs
    · exact hsettles s s₁ _ _ sub hat hs
  cases call with
  | create id userId plan source now =>
    exact transact_inv hs fun s' h => hcreate s s' id userId plan source now h hs
  | preConsume planById fails requestId userId amount now =>
    refine transact_inv hs fun s' h => ?_
    cases hpre : s.preConsumeUserSubscription cal planById fails requestId userId amount now with
    | error e =>
      rw [hpre] at h
      cases h
    | ok p =>
      rw [hpre] at h
      cases h
      rcases preConsume_spec hpre with ⟨_, _, -, -, -, hs', -⟩ |
        ⟨-, hamount, before, c, after, row, hcands, hat, -⟩
      · rw [hs']
        exact hs
      · obtain ⟨hin, hnodup⟩ := candidates_append hcands
        exact hcharges s _ planById now amount before c row hamount hin hnodup hat hs
  | postConsume fails id delta =>
    refine transact_inv hs fun s' h => ?_
    rcases postConsume_spec h with ⟨-, rfl⟩ | ⟨-, sub, hat⟩
    · exact hs
    · exact hsettles s s' id delta sub hat hs
  | refund deltaFails saveFails requestId =>
    show P (s.refundSubscriptionPreConsume deltaFails saveFails requestId).2
    rcases refund_spec (Prod.eta (s.refundSubscriptionPreConsume deltaFails saveFails requestId)).symm
      with ⟨hs', -⟩ | ⟨record, s₁, -, -, hback, ⟨-, -, hs'⟩ | ⟨-, -, hs'⟩⟩ <;> rw [hs']
    · exact hs
    · exact hcredits hback
    · exact hmark s₁ requestId (hcredits hback)
  | maybeReset plan fails id now =>
    refine transact_inv hs fun s' h => ?_
    obtain ⟨sub, row, -, hat⟩ := maybeResetTx_spec h
    exact hresets s s' plan now sub row hat hs
  | resetDue planById queryFails fails limit now =>
    show P (s.resetDueSubscriptions cal planById queryFails fails limit now).2.2
    unfold resetDueSubscriptions
    split
    · exact hs
    · exact resetEach_inv (fun s s' plan sub row hat hs => hresets s s' plan now sub row hat hs) hs

theorem step_allBounded (cal : Calendar) (call : Call) (hs : AllBounded s) :
    AllBounded (step cal s call) :=
  step_inv cal call (fun _ _ _ _ _ _ _ h hs => allBounded_create hs h)
    (fun _ _ _ _ _ _ _ _ hamount hin _ hat hs => allBounded_of_charges hs hamount hin hat)
    (fun _ _ _ _ _ hat hs => allBounded_of_settles hs hat)
    (fun _ _ _ _ _ _ hat hs => allBounded_of_resets hs hat) (fun _ _ hs => hs) hs

/-! ## Used amounts are not negative -/

/-- No subscription has a negative used amount. -/
def UsedNonneg (s : SubscriptionStore) : Prop := ∀ id, 0 ≤ s.usedOf id

theorem transact_error {r : Except SubscriptionError SubscriptionStore} {e : SubscriptionError}
    (h : (transact s r).1 = some e) : (transact s r).2 = s := by
  cases r with
  | error e => rfl
  | ok s' => cases h

theorem refund_error {deltaFails saveFails : Bool} {requestId : String} {e : SubscriptionError}
    (h : (s.refundSubscriptionPreConsume deltaFails saveFails requestId).1 = some e)
    (hbefore : saveFails → (s.refundSubscriptionPreConsume deltaFails false requestId).1 ≠ none) :
    (s.refundSubscriptionPreConsume deltaFails saveFails requestId).2 = s := by
  rw [refund_eq] at h hbefore ⊢
  cases hback : s.creditBack deltaFails requestId with
  | error e' => rfl
  | ok s₁ =>
    rw [hback] at h hbefore
    cases saveFails with
    | false => cases h
    | true => exact absurd rfl (hbefore rfl)

theorem step_errorKeeps (cal : Calendar) (s : SubscriptionStore) (call : Call) :
    ErrorKeeps cal s call (step cal s call) := by
  intro e he
  cases call with
  | create | preConsume | postConsume | maybeReset => exact transact_error he
  | refund deltaFails saveFails requestId => exact refund_error he
  | resetDue planById queryFails fails limit now =>
    cases queryFails with
    | true => rfl
    | false =>
      rcases h : resetEach cal planById fails now (s.dueResets limit now) 0 s with ⟨e', count, s'⟩
      have hexec : exec cal s (.resetDue planById false fails limit now) = (e', s') := by
        show (let (e, _, s) := resetEach cal planById fails now (s.dueResets limit now) 0 s
          (e, s)) = _
        rw [h]
      rw [hexec] at he
      cases he
      obtain ⟨before, c, after, hl, hbefore⟩ := resetEach_error h
      have hstep : step cal s (.resetDue planById false fails limit now) = s' := by
        rw [step, hexec]
      rw [hstep]
      exact ⟨before, c, after, count, hl, hbefore, h⟩

end

/-- In every run that starts with no subscription and no record, every subscription is within its quota
in every state, and every call that fails leaves the store, up to the resets it reports. -/
theorem quota_bounded (cal : Calendar) (users : Users) (calls : List Call) :
    Holds (step cal) AllBounded ⟨users, .empty, .empty⟩ calls ∧
      Always (step cal) (ErrorKeeps cal) ⟨users, .empty, .empty⟩ calls := by
  have hmeets : Meets (step cal) (fun _ _ => True) ⟨users, .empty, .empty⟩ calls :=
    meets_of_forall fun _ _ => trivial
  have hinit : AllBounded ⟨users, .empty, .empty⟩ := fun id sub h => nomatch h
  exact ⟨hmeets.holds (fun _ call hs _ => step_allBounded cal call hs) (fun _ hs => hs) hinit,
    hmeets.always (fun _ call hs _ => step_allBounded cal call hs)
      (fun s call _ _ => step_errorKeeps cal s call) hinit⟩

/-! ## A reset that fails after another one -/

/-- A plan of thirty days that resets its quota every day. -/
def dailyPlan : SubscriptionPlan :=
  { id := 1, durationUnit := .day, durationValue := 30, totalAmount := 100, quotaResetPeriod := "daily" }

/-- Two subscriptions are consumed from. On the next day the first is reset, and the reset of the second
fails. -/
def twoResets : List Call :=
  [.create 1 1 dailyPlan "order" 1000, .create 2 2 dailyPlan "order" 1000,
    .preConsume (fun _ => some dailyPlan) false "a" 1 60 2000,
    .preConsume (fun _ => some dailyPlan) false "b" 2 60 2000,
    .resetDue (fun _ => some dailyPlan) false (· = 2) 0 90000]

theorem twoResets_not_errorKeepsAll :
    ¬ Always (step fixedCalendar) (ErrorKeepsAll fixedCalendar) ⟨.empty, .empty, .empty⟩ twoResets := by
  intro h
  have hlast := h.2.2.2.2.1 (by decide)
  exact absurd hlast.1 (by decide)

end NewApi.SubscriptionQuota

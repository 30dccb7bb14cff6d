import NewApi.Subscription.Charge

/-!
# The reset times of a subscription

A plan divides the time of a subscription into periods. `maybeResetUserSubscriptionWithPlanTx` walks from the
last reset to the period that now lies in, by a step that for a custom period is a 64-bit number of nanoseconds.
What the row is to say afterwards (`Progresses`) it says just where the step goes forward, the period is over
when the row says so, and a row that is not reset has its times in order (`progresses_iff`).
-/

namespace NewApi

/-! ## Periods -/

/-- A period of a plan, as it is stored. -/
def ResetPeriod.text : ResetPeriod → String
  | .never => "never"
  | .daily => "daily"
  | .weekly => "weekly"
  | .monthly => "monthly"
  | .custom => "custom"

/-- The part of `AdminCreateSubscriptionPlan` and `AdminUpdateSubscriptionPlan` about the period. -/
def adminAcceptPeriod (plan : SubscriptionPlan) : Option SubscriptionPlan :=
  let period := normalizeResetPeriod plan.quotaResetPeriod
  if period = .custom ∧ plan.quotaResetCustomSeconds ≤ 0 then none
  else some { plan with quotaResetPeriod := period.text }

/-- The days and months of a calendar go forward. -/
structure Calendar.MovesOn (cal : Calendar) : Prop where
  day : ∀ t days, 0 < days → t < cal.midnightPlus t days
  weekday : ∀ t, cal.weekday t ≤ 6
  month : ∀ t, t < cal.nextMonth t

/-- What the periods of a subscription are counted from. -/
def UserSubscription.resetBase (sub : UserSubscription) : Int :=
  if sub.lastResetTime ≤ 0 then sub.startTime else sub.lastResetTime

section
variable (cal : Calendar) (plan : SubscriptionPlan)

/-- The end of the period that begins at a time. -/
def periodEnd (t : Int) : Option Int :=
  match normalizeResetPeriod plan.quotaResetPeriod with
  | .never => none
  | .daily => some (cal.midnightPlus t 1)
  | .weekly => some (cal.midnightPlus t (8 - if cal.weekday t = 0 then 7 else cal.weekday t))
  | .monthly => some (cal.nextMonth t)
  | .custom =>
    if plan.quotaResetCustomSeconds ≤ 0 then none else some (t + plan.quotaResetCustomSeconds)

/-- The boundaries of the periods that follow one another from a time on. -/
inductive Boundary (base : Int) : Int → Prop
  | first {t : Int} : periodEnd cal plan base = some t → Boundary base t
  | later {t u : Int} : Boundary base t → periodEnd cal plan t = some u → Boundary base u

/-- A boundary lies after the last reset, not after now and not after the end of the subscription. -/
def PeriodEnded (now : Int) (sub : UserSubscription) : Prop :=
  ∃ t, Boundary cal plan sub.resetBase t ∧ sub.resetBase < t ∧ t ≤ now ∧ (sub.endTime > 0 → t ≤ sub.endTime)

/-- What a reset at some time is to leave. -/
def Progresses (now : Int) (sub : UserSubscription) : Prop :=
  ∃ row, maybeResetUserSubscription cal plan now sub = some row ∧
    (row.nextResetTime = 0 ∨ row.nextResetTime > now) ∧ row.lastResetTime ≤ now ∧
    (PeriodEnded cal plan now sub → row.amountUsed = 0) ∧
    (¬ PeriodEnded cal plan now sub → row.amountUsed = sub.amountUsed) ∧
    maybeResetUserSubscription cal plan now row = some row

/-! ## When it does -/

/-- The first period of a subscription is over, before the subscription ends. -/
def FirstPeriodOver (now : Int) (sub : UserSubscription) : Prop :=
  ∃ t ∈ periodEnd cal plan sub.resetBase, t ≤ now ∧ (sub.endTime > 0 → t ≤ sub.endTime)

/-- The seconds from one reset of a custom period to the next, as the 64-bit duration has them. -/
def customStep : Int := seconds plan.quotaResetCustomSeconds / 10 ^ 9

/-- A walk from a time ends after now or at zero: it goes forward, or meets zero on its way back. -/
def WalksOut (base : Int) : Prop :=
  normalizeResetPeriod plan.quotaResetPeriod = .custom →
    0 < customStep plan ∨ customStep plan < 0 ∧ customStep plan ∣ base

/-- A subscription with no reset time gets its first one. -/
def SetsFirst (sub : UserSubscription) : Prop :=
  sub.nextResetTime = 0 ∧ calcNextResetTime cal sub.resetBase plan sub.endTime > 0

instance (sub : UserSubscription) : Decidable (SetsFirst cal plan sub) := inferInstanceAs (Decidable (_ ∧ _))

/-- The step, the period and the times of a subscription are in order. -/
structure InOrder (now : Int) (sub : UserSubscription) : Prop where
  /-- It is reset just where its period is over, or has nothing used. -/
  period : (Advances cal plan now sub ↔ FirstPeriodOver cal plan now sub) ∨ sub.amountUsed = 0
  /-- It is reset by a walk that ends. -/
  step : Advances cal plan now sub → WalksOut plan sub.resetBase
  /-- Where it is not reset, its last reset is not after now, nor its next one before. -/
  times : ¬ Advances cal plan now sub →
    if SetsFirst cal plan sub then sub.resetBase ≤ now
    else sub.lastResetTime ≤ now ∧ (sub.nextResetTime = 0 ∨ sub.nextResetTime > now)

end

section
variable {cal : Calendar} {plan : SubscriptionPlan} {now endUnix : Int} {sub row : UserSubscription}

theorem lt_periodEnd (hcal : cal.MovesOn) {t u : Int} (h : periodEnd cal plan t = some u) : t < u := by
  unfold periodEnd at h
  split at h
  · cases h
  · cases h
    exact hcal.day t 1 one_pos
  · cases h
    have := hcal.weekday t
    refine hcal.day t _ ?_
    split <;> omega
  · cases h
    exact hcal.month t
  · split at h
    · cases h
    · cases h
      omega

theorem Boundary.first_le (hcal : cal.MovesOn) {base t : Int} (h : Boundary cal plan base t) :
    ∃ u, periodEnd cal plan base = some u ∧ u ≤ t := by
  induction h with
  | first h => exact ⟨_, h, le_rfl⟩
  | later _ h ih =>
    obtain ⟨u, hu, hle⟩ := ih
    exact ⟨u, hu, hle.trans (lt_periodEnd hcal h).le⟩

theorem periodEnded_iff (hcal : cal.MovesOn) :
    PeriodEnded cal plan now sub ↔ FirstPeriodOver cal plan now sub := by
  constructor
  · rintro ⟨t, hbound, -, hnow, hend⟩
    obtain ⟨u, hu, hle⟩ := hbound.first_le hcal
    exact ⟨u, hu, hle.trans hnow, fun hpos => hle.trans (hend hpos)⟩
  · rintro ⟨t, ht, hnow, hend⟩
    exact ⟨t, .first ht, lt_periodEnd hcal ht, hnow, hend⟩

/-! ## The step -/

theorem calcNextResetTime_custom (hperiod : normalizeResetPeriod plan.quotaResetPeriod = .custom) (t : Int) :
    calcNextResetTime cal t plan endUnix =
      if plan.quotaResetCustomSeconds ≤ 0 ∨ endUnix > 0 ∧ t + customStep plan > endUnix then 0
      else t + customStep plan := by
  have hadd : addDuration t (seconds plan.quotaResetCustomSeconds) = t + customStep plan := rfl
  unfold calcNextResetTime
  rw [hperiod]
  dsimp only
  rw [hadd]
  by_cases hpos : plan.quotaResetCustomSeconds ≤ 0
  · rw [if_pos hpos, if_pos (.inl hpos)]
  · rw [if_neg hpos]
    simp only [hpos, false_or]

theorem calcNextResetTime_calendar (hperiod : normalizeResetPeriod plan.quotaResetPeriod ≠ .custom) (t : Int) :
    calcNextResetTime cal t plan endUnix =
      match periodEnd cal plan t with
      | none => 0
      | some u => if endUnix > 0 ∧ u > endUnix then 0 else u := by
  unfold calcNextResetTime periodEnd
  cases hnorm : normalizeResetPeriod plan.quotaResetPeriod with
  | custom => exact absurd hnorm hperiod
  | never | daily | weekly | monthly => rfl

theorem calcNextResetTime_forward (hcal : cal.MovesOn)
    (hstep : normalizeResetPeriod plan.quotaResetPeriod = .custom → 0 < customStep plan) (t : Int) :
    calcNextResetTime cal t plan endUnix = 0 ∨ t < calcNextResetTime cal t plan endUnix := by
  by_cases hperiod : normalizeResetPeriod plan.quotaResetPeriod = .custom
  · have := hstep hperiod
    rw [calcNextResetTime_custom hperiod]
    split
    · exact .inl rfl
    · right
      omega
  · rw [calcNextResetTime_calendar hperiod]
    split
    · exact .inl rfl
    next u hu =>
      split
      · exact .inl rfl
      · exact .inr (lt_periodEnd hcal hu)

/-! ## The walk -/

theorem lastReset_inv {I : Int → Prop}
    (hI : ∀ t, I t → 0 < calcNextResetTime cal t plan endUnix → calcNextResetTime cal t plan endUnix ≤ now →
      I (calcNextResetTime cal t plan endUnix))
    {fuel : Nat} {base b n : Int} (hbase : I base)
    (h : lastReset cal plan now endUnix fuel base (calcNextResetTime cal base plan endUnix) = some (b, n)) :
    I b ∧ n = calcNextResetTime cal b plan endUnix ∧ ¬ (n > 0 ∧ n ≤ now) := by
  induction fuel generalizing base with
  | zero => cases h
  | succ fuel ih =>
    unfold lastReset at h
    split at h
    next hin => exact ih (hI base hbase hin.1 hin.2) h
    next hout =>
      cases h
      exact ⟨hbase, rfl, hout⟩

theorem lastReset_forward
    (hstep : ∀ t, calcNextResetTime cal t plan endUnix = 0 ∨ t < calcNextResetTime cal t plan endUnix)
    {fuel : Nat} {base : Int} (hfuel : 0 < fuel)
    (hleft : 0 < calcNextResetTime cal base plan endUnix →
      now - calcNextResetTime cal base plan endUnix + 1 < fuel) :
    (lastReset cal plan now endUnix fuel base (calcNextResetTime cal base plan endUnix)).isSome := by
  induction fuel generalizing base with
  | zero => cases hfuel
  | succ fuel ih =>
    unfold lastReset
    split
    next hin =>
      have := hleft hin.1
      have := hstep (calcNextResetTime cal base plan endUnix)
      exact ih (by omega) (by omega)
    · rfl

theorem lastReset_back
    (hstep : ∀ t, calcNextResetTime cal t plan endUnix ≤ 0 ∨ calcNextResetTime cal t plan endUnix < t)
    {fuel : Nat} {base : Int} (hfuel : 0 < fuel) (hleft : calcNextResetTime cal base plan endUnix < fuel) :
    (lastReset cal plan now endUnix fuel base (calcNextResetTime cal base plan endUnix)).isSome := by
  induction fuel generalizing base with
  | zero => cases hfuel
  | succ fuel ih =>
    unfold lastReset
    split
    next hin =>
      have := hstep (calcNextResetTime cal base plan endUnix)
      exact ih (by omega) (by omega)
    · rfl

theorem lastReset_stuck {fuel : Nat} {base : Int} (hstep : calcNextResetTime cal base plan endUnix = base)
    (hpos : 0 < base) (hnow : base ≤ now) :
    lastReset cal plan now endUnix fuel base base = none := by
  induction fuel with
  | zero => rfl
  | succ fuel ih =>
    unfold lastReset
    rw [if_pos ⟨hpos, hnow⟩, hstep]
    exact ih

/-! ## A reset -/

theorem Advances.boundary (h : Advances cal plan now sub) :
    calcNextResetTime cal sub.resetBase plan sub.endTime > 0 ∧
      calcNextResetTime cal sub.resetBase plan sub.endTime ≤ now :=
  h.2.2

theorem maybeReset_of_advances (h : Advances cal plan now sub) :
    maybeResetUserSubscription cal plan now sub =
      (lastReset cal plan now sub.endTime (now.toNat + 1) sub.resetBase
        (calcNextResetTime cal sub.resetBase plan sub.endTime)).map fun (base, next) =>
          { sub with amountUsed := 0, lastResetTime := base, nextResetTime := next } := by
  obtain ⟨hwait, hnever, hin⟩ := h
  unfold maybeResetUserSubscription
  rw [if_neg hwait, if_neg hnever]
  exact if_pos hin

theorem calcNextResetTime_never (hnever : normalizeResetPeriod plan.quotaResetPeriod = .never) (t : Int) :
    calcNextResetTime cal t plan endUnix = 0 := by
  unfold calcNextResetTime
  rw [hnever]

theorem maybeReset_of_not_advances (h : ¬ Advances cal plan now sub) :
    maybeResetUserSubscription cal plan now sub =
      some (if SetsFirst cal plan sub then
        { sub with
          nextResetTime := calcNextResetTime cal sub.resetBase plan sub.endTime
          lastResetTime := sub.resetBase }
      else sub) := by
  unfold maybeResetUserSubscription
  by_cases hwait : sub.nextResetTime > 0 ∧ sub.nextResetTime > now
  · rw [if_pos hwait, if_neg fun hfirst => by have := hfirst.1; omega]
  rw [if_neg hwait]
  by_cases hnever : normalizeResetPeriod plan.quotaResetPeriod = .never
  · rw [if_pos hnever, if_neg fun hfirst => by
      have := @calcNextResetTime_never cal plan sub.endTime hnever sub.resetBase
      have := hfirst.2
      omega]
  rw [if_neg hnever]
  refine (if_neg fun hin => h ⟨hwait, hnever, hin⟩).trans ?_
  exact (apply_ite some _ _ _).symm

theorem maybeReset_settled (hadv : ¬ Advances cal plan now sub) (hfirst : ¬ SetsFirst cal plan sub) :
    maybeResetUserSubscription cal plan now sub = some sub := by
  rw [maybeReset_of_not_advances hadv, if_neg hfirst]

theorem maybeReset_waiting (hpos : 0 < sub.nextResetTime) (hnow : now < sub.nextResetTime) :
    maybeResetUserSubscription cal plan now sub = some sub :=
  maybeReset_settled (fun hadv => hadv.1 ⟨hpos, hnow⟩) fun hfirst => hpos.ne' hfirst.1

theorem maybeReset_last (hnext : calcNextResetTime cal sub.resetBase plan sub.endTime = 0) :
    maybeResetUserSubscription cal plan now sub = some sub := by
  refine maybeReset_settled (fun hadv => ?_) fun hfirst => hfirst.2.ne' hnext
  exact hadv.boundary.1.ne' hnext

theorem maybeReset_of_walk (hadv : Advances cal plan now sub)
    (h : (lastReset cal plan now sub.endTime (now.toNat + 1) sub.resetBase
      (calcNextResetTime cal sub.resetBase plan sub.endTime)).isSome) :
    ∃ row, maybeResetUserSubscription cal plan now sub = some row := by
  rw [← Option.isSome_iff_exists, maybeReset_of_advances hadv, Option.isSome_map]
  exact h

theorem maybeReset_walk {I : Int → Prop} (hadv : Advances cal plan now sub)
    (hI : ∀ t, I t → 0 < calcNextResetTime cal t plan sub.endTime →
      calcNextResetTime cal t plan sub.endTime ≤ now → I (calcNextResetTime cal t plan sub.endTime))
    (hfirst : I (calcNextResetTime cal sub.resetBase plan sub.endTime))
    (h : maybeResetUserSubscription cal plan now sub = some row) :
    I row.lastResetTime ∧ row.endTime = sub.endTime ∧
      row.nextResetTime = calcNextResetTime cal row.lastResetTime plan sub.endTime ∧
      ¬ (row.nextResetTime > 0 ∧ row.nextResetTime ≤ now) := by
  rw [maybeReset_of_advances hadv] at h
  obtain ⟨⟨b, n⟩, hwalk, rfl⟩ := Option.map_eq_some_iff.1 h
  unfold lastReset at hwalk
  rw [if_pos hadv.boundary] at hwalk
  obtain ⟨hb, hn, hout⟩ := lastReset_inv hI hfirst hwalk
  exact ⟨hb, rfl, hn, hout⟩

theorem maybeReset_again (hpos : 0 < row.lastResetTime)
    (hnext : row.nextResetTime = calcNextResetTime cal row.lastResetTime plan row.endTime)
    (hend : row.nextResetTime = 0 ∨ 0 < row.nextResetTime ∧ now < row.nextResetTime) :
    maybeResetUserSubscription cal plan now row = some row := by
  rcases hend with hzero | ⟨hafter, hnow⟩
  · refine maybeReset_last ?_
    unfold UserSubscription.resetBase
    rw [if_neg (not_le.2 hpos), ← hnext, hzero]
  · exact maybeReset_waiting hafter hnow

theorem maybeReset_forward (hcal : cal.MovesOn) (hadv : Advances cal plan now sub)
    (hstep : normalizeResetPeriod plan.quotaResetPeriod = .custom → 0 < customStep plan) :
    ∃ row, maybeResetUserSubscription cal plan now sub = some row ∧
      (row.nextResetTime = 0 ∨ row.nextResetTime > now) ∧ row.lastResetTime ≤ now ∧
      maybeResetUserSubscription cal plan now row = some row := by
  have hforward := fun t => @calcNextResetTime_forward cal plan sub.endTime hcal hstep t
  have hin := hadv.boundary
  have hends := @lastReset_forward cal plan now sub.endTime hforward (now.toNat + 1) sub.resetBase
    (by omega) fun hpos => by omega
  obtain ⟨row, hrow⟩ := maybeReset_of_walk hadv hends
  obtain ⟨⟨hpos, hnow⟩, hend, hnext, hout⟩ := maybeReset_walk (I := fun t => 0 < t ∧ t ≤ now) hadv
    (fun _ _ hpos hnow => ⟨hpos, hnow⟩) hin hrow
  have hafter := hforward row.lastResetTime
  rw [← hnext] at hafter
  exact ⟨row, hrow, by omega, hnow, maybeReset_again hpos (by rw [hend]; exact hnext) (by omega)⟩

/-- A reset whose walk goes back ends at zero where the step divides what it is counted from. -/
theorem maybeReset_back (hadv : Advances cal plan now sub)
    (hperiod : normalizeResetPeriod plan.quotaResetPeriod = .custom) (hback : customStep plan < 0) :
    ∃ row, maybeResetUserSubscription cal plan now sub = some row ∧ row.lastResetTime ≤ now ∧
      (row.nextResetTime = 0 ∨ row.nextResetTime > now ↔ customStep plan ∣ sub.resetBase) ∧
      (row.nextResetTime = 0 ∨ row.nextResetTime > now →
        maybeResetUserSubscription cal plan now row = some row) := by
  have hstep := fun t => @calcNextResetTime_custom cal plan sub.endTime hperiod t
  have hin := hadv.boundary
  have hopen : ¬ (plan.quotaResetCustomSeconds ≤ 0 ∨
      sub.endTime > 0 ∧ sub.resetBase + customStep plan > sub.endTime) := by
    intro hcut
    rw [hstep, if_pos hcut] at hin
    exact lt_irrefl 0 hin.1
  have hends := @lastReset_back cal plan now sub.endTime (fun t => by rw [hstep]; split <;> omega)
    (now.toNat + 1) sub.resetBase (by omega) (by omega)
  obtain ⟨row, hrow⟩ := maybeReset_of_walk hadv hends
  obtain ⟨⟨hpos, hnow, hle, hdvd⟩, hend, hnext, hout⟩ := maybeReset_walk
    (I := fun t => 0 < t ∧ t ≤ now ∧ t ≤ calcNextResetTime cal sub.resetBase plan sub.endTime ∧
      customStep plan ∣ sub.resetBase - t) hadv
    (fun t ht hpos hnow => by
      obtain ⟨-, -, hle, hdvd⟩ := ht
      rw [hstep t] at hpos hnow ⊢
      split at hpos
      · exact absurd hpos (lt_irrefl 0)
      next hcut =>
        rw [if_neg hcut] at hnow ⊢
        refine ⟨hpos, hnow, by omega, ?_⟩
        rw [← sub_sub]
        exact dvd_sub_self_right.2 hdvd)
    ⟨hin.1, hin.2, le_rfl, by
      rw [hstep, if_neg hopen, sub_add_cancel_left]
      exact dvd_neg.2 dvd_rfl⟩ hrow
  rw [hstep sub.resetBase, if_neg hopen] at hin hle
  -- the end of the subscription is after all of the walk
  have hnext' : row.nextResetTime = row.lastResetTime + customStep plan := by
    rw [hnext, hstep, if_neg (by omega)]
  refine ⟨row, hrow, hnow, ⟨fun hzero => ?_, fun hbase => ?_⟩, fun hzero => ?_⟩
  · have hlast : row.lastResetTime = -customStep plan := by omega
    rw [hlast, sub_neg_eq_add] at hdvd
    exact dvd_add_self_right.1 hdvd
  · have hdvdb : -customStep plan ∣ row.lastResetTime := neg_dvd.2 ((dvd_sub_right hbase).1 hdvd)
    have := Int.le_of_dvd hpos hdvdb
    left
    omega
  · exact maybeReset_again hpos (by rw [hend]; exact hnext) (by omega)

theorem maybeReset_stuck (hadv : Advances cal plan now sub)
    (hperiod : normalizeResetPeriod plan.quotaResetPeriod = .custom) (hstay : customStep plan = 0) :
    maybeResetUserSubscription cal plan now sub = none := by
  have hin := hadv.boundary
  have hstep : calcNextResetTime cal sub.resetBase plan sub.endTime = sub.resetBase := by
    rw [calcNextResetTime_custom hperiod] at hin ⊢
    split at hin
    · exact absurd hin.1 (lt_irrefl 0)
    next hcut => rw [if_neg hcut, hstay, add_zero]
  rw [maybeReset_of_advances hadv]
  rw [hstep] at hin ⊢
  rw [lastReset_stuck hstep hin.1 hin.2]
  rfl

theorem SetsFirst.after (hadv : ¬ Advances cal plan now sub) (hfirst : SetsFirst cal plan sub) :
    now < calcNextResetTime cal sub.resetBase plan sub.endTime := by
  by_contra hle
  refine hadv ⟨fun hwait => hwait.1.ne' hfirst.1, fun hnever => ?_, hfirst.2, not_lt.1 hle⟩
  exact hfirst.2.ne' (calcNextResetTime_never hnever _)

theorem InOrder.left (hcal : cal.MovesOn) (h : InOrder cal plan now sub) :
    ∃ row, maybeResetUserSubscription cal plan now sub = some row ∧
      (row.nextResetTime = 0 ∨ row.nextResetTime > now) ∧ row.lastResetTime ≤ now ∧
      maybeResetUserSubscription cal plan now row = some row := by
  by_cases hadv : Advances cal plan now sub
  · by_cases hback : normalizeResetPeriod plan.quotaResetPeriod = .custom ∧ customStep plan < 0
    · obtain ⟨row, hrow, hlast, hnext, hagain⟩ := maybeReset_back hadv hback.1 hback.2
      rcases h.step hadv hback.1 with hpos | ⟨-, hdvd⟩
      · exact absurd hpos (not_lt.2 hback.2.le)
      · exact ⟨row, hrow, hnext.2 hdvd, hlast, hagain (hnext.2 hdvd)⟩
    · exact maybeReset_forward hcal hadv fun hcustom =>
        (h.step hadv hcustom).resolve_right fun h => hback ⟨hcustom, h.1⟩
  · have htimes := h.times hadv
    rw [maybeReset_of_not_advances hadv]
    refine ⟨_, rfl, ?_⟩
    split at htimes
    next hfirst =>
      rw [if_pos hfirst]
      have hafter := hfirst.after hadv
      refine ⟨.inr ?_, htimes, maybeReset_waiting ?_ ?_⟩
      · dsimp only
        exact hafter
      · dsimp only
        exact hfirst.2
      · dsimp only
        exact hafter
    next hfirst =>
      rw [if_neg hfirst]
      exact ⟨htimes.2, htimes.1, maybeReset_settled hadv hfirst⟩

theorem used_iff (h : maybeResetUserSubscription cal plan now sub = some row) {ended : Prop} :
    (ended → row.amountUsed = 0) ∧ (¬ ended → row.amountUsed = sub.amountUsed) ↔
      (Advances cal plan now sub ↔ ended) ∨ sub.amountUsed = 0 := by
  rw [(maybeReset_spec h).2.2]
  by_cases hadv : Advances cal plan now sub
  · by_cases hover : ended
    · simp [hadv, hover]
    · simp [hadv, hover, eq_comm]
  · by_cases hover : ended
    · simp [hadv, hover]
    · simp [hadv, hover]

/-- A reset progresses just where the step, the period and the times of the subscription are in order. -/
theorem progresses_iff (hcal : cal.MovesOn) :
    Progresses cal plan now sub ↔ InOrder cal plan now sub := by
  constructor
  · rintro ⟨row, hrow, hnext, hlast, hover, hnot, -⟩
    have hused := (used_iff hrow).1 ⟨hover, hnot⟩
    rw [periodEnded_iff hcal] at hused
    refine ⟨hused, fun hadv hperiod => ?_, fun hadv => ?_⟩
    · rcases lt_trichotomy (customStep plan) 0 with hback | hstay | hforward
      · obtain ⟨row', hrow', -, hdvd, -⟩ := maybeReset_back hadv hperiod hback
        rw [hrow] at hrow'
        cases hrow'
        exact .inr ⟨hback, hdvd.1 hnext⟩
      · rw [maybeReset_stuck hadv hperiod hstay] at hrow
        cases hrow
      · exact .inl hforward
    · rw [maybeReset_of_not_advances hadv] at hrow
      cases hrow
      split at hlast
      next hfirst =>
        rw [if_pos hfirst]
        exact hlast
      next hfirst =>
        rw [if_neg hfirst] at hnext ⊢
        exact ⟨hlast, hnext⟩
  · intro h
    obtain ⟨row, hrow, hnext, hlast, hagain⟩ := h.left hcal
    have hperiod := h.period
    rw [← periodEnded_iff hcal] at hperiod
    obtain ⟨hover, hnot⟩ := (used_iff hrow).2 hperiod
    exact ⟨row, hrow, hnext, hlast, hover, hnot, hagain⟩

end

/-! ## A period of 2⁵⁵ seconds -/

theorem fixedCalendar_movesOn : fixedCalendar.MovesOn where
  day t days hdays := by
    dsimp only [fixedCalendar]
    omega
  weekday t := by
    dsimp only [fixedCalendar]
    omega
  month t := by
    dsimp only [fixedCalendar]
    omega

/-- The subscription that is made from a plan at a time, for thirty days. -/
def madeFrom (plan : SubscriptionPlan) (start : Int) : UserSubscription :=
  SubscriptionStore.newSubscription fixedCalendar 1 1 plan "order" start (start + 2592000) ⟨.empty, .empty, .empty⟩

/-- A plan that is reset every day. -/
def eachDay : SubscriptionPlan := { id := 1, quotaResetPeriod := "daily" }

/-- Ten days after it was made, a subscription is reset. -/
theorem eachDay_progresses : Progresses fixedCalendar eachDay 1700864000 (madeFrom eachDay 1700000000) :=
  (progresses_iff fixedCalendar_movesOn).2
    ⟨.inl ⟨fun _ => ⟨1700006400, rfl, by decide, by decide⟩, fun _ => by decide⟩,
      fun _ hcustom => absurd hcustom (by decide), fun hno => absurd (by decide) hno⟩

/-- A plan with a custom period of 2⁵⁵ seconds, which is a multiple of 2⁶⁴ nanoseconds. -/
def longPlan : SubscriptionPlan :=
  { id := 1, quotaResetPeriod := "custom", quotaResetCustomSeconds := 36028797018963968 }

/-- The plan is accepted, and a reset of a subscription made from it does not end. -/
theorem longPlan_stuck : adminAcceptPeriod longPlan = some longPlan ∧
    ¬ Progresses fixedCalendar longPlan 1700000001 (madeFrom longPlan 1700000000) := by
  refine ⟨by decide, ?_⟩
  rintro ⟨row, hrow, -⟩
  rw [maybeReset_stuck (by decide) (by decide) (by decide)] at hrow
  cases hrow

end NewApi

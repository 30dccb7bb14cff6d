import NewApi.Lib.Batches
import NewApi.Subscription.Group
import NewApi.Subscription.Progress

/-!
# The maintenance of subscriptions

`runSubscriptionQuotaResetOnce` expires the subscriptions that are past their end and resets those that are due,
in batches, as long as a full batch is reported. The clock stands still, and no statement fails. It ends with
nothing left to do just where the rows to expire have a user, the rows to reset leave the result of the query,
and those whose plan exists come in front of the others (`maintenance_ends_iff`).
-/

namespace NewApi

/-- `subscriptionResetBatchSize`. -/
def subscriptionResetBatchSize : Nat := 300

namespace SubscriptionStore

/-- `ExpireDueSubscriptions`, with the number of rows it reports. -/
def expireDueCounted (limit : Int) (now : Int) (s : SubscriptionStore) : Nat × SubscriptionStore :=
  (s.dueUsers limit now).foldl
    (fun p userId =>
      (p.1 + p.2.subs.rows.countP fun sub => sub.userId = userId ∧ IsDue now sub, p.2.expireUser now userId)) (0, s)

/-- The first loop of `runSubscriptionQuotaResetOnce`; none, after so many batches. -/
def expireLoop (now : Int) : Nat → SubscriptionStore → Option SubscriptionStore
  | 0, _ => none
  | batches + 1, s =>
    let p := s.expireDueCounted subscriptionResetBatchSize now
    if p.1 = 0 ∨ p.1 < subscriptionResetBatchSize then some p.2 else expireLoop now batches p.2

/-- The second loop; none also, where a reset does not return. -/
def resetLoop (cal : Calendar) (planById : Nat → Option SubscriptionPlan) (now : Int) :
    Nat → SubscriptionStore → Option SubscriptionStore
  | 0, _ => none
  | batches + 1, s =>
    match s.resetDueSubscriptions cal planById false (fun _ => false) subscriptionResetBatchSize now with
    | (some .noReturn, _, _) => none
    | (some _, _, s) => some s
    | (none, n, s) =>
      if n = 0 ∨ n < subscriptionResetBatchSize then some s else resetLoop cal planById now batches s

/-- `runSubscriptionQuotaResetOnce`, up to the records it cleans up; none, after so many batches. -/
def runSubscriptionQuotaResetOnce (cal : Calendar) (planById : Nat → Option SubscriptionPlan) (now : Int)
    (batches : Nat × Nat) (s : SubscriptionStore) : Option SubscriptionStore :=
  (s.expireLoop now batches.1).bind fun s => s.resetLoop cal planById now batches.2

/-- The subscription is active and due for a reset. -/
def ResetDue (now : Int) (sub : UserSubscription) : Prop :=
  sub.nextResetTime > 0 ∧ sub.nextResetTime ≤ now ∧ sub.status = .active

instance (now : Int) : DecidablePred (ResetDue now) := fun _ => inferInstanceAs (Decidable (_ ∧ _))

section
variable (cal : Calendar) (planById : Nat → Option SubscriptionPlan) (now : Int)

/-- The plan of a subscription exists. -/
def HasPlan (sub : UserSubscription) : Prop := (planById sub.planId).isSome

instance : DecidablePred (HasPlan planById) := fun _ => inferInstanceAs (Decidable (_ = true))

/-- No active subscription is past its end, and none that has a plan is due for a reset. -/
def Maintained (s : SubscriptionStore) : Prop :=
  ∀ sub ∈ s.subs, ¬ IsDue now sub ∧ ¬ (ResetDue now sub ∧ HasPlan planById sub)

/-- The task ends, and has maintained the subscriptions. -/
def MaintenanceEnds (s : SubscriptionStore) : Prop :=
  ∃ batches s', s.runSubscriptionQuotaResetOnce cal planById now batches = some s' ∧ Maintained planById now s'

/-! ## When it does -/

/-- A reset takes a subscription out of those that are due: its time has come by its plan, and the walk moves. -/
def LeavesQueue (sub : UserSubscription) : Prop :=
  ∀ plan, planById sub.planId = some plan → Advances cal plan now sub ∧
    (normalizeResetPeriod plan.quotaResetPeriod = .custom → customStep plan ≠ 0)

/-- The subscriptions that are due for a reset, the first to be reset first. -/
def resetQueue (s : SubscriptionStore) : List UserSubscription :=
  (s.subs.rows.filter fun sub => ResetDue now sub).insertionSort fun a b => a.nextResetTime ≤ b.nextResetTime

/-- Those of them that are not past their end. -/
def liveQueue (s : SubscriptionStore) : List UserSubscription :=
  (s.subs.rows.filter fun sub => ResetDue now sub ∧ ¬ IsDue now sub).insertionSort
    fun a b => a.nextResetTime ≤ b.nextResetTime

/-- The subscriptions can be maintained. -/
structure Maintainable (s : SubscriptionStore) : Prop where
  /-- Those past their end have a user. -/
  users : ∀ sub ∈ s.subs, IsDue now sub → 0 < sub.userId
  /-- Those due for a reset are due by their plan. -/
  leaves : ∀ sub ∈ s.subs, ResetDue now sub → ¬ IsDue now sub → LeavesQueue cal planById now sub
  /-- None that has a plan is in a later batch than one that has not. -/
  front : FinishedFirst subscriptionResetBatchSize (HasPlan planById) (s.liveQueue now)

end

/-! ## Expiring -/

section
variable {now : Int} {s t : SubscriptionStore} {sub : UserSubscription}

theorem not_isDue_expired : ¬ IsDue now (expired sub) := fun h => nomatch h.1

theorem subs_expireUser (userId : Nat) : (s.expireUser now userId).subs = (s.expireRows now userId).subs := by
  unfold expireUser
  dsimp only
  split
  · rfl
  split
  · rfl
  split
  · rfl
  split <;> rfl

/-- The rows after some of those that are due have expired. -/
def expireRowsIf (p : UserSubscription → Bool) (rows : List UserSubscription) : List UserSubscription :=
  rows.map fun sub => if p sub then expired sub else sub

theorem countP_expireRowsIf {p : UserSubscription → Bool} {rows : List UserSubscription}
    (hp : ∀ sub ∈ rows, p sub → IsDue now sub) :
    rows.countP p + (expireRowsIf p rows).countP (fun sub => IsDue now sub) =
      rows.countP fun sub => IsDue now sub := by
  induction rows with
  | nil => rfl
  | cons sub rows ih =>
    have ih := ih fun c hc => hp c (List.mem_cons_of_mem sub hc)
    unfold expireRowsIf at ih ⊢
    rw [List.map_cons, List.countP_cons, List.countP_cons, List.countP_cons]
    by_cases hsub : p sub
    · have hdue := hp sub List.mem_cons_self hsub
      simp only [hsub, if_true, not_isDue_expired, hdue, decide_true, decide_false, Bool.false_eq_true, if_false]
      omega
    · simp only [hsub, Bool.false_eq_true, if_false]
      omega

theorem expireRowsIf_expireRowsIf {p q : UserSubscription → Bool} {rows : List UserSubscription}
    (hq : ∀ sub, q sub → IsDue now sub) :
    expireRowsIf q (expireRowsIf p rows) = expireRowsIf (fun sub => p sub || q sub) rows := by
  unfold expireRowsIf
  rw [List.map_map]
  refine List.map_congr_left fun sub _ => ?_
  have hnot : q (expired sub) = false := Bool.eq_false_iff.2 fun h => not_isDue_expired (hq _ h)
  simp only [Function.comp]
  by_cases hp : p sub
  · simp [hp, hnot]
  · simp [hp]

theorem foldl_expireUser (users : List Nat) (n : Nat) (s : SubscriptionStore) :
    let p := users.foldl (fun p userId =>
      (p.1 + p.2.subs.rows.countP fun sub => sub.userId = userId ∧ IsDue now sub, p.2.expireUser now userId)) (n, s)
    p.2.subs.rows = expireRowsIf (fun sub => sub.userId ∈ users ∧ IsDue now sub) s.subs.rows ∧
      p.1 + p.2.subs.rows.countP (fun sub => IsDue now sub) =
        n + s.subs.rows.countP fun sub => IsDue now sub := by
  induction users generalizing n s with
  | nil =>
    refine ⟨?_, rfl⟩
    unfold expireRowsIf
    simp
  | cons userId users ih =>
    have hrows : (s.expireUser now userId).subs.rows =
        expireRowsIf (fun sub => sub.userId = userId ∧ IsDue now sub) s.subs.rows := by
      rw [subs_expireUser]
      unfold expireRows expireRowsIf
      rw [Table.rows_modifyWhere]
      simp only [decide_eq_true_eq]
    obtain ⟨hafter, hcount⟩ := ih
      (n + s.subs.rows.countP fun sub => sub.userId = userId ∧ IsDue now sub) (s.expireUser now userId)
    have hdue := @countP_expireRowsIf now (fun sub => sub.userId = userId ∧ IsDue now sub) s.subs.rows
      fun sub _ h => (of_decide_eq_true h).2
    rw [hrows] at hafter hcount
    refine ⟨?_, hcount.trans (by omega)⟩
    refine hafter.trans ?_
    rw [@expireRowsIf_expireRowsIf now _ _ _ fun sub h => (of_decide_eq_true h).2]
    congr 1
    funext sub
    simp only [List.mem_cons, ← Bool.decide_or, ← or_and_right]

theorem expireDueCounted_spec (limit : Int) (now : Int) (s : SubscriptionStore) :
    (s.expireDueCounted limit now).2.subs.rows =
        expireRowsIf (fun sub => sub.userId ∈ s.dueUsers limit now ∧ IsDue now sub) s.subs.rows ∧
      (s.expireDueCounted limit now).1 +
          (s.expireDueCounted limit now).2.subs.rows.countP (fun sub => IsDue now sub) =
        s.subs.rows.countP fun sub => IsDue now sub := by
  obtain ⟨hrows, hcount⟩ := @foldl_expireUser now (s.dueUsers limit now) 0 s
  exact ⟨hrows, hcount.trans (Nat.zero_add _)⟩

theorem pos_of_mem_dueUsers {limit : Int} {userId : Nat} (h : userId ∈ s.dueUsers limit now) : 0 < userId := by
  unfold dueUsers at h
  rw [List.mem_dedup, List.mem_filter] at h
  exact of_decide_eq_true h.2

theorem expireLoop_ends (now : Int) (s : SubscriptionStore) : ∃ batches t, s.expireLoop now batches = some t := by
  induction hn : s.subs.rows.countP (fun sub => IsDue now sub) using Nat.strong_induction_on generalizing s with
  | _ n ih =>
    obtain ⟨-, hcount⟩ := expireDueCounted_spec subscriptionResetBatchSize now s
    by_cases hlast : (s.expireDueCounted subscriptionResetBatchSize now).1 = 0 ∨
        (s.expireDueCounted subscriptionResetBatchSize now).1 < subscriptionResetBatchSize
    · refine ⟨1, (s.expireDueCounted subscriptionResetBatchSize now).2, ?_⟩
      unfold expireLoop
      exact if_pos hlast
    · obtain ⟨batches, t, ht⟩ := ih _ (by omega) (s.expireDueCounted subscriptionResetBatchSize now).2 rfl
      refine ⟨batches + 1, t, ?_⟩
      unfold expireLoop
      exact (if_neg hlast).trans ht

theorem expireLoop_rows {batches : Nat} (h : s.expireLoop now batches = some t) :
    ∃ p : UserSubscription → Bool, (∀ sub, p sub → IsDue now sub ∧ 0 < sub.userId) ∧
      t.subs.rows = expireRowsIf p s.subs.rows := by
  induction batches generalizing s with
  | zero => cases h
  | succ batches ih =>
    obtain ⟨hrows, -⟩ := expireDueCounted_spec subscriptionResetBatchSize now s
    have hbatch : ∀ sub, decide (sub.userId ∈ s.dueUsers subscriptionResetBatchSize now ∧ IsDue now sub) →
        IsDue now sub ∧ 0 < sub.userId := fun sub hsub =>
      ⟨(of_decide_eq_true hsub).2, pos_of_mem_dueUsers (of_decide_eq_true hsub).1⟩
    unfold expireLoop at h
    dsimp only at h
    split at h
    · cases h
      exact ⟨_, hbatch, hrows⟩
    · obtain ⟨p, hp, ht⟩ := ih h
      rw [hrows, expireRowsIf_expireRowsIf fun sub hsub => (hp sub hsub).1] at ht
      exact ⟨_, fun sub hsub => (Bool.or_eq_true_iff.1 hsub).elim (hbatch sub) (hp sub), ht⟩

/-- A batch that is not full, of rows that all have a user, has all the rows that are due. -/
theorem expireDueCounted_last (husers : ∀ sub ∈ s.subs, IsDue now sub → 0 < sub.userId)
    (hlast : (s.expireDueCounted subscriptionResetBatchSize now).1 < subscriptionResetBatchSize) :
    ∀ sub ∈ (s.expireDueCounted subscriptionResetBatchSize now).2.subs, ¬ IsDue now sub := by
  obtain ⟨hrows, hcount⟩ := expireDueCounted_spec subscriptionResetBatchSize now s
  have hreported := @countP_expireRowsIf now
    (fun sub => sub.userId ∈ s.dueUsers subscriptionResetBatchSize now ∧ IsDue now sub) s.subs.rows
    fun sub _ h => (of_decide_eq_true h).2
  rw [← hrows] at hreported
  -- the rows that are due, in the order of the query
  let queue := (s.subs.rows.filter fun sub => IsDue now sub).insertionSort EndsBefore
  have hmem : ∀ sub, sub ∈ queue ↔ sub ∈ s.subs ∧ IsDue now sub := fun sub => by
    rw [List.mem_insertionSort, List.mem_filter, decide_eq_true_eq, Table.mem_rows]
  have hbatch : ∀ sub ∈ queue.take subscriptionResetBatchSize,
      sub.userId ∈ s.dueUsers subscriptionResetBatchSize now := by
    intro sub hsub
    have hdue := (hmem sub).1 (List.mem_of_mem_take hsub)
    unfold dueUsers
    rw [List.mem_dedup, List.mem_filter, decide_eq_true_eq]
    exact ⟨List.mem_map_of_mem hsub, husers sub hdue.1 hdue.2⟩
  have hlen : (queue.take subscriptionResetBatchSize).length ≤
      s.subs.rows.countP fun sub => sub.userId ∈ s.dueUsers subscriptionResetBatchSize now ∧ IsDue now sub := by
    calc (queue.take subscriptionResetBatchSize).length
        = (queue.take subscriptionResetBatchSize).countP
            fun sub => sub.userId ∈ s.dueUsers subscriptionResetBatchSize now :=
          (List.countP_eq_length.2 fun sub hsub => decide_eq_true (hbatch sub hsub)).symm
      _ ≤ queue.countP fun sub => sub.userId ∈ s.dueUsers subscriptionResetBatchSize now :=
          (List.take_sublist _ _).countP_le
      _ = (s.subs.rows.filter fun sub => IsDue now sub).countP
            fun sub => sub.userId ∈ s.dueUsers subscriptionResetBatchSize now :=
          (List.perm_insertionSort _ _).countP_eq _
      _ = _ := by
          rw [List.countP_filter]
          simp only [Bool.decide_and]
  have hshort : queue.length < subscriptionResetBatchSize := by
    rw [List.length_take] at hlen
    omega
  rintro sub hsub hdue
  rw [Table.mem_rows, hrows] at hsub
  obtain ⟨row, hrow, rfl⟩ := List.mem_map.1 hsub
  split at hdue
  · exact not_isDue_expired hdue
  next hnot =>
    refine hnot (decide_eq_true ⟨hbatch row ?_, hdue⟩)
    rw [List.take_of_length_le hshort.le]
    exact (hmem row).2 ⟨hrow, hdue⟩

theorem expireLoop_done {batches : Nat} (husers : ∀ sub ∈ s.subs, IsDue now sub → 0 < sub.userId)
    (h : s.expireLoop now batches = some t) :
    t.subs.rows = s.subs.rows.map (expireIfDue now) ∧ ∀ sub ∈ t.subs, ¬ IsDue now sub := by
  have hdone : ∀ sub ∈ t.subs, ¬ IsDue now sub := by
    induction batches generalizing s with
    | zero => cases h
    | succ batches ih =>
      unfold expireLoop at h
      dsimp only at h
      split at h
      next hlast =>
        cases h
        refine expireDueCounted_last husers ?_
        rcases hlast with hzero | hlt
        · rw [hzero]
          decide
        · exact hlt
      · refine ih (fun sub hsub hdue => ?_) h
        rw [Table.mem_rows, (expireDueCounted_spec subscriptionResetBatchSize now s).1] at hsub
        obtain ⟨row, hrow, rfl⟩ := List.mem_map.1 hsub
        split at hdue
        · exact absurd hdue not_isDue_expired
        next hnot =>
          rw [if_neg hnot]
          exact husers row hrow hdue
  obtain ⟨p, hp, hrows⟩ := expireLoop_rows h
  refine ⟨hrows.trans (List.map_congr_left fun sub hsub => ?_), hdone⟩
  unfold expireIfDue
  by_cases hsel : p sub
  · rw [if_pos hsel, if_pos (hp sub hsel).1]
  · have hstay : sub ∈ t.subs := by
      rw [Table.mem_rows, hrows]
      exact List.mem_map.2 ⟨sub, hsub, if_neg hsel⟩
    rw [if_neg hsel, if_neg (hdone sub hstay)]

end

/-! ## Resetting -/

section
variable {cal : Calendar} {planById : Nat → Option SubscriptionPlan} {plan : SubscriptionPlan} {now : Int}
  {s s' : SubscriptionStore} {sub row : UserSubscription} {l : List UserSubscription} {count : Nat}

theorem rows_saveSub (row : UserSubscription) (s : SubscriptionStore) :
    (s.saveSub row).subs.rows = s.subs.rows.map fun sub => if sub.id = row.id then row else sub := by
  refine List.map_congr_left fun sub _ => ?_
  split
  next hkey =>
    unfold UserSubscription.saved
    rw [hkey]
  · rfl

theorem mem_saveSub {a : UserSubscription} :
    a ∈ (s.saveSub row).subs ↔ ∃ sub ∈ s.subs, (if sub.id = row.id then row else sub) = a := by
  rw [Table.mem_rows, rows_saveSub]
  exact List.mem_map

theorem resetSubscription_cases (cal : Calendar) (plan : SubscriptionPlan) (id : Nat) (now : Int)
    (s : SubscriptionStore) :
    s.resetSubscription cal plan false id now = .ok (false, s) ∨
      ∃ sub, s.subs.get? id = some sub ∧
        (maybeResetUserSubscription cal plan now sub = none ∧
            s.resetSubscription cal plan false id now = .error .noReturn ∨
          ∃ row, maybeResetUserSubscription cal plan now sub = some row ∧
            s.resetSubscription cal plan false id now = .ok (true, s.saveSub row)) := by
  unfold resetSubscription
  cases hget : s.subs.get? id with
  | none => exact .inl rfl
  | some sub =>
    dsimp only
    split
    · refine .inr ⟨sub, rfl, ?_⟩
      unfold maybeResetTx
      rw [hget]
      dsimp only
      rw [if_neg Bool.false_ne_true]
      cases hreset : maybeResetUserSubscription cal plan now sub with
      | none => exact .inl ⟨rfl, rfl⟩
      | some row => exact .inr ⟨row, rfl, rfl⟩
    · exact .inl rfl

theorem resetEach_rule {P : SubscriptionStore → Prop}
    (hP : ∀ c ∈ l, ∀ s plan sub row, planById c.planId = some plan → s.subs.get? c.id = some sub →
      maybeResetUserSubscription cal plan now sub = some row → P s → P (s.saveSub row)) (hs : P s) :
    P (resetEach cal planById (fun _ => false) now l count s).2.2 := by
  induction l generalizing s count with
  | nil => exact hs
  | cons c l ih =>
    have ih {s : SubscriptionStore} {count : Nat} (hs : P s) :=
      @ih s count (fun c' hc' => hP c' (List.mem_cons_of_mem c hc')) hs
    unfold resetEach
    cases hplan : planById c.planId with
    | none => exact ih hs
    | some plan =>
      dsimp only
      rcases resetSubscription_cases cal plan c.id now s with hskip | ⟨sub, hget, ⟨-, hstuck⟩ | ⟨row, hreset, hok⟩⟩
      · rw [hskip]
        exact ih hs
      · rw [hstuck]
        exact hs
      · rw [hok]
        exact ih (hP c List.mem_cons_self s plan sub row hplan hget hreset hs)

theorem resetLoop_rule {P : SubscriptionStore → Prop}
    (hP : ∀ s, P s → P (s.resetDueSubscriptions cal planById false (fun _ => false) subscriptionResetBatchSize now).2.2)
    {batches : Nat} (hs : P s) (h : s.resetLoop cal planById now batches = some s') : P s' := by
  induction batches generalizing s with
  | zero => cases h
  | succ batches ih =>
    have hnext := hP s hs
    unfold resetLoop at h
    split at h
    · cases h
    next heq =>
      rw [heq] at hnext
      cases h
      exact hnext
    next heq =>
      rw [heq] at hnext
      split at h
      · cases h
        exact hnext
      · exact ih hnext h

theorem mem_dueResets {limit : Int} (h : sub ∈ s.dueResets limit now) : sub ∈ s.subs ∧ ResetDue now sub := by
  have hmem := List.mem_of_mem_take h
  rw [List.mem_insertionSort, List.mem_filter] at hmem
  exact ⟨hmem.1, of_decide_eq_true hmem.2⟩

theorem maybeReset_frame (h : maybeResetUserSubscription cal plan now sub = some row) :
    row.id = sub.id ∧ row.planId = sub.planId ∧ row.status = sub.status ∧ row.endTime = sub.endTime := by
  by_cases hadv : Advances cal plan now sub
  · rw [maybeReset_of_advances hadv] at h
    obtain ⟨p, -, rfl⟩ := Option.map_eq_some_iff.1 h
    exact ⟨rfl, rfl, rfl, rfl⟩
  · rw [maybeReset_of_not_advances hadv] at h
    cases h
    split <;> exact ⟨rfl, rfl, rfl, rfl⟩

theorem resetLoop_ends_kept {batches : Nat} (h : s.resetLoop cal planById now batches = some s') :
    s'.subs.rows.map (fun sub => (sub.status, sub.endTime)) =
      s.subs.rows.map fun sub => (sub.status, sub.endTime) := by
  refine resetLoop_rule (P := fun t => t.subs.rows.map (fun sub => (sub.status, sub.endTime)) =
    s.subs.rows.map fun sub => (sub.status, sub.endTime)) (fun t ht => ?_) rfl h
  refine resetEach_rule (P := fun t => t.subs.rows.map (fun sub => (sub.status, sub.endTime)) =
    s.subs.rows.map fun sub => (sub.status, sub.endTime)) (fun c _ t plan sub row _ hget hreset ht => ?_) ht
  obtain ⟨hid, -, hstatus, hend⟩ := maybeReset_frame hreset
  rw [← ht, rows_saveSub, List.map_map]
  refine List.map_congr_left fun a ha => ?_
  simp only [Function.comp]
  split
  next hkey =>
    have hsub : a = sub := Table.eq_of_key_eq ha (Table.mem_of_get? hget) (hkey.trans hid)
    rw [hsub]
    exact Prod.ext hstatus hend
  · rfl

theorem maybeReset_stays (hdue : ResetDue now sub)
    (hstay : ¬ (Advances cal plan now sub ∧
      (normalizeResetPeriod plan.quotaResetPeriod = .custom → customStep plan ≠ 0)))
    (h : maybeResetUserSubscription cal plan now sub = some row) : row = sub := by
  by_cases hadv : Advances cal plan now sub
  · push Not at hstay
    obtain ⟨hperiod, hzero⟩ := hstay hadv
    rw [maybeReset_stuck hadv hperiod hzero] at h
    cases h
  · rw [maybeReset_settled hadv fun hfirst => hdue.1.ne' hfirst.1] at h
    cases h
    rfl

theorem resetLoop_stays {batches : Nat} (hsub : sub ∈ s.subs) (hdue : ResetDue now sub)
    (hstay : ¬ LeavesQueue cal planById now sub) (h : s.resetLoop cal planById now batches = some s') :
    sub ∈ s'.subs := by
  unfold LeavesQueue at hstay
  push Not at hstay
  obtain ⟨plan, hplan, hstay⟩ := hstay
  refine resetLoop_rule (P := fun t => sub ∈ t.subs) (fun t ht => ?_) hsub h
  refine resetEach_rule (P := fun t => sub ∈ t.subs) (fun c hc t' plan' sub' row hplan' hget hreset ht' => ?_) ht
  obtain ⟨hid, -⟩ := maybeReset_frame hreset
  by_cases hkey : sub.id = row.id
  · have hsub' : sub' = sub := Table.eq_of_key_eq (Table.mem_of_get? hget) ht' (hid.symm.trans hkey.symm)
    have hc' : c = sub := Table.eq_of_key_eq (mem_dueResets hc).1 ht
      ((Table.key_of_get? hget).symm.trans (congrArg _ hsub'))
    rw [hc', hplan] at hplan'
    cases hplan'
    rw [hsub'] at hreset
    have hrow := maybeReset_stays hdue (fun hno => hno.2 (hstay hno.1).1 (hstay hno.1).2) hreset
    exact mem_saveSub.2 ⟨sub, ht', by rw [if_pos hkey, hrow]⟩
  · exact mem_saveSub.2 ⟨sub, ht', if_neg hkey⟩

/-- The row that a reset leaves. -/
def resetRow (cal : Calendar) (planById : Nat → Option SubscriptionPlan) (now : Int) (sub : UserSubscription) :
    UserSubscription :=
  (resetOf cal planById now sub).getD sub

theorem resetRow_of_leaves (hcal : cal.MovesOn) (hleave : LeavesQueue cal planById now sub)
    (hplan : planById sub.planId = some plan) :
    ∃ row, maybeResetUserSubscription cal plan now sub = some row ∧ resetRow cal planById now sub = row ∧
      ¬ ResetDue now row := by
  obtain ⟨hadv, hstep⟩ := hleave plan hplan
  have hreturns : ∃ row, maybeResetUserSubscription cal plan now sub = some row := by
    by_cases hback : normalizeResetPeriod plan.quotaResetPeriod = .custom ∧ customStep plan < 0
    · obtain ⟨row, hrow, -⟩ := maybeReset_back hadv hback.1 hback.2
      exact ⟨row, hrow⟩
    · obtain ⟨row, hrow, -⟩ := maybeReset_forward hcal hadv fun hcustom =>
        lt_of_le_of_ne (not_lt.1 fun hlt => hback ⟨hcustom, hlt⟩) (hstep hcustom).symm
      exact ⟨row, hrow⟩
  obtain ⟨row, hrow⟩ := hreturns
  obtain ⟨-, -, -, hout⟩ := maybeReset_walk (I := fun _ => True) hadv (fun _ _ _ _ => trivial) trivial hrow
  refine ⟨row, hrow, ?_, fun hdue => hout ⟨hdue.1, hdue.2.1⟩⟩
  unfold resetRow resetOf
  rw [hplan, Option.bind_some, hrow]
  rfl

theorem resetRow_of_lost (hplan : planById sub.planId = none) : resetRow cal planById now sub = sub := by
  unfold resetRow resetOf
  rw [hplan]
  rfl

theorem resetSubscription_of_due (hget : s.subs.get? sub.id = some sub) (hdue : ResetDue now sub)
    (hreset : maybeResetUserSubscription cal plan now sub = some row) :
    s.resetSubscription cal plan false sub.id now = .ok (true, s.saveSub row) := by
  unfold resetSubscription maybeResetTx
  rw [hget]
  dsimp only
  rw [if_pos ⟨hdue.1, hdue.2.1⟩, hreset]
  rfl

theorem hasPlan_of_some (hplan : planById sub.planId = some plan) : HasPlan planById sub := by
  unfold HasPlan
  rw [hplan]
  rfl

theorem not_hasPlan_of_none (hplan : planById sub.planId = none) : ¬ HasPlan planById sub := by
  unfold HasPlan
  rw [hplan]
  exact Bool.false_ne_true

/-- A batch of rows that leave the queue is reset, and counted by their plans. -/
theorem resetEach_rows (hcal : cal.MovesOn) (hl : (l.map UserSubscription.id).Nodup)
    (hin : ∀ c ∈ l, c ∈ s.subs ∧ ResetDue now c ∧ LeavesQueue cal planById now c) :
    ∃ s', resetEach cal planById (fun _ => false) now l count s =
        (none, count + l.countP (fun c => HasPlan planById c), s') ∧
      s'.subs.rows = s.subs.rows.map fun sub => if sub ∈ l then resetRow cal planById now sub else sub := by
  induction l generalizing s count with
  | nil =>
    refine ⟨s, rfl, ?_⟩
    simp
  | cons c l ih =>
    rw [List.map_cons, List.nodup_cons] at hl
    obtain ⟨hc, hdue, hleave⟩ := hin c List.mem_cons_self
    unfold resetEach
    rw [List.countP_cons]
    cases hplan : planById c.planId with
    | none =>
      obtain ⟨s', heq, hrows⟩ := @ih s count hl.2 fun c' hc' => hin c' (List.mem_cons_of_mem c hc')
      have hno := not_hasPlan_of_none hplan
      refine ⟨s', ?_, hrows.trans (List.map_congr_left fun sub _ => ?_)⟩
      · rw [if_neg (by simpa using hno)]
        exact heq
      · by_cases hsub : sub = c
        · rw [hsub, resetRow_of_lost hplan, ite_self, ite_self]
        · simp [hsub]
    | some plan =>
      obtain ⟨row, hreset, hrow, -⟩ := resetRow_of_leaves hcal hleave hplan
      obtain ⟨hid, -⟩ := maybeReset_frame hreset
      have hrest : ∀ c' ∈ l, c' ∈ (s.saveSub row).subs ∧ ResetDue now c' ∧ LeavesQueue cal planById now c' := by
        intro c' hc'
        obtain ⟨hc'', hdue', hleave'⟩ := hin c' (List.mem_cons_of_mem c hc')
        have hne : c'.id ≠ row.id := fun hkey => hl.1 (hid ▸ hkey ▸ List.mem_map_of_mem hc')
        exact ⟨mem_saveSub.2 ⟨c', hc'', if_neg hne⟩, hdue', hleave'⟩
      obtain ⟨s', heq, hrows⟩ := @ih (s.saveSub row) (count + 1) hl.2 hrest
      have hyes := hasPlan_of_some hplan
      dsimp only
      rw [resetSubscription_of_due (Table.get?_key hc) hdue hreset]
      refine ⟨s', ?_, hrows.trans ?_⟩
      · rw [if_pos (by simpa using hyes), ← add_assoc, Nat.add_right_comm]
        exact heq
      · rw [rows_saveSub, List.map_map]
        refine List.map_congr_left fun sub hsub => ?_
        simp only [Function.comp]
        by_cases hkey : sub.id = row.id
        · have hsubc : sub = c := Table.eq_of_key_eq hsub hc (hkey.trans hid)
          have hnot : row ∉ l := fun hmem => hl.1 (hid ▸ List.mem_map_of_mem hmem)
          rw [if_pos hkey, if_neg hnot, hsubc, if_pos List.mem_cons_self, hrow]
        · have hsubc : sub ≠ c := fun h => hkey (h ▸ hid.symm)
          simp [hkey, hsubc]

/-! ## The queue -/

instance : IsTrans UserSubscription fun a b => a.nextResetTime ≤ b.nextResetTime := ⟨fun _ _ _ h h' => h.trans h'⟩

instance : Std.Total fun a b : UserSubscription => a.nextResetTime ≤ b.nextResetTime :=
  ⟨fun a b => le_total a.nextResetTime b.nextResetTime⟩

theorem mem_resetQueue : sub ∈ s.resetQueue now ↔ sub ∈ s.subs ∧ ResetDue now sub := by
  unfold resetQueue
  rw [List.mem_insertionSort, List.mem_filter, decide_eq_true_eq, Table.mem_rows]

theorem resetQueue_nodup (now : Int) (s : SubscriptionStore) :
    ((s.resetQueue now).map UserSubscription.id).Nodup := by
  unfold resetQueue
  refine (((List.perm_insertionSort _ _).map _).nodup_iff).2 ?_
  exact s.subs.nodup.sublist (List.filter_sublist.map _)

/-- After a batch a row is due where it was, unless it was in the batch and its plan exists, and as it was. -/
theorem resetDue_after (hcal : cal.MovesOn) (hin : sub ∈ l → ResetDue now sub ∧ LeavesQueue cal planById now sub) :
    (ResetDue now (if sub ∈ l then resetRow cal planById now sub else sub) ↔
        ¬ (sub ∈ l ∧ HasPlan planById sub) ∧ ResetDue now sub) ∧
      (¬ (sub ∈ l ∧ HasPlan planById sub) ∧ ResetDue now sub →
        (if sub ∈ l then resetRow cal planById now sub else sub) = sub) := by
  by_cases hmem : sub ∈ l
  · rw [if_pos hmem]
    cases hplan : planById sub.planId with
    | none =>
      have hno := not_hasPlan_of_none hplan
      rw [resetRow_of_lost hplan]
      exact ⟨⟨fun h => ⟨fun hand => hno hand.2, h⟩, And.right⟩, fun _ => rfl⟩
    | some plan =>
      have hand : sub ∈ l ∧ HasPlan planById sub := ⟨hmem, hasPlan_of_some hplan⟩
      obtain ⟨row, -, hrow, hnot⟩ := resetRow_of_leaves hcal (hin hmem).2 hplan
      rw [hrow]
      exact ⟨⟨fun h => absurd h hnot, fun h => absurd hand h.1⟩, fun h => absurd hand h.1⟩
  · rw [if_neg hmem]
    exact ⟨⟨fun h => ⟨fun hand => hmem hand.1, h⟩, And.right⟩, fun _ => rfl⟩

theorem resetDue_round (hcal : cal.MovesOn) (hleave : ∀ sub ∈ s.resetQueue now, LeavesQueue cal planById now sub) :
    ∃ s', s.resetDueSubscriptions cal planById false (fun _ => false) subscriptionResetBatchSize now =
        (none, finished subscriptionResetBatchSize (HasPlan planById) (s.resetQueue now), s') ∧
      s'.resetQueue now = round subscriptionResetBatchSize (HasPlan planById) (s.resetQueue now) := by
  have hids : (((s.resetQueue now).take subscriptionResetBatchSize).map UserSubscription.id).Nodup :=
    (resetQueue_nodup now s).sublist ((List.take_sublist _ _).map _)
  have hin : ∀ c ∈ (s.resetQueue now).take subscriptionResetBatchSize,
      c ∈ s.subs ∧ ResetDue now c ∧ LeavesQueue cal planById now c := fun c hc =>
    have hqueue := List.mem_of_mem_take hc
    have hmem := mem_resetQueue.1 hqueue
    ⟨hmem.1, hmem.2, hleave c hqueue⟩
  obtain ⟨s', heq, hrows⟩ := @resetEach_rows _ _ _ _ _ 0 hcal hids hin
  refine ⟨s', ?_, ?_⟩
  · rw [Nat.zero_add] at heq
    exact heq
  rw [round_eq_filter ((resetQueue_nodup now s).of_map _)]
  unfold resetQueue at hrows ⊢
  rw [filter_insertionSort, List.filter_filter, hrows]
  -- a row of the batch whose plan exists is not due any more; every other row is as it was
  congr 1
  rw [filter_map_of_eq (p := ResetDue now) (q := fun sub =>
    ¬ (sub ∈ (s.resetQueue now).take subscriptionResetBatchSize ∧ HasPlan planById sub) ∧ ResetDue now sub)]
  · refine List.filter_congr fun sub _ => ?_
    rw [Bool.decide_and]
    rfl
  exact fun sub _ => resetDue_after hcal (fun hmem => (hin sub hmem).2)

theorem resetLoop_drain (hcal : cal.MovesOn) (hleave : ∀ sub ∈ s.resetQueue now, LeavesQueue cal planById now sub)
    (batches : Nat) :
    (s.resetLoop cal planById now batches).map (resetQueue now) =
      drain subscriptionResetBatchSize (HasPlan planById) batches (s.resetQueue now) := by
  induction batches generalizing s with
  | zero => rfl
  | succ batches ih =>
    obtain ⟨s', heq, hqueue⟩ := resetDue_round hcal hleave
    unfold resetLoop drain
    rw [heq]
    dsimp only
    have hlast : (finished subscriptionResetBatchSize (HasPlan planById) (s.resetQueue now) = 0 ∨
        finished subscriptionResetBatchSize (HasPlan planById) (s.resetQueue now) < subscriptionResetBatchSize) ↔
        finished subscriptionResetBatchSize (HasPlan planById) (s.resetQueue now) < subscriptionResetBatchSize := by
      unfold subscriptionResetBatchSize
      omega
    rw [apply_ite (Option.map (resetQueue now)), Option.map_some, hqueue]
    simp only [hlast]
    split
    · rfl
    · rw [← hqueue]
      refine ih fun sub hsub => hleave sub ?_
      rw [hqueue, round] at hsub
      rcases List.mem_append.1 hsub with htake | hdrop
      · exact List.mem_of_mem_take (List.mem_of_mem_filter htake)
      · exact List.mem_of_mem_drop hdrop

/-! ## The task -/

theorem resetDue_expireIfDue :
    ResetDue now (expireIfDue now sub) ↔ ResetDue now sub ∧ ¬ IsDue now sub := by
  unfold expireIfDue
  split
  next hdue => exact ⟨fun h => (nomatch h.2.2), fun h => absurd hdue h.2⟩
  next hlive => exact ⟨fun h => ⟨h, hlive⟩, And.left⟩

theorem expireIfDue_of_not (h : ¬ IsDue now sub) : expireIfDue now sub = sub := if_neg h

variable {t : SubscriptionStore}

theorem resetQueue_expired (h : t.subs.rows = s.subs.rows.map (expireIfDue now)) :
    t.resetQueue now = s.liveQueue now := by
  unfold resetQueue liveQueue
  rw [h, filter_map_of_eq (p := ResetDue now) (q := fun sub => ResetDue now sub ∧ ¬ IsDue now sub)]
  intro sub _
  exact ⟨resetDue_expireIfDue, fun hand => expireIfDue_of_not hand.2⟩

theorem mem_liveQueue : sub ∈ s.liveQueue now ↔ sub ∈ s.subs ∧ ResetDue now sub ∧ ¬ IsDue now sub := by
  unfold liveQueue
  rw [List.mem_insertionSort, List.mem_filter, decide_eq_true_eq, Table.mem_rows]

theorem resetLoop_isDue {batches : Nat} (h : s.resetLoop cal planById now batches = some s') :
    (∃ sub ∈ s'.subs, IsDue now sub) ↔ ∃ sub ∈ s.subs, IsDue now sub := by
  have hdue (rows : List UserSubscription) : (∃ sub ∈ rows, IsDue now sub) ↔
      ∃ p ∈ rows.map (fun sub => (sub.status, sub.endTime)), p.1 = .active ∧ p.2 > 0 ∧ p.2 ≤ now := by
    simp only [List.mem_map, exists_exists_and_eq_and]
    rfl
  have hkept := hdue s'.subs.rows
  rw [resetLoop_ends_kept h] at hkept
  exact hkept.trans (hdue s.subs.rows).symm

/-- The maintenance ends with nothing left to do just where it can be done. -/
theorem maintenance_ends_iff (hcal : cal.MovesOn) :
    MaintenanceEnds cal planById now s ↔ Maintainable cal planById now s := by
  constructor
  · rintro ⟨⟨m, n⟩, s', hrun, hdone⟩
    obtain ⟨t, hexpire, hreset⟩ := Option.bind_eq_some_iff.1 hrun
    obtain ⟨p, hp, hrows⟩ := expireLoop_rows hexpire
    have hstay : ∀ sub ∈ s.subs, ¬ p sub → sub ∈ t.subs := fun sub hsub hno => by
      rw [Table.mem_rows, hrows]
      exact List.mem_map.2 ⟨sub, hsub, if_neg hno⟩
    have husers : ∀ sub ∈ s.subs, IsDue now sub → 0 < sub.userId := by
      intro sub hsub hdue
      by_contra hzero
      have ht := hstay sub hsub fun h => hzero (hp sub h).2
      obtain ⟨row, hrow, hrowdue⟩ := (resetLoop_isDue hreset).2 ⟨sub, ht, hdue⟩
      exact (hdone row hrow).1 hrowdue
    have hleaves : ∀ sub ∈ s.subs, ResetDue now sub → ¬ IsDue now sub → LeavesQueue cal planById now sub := by
      intro sub hsub hdue hlive
      by_contra hno
      have ht := hstay sub hsub fun h => hlive (hp sub h).1
      refine (hdone sub (resetLoop_stays ht hdue hno hreset)).2 ⟨hdue, ?_⟩
      unfold LeavesQueue at hno
      push Not at hno
      obtain ⟨plan, hplan, -⟩ := hno
      exact hasPlan_of_some hplan
    refine ⟨husers, hleaves, ?_⟩
    have hqueue := resetQueue_expired (expireLoop_done husers hexpire).1
    rw [← hqueue, ← drain_clears_iff (by decide)]
    have hdrain := @resetLoop_drain _ planById _ t hcal (fun sub hsub => by
      rw [hqueue] at hsub
      obtain ⟨hmem, hdue, hlive⟩ := mem_liveQueue.1 hsub
      exact hleaves sub hmem hdue hlive) n
    rw [hreset, Option.map_some] at hdrain
    refine ⟨n, _, hdrain.symm, fun sub hsub hplan => ?_⟩
    obtain ⟨hmem, hdue⟩ := mem_resetQueue.1 hsub
    exact (hdone sub hmem).2 ⟨hdue, hplan⟩
  · rintro ⟨husers, hleaves, hfront⟩
    obtain ⟨m, t, hexpire⟩ := expireLoop_ends now s
    obtain ⟨hrows, hnone⟩ := expireLoop_done husers hexpire
    have hqueue := resetQueue_expired hrows
    rw [← hqueue, ← drain_clears_iff (by decide)] at hfront
    obtain ⟨n, l, hdrain, hclear⟩ := hfront
    rw [← @resetLoop_drain _ planById _ t hcal fun sub hsub => by
      rw [hqueue] at hsub
      obtain ⟨hmem, hdue, hlive⟩ := mem_liveQueue.1 hsub
      exact hleaves sub hmem hdue hlive] at hdrain
    obtain ⟨s', hreset, rfl⟩ := Option.map_eq_some_iff.1 hdrain
    refine ⟨(m, n), s', Option.bind_eq_some_iff.2 ⟨t, hexpire, hreset⟩, fun sub hsub => ⟨fun hdue => ?_, ?_⟩⟩
    · obtain ⟨row, hrow, hrowdue⟩ := (resetLoop_isDue hreset).1 ⟨sub, hsub, hdue⟩
      exact hnone row hrow hrowdue
    · rintro ⟨hdue, hplan⟩
      exact hclear sub (mem_resetQueue.2 ⟨hsub, hdue⟩) hplan

end

/-! ## A plan that is never reset any more -/

section
variable {cal : Calendar} {planById : Nat → Option SubscriptionPlan} {now : Int} {s : SubscriptionStore}
  {l : List UserSubscription} {count : Nat}

theorem resetEach_unchanged (hin : ∀ c ∈ l, c ∈ s.subs ∧ ResetDue now c ∧
      ∃ plan, planById c.planId = some plan ∧ maybeResetUserSubscription cal plan now c = some c) :
    resetEach cal planById (fun _ => false) now l count s = (none, count + l.length, s) := by
  induction l generalizing count with
  | nil => rfl
  | cons c l ih =>
    obtain ⟨hc, hdue, plan, hplan, hreset⟩ := hin c List.mem_cons_self
    have hsave : s.saveSub c = s := by
      have hsubs : (s.saveSub c).subs = s.subs := by
        refine Table.ext ?_
        rw [rows_saveSub]
        conv_rhs => rw [← List.map_id s.subs.rows]
        refine List.map_congr_left fun sub hsub => ?_
        split
        next hkey => exact Table.eq_of_key_eq hc hsub hkey.symm
        · rfl
      exact congrArg (fun subs => { s with subs }) hsubs
    unfold resetEach
    rw [hplan]
    dsimp only
    rw [resetSubscription_of_due (Table.get?_key hc) hdue hreset, hsave]
    have ih := @ih (count + 1) fun c' hc' => hin c' (List.mem_cons_of_mem c hc')
    rw [List.length_cons, Nat.add_comm l.length, ← Nat.add_assoc]
    exact ih

theorem resetLoop_endless (hfull : subscriptionResetBatchSize ≤ (s.resetQueue now).length)
    (hin : ∀ c ∈ (s.resetQueue now).take subscriptionResetBatchSize,
      ∃ plan, planById c.planId = some plan ∧ maybeResetUserSubscription cal plan now c = some c) (batches : Nat) :
    s.resetLoop cal planById now batches = none := by
  have hbatch : s.resetDueSubscriptions cal planById false (fun _ => false) subscriptionResetBatchSize now =
      (none, subscriptionResetBatchSize, s) := by
    have heq := @resetEach_unchanged _ _ _ _ ((s.resetQueue now).take subscriptionResetBatchSize) 0
      fun c hc => ⟨(mem_resetQueue.1 (List.mem_of_mem_take hc)).1,
        (mem_resetQueue.1 (List.mem_of_mem_take hc)).2, hin c hc⟩
    rw [Nat.zero_add, List.length_take, Nat.min_eq_left hfull] at heq
    exact heq
  induction batches with
  | zero => rfl
  | succ batches ih =>
    unfold resetLoop
    rw [hbatch]
    dsimp only
    rw [if_neg (by decide)]
    exact ih

end

/-- Some subscriptions made from a plan that is reset every day, which are due at 1700006400. -/
def madeEachDay (n : Nat) : SubscriptionStore where
  users := .empty
  subs := ⟨(List.range n).map fun i => { madeFrom eachDay 1700000000 with id := i }, by
    rw [List.map_map]
    exact List.nodup_range.map fun _ _ h => h⟩
  records := .empty

theorem forall_madeEachDay {n : Nat} {p : UserSubscription → Prop}
    (h : ∀ i, p { madeFrom eachDay 1700000000 with id := i }) : ∀ sub ∈ (madeEachDay n).subs, p sub := by
  intro sub hsub
  obtain ⟨i, -, rfl⟩ := List.mem_map.1 hsub
  exact h i

theorem live_madeEachDay {n : Nat} : ∀ sub ∈ (madeEachDay n).subs, ¬ IsDue 1700006400 sub := by
  have hlive : ¬ IsDue 1700006400 (madeFrom eachDay 1700000000) := by decide
  exact forall_madeEachDay fun _ => hlive

theorem due_madeEachDay {n : Nat} : ∀ sub ∈ (madeEachDay n).subs, ResetDue 1700006400 sub := by
  have hdue : ResetDue 1700006400 (madeFrom eachDay 1700000000) := by decide
  exact forall_madeEachDay fun _ => hdue

/-- With the plan they are made from, they are reset. -/
theorem madeEachDay_maintained :
    MaintenanceEnds fixedCalendar (fun _ => some eachDay) 1700006400 (madeEachDay 1000) :=
  (maintenance_ends_iff fixedCalendar_movesOn).2
    ⟨fun sub hsub hdue => absurd hdue (live_madeEachDay sub hsub), fun sub hsub _ _ plan hplan => by
      cases hplan
      have hadv : Advances fixedCalendar eachDay 1700006400 (madeFrom eachDay 1700000000) := by decide
      exact ⟨forall_madeEachDay (fun _ => hadv) sub hsub, by decide⟩, fun _ _ _ _ _ _ hno _ => absurd rfl hno⟩

/-- The plan that is not reset any more. -/
def resetNoMore : SubscriptionPlan := { eachDay with quotaResetPeriod := "never" }

/-- Where the plan of a full batch is edited so that it is not reset any more, the maintenance does not end. -/
theorem resetNoMore_endless :
    ∀ batches, (madeEachDay 300).runSubscriptionQuotaResetOnce fixedCalendar (fun _ => some resetNoMore) 1700006400
      batches = none := by
  rintro ⟨m, n⟩
  refine Option.bind_eq_none_iff.2 fun t ht => ?_
  obtain ⟨hrows, -⟩ := expireLoop_done (fun sub hsub h => absurd h (live_madeEachDay sub hsub)) ht
  have hqueue := resetQueue_expired hrows
  refine resetLoop_endless ?_ (fun c hc => ⟨resetNoMore, rfl, ?_⟩) n
  · rw [hqueue]
    unfold liveQueue
    rw [List.length_insertionSort, List.filter_eq_self.2 fun sub hsub =>
      decide_eq_true ⟨due_madeEachDay sub hsub, live_madeEachDay sub hsub⟩]
    exact (List.length_map _).trans List.length_range |>.ge
  · rw [hqueue] at hc
    have hmem := (mem_liveQueue.1 (List.mem_of_mem_take hc)).1
    have hnever : normalizeResetPeriod resetNoMore.quotaResetPeriod = .never := by decide
    refine maybeReset_settled (fun hadv => hadv.2.1 hnever) fun hfirst => ?_
    exact hfirst.2.ne' (calcNextResetTime_never hnever _)

/-- So it does not end with nothing left to do. -/
theorem resetNoMore_not_maintained :
    ¬ MaintenanceEnds fixedCalendar (fun _ => some resetNoMore) 1700006400 (madeEachDay 300) := by
  rintro ⟨batches, s', hrun, -⟩
  rw [resetNoMore_endless batches] at hrun
  cases hrun

end SubscriptionStore

end NewApi

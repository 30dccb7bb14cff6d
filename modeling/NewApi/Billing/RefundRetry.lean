import NewApi.Billing.Model
import NewApi.Subscription.Charge

/-!
# Refunding a subscription with retries

A refund credits the subscription in one transaction and saves the record of the request in another, and
is attempted again when it fails. An attempt whose record is not saved has credited the subscription all
the same, and the next one does so again.
-/

namespace NewApi.Billing

open SubscriptionStore

/-- The record of a request is stored as refunded. -/
def IsRefunded (requestId : String) (s : SubscriptionStore) : Prop :=
  (s.records.get? requestId).map PreConsumeRecord.status = some .refunded

instance (requestId : String) (s : SubscriptionStore) : Decidable (IsRefunded requestId s) :=
  inferInstanceAs (Decidable (_ = _))

/-- What is credited back for a request in all: what its record pre-consumed, where it was refunded
before, and what the used amount has gone down by since. -/
def credited (record : PreConsumeRecord) (sub : UserSubscription) (s : SubscriptionStore) : Int :=
  (if record.status = .refunded then record.preConsumed else 0) +
    (sub.amountUsed - s.usedOf record.userSubscriptionId)

/-- Nothing is credited back or what the record pre-consumed, and the latter just when the record is
stored as refunded. -/
def RefundedOnce (requestId : String) (record : PreConsumeRecord) (sub : UserSubscription)
    (s : SubscriptionStore) : Prop :=
  (credited record sub s = 0 ∨ credited record sub s = record.preConsumed) ∧
    (credited record sub s = record.preConsumed ↔ IsRefunded requestId s)

instance (requestId : String) (record : PreConsumeRecord) (sub : UserSubscription)
    (s : SubscriptionStore) : Decidable (RefundedOnce requestId record sub s) :=
  inferInstanceAs (Decidable (_ ∧ _))

/-- Every attempt is refused before it changes anything. -/
def Refuses (requestId : String) (record : PreConsumeRecord) (sub : UserSubscription) : Prop :=
  GoString.trimSpace requestId = "" ∨ record.userSubscriptionId = 0 ∨
    sub.amountTotal > 0 ∧ sub.amountUsed - record.preConsumed > sub.amountTotal

/-- The attempt credits the subscription, where nothing else keeps it from doing so. -/
def Credits (env : BillingEnv) (attempt : Nat) : Prop := env.fails (.refundDelta attempt) = false

/-- The attempt saves the record as well. -/
def Completes (env : BillingEnv) (attempt : Nat) : Prop :=
  Credits env attempt ∧ env.fails (.refundRecord attempt) = false

instance (env : BillingEnv) : DecidablePred (Credits env) := fun _ =>
  inferInstanceAs (Decidable (_ = _))

instance (env : BillingEnv) : DecidablePred (Completes env) := fun _ =>
  inferInstanceAs (Decidable (_ ∧ _))

/-- The attempts before the first that saves the record. -/
def lost (env : BillingEnv) (attempts : List Nat) : List Nat :=
  attempts.takeWhile fun attempt => ¬ Completes env attempt

/-- How often the subscription is credited. -/
def creditCount (env : BillingEnv) (attempts : List Nat) : Nat :=
  (lost env attempts).countP (Credits env ·) + if ∃ a ∈ attempts, Completes env a then 1 else 0

section
variable {env : BillingEnv} {requestId : String} {record : PreConsumeRecord} {a : Nat}
  {attempts : List Nat} {sub : UserSubscription} {s : SubscriptionStore}

/-! ## One attempt -/

/-- A record that is not refunded yet, and a subscription that takes back what it pre-consumed. -/
structure IsOpen (requestId : String) (record : PreConsumeRecord) (sub : UserSubscription)
    (s : SubscriptionStore) : Prop where
  requestId_ne : GoString.trimSpace requestId ≠ ""
  found : s.records.get? requestId = some record
  status : record.status ≠ .refunded
  pos : 0 < record.preConsumed
  id_ne : record.userSubscriptionId ≠ 0
  charged : s.subs.get? record.userSubscriptionId = some sub
  fits : ¬ (sub.amountTotal > 0 ∧
    max 0 (sub.amountUsed + -record.preConsumed) > sub.amountTotal)

/-- The store once what a record pre-consumed is credited back. -/
def creditedBack (record : PreConsumeRecord) (s : SubscriptionStore) : SubscriptionStore :=
  { s with
    subs := s.subs.modify record.userSubscriptionId (addUsed (-record.preConsumed))
      (addUsed_id (-record.preConsumed)) }

theorem IsOpen.creditBack (h : IsOpen requestId record sub s) (deltaFails : Bool) :
    s.creditBack deltaFails requestId =
      if deltaFails then .error (some .database) else .ok (creditedBack record s) := by
  unfold SubscriptionStore.creditBack
  rw [if_neg h.requestId_ne, h.found]
  dsimp only
  rw [if_neg h.status, if_neg (Int.not_le.2 h.pos)]
  unfold postConsumeUserSubscriptionDelta
  rw [if_neg h.id_ne, if_neg (Int.neg_ne_zero.2 (Int.ne_of_gt h.pos))]
  cases deltaFails with
  | true => rfl
  | false =>
    rw [if_neg Bool.false_ne_true, h.charged, if_neg Bool.false_ne_true]
    dsimp only
    rw [if_neg h.fits]
    rfl

theorem IsOpen.credited (h : IsOpen requestId record sub s) :
    IsOpen requestId record (addUsed (-record.preConsumed) sub) (creditedBack record s) where
  requestId_ne := h.requestId_ne
  found := h.found
  status := h.status
  pos := h.pos
  id_ne := h.id_ne
  charged := by
    unfold creditedBack
    rw [Table.get?_modify_self, h.charged]
    rfl
  fits := by
    have hfits := h.fits
    have hpos := h.pos
    unfold addUsed
    dsimp only
    omega

theorem IsOpen.retry_of_not_credits (h : IsOpen requestId record sub s) (ha : ¬ Credits env a) :
    FundingSource.refundWithRetry env requestId (a :: attempts) s =
      FundingSource.refundWithRetry env requestId attempts s := by
  rw [FundingSource.refundWithRetry, refund_eq, h.creditBack, Bool.of_not_eq_false ha]
  rfl

theorem IsOpen.retry_of_not_completes (h : IsOpen requestId record sub s) (ha : Credits env a)
    (hsave : ¬ Completes env a) :
    FundingSource.refundWithRetry env requestId (a :: attempts) s =
      FundingSource.refundWithRetry env requestId attempts (creditedBack record s) := by
  have hfails : env.fails (.refundRecord a) = true := Bool.of_not_eq_false fun hf => hsave ⟨ha, hf⟩
  rw [FundingSource.refundWithRetry, refund_eq, h.creditBack, ha, hfails]
  rfl

theorem IsOpen.retry_of_completes (h : IsOpen requestId record sub s) (ha : Completes env a) :
    FundingSource.refundWithRetry env requestId (a :: attempts) s =
      (creditedBack record s).markRefunded requestId := by
  rw [FundingSource.refundWithRetry, refund_eq, h.creditBack, ha.1, ha.2]
  rfl

/-! ## All attempts -/

theorem creditCount_cons_of_not_credits (ha : ¬ Credits env a) :
    creditCount env (a :: attempts) = creditCount env attempts := by
  have hc : ¬ Completes env a := fun hc => ha hc.1
  simp [creditCount, lost, ha, hc]

theorem creditCount_cons_of_not_completes (ha : Credits env a) (hc : ¬ Completes env a) :
    creditCount env (a :: attempts) = creditCount env attempts + 1 := by
  simp [creditCount, lost, ha, hc]
  omega

theorem creditCount_cons_of_completes (hc : Completes env a) :
    creditCount env (a :: attempts) = 1 := by
  simp [creditCount, lost, hc]

theorem used_credited (hpos : 0 < record.preConsumed) (n : Nat) :
    max 0 ((addUsed (-record.preConsumed) sub).amountUsed - n * record.preConsumed) =
      max 0 (sub.amountUsed - (n + 1 : Nat) * record.preConsumed) := by
  have hmul : 0 ≤ (n : Int) * record.preConsumed :=
    Int.mul_nonneg (Int.natCast_nonneg n) (Int.le_of_lt hpos)
  have hsucc : ((n + 1 : Nat) : Int) * record.preConsumed =
      n * record.preConsumed + record.preConsumed := by
    push_cast
    rw [Int.add_mul, Int.one_mul]
  rw [hsucc]
  unfold addUsed
  dsimp only
  omega

/-- The attempts credit an open record as often as is counted, and leave it refunded just when one of
them completes. -/
theorem IsOpen.refundWithRetry (h : IsOpen requestId record sub s) (hused : 0 ≤ sub.amountUsed) :
    (FundingSource.refundWithRetry env requestId attempts s).usedOf record.userSubscriptionId =
        max 0 (sub.amountUsed - creditCount env attempts * record.preConsumed) ∧
      (IsRefunded requestId (FundingSource.refundWithRetry env requestId attempts s) ↔
        ∃ a ∈ attempts, Completes env a) := by
  induction attempts generalizing s sub with
  | nil =>
    refine ⟨?_, iff_of_false ?_ nofun⟩
    · show s.usedOf record.userSubscriptionId = max 0 (sub.amountUsed - 0 * record.preConsumed)
      rw [usedOf, h.charged, Int.zero_mul, Int.sub_zero, Int.max_eq_right hused]
      rfl
    · show ¬ IsRefunded requestId s
      rw [IsRefunded, h.found]
      exact fun he => h.status (Option.some.inj he)
  | cons a attempts ih =>
    by_cases ha : Credits env a
    · by_cases hc : Completes env a
      · rw [h.retry_of_completes hc, creditCount_cons_of_completes hc]
        refine ⟨?_, iff_of_true ?_ ⟨a, List.mem_cons_self, hc⟩⟩
        · show (creditedBack record s).usedOf record.userSubscriptionId = _
          rw [usedOf, h.credited.charged, Int.natCast_one, Int.one_mul, Int.sub_eq_add_neg]
          rfl
        · rw [IsRefunded, get?_markRefunded, if_pos rfl]
          show ((s.records.get? requestId).map _).map _ = _
          rw [h.found]
          rfl
      · rw [h.retry_of_not_completes ha hc, creditCount_cons_of_not_completes ha hc]
        obtain ⟨hfinal, hiff⟩ := ih h.credited (Int.le_max_left ..)
        rw [hfinal, hiff]
        refine ⟨used_credited h.pos _, ?_⟩
        simp [hc]
    · have hc : ¬ Completes env a := fun hc => ha hc.1
      rw [h.retry_of_not_credits ha, creditCount_cons_of_not_credits ha]
      obtain ⟨hfinal, hiff⟩ := ih h hused
      refine ⟨hfinal, hiff.trans ?_⟩
      simp [hc]

theorem refundWithRetry_eq_self
    (h : ∀ deltaFails saveFails, (s.refundSubscriptionPreConsume deltaFails saveFails requestId).2 = s) :
    FundingSource.refundWithRetry env requestId attempts s = s := by
  induction attempts with
  | nil => rfl
  | cons a attempts ih =>
    have ha := h (env.fails (.refundDelta a)) (env.fails (.refundRecord a))
    unfold FundingSource.refundWithRetry
    split
    next s' hs =>
      rw [hs] at ha
      exact ha
    next e s' hs =>
      rw [hs] at ha
      dsimp only at ha
      rw [ha]
      exact ih

theorem refund_of_refuses (hrecord : s.records.get? requestId = some record)
    (hsub : s.subs.get? record.userSubscriptionId = some sub) (hpos : 0 < record.preConsumed)
    (hused : record.preConsumed ≤ sub.amountUsed) (h : Refuses requestId record sub)
    (deltaFails saveFails : Bool) :
    (s.refundSubscriptionPreConsume deltaFails saveFails requestId).2 = s := by
  rw [refund_eq]
  cases hback : s.creditBack deltaFails requestId with
  | error e => rfl
  | ok s₁ =>
    exfalso
    unfold SubscriptionStore.creditBack at hback
    rw [hrecord] at hback
    dsimp only at hback
    split at hback
    · cases hback
    next htrim =>
    split at hback
    · cases hback
    rw [if_neg (Int.not_le.2 hpos)] at hback
    split at hback
    · cases hback
    next s₂ hpost =>
    rcases h with hempty | hzero | ⟨htotal, hexceeds⟩
    · exact htrim hempty
    · rw [hzero] at hpost
      cases hpost
    · rcases postConsume_spec hpost with ⟨hzero, -⟩ | ⟨-, sub', hat⟩
      · omega
      · have hfound := hat.found
        rw [hsub] at hfound
        cases hfound
        have hfits := hat.fits htotal
        omega

theorem credit_arith {used pre : Int} {n : Nat} (hpos : 0 < pre) (hused : pre ≤ used) :
    (used - max 0 (used - n * pre) = 0 ↔ n = 0) ∧
      (used - max 0 (used - n * pre) = pre ↔ n = 1 ∨ 1 ≤ n ∧ used = pre) := by
  rcases n with _ | _ | n
  · rw [Nat.cast_zero, Int.zero_mul]
    omega
  · rw [Nat.zero_add, Nat.cast_one, Int.one_mul]
    omega
  · have hmul : 0 ≤ (n : Int) * pre := Int.mul_nonneg (Int.natCast_nonneg n) (Int.le_of_lt hpos)
    have htwo : ((n + 1 + 1 : Nat) : Int) * pre = n * pre + 2 * pre := by
      push_cast
      ring
    rw [htwo]
    omega

/-- A request is credited back once, however its refund is retried, just when it is refunded before or
refused, or no attempt before the first that saves the record credits the subscription, or one credit
leaves the subscription with nothing used and some attempt saves the record. -/
theorem refunded_once_iff (env : BillingEnv) (attempts : List Nat)
    (hrecord : s.records.get? requestId = some record)
    (hsub : s.subs.get? record.userSubscriptionId = some sub) (hpos : 0 < record.preConsumed)
    (hused : record.preConsumed ≤ sub.amountUsed) :
    RefundedOnce requestId record sub (FundingSource.refundWithRetry env requestId attempts s) ↔
      record.status = .refunded ∨ Refuses requestId record sub ∨
        (∀ a ∈ lost env attempts, ¬ Credits env a) ∨
        sub.amountUsed = record.preConsumed ∧ ∃ a ∈ attempts, Completes env a := by
  have hunchanged : FundingSource.refundWithRetry env requestId attempts s = s →
      RefundedOnce requestId record sub (FundingSource.refundWithRetry env requestId attempts s) := by
    intro hself
    have husedOf : s.usedOf record.userSubscriptionId = sub.amountUsed := by
      rw [usedOf, hsub]
      rfl
    have hstored : IsRefunded requestId s ↔ record.status = .refunded := by
      rw [IsRefunded, hrecord]
      exact Option.some_inj
    rw [hself, RefundedOnce, hstored, credited, husedOf, Int.sub_self, Int.add_zero]
    split
    next h => exact ⟨.inr rfl, iff_of_true rfl h⟩
    next h => exact ⟨.inl rfl, iff_of_false (Int.ne_of_lt hpos) h⟩
  by_cases hstatus : record.status = .refunded
  · refine iff_of_true (hunchanged ?_) (.inl hstatus)
    refine refundWithRetry_eq_self fun deltaFails saveFails => ?_
    rcases refund_spec (Prod.eta (s.refundSubscriptionPreConsume deltaFails saveFails requestId)).symm
      with ⟨hs, -⟩ | ⟨record', _, hrecord', hopen, -⟩
    · exact hs
    · rw [hrecord] at hrecord'
      cases hrecord'
      exact absurd hstatus hopen
  by_cases hrefuses : Refuses requestId record sub
  · refine iff_of_true (hunchanged ?_) (.inr (.inl hrefuses))
    exact refundWithRetry_eq_self (refund_of_refuses hrecord hsub hpos hused hrefuses)
  have hopen : IsOpen requestId record sub s := by
    unfold Refuses at hrefuses
    simp only [not_or] at hrefuses
    exact ⟨hrefuses.1, hrecord, hstatus, hpos, hrefuses.2.1, hsub, by omega⟩
  obtain ⟨hfinal, hrefunded⟩ :
      (FundingSource.refundWithRetry env requestId attempts s).usedOf record.userSubscriptionId = _ ∧ _ :=
    hopen.refundWithRetry (Int.le_trans (Int.le_of_lt hpos) hused)
  obtain ⟨hzero, hone⟩ := credit_arith (n := creditCount env attempts) hpos hused
  have hlost : (lost env attempts).countP (Credits env ·) = 0 ↔
      ∀ a ∈ lost env attempts, ¬ Credits env a := by
    rw [List.countP_eq_zero]
    simp only [decide_eq_true_eq]
  rw [RefundedOnce, credited, if_neg hstatus, Int.zero_add, hfinal, hrefunded, hzero, hone, ← hlost,
    creditCount]
  simp only [hstatus, hrefuses, false_or]
  split
  next hc =>
    simp only [hc, iff_true, and_true]
    omega
  next hc =>
    simp only [hc, iff_false, and_false, or_false]
    omega

end

/-! ## An attempt that loses the record -/

/-- The record is not saved by the first attempt. -/
def saveFailsOnce : BillingEnv := { fails := fun stmt => stmt = .refundRecord 0 }

/-- A request has pre-consumed 40 of the 100 that are used of a subscription. -/
def fortyOfHundred : SubscriptionStore where
  users := .empty
  subs := Table.insertNew .empty
    { id := 1, userId := 1, planId := 1, amountTotal := 200, amountUsed := 100, startTime := 0,
      endTime := 1000, status := .active, source := "order", lastResetTime := 0, nextResetTime := 0,
      upgradeGroup := "", prevUserGroup := "" }
  records := Table.insertNew .empty ⟨"a", 1, 1, 40, .consumed⟩

theorem fortyOfHundred_refunded_once_iff :
    ∃ sub, fortyOfHundred.subs.get? 1 = some sub ∧
      (RefundedOnce "a" ⟨"a", 1, 1, 40, .consumed⟩ sub
          (FundingSource.refundWithRetry saveFailsOnce "a" [0, 1, 2] fortyOfHundred) ↔
        RecordStatus.consumed = .refunded ∨ Refuses "a" ⟨"a", 1, 1, 40, .consumed⟩ sub ∨
          (∀ a ∈ lost saveFailsOnce [0, 1, 2], ¬ Credits saveFailsOnce a) ∨
          sub.amountUsed = 40 ∧ ∃ a ∈ [0, 1, 2], Completes saveFailsOnce a) :=
  ⟨_, rfl, refunded_once_iff saveFailsOnce [0, 1, 2] rfl rfl (by decide) (by decide)⟩

/-- Two attempts credit the 40 each. -/
theorem fortyOfHundred_refunded_twice :
    ∃ sub, fortyOfHundred.subs.get? 1 = some sub ∧
      ¬ RefundedOnce "a" ⟨"a", 1, 1, 40, .consumed⟩ sub
        (FundingSource.refundWithRetry saveFailsOnce "a" [0, 1, 2] fortyOfHundred) :=
  ⟨_, rfl, by decide⟩

end NewApi.Billing

import NewApi.TopUp.Manual

/-!
# An Epay notification and its repeats

The provider repeats a notification, and each time `EpayNotify` reads the order, marks it, and then credits
its user, in two statements that no transaction joins. Each of them may fail, and the process may stop before
it; the later repeats find the order marked and do nothing.
-/

namespace NewApi.TopUp

/-- A notification of success: how the order was paid, and which of the three statements go through. One that
fails, or before which the process stops, does not. -/
structure Attempt where
  payType : String := ""
  reads : Bool := true
  saves : Bool := true
  credits : Bool := true

/-- The statements that fail after the order has been read. -/
def Attempt.io (a : Attempt) : Io where
  save := if a.saves then none else some "stopped"
  update := if a.credits then none else some "stopped"

/-- The attempt marks a pending order. -/
def Attempt.Marks (a : Attempt) : Prop := a.reads ∧ a.saves

instance : DecidablePred Attempt.Marks := fun _ => inferInstanceAs (Decidable (_ ∧ _))

section
variable (quotaPerUnit : ℚ) (tradeNo : String)

/-- `EpayNotify`, as far as it gets. -/
def attempt (s : Store) (a : Attempt) : Store :=
  if a.reads then epayNotify quotaPerUnit a.io tradeNo a.payType s else s

/-- A notification and its repeats. -/
def attempts (s : Store) (l : List Attempt) : Store := l.foldl (attempt quotaPerUnit tradeNo) s

end

/-- The quota of the order's user is raised by the order's quota where the order is done, and is as it was where
it is not. -/
def CreditedWithStatus (quotaPerUnit : ℚ) (o : TopUp) (s s' : Store) : Prop :=
  if (s'.topUps.get? o.tradeNo).map TopUp.status = some .success then
    ∃ q, s.users.quotaOf o.userId = some q ∧
      s'.users.quotaOf o.userId = some (q + amountCredit quotaPerUnit o)
  else s'.users.quotaOf o.userId = s.users.quotaOf o.userId

/-- The attempt credits the order's user, where it gets to that: the quota is not negative, the user is there, and
the statement goes through if there is something to add. -/
def Credits (quotaPerUnit : ℚ) (o : TopUp) (s : Store) (a : Attempt) : Prop :=
  0 ≤ amountCredit quotaPerUnit o ∧ (s.users.quotaOf o.userId).isSome ∧
    (a.credits ∨ amountCredit quotaPerUnit o = 0)

instance (quotaPerUnit : ℚ) (o : TopUp) (s : Store) : DecidablePred (Credits quotaPerUnit o s) := fun _ =>
  inferInstanceAs (Decidable (_ ∧ _))

section
variable {quotaPerUnit : ℚ} {o : TopUp} {s : Store} {a : Attempt} {l : List Attempt}

theorem attempt_of_not_pending (ho : s.topUps.get? o.tradeNo = some o) (hp : o.status ≠ .pending) :
    attempt quotaPerUnit o.tradeNo s a = s := by
  unfold attempt epayNotify
  rw [ho]
  dsimp only
  rw [if_pos hp, ite_self, ite_self]

theorem attempts_of_not_pending (ho : s.topUps.get? o.tradeNo = some o) (hp : o.status ≠ .pending) :
    attempts quotaPerUnit o.tradeNo s l = s := by
  induction l with
  | nil => rfl
  | cons a l ih =>
    unfold attempts
    rw [List.foldl_cons, attempt_of_not_pending ho hp]
    exact ih

theorem attempt_of_not_marks (h : ¬ a.Marks) : attempt quotaPerUnit o.tradeNo s a = s := by
  unfold attempt
  split
  next hreads =>
    have hsave : a.io.save = some "stopped" := if_neg fun hsaves => h ⟨hreads, hsaves⟩
    unfold epayNotify
    rw [hsave]
    split
    · rfl
    split
    · rfl
    split
    · rfl
    · rfl
  · rfl

variable (ho : s.topUps.get? o.tradeNo = some o) (hp : o.status = .pending)
  (hprov : o.paymentProvider = .epay)
include ho hp hprov

theorem attempt_of_marks (h : a.Marks) :
    ∃ o', (attempt quotaPerUnit o.tradeNo s a).topUps.get? o.tradeNo = some o' ∧ o'.tradeNo = o.tradeNo ∧
      o'.status = .success ∧ (attempt quotaPerUnit o.tradeNo s a).users.quotaOf o.userId =
        if 0 ≤ amountCredit quotaPerUnit o ∧ a.credits then
          (s.users.quotaOf o.userId).map (· + amountCredit quotaPerUnit o)
        else s.users.quotaOf o.userId := by
  have hsave : a.io.save = none := if_pos h.2
  have hkey : ∀ {users : Users},
      (Store.mk (s.topUps.modify o.tradeNo
        (fun o => { o with paymentMethod := a.payType, status := .success }) fun _ => rfl) users).topUps.get?
          o.tradeNo = some { o with paymentMethod := a.payType, status := .success } := by
    intro users
    rw [Table.get?_modify_self, ho, Option.map_some]
  unfold attempt epayNotify
  rw [if_pos h.1, ho, hsave]
  dsimp only
  rw [if_neg (not_not.2 hprov), if_neg (not_not.2 hp)]
  split
  next hneg =>
    refine ⟨_, hkey, rfl, rfl, ?_⟩
    rw [if_neg fun hand => Int.not_le.2 hneg hand.1]
  next hnonneg =>
    have hle := Int.not_lt.1 hnonneg
    by_cases hcredits : a.credits = true
    · have hupdate : a.io.update = none := if_pos hcredits
      rw [hupdate]
      refine ⟨_, hkey, rfl, rfl, ?_⟩
      rw [if_pos ⟨hle, hcredits⟩, Users.quotaOf_addQuota, if_pos rfl]
    · have hupdate : a.io.update = some "stopped" := if_neg hcredits
      rw [hupdate]
      refine ⟨_, hkey, rfl, rfl, ?_⟩
      rw [if_neg fun hand => hcredits hand.2]

/-- In the end, status and credit of a pending Epay order go together exactly where the first attempt that marks
the order, if there is one, also credits its user. -/
theorem attempts_creditedWithStatus_iff :
    CreditedWithStatus quotaPerUnit o s (attempts quotaPerUnit o.tradeNo s l) ↔
      ∀ a ∈ l.find? fun a => a.Marks, Credits quotaPerUnit o s a := by
  induction l with
  | nil =>
    have hnot : (s.topUps.get? o.tradeNo).map TopUp.status ≠ some .success := by
      rw [ho, Option.map_some, hp]
      exact fun h => by cases h
    refine iff_of_true ?_ fun a ha => by cases ha
    unfold CreditedWithStatus attempts
    rw [List.foldl_nil, if_neg hnot]
  | cons a l ih =>
    have hcons : attempts quotaPerUnit o.tradeNo s (a :: l) =
        attempts quotaPerUnit o.tradeNo (attempt quotaPerUnit o.tradeNo s a) l := rfl
    by_cases hmarks : a.Marks
    · obtain ⟨o', ho', hkey, hsuccess, hquota⟩ := @attempt_of_marks quotaPerUnit _ _ _ ho hp hprov hmarks
      have hfind : (a :: l).find? (fun a => a.Marks) = some a :=
        List.find?_cons_of_pos (decide_eq_true hmarks)
      have hstop : attempts quotaPerUnit o.tradeNo s (a :: l) = attempt quotaPerUnit o.tradeNo s a := by
        rw [hcons]
        rw [← hkey] at ho' ⊢
        exact attempts_of_not_pending ho' fun h => by rw [hsuccess] at h; cases h
      rw [hfind, hstop]
      unfold CreditedWithStatus Credits
      rw [ho', Option.map_some, hsuccess, if_pos rfl, hquota]
      simp only [Option.mem_def, Option.some.injEq, forall_eq']
      cases hq : s.users.quotaOf o.userId with
      | none =>
        refine iff_of_false ?_ fun h => by cases h.2.1
        rintro ⟨q, hsome, -⟩
        cases hsome
      | some q =>
        simp only [Option.some.injEq, Option.map_some, exists_eq_left', Option.isSome_some, true_and]
        split
        next hcond => exact iff_of_true rfl ⟨hcond.1, .inl hcond.2⟩
        next hcond =>
          rw [Option.some.injEq]
          constructor
          · intro heq
            have hzero : amountCredit quotaPerUnit o = 0 := by omega
            exact ⟨hzero.ge, .inr hzero⟩
          · rintro ⟨hle, hcredits | hzero⟩
            · exact absurd ⟨hle, hcredits⟩ hcond
            · rw [hzero, Int.add_zero]
    · have hfind : (a :: l).find? (fun a => a.Marks) = l.find? fun a => a.Marks :=
        List.find?_cons_of_neg (by simpa using hmarks)
      rw [hcons, attempt_of_not_marks hmarks, hfind]
      exact ih

end

/-- A user without quota, and their order of ten units. -/
def epayStore : Store where
  topUps := ⟨[{ tradeNo := "USR1NO1", userId := 1, amount := 10, money := 73, paymentMethod := "alipay"
                paymentProvider := .epay, status := .pending }], by decide⟩
  users := ⟨[{ id := 1, quota := 0 }, { id := 2, quota := 0 }], by decide⟩

def epayOrder : TopUp :=
  { tradeNo := "USR1NO1", userId := 1, amount := 10, money := 73, paymentMethod := "alipay"
    paymentProvider := .epay, status := .pending }

theorem attempts_creditedWithStatus_iff_twice :
    CreditedWithStatus 500000 epayOrder epayStore (attempts 500000 "USR1NO1" epayStore [{}, {}]) ↔
      ∀ a ∈ [({} : Attempt), {}].find? fun a => a.Marks, Credits 500000 epayOrder epayStore a :=
  attempts_creditedWithStatus_iff (o := epayOrder) (by decide) rfl rfl

/-- The credit of the first notification fails, and the repeat does not make up for it. -/
theorem not_creditedWithStatus :
    ¬ CreditedWithStatus 500000 epayOrder epayStore
      (attempts 500000 "USR1NO1" epayStore [{ credits := false }, {}]) := by
  have hsuccess : ((attempts 500000 "USR1NO1" epayStore [{ credits := false }, {}]).topUps.get?
      epayOrder.tradeNo).map TopUp.status = some .success := by decide +kernel
  have hquota : (attempts 500000 "USR1NO1" epayStore [{ credits := false }, {}]).users.quotaOf 1 = some 0 := by
    decide +kernel
  have hcredit : amountCredit 500000 epayOrder ≠ 0 := by decide +kernel
  unfold CreditedWithStatus
  rw [if_pos hsuccess]
  rintro ⟨q, hq, hq'⟩
  have hzero : q = 0 := (Option.some.inj hq).symm
  have hsum := Option.some.inj (hquota.symm.trans hq')
  exact hcredit (by omega)

end NewApi.TopUp

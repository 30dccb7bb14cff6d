import NewApi.Lib.Run
import NewApi.TopUp.Model

/-!
# Crediting top-up orders

The completing functions of `TopUp.Model` as one system whose steps are calls, in any order, with
any trade numbers and with any statement failing. What a call can do is said once (`step_cases`):
nothing, or move the pending order it names, and then, unless it is a status update, credit that
order's user. From it follow, for one call, what the call keeps (`step_kept`) and, for a run, that no
order is credited twice (`creditCount_le_one`).
-/

namespace NewApi.TopUp

open Run

/-- A call of one of the functions that change an order's status. -/
inductive Call
  | recharge (referenceId customerId : String)
  | rechargeCreem (referenceId customerEmail : String)
  | rechargeWaffo (tradeNo : String)
  | rechargeWaffoPancake (tradeNo : String)
  | manualCompleteTopUp (tradeNo : String)
  | updatePendingTopUpStatus (tradeNo : String) (expected : Option PaymentProvider)
      (target : TopUpStatus)
deriving DecidableEq

namespace Call

/-- The order a call names. -/
def tradeNo : Call → String
  | recharge t _ | rechargeCreem t _ | rechargeWaffo t | rechargeWaffoPancake t
  | manualCompleteTopUp t | updatePendingTopUpStatus t _ _ => t

/-- The payment provider a call arrives through. An administrator's completion arrives through
none. -/
def provider : Call → Option PaymentProvider
  | recharge .. => some .stripe
  | rechargeCreem .. => some .creem
  | rechargeWaffo _ => some .waffo
  | rechargeWaffoPancake _ => some .waffoPancake
  | manualCompleteTopUp _ => none
  | updatePendingTopUpStatus _ expected _ => expected

/-- What a call makes of the quota of the user whose order it completes; a status update credits
nothing. -/
def credit (h : Host) (quotaPerUnit : ℚ) (topUp : TopUp) : Call → Option (Int → Option Int)
  | recharge .. => some fun q => h.addFloat q (h.fmul topUp.money quotaPerUnit)
  | rechargeCreem .. => some fun q => some (q + topUp.amount)
  | rechargeWaffo _ | rechargeWaffoPancake _ =>
    some fun q => some (q + amountCredit quotaPerUnit topUp)
  | manualCompleteTopUp _ => some fun q => some (q + manualCredit quotaPerUnit topUp)
  | updatePendingTopUpStatus .. => none

end Call

/-- A call with its surroundings: the clock and the statements that fail. -/
structure Request where
  call : Call
  now : Int := 0
  io : Io := {}

section
variable (h : Host) (quotaPerUnit : ℚ)

/-- What a call returns: its error, or the store it commits. -/
def exec (r : Request) (s : Store) : Except String Store :=
  match r.call with
  | .recharge t c => recharge h quotaPerUnit r.io r.now t c s
  | .rechargeCreem t e => rechargeCreem r.io r.now t e s
  | .rechargeWaffo t => rechargeWaffo quotaPerUnit r.io r.now t s
  | .rechargeWaffoPancake t => rechargeWaffoPancake quotaPerUnit r.io r.now t s
  | .manualCompleteTopUp t => manualCompleteTopUp quotaPerUnit r.io r.now t s
  | .updatePendingTopUpStatus t e target => updatePendingTopUpStatus r.io t e target s

/-- The store after a call: an error rolls the transaction back. -/
def step (s : Store) (r : Request) : Store :=
  match exec h quotaPerUnit r s with
  | .ok s' => s'
  | .error _ => s

/-- A call moved the pending order `o` to success. -/
def Moves (s : Store) (r : Request) (s' : Store) (o : TopUp) : Prop :=
  s.topUps.get? r.call.tradeNo = some o ∧ o.status = .pending ∧
    (s'.topUps.get? r.call.tradeNo).map TopUp.status = some .success

/-- What one call keeps. -/
structure Kept (s : Store) (r : Request) (s' : Store) : Prop where
  /-- An order that is not pending is not changed. -/
  terminal : ∀ o ∈ s.topUps, o.status ≠ .pending → o ∈ s'.topUps
  /-- A call through another provider than the order's own changes nothing. -/
  foreign : ∀ o, s.topUps.get? r.call.tradeNo = some o →
    ∀ p, r.call.provider = some p → p ≠ o.paymentProvider → s' = s
  /-- The users change only in a completing call that moves an order. -/
  moves : s'.users ≠ s.users → ∃ o, Moves s r s' o ∧ (r.call.credit h quotaPerUnit o).isSome
  /-- A completing call that moves an order credits its user, and nobody else, with just what the
  function computes for that order. -/
  credits : ∀ o, Moves s r s' o → ∀ credit, r.call.credit h quotaPerUnit o = some credit →
    ∀ id, s'.users.quotaOf id =
      if id = o.userId then (s.users.quotaOf id).bind credit else s.users.quotaOf id

/-- The number of calls of a run under trade number `t` that change some user's quota. -/
def creditCount (t : String) : Store → List Request → Nat
  | _, [] => 0
  | s, r :: l =>
    let s' := step h quotaPerUnit s r
    (if r.call.tradeNo = t ∧ s'.users.rows.map User.quota ≠ s.users.rows.map User.quota
      then 1 else 0) + creditCount t s' l

end

/-! ## What a call can do -/

theorem Store.complete_ok {s s' : Store} {io : Io} {now : Int} {o : TopUp} {upd : UserUpdates}
    (h : s.complete io now o upd = .ok s') :
    s'.topUps = s.topUps.modify o.tradeNo (completed now) (completed_tradeNo now) ∧
      ∀ id, s'.users.quotaOf id =
        if id = o.userId then (s.users.quotaOf id).bind upd.quota else s.users.quotaOf id := by
  unfold Store.complete at h
  cases hsave : io.save with
  | some e => rw [hsave] at h; cases h
  | none =>
    cases hupd : io.update with
    | some e => rw [hsave, hupd] at h; cases h
    | none =>
      rw [hsave, hupd] at h
      cases hu : s.users.get? o.userId with
      | none =>
        rw [hu] at h
        cases h
        refine ⟨rfl, fun id => ?_⟩
        split
        next hid => rw [hid, Users.quotaOf, hu]; rfl
        next => rfl
      | some u =>
        rw [hu] at h
        cases hq : upd.quota u.quota with
        | none => simp only [hq] at h; cases h
        | some q =>
          simp only [hq] at h
          cases h
          refine ⟨rfl, fun id => ?_⟩
          simp only [Users.quotaOf, Table.get?_modify]
          split
          next hid => simp [hid, hu, hq]
          next => rfl

theorem masked_ok {x : Except String Store} {s' : Store} (hx : masked x = .ok s') : x = .ok s' := by
  cases x with
  | error e => cases hx
  | ok s => exact hx

section
variable {h : Host} {quotaPerUnit : ℚ} {io : Io} {now : Int} {t : String} {s s' : Store}

theorem recharge_ok {c : String} (hx : recharge h quotaPerUnit io now t c s = .ok s') :
    ∃ o, s.topUps.get? t = some o ∧ o.paymentProvider = .stripe ∧ o.status = .pending ∧
      s.complete io now o
        { quota := fun q => h.addFloat q (h.fmul o.money quotaPerUnit)
          stripeCustomer := some c } = .ok s' := by
  unfold recharge at hx
  split at hx
  · cases hx
  have hx := masked_ok hx
  cases ho : s.topUps.get? t with
  | none => rw [ho] at hx; cases hx
  | some o =>
    rw [ho] at hx
    dsimp only at hx
    split at hx
    · cases hx
    next hprov =>
      split at hx
      · cases hx
      next hp => exact ⟨o, rfl, not_not.1 hprov, not_not.1 hp, hx⟩

theorem rechargeCreem_ok {e : String} (hx : rechargeCreem io now t e s = .ok s') :
    ∃ o upd, s.topUps.get? t = some o ∧ o.paymentProvider = .creem ∧ o.status = .pending ∧
      upd.quota = (fun q => some (q + o.amount)) ∧ s.complete io now o upd = .ok s' := by
  unfold rechargeCreem at hx
  split at hx
  · cases hx
  have hx := masked_ok hx
  cases ho : s.topUps.get? t with
  | none => rw [ho] at hx; cases hx
  | some o =>
    rw [ho] at hx
    dsimp only at hx
    split at hx
    · cases hx
    next hprov =>
      split at hx
      · cases hx
      next hp =>
        split at hx
        · exact ⟨o, _, rfl, not_not.1 hprov, not_not.1 hp, rfl, hx⟩
        · cases hu : s.users.get? o.userId with
          | none => rw [hu] at hx; cases hx
          | some u =>
            rw [hu] at hx
            exact ⟨o, _, rfl, not_not.1 hprov, not_not.1 hp, rfl, hx⟩

/-- A Waffo notification that commits found the order done, or completes a pending order of its
provider. -/
theorem rechargePriced_ok {p : PaymentProvider}
    (hx : rechargePriced quotaPerUnit io now p t s = .ok s') :
    s' = s ∨ ∃ o, s.topUps.get? t = some o ∧ o.paymentProvider = p ∧ o.status = .pending ∧
      s.complete io now o { quota := fun q => some (q + amountCredit quotaPerUnit o) } =
        .ok s' := by
  unfold rechargePriced at hx
  split at hx
  · cases hx
  have hx := masked_ok hx
  cases ho : s.topUps.get? t with
  | none => rw [ho] at hx; cases hx
  | some o =>
    rw [ho] at hx
    dsimp only at hx
    split at hx
    · cases hx
    next hprov =>
      split at hx
      · cases hx; exact .inl rfl
      · split at hx
        · cases hx
        next hp =>
          split at hx
          · cases hx
          · exact .inr ⟨o, rfl, not_not.1 hprov, not_not.1 hp, hx⟩

theorem manualCompleteTopUp_ok (hx : manualCompleteTopUp quotaPerUnit io now t s = .ok s') :
    s' = s ∨ ∃ o, s.topUps.get? t = some o ∧ o.status = .pending ∧
      s.complete io now o { quota := fun q => some (q + manualCredit quotaPerUnit o) } =
        .ok s' := by
  unfold manualCompleteTopUp at hx
  split at hx
  · cases hx
  cases ho : s.topUps.get? t with
  | none => rw [ho] at hx; cases hx
  | some o =>
    rw [ho] at hx
    dsimp only at hx
    split at hx
    · cases hx; exact .inl rfl
    · split at hx
      · cases hx
      next hp =>
        split at hx
        · cases hx
        · exact .inr ⟨o, rfl, not_not.1 hp, hx⟩

theorem updatePendingTopUpStatus_ok {e : Option PaymentProvider} {target : TopUpStatus}
    (hx : updatePendingTopUpStatus io t e target s = .ok s') :
    ∃ o, s.topUps.get? t = some o ∧ (∀ p, e = some p → p = o.paymentProvider) ∧
      o.status = .pending ∧
      s' = { s with
        topUps := s.topUps.modify o.tradeNo (withStatus target) (withStatus_tradeNo target) } := by
  unfold updatePendingTopUpStatus at hx
  split at hx
  · cases hx
  cases ho : s.topUps.get? t with
  | none => rw [ho] at hx; cases hx
  | some o =>
    rw [ho] at hx
    dsimp only at hx
    split at hx
    · cases hx
    next hprov =>
      split at hx
      · cases hx
      next hp =>
        cases hsave : io.save with
        | some e => rw [hsave] at hx; cases hx
        | none =>
          rw [hsave] at hx
          cases hx
          refine ⟨o, rfl, ?_, not_not.1 hp, rfl⟩
          rintro p rfl
          simp only [Option.any_some, decide_eq_true_eq, not_not] at hprov
          exact hprov.symm

end

section
variable (h : Host) (quotaPerUnit : ℚ)

/-- What a call can do to the store. -/
inductive Outcome (s : Store) (r : Request) : Store → Prop
  /-- It refuses, fails, or finds the work done. -/
  | unchanged : Outcome s r s
  /-- It gives a pending order of its provider another status, crediting nothing. -/
  | updated {o : TopUp} (target : TopUpStatus) (ho : s.topUps.get? r.call.tradeNo = some o)
      (hp : o.status = .pending) (hprov : ∀ p, r.call.provider = some p → p = o.paymentProvider)
      (hcredit : r.call.credit h quotaPerUnit o = none) :
      Outcome s r { s with
        topUps := s.topUps.modify o.tradeNo (withStatus target) (withStatus_tradeNo target) }
  /-- It completes a pending order of its provider. -/
  | completed {o : TopUp} {upd : UserUpdates} {s' : Store}
      (ho : s.topUps.get? r.call.tradeNo = some o) (hp : o.status = .pending)
      (hprov : ∀ p, r.call.provider = some p → p = o.paymentProvider)
      (hcredit : r.call.credit h quotaPerUnit o = some upd.quota)
      (hs' : s.complete r.io r.now o upd = .ok s') : Outcome s r s'

theorem exec_outcome {s s' : Store} {r : Request} (hx : exec h quotaPerUnit r s = .ok s') :
    Outcome h quotaPerUnit s r s' := by
  obtain ⟨call, now, io⟩ := r
  cases call with
  | recharge t c =>
    obtain ⟨o, ho, hprov, hp, hs'⟩ := recharge_ok hx
    exact .completed ho hp (fun p e => by cases e; exact hprov.symm) rfl hs'
  | rechargeCreem t e =>
    obtain ⟨o, upd, ho, hprov, hp, hupd, hs'⟩ := rechargeCreem_ok hx
    exact .completed ho hp (fun p e => by cases e; exact hprov.symm) (by rw [hupd]; rfl) hs'
  | rechargeWaffo t =>
    rcases rechargePriced_ok hx with rfl | ⟨o, ho, hprov, hp, hs'⟩
    · exact .unchanged
    · exact .completed ho hp (fun p e => by cases e; exact hprov.symm) rfl hs'
  | rechargeWaffoPancake t =>
    rcases rechargePriced_ok hx with rfl | ⟨o, ho, hprov, hp, hs'⟩
    · exact .unchanged
    · exact .completed ho hp (fun p e => by cases e; exact hprov.symm) rfl hs'
  | manualCompleteTopUp t =>
    rcases manualCompleteTopUp_ok hx with rfl | ⟨o, ho, hp, hs'⟩
    · exact .unchanged
    · exact .completed ho hp (fun p e => by cases e) rfl hs'
  | updatePendingTopUpStatus t e target =>
    obtain ⟨o, ho, hprov, hp, rfl⟩ := updatePendingTopUpStatus_ok hx
    exact .updated target ho hp hprov rfl

theorem step_outcome (s : Store) (r : Request) :
    Outcome h quotaPerUnit s r (step h quotaPerUnit s r) := by
  cases hx : exec h quotaPerUnit r s with
  | ok s' => simpa only [step, hx] using exec_outcome h quotaPerUnit hx
  | error e => simpa only [step, hx] using .unchanged

/-! ## What a call keeps -/

/-- One call keeps an order that is not pending, touches nothing through a foreign provider, and
credits just the order it completes. -/
theorem step_kept (s : Store) (r : Request) :
    Kept h quotaPerUnit s r (step h quotaPerUnit s r) := by
  have hout := step_outcome h quotaPerUnit s r
  generalize step h quotaPerUnit s r = s' at hout ⊢
  cases hout with
  | unchanged =>
    refine ⟨fun o ho _ => ho, fun _ _ _ _ _ => rfl, fun hne => absurd rfl hne, ?_⟩
    -- an unchanged store still has the order pending
    rintro o ⟨ho, hp, hs⟩
    rw [ho, Option.map_some, hp] at hs
    cases hs
  | @updated o target ho hp hprov hcredit =>
    have hkey := Table.key_of_get? ho
    refine ⟨fun a ha hne => ?_, fun a ha p hpr hne => ?_, fun hne => absurd rfl hne, ?_⟩
    · show a ∈ s.topUps.modify o.tradeNo (withStatus target) (withStatus_tradeNo target)
      refine Table.mem_modify_of_ne ha fun hk => hne ?_
      rw [Table.eq_of_key_eq ha (Table.mem_of_get? ho) hk, hp]
    · rw [ho] at ha
      cases ha
      exact absurd (hprov p hpr) hne
    · rintro a ⟨ha, -, -⟩ credit hc
      rw [ho] at ha
      cases ha
      rw [hcredit] at hc
      cases hc
  | @completed o upd _ ho hp hprov hcredit hs' =>
    have hkey := Table.key_of_get? ho
    obtain ⟨htop, hquota⟩ := Store.complete_ok hs'
    refine ⟨fun a ha hne => ?_, fun a ha p hpr hne => ?_, fun _ => ?_, ?_⟩
    · rw [htop]
      refine Table.mem_modify_of_ne ha fun hk => hne ?_
      rw [Table.eq_of_key_eq ha (Table.mem_of_get? ho) hk, hp]
    · rw [ho] at ha
      cases ha
      exact absurd (hprov p hpr) hne
    · refine ⟨o, ⟨ho, hp, ?_⟩, by rw [hcredit]; rfl⟩
      rw [htop, ← hkey, Table.get?_modify_self, hkey, ho]
      rfl
    · rintro a ⟨ha, -, -⟩ credit hc
      rw [ho] at ha
      cases ha
      rw [hcredit] at hc
      cases hc
      exact hquota

theorem run_kept (s : Store) (l : List Request) :
    Always (step h quotaPerUnit) (Kept h quotaPerUnit) s l :=
  Meets.always (C := fun _ _ => True) (I := fun _ => True) (fun _ _ _ _ => trivial)
    (fun s r _ _ => step_kept h quotaPerUnit s r) trivial (meets_of_forall fun _ _ => trivial)

/-! ## Once only -/

theorem creditCount_of_not_pending {t : String} {o : TopUp} {s : Store} {l : List Request}
    (ho : s.topUps.get? t = some o) (hp : o.status ≠ .pending) :
    creditCount h quotaPerUnit t s l = 0 := by
  induction l generalizing s with
  | nil => rfl
  | cons r l ih =>
    have hk := step_kept h quotaPerUnit s r
    have hmem := hk.terminal o (Table.mem_of_get? ho) hp
    have ho' : (step h quotaPerUnit s r).topUps.get? t = some o :=
      Table.get?_eq_some.2 ⟨hmem, Table.key_of_get? ho⟩
    rw [creditCount, ih ho', if_neg]
    rintro ⟨rfl, hne⟩
    obtain ⟨a, ⟨ha, hpa, -⟩, -⟩ := hk.moves fun he => hne (by rw [he])
    rw [ho] at ha
    cases ha
    exact hp hpa

theorem creditCount_le_one (t : String) (s : Store) (l : List Request) :
    creditCount h quotaPerUnit t s l ≤ 1 := by
  induction l generalizing s with
  | nil => exact Nat.zero_le 1
  | cons r l ih =>
    rw [creditCount]
    split
    next hc =>
      obtain ⟨rfl, hne⟩ := hc
      have hk := step_kept h quotaPerUnit s r
      obtain ⟨o, ⟨-, -, hs⟩, -⟩ := hk.moves fun he => hne (by rw [he])
      obtain ⟨o', ho', hst⟩ := Option.map_eq_some_iff.1 hs
      rw [creditCount_of_not_pending h quotaPerUnit ho' (by rw [hst]; decide)]
    next => rw [Nat.zero_add]; exact ih _

/-- **Top-up crediting.** In every run of completing calls, with any trade numbers and any
statements failing, every call keeps the orders that are not pending, changes nothing through a
foreign provider and changes quotas only where it moves an order to success, by just its credit; and
no order is credited twice. -/
theorem topUp_credited_once (s : Store) (l : List Request) :
    Always (step h quotaPerUnit) (Kept h quotaPerUnit) s l ∧
      ∀ t, creditCount h quotaPerUnit t s l ≤ 1 :=
  ⟨run_kept h quotaPerUnit s l, fun t => creditCount_le_one h quotaPerUnit t s l⟩

/-- A Creem order of an amount of zero, before its notification. -/
def freeCreemOrder : Store where
  topUps := ⟨[{ tradeNo := "ref_1", userId := 1, amount := 0, money := 5, paymentMethod := "creem"
                paymentProvider := .creem, status := .pending }], by decide⟩
  users := ⟨[{ id := 1, quota := 100 }], by decide⟩

/-- A call may move an order to success without changing a quota: a Creem order of an amount of
zero is completed, and its user's quota stays. -/
theorem free_creem_order_completes :
    ¬ ∀ (s : Store) (r : Request) (o : TopUp),
      Moves s r (step .exact 500000 s r) o →
        (step .exact 500000 s r).users.quotaOf o.userId ≠ s.users.quotaOf o.userId := by
  intro hall
  have hr := hall freeCreemOrder { call := .rechargeCreem "ref_1" "" }
    { tradeNo := "ref_1", userId := 1, amount := 0, money := 5, paymentMethod := "creem"
      paymentProvider := .creem, status := .pending }
  exact hr ⟨by decide, by decide, by decide⟩ (by decide)

end

end NewApi.TopUp

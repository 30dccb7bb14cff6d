import NewApi.TopUp.Manual
import Mathlib.Tactic.FieldSimp
import Mathlib.Tactic.Positivity

/-!
# Amounts in tokens

Where quota is displayed in tokens, `RequestEpay` is asked for a number of tokens. It prices the quotient of the
amount and `quotaPerUnit`, rounded to sixteen places, and stores the integer part of that quotient; `EpayNotify`
multiplies what is stored by `quotaPerUnit`. So what is paid for is credited just where the amount is a whole
multiple of `quotaPerUnit`, up to the rounding (`tokens_credited_iff`).
-/

namespace NewApi.TopUp

open Decimal

/-! ## A quotient cut off and multiplied back -/

/-- An integer amount is a whole multiple of a divisor, up to the sixteen places of a quotient. -/
def WholeMultiple (amount : Int) (q : ℚ) : Prop :=
  ∃ k : Int, Fits64 k ∧ amount ≤ k * q ∧ k * q < amount + 1 ∧ k * q - amount ≤ |q| / (2 * 10 ^ 16)

section
variable {a n m k : Int} {q u : ℚ}

theorem divRound_eq_of_pos (hu : 0 < u) (ha : 0 ≤ a) (hlo : (a : ℚ) ≤ k * u)
    (hk : k * u - a ≤ u / (2 * 10 ^ 16)) : divRound a u = k := by
  have h0 : (0 : ℚ) ≤ a := by exact_mod_cast ha
  have hround : Decimal.round ((a : ℚ) / u * 10 ^ 16) = k * 10 ^ 16 := by
    have hdiv : (a : ℚ) / u * u = a := div_mul_cancel₀ _ hu.ne'
    refine round_eq_of_le (by positivity) ?_ ?_
    · push_cast
      have hle : (k - a / u) * u ≤ 1 / (2 * 10 ^ 16) * u := by linarith
      have := le_of_mul_le_mul_right hle hu
      linarith
    · push_cast
      have hle : a / u * u ≤ k * u := by linarith
      have := le_of_mul_le_mul_right hle hu
      linarith
  rw [divRound, hround]
  push_cast
  exact mul_div_cancel_right₀ _ (by norm_num)

theorem divRound_nonneg (hu : 0 < u) (ha : 0 ≤ a) : 0 ≤ divRound a u := by
  have h0 : (0 : ℚ) ≤ a := by exact_mod_cast ha
  have hround : 0 ≤ Decimal.round ((a : ℚ) / u * 10 ^ 16) := by
    rw [round_of_nonneg (by positivity)]
    exact Int.floor_nonneg.2 (by positivity)
  have hcast : (0 : ℚ) ≤ Decimal.round ((a : ℚ) / u * 10 ^ 16) := by exact_mod_cast hround
  rw [divRound]
  positivity

theorem trunc_divRound_mul_le (hu : 0 < u) (ha : 0 ≤ a) :
    0 ≤ trunc (divRound a u) ∧ (trunc (divRound a u) : ℚ) * u ≤ a + u / (2 * 10 ^ 16) := by
  have hnonneg := divRound_nonneg hu ha
  rw [trunc_of_nonneg hnonneg]
  refine ⟨Int.floor_nonneg.2 hnonneg, ?_⟩
  have hfloor := Int.floor_le (divRound a u)
  have hclose := (abs_le.1 (abs_sub_divRound_le a u)).1
  have hle : (⌊divRound a u⌋ : ℚ) ≤ a / u + 1 / (2 * 10 ^ 16) := by linarith
  have hmul := mul_le_mul_of_nonneg_right hle hu.le
  rw [add_mul, div_mul_cancel₀ _ hu.ne'] at hmul
  linarith

/-- What the integer part of the quotient is stored as, up to its sign: itself, or it overflows. -/
def Stored (n m : Int) : Prop := m = n ∨ 2 ^ 63 ≤ n ∧ m ≤ n - 2 ^ 64 ∧ -(2 ^ 63) ≤ m

theorem stored_wrap64 (hn : 0 ≤ n) : Stored n (wrap64 n) := by
  obtain ⟨j, hj⟩ := exists_wrap64 n
  obtain ⟨hlo, hhi⟩ := fits_wrap64 n
  unfold Stored
  omega

theorem stored_wrap64_neg (hn : 0 ≤ n) : Stored n (-wrap64 (-n)) := by
  obtain ⟨j, hj⟩ := exists_wrap64 (-n)
  obtain ⟨hlo, hhi⟩ := fits_wrap64 (-n)
  unfold Stored
  omega

/-- Where nothing overflowed, the product is large by the rounding at most, so it does not overflow either. -/
theorem floor_mul_eq_of_exact (hu : 0 < u) (hfit : Fits64 a) (hn0 : 0 ≤ n) (hle : (n : ℚ) * u ≤ a + u / (2 * 10 ^ 16))
    (ha : 0 < a) (heq : intPart (n * u) = a) : ⌊(n : ℚ) * u⌋ = a := by
  obtain ⟨hlo, hhi⟩ := hfit
  have ha' : (a : ℚ) < 2 ^ 63 := by exact_mod_cast hhi
  have hn : (0 : ℚ) ≤ n := by exact_mod_cast hn0
  have hlow : 0 ≤ ⌊(n : ℚ) * u⌋ := Int.floor_nonneg.2 (by positivity)
  have hhigh : ⌊(n : ℚ) * u⌋ < a + 2 ^ 63 := by
    rw [Int.floor_lt]
    push_cast
    rcases lt_or_ge 0 n with h | h
    · -- a unit is stored, so the divisor is no larger than about the amount
      have h1 : (1 : ℚ) ≤ n := by exact_mod_cast h
      have hmul : u ≤ n * u := le_mul_of_one_le_left hu.le h1
      linarith
    · have hpos : (0 : ℚ) < a := by exact_mod_cast ha
      rw [show n = 0 by omega, Int.cast_zero, zero_mul]
      linarith
  obtain ⟨j, hj⟩ := exists_wrap64 (trunc (n * u))
  rw [intPart] at heq
  rw [heq, trunc_of_nonneg (by positivity)] at hj
  omega

theorem intPart_mul_ne_of_overflow (hu : 0 < u) (hfit : Fits64 a) (hle : (n : ℚ) * u ≤ a + u / (2 * 10 ^ 16))
    (ha : 0 < a) (hbig : 2 ^ 63 ≤ n) (hmn : m ≤ n - 2 ^ 64) (hmlo : -(2 ^ 63) ≤ m) : intPart (m * u) ≠ a := by
  intro heq
  obtain ⟨hlo, hhi⟩ := hfit
  have hn1 : (1 : ℚ) ≤ n := by exact_mod_cast (by omega : 1 ≤ n)
  have hna : (a : ℚ) + 1 ≤ n := by exact_mod_cast (by omega : a + 1 ≤ n)
  have hu1 : u < 1 := by
    have hmul : (n - 1 / (2 * 10 ^ 16)) * u < n - 1 / (2 * 10 ^ 16) := by linarith
    exact (mul_lt_iff_lt_one_right (by linarith)).1 hmul
  obtain ⟨j, hj⟩ := exists_wrap64 (trunc (m * u))
  rw [intPart] at heq
  rw [heq] at hj
  rcases lt_or_ge m 0 with hneg | hnonneg
  · have hm0 : (0 : ℚ) < -m := by exact_mod_cast (by omega : 0 < -m)
    have hm63 : (-m : ℚ) ≤ 2 ^ 63 := by exact_mod_cast (by omega : -m ≤ 2 ^ 63)
    have hmu : 0 < (-m : ℚ) * u := mul_pos hm0 hu
    have htrunc : trunc (m * u) = -⌊(-m : ℚ) * u⌋ := by
      rw [← trunc_of_nonneg hmu.le, ← trunc_neg, neg_mul, neg_neg]
    have hlow : 0 ≤ ⌊(-m : ℚ) * u⌋ := Int.floor_nonneg.2 hmu.le
    have hhigh : ⌊(-m : ℚ) * u⌋ < 2 ^ 63 := by
      rw [Int.floor_lt]
      push_cast
      exact lt_of_lt_of_le ((mul_lt_iff_lt_one_right hm0).2 hu1) hm63
    rw [htrunc] at hj
    omega
  · have hm0 : (0 : ℚ) ≤ m := by exact_mod_cast hnonneg
    have hmn' : (m : ℚ) ≤ n - 2 ^ 64 := by exact_mod_cast hmn
    have hmu : (m : ℚ) * u ≤ (n - 2 ^ 64) * u := mul_le_mul_of_nonneg_right hmn' hu.le
    have hfloor : trunc (m * u) = ⌊(m : ℚ) * u⌋ := trunc_of_nonneg (by positivity)
    have hlow : 0 ≤ ⌊(m : ℚ) * u⌋ := Int.floor_nonneg.2 (by positivity)
    have hhigh : ⌊(m : ℚ) * u⌋ < a := by
      rw [Int.floor_lt]
      linarith
    rw [hfloor] at hj
    omega

theorem stored_mul_eq (hu : 0 < u) (ha : 0 < a) (hfit : Fits64 a) (hm : Stored (trunc (divRound a u)) m)
    (heq : intPart (m * u) = a) : m = trunc (divRound a u) ∧ ⌊(m : ℚ) * u⌋ = a := by
  obtain ⟨hn0, hle⟩ := trunc_divRound_mul_le hu ha.le
  rcases hm with rfl | ⟨hbig, hmn, hmlo⟩
  · exact ⟨rfl, floor_mul_eq_of_exact hu hfit hn0 hle ha heq⟩
  · exact absurd heq (intPart_mul_ne_of_overflow hu hfit hle ha hbig hmn hmlo)

theorem divRound_eq_of_multiple (ha : 0 < a) (hlo : (a : ℚ) ≤ k * q) (hk : k * q - a ≤ |q| / (2 * 10 ^ 16)) :
    divRound a q = k := by
  have hpos : (0 : ℚ) < a := by exact_mod_cast ha
  rcases lt_trichotomy q 0 with hq | rfl | hq
  · rw [abs_of_neg hq] at hk
    have hneg : divRound a (-q) = (-k : Int) := by
      refine divRound_eq_of_pos (neg_pos.2 hq) ha.le ?_ ?_
      · push_cast
        linarith
      · push_cast
        linarith
    rw [divRound_neg_right] at hneg
    push_cast at hneg
    exact neg_inj.1 hneg
  · rw [mul_zero] at hlo
    linarith
  · rw [abs_of_pos hq] at hk
    exact divRound_eq_of_pos hq ha.le hlo hk

theorem wholeMultiple_of_stored (ha : 0 < a) (hfit : Fits64 a) (h : intPart (intPart (divRound a q) * q) = a) :
    WholeMultiple a q := by
  have hmultiple : ∀ u, 0 < u → ∀ m, Stored (trunc (divRound a u)) m → intPart (m * u) = a →
      (a : ℚ) ≤ m * u ∧ m * u < a + 1 ∧ m * u - a ≤ u / (2 * 10 ^ 16) := by
    intro u hu m hm heq
    obtain ⟨rfl, hfloor⟩ := stored_mul_eq hu ha hfit hm heq
    obtain ⟨hlo, hhi⟩ := Int.floor_eq_iff.1 hfloor
    exact ⟨hlo, hhi, by linarith [(trunc_divRound_mul_le hu ha.le).2]⟩
  refine ⟨intPart (divRound a q), fits_wrap64 _, ?_⟩
  rcases lt_trichotomy q 0 with hq | rfl | hq
  · have hu : 0 < -q := neg_pos.2 hq
    have hstored := stored_wrap64_neg (trunc_divRound_mul_le hu ha.le).1
    have hint : intPart (divRound a q) = wrap64 (-trunc (divRound a (-q))) := by
      rw [intPart, divRound_neg_right, trunc_neg, neg_neg]
    rw [abs_of_neg hq, hint]
    rw [hint] at h
    generalize wrap64 (-trunc (divRound a (-q))) = m at hstored h ⊢
    have hswap : ((-m : Int) : ℚ) * -q = m * q := by
      push_cast
      ring
    have := hmultiple (-q) hu (-m) hstored (by rw [hswap]; exact h)
    rwa [hswap] at this
  · rw [mul_zero, intPart_zero] at h
    omega
  · rw [abs_of_pos hq]
    exact hmultiple q hq _ (stored_wrap64 (trunc_divRound_mul_le hq ha.le).1) h

theorem intPart_divRound_mul_iff (ha : 0 < a) (hfit : Fits64 a) :
    intPart (intPart (divRound a q) * q) = a ↔ WholeMultiple a q := by
  refine ⟨wholeMultiple_of_stored ha hfit, ?_⟩
  rintro ⟨k, hk, hlo, hhi, hround⟩
  have hpos : (0 : ℚ) < a := by exact_mod_cast ha
  rw [divRound_eq_of_multiple ha hlo hround, intPart_intCast hk, intPart, trunc_of_nonneg (by linarith),
    Int.floor_eq_iff.2 ⟨hlo, hhi⟩, wrap64_of_fits hfit]

end

/-! ## Requested, stored and credited -/

section
variable {cfg : Setting} {h : Host} {ctx : PayContext} {amount : Int} {method payType : String} {o : TopUp}
  {s : Store} {u : User} {id : Nat}

theorem requestEpay_tokens (htokens : cfg.displayTokens = true)
    (hreq : (requestEpay cfg h ctx amount method).order = some o) :
    o.amount = intPart (divRound amount cfg.quotaPerUnit) ∧ o.paymentProvider = .epay ∧ o.status = .pending := by
  have hreq := order_of_guard (order_of_guard (order_of_guard hreq))
  split at hreq
  · cases hreq
  · cases hreq
    exact ⟨if_pos htokens, rfl, rfl⟩

/-- **Token amounts.** For an order of tokens, the notification credits what was requested, and what was priced is
what was stored, just where the amount is a whole multiple of `quotaPerUnit`. The database gives the order its id. -/
theorem tokens_credited_iff (htokens : cfg.displayTokens = true) (hfit : Fits64 amount)
    (hreq : (requestEpay cfg h ctx amount method).order = some o)
    (ho : s.topUps.get? o.tradeNo = some { o with topupId := id }) (hu : s.users.get? o.userId = some u) :
    added s (epayNotify cfg.quotaPerUnit {} o.tradeNo payType s) o.userId = amount ∧
        (o.amount : ℚ) = divRound amount cfg.quotaPerUnit ↔
      0 ≤ amount ∧ WholeMultiple amount cfg.quotaPerUnit := by
  obtain ⟨hamount, hprov, hp⟩ := requestEpay_tokens htokens hreq
  have hadded : added s (epayNotify cfg.quotaPerUnit {} o.tradeNo payType s) o.userId =
      max 0 (intPart (intPart (divRound amount cfg.quotaPerUnit) * cfg.quotaPerUnit)) := by
    rw [← hamount]
    exact @epayNotify_added _ s { o with topupId := id } u ho hp hu _ hprov
  rw [hadded, hamount]
  rcases lt_trichotomy amount 0 with hneg | rfl | hpos
  · refine iff_of_false (fun hc => ?_) fun hc => by omega
    have := hc.1
    omega
  · have hzero : divRound ((0 : Int) : ℚ) cfg.quotaPerUnit = (0 : Int) := by
      rw [divRound, Int.cast_zero, zero_div, zero_mul, round_zero, Int.cast_zero, zero_div]
    refine iff_of_true ?_ ⟨le_refl 0, 0, by decide, ?_⟩
    · rw [hzero, intPart_intCast (by decide), Int.cast_zero, zero_mul, intPart_zero]
      exact ⟨rfl, rfl⟩
    · have hq := abs_nonneg cfg.quotaPerUnit
      rw [Int.cast_zero, zero_mul, sub_zero]
      exact ⟨le_refl 0, by norm_num, by positivity⟩
  · constructor
    · rintro ⟨hmax, -⟩
      exact ⟨hpos.le, (intPart_divRound_mul_iff hpos hfit).1 (by omega)⟩
    · rintro ⟨-, hwhole⟩
      refine ⟨by rw [(intPart_divRound_mul_iff hpos hfit).2 hwhole]; omega, ?_⟩
      obtain ⟨k, hk, hlo, -, hround⟩ := hwhole
      rw [divRound_eq_of_multiple hpos hlo hround, intPart_intCast hk]

end

/-- A shop that displays tokens, five hundred thousand of them for a unit of seven. -/
def tokenShop : Setting := { creemShop with displayTokens := true, payMethods := ["alipay"] }

/-- A request there. -/
def tokenContext : PayContext := { user := { id := 1, quota := 0 }, unique := "1" }

/-- The order of a number of tokens there, of which a number of units is stored. -/
def tokenOrder (units : Int) (money : ℚ) : TopUp :=
  pending tokenContext.user "USR1NO1" "alipay" .epay 0 units money

theorem requestEpay_tokenShop {amount units n : Int} {money : ℚ} (hmin : 500000 ≤ amount)
    (hplaces : (amount : ℚ) / 500000 * 10 ^ 16 = n) (hmoney : (n : ℚ) / 10 ^ 16 * 7 = money)
    (hunits : ⌊(n : ℚ) / 10 ^ 16⌋ = units) (hfit : Fits64 units) :
    (requestEpay tokenShop .exact tokenContext amount "alipay").order = some (tokenOrder units money) := by
  have htokens : tokenShop.displayTokens = true := rfl
  have hleast : tokenShop.getMinTopup = 500000 := by
    have hcast : ((tokenShop.minTopUp : ℚ) * tokenShop.quotaPerUnit) = ((500000 : Int) : ℚ) := by
      norm_num [tokenShop, creemShop]
    rw [Setting.getMinTopup, if_pos htokens, hcast, intPart_intCast (by decide)]
  have hdiv : divRound amount 500000 = n / 10 ^ 16 := by rw [divRound, hplaces, Decimal.round_intCast]
  have hpay : tokenShop.getPayMoney .exact amount tokenContext.user.group = money := by
    have hrate : ¬ (7 : ℚ) ≤ 0 := by norm_num
    rw [← hmoney, ← hdiv]
    simp [hrate, Setting.getPayMoney, Setting.groupRatio, Setting.discount, tokenShop, creemShop, Host.exact]
  have hpriced : 1 ≤ money := by
    have hamount : (500000 : ℚ) ≤ amount := by exact_mod_cast hmin
    linarith
  have hstored : intPart (divRound amount tokenShop.quotaPerUnit) = units := by
    have hnonneg : (0 : ℚ) ≤ n / 10 ^ 16 := by linarith
    rw [show tokenShop.quotaPerUnit = 500000 from rfl, hdiv, intPart, trunc_of_nonneg hnonneg, hunits,
      wrap64_of_fits hfit]
  unfold requestEpay
  dsimp only
  rw [hleast, if_neg (not_lt.2 hmin), hpay, if_neg (by linarith), if_neg (by decide),
    if_pos htokens, hstored]
  rfl

/-- The store that holds it. -/
def tokenStore (o : TopUp) : Store where
  topUps := ⟨[{ o with topupId := 1 }], List.nodup_singleton _⟩
  users := ⟨[{ id := 1, quota := 0 }], List.nodup_singleton _⟩

/-- Two units of tokens. -/
theorem tokens_credited_two :
    added (tokenStore (tokenOrder 2 14)) (epayNotify 500000 {} "USR1NO1" "alipay" (tokenStore (tokenOrder 2 14))) 1 =
        1000000 ∧ (((2 : Int) : ℚ) = divRound ((1000000 : Int) : ℚ) 500000) ↔
      0 ≤ (1000000 : Int) ∧ WholeMultiple 1000000 500000 := by
  have hreq : (requestEpay tokenShop .exact tokenContext 1000000
      "alipay").order = some (tokenOrder 2 14) :=
    @requestEpay_tokenShop _ _ (2 * 10 ^ 16) _ (by decide) (by norm_num) (by norm_num) (by norm_num) (by decide)
  have ho : (tokenStore (tokenOrder 2 14)).topUps.get? (tokenOrder 2 14).tradeNo =
      some { tokenOrder 2 14 with topupId := 1 } := rfl
  have hu : (tokenStore (tokenOrder 2 14)).users.get? (tokenOrder 2 14).userId = some tokenContext.user := rfl
  exact tokens_credited_iff rfl (by decide) hreq ho hu

/-- One and a half units of tokens are priced, one is credited. -/
theorem tokens_dropped :
    (requestEpay tokenShop .exact tokenContext 750000 "alipay").order =
        some (tokenOrder 1 (21 / 2)) ∧
      added (tokenStore (tokenOrder 1 (21 / 2)))
        (epayNotify 500000 {} "USR1NO1" "alipay" (tokenStore (tokenOrder 1 (21 / 2)))) 1 = 500000 := by
  constructor
  · refine @requestEpay_tokenShop _ _ (15 * 10 ^ 15) _ (by decide) (by norm_num) (by norm_num) ?_ (by decide)
    norm_num [Int.floor_eq_iff]
  · have hcredit : amountCredit 500000 (tokenOrder 1 (21 / 2)) = 500000 := by
      have hmul : (((tokenOrder 1 (21 / 2)).amount : ℚ) * 500000) = ((500000 : Int) : ℚ) := by
        norm_num [tokenOrder, pending]
      rw [amountCredit, hmul, intPart_intCast (by decide)]
    have hadded := @epayNotify_added 500000 (tokenStore (tokenOrder 1 (21 / 2)))
      { tokenOrder 1 (21 / 2) with topupId := 1 } tokenContext.user rfl rfl rfl "alipay" rfl
    exact hadded.trans (congrArg (max 0) hcredit)

end NewApi.TopUp

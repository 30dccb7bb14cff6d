import Mathlib.Data.Int.Log
import Mathlib.Data.Rat.Floor
import Mathlib.Algebra.Order.Floor.Ring
import Mathlib.Tactic.Linarith
import Mathlib.Tactic.NormNum
import Mathlib.Tactic.FieldSimp

/-!
# The numbers of `float64`

`nearest64` is the `float64` that is nearest to a rational, the even one of two: 53 binary digits, and an exponent of
any size. A sum, a product or a quotient of `float64` is this of the exact one. Numbers that are an integer of at most
53 digits times a power of two are exact (`nearest64_of_places`). Rounding keeps the order (`nearest64_mono`) and the
sign, and twice a number is rounded to twice as much (`nearest64_two_mul`).
-/

namespace NewApi.Binary64

/-- The nearest integer, the even one of two. -/
def roundHalfEven (x : ℚ) : Int :=
  if x - ⌊x⌋ < 1 / 2 ∨ x - ⌊x⌋ = 1 / 2 ∧ ⌊x⌋ % 2 = 0 then ⌊x⌋ else ⌊x⌋ + 1

/-- The exponent of the last of 53 binary digits. -/
def exponent (x : ℚ) : Int := Int.log 2 |x| - 52

/-- The nearest `float64`. -/
def nearest64 (x : ℚ) : ℚ :=
  if x = 0 then 0 else roundHalfEven (x / 2 ^ exponent x) * 2 ^ exponent x

@[simp] theorem roundHalfEven_intCast (n : Int) : roundHalfEven n = n := by
  rw [roundHalfEven, Int.floor_intCast, if_pos (.inl (by norm_num))]

@[simp] theorem nearest64_zero : nearest64 0 = 0 := if_pos rfl

/-- A multiple of the last digit is exact. -/
theorem nearest64_of_multiple {x : ℚ} {n : Int} (h : x = n * 2 ^ exponent x) : nearest64 x = x := by
  rw [nearest64]
  split
  next h0 => rw [h0]
  next h0 =>
    have hne : (2 : ℚ) ^ exponent x ≠ 0 := zpow_ne_zero _ (by norm_num)
    have hdiv : x / 2 ^ exponent x = n := (div_eq_iff hne).2 h
    rw [hdiv, roundHalfEven_intCast]
    exact h.symm

/-- An integer of up to 53 digits at some place is a multiple of every place that leaves it 53 digits. -/
theorem exists_multiple {n p e : Int} (h : |n| ≤ 2 ^ 53) (hlow : (2 : ℚ) ^ (e + 52) ≤ |n| * 2 ^ p) :
    ∃ m : Int, (n : ℚ) * 2 ^ p = m * 2 ^ e := by
  have hle : ((|n| : Int) : ℚ) ≤ 2 ^ 53 := by exact_mod_cast h
  have hp : (0 : ℚ) < 2 ^ p := zpow_pos (by norm_num) p
  rcases le_or_gt e p with hep | hep
  · refine ⟨n * 2 ^ (p - e).toNat, ?_⟩
    have hsplit : (2 : ℚ) ^ p = 2 ^ (p - e).toNat * 2 ^ e := by
      rw [← zpow_natCast, ← zpow_add₀ (by norm_num), Int.toNat_of_nonneg (by omega), sub_add_cancel]
    push_cast
    rw [hsplit, mul_assoc]
  · -- only the power of two just above has a digit more
    have hpow : (2 : ℚ) ^ (e + 52) ≤ 2 ^ (53 + p) := by
      rw [zpow_add₀ (by norm_num) 53 p]
      exact hlow.trans (mul_le_mul_of_nonneg_right (by exact_mod_cast hle) hp.le)
    have he : e = p + 1 := by
      have := (zpow_le_zpow_iff_right₀ (by norm_num : (1 : ℚ) < 2)).1 hpow
      omega
    have hge : (2 : ℚ) ^ 53 ≤ (|n| : Int) := by
      rw [he, show p + 1 + 52 = 53 + p by ring, zpow_add₀ (by norm_num)] at hlow
      exact_mod_cast le_of_mul_le_mul_right hlow hp
    have hn : n = 2 * (n / 2) := by
      have hge' : (2 : Int) ^ 53 ≤ |n| := by exact_mod_cast hge
      rcases (abs_eq (by norm_num)).1 (le_antisymm h hge') with rfl | rfl <;> rfl
    refine ⟨n / 2, ?_⟩
    rw [he, zpow_add₀ (by norm_num), zpow_one]
    calc (n : ℚ) * 2 ^ p = ((2 * (n / 2) : Int) : ℚ) * 2 ^ p := by rw [← hn]
      _ = (n / 2 : Int) * (2 ^ p * 2) := by push_cast; ring

/-- Integers of up to 53 digits are exact, at every binary place. -/
theorem nearest64_of_places {n : Int} (p : Int) (h : |n| ≤ 2 ^ 53) : nearest64 (n * 2 ^ p) = n * 2 ^ p := by
  rcases eq_or_ne n 0 with rfl | hn
  · simp
  have hp : (0 : ℚ) < 2 ^ p := zpow_pos (by norm_num) p
  have habs : |(n : ℚ) * 2 ^ p| = |n| * 2 ^ p := by rw [abs_mul, abs_of_pos hp, Int.cast_abs]
  have hlow : (2 : ℚ) ^ (exponent (n * 2 ^ p) + 52) ≤ |n| * 2 ^ p := by
    have hlog := Int.zpow_log_le_self (b := 2) (r := |(n : ℚ) * 2 ^ p|) (by norm_num) (by positivity)
    rw [habs] at hlog
    rw [exponent, habs, sub_add_cancel]
    exact_mod_cast hlog
  obtain ⟨m, hm⟩ := exists_multiple h hlow
  exact nearest64_of_multiple hm

/-- So are integers of up to 53 digits. -/
theorem nearest64_intCast {n : Int} (h : |n| ≤ 2 ^ 53) : nearest64 n = n := by
  have := nearest64_of_places 0 h
  rwa [zpow_zero, mul_one] at this

/-! ## Order and sign -/

section
variable {x y : ℚ}

theorem floor_le_roundHalfEven : ⌊x⌋ ≤ roundHalfEven x := by
  rw [roundHalfEven]
  split <;> omega

theorem roundHalfEven_le_floor : roundHalfEven x ≤ ⌊x⌋ + 1 := by
  rw [roundHalfEven]
  split <;> omega

theorem roundHalfEven_mono (h : x ≤ y) : roundHalfEven x ≤ roundHalfEven y := by
  rcases (Int.floor_le_floor h).lt_or_eq with hlt | heq
  · exact roundHalfEven_le_floor.trans (hlt.trans_le floor_le_roundHalfEven)
  · rw [roundHalfEven, roundHalfEven, heq]
    split
    next => split <;> omega
    next hup =>
      -- what is above `x` at the same floor is rounded up with it
      rw [if_neg]
      rintro (hlow | ⟨htie, heven⟩)
      · exact hup (.inl (by linarith))
      · rcases h.lt_or_eq with hlt | rfl
        · exact hup (.inl (by linarith))
        · exact hup (.inr ⟨htie, heven⟩)

theorem roundHalfEven_neg : roundHalfEven (-x) = -roundHalfEven x := by
  rcases eq_or_ne x ⌊x⌋ with hint | hfract
  · rw [hint, ← Int.cast_neg, roundHalfEven_intCast, roundHalfEven_intCast]
  have hlt : (⌊x⌋ : ℚ) < x := (Int.floor_le x).lt_of_ne hfract.symm
  have hfloor : ⌊-x⌋ = -⌊x⌋ - 1 := by
    rw [Int.floor_eq_iff]
    push_cast
    constructor
    · linarith [Int.lt_floor_add_one x]
    · linarith
  rw [roundHalfEven, roundHalfEven, hfloor]
  push_cast
  rcases lt_trichotomy (x - ⌊x⌋) (1 / 2) with hlow | htie | hup
  · rw [if_neg, if_pos (.inl hlow)]
    · omega
    · rintro (h | ⟨h, -⟩)
      · linarith
      · linarith
  · have htie' : -x - (-(⌊x⌋ : ℚ) - 1) = 1 / 2 := by linarith
    rcases Int.emod_two_eq_zero_or_one ⌊x⌋ with heven | hodd
    · rw [if_neg, if_pos (.inr ⟨htie, heven⟩)]
      · omega
      · rintro (h | ⟨-, h⟩)
        · linarith
        · omega
    · rw [if_pos (.inr ⟨htie', by omega⟩), if_neg]
      · omega
      · rintro (h | ⟨-, h⟩)
        · linarith
        · omega
  · rw [if_pos (.inl (by linarith)), if_neg]
    · omega
    · rintro (h | ⟨h, -⟩)
      · linarith
      · linarith

@[simp] theorem exponent_neg : exponent (-x) = exponent x := by rw [exponent, abs_neg, exponent]

@[simp] theorem nearest64_neg : nearest64 (-x) = -nearest64 x := by
  rw [nearest64, nearest64, exponent_neg, neg_div, roundHalfEven_neg]
  by_cases h : x = 0
  · rw [if_pos (neg_eq_zero.2 h), if_pos h, neg_zero]
  · rw [if_neg (neg_ne_zero.2 h), if_neg h, Int.cast_neg, neg_mul]

/-- A positive number is 53 digits, of which the last stands for its exponent. -/
theorem digits_of_pos (h : 0 < x) : 2 ^ 52 ≤ x / 2 ^ exponent x ∧ x / 2 ^ exponent x < 2 ^ 53 := by
  have hpos : (0 : ℚ) < 2 ^ exponent x := zpow_pos (by norm_num) _
  have hlo := Int.zpow_log_le_self (b := 2) (r := x) (by norm_num) h
  have hhi := Int.lt_zpow_succ_log_self (b := 2) (by norm_num) x
  have hexp : Int.log 2 x = exponent x + 52 := by
    rw [exponent, abs_of_pos h, sub_add_cancel]
  rw [hexp, Nat.cast_ofNat] at hlo hhi
  rw [zpow_add₀ (by norm_num)] at hlo
  rw [add_right_comm, zpow_add₀ (by norm_num), zpow_add₀ (by norm_num)] at hhi
  constructor
  · rw [le_div_iff₀ hpos, mul_comm]
    exact_mod_cast hlo
  · rw [div_lt_iff₀ hpos, mul_comm]
    refine hhi.trans_eq ?_
    norm_num
    ring

/-- A positive number is rounded to 53 digits, or to the power of two above them. -/
theorem nearest64_digits (h : 0 < x) :
    nearest64 x = roundHalfEven (x / 2 ^ exponent x) * 2 ^ exponent x ∧
      2 ^ 52 ≤ roundHalfEven (x / 2 ^ exponent x) ∧ roundHalfEven (x / 2 ^ exponent x) ≤ 2 ^ 53 := by
  obtain ⟨hlo, hhi⟩ := digits_of_pos h
  refine ⟨if_neg h.ne', ?_, ?_⟩
  · have hmono := roundHalfEven_mono (x := ((2 ^ 52 : Int) : ℚ)) (by exact_mod_cast hlo)
    rwa [roundHalfEven_intCast] at hmono
  · have hmono := roundHalfEven_mono (y := ((2 ^ 53 : Int) : ℚ)) (by exact_mod_cast hhi.le)
    rwa [roundHalfEven_intCast] at hmono

theorem nearest64_pos (h : 0 < x) : 0 < nearest64 x := by
  obtain ⟨heq, hlo, -⟩ := nearest64_digits h
  have hround : (0 : ℚ) < roundHalfEven (x / 2 ^ exponent x) := by exact_mod_cast lt_of_lt_of_le (by norm_num) hlo
  rw [heq]
  exact mul_pos hround (zpow_pos (by norm_num) _)

theorem nearest64_nonneg (h : 0 ≤ x) : 0 ≤ nearest64 x := by
  rcases h.lt_or_eq with hpos | rfl
  · exact (nearest64_pos hpos).le
  · rw [nearest64_zero]

theorem nearest64_mono_of_pos (hx : 0 < x) (h : x ≤ y) : nearest64 x ≤ nearest64 y := by
  have hy : 0 < y := hx.trans_le h
  obtain ⟨hxeq, -, hxhi⟩ := nearest64_digits hx
  obtain ⟨hyeq, hylo, -⟩ := nearest64_digits hy
  have hexp : exponent x ≤ exponent y := by
    have hlog := Int.log_mono_right (b := 2) hx h
    rw [exponent, exponent, abs_of_pos hx, abs_of_pos hy]
    omega
  have hpow : ∀ e : Int, (0 : ℚ) < 2 ^ e := fun e => zpow_pos (by norm_num) e
  rw [hxeq, hyeq]
  rcases hexp.lt_or_eq with hlt | heq
  · -- a power of two lies between the digits of the two
    have hstep : (2 : ℚ) ^ (exponent x + 1) ≤ 2 ^ exponent y := zpow_le_zpow_right₀ (by norm_num) (by omega)
    have hxhi' : (roundHalfEven (x / 2 ^ exponent x) : ℚ) ≤ 2 ^ 53 := by exact_mod_cast hxhi
    have hylo' : (2 : ℚ) ^ 52 ≤ roundHalfEven (y / 2 ^ exponent y) := by exact_mod_cast hylo
    calc (roundHalfEven (x / 2 ^ exponent x) : ℚ) * 2 ^ exponent x
        ≤ 2 ^ 53 * 2 ^ exponent x := mul_le_mul_of_nonneg_right hxhi' (hpow _).le
      _ = 2 ^ 52 * 2 ^ (exponent x + 1) := by
        rw [zpow_add₀ (by norm_num), zpow_one]
        ring
      _ ≤ 2 ^ 52 * 2 ^ exponent y := mul_le_mul_of_nonneg_left hstep (by norm_num)
      _ ≤ roundHalfEven (y / 2 ^ exponent y) * 2 ^ exponent y := mul_le_mul_of_nonneg_right hylo' (hpow _).le
  · rw [heq]
    have hmono := roundHalfEven_mono (div_le_div_of_nonneg_right h (hpow (exponent y)).le)
    exact mul_le_mul_of_nonneg_right (by exact_mod_cast hmono) (hpow _).le

/-- Rounding keeps the order. -/
theorem nearest64_mono (h : x ≤ y) : nearest64 x ≤ nearest64 y := by
  rcases lt_or_ge 0 x with hx | hx
  · exact nearest64_mono_of_pos hx h
  rcases le_or_gt 0 y with hy | hy
  · have hneg := nearest64_nonneg (neg_nonneg.2 hx)
    rw [nearest64_neg] at hneg
    linarith [nearest64_nonneg hy]
  · have hneg := nearest64_mono_of_pos (neg_pos.2 hy) (neg_le_neg h)
    rwa [nearest64_neg, nearest64_neg, neg_le_neg_iff] at hneg

theorem exponent_two_mul (h : x ≠ 0) : exponent (2 * x) = exponent x + 1 := by
  have habs : 0 < |x| := abs_pos.2 h
  have hlo := Int.zpow_log_le_self (b := 2) (by norm_num) habs
  have hhi := Int.lt_zpow_succ_log_self (b := 2) (by norm_num) |x|
  rw [Nat.cast_ofNat] at hlo hhi
  have hlog : Int.log 2 (2 * |x|) = Int.log 2 |x| + 1 := by
    have hpos : 0 < 2 * |x| := by linarith
    refine le_antisymm (Int.lt_add_one_iff.1 ?_) ?_
    · rw [← Int.lt_zpow_iff_log_lt (by norm_num) hpos, Nat.cast_ofNat, zpow_add₀ (by norm_num), zpow_one]
      linarith
    · rw [← Int.zpow_le_iff_le_log (by norm_num) hpos, Nat.cast_ofNat, zpow_add₀ (by norm_num), zpow_one]
      linarith
  rw [exponent, exponent, abs_mul, abs_two, hlog]
  omega

/-- Twice a number is rounded to twice as much. -/
theorem nearest64_two_mul : nearest64 (2 * x) = 2 * nearest64 x := by
  by_cases h : x = 0
  · rw [h, mul_zero, nearest64_zero, mul_zero]
  · have hne : (2 : ℚ) ^ exponent x ≠ 0 := zpow_ne_zero _ (by norm_num)
    rw [nearest64, nearest64, if_neg h, if_neg (mul_ne_zero two_ne_zero h), exponent_two_mul h,
      zpow_add₀ (by norm_num), zpow_one, mul_comm _ (2 : ℚ), mul_div_mul_left _ _ two_ne_zero]
    ring

end

end NewApi.Binary64

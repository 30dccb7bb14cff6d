import Mathlib.Data.Rat.Floor
import Mathlib.Algebra.Order.Floor.Ring
import Mathlib.Tactic.Linarith
import Mathlib.Tactic.NormNum

/-!
# Machine integers and decimals

A signed 64-bit integer is an `Int` with its overflow written out (`wrap64`), and a decimal of
arbitrary precision is a rational: sums and products are exact, a quotient is rounded to sixteen
places (`divRound`), and only the conversions back to an integer lose digits (`intPart`,
`round`). A `float64` is represented by the decimal it prints as, so a conversion from it to a
decimal is the identity, and what its own arithmetic does is a parameter where it is used. Between
integers it is `float64`: the exact result, rounded to the nearest number of 53 binary digits.
-/

namespace NewApi

/-- The value a 64-bit register holds after the exact result `x`. -/
def wrap64 (x : Int) : Int := Int.bmod x (2 ^ 64)

/-- The value fits a signed 64-bit integer. -/
def Fits64 (x : Int) : Prop := -(2 ^ 63) ≤ x ∧ x < 2 ^ 63

instance {x : Int} : Decidable (Fits64 x) := inferInstanceAs (Decidable (_ ∧ _))

/-- What fits is not wrapped. -/
theorem wrap64_of_fits {x : Int} (h : Fits64 x) : wrap64 x = x := by
  obtain ⟨h₁, h₂⟩ := h
  exact Int.bmod_eq_of_le (by omega) (by omega)

/-- What is wrapped fits. -/
theorem fits_wrap64 (x : Int) : Fits64 (wrap64 x) := by
  have hlo := Int.le_bmod (x := x) (m := 2 ^ 64) (by decide)
  have hhi := Int.bmod_lt (x := x) (m := 2 ^ 64) (by decide)
  constructor
  · simpa [wrap64] using hlo
  · simpa [wrap64] using hhi

/-- Wrapping takes away a multiple of the number of values. -/
theorem exists_wrap64 (x : Int) : ∃ j, wrap64 x = x - 2 ^ 64 * j := by
  have hmod : (wrap64 x) % (2 ^ 64) = x % (2 ^ 64) := Int.bmod_emod
  exact ⟨(x - wrap64 x) / 2 ^ 64, by omega⟩

/-- The negation of a negative integer overflows just for the least one, and is that one then. -/
theorem wrap64_neg_cases {x : Int} (hfits : Fits64 x) (hneg : x < 0) :
    -(2 ^ 63) < x ∧ wrap64 (-x) = -x ∨ x = -(2 ^ 63) ∧ wrap64 (-x) < 0 := by
  obtain ⟨hlo, -⟩ := hfits
  by_cases hx : x = -(2 ^ 63)
  · rw [hx]
    exact .inr ⟨rfl, by decide⟩
  · refine .inl ⟨by omega, wrap64_of_fits ?_⟩
    constructor
    · omega
    · omega

/-- The `float64` that is nearest to an integer, the even one of two. -/
def float64 (n : Int) : Int :=
  if n.natAbs ≤ 2 ^ 53 then n
  else
    let ulp := 2 ^ (n.natAbs.log2 - 52)
    let quotient := n.natAbs / ulp
    let twice := 2 * (n.natAbs % ulp)
    let up := ulp < twice ∨ twice = ulp ∧ quotient % 2 = 1
    n.sign * ((if up then quotient + 1 else quotient) * ulp : Nat)

/-- Integers up to the fifty-third power of two are exact. -/
theorem float64_of_le {n : Int} (hlo : 0 ≤ n) (hhi : n ≤ 2 ^ 53) : float64 n = n := if_pos (by omega)

example : float64 (2 ^ 53 + 1) = 2 ^ 53 := by decide

namespace Decimal

/-- The integer part: the digits after the point are cut off. -/
def trunc (d : ℚ) : Int := d.num.tdiv d.den

/-- `IntPart`: the integer part as a 64-bit integer. -/
def intPart (d : ℚ) : Int := wrap64 (trunc d)

/-- `Round(0)`: the nearest integer, a half away from zero. -/
def round (d : ℚ) : Int := if 0 ≤ d then ⌊d + 1 / 2⌋ else -⌊-d + 1 / 2⌋

/-- `Div`: the quotient, rounded at the sixteenth place after the point. -/
def divRound (a b : ℚ) : ℚ := round (a / b * 10 ^ 16) / 10 ^ 16

@[simp] theorem trunc_intCast (n : Int) : trunc n = n := by simp [trunc]

@[simp] theorem intPart_zero : intPart 0 = 0 := by decide

/-- The integer part of an integer that fits is itself. -/
theorem intPart_intCast {n : Int} (h : Fits64 n) : intPart n = n := by
  rw [intPart, trunc_intCast, wrap64_of_fits h]

@[simp] theorem round_intCast (n : Int) : round n = n := by
  have half : (⌊(1 / 2 : ℚ)⌋ : Int) = 0 := by norm_num [Int.floor_eq_iff]
  unfold round
  split
  · rw [Int.floor_intCast_add, half, add_zero]
  · rw [← Int.cast_neg, Int.floor_intCast_add, half, add_zero, neg_neg]

theorem trunc_of_nonneg {d : ℚ} (h : 0 ≤ d) : trunc d = ⌊d⌋ := by
  rw [trunc, Rat.floor_def', Int.tdiv_eq_ediv_of_nonneg (Rat.num_nonneg.2 h)]

theorem trunc_neg (d : ℚ) : trunc (-d) = -trunc d := by
  rw [trunc, trunc, Rat.num_neg_eq_neg_num, Rat.den_neg_eq_den, Int.neg_tdiv]

/-- Cutting off changes a number by less than one. -/
theorem abs_sub_trunc_lt (d : ℚ) : |d - trunc d| < 1 := by
  have nonneg : ∀ d : ℚ, 0 ≤ d → |d - trunc d| < 1 := by
    intro d h
    rw [trunc_of_nonneg h, Int.self_sub_floor, Int.abs_fract]
    exact Int.fract_lt_one d
  rcases le_total 0 d with h | h
  · exact nonneg d h
  · have hneg := nonneg (-d) (neg_nonneg.2 h)
    rw [trunc_neg, Int.cast_neg, sub_neg_eq_add, neg_add_eq_sub, abs_sub_comm] at hneg
    exact hneg

/-- Cutting off makes no number larger. -/
theorem abs_trunc_le (d : ℚ) : |(trunc d : ℚ)| ≤ |d| := by
  have nonneg : ∀ d : ℚ, 0 ≤ d → |(trunc d : ℚ)| ≤ |d| := by
    intro d h
    have hfloor : (0 : ℚ) ≤ ⌊d⌋ := by exact_mod_cast Int.floor_nonneg.2 h
    rw [trunc_of_nonneg h, abs_of_nonneg h, abs_of_nonneg hfloor]
    exact Int.floor_le d
  rcases le_total 0 d with h | h
  · exact nonneg d h
  · have hneg := nonneg (-d) (neg_nonneg.2 h)
    rw [trunc_neg, Int.cast_neg, abs_neg, abs_neg] at hneg
    exact hneg

@[simp] theorem round_zero : round 0 = 0 := round_intCast 0

/-- Rounding changes a number by one half at most. -/
theorem abs_sub_round_le (d : ℚ) : |d - round d| ≤ 1 / 2 := by
  have half : ∀ d : ℚ, |d - ⌊d + 1 / 2⌋| ≤ 1 / 2 := by
    intro d
    have hle := Int.floor_le (d + 1 / 2)
    have hlt := Int.lt_floor_add_one (d + 1 / 2)
    rw [abs_le]
    constructor
    · linarith
    · linarith
  unfold round
  split
  · exact half d
  · have h := half (-d)
    rw [neg_sub_left, abs_neg] at h
    rw [Int.cast_neg, sub_neg_eq_add, add_comm]
    exact h

theorem round_of_nonneg {d : ℚ} (h : 0 ≤ d) : round d = ⌊d + 1 / 2⌋ := if_pos h

theorem round_neg (d : ℚ) : round (-d) = -round d := by
  rcases lt_trichotomy d 0 with h | rfl | h
  · rw [round_of_nonneg (by linarith), round, if_neg (by linarith), neg_neg]
  · rw [neg_zero, round_zero, neg_zero]
  · rw [round, if_neg (by linarith), neg_neg, round_of_nonneg h.le]

theorem round_nonneg {d : ℚ} (h : 0 ≤ d) : 0 ≤ round d := by
  rw [round_of_nonneg h]
  exact Int.floor_nonneg.2 (by linarith)

theorem round_nonpos {d : ℚ} (h : d ≤ 0) : round d ≤ 0 := by
  have hneg := round_nonneg (neg_nonneg.2 h)
  rw [round_neg] at hneg
  omega

/-- Rounding keeps the order. -/
theorem round_mono {d d' : ℚ} (h : d ≤ d') : round d ≤ round d' := by
  rcases le_total 0 d with hd | hd
  · rw [round_of_nonneg hd, round_of_nonneg (hd.trans h)]
    exact Int.floor_le_floor (by linarith)
  · rcases le_total 0 d' with hd' | hd'
    · exact (round_nonpos hd).trans (round_nonneg hd')
    · have hneg : round (-d') ≤ round (-d) := by
        rw [round_of_nonneg (neg_nonneg.2 hd), round_of_nonneg (neg_nonneg.2 hd')]
        exact Int.floor_le_floor (by linarith)
      rw [round_neg, round_neg] at hneg
      omega

/-- A number that is at most one half nearer to zero than an integer is rounded to it. -/
theorem round_eq_of_le {d : ℚ} {n : Int} (h0 : 0 ≤ d) (hlo : n - 1 / 2 ≤ d) (hhi : d ≤ n) : round d = n := by
  rw [round_of_nonneg h0, Int.floor_eq_iff]
  constructor
  · linarith
  · linarith

theorem divRound_neg_right (a b : ℚ) : divRound a (-b) = -divRound a b := by
  rw [divRound, divRound, div_neg, neg_mul, round_neg, Int.cast_neg, neg_div]

/-- A quotient is rounded by half a unit of the sixteenth place at most. -/
theorem abs_sub_divRound_le (a b : ℚ) : |a / b - divRound a b| ≤ 1 / (2 * 10 ^ 16) := by
  have h := abs_sub_round_le (a / b * 10 ^ 16)
  rw [divRound]
  rw [abs_le] at h ⊢
  constructor
  · linarith [h.1]
  · linarith [h.2]

/-- A rounded number is at most `n` in absolute value just when the number is below `n` and a half. -/
theorem abs_round_le_iff (d : ℚ) (n : Int) : |round d| ≤ n ↔ |d| < n + 1 / 2 := by
  have nonneg : ∀ d : ℚ, 0 ≤ d → (|⌊d + 1 / 2⌋| ≤ n ↔ |d| < n + 1 / 2) := by
    intro d h
    have hfloor : 0 ≤ ⌊d + 1 / 2⌋ := Int.floor_nonneg.2 (by linarith)
    rw [abs_of_nonneg hfloor, abs_of_nonneg h, ← Int.lt_add_one_iff, Int.floor_lt]
    push_cast
    constructor
    · intro hlt
      linarith
    · intro hlt
      linarith
  unfold round
  split
  · exact nonneg d ‹_›
  · rw [abs_neg, ← abs_neg d]
    exact nonneg (-d) (by linarith)

end Decimal

end NewApi

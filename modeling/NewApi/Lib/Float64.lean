import NewApi.Lib.Binary64

/-!
# The values of `float64`

`Binary64` rounds to numbers with an exponent of any size. The values of `float64` have one of eleven digits: numbers next to zero
have fewer digits, and those that are too large are infinite, from where there is a way to what is not a number. No operation here
tells the two zeros apart.
-/

namespace NewApi

open Binary64

/-- A value of `float64`. -/
inductive Float64
  | nan
  | infinite (negative : Bool)
  | finite (x : ℚ)
  deriving DecidableEq

namespace Float64

/-- The nearest number, where the last digit is not below that of the least exponent. -/
def nearest (x : ℚ) : ℚ := if |x| < 2 ^ (-1022 : Int) then roundHalfEven (x * 2 ^ 1074) / 2 ^ 1074 else nearest64 x

/-- The nearest value. -/
def ofRat (x : ℚ) : Float64 := if |nearest x| < 2 ^ 1024 then .finite (nearest x) else .infinite (x < 0)

/-- `x < 0`. -/
def isNeg : Float64 → Bool
  | nan => false
  | infinite negative => negative
  | finite x => x < 0

/-- The product. -/
def mul : Float64 → Float64 → Float64
  | nan, _ => nan
  | _, nan => nan
  | infinite negative, infinite negative' => .infinite (negative != negative')
  | infinite negative, finite y => if y = 0 then .nan else .infinite (negative != decide (y < 0))
  | finite x, infinite negative => if x = 0 then .nan else .infinite (decide (x < 0) != negative)
  | finite x, finite y => ofRat (x * y)

/-- The quotient by a positive number. -/
def divBy (d : ℚ) : Float64 → Float64
  | nan => nan
  | infinite negative => infinite negative
  | finite x => ofRat (x / d)

section
variable {x y d : ℚ} {a b : Float64}

theorem nearest_of_one_le (h : 1 ≤ |x|) : nearest x = nearest64 x := by
  refine if_neg (not_lt.2 ?_)
  have hle : (2 : ℚ) ^ (-1022 : Int) ≤ 1 := zpow_le_one_of_nonpos₀ (by norm_num) (by norm_num)
  exact hle.trans h

/-- Integers of up to 53 digits are exact. -/
theorem ofRat_intCast {n : Int} (h : |n| ≤ 2 ^ 53) : ofRat n = .finite n := by
  have hnearest : nearest n = n := by
    rcases eq_or_ne n 0 with rfl | hne
    · have hzero : roundHalfEven 0 = 0 := by exact_mod_cast roundHalfEven_intCast 0
      have hpow : (0 : ℚ) < 2 ^ (-1022 : Int) := zpow_pos (by norm_num) _
      rw [nearest, Int.cast_zero, if_pos (by rwa [abs_zero]), zero_mul, hzero, Int.cast_zero, zero_div]
    · have hone : 1 ≤ |(n : ℚ)| := by exact_mod_cast Int.one_le_abs hne
      rw [nearest_of_one_le hone, nearest64_intCast h]
  have habs : |(n : ℚ)| ≤ 2 ^ 53 := by exact_mod_cast h
  have hlt : |(n : ℚ)| < 2 ^ 1024 := habs.trans_lt (pow_lt_pow_right₀ (by norm_num) (by norm_num))
  rw [ofRat, hnearest, if_pos hlt]

end

end Float64

end NewApi

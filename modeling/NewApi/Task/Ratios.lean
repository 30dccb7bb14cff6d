import NewApi.Lib.Arith
import NewApi.Lib.Binary64
import NewApi.Lib.Table
import Mathlib.Algebra.BigOperators.Group.Multiset.Basic
import Mathlib.Data.List.Permutation
import Mathlib.Data.Multiset.Powerset
import Mathlib.Tactic.Ring

/-!
# Task quota under extra ratios

`RelayTaskSubmit` multiplies the quota of a task by its extra ratios one after another and cuts off the fraction after
each of them; `recalcQuotaFromRatios` divides them out again in the same way, and multiplies all of them in before it
cuts off. Each loop ranges over a map, so in any order. They agree where nothing is lost: the quota with each set of
the ratios is a whole number, and `float64` arithmetic reaches these from one another (`ratios_agree`). It is so where
the exact products are integers that `float64` holds (`charges_of_exact`).
-/

namespace NewApi.TaskRatios

open Binary64

/-- The extra ratios of a task, by name. -/
abbrev OtherRatios := Table (Prod.fst : String × ℚ → String)

/-- What the code takes from its machine: the conversion to `int` of a `float64` that is out of range. -/
structure Machine where
  outOfRange : ℚ → Int

section
variable (mach : Machine)

/-- `int(x)`. -/
def Machine.toInt (x : ℚ) : Int :=
  if Fits64 (Decimal.trunc x) then Decimal.trunc x else mach.outOfRange x

/-- One turn of the loop of `RelayTaskSubmit`. -/
def applyRatio (quota : Int) (ra : String × ℚ) : Int :=
  if ra.2 ≠ 1 then mach.toInt (nearest64 (nearest64 quota * ra.2)) else quota

/-- The quota `RelayTaskSubmit` charges beforehand, with the ratios in the order they are ranged over. -/
def submitQuota (taskPricePatches : List String) (modelName : String) (order : List (String × ℚ)) (quota : Int) : Int :=
  if modelName ∉ taskPricePatches then order.foldl (applyRatio mach) quota else quota

/-- One turn of the first loop of `recalcQuotaFromRatios`. -/
def divideRatio (baseQuota : Int) (ra : String × ℚ) : Int :=
  if ra.2 ≠ 1 ∧ 0 < ra.2 then mach.toInt (nearest64 (nearest64 baseQuota / ra.2)) else baseQuota

/-- One turn of its second loop. -/
def multiplyRatio (result : ℚ) (ra : String × ℚ) : ℚ :=
  if ra.2 ≠ 1 then nearest64 (result * ra.2) else result

/-- `recalcQuotaFromRatios`, with the orders that the old and the new ratios are ranged over in. -/
def recalcQuotaFromRatios (quota : Int) (otherRatios ratios : List (String × ℚ)) : Int :=
  let baseQuota := otherRatios.foldl (divideRatio mach) quota
  mach.toInt (ratios.foldl multiplyRatio (nearest64 baseQuota))

end

/-- The charge does not depend on the order, and is what a recalculation with the same ratios gives, in any order. -/
def RatiosAgree (mach : Machine) (taskPricePatches : List String) (modelName : String) (ratios : OtherRatios)
    (quota : Int) : Prop :=
  ∀ l, l.Perm ratios.rows → ∀ l', l'.Perm ratios.rows →
    submitQuota mach taskPricePatches modelName l quota = submitQuota mach taskPricePatches modelName l' quota ∧
      ∀ m, m.Perm ratios.rows → ∀ m', m'.Perm ratios.rows →
        recalcQuotaFromRatios mach (submitQuota mach taskPricePatches modelName l quota) m m' =
          submitQuota mach taskPricePatches modelName l quota

/-- The charges with each set of the ratios: whole numbers that `float64` arithmetic reaches from one another, by
multiplying a ratio in and by dividing it out. -/
structure Charges (ratios : Multiset (String × ℚ)) (charge : Multiset (String × ℚ) → Int) : Prop where
  fits : ∀ S, S ≤ ratios → Fits64 (charge S)
  float : ∀ S, S ≤ ratios → nearest64 (charge S) = charge S
  multiply : ∀ ra S, ra ::ₘ S ≤ ratios → ra.2 ≠ 1 → nearest64 (charge S * ra.2) = charge (ra ::ₘ S)
  divide : ∀ ra S, ra ::ₘ S ≤ ratios → ra.2 ≠ 1 → nearest64 (charge (ra ::ₘ S) / ra.2) = charge S
  one : ∀ ra S, ra ::ₘ S ≤ ratios → ra.2 = 1 → charge (ra ::ₘ S) = charge S

/-- Nothing is lost: there are such charges, from the quota without ratios; for a model that is patched, to it. -/
def Lossless (taskPricePatches : List String) (modelName : String) (ratios : OtherRatios) (quota : Int) : Prop :=
  ∃ charge, Charges ratios.rows charge ∧
    charge (if modelName ∉ taskPricePatches then 0 else (ratios.rows : Multiset (String × ℚ))) = quota

/-! ## Runs of the loops that lose nothing -/

section
variable {mach : Machine} {ratios : Multiset (String × ℚ)} {charge : Multiset (String × ℚ) → Int}
  {l l' : List (String × ℚ)} {S : Multiset (String × ℚ)} {ra : String × ℚ} {n : Int}

theorem Machine.toInt_intCast (h : Fits64 n) : mach.toInt n = n := by
  rw [Machine.toInt, Decimal.trunc_intCast, if_pos h]

theorem coe_cons_add : ((ra :: l : List (String × ℚ)) : Multiset (String × ℚ)) + S = l + ra ::ₘ S := by
  rw [← Multiset.cons_coe, Multiset.cons_add, Multiset.add_cons]

theorem Charges.applyRatio (h : Charges ratios charge) (hle : ra ::ₘ S ≤ ratios) :
    applyRatio mach (charge S) ra = charge (ra ::ₘ S) := by
  have hS : S ≤ ratios := (Multiset.le_cons_self S ra).trans hle
  rw [TaskRatios.applyRatio]
  split
  next hne => rw [h.float S hS, h.multiply ra S hle hne, Machine.toInt_intCast (h.fits _ hle)]
  next h1 => exact (h.one ra S hle (not_not.1 h1)).symm

theorem Charges.multiplyRatio (h : Charges ratios charge) (hle : ra ::ₘ S ≤ ratios) :
    multiplyRatio (charge S) ra = charge (ra ::ₘ S) := by
  rw [TaskRatios.multiplyRatio]
  split
  next hne => exact h.multiply ra S hle hne
  next h1 => rw [h.one ra S hle (not_not.1 h1)]

theorem Charges.divideRatio (h : Charges ratios charge) (hpos : 0 < ra.2) (hle : ra ::ₘ S ≤ ratios) :
    divideRatio mach (charge (ra ::ₘ S)) ra = charge S := by
  have hS : S ≤ ratios := (Multiset.le_cons_self S ra).trans hle
  rw [TaskRatios.divideRatio]
  split
  next hne => rw [h.float _ hle, h.divide ra S hle hne.1, Machine.toInt_intCast (h.fits S hS)]
  next h1 => exact h.one ra S hle (not_not.1 fun hne => h1 ⟨hne, hpos⟩)

theorem Charges.foldl_applyRatio (h : Charges ratios charge) (hle : l + S ≤ ratios) :
    l.foldl (TaskRatios.applyRatio mach) (charge S) = charge (l + S) := by
  induction l generalizing S with
  | nil => simp
  | cons ra l ih =>
    rw [coe_cons_add] at hle ⊢
    rw [List.foldl_cons, h.applyRatio ((Multiset.le_add_left _ _).trans hle)]
    exact ih hle

theorem Charges.foldl_multiplyRatio (h : Charges ratios charge) (hle : l + S ≤ ratios) :
    l.foldl TaskRatios.multiplyRatio (charge S) = charge (l + S) := by
  induction l generalizing S with
  | nil => simp
  | cons ra l ih =>
    rw [coe_cons_add] at hle ⊢
    rw [List.foldl_cons, h.multiplyRatio ((Multiset.le_add_left _ _).trans hle)]
    exact ih hle

theorem Charges.foldl_divideRatio (h : Charges ratios charge) (hpos : ∀ ra ∈ ratios, 0 < ra.2) (hle : l + S ≤ ratios) :
    l.foldl (TaskRatios.divideRatio mach) (charge (l + S)) = charge S := by
  induction l with
  | nil => simp
  | cons ra l ih =>
    rw [← Multiset.cons_coe, Multiset.cons_add] at hle ⊢
    rw [List.foldl_cons, h.divideRatio (hpos ra (Multiset.mem_of_le hle (Multiset.mem_cons_self _ _))) hle]
    exact ih ((Multiset.le_cons_self _ _).trans hle)

theorem Charges.recalcQuotaFromRatios (h : Charges ratios charge) (hpos : ∀ ra ∈ ratios, 0 < ra.2)
    (hl : (l : Multiset (String × ℚ)) = ratios) (hl' : (l' : Multiset (String × ℚ)) = ratios) :
    recalcQuotaFromRatios mach (charge ratios) l l' = charge ratios := by
  have hdivide : l.foldl (TaskRatios.divideRatio mach) (charge ratios) = charge 0 := by
    have := @Charges.foldl_divideRatio mach ratios charge l 0 h hpos (by rw [add_zero, hl])
    rwa [add_zero, hl] at this
  have hmultiply : l'.foldl TaskRatios.multiplyRatio (charge 0) = charge ratios := by
    have := @Charges.foldl_multiplyRatio ratios charge l' 0 h (by rw [add_zero, hl'])
    rwa [add_zero, hl'] at this
  rw [TaskRatios.recalcQuotaFromRatios, hdivide, h.float 0 (Multiset.zero_le _), hmultiply,
    Machine.toInt_intCast (h.fits _ le_rfl)]

end

/-! ## The condition is enough -/

section
variable {mach : Machine} {taskPricePatches : List String} {modelName : String} {ratios : OtherRatios} {quota : Int}

theorem Charges.submitQuota {charge : Multiset (String × ℚ) → Int} (h : Charges ratios.rows charge)
    {l : List (String × ℚ)} (hl : l.Perm ratios.rows) :
    submitQuota mach taskPricePatches modelName l
        (charge (if modelName ∉ taskPricePatches then 0 else (ratios.rows : Multiset (String × ℚ)))) =
      charge ratios.rows := by
  have hcoe : (l : Multiset (String × ℚ)) = ratios.rows := Multiset.coe_eq_coe.2 hl
  rw [TaskRatios.submitQuota]
  split
  next =>
    have := @Charges.foldl_applyRatio mach ratios.rows charge l 0 h (by rw [add_zero, hcoe])
    rwa [add_zero, hcoe] at this
  next => rfl

/-- Where nothing is lost, the charge does not depend on the order, and a recalculation gives it back. -/
theorem ratios_agree (hpos : ∀ ra ∈ ratios.rows, 0 < ra.2) (h : Lossless taskPricePatches modelName ratios quota) :
    RatiosAgree mach taskPricePatches modelName ratios quota := by
  obtain ⟨charge, h, rfl⟩ := h
  intro l hl l' hl'
  rw [h.submitQuota hl, h.submitQuota hl']
  refine ⟨rfl, fun m hm m' hm' => ?_⟩
  exact h.recalcQuotaFromRatios (by simpa using hpos) (Multiset.coe_eq_coe.2 hm) (Multiset.coe_eq_coe.2 hm')

end

/-! ## Exact products -/

/-- A number is an integer that an `int` and a `float64` hold. -/
def Exact64 (x : ℚ) : Prop := ∃ n : Int, x = n ∧ Fits64 n ∧ nearest64 n = n

/-- The product of some ratios. -/
def product (S : Multiset (String × ℚ)) : ℚ := (S.map Prod.snd).prod

section
variable {ratios : Multiset (String × ℚ)} {S : Multiset (String × ℚ)} {ra : String × ℚ} {quota n : Int}

theorem exact64_of_le (h : |n| ≤ 2 ^ 53) : Exact64 n := by
  have := abs_le.1 h
  exact ⟨n, rfl, ⟨by omega, by omega⟩, nearest64_intCast h⟩

@[simp] theorem product_zero : product 0 = 1 := by simp [product]

@[simp] theorem product_cons : product (ra ::ₘ S) = ra.2 * product S := by simp [product]

theorem charges_of_exact (hpos : ∀ ra ∈ ratios, 0 < ra.2) (h : ∀ S, S ≤ ratios → Exact64 (quota * product S)) :
    Charges ratios fun S => Decimal.trunc (quota * product S) := by
  have hcast : ∀ S, S ≤ ratios → ((Decimal.trunc (quota * product S) : Int) : ℚ) = quota * product S := by
    intro S hS
    obtain ⟨n, hn, -⟩ := h S hS
    rw [hn, Decimal.trunc_intCast]
  have hfloat : ∀ S, S ≤ ratios → nearest64 (quota * product S) = quota * product S := by
    intro S hS
    obtain ⟨n, hn, -, hnear⟩ := h S hS
    rw [hn, hnear]
  refine ⟨fun S hS => ?_, fun S hS => ?_, fun ra S hle _ => ?_, fun ra S hle _ => ?_, fun ra S hle h1 => ?_⟩
  · obtain ⟨n, hn, hfits, -⟩ := h S hS
    rwa [hn, Decimal.trunc_intCast]
  · rw [hcast S hS, hfloat S hS]
  · have hS := (Multiset.le_cons_self S ra).trans hle
    have hmul : (quota : ℚ) * product S * ra.2 = quota * product (ra ::ₘ S) := by
      rw [product_cons]
      ring
    rw [hcast S hS, hcast _ hle, hmul, hfloat _ hle]
  · have hS := (Multiset.le_cons_self S ra).trans hle
    have hne : ra.2 ≠ 0 := (hpos ra (Multiset.mem_of_le hle (Multiset.mem_cons_self _ _))).ne'
    have hdiv : (quota : ℚ) * product (ra ::ₘ S) / ra.2 = quota * product S := by
      rw [product_cons, mul_left_comm, mul_div_cancel_left₀ _ hne]
    rw [hcast S hS, hcast _ hle, hdiv, hfloat S hS]
  · rw [product_cons, h1, one_mul]

end

/-- A machine that gives the least integer for what is out of range. -/
def leastMachine : Machine := ⟨fun _ => -(2 ^ 63)⟩

/-- A duration and a size. -/
def secondsAndSize : OtherRatios := ⟨[("seconds", 6), ("size", 3 / 2)], by decide⟩

/-- A charge of ten with them. -/
theorem ratios_agree_secondsAndSize : RatiosAgree leastMachine [] "sora-2" secondsAndSize 10 := by
  have hpos : ∀ ra ∈ secondsAndSize.rows, 0 < ra.2 := by decide +kernel
  have hcharges : Charges secondsAndSize.rows fun S => Decimal.trunc ((10 : Int) * product S) := by
    refine charges_of_exact (by simpa using hpos) fun S hS => ?_
    have hpow : Multiset.powerset (secondsAndSize.rows : Multiset (String × ℚ)) =
        {0, {("seconds", 6)}, {("size", 3 / 2)}, (secondsAndSize.rows : Multiset (String × ℚ))} := rfl
    have hsmall : ∀ n ∈ [10, 60, 15, (90 : Int)], |n| ≤ 2 ^ 53 := by decide
    have hproduct : ∃ n ∈ [10, 60, 15, (90 : Int)], ((10 : Int) : ℚ) * product S = n := by
      have hS' := Multiset.mem_powerset.2 hS
      rw [hpow] at hS'
      simp only [Multiset.insert_eq_cons, Multiset.mem_cons, Multiset.mem_singleton] at hS'
      rcases hS' with rfl | rfl | rfl | rfl <;> norm_num [product, secondsAndSize]
    obtain ⟨n, hn, heq⟩ := hproduct
    rw [heq]
    exact exact64_of_le (hsmall n hn)
  refine ratios_agree hpos ⟨_, hcharges, ?_⟩
  rw [if_pos (List.not_mem_nil), product_zero, mul_one, Decimal.trunc_intCast]

/-- Two ratios that give a different charge in each order. -/
def halfAndMore : OtherRatios := ⟨[("a", 3 / 2), ("b", 1 / 2)], by decide⟩

theorem submitQuota_halfAndMore :
    submitQuota leastMachine [] "sora-2" [("a", 3 / 2), ("b", 1 / 2)] 3 = 2 ∧
      submitQuota leastMachine [] "sora-2" [("b", 1 / 2), ("a", 3 / 2)] 3 = 1 := by
  decide +kernel

theorem recalcQuotaFromRatios_halfAndMore :
    recalcQuotaFromRatios leastMachine 2 [("a", 3 / 2), ("b", 1 / 2)] [("a", 3 / 2), ("b", 1 / 2)] = 1 ∧
      recalcQuotaFromRatios leastMachine 1 [("a", 3 / 2), ("b", 1 / 2)] [("a", 3 / 2), ("b", 1 / 2)] = 0 := by
  decide +kernel

/-- The charge depends on the order, and in either order the recalculation does not give it back. -/
theorem halfAndMore_disagree : ¬ RatiosAgree leastMachine [] "sora-2" halfAndMore 3 ∧
    ∀ l, l.Perm halfAndMore.rows → recalcQuotaFromRatios leastMachine (submitQuota leastMachine [] "sora-2" l 3)
      halfAndMore.rows halfAndMore.rows ≠ submitQuota leastMachine [] "sora-2" l 3 := by
  refine ⟨fun h => ?_, fun l hl => ?_⟩
  · have heq := (h halfAndMore.rows (List.Perm.refl _) [("b", 1 / 2), ("a", 3 / 2)] (List.Perm.swap _ _ _)).1
    rw [show halfAndMore.rows = [("a", 3 / 2), ("b", 1 / 2)] from rfl, submitQuota_halfAndMore.1,
      submitQuota_halfAndMore.2] at heq
    cases heq
  · rcases List.perm_pair.1 hl with rfl | rfl
    · rw [submitQuota_halfAndMore.1]
      exact fun h => by cases recalcQuotaFromRatios_halfAndMore.1.symm.trans h
    · rw [submitQuota_halfAndMore.2]
      exact fun h => by cases recalcQuotaFromRatios_halfAndMore.2.symm.trans h

end NewApi.TaskRatios

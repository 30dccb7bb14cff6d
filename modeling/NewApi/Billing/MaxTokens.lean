import NewApi.Billing.Atomic
import NewApi.Billing.Prices
import NewApi.Lib.Binary64

/-!
# The limit of an answer's tokens, and what it pre-consumes

A client limits the tokens of the answer by an unsigned number of 64 bits. `ModelPriceHelper` adds it, as an int, to
the estimate of the prompt, and multiplies the sum by ratios that are `float64`; the product is cut off to an int
again, which `PreConsumeBilling` takes in advance. Only one field of one format is checked to be small.

What is pre-consumed is not negative, and covers what the answer may cost, exactly where the tokens and their price
fit 64 bits, or the ratios are so small that all of them cost less than two units (`preConsumption_sound_iff`). No
session credits a wallet, a token or a subscription, whatever it is made for (`session_noCredit`).
-/

namespace NewApi.Billing.MaxTokens

open Atomic Binary64
open Wallet (Refusal)

/-! ## The limit -/

/-- The requests, by their format, with what they limit the answer to. -/
inductive Request
  | openAI (maxTokens maxCompletionTokens : Option UInt64)
  | claude (maxTokens : Option UInt64)
  | gemini (maxOutputTokens : Option UInt64)
  | responses (maxOutputTokens : Option UInt64)
  | image (imagePriceRatio : ℚ)
  | other

/-- `TokenCountMeta`, as far as prices depend on it. -/
structure TokenCountMeta where
  maxTokens : Int
  imagePriceRatio : ℚ

/-- The conversion of a `uint` to an `int`. -/
def intOfUint (u : UInt64) : Int := wrap64 u.toNat

namespace Request

/-- The checks of `GetAndValidateRequest` on the limit. -/
def validate : Request → Except String Unit
  | .openAI maxTokens _ => if maxTokens.getD 0 > 2147483647 / 2 then .error "max_tokens is invalid" else .ok ()
  | _ => .ok ()

/-- The limit, before it is converted. Where no tokens are counted, Gemini's is not looked at. -/
def limit (counts : Bool) : Request → UInt64
  | .openAI maxTokens maxCompletionTokens =>
    if maxCompletionTokens.getD 0 > maxTokens.getD 0 then maxCompletionTokens.getD 0 else maxTokens.getD 0
  | .claude maxTokens => maxTokens.getD 0
  | .gemini maxOutputTokens => if counts then maxOutputTokens.getD 0 else 0
  | .responses maxOutputTokens => maxOutputTokens.getD 0
  | .image _ => 1584
  | .other => 0

def imagePriceRatio : Request → ℚ
  | .image ratio => ratio
  | _ => 0

/-- `GetTokenCountMeta`, or `fastTokenCountMetaForPricing` where no tokens are counted. -/
def tokenCountMeta (counts : Bool) (request : Request) : TokenCountMeta :=
  { maxTokens := intOfUint (request.limit counts), imagePriceRatio := request.imagePriceRatio }

end Request

/-! ## The price -/

/-- The product of two `float64`. -/
def mul64 (a b : ℚ) : ℚ := nearest64 (a * b)

/-- The conversion of a `float64` to an `int`: the digits after the point are cut off, and where the rest does not fit
the least integer comes of it, as on amd64. -/
def int64 (x : ℚ) : Int := if Fits64 (Decimal.trunc x) then Decimal.trunc x else -(2 ^ 63)

/-- `QuotaRound`. -/
def quotaRound (x : ℚ) : Int := int64 (Decimal.round x)

/-- The settings of `ModelPriceHelper`: which models an expression prices, and the run of it on the tokens of the
prompt and of the answer and on the length of the prompt, which may fail. -/
structure Setting extends PriceSetting where
  tieredExpr : String → Bool
  runExpr : String → ℚ → ℚ → ℚ → Option ℚ

/-- The part of `PriceData` that decides on the pre-consumption. -/
structure Estimate where
  quotaToPreConsume : Int
  freeModel : Bool

section
variable (setting : Setting) (info : RealtimeInfo)

/-- The price of a call, where it is fixed. -/
def callPrice (groupRatio price imagePriceRatio : ℚ) : ℚ :=
  let modelPrice := if imagePriceRatio ≠ 0 then mul64 price imagePriceRatio else price
  mul64 (mul64 modelPrice setting.quotaPerUnit) groupRatio

/-- The price of tokens. -/
def tokenPrice (modelRatio groupRatio : ℚ) (tokens : Int) : ℚ :=
  mul64 (nearest64 tokens) (mul64 modelRatio groupRatio)

/-- The price that the expression gives. -/
def exprPrice (groupRatio : ℚ) (promptTokens maxTokens : Int) : Option ℚ :=
  (setting.runExpr info.originModelName (nearest64 promptTokens) (nearest64 maxTokens) (nearest64 promptTokens)).map
    fun rawCost => mul64 (mul64 (nearest64 (rawCost / 1000000)) setting.quotaPerUnit) groupRatio

/-- `modelPriceHelperTiered`. -/
def modelPriceHelperTiered (groupRatio : ℚ) (promptTokens : Int) (tokenMeta : TokenCountMeta) : Option Estimate :=
  match exprPrice setting info groupRatio promptTokens tokenMeta.maxTokens with
  | none => none
  | some price =>
    let free : Bool := ¬ setting.enableFreeModelPreConsume ∧ groupRatio = 0
    some { quotaToPreConsume := if free then 0 else quotaRound price, freeModel := free }

/-- `ModelPriceHelper`. -/
def modelPriceHelper (acceptUnsetRatio : Bool) (promptTokens : Int) (tokenMeta : TokenCountMeta) : Option Estimate :=
  let groupRatio := handleGroupRatio setting.toRatioSetting info
  if setting.tieredExpr info.originModelName then
    modelPriceHelperTiered setting info groupRatio promptTokens tokenMeta
  else
    match setting.getModelPrice info.originModelName with
    | some price =>
      let modelPrice := if tokenMeta.imagePriceRatio ≠ 0 then mul64 price tokenMeta.imagePriceRatio else price
      let free := freeOf setting.toPriceSetting groupRatio modelPrice
      some
        { quotaToPreConsume :=
            if free then 0 else int64 (callPrice setting groupRatio price tokenMeta.imagePriceRatio)
          freeModel := free }
    | none =>
      if setting.modelRatioSet info.originModelName ∨ acceptUnsetRatio then
        let preConsumedTokens := max promptTokens setting.preConsumedQuota
        let preConsumedTokens :=
          if tokenMeta.maxTokens ≠ 0 then wrap64 (preConsumedTokens + tokenMeta.maxTokens) else preConsumedTokens
        let modelRatio := setting.modelRatio info.originModelName
        let free := freeOf setting.toPriceSetting groupRatio modelRatio
        some
          { quotaToPreConsume := if free then 0 else int64 (tokenPrice modelRatio groupRatio preConsumedTokens)
            freeModel := free }
      else none

/-! ## What a request should pre-consume -/

/-- The cost that is estimated for a request: the same price, of tokens that are counted by integers of any size. -/
def trueCost (acceptUnsetRatio counts : Bool) (promptTokens : Int) (request : Request) : Option Int :=
  let groupRatio := handleGroupRatio setting.toRatioSetting info
  let limit : Int := (request.limit counts).toNat
  if setting.tieredExpr info.originModelName then
    (exprPrice setting info groupRatio promptTokens limit).map Decimal.round
  else
    match setting.getModelPrice info.originModelName with
    | some price => some (Decimal.trunc (callPrice setting groupRatio price request.imagePriceRatio))
    | none =>
      if setting.modelRatioSet info.originModelName ∨ acceptUnsetRatio then
        some (Decimal.trunc (tokenPrice (setting.modelRatio info.originModelName) groupRatio
          (max promptTokens setting.preConsumedQuota + limit)))
      else none

end

/-- No wallet and no token has more than before, and no subscription has used less, unless its reset time has come. -/
structure NoCredit (cal : Calendar) (env : BillingEnv) (s s' : Store) : Prop where
  wallet : ∀ id, ∃ x, 0 ≤ x ∧ s'.walletOf id = (s.walletOf id).map (· - x)
  token : ∀ id, ∃ x, 0 ≤ x ∧ s'.remainOf id = (s.remainOf id).map (· - x)
  subscription : ∀ id, s.subscriptions.usedOf id ≤ s'.subscriptions.usedOf id ∨
    ∃ sub, s.subscriptions.subs.get? id = some sub ∧ Resets cal env.planById env.now sub

/-- The session's source affords a cost: the balance that was read of the wallet does, or the subscription has given
as much. -/
def Affords (env : Atomic.Env) (info : RelayInfo) (store : Store) (cost : Int) (session : BillingSession) : Prop :=
  match session.funding with
  | .wallet _ => ∀ userQuota, Wallet.getUserQuota env.wallet info.userId store = some userQuota → Fits64 userQuota →
      cost ≤ userQuota
  | .subscription _ => cost ≤ session.preConsumedQuota

/-- The estimate of a request is sound: it is not negative, and where it is passed to `PreConsumeBilling`, nothing is
credited, and no request is admitted that costs more than its source affords. -/
structure Sound (cal : Calendar) (estimate : Estimate) (cost : Option Int) : Prop where
  nonneg : 0 ≤ estimate.quotaToPreConsume
  noCredit : estimate.freeModel = false → ∀ env info store,
    NoCredit cal env.subscription store
      (newBillingSession cal env (some info) estimate.quotaToPreConsume store).2
  affords : estimate.freeModel = false → ∀ env info store session,
    (newBillingSession cal env (some info) estimate.quotaToPreConsume store).1 = .ok session →
      ∀ c ∈ cost, Affords env info store c session

/-- What a request that is valid and priced pre-consumes is sound. -/
def PreConsumesSoundly (cal : Calendar) (setting : Setting) (info : RealtimeInfo) (acceptUnsetRatio counts : Bool)
    (promptTokens : Int) (request : Request) : Prop :=
  request.validate = .ok () → ∀ estimate,
    modelPriceHelper setting info acceptUnsetRatio promptTokens (request.tokenCountMeta counts) = some estimate →
      Sound cal estimate (trueCost setting info acceptUnsetRatio counts promptTokens request)

/-! ## The condition -/

/-- The tokens and their price fit, or they cost less than two, and what they are short of `2 ^ 64` less than one. -/
def TokensInRange (price : Int → ℚ) (tokens : Int) : Prop :=
  tokens < 2 ^ 63 ∧ price tokens < 2 ^ 63 ∨
    2 ^ 63 ≤ tokens ∧ price tokens < 2 ∧ price (2 ^ 64 - tokens) < 1

/-- The expression prices what becomes of the limit within the range, and the limit no higher or below one and a half
units. -/
def ExprInRange (price : Int → Option ℚ) (limit : UInt64) : Prop :=
  ∀ x, price (intOfUint limit) = some x → -1 / 2 < x ∧ x < 2 ^ 63 - 1 / 2 ∧
    ∀ y, price limit.toNat = some y → y < 3 / 2 ∨ Decimal.round y ≤ Decimal.round x

/-- The condition on a request, by how its model is priced. -/
def InRange (setting : Setting) (info : RealtimeInfo) (acceptUnsetRatio counts : Bool) (promptTokens : Int)
    (request : Request) : Prop :=
  let groupRatio := handleGroupRatio setting.toRatioSetting info
  request.validate = .ok () →
    if setting.tieredExpr info.originModelName then
      ExprInRange (exprPrice setting info groupRatio promptTokens) (request.limit counts)
    else
      match setting.getModelPrice info.originModelName with
      | some price => callPrice setting groupRatio price request.imagePriceRatio < 2 ^ 63
      | none => setting.modelRatioSet info.originModelName ∨ acceptUnsetRatio →
          TokensInRange (tokenPrice (setting.modelRatio info.originModelName) groupRatio)
            (max promptTokens setting.preConsumedQuota + (request.limit counts).toNat)

/-- The prices and ratios of a model are not negative, and the least estimate is an `int`. -/
structure Setting.Nonneg (setting : Setting) (info : RealtimeInfo) : Prop where
  groupRatio : 0 ≤ handleGroupRatio setting.toRatioSetting info
  modelRatio : 0 ≤ setting.modelRatio info.originModelName
  modelPrice : ∀ price, setting.getModelPrice info.originModelName = some price → 0 ≤ price
  quotaPerUnit : 0 ≤ setting.quotaPerUnit
  preConsumedQuota : Fits64 setting.preConsumedQuota

/-! ## Prices -/

section
variable {a b x y : ℚ}

theorem mul64_nonneg (ha : 0 ≤ a) (hb : 0 ≤ b) : 0 ≤ mul64 a b := nearest64_nonneg (mul_nonneg ha hb)

@[simp] theorem mul64_zero : mul64 a 0 = 0 := by rw [mul64, mul_zero, nearest64_zero]

@[simp] theorem zero_mul64 : mul64 0 a = 0 := by rw [mul64, zero_mul, nearest64_zero]

theorem fits_int64 (x : ℚ) : Fits64 (int64 x) := by
  unfold int64
  split
  next h => exact h
  next => exact ⟨by norm_num, by norm_num⟩

theorem fits_of_int64_nonneg (h : 0 ≤ int64 x) : Fits64 (Decimal.trunc x) := by
  unfold int64 at h
  split at h
  next hfits => exact hfits
  next => omega

theorem int64_of_fits (h : Fits64 (Decimal.trunc x)) : int64 x = Decimal.trunc x := if_pos h

theorem covered_iff_of_nonneg (h : 0 ≤ x) :
    (0 ≤ int64 x ∧ Decimal.trunc x ≤ max 1 (int64 x)) ↔ x < 2 ^ 63 := by
  have hnonneg : 0 ≤ Decimal.trunc x := by
    rw [Decimal.trunc_of_nonneg h]
    exact Int.floor_nonneg.2 h
  constructor
  · rintro ⟨hpos, -⟩
    have hlt := (fits_of_int64_nonneg hpos).2
    rw [Decimal.trunc_of_nonneg h, Int.floor_lt] at hlt
    exact_mod_cast hlt
  · intro hlt
    have hfloor : Decimal.trunc x < 2 ^ 63 := by
      rw [Decimal.trunc_of_nonneg h, Int.floor_lt]
      exact_mod_cast hlt
    rw [int64_of_fits ⟨by omega, hfloor⟩]
    exact ⟨hnonneg, le_max_right _ _⟩

theorem trunc_neg_iff : 0 ≤ Decimal.trunc x ↔ -1 < x := by
  rcases le_or_gt 0 x with h | h
  · rw [Decimal.trunc_of_nonneg h, Int.floor_nonneg]
    exact ⟨fun _ => by linarith, fun _ => h⟩
  · have hneg : Decimal.trunc x = -⌊-x⌋ := by
      rw [← Decimal.trunc_of_nonneg (neg_nonneg.2 h.le), Decimal.trunc_neg, neg_neg]
    rw [hneg, Left.nonneg_neg_iff]
    constructor
    · intro hle
      have hlt : ⌊-x⌋ < 1 := by omega
      rw [Int.floor_lt, Int.cast_one] at hlt
      linarith
    · intro hlt
      have hlt' : ⌊-x⌋ < 1 := by
        rw [Int.floor_lt, Int.cast_one]
        linarith
      omega

/-- The price of wrapped tokens covers that of the tokens just where there is next to nothing to pay: twice the first
is no more than the second. -/
theorem covered_iff_of_wrapped (habs : |x| ≤ y) (hdouble : 0 ≤ x → 2 * x ≤ y) :
    (0 ≤ int64 x ∧ Decimal.trunc y ≤ max 1 (int64 x)) ↔ y < 2 ∧ -1 < x := by
  have hy : 0 ≤ y := (abs_nonneg x).trans habs
  have hfloor : Decimal.trunc y = ⌊y⌋ := Decimal.trunc_of_nonneg hy
  rw [abs_le] at habs
  constructor
  · rintro ⟨hpos, hle⟩
    have hfits : Fits64 (Decimal.trunc x) := fits_of_int64_nonneg hpos
    rw [int64_of_fits hfits] at hpos hle
    refine ⟨?_, trunc_neg_iff.1 hpos⟩
    rcases lt_or_ge x 1 with hx | hx
    · have hsmall : Decimal.trunc x ≤ 0 := by
        rcases le_or_gt 0 x with h0 | h0
        · have hlt : ⌊x⌋ < 1 := by
            rw [Int.floor_lt, Int.cast_one]
            exact hx
          rw [Decimal.trunc_of_nonneg h0]
          omega
        · have hneg := Int.floor_nonneg.2 (neg_nonneg.2 h0.le)
          rw [← Decimal.trunc_of_nonneg (neg_nonneg.2 h0.le), Decimal.trunc_neg] at hneg
          omega
      have hlt : ⌊y⌋ < 2 := by omega
      rw [Int.floor_lt] at hlt
      exact_mod_cast hlt
    · -- from a unit on, twice as much is more than one can cover
      have h0 : 0 ≤ x := by linarith
      rw [Decimal.trunc_of_nonneg h0, hfloor] at hle
      have hone : 1 ≤ ⌊x⌋ := by
        rw [Int.le_floor, Int.cast_one]
        exact hx
      have htwo : 2 * ⌊x⌋ ≤ ⌊y⌋ := by
        rw [Int.le_floor]
        push_cast
        linarith [Int.floor_le x, hdouble h0]
      omega
  · rintro ⟨hlt, hgt⟩
    have hnonneg : 0 ≤ Decimal.trunc x := trunc_neg_iff.2 hgt
    have hbound : |(Decimal.trunc x : ℚ)| ≤ |x| := Decimal.abs_trunc_le x
    have hx : |x| < 2 := by
      rw [abs_lt]
      constructor
      · linarith
      · linarith
    have hsmall : Decimal.trunc x < 2 := by
      have := (le_abs_self _).trans_lt (hbound.trans_lt hx)
      exact_mod_cast this
    rw [int64_of_fits ⟨by omega, by omega⟩]
    have hcost : ⌊y⌋ < 2 := by
      rw [Int.floor_lt]
      exact_mod_cast hlt
    exact ⟨hnonneg, by omega⟩

/-- A price is rounded to an integer that is not negative, and fits, just within these bounds. -/
theorem quotaRound_nonneg_iff : 0 ≤ quotaRound x ↔ -1 / 2 < x ∧ x < 2 ^ 63 - 1 / 2 := by
  have htrunc : Decimal.trunc (Decimal.round x : ℚ) = Decimal.round x := Decimal.trunc_intCast _
  constructor
  · intro h
    have hfits := fits_of_int64_nonneg h
    unfold quotaRound at h
    rw [int64_of_fits hfits, htrunc] at h
    rw [htrunc] at hfits
    have hlo : -1 / 2 < x := by
      by_contra hle
      have hneg : 0 ≤ -x := by linarith
      have hpos : 1 ≤ Decimal.round (-x) := by
        rw [Decimal.round_of_nonneg hneg, Int.le_floor, Int.cast_one]
        linarith
      rw [Decimal.round_neg] at hpos
      omega
    refine ⟨hlo, ?_⟩
    by_contra hge
    have hpos : 0 ≤ x := by linarith
    have hle : 2 ^ 63 ≤ Decimal.round x := by
      rw [Decimal.round_of_nonneg hpos, Int.le_floor]
      push_cast
      linarith
    have := hfits.2
    omega
  · rintro ⟨hlo, hhi⟩
    have hnonneg : 0 ≤ Decimal.round x := by
      rcases le_or_gt 0 x with h | h
      · exact Decimal.round_nonneg h
      · have hsmall := (Decimal.abs_round_le_iff (-x) 0).2 (by
          rw [abs_of_pos (neg_pos.2 h), Int.cast_zero]
          linarith)
        rw [Decimal.round_neg, abs_neg, abs_nonpos_iff] at hsmall
        exact hsmall.ge
    have hlt : Decimal.round x < 2 ^ 63 := by
      rcases lt_or_ge x 0 with h | h
      · have := Decimal.round_nonpos h.le
        omega
      · rw [Decimal.round_of_nonneg h, Int.floor_lt]
        push_cast
        linarith
    unfold quotaRound
    rw [int64_of_fits ⟨by omega, by omega⟩, htrunc]
    exact hnonneg

end

/-! ## Tokens -/

/-- The sum of an estimate and a limit: where it does not fit, it is short by as much as there are integers. -/
theorem wrap64_add_intOfUint {tokens : Int} (hlo : 0 ≤ tokens) (hfits : Fits64 tokens) (limit : UInt64) :
    wrap64 (tokens + intOfUint limit) =
      if tokens + limit.toNat < 2 ^ 63 then tokens + limit.toNat else tokens + limit.toNat - 2 ^ 64 := by
  have hlimit : limit.toNat < 2 ^ 64 := limit.toNat_lt
  obtain ⟨hwraplo, hwraphi⟩ := fits_wrap64 (limit.toNat : Int)
  obtain ⟨hsumlo, hsumhi⟩ := fits_wrap64 (tokens + intOfUint limit)
  obtain ⟨i, hi⟩ := exists_wrap64 (limit.toNat : Int)
  obtain ⟨j, hj⟩ := exists_wrap64 (tokens + intOfUint limit)
  have hhi := hfits.2
  rw [← intOfUint] at hi hwraplo hwraphi
  split
  · omega
  · omega

section
variable {modelRatio groupRatio : ℚ} {t u : Int}

@[simp] theorem tokenPrice_zero_right : tokenPrice modelRatio 0 t = 0 := by
  rw [tokenPrice, mul64_zero, mul64_zero]

@[simp] theorem tokenPrice_zero_left : tokenPrice 0 groupRatio t = 0 := by
  rw [tokenPrice, zero_mul64, mul64_zero]

theorem tokenPrice_eq : tokenPrice modelRatio groupRatio t =
    nearest64 (nearest64 t * mul64 modelRatio groupRatio) := rfl

theorem tokenPrice_neg : tokenPrice modelRatio groupRatio (-t) = -tokenPrice modelRatio groupRatio t := by
  rw [tokenPrice_eq, tokenPrice_eq, Int.cast_neg, nearest64_neg, neg_mul, nearest64_neg]

variable (hmodel : 0 ≤ modelRatio) (hgroup : 0 ≤ groupRatio)
include hmodel hgroup

theorem tokenPrice_mono (h : t ≤ u) : tokenPrice modelRatio groupRatio t ≤ tokenPrice modelRatio groupRatio u :=
  nearest64_mono (mul_le_mul_of_nonneg_right (nearest64_mono (by exact_mod_cast h)) (mul64_nonneg hmodel hgroup))

theorem tokenPrice_nonneg (h : 0 ≤ t) : 0 ≤ tokenPrice modelRatio groupRatio t :=
  mul64_nonneg (nearest64_nonneg (by exact_mod_cast h)) (mul64_nonneg hmodel hgroup)

theorem two_mul_tokenPrice_le (h : 2 * t ≤ u) :
    2 * tokenPrice modelRatio groupRatio t ≤ tokenPrice modelRatio groupRatio u := by
  have hdouble : 2 * tokenPrice modelRatio groupRatio t = tokenPrice modelRatio groupRatio (2 * t) := by
    rw [tokenPrice_eq, tokenPrice_eq, Int.cast_mul, Int.cast_ofNat, nearest64_two_mul, mul_assoc, nearest64_two_mul]
  rw [hdouble]
  exact tokenPrice_mono hmodel hgroup h

/-- The price of the tokens that are left is not negative and covers that of all of them just within the range. -/
theorem tokens_covered_iff {tokens : Int} (hlo : 0 ≤ tokens) (hfits : Fits64 tokens) (limit : UInt64) :
    (0 ≤ int64 (tokenPrice modelRatio groupRatio (wrap64 (tokens + intOfUint limit))) ∧
      Decimal.trunc (tokenPrice modelRatio groupRatio (tokens + limit.toNat)) ≤
        max 1 (int64 (tokenPrice modelRatio groupRatio (wrap64 (tokens + intOfUint limit))))) ↔
      TokensInRange (tokenPrice modelRatio groupRatio) (tokens + limit.toNat) := by
  have hlimit : limit.toNat < 2 ^ 64 := limit.toNat_lt
  have hhi := hfits.2
  rw [wrap64_add_intOfUint hlo hfits]
  unfold TokensInRange
  split
  next hlt =>
    rw [covered_iff_of_nonneg (tokenPrice_nonneg hmodel hgroup (by omega))]
    constructor
    · exact fun h => .inl ⟨hlt, h⟩
    · rintro (⟨-, h⟩ | ⟨hge, -⟩)
      · exact h
      · omega
  next hge =>
    have hwrapped : |tokenPrice modelRatio groupRatio (tokens + limit.toNat - 2 ^ 64)| ≤
        tokenPrice modelRatio groupRatio (tokens + limit.toNat) := by
      rw [abs_le, ← tokenPrice_neg]
      exact ⟨tokenPrice_mono hmodel hgroup (by omega), tokenPrice_mono hmodel hgroup (by omega)⟩
    have hdouble : 0 ≤ tokenPrice modelRatio groupRatio (tokens + limit.toNat - 2 ^ 64) →
        2 * tokenPrice modelRatio groupRatio (tokens + limit.toNat - 2 ^ 64) ≤
          tokenPrice modelRatio groupRatio (tokens + limit.toNat) := fun _ =>
      two_mul_tokenPrice_le hmodel hgroup (by omega)
    have hneg : tokenPrice modelRatio groupRatio (2 ^ 64 - (tokens + limit.toNat)) =
        -tokenPrice modelRatio groupRatio (tokens + limit.toNat - 2 ^ 64) := by
      rw [← tokenPrice_neg, neg_sub]
    rw [covered_iff_of_wrapped hwrapped hdouble, hneg, neg_lt]
    constructor
    · exact fun h => .inr ⟨by omega, h⟩
    · rintro (⟨hlt, -⟩ | ⟨-, h⟩)
      · exact absurd hlt hge
      · exact h

end

/-! ## What a call credits -/

section
variable {cal : Calendar} {env benv : BillingEnv} {s s' s'' store store' : Store} {quota : Int}

theorem remainOf_consumeToken {id id' : Nat} : (s.consumeToken id quota).remainOf id' =
    if id' = id then (s.remainOf id').map (· - quota) else s.remainOf id' := by
  simp only [Store.remainOf, Store.consumeToken, Table.get?_modify]
  split
  · rw [Option.map_map, Option.map_map]
    rfl
  · rfl

theorem map_sub_zero {o : Option Int} : o = o.map (· - 0) := by simp

theorem NoCredit.refl : NoCredit cal env s s where
  wallet _ := ⟨0, Int.le_refl 0, map_sub_zero⟩
  token _ := ⟨0, Int.le_refl 0, map_sub_zero⟩
  subscription _ := .inl (Int.le_refl _)

theorem NoCredit.trans (h : NoCredit cal env s s') (hsubs : s'.subscriptions = s.subscriptions)
    (h' : NoCredit cal env s' s'') : NoCredit cal env s s'' where
  wallet id := by
    obtain ⟨x, hx, heq⟩ := h'.wallet id
    refine ⟨x, hx, ?_⟩
    rw [heq, Store.walletOf, hsubs, Store.walletOf]
  token id := by
    obtain ⟨x, hx, heq⟩ := h.token id
    obtain ⟨y, hy, heq'⟩ := h'.token id
    refine ⟨x + y, by omega, ?_⟩
    rw [heq', heq, Option.map_map]
    congr 1
    funext q
    show q - x - y = q - (x + y)
    omega
  subscription id := by
    rw [← hsubs]
    exact h'.subscription id

theorem noCredit_consumeToken {id : Nat} (hquota : 0 ≤ quota) : NoCredit cal env s (s.consumeToken id quota) where
  wallet _ := ⟨0, Int.le_refl 0, map_sub_zero⟩
  token id' := by
    rw [remainOf_consumeToken]
    split
    · exact ⟨quota, hquota, rfl⟩
    · exact ⟨0, Int.le_refl 0, map_sub_zero⟩
  subscription _ := .inl (Int.le_refl _)

/-- A subscription gives an amount that is not negative. -/
def AmountNonneg : FundingSource → Prop
  | .wallet _ => True
  | .subscription sub => 0 ≤ sub.amount

/-- What a funding source gives is no credit. -/
theorem noCredit_fundingGives {f : FundingSource} (hamount : AmountNonneg f)
    (henv : ∀ sub, f = .subscription sub → benv = env) (htokens : s'.tokens = s.tokens)
    (h : FundingGives cal benv quota s.subscriptions s'.subscriptions f) : NoCredit cal env s s' := by
  have htoken : ∀ id, ∃ x, 0 ≤ x ∧ s'.remainOf id = (s.remainOf id).map (· - x) := by
    intro id
    refine ⟨0, Int.le_refl 0, ?_⟩
    rw [Store.remainOf, htokens]
    exact map_sub_zero
  cases f with
  | wallet w =>
    have hgives : s'.subscriptions = if 0 < quota then
        { s.subscriptions with users := s.subscriptions.users.addQuota w.userId (-quota) }
      else s.subscriptions := h
    refine ⟨fun id => ?_, htoken, fun id => .inl ?_⟩
    · rw [Store.walletOf, hgives]
      split
      next hpos =>
        show ∃ x, 0 ≤ x ∧ (s.subscriptions.users.addQuota w.userId (-quota)).quotaOf id = _
        rw [Users.quotaOf_addQuota]
        split
        next hid =>
          rw [hid]
          exact ⟨quota, hpos.le, rfl⟩
        · exact ⟨0, Int.le_refl 0, map_sub_zero⟩
      · exact ⟨0, Int.le_refl 0, map_sub_zero⟩
    · rw [hgives]
      split
      · exact Int.le_refl _
      · exact Int.le_refl _
  | subscription sub =>
    have hgives : SubscriptionGives cal env sub s.subscriptions s'.subscriptions := henv sub rfl ▸ h
    refine ⟨fun id => ⟨0, Int.le_refl 0, ?_⟩, htoken, fun id => ?_⟩
    · rw [Store.walletOf, hgives.users]
      exact map_sub_zero
    · rcases hgives.subs with ⟨-, -, -, hsame⟩ | ⟨-, c, -, due, hdue, hused⟩
      · rw [hsame]
        exact .inl (Int.le_refl _)
      · have hnonneg : 0 ≤ if id = c.id then sub.amount else 0 := by
          split
          · exact hamount
          · exact Int.le_refl 0
        rw [hused id]
        split
        next hmem =>
          obtain ⟨p, hp, rfl⟩ := List.mem_map.1 hmem
          obtain ⟨hcand, hreset⟩ := hdue p hp
          exact .inr ⟨p, candidates_spec.1 p hcand, hreset⟩
        · exact .inl (by omega)

theorem noCredit_rollbackToken {b b' : BillingSession} (hfresh : b.tokenConsumed = 0)
    (h : State.preConsumeToken benv quota b store = .ok (b', store')) :
    NoCredit cal env store (State.rollbackToken benv b' store').2 := by
  unfold State.rollbackToken
  rcases preConsumeToken_cases h with ⟨hpos, rfl, htoken⟩ | ⟨-, rfl, rfl⟩
  · rcases preConsumeTokenQuota_cases htoken with ⟨hplay, rfl⟩ | ⟨hplay, rfl⟩
    · rw [if_neg fun hand => by simp [hplay] at hand]
      exact .refl
    · rw [if_pos ⟨hpos, hplay⟩]
      unfold Store.increaseTokenQuota guarded
      dsimp only
      rw [if_neg (by omega)]
      split
      · exact noCredit_consumeToken hpos.le
      · rw [consumeToken_cancel]
        exact .refl
  · rw [if_neg fun hand => by omega]
    exact .refl

/-- `preConsume` credits nothing, whatever it is to take, and leaves the subscriptions where it fails. -/
theorem noCredit_preConsumeEffective {b b' : BillingSession} {e : Option ApiError} (hfresh : b.tokenConsumed = 0)
    (hamount : AmountNonneg b.funding) (henv : ∀ sub, b.funding = .subscription sub → benv = env)
    (h : State.preConsumeEffective cal benv quota b store = (e, b', store')) :
    NoCredit cal env store store' ∧ (e ≠ none → store'.subscriptions = store.subscriptions) := by
  unfold State.preConsumeEffective at h
  split at h
  · cases h
    exact ⟨.refl, fun _ => rfl⟩
  next b₁ store₁ htoken =>
    obtain ⟨hfunding, -, hsubs⟩ := @Wallet.preConsumeToken_ok _ ⟨benv, none, false⟩ _ _ _ _ htoken
    split at h
    · obtain ⟨-, hback⟩ := Prod.mk.inj h
      have hstore : store' = (State.rollbackToken benv b₁ store₁).2 := by rw [hback]
      rw [hstore]
      refine ⟨noCredit_rollbackToken hfresh htoken, fun _ => ?_⟩
      exact (@Wallet.rollbackToken_subscriptions _ ⟨benv, none, false⟩ _).trans hsubs
    next funding store₂ hpre =>
      obtain ⟨hgives, htokens, -⟩ := fundingGives_preConsume hpre
      cases h
      refine ⟨?_, fun hne => absurd rfl hne⟩
      have htaken : NoCredit cal env store store₁ := by
        rcases preConsumeToken_cases htoken with ⟨hpos, -, hok⟩ | ⟨-, -, rfl⟩
        · rcases preConsumeTokenQuota_cases hok with ⟨-, rfl⟩ | ⟨-, rfl⟩
          · exact .refl
          · exact noCredit_consumeToken hpos.le
        · exact .refl
      rw [← hfunding] at hamount henv
      exact htaken.trans hsubs (noCredit_fundingGives hamount henv htokens hgives)

end

/-! ## Sessions -/

section
variable {cal : Calendar} {env : Atomic.Env} {info : RelayInfo} {quota cost : Int} {store : Store}

/-- An attempt at a session credits nothing, leaves the subscriptions where it fails, and affords the cost where it
does not. -/
structure Attempted (cal : Calendar) (env : Atomic.Env) (info : RelayInfo) (costs : Option Int) (store : Store)
    (r : Except Refusal BillingSession × Store) : Prop where
  noCredit : NoCredit cal env.subscription store r.2
  refused : ∀ e, r.1 = .error e → r.2.subscriptions = store.subscriptions
  affords : ∀ session, r.1 = .ok session → ∀ c ∈ costs, Affords env info store c session

theorem attempted_refused {e : Refusal} {costs : Option Int} : Attempted cal env info costs store (.error e, store) where
  noCredit := .refl
  refused _ _ := rfl
  affords _ h := nomatch h

theorem attempted_attempt {costs : Option Int} {benv : BillingEnv} {info' : RelayInfo} {f : FundingSource}
    (hamount : AmountNonneg f) (henv : ∀ sub, f = .subscription sub → benv = env.subscription)
    (haffords : ∀ session : BillingSession, session.funding.source = f.source →
      session.preConsumedQuota = effectiveQuota benv quota { relayInfo := info', funding := f } →
        ∀ c ∈ costs, Affords env info store c session) :
    Attempted cal env info costs store (attempt cal benv quota (start info' f store)) := by
  have hsession : (checkTrust benv { relayInfo := info', funding := f }).funding = f := checkTrust_funding
  have hfresh : (checkTrust benv { relayInfo := info', funding := f }).tokenConsumed = 0 := by
    unfold checkTrust
    split
    · rfl
    · rfl
  rw [attempt, preConsume_eq]
  dsimp only [start]
  generalize hcall : State.preConsumeEffective cal benv (effectiveQuota benv quota { relayInfo := info', funding := f })
    (checkTrust benv { relayInfo := info', funding := f }) store = r
  obtain ⟨e, session, store'⟩ := r
  obtain ⟨hcredit, hkept⟩ := noCredit_preConsumeEffective hfresh (hsession.symm ▸ hamount) (hsession.symm ▸ henv) hcall
  cases e with
  | some e =>
    refine ⟨hcredit, fun _ _ => hkept (Option.some_ne_none e), fun _ h => ?_⟩
    cases h
  | none =>
    obtain ⟨hquota, -, hsource, -⟩ := preConsumeEffective_ok hcall
    rw [hsession] at hsource
    refine ⟨hcredit, fun _ h => ?_, fun session' h => ?_⟩
    · cases h
    · cases h
      exact haffords session hsource hquota

/-- A quota that is not negative covers the costs, up to a unit. -/
def Covers (quota : Int) (costs : Option Int) : Prop :=
  ∀ c ∈ costs, 0 ≤ quota ∧ Fits64 quota ∧ c ≤ max 1 quota

theorem attempted_tryWallet {costs : Option Int} (hcosts : Covers quota costs) :
    Attempted cal env info costs store (tryWallet cal env info quota store) := by
  unfold tryWallet
  split
  · exact attempted_refused
  next userQuota hread =>
  split
  · exact attempted_refused
  next hpos =>
  split
  · exact attempted_refused
  next hleft =>
  refine attempted_attempt trivial (fun _ h => nomatch h) fun session hsource _ c hc => ?_
  unfold Affords
  split
  · intro userQuota' hread' hfits
    cases hread.symm.trans hread'
    obtain ⟨hnonneg, ⟨-, hhi⟩, hcost⟩ := hcosts c hc
    obtain ⟨-, hfits⟩ := hfits
    rw [wrap64_of_fits ⟨by omega, by omega⟩] at hleft
    omega
  next sub hsub =>
    rw [hsub] at hsource
    cases hsource

theorem attempted_trySubscription {costs : Option Int} (hcosts : Covers quota costs) :
    Attempted cal env info costs store (trySubscription cal env info quota store) := by
  have hunit : max 1 quota ≤ subConsume quota := by
    unfold subConsume
    split <;> omega
  have hamount : 0 ≤ subConsume quota := by omega
  unfold trySubscription
  refine attempted_attempt hamount (fun _ _ => rfl) fun session hsource hquota c hc => ?_
  obtain ⟨-, -, hcost⟩ := hcosts c hc
  rw [effectiveQuota, shouldTrust_subscription rfl, if_neg Bool.false_ne_true] at hquota
  unfold Affords
  split
  next w hw =>
    rw [hw] at hsource
    cases hsource
  · omega

theorem Attempted.fallback {costs : Option Int} {first : Except Refusal BillingSession × Store}
    {second : Store → Except Refusal BillingSession × Store} (h₁ : Attempted cal env info costs store first)
    (h₂ : ∀ store, Attempted cal env info costs store (second store)) :
    Attempted cal env info costs store (Atomic.fallback first second) := by
  obtain ⟨r, store₁⟩ := first
  cases r with
  | ok session => exact h₁
  | error e =>
    have hsubs : store₁.subscriptions = store.subscriptions := h₁.refused e rfl
    unfold Atomic.fallback
    dsimp only
    split
    · obtain ⟨hcredit, hrefused, haffords⟩ := h₂ store₁
      refine ⟨h₁.noCredit.trans hsubs hcredit, fun e he => (hrefused e he).trans hsubs, fun session hs c hc => ?_⟩
      have hafford := haffords session hs c hc
      unfold Affords Wallet.getUserQuota at hafford ⊢
      rw [hsubs] at hafford
      exact hafford
    · exact ⟨h₁.noCredit, fun _ _ => hsubs, fun _ h => nomatch h⟩

theorem attempted_byPreference {costs : Option Int} (hcosts : Covers quota costs) :
    Attempted cal env info costs store (byPreference cal env info quota store) := by
  unfold byPreference
  split
  · exact attempted_trySubscription hcosts
  · exact attempted_tryWallet hcosts
  · exact (attempted_tryWallet hcosts).fallback fun _ => attempted_trySubscription hcosts
  split
  · exact attempted_refused
  · exact attempted_tryWallet hcosts
  · exact (attempted_trySubscription hcosts).fallback fun _ => attempted_tryWallet hcosts

theorem newBillingSession_cases : ∃ r, byPreference cal env info quota store = r ∧
    (newBillingSession cal env (some info) quota store).2 = r.2 ∧
      ∀ session, (newBillingSession cal env (some info) quota store).1 = .ok session → r.1 = .ok session := by
  refine ⟨_, rfl, ?_⟩
  unfold newBillingSession
  dsimp only
  split
  next e store' h =>
    rw [h]
    exact ⟨rfl, fun _ hs => nomatch hs⟩
  next session store' h =>
    rw [h]
    refine ⟨rfl, fun _ hs => ?_⟩
    cases hs
    rfl

theorem session_noCredit :
    NoCredit cal env.subscription store (newBillingSession cal env (some info) quota store).2 := by
  obtain ⟨r, hr, hstore, -⟩ := @newBillingSession_cases cal env info quota store
  have hattempted := @attempted_byPreference cal env info quota store none fun _ h => nomatch h
  rw [hstore, ← hr]
  exact hattempted.noCredit

theorem session_affords {costs : Option Int} (hcosts : Covers quota costs) {session : BillingSession}
    (h : (newBillingSession cal env (some info) quota store).1 = .ok session) :
    ∀ c ∈ costs, Affords env info store c session := by
  obtain ⟨r, hr, -, hmade⟩ := @newBillingSession_cases cal env info quota store
  have hattempted := @attempted_byPreference cal env info quota store costs hcosts
  rw [hr] at hattempted
  exact hattempted.affords session (hmade session h)

/-! ## The least balance that is enough -/

/-- A request that comes from the playground, on the wallet of a user. -/
def onlyWallet : Atomic.Env := { billingPreference := "wallet_only" }

def playgroundInfo : RelayInfo := { userId := 1, tokenId := 1, isPlayground := true }

def walletOnly (userQuota : Int) : Store where
  subscriptions :=
    { users := Table.empty.insertNew { id := 1, quota := userQuota }, subs := .empty, records := .empty }
  tokens := .empty

theorem preConsume_playground (hquota : 0 ≤ quota) {s : BillingSession} {w : WalletFunding}
    (hplay : s.relayInfo.isPlayground = true) (hwallet : s.funding = .wallet w) :
    (State.preConsumeEffective cal {} quota s store).1 = none := by
  obtain ⟨s', htoken, hfunding⟩ : ∃ s' : BillingSession,
      State.preConsumeToken {} quota s store = .ok (s', store) ∧ s'.funding = s.funding := by
    unfold State.preConsumeToken preConsumeTokenQuota
    rw [if_neg (Int.not_lt.2 hquota), if_pos hplay]
    split
    · exact ⟨_, rfl, rfl⟩
    · exact ⟨s, rfl, rfl⟩
  unfold State.preConsumeEffective
  rw [htoken]
  dsimp only
  rw [hfunding, hwallet]
  rcases @Wallet.preConsume_wallet_cases cal store {} w quota with ⟨-, -, hok⟩ | ⟨-, hfails, -⟩ | ⟨-, hok⟩
  · rw [hok]
  · cases hfails
  · rw [hok]

theorem exists_session {userQuota : Int} (hquota : 0 ≤ quota) (hpos : 0 < userQuota) (hle : quota ≤ userQuota)
    (hfits : Fits64 userQuota) :
    ∃ session, (newBillingSession cal onlyWallet (some playgroundInfo) quota (walletOnly userQuota)).1 =
        .ok session ∧ session.funding.source = .wallet := by
  have hread : Wallet.getUserQuota onlyWallet.wallet playgroundInfo.userId (walletOnly userQuota) =
      some userQuota := rfl
  have hleft : ¬ wrap64 (userQuota - quota) < 0 := by
    rw [wrap64_of_fits ⟨by have := hfits.1; omega, by have := hfits.2; omega⟩]
    omega
  let session : BillingSession :=
    { relayInfo := { playgroundInfo with userQuota := userQuota }, funding := .wallet { userId := 1 } }
  have hgiven : (State.preConsumeEffective cal {} quota session (walletOnly userQuota)).1 = none :=
    preConsume_playground hquota rfl rfl
  generalize hcall : State.preConsumeEffective cal {} quota session (walletOnly userQuota) = r at hgiven
  obtain ⟨e, session', store'⟩ := r
  cases hgiven
  have hattempt : attempt cal {} quota (start { playgroundInfo with userQuota := userQuota }
      (.wallet { userId := 1 }) (walletOnly userQuota)) = (.ok session', store') := by
    have hpre : (start { playgroundInfo with userQuota := userQuota } (.wallet { userId := 1 })
        (walletOnly userQuota)).preConsume cal {} quota =
          (none, { session := session', store := store' }) :=
      congrArg (fun r => (r.1, ({ session := r.2.1, store := r.2.2 } : State))) hcall
    rw [attempt, hpre]
  have hwallet : tryWallet cal onlyWallet playgroundInfo quota (walletOnly userQuota) = (.ok session', store') := by
    unfold tryWallet
    rw [hread]
    dsimp only
    rw [if_neg (Int.not_le.2 hpos), if_neg hleft]
    exact hattempt
  obtain ⟨-, -, hsource, -⟩ := preConsumeEffective_ok hcall
  refine ⟨session', ?_, hsource⟩
  have hpref : normalizeBillingPreference onlyWallet.billingPreference = .walletOnly := by decide
  unfold newBillingSession byPreference
  dsimp only
  rw [hpref]
  dsimp only
  rw [hwallet]

theorem covers_of_affords {costs : Option Int} (hquota : 0 ≤ quota) (hfits : Fits64 quota)
    (h : ∀ env info store session, (newBillingSession cal env (some info) quota store).1 = .ok session →
      ∀ c ∈ costs, Affords env info store c session) : Covers quota costs := by
  intro c hc
  refine ⟨hquota, hfits, ?_⟩
  have hbalance : Fits64 (max 1 quota) := ⟨by omega, by have := hfits.2; omega⟩
  obtain ⟨session, hmade, hsource⟩ := @exists_session cal quota (max 1 quota) hquota (by omega) (by omega) hbalance
  have hafford := h onlyWallet playgroundInfo (walletOnly (max 1 quota)) session hmade c hc
  unfold Affords at hafford
  split at hafford
  · exact hafford _ rfl hbalance
  next sub hsub =>
    rw [hsub] at hsource
    cases hsource

theorem sound_iff {estimate : Estimate} {costs : Option Int} (hfits : Fits64 estimate.quotaToPreConsume)
    (hfree : estimate.freeModel = true → ∀ c ∈ costs, c ≤ 1) :
    Sound cal estimate costs ↔
      0 ≤ estimate.quotaToPreConsume ∧ ∀ c ∈ costs, c ≤ max 1 estimate.quotaToPreConsume := by
  constructor
  · intro h
    refine ⟨h.nonneg, fun c hc => ?_⟩
    cases hmodel : estimate.freeModel with
    | true => exact (hfree hmodel c hc).trans (le_max_left _ _)
    | false => exact (covers_of_affords h.nonneg hfits (h.affords hmodel) c hc).2.2
  · rintro ⟨hnonneg, hcosts⟩
    exact ⟨hnonneg, fun _ _ _ _ => session_noCredit, fun _ _ _ _ _ hmade =>
      session_affords (fun c hc => ⟨hnonneg, hfits, hcosts c hc⟩) hmade⟩

/-! ## The condition is exact -/

theorem int64_zero : int64 0 = 0 := by decide +kernel

theorem ite_free {free : Bool} {price : ℚ} (h : free = true → price = 0) :
    (if free then 0 else int64 price) = int64 price := by
  cases free with
  | true => rw [if_pos rfl, h rfl, int64_zero]
  | false => rfl

variable {setting : Setting} {pricing : RealtimeInfo} {groupRatio modelRatio price : ℚ}

theorem freeOf_iff : freeOf setting.toPriceSetting groupRatio price = true ↔
    setting.enableFreeModelPreConsume = false ∧ (groupRatio = 0 ∨ price = 0) := by
  simp [freeOf]

theorem fixed_sound_iff {free : Bool} {p : ℚ} (hp : 0 ≤ p) (hfree : free = true → p = 0) :
    Sound cal { quotaToPreConsume := if free then 0 else int64 p, freeModel := free } (some (Decimal.trunc p)) ↔
      p < 2 ^ 63 := by
  rw [ite_free hfree, sound_iff (fits_int64 p), ← covered_iff_of_nonneg hp]
  · exact and_congr_right fun _ => ⟨fun h => h _ rfl, fun h c hc => Option.mem_some_iff.1 hc ▸ h⟩
  · intro htrue c hc
    rw [hfree htrue] at hc
    cases hc
    decide

theorem tokens_sound_iff {tokens : Int} (free : Bool) (limit : UInt64) (hmodel : 0 ≤ modelRatio)
    (hgroup : 0 ≤ groupRatio) (hlo : 0 ≤ tokens) (hfits : Fits64 tokens)
    (hfree : free = true → ∀ t, tokenPrice modelRatio groupRatio t = 0) :
    Sound cal
        { quotaToPreConsume :=
            if free then 0 else int64 (tokenPrice modelRatio groupRatio (wrap64 (tokens + intOfUint limit)))
          freeModel := free }
        (some (Decimal.trunc (tokenPrice modelRatio groupRatio (tokens + limit.toNat)))) ↔
      TokensInRange (tokenPrice modelRatio groupRatio) (tokens + limit.toNat) := by
  rw [ite_free fun htrue => hfree htrue _, sound_iff (fits_int64 _), ← tokens_covered_iff hmodel hgroup hlo hfits]
  · exact and_congr_right fun _ => ⟨fun h => h _ rfl, fun h c hc => Option.mem_some_iff.1 hc ▸ h⟩
  · intro htrue c hc
    rw [hfree htrue] at hc
    cases hc
    decide

theorem exprPrice_free {promptTokens maxTokens : Int} {x : ℚ} (hgroup : groupRatio = 0)
    (h : exprPrice setting pricing groupRatio promptTokens maxTokens = some x) : x = 0 := by
  unfold exprPrice at h
  obtain ⟨rawCost, -, rfl⟩ := Option.map_eq_some_iff.1 h
  rw [hgroup, mul64_zero]

theorem le_one_iff_of_round {y : ℚ} : Decimal.round y ≤ 1 ↔ y < 3 / 2 := by
  constructor
  · intro h
    by_contra hge
    have hle : 2 ≤ Decimal.round y := by
      rw [Decimal.round_of_nonneg (by linarith), Int.le_floor]
      push_cast
      linarith
    omega
  · intro h
    rcases le_or_gt 0 y with hy | hy
    · have hlt : Decimal.round y < 2 := by
        rw [Decimal.round_of_nonneg hy, Int.floor_lt]
        push_cast
        linarith
      omega
    · have := Decimal.round_nonpos hy.le
      omega

theorem quotaRound_eq (h : 0 ≤ quotaRound price) : quotaRound price = Decimal.round price := by
  have hfits := fits_of_int64_nonneg h
  rw [quotaRound, int64_of_fits hfits, Decimal.trunc_intCast]

theorem tiered_sound_iff {promptTokens : Int} {limit : UInt64} {imagePriceRatio : ℚ} :
    (∀ estimate, modelPriceHelperTiered setting pricing groupRatio promptTokens
        { maxTokens := intOfUint limit, imagePriceRatio } = some estimate →
      Sound cal estimate ((exprPrice setting pricing groupRatio promptTokens limit.toNat).map Decimal.round)) ↔
      ExprInRange (exprPrice setting pricing groupRatio promptTokens) limit := by
  unfold modelPriceHelperTiered ExprInRange
  cases hx : exprPrice setting pricing groupRatio promptTokens (intOfUint limit) with
  | none =>
    constructor
    · intro _ x h
      cases h
    · intro _ estimate h
      cases h
  | some x =>
    let free : Bool := ¬ setting.enableFreeModelPreConsume ∧ groupRatio = 0
    have hfree : free = true → groupRatio = 0 := fun h => (of_decide_eq_true h).2
    have hquota : (if free then 0 else quotaRound x) = quotaRound x :=
      ite_free fun htrue => by rw [exprPrice_free (hfree htrue) hx, Decimal.round_zero, Int.cast_zero]
    have hsound := @sound_iff cal { quotaToPreConsume := quotaRound x, freeModel := free }
      ((exprPrice setting pricing groupRatio promptTokens limit.toNat).map Decimal.round) (fits_int64 _) (by
        intro htrue c hc
        obtain ⟨y, hy, rfl⟩ := Option.map_eq_some_iff.1 hc
        rw [exprPrice_free (hfree htrue) hy, Decimal.round_zero]
        exact zero_le_one)
    have hestimate : (∀ estimate, some { quotaToPreConsume := if free then 0 else quotaRound x, freeModel := free } =
          some estimate →
        Sound cal estimate ((exprPrice setting pricing groupRatio promptTokens limit.toNat).map Decimal.round)) ↔
          Sound cal { quotaToPreConsume := quotaRound x, freeModel := free }
            ((exprPrice setting pricing groupRatio promptTokens limit.toNat).map Decimal.round) := by
      rw [hquota]
      simp only [Option.some.injEq, forall_eq']
    refine hestimate.trans (hsound.trans ?_)
    simp only [Option.some.injEq, forall_eq']
    rw [← and_assoc, ← quotaRound_nonneg_iff]
    refine and_congr_right fun hnonneg => ?_
    rw [quotaRound_eq hnonneg]
    simp only [Option.mem_def, Option.map_eq_some_iff, forall_exists_index, and_imp, forall_apply_eq_imp_iff₂,
      le_max_iff, le_one_iff_of_round]

end

/-! ## The request -/

section
variable {cal : Calendar} {setting : Setting} {info : RealtimeInfo} {request : Request} {promptTokens : Int}
  {acceptUnsetRatio counts : Bool}

theorem callPrice_nonneg {groupRatio price imagePriceRatio : ℚ} (hunit : 0 ≤ setting.quotaPerUnit)
    (hgroup : 0 ≤ groupRatio) (hprice : 0 ≤ price) (himage : 0 ≤ imagePriceRatio) :
    0 ≤ callPrice setting groupRatio price imagePriceRatio := by
  refine mul64_nonneg (mul64_nonneg ?_ hunit) hgroup
  split
  · exact mul64_nonneg hprice himage
  · exact hprice

theorem tokens_eq {tokens limit : Int} (hfits : Fits64 tokens) :
    (if limit ≠ 0 then wrap64 (tokens + limit) else tokens) = wrap64 (tokens + limit) := by
  split
  · rfl
  next h => rw [not_not.1 h, Int.add_zero, wrap64_of_fits hfits]

theorem tokenCountMeta_maxTokens :
    (request.tokenCountMeta counts).maxTokens = intOfUint (request.limit counts) := by
  rw [Request.tokenCountMeta]

end

/-- What a request pre-consumes is sound exactly within the range. -/
theorem preConsumption_sound_iff (cal : Calendar) (setting : Setting) (info : RealtimeInfo)
    (acceptUnsetRatio counts : Bool) (promptTokens : Int) (request : Request) (hsetting : setting.Nonneg info)
    (himage : 0 ≤ request.imagePriceRatio) (hprompt : 0 ≤ promptTokens) (hfits : Fits64 promptTokens) :
    PreConsumesSoundly cal setting info acceptUnsetRatio counts promptTokens request ↔
      InRange setting info acceptUnsetRatio counts promptTokens request := by
  refine imp_congr_right fun hvalid => ?_
  unfold modelPriceHelper trueCost
  dsimp only
  by_cases htiered : setting.tieredExpr info.originModelName = true
  · simp only [if_pos htiered]
    exact tiered_sound_iff
  simp only [if_neg htiered]
  cases hprice : setting.getModelPrice info.originModelName with
  | some price =>
    simp only [Option.some.injEq, forall_eq']
    refine fixed_sound_iff (callPrice_nonneg hsetting.quotaPerUnit hsetting.groupRatio
      (hsetting.modelPrice price hprice) himage) fun hfree => ?_
    rcases (freeOf_iff.1 hfree).2 with hgroup | hmodel
    · rw [callPrice, hgroup, mul64_zero]
    · show mul64 (mul64 (if request.imagePriceRatio ≠ 0 then mul64 price request.imagePriceRatio else price)
        setting.quotaPerUnit) _ = 0
      have hfixed : (if request.imagePriceRatio ≠ 0 then mul64 price request.imagePriceRatio else price) = 0 := hmodel
      rw [hfixed, zero_mul64, zero_mul64]
  | none =>
    by_cases hset : setting.modelRatioSet info.originModelName = true ∨ acceptUnsetRatio = true
    · have htokens : Fits64 (max promptTokens setting.preConsumedQuota) := by
        obtain ⟨-, hhi⟩ := hfits
        obtain ⟨-, hhi'⟩ := hsetting.preConsumedQuota
        exact ⟨by omega, by omega⟩
      simp only [if_pos hset, Option.some.injEq, forall_eq', tokens_eq htokens, tokenCountMeta_maxTokens]
      refine Iff.trans ?_ (imp_iff_right hset).symm
      refine tokens_sound_iff _ _ hsetting.modelRatio hsetting.groupRatio (by omega) htokens fun hfree t => ?_
      rcases (freeOf_iff.1 hfree).2 with hgroup | hmodel
      · rw [hgroup, tokenPrice_zero_right]
      · rw [hmodel, tokenPrice_zero_left]
    · simp only [if_neg hset]
      constructor
      · intro _ h
        exact absurd h hset
      · intro _ estimate h
        cases h

/-- A token of prompt or answer costs a unit, and 500 are pre-consumed at least. -/
def unitSetting : Setting where
  toPriceSetting := { centSetting with getModelPrice := fun _ => none, modelRatioSet := fun _ => true }
  tieredExpr _ := false
  runExpr _ _ _ _ := none

theorem unitSetting_nonneg : unitSetting.Nonneg centInfo where
  groupRatio := by decide
  modelRatio := by decide
  modelPrice _ h := nomatch h
  quotaPerUnit := by decide
  preConsumedQuota := by decide

theorem preConsumption_sound_iff_claude :
    PreConsumesSoundly fixedCalendar unitSetting centInfo false true 10 (.claude (some 1024)) ↔
      InRange unitSetting centInfo false true 10 (.claude (some 1024)) :=
  preConsumption_sound_iff fixedCalendar unitSetting centInfo false true 10 (.claude (some 1024)) unitSetting_nonneg
    (le_refl 0) (by decide) (by decide)

theorem tokenPrice_one {t : Int} (h : |t| ≤ 2 ^ 53) : tokenPrice 1 1 t = t := by
  have hone : mul64 1 1 = 1 := by
    have := nearest64_intCast (n := 1) (by decide)
    rw [mul64, mul_one]
    exact_mod_cast this
  rw [tokenPrice_eq, hone, mul_one, nearest64_intCast h, nearest64_intCast h]

theorem unitSetting_estimate {limit : UInt64} {t : Int} (ht : wrap64 (500 + intOfUint limit) = t) (h : |t| ≤ 2 ^ 53) :
    modelPriceHelper unitSetting centInfo false 10 ((Request.claude (some limit)).tokenCountMeta true) =
      some { quotaToPreConsume := t, freeModel := false } := by
  have htrunc : Decimal.trunc (t : ℚ) = t := Decimal.trunc_intCast t
  have hfits : Fits64 t := by
    rw [abs_le] at h
    exact ⟨by omega, by omega⟩
  have hint : int64 (tokenPrice 1 1 t) = t := by
    rw [tokenPrice_one h, int64_of_fits (by rw [htrunc]; exact hfits), htrunc]
  have hfree : freeOf unitSetting.toPriceSetting (handleGroupRatio unitSetting.toRatioSetting centInfo)
      (unitSetting.modelRatio centInfo.originModelName) = false := by decide
  have hgroup : handleGroupRatio unitSetting.toRatioSetting centInfo = 1 := rfl
  have hmodel : unitSetting.modelRatio centInfo.originModelName = 1 := rfl
  have htokens : max 10 unitSetting.preConsumedQuota = 500 := by decide
  have hlimit : (Request.claude (some limit)).limit true = limit := rfl
  have hratio : unitSetting.modelRatioSet centInfo.originModelName = true ∨ false = true := .inl rfl
  have hprice : unitSetting.getModelPrice centInfo.originModelName = none := rfl
  unfold modelPriceHelper
  dsimp only
  rw [hfree, tokenCountMeta_maxTokens, hlimit, hgroup, hmodel, htokens, hprice, tokens_eq (by decide), ht, hint]
  exact (if_neg Bool.false_ne_true).trans (if_pos hratio)

/-- A million short of `2 ^ 64` tokens pre-consume less than nothing, and one short of them as much as 499, at a cost
of more than `2 ^ 53`. -/
theorem not_preConsumesSoundly :
    ¬ PreConsumesSoundly fixedCalendar unitSetting centInfo false true 10 (.claude (some 18446744073708551616)) ∧
      ¬ PreConsumesSoundly fixedCalendar unitSetting centInfo false true 10
        (.claude (some 18446744073709551615)) := by
  constructor
  · intro h
    have hsound := h rfl _ (unitSetting_estimate (t := -999500) (by decide) (by decide))
    exact absurd hsound.nonneg (by decide)
  · intro h
    have hsound := h rfl _ (unitSetting_estimate (t := 499) (by decide) (by decide))
    have hfits : Fits64 499 := by decide
    have hcost := ((sound_iff hfits fun hfree => by cases hfree).1 hsound).2 _ rfl
    have hmono : tokenPrice 1 1 (2 ^ 53) ≤ tokenPrice 1 1 (max 10 500 + (18446744073709551615 : UInt64).toNat) :=
      tokenPrice_mono zero_le_one zero_le_one (by decide)
    rw [tokenPrice_one (by decide)] at hmono
    have hle : 2 ^ 53 ≤ Decimal.trunc
        (tokenPrice 1 1 (max 10 500 + (18446744073709551615 : UInt64).toNat)) := by
      rw [Decimal.trunc_of_nonneg ((by norm_num : (0 : ℚ) ≤ (2 ^ 53 : Int)).trans hmono), Int.le_floor]
      exact hmono
    exact absurd (hle.trans hcost) (by decide)

end NewApi.Billing.MaxTokens

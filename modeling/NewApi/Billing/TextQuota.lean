import NewApi.Billing.Prices
import NewApi.Billing.ToolCalls
import Mathlib.Algebra.Order.BigOperators.GroupWithZero.List
import Mathlib.Tactic.Ring
import Mathlib.Tactic.Positivity
import Mathlib.Tactic.GCongr

/-!
# The quota of a text request

`calculateTextQuotaSummary` prices the usage of a request: the prompt less its cached and multimodal parts, those parts
by ratios of their own, the completion, the calls of tools and the audio input. Where the ratios and the prices are not
negative the quota is not, it is at least one where tokens were used and the ratio is not zero, and more tokens do not
make it less (`textQuota_laws`). A negative price makes a negative quota: only a quota of zero is raised to one.

OpenRouter does not tell how many tokens of the prompt were written to the cache, so that is worked out from the cost of
the answer. Where it reports no cost the outcome is no tokens or, where writing costs less than reading the prompt, all
that were not cached (`creationTokens_cases`).
-/

namespace NewApi

namespace Billing

open ToolCalls (Context ToolPrices BuiltInTools TextQuotaSummary)

/-! ## What a request is priced by -/

/-- `GetGPTImage1PriceOnceCall`, in dollars. -/
def getGPTImage1PriceOnceCall (quality size : String) : ℚ :=
  match quality, size with
  | "low", "1024x1024" => 11 / 1000
  | "low", "1024x1536" => 16 / 1000
  | "low", "1536x1024" => 16 / 1000
  | "medium", "1024x1024" => 42 / 1000
  | "medium", "1024x1536" => 63 / 1000
  | "medium", "1536x1024" => 63 / 1000
  | "high", "1024x1536" => 25 / 100
  | "high", "1536x1024" => 25 / 100
  | _, _ => 167 / 1000

/-- `GetGeminiInputAudioPricePerMillionTokens`, in dollars. -/
def getGeminiInputAudioPricePerMillionTokens (modelName : String) : ℚ :=
  if GoString.hasPrefix modelName "gemini-2.5-flash-preview-native-audio" then 3
  else if GoString.hasPrefix modelName "gemini-2.5-flash-preview-lite" then 1 / 2
  else if GoString.hasPrefix modelName "gemini-2.5-flash-preview" then 1
  else if GoString.hasPrefix modelName "gemini-2.5-flash" then 1
  else if GoString.hasPrefix modelName "gemini-2.0-flash" then 7 / 10
  else if GoString.hasPrefix modelName "gemini-robotics-er-1.5" then 1
  else 0

/-- The settings that the quota of a text request is made with. -/
structure TextSetting where
  quotaPerUnit : ℚ
  getToolPriceForModel : String → String → ℚ
  defaultModelRatio : String → Option ℚ

/-- `RelayInfo`, the fields that the quota of a text request is made of. -/
structure TextInfo where
  originModelName : String
  claudeFormat : Bool := false
  openRouter : Bool := false
  priceData : PriceData
  responsesUsageInfo : Option BuiltInTools := none
  estimatePromptTokens : Int := 0

/-- `hasCustomModelRatio`. -/
def hasCustomModelRatio (setting : TextSetting) (modelName : String) (currentRatio : ℚ) : Bool :=
  match setting.defaultModelRatio modelName with
  | none => true
  | some defaultRatio => currentRatio ≠ defaultRatio

/-- `CalcOpenRouterCacheCreateTokens`, for a cost that is zero where none is reported. A quotient by zero, which is zero
here, is not a number there, and no positive integer either. -/
def calcOpenRouterCacheCreateTokens (quotaPerUnit cost : ℚ) (pd : PriceData) (usage : Usage) : Int :=
  if pd.cacheCreationRatio = 1 then 0
  else
    let quotaPrice := pd.modelRatio / quotaPerUnit
    let promptCacheCreatePrice := quotaPrice * pd.cacheCreationRatio
    let promptCacheReadPrice := quotaPrice * pd.cacheRatio
    let completionPrice := quotaPrice * pd.completionRatio
    Decimal.round ((cost - usage.promptTokens * quotaPrice + usage.cachedTokens * (quotaPrice - promptCacheReadPrice) -
      usage.completionTokens * completionPrice) / (promptCacheCreatePrice - quotaPrice))

section
variable (setting : TextSetting) (info : TextInfo) (ctx : Context) (cost : ℚ)

/-- The surcharge for the calls of tools. -/
def toolCallSurcharge : ℚ :=
  (ToolCalls.calculateTextToolCallSurcharge ⟨setting.getToolPriceForModel, getGPTImage1PriceOnceCall⟩ setting.quotaPerUnit
    ctx info.responsesUsageInfo
    { modelName := info.originModelName, groupRatio := info.priceData.groupRatio }).2

/-- What the quota takes from the request, for an answer of a given cost. -/
def textRequest : TextRequest where
  claudeFormat := info.claudeFormat
  openRouter := info.openRouter
  hasCustomModelRatio := hasCustomModelRatio setting info.originModelName info.priceData.modelRatio
  calcCacheCreateTokens := calcOpenRouterCacheCreateTokens setting.quotaPerUnit cost info.priceData
  toolCallSurcharge := toolCallSurcharge setting info ctx
  audioInputPrice := getGeminiInputAudioPricePerMillionTokens info.originModelName

/-- The usage that is priced: the estimate, where there is none. -/
def pricedUsage (usage : Option Usage) : Usage :=
  usage.getD { promptTokens := info.estimatePromptTokens, totalTokens := info.estimatePromptTokens }

/-- `calculateTextQuotaSummary`: the quota of the summary. -/
def calculateTextQuotaSummary (usage : Option Usage) : Int :=
  (textRequest setting info ctx cost).summaryQuota setting.quotaPerUnit info.priceData (pricedUsage info usage)

/-- The decimal that is converted to the quota. -/
def textQuotaDecimal (usage : Option Usage) : ℚ :=
  (textRequest setting info ctx cost).quotaCalculateDecimal setting.quotaPerUnit info.priceData (pricedUsage info usage)

end

/-! ## What the laws ask for -/

/-- The ratios are not negative. -/
structure PriceData.RatiosNonneg (pd : PriceData) : Prop where
  modelRatio : 0 ≤ pd.modelRatio
  groupRatio : 0 ≤ pd.groupRatio
  completionRatio : 0 ≤ pd.completionRatio
  cacheRatio : 0 ≤ pd.cacheRatio
  cacheCreationRatio : 0 ≤ pd.cacheCreationRatio
  cacheCreation5mRatio : 0 ≤ pd.cacheCreation5mRatio
  cacheCreation1hRatio : 0 ≤ pd.cacheCreation1hRatio
  imageRatio : 0 ≤ pd.imageRatio
  otherRatios : ∀ r ∈ pd.otherRatios, 0 ≤ r

/-- The prices are not negative. -/
structure TextSetting.PricesNonneg (setting : TextSetting) (pd : PriceData) : Prop where
  quotaPerUnit : 0 ≤ setting.quotaPerUnit
  modelPrice : pd.usePrice → 0 ≤ pd.modelPrice
  tool : ∀ toolName modelName, 0 ≤ setting.getToolPriceForModel toolName modelName

/-- The counts of a usage: none is negative, and the parts of the prompt do not exceed it. -/
structure Usage.Counts (usage : Usage) : Prop where
  promptTokens : 0 ≤ usage.promptTokens
  completionTokens : 0 ≤ usage.completionTokens
  cachedTokens : 0 ≤ usage.cachedTokens
  cachedCreationTokens : 0 ≤ usage.cachedCreationTokens
  claudeCacheCreation5mTokens : 0 ≤ usage.claudeCacheCreation5mTokens
  claudeCacheCreation1hTokens : 0 ≤ usage.claudeCacheCreation1hTokens
  imageTokens : 0 ≤ usage.imageTokens
  audioTokens : 0 ≤ usage.promptAudioTokens
  parts : usage.cachedTokens + usage.cachedCreationTokens + usage.imageTokens + usage.promptAudioTokens ≤
    usage.promptTokens

/-! ## The decimal -/

theorem foldl_mul (l : List ℚ) (x : ℚ) : l.foldl (· * ·) x = x * l.prod := by
  induction l generalizing x with
  | nil => rw [List.foldl_nil, List.prod_nil, mul_one]
  | cons r l ih => rw [List.foldl_cons, ih, List.prod_cons, mul_assoc]

/-- More tokens in the prompt and in the completion, and the same parts. -/
def Usage.tokens (usage : Usage) (promptTokens completionTokens : Int) : Usage :=
  { usage with promptTokens, completionTokens }

namespace TextRequest

section
variable {req : TextRequest} {quotaPerUnit : ℚ} {pd : PriceData} {usage : Usage} {p c : Int}

/-- The tokens of a usage by their ratios. -/
def tokensWithRatio (req : TextRequest) (pd : PriceData) (usage : Usage) (promptTokens creationTokens : Int) : ℚ :=
  req.baseTokens usage promptTokens creationTokens + usage.cachedTokens * pd.cacheRatio +
    usage.imageTokens * pd.imageRatio + req.creationTokensWithRatio pd usage creationTokens +
    usage.completionTokens * pd.completionRatio

/-- The quota before the surcharges and the other ratios. -/
def tokenQuota (req : TextRequest) (quotaPerUnit : ℚ) (pd : PriceData) (usage : Usage) : ℚ :=
  if pd.usePrice then pd.modelPrice * quotaPerUnit * pd.groupRatio
  else
    req.tokensWithRatio pd usage (req.promptAndCreationTokens pd usage).1 (req.promptAndCreationTokens pd usage).2 *
      (pd.modelRatio * pd.groupRatio)

theorem quotaCalculateDecimal_eq : req.quotaCalculateDecimal quotaPerUnit pd usage =
    (req.tokenQuota quotaPerUnit pd usage + (req.toolCallSurcharge + req.audioInputQuota quotaPerUnit pd usage)) *
      pd.otherRatios.prod := foldl_mul _ _

theorem audioInputQuota_nonneg (hpd : pd.RatiosNonneg) (hunit : 0 ≤ quotaPerUnit) (hu : 0 ≤ usage.promptAudioTokens) :
    0 ≤ req.audioInputQuota quotaPerUnit pd usage := by
  unfold audioInputQuota
  split
  next h =>
    have hprice : 0 ≤ Decimal.divRound req.audioInputPrice 1000000 := by
      have haudio := h.2.2
      have hround : 0 ≤ Decimal.round (req.audioInputPrice / 1000000 * 10 ^ 16) :=
        Decimal.round_nonneg (by positivity)
      unfold Decimal.divRound
      exact div_nonneg (by exact_mod_cast hround) (by positivity)
    have haudio : (0 : ℚ) ≤ usage.promptAudioTokens := by exact_mod_cast hu
    have hgroup := hpd.groupRatio
    positivity
  · exact le_refl 0

theorem otherRatios_nonneg (hpd : pd.RatiosNonneg) : 0 ≤ pd.otherRatios.prod := List.prod_nonneg hpd.otherRatios

theorem quotaCalculateDecimal_mono (hpd : pd.RatiosNonneg)
    (h : pd.usePrice = false →
      req.tokensWithRatio pd usage (req.promptAndCreationTokens pd usage).1 (req.promptAndCreationTokens pd usage).2 ≤
        req.tokensWithRatio pd (usage.tokens p c) (req.promptAndCreationTokens pd (usage.tokens p c)).1
          (req.promptAndCreationTokens pd (usage.tokens p c)).2) :
    req.quotaCalculateDecimal quotaPerUnit pd usage ≤ req.quotaCalculateDecimal quotaPerUnit pd (usage.tokens p c) := by
  have htokens : req.tokenQuota quotaPerUnit pd usage ≤ req.tokenQuota quotaPerUnit pd (usage.tokens p c) := by
    unfold tokenQuota
    split
    · exact le_refl _
    next hprice =>
      have hratio : 0 ≤ pd.modelRatio * pd.groupRatio := mul_nonneg hpd.modelRatio hpd.groupRatio
      exact mul_le_mul_of_nonneg_right (h (Bool.eq_false_iff.2 hprice)) hratio
  rw [quotaCalculateDecimal_eq, quotaCalculateDecimal_eq]
  have haudio : req.audioInputQuota quotaPerUnit pd (usage.tokens p c) = req.audioInputQuota quotaPerUnit pd usage := rfl
  rw [haudio]
  exact mul_le_mul_of_nonneg_right (by linarith) (otherRatios_nonneg hpd)

theorem quotaCalculateDecimal_nonneg (hpd : pd.RatiosNonneg) (hunit : 0 ≤ quotaPerUnit)
    (hprice : pd.usePrice → 0 ≤ pd.modelPrice) (hsur : 0 ≤ req.toolCallSurcharge) (hu : 0 ≤ usage.promptAudioTokens)
    (hratio : pd.usePrice = false → pd.modelRatio * pd.groupRatio = 0) :
    0 ≤ req.quotaCalculateDecimal quotaPerUnit pd usage := by
  have htokens : 0 ≤ req.tokenQuota quotaPerUnit pd usage := by
    unfold tokenQuota
    split
    next huse =>
      have hmodel := hprice huse
      have hgroup := hpd.groupRatio
      positivity
    next huse => rw [hratio (Bool.eq_false_iff.2 huse), mul_zero]
  have haudio := @audioInputQuota_nonneg req quotaPerUnit _ _ hpd hunit hu
  rw [quotaCalculateDecimal_eq]
  exact mul_nonneg (by linarith) (otherRatios_nonneg hpd)

theorem summaryQuota_eq (hfits : Fits64 (Decimal.round (req.quotaCalculateDecimal quotaPerUnit pd usage)))
    (hnonneg : pd.usePrice ∨ pd.modelRatio * pd.groupRatio = 0 → 0 ≤ req.quotaCalculateDecimal quotaPerUnit pd usage) :
    req.summaryQuota quotaPerUnit pd usage =
      if usage.promptTokens + usage.completionTokens = 0 then 0
      else if pd.modelRatio * pd.groupRatio ≠ 0 then
        max 1 (Decimal.round (req.quotaCalculateDecimal quotaPerUnit pd usage))
      else Decimal.round (req.quotaCalculateDecimal quotaPerUnit pd usage) := by
  unfold summaryQuota
  dsimp only
  by_cases htotal : usage.promptTokens + usage.completionTokens = 0
  · rw [if_pos htotal, if_pos htotal]
  rw [if_neg htotal, if_neg htotal]
  generalize req.quotaCalculateDecimal quotaPerUnit pd usage = d at hfits hnonneg
  by_cases hratio : pd.modelRatio * pd.groupRatio = 0
  · rw [if_neg fun h => h.1 hratio, if_neg (not_not.2 hratio), if_neg fun h => h.2.1 hratio,
      Decimal.intPart_intCast hfits]
  rw [if_pos hratio]
  by_cases hclamp : ¬ pd.usePrice ∧ pd.modelRatio * pd.groupRatio ≠ 0 ∧ d ≤ 0
  · have hone : Decimal.intPart (Decimal.round 1) = 1 := by
      rw [show (1 : ℚ) = ((1 : Int) : ℚ) from rfl, Decimal.round_intCast]
      exact Decimal.intPart_intCast (by decide)
    rw [if_pos hclamp, hone, if_neg fun h => absurd h.2 (by decide)]
    exact (max_eq_left ((Decimal.round_nonpos hclamp.2.2).trans (by decide))).symm
  · rw [if_neg hclamp, Decimal.intPart_intCast hfits]
    have hround : 0 ≤ Decimal.round d := by
      refine Decimal.round_nonneg ?_
      by_cases huse : pd.usePrice = true
      · exact hnonneg (.inl huse)
      · exact le_of_not_ge fun hd => hclamp ⟨huse, hratio, hd⟩
    split
    next h => rw [h.2, max_eq_left (by decide)]
    next h =>
      have hne : Decimal.round d ≠ 0 := fun h0 => h ⟨hratio, h0⟩
      exact (max_eq_right (show 1 ≤ Decimal.round d by omega)).symm

theorem summaryQuota_laws (hfits : Fits64 (Decimal.round (req.quotaCalculateDecimal quotaPerUnit pd usage)))
    (hnonneg : pd.usePrice ∨ pd.modelRatio * pd.groupRatio = 0 → 0 ≤ req.quotaCalculateDecimal quotaPerUnit pd usage) :
    0 ≤ req.summaryQuota quotaPerUnit pd usage ∧
      (usage.promptTokens + usage.completionTokens = 0 → req.summaryQuota quotaPerUnit pd usage = 0) ∧
      (pd.modelRatio * pd.groupRatio ≠ 0 → usage.promptTokens + usage.completionTokens ≠ 0 →
        1 ≤ req.summaryQuota quotaPerUnit pd usage) := by
  rw [summaryQuota_eq hfits hnonneg]
  refine ⟨?_, fun htotal => if_pos htotal, fun hratio htotal => ?_⟩
  · split
    · exact le_refl 0
    split
    · exact le_max_of_le_left (by decide)
    next hratio => exact Decimal.round_nonneg (hnonneg (.inr (not_not.1 hratio)))
  · rw [if_neg htotal, if_pos hratio]
    exact le_max_left ..

theorem summaryQuota_mono {usage' : Usage}
    (hfits : Fits64 (Decimal.round (req.quotaCalculateDecimal quotaPerUnit pd usage)))
    (hfits' : Fits64 (Decimal.round (req.quotaCalculateDecimal quotaPerUnit pd usage')))
    (hnonneg : pd.usePrice ∨ pd.modelRatio * pd.groupRatio = 0 → 0 ≤ req.quotaCalculateDecimal quotaPerUnit pd usage)
    (hle : req.quotaCalculateDecimal quotaPerUnit pd usage ≤ req.quotaCalculateDecimal quotaPerUnit pd usage')
    (htotal : usage'.promptTokens + usage'.completionTokens = 0 → usage.promptTokens + usage.completionTokens = 0) :
    req.summaryQuota quotaPerUnit pd usage ≤ req.summaryQuota quotaPerUnit pd usage' := by
  have hnonneg' := fun h => (hnonneg h).trans hle
  by_cases hzero : usage.promptTokens + usage.completionTokens = 0
  · rw [(summaryQuota_laws hfits hnonneg).2.1 hzero]
    exact (summaryQuota_laws hfits' hnonneg').1
  rw [summaryQuota_eq hfits hnonneg, summaryQuota_eq hfits' hnonneg', if_neg hzero, if_neg fun h => hzero (htotal h)]
  split
  · exact max_le_max_left 1 (Decimal.round_mono hle)
  · exact Decimal.round_mono hle

theorem creationTokensWithRatio_of_claude (hu : usage.Counts) (hclaude : req.isClaudeUsageSemantic usage = true) {x : Int}
    (hx : 0 ≤ x) : req.creationTokensWithRatio pd usage x =
      (max 0 (x - usage.claudeCacheCreation5mTokens - usage.claudeCacheCreation1hTokens) : Int) * pd.cacheCreationRatio +
        usage.claudeCacheCreation5mTokens * pd.cacheCreation5mRatio +
        usage.claudeCacheCreation1hTokens * pd.cacheCreation1hRatio := by
  unfold creationTokensWithRatio
  dsimp only
  split
  · rw [if_neg fun h => h.1 hclaude]
  next h =>
    have h5 := hu.claudeCacheCreation5mTokens
    have h1 := hu.claudeCacheCreation1hTokens
    obtain ⟨rfl, h5', h1'⟩ : x = 0 ∧ usage.claudeCacheCreation5mTokens = 0 ∧ usage.claudeCacheCreation1hTokens = 0 := by
      refine ⟨?_, ?_, ?_⟩ <;> omega
    rw [h5', h1']
    norm_num

/-- The parts of a prompt by their ratios, with what is taken off the prompt for them. -/
def partsWithRatio (req : TextRequest) (pd : PriceData) (usage : Usage) (creationTokens : Int) : ℚ :=
  req.baseTokens usage 0 creationTokens + usage.cachedTokens * pd.cacheRatio + usage.imageTokens * pd.imageRatio +
    req.creationTokensWithRatio pd usage creationTokens

theorem tokensWithRatio_eq {x : Int} : req.tokensWithRatio pd usage p x =
    p + usage.completionTokens * pd.completionRatio + req.partsWithRatio pd usage x := by
  unfold tokensWithRatio partsWithRatio baseTokens
  push_cast
  ring

theorem partsWithRatio_of_claude (hu : usage.Counts) (hclaude : req.isClaudeUsageSemantic usage = true) {x : Int}
    (hx : 0 ≤ x) : req.partsWithRatio pd usage x =
      (max 0 (x - usage.claudeCacheCreation5mTokens - usage.claudeCacheCreation1hTokens) : Int) * pd.cacheCreationRatio +
        req.partsWithRatio pd usage 0 := by
  have hbase (y : Int) : req.baseTokens usage 0 y =
      0 - usage.imageTokens - (if 0 < req.audioInputPrice then usage.promptAudioTokens else 0) := by
    unfold baseTokens
    dsimp only
    rw [if_pos (Or.inl hclaude), sub_zero]
  have hzero : (max 0 (0 - usage.claudeCacheCreation5mTokens - usage.claudeCacheCreation1hTokens) : Int) = 0 := by
    have h5 := hu.claudeCacheCreation5mTokens
    have h1 := hu.claudeCacheCreation1hTokens
    omega
  unfold partsWithRatio
  rw [creationTokensWithRatio_of_claude hu hclaude hx, creationTokensWithRatio_of_claude hu hclaude le_rfl, hzero, hbase,
    hbase]
  push_cast
  ring

theorem partsWithRatio_mono (hpd : pd.RatiosNonneg) (hu : usage.Counts)
    (hclaude : req.isClaudeUsageSemantic usage = true) {x y : Int} (hx : 0 ≤ x) (hxy : x ≤ y) :
    req.partsWithRatio pd usage x ≤ req.partsWithRatio pd usage y ∧
      req.partsWithRatio pd usage y ≤ y * pd.cacheCreationRatio + req.partsWithRatio pd usage 0 := by
  rw [partsWithRatio_of_claude hu hclaude hx, partsWithRatio_of_claude hu hclaude (hx.trans hxy)]
  have hratio := hpd.cacheCreationRatio
  have h5 := hu.claudeCacheCreation5mTokens
  have h1 := hu.claudeCacheCreation1hTokens
  have hmax : max 0 (x - usage.claudeCacheCreation5mTokens - usage.claudeCacheCreation1hTokens) ≤
      max 0 (y - usage.claudeCacheCreation5mTokens - usage.claudeCacheCreation1hTokens) := by omega
  have hle : max 0 (y - usage.claudeCacheCreation5mTokens - usage.claudeCacheCreation1hTokens) ≤ y := by omega
  constructor
  · have h := mul_le_mul_of_nonneg_right (Int.cast_le (R := ℚ).2 hmax) hratio
    linarith
  · have h := mul_le_mul_of_nonneg_right (Int.cast_le (R := ℚ).2 hle) hratio
    linarith

end

end TextRequest

/-! ## What OpenRouter does not tell -/

section
variable {quotaPerUnit : ℚ} {pd : PriceData} {usage : Usage} {p c : Int}

/-- The tokens by their ratios, less the prompt that was not cached by its own. -/
def costOf (pd : PriceData) (usage : Usage) : ℚ :=
  (usage.promptTokens - usage.cachedTokens : Int) + usage.cachedTokens * pd.cacheRatio +
    usage.completionTokens * pd.completionRatio

theorem calcOpenRouterCacheCreateTokens_zero (hratio : pd.cacheCreationRatio ≠ 1) :
    calcOpenRouterCacheCreateTokens quotaPerUnit 0 pd usage =
      if pd.modelRatio / quotaPerUnit = 0 then 0
      else Decimal.round (costOf pd usage / (1 - pd.cacheCreationRatio)) := by
  unfold calcOpenRouterCacheCreateTokens costOf
  rw [if_neg hratio]
  dsimp only
  split
  next hprice =>
    rw [hprice]
    norm_num
  next hprice =>
    have hdiff : pd.modelRatio / quotaPerUnit * pd.cacheCreationRatio - pd.modelRatio / quotaPerUnit =
        -(pd.modelRatio / quotaPerUnit * (1 - pd.cacheCreationRatio)) := by ring
    have hone : 1 - pd.cacheCreationRatio ≠ 0 := sub_ne_zero.2 (Ne.symm hratio)
    congr 1
    rw [hdiff, div_eq_div_iff (neg_ne_zero.2 (mul_ne_zero hprice hone)) hone]
    push_cast
    ring

theorem costOf_ge (hpd : pd.RatiosNonneg) (hu : usage.Counts) :
    ((usage.promptTokens - usage.cachedTokens : Int) : ℚ) ≤ costOf pd usage := by
  have hcached : (0 : ℚ) ≤ usage.cachedTokens := by exact_mod_cast hu.cachedTokens
  have hcompletion : (0 : ℚ) ≤ usage.completionTokens := by exact_mod_cast hu.completionTokens
  have h1 := mul_nonneg hcached hpd.cacheRatio
  have h2 := mul_nonneg hcompletion hpd.completionRatio
  unfold costOf
  linarith

/-- All tokens that were not cached were written: writing costs less than reading them, and the rest of the usage costs
less than a half token. -/
def AllWritten (quotaPerUnit : ℚ) (pd : PriceData) (usage : Usage) : Prop :=
  pd.modelRatio / quotaPerUnit ≠ 0 ∧ pd.cacheCreationRatio < 1 ∧
    costOf pd usage < ((usage.promptTokens - usage.cachedTokens : Int) + 1 / 2) * (1 - pd.cacheCreationRatio)

/-- What is made of a count worked out from a cost of zero: it is none, or all that were not cached. -/
theorem creationTokens_cases (hpd : pd.RatiosNonneg) (hu : usage.Counts) (hratio : pd.cacheCreationRatio ≠ 1) :
    let n := usage.promptTokens - usage.cachedTokens
    let maybe := calcOpenRouterCacheCreateTokens quotaPerUnit 0 pd usage
    AllWritten quotaPerUnit pd usage ∧ (if 0 ≤ maybe ∧ maybe ≤ n then maybe else 0) = n ∨
      ¬ AllWritten quotaPerUnit pd usage ∧ (if 0 ≤ maybe ∧ maybe ≤ n then maybe else 0) = 0 := by
  intro n maybe
  have hparts := hu.parts
  have h1 := hu.cachedCreationTokens
  have h2 := hu.imageTokens
  have h3 := hu.audioTokens
  have hn : 0 ≤ n := by omega
  have hn' : (0 : ℚ) ≤ n := by exact_mod_cast hn
  have hcost : (n : ℚ) ≤ costOf pd usage := costOf_ge hpd hu
  have hmaybe : maybe = if pd.modelRatio / quotaPerUnit = 0 then 0
      else Decimal.round (costOf pd usage / (1 - pd.cacheCreationRatio)) :=
    calcOpenRouterCacheCreateTokens_zero hratio
  by_cases hprice : pd.modelRatio / quotaPerUnit = 0
  · rw [if_pos hprice] at hmaybe
    rw [hmaybe, ite_self]
    exact .inr ⟨fun h => h.1 hprice, rfl⟩
  rw [if_neg hprice] at hmaybe
  rcases lt_or_gt_of_ne hratio with hlt | hgt
  · have hpos : 0 < 1 - pd.cacheCreationRatio := sub_pos.2 hlt
    have hq : (n : ℚ) ≤ costOf pd usage / (1 - pd.cacheCreationRatio) := by
      rw [le_div_iff₀ hpos]
      have h := mul_nonneg hn' hpd.cacheCreationRatio
      linarith
    have hge : n ≤ maybe := by
      have h := Decimal.round_mono hq
      rwa [Decimal.round_intCast, ← hmaybe] at h
    have hle : maybe ≤ n ↔ costOf pd usage < (n + 1 / 2) * (1 - pd.cacheCreationRatio) := by
      have habs := Decimal.abs_round_le_iff (costOf pd usage / (1 - pd.cacheCreationRatio)) n
      rw [← hmaybe, abs_of_nonneg (hn.trans hge), abs_of_nonneg (hn'.trans hq), div_lt_iff₀ hpos] at habs
      exact habs
    by_cases hall : costOf pd usage < (n + 1 / 2) * (1 - pd.cacheCreationRatio)
    · rw [if_pos ⟨hn.trans hge, hle.2 hall⟩]
      exact .inl ⟨⟨hprice, hlt, hall⟩, le_antisymm (hle.2 hall) hge⟩
    · rw [if_neg fun h => hall (hle.1 h.2)]
      exact .inr ⟨fun h => hall h.2.2, rfl⟩
  · have hnonpos : maybe ≤ 0 := by
      rw [hmaybe]
      exact Decimal.round_nonpos (div_nonpos_of_nonneg_of_nonpos (hn'.trans hcost) (by linarith))
    refine .inr ⟨fun h => absurd h.2.1 (not_lt.2 hgt.le), ?_⟩
    split
    next h => exact le_antisymm hnonpos h.1
    · rfl

theorem AllWritten.of_tokens (hpd : pd.RatiosNonneg) (hp : usage.promptTokens ≤ p) (hc : usage.completionTokens ≤ c)
    (h : AllWritten quotaPerUnit pd (usage.tokens p c)) : AllWritten quotaPerUnit pd usage := by
  obtain ⟨hprice, hlt, hcost⟩ := h
  refine ⟨hprice, hlt, ?_⟩
  have h1 : (usage.promptTokens : ℚ) ≤ p := by exact_mod_cast hp
  have h2 : (usage.completionTokens : ℚ) ≤ c := by exact_mod_cast hc
  have h3 := mul_le_mul_of_nonneg_right h2 hpd.completionRatio
  have h4 := mul_le_mul_of_nonneg_right h1 hpd.cacheCreationRatio
  unfold costOf Usage.tokens at *
  push_cast at hcost ⊢
  linarith

end

/-! ## The laws -/

section
variable {setting : TextSetting} {info : TextInfo} {ctx : Context} {usage : Usage} {p c : Int}

/-- A summary that charges nothing negative. -/
structure ChargesNonneg (summary : TextQuotaSummary) : Prop where
  groupRatio : 0 ≤ summary.groupRatio
  webSearchPrice : 0 ≤ summary.webSearchPrice
  claudeWebSearchPrice : 0 ≤ summary.claudeWebSearchPrice
  fileSearchPrice : 0 ≤ summary.fileSearchPrice
  imageGenerationCallPrice : 0 ≤ summary.imageGenerationCallPrice

theorem ChargesNonneg.addAll {prices : ToolPrices} {summary : TextQuotaSummary} {tools : Option BuiltInTools}
    (htool : ∀ toolName modelName, 0 ≤ prices.getToolPriceForModel toolName modelName)
    (himage : ∀ quality size, 0 ≤ prices.getGPTImage1PriceOnceCall quality size) (h : ChargesNonneg summary) :
    ChargesNonneg (ToolCalls.addImageGeneration prices ctx (ToolCalls.addFileSearch prices tools
      (ToolCalls.addClaudeWebSearch prices ctx (ToolCalls.addWebSearch prices tools summary)))) := by
  have hweb : ChargesNonneg (ToolCalls.addWebSearch prices tools summary) := by
    unfold ToolCalls.addWebSearch
    cases tools with
    | none =>
      dsimp only
      split
      · exact { h with webSearchPrice := htool _ _ }
      · exact h
    | some builtInTools =>
      dsimp only
      split
      · split
        · exact { h with webSearchPrice := htool _ _ }
        · exact h
      · exact h
  have hclaude : ChargesNonneg (ToolCalls.addClaudeWebSearch prices ctx (ToolCalls.addWebSearch prices tools summary)) := by
    refine { hweb with claudeWebSearchPrice := ?_ }
    unfold ToolCalls.addClaudeWebSearch
    dsimp only
    split
    · exact htool _ _
    · exact hweb.claudeWebSearchPrice
  generalize ToolCalls.addClaudeWebSearch prices ctx (ToolCalls.addWebSearch prices tools summary) = summary' at hclaude
  have hfile : ChargesNonneg (ToolCalls.addFileSearch prices tools summary') := by
    unfold ToolCalls.addFileSearch
    split
    · split
      · exact { hclaude with fileSearchPrice := htool _ _ }
      · exact hclaude
    · exact hclaude
  unfold ToolCalls.addImageGeneration
  split
  · exact { hfile with imageGenerationCallPrice := himage _ _ }
  · exact hfile

theorem toolCallSurcharge_nonneg (hpd : info.priceData.RatiosNonneg) (hprices : setting.PricesNonneg info.priceData) :
    0 ≤ toolCallSurcharge setting info ctx := by
  have himage (quality size : String) : 0 ≤ getGPTImage1PriceOnceCall quality size := by
    unfold getGPTImage1PriceOnceCall
    split <;> norm_num
  have hsummary : ChargesNonneg { modelName := info.originModelName, groupRatio := info.priceData.groupRatio } :=
    ⟨hpd.groupRatio, le_rfl, le_rfl, le_rfl, le_rfl⟩
  have hall := @ChargesNonneg.addAll ctx ⟨setting.getToolPriceForModel, getGPTImage1PriceOnceCall⟩ _
    info.responsesUsageInfo hprices.tool himage hsummary
  have hunit := hprices.quotaPerUnit
  unfold toolCallSurcharge ToolCalls.calculateTextToolCallSurcharge
  dsimp only
  generalize ToolCalls.addImageGeneration _ ctx _ = summary at hall
  obtain ⟨hgroup, hweb, hclaude, hfile, hgenerated⟩ := hall
  have hcount : (0 : ℚ) ≤ (if summary.claudeWebSearchCallCount > 0 then summary.claudeWebSearchCallCount else 0 : Int) := by
    split
    next h => exact_mod_cast h.le
    · exact le_rfl
  positivity

theorem Usage.Counts.tokens (hu : usage.Counts) (hp : usage.promptTokens ≤ p) (hc : usage.completionTokens ≤ c) :
    (usage.tokens p c).Counts :=
  { hu with
    promptTokens := hu.promptTokens.trans hp
    completionTokens := hu.completionTokens.trans hc
    parts := hu.parts.trans hp }

/-- Whether the written tokens are worked out from the cost of the answer. -/
def WorkedOut (setting : TextSetting) (info : TextInfo) (usage : Usage) : Prop :=
  usage.cachedCreationTokens = 0 ∧ info.priceData.cacheCreationRatio ≠ 1 ∧
    ¬ (info.priceData.usePrice ∨ hasCustomModelRatio setting info.originModelName info.priceData.modelRatio)

theorem promptAndCreationTokens_of_told
    (htold : (textRequest setting info ctx 0).openRouter ∧ (textRequest setting info ctx 0).isClaudeUsageSemantic usage) :
    let maybe := calcOpenRouterCacheCreateTokens setting.quotaPerUnit 0 info.priceData usage
    let n := usage.promptTokens - usage.cachedTokens
    (textRequest setting info ctx 0).promptAndCreationTokens info.priceData usage =
        (n - usage.cachedCreationTokens, usage.cachedCreationTokens) ∧ ¬ WorkedOut setting info usage ∨
      (textRequest setting info ctx 0).promptAndCreationTokens info.priceData usage =
        (n - (if 0 ≤ maybe ∧ maybe ≤ n then maybe else 0), if 0 ≤ maybe ∧ maybe ≤ n then maybe else 0) ∧
        WorkedOut setting info usage := by
  intro maybe n
  unfold TextRequest.promptAndCreationTokens
  rw [if_pos htold]
  dsimp only
  by_cases hout : WorkedOut setting info usage
  · refine .inr ⟨?_, hout⟩
    by_cases hmaybe : 0 ≤ maybe ∧ maybe ≤ n
    · rw [if_pos hmaybe]
      exact congrArg (fun x => (n - x, x)) (if_pos ⟨hout.1, hout.2.1, hout.2.2, hmaybe⟩)
    · rw [if_neg hmaybe]
      exact congrArg (fun x => (n - x, x)) ((if_neg fun h => hmaybe h.2.2.2).trans hout.1)
  · exact .inl ⟨congrArg (fun x => (n - x, x)) (if_neg fun h => hout ⟨h.1, h.2.1, h.2.2.1⟩), hout⟩

/-- With more tokens, the tokens by their ratios are not less. -/
theorem tokensWithRatio_mono (hpd : info.priceData.RatiosNonneg) (hu : usage.Counts) (hp : usage.promptTokens ≤ p)
    (hc : usage.completionTokens ≤ c) :
    let req := textRequest setting info ctx 0
    req.tokensWithRatio info.priceData usage (req.promptAndCreationTokens info.priceData usage).1
        (req.promptAndCreationTokens info.priceData usage).2 ≤
      req.tokensWithRatio info.priceData (usage.tokens p c)
        (req.promptAndCreationTokens info.priceData (usage.tokens p c)).1
        (req.promptAndCreationTokens info.priceData (usage.tokens p c)).2 := by
  intro req
  have hprompt : (usage.promptTokens : ℚ) ≤ p := by exact_mod_cast hp
  have hcompletion : (usage.completionTokens : ℚ) * info.priceData.completionRatio ≤
      c * info.priceData.completionRatio :=
    mul_le_mul_of_nonneg_right (by exact_mod_cast hc) hpd.completionRatio
  have hu' := hu.tokens hp hc
  have hparts (x : Int) : req.partsWithRatio info.priceData (usage.tokens p c) x =
      req.partsWithRatio info.priceData usage x := rfl
  have hcount : ((usage.tokens p c).completionTokens : ℚ) = c := rfl
  rw [TextRequest.tokensWithRatio_eq, TextRequest.tokensWithRatio_eq, hparts, hcount]
  by_cases htold : req.openRouter ∧ req.isClaudeUsageSemantic usage
  swap
  · have hpair : req.promptAndCreationTokens info.priceData usage =
        (usage.promptTokens, usage.cachedCreationTokens) := if_neg htold
    have hpair' : req.promptAndCreationTokens info.priceData (usage.tokens p c) = (p, usage.cachedCreationTokens) :=
      if_neg htold
    rw [hpair, hpair']
    dsimp only
    linarith
  have hcached := hu.cachedTokens
  have hn : 0 ≤ usage.promptTokens - usage.cachedTokens := by
    have h1 := hu.parts
    have h2 := hu.cachedCreationTokens
    have h3 := hu.imageTokens
    have h4 := hu.audioTokens
    omega
  have hn' : usage.promptTokens - usage.cachedTokens ≤ p - usage.cachedTokens := by omega
  have hmore := @promptAndCreationTokens_of_told setting info ctx (usage.tokens p c) htold
  rcases promptAndCreationTokens_of_told htold with ⟨hpair, hout⟩ | ⟨hpair, hout⟩
  · obtain ⟨hpair', -⟩ | ⟨-, hout'⟩ := hmore
    · rw [hpair, hpair']
      dsimp only [Usage.tokens]
      push_cast
      linarith
    · exact absurd hout' hout
  · obtain ⟨-, hout'⟩ | ⟨hpair', -⟩ := hmore
    · exact absurd hout hout'
    rw [hpair, hpair']
    dsimp only
    have hcases := @creationTokens_cases setting.quotaPerUnit info.priceData usage hpd hu hout.2.1
    rcases @creationTokens_cases setting.quotaPerUnit _ _ hpd hu' hout.2.1 with ⟨hall', hx'⟩ | ⟨-, hx'⟩
    · -- all was written with fewer tokens too
      have hall := hall'.of_tokens hpd hp hc
      obtain ⟨-, hx⟩ | ⟨hnot, -⟩ := hcases
      · rw [hx, hx', sub_self, sub_self]
        have h := (@TextRequest.partsWithRatio_mono req _ _ hpd hu htold.2 _ _ hn hn').1
        dsimp only [Usage.tokens]
        linarith
      · exact absurd hall hnot
    · rw [hx', sub_zero]
      dsimp only [Usage.tokens]
      obtain ⟨hall, hx⟩ | ⟨-, hx⟩ := hcases
      · rw [hx, sub_self]
        have h := (@TextRequest.partsWithRatio_mono req _ _ hpd hu htold.2 _ _ le_rfl hn).2
        have hless : ((usage.promptTokens - usage.cachedTokens : Int) : ℚ) * info.priceData.cacheCreationRatio ≤
            (usage.promptTokens - usage.cachedTokens : Int) :=
          mul_le_of_le_one_right (by exact_mod_cast hn) hall.2.1.le
        push_cast at h hless ⊢
        linarith
      · rw [hx, sub_zero]
        push_cast
        linarith

theorem textDecimal_nonneg (hpd : info.priceData.RatiosNonneg) (hprices : setting.PricesNonneg info.priceData)
    (hu : usage.Counts) (h : info.priceData.usePrice ∨ info.priceData.modelRatio * info.priceData.groupRatio = 0) :
    0 ≤ (textRequest setting info ctx 0).quotaCalculateDecimal setting.quotaPerUnit info.priceData usage :=
  TextRequest.quotaCalculateDecimal_nonneg hpd hprices.quotaPerUnit hprices.modelPrice
    (toolCallSurcharge_nonneg hpd hprices) hu.audioTokens fun huse =>
      h.resolve_left fun htrue => Bool.false_ne_true (huse.symm.trans htrue)

theorem summaryQuota_tokens (hpd : info.priceData.RatiosNonneg) (hprices : setting.PricesNonneg info.priceData)
    (hu : usage.Counts) (hp : usage.promptTokens ≤ p) (hc : usage.completionTokens ≤ c)
    (hfits : Fits64 (Decimal.round (textQuotaDecimal setting info ctx 0 usage)))
    (hfits' : Fits64 (Decimal.round (textQuotaDecimal setting info ctx 0 (usage.tokens p c)))) :
    calculateTextQuotaSummary setting info ctx 0 usage ≤ calculateTextQuotaSummary setting info ctx 0 (usage.tokens p c) := by
  refine TextRequest.summaryQuota_mono hfits hfits' (textDecimal_nonneg hpd hprices hu)
    (TextRequest.quotaCalculateDecimal_mono hpd fun _ => tokensWithRatio_mono hpd hu hp hc) fun htotal => ?_
  have h1 := hu.promptTokens
  have h2 := hu.completionTokens
  have htotal' : p + c = 0 := htotal
  show usage.promptTokens + usage.completionTokens = 0
  omega

/-- The laws of the quota of a text request whose answer has no cost, where no ratio, price or count is negative. -/
theorem textQuota_laws (hpd : info.priceData.RatiosNonneg) (hprices : setting.PricesNonneg info.priceData) :
    (∀ usage : Option Usage, (pricedUsage info usage).Counts →
      Fits64 (Decimal.round (textQuotaDecimal setting info ctx 0 usage)) →
      let tokens := (pricedUsage info usage).promptTokens + (pricedUsage info usage).completionTokens
      0 ≤ calculateTextQuotaSummary setting info ctx 0 usage ∧
        (tokens = 0 → calculateTextQuotaSummary setting info ctx 0 usage = 0) ∧
        (info.priceData.modelRatio * info.priceData.groupRatio ≠ 0 → tokens ≠ 0 →
          1 ≤ calculateTextQuotaSummary setting info ctx 0 usage)) ∧
    ∀ (usage : Usage) (p c : Int), usage.Counts → usage.promptTokens ≤ p → usage.completionTokens ≤ c →
      Fits64 (Decimal.round (textQuotaDecimal setting info ctx 0 usage)) →
      Fits64 (Decimal.round (textQuotaDecimal setting info ctx 0 (usage.tokens p c))) →
      calculateTextQuotaSummary setting info ctx 0 usage ≤
        calculateTextQuotaSummary setting info ctx 0 (usage.tokens p c) :=
  ⟨fun _ hu hfits => TextRequest.summaryQuota_laws hfits (textDecimal_nonneg hpd hprices hu),
    fun _ _ _ hu hp hc hfits hfits' => summaryQuota_tokens hpd hprices hu hp hc hfits hfits'⟩

end

/-! ### A price of its own -/

def exampleSetting : TextSetting where
  quotaPerUnit := 500000
  getToolPriceForModel _ _ := 10
  defaultModelRatio _ := none

/-- A model with a price for each call. -/
def pricedInfo (price : Int) : TextInfo where
  originModelName := "m"
  priceData := { modelPrice := price, modelRatio := 0, groupRatio := 1, usePrice := true }

def fewTokens : Usage := { promptTokens := 3, completionTokens := 2, totalTokens := 5 }

theorem pricedInfo_ratios (price : Int) : (pricedInfo price).priceData.RatiosNonneg := by
  refine ⟨?_, ?_, ?_, ?_, ?_, ?_, ?_, ?_, nofun⟩ <;> norm_num [pricedInfo]

theorem fewTokens_counts : fewTokens.Counts := by
  refine ⟨?_, ?_, ?_, ?_, ?_, ?_, ?_, ?_, ?_⟩ <;> decide

theorem textQuotaDecimal_priced (price : Int) :
    textQuotaDecimal exampleSetting (pricedInfo price) {} 0 fewTokens = (price * 500000 : Int) := by
  have hsuffix : GoString.hasSuffix "m" "search-preview" = false := by decide
  have hsurcharge : toolCallSurcharge exampleSetting (pricedInfo price) {} = 0 := by
    simp [toolCallSurcharge, ToolCalls.calculateTextToolCallSurcharge, ToolCalls.addWebSearch,
      ToolCalls.addClaudeWebSearch, ToolCalls.addFileSearch, ToolCalls.addImageGeneration, pricedInfo, hsuffix]
  unfold textQuotaDecimal
  rw [TextRequest.quotaCalculateDecimal_eq]
  show ((price : ℚ) * 500000 * 1 + (toolCallSurcharge exampleSetting (pricedInfo price) {} + 0)) * 1 = _
  rw [hsurcharge]
  push_cast
  ring

theorem fits_priced {price : Int} (h : Fits64 (price * 500000)) :
    Fits64 (Decimal.round (textQuotaDecimal exampleSetting (pricedInfo price) {} 0 fewTokens)) := by
  rwa [textQuotaDecimal_priced, Decimal.round_intCast]

/-- With a price that is not negative, the quota is not negative, and a further prompt token does not make it less. -/
theorem textQuota_laws_priced :
    0 ≤ calculateTextQuotaSummary exampleSetting (pricedInfo 2) {} 0 fewTokens ∧
      calculateTextQuotaSummary exampleSetting (pricedInfo 2) {} 0 fewTokens ≤
        calculateTextQuotaSummary exampleSetting (pricedInfo 2) {} 0 (fewTokens.tokens 4 2) := by
  have hprices : exampleSetting.PricesNonneg (pricedInfo 2).priceData := by
    refine ⟨?_, fun _ => ?_, fun _ _ => ?_⟩ <;> norm_num [exampleSetting, pricedInfo]
  have hfits : Fits64 (Decimal.round (textQuotaDecimal exampleSetting (pricedInfo 2) {} 0 fewTokens)) :=
    fits_priced (by decide)
  obtain ⟨hlaws, hmono⟩ := @textQuota_laws exampleSetting (pricedInfo 2) {} (pricedInfo_ratios 2) hprices
  exact ⟨(hlaws fewTokens fewTokens_counts hfits).1,
    hmono fewTokens 4 2 fewTokens_counts (by decide) le_rfl hfits hfits⟩

/-- A negative price is not raised to one. -/
theorem negativePrice_quota : ¬ ∀ (setting : TextSetting) (info : TextInfo) (ctx : Context) (usage : Usage),
    info.priceData.RatiosNonneg → usage.Counts → Fits64 (Decimal.round (textQuotaDecimal setting info ctx 0 usage)) →
      0 ≤ calculateTextQuotaSummary setting info ctx 0 usage := by
  intro h
  have hfits : Fits64 (Decimal.round (textQuotaDecimal exampleSetting (pricedInfo (-1)) {} 0 fewTokens)) :=
    fits_priced (by decide)
  have hquota : calculateTextQuotaSummary exampleSetting (pricedInfo (-1)) {} 0 fewTokens =
      Decimal.intPart (Decimal.round (textQuotaDecimal exampleSetting (pricedInfo (-1)) {} 0 fewTokens)) := by
    unfold calculateTextQuotaSummary TextRequest.summaryQuota
    dsimp only
    have htotal : ¬ (pricedUsage (pricedInfo (-1)) (some fewTokens)).promptTokens +
        (pricedUsage (pricedInfo (-1)) (some fewTokens)).completionTokens = 0 := by decide
    rw [if_neg htotal, if_neg fun hratio => hratio.1 (zero_mul 1), if_neg fun hclamp => hclamp.1 rfl]
    rfl
  have hle := h exampleSetting (pricedInfo (-1)) {} fewTokens (pricedInfo_ratios (-1)) fewTokens_counts hfits
  rw [hquota, Decimal.intPart_intCast hfits, textQuotaDecimal_priced, Decimal.round_intCast] at hle
  exact absurd hle (by decide)

end Billing

end NewApi

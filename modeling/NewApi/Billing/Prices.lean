import NewApi.Billing.Realtime

/-!
# The three billing paths

A request is priced before it is relayed, and its usage is charged by one of three functions afterwards:
the text path, the audio path and the realtime path. Each has its own copy of the price formula. For a usage
of plain text they charge the same, within a unit, as long as the price of a call is less than one and a half
units where the price is fixed, and the upstream's name has the completion ratio of the client's where it is
not.
-/

namespace NewApi

namespace Billing

/-! ## Pricing a request -/

/-- The arithmetic of `float64`: products are near the exact ones where nothing overflows, and a number
that fits 64 bits is cut off at the point. -/
structure Floats where
  mul : ℚ → ℚ → ℚ
  toInt : ℚ → Int
  near : ∀ a b c, |mul (mul a b) c - a * b * c| ≤ (1 + |a * b * c|) / 2 ^ 40
  toInt_of_lt : ∀ x, |x| < 2 ^ 63 → toInt x = Decimal.trunc x

/-- The settings that prices are taken from. -/
structure PriceSetting extends RatioSetting where
  getModelPrice : String → Option ℚ
  modelRatioSet : String → Bool
  cacheRatio : String → String → ℚ
  createCacheRatio : String → ℚ
  imageRatio : String → ℚ
  preConsumedQuota : Int
  enableFreeModelPreConsume : Bool

/-- The estimate of a request's tokens, with what its metadata say. -/
structure TokenCount where
  promptTokens : Int
  maxTokens : Int := 0
  imagePriceRatio : ℚ := 0

/-- `HandleGroupRatio`. -/
def handleGroupRatio (setting : RatioSetting) (info : RealtimeInfo) : ℚ :=
  (setting.groupGroupRatio info.userGroup info.group).getD (setting.groupRatio info.group)

section
variable (h : Floats) (setting : PriceSetting) (info : RealtimeInfo) (count : TokenCount)

/-- Whether nothing is taken in advance, for what is free. -/
def freeOf (groupRatio price : ℚ) : Bool :=
  ¬ setting.enableFreeModelPreConsume ∧ (groupRatio = 0 ∨ price = 0)

/-- The price data of a fixed price. -/
def fixedPriceData (price : ℚ) : PriceData :=
  let groupRatio := handleGroupRatio setting.toRatioSetting info
  let modelPrice := if count.imagePriceRatio ≠ 0 then h.mul price count.imagePriceRatio else price
  let free := freeOf setting groupRatio modelPrice
  { modelPrice := modelPrice
    modelRatio := 0
    groupRatio := groupRatio
    usePrice := true
    freeModel := free
    quotaToPreConsume :=
      if free then 0 else h.toInt (h.mul (h.mul modelPrice setting.quotaPerUnit) groupRatio) }

/-- The price data of a model that is priced by its ratios. -/
def ratioPriceData : PriceData :=
  let groupRatio := handleGroupRatio setting.toRatioSetting info
  let modelRatio := setting.modelRatio info.originModelName
  let preConsumedTokens := max count.promptTokens setting.preConsumedQuota + count.maxTokens
  let free := freeOf setting groupRatio modelRatio
  { modelPrice := -1
    modelRatio := modelRatio
    groupRatio := groupRatio
    usePrice := false
    completionRatio := setting.completionRatio info.originModelName
    cacheRatio := setting.cacheRatio info.originModelName info.group
    cacheCreationRatio := setting.createCacheRatio info.originModelName
    cacheCreation5mRatio := setting.createCacheRatio info.originModelName
    cacheCreation1hRatio := h.mul (setting.createCacheRatio info.originModelName) (8 / 5)
    imageRatio := setting.imageRatio info.originModelName
    freeModel := free
    quotaToPreConsume := if free then 0 else h.toInt (h.mul preConsumedTokens (h.mul modelRatio groupRatio)) }

/-- `ModelPriceHelper`, for a model that no expression prices. -/
def modelPriceHelper (acceptUnsetRatio : Bool) : Option PriceData :=
  match setting.getModelPrice info.originModelName with
  | some price => some (fixedPriceData h setting info count price)
  | none =>
    if setting.modelRatioSet info.originModelName ∨ acceptUnsetRatio then
      some (ratioPriceData h setting info count)
    else none

end

/-! ## The usage of a request -/

/-- `Usage`, with the details that prices depend on. -/
structure Usage where
  promptTokens : Int := 0
  completionTokens : Int := 0
  totalTokens : Int := 0
  promptTextTokens : Int := 0
  promptAudioTokens : Int := 0
  completionTextTokens : Int := 0
  completionAudioTokens : Int := 0
  cachedTokens : Int := 0
  cachedCreationTokens : Int := 0
  imageTokens : Int := 0
  claudeCacheCreation5mTokens : Int := 0
  claudeCacheCreation1hTokens : Int := 0
  usageSemantic : String := ""
  usageSource : String := ""

/-- What the text path takes from the request: its channel and format, the prices of tools and of audio
input, and how many tokens the cost of an answer tells to have been cached. -/
structure TextRequest where
  claudeFormat : Bool := false
  openRouter : Bool := false
  hasCustomModelRatio : Bool := false
  calcCacheCreateTokens : Usage → Int := fun _ => -1
  toolCallSurcharge : ℚ := 0
  audioInputPrice : ℚ := 0
  smartrelayCacheHit : Bool := false

namespace TextRequest

/-- `usageSemanticFromUsage`, for Claude's semantic. -/
def isClaudeUsageSemantic (req : TextRequest) (usage : Usage) : Bool :=
  if usage.usageSemantic ≠ "" then usage.usageSemantic = "anthropic" else req.claudeFormat

/-- `isLegacyClaudeDerivedOpenAIUsage`. -/
def isLegacyClaudeDerived (req : TextRequest) (usage : Usage) : Bool :=
  ¬ req.claudeFormat ∧ usage.usageSource = "" ∧ usage.usageSemantic = "" ∧
    (0 < usage.claudeCacheCreation5mTokens ∨ 0 < usage.claudeCacheCreation1hTokens)

/-- The prompt tokens and the cached ones of a usage: where OpenRouter tells them in one sum, they are
told apart. -/
def promptAndCreationTokens (req : TextRequest) (pd : PriceData) (usage : Usage) : Int × Int :=
  if req.openRouter ∧ req.isClaudeUsageSemantic usage then
    let promptTokens := usage.promptTokens - usage.cachedTokens
    let maybe := req.calcCacheCreateTokens usage
    let creationTokens :=
      -- The cost is an interface, which never equals the integer zero.
      if usage.cachedCreationTokens = 0 ∧ pd.cacheCreationRatio ≠ 1 ∧
          ¬ (pd.usePrice ∨ req.hasCustomModelRatio) ∧ 0 ≤ maybe ∧ maybe ≤ promptTokens then maybe
      else usage.cachedCreationTokens
    (promptTokens - creationTokens, creationTokens)
  else (usage.promptTokens, usage.cachedCreationTokens)

/-- The cached tokens that were written, by their ratios. -/
def creationTokensWithRatio (req : TextRequest) (pd : PriceData) (usage : Usage) (creationTokens : Int) : ℚ :=
  let tokens5m := usage.claudeCacheCreation5mTokens
  let tokens1h := usage.claudeCacheCreation1hTokens
  if creationTokens ≠ 0 ∨ 0 < tokens5m ∨ 0 < tokens1h then
    if ¬ req.isClaudeUsageSemantic usage ∧ ¬ req.isLegacyClaudeDerived usage then
      creationTokens * pd.cacheCreationRatio
    else
      (max 0 (creationTokens - tokens5m - tokens1h) : Int) * pd.cacheCreationRatio +
        tokens5m * pd.cacheCreation5mRatio + tokens1h * pd.cacheCreation1hRatio
  else 0

/-- The prompt tokens that are priced at the ratio one. -/
def baseTokens (req : TextRequest) (usage : Usage) (promptTokens creationTokens : Int) : Int :=
  let separate := req.isClaudeUsageSemantic usage ∨ req.isLegacyClaudeDerived usage
  promptTokens - (if separate then 0 else usage.cachedTokens + creationTokens) - usage.imageTokens -
    (if 0 < req.audioInputPrice then usage.promptAudioTokens else 0)

/-- The price of audio input. -/
def audioInputQuota (req : TextRequest) (quotaPerUnit : ℚ) (pd : PriceData) (usage : Usage) : ℚ :=
  if ¬ pd.usePrice ∧ usage.promptAudioTokens ≠ 0 ∧ 0 < req.audioInputPrice then
    Decimal.divRound req.audioInputPrice 1000000 * usage.promptAudioTokens * pd.groupRatio * quotaPerUnit
  else 0

/-- The quota of a usage as a decimal. -/
def quotaCalculateDecimal (req : TextRequest) (quotaPerUnit : ℚ) (pd : PriceData) (usage : Usage) : ℚ :=
  let (promptTokens, creationTokens) := req.promptAndCreationTokens pd usage
  let surcharge := req.toolCallSurcharge + req.audioInputQuota quotaPerUnit pd usage
  let quota :=
    if pd.usePrice then pd.modelPrice * quotaPerUnit * pd.groupRatio
    else
      (req.baseTokens usage promptTokens creationTokens + usage.cachedTokens * pd.cacheRatio +
        usage.imageTokens * pd.imageRatio + req.creationTokensWithRatio pd usage creationTokens +
        usage.completionTokens * pd.completionRatio) * (pd.modelRatio * pd.groupRatio)
  pd.otherRatios.foldl (· * ·) (quota + surcharge)

/-- `calculateTextQuotaSummary`: the quota of the summary. -/
def summaryQuota (req : TextRequest) (quotaPerUnit : ℚ) (pd : PriceData) (usage : Usage) : Int :=
  let ratio := pd.modelRatio * pd.groupRatio
  let decimal := req.quotaCalculateDecimal quotaPerUnit pd usage
  let decimal := if ¬ pd.usePrice ∧ ratio ≠ 0 ∧ decimal ≤ 0 then 1 else decimal
  let quota := Decimal.intPart (Decimal.round decimal)
  if usage.promptTokens + usage.completionTokens = 0 then 0
  else if ratio ≠ 0 ∧ quota = 0 then 1
  else quota

/-- The quota that `PostTextConsumeQuota` settles. What is replayed from the cache costs nothing. -/
def quota (req : TextRequest) (quotaPerUnit : ℚ) (pd : PriceData) (usage : Usage) : Int :=
  if req.smartrelayCacheHit then 0 else req.summaryQuota quotaPerUnit pd usage

end TextRequest

/-- The usage of a realtime session with the same tokens. -/
def Usage.realtime (usage : Usage) : RealtimeUsage where
  totalTokens := usage.totalTokens
  inputTokens := usage.promptTokens
  outputTokens := usage.completionTokens
  inputCachedTokens := usage.cachedTokens
  inputTextTokens := usage.promptTextTokens
  inputAudioTokens := usage.promptAudioTokens
  outputTextTokens := usage.completionTextTokens
  outputAudioTokens := usage.completionAudioTokens

/-- The prices of `PostAudioConsumeQuota`, which leaves the model price at zero as well. -/
def RealtimeInfo.audioInfo (info : RealtimeInfo) : QuotaInfo where
  modelName := info.originModelName
  usePrice := info.priceData.usePrice
  modelPrice := 0
  modelRatio := info.priceData.modelRatio
  groupRatio := info.priceData.groupRatio

/-- The quota that `PostAudioConsumeQuota` settles. -/
def audioQuota (setting : RatioSetting) (info : RealtimeInfo) (usage : Usage) : Int :=
  if usage.totalTokens = 0 then 0 else calculateAudioQuota setting info.audioInfo usage.realtime

/-! ## What the paths should charge -/

/-- Equal, or next to each other. -/
def Neighbours (a b : Int) : Prop := |a - b| ≤ 1

/-- Nothing but tokens is charged: no tools are, and the answer is not replayed. -/
structure TextRequest.Plain (req : TextRequest) : Prop where
  toolCallSurcharge : req.toolCallSurcharge = 0
  smartrelayCacheHit : req.smartrelayCacheHit = false

/-- A usage of plain text: no other tokens are in it, and none are told apart by their cost. -/
structure PlainText (req : TextRequest) (usage : Usage) : Prop where
  promptTokens : 0 ≤ usage.promptTokens
  completionTokens : 0 ≤ usage.completionTokens
  total : usage.totalTokens = usage.promptTokens + usage.completionTokens
  positive : 0 < usage.totalTokens
  promptText : usage.promptTextTokens = usage.promptTokens
  completionText : usage.completionTextTokens = usage.completionTokens
  promptAudio : usage.promptAudioTokens = 0
  completionAudio : usage.completionAudioTokens = 0
  cached : usage.cachedTokens = 0
  creation : usage.cachedCreationTokens = 0
  creation5m : usage.claudeCacheCreation5mTokens = 0
  creation1h : usage.claudeCacheCreation1hTokens = 0
  image : usage.imageTokens = 0
  told : ¬ (req.openRouter ∧ req.isClaudeUsageSemantic usage)

/-- The three paths charge the same for a usage, within a unit, and where the price is fixed this is what
has been taken in advance. -/
structure PathsAgree (setting : RatioSetting) (req : TextRequest) (info : RealtimeInfo) (usage : Usage) :
    Prop where
  textAudio : Neighbours (req.quota setting.quotaPerUnit info.priceData usage) (audioQuota setting info usage)
  textRealtime : Neighbours (req.quota setting.quotaPerUnit info.priceData usage)
    (sessionQuota setting info usage.realtime)
  audioRealtime : Neighbours (audioQuota setting info usage) (sessionQuota setting info usage.realtime)
  preConsumed : info.priceData.usePrice = true →
    Neighbours (req.quota setting.quotaPerUnit info.priceData usage) info.priceData.quotaToPreConsume ∧
      Neighbours (audioQuota setting info usage) info.priceData.quotaToPreConsume ∧
      Neighbours (sessionQuota setting info usage.realtime) info.priceData.quotaToPreConsume

/-- The price of a call where it is fixed. -/
def callPrice (setting : RatioSetting) (pd : PriceData) : ℚ :=
  pd.modelPrice * setting.quotaPerUnit * pd.groupRatio

/-- The condition for the paths to agree. -/
def PricedAlike (setting : RatioSetting) (info : RealtimeInfo) : Prop :=
  if info.priceData.usePrice then |callPrice setting info.priceData| < 3 / 2
  else info.priceData.modelRatio * info.priceData.groupRatio = 0 ∨
    setting.completionRatio info.upstreamModelName = setting.completionRatio info.originModelName

/-- Prices stay within 64 bits: that of a call, or else those of some number of completion tokens that tells
the two completion ratios apart. -/
def InRange (setting : RatioSetting) (info : RealtimeInfo) : Prop :=
  if info.priceData.usePrice then |callPrice setting info.priceData| ≤ 2 ^ 62
  else
    let price := fun name (tokens : Int) =>
      tokens * setting.completionRatio name * (info.priceData.modelRatio * info.priceData.groupRatio)
    ∃ tokens : Int, 0 < tokens ∧
      (0 ≤ price info.originModelName tokens ∧ price info.originModelName tokens ≤ 2 ^ 62) ∧
      (0 ≤ price info.upstreamModelName tokens ∧ price info.upstreamModelName tokens ≤ 2 ^ 62) ∧
      3 < |price info.originModelName tokens - price info.upstreamModelName tokens|

/-! ## What the paths charge -/

theorem neighbours_of_near {a b : Int} {x y : ℚ} (ha : |x - a| ≤ 1 / 2) (hb : |y - b| < 1)
    (hxy : |y - x| ≤ 1 / 4) : Neighbours a b := by
  rw [abs_le] at ha hxy
  rw [abs_lt] at hb
  have hlt : |(a : ℚ) - b| < 2 := by
    rw [abs_lt]
    constructor
    · linarith
    · linarith
  have hint : |a - b| < 2 := by exact_mod_cast hlt
  rw [Neighbours]
  omega

/-- The charge for a quota: a unit at least, unless it is free. -/
def charged (ratio quota : ℚ) : Int :=
  Decimal.intPart (Decimal.round (if ratio ≠ 0 ∧ quota ≤ 0 then 1 else quota))

/-- The text path makes sure of the unit once more, after it has rounded. -/
def atLeastOne (ratio : ℚ) (quota : Int) : Int := if ratio ≠ 0 ∧ quota = 0 then 1 else quota

theorem neighbours_refl (q : Int) : Neighbours q q := by simp [Neighbours]

theorem neighbours_atLeastOne (ratio : ℚ) (q : Int) : Neighbours (atLeastOne ratio q) q := by
  unfold atLeastOne
  split
  · rename_i hzero
    rw [hzero.2]
    simp [Neighbours]
  · exact neighbours_refl q

theorem charged_near {ratio quota : ℚ} (hlo : 0 ≤ quota) (hhi : quota ≤ 2 ^ 62) :
    |quota - charged ratio quota| ≤ 1 := by
  have hround := Decimal.abs_sub_round_le quota
  have hfits : Fits64 (Decimal.round quota) := by
    have h := (Decimal.abs_round_le_iff quota (2 ^ 62)).2 (by
      rw [abs_of_nonneg hlo]
      push_cast
      linarith)
    rw [abs_le] at h
    constructor
    · omega
    · omega
  unfold charged
  split
  · rename_i hzero
    have hone : Decimal.round (1 : ℚ) = 1 := by simpa using Decimal.round_intCast 1
    rw [hone, Decimal.intPart_intCast (by decide), le_antisymm hzero.2 hlo]
    norm_num
  · rw [Decimal.intPart_intCast hfits]
    linarith

theorem atLeastOne_near {ratio quota : ℚ} {q : Int} (hlo : 0 ≤ quota) (hnear : |quota - q| ≤ 1) :
    |quota - atLeastOne ratio q| ≤ 1 := by
  unfold atLeastOne
  split
  · rename_i hzero
    rw [hzero.2, Int.cast_zero, sub_zero, abs_of_nonneg hlo] at hnear
    rw [Int.cast_one, abs_le]
    constructor
    · linarith
    · linarith
  · exact hnear

section
variable {req : TextRequest} {info : RealtimeInfo} {usage : Usage} {setting : RatioSetting} {pd : PriceData}

theorem PlainText.promptAndCreation (hplain : PlainText req usage) :
    req.promptAndCreationTokens pd usage = (usage.promptTokens, 0) := by
  rw [TextRequest.promptAndCreationTokens, if_neg hplain.told, hplain.creation]

theorem PlainText.creationTokens (hplain : PlainText req usage) :
    req.creationTokensWithRatio pd usage 0 = 0 := by
  rw [TextRequest.creationTokensWithRatio, hplain.creation5m, hplain.creation1h, if_neg (by simp)]

theorem PlainText.baseTokens (hplain : PlainText req usage) :
    req.baseTokens usage usage.promptTokens 0 = usage.promptTokens := by
  simp [TextRequest.baseTokens, hplain.cached, hplain.image, hplain.promptAudio]

theorem PlainText.audioInput (hplain : PlainText req usage) (quotaPerUnit : ℚ) :
    req.audioInputQuota quotaPerUnit pd usage = 0 := by
  rw [TextRequest.audioInputQuota, if_neg fun h => h.2.1 hplain.promptAudio]

theorem PlainText.decimal (hreq : req.Plain) (hplain : PlainText req usage) (hother : pd.otherRatios = [])
    (quotaPerUnit : ℚ) :
    req.quotaCalculateDecimal quotaPerUnit pd usage =
      if pd.usePrice then pd.modelPrice * quotaPerUnit * pd.groupRatio
      else (usage.promptTokens + usage.completionTokens * pd.completionRatio) *
        (pd.modelRatio * pd.groupRatio) := by
  rw [TextRequest.quotaCalculateDecimal, hplain.promptAndCreation]
  dsimp only
  rw [hplain.creationTokens, hplain.baseTokens, hplain.audioInput, hreq.toolCallSurcharge, hother,
    hplain.cached, hplain.image]
  simp only [Int.cast_zero, zero_mul, add_zero, List.foldl_nil]

theorem PlainText.total_ne (hplain : PlainText req usage) :
    usage.promptTokens + usage.completionTokens ≠ 0 := by
  have := hplain.positive
  have := hplain.total
  omega

theorem quota_fixed (hreq : req.Plain) (hplain : PlainText req usage) (hother : pd.otherRatios = [])
    (hprice : pd.usePrice = true) (hratio : pd.modelRatio = 0) (quotaPerUnit : ℚ) :
    req.quota quotaPerUnit pd usage =
      Decimal.intPart (Decimal.round (pd.modelPrice * quotaPerUnit * pd.groupRatio)) := by
  rw [TextRequest.quota, if_neg (by simp [hreq.smartrelayCacheHit]), TextRequest.summaryQuota,
    hplain.decimal hreq hother, if_pos hprice, if_neg hplain.total_ne, hratio, zero_mul]
  simp [hprice]

theorem quota_ratio (hreq : req.Plain) (hplain : PlainText req usage) (hother : pd.otherRatios = [])
    (hprice : pd.usePrice = false) (quotaPerUnit : ℚ) :
    req.quota quotaPerUnit pd usage =
      atLeastOne (pd.modelRatio * pd.groupRatio) (charged (pd.modelRatio * pd.groupRatio)
        ((usage.promptTokens + usage.completionTokens * pd.completionRatio) *
          (pd.modelRatio * pd.groupRatio))) := by
  rw [TextRequest.quota, if_neg (by simp [hreq.smartrelayCacheHit]), TextRequest.summaryQuota,
    hplain.decimal hreq hother, if_neg hplain.total_ne]
  simp only [hprice, Bool.false_eq_true, not_false_eq_true, true_and, if_false]
  rfl

theorem calculateAudioQuota_fixed {quotaInfo : QuotaInfo} (hprice : quotaInfo.usePrice = true)
    (hzero : quotaInfo.modelPrice = 0) (usage : RealtimeUsage) :
    calculateAudioQuota setting quotaInfo usage = 0 := by
  rw [calculateAudioQuota, if_pos hprice, hzero, zero_mul, zero_mul, Decimal.intPart_zero]

theorem calculateAudioQuota_ratio {quotaInfo : QuotaInfo} (hprice : quotaInfo.usePrice = false)
    (hplain : PlainText req usage) :
    calculateAudioQuota setting quotaInfo usage.realtime =
      charged (quotaInfo.modelRatio * quotaInfo.groupRatio)
        ((usage.promptTokens + usage.completionTokens * setting.completionRatio quotaInfo.modelName) *
          (quotaInfo.modelRatio * quotaInfo.groupRatio)) := by
  rw [calculateAudioQuota, if_neg (by simp [hprice])]
  dsimp only [Usage.realtime]
  rw [hplain.promptText, hplain.completionText, hplain.promptAudio, hplain.completionAudio,
    mul_comm quotaInfo.groupRatio]
  simp only [Int.cast_zero, zero_mul, add_zero]
  rfl

theorem audioQuota_eq (hplain : PlainText req usage) :
    audioQuota setting info usage = calculateAudioQuota setting info.audioInfo usage.realtime := by
  rw [audioQuota, if_neg hplain.positive.ne']

theorem sessionQuota_eq (hplain : PlainText req usage) :
    sessionQuota setting info usage.realtime =
      calculateAudioQuota setting info.sessionInfo usage.realtime :=
  if_neg hplain.positive.ne'

end

/-! ## When the paths agree -/

/-- What the price data of a request say. -/
structure PriceSpec (h : Floats) (setting : RatioSetting) (info : RealtimeInfo) (pd : PriceData) : Prop where
  otherRatios : pd.otherRatios = []
  modelRatio : pd.usePrice = true → pd.modelRatio = 0
  preConsumed : pd.usePrice = true →
    pd.quotaToPreConsume = h.toInt (h.mul (h.mul pd.modelPrice setting.quotaPerUnit) pd.groupRatio) ∨
      pd.quotaToPreConsume = 0 ∧ callPrice setting pd = 0
  completionRatio : pd.usePrice = false → pd.completionRatio = setting.completionRatio info.originModelName

section
variable {h : Floats} {setting : PriceSetting} {info : RealtimeInfo} {count : TokenCount} {pd : PriceData}

theorem fixedPriceData_spec (price : ℚ) :
    PriceSpec h setting.toRatioSetting info (fixedPriceData h setting info count price) := by
  refine ⟨rfl, fun _ => rfl, fun _ => ?_, fun hprice => (by cases hprice)⟩
  dsimp only [fixedPriceData, callPrice]
  set groupRatio := handleGroupRatio setting.toRatioSetting info
  set modelPrice := if count.imagePriceRatio ≠ 0 then h.mul price count.imagePriceRatio else price
  by_cases hfree : freeOf setting groupRatio modelPrice = true
  · rw [if_pos hfree]
    have hzero := of_decide_eq_true hfree
    rcases hzero.2 with hgroup | hprice
    · exact .inr ⟨rfl, by rw [hgroup, mul_zero]⟩
    · exact .inr ⟨rfl, by rw [hprice, zero_mul, zero_mul]⟩
  · rw [if_neg hfree]
    exact .inl rfl

theorem modelPriceHelper_spec {acceptUnsetRatio : Bool}
    (hset : modelPriceHelper h setting info count acceptUnsetRatio = some pd) :
    PriceSpec h setting.toRatioSetting info pd := by
  unfold modelPriceHelper at hset
  split at hset
  · cases hset
    exact fixedPriceData_spec _
  · split at hset
    · cases hset
      exact ⟨rfl, fun hprice => (by cases hprice), fun hprice => (by cases hprice), fun _ => rfl⟩
    · cases hset

end

section
variable {h : Floats} {setting : RatioSetting} {info : RealtimeInfo} {req : TextRequest} {usage : Usage}

theorem neighbours_preConsumed (hspec : PriceSpec h setting info info.priceData)
    (hprice : info.priceData.usePrice = true) (hsmall : |callPrice setting info.priceData| < 3 / 2) :
    Neighbours (Decimal.round (callPrice setting info.priceData)) info.priceData.quotaToPreConsume ∧
      Neighbours 0 info.priceData.quotaToPreConsume := by
  have hround := Decimal.abs_sub_round_le (callPrice setting info.priceData)
  rcases hspec.preConsumed hprice with htaken | ⟨htaken, hzero⟩
  · set product := h.mul (h.mul info.priceData.modelPrice setting.quotaPerUnit) info.priceData.groupRatio
    have hnear : |product - callPrice setting info.priceData| ≤ 1 / 4 := by
      have := h.near info.priceData.modelPrice setting.quotaPerUnit info.priceData.groupRatio
      rw [← callPrice] at this
      linarith
    have hlt : |product| < 2 := by
      rw [abs_lt] at hsmall ⊢
      rw [abs_le] at hnear
      constructor
      · linarith
      · linarith
    rw [htaken, h.toInt_of_lt product (by linarith)]
    have htrunc := Decimal.abs_sub_trunc_lt product
    refine ⟨neighbours_of_near hround htrunc hnear, ?_⟩
    have hbound : |(Decimal.trunc product : ℚ)| < 2 := (Decimal.abs_trunc_le product).trans_lt hlt
    have hint : |Decimal.trunc product| < 2 := by exact_mod_cast hbound
    rw [Neighbours, zero_sub, abs_neg]
    omega
  · rw [htaken, hzero, Decimal.round_zero]
    exact ⟨neighbours_refl 0, neighbours_refl 0⟩

end

section
variable {h : Floats} {setting : RatioSetting} {info : RealtimeInfo} {req : TextRequest}

theorem pathsAgree_fixed {usage : Usage} (hreq : req.Plain) (hplain : PlainText req usage)
    (hspec : PriceSpec h setting info info.priceData) (hprice : info.priceData.usePrice = true)
    (hsmall : |callPrice setting info.priceData| < 3 / 2) : PathsAgree setting req info usage := by
  have hround : |Decimal.round (callPrice setting info.priceData)| ≤ 1 :=
    (Decimal.abs_round_le_iff _ 1).2 (by push_cast; linarith)
  have hfits : Fits64 (Decimal.round (callPrice setting info.priceData)) := by
    rw [abs_le] at hround
    constructor
    · omega
    · omega
  have htext : req.quota setting.quotaPerUnit info.priceData usage =
      Decimal.round (callPrice setting info.priceData) := by
    rw [quota_fixed hreq hplain hspec.otherRatios hprice (hspec.modelRatio hprice), ← callPrice,
      Decimal.intPart_intCast hfits]
  have haudio : audioQuota setting info usage = 0 := by
    rw [audioQuota_eq hplain, calculateAudioQuota_fixed hprice rfl]
  have hsession : sessionQuota setting info usage.realtime = 0 := by
    rw [sessionQuota_eq hplain, calculateAudioQuota_fixed hprice rfl]
  obtain ⟨htaken, hnothing⟩ := neighbours_preConsumed hspec hprice hsmall
  refine ⟨?_, ?_, ?_, fun _ => ⟨?_, ?_, ?_⟩⟩
  · rw [htext, haudio, Neighbours, sub_zero]
    exact hround
  · rw [htext, hsession, Neighbours, sub_zero]
    exact hround
  · rw [haudio, hsession]
    exact neighbours_refl 0
  · rw [htext]
    exact htaken
  · rw [haudio]
    exact hnothing
  · rw [hsession]
    exact hnothing

/-- Usages are charged alike by the ratios where nothing is charged, or the two names have the same
completion ratio. -/
theorem pathsAgree_ratio {usage : Usage} (hreq : req.Plain) (hplain : PlainText req usage)
    (hspec : PriceSpec h setting info info.priceData) (hprice : info.priceData.usePrice = false)
    (halike : info.priceData.modelRatio * info.priceData.groupRatio = 0 ∨
      setting.completionRatio info.upstreamModelName = setting.completionRatio info.originModelName) :
    PathsAgree setting req info usage := by
  set ratio := info.priceData.modelRatio * info.priceData.groupRatio with hratio
  have haudio : audioQuota setting info usage = charged ratio
      ((usage.promptTokens + usage.completionTokens * setting.completionRatio info.originModelName) *
        ratio) := by
    rw [audioQuota_eq hplain, calculateAudioQuota_ratio hprice hplain]
    rfl
  have hsession : sessionQuota setting info usage.realtime = audioQuota setting info usage := by
    rw [haudio, sessionQuota_eq hplain, calculateAudioQuota_ratio hprice hplain]
    dsimp only [RealtimeInfo.sessionInfo]
    rw [← hratio]
    rcases halike with hzero | hsame
    · rw [hzero, mul_zero, mul_zero]
    · rw [hsame]
  have htext : Neighbours (req.quota setting.quotaPerUnit info.priceData usage)
      (audioQuota setting info usage) := by
    rw [quota_ratio hreq hplain hspec.otherRatios hprice, ← hratio, hspec.completionRatio hprice, haudio]
    exact neighbours_atLeastOne _ _
  refine ⟨htext, ?_, ?_, fun h => ?_⟩
  · rw [hsession]
    exact htext
  · rw [hsession]
    exact neighbours_refl _
  · rw [hprice] at h
    cases h

/-- A usage of plain text, with OpenAI's semantic. -/
def textUsage (promptTokens completionTokens : Int) : Usage where
  promptTokens := promptTokens
  completionTokens := completionTokens
  totalTokens := promptTokens + completionTokens
  promptTextTokens := promptTokens
  completionTextTokens := completionTokens
  usageSemantic := "openai"

theorem plainText_textUsage {promptTokens completionTokens : Int} (hprompt : 0 ≤ promptTokens)
    (hcompletion : 0 < completionTokens) : PlainText req (textUsage promptTokens completionTokens) where
  promptTokens := hprompt
  completionTokens := hcompletion.le
  total := rfl
  positive := by
    dsimp only [textUsage]
    omega
  promptText := rfl
  completionText := rfl
  promptAudio := rfl
  completionAudio := rfl
  cached := rfl
  creation := rfl
  creation5m := rfl
  creation1h := rfl
  image := rfl
  told := fun h => by cases h.2

theorem small_of_pathsAgree {usage : Usage} (hreq : req.Plain) (hplain : PlainText req usage)
    (hspec : PriceSpec h setting info info.priceData) (hprice : info.priceData.usePrice = true)
    (hrange : |callPrice setting info.priceData| ≤ 2 ^ 62) (hagree : PathsAgree setting req info usage) :
    |callPrice setting info.priceData| < 3 / 2 := by
  have hround := (Decimal.abs_round_le_iff (callPrice setting info.priceData) (2 ^ 62)).2 (by
    push_cast
    linarith)
  have hfits : Fits64 (Decimal.round (callPrice setting info.priceData)) := by
    rw [abs_le] at hround
    constructor
    · omega
    · omega
  have htext := hagree.textAudio
  rw [quota_fixed hreq hplain hspec.otherRatios hprice (hspec.modelRatio hprice), ← callPrice,
    Decimal.intPart_intCast hfits, audioQuota_eq hplain, calculateAudioQuota_fixed hprice rfl, Neighbours,
    sub_zero] at htext
  have hsmall := (Decimal.abs_round_le_iff _ 1).1 htext
  push_cast at hsmall
  linarith

theorem not_pathsAgree_of_told {tokens : Int} (hreq : req.Plain)
    (hspec : PriceSpec h setting info info.priceData) (hprice : info.priceData.usePrice = false)
    (hpos : 0 < tokens) {origin upstream : ℚ}
    (horigin : origin = tokens * setting.completionRatio info.originModelName *
      (info.priceData.modelRatio * info.priceData.groupRatio))
    (hupstream : upstream = tokens * setting.completionRatio info.upstreamModelName *
      (info.priceData.modelRatio * info.priceData.groupRatio))
    (ho : 0 ≤ origin ∧ origin ≤ 2 ^ 62) (hu : 0 ≤ upstream ∧ upstream ≤ 2 ^ 62)
    (htold : 3 < |origin - upstream|) : ¬ PathsAgree setting req info (textUsage 0 tokens) := by
  intro hagree
  have hplain : PlainText req (textUsage 0 tokens) := plainText_textUsage le_rfl hpos
  have hneighbours := hagree.textRealtime
  rw [quota_ratio hreq hplain hspec.otherRatios hprice, hspec.completionRatio hprice,
    sessionQuota_eq hplain, calculateAudioQuota_ratio hprice hplain] at hneighbours
  dsimp only [textUsage, RealtimeInfo.sessionInfo] at hneighbours
  rw [Int.cast_zero, zero_add, zero_add, ← horigin, ← hupstream] at hneighbours
  set ratio := info.priceData.modelRatio * info.priceData.groupRatio
  have htext : |origin - atLeastOne ratio (charged ratio origin)| ≤ 1 :=
    atLeastOne_near ho.1 (charged_near ho.1 ho.2)
  have hsession : |upstream - charged ratio upstream| ≤ 1 := charged_near hu.1 hu.2
  set text := atLeastOne ratio (charged ratio origin)
  set session := charged ratio upstream
  have hclose : |(text : ℚ) - session| ≤ 1 := by exact_mod_cast hneighbours
  have hsum : |origin - upstream| ≤ 3 := by
    rw [abs_le] at htext hsession hclose ⊢
    constructor
    · linarith
    · linarith
  exact absurd htold (not_lt.2 hsum)

end

/-- For every price data of a request, the three paths agree on every usage of plain text where the price of
a call is below one and a half units or, by the ratios, both names have the same completion ratio. Where
prices stay within 64 bits, they agree on every usage only there. -/
theorem pathsAgree_iff (h : Floats) (setting : PriceSetting) {info : RealtimeInfo} {req : TextRequest}
    {count : TokenCount} {acceptUnsetRatio : Bool} {pd : PriceData} (hreq : req.Plain)
    (hset : modelPriceHelper h setting info count acceptUnsetRatio = some pd) :
    let priced := { info with priceData := pd }
    (PricedAlike setting.toRatioSetting priced →
        ∀ usage, PlainText req usage → PathsAgree setting.toRatioSetting req priced usage) ∧
      (InRange setting.toRatioSetting priced →
        (∀ usage, PlainText req usage → PathsAgree setting.toRatioSetting req priced usage) →
          PricedAlike setting.toRatioSetting priced) := by
  intro priced
  have hspec : PriceSpec h setting.toRatioSetting priced priced.priceData := modelPriceHelper_spec hset
  by_cases hprice : priced.priceData.usePrice = true
  · rw [PricedAlike, if_pos hprice, InRange, if_pos hprice]
    refine ⟨fun hsmall usage hplain => pathsAgree_fixed hreq hplain hspec hprice hsmall, ?_⟩
    intro hrange hagree
    have hplain : PlainText req (textUsage 0 1) := plainText_textUsage le_rfl (by decide)
    exact small_of_pathsAgree hreq hplain hspec hprice hrange (hagree _ hplain)
  · have hratio : priced.priceData.usePrice = false := by simpa using hprice
    rw [PricedAlike, if_neg hprice, InRange, if_neg hprice]
    refine ⟨fun halike usage hplain => pathsAgree_ratio hreq hplain hspec hratio halike, ?_⟩
    rintro ⟨tokens, hpos, ho, hu, htold⟩ hagree
    exact absurd (hagree _ (plainText_textUsage le_rfl hpos))
      (not_pathsAgree_of_told hreq hspec hratio hpos rfl rfl ho hu htold)

/-- Arithmetic that is exact. -/
def Floats.exact : Floats where
  mul := (· * ·)
  toInt := Decimal.intPart
  near a b c := by
    rw [sub_self, abs_zero]
    positivity
  toInt_of_lt x hx := by
    have hint : |Decimal.trunc x| < 2 ^ 63 := by exact_mod_cast (Decimal.abs_trunc_le x).trans_lt hx
    rw [abs_lt] at hint
    exact wrap64_of_fits ⟨hint.1.le, hint.2⟩

/-- A model whose calls cost a cent, five thousand units. -/
def centSetting : PriceSetting where
  completionRatio _ := 1
  audioRatio _ := 1
  audioCompletionRatio _ := 1
  modelRatio _ := 1
  groupRatio _ := 1
  groupGroupRatio _ _ := none
  quotaPerUnit := 500000
  getModelPrice _ := some (1 / 100)
  modelRatioSet _ := false
  cacheRatio _ _ := 1
  createCacheRatio _ := 1
  imageRatio _ := 1
  preConsumedQuota := 500
  enableFreeModelPreConsume := false

/-- A request for it, with its price data. -/
def centInfo : RealtimeInfo where
  originModelName := "gpt-4o-audio"
  upstreamModelName := "gpt-4o-audio"
  userGroup := "default"
  usingGroup := "default"
  autoGroup := none
  usePrice := true
  priceData :=
    { modelPrice := 1 / 100
      modelRatio := 0
      groupRatio := 1
      usePrice := true
      quotaToPreConsume := 5000 }

theorem centInfo_priced :
    modelPriceHelper Floats.exact centSetting centInfo { promptTokens := 10 } false =
      some centInfo.priceData := by
  decide +kernel

theorem pathsAgree_iff_cent :
    (PricedAlike centSetting.toRatioSetting centInfo →
        ∀ usage, PlainText {} usage → PathsAgree centSetting.toRatioSetting {} centInfo usage) ∧
      (InRange centSetting.toRatioSetting centInfo →
        (∀ usage, PlainText {} usage → PathsAgree centSetting.toRatioSetting {} centInfo usage) →
          PricedAlike centSetting.toRatioSetting centInfo) :=
  pathsAgree_iff Floats.exact centSetting ⟨rfl, rfl⟩ centInfo_priced

/-- A call of fixed price is charged by the text path only. -/
theorem cent_not_pathsAgree :
    modelPriceHelper Floats.exact centSetting centInfo { promptTokens := 10 } false =
        some centInfo.priceData ∧
      PlainText {} (textUsage 10 20) ∧
      ¬ PathsAgree centSetting.toRatioSetting {} centInfo (textUsage 10 20) := by
  refine ⟨centInfo_priced, plainText_textUsage (by decide) (by decide), fun hagree => ?_⟩
  have htext : TextRequest.quota {} 500000 centInfo.priceData (textUsage 10 20) = 5000 := by decide +kernel
  have haudio : audioQuota centSetting.toRatioSetting centInfo (textUsage 10 20) = 0 := by decide +kernel
  have hneighbours := hagree.textAudio
  rw [haudio, show centSetting.quotaPerUnit = 500000 from rfl, htext] at hneighbours
  cases hneighbours

end Billing

end NewApi

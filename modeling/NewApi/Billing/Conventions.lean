import NewApi.Billing.TextQuota
import NewApi.Stream.Claude

/-!
# One usage in two conventions

The prompt tokens of Claude's usage are those of the text alone; those of OpenAI's count the tokens that are read from the cache
and written to it as well. For a client of OpenAI's format `buildOpenAIStyleUsageFromClaudeUsage` makes the one of the other, and
`calculateTextQuotaSummary` is to price both alike.

Two things are in the way. The prompt tokens count the written ones also where these are only told as written for five minutes,
and there is no sum of them to be taken off again. And a usage with neither text nor output costs nothing in Claude's convention,
where the total leaves out the cache. Apart from these, a usage costs the same in both, whatever the prices (`billed_alike`).
-/

namespace NewApi

namespace Billing

open ToolCalls (Context)

/-- `cacheCreationTokensForOpenAIUsage`. -/
def cacheCreationTokensForOpenAIUsage (usage : Usage) : Int :=
  let splitCacheCreationTokens := usage.claudeCacheCreation5mTokens + usage.claudeCacheCreation1hTokens
  if splitCacheCreationTokens = 0 then usage.cachedCreationTokens
  else if usage.cachedCreationTokens > splitCacheCreationTokens then usage.cachedCreationTokens
  else splitCacheCreationTokens

/-- `buildOpenAIStyleUsageFromClaudeUsage`. -/
def buildOpenAIStyleUsageFromClaudeUsage (usage : Usage) : Usage :=
  let split := Stream.normalizeCacheCreationSplit usage.cachedCreationTokens usage.claudeCacheCreation5mTokens
    usage.claudeCacheCreation1hTokens
  let cacheCreationTokens := cacheCreationTokensForOpenAIUsage usage
  let totalInputTokens := usage.promptTokens + usage.cachedTokens + cacheCreationTokens
  { usage with
    claudeCacheCreation5mTokens := split.1
    claudeCacheCreation1hTokens := split.2
    promptTokens := totalInputTokens
    totalTokens := totalInputTokens + usage.completionTokens
    usageSemantic := "openai"
    usageSource := "anthropic" }

/-- The tokens that a request takes: of text, read from the cache, written to it for five minutes, and put out. -/
structure CachedUsage where
  text : ℕ
  cacheRead : ℕ
  cacheWrite : ℕ
  output : ℕ
  deriving DecidableEq

/-- How Claude tells the written tokens: as a sum, as those for five minutes, or both. -/
inductive WriteReport
  | aggregate
  | fiveMinutes
  | both
  deriving DecidableEq

/-- As Claude reports it. -/
def CachedUsage.claude (u : CachedUsage) (report : WriteReport) : Usage :=
  { promptTokens := u.text
    completionTokens := u.output
    totalTokens := u.text + u.output
    cachedTokens := u.cacheRead
    cachedCreationTokens := if report = .fiveMinutes then 0 else u.cacheWrite
    claudeCacheCreation5mTokens := if report = .aggregate then 0 else u.cacheWrite
    usageSemantic := "anthropic" }

/-- The usage costs the same in both conventions: for every channel but OpenRouter's, and all prices and ratios that are not
negative and the same for written tokens with and without the five minutes. -/
def BilledAlike (u : CachedUsage) (report : WriteReport) : Prop :=
  ∀ (setting : TextSetting) (info : TextInfo) (ctx : Context) (cost : ℚ), info.openRouter = false →
    info.priceData.RatiosNonneg → setting.PricesNonneg info.priceData →
    info.priceData.cacheCreation5mRatio = info.priceData.cacheCreationRatio →
    calculateTextQuotaSummary setting info ctx cost (some (u.claude report)) =
      calculateTextQuotaSummary setting info ctx cost (some (buildOpenAIStyleUsageFromClaudeUsage (u.claude report)))

/-- The written tokens are told as a sum if there are any, and there is text or output if there is anything at all. -/
def ToldAlike (u : CachedUsage) (report : WriteReport) : Prop :=
  (report = .fiveMinutes → u.cacheWrite = 0) ∧ (u.text + u.output = 0 → u.cacheRead = 0 ∧ u.cacheWrite = 0)

section
variable {u : CachedUsage} {report : WriteReport} {req : TextRequest} {quotaPerUnit : ℚ} {pd : PriceData} {usage : Usage}

/-! ## The record for OpenAI's clients -/

/-- The tokens by their ratios, with some of the written ones at the ratio of the text. -/
def CachedUsage.withRatio (u : CachedUsage) (pd : PriceData) (atOne : ℕ) : ℚ :=
  u.text + atOne + u.cacheRead * pd.cacheRatio + (u.cacheWrite - atOne) * pd.cacheCreationRatio + u.output * pd.completionRatio

/-- The written tokens as a sum. -/
def CachedUsage.told (u : CachedUsage) (report : WriteReport) : ℕ := if report = .fiveMinutes then 0 else u.cacheWrite

/-- The record for OpenAI's clients. -/
def CachedUsage.openAI (u : CachedUsage) (report : WriteReport) : Usage :=
  { promptTokens := u.text + u.cacheRead + u.cacheWrite
    completionTokens := u.output
    totalTokens := u.text + u.cacheRead + u.cacheWrite + u.output
    cachedTokens := u.cacheRead
    cachedCreationTokens := u.told report
    claudeCacheCreation5mTokens := u.cacheWrite
    usageSemantic := "openai"
    usageSource := "anthropic" }

theorem openAIStyle_eq : buildOpenAIStyleUsageFromClaudeUsage (u.claude report) = u.openAI report := by
  have hwrite : cacheCreationTokensForOpenAIUsage (u.claude report) = u.cacheWrite := by
    rcases Nat.eq_zero_or_pos u.cacheWrite with hzero | hpos
    · cases report <;> simp [cacheCreationTokensForOpenAIUsage, CachedUsage.claude, hzero]
    · cases report <;> simp [cacheCreationTokensForOpenAIUsage, CachedUsage.claude, Nat.ne_of_gt hpos]
  have hsplit : Stream.normalizeCacheCreationSplit (u.claude report).cachedCreationTokens
      (u.claude report).claudeCacheCreation5mTokens (u.claude report).claudeCacheCreation1hTokens =
        ((u.cacheWrite : Int), 0) := by
    cases report <;> simp [Stream.normalizeCacheCreationSplit, CachedUsage.claude]
  unfold buildOpenAIStyleUsageFromClaudeUsage
  dsimp only
  rw [hwrite, hsplit]
  cases report <;> rfl

namespace TextRequest

theorem quotaCalculateDecimal_told (h : req.openRouter = false) (haudio : usage.promptAudioTokens = 0) :
    req.quotaCalculateDecimal quotaPerUnit pd usage =
      ((if pd.usePrice then pd.modelPrice * quotaPerUnit * pd.groupRatio
        else req.tokensWithRatio pd usage usage.promptTokens usage.cachedCreationTokens * (pd.modelRatio * pd.groupRatio)) +
        req.toolCallSurcharge) * pd.otherRatios.prod := by
  have hpair : req.promptAndCreationTokens pd usage = (usage.promptTokens, usage.cachedCreationTokens) :=
    if_neg fun hno => Bool.false_ne_true (h.symm.trans hno.1)
  have hnone : req.audioInputQuota quotaPerUnit pd usage = 0 := if_neg fun hno => hno.2.1 haudio
  rw [quotaCalculateDecimal_eq, hnone, add_zero]
  unfold tokenQuota
  rw [hpair]

theorem tokensWithRatio_claude (h5m : pd.cacheCreation5mRatio = pd.cacheCreationRatio) :
    req.tokensWithRatio pd (u.claude report) (u.claude report).promptTokens (u.claude report).cachedCreationTokens =
      u.withRatio pd 0 := by
  have hsemantic : req.isClaudeUsageSemantic (u.claude report) = true := rfl
  have hbase : req.baseTokens (u.claude report) (u.claude report).promptTokens (u.claude report).cachedCreationTokens =
      u.text := by
    unfold baseTokens
    dsimp only
    rw [if_pos (.inl hsemantic)]
    simp [CachedUsage.claude]
  have hcreation : req.creationTokensWithRatio pd (u.claude report) (u.claude report).cachedCreationTokens =
      u.cacheWrite * pd.cacheCreationRatio := by
    unfold creationTokensWithRatio
    dsimp only
    rw [hsemantic, h5m]
    rcases Nat.eq_zero_or_pos u.cacheWrite with hzero | hpos
    · rw [if_neg (by cases report <;> simp [CachedUsage.claude, hzero]), hzero]
      norm_num
    · rw [if_pos (by cases report <;> simp [CachedUsage.claude, hpos, Nat.ne_of_gt hpos]), if_neg (by simp)]
      cases report <;> simp [CachedUsage.claude]
  unfold tokensWithRatio CachedUsage.withRatio
  rw [hbase, hcreation]
  simp [CachedUsage.claude]

theorem tokensWithRatio_openAI :
    req.tokensWithRatio pd (u.openAI report) (u.openAI report).promptTokens (u.openAI report).cachedCreationTokens =
      u.withRatio pd (u.cacheWrite - u.told report) := by
  have hsemantic : req.isClaudeUsageSemantic (u.openAI report) = false := rfl
  have hlegacy : req.isLegacyClaudeDerived (u.openAI report) = false := by
    simp [isLegacyClaudeDerived, CachedUsage.openAI]
  have htold : u.told report ≤ u.cacheWrite := by
    unfold CachedUsage.told
    split
    · exact Nat.zero_le _
    · exact le_rfl
  have hbase : req.baseTokens (u.openAI report) (u.openAI report).promptTokens (u.openAI report).cachedCreationTokens =
      u.text + (u.cacheWrite - u.told report : ℕ) := by
    unfold baseTokens
    dsimp only
    rw [hsemantic, hlegacy, if_neg (by simp)]
    simp only [CachedUsage.openAI, Nat.cast_sub htold, ite_self]
    ring
  have hcreation : req.creationTokensWithRatio pd (u.openAI report) (u.openAI report).cachedCreationTokens =
      u.told report * pd.cacheCreationRatio := by
    unfold creationTokensWithRatio
    dsimp only
    rw [hsemantic, hlegacy]
    split
    · simp [CachedUsage.openAI]
    · rename_i hnone
      have hzero : u.told report = 0 := by
        by_contra hne
        exact hnone (.inl (by simpa [CachedUsage.openAI] using hne))
      rw [hzero]
      norm_num
  unfold tokensWithRatio CachedUsage.withRatio
  rw [hbase, hcreation, Nat.cast_sub htold]
  simp only [CachedUsage.openAI]
  push_cast [Nat.cast_sub htold]
  ring

theorem summaryQuota_congr {usage' : Usage}
    (hdecimal : req.quotaCalculateDecimal quotaPerUnit pd usage = req.quotaCalculateDecimal quotaPerUnit pd usage')
    (htotal : usage.promptTokens + usage.completionTokens = 0 ↔ usage'.promptTokens + usage'.completionTokens = 0) :
    req.summaryQuota quotaPerUnit pd usage = req.summaryQuota quotaPerUnit pd usage' := by
  unfold summaryQuota
  rw [hdecimal]
  by_cases hzero : usage.promptTokens + usage.completionTokens = 0
  · rw [if_pos hzero, if_pos (htotal.1 hzero)]
  · rw [if_neg hzero, if_neg fun hno => hzero (htotal.2 hno)]

theorem summaryQuota_ne_zero (hratio : pd.modelRatio * pd.groupRatio ≠ 0)
    (htotal : usage.promptTokens + usage.completionTokens ≠ 0) : req.summaryQuota quotaPerUnit pd usage ≠ 0 := by
  unfold summaryQuota
  dsimp only
  rw [if_neg htotal]
  generalize Decimal.intPart _ = quota
  by_cases hzero : quota = 0
  · rw [if_pos ⟨hratio, hzero⟩]
    decide
  · rw [if_neg fun hno => hzero hno.2]
    exact hzero

end TextRequest

theorem claude_total : (u.claude report).promptTokens + (u.claude report).completionTokens = 0 ↔ u.text + u.output = 0 := by
  simp only [CachedUsage.claude]
  omega

theorem openAI_total : (u.openAI report).promptTokens + (u.openAI report).completionTokens = 0 ↔
    u.text + u.output = 0 ∧ u.cacheRead = 0 ∧ u.cacheWrite = 0 := by
  simp only [CachedUsage.openAI]
  omega

/-! ## What a usage costs in both -/

theorem billedAlike_of_toldAlike (h : ToldAlike u report) : BilledAlike u report := by
  intro setting info ctx cost hchannel _ _ h5m
  obtain ⟨hwrite, htotal⟩ := h
  have hatOne : u.cacheWrite - u.told report = 0 := by
    unfold CachedUsage.told
    split
    · rename_i hfive
      rw [hwrite hfive]
    · exact Nat.sub_self _
  unfold calculateTextQuotaSummary pricedUsage
  rw [openAIStyle_eq, Option.getD_some, Option.getD_some]
  refine TextRequest.summaryQuota_congr ?_ ?_
  · have hreq : (textRequest setting info ctx cost).openRouter = false := hchannel
    rw [TextRequest.quotaCalculateDecimal_told hreq rfl, TextRequest.quotaCalculateDecimal_told hreq rfl,
      TextRequest.tokensWithRatio_claude h5m, TextRequest.tokensWithRatio_openAI, hatOne]
  · rw [claude_total, openAI_total]
    exact ⟨fun hzero => ⟨hzero, htotal hzero⟩, fun hzero => hzero.1⟩

/-- A setting in which tools cost nothing. -/
def noTools : TextSetting where
  quotaPerUnit := 1
  getToolPriceForModel _ _ := 0
  defaultModelRatio _ := none

/-- A model with a ratio for its tokens, and one for those that are written. -/
def ratioInfo (modelRatio creationRatio : ℚ) : TextInfo where
  originModelName := "m"
  priceData :=
    { modelPrice := 0, modelRatio, groupRatio := 1, usePrice := false, cacheCreationRatio := creationRatio,
      cacheCreation5mRatio := creationRatio }

section
variable {modelRatio creationRatio : ℚ}

theorem ratioInfo_ratios (hmodel : 0 ≤ modelRatio) (hcreation : 0 ≤ creationRatio) :
    (ratioInfo modelRatio creationRatio).priceData.RatiosNonneg :=
  ⟨hmodel, zero_le_one, le_rfl, le_rfl, hcreation, hcreation, le_rfl, le_rfl, fun r hr => by cases hr⟩

theorem noTools_prices {pd : PriceData} (h : pd.usePrice = false) : noTools.PricesNonneg pd :=
  ⟨zero_le_one, fun huse => (by rw [h] at huse; cases huse), fun _ _ => le_rfl⟩

theorem quota_ratioInfo : calculateTextQuotaSummary noTools (ratioInfo modelRatio creationRatio) {} 0 (some usage) =
    (textRequest noTools (ratioInfo modelRatio creationRatio) {} 0).summaryQuota 1
      (ratioInfo modelRatio creationRatio).priceData usage := rfl

theorem toolCallSurcharge_noTools : toolCallSurcharge noTools (ratioInfo modelRatio creationRatio) {} = 0 := by
  have hsuffix : GoString.hasSuffix "m" "search-preview" = false := by decide
  simp [toolCallSurcharge, ToolCalls.calculateTextToolCallSurcharge, ToolCalls.addWebSearch, ToolCalls.addClaudeWebSearch,
    ToolCalls.addFileSearch, ToolCalls.addImageGeneration, ratioInfo, hsuffix]

theorem decimal_ratioInfo (haudio : usage.promptAudioTokens = 0) :
    (textRequest noTools (ratioInfo modelRatio creationRatio) {} 0).quotaCalculateDecimal 1
        (ratioInfo modelRatio creationRatio).priceData usage =
      (textRequest noTools (ratioInfo modelRatio creationRatio) {} 0).tokensWithRatio
        (ratioInfo modelRatio creationRatio).priceData usage usage.promptTokens usage.cachedCreationTokens * modelRatio := by
  have hsurcharge : (textRequest noTools (ratioInfo modelRatio creationRatio) {} 0).toolCallSurcharge = 0 :=
    toolCallSurcharge_noTools
  rw [TextRequest.quotaCalculateDecimal_told rfl haudio, hsurcharge]
  simp [ratioInfo]

end

theorem summaryQuota_of_decimal {n : Int} (hdecimal : req.quotaCalculateDecimal quotaPerUnit pd usage = n) (hpos : 0 < n)
    (hfits : Fits64 n) (htotal : usage.promptTokens + usage.completionTokens ≠ 0) :
    req.summaryQuota quotaPerUnit pd usage = n := by
  have hpos' : ¬ (n : ℚ) ≤ 0 := not_le.2 (by exact_mod_cast hpos)
  have hkept : (if ¬ pd.usePrice = true ∧ pd.modelRatio * pd.groupRatio ≠ 0 ∧ (n : ℚ) ≤ 0 then 1 else (n : ℚ)) = n :=
    if_neg fun hno => hpos' hno.2.2
  unfold TextRequest.summaryQuota
  dsimp only
  rw [if_neg htotal, hdecimal, hkept, Decimal.round_intCast, Decimal.intPart_intCast hfits]
  exact if_neg fun hno => hpos.ne' hno.2

theorem not_billedAlike_of_write (hreport : report = .fiveMinutes) (hwrite : u.cacheWrite ≠ 0) : ¬ BilledAlike u report := by
  intro h
  have hpos : (0 : ℚ) < u.cacheWrite := by exact_mod_cast Nat.pos_of_ne_zero hwrite
  have hsum : (0 : ℚ) < u.text + u.cacheWrite := by positivity
  have htold : u.told report = 0 := by rw [hreport]; rfl
  have halike := h noTools (ratioInfo (1 / (u.text + u.cacheWrite)) ((2 * u.text + 3 * u.cacheWrite) / u.cacheWrite)) {} 0 rfl
    (ratioInfo_ratios (by positivity) (by positivity)) (noTools_prices rfl) rfl
  rw [openAIStyle_eq, quota_ratioInfo, quota_ratioInfo] at halike
  have hopenAI : (textRequest noTools
      (ratioInfo (1 / (u.text + u.cacheWrite)) ((2 * u.text + 3 * u.cacheWrite) / u.cacheWrite)) {} 0).summaryQuota 1
        (ratioInfo (1 / (u.text + u.cacheWrite)) ((2 * u.text + 3 * u.cacheWrite) / u.cacheWrite)).priceData
        (u.openAI report) = 1 := by
    refine summaryQuota_of_decimal ?_ (by decide) (by decide) fun hzero => hwrite (openAI_total.1 hzero).2.2
    rw [decimal_ratioInfo rfl, TextRequest.tokensWithRatio_openAI, htold, Nat.sub_zero]
    simp only [CachedUsage.withRatio, ratioInfo]
    field_simp
    norm_num
  rw [hopenAI] at halike
  by_cases hzero : u.text + u.output = 0
  · have hnone : (textRequest noTools
        (ratioInfo (1 / (u.text + u.cacheWrite)) ((2 * u.text + 3 * u.cacheWrite) / u.cacheWrite)) {} 0).summaryQuota 1
          (ratioInfo (1 / (u.text + u.cacheWrite)) ((2 * u.text + 3 * u.cacheWrite) / u.cacheWrite)).priceData
          (u.claude report) = 0 := if_pos (claude_total.2 hzero)
    rw [hnone] at halike
    exact absurd halike (by decide)
  · have hclaude : (textRequest noTools
        (ratioInfo (1 / (u.text + u.cacheWrite)) ((2 * u.text + 3 * u.cacheWrite) / u.cacheWrite)) {} 0).summaryQuota 1
          (ratioInfo (1 / (u.text + u.cacheWrite)) ((2 * u.text + 3 * u.cacheWrite) / u.cacheWrite)).priceData
          (u.claude report) = 3 := by
      refine summaryQuota_of_decimal ?_ (by decide) (by decide) fun hno => hzero (claude_total.1 hno)
      rw [decimal_ratioInfo rfl, TextRequest.tokensWithRatio_claude rfl]
      simp only [CachedUsage.withRatio, ratioInfo]
      field_simp
      norm_num
      ring
    rw [hclaude] at halike
    exact absurd halike (by decide)

theorem not_billedAlike_of_total (hzero : u.text + u.output = 0) (hcache : ¬ (u.cacheRead = 0 ∧ u.cacheWrite = 0)) :
    ¬ BilledAlike u report := by
  intro h
  have halike := h noTools (ratioInfo 1 0) {} 0 rfl (ratioInfo_ratios zero_le_one le_rfl) (noTools_prices rfl) rfl
  rw [openAIStyle_eq, quota_ratioInfo, quota_ratioInfo] at halike
  have hclaude : (textRequest noTools (ratioInfo 1 0) {} 0).summaryQuota 1 (ratioInfo 1 0).priceData (u.claude report) = 0 :=
    if_pos (claude_total.2 hzero)
  rw [hclaude] at halike
  exact TextRequest.summaryQuota_ne_zero (by simp [ratioInfo]) (fun hno => hcache (openAI_total.1 hno).2) halike.symm

/-- A usage costs the same in both conventions just where its written tokens are told as a sum, if there are any, and it has text
or output, if it has tokens of the cache. -/
theorem billed_alike (u : CachedUsage) (report : WriteReport) : BilledAlike u report ↔ ToldAlike u report := by
  refine ⟨fun h => ⟨fun hreport => ?_, fun hzero => ?_⟩, billedAlike_of_toldAlike⟩
  · by_contra hwrite
    exact not_billedAlike_of_write hreport hwrite h
  · by_contra hcache
    exact not_billedAlike_of_total hzero hcache h

/-- A thousand tokens of text, and as many written that are told as those for five minutes: these cost a quarter more than text in
Claude's convention, and what text costs in the other. -/
theorem not_billedAlike_fiveMinutes :
    calculateTextQuotaSummary noTools (ratioInfo 1 (5 / 4)) {} 0 (some (CachedUsage.claude ⟨1000, 0, 1000, 100⟩ .fiveMinutes)) =
        2250 ∧
      calculateTextQuotaSummary noTools (ratioInfo 1 (5 / 4)) {} 0
          (some (buildOpenAIStyleUsageFromClaudeUsage (CachedUsage.claude ⟨1000, 0, 1000, 100⟩ .fiveMinutes))) = 2000 ∧
      ¬ BilledAlike ⟨1000, 0, 1000, 100⟩ .fiveMinutes := by
  refine ⟨?_, ?_, not_billedAlike_of_write rfl (by decide)⟩
  · rw [quota_ratioInfo]
    refine summaryQuota_of_decimal ?_ (by decide) (by decide) (by decide)
    rw [decimal_ratioInfo rfl, TextRequest.tokensWithRatio_claude rfl]
    norm_num [CachedUsage.withRatio, ratioInfo]
  · rw [openAIStyle_eq, quota_ratioInfo]
    refine summaryQuota_of_decimal ?_ (by decide) (by decide) (by decide)
    rw [decimal_ratioInfo rfl, TextRequest.tokensWithRatio_openAI]
    norm_num [CachedUsage.withRatio, CachedUsage.told, ratioInfo]

end

end Billing

end NewApi

import NewApi.Billing.Tiered
import NewApi.Relay.Attempts

/-!
# The group ratio of an expression's price

A request that an expression prices has two copies of the ratio of its group. `modelPriceHelperTiered` freezes one in
the snapshot, before the first attempt; the other one, in the price data, is refreshed by `getChannel` with each
channel that the loop selects. The settlement multiplies the result of the expression by the first and the tool calls
by the second. So the two parts are charged at the ratio of the group that serves the request just if that is the
ratio the request was priced at (`one_group_ratio_iff`).
-/

namespace NewApi.Relay

open Billing (TokenParams)

/-! ## The snapshot -/

/-- `BillingSnapshot`. -/
structure BillingSnapshot where
  billingMode : String
  modelName : String
  exprString : String
  groupRatio : ℚ
  estimatedPromptTokens : Int
  estimatedCompletionTokens : Int
  estimatedQuotaBeforeGroup : ℚ
  estimatedQuotaAfterGroup : Int
  estimatedTier : String
  quotaPerUnit : ℚ
deriving DecidableEq

/-- `TieredResult`. -/
structure TieredResult where
  actualQuotaBeforeGroup : ℚ
  actualQuotaAfterGroup : Int
  matchedTier : String
  crossedTier : Bool
deriving DecidableEq

/-- The calls of built-in tools: by the upstream's count, by Claude's, and of image generation, with its quality and
size. -/
structure ToolCalls where
  responsesUsageInfo : Option (String → Option Int) := none
  claudeWebSearchRequests : Int := 0
  imageGenerationCall : Option (String × String) := none

/-- The number of calls of a built-in tool. -/
def callCount (builtInTools : String → Option Int) (tool : String) : Int := (builtInTools tool).getD 0

/-- The price settings of tools. -/
structure ToolPrices where
  getToolPrice : String → ℚ
  getToolPriceForModel : String → String → ℚ
  getGPTImage1PriceOnceCall : String → String → ℚ

/-- What the price of a request depends on, except for the group: the expression, which may fail on some counts,
the estimate of the request and its settings, what it took in the end, and what has been paid in advance. -/
structure TieredBill where
  modelName : String
  exprString : String
  runExpr : String → TokenParams → Option (ℚ × String)
  promptTokens : Int
  maxTokens : Int
  enableFreeModelPreConsume : Bool
  quotaPerUnit : ℚ
  params : TokenParams
  finalPreConsumedQuota : Int
  tools : ToolCalls
  prices : ToolPrices

namespace TieredBill

/-- `QuotaRound`. -/
def quotaRound (quota : ℚ) : Int := Decimal.round quota

/-- `modelPriceHelperTiered`: the snapshot. -/
def modelPriceHelperTiered (b : TieredBill) (groupRatioInfo : GroupRatioInfo) : Option BillingSnapshot :=
  let estimatedCompletionTokens := if b.maxTokens ≠ 0 then b.maxTokens else 0
  let estimate : TokenParams :=
    { p := float64 b.promptTokens, c := float64 estimatedCompletionTokens, len := float64 b.promptTokens
      cr := 0, cc := 0, cc1h := 0, img := 0, imgO := 0, ai := 0, ao := 0 }
  (b.runExpr b.exprString estimate).map fun (rawCost, matchedTier) =>
    let quotaBeforeGroup := rawCost / 1000000 * b.quotaPerUnit
    let free := ¬ b.enableFreeModelPreConsume ∧ groupRatioInfo.groupRatio = 0
    { billingMode := "tiered_expr"
      modelName := b.modelName
      exprString := b.exprString
      groupRatio := groupRatioInfo.groupRatio
      estimatedPromptTokens := b.promptTokens
      estimatedCompletionTokens
      estimatedQuotaBeforeGroup := quotaBeforeGroup
      estimatedQuotaAfterGroup := if free then 0 else quotaRound (quotaBeforeGroup * groupRatioInfo.groupRatio)
      estimatedTier := matchedTier
      quotaPerUnit := b.quotaPerUnit }

/-! ## The settlement -/

/-- `ComputeTieredQuotaWithRequest`. -/
def computeTieredQuota (b : TieredBill) (snap : BillingSnapshot) : Option TieredResult :=
  (b.runExpr snap.exprString b.params).map fun (cost, matchedTier) =>
    let quotaBeforeGroup := cost / 1000000 * snap.quotaPerUnit
    { actualQuotaBeforeGroup := quotaBeforeGroup
      actualQuotaAfterGroup := quotaRound (quotaBeforeGroup * snap.groupRatio)
      matchedTier
      crossedTier := matchedTier ≠ snap.estimatedTier }

/-- `TryTieredSettle`. -/
def tryTieredSettle (b : TieredBill) (snap : BillingSnapshot) : Option (Int × Option TieredResult) :=
  if snap.billingMode ≠ "tiered_expr" then none
  else
    match b.computeTieredQuota snap with
    | none =>
      some (if b.finalPreConsumedQuota ≤ 0 then snap.estimatedQuotaAfterGroup else b.finalPreConsumedQuota, none)
    | some tr => some (tr.actualQuotaAfterGroup, some tr)

/-- `calculateTextToolCallSurcharge`. -/
def calculateTextToolCallSurcharge (b : TieredBill) (groupRatio : ℚ) : ℚ :=
  let quota (price : ℚ) := price * groupRatio * b.quotaPerUnit
  let perCalls (price : ℚ) (calls : Int) := quota (Decimal.divRound (price * calls) 1000)
  let preview := b.prices.getToolPriceForModel "web_search_preview" b.modelName
  let webSearch :=
    match b.tools.responsesUsageInfo with
    | some builtInTools =>
      if callCount builtInTools "web_search_preview" > 0 then
        perCalls preview (callCount builtInTools "web_search_preview")
      else 0
    | none => if GoString.hasSuffix b.modelName "search-preview" then quota (Decimal.divRound preview 1000) else 0
  let claudeWebSearch :=
    if b.tools.claudeWebSearchRequests > 0 then
      quota (Decimal.divRound (b.prices.getToolPrice "web_search") 1000) * b.tools.claudeWebSearchRequests
    else 0
  let fileSearch :=
    match b.tools.responsesUsageInfo with
    | some builtInTools =>
      if callCount builtInTools "file_search" > 0 then
        perCalls (b.prices.getToolPrice "file_search") (callCount builtInTools "file_search")
      else 0
    | none => 0
  let imageGeneration :=
    match b.tools.imageGenerationCall with
    | some (quality, size) => quota (b.prices.getGPTImage1PriceOnceCall quality size)
    | none => 0
  webSearch + claudeWebSearch + fileSearch + imageGeneration

/-- `composeTieredTextQuota`. -/
def composeTieredTextQuota (snap : BillingSnapshot) (surcharge : ℚ) (tieredQuota : Int)
    (tieredResult : Option TieredResult) : Int :=
  if surcharge = 0 then tieredQuota
  else
    match tieredResult with
    | some tr => Decimal.intPart (Decimal.round (tr.actualQuotaBeforeGroup * snap.groupRatio + surcharge))
    | none => tieredQuota + Decimal.intPart (Decimal.round surcharge)

/-- The quota that is settled, for the ratio of the pricing and that of the settlement. -/
def settledQuota (b : TieredBill) (priced settled : GroupRatioInfo) : Option Int := do
  let snap ← b.modelPriceHelperTiered priced
  let (tieredQuota, tieredResult) ← b.tryTieredSettle snap
  some (composeTieredTextQuota snap (b.calculateTextToolCallSurcharge settled.groupRatio) tieredQuota tieredResult)

section
variable {b : TieredBill} {priced settled : GroupRatioInfo}

/-- A bill for a given result of the expression, without tool calls. -/
def plain (quota : ℚ) : TieredBill where
  modelName := ""
  exprString := ""
  runExpr := fun _ _ => some (quota, "")
  promptTokens := 0
  maxTokens := 0
  enableFreeModelPreConsume := true
  quotaPerUnit := 1000000
  params := { p := 0, c := 0, len := 0, cr := 0, cc := 0, cc1h := 0, img := 0, imgO := 0, ai := 0, ao := 0 }
  finalPreConsumedQuota := 0
  tools := {}
  prices :=
    { getToolPrice := fun _ => 0, getToolPriceForModel := fun _ _ => 0, getGPTImage1PriceOnceCall := fun _ _ => 0 }

theorem settledQuota_plain (quota : ℚ) :
    (plain quota).settledQuota priced settled = some (Decimal.round (quota * priced.groupRatio)) := by
  have hunit : quota / 1000000 * 1000000 = quota := div_mul_cancel₀ quota (by norm_num)
  have hnone : (plain quota).calculateTextToolCallSurcharge settled.groupRatio = 0 := by
    simp [calculateTextToolCallSurcharge, plain, GoString.hasSuffix]
  show some (composeTieredTextQuota _ ((plain quota).calculateTextToolCallSurcharge settled.groupRatio)
    (quotaRound (quota / 1000000 * 1000000 * priced.groupRatio)) _) = _
  rw [hnone, composeTieredTextQuota, if_pos rfl, hunit]
  rfl

theorem settledQuota_congr {priced' settled' : GroupRatioInfo} (hpriced : priced.groupRatio = priced'.groupRatio)
    (hsettled : settled.groupRatio = settled'.groupRatio) :
    b.settledQuota priced settled = b.settledQuota priced' settled' := by
  unfold settledQuota modelPriceHelperTiered
  rw [hpriced, hsettled]

theorem forall_settledQuota_iff :
    (∀ b : TieredBill, b.settledQuota priced settled = b.settledQuota settled settled) ↔
      priced.groupRatio = settled.groupRatio := by
  constructor
  · intro h
    by_contra hne
    have hsub : priced.groupRatio - settled.groupRatio ≠ 0 := sub_ne_zero.2 hne
    -- a quota that the two ratios take two units apart
    have hquota := h (plain (2 / (priced.groupRatio - settled.groupRatio)))
    rw [settledQuota_plain, settledQuota_plain] at hquota
    have hround := Option.some.inj hquota
    have happart : 2 / (priced.groupRatio - settled.groupRatio) * priced.groupRatio =
        2 / (priced.groupRatio - settled.groupRatio) * settled.groupRatio + 2 := by
      field_simp
      ring
    have hleft := Decimal.abs_sub_round_le (2 / (priced.groupRatio - settled.groupRatio) * priced.groupRatio)
    have hright := Decimal.abs_sub_round_le (2 / (priced.groupRatio - settled.groupRatio) * settled.groupRatio)
    rw [hround, happart] at hleft
    rw [abs_le] at hleft hright
    linarith [hleft.2, hright.1]
  · intro h b
    exact settledQuota_congr h rfl

end

end TieredBill

/-! ## The ratio of the group that serves -/

/-- The ratio of the group that the last attempt was made in, by the settings that were read for it. -/
def servedRatio (r : Request) (ratios : GroupRatios) (rounds : Nat → Round) (s : Loop) : Option GroupRatioInfo :=
  s.attempts.getLast?.map fun a =>
    (if a.chooser = .loop then (rounds (s.attempts.length - 1)).ratios else ratios).ratioInfo r.userGroup a.group

/-- The request has been served by the last attempt. -/
def Loop.Served (s : Loop) : Prop := s.newAPIError = none ∧ s.attempts ≠ []

section
variable {r : Request} {c : Round} {s s' s₁ : Loop} {a : Attempt} {ratios : GroupRatios} {d : Distribution}

theorem start_groupRatioInfo (hauto : r.tokenGroup = "auto") (h : start r ratios d = some s) :
    s.groupRatioInfo = ratios.ratioInfo r.userGroup s.first.group := by
  unfold start at h
  obtain ⟨⟨ctx, first⟩, hdist, rfl⟩ := Option.map_eq_some_iff.1 h
  have hgroup : ctx.autoGroup.getD r.tokenGroup = first.group := by
    unfold distribute at hdist
    split at hdist
    · cases hdist
      rfl
    split at hdist
    · cases hdist
      rw [if_pos hauto]
      rfl
    have hselects := @selects r d.pick {} rfl
    generalize cacheGetRandomSatisfiedChannel r d.pick {} = result at hdist hselects
    obtain ⟨selection, state⟩ := result
    cases hselects with
    | nothing =>
      dsimp only at hdist
      split at hdist
      next heq => cases heq
      · cases hdist
    | found _ _ _ _ hgroup =>
      cases hdist
      rw [hgroup hauto]
      rfl
  show (handleGroupRatio ratios r.userGroup ctx r.tokenGroup).1 = _
  rw [handleGroupRatio, hgroup]

/-- An attempt of a request with the group `auto` reads the ratio of its group. -/
theorem Takes.groupRatioInfo (hauto : r.tokenGroup = "auto") (h : Takes r c s a s₁) :
    s.channelMeta = false ∧ a = s.first ∧ s₁.groupRatioInfo = s.groupRatioInfo ∨
      a.chooser = .loop ∧ s₁.groupRatioInfo = c.ratios.ratioInfo r.userGroup a.group := by
  cases h with
  | context hmeta => exact .inl ⟨hmeta, rfl, rfl⟩
  | selected hmeta hselects =>
    cases hselects with
    | found _ _ _ _ hgroup =>
      refine .inr ⟨rfl, ?_⟩
      unfold handleGroupRatio
      rw [hgroup hauto]
      rfl

theorem iterate_served (hreset : s.retry.param.resetNextTry = false) (h : iterate r c s = .stop s')
    (hnone : s'.newAPIError = none) :
    ∃ a s₁, Takes r c s a s₁ ∧ s'.attempts = s.attempts ++ [a] ∧ s'.groupRatioInfo = s₁.groupRatioInfo := by
  unfold iterate at h
  split at h
  next e s₁ heq =>
    cases h
    cases hnone
  next a s₁ heq =>
    have htakes := getChannel_ok hreset heq
    dsimp only at h
    split at h
    · cases h
      cases hnone
    split at h
    · cases h
      exact ⟨a, s₁, htakes, by rw [htakes.attempts], rfl⟩
    next e he =>
      split at h
      · cases h
      · cases h
        rw [he] at hnone
        cases hnone

theorem groupRatioInfo_of_served (hauto : r.tokenGroup = "auto") (hstart : start r ratios d = some s)
    {rounds : Nat → Round} {fuel : Nat} (hrun : relayLoop r fuel rounds s = some s') (hserved : s'.Served) :
    servedRatio r ratios rounds s' = some s'.groupRatioInfo := by
  obtain ⟨hgoing, hnil, -, -⟩ := start_going hstart
  refine @relayLoop_inv_zero r rounds
    (fun k s => Going r s ∧ s.attempts.length = k ∧ (s.newAPIError = none → s.attempts = []) ∧
      (s.channelMeta = false → s.groupRatioInfo = ratios.ratioInfo r.userGroup s.first.group))
    (fun s => s.Served → servedRatio r ratios rounds s = some s.groupRatioInfo) ?_ ?_ ?_ fuel s s'
    ⟨hgoing, by rw [hnil]; rfl, fun _ => hnil, fun _ => start_groupRatioInfo hauto hstart⟩ hrun hserved
  · rintro k s s' ⟨hgoing, hlen, -, -⟩ hiter
    refine ⟨hgoing.again hiter, ?_⟩
    obtain ⟨a, s₁, e, htakes, -, -, rfl⟩ := iterate_again hgoing.reset hiter
    exact ⟨by rw [List.length_append, hlen]; rfl, fun hnone => (by cases hnone), fun hmeta => (by cases hmeta)⟩
  · rintro k s s' ⟨hgoing, hlen, -, hfirst⟩ hiter ⟨hnone, -⟩
    obtain ⟨a, s₁, htakes, hattempts, hratio⟩ := iterate_served hgoing.reset hiter hnone
    have hcount : (s.attempts ++ [a]).length - 1 = k := by
      rw [List.length_append, hlen]
      rfl
    rw [servedRatio, hattempts, hratio, List.getLast?_concat, Option.map_some, hcount]
    rcases htakes.groupRatioInfo hauto with ⟨hmeta, rfl, hsame⟩ | ⟨hloop, hsame⟩
    · rw [if_neg (hgoing.fresh hmeta).2.2, hsame, hfirst hmeta]
    · rw [if_pos hloop, hsame]
  · rintro k s ⟨-, -, hempty, -⟩ ⟨hnone, hne⟩
    exact absurd (hempty hnone) hne

/-- The two parts of every bill are settled at the ratio of the group that served the request, just if the request was
priced at that ratio. -/
theorem one_group_ratio_iff (hauto : r.tokenGroup = "auto") (hstart : start r ratios d = some s)
    {rounds : Nat → Round} {fuel : Nat} (hrun : relayLoop r fuel rounds s = some s') (hserved : s'.Served) :
    ∃ served, servedRatio r ratios rounds s' = some served ∧
      ((∀ b : TieredBill, b.settledQuota s.groupRatioInfo s'.groupRatioInfo = b.settledQuota served served) ↔
        (ratios.ratioInfo r.userGroup s.first.group).groupRatio = served.groupRatio) := by
  refine ⟨_, groupRatioInfo_of_served hauto hstart hrun hserved, ?_⟩
  rw [TieredBill.forall_settledQuota_iff, start_groupRatioInfo hauto hstart]

end

/-! ## A request that changes its group -/

/-- The group `b` costs twice as much as the group `a`. -/
def doubleRatios : GroupRatios :=
  { groupGroupRatio := fun _ _ => none, groupRatio := fun group => if group = "b" then 2 else 1 }

/-- Both attempts in `a` fail, the one in `b` does not. -/
def doubleRound (k : Nat) : Round :=
  { autoRound with ratios := doubleRatios, relayError := if k < 2 then autoRound.relayError else none }

def doubleStart : Loop where
  retry := { ctx := { autoGroup := some "a", autoGroupIndex := some 0 } }
  usingGroup := "a"
  groupRatioInfo := { groupRatio := 1 }
  first := ⟨1, "a", some 0, .distributed⟩

def doubleServed : Loop where
  retry := { param := { retry := some 0 }, ctx := { autoGroup := some "b", autoGroupIndex := some 1 } }
  channelMeta := true
  usingGroup := "b"
  groupRatioInfo := { groupRatio := 2 }
  first := ⟨1, "a", some 0, .distributed⟩
  attempts := [⟨1, "a", some 0, .distributed⟩, ⟨1, "a", some 0, .loop⟩, ⟨2, "b", some 1, .loop⟩]

theorem doubleStart_eq : start autoRequest doubleRatios { pick := autoPick } = some doubleStart := rfl

theorem doubleServed_eq : relayLoop autoRequest 5 doubleRound doubleStart = some doubleServed := rfl

theorem doubleServed_served : doubleServed.Served := ⟨rfl, List.cons_ne_nil _ _⟩

theorem one_group_ratio_iff_double :
    ∃ served, servedRatio autoRequest doubleRatios doubleRound doubleServed = some served ∧
      ((∀ b : TieredBill,
          b.settledQuota doubleStart.groupRatioInfo doubleServed.groupRatioInfo = b.settledQuota served served) ↔
        (doubleRatios.ratioInfo autoRequest.userGroup doubleStart.first.group).groupRatio = served.groupRatio) :=
  one_group_ratio_iff rfl doubleStart_eq doubleServed_eq doubleServed_served

/-- Tokens for a thousand units, and a search for five thousand. -/
def searchBill : TieredBill :=
  { TieredBill.plain 2000 with
    quotaPerUnit := 500000
    tools := { claudeWebSearchRequests := 1 }
    prices :=
      { getToolPrice := fun _ => 10, getToolPriceForModel := fun _ _ => 0, getGPTImage1PriceOnceCall := fun _ _ => 0 } }

/-- The request is served in `b`; its tokens are charged at the ratio of `a`, its search at that of `b`. -/
theorem double_two_ratios :
    start autoRequest doubleRatios { pick := autoPick } = some doubleStart ∧
      relayLoop autoRequest 5 doubleRound doubleStart = some doubleServed ∧
      doubleServed.attempts.getLast? = some ⟨2, "b", some 1, .loop⟩ ∧
      searchBill.settledQuota doubleStart.groupRatioInfo doubleServed.groupRatioInfo = some (1000 + 2 * 5000) ∧
      searchBill.settledQuota (doubleRatios.ratioInfo "" "b") (doubleRatios.ratioInfo "" "b") =
        some (2 * 1000 + 2 * 5000) := by
  refine ⟨doubleStart_eq, doubleServed_eq, rfl, ?_, ?_⟩
  · decide +kernel
  · decide +kernel

end NewApi.Relay

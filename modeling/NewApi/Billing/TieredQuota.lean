import NewApi.Billing.ExprCache
import NewApi.Billing.MaxTokens
import NewApi.Billing.TextQuota
import NewApi.Billing.Tiered
import NewApi.Lib.Float64

/-!
# The sign of an expression's quota

Before a billing expression is saved, `smokeTestExpr` runs it on eight samples, in which nothing is cached and there are no images
and no audio, and refuses it if a result is negative. A request is priced by the result for its own counts, headers, body and
time, and nothing on the way from there to the settlement looks at the sign; in the end it is converted to an `int`, which is the
least one where it does not fit.

So what a request costs is not negative just where the results of its own two runs are numbers whose price is above minus half a
unit and fits, with the calls of tools added to the one that is settled (`never_pays_iff`).
-/

namespace NewApi.TieredQuota

open Billing (TokenParams TieredUsage TextInfo TextSetting buildTieredTokenParams)
open Billing.MaxTokens (Estimate)
open ToolCalls (Context)

/-! ## Running an expression -/

/-- `RequestInput`: the headers, in the order in which the map is gone through, and the body. -/
structure RequestInput where
  headers : List (String × String) := []
  body : String := ""

/-- `TraceResult`. -/
structure TraceResult where
  matchedTier : String := ""
  cost : Float64 := .finite 0

/-- What a program returns: a `float64`, or a value of another type. -/
inductive Output
  | float (f : Float64)
  | other (type : String)

/-- The environment of a program, as far as the request makes it: the counts, and what the functions `header` and `param` return. -/
structure ExprEnv (V : Type) where
  params : TokenParams
  header : String → String
  param : String → Option V

/-- The packages that expressions are run by: the compiler, `expr.Run` of a program at a moment, with what it reads of the clock, and
`gjson.GetBytes`. -/
structure Evaluator (M V : Type) where
  compiler : ExprCache.Compiler
  run : ExprCache.Program → ExprEnv V → M → Except String Output × TraceResult
  getBytes : String → String → Option V

/-- `normalizeHeaders`: the value of a header in the map that is made, which is the last one. -/
def normalizeHeaders (headers : List (String × String)) (key : String) : String :=
  let normalized := headers.filterMap fun header =>
    let k := GoString.toLower (GoString.trimSpace header.1)
    let v := GoString.trimSpace header.2
    if k = "" ∨ v = "" then none else some (k, v)
  (normalized.reverse.lookup key).getD ""

section
variable {M V : Type} (e : Evaluator M V)

/-- `runProgram`. -/
def runProgram (prog : ExprCache.Program) (params : TokenParams) (request : RequestInput) (moment : M) :
    Except String (Float64 × TraceResult) :=
  let env : ExprEnv V :=
    { params
      header := fun key => normalizeHeaders request.headers (GoString.toLower (GoString.trimSpace key))
      param := fun path =>
        let path := GoString.trimSpace path
        if path = "" ∨ request.body = "" then none else e.getBytes request.body path }
  match e.run prog env moment with
  | (.error err, _) => .error ("expr run error: " ++ err)
  | (.ok (.other type), _) => .error ("expr result is " ++ type ++ ", want float64")
  | (.ok (.float f), trace) => .ok (f, trace)

/-- `RunExprWithRequest`, and `RunExprByHashWithRequest` with the hash of the expression: the cache has the program that the
expression is compiled to. -/
def runExprWithRequest (exprStr : String) (params : TokenParams) (request : RequestInput) (moment : M) :
    Except String (Float64 × TraceResult) :=
  match e.compiler.ofExpr exprStr with
  | .error err => .error err
  | .ok prog => runProgram e prog params request moment

/-! ## The test of an expression -/

/-- Counts of text only. -/
def textParams (p c : Int) : TokenParams :=
  { p, c, len := p, cr := 0, cc := 0, cc1h := 0, img := 0, imgO := 0, ai := 0, ao := 0 }

/-- The counts that an expression is tested with. -/
def vectors : List TokenParams := [textParams 0 0, textParams 1000 1000, textParams 100000 100000, textParams 1000000 1000000]

/-- The requests that an expression is tested with. -/
def requests : List RequestInput :=
  [{},
    { headers := [("anthropic-beta", "fast-mode-2026-02-01")]
      body := "\x7b\"service_tier\":\"fast\",\"stream_options\":\x7b\"include_usage\":true\x7d,\"messages\":[" ++
        "1,2,3,4,5,6,7,8,9,10,11,12,13,14,15,16,17,18,19,20,21]\x7d" }]

/-- The counts and the requests in the order of the loops. -/
def samples : List (TokenParams × RequestInput) := vectors.flatMap fun v => requests.map fun request => (v, request)

/-- Why an expression is refused. -/
inductive SmokeError
  | runFailed (v : TokenParams) (err : String)
  | negative (v : TokenParams) (result : Float64)

/-- The loops of `smokeTestExpr`, over samples of which each is run at a moment of its own. -/
def smokeLoop (exprStr : String) : List (TokenParams × RequestInput) → List M → Except SmokeError Unit
  | sample :: rest, moment :: moments =>
    match runExprWithRequest e exprStr sample.1 sample.2 moment with
    | .error err => .error (.runFailed sample.1 err)
    | .ok result => if result.1.isNeg then .error (.negative sample.1 result.1) else smokeLoop exprStr rest moments
  | _, _ => .ok ()

/-- `smokeTestExpr`. -/
def smokeTestExpr (exprStr : String) (moments : Vector M 8) : Except SmokeError Unit := smokeLoop e exprStr samples moments.toList

/-- The test accepts the expression, at some moments. -/
def Accepts (exprStr : String) : Prop := ∃ moments, smokeTestExpr e exprStr moments = .ok ()

/-! ## The quota -/

/-- `BillingSnapshot`, without the hash of the expression. -/
structure BillingSnapshot where
  billingMode : String
  modelName : String
  exprString : String
  groupRatio : ℚ
  estimatedPromptTokens : Int
  estimatedCompletionTokens : Int
  estimatedQuotaBeforeGroup : Float64
  estimatedQuotaAfterGroup : Int
  estimatedTier : String
  quotaPerUnit : ℚ
  exprVersion : ℕ

/-- `TieredResult`. -/
structure TieredResult where
  actualQuotaBeforeGroup : Float64
  actualQuotaAfterGroup : Int
  matchedTier : String
  crossedTier : Bool

/-- `QuotaRound`. What is not a number, or infinite, becomes the least integer, as on amd64. -/
def quotaRound : Float64 → Int
  | .finite x => Billing.MaxTokens.quotaRound x
  | _ => -(2 ^ 63)

/-- The price of a result before the ratio of the group. -/
def quotaBeforeGroup (quotaPerUnit : ℚ) (cost : Float64) : Float64 := (cost.divBy 1000000).mul (.finite quotaPerUnit)

/-- The price of a result. -/
def price (quotaPerUnit groupRatio : ℚ) (cost : Float64) : Float64 :=
  (quotaBeforeGroup quotaPerUnit cost).mul (.finite groupRatio)

/-- A price that is charged: a number above minus half a unit, which is rounded to one of 64 bits. -/
def Charged (p : Float64) : Prop := ∃ x, p = .finite x ∧ -1 / 2 < x ∧ x < 2 ^ 63 - 1 / 2

/-- `quotaConversion`. -/
def quotaConversion (exprOutput : Float64) (snap : BillingSnapshot) : Float64 :=
  match snap.exprVersion with
  | _ => quotaBeforeGroup snap.quotaPerUnit exprOutput

/-- The settings: those of the quota of a text request, and `EnableFreeModelPreConsume`, with `decimal.NewFromFloat` of a number. -/
structure Setting extends TextSetting where
  enableFreeModelPreConsume : Bool
  newFromFloat : ℚ → ℚ

/-- A request and its answer: what it is priced by in the beginning and in the end, with the variables that `UsedVars` answers
for the expression. -/
structure Call (M : Type) where
  info : TextInfo
  ctx : Context := {}
  cost : ℚ := 0
  requestInput : RequestInput := {}
  promptTokens : Int
  maxTokens : Int := 0
  groupRatio : ℚ
  pricedAt : M
  settledAt : M
  finalPreConsumedQuota : Int := 0
  usage : TieredUsage
  usedVars : String → Bool
  smartrelayCacheHit : Bool := false

namespace Call

variable (setting : Setting) (exprStr : String) (r : Call M)

/-- The counts of the estimate. -/
def estimateParams : TokenParams :=
  let estimatedCompletionTokens := if r.maxTokens ≠ 0 then r.maxTokens else 0
  textParams (float64 r.promptTokens) (float64 estimatedCompletionTokens)

/-- Nothing is taken in advance. -/
def Free : Prop := setting.enableFreeModelPreConsume = false ∧ r.groupRatio = 0

instance : Decidable (r.Free setting) := inferInstanceAs (Decidable (_ ∧ _))

/-- `modelPriceHelperTiered`, for a model with an expression. -/
def modelPriceHelperTiered : Except String (BillingSnapshot × Estimate) :=
  match runExprWithRequest e exprStr r.estimateParams r.requestInput r.pricedAt with
  | .error err => .error ("model " ++ r.info.originModelName ++ " tiered expr run failed: " ++ err)
  | .ok (rawCost, trace) =>
    let quotaBeforeGroup := quotaBeforeGroup setting.quotaPerUnit rawCost
    let preConsumedQuota :=
      if r.Free setting then 0 else quotaRound (quotaBeforeGroup.mul (.finite r.groupRatio))
    .ok
      ({ billingMode := "tiered_expr"
         modelName := r.info.originModelName
         exprString := exprStr
         groupRatio := r.groupRatio
         estimatedPromptTokens := r.promptTokens
         estimatedCompletionTokens := if r.maxTokens ≠ 0 then r.maxTokens else 0
         estimatedQuotaBeforeGroup := quotaBeforeGroup
         estimatedQuotaAfterGroup := preConsumedQuota
         estimatedTier := trace.matchedTier
         quotaPerUnit := setting.quotaPerUnit
         exprVersion := (ExprCache.parseExprVersion exprStr).1 },
        { quotaToPreConsume := preConsumedQuota, freeModel := r.Free setting })

/-- The usage has Claude's semantic. -/
def isClaudeUsageSemantic : Bool :=
  (Billing.textRequest setting.toTextSetting r.info r.ctx r.cost).isClaudeUsageSemantic r.usage.toUsage

/-- The counts of the answer. -/
def settledParams : TokenParams := buildTieredTokenParams r.usage (r.isClaudeUsageSemantic setting) r.usedVars

/-- `ComputeTieredQuotaWithRequest`. -/
def computeTieredQuota (snap : BillingSnapshot) : Except String TieredResult :=
  match runExprWithRequest e snap.exprString (r.settledParams setting) r.requestInput r.settledAt with
  | .error err => .error err
  | .ok (cost, trace) =>
    let quotaBeforeGroup := quotaConversion cost snap
    .ok
      { actualQuotaBeforeGroup := quotaBeforeGroup
        actualQuotaAfterGroup := quotaRound (quotaBeforeGroup.mul (.finite snap.groupRatio))
        matchedTier := trace.matchedTier
        crossedTier := trace.matchedTier ≠ snap.estimatedTier }

/-- `TryTieredSettle`. -/
def tryTieredSettle (snap : BillingSnapshot) : Option (Int × Option TieredResult) :=
  if snap.billingMode ≠ "tiered_expr" then none
  else
    match r.computeTieredQuota e setting snap with
    | .error _ =>
      some (if r.finalPreConsumedQuota ≤ 0 then snap.estimatedQuotaAfterGroup else r.finalPreConsumedQuota, none)
    | .ok tr => some (tr.actualQuotaAfterGroup, some tr)

/-- `ToolCallSurchargeQuota`. -/
def surcharge : ℚ := Billing.toolCallSurcharge setting.toTextSetting r.info r.ctx

/-- `composeTieredTextQuota`. There is no decimal of what is not a number or infinite: `NewFromFloat` panics. -/
def composeTieredTextQuota (snap : BillingSnapshot) (tieredQuota : Int) (tieredResult : Option TieredResult) : Option Int :=
  if r.surcharge setting = 0 then some tieredQuota
  else
    match tieredResult with
    | some tr =>
      match tr.actualQuotaBeforeGroup with
      | .finite x =>
        some (Decimal.intPart
          (Decimal.round (setting.newFromFloat x * setting.newFromFloat snap.groupRatio + r.surcharge setting)))
      | _ => none
    | none => some (wrap64 (tieredQuota + Decimal.intPart (Decimal.round (r.surcharge setting))))

/-- The quota that `PostTextConsumeQuota` settles. -/
def settledQuota (snap : BillingSnapshot) : Option Int :=
  let summaryQuota := Billing.calculateTextQuotaSummary setting.toTextSetting r.info r.ctx r.cost (some r.usage.toUsage)
  let quota :=
    match r.tryTieredSettle e setting snap with
    | some (tieredQuota, tieredResult) => r.composeTieredTextQuota setting snap tieredQuota tieredResult
    | none => some summaryQuota
  quota.map fun quota => if r.smartrelayCacheHit then 0 else quota

/-! ## What a request should cost -/

/-- No count of the usage is negative. -/
def CountsNonneg : Prop :=
  ∀ n ∈ [r.usage.promptTokens, r.usage.completionTokens, r.usage.totalTokens, r.usage.promptTextTokens, r.usage.promptAudioTokens,
    r.usage.completionTextTokens, r.usage.completionAudioTokens, r.usage.completionImageTokens, r.usage.cachedTokens,
    r.usage.cachedCreationTokens, r.usage.imageTokens, r.usage.claudeCacheCreation5mTokens,
    r.usage.claudeCacheCreation1hTokens], 0 ≤ n

/-- Neither what a request pre-consumes nor what it settles is negative, where its expression has been accepted. -/
def NeverPays : Prop :=
  Accepts e exprStr → r.CountsNonneg → ∀ snap estimate, r.modelPriceHelperTiered e setting exprStr = .ok (snap, estimate) →
    0 ≤ estimate.quotaToPreConsume ∧ ∀ quota, r.settledQuota e setting snap = some quota → 0 ≤ quota

/-- What has been taken in advance when the expression fails in the end, for its result in the beginning. -/
def advance (estimated : Float64) : Int :=
  if r.finalPreConsumedQuota ≤ 0 then
    if r.Free setting then 0 else quotaRound (price setting.quotaPerUnit r.groupRatio estimated)
  else r.finalPreConsumedQuota

/-- The condition on the result for the counts of the answer. With calls of tools it is a decimal that is charged, of which 64 bits
are taken; where there is no result, what has been taken in advance is. -/
def SettledInRange (estimated : Float64) : Prop :=
  match runExprWithRequest e exprStr (r.settledParams setting) r.requestInput r.settledAt with
  | .ok (cost, _) =>
    if r.surcharge setting = 0 then Charged (price setting.quotaPerUnit r.groupRatio cost)
    else
      ∀ x, quotaBeforeGroup setting.quotaPerUnit cost = .finite x →
        0 ≤ Decimal.intPart
          (Decimal.round (setting.newFromFloat x * setting.newFromFloat r.groupRatio + r.surcharge setting))
  | .error _ =>
    r.surcharge setting = 0 ∨
      0 ≤ wrap64 (r.advance setting estimated + Decimal.intPart (Decimal.round (r.surcharge setting)))

/-- The condition on the results of a request's two runs of the expression. -/
def InRange : Prop :=
  ∀ cost trace, runExprWithRequest e exprStr r.estimateParams r.requestInput r.pricedAt = .ok (cost, trace) →
    (r.Free setting ∨ Charged (price setting.quotaPerUnit r.groupRatio cost)) ∧
      (r.smartrelayCacheHit = false → r.SettledInRange e setting exprStr cost)

end Call

end

section
variable {M V : Type} {e : Evaluator M V} {setting : Setting} {exprStr : String} {r : Call M} {cost : Float64} {trace : TraceResult}
  {snap : BillingSnapshot} {quotaPerUnit groupRatio : ℚ} {f : Float64}

/-! ## Prices -/

theorem quotaRound_nonneg_iff : 0 ≤ quotaRound f ↔ Charged f := by
  cases f with
  | nan => exact iff_of_false (show ¬ 0 ≤ -(2 ^ 63 : Int) by decide) nofun
  | infinite negative => exact iff_of_false (show ¬ 0 ≤ -(2 ^ 63 : Int) by decide) nofun
  | finite x =>
    rw [quotaRound, Billing.MaxTokens.quotaRound_nonneg_iff]
    constructor
    · exact fun h => ⟨x, rfl, h⟩
    · rintro ⟨y, heq, h⟩
      cases heq
      exact h

theorem preConsumed_nonneg_iff : 0 ≤ (if r.Free setting then 0 else quotaRound f) ↔ r.Free setting ∨ Charged f := by
  split
  next hfree => exact iff_of_true (le_refl 0) (.inl hfree)
  next hfree => rw [quotaRound_nonneg_iff, or_iff_right hfree]

/-! ## The settlement -/

/-- The snapshot is that of the request, for a result of the expression in the beginning. -/
structure Snapshot (setting : Setting) (exprStr : String) (r : Call M) (estimated : Float64) (snap : BillingSnapshot) : Prop where
  billingMode : snap.billingMode = "tiered_expr"
  exprString : snap.exprString = exprStr
  groupRatio : snap.groupRatio = r.groupRatio
  quotaPerUnit : snap.quotaPerUnit = setting.quotaPerUnit
  estimated : snap.estimatedQuotaAfterGroup =
    if r.Free setting then 0 else quotaRound (price setting.quotaPerUnit r.groupRatio estimated)

theorem modelPriceHelperTiered_ok
    (h : runExprWithRequest e exprStr r.estimateParams r.requestInput r.pricedAt = .ok (cost, trace)) :
    ∃ snap estimate, r.modelPriceHelperTiered e setting exprStr = .ok (snap, estimate) ∧ Snapshot setting exprStr r cost snap ∧
      estimate.quotaToPreConsume = if r.Free setting then 0 else quotaRound (price setting.quotaPerUnit r.groupRatio cost) := by
  unfold Call.modelPriceHelperTiered
  rw [h]
  exact ⟨_, _, rfl, ⟨rfl, rfl, rfl, rfl, rfl⟩, rfl⟩

theorem tryTieredSettle_error (hsnap : Snapshot setting exprStr r cost snap) {err : String}
    (h : runExprWithRequest e exprStr (r.settledParams setting) r.requestInput r.settledAt = .error err) :
    r.tryTieredSettle e setting snap = some (r.advance setting cost, none) := by
  unfold Call.tryTieredSettle Call.computeTieredQuota Call.advance
  rw [if_neg (not_not.2 hsnap.billingMode), hsnap.exprString, h, hsnap.estimated]

theorem tryTieredSettle_ok {estimated : Float64} (hsnap : Snapshot setting exprStr r estimated snap)
    (h : runExprWithRequest e exprStr (r.settledParams setting) r.requestInput r.settledAt = .ok (cost, trace)) :
    ∃ tr : TieredResult, r.tryTieredSettle e setting snap =
        some (quotaRound (price setting.quotaPerUnit r.groupRatio cost), some tr) ∧
      tr.actualQuotaBeforeGroup = quotaBeforeGroup setting.quotaPerUnit cost := by
  unfold Call.tryTieredSettle Call.computeTieredQuota quotaConversion
  rw [if_neg (not_not.2 hsnap.billingMode), hsnap.exprString, h, hsnap.groupRatio, hsnap.quotaPerUnit]
  exact ⟨_, rfl, rfl⟩

theorem settledQuota_nonneg_iff (hsnap : Snapshot setting exprStr r cost snap) (hnonneg : 0 ≤ snap.estimatedQuotaAfterGroup) :
    (∀ quota, r.settledQuota e setting snap = some quota → 0 ≤ quota) ↔
      (r.smartrelayCacheHit = false → r.SettledInRange e setting exprStr cost) := by
  unfold Call.settledQuota
  dsimp only
  cases r.smartrelayCacheHit with
  | true =>
    refine iff_of_true (fun quota hquota => ?_) nofun
    obtain ⟨_, -, rfl⟩ := Option.map_eq_some_iff.1 hquota
    exact le_refl 0
  | false =>
    have hid : ∀ o : Option Int, (o.map fun quota => if false = true then 0 else quota) = o := fun o => by simp
    rw [hid, forall_prop_of_true rfl]
    unfold Call.SettledInRange
    cases hrun : runExprWithRequest e exprStr (r.settledParams setting) r.requestInput r.settledAt with
    | error err =>
      have hadvance : 0 ≤ r.advance setting cost := by
        unfold Call.advance
        rw [hsnap.estimated] at hnonneg
        split
        · exact hnonneg
        · omega
      rw [tryTieredSettle_error hsnap hrun]
      unfold Call.composeTieredTextQuota
      dsimp only
      split
      next hzero => exact iff_of_true (by rintro _ ⟨⟩; exact hadvance) (.inl hzero)
      next hsurcharge => simp [hsurcharge]
    | ok result =>
      obtain ⟨tr, hsettle, hbefore⟩ := tryTieredSettle_ok hsnap hrun
      rw [hsettle]
      unfold Call.composeTieredTextQuota
      dsimp only
      split
      next => simp [quotaRound_nonneg_iff]
      next =>
        rw [hbefore, hsnap.groupRatio]
        split
        next x hx => simp [hx]
        next hno => exact iff_of_true nofun fun x hx => absurd hx (hno x)

/-- What a request costs is not negative, where its expression has been accepted, just where the results of its two runs are in
range. -/
theorem never_pays_iff (e : Evaluator M V) (setting : Setting) (exprStr : String) (r : Call M) :
    r.NeverPays e setting exprStr ↔ (Accepts e exprStr → r.CountsNonneg → r.InRange e setting exprStr) := by
  refine imp_congr_right fun _ => imp_congr_right fun _ => ?_
  constructor
  · intro h cost trace hrun
    obtain ⟨snap, estimate, hprice, hsnap, hestimate⟩ := modelPriceHelperTiered_ok hrun
    obtain ⟨hpre, hsettled⟩ := h snap estimate hprice
    rw [hestimate, preConsumed_nonneg_iff] at hpre
    refine ⟨hpre, (settledQuota_nonneg_iff hsnap ?_).1 hsettled⟩
    rw [hsnap.estimated, preConsumed_nonneg_iff]
    exact hpre
  · intro h snap estimate hprice
    cases hrun : runExprWithRequest e exprStr r.estimateParams r.requestInput r.pricedAt with
    | error err =>
      unfold Call.modelPriceHelperTiered at hprice
      rw [hrun] at hprice
      cases hprice
    | ok result =>
      obtain ⟨snap', estimate', hprice', hsnap, hestimate⟩ := modelPriceHelperTiered_ok hrun
      cases hprice.symm.trans hprice'
      obtain ⟨hpre, hsettled⟩ := h result.1 result.2 hrun
      rw [← preConsumed_nonneg_iff] at hpre
      refine ⟨hestimate ▸ hpre, (settledQuota_nonneg_iff hsnap ?_).2 hsettled⟩
      rw [hsnap.estimated]
      exact hpre

end

/-! ## A discount on cached tokens -/

theorem smokeLoop_ok {M V : Type} {e : Evaluator M V} {exprStr : String} {l : List (TokenParams × RequestInput)}
    (h : ∀ sample ∈ l, ∀ moment, ∃ result, runExprWithRequest e exprStr sample.1 sample.2 moment = .ok result ∧
      result.1.isNeg = false) (moments : List M) : smokeLoop e exprStr l moments = .ok () := by
  induction l generalizing moments with
  | nil => rfl
  | cons sample l ih =>
    rw [List.forall_mem_cons] at h
    cases moments with
    | nil => rfl
    | cons moment moments =>
      obtain ⟨result, hrun, hneg⟩ := h.1 moment
      rw [smokeLoop, hrun]
      dsimp only
      rw [hneg, if_neg Bool.false_ne_true]
      exact ih h.2 moments

/-- An expression that takes the discount for cached tokens off the price of the prompt, which has been rid of them. -/
def discountExpr : String := "p * 3 + c * 15 - cr * 3"

/-- Its tree: a difference of sums of products. -/
def discountProgram : ExprCache.Program :=
  ⟨.other [.other [.other [.identifier "p", .other []], .other [.identifier "c", .other []]],
    .other [.identifier "cr", .other []]]⟩

/-- Its results where they and their parts are integers of at most 53 digits. -/
def discount : Evaluator Unit Unit where
  compiler :=
    { compile := fun _ body => if body = "" then .error "unexpected token EOF" else .ok discountProgram
      empty := fun _ => ⟨_, rfl⟩ }
  run := fun _ env _ => (.ok (.float (.ofRat (env.params.p * 3 + env.params.c * 15 - env.params.cr * 3 : Int))), {})
  getBytes := fun _ _ => none

def discountSetting : Setting where
  quotaPerUnit := 500000
  getToolPriceForModel := fun _ _ => 0
  defaultModelRatio := fun _ => none
  enableFreeModelPreConsume := true
  newFromFloat := id

/-- A million tokens of a prompt, all of them cached. -/
def cachedCall : Call Unit where
  info := { originModelName := "m", priceData := { modelPrice := 0, modelRatio := 0, groupRatio := 1, usePrice := false } }
  promptTokens := 1000000
  groupRatio := 1
  pricedAt := ()
  settledAt := ()
  usage := { promptTokens := 1000000, totalTokens := 1000000, cachedTokens := 1000000 }
  usedVars := fun name => name ∈ ExprCache.extractUsedVars discountProgram

theorem run_discount {params : TokenParams} {request : RequestInput} :
    runExprWithRequest discount discountExpr params request () =
      .ok (.ofRat (params.p * 3 + params.c * 15 - params.cr * 3 : Int), {}) := by
  have hcompile : discount.compiler.ofExpr discountExpr = .ok discountProgram := rfl
  unfold runExprWithRequest
  rw [hcompile]
  rfl

theorem accepts_discount : Accepts discount discountExpr := by
  have hsamples : ∀ sample ∈ samples, 0 ≤ sample.1.p * 3 + sample.1.c * 15 - sample.1.cr * 3 ∧
      sample.1.p * 3 + sample.1.c * 15 - sample.1.cr * 3 ≤ 2 ^ 53 := by decide
  refine ⟨Vector.replicate 8 (), smokeLoop_ok (fun sample hsample _ => ⟨_, run_discount, ?_⟩) _⟩
  obtain ⟨hlo, hhi⟩ := hsamples sample hsample
  dsimp only
  rw [Float64.ofRat_intCast (by rwa [abs_of_nonneg hlo])]
  exact decide_eq_false (not_lt.2 (by exact_mod_cast hlo))

theorem price_million {n : Int} (h : |n| ≤ 2 ^ 30) :
    price 500000 1 (.finite ((n * 1000000 : Int) : ℚ)) = .finite ((n * 500000 : Int) : ℚ) := by
  have habs : |n * 500000| ≤ 2 ^ 53 := by
    rw [abs_mul]
    exact (mul_le_mul_of_nonneg_right h (abs_nonneg _)).trans (by decide)
  have hdiv : (Float64.finite ((n * 1000000 : Int) : ℚ)).divBy 1000000 = .finite n := by
    have hn : ((n * 1000000 : Int) : ℚ) / 1000000 = n := by
      push_cast
      field_simp
    show Float64.ofRat (((n * 1000000 : Int) : ℚ) / 1000000) = _
    rw [hn]
    exact Float64.ofRat_intCast (h.trans (by norm_num))
  have hbefore : quotaBeforeGroup 500000 (.finite ((n * 1000000 : Int) : ℚ)) = .finite ((n * 500000 : Int) : ℚ) := by
    have hmul : (n : ℚ) * 500000 = ((n * 500000 : Int) : ℚ) := by push_cast; rfl
    unfold quotaBeforeGroup
    rw [hdiv]
    show Float64.ofRat ((n : ℚ) * 500000) = _
    rw [hmul]
    exact Float64.ofRat_intCast habs
  unfold price
  rw [hbefore]
  show Float64.ofRat (((n * 500000 : Int) : ℚ) * 1) = _
  rw [mul_one]
  exact Float64.ofRat_intCast habs

theorem quotaRound_intCast {n : Int} (h : Fits64 n) : quotaRound (.finite n) = n := by
  show Billing.MaxTokens.quotaRound (n : ℚ) = n
  unfold Billing.MaxTokens.quotaRound
  rw [Decimal.round_intCast, Billing.MaxTokens.int64_of_fits]
  · exact Decimal.trunc_intCast n
  · rwa [Decimal.trunc_intCast]

theorem surcharge_cachedCall : cachedCall.surcharge discountSetting = 0 := by
  have hsuffix : GoString.hasSuffix "m" "search-preview" = false := by decide
  simp [Call.surcharge, Billing.toolCallSurcharge, ToolCalls.calculateTextToolCallSurcharge, ToolCalls.addWebSearch,
    ToolCalls.addClaudeWebSearch, ToolCalls.addFileSearch, ToolCalls.addImageGeneration, cachedCall, hsuffix]

/-- The expression is accepted, and pays three dollars for a prompt that is all cached. -/
theorem not_neverPays_discount :
    Accepts discount discountExpr ∧ cachedCall.CountsNonneg ∧
      (∃ snap estimate, cachedCall.modelPriceHelperTiered discount discountSetting discountExpr = .ok (snap, estimate) ∧
        estimate.quotaToPreConsume = 1500000 ∧ cachedCall.settledQuota discount discountSetting snap = some (-1500000)) ∧
      ¬ cachedCall.NeverPays discount discountSetting discountExpr := by
  have hcounts : cachedCall.CountsNonneg := by
    unfold Call.CountsNonneg
    decide
  have hpriced : runExprWithRequest discount discountExpr cachedCall.estimateParams cachedCall.requestInput cachedCall.pricedAt =
      .ok (.finite ((3 * 1000000 : Int) : ℚ), {}) := by
    refine run_discount.trans ?_
    have hcost : cachedCall.estimateParams.p * 3 + cachedCall.estimateParams.c * 15 - cachedCall.estimateParams.cr * 3 =
        3 * 1000000 := by decide
    rw [hcost, Float64.ofRat_intCast (by decide)]
  have hrun : runExprWithRequest discount discountExpr (cachedCall.settledParams discountSetting) cachedCall.requestInput
      cachedCall.settledAt = .ok (.finite (((-3) * 1000000 : Int) : ℚ), {}) := by
    refine run_discount.trans ?_
    have hcost : (cachedCall.settledParams discountSetting).p * 3 + (cachedCall.settledParams discountSetting).c * 15 -
        (cachedCall.settledParams discountSetting).cr * 3 = (-3) * 1000000 := by decide
    rw [hcost, Float64.ofRat_intCast (by decide)]
  obtain ⟨snap, estimate, hprice, hsnap, hestimate⟩ := @modelPriceHelperTiered_ok _ _ _ discountSetting _ _ _ _ hpriced
  have hpre : estimate.quotaToPreConsume = 1500000 := by
    have hfree : ¬ cachedCall.Free discountSetting := by decide
    rw [hestimate, if_neg hfree]
    show quotaRound (price 500000 1 (.finite ((3 * 1000000 : Int) : ℚ))) = 1500000
    rw [price_million (by decide), quotaRound_intCast (by decide)]
    rfl
  have hquota : cachedCall.settledQuota discount discountSetting snap = some (-1500000) := by
    obtain ⟨tr, hsettle, -⟩ := tryTieredSettle_ok hsnap hrun
    unfold Call.settledQuota
    rw [hsettle]
    unfold Call.composeTieredTextQuota
    dsimp only
    rw [if_pos surcharge_cachedCall]
    show some (quotaRound (price 500000 1 (.finite (((-3) * 1000000 : Int) : ℚ)))) = some (-1500000)
    rw [price_million (by decide), quotaRound_intCast (by decide)]
    rfl
  refine ⟨accepts_discount, hcounts, ⟨snap, estimate, hprice, hpre, hquota⟩, fun h => ?_⟩
  exact absurd ((h accepts_discount hcounts snap estimate hprice).2 _ hquota) (by decide)

end NewApi.TieredQuota

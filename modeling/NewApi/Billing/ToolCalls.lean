import Mathlib.Algebra.Order.Ring.Rat
import NewApi.Convert.ResponsesToChat

/-!
# The calls of built-in tools

A request of the Responses API declares built-in tools, and its response has an item for each call of one. The tools and
their calls are counted by `GenRelayInfoResponses` and by the handlers of the response, and `calculateTextToolCallSurcharge`
charges the counts.

The handler of a whole response counts the tools that the response repeats, not the calls. The handler of a stream counts
the web searches where the preview tool is declared, and no file searches. So the calls are billed as made in just the cases
of `tool_calls_billed_iff`.
-/

namespace NewApi.ToolCalls

open NewApi.Convert (Usage ResponsesUsage ResponsesStreamResponse)

/-! ## Tools and their counts -/

/-- A tool of a request or a response: the texts of its `type` and its `search_context_size` (`Interface2String`). -/
structure Tool where
  type : String
  searchContextSize : String := ""

/-- `BuildInToolInfo`. -/
structure BuildInToolInfo where
  toolName : String
  callCount : Nat := 0
  searchContextSize : String := ""

/-- `ResponsesUsageInfo`: the tools that are declared, by their names. -/
abbrev BuiltInTools := String → Option BuildInToolInfo

def buildInToolWebSearchPreview : String := "web_search_preview"

def buildInToolFileSearch : String := "file_search"

def buildInCallWebSearchCall : String := "web_search_call"

/-- What the loop of `GenRelayInfoResponses` does with a tool. -/
def declareTool (builtInTools : BuiltInTools) (tool : Tool) : BuiltInTools :=
  Function.update builtInTools tool.type (some
    { toolName := tool.type
      searchContextSize :=
        if tool.type = buildInToolWebSearchPreview then
          if tool.searchContextSize = "" then "medium" else tool.searchContextSize
        else "" })

/-- `GenRelayInfoResponses`. -/
def genRelayInfoResponses (tools : List Tool) : BuiltInTools := tools.foldl declareTool fun _ => none

/-- `CallCount++`, if the tool is declared. -/
def countCall (builtInTools : BuiltInTools) (name : String) : BuiltInTools :=
  match builtInTools name with
  | none => builtInTools
  | some info => Function.update builtInTools name (some { info with callCount := info.callCount + 1 })

/-! ## The surcharge -/

/-- What the handlers leave in the context of the request: Claude's web searches, and the quality and the size of an image
that has been generated. -/
structure Context where
  claudeWebSearchRequests : Int := 0
  imageGenerationCall : Option (String × String) := none

/-- The tables of prices, in dollars: for a thousand calls of a tool, and for an image. -/
structure ToolPrices where
  getToolPriceForModel : String → String → ℚ
  getGPTImage1PriceOnceCall : String → String → ℚ

/-- `textQuotaSummary`, the fields that the surcharge is made of. -/
structure TextQuotaSummary where
  modelName : String
  groupRatio : ℚ
  webSearchPrice : ℚ := 0
  webSearchCallCount : Nat := 0
  claudeWebSearchPrice : ℚ := 0
  claudeWebSearchCallCount : Int := 0
  fileSearchPrice : ℚ := 0
  fileSearchCallCount : Nat := 0
  imageGenerationCallPrice : ℚ := 0

section
variable (prices : ToolPrices) (quotaPerUnit : ℚ) (ctx : Context) (responsesUsageInfo : Option BuiltInTools)

/-- The web searches of a Responses request, or of a model that always searches. -/
def addWebSearch (summary : TextQuotaSummary) : TextQuotaSummary :=
  match responsesUsageInfo with
  | some builtInTools =>
    match builtInTools buildInToolWebSearchPreview with
    | some webSearchTool =>
      if webSearchTool.callCount > 0 then
        { summary with
          webSearchCallCount := webSearchTool.callCount
          webSearchPrice := prices.getToolPriceForModel "web_search_preview" summary.modelName }
      else summary
    | none => summary
  | none =>
    if GoString.hasSuffix summary.modelName "search-preview" then
      { summary with
        webSearchCallCount := 1
        webSearchPrice := prices.getToolPriceForModel "web_search_preview" summary.modelName }
    else summary

/-- Claude's web searches. -/
def addClaudeWebSearch (summary : TextQuotaSummary) : TextQuotaSummary :=
  { summary with
    claudeWebSearchCallCount := ctx.claudeWebSearchRequests
    claudeWebSearchPrice :=
      if ctx.claudeWebSearchRequests > 0 then prices.getToolPriceForModel "web_search" ""
      else summary.claudeWebSearchPrice }

def addFileSearch (summary : TextQuotaSummary) : TextQuotaSummary :=
  match responsesUsageInfo.bind (· buildInToolFileSearch) with
  | some fileSearchTool =>
    if fileSearchTool.callCount > 0 then
      { summary with
        fileSearchCallCount := fileSearchTool.callCount
        fileSearchPrice := prices.getToolPriceForModel "file_search" "" }
    else summary
  | none => summary

def addImageGeneration (summary : TextQuotaSummary) : TextQuotaSummary :=
  match ctx.imageGenerationCall with
  | some (quality, size) =>
    { summary with imageGenerationCallPrice := prices.getGPTImage1PriceOnceCall quality size }
  | none => summary

/-- `calculateTextToolCallSurcharge`: the counts and prices, and the quota that they make. -/
def calculateTextToolCallSurcharge (summary : TextQuotaSummary) : TextQuotaSummary × ℚ :=
  let summary := addImageGeneration prices ctx (addFileSearch prices responsesUsageInfo
    (addClaudeWebSearch prices ctx (addWebSearch prices responsesUsageInfo summary)))
  let claudeWebSearches := if summary.claudeWebSearchCallCount > 0 then summary.claudeWebSearchCallCount else 0
  (summary,
    (summary.webSearchPrice * summary.webSearchCallCount / 1000 + summary.claudeWebSearchPrice / 1000 * claudeWebSearches +
      summary.fileSearchPrice * summary.fileSearchCallCount / 1000 + summary.imageGenerationCallPrice) *
        summary.groupRatio * quotaPerUnit)

end

/-! ## The handlers -/

/-- `ResponsesOutput`, with what an image generation says. -/
structure ResponsesOutput extends Convert.ResponsesOutput where
  quality : String := ""
  size : String := ""

/-- `OpenAIResponsesResponse`. -/
structure OpenAIResponsesResponse where
  errorType : String := ""
  output : List ResponsesOutput := []
  tools : List Tool := []
  usage : Option ResponsesUsage := none

/-- `HasImageGenerationCall`, `GetQuality` and `GetSize`. -/
def OpenAIResponsesResponse.imageGenerationCall? (resp : OpenAIResponsesResponse) : Option (String × String) :=
  (resp.output.find? fun out => out.type = "image_generation_call").map fun out => (out.quality, out.size)

def noUsage : Usage :=
  { promptTokens := 0, completionTokens := 0, cachedTokens := 0, cachedCreationTokens := 0,
    claudeCacheCreation5mTokens := 0, claudeCacheCreation1hTokens := 0 }

/-- What a handler is done with: the usage, the context and the counts. -/
structure Handled where
  usage : Usage
  ctx : Context
  responsesUsageInfo : Option BuiltInTools

/-- `OaiResponsesHandler`. An error of the upstream is returned. -/
def oaiResponsesHandler (responsesUsageInfo : Option BuiltInTools) (resp : OpenAIResponsesResponse) :
    Except String Handled :=
  if resp.errorType ≠ "" then .error resp.errorType
  else
    let usage :=
      match resp.usage with
      | none => noUsage
      | some u =>
        { noUsage with
          promptTokens := u.inputTokens
          completionTokens := u.outputTokens
          totalTokens := u.totalTokens
          cachedTokens := (u.inputTokensDetails.map (·.cachedTokens)).getD 0 }
    .ok
      { usage
        ctx := { imageGenerationCall := resp.imageGenerationCall? }
        -- the tools that the response repeats
        responsesUsageInfo := responsesUsageInfo.map fun builtInTools =>
          (resp.tools.map (·.type)).foldl countCall builtInTools }

/-- An event of a Responses stream. -/
abbrev Event := ResponsesStreamResponse OpenAIResponsesResponse ResponsesOutput

/-- What the handler of a stream keeps. -/
structure StreamState where
  usage : Usage := noUsage
  responseText : String := ""
  ctx : Context := {}
  responsesUsageInfo : Option BuiltInTools

/-- The usage of a response that is completed. Zeros leave what there is. -/
def completedUsage (u : ResponsesUsage) (usage : Usage) : Usage :=
  { usage with
    promptTokens := if u.inputTokens ≠ 0 then u.inputTokens else usage.promptTokens
    completionTokens := if u.outputTokens ≠ 0 then u.outputTokens else usage.completionTokens
    totalTokens := if u.totalTokens ≠ 0 then u.totalTokens else usage.totalTokens
    cachedTokens := (u.inputTokensDetails.map (·.cachedTokens)).getD usage.cachedTokens }

/-- The body of the scanner's callback. -/
def streamEvent (st : StreamState) (event : Event) : StreamState :=
  match event.type with
  | "response.completed" =>
    match event.response with
    | none => st
    | some resp =>
      { st with
        usage := (resp.usage.map (completedUsage · st.usage)).getD st.usage
        ctx := { st.ctx with imageGenerationCall := resp.imageGenerationCall?.or st.ctx.imageGenerationCall } }
  | "response.output_text.delta" => { st with responseText := st.responseText ++ event.delta }
  | "response.output_item.done" =>
    match event.item with
    | none => st
    | some item =>
      if item.type = buildInCallWebSearchCall then
        { st with
          responsesUsageInfo := st.responsesUsageInfo.map fun builtInTools =>
            countCall builtInTools buildInToolWebSearchPreview }
      else st
  | _ => st

/-- `OaiResponsesStreamHandler`, with the token counter and the estimate for the prompt. -/
def oaiResponsesStreamHandler (countTextToken : String → Int) (estimatePromptTokens : Int)
    (responsesUsageInfo : Option BuiltInTools) (events : List Event) : Handled :=
  let st := events.foldl streamEvent { responsesUsageInfo }
  let completionTokens :=
    if st.usage.completionTokens = 0 ∧ st.responseText ≠ "" then countTextToken st.responseText
    else st.usage.completionTokens
  let promptTokens :=
    if st.usage.promptTokens = 0 ∧ completionTokens ≠ 0 then estimatePromptTokens else st.usage.promptTokens
  { usage := { st.usage with promptTokens, completionTokens, totalTokens := promptTokens + completionTokens }
    ctx := st.ctx
    responsesUsageInfo := st.responsesUsageInfo }

/-! ## Billed as made -/

/-- The items of the events `response.output_item.done`. -/
def doneItems (events : List Event) : List ResponsesOutput :=
  (events.filter fun event => event.type = "response.output_item.done").filterMap (·.item)

/-- A stream of a response: an event for each item that is done, in any order, and the response at the end. -/
structure Streams (resp : OpenAIResponsesResponse) (events : List Event) : Prop where
  items : (doneItems events).Perm resp.output
  completed : ∃ event ∈ events.getLast?, event.type = "response.completed" ∧ event.response = some resp

/-- The items of a type. -/
def callsMade (resp : OpenAIResponsesResponse) (type : String) : Nat := resp.output.countP (·.type = type)

/-- The calls that are charged are those of the response. -/
def BilledAsMade (prices : ToolPrices) (quotaPerUnit : ℚ) (summary : TextQuotaSummary) (resp : OpenAIResponsesResponse)
    (handled : Handled) : Prop :=
  let charged := (calculateTextToolCallSurcharge prices quotaPerUnit handled.ctx handled.responsesUsageInfo summary).1
  charged.webSearchCallCount = callsMade resp "web_search_call" ∧
    charged.fileSearchCallCount = callsMade resp "file_search_call"

/-- The tools of a name that a response repeats, if the request has declared one. -/
def toolsRepeated (tools : List Tool) (resp : OpenAIResponsesResponse) (name : String) : Nat :=
  if name ∈ tools.map (·.type) then (resp.tools.map (·.type)).count name else 0

section
variable {prices : ToolPrices} {quotaPerUnit : ℚ} {ctx : Context} {builtInTools : BuiltInTools} {name : String}
  {summary : TextQuotaSummary}

/-- The count of a tool that is declared, and zero for another one. -/
def callCountOf (builtInTools : BuiltInTools) (name : String) : Nat := ((builtInTools name).map (·.callCount)).getD 0

theorem map_countCall (builtInTools : BuiltInTools) (called name : String) :
    ((countCall builtInTools called) name).map (·.callCount) =
      (builtInTools name).map fun info => info.callCount + if called = name then 1 else 0 := by
  unfold countCall
  cases hget : builtInTools called with
  | none =>
    dsimp only
    by_cases heq : called = name
    · rw [← heq, hget]
      rfl
    · rw [if_neg heq]
      rfl
  | some info =>
    dsimp only
    by_cases heq : called = name
    · rw [← heq, Function.update_self, hget, if_pos rfl]
      rfl
    · rw [Function.update_of_ne (Ne.symm heq), if_neg heq]
      rfl

theorem map_foldl_countCall (calls : List String) (builtInTools : BuiltInTools) (name : String) :
    ((calls.foldl countCall builtInTools) name).map (·.callCount) =
      (builtInTools name).map fun info => info.callCount + calls.count name := by
  induction calls generalizing builtInTools with
  | nil => rfl
  | cons called calls ih =>
    rw [List.foldl_cons, ih, List.count_cons]
    have hone := map_countCall builtInTools called name
    have hbind : ∀ (o : Option BuildInToolInfo) (n : Nat), o.map (fun info => info.callCount + n) =
        (o.map (·.callCount)).map (· + n) := by
      intro o n
      rw [Option.map_map]
      rfl
    rw [hbind, hone, Option.map_map]
    cases builtInTools name with
    | none => rfl
    | some info =>
      simp only [Option.map_some, Function.comp, beq_iff_eq]
      congr 1
      omega

theorem map_genRelayInfoResponses (tools : List Tool) (name : String) :
    ((genRelayInfoResponses tools) name).map (·.callCount) = if name ∈ tools.map (·.type) then some 0 else none := by
  have hfold : ∀ builtInTools : BuiltInTools, ((tools.foldl declareTool builtInTools) name).map (·.callCount) =
      if name ∈ tools.map (·.type) then some 0 else (builtInTools name).map (·.callCount) := by
    induction tools with
    | nil => exact fun _ => rfl
    | cons tool tools ih =>
      intro builtInTools
      have hdeclare : ((declareTool builtInTools tool) name).map (·.callCount) =
          if name = tool.type then some 0 else (builtInTools name).map (·.callCount) := by
        unfold declareTool
        by_cases heq : name = tool.type
        · rw [heq, Function.update_self, if_pos rfl]
          rfl
        · rw [Function.update_of_ne heq, if_neg heq]
      rw [List.foldl_cons, ih, hdeclare, List.map_cons]
      by_cases heq : name = tool.type
      · have hmem : name ∈ tool.type :: tools.map (·.type) := List.mem_cons.2 (.inl heq)
        rw [if_pos heq, if_pos hmem, ite_self]
      · rw [if_neg heq]
        exact if_congr (by rw [List.mem_cons, or_iff_right heq]) rfl rfl
  exact hfold fun _ => none

theorem charged_webSearch (hzero : summary.webSearchCallCount = 0) :
    (calculateTextToolCallSurcharge prices quotaPerUnit ctx (some builtInTools) summary).1.webSearchCallCount =
      callCountOf builtInTools buildInToolWebSearchPreview := by
  have hweb : (addWebSearch prices (some builtInTools) summary).webSearchCallCount =
      callCountOf builtInTools buildInToolWebSearchPreview := by
    unfold addWebSearch callCountOf
    dsimp only
    cases builtInTools buildInToolWebSearchPreview with
    | none => exact hzero
    | some info =>
      dsimp only
      split
      · rfl
      next hnot => exact hzero.trans (Nat.le_zero.1 (Nat.le_of_not_lt hnot)).symm
  rw [← hweb]
  unfold calculateTextToolCallSurcharge addImageGeneration addFileSearch
  dsimp only
  split
  · split
    · split
      · rfl
      · rfl
    · rfl
  · split
    · split
      · rfl
      · rfl
    · rfl

theorem charged_fileSearch (hzero : summary.fileSearchCallCount = 0) :
    (calculateTextToolCallSurcharge prices quotaPerUnit ctx (some builtInTools) summary).1.fileSearchCallCount =
      callCountOf builtInTools buildInToolFileSearch := by
  have hbefore : (addClaudeWebSearch prices ctx (addWebSearch prices (some builtInTools) summary)).fileSearchCallCount =
      0 := by
    unfold addClaudeWebSearch addWebSearch
    dsimp only
    split
    · split
      · exact hzero
      · exact hzero
    · exact hzero
  have hfile : (addFileSearch prices (some builtInTools)
      (addClaudeWebSearch prices ctx (addWebSearch prices (some builtInTools) summary))).fileSearchCallCount =
      callCountOf builtInTools buildInToolFileSearch := by
    unfold addFileSearch callCountOf
    rw [Option.bind_some]
    cases builtInTools buildInToolFileSearch with
    | none => exact hbefore
    | some info =>
      dsimp only
      split
      · rfl
      next hnot => exact hbefore.trans (Nat.le_zero.1 (Nat.le_of_not_lt hnot)).symm
  rw [← hfile]
  unfold calculateTextToolCallSurcharge addImageGeneration
  dsimp only
  split
  · rfl
  · rfl

theorem callCountOf_calls (tools : List Tool) (calls : List String) (name : String) :
    callCountOf (calls.foldl countCall (genRelayInfoResponses tools)) name =
      if name ∈ tools.map (·.type) then calls.count name else 0 := by
  unfold callCountOf
  rw [map_foldl_countCall]
  have hgen := map_genRelayInfoResponses tools name
  cases hget : genRelayInfoResponses tools name with
  | none =>
    rw [hget] at hgen
    split
    next hmem => rw [if_pos hmem] at hgen; cases hgen
    next => rfl
  | some info =>
    rw [hget] at hgen
    split
    next hmem =>
      rw [if_pos hmem] at hgen
      have hzero : info.callCount = 0 := Option.some.inj hgen
      rw [Option.map_some, Option.getD_some, hzero, Nat.zero_add]
    next hmem => rw [if_neg hmem] at hgen; cases hgen

theorem streamEvent_done {st : StreamState} {event : Event} (h : event.type = "response.output_item.done") :
    streamEvent st event =
      match event.item with
      | none => st
      | some item =>
        if item.type = buildInCallWebSearchCall then
          { st with
            responsesUsageInfo := st.responsesUsageInfo.map fun builtInTools =>
              countCall builtInTools buildInToolWebSearchPreview }
        else st := by
  unfold streamEvent
  split
  next heq => exact absurd (heq.symm.trans h) (by decide)
  next heq => exact absurd (heq.symm.trans h) (by decide)
  next => rfl
  next hne => exact absurd h hne

theorem foldl_streamEvent (events : List Event) (st : StreamState) :
    (events.foldl streamEvent st).responsesUsageInfo = st.responsesUsageInfo.map fun builtInTools =>
      (((doneItems events).filter fun item => item.type = "web_search_call").map fun _ =>
        buildInToolWebSearchPreview).foldl countCall builtInTools := by
  induction events generalizing st with
  | nil => exact Option.map_id'.symm
  | cons event events ih =>
    rw [List.foldl_cons, ih]
    unfold doneItems
    by_cases hdone : event.type = "response.output_item.done"
    · rw [List.filter_cons_of_pos (by simpa using hdone)]
      rw [streamEvent_done hdone]
      cases hitem : event.item with
      | none =>
        rw [List.filterMap_cons_none hitem]
      | some item =>
        rw [List.filterMap_cons_some hitem]
        dsimp only
        by_cases hsearch : item.type = "web_search_call"
        · rw [if_pos (show item.type = buildInCallWebSearchCall from hsearch),
            List.filter_cons_of_pos (by simpa using hsearch), Option.map_map]
          rfl
        · rw [if_neg (show ¬ item.type = buildInCallWebSearchCall from hsearch),
            List.filter_cons_of_neg (by simpa using hsearch)]
    · rw [List.filter_cons_of_neg (by simpa using hdone)]
      have hkeep : (streamEvent st event).responsesUsageInfo = st.responsesUsageInfo := by
        unfold streamEvent
        split
        · split
          · rfl
          · rfl
        · rfl
        next heq => exact absurd heq hdone
        · rfl
      rw [hkeep]

/-- The calls of a response are billed as made: whole, just where the request's tools are as many in the response as their
calls; streamed, just where there are no file searches, and no web searches or the preview tool is declared. -/
theorem tool_calls_billed_iff (prices : ToolPrices) (quotaPerUnit : ℚ) (modelName : String) (groupRatio : ℚ)
    (countTextToken : String → Int) (estimatePromptTokens : Int) (tools : List Tool) (resp : OpenAIResponsesResponse)
    (events : List Event) (herror : resp.errorType = "") (hstream : Streams resp events) :
    ((∃ handled, oaiResponsesHandler (some (genRelayInfoResponses tools)) resp = .ok handled ∧
        BilledAsMade prices quotaPerUnit { modelName, groupRatio } resp handled) ↔
      toolsRepeated tools resp "web_search_preview" = callsMade resp "web_search_call" ∧
        toolsRepeated tools resp "file_search" = callsMade resp "file_search_call") ∧
    (BilledAsMade prices quotaPerUnit { modelName, groupRatio } resp
        (oaiResponsesStreamHandler countTextToken estimatePromptTokens (some (genRelayInfoResponses tools)) events) ↔
      ("web_search_preview" ∈ tools.map (·.type) ∨ callsMade resp "web_search_call" = 0) ∧
        callsMade resp "file_search_call" = 0) := by
  constructor
  · unfold oaiResponsesHandler
    rw [if_neg (not_not.2 herror)]
    simp only [Except.ok.injEq, exists_eq_left']
    unfold BilledAsMade
    dsimp only
    rw [Option.map_some, charged_webSearch rfl, charged_fileSearch rfl, callCountOf_calls, callCountOf_calls]
    rfl
  · unfold oaiResponsesStreamHandler BilledAsMade
    dsimp only
    have hcount : ((doneItems events).filter fun item => item.type = "web_search_call").length =
        callsMade resp "web_search_call" := by
      rw [← List.countP_eq_length_filter]
      exact hstream.items.countP_eq _
    rw [foldl_streamEvent, Option.map_some, charged_webSearch rfl, charged_fileSearch rfl, callCountOf_calls,
      callCountOf_calls, List.map_const', List.count_replicate_self, hcount]
    have hfile : (List.replicate (callsMade resp "web_search_call") buildInToolWebSearchPreview).count
        buildInToolFileSearch = 0 :=
      List.count_eq_zero.2 fun hmem => absurd (List.eq_of_mem_replicate hmem) (by decide)
    rw [hfile, ite_self]
    refine and_congr ?_ eq_comm
    show (if "web_search_preview" ∈ tools.map (·.type) then _ else 0) = _ ↔ _
    split
    next hmem => exact iff_of_true rfl (.inl hmem)
    next hmem => exact ⟨fun h => .inr h.symm, fun h => (h.resolve_left hmem).symm⟩

end

/-! ## Two searches, and one file search -/

/-- A response with two web searches and a file search, to a request for both tools. -/
def searched : OpenAIResponsesResponse where
  output := [{ type := "web_search_call" }, { type := "web_search_call" }, { type := "file_search_call" }]
  tools := [{ type := "web_search_preview" }, { type := "file_search" }]

/-- Its stream. -/
def searchedEvents : List Event :=
  (searched.output.map fun item => { type := "response.output_item.done", item := some item }) ++
    [{ type := "response.completed", response := some searched }]

def someToolPrices : ToolPrices where
  getToolPriceForModel := fun tool _ => if tool = "web_search_preview" then 10 else 5 / 2
  getGPTImage1PriceOnceCall := fun _ _ => 167 / 1000

/-- Whole, one web search is charged, and streamed, no file search. -/
theorem searched_not_billed :
    Streams searched searchedEvents ∧
    (∃ handled, oaiResponsesHandler (some (genRelayInfoResponses searched.tools)) searched = .ok handled ∧
      ¬ BilledAsMade someToolPrices 500000 { modelName := "gpt-4.1", groupRatio := 1 } searched handled) ∧
    ¬ BilledAsMade someToolPrices 500000 { modelName := "gpt-4.1", groupRatio := 1 } searched
      (oaiResponsesStreamHandler (fun _ => 0) 0 (some (genRelayInfoResponses searched.tools)) searchedEvents) := by
  refine ⟨⟨.refl _, ⟨_, rfl, rfl, rfl⟩⟩, ⟨_, rfl, ?_⟩, ?_⟩
  · rintro ⟨hweb, -⟩
    exact absurd hweb (by decide)
  · rintro ⟨-, hfile⟩
    exact absurd hfile (by decide)

/-- A response with one web search, to a request for it. -/
def searchedOnce : OpenAIResponsesResponse where
  output := [{ type := "web_search_call" }]
  tools := [{ type := "web_search_preview" }]

def searchedOnceEvents : List Event :=
  [{ type := "response.output_item.done", item := some { type := "web_search_call" } },
    { type := "response.completed", response := some searchedOnce }]

theorem tool_calls_billed_searchedOnce :
    (∃ handled, oaiResponsesHandler (some (genRelayInfoResponses searchedOnce.tools)) searchedOnce = .ok handled ∧
      BilledAsMade someToolPrices 500000 { modelName := "gpt-4.1", groupRatio := 1 } searchedOnce handled) ∧
    BilledAsMade someToolPrices 500000 { modelName := "gpt-4.1", groupRatio := 1 } searchedOnce
      (oaiResponsesStreamHandler (fun _ => 0) 0 (some (genRelayInfoResponses searchedOnce.tools)) searchedOnceEvents) := by
  have hboth := tool_calls_billed_iff someToolPrices 500000 "gpt-4.1" 1 (fun _ => 0) 0 searchedOnce.tools searchedOnce
    searchedOnceEvents rfl ⟨.refl _, ⟨_, rfl, rfl, rfl⟩⟩
  exact ⟨hboth.1.2 (by decide), hboth.2.2 (by decide)⟩

end NewApi.ToolCalls

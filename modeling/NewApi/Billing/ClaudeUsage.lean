import NewApi.Billing.ToolCalls
import NewApi.Stream.ClaudeToOpenAI

/-!
# The usage of Claude's messages

The usage of a message is billed. Of a whole message `ClaudeHandler` takes it as it is, and `ClaudeStreamHandler` puts it
together from two events: `message_start` has the counts of the input, and `message_delta` those of the output and, maybe,
those of the input again, where zeros change nothing. The web searches are handed over in the context, for
`calculateTextToolCallSurcharge`, but only those of a whole message. So a message is billed alike, whole and streamed, just
where it has no web searches (`billed_alike_iff`).
-/

namespace NewApi.ClaudeBilling

open NewApi.ToolCalls (Context ToolPrices TextQuotaSummary calculateTextToolCallSurcharge)

/-! ## Usage -/

/-- `ClaudeUsage`, with its `server_tool_use.web_search_requests`. -/
structure ClaudeUsage extends Stream.ClaudeUsage where
  webSearchRequests : Option Int := none

/-- `GetCacheCreation5mTokens`. -/
def ClaudeUsage.getCacheCreation5mTokens (u : ClaudeUsage) : Int := (u.cacheCreation.map Prod.fst).getD 0

/-- `GetCacheCreation1hTokens`. -/
def ClaudeUsage.getCacheCreation1hTokens (u : ClaudeUsage) : Int := (u.cacheCreation.map Prod.snd).getD 0

/-- `Usage`, with where its counts come from. -/
structure Usage extends toCounts : Convert.Usage where
  usageSemantic : String := ""

def noUsage : Usage := { toCounts := ToolCalls.noUsage }

/-- `ClaudeResponse`: a whole message, or an event, with its usage, that of its `message`, and the type of its error. -/
structure ClaudeResponse extends ClaudeToOpenAI.ClaudeResponse where
  usage : Option ClaudeUsage := none
  messageUsage : Option ClaudeUsage := none
  errorType : String := ""

/-- `ClaudeResponseInfo`. -/
structure ClaudeResponseInfo where
  responseId : String := ""
  model : String
  responseText : String := ""
  usage : Usage := noUsage
  done : Bool := false

inductive HandlerError
  | claudeError (type : String)
  | invalidResponse

/-! ## Streams -/

/-- The usage after `message_start`. -/
def startUsage (u : ClaudeUsage) (usage : Usage) : Usage :=
  { usage with
    promptTokens := u.inputTokens
    usageSemantic := "anthropic"
    cachedTokens := u.cacheReadInputTokens
    cachedCreationTokens := u.cacheCreationInputTokens
    claudeCacheCreation5mTokens := u.getCacheCreation5mTokens
    claudeCacheCreation1hTokens := u.getCacheCreation1hTokens
    completionTokens := u.outputTokens }

/-- A count that is positive replaces the one there is. -/
def latest (new old : Int) : Int := if new > 0 then new else old

/-- The usage after `message_delta`. -/
def deltaUsage (u : ClaudeUsage) (usage : Usage) : Usage :=
  let promptTokens := latest u.inputTokens usage.promptTokens
  let completionTokens := latest u.outputTokens usage.completionTokens
  { usage with
    usageSemantic := "anthropic"
    promptTokens
    cachedTokens := latest u.cacheReadInputTokens usage.cachedTokens
    cachedCreationTokens := latest u.cacheCreationInputTokens usage.cachedCreationTokens
    claudeCacheCreation5mTokens := latest u.getCacheCreation5mTokens usage.claudeCacheCreation5mTokens
    claudeCacheCreation1hTokens := latest u.getCacheCreation1hTokens usage.claudeCacheCreation1hTokens
    completionTokens
    totalTokens := promptTokens + completionTokens }

/-- `FormatClaudeResponseInfo`. -/
def formatClaudeResponseInfo (event : ClaudeResponse) (info : ClaudeResponseInfo) : ClaudeResponseInfo :=
  match event.type with
  | "message_start" =>
    match event.message with
    | none => info
    | some message =>
      { info with
        responseId := message.id
        model := message.model
        usage := (event.messageUsage.map (startUsage · info.usage)).getD info.usage }
  | "content_block_delta" =>
    match event.delta with
    | none => info
    | some delta => { info with responseText := info.responseText ++ delta.getText ++ delta.thinking.getD "" }
  | "message_delta" =>
    { info with
      usage := (event.usage.map (deltaUsage · info.usage)).getD info.usage
      done := true }
  | _ => info

/-- The clients' formats that Claude's channels serve. -/
inductive RelayFormat
  | claude
  | openAI
deriving DecidableEq

/-- What the handler of a stream keeps: `ClaudeResponseInfo`, and the upstream's name of the model. -/
structure StreamState where
  claudeInfo : ClaudeResponseInfo
  upstreamModelName : String

section
variable (format : RelayFormat) (estimateTokenByModel : String → String → Int) (estimatePromptTokens : Int)

/-- `HandleStreamResponseData`, up to what it sends. -/
def handleStreamResponseData (st : StreamState) (event : ClaudeResponse) : Except HandlerError StreamState :=
  if event.errorType ≠ "" then .error (.claudeError event.errorType)
  else
    .ok
      { claudeInfo := formatClaudeResponseInfo event st.claudeInfo
        upstreamModelName :=
          if format = .claude ∧ event.type = "message_start" then
            (event.message.map (·.model)).getD st.upstreamModelName
          else st.upstreamModelName }

/-- `HandleStreamFinalResponse`: what is missing of the usage is estimated. -/
def handleStreamFinalResponse (st : StreamState) : Usage :=
  let usage := st.claudeInfo.usage
  let usage :=
    if usage.completionTokens = 0 ∨ ¬ st.claudeInfo.done then
      let fallback := estimateTokenByModel st.upstreamModelName st.claudeInfo.responseText
      let completionTokens :=
        if usage.completionTokens = 0 ∨ ¬ st.claudeInfo.done ∧ fallback > usage.completionTokens then fallback
        else usage.completionTokens
      let promptTokens := if usage.promptTokens = 0 then estimatePromptTokens else usage.promptTokens
      { usage with completionTokens, promptTokens, totalTokens := promptTokens + completionTokens }
    else usage
  { usage with usageSemantic := "anthropic" }

/-- `ClaudeStreamHandler`: the usage, and the context, which it does not write. -/
def claudeStreamHandler (model : String) (ctx : Context) (events : List ClaudeResponse) :
    Except HandlerError (Usage × Context) := do
  let st ← events.foldlM (handleStreamResponseData format) { claudeInfo := { model }, upstreamModelName := model }
  .ok (handleStreamFinalResponse estimateTokenByModel estimatePromptTokens st, ctx)

end

/-! ## Whole messages -/

/-- The usage of a whole message. -/
def messageUsage (u : ClaudeUsage) (usage : Usage) : Usage :=
  { usage with
    promptTokens := u.inputTokens
    completionTokens := u.outputTokens
    totalTokens := u.inputTokens + u.outputTokens
    usageSemantic := "anthropic"
    cachedTokens := u.cacheReadInputTokens
    cachedCreationTokens := u.cacheCreationInputTokens
    claudeCacheCreation5mTokens := u.getCacheCreation5mTokens
    claudeCacheCreation1hTokens := u.getCacheCreation1hTokens }

/-- `ClaudeHandler`. -/
def claudeHandler (ctx : Context) (resp : ClaudeResponse) : Except HandlerError (Usage × Context) :=
  if resp.errorType ≠ "" then .error (.claudeError resp.errorType)
  else if resp.type ≠ "message" then .error .invalidResponse
  else
    let webSearchRequests := ((resp.usage.bind (·.webSearchRequests)).filter (· > 0)).getD ctx.claudeWebSearchRequests
    .ok ((resp.usage.map (messageUsage · noUsage)).getD noUsage,
      { ctx with claudeWebSearchRequests := webSearchRequests })

/-! ## Billed alike -/

/-- A count of the input, which is repeated or omitted. -/
def Repeats (given whole : Int) : Prop := given = 0 ∨ given = whole

/-- A stream of a message with a usage: `message_start` has the counts of the input, and `message_delta` that of the output
and, maybe, those of the input. There may be pings anywhere. -/
structure Streams (u : ClaudeUsage) (events : List ClaudeResponse) : Prop where
  noError : ∀ event ∈ events, event.errorType = ""
  events_eq : ∃ (start : ClaudeResponse) (blocks : List ClaudeResponse) (delta stop : ClaudeResponse),
    (events.filter fun event => event.type ≠ "ping") = start :: blocks ++ [delta, stop] ∧
    (start.type = "message_start" ∧ start.message.isSome ∧ ∃ v ∈ start.messageUsage, v.inputTokens = u.inputTokens ∧
      v.cacheReadInputTokens = u.cacheReadInputTokens ∧ v.cacheCreationInputTokens = u.cacheCreationInputTokens ∧
      v.getCacheCreation5mTokens = u.getCacheCreation5mTokens ∧
      v.getCacheCreation1hTokens = u.getCacheCreation1hTokens) ∧
    (∀ event ∈ blocks,
      event.type = "content_block_start" ∨ event.type = "content_block_delta" ∨ event.type = "content_block_stop") ∧
    (delta.type = "message_delta" ∧ ∃ w ∈ delta.usage, w.outputTokens = u.outputTokens ∧
      Repeats w.inputTokens u.inputTokens ∧ Repeats w.cacheReadInputTokens u.cacheReadInputTokens ∧
      Repeats w.cacheCreationInputTokens u.cacheCreationInputTokens ∧
      Repeats w.getCacheCreation5mTokens u.getCacheCreation5mTokens ∧
      Repeats w.getCacheCreation1hTokens u.getCacheCreation1hTokens) ∧
    stop.type = "message_stop"

/-- The web searches that are charged. -/
def chargedWebSearches (prices : ToolPrices) (quotaPerUnit : ℚ) (summary : TextQuotaSummary) (ctx : Context) : Int :=
  (calculateTextToolCallSurcharge prices quotaPerUnit ctx none summary).1.claudeWebSearchCallCount

/-- Two handlers succeed with the same usage and the same web searches to charge. -/
def BilledAlike (prices : ToolPrices) (quotaPerUnit : ℚ) (summary : TextQuotaSummary)
    (streamed whole : Except HandlerError (Usage × Context)) : Prop :=
  ∃ r r', streamed = .ok r ∧ whole = .ok r' ∧ r.1 = r'.1 ∧
    chargedWebSearches prices quotaPerUnit summary r.2 = chargedWebSearches prices quotaPerUnit summary r'.2

section
variable {events : List ClaudeResponse} {event : ClaudeResponse} {u v w : ClaudeUsage}

theorem foldlM_handle (format : RelayFormat) (h : ∀ event ∈ events, event.errorType = "") (st : StreamState) :
    ∃ st', events.foldlM (handleStreamResponseData format) st = .ok st' ∧
      st'.claudeInfo = events.foldl (fun info event => formatClaudeResponseInfo event info) st.claudeInfo := by
  induction events generalizing st with
  | nil => exact ⟨st, rfl, rfl⟩
  | cons event events ih =>
    have hevent : handleStreamResponseData format st event = .ok
        { claudeInfo := formatClaudeResponseInfo event st.claudeInfo
          upstreamModelName :=
            if format = .claude ∧ event.type = "message_start" then
              (event.message.map (·.model)).getD st.upstreamModelName
            else st.upstreamModelName } := if_neg (not_not.2 (h event List.mem_cons_self))
    obtain ⟨st', hfold, hinfo⟩ := ih (fun e he => h e (List.mem_cons_of_mem _ he)) _
    refine ⟨st', ?_, ?_⟩
    · rw [List.foldlM_cons, hevent]
      exact hfold
    · exact hinfo

theorem format_usage (hstart : event.type ≠ "message_start") (hdelta : event.type ≠ "message_delta")
    (info : ClaudeResponseInfo) :
    (formatClaudeResponseInfo event info).usage = info.usage ∧
      (formatClaudeResponseInfo event info).done = info.done := by
  unfold formatClaudeResponseInfo
  split
  next heq => exact absurd heq hstart
  next =>
    split
    · exact ⟨rfl, rfl⟩
    · exact ⟨rfl, rfl⟩
  next heq => exact absurd heq hdelta
  next => exact ⟨rfl, rfl⟩

theorem foldl_format_usage (h : ∀ event ∈ events, event.type ≠ "message_start" ∧ event.type ≠ "message_delta")
    (info : ClaudeResponseInfo) :
    (events.foldl (fun info event => formatClaudeResponseInfo event info) info).usage = info.usage ∧
      (events.foldl (fun info event => formatClaudeResponseInfo event info) info).done = info.done := by
  induction events generalizing info with
  | nil => exact ⟨rfl, rfl⟩
  | cons event events ih =>
    obtain ⟨hstart, hdelta⟩ := h event List.mem_cons_self
    obtain ⟨husage, hdone⟩ := format_usage hstart hdelta info
    rw [List.foldl_cons, ← husage, ← hdone]
    exact ih (fun e he => h e (List.mem_cons_of_mem _ he)) _

theorem foldl_format_filter (info : ClaudeResponseInfo) :
    events.foldl (fun info event => formatClaudeResponseInfo event info) info =
      (events.filter fun event => event.type ≠ "ping").foldl
        (fun info event => formatClaudeResponseInfo event info) info := by
  induction events generalizing info with
  | nil => rfl
  | cons event events ih =>
    by_cases hping : event.type = "ping"
    · have hsame : formatClaudeResponseInfo event info = info := by
        unfold formatClaudeResponseInfo
        split
        next heq => exact absurd (heq.symm.trans hping) (by decide)
        next heq => exact absurd (heq.symm.trans hping) (by decide)
        next heq => exact absurd (heq.symm.trans hping) (by decide)
        next => rfl
      rw [List.filter_cons_of_neg (by simpa using hping), List.foldl_cons, hsame]
      exact ih info
    · rw [List.filter_cons_of_pos (by simpa using hping)]
      exact ih _

theorem format_start (htype : event.type = "message_start") (hmessage : event.message.isSome)
    (husage : event.messageUsage = some v) (info : ClaudeResponseInfo) :
    (formatClaudeResponseInfo event info).usage = startUsage v info.usage := by
  obtain ⟨message, hmessage⟩ := Option.isSome_iff_exists.1 hmessage
  unfold formatClaudeResponseInfo
  split
  next =>
    rw [hmessage, husage]
    rfl
  next heq => exact absurd (heq.symm.trans htype) (by decide)
  next heq => exact absurd (heq.symm.trans htype) (by decide)
  next hne _ _ => exact absurd htype hne

theorem format_delta (htype : event.type = "message_delta") (husage : event.usage = some w)
    (info : ClaudeResponseInfo) :
    (formatClaudeResponseInfo event info).usage = deltaUsage w info.usage ∧
      (formatClaudeResponseInfo event info).done = true := by
  unfold formatClaudeResponseInfo
  split
  next heq => exact absurd (heq.symm.trans htype) (by decide)
  next heq => exact absurd (heq.symm.trans htype) (by decide)
  next =>
    rw [husage]
    exact ⟨rfl, rfl⟩
  next hne => exact absurd htype hne

theorem stream_usage (h : Streams u events) (info : ClaudeResponseInfo) : ∃ v w : ClaudeUsage,
    (v.inputTokens = u.inputTokens ∧ v.cacheReadInputTokens = u.cacheReadInputTokens ∧
      v.cacheCreationInputTokens = u.cacheCreationInputTokens ∧
      v.getCacheCreation5mTokens = u.getCacheCreation5mTokens ∧
      v.getCacheCreation1hTokens = u.getCacheCreation1hTokens) ∧
    (w.outputTokens = u.outputTokens ∧ Repeats w.inputTokens u.inputTokens ∧
      Repeats w.cacheReadInputTokens u.cacheReadInputTokens ∧
      Repeats w.cacheCreationInputTokens u.cacheCreationInputTokens ∧
      Repeats w.getCacheCreation5mTokens u.getCacheCreation5mTokens ∧
      Repeats w.getCacheCreation1hTokens u.getCacheCreation1hTokens) ∧
    (events.foldl (fun info event => formatClaudeResponseInfo event info) info).usage =
      deltaUsage w (startUsage v info.usage) ∧
    (events.foldl (fun info event => formatClaudeResponseInfo event info) info).done = true := by
  obtain ⟨start, blocks, delta, stop, hevents, ⟨hstart, hmessage, v, hv, hcounts⟩, hblocks, ⟨hdelta, w, hw, hout⟩,
    hstop⟩ := h.events_eq
  refine ⟨v, w, hcounts, hout, ?_⟩
  rw [foldl_format_filter, hevents, List.cons_append, List.foldl_cons, List.foldl_append]
  set info₁ := formatClaudeResponseInfo start info with hinfo₁
  have husage₁ : info₁.usage = startUsage v info.usage := format_start hstart hmessage hv info
  have hkeep : ∀ event ∈ blocks, event.type ≠ "message_start" ∧ event.type ≠ "message_delta" := by
    intro event he
    rcases hblocks event he with ht | ht | ht
    all_goals
      rw [ht]
      decide
  obtain ⟨husage₂, -⟩ := foldl_format_usage hkeep info₁
  simp only [List.foldl_cons, List.foldl_nil]
  have hstop₁ : stop.type ≠ "message_start" := by rw [hstop]; decide
  have hstop₂ : stop.type ≠ "message_delta" := by rw [hstop]; decide
  set info₂ := blocks.foldl (fun info event => formatClaudeResponseInfo event info) info₁ with hinfo₂
  obtain ⟨husage₃, hdone₃⟩ := format_delta hdelta hw info₂
  obtain ⟨husage₄, hdone₄⟩ := format_usage hstop₁ hstop₂ (formatClaudeResponseInfo delta info₂)
  exact ⟨by rw [husage₄, husage₃, husage₂, husage₁], by rw [hdone₄, hdone₃]⟩

theorem latest_repeats {given whole : Int} (h : Repeats given whole) : latest given whole = whole := by
  unfold latest
  rcases h with rfl | rfl
  · exact if_neg (lt_irrefl 0)
  · exact ite_self _

theorem deltaUsage_eq (hcounts : v.inputTokens = u.inputTokens ∧ v.cacheReadInputTokens = u.cacheReadInputTokens ∧
      v.cacheCreationInputTokens = u.cacheCreationInputTokens ∧
      v.getCacheCreation5mTokens = u.getCacheCreation5mTokens ∧
      v.getCacheCreation1hTokens = u.getCacheCreation1hTokens)
    (hrepeats : w.outputTokens = u.outputTokens ∧ Repeats w.inputTokens u.inputTokens ∧
      Repeats w.cacheReadInputTokens u.cacheReadInputTokens ∧
      Repeats w.cacheCreationInputTokens u.cacheCreationInputTokens ∧
      Repeats w.getCacheCreation5mTokens u.getCacheCreation5mTokens ∧
      Repeats w.getCacheCreation1hTokens u.getCacheCreation1hTokens) (hout : 0 < u.outputTokens) :
    deltaUsage w (startUsage v noUsage) = messageUsage u noUsage := by
  obtain ⟨hinput, hread, hcreation, h5m, h1h⟩ := hcounts
  obtain ⟨houtput, hinput', hread', hcreation', h5m', h1h'⟩ := hrepeats
  have houtput' : latest w.outputTokens v.outputTokens = u.outputTokens := by
    unfold latest
    rw [houtput, if_pos hout]
  unfold deltaUsage startUsage messageUsage
  dsimp only
  rw [hinput, hread, hcreation, h5m, h1h, latest_repeats hinput', latest_repeats hread', latest_repeats hcreation',
    latest_repeats h5m', latest_repeats h1h', houtput']

theorem chargedWebSearches_eq (prices : ToolPrices) (quotaPerUnit : ℚ) (summary : TextQuotaSummary) (ctx : Context) :
    chargedWebSearches prices quotaPerUnit summary ctx = ctx.claudeWebSearchRequests := by
  unfold chargedWebSearches calculateTextToolCallSurcharge ToolCalls.addImageGeneration ToolCalls.addFileSearch
  dsimp only
  split
  · rfl
  · rfl

theorem billedAlike_ok (prices : ToolPrices) (quotaPerUnit : ℚ) (summary : TextQuotaSummary) (r r' : Usage × Context) :
    BilledAlike prices quotaPerUnit summary (.ok r) (.ok r') ↔
      r.1 = r'.1 ∧ r.2.claudeWebSearchRequests = r'.2.claudeWebSearchRequests := by
  constructor
  · rintro ⟨q, q', hq, hq', husage, hsearches⟩
    obtain rfl := Except.ok.inj hq
    obtain rfl := Except.ok.inj hq'
    rw [chargedWebSearches_eq, chargedWebSearches_eq] at hsearches
    exact ⟨husage, hsearches⟩
  · rintro ⟨husage, hsearches⟩
    refine ⟨r, r', rfl, rfl, husage, ?_⟩
    rw [chargedWebSearches_eq, chargedWebSearches_eq]
    exact hsearches

end

/-- A message with a usage is billed alike, whole and streamed, just where it has no web searches. -/
theorem billed_alike_iff (prices : ToolPrices) (quotaPerUnit : ℚ) (summary : TextQuotaSummary) (format : RelayFormat)
    (estimateTokenByModel : String → String → Int) (estimatePromptTokens : Int) (model : String) (u : ClaudeUsage)
    (message : ClaudeResponse) (events : List ClaudeResponse) (hout : 0 < u.outputTokens)
    (hmessage : message.type = "message" ∧ message.errorType = "" ∧ message.usage = some u) (h : Streams u events) :
    BilledAlike prices quotaPerUnit summary
        (claudeStreamHandler format estimateTokenByModel estimatePromptTokens model {} events) (claudeHandler {} message) ↔
      ∀ n ∈ u.webSearchRequests, n ≤ 0 := by
  obtain ⟨htype, herror, husage⟩ := hmessage
  obtain ⟨st, hfold, hinfo⟩ := foldlM_handle format h.noError
    { claudeInfo := { model }, upstreamModelName := model }
  obtain ⟨v, w, hcounts, hrepeats, husage', hdone⟩ := stream_usage h { model }
  have hst : st.claudeInfo.usage = messageUsage u noUsage := by
    rw [hinfo, husage']
    exact deltaUsage_eq hcounts hrepeats hout
  have hfinal : handleStreamFinalResponse estimateTokenByModel estimatePromptTokens st = messageUsage u noUsage := by
    unfold handleStreamFinalResponse
    rw [hst, hinfo, hdone]
    have hcomplete : ¬ ((messageUsage u noUsage).completionTokens = 0 ∨ ¬ true = true) := by
      rintro (hzero | hnot)
      · exact hout.ne' hzero
      · exact hnot rfl
    dsimp only
    rw [if_neg hcomplete]
    rfl
  have hstream : claudeStreamHandler format estimateTokenByModel estimatePromptTokens model {} events =
      .ok (messageUsage u noUsage, {}) := by
    unfold claudeStreamHandler
    rw [hfold, ← hfinal]
    rfl
  have hwhole : claudeHandler {} message = .ok (messageUsage u noUsage,
      { claudeWebSearchRequests := (u.webSearchRequests.filter (· > 0)).getD 0 }) := by
    unfold claudeHandler
    rw [if_neg (not_not.2 herror), if_neg (not_not.2 htype), husage]
    rfl
  rw [hstream, hwhole, billedAlike_ok, and_iff_right rfl]
  dsimp only
  cases u.webSearchRequests with
  | none => exact iff_of_true rfl fun n hn => (by cases hn)
  | some n =>
    rw [Option.filter_some]
    split
    next hpos =>
      have hpos : n > 0 := of_decide_eq_true hpos
      refine iff_of_false (fun heq => hpos.ne heq) fun hle => ?_
      exact absurd (hle n rfl) (not_le.2 hpos)
    next hnot =>
      have hnot : ¬ n > 0 := fun hpos => hnot (decide_eq_true hpos)
      refine iff_of_true rfl fun m hm => ?_
      obtain rfl := Option.some.inj hm
      exact not_lt.1 hnot

/-! ## A message with searches -/

/-- A usage with so many web searches. -/
def someUsage (webSearchRequests : Option Int) : ClaudeUsage :=
  { inputTokens := 10, outputTokens := 20, cacheCreationInputTokens := 3, cacheReadInputTokens := 5,
    cacheCreation := some (1, 2), webSearchRequests }

def someMessage (webSearchRequests : Option Int) : ClaudeResponse :=
  { type := "message", usage := some (someUsage webSearchRequests) }

/-- The stream of the message. `message_delta` omits the counts of the input. -/
def someEvents (webSearchRequests : Option Int) : List ClaudeResponse :=
  [{ type := "message_start", message := some { type := "message" },
     messageUsage := some { someUsage none with outputTokens := 1 } },
   { type := "ping" },
   { type := "content_block_start", index := some 0, contentBlock := some { type := "text", text := some "" } },
   { type := "content_block_delta", index := some 0, delta := some { type := "text_delta", text := some "Hi" } },
   { type := "content_block_stop", index := some 0 },
   { type := "message_delta", delta := some { stopReason := some "end_turn" },
     usage := some { inputTokens := 0, outputTokens := 20, cacheCreationInputTokens := 0, cacheReadInputTokens := 0,
                     cacheCreation := none, webSearchRequests } },
   { type := "message_stop" }]

theorem someEvents_streams (webSearchRequests : Option Int) :
    Streams (someUsage webSearchRequests) (someEvents webSearchRequests) := by
  constructor
  · intro event he
    simp only [someEvents, List.mem_cons, List.not_mem_nil, or_false] at he
    rcases he with rfl | rfl | rfl | rfl | rfl | rfl | rfl
    all_goals rfl
  · refine ⟨_, [_, _, _], _, _, rfl, ⟨rfl, rfl, _, rfl, rfl, rfl, rfl, rfl, rfl⟩, ?_,
      ⟨rfl, _, rfl, rfl, .inl rfl, .inl rfl, .inl rfl, .inl rfl, .inl rfl⟩, rfl⟩
    intro event he
    simp only [List.mem_cons, List.not_mem_nil, or_false] at he
    rcases he with rfl | rfl | rfl
    · exact .inl rfl
    · exact .inr (.inl rfl)
    · exact .inr (.inr rfl)

theorem billed_alike_some : BilledAlike ToolCalls.someToolPrices 500000 { modelName := "claude-sonnet-4", groupRatio := 1 }
    (claudeStreamHandler .claude (fun _ _ => 0) 0 "claude-sonnet-4" {} (someEvents none))
    (claudeHandler {} (someMessage none)) :=
  (billed_alike_iff ToolCalls.someToolPrices 500000 { modelName := "claude-sonnet-4", groupRatio := 1 } .claude
    (fun _ _ => 0) 0 "claude-sonnet-4" (someUsage none) (someMessage none) (someEvents none) (by decide)
    ⟨rfl, rfl, rfl⟩ (someEvents_streams none)).2 fun n hn => (by cases hn)

/-- Two web searches are charged whole, and none streamed. -/
theorem searches_not_billed :
    Streams (someUsage (some 2)) (someEvents (some 2)) ∧
    ¬ BilledAlike ToolCalls.someToolPrices 500000 { modelName := "claude-sonnet-4", groupRatio := 1 }
      (claudeStreamHandler .claude (fun _ _ => 0) 0 "claude-sonnet-4" {} (someEvents (some 2)))
      (claudeHandler {} (someMessage (some 2))) := by
  refine ⟨someEvents_streams _, ?_⟩
  rintro ⟨r, r', hr, hr', -, hsearches⟩
  obtain rfl := Except.ok.inj hr
  obtain rfl := Except.ok.inj hr'
  exact absurd hsearches (by decide)

end NewApi.ClaudeBilling

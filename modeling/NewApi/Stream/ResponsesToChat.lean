import NewApi.Convert.ResponsesToChat
import NewApi.Stream.ClaudeToOpenAI

/-!
# Streams of Responses for OpenAI's clients

`OaiResponsesToChatStreamHandler` converts the events of a Responses stream one by one, and a client puts the chunks
together. The calls are sent as they come, until there is a text.

The response as a whole is converted by `ResponsesResponseToChatCompletionsResponse`, which drops all calls where there is
a text. So the two agree on just the streams whose texts come in the order of the output, and where no call comes before
the first text (`responses_stream_agrees_iff`).
-/

namespace NewApi.ResponsesStream

open NewApi.Convert (Decoder Usage ResponsesOutput OpenAIResponsesResponse ResponsesUsage ResponsesStreamResponse
  ResponsesOutputContent convertUsage extractOutputTextFromResponses responsesResponseToChatCompletionsResponse)
open NewApi.ChatStream (Chunk Choice Delta ToolCallResponse RelayInfo StreamHead generateStartEmptyResponse
  generateStopResponse)
open NewApi.GeminiStream (streamChoices toolCallDeltas streamText)
open NewApi.ClaudeToOpenAI (Call streamCalls finishReasons assembleCall)

/-- `ResponsesStreamResponse`. -/
abbrev Event := ResponsesStreamResponse OpenAIResponsesResponse ResponsesOutput

/-! ## Tool calls -/

/-- The maps of the handler, by the ids of calls and of items, and how many calls have an index. -/
structure ToolCalls where
  toolCallIndexByID : String → Option Nat := fun _ => none
  toolCallCount : Nat := 0
  toolCallNameByID : String → String := fun _ => ""
  toolCallArgsByID : String → String := fun _ => ""
  toolCallNameSent : String → Bool := fun _ => false
  toolCallCanonicalIDByItemID : String → String := fun _ => ""

/-- A delta of a call, as the handler is to send it. -/
structure CallDelta where
  callID : String
  name : String
  argsDelta : String

/-- The delta as it is sent: with the index of the call, and with the name where that has not been sent. -/
def ToolCalls.emit (t : ToolCalls) (delta : CallDelta) : ToolCalls × ToolCallResponse :=
  let idx := (t.toolCallIndexByID delta.callID).getD t.toolCallCount
  let t :=
    if (t.toolCallIndexByID delta.callID).isSome then t
    else
      { t with
        toolCallIndexByID := Function.update t.toolCallIndexByID delta.callID (some idx)
        toolCallCount := t.toolCallCount + 1 }
  let t :=
    if delta.name ≠ "" then
      { t with toolCallNameByID := Function.update t.toolCallNameByID delta.callID delta.name }
    else t
  let name := if t.toolCallNameByID delta.callID ≠ "" then t.toolCallNameByID delta.callID else delta.name
  let sendsName := name ≠ "" ∧ t.toolCallNameSent delta.callID = false
  ({ t with
     toolCallNameSent :=
      if sendsName then Function.update t.toolCallNameSent delta.callID true else t.toolCallNameSent },
    { index := some (idx : Int)
      id := delta.callID
      type := some (.string "function")
      function := { name := if sendsName then name else "", arguments := delta.argsDelta } })

/-- What is noted of a function call that is added or done, and the delta that it gives. -/
def ToolCalls.noteItem (d : Decoder) (t : ToolCalls) (item : ResponsesOutput) : ToolCalls × CallDelta :=
  let itemID := GoString.trimSpace item.id
  let callID := if GoString.trimSpace item.callId = "" then itemID else GoString.trimSpace item.callId
  let t :=
    if itemID ≠ "" ∧ callID ≠ "" then
      { t with toolCallCanonicalIDByItemID := Function.update t.toolCallCanonicalIDByItemID itemID callID }
    else t
  let name := GoString.trimSpace item.name
  let t :=
    if name ≠ "" then { t with toolCallNameByID := Function.update t.toolCallNameByID callID name } else t
  let newArgs := item.argumentsString d
  let prevArgs := t.toolCallArgsByID callID
  let argsDelta :=
    if newArgs = "" then "" else if GoString.hasPrefix newArgs prevArgs then GoString.after newArgs prevArgs else newArgs
  let t :=
    if newArgs ≠ "" then { t with toolCallArgsByID := Function.update t.toolCallArgsByID callID newArgs } else t
  (t, { callID, name, argsDelta })

/-- The call that a delta of arguments belongs to. -/
def ToolCalls.callIDOf (t : ToolCalls) (itemID : String) : String :=
  if t.toolCallCanonicalIDByItemID itemID = "" then itemID else t.toolCallCanonicalIDByItemID itemID

/-- What is noted of a delta of arguments. -/
def ToolCalls.noteArgs (t : ToolCalls) (callID delta : String) : ToolCalls :=
  { t with
    toolCallArgsByID := Function.update t.toolCallArgsByID callID (t.toolCallArgsByID callID ++ delta) }

/-! ## The handler -/

/-- The variables of `OaiResponsesToChatStreamHandler`, and the chunks that have been sent. -/
structure StreamState where
  model : String
  createAt : Int
  usage : Usage := convertUsage none
  outputText : String := ""
  usageText : String := ""
  sentStart : Bool := false
  sentStop : Bool := false
  sawToolCall : Bool := false
  failed : Bool := false
  tools : ToolCalls := {}
  hasSentReasoningSummary : Bool := false
  needsReasoningSummarySeparator : Bool := false
  sent : List Chunk := []

/-- The usage, as a completed response tells it. -/
def updateUsage (usage : Usage) (u : ResponsesUsage) : Usage :=
  let usage :=
    if u.inputTokens ≠ 0 then { usage with promptTokens := u.inputTokens, inputTokens := u.inputTokens } else usage
  let usage :=
    if u.outputTokens ≠ 0 then { usage with completionTokens := u.outputTokens, outputTokens := u.outputTokens }
    else usage
  let usage :=
    { usage with
      totalTokens := if u.totalTokens ≠ 0 then u.totalTokens else usage.promptTokens + usage.completionTokens }
  let usage :=
    match u.inputTokensDetails with
    | some details =>
      { usage with
        cachedTokens := details.cachedTokens
        imageTokens := details.imageTokens
        audioTokens := details.audioTokens }
    | none => usage
  if u.reasoningTokens ≠ 0 then { usage with reasoningTokens := u.reasoningTokens } else usage

section
variable (id : String)

/-- A chunk with a choice. -/
def StreamState.chunk (st : StreamState) (choice : Choice) : Chunk :=
  StreamHead.chunk { id, createAt := st.createAt, model := st.model } choice

def sendStartIfNeeded (st : StreamState) : StreamState :=
  if st.sentStart then st
  else
    { st with
      sent := st.sent ++ [generateStartEmptyResponse { id, createAt := st.createAt, model := st.model }]
      sentStart := true }

def sendReasoningSummaryDelta (st : StreamState) (delta : String) : StreamState :=
  if delta = "" then st
  else
    let delta :=
      if ¬ st.needsReasoningSummarySeparator ∨ GoString.hasPrefix delta "\n\n" then delta
      else if GoString.hasPrefix delta "\n" then "\n" ++ delta
      else "\n\n" ++ delta
    let st := sendStartIfNeeded id { st with needsReasoningSummarySeparator := false }
    { st with
      usageText := st.usageText ++ delta
      sent := st.sent ++ [st.chunk id { delta := { reasoningContent := some delta } }]
      hasSentReasoningSummary := true }

def sendToolCallDelta (st : StreamState) (delta : CallDelta) : StreamState :=
  if delta.callID = "" then st
  -- text is preferred over tool calls
  else if st.outputText ≠ "" then st
  else
    let st := sendStartIfNeeded id st
    let emitted := st.tools.emit delta
    { st with
      tools := emitted.1
      sent := st.sent ++ [st.chunk id { delta := { toolCalls := some [emitted.2] } }]
      sawToolCall := true
      usageText := st.usageText ++ emitted.2.function.name ++ delta.argsDelta }

/-- The finish reason that a stream is stopped with. -/
def StreamState.finishReason (st : StreamState) : String :=
  if st.sawToolCall ∧ st.outputText = "" then "tool_calls" else "stop"

def sendStopIfNeeded (st : StreamState) : StreamState :=
  if st.sentStop then st
  else
    { st with
      sent := st.sent ++ [generateStopResponse { id, createAt := st.createAt, model := st.model } st.finishReason]
      sentStop := true }

/-- What a response of an event says of the model and the time. -/
def StreamState.readResponse (st : StreamState) (response : Option OpenAIResponsesResponse) : StreamState :=
  match response with
  | none => st
  | some response =>
    { st with
      model := if response.model ≠ "" then response.model else st.model
      createAt := if response.createdAt ≠ 0 then response.createdAt else st.createAt }

/-- A function call is added or done. -/
def outputItem (d : Decoder) (st : StreamState) (item : Option ResponsesOutput) : StreamState :=
  match item with
  | none => st
  | some item =>
    if item.type ≠ "function_call" then st
    else
      let noted := st.tools.noteItem d item
      sendToolCallDelta id { st with tools := noted.1 } noted.2

/-- The callback for an event. -/
def handleEvent (d : Decoder) (st : StreamState) (streamResp : Event) : StreamState :=
  if st.failed then st
  else
    match streamResp.type with
    | "response.created" => st.readResponse streamResp.response
    | "response.reasoning_summary_text.delta" => sendReasoningSummaryDelta id st streamResp.delta
    | "response.reasoning_summary_text.done" =>
      if st.hasSentReasoningSummary then { st with needsReasoningSummarySeparator := true } else st
    | "response.output_text.delta" =>
      let st := sendStartIfNeeded id st
      if streamResp.delta = "" then st
      else
        { st with
          outputText := st.outputText ++ streamResp.delta
          usageText := st.usageText ++ streamResp.delta
          sent := st.sent ++ [st.chunk id { delta := { content := some streamResp.delta } }] }
    | "response.output_item.added" => outputItem id d st streamResp.item
    | "response.output_item.done" => outputItem id d st streamResp.item
    | "response.function_call_arguments.delta" =>
      let callID := st.tools.callIDOf (GoString.trimSpace streamResp.itemId)
      if callID = "" then st
      else
        sendToolCallDelta id { st with tools := st.tools.noteArgs callID streamResp.delta }
          { callID, name := "", argsDelta := streamResp.delta }
    | "response.completed" =>
      let st := st.readResponse streamResp.response
      let st :=
        match streamResp.response.bind (·.usage) with
        | some u => { st with usage := updateUsage st.usage u }
        | none => st
      sendStopIfNeeded id (sendStartIfNeeded id st)
    | "response.error" => { st with failed := true }
    | "response.failed" => { st with failed := true }
    | _ => st

/-- `OaiResponsesToChatStreamHandler` for an OpenAI client: the chunks that are sent for the events, but for `[DONE]`, if
no event says that the response has failed. `responseText2Usage` estimates the usage of a text. -/
def oaiResponsesToChatStreamHandler (d : Decoder) (responseText2Usage : String → Usage) (info : RelayInfo)
    (createAt : Int) (events : List Event) : Option (List Chunk) :=
  let st := events.foldl (handleEvent id d) { model := info.upstreamModelName, createAt }
  if st.failed then none
  else
    let usage := if st.usage.totalTokens = 0 then responseText2Usage st.usageText else st.usage
    let st := sendStopIfNeeded id (sendStartIfNeeded id st)
    some (st.sent ++
      if info.shouldIncludeUsage then [{ st.chunk id {} with choices := [], usage := some usage }] else [])

end

/-! ## What a client sees -/

/-- The types of the events that stream an output item or end a response. -/
def outputTypes : List String :=
  ["response.output_text.delta", "response.output_item.added", "response.output_item.done",
    "response.function_call_arguments.delta", "response.completed", "response.error", "response.failed"]

/-- What the chunks say that have been sent, and what the handler decides by. -/
structure View where
  text : String := ""
  deltas : List ((Int × Option Int) × ToolCallResponse) := []
  reasons : List String := []
  outputText : String := ""
  tools : ToolCalls := {}
  sawToolCall : Bool := false
  sentStop : Bool := false
  failed : Bool := false

namespace View

variable (v : View)

def send (delta : CallDelta) : View :=
  if delta.callID = "" ∨ v.outputText ≠ "" then v
  else
    { v with
      tools := (v.tools.emit delta).1
      deltas := v.deltas ++ [((0, (v.tools.emit delta).2.index), (v.tools.emit delta).2)]
      sawToolCall := true }

def outputItem (d : Decoder) (item : Option ResponsesOutput) : View :=
  match item with
  | none => v
  | some item =>
    if item.type ≠ "function_call" then v
    else { v with tools := (v.tools.noteItem d item).1 }.send (v.tools.noteItem d item).2

def stop : View :=
  if v.sentStop then v
  else
    { v with
      reasons := v.reasons ++ [if v.sawToolCall ∧ v.outputText = "" then "tool_calls" else "stop"]
      sentStop := true }

/-- An event. -/
def step (d : Decoder) (event : Event) : View :=
  if v.failed then v
  else
    match event.type with
    | "response.output_text.delta" => { v with outputText := v.outputText ++ event.delta, text := v.text ++ event.delta }
    | "response.output_item.added" => v.outputItem d event.item
    | "response.output_item.done" => v.outputItem d event.item
    | "response.function_call_arguments.delta" =>
      let callID := v.tools.callIDOf (GoString.trimSpace event.itemId)
      if callID = "" then v
      else
        { v with tools := v.tools.noteArgs callID event.delta }.send { callID, name := "", argsDelta := event.delta }
    | "response.completed" => v.stop
    | "response.error" => { v with failed := true }
    | "response.failed" => { v with failed := true }
    | _ => v

/-! One lemma for each type of event. -/

section
variable {v : View} {d : Decoder} {event : Event}

theorem step_failed (hfailed : v.failed = true) : v.step d event = v := if_pos hfailed

theorem step_textDelta (h : event.type = "response.output_text.delta") (hfailed : v.failed = false) :
    v.step d event = { v with outputText := v.outputText ++ event.delta, text := v.text ++ event.delta } := by
  unfold step
  rw [hfailed, h]
  rfl

theorem step_item (h : event.type = "response.output_item.added" ∨ event.type = "response.output_item.done")
    (hfailed : v.failed = false) : v.step d event = v.outputItem d event.item := by
  unfold step
  rcases h with h | h
  all_goals
    rw [hfailed, h]
    rfl

theorem step_argumentsDelta (h : event.type = "response.function_call_arguments.delta") (hfailed : v.failed = false) :
    v.step d event =
      if v.tools.callIDOf (GoString.trimSpace event.itemId) = "" then v
      else
        { v with tools := v.tools.noteArgs (v.tools.callIDOf (GoString.trimSpace event.itemId)) event.delta }.send
          { callID := v.tools.callIDOf (GoString.trimSpace event.itemId), name := "", argsDelta := event.delta } := by
  unfold step
  rw [hfailed, h]
  rfl

theorem step_completed (h : event.type = "response.completed") (hfailed : v.failed = false) :
    v.step d event = v.stop := by
  unfold step
  rw [hfailed, h]
  rfl

theorem step_error (h : event.type = "response.error" ∨ event.type = "response.failed") (hfailed : v.failed = false) :
    v.step d event = { v with failed := true } := by
  unfold step
  rcases h with h | h
  all_goals
    rw [hfailed, h]
    rfl

theorem step_other (h : event.type ∉ outputTypes) : v.step d event = v := by
  unfold outputTypes at h
  simp only [List.mem_cons, List.not_mem_nil, or_false, not_or] at h
  obtain ⟨h₁, h₂, h₃, h₄, h₅, h₆, h₇⟩ := h
  unfold step
  split
  · rfl
  split
  · exact absurd ‹_› h₁
  · exact absurd ‹_› h₂
  · exact absurd ‹_› h₃
  · exact absurd ‹_› h₄
  · exact absurd ‹_› h₅
  · exact absurd ‹_› h₆
  · exact absurd ‹_› h₇
  · rfl

end

end View

def StreamState.view (st : StreamState) : View where
  text := streamText st.sent
  deltas := toolCallDeltas st.sent
  reasons := finishReasons st.sent
  outputText := st.outputText
  tools := st.tools
  sawToolCall := st.sawToolCall
  sentStop := st.sentStop
  failed := st.failed

section
variable {id : String} {d : Decoder} {st : StreamState}

variable {chunks : List Chunk} {head : StreamHead} {choice : Choice}

@[simp] theorem streamText_concat :
    streamText (chunks ++ [head.chunk choice]) = streamText chunks ++ choice.delta.getContentString := by
  unfold streamText streamChoices
  rw [List.flatMap_append, List.flatMap_singleton, List.map_append, String.join_append]
  simp [StreamHead.chunk]

@[simp] theorem toolCallDeltas_concat : toolCallDeltas (chunks ++ [head.chunk choice]) = toolCallDeltas chunks ++
    (choice.delta.toolCalls.getD []).map fun toolCall => ((choice.index, toolCall.index), toolCall) := by
  unfold toolCallDeltas streamChoices
  rw [List.flatMap_append, List.flatMap_append, List.flatMap_singleton]
  exact congrArg _ (List.flatMap_singleton ..)

@[simp] theorem finishReasons_concat :
    finishReasons (chunks ++ [head.chunk choice]) = finishReasons chunks ++ choice.finishReason.toList := by
  unfold finishReasons streamChoices
  rw [List.flatMap_append, List.flatMap_singleton, List.filterMap_append]
  cases hreason : choice.finishReason <;> simp [StreamHead.chunk, hreason]

theorem view_sendStartIfNeeded : (sendStartIfNeeded id st).view = st.view := by
  unfold sendStartIfNeeded
  split
  · rfl
  · simp [StreamState.view, generateStartEmptyResponse, Delta.getContentString]

theorem view_sendStopIfNeeded : (sendStopIfNeeded id st).view = st.view.stop := by
  unfold sendStopIfNeeded View.stop
  cases h : st.sentStop <;>
    simp [StreamState.view, StreamState.finishReason, generateStopResponse, Delta.getContentString, h]

theorem view_readResponse {response : Option OpenAIResponsesResponse} : (st.readResponse response).view = st.view := by
  cases response <;> rfl

theorem view_sendToolCallDelta {delta : CallDelta} : (sendToolCallDelta id st delta).view = st.view.send delta := by
  have hstart : (sendStartIfNeeded id st).view = st.view := view_sendStartIfNeeded
  unfold sendToolCallDelta View.send
  by_cases hid : delta.callID = ""
  · rw [if_pos hid, if_pos (.inl hid)]
  by_cases htext : st.outputText = ""
  · have hsend : ¬ (delta.callID = "" ∨ st.view.outputText ≠ "") := not_or.2 ⟨hid, not_not.2 htext⟩
    rw [if_neg hid, if_neg (not_not.2 htext), if_neg hsend, ← hstart]
    simp [StreamState.view, StreamState.chunk, Delta.getContentString]
  · rw [if_neg hid, if_pos htext, if_pos (.inr htext)]

theorem view_sendReasoningSummaryDelta {delta : String} : (sendReasoningSummaryDelta id st delta).view = st.view := by
  unfold sendReasoningSummaryDelta
  split
  · rfl
  · have hstart : (sendStartIfNeeded id { st with needsReasoningSummarySeparator := false }).view =
        ({ st with needsReasoningSummarySeparator := false } : StreamState).view := view_sendStartIfNeeded
    have hsame : st.view = ({ st with needsReasoningSummarySeparator := false } : StreamState).view := rfl
    rw [hsame, ← hstart]
    simp [StreamState.view, StreamState.chunk, Delta.getContentString]

theorem view_outputItem {item : Option ResponsesOutput} : (outputItem id d st item).view = st.view.outputItem d item := by
  unfold outputItem View.outputItem
  cases item with
  | none => rfl
  | some item =>
    dsimp only
    split
    · rfl
    · have htools : st.view.tools = st.tools := rfl
      rw [htools]
      generalize st.tools.noteItem d item = noted
      exact view_sendToolCallDelta

/-- A client sees what the view says. -/
theorem view_handleEvent (event : Event) : (handleEvent id d st event).view = st.view.step d event := by
  unfold handleEvent
  split
  next hfailed => exact (View.step_failed hfailed).symm
  next hfailed =>
  have hfailed : st.view.failed = false := Bool.eq_false_iff.2 hfailed
  split
  next h => rw [View.step_other (by rw [h]; decide), view_readResponse]
  next h => rw [View.step_other (by rw [h]; decide), view_sendReasoningSummaryDelta]
  next h =>
    rw [View.step_other (by rw [h]; decide)]
    split <;> rfl
  next h =>
    have hstart : (sendStartIfNeeded id st).view = st.view := view_sendStartIfNeeded
    rw [View.step_textDelta h hfailed, ← hstart]
    dsimp only
    split
    next hdelta =>
      rw [hdelta, String.append_empty, String.append_empty]
    next => simp [StreamState.view, StreamState.chunk, Delta.getContentString]
  next h => rw [View.step_item (.inl h) hfailed, view_outputItem]
  next h => rw [View.step_item (.inr h) hfailed, view_outputItem]
  next h =>
    rw [View.step_argumentsDelta h hfailed]
    dsimp only
    split
    next hcall => exact (if_pos hcall).symm
    next hcall =>
      rw [view_sendToolCallDelta]
      exact (if_neg hcall).symm
  next h =>
    rw [View.step_completed h hfailed]
    dsimp only
    rw [view_sendStopIfNeeded, view_sendStartIfNeeded]
    split <;> exact congrArg View.stop view_readResponse
  next h => rw [View.step_error (.inl h) hfailed]; rfl
  next h => rw [View.step_error (.inr h) hfailed]; rfl
  next h₁ h₂ h₃ h₄ h₅ h₆ h₇ h₈ h₉ h₁₀ =>
    refine (View.step_other ?_).symm
    unfold outputTypes
    simp only [List.mem_cons, List.not_mem_nil, or_false, not_or]
    exact ⟨h₄, h₅, h₆, h₇, h₈, h₉, h₁₀⟩

theorem view_foldl (events : List Event) :
    (events.foldl (handleEvent id d) st).view = events.foldl (·.step d ·) st.view := by
  induction events generalizing st with
  | nil => rfl
  | cons event events ih => rw [List.foldl_cons, List.foldl_cons, ih, view_handleEvent]

end

/-! ## Calls that are kept -/

/-- A delta of a call is noted: its arguments are behind those known, and nothing is sent yet. -/
structure Notes (tools tools' : ToolCalls) (delta : CallDelta) : Prop where
  index : tools'.toolCallIndexByID = tools.toolCallIndexByID
  count : tools'.toolCallCount = tools.toolCallCount
  name_sent : tools'.toolCallNameSent = tools.toolCallNameSent
  arguments : tools'.toolCallArgsByID = Function.update tools.toolCallArgsByID delta.callID
    (tools.toolCallArgsByID delta.callID ++ delta.argsDelta)

namespace ToolCalls

variable {t : ToolCalls} {delta : CallDelta}

theorem notes_noteArgs {callID args : String} : Notes t (t.noteArgs callID args) { callID, name := "", argsDelta := args } :=
  ⟨rfl, rfl, rfl, rfl⟩

/-- What is noted of an item: its ids, its name and its arguments, of which those not known yet are the delta. -/
theorem noteItem_eq {d : Decoder} {item : ResponsesOutput} {itemID callID name newArgs : String}
    (hitem : GoString.trimSpace item.id = itemID)
    (hcall : (if GoString.trimSpace item.callId = "" then GoString.trimSpace item.id else GoString.trimSpace item.callId) =
      callID)
    (hname : GoString.trimSpace item.name = name) (hargs : item.argumentsString d = newArgs) :
    t.noteItem d item =
      ({ t with
         toolCallCanonicalIDByItemID :=
          if itemID ≠ "" ∧ callID ≠ "" then Function.update t.toolCallCanonicalIDByItemID itemID callID
          else t.toolCallCanonicalIDByItemID
         toolCallNameByID :=
          if name ≠ "" then Function.update t.toolCallNameByID callID name else t.toolCallNameByID
         toolCallArgsByID :=
          if newArgs ≠ "" then Function.update t.toolCallArgsByID callID newArgs else t.toolCallArgsByID },
        { callID, name
          argsDelta :=
            if newArgs = "" then ""
            else if GoString.hasPrefix newArgs (t.toolCallArgsByID callID) then
              GoString.after newArgs (t.toolCallArgsByID callID)
            else newArgs }) := by
  unfold noteItem
  dsimp only
  rw [hcall, hitem, hname, hargs]
  split_ifs <;> rfl

theorem emit_of_none (hindex : t.toolCallIndexByID delta.callID = none) (hname : delta.name ≠ "")
    (hsent : t.toolCallNameSent delta.callID = false) :
    t.emit delta =
      ({ t with
         toolCallIndexByID := Function.update t.toolCallIndexByID delta.callID (some t.toolCallCount)
         toolCallCount := t.toolCallCount + 1
         toolCallNameByID := Function.update t.toolCallNameByID delta.callID delta.name
         toolCallNameSent := Function.update t.toolCallNameSent delta.callID true },
        { index := some (t.toolCallCount : Int)
          id := delta.callID
          type := some (.string "function")
          function := { name := delta.name, arguments := delta.argsDelta } }) := by
  unfold emit
  simp [hindex, hname, hsent]

theorem emit_of_some {i : Nat} (hindex : t.toolCallIndexByID delta.callID = some i)
    (hsent : t.toolCallNameSent delta.callID = true) :
    t.emit delta =
      ({ t with
         toolCallNameByID :=
          if delta.name ≠ "" then Function.update t.toolCallNameByID delta.callID delta.name else t.toolCallNameByID },
        { index := some (i : Int)
          id := delta.callID
          type := some (.string "function")
          function := { name := "", arguments := delta.argsDelta } }) := by
  unfold emit
  by_cases hname : delta.name = ""
  · simp [hindex, hname, hsent]
  · simp [hindex, hname, hsent]

end ToolCalls

/-- The calls that deltas are assembled to. -/
def assembled (deltas : List ((Int × Option Int) × ToolCallResponse)) : List Call :=
  (firstBy Prod.fst [] deltas).map (assembleCall deltas)

/-- More of the arguments of the call with an id. -/
def extendCall (callID args : String) (call : Call) : Call :=
  if call.id = callID then { call with arguments := call.arguments ++ args } else call

theorem id_extendCall {callID args : String} {call : Call} : (extendCall callID args call).id = call.id := by
  unfold extendCall
  split <;> rfl

theorem assembled_eq_nil_iff {deltas : List ((Int × Option Int) × ToolCallResponse)} : assembled deltas = [] ↔ deltas = [] := by
  unfold assembled
  rw [List.map_eq_nil_iff]
  constructor
  · intro hnil
    cases deltas with
    | nil => rfl
    | cons p deltas => cases hnil
  · rintro rfl
    rfl

theorem map_extendCall_empty {callID : String} {calls : List Call} : calls.map (extendCall callID "") = calls := by
  refine List.map_id'' (fun call => ?_) calls
  unfold extendCall
  rw [String.append_empty, ite_self]

section
variable {deltas : List ((Int × Option Int) × ToolCallResponse)} {p : (Int × Option Int) × ToolCallResponse}

theorem assembleCall_concat {first : (Int × Option Int) × ToolCallResponse} : assembleCall (deltas ++ [p]) first =
    { assembleCall deltas first with
      arguments := (assembleCall deltas first).arguments ++ if p.1 = first.1 then p.2.function.arguments else "" } := by
  unfold assembleCall
  rw [List.filter_append, List.map_append, String.join_append, List.filter_cons, List.filter_nil]
  by_cases h : p.1 = first.1 <;> simp [h]

theorem assembled_concat_first (hnew : ∀ q ∈ deltas, q.1 ≠ p.1) : assembled (deltas ++ [p]) =
    assembled deltas ++ [{ id := p.2.id, name := p.2.function.name, arguments := p.2.function.arguments }] := by
  have hfirst : firstBy Prod.fst (deltas.map Prod.fst ++ []) [p] = [p] := by
    rw [firstBy, if_neg, firstBy]
    rw [List.append_nil]
    intro hmem
    obtain ⟨q, hq, heq⟩ := List.mem_map.1 hmem
    exact hnew q hq heq
  unfold assembled
  rw [firstBy_append, hfirst, List.map_append]
  refine congrArg₂ _ (List.map_congr_left fun q hq => ?_) ?_
  · have hq := (of_mem_firstBy hq).1
    rw [assembleCall_concat, if_neg (hnew q hq).symm, String.append_empty]
  · have hnone : (deltas.filter (·.1 = p.1)) = [] := List.filter_eq_nil_iff.2 fun q hq h => hnew q hq (of_decide_eq_true h)
    rw [List.map_singleton, assembleCall_concat, if_pos rfl]
    unfold assembleCall
    rw [hnone]
    simp

theorem assembled_concat_next (hknown : ∃ q ∈ deltas, q.1 = p.1)
    (hids : ∀ q ∈ deltas, p.1 = q.1 ↔ q.2.id = p.2.id) :
    assembled (deltas ++ [p]) = (assembled deltas).map (extendCall p.2.id p.2.function.arguments) := by
  have hfirst : firstBy Prod.fst (deltas.map Prod.fst ++ []) [p] = [] := by
    refine firstBy_eq_nil fun a ha => ?_
    obtain rfl := List.mem_singleton.1 ha
    obtain ⟨q, hq, heq⟩ := hknown
    rw [List.append_nil, ← heq]
    exact List.mem_map_of_mem hq
  unfold assembled
  rw [firstBy_append, hfirst, List.append_nil, List.map_map]
  refine List.map_congr_left fun q hq => ?_
  have hq := (of_mem_firstBy hq).1
  rw [assembleCall_concat, Function.comp_apply]
  unfold extendCall
  by_cases h : p.1 = q.1
  · rw [if_pos h]
    exact (if_pos ((hids q hq).1 h)).symm
  · rw [if_neg h, String.append_empty]
    exact (if_neg fun hid => h ((hids q hq).2 hid)).symm

end

/-- The calls are those that a client has, and those that the handler knows. -/
structure Keeps (tools : ToolCalls) (deltas : List ((Int × Option Int) × ToolCallResponse)) (calls : List Call) : Prop where
  assembled : assembled deltas = calls
  keyed : ∀ p ∈ deltas, ∃ i, tools.toolCallIndexByID p.2.id = some i ∧ p.1 = (0, some (i : Int))
  known : ∀ callID, (tools.toolCallIndexByID callID).isSome ↔ ∃ call ∈ calls, call.id = callID
  lt_count : ∀ callID i, tools.toolCallIndexByID callID = some i → i < tools.toolCallCount
  index_inj : ∀ callID callID' i,
    tools.toolCallIndexByID callID = some i → tools.toolCallIndexByID callID' = some i → callID = callID'
  arguments : ∀ call ∈ calls, tools.toolCallArgsByID call.id = call.arguments
  no_arguments : ∀ callID, (∀ call ∈ calls, call.id ≠ callID) → tools.toolCallArgsByID callID = ""
  name_sent : ∀ callID, tools.toolCallNameSent callID = true ↔ ∃ call ∈ calls, call.id = callID

namespace Keeps

variable {tools : ToolCalls} {deltas : List ((Int × Option Int) × ToolCallResponse)} {calls : List Call}

theorem nil : Keeps {} [] [] where
  assembled := rfl
  keyed _ hp := absurd hp List.not_mem_nil
  known _ := by simp
  lt_count _ _ h := by cases h
  index_inj _ _ _ h := by cases h
  arguments _ hcall := absurd hcall List.not_mem_nil
  no_arguments _ _ := rfl
  name_sent _ := by simp

/-- The delta that is sent for a delta of a call. -/
def sentDelta (tools : ToolCalls) (delta : CallDelta) : (Int × Option Int) × ToolCallResponse :=
  ((0, (tools.emit delta).2.index), (tools.emit delta).2)

/-- A first delta adds a call. -/
theorem emit_first {tools' : ToolCalls} {delta : CallDelta} (h : Keeps tools deltas calls) (hnotes : Notes tools tools' delta)
    (hnew : ∀ call ∈ calls, call.id ≠ delta.callID) (hname : delta.name ≠ "") :
    Keeps (tools'.emit delta).1 (deltas ++ [sentDelta tools' delta])
      (calls ++ [{ id := delta.callID, name := delta.name, arguments := delta.argsDelta }]) := by
  have hunknown : ¬ ∃ call ∈ calls, call.id = delta.callID := fun ⟨call, hcall, hid⟩ => hnew call hcall hid
  have hindex : tools'.toolCallIndexByID delta.callID = none := by
    rw [hnotes.index, ← Option.not_isSome_iff_eq_none, h.known]
    exact hunknown
  have hsent : tools'.toolCallNameSent delta.callID = false := by
    rw [hnotes.name_sent, Bool.eq_false_iff, ne_eq, h.name_sent]
    exact hunknown
  unfold sentDelta
  rw [ToolCalls.emit_of_none hindex hname hsent]
  dsimp only
  rw [hnotes.index, hnotes.count, hnotes.name_sent, hnotes.arguments, h.no_arguments _ hnew, String.empty_append]
  have hindex : tools.toolCallIndexByID delta.callID = none := hnotes.index ▸ hindex
  have hlt : ∀ callID i, Function.update tools.toolCallIndexByID delta.callID (some tools.toolCallCount) callID = some i →
      callID = delta.callID ∧ i = tools.toolCallCount ∨
        callID ≠ delta.callID ∧ tools.toolCallIndexByID callID = some i ∧ i < tools.toolCallCount := by
    intro callID i hi
    by_cases hid : callID = delta.callID
    · rw [hid, Function.update_self] at hi
      exact .inl ⟨hid, (Option.some.inj hi).symm⟩
    · rw [Function.update_of_ne hid] at hi
      exact .inr ⟨hid, hi, h.lt_count _ _ hi⟩
  exact {
    assembled := by
      rw [assembled_concat_first, h.assembled]
      intro p hp heq
      obtain ⟨i, hi, hkey⟩ := h.keyed p hp
      have hcount := h.lt_count _ _ hi
      rw [hkey] at heq
      simp only [Prod.mk.injEq, Option.some.injEq, Nat.cast_inj, true_and] at heq
      omega
    keyed := by
      intro p hp
      rcases List.mem_append.1 hp with hp | hp
      · obtain ⟨i, hi, hkey⟩ := h.keyed p hp
        refine ⟨i, ?_, hkey⟩
        dsimp only
        rw [Function.update_of_ne, hi]
        intro hid
        rw [hid, hindex] at hi
        cases hi
      · obtain rfl := List.mem_singleton.1 hp
        exact ⟨tools.toolCallCount, Function.update_self .., rfl⟩
    known := by
      intro callID
      by_cases hid : callID = delta.callID
      · simp [hid]
      · simp [hid, Ne.symm hid, h.known]
    lt_count := by
      intro callID i hi
      rcases hlt _ _ hi with ⟨-, rfl⟩ | ⟨-, -, hi⟩
      · exact Nat.lt_succ_self _
      · exact Nat.lt_succ_of_lt hi
    index_inj := by
      intro callID callID' i hi hi'
      rcases hlt _ _ hi with ⟨rfl, hic⟩ | ⟨-, hi, hic⟩
      · rcases hlt _ _ hi' with ⟨rfl, -⟩ | ⟨-, -, hic'⟩
        · rfl
        · omega
      · rcases hlt _ _ hi' with ⟨-, hic'⟩ | ⟨-, hi', -⟩
        · omega
        · exact h.index_inj _ _ _ hi hi'
    arguments := by
      intro call hcall
      rcases List.mem_append.1 hcall with hcall | hcall
      · dsimp only
        rw [Function.update_of_ne (hnew call hcall)]
        exact h.arguments call hcall
      · obtain rfl := List.mem_singleton.1 hcall
        exact Function.update_self ..
    no_arguments := by
      intro callID hcallID
      rw [List.forall_mem_append, List.forall_mem_singleton] at hcallID
      dsimp only
      rw [Function.update_of_ne hcallID.2.symm]
      exact h.no_arguments _ hcallID.1
    name_sent := by
      intro callID
      by_cases hid : callID = delta.callID
      · simp [hid]
      · simp [hid, Ne.symm hid, h.name_sent] }

/-- Another delta extends the call. -/
theorem emit_next {tools' : ToolCalls} {delta : CallDelta} (h : Keeps tools deltas calls) (hnotes : Notes tools tools' delta)
    (hcall : ∃ call ∈ calls, call.id = delta.callID) :
    Keeps (tools'.emit delta).1 (deltas ++ [sentDelta tools' delta])
      (calls.map (extendCall delta.callID delta.argsDelta)) := by
  obtain ⟨i, hindex⟩ := Option.isSome_iff_exists.1 ((h.known _).2 hcall)
  have hsent : tools'.toolCallNameSent delta.callID = true := by
    rw [hnotes.name_sent, h.name_sent]
    exact hcall
  have hids : ∀ callID, (∃ call ∈ calls.map (extendCall delta.callID delta.argsDelta), call.id = callID) ↔
      ∃ call ∈ calls, call.id = callID := by
    intro callID
    simp [id_extendCall]
  unfold sentDelta
  rw [ToolCalls.emit_of_some (hnotes.index ▸ hindex) hsent]
  dsimp only
  rw [hnotes.index, hnotes.count, hnotes.name_sent, hnotes.arguments]
  exact {
    assembled := by
      rw [assembled_concat_next, h.assembled]
      · obtain ⟨call, hcall, hid⟩ := hcall
        rw [← h.assembled] at hcall
        obtain ⟨p, hp, rfl⟩ := List.mem_map.1 hcall
        have hp := (of_mem_firstBy hp).1
        obtain ⟨j, hj, hkey⟩ := h.keyed p hp
        refine ⟨p, hp, ?_⟩
        have hid : p.2.id = delta.callID := hid
        rw [hid, hindex] at hj
        rw [hkey, ← Option.some.inj hj]
      · intro p hp
        obtain ⟨j, hj, hkey⟩ := h.keyed p hp
        rw [hkey]
        simp only [Prod.mk.injEq, Option.some.injEq, Nat.cast_inj, true_and]
        constructor
        · rintro rfl
          exact h.index_inj _ _ _ hj hindex
        · intro hid
          rw [hid, hindex] at hj
          exact Option.some.inj hj
    keyed := by
      intro p hp
      rcases List.mem_append.1 hp with hp | hp
      · exact h.keyed p hp
      · obtain rfl := List.mem_singleton.1 hp
        exact ⟨i, hindex, rfl⟩
    known := fun callID => (h.known callID).trans (hids callID).symm
    lt_count := h.lt_count
    index_inj := h.index_inj
    arguments := by
      rw [List.forall_mem_map]
      intro call hcall
      dsimp only
      rw [id_extendCall]
      unfold extendCall
      by_cases hid : call.id = delta.callID
      · rw [if_pos hid, hid, Function.update_self, ← hid, h.arguments call hcall]
      · rw [if_neg hid, Function.update_of_ne hid, h.arguments call hcall]
    no_arguments := by
      intro callID hcallID
      rw [List.forall_mem_map] at hcallID
      simp only [id_extendCall] at hcallID
      dsimp only
      rw [Function.update_of_ne, h.no_arguments _ hcallID]
      rintro rfl
      obtain ⟨call, hcall, hid⟩ := hcall
      exact hcallID call hcall hid
    name_sent := fun callID => (h.name_sent callID).trans (hids callID).symm }

theorem emit_noteArgs {callID : String} (args : String) (h : Keeps tools deltas calls)
    (hcall : ∃ call ∈ calls, call.id = callID) :
    Keeps ((tools.noteArgs callID args).emit { callID, name := "", argsDelta := args }).1
      (deltas ++ [sentDelta (tools.noteArgs callID args) { callID, name := "", argsDelta := args }])
      (calls.map (extendCall callID args)) := h.emit_next ToolCalls.notes_noteArgs hcall

end Keeps

/-! ## Streams of a response -/

/-- `ArgumentsString` of a function call with these arguments. -/
def argumentsOf (d : Decoder) (arguments : String) : String :=
  ({ type := "function_call", arguments } : ResponsesOutput).argumentsString d

/-- A function call, and how it is streamed: the arguments that it is added with, the deltas of the others, and the id that
these refer to the item by. -/
structure CallStream (d : Decoder) where
  id : String
  callId : String
  name : String
  arguments : String
  start : String
  deltas : List String
  itemId : String
  named : GoString.trimSpace name ≠ ""
  identified : GoString.trimSpace id ≠ "" ∨ GoString.trimSpace callId ≠ ""
  referenced : itemId = id ∨ GoString.trimSpace itemId = ""
  complete : argumentsOf d arguments = argumentsOf d start ++ String.join deltas

namespace CallStream

variable {d : Decoder} (c : CallStream d)

/-- The id of the call, or that of the item where it has none. -/
def canonicalID : String := if GoString.trimSpace c.callId = "" then GoString.trimSpace c.id else GoString.trimSpace c.callId

/-- The item with arguments. -/
def item (arguments : String) : ResponsesOutput :=
  { type := "function_call", id := c.id, callId := c.callId, name := c.name, arguments }

theorem type_item {arguments : String} : (c.item arguments).type = "function_call" := rfl

def argumentsDelta (delta : String) : Event :=
  { type := "response.function_call_arguments.delta", delta, itemId := c.itemId }

def itemAdded : Event := { type := "response.output_item.added", item := some (c.item c.start) }

def itemDone : Event := { type := "response.output_item.done", item := some (c.item c.arguments) }

def events : List Event := c.itemAdded :: c.deltas.map c.argumentsDelta ++ [c.itemDone]

theorem type_argumentsDelta {delta : String} : (c.argumentsDelta delta).type ≠ "response.output_item.added" := by
  simp [argumentsDelta]

theorem type_itemDone : c.itemDone.type ≠ "response.output_item.added" := by
  simp [itemDone]

/-- The call that a client is to have. -/
def call (arguments : String) : Call := { id := c.canonicalID, name := GoString.trimSpace c.name, arguments }

theorem id_call {arguments : String} : (c.call arguments).id = c.canonicalID := by
  unfold call
  dsimp only

theorem extendCall_call {arguments args : String} :
    extendCall c.canonicalID args (c.call arguments) = c.call (arguments ++ args) := by
  unfold extendCall call
  dsimp only
  rw [if_pos rfl]

theorem extendCall_call_of_ne {callID arguments args : String} (h : c.canonicalID ≠ callID) :
    extendCall callID args (c.call arguments) = c.call arguments := by
  unfold extendCall
  rw [id_call, if_neg h]

end CallStream

/-- A message of the assistant, and how its texts are streamed. -/
structure MessageStream where
  id : String
  contents : List (List String)

namespace MessageStream

variable (m : MessageStream)

def item (content : List ResponsesOutputContent) : ResponsesOutput :=
  { type := "message", id := m.id, role := "assistant", content }

def textDelta (delta : String) : Event := { type := "response.output_text.delta", delta, itemId := m.id }

def contentItem : ResponsesOutput :=
  m.item (m.contents.map fun deltas => { type := "output_text", text := String.join deltas })

def events : List Event :=
  { type := "response.output_item.added", item := some (m.item []) } :: m.contents.flatten.map m.textDelta ++
    [{ type := "response.output_item.done", item := some m.contentItem }]

end MessageStream

/-- An output item, and how it is streamed. -/
inductive ItemStream (d : Decoder)
  | message (m : MessageStream)
  | functionCall (c : CallStream d)

namespace ItemStream

variable {d : Decoder}

def output : ItemStream d → ResponsesOutput
  | .message m => m.contentItem
  | .functionCall c => c.item c.arguments

def events : ItemStream d → List Event
  | .message m => m.events
  | .functionCall c => c.events

def call? : ItemStream d → Option (CallStream d)
  | .message _ => none
  | .functionCall c => some c

end ItemStream

/-- The events of the item at a place. -/
def eventsAt {d : Decoder} (items : List (ItemStream d)) (k : Nat) : List Event := ((items[k]?).map (·.events)).getD []

/-- The call at a place. -/
def callAt {d : Decoder} (items : List (ItemStream d)) (k : Nat) : Option (CallStream d) := (items[k]?).bind (·.call?)

/-- No two calls have an id in common, and no two of their items. -/
def Distinct {d : Decoder} (items : List (ItemStream d)) : Prop :=
  ∀ j k c c', callAt items j = some c → callAt items k = some c' → j ≠ k →
    c.canonicalID ≠ c'.canonicalID ∧ (GoString.trimSpace c.id ≠ "" → GoString.trimSpace c.id ≠ GoString.trimSpace c'.id)

/-- The events with a label. -/
def own (labelled : List (Nat × Event)) (k : Nat) : List Event := (labelled.filter (·.1 = k)).map (·.2)

/-- The labels of the events that add an item. -/
def added (labelled : List (Nat × Event)) : List Nat :=
  (labelled.filter (·.2.type = "response.output_item.added")).map (·.1)

/-- A completed response and its stream. The items are added in the order of the output and streamed side by side: each
event is labelled with the place of its item. Events of other types are anywhere. -/
structure ResponseStream (d : Decoder) where
  items : List (ItemStream d)
  distinct : Distinct items
  response : OpenAIResponsesResponse
  response_output : response.output = items.map (·.output)
  labelled : List (Nat × Event)
  own_eq : ∀ k, own labelled k = eventsAt items k
  added_eq : added labelled = List.range items.length
  events : List Event
  events_eq : (events.filter fun event => event.type ∈ outputTypes) =
    labelled.map (·.2) ++ [{ type := "response.completed", response := some response }]

/-- A text comes with the event. -/
def HasText (event : Event) : Prop := event.type = "response.output_text.delta" ∧ event.delta ≠ ""

instance (event : Event) : Decidable (HasText event) := inferInstanceAs (Decidable (_ ∧ _))

/-- The event adds a function call. -/
def AddsCall (event : Event) : Prop :=
  event.type = "response.output_item.added" ∧ event.item.map (·.type) = some "function_call"

/-! ## Agreement -/

/-- A client of the stream has what a client of the choice has: the content, the calls, each under an index, and the
finish reason. -/
structure Agrees (chunks : List Chunk) (choice : Convert.OpenAITextResponseChoice) : Prop where
  content : streamText chunks = choice.message.stringContent
  toolCalls : streamCalls chunks = choice.message.toolCalls.map fun toolCall =>
    { id := toolCall.id, name := toolCall.function.name, arguments := toolCall.function.arguments }
  indexed : ∀ p ∈ toolCallDeltas chunks, p.2.index.isSome
  finishReason : finishReasons chunks = [choice.finishReason]

/-- A stream is converted, and agrees with the one choice for its response. -/
def StreamAgrees (id : String) (d : Decoder) (responseText2Usage : String → Usage) (info : RelayInfo) (createAt : Int)
    (s : ResponseStream d) : Prop :=
  ∃ chunks r usage choice,
    oaiResponsesToChatStreamHandler id d responseText2Usage info createAt s.events = some chunks ∧
    responsesResponseToChatCompletionsResponse d (some s.response) id = .ok (r, usage) ∧ r.choices = [choice] ∧
    Agrees chunks choice

/-! ## What the events of a call tell -/

/-- The arguments that are known after an event of a call. -/
def tell (d : Decoder) (args : String) (event : Event) : String :=
  match event.item with
  | some item => if item.argumentsString d = "" then args else item.argumentsString d
  | none => if GoString.trimSpace event.itemId = "" then args else args ++ event.delta

/-- The arguments that are known after events of a call. -/
def told (d : Decoder) (events : List Event) : String := events.foldl (tell d) ""

theorem told_concat {d : Decoder} {es : List Event} {e : Event} : told d (es ++ [e]) = tell d (told d es) e := by
  unfold told
  rw [List.foldl_append, List.foldl_cons, List.foldl_nil]

namespace CallStream

variable {d : Decoder} {c : CallStream d}

theorem canonicalID_ne : c.canonicalID ≠ "" := by
  unfold canonicalID
  by_cases hcall : GoString.trimSpace c.callId = ""
  · rw [if_pos hcall]
    exact c.identified.resolve_right (not_not.2 hcall)
  · rw [if_neg hcall]
    exact hcall

theorem argumentsString_item {arguments : String} : (c.item arguments).argumentsString d = argumentsOf d arguments := by
  unfold argumentsOf ResponsesOutput.argumentsString item
  rfl

theorem told_added : told d [c.itemAdded] = argumentsOf d c.start := by
  unfold told
  rw [List.foldl_cons, List.foldl_nil]
  unfold tell itemAdded
  dsimp only
  rw [argumentsString_item]
  split
  next h => exact h.symm
  next => rfl

theorem told_deltas (deltas : List String) : told d (c.itemAdded :: deltas.map c.argumentsDelta) =
    argumentsOf d c.start ++ if GoString.trimSpace c.itemId = "" then "" else String.join deltas := by
  induction deltas using List.reverseRecOn with
  | nil => rw [List.map_nil, told_added, String.join_nil, ite_self, String.append_empty]
  | append_singleton deltas delta ih =>
    rw [List.map_append, ← List.cons_append]
    unfold told at ih ⊢
    rw [List.foldl_append, ih, List.map_singleton, List.foldl_cons, List.foldl_nil]
    unfold tell argumentsDelta
    dsimp only
    split
    next => rfl
    next => rw [String.join_append, String.join_cons, String.join_nil, String.append_empty, String.append_assoc]

theorem hasPrefix_told_deltas :
    GoString.hasPrefix (argumentsOf d c.arguments) (told d (c.itemAdded :: c.deltas.map c.argumentsDelta)) = true := by
  rw [told_deltas, c.complete]
  split
  · rw [String.append_empty]
    exact GoString.hasPrefix_append ..
  · rw [GoString.hasPrefix_iff]

theorem told_events : told d c.events = argumentsOf d c.arguments := by
  have hpre := hasPrefix_told_deltas (c := c)
  unfold told events at *
  rw [List.foldl_append, List.foldl_cons, List.foldl_nil]
  generalize List.foldl (tell d) "" (c.itemAdded :: c.deltas.map c.argumentsDelta) = args at *
  unfold tell itemDone
  dsimp only
  rw [argumentsString_item]
  split
  next hempty =>
    rw [hempty, GoString.hasPrefix_iff] at hpre
    rw [hempty]
    exact String.toList_inj.1 (List.prefix_nil.1 hpre)
  next => rfl

theorem next_cases {es : List Event} {e : Event} (h : es ++ [e] <+: c.events) :
    (es = [] ∧ e = c.itemAdded) ∨
      (∃ (deltas : List String) (delta : String),
        es = c.itemAdded :: deltas.map c.argumentsDelta ∧ e = c.argumentsDelta delta) ∨
      (es = c.itemAdded :: c.deltas.map c.argumentsDelta ∧ e = c.itemDone) := by
  obtain ⟨rest, hrest⟩ := h
  unfold events at hrest
  cases es with
  | nil => exact .inl ⟨rfl, (List.cons.inj hrest).1⟩
  | cons a es =>
    obtain ⟨rfl, hrest⟩ := List.cons.inj hrest
    refine .inr ?_
    rcases List.eq_nil_or_concat' rest with rfl | ⟨rest, z, rfl⟩
    · rw [List.append_nil] at hrest
      obtain ⟨hes, he⟩ := List.append_inj' hrest rfl
      exact .inr ⟨hes, (List.cons.inj he).1⟩
    · rw [← List.append_assoc] at hrest
      obtain ⟨hdeltas, -⟩ := List.append_inj' hrest rfl
      have htail : es ++ [e] ++ rest = c.deltas.map c.argumentsDelta := (List.cons.inj hdeltas).2
      obtain ⟨k, l, -, hk, -⟩ := List.map_eq_append_iff.1 htail.symm
      obtain ⟨ps, qs, -, rfl, hqs⟩ := List.map_eq_append_iff.1 hk
      obtain ⟨p, rfl, rfl⟩ := List.map_eq_singleton_iff.1 hqs
      exact .inl ⟨ps, p, rfl, rfl⟩

end CallStream

/-! ## Streams of calls -/

namespace View

variable {d : Decoder} {c : CallStream d} {t : ToolCalls} {v : View} {delta : CallDelta}

theorem send_eq (hid : delta.callID ≠ "") (htext : v.outputText = "") : v.send delta =
    { v with
      tools := (v.tools.emit delta).1
      deltas := v.deltas ++ [Keeps.sentDelta v.tools delta]
      sawToolCall := true } := by
  unfold send
  rw [if_neg (not_or.2 ⟨hid, not_not.2 htext⟩)]
  rfl

theorem canonical_emit : (t.emit delta).1.toolCallCanonicalIDByItemID = t.toolCallCanonicalIDByItemID := by
  unfold ToolCalls.emit
  split <;> split <;> rfl

theorem noteItem_item (d : Decoder) (c : CallStream d) (t : ToolCalls) (arguments : String) :
    t.noteItem d (c.item arguments) =
      ({ t with
         toolCallCanonicalIDByItemID :=
          if GoString.trimSpace c.id ≠ "" ∧ c.canonicalID ≠ "" then
            Function.update t.toolCallCanonicalIDByItemID (GoString.trimSpace c.id) c.canonicalID
          else t.toolCallCanonicalIDByItemID
         toolCallNameByID := Function.update t.toolCallNameByID c.canonicalID (GoString.trimSpace c.name)
         toolCallArgsByID :=
          if argumentsOf d arguments ≠ "" then
            Function.update t.toolCallArgsByID c.canonicalID (argumentsOf d arguments)
          else t.toolCallArgsByID },
        { callID := c.canonicalID
          name := GoString.trimSpace c.name
          argsDelta :=
            if argumentsOf d arguments = "" then ""
            else if GoString.hasPrefix (argumentsOf d arguments) (t.toolCallArgsByID c.canonicalID) then
              GoString.after (argumentsOf d arguments) (t.toolCallArgsByID c.canonicalID)
            else argumentsOf d arguments }) := by
  rw [ToolCalls.noteItem_eq rfl rfl rfl c.argumentsString_item]
  have hnamed : GoString.trimSpace (c.item arguments).name ≠ "" := c.named
  rw [if_pos hnamed]
  rfl

theorem canonical_noteItem (arguments itemID : String) :
    (t.noteItem d (c.item arguments)).1.toolCallCanonicalIDByItemID itemID =
      if itemID = GoString.trimSpace c.id ∧ GoString.trimSpace c.id ≠ "" then c.canonicalID
      else t.toolCallCanonicalIDByItemID itemID := by
  rw [noteItem_item]
  dsimp only
  by_cases hitem : GoString.trimSpace c.id = ""
  · rw [if_neg fun h => h.1 hitem, if_neg fun h => h.2 hitem]
  · rw [if_pos ⟨hitem, c.canonicalID_ne⟩, Function.update_apply]
    exact if_congr (and_iff_left hitem).symm rfl rfl

theorem tell_noteItem {arguments : String} {event : Event} (hitem : event.item = some (c.item arguments))
    (hpre : GoString.hasPrefix (argumentsOf d arguments) (t.toolCallArgsByID c.canonicalID) = true) :
    tell d (t.toolCallArgsByID c.canonicalID) event =
      t.toolCallArgsByID c.canonicalID ++ (t.noteItem d (c.item arguments)).2.argsDelta := by
  unfold tell
  rw [hitem, noteItem_item]
  dsimp only
  rw [CallStream.argumentsString_item]
  by_cases hempty : argumentsOf d arguments = ""
  · rw [if_pos hempty, if_pos hempty, String.append_empty]
  · rw [if_neg hempty, if_neg hempty, if_pos hpre, GoString.append_after hpre]

theorem notes_noteItem {arguments : String}
    (hpre : GoString.hasPrefix (argumentsOf d arguments) (t.toolCallArgsByID c.canonicalID) = true) :
    Notes t (t.noteItem d (c.item arguments)).1 (t.noteItem d (c.item arguments)).2 := by
  rw [noteItem_item]
  refine ⟨rfl, rfl, rfl, ?_⟩
  dsimp only
  by_cases hempty : argumentsOf d arguments = ""
  · rw [if_neg (not_not.2 hempty), if_pos hempty, String.append_empty, Function.update_eq_self]
  · rw [if_pos hempty, if_neg hempty, if_pos hpre, GoString.append_after hpre]

end View

/-! ## Events that are told apart -/

section
variable {labelled : List (Nat × Event)} {j k : Nat} {e : Event}

theorem own_concat_self : own (labelled ++ [(k, e)]) k = own labelled k ++ [e] := by
  simp [own]

theorem own_concat_ne (h : j ≠ k) : own (labelled ++ [(k, e)]) j = own labelled j := by
  simp [own, h.symm]

theorem added_concat_of_eq (h : e.type = "response.output_item.added") :
    added (labelled ++ [(k, e)]) = added labelled ++ [k] := by
  simp [added, h]

theorem added_concat_of_ne (h : e.type ≠ "response.output_item.added") :
    added (labelled ++ [(k, e)]) = added labelled := by
  simp [added, h]

theorem own_ne_nil (h : k ∈ added labelled) : own labelled k ≠ [] := by
  obtain ⟨p, hp, rfl⟩ := List.mem_map.1 h
  have hown : p.2 ∈ own labelled p.1 :=
    List.mem_map_of_mem (List.mem_filter.2 ⟨(List.mem_filter.1 hp).1, decide_eq_true rfl⟩)
  exact List.ne_nil_of_mem hown

theorem mem_added (h : e ∈ own labelled k) (htype : e.type = "response.output_item.added") : k ∈ added labelled := by
  obtain ⟨p, hp, rfl⟩ := List.mem_map.1 h
  obtain ⟨hp, hk⟩ := List.mem_filter.1 hp
  rw [← of_decide_eq_true hk]
  exact List.mem_map_of_mem (List.mem_filter.2 ⟨hp, decide_eq_true htype⟩)

end

/-- The calls that have been added, with the arguments that are known. -/
def callsOf {d : Decoder} (items : List (ItemStream d)) (labelled : List (Nat × Event)) : List Call :=
  (added labelled).filterMap fun k => (callAt items k).map fun c => c.call (told d (own labelled k))

section
variable {d : Decoder} {items : List (ItemStream d)} {labelled : List (Nat × Event)} {k : Nat} {e : Event}
  {c : CallStream d}

theorem mem_callsOf {call : Call} : call ∈ callsOf items labelled ↔
    ∃ k ∈ added labelled, ∃ c, callAt items k = some c ∧ c.call (told d (own labelled k)) = call := by
  unfold callsOf
  simp only [List.mem_filterMap, Option.map_eq_some_iff]

theorem filterMap_calls_concat (hother : ∀ j ∈ added labelled, j = k → callAt items j = none) :
    ((added labelled).filterMap fun j => (callAt items j).map fun c => c.call (told d (own (labelled ++ [(k, e)]) j))) =
      callsOf items labelled := by
  unfold callsOf
  refine List.filterMap_congr fun j hj => ?_
  by_cases hjk : j = k
  · rw [hother j hj hjk]
    rfl
  · rw [own_concat_ne hjk]

theorem callsOf_message (hnone : callAt items k = none) : callsOf items (labelled ++ [(k, e)]) = callsOf items labelled := by
  have hcalls : _ = callsOf items labelled := filterMap_calls_concat (k := k) (e := e) fun j _ hjk => hjk ▸ hnone
  rw [← hcalls]
  unfold callsOf
  by_cases htype : e.type = "response.output_item.added"
  · rw [added_concat_of_eq htype, List.filterMap_append, List.filterMap_cons_none (by rw [hnone]; rfl), List.filterMap_nil,
      List.append_nil]
  · rw [added_concat_of_ne htype]

theorem callsOf_added (hc : callAt items k = some c) (hown : own labelled k = []) :
    callsOf items (labelled ++ [(k, c.itemAdded)]) = callsOf items labelled ++ [c.call (told d [c.itemAdded])] := by
  have hcalls : _ = callsOf items labelled :=
    filterMap_calls_concat (k := k) (e := c.itemAdded) fun j hj hjk => absurd hown (hjk ▸ own_ne_nil hj)
  rw [← hcalls]
  unfold callsOf
  rw [added_concat_of_eq rfl, List.filterMap_append, List.filterMap_cons_some, List.filterMap_nil]
  rw [hc, own_concat_self, hown]
  rfl

theorem callsOf_next (hdistinct : Distinct items) (hc : callAt items k = some c)
    (htype : e.type ≠ "response.output_item.added") {args : String}
    (hargs : told d (own labelled k ++ [e]) = told d (own labelled k) ++ args) :
    callsOf items (labelled ++ [(k, e)]) = (callsOf items labelled).map (extendCall c.canonicalID args) := by
  unfold callsOf
  rw [added_concat_of_ne htype, List.map_filterMap]
  refine List.filterMap_congr fun j hj => ?_
  by_cases hjk : j = k
  · rw [hjk, hc, own_concat_self, hargs, Option.map_some, Option.map_some, Option.map_some, c.extendCall_call]
  · rw [own_concat_ne hjk]
    cases hj : callAt items j with
    | none => rfl
    | some c' =>
      rw [Option.map_some, Option.map_some, c'.extendCall_call_of_ne (hdistinct j k c' c hj hc hjk).1]

end

/-- What is known after events without a text. -/
structure Reached {d : Decoder} (items : List (ItemStream d)) (labelled : List (Nat × Event)) (v : View) : Prop where
  keeps : Keeps v.tools v.deltas (callsOf items labelled)
  canonical : ∀ k c, callAt items k = some c → own labelled k ≠ [] → GoString.trimSpace c.id ≠ "" →
    v.tools.toolCallCanonicalIDByItemID (GoString.trimSpace c.id) = c.canonicalID
  no_canonical : v.tools.toolCallCanonicalIDByItemID "" = ""
  saw_call : v.sawToolCall = true ↔ v.deltas ≠ []
  indexed : ∀ p ∈ v.deltas, p.2.index.isSome
  text : v.text = ""
  output_text : v.outputText = ""
  reasons : v.reasons = []
  not_stopped : v.sentStop = false
  not_failed : v.failed = false

namespace Reached

variable {d : Decoder} {items : List (ItemStream d)} {labelled : List (Nat × Event)} {v : View} {k : Nat} {e : Event}
  {c : CallStream d}

theorem nil : Reached items [] {} where
  keeps := Keeps.nil
  canonical _ _ _ h := absurd rfl h
  no_canonical := rfl
  saw_call := by simp
  indexed _ hp := absurd hp List.not_mem_nil
  text := rfl
  output_text := rfl
  reasons := rfl
  not_stopped := rfl
  not_failed := rfl

theorem arguments (h : Reached items labelled v) (hdistinct : Distinct items) (hc : callAt items k = some c)
    (hstart : own labelled k = [] ∨ ∃ es, own labelled k = c.itemAdded :: es) :
    v.tools.toolCallArgsByID c.canonicalID = told d (own labelled k) := by
  rcases hstart with hnil | ⟨es, hes⟩
  · rw [hnil]
    refine h.keeps.no_arguments _ fun call hcall hid => ?_
    obtain ⟨j, hj, c', hc', rfl⟩ := mem_callsOf.1 hcall
    by_cases hjk : j = k
    · exact own_ne_nil hj (hjk ▸ hnil)
    · rw [c'.id_call] at hid
      exact (hdistinct j k c' c hc' hc hjk).1 hid
  · have hadded : k ∈ added labelled := mem_added (e := c.itemAdded) (hes ▸ List.mem_cons_self) rfl
    have hknown := h.keeps.arguments _ (mem_callsOf.2 ⟨k, hadded, c, hc, rfl⟩)
    rw [c.id_call] at hknown
    rw [hknown]
    unfold CallStream.call
    dsimp only

theorem step_message {m : MessageStream} (h : Reached items labelled v) (hk : items[k]? = some (.message m))
    (he : e ∈ m.events) (htext : ¬ HasText e) :
    Reached items (labelled ++ [(k, e)]) (v.step d e) := by
  have hnone : callAt items k = none := by
    unfold callAt
    rw [hk]
    rfl
  have hstep : v.step d e = v := by
    unfold MessageStream.events at he
    rw [List.cons_append, List.mem_cons, List.mem_append, List.mem_singleton, List.mem_map] at he
    rcases he with rfl | ⟨delta, -, rfl⟩ | rfl
    · exact View.step_item (.inl rfl) h.not_failed
    · have hempty : delta = "" := by simpa [HasText, MessageStream.textDelta] using htext
      rw [View.step_textDelta rfl h.not_failed]
      unfold MessageStream.textDelta
      rw [hempty, String.append_empty, String.append_empty]
    · exact View.step_item (.inr rfl) h.not_failed
  rw [hstep]
  refine { h with keeps := ?_, canonical := ?_ }
  · rw [callsOf_message hnone]
    exact h.keeps
  · intro j c hc hown
    have hjk : j ≠ k := by
      rintro rfl
      rw [hnone] at hc
      cases hc
    rw [own_concat_ne hjk] at hown
    exact h.canonical j c hc hown

theorem emit {t : ToolCalls} {delta : CallDelta} (h : Reached items labelled v) (hdistinct : Distinct items)
    (hc : callAt items k = some c) (hid : delta.callID = c.canonicalID)
    (hkeeps : Keeps (t.emit delta).1 (v.deltas ++ [Keeps.sentDelta t delta]) (callsOf items (labelled ++ [(k, e)])))
    (hcanonical : ∀ itemID, t.toolCallCanonicalIDByItemID itemID =
      if itemID = GoString.trimSpace c.id ∧ GoString.trimSpace c.id ≠ "" then c.canonicalID
      else v.tools.toolCallCanonicalIDByItemID itemID) :
    Reached items (labelled ++ [(k, e)]) ({ v with tools := t }.send delta) := by
  rw [View.send_eq (v := { v with tools := t }) (hid ▸ c.canonicalID_ne) h.output_text]
  exact { h with
    keeps := hkeeps
    canonical := by
      intro j c' hc' hown hblank
      rw [View.canonical_emit, hcanonical]
      by_cases hjk : j = k
      · obtain rfl := Option.some.inj (hc'.symm.trans (hjk ▸ hc))
        exact if_pos ⟨rfl, hblank⟩
      · rw [own_concat_ne hjk] at hown
        rw [if_neg fun heq => (hdistinct j k c' c hc' hc hjk).2 hblank heq.1]
        exact h.canonical j c' hc' hown hblank
    no_canonical := by
      rw [View.canonical_emit, hcanonical, if_neg fun heq => heq.2 heq.1.symm]
      exact h.no_canonical
    saw_call := by simp
    indexed := by
      rw [List.forall_mem_append, List.forall_mem_singleton]
      exact ⟨h.indexed, rfl⟩ }

theorem known {es : List Event} (hc : callAt items k = some c) (hes : own labelled k = c.itemAdded :: es) :
    ∃ call ∈ callsOf items labelled, call.id = c.canonicalID := by
  have hadded : k ∈ added labelled := mem_added (e := c.itemAdded) (hes ▸ List.mem_cons_self) rfl
  exact ⟨c.call (told d (own labelled k)), mem_callsOf.2 ⟨k, hadded, c, hc, rfl⟩, c.id_call⟩

theorem outputItem {arguments : String} (h : Reached items labelled v) (hdistinct : Distinct items)
    (hc : callAt items k = some c) (hitem : e.item = some (c.item arguments))
    (hpre : GoString.hasPrefix (argumentsOf d arguments) (told d (own labelled k)) = true)
    (hplace : own labelled k = [] ∧ e = c.itemAdded ∨
      (∃ es, own labelled k = c.itemAdded :: es) ∧ e.type ≠ "response.output_item.added") :
    Reached items (labelled ++ [(k, e)]) (v.outputItem d e.item) := by
  have hargs := h.arguments hdistinct hc (hplace.imp (fun hp => hp.1) fun hp => hp.1)
  rw [← hargs] at hpre
  have hnotes := View.notes_noteItem (d := d) (c := c) (t := v.tools) hpre
  have hcanonical := View.canonical_noteItem (d := d) (c := c) (t := v.tools) arguments
  have htell := View.tell_noteItem (d := d) (t := v.tools) hitem hpre
  have hid : (v.tools.noteItem d (c.item arguments)).2.callID = c.canonicalID := by
    rw [View.noteItem_item]
  have hname : (v.tools.noteItem d (c.item arguments)).2.name = GoString.trimSpace c.name := by
    rw [View.noteItem_item]
  rw [hargs] at htell
  rw [hitem]
  unfold View.outputItem
  dsimp only
  rw [if_neg (not_not.2 c.type_item)]
  generalize v.tools.noteItem d (c.item arguments) = noted at hnotes hid hname hcanonical htell ⊢
  refine h.emit hdistinct hc hid ?_ hcanonical
  rcases hplace with ⟨hnil, rfl⟩ | ⟨⟨es, hes⟩, htype⟩
  · have hnew : ∀ call ∈ callsOf items labelled, call.id ≠ noted.2.callID := by
      intro call hcall
      obtain ⟨j, hj, c', hc', rfl⟩ := mem_callsOf.1 hcall
      rw [hid, c'.id_call]
      exact (hdistinct j k c' c hc' hc fun hjk => own_ne_nil hj (hjk ▸ hnil)).1
    have hfirst := h.keeps.emit_first hnotes hnew (hname ▸ c.named)
    have htold : told d [c.itemAdded] = noted.2.argsDelta := by
      rw [← List.nil_append [c.itemAdded], told_concat, ← hnil, htell, hnil]
      exact String.empty_append
    rw [callsOf_added hc hnil, htold]
    unfold CallStream.call
    rw [← hid, ← hname]
    exact hfirst
  · rw [callsOf_next hdistinct hc htype (told_concat.trans htell), ← hid]
    exact h.keeps.emit_next hnotes (hid ▸ known hc hes)

/-- A delta of arguments is sent, if it refers to the item. -/
theorem argumentsDelta {delta : String} {es : List Event} (h : Reached items labelled v) (hdistinct : Distinct items)
    (hc : callAt items k = some c) (hes : own labelled k = c.itemAdded :: es) :
    Reached items (labelled ++ [(k, c.argumentsDelta delta)]) (v.step d (c.argumentsDelta delta)) := by
  have hargs := h.arguments hdistinct hc (.inr ⟨es, hes⟩)
  have htype : (c.argumentsDelta delta).type ≠ "response.output_item.added" := c.type_argumentsDelta
  have htell : tell d (told d (own labelled k)) (c.argumentsDelta delta) = told d (own labelled k) ++
      if GoString.trimSpace c.itemId = "" then "" else delta := by
    unfold tell CallStream.argumentsDelta
    dsimp only
    split
    next => exact String.append_empty.symm
    next => rfl
  have hcanonical := fun hid => h.canonical k c hc (hes ▸ List.cons_ne_nil _ _) hid
  rw [View.step_argumentsDelta rfl h.not_failed]
  have hitem : (c.argumentsDelta delta).itemId = c.itemId := rfl
  have hdelta : (c.argumentsDelta delta).delta = delta := rfl
  rw [hitem, hdelta]
  by_cases hblank : GoString.trimSpace c.itemId = ""
  · have hnone : v.tools.callIDOf (GoString.trimSpace c.itemId) = "" := by
      unfold ToolCalls.callIDOf
      rw [hblank, h.no_canonical]
      rfl
    rw [if_pos hnone]
    rw [if_pos hblank] at htell
    refine { h with keeps := ?_, canonical := ?_ }
    · rw [callsOf_next hdistinct hc htype (told_concat.trans htell), map_extendCall_empty]
      exact h.keeps
    · intro j c' hc' hown hid
      by_cases hjk : j = k
      · obtain rfl := Option.some.inj (hc'.symm.trans (hjk ▸ hc))
        exact hcanonical hid
      · rw [own_concat_ne hjk] at hown
        exact h.canonical j c' hc' hown hid
  · have hid : c.itemId = c.id := c.referenced.resolve_right hblank
    rw [if_neg hblank] at htell
    rw [hid] at hblank ⊢
    have hcall : v.tools.callIDOf (GoString.trimSpace c.id) = c.canonicalID := by
      unfold ToolCalls.callIDOf
      rw [hcanonical hblank]
      exact if_neg c.canonicalID_ne
    rw [hcall, if_neg c.canonicalID_ne]
    have hkeeps := h.keeps.emit_noteArgs delta (known hc hes)
    rw [← callsOf_next hdistinct hc htype (told_concat.trans htell)] at hkeeps
    have hsame : ∀ itemID, (v.tools.noteArgs c.canonicalID delta).toolCallCanonicalIDByItemID itemID =
        if itemID = GoString.trimSpace c.id ∧ GoString.trimSpace c.id ≠ "" then c.canonicalID
        else v.tools.toolCallCanonicalIDByItemID itemID := by
      intro itemID
      unfold ToolCalls.noteArgs
      dsimp only
      by_cases heq : itemID = GoString.trimSpace c.id
      · rw [if_pos ⟨heq, hblank⟩, heq, hcanonical hblank]
      · rw [if_neg fun h => heq h.1]
    have hid : ({ callID := c.canonicalID, name := "", argsDelta := delta } : CallDelta).callID = c.canonicalID := by
      dsimp only
    exact h.emit hdistinct hc hid hkeeps hsame

theorem step_call (h : Reached items labelled v) (hdistinct : Distinct items) (hc : callAt items k = some c)
    (hnext : own labelled k ++ [e] <+: c.events) : Reached items (labelled ++ [(k, e)]) (v.step d e) := by
  rcases c.next_cases hnext with ⟨hnil, rfl⟩ | ⟨deltas, delta, hes, rfl⟩ | ⟨hes, rfl⟩
  · rw [View.step_item (.inl rfl) h.not_failed]
    refine h.outputItem hdistinct hc rfl ?_ (.inl ⟨hnil, rfl⟩)
    rw [hnil, GoString.hasPrefix_iff]
    exact List.nil_prefix
  · exact h.argumentsDelta hdistinct hc hes
  · rw [View.step_item (.inr rfl) h.not_failed]
    refine h.outputItem hdistinct hc rfl ?_ (.inr ⟨⟨_, hes⟩, ?_⟩)
    · rw [hes]
      exact c.hasPrefix_told_deltas
    · exact c.type_itemDone

theorem of_noText (hdistinct : Distinct items) (hown : ∀ k, own labelled k <+: eventsAt items k)
    (htext : ∀ p ∈ labelled, ¬ HasText p.2) : Reached items labelled (labelled.foldl (fun v p => v.step d p.2) {}) := by
  induction labelled using List.reverseRecOn with
  | nil => exact nil
  | append_singleton labelled p ih =>
    obtain ⟨k, e⟩ := p
    rw [List.forall_mem_append, List.forall_mem_singleton] at htext
    have hshorter : ∀ j, own labelled j <+: eventsAt items j := by
      intro j
      refine List.IsPrefix.trans ?_ (hown j)
      unfold own
      rw [List.filter_append, List.map_append]
      exact List.prefix_append ..
    have h := ih hshorter htext.1
    have hnext := hown k
    rw [own_concat_self] at hnext
    unfold eventsAt at hnext
    rw [List.foldl_append, List.foldl_cons, List.foldl_nil]
    cases hk : items[k]? with
    | none =>
      rw [hk] at hnext
      exact absurd (List.prefix_nil.1 hnext) (List.append_ne_nil_of_right_ne_nil _ (List.cons_ne_nil _ _))
    | some item =>
      rw [hk] at hnext
      cases item with
      | message m =>
        have he : e ∈ m.events := hnext.subset (List.mem_append_right _ List.mem_cons_self)
        exact h.step_message hk he htext.2
      | functionCall c =>
        have hc : callAt items k = some c := by
          unfold callAt
          rw [hk]
          rfl
        exact h.step_call hdistinct hc hnext

end Reached

/-! ## Behind the first text -/

/-- The text that comes with an event. -/
def textOf (event : Event) : String := if event.type = "response.output_text.delta" then event.delta else ""

namespace View

variable {d : Decoder} {v : View} {e : Event}

/-- The types of the events that stream an output item. -/
def itemTypes : List String :=
  ["response.output_text.delta", "response.output_item.added", "response.output_item.done",
    "response.function_call_arguments.delta"]

/-- Items' events leave the stream open, and once there is a text nothing but text is sent. -/
structure Follows (v v' : View) (said : String) : Prop where
  text : v'.text = v.text ++ said
  output_text : v'.outputText = v.outputText ++ said
  reasons : v'.reasons = v.reasons
  stopped : v'.sentStop = v.sentStop
  failed : v'.failed = v.failed
  deltas : v.outputText ≠ "" → v'.deltas = v.deltas
  indexed : (∀ p ∈ v.deltas, p.2.index.isSome) → ∀ p ∈ v'.deltas, p.2.index.isSome

theorem Follows.rfl : v.Follows v "" :=
  ⟨String.append_empty.symm, String.append_empty.symm, Eq.refl _, Eq.refl _, Eq.refl _, fun _ => Eq.refl _, id⟩

theorem follows_send {t : ToolCalls} {delta : CallDelta} : v.Follows ({ v with tools := t }.send delta) "" := by
  unfold send
  split
  next => exact ⟨String.append_empty.symm, String.append_empty.symm, rfl, rfl, rfl, fun _ => rfl, id⟩
  next hsend =>
    refine ⟨String.append_empty.symm, String.append_empty.symm, rfl, rfl, rfl, fun htext => ?_, fun h => ?_⟩
    · exact absurd (.inr htext) hsend
    · rw [List.forall_mem_append, List.forall_mem_singleton]
      exact ⟨h, rfl⟩

theorem follows_outputItem {item : Option ResponsesOutput} : v.Follows (v.outputItem d item) "" := by
  unfold outputItem
  split
  · exact .rfl
  split
  · exact .rfl
  · exact follows_send

theorem follows_step (htype : e.type ∈ itemTypes) (hfailed : v.failed = false) : v.Follows (v.step d e) (textOf e) := by
  unfold textOf
  unfold itemTypes at htype
  simp only [List.mem_cons, List.not_mem_nil, or_false] at htype
  rcases htype with h | h | h | h
  · rw [step_textDelta h hfailed, if_pos h]
    refine ⟨rfl, rfl, rfl, rfl, rfl, fun _ => rfl, id⟩
  · rw [if_neg (by rw [h]; decide), step_item (.inl h) hfailed]
    exact follows_outputItem
  · rw [if_neg (by rw [h]; decide), step_item (.inr h) hfailed]
    exact follows_outputItem
  · rw [if_neg (by rw [h]; decide), step_argumentsDelta h hfailed]
    split
    · exact .rfl
    · exact follows_send

theorem Follows.trans {v' v'' : View} {said said' : String} (h : v.Follows v' said) (h' : v'.Follows v'' said') :
    v.Follows v'' (said ++ said') where
  text := by rw [h'.text, h.text, String.append_assoc]
  output_text := by rw [h'.output_text, h.output_text, String.append_assoc]
  reasons := h'.reasons.trans h.reasons
  stopped := h'.stopped.trans h.stopped
  failed := h'.failed.trans h.failed
  deltas htext := by
    rw [h'.deltas, h.deltas htext]
    rw [h.output_text]
    exact fun hempty => htext (String.append_eq_empty_iff.1 hempty).1
  indexed hall := h'.indexed (h.indexed hall)

theorem follows_foldl {labelled : List (Nat × Event)} (htypes : ∀ p ∈ labelled, p.2.type ∈ itemTypes)
    (hfailed : v.failed = false) :
    v.Follows (labelled.foldl (fun v p => v.step d p.2) v) (String.join (labelled.map fun p => textOf p.2)) := by
  induction labelled generalizing v with
  | nil => exact .rfl
  | cons p labelled ih =>
    obtain ⟨htype, htypes⟩ := List.forall_mem_cons.1 htypes
    have hstep := follows_step (d := d) htype hfailed
    rw [List.map_cons, String.join_cons]
    exact hstep.trans (ih htypes (hstep.failed.trans hfailed))

end View

/-! ## Whole streams -/

section
variable {d : Decoder} {items : List (ItemStream d)}

theorem type_mem_itemTypes {k : Nat} {e : Event} (he : e ∈ eventsAt items k) : e.type ∈ View.itemTypes := by
  unfold eventsAt at he
  cases hk : items[k]? with
  | none =>
    rw [hk] at he
    exact absurd he List.not_mem_nil
  | some item =>
    rw [hk] at he
    cases item with
    | message m =>
      rcases List.mem_append.1 (he : e ∈ m.events) with he | he
      · rcases List.mem_cons.1 he with rfl | he
        · simp [View.itemTypes]
        · obtain ⟨delta, -, rfl⟩ := List.mem_map.1 he
          simp [View.itemTypes, MessageStream.textDelta]
      · rw [List.mem_singleton.1 he]
        simp [View.itemTypes]
    | functionCall c =>
      rcases List.mem_append.1 (he : e ∈ c.events) with he | he
      · rcases List.mem_cons.1 he with rfl | he
        · simp [View.itemTypes, CallStream.itemAdded]
        · obtain ⟨delta, -, rfl⟩ := List.mem_map.1 he
          simp [View.itemTypes, CallStream.argumentsDelta]
      · rw [List.mem_singleton.1 he]
        simp [View.itemTypes, CallStream.itemDone]

theorem mem_own {labelled : List (Nat × Event)} {p : Nat × Event} (hp : p ∈ labelled) : p.2 ∈ own labelled p.1 :=
  List.mem_map_of_mem (List.mem_filter.2 ⟨hp, decide_eq_true rfl⟩)

theorem eventsAt_of_callAt {k : Nat} {c : CallStream d} (hc : callAt items k = some c) : eventsAt items k = c.events := by
  unfold callAt at hc
  unfold eventsAt
  obtain ⟨item, hk, hcall⟩ := Option.bind_eq_some_iff.1 hc
  rw [hk]
  cases item with
  | message m => cases hcall
  | functionCall c' =>
    obtain rfl := Option.some.inj hcall
    rfl

theorem CallStream.addsCall_of_type {c : CallStream d} {e : Event} (he : e ∈ c.events)
    (htype : e.type = "response.output_item.added") : AddsCall e := by
  rcases List.mem_append.1 he with he | he
  · rcases List.mem_cons.1 he with rfl | he
    · exact ⟨rfl, rfl⟩
    · obtain ⟨delta, -, rfl⟩ := List.mem_map.1 he
      exact absurd htype c.type_argumentsDelta
  · rw [List.mem_singleton.1 he] at htype
    exact absurd htype c.type_itemDone

theorem callAt_of_addsCall {labelled : List (Nat × Event)} {p : Nat × Event} (hp : p ∈ labelled)
    (hown : ∀ k, own labelled k <+: eventsAt items k) (hadds : AddsCall p.2) :
    p.1 ∈ added labelled ∧ ∃ c, callAt items p.1 = some c := by
  refine ⟨mem_added (mem_own hp) hadds.1, ?_⟩
  have he : p.2 ∈ eventsAt items p.1 := (hown p.1).subset (mem_own hp)
  unfold eventsAt at he
  unfold callAt
  cases hk : items[p.1]? with
  | none =>
    rw [hk] at he
    exact absurd he List.not_mem_nil
  | some item =>
    cases item with
    | functionCall c => exact ⟨c, rfl⟩
    | message m =>
      rw [hk] at he
      have htype := hadds.2
      rcases List.mem_append.1 (he : p.2 ∈ m.events) with he | he
      · rcases List.mem_cons.1 he with he | he
        · rw [he] at htype
          simp [MessageStream.item] at htype
        · obtain ⟨delta, -, he⟩ := List.mem_map.1 he
          rw [← he] at htype
          cases htype
      · rw [List.mem_singleton.1 he] at htype
        simp [MessageStream.item, MessageStream.contentItem] at htype

theorem callsOf_eq_nil_iff {labelled : List (Nat × Event)} (hown : ∀ k, own labelled k <+: eventsAt items k) :
    callsOf items labelled = [] ↔ ∀ p ∈ labelled, ¬ AddsCall p.2 := by
  constructor
  · intro hnil p hp hadds
    obtain ⟨hadded, c, hc⟩ := callAt_of_addsCall hp hown hadds
    have hmem := mem_callsOf.2 ⟨p.1, hadded, c, hc, rfl⟩
    rw [hnil] at hmem
    exact List.not_mem_nil hmem
  · intro hnone
    rw [List.eq_nil_iff_forall_not_mem]
    intro call hcall
    obtain ⟨k, hk, c, hc, -⟩ := mem_callsOf.1 hcall
    obtain ⟨p, hp, rfl⟩ := List.mem_map.1 hk
    obtain ⟨hp, htype⟩ := List.mem_filter.1 hp
    have he : p.2 ∈ c.events := eventsAt_of_callAt hc ▸ (hown p.1).subset (mem_own hp)
    exact hnone p hp (c.addsCall_of_type he (of_decide_eq_true htype))

end

namespace ResponseStream

variable {d : Decoder} (s : ResponseStream d)

/-- What a client has of the items' events. -/
def view : View := s.labelled.foldl (fun v p => v.step d p.2) {}

/-- The text that is streamed. -/
def streamedText : String :=
  String.join ((s.events.filter (·.type = "response.output_text.delta")).map (·.delta))

/-- No call is added before the first text. -/
def NoCallBeforeText : Prop := ∀ event ∈ s.events.takeWhile fun event => ¬ HasText event, ¬ AddsCall event

variable {s}

theorem own_ofItems (k : Nat) : own s.labelled k <+: eventsAt s.items k := by
  rw [s.own_eq]

theorem streamedText_eq : s.streamedText = String.join (s.labelled.map fun p => textOf p.2) := by
  have hcore : (s.events.filter fun event => event.type = "response.output_text.delta") =
      (s.events.filter fun event => event.type ∈ outputTypes).filter
        fun event => event.type = "response.output_text.delta" := by
    rw [List.filter_filter]
    refine List.filter_congr fun event _ => ?_
    rw [← Bool.decide_and]
    refine decide_eq_decide.2 ⟨fun htype => ⟨htype, ?_⟩, And.left⟩
    rw [htype]
    decide
  unfold streamedText
  rw [hcore, s.events_eq, List.filter_append, List.filter_cons_of_neg (by simp), List.filter_nil, List.append_nil]
  induction s.labelled with
  | nil => rfl
  | cons p labelled ih =>
    rw [List.map_cons, List.map_cons, String.join_cons, ← ih, List.filter_cons]
    unfold textOf
    by_cases htype : p.2.type = "response.output_text.delta"
    · rw [if_pos htype, if_pos (decide_eq_true htype), List.map_cons, String.join_cons]
    · rw [if_neg htype, if_neg (by simpa using htype), String.empty_append]

theorem callsOf_labelled : callsOf s.items s.labelled =
    (s.items.filterMap (·.call?)).map fun c => c.call (argumentsOf d c.arguments) := by
  have hplaces : ∀ items : List (ItemStream d), (List.range items.length).filterMap (callAt items) =
      items.filterMap (·.call?) := by
    intro items
    induction items using List.reverseRecOn with
    | nil => rfl
    | append_singleton items item ih =>
      have hlast : callAt (items ++ [item]) items.length = item.call? := by
        simp [callAt]
      rw [List.length_append, List.length_singleton, List.range_succ, List.filterMap_append, List.filterMap_append, ← ih]
      refine congrArg₂ (· ++ ·) (List.filterMap_congr fun k hk => ?_) ?_
      · unfold callAt
        rw [List.getElem?_append_left (List.mem_range.1 hk)]
      · cases hitem : item.call? with
        | none => rw [List.filterMap_cons_none (hlast.trans hitem), List.filterMap_cons_none hitem, List.filterMap_nil,
            List.filterMap_nil]
        | some c => rw [List.filterMap_cons_some (hlast.trans hitem), List.filterMap_cons_some hitem, List.filterMap_nil,
            List.filterMap_nil]
  unfold callsOf
  rw [s.added_eq, ← hplaces, List.map_filterMap]
  refine List.filterMap_congr fun k _ => ?_
  rw [s.own_eq]
  cases hc : callAt s.items k with
  | none => simp
  | some c =>
    rw [eventsAt_of_callAt hc]
    exact congrArg (fun args => some (c.call args)) c.told_events

theorem reached_of_no_text (htext : ∀ p ∈ s.labelled, ¬ HasText p.2) : Reached s.items s.labelled s.view :=
  Reached.of_noText s.distinct own_ofItems htext

theorem types (p : Nat × Event) (hp : p ∈ s.labelled) : p.2.type ∈ View.itemTypes :=
  type_mem_itemTypes ((own_ofItems p.1).subset (mem_own hp))

theorem follows_view : View.Follows {} s.view s.streamedText := by
  rw [streamedText_eq]
  exact View.follows_foldl types rfl

theorem deltas_of_text {l r : List (Nat × Event)} {p : Nat × Event} (hsplit : s.labelled = l ++ p :: r)
    (hl : ∀ q ∈ l, ¬ HasText q.2) (hp : HasText p.2) : s.view.deltas = [] ↔ ∀ q ∈ l, ¬ AddsCall q.2 := by
  have hown : ∀ k, own l k <+: eventsAt s.items k := by
    intro k
    refine List.IsPrefix.trans ?_ (own_ofItems k)
    unfold own
    rw [hsplit, List.filter_append, List.map_append]
    exact List.prefix_append ..
  have htypes : ∀ q ∈ r, q.2.type ∈ View.itemTypes := fun q hq =>
    types q (hsplit ▸ List.mem_append_right _ (List.mem_cons_of_mem _ hq))
  have hbefore := Reached.of_noText s.distinct hown hl
  have hview : s.view = r.foldl (fun v p => v.step d p.2)
      ((l.foldl (fun v p => v.step d p.2) ({} : View)).step d p.2) := by
    unfold view
    rw [hsplit, List.foldl_append, List.foldl_cons]
  generalize l.foldl (fun v p => v.step d p.2) ({} : View) = v at hbefore hview
  have hafter := View.follows_foldl (d := d) htypes (v := v.step d p.2) (by
    rw [View.step_textDelta hp.1 hbefore.not_failed]
    exact hbefore.not_failed)
  rw [← hview] at hafter
  have hdeltas : s.view.deltas = v.deltas := by
    rw [hafter.deltas]
    · rw [View.step_textDelta hp.1 hbefore.not_failed]
    · rw [View.step_textDelta hp.1 hbefore.not_failed, hbefore.output_text, String.empty_append]
      exact hp.2
  rw [hdeltas, ← callsOf_eq_nil_iff hown, ← hbefore.keeps.assembled]
  exact assembled_eq_nil_iff.symm

/-- The calls of the response. -/
def calls (s : ResponseStream d) : List Call :=
  (s.items.filterMap (·.call?)).map fun c => c.call (argumentsOf d c.arguments)

theorem foldl_events : s.events.foldl (·.step d ·) ({} : View) = s.view.stop := by
  have hskip : ∀ (events : List Event) (v : View), events.foldl (·.step d ·) v =
      (events.filter fun event => event.type ∈ outputTypes).foldl (·.step d ·) v := by
    intro events
    induction events with
    | nil => exact fun v => rfl
    | cons event events ih =>
      intro v
      by_cases htype : event.type ∈ outputTypes
      · rw [List.filter_cons, if_pos (decide_eq_true htype), List.foldl_cons, List.foldl_cons, ih]
      · rw [List.filter_cons, if_neg (by simpa using htype), List.foldl_cons, View.step_other htype, ih]
  have hfailed : s.view.failed = false := follows_view.failed
  rw [hskip, s.events_eq, List.foldl_append, List.foldl_map, List.foldl_cons, List.foldl_nil]
  exact View.step_completed rfl hfailed

/-- What a client has of the stream. -/
theorem handler_spec (id : String) (responseText2Usage : String → Usage) (info : RelayInfo) (createAt : Int) :
    ∃ chunks, oaiResponsesToChatStreamHandler id d responseText2Usage info createAt s.events = some chunks ∧
      streamText chunks = s.streamedText ∧ toolCallDeltas chunks = s.view.deltas ∧
      finishReasons chunks = [if s.view.sawToolCall ∧ s.streamedText = "" then "tool_calls" else "stop"] := by
  have hfollows := s.follows_view
  unfold oaiResponsesToChatStreamHandler
  have hview : (s.events.foldl (handleEvent id d) { model := info.upstreamModelName, createAt }).view =
      s.events.foldl (·.step d ·) ({ model := info.upstreamModelName, createAt } : StreamState).view := view_foldl _
  have hinit : ({ model := info.upstreamModelName, createAt } : StreamState).view = {} := rfl
  rw [hinit, foldl_events] at hview
  dsimp only
  generalize s.events.foldl (handleEvent id d) { model := info.upstreamModelName, createAt } = st at hview ⊢
  have hstop : s.view.stop = { s.view with
      reasons := [if s.view.sawToolCall ∧ s.streamedText = "" then "tool_calls" else "stop"], sentStop := true } := by
    have htext : s.view.outputText = s.streamedText := hfollows.output_text.trans String.empty_append
    have hreasons : s.view.reasons = [] := hfollows.reasons
    have hopen : s.view.sentStop = false := hfollows.stopped
    simp [View.stop, htext, hreasons, hopen]
  have hfailed : st.failed = false := by
    have hst : st.failed = st.view.failed := rfl
    rw [hst, hview, hstop]
    exact hfollows.failed
  have hfinal : (sendStopIfNeeded id (sendStartIfNeeded id st)).view = s.view.stop := by
    rw [view_sendStopIfNeeded, view_sendStartIfNeeded, hview, hstop]
    rfl
  rw [hfailed]
  generalize sendStopIfNeeded id (sendStartIfNeeded id st) = last at hfinal ⊢
  -- the usage comes in a chunk without choices
  have hchoices : ∀ usage, streamChoices (last.sent ++
      if info.shouldIncludeUsage then [{ last.chunk id {} with choices := [], usage := some usage }] else []) =
        streamChoices last.sent := by
    intro usage
    unfold streamChoices
    split <;> simp
  have htext : streamText last.sent = s.streamedText := by
    have hlast : streamText last.sent = last.view.text := rfl
    rw [hlast, hfinal, hstop]
    exact hfollows.text.trans String.empty_append
  have hdeltas : toolCallDeltas last.sent = s.view.deltas := by
    have hlast : toolCallDeltas last.sent = last.view.deltas := rfl
    rw [hlast, hfinal, hstop]
  have hreasons : finishReasons last.sent =
      [if s.view.sawToolCall ∧ s.streamedText = "" then "tool_calls" else "stop"] := by
    have hlast : finishReasons last.sent = last.view.reasons := rfl
    rw [hlast, hfinal, hstop]
  refine ⟨_, rfl, ?_, ?_, ?_⟩
  · rw [← htext]
    unfold streamText
    rw [hchoices]
  · rw [← hdeltas]
    unfold toolCallDeltas
    rw [hchoices]
  · rw [← hreasons]
    unfold finishReasons
    rw [hchoices]

theorem toolCall?_output (item : ItemStream d) : (item.output.toolCall? d).map (fun toolCall =>
    ({ id := toolCall.id, name := toolCall.function.name, arguments := toolCall.function.arguments } : Call)) =
      item.call?.map fun c => c.call (argumentsOf d c.arguments) := by
  cases item with
  | message m => rfl
  | functionCall c =>
    have htype : ¬ (c.item c.arguments).type ≠ "function_call" := not_not.2 rfl
    have hname : GoString.trimSpace (c.item c.arguments).name ≠ "" := c.named
    have htool : (c.item c.arguments).toolCall? d = some
        { id := c.canonicalID
          type := "function"
          function := { name := GoString.trimSpace c.name, arguments := (c.item c.arguments).argumentsString d } } := by
      unfold ResponsesOutput.toolCall?
      rw [if_neg htype]
      exact if_neg hname
    have houtput : (ItemStream.functionCall c).output = c.item c.arguments := rfl
    have hcall : (ItemStream.functionCall c).call? = some c := rfl
    rw [houtput, htool, hcall, CallStream.argumentsString_item, Option.map_some, Option.map_some]
    unfold CallStream.call
    dsimp only

theorem response_spec (id : String) :
    ∃ r usage choice, responsesResponseToChatCompletionsResponse d (some s.response) id = .ok (r, usage) ∧
      r.choices = [choice] ∧
      choice.message.stringContent = extractOutputTextFromResponses s.response.output ∧
      (choice.message.toolCalls.map fun toolCall =>
        ({ id := toolCall.id, name := toolCall.function.name, arguments := toolCall.function.arguments } : Call)) =
          (if extractOutputTextFromResponses s.response.output = "" then s.calls else []) ∧
      choice.finishReason =
        if extractOutputTextFromResponses s.response.output = "" ∧ s.calls ≠ [] then "tool_calls" else "stop" := by
  have hcalls : (s.response.output.filterMap (·.toolCall? d)).map (fun toolCall =>
      ({ id := toolCall.id, name := toolCall.function.name, arguments := toolCall.function.arguments } : Call)) =
        s.calls := by
    rw [s.response_output, List.map_filterMap, List.filterMap_map]
    unfold calls
    rw [List.map_filterMap]
    exact List.filterMap_congr fun item _ => toolCall?_output item
  have hnil : s.response.output.filterMap (·.toolCall? d) = [] ↔ s.calls = [] := by
    rw [← hcalls, List.map_eq_nil_iff]
  have hoptional : (if extractOutputTextFromResponses s.response.output = "" ∧ s.response.output ≠ [] then
      s.response.output.filterMap (·.toolCall? d) else []) =
        if extractOutputTextFromResponses s.response.output = "" then s.response.output.filterMap (·.toolCall? d)
        else [] := by
    by_cases hempty : s.response.output = [] <;> simp [hempty]
  unfold responsesResponseToChatCompletionsResponse
  dsimp only
  refine ⟨_, _, _, rfl, rfl, ?_⟩
  dsimp only [Convert.Message.stringContent]
  rw [hoptional]
  by_cases htext : extractOutputTextFromResponses s.response.output = ""
  · simp [htext, hcalls, hnil]
  · simp [htext]

theorem takeWhile_filter_of {α : Type*} {p q : α → Bool} {l : List α} (h : ∀ a, p a = false → q a = true) :
    (l.filter q).takeWhile p = (l.takeWhile p).filter q := by
  induction l with
  | nil => rfl
  | cons a l ih =>
    by_cases hp : p a = true
    · by_cases hq : q a = true
      · simp [hp, hq, ih]
      · simp [hp, hq, ih]
    · have hq := h a (Bool.eq_false_iff.2 hp)
      simp [hp, hq]

theorem noCallBeforeText_iff {l r : List (Nat × Event)} {p : Nat × Event} (hsplit : s.labelled = l ++ p :: r)
    (hl : ∀ q ∈ l, ¬ HasText q.2) (hp : HasText p.2) : s.NoCallBeforeText ↔ ∀ q ∈ l, ¬ AddsCall q.2 := by
  have htake : (s.events.takeWhile fun event => ¬ HasText event).filter (fun event => event.type ∈ outputTypes) =
      l.map (·.2) := by
    rw [← takeWhile_filter_of, s.events_eq, hsplit]
    · rw [List.map_append, List.append_assoc, List.takeWhile_append_of_pos]
      · rw [List.map_cons, List.cons_append, List.takeWhile_cons_of_neg (by simpa using hp), List.append_nil]
      · rw [List.forall_mem_map]
        exact fun q hq => decide_eq_true (hl q hq)
    · intro event htext
      have htext : HasText event := by simpa using htext
      rw [decide_eq_true_eq, htext.1]
      decide
  unfold NoCallBeforeText
  constructor
  · intro h q hq
    have hmem : q.2 ∈ l.map (·.2) := List.mem_map_of_mem hq
    rw [← htake] at hmem
    exact h _ (List.mem_filter.1 hmem).1
  · intro h event hevent hadds
    have hcore : event.type ∈ outputTypes := by
      rw [hadds.1]
      decide
    have hmem : event ∈ (s.events.takeWhile fun event => ¬ HasText event).filter (fun event => event.type ∈ outputTypes) :=
      List.mem_filter.2 ⟨hevent, decide_eq_true hcore⟩
    rw [htake] at hmem
    obtain ⟨q, hq, rfl⟩ := List.mem_map.1 hmem
    exact h q hq hadds

theorem streamedText_eq_empty_iff : s.streamedText = "" ↔ ∀ p ∈ s.labelled, ¬ HasText p.2 := by
  rw [streamedText_eq, GoString.join_eq_empty_iff, List.forall_mem_map]
  refine forall₂_congr fun p _ => ?_
  unfold textOf HasText
  by_cases htype : p.2.type = "response.output_text.delta" <;> simp [htype]

theorem exists_first_text (h : s.streamedText ≠ "") :
    ∃ l p r, s.labelled = l ++ p :: r ∧ (∀ q ∈ l, ¬ HasText q.2) ∧ HasText p.2 := by
  cases hfind : s.labelled.find? fun p => HasText p.2 with
  | none =>
    rw [List.find?_eq_none] at hfind
    exact absurd (streamedText_eq_empty_iff.2 fun p hp => by simpa using hfind p hp) h
  | some p =>
    obtain ⟨hp, l, r, hsplit, hl⟩ := List.find?_eq_some_iff_append.1 hfind
    exact ⟨l, p, r, hsplit, fun q hq => by simpa using hl q hq, of_decide_eq_true hp⟩

theorem deltas_eq_nil_iff (h : s.streamedText ≠ "") : s.view.deltas = [] ↔ s.NoCallBeforeText := by
  obtain ⟨l, p, r, hsplit, hl, hp⟩ := exists_first_text h
  rw [deltas_of_text hsplit hl hp, noCallBeforeText_iff hsplit hl hp]

end ResponseStream

section
variable {id : String} {d : Decoder} {responseText2Usage : String → Usage} {info : RelayInfo} {createAt : Int}
  {s : ResponseStream d}

theorem StreamAgrees.texts (h : StreamAgrees id d responseText2Usage info createAt s) :
    s.streamedText = extractOutputTextFromResponses s.response.output ∧
      (extractOutputTextFromResponses s.response.output = "" ∨ s.NoCallBeforeText) := by
  obtain ⟨chunks, hchunks, htext, hdeltas, -⟩ := s.handler_spec id responseText2Usage info createAt
  obtain ⟨r, usage, choice, hr, hchoices, hcontent, hcalls, -⟩ := s.response_spec id
  obtain ⟨chunks', r', usage', choice', hchunks', hr', hchoices', h⟩ := h
  obtain rfl := Option.some.inj (hchunks.symm.trans hchunks')
  obtain ⟨rfl, rfl⟩ := Prod.mk.inj (Except.ok.inj (hr.symm.trans hr'))
  obtain rfl := List.singleton_inj.1 (hchoices.symm.trans hchoices')
  have hsame : s.streamedText = extractOutputTextFromResponses s.response.output :=
    htext.symm.trans (h.content.trans hcontent)
  refine ⟨hsame, or_iff_not_imp_left.2 fun hne => ?_⟩
  have hassembled : streamCalls chunks = assembled s.view.deltas := congrArg assembled hdeltas
  have hnone : assembled s.view.deltas = [] := by
    rw [← hassembled, h.toolCalls, hcalls, if_neg hne]
  exact (ResponseStream.deltas_eq_nil_iff (hsame ▸ hne)).1 (assembled_eq_nil_iff.1 hnone)

end

/-- The stream agrees with the response just where its texts come in the order of the output, and no call is added before
the first text, if there is one. -/
theorem responses_stream_agrees_iff (id : String) (d : Decoder) (responseText2Usage : String → Usage) (info : RelayInfo)
    (createAt : Int) (s : ResponseStream d) :
    StreamAgrees id d responseText2Usage info createAt s ↔
      s.streamedText = extractOutputTextFromResponses s.response.output ∧
        (extractOutputTextFromResponses s.response.output = "" ∨ s.NoCallBeforeText) := by
  refine ⟨StreamAgrees.texts, fun ⟨hsame, hcond⟩ => ?_⟩
  obtain ⟨chunks, hchunks, htext, hdeltas, hreasons⟩ := s.handler_spec id responseText2Usage info createAt
  obtain ⟨r, usage, choice, hr, hchoices, hcontent, hcalls, hreason⟩ := s.response_spec id
  have hassembled : streamCalls chunks = assembled s.view.deltas := congrArg assembled hdeltas
  refine ⟨chunks, r, usage, choice, hchunks, hr, hchoices, htext.trans (hsame.trans hcontent.symm), ?_, ?_, ?_⟩
  · by_cases hempty : extractOutputTextFromResponses s.response.output = ""
    · have hreached := s.reached_of_no_text (ResponseStream.streamedText_eq_empty_iff.1 (hsame.trans hempty))
      rw [hcalls, if_pos hempty, hassembled, hreached.keeps.assembled]
      exact s.callsOf_labelled
    · have hnone := (ResponseStream.deltas_eq_nil_iff (hsame ▸ hempty)).2 (hcond.resolve_left hempty)
      rw [hcalls, if_neg hempty, hassembled, hnone]
      rfl
  · rw [hdeltas]
    exact s.follows_view.indexed fun p hp => absurd hp List.not_mem_nil
  · rw [hreasons, hreason, hsame]
    by_cases hempty : extractOutputTextFromResponses s.response.output = ""
    · have hreached := s.reached_of_no_text (ResponseStream.streamedText_eq_empty_iff.1 (hsame.trans hempty))
      have hsaw : s.view.sawToolCall = true ↔ s.calls ≠ [] := by
        rw [hreached.saw_call, ne_eq, ne_eq, ← assembled_eq_nil_iff, hreached.keeps.assembled, s.callsOf_labelled]
        rfl
      exact congrArg (fun reason => [reason]) (if_congr (and_comm.trans (and_congr_right fun _ => hsaw)) rfl rfl)
    · rw [if_neg fun h => hempty h.2, if_neg fun h => hempty h.1]

/-! ### A call that comes before the text -/

def plainDecoder : Decoder := { unmarshal := fun s => if s = "" then none else some .null, unmarshal_empty := rfl }

def weatherCall : CallStream plainDecoder where
  id := "i1"
  callId := "c1"
  name := "weather"
  arguments := "\x7b\x7d"
  start := ""
  deltas := ["\x7b", "\x7d"]
  itemId := "i1"
  named := by decide
  identified := .inl (by decide)
  referenced := .inl rfl
  complete := by decide

def lookItUp : MessageStream := { id := "i2", contents := [["I look ", "it up."]] }

def callThenTextItems : List (ItemStream plainDecoder) := [.functionCall weatherCall, .message lookItUp]

theorem callThenText_distinct : Distinct callThenTextItems := by
  have honly : ∀ k c, callAt callThenTextItems k = some c → k = 0 := by
    rintro (_ | _ | k) c hc
    · rfl
    · cases hc
    · cases hc
  intro j k c c' hc hc' hjk
  exact absurd ((honly j c hc).trans (honly k c' hc').symm) hjk

def callThenTextLabelled : List (Nat × Event) := weatherCall.events.map (0, ·) ++ lookItUp.events.map (1, ·)

theorem callThenText_own (k : Nat) : own callThenTextLabelled k = eventsAt callThenTextItems k := by
  unfold own callThenTextLabelled
  rw [List.filter_append, List.filter_map, List.filter_map]
  rcases k with _ | _ | k
  · simp [Function.comp_def]
    rfl
  · simp [Function.comp_def]
    rfl
  · simp [Function.comp_def, eventsAt, callThenTextItems]

def callThenText : ResponseStream plainDecoder where
  items := callThenTextItems
  distinct := callThenText_distinct
  response := { output := callThenTextItems.map (·.output) }
  response_output := rfl
  labelled := callThenTextLabelled
  own_eq := callThenText_own
  added_eq := by decide
  events := callThenTextLabelled.map (·.2) ++
    [{ type := "response.completed", response := some { output := callThenTextItems.map (·.output) } }]
  events_eq := by rfl

/-- The stream has the call, and the response has not. -/
theorem callBeforeText_disagrees : ¬ ∀ (id : String) (d : Decoder) (responseText2Usage : String → Usage) (info : RelayInfo)
    (createAt : Int) (s : ResponseStream d), StreamAgrees id d responseText2Usage info createAt s := by
  intro hall
  have h := hall "r1" plainDecoder (fun _ => convertUsage none)
    { upstreamModelName := "gpt-5", forceFormat := false, shouldIncludeUsage := false } 0 callThenText
  rcases h.texts.2 with hempty | hnone
  · exact absurd hempty (by decide)
  · exact hnone weatherCall.itemAdded List.mem_cons_self ⟨rfl, rfl⟩

end NewApi.ResponsesStream

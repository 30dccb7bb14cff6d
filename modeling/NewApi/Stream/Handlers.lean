import NewApi.Stream.Claude

/-!
# The stream handlers

`OaiStreamHandler` converts the chunks of a chat stream one behind: each is converted when the next one
comes, and the last one when the stream has ended and its usage is known. `OaiResponsesToChatStreamHandler`
turns the events of a Responses stream into chunks of a chat stream, which are converted as they come.
Here the client is a Claude client, and what is sent is what the conversion gives.
-/

namespace NewApi.Stream

/-! ## Chat streams -/

/-- `HandleFinalResponse` for a Claude client: the chunk is converted with the usage that was found or
estimated. It is not counted. -/
def handleFinalResponse (usage : Usage) (info : RelayInfo) (resp : Chunk) :
    List ClaudeResponse × RelayInfo :=
  let r := streamResponseOpenAI2Claude resp
    { info with claudeConvertInfo := { info.claudeConvertInfo with usage := some usage } }
  (r.1, { r.2 with claudeConvertInfo := { r.2.claudeConvertInfo with done := true } })

/-- What `OaiStreamHandler` keeps while it reads the stream. -/
structure ChatStream where
  lastStreamData : Option Chunk := none
  info : RelayInfo
  sent : List ClaudeResponse := []

/-- The callback of `OaiStreamHandler`: the chunk before is converted. -/
def onChunk (st : ChatStream) (data : Chunk) : ChatStream :=
  let st := match st.lastStreamData with
    | none => st
    | some last => { st with
      info := step st.info last
      sent := st.sent ++ (handleStreamFormat st.info last).1 }
  { st with lastStreamData := some data }

/-- `OaiStreamHandler`: what is sent. -/
def oaiStreamHandler (usage : Usage) (info : RelayInfo) (chunks : List Chunk) : List ClaudeResponse :=
  let st := chunks.foldl onChunk { info := info }
  match st.lastStreamData with
  | none => st.sent
  | some last => st.sent ++ (handleFinalResponse usage st.info last).1

/-! ## Responses streams -/

/-- The usage of a response; the input's details may be missing. -/
structure ResponsesUsage where
  inputTokens : Int := 0
  outputTokens : Int := 0
  totalTokens : Int := 0
  cachedTokens : Option Int := none

/-- The response that an event carries. -/
structure ResponsesResponse where
  model : String := ""
  usage : Option ResponsesUsage := none

/-- An output item of a response. -/
structure ResponsesOutput where
  type : String
  id : String := ""
  callId : String := ""
  name : String := ""
  arguments : String := ""

/-- An event of a Responses stream, by its `type`. -/
inductive ResponsesEvent
  | created (response : Option ResponsesResponse)
  | reasoningSummaryTextDelta (delta : String)
  | reasoningSummaryTextDone
  | outputTextDelta (delta : String)
  /-- `response.output_item.added` and `response.output_item.done`. -/
  | outputItem (item : Option ResponsesOutput)
  | functionCallArgumentsDelta (itemId delta : String)
  | completed (response : Option ResponsesResponse)
  /-- `response.error` and `response.failed`. -/
  | error
  | other

/-- The variables of `OaiResponsesToChatStreamHandler`. A map whose keys have no entry gives the zero
value. -/
structure ResponsesStream where
  info : RelayInfo
  sent : List ClaudeResponse := []
  responseId : String
  model : String
  usage : Usage := ⟨0, 0, 0, 0, 0, 0⟩
  totalTokens : Int := 0
  outputText : String := ""
  usageText : String := ""
  sentStart : Bool := false
  sentStop : Bool := false
  sawToolCall : Bool := false
  /-- `streamErr`. -/
  failed : Bool := false
  /-- The ids of `toolCallIndexByID`, each at its index. -/
  toolCallIds : List String := []
  toolCallNameById : String → String := fun _ => ""
  toolCallArgsById : String → String := fun _ => ""
  toolCallNameSent : String → Bool := fun _ => false
  toolCallCanonicalIdByItemId : String → String := fun _ => ""
  hasSentReasoningSummary : Bool := false
  needsReasoningSummarySeparator : Bool := false

/-- `m[k] = v`. -/
def assign {α : Type} (m : String → α) (k : String) (v : α) : String → α := fun k' =>
  if k' = k then v else m k'

namespace ResponsesStream

/-- The chunk with one choice. -/
def chunk (choice : Choice) (st : ResponsesStream) : Chunk :=
  { id := st.responseId, model := st.model, choices := [choice] }

/-- `sendChatChunk`. -/
def sendChatChunk (resp : Chunk) (st : ResponsesStream) : ResponsesStream :=
  { st with
    info := step st.info resp
    sent := st.sent ++ (handleStreamFormat st.info resp).1 }

/-- `GenerateStartEmptyResponse`. -/
def startEmptyResponse (st : ResponsesStream) : Chunk := st.chunk { delta := { content := some "" } }

/-- `GenerateStopResponse`. -/
def stopResponse (finishReason : String) (st : ResponsesStream) : Chunk :=
  st.chunk { finishReason := some finishReason }

/-- `sendStartIfNeeded`. -/
def sendStartIfNeeded (st : ResponsesStream) : ResponsesStream :=
  if st.sentStart then st else { st.sendChatChunk st.startEmptyResponse with sentStart := true }

/-- `sendReasoningSummaryDelta`. -/
def sendReasoningSummaryDelta (delta : String) (st : ResponsesStream) : ResponsesStream :=
  if delta = "" then st
  else
    let delta :=
      if st.needsReasoningSummarySeparator then
        if GoString.hasPrefix delta "\n\n" then delta
        else if GoString.hasPrefix delta "\n" then "\n" ++ delta
        else "\n\n" ++ delta
      else delta
    let st := { st with needsReasoningSummarySeparator := false }.sendStartIfNeeded
    let st := { st with usageText := st.usageText ++ delta }
    let st := st.sendChatChunk (st.chunk { delta := { reasoningContent := some delta } })
    { st with hasSentReasoningSummary := true }

/-- `sendToolCallDelta`. -/
def sendToolCallDelta (callId name argsDelta : String) (st : ResponsesStream) : ResponsesStream :=
  if callId = "" then st
  else if st.outputText ≠ "" then st
  else
    let st := st.sendStartIfNeeded
    let st :=
      if callId ∈ st.toolCallIds then st else { st with toolCallIds := st.toolCallIds ++ [callId] }
    let st :=
      if name ≠ "" then { st with toolCallNameById := assign st.toolCallNameById callId name } else st
    let name := if st.toolCallNameById callId ≠ "" then st.toolCallNameById callId else name
    let sendsName := name ≠ "" ∧ st.toolCallNameSent callId = false
    let tool : ToolCall :=
      { index := some (st.toolCallIds.idxOf callId)
        id := callId
        name := if sendsName then name else ""
        arguments := argsDelta }
    let st :=
      if sendsName then { st with toolCallNameSent := assign st.toolCallNameSent callId true } else st
    let st := st.sendChatChunk (st.chunk { delta := { toolCalls := [tool] } })
    { st with sawToolCall := true, usageText := st.usageText ++ tool.name ++ argsDelta }

/-- The model that a response names. -/
def withModel (response : Option ResponsesResponse) (st : ResponsesStream) : ResponsesStream :=
  match response with
  | none => st
  | some r => if r.model ≠ "" then { st with model := r.model } else st

/-- The usage that a response reports. The record shares it once it has been given to it. -/
def withUsage (response : Option ResponsesResponse) (st : ResponsesStream) : ResponsesStream :=
  match response.bind ResponsesResponse.usage with
  | none => st
  | some u =>
    let prompt := if u.inputTokens ≠ 0 then u.inputTokens else st.usage.promptTokens
    let completion := if u.outputTokens ≠ 0 then u.outputTokens else st.usage.completionTokens
    let usage := { st.usage with
      promptTokens := prompt
      completionTokens := completion
      cachedTokens := u.cachedTokens.getD st.usage.cachedTokens }
    let info :=
      if st.sentStop then
        { st.info with claudeConvertInfo := { st.info.claudeConvertInfo with usage := some usage } }
      else st.info
    { st with
      usage := usage
      totalTokens := if u.totalTokens ≠ 0 then u.totalTokens else prompt + completion
      info := info }

/-- The stop chunk is sent, with the usage in the record. -/
def sendStop (st : ResponsesStream) : ResponsesStream :=
  let info := { st.info with
    claudeConvertInfo := { st.info.claudeConvertInfo with usage := some st.usage } }
  let finishReason := if st.sawToolCall ∧ st.outputText = "" then "tool_calls" else "stop"
  { st with info := info }.sendChatChunk (st.stopResponse finishReason)

/-- An output item: a function call is sent with the part of its arguments that is new. -/
def sendOutputItem (item : ResponsesOutput) (st : ResponsesStream) : ResponsesStream :=
  if item.type ≠ "function_call" then st
  else
    let itemId := GoString.trimSpace item.id
    let trimmed := GoString.trimSpace item.callId
    let callId := if trimmed = "" then itemId else trimmed
    let name := GoString.trimSpace item.name
    let prevArgs := st.toolCallArgsById callId
    let argsDelta :=
      if item.arguments = "" then ""
      else if GoString.hasPrefix item.arguments prevArgs then GoString.after item.arguments prevArgs
      else item.arguments
    let st := { st with
      toolCallCanonicalIdByItemId :=
        if itemId ≠ "" ∧ callId ≠ "" then assign st.toolCallCanonicalIdByItemId itemId callId
        else st.toolCallCanonicalIdByItemId
      toolCallNameById :=
        if name ≠ "" then assign st.toolCallNameById callId name else st.toolCallNameById
      toolCallArgsById :=
        if item.arguments ≠ "" then assign st.toolCallArgsById callId item.arguments
        else st.toolCallArgsById }
    st.sendToolCallDelta callId name argsDelta

/-- The callback of `OaiResponsesToChatStreamHandler`. -/
def onEvent (st : ResponsesStream) (event : ResponsesEvent) : ResponsesStream :=
  if st.failed then st
  else
    match event with
    | .created response => st.withModel response
    | .reasoningSummaryTextDelta delta => st.sendReasoningSummaryDelta delta
    | .reasoningSummaryTextDone =>
      if st.hasSentReasoningSummary then { st with needsReasoningSummarySeparator := true } else st
    | .outputTextDelta delta =>
      let st := st.sendStartIfNeeded
      if delta = "" then st
      else
        let st := { st with
          outputText := st.outputText ++ delta
          usageText := st.usageText ++ delta }
        st.sendChatChunk (st.chunk { delta := { content := some delta } })
    | .outputItem none => st
    | .outputItem (some item) => st.sendOutputItem item
    | .functionCallArgumentsDelta itemId delta =>
      let itemId := GoString.trimSpace itemId
      let canonical := st.toolCallCanonicalIdByItemId itemId
      let callId := if canonical = "" then itemId else canonical
      if callId = "" then st
      else
        let st := { st with
          toolCallArgsById := assign st.toolCallArgsById callId (st.toolCallArgsById callId ++ delta) }
        st.sendToolCallDelta callId "" delta
    | .completed response =>
      let st := ((st.withModel response).withUsage response).sendStartIfNeeded
      if st.sentStop then st else { st.sendStop with sentStop := true }
    | .error => { st with failed := true }
    | .other => st

/-- The end of `OaiResponsesToChatStreamHandler`, with the usage that a text is estimated to have. -/
def finish (responseText2Usage : String → Usage) (st : ResponsesStream) : ResponsesStream :=
  if st.failed then st
  else
    let st := if st.totalTokens = 0 then { st with usage := responseText2Usage st.usageText } else st
    let st := if st.sentStart then st else st.sendChatChunk st.startEmptyResponse
    if st.sentStop then st else st.sendStop

end ResponsesStream

/-- `OaiResponsesToChatStreamHandler`: what is sent. -/
def oaiResponsesToChatStreamHandler (responseText2Usage : String → Usage) (responseId model : String)
    (info : RelayInfo) (events : List ResponsesEvent) : List ClaudeResponse :=
  let st : ResponsesStream := { info := info, responseId := responseId, model := model }
  ((events.foldl ResponsesStream.onEvent st).finish responseText2Usage).sent

end NewApi.Stream

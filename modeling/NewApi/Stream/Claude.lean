import NewApi.Lib.GoString

/-!
# OpenAI chat streams for Claude clients

`StreamResponseOpenAI2Claude` turns one chunk of an OpenAI chat stream into events of Claude's message
stream. It is called once for each chunk, with a record of the content blocks that are open. The
converter reads the chunk from top to bottom and appends events as it goes; here each part of it is a
function of the record and of the events so far (`Conv`), and the parts are composed in the source's
order. Indices are integers; the source's overflow only beyond 2^63.
-/

namespace NewApi.Stream

/-! ## Chunks -/

/-- The counts of a `dto.Usage` that the conversion reads. -/
structure Usage where
  promptTokens : Int
  completionTokens : Int
  cachedTokens : Int
  cachedCreationTokens : Int
  claudeCacheCreation5mTokens : Int
  claudeCacheCreation1hTokens : Int
deriving DecidableEq

/-- A tool-call delta. -/
structure ToolCall where
  index : Option Int := none
  id : String := ""
  name : String := ""
  arguments : String := ""
deriving DecidableEq

/-- The delta of a choice. -/
structure Delta where
  content : Option String := none
  reasoningContent : Option String := none
  reasoning : Option String := none
  toolCalls : List ToolCall := []
deriving DecidableEq

namespace Delta

/-- `GetContentString`. -/
def getContentString (d : Delta) : String := d.content.getD ""

/-- `GetReasoningContent`: upstreams spell the reasoning in one of two fields. -/
def getReasoningContent (d : Delta) : String := (d.reasoningContent <|> d.reasoning).getD ""

end Delta

/-- A choice of a chunk. -/
structure Choice where
  delta : Delta := {}
  finishReason : Option String := none
deriving DecidableEq

/-- The choice ends with this chunk. -/
def Choice.isFinished (c : Choice) : Bool := c.finishReason.any (· ≠ "")

/-- A `ChatCompletionsStreamResponse`. -/
structure Chunk where
  id : String := ""
  model : String := ""
  choices : List Choice := []
  usage : Option Usage := none
deriving DecidableEq

/-! ## Events -/

/-- A `ClaudeUsage`. The split of cache creations into five minutes and one hour may be missing. -/
structure ClaudeUsage where
  inputTokens : Int
  outputTokens : Int
  cacheCreationInputTokens : Int
  cacheReadInputTokens : Int
  cacheCreation : Option (Int × Int)
deriving DecidableEq

/-- What a content block is when it starts. A tool's input starts empty. -/
inductive ContentBlock
  | text
  | thinking
  | toolUse (id name : String)
deriving DecidableEq

/-- A piece of a content block. -/
inductive BlockDelta
  | textDelta (text : String)
  | thinkingDelta (thinking : String)
  | inputJsonDelta (partialJson : String)
deriving DecidableEq

/-- An event of the message stream, by its `type`. -/
inductive ClaudeResponse
  | messageStart (id model : String) (inputTokens : Int)
  | contentBlockStart (index : Int) (block : ContentBlock)
  | contentBlockDelta (index : Int) (delta : BlockDelta)
  | contentBlockStop (index : Int)
  | messageDelta (usage : ClaudeUsage) (stopReason : String)
  | messageStop
deriving DecidableEq

/-- `NormalizeCacheCreationSplit`: what the split leaves over counts as five minutes. -/
def normalizeCacheCreationSplit (totalTokens tokens5m tokens1h : Int) : Int × Int :=
  (tokens5m + max (totalTokens - tokens5m - tokens1h) 0, tokens1h)

/-- `buildClaudeUsageFromOpenAIUsage`. -/
def buildClaudeUsageFromOpenAIUsage (u : Usage) : ClaudeUsage :=
  let split := normalizeCacheCreationSplit u.cachedCreationTokens u.claudeCacheCreation5mTokens
    u.claudeCacheCreation1hTokens
  { inputTokens := u.promptTokens
    outputTokens := u.completionTokens
    cacheCreationInputTokens := u.cachedCreationTokens
    cacheReadInputTokens := u.cachedTokens
    cacheCreation := if split.1 > 0 ∨ split.2 > 0 then some split else none }

/-- `OpenAIFinishReasonToClaudeStopReason`. -/
def stopReasonOpenAI2Claude (finishReason : String) : String :=
  let reason := GoString.toLower finishReason
  if reason = "stop" then "end_turn"
  else if reason = "stop_sequence" then "stop_sequence"
  else if reason = "length" ∨ reason = "max_tokens" then "max_tokens"
  else if reason = "content_filter" then "refusal"
  else if reason = "tool_calls" then "tool_use"
  else finishReason

/-! ## The converter -/

/-- `LastMessagesType`: which content blocks are open. -/
inductive LastMessagesType
  | none
  | text
  | thinking
  | tools
deriving DecidableEq

/-- `ClaudeConvertInfo`: the record that the conversion keeps. -/
structure ClaudeConvertInfo where
  lastMessagesType : LastMessagesType := .none
  index : Int := 0
  usage : Option Usage := none
  finishReason : String := ""
  done : Bool := false
  toolCallBaseIndex : Int := 0
  toolCallMaxIndexOffset : Int := 0
deriving DecidableEq

/-- The fields of `RelayInfo` that the conversion uses. -/
structure RelayInfo where
  sendResponseCount : Nat := 0
  estimatePromptTokens : Int := 0
  claudeConvertInfo : ClaudeConvertInfo := {}
deriving DecidableEq

/-- The blocks that are open: one block of text or thinking, or all the parallel tool blocks. -/
def ClaudeConvertInfo.openBlocks (info : ClaudeConvertInfo) : List Int :=
  match info.lastMessagesType with
  | .none => []
  | .text | .thinking => [info.index]
  | .tools =>
    (List.range (info.toolCallMaxIndexOffset + 1).toNat).map fun offset : Nat =>
      info.toolCallBaseIndex + offset

/-- The record, and the events appended so far. -/
structure Conv where
  info : ClaudeConvertInfo
  out : List ClaudeResponse := []

namespace Conv

/-- Append events. -/
def emit (es : List ClaudeResponse) (c : Conv) : Conv := { c with out := c.out ++ es }

/-- `stopOpenBlocks`. -/
def stopOpenBlocks (c : Conv) : Conv := c.emit (c.info.openBlocks.map .contentBlockStop)

/-- `stopOpenBlocksAndAdvance`. -/
def stopOpenBlocksAndAdvance (c : Conv) : Conv :=
  match c.info.lastMessagesType with
  | .none => c
  | .text | .thinking =>
    { c.stopOpenBlocks with
      info := { c.info with index := c.info.index + 1, lastMessagesType := .none } }
  | .tools =>
    { c.stopOpenBlocks with
      info := { c.info with
        index := c.info.toolCallBaseIndex + c.info.toolCallMaxIndexOffset + 1
        toolCallBaseIndex := 0
        toolCallMaxIndexOffset := 0
        lastMessagesType := .none } }

/-- The open blocks are stopped, unless the last one is of the type that goes on. -/
def advanceTo (t : LastMessagesType) (c : Conv) : Conv :=
  if c.info.lastMessagesType ≠ t then c.stopOpenBlocksAndAdvance else c

/-- The type of the block that is open. -/
def setType (t : LastMessagesType) (c : Conv) : Conv :=
  { c with info := { c.info with lastMessagesType := t } }

/-- The finish reason of the message. -/
def finishedBy (choice : Choice) (c : Conv) : Conv :=
  { c with info := { c.info with finishReason := choice.finishReason.getD "" } }

/-- Tool blocks are open, from block `base` on. -/
def openTools (base : Int) (c : Conv) : Conv :=
  { c with info := { c.info with
    lastMessagesType := .tools
    toolCallBaseIndex := base
    toolCallMaxIndexOffset := 0 } }

/-- The end of the message, with a `message_delta` where the usage is known. -/
def closeMessage (oaiUsage : Option Usage) (stopReason : String) (c : Conv) : Conv :=
  let delta : List ClaudeResponse := match oaiUsage with
    | some u => [.messageDelta (buildClaudeUsageFromOpenAIUsage u) stopReason]
    | none => []
  { (c.emit delta).emit [.messageStop] with info := { c.info with done := true } }

/-! ### The first chunk -/

/-- The tool call of a first chunk: its block is block 0, and only the first call is sent. -/
def firstToolCall (choice : Choice) (c : Conv) : Conv :=
  match choice.delta.toolCalls with
  | [] => c
  | toolCall :: _ =>
    let c := (c.openTools 0).emit [.contentBlockStart 0 (.toolUse toolCall.id toolCall.name)]
    if toolCall.arguments ≠ "" then
      c.emit [.contentBlockDelta 0 (.inputJsonDelta toolCall.arguments)]
    else c

/-- The content of a first chunk, or its reasoning. -/
def firstContent (choice : Choice) (c : Conv) : Conv :=
  let reasoning := choice.delta.getReasoningContent
  let content := choice.delta.getContentString
  if reasoning ≠ "" then
    let c := c.advanceTo .thinking
    (c.emit [.contentBlockStart c.info.index .thinking,
      .contentBlockDelta c.info.index (.thinkingDelta reasoning)]).setType .thinking
  else if content ≠ "" then
    let c := c.advanceTo .text
    (c.emit [.contentBlockStart c.info.index .text,
      .contentBlockDelta c.info.index (.textDelta content)]).setType .text
  else c

/-- A first chunk that finishes at once. -/
def firstFinish (resp : Chunk) (choice : Choice) (c : Conv) : Conv :=
  if choice.isFinished then
    let c := c.finishedBy choice
    c.stopOpenBlocks.closeMessage (resp.usage <|> c.info.usage)
      (stopReasonOpenAI2Claude c.info.finishReason)
  else c

/-- A first chunk. -/
def first (estimatePromptTokens : Int) (resp : Chunk) (c : Conv) : Conv :=
  let c := c.emit [.messageStart resp.id resp.model estimatePromptTokens]
  match resp.choices with
  | [] => c
  | choice :: _ => ((c.firstToolCall choice).firstContent choice).firstFinish resp choice

/-! ### Later chunks -/

/-- A chunk without choices closes the message once the usage is known. -/
def usageOnly (resp : Chunk) (c : Conv) : Conv :=
  match resp.usage <|> c.info.usage with
  | none => c
  | some u =>
    let stopReason := stopReasonOpenAI2Claude c.info.finishReason
    c.stopOpenBlocks.closeMessage (some u) (if stopReason = "" then "end_turn" else stopReason)

/-- The offset of a tool call among the parallel ones: its index, or its place in the chunk. -/
def offset (p : ToolCall × Nat) : Int := p.1.index.getD p.2

/-- The events of one tool call: a start where it has a name, a delta where it has arguments. -/
def toolCallEvents (base : Int) (p : ToolCall × Nat) : List ClaudeResponse :=
  (if p.1.name ≠ "" then [.contentBlockStart (base + offset p) (.toolUse p.1.id p.1.name)] else []) ++
    if p.1.arguments ≠ "" then
      [.contentBlockDelta (base + offset p) (.inputJsonDelta p.1.arguments)]
    else []

/-- The tool calls of a later chunk. -/
def toolDeltas (toolCalls : List ToolCall) (c : Conv) : Conv :=
  let c :=
    if c.info.lastMessagesType ≠ .tools then
      let c := c.stopOpenBlocksAndAdvance
      c.openTools c.info.index
    else c
  let base := c.info.toolCallBaseIndex
  let maxOffset := toolCalls.zipIdx.foldl (fun m p => max m (offset p)) c.info.toolCallMaxIndexOffset
  { c.emit (toolCalls.zipIdx.flatMap (toolCallEvents base)) with
    info := { c.info with
      toolCallMaxIndexOffset := maxOffset
      index := base + maxOffset } }

/-- A block of text or thinking is started, unless the last one is of its type. -/
def openBlock (t : LastMessagesType) (block : ContentBlock) (c : Conv) : Conv :=
  if c.info.lastMessagesType ≠ t then
    let c := c.stopOpenBlocksAndAdvance
    (c.emit [.contentBlockStart c.info.index block]).setType t
  else c

/-- The deltas of a later chunk: tool calls, else reasoning, else text. -/
def deltas (choice : Choice) (c : Conv) : Conv :=
  let reasoning := choice.delta.getReasoningContent
  let textContent := choice.delta.getContentString
  if choice.delta.toolCalls ≠ [] then c.toolDeltas choice.delta.toolCalls
  else if reasoning ≠ "" then
    let c := c.openBlock .thinking .thinking
    c.emit [.contentBlockDelta c.info.index (.thinkingDelta reasoning)]
  else if textContent ≠ "" then
    let c := c.openBlock .text .text
    c.emit [.contentBlockDelta c.info.index (.textDelta textContent)]
  else c

/-- A later chunk with a choice. -/
def later (resp : Chunk) (choice : Choice) (c : Conv) : Conv :=
  let doneChunk := choice.isFinished
  let c := if doneChunk then c.finishedBy choice else c
  -- the usage may come in a chunk of its own, so closing waits for it; the chunk's deltas do not
  if doneChunk ∧ resp.usage = none then c
  else
    let c := c.deltas choice
    if doneChunk ∨ c.info.done then
      c.stopOpenBlocks.closeMessage (resp.usage <|> c.info.usage)
        (stopReasonOpenAI2Claude c.info.finishReason)
    else c

end Conv

/-- `StreamResponseOpenAI2Claude`. -/
def streamResponseOpenAI2Claude (resp : Chunk) (info : RelayInfo) : List ClaudeResponse × RelayInfo :=
  if info.claudeConvertInfo.done then ([], info)
  else
    let c : Conv := { info := info.claudeConvertInfo }
    let c :=
      if info.sendResponseCount = 1 then c.first info.estimatePromptTokens resp
      else
        match resp.choices with
        | [] => c.usageOnly resp
        | choice :: _ => c.later resp choice
    (c.out, { info with claudeConvertInfo := c.info })

/-- `HandleStreamFormat` for a Claude client: the chunk is counted, its usage is kept, and what it is
converted to is sent. -/
def handleStreamFormat (info : RelayInfo) (resp : Chunk) : List ClaudeResponse × RelayInfo :=
  streamResponseOpenAI2Claude resp
    { info with
      sendResponseCount := info.sendResponseCount + 1
      claudeConvertInfo := { info.claudeConvertInfo with
        usage := resp.usage <|> info.claudeConvertInfo.usage } }

/-- The record after a chunk. -/
def step (info : RelayInfo) (resp : Chunk) : RelayInfo := (handleStreamFormat info resp).2

/-- What is sent for a stream. -/
def sent (info : RelayInfo) : List Chunk → List ClaudeResponse
  | [] => []
  | resp :: rest => (handleStreamFormat info resp).1 ++ sent (step info resp) rest

end NewApi.Stream

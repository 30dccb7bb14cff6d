import NewApi.Stream.Gemini
import Mathlib.Data.List.ReduceOption
import Mathlib.Data.List.Zip

/-!
# Claude's messages for OpenAI's clients

A message of Claude comes whole (`ResponseClaude2OpenAI`) or as a stream of events (`StreamResponseClaude2OpenAI`). The
events of a message are converted one by one, and a client puts the chunks together: texts are joined, and tool calls are
assembled by their index.

The stream sends each text, but only the last text block's text is in the whole response. A tool that is streamed without
input has no arguments, where the whole response has an empty object. So the two agree on just the messages where no text
block but the last has a text and where each tool use has its input streamed (`stream_agrees_iff`).
-/

namespace NewApi.ClaudeToOpenAI

open NewApi.Convert (Json Decoder Failure)
open NewApi.ChatStream (Chunk Choice Delta ToolCallResponse)
open NewApi.GeminiStream (streamChoices toolCallDeltas streamText)

/-! ## Responses -/

/-- `ClaudeMediaMessage`: a block, a delta, or the message that a stream starts with. -/
structure ClaudeMediaMessage where
  type : String := ""
  text : Option String := none
  model : String := ""
  stopReason : Option String := none
  partialJson : Option String := none
  thinking : Option String := none
  id : String := ""
  name : String := ""
  input : Json := .null

/-- `GetText`. -/
def ClaudeMediaMessage.getText (c : ClaudeMediaMessage) : String := c.text.getD ""

/-- `ClaudeResponse`: a whole message, or an event. -/
structure ClaudeResponse where
  id : String := ""
  type : String
  content : List ClaudeMediaMessage := []
  stopReason : String := ""
  model : String := ""
  index : Option Int := none
  contentBlock : Option ClaudeMediaMessage := none
  delta : Option ClaudeMediaMessage := none
  message : Option ClaudeMediaMessage := none

/-- `Message`, of an assistant. -/
structure AssistantMessage where
  role : String := "assistant"
  content : String
  reasoningContent : Option String := none
  toolCalls : Option (List ToolCallResponse) := none

/-- `OpenAITextResponseChoice`. -/
structure TextResponseChoice where
  index : Int := 0
  message : AssistantMessage
  finishReason : String

/-- `OpenAITextResponse`, before its usage is set. -/
structure TextResponse where
  id : String
  object : String := "chat.completion"
  created : Int
  model : String
  choices : List TextResponseChoice

/-- The JSON decoder, and `json.Marshal`. A value that was decoded is the same after it is encoded and decoded again. -/
structure JsonCodec extends Decoder where
  marshal : Json → String
  unmarshal_marshal : ∀ s v, unmarshal s = some v → unmarshal (marshal v) = some v

/-- `ClaudeStopReasonToOpenAIFinishReason`. -/
def stopReasonClaude2OpenAI (stopReason : String) : String :=
  match GoString.toLower stopReason with
  | "stop_sequence" => "stop"
  | "end_turn" => "stop"
  | "max_tokens" => "length"
  | "tool_use" => "tool_calls"
  | "refusal" => "content_filter"
  | _ => stopReason

/-! ## Events -/

/-- A delta of a tool call. -/
def toolCall (fcIdx : Int) (id name arguments : String) : ToolCallResponse :=
  { index := some fcIdx, id, type := some (.string "function"), function := { name, arguments } }

/-- The chunk for an event. A delta with tool calls has no content. -/
def chunk (id model : String) (choice : Choice) (tools : List ToolCallResponse) : Chunk :=
  { id
    object := "chat.completion.chunk"
    model
    choices :=
      [if tools ≠ [] then { choice with delta := { choice.delta with content := none, toolCalls := some tools } }
        else choice] }

/-- `StreamResponseClaude2OpenAI`. There may be no chunk, and an input delta without its JSON panics. -/
def streamResponseClaude2OpenAI (claudeResponse : ClaudeResponse) : Except Failure (Option Chunk) :=
  let fcIdx := claudeResponse.index.getD 0
  match claudeResponse.type with
  | "message_start" =>
    let message := claudeResponse.message
    .ok (some (chunk ((message.map (·.id)).getD "") ((message.map (·.model)).getD claudeResponse.model)
      { delta := { content := some "", role := "assistant" } } []))
  | "content_block_start" =>
    match claudeResponse.contentBlock with
    | none => .ok none
    | some block =>
      .ok (some (chunk "" claudeResponse.model
        { delta := { content := if block.type = "text" then block.text else none } }
        (if block.type = "tool_use" then [toolCall fcIdx block.id block.name ""] else [])))
  | "content_block_delta" =>
    match claudeResponse.delta with
    | none => .ok (some (chunk "" claudeResponse.model {} []))
    | some delta =>
      match delta.type with
      | "input_json_delta" =>
        match delta.partialJson with
        | none => .error .panic
        | some partialJson =>
          .ok (some (chunk "" claudeResponse.model { delta := { content := delta.text } }
            [toolCall fcIdx "" "" partialJson]))
      | "signature_delta" =>
        .ok (some (chunk "" claudeResponse.model
          { delta := { content := delta.text, reasoningContent := some "\n" } } []))
      | "thinking_delta" =>
        .ok (some (chunk "" claudeResponse.model
          { delta := { content := delta.text, reasoningContent := delta.thinking } } []))
      | _ => .ok (some (chunk "" claudeResponse.model { delta := { content := delta.text } } []))
  | "message_delta" =>
    let finishReason := ((claudeResponse.delta.bind (·.stopReason)).map stopReasonClaude2OpenAI).filter (· ≠ "null")
    .ok (some (chunk "" claudeResponse.model { finishReason } []))
  | _ => .ok none

/-- The chunks for the events of a stream. -/
def streamChunks (events : List ClaudeResponse) : Except Failure (List Chunk) := do
  let responses ← events.mapM streamResponseClaude2OpenAI
  .ok responses.reduceOption

/-! ## Whole messages -/

/-- What the loop over the blocks of a message keeps. -/
structure Collected where
  responseText : String
  tools : List ToolCallResponse := []
  thinkingContent : String := ""

section
variable (marshal : Json → String)

/-- The body of the loop. -/
def collect (st : Collected) (message : ClaudeMediaMessage) : Collected :=
  match message.type with
  | "tool_use" =>
    let tool : ToolCallResponse :=
      { id := message.id
        type := some (.string "function")
        function := { name := message.name, arguments := marshal message.input } }
    { st with tools := st.tools ++ [tool] }
  | "thinking" => { st with thinkingContent := message.thinking.getD st.thinkingContent }
  | "text" => { st with responseText := message.getText }
  | _ => st

/-- `ResponseClaude2OpenAI`. -/
def responseClaude2OpenAI (created : Int) (claudeResponse : ClaudeResponse) : TextResponse :=
  let first := claudeResponse.content.head?
  let responseThinking := (first.bind (·.thinking)).getD ""
  let st := claudeResponse.content.foldl (collect marshal) { responseText := (first.map (·.getText)).getD "" }
  let message : AssistantMessage :=
    { content := st.responseText
      reasoningContent :=
        if st.thinkingContent ≠ "" then some st.thinkingContent
        else if responseThinking ≠ "" then some responseThinking else none
      toolCalls := if st.tools ≠ [] then some st.tools else none }
  { id := claudeResponse.id
    created
    model := claudeResponse.model
    choices := [{ message, finishReason := stopReasonClaude2OpenAI claudeResponse.stopReason }] }

end

/-! ## Streams of a message -/

/-- A tool use, and the pieces that its input is streamed in. An empty input may be streamed as no text. -/
structure ToolUseStream (d : Decoder) where
  id : String
  name : String
  pieces : List String
  input : List (String × Json)
  decodes : if String.join pieces = "" then input = [] else d.unmarshal (String.join pieces) = some (.object input)

/-- A block, and how it is streamed: the text that it starts with, and the deltas behind it. Deltas without a text are
citations and signatures. -/
inductive BlockStream (d : Decoder)
  | text (start : String) (deltas : List (Option String))
  | thinking (start : String) (deltas : List (Option String))
  | toolUse (use : ToolUseStream d)

namespace BlockStream

variable {d : Decoder}

/-- The block in the message. -/
def media : BlockStream d → ClaudeMediaMessage
  | .text start deltas => { type := "text", text := some (start ++ String.join deltas.reduceOption) }
  | .thinking start deltas => { type := "thinking", thinking := some (start ++ String.join deltas.reduceOption) }
  | .toolUse use => { type := "tool_use", id := use.id, name := use.name, input := .object use.input }

/-- The block that the stream starts it with. -/
def contentBlock : BlockStream d → ClaudeMediaMessage
  | .text start _ => { type := "text", text := some start }
  | .thinking start _ => { type := "thinking", thinking := some start }
  | .toolUse use => { type := "tool_use", id := use.id, name := use.name, input := .object [] }

def textDelta : Option String → ClaudeMediaMessage
  | some s => { type := "text_delta", text := some s }
  | none => { type := "citations_delta" }

def thinkingDelta : Option String → ClaudeMediaMessage
  | some s => { type := "thinking_delta", thinking := some s }
  | none => { type := "signature_delta" }

def inputDelta (partialJson : String) : ClaudeMediaMessage :=
  { type := "input_json_delta", partialJson := some partialJson }

def deltas : BlockStream d → List ClaudeMediaMessage
  | .text _ deltas => deltas.map textDelta
  | .thinking _ deltas => deltas.map thinkingDelta
  | .toolUse use => use.pieces.map inputDelta

/-- The events of the block with an index. -/
def events (p : BlockStream d × Nat) : List ClaudeResponse :=
  [{ type := "content_block_start", index := some p.2, contentBlock := some p.1.contentBlock }] ++
    (p.1.deltas.map fun delta => { type := "content_block_delta", index := some p.2, delta := some delta }) ++
    [{ type := "content_block_stop", index := some p.2 }]

/-- The text of a text block. -/
def text? : BlockStream d → Option String
  | .text start deltas => some (start ++ String.join deltas.reduceOption)
  | _ => none

def toolUse? : BlockStream d → Option (ToolUseStream d)
  | .toolUse use => some use
  | _ => none

end BlockStream

/-- A message and its stream: its blocks one after another, changes of the message one of which has the stop reason, and
pings anywhere. -/
structure MessageStream (d : Decoder) where
  id : String
  model : String
  blocks : List (BlockStream d)
  stopReason : String
  changes : List (Option String)
  changes_reason : changes.reduceOption = [stopReason]
  events : List ClaudeResponse
  events_eq : (events.filter fun event => event.type ≠ "ping") =
    [{ type := "message_start", message := some { type := "message", id, model } }] ++
      blocks.zipIdx.flatMap BlockStream.events ++
      (changes.map fun stopReason => { type := "message_delta", delta := some { stopReason } }) ++
      [{ type := "message_stop" }]

namespace MessageStream

variable {d : Decoder} (s : MessageStream d)

/-- The whole message. -/
def message : ClaudeResponse :=
  { type := "message", id := s.id, model := s.model, content := s.blocks.map (·.media), stopReason := s.stopReason }

/-- The texts of the text blocks. -/
def texts : List String := s.blocks.filterMap (·.text?)

def toolUses : List (ToolUseStream d) := s.blocks.filterMap (·.toolUse?)

end MessageStream

/-! ## Agreement -/

/-- A tool call that a client has. -/
structure Call where
  id : String
  name : String
  arguments : String

/-- A call has the id and the name of its first delta, and the arguments of all. -/
def assembleCall (deltas : List ((Int × Option Int) × ToolCallResponse))
    (first : (Int × Option Int) × ToolCallResponse) : Call :=
  { id := first.2.id
    name := first.2.function.name
    arguments := String.join ((deltas.filter (·.1 = first.1)).map (·.2.function.arguments)) }

/-- The calls of a stream, one for each index, by their first deltas. -/
def streamCalls (chunks : List Chunk) : List Call :=
  (firstBy Prod.fst [] (toolCallDeltas chunks)).map (assembleCall (toolCallDeltas chunks))

/-- The finish reasons in a stream. -/
def finishReasons (chunks : List Chunk) : List String := (streamChoices chunks).filterMap (·.finishReason)

/-- The same call: the arguments are texts of one value. -/
def SameCall (d : Decoder) (call : Call) (tool : ToolCallResponse) : Prop :=
  call.id = tool.id ∧ call.name = tool.function.name ∧
    ∃ v, d.unmarshal call.arguments = some v ∧ d.unmarshal tool.function.arguments = some v

/-- The chunks for the events say what the response for the message does, and that has all texts of the message. -/
structure Agrees (d : Decoder) (chunks : List Chunk) (message : ClaudeResponse) (choice : TextResponseChoice) : Prop where
  content : streamText chunks = choice.message.content
  texts : ∀ block ∈ message.content, block.type = "text" → ∃ pre post, choice.message.content = pre ++ block.getText ++ post
  toolCalls : List.Forall₂ (SameCall d) (streamCalls chunks) (choice.message.toolCalls.getD [])
  finishReason : (finishReasons chunks).getLast? = some choice.finishReason

/-- A stream is converted, and agrees with the response for its message. -/
def StreamAgrees (codec : JsonCodec) (created : Int) (s : MessageStream codec.toDecoder) : Prop :=
  ∃ chunks, streamChunks s.events = .ok chunks ∧
    ∀ choice ∈ (responseClaude2OpenAI codec.marshal created s.message).choices,
      Agrees codec.toDecoder chunks s.message choice

/-! ## What events say -/

theorem streamChunks_eq_ok_iff {events : List ClaudeResponse} {chunks : List Chunk} : streamChunks events = .ok chunks ↔
    ∃ responses, List.Forall₂ (fun event response => streamResponseClaude2OpenAI event = .ok response) events responses ∧
      responses.reduceOption = chunks := by
  unfold streamChunks
  simp only [← mapM_eq_ok_iff]
  cases events.mapM streamResponseClaude2OpenAI with
  | error e => exact iff_of_false (fun h => (by cases h)) fun ⟨_, h, _⟩ => (by cases h)
  | ok responses =>
    constructor
    · intro h
      exact ⟨responses, rfl, Except.ok.inj h⟩
    · rintro ⟨_, h, rfl⟩
      obtain rfl := Except.ok.inj h
      rfl

/-- The events are converted, to chunks with the text, the deltas of tool calls and the finish reasons. -/
def Says (events : List ClaudeResponse) (text : String) (deltas : List ((Int × Option Int) × ToolCallResponse))
    (reasons : List String) : Prop :=
  ∃ chunks, streamChunks events = .ok chunks ∧
    streamText chunks = text ∧ toolCallDeltas chunks = deltas ∧ finishReasons chunks = reasons

namespace Says

variable {events events' : List ClaudeResponse} {text text' : String}
  {deltas deltas' : List ((Int × Option Int) × ToolCallResponse)} {reasons reasons' : List String}

theorem nil : Says [] "" [] [] := ⟨[], rfl, rfl, rfl, rfl⟩

theorem skip {event : ClaudeResponse} (h : streamResponseClaude2OpenAI event = .ok none) : Says [event] "" [] [] :=
  ⟨[], streamChunks_eq_ok_iff.2 ⟨[none], .cons h .nil, rfl⟩, rfl, rfl, rfl⟩

theorem event {event : ClaudeResponse} {chunk : Chunk} {choice : Choice}
    (h : streamResponseClaude2OpenAI event = .ok (some chunk)) (hchoices : chunk.choices = [choice])
    (htext : choice.delta.getContentString = text)
    (hdeltas : ((choice.delta.toolCalls.getD []).map fun toolCall => ((choice.index, toolCall.index), toolCall)) = deltas)
    (hreasons : choice.finishReason.toList = reasons) : Says [event] text deltas reasons := by
  have hstream : streamChoices [chunk] = [choice] := (List.flatMap_singleton ..).trans hchoices
  refine ⟨[chunk], streamChunks_eq_ok_iff.2 ⟨[some chunk], .cons h .nil, rfl⟩, ?_, ?_, ?_⟩
  · unfold streamText
    rw [hstream, List.map_singleton, String.join_cons]
    exact String.append_empty.trans htext
  · unfold toolCallDeltas
    rw [hstream, List.flatMap_singleton]
    exact hdeltas
  · unfold finishReasons
    rw [hstream, ← hreasons]
    cases hreason : choice.finishReason with
    | none => exact List.filterMap_cons_none hreason
    | some reason => exact List.filterMap_cons_some hreason

theorem append (h : Says events text deltas reasons) (h' : Says events' text' deltas' reasons') :
    Says (events ++ events') (text ++ text') (deltas ++ deltas') (reasons ++ reasons') := by
  obtain ⟨chunks, hchunks, rfl, rfl, rfl⟩ := h
  obtain ⟨chunks', hchunks', rfl, rfl, rfl⟩ := h'
  obtain ⟨responses, hresponses, rfl⟩ := streamChunks_eq_ok_iff.1 hchunks
  obtain ⟨responses', hresponses', rfl⟩ := streamChunks_eq_ok_iff.1 hchunks'
  have hstream : streamChoices (responses.reduceOption ++ responses'.reduceOption) =
      streamChoices responses.reduceOption ++ streamChoices responses'.reduceOption := List.flatMap_append
  refine ⟨_, streamChunks_eq_ok_iff.2 ⟨_, List.rel_append hresponses hresponses', List.reduceOption_append _ _⟩, ?_, ?_, ?_⟩
  · unfold streamText
    rw [hstream, List.map_append, String.join_append]
  · unfold toolCallDeltas
    rw [hstream, List.flatMap_append]
  · unfold finishReasons
    rw [hstream, List.filterMap_append]

theorem flatMap {α : Type} {l : List α} {f : α → List ClaudeResponse} {g : α → String}
    {k : α → List ((Int × Option Int) × ToolCallResponse)} {r : α → List String}
    (h : ∀ a ∈ l, Says (f a) (g a) (k a) (r a)) :
    Says (l.flatMap f) (String.join (l.map g)) (l.flatMap k) (l.flatMap r) := by
  induction l with
  | nil => exact nil
  | cons a l ih =>
    rw [List.flatMap_cons, List.map_cons, List.flatMap_cons, List.flatMap_cons, String.join_cons]
    exact (h a List.mem_cons_self).append (ih fun b hb => h b (List.mem_cons_of_mem _ hb))

theorem map {α : Type} {l : List α} {f : α → ClaudeResponse} {g : α → String}
    {k : α → List ((Int × Option Int) × ToolCallResponse)} (h : ∀ a ∈ l, Says [f a] (g a) (k a) []) :
    Says (l.map f) (String.join (l.map g)) (l.flatMap k) [] := by
  have hall := flatMap (f := fun a => [f a]) (r := fun _ => []) h
  rwa [← List.map_eq_flatMap, List.flatMap_eq_nil_iff.2 fun _ _ => rfl] at hall

theorem of_filter (h : Says (events.filter fun event => event.type ≠ "ping") text deltas reasons) :
    Says events text deltas reasons := by
  obtain ⟨chunks, hchunks, hsays⟩ := h
  refine ⟨chunks, ?_, hsays⟩
  clear hsays
  obtain ⟨responses, hresponses, rfl⟩ := streamChunks_eq_ok_iff.1 hchunks
  clear hchunks
  rw [streamChunks_eq_ok_iff]
  induction events generalizing responses with
  | nil => exact ⟨responses, hresponses, rfl⟩
  | cons event events ih =>
    rw [List.filter_cons] at hresponses
    split at hresponses
    · obtain ⟨response, rest, hresponse, hrest, rfl⟩ := List.forall₂_cons_left_iff.1 hresponses
      obtain ⟨all, hall, heq⟩ := ih rest hrest
      refine ⟨response :: all, .cons hresponse hall, ?_⟩
      cases response with
      | none => exact heq
      | some chunk => exact congrArg (List.cons chunk) heq
    next hping =>
      obtain ⟨all, hall, heq⟩ := ih responses hresponses
      refine ⟨none :: all, .cons ?_ hall, heq⟩
      have htype : event.type = "ping" := not_not.1 (mt decide_eq_true hping)
      unfold streamResponseClaude2OpenAI
      rw [htype]
      rfl

end Says

/-! ## Blocks -/

section
variable {d : Decoder}

/-- The deltas of tool calls that are sent for the start of a block. -/
def BlockStream.startCalls (p : BlockStream d × Nat) : List ((Int × Option Int) × ToolCallResponse) :=
  match p.1 with
  | .toolUse use => [((0, some (p.2 : Int)), toolCall p.2 use.id use.name "")]
  | _ => []

/-- Those that are sent for a delta of the block. -/
def deltaCalls (index : Nat) (delta : ClaudeMediaMessage) : List ((Int × Option Int) × ToolCallResponse) :=
  match delta.partialJson with
  | some partialJson => [((0, some (index : Int)), toolCall index "" "" partialJson)]
  | none => []

def BlockStream.calls (p : BlockStream d × Nat) : List ((Int × Option Int) × ToolCallResponse) :=
  startCalls p ++ p.1.deltas.flatMap (deltaCalls p.2)

theorem says_start (p : BlockStream d × Nat) :
    Says [{ type := "content_block_start", index := some (p.2 : Int), contentBlock := some p.1.contentBlock }]
      p.1.contentBlock.getText (BlockStream.startCalls p) [] := by
  obtain ⟨block, index⟩ := p
  cases block <;> exact Says.event rfl rfl rfl rfl rfl

theorem says_delta {block : BlockStream d} {delta : ClaudeMediaMessage} (index : Nat) (h : delta ∈ block.deltas) :
    Says [{ type := "content_block_delta", index := some (index : Int), delta := some delta }] delta.getText
      (deltaCalls index delta) [] := by
  cases block with
  | toolUse use =>
    obtain ⟨piece, -, rfl⟩ := List.mem_map.1 h
    exact Says.event rfl rfl rfl rfl rfl
  | _ =>
    obtain ⟨o, -, rfl⟩ := List.mem_map.1 h
    cases o <;> exact Says.event rfl rfl rfl rfl rfl

theorem join_map_getD {l : List (Option String)} : String.join (l.map (·.getD "")) = String.join l.reduceOption := by
  induction l with
  | nil => rfl
  | cons o l ih =>
    rw [List.map_cons, String.join_cons, ih]
    cases o with
    | none => exact String.empty_append
    | some s => rw [List.reduceOption_cons_of_some, String.join_cons]; rfl

theorem getText_events (block : BlockStream d) :
    block.contentBlock.getText ++ String.join (block.deltas.map (·.getText)) = block.text?.getD "" := by
  cases block with
  | text start deltas =>
    have hdeltas : ((deltas.map BlockStream.textDelta).map (·.getText)) = deltas.map (·.getD "") := by
      rw [List.map_map]
      exact List.map_congr_left fun o _ => by cases o <;> rfl
    show start ++ String.join ((deltas.map BlockStream.textDelta).map (·.getText)) = start ++ String.join deltas.reduceOption
    rw [hdeltas, join_map_getD]
  | thinking start deltas =>
    refine String.empty_append.trans (GoString.join_eq_empty_iff.2 fun s hs => ?_)
    obtain ⟨delta, hdelta, rfl⟩ := List.mem_map.1 hs
    obtain ⟨o, -, rfl⟩ := List.mem_map.1 hdelta
    cases o <;> rfl
  | toolUse use =>
    refine String.empty_append.trans (GoString.join_eq_empty_iff.2 fun s hs => ?_)
    obtain ⟨delta, hdelta, rfl⟩ := List.mem_map.1 hs
    obtain ⟨piece, -, rfl⟩ := List.mem_map.1 hdelta
    rfl

theorem says_events (p : BlockStream d × Nat) :
    Says (BlockStream.events p) (p.1.text?.getD "") (BlockStream.calls p) [] := by
  have hdeltas := Says.map fun delta (h : delta ∈ p.1.deltas) => says_delta p.2 h
  have hstop : Says [{ type := "content_block_stop", index := some (p.2 : Int) }] "" [] [] := Says.skip rfl
  have hall := ((says_start p).append hdeltas).append hstop
  rwa [String.append_empty, getText_events, List.append_nil] at hall

/-- The finish reason that is sent for a stop reason. -/
def sentReason (stopReason : String) : Option String :=
  (some (stopReasonClaude2OpenAI stopReason)).filter (· ≠ "null")

theorem says_change (stopReason : Option String) : Says [{ type := "message_delta", delta := some { stopReason } }] "" []
    (stopReason.bind sentReason).toList := by
  cases stopReason <;> exact Says.event rfl rfl rfl rfl rfl

theorem says_changes (s : MessageStream d) :
    Says (s.changes.map fun stopReason => { type := "message_delta", delta := some { stopReason } }) "" []
      (sentReason s.stopReason).toList := by
  have hall := Says.flatMap fun change (_ : change ∈ s.changes) => says_change change
  have htexts : String.join (s.changes.map fun _ => "") = "" :=
    GoString.join_eq_empty_iff.2 fun t ht => (List.mem_map.1 ht).elim fun _ h => h.2.symm
  have hreasons : (s.changes.flatMap fun change => (change.bind sentReason).toList) = (sentReason s.stopReason).toList := by
    have hreduced : s.changes.filterMap (fun change => change.bind sentReason) = s.changes.reduceOption.filterMap sentReason :=
      List.filterMap_filterMap.symm
    rw [← List.filterMap_eq_flatMap_toList, hreduced, s.changes_reason, List.filterMap_eq_flatMap_toList,
      List.flatMap_singleton]
  rwa [← List.map_eq_flatMap, htexts, hreasons, List.flatMap_eq_nil_iff.2 fun _ _ => rfl] at hall

theorem says_stream (s : MessageStream d) :
    Says s.events (String.join s.texts) (s.blocks.zipIdx.flatMap BlockStream.calls) (sentReason s.stopReason).toList := by
  have hstart : Says [{ type := "message_start", message := some { type := "message", id := s.id, model := s.model } }]
      "" [] [] := Says.event rfl rfl rfl rfl rfl
  have hblocks := Says.flatMap fun p (_ : p ∈ s.blocks.zipIdx) => says_events p
  have hstop : Says [{ type := "message_stop" }] "" [] [] := Says.skip rfl
  have hall := ((hstart.append hblocks).append (says_changes s)).append hstop
  have htexts : String.join (s.blocks.zipIdx.map fun p => p.1.text?.getD "") = String.join s.texts := by
    have hfst : (s.blocks.zipIdx.map fun p => p.1.text?.getD "") = (s.blocks.map (·.text?)).map (·.getD "") := by
      rw [List.map_map]
      conv_rhs => rw [← List.zipIdx_map_fst 0 s.blocks]
      rw [List.map_map]
      rfl
    rw [hfst, join_map_getD]
    exact congrArg String.join List.filterMap_map
  refine Says.of_filter ?_
  rw [s.events_eq]
  rwa [htexts, List.flatMap_eq_nil_iff.2 fun _ _ => rfl, String.empty_append, String.append_empty, String.append_empty,
    List.nil_append, List.append_nil, List.append_nil, List.nil_append, List.nil_append, List.append_nil] at hall

/-! ## Calls -/

/-- The call that the deltas of a tool use are assembled to. -/
def ToolUseStream.call (use : ToolUseStream d) : Call :=
  { id := use.id, name := use.name, arguments := String.join use.pieces }

theorem key_of_mem_calls {p : BlockStream d × Nat} {delta : (Int × Option Int) × ToolCallResponse}
    (h : delta ∈ BlockStream.calls p) : delta.1 = (0, some (p.2 : Int)) := by
  rcases List.mem_append.1 h with h | h
  · unfold BlockStream.startCalls at h
    split at h
    · rw [List.mem_singleton.1 h]
    · cases h
  · obtain ⟨media, -, h⟩ := List.mem_flatMap.1 h
    unfold deltaCalls at h
    split at h
    · rw [List.mem_singleton.1 h]
    · cases h

theorem calls_toolUse {use : ToolUseStream d} {index : Nat} : BlockStream.calls (.toolUse use, index) =
    ((0, some (index : Int)), toolCall index use.id use.name "") ::
      use.pieces.map fun piece => ((0, some (index : Int)), toolCall index "" "" piece) := by
  refine congrArg (List.cons _) ?_
  show (use.pieces.map BlockStream.inputDelta).flatMap (deltaCalls index) = _
  rw [List.flatMap_map, List.map_eq_flatMap]
  rfl

theorem calls_eq_nil {p : BlockStream d × Nat} (h : p.1.toolUse? = none) : BlockStream.calls p = [] := by
  obtain ⟨block, index⟩ := p
  cases block with
  | toolUse use => cases h
  | _ =>
    refine List.flatMap_eq_nil_iff.2 fun delta hdelta => ?_
    obtain ⟨o, -, rfl⟩ := List.mem_map.1 hdelta
    cases o <;> rfl

theorem head?_calls (p : BlockStream d × Nat) : (BlockStream.calls p).head? =
    p.1.toolUse?.map fun use => ((0, some (p.2 : Int)), toolCall p.2 use.id use.name "") := by
  cases h : p.1.toolUse? with
  | none => rw [calls_eq_nil h]; rfl
  | some use =>
    obtain ⟨block, index⟩ := p
    cases block with
    | toolUse use' =>
      obtain rfl := Option.some.inj h
      rw [calls_toolUse]
      rfl
    | _ => cases h

theorem nodup_keys {blocks : List (BlockStream d)} :
    (blocks.zipIdx.map fun p => ((0 : Int), some (p.2 : Int))).Nodup := by
  have hsnd : (blocks.zipIdx.map fun p => ((0 : Int), some (p.2 : Int))) =
      (blocks.zipIdx.map Prod.snd).map fun i : Nat => ((0 : Int), some (i : Int)) := by
    rw [List.map_map]
    rfl
  rw [hsnd, List.zipIdx_map_snd]
  refine List.Nodup.map (fun i j h => ?_) List.nodup_range'
  exact Int.ofNat_inj.1 (Option.some.inj (Prod.mk.inj h).2)

theorem streamCalls_of_calls {chunks : List Chunk} {blocks : List (BlockStream d)}
    (h : toolCallDeltas chunks = blocks.zipIdx.flatMap BlockStream.calls) :
    streamCalls chunks = (blocks.filterMap (·.toolUse?)).map ToolUseStream.call := by
  have hkey : ∀ p ∈ blocks.zipIdx, ∀ delta ∈ BlockStream.calls p, delta.1 = (0, some (p.2 : Int)) :=
    fun p _ delta => key_of_mem_calls
  have hcall : ∀ p ∈ blocks.zipIdx, ((BlockStream.calls p).head?).map (assembleCall (toolCallDeltas chunks)) =
      p.1.toolUse?.map ToolUseStream.call := by
    intro p hp
    rw [head?_calls]
    obtain ⟨block, index⟩ := p
    cases block with
    | toolUse use =>
      have hdeltas : ((toolCallDeltas chunks).filter fun delta => delta.1 = (0, some (index : Int))) =
          BlockStream.calls (.toolUse use, index) := by
        rw [h]
        exact filter_key_flatMap hkey nodup_keys hp
      have harguments : (BlockStream.calls (.toolUse use, index)).map (·.2.function.arguments) = "" :: use.pieces := by
        rw [calls_toolUse, List.map_cons, List.map_map]
        exact congrArg (List.cons "") (List.map_id use.pieces)
      have hassembled : assembleCall (toolCallDeltas chunks) ((0, some (index : Int)), toolCall index use.id use.name "") =
          use.call := by
        unfold assembleCall ToolUseStream.call
        dsimp only
        rw [hdeltas, harguments, String.join_cons, String.empty_append]
        rfl
      exact congrArg some hassembled
    | _ => rfl
  unfold streamCalls
  rw [h, firstBy_flatMap hkey nodup_keys fun _ _ => List.not_mem_nil, List.map_filterMap, ← h,
    List.filterMap_congr hcall, List.map_filterMap]
  conv_rhs => rw [← List.zipIdx_map_fst 0 blocks, List.filterMap_map]
  rfl

/-! ## Whole messages -/

section
variable {marshal : Json → String} {blocks : List (BlockStream d)} {st : Collected}

/-- The tool call that a tool use is in the response. -/
def ToolUseStream.tool (marshal : Json → String) (use : ToolUseStream d) : ToolCallResponse :=
  { id := use.id
    type := some (.string "function")
    function := { name := use.name, arguments := marshal (.object use.input) } }

theorem filterMap_text {start : String} {deltas : List (Option String)} :
    (.text start deltas :: blocks : List (BlockStream d)).filterMap (·.text?) =
      (start ++ String.join deltas.reduceOption) :: blocks.filterMap (·.text?) := rfl

theorem foldl_collect (st : Collected) :
    ((blocks.map (·.media)).foldl (collect marshal) st).responseText =
      (blocks.filterMap (·.text?)).getLast?.getD st.responseText ∧
    ((blocks.map (·.media)).foldl (collect marshal) st).tools =
      st.tools ++ (blocks.filterMap (·.toolUse?)).map (ToolUseStream.tool marshal) := by
  induction blocks generalizing st with
  | nil => exact ⟨rfl, (List.append_nil _).symm⟩
  | cons block blocks ih =>
    obtain ⟨htext, htools⟩ := ih (collect marshal st block.media)
    rw [List.map_cons, List.foldl_cons, htext, htools]
    cases block with
    | text start deltas =>
      refine ⟨?_, rfl⟩
      rw [filterMap_text, List.getLast?_cons]
      rfl
    | thinking start deltas => exact ⟨rfl, rfl⟩
    | toolUse use => exact ⟨rfl, List.append_assoc ..⟩

theorem getLast?_texts_getD : (blocks.filterMap (·.text?)).getLast?.getD (((blocks.map (·.media)).head?.map (·.getText)).getD "") =
    (blocks.filterMap (·.text?)).getLast?.getD "" := by
  cases blocks with
  | nil => rfl
  | cons block blocks =>
    cases block with
    | text start deltas =>
      rw [filterMap_text, List.getLast?_cons]
      rfl
    | _ => rfl

end

theorem response_choices (marshal : Json → String) (created : Int) (s : MessageStream d) :
    ∃ choice, (responseClaude2OpenAI marshal created s.message).choices = [choice] ∧
      choice.message.content = s.texts.getLast?.getD "" ∧
      choice.message.toolCalls.getD [] = s.toolUses.map (ToolUseStream.tool marshal) ∧
      choice.finishReason = stopReasonClaude2OpenAI s.stopReason := by
  refine ⟨_, rfl, ?_, ?_, rfl⟩
  · exact (foldl_collect _).1.trans getLast?_texts_getD
  · have hgetD : ∀ tools : List ToolCallResponse, (if tools ≠ [] then some tools else none).getD [] = tools := by
      intro tools
      split
      · rfl
      next hnil => exact (not_not.1 hnil).symm
    exact (hgetD _).trans ((foldl_collect _).2.trans (List.nil_append _))

/-! ## Main results -/

/-- A stop reason becomes the text `null` only if it is that text. -/
theorem stopReasonClaude2OpenAI_eq_null_iff {stopReason : String} :
    stopReasonClaude2OpenAI stopReason = "null" ↔ stopReason = "null" := by
  constructor
  · intro h
    unfold stopReasonClaude2OpenAI at h
    split at h
    all_goals first | exact h | exact absurd h (by decide)
  · rintro rfl
    rfl

theorem sentReason_getLast?_iff {stopReason : String} :
    (sentReason stopReason).toList.getLast? = some (stopReasonClaude2OpenAI stopReason) ↔ stopReason ≠ "null" := by
  rw [Ne, ← stopReasonClaude2OpenAI_eq_null_iff]
  unfold sentReason
  rw [Option.filter_some]
  split
  next h => exact iff_of_true rfl (of_decide_eq_true h)
  next h => exact iff_of_false nofun fun hne => h (decide_eq_true hne)

theorem sameCall_iff {codec : JsonCodec} {use : ToolUseStream codec.toDecoder} :
    SameCall codec.toDecoder use.call (use.tool codec.marshal) ↔ String.join use.pieces ≠ "" := by
  have hdecodes := use.decodes
  constructor
  · rintro ⟨-, -, v, hv, -⟩ hempty
    rw [show use.call.arguments = String.join use.pieces from rfl, hempty, codec.unmarshal_empty] at hv
    cases hv
  · intro hne
    rw [if_neg hne] at hdecodes
    exact ⟨rfl, rfl, _, hdecodes, codec.unmarshal_marshal _ _ hdecodes⟩

end

/-- The stream of a message agrees with the response for it just if no text block but the last has a text, the input of
each tool use is streamed, and the stop reason is not the text `null`. -/
theorem stream_agrees_iff (codec : JsonCodec) (created : Int) (s : MessageStream codec.toDecoder) :
    StreamAgrees codec created s ↔
      (∀ text ∈ s.texts.dropLast, text = "") ∧ (∀ use ∈ s.toolUses, String.join use.pieces ≠ "") ∧
        s.stopReason ≠ "null" := by
  obtain ⟨chunks, hchunks, htext, hcalls, hreasons⟩ := says_stream s
  obtain ⟨choice, hchoice, hcontent, htools, hfinish⟩ := response_choices codec.marshal created s
  have hagrees : StreamAgrees codec created s ↔ Agrees codec.toDecoder chunks s.message choice := by
    unfold StreamAgrees
    rw [hchunks, hchoice]
    constructor
    · rintro ⟨_, h, hall⟩
      obtain rfl := Except.ok.inj h
      exact hall choice (List.mem_singleton.2 rfl)
    · intro h
      exact ⟨chunks, rfl, fun c hc => List.mem_singleton.1 hc ▸ h⟩
  have hforall : List.Forall₂ (SameCall codec.toDecoder) (streamCalls chunks) (choice.message.toolCalls.getD []) ↔
      ∀ use ∈ s.toolUses, String.join use.pieces ≠ "" := by
    rw [streamCalls_of_calls hcalls, htools, List.forall₂_map_left_iff, List.forall₂_map_right_iff]
    exact List.forall₂_same.trans (forall₂_congr fun use _ => sameCall_iff)
  have hlast : (finishReasons chunks).getLast? = some choice.finishReason ↔ s.stopReason ≠ "null" := by
    rw [hreasons, hfinish]
    exact sentReason_getLast?_iff
  have hequal : streamText chunks = choice.message.content ↔ ∀ text ∈ s.texts.dropLast, text = "" := by
    rw [htext, hcontent]
    exact GoString.join_eq_getLast_iff
  rw [hagrees, ← hequal, ← hforall, ← hlast]
  refine ⟨fun h => ⟨h.content, h.toolCalls, h.finishReason⟩, fun ⟨hcontent', htoolCalls, hfinish'⟩ =>
    ⟨hcontent', fun media hmedia htype => ?_, htoolCalls, hfinish'⟩⟩
  obtain ⟨block, hblock, rfl⟩ := List.mem_map.1 hmedia
  cases block with
  | text start deltas =>
    rw [← hcontent', htext]
    exact GoString.exists_join_eq_of_mem (List.mem_filterMap.2 ⟨_, hblock, rfl⟩)
  | thinking start deltas => exact absurd htype (show "thinking" ≠ "text" by decide)
  | toolUse use => exact absurd htype (show "tool_use" ≠ "text" by decide)

/-! ## A message that is cut -/

/-- A codec of the empty object. -/
def emptyCodec : JsonCodec where
  unmarshal s := if s = "\x7b\x7d" then some (.object []) else none
  unmarshal_empty := rfl
  marshal _ := "\x7b\x7d"
  unmarshal_marshal s v h := by
    split at h
    · obtain rfl := Option.some.inj h
      rfl
    · cases h

/-- A message with two texts. -/
def twoTexts : MessageStream emptyCodec.toDecoder where
  id := "msg_1"
  model := "claude-sonnet-4"
  blocks := [.text "" [some "Hello, ", some "here is the plan. "], .text "" [some "Done."]]
  stopReason := "end_turn"
  changes := [some "end_turn"]
  changes_reason := rfl
  events :=
    [{ type := "message_start", message := some { type := "message", id := "msg_1", model := "claude-sonnet-4" } },
      { type := "content_block_start", index := some 0, contentBlock := some { type := "text", text := some "" } },
      { type := "ping" },
      { type := "content_block_delta", index := some 0, delta := some { type := "text_delta", text := some "Hello, " } },
      { type := "content_block_delta"
        index := some 0
        delta := some { type := "text_delta", text := some "here is the plan. " } },
      { type := "content_block_stop", index := some 0 },
      { type := "content_block_start", index := some 1, contentBlock := some { type := "text", text := some "" } },
      { type := "content_block_delta", index := some 1, delta := some { type := "text_delta", text := some "Done." } },
      { type := "content_block_stop", index := some 1 },
      { type := "message_delta", delta := some { stopReason := some "end_turn" } },
      { type := "message_stop" }]
  events_eq := rfl

/-- The response has the second text only. -/
theorem first_text_lost : ¬ StreamAgrees emptyCodec 0 twoTexts := by
  rintro ⟨chunks, hchunks, hall⟩
  obtain rfl := Except.ok.inj hchunks
  have hcontent := (hall _ (List.mem_singleton.2 rfl)).content
  exact absurd hcontent (by decide)

end NewApi.ClaudeToOpenAI

import Mathlib.Data.Nat.Pairing
import NewApi.Stream.ClaudeToOpenAI

/-!
# Gemini's streams for OpenAI's clients

`GeminiChatStreamHandler` converts the responses of a stream one by one (`streamResponseGeminiChat2OpenAI`), and a client
puts the chunks together. The tool calls of the first response are sent in two chunks, the names before the arguments.

All calls come out whole, but the finish reason is set by each response with calls, and again by the last one. And where
a response has thoughts, all its texts are sent as such. So a stream is converted well just where its calls are in the
first and the last response, as its finish reason allows it, and no response has thoughts and other texts
(`converts_iff`).
-/

namespace NewApi.GeminiToOpenAI

open NewApi.Convert (Json GeminiInlineData FunctionCall Usage)
open NewApi.ChatStream (Chunk Choice Delta ToolCallResponse RelayInfo StreamHead generateStartEmptyResponse
  generateStopResponse generateFinalUsageResponse)
open NewApi.GeminiStream (streamChoices toolCallDeltas streamText)
open NewApi.ClaudeToOpenAI (Call streamCalls finishReasons assembleCall)

/-! ## Responses -/

/-- `GeminiPartExecutableCode`. -/
structure GeminiPartExecutableCode where
  language : String := ""
  code : String := ""

/-- `GeminiPartCodeExecutionResult`. -/
structure GeminiPartCodeExecutionResult where
  output : String := ""

/-- `GeminiPart`, of a response. -/
structure GeminiPart extends toBase : Convert.GeminiPart where
  thought : Bool := false
  executableCode : Option GeminiPartExecutableCode := none
  codeExecutionResult : Option GeminiPartCodeExecutionResult := none

/-- `GeminiChatCandidate`, with the parts of its content. -/
structure GeminiChatCandidate where
  parts : List GeminiPart
  finishReason : Option String := none
  index : Int := 0

/-- `GeminiChatResponse`. -/
structure GeminiChatResponse where
  candidates : List GeminiChatCandidate

/-! ## A response -/

/-- The finish reason for the one of a candidate. -/
def finishReasonGemini2OpenAI (finishReason : String) : String :=
  match finishReason with
  | "STOP" => "stop"
  | "MAX_TOKENS" => "length"
  | "SAFETY" => "content_filter"
  | "RECITATION" => "content_filter"
  | "BLOCKLIST" => "content_filter"
  | "PROHIBITED_CONTENT" => "content_filter"
  | "SPII" => "content_filter"
  | "OTHER" => "content_filter"
  | _ => "content_filter"

/-- What the loop over the parts of a candidate keeps. -/
structure Collected where
  texts : List String := []
  isTools : Bool := false
  isThought : Bool := false
  toolCalls : List ToolCallResponse := []

/-- The text for an image. -/
def imgText (data : GeminiInlineData) : String :=
  "![image](data:" ++ data.mimeType ++ ";base64," ++ data.data ++ ")"

section
variable (marshal : Json → String)

/-- `getResponseToolCall`, with the id that it generates. -/
def getResponseToolCall (id : String) (call : FunctionCall) : ToolCallResponse :=
  { id
    type := some (.string "function")
    function := { name := call.functionName, arguments := marshal call.arguments } }

/-- The body of the loop. `uuid` gives the ids of the calls, in order. -/
def collectPart (uuid : Nat → String) (st : Collected) (part : GeminiPart) : Collected :=
  match part.inlineData, part.functionCall with
  | some data, _ =>
    if GoString.hasPrefix data.mimeType "image" then { st with texts := st.texts ++ [imgText data] } else st
  | none, some call =>
    let toolCall := getResponseToolCall marshal (uuid st.toolCalls.length) call
    { st with
      isTools := true
      toolCalls := st.toolCalls ++ [{ toolCall with index := some (st.toolCalls.length : Int) }] }
  | none, none =>
    if part.thought then { st with isThought := true, texts := st.texts ++ [part.text] }
    else
      match part.executableCode, part.codeExecutionResult with
      | some code, _ => { st with texts := st.texts ++ ["```" ++ code.language ++ "\n" ++ code.code ++ "\n```\n"] }
      | none, some result => { st with texts := st.texts ++ ["```output\n" ++ result.output ++ "\n```\n"] }
      | none, none => if part.text ≠ "\n" then { st with texts := st.texts ++ [part.text] } else st

/-- The choice for a candidate. The finish reason `STOP` is left to the end. -/
def streamChoice (uuid : Nat → String) (candidate : GeminiChatCandidate) : Choice :=
  let st := candidate.parts.foldl (collectPart marshal uuid) {}
  let text := some (GoString.join '\n' st.texts)
  let toolCalls := if st.toolCalls = [] then none else some st.toolCalls
  { index := candidate.index
    delta := if st.isThought then { reasoningContent := text, toolCalls } else { content := text, toolCalls }
    finishReason :=
      if st.isTools then some "tool_calls"
      else (candidate.finishReason.filter (· ≠ "STOP")).map finishReasonGemini2OpenAI }

/-- `streamResponseGeminiChat2OpenAI`: the chunk, and whether a candidate has stopped. -/
def streamResponseGeminiChat2OpenAI (uuid : Nat → Nat → String) (geminiResponse : GeminiChatResponse) : Chunk × Bool :=
  ({ object := "chat.completion.chunk"
     choices := geminiResponse.candidates.zipIdx.map fun candidate => streamChoice marshal (uuid candidate.2) candidate.1 },
    geminiResponse.candidates.any (·.finishReason = some "STOP"))

end

/-! ## Chunks -/

/-- `IsFinished`. -/
def isFinished (c : Chunk) : Bool := c.choices.head?.any fun choice => choice.finishReason.any (· ≠ "")

/-- `IsToolCall`. -/
def isToolCall (c : Chunk) : Bool := c.choices.head?.any fun choice => choice.delta.toolCalls.any fun toolCalls => 0 < toolCalls.length

/-- A change of all tool calls of a choice. -/
def mapToolCalls (f : ToolCallResponse → ToolCallResponse) (choice : Choice) : Choice :=
  { choice with delta := { choice.delta with toolCalls := choice.delta.toolCalls.map (List.map f) } }

/-- A tool call without all that `ClearToolCalls` clears. -/
def clearToolCall (call : ToolCallResponse) : ToolCallResponse :=
  { call with id := "", type := none, function := { call.function with name := "" } }

/-- `ClearToolCalls`. -/
def clearToolCalls (c : Chunk) : Chunk :=
  if ¬ isToolCall c then c else { c with choices := c.choices.map (mapToolCalls clearToolCall) }

/-! ## The handler -/

/-- The variables of `GeminiChatStreamHandler`, and how many chunks have been sent and responses received. -/
structure HandlerState where
  finishReason : String := "stop"
  toolCallIndexByChoice : Int → String → Option Int := fun _ _ => none
  nextToolCallIndexByChoice : Int → Int := fun _ => 0
  sendResponseCount : Nat := 0
  receivedResponseCount : Nat := 0

/-- The index of a tool call, by its id. -/
def indexToolCall (choiceKey : Int) (st : HandlerState) (tool : ToolCallResponse) : HandlerState × ToolCallResponse :=
  if tool.id = "" then (st, tool)
  else
    match st.toolCallIndexByChoice choiceKey tool.id with
    | some idx => (st, { tool with index := some idx })
    | none =>
      let idx := st.nextToolCallIndexByChoice choiceKey
      ({ st with
         nextToolCallIndexByChoice := Function.update st.nextToolCallIndexByChoice choiceKey (idx + 1)
         toolCallIndexByChoice := Function.update st.toolCallIndexByChoice choiceKey
           (Function.update (st.toolCallIndexByChoice choiceKey) tool.id (some idx)) },
        { tool with index := some idx })

def indexToolCalls (choiceKey : Int) : HandlerState → List ToolCallResponse → HandlerState × List ToolCallResponse
  | st, [] => (st, [])
  | st, tool :: tools =>
    let first := indexToolCall choiceKey st tool
    let rest := indexToolCalls choiceKey first.1 tools
    (rest.1, first.2 :: rest.2)

/-- The indices of the tool calls of all choices. -/
def indexChoices : HandlerState → List Choice → HandlerState × List Choice
  | st, [] => (st, [])
  | st, choice :: choices =>
    let first := indexToolCalls choice.index st (choice.delta.toolCalls.getD [])
    let rest := indexChoices first.1 choices
    (rest.1, { choice with delta.toolCalls := choice.delta.toolCalls.map fun _ => first.2 } :: rest.2)

/-- The chunk that a stream starts with: for tool calls it has all but their arguments. -/
def startResponse (head : StreamHead) (response : Chunk) : Chunk :=
  if isToolCall response then
    let toolCalls := (response.choices.head?.bind (·.delta.toolCalls)).getD []
    head.chunk
      { delta := { role := "assistant", content := some ""
                   toolCalls := some (toolCalls.map fun call => { call with function.arguments := "" }) } }
  else generateStartEmptyResponse head

/-- The first response behind it. -/
def afterStart (response : Chunk) : Chunk :=
  if isToolCall response then
    let cleared := clearToolCalls response
    if isFinished cleared then { cleared with choices := cleared.choices.modifyHead ({ · with finishReason := none }) }
    else cleared
  else response

section
variable (marshal : Json → String) (uuid : Nat → Nat → Nat → String) (head : StreamHead)

/-- The callback of `GeminiChatStreamHandler`: what is sent for a response. -/
def callback (st : HandlerState) (geminiResponse : GeminiChatResponse) : HandlerState × List Chunk :=
  let converted := streamResponseGeminiChat2OpenAI marshal (uuid st.receivedResponseCount) geminiResponse
  let indexed := indexChoices st converted.1.choices
  let response :=
    { converted.1 with id := head.id, created := head.createAt, model := head.model, choices := indexed.2 }
  let isFirst := st.sendResponseCount = 0
  let finishReason := if isFirst ∧ isToolCall response then "tool_calls" else st.finishReason
  let sent :=
    (if isFirst then [startResponse head response, afterStart response] else [response]) ++
      if converted.2 then [generateStopResponse head finishReason] else []
  ({ indexed.1 with
     finishReason
     sendResponseCount := st.sendResponseCount + sent.length
     receivedResponseCount := st.receivedResponseCount + 1 },
    sent)

/-- What is sent for each response. -/
def sentResponses : HandlerState → List GeminiChatResponse → List (List Chunk)
  | _, [] => []
  | st, geminiResponse :: rest =>
    (callback marshal uuid head st geminiResponse).2 ::
      sentResponses (callback marshal uuid head st geminiResponse).1 rest

/-- The chunks that are sent: for each response, and in the end. -/
structure Sent where
  responses : List (List Chunk)
  final : List Chunk

def Sent.chunks (sent : Sent) : List Chunk := sent.responses.flatten ++ sent.final

/-- `GeminiChatStreamHandler`, for a channel without `ThinkingToContent`. `usage` is what `geminiStreamHandler` returns. -/
def geminiChatStreamHandler (info : RelayInfo) (usage : Usage) (stream : List GeminiChatResponse) : Sent where
  responses := sentResponses marshal uuid head {} stream
  final :=
    if info.shouldIncludeUsage then
      [generateFinalUsageResponse { responseId := head.id, createAt := head.createAt, model := head.model } usage]
    else []

end

/-! ## Streams of one candidate -/

namespace GeminiPart

variable (part : GeminiPart)

/-- The call of a part. -/
def call? : Option FunctionCall := if part.inlineData.isSome then none else part.functionCall

/-- The thought of a part. -/
def reasoning? : Option String :=
  if part.inlineData.isSome ∨ part.functionCall.isSome ∨ ¬ part.thought then none else some part.text

/-- The text of a part that is no thought: a text, or what stands for an image or for code. -/
def content? : Option String :=
  match part.inlineData with
  | some data => if GoString.hasPrefix data.mimeType "image" then some (imgText data) else none
  | none =>
    if part.functionCall.isSome ∨ part.thought then none
    else
      match part.executableCode, part.codeExecutionResult with
      | some code, _ => some ("```" ++ code.language ++ "\n" ++ code.code ++ "\n```\n")
      | none, some result => some ("```output\n" ++ result.output ++ "\n```\n")
      | none, none => some part.text

end GeminiPart

/-- The ids that are generated: none is empty, and they are distinct. -/
structure CallIds where
  id : Nat → Nat → Nat → String
  ne_empty : ∀ i j k, id i j k ≠ ""
  injective : ∀ i j k i' j' k', id i j k = id i' j' k' → i = i' ∧ j = j' ∧ k = k'

/-- A stream of responses with one candidate each, the last of which has a finish reason. -/
structure CandidateStream where
  init : List (List GeminiPart)
  last : List GeminiPart
  finishReason : String

namespace CandidateStream

variable (s : CandidateStream)

/-- The parts of the responses. -/
def parts : List (List GeminiPart) := s.init ++ [s.last]

def responses : List GeminiChatResponse :=
  s.init.map (fun parts => { candidates := [{ parts }] }) ++
    [{ candidates := [{ parts := s.last, finishReason := some s.finishReason }] }]

/-- The calls of the stream. -/
def calls : List FunctionCall := s.parts.flatten.filterMap (·.call?)

end CandidateStream

/-- A text is the pieces one after another, up to line breaks between them and pieces that are a line break and left
out. -/
inductive Spaced : List String → String → Prop
  | nil : Spaced [] ""
  | cons (piece : String) {pieces : List String} {s : String} : Spaced pieces s → Spaced (piece :: pieces) (piece ++ s)
  | lineBreak (piece : String) {next : String} {pieces : List String} {s : String} :
    Spaced (next :: pieces) s → Spaced (piece :: next :: pieces) (piece ++ "\n" ++ s)
  | leftOut {pieces : List String} {s : String} : Spaced pieces s → Spaced ("\n" :: pieces) s

/-- The reasoning of a stream. -/
def streamReasoning (chunks : List Chunk) : String :=
  String.join ((streamChoices chunks).map (·.delta.getReasoningContent))

/-- The chunks that are sent for a response have its thoughts as reasoning and its other texts as content. -/
def CarriesTexts (parts : List GeminiPart) (chunks : List Chunk) : Prop :=
  Spaced (parts.map (·.content?.getD "")) (streamText chunks) ∧
    Spaced (parts.map (·.reasoning?.getD "")) (streamReasoning chunks)

/-- A chunk that carries neither texts nor calls. -/
def Silent (chunk : Chunk) : Prop := ∀ choice ∈ chunk.choices,
  choice.delta.getContentString = "" ∧ choice.delta.getReasoningContent = "" ∧ choice.delta.toolCalls.getD [] = []

/-- Nothing is carried behind a finish reason. -/
def FinishLast (chunks : List Chunk) : Prop := ∀ pre chunk post, chunks = pre ++ chunk :: post →
  (∃ choice ∈ chunk.choices, choice.finishReason.isSome) → ∀ later ∈ post, Silent later

/-- The stream is converted: its texts come in their order, each of its calls is assembled from the deltas with one
index, and the finish reason comes once, behind all that. -/
structure Converts (marshal : Json → String) (s : CandidateStream) (sent : Sent) : Prop where
  texts : List.Forall₂ CarriesTexts s.parts sent.responses
  indices : ∀ delta ∈ toolCallDeltas sent.chunks, delta.1.2.isSome
  calls : (streamCalls sent.chunks).map (fun call => (call.name, call.arguments)) =
    s.calls.map fun call => (call.functionName, marshal call.arguments)
  finishReason : finishReasons sent.chunks =
    [if s.calls = [] then finishReasonGemini2OpenAI s.finishReason else "tool_calls"]
  finishLast : FinishLast sent.chunks

/-- The response has calls. -/
def HasCalls (parts : List GeminiPart) : Prop := ∃ part ∈ parts, part.call?.isSome

/-- The condition on the calls of a stream, for its finish reason. -/
def CandidateStream.CallsFit (s : CandidateStream) : Prop :=
  match s.init with
  | [] => s.finishReason = "STOP" ∨ ¬ HasCalls s.last
  | first :: middle =>
    (∀ parts ∈ middle, ¬ HasCalls parts) ∧
      if s.finishReason = "STOP" then ¬ HasCalls s.last else HasCalls s.last ∨ ¬ HasCalls first

/-- The condition on the texts of a response: besides thoughts there are only empty texts and line breaks. -/
def TextsFit (parts : List GeminiPart) : Prop :=
  (∃ part ∈ parts, part.reasoning?.isSome) → ∀ part ∈ parts, ∀ text ∈ part.content?, text = "" ∨ text = "\n"

/-! ## A candidate -/

/-- What the loop takes of a part. -/
def GeminiPart.kept? (part : GeminiPart) : Option String := part.reasoning?.or (part.content?.filter (· ≠ "\n"))

section
variable {marshal : Json → String} {uuid : Nat → String} {parts : List GeminiPart} {part : GeminiPart}

theorem append_ne_lineBreak {a s : String} (h : 2 ≤ a.length) : a ++ s ≠ "\n" := by
  intro heq
  have hlen := congrArg String.length heq
  rw [String.length_append] at hlen
  have hone : "\n".length = 1 := rfl
  omega

theorem collectPart_eq (st : Collected) : collectPart marshal uuid st part =
    { texts := st.texts ++ part.kept?.toList
      isTools := st.isTools || part.call?.isSome
      isThought := st.isThought || part.reasoning?.isSome
      toolCalls := st.toolCalls ++ part.call?.toList.map fun call =>
        { getResponseToolCall marshal (uuid st.toolCalls.length) call with index := some (st.toolCalls.length : Int) } } := by
  unfold collectPart GeminiPart.kept? GeminiPart.call? GeminiPart.reasoning? GeminiPart.content?
  cases hinline : part.inlineData with
  | some data =>
    have himg : imgText data ≠ "\n" := by
      unfold imgText
      rw [String.append_assoc, String.append_assoc, String.append_assoc]
      exact append_ne_lineBreak (by decide)
    by_cases himage : GoString.hasPrefix data.mimeType "image" = true <;> simp [himage, himg, Option.filter_some]
  | none =>
    cases hcall : part.functionCall with
    | some call => simp
    | none =>
      cases hthought : part.thought with
      | true => simp
      | false =>
        cases hcode : part.executableCode with
        | some code =>
          have hne : "```" ++ code.language ++ "\n" ++ code.code ++ "\n```\n" ≠ "\n" := by
            rw [String.append_assoc, String.append_assoc, String.append_assoc]
            exact append_ne_lineBreak (by decide)
          simp [hne, Option.filter_some]
        | none =>
          cases hresult : part.codeExecutionResult with
          | some result =>
            have hne : "```output\n" ++ result.output ++ "\n```\n" ≠ "\n" := by
              rw [String.append_assoc]
              exact append_ne_lineBreak (by decide)
            simp [hne, Option.filter_some]
          | none => by_cases htext : part.text = "\n" <;> simp [htext, Option.filter_some]

theorem foldl_collectPart : parts.foldl (collectPart marshal uuid) {} =
    { texts := parts.filterMap (·.kept?)
      isTools := parts.any (·.call?.isSome)
      isThought := parts.any (·.reasoning?.isSome)
      toolCalls := (parts.filterMap (·.call?)).mapIdx fun k call =>
        { getResponseToolCall marshal (uuid k) call with index := some (k : Int) } } := by
  induction parts using List.reverseRecOn with
  | nil => rfl
  | append_singleton parts part ih =>
    rw [List.foldl_concat, ih, collectPart_eq]
    cases hkept : part.kept? <;> cases hcall : part.call? <;>
      simp [List.filterMap_append, List.mapIdx_append, hkept, hcall]

theorem Spaced.of_eq_empty {pieces : List String} {s : String} (h : Spaced pieces s) (hs : s = "") :
    ∀ piece ∈ pieces, piece = "" ∨ piece = "\n" := by
  induction h with
  | nil => exact nofun
  | cons piece _ ih =>
    obtain ⟨hpiece, hrest⟩ := String.append_eq_empty_iff.1 hs
    exact List.forall_mem_cons.2 ⟨.inl hpiece, ih hrest⟩
  | lineBreak piece _ _ =>
    obtain ⟨hpiece, -⟩ := String.append_eq_empty_iff.1 hs
    exact absurd (String.append_eq_empty_iff.1 hpiece).2 (by decide)
  | leftOut _ ih => exact List.forall_mem_cons.2 ⟨.inr rfl, ih hs⟩

theorem spaced_empty_iff {pieces : List String} : Spaced pieces "" ↔ ∀ piece ∈ pieces, piece = "" ∨ piece = "\n" := by
  constructor
  · exact fun h => h.of_eq_empty rfl
  · intro h
    induction pieces with
    | nil => exact .nil
    | cons piece pieces ih =>
      obtain ⟨hpiece, hpieces⟩ := List.forall_mem_cons.1 h
      rcases hpiece with rfl | rfl
      · exact .cons "" (ih hpieces)
      · exact .leftOut (ih hpieces)

theorem spaced_join {α : Type*} {piece : α → String} {kept : α → Option String} {l : List α}
    (h : ∀ a ∈ l, kept a = some (piece a) ∨ kept a = none ∧ (piece a = "" ∨ piece a = "\n")) :
    Spaced (l.map piece) (GoString.join '\n' (l.filterMap kept)) := by
  induction l with
  | nil => exact .nil
  | cons a l ih =>
    obtain ⟨ha, hl⟩ := List.forall_mem_cons.1 h
    have hrest := ih hl
    rcases ha with hkept | ⟨hkept, hempty | hbreak⟩
    · rw [List.map_cons, List.filterMap_cons_some hkept]
      by_cases hnil : l.filterMap kept = []
      · rw [hnil, GoString.join_singleton]
        have hcons := hrest.cons (piece a)
        have hjoin : GoString.join '\n' [] = "" := rfl
        rwa [hnil, hjoin, String.append_empty] at hcons
      · have hjoin : GoString.join '\n' (piece a :: l.filterMap kept) =
            piece a ++ "\n" ++ GoString.join '\n' (l.filterMap kept) := String.intercalate_cons_of_ne_nil hnil
        rw [hjoin]
        cases l with
        | nil => exact absurd rfl hnil
        | cons b l => exact hrest.lineBreak (piece a)
    · rw [List.map_cons, List.filterMap_cons_none hkept, hempty]
      simpa using hrest.cons ""
    · rw [List.map_cons, List.filterMap_cons_none hkept, hbreak]
      exact hrest.leftOut

/-- The content that is sent for the parts. -/
def contentText (parts : List GeminiPart) : String :=
  if parts.any (·.reasoning?.isSome) then "" else GoString.join '\n' (parts.filterMap (·.kept?))

/-- The reasoning that is sent for them. -/
def reasoningText (parts : List GeminiPart) : String :=
  if parts.any (·.reasoning?.isSome) then GoString.join '\n' (parts.filterMap (·.kept?)) else ""

/-- The texts that are sent for the parts come as what they are just where they meet their condition. -/
theorem spaced_texts_iff :
    Spaced (parts.map (·.content?.getD "")) (contentText parts) ∧
      Spaced (parts.map (·.reasoning?.getD "")) (reasoningText parts) ↔ TextsFit parts := by
  unfold TextsFit contentText reasoningText
  by_cases hthought : ∃ part ∈ parts, part.reasoning?.isSome
  · rw [if_pos (List.any_eq_true.2 hthought), if_pos (List.any_eq_true.2 hthought), forall_prop_of_true hthought,
      spaced_empty_iff]
    have hpieces : (∀ piece ∈ parts.map (·.content?.getD ""), piece = "" ∨ piece = "\n") ↔
        ∀ part ∈ parts, ∀ text ∈ part.content?, text = "" ∨ text = "\n" := by
      rw [List.forall_mem_map]
      refine forall₂_congr fun part _ => ?_
      cases part.content? <;> simp
    rw [hpieces]
    refine and_iff_left_of_imp fun hfit => spaced_join fun part hpart => ?_
    unfold GeminiPart.kept?
    cases hreasoning : part.reasoning? with
    | some text => exact .inl rfl
    | none =>
      cases hcontent : part.content? with
      | none => exact .inr ⟨rfl, .inl rfl⟩
      | some text =>
        rcases hfit part hpart text hcontent with rfl | rfl
        · exact .inl rfl
        · exact .inr ⟨rfl, .inl rfl⟩
  · have hany : ¬ parts.any (·.reasoning?.isSome) = true := mt List.any_eq_true.1 hthought
    rw [if_neg hany, if_neg hany]
    refine iff_of_true ⟨spaced_join fun part hpart => ?_, spaced_empty_iff.2 ?_⟩ fun h => absurd h hthought
    · have hnone : part.reasoning? = none := by
        simpa using fun hsome => hthought ⟨part, hpart, hsome⟩
      unfold GeminiPart.kept?
      rw [hnone, Option.none_or]
      cases hcontent : part.content? with
      | none => exact .inr ⟨rfl, .inl rfl⟩
      | some text =>
        by_cases hbreak : text = "\n"
        · rw [hbreak]
          exact .inr ⟨rfl, .inr rfl⟩
        · exact .inl (by simp [Option.filter_some, hbreak])
    · rw [List.forall_mem_map]
      intro part hpart
      have hnone : part.reasoning? = none := by
        simpa using fun hsome => hthought ⟨part, hpart, hsome⟩
      rw [hnone]
      exact .inl rfl

end

/-! ## A response of a stream -/

/-- The calls among parts. -/
def callsOf (parts : List GeminiPart) : List FunctionCall := parts.filterMap (·.call?)

/-- The tool calls that are sent for a response, the `i`-th one, with indices from `n` on. -/
def sentCalls (marshal : Json → String) (ids : CallIds) (i n : Nat) (parts : List GeminiPart) : List ToolCallResponse :=
  (callsOf parts).mapIdx fun k call =>
    { getResponseToolCall marshal (ids.id i 0 k) call with index := some ((n + k : Nat) : Int) }

/-- The choice that is sent for it. -/
def sentChoice (marshal : Json → String) (ids : CallIds) (i n : Nat) (parts : List GeminiPart)
    (finishReason : Option String) : Choice :=
  { streamChoice marshal (ids.id i 0) { parts, finishReason } with
    delta.toolCalls := if callsOf parts = [] then none else some (sentCalls marshal ids i n parts) }

/-- The handler has received `i` responses, and given out `n` indices. -/
structure Ready (ids : CallIds) (st : HandlerState) (i n : Nat) : Prop where
  received : st.receivedResponseCount = i
  next : st.nextToolCallIndexByChoice 0 = n
  fresh : ∀ j k, i ≤ j → st.toolCallIndexByChoice 0 (ids.id j 0 k) = none
  first : st.sendResponseCount = 0 ↔ i = 0

section
variable {marshal : Json → String} {ids : CallIds} {head : StreamHead} {st : HandlerState} {i n : Nat}
  {parts : List GeminiPart} {finishReason : Option String}

theorem hasCalls_iff : HasCalls parts ↔ callsOf parts ≠ [] := by
  unfold HasCalls callsOf
  rw [Ne, List.filterMap_eq_nil_iff]
  simp [Option.isSome_iff_ne_none]

theorem sentCalls_eq_nil_iff : sentCalls marshal ids i n parts = [] ↔ callsOf parts = [] :=
  List.mapIdx_eq_nil_iff

/-- Tool calls with new ids get the next indices, in order. -/
theorem indexToolCalls_spec (tools : List ToolCallResponse) (hnext : st.nextToolCallIndexByChoice 0 = n)
    (hne : ∀ tool ∈ tools, tool.id ≠ "") (hnodup : (tools.map (·.id)).Nodup)
    (hfresh : ∀ tool ∈ tools, st.toolCallIndexByChoice 0 tool.id = none) :
    (indexToolCalls 0 st tools).2 = tools.mapIdx (fun k tool => { tool with index := some ((n + k : Nat) : Int) }) ∧
      (indexToolCalls 0 st tools).1.nextToolCallIndexByChoice 0 = (n + tools.length : Nat) ∧
      ∀ id ∉ tools.map (·.id), (indexToolCalls 0 st tools).1.toolCallIndexByChoice 0 id =
        st.toolCallIndexByChoice 0 id := by
  induction tools generalizing st n with
  | nil => exact ⟨rfl, hnext, fun _ _ => rfl⟩
  | cons tool tools ih =>
    obtain ⟨hne, hnes⟩ := List.forall_mem_cons.1 hne
    obtain ⟨hfresh, hfreshs⟩ := List.forall_mem_cons.1 hfresh
    rw [List.map_cons, List.nodup_cons] at hnodup
    have hfirst : indexToolCall 0 st tool =
        ({ st with
           nextToolCallIndexByChoice := Function.update st.nextToolCallIndexByChoice 0 ((n + 1 : Nat) : Int)
           toolCallIndexByChoice := Function.update st.toolCallIndexByChoice 0
             (Function.update (st.toolCallIndexByChoice 0) tool.id (some n)) },
          { tool with index := some (n : Int) }) := by
      unfold indexToolCall
      rw [if_neg hne, hfresh]
      simp [hnext]
    unfold indexToolCalls
    rw [hfirst]
    have hnext' : (indexToolCall 0 st tool).1.nextToolCallIndexByChoice 0 = (n + 1 : Nat) := by
      simp [hfirst]
    obtain ⟨htools, hnext', hmap⟩ := ih hnext' hnes hnodup.2
      fun other hother => by
        have hid : other.id ≠ tool.id := fun heq => hnodup.1 (heq ▸ List.mem_map_of_mem hother)
        simp [hfirst, hid, hfreshs other hother]
    rw [hfirst] at htools hnext' hmap
    refine ⟨?_, ?_, fun id hid => ?_⟩
    · dsimp only
      rw [htools, List.mapIdx_cons]
      simp [Nat.add_assoc, Nat.add_comm 1]
    · dsimp only
      rw [hnext', List.length_cons, Nat.add_assoc, Nat.add_comm 1]
    · rw [List.map_cons, List.mem_cons, not_or] at hid
      dsimp only
      rw [hmap id hid.2]
      simp [hid.1]

theorem nodup_ids {f : Nat → FunctionCall → ToolCallResponse} {calls : List FunctionCall}
    (hid : ∀ k call, (f k call).id = ids.id i 0 k) : ((calls.mapIdx f).map (·.id)).Nodup := by
  have hrange : (calls.mapIdx f).map (·.id) = (List.range calls.length).map (ids.id i 0) :=
    List.ext_getElem (by simp) fun k _ _ => by simp [hid]
  rw [hrange]
  exact List.nodup_range.map fun k k' heq => (ids.injective i 0 k i 0 k' heq).2.2

/-- The choice of a candidate, once its tool calls have their indices. -/
theorem indexChoices_streamChoice (marshal : Json → String) (parts : List GeminiPart) (finishReason : Option String)
    (h : Ready ids st i n) :
    (indexChoices st [streamChoice marshal (ids.id i 0) { parts, finishReason }]).2 =
        [sentChoice marshal ids i n parts finishReason] ∧
      (indexChoices st [streamChoice marshal (ids.id i 0) { parts, finishReason }]).1.nextToolCallIndexByChoice 0 =
        (n + (callsOf parts).length : Nat) ∧
      ∀ j k, i < j → (indexChoices st [streamChoice marshal (ids.id i 0) { parts, finishReason }]).1.toolCallIndexByChoice 0
        (ids.id j 0 k) = none := by
  set tools : List ToolCallResponse := (callsOf parts).mapIdx fun k call =>
    { getResponseToolCall marshal (ids.id i 0 k) call with index := some (k : Int) } with htools
  have hid : ∀ tool ∈ tools, ∃ k, tool.id = ids.id i 0 k := by
    intro tool htool
    obtain ⟨k, -, rfl⟩ := List.mem_mapIdx.1 htool
    exact ⟨k, rfl⟩
  have hnil : tools = [] ↔ callsOf parts = [] := List.mapIdx_eq_nil_iff
  have hcalls : (streamChoice marshal (ids.id i 0) { parts, finishReason }).delta.toolCalls =
      if tools = [] then none else some tools := by
    unfold streamChoice
    rw [foldl_collectPart]
    dsimp only
    split <;> rfl
  have hgetD : (streamChoice marshal (ids.id i 0) { parts, finishReason }).delta.toolCalls.getD [] = tools := by
    rw [hcalls]
    split
    next hnil => exact hnil.symm
    next => rfl
  obtain ⟨hindexed, hnext, hmap⟩ := indexToolCalls_spec tools h.next
    (fun tool htool => by
      obtain ⟨k, hk⟩ := hid tool htool
      rw [hk]
      exact ids.ne_empty i 0 k)
    (nodup_ids fun _ _ => rfl)
    (fun tool htool => by
      obtain ⟨k, hk⟩ := hid tool htool
      rw [hk]
      exact h.fresh i k le_rfl)
  have hsent : (indexToolCalls 0 st tools).2 = sentCalls marshal ids i n parts := by
    rw [hindexed, htools, List.mapIdx_mapIdx]
    rfl
  have hlen : tools.length = (callsOf parts).length := List.length_mapIdx
  have hone : indexChoices st [streamChoice marshal (ids.id i 0) { parts, finishReason }] =
      ((indexToolCalls 0 st tools).1, [sentChoice marshal ids i n parts finishReason]) := by
    have hindex : (streamChoice marshal (ids.id i 0) { parts, finishReason }).index = 0 := rfl
    unfold indexChoices indexChoices sentChoice
    rw [hgetD, hindex, hcalls, ← hsent]
    by_cases hempty : callsOf parts = []
    · rw [if_pos (hnil.2 hempty), if_pos hempty]
      rfl
    · rw [if_neg (mt hnil.1 hempty), if_neg hempty]
      rfl
  rw [hone]
  refine ⟨rfl, hnext.trans (by rw [hlen]), fun j k hj => ?_⟩
  · rw [hmap _ fun hmem => ?_]
    · exact h.fresh j k hj.le
    · obtain ⟨tool, htool, heq⟩ := List.mem_map.1 hmem
      obtain ⟨k', hk'⟩ := hid tool htool
      exact hj.ne' (ids.injective j 0 k i 0 k' (heq.symm.trans hk')).1

theorem isToolCall_sentChoice : isToolCall (head.chunk (sentChoice marshal ids i n parts finishReason)) = true ↔
    callsOf parts ≠ [] := by
  unfold isToolCall StreamHead.chunk sentChoice
  by_cases h : callsOf parts = [] <;> simp [h, sentCalls, List.length_pos_iff]

/-- A tool call without its arguments. -/
def clearArguments (call : ToolCallResponse) : ToolCallResponse :=
  { call with function := { call.function with arguments := "" } }

/-- The choices of the chunks that are sent for the response, where a stop is told with `stop`. -/
def sentGroup (marshal : Json → String) (ids : CallIds) (i n : Nat) (parts : List GeminiPart)
    (finishReason : Option String) (stop : String) : List Choice :=
  let choice := sentChoice marshal ids i n parts finishReason
  (if i ≠ 0 then [choice]
  else if callsOf parts = [] then [{ delta := { role := "assistant", content := some "" } }, choice]
  else
    [{ delta := { role := "assistant", content := some ""
                  toolCalls := some ((sentCalls marshal ids i n parts).map clearArguments) } },
      { mapToolCalls clearToolCall choice with finishReason := none }]) ++
    if finishReason = some "STOP" then [{ finishReason := some stop }] else []

theorem sentChoice_spec (marshal : Json → String) (ids : CallIds) (i n : Nat) (parts : List GeminiPart)
    (finishReason : Option String) :
    (sentChoice marshal ids i n parts finishReason).delta.getContentString = contentText parts ∧
    (sentChoice marshal ids i n parts finishReason).delta.getReasoningContent = reasoningText parts ∧
    (sentChoice marshal ids i n parts finishReason).finishReason =
      if callsOf parts = [] then (finishReason.filter (· ≠ "STOP")).map finishReasonGemini2OpenAI
      else some "tool_calls" := by
  have htools : parts.any (·.call?.isSome) = true ↔ callsOf parts ≠ [] := by
    rw [← hasCalls_iff, List.any_eq_true]
    rfl
  unfold sentChoice streamChoice contentText reasoningText
  simp only [foldl_collectPart, htools]
  refine ⟨?_, ?_, ?_⟩
  · split <;> rfl
  · split <;> rfl
  · split <;> simp_all

theorem startResponse_sentChoice : startResponse head (head.chunk (sentChoice marshal ids i n parts finishReason)) =
    head.chunk { delta := { role := "assistant", content := some ""
                            toolCalls := if callsOf parts = [] then none
                              else some ((sentCalls marshal ids i n parts).map clearArguments) } } := by
  unfold startResponse
  by_cases h : callsOf parts = []
  · rw [if_neg (not_not.2 h ∘ isToolCall_sentChoice.1), if_pos h]
    rfl
  · rw [if_pos (isToolCall_sentChoice.2 h), if_neg h]
    simp [StreamHead.chunk, sentChoice, h, clearArguments]

theorem afterStart_sentChoice : afterStart (head.chunk (sentChoice marshal ids i n parts finishReason)) =
    head.chunk (if callsOf parts = [] then sentChoice marshal ids i n parts finishReason
      else { mapToolCalls clearToolCall (sentChoice marshal ids i n parts finishReason) with finishReason := none }) := by
  unfold afterStart
  by_cases h : callsOf parts = []
  · rw [if_neg (not_not.2 h ∘ isToolCall_sentChoice.1), if_pos h]
  · have htool : isToolCall (head.chunk (sentChoice marshal ids i n parts finishReason)) = true :=
      isToolCall_sentChoice.2 h
    have hreason : (sentChoice marshal ids i n parts finishReason).finishReason = some "tool_calls" :=
      (sentChoice_spec marshal ids i n parts finishReason).2.2.trans (if_neg h)
    rw [if_pos htool, if_neg h]
    unfold clearToolCalls
    rw [if_neg (not_not.2 htool)]
    simp [isFinished, StreamHead.chunk, mapToolCalls, hreason]

theorem callback_spec (marshal : Json → String) (head : StreamHead) (parts : List GeminiPart)
    (finishReason : Option String) (h : Ready ids st i n) :
    (callback marshal ids.id head st { candidates := [{ parts, finishReason }] }).2 =
        (sentGroup marshal ids i n parts finishReason
          (callback marshal ids.id head st { candidates := [{ parts, finishReason }] }).1.finishReason).map head.chunk ∧
      (callback marshal ids.id head st { candidates := [{ parts, finishReason }] }).1.finishReason =
        (if i = 0 ∧ callsOf parts ≠ [] then "tool_calls" else st.finishReason) ∧
      Ready ids (callback marshal ids.id head st { candidates := [{ parts, finishReason }] }).1 (i + 1)
        (n + (callsOf parts).length) := by
  obtain ⟨hchoices, hnext, hfresh⟩ := indexChoices_streamChoice marshal parts finishReason h
  have hconverted : streamResponseGeminiChat2OpenAI marshal (ids.id i) { candidates := [{ parts, finishReason }] } =
      ({ object := "chat.completion.chunk"
         choices := [streamChoice marshal (ids.id i 0) { parts, finishReason }] },
        decide (finishReason = some "STOP")) := Prod.ext rfl (Bool.or_false _)
  have htool : isToolCall (head.chunk (sentChoice marshal ids i n parts finishReason)) = true ↔ callsOf parts ≠ [] :=
    isToolCall_sentChoice
  unfold callback
  rw [h.received, hconverted]
  dsimp only
  generalize indexChoices st _ = indexed at hchoices hnext hfresh ⊢
  obtain ⟨st', choices⟩ := indexed
  dsimp only at hchoices hnext hfresh ⊢
  subst hchoices
  have hchunk : ({ id := head.id, object := "chat.completion.chunk", created := head.createAt, model := head.model
                   choices := [sentChoice marshal ids i n parts finishReason] } : Chunk) =
      head.chunk (sentChoice marshal ids i n parts finishReason) := rfl
  simp only [hchunk, h.first, htool, decide_eq_true_eq]
  refine ⟨?_, trivial, rfl, hnext, fun j k hj => hfresh j k hj, ?_⟩
  · unfold sentGroup
    rw [startResponse_sentChoice, afterStart_sentChoice, List.map_append]
    congr 1
    · by_cases hi : i = 0 <;> by_cases hcalls : callsOf parts = [] <;> simp [hi, hcalls]
    · split <;> rfl
  refine iff_of_false (fun hzero => ?_) (Nat.succ_ne_zero i)
  have hlen := (Nat.add_eq_zero_iff.1 hzero).2
  split at hlen <;> simp at hlen

end

/-! ## A stream -/

/-- A response of one candidate. -/
def responseOf (p : List GeminiPart × Option String) : GeminiChatResponse :=
  { candidates := [{ parts := p.1, finishReason := p.2 }] }

section
variable (marshal : Json → String) (ids : CallIds)

/-- What is sent for the responses behind the first. -/
def laterGroups (stop : String) : Nat → Nat → List (List GeminiPart × Option String) → List (List Choice)
  | _, _, [] => []
  | i, n, p :: l => sentGroup marshal ids i n p.1 p.2 stop :: laterGroups stop (i + 1) (n + (callsOf p.1).length) l

/-- The finish reason that a stop is told with. -/
def stopReason (first : List GeminiPart) : String := if callsOf first = [] then "stop" else "tool_calls"

/-- What is sent for all responses. -/
def groups : List (List GeminiPart × Option String) → List (List Choice)
  | [] => []
  | p :: l =>
    sentGroup marshal ids 0 0 p.1 p.2 (stopReason p.1) :: laterGroups marshal ids (stopReason p.1) 1 (callsOf p.1).length l

/-- The tool calls for the responses behind the first. -/
def laterCalls : Nat → Nat → List (List GeminiPart × Option String) → List ToolCallResponse
  | _, _, [] => []
  | i, n, p :: l => sentCalls marshal ids i n p.1 ++ laterCalls (i + 1) (n + (callsOf p.1).length) l

end

section
variable {marshal : Json → String} {ids : CallIds} {head : StreamHead} {st : HandlerState} {i n : Nat}
  {l : List (List GeminiPart × Option String)}

theorem sentResponses_later (h : Ready ids st i n) (hi : i ≠ 0) :
    sentResponses marshal ids.id head st (l.map responseOf) =
      (laterGroups marshal ids st.finishReason i n l).map (List.map head.chunk) := by
  induction l generalizing st i n with
  | nil => rfl
  | cons p l ih =>
    obtain ⟨hsent, hstop, hready⟩ := callback_spec marshal head p.1 p.2 h
    rw [if_neg fun hand => hi hand.1] at hstop
    rw [hstop] at hsent
    rw [List.map_cons, sentResponses, laterGroups, List.map_cons, ← hsent, ← hstop]
    exact congrArg _ (ih hready (Nat.succ_ne_zero i))

theorem sentResponses_eq : sentResponses marshal ids.id head {} (l.map responseOf) =
    (groups marshal ids l).map (List.map head.chunk) := by
  cases l with
  | nil => rfl
  | cons p l =>
    have h : Ready ids {} 0 0 := ⟨rfl, rfl, fun _ _ _ => rfl, Iff.rfl⟩
    obtain ⟨hsent, hstop, hready⟩ := callback_spec marshal head p.1 p.2 h
    have hreason : (callback marshal ids.id head {} (responseOf p)).1.finishReason = stopReason p.1 := by
      refine hstop.trans ?_
      unfold stopReason
      by_cases hcalls : callsOf p.1 = [] <;> simp [hcalls]
    rw [List.map_cons, sentResponses, groups, List.map_cons, ← hreason]
    rw [Nat.zero_add, Nat.zero_add] at hready
    exact congrArg₂ List.cons hsent (sentResponses_later hready one_ne_zero)

/-! ## Texts -/

theorem streamChoices_chunks {choices : List Choice} : streamChoices (choices.map head.chunk) = choices := by
  unfold streamChoices
  rw [List.flatMap_map]
  exact List.flatMap_singleton' choices

theorem join_sentGroup {parts : List GeminiPart} {finishReason : Option String} {stop : String} (text : Delta → String)
    (hempty : text {} = "") (hstart : ∀ toolCalls, text { role := "assistant", content := some "", toolCalls } = "")
    (hcalls : ∀ delta toolCalls, text { delta with toolCalls } = text delta) :
    String.join ((sentGroup marshal ids i n parts finishReason stop).map fun choice => text choice.delta) =
      text (sentChoice marshal ids i n parts finishReason).delta := by
  have hstop : String.join ((if finishReason = some "STOP" then [({ finishReason := some stop } : Choice)] else []).map
      fun choice => text choice.delta) = "" := by
    split
    · rw [List.map_singleton, String.join_cons, hempty]
      rfl
    · rfl
  have hone : ∀ s : String, String.join [s] = s := fun s => by simp
  unfold sentGroup
  rw [List.map_append, String.join_append, hstop, String.append_empty]
  split
  · exact hone _
  · split
    · rw [List.map_cons, String.join_cons, hstart none]
      exact String.empty_append.trans (hone _)
    · rw [List.map_cons, String.join_cons, hstart, List.map_singleton, hone]
      exact String.empty_append.trans (hcalls _ _)

theorem carriesTexts_sentGroup (p : List GeminiPart × Option String) (stop : String) :
    CarriesTexts p.1 ((sentGroup marshal ids i n p.1 p.2 stop).map head.chunk) ↔ TextsFit p.1 := by
  obtain ⟨hcontent, hreasoning, -⟩ := sentChoice_spec marshal ids i n p.1 p.2
  unfold CarriesTexts streamText streamReasoning
  rw [streamChoices_chunks, join_sentGroup Delta.getContentString rfl (fun _ => rfl) fun _ _ => rfl,
    join_sentGroup Delta.getReasoningContent rfl (fun _ => rfl) fun _ _ => rfl, hcontent, hreasoning]
  exact spaced_texts_iff

theorem carriesTexts_iff :
    List.Forall₂ CarriesTexts (l.map Prod.fst) ((groups marshal ids l).map (List.map head.chunk)) ↔
      ∀ p ∈ l, TextsFit p.1 := by
  have hlater : ∀ (l : List (List GeminiPart × Option String)) (stop : String) (i n : Nat),
      List.Forall₂ CarriesTexts (l.map Prod.fst) ((laterGroups marshal ids stop i n l).map (List.map head.chunk)) ↔
        ∀ p ∈ l, TextsFit p.1 := by
    intro l
    induction l with
    | nil => exact fun _ _ _ => iff_of_true .nil nofun
    | cons p l ih =>
      intro stop i n
      rw [List.map_cons, laterGroups, List.map_cons, List.forall₂_cons, carriesTexts_sentGroup, ih, List.forall_mem_cons]
  cases l with
  | nil => exact iff_of_true .nil nofun
  | cons p l =>
    rw [List.map_cons, groups, List.map_cons, List.forall₂_cons, carriesTexts_sentGroup, hlater, List.forall_mem_cons]

/-! ## Calls -/

/-- Deltas of tool calls, each under the call that it belongs to. -/
def deltasOf (tools : List ToolCallResponse) : List ((Int × Option Int) × ToolCallResponse) :=
  tools.map fun tool => ((0, tool.index), tool)

/-- The call that a client has of a tool call. -/
def callOf (tool : ToolCallResponse) : Call :=
  { id := tool.id, name := tool.function.name, arguments := tool.function.arguments }

theorem keys_deltasOf {tools : List ToolCallResponse} :
    (deltasOf tools).map Prod.fst = tools.map fun tool => ((0 : Int), tool.index) := List.map_map

theorem filter_deltasOf {f : ToolCallResponse → ToolCallResponse} (hf : ∀ tool, (f tool).index = tool.index)
    {tools : List ToolCallResponse} (hnodup : (tools.map (·.index)).Nodup) {tool : ToolCallResponse} (h : tool ∈ tools) :
    ((deltasOf (tools.map f)).filter fun delta => delta.1 = (0, tool.index)) = [((0, tool.index), f tool)] := by
  have hmem : ((0, tool.index), f tool) ∈ deltasOf (tools.map f) := by
    rw [← hf tool]
    exact List.mem_map_of_mem (List.mem_map_of_mem h)
  refine @filter_key_eq_singleton _ _ _ Prod.fst _ _ ?_ hmem
  have hkeys : (deltasOf (tools.map f)).map Prod.fst = (tools.map (·.index)).map fun index => ((0 : Int), index) := by
    rw [keys_deltasOf, List.map_map, List.map_map]
    exact List.map_congr_left fun t _ => by simp [hf]
  rw [hkeys]
  exact hnodup.map fun _ _ heq => (Prod.mk.inj heq).2

theorem filter_deltasOf_eq_nil {f : ToolCallResponse → ToolCallResponse} (hf : ∀ tool, (f tool).index = tool.index)
    {tools : List ToolCallResponse} {index : Option Int} (h : ∀ tool ∈ tools, tool.index ≠ index) :
    ((deltasOf (tools.map f)).filter fun delta => delta.1 = (0, index)) = [] := by
  rw [List.filter_eq_nil_iff]
  intro delta hdelta heq
  obtain ⟨_, hchanged, rfl⟩ := List.mem_map.1 hdelta
  obtain ⟨tool, htool, rfl⟩ := List.mem_map.1 hchanged
  exact h tool htool ((hf tool).symm.trans (Prod.mk.inj (of_decide_eq_true heq)).2)

/-- The calls of a stream whose first calls come in two deltas, and the others in one. -/
theorem streamCalls_of_deltas {chunks : List Chunk} {tools later : List ToolCallResponse}
    (hnodup : ((tools ++ later).map (·.index)).Nodup)
    (hdeltas : toolCallDeltas chunks = deltasOf (tools.map clearArguments) ++
      (deltasOf (tools.map clearToolCall) ++ deltasOf later)) :
    streamCalls chunks = (tools ++ later).map callOf := by
  have hkeys : ((deltasOf (tools.map clearArguments) ++ deltasOf later).map Prod.fst).Nodup := by
    have heq : (deltasOf (tools.map clearArguments) ++ deltasOf later).map Prod.fst =
        ((tools ++ later).map (·.index)).map fun index => ((0 : Int), index) := by
      rw [List.map_append, keys_deltasOf, keys_deltasOf, List.map_map, List.map_append, List.map_append, List.map_map,
        List.map_map]
      rfl
    rw [heq]
    exact hnodup.map fun _ _ heq => (Prod.mk.inj heq).2
  have hcleared : (deltasOf (tools.map clearToolCall)).map Prod.fst = (deltasOf (tools.map clearArguments)).map Prod.fst := by
    rw [keys_deltasOf, keys_deltasOf, List.map_map, List.map_map]
    rfl
  have hfirst : firstBy Prod.fst [] (toolCallDeltas chunks) = deltasOf (tools.map clearArguments) ++ deltasOf later := by
    rw [List.map_append, List.nodup_append'] at hkeys
    obtain ⟨htools, hlater, hdisjoint⟩ := hkeys
    rw [hdeltas, firstBy_append, firstBy_eq_self htools fun _ _ => List.not_mem_nil, firstBy_append, hcleared,
      firstBy_eq_nil, List.nil_append, firstBy_eq_self hlater]
    · intro delta hdelta hmem
      rw [List.append_nil, List.mem_append, or_self] at hmem
      exact hdisjoint hmem (List.mem_map_of_mem hdelta)
    · intro delta hdelta
      rw [List.append_nil, ← hcleared]
      exact List.mem_map_of_mem hdelta
  have hother : ∀ tool ∈ tools, ∀ tool' ∈ later, tool'.index ≠ tool.index := by
    rw [List.map_append, List.nodup_append'] at hnodup
    intro tool htool tool' htool' heq
    exact hnodup.2.2 (List.mem_map_of_mem htool) (heq ▸ List.mem_map_of_mem htool')
  rw [List.map_append] at hnodup
  unfold streamCalls
  rw [hfirst, List.map_append, List.map_append]
  congr 1
  · unfold deltasOf
    rw [List.map_map, List.map_map]
    refine List.map_congr_left fun tool htool => ?_
    have hfilter : ((toolCallDeltas chunks).filter fun delta => delta.1 = (0, tool.index)) =
        [((0, tool.index), clearArguments tool), ((0, tool.index), clearToolCall tool)] := by
      have hlater := filter_deltasOf_eq_nil (f := id) (fun _ => rfl) (hother tool htool)
      rw [List.map_id] at hlater
      rw [hdeltas, List.filter_append, List.filter_append, hlater,
        filter_deltasOf (f := clearArguments) (fun _ => rfl) hnodup.of_append_left htool,
        filter_deltasOf (f := clearToolCall) (fun _ => rfl) hnodup.of_append_left htool]
      rfl
    show assembleCall (toolCallDeltas chunks) ((0, tool.index), clearArguments tool) = callOf tool
    unfold assembleCall
    dsimp only
    rw [hfilter]
    simp [callOf, clearArguments, clearToolCall]
  · unfold deltasOf
    rw [List.map_map]
    refine List.map_congr_left fun tool htool => ?_
    have hfilter : ((toolCallDeltas chunks).filter fun delta => delta.1 = (0, tool.index)) = [((0, tool.index), tool)] := by
      have hlater := filter_deltasOf (f := id) (fun _ => rfl) hnodup.of_append_right htool
      rw [List.map_id] at hlater
      have hnone : ∀ tool' ∈ tools, tool'.index ≠ tool.index := fun tool' htool' heq => hother tool' htool' tool htool heq.symm
      rw [hdeltas, List.filter_append, List.filter_append, hlater,
        filter_deltasOf_eq_nil (f := clearArguments) (fun _ => rfl) hnone,
        filter_deltasOf_eq_nil (f := clearToolCall) (fun _ => rfl) hnone]
      rfl
    show assembleCall (toolCallDeltas chunks) ((0, tool.index), tool) = callOf tool
    unfold assembleCall
    dsimp only
    rw [hfilter]
    simp [callOf]

/-- The deltas of tool calls of a choice. -/
def choiceDeltas (choice : Choice) : List ((Int × Option Int) × ToolCallResponse) :=
  (choice.delta.toolCalls.getD []).map fun toolCall => ((choice.index, toolCall.index), toolCall)

theorem choiceDeltas_sentChoice {parts : List GeminiPart} {finishReason : Option String} :
    choiceDeltas (sentChoice marshal ids i n parts finishReason) = deltasOf (sentCalls marshal ids i n parts) := by
  unfold choiceDeltas sentChoice
  by_cases h : callsOf parts = []
  · simp [h, deltasOf, sentCalls_eq_nil_iff.2 h]
  · simp [h, deltasOf, streamChoice]

theorem choiceDeltas_stop {finishReason : Option String} {stop : String} :
    (if finishReason = some "STOP" then [({ finishReason := some stop } : Choice)] else []).flatMap choiceDeltas = [] := by
  split <;> rfl

theorem choiceDeltas_sentGroup {parts : List GeminiPart} {finishReason : Option String} {stop : String} :
    (sentGroup marshal ids i n parts finishReason stop).flatMap choiceDeltas =
      if i = 0 then deltasOf ((sentCalls marshal ids i n parts).map clearArguments) ++
        deltasOf ((sentCalls marshal ids i n parts).map clearToolCall)
      else deltasOf (sentCalls marshal ids i n parts) := by
  unfold sentGroup
  rw [List.flatMap_append, choiceDeltas_stop, List.append_nil]
  by_cases hi : i = 0
  · rw [if_neg (not_not.2 hi), if_pos hi]
    by_cases h : callsOf parts = []
    · have hnil : sentCalls marshal ids i n parts = [] := sentCalls_eq_nil_iff.2 h
      rw [if_pos h, List.flatMap_cons, List.flatMap_singleton, choiceDeltas_sentChoice, hnil]
      rfl
    · rw [if_neg h, List.flatMap_cons, List.flatMap_singleton]
      simp [choiceDeltas, deltasOf, mapToolCalls, sentChoice, h, streamChoice]
  · rw [if_pos hi, if_neg hi, List.flatMap_singleton, choiceDeltas_sentChoice]

theorem choiceDeltas_laterGroups {stop : String} (hi : i ≠ 0) :
    (laterGroups marshal ids stop i n l).flatten.flatMap choiceDeltas = deltasOf (laterCalls marshal ids i n l) := by
  induction l generalizing i n with
  | nil => rfl
  | cons p l ih =>
    rw [laterGroups, laterCalls, List.flatten_cons, List.flatMap_append, choiceDeltas_sentGroup, if_neg hi,
      ih (Nat.succ_ne_zero i)]
    exact List.map_append.symm

/-- The tool calls of a stream have the indices from `n` on. -/
theorem index_laterCalls : (laterCalls marshal ids i n l).map (·.index) =
    (List.range' n (laterCalls marshal ids i n l).length).map fun k : Nat => some (k : Int) := by
  induction l generalizing i n with
  | nil => rfl
  | cons p l ih =>
    have hsent : (sentCalls marshal ids i n p.1).map (·.index) =
        (List.range' n (callsOf p.1).length).map fun k : Nat => some (k : Int) :=
      List.ext_getElem (by simp [sentCalls]) fun k _ _ => by simp [sentCalls]
    have hlen : (sentCalls marshal ids i n p.1).length = (callsOf p.1).length := List.length_mapIdx
    rw [laterCalls, List.map_append, ih, hsent, List.length_append, hlen, ← List.map_append, ← List.range'_append_1]

theorem callOf_laterCalls : (laterCalls marshal ids i n l).map (fun tool => (tool.function.name, tool.function.arguments)) =
    (l.flatMap fun p => callsOf p.1).map fun call => (call.functionName, marshal call.arguments) := by
  induction l generalizing i n with
  | nil => rfl
  | cons p l ih =>
    have hsent : (sentCalls marshal ids i n p.1).map (fun tool => (tool.function.name, tool.function.arguments)) =
        (callsOf p.1).map fun call => (call.functionName, marshal call.arguments) :=
      List.ext_getElem (by simp [sentCalls]) fun k _ _ => by simp [sentCalls, getResponseToolCall]
    rw [laterCalls, List.map_append, ih, hsent, List.flatMap_cons, List.map_append]

theorem toolCallDeltas_groups {chunks : List Chunk} {p : List GeminiPart × Option String}
    (h : streamChoices chunks = (groups marshal ids (p :: l)).flatten) :
    toolCallDeltas chunks = deltasOf ((sentCalls marshal ids 0 0 p.1).map clearArguments) ++
      (deltasOf ((sentCalls marshal ids 0 0 p.1).map clearToolCall) ++
        deltasOf (laterCalls marshal ids 1 (callsOf p.1).length l)) := by
  refine (congrArg (List.flatMap choiceDeltas) h).trans ?_
  rw [groups, List.flatten_cons, List.flatMap_append, choiceDeltas_sentGroup, if_pos rfl,
    choiceDeltas_laterGroups one_ne_zero, List.append_assoc]

theorem sentCalls_append_laterCalls {p : List GeminiPart × Option String} :
    sentCalls marshal ids 0 0 p.1 ++ laterCalls marshal ids 1 (callsOf p.1).length l =
      laterCalls marshal ids 0 0 (p :: l) := by
  rw [laterCalls, Nat.zero_add, Nat.zero_add]

theorem streamCalls_groups {chunks : List Chunk} (h : streamChoices chunks = (groups marshal ids l).flatten) :
    (streamCalls chunks).map (fun call => (call.name, call.arguments)) =
      (l.flatMap fun p => callsOf p.1).map fun call => (call.functionName, marshal call.arguments) := by
  cases l with
  | nil =>
    have hnil : toolCallDeltas chunks = [] := congrArg (List.flatMap choiceDeltas) h
    unfold streamCalls
    rw [hnil]
    rfl
  | cons p l =>
    rw [streamCalls_of_deltas ?_ (toolCallDeltas_groups h), sentCalls_append_laterCalls, List.map_map]
    · exact callOf_laterCalls
    · rw [sentCalls_append_laterCalls, index_laterCalls]
      exact List.Nodup.map (fun k k' heq => Int.ofNat_inj.1 (Option.some.inj heq)) List.nodup_range'

theorem isSome_index_groups {chunks : List Chunk} (h : streamChoices chunks = (groups marshal ids l).flatten) :
    ∀ delta ∈ toolCallDeltas chunks, delta.1.2.isSome := by
  cases l with
  | nil =>
    have hnil : toolCallDeltas chunks = [] := congrArg (List.flatMap choiceDeltas) h
    rw [hnil]
    exact fun _ hdelta => absurd hdelta List.not_mem_nil
  | cons p l =>
    have hsome : ∀ tool ∈ sentCalls marshal ids 0 0 p.1 ++ laterCalls marshal ids 1 (callsOf p.1).length l,
        tool.index.isSome := by
      rw [sentCalls_append_laterCalls]
      intro tool htool
      have hindex : tool.index ∈ (laterCalls marshal ids 0 0 (p :: l)).map (·.index) := List.mem_map_of_mem htool
      rw [index_laterCalls] at hindex
      obtain ⟨k, -, hk⟩ := List.mem_map.1 hindex
      rw [← hk]
      rfl
    obtain ⟨htools, hlater⟩ := List.forall_mem_append.1 hsome
    rw [toolCallDeltas_groups h]
    simp only [deltasOf, List.mem_append, List.mem_map]
    rintro delta (⟨_, ⟨tool, htool, rfl⟩, rfl⟩ | ⟨_, ⟨tool, htool, rfl⟩, rfl⟩ | ⟨tool, htool, rfl⟩)
    · exact htools tool htool
    · exact htools tool htool
    · exact hlater tool htool

/-! ## Finish reasons -/

theorem finishReasons_sentGroup {parts : List GeminiPart} {finishReason : Option String} {stop : String} :
    (sentGroup marshal ids i n parts finishReason stop).filterMap (·.finishReason) =
      (if callsOf parts = [] then ((finishReason.filter (· ≠ "STOP")).map finishReasonGemini2OpenAI).toList
        else if i = 0 then [] else ["tool_calls"]) ++ if finishReason = some "STOP" then [stop] else [] := by
  have hreason := (sentChoice_spec marshal ids i n parts finishReason).2.2
  have hone : ∀ choice : Choice, [choice].filterMap (·.finishReason) = choice.finishReason.toList := fun choice => by
    cases h : choice.finishReason <;> simp [h]
  unfold sentGroup
  rw [List.filterMap_append]
  congr 1
  · by_cases hi : i = 0
    · rw [if_neg (not_not.2 hi), if_pos hi]
      split
      next hcalls => rw [List.filterMap_cons_none rfl, hone, hreason, if_pos hcalls]
      next hcalls => rfl
    · rw [if_pos hi, if_neg hi, hone, hreason]
      split <;> rfl
  · split <;> rfl

theorem finishReasons_last {parts : List GeminiPart} {finishReason stop : String} :
    (sentGroup marshal ids i n parts (some finishReason) stop).filterMap (·.finishReason) =
      if finishReason = "STOP" then (if callsOf parts = [] ∨ i = 0 then [] else ["tool_calls"]) ++ [stop]
      else if callsOf parts = [] then [finishReasonGemini2OpenAI finishReason]
      else if i = 0 then [] else ["tool_calls"] := by
  rw [finishReasons_sentGroup]
  by_cases hstop : finishReason = "STOP"
  · by_cases hcalls : callsOf parts = [] <;> simp [hstop, hcalls, Option.filter_some]
  · by_cases hcalls : callsOf parts = [] <;> simp [hstop, hcalls, Option.filter_some]

theorem finishReasons_init (marshal : Json → String) (ids : CallIds) (first : List GeminiPart)
    (middle : List (List GeminiPart)) :
    (groups marshal ids ((first :: middle).map fun parts => (parts, none))).flatten.filterMap (·.finishReason) =
      (middle.filter fun parts => callsOf parts ≠ []).map fun _ => "tool_calls" := by
  have hlater : ∀ (stop : String) (i n : Nat), i ≠ 0 →
      (laterGroups marshal ids stop i n (middle.map fun parts => (parts, none))).flatten.filterMap (·.finishReason) =
        (middle.filter fun parts => callsOf parts ≠ []).map fun _ => "tool_calls" := by
    intro stop
    induction middle with
    | nil => exact fun _ _ _ => rfl
    | cons parts middle ih =>
      intro i n hi
      rw [List.map_cons, laterGroups, List.flatten_cons, List.filterMap_append, finishReasons_sentGroup,
        ih _ _ (Nat.succ_ne_zero i)]
      by_cases hcalls : callsOf parts = [] <;> simp [hcalls, hi]
  rw [List.map_cons, groups, List.flatten_cons, List.filterMap_append, finishReasons_sentGroup, hlater _ _ _ one_ne_zero]
  by_cases hcalls : callsOf first = [] <;> simp [hcalls]

theorem groups_concat (marshal : Json → String) (ids : CallIds) (l : List (List GeminiPart × Option String))
    (p last : List GeminiPart × Option String) :
    ∃ i n, i ≠ 0 ∧ groups marshal ids (p :: (l ++ [last])) =
      groups marshal ids (p :: l) ++ [sentGroup marshal ids i n last.1 last.2 (stopReason p.1)] := by
  have hlater : ∀ (stop : String) (i n : Nat), i ≠ 0 → ∃ i' n', i' ≠ 0 ∧ laterGroups marshal ids stop i n (l ++ [last]) =
      laterGroups marshal ids stop i n l ++ [sentGroup marshal ids i' n' last.1 last.2 stop] := by
    intro stop
    induction l with
    | nil => exact fun i n hi => ⟨i, n, hi, rfl⟩
    | cons q l ih =>
      intro i n _
      obtain ⟨i', n', hi', heq⟩ := ih (i + 1) (n + (callsOf q.1).length) (Nat.succ_ne_zero i)
      exact ⟨i', n', hi', congrArg (List.cons _) heq⟩
  obtain ⟨i, n, hi, heq⟩ := hlater (stopReason p.1) 1 (callsOf p.1).length one_ne_zero
  exact ⟨i, n, hi, congrArg (List.cons _) heq⟩

theorem finishReasonGemini2OpenAI_ne (finishReason : String) : finishReasonGemini2OpenAI finishReason ≠ "tool_calls" := by
  unfold finishReasonGemini2OpenAI
  split <;> decide

end

namespace CandidateStream

variable {marshal : Json → String} {ids : CallIds} {s : CandidateStream}

/-- The responses, as parts and finish reasons. -/
def list (s : CandidateStream) : List (List GeminiPart × Option String) :=
  s.init.map (fun parts => (parts, none)) ++ [(s.last, some s.finishReason)]

theorem responses_eq : s.responses = s.list.map responseOf := by
  unfold responses list
  rw [List.map_append, List.map_map]
  rfl

theorem map_fst_list : s.list.map Prod.fst = s.parts := by
  unfold list parts
  rw [List.map_append, List.map_map]
  exact congrArg (· ++ [s.last]) (List.map_id s.init)

theorem calls_eq : s.calls = s.list.flatMap fun p => callsOf p.1 := by
  unfold calls
  rw [← map_fst_list, List.filterMap_flatten, List.map_map, List.flatMap_def]
  rfl

theorem calls_eq_nil_iff : s.calls = [] ↔ (∀ parts ∈ s.init, callsOf parts = []) ∧ callsOf s.last = [] := by
  rw [calls_eq, List.flatMap_eq_nil_iff]
  unfold list
  rw [List.forall_mem_append, List.forall_mem_map, List.forall_mem_singleton]

theorem finishReasons_iff :
    (groups marshal ids s.list).flatten.filterMap (·.finishReason) =
        [if s.calls = [] then finishReasonGemini2OpenAI s.finishReason else "tool_calls"] ↔ s.CallsFit := by
  have hne := finishReasonGemini2OpenAI_ne s.finishReason
  have hmapped : finishReasonGemini2OpenAI "STOP" = "stop" := rfl
  unfold CallsFit
  simp only [hasCalls_iff, calls_eq_nil_iff]
  unfold list
  cases hinit : s.init with
  | nil =>
    rw [List.map_nil, List.nil_append, groups, laterGroups, List.flatten_singleton, finishReasons_last]
    by_cases hstop : s.finishReason = "STOP" <;> by_cases hlast : callsOf s.last = [] <;>
      simp [hstop, hlast, stopReason, hmapped]
  | cons first middle =>
    obtain ⟨i, n, hi, heq⟩ := groups_concat marshal ids (middle.map fun parts => (parts, none))
      (first, none) (s.last, some s.finishReason)
    have hmiddle := finishReasons_init marshal ids first middle
    rw [List.map_cons] at hmiddle
    rw [List.map_cons, List.cons_append, heq, List.flatten_append, List.filterMap_append, hmiddle,
      List.flatten_singleton, finishReasons_last]
    -- the last response has a finish reason sent, so those before it have none
    by_cases hm : ∀ parts ∈ middle, callsOf parts = []
    · have hnone : middle.filter (fun parts => callsOf parts ≠ []) = [] := by simpa using hm
      have hall : (∀ parts ∈ first :: middle, callsOf parts = []) ↔ callsOf first = [] := by
        rw [List.forall_mem_cons, and_iff_left hm]
      have hfit : (∀ parts ∈ middle, ¬ callsOf parts ≠ []) ↔ True :=
        iff_true_intro fun parts hparts => not_not.2 (hm parts hparts)
      simp only [hnone, hall, hfit, hi, List.map_nil, List.nil_append, or_false, if_false, true_and]
      by_cases hstop : s.finishReason = "STOP" <;> by_cases hlast : callsOf s.last = [] <;>
        by_cases hfirst : callsOf first = [] <;> simp [hstop, hlast, hfirst, stopReason, hmapped, hne]
    · have hsome : middle.filter (fun parts => callsOf parts ≠ []) ≠ [] := by simpa using hm
      refine iff_of_false (fun hone => ?_) fun hfit => hm fun parts hparts => not_not.1 (hfit.1 parts hparts)
      rcases List.append_eq_singleton_iff.1 hone with ⟨hnil, -⟩ | ⟨-, hnil⟩
      · exact hsome (List.map_eq_nil_iff.1 hnil)
      · split at hnil
        · exact absurd hnil (by simp)
        · split at hnil <;> cases hnil

theorem finishLast_of {pre post : List Chunk} {chunk : Chunk}
    (hpre : ∀ c ∈ pre, ∀ choice ∈ c.choices, choice.finishReason = none) (hpost : ∀ c ∈ post, Silent c) :
    FinishLast (pre ++ chunk :: post) := by
  rintro pre' c post' heq ⟨choice, hchoice, hsome⟩ later hlater
  rcases List.append_eq_append_iff.1 heq with ⟨mid, rfl, hmid⟩ | ⟨mid, rfl, hmid⟩
  · cases mid with
    | nil =>
      obtain ⟨-, rfl⟩ := List.cons.inj hmid
      exact hpost later hlater
    | cons c' mid =>
      obtain ⟨-, rfl⟩ := List.cons.inj hmid
      exact hpost later (List.mem_append_right _ (List.mem_cons_of_mem _ hlater))
  · cases mid with
    | nil =>
      obtain ⟨-, rfl⟩ := List.cons.inj hmid
      exact hpost later hlater
    | cons c' mid =>
      obtain ⟨rfl, -⟩ := List.cons.inj hmid
      rw [hpre c (List.mem_append_right _ List.mem_cons_self) choice hchoice] at hsome
      cases hsome

/-- The chunks for a response: one with its texts, before it none with a finish reason, and behind it at most a stop. -/
theorem sentGroup_split (marshal : Json → String) (ids : CallIds) (head : StreamHead) (i n : Nat)
    (parts : List GeminiPart) (finishReason : Option String) (stop : String) : ∃ (pre post : List Chunk) (chunk : Chunk),
      (sentGroup marshal ids i n parts finishReason stop).map head.chunk = pre ++ chunk :: post ∧
      (∀ c ∈ pre, ∀ choice ∈ c.choices, choice.finishReason = none) ∧ ∀ c ∈ post, Silent c := by
  have hstop : ∀ c ∈ (if finishReason = some "STOP" then [({ finishReason := some stop } : Choice)] else []).map head.chunk,
      Silent c := by
    intro c hc choice hchoice
    split at hc
    · obtain rfl := List.mem_singleton.1 hc
      obtain rfl := List.mem_singleton.1 hchoice
      exact ⟨rfl, rfl, rfl⟩
    · cases hc
  have hstart : ∀ choice : Choice, choice.finishReason = none → ∀ c ∈ [head.chunk choice], ∀ choice ∈ c.choices,
      choice.finishReason = none := by
    intro choice hnone c hc choice' hchoice
    obtain rfl := List.mem_singleton.1 hc
    obtain rfl := List.mem_singleton.1 hchoice
    exact hnone
  unfold sentGroup
  dsimp only
  rw [List.map_append]
  generalize (if finishReason = some "STOP" then [({ finishReason := some stop } : Choice)] else []) = stops at hstop ⊢
  have htwo : ∀ start choice : Choice, [start, choice].map head.chunk ++ stops.map head.chunk =
      [head.chunk start] ++ head.chunk choice :: stops.map head.chunk := fun _ _ => rfl
  split
  · exact ⟨[], _, _, List.singleton_append, fun c hc => absurd hc List.not_mem_nil, hstop⟩
  · split
    · exact ⟨_, _, _, htwo _ _, hstart _ rfl, hstop⟩
    · exact ⟨_, _, _, htwo _ _, hstart _ rfl, hstop⟩

theorem finishLast (h : s.CallsFit) (head : StreamHead) {final : List Chunk} (hfinal : ∀ c ∈ final, c.choices = []) :
    FinishLast (((groups marshal ids s.list).map (List.map head.chunk)).flatten ++ final) := by
  have hsilent : ∀ c ∈ final, Silent c := by
    intro c hc choice hchoice
    rw [hfinal c hc] at hchoice
    cases hchoice
  unfold CallsFit at h
  unfold list
  cases hinit : s.init with
  | nil =>
    obtain ⟨pre, post, chunk, hgroup, hpre, hpost⟩ := sentGroup_split marshal ids head 0 0 s.last
      (some s.finishReason) (stopReason s.last)
    rw [List.map_nil, List.nil_append, groups, laterGroups, List.map_singleton, List.flatten_singleton, hgroup,
      List.append_assoc]
    exact finishLast_of hpre (List.forall_mem_append.2 ⟨hpost, hsilent⟩)
  | cons first middle =>
    rw [hinit] at h
    obtain ⟨i, n, hi, heq⟩ := groups_concat marshal ids (middle.map fun parts => (parts, none))
      (first, none) (s.last, some s.finishReason)
    obtain ⟨pre, post, chunk, hgroup, hpre, hpost⟩ := sentGroup_split marshal ids head i n s.last
      (some s.finishReason) (stopReason first)
    have hinit : ∀ choice ∈ (groups marshal ids ((first :: middle).map fun parts => (parts, none))).flatten,
        choice.finishReason = none := by
      refine List.filterMap_eq_nil_iff.1 ((finishReasons_init marshal ids first middle).trans ?_)
      rw [List.filter_eq_nil_iff.2 fun parts hparts hcalls => h.1 parts hparts (hasCalls_iff.2 (of_decide_eq_true hcalls))]
      rfl
    rw [List.map_cons, List.cons_append, heq, List.map_append, List.flatten_append, List.map_singleton,
      List.flatten_singleton, hgroup, ← List.map_flatten, List.append_assoc, List.append_assoc, ← List.append_assoc]
    refine finishLast_of (List.forall_mem_append.2 ⟨?_, hpre⟩) (List.forall_mem_append.2 ⟨hpost, hsilent⟩)
    intro c hc choice hchoice
    obtain ⟨choice', hmem, rfl⟩ := List.mem_map.1 hc
    obtain rfl := List.mem_singleton.1 hchoice
    exact hinit choice hmem

end CandidateStream

/-- The stream is converted well just where its calls fit, and in each response the texts do. -/
theorem converts_iff (marshal : Json → String) (ids : CallIds) (head : StreamHead) (info : RelayInfo) (usage : Usage)
    (s : CandidateStream) :
    Converts marshal s (geminiChatStreamHandler marshal ids.id head info usage s.responses) ↔
      s.CallsFit ∧ ∀ parts ∈ s.parts, TextsFit parts := by
  set sent := geminiChatStreamHandler marshal ids.id head info usage s.responses with hsent
  have hresponses : sent.responses = (groups marshal ids s.list).map (List.map head.chunk) := by
    rw [hsent, s.responses_eq]
    exact sentResponses_eq
  have hfinal : ∀ c ∈ sent.final, c.choices = [] := by
    intro c hc
    rw [hsent] at hc
    unfold geminiChatStreamHandler at hc
    dsimp only at hc
    split at hc
    · obtain rfl := List.mem_singleton.1 hc
      rfl
    · cases hc
  have hchoices : streamChoices sent.chunks = (groups marshal ids s.list).flatten := by
    have hnone : streamChoices sent.final = [] := List.flatMap_eq_nil_iff.2 hfinal
    unfold Sent.chunks
    rw [hresponses, ← List.map_flatten]
    refine (List.flatMap_append).trans ?_
    exact (congrArg₂ (· ++ ·) streamChoices_chunks hnone).trans (List.append_nil _)
  have htexts : List.Forall₂ CarriesTexts s.parts sent.responses ↔ ∀ parts ∈ s.parts, TextsFit parts := by
    rw [hresponses, ← CandidateStream.map_fst_list, carriesTexts_iff, List.forall_mem_map]
  have hreasons : finishReasons sent.chunks =
      [if s.calls = [] then finishReasonGemini2OpenAI s.finishReason else "tool_calls"] ↔ s.CallsFit := by
    unfold finishReasons
    rw [hchoices]
    exact CandidateStream.finishReasons_iff
  constructor
  · exact fun h => ⟨hreasons.1 h.finishReason, htexts.1 h.texts⟩
  · rintro ⟨hcalls, htextsFit⟩
    refine ⟨htexts.2 htextsFit, isSome_index_groups hchoices, ?_, hreasons.2 hcalls, ?_⟩
    · rw [streamCalls_groups hchoices, CandidateStream.calls_eq]
    · unfold Sent.chunks
      rw [hresponses]
      exact CandidateStream.finishLast hcalls head hfinal

/-! ## A call that comes late, and a response with a thought and a text -/

/-- Ids of different lengths. -/
def callIds : CallIds where
  id i j k := String.ofList ('c' :: List.replicate (Nat.pair i (Nat.pair j k)) 'c')
  ne_empty i j k h := by
    have hlist := congrArg String.toList h
    simp at hlist
  injective i j k i' j' k' h := by
    have hlen := congrArg (fun s => s.toList.length) h
    simp only [String.toList_ofList, List.length_cons, List.length_replicate, Nat.add_right_cancel_iff] at hlen
    obtain ⟨hi, hrest⟩ := Nat.pair_eq_pair.1 hlen
    exact ⟨hi, Nat.pair_eq_pair.1 hrest⟩

/-- A text, and then a call. -/
def lateCall : CandidateStream where
  init := [[{ text := "a" }]]
  last := [{ functionCall := some { functionName := "f", arguments := .object [] } }]
  finishReason := "STOP"

/-- A thought and a text. -/
def thoughtAndText : CandidateStream where
  init := []
  last := [{ text := "a", thought := true }, { text := "b" }]
  finishReason := "STOP"

/-- What is sent for a stream, without the usage. -/
def sentFor (s : CandidateStream) : Sent :=
  geminiChatStreamHandler (fun _ => "\x7b\x7d") callIds.id { id := "c", createAt := 0, model := "m" }
    { upstreamModelName := "m", forceFormat := false, shouldIncludeUsage := false } ChatStream.stopUsage s.responses

/-- The late call comes with a finish reason, and another one follows. The text behind the thought is no content. -/
theorem lateCall_finishes_twice :
    ¬ Converts (fun _ => "\x7b\x7d") lateCall (sentFor lateCall) ∧
      ¬ Converts (fun _ => "\x7b\x7d") thoughtAndText (sentFor thoughtAndText) := by
  constructor
  · intro h
    have htwice : finishReasons (sentFor lateCall).chunks = ["tool_calls", "stop"] := by decide
    exact absurd (htwice.symm.trans h.finishReason) (by simp)
  · intro h
    obtain ⟨hcontent, -⟩ := (List.forall₂_cons.1 h.texts).1
    have hempty : streamText (sentFor thoughtAndText).chunks = "" := by decide
    rcases hcontent.of_eq_empty hempty "b" (by decide) with hb | hb
    · exact absurd hb (by decide)
    · exact absurd hb (by decide)

end NewApi.GeminiToOpenAI

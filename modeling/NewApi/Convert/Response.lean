import NewApi.Convert.GeminiRequest
import NewApi.Stream.Claude

/-!
# OpenAI's responses for Claude's and Gemini's clients

`ResponseOpenAI2Claude` asks the finish reason of a choice whether it has tool calls or a text,
`ResponseOpenAI2Gemini` asks the message. Neither gives both, so nothing is lost just where a choice with the finish
reason `tool_calls` has no text, and one with another has no calls (`responses_carry_iff`).
-/

namespace NewApi.Convert

/-! ## Responses -/

/-- `OpenAITextResponseChoice`. -/
structure OpenAITextResponseChoice where
  index : Int
  message : Message
  finishReason : String

/-- `Usage`: the counts that Claude's clients are told, and the others that a conversion writes. -/
structure Usage extends Stream.Usage where
  totalTokens : Int := 0
  inputTokens : Int := 0
  outputTokens : Int := 0
  imageTokens : Int := 0
  audioTokens : Int := 0
  reasoningTokens : Int := 0

/-- `OpenAITextResponse`. -/
structure OpenAITextResponse where
  id : String := ""
  object : String := ""
  created : Int := 0
  model : String := ""
  choices : List OpenAITextResponseChoice
  usage : Usage

/-- `ClaudeResponse`, a whole message. -/
structure ClaudeResponse where
  id : String
  role : String
  model : String
  content : List ClaudeMediaMessage
  stopReason : String
  usage : Stream.ClaudeUsage

/-- `GeminiUsageMetadata`. -/
structure GeminiUsageMetadata where
  promptTokenCount : Int
  candidatesTokenCount : Int
  totalTokenCount : Int

/-- `GeminiChatCandidate`. -/
structure GeminiChatCandidate where
  content : GeminiChatContent
  finishReason : String
  index : Int

/-- `GeminiChatResponse`. -/
structure GeminiChatResponse where
  candidates : List GeminiChatCandidate
  usageMetadata : GeminiUsageMetadata

/-- The JSON decoder: what a text is, if it is a value. The empty text is none. -/
structure Decoder where
  unmarshal : String → Option Json
  unmarshal_empty : unmarshal "" = none

/-- `Unmarshal` into a map, which takes objects, and null as the nil map. -/
def Decoder.unmarshalMap (d : Decoder) (s : String) : Option Json :=
  match d.unmarshal s with
  | some (.object fields) => some (.object fields)
  | some .null => some .null
  | _ => none

section
variable (d : Decoder)

/-! ## Claude -/

/-- The block for a tool call. Arguments that are no map are passed on as they are. -/
def toolUseBlock (toolUse : ToolCallRequest) : ClaudeMediaMessage :=
  { type := "tool_use"
    id := toolUse.id
    name := toolUse.function.name
    input := (d.unmarshalMap toolUse.function.arguments).getD (.string toolUse.function.arguments) }

/-- The blocks for a choice. -/
def claudeBlocks (choice : OpenAITextResponseChoice) : List ClaudeMediaMessage :=
  if choice.finishReason = "tool_calls" then choice.message.toolCalls.map (toolUseBlock d)
  else [{ type := "text", text := some choice.message.stringContent }]

/-- `ResponseOpenAI2Claude`. The stop reason is that of the last choice. -/
def responseOpenAI2Claude (resp : OpenAITextResponse) : ClaudeResponse :=
  { id := resp.id
    role := "assistant"
    model := resp.model
    content := resp.choices.flatMap (claudeBlocks d)
    stopReason := (resp.choices.getLast?.map fun c => Stream.stopReasonOpenAI2Claude c.finishReason).getD ""
    usage := Stream.buildClaudeUsageFromOpenAIUsage resp.usage.toUsage }

/-! ## Gemini -/

/-- The finish reason of a candidate. -/
def geminiFinishReason (finishReason : String) : String :=
  match finishReason with
  | "stop" => "STOP"
  | "length" => "MAX_TOKENS"
  | "content_filter" => "SAFETY"
  | "tool_calls" => "STOP"
  | _ => "STOP"

/-- The arguments of a call. Arguments that are no map are an object's only field. -/
def geminiArgs (arguments : String) : Json :=
  if arguments ≠ "" then (d.unmarshalMap arguments).getD (.object [("arguments", .string arguments)])
  else .object []

/-- The part for a tool call. -/
def functionCallPart (toolCall : ToolCallRequest) : GeminiPart :=
  { functionCall := some
      { functionName := toolCall.function.name, arguments := geminiArgs d toolCall.function.arguments } }

/-- The parts for a choice. -/
def geminiParts (choice : OpenAITextResponseChoice) : List GeminiPart :=
  if choice.message.toolCalls ≠ [] then choice.message.toolCalls.map (functionCallPart d)
  else if choice.message.stringContent ≠ "" then [{ text := choice.message.stringContent }]
  else []

/-- `ResponseOpenAI2Gemini`. -/
def responseOpenAI2Gemini (resp : OpenAITextResponse) : GeminiChatResponse :=
  { candidates := resp.choices.map fun choice =>
      { index := choice.index
        finishReason := geminiFinishReason choice.finishReason
        content := { role := "model", parts := geminiParts d choice } }
    usageMetadata :=
      { promptTokenCount := resp.usage.promptTokens
        candidatesTokenCount := resp.usage.completionTokens
        totalTokenCount := resp.usage.promptTokens + resp.usage.completionTokens } }

/-! ## What is carried -/

/-- The text of a choice, when there is one. -/
def OpenAITextResponseChoice.texts (choice : OpenAITextResponseChoice) : List String :=
  [choice.message.stringContent].filter (· ≠ "")

/-- The texts of blocks. -/
def blockTexts (blocks : List ClaudeMediaMessage) : List String :=
  ((blocks.filter (·.type = "text")).map (·.getText)).filter (· ≠ "")

/-- The tool uses of blocks. -/
def blockCalls (blocks : List ClaudeMediaMessage) : List ClaudeMediaMessage := blocks.filter (·.type = "tool_use")

/-- Blocks carry the text and the calls of a choice, with the arguments that are objects. -/
def ClaudeCarries (choice : OpenAITextResponseChoice) (blocks : List ClaudeMediaMessage) : Prop :=
  blockTexts blocks = choice.texts ∧
    List.Forall₂ (fun (t : ToolCallRequest) (b : ClaudeMediaMessage) => b.id = t.id ∧ b.name = t.function.name ∧
      ∀ fields, d.unmarshal t.function.arguments = some (.object fields) → b.input = .object fields)
      choice.message.toolCalls (blockCalls blocks)

/-- A candidate carries them. -/
def GeminiCarries (choice : OpenAITextResponseChoice) (candidate : GeminiChatCandidate) : Prop :=
  (candidate.content.parts.map (·.text)).filter (· ≠ "") = choice.texts ∧
    List.Forall₂ (fun (t : ToolCallRequest) (call : FunctionCall) => call.functionName = t.function.name ∧
      ∀ fields, d.unmarshal t.function.arguments = some (.object fields) → call.arguments = .object fields)
      choice.message.toolCalls (candidate.content.parts.filterMap (·.functionCall))

end

section
variable {d : Decoder} {choice : OpenAITextResponseChoice} {resp : OpenAITextResponse} {arguments : String}
  {fields : List (String × Json)}

theorem Decoder.unmarshalMap_object (h : d.unmarshal arguments = some (.object fields)) :
    d.unmarshalMap arguments = some (.object fields) := by
  unfold Decoder.unmarshalMap
  rw [h]

theorem geminiArgs_object (h : d.unmarshal arguments = some (.object fields)) :
    geminiArgs d arguments = .object fields := by
  have hne : arguments ≠ "" := by
    rintro rfl
    rw [d.unmarshal_empty] at h
    cases h
  unfold geminiArgs
  rw [if_pos hne, Decoder.unmarshalMap_object h]
  rfl

theorem texts_eq_nil_iff : choice.texts = [] ↔ choice.message.stringContent = "" := by
  unfold OpenAITextResponseChoice.texts
  simp

/-! ## Claude's blocks -/

theorem blockTexts_toolUse (calls : List ToolCallRequest) : blockTexts (calls.map (toolUseBlock d)) = [] := by
  have hnone : (calls.map (toolUseBlock d)).filter (·.type = "text") = [] := by
    rw [List.filter_eq_nil_iff]
    simp [toolUseBlock]
  unfold blockTexts
  rw [hnone]
  rfl

theorem blockCalls_toolUse (calls : List ToolCallRequest) :
    blockCalls (calls.map (toolUseBlock d)) = calls.map (toolUseBlock d) := by
  unfold blockCalls
  rw [List.filter_eq_self]
  simp [toolUseBlock]

theorem claudeCarries_claudeBlocks
    (h : if choice.finishReason = "tool_calls" then choice.message.stringContent = ""
      else choice.message.toolCalls = []) : ClaudeCarries d choice (claudeBlocks d choice) := by
  unfold ClaudeCarries claudeBlocks
  split at h
  next hreason =>
    rw [if_pos hreason, blockTexts_toolUse, blockCalls_toolUse, List.forall₂_map_right_iff, List.forall₂_same]
    refine ⟨(texts_eq_nil_iff.2 h).symm, fun t _ => ⟨rfl, rfl, fun fields hfields => ?_⟩⟩
    unfold toolUseBlock
    rw [Decoder.unmarshalMap_object hfields]
    rfl
  next hreason =>
    rw [if_neg hreason, h]
    exact ⟨rfl, .nil⟩

theorem length_blockTexts_le : (blockTexts (claudeBlocks d choice)).length ≤ choice.texts.length := by
  unfold claudeBlocks
  split
  · rw [blockTexts_toolUse]
    exact Nat.zero_le _
  · exact Nat.le_refl _

theorem length_blockCalls_le :
    ((blockCalls (claudeBlocks d choice)).map (·.name)).length ≤
      (choice.message.toolCalls.map (·.function.name)).length := by
  unfold claudeBlocks
  split
  · rw [blockCalls_toolUse, List.length_map, List.length_map, List.length_map]
  · exact Nat.zero_le _

theorem blockTexts_flatMap {α : Type} (l : List α) (f : α → List ClaudeMediaMessage) :
    blockTexts (l.flatMap f) = l.flatMap fun a => blockTexts (f a) := by
  unfold blockTexts
  rw [List.filter_flatMap, List.map_flatMap, List.filter_flatMap]

theorem blockCalls_flatMap {α : Type} (l : List α) (f : α → List ClaudeMediaMessage) :
    blockCalls (l.flatMap f) = l.flatMap fun a => blockCalls (f a) := List.filter_flatMap

theorem claude_carries_iff :
    (∃ outs, (responseOpenAI2Claude d resp).content = outs.flatten ∧
        List.Forall₂ (ClaudeCarries d) resp.choices outs) ↔
      ∀ choice ∈ resp.choices, if choice.finishReason = "tool_calls" then choice.message.stringContent = ""
        else choice.message.toolCalls = [] := by
  constructor
  · rintro ⟨outs, hcontent, houts⟩
    have hcontent : resp.choices.flatMap (claudeBlocks d) = outs.flatMap id := by
      rw [List.flatMap_id]
      exact hcontent
    -- no choice gets more blocks than it has texts and calls, so none gets fewer
    have htexts : (resp.choices.flatMap fun c => blockTexts (claudeBlocks d c)) = resp.choices.flatMap (·.texts) := by
      rw [← blockTexts_flatMap, hcontent, blockTexts_flatMap]
      exact flatMap_eq_of_forall₂ houts fun _ _ h => h.1
    have hcalls : (resp.choices.flatMap fun c => (blockCalls (claudeBlocks d c)).map (·.name)) =
        resp.choices.flatMap fun c => c.message.toolCalls.map (·.function.name) := by
      rw [← List.map_flatMap, ← blockCalls_flatMap, hcontent, blockCalls_flatMap, List.map_flatMap]
      refine flatMap_eq_of_forall₂ houts fun c blocks h => ?_
      have hnames : List.Forall₂ (· = ·) (c.message.toolCalls.map (·.function.name))
          ((blockCalls blocks).map (·.name)) :=
        List.forall₂_map_left_iff.2 (List.forall₂_map_right_iff.2 (h.2.imp fun _ _ h => h.2.1.symm))
      rw [List.forall₂_eq_eq_eq] at hnames
      exact hnames.symm
    intro choice hchoice
    have htext := (flatMap_eq_iff fun c _ => length_blockTexts_le).1 htexts choice hchoice
    have hcall := (flatMap_eq_iff fun c _ => length_blockCalls_le).1 hcalls choice hchoice
    unfold claudeBlocks at htext hcall
    split
    next hreason =>
      rw [if_pos hreason, blockTexts_toolUse] at htext
      exact texts_eq_nil_iff.1 htext.symm
    next hreason =>
      rw [if_neg hreason] at hcall
      exact List.map_eq_nil_iff.1 hcall.symm
  · intro hall
    refine ⟨resp.choices.map (claudeBlocks d), List.flatMap_def, ?_⟩
    rw [List.forall₂_map_right_iff, List.forall₂_same]
    exact fun choice hchoice => claudeCarries_claudeBlocks (hall choice hchoice)

/-! ## Gemini's parts -/

theorem texts_functionCallPart (calls : List ToolCallRequest) :
    ((calls.map (functionCallPart d)).map (·.text)).filter (· ≠ "") = [] := by
  rw [List.filter_eq_nil_iff]
  simp [functionCallPart]

theorem calls_functionCallPart (calls : List ToolCallRequest) :
    List.Forall₂ (fun (t : ToolCallRequest) (call : FunctionCall) => call.functionName = t.function.name ∧
      ∀ fields, d.unmarshal t.function.arguments = some (.object fields) → call.arguments = .object fields)
      calls ((calls.map (functionCallPart d)).filterMap (·.functionCall)) := by
  induction calls with
  | nil => exact .nil
  | cons t calls ih => exact .cons ⟨rfl, fun fields h => geminiArgs_object h⟩ ih

theorem gemini_carries_iff :
    List.Forall₂ (GeminiCarries d) resp.choices (responseOpenAI2Gemini d resp).candidates ↔
      ∀ choice ∈ resp.choices, choice.message.stringContent = "" ∨ choice.message.toolCalls = [] := by
  unfold responseOpenAI2Gemini
  rw [List.forall₂_map_right_iff, List.forall₂_same]
  refine forall₂_congr fun choice _ => ?_
  unfold GeminiCarries geminiParts
  by_cases hcalls : choice.message.toolCalls = []
  · refine iff_of_true ?_ (.inr hcalls)
    rw [if_neg (fun h => h hcalls), hcalls]
    by_cases htext : choice.message.stringContent = ""
    · rw [if_neg (fun h => h htext), texts_eq_nil_iff.2 htext]
      exact ⟨rfl, .nil⟩
    · rw [if_pos htext]
      exact ⟨rfl, .nil⟩
  · rw [if_pos hcalls, or_iff_left hcalls, ← texts_eq_nil_iff, texts_functionCallPart]
    exact ⟨fun h => h.1.symm, fun h => ⟨h.symm, calls_functionCallPart _⟩⟩

/-- Both responses carry all choices just if each choice with the finish reason `tool_calls` has no text, and each
with another has no calls. -/
theorem responses_carry_iff (d : Decoder) (resp : OpenAITextResponse) :
    (∃ outs, (responseOpenAI2Claude d resp).content = outs.flatten ∧
        List.Forall₂ (ClaudeCarries d) resp.choices outs) ∧
      List.Forall₂ (GeminiCarries d) resp.choices (responseOpenAI2Gemini d resp).candidates ↔
      ∀ choice ∈ resp.choices, if choice.finishReason = "tool_calls" then choice.message.stringContent = ""
        else choice.message.toolCalls = [] := by
  rw [claude_carries_iff, gemini_carries_iff]
  refine and_iff_left_of_imp fun hall choice hchoice => ?_
  have hchoice := hall choice hchoice
  split at hchoice
  · exact .inl hchoice
  · exact .inr hchoice

/-- A choice that says something and calls a function: the text is lost on both sides. -/
theorem responses_drop_text :
    let d : Decoder := { unmarshal := fun s => if s = "" then none else some (.object []), unmarshal_empty := rfl }
    let choice : OpenAITextResponseChoice :=
      { index := 0
        finishReason := "tool_calls"
        message :=
          { role := "assistant"
            content := .string "I look it up."
            toolCalls :=
              [{ id := "t1", type := "function", function := { name := "weather", arguments := "\x7b\x7d" } }] } }
    let resp : OpenAITextResponse := { choices := [choice], usage := { toUsage := ⟨0, 0, 0, 0, 0, 0⟩ } }
    choice.texts = ["I look it up."] ∧
      blockTexts (responseOpenAI2Claude d resp).content = [] ∧
      ((responseOpenAI2Gemini d resp).candidates.flatMap fun c => c.content.parts.map (·.text)) = [""] := by
  refine ⟨?_, ?_, ?_⟩
  · decide
  · decide
  · decide

end

end NewApi.Convert

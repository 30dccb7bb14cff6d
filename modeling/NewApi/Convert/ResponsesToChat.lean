import NewApi.Convert.Response

/-!
# From Responses responses to chat completions

`ResponsesResponseToChatCompletionsResponse` makes one choice of a Responses response. The texts of the assistant's
messages are its content, or all texts where these say nothing; only where there is no text at all are the function
calls its tool calls (`chat_response_carries`).
-/

namespace NewApi.Convert

/-! ## Responses responses -/

/-- `ResponsesOutputContent`. -/
structure ResponsesOutputContent where
  type : String
  text : String := ""

/-- `ResponsesOutput`. The arguments are the JSON text of the item. -/
structure ResponsesOutput where
  type : String
  id : String := ""
  role : String := ""
  content : List ResponsesOutputContent := []
  callId : String := ""
  name : String := ""
  arguments : String := ""

/-- `InputTokenDetails`. -/
structure InputTokenDetails where
  cachedTokens : Int := 0
  imageTokens : Int := 0
  audioTokens : Int := 0

/-- The usage of a Responses response. -/
structure ResponsesUsage where
  inputTokens : Int := 0
  outputTokens : Int := 0
  totalTokens : Int := 0
  inputTokensDetails : Option InputTokenDetails := none
  reasoningTokens : Int := 0

/-- `OpenAIResponsesResponse`. -/
structure OpenAIResponsesResponse where
  createdAt : Int := 0
  model : String := ""
  output : List ResponsesOutput := []
  usage : Option ResponsesUsage := none

/-- `ResponsesStreamResponse`: an event, with a response of type `ρ` and an item of type `ι`. -/
structure ResponsesStreamResponse (ρ ι : Type) where
  type : String
  response : Option ρ := none
  delta : String := ""
  item : Option ι := none
  itemId : String := ""

/-! ## The conversion -/

/-- The usage of the chat completion. A total that is not reported is the sum. -/
def convertUsage (usage : Option ResponsesUsage) : Usage :=
  let u := usage.getD {}
  let details := u.inputTokensDetails.getD {}
  { promptTokens := u.inputTokens
    completionTokens := u.outputTokens
    cachedTokens := details.cachedTokens
    cachedCreationTokens := 0
    claudeCacheCreation5mTokens := 0
    claudeCacheCreation1hTokens := 0
    totalTokens := if u.totalTokens ≠ 0 then u.totalTokens else u.inputTokens + u.outputTokens
    inputTokens := u.inputTokens
    outputTokens := u.outputTokens
    imageTokens := details.imageTokens
    audioTokens := details.audioTokens
    reasoningTokens := u.reasoningTokens }

/-- `ExtractOutputTextFromResponses`. -/
def extractOutputTextFromResponses (output : List ResponsesOutput) : String :=
  let messages := output.filter fun out => out.type = "message" ∧ (out.role = "" ∨ out.role = "assistant")
  let sb := String.join (messages.flatMap fun out =>
    (out.content.filter fun c => c.type = "output_text" ∧ c.text ≠ "").map (·.text))
  if sb ≠ "" then sb
  else String.join (output.flatMap fun out => (out.content.filter fun c => c.text ≠ "").map (·.text))

section
variable (d : Decoder)

/-- `ArgumentsString`: the value of a JSON string, and the text of another value. -/
def ResponsesOutput.argumentsString (out : ResponsesOutput) : String :=
  let trimmed := GoString.trimSpace out.arguments
  if trimmed = "" ∨ trimmed = "null" then ""
  else if ¬ GoString.hasPrefix trimmed "\"" then trimmed
  else
    match d.unmarshal trimmed with
    | some (.string value) => value
    | _ => trimmed

/-- The tool call of an output item, if it is a function call with a name. -/
def ResponsesOutput.toolCall? (out : ResponsesOutput) : Option ToolCallRequest :=
  if out.type ≠ "function_call" then none
  else
    let name := GoString.trimSpace out.name
    if name = "" then none
    else
      let callId := GoString.trimSpace out.callId
      some
        { id := if callId = "" then GoString.trimSpace out.id else callId
          type := "function"
          function := { name, arguments := out.argumentsString d } }

/-- `ResponsesResponseToChatCompletionsResponse`. -/
def responsesResponseToChatCompletionsResponse (resp : Option OpenAIResponsesResponse) (id : String) :
    Except String (OpenAITextResponse × Usage) :=
  match resp with
  | none => .error "response is nil"
  | some resp =>
    let text := extractOutputTextFromResponses resp.output
    let usage := convertUsage resp.usage
    let toolCalls := if text = "" ∧ resp.output ≠ [] then resp.output.filterMap (·.toolCall? d) else []
    .ok
      ({ id
         object := "chat.completion"
         created := resp.createdAt
         model := resp.model
         choices :=
          [{ index := 0
             message :=
              { role := "assistant", content := .string (if toolCalls ≠ [] then "" else text), toolCalls }
             finishReason := if toolCalls ≠ [] then "tool_calls" else "stop" }]
         usage }, usage)

end

/-! ## What is carried -/

/-- The output texts of the assistant's messages. -/
def assistantText (output : List ResponsesOutput) : String :=
  String.join ((output.filter fun out => out.type = "message" ∧ (out.role = "" ∨ out.role = "assistant")).flatMap
    fun out => (out.content.filter fun c => c.type = "output_text").map (·.text))

/-- All texts. -/
def anyText (output : List ResponsesOutput) : String := String.join (output.flatMap fun out => out.content.map (·.text))

/-- A function call with a name. -/
def ResponsesOutput.IsNamedCall (out : ResponsesOutput) : Prop :=
  out.type = "function_call" ∧ GoString.trimSpace out.name ≠ ""

instance (out : ResponsesOutput) : Decidable out.IsNamedCall := inferInstanceAs (Decidable (_ ∧ _))

/-- The tool call carries the id of the call, or of the item where that is blank, its name and its arguments. -/
def ResponsesOutput.CarriedBy (d : Decoder) (out : ResponsesOutput) (t : ToolCallRequest) : Prop :=
  (GoString.trimSpace out.callId ≠ "" → t.id = GoString.trimSpace out.callId) ∧
    (GoString.trimSpace out.callId = "" → t.id = GoString.trimSpace out.id) ∧
    t.function.name = GoString.trimSpace out.name ∧ t.function.arguments = out.argumentsString d

section
variable {d : Decoder} {output : List ResponsesOutput}

theorem join_filter_ne_empty (l : List String) : String.join (l.filter (· ≠ "")) = String.join l := by
  induction l with
  | nil => rfl
  | cons s l ih =>
    by_cases hs : s = ""
    · rw [List.filter_cons_of_neg (by simp [hs]), ih, String.join_cons, hs, String.empty_append]
    · rw [List.filter_cons_of_pos (by simp [hs]), String.join_cons, String.join_cons, ih]

theorem extractOutputText_eq : extractOutputTextFromResponses output =
    if assistantText output ≠ "" then assistantText output else anyText output := by
  have hassistant : String.join ((output.filter fun out =>
      out.type = "message" ∧ (out.role = "" ∨ out.role = "assistant")).flatMap fun out =>
        (out.content.filter fun c => c.type = "output_text" ∧ c.text ≠ "").map (·.text)) = assistantText output := by
    unfold assistantText
    refine Eq.trans ?_ (join_filter_ne_empty _)
    rw [List.filter_flatMap]
    refine congrArg String.join (List.flatMap_congr fun out _ => ?_)
    rw [List.filter_map, List.filter_filter]
    refine congrArg (List.map _) (List.filter_congr fun c _ => ?_)
    simp [Bool.and_comm]
  have hany : String.join (output.flatMap fun out => (out.content.filter fun c => c.text ≠ "").map (·.text)) =
      anyText output := by
    unfold anyText
    refine Eq.trans ?_ (join_filter_ne_empty _)
    rw [List.filter_flatMap]
    refine congrArg String.join (List.flatMap_congr fun out _ => ?_)
    rw [List.filter_map]
    rfl
  unfold extractOutputTextFromResponses
  dsimp only
  rw [hassistant, hany]

theorem toolCall?_spec (out : ResponsesOutput) :
    if out.IsNamedCall then ∃ t, out.toolCall? d = some t ∧ out.CarriedBy d t else out.toolCall? d = none := by
  unfold ResponsesOutput.toolCall?
  by_cases htype : out.type = "function_call"
  · by_cases hname : GoString.trimSpace out.name = ""
    · rw [if_neg fun h : out.IsNamedCall => h.2 hname, if_neg fun h => h htype]
      exact if_pos hname
    · rw [if_pos ⟨htype, hname⟩, if_neg fun h => h htype]
      dsimp only
      rw [if_neg hname]
      refine ⟨_, rfl, ?_⟩
      unfold ResponsesOutput.CarriedBy
      dsimp only
      refine ⟨?_, ?_, rfl, rfl⟩
      · intro hid
        rw [if_neg hid]
      · intro hid
        rw [if_pos hid]
  · rw [if_neg fun h : out.IsNamedCall => htype h.1, if_pos htype]

theorem toolCalls_carried : List.Forall₂ (ResponsesOutput.CarriedBy d) (output.filter fun out => out.IsNamedCall)
    (output.filterMap (·.toolCall? d)) := by
  induction output with
  | nil => exact .nil
  | cons out output ih =>
    have hspec := toolCall?_spec (d := d) out
    split at hspec
    next hcall =>
      obtain ⟨t, ht, hcarried⟩ := hspec
      rw [List.filter_cons_of_pos (by simpa using hcall), List.filterMap_cons_some ht]
      exact .cons hcarried ih
    next hcall =>
      rw [List.filter_cons_of_neg (by simpa using hcall), List.filterMap_cons_none hspec]
      exact ih

/-- The one choice of the chat completion has the assistant's texts as its content, or all texts where these are empty;
the named calls as its tool calls where there is no text, and none where there is; and the finish reason `tool_calls`
just where it has tool calls. -/
theorem chat_response_carries (d : Decoder) (resp : OpenAIResponsesResponse) (id : String) :
    ∃ r choice, responsesResponseToChatCompletionsResponse d (some resp) id = .ok (r, r.usage) ∧
      r.choices = [choice] ∧
      choice.message.stringContent =
        (if assistantText resp.output ≠ "" then assistantText resp.output else anyText resp.output) ∧
      (choice.message.stringContent ≠ "" → choice.message.toolCalls = []) ∧
      (choice.message.stringContent = "" → List.Forall₂ (ResponsesOutput.CarriedBy d)
        (resp.output.filter fun out => out.IsNamedCall) choice.message.toolCalls) ∧
      (choice.finishReason = "tool_calls" ↔ choice.message.toolCalls ≠ []) := by
  unfold responsesResponseToChatCompletionsResponse
  dsimp only
  refine ⟨_, _, rfl, rfl, ?_⟩
  have hcalls : (if extractOutputTextFromResponses resp.output = "" ∧ resp.output ≠ [] then
      resp.output.filterMap (·.toolCall? d) else []) =
        if extractOutputTextFromResponses resp.output = "" then resp.output.filterMap (·.toolCall? d) else [] := by
    by_cases hnil : resp.output = []
    · rw [if_neg (fun h => h.2 hnil), hnil, List.filterMap_nil, ite_self]
    · simp [hnil]
  rw [← extractOutputText_eq, hcalls]
  dsimp only [Message.stringContent]
  by_cases htext : extractOutputTextFromResponses resp.output = ""
  · rw [if_pos htext, htext, ite_self]
    exact ⟨rfl, fun h => absurd rfl h, fun _ => toolCalls_carried, by simp⟩
  · rw [if_neg htext, if_neg (fun h => h rfl)]
    exact ⟨rfl, fun _ => rfl, fun h => absurd h htext, by simp⟩

/-- A response with a text and a call: the call is lost, and the finish reason is `stop`. -/
theorem chat_response_drops_call :
    let d : Decoder := { unmarshal := fun s => if s = "" then none else some .null, unmarshal_empty := rfl }
    let resp : OpenAIResponsesResponse :=
      { output :=
          [{ type := "message", role := "assistant", content := [{ type := "output_text", text := "I look it up." }] },
           { type := "function_call", callId := "c1", name := "weather", arguments := "\x7b\x7d" }] }
    ∃ r, responsesResponseToChatCompletionsResponse d (some resp) "r1" = .ok (r, r.usage) ∧
      (r.choices.map fun c => (c.message.stringContent, c.message.toolCalls.length, c.finishReason)) =
        [("I look it up.", 0, "stop")] := by
  refine ⟨_, rfl, ?_⟩
  decide

/-! ## On to Claude's and Gemini's clients -/

end

end NewApi.Convert

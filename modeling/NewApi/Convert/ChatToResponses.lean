import NewApi.Convert.Message

/-!
# From chat requests to Responses requests

`ChatCompletionsRequestToResponsesRequest` turns the messages of a chat request into the input items of a Responses
request. The texts of system and developer messages become its instructions instead, and a tool call without an id or
a name, or of another type than `function`, is skipped. The rest is kept in order, and an output follows its call where
the call is not one of the skipped (`responses_request_keeps`).
-/

namespace NewApi.Convert

/-! ## Responses requests -/

/-- The image of an input part: its address, or the object where it has none. -/
inductive InputImage
  | url (s : String)
  | object (image : MessageImageUrl)
  | null
deriving DecidableEq

/-- A part of the content of an input item, by its `type`. Texts are `input_text` or `output_text`. -/
inductive InputPart
  | text (type text : String)
  | inputImage (imageUrl : InputImage)
  | inputAudio (inputAudio : Option MessageInputAudio)
  | inputFile (file : Option MessageFile)
  | inputVideo (videoUrl : Option String)
  | other (type : String)
deriving DecidableEq

/-- The content of an input item. -/
inductive InputContent
  | text (s : String)
  | parts (parts : List InputPart)
deriving DecidableEq

/-- An item of the input. -/
inductive InputItem
  | message (role : String) (content : InputContent)
  | functionCall (callId name arguments : String)
  | functionCallOutput (callId output : String)
deriving DecidableEq

/-- A tool. Those of other types than `function` keep their shape. -/
inductive ResponsesTool
  | function (name description : String) (parameters : Json)
  | original (tool : ToolCallRequest)

/-- `Reasoning`. -/
structure Reasoning where
  effort : String
  summary : String
deriving DecidableEq

/-- `OpenAIResponsesRequest`, with the fields that the conversion writes. -/
structure OpenAIResponsesRequest where
  model : String
  input : List InputItem
  instructions : Option String
  stream : Option Bool
  maxOutputTokens : Option Nat
  temperature : Option ℚ
  topP : Option ℚ
  text : Option Json
  toolChoice : Option Json
  tools : Option (List ResponsesTool)
  parallelToolCalls : Option Bool
  reasoning : Option Reasoning
  user : Option Json
  store : Option Json
  metadata : Option Json

/-! ## The conversion -/

/-- `normalizeChatImageURLToString`. -/
def normalizeChatImageURLToString : Option MessageImageUrl → InputImage
  | none => .null
  | some image => if image.url ≠ "" then .url image.url else .object image

/-- The fields that the schema of a response format adds. One that is no object is kept whole. -/
def schemaFields (format : List (String × Json)) : Option Json → List (String × Json)
  | none | some .null => format
  | some (.object chatSchema) =>
    let format := format ++ chatSchema.filter fun f => f.1 ≠ "type"
    match (Json.object format).field? "json_schema" with
    | some (.object nested) =>
      (format ++ nested.filter fun f => f.1 ∉ format.map Prod.fst).filter fun f => f.1 ≠ "json_schema"
    | _ => format
  | some schema => format ++ [("json_schema", schema)]

/-- `convertChatResponseFormatToResponsesText`. -/
def convertChatResponseFormatToResponsesText (reqFormat : Option ResponseFormat) : Option Json :=
  match reqFormat with
  | none => none
  | some reqFormat =>
    if GoString.trimSpace reqFormat.type = "" then none
    else
      let format := [("type", Json.string reqFormat.type)]
      some (.object
        [("format", .object
          (if reqFormat.type = "json_schema" then schemaFields format reqFormat.jsonSchema else format))])

/-- The choice of a function, in the shape of the Responses API. -/
def functionChoice (name : String) : Json := .object [("type", .string "function"), ("name", .string name)]

/-- The tool choice. -/
def convertToolChoice (v : Json) : Option Json :=
  match v with
  | .null => none
  | v =>
    if v.stringField? "type" = some "function" then
      match (v.stringField? "name").filter (· ≠ "") with
      | some name => some (functionChoice name)
      | none =>
        match ((v.field? "function").bind fun fn => fn.stringField? "name").filter (· ≠ "") with
        | some name => some (functionChoice name)
        | none => some v
    else some v

/-- A tool. -/
def convertTool (tool : ToolCallRequest) : ResponsesTool :=
  if tool.type = "function" then .function tool.function.name tool.function.description tool.function.parameters
  else .original tool

/-- The message of a system or developer. -/
def Message.IsSystem (m : Message) : Prop := GoString.trimSpace m.role = "system" ∨ GoString.trimSpace m.role = "developer"

instance (m : Message) : Decidable m.IsSystem := inferInstanceAs (Decidable (_ ∨ _))

/-- The message of a tool. -/
def Message.IsOutput (m : Message) : Prop := GoString.trimSpace m.role = "tool" ∨ GoString.trimSpace m.role = "function"

instance (m : Message) : Decidable m.IsOutput := inferInstanceAs (Decidable (_ ∨ _))

section
variable (marshal : MessageContent → String)

/-- The output of a tool message. -/
def toolOutput (m : Message) : String :=
  match m.content with
  | .null => ""
  | .string s => s
  | content => marshal content

/-- What a system or developer message adds to the instructions. -/
def instructionsPart (m : Message) : String :=
  match m.content with
  | .null => ""
  | .string s => GoString.trimSpace s
  | _ =>
    GoString.trimSpace (m.parseContent.foldl (fun sb part =>
      if part.type = "text" ∧ GoString.trimSpace part.text ≠ "" then
        (if sb ≠ "" then sb ++ "\n" else sb) ++ part.text
      else sb) "")

/-- A part of a message of this role. -/
def convertPart (role : String) (part : MediaContent) : InputPart :=
  match part.type with
  | "text" => .text (if role = "assistant" then "output_text" else "input_text") part.text
  | "image_url" => .inputImage (normalizeChatImageURLToString part.imageUrl)
  | "input_audio" => .inputAudio part.inputAudio
  | "file" => .inputFile part.file
  | "video_url" => .inputVideo part.videoUrl
  | type => .other type

/-- A tool call that can be sent: it has an id and a name, and is a function's. -/
def ToolCallRequest.Complete (tc : ToolCallRequest) : Prop :=
  GoString.trimSpace tc.id ≠ "" ∧ (tc.type = "" ∨ tc.type = "function") ∧ GoString.trimSpace tc.function.name ≠ ""

instance (tc : ToolCallRequest) : Decidable tc.Complete := inferInstanceAs (Decidable (_ ∧ _))

/-- The items for the tool calls of an assistant. -/
def functionCalls (toolCalls : List ToolCallRequest) : List InputItem :=
  (toolCalls.filter fun tc => decide tc.Complete).map fun tc =>
    .functionCall tc.id (GoString.trimSpace tc.function.name) tc.function.arguments

/-- The content of a message that is neither a tool's nor the system's. -/
def inputContent (role : String) (m : Message) : InputContent :=
  match m.content with
  | .null => .text ""
  | .string s => .text s
  | _ => .parts (m.parseContent.map (convertPart role))

/-- The input items for a message. -/
def inputItems (m : Message) : List InputItem :=
  let role := GoString.trimSpace m.role
  if role = "" then []
  else if m.IsOutput then
    let callId := GoString.trimSpace m.toolCallId
    if callId = "" then [.message "user" (.text ("[tool_output_missing_call_id] " ++ toolOutput marshal m))]
    else [.functionCallOutput callId (toolOutput marshal m)]
  else if m.IsSystem then []
  else .message role (inputContent role m) :: if role = "assistant" then functionCalls m.toolCalls else []

/-- The parts of the instructions. -/
def instructionsParts (messages : List Message) : List String :=
  ((messages.filter fun m => m.IsSystem).map instructionsPart).filter (· ≠ "")

/-- `ChatCompletionsRequestToResponsesRequest`. -/
def chatCompletionsRequestToResponsesRequest (req : Option GeneralOpenAIRequest) :
    Except String OpenAIResponsesRequest :=
  match req with
  | none => .error "request is nil"
  | some req =>
    if req.model = "" then .error "model is required"
    else if req.n.getD 1 > 1 then .error "n>1 is not supported in responses compatibility mode"
    else
      let parts := instructionsParts req.messages
      .ok
        { model := req.model
          input := req.messages.flatMap (inputItems marshal)
          instructions := if parts = [] then none else some (String.intercalate "\n\n" parts)
          stream := req.stream
          maxOutputTokens :=
            if req.maxTokens.isSome ∨ req.maxCompletionTokens.isSome then
              some (max (req.maxTokens.getD 0) (req.maxCompletionTokens.getD 0))
            else none
          temperature := req.temperature
          topP := req.topP
          text := convertChatResponseFormatToResponsesText req.responseFormat
          toolChoice := convertToolChoice req.toolChoice
          tools := req.tools.map fun tools => tools.map convertTool
          parallelToolCalls := req.parallelTooCalls
          reasoning :=
            if req.reasoningEffort ≠ "" then some { effort := req.reasoningEffort, summary := "detailed" } else none
          user := req.user
          store := req.store
          metadata := req.metadata }

end

/-! ## What is carried -/

/-- A text as an item, unless it is empty. -/
def textItems (s : String) : List Item := if s ≠ "" then [.text s] else []

/-- The text of a part. -/
def InputPart.items : InputPart → List Item
  | .text _ s => textItems s
  | _ => []

/-- The texts, calls and results of an input item. -/
def InputItem.items : InputItem → List Item
  | .message _ (.text s) => textItems s
  | .message _ (.parts parts) => parts.flatMap InputPart.items
  | .functionCall callId name arguments => [.toolCall callId name arguments]
  | .functionCallOutput callId output => [.toolResult callId output]

namespace Message

/-- The texts of a message. -/
def texts (m : Message) : List String := (m.parseContent.filter fun part => part.type = "text").map (·.text)

/-- The items of a message for the input: its result, where it is a tool's, else its texts, and an assistant's complete
calls. A result without the id of its call becomes a text that says so. -/
def carried (marshal : MessageContent → String) (m : Message) : List Item :=
  if m.IsOutput then
    if GoString.trimSpace m.toolCallId = "" then
      [.text ("[tool_output_missing_call_id] " ++ toolOutput marshal m)]
    else [.toolResult (GoString.trimSpace m.toolCallId) (toolOutput marshal m)]
  else if m.IsSystem ∨ GoString.trimSpace m.role = "" then []
  else
    m.texts.flatMap textItems ++
      if GoString.trimSpace m.role = "assistant" then
        (m.toolCalls.filter fun tc => decide tc.Complete).map fun tc =>
          .toolCall tc.id (GoString.trimSpace tc.function.name) tc.function.arguments
      else []

/-- What a system message says: its texts that are not blank, each on lines of its own. -/
def said (m : Message) : String :=
  GoString.trimSpace (String.intercalate "\n" (m.texts.filter fun s => GoString.trimSpace s ≠ ""))

end Message

/-- What the system messages say that say anything. -/
def instructionTexts (messages : List Message) : List String :=
  ((messages.filter fun m => m.IsSystem).map Message.said).filter (· ≠ "")

/-- Every output comes after a call with its id. -/
def OutputsFollow (items : List InputItem) : Prop :=
  ∀ pre callId output post, items = pre ++ .functionCallOutput callId output :: post →
    ∃ name arguments, .functionCall callId name arguments ∈ pre

/-- Every tool message with an id comes after an assistant's complete call with that id, which is trimmed. -/
def Answers (messages : List Message) : Prop :=
  ∀ pre m post, messages = pre ++ m :: post → m.IsOutput → GoString.trimSpace m.toolCallId ≠ "" →
    ∃ a ∈ pre, GoString.trimSpace a.role = "assistant" ∧
      ∃ tc ∈ a.toolCalls, tc.Complete ∧ tc.id = m.toolCallId ∧ GoString.trimSpace tc.id = tc.id

section
variable {marshal : MessageContent → String} {m : Message} {messages : List Message}

theorem items_functionCalls (toolCalls : List ToolCallRequest) :
    (functionCalls toolCalls).flatMap InputItem.items =
      (toolCalls.filter fun tc => decide tc.Complete).map fun tc =>
        .toolCall tc.id (GoString.trimSpace tc.function.name) tc.function.arguments := by
  unfold functionCalls
  rw [List.flatMap_map, ← List.flatMap_pure_eq_map]
  rfl

theorem items_convertPart (role : String) (part : MediaContent) :
    (convertPart role part).items = if part.type = "text" then textItems part.text else [] := by
  unfold convertPart
  split
  next h => rw [if_pos h]; rfl
  next h => rw [h, if_neg (by decide)]; rfl
  next h => rw [h, if_neg (by decide)]; rfl
  next h => rw [h, if_neg (by decide)]; rfl
  next h => rw [h, if_neg (by decide)]; rfl
  next h _ _ _ _ => rw [if_neg h]; rfl

theorem items_map_convertPart (role : String) (parts : List MediaContent) :
    (parts.map (convertPart role)).flatMap InputPart.items =
      ((parts.filter fun part => part.type = "text").map (·.text)).flatMap textItems := by
  induction parts with
  | nil => rfl
  | cons part parts ih =>
    rw [List.map_cons, List.flatMap_cons, ih, items_convertPart]
    by_cases htext : part.type = "text"
    · rw [if_pos htext, List.filter_cons_of_pos (by simpa using htext)]
      rfl
    · rw [if_neg htext, List.filter_cons_of_neg (by simpa using htext)]
      rfl

theorem items_inputContent (role : String) :
    (InputItem.message role (inputContent role m)).items = m.texts.flatMap textItems := by
  unfold inputContent Message.texts
  split
  next h =>
    unfold Message.parseContent
    rw [h]
    rfl
  next s h =>
    unfold Message.parseContent
    rw [h]
    exact (List.append_nil _).symm
  next => exact items_map_convertPart role _

theorem items_inputItems : (inputItems marshal m).flatMap InputItem.items = m.carried marshal := by
  unfold inputItems Message.carried
  dsimp only
  by_cases houtput : m.IsOutput
  · have hrole : GoString.trimSpace m.role ≠ "" := by
      rcases houtput with h | h <;> rw [h] <;> decide
    rw [if_neg hrole, if_pos houtput, if_pos houtput]
    split
    · have hne : "[tool_output_missing_call_id] " ++ toolOutput marshal m ≠ "" := fun h =>
        absurd (String.append_eq_empty_iff.1 h).1 (by decide)
      rw [List.flatMap_singleton, InputItem.items, textItems, if_pos hne]
    · rfl
  by_cases hblank : GoString.trimSpace m.role = ""
  · rw [if_pos hblank, if_neg houtput, if_pos (.inr hblank)]
    rfl
  rw [if_neg hblank, if_neg houtput, if_neg houtput]
  by_cases hsystem : m.IsSystem
  · rw [if_pos hsystem, if_pos (.inl hsystem)]
    rfl
  rw [if_neg hsystem, if_neg (not_or.2 ⟨hsystem, hblank⟩), List.flatMap_cons, items_inputContent]
  split
  · rw [items_functionCalls]
  · rfl

/-! ## The instructions -/

theorem foldl_builder {texts : List String} (h : ∀ t ∈ texts, t ≠ "") (sb : String) :
    (texts.foldl (fun sb t => (if sb ≠ "" then sb ++ "\n" else sb) ++ t) sb) =
      String.intercalate "\n" (if sb = "" then texts else sb :: texts) := by
  induction texts generalizing sb with
  | nil =>
    by_cases hsb : sb = ""
    · rw [if_pos hsb, hsb]
      rfl
    · rw [if_neg hsb, String.intercalate_singleton]
      rfl
  | cons t texts ih =>
    obtain ⟨ht, htexts⟩ := List.forall_mem_cons.1 h
    rw [List.foldl_cons, ih htexts]
    by_cases hsb : sb = ""
    · rw [if_pos hsb, hsb, if_neg (by decide : ¬ ("" : String) ≠ ""), String.empty_append, if_neg ht]
    · rw [if_neg hsb, if_pos hsb, if_neg (fun hempty => ht (String.append_eq_empty_iff.1 hempty).2),
        String.intercalate_cons_append, String.intercalate_cons_cons]

theorem foldl_parts (parts : List MediaContent) :
    (parts.foldl (fun sb part =>
      if part.type = "text" ∧ GoString.trimSpace part.text ≠ "" then
        (if sb ≠ "" then sb ++ "\n" else sb) ++ part.text
      else sb) "") =
      String.intercalate "\n" (((parts.filter fun part => part.type = "text").map (·.text)).filter
        fun s => GoString.trimSpace s ≠ "") := by
  have hne : ∀ t ∈ ((parts.filter fun part => part.type = "text").map (·.text)).filter
      (fun s => GoString.trimSpace s ≠ ""), t ≠ "" := by
    rintro t ht rfl
    exact absurd (List.mem_filter.1 ht).2 (by decide)
  have hbuilder := foldl_builder hne ""
  rw [if_pos rfl] at hbuilder
  rw [← hbuilder, List.foldl_filter, List.foldl_map, List.foldl_filter]
  congr 1
  funext sb part
  by_cases htext : part.type = "text"
  · simp [htext]
  · simp [htext]

theorem instructionsPart_eq : instructionsPart m = m.said := by
  unfold instructionsPart Message.said Message.texts
  split
  next h =>
    unfold Message.parseContent
    rw [h]
    rfl
  next s h =>
    unfold Message.parseContent
    rw [h]
    by_cases hblank : GoString.trimSpace s = ""
    · simp [hblank]
      rfl
    · simp [hblank]
  next => rw [foldl_parts]

theorem instructionsParts_eq : instructionsParts messages = instructionTexts messages := by
  have hpart : instructionsPart = Message.said := funext fun _ => instructionsPart_eq
  unfold instructionsParts instructionTexts
  rw [hpart]

/-! ## Outputs and their calls -/

theorem outputsFollow_iff {items : List InputItem} : OutputsFollow items ↔
    AtEach (fun pre i => ∀ callId output, i = .functionCallOutput callId output →
      ∃ name arguments, .functionCall callId name arguments ∈ pre) [] items := by
  rw [atEach_iff]
  constructor
  · rintro h pre i post hitems callId output rfl
    exact h pre callId output post hitems
  · intro h pre callId output post hitems
    exact h pre _ post hitems callId output rfl

theorem answers_iff : Answers messages ↔
    AtEach (fun pre m => m.IsOutput → GoString.trimSpace m.toolCallId ≠ "" →
      ∃ a ∈ pre, GoString.trimSpace a.role = "assistant" ∧
        ∃ tc ∈ a.toolCalls, tc.Complete ∧ tc.id = m.toolCallId ∧ GoString.trimSpace tc.id = tc.id) [] messages := by
  rw [atEach_iff]
  rfl

theorem functionCall_mem_inputItems {tc : ToolCallRequest} (hrole : GoString.trimSpace m.role = "assistant")
    (htc : tc ∈ m.toolCalls) (hcomplete : tc.Complete) :
    .functionCall tc.id (GoString.trimSpace tc.function.name) tc.function.arguments ∈ inputItems marshal m := by
  have houtput : ¬ m.IsOutput := by
    rintro (h | h)
    · exact absurd (hrole.symm.trans h) (by decide)
    · exact absurd (hrole.symm.trans h) (by decide)
  have hsystem : ¬ m.IsSystem := by
    rintro (h | h)
    · exact absurd (hrole.symm.trans h) (by decide)
    · exact absurd (hrole.symm.trans h) (by decide)
  unfold inputItems
  dsimp only
  rw [hrole, if_neg (by decide), if_neg houtput, if_neg hsystem, if_pos rfl]
  refine List.mem_cons_of_mem _ (List.mem_map.2 ⟨tc, List.mem_filter.2 ⟨htc, ?_⟩, rfl⟩)
  exact decide_eq_true hcomplete

theorem output_mem_inputItems {callId output : String} (h : .functionCallOutput callId output ∈ inputItems marshal m) :
    m.IsOutput ∧ callId = GoString.trimSpace m.toolCallId ∧ callId ≠ "" := by
  unfold inputItems at h
  dsimp only at h
  split at h
  · cases h
  split at h
  next houtput =>
    split at h
    · cases List.mem_singleton.1 h
    next hid =>
      obtain ⟨rfl, -⟩ := InputItem.functionCallOutput.inj (List.mem_singleton.1 h)
      exact ⟨houtput, rfl, hid⟩
  split at h
  · cases h
  rcases List.mem_cons.1 h with h | h
  · cases h
  split at h
  · unfold functionCalls at h
    obtain ⟨tc, -, htc⟩ := List.mem_map.1 h
    cases htc
  · cases h

theorem outputsFollow_of_answers (h : Answers messages) : OutputsFollow (messages.flatMap (inputItems marshal)) := by
  rw [outputsFollow_iff, ← List.flatMap_nil, atEach_flatMap]
  refine atEach_iff.2 fun pre m post hmessages => atEach_iff.2 ?_
  rintro k i k' hk callId output rfl
  obtain ⟨houtput, rfl, hid⟩ := output_mem_inputItems (hk ▸ List.mem_append_right _ List.mem_cons_self)
  obtain ⟨a, ha, hrole, tc, htc, hcomplete, hanswers, htrim⟩ := h pre m post hmessages houtput hid
  refine ⟨GoString.trimSpace tc.function.name, tc.function.arguments, List.mem_append_left _ ?_⟩
  rw [← hanswers, htrim]
  exact List.mem_flatMap.2 ⟨a, ha, functionCall_mem_inputItems hrole htc hcomplete⟩

/-- The input holds what is carried of the messages, in order, and the instructions what the system messages say; and
every output follows its call, when every tool message with an id answers a complete call. -/
theorem responses_request_keeps (marshal : MessageContent → String) (req : GeneralOpenAIRequest)
    (hmodel : req.model ≠ "") (hn : req.n.getD 1 ≤ 1) :
    ∃ r, chatCompletionsRequestToResponsesRequest marshal (some req) = .ok r ∧
      r.input.flatMap InputItem.items = req.messages.flatMap (Message.carried marshal) ∧
      r.instructions.getD "" = String.intercalate "\n\n" (instructionTexts req.messages) ∧
      (Answers req.messages → OutputsFollow r.input) := by
  unfold chatCompletionsRequestToResponsesRequest
  dsimp only
  rw [if_neg hmodel, if_neg (by omega)]
  refine ⟨_, rfl, ?_, ?_, outputsFollow_of_answers⟩
  · rw [List.flatMap_assoc]
    exact List.flatMap_congr fun m _ => items_inputItems
  · rw [instructionsParts_eq]
    by_cases hnone : instructionTexts req.messages = []
    · rw [if_pos hnone, hnone]
      rfl
    · rw [if_neg hnone]
      rfl

/-- A conversation of a system, an assistant with a call and a tool. -/
def conversation (toolCall : ToolCallRequest) : GeneralOpenAIRequest :=
  { model := "gpt"
    messages :=
      [{ role := "system", content := .string "Be brief." },
       { role := "assistant", content := .string "I look it up.", toolCalls := [toolCall] },
       { role := "tool", content := .string "It is raining.", toolCallId := toolCall.id }] }

/-- With a function's call, everything is kept and the output follows the call. -/
theorem responses_request_keeps_conversation :
    ∃ r, chatCompletionsRequestToResponsesRequest (fun _ => "")
        (some (conversation { id := "c1", type := "function", function := { name := "weather" } })) = .ok r ∧
      r.input.flatMap InputItem.items =
        [.text "I look it up.", .toolCall "c1" "weather" "", .toolResult "c1" "It is raining."] ∧
      r.instructions.getD "" = "Be brief." ∧ OutputsFollow r.input := by
  obtain ⟨r, hr, hitems, hinstructions, hfollow⟩ := responses_request_keeps (fun _ => "")
    (conversation { id := "c1", type := "function", function := { name := "weather" } }) (by decide) (by decide)
  refine ⟨r, hr, hitems.trans ?_, hinstructions.trans ?_, hfollow (answers_iff.2 ⟨?_, ?_, ?_, trivial⟩)⟩
  · decide
  · decide
  · exact fun h => absurd h (by decide)
  · exact fun h => absurd h (by decide)
  · exact fun _ _ => ⟨_, .tail _ (.head _), by decide, _, .head _, by decide, rfl, by decide⟩

/-- The system's text is not in the input, and the call of another type is skipped, which leaves its output alone. -/
theorem custom_call_skipped :
    ∃ r, chatCompletionsRequestToResponsesRequest (fun _ => "")
        (some (conversation { id := "c1", type := "custom", function := { name := "weather" } })) = .ok r ∧
      r.input =
        [.message "assistant" (.text "I look it up."), .functionCallOutput "c1" "It is raining."] ∧
      ¬ OutputsFollow r.input := by
  refine ⟨_, rfl, ?_, ?_⟩
  · decide
  · intro h
    obtain ⟨name, arguments, hcall⟩ := h [.message "assistant" (.text "I look it up.")] "c1" "It is raining." []
      (by decide)
    cases List.mem_singleton.1 hcall

end

end NewApi.Convert

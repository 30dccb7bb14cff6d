import NewApi.Convert.Message

/-!
# From Claude's requests to OpenAI's

`ClaudeToOpenAIRequest` turns each Claude message into OpenAI messages: one for each tool result, and one for the rest,
which carries the tool calls if there are any, and the texts and images if there are none. So a message keeps what it
holds, in order, just if a message with tool calls has no text and no result behind a call, and one without has no
text or image before a result (`claude_request_keeps_iff`).
-/

namespace NewApi.Convert

/-! ## Claude's requests -/

/-- `ClaudeMessageSource`. -/
structure ClaudeMessageSource where
  type : String := ""
  mediaType : String := ""
  data : Json := .null
  url : String := ""

/-- `ClaudeMediaMessage`: a block. -/
structure ClaudeMediaMessage where
  type : String
  text : Option String := none
  source : Option ClaudeMessageSource := none
  cacheControl : Option Json := none
  id : String := ""
  name : String := ""
  input : Json := .null
  content : Json := .null
  toolUseId : String := ""

/-- `GetText`. -/
def ClaudeMediaMessage.getText (b : ClaudeMediaMessage) : String := b.text.getD ""

/-- The content of a message: a text, what decodes into blocks, or neither, with the decoder's error. -/
inductive ClaudeContent
  | string (s : String)
  | blocks (blocks : List ClaudeMediaMessage)
  | malformed (err : String)

/-- `ParseContent`, without the error. -/
def ClaudeContent.parse : ClaudeContent → List ClaudeMediaMessage
  | .blocks l => l
  | _ => []

/-- `ClaudeMessage`. -/
structure ClaudeMessage where
  role : String
  content : ClaudeContent

/-- `Tool`. -/
structure ClaudeTool where
  name : String
  description : String := ""
  inputSchema : Json

/-- `Thinking`. -/
structure Thinking where
  type : String
  budgetTokens : Option Int := none

/-- `ClaudeRequest`. The tools are the decoded ones; `effort` is that of the output config. -/
structure ClaudeRequest where
  model : String
  system : Option ClaudeContent := none
  messages : List ClaudeMessage := []
  maxTokens : Option Nat := none
  stopSequences : List String := []
  temperature : Option ℚ := none
  topP : Option ℚ := none
  topK : Option Int := none
  stream : Option Bool := none
  tools : List ClaudeTool := []
  thinking : Option Thinking := none
  effort : String := ""

/-- `RelayInfo`. -/
structure RelayInfo where
  isOpenRouter : Bool := false
  originModelName : String := ""
  upstreamModelName : String := ""
  isStream : Bool := false

/-- What the standard library makes of decoded values: `toJSONString`, the text of a list of Claude's media contents,
and the text of image data. -/
structure Codec where
  toJSONString : Json → String
  encodeMediaContent : Json → String
  formatData : Json → String

/-- Why a conversion fails: an error that it returns, or a panic. -/
inductive Failure
  | error (message : String)
  | panic
deriving DecidableEq

/-! ## The conversion -/

/-- `SearchToolNameByToolCallId`. -/
def ClaudeRequest.searchToolNameByToolCallId (req : ClaudeRequest) (toolCallId : String) : String :=
  (((req.messages.flatMap fun m => m.content.parse).find? fun b => b.id = toolCallId).map (·.name)).getD ""

section
variable (codec : Codec) (req : ClaudeRequest)

/-- The content of a tool result, as a text. -/
def resultContent (b : ClaudeMediaMessage) : String :=
  match b.content with
  | .string s => s
  | content => codec.encodeMediaContent content

/-- The address of an image. -/
def imageData (source : ClaudeMessageSource) : String :=
  "data:" ++ source.mediaType ++ ";base64," ++ codec.formatData source.data

/-- The message for a tool result. -/
def toolMessage (b : ClaudeMediaMessage) : Message :=
  { role := "tool"
    name := some (if b.name = "" then req.searchToolNameByToolCallId b.toolUseId else b.name)
    toolCallId := b.toolUseId
    content := .string (resultContent codec b) }

/-- What the loop over the blocks of a message collects. -/
structure Collected where
  toolMessages : List Message := []
  toolCalls : List ToolCallRequest := []
  mediaMessages : List MediaContent := []

/-- One block. An image without a source is a nil pointer. -/
def collectBlock (s : Collected) (b : ClaudeMediaMessage) : Except Failure Collected :=
  if b.type = "text" ∨ b.type = "input_text" then
    .ok { s with mediaMessages := s.mediaMessages ++
      [{ type := "text", text := b.getText, cacheControl := b.cacheControl }] }
  else if b.type = "image" then
    match b.source with
    | none => .error .panic
    | some source =>
      .ok { s with mediaMessages := s.mediaMessages ++
        [{ type := "image_url", imageUrl := some { url := imageData codec source } }] }
  else if b.type = "tool_use" then
    .ok { s with toolCalls := s.toolCalls ++
      [{ id := b.id, type := "function",
         function := { name := b.name, arguments := codec.toJSONString b.input } }] }
  else if b.type = "tool_result" then
    .ok { s with toolMessages := s.toolMessages ++ [toolMessage codec req b] }
  else .ok s

/-- The message for what is no tool result. -/
def ownMessage (role : String) (s : Collected) : Message :=
  { role
    toolCalls := s.toolCalls
    content := if s.mediaMessages ≠ [] ∧ s.toolCalls = [] then .media s.mediaMessages else .null }

/-- The messages for one of Claude's: those of its tool results, and its own if it holds anything. -/
def convertClaudeMessage (m : ClaudeMessage) : Except Failure (List Message) :=
  match m.content with
  | .string s => .ok [{ role := m.role, content := .string s }]
  | .malformed err => .error (.error err)
  | .blocks blocks => do
    let s ← blocks.foldlM (collectBlock codec req) {}
    let message := ownMessage m.role s
    .ok (s.toolMessages ++ if message.parseContent ≠ [] ∨ message.toolCalls ≠ [] then [message] else [])

/-- The system message. -/
def systemMessages (info : RelayInfo) : List Message :=
  match req.system with
  | none => []
  | some system =>
    match system with
    | .string s => if s ≠ "" then [{ role := "system", content := .string s }] else []
    | system =>
      let systems := system.parse
      if systems = [] then []
      else if info.isOpenRouter ∧ GoString.hasPrefix info.upstreamModelName "anthropic/claude" then
        [{ role := "system"
           content := .media (systems.map fun system =>
            { type := "text", text := system.getText, cacheControl := system.cacheControl }) }]
      else [{ role := "system", content := .string (String.join (systems.map (·.getText))) }]

/-- The reasoning that OpenRouter is asked for. -/
def requestReasoning (thinking : Thinking) : RequestReasoning :=
  if thinking.type = "enabled" then { enabled := true, maxTokens := thinking.budgetTokens.getD 0 }
  else if thinking.type = "adaptive" then { enabled := true }
  else {}

/-- `ClaudeToOpenAIRequest`. -/
def claudeToOpenAIRequest (info : RelayInfo) : Except Failure GeneralOpenAIRequest := do
  let messages ← req.messages.mapM (convertClaudeMessage codec req)
  let suffixed := GoString.hasSuffix info.originModelName "-thinking" ∧ ¬ GoString.hasSuffix req.model "-thinking"
  .ok
    { model := if ¬ info.isOpenRouter ∧ suffixed then req.model ++ "-thinking" else req.model
      messages := systemMessages req info ++ messages.flatten
      stream := req.stream
      maxTokens := req.maxTokens
      verbosity := if info.isOpenRouter ∧ req.effort ≠ "" then some req.effort else none
      reasoning := if info.isOpenRouter then req.thinking.map requestReasoning else none
      temperature := req.temperature
      topP := req.topP
      topK := req.topK
      stop :=
        match req.stopSequences with
        | [] => .none
        | [sequence] => .one sequence
        | sequences => .many sequences
      tools := some (req.tools.map fun tool =>
        { type := "function"
          function := { name := tool.name, description := tool.description, parameters := tool.inputSchema } }) }

/-! ## What a message holds -/

/-- The items of a block. -/
def ClaudeMediaMessage.items (b : ClaudeMediaMessage) : List Item :=
  if b.type = "text" ∨ b.type = "input_text" then [.text b.getText]
  else if b.type = "image" then b.source.toList.map fun source => .media (imageData codec source)
  else if b.type = "tool_use" then [.toolCall b.id b.name (codec.toJSONString b.input)]
  else if b.type = "tool_result" then [.toolResult b.toolUseId (resultContent codec b)]
  else []

/-- The items of a message. -/
def ClaudeMessage.items (m : ClaudeMessage) : List Item :=
  match m.content with
  | .string s => [.text s]
  | .blocks l => l.flatMap (·.items codec)
  | .malformed _ => []

/-- The content of a message decodes, and every image in it has a source. -/
def ClaudeMessage.Decodes (m : ClaudeMessage) : Prop :=
  match m.content with
  | .string _ => True
  | .blocks l => ∀ b ∈ l, b.type = "image" → b.source.isSome = true
  | .malformed _ => False

end

section
variable {codec : Codec} {req : ClaudeRequest} {m : ClaudeMessage} {out : List Message}

/-! ## What the loop collects -/

/-- What is collected from blocks with these items. -/
structure Collected.Holds (s : Collected) (items : List Item) : Prop where
  tools : ∀ t ∈ s.toolMessages, t.IsToolMessage ∧ t.toolCalls = []
  toolItems : s.toolMessages.flatMap Message.items = items.filter Item.isToolResult
  callItems : s.toolCalls.map ToolCallRequest.item = items.filter Item.isToolCall
  mediaItems : s.mediaMessages.flatMap MediaContent.items = items.filter fun i => !i.isToolResult && !i.isToolCall

theorem toolMessage_isToolMessage (b : ClaudeMediaMessage) : (toolMessage codec req b).IsToolMessage :=
  ⟨rfl, .inr rfl⟩

section
variable {s s' : Collected} {items : List Item} (h : s.Holds items)
include h

theorem Collected.Holds.media {m : MediaContent} {i : Item} (hm : m.items = [i]) (hresult : i.isToolResult = false)
    (hcall : i.isToolCall = false) :
    ({ s with mediaMessages := s.mediaMessages ++ [m] } : Collected).Holds (items ++ [i]) where
  tools := h.tools
  toolItems := by simp [h.toolItems, hresult]
  callItems := by simp [h.callItems, hcall]
  mediaItems := by simp [h.mediaItems, hm, hresult, hcall]

theorem Collected.Holds.call (t : ToolCallRequest) :
    ({ s with toolCalls := s.toolCalls ++ [t] } : Collected).Holds (items ++ [t.item]) where
  tools := h.tools
  toolItems := by
    rw [h.toolItems, List.filter_append]
    exact (List.append_nil _).symm
  callItems := by
    rw [List.map_append, h.callItems, List.filter_append]
    rfl
  mediaItems := by
    rw [h.mediaItems, List.filter_append]
    exact (List.append_nil _).symm

theorem Collected.Holds.result (b : ClaudeMediaMessage) :
    ({ s with toolMessages := s.toolMessages ++ [toolMessage codec req b] } : Collected).Holds
      (items ++ [.toolResult b.toolUseId (resultContent codec b)]) where
  tools := List.forall_mem_append.2
    ⟨h.tools, List.forall_mem_singleton.2 ⟨toolMessage_isToolMessage b, rfl⟩⟩
  toolItems := by
    rw [List.flatMap_append, h.toolItems, List.flatMap_singleton, (toolMessage_isToolMessage b).items,
      List.filter_append]
    rfl
  callItems := by
    rw [h.callItems, List.filter_append]
    exact (List.append_nil _).symm
  mediaItems := by
    rw [h.mediaItems, List.filter_append]
    exact (List.append_nil _).symm

theorem Collected.Holds.collectBlock {b : ClaudeMediaMessage} (hs : collectBlock codec req s b = .ok s') :
    s'.Holds (items ++ b.items codec) := by
  unfold Convert.collectBlock at hs
  unfold ClaudeMediaMessage.items
  split at hs
  next htext =>
    cases hs
    rw [if_pos htext]
    exact h.media rfl rfl rfl
  next htext =>
    rw [if_neg htext]
    split at hs
    next himage =>
      split at hs
      · cases hs
      next source hsource =>
        cases hs
        rw [if_pos himage, hsource]
        exact h.media rfl rfl rfl
    next himage =>
      rw [if_neg himage]
      split at hs
      next huse =>
        cases hs
        rw [if_pos huse]
        exact h.call _
      next huse =>
        rw [if_neg huse]
        split at hs
        next hresult =>
          cases hs
          rw [if_pos hresult]
          exact h.result b
        next hresult =>
          cases hs
          rw [if_neg hresult, List.append_nil]
          exact h

end

theorem Collected.Holds.start : ({} : Collected).Holds [] := ⟨List.forall_mem_nil _, rfl, rfl, rfl⟩

theorem Collected.Holds.foldlM {s s' : Collected} {items : List Item} (h : s.Holds items)
    {l : List ClaudeMediaMessage} (hs : l.foldlM (Convert.collectBlock codec req) s = .ok s') :
    s'.Holds (items ++ l.flatMap (·.items codec)) := by
  induction l generalizing s items with
  | nil =>
    cases hs
    rw [List.flatMap_nil, List.append_nil]
    exact h
  | cons b l ih =>
    rw [List.foldlM_cons] at hs
    cases hb : Convert.collectBlock codec req s b with
    | error e =>
      rw [hb] at hs
      cases hs
    | ok s₁ =>
      rw [hb] at hs
      rw [List.flatMap_cons, ← List.append_assoc]
      exact ih (h.collectBlock hb) hs

theorem foldlM_collectBlock_ok (codec : Codec) (req : ClaudeRequest) (s : Collected) {l : List ClaudeMediaMessage} :
    (∃ s', l.foldlM (collectBlock codec req) s = .ok s') ↔ ∀ b ∈ l, b.type = "image" → b.source.isSome = true := by
  induction l generalizing s with
  | nil => exact iff_of_true ⟨s, rfl⟩ (List.forall_mem_nil _)
  | cons b l ih =>
    rw [List.forall_mem_cons, List.foldlM_cons]
    have hb : (∃ s₁, collectBlock codec req s b = .ok s₁) ↔ (b.type = "image" → b.source.isSome = true) := by
      unfold collectBlock
      split
      next htext => exact iff_of_true ⟨_, rfl⟩ fun himage => by simp [himage] at htext
      split
      next himage =>
        cases hsource : b.source with
        | none => simp [himage]
        | some source => simp
      next himage =>
        refine iff_of_true ?_ fun h => absurd h himage
        split
        · exact ⟨_, rfl⟩
        split
        · exact ⟨_, rfl⟩
        · exact ⟨_, rfl⟩
    cases hcollect : collectBlock codec req s b with
    | error e =>
      rw [hcollect] at hb
      refine iff_of_false (fun h => ?_) fun h => ?_
      · obtain ⟨s', hs'⟩ := h
        cases hs'
      · obtain ⟨s₁, hs₁⟩ := hb.2 h.1
        cases hs₁
    | ok s₁ =>
      rw [hcollect] at hb
      exact (ih s₁).trans ⟨fun h => ⟨hb.1 ⟨s₁, rfl⟩, h⟩, fun h => h.2⟩

/-! ## What is kept of a message -/

/-- A result may precede anything, and nothing but a result a result. -/
def ResultsFirst (a b : Item) : Prop := b.isToolResult = true → a.isToolResult = true

/-- Items that the conversion can tell apart: with a tool call among them there is no text, and no result behind a
call; with none, no result behind a text or an image. -/
def Separable (l : List Item) : Prop :=
  if l.any Item.isToolCall then (∀ i ∈ l, i.isText = false) ∧ (l.filter fun i => !i.isMedia).Pairwise ResultsFirst
  else l.Pairwise ResultsFirst

/-- The items that the message after the tool messages carries. -/
def ownItems (l : List Item) : List Item :=
  if l.any Item.isToolCall then l.filter Item.isToolCall
  else l.filter fun i => !i.isToolResult && !i.isToolCall

theorem ownItems_of_call {l : List Item} (h : l.filter Item.isToolCall ≠ []) :
    ownItems l = l.filter Item.isToolCall := by
  refine if_pos ?_
  rw [Ne, List.filter_eq_nil_iff, not_forall] at h
  obtain ⟨i, hi⟩ := h
  rw [Classical.not_imp, not_not] at hi
  exact List.any_eq_true.2 ⟨i, hi⟩

theorem ownItems_of_no_call {l : List Item} (h : l.filter Item.isToolCall = []) :
    ownItems l = l.filter fun i => !i.isToolResult && !i.isToolCall := by
  refine if_neg fun hany => ?_
  obtain ⟨i, hi, hcall⟩ := List.any_eq_true.1 hany
  exact List.filter_eq_nil_iff.1 h i hi hcall

/-- The items of one list are in the other, in order, and all but the images. -/
def KeptIn (l k : List Item) : Prop :=
  (k.filter fun i => !i.isMedia) = (l.filter fun i => !i.isMedia) ∧ k.Sublist l

/-- With a tool call, the tool messages and the own message keep the items just if these are separable. -/
theorem keptIn_of_call {l : List Item} (hcall : l.any Item.isToolCall = true) :
    KeptIn l (l.filter Item.isToolResult ++ ownItems l) ↔ Separable l := by
  have hkept : ((l.filter Item.isToolResult ++ l.filter Item.isToolCall).filter fun i => !i.isMedia) =
      l.filter Item.isToolResult ++ l.filter Item.isToolCall := by
    rw [List.filter_eq_self]
    intro i hi
    cases i <;> simp_all [Item.isMedia, Item.isToolResult, Item.isToolCall]
  have hresults : ((l.filter fun i => !i.isMedia).filter Item.isToolResult) = l.filter Item.isToolResult := by
    rw [List.filter_filter]
    refine List.filter_congr fun i _ => ?_
    cases i <;> rfl
  -- without a text, what is no image and no result is a call
  have hcalls (htext : ∀ i ∈ l, i.isText = false) :
      ((l.filter fun i => !i.isMedia).filter fun i => !i.isToolResult) = l.filter Item.isToolCall := by
    rw [List.filter_filter]
    refine List.filter_congr fun i hi => ?_
    have hi := htext i hi
    cases i <;> simp_all [Item.isText, Item.isMedia, Item.isToolResult, Item.isToolCall]
  unfold KeptIn Separable ownItems
  rw [if_pos hcall, if_pos hcall, hkept]
  constructor
  · rintro ⟨heq, -⟩
    have htext : ∀ i ∈ l, i.isText = false := by
      intro i hi
      cases htext : i.isText with
      | false => rfl
      | true =>
        have hmedia : (!i.isMedia) = true := by
          cases i with
          | text s => rfl
          | _ => cases htext
        have hmem : i ∈ l.filter fun i => !i.isMedia := List.mem_filter.2 ⟨hi, hmedia⟩
        rw [← heq, List.mem_append, List.mem_filter, List.mem_filter] at hmem
        rcases hmem with ⟨-, hkind⟩ | ⟨-, hkind⟩
        · cases i with
          | text s => cases hkind
          | _ => cases htext
        · cases i with
          | text s => cases hkind
          | _ => cases htext
    refine ⟨htext, filter_append_filter_eq_iff.1 ?_⟩
    rw [hresults, hcalls htext, heq]
  · rintro ⟨htext, hfirst⟩
    have heq := filter_append_filter_eq_iff.2 hfirst
    rw [hresults, hcalls htext] at heq
    exact ⟨heq, heq ▸ List.filter_sublist⟩

theorem keptIn_of_no_call {l : List Item} (hcall : l.any Item.isToolCall = false) :
    KeptIn l (l.filter Item.isToolResult ++ ownItems l) ↔ Separable l := by
  have hown : ownItems l = l.filter fun i => !i.isToolResult := by
    unfold ownItems
    rw [if_neg (by simp [hcall])]
    refine List.filter_congr fun i hi => ?_
    have hi := List.any_eq_false.1 hcall i hi
    simp only [Bool.not_eq_true] at hi
    rw [hi, Bool.not_false, Bool.and_true]
  have hlen : (l.filter Item.isToolResult ++ l.filter fun i => !i.isToolResult).length = l.length :=
    (List.filter_append_perm Item.isToolResult l).length_eq
  unfold KeptIn Separable
  rw [hown, if_neg (by simp [hcall])]
  constructor
  · rintro ⟨-, hsub⟩
    exact filter_append_filter_eq_iff.1 (hsub.eq_of_length hlen)
  · intro hfirst
    rw [filter_append_filter_eq_iff.2 hfirst]
    exact ⟨rfl, List.Sublist.refl l⟩

theorem keptIn_iff {l : List Item} : KeptIn l (l.filter Item.isToolResult ++ ownItems l) ↔ Separable l := by
  cases hcall : l.any Item.isToolCall with
  | true => exact keptIn_of_call hcall
  | false => exact keptIn_of_no_call hcall

/-! ## The messages for one message -/

/-- What the messages for one of Claude's hold. -/
structure Converted (codec : Codec) (m : ClaudeMessage) (tools own : List Message) : Prop where
  isTool : ∀ t ∈ tools, t.IsToolMessage ∧ t.toolCalls = []
  notTool : ∀ t ∈ own, ¬ t.IsToolMessage
  toolItems : tools.flatMap Message.items = (m.items codec).filter Item.isToolResult
  ownItems : own.flatMap Message.items = ownItems (m.items codec)
  callItems : own.flatMap (fun t => t.toolCalls.map ToolCallRequest.item) = (m.items codec).filter Item.isToolCall

theorem ownMessage_not_isToolMessage {role : String} {s : Collected} : ¬ (ownMessage role s).IsToolMessage :=
  Message.not_isToolMessage rfl rfl

theorem Collected.Holds.ownMessage_items {s : Collected} {items : List Item} (h : s.Holds items) {role : String} :
    (ownMessage role s).items = ownItems items := by
  unfold Message.items
  rw [if_neg ownMessage_not_isToolMessage]
  unfold ownMessage Message.parseContent
  cases hcalls : s.toolCalls with
  | nil =>
    have hcall := h.callItems
    rw [hcalls] at hcall
    rw [ownItems_of_no_call hcall.symm, ← h.mediaItems, List.map_nil, List.append_nil]
    cases hmedia : s.mediaMessages with
    | nil => rfl
    | cons m l => rw [if_pos ⟨List.cons_ne_nil m l, rfl⟩]
  | cons t l =>
    have hcall := h.callItems
    rw [hcalls] at hcall
    rw [if_neg fun h => List.cons_ne_nil t l h.2, ownItems_of_call (hcall ▸ List.cons_ne_nil _ _), ← hcall]
    rfl

theorem converted_of_eq_ok (h : convertClaudeMessage codec req m = .ok out) :
    ∃ tools own, out = tools ++ own ∧ Converted codec m tools own := by
  unfold convertClaudeMessage at h
  cases hm : m.content with
  | malformed err =>
    rw [hm] at h
    cases h
  | string s =>
    rw [hm] at h
    obtain rfl := Except.ok.inj h
    have hitems : m.items codec = [.text s] := by
      unfold ClaudeMessage.items
      rw [hm]
    have hnot : ¬ ({ role := m.role, content := .string s } : Message).IsToolMessage :=
      Message.not_isToolMessage rfl rfl
    refine ⟨[], [_], rfl, List.forall_mem_nil _, List.forall_mem_singleton.2 hnot, ?_, ?_, ?_⟩
    · rw [hitems]
      rfl
    · rw [hitems, List.flatMap_singleton, Message.items, if_neg hnot]
      rfl
    · rw [hitems]
      rfl
  | blocks blocks =>
    rw [hm] at h
    have hitems : m.items codec = blocks.flatMap (·.items codec) := by
      unfold ClaudeMessage.items
      rw [hm]
    cases hs : blocks.foldlM (collectBlock codec req) {} with
    | error e =>
      simp only [hs] at h
      cases h
    | ok s =>
      simp only [hs] at h
      obtain rfl := Except.ok.inj h
      have hholds : s.Holds (m.items codec) := by
        rw [hitems]
        exact Collected.Holds.start.foldlM hs
      refine ⟨s.toolMessages, _, rfl, hholds.tools, Message.forall_mem_held ownMessage_not_isToolMessage,
        hholds.toolItems, ?_, ?_⟩
      · rw [Message.flatMap_items_held ownMessage_not_isToolMessage, hholds.ownMessage_items]
      · rw [Message.flatMap_toolCalls_held]
        exact hholds.callItems

theorem exists_convertClaudeMessage_iff (codec : Codec) (req : ClaudeRequest) : (∃ out, convertClaudeMessage codec req m = .ok out) ↔ m.Decodes := by
  unfold convertClaudeMessage ClaudeMessage.Decodes
  cases m.content with
  | malformed err => exact iff_of_false (fun ⟨out, h⟩ => by cases h) id
  | string s => exact iff_of_true ⟨_, rfl⟩ trivial
  | blocks blocks =>
    refine Iff.trans ?_ (foldlM_collectBlock_ok codec req {})
    cases hs : blocks.foldlM (collectBlock codec req) {} with
    | error e =>
      simp only [hs]
      exact iff_of_false (fun ⟨out, h⟩ => by cases h) fun ⟨s, h⟩ => by cases h
    | ok s =>
      simp only [hs]
      exact iff_of_true ⟨_, rfl⟩ ⟨_, rfl⟩

/-! ## The order of calls and results -/

/-- A tool use with this id is in one of the messages. -/
def CallsIn (codec : Codec) (messages : List ClaudeMessage) (id : String) : Prop :=
  ∃ m ∈ messages, ∃ name arguments, Item.toolCall id name arguments ∈ m.items codec

/-- Every tool result whose call is in the request has it in an earlier message. -/
def ResultsFollow (codec : Codec) (req : ClaudeRequest) : Prop :=
  ∀ pre m post, req.messages = pre ++ m :: post → ∀ id content, Item.toolResult id content ∈ m.items codec →
    CallsIn codec req.messages id → CallsIn codec pre id

theorem callsIn_append {pre l : List ClaudeMessage} {id : String} :
    CallsIn codec (pre ++ l) id ↔ CallsIn codec pre id ∨ CallsIn codec l id := by
  unfold CallsIn
  simp only [List.mem_append, or_and_right, exists_or]

namespace Converted
variable {tools own : List Message} (h : Converted codec m tools own)
include h

theorem carries_iff {id : String} : Carries (tools ++ own) id ↔ CallsIn codec [m] id := by
  rw [carries_append, or_iff_right (not_carries fun t ht => (h.isTool t ht).2)]
  have hmem : ∀ i, (∃ t ∈ own, ∃ c ∈ t.toolCalls, c.item = i) ↔ i ∈ m.items codec ∧ i.isToolCall = true := by
    intro i
    rw [← List.mem_filter, ← h.callItems]
    simp only [List.mem_flatMap, List.mem_map]
  constructor
  · rintro ⟨t, ht, c, hc, rfl⟩
    exact ⟨m, List.mem_singleton_self m, _, _, ((hmem c.item).1 ⟨t, ht, c, hc, rfl⟩).1⟩
  · rintro ⟨m', hm', name, arguments, hitem⟩
    rw [List.mem_singleton.1 hm'] at hitem
    obtain ⟨t, ht, c, hc, hci⟩ := (hmem _).2 ⟨hitem, rfl⟩
    exact ⟨t, ht, c, hc, (Item.toolCall.inj hci).1⟩

theorem exists_tool_iff {P : String → Prop} :
    (∀ t ∈ tools, P t.toolCallId) ↔ ∀ id content, Item.toolResult id content ∈ m.items codec → P id := by
  have hmem : ∀ i, (∃ t ∈ tools, i = Item.toolResult t.toolCallId t.stringContent) ↔
      i ∈ m.items codec ∧ i.isToolResult = true := by
    intro i
    rw [← List.mem_filter, ← h.toolItems, List.mem_flatMap]
    refine exists_congr fun t => and_congr_right fun ht => ?_
    rw [(h.isTool t ht).1.items, List.mem_singleton]
  constructor
  · intro hall id content hitem
    obtain ⟨t, ht, hi⟩ := (hmem _).2 ⟨hitem, rfl⟩
    rw [(Item.toolResult.inj hi).1]
    exact hall t ht
  · intro hall t ht
    exact hall _ _ ((hmem _).1 ⟨t, ht, rfl⟩).1

/-- Behind the messages for those before it, its tool messages follow their calls just if its results do. -/
theorem atEach_iff {K : String → Prop} {pre : List ClaudeMessage} {preOut : List Message}
    (hpre : ∀ id, Carries preOut id ↔ CallsIn codec pre id) :
    AtEach (fun pre t => t.IsToolMessage → K t.toolCallId → Carries pre t.toolCallId) preOut (tools ++ own) ↔
      ∀ id content, Item.toolResult id content ∈ m.items codec → K id → CallsIn codec pre id := by
  rw [← h.exists_tool_iff, atEach_append]
  have hown : AtEach (fun pre t => t.IsToolMessage → K t.toolCallId → Carries pre t.toolCallId) (preOut ++ tools) own :=
    NewApi.atEach_iff.2 fun k t k' hk htool =>
      absurd htool (h.notTool t (hk ▸ List.mem_append_right _ List.mem_cons_self))
  rw [and_iff_left hown, atEach_iff_forall]
  · refine forall₂_congr fun t ht => ?_
    rw [hpre]
    exact ⟨fun hall => hall (h.isTool t ht).1, fun hall _ => hall⟩
  · intro k t hk
    rw [carries_append, or_iff_left (not_carries fun t' ht' => (h.isTool t' (hk ht')).2)]

end Converted

theorem carries_flatten_iff {l : List ClaudeMessage} {outs : List (List Message)}
    (h : List.Forall₂ (fun m out => ∃ tools own, out = tools ++ own ∧ Converted codec m tools own) l outs)
    {id : String} : Carries outs.flatten id ↔ CallsIn codec l id := by
  induction h with
  | nil => simp [Carries, CallsIn]
  | @cons m out l outs hm _ ih =>
    obtain ⟨tools, own, rfl, hm⟩ := hm
    rw [List.flatten_cons, carries_append, hm.carries_iff, ih, ← callsIn_append, List.singleton_append]

theorem atEach_flatten_iff {K : String → Prop} {l pre : List ClaudeMessage} {outs : List (List Message)}
    {preOut : List Message}
    (h : List.Forall₂ (fun m out => ∃ tools own, out = tools ++ own ∧ Converted codec m tools own) l outs)
    (hpre : ∀ id, Carries preOut id ↔ CallsIn codec pre id) :
    AtEach (fun pre t => t.IsToolMessage → K t.toolCallId → Carries pre t.toolCallId) preOut outs.flatten ↔
      AtEach (fun pre m => ∀ id content, Item.toolResult id content ∈ m.items codec → K id → CallsIn codec pre id)
        pre l := by
  induction h generalizing pre preOut with
  | nil => exact Iff.rfl
  | @cons m out l outs hm _ ih =>
    obtain ⟨tools, own, rfl, hconv⟩ := hm
    rw [List.flatten_cons, atEach_append, hconv.atEach_iff hpre, AtEach]
    refine and_congr_right fun _ => ih fun id => ?_
    rw [carries_append, callsIn_append, hpre, hconv.carries_iff]

theorem systemMessages_spec {info : RelayInfo} :
    ∀ t ∈ systemMessages req info, ¬ t.IsToolMessage ∧ t.toolCalls = [] := by
  intro t ht
  unfold systemMessages at ht
  have hrole : "system" ≠ "tool" := by decide
  have hspec : ∀ content, ¬ ({ role := "system", content } : Message).IsToolMessage := fun _ =>
    Message.not_isToolMessage_of_role hrole
  split at ht
  · cases ht
  split at ht
  · split at ht
    · rw [List.mem_singleton.1 ht]
      exact ⟨hspec _, rfl⟩
    · cases ht
  · dsimp only at ht
    split at ht
    · cases ht
    split at ht
    · rw [List.mem_singleton.1 ht]
      exact ⟨hspec _, rfl⟩
    · rw [List.mem_singleton.1 ht]
      exact ⟨hspec _, rfl⟩

theorem toolMessagesFollow_iff_resultsFollow {info : RelayInfo} {outs : List (List Message)}
    (h : List.Forall₂ (fun m out => convertClaudeMessage codec req m = .ok out) req.messages outs) :
    ToolMessagesFollow (systemMessages req info ++ outs.flatten) ↔ ResultsFollow codec req := by
  have hconv := h.imp fun _ _ => converted_of_eq_ok
  have hsys : ∀ id, ¬ Carries (systemMessages req info) id := fun id =>
    not_carries fun t ht => (systemMessages_spec t ht).2
  have hcarries : ∀ id, Carries (systemMessages req info ++ outs.flatten) id ↔ CallsIn codec req.messages id := by
    intro id
    rw [carries_append, or_iff_right (hsys id), carries_flatten_iff hconv]
  have hpre : ∀ id, Carries (systemMessages req info) id ↔ CallsIn codec [] id := fun id =>
    iff_of_false (hsys id) (by rintro ⟨m, hm, -⟩; cases hm)
  rw [toolMessagesFollow_iff, atEach_append, and_iff_right]
  · simp only [hcarries]
    rw [List.nil_append, atEach_flatten_iff hconv hpre, NewApi.atEach_iff]
    rfl
  · exact NewApi.atEach_iff.2 fun k t k' hk htool =>
      absurd htool (systemMessages_spec t (hk ▸ List.mem_append_right _ List.mem_cons_self)).1

/-- What the messages for a message keep of it: the images apart, every item, and all in order. -/
def Keeps (codec : Codec) (m : ClaudeMessage) (out : List Message) : Prop :=
  KeptIn (m.items codec) (out.flatMap Message.items)

theorem keeps_iff (h : convertClaudeMessage codec req m = .ok out) : Keeps codec m out ↔ Separable (m.items codec) := by
  obtain ⟨tools, own, rfl, hconv⟩ := converted_of_eq_ok h
  unfold Keeps
  rw [List.flatMap_append, hconv.toolItems, hconv.ownItems, keptIn_iff]

theorem claudeToOpenAIRequest_messages {info : RelayInfo} {r : GeneralOpenAIRequest}
    (h : claudeToOpenAIRequest codec req info = .ok r) {outs : List (List Message)}
    (houts : req.messages.mapM (convertClaudeMessage codec req) = .ok outs) :
    r.messages = systemMessages req info ++ outs.flatten := by
  unfold claudeToOpenAIRequest at h
  rw [houts] at h
  obtain rfl := Except.ok.inj h
  rfl

theorem exists_claudeToOpenAIRequest_iff (codec : Codec) (req : ClaudeRequest) (info : RelayInfo) :
    (∃ r, claudeToOpenAIRequest codec req info = .ok r) ↔ ∀ m ∈ req.messages, m.Decodes := by
  simp only [← exists_convertClaudeMessage_iff codec req, ← exists_mapM_eq_ok_iff]
  unfold claudeToOpenAIRequest
  cases req.messages.mapM (convertClaudeMessage codec req) with
  | error e => exact iff_of_false (fun ⟨r, h⟩ => by cases h) fun ⟨outs, h⟩ => by cases h
  | ok outs => exact iff_of_true ⟨_, rfl⟩ ⟨outs, rfl⟩

/-- The conversion keeps what the messages hold, and every result behind its call, just if every message decodes and
is separable, and the results follow their calls in the request. -/
theorem claude_request_keeps_iff (codec : Codec) (req : ClaudeRequest) (info : RelayInfo) :
    (∃ r outs, claudeToOpenAIRequest codec req info = .ok r ∧
        req.messages.mapM (convertClaudeMessage codec req) = .ok outs ∧
        r.messages = systemMessages req info ++ outs.flatten ∧
        List.Forall₂ (Keeps codec) req.messages outs ∧ ToolMessagesFollow r.messages) ↔
      (∀ m ∈ req.messages, m.Decodes ∧ Separable (m.items codec)) ∧ ResultsFollow codec req := by
  constructor
  · rintro ⟨r, outs, hr, houts, hmessages, hkeeps, hfollow⟩
    have hdecodes := (exists_claudeToOpenAIRequest_iff codec req info).1 ⟨r, hr⟩
    rw [mapM_eq_ok_iff] at houts
    rw [hmessages, toolMessagesFollow_iff_resultsFollow houts] at hfollow
    refine ⟨fun m hm => ⟨hdecodes m hm, ?_⟩, hfollow⟩
    obtain ⟨i, hi, rfl⟩ := List.getElem_of_mem hm
    have hi' : i < outs.length := houts.length_eq ▸ hi
    exact (keeps_iff (houts.get hi hi')).1 (hkeeps.get hi hi')
  · rintro ⟨hall, hfollow⟩
    obtain ⟨r, hr⟩ := (exists_claudeToOpenAIRequest_iff codec req info).2 fun m hm => (hall m hm).1
    obtain ⟨outs, houts⟩ : ∃ outs, req.messages.mapM (convertClaudeMessage codec req) = .ok outs :=
      exists_mapM_eq_ok_iff.2 fun m hm => (exists_convertClaudeMessage_iff codec req).2 (hall m hm).1
    have hconv := mapM_eq_ok_iff.1 houts
    have hmessages := claudeToOpenAIRequest_messages hr houts
    refine ⟨r, outs, hr, houts, hmessages, ?_, ?_⟩
    · rw [List.forall₂_iff_get] at hconv ⊢
      refine ⟨hconv.1, fun i hi hi' => ?_⟩
      exact (keeps_iff (hconv.2 i hi hi')).2 (hall _ (List.get_mem _ _)).2
    · rw [hmessages, toolMessagesFollow_iff_resultsFollow hconv]
      exact hfollow

/-- An assistant that says something and calls a tool: the text is lost. -/
theorem claude_request_drops_text :
    let codec : Codec :=
      { toJSONString := fun _ => "\x7b\x7d", encodeMediaContent := fun _ => "null", formatData := fun _ => "" }
    let req : ClaudeRequest :=
      { model := "claude"
        messages :=
          [{ role := "user", content := .string "Is it raining?" },
           { role := "assistant"
             content := .blocks
              [{ type := "text", text := some "I look it up." },
               { type := "tool_use", id := "t1", name := "weather", input := .object [] }] }] }
    (∃ m ∈ req.messages, .text "I look it up." ∈ m.items codec) ∧
      ∃ r, claudeToOpenAIRequest codec req {} = .ok r ∧
        r.messages.flatMap Message.items = [.text "Is it raining?", .toolCall "t1" "weather" "\x7b\x7d"] := by
  refine ⟨⟨_, .tail _ (.head _), ?_⟩, _, rfl, ?_⟩
  · decide
  · decide

end

end NewApi.Convert

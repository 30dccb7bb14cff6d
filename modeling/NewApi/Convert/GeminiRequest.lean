import NewApi.Convert.ClaudeRequest
import Mathlib.Data.List.Flatten
import Mathlib.Data.List.Nodup

/-!
# From Gemini's requests to OpenAI's

`GeminiToOpenAIRequest` turns each content into OpenAI messages: one for each function response, and one for the rest.
Gemini's function calls have no ids, so the conversion numbers the calls of a content from one, and a response gets the
number of the calls that precede it in its own content. It keeps what the contents hold, with distinct ids and linked
responses, just if there are no responses, one content with calls at most and nothing beside the calls in it, and one
thing in each part (`gemini_request_keeps_iff`).
-/

namespace NewApi.Convert

/-! ## Gemini's requests -/

/-- `GeminiInlineData`. -/
structure GeminiInlineData where
  mimeType : String
  data : String
deriving DecidableEq

/-- `GeminiFileData`. -/
structure GeminiFileData where
  mimeType : String := ""
  fileUri : String := ""
deriving DecidableEq

/-- `FunctionCall`. -/
structure FunctionCall where
  functionName : String
  arguments : Json

/-- `GeminiFunctionResponse`. -/
structure GeminiFunctionResponse where
  name : String
  response : Json

/-- `GeminiPart`. -/
structure GeminiPart where
  text : String := ""
  inlineData : Option GeminiInlineData := none
  functionCall : Option FunctionCall := none
  functionResponse : Option GeminiFunctionResponse := none
  fileData : Option GeminiFileData := none

/-- `GeminiChatContent`. -/
structure GeminiChatContent where
  role : String := ""
  parts : List GeminiPart

/-- `GeminiChatTool`. The declarations may be missing, and those that are there may not decode. -/
structure GeminiChatTool where
  functionDeclarations : Option (Option (List FunctionRequest))

/-- A slice: its elements, and what its array holds behind them. -/
structure Slice (α : Type) where
  elems : List α := []
  spare : List α := []

/-- `s[:n]`: within the array, behind the elements too. -/
def Slice.upTo {α : Type} (s : Slice α) (n : Nat) : Option (List α) :=
  if n ≤ (s.elems ++ s.spare).length then some ((s.elems ++ s.spare).take n) else none

/-- `GeminiChatGenerationConfig`. -/
structure GeminiChatGenerationConfig where
  temperature : Option ℚ := none
  topP : Option ℚ := none
  topK : Option ℚ := none
  maxOutputTokens : Option Nat := none
  candidateCount : Option Int := none
  stopSequences : Slice String := {}

/-- `GeminiChatRequest`. The tools are those that `GetTools` decodes. -/
structure GeminiChatRequest where
  contents : List GeminiChatContent
  generationConfig : GeminiChatGenerationConfig := {}
  tools : List GeminiChatTool := []
  systemInstructions : Option GeminiChatContent := none

/-! ## The conversion -/

/-- The id of the call with this number. -/
def callId (k : Nat) : String := "call_" ++ k.repr

/-- `convertGeminiRoleToOpenAI`. -/
def convertGeminiRoleToOpenAI (geminiRole : String) : String :=
  match geminiRole with
  | "user" => "user"
  | "model" => "assistant"
  | "function" => "function"
  | _ => "user"

/-- `extractTextFromGeminiParts`. -/
def extractTextFromGeminiParts (parts : List GeminiPart) : String :=
  String.intercalate "\n" ((parts.map (·.text)).filter (· ≠ ""))

/-- The address of inline data. -/
def GeminiInlineData.url (d : GeminiInlineData) : String := "data:" ++ d.mimeType ++ ";base64," ++ d.data

section
variable (codec : Codec)

/-- One part: the first of the kinds that it has counts. -/
def collectPart (s : Collected) (part : GeminiPart) : Collected :=
  if part.text ≠ "" then { s with mediaMessages := s.mediaMessages ++ [{ type := "text", text := part.text }] }
  else
    match part.inlineData, part.fileData, part.functionCall, part.functionResponse with
    | some d, _, _, _ =>
      { s with mediaMessages := s.mediaMessages ++
        [{ type := "image_url", imageUrl := some { url := d.url, detail := "auto", mimeType := d.mimeType } }] }
    | none, some d, _, _ =>
      { s with mediaMessages := s.mediaMessages ++
        [{ type := "image_url", imageUrl := some { url := d.fileUri, detail := "auto", mimeType := d.mimeType } }] }
    | none, none, some call, _ =>
      { s with toolCalls := s.toolCalls ++
        [{ id := callId (s.toolCalls.length + 1), type := "function",
           function := { name := call.functionName, arguments := codec.toJSONString call.arguments } }] }
    | none, none, none, some r =>
      { s with toolMessages := s.toolMessages ++
        [{ role := "tool", toolCallId := callId s.toolCalls.length
           content := .string (codec.toJSONString r.response) }] }
    | none, none, none, none => s

/-- The content of a message without calls: a single text, or a list. -/
def geminiContent : List MediaContent → MessageContent
  | [] => .null
  | [m] => if m.type = "text" then .string m.text else .media [m]
  | contents => .media contents

/-- The message for what is no function response. -/
def geminiMessage (role : String) (s : Collected) : Message :=
  { role
    toolCalls := s.toolCalls
    content := if s.toolCalls ≠ [] then .null else geminiContent s.mediaMessages }

/-- The messages for a content: those of its function responses, and its own if it holds anything. -/
def convertGeminiContent (content : GeminiChatContent) : List Message :=
  let s := content.parts.foldl (collectPart codec) {}
  let message := geminiMessage (convertGeminiRoleToOpenAI content.role) s
  s.toolMessages ++ if message.parseContent ≠ [] ∨ message.toolCalls ≠ [] then [message] else []

/-- The tools for the declarations that decode. -/
def convertGeminiTools (tools : List GeminiChatTool) : List ToolCallRequest :=
  (tools.flatMap fun tool => (tool.functionDeclarations.join).getD []).map fun function =>
    { type := "function"
      function := { name := function.name, description := function.description, parameters := function.parameters } }

/-- The system message. -/
def geminiSystemMessages (req : GeminiChatRequest) : List Message :=
  match req.systemInstructions with
  | none => []
  | some content => [{ role := "system", content := .string (extractTextFromGeminiParts content.parts) }]

/-- The stop sequences that are sent: four of them, when there are any. -/
def geminiStop (sequences : Slice String) : Except Failure Stop :=
  if sequences.elems = [] then .ok .none
  else
    match sequences.upTo 4 with
    | none => .error .panic
    | some stop => .ok (.many stop)

/-- `GeminiToOpenAIRequest`. -/
def geminiToOpenAIRequest (req : GeminiChatRequest) (info : RelayInfo) : Except Failure GeneralOpenAIRequest := do
  let stop ← geminiStop req.generationConfig.stopSequences
  let tools := convertGeminiTools req.tools
  .ok
    { model := info.upstreamModelName
      stream := some info.isStream
      messages := geminiSystemMessages req ++ req.contents.flatMap (convertGeminiContent codec)
      temperature := req.generationConfig.temperature
      topP := req.generationConfig.topP.filter (· > 0)
      topK := (req.generationConfig.topK.filter (· > 0)).map Rat.floor
      maxTokens := req.generationConfig.maxOutputTokens.filter (· > 0)
      stop
      n := req.generationConfig.candidateCount.filter (· > 0)
      tools := if tools = [] then none else some tools }

end

/-! ## What a content holds -/

/-- An item without the id of its call; Gemini's have none. -/
def Item.anonymous : Item → Item
  | .toolCall _ name arguments => .toolCall "" name arguments
  | .toolResult _ content => .toolResult "" content
  | i => i

section
variable (codec : Codec)

/-- The items of a part, one for each kind that it has. -/
def GeminiPart.items (part : GeminiPart) : List Item :=
  (if part.text ≠ "" then [.text part.text] else []) ++
    part.inlineData.toList.map (fun d => .media d.url) ++
    part.fileData.toList.map (fun d => .media d.fileUri) ++
    part.functionCall.toList.map (fun call => .toolCall "" call.functionName (codec.toJSONString call.arguments)) ++
    part.functionResponse.toList.map fun r => .toolResult "" (codec.toJSONString r.response)

/-- The items of a content. -/
def GeminiChatContent.items (content : GeminiChatContent) : List Item := content.parts.flatMap (·.items codec)

end

theorem MediaContent.items_anonymous (m : MediaContent) : m.items.map Item.anonymous = m.items := by
  unfold MediaContent.items
  split <;> rfl

theorem MediaContent.items_of_text (m : MediaContent) (h : m.type = "text") : m.items = [.text m.text] := by
  unfold MediaContent.items
  rw [h]
  rfl

theorem callId_injective : Function.Injective callId := by
  intro a b h
  have hrepr := congrArg String.toList ((String.append_right_inj "call_").1 h)
  rw [Nat.toList_repr, Nat.toList_repr] at hrepr
  rw [← Nat.ofDigitChars_ten_toDigits (n := a), hrepr, Nat.ofDigitChars_ten_toDigits]

theorem callId_ne_empty (k : Nat) : callId k ≠ "" := by
  intro h
  have hpre := (String.append_eq_empty_iff.1 h).1
  exact absurd hpre (by decide)

section
variable {codec : Codec} {content : GeminiChatContent} {part : GeminiPart} {s : Collected} {items : List Item}

/-! ## What the loop collects -/

/-- What is collected from parts of which these items counted. -/
structure Collected.Numbers (s : Collected) (items : List Item) : Prop where
  tools : ∀ t ∈ s.toolMessages, t.IsToolMessage ∧ t.toolCalls = []
  toolIds : ∀ t ∈ s.toolMessages, ∃ k ≤ s.toolCalls.length, t.toolCallId = callId k
  callIds : s.toolCalls.map (·.id) = (List.range s.toolCalls.length).map fun i => callId (i + 1)
  toolItems : (s.toolMessages.flatMap Message.items).map Item.anonymous = items.filter Item.isToolResult
  callItems : (s.toolCalls.map ToolCallRequest.item).map Item.anonymous = items.filter Item.isToolCall
  mediaItems : s.mediaMessages.flatMap MediaContent.items = items.filter fun i => !i.isToolResult && !i.isToolCall

theorem Collected.Numbers.media (h : s.Numbers items) {m : MediaContent} {i : Item} (hm : m.items = [i])
    (hresult : i.isToolResult = false) (hcall : i.isToolCall = false) :
    ({ s with mediaMessages := s.mediaMessages ++ [m] } : Collected).Numbers (items ++ [i]) where
  tools := h.tools
  toolIds := h.toolIds
  callIds := h.callIds
  toolItems := by simp [h.toolItems, hresult]
  callItems := by rw [h.callItems]; simp [hcall]
  mediaItems := by simp [h.mediaItems, hm, hresult, hcall]

theorem Collected.Numbers.call (h : s.Numbers items) (name arguments : String) :
    ({ s with toolCalls := s.toolCalls ++
      [{ id := callId (s.toolCalls.length + 1), type := "function", function := { name, arguments } }] } :
        Collected).Numbers (items ++ [.toolCall "" name arguments]) where
  tools := h.tools
  toolIds t ht := by
    obtain ⟨k, hk, hid⟩ := h.toolIds t ht
    rw [List.length_append]
    exact ⟨k, by omega, hid⟩
  callIds := by
    rw [List.map_append, h.callIds, List.length_append, List.length_singleton, List.range_succ, List.map_append]
    rfl
  toolItems := by
    rw [h.toolItems, List.filter_append]
    exact (List.append_nil _).symm
  callItems := by
    rw [List.map_append, List.map_append, h.callItems, List.filter_append]
    rfl
  mediaItems := by
    rw [h.mediaItems, List.filter_append]
    exact (List.append_nil _).symm

theorem Collected.Numbers.response (h : s.Numbers items) (response : String) :
    ({ s with toolMessages := s.toolMessages ++
      [{ role := "tool", toolCallId := callId s.toolCalls.length, content := .string response }] } :
        Collected).Numbers (items ++ [.toolResult "" response]) := by
  have htool : ({ role := "tool", toolCallId := callId s.toolCalls.length, content := .string response } :
      Message).IsToolMessage := ⟨rfl, .inl (callId_ne_empty _)⟩
  refine ⟨?_, ?_, h.callIds, ?_, ?_, ?_⟩
  · exact List.forall_mem_append.2 ⟨h.tools, List.forall_mem_singleton.2 ⟨htool, rfl⟩⟩
  · exact List.forall_mem_append.2 ⟨h.toolIds, List.forall_mem_singleton.2 ⟨_, Nat.le_refl _, rfl⟩⟩
  · rw [List.flatMap_append, List.map_append, h.toolItems, List.flatMap_singleton, htool.items, List.filter_append]
    rfl
  · rw [h.callItems, List.filter_append]
    exact (List.append_nil _).symm
  · rw [h.mediaItems, List.filter_append]
    exact (List.append_nil _).symm

theorem Collected.Numbers.collectPart (h : s.Numbers items) :
    (collectPart codec s part).Numbers (items ++ (part.items codec).take 1) := by
  unfold Convert.collectPart GeminiPart.items
  split
  next htext => exact h.media rfl rfl rfl
  next htext =>
    split
    next d hinline =>
      rw [hinline]
      exact h.media rfl rfl rfl
    next d hinline hfile =>
      rw [hinline, hfile]
      exact h.media rfl rfl rfl
    next call hinline hfile hcall =>
      rw [hinline, hfile, hcall]
      exact h.call _ _
    next r hinline hfile hcall hresponse =>
      rw [hinline, hfile, hcall, hresponse]
      exact h.response _
    next hinline hfile hcall hresponse =>
      rw [hinline, hfile, hcall, hresponse]
      exact (List.append_nil items).symm ▸ h

/-- The items that count: the first of each part. -/
def GeminiChatContent.taken (codec : Codec) (content : GeminiChatContent) : List Item :=
  content.parts.flatMap fun part => (part.items codec).take 1

theorem Collected.Numbers.start : ({} : Collected).Numbers [] :=
  ⟨List.forall_mem_nil _, List.forall_mem_nil _, rfl, rfl, rfl, rfl⟩

theorem Collected.Numbers.foldl (h : s.Numbers items) (parts : List GeminiPart) :
    (parts.foldl (Convert.collectPart codec) s).Numbers
      (items ++ parts.flatMap fun part => (part.items codec).take 1) := by
  induction parts generalizing s items with
  | nil => exact (List.append_nil items).symm ▸ h
  | cons part parts ih =>
    rw [List.foldl_cons, List.flatMap_cons, ← List.append_assoc]
    exact ih h.collectPart

/-! ## The messages for a content -/

theorem geminiMessage_not_isToolMessage {role : String} : ¬ (geminiMessage role s).IsToolMessage :=
  Message.not_isToolMessage rfl rfl

theorem items_geminiContent {m : Message} {l : List MediaContent} (h : m.content = geminiContent l) :
    m.parseContent.flatMap MediaContent.items = l.flatMap MediaContent.items := by
  unfold Message.parseContent
  rw [h]
  match l with
  | [] => rfl
  | [c] =>
    have hone : geminiContent [c] = if c.type = "text" then .string c.text else .media [c] := rfl
    rw [hone]
    by_cases htext : c.type = "text"
    · rw [if_pos htext, List.flatMap_singleton, List.flatMap_singleton, c.items_of_text htext]
      rfl
    · rw [if_neg htext]
  | _ :: _ :: _ => rfl

theorem Collected.Numbers.geminiMessage_items (h : s.Numbers items) (role : String) :
    (geminiMessage role s).items.map Item.anonymous = ownItems items := by
  unfold Message.items
  rw [if_neg geminiMessage_not_isToolMessage]
  cases hcalls : s.toolCalls with
  | nil =>
    have hcall := h.callItems
    rw [hcalls] at hcall
    have hcontent : (geminiMessage role s).content = geminiContent s.mediaMessages := if_neg fun h => h hcalls
    have hnone : (geminiMessage role s).toolCalls = [] := hcalls
    rw [ownItems_of_no_call hcall.symm, ← h.mediaItems, items_geminiContent hcontent, hnone, List.map_nil,
      List.append_nil, List.map_flatMap]
    simp only [MediaContent.items_anonymous]
  | cons t l =>
    have hcall := h.callItems
    rw [hcalls] at hcall
    have hcontent : (geminiMessage role s).content = .null := if_pos (hcalls ▸ List.cons_ne_nil t l)
    have hcalls : (geminiMessage role s).toolCalls = t :: l := hcalls
    unfold Message.parseContent
    rw [ownItems_of_call (hcall ▸ List.cons_ne_nil _ _), ← hcall, hcontent, hcalls]
    rfl

/-- What the messages for a content hold. -/
structure Numbered (codec : Codec) (content : GeminiChatContent) (tools own : List Message) : Prop where
  isTool : ∀ t ∈ tools, t.IsToolMessage ∧ t.toolCalls = []
  notTool : ∀ t ∈ own, ¬ t.IsToolMessage
  toolIds : ∀ t ∈ tools, t.toolCallId = callId 0 ∨
    (content.taken codec).any Item.isToolCall ∧ ∃ k, t.toolCallId = callId (k + 1)
  callIds : (own.flatMap fun t => t.toolCalls.map (·.id)) =
    (List.range ((content.taken codec).countP Item.isToolCall)).map fun i => callId (i + 1)
  toolItems : (tools.flatMap Message.items).map Item.anonymous = (content.taken codec).filter Item.isToolResult
  ownItems : (own.flatMap Message.items).map Item.anonymous = Convert.ownItems (content.taken codec)

theorem numbered_convertGeminiContent (codec : Codec) (content : GeminiChatContent) : ∃ tools own, convertGeminiContent codec content = tools ++ own ∧
    Numbered codec content tools own := by
  have hholds : (content.parts.foldl (collectPart codec) {}).Numbers (content.taken codec) :=
    Collected.Numbers.start.foldl content.parts
  have hlen : (content.taken codec).countP Item.isToolCall =
      (content.parts.foldl (collectPart codec) {}).toolCalls.length := by
    rw [List.countP_eq_length_filter, ← hholds.callItems, List.length_map, List.length_map]
  refine ⟨_, _, rfl, hholds.tools, Message.forall_mem_held geminiMessage_not_isToolMessage, ?_, ?_,
    hholds.toolItems, ?_⟩
  · intro t ht
    obtain ⟨k, hk, hid⟩ := hholds.toolIds t ht
    cases k with
    | zero => exact .inl hid
    | succ k => exact .inr ⟨List.any_eq_true.2 (List.countP_pos_iff.1 (by omega)), k, hid⟩
  · rw [hlen, ← hholds.callIds]
    exact Message.flatMap_toolCalls_held _
  · rw [← hholds.geminiMessage_items (convertGeminiRoleToOpenAI content.role),
      Message.flatMap_items_held geminiMessage_not_isToolMessage]

/-! ## What is kept -/

/-- The tool messages come first, then the calls, or else the rest. -/
def arranged (l : List Item) : List Item := l.filter Item.isToolResult ++ ownItems l

/-- Items that the messages for a content hold in their order. -/
def GeminiChatContent.Arranged (codec : Codec) (content : GeminiChatContent) : Prop :=
  (∀ part ∈ content.parts, (part.items codec).length ≤ 1) ∧ arranged (content.items codec) = content.items codec

theorem items_convertGeminiContent : ((convertGeminiContent codec content).flatMap Message.items).map Item.anonymous =
    arranged (content.taken codec) := by
  obtain ⟨tools, own, heq, hconv⟩ := numbered_convertGeminiContent codec content
  rw [heq, List.flatMap_append, List.map_append, hconv.toolItems, hconv.ownItems]
  rfl

theorem length_arranged_le (l : List Item) : (arranged l).length ≤ l.length := by
  have hperm := (List.filter_append_perm Item.isToolResult l).length_eq
  have hown : (ownItems l).length ≤ (l.filter fun i => !i.isToolResult).length := by
    unfold ownItems
    rw [← List.countP_eq_length_filter]
    split
    · rw [← List.countP_eq_length_filter]
      refine List.countP_mono_left fun i _ hi => ?_
      cases i <;> first | rfl | cases hi
    · rw [← List.countP_eq_length_filter]
      refine List.countP_mono_left fun i _ hi => ?_
      exact (Bool.and_eq_true_iff.1 hi).1
  rw [List.length_append] at hperm
  unfold arranged
  rw [List.length_append]
  omega

theorem taken_sublist : (content.taken codec).Sublist (content.items codec) :=
  List.Sublist.flatMap_right _ fun _ _ => List.take_sublist _ _

theorem arranged_taken_iff : arranged (content.taken codec) = content.items codec ↔ content.Arranged codec := by
  constructor
  · intro heq
    have hlen := congrArg List.length heq
    have hle := length_arranged_le (content.taken codec)
    have htaken : content.taken codec = content.items codec := taken_sublist.eq_of_length_le (by omega)
    refine ⟨fun part hpart => ?_, htaken ▸ heq⟩
    have hpart := (flatMap_eq_iff fun part _ => (List.take_sublist 1 (part.items codec)).length_le).1 htaken part hpart
    rw [← hpart, List.length_take]
    exact Nat.min_le_left _ _
  · rintro ⟨hone, heq⟩
    have htaken : content.taken codec = content.items codec :=
      List.flatMap_congr fun part hpart => List.take_of_length_le (hone part hpart)
    rw [htaken, heq]

variable {contents : List GeminiChatContent}

theorem items_flatMap_iff :
    ((contents.flatMap (convertGeminiContent codec)).flatMap Message.items).map Item.anonymous =
        contents.flatMap (·.items codec) ↔ ∀ content ∈ contents, content.Arranged codec := by
  rw [List.flatMap_assoc, List.map_flatMap]
  simp only [items_convertGeminiContent, ← arranged_taken_iff]
  exact flatMap_eq_iff fun content _ => (length_arranged_le _).trans taken_sublist.length_le

/-! ## Distinct ids and linked responses -/

/-- The ids of the calls that messages carry. -/
def toolCallIds (messages : List Message) : List String := messages.flatMap fun m => m.toolCalls.map (·.id)

/-- A content with a function call. -/
def GeminiChatContent.HasCall (codec : Codec) (content : GeminiChatContent) : Prop :=
  (content.items codec).any Item.isToolCall = true

/-- At most one content has function calls. -/
def OneCalls (codec : Codec) (contents : List GeminiChatContent) : Prop :=
  contents.Pairwise fun a b => ¬ (a.HasCall codec ∧ b.HasCall codec)

/-- The functions that the responses of contents name. -/
def responseNames (contents : List GeminiChatContent) : List String :=
  contents.flatMap fun content => content.parts.filterMap fun part => part.functionResponse.map (·.name)

/-- Every tool message answers a call of an earlier message, of the function that its response names. -/
def Linked (names : List String) (messages : List Message) : Prop :=
  ∀ pre t post, messages = pre ++ t :: post → t.IsToolMessage →
    ∃ name, names[(pre.filter fun m => decide m.IsToolMessage).length]? = some name ∧
      ∃ m ∈ pre, ∃ c ∈ m.toolCalls, c.id = t.toolCallId ∧ c.function.name = name

theorem Linked.carries {names : List String} {pre post : List Message} {t : Message}
    (h : Linked names (pre ++ t :: post)) (ht : t.IsToolMessage) : Carries pre t.toolCallId := by
  obtain ⟨name, -, m, hm, c, hc, hid, -⟩ := h pre t post rfl ht
  exact ⟨m, hm, c, hc, hid⟩

theorem carries_iff_mem {messages : List Message} {id : String} : Carries messages id ↔ id ∈ toolCallIds messages := by
  unfold Carries toolCallIds
  simp only [List.mem_flatMap, List.mem_map]

theorem toolCallIds_flatMap : toolCallIds (contents.flatMap (convertGeminiContent codec)) =
    contents.flatMap fun content =>
      (List.range ((content.taken codec).countP Item.isToolCall)).map fun i => callId (i + 1) := by
  unfold toolCallIds
  rw [List.flatMap_assoc]
  refine List.flatMap_congr fun content _ => ?_
  obtain ⟨tools, own, heq, hconv⟩ := numbered_convertGeminiContent codec content
  have htools : (tools.flatMap fun t => t.toolCalls.map (·.id)) = [] := by
    rw [List.flatMap_eq_nil_iff]
    intro t ht
    rw [(hconv.isTool t ht).2]
    rfl
  rw [heq, List.flatMap_append, htools, hconv.callIds, List.nil_append]

theorem nodup_toolCallIds_iff (h : ∀ content ∈ contents, content.taken codec = content.items codec) :
    (toolCallIds (contents.flatMap (convertGeminiContent codec))).Nodup ↔ OneCalls codec contents := by
  have hinj : Function.Injective fun i => callId (i + 1) := fun a b hab => Nat.succ.inj (callId_injective hab)
  rw [toolCallIds_flatMap, List.nodup_flatMap, and_iff_right fun content _ => (List.nodup_range).map hinj]
  refine List.Pairwise.iff_of_mem fun {a b} ha hb => ?_
  have hcall : ∀ c : GeminiChatContent, c.taken codec = c.items codec →
      (c.HasCall codec ↔ 0 < (c.taken codec).countP Item.isToolCall) := by
    intro c hc
    rw [hc, List.countP_pos_iff]
    exact List.any_eq_true
  rw [hcall a (h a ha), hcall b (h b hb)]
  constructor
  · rintro hdisj ⟨hpa, hpb⟩
    exact hdisj (List.mem_map.2 ⟨0, List.mem_range.2 hpa, rfl⟩) (List.mem_map.2 ⟨0, List.mem_range.2 hpb, rfl⟩)
  · intro hnot id hida hidb
    obtain ⟨i, hi, -⟩ := List.mem_map.1 hida
    obtain ⟨j, hj, -⟩ := List.mem_map.1 hidb
    have hi := List.mem_range.1 hi
    have hj := List.mem_range.1 hj
    exact hnot ⟨by omega, by omega⟩

theorem geminiSystemMessages_spec {req : GeminiChatRequest} :
    ∀ t ∈ geminiSystemMessages req, ¬ t.IsToolMessage ∧ t.toolCalls = [] := by
  intro t ht
  have hrole : "system" ≠ "tool" := by decide
  unfold geminiSystemMessages at ht
  split at ht
  · cases ht
  · rw [List.mem_singleton.1 ht]
    exact ⟨Message.not_isToolMessage_of_role hrole, rfl⟩

/-- Responses are never linked, when one content at most has calls: the first of a content comes before the calls of
its own content, and those of others have other ids. -/
theorem not_isToolResult_of_linked {sys : List Message} {names : List String} (hsys : ∀ t ∈ sys, t.toolCalls = [])
    (hitems : ∀ content ∈ contents, content.taken codec = content.items codec) (hone : OneCalls codec contents)
    (hlinked : Linked names (sys ++ contents.flatMap (convertGeminiContent codec))) :
    ∀ content ∈ contents, ∀ i ∈ content.items codec, i.isToolResult = false := by
  intro content hcontent i hi
  by_contra hresult
  rw [Bool.not_eq_false] at hresult
  obtain ⟨before, behind, rfl⟩ := List.append_of_mem hcontent
  obtain ⟨tools, own, heq, hconv⟩ := numbered_convertGeminiContent codec content
  have htools : tools ≠ [] := by
    rintro rfl
    have hnone := hconv.toolItems
    rw [List.flatMap_nil, List.map_nil, eq_comm, List.filter_eq_nil_iff, hitems content hcontent] at hnone
    exact hnone i hi hresult
  obtain ⟨t, tools, rfl⟩ := List.exists_cons_of_ne_nil htools
  rw [List.flatMap_append, List.flatMap_cons, heq, List.cons_append, List.cons_append, ← List.append_assoc] at hlinked
  have hcarries := hlinked.carries (hconv.isTool t List.mem_cons_self).1
  rw [carries_append, or_iff_right (not_carries hsys), carries_iff_mem, toolCallIds_flatMap, List.mem_flatMap]
    at hcarries
  obtain ⟨c, hc, hid⟩ := hcarries
  obtain ⟨j, hj, hid⟩ := List.mem_map.1 hid
  rcases hconv.toolIds t List.mem_cons_self with hzero | ⟨hcall, -⟩
  · exact absurd (callId_injective (hid.trans hzero)) (by omega)
  · refine (List.pairwise_append.1 hone).2.2 c hc content List.mem_cons_self ⟨?_, ?_⟩
    · unfold GeminiChatContent.HasCall
      rw [← hitems c (List.mem_append_left _ hc), List.any_eq_true]
      have hpos := List.mem_range.1 hj
      exact List.countP_pos_iff.1 (by omega)
    · unfold GeminiChatContent.HasCall
      rw [← hitems content hcontent]
      exact hcall

theorem not_isToolMessage_of_no_result (h : ∀ i ∈ content.taken codec, i.isToolResult = false) :
    ∀ t ∈ convertGeminiContent codec content, ¬ t.IsToolMessage := by
  obtain ⟨tools, own, heq, hconv⟩ := numbered_convertGeminiContent codec content
  intro t ht htool
  rw [heq] at ht
  rcases List.mem_append.1 ht with ht | ht
  · have hnone := hconv.toolItems
    rw [List.filter_eq_nil_iff.2 fun i hi => by simp [h i hi], List.map_eq_nil_iff, List.flatMap_eq_nil_iff] at hnone
    have hitems := hnone t ht
    rw [htool.items] at hitems
    cases hitems
  · exact hconv.notTool t ht htool

/-! ## When everything is kept -/

/-- A content with one thing in each part, without responses, and with calls only if it has calls. -/
structure GeminiChatContent.Plain (codec : Codec) (content : GeminiChatContent) : Prop where
  one : ∀ part ∈ content.parts, (part.items codec).length ≤ 1
  noResponse : ∀ part ∈ content.parts, part.functionResponse = none
  callsAlone : content.HasCall codec → ∀ i ∈ content.items codec, i.isToolCall = true

theorem no_response_iff : (∀ part ∈ content.parts, part.functionResponse = none) ↔
    ∀ i ∈ content.items codec, i.isToolResult = false := by
  unfold GeminiChatContent.items
  simp only [List.mem_flatMap]
  constructor
  · rintro hnone i ⟨part, hpart, hi⟩
    unfold GeminiPart.items at hi
    rw [hnone part hpart] at hi
    simp only [List.mem_append, List.mem_map] at hi
    rcases hi with (((hi | ⟨d, -, rfl⟩) | ⟨d, -, rfl⟩) | ⟨call, -, rfl⟩) | ⟨r, hr, -⟩
    · split at hi
      · rw [List.mem_singleton.1 hi]
        rfl
      · cases hi
    · rfl
    · rfl
    · rfl
    · cases hr
  · intro hall part hpart
    cases hr : part.functionResponse with
    | none => rfl
    | some r =>
      refine absurd (hall (.toolResult "" (codec.toJSONString r.response)) ⟨part, hpart, ?_⟩) (fun h => by cases h)
      unfold GeminiPart.items
      rw [hr]
      exact List.mem_append_right _ (List.mem_singleton.2 rfl)

theorem arranged_eq_iff {l : List Item} (h : ∀ i ∈ l, i.isToolResult = false) :
    arranged l = l ↔ (l.any Item.isToolCall = true → ∀ i ∈ l, i.isToolCall = true) := by
  unfold arranged
  rw [List.filter_eq_nil_iff.2 fun i hi => by simp [h i hi], List.nil_append]
  cases hcall : l.any Item.isToolCall with
  | true =>
    unfold ownItems
    rw [if_pos hcall, List.filter_eq_self]
    exact ⟨fun hall _ => hall, fun hall => hall rfl⟩
  | false =>
    have hnone : ∀ i ∈ l, i.isToolCall = false := fun i hi => by simpa using List.any_eq_false.1 hcall i hi
    unfold ownItems
    rw [if_neg (by simp [hcall]), List.filter_eq_self]
    exact iff_of_true (fun i hi => by rw [h i hi, hnone i hi]; rfl) fun hfalse => by cases hfalse

theorem plain_iff : content.Plain codec ↔
    content.Arranged codec ∧ ∀ i ∈ content.items codec, i.isToolResult = false := by
  constructor
  · intro h
    have hresult : ∀ i ∈ content.items codec, i.isToolResult = false := no_response_iff.1 h.noResponse
    exact ⟨⟨h.one, (arranged_eq_iff hresult).2 h.callsAlone⟩, hresult⟩
  · rintro ⟨⟨hone, heq⟩, hresult⟩
    exact ⟨hone, no_response_iff.2 hresult, (arranged_eq_iff hresult).1 heq⟩

theorem GeminiChatContent.Arranged.taken (h : content.Arranged codec) :
    content.taken codec = content.items codec :=
  List.flatMap_congr fun part hpart => List.take_of_length_le (h.1 part hpart)

end

/-- The stop sequences of a request. -/
def Stop.sequences : Stop → List String
  | .none => []
  | .one sequence => [sequence]
  | .many sequences => sequences

theorem geminiStop_iff {sequences : Slice String} :
    (∃ stop, geminiStop sequences = .ok stop ∧ stop.sequences = sequences.elems.take 4) ↔
      sequences.elems = [] ∨ 4 ≤ sequences.elems.length := by
  unfold geminiStop Slice.upTo
  by_cases hnil : sequences.elems = []
  · rw [if_pos hnil, hnil]
    exact iff_of_true ⟨.none, rfl, rfl⟩ (.inl rfl)
  rw [if_neg hnil, or_iff_right hnil]
  by_cases hcap : 4 ≤ (sequences.elems ++ sequences.spare).length
  · rw [if_pos hcap]
    constructor
    · rintro ⟨stop, hstop, hsequences⟩
      obtain rfl := Except.ok.inj hstop
      have hlen := congrArg List.length hsequences
      simp only [Stop.sequences, List.length_take] at hlen
      omega
    · intro hlen
      exact ⟨_, rfl, List.take_append_of_le_length hlen⟩
  · rw [if_neg hcap]
    refine iff_of_false (fun ⟨stop, hstop, _⟩ => by cases hstop) fun hlen => hcap ?_
    rw [List.length_append]
    omega

/-- The conversion keeps the contents' items in order, with distinct ids, linked responses and the first four stop
sequences, just if there are none of these or four at least, every content is plain, and one at most has calls. -/
theorem gemini_request_keeps_iff (codec : Codec) (req : GeminiChatRequest) (info : RelayInfo) :
    (∃ r messages, geminiToOpenAIRequest codec req info = .ok r ∧
        r.messages = geminiSystemMessages req ++ messages ∧
        (messages.flatMap Message.items).map Item.anonymous = req.contents.flatMap (·.items codec) ∧
        (toolCallIds r.messages).Nodup ∧ Linked (responseNames req.contents) r.messages ∧
        r.stop.sequences = req.generationConfig.stopSequences.elems.take 4) ↔
      (req.generationConfig.stopSequences.elems = [] ∨ 4 ≤ req.generationConfig.stopSequences.elems.length) ∧
        (∀ content ∈ req.contents, content.Plain codec) ∧ OneCalls codec req.contents := by
  have hsys : ∀ t ∈ geminiSystemMessages req, t.toolCalls = [] := fun t ht => (geminiSystemMessages_spec t ht).2
  have hids : ∀ messages, toolCallIds (geminiSystemMessages req ++ messages) = toolCallIds messages := by
    intro messages
    unfold toolCallIds
    rw [List.flatMap_append, List.flatMap_eq_nil_iff.2 fun t ht => by rw [hsys t ht]; rfl, List.nil_append]
  constructor
  · rintro ⟨r, messages, hr, hmessages, hitems, hnodup, hlinked, hstop⟩
    unfold geminiToOpenAIRequest at hr
    cases hgs : geminiStop req.generationConfig.stopSequences with
    | error e =>
      rw [hgs] at hr
      cases hr
    | ok stop =>
      rw [hgs] at hr
      obtain rfl := Except.ok.inj hr
      obtain rfl := List.append_cancel_left hmessages
      have harranged := items_flatMap_iff.1 hitems
      have htaken : ∀ content ∈ req.contents, content.taken codec = content.items codec :=
        fun content hcontent => (harranged content hcontent).taken
      rw [hids, nodup_toolCallIds_iff htaken] at hnodup
      have hresult := not_isToolResult_of_linked hsys htaken hnodup hlinked
      exact ⟨geminiStop_iff.1 ⟨stop, hgs, hstop⟩,
        fun content hcontent => plain_iff.2 ⟨harranged content hcontent, hresult content hcontent⟩, hnodup⟩
  · rintro ⟨hstop, hplain, hone⟩
    obtain ⟨stop, hgs, hsequences⟩ := geminiStop_iff.2 hstop
    have harranged : ∀ content ∈ req.contents, content.Arranged codec :=
      fun content hcontent => (plain_iff.1 (hplain content hcontent)).1
    have htaken : ∀ content ∈ req.contents, content.taken codec = content.items codec :=
      fun content hcontent => (harranged content hcontent).taken
    have hnotTool : ∀ t ∈ geminiSystemMessages req ++ req.contents.flatMap (convertGeminiContent codec),
        ¬ t.IsToolMessage := by
      intro t ht
      rcases List.mem_append.1 ht with ht | ht
      · exact (geminiSystemMessages_spec t ht).1
      · obtain ⟨content, hcontent, ht⟩ := List.mem_flatMap.1 ht
        have hresult := (plain_iff.1 (hplain content hcontent)).2
        rw [← htaken content hcontent] at hresult
        exact not_isToolMessage_of_no_result hresult t ht
    unfold geminiToOpenAIRequest
    rw [hgs]
    refine ⟨_, _, rfl, rfl, items_flatMap_iff.2 harranged, ?_, ?_, hsequences⟩
    · rw [hids]
      exact (nodup_toolCallIds_iff htaken).2 hone
    · intro pre t post heq htool
      have hlist : geminiSystemMessages req ++ req.contents.flatMap (convertGeminiContent codec) = pre ++ t :: post :=
        heq
      exact absurd htool (hnotTool t (hlist ▸ List.mem_append_right _ List.mem_cons_self))

/-- A call, and its response in the next content: the response gets an id that no call has. -/
theorem gemini_response_unlinked :
    let codec : Codec :=
      { toJSONString := fun _ => "\x7b\x7d", encodeMediaContent := fun _ => "null", formatData := fun _ => "" }
    let req : GeminiChatRequest :=
      { contents :=
          [{ role := "user", parts := [{ text := "Is it raining?" }] },
           { role := "model"
             parts := [{ functionCall := some { functionName := "weather", arguments := .object [] } }] },
           { role := "user"
             parts := [{ functionResponse := some { name := "weather", response := .object [] } }] }] }
    ∃ r, geminiToOpenAIRequest codec req {} = .ok r ∧
      toolCallIds r.messages = ["call_1"] ∧
      (r.messages.filter fun m => decide m.IsToolMessage).map (·.toolCallId) = ["call_0"] := by
  refine ⟨_, rfl, ?_, ?_⟩
  · decide
  · decide

end NewApi.Convert

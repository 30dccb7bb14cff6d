import NewApi.Convert.Response

/-!
# From OpenAI's requests to Claude's

`RequestOpenAI2ClaudeMessage` goes over the messages twice. The first pass merges neighbouring messages of one role
whose contents are texts: the last message is taken back, and one with both texts is put in its place. The second pass
makes Claude's messages: the texts of system messages are collected, a result is added to the user's message before it,
and a message of the user is put first.

The first pass is read by runs of messages that are merged (`formatMessages_eq`).
-/

namespace NewApi.OpenAIToClaude

open NewApi.Convert

/-! ## Requests -/

/-- `Message`, as the decoder gives it. The tool calls may be missing. -/
structure ChatMessage where
  role : String
  content : Json := .null
  toolCalls : Option (List ToolCallRequest) := none
  toolCallId : String := ""

/-- The content of a message. -/
def messageContent : Json → MessageContent
  | .null => .null
  | .string s => .string s
  | .array items => .array items
  | v => .other v

namespace ChatMessage

def message (m : ChatMessage) : Message := { role := m.role, content := messageContent m.content }

/-- `IsStringContent`. -/
def isStringContent (m : ChatMessage) : Bool := m.message.isStringContent

/-- `StringContent`. -/
def stringContent (m : ChatMessage) : String := m.message.stringContent

/-- `ParseContent`. -/
def parseContent (m : ChatMessage) : List MediaContent := m.message.parseContent

/-- `ParseToolCalls`. -/
def parseToolCalls (m : ChatMessage) : List ToolCallRequest := m.toolCalls.getD []

/-- `SetStringContent`. -/
def setStringContent (content : String) (m : ChatMessage) : ChatMessage := { m with content := .string content }

end ChatMessage

/-- `GeneralOpenAIRequest`: what the messages, the tools and the stop sequences are made of. The reasoning is what it
decodes to, or the error. -/
structure ChatRequest where
  messages : List ChatMessage
  tools : List FunctionRequest := []
  stop : Json := .null
  reasoning : Option (Except String RequestReasoning) := none

/-- The content of a Claude message. -/
inductive Content
  | string (s : String)
  | blocks (l : List ClaudeMediaMessage)

/-- `ClaudeMessage`. -/
structure ClaudeMessage where
  role : String
  content : Content

/-- `Tool`. -/
structure Tool extends ClaudeTool where
  cacheControl : Option Json := none

/-- `ClaudeRequest`: its tools, stop sequences, system and messages. -/
structure ClaudeRequest where
  tools : List Tool
  stopSequences : List String
  system : List ClaudeMediaMessage
  messages : List ClaudeMessage

/-- `FileSource`. -/
structure FileSource where
  data : String
  mimeType : String := ""

/-- The decoder, and `GetBase64Data`, which gives the data and the type of a file, or an error. -/
structure Env where
  decoder : Decoder
  getBase64Data : FileSource → Except String (String × String)

/-! ## Tools and stop sequences -/

/-- The schema of a tool. A type that is no text panics. -/
def inputSchema (params : List (String × Json)) : Except Failure Json := do
  let field (name : String) := ((Json.object params).field? name).getD .null
  let type ←
    match field "type" with
    | .null => .ok []
    | .string s => .ok [("type", .string s)]
    | _ => .error .panic
  .ok (.object (type ++ [("properties", field "properties"), ("required", field "required")] ++
    params.filter fun p => p.1 ≠ "type" ∧ p.1 ≠ "properties" ∧ p.1 ≠ "required"))

/-- A tool with an object for its parameters is converted, and another one dropped. -/
def convertTool (tool : FunctionRequest) : Except Failure (List Tool) :=
  match tool.parameters with
  | .object params => do
    let inputSchema ← inputSchema params
    .ok [{ name := tool.name, description := tool.description, inputSchema }]
  | _ => .ok []

/-- The stop sequences. One in a list that is no text panics. -/
def stopSequences : Json → Except Failure (List String)
  | .string s => .ok [s]
  | .array items => items.mapM fun
    | .string s => .ok s
    | _ => .error .panic
  | _ => .ok []

/-! ## The first pass -/

/-- `strings.Trim(s, "\"")`. -/
def trimQuotes (s : String) : String := GoString.trim '"' s

/-- The last message and the next one are merged. -/
def Merges (lastMessage message : ChatMessage) : Prop :=
  (lastMessage.role = message.role ∧ lastMessage.role ≠ "tool") ∧
    lastMessage.isStringContent = true ∧ message.isStringContent = true

instance (lastMessage message : ChatMessage) : Decidable (Merges lastMessage message) :=
  inferInstanceAs (Decidable (_ ∧ _))

/-- A content that is missing or empty is filled. -/
def filled : Json → Json
  | .null => .string "..."
  | .string s => .string (if s = "" then "..." else s)
  | content => content

def fillContent (m : ChatMessage) : ChatMessage := { m with content := filled m.content }

/-- `fmtMessage`. -/
def copyMessage (message : ChatMessage) : ChatMessage :=
  { role := message.role
    content := message.content
    toolCallId := if message.role = "tool" then message.toolCallId else ""
    toolCalls := if message.role = "assistant" then message.toolCalls else none }

/-- `fmtMessage` of a message that is merged with the last one. -/
def mergeMessage (lastMessage message : ChatMessage) : ChatMessage :=
  (copyMessage message).setStringContent (trimQuotes (lastMessage.stringContent ++ " " ++ message.stringContent))

/-- What the first pass keeps. -/
structure Formatted where
  formatMessages : List ChatMessage := []
  lastMessage : ChatMessage := { role := "tool" }

/-- The body of the first loop. -/
def formatMessage (st : Formatted) (message : ChatMessage) : Formatted :=
  let merges := Merges st.lastMessage message
  let fmtMessage := fillContent (if merges then mergeMessage st.lastMessage message else copyMessage message)
  { formatMessages := (if merges then st.formatMessages.dropLast else st.formatMessages) ++ [fmtMessage]
    lastMessage := fmtMessage }

def formatMessages (messages : List ChatMessage) : List ChatMessage := (messages.foldl formatMessage {}).formatMessages

/-! ## The second pass -/

/-- `ToFileSource`. -/
def toFileSource (m : MediaContent) : Option FileSource :=
  match m.type with
  | "image_url" => (m.imageUrl.filter (·.url ≠ "")).map fun img => { data := img.url, mimeType := img.mimeType }
  | "input_audio" =>
    (m.inputAudio.filter (·.data ≠ "")).map fun audio =>
      { data := audio.data, mimeType := if audio.format ≠ "" then "audio/" ++ audio.format else "" }
  | "file" => (m.file.filter (·.fileData ≠ "")).map fun file => { data := file.fileData }
  | "video_url" => (m.videoUrl.filter (· ≠ "")).map fun url => { data := url }
  | _ => none

def textBlock (text : String) : ClaudeMediaMessage := { type := "text", text := some text }

/-- The block of a file. -/
def fileBlock (base64Data mimeType : String) : ClaudeMediaMessage :=
  { type := if GoString.hasPrefix mimeType "application/pdf" then "document" else "image"
    source := some { type := "base64", mediaType := mimeType, data := .string base64Data } }

def toolResultBlock (message : ChatMessage) : ClaudeMediaMessage :=
  { type := "tool_result", toolUseId := message.toolCallId, content := message.content }

section
variable (env : Env)

/-- The blocks of a media content. -/
def mediaBlocks (m : MediaContent) : Except Failure (List ClaudeMediaMessage) :=
  match m.type with
  | "text" => .ok (if m.text ≠ "" then [textBlock m.text] else [])
  | _ =>
    match toFileSource m with
    | none => .ok []
    | some source =>
      match env.getBase64Data source with
      | .error err => .error (.error ("get file data failed: " ++ err))
      | .ok (base64Data, mimeType) => .ok [fileBlock base64Data mimeType]

/-- The arguments of a tool call, where they are a map or null, and else an empty one. -/
def inputObj (arguments : String) : Json :=
  if arguments ≠ "" then (env.decoder.unmarshalMap arguments).getD (.object []) else .object []

def toolUseBlock (toolCall : ToolCallRequest) : ClaudeMediaMessage :=
  { type := "tool_use"
    id := toolCall.id
    name := toolCall.function.name
    input := inputObj env toolCall.function.arguments }

/-- What the second pass keeps. -/
structure Converted where
  claudeMessages : List ClaudeMessage := []
  isFirstMessage : Bool := true
  systemMessages : List ClaudeMediaMessage := []

/-- The blocks of a system message. -/
def systemBlocks (message : ChatMessage) : List ClaudeMediaMessage :=
  if message.isStringContent then
    if message.stringContent ≠ "" then [textBlock message.stringContent] else []
  else (message.parseContent.filter fun ctx => ctx.type = "text" ∧ ctx.text ≠ "").map fun ctx => textBlock ctx.text

/-- Before the first message, where it is not the user's, one of the user. -/
def leadMessage (message : ChatMessage) (st : Converted) : Converted :=
  if st.isFirstMessage then
    { st with
      isFirstMessage := false
      claudeMessages :=
        if message.role ≠ "user" then
          st.claudeMessages ++ [{ role := "user", content := .blocks [textBlock "..."] }]
        else st.claudeMessages }
  else st

/-- A block is added to a content. -/
def Content.push (block : ClaudeMediaMessage) : Content → Content
  | .string s => .blocks [textBlock s, block]
  | .blocks l => .blocks (l ++ [block])

/-- The messages with a result: in the last message, where it is the user's, or in a new one. -/
def addToolResult (message : ChatMessage) (claudeMessages : List ClaudeMessage) : List ClaudeMessage :=
  match claudeMessages.getLast? with
  | some lastMessage =>
    if lastMessage.role = "user" then
      claudeMessages.dropLast ++ [{ lastMessage with content := lastMessage.content.push (toolResultBlock message) }]
    else claudeMessages ++ [{ role := "user", content := .blocks [toolResultBlock message] }]
  | none => [{ role := "user", content := .blocks [toolResultBlock message] }]

/-- The content of a message that is neither of the system nor of a tool. -/
def convertContent (message : ChatMessage) : Except Failure Content :=
  if message.isStringContent ∧ message.toolCalls.isNone then
    .ok (.string (if message.stringContent = "" then "..." else message.stringContent))
  else do
    let media ← message.parseContent.mapM (mediaBlocks env)
    .ok (.blocks (media.flatten ++ message.parseToolCalls.map (toolUseBlock env)))

/-- The body of the second loop. -/
def convertMessage (st : Converted) (message : ChatMessage) : Except Failure Converted :=
  if message.role = "system" then
    .ok { st with systemMessages := st.systemMessages ++ systemBlocks message }
  else
    let st := leadMessage message st
    if message.role = "tool" then .ok { st with claudeMessages := addToolResult message st.claudeMessages }
    else do
      let content ← convertContent env message
      .ok { st with claudeMessages := st.claudeMessages ++ [{ role := message.role, content }] }

/-! ## The conversion -/

/-- `ephemeralCache`. -/
def ephemeralCache : Json := .object [("type", .string "ephemeral")]

/-- The last tool gets a cache control. -/
def markTools (tools : List Tool) : List Tool :=
  match tools.getLast? with
  | some tool => tools.dropLast ++ [{ tool with cacheControl := some (tool.cacheControl.getD ephemeralCache) }]
  | none => []

/-- The last block of a long system gets one. -/
def markSystem (system : List ClaudeMediaMessage) : List ClaudeMediaMessage :=
  match system.getLast? with
  | some last =>
    if (system.map fun block => block.getText.utf8ByteSize).sum ≥ 3000 then
      system.dropLast ++ [{ last with cacheControl := some (last.cacheControl.getD ephemeralCache) }]
    else system
  | none => []

/-- `RequestOpenAI2ClaudeMessage`. -/
def requestOpenAI2ClaudeMessage (textRequest : ChatRequest) : Except Failure ClaudeRequest := do
  let claudeTools ← textRequest.tools.mapM convertTool
  match textRequest.reasoning with
  | some (.error err) => .error (.error err)
  | _ =>
    let stopSequences ← stopSequences textRequest.stop
    let converted ← (formatMessages textRequest.messages).foldlM (convertMessage env) {}
    .ok
      { tools := markTools claudeTools.flatten
        stopSequences
        system := markSystem converted.systemMessages
        messages := converted.claudeMessages }

end

/-! ## Runs -/

namespace ChatMessage

/-- The content is a text, or missing. -/
def isText (m : ChatMessage) : Bool :=
  match m.content with
  | .null | .string _ => true
  | _ => false

end ChatMessage

/-- Messages that the first pass merges: one whose content is a text or missing, and texts of the same role behind it.
Results are not merged. A message that nothing is merged with is a run too. -/
structure Run where
  head : ChatMessage
  tail : List ChatMessage := []
  head_of_tail : tail ≠ [] → head.role ≠ "tool" ∧ head.isText = true
  joined : ∀ m ∈ tail, m.role = head.role ∧ m.isStringContent = true

namespace Run

def single (m : ChatMessage) : Run := ⟨m, [], fun h => absurd rfl h, fun _ hm => absurd hm List.not_mem_nil⟩

/-- The messages of a run. -/
def toList (r : Run) : List ChatMessage := r.head :: r.tail

def last (r : Run) : ChatMessage := r.tail.getLast?.getD r.head

/-- The next message belongs to the run. -/
def Joins (r : Run) (m : ChatMessage) : Prop :=
  (r.head.role = m.role ∧ r.head.role ≠ "tool") ∧ r.head.isText = true ∧ m.isStringContent = true

instance (r : Run) (m : ChatMessage) : Decidable (r.Joins m) := inferInstanceAs (Decidable (_ ∧ _))

def snoc (r : Run) (m : ChatMessage) (h : r.Joins m) : Run where
  head := r.head
  tail := r.tail ++ [m]
  head_of_tail _ := ⟨h.1.2, h.2.1⟩
  joined t ht := by
    rcases List.mem_append.1 ht with ht | ht
    · exact r.joined t ht
    · rw [List.mem_singleton.1 ht]
      exact ⟨h.1.1.symm, h.2.2⟩

end Run

/-- The runs of a list of messages, the first of which is begun. -/
def runsFrom (r : Run) : List ChatMessage → List Run
  | [] => [r]
  | m :: messages =>
    if h : r.Joins m then runsFrom (r.snoc m h) messages else r :: runsFrom (Run.single m) messages

/-- The runs of a list of messages. -/
def runs : List ChatMessage → List Run
  | [] => []
  | m :: messages => runsFrom (Run.single m) messages

/-- The message that the first pass makes of a run. -/
def formatRun (r : Run) : ChatMessage :=
  r.tail.foldl (fun lastMessage message => fillContent (mergeMessage lastMessage message))
    (fillContent (copyMessage r.head))

section
variable {m : ChatMessage} {r : Run} {messages : List ChatMessage}

theorem isStringContent_fillContent : (fillContent m).isStringContent = m.isText := by
  obtain ⟨role, content, toolCalls, toolCallId⟩ := m
  cases content <;> rfl

theorem isText_of_isStringContent (h : m.isStringContent = true) : m.isText = true := by
  obtain ⟨role, content, toolCalls, toolCallId⟩ := m
  cases content <;> first | rfl | cases h

theorem formatRun_single : formatRun (Run.single m) = fillContent (copyMessage m) := rfl

theorem formatRun_snoc (h : r.Joins m) : formatRun (r.snoc m h) = fillContent (mergeMessage (formatRun r) m) :=
  List.foldl_concat ..

theorem Run.cases (r : Run) : (∃ m, r = Run.single m) ∨ ∃ (r' : Run) (m : ChatMessage) (h : r'.Joins m), r = r'.snoc m h := by
  obtain ⟨head, tail, hhead, hjoined⟩ := r
  rcases List.eq_nil_or_concat' tail with rfl | ⟨tail, m, rfl⟩
  · exact .inl ⟨head, rfl⟩
  · have hm := hjoined m (List.mem_append_right _ (List.mem_singleton.2 rfl))
    have hne : tail ++ [m] ≠ [] := List.append_ne_nil_of_right_ne_nil _ (List.cons_ne_nil _ _)
    exact .inr ⟨⟨head, tail, fun _ => hhead hne, fun t ht => hjoined t (List.mem_append_left _ ht)⟩, m,
      ⟨⟨hm.1.symm, (hhead hne).1⟩, (hhead hne).2, hm.2⟩, rfl⟩

theorem role_formatRun : (formatRun r).role = r.head.role := by
  rcases r.cases with ⟨m, rfl⟩ | ⟨r', m, h, rfl⟩
  · rfl
  · rw [formatRun_snoc]
    exact h.1.1.symm

theorem isStringContent_formatRun : (formatRun r).isStringContent = r.head.isText := by
  rcases r.cases with ⟨m, rfl⟩ | ⟨r', m, h, rfl⟩
  · exact isStringContent_fillContent
  · rw [formatRun_snoc, isStringContent_fillContent]
    exact h.2.1.symm

theorem merges_formatRun_iff : Merges (formatRun r) m ↔ r.Joins m := by
  unfold Merges Run.Joins
  rw [role_formatRun, isStringContent_formatRun]

theorem formatMessage_of_joins (done : List ChatMessage) (h : r.Joins m) :
    formatMessage ⟨done ++ [formatRun r], formatRun r⟩ m = ⟨done ++ [formatRun (r.snoc m h)], formatRun (r.snoc m h)⟩ := by
  unfold formatMessage
  dsimp only
  rw [if_pos (merges_formatRun_iff.2 h), if_pos (merges_formatRun_iff.2 h), List.dropLast_concat, ← formatRun_snoc h]

theorem formatMessage_of_not_merges {st : Formatted} (h : ¬ Merges st.lastMessage m) :
    formatMessage st m = ⟨st.formatMessages ++ [formatRun (Run.single m)], formatRun (Run.single m)⟩ := by
  unfold formatMessage
  dsimp only
  rw [if_neg h, if_neg h, ← formatRun_single]

theorem foldl_formatMessage (done : List ChatMessage) :
    (messages.foldl formatMessage ⟨done ++ [formatRun r], formatRun r⟩).formatMessages =
      done ++ (runsFrom r messages).map formatRun := by
  induction messages generalizing done r with
  | nil => rfl
  | cons m messages ih =>
    rw [List.foldl_cons, runsFrom]
    split
    next h => rw [formatMessage_of_joins done h, ih]
    next h =>
      rw [formatMessage_of_not_merges (mt merges_formatRun_iff.1 h), ih, List.map_cons, List.append_assoc,
        List.singleton_append]

theorem formatMessages_eq : formatMessages messages = (runs messages).map formatRun := by
  cases messages with
  | nil => rfl
  | cons m messages =>
    have hfirst : ¬ Merges { role := "tool" } m := fun h => h.1.2 rfl
    unfold formatMessages
    rw [List.foldl_cons, formatMessage_of_not_merges hfirst]
    exact foldl_formatMessage []

theorem toList_snoc (h : r.Joins m) : (r.snoc m h).toList = r.toList ++ [m] := rfl

theorem flatten_runsFrom : (runsFrom r messages).flatMap Run.toList = r.toList ++ messages := by
  induction messages generalizing r with
  | nil => rw [runsFrom, List.flatMap_singleton, List.append_nil]
  | cons m messages ih =>
    rw [runsFrom]
    split
    next h => rw [ih, toList_snoc, List.append_assoc, List.singleton_append]
    · rw [List.flatMap_cons, ih]
      rfl

theorem flatten_runs : (runs messages).flatMap Run.toList = messages := by
  cases messages with
  | nil => rfl
  | cons m messages => exact flatten_runsFrom

theorem Run.tail_of_not_isText (h : r.head.isText = false) : r.tail = [] := by
  by_contra htail
  rw [(r.head_of_tail htail).2] at h
  cases h

theorem content_formatRun_of_not_isText (h : r.head.isText = false) : (formatRun r).content = r.head.content := by
  unfold formatRun
  rw [Run.tail_of_not_isText h]
  obtain ⟨⟨role, content, toolCalls, toolCallId⟩, tail, hhead, hjoined⟩ := r
  cases content <;> first | rfl | cases h

theorem parseContent_eq {m' : ChatMessage} (h : m'.content = m.content) : m'.parseContent = m.parseContent := by
  unfold ChatMessage.parseContent ChatMessage.message
  rw [h]
  rfl

end

end NewApi.OpenAIToClaude

import NewApi.Lib.GoString
import NewApi.Lib.Pieces
import Mathlib.Algebra.Field.Rat

/-!
# Chat messages

The messages that the format conversions read and build. The content of a message is an interface in the source: it is
null, a text, a list of media contents that a conversion has set, or what the JSON decoder made of the request.
`ParseContent` gives all of these as media contents, `StringContent` as a text.
-/

namespace NewApi.Convert

/-- A decoded JSON value. The fields of an object have different names. -/
inductive Json
  | null
  | bool (b : Bool)
  | number (literal : String)
  | string (s : String)
  | array (items : List Json)
  | object (fields : List (String × Json))

/-- A field of an object. -/
def Json.field? : Json → String → Option Json
  | .object fields, name => (fields.find? fun f => f.1 = name).map Prod.snd
  | _, _ => none

/-- A text in a field of an object. -/
def Json.stringField? (v : Json) (name : String) : Option String :=
  match v.field? name with
  | some (.string s) => some s
  | _ => none

/-- `MessageImageUrl`. -/
structure MessageImageUrl where
  url : String := ""
  detail : String := ""
  mimeType : String := ""
deriving DecidableEq

/-- `MessageInputAudio`. -/
structure MessageInputAudio where
  data : String
  format : String
deriving DecidableEq

/-- `MessageFile`. -/
structure MessageFile where
  fileName : String := ""
  fileData : String := ""
  fileId : String := ""
deriving DecidableEq

/-- `MediaContent`. -/
structure MediaContent where
  type : String
  text : String := ""
  imageUrl : Option MessageImageUrl := none
  inputAudio : Option MessageInputAudio := none
  file : Option MessageFile := none
  videoUrl : Option String := none
  cacheControl : Option Json := none

/-- `FunctionRequest`. -/
structure FunctionRequest where
  description : String := ""
  name : String
  parameters : Json := .null
  arguments : String := ""

/-- `ToolCallRequest`. -/
structure ToolCallRequest where
  id : String := ""
  type : String
  function : FunctionRequest

/-- The content of a message. -/
inductive MessageContent
  | null
  | string (s : String)
  | media (contents : List MediaContent)
  | array (items : List Json)
  | other (v : Json)

/-- `Message`. The tool calls are the decoded ones. -/
structure Message where
  role : String
  content : MessageContent := .null
  name : Option String := none
  toolCalls : List ToolCallRequest := []
  toolCallId : String := ""

/-- The stop sequences of a request. -/
inductive Stop
  | none
  | one (sequence : String)
  | many (sequences : List String)
deriving DecidableEq

/-- `ResponseFormat`. -/
structure ResponseFormat where
  type : String
  jsonSchema : Option Json := none

/-- `openrouter.RequestReasoning`. -/
structure RequestReasoning where
  enabled : Bool := false
  maxTokens : Int := 0
deriving DecidableEq

/-- `GeneralOpenAIRequest`, with the fields that the conversions write or read. -/
structure GeneralOpenAIRequest where
  model : String
  messages : List Message := []
  stream : Option Bool := none
  maxTokens : Option Nat := none
  maxCompletionTokens : Option Nat := none
  reasoningEffort : String := ""
  verbosity : Option String := none
  reasoning : Option RequestReasoning := none
  temperature : Option ℚ := none
  topP : Option ℚ := none
  topK : Option Int := none
  n : Option Int := none
  stop : Stop := .none
  tools : Option (List ToolCallRequest) := none
  toolChoice : Json := .null
  parallelTooCalls : Option Bool := none
  responseFormat : Option ResponseFormat := none
  user : Option Json := none
  store : Option Json := none
  metadata : Option Json := none

/-- The image of a content item: its address, or an object with the address. -/
def parseImageUrl : Option Json → MessageImageUrl
  | some (.string url) => { url, detail := "high" }
  | some v => { url := (v.stringField? "url").getD "", detail := (v.stringField? "detail").getD "high" }
  | none => { detail := "high" }

/-- The file of a content item: its id, or its name and data. -/
def parseFile (v : Json) : Option MessageFile :=
  match v.stringField? "file_id", v.stringField? "filename", v.stringField? "file_data" with
  | some fileId, _, _ => some { fileId }
  | none, some fileName, some fileData => some { fileName, fileData }
  | _, _, _ => none

/-- What `ParseContent` makes of an item of a decoded array. -/
def parseContentItem (item : Json) : Option MediaContent :=
  match item.stringField? "type" with
  | some "text" => (item.stringField? "text").map fun text => { type := "text", text }
  | some "image_url" => some { type := "image_url", imageUrl := some (parseImageUrl (item.field? "image_url")) }
  | some "input_audio" =>
    (item.field? "input_audio").bind fun audio =>
      match audio.stringField? "data", audio.stringField? "format" with
      | some data, some format => some { type := "input_audio", inputAudio := some { data, format } }
      | _, _ => none
  | some "file" =>
    ((item.field? "file").bind parseFile).map fun file => { type := "file", file := some file }
  | some "video_url" => (item.stringField? "video_url").map fun url => { type := "video_url", videoUrl := some url }
  | _ => none

namespace Message

/-- `ParseContent`. -/
def parseContent (m : Message) : List MediaContent :=
  match m.content with
  | .null | .other _ => []
  | .string s => [{ type := "text", text := s }]
  | .media contents => contents
  | .array items => items.filterMap parseContentItem

/-- `IsStringContent`. -/
def isStringContent (m : Message) : Bool :=
  match m.content with
  | .string _ => true
  | _ => false

/-- The text of a content item of type `text`. -/
def textItem (item : Json) : String :=
  match item.stringField? "type" with
  | some "text" => (item.stringField? "text").getD ""
  | _ => ""

/-- `StringContent`. -/
def stringContent (m : Message) : String :=
  match m.content with
  | .string s => s
  | .array items => String.join (items.map textItem)
  | _ => ""

end Message

/-! ## What a conversation holds -/

/-- A piece of a conversation that a conversion has to carry over. -/
inductive Item
  | text (s : String)
  | media (address : String)
  | toolCall (id name arguments : String)
  | toolResult (id content : String)
deriving DecidableEq

namespace Item

def isMedia : Item → Bool
  | .media _ => true
  | _ => false

def isToolResult : Item → Bool
  | .toolResult .. => true
  | _ => false

def isToolCall : Item → Bool
  | .toolCall .. => true
  | _ => false

def isText : Item → Bool
  | .text _ => true
  | _ => false

end Item

/-- A media content as an item; other kinds than texts and images are no items. -/
def MediaContent.items (m : MediaContent) : List Item :=
  match m.type, m.imageUrl with
  | "text", _ => [.text m.text]
  | "image_url", some image => [.media image.url]
  | _, _ => []

def ToolCallRequest.item (t : ToolCallRequest) : Item := .toolCall t.id t.function.name t.function.arguments

/-- A message that carries the result of a tool call. -/
def Message.IsToolMessage (m : Message) : Prop := m.role = "tool" ∧ (m.toolCallId ≠ "" ∨ m.name.isSome = true)

instance (m : Message) : Decidable m.IsToolMessage := inferInstanceAs (Decidable (_ ∧ _))

/-- The items of a message: the result that a tool message carries, or its contents and tool calls. -/
def Message.items (m : Message) : List Item :=
  if m.IsToolMessage then [.toolResult m.toolCallId m.stringContent]
  else m.parseContent.flatMap MediaContent.items ++ m.toolCalls.map ToolCallRequest.item

/-- A message with a tool call of this id is among the messages. -/
def Carries (messages : List Message) (id : String) : Prop := ∃ m ∈ messages, ∃ t ∈ m.toolCalls, t.id = id

/-- Every tool message comes after the message with its tool call, when there is one. -/
def ToolMessagesFollow (messages : List Message) : Prop :=
  ∀ pre m post, messages = pre ++ m :: post → m.IsToolMessage → Carries messages m.toolCallId →
    Carries pre m.toolCallId

section
variable {messages pre : List Message} {m : Message} {id : String}

theorem carries_append : Carries (pre ++ messages) id ↔ Carries pre id ∨ Carries messages id := by
  unfold Carries
  simp only [List.mem_append, or_and_right, exists_or]

theorem not_carries (h : ∀ m ∈ messages, m.toolCalls = []) : ¬ Carries messages id := by
  rintro ⟨m, hm, t, ht, -⟩
  rw [h m hm] at ht
  cases ht

theorem toolMessagesFollow_iff : ToolMessagesFollow messages ↔
    AtEach (fun pre m => m.IsToolMessage → Carries messages m.toolCallId → Carries pre m.toolCallId) [] messages := by
  rw [atEach_iff]
  rfl

theorem Message.IsToolMessage.items (h : m.IsToolMessage) : m.items = [.toolResult m.toolCallId m.stringContent] :=
  if_pos h

namespace Message

theorem not_isToolMessage (hname : m.name = none) (hid : m.toolCallId = "") : ¬ m.IsToolMessage := by
  rintro ⟨-, h | h⟩
  · exact h hid
  · rw [hname] at h
    cases h

theorem not_isToolMessage_of_role (h : m.role ≠ "tool") : ¬ m.IsToolMessage := fun htool => h htool.1

/-! A conversion adds a message only if it holds anything. -/

theorem forall_mem_held {P : Message → Prop} (h : P m) :
    ∀ t ∈ if m.parseContent ≠ [] ∨ m.toolCalls ≠ [] then [m] else [], P t := by
  intro t ht
  split at ht
  · rw [List.mem_singleton.1 ht]
    exact h
  · cases ht

theorem flatMap_items_held (h : ¬ m.IsToolMessage) :
    (if m.parseContent ≠ [] ∨ m.toolCalls ≠ [] then [m] else []).flatMap Message.items = m.items := by
  split
  · exact List.flatMap_singleton _ _
  next hempty =>
    simp only [not_or, not_not] at hempty
    unfold Message.items
    rw [if_neg h, hempty.1, hempty.2]
    rfl

theorem flatMap_toolCalls_held {α : Type} (f : ToolCallRequest → α) :
    (if m.parseContent ≠ [] ∨ m.toolCalls ≠ [] then [m] else []).flatMap (fun t => t.toolCalls.map f) =
      m.toolCalls.map f := by
  split
  · exact List.flatMap_singleton _ _
  next hempty =>
    simp only [not_or, not_not] at hempty
    rw [hempty.2]
    rfl

end Message

end

end NewApi.Convert

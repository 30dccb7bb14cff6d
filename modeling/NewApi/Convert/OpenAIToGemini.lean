import NewApi.Convert.OpenAIToClaude
import NewApi.Convert.GeminiRequest
import NewApi.Lib.Leftmost

/-!
# From OpenAI's requests to Gemini's

`CovertOpenAI2Gemini` makes a content of each message, of its tool calls and then of its contents. A result is added to
the content before it, unless that is the model's, and the texts of system messages become the system instruction. A
text is scanned for images that are written in it: what is before an image and the image become parts of their own.
-/

namespace NewApi.OpenAIToGemini

open NewApi.Convert
open NewApi.OpenAIToClaude (FileSource toFileSource)

/-! ## Requests -/

/-- `Message`, as the decoder gives it. -/
structure ChatMessage extends OpenAIToClaude.ChatMessage where
  name : Option String := none

/-- `GeminiPart`, with the signature of a thought. -/
structure Part extends GeminiPart where
  thoughtSignature : Option String := none

/-- `GeminiChatContent`. -/
structure Content where
  role : String
  parts : List Part := []

/-- The contents and the system instruction of a `GeminiChatRequest`. -/
structure GeminiRequest where
  contents : List Content
  systemInstructions : Option String

/-- Why the conversion fails. `diverges` is no error of the source: the scan of a text does not end. -/
inductive ConvertError
  | invalidArguments (name arguments : String)
  | decodeImage (err : String)
  | fileData (source : FileSource) (err : String)
  | mimeType (mimeType : String) (source : FileSource)
  | diverges

/-- The decoders of JSON, of files and of images, and whether the channel and the settings attach signatures.
`decodeBase64ImageData` gives the format of an image and its data. -/
structure Env where
  decoder : Decoder
  getBase64Data : FileSource → Except String (String × String)
  decodeBase64ImageData : String → Except String (String × String)
  attachThoughtSignature : Bool := false

/-! ## Images in texts -/

/-- `DecodeBase64ImageData` of what has no type. -/
def imageOf (env : Env) (base64String : List Char) : Except String (String × String) :=
  (env.decodeBase64ImageData (String.ofList base64String)).map fun (fileType, base64) => ("image/" ++ fileType, base64)

/-- `DecodeBase64FileData`. -/
def decodeBase64FileData (env : Env) (base64String : List Char) : Except String (String × String) :=
  match base64String.dropInfix? [','] with
  | none => imageOf env base64String
  | some (mimeType, data) =>
    match mimeType.dropInfix? [';'] with
    | none => imageOf env data
    | some (mimeType, _) =>
      match mimeType.dropInfix? [':'] with
      | none => imageOf env data
      | some (_, mimeType) => .ok (String.ofList mimeType, String.ofList data)

/-- The search for the next image: what is before the first `![`, the address between the first `](data:` behind it
and the `)` behind that, and the rest. -/
def findImage (text : List Char) : Option (List Char × List Char × List Char) :=
  match text.dropInfix? "![".toList with
  | none => none
  | some (textBefore, text) =>
    match ("![".toList ++ text).dropInfix? "](data:".toList with
    | none => none
    | some (_, text) => (("data:".toList ++ text).dropInfix? ")".toList).map fun (dataUrl, rest) => (textBefore, dataUrl, rest)

def textPart (text : String) : Part := { text }

def inlinePart (mimeType data : String) : Part := { inlineData := some { mimeType, data } }

/-- `thoughtSignatureBypassValue`. -/
def thoughtSignatureBypassValue : String := "context_engineering_is_the_way_to_go"

/-- The signature that is attached. -/
def signature (attach : Bool) : Option String := if attach then some thoughtSignatureBypassValue else none

/-- A text, where there is one. -/
def textParts (text : List Char) : List Part := if text = [] then [] else [textPart (String.ofList text)]

/-- The loop over the images of a text. -/
def imageParts (env : Env) (attach : Bool) : Nat → List Char → Except ConvertError (List Part)
  | 0, _ => .error .diverges
  | fuel + 1, text =>
    match findImage text with
    | none => .ok []
    | some (textBefore, dataUrl, rest) =>
      match decodeBase64FileData env dataUrl with
      | .error err => .error (.decodeImage err)
      | .ok (format, base64String) => do
        let parts ← imageParts env attach fuel rest
        .ok (textParts textBefore ++
          { inlinePart format base64String with thoughtSignature := signature attach } :: parts)

/-- The parts for a text: those of its images, or the text where it has none. -/
def convertText (env : Env) (attach : Bool) (text : String) : Except ConvertError (List Part) :=
  if text = "" then .ok []
  else
    match findImage text.toList with
    | none => .ok [textPart text]
    | some _ => imageParts env attach (text.toList.length + 1) text.toList

/-! ## Messages -/

/-- `geminiSupportedMimeTypes`. -/
def geminiSupportedMimeTypes : List String :=
  ["application/pdf", "audio/mpeg", "audio/mp3", "audio/wav", "image/png", "image/jpeg", "image/jpg", "image/webp",
    "image/heic", "image/heif", "text/plain", "video/mov", "video/mpeg", "video/mp4", "video/mpg", "video/avi",
    "video/wmv", "video/mpegps", "video/flv"]

/-- The parts for a file. -/
def convertFile (env : Env) (m : MediaContent) : Except ConvertError (List Part) :=
  match toFileSource m with
  | none => .ok []
  | some source =>
    match env.getBase64Data source with
    | .error err => .error (.fileData source err)
    | .ok (base64Data, mimeType) =>
      if GoString.toLower mimeType ∈ geminiSupportedMimeTypes then .ok [inlinePart mimeType base64Data]
      else .error (.mimeType mimeType source)

/-- The parts for a content of a message. -/
def convertMedia (env : Env) (attach : Bool) (m : MediaContent) : Except ConvertError (List Part) :=
  if m.type = "text" then convertText env attach m.text else convertFile env m

/-- The arguments of a call: none, an object, or the nil map. -/
def callArguments (env : Env) (arguments : String) : Option Json :=
  if arguments = "" then some (.object []) else env.decoder.unmarshalMap arguments

/-- `hasFunctionCallContent`. -/
def hasFunctionCallContent (call : FunctionCall) : Bool :=
  if GoString.trimSpace call.functionName ≠ "" then true
  else
    match call.arguments with
    | .object fields => fields ≠ []
    | _ => false

/-- The loop over the calls of a message. The first one with any content is signed. -/
def callParts (env : Env) (attach : Bool) : Bool → List ToolCallRequest → Except ConvertError (List Part × Bool)
  | signatureAttached, [] => .ok ([], signatureAttached)
  | signatureAttached, call :: calls =>
    match callArguments env call.function.arguments with
    | none => .error (.invalidArguments call.function.name call.function.arguments)
    | some arguments => do
      let functionCall : FunctionCall := { functionName := call.function.name, arguments }
      let signs := attach && !signatureAttached && hasFunctionCallContent functionCall
      let (parts, signatureAttached) ← callParts env attach (signatureAttached || signs) calls
      .ok ({ functionCall := some functionCall, thoughtSignature := signature signs } :: parts, signatureAttached)

/-- The first text is signed. -/
def signText : List Part → List Part
  | [] => []
  | part :: parts =>
    if part.text ≠ "" then { part with thoughtSignature := signature true } :: parts else part :: signText parts

/-- The parts of a message. -/
def convertParts (env : Env) (message : ChatMessage) : Except ConvertError (List Part) := do
  let attach := env.attachThoughtSignature && (message.role == "assistant" || message.role == "model")
  let (calls, signatureAttached) ← callParts env attach false message.parseToolCalls
  let contents ← message.parseContent.mapM (convertMedia env attach)
  let parts := calls ++ contents.flatten
  .ok (if attach && !signatureAttached then signText parts else parts)

/-- The response of a tool: a map, or one for a list or a text. -/
def toolResponse (env : Env) (content : String) : Json :=
  match env.decoder.unmarshalMap content with
  | some contentMap => contentMap
  | none =>
    match env.decoder.unmarshal content with
    | some (.array contentSlice) => .object [("result", .array contentSlice)]
    | _ => .object [("content", .string content)]

/-- What the loop over the messages keeps. The names of the calls are the last ones first. -/
structure Converted where
  contents : List Content := []
  toolCallIds : List (String × String) := []
  systemContent : List String := []

/-- The name of a tool: that of the message, or of the call. -/
def toolName (toolCallIds : List (String × String)) (message : ChatMessage) : String :=
  match message.name with
  | some name => name
  | none => (toolCallIds.lookup message.toolCallId).getD ""

/-- The contents with one part more: in the last content, where it is not the model's, or in a new one. -/
def addResponse (part : Part) (contents : List Content) : List Content :=
  match contents.getLast? with
  | some content =>
    if content.role = "model" then contents ++ [{ role := "user", parts := [part] }]
    else contents.dropLast ++ [{ content with parts := content.parts ++ [part] }]
  | none => [{ role := "user", parts := [part] }]

def responsePart (name : String) (response : Json) : Part := { functionResponse := some { name, response } }

/-- A message of the system. -/
def IsSystem (message : ChatMessage) : Prop := message.role = "system" ∨ message.role = "developer"

/-- A message with a result. -/
def IsResult (message : ChatMessage) : Prop := message.role = "tool" ∨ message.role = "function"

instance (message : ChatMessage) : Decidable (IsSystem message) := inferInstanceAs (Decidable (_ ∨ _))

instance (message : ChatMessage) : Decidable (IsResult message) := inferInstanceAs (Decidable (_ ∨ _))

/-- The body of the loop over the messages. -/
def convertMessage (env : Env) (st : Converted) (message : ChatMessage) : Except ConvertError Converted :=
  if IsSystem message then .ok { st with systemContent := st.systemContent ++ [message.stringContent] }
  else if IsResult message then
    let part := responsePart (toolName st.toolCallIds message) (toolResponse env message.stringContent)
    .ok { st with contents := addResponse part st.contents }
  else do
    let parts ← convertParts env message
    .ok
      { st with
        toolCallIds := (message.parseToolCalls.map fun call => (call.id, call.function.name)).reverse ++ st.toolCallIds
        contents :=
          if parts = [] then st.contents
          else st.contents ++ [{ role := if message.role = "assistant" then "model" else message.role, parts }] }

/-- `CovertOpenAI2Gemini`, what it makes of the messages. -/
def covertOpenAI2Gemini (env : Env) (messages : List ChatMessage) : Except ConvertError GeminiRequest := do
  let converted ← messages.foldlM (convertMessage env) {}
  .ok
    { contents := converted.contents
      systemInstructions :=
        if converted.systemContent = [] then none else some ("\n".intercalate converted.systemContent) }

end NewApi.OpenAIToGemini

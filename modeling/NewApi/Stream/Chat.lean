import NewApi.Convert.Response

/-!
# OpenAI chat streams for OpenAI's clients

`OaiStreamHandler` runs one chunk behind: a chunk is sent when the next one comes. What becomes of the last one is
decided at the end. Where it has the usage and the client did not ask for it, it is withheld, unless some choice has a
content or a reasoning. A finish reason or a tool call that comes with the usage is then lost, and so nothing is lost in
just the streams whose last chunk is not withheld or has nothing else (`oaiStreamHandler_forwards_iff`).
-/

namespace NewApi.ChatStream

open NewApi.Convert (Json Usage)

/-! ## Chunks -/

/-- `FunctionResponse`. -/
structure FunctionResponse where
  description : String := ""
  name : String := ""
  parameters : Option Json := none
  arguments : String := ""

/-- `ToolCallResponse`. -/
structure ToolCallResponse where
  index : Option Int := none
  id : String := ""
  type : Option Json := none
  function : FunctionResponse := {}

/-- `ChatCompletionsStreamResponseChoiceDelta`. The list of tool calls may be missing. -/
structure Delta where
  content : Option String := none
  reasoningContent : Option String := none
  reasoning : Option String := none
  role : String := ""
  toolCalls : Option (List ToolCallResponse) := none

namespace Delta

/-- `GetContentString`. -/
def getContentString (d : Delta) : String := d.content.getD ""

/-- `GetReasoningContent`. -/
def getReasoningContent (d : Delta) : String := (d.reasoningContent <|> d.reasoning).getD ""

end Delta

/-- `ChatCompletionsStreamResponseChoice`. -/
structure Choice where
  delta : Delta := {}
  logprobs : Option Json := none
  finishReason : Option String := none
  index : Int := 0

/-- `ChatCompletionsStreamResponse`. -/
structure Chunk where
  id : String := ""
  object : String := ""
  created : Int := 0
  model : String := ""
  systemFingerprint : Option String := none
  choices : List Choice := []
  usage : Option Usage := none

/-- What all chunks of a stream have. -/
structure StreamHead where
  id : String
  createAt : Int
  model : String

/-- A chunk with a choice. -/
def StreamHead.chunk (head : StreamHead) (choice : Choice) : Chunk :=
  { id := head.id, object := "chat.completion.chunk", created := head.createAt, model := head.model, choices := [choice] }

/-- `GenerateStartEmptyResponse`. -/
def generateStartEmptyResponse (head : StreamHead) : Chunk :=
  head.chunk { delta := { role := "assistant", content := some "" } }

/-- `GenerateStopResponse`. -/
def generateStopResponse (head : StreamHead) (finishReason : String) : Chunk :=
  head.chunk { finishReason := some finishReason }

/-- `ValidUsage`. -/
def validUsage (usage : Usage) : Bool := usage.promptTokens ≠ 0 ∨ usage.completionTokens ≠ 0

/-- The decoder of chunks: what a text is, if it is a chunk. The empty text is none. -/
structure ChunkDecoder where
  unmarshal : String → Option Chunk
  unmarshal_empty : unmarshal "" = none

/-- A text of the stream, and the chunk that it is. -/
structure ChunkText (d : ChunkDecoder) where
  text : String
  chunk : Chunk
  unmarshal_text : d.unmarshal text = some chunk

theorem ChunkText.text_ne_empty {d : ChunkDecoder} (t : ChunkText d) : t.text ≠ "" := fun h => by
  have hnone := d.unmarshal_empty
  rw [← h, t.unmarshal_text] at hnone
  cases hnone

/-! ## One behind -/

/-- What `OaiStreamHandler` keeps while it reads: the last text, the one before (for audio models), and what is sent. -/
structure Reader (α : Type) where
  lastStreamData : String := ""
  secondLastStreamData : String := ""
  streamItems : List String := []
  sent : List α := []

section
variable {α : Type} {isAudioModel : Bool} {send : String → List α}

/-- The callback of `OaiStreamHandler`. -/
def Reader.read (isAudioModel : Bool) (send : String → List α) (st : Reader α) (data : String) : Reader α :=
  let st := if st.lastStreamData ≠ "" then { st with sent := st.sent ++ send st.lastStreamData } else st
  if data ≠ "" then
    { st with
      secondLastStreamData :=
        if isAudioModel ∧ st.lastStreamData ≠ "" then st.lastStreamData else st.secondLastStreamData
      lastStreamData := data
      streamItems := st.streamItems ++ [data] }
  else st

/-- `StreamScannerHandler` with the callback, over the texts of the stream. -/
def Reader.ofTexts (isAudioModel : Bool) (send : String → List α) (texts : List String) : Reader α :=
  texts.foldl (Reader.read isAudioModel send) {}

theorem Reader.ofTexts_concat {texts : List String} {data : String} :
    Reader.ofTexts isAudioModel send (texts ++ [data]) =
      (Reader.ofTexts isAudioModel send texts).read isAudioModel send data :=
  List.foldl_concat ..

theorem Reader.ofTexts_spec (isAudioModel : Bool) (send : String → List α) {texts : List String} (h : ∀ data ∈ texts, data ≠ "") :
    (Reader.ofTexts isAudioModel send texts).lastStreamData = texts.getLast?.getD "" ∧
      (Reader.ofTexts isAudioModel send texts).sent = texts.dropLast.flatMap send := by
  induction texts using List.reverseRecOn with
  | nil => exact ⟨rfl, rfl⟩
  | append_singleton texts data ih =>
    obtain ⟨hlast, hsent⟩ := ih fun data hdata => h data (List.mem_append_left _ hdata)
    have hdata : data ≠ "" := h data (List.mem_append_right _ (List.mem_singleton.2 rfl))
    rw [Reader.ofTexts_concat, List.getLast?_concat, List.dropLast_concat]
    unfold Reader.read
    rw [if_pos hdata]
    refine ⟨rfl, ?_⟩
    dsimp only
    rcases List.eq_nil_or_concat' texts with rfl | ⟨init, last, rfl⟩
    · rfl
    · rw [List.getLast?_concat, Option.getD_some] at hlast
      have hne : last ≠ "" := h last (List.mem_append_left _ (List.mem_append_right _ (List.mem_singleton.2 rfl)))
      rw [hlast, if_pos hne]
      dsimp only
      rw [hsent, List.dropLast_concat, List.flatMap_append, List.flatMap_singleton]

theorem Reader.sent_append_last (isAudioModel : Bool) {send : String → List α} (hsend : send "" = [])
    {texts : List String} (h : ∀ data ∈ texts, data ≠ "") :
    (Reader.ofTexts isAudioModel send texts).sent ++ send (Reader.ofTexts isAudioModel send texts).lastStreamData =
      texts.flatMap send := by
  obtain ⟨hlast, hsent⟩ := Reader.ofTexts_spec isAudioModel send h
  rw [hlast, hsent]
  rcases List.eq_nil_or_concat' texts with rfl | ⟨init, last, rfl⟩
  · exact hsend
  · rw [List.getLast?_concat, List.dropLast_concat, List.flatMap_append, List.flatMap_singleton, Option.getD_some]

end

/-! ## The handler for OpenAI's clients -/

/-- What is sent to the client: a text as it came, a chunk, or the end. -/
inductive Frame where
  | text (data : String)
  | object (response : Chunk)
  | done

/-- The chunk that a client finds in a frame. -/
def Frame.chunk? (d : ChunkDecoder) : Frame → Option Chunk
  | .text data => d.unmarshal data
  | .object response => some response
  | .done => none

/-- The fields of `RelayInfo` that the handler uses, for a channel without `ThinkingToContent`. -/
structure RelayInfo where
  upstreamModelName : String
  forceFormat : Bool
  shouldIncludeUsage : Bool

/-- `isAudioModel`. -/
def RelayInfo.isAudioModel (info : RelayInfo) : Bool := GoString.contains (GoString.toLower info.upstreamModelName) "audio"

/-- `sendStreamData`. -/
def sendStreamData (d : ChunkDecoder) (info : RelayInfo) (data : String) : List Frame :=
  if data = "" then []
  else if ¬ info.forceFormat then [.text data]
  else
    match d.unmarshal data with
    | none => []
    | some response => [.object response]

/-- The variables of `OaiStreamHandler` that `handleLastResponse` sets. -/
structure LastResponse where
  responseId : String := ""
  createAt : Int := 0
  systemFingerprint : String := ""
  model : String
  usage : Option Usage := none
  containStreamUsage : Bool := false
  shouldSendLastResp : Bool := true

/-- The last chunk is kept for the content or the reasoning of a choice. -/
def hasText (response : Chunk) : Bool :=
  response.choices.any fun choice => choice.delta.getContentString ≠ "" ∨ choice.delta.getReasoningContent ≠ ""

/-- `handleLastResponse`. -/
def handleLastResponse (d : ChunkDecoder) (info : RelayInfo) (lastStreamData : String) (st : LastResponse) :
    LastResponse :=
  match d.unmarshal lastStreamData with
  | none => st
  | some response =>
    let st := { st with
      responseId := response.id
      createAt := response.created
      systemFingerprint := response.systemFingerprint.getD ""
      model := response.model }
    if response.usage.any validUsage then
      { st with
        containStreamUsage := true
        usage := response.usage
        shouldSendLastResp := if ¬ info.shouldIncludeUsage then hasText response else st.shouldSendLastResp }
    else st

/-- The variables before the last response. An audio model tells its usage with the last chunk but one. -/
def startResponse (d : ChunkDecoder) (info : RelayInfo) (secondLastStreamData : String) : LastResponse :=
  let st : LastResponse := { model := info.upstreamModelName }
  if info.isAudioModel ∧ secondLastStreamData ≠ "" then
    match d.unmarshal secondLastStreamData with
    | none => st
    | some response =>
      if response.usage.any validUsage then { st with usage := response.usage, containStreamUsage := true } else st
  else st

/-- `GenerateFinalUsageResponse`, with the fingerprint of the stream. -/
def generateFinalUsageResponse (st : LastResponse) (usage : Usage) : Chunk :=
  { id := st.responseId
    object := "chat.completion.chunk"
    created := st.createAt
    model := st.model
    systemFingerprint := some st.systemFingerprint
    choices := []
    usage := some usage }

/-- `HandleFinalResponse`. -/
def handleFinalResponse (info : RelayInfo) (st : LastResponse) (usage : Usage) : List Frame :=
  (if info.shouldIncludeUsage ∧ ¬ st.containStreamUsage then [.object (generateFinalUsageResponse st usage)] else []) ++
    [.done]

section
variable (d : ChunkDecoder) (finalUsage : Option Usage → List String → Usage) (info : RelayInfo)

/-- `OaiStreamHandler`: what is sent for the texts of a stream. `finalUsage` gives the usage in the end, from the one
that was found, or by an estimate from the texts. -/
def oaiStreamHandler (texts : List String) : List Frame :=
  let reader := Reader.ofTexts info.isAudioModel (sendStreamData d info) texts
  let st := handleLastResponse d info reader.lastStreamData (startResponse d info reader.secondLastStreamData)
  let last := if st.shouldSendLastResp then sendStreamData d info reader.lastStreamData else []
  reader.sent ++ last ++ handleFinalResponse info st (finalUsage st.usage reader.streamItems)

end

/-! ## What is lost -/

/-- A choice that carries nothing. -/
structure Choice.Bare (choice : Choice) : Prop where
  content : choice.delta.content.getD "" = ""
  reasoningContent : choice.delta.reasoningContent.getD "" = ""
  reasoning : choice.delta.reasoning.getD "" = ""
  role : choice.delta.role = ""
  toolCalls : choice.delta.toolCalls.getD [] = []
  logprobs : choice.logprobs = none
  finishReason : choice.finishReason.getD "" = ""

/-- A chunk that carries nothing besides its usage. -/
def Chunk.OnlyUsage (response : Chunk) : Prop := ∀ choice ∈ response.choices, choice.Bare

/-- The frames have the chunks of the stream, in order and once each, but may miss a last one that carries nothing
besides its usage. Behind them come only chunks without choices, which tell the usage. -/
def LosesNothing (d : ChunkDecoder) (chunks : List Chunk) (frames : List Frame) : Prop :=
  ∃ own : List Chunk, (∀ response ∈ own, response.choices = []) ∧
    (frames.filterMap (Frame.chunk? d) = chunks ++ own ∨
      ∃ init last, chunks = init ++ [last] ∧ last.OnlyUsage ∧ frames.filterMap (Frame.chunk? d) = init ++ own)

/-- The last chunk has the usage, the client did not ask for it, and no choice has a text. -/
def Withheld (info : RelayInfo) (last : Chunk) : Prop :=
  last.usage.any validUsage = true ∧ info.shouldIncludeUsage = false ∧ hasText last = false

section
variable {d : ChunkDecoder} {info : RelayInfo} {stream : List (ChunkText d)}

theorem chunk?_sendStreamData (t : ChunkText d) :
    (sendStreamData d info t.text).filterMap (Frame.chunk? d) = [t.chunk] := by
  unfold sendStreamData
  rw [if_neg t.text_ne_empty]
  split
  · exact List.filterMap_cons_some t.unmarshal_text
  · rw [t.unmarshal_text]
    rfl

theorem chunk?_flatMap_sendStreamData :
    ((stream.map (·.text)).flatMap (sendStreamData d info)).filterMap (Frame.chunk? d) = stream.map (·.chunk) := by
  rw [List.filterMap_flatMap, List.flatMap_map, List.map_eq_flatMap]
  exact congrArg (stream.flatMap ·) (funext chunk?_sendStreamData)

theorem chunk?_handleFinalResponse (d : ChunkDecoder) (info : RelayInfo) (st : LastResponse) (usage : Usage) :
    ∀ response ∈ (handleFinalResponse info st usage).filterMap (Frame.chunk? d), response.choices = [] := by
  intro response hresponse
  unfold handleFinalResponse at hresponse
  split at hresponse
  · obtain rfl := List.mem_singleton.1 hresponse
    rfl
  · exact absurd hresponse List.not_mem_nil

theorem shouldSendLastResp_handleLastResponse (t : ChunkText d) (st : LastResponse) (h : st.shouldSendLastResp = true) :
    (handleLastResponse d info t.text st).shouldSendLastResp = false ↔ Withheld info t.chunk := by
  unfold handleLastResponse Withheld
  rw [t.unmarshal_text]
  dsimp only
  split
  next hvalid =>
    rw [and_iff_right hvalid]
    dsimp only
    split
    next hinclude => rw [and_iff_right (Bool.eq_false_iff.2 hinclude)]
    next hinclude => exact iff_of_false (by rw [h]; exact Bool.noConfusion) fun hand => hinclude (by simp [hand.1])
  next hvalid => exact iff_of_false (by dsimp only; rw [h]; exact Bool.noConfusion) fun hand => hvalid hand.1

theorem shouldSendLastResp_startResponse (data : String) : (startResponse d info data).shouldSendLastResp = true := by
  unfold startResponse
  split
  · split
    · rfl
    · split <;> rfl
  · rfl

/-- What the handler sends: the chunks of the stream, without the last one where it is withheld, and its own. -/
theorem oaiStreamHandler_spec (d : ChunkDecoder) (finalUsage : Option Usage → List String → Usage) (info : RelayInfo)
    (stream : List (ChunkText d)) :
    ∃ own : List Chunk, (∀ response ∈ own, response.choices = []) ∧
      ((∀ last ∈ (stream.map (·.chunk)).getLast?, ¬ Withheld info last) ∧
          (oaiStreamHandler d finalUsage info (stream.map (·.text))).filterMap (Frame.chunk? d) =
            stream.map (·.chunk) ++ own ∨
        ∃ init last, stream.map (·.chunk) = init ++ [last] ∧ Withheld info last ∧
          (oaiStreamHandler d finalUsage info (stream.map (·.text))).filterMap (Frame.chunk? d) = init ∧ own = []) := by
  obtain ⟨hlast, hsent⟩ := Reader.ofTexts_spec info.isAudioModel (sendStreamData d info)
    (List.forall_mem_map.2 fun (t : ChunkText d) (_ : t ∈ stream) => t.text_ne_empty)
  unfold oaiStreamHandler
  dsimp only
  generalize Reader.ofTexts _ _ (stream.map (·.text)) = reader at hlast hsent ⊢
  rcases List.eq_nil_or_concat' stream with rfl | ⟨init, t, rfl⟩
  · have hnil : reader.sent = [] := hsent
    have hempty : reader.lastStreamData = "" := hlast
    have hnone : sendStreamData d info "" = [] := if_pos rfl
    rw [hnil, hempty, hnone, ite_self]
    generalize handleLastResponse d info "" _ = st
    generalize finalUsage _ _ = usage
    exact ⟨_, chunk?_handleFinalResponse d info st usage, .inl ⟨fun last h => (by cases h), rfl⟩⟩
  · rw [List.map_append, List.map_singleton, List.getLast?_concat, Option.getD_some] at hlast
    rw [List.map_append, List.map_singleton, List.dropLast_concat] at hsent
    rw [hlast, hsent]
    have hwithheld : (handleLastResponse d info t.text (startResponse d info reader.secondLastStreamData)).shouldSendLastResp =
        false ↔ Withheld info t.chunk :=
      shouldSendLastResp_handleLastResponse t _ (shouldSendLastResp_startResponse _)
    generalize handleLastResponse d info t.text _ = st at hwithheld ⊢
    generalize finalUsage _ _ = usage
    rw [List.filterMap_append, List.filterMap_append, chunk?_flatMap_sendStreamData]
    cases hsend : st.shouldSendLastResp with
    | true =>
      refine ⟨_, chunk?_handleFinalResponse d info st usage, .inl ⟨fun last hlast h => ?_, ?_⟩⟩
      · rw [List.map_append, List.map_singleton, List.getLast?_concat] at hlast
        obtain rfl := Option.some.inj hlast
        rw [hwithheld.2 h] at hsend
        cases hsend
      · rw [if_pos rfl, chunk?_sendStreamData, List.map_append]
        rfl
    | false =>
      have h := hwithheld.1 hsend
      refine ⟨[], fun response hresponse => (by cases hresponse), .inr ⟨_, _, List.map_append, h, ?_, rfl⟩⟩
      have hdone : handleFinalResponse info st usage = [.done] := by
        unfold handleFinalResponse
        rw [if_neg fun hand => (by cases h.2.1.symm.trans hand.1)]
        rfl
      rw [hdone, if_neg Bool.noConfusion, List.filterMap_nil, List.append_nil]
      exact List.append_nil _

/-- Nothing is lost in just the streams whose last chunk is not withheld, or carries nothing besides its usage. -/
theorem oaiStreamHandler_forwards_iff (d : ChunkDecoder) (finalUsage : Option Usage → List String → Usage)
    (info : RelayInfo) (stream : List (ChunkText d)) :
    LosesNothing d (stream.map (·.chunk)) (oaiStreamHandler d finalUsage info (stream.map (·.text))) ↔
      ∀ last ∈ (stream.map (·.chunk)).getLast?, Withheld info last → last.OnlyUsage := by
  obtain ⟨own, hown, ⟨hkept, hframes⟩ | ⟨init, last, hchunks, hwithheld, hframes, rfl⟩⟩ :=
    oaiStreamHandler_spec d finalUsage info stream
  · exact iff_of_true ⟨own, hown, .inl hframes⟩ fun last hlast h => absurd h (hkept last hlast)
  · rw [hchunks, List.getLast?_concat]
    constructor
    · rintro ⟨own, -, hall | ⟨init', last', hchunks', honly, -⟩⟩ _ hlast -
      · have hlen := congrArg List.length (hframes.symm.trans hall)
        rw [List.length_append, List.length_append, List.length_singleton] at hlen
        omega
      · obtain rfl := Option.some.inj hlast
        rwa [(List.append_singleton_inj.1 hchunks').2]
    · intro honly
      exact ⟨[], fun response hresponse => (by cases hresponse),
        .inr ⟨init, last, rfl, honly last rfl hwithheld, hframes.trans (List.append_nil _).symm⟩⟩

end

def stopUsage : Usage where
  promptTokens := 1
  completionTokens := 1
  cachedTokens := 0
  cachedCreationTokens := 0
  claudeCacheCreation5mTokens := 0
  claudeCacheCreation1hTokens := 0

/-- A last chunk with a finish reason and the usage. -/
def stopChunk : Chunk where
  id := "c"
  choices := [{ finishReason := some "stop" }]
  usage := some stopUsage

/-- A decoder that knows that chunk. -/
def stopDecoder : ChunkDecoder where
  unmarshal data := if data = "stop" then some stopChunk else none
  unmarshal_empty := rfl

/-- A finish reason is lost that comes with the usage. -/
theorem finish_reason_lost :
    ¬ LosesNothing stopDecoder [stopChunk]
      (oaiStreamHandler stopDecoder (fun _ _ => stopUsage)
        { upstreamModelName := "m", forceFormat := false, shouldIncludeUsage := false } ["stop"]) := by
  rintro ⟨own, -, hall | ⟨init, last, hchunks, honly, -⟩⟩
  · cases hall
  · have hlast : [] = init ∧ stopChunk = last := List.append_singleton_inj.1 hchunks
    rw [← hlast.2] at honly
    have hstop : "stop" = "" := (honly _ (List.mem_singleton.2 rfl)).finishReason
    exact absurd hstop (by decide)

end NewApi.ChatStream

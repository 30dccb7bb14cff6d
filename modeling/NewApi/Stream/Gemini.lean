import NewApi.Lib.FirstBy
import NewApi.Stream.Chat

/-!
# OpenAI chat streams for Gemini's clients

`StreamResponseOpenAI2Gemini` turns a chunk into a response of its own, and keeps nothing between chunks. A delta with
a list of tool calls gives a function call for each element, with what it has of the arguments, and its text is dropped.
So the calls and the text come out whole just where every call is in one delta and no delta with tool calls has a text
(`geminiStream_carries_iff`).
-/

namespace NewApi.GeminiStream

open NewApi.ChatStream NewApi.Convert

/-! ## Responses -/

/-- `GeminiChatCandidate`, where a finish reason may be missing. -/
structure GeminiChatCandidate where
  content : GeminiChatContent
  finishReason : Option String
  index : Int

/-- `GeminiChatResponse`. -/
structure GeminiChatResponse where
  candidates : List GeminiChatCandidate
  usageMetadata : GeminiUsageMetadata

/-- The parts of a stream of responses. -/
def sentParts (responses : List GeminiChatResponse) : List GeminiPart :=
  responses.flatMap fun response => response.candidates.flatMap (·.content.parts)

section
variable (d : Decoder) (chunkDecoder : ChunkDecoder) (estimatePromptTokens : Int)

/-- The part for a delta of a tool call. -/
def functionCallPart (toolCall : ToolCallResponse) : GeminiPart :=
  { functionCall := some
      { functionName := toolCall.function.name, arguments := geminiArgs d toolCall.function.arguments } }

/-- The parts for a choice. -/
def geminiParts (choice : Choice) : List GeminiPart :=
  match choice.delta.toolCalls with
  | some toolCalls => toolCalls.map (functionCallPart d)
  | none => if choice.delta.getContentString ≠ "" then [{ text := choice.delta.getContentString }] else []

def hasContent (response : Chunk) : Bool :=
  response.choices.any fun choice => choice.delta.getContentString ≠ "" ∨ choice.delta.toolCalls.any (· ≠ [])

/-- `StreamResponseOpenAI2Gemini`. -/
def streamResponseOpenAI2Gemini (response : Chunk) : Option GeminiChatResponse :=
  if hasContent response = false ∧ ¬ response.choices.any (·.finishReason.isSome) then none
  else
    some
      { candidates := response.choices.map fun choice =>
          { index := choice.index
            finishReason := choice.finishReason.map geminiFinishReason
            content := { role := "model", parts := geminiParts d choice } }
        usageMetadata :=
          match response.usage with
          | some usage =>
            { promptTokenCount := usage.promptTokens
              candidatesTokenCount := usage.completionTokens
              totalTokenCount := usage.totalTokens }
          | none =>
            { promptTokenCount := estimatePromptTokens
              candidatesTokenCount := 0
              totalTokenCount := estimatePromptTokens } }

/-- `handleGeminiFormat`. -/
def handleGeminiFormat (data : String) : List GeminiChatResponse :=
  ((chunkDecoder.unmarshal data).bind (streamResponseOpenAI2Gemini d estimatePromptTokens)).toList

/-- `OaiStreamHandler` for a Gemini client. `HandleFinalResponse` converts the last chunk as the others. -/
def oaiStreamHandler (isAudioModel : Bool) (texts : List String) : List GeminiChatResponse :=
  let reader := Reader.ofTexts isAudioModel (handleGeminiFormat d chunkDecoder estimatePromptTokens) texts
  reader.sent ++ handleGeminiFormat d chunkDecoder estimatePromptTokens reader.lastStreamData

/-! ## What a stream says -/

/-- The choices of all chunks. -/
def streamChoices (chunks : List Chunk) : List Choice := chunks.flatMap (·.choices)

/-- The deltas of tool calls in a stream, each under the call that it belongs to: the index of its choice, and its own. -/
def toolCallDeltas (chunks : List Chunk) : List ((Int × Option Int) × ToolCallResponse) :=
  (streamChoices chunks).flatMap fun choice =>
    (choice.delta.toolCalls.getD []).map fun toolCall => ((choice.index, toolCall.index), toolCall)

/-- A call is named by its first delta, and its arguments are those of all its deltas. -/
def assembleCall (deltas : List ((Int × Option Int) × ToolCallResponse))
    (first : (Int × Option Int) × ToolCallResponse) : FunctionCall :=
  { functionName := first.2.function.name
    arguments :=
      geminiArgs d (String.join ((deltas.filter (·.1 = first.1)).map (·.2.function.arguments))) }

/-- The calls of a stream, by their first deltas. -/
def streamCalls (chunks : List Chunk) : List FunctionCall :=
  (firstBy Prod.fst [] (toolCallDeltas chunks)).map (assembleCall d (toolCallDeltas chunks))

/-- The text of a stream. -/
def streamText (chunks : List Chunk) : String :=
  String.join ((streamChoices chunks).map (·.delta.getContentString))

/-- The parts have each call of the stream once, and its text. -/
def Carries (chunks : List Chunk) (parts : List GeminiPart) : Prop :=
  (parts.filterMap (·.functionCall)).Perm (streamCalls d chunks) ∧ String.join (parts.map (·.text)) = streamText chunks

end

/-! ## What is sent -/

section
variable {d : Decoder} {chunks : List Chunk} {choice : Choice}

theorem geminiParts_eq_nil {response : Chunk} (h : hasContent response = false) (hchoice : choice ∈ response.choices) :
    geminiParts d choice = [] := by
  have hnone := List.any_eq_false.1 h choice hchoice
  rw [decide_eq_true_iff, not_or, not_not] at hnone
  obtain ⟨hcontent, hcalls⟩ := hnone
  unfold geminiParts
  cases htool : choice.delta.toolCalls with
  | none => exact if_neg (not_not_intro hcontent)
  | some toolCalls =>
    have hempty : toolCalls = [] := by simpa [htool] using hcalls
    rw [hempty]
    rfl

theorem sentParts_streamResponse (estimatePromptTokens : Int) (response : Chunk) :
    sentParts (streamResponseOpenAI2Gemini d estimatePromptTokens response).toList =
      response.choices.flatMap (geminiParts d) := by
  unfold streamResponseOpenAI2Gemini
  split
  next hskip => exact (List.flatMap_eq_nil_iff.2 fun choice hchoice => geminiParts_eq_nil hskip.1 hchoice).symm
  next =>
    unfold sentParts
    rw [Option.toList_some, List.flatMap_singleton, List.flatMap_map]

theorem sentParts_oaiStreamHandler {chunkDecoder : ChunkDecoder} (estimatePromptTokens : Int) (isAudioModel : Bool)
    (stream : List (ChunkText chunkDecoder)) :
    sentParts (oaiStreamHandler d chunkDecoder estimatePromptTokens isAudioModel (stream.map (·.text))) =
      (streamChoices (stream.map (·.chunk))).flatMap (geminiParts d) := by
  have hempty : handleGeminiFormat d chunkDecoder estimatePromptTokens "" = [] := by
    unfold handleGeminiFormat
    rw [chunkDecoder.unmarshal_empty]
    rfl
  unfold oaiStreamHandler
  rw [Reader.sent_append_last isAudioModel hempty (List.forall_mem_map.2 fun t _ => t.text_ne_empty)]
  unfold sentParts streamChoices
  rw [List.flatMap_assoc, List.flatMap_assoc, List.flatMap_map, List.flatMap_map]
  refine List.flatMap_congr fun t _ => ?_
  rw [← sentParts_streamResponse estimatePromptTokens]
  unfold handleGeminiFormat
  rw [t.unmarshal_text]
  rfl

/-- The call for a delta. -/
def deltaCall (d : Decoder) (delta : (Int × Option Int) × ToolCallResponse) : FunctionCall :=
  { functionName := delta.2.function.name, arguments := geminiArgs d delta.2.function.arguments }

theorem functionCalls_geminiParts : (geminiParts d choice).filterMap (·.functionCall) =
    ((choice.delta.toolCalls.getD []).map fun toolCall => ((choice.index, toolCall.index), toolCall)).map
      (deltaCall d) := by
  unfold geminiParts
  cases choice.delta.toolCalls with
  | none =>
    dsimp only
    split <;> rfl
  | some toolCalls =>
    rw [List.filterMap_map, List.map_map, Option.getD_some]
    exact congrFun List.filterMap_eq_map toolCalls

theorem functionCalls_sent : ((streamChoices chunks).flatMap (geminiParts d)).filterMap (·.functionCall) =
    (toolCallDeltas chunks).map (deltaCall d) := by
  unfold toolCallDeltas
  rw [List.filterMap_flatMap, List.map_flatMap]
  exact List.flatMap_congr fun choice _ => functionCalls_geminiParts

/-- The text that is sent for a choice. -/
def sentText (choice : Choice) : String :=
  if choice.delta.toolCalls.isSome then "" else choice.delta.getContentString

theorem join_text_geminiParts : String.join ((geminiParts d choice).map (·.text)) = sentText choice := by
  unfold geminiParts sentText
  cases choice.delta.toolCalls with
  | none =>
    dsimp only
    split
    · rw [List.map_singleton, String.join_cons, String.join_nil, String.append_empty]
      rfl
    next hempty => exact (not_not.1 hempty).symm
  | some toolCalls =>
    rw [List.map_map]
    exact GoString.join_eq_empty_iff.2 fun s hs => (by obtain ⟨_, -, rfl⟩ := List.mem_map.1 hs; rfl)

theorem join_text_sent : String.join (((streamChoices chunks).flatMap (geminiParts d)).map (·.text)) =
    String.join ((streamChoices chunks).map sentText) := by
  rw [List.map_flatMap, GoString.join_flatMap]
  exact congrArg String.join (List.map_congr_left fun choice _ => join_text_geminiParts)

theorem length_sentText_le : (sentText choice).length ≤ choice.delta.getContentString.length := by
  unfold sentText
  split
  · exact Nat.zero_le _
  · exact le_rfl

theorem sentText_eq_iff : sentText choice = choice.delta.getContentString ↔
    (choice.delta.toolCalls.isSome = true → choice.delta.getContentString = "") := by
  unfold sentText
  split
  next hsome => exact ⟨fun h _ => h.symm, fun h => (h hsome).symm⟩
  next hnone => exact iff_of_true rfl fun h => absurd h hnone

/-- As many calls are sent as there are just where every call is in one delta, and then they are the same. -/
theorem calls_perm_iff : ((toolCallDeltas chunks).map (deltaCall d)).Perm (streamCalls d chunks) ↔
    ((toolCallDeltas chunks).map Prod.fst).Nodup := by
  unfold streamCalls
  constructor
  · intro hperm
    have hlen := hperm.length_eq
    rw [List.length_map, List.length_map] at hlen
    exact length_firstBy_eq_iff.1 hlen.symm
  · intro hnodup
    rw [firstBy_eq_self hnodup fun _ _ => List.not_mem_nil]
    refine List.Perm.of_eq (List.map_congr_left fun delta hdelta => ?_)
    unfold assembleCall
    rw [filter_key_eq_singleton hnodup hdelta, List.map_singleton, String.join_cons, String.join_nil,
      String.append_empty]
    rfl

end

/-- The calls and the text of a stream come out whole just where every call is in one delta, and no delta with a list of
tool calls has a text. -/
theorem geminiStream_carries_iff (d : Decoder) (chunkDecoder : ChunkDecoder) (estimatePromptTokens : Int)
    (isAudioModel : Bool) (stream : List (ChunkText chunkDecoder)) :
    Carries d (stream.map (·.chunk))
        (sentParts (oaiStreamHandler d chunkDecoder estimatePromptTokens isAudioModel (stream.map (·.text)))) ↔
      ((toolCallDeltas (stream.map (·.chunk))).map Prod.fst).Nodup ∧
        ∀ choice ∈ streamChoices (stream.map (·.chunk)),
          choice.delta.toolCalls.isSome = true → choice.delta.getContentString = "" := by
  unfold Carries streamText
  rw [sentParts_oaiStreamHandler, functionCalls_sent, join_text_sent, calls_perm_iff,
    GoString.join_map_eq_iff fun choice _ => length_sentText_le]
  exact and_congr_right fun _ => forall₂_congr fun choice _ => sentText_eq_iff

/-- A chunk with one delta of a tool call. -/
def callChunk (name arguments : String) : Chunk where
  choices := [{ delta := { toolCalls := some [{ index := some 0, function := { name, arguments } }] } }]

/-- A decoder that knows two chunks, by the names `start` and `rest`. -/
def splitDecoder : ChunkDecoder where
  unmarshal data :=
    if data = "start" then some (callChunk "f" "\x7b\"a\":")
    else if data = "rest" then some (callChunk "" "1\x7d")
    else none
  unmarshal_empty := rfl

/-- A decoder that knows the arguments of the call, once they are complete. -/
def argsDecoder : Decoder where
  unmarshal s := if s = "\x7b\"a\":1\x7d" then some (.object [("a", .number "1")]) else none
  unmarshal_empty := rfl

/-- A call in two deltas becomes two calls. -/
theorem split_call_doubled :
    ¬ Carries argsDecoder [callChunk "f" "\x7b\"a\":", callChunk "" "1\x7d"]
      (sentParts (oaiStreamHandler argsDecoder splitDecoder 0 false ["start", "rest"])) := by
  rintro ⟨hperm, -⟩
  exact absurd hperm.length_eq (by decide)

end NewApi.GeminiStream

import NewApi.Billing.Tiered
import NewApi.Lib.Arith

/-!
# The usage of Gemini

Gemini tells the counts of an answer with the answer, or with each part of a stream, and may leave any of them out.
`buildUsageFromGeminiMetadata` puts the estimate in the place of a missing prompt, and what the total leaves for the answer in the
place of missing candidates: a total below the prompt makes this negative. The handler of a stream corrects a count of the answer
that is not positive, the handler of a whole answer does not (`usage_nonneg_iff`).
-/

namespace NewApi.GeminiUsage

/-- `GeminiPromptTokensDetails`. -/
structure GeminiPromptTokensDetails where
  modality : String
  tokenCount : Int

structure GeminiUsageMetadata where
  promptTokenCount : Int := 0
  toolUsePromptTokenCount : Int := 0
  candidatesTokenCount : Int := 0
  totalTokenCount : Int := 0
  thoughtsTokenCount : Int := 0
  cachedContentTokenCount : Int := 0
  promptTokensDetails : List GeminiPromptTokensDetails := []
  toolUsePromptTokensDetails : List GeminiPromptTokensDetails := []
  candidatesTokensDetails : List GeminiPromptTokensDetails := []

/-- `GeminiPart`, as far as a stream's usage needs it: the text, and the type of inline data. -/
structure GeminiPart where
  text : String := ""
  inlineMimeType : Option String := none

structure GeminiChatResponse where
  candidates : List (List GeminiPart)
  usageMetadata : GeminiUsageMetadata

/-- The usage, with the tokens of the thoughts. -/
structure Usage extends Billing.TieredUsage where
  reasoningTokens : Int := 0

/-- The sum of the details of a modality. -/
def detailTokens (modality : String) (details : List GeminiPromptTokensDetails) (tokens : Int) : Int :=
  details.foldl (fun tokens detail => if detail.modality = modality then wrap64 (tokens + detail.tokenCount) else tokens) tokens

/-- The prompt tokens of the metadata. -/
def promptTokens (metadata : GeminiUsageMetadata) (fallbackPromptTokens : Int) : Int :=
  let promptTokens := wrap64 (metadata.promptTokenCount + metadata.toolUsePromptTokenCount)
  if promptTokens ≤ 0 ∧ fallbackPromptTokens > 0 then fallbackPromptTokens else promptTokens

def buildUsageFromGeminiMetadata (metadata : GeminiUsageMetadata) (fallbackPromptTokens : Int) : Usage :=
  let promptTokens := promptTokens metadata fallbackPromptTokens
  let completionTokens := wrap64 (metadata.candidatesTokenCount + metadata.thoughtsTokenCount)
  let audioTokens := detailTokens "AUDIO" metadata.toolUsePromptTokensDetails (detailTokens "AUDIO" metadata.promptTokensDetails 0)
  let textTokens := detailTokens "TEXT" metadata.toolUsePromptTokensDetails (detailTokens "TEXT" metadata.promptTokensDetails 0)
  { promptTokens
    completionTokens :=
      if metadata.totalTokenCount > 0 ∧ completionTokens ≤ 0 then wrap64 (metadata.totalTokenCount - promptTokens)
      else completionTokens
    totalTokens := metadata.totalTokenCount
    reasoningTokens := metadata.thoughtsTokenCount
    cachedTokens := metadata.cachedContentTokenCount
    promptAudioTokens := audioTokens
    promptTextTokens := if promptTokens > 0 ∧ textTokens = 0 ∧ audioTokens = 0 then promptTokens else textTokens
    completionImageTokens := detailTokens "IMAGE" metadata.candidatesTokensDetails 0
    completionAudioTokens := detailTokens "AUDIO" metadata.candidatesTokensDetails 0
    completionTextTokens := detailTokens "TEXT" metadata.candidatesTokensDetails 0 }

/-- `GeminiChatHandler`: the usage of an answer that can be read, whether or not it has candidates. -/
def geminiChatHandler (estimatePromptTokens : Int) (body : Except String GeminiChatResponse) : Except String Usage :=
  match body with
  | .error err => .error err
  | .ok geminiResponse => .ok (buildUsageFromGeminiMetadata geminiResponse.usageMetadata estimatePromptTokens)

/-! ## Streams -/

section
variable (estimateTokenByModel : String → ℕ) (estimatePromptTokens : Int) (callback : GeminiChatResponse → Bool)

/-- The variables of `geminiStreamHandler`. -/
structure StreamState where
  usage : Usage := {}
  imageCount : ℕ := 0
  responseText : String := ""

/-- The images of a response. -/
def countImages (response : GeminiChatResponse) : ℕ :=
  (response.candidates.flatten.filter fun part => part.inlineMimeType.any (· ≠ "")).length

/-- What the handler of a response does to the variables. -/
def StreamState.read (st : StreamState) (response : GeminiChatResponse) : StreamState where
  usage :=
    if response.usageMetadata.totalTokenCount ≠ 0 then buildUsageFromGeminiMetadata response.usageMetadata estimatePromptTokens
    else st.usage
  imageCount := st.imageCount + countImages response
  responseText := st.responseText ++ String.join (response.candidates.flatten.map (·.text))

/-- The responses of a stream, until one cannot be read or the callback stops. -/
def readStream (st : StreamState) : List (Option GeminiChatResponse) → StreamState
  | [] => st
  | none :: _ => st
  | some response :: rest =>
    let st := st.read estimatePromptTokens response
    if callback response then readStream st rest else st

/-- `ResponseText2Usage`; `estimateTokenByModel` is the estimate for the model of the upstream, a sum of positive weights. -/
def responseText2Usage (responseText : String) (promptTokens : Int) : Usage where
  promptTokens := promptTokens
  completionTokens := estimateTokenByModel responseText
  totalTokens := wrap64 (promptTokens + estimateTokenByModel responseText)

/-- The end of `geminiStreamHandler`. -/
def StreamState.finish (st : StreamState) (receivedResponseCount : ℕ) : Usage :=
  let completionTokens :=
    if st.imageCount ≠ 0 ∧ st.usage.completionTokens = 0 then (st.imageCount : Int) * 1400 else st.usage.completionTokens
  if completionTokens ≤ 0 then
    if receivedResponseCount > 0 then responseText2Usage estimateTokenByModel st.responseText estimatePromptTokens else {}
  else { st.usage with completionTokens }

/-- `geminiStreamHandler`. -/
def geminiStreamHandler (receivedResponseCount : ℕ) (stream : List (Option GeminiChatResponse)) : Usage :=
  (readStream estimatePromptTokens callback {} stream).finish estimateTokenByModel estimatePromptTokens receivedResponseCount

/-- `GeminiChatStreamHandler`, whose callback never stops. -/
def geminiChatStreamHandler (receivedResponseCount : ℕ) (stream : List (Option GeminiChatResponse)) : Usage :=
  geminiStreamHandler estimateTokenByModel estimatePromptTokens (fun _ => true) receivedResponseCount stream

end

/-! ## What may be billed -/

/-- The counts that an upstream may tell: integers of 64 bits that are not negative. -/
structure GeminiUsageMetadata.Counts (m : GeminiUsageMetadata) : Prop where
  prompt : 0 ≤ m.promptTokenCount ∧ m.promptTokenCount < 2 ^ 63
  toolUse : 0 ≤ m.toolUsePromptTokenCount ∧ m.toolUsePromptTokenCount < 2 ^ 63
  candidates : 0 ≤ m.candidatesTokenCount ∧ m.candidatesTokenCount < 2 ^ 63
  total : 0 ≤ m.totalTokenCount ∧ m.totalTokenCount < 2 ^ 63
  thoughts : 0 ≤ m.thoughtsTokenCount ∧ m.thoughtsTokenCount < 2 ^ 63

/-- Neither the prompt of a usage nor its answer is negative. -/
def Usage.Nonneg (usage : Usage) : Prop := 0 ≤ usage.promptTokens ∧ 0 ≤ usage.completionTokens

namespace GeminiUsageMetadata

variable (m : GeminiUsageMetadata)

/-- The tokens of the prompt that the upstream tells. -/
def prompt : Int := m.promptTokenCount + m.toolUsePromptTokenCount

/-- The tokens of the answer that the upstream tells. -/
def answer : Int := m.candidatesTokenCount + m.thoughtsTokenCount

/-- The prompt can be billed: it fits, or there is an estimate. -/
def PromptFits (estimate : Int) : Prop := m.prompt < 2 ^ 63 ∨ 0 < estimate

/-- The answer can be billed: it is told, or nothing at all is, or else the total has room for the prompt that is billed. -/
def AnswerFits (estimate : Int) : Prop :=
  m.answer < 2 ^ 63 ∧ (0 < m.answer ∨ m.totalTokenCount = 0) ∨
    0 < m.totalTokenCount ∧ (if 0 < m.prompt ∧ m.prompt < 2 ^ 63 then m.prompt else estimate) ≤ m.totalTokenCount

/-- The prompt does not fit, and the answer is billed with it. -/
def PromptOverflows (estimate : Int) : Prop :=
  2 ^ 63 ≤ m.prompt ∧ estimate = 0 ∧ (0 < m.answer ∧ m.answer < 2 ^ 63 ∨ m.totalTokenCount + 2 ^ 63 < m.prompt)

end GeminiUsageMetadata

/-- The last metadata of a stream that tells a total. -/
def lastMetadata (stream : List (Option GeminiChatResponse)) : Option GeminiUsageMetadata :=
  (((stream.takeWhile (·.isSome)).filterMap fun response => response.map (·.usageMetadata)).filter (·.totalTokenCount ≠ 0)).getLast?

section
variable {m : GeminiUsageMetadata} {estimate : Int}

theorem wrap64_add_cases {a b : Int} (ha : 0 ≤ a ∧ a < 2 ^ 63) (hb : 0 ≤ b ∧ b < 2 ^ 63) :
    a + b < 2 ^ 63 ∧ wrap64 (a + b) = a + b ∨ 2 ^ 63 ≤ a + b ∧ wrap64 (a + b) = a + b - 2 ^ 64 := by
  obtain ⟨j, hj⟩ := exists_wrap64 (a + b)
  obtain ⟨hlo, hhi⟩ := fits_wrap64 (a + b)
  omega

theorem promptTokens_cases (h : m.Counts) (hestimate : 0 ≤ estimate) :
    (promptTokens m estimate = if 0 < m.prompt ∧ m.prompt < 2 ^ 63 then m.prompt else estimate) ∧ m.PromptFits estimate ∨
      promptTokens m estimate = m.prompt - 2 ^ 64 ∧ 2 ^ 63 ≤ m.prompt ∧ estimate = 0 := by
  unfold promptTokens GeminiUsageMetadata.PromptFits GeminiUsageMetadata.prompt
  dsimp only
  have hprompt := h.prompt
  have htool := h.toolUse
  rcases wrap64_add_cases hprompt htool with ⟨hlt, heq⟩ | ⟨hle, heq⟩
  · rw [heq]
    refine .inl ⟨?_, .inl hlt⟩
    split <;> split <;> omega
  · rw [heq]
    split
    next hfallback =>
      refine .inl ⟨?_, .inr hfallback.2⟩
      rw [if_neg fun h => absurd h.2 (not_lt.2 hle)]
    next hfallback =>
      refine .inr ⟨rfl, hle, ?_⟩
      omega

theorem prompt_nonneg_iff (h : m.Counts) (hestimate : 0 ≤ estimate) :
    0 ≤ (buildUsageFromGeminiMetadata m estimate).promptTokens ↔ m.PromptFits estimate := by
  show 0 ≤ promptTokens m estimate ↔ _
  have hprompt := h.prompt
  have htool := h.toolUse
  rcases promptTokens_cases h hestimate with ⟨heq, hfits⟩ | ⟨heq, hle, hzero⟩
  · refine iff_of_true ?_ hfits
    rw [heq]
    split <;> omega
  · unfold GeminiUsageMetadata.PromptFits
    unfold GeminiUsageMetadata.prompt at *
    omega

theorem completion_cases (h : m.Counts) (estimate : Int) :
    (0 < m.answer ∧ m.answer < 2 ^ 63) ∧ (buildUsageFromGeminiMetadata m estimate).completionTokens = m.answer ∨
      m.totalTokenCount = 0 ∧ ((buildUsageFromGeminiMetadata m estimate).completionTokens = 0 ∧ m.answer = 0 ∨
        (buildUsageFromGeminiMetadata m estimate).completionTokens < 0 ∧ 2 ^ 63 ≤ m.answer) ∨
      (0 < m.totalTokenCount ∧ ¬ (0 < m.answer ∧ m.answer < 2 ^ 63)) ∧
        (buildUsageFromGeminiMetadata m estimate).completionTokens = wrap64 (m.totalTokenCount - promptTokens m estimate) := by
  have hcandidates := h.candidates
  have hthoughts := h.thoughts
  have htotal := h.total
  unfold buildUsageFromGeminiMetadata GeminiUsageMetadata.answer
  dsimp only
  rcases wrap64_add_cases hcandidates hthoughts with ⟨hlt, heq⟩ | ⟨hle, heq⟩
  · rw [heq]
    split <;> omega
  · rw [heq]
    split <;> omega

theorem completion_nonneg_iff (h : m.Counts) (hestimate : 0 ≤ estimate ∧ estimate < 2 ^ 63) (hfits : m.PromptFits estimate) :
    0 ≤ (buildUsageFromGeminiMetadata m estimate).completionTokens ↔ m.AnswerFits estimate := by
  have htotal := h.total
  have heq : promptTokens m estimate = if 0 < m.prompt ∧ m.prompt < 2 ^ 63 then m.prompt else estimate := by
    rcases promptTokens_cases h hestimate.1 with ⟨heq, -⟩ | ⟨-, hle, hzero⟩
    · exact heq
    · unfold GeminiUsageMetadata.PromptFits at hfits
      omega
  unfold GeminiUsageMetadata.AnswerFits
  rw [← heq]
  have hbound : 0 ≤ promptTokens m estimate ∧ promptTokens m estimate < 2 ^ 63 := by
    rw [heq]
    split <;> omega
  have hanswer : 0 ≤ m.answer := add_nonneg h.candidates.1 h.thoughts.1
  have hwrap : wrap64 (m.totalTokenCount - promptTokens m estimate) = m.totalTokenCount - promptTokens m estimate :=
    wrap64_of_fits ⟨by omega, by omega⟩
  rcases completion_cases h estimate with ⟨htold, hcompletion⟩ | ⟨hzero, ⟨hcompletion, hnone⟩ | ⟨hcompletion, hle⟩⟩ | ⟨hmissing, hcompletion⟩
  · omega
  · omega
  · omega
  · rw [hcompletion, hwrap]
    omega

theorem usage_readStream {stream : List (Option GeminiChatResponse)} {st : StreamState} :
    (readStream estimate (fun _ => true) st stream).usage =
      ((lastMetadata stream).map fun m => buildUsageFromGeminiMetadata m estimate).getD st.usage := by
  induction stream generalizing st with
  | nil => rfl
  | cons data rest ih =>
    cases data with
    | none => rfl
    | some response =>
      unfold readStream
      rw [if_pos rfl, ih]
      unfold lastMetadata StreamState.read
      dsimp only
      rw [List.takeWhile_cons_of_pos rfl, List.filterMap_cons]
      dsimp only [Option.map_some]
      by_cases htotal : response.usageMetadata.totalTokenCount ≠ 0
      · rw [List.filter_cons, if_pos (decide_eq_true htotal), List.getLast?_cons, if_pos htotal]
        cases (((rest.takeWhile (·.isSome)).filterMap fun response => response.map (·.usageMetadata)).filter
          (·.totalTokenCount ≠ 0)).getLast? with
        | none => rfl
        | some last => rfl
      · rw [List.filter_cons, if_neg fun h => htotal (of_decide_eq_true h), if_neg htotal]

/-- The usage that a stream is billed with: that of its last metadata, unless its answer is not positive. -/
theorem finish_nonneg_iff (estimateTokenByModel : String → ℕ) (hestimate : 0 ≤ estimate) (st : StreamState) (receivedResponseCount : ℕ) :
    (st.finish estimateTokenByModel estimate receivedResponseCount).Nonneg ↔
      (0 < st.usage.completionTokens ∨ st.usage.completionTokens = 0 ∧ st.imageCount ≠ 0 → 0 ≤ st.usage.promptTokens) := by
  have hreplaced : (if receivedResponseCount > 0 then responseText2Usage estimateTokenByModel st.responseText estimate else {}).Nonneg := by
    split
    · exact ⟨hestimate, Int.natCast_nonneg _⟩
    · exact ⟨le_rfl, le_rfl⟩
  unfold StreamState.finish
  dsimp only
  generalize hcompletion : (if st.imageCount ≠ 0 ∧ st.usage.completionTokens = 0 then (st.imageCount : Int) * 1400
    else st.usage.completionTokens) = completionTokens
  split
  next hnotpos =>
    refine iff_of_true hreplaced fun h => ?_
    split at hcompletion <;> omega
  next hpos =>
    show 0 ≤ st.usage.promptTokens ∧ 0 ≤ completionTokens ↔ _
    split at hcompletion <;> omega

/-- A stream's usage is not negative, unless the prompt of its last metadata overflows and is billed. -/
theorem stream_nonneg_iff (estimateTokenByModel : String → ℕ) (hestimate : 0 ≤ estimate ∧ estimate < 2 ^ 63)
    {stream : List (Option GeminiChatResponse)} (h : ∀ response, some response ∈ stream → response.usageMetadata.Counts)
    (receivedResponseCount : ℕ) :
    (geminiChatStreamHandler estimateTokenByModel estimate receivedResponseCount stream).Nonneg ↔
      ∀ m ∈ lastMetadata stream, ¬ m.PromptOverflows estimate := by
  unfold geminiChatStreamHandler geminiStreamHandler
  rw [finish_nonneg_iff _ hestimate.1, usage_readStream]
  cases hlast : lastMetadata stream with
  | none => exact iff_of_true (fun _ => le_rfl) nofun
  | some m =>
    have hm : m.Counts ∧ 0 < m.totalTokenCount := by
      have hmem := List.mem_of_getLast? hlast
      rw [List.mem_filter, List.mem_filterMap, decide_eq_true_iff] at hmem
      obtain ⟨⟨data, hdata, hsome⟩, hne⟩ := hmem
      obtain ⟨response, rfl, rfl⟩ := Option.map_eq_some_iff.1 hsome
      have hcounts := h response ((List.takeWhile_sublist _).subset hdata)
      exact ⟨hcounts, lt_of_le_of_ne hcounts.total.1 (Ne.symm hne)⟩
    obtain ⟨hcounts, htotal⟩ := hm
    rw [Option.map_some, Option.getD_some, prompt_nonneg_iff hcounts hestimate.1]
    have hbound := hcounts.total
    have hprompt := hcounts.prompt
    have htool := hcounts.toolUse
    have hsum : m.prompt < 2 ^ 64 - 1 := by
      unfold GeminiUsageMetadata.prompt
      omega
    simp only [Option.mem_some_iff, forall_eq']
    unfold GeminiUsageMetadata.PromptOverflows
    rcases promptTokens_cases hcounts hestimate.1 with ⟨-, hfits⟩ | ⟨hpromptTokens, hle, hzero⟩
    · refine iff_of_true (fun _ => hfits) ?_
      unfold GeminiUsageMetadata.PromptFits at hfits
      omega
    · have hnofit : ¬ m.PromptFits estimate := by
        unfold GeminiUsageMetadata.PromptFits
        omega
      have hcompletion := completion_cases hcounts estimate
      rw [hpromptTokens] at hcompletion
      obtain ⟨j, hj⟩ := exists_wrap64 (m.totalTokenCount - (m.prompt - 2 ^ 64))
      have hwrap := fits_wrap64 (m.totalTokenCount - (m.prompt - 2 ^ 64))
      unfold Fits64 at hwrap
      simp only [hnofit, imp_false]
      omega

/-- The whole answer is billed with counts that are not negative just where its prompt fits and its answer does; the stream, unless
the prompt of its last metadata overflows. -/
theorem usage_nonneg_iff (estimateTokenByModel : String → ℕ) (estimate : Int) (hestimate : 0 ≤ estimate ∧ estimate < 2 ^ 63) :
    (∀ response : GeminiChatResponse, response.usageMetadata.Counts →
        ((∀ usage, geminiChatHandler estimate (.ok response) = .ok usage → usage.Nonneg) ↔
          response.usageMetadata.PromptFits estimate ∧ response.usageMetadata.AnswerFits estimate)) ∧
      ∀ (stream : List (Option GeminiChatResponse)) (receivedResponseCount : ℕ),
        (∀ response, some response ∈ stream → response.usageMetadata.Counts) →
          ((geminiChatStreamHandler estimateTokenByModel estimate receivedResponseCount stream).Nonneg ↔
            ∀ m ∈ lastMetadata stream, ¬ m.PromptOverflows estimate) := by
  refine ⟨fun response h => ?_, fun stream receivedResponseCount h => stream_nonneg_iff _ hestimate h _⟩
  have hhandler : (∀ usage, geminiChatHandler estimate (.ok response) = .ok usage → usage.Nonneg) ↔
      (buildUsageFromGeminiMetadata response.usageMetadata estimate).Nonneg := by
    unfold geminiChatHandler
    simp
  rw [hhandler]
  unfold Usage.Nonneg
  rw [prompt_nonneg_iff h hestimate.1]
  exact and_congr_right fun hfits => completion_nonneg_iff h hestimate hfits

/-- An answer of 90 tokens with a prompt of 20, by the estimate. -/
def answered : GeminiChatResponse where
  candidates := [[{ text := "ok" }]]
  usageMetadata := { candidatesTokenCount := 90, thoughtsTokenCount := 10, totalTokenCount := 110 }

theorem counts_answered : answered.usageMetadata.Counts where
  prompt := by decide
  toolUse := by decide
  candidates := by decide
  total := by decide
  thoughts := by decide

theorem usage_nonneg_iff_answered :
    ((0 : Int) ≤ 20 ∧ (20 : Int) < 2 ^ 63) ∧ (∀ usage, geminiChatHandler 20 (.ok answered) = .ok usage → usage.Nonneg) ∧
      (geminiChatStreamHandler String.length 20 1 [some answered]).Nonneg := by
  have hestimate : (0 : Int) ≤ 20 ∧ (20 : Int) < 2 ^ 63 := by decide
  obtain ⟨hchat, hstream⟩ := usage_nonneg_iff String.length 20 hestimate
  refine ⟨hestimate, (hchat answered counts_answered).2 ⟨.inl (by decide), .inl (by decide)⟩, ?_⟩
  refine (hstream [some answered] 1 fun response hmem => ?_).2 fun m hm => ?_
  · cases List.mem_singleton.1 hmem
    exact counts_answered
  · cases hm
    exact fun h => absurd h.1 (by decide)

/-- A total of ten tokens without any other count, for a request whose prompt is estimated at twenty. -/
theorem totalBelowEstimate_negative :
    let response : GeminiChatResponse := { candidates := [[{ text := "ok" }]], usageMetadata := { totalTokenCount := 10 } }
    response.usageMetadata.Counts ∧
      ∃ usage, geminiChatHandler 20 (.ok response) = .ok usage ∧ usage.promptTokens = 20 ∧ usage.completionTokens = -10 := by
  intro response
  exact ⟨⟨by decide, by decide, by decide, by decide, by decide⟩, _, rfl, by decide, by decide⟩

end

end NewApi.GeminiUsage

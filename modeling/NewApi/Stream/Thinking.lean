import NewApi.Stream.Chat

/-!
# Reasoning as content

For a channel with `ThinkingToContent`, `sendStreamData` sends the reasoning of a stream as content, between tags. The first chunk
with a reasoning opens the tag, and the first with a content after that closes it: a copy of this chunk, with the closing tag for
its content, is sent before it.

A chunk that has both loses its content, the copy repeats what else is in its chunk, and no other chunk closes the tag. So a stream
of chunks with one choice, in which the reasoning comes first, is converted as it should be just when it has no reasoning at all,
or it has contents, none of them in a chunk with a reasoning, and the first of them in a chunk that has nothing else
(`sendStreamData_converts_iff`).
-/

namespace NewApi.ChatStream

open NewApi.Convert (Json Usage)

/-- `ThinkingContentInfo`, from the start of a stream. -/
structure ThinkingContentInfo where
  isFirstThinkingContent : Bool := true
  sendLastThinkingContent : Bool := false
  hasSentThinkingContent : Bool := false
  deriving DecidableEq

/-! ## A chunk -/

/-- The choice without a reasoning. -/
def Choice.withoutReasoning (choice : Choice) : Choice :=
  { choice with delta := { choice.delta with reasoningContent := none, reasoning := none } }

/-- `SetContentString`, of a choice that has no reasoning then. -/
def Choice.setContent (s : String) (choice : Choice) : Choice :=
  { choice with delta := { choice.delta with content := some s, reasoningContent := none, reasoning := none } }

/-- A copy of the chunk that has the content in each choice. -/
def Chunk.withContent (s : String) (response : Chunk) : Chunk :=
  { response with choices := response.choices.map (Choice.setContent s) }

/-- `thinkingContent`. -/
def Chunk.reasoning (response : Chunk) : String := String.join (response.choices.map (·.delta.getReasoningContent))

def Chunk.hasThinkingContent (response : Chunk) : Bool := response.choices.any (·.delta.getReasoningContent ≠ "")

def Chunk.hasContent (response : Chunk) : Bool := response.choices.any (·.delta.getContentString ≠ "")

/-- What becomes of a choice of a chunk with these contents. -/
def Choice.convert (hasThinkingContent hasContent : Bool) (choice : Choice) : Choice :=
  if choice.delta.getReasoningContent ≠ "" then choice.setContent choice.delta.getReasoningContent
  else if ¬ hasThinkingContent ∧ ¬ hasContent then choice.withoutReasoning
  else choice

/-- The loop over the choices, of which some are done. -/
def convertChoices (response : Chunk) (hasThinkingContent hasContent : Bool) :
    ThinkingContentInfo → List Choice → List Choice → ThinkingContentInfo × List Chunk
  | info, done, [] => (info, [{ response with choices := done }])
  | info, done, choice :: rest =>
    let converted := done ++ [choice.convert hasThinkingContent hasContent]
    if hasContent ∧ ¬ info.sendLastThinkingContent ∧ info.hasSentThinkingContent then
      let closing := { response with choices := done ++ choice :: rest }
      let (info, sent) :=
        convertChoices response hasThinkingContent hasContent { info with sendLastThinkingContent := true } converted rest
      (info, closing.withContent "\n</think>\n" :: sent)
    else convertChoices response hasThinkingContent hasContent info converted rest

/-- The chunks that `sendStreamData` sends for one. -/
def sendThinking (info : ThinkingContentInfo) (response : Chunk) : ThinkingContentInfo × List Chunk :=
  if info.isFirstThinkingContent ∧ response.hasThinkingContent then
    ({ info with isFirstThinkingContent := false, hasSentThinkingContent := true },
      [response.withContent ("<think>\n" ++ response.reasoning)])
  else if response.choices = [] then (info, [response])
  else convertChoices response response.hasThinkingContent response.hasContent info [] response.choices

/-- `sendStreamData` with `thinkToContent`. -/
def sendStreamDataThinking (d : ChunkDecoder) (info : ThinkingContentInfo) (data : String) : ThinkingContentInfo × List Frame :=
  if data = "" then (info, [])
  else
    match d.unmarshal data with
    | none => (info, [])
    | some response =>
      let (info, sent) := sendThinking info response
      (info, sent.map .object)

/-- `sendStreamData` for one text after another. -/
def sendAllThinking (d : ChunkDecoder) : ThinkingContentInfo → List String → List Frame
  | _, [] => []
  | info, data :: rest =>
    let (info, frames) := sendStreamDataThinking d info data
    frames ++ sendAllThinking d info rest

/-! ## What a stream has -/

def Chunk.content (response : Chunk) : String := String.join (response.choices.map (·.delta.getContentString))

/-- What a chunk has besides its content and its reasoning. -/
inductive Extra
  | toolCall (call : ToolCallResponse)
  | finishReason (reason : String)
  | logprobs (probs : Json)
  | usage (usage : Usage)

def Choice.extras (choice : Choice) : List Extra :=
  (choice.delta.toolCalls.getD []).map .toolCall ++ choice.finishReason.toList.map .finishReason ++
    choice.logprobs.toList.map .logprobs

def Chunk.extras (response : Chunk) : List Extra :=
  response.choices.flatMap Choice.extras ++ response.usage.toList.map .usage

def contents (chunks : List Chunk) : String := String.join (chunks.map Chunk.content)

def reasonings (chunks : List Chunk) : String := String.join (chunks.map Chunk.reasoning)

/-- A content with the reasoning before it. -/
def withThinking (reasoning content : String) : String :=
  if reasoning = "" then content else "<think>\n" ++ reasoning ++ "\n</think>\n" ++ content

/-- The frames have the reasoning of the chunks between closed tags before their content, and each thing else that they have
once. -/
structure Converts (d : ChunkDecoder) (chunks : List Chunk) (frames : List Frame) : Prop where
  content : contents (frames.filterMap (Frame.chunk? d)) = withThinking (reasonings chunks) (contents chunks)
  extras : (frames.filterMap (Frame.chunk? d)).flatMap Chunk.extras = chunks.flatMap Chunk.extras

/-- No reasoning comes after a content. -/
def ReasoningFirst (chunks : List Chunk) : Prop := chunks.Pairwise fun a b => a.content ≠ "" → b.reasoning = ""

/-- There is no reasoning; or no chunk has a reasoning and a content, and the first with a content has nothing else. -/
def Separated (chunks : List Chunk) : Prop :=
  (∀ response ∈ chunks, response.reasoning = "") ∨
    (∀ response ∈ chunks, response.content = "" ∨ response.reasoning = "") ∧
      ∃ response, chunks.find? (fun r => r.content ≠ "") = some response ∧ response.extras = []

section
variable {d : ChunkDecoder} {info : ThinkingContentInfo} {response r x : Chunk} {choice : Choice} {done rest : List Choice}
  {chunks sent l l' : List Chunk} {b c : Bool} {s : String}

/-! ## What is sent with a chunk -/

theorem convert_extras : (choice.convert b c).extras = choice.extras := by
  unfold Choice.convert
  split
  · rfl
  split
  · rfl
  · rfl

theorem withContent_extras : (response.withContent s).extras = response.extras := by
  unfold Chunk.extras Chunk.withContent
  rw [List.flatMap_map]
  rfl

theorem convert_step_extras : { response with choices := done ++ [choice.convert b c] ++ rest }.extras =
    { response with choices := done ++ choice :: rest }.extras := by
  unfold Chunk.extras
  simp only [List.append_assoc, List.flatMap_append, List.flatMap_cons, List.singleton_append, convert_extras]

theorem convertChoices_extras : ∀ r ∈ (convertChoices response b c info done rest).2,
    r.extras = { response with choices := done ++ rest }.extras := by
  induction rest generalizing info done with
  | nil =>
    intro r hr
    rw [List.mem_singleton.1 hr, List.append_nil]
  | cons choice rest ih =>
    intro r hr
    have hrest : ∀ info', ∀ r ∈ (convertChoices response b c info' (done ++ [choice.convert b c]) rest).2,
        r.extras = { response with choices := done ++ choice :: rest }.extras :=
      fun info' r hr => (ih r hr).trans convert_step_extras
    unfold convertChoices at hr
    dsimp only at hr
    split at hr
    · rcases List.mem_cons.1 hr with rfl | hr
      · exact withContent_extras
      · exact hrest _ r hr
    · exact hrest _ r hr

theorem sendThinking_extras : ∀ r ∈ (sendThinking info response).2, r.extras = response.extras := by
  intro r hr
  unfold sendThinking at hr
  split at hr
  · rw [List.mem_singleton.1 hr]
    exact withContent_extras
  split at hr
  · rw [List.mem_singleton.1 hr]
  · exact convertChoices_extras r hr

theorem join_map_singleton {f : Choice → String} : String.join ([choice].map f) = f choice := by
  rw [List.map_singleton, String.join_cons, String.join_nil, String.append_empty]

theorem any_ne_empty_iff {f : Choice → String} {choices : List Choice} :
    (choices.any fun choice => f choice ≠ "") = true ↔ String.join (choices.map f) ≠ "" := by
  rw [ne_eq, GoString.join_eq_empty_iff, List.forall_mem_map]
  simp

theorem hasThinkingContent_iff : response.hasThinkingContent = true ↔ response.reasoning ≠ "" := any_ne_empty_iff

theorem hasContent_iff : response.hasContent = true ↔ response.content ≠ "" := any_ne_empty_iff

theorem choices_cases (h : response.choices.length ≤ 1) : response.choices = [] ∨ ∃ choice, response.choices = [choice] := by
  match hchoices : response.choices with
  | [] => exact .inl rfl
  | [choice] => exact .inr ⟨choice, rfl⟩
  | _ :: _ :: _ => simp [hchoices] at h

/-- The text that a chunk is sent with: its reasoning, if it has one. -/
def Chunk.spoken (response : Chunk) : String := if response.reasoning = "" then response.content else response.reasoning

theorem convert_content (h : response.choices = [choice]) :
    (choice.convert response.hasThinkingContent response.hasContent).delta.getContentString = response.spoken := by
  have hreasoning : response.reasoning = choice.delta.getReasoningContent := by
    unfold Chunk.reasoning
    rw [h, join_map_singleton]
  have hcontent : response.content = choice.delta.getContentString := by
    unfold Chunk.content
    rw [h, join_map_singleton]
  unfold Choice.convert Chunk.spoken
  rw [hreasoning, hcontent]
  by_cases hno : choice.delta.getReasoningContent = ""
  · rw [if_pos hno, if_neg (not_not.2 hno)]
    split
    · rfl
    · rfl
  · rw [if_neg hno, if_pos hno]
    rfl

theorem sendThinking_plain (info : ThinkingContentInfo) (h : response.choices.length ≤ 1)
    (hopen : info.isFirstThinkingContent = true → response.reasoning = "")
    (hclose : response.content ≠ "" → info.hasSentThinkingContent = true → info.sendLastThinkingContent = true) :
    ∃ r, sendThinking info response = (info, [r]) ∧ r.content = response.spoken := by
  have hnot : ¬ (info.isFirstThinkingContent = true ∧ response.hasThinkingContent = true) :=
    fun ⟨hfirst, hthinking⟩ => hasThinkingContent_iff.1 hthinking (hopen hfirst)
  unfold sendThinking
  rw [if_neg hnot]
  rcases choices_cases h with hnone | ⟨choice, hone⟩
  · rw [if_pos hnone]
    refine ⟨response, rfl, ?_⟩
    unfold Chunk.spoken Chunk.reasoning
    rw [hnone]
    rfl
  · have hstay : ¬ (response.hasContent = true ∧ ¬ info.sendLastThinkingContent = true ∧ info.hasSentThinkingContent = true) :=
      fun ⟨hcontent, hlast, hsent⟩ => hlast (hclose (hasContent_iff.1 hcontent) hsent)
    rw [hone, if_neg (List.cons_ne_nil _ _)]
    unfold convertChoices
    dsimp only
    rw [if_neg hstay]
    refine ⟨_, rfl, ?_⟩
    unfold Chunk.content
    rw [List.nil_append, join_map_singleton]
    exact convert_content hone

theorem sendThinking_open (info : ThinkingContentInfo) (h : response.choices.length ≤ 1) (hfirst : info.isFirstThinkingContent = true)
    (hreasoning : response.reasoning ≠ "") :
    ∃ r, sendThinking info response =
        ({ info with isFirstThinkingContent := false, hasSentThinkingContent := true }, [r]) ∧
      r.content = "<think>\n" ++ response.reasoning := by
  unfold sendThinking
  rw [if_pos ⟨hfirst, hasThinkingContent_iff.2 hreasoning⟩]
  refine ⟨_, rfl, ?_⟩
  rcases choices_cases h with hnone | ⟨choice, hone⟩
  · refine absurd ?_ hreasoning
    unfold Chunk.reasoning
    rw [hnone]
    rfl
  · unfold Chunk.content Chunk.withContent
    dsimp only
    rw [hone, List.map_singleton, join_map_singleton]
    rfl

theorem sendThinking_close (info : ThinkingContentInfo) (h : response.choices.length ≤ 1) (hfirst : info.isFirstThinkingContent = false)
    (hsent : info.hasSentThinkingContent = true) (hlast : info.sendLastThinkingContent = false)
    (hcontent : response.content ≠ "") :
    ∃ closing r, sendThinking info response = ({ info with sendLastThinkingContent := true }, [closing, r]) ∧
      closing.content = "\n</think>\n" ∧ r.content = response.spoken := by
  unfold sendThinking
  rw [if_neg fun hno => Bool.false_ne_true (hfirst.symm.trans hno.1)]
  rcases choices_cases h with hnone | ⟨choice, hone⟩
  · refine absurd ?_ hcontent
    unfold Chunk.content
    rw [hnone]
    rfl
  · have hclose : response.hasContent = true ∧ ¬ info.sendLastThinkingContent = true ∧ info.hasSentThinkingContent = true :=
      ⟨hasContent_iff.2 hcontent, by rw [hlast]; exact Bool.false_ne_true, hsent⟩
    rw [hone, if_neg (List.cons_ne_nil _ _)]
    unfold convertChoices
    dsimp only
    rw [if_pos hclose]
    refine ⟨_, _, rfl, ?_, ?_⟩
    · unfold Chunk.content Chunk.withContent
      rw [List.nil_append, List.map_singleton, join_map_singleton]
      rfl
    · unfold Chunk.content
      rw [List.nil_append, join_map_singleton]
      exact convert_content hone

/-! ## What is sent with a stream -/

/-- The chunks that are sent for one chunk after another. -/
def sendChunks : ThinkingContentInfo → List Chunk → List Chunk
  | _, [] => []
  | info, response :: rest => (sendThinking info response).2 ++ sendChunks (sendThinking info response).1 rest

theorem filterMap_sendAllThinking {stream : List (ChunkText d)} :
    (sendAllThinking d info (stream.map (·.text))).filterMap (Frame.chunk? d) = sendChunks info (stream.map (·.chunk)) := by
  induction stream generalizing info with
  | nil => rfl
  | cons t stream ih =>
    have hsent (sent : List Chunk) : (sent.map Frame.object).filterMap (Frame.chunk? d) = sent := by
      rw [List.filterMap_map]
      exact List.filterMap_some
    rw [List.map_cons, List.map_cons, sendAllThinking, sendChunks, sendStreamDataThinking, if_neg t.text_ne_empty,
      t.unmarshal_text]
    dsimp only
    rw [List.filterMap_append, hsent, ih]

@[simp] theorem contents_cons : contents (response :: l) = response.content ++ contents l := String.join_cons

@[simp] theorem contents_append : contents (l ++ l') = contents l ++ contents l' := by
  unfold contents
  rw [List.map_append, String.join_append]

@[simp] theorem reasonings_cons : reasonings (response :: l) = response.reasoning ++ reasonings l := String.join_cons

@[simp] theorem reasonings_append : reasonings (l ++ l') = reasonings l ++ reasonings l' := by
  unfold reasonings
  rw [List.map_append, String.join_append]

theorem contents_eq_empty (h : ∀ r ∈ l, r.content = "") : contents l = "" :=
  GoString.join_eq_empty_iff.2 (List.forall_mem_map.2 h)

theorem reasonings_eq_empty_iff : reasonings l = "" ↔ ∀ r ∈ l, r.reasoning = "" := by
  unfold reasonings
  rw [GoString.join_eq_empty_iff, List.forall_mem_map]

/-- The chunks are sent with their texts, and have what these have besides. -/
structure Spoken (l sent : List Chunk) : Prop where
  content : contents sent = String.join (l.map Chunk.spoken)
  extras : sent.flatMap Chunk.extras = l.flatMap Chunk.extras

theorem Spoken.content_of_reasoning (h : Spoken l sent) (hno : ∀ r ∈ l, r.reasoning = "") : contents sent = contents l := by
  rw [h.content, contents]
  exact congrArg String.join (List.map_congr_left fun r hr => if_pos (hno r hr))

theorem Spoken.content_of_content (h : Spoken l sent) (hno : ∀ r ∈ l, r.content = "") : contents sent = reasonings l := by
  rw [h.content, reasonings]
  refine congrArg String.join (List.map_congr_left fun r hr => ?_)
  unfold Chunk.spoken
  split
  · rename_i hempty
    rw [hno r hr, hempty]
  · rfl

theorem sendChunks_plain (info : ThinkingContentInfo) (l' : List Chunk) (h : ∀ r ∈ l, r.choices.length ≤ 1)
    (hopen : info.isFirstThinkingContent = true → ∀ r ∈ l, r.reasoning = "")
    (hclose : info.hasSentThinkingContent = true → info.sendLastThinkingContent = true ∨ ∀ r ∈ l, r.content = "") :
    ∃ sent, sendChunks info (l ++ l') = sent ++ sendChunks info l' ∧ Spoken l sent := by
  induction l with
  | nil => exact ⟨[], rfl, rfl, rfl⟩
  | cons response l ih =>
    obtain ⟨r, hsend, hcontent⟩ := sendThinking_plain info (h response List.mem_cons_self)
      (fun hfirst => hopen hfirst response List.mem_cons_self)
      fun hne hsent => (hclose hsent).resolve_right fun hno => hne (hno response List.mem_cons_self)
    obtain ⟨sent, hrest, hspoken⟩ := ih (fun r hr => h r (List.mem_cons_of_mem _ hr))
      (fun hfirst r hr => hopen hfirst r (List.mem_cons_of_mem _ hr))
      fun hsent => (hclose hsent).imp id fun hno r hr => hno r (List.mem_cons_of_mem _ hr)
    have hextras : r.extras = response.extras := sendThinking_extras r (by rw [hsend]; exact List.mem_singleton_self r)
    refine ⟨r :: sent, ?_, ?_, ?_⟩
    · rw [List.cons_append, sendChunks, hsend, hrest]
      rfl
    · rw [contents_cons, hspoken.content, List.map_cons, String.join_cons, hcontent]
    · rw [List.flatMap_cons, List.flatMap_cons, hspoken.extras, hextras]

theorem sendChunks_of_no_reasoning (h : ∀ r ∈ l, r.choices.length ≤ 1) (hno : ∀ r ∈ l, r.reasoning = "") :
    contents (sendChunks {} l) = contents l ∧ (sendChunks {} l).flatMap Chunk.extras = l.flatMap Chunk.extras := by
  obtain ⟨sent, hsend, hspoken⟩ := sendChunks_plain {} [] h (fun _ => hno) fun hsent => by cases hsent
  rw [List.append_nil, sendChunks, List.append_nil] at hsend
  rw [hsend]
  exact ⟨hspoken.content_of_reasoning hno, hspoken.extras⟩

theorem sendChunks_open (h : ∀ r ∈ l ++ response :: l', r.choices.length ≤ 1) (hno : ∀ r ∈ l, r.reasoning = "")
    (hreasoning : response.reasoning ≠ "") :
    ∃ sent, sendChunks {} (l ++ response :: l') = sent ++ sendChunks ⟨false, false, true⟩ l' ∧
      contents sent = contents l ++ ("<think>
" ++ response.reasoning) ∧
      sent.flatMap Chunk.extras = (l ++ [response]).flatMap Chunk.extras := by
  obtain ⟨sent, hsend, hspoken⟩ := sendChunks_plain {} (response :: l')
    (fun r hr => h r (List.mem_append_left _ hr)) (fun _ => hno) fun hsent => by cases hsent
  obtain ⟨r, hopen, hcontent⟩ := sendThinking_open {}
    (h response (List.mem_append_right _ List.mem_cons_self)) rfl hreasoning
  have hextras : r.extras = response.extras := sendThinking_extras r (by rw [hopen]; exact List.mem_singleton_self r)
  refine ⟨sent ++ [r], ?_, ?_, ?_⟩
  · rw [hsend, sendChunks, hopen, List.append_assoc]
  · rw [contents_append, hspoken.content_of_reasoning hno, contents_cons, hcontent]
    exact congrArg (contents l ++ ·) String.append_empty
  · rw [List.flatMap_append, List.flatMap_append, hspoken.extras, List.flatMap_singleton, List.flatMap_singleton, hextras]

theorem sendChunks_opened (h : ∀ r ∈ l, r.choices.length ≤ 1) (hno : ∀ r ∈ l, r.content = "") :
    Spoken l (sendChunks ⟨false, false, true⟩ l) := by
  obtain ⟨sent, hsend, hspoken⟩ := sendChunks_plain ⟨false, false, true⟩ [] h
    (fun hfirst => by cases hfirst) fun _ => .inr hno
  rw [List.append_nil, sendChunks, List.append_nil] at hsend
  rw [hsend]
  exact hspoken

theorem sendChunks_close (h : ∀ r ∈ l ++ response :: l', r.choices.length ≤ 1) (hno : ∀ r ∈ l, r.content = "")
    (hcontent : response.content ≠ "") (hrest : ∀ r ∈ l', r.reasoning = "") :
    contents (sendChunks ⟨false, false, true⟩ (l ++ response :: l')) =
        reasonings l ++ ("
</think>
" ++ (response.spoken ++ contents l')) ∧
      (sendChunks ⟨false, false, true⟩ (l ++ response :: l')).flatMap Chunk.extras =
        l.flatMap Chunk.extras ++ (response.extras ++ (response.extras ++ l'.flatMap Chunk.extras)) := by
  obtain ⟨sent, hsend, hspoken⟩ := sendChunks_plain ⟨false, false, true⟩ (response :: l')
    (fun r hr => h r (List.mem_append_left _ hr)) (fun hfirst => by cases hfirst) fun _ => .inr hno
  obtain ⟨closing, r, hclose, htag, hr⟩ := sendThinking_close ⟨false, false, true⟩
    (h response (List.mem_append_right _ List.mem_cons_self)) rfl rfl rfl hcontent
  obtain ⟨sent', hsend', hspoken'⟩ := sendChunks_plain ⟨false, true, true⟩ []
    (fun r hr => h r (List.mem_append_right _ (List.mem_cons_of_mem response hr))) (fun hfirst => by cases hfirst)
    fun _ => .inl rfl
  rw [List.append_nil, sendChunks, List.append_nil] at hsend'
  have hmem : closing ∈ (sendThinking ⟨false, false, true⟩ response).2 ∧ r ∈ (sendThinking ⟨false, false, true⟩ response).2 := by
    rw [hclose]
    exact ⟨List.mem_cons_self, List.mem_cons_of_mem _ List.mem_cons_self⟩
  rw [hsend, sendChunks, hclose, hsend']
  constructor
  · rw [contents_append, hspoken.content_of_content hno, contents_append, contents_cons, contents_cons, htag, hr,
      hspoken'.content_of_reasoning hrest]
    simp only [String.append_assoc]
    rfl
  · rw [List.flatMap_append, hspoken.extras, List.flatMap_append, List.flatMap_cons, List.flatMap_cons, hspoken'.extras,
      sendThinking_extras _ hmem.1, sendThinking_extras _ hmem.2, List.flatMap_nil, List.append_nil, List.append_assoc]

/-! ## Which streams are converted -/

theorem not_content_of_both (h : ∀ r ∈ l ++ response :: l', r.choices.length ≤ 1) (hl : ∀ r ∈ l, r.reasoning = "")
    (hreasoning : response.reasoning ≠ "") (hcontent : response.content ≠ "") (hl' : ∀ r ∈ l', r.reasoning = "") :
    contents (sendChunks {} (l ++ response :: l')) ≠
      "<think>\n" ++ reasonings (l ++ response :: l') ++ "\n</think>\n" ++ contents (l ++ response :: l') := by
  obtain ⟨sent, hsend, hsent, -⟩ := sendChunks_open h hl hreasoning
  have hsingle : ∀ r ∈ l', r.choices.length ≤ 1 := fun r hr => h r (List.mem_append_right _ (List.mem_cons_of_mem _ hr))
  have hpos : response.content.length ≠ 0 := fun hzero => hcontent (String.length_eq_zero_iff.1 hzero)
  have htag : "\n</think>\n".length = 10 := rfl
  have hrest : (contents (sendChunks ⟨false, false, true⟩ l')).length ≤ 10 + (contents l').length := by
    cases hfind : l'.find? fun r => r.content ≠ "" with
    | none =>
      have hno : ∀ r ∈ l', r.content = "" := by simpa using hfind
      rw [(sendChunks_opened hsingle hno).content_of_content hno, reasonings_eq_empty_iff.2 hl']
      exact Nat.zero_le _
    | some x =>
      obtain ⟨hx, init, rest, rfl, hinit⟩ := List.find?_eq_some_iff_append.1 hfind
      have hno : ∀ r ∈ init, r.content = "" := by simpa using hinit
      have hxr : x.spoken = x.content := if_pos (hl' x (List.mem_append_right _ List.mem_cons_self))
      rw [(sendChunks_close hsingle hno (by simpa using hx) fun r hr =>
          hl' r (List.mem_append_right _ (List.mem_cons_of_mem _ hr))).1,
        reasonings_eq_empty_iff.2 fun r hr => hl' r (List.mem_append_left _ hr), hxr, contents_append, contents_cons,
        contents_eq_empty hno]
      simp only [String.length_append, String.length_empty]
      omega
  intro heq
  have hlen := congrArg String.length heq
  rw [hsend, contents_append, hsent, reasonings_append, reasonings_cons, reasonings_eq_empty_iff.2 hl,
    reasonings_eq_empty_iff.2 hl', contents_append, contents_cons] at hlen
  simp only [String.length_append, String.length_empty] at hlen
  omega

/-- A stream with a reasoning, and contents after that: what is sent has the reasoning and the contents, if they are not in one
chunk, and what else is in the first chunk with a content twice. -/
theorem converted_iff_of_content (h : ∀ r ∈ l ++ response :: (chunks ++ x :: l'), r.choices.length ≤ 1)
    (hl : ∀ r ∈ l, r.reasoning = "" ∧ r.content = "") (hreasoning : response.reasoning ≠ "") (hresponse : response.content = "")
    (hchunks : ∀ r ∈ chunks, r.content = "") (hcontent : x.content ≠ "") (hl' : ∀ r ∈ l', r.reasoning = "") :
    contents (sendChunks {} (l ++ response :: (chunks ++ x :: l'))) =
          "<think>\n" ++ reasonings (l ++ response :: (chunks ++ x :: l')) ++ "\n</think>\n" ++
            contents (l ++ response :: (chunks ++ x :: l')) ∧
        (sendChunks {} (l ++ response :: (chunks ++ x :: l'))).flatMap Chunk.extras =
          (l ++ response :: (chunks ++ x :: l')).flatMap Chunk.extras ↔
      x.reasoning = "" ∧ x.extras = [] := by
  obtain ⟨sent, hsend, hsent, hextras⟩ := sendChunks_open h (fun r hr => (hl r hr).1) hreasoning
  obtain ⟨hrest, hrestExtras⟩ := sendChunks_close
    (fun r hr => h r (List.mem_append_right _ (List.mem_cons_of_mem _ hr))) hchunks hcontent hl'
  have hlc : contents l = "" := contents_eq_empty fun r hr => (hl r hr).2
  have hlr : reasonings l = "" := reasonings_eq_empty_iff.2 fun r hr => (hl r hr).1
  have hlr' : reasonings l' = "" := reasonings_eq_empty_iff.2 hl'
  have hcc : contents chunks = "" := contents_eq_empty hchunks
  refine and_congr ?_ ?_
  · rw [hsend, contents_append, hsent, hrest, reasonings_append, reasonings_cons, reasonings_append, reasonings_cons,
      contents_append, contents_cons, contents_append, contents_cons, hlc, hlr, hlr', hcc, hresponse]
    unfold Chunk.spoken
    constructor
    · intro heq
      by_contra hx
      rw [if_neg hx] at heq
      have hpos : x.content.length ≠ 0 := fun hzero => hcontent (String.length_eq_zero_iff.1 hzero)
      have hlen := congrArg String.length heq
      simp only [String.length_append, String.length_empty] at hlen
      omega
    · intro hx
      rw [if_pos hx, hx]
      simp only [String.append_assoc, String.empty_append, String.append_empty]
  · rw [hsend, List.flatMap_append, hextras, hrestExtras, List.flatMap_append, List.flatMap_singleton, List.flatMap_append,
      List.flatMap_cons, List.flatMap_append, List.flatMap_cons]
    constructor
    · intro heq
      have hlen := congrArg List.length heq
      simp only [List.length_append] at hlen
      exact List.length_eq_zero_iff.1 (by omega)
    · intro hx
      rw [hx]
      simp only [List.append_assoc, List.nil_append]

/-- Chunks with one choice, of which those with a reasoning come first, are converted just where they are separated. -/
theorem sendChunks_iff (h : ∀ r ∈ chunks, r.choices.length ≤ 1) (hfirst : ReasoningFirst chunks) :
    contents (sendChunks {} chunks) = withThinking (reasonings chunks) (contents chunks) ∧
        (sendChunks {} chunks).flatMap Chunk.extras = chunks.flatMap Chunk.extras ↔ Separated chunks := by
  unfold withThinking Separated
  cases hfind : chunks.find? fun r => r.reasoning ≠ "" with
  | none =>
    have hno : ∀ r ∈ chunks, r.reasoning = "" := by simpa using hfind
    rw [if_pos (reasonings_eq_empty_iff.2 hno)]
    exact iff_of_true (sendChunks_of_no_reasoning h hno) (.inl hno)
  | some response =>
    obtain ⟨hreasoning, l, l', rfl, hl⟩ := List.find?_eq_some_iff_append.1 hfind
    replace hreasoning : response.reasoning ≠ "" := by simpa using hreasoning
    replace hl : ∀ r ∈ l, r.reasoning = "" := by simpa using hl
    have hsome : ¬ ∀ r ∈ l ++ response :: l', r.reasoning = "" := fun hno =>
      hreasoning (hno response (List.mem_append_right _ List.mem_cons_self))
    rw [if_neg fun hempty => hsome (reasonings_eq_empty_iff.1 hempty), or_iff_right hsome]
    obtain ⟨-, htail, hbefore⟩ := List.pairwise_append.1 hfirst
    obtain ⟨hafter, htail⟩ := List.pairwise_cons.1 htail
    have hlc : ∀ r ∈ l, r.content = "" := fun r hr => by
      by_contra hne
      exact hreasoning (hbefore r hr response List.mem_cons_self hne)
    by_cases hresponse : response.content = ""
    · cases hcontents : l'.find? fun r => r.content ≠ "" with
      | none =>
        have hno : ∀ r ∈ l', r.content = "" := by simpa using hcontents
        have hnone : (l ++ response :: l').find? (fun r => r.content ≠ "") = none := by
          rw [List.find?_eq_none]
          intro r hr
          rcases List.mem_append.1 hr with hr | hr
          · simp [hlc r hr]
          · rcases List.mem_cons.1 hr with rfl | hr
            · simp [hresponse]
            · simp [hno r hr]
        refine iff_of_false (fun hconverted => ?_) fun hseparated => ?_
        · obtain ⟨sent, hsend, hsent, -⟩ := sendChunks_open h hl hreasoning
          have hlen := congrArg String.length hconverted.1
          have htag : "\n</think>\n".length = 10 := rfl
          rw [hsend, contents_append, hsent, (sendChunks_opened
              (fun r hr => h r (List.mem_append_right _ (List.mem_cons_of_mem _ hr))) hno).content_of_content hno,
            contents_eq_empty hlc, reasonings_append, reasonings_cons, reasonings_eq_empty_iff.2 hl] at hlen
          simp only [String.length_append, String.length_empty] at hlen
          omega
        · obtain ⟨x, hx, -⟩ := hseparated.2
          rw [hnone] at hx
          cases hx
      | some x =>
        obtain ⟨hx, init, rest, rfl, hinit⟩ := List.find?_eq_some_iff_append.1 hcontents
        replace hx : x.content ≠ "" := by simpa using hx
        replace hinit : ∀ r ∈ init, r.content = "" := by simpa using hinit
        have hrest : ∀ r ∈ rest, r.reasoning = "" := fun r hr =>
          (List.pairwise_cons.1 (List.pairwise_append.1 htail).2.1).1 r hr hx
        have hfound : (l ++ response :: (init ++ x :: rest)).find? (fun r => r.content ≠ "") = some x := by
          refine List.find?_eq_some_iff_append.2 ⟨by simpa using hx, l ++ response :: init, rest, by simp, ?_⟩
          intro r hr
          rcases List.mem_append.1 hr with hr | hr
          · simp [hlc r hr]
          · rcases List.mem_cons.1 hr with rfl | hr
            · simp [hresponse]
            · simp [hinit r hr]
        rw [converted_iff_of_content h (fun r hr => ⟨hl r hr, hlc r hr⟩) hreasoning hresponse hinit hx hrest, hfound]
        constructor
        · rintro ⟨hxr, hextras⟩
          refine ⟨fun r hr => ?_, x, rfl, hextras⟩
          rcases List.mem_append.1 hr with hr | hr
          · exact .inl (hlc r hr)
          rcases List.mem_cons.1 hr with rfl | hr
          · exact .inl hresponse
          rcases List.mem_append.1 hr with hr | hr
          · exact .inl (hinit r hr)
          rcases List.mem_cons.1 hr with rfl | hr
          · exact .inr hxr
          · exact .inr (hrest r hr)
        · rintro ⟨hapart, y, hy, hextras⟩
          cases hy
          refine ⟨(hapart x ?_).resolve_left hx, hextras⟩
          simp
    · refine iff_of_false (fun hconverted => ?_) fun hseparated => ?_
      · exact not_content_of_both h hl hreasoning hresponse (fun r hr => hafter r hr hresponse) hconverted.1
      · rcases hseparated.1 response (List.mem_append_right _ List.mem_cons_self) with hno | hno
        · exact hresponse hno
        · exact hreasoning hno

/-- A stream of chunks with one choice, in which the reasoning comes first, is converted just where the reasoning is apart from the
contents, and from all else in the chunk with the first of them. -/
theorem sendStreamData_converts_iff (stream : List (ChunkText d)) (hsingle : ∀ t ∈ stream, t.chunk.choices.length ≤ 1)
    (hfirst : ReasoningFirst (stream.map (·.chunk))) :
    Converts d (stream.map (·.chunk)) (sendAllThinking d {} (stream.map (·.text))) ↔ Separated (stream.map (·.chunk)) := by
  rw [← sendChunks_iff (List.forall_mem_map.2 hsingle) hfirst, ← filterMap_sendAllThinking (d := d)]
  exact ⟨fun h => ⟨h.content, h.extras⟩, fun h => ⟨h.1, h.2⟩⟩

end

/-! ## A chunk with a reasoning and a content -/

def reasoningText : String := "\x7b\"choices\":[\x7b\"delta\":\x7b\"reasoning_content\":\"Hm\"\x7d\x7d]\x7d"

def bothText : String := "\x7b\"choices\":[\x7b\"delta\":\x7b\"reasoning_content\":\"Hm\",\"content\":\"Yes\"\x7d\x7d]\x7d"

def contentText : String := "\x7b\"choices\":[\x7b\"delta\":\x7b\"content\":\"Yes\"\x7d\x7d]\x7d"

def deltaChunk (delta : Delta) : Chunk := { choices := [{ delta := delta }] }

/-- The decoder as it is for these texts. -/
def thinkingDecoder : ChunkDecoder where
  unmarshal data :=
    if data = reasoningText then some (deltaChunk { reasoningContent := some "Hm" })
    else if data = bothText then some (deltaChunk { reasoningContent := some "Hm", content := some "Yes" })
    else if data = contentText then some (deltaChunk { content := some "Yes" })
    else none
  unmarshal_empty := by decide

/-- A reasoning, and a content after it. -/
def apart : List (ChunkText thinkingDecoder) :=
  [⟨reasoningText, _, by rfl⟩, ⟨contentText, deltaChunk { content := some "Yes" }, by rfl⟩]

theorem sendStreamData_converts_iff_apart :
    Converts thinkingDecoder (apart.map (·.chunk)) (sendAllThinking thinkingDecoder {} (apart.map (·.text))) ↔
      Separated (apart.map (·.chunk)) :=
  sendStreamData_converts_iff apart (by decide) (by unfold ReasoningFirst; decide)

/-- A reasoning and a content in one chunk. -/
def together : ChunkText thinkingDecoder :=
  ⟨bothText, deltaChunk { reasoningContent := some "Hm", content := some "Yes" }, by rfl⟩

/-- The content is not sent. -/
theorem not_converts_together : together.chunk.choices.length ≤ 1 ∧ ReasoningFirst [together.chunk] ∧
    ¬ Converts thinkingDecoder [together.chunk] (sendAllThinking thinkingDecoder {} [together.text]) := by
  refine ⟨by decide, by unfold ReasoningFirst; decide, fun h => ?_⟩
  have hcontent := h.content
  revert hcontent
  decide

end NewApi.ChatStream

import NewApi.Convert.OpenAIToGemini.Images
import NewApi.Lib.Outcome

/-!
# What OpenAI's requests lose for Gemini

A conversation is carried over when its texts, the images in them, its media, tool calls and results are found in the
contents for Gemini, once and in order, and the texts of the system in the system instruction. The text behind the last
image of a text is lost, and so is what is between an image and a `![` before it that is not its own. System messages
and results are read for their texts only. Where none of this happens the conversation is carried over, and only there.
-/

namespace NewApi.OpenAIToGemini

open NewApi.Convert
open NewApi.OpenAIToClaude (FileSource toFileSource)

/-! ## Conversations -/

/-- What a conversation carries. Data that is not there, or does not decode, and arguments that do not, are missing. -/
inductive Carried
  | text (s : String)
  | media (data : Option (String × String))
  | toolCall (name : String) (arguments : Option Json)
  | toolResult (name : String) (response : Json)

def Part.carried (part : Part) : List Carried :=
  (if part.text = "" then [] else [.text part.text]) ++
    (part.inlineData.map fun d => .media (some (d.mimeType, d.data))).toList ++
    (part.functionCall.map fun c => .toolCall c.functionName (some c.arguments)).toList ++
    (part.functionResponse.map fun r => .toolResult r.name r.response).toList

def carriedParts (parts : List Part) : List Carried := parts.flatMap Part.carried

def carriedContents (contents : List Content) : List Carried := contents.flatMap fun c => carriedParts c.parts

/-- A message of the user or of the model. -/
def IsTurn (message : ChatMessage) : Prop := ¬ IsSystem message ∧ ¬ IsResult message

instance (message : ChatMessage) : Decidable (IsTurn message) := inferInstanceAs (Decidable (_ ∧ _))

/-- The names of the calls of messages, the last one first. -/
def callNames (messages : List ChatMessage) : List (String × String) :=
  (messages.flatMap fun m => m.parseToolCalls.map fun call => (call.id, call.function.name)).reverse

/-- The name of a result: that of the call it answers, or its own where it answers none. -/
def answeredName (earlier : List ChatMessage) (message : ChatMessage) : String :=
  ((callNames earlier).lookup message.toolCallId).getD (message.name.getD "")

section
variable (env : Env)

def Piece.carried : Piece → Carried
  | .text s => .text (String.ofList s)
  | .image dataUrl => .media (decodeBase64FileData env dataUrl).toOption

def carriedCall (call : ToolCallRequest) : Carried :=
  .toolCall call.function.name (callArguments env call.function.arguments)

/-- The type and the data of a source. -/
def sourceData (source : FileSource) : Option (String × String) := (env.getBase64Data source).toOption.map Prod.swap

def carriedMedia (m : MediaContent) : Carried := .media ((toFileSource m).bind (sourceData env))

/-- A text carries its pieces. -/
def carriedContent (m : MediaContent) : List Carried :=
  if m.type = "text" then (textPieces m.text.toList).map (Piece.carried env) else [carriedMedia env m]

/-- A result, whose text it is. The texts of the system are for the instruction. -/
def carriedResult (earlier : List ChatMessage) (message : ChatMessage) : List Carried :=
  if IsResult message then [.toolResult (answeredName earlier message) (toolResponse env message.stringContent)] else []

/-- What a message carries, behind those before it. -/
def ChatMessage.carried (earlier : List ChatMessage) (message : ChatMessage) : List Carried :=
  message.parseToolCalls.map (carriedCall env) ++
    if IsTurn message then message.parseContent.flatMap (carriedContent env)
    else carriedResult env earlier message ++
      (message.parseContent.filter fun m => m.type ≠ "text").map (carriedMedia env)

def carriedMessages : List ChatMessage → List ChatMessage → List Carried
  | _, [] => []
  | earlier, message :: messages => message.carried env earlier ++ carriedMessages (earlier ++ [message]) messages

/-- The texts of the system. -/
def systemTexts (messages : List ChatMessage) : List String :=
  (messages.filter fun m => IsSystem m).map fun m => m.stringContent

/-- The request for Gemini has the conversation, and the texts of the system. -/
structure KeepsConversation (messages : List ChatMessage) (out : GeminiRequest) : Prop where
  conversation : carriedContents out.contents = carriedMessages env [] messages
  system : out.systemInstructions =
    if systemTexts messages = [] then none else some ("\n".intercalate (systemTexts messages))

end

/-! ## What is kept -/

/-- A text has no images, or ends with the last one and has no `![` of anything else, and a media has data. -/
def ContentKept (m : MediaContent) : Prop :=
  if m.type = "text" then HasImage m.text.toList → EndsWithImage m.text.toList else (toFileSource m).isSome

/-- A message is carried over behind those before it: a turn with its contents, another one where it has but texts, and
its name, where it has one, is that of the call it answers. -/
def MessageKept (earlier : List ChatMessage) (message : ChatMessage) : Prop :=
  if IsTurn message then ∀ m ∈ message.parseContent, ContentKept m
  else message.parseToolCalls = [] ∧ (∀ m ∈ message.parseContent, m.type = "text") ∧
    (IsResult message → ∀ name ∈ message.name, ∀ answered ∈ (callNames earlier).lookup message.toolCallId,
      name = answered)

/-! ## Sources -/

/-- Where a part comes from, and what is not read. A result has the name it is given, and that of its call. -/
inductive Source
  | call (call : ToolCallRequest)
  | content (m : MediaContent)
  | result (name answered : String) (response : Json)
  | lost (item : Carried)

namespace Source

section
variable (env : Env)

/-- What a source carries. -/
def carried : Source → List Carried
  | call c => [carriedCall env c]
  | content m => carriedContent env m
  | result _ answered response => [.toolResult answered response]
  | lost item => [item]

/-- What is left of a content. -/
def sentContent (m : MediaContent) : List Carried :=
  if m.type = "text" then (scannedPieces m.text.toList).map (Piece.carried env)
  else ((toFileSource m).map fun source => .media (sourceData env source)).toList

/-- What is left of a source. -/
def sent : Source → List Carried
  | call c => [carriedCall env c]
  | content m => sentContent env m
  | result name _ response => [.toolResult name response]
  | lost _ => []

end

def Kept : Source → Prop
  | call _ => True
  | content m => ContentKept m
  | result name answered _ => name = answered
  | lost _ => False

end Source

/-- A text with a `![`. -/
def Carried.isOpen : Carried → Bool
  | .text s => "![".toList <:+: s.toList
  | _ => false

section
variable {env : Env} {s : Source}

theorem Piece.isOpen_carried (p : Piece) : (p.carried env).isOpen = p.isOpen := by
  cases p with
  | text s => exact congrArg (fun t : List Char => decide ("![".toList <:+: t)) String.toList_ofList
  | image dataUrl => rfl

theorem filter_carried (l : List Piece) :
    (l.map (Piece.carried env)).filter Carried.isOpen = (l.filter Piece.isOpen).map (Piece.carried env) := by
  rw [List.filter_map]
  exact congrArg _ (List.filter_congr fun p _ => Piece.isOpen_carried p)

namespace Source

theorem length_filter_sent_le :
    ((s.sent env).filter Carried.isOpen).length ≤ ((s.carried env).filter Carried.isOpen).length := by
  cases s with
  | call c => exact Nat.le_refl _
  | content m =>
    rw [sent, sentContent, carried, carriedContent]
    split
    · rw [filter_carried, filter_carried, List.length_map, List.length_map]
      exact length_filter_scannedPieces_le
    · cases toFileSource m with
      | none => exact Nat.zero_le _
      | some source => exact Nat.le_refl _
  | result name answered response => exact Nat.le_refl _
  | lost item => exact Nat.zero_le _

theorem length_sent_le
    (h : ((s.carried env).filter Carried.isOpen).length ≤ ((s.sent env).filter Carried.isOpen).length) :
    (s.sent env).length ≤ (s.carried env).length := by
  cases s with
  | call c => exact Nat.le_refl _
  | content m =>
    rw [sent, sentContent, carried, carriedContent] at *
    split at h
    next htext =>
      rw [filter_carried, filter_carried, List.length_map, List.length_map] at h
      rw [if_pos htext, if_pos htext, List.length_map, List.length_map]
      exact length_scannedPieces_le h
    next htext =>
      rw [if_neg htext, if_neg htext]
      cases toFileSource m with
      | none => exact Nat.zero_le _
      | some source => exact Nat.le_refl _
  | result name answered response => exact Nat.le_refl _
  | lost item => exact Nat.zero_le _

theorem sent_eq_iff : s.sent env = s.carried env ↔ s.Kept := by
  cases s with
  | call c => exact iff_of_true rfl trivial
  | content m =>
    rw [sent, sentContent, carried, carriedContent, Kept, ContentKept]
    split
    · exact map_scannedPieces_eq_iff Piece.isOpen_carried
    · rw [carriedMedia]
      cases toFileSource m with
      | none => exact iff_of_false (List.cons_ne_nil _ _).symm Bool.false_ne_true
      | some source => exact iff_of_true rfl rfl
  | result name answered response => simp [sent, carried, Kept]
  | lost item => exact iff_of_false (List.cons_ne_nil _ _).symm id

theorem flatMap_sent_eq_iff {l : List Source} : l.flatMap (sent env) = l.flatMap (carried env) ↔ ∀ s ∈ l, s.Kept := by
  rw [flatMap_eq_iff_of_filter (fun _ _ => length_filter_sent_le) fun _ _ => length_sent_le]
  exact forall₂_congr fun _ _ => sent_eq_iff

end Source

end

/-! ## The sources of a conversation -/

section
variable (env : Env)

/-- The sources of a message. Only the calls of turns are known to results. -/
def messageSources (earlier : List ChatMessage) (message : ChatMessage) : List Source :=
  if IsTurn message then message.parseToolCalls.map .call ++ message.parseContent.map .content
  else message.parseToolCalls.map (fun call => .lost (carriedCall env call)) ++
    ((if IsResult message then
        [.result (toolName (callNames (earlier.filter fun m => IsTurn m)) message) (answeredName earlier message)
          (toolResponse env message.stringContent)]
      else []) ++
      (message.parseContent.filter fun m => m.type ≠ "text").map fun m => .lost (carriedMedia env m))

def sources : List ChatMessage → List ChatMessage → List Source
  | _, [] => []
  | earlier, message :: messages => messageSources env earlier message ++ sources (earlier ++ [message]) messages

end

section
variable {env : Env} {earlier messages : List ChatMessage} {message : ChatMessage}

theorem sources_append {l : List ChatMessage} :
    sources env earlier (l ++ messages) = sources env earlier l ++ sources env (earlier ++ l) messages := by
  induction l generalizing earlier with
  | nil => simp [sources]
  | cons m l ih => simp [sources, ih]

theorem flatMap_carried_messageSources :
    (messageSources env earlier message).flatMap (Source.carried env) = message.carried env earlier := by
  unfold messageSources ChatMessage.carried
  split
  · rw [List.flatMap_append, List.flatMap_map, List.flatMap_map]
    exact congrArg (· ++ _) (List.map_eq_flatMap).symm
  · rw [List.flatMap_append, List.flatMap_append, List.flatMap_map, List.flatMap_map, carriedResult]
    congr 1
    · exact (List.map_eq_flatMap).symm
    · congr 1
      · split
        · rfl
        · rfl
      · exact (List.map_eq_flatMap).symm

theorem flatMap_carried_sources :
    (sources env earlier messages).flatMap (Source.carried env) = carriedMessages env earlier messages := by
  induction messages generalizing earlier with
  | nil => rfl
  | cons m messages ih => rw [sources, List.flatMap_append, flatMap_carried_messageSources, ih, carriedMessages]

theorem toolName_eq_iff : toolName (callNames earlier) message = answeredName earlier message ↔
    ∀ name ∈ message.name, ∀ answered ∈ (callNames earlier).lookup message.toolCallId, name = answered := by
  unfold toolName answeredName
  cases message.name with
  | none => simp
  | some name =>
    cases (callNames earlier).lookup message.toolCallId with
    | none => simp
    | some answered => simp

theorem callNames_filter (h : ∀ m ∈ earlier, ¬ IsTurn m → m.parseToolCalls = []) :
    callNames (earlier.filter fun m => IsTurn m) = callNames earlier := by
  unfold callNames
  congr 1
  induction earlier with
  | nil => rfl
  | cons m earlier ih =>
    rw [List.forall_mem_cons] at h
    rw [List.flatMap_cons, ← ih h.2]
    by_cases hturn : IsTurn m
    · simp [hturn]
    · simp [hturn, h.1 hturn]

theorem forall_messageSources (h : ∀ m ∈ earlier, ¬ IsTurn m → m.parseToolCalls = []) :
    (∀ s ∈ messageSources env earlier message, s.Kept) ↔ MessageKept earlier message := by
  unfold messageSources MessageKept
  split
  next hturn =>
    rw [List.forall_mem_append, List.forall_mem_map, List.forall_mem_map]
    exact and_iff_right fun _ _ => trivial
  next hturn =>
    rw [List.forall_mem_append, List.forall_mem_append, List.forall_mem_map, List.forall_mem_map, callNames_filter h]
    refine and_congr List.eq_nil_iff_forall_not_mem.symm (and_comm.trans (and_congr ?_ ?_))
    · simp [Source.Kept]
    · split
      next hresult =>
        rw [List.forall_mem_singleton, Source.Kept, toolName_eq_iff]
        exact (imp_iff_right hresult).symm
      next hresult => exact iff_of_true (List.forall_mem_nil _) fun h => absurd h hresult

theorem forall_sources (h : ∀ m ∈ earlier, ¬ IsTurn m → m.parseToolCalls = []) :
    (∀ s ∈ sources env earlier messages, s.Kept) ↔ AtEach MessageKept earlier messages := by
  induction messages generalizing earlier with
  | nil => exact iff_of_true (List.forall_mem_nil _) trivial
  | cons m messages ih =>
    rw [sources, List.forall_mem_append, forall_messageSources h, AtEach]
    refine and_congr_right fun hm => ih fun m' hm' hturn => ?_
    rcases List.mem_append.1 hm' with hm' | hm'
    · exact h m' hm' hturn
    · obtain rfl := List.mem_singleton.1 hm'
      rw [MessageKept, if_neg hturn] at hm
      exact hm.1

end

/-! ## The conversion -/

/-- The parts that are sent carry these items, and no scan diverges. -/
def Sends (items : List Carried) : Except ConvertError (List Part) → Prop :=
  Ends (fun parts => carriedParts parts = items) (· ≠ .diverges)

section
variable {env : Env} {attach signed : Bool}

theorem carriedParts_append {p q : List Part} : carriedParts (p ++ q) = carriedParts p ++ carriedParts q :=
  List.flatMap_append

theorem carriedParts_cons {part : Part} {parts : List Part} :
    carriedParts (part :: parts) = part.carried ++ carriedParts parts := List.flatMap_cons

theorem carriedContents_append {c d : List Content} :
    carriedContents (c ++ d) = carriedContents c ++ carriedContents d := List.flatMap_append

theorem carried_textPart {s : String} (h : s ≠ "") : (textPart s).carried = [.text s] := by
  rw [Part.carried, textPart, if_neg h]
  rfl

theorem carriedParts_textParts {s : List Char} : carriedParts (textParts s) = (textPiece s).map (Piece.carried env) := by
  unfold textParts textPiece
  split
  next => rfl
  next h =>
    rw [carriedParts_cons, carried_textPart (mt String.ofList_eq_empty_iff.1 h)]
    rfl

theorem sends_imageParts {fuel : ℕ} {text : List Char} (h : text.length < fuel) :
    Sends ((cutPieces (search.cut text).1).map (Piece.carried env)) (imageParts env attach fuel text) := by
  induction fuel generalizing text with
  | zero => exact absurd h (Nat.not_lt_zero _)
  | succ fuel ih =>
    unfold imageParts
    split
    next hnone =>
      rw [search.cut_of_none hnone]
      rfl
    next before dataUrl rest hsome =>
      have hshort := search.short hsome
      rw [search.cut_of_some hsome]
      split
      · exact nofun
      next format base64String hdecode =>
        refine (ih (show rest.length < fuel by omega)).bind fun parts hparts => ?_
        have himage : Piece.carried env (.image dataUrl) = .media (some (format, base64String)) := by
          rw [Piece.carried, hdecode]
          rfl
        show carriedParts (textParts before ++ _) = _
        rw [carriedParts_append, carriedParts_cons, @carriedParts_textParts env, hparts]
        dsimp only
        rw [cutPieces_cons, List.map_append, List.map_cons, himage]
        rfl

theorem sends_convertText {text : String} :
    Sends ((scannedPieces text.toList).map (Piece.carried env)) (convertText env attach text) := by
  unfold convertText
  split
  next htext =>
    subst htext
    show carriedParts [] = _
    rw [scannedPieces, search.cut_of_none (show search.find "".toList = none from rfl)]
    rfl
  next htext =>
    have hne : text.toList ≠ [] := mt String.toList_eq_nil_iff.1 htext
    split
    next hnone =>
      show carriedParts [textPart text] = _
      rw [scannedPieces, search.cut_of_none hnone, if_pos rfl, textPiece, if_neg hne, carriedParts_cons,
        carried_textPart htext, List.map_singleton, Piece.carried, String.ofList_toList]
      rfl
    next x hsome =>
      rw [scannedPieces_of_hasImage (by rw [hasImage_iff, search.cut_of_some hsome]; exact List.cons_ne_nil _ _)]
      exact sends_imageParts (Nat.lt_succ_self _)

theorem sends_convertMedia {m : MediaContent} : Sends (Source.sentContent env m) (convertMedia env attach m) := by
  unfold convertMedia Source.sentContent
  split
  · exact sends_convertText
  · unfold convertFile
    cases toFileSource m with
    | none => rfl
    | some source =>
      dsimp only
      split
      · exact nofun
      next base64Data mimeType hdata =>
        split
        · show carriedParts [inlinePart mimeType base64Data] = _
          rw [Option.map_some, sourceData, hdata]
          rfl
        · exact nofun

theorem ends_callParts {calls : List ToolCallRequest} :
    Ends (fun r => carriedParts r.1 = calls.map (carriedCall env)) (· ≠ .diverges) (callParts env attach signed calls) := by
  induction calls generalizing signed with
  | nil => exact (rfl : carriedParts [] = [])
  | cons call calls ih =>
    unfold callParts
    split
    · exact nofun
    next arguments harguments =>
      refine ih.bind fun r hr => ?_
      show carriedParts (_ :: r.1) = _
      rw [carriedParts_cons, hr, List.map_cons, carriedCall, harguments]
      rfl

theorem carriedParts_signText {parts : List Part} : carriedParts (signText parts) = carriedParts parts := by
  induction parts with
  | nil => rfl
  | cons part parts ih =>
    unfold signText
    split
    · rfl
    · rw [carriedParts_cons, carriedParts_cons, ih]

theorem sends_convertParts {message : ChatMessage} :
    Sends (message.parseToolCalls.map (carriedCall env) ++ message.parseContent.flatMap (Source.sentContent env))
      (convertParts env message) := by
  unfold convertParts
  refine ends_callParts.bind fun r hr => ?_
  refine (Ends.mapM fun m _ => sends_convertMedia).bind fun contents hcontents => ?_
  have hflat : carriedParts contents.flatten = message.parseContent.flatMap (Source.sentContent env) := by
    rw [← flatMap_eq_of_forall₂ hcontents fun _ _ h => h]
    unfold carriedParts
    rw [List.flatten_eq_flatMap, List.flatMap_assoc]
    rfl
  show carriedParts (if _ then _ else _) = _
  split
  · rw [carriedParts_signText, carriedParts_append, hr, hflat]
  · rw [carriedParts_append, hr, hflat]

theorem carriedContents_addResponse {part : Part} {contents : List Content} :
    carriedContents (addResponse part contents) = carriedContents contents ++ part.carried := by
  unfold addResponse
  split
  next content hlast =>
    split
    · rw [carriedContents_append]
      simp [carriedContents, carriedParts]
    · obtain ⟨contents, rfl⟩ := List.getLast?_eq_some_iff.1 hlast
      rw [List.dropLast_concat, carriedContents_append, carriedContents_append, List.append_assoc]
      simp [carriedContents, carriedParts]
  next hlast =>
    obtain rfl := List.getLast?_eq_none_iff.1 hlast
    simp [carriedContents, carriedParts]

end

/-! ## Whole conversations -/

section
variable {env : Env} {earlier messages : List ChatMessage} {message : ChatMessage} {st : Converted}

theorem flatMap_sent_messageSources : (messageSources env earlier message).flatMap (Source.sent env) =
    if IsTurn message then
      message.parseToolCalls.map (carriedCall env) ++ message.parseContent.flatMap (Source.sentContent env)
    else if IsResult message then
      [.toolResult (toolName (callNames (earlier.filter fun m => IsTurn m)) message)
        (toolResponse env message.stringContent)]
    else [] := by
  have hlost : ∀ {α : Type} (f : α → Carried) (l : List α),
      (l.map fun a => Source.lost (f a)).flatMap (Source.sent env) = [] := by
    intro α f l
    simp [Source.sent, List.flatMap_map]
  unfold messageSources
  split
  · rw [List.flatMap_append, List.flatMap_map, List.flatMap_map]
    exact congrArg (· ++ _) List.map_eq_flatMap.symm
  · rw [List.flatMap_append, List.flatMap_append, hlost, hlost, List.append_nil, List.nil_append]
    split
    · rfl
    · rfl

/-- What the conversion has of the messages that are behind it. -/
structure Sent (env : Env) (earlier : List ChatMessage) (st : Converted) : Prop where
  calls : st.toolCallIds = callNames (earlier.filter fun m => IsTurn m)
  contents : carriedContents st.contents = (sources env [] earlier).flatMap (Source.sent env)
  system : st.systemContent = systemTexts earlier

theorem flatMap_sent_concat : (sources env [] (earlier ++ [message])).flatMap (Source.sent env) =
    (sources env [] earlier).flatMap (Source.sent env) ++
      (messageSources env earlier message).flatMap (Source.sent env) := by
  rw [sources_append, List.flatMap_append, List.nil_append, sources, sources, List.append_nil]

section
variable {P : ChatMessage → Prop} [DecidablePred P]

theorem filter_concat (h : P message) :
    (earlier ++ [message]).filter (fun m => P m) = earlier.filter (fun m => P m) ++ [message] := by
  rw [List.filter_append, List.filter_cons_of_pos (by simpa using h), List.filter_nil]

theorem filter_concat_of_not (h : ¬ P message) :
    (earlier ++ [message]).filter (fun m => P m) = earlier.filter fun m => P m := by
  rw [List.filter_append, List.filter_cons_of_neg (by simpa using h), List.filter_nil, List.append_nil]

end

theorem Sent.convertMessage (h : Sent env earlier st) :
    Ends (Sent env (earlier ++ [message])) (· ≠ .diverges) (convertMessage env st message) := by
  unfold OpenAIToGemini.convertMessage
  split
  next hsystem =>
    have hturn : ¬ IsTurn message := fun h => h.1 hsystem
    have hresult : ¬ IsResult message := by
      rintro (hrole | hrole) <;> rcases hsystem with h | h <;> exact absurd (h.symm.trans hrole) (by decide)
    refine ⟨?_, ?_, ?_⟩
    · rw [filter_concat_of_not hturn]
      exact h.calls
    · rw [flatMap_sent_concat, flatMap_sent_messageSources, if_neg hturn, if_neg hresult, List.append_nil]
      exact h.contents
    · rw [systemTexts, filter_concat hsystem, List.map_append]
      exact congrArg (· ++ _) h.system
  next hsystem =>
    split
    next hresult =>
      have hturn : ¬ IsTurn message := fun h => h.2 hresult
      refine ⟨?_, ?_, ?_⟩
      · rw [filter_concat_of_not hturn]
        exact h.calls
      · rw [flatMap_sent_concat, flatMap_sent_messageSources, if_neg hturn, if_pos hresult, ← h.contents, ← h.calls]
        exact carriedContents_addResponse
      · rw [systemTexts, filter_concat_of_not hsystem]
        exact h.system
    next hresult =>
      have hturn : IsTurn message := ⟨hsystem, hresult⟩
      refine sends_convertParts.bind fun parts hparts => ⟨?_, ?_, ?_⟩
      · rw [filter_concat hturn, callNames, List.flatMap_append, List.reverse_append, List.flatMap_singleton]
        exact congrArg (_ ++ ·) h.calls
      · rw [flatMap_sent_concat, flatMap_sent_messageSources, if_pos hturn, ← h.contents, ← hparts]
        dsimp only
        split
        next hnil => rw [hnil, carriedParts, List.flatMap_nil, List.append_nil]
        next => simp [carriedContents]
      · rw [systemTexts, filter_concat_of_not hsystem]
        exact h.system

/-- Every conversation goes through with what is left of its sources, or fails with an error of the source. -/
theorem ends_covertOpenAI2Gemini : Ends (fun out =>
      carriedContents out.contents = (sources env [] messages).flatMap (Source.sent env) ∧
        out.systemInstructions =
          if systemTexts messages = [] then none else some ("\n".intercalate (systemTexts messages)))
    (· ≠ .diverges) (covertOpenAI2Gemini env messages) := by
  have hnil : Sent env [] {} := ⟨rfl, rfl, rfl⟩
  refine (Ends.foldlM (fun _ _ _ h => h.convertMessage) hnil).bind fun converted h => ?_
  rw [List.nil_append] at h
  refine ⟨h.contents, ?_⟩
  dsimp only
  rw [h.system]

/-- No scan diverges, and a conversation that goes through is carried over just if all of its messages are kept. -/
theorem conversation_kept_iff : covertOpenAI2Gemini env messages ≠ .error .diverges ∧
    ∀ out, covertOpenAI2Gemini env messages = .ok out →
      (KeepsConversation env messages out ↔ AtEach MessageKept [] messages) := by
  refine ⟨fun h => ends_covertOpenAI2Gemini.of_error h rfl, fun out hout => ?_⟩
  obtain ⟨hcontents, hsystem⟩ := ends_covertOpenAI2Gemini.of_ok hout
  rw [← @forall_sources env [] messages (List.forall_mem_nil _), ← @Source.flatMap_sent_eq_iff env]
  constructor
  · intro h
    rw [← hcontents, h.conversation, flatMap_carried_sources]
  · intro h
    exact ⟨by rw [hcontents, h, flatMap_carried_sources], hsystem⟩

end

/-- Decoders of nothing. -/
def plainEnv : Env where
  decoder := { unmarshal := fun _ => none, unmarshal_empty := rfl }
  getBase64Data _ := .error "unsupported file source type"
  decodeBase64ImageData _ := .error "unsupported image format"

def userMessage (text : String) : ChatMessage := { role := "user", content := .string text }

theorem carried_userMessage {env : Env} {text : String} :
    carriedMessages env [] [userMessage text] = (textPieces text.toList).map (Piece.carried env) :=
  (List.append_nil _).trans (List.append_nil _)

theorem kept_userMessage {text : String} (h : HasImage text.toList → EndsWithImage text.toList) :
    AtEach MessageKept [] [userMessage text] := by
  have hcontent : ContentKept { type := "text", text } := h
  exact ⟨List.forall_mem_singleton.2 hcontent, trivial⟩

/-- A small image. -/
def pngImage (before : List Char) (h : ¬ "![".toList <:+: before) : Image where
  before
  description := ['b']
  data := "image/png;base64,AA==".toList
  before_plain := h
  description_plain := by decide
  data_plain := by decide

theorem conversation_kept_image :
    KeepsConversation plainEnv [userMessage "a ![b](data:image/png;base64,AA==)"]
      { contents := [{ role := "user", parts := [textPart "a ", inlinePart "image/png" "AA=="] }]
        systemInstructions := none } := by
  refine ((@conversation_kept_iff plainEnv [userMessage "a ![b](data:image/png;base64,AA==)"]).2 _ rfl).2 ?_
  exact kept_userMessage fun _ => ⟨[pngImage ['a', ' '] (by decide)], rfl⟩

/-- The text behind an image is lost. -/
theorem text_behind_image_lost : ∃ out,
    covertOpenAI2Gemini plainEnv [userMessage "![b](data:image/png;base64,AA==) c"] = .ok out ∧
      ¬ KeepsConversation plainEnv [userMessage "![b](data:image/png;base64,AA==) c"] out := by
  let out : GeminiRequest :=
    { contents := [{ role := "user", parts := [inlinePart "image/png" "AA=="] }], systemInstructions := none }
  refine ⟨out, rfl, fun h => ?_⟩
  have hrest : textPieces [' ', 'c'] = [.text [' ', 'c']] := textPieces_of_none rfl
  have hpieces : textPieces "![b](data:image/png;base64,AA==) c".toList =
      [.image "data:image/png;base64,AA==".toList, .text [' ', 'c']] := by
    rw [← hrest]
    exact textPieces_of_some (@firstImage_text [' ', 'c'] (pngImage [] (by decide)))
  have hlen := congrArg List.length h.conversation
  rw [carried_userMessage, hpieces] at hlen
  exact absurd (show 1 = 2 from hlen) (by decide)

end NewApi.OpenAIToGemini

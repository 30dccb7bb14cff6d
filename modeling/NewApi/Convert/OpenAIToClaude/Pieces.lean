import NewApi.Convert.OpenAIToClaude

/-!
# The pieces of Claude's messages

The second pass is read by the texts, tool calls and results that Claude's messages hold, in order
(`foldlM_convertMessage_inv`).
-/

namespace NewApi.OpenAIToClaude

open NewApi.Convert

/-! ## Pieces -/

/-- A piece of a conversation: a text, a tool call with its arguments, or a result. -/
inductive Piece (α : Type)
  | text (s : String)
  | toolCall (id name : String) (arguments : α)
  | toolResult (id : String) (content : Json)

/-- The piece that a block is, if it is one. -/
def blockPieces (b : ClaudeMediaMessage) : List (Piece Json) :=
  match b.type with
  | "text" => [.text b.getText]
  | "tool_use" => [.toolCall b.id b.name b.input]
  | "tool_result" => [.toolResult b.toolUseId b.content]
  | _ => []

def Content.pieces : Content → List (Piece Json)
  | .string s => [.text s]
  | .blocks l => l.flatMap blockPieces

/-- The pieces of Claude's messages. -/
def messagePieces (claudeMessages : List ClaudeMessage) : List (Piece Json) :=
  claudeMessages.flatMap (·.content.pieces)

/-- The text of a media content, if it has one that is not empty. -/
def contentText (ctx : MediaContent) : List String := if ctx.type = "text" ∧ ctx.text ≠ "" then [ctx.text] else []

/-- The texts of a message that are not empty. -/
def ChatMessage.texts (m : ChatMessage) : List String := m.parseContent.flatMap contentText

/-- The message is neither of the system nor a result. -/
def ChatMessage.Speaks (m : ChatMessage) : Prop := m.role ≠ "system" ∧ m.role ≠ "tool"

section
variable (env : Env)

/-- The pieces that a message of the first pass ends as. -/
def formattedPieces (m : ChatMessage) : List (Piece Json) :=
  if m.role = "system" then []
  else if m.role = "tool" then [.toolResult m.toolCallId m.content]
  else m.texts.map .text ++ m.parseToolCalls.map fun toolCall =>
    .toolCall toolCall.id toolCall.function.name (inputObj env toolCall.function.arguments)

/-- The texts of a system message. -/
def systemTexts (m : ChatMessage) : List String := if m.role = "system" then m.texts else []

end

section
variable {env : Env} {m : ChatMessage} {content : Content} {block : ClaudeMediaMessage} {contents : List MediaContent}

theorem pieces_push : (content.push block).pieces = content.pieces ++ blockPieces block := by
  cases content with
  | string s =>
    unfold Content.push Content.pieces
    dsimp only
    rw [List.flatMap_cons, List.flatMap_singleton]
    rfl
  | blocks l => exact List.flatMap_append.trans (congrArg _ (List.flatMap_singleton ..))

theorem blockPieces_fileBlock {base64Data mimeType : String} : blockPieces (fileBlock base64Data mimeType) = [] := by
  unfold fileBlock
  split <;> rfl

theorem pieces_mediaBlocks {ctx : MediaContent} {l : List ClaudeMediaMessage} (h : mediaBlocks env ctx = .ok l) :
    l.flatMap blockPieces = (contentText ctx).map .text := by
  unfold mediaBlocks at h
  unfold contentText
  split at h
  next htype =>
    obtain rfl := Except.ok.inj h
    rw [htype]
    by_cases htext : ctx.text = ""
    · rw [if_neg (not_not_intro htext), if_neg fun hand => hand.2 htext]
      rfl
    · rw [if_pos htext, if_pos ⟨rfl, htext⟩]
      rfl
  next htype =>
    rw [if_neg fun hand => htype hand.1]
    split at h
    · obtain rfl := Except.ok.inj h
      rfl
    · split at h
      · cases h
      · obtain rfl := Except.ok.inj h
        exact (List.flatMap_singleton ..).trans blockPieces_fileBlock

theorem texts_of_isStringContent (h : m.isStringContent = true) :
    m.texts = if m.stringContent = "" then [] else [m.stringContent] := by
  obtain ⟨role, content, toolCalls, toolCallId⟩ := m
  cases content with
  | string s =>
    refine (List.flatMap_singleton ..).trans ?_
    unfold contentText
    by_cases hs : s = ""
    · exact (if_neg fun hand => hand.2 hs).trans (if_pos hs).symm
    · exact (if_pos ⟨rfl, hs⟩).trans (if_neg hs).symm
  | _ => cases h

theorem pieces_systemBlocks : (systemBlocks m).flatMap blockPieces = m.texts.map .text := by
  unfold systemBlocks
  split
  next hstring =>
    rw [texts_of_isStringContent hstring]
    by_cases hs : m.stringContent = ""
    · rw [if_neg (not_not_intro hs), if_pos hs]
      rfl
    · rw [if_pos hs, if_neg hs]
      rfl
  next =>
    unfold ChatMessage.texts
    rw [List.flatMap_map, List.map_flatMap]
    induction m.parseContent with
    | nil => rfl
    | cons ctx contents ih =>
      rw [List.flatMap_cons, ← ih, List.filter_cons]
      unfold contentText
      by_cases htext : ctx.type = "text" ∧ ctx.text ≠ ""
      · rw [if_pos htext, if_pos (decide_eq_true htext), List.flatMap_cons]
        rfl
      · rw [if_neg htext, if_neg fun h => htext (of_decide_eq_true h)]
        rfl

theorem pieces_convertContent (h : convertContent env m = .ok content) (hne : m.content ≠ .string "") :
    content.pieces = m.texts.map .text ++ m.parseToolCalls.map fun toolCall =>
      .toolCall toolCall.id toolCall.function.name (inputObj env toolCall.function.arguments) := by
  unfold convertContent at h
  split at h
  next hstring =>
    have hcalls : m.parseToolCalls = [] := by
      unfold ChatMessage.parseToolCalls
      rw [Option.isNone_iff_eq_none.1 hstring.2]
      rfl
    have hs : m.stringContent ≠ "" := by
      obtain ⟨role, content, toolCalls, toolCallId⟩ := m
      cases content with
      | string s => exact fun hs => hne (congrArg _ hs)
      | _ => cases hstring.1
    obtain rfl := Except.ok.inj h
    rw [texts_of_isStringContent hstring.1, if_neg hs, if_neg hs, hcalls]
    rfl
  next =>
    cases hmedia : m.parseContent.mapM (mediaBlocks env) with
    | error e =>
      rw [hmedia] at h
      cases h
    | ok media =>
      rw [hmedia] at h
      obtain rfl := Except.ok.inj h
      have htexts : media.flatMap (·.flatMap blockPieces) = m.parseContent.flatMap fun ctx => (contentText ctx).map .text :=
        flatMap_eq_of_forall₂ (mapM_eq_ok_iff.1 hmedia) fun _ _ hctx => pieces_mediaBlocks hctx
      have hcalls : (m.parseToolCalls.map (toolUseBlock env)).flatMap blockPieces = m.parseToolCalls.map fun toolCall =>
          .toolCall toolCall.id toolCall.function.name (inputObj env toolCall.function.arguments) := by
        rw [List.flatMap_map, List.map_eq_flatMap]
        rfl
      unfold Content.pieces ChatMessage.texts
      dsimp only
      rw [List.flatMap_append, List.flatten_eq_flatMap, List.flatMap_assoc, hcalls, List.map_flatMap]
      exact congrArg (· ++ _) htexts

/-! ## The second pass -/

/-- What Claude's messages are after the messages `pre`: their pieces, behind a text that may be put first, and the roles
of those that speak. -/
structure Holds (env : Env) (pre : List ChatMessage) (claudeMessages : List ClaudeMessage) : Prop where
  pieces : ∃ lead : List (Piece Json), (lead = [] ∨ lead = [.text "..."]) ∧
    messagePieces claudeMessages = lead ++ pre.flatMap (formattedPieces env)
  role_of_mem : ∀ c ∈ claudeMessages, c.role = "user" ∨ ∃ m ∈ pre, m.Speaks ∧ m.role = c.role
  mem_of_role : ∀ m ∈ pre, m.Speaks → ∃ c ∈ claudeMessages, c.role = m.role
  head : ∀ c ∈ claudeMessages.head?, c.role = "user"

variable {pre : List ChatMessage} {claudeMessages : List ClaudeMessage} {st st' : Converted}

theorem messagePieces_concat {c : ClaudeMessage} :
    messagePieces (claudeMessages ++ [c]) = messagePieces claudeMessages ++ c.content.pieces := by
  unfold messagePieces
  rw [List.flatMap_append, List.flatMap_singleton]

theorem formattedPieces_system (h : m.role = "system") : formattedPieces env m = [] := if_pos h

theorem formattedPieces_tool (h : m.role = "tool") :
    formattedPieces env m = [.toolResult m.toolCallId m.content] := by
  unfold formattedPieces
  rw [if_neg (by rw [h]; decide), if_pos h]

theorem formattedPieces_speaks (h : m.Speaks) : formattedPieces env m = m.texts.map .text ++
    m.parseToolCalls.map fun toolCall =>
      .toolCall toolCall.id toolCall.function.name (inputObj env toolCall.function.arguments) := by
  unfold formattedPieces
  rw [if_neg h.1, if_neg h.2]

namespace Holds

theorem lead (h : Holds env pre st.claudeMessages) (hfirst : st.isFirstMessage = true → st.claudeMessages = []) :
    Holds env pre (leadMessage m st).claudeMessages := by
  unfold leadMessage
  split
  next hisFirst =>
    dsimp only
    split
    · have hnil := hfirst hisFirst
      obtain ⟨lead, hlead, hpieces⟩ := h.pieces
      rw [hnil] at hpieces
      have hpre : pre.flatMap (formattedPieces env) = [] := (List.append_eq_nil_iff.1 hpieces.symm).2
      rw [hnil, List.nil_append]
      refine ⟨⟨[.text "..."], .inr rfl, ?_⟩, fun c hc => .inl ?_, fun t ht hspeaks => ?_, fun c hc => ?_⟩
      · rw [hpre]
        rfl
      · rw [List.mem_singleton.1 hc]
      · obtain ⟨c, hc, -⟩ := h.mem_of_role t ht hspeaks
        rw [hnil] at hc
        cases hc
      · obtain rfl := Option.some.inj hc
        rfl
    · exact h
  · exact h

theorem system (h : Holds env pre claudeMessages) (hm : m.role = "system") : Holds env (pre ++ [m]) claudeMessages := by
  obtain ⟨lead, hlead, hpieces⟩ := h.pieces
  refine ⟨⟨lead, hlead, ?_⟩, fun c hc => ?_, fun t ht hspeaks => ?_, h.head⟩
  · rw [List.flatMap_append, List.flatMap_singleton, formattedPieces_system hm, List.append_nil]
    exact hpieces
  · exact (h.role_of_mem c hc).imp_right fun ⟨t, ht, hspeaks⟩ => ⟨t, List.mem_append_left _ ht, hspeaks⟩
  · rcases List.mem_append.1 ht with ht | ht
    · exact h.mem_of_role t ht hspeaks
    · rw [List.mem_singleton.1 ht] at hspeaks
      exact absurd hm hspeaks.1

theorem concat (h : Holds env pre claudeMessages) {c : ClaudeMessage} (hpieces : c.content.pieces = formattedPieces env m)
    (hrole : c.role = "user" ∨ m.Speaks ∧ m.role = c.role) (hspeaks : m.Speaks → c.role = m.role)
    (hhead : claudeMessages = [] → c.role = "user") : Holds env (pre ++ [m]) (claudeMessages ++ [c]) := by
  obtain ⟨lead, hlead, hall⟩ := h.pieces
  refine ⟨⟨lead, hlead, ?_⟩, fun x hx => ?_, fun t ht htspeaks => ?_, fun x hx => ?_⟩
  · rw [messagePieces_concat, hall, hpieces, List.flatMap_append, List.flatMap_singleton, List.append_assoc]
  · rcases List.mem_append.1 hx with hx | hx
    · exact (h.role_of_mem x hx).imp_right fun ⟨t, ht, hspeaks⟩ => ⟨t, List.mem_append_left _ ht, hspeaks⟩
    · rw [List.mem_singleton.1 hx]
      exact hrole.imp_right fun hm => ⟨m, List.mem_append_right _ (List.mem_singleton.2 rfl), hm⟩
  · rcases List.mem_append.1 ht with ht | ht
    · obtain ⟨x, hx, hxrole⟩ := h.mem_of_role t ht htspeaks
      exact ⟨x, List.mem_append_left _ hx, hxrole⟩
    · obtain rfl := List.mem_singleton.1 ht
      exact ⟨c, List.mem_append_right _ (List.mem_singleton.2 rfl), hspeaks htspeaks⟩
  · cases claudeMessages with
    | nil =>
      obtain rfl := Option.some.inj hx
      exact hhead rfl
    | cons y ys => exact h.head x hx

theorem pushLast {last : ClaudeMessage} (h : Holds env pre (claudeMessages ++ [last])) (hlast : last.role = "user")
    (hblock : blockPieces block = formattedPieces env m) (hspeaks : ¬ m.Speaks) :
    Holds env (pre ++ [m]) (claudeMessages ++ [{ last with content := last.content.push block }]) := by
  obtain ⟨lead, hlead, hall⟩ := h.pieces
  refine ⟨⟨lead, hlead, ?_⟩, fun c hc => ?_, fun t ht htspeaks => ?_, fun c hc => ?_⟩
  · rw [messagePieces_concat] at hall ⊢
    rw [pieces_push, ← List.append_assoc, hall, hblock, List.flatMap_append, List.flatMap_singleton, List.append_assoc]
  · rcases List.mem_append.1 hc with hc | hc
    · exact (h.role_of_mem c (List.mem_append_left _ hc)).imp_right
        fun ⟨t, ht, htspeaks⟩ => ⟨t, List.mem_append_left _ ht, htspeaks⟩
    · rw [List.mem_singleton.1 hc]
      exact .inl hlast
  · rcases List.mem_append.1 ht with ht | ht
    · obtain ⟨c, hc, hrole⟩ := h.mem_of_role t ht htspeaks
      rcases List.mem_append.1 hc with hc | hc
      · exact ⟨c, List.mem_append_left _ hc, hrole⟩
      · rw [List.mem_singleton.1 hc] at hrole
        exact ⟨_, List.mem_append_right _ (List.mem_singleton.2 rfl), hrole⟩
    · rw [List.mem_singleton.1 ht] at htspeaks
      exact absurd htspeaks hspeaks
  · cases claudeMessages with
    | nil =>
      obtain rfl := Option.some.inj hc
      exact hlast
    | cons x xs => exact h.head c hc

theorem addToolResult (h : Holds env pre claudeMessages) (hm : m.role = "tool") :
    Holds env (pre ++ [m]) (addToolResult m claudeMessages) := by
  have hpieces : blockPieces (toolResultBlock m) = formattedPieces env m := (formattedPieces_tool hm).symm
  have hspeaks : ¬ m.Speaks := fun h => h.2 hm
  have hown : ∀ c : ClaudeMessage, c = { role := "user", content := .blocks [toolResultBlock m] } →
      Holds env (pre ++ [m]) (claudeMessages ++ [c]) := by
    rintro c rfl
    exact h.concat ((List.flatMap_singleton ..).trans hpieces) (.inl rfl) (fun hs => absurd hs hspeaks) fun _ => rfl
  unfold OpenAIToClaude.addToolResult
  rcases List.eq_nil_or_concat' claudeMessages with rfl | ⟨init, last, rfl⟩
  · exact hown _ rfl
  · rw [List.getLast?_concat]
    dsimp only
    split
    next huser =>
      rw [List.dropLast_concat]
      exact h.pushLast huser hpieces hspeaks
    · exact hown _ rfl

end Holds

/-- What the second pass keeps after the messages `pre`. -/
structure Converted.Inv (env : Env) (pre : List ChatMessage) (st : Converted) : Prop where
  holds : Holds env pre st.claudeMessages
  isFirst_iff : st.isFirstMessage = true ↔ st.claudeMessages = []
  system : st.systemMessages.flatMap blockPieces = (pre.flatMap systemTexts).map .text

theorem inv_start : Converted.Inv env [] {} :=
  ⟨⟨⟨[], .inl rfl, rfl⟩, fun _ hc => absurd hc List.not_mem_nil, fun _ ht => absurd ht List.not_mem_nil, nofun⟩,
    iff_of_true rfl rfl, rfl⟩

theorem isFirstMessage_leadMessage : (leadMessage m st).isFirstMessage = false := by
  unfold leadMessage
  split
  · rfl
  next h => exact Bool.eq_false_iff.2 h

theorem systemMessages_leadMessage : (leadMessage m st).systemMessages = st.systemMessages := by
  unfold leadMessage
  split <;> rfl

theorem role_of_leadMessage_eq_nil (hfirst : st.isFirstMessage = true ↔ st.claudeMessages = [])
    (h : (leadMessage m st).claudeMessages = []) : m.role = "user" := by
  unfold leadMessage at h
  split at h
  · by_contra hrole
    dsimp only at h
    rw [if_pos hrole] at h
    exact List.append_ne_nil_of_right_ne_nil _ (List.cons_ne_nil _ _) h
  next hnot => exact absurd (hfirst.2 h) hnot

theorem addToolResult_ne_nil : addToolResult m claudeMessages ≠ [] := by
  unfold addToolResult
  split
  · split <;> exact List.append_ne_nil_of_right_ne_nil _ (List.cons_ne_nil _ _)
  · exact List.cons_ne_nil _ _

theorem systemTexts_of_ne (h : m.role ≠ "system") : systemTexts m = [] := if_neg h

theorem convertMessage_inv (h : st.Inv env pre) (hne : m.content ≠ .string "") (hconvert : convertMessage env st m = .ok st') :
    st'.Inv env (pre ++ [m]) := by
  unfold convertMessage at hconvert
  split at hconvert
  next hsystem =>
    obtain rfl := Except.ok.inj hconvert
    refine ⟨h.holds.system hsystem, h.isFirst_iff, ?_⟩
    rw [List.flatMap_append, List.flatMap_append, List.map_append, h.system, List.flatMap_singleton, pieces_systemBlocks]
    unfold systemTexts
    rw [if_pos hsystem]
  next hsystem =>
    have hsystems : (leadMessage m st).systemMessages.flatMap blockPieces = ((pre ++ [m]).flatMap systemTexts).map .text := by
      rw [systemMessages_leadMessage, List.flatMap_append, List.flatMap_singleton, systemTexts_of_ne hsystem,
        List.append_nil]
      exact h.system
    have hlead := h.holds.lead (m := m) h.isFirst_iff.1
    have hfirst : (leadMessage m st).isFirstMessage = false := isFirstMessage_leadMessage
    dsimp only at hconvert
    split at hconvert
    next htool =>
      obtain rfl := Except.ok.inj hconvert
      exact ⟨hlead.addToolResult htool, iff_of_false (by dsimp only; rw [hfirst]; exact Bool.noConfusion) addToolResult_ne_nil,
        hsystems⟩
    next htool =>
      cases hcontent : convertContent env m with
      | error e =>
        rw [hcontent] at hconvert
        cases hconvert
      | ok content =>
        rw [hcontent] at hconvert
        obtain rfl := Except.ok.inj hconvert
        refine ⟨hlead.concat ((pieces_convertContent hcontent hne).trans (formattedPieces_speaks ⟨hsystem, htool⟩).symm)
          (.inr ⟨⟨hsystem, htool⟩, rfl⟩) (fun _ => rfl) (role_of_leadMessage_eq_nil h.isFirst_iff), ?_, hsystems⟩
        exact iff_of_false (by dsimp only; rw [hfirst]; exact Bool.noConfusion)
          (List.append_ne_nil_of_right_ne_nil _ (List.cons_ne_nil _ _))

theorem foldlM_convertMessage_inv {messages : List ChatMessage} (h : st.Inv env pre)
    (hne : ∀ m ∈ messages, m.content ≠ .string "") (hconvert : messages.foldlM (convertMessage env) st = .ok st') :
    st'.Inv env (pre ++ messages) := by
  induction messages generalizing st pre with
  | nil =>
    obtain rfl := Except.ok.inj hconvert
    rwa [List.append_nil]
  | cons m messages ih =>
    rw [List.foldlM_cons] at hconvert
    cases hm : convertMessage env st m with
    | error e =>
      rw [hm] at hconvert
      cases hconvert
    | ok st₁ =>
      rw [hm] at hconvert
      rw [List.append_cons]
      exact ih (convertMessage_inv h (hne m List.mem_cons_self) hm) (fun t ht => hne t (List.mem_cons_of_mem _ ht)) hconvert

end

end NewApi.OpenAIToClaude

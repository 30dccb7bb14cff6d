import NewApi.Convert.OpenAIToClaude.Keeps

/-!
# When OpenAI's requests are kept for Claude

The conversion ends in a request, an error or a panic. A tool whose schema has a type that is no text panics, and so does
a stop sequence that is none; reasoning that does not decode and a file that cannot be had are errors. Otherwise there is
a request, and it has the conversation just if its runs are kept (`request_keeps_iff`).
-/

namespace NewApi.OpenAIToClaude

open NewApi.Convert

/-! ## Failures -/

section
variable {α β : Type} {x : Except Failure α}

theorem bind_ne_panic {f : α → Except Failure β} (hx : x ≠ .error .panic) (hf : ∀ a, f a ≠ .error .panic) :
    (x >>= f) ≠ .error .panic := by
  cases x with
  | error e =>
    intro h
    exact hx (congrArg Except.error (Except.error.inj h))
  | ok a => exact hf a

theorem mapM_ne_panic {f : α → Except Failure β} {l : List α} (h : ∀ a ∈ l, f a ≠ .error .panic) :
    l.mapM f ≠ .error .panic := by
  induction l with
  | nil => exact fun h => (by cases h)
  | cons a l ih =>
    rw [List.mapM_cons]
    refine bind_ne_panic (h a List.mem_cons_self) fun b => ?_
    exact bind_ne_panic (ih fun c hc => h c (List.mem_cons_of_mem _ hc)) fun r => fun h => (by cases h)

theorem foldlM_ne_panic {f : β → α → Except Failure β} {l : List α} (h : ∀ b a, f b a ≠ .error .panic) (b : β) :
    l.foldlM f b ≠ .error .panic := by
  induction l generalizing b with
  | nil => exact fun h => (by cases h)
  | cons a l ih =>
    rw [List.foldlM_cons]
    exact bind_ne_panic (h b a) ih

end

/-- A file of the message cannot be had. -/
def FileFails (env : Env) (m : ChatMessage) : Prop :=
  m.Speaks ∧ ∃ ctx ∈ m.parseContent, ∃ source ∈ toFileSource ctx, ∃ err, env.getBase64Data source = .error err

section
variable {env : Env} {m : ChatMessage} {r : Run} {messages : List ChatMessage} {st : Converted}

theorem mediaBlocks_ne_panic {ctx : MediaContent} : mediaBlocks env ctx ≠ .error .panic := by
  unfold mediaBlocks
  split
  · exact fun h => (by cases h)
  · split
    · exact fun h => (by cases h)
    · split <;> exact fun h => (by cases h)

theorem exists_mediaBlocks_iff {ctx : MediaContent} : (∃ l, mediaBlocks env ctx = .ok l) ↔
    ∀ source ∈ toFileSource ctx, ¬ ∃ err, env.getBase64Data source = .error err := by
  unfold mediaBlocks
  split
  next htype =>
    refine iff_of_true ⟨_, rfl⟩ fun source hsource => ?_
    unfold toFileSource at hsource
    rw [htype] at hsource
    cases hsource
  next htype =>
    split
    next hnone =>
      rw [hnone]
      exact iff_of_true ⟨_, rfl⟩ nofun
    next source hsource =>
      rw [hsource]
      split
      next err herr =>
        exact iff_of_false (fun ⟨_, h⟩ => (by cases h)) fun h => h source rfl ⟨err, herr⟩
      next hok =>
        refine iff_of_true ⟨_, rfl⟩ fun source' hsource' ⟨err, herr⟩ => ?_
        obtain rfl := Option.some.inj hsource'
        rw [hok] at herr
        cases herr

theorem convertContent_ne_panic : convertContent env m ≠ .error .panic := by
  unfold convertContent
  split
  · exact fun h => (by cases h)
  · exact bind_ne_panic (mapM_ne_panic fun ctx _ => mediaBlocks_ne_panic) fun media => fun h => (by cases h)

theorem convertMessage_ne_panic (st : Converted) (m : ChatMessage) : convertMessage env st m ≠ .error .panic := by
  unfold convertMessage
  split
  · exact fun h => (by cases h)
  · dsimp only
    split
    · exact fun h => (by cases h)
    · exact bind_ne_panic convertContent_ne_panic fun content => fun h => (by cases h)

theorem toFileSource_of_isText (h : m.isText = true) : ∀ ctx ∈ m.parseContent, toFileSource ctx = none := by
  obtain ⟨role, content, toolCalls, toolCallId⟩ := m
  cases content with
  | null => exact fun ctx hctx => absurd hctx List.not_mem_nil
  | string s =>
    intro ctx hctx
    rw [List.mem_singleton.1 hctx]
    rfl
  | _ => cases h

theorem not_fileFails_of_isText (h : m.isText = true) : ¬ FileFails env m := by
  rintro ⟨-, ctx, hctx, source, hsource, -⟩
  rw [toFileSource_of_isText h ctx hctx] at hsource
  cases hsource

theorem exists_convertMessage_iff (st : Converted) : (∃ st', convertMessage env st m = .ok st') ↔ ¬ FileFails env m := by
  unfold convertMessage
  split
  next hsystem => exact iff_of_true ⟨_, rfl⟩ fun hfails => hfails.1.1 hsystem
  next hsystem =>
  dsimp only
  split
  next htool => exact iff_of_true ⟨_, rfl⟩ fun hfails => hfails.1.2 htool
  next htool =>
    have hcontent : (∃ content, convertContent env m = .ok content) ↔ ¬ FileFails env m := by
      unfold convertContent
      split
      next hstring => exact iff_of_true ⟨_, rfl⟩ (not_fileFails_of_isText (isText_of_isStringContent hstring.1))
      next =>
        have hmedia : (∃ media, m.parseContent.mapM (mediaBlocks env) = .ok media) ↔ ¬ FileFails env m := by
          rw [exists_mapM_eq_ok_iff]
          refine (forall₂_congr fun ctx _ => exists_mediaBlocks_iff).trans ⟨fun hall hfails => ?_, fun hnot ctx hctx source hsource herr => ?_⟩
          · obtain ⟨-, ctx, hctx, source, hsource, herr⟩ := hfails
            exact hall ctx hctx source hsource herr
          · exact hnot ⟨⟨hsystem, htool⟩, ctx, hctx, source, hsource, herr⟩
        rw [← hmedia]
        cases m.parseContent.mapM (mediaBlocks env) with
        | error e => exact iff_of_false (fun ⟨_, h⟩ => (by cases h)) fun ⟨_, h⟩ => (by cases h)
        | ok media => exact iff_of_true ⟨_, rfl⟩ ⟨_, rfl⟩
    rw [← hcontent]
    cases convertContent env m with
    | error e => exact iff_of_false (fun ⟨_, h⟩ => (by cases h)) fun ⟨_, h⟩ => (by cases h)
    | ok content => exact iff_of_true ⟨_, rfl⟩ ⟨_, rfl⟩

theorem exists_foldlM_convertMessage_iff (messages : List ChatMessage) (st : Converted) :
    (∃ st', messages.foldlM (convertMessage env) st = .ok st') ↔ ∀ m ∈ messages, ¬ FileFails env m := by
  induction messages generalizing st with
  | nil => exact iff_of_true ⟨st, rfl⟩ (List.forall_mem_nil _)
  | cons m messages ih =>
    rw [List.foldlM_cons, List.forall_mem_cons, ← exists_convertMessage_iff st]
    cases convertMessage env st m with
    | error e => exact iff_of_false (fun ⟨_, h⟩ => (by cases h)) fun ⟨⟨_, h⟩, _⟩ => (by cases h)
    | ok st₁ => exact (ih st₁).trans (and_iff_right ⟨st₁, rfl⟩).symm

theorem fileFails_formatRun_iff : FileFails env (formatRun r) ↔ ∃ m ∈ r.toList, FileFails env m := by
  cases htext : r.head.isText with
  | true =>
    refine iff_of_false (not_fileFails_of_isText (isText_of_isStringContent (isStringContent_formatRun.trans htext))) ?_
    rintro ⟨m, hm, hfails⟩
    rcases List.mem_cons.1 hm with rfl | hm
    · exact not_fileFails_of_isText htext hfails
    · exact not_fileFails_of_isText (isText_of_isStringContent (r.joined m hm).2) hfails
  | false =>
    have hcontent := parseContent_eq (content_formatRun_of_not_isText htext)
    unfold Run.toList FileFails ChatMessage.Speaks
    rw [Run.tail_of_not_isText htext, role_formatRun, hcontent]
    exact ⟨fun h => ⟨r.head, List.mem_singleton.2 rfl, h⟩, fun ⟨m, hm, h⟩ => (by rwa [List.mem_singleton.1 hm] at h)⟩

end

/-! ## Tools and stop sequences -/

/-- There is a value if `P` holds, and a panic otherwise. -/
def PanicsUnless {α : Type} (P : Prop) (x : Except Failure α) : Prop :=
  (P ∧ ∃ a, x = .ok a) ∨ (¬ P ∧ x = .error .panic)

/-- The type of a schema is a text, null or missing. -/
def TypedSchema (params : List (String × Json)) : Prop :=
  ∀ v ∈ (Json.object params).field? "type", v = .null ∨ ∃ s, v = .string s

/-- A tool with an object for its parameters has a typed schema. -/
def TypedTool (tool : FunctionRequest) : Prop := ∀ params, tool.parameters = .object params → TypedSchema params

/-- Stop sequences that are a list are texts. -/
def TextStop (stop : Json) : Prop := ∀ items, stop = .array items → ∀ v ∈ items, ∃ s, v = .string s

theorem PanicsUnless.mapM {α β : Type} {f : α → Except Failure β} {P : α → Prop} {l : List α}
    (h : ∀ a ∈ l, PanicsUnless (P a) (f a)) : PanicsUnless (∀ a ∈ l, P a) (l.mapM f) := by
  induction l with
  | nil => exact .inl ⟨List.forall_mem_nil _, [], rfl⟩
  | cons a l ih =>
    rw [List.mapM_cons]
    rcases h a List.mem_cons_self with ⟨ha, b, hb⟩ | ⟨ha, hb⟩
    · rw [hb]
      rcases ih fun c hc => h c (List.mem_cons_of_mem _ hc) with ⟨hl, r, hr⟩ | ⟨hl, hr⟩
      · exact .inl ⟨List.forall_mem_cons.2 ⟨ha, hl⟩, b :: r, by rw [hr]; rfl⟩
      · exact .inr ⟨fun hall => hl (List.forall_mem_cons.1 hall).2, by rw [hr]; rfl⟩
    · exact .inr ⟨fun hall => ha (List.forall_mem_cons.1 hall).1, by rw [hb]; rfl⟩

theorem panicsUnless_inputSchema (params : List (String × Json)) : PanicsUnless (TypedSchema params) (inputSchema params) := by
  unfold inputSchema TypedSchema
  dsimp only
  cases (Json.object params).field? "type" with
  | none => exact .inl ⟨nofun, _, rfl⟩
  | some v =>
    cases v with
    | null => exact .inl ⟨fun v hv => .inl (Option.some.inj hv).symm, _, rfl⟩
    | string s => exact .inl ⟨fun v hv => .inr ⟨s, (Option.some.inj hv).symm⟩, _, rfl⟩
    | _ =>
      refine .inr ⟨fun h => ?_, rfl⟩
      rcases h _ rfl with h | ⟨s, h⟩ <;> cases h

theorem panicsUnless_convertTool (tool : FunctionRequest) : PanicsUnless (TypedTool tool) (convertTool tool) := by
  unfold convertTool TypedTool
  cases tool.parameters with
  | object params =>
    have hinj : (∀ params', Json.object params = .object params' → TypedSchema params') ↔ TypedSchema params :=
      ⟨fun h => h params rfl, fun h params' heq => Json.object.inj heq ▸ h⟩
    dsimp only
    rw [hinj]
    rcases panicsUnless_inputSchema params with ⟨htype, schema, hschema⟩ | ⟨htype, hschema⟩
    · exact .inl ⟨htype, _, by rw [hschema]; rfl⟩
    · exact .inr ⟨htype, by rw [hschema]; rfl⟩
  | _ => exact .inl ⟨nofun, _, rfl⟩

theorem panicsUnless_stopSequences (stop : Json) : PanicsUnless (TextStop stop) (stopSequences stop) := by
  unfold stopSequences TextStop
  cases stop with
  | array items =>
    have hinj : (∀ items', Json.array items = .array items' → ∀ v ∈ items', ∃ s, v = .string s) ↔
        ∀ v ∈ items, ∃ s, v = .string s :=
      ⟨fun h => h items rfl, fun h items' heq => Json.array.inj heq ▸ h⟩
    rw [hinj]
    refine PanicsUnless.mapM fun v _ => ?_
    cases v with
    | string s => exact .inl ⟨⟨s, rfl⟩, s, rfl⟩
    | _ => exact .inr ⟨nofun, rfl⟩
  | _ => exact .inl ⟨nofun, _, rfl⟩

/-! ## Main results -/

/-- The request, if there is one, has the conversation, and there is no panic. -/
def ConversionKeeps (env : Env) (textRequest : ChatRequest) : Prop :=
  match requestOpenAI2ClaudeMessage env textRequest with
  | .ok claudeRequest => KeepsConversation env.decoder textRequest.messages claudeRequest
  | .error failure => failure ≠ .panic

section
variable {env : Env} {messages : List ChatMessage}

theorem exists_fileFails_iff :
    (∃ m ∈ formatMessages messages, FileFails env m) ↔ ∃ m ∈ messages, FileFails env m := by
  have hruns : (∃ m ∈ messages, FileFails env m) ↔ ∃ r ∈ runs messages, ∃ m ∈ r.toList, FileFails env m := by
    have hflatten : (runs messages).flatMap Run.toList = messages := flatten_runs
    conv_lhs => rw [← hflatten]
    constructor
    · rintro ⟨m, hm, hfails⟩
      obtain ⟨r, hr, hmr⟩ := List.mem_flatMap.1 hm
      exact ⟨r, hr, m, hmr, hfails⟩
    · rintro ⟨r, hr, m, hmr, hfails⟩
      exact ⟨m, List.mem_flatMap.2 ⟨r, hr, hmr⟩, hfails⟩
  simp only [hruns, formatMessages_eq, List.mem_map, exists_exists_and_eq_and, fileFails_formatRun_iff]

theorem foldlM_convertMessage_cases (env : Env) (messages : List ChatMessage) :
    ((¬ ∃ m ∈ messages, FileFails env m) ∧
      ∃ st, (formatMessages messages).foldlM (convertMessage env) {} = .ok st ∧ st.Inv env (formatMessages messages)) ∨
    ((∃ m ∈ messages, FileFails env m) ∧
      ∃ err, (formatMessages messages).foldlM (convertMessage env) {} = .error (.error err)) := by
  have hok : (∃ st, (formatMessages messages).foldlM (convertMessage env) {} = .ok st) ↔
      ∀ m ∈ formatMessages messages, ¬ FileFails env m := exists_foldlM_convertMessage_iff _ _
  rw [← exists_fileFails_iff]
  cases hfold : (formatMessages messages).foldlM (convertMessage env) {} with
  | ok st =>
    refine .inl ⟨fun ⟨m, hm, hfails⟩ => hok.1 ⟨st, hfold⟩ m hm hfails, st, rfl, ?_⟩
    have hne : ∀ m ∈ formatMessages messages, m.content ≠ .string "" := by
      intro m hm
      rw [formatMessages_eq] at hm
      obtain ⟨r, -, rfl⟩ := List.mem_map.1 hm
      exact content_formatRun_ne
    exact foldlM_convertMessage_inv inv_start hne hfold
  | error failure =>
    have hfails : ∃ m ∈ formatMessages messages, FileFails env m := by
      by_contra hnot
      obtain ⟨st, hst⟩ := hok.2 fun m hm hfails => hnot ⟨m, hm, hfails⟩
      rw [hfold] at hst
      cases hst
    cases failure with
    | panic => exact absurd hfold (foldlM_ne_panic convertMessage_ne_panic {})
    | error err => exact .inr ⟨hfails, err, rfl⟩

end

/-- The conversion keeps the conversation just if the tools have types that are texts, and either the reasoning does not
decode, or the stop sequences are texts, and either a file cannot be had, or each run of messages is kept. -/
theorem request_keeps_iff (env : Env) (textRequest : ChatRequest) : ConversionKeeps env textRequest ↔
    (∀ tool ∈ textRequest.tools, TypedTool tool) ∧
      ((∃ err, textRequest.reasoning = some (.error err)) ∨
        TextStop textRequest.stop ∧
          ((∃ m ∈ textRequest.messages, FileFails env m) ∨ ∀ r ∈ runs textRequest.messages, r.Ok env.decoder)) := by
  unfold ConversionKeeps requestOpenAI2ClaudeMessage
  rcases PanicsUnless.mapM fun tool (_ : tool ∈ textRequest.tools) => panicsUnless_convertTool tool
    with ⟨htools, claudeTools, hclaudeTools⟩ | ⟨htools, hclaudeTools⟩
  · rw [hclaudeTools, and_iff_right htools]
    obtain ⟨messages, tools, stop, reasoning⟩ := textRequest
    have hrest : (match (do
          let stopSequences ← stopSequences stop
          let converted ← (formatMessages messages).foldlM (convertMessage env) {}
          .ok
            { tools := markTools claudeTools.flatten
              stopSequences
              system := markSystem converted.systemMessages
              messages := converted.claudeMessages } : Except Failure ClaudeRequest) with
        | .ok claudeRequest => KeepsConversation env.decoder messages claudeRequest
        | .error failure => failure ≠ .panic) ↔
        TextStop stop ∧ ((∃ m ∈ messages, FileFails env m) ∨ ∀ r ∈ runs messages, r.Ok env.decoder) := by
      rcases panicsUnless_stopSequences stop with ⟨hstop, sequences, hsequences⟩ | ⟨hstop, hsequences⟩
      · rw [hsequences, and_iff_right hstop]
        rcases foldlM_convertMessage_cases env messages with ⟨hfile, st, hst, hinv⟩ | ⟨hfile, err, herr⟩
        · rw [or_iff_right hfile, hst]
          exact keepsConversation_iff hinv rfl rfl
        · rw [herr]
          exact iff_of_true Failure.noConfusion (.inl hfile)
      · rw [hsequences]
        exact iff_of_false (fun h => h rfl) fun h => hstop h.1
    cases reasoning with
    | none => exact hrest.trans (or_iff_right fun ⟨_, h⟩ => (by cases h)).symm
    | some decoded =>
      cases decoded with
      | error err => exact iff_of_true Failure.noConfusion (.inl ⟨err, rfl⟩)
      | ok r => exact hrest.trans (or_iff_right fun ⟨_, h⟩ => (by cases h)).symm
  · rw [hclaudeTools]
    exact iff_of_false (fun h => h rfl) fun h => htools h.1

/-- An assistant's call is lost when a text of the assistant follows. -/
theorem merged_call_lost : ¬ ConversionKeeps
    { decoder := { unmarshal := fun s => if s = "" then none else some (.object []), unmarshal_empty := rfl }
      getBase64Data := fun _ => .error "no file" }
    { messages :=
        [{ role := "user", content := .string "What is the weather?" },
          { role := "assistant"
            content := .string "I look it up."
            toolCalls := some [{ id := "call_1", type := "function", function := { name := "weather", arguments := "\x7b\x7d" } }] },
          { role := "assistant", content := .string "One moment." }] } := by
  intro h
  have hcalls := Carried.calls (KeepsConversation.conversation h)
  cases hcalls

end NewApi.OpenAIToClaude

import NewApi.Convert.OpenAIToClaude.Pieces

/-!
# What OpenAI's requests lose for Claude

A conversation is carried over when its texts, tool calls and results are found in the request for Claude, once and in
order; texts may be joined with spaces, and `...` may stand where there was none (`Carried`). A merged text is trimmed
of quotes at its ends, and only the last of merged messages keeps its tool calls. An empty role stays empty, arguments
that are no map are replaced, an empty result is filled, and tools and stop sequences of another type than expected
panic. Where none of this happens the conversation is carried over, and only there (`request_keeps_iff`).
-/

namespace NewApi.OpenAIToClaude

open NewApi.Convert

/-! ## Carried over -/

/-- Texts among what is joined. What is neither is empty, or stands for a text. -/
inductive Kept : List String → List String → Prop
  | nil : Kept [] []
  | cons (s : String) {texts pieces : List String} : Kept texts pieces → Kept (s :: texts) (s :: pieces)
  | filler {s : String} {texts pieces : List String} :
    s = "" ∨ s = "..." → Kept texts pieces → Kept texts (s :: pieces)

/-- The input of a tool is what its arguments are, and an empty map for none. -/
def CallKept (d : Decoder) (arguments : String) (input : Json) : Prop :=
  if arguments = "" then input = .object [] else d.unmarshal arguments = some input

/-- The pieces of a conversation are in the pieces for Claude, once and in order. -/
inductive Carried (d : Decoder) : List (Piece String) → List (Piece Json) → Prop
  | nil : Carried d [] []
  | text {texts pieces : List String} {ps : List (Piece String)} {qs : List (Piece Json)} :
    Kept texts pieces → Carried d ps qs → Carried d (texts.map .text ++ ps) (.text (GoString.join ' ' pieces) :: qs)
  | toolCall {id name arguments : String} {input : Json} {ps : List (Piece String)} {qs : List (Piece Json)} :
    CallKept d arguments input → Carried d ps qs →
      Carried d (.toolCall id name arguments :: ps) (.toolCall id name input :: qs)
  | toolResult {id : String} {content : Json} {ps : List (Piece String)} {qs : List (Piece Json)} :
    Carried d ps qs → Carried d (.toolResult id content :: ps) (.toolResult id content :: qs)

/-- The pieces of a message: its result or its texts, and its tool calls, with what `f` makes of their arguments. -/
def ChatMessage.pieces {α : Type} (f : String → α) (m : ChatMessage) : List (Piece α) :=
  (if m.role = "system" then []
    else if m.role = "tool" then [.toolResult m.toolCallId m.content]
    else m.texts.map .text) ++
    m.parseToolCalls.map fun toolCall => .toolCall toolCall.id toolCall.function.name (f toolCall.function.arguments)

/-- The pieces that a message has in a conversation. -/
def conversationPieces (m : ChatMessage) : List (Piece String) := m.pieces id

/-- The request for Claude has the conversation, and the texts for the system. -/
structure KeepsConversation (d : Decoder) (messages : List ChatMessage) (out : ClaudeRequest) : Prop where
  conversation : Carried d (messages.flatMap conversationPieces) (messagePieces out.messages)
  system : Carried d ((messages.flatMap systemTexts).map .text) (out.system.flatMap blockPieces)
  roles : ∀ c ∈ out.messages, c.role = "user" ∨ c.role = "assistant"
  first : ∀ c ∈ out.messages.head?, c.role = "user"

namespace Carried

variable {d : Decoder} {ps ps' : List (Piece String)} {qs qs' : List (Piece Json)}

theorem append (h : Carried d ps qs) (h' : Carried d ps' qs') : Carried d (ps ++ ps') (qs ++ qs') := by
  induction h with
  | nil => exact h'
  | text hkept _ ih =>
    rw [List.append_assoc, List.cons_append]
    exact .text hkept ih
  | toolCall hcall _ ih => exact .toolCall hcall ih
  | toolResult _ ih => exact .toolResult ih

theorem flatMap {α : Type} {l : List α} {f : α → List (Piece String)} {g : α → List (Piece Json)}
    (h : ∀ a ∈ l, Carried d (f a) (g a)) : Carried d (l.flatMap f) (l.flatMap g) := by
  induction l with
  | nil => exact .nil
  | cons a l ih =>
    rw [List.flatMap_cons, List.flatMap_cons]
    exact (h a List.mem_cons_self).append (ih fun b hb => h b (List.mem_cons_of_mem _ hb))

theorem singleton (s : String) : Carried d [.text s] [.text s] := by
  have hone : Carried d ([s].map .text ++ []) [.text (GoString.join ' ' [s])] := .text (.cons s .nil) .nil
  rwa [GoString.join_singleton] at hone

theorem filler : Carried d [] [.text "..."] := by
  have hone : Carried d ([].map .text ++ []) [.text (GoString.join ' ' ["..."])] := .text (.filler (.inr rfl) .nil) .nil
  rwa [GoString.join_singleton] at hone

theorem texts (l : List String) : Carried d (l.map .text) (l.map .text) := by
  rw [List.map_eq_flatMap, List.map_eq_flatMap]
  exact flatMap fun s _ => singleton s

end Carried

/-! ## What is counted -/

/-- The quotes in a text. -/
def quotes (s : String) : Nat := s.toList.count '"'

namespace Piece

variable {α : Type}

/-- A quote for each in the text. -/
def quoteList : Piece α → List Unit
  | .text s => List.replicate (quotes s) ()
  | _ => []

def call? : Piece α → Option (String × String)
  | .toolCall id name _ => some (id, name)
  | _ => none

def arguments? : Piece α → Option α
  | .toolCall _ _ arguments => some arguments
  | _ => none

def result? : Piece α → Option (String × Json)
  | .toolResult id content => some (id, content)
  | _ => none

end Piece

theorem quotes_append (s t : String) : quotes (s ++ t) = quotes s + quotes t := by
  unfold quotes
  rw [String.toList_append, List.count_append]

theorem quotes_join (l : List String) : quotes (GoString.join ' ' l) = (l.map quotes).sum := by
  induction l with
  | nil => rfl
  | cons s l ih =>
    rw [List.map_cons, List.sum_cons, ← ih]
    cases l with
    | nil => rw [GoString.join_singleton]; rfl
    | cons t l =>
      unfold quotes
      rw [GoString.toList_join_cons (List.cons_ne_nil _ _), List.count_append, List.count_cons]
      rfl

theorem Kept.sum_quotes {texts pieces : List String} (h : Kept texts pieces) :
    (texts.map quotes).sum = (pieces.map quotes).sum := by
  induction h with
  | nil => rfl
  | cons s _ ih => rw [List.map_cons, List.map_cons, List.sum_cons, List.sum_cons, ih]
  | @filler s _ _ hs _ ih =>
    have hzero : quotes s = 0 := by rcases hs with rfl | rfl <;> rfl
    rw [List.map_cons, List.sum_cons, hzero, Nat.zero_add, ih]

section
variable {α : Type} {texts : List String}

theorem quoteList_texts :
    (texts.map (Piece.text (α := α))).flatMap Piece.quoteList = List.replicate (texts.map quotes).sum () := by
  induction texts with
  | nil => rfl
  | cons s texts ih =>
    rw [List.map_cons, List.flatMap_cons, ih, List.map_cons, List.sum_cons, ← List.replicate_append_replicate]
    rfl

theorem call?_texts : (texts.map (Piece.text (α := α))).filterMap Piece.call? = [] := by
  rw [List.filterMap_map]
  exact List.filterMap_eq_nil_iff.2 fun s _ => rfl

theorem arguments?_texts : (texts.map (Piece.text (α := α))).filterMap Piece.arguments? = [] := by
  rw [List.filterMap_map]
  exact List.filterMap_eq_nil_iff.2 fun s _ => rfl

theorem result?_texts : (texts.map (Piece.text (α := α))).filterMap Piece.result? = [] := by
  rw [List.filterMap_map]
  exact List.filterMap_eq_nil_iff.2 fun s _ => rfl

end

namespace Carried

variable {d : Decoder} {ps : List (Piece String)} {qs : List (Piece Json)}

theorem quoteList (h : Carried d ps qs) : ps.flatMap Piece.quoteList = qs.flatMap Piece.quoteList := by
  induction h with
  | nil => rfl
  | text hkept _ ih =>
    rw [List.flatMap_append, List.flatMap_cons, quoteList_texts, ih, hkept.sum_quotes, ← quotes_join]
    rfl
  | toolCall _ _ ih => exact ih
  | toolResult _ ih => exact ih

theorem calls (h : Carried d ps qs) : ps.filterMap Piece.call? = qs.filterMap Piece.call? := by
  induction h with
  | nil => rfl
  | text _ _ ih =>
    rw [List.filterMap_append, call?_texts, ih]
    rfl
  | toolCall _ _ ih => exact congrArg (List.cons _) ih
  | toolResult _ ih => exact ih

theorem arguments (h : Carried d ps qs) :
    List.Forall₂ (CallKept d) (ps.filterMap Piece.arguments?) (qs.filterMap Piece.arguments?) := by
  induction h with
  | nil => exact .nil
  | text _ _ ih =>
    rw [List.filterMap_append, arguments?_texts]
    exact ih
  | toolCall hcall _ ih => exact .cons hcall ih
  | toolResult _ ih => exact ih

theorem results (h : Carried d ps qs) : ps.filterMap Piece.result? = qs.filterMap Piece.result? := by
  induction h with
  | nil => rfl
  | text _ _ ih =>
    rw [List.filterMap_append, result?_texts, ih]
    rfl
  | toolCall _ _ ih => exact ih
  | toolResult _ ih => exact congrArg (List.cons _) ih

end Carried

/-! ## Merged texts -/

/-- Induction over the messages of a run. -/
@[elab_as_elim]
theorem Run.induction {P : Run → Prop} (single : ∀ m, P (Run.single m))
    (snoc : ∀ (r : Run) (m : ChatMessage) (h : r.Joins m), P r → P (r.snoc m h)) (r : Run) : P r := by
  generalize hn : r.tail.length = n
  induction n generalizing r with
  | zero =>
    rcases r.cases with ⟨m, rfl⟩ | ⟨r', m, h, rfl⟩
    · exact single m
    · rw [show (r'.snoc m h).tail = r'.tail ++ [m] from rfl, List.length_append] at hn
      cases hn
  | succ n ih =>
    rcases r.cases with ⟨m, rfl⟩ | ⟨r', m, h, rfl⟩
    · exact single m
    · rw [show (r'.snoc m h).tail = r'.tail ++ [m] from rfl, List.length_append] at hn
      exact snoc r' m h (ih r' (Nat.succ.inj hn))

/-- The text that a run starts with. -/
def headText (m : ChatMessage) : String := if m.stringContent = "" then "..." else m.stringContent

/-- The text that is made of a run of texts. -/
def runText (r : Run) : String :=
  r.tail.foldl (fun text m => trimQuotes (text ++ " " ++ m.stringContent)) (headText r.head)

/-- What is joined for it. -/
def runPieces (r : Run) : List String := headText r.head :: r.tail.map (·.stringContent)

/-- Where texts are merged, the first does not start with a quote, and the others do not end with one. -/
def Run.Unquoted (r : Run) : Prop :=
  r.tail ≠ [] → r.head.stringContent.toList.head? ≠ some '"' ∧
    ∀ m ∈ r.tail, m.stringContent.toList.getLast? ≠ some '"'

section
variable {r : Run} {m : ChatMessage}

theorem runText_snoc (h : r.Joins m) : runText (r.snoc m h) = trimQuotes (runText r ++ " " ++ m.stringContent) :=
  List.foldl_concat ..

theorem space_mem_joined {s t : String} : ' ' ∈ (s ++ " " ++ t).toList := by
  rw [String.toList_append, String.toList_append]
  exact List.mem_append_left _ (List.mem_append_right _ (List.mem_singleton.2 rfl))

theorem trimQuotes_joined_ne {s t : String} : trimQuotes (s ++ " " ++ t) ≠ "" := fun h => by
  have hmem := GoString.mem_trim (c := '"') (space_mem_joined (s := s) (t := t)) (by decide)
  rw [show GoString.trim '"' (s ++ " " ++ t) = "" from h] at hmem
  cases hmem

theorem runText_ne : runText r ≠ "" := by
  rcases r.cases with ⟨m, rfl⟩ | ⟨r', m, h, rfl⟩
  · show headText m ≠ ""
    unfold headText
    split
    · decide
    next h => exact h
  · rw [runText_snoc]
    exact trimQuotes_joined_ne

theorem filled_of_isText (h : m.isText = true) : filled m.content = .string (headText m) := by
  obtain ⟨role, content, toolCalls, toolCallId⟩ := m
  cases content <;> first | rfl | cases h

theorem content_formatRun (h : r.head.isText = true) : (formatRun r).content = .string (runText r) := by
  induction r using Run.induction with
  | single m => exact filled_of_isText h
  | snoc r m hjoins ih =>
    have hr : (formatRun r).stringContent = runText r := by
      unfold ChatMessage.stringContent ChatMessage.message
      rw [ih h]
      rfl
    rw [formatRun_snoc, runText_snoc]
    unfold fillContent mergeMessage
    rw [hr]
    exact congrArg Json.string (if_neg trimQuotes_joined_ne)

theorem head?_joined {s t : String} (hs : s ≠ "") : (s ++ " " ++ t).toList.head? = s.toList.head? := by
  rw [String.toList_append, String.toList_append]
  cases hlist : s.toList with
  | nil => exact absurd (String.toList_eq_nil_iff.1 hlist) hs
  | cons c l => rfl

theorem getLast?_joined_iff {s t : String} :
    (s ++ " " ++ t).toList.getLast? = some '"' ↔ t.toList.getLast? = some '"' := by
  rw [String.toList_append, List.getLast?_append]
  cases t.toList.getLast? with
  | some c => rfl
  | none =>
    rw [Option.none_or, String.toList_append]
    refine iff_of_false (fun h => ?_) nofun
    rw [List.getLast?_append] at h
    have hspace : some ' ' = some '"' := h
    cases hspace

theorem head?_headText_iff : (headText m).toList.head? = some '"' ↔ m.stringContent.toList.head? = some '"' := by
  unfold headText
  split
  next h =>
    rw [h]
    decide
  · rfl

theorem quotes_headText : quotes (headText m) = quotes m.stringContent := by
  unfold headText
  split
  next h =>
    rw [h]
    rfl
  · rfl

theorem Run.Unquoted.head (h : r.Unquoted) (hne : (runText r).toList.head? ≠ some '"') :
    r.head.stringContent.toList.head? ≠ some '"' := by
  by_cases htail : r.tail = []
  · unfold runText at hne
    rw [htail, List.foldl_nil] at hne
    exact mt head?_headText_iff.2 hne
  · exact (h htail).1

theorem Run.Unquoted.snoc_iff (h : r.Joins m) : (r.snoc m h).Unquoted ↔
    (r.head.stringContent.toList.head? ≠ some '"' ∧ ∀ t ∈ r.tail, t.stringContent.toList.getLast? ≠ some '"') ∧
      m.stringContent.toList.getLast? ≠ some '"' := by
  unfold Unquoted
  have htail : (r.snoc m h).tail = r.tail ++ [m] := rfl
  rw [forall_prop_of_true (by rw [htail]; exact List.append_ne_nil_of_right_ne_nil _ (List.cons_ne_nil _ _)), htail,
    List.forall_mem_append, List.forall_mem_singleton, ← and_assoc]
  rfl

theorem head?_runText_snoc (h : r.Joins m) : (runText (r.snoc m h)).toList.head? ≠ some '"' := by
  rw [runText_snoc]
  exact GoString.head?_trim

theorem runText_of_unquoted (h : r.Unquoted) : runText r = GoString.join ' ' (runPieces r) := by
  induction r using Run.induction with
  | single m => exact (GoString.join_singleton ..).symm
  | snoc r m hjoins ih =>
    obtain ⟨⟨hhead, htail⟩, hlast⟩ := (Run.Unquoted.snoc_iff hjoins).1 h
    have hstart : (runText r).toList.head? ≠ some '"' := by
      rcases r.cases with ⟨m', rfl⟩ | ⟨r', m', h', rfl⟩
      · exact mt head?_headText_iff.1 hhead
      · exact head?_runText_snoc h'
    have hpieces : runPieces (r.snoc m hjoins) = runPieces r ++ [m.stringContent] := by
      unfold runPieces
      rw [List.cons_append]
      exact congrArg _ List.map_append
    have hne : runPieces r ≠ [] := List.cons_ne_nil _ _
    rw [runText_snoc, hpieces, GoString.join_concat hne, ← ih fun _ => ⟨hhead, htail⟩]
    exact GoString.trim_eq_self (by rwa [head?_joined runText_ne]) (mt getLast?_joined_iff.1 hlast)

theorem quotes_joined (s t : String) : quotes (s ++ " " ++ t) = quotes s + quotes t := by
  rw [quotes_append, quotes_append]
  rfl

theorem quotes_runText : quotes (runText r) ≤ (r.toList.map fun m => quotes m.stringContent).sum ∧
    (quotes (runText r) = (r.toList.map fun m => quotes m.stringContent).sum → r.Unquoted) := by
  induction r using Run.induction with
  | single m => exact ⟨quotes_headText.le, fun _ htail => absurd rfl htail⟩
  | snoc r m h ih =>
    obtain ⟨hle, hunquoted⟩ := ih
    have htrim : quotes (runText (r.snoc m h)) ≤ quotes (runText r) + quotes m.stringContent := by
      rw [runText_snoc, ← quotes_joined]
      exact GoString.trim_sublist.count_le _
    have hsum : ((r.snoc m h).toList.map fun m => quotes m.stringContent).sum =
        (r.toList.map fun m => quotes m.stringContent).sum + quotes m.stringContent := by
      rw [toList_snoc, List.map_append, List.sum_append]
      exact congrArg _ (Nat.add_zero _)
    rw [hsum]
    refine ⟨htrim.trans (Nat.add_le_add_right hle _), fun heq => ?_⟩
    have hr := hunquoted (by omega)
    have hcount : quotes (trimQuotes (runText r ++ " " ++ m.stringContent)) =
        quotes (runText r ++ " " ++ m.stringContent) := by
      rw [← runText_snoc h, quotes_joined]
      omega
    obtain ⟨hstart, hend⟩ := GoString.count_trim_eq hcount
    rw [head?_joined runText_ne] at hstart
    refine (Run.Unquoted.snoc_iff h).2 ⟨⟨hr.head hstart, fun t ht => ?_⟩, mt getLast?_joined_iff.2 hend⟩
    exact (hr (List.ne_nil_of_mem ht)).2 t ht

theorem role_of_mem (hm : m ∈ r.toList) : m.role = r.head.role := by
  rcases List.mem_cons.1 hm with rfl | hm
  · rfl
  · exact (r.joined m hm).1

theorem tail_of_tool (h : r.head.role = "tool") : r.tail = [] := by
  by_contra htail
  exact (r.head_of_tail htail).1 h

theorem toList_eq : r.toList = r.toList.dropLast ++ [r.last] := by
  rcases r.cases with ⟨m, rfl⟩ | ⟨r', m, h, rfl⟩
  · rfl
  · have hlast : (r'.snoc m h).last = m := by
      unfold Run.last
      rw [show (r'.snoc m h).tail = r'.tail ++ [m] from rfl, List.getLast?_concat]
      rfl
    rw [toList_snoc, List.dropLast_concat, hlast]

theorem last_mem : r.last ∈ r.toList := by
  rw [toList_eq]
  exact List.mem_append_right _ (List.mem_singleton.2 rfl)

theorem parseToolCalls_formatRun :
    (formatRun r).parseToolCalls = if r.head.role = "assistant" then r.last.parseToolCalls else [] := by
  have hcopy : ∀ m : ChatMessage, (copyMessage m).parseToolCalls =
      if m.role = "assistant" then m.parseToolCalls else [] := by
    intro m
    unfold copyMessage ChatMessage.parseToolCalls
    dsimp only
    split <;> rfl
  rcases r.cases with ⟨m, rfl⟩ | ⟨r', m, h, rfl⟩
  · exact hcopy m
  · have hlast : (r'.snoc m h).last = m := by
      unfold Run.last
      rw [show (r'.snoc m h).tail = r'.tail ++ [m] from rfl, List.getLast?_concat]
      rfl
    rw [formatRun_snoc, hlast, show (r'.snoc m h).head.role = m.role from h.1.1]
    exact hcopy m

/-! ## The texts of a run -/

theorem texts_of_isText (h : m.isText = true) : m.texts = if m.stringContent = "" then [] else [m.stringContent] := by
  cases hstring : m.isStringContent with
  | true => exact texts_of_isStringContent hstring
  | false =>
    obtain ⟨role, content, toolCalls, toolCallId⟩ := m
    cases content with
    | null => rfl
    | string s => exact Bool.noConfusion (show true = false from hstring)
    | _ => cases h

theorem isText_of_mem (h : r.head.isText = true) (hm : m ∈ r.toList) : m.isText = true := by
  rcases List.mem_cons.1 hm with rfl | hm
  · exact h
  · exact isText_of_isStringContent (r.joined m hm).2

theorem texts_formatRun (h : r.head.isText = true) : (formatRun r).texts = [runText r] := by
  have hcontent := content_formatRun h
  have hstring : (formatRun r).stringContent = runText r := by
    unfold ChatMessage.stringContent ChatMessage.message
    rw [hcontent]
    rfl
  rw [texts_of_isStringContent (isStringContent_formatRun.trans h), hstring, if_neg runText_ne]

theorem texts_formatRun_of_not_isText (h : r.head.isText = false) : (formatRun r).texts = r.toList.flatMap (·.texts) := by
  unfold ChatMessage.texts Run.toList
  rw [Run.tail_of_not_isText h, List.flatMap_singleton, parseContent_eq (content_formatRun_of_not_isText h)]

theorem kept_texts {l : List ChatMessage} (h : ∀ m ∈ l, m.isText = true) :
    Kept (l.flatMap (·.texts)) (l.map (·.stringContent)) := by
  induction l with
  | nil => exact .nil
  | cons m l ih =>
    have hl := ih fun t ht => h t (List.mem_cons_of_mem _ ht)
    rw [List.flatMap_cons, List.map_cons, texts_of_isText (h m List.mem_cons_self)]
    split
    next hempty => exact .filler (.inl hempty) hl
    · exact .cons _ hl

theorem kept_runPieces (h : r.head.isText = true) : Kept (r.toList.flatMap (·.texts)) (runPieces r) := by
  have htail : Kept (r.tail.flatMap (·.texts)) (r.tail.map (·.stringContent)) := kept_texts fun m hm => isText_of_isStringContent (r.joined m hm).2
  unfold Run.toList runPieces headText
  rw [List.flatMap_cons, texts_of_isText h]
  split
  · exact .filler (.inr rfl) htail
  · exact .cons _ htail

theorem carried_texts (d : Decoder) (h : r.Unquoted) :
    Carried d ((r.toList.flatMap (·.texts)).map .text) ((formatRun r).texts.map .text) := by
  cases htext : r.head.isText with
  | true =>
    rw [texts_formatRun htext, runText_of_unquoted h, ← List.append_nil (List.map _ _)]
    exact .text (kept_runPieces htext) .nil
  | false =>
    rw [texts_formatRun_of_not_isText htext]
    exact Carried.texts _

theorem sum_quotes_texts : ((formatRun r).texts.map quotes).sum ≤ ((r.toList.flatMap (·.texts)).map quotes).sum ∧
    (((formatRun r).texts.map quotes).sum = ((r.toList.flatMap (·.texts)).map quotes).sum → r.Unquoted) := by
  cases htext : r.head.isText with
  | true =>
    have hsum : ∀ l : List ChatMessage, (∀ m ∈ l, m.isText = true) →
        ((l.flatMap (·.texts)).map quotes).sum = (l.map fun m => quotes m.stringContent).sum := by
      intro l hl
      induction l with
      | nil => rfl
      | cons m l ih =>
        have hm : (m.texts.map quotes).sum = quotes m.stringContent := by
          rw [texts_of_isText (hl m List.mem_cons_self)]
          split
          next hempty =>
            rw [hempty]
            rfl
          · exact Nat.add_zero _
        rw [List.flatMap_cons, List.map_append, List.sum_append, List.map_cons, List.sum_cons, hm,
          ih fun t ht => hl t (List.mem_cons_of_mem _ ht)]
    rw [texts_formatRun htext, hsum r.toList fun m hm => isText_of_mem htext hm, List.map_singleton, List.sum_singleton]
    exact quotes_runText
  | false =>
    rw [texts_formatRun_of_not_isText htext]
    exact ⟨le_rfl, fun _ htail => absurd (Run.tail_of_not_isText htext) htail⟩

end

/-! ## What is kept of a run -/

/-- What keeps a run: its role is one that the conversion knows, no quotes are trimmed, a result is not empty, and only
the last message has tool calls, as an assistant, with arguments that are a map, null or missing. -/
structure Run.Ok (d : Decoder) (r : Run) : Prop where
  role : r.head.role ∈ ["system", "user", "assistant", "tool"]
  unquoted : r.Unquoted
  result : r.head.role = "tool" → r.head.content ≠ .null ∧ r.head.content ≠ .string ""
  calls : ∀ m ∈ r.toList.dropLast, m.parseToolCalls = []
  calls_role : r.last.parseToolCalls ≠ [] → r.head.role = "assistant"
  arguments : ∀ toolCall ∈ r.last.parseToolCalls,
    toolCall.function.arguments = "" ∨ (d.unmarshalMap toolCall.function.arguments).isSome = true

section
variable {env : Env} {r : Run} {m : ChatMessage}

theorem callKept_inputObj_iff {arguments : String} : CallKept env.decoder arguments (inputObj env arguments) ↔
    arguments = "" ∨ (env.decoder.unmarshalMap arguments).isSome = true := by
  unfold CallKept inputObj
  by_cases hempty : arguments = ""
  · rw [if_pos hempty, if_neg (not_not_intro hempty)]
    exact iff_of_true rfl (.inl hempty)
  · rw [if_neg hempty, if_pos hempty, or_iff_right hempty]
    unfold Decoder.unmarshalMap
    split
    next hobject => rw [hobject]; exact iff_of_true rfl rfl
    next hnull => rw [hnull]; exact iff_of_true rfl rfl
    next hobject _ => exact iff_of_false (fun h => hobject _ h) Bool.noConfusion

theorem Run.Ok.no_calls (h : r.Ok env.decoder) (hrole : r.head.role ≠ "assistant") (hm : m ∈ r.toList) :
    m.parseToolCalls = [] := by
  rw [toList_eq] at hm
  rcases List.mem_append.1 hm with hm | hm
  · exact h.calls m hm
  · rw [List.mem_singleton.1 hm]
    by_contra hcalls
    exact hrole (h.calls_role hcalls)

theorem pieces_speaks {α : Type} {f : String → α} (h : m.Speaks) : m.pieces f = m.texts.map .text ++
    m.parseToolCalls.map fun toolCall => .toolCall toolCall.id toolCall.function.name (f toolCall.function.arguments) := by
  unfold ChatMessage.pieces
  rw [if_neg h.1, if_neg h.2]

theorem pieces_system {α : Type} {f : String → α} (h : m.role = "system") (hcalls : m.parseToolCalls = []) :
    m.pieces f = [] := by
  unfold ChatMessage.pieces
  rw [if_pos h, hcalls]
  rfl

theorem pieces_tool {α : Type} {f : String → α} (h : m.role = "tool") (hcalls : m.parseToolCalls = []) :
    m.pieces f = [.toolResult m.toolCallId m.content] := by
  unfold ChatMessage.pieces
  rw [if_neg (by rw [h]; decide), if_pos h, hcalls]
  rfl

theorem formattedPieces_formatRun : formattedPieces env (formatRun r) = (formatRun r).pieces (inputObj env) := by
  have hcalls : (formatRun r).role ≠ "assistant" → (formatRun r).parseToolCalls = [] := by
    rw [role_formatRun, parseToolCalls_formatRun]
    exact fun hrole => if_neg hrole
  by_cases hsystem : (formatRun r).role = "system"
  · rw [formattedPieces_system hsystem, pieces_system hsystem (hcalls (by rw [hsystem]; decide))]
  by_cases htool : (formatRun r).role = "tool"
  · rw [formattedPieces_tool htool, pieces_tool htool (hcalls (by rw [htool]; decide))]
  · rw [formattedPieces_speaks ⟨hsystem, htool⟩, pieces_speaks ⟨hsystem, htool⟩]

theorem formatRun_tool (h : r.head.role = "tool") :
    (formatRun r).toolCallId = r.head.toolCallId ∧ (formatRun r).content = filled r.head.content := by
  unfold formatRun
  rw [tail_of_tool h]
  exact ⟨if_pos h, rfl⟩

theorem filled_eq_self_iff {content : Json} : filled content = content ↔ content ≠ .null ∧ content ≠ .string "" := by
  cases content with
  | string s =>
    by_cases hempty : s = ""
    · rw [hempty]
      exact iff_of_false (fun heq => absurd (Json.string.inj heq) (by decide)) fun hand => hand.2 rfl
    · exact iff_of_true (congrArg Json.string (if_neg hempty)) ⟨nofun, fun heq => hempty (Json.string.inj heq)⟩
  | null => exact iff_of_false nofun fun hand => hand.1 rfl
  | _ => exact iff_of_true rfl ⟨nofun, nofun⟩

/-- A run that is kept is carried over. -/
theorem Run.Ok.carried (h : r.Ok env.decoder) :
    Carried env.decoder (r.toList.flatMap conversationPieces) (formattedPieces env (formatRun r)) := by
  rw [formattedPieces_formatRun]
  by_cases hsystem : r.head.role = "system"
  · have hcalls : ∀ m ∈ r.toList, m.parseToolCalls = [] := fun m hm => h.no_calls (by rw [hsystem]; decide) hm
    have hnone : r.toList.flatMap conversationPieces = [] := List.flatMap_eq_nil_iff.2 fun m hm =>
      pieces_system ((role_of_mem hm).trans hsystem) (hcalls m hm)
    rw [hnone, pieces_system (role_formatRun.trans hsystem) (parseToolCalls_formatRun.trans (if_neg (by rw [hsystem]; decide)))]
    exact .nil
  by_cases htool : r.head.role = "tool"
  · have hcontent := filled_eq_self_iff.2 (h.result htool)
    have hcalls : r.head.parseToolCalls = [] := h.no_calls (by rw [htool]; decide) List.mem_cons_self
    have hin : r.toList.flatMap conversationPieces = [.toolResult r.head.toolCallId r.head.content] := by
      unfold Run.toList
      rw [tail_of_tool htool, List.flatMap_singleton]
      exact pieces_tool htool hcalls
    rw [hin, pieces_tool (role_formatRun.trans htool) (parseToolCalls_formatRun.trans (if_neg (by rw [htool]; decide))),
      (formatRun_tool htool).1, (formatRun_tool htool).2, hcontent]
    exact .toolResult .nil
  have hspeaks : (formatRun r).Speaks := ⟨fun hs => hsystem (role_formatRun.symm.trans hs),
    fun ht => htool (role_formatRun.symm.trans ht)⟩
  have hin : r.toList.flatMap conversationPieces = (r.toList.flatMap (·.texts)).map .text ++
      r.last.parseToolCalls.map fun toolCall =>
        .toolCall toolCall.id toolCall.function.name toolCall.function.arguments := by
    have hall : ∀ m ∈ r.toList, m.Speaks := fun m hm =>
      ⟨fun hs => hsystem ((role_of_mem hm).symm.trans hs), fun ht => htool ((role_of_mem hm).symm.trans ht)⟩
    have hbefore : r.toList.dropLast.flatMap conversationPieces = (r.toList.dropLast.flatMap (·.texts)).map .text := by
      rw [List.map_flatMap]
      refine List.flatMap_congr fun m hm => (pieces_speaks (hall m (List.dropLast_subset _ hm))).trans ?_
      rw [h.calls m hm]
      exact List.append_nil _
    rw [toList_eq, List.flatMap_append, List.flatMap_append, List.flatMap_singleton, List.flatMap_singleton, hbefore,
      List.map_append, List.append_assoc]
    exact congrArg _ (pieces_speaks (hall _ last_mem))
  have hcalls : (formatRun r).parseToolCalls = r.last.parseToolCalls := by
    rw [parseToolCalls_formatRun]
    split
    · rfl
    next hrole => exact (h.no_calls hrole last_mem).symm
  rw [hin, pieces_speaks hspeaks, hcalls]
  refine (carried_texts env.decoder h.unquoted).append ?_
  rw [List.map_eq_flatMap, List.map_eq_flatMap]
  exact Carried.flatMap fun toolCall htoolCall =>
    .toolCall (callKept_inputObj_iff.2 (h.arguments toolCall htoolCall)) .nil

theorem Run.Ok.carried_system (h : r.Ok env.decoder) :
    Carried env.decoder ((r.toList.flatMap systemTexts).map .text) ((systemTexts (formatRun r)).map .text) := by
  by_cases hsystem : r.head.role = "system"
  · have hin : r.toList.flatMap systemTexts = r.toList.flatMap (·.texts) :=
      List.flatMap_congr fun m hm => if_pos ((role_of_mem hm).trans hsystem)
    have hout : systemTexts (formatRun r) = (formatRun r).texts := if_pos (role_formatRun.trans hsystem)
    rw [hin, hout]
    exact carried_texts env.decoder h.unquoted
  · have hin : r.toList.flatMap systemTexts = [] :=
      List.flatMap_eq_nil_iff.2 fun m hm => systemTexts_of_ne fun hs => hsystem ((role_of_mem hm).symm.trans hs)
    rw [hin, systemTexts_of_ne fun hs => hsystem (role_formatRun.symm.trans hs)]
    exact .nil

/-! ### What is found of a message -/

def callNames (toolCalls : List ToolCallRequest) : List (String × String) :=
  toolCalls.map fun toolCall => (toolCall.id, toolCall.function.name)

section
variable {α : Type} {f : String → α}

theorem call?_pieces : (m.pieces f).filterMap Piece.call? = callNames m.parseToolCalls := by
  have hcalls : (m.parseToolCalls.map fun toolCall => Piece.toolCall toolCall.id toolCall.function.name
      (f toolCall.function.arguments)).filterMap Piece.call? = callNames m.parseToolCalls := by
    rw [List.filterMap_map]
    exact congrFun List.filterMap_eq_map m.parseToolCalls
  unfold ChatMessage.pieces
  rw [List.filterMap_append, hcalls]
  split
  · rfl
  · split
    · rfl
    · rw [call?_texts, List.nil_append]

theorem arguments?_pieces :
    (m.pieces f).filterMap Piece.arguments? = m.parseToolCalls.map fun toolCall => f toolCall.function.arguments := by
  have hcalls : (m.parseToolCalls.map fun toolCall => Piece.toolCall toolCall.id toolCall.function.name
      (f toolCall.function.arguments)).filterMap Piece.arguments? =
        m.parseToolCalls.map fun toolCall => f toolCall.function.arguments := by
    rw [List.filterMap_map]
    exact congrFun List.filterMap_eq_map m.parseToolCalls
  unfold ChatMessage.pieces
  rw [List.filterMap_append, hcalls]
  split
  · rfl
  · split
    · rfl
    · rw [arguments?_texts, List.nil_append]

theorem result?_pieces :
    (m.pieces f).filterMap Piece.result? = if m.role = "tool" then [(m.toolCallId, m.content)] else [] := by
  have hcalls : (m.parseToolCalls.map fun toolCall => Piece.toolCall toolCall.id toolCall.function.name
      (f toolCall.function.arguments)).filterMap Piece.result? = [] := by
    rw [List.filterMap_map]
    exact List.filterMap_eq_nil_iff.2 fun _ _ => rfl
  unfold ChatMessage.pieces
  rw [List.filterMap_append, hcalls, List.append_nil]
  split
  next h =>
    rw [if_neg (by rw [h]; decide)]
    rfl
  · split
    · rfl
    · exact result?_texts

theorem quoteList_pieces (h : m.Speaks) :
    (m.pieces f).flatMap Piece.quoteList = List.replicate (m.texts.map quotes).sum () := by
  have hcalls : (m.parseToolCalls.map fun toolCall => Piece.toolCall toolCall.id toolCall.function.name
      (f toolCall.function.arguments)).flatMap Piece.quoteList = [] := by
    rw [List.flatMap_map]
    exact List.flatMap_eq_nil_iff.2 fun _ _ => rfl
  rw [pieces_speaks h, List.flatMap_append, quoteList_texts, hcalls, List.append_nil]

theorem quoteList_pieces_of_not_speaks (h : ¬ m.Speaks) : (m.pieces f).flatMap Piece.quoteList = [] := by
  have hcalls : (m.parseToolCalls.map fun toolCall => Piece.toolCall toolCall.id toolCall.function.name
      (f toolCall.function.arguments)).flatMap Piece.quoteList = [] := by
    rw [List.flatMap_map]
    exact List.flatMap_eq_nil_iff.2 fun _ _ => rfl
  unfold ChatMessage.pieces
  rw [List.flatMap_append, hcalls, List.append_nil]
  split
  · rfl
  next hsystem =>
    split
    · rfl
    next htool => exact absurd ⟨hsystem, htool⟩ h

end

/-! ### What is lost of a run -/

theorem length_callNames_le : (callNames (formatRun r).parseToolCalls).length ≤
    (r.toList.flatMap fun m => callNames m.parseToolCalls).length := by
  rw [toList_eq, List.flatMap_append, List.length_append, List.flatMap_singleton, parseToolCalls_formatRun]
  split
  · exact Nat.le_add_left _ _
  · exact Nat.zero_le _

theorem calls_of_callNames_eq
    (h : callNames (formatRun r).parseToolCalls = r.toList.flatMap fun m => callNames m.parseToolCalls) :
    (∀ m ∈ r.toList.dropLast, m.parseToolCalls = []) ∧ (r.last.parseToolCalls ≠ [] → r.head.role = "assistant") := by
  have hlen := congrArg List.length h
  rw [toList_eq, List.flatMap_append, List.length_append, List.flatMap_singleton, parseToolCalls_formatRun]
    at hlen
  have hnil : ∀ {l : List ToolCallRequest}, callNames l = [] → l = [] := fun hl => List.map_eq_nil_iff.1 hl
  have hbefore : (r.toList.dropLast.flatMap fun m => callNames m.parseToolCalls) = [] := by
    rw [← List.length_eq_zero_iff]
    split at hlen
    · omega
    · have hzero : (callNames []).length = 0 := rfl
      omega
  refine ⟨fun m hm => hnil (List.flatMap_eq_nil_iff.1 hbefore m hm), fun hlast => ?_⟩
  by_contra hrole
  rw [if_neg hrole, hbefore, List.length_nil, Nat.zero_add] at hlen
  exact hlast (hnil (List.length_eq_zero_iff.1 hlen.symm))

section
variable {rs : List Run} {lead : List (Piece Json)}

theorem Carried.callNames_eq (h : Carried env.decoder (rs.flatMap fun r => r.toList.flatMap conversationPieces)
      (lead ++ rs.flatMap fun r => formattedPieces env (formatRun r))) (hlead : lead = [] ∨ lead = [.text "..."]) :
    ∀ r ∈ rs, callNames (formatRun r).parseToolCalls = r.toList.flatMap fun m => callNames m.parseToolCalls := by
  have hcalls := h.calls
  have hnone : lead.filterMap Piece.call? = [] := by rcases hlead with rfl | rfl <;> rfl
  rw [List.filterMap_append, hnone, List.nil_append, List.filterMap_flatMap, List.filterMap_flatMap] at hcalls
  refine (flatMap_eq_iff fun r _ => length_callNames_le).1 ?_
  refine (List.flatMap_congr fun r _ => ?_).trans (hcalls.symm.trans (List.flatMap_congr fun r _ => ?_))
  · rw [formattedPieces_formatRun, call?_pieces]
  · rw [List.filterMap_flatMap]
    exact List.flatMap_congr fun m _ => call?_pieces

theorem Carried.filled_eq (h : Carried env.decoder (rs.flatMap fun r => r.toList.flatMap conversationPieces)
      (lead ++ rs.flatMap fun r => formattedPieces env (formatRun r))) (hlead : lead = [] ∨ lead = [.text "..."]) :
    ∀ r ∈ rs, r.head.role = "tool" → filled r.head.content = r.head.content := by
  have hresults := h.results
  have hnone : lead.filterMap Piece.result? = [] := by rcases hlead with rfl | rfl <;> rfl
  rw [List.filterMap_append, hnone, List.nil_append, List.filterMap_flatMap, List.filterMap_flatMap] at hresults
  have hin : ∀ r : Run, (r.toList.flatMap conversationPieces).filterMap Piece.result? =
      if r.head.role = "tool" then [(r.head.toolCallId, r.head.content)] else [] := by
    intro r
    rw [List.filterMap_flatMap]
    split
    next htool =>
      unfold Run.toList
      rw [tail_of_tool htool, List.flatMap_singleton]
      exact result?_pieces.trans (if_pos htool)
    next htool =>
      exact List.flatMap_eq_nil_iff.2 fun m hm => result?_pieces.trans (if_neg fun h => htool ((role_of_mem hm).symm.trans h))
  have hout : ∀ r : Run, (formattedPieces env (formatRun r)).filterMap Piece.result? =
      if r.head.role = "tool" then [(r.head.toolCallId, filled r.head.content)] else [] := by
    intro r
    rw [formattedPieces_formatRun, result?_pieces, role_formatRun]
    split
    next htool => rw [(formatRun_tool htool).1, (formatRun_tool htool).2]
    · rfl
  have hlen : ∀ r ∈ rs, ((r.toList.flatMap conversationPieces).filterMap Piece.result?).length ≤
      ((formattedPieces env (formatRun r)).filterMap Piece.result?).length := by
    intro r _
    rw [hin, hout]
    split <;> rfl
  intro r hr htool
  have heq := (flatMap_eq_iff hlen).1 hresults r hr
  rw [hin, hout, if_pos htool, if_pos htool] at heq
  exact (Prod.mk.inj (List.cons.inj heq).1).2.symm

theorem Carried.unquoted (h : Carried env.decoder (rs.flatMap fun r => r.toList.flatMap conversationPieces)
      (lead ++ rs.flatMap fun r => formattedPieces env (formatRun r))) (hlead : lead = [] ∨ lead = [.text "..."]) :
    ∀ r ∈ rs, r.head.Speaks → r.Unquoted := by
  have hquotes := h.quoteList
  have hnone : lead.flatMap Piece.quoteList = [] := by rcases hlead with rfl | rfl <;> rfl
  rw [List.flatMap_append, hnone, List.nil_append, List.flatMap_assoc, List.flatMap_assoc] at hquotes
  have hspeaks : ∀ {r : Run}, (formatRun r).Speaks ↔ r.head.Speaks := by
    intro r
    unfold ChatMessage.Speaks
    rw [role_formatRun]
  have hmem : ∀ {r : Run} {m : ChatMessage}, m ∈ r.toList → (m.Speaks ↔ r.head.Speaks) := by
    intro r m hm
    unfold ChatMessage.Speaks
    rw [role_of_mem hm]
  have hin : ∀ r : Run, r.head.Speaks → (r.toList.flatMap conversationPieces).flatMap Piece.quoteList =
      List.replicate ((r.toList.flatMap (·.texts)).map quotes).sum () := by
    intro r hr
    rw [← quoteList_texts (α := String), List.map_flatMap, List.flatMap_assoc, List.flatMap_assoc]
    exact List.flatMap_congr fun m hm => (quoteList_pieces ((hmem hm).2 hr)).trans quoteList_texts.symm
  have hout : ∀ r : Run, r.head.Speaks → (formattedPieces env (formatRun r)).flatMap Piece.quoteList =
      List.replicate ((formatRun r).texts.map quotes).sum () := by
    intro r hr
    rw [formattedPieces_formatRun]
    exact quoteList_pieces (hspeaks.2 hr)
  have hlen : ∀ r ∈ rs, ((formattedPieces env (formatRun r)).flatMap Piece.quoteList).length ≤
      ((r.toList.flatMap conversationPieces).flatMap Piece.quoteList).length := by
    intro r _
    by_cases hr : r.head.Speaks
    · rw [hin r hr, hout r hr, List.length_replicate, List.length_replicate]
      exact sum_quotes_texts.1
    · rw [formattedPieces_formatRun, quoteList_pieces_of_not_speaks (mt hspeaks.1 hr)]
      exact Nat.zero_le _
  intro r hr hrole
  have heq := congrArg List.length ((flatMap_eq_iff hlen).1 hquotes.symm r hr)
  rw [hin r hrole, hout r hrole, List.length_replicate, List.length_replicate] at heq
  exact sum_quotes_texts.2 heq

theorem Carried.unquoted_system (h : Carried env.decoder ((rs.flatMap fun r => r.toList.flatMap systemTexts).map .text)
      ((rs.flatMap fun r => systemTexts (formatRun r)).map .text)) :
    ∀ r ∈ rs, r.head.role = "system" → r.Unquoted := by
  have hquotes := h.quoteList
  rw [List.map_flatMap, List.map_flatMap, List.flatMap_assoc, List.flatMap_assoc] at hquotes
  have hin : ∀ {r : Run}, r.head.role = "system" → r.toList.flatMap systemTexts = r.toList.flatMap (·.texts) :=
    fun hr => List.flatMap_congr fun m hm => if_pos ((role_of_mem hm).trans hr)
  have hout : ∀ {r : Run}, r.head.role = "system" → systemTexts (formatRun r) = (formatRun r).texts :=
    fun hr => if_pos (role_formatRun.trans hr)
  have hlen : ∀ r ∈ rs, (((systemTexts (formatRun r)).map (Piece.text (α := Json))).flatMap Piece.quoteList).length ≤
      (((r.toList.flatMap systemTexts).map (Piece.text (α := String))).flatMap Piece.quoteList).length := by
    intro r _
    rw [quoteList_texts, quoteList_texts, List.length_replicate, List.length_replicate]
    by_cases hr : r.head.role = "system"
    · rw [hin hr, hout hr]
      exact sum_quotes_texts.1
    · rw [systemTexts_of_ne fun hs => hr (role_formatRun.symm.trans hs)]
      exact Nat.zero_le _
  intro r hr hrole
  have heq := congrArg List.length ((flatMap_eq_iff hlen).1 hquotes.symm r hr)
  rw [quoteList_texts, quoteList_texts, List.length_replicate, List.length_replicate, hin hrole, hout hrole] at heq
  exact sum_quotes_texts.2 heq

theorem Carried.arguments_ok (h : Carried env.decoder (rs.flatMap fun r => r.toList.flatMap conversationPieces)
      (lead ++ rs.flatMap fun r => formattedPieces env (formatRun r))) (hlead : lead = [] ∨ lead = [.text "..."]) :
    ∀ r ∈ rs, ∀ toolCall ∈ r.last.parseToolCalls,
      toolCall.function.arguments = "" ∨ (env.decoder.unmarshalMap toolCall.function.arguments).isSome = true := by
  have hnames := h.callNames_eq hlead
  have hargs := h.arguments
  have hnone : lead.filterMap Piece.arguments? = [] := by rcases hlead with rfl | rfl <;> rfl
  rw [List.filterMap_append, hnone, List.nil_append, List.filterMap_flatMap, List.filterMap_flatMap] at hargs
  have hin : (rs.flatMap fun r => (r.toList.flatMap conversationPieces).filterMap Piece.arguments?) =
      (rs.flatMap fun r => r.last.parseToolCalls).map (·.function.arguments) := by
    rw [List.map_flatMap]
    refine List.flatMap_congr fun r hr => ?_
    have hbefore := (calls_of_callNames_eq (hnames r hr)).1
    rw [List.filterMap_flatMap, toList_eq, List.flatMap_append, List.flatMap_singleton,
      List.flatMap_eq_nil_iff.2 fun m hm => ?_]
    · exact arguments?_pieces
    · refine arguments?_pieces.trans ?_
      rw [hbefore m hm]
      rfl
  have hout : (rs.flatMap fun r => (formattedPieces env (formatRun r)).filterMap Piece.arguments?) =
      (rs.flatMap fun r => r.last.parseToolCalls).map fun toolCall => inputObj env toolCall.function.arguments := by
    rw [List.map_flatMap]
    refine List.flatMap_congr fun r hr => ?_
    have hlast := (calls_of_callNames_eq (hnames r hr)).2
    rw [formattedPieces_formatRun, arguments?_pieces, parseToolCalls_formatRun]
    split
    · rfl
    next hrole => rw [not_not.1 (mt hlast hrole)]
  rw [hin, hout, List.forall₂_map_left_iff, List.forall₂_map_right_iff, List.forall₂_same] at hargs
  intro r hr toolCall htoolCall
  exact callKept_inputObj_iff.1 (hargs toolCall (List.mem_flatMap.2 ⟨r, hr, htoolCall⟩))

end

/-! ## Main results -/

section
variable {messages : List ChatMessage} {st : Converted}

theorem content_formatRun_ne : (formatRun r).content ≠ .string "" := by
  cases htext : r.head.isText with
  | true =>
    rw [content_formatRun htext]
    exact fun h => runText_ne (Json.string.inj h)
  | false =>
    rw [content_formatRun_of_not_isText htext]
    intro h
    unfold ChatMessage.isText at htext
    rw [h] at htext
    cases htext

theorem pieces_markSystem (system : List ClaudeMediaMessage) :
    (markSystem system).flatMap blockPieces = system.flatMap blockPieces := by
  unfold markSystem
  rcases List.eq_nil_or_concat' system with rfl | ⟨init, last, rfl⟩
  · rfl
  · rw [List.getLast?_concat]
    dsimp only
    split
    · rw [List.dropLast_concat, List.flatMap_append, List.flatMap_append, List.flatMap_singleton, List.flatMap_singleton]
      rfl
    · rfl

/-- What the second pass ends with has the conversation just if its runs are kept. -/
theorem keepsConversation_iff (h : st.Inv env (formatMessages messages)) {out : ClaudeRequest}
    (hmessages : out.messages = st.claudeMessages) (hsystem : out.system = markSystem st.systemMessages) :
    KeepsConversation env.decoder messages out ↔ ∀ r ∈ runs messages, r.Ok env.decoder := by
  obtain ⟨lead, hlead, hpieces⟩ := h.holds.pieces
  have hconversation : messages.flatMap conversationPieces =
      (runs messages).flatMap fun r => r.toList.flatMap conversationPieces := by
    rw [← List.flatMap_assoc, flatten_runs]
  have hsystemTexts : messages.flatMap systemTexts =
      (runs messages).flatMap fun r => r.toList.flatMap systemTexts := by
    rw [← List.flatMap_assoc, flatten_runs]
  have hout : messagePieces out.messages =
      lead ++ (runs messages).flatMap fun r => formattedPieces env (formatRun r) := by
    rw [hmessages, hpieces, formatMessages_eq, List.flatMap_map]
  have houtSystem : out.system.flatMap blockPieces =
      ((runs messages).flatMap fun r => systemTexts (formatRun r)).map .text := by
    rw [hsystem, pieces_markSystem, h.system, formatMessages_eq, List.flatMap_map]
  have hmem : ∀ {m : ChatMessage}, m ∈ formatMessages messages ↔ ∃ r ∈ runs messages, formatRun r = m := by
    intro m
    rw [formatMessages_eq, List.mem_map]
  constructor
  · rintro ⟨hconv, hsys, hroles, -⟩
    rw [hconversation, hout] at hconv
    rw [hsystemTexts, houtSystem] at hsys
    intro r hr
    have hspoken : r.head.Speaks → r.head.role = "user" ∨ r.head.role = "assistant" := by
      intro hspeaks
      obtain ⟨c, hc, hrole⟩ := h.holds.mem_of_role (formatRun r) (hmem.2 ⟨r, hr, rfl⟩)
        ⟨by rw [role_formatRun]; exact hspeaks.1, by rw [role_formatRun]; exact hspeaks.2⟩
      rw [← role_formatRun, ← hrole]
      exact hroles c (hmessages ▸ hc)
    have hcalls := calls_of_callNames_eq (hconv.callNames_eq hlead r hr)
    refine ⟨?_, ?_, fun htool => filled_eq_self_iff.1 (hconv.filled_eq hlead r hr htool), hcalls.1, hcalls.2,
      hconv.arguments_ok hlead r hr⟩
    · by_cases hs : r.head.role = "system"
      · rw [hs]
        decide
      by_cases ht : r.head.role = "tool"
      · rw [ht]
        decide
      · rcases hspoken ⟨hs, ht⟩ with hrole | hrole <;> rw [hrole] <;> decide
    · by_cases hs : r.head.role = "system"
      · exact hsys.unquoted_system r hr hs
      by_cases ht : r.head.role = "tool"
      · exact fun htail => absurd (tail_of_tool ht) htail
      · exact hconv.unquoted hlead r hr ⟨hs, ht⟩
  · intro hok
    refine ⟨?_, ?_, ?_, ?_⟩
    · rw [hconversation, hout]
      have hall := Carried.flatMap fun r hr => (hok r hr).carried
      rcases hlead with rfl | rfl
      · exact hall
      · exact Carried.filler.append hall
    · rw [hsystemTexts, houtSystem, List.map_flatMap, List.map_flatMap]
      exact Carried.flatMap fun r hr => (hok r hr).carried_system
    · rw [hmessages]
      intro c hc
      refine (h.holds.role_of_mem c hc).elim .inl ?_
      rintro ⟨m, hm, hspeaks, hrole⟩
      obtain ⟨r, hr, rfl⟩ := hmem.1 hm
      unfold ChatMessage.Speaks at hspeaks
      rw [role_formatRun] at hspeaks hrole
      have hfour := (hok r hr).role
      rw [← hrole]
      simp only [List.mem_cons, List.not_mem_nil, or_false] at hfour
      tauto
    · rw [hmessages]
      exact h.holds.head

end

end

end NewApi.OpenAIToClaude

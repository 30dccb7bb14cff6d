import NewApi.Stream.Claude
import NewApi.Lib.Run
import Mathlib.Algebra.Order.Ring.Int

/-!
# What a converted stream loses

The deltas that are sent are compared with those that came in, kind by kind: text, thinking, and the
input of each tool call. A tool's input is told by its block's distance from the first block that is
still open, which is its index among the parallel calls. What the converter sends of one chunk
(`carried`) depends on the record before it only by its count and by `done`; from this step the
exact condition for a whole stream follows, because what is sent of a chunk is a prefix of what the
chunk holds and a fragment that was not sent is never made up for.
-/

namespace NewApi.Stream

open Run

/-! ## Fragments -/

/-- The kinds of deltas. -/
inductive Kind
  | text
  | thinking
  | input (key : Int)
deriving DecidableEq

/-- The fragment of a kind that an event carries, where `n` blocks have been stopped before it. -/
def ClaudeResponse.fragment (kind : Kind) (n : Int) : ClaudeResponse → String
  | .contentBlockDelta _ (.textDelta t) => if kind = .text then t else ""
  | .contentBlockDelta _ (.thinkingDelta t) => if kind = .thinking then t else ""
  | .contentBlockDelta i (.inputJsonDelta t) => if kind = .input (i - n) then t else ""
  | _ => ""

/-- The blocks an event stops. -/
def ClaudeResponse.stopped : ClaudeResponse → Int
  | .contentBlockStop _ => 1
  | _ => 0

/-- The blocks that events stop. -/
def stops (es : List ClaudeResponse) : Int := (es.map ClaudeResponse.stopped).sum

/-- The concatenation of the deltas of a kind, where `n` blocks have been stopped before. -/
def emitted (kind : Kind) (n : Int) : List ClaudeResponse → String
  | [] => ""
  | e :: es => e.fragment kind n ++ emitted kind (n + e.stopped) es

/-- The arguments of the tool calls that have an index, concatenated. -/
def argumentsOf (key : Int) (calls : List (ToolCall × Nat)) : String :=
  String.join ((calls.filter (Conv.offset · = key)).map (·.1.arguments))

/-- The fragment of a kind that a delta holds. -/
def Delta.fragment (kind : Kind) (d : Delta) : String :=
  match kind with
  | .text => d.getContentString
  | .thinking => d.getReasoningContent
  | .input key => argumentsOf key d.toolCalls.zipIdx

/-- The fragment of a kind that a chunk holds, over all its choices. -/
def Chunk.fragment (kind : Kind) (resp : Chunk) : String :=
  String.join (resp.choices.map (·.delta.fragment kind))

/-- The stream that is sent loses nothing: the deltas of each kind concatenate to the same text. -/
def Lossless (info : RelayInfo) (chunks : List Chunk) : Prop :=
  ∀ kind, emitted kind 0 (sent info chunks) = String.join (chunks.map (Chunk.fragment kind))

/-- A delta without any fragment. -/
def Delta.IsEmpty (d : Delta) : Prop :=
  d.getContentString = "" ∧ d.getReasoningContent = "" ∧ ∀ t ∈ d.toolCalls, t.arguments = ""

instance (d : Delta) : Decidable d.IsEmpty := inferInstanceAs (Decidable (_ ∧ _ ∧ _))

section
variable {kind : Kind} {n : Int} {es es' : List ClaudeResponse}

@[simp] theorem stops_nil : stops [] = 0 := rfl

@[simp] theorem stops_cons (e : ClaudeResponse) : stops (e :: es) = e.stopped + stops es :=
  List.sum_cons

@[simp] theorem stops_append : stops (es ++ es') = stops es + stops es' := by
  rw [stops, List.map_append, List.sum_append]
  rfl

theorem emitted_append :
    emitted kind n (es ++ es') = emitted kind n es ++ emitted kind (n + stops es) es' := by
  induction es generalizing n with
  | nil => simp [emitted]
  | cons e es ih =>
    simp only [List.cons_append, emitted, ih, stops_cons, String.append_assoc, Int.add_assoc]

theorem argumentsOf_cons (key : Int) (p : ToolCall × Nat) (calls : List (ToolCall × Nat)) :
    argumentsOf key (p :: calls) =
      (if Conv.offset p = key then p.1.arguments else "") ++ argumentsOf key calls := by
  unfold argumentsOf
  rw [List.filter_cons]
  by_cases hkey : Conv.offset p = key
  · simp [hkey]
  · simp [hkey]

theorem argumentsOf_eq_empty_iff {toolCalls : List ToolCall} {k : Nat} :
    (∀ key, argumentsOf key (toolCalls.zipIdx k) = "") ↔ ∀ t ∈ toolCalls, t.arguments = "" := by
  simp only [argumentsOf, GoString.join_eq_empty_iff, List.forall_mem_map, List.mem_filter,
    decide_eq_true_eq]
  refine ⟨fun h t ht => ?_, fun h key p hp => h p.1 (List.fst_mem_of_mem_zipIdx hp.1)⟩
  obtain ⟨i, hi⟩ := List.mem_iff_getElem?.1 ht
  exact h _ (t, k + i) ⟨List.mk_add_mem_zipIdx_iff_getElem?.2 hi, rfl⟩

theorem fragment_eq_empty_iff {d : Delta} : (∀ kind, d.fragment kind = "") ↔ d.IsEmpty := by
  have harguments : (∀ key, argumentsOf key d.toolCalls.zipIdx = "") ↔
      ∀ t ∈ d.toolCalls, t.arguments = "" := argumentsOf_eq_empty_iff
  refine ⟨fun h => ⟨h .text, h .thinking, harguments.1 fun key => h (.input key)⟩, ?_⟩
  intro h kind
  cases kind with
  | text => exact h.1
  | thinking => exact h.2.1
  | input key => exact harguments.2 h.2.2 key

end

/-! ## What one chunk contributes -/

/-- The text or the thinking that is sent of a delta: reasoning hides the content. -/
def Delta.spoken (kind : Kind) (d : Delta) : String :=
  match kind with
  | .text => if d.getReasoningContent = "" then d.getContentString else ""
  | .thinking => d.getReasoningContent
  | .input _ => ""

/-- The tool input that is sent of a first chunk: that of its first tool call, as if its index were
zero. -/
def Delta.firstInput (kind : Kind) (d : Delta) : String :=
  match kind, d.toolCalls with
  | .input key, t :: _ => if key = 0 then t.arguments else ""
  | _, _ => ""

/-- The tool input that is sent of later chunks. -/
def Delta.laterInput (kind : Kind) (d : Delta) : String :=
  match kind with
  | .input key => argumentsOf key d.toolCalls.zipIdx
  | _ => ""

/-- The fragment of a kind that is sent of a chunk. -/
def carried (kind : Kind) (info : RelayInfo) (resp : Chunk) : String :=
  if info.claudeConvertInfo.done then ""
  else
    match resp.choices with
    | [] => ""
    | choice :: _ =>
      if info.sendResponseCount = 0 then choice.delta.firstInput kind ++ choice.delta.spoken kind
      else if choice.isFinished ∧ resp.usage = none then ""
      else if choice.delta.toolCalls ≠ [] then choice.delta.laterInput kind
      else choice.delta.spoken kind

section
variable {kind : Kind} {d : Delta} {n i : Int}

theorem spoken_of_reasoning (h : d.getReasoningContent ≠ "") : d.spoken kind =
    (ClaudeResponse.contentBlockDelta i (.thinkingDelta d.getReasoningContent)).fragment kind n := by
  cases kind with
  | text => exact if_neg h
  | thinking => rfl
  | input key => rfl

theorem spoken_of_content (h : d.getReasoningContent = "") : d.spoken kind =
    (ClaudeResponse.contentBlockDelta i (.textDelta d.getContentString)).fragment kind n := by
  cases kind with
  | text => exact if_pos h
  | thinking => exact h
  | input key => rfl

theorem spoken_eq_empty (hr : d.getReasoningContent = "") (hc : d.getContentString = "") :
    d.spoken kind = "" := by
  cases kind with
  | text => exact (if_pos hr).trans hc
  | thinking => exact hr
  | input key => rfl

/-- The events of tool calls, with the first block of the calls at the first open one, hold the
arguments of the calls. -/
theorem emitted_toolCallEvents (toolCalls : List ToolCall) :
    emitted kind n (toolCalls.zipIdx.flatMap (Conv.toolCallEvents n)) =
        ({ toolCalls } : Delta).laterInput kind ∧
      stops (toolCalls.zipIdx.flatMap (Conv.toolCallEvents n)) = 0 := by
  have hone : ∀ p : ToolCall × Nat, stops (Conv.toolCallEvents n p) = 0 ∧
      emitted kind n (Conv.toolCallEvents n p) =
        if kind = .input (Conv.offset p) then p.1.arguments else "" := by
    intro p
    have hsub : n + Conv.offset p - n = Conv.offset p := by omega
    unfold Conv.toolCallEvents
    by_cases hname : p.1.name = "" <;> by_cases harg : p.1.arguments = "" <;>
      simp [hname, harg, emitted, ClaudeResponse.fragment, ClaudeResponse.stopped, hsub]
  have hall : ∀ l : List (ToolCall × Nat), stops (l.flatMap (Conv.toolCallEvents n)) = 0 ∧
      emitted kind n (l.flatMap (Conv.toolCallEvents n)) =
        String.join ((l.filter fun p => kind = .input (Conv.offset p)).map (·.1.arguments)) := by
    intro l
    induction l with
    | nil => exact ⟨rfl, String.join_nil.symm⟩
    | cons p l ih =>
      refine ⟨by rw [List.flatMap_cons, stops_append, (hone p).1, ih.1]; rfl, ?_⟩
      rw [List.flatMap_cons, emitted_append, (hone p).1, (hone p).2, Int.add_zero, ih.2,
        List.filter_cons]
      by_cases hkind : kind = .input (Conv.offset p)
      · simp [hkind]
      · simp [hkind]
  refine ⟨(hall _).2.trans ?_, (hall _).1⟩
  cases kind with
  | text | thinking => simp [Delta.laterInput]
  | input key =>
    simp only [Delta.laterInput, argumentsOf, Kind.input.injEq, eq_comm (a := key)]

end

/-- The first open block, or the next one to be opened, has index `n`. -/
def ClaudeConvertInfo.BlocksAt (info : ClaudeConvertInfo) (n : Int) : Prop :=
  match info.lastMessagesType with
  | .tools => info.toolCallBaseIndex = n ∧ 0 ≤ info.toolCallMaxIndexOffset
  | _ => info.index = n

namespace Conv

/-- The events so far hold the fragments `f`, where `n` blocks had been stopped before them, and the
record is up to date. -/
structure Emits (n : Int) (f : Kind → String) (c : Conv) : Prop where
  emitted : ∀ kind, emitted kind n c.out = f kind
  blocks : c.info.BlocksAt (n + stops c.out)

/-- The events hold the fragments `f`, and the record is up to date unless the message is done. -/
structure Sends (n : Int) (f : Kind → String) (c : Conv) : Prop where
  emitted : ∀ kind, Stream.emitted kind n c.out = f kind
  blocks : c.info.done ∨ c.info.BlocksAt (n + stops c.out)

section
variable {n : Int} {f : Kind → String} {c : Conv}

theorem Emits.sends (h : c.Emits n f) : c.Sends n f := ⟨h.emitted, .inr h.blocks⟩

theorem Emits.finishedBy (h : c.Emits n f) (choice : Choice) : (c.finishedBy choice).Emits n f :=
  ⟨h.emitted, h.blocks⟩

theorem Emits.congr (h : c.Emits n f) {g : Kind → String} (hfg : ∀ kind, f kind = g kind) :
    c.Emits n g := ⟨fun kind => (h.emitted kind).trans (hfg kind), h.blocks⟩

theorem Emits.emit (h : c.Emits n f) {g : Kind → String} {es : List ClaudeResponse}
    (hes : stops es = 0) (hg : ∀ kind, f kind ++ Stream.emitted kind (n + stops c.out) es = g kind) :
    (c.emit es).Emits n g := by
  refine ⟨fun kind => ?_, ?_⟩
  · rw [Conv.emit, emitted_append, h.emitted, hg]
  · rw [Conv.emit, stops_append, hes, Int.add_zero]
    exact h.blocks

theorem emitted_stopOpenBlocks (kind : Kind) :
    Stream.emitted kind n c.stopOpenBlocks.out = Stream.emitted kind n c.out := by
  have hstops : ∀ {m : Int} {l : List Int},
      Stream.emitted kind m (l.map ClaudeResponse.contentBlockStop) = "" := by
    intro m l
    induction l generalizing m with
    | nil => rfl
    | cons i l ih => rw [List.map_cons, Stream.emitted, ih]; rfl
  rw [stopOpenBlocks, Conv.emit, emitted_append, hstops, String.append_empty]

theorem stops_stopOpenBlocks : stops c.stopOpenBlocks.out = stops c.out + c.info.openBlocks.length := by
  have hstops : ∀ {l : List Int}, stops (l.map ClaudeResponse.contentBlockStop) = l.length := by
    intro l
    induction l with
    | nil => rfl
    | cons i l ih =>
      rw [List.map_cons, stops_cons, ih, ClaudeResponse.stopped, List.length_cons]
      omega
  rw [stopOpenBlocks, Conv.emit, stops_append, hstops]

theorem Emits.advance (h : c.Emits n f) : c.stopOpenBlocksAndAdvance.Emits n f ∧
    c.stopOpenBlocksAndAdvance.info.lastMessagesType = .none := by
  have hblocks := h.blocks
  have hemitted := fun kind => (emitted_stopOpenBlocks kind).trans (h.emitted kind)
  have hstops := stops_stopOpenBlocks (c := c)
  unfold ClaudeConvertInfo.BlocksAt at hblocks
  unfold ClaudeConvertInfo.openBlocks at hstops
  unfold stopOpenBlocksAndAdvance
  split
  next hlast => exact ⟨h, hlast⟩
  next hlast =>
    rw [hlast] at hblocks hstops
    refine ⟨⟨hemitted, ?_⟩, rfl⟩
    show c.info.index + 1 = n + stops c.stopOpenBlocks.out
    simp only [List.length_singleton] at hstops
    dsimp only at hblocks
    omega
  next hlast =>
    rw [hlast] at hblocks hstops
    refine ⟨⟨hemitted, ?_⟩, rfl⟩
    show c.info.index + 1 = n + stops c.stopOpenBlocks.out
    simp only [List.length_singleton] at hstops
    dsimp only at hblocks
    omega
  next hlast =>
    rw [hlast] at hblocks hstops
    refine ⟨⟨hemitted, ?_⟩, rfl⟩
    show c.info.toolCallBaseIndex + c.info.toolCallMaxIndexOffset + 1 =
      n + stops c.stopOpenBlocks.out
    simp only [List.length_map, List.length_range] at hstops
    obtain ⟨hbase, hmax⟩ := hblocks
    omega

theorem Emits.advanceTo (h : c.Emits n f) {t : LastMessagesType} (ht : t ≠ .tools) :
    (c.advanceTo t).Emits n f ∧ (c.advanceTo t).info.index = n + stops (c.advanceTo t).out := by
  unfold Conv.advanceTo
  split
  next =>
    obtain ⟨hemits, hlast⟩ := h.advance
    have hblocks := hemits.blocks
    rw [ClaudeConvertInfo.BlocksAt, hlast] at hblocks
    exact ⟨hemits, hblocks⟩
  next hlast =>
    have hblocks := h.blocks
    rw [ClaudeConvertInfo.BlocksAt, not_not.1 hlast] at hblocks
    cases t with
    | tools => exact absurd rfl ht
    | none | text | thinking => exact ⟨h, hblocks⟩

theorem Emits.setType (h : c.Emits n f) {t : LastMessagesType} (ht : t ≠ .tools)
    (hindex : c.info.index = n + stops c.out) : (c.setType t).Emits n f := by
  refine ⟨h.emitted, ?_⟩
  cases t with
  | tools => exact absurd rfl ht
  | none | text | thinking => exact hindex

theorem Emits.close (h : c.Emits n f) (oaiUsage : Option Usage) (stopReason : String) :
    (c.stopOpenBlocks.closeMessage oaiUsage stopReason).Sends n f := by
  refine ⟨fun kind => ?_, .inl rfl⟩
  have hemitted := (emitted_stopOpenBlocks kind).trans (h.emitted kind)
  cases oaiUsage with
  | none =>
    show Stream.emitted kind n (c.stopOpenBlocks.out ++ [] ++ [_]) = f kind
    rw [List.append_nil, emitted_append, hemitted]
    exact String.append_empty ..
  | some u =>
    show Stream.emitted kind n (c.stopOpenBlocks.out ++ [_] ++ [_]) = f kind
    rw [List.append_assoc, emitted_append, hemitted]
    exact String.append_empty ..

theorem Emits.openTools (h : ∀ kind, Stream.emitted kind n c.out = f kind) {base : Int}
    (hbase : base = n + stops c.out) : (c.openTools base).Emits n f :=
  ⟨h, hbase, Int.le_refl 0⟩

theorem Emits.firstToolCall (h : c.Emits 0 f) (hstops : stops c.out = 0) (choice : Choice) :
    (c.firstToolCall choice).Emits 0 fun kind => f kind ++ choice.delta.firstInput kind := by
  unfold Conv.firstToolCall Delta.firstInput
  cases choice.delta.toolCalls with
  | nil => exact h.congr fun kind => by cases kind <;> exact (String.append_empty ..).symm
  | cons t ts =>
    have hopened : (c.openTools 0).Emits 0 f := .openTools h.emitted (by rw [hstops]; rfl)
    have hstarted : ((c.openTools 0).emit [.contentBlockStart 0 (.toolUse t.id t.name)]).Emits 0 f :=
      hopened.emit rfl fun kind => String.append_empty ..
    have hstops' : 0 + stops ((c.openTools 0).emit [.contentBlockStart 0
        (.toolUse t.id t.name)]).out = 0 := by
      simp only [Conv.emit, stops_append]
      rw [show (c.openTools 0).out = c.out from rfl, hstops]
      rfl
    dsimp only
    split
    next harg =>
      refine hstarted.emit rfl fun kind => ?_
      rw [hstops']
      cases kind with
      | text | thinking => rfl
      | input key => simp [Stream.emitted, ClaudeResponse.fragment]
    next harg =>
      refine hstarted.congr fun kind => ?_
      cases kind with
      | text | thinking => exact (String.append_empty ..).symm
      | input key => simp [not_not.1 harg]

theorem Emits.firstContent (h : c.Emits n f) (choice : Choice) :
    (c.firstContent choice).Emits n fun kind => f kind ++ choice.delta.spoken kind := by
  unfold Conv.firstContent
  dsimp only
  split
  next hr =>
    obtain ⟨hemits, hindex⟩ := h.advanceTo (t := .thinking) (by decide)
    generalize c.advanceTo .thinking = c' at hemits hindex
    refine .setType (hemits.emit rfl fun kind => ?_) (by decide) ?_
    · rw [spoken_of_reasoning hr (i := c'.info.index) (n := n + stops c'.out)]
      simp [Stream.emitted, ClaudeResponse.fragment]
    · exact hindex.trans (by simp [Conv.emit, ClaudeResponse.stopped])
  next hr =>
    have hr := not_not.1 hr
    split
    next hc =>
      obtain ⟨hemits, hindex⟩ := h.advanceTo (t := .text) (by decide)
      generalize c.advanceTo .text = c' at hemits hindex
      refine .setType (hemits.emit rfl fun kind => ?_) (by decide) ?_
      · rw [spoken_of_content hr (i := c'.info.index) (n := n + stops c'.out)]
        simp [Stream.emitted, ClaudeResponse.fragment]
      · exact hindex.trans (by simp [Conv.emit, ClaudeResponse.stopped])
    next hc =>
      refine h.congr fun kind => ?_
      rw [spoken_eq_empty hr (not_not.1 hc), String.append_empty]

theorem Emits.first (h : c.Emits 0 fun _ => "") (hstops : stops c.out = 0) (estimate : Int)
    (resp : Chunk) : (c.first estimate resp).Sends 0 fun kind => match resp.choices with
      | [] => ""
      | choice :: _ => choice.delta.firstInput kind ++ choice.delta.spoken kind := by
  have hstart : (c.emit [.messageStart resp.id resp.model estimate]).Emits 0 fun _ => "" :=
    h.emit rfl fun kind => String.append_empty ..
  have hstops' : stops (c.emit [.messageStart resp.id resp.model estimate]).out =
      0 := by
    rw [Conv.emit, stops_append, hstops]
    rfl
  unfold Conv.first
  dsimp only
  cases resp.choices with
  | nil => exact hstart.sends
  | cons choice others =>
    dsimp only
    have hsent : Conv.Emits 0 (fun kind => choice.delta.firstInput kind ++ choice.delta.spoken kind)
        (((c.emit [.messageStart resp.id resp.model estimate]).firstToolCall
          choice).firstContent choice) :=
      ((hstart.firstToolCall hstops' choice).firstContent choice).congr fun kind => by
        rw [String.empty_append]
    unfold Conv.firstFinish
    split
    · exact (hsent.finishedBy choice).close _ _
    · exact hsent.sends

theorem Emits.usageOnly (h : c.Emits n f) (resp : Chunk) : (c.usageOnly resp).Sends n f := by
  unfold Conv.usageOnly
  split
  · exact h.sends
  · exact h.close _ _

theorem le_maxOffset (l : List (ToolCall × Nat)) (m : Int) :
    m ≤ l.foldl (fun m p => max m (offset p)) m := by
  induction l generalizing m with
  | nil => exact Int.le_refl m
  | cons p l ih => exact Int.le_trans (Int.le_max_left ..) (ih _)

theorem Emits.toolDeltas (h : c.Emits n f) (d : Delta) :
    (c.toolDeltas d.toolCalls).Emits n fun kind => f kind ++ d.laterInput kind := by
  have hopen : ∃ c' : Conv, c'.Emits n f ∧ c'.info.lastMessagesType = .tools ∧
      (if c.info.lastMessagesType ≠ .tools then
        c.stopOpenBlocksAndAdvance.openTools c.stopOpenBlocksAndAdvance.info.index
      else c) = c' := by
    refine ⟨_, ?_, ?_, rfl⟩
    · split
      · obtain ⟨hemits, hlast⟩ := h.advance
        have hblocks := hemits.blocks
        rw [ClaudeConvertInfo.BlocksAt, hlast] at hblocks
        exact .openTools hemits.emitted hblocks
      · exact h
    · split
      next => rfl
      next hlast => exact not_not.1 hlast
  obtain ⟨c', hemits, hlast, hc'⟩ := hopen
  unfold Conv.toolDeltas
  dsimp only
  rw [hc']
  have hblocks := hemits.blocks
  rw [ClaudeConvertInfo.BlocksAt, hlast] at hblocks
  obtain ⟨hbase, hmax⟩ := hblocks
  refine ⟨fun kind => ?_, ?_⟩
  · show Stream.emitted kind n (c'.out ++ _) = _
    rw [emitted_append, hemits.emitted, hbase, (emitted_toolCallEvents d.toolCalls).1]
    rfl
  · show ClaudeConvertInfo.BlocksAt _ (n + stops (c'.out ++ _))
    rw [stops_append, hbase, (@emitted_toolCallEvents .text _ d.toolCalls).2, Int.add_zero]
    unfold ClaudeConvertInfo.BlocksAt
    dsimp only
    rw [hlast]
    exact ⟨rfl, Int.le_trans hmax (le_maxOffset _ _)⟩

theorem Emits.openBlock (h : c.Emits n f) {t : LastMessagesType} (ht : t ≠ .tools)
    (block : ContentBlock) : (c.openBlock t block).Emits n f ∧
      (c.openBlock t block).info.index = n + stops (c.openBlock t block).out := by
  unfold Conv.openBlock
  split
  next =>
    obtain ⟨hemits, hlast⟩ := h.advance
    generalize c.stopOpenBlocksAndAdvance = c' at hemits hlast
    have hblocks := hemits.blocks
    rw [ClaudeConvertInfo.BlocksAt, hlast] at hblocks
    have hstarted : (c'.emit [.contentBlockStart c'.info.index block]).Emits n f :=
      hemits.emit rfl fun kind => String.append_empty ..
    have hindex : c'.info.index =
        n + stops (c'.emit [.contentBlockStart c'.info.index block]).out :=
      Eq.trans hblocks (by simp [Conv.emit, ClaudeResponse.stopped])
    exact ⟨hstarted.setType ht hindex, hindex⟩
  next hlast =>
    have hblocks := h.blocks
    rw [ClaudeConvertInfo.BlocksAt, not_not.1 hlast] at hblocks
    cases t with
    | tools => exact absurd rfl ht
    | none | text | thinking => exact ⟨h, hblocks⟩

theorem Emits.deltas (h : c.Emits n f) (choice : Choice) :
    (c.deltas choice).Emits n fun kind => f kind ++
      if choice.delta.toolCalls ≠ [] then choice.delta.laterInput kind
      else choice.delta.spoken kind := by
  unfold Conv.deltas
  dsimp only
  by_cases htools : choice.delta.toolCalls ≠ []
  · simp only [if_pos htools]
    exact h.toolDeltas choice.delta
  simp only [if_neg htools]
  split
  next hr =>
    obtain ⟨hemits, hindex⟩ := h.openBlock (t := .thinking) (by decide) .thinking
    refine hemits.emit rfl fun kind => ?_
    rw [spoken_of_reasoning hr]
    exact congrArg _ (String.append_empty ..)
  next hr =>
    have hr := not_not.1 hr
    split
    next hc =>
      obtain ⟨hemits, hindex⟩ := h.openBlock (t := .text) (by decide) .text
      refine hemits.emit rfl fun kind => ?_
      rw [spoken_of_content hr]
      exact congrArg _ (String.append_empty ..)
    next hc =>
      refine h.congr fun kind => ?_
      rw [spoken_eq_empty hr (not_not.1 hc), String.append_empty]

theorem Emits.later (h : c.Emits n fun _ => "") (resp : Chunk) (choice : Choice) :
    (c.later resp choice).Sends n fun kind =>
      if choice.isFinished ∧ resp.usage = none then ""
      else if choice.delta.toolCalls ≠ [] then choice.delta.laterInput kind
      else choice.delta.spoken kind := by
  unfold Conv.later
  dsimp only
  generalize hc' : (if choice.isFinished = true then c.finishedBy choice else c) = c'
  have h' : c'.Emits n fun _ => "" := by
    rw [← hc']
    split
    · exact h.finishedBy choice
    · exact h
  by_cases hdefer : choice.isFinished = true ∧ resp.usage = none
  · simp only [if_pos hdefer]
    exact h'.sends
  simp only [if_neg hdefer]
  have hsent := (h'.deltas choice).congr fun kind => String.empty_append ..
  generalize c'.deltas choice = c'' at hsent ⊢
  by_cases hclose : choice.isFinished = true ∨ c''.info.done = true
  · rw [if_pos hclose]
    exact hsent.close _ _
  · rw [if_neg hclose]
    exact hsent.sends

end

end Conv

/-! ## Streams -/

/-- The record of a stream at a chunk: `n` blocks have been stopped, none before the first chunk. -/
structure RelayInfo.At (info : RelayInfo) (n : Int) : Prop where
  started : info.sendResponseCount = 0 → n = 0
  blocks : info.claudeConvertInfo.done ∨ info.claudeConvertInfo.BlocksAt n

section
variable {info : RelayInfo} {n : Int} {resp : Chunk} {chunks : List Chunk} {kind : Kind}

theorem step_count : (step info resp).sendResponseCount = info.sendResponseCount + 1 := by
  unfold step handleStreamFormat streamResponseOpenAI2Claude
  dsimp only
  split <;> rfl

theorem step_spec (resp : Chunk) (h : info.At n) :
    (∀ kind, emitted kind n (handleStreamFormat info resp).1 = carried kind info resp) ∧
    (step info resp).At (n + stops (handleStreamFormat info resp).1) := by
  suffices hsends : (∀ kind, emitted kind n (handleStreamFormat info resp).1 =
      carried kind info resp) ∧ ((step info resp).claudeConvertInfo.done ∨
        (step info resp).claudeConvertInfo.BlocksAt (n + stops (handleStreamFormat info resp).1)) from
    ⟨hsends.1, ⟨fun h0 => absurd (step_count.symm.trans h0) (Nat.succ_ne_zero _), hsends.2⟩⟩
  unfold step handleStreamFormat streamResponseOpenAI2Claude carried
  dsimp only
  by_cases hdone : info.claudeConvertInfo.done = true
  · simp only [if_pos hdone]
    exact ⟨fun _ => rfl, .inl hdone⟩
  have hblocks := h.blocks.resolve_left hdone
  simp only [if_neg hdone, Nat.add_eq_right]
  generalize hinfo : { info.claudeConvertInfo with
    usage := resp.usage <|> info.claudeConvertInfo.usage } = conv
  have hemits : Conv.Emits n (fun _ => "") { info := conv } := by
    rw [← hinfo]
    exact ⟨fun _ => rfl, by rw [stops_nil, Int.add_zero]; exact hblocks⟩
  by_cases hfirst : info.sendResponseCount = 0
  · simp only [if_pos hfirst]
    obtain rfl := h.started hfirst
    have hsends := hemits.first rfl info.estimatePromptTokens resp
    exact ⟨hsends.emitted, hsends.blocks⟩
  · simp only [if_neg hfirst]
    cases resp.choices with
    | nil =>
      have hsends := hemits.usageOnly resp
      exact ⟨hsends.emitted, hsends.blocks⟩
    | cons choice others =>
      have hsends := hemits.later resp choice
      exact ⟨hsends.emitted, hsends.blocks⟩

/-- What is sent of a stream, kind by kind, is what is carried of each chunk. -/
def carriedAll (kind : Kind) (info : RelayInfo) : List Chunk → String
  | [] => ""
  | resp :: rest => carried kind info resp ++ carriedAll kind (step info resp) rest

theorem emitted_sent (h : info.At n) : emitted kind n (sent info chunks) = carriedAll kind info chunks := by
  induction chunks generalizing info n with
  | nil => rfl
  | cons resp rest ih =>
    obtain ⟨hsent, hnext⟩ := step_spec resp h
    rw [sent, emitted_append, hsent, ih hnext, carriedAll]

end

/-! ## What is lost -/

/-- The first tool call of a first chunk is the one of index zero, or has no arguments. -/
def Delta.InPlace (d : Delta) : Prop :=
  match d.toolCalls with
  | [] => True
  | t :: _ => t.arguments ≠ "" → t.index.getD 0 = 0

/-- The condition, on a chunk and the record before it, under which everything it holds is sent. -/
def Keeps (info : RelayInfo) (resp : Chunk) : Prop :=
  -- after the end of the message nothing more comes
  if info.claudeConvertInfo.done then ∀ choice ∈ resp.choices, choice.delta.IsEmpty
  else
    match resp.choices with
    | [] => True
    | choice :: others =>
      -- only the first choice holds something
      (∀ other ∈ others, other.delta.IsEmpty) ∧
        if info.sendResponseCount = 0 then
          -- at first: no content beside reasoning, and arguments of the tool call of index 0 alone
          (choice.delta.getReasoningContent ≠ "" → choice.delta.getContentString = "") ∧
            choice.delta.InPlace ∧ ∀ t ∈ choice.delta.toolCalls.tail, t.arguments = ""
        else if choice.isFinished ∧ resp.usage = none then
          -- a chunk that finishes has its usage with it, or holds nothing
          choice.delta.IsEmpty
        else
          -- tool calls, or reasoning, or content, but no two of them
          if choice.delta.toolCalls ≠ [] then
            choice.delta.getContentString = "" ∧ choice.delta.getReasoningContent = ""
          else choice.delta.getReasoningContent ≠ "" → choice.delta.getContentString = ""

section
variable {d : Delta} {kind : Kind} {info : RelayInfo} {resp : Chunk} {chunks : List Chunk}

theorem exists_fragment_eq_spoken (kind : Kind) : ∃ r, d.fragment kind = d.spoken kind ++ r := by
  cases kind with
  | text =>
    by_cases hr : d.getReasoningContent = ""
    · exact ⟨"", by simp [Delta.spoken, Delta.fragment, hr]⟩
    · exact ⟨d.getContentString, by simp [Delta.spoken, Delta.fragment, hr]⟩
  | thinking => exact ⟨"", (String.append_empty ..).symm⟩
  | input key => exact ⟨_, (String.empty_append ..).symm⟩

theorem exists_fragment_eq_laterInput (kind : Kind) : ∃ r, d.fragment kind = d.laterInput kind ++ r := by
  cases kind with
  | text | thinking => exact ⟨_, (String.empty_append ..).symm⟩
  | input key => exact ⟨"", (String.append_empty ..).symm⟩

theorem firstInput_of_inPlace (h : d.InPlace) {t : ToolCall} {ts : List ToolCall}
    (hcalls : d.toolCalls = t :: ts) (key : Int) :
    d.firstInput (.input key) = if Conv.offset (t, 0) = key then t.arguments else "" := by
  unfold Delta.InPlace at h
  unfold Delta.firstInput
  rw [hcalls] at h ⊢
  dsimp only at h ⊢
  by_cases harg : t.arguments = ""
  · simp only [harg, ite_self]
  · have hoffset : Conv.offset (t, 0) = 0 := h harg
    simp only [hoffset, eq_comm (a := (0 : Int))]

theorem exists_fragment_eq_first (h : d.InPlace) (kind : Kind) :
    ∃ r, d.fragment kind = d.firstInput kind ++ d.spoken kind ++ r := by
  cases kind with
  | text | thinking =>
    obtain ⟨r, hr⟩ := exists_fragment_eq_spoken (d := d) _
    exact ⟨r, by rw [hr]; simp [Delta.firstInput]⟩
  | input key =>
    cases hcalls : d.toolCalls with
    | nil => exact ⟨"", by simp [Delta.fragment, Delta.firstInput, Delta.spoken, hcalls, argumentsOf]⟩
    | cons t ts =>
      refine ⟨argumentsOf key (ts.zipIdx 1), ?_⟩
      rw [firstInput_of_inPlace h hcalls, Delta.fragment, hcalls, List.zipIdx_cons, argumentsOf_cons,
        Delta.spoken, String.append_empty]

theorem inPlace_of_eq (h : ∀ kind, ∃ r, d.firstInput kind ++ d.spoken kind = d.fragment kind ++ r) :
    d.InPlace := by
  unfold Delta.InPlace
  cases hcalls : d.toolCalls with
  | nil => trivial
  | cons t ts =>
    dsimp only
    intro harg
    by_contra hkey
    obtain ⟨r, hkind⟩ := h (.input (t.index.getD 0))
    have hoffset : Conv.offset (t, 0) = t.index.getD 0 := rfl
    simp only [Delta.fragment, Delta.firstInput, Delta.spoken, hcalls, if_neg hkey,
      List.zipIdx_cons, argumentsOf_cons, hoffset, if_pos] at hkind
    rw [String.append_assoc] at hkind
    exact harg (String.append_eq_empty_iff.1 hkind.symm).1

theorem spoken_eq_iff : (∀ kind, d.spoken kind = d.fragment kind) ↔
    (d.getReasoningContent ≠ "" → d.getContentString = "") ∧ ∀ t ∈ d.toolCalls, t.arguments = "" := by
  rw [← argumentsOf_eq_empty_iff (k := 0)]
  refine ⟨fun h => ⟨fun hr => ?_, fun key => (h (.input key)).symm⟩, fun h kind => ?_⟩
  · have htext := h .text
    rw [Delta.spoken, if_neg hr] at htext
    exact htext.symm
  · cases kind with
    | text =>
      by_cases hr : d.getReasoningContent = ""
      · exact if_pos hr
      · exact (if_neg hr).trans (h.1 hr).symm
    | thinking => rfl
    | input key => exact (h.2 key).symm

theorem laterInput_eq_iff : (∀ kind, d.laterInput kind = d.fragment kind) ↔
    d.getContentString = "" ∧ d.getReasoningContent = "" := by
  refine ⟨fun h => ⟨(h .text).symm, (h .thinking).symm⟩, fun h kind => ?_⟩
  cases kind with
  | text => exact h.1.symm
  | thinking => exact h.2.symm
  | input key => rfl

/-- All of a first delta is sent just when there is no content beside reasoning and no tool input but
that of a first call in place. -/
theorem first_eq_iff : (∀ kind, d.firstInput kind ++ d.spoken kind = d.fragment kind) ↔
    (d.getReasoningContent ≠ "" → d.getContentString = "") ∧ d.InPlace ∧
      ∀ t ∈ d.toolCalls.tail, t.arguments = "" := by
  have hinput : d.InPlace → ((∀ key, d.firstInput (.input key) = argumentsOf key d.toolCalls.zipIdx) ↔
      ∀ t ∈ d.toolCalls.tail, t.arguments = "") := by
    intro h
    cases hcalls : d.toolCalls with
    | nil => simp [Delta.firstInput, hcalls, argumentsOf]
    | cons t ts =>
      rw [List.tail_cons, ← argumentsOf_eq_empty_iff (k := 1)]
      refine forall_congr' fun key => ?_
      rw [firstInput_of_inPlace h hcalls, List.zipIdx_cons, argumentsOf_cons]
      conv_lhs => lhs; rw [← String.append_empty (s := ite _ _ _)]
      rw [String.append_right_inj, eq_comm]
  refine ⟨fun h => ?_, fun ⟨hsaid, hplace, htail⟩ kind => ?_⟩
  · have hplace := inPlace_of_eq fun kind => ⟨"", (h kind).trans (String.append_empty ..).symm⟩
    refine ⟨fun hr => ?_, hplace, (hinput hplace).1 fun key => ?_⟩
    · have htext := h .text
      rw [Delta.spoken, if_neg hr] at htext
      exact htext.symm
    · have hkey := h (.input key)
      rwa [Delta.spoken, String.append_empty] at hkey
  · cases kind with
    | text =>
      refine (String.empty_append ..).trans ?_
      by_cases hr : d.getReasoningContent = ""
      · exact if_pos hr
      · exact (if_neg hr).trans (hsaid hr).symm
    | thinking => exact String.empty_append ..
    | input key =>
      rw [Delta.spoken, String.append_empty]
      exact (hinput hplace).2 htail key

theorem chunk_fragment_eq_empty_iff : (∀ kind, resp.fragment kind = "") ↔
    ∀ choice ∈ resp.choices, choice.delta.IsEmpty := by
  simp only [Chunk.fragment, GoString.join_eq_empty_iff, List.forall_mem_map,
    ← fragment_eq_empty_iff]
  exact ⟨fun h choice hc kind => h kind choice hc, fun h kind choice hc => h choice hc kind⟩

theorem exists_fragment_eq_carried (h : info.sendResponseCount = 0 → ∀ choice ∈ resp.choices.head?,
    choice.delta.InPlace) (kind : Kind) : ∃ r, resp.fragment kind = carried kind info resp ++ r := by
  unfold carried
  split
  · exact ⟨_, (String.empty_append ..).symm⟩
  unfold Chunk.fragment
  cases hchoices : resp.choices with
  | nil => exact ⟨"", rfl⟩
  | cons choice others =>
    rw [hchoices] at h
    rw [List.map_cons, String.join_cons]
    dsimp only
    have hpre : ∀ {p : String}, (∃ r, choice.delta.fragment kind = p ++ r) →
        ∃ r, choice.delta.fragment kind ++ String.join (others.map (·.delta.fragment kind)) = p ++ r := by
      rintro p ⟨r, hr⟩
      exact ⟨_, by rw [hr, String.append_assoc]⟩
    split
    next hfirst => exact hpre (exists_fragment_eq_first (h hfirst choice rfl) kind)
    next hfirst =>
      split
      · exact ⟨_, (String.empty_append ..).symm⟩
      split
      · exact hpre (exists_fragment_eq_laterInput kind)
      · exact hpre (exists_fragment_eq_spoken kind)

theorem carried_eq_iff : (∀ kind, carried kind info resp = resp.fragment kind) ↔ Keeps info resp := by
  unfold carried Keeps
  split
  · rw [← chunk_fragment_eq_empty_iff]
    exact forall_congr' fun kind => eq_comm
  cases hchoices : resp.choices with
  | nil => simp [Chunk.fragment, hchoices]
  | cons choice others =>
    have hfragment : ∀ kind, resp.fragment kind = choice.delta.fragment kind ++
        Chunk.fragment kind { resp with choices := others } := fun kind => by
      rw [Chunk.fragment, hchoices, List.map_cons, String.join_cons]
      rfl
    have hothers : (∀ kind, Chunk.fragment kind { resp with choices := others } = "") ↔
        ∀ other ∈ others, other.delta.IsEmpty := chunk_fragment_eq_empty_iff
    -- what is sent is compared with the first choice, if it is a prefix of that
    have hcompare : ∀ {f : Kind → String}, (∀ kind, ∃ r, choice.delta.fragment kind = f kind ++ r) →
        ((∀ kind, f kind = resp.fragment kind) ↔ (∀ other ∈ others, other.delta.IsEmpty) ∧
          ∀ kind, f kind = choice.delta.fragment kind) := fun hf => by
      simp only [hfragment, GoString.prefix_eq_append_iff (hf _), forall_and, hothers]
    dsimp only
    split
    next hfirst =>
      by_cases hplace : choice.delta.InPlace
      · rw [hcompare (exists_fragment_eq_first hplace), first_eq_iff]
      · refine iff_of_false (fun heq => hplace (inPlace_of_eq fun kind => ?_))
          fun hkeeps => hplace hkeeps.2.2.1
        exact ⟨_, (heq kind).trans (hfragment kind)⟩
    next hfirst =>
      split
      next =>
        have hnone : ∀ kind, ∃ r, choice.delta.fragment kind = "" ++ r :=
          fun kind => ⟨_, (String.empty_append ..).symm⟩
        rw [hcompare hnone, ← fragment_eq_empty_iff]
        simp only [eq_comm (a := "")]
      next =>
        split
        next => rw [hcompare exists_fragment_eq_laterInput, laterInput_eq_iff]
        next htools =>
          rw [hcompare exists_fragment_eq_spoken, spoken_eq_iff, not_not.1 htools]
          simp

/-- A chunk is sent in whole or a text as long is missing for good: the deltas of a stream that has
started are as many as came in just when each chunk is kept. -/
theorem carriedAll_later (chunks : List Chunk) (h : info.sendResponseCount ≠ 0) :
    (∀ kind, (carriedAll kind info chunks).length ≤
        (String.join (chunks.map (Chunk.fragment kind))).length) ∧
      ((∀ kind, carriedAll kind info chunks = String.join (chunks.map (Chunk.fragment kind))) ↔
        Meets step Keeps info chunks) := by
  induction chunks generalizing info with
  | nil => exact ⟨fun _ => Nat.le_refl _, iff_of_true (fun _ => String.join_nil.symm) trivial⟩
  | cons resp rest ih =>
    have hnext : (step info resp).sendResponseCount ≠ 0 := by
      rw [step_count]
      exact Nat.succ_ne_zero _
    obtain ⟨hlen, heq⟩ := ih hnext
    have hpre : ∀ kind, ∃ r, resp.fragment kind = carried kind info resp ++ r :=
      exists_fragment_eq_carried fun h0 => absurd h0 h
    refine ⟨fun kind => ?_, ?_⟩
    · obtain ⟨r, hr⟩ := hpre kind
      have hrest := hlen kind
      rw [carriedAll, List.map_cons, String.join_cons, hr]
      simp only [String.length_append]
      omega
    · rw [Meets, ← carried_eq_iff, ← heq, ← forall_and]
      refine forall_congr' fun kind => ?_
      rw [carriedAll, List.map_cons, String.join_cons,
        GoString.append_eq_iff_of_prefix (hpre kind) (hlen kind)]

end

/-- The record of a stream before its first chunk. -/
def start (estimatePromptTokens : Int) : RelayInfo := { estimatePromptTokens }

/-- A converted stream loses nothing exactly when each chunk is kept by the record it meets. -/
theorem lossless_iff (estimatePromptTokens : Int) (chunks : List Chunk) :
    Lossless (start estimatePromptTokens) chunks ↔
      Meets step Keeps (start estimatePromptTokens) chunks := by
  have hstart : (start estimatePromptTokens).At 0 := ⟨fun _ => rfl, .inr rfl⟩
  unfold Lossless
  simp only [emitted_sent hstart]
  cases chunks with
  | nil => exact iff_of_true (fun _ => String.join_nil.symm) trivial
  | cons resp rest =>
    have hcount : (step (start estimatePromptTokens) resp).sendResponseCount ≠ 0 :=
      Nat.succ_ne_zero _
    obtain ⟨hlen, heq⟩ := carriedAll_later rest hcount
    by_cases hplace : ∀ choice ∈ resp.choices.head?, choice.delta.InPlace
    · rw [Meets, ← carried_eq_iff, ← heq, ← forall_and]
      refine forall_congr' fun kind => ?_
      rw [carriedAll, List.map_cons, String.join_cons,
        GoString.append_eq_iff_of_prefix (exists_fragment_eq_carried (fun _ => hplace) kind) (hlen kind)]
    · -- a misplaced tool call is lost to its index, whatever comes after it
      obtain ⟨choice, others, hchoices⟩ : ∃ choice others, resp.choices = choice :: others := by
        cases hchoices : resp.choices with
        | nil => exact absurd (by simp [hchoices]) hplace
        | cons choice others => exact ⟨choice, others, rfl⟩
      have hfirst : ¬ choice.delta.InPlace := by simpa [hchoices] using hplace
      refine iff_of_false (fun hall => hfirst (inPlace_of_eq fun kind => ?_)) fun hkeeps => ?_
      · have hkind := hall kind
        rw [carriedAll, List.map_cons, String.join_cons] at hkind
        obtain ⟨r, hr⟩ := GoString.exists_append_of_append_eq hkind (hlen kind)
        rw [Chunk.fragment, hchoices, List.map_cons, String.join_cons, String.append_assoc] at hr
        refine ⟨_, Eq.trans ?_ hr⟩
        simp [carried, start, hchoices]
      · have hkeep := hkeeps.1
        rw [Keeps, hchoices] at hkeep
        exact hfirst hkeep.2.2.1

/-- Content, then content with the finish reason, then the usage in a chunk of its own. -/
def deferredUsage : List Chunk :=
  [{ choices := [{ delta := { content := some "a" } }] },
    { choices := [{ delta := { content := some "b" }, finishReason := some "stop" }] },
    { usage := some ⟨1, 2, 0, 0, 0, 0⟩ }]

/-- The content of a chunk that finishes without usage is lost. -/
theorem deferredUsage_not_lossless : ¬ Lossless (start 0) deferredUsage := by
  intro h
  have htext := h .text
  have hsent : emitted .text 0 (sent (start 0) deferredUsage) = "a" := by decide
  have hheld : String.join (deferredUsage.map (Chunk.fragment .text)) = "ab" := by decide
  rw [hsent, hheld] at htext
  exact absurd htext (by decide)

end NewApi.Stream

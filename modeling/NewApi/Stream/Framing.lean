import NewApi.Stream.Blocks
import NewApi.Stream.Handlers

/-!
# The frame of a converted stream

A message opens with `message_start`, and closes with `message_delta` and `message_stop` once its blocks
have stopped. The converter opens the message on the chunk that is counted first, and closes it on a chunk
that finishes with a usage, or that has no choices once the usage is known. The last chunk of a chat stream
is not counted, so that a stream of one chunk is not opened and one of two is opened twice; and a chunk that
finishes without a usage is dropped. The stop chunk of a Responses stream carries no usage.
-/

namespace NewApi.Stream

/-! ## Frames -/

/-- An event of a content block. -/
def ClaudeResponse.IsBlock : ClaudeResponse → Prop
  | .contentBlockStart .. | .contentBlockDelta .. | .contentBlockStop _ => True
  | _ => False

/-- Every block that starts is stopped by a later event, or is one of `o`. -/
def Covers (o : List Int) : List ClaudeResponse → Prop
  | [] => True
  | e :: es =>
    (match e with
      | .contentBlockStart i _ => i ∈ o ∨ .contentBlockStop i ∈ es
      | _ => True) ∧ Covers o es

/-- The events are a whole message: it starts once and first, its delta and its stop come once and at the
very end, and between them are the events of blocks that have all been stopped. -/
def Framed (es : List ClaudeResponse) : Prop :=
  ∃ id model inputTokens body usage stopReason,
    es = .messageStart id model inputTokens :: body ++ [.messageDelta usage stopReason, .messageStop] ∧
      (∀ e ∈ body, e.IsBlock) ∧ Covers [] body

/-- The events that are not of a block. -/
inductive Frame
  | start
  | delta
  | stop
deriving DecidableEq

/-- What an event is in the frame. -/
def ClaudeResponse.frame? : ClaudeResponse → Option Frame
  | .messageStart .. => some .start
  | .messageDelta .. => some .delta
  | .messageStop => some .stop
  | _ => none

/-- The frame of events. -/
def outline (es : List ClaudeResponse) : List Frame := es.filterMap ClaudeResponse.frame?

section
variable {o o' : List Int} {es es' : List ClaudeResponse}

theorem outline_append : outline (es ++ es') = outline es ++ outline es' := List.filterMap_append

theorem outline_eq_nil (h : ∀ e ∈ es, e.IsBlock) : outline es = [] := by
  refine List.filterMap_eq_nil_iff.2 fun e he => ?_
  have hblock := h e he
  cases e with
  | messageStart | messageDelta | messageStop => cases hblock
  | contentBlockStart | contentBlockDelta | contentBlockStop => rfl

theorem Framed.outline (h : Framed es) : outline es = [.start, .delta, .stop] := by
  obtain ⟨id, model, inputTokens, body, usage, stopReason, rfl, hblocks, -⟩ := h
  show Frame.start :: Stream.outline (body ++ _) = _
  rw [outline_append, outline_eq_nil hblocks]
  rfl

theorem Covers.append (h : Covers o es) (hopen : ∀ i ∈ o, i ∈ o' ∨ .contentBlockStop i ∈ es')
    (h' : Covers o' es') : Covers o' (es ++ es') := by
  induction es with
  | nil => exact h'
  | cons e es ih =>
    obtain ⟨he, hrest⟩ := h
    refine ⟨?_, ih hrest⟩
    cases e with
    | contentBlockStart i block =>
      rcases he with hmem | hstop
      · exact (hopen i hmem).imp_right (List.mem_append_right es)
      · exact .inr (List.mem_append_left es' hstop)
    | messageStart | messageDelta | messageStop | contentBlockDelta | contentBlockStop => trivial

theorem covers_of_forall (h : ∀ i block, .contentBlockStart i block ∈ es → i ∈ o) : Covers o es := by
  induction es with
  | nil => trivial
  | cons e es ih =>
    refine ⟨?_, ih fun i block hmem => h i block (List.mem_cons_of_mem _ hmem)⟩
    cases e with
    | contentBlockStart i block => exact .inl (h i block List.mem_cons_self)
    | messageStart | messageDelta | messageStop | contentBlockDelta | contentBlockStop => trivial

theorem covers_stops {js : List Int} : Covers o (js.map .contentBlockStop) := by
  refine covers_of_forall fun i block hmem => ?_
  obtain ⟨j, -, heq⟩ := List.mem_map.1 hmem
  cases heq

end

/-! ## The events of one chunk -/

/-- The indices of the tool calls are not negative. -/
def Chunk.WellFormed (resp : Chunk) : Prop :=
  ∀ choice ∈ resp.choices, ∀ toolCall ∈ choice.delta.toolCalls, ∀ i ∈ toolCall.index, (0 : Int) ≤ i

instance : DecidablePred Chunk.WellFormed := fun resp =>
  inferInstanceAs (Decidable (∀ choice ∈ resp.choices, _))

namespace Conv

/-- From one point of the conversion to another, events of blocks are appended, and blocks that have not been
stopped are open. -/
structure Grows (c c' : Conv) : Prop where
  out : ∃ es, c'.out = c.out ++ es ∧ (∀ e ∈ es, e.IsBlock) ∧ Covers c'.info.openBlocks es ∧
    ∀ i ∈ c.info.openBlocks, i ∈ c'.info.openBlocks ∨ .contentBlockStop i ∈ es
  done : c'.info.done = c.info.done
  usage : c'.info.usage = c.info.usage

section
variable {c c' c'' : Conv} {es : List ClaudeResponse} {t : LastMessagesType} {block : ContentBlock}

theorem Grows.refl (c : Conv) : Grows c c :=
  ⟨⟨[], (List.append_nil _).symm, List.forall_mem_nil _, trivial, fun _ => .inl⟩, rfl, rfl⟩

theorem Grows.trans (h : Grows c c') (h' : Grows c' c'') : Grows c c'' := by
  obtain ⟨⟨es, hout, hblocks, hcovers, hopen⟩, hdone, husage⟩ := h
  obtain ⟨⟨es', hout', hblocks', hcovers', hopen'⟩, hdone', husage'⟩ := h'
  refine ⟨⟨es ++ es', ?_, ?_, hcovers.append hopen' hcovers', ?_⟩, hdone'.trans hdone,
    husage'.trans husage⟩
  · rw [hout', hout, List.append_assoc]
  · exact fun e he => (List.mem_append.1 he).elim (hblocks e) (hblocks' e)
  · intro i hi
    rcases hopen i hi with hmem | hstop
    · exact (hopen' i hmem).imp_right (List.mem_append_right es)
    · exact .inr (List.mem_append_left es' hstop)

theorem grows_emit (hblocks : ∀ e ∈ es, e.IsBlock) (hcovers : Covers c.info.openBlocks es) :
    Grows c (c.emit es) :=
  ⟨⟨es, rfl, hblocks, hcovers, fun _ => .inl⟩, rfl, rfl⟩

theorem grows_finishedBy (choice : Choice) : Grows c (c.finishedBy choice) :=
  ⟨⟨[], (List.append_nil _).symm, List.forall_mem_nil _, trivial, fun _ => .inl⟩, rfl, rfl⟩

theorem isBlock_stops {js : List Int} : ∀ e ∈ js.map ClaudeResponse.contentBlockStop, e.IsBlock := by
  intro e he
  obtain ⟨j, -, rfl⟩ := List.mem_map.1 he
  trivial

theorem grows_stopOpenBlocksAndAdvance :
    Grows c c.stopOpenBlocksAndAdvance ∧ c.stopOpenBlocksAndAdvance.info.openBlocks = [] := by
  unfold Conv.stopOpenBlocksAndAdvance
  cases htype : c.info.lastMessagesType with
  | none =>
    refine ⟨.refl c, ?_⟩
    unfold ClaudeConvertInfo.openBlocks
    rw [htype]
  | text | thinking | tools =>
    refine ⟨⟨⟨c.info.openBlocks.map .contentBlockStop, rfl, isBlock_stops, covers_stops, ?_⟩, rfl,
      rfl⟩, rfl⟩
    exact fun i hi => .inr (List.mem_map_of_mem hi)

theorem grows_start (hopen : c.info.openBlocks = []) (ht : t = .text ∨ t = .thinking) (es : List ClaudeResponse)
    (hblocks : ∀ e ∈ es, e.IsBlock) (hcovers : Covers [c.info.index] es) :
    Grows c ((c.emit es).setType t) := by
  have hopen' : ((c.emit es).setType t).info.openBlocks = [c.info.index] := by
    unfold ClaudeConvertInfo.openBlocks
    rcases ht with rfl | rfl
    · rfl
    · rfl
  refine ⟨⟨es, rfl, hblocks, ?_, ?_⟩, rfl, rfl⟩
  · rw [hopen']
    exact hcovers
  · rw [hopen]
    exact fun _ hi => absurd hi List.not_mem_nil

theorem mem_openBlocks {info : ClaudeConvertInfo} (htype : info.lastMessagesType = .tools) {i : Int} :
    i ∈ info.openBlocks ↔
      info.toolCallBaseIndex ≤ i ∧ i ≤ info.toolCallBaseIndex + info.toolCallMaxIndexOffset := by
  unfold ClaudeConvertInfo.openBlocks
  rw [htype]
  dsimp only
  rw [List.mem_map]
  constructor
  · rintro ⟨k, hk, rfl⟩
    rw [List.mem_range] at hk
    omega
  · rintro ⟨hlow, hhigh⟩
    refine ⟨(i - info.toolCallBaseIndex).toNat, List.mem_range.2 (by omega), ?_⟩
    rw [Int.toNat_of_nonneg (by omega)]
    omega

theorem offset_le_maxOffset {max₀ : Int} {calls : List (ToolCall × Nat)} {p : ToolCall × Nat}
    (hp : p ∈ calls) : offset p ≤ maxOffset max₀ calls := by
  induction calls generalizing max₀ with
  | nil => cases hp
  | cons q calls ih =>
    rcases List.mem_cons.1 hp with rfl | hp
    · exact Int.le_trans (Int.le_max_right ..) le_maxOffset
    · exact ih hp

theorem mem_toolCallEvents {base : Int} {p : ToolCall × Nat} {e : ClaudeResponse}
    (he : e ∈ toolCallEvents base p) :
    e.IsBlock ∧ ∀ i block, e = .contentBlockStart i block → i = base + offset p := by
  unfold toolCallEvents at he
  rcases List.mem_append.1 he with he | he
  · split at he
    · rw [List.mem_singleton.1 he]
      refine ⟨trivial, fun i block heq => ?_⟩
      cases heq
      rfl
    · cases he
  · split at he
    · rw [List.mem_singleton.1 he]
      exact ⟨trivial, nofun⟩
    · cases he

theorem grows_toolDeltas {calls : List ToolCall}
    (hcalls : ∀ toolCall ∈ calls, ∀ i ∈ toolCall.index, (0 : Int) ≤ i) : Grows c (c.toolDeltas calls) := by
  have hopened : ∃ c', (if c.info.lastMessagesType ≠ .tools then
        c.stopOpenBlocksAndAdvance.openTools c.stopOpenBlocksAndAdvance.info.index
      else c) = c' ∧ Grows c c' ∧ c'.info.lastMessagesType = .tools := by
    split
    next =>
      obtain ⟨hgrows, hnil⟩ := @grows_stopOpenBlocksAndAdvance c
      refine ⟨_, rfl, hgrows.trans ⟨⟨[], (List.append_nil _).symm, List.forall_mem_nil _, trivial, ?_⟩, rfl, rfl⟩, rfl⟩
      rw [hnil]
      exact fun _ hi => absurd hi List.not_mem_nil
    next htype => exact ⟨c, rfl, .refl c, not_not.1 htype⟩
  obtain ⟨c', heq, hgrows, htype⟩ := hopened
  refine hgrows.trans ?_
  unfold Conv.toolDeltas
  dsimp only
  rw [heq]
  have hoffset : ∀ p ∈ calls.zipIdx, 0 ≤ offset p := by
    intro p hp
    unfold offset
    cases hindex : p.1.index with
    | none => exact Int.natCast_nonneg _
    | some i => exact hcalls p.1 (List.fst_mem_of_mem_zipIdx hp) i hindex
  have hmax : c'.info.toolCallMaxIndexOffset ≤ maxOffset c'.info.toolCallMaxIndexOffset calls.zipIdx :=
    le_maxOffset
  have hopen := @mem_openBlocks { c'.info with
    toolCallMaxIndexOffset := maxOffset c'.info.toolCallMaxIndexOffset calls.zipIdx
    index := c'.info.toolCallBaseIndex + maxOffset c'.info.toolCallMaxIndexOffset calls.zipIdx } htype
  refine ⟨⟨_, rfl, fun e he => ?_, covers_of_forall fun i block he => ?_, fun i hi => .inl ?_⟩, rfl, rfl⟩
  · obtain ⟨p, -, hmem⟩ := List.mem_flatMap.1 he
    exact (mem_toolCallEvents hmem).1
  · obtain ⟨p, hp, hmem⟩ := List.mem_flatMap.1 he
    have hle : offset p ≤ maxOffset c'.info.toolCallMaxIndexOffset calls.zipIdx := offset_le_maxOffset hp
    rw [(mem_toolCallEvents hmem).2 i block rfl]
    exact hopen.2 ⟨Int.le_add_of_nonneg_right (hoffset p hp), Int.add_le_add_left hle _⟩
  · obtain ⟨hlow, hhigh⟩ := (mem_openBlocks htype).1 hi
    exact hopen.2 ⟨hlow, Int.le_trans hhigh (Int.add_le_add_left hmax _)⟩

theorem grows_openBlock (ht : t = .text ∨ t = .thinking) (block : ContentBlock) :
    Grows c (c.openBlock t block) := by
  unfold Conv.openBlock
  split
  next =>
    obtain ⟨hgrows, hnil⟩ := @grows_stopOpenBlocksAndAdvance c
    refine hgrows.trans (grows_start hnil ht _ ?_ ?_)
    · intro e he
      rw [List.mem_singleton.1 he]
      trivial
    · exact ⟨.inl (List.mem_singleton.2 rfl), trivial⟩
  next => exact .refl c

theorem grows_delta (i : Int) (delta : BlockDelta) : Grows c (c.emit [.contentBlockDelta i delta]) := by
  refine grows_emit (fun e he => ?_) ⟨trivial, trivial⟩
  rw [List.mem_singleton.1 he]
  trivial

theorem grows_deltas {choice : Choice}
    (hcalls : ∀ toolCall ∈ choice.delta.toolCalls, ∀ i ∈ toolCall.index, (0 : Int) ≤ i) :
    Grows c (c.deltas choice) := by
  unfold Conv.deltas
  dsimp only
  split
  · exact grows_toolDeltas hcalls
  split
  · exact (grows_openBlock (.inr rfl) .thinking).trans (grows_delta _ _)
  split
  · exact (grows_openBlock (.inl rfl) .text).trans (grows_delta _ _)
  · exact .refl c

theorem grows_firstToolCall (hnone : c.info.openBlocks = []) (choice : Choice) :
    Grows c (c.firstToolCall choice) := by
  unfold Conv.firstToolCall
  split
  next => exact .refl c
  next toolCall rest _ =>
    have hopen : Grows c (c.openTools 0) := by
      refine ⟨⟨[], (List.append_nil _).symm, List.forall_mem_nil _, trivial, ?_⟩, rfl, rfl⟩
      rw [hnone]
      exact fun _ hi => absurd hi List.not_mem_nil
    have hstart : Grows c ((c.openTools 0).emit
        [.contentBlockStart 0 (.toolUse toolCall.id toolCall.name)]) := by
      refine hopen.trans (grows_emit (fun e he => ?_) ⟨.inl ?_, trivial⟩)
      · rw [List.mem_singleton.1 he]
        trivial
      · exact List.mem_cons_self
    dsimp only
    split
    · exact hstart.trans (grows_delta _ _)
    · exact hstart

theorem grows_firstContent (choice : Choice) (htype : c.info.lastMessagesType ≠ .text)
    (htype' : c.info.lastMessagesType ≠ .thinking) : Grows c (c.firstContent choice) := by
  have hspeak : ∀ t block delta, t = .text ∨ t = .thinking → c.info.lastMessagesType ≠ t →
      Grows c (((c.advanceTo t).emit [.contentBlockStart (c.advanceTo t).info.index block,
        .contentBlockDelta (c.advanceTo t).info.index delta]).setType t) := by
    intro t block delta ht hne
    have hadvance : c.advanceTo t = c.stopOpenBlocksAndAdvance := if_pos hne
    rw [hadvance]
    obtain ⟨hgrows, hnil⟩ := @grows_stopOpenBlocksAndAdvance c
    refine hgrows.trans (grows_start hnil ht _ ?_ ?_)
    · intro e he
      rcases List.mem_cons.1 he with rfl | he
      · trivial
      · rw [List.mem_singleton.1 he]
        trivial
    · exact ⟨.inl (List.mem_singleton.2 rfl), trivial, trivial⟩
  unfold Conv.firstContent
  dsimp only
  split
  · exact hspeak .thinking .thinking _ (.inr rfl) htype'
  split
  · exact hspeak .text .text _ (.inl rfl) htype
  · exact .refl c

/-! ### Closing -/

/-- From one point of the conversion to another, all open blocks are stopped and the message is closed. -/
structure Closes (c c' : Conv) : Prop where
  out : ∃ es usage stopReason,
    c'.out = c.out ++ es ++ [.messageDelta usage stopReason, .messageStop] ∧ (∀ e ∈ es, e.IsBlock) ∧
      Covers [] es ∧ ∀ i ∈ c.info.openBlocks, .contentBlockStop i ∈ es
  done : c'.info.done = true

theorem Grows.stopped (h : Grows c c') :
    ∃ es, c'.stopOpenBlocks.out = c.out ++ es ∧ (∀ e ∈ es, e.IsBlock) ∧ Covers [] es ∧
      ∀ i ∈ c.info.openBlocks, .contentBlockStop i ∈ es := by
  obtain ⟨es, hout, hblocks, hcovers, hopen⟩ := h.out
  refine ⟨es ++ c'.info.openBlocks.map .contentBlockStop, ?_, ?_, ?_, ?_⟩
  · show c'.out ++ _ = _
    rw [hout, List.append_assoc]
  · exact fun e he => (List.mem_append.1 he).elim (hblocks e) (isBlock_stops e)
  · exact hcovers.append (fun i hi => .inr (List.mem_map_of_mem hi)) covers_stops
  · intro i hi
    rcases hopen i hi with hmem | hstop
    · exact List.mem_append_right _ (List.mem_map_of_mem hmem)
    · exact List.mem_append_left _ hstop

theorem Grows.closes (h : Grows c c') (u : Usage) (stopReason : String) :
    Closes c (c'.stopOpenBlocks.closeMessage (some u) stopReason) := by
  obtain ⟨es, hout, hblocks, hcovers, hopen⟩ := h.stopped
  refine ⟨⟨es, buildClaudeUsageFromOpenAIUsage u, stopReason, ?_, hblocks, hcovers, hopen⟩, rfl⟩
  show (c'.stopOpenBlocks.out ++ [_]) ++ [_] = _
  rw [hout, List.append_assoc]
  rfl

end

/-! ### The first chunk -/

section
variable {c : Conv} {t : LastMessagesType} {choice : Choice} {resp : Chunk} {estimatePromptTokens : Int}

theorem lastMessagesType_firstToolCall (hnone : c.info.lastMessagesType = .none) :
    (c.firstToolCall choice).info.lastMessagesType ≠ .text ∧
      (c.firstToolCall choice).info.lastMessagesType ≠ .thinking := by
  unfold Conv.firstToolCall
  split
  next =>
    rw [hnone]
    exact ⟨nofun, nofun⟩
  next =>
    dsimp only
    split
    · exact ⟨nofun, nofun⟩
    · exact ⟨nofun, nofun⟩

theorem grows_first (hnone : c.info.lastMessagesType = .none) :
    Grows c ((c.firstToolCall choice).firstContent choice) := by
  have hopen : c.info.openBlocks = [] := by
    unfold ClaudeConvertInfo.openBlocks
    rw [hnone]
  obtain ⟨htext, hthinking⟩ := @lastMessagesType_firstToolCall c choice hnone
  exact (grows_firstToolCall hopen choice).trans (grows_firstContent choice htext hthinking)

/-! What has been sent stays, whatever is open. -/

theorem out_advanceTo (t : LastMessagesType) (c : Conv) : c.out <+: (c.advanceTo t).out := by
  unfold Conv.advanceTo Conv.stopOpenBlocksAndAdvance
  split
  · split
    · exact List.prefix_rfl
    · exact List.prefix_append ..
    · exact List.prefix_append ..
    · exact List.prefix_append ..
  · exact List.prefix_rfl

theorem out_firstToolCall (choice : Choice) (c : Conv) : c.out <+: (c.firstToolCall choice).out := by
  unfold Conv.firstToolCall
  split
  · exact List.prefix_rfl
  dsimp only
  split
  · exact (List.prefix_append ..).trans (List.prefix_append ..)
  · exact List.prefix_append ..

theorem out_firstContent (choice : Choice) (c : Conv) : c.out <+: (c.firstContent choice).out := by
  unfold Conv.firstContent
  dsimp only
  split
  · exact (out_advanceTo _ c).trans (List.prefix_append ..)
  split
  · exact (out_advanceTo _ c).trans (List.prefix_append ..)
  · exact List.prefix_rfl

theorem out_firstFinish (resp : Chunk) (choice : Choice) (c : Conv) :
    c.out <+: (c.firstFinish resp choice).out := by
  unfold Conv.firstFinish
  split
  · exact ((List.prefix_append ..).trans (List.prefix_append ..)).trans (List.prefix_append ..)
  · exact List.prefix_rfl

end

end Conv

/-- A chunk that is not the first closes the message: it finishes with a usage, or has no choices where the
usage is known. -/
def ClosesWith (known : Bool) (resp : Chunk) : Prop :=
  match resp.choices with
  | [] => known ∨ resp.usage.isSome
  | choice :: _ => choice.isFinished ∧ resp.usage.isSome

instance (known : Bool) (resp : Chunk) : Decidable (ClosesWith known resp) :=
  match h : resp.choices with
  | [] => decidable_of_iff (known ∨ resp.usage.isSome) (by rw [ClosesWith, h])
  | choice :: _ => decidable_of_iff (choice.isFinished ∧ resp.usage.isSome) (by rw [ClosesWith, h])

section
variable {info : RelayInfo} {resp : Chunk}

/-- What a chunk that is not counted as the first does: it closes the message, or sends events of blocks. -/
theorem convert_later (hdone : info.claudeConvertInfo.done = false) (hcount : info.sendResponseCount ≠ 1)
    (hresp : resp.WellFormed) :
    ∃ c : Conv, streamResponseOpenAI2Claude resp info = (c.out, { info with claudeConvertInfo := c.info }) ∧
      (ClosesWith info.claudeConvertInfo.usage.isSome resp →
        Conv.Closes { info := info.claudeConvertInfo } c) ∧
      (¬ ClosesWith info.claudeConvertInfo.usage.isSome resp →
        Conv.Grows { info := info.claudeConvertInfo } c) := by
  unfold streamResponseOpenAI2Claude
  rw [if_neg (Bool.eq_false_iff.1 hdone)]
  dsimp only
  rw [if_neg hcount]
  refine ⟨_, rfl, ?_⟩
  unfold ClosesWith
  cases hchoices : resp.choices with
  | nil =>
    dsimp only
    unfold Conv.usageOnly
    cases hresp : resp.usage with
    | some u =>
      exact ⟨fun _ => (Conv.Grows.refl _).closes u _, fun hnot => absurd (.inr rfl) hnot⟩
    | none =>
      dsimp only
      cases husage : info.claudeConvertInfo.usage with
      | some u => exact ⟨fun _ => (Conv.Grows.refl _).closes u _, fun hnot => absurd (.inl rfl) hnot⟩
      | none => exact ⟨fun hor => hor.elim nofun nofun, fun _ => .refl _⟩
  | cons choice rest =>
    have hcalls := hresp choice (hchoices ▸ List.mem_cons_self)
    dsimp only
    unfold Conv.later
    dsimp only
    have hfinished : Conv.Grows { info := info.claudeConvertInfo }
        (if choice.isFinished then Conv.finishedBy choice { info := info.claudeConvertInfo }
          else { info := info.claudeConvertInfo }) := by
      split
      · exact Conv.grows_finishedBy choice
      · exact .refl _
    generalize (if choice.isFinished then Conv.finishedBy choice { info := info.claudeConvertInfo }
      else { info := info.claudeConvertInfo }) = c at hfinished ⊢
    have hgrows := hfinished.trans (@Conv.grows_deltas c choice hcalls)
    have hdone' := hgrows.done.trans hdone
    by_cases hfin : choice.isFinished = true
    · have hlast : choice.isFinished = true ∨ (c.deltas choice).info.done = true := .inl hfin
      cases husage : resp.usage with
      | none =>
        rw [if_pos ⟨hfin, rfl⟩]
        exact ⟨fun hand => (nomatch hand.2), fun _ => hfinished⟩
      | some u =>
        have hkept : ¬ (choice.isFinished = true ∧ some u = none) := fun hand => nomatch hand.2
        rw [if_neg hkept, if_pos hlast]
        exact ⟨fun _ => hgrows.closes u _, fun hnot => absurd ⟨hfin, rfl⟩ hnot⟩
    · have hkept : ¬ (choice.isFinished = true ∧ resp.usage = none) := fun hand => hfin hand.1
      have hgoes : ¬ (choice.isFinished = true ∨ (c.deltas choice).info.done = true) := by
        rw [hdone']
        exact fun hor => hor.elim hfin nofun
      rw [if_neg hkept, if_neg hgoes]
      exact ⟨fun hand => absurd hand.1 hfin, fun _ => hgrows⟩

end

/-! ## Chat streams -/

/-- What `OaiStreamHandler` sends, chunk by chunk. -/
def converted (usage : Usage) (info : RelayInfo) : List Chunk → List ClaudeResponse
  | [] => []
  | [last] => (handleFinalResponse usage info last).1
  | resp :: resp' :: rest =>
    (handleStreamFormat info resp).1 ++ converted usage (step info resp) (resp' :: rest)

/-- A stream after its first chunk closes the message: one of its chunks does, the last one with the usage that
was found or estimated. -/
def EndsIn (known : Bool) : List Chunk → Prop
  | [] => False
  | [last] => ClosesWith true last
  | resp :: resp' :: rest =>
    ClosesWith known resp ∨ EndsIn (known || resp.usage.isSome) (resp' :: rest)

/-- `IsFinished`. -/
def Chunk.isFinished (resp : Chunk) : Bool := resp.choices.head?.any Choice.isFinished

/-- A stream has a whole message: its first chunk finishes with a usage and is not the last one, or it does not
finish, two more chunks follow, and one of them closes the message. -/
def EndsWell : List Chunk → Prop
  | [] => False
  | first :: rest =>
    if first.isFinished then rest ≠ [] ∧ first.usage.isSome
    else 2 ≤ rest.length ∧ EndsIn first.usage.isSome rest

instance decidableEndsIn : ∀ (known : Bool) (chunks : List Chunk), Decidable (EndsIn known chunks)
  | _, [] => inferInstanceAs (Decidable False)
  | _, [last] => inferInstanceAs (Decidable (ClosesWith true last))
  | known, resp :: resp' :: rest =>
    have := decidableEndsIn (known || resp.usage.isSome) (resp' :: rest)
    inferInstanceAs (Decidable (ClosesWith known resp ∨ EndsIn _ (resp' :: rest)))

instance : DecidablePred EndsWell
  | [] => inferInstanceAs (Decidable False)
  | first :: rest => inferInstanceAs (Decidable (if first.isFinished then rest ≠ [] ∧ _ else _ ∧ _))

/-- The message has been opened and not closed, and blocks that have not been stopped are open. -/
structure Running (info : RelayInfo) (sent : List ClaudeResponse) : Prop where
  done : info.claudeConvertInfo.done = false
  sent : ∃ id model inputTokens body, sent = .messageStart id model inputTokens :: body ∧
    (∀ e ∈ body, e.IsBlock) ∧ Covers info.claudeConvertInfo.openBlocks body

section
variable {info : RelayInfo} {sent : List ClaudeResponse} {resp : Chunk} {usage : Usage} {c : Conv}
  {rest : List Chunk}

theorem Running.outline (h : Running info sent) : outline sent = [.start] := by
  obtain ⟨id, model, inputTokens, body, rfl, hblocks, -⟩ := h.sent
  exact congrArg (Frame.start :: ·) (outline_eq_nil hblocks)

theorem Running.not_framed (h : Running info sent) : ¬ Framed sent := fun hframed =>
  absurd (h.outline.symm.trans hframed.outline) (by decide)

theorem Running.grows (h : Running info sent) (hc : Conv.Grows { info := info.claudeConvertInfo } c) :
    Running { info with claudeConvertInfo := c.info } (sent ++ c.out) := by
  obtain ⟨id, model, inputTokens, body, rfl, hblocks, hcovers⟩ := h.sent
  obtain ⟨es, hout, hes, hcovers', hopen⟩ := hc.out
  have hout' : c.out = es := hout
  refine ⟨hc.done.trans h.done, id, model, inputTokens, body ++ es, ?_, ?_,
    hcovers.append hopen hcovers'⟩
  · rw [hout']
    rfl
  · exact fun e he => (List.mem_append.1 he).elim (hblocks e) (hes e)

theorem Running.closes (h : Running info sent) (hc : Conv.Closes { info := info.claudeConvertInfo } c) :
    Framed (sent ++ c.out) := by
  obtain ⟨id, model, inputTokens, body, rfl, hblocks, hcovers⟩ := h.sent
  obtain ⟨es, usage, stopReason, hout, hes, hcovers', hopen⟩ := hc.out
  have hout' : c.out = es ++ [.messageDelta usage stopReason, .messageStop] := hout
  refine ⟨id, model, inputTokens, body ++ es, usage, stopReason, ?_, ?_,
    hcovers.append (fun i hi => .inr (hopen i hi)) hcovers'⟩
  · rw [hout', ← List.append_assoc]
    rfl
  · exact fun e he => (List.mem_append.1 he).elim (hblocks e) (hes e)

theorem closesWith_or (u : Option Usage) :
    ClosesWith (resp.usage <|> u).isSome resp ↔ ClosesWith u.isSome resp := by
  unfold ClosesWith
  cases resp.choices with
  | nil =>
    cases resp.usage with
    | none => exact Iff.rfl
    | some => exact iff_of_true (.inl rfl) (.inr rfl)
  | cons => exact Iff.rfl

theorem handleStreamFormat_later (h : Running info sent) (hcount : 1 ≤ info.sendResponseCount)
    (hresp : resp.WellFormed) :
    (ClosesWith info.claudeConvertInfo.usage.isSome resp →
        Framed (sent ++ (handleStreamFormat info resp).1) ∧ (step info resp).claudeConvertInfo.done = true) ∧
      (¬ ClosesWith info.claudeConvertInfo.usage.isSome resp →
        Running (step info resp) (sent ++ (handleStreamFormat info resp).1) ∧
          (step info resp).sendResponseCount = info.sendResponseCount + 1 ∧
          (step info resp).claudeConvertInfo.usage.isSome =
            (info.claudeConvertInfo.usage.isSome || resp.usage.isSome)) := by
  have hrunning : Running { info with
      sendResponseCount := info.sendResponseCount + 1
      claudeConvertInfo := { info.claudeConvertInfo with
        usage := resp.usage <|> info.claudeConvertInfo.usage } } sent := ⟨h.done, h.sent⟩
  obtain ⟨c, heq, hcloses, hgrows⟩ := convert_later hrunning.done
    (Nat.ne_of_gt (Nat.succ_lt_succ hcount)) hresp
  unfold step handleStreamFormat
  rw [heq]
  refine ⟨fun hclose => ?_, fun hnot => ?_⟩
  · have hc := hcloses ((closesWith_or _).2 hclose)
    exact ⟨hrunning.closes hc, hc.done⟩
  · have hc := hgrows fun hclose => hnot ((closesWith_or _).1 hclose)
    refine ⟨hrunning.grows hc, rfl, ?_⟩
    refine (congrArg Option.isSome hc.usage).trans ?_
    show (resp.usage <|> info.claudeConvertInfo.usage).isSome = _
    cases resp.usage with
    | none => exact (Bool.or_false _).symm
    | some => exact (Bool.or_true _).symm

theorem handleFinalResponse_iff (h : Running info sent) (hcount : info.sendResponseCount ≠ 1)
    (hresp : resp.WellFormed) :
    Framed (sent ++ (handleFinalResponse usage info resp).1) ↔ ClosesWith true resp := by
  have hrunning : Running { info with
      claudeConvertInfo := { info.claudeConvertInfo with usage := some usage } } sent := ⟨h.done, h.sent⟩
  obtain ⟨c, heq, hcloses, hgrows⟩ := convert_later hrunning.done hcount hresp
  unfold handleFinalResponse
  rw [heq]
  by_cases hclose : ClosesWith true resp
  · exact iff_of_true (hrunning.closes (hcloses hclose)) hclose
  · exact iff_of_false (hrunning.grows (hgrows hclose)).not_framed hclose

theorem converted_of_done (h : info.claudeConvertInfo.done = true) : converted usage info rest = [] := by
  induction rest generalizing info with
  | nil => rfl
  | cons resp rest ih =>
    cases rest with
    | nil =>
      unfold converted handleFinalResponse streamResponseOpenAI2Claude
      rw [if_pos h]
    | cons resp' rest =>
      have hformat : handleStreamFormat info resp = ([], { info with
          sendResponseCount := info.sendResponseCount + 1
          claudeConvertInfo := { info.claudeConvertInfo with
            usage := resp.usage <|> info.claudeConvertInfo.usage } }) := if_pos h
      rw [converted, step, hformat, List.nil_append]
      exact ih h

theorem framed_converted_iff (h : Running info sent) (hcount : 1 ≤ info.sendResponseCount)
    (htwo : info.sendResponseCount = 1 → 2 ≤ rest.length) (hne : rest ≠ [])
    (hrest : ∀ resp ∈ rest, resp.WellFormed) :
    Framed (sent ++ converted usage info rest) ↔ EndsIn info.claudeConvertInfo.usage.isSome rest := by
  induction rest generalizing info sent with
  | nil => exact absurd rfl hne
  | cons resp rest ih =>
    have hresp := hrest resp List.mem_cons_self
    cases rest with
    | nil =>
      refine handleFinalResponse_iff h (fun hone => ?_) hresp
      exact absurd (htwo hone) (Nat.not_succ_le_self 1)
    | cons resp' rest =>
      rw [converted, EndsIn, ← List.append_assoc]
      obtain ⟨hclosed, hrunning⟩ := handleStreamFormat_later h hcount hresp
      by_cases hclose : ClosesWith info.claudeConvertInfo.usage.isSome resp
      · obtain ⟨hframed, hdone⟩ := hclosed hclose
        rw [converted_of_done hdone, List.append_nil]
        exact iff_of_true hframed (.inl hclose)
      · obtain ⟨hgoes, hcount', husage⟩ := hrunning hclose
        rw [← husage, or_iff_right hclose]
        refine ih hgoes ?_ ?_ nofun fun resp hmem => hrest resp (List.mem_cons_of_mem _ hmem)
        · rw [hcount']
          exact Nat.le_add_left 1 _
        · rw [hcount']
          exact fun hone => absurd hone (Nat.ne_of_gt (Nat.succ_lt_succ hcount))

end

/-! ### The first chunk -/

section
variable {estimatePromptTokens : Int} {resp : Chunk} {c c' : Conv} {info : RelayInfo}

theorem Conv.Grows.running {id model : String} {inputTokens : Int} (h : Conv.Grows c c')
    (hout : c.out = [.messageStart id model inputTokens]) (hdone : c.info.done = false)
    (hinfo : info.claudeConvertInfo = c'.info) : Running info c'.out := by
  obtain ⟨es, hes, hblocks, hcovers, -⟩ := h.out
  refine ⟨?_, id, model, inputTokens, es, ?_, hblocks, ?_⟩
  · rw [hinfo]
    exact h.done.trans hdone
  · rw [hes, hout]
    rfl
  · rw [hinfo]
    exact hcovers

theorem Conv.Closes.framed {id model : String} {inputTokens : Int} (h : Conv.Closes c c')
    (hout : c.out = [.messageStart id model inputTokens]) : Framed c'.out := by
  obtain ⟨es, usage, stopReason, hes, hblocks, hcovers, -⟩ := h.out
  refine ⟨id, model, inputTokens, es, usage, stopReason, ?_, hblocks, hcovers⟩
  rw [hes, hout]
  rfl

theorem Conv.Grows.not_framed (h : Conv.Grows c c') (hout : outline c.out = [.start]) (stopReason : String) :
    ¬ Framed (c'.stopOpenBlocks.closeMessage none stopReason).out := by
  intro hframed
  obtain ⟨es, hes, hblocks, -⟩ := h.stopped
  have hclosed : (c'.stopOpenBlocks.closeMessage none stopReason).out =
      c'.stopOpenBlocks.out ++ [] ++ [.messageStop] := rfl
  have houtline := hframed.outline
  rw [hclosed, List.append_nil, hes, outline_append, outline_append, hout, outline_eq_nil hblocks]
    at houtline
  exact absurd houtline (by decide)

/-- The first chunk opens the message; where it finishes it closes it too, with a delta where it has a
usage. -/
theorem handleStreamFormat_first (estimatePromptTokens : Int) (resp : Chunk) :
    (resp.isFinished = false →
        Running (step (Blocks.fresh estimatePromptTokens none) resp)
            (handleStreamFormat (Blocks.fresh estimatePromptTokens none) resp).1 ∧
          (step (Blocks.fresh estimatePromptTokens none) resp).claudeConvertInfo.usage.isSome =
            resp.usage.isSome) ∧
      (resp.isFinished = true →
        (step (Blocks.fresh estimatePromptTokens none) resp).claudeConvertInfo.done = true ∧
          (Framed (handleStreamFormat (Blocks.fresh estimatePromptTokens none) resp).1 ↔
            resp.usage.isSome)) := by
  have hor : (resp.usage <|> none) = resp.usage := by
    cases resp.usage with
    | none => rfl
    | some => rfl
  have heq : handleStreamFormat (Blocks.fresh estimatePromptTokens none) resp =
      ((Conv.first estimatePromptTokens resp { info := { usage := resp.usage <|> none } }).out,
        { sendResponseCount := 1
          estimatePromptTokens := estimatePromptTokens
          claudeConvertInfo :=
            (Conv.first estimatePromptTokens resp { info := { usage := resp.usage <|> none } }).info }) :=
    rfl
  unfold step
  rw [heq, hor]
  unfold Conv.first Chunk.isFinished
  dsimp only
  cases resp.choices with
  | nil => exact ⟨fun _ => ⟨(Conv.Grows.refl _).running rfl rfl rfl, rfl⟩, nofun⟩
  | cons choice rest =>
    have hgrows := @Conv.grows_first
      (Conv.emit [.messageStart resp.id resp.model estimatePromptTokens]
        { info := { usage := resp.usage } }) choice rfl
    dsimp only
    unfold Conv.firstFinish
    cases hfinish : choice.isFinished with
    | false =>
      rw [if_neg Bool.false_ne_true]
      refine ⟨fun _ => ⟨hgrows.running rfl rfl rfl, congrArg Option.isSome hgrows.usage⟩, fun hfinished => ?_⟩
      exact absurd (hfinished.symm.trans hfinish) nofun
    | true =>
      refine ⟨fun hnot => absurd (hnot.symm.trans hfinish) nofun, fun _ => ?_⟩
      have hfinished := hgrows.trans (Conv.grows_finishedBy choice)
      rw [if_pos rfl]
      dsimp only
      generalize Conv.finishedBy choice _ = c at hfinished ⊢
      have husage : c.info.usage = resp.usage := hfinished.usage
      refine ⟨rfl, ?_⟩
      rw [husage]
      cases hsome : resp.usage with
      | none => exact iff_of_false (hfinished.not_framed rfl _) nofun
      | some u => exact iff_of_true ((hfinished.closes u _).framed rfl) rfl

theorem Conv.first_out (estimatePromptTokens : Int) (resp : Chunk) (c : Conv) :
    c.out ++ [.messageStart resp.id resp.model estimatePromptTokens] <+:
      (c.first estimatePromptTokens resp).out := by
  unfold Conv.first
  dsimp only
  cases resp.choices with
  | nil => exact List.prefix_rfl
  | cons choice rest =>
    have htool := out_firstToolCall choice (c.emit [.messageStart resp.id resp.model estimatePromptTokens])
    exact (htool.trans (out_firstContent choice _)).trans (out_firstFinish resp choice _)

theorem not_framed_only (usage : Usage) (estimatePromptTokens : Int) (hresp : resp.WellFormed) :
    ¬ Framed (handleFinalResponse usage (Blocks.fresh estimatePromptTokens none) resp).1 := by
  obtain ⟨c, heq, hcloses, hgrows⟩ := @convert_later
    (Blocks.fresh estimatePromptTokens (some usage)) resp rfl nofun hresp
  have hout : (handleFinalResponse usage (Blocks.fresh estimatePromptTokens none) resp).1 = c.out :=
    congrArg Prod.fst heq
  intro hframed
  have houtline := hframed.outline
  rw [hout] at houtline
  by_cases hclose : ClosesWith true resp
  · obtain ⟨es, u, stopReason, hes, hblocks, -⟩ := (hcloses hclose).out
    rw [hes, outline_append, outline_append, outline_eq_nil hblocks] at houtline
    cases houtline
  · obtain ⟨es, hes, hblocks, -⟩ := (hgrows hclose).out
    rw [hes, outline_append, outline_eq_nil hblocks] at houtline
    cases houtline

theorem Running.not_framed_second {sent : List ClaudeResponse} {usage : Usage} (h : Running info sent)
    (hcount : info.sendResponseCount = 1) : ¬ Framed (sent ++ (handleFinalResponse usage info resp).1) := by
  have heq : (handleFinalResponse usage info resp).1 = (Conv.first info.estimatePromptTokens resp
      { info := { info.claudeConvertInfo with usage := some usage } }).out := by
    unfold handleFinalResponse streamResponseOpenAI2Claude
    dsimp only
    rw [if_neg (Bool.eq_false_iff.1 h.done), if_pos hcount]
  obtain ⟨es, hes⟩ := Conv.first_out info.estimatePromptTokens resp
    { info := { info.claudeConvertInfo with usage := some usage } }
  intro hframed
  have houtline := hframed.outline
  rw [heq, ← hes, outline_append, outline_append, h.outline] at houtline
  cases houtline

end

section
variable {usage : Usage} {info : RelayInfo}

theorem foldl_onChunk (chunks : List Chunk) (last : Chunk) (info : RelayInfo) (sent : List ClaudeResponse) :
    ∃ last' info' sent', chunks.foldl onChunk ⟨some last, info, sent⟩ = ⟨some last', info', sent'⟩ ∧
      sent' ++ (handleFinalResponse usage info' last').1 = sent ++ converted usage info (last :: chunks) := by
  induction chunks generalizing last info sent with
  | nil => exact ⟨last, info, sent, rfl, rfl⟩
  | cons resp chunks ih =>
    rw [converted, ← List.append_assoc]
    exact ih resp (step info last) (sent ++ (handleStreamFormat info last).1)

theorem oaiStreamHandler_eq (chunks : List Chunk) :
    oaiStreamHandler usage info chunks = converted usage info chunks := by
  cases chunks with
  | nil => rfl
  | cons resp chunks =>
    obtain ⟨last, info', sent, heq, hsent⟩ := @foldl_onChunk usage chunks resp info []
    have hfold : (resp :: chunks).foldl onChunk { info := info } = ⟨some last, info', sent⟩ := heq
    unfold oaiStreamHandler
    rw [hfold]
    exact hsent

theorem framed_oaiStreamHandler_iff {chunks : List Chunk} (hchunks : ∀ resp ∈ chunks, resp.WellFormed)
    (estimatePromptTokens : Int) :
    Framed (oaiStreamHandler usage (Blocks.fresh estimatePromptTokens none) chunks) ↔ EndsWell chunks := by
  rw [oaiStreamHandler_eq]
  cases chunks with
  | nil => exact iff_of_false (fun h => nomatch h.outline) id
  | cons first rest =>
    obtain ⟨hgoes, hends⟩ := handleStreamFormat_first estimatePromptTokens first
    rw [EndsWell]
    match rest with
    | [] =>
      have hnot := not_framed_only usage estimatePromptTokens (hchunks first List.mem_cons_self)
      refine iff_of_false hnot fun h => ?_
      split at h
      · exact h.1 rfl
      · exact Nat.not_succ_le_zero 1 h.1
    | second :: rest =>
      rw [converted]
      cases hfinish : first.isFinished with
      | true =>
        obtain ⟨hdone, hiff⟩ := hends hfinish
        rw [if_pos rfl, converted_of_done hdone, List.append_nil, hiff]
        exact (and_iff_right (List.cons_ne_nil _ _)).symm
      | false =>
        obtain ⟨hrunning, husage⟩ := hgoes hfinish
        rw [if_neg Bool.false_ne_true]
        match rest with
        | [] => exact iff_of_false (hrunning.not_framed_second rfl) fun h => Nat.not_succ_le_self 1 h.1
        | third :: rest =>
          rw [← husage, framed_converted_iff hrunning (Nat.le_refl 1) (fun _ => ?_) (List.cons_ne_nil _ _)
            fun resp hmem => hchunks resp (List.mem_cons_of_mem _ hmem)]
          · exact (and_iff_right (Nat.le_add_left 2 _)).symm
          · exact Nat.le_add_left 2 _

end

/-! ## Responses streams -/

/-- Nothing that has been sent stops the message; before the start chunk nothing has been counted. -/
structure Unstopped (sentStart : Bool) (info : RelayInfo) (sent : List ClaudeResponse) : Prop where
  done : info.claudeConvertInfo.done = false
  counted : if sentStart then 1 ≤ info.sendResponseCount else info.sendResponseCount = 0
  stop : .stop ∉ outline sent

namespace ResponsesStream

/-- The message of a Responses stream has not been stopped. -/
def Open (st : ResponsesStream) : Prop := Unstopped st.sentStart st.info st.sent

/-- The message has been started and has not been stopped. -/
def Started (st : ResponsesStream) : Prop := st.Open ∧ st.sentStart = true

section
variable {st : ResponsesStream} {choice : Choice} {resp : Chunk}

theorem Started.send (h : st.Started) (hresp : resp.WellFormed) (hchoices : resp.choices = [choice])
    (husage : resp.usage = none) : (st.sendChatChunk resp).Started := by
  obtain ⟨⟨hdone, hcounted, hstop⟩, hstarted⟩ := h
  rw [hstarted] at hcounted
  have hcount : 1 ≤ st.info.sendResponseCount := hcounted
  obtain ⟨c, heq, -, hgrows⟩ := @convert_later { st.info with
    sendResponseCount := st.info.sendResponseCount + 1
    claudeConvertInfo := { st.info.claudeConvertInfo with
      usage := resp.usage <|> st.info.claudeConvertInfo.usage } } resp hdone
    (Nat.ne_of_gt (Nat.succ_lt_succ hcount)) hresp
  have hgoes := hgrows fun hclose => by
    unfold ClosesWith at hclose
    rw [hchoices, husage] at hclose
    cases hclose.2
  obtain ⟨es, hout, hblocks, -⟩ := hgoes.out
  have hformat : handleStreamFormat st.info resp = _ := heq
  refine ⟨⟨?_, ?_, ?_⟩, hstarted⟩
  · show (handleStreamFormat st.info resp).2.claudeConvertInfo.done = false
    rw [hformat]
    exact hgoes.done.trans hdone
  · show if st.sentStart then 1 ≤ (handleStreamFormat st.info resp).2.sendResponseCount else _
    rw [hstarted, hformat]
    exact Nat.le_add_left 1 _
  · show .stop ∉ outline (st.sent ++ (handleStreamFormat st.info resp).1)
    have hnil : outline c.out = [] := by
      rw [hout]
      exact outline_eq_nil hblocks
    rw [hformat, outline_append, hnil, List.append_nil]
    exact hstop

theorem Open.start (h : st.Open) : st.sendStartIfNeeded.Started := by
  unfold sendStartIfNeeded
  split
  next hstarted => exact ⟨h, hstarted⟩
  next hstarted =>
    obtain ⟨hdone, hcounted, hstop⟩ := h
    rw [if_neg hstarted] at hcounted
    have hformat : handleStreamFormat st.info st.startEmptyResponse =
        ([.messageStart st.responseId st.model st.info.estimatePromptTokens],
          { st.info with sendResponseCount := 1 }) := by
      unfold handleStreamFormat streamResponseOpenAI2Claude
      dsimp only
      rw [if_neg (Bool.eq_false_iff.1 hdone), hcounted]
      rfl
    refine ⟨⟨?_, ?_, ?_⟩, rfl⟩
    · show (handleStreamFormat st.info st.startEmptyResponse).2.claudeConvertInfo.done = false
      rw [hformat]
      exact hdone
    · show 1 ≤ (handleStreamFormat st.info st.startEmptyResponse).2.sendResponseCount
      rw [hformat]
    · show .stop ∉ outline (st.sent ++ (handleStreamFormat st.info st.startEmptyResponse).1)
      rw [hformat, outline_append, List.mem_append]
      rintro (hmem | hmem)
      · exact hstop hmem
      · have heq : Frame.stop = .start := List.mem_singleton.1 hmem
        cases heq

theorem Started.chunk (h : st.Started)
    (hcalls : ∀ toolCall ∈ choice.delta.toolCalls, ∀ i ∈ toolCall.index, (0 : Int) ≤ i) :
    (st.sendChatChunk (st.chunk choice)).Started := by
  refine h.send (fun choice' hmem => ?_) rfl rfl
  rw [List.mem_singleton.1 hmem]
  exact hcalls

theorem Open.sendReasoningSummaryDelta (h : st.Open) (delta : String) :
    (st.sendReasoningSummaryDelta delta).Open := by
  unfold ResponsesStream.sendReasoningSummaryDelta
  split
  · exact h
  have hopen : Open { st with needsReasoningSummarySeparator := false } := h
  have hstart := hopen.start
  generalize sendStartIfNeeded _ = st' at hstart ⊢
  generalize (if st.needsReasoningSummarySeparator = true then _ else delta) = delta'
  have htext : Started { st' with usageText := st'.usageText ++ delta' } := hstart
  exact (htext.chunk fun _ hmem => absurd hmem List.not_mem_nil).1

theorem Open.sendToolCallDelta (h : st.Open) (callId name argsDelta : String) :
    (st.sendToolCallDelta callId name argsDelta).Open := by
  unfold ResponsesStream.sendToolCallDelta
  split
  · exact h
  split
  · exact h
  have hstart := h.start
  generalize st.sendStartIfNeeded = st at hstart ⊢
  have hids : Started (if callId ∈ st.toolCallIds then st
      else { st with toolCallIds := st.toolCallIds ++ [callId] }) := by
    split
    · exact hstart
    · exact hstart
  dsimp only
  generalize (if callId ∈ st.toolCallIds then st else _) = st at hids ⊢
  have hnames : Started (if name ≠ "" then
      { st with toolCallNameById := assign st.toolCallNameById callId name } else st) := by
    split
    · exact hids
    · exact hids
  generalize (if name ≠ "" then _ else st) = st at hnames ⊢
  generalize (if st.toolCallNameById callId ≠ "" then _ else name) = name
  have hsent : Started (if name ≠ "" ∧ st.toolCallNameSent callId = false then
      { st with toolCallNameSent := assign st.toolCallNameSent callId true } else st) := by
    split
    · exact hnames
    · exact hnames
  generalize (if name ≠ "" ∧ st.toolCallNameSent callId = false then _ else st) = st' at hsent ⊢
  refine (hsent.chunk fun toolCall hmem i hi => ?_).1
  rw [List.mem_singleton.1 hmem] at hi
  rw [← Option.some_inj.1 hi]
  exact Int.natCast_nonneg _

theorem Open.withCalls (h : st.Open) (ids names args : String → String) :
    Open { st with
      toolCallCanonicalIdByItemId := ids
      toolCallNameById := names
      toolCallArgsById := args } := h

theorem Open.sendOutputItem (h : st.Open) (item : ResponsesOutput) : (st.sendOutputItem item).Open := by
  unfold ResponsesStream.sendOutputItem
  split
  · exact h
  · exact (h.withCalls _ _ _).sendToolCallDelta _ _ _

theorem Open.withModel (h : st.Open) (response : Option ResponsesResponse) :
    (st.withModel response).Open := by
  unfold ResponsesStream.withModel
  split
  · exact h
  split
  · exact h
  · exact h

theorem Open.withUsage (h : st.Open) (response : Option ResponsesResponse) :
    (st.withUsage response).Open := by
  unfold ResponsesStream.withUsage
  split
  · exact h
  dsimp only
  split
  · exact ⟨h.done, h.counted, h.stop⟩
  · exact h

theorem Started.sendStop (h : st.Started) : st.sendStop.Started := by
  have hinfo : Started { st with info := { st.info with
      claudeConvertInfo := { st.info.claudeConvertInfo with usage := some st.usage } } } :=
    ⟨⟨h.1.done, h.1.counted, h.1.stop⟩, h.2⟩
  exact hinfo.chunk fun _ hmem => absurd hmem List.not_mem_nil

theorem Open.onEvent (h : st.Open) (event : ResponsesEvent) : (st.onEvent event).Open := by
  unfold ResponsesStream.onEvent
  split
  · exact h
  cases event with
  | created response => exact h.withModel response
  | reasoningSummaryTextDelta delta => exact h.sendReasoningSummaryDelta delta
  | reasoningSummaryTextDone =>
    dsimp only
    split
    · exact h
    · exact h
  | outputTextDelta delta =>
    dsimp only
    split
    · exact h.start.1
    · have htext : Started { st.sendStartIfNeeded with
          outputText := st.sendStartIfNeeded.outputText ++ delta
          usageText := st.sendStartIfNeeded.usageText ++ delta } := h.start
      exact (htext.chunk fun _ hmem => absurd hmem List.not_mem_nil).1
  | outputItem item =>
    cases item with
    | none => exact h
    | some item => exact h.sendOutputItem item
  | functionCallArgumentsDelta itemId delta =>
    dsimp only
    generalize (if st.toolCallCanonicalIdByItemId _ = "" then _ else _) = callId
    split
    · exact h
    refine Open.sendToolCallDelta ?_ ..
    exact h
  | completed response =>
    have hstart := ((h.withModel response).withUsage response).start
    dsimp only
    split
    · exact hstart.1
    · exact hstart.sendStop.1
  | error => exact h
  | other => exact h

theorem Open.finish (h : st.Open) (responseText2Usage : String → Usage) :
    .stop ∉ outline (st.finish responseText2Usage).sent := by
  unfold ResponsesStream.finish
  split
  · exact h.stop
  have htotal : Open (if st.totalTokens = 0 then
      { st with usage := responseText2Usage st.usageText } else st) := by
    split
    · exact h
    · exact h
  dsimp only
  generalize (if st.totalTokens = 0 then _ else st) = st at htotal ⊢
  have hstart := htotal.start
  unfold sendStartIfNeeded at hstart
  cases hstarted : st.sentStart with
  | true =>
    rw [hstarted, if_pos rfl] at hstart
    rw [if_pos rfl]
    split
    · exact hstart.1.stop
    · exact hstart.sendStop.1.stop
  | false =>
    rw [hstarted, if_neg Bool.false_ne_true] at hstart
    rw [if_neg Bool.false_ne_true]
    split
    · exact hstart.1.stop
    · exact hstart.sendStop.1.stop

end

end ResponsesStream

theorem not_framed_oaiResponsesToChatStreamHandler (responseText2Usage : String → Usage)
    (responseId model : String) (estimatePromptTokens : Int) (events : List ResponsesEvent) :
    ¬ Framed (oaiResponsesToChatStreamHandler responseText2Usage responseId model
      (Blocks.fresh estimatePromptTokens none) events) := by
  have hopen : (events.foldl ResponsesStream.onEvent
      { info := Blocks.fresh estimatePromptTokens none, responseId := responseId, model := model }).Open := by
    refine List.foldlRecOn events _ ⟨rfl, rfl, List.not_mem_nil⟩ fun st hst event _ => ?_
    exact ResponsesStream.Open.onEvent hst event
  intro hframed
  refine hopen.finish responseText2Usage ?_
  have houtline : outline ((events.foldl ResponsesStream.onEvent
      { info := Blocks.fresh estimatePromptTokens none, responseId := responseId, model := model }).finish
        responseText2Usage).sent = [.start, .delta, .stop] := hframed.outline
  rw [houtline]
  decide

/-! ## Framed streams -/

/-- A chat stream is a whole message just when it ends well, and a Responses stream never is. -/
theorem framed_iff (usage : Usage) (estimatePromptTokens : Int) {chunks : List Chunk}
    (hchunks : ∀ resp ∈ chunks, resp.WellFormed) (responseText2Usage : String → Usage)
    (responseId model : String) (events : List ResponsesEvent) :
    (Framed (oaiStreamHandler usage (Blocks.fresh estimatePromptTokens none) chunks) ↔ EndsWell chunks) ∧
      ¬ Framed (oaiResponsesToChatStreamHandler responseText2Usage responseId model
        (Blocks.fresh estimatePromptTokens none) events) :=
  ⟨framed_oaiStreamHandler_iff hchunks estimatePromptTokens,
    not_framed_oaiResponsesToChatStreamHandler responseText2Usage responseId model estimatePromptTokens
      events⟩

/-- A word, a finish without a usage, and the usage in a chunk of its own. -/
def wordThenUsage : List Chunk :=
  [{ id := "c", model := "m", choices := [{ delta := { content := some "Hi" } }] },
    { id := "c", model := "m", choices := [{ finishReason := some "stop" }] },
    { id := "c", model := "m", usage := some ⟨3, 1, 0, 0, 0, 0⟩ }]

theorem framed_wordThenUsage :
    Framed (oaiStreamHandler ⟨3, 1, 0, 0, 0, 0⟩ (Blocks.fresh 3 none) wordThenUsage) :=
  (@framed_iff _ 3 wordThenUsage (by decide) (fun _ => ⟨0, 0, 0, 0, 0, 0⟩) "r" "m" []).1.2
    (by decide)

/-- A stream of one chunk is not opened. -/
theorem not_framed_one :
    ¬ Framed (oaiStreamHandler ⟨3, 1, 0, 0, 0, 0⟩ (Blocks.fresh 3 none)
      [{ id := "c", model := "m"
         choices := [{ delta := { content := some "Hi" }, finishReason := some "stop" }]
         usage := some ⟨3, 1, 0, 0, 0, 0⟩ }]) := by
  intro hframed
  have houtline := hframed.outline
  revert houtline
  decide +kernel

end NewApi.Stream

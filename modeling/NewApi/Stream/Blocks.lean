import NewApi.Lib.Run
import NewApi.Stream.Claude
import Mathlib.Data.List.Nodup
import Mathlib.Data.List.Range

/-!
# The content blocks of a converted stream

A client of Claude's message stream takes the events one by one: blocks start under the indices 0, 1, 2, …,
a delta or a stop is for a block that is open, and nothing follows `message_stop`. The converter keeps the
first and the highest block of the parallel tool calls that are open, and takes all between them to have
started. Whether they have depends on the calls that came in, so that the blocks the client has open are a
first part of those the converter has.
-/

namespace NewApi.Stream

open Run

/-! ## The client -/

/-- The types of blocks. -/
inductive BlockType
  | text
  | thinking
  | toolUse
deriving DecidableEq

/-- The type of a block that starts. -/
def ContentBlock.type : ContentBlock → BlockType
  | .text => .text
  | .thinking => .thinking
  | .toolUse .. => .toolUse

/-- The type of the block that a delta is for. -/
def BlockDelta.type : BlockDelta → BlockType
  | .textDelta _ => .text
  | .thinkingDelta _ => .thinking
  | .inputJsonDelta _ => .toolUse

/-- A message as the client has it: how many blocks have started, which are open, and whether it has
stopped. -/
structure Message where
  next : Int := 0
  opened : List (Int × BlockType) := []
  stopped : Bool := false

namespace Message

/-- The message after an event, where the event is in order. -/
def event (m : Message) (e : ClaudeResponse) : Option Message :=
  if m.stopped then none
  else
    match e with
    | .messageStart .. => some m
    | .contentBlockStart i block =>
      if i = m.next then
        some { m with next := m.next + 1, opened := m.opened ++ [(i, block.type)] }
      else none
    | .contentBlockDelta i delta => if (i, delta.type) ∈ m.opened then some m else none
    | .contentBlockStop i =>
      if i ∈ m.opened.map Prod.fst then some { m with opened := m.opened.filter (·.1 ≠ i) } else none
    | .messageDelta .. => some m
    | .messageStop => some { m with stopped := true }

/-- The message after events, where all are in order. -/
def events : Message → List ClaudeResponse → Option Message
  | m, [] => some m
  | m, e :: es => (m.event e).bind (events · es)

section
variable {m m' : Message} {es es' : List ClaudeResponse} {i : Int} {js : List Int} {type : BlockType}
  {rest : List (Int × BlockType)}

theorem events_append : m.events (es ++ es') = (m.events es).bind (events · es') := by
  induction es generalizing m with
  | nil => rfl
  | cons e es ih =>
    rw [List.cons_append, events, events]
    cases m.event e with
    | none => rfl
    | some m' => exact ih

theorem events_singleton (e : ClaudeResponse) : m.events [e] = m.event e := by
  rw [events]
  cases m.event e with
  | none => rfl
  | some m' => rfl

theorem event_stop (hm : m.stopped = false) (hopened : m.opened = (i, type) :: rest)
    (hnot : i ∉ rest.map Prod.fst) :
    m.event (.contentBlockStop i) = some { m with opened := rest } := by
  have hfilter : m.opened.filter (·.1 ≠ i) = rest := by
    rw [hopened, List.filter_cons_of_neg (by simp), List.filter_eq_self]
    intro p hp
    refine decide_eq_true fun he => hnot ?_
    rw [← he]
    exact List.mem_map_of_mem hp
  have hmem : i ∈ m.opened.map Prod.fst := by
    rw [hopened]
    exact List.mem_cons_self
  unfold event
  rw [hm]
  dsimp only
  rw [if_neg (by decide), if_pos hmem, hfilter]

theorem events_stop (hm : m.stopped = false) (hopened : m.opened.map Prod.fst = js)
    (hnodup : js.Nodup) : m.events (js.map .contentBlockStop) = some { m with opened := [] } := by
  induction js generalizing m with
  | nil =>
    rw [← List.map_eq_nil_iff.1 hopened]
    rfl
  | cons j js ih =>
    obtain ⟨⟨_, type⟩, rest, hcons, rfl, hrest⟩ := List.map_eq_cons_iff.1 hopened
    rw [List.nodup_cons] at hnodup
    rw [List.map_cons, events, event_stop hm hcons (hrest ▸ hnodup.1), Option.bind_some]
    exact @ih { m with opened := rest } hm hrest hnodup.2

end

end Message

/-- All events of a stream are in order. -/
def Disciplined (es : List ClaudeResponse) : Prop := (Message.events {} es).isSome

instance : DecidablePred Disciplined := fun _ => inferInstanceAs (Decidable (_ = true))

/-! ## The blocks of the converter -/

/-- The first so many of the parallel tool blocks. -/
def toolBlocks (base : Int) (k : Nat) : List (Int × BlockType) :=
  (List.range k).map fun j : Nat => (base + j, .toolUse)

/-- The client has the block open that the converter has, or a first part of its tool blocks. -/
def Linked (info : ClaudeConvertInfo) (m : Message) : Prop :=
  m.stopped = false ∧
    match info.lastMessagesType with
    | .none => m.opened = [] ∧ m.next = info.index
    | .text => m.opened = [(info.index, .text)] ∧ m.next = info.index + 1
    | .thinking => m.opened = [(info.index, .thinking)] ∧ m.next = info.index + 1
    | .tools => 0 ≤ info.toolCallMaxIndexOffset ∧
      ∃ k : Nat, m.opened = toolBlocks info.toolCallBaseIndex k ∧
        m.next = info.toolCallBaseIndex + k ∧ (k : Int) ≤ info.toolCallMaxIndexOffset + 1

/-- All the tool blocks that are open have started, where `n` blocks have in the message. -/
def AllStarted (info : ClaudeConvertInfo) (n : Int) : Prop :=
  info.lastMessagesType = .tools → info.toolCallBaseIndex + info.toolCallMaxIndexOffset + 1 = n

instance (info : ClaudeConvertInfo) (n : Int) : Decidable (AllStarted info n) :=
  inferInstanceAs (Decidable (_ → _))

/-- Each tool call with a name starts the next block, and each with arguments is for a block of the calls
that has started, where the calls start at block `base` and `n` blocks have started in the message. -/
def Fits (base : Int) : Int → List (ToolCall × Nat) → Prop
  | _, [] => True
  | n, p :: calls =>
    let n' := if p.1.name ≠ "" then n + 1 else n
    (p.1.name ≠ "" → base + Conv.offset p = n) ∧
      (p.1.arguments ≠ "" → base ≤ base + Conv.offset p ∧ base + Conv.offset p < n') ∧
      Fits base n' calls

/-- The tool calls that start a block. -/
def named (calls : List (ToolCall × Nat)) : Nat := calls.countP fun p => p.1.name ≠ ""

/-- The highest offset of the tool calls. -/
def maxOffset (m : Int) (calls : List (ToolCall × Nat)) : Int :=
  calls.foldl (fun m p => max m (Conv.offset p)) m

/-- A chunk after the first keeps the blocks in order, where `n` blocks have started in the message: its tool
calls fit the blocks that have started, and tool blocks are stopped only where all of them have. -/
def KeepsOrder (info : ClaudeConvertInfo) (n : Int) (resp : Chunk) : Prop :=
  match resp.choices with
  | [] => (resp.usage <|> info.usage).isSome → AllStarted info n
  | choice :: _ =>
    let calls := choice.delta.toolCalls.zipIdx
    if choice.isFinished ∧ resp.usage = none then True
    else if choice.delta.toolCalls ≠ [] then
      let goesOn := info.lastMessagesType = .tools
      let base := if goesOn then info.toolCallBaseIndex else n
      let m := maxOffset (if goesOn then info.toolCallMaxIndexOffset else 0) calls
      Fits base n calls ∧ (choice.isFinished → base + m + 1 = n + named calls)
    else if choice.delta.getReasoningContent ≠ "" ∨ choice.delta.getContentString ≠ "" ∨
        choice.isFinished then
      AllStarted info n
    else True

section
variable {base : Int} {k : Nat} {m : Message} {info : ClaudeConvertInfo} {n : Int}

theorem map_fst_toolBlocks :
    (toolBlocks base k).map Prod.fst = (List.range k).map fun j : Nat => base + j := by
  rw [toolBlocks, List.map_map]
  rfl

theorem nodup_toolBlocks : ((toolBlocks base k).map Prod.fst).Nodup := by
  rw [map_fst_toolBlocks]
  refine List.Nodup.map (fun i j hij => ?_) List.nodup_range
  exact Int.ofNat.inj (Int.add_left_cancel hij)

theorem toolBlocks_succ : toolBlocks base (k + 1) = toolBlocks base k ++ [(base + k, .toolUse)] := by
  rw [toolBlocks, List.range_succ, List.map_append]
  rfl

theorem mem_toolBlocks {i : Int} : (i, .toolUse) ∈ toolBlocks base k ↔ base ≤ i ∧ i < base + k := by
  rw [toolBlocks, List.mem_map]
  constructor
  · rintro ⟨j, hj, heq⟩
    cases heq
    rw [List.mem_range] at hj
    omega
  · rintro ⟨hlow, hhigh⟩
    refine ⟨(i - base).toNat, List.mem_range.2 (by omega), ?_⟩
    rw [Int.toNat_of_nonneg (by omega)]
    exact congrArg (·, _) (by omega)

theorem openBlocks_of_linked (h : Linked info m) (hall : AllStarted info m.next) :
    m.opened.map Prod.fst = info.openBlocks ∧ info.openBlocks.Nodup := by
  obtain ⟨-, hlinked⟩ := h
  unfold ClaudeConvertInfo.openBlocks
  cases htype : info.lastMessagesType with
  | none =>
    rw [htype] at hlinked
    rw [hlinked.1]
    exact ⟨rfl, List.nodup_nil⟩
  | text =>
    rw [htype] at hlinked
    rw [hlinked.1]
    exact ⟨rfl, List.nodup_singleton _⟩
  | thinking =>
    rw [htype] at hlinked
    rw [hlinked.1]
    exact ⟨rfl, List.nodup_singleton _⟩
  | tools =>
    rw [htype] at hlinked
    obtain ⟨-, k, hopened, hnext, -⟩ := hlinked
    have hk : (info.toolCallMaxIndexOffset + 1).toNat = k := by
      have := hall htype
      omega
    rw [hopened, hk]
    exact ⟨map_fst_toolBlocks, map_fst_toolBlocks ▸ nodup_toolBlocks⟩

theorem events_openBlocks (h : Linked info m) (hall : AllStarted info m.next) :
    m.events (info.openBlocks.map .contentBlockStop) = some { m with opened := [] } := by
  obtain ⟨hopened, hnodup⟩ := openBlocks_of_linked h hall
  exact Message.events_stop h.1 hopened hnodup

theorem events_openBlocks_eq_none (h : Linked info m) (hnot : ¬ AllStarted info m.next) :
    m.events (info.openBlocks.map .contentBlockStop) = none := by
  obtain ⟨htype, hne⟩ := Classical.not_imp.1 hnot
  obtain ⟨hm, hlinked⟩ := h
  rw [htype] at hlinked
  obtain ⟨-, k, hopened, hnext, hk⟩ := hlinked
  have hlt : k < (info.toolCallMaxIndexOffset + 1).toNat := by omega
  -- the first `k` blocks stop, and the next one is not open
  obtain ⟨rest, hrange⟩ : ∃ rest, List.range (info.toolCallMaxIndexOffset + 1).toNat =
      List.range k ++ k :: rest := by
    obtain ⟨d, hd⟩ := Nat.exists_eq_add_of_lt hlt
    refine ⟨(List.range d).map (k + 1 + ·), ?_⟩
    rw [hd, Nat.add_right_comm, List.range_add, List.range_succ, List.append_assoc]
    rfl
  unfold ClaudeConvertInfo.openBlocks
  rw [htype]
  dsimp only
  rw [hrange, List.map_append, List.map_append, Message.events_append, ← map_fst_toolBlocks,
    ← hopened, Message.events_stop hm rfl (hopened ▸ nodup_toolBlocks), Option.bind_some]
  have hstop : ({ m with opened := [] } : Message).event
      (.contentBlockStop (info.toolCallBaseIndex + k)) = none := by
    unfold Message.event
    rw [hm]
    rfl
  rw [List.map_cons, List.map_cons, Message.events, hstop]
  rfl

/-! ### Tool calls -/

variable {p : ToolCall × Nat} {calls : List (ToolCall × Nat)} {max₀ : Int}

theorem named_cons : named (p :: calls) = (if p.1.name ≠ "" then 1 else 0) + named calls := by
  unfold named
  rw [List.countP_cons, Nat.add_comm]
  exact congrArg (· + _) (if_congr decide_eq_true_iff rfl rfl)

theorem maxOffset_cons : maxOffset max₀ (p :: calls) = maxOffset (max max₀ (Conv.offset p)) calls := rfl

theorem le_maxOffset : max₀ ≤ maxOffset max₀ calls := by
  induction calls generalizing max₀ with
  | nil => exact Int.le_refl _
  | cons p calls ih => exact Int.le_trans (Int.le_max_left ..) ih

/-- The client with the first so many tool blocks open. -/
structure HasTools (m : Message) (base : Int) (k : Nat) : Prop where
  running : m.stopped = false
  opened : m.opened = toolBlocks base k
  next : m.next = base + k

theorem events_toolStart (h : HasTools m base k) :
    (p.1.name ≠ "" → base + Conv.offset p = m.next) →
      ∃ m', HasTools m' base (k + if p.1.name ≠ "" then 1 else 0) ∧
        m.events (if p.1.name ≠ "" then
          [.contentBlockStart (base + Conv.offset p) (.toolUse p.1.id p.1.name)] else []) = some m' := by
  intro hstart
  split
  next hname =>
    refine ⟨{ m with next := m.next + 1, opened := m.opened ++ [(base + Conv.offset p, .toolUse)] },
      ⟨h.running, ?_, ?_⟩, ?_⟩
    · rw [toolBlocks_succ, h.opened, hstart hname, h.next]
    · show m.next + 1 = _
      rw [h.next, Int.natCast_add_one, Int.add_assoc]
    · rw [Message.events_singleton, Message.event, h.running]
      exact if_pos (hstart hname)
  next => exact ⟨m, h, rfl⟩

theorem events_toolStart_eq_none (h : HasTools m base k)
    (hnot : ¬ (p.1.name ≠ "" → base + Conv.offset p = m.next)) :
    m.events (if p.1.name ≠ "" then
      [.contentBlockStart (base + Conv.offset p) (.toolUse p.1.id p.1.name)] else []) = none := by
  obtain ⟨hname, hne⟩ := Classical.not_imp.1 hnot
  rw [if_pos hname, Message.events_singleton, Message.event, h.running]
  exact if_neg hne

theorem events_toolDelta (h : HasTools m base k) :
    m.events (if p.1.arguments ≠ "" then
        [.contentBlockDelta (base + Conv.offset p) (.inputJsonDelta p.1.arguments)] else []) =
      if p.1.arguments ≠ "" → base ≤ base + Conv.offset p ∧ base + Conv.offset p < m.next then some m
      else none := by
  by_cases harguments : p.1.arguments ≠ ""
  · have hmem : (base + Conv.offset p, (BlockDelta.inputJsonDelta p.1.arguments).type) ∈ m.opened ↔
        base ≤ base + Conv.offset p ∧ base + Conv.offset p < m.next := by
      rw [h.opened, h.next]
      exact mem_toolBlocks
    rw [if_pos harguments, Message.events_singleton, Message.event,
      if_neg (Bool.eq_false_iff.1 h.running)]
    refine if_congr (hmem.trans ⟨fun hand _ => hand, fun hand => hand harguments⟩) rfl rfl
  · rw [if_neg harguments, if_pos fun hne => absurd hne harguments]
    rfl

theorem events_toolCalls (h : HasTools m base k) (hfits : Fits base m.next calls) :
    ∃ m', HasTools m' base (k + named calls) ∧
      m.events (calls.flatMap (Conv.toolCallEvents base)) = some m' := by
  induction calls generalizing m k with
  | nil => exact ⟨m, h, rfl⟩
  | cons p calls ih =>
    obtain ⟨hstart, hdelta, hrest⟩ := hfits
    obtain ⟨m₁, h₁, hevents⟩ := events_toolStart h hstart
    have hnext : m₁.next = if p.1.name ≠ "" then m.next + 1 else m.next := by
      rw [h₁.next, h.next]
      split
      · rw [Int.natCast_add_one, Int.add_assoc]
      · rfl
    rw [← hnext] at hdelta hrest
    obtain ⟨m₂, h₂, hevents₂⟩ := ih h₁ hrest
    refine ⟨m₂, ?_, ?_⟩
    · rw [named_cons, ← Nat.add_assoc]
      exact h₂
    · rw [List.flatMap_cons, Message.events_append, Conv.toolCallEvents, Message.events_append,
        hevents, Option.bind_some, events_toolDelta h₁, if_pos hdelta]
      exact hevents₂

theorem events_toolCalls_eq_none (h : HasTools m base k) (hnot : ¬ Fits base m.next calls) :
    m.events (calls.flatMap (Conv.toolCallEvents base)) = none := by
  induction calls generalizing m k with
  | nil => exact absurd trivial hnot
  | cons p calls ih =>
    rw [List.flatMap_cons, Message.events_append, Conv.toolCallEvents, Message.events_append]
    by_cases hstart : p.1.name ≠ "" → base + Conv.offset p = m.next
    · obtain ⟨m₁, h₁, hevents⟩ := events_toolStart h hstart
      have hnext : m₁.next = if p.1.name ≠ "" then m.next + 1 else m.next := by
        rw [h₁.next, h.next]
        split
        · rw [Int.natCast_add_one, Int.add_assoc]
        · rfl
      rw [hevents, Option.bind_some, events_toolDelta h₁]
      split
      next hdelta =>
        refine ih h₁ fun hrest => hnot ⟨hstart, ?_, ?_⟩
        · rw [← hnext]
          exact hdelta
        · rw [← hnext]
          exact hrest
      next => rfl
    · rw [events_toolStart_eq_none h hstart]
      rfl

theorem named_le_maxOffset (hfits : Fits base (base + k) calls) (hk : (k : Int) ≤ max₀ + 1) :
    ((k + named calls : Nat) : Int) ≤ maxOffset max₀ calls + 1 := by
  induction calls generalizing k max₀ with
  | nil => exact hk
  | cons p calls ih =>
    obtain ⟨hstart, -, hrest⟩ := hfits
    rw [named_cons, maxOffset_cons, ← Nat.add_assoc]
    split
    next hname =>
      rw [if_pos hname] at hrest
      refine ih ?_ ?_
      · rw [Int.natCast_add_one, ← Int.add_assoc]
        exact hrest
      · have := hstart hname
        have := Int.le_max_right max₀ (Conv.offset p)
        omega
    next hname =>
      rw [if_neg hname] at hrest
      refine ih hrest ?_
      have := Int.le_max_left max₀ (Conv.offset p)
      rw [Nat.add_zero]
      omega

end

/-! ## What one chunk does -/

/-- A block of text, or of thinking, and its mark in the record. -/
def Speaks : LastMessagesType → ContentBlock → Prop
  | .text, .text => True
  | .thinking, .thinking => True
  | _, _ => False

namespace Conv

/-- The events so far leave the client with a message that is linked to the record. -/
structure At (m₀ : Message) (c : Conv) (m : Message) : Prop where
  events : m₀.events c.out = some m
  linked : Linked c.info m

/-- Some event so far was out of order. -/
def Broken (m₀ : Message) (c : Conv) : Prop := m₀.events c.out = none

/-- All events were in order, and the record is linked unless the message is done. -/
def Ends (m₀ : Message) (c : Conv) : Prop :=
  ∃ m, m₀.events c.out = some m ∧ (c.info.done = false → Linked c.info m)

/-- All events were in order just when a condition holds. -/
structure EndsIff (m₀ : Message) (c : Conv) (P : Prop) : Prop where
  ends : P → Ends m₀ c
  broken : ¬ P → Broken m₀ c

section
variable {m₀ m : Message} {c : Conv} {es : List ClaudeResponse} {t : LastMessagesType}
  {block : ContentBlock} {choice : Choice} {resp : Chunk} {calls : List ToolCall}

theorem events_emit (h : m₀.events c.out = some m) : m₀.events (c.emit es).out = m.events es := by
  rw [emit, Message.events_append, h]
  rfl

theorem Broken.emit (h : c.Broken m₀) (es : List ClaudeResponse) : (c.emit es).Broken m₀ := by
  rw [Broken, Conv.emit, Message.events_append, h]
  rfl

theorem At.ends (h : c.At m₀ m) : c.Ends m₀ := ⟨m, h.events, fun _ => h.linked⟩

theorem At.finishedBy (h : c.At m₀ m) (choice : Choice) : (c.finishedBy choice).At m₀ m :=
  ⟨h.events, h.linked⟩

theorem At.broken_emit (h : c.At m₀ m) (hes : m.events es = none) : (c.emit es).Broken m₀ :=
  (events_emit h.events).trans hes

/-! ### Stopping blocks -/

theorem At.events_stopOpenBlocks (h : c.At m₀ m) (hall : AllStarted c.info m.next) :
    m₀.events c.stopOpenBlocks.out = some { m with opened := [] } :=
  (events_emit h.events).trans (events_openBlocks h.linked hall)

theorem At.broken_stopOpenBlocks (h : c.At m₀ m) (hnot : ¬ AllStarted c.info m.next) :
    c.stopOpenBlocks.Broken m₀ :=
  h.broken_emit (events_openBlocks_eq_none h.linked hnot)

theorem At.close (h : c.At m₀ m) (oaiUsage : Option Usage) (stopReason : String) :
    (c.stopOpenBlocks.closeMessage oaiUsage stopReason).EndsIff m₀ (AllStarted c.info m.next) where
  ends hall := by
    refine ⟨{ m with opened := [], stopped := true }, ?_, fun hdone => nomatch hdone⟩
    show m₀.events ((c.stopOpenBlocks.emit _).emit _).out = _
    rw [events_emit (m := { m with opened := [] })]
    · rw [Message.events_singleton, Message.event, if_neg (Bool.eq_false_iff.1 h.linked.1)]
    · rw [events_emit (h.events_stopOpenBlocks hall)]
      cases oaiUsage with
      | none => rfl
      | some u =>
        dsimp only
        rw [Message.events_singleton, Message.event, if_neg (Bool.eq_false_iff.1 h.linked.1)]
  broken hnot := ((h.broken_stopOpenBlocks hnot).emit _).emit _

theorem At.stopOpenBlocksAndAdvance (h : c.At m₀ m) (hall : AllStarted c.info m.next) :
    ∃ m', c.stopOpenBlocksAndAdvance.At m₀ m' ∧ m'.next = m.next ∧
      c.stopOpenBlocksAndAdvance.info.lastMessagesType = .none := by
  have hstop := h.events_stopOpenBlocks hall
  obtain ⟨hm, hlinked⟩ := h.linked
  unfold Conv.stopOpenBlocksAndAdvance
  cases htype : c.info.lastMessagesType with
  | none => exact ⟨m, h, rfl, htype⟩
  | text | thinking =>
    rw [htype] at hlinked
    exact ⟨{ m with opened := [] }, ⟨hstop, hm, rfl, hlinked.2⟩, rfl, rfl⟩
  | tools => exact ⟨{ m with opened := [] }, ⟨hstop, hm, rfl, (hall htype).symm⟩, rfl, rfl⟩

theorem At.broken_stopOpenBlocksAndAdvance (h : c.At m₀ m) (hnot : ¬ AllStarted c.info m.next) :
    c.stopOpenBlocksAndAdvance.Broken m₀ := by
  have hbroken := h.broken_stopOpenBlocks hnot
  obtain ⟨htype, -⟩ := Classical.not_imp.1 hnot
  unfold Conv.stopOpenBlocksAndAdvance
  rw [htype]
  exact hbroken

/-! ### Text and thinking -/

theorem allStarted_of_speaks {info : ClaudeConvertInfo} (h : Speaks info.lastMessagesType block)
    (n : Int) : AllStarted info n := by
  intro htype
  rw [htype] at h
  cases h

theorem linked_iff_of_speaks {info : ClaudeConvertInfo} (h : Speaks info.lastMessagesType block) :
    Linked info m ↔
      m.stopped = false ∧ m.opened = [(info.index, block.type)] ∧ m.next = info.index + 1 := by
  unfold Linked
  cases htype : info.lastMessagesType with
  | none | tools =>
    rw [htype] at h
    cases h
  | text | thinking =>
    rw [htype] at h
    cases block with
    | text | thinking | toolUse =>
      first
      | exact Iff.rfl
      | cases h

theorem At.start (h : c.At m₀ m) (hnone : c.info.lastMessagesType = .none) (hspeaks : Speaks t block) :
    ((c.emit [.contentBlockStart c.info.index block]).setType t).At m₀
      { m with next := m.next + 1, opened := [(c.info.index, block.type)] } := by
  obtain ⟨hm, hlinked⟩ := h.linked
  rw [hnone] at hlinked
  refine ⟨?_, ?_⟩
  · show m₀.events (c.emit _).out = _
    rw [events_emit h.events, Message.events_singleton, Message.event, if_neg (Bool.eq_false_iff.1 hm)]
    rw [if_pos hlinked.2.symm, hlinked.1]
    rfl
  · refine (linked_iff_of_speaks hspeaks).2 ⟨hm, rfl, ?_⟩
    show m.next + 1 = c.info.index + 1
    rw [hlinked.2]

theorem At.delta (h : c.At m₀ m) (hspeaks : Speaks c.info.lastMessagesType block) {delta : BlockDelta}
    (htype : delta.type = block.type) : (c.emit [.contentBlockDelta c.info.index delta]).At m₀ m := by
  obtain ⟨hm, hopened, -⟩ := (linked_iff_of_speaks hspeaks).1 h.linked
  refine ⟨?_, h.linked⟩
  rw [events_emit h.events, Message.events_singleton, Message.event, if_neg (Bool.eq_false_iff.1 hm)]
  rw [htype, hopened, if_pos (List.mem_singleton.2 rfl)]

theorem At.openBlock (h : c.At m₀ m) (hall : AllStarted c.info m.next) (hspeaks : Speaks t block) :
    ∃ m', (c.openBlock t block).At m₀ m' ∧ (c.openBlock t block).info.lastMessagesType = t := by
  unfold Conv.openBlock
  split
  next =>
    obtain ⟨m', hadvance, -, hnone⟩ := h.stopOpenBlocksAndAdvance hall
    exact ⟨_, hadvance.start hnone hspeaks, rfl⟩
  next htype => exact ⟨m, h, not_not.1 htype⟩

theorem At.broken_openBlock (h : c.At m₀ m) (hnot : ¬ AllStarted c.info m.next)
    (hspeaks : Speaks t block) : (c.openBlock t block).Broken m₀ := by
  obtain ⟨htype, -⟩ := Classical.not_imp.1 hnot
  have hne : c.info.lastMessagesType ≠ t := by
    rintro rfl
    rw [htype] at hspeaks
    cases hspeaks
  unfold Conv.openBlock
  rw [if_pos hne]
  exact (h.broken_stopOpenBlocksAndAdvance hnot).emit _

/-! ### Tool calls of a later chunk -/

theorem At.startTools (h : c.At m₀ m) :
    ∃ c' m', (if c.info.lastMessagesType ≠ .tools then
          c.stopOpenBlocksAndAdvance.openTools c.stopOpenBlocksAndAdvance.info.index
        else c) = c' ∧ c'.At m₀ m' ∧ m'.next = m.next ∧ c'.info.lastMessagesType = .tools ∧
      c'.info.toolCallBaseIndex =
        (if c.info.lastMessagesType = .tools then c.info.toolCallBaseIndex else m.next) ∧
      c'.info.toolCallMaxIndexOffset =
        if c.info.lastMessagesType = .tools then c.info.toolCallMaxIndexOffset else 0 := by
  by_cases htype : c.info.lastMessagesType = .tools
  · rw [if_neg (not_not.2 htype), if_pos htype, if_pos htype]
    exact ⟨c, m, rfl, h, rfl, htype, rfl, rfl⟩
  · rw [if_pos htype, if_neg htype, if_neg htype]
    obtain ⟨m', hadvance, hnext, hnone⟩ := h.stopOpenBlocksAndAdvance fun htools => absurd htools htype
    obtain ⟨hm, hlinked⟩ := hadvance.linked
    rw [hnone] at hlinked
    refine ⟨_, m', rfl, ⟨hadvance.events, hm, Int.le_refl 0, 0, hlinked.1, ?_, ?_⟩, hnext, rfl,
      hlinked.2.symm.trans hnext, rfl⟩
    · exact hlinked.2.trans (Int.add_zero _).symm
    · exact Int.le_add_one (Int.le_refl 0)

/-- Tool calls are in order where they fit, and all have started where as many as the highest offset says. -/
theorem At.toolDeltas (h : c.At m₀ m) {base max₀ : Int}
    (hbase : base = if c.info.lastMessagesType = .tools then c.info.toolCallBaseIndex else m.next)
    (hmax : max₀ = if c.info.lastMessagesType = .tools then c.info.toolCallMaxIndexOffset else 0) :
    (Fits base m.next calls.zipIdx → ∃ m', (c.toolDeltas calls).At m₀ m' ∧
        (AllStarted (c.toolDeltas calls).info m'.next ↔
          base + maxOffset max₀ calls.zipIdx + 1 = m.next + named calls.zipIdx)) ∧
      (¬ Fits base m.next calls.zipIdx → (c.toolDeltas calls).Broken m₀) := by
  obtain ⟨c', m', heq, h', hnext, htype, hbase', hmax'⟩ := h.startTools
  rw [← hbase] at hbase'
  rw [← hmax] at hmax'
  have hlinked := h'.linked
  obtain ⟨hm, hmatch⟩ := hlinked
  rw [htype] at hmatch
  obtain ⟨hnonneg, k, hopened, hnext', hk⟩ := hmatch
  have htools : HasTools m' base k := by
    rw [← hbase']
    exact ⟨hm, hopened, hnext'⟩
  unfold Conv.toolDeltas
  dsimp only
  rw [heq, hbase', ← hnext]
  refine ⟨fun hfits => ?_, fun hnot => h'.broken_emit (events_toolCalls_eq_none htools hnot)⟩
  obtain ⟨m₁, hm₁, hevents⟩ := events_toolCalls htools hfits
  have hmono : max₀ ≤ maxOffset max₀ calls.zipIdx := le_maxOffset
  rw [htools.next] at hfits
  rw [hmax'] at hk hnonneg
  have hle := named_le_maxOffset hfits hk
  have hmax₁ : calls.zipIdx.foldl (fun m p => max m (offset p)) c'.info.toolCallMaxIndexOffset =
      maxOffset max₀ calls.zipIdx := by
    rw [hmax']
    rfl
  rw [hmax₁]
  refine ⟨m₁, ⟨(events_emit h'.events).trans hevents, hm₁.running, ?_⟩, ?_⟩
  · dsimp only
    show match c'.info.lastMessagesType with
      | .none => _
      | .text => _
      | .thinking => _
      | .tools => _
    rw [htype]
    exact ⟨Int.le_trans hnonneg hmono, k + named calls.zipIdx, hbase' ▸ hm₁.opened,
      hbase' ▸ hm₁.next, hle⟩
  · have hstarted : m₁.next = m'.next + named calls.zipIdx := by
      rw [hm₁.next, htools.next, Int.natCast_add, Int.add_assoc]
    rw [← hstarted]
    exact ⟨fun himp => himp htype, fun heq _ => heq⟩

/-! ### A later chunk -/

theorem done_stopOpenBlocksAndAdvance : c.stopOpenBlocksAndAdvance.info.done = c.info.done := by
  unfold Conv.stopOpenBlocksAndAdvance
  split
  · rfl
  · rfl
  · rfl
  · rfl

theorem done_openBlock : (c.openBlock t block).info.done = c.info.done := by
  unfold Conv.openBlock
  split
  · exact done_stopOpenBlocksAndAdvance
  · rfl

theorem done_toolDeltas : (c.toolDeltas calls).info.done = c.info.done := by
  unfold Conv.toolDeltas
  dsimp only
  split
  · exact done_stopOpenBlocksAndAdvance
  · rfl

theorem done_deltas : (c.deltas choice).info.done = c.info.done := by
  unfold Conv.deltas
  dsimp only
  split
  · exact done_toolDeltas
  split
  · exact done_openBlock
  split
  · exact done_openBlock
  · rfl

theorem At.finish (h : c.At m₀ m) (hdone : c.info.done = false) (choice : Choice) (oaiUsage : Option Usage)
    (stopReason : String) :
    (if choice.isFinished ∨ c.info.done then c.stopOpenBlocks.closeMessage oaiUsage stopReason
      else c).EndsIff m₀ (choice.isFinished → AllStarted c.info m.next) := by
  by_cases hfinished : choice.isFinished = true
  · rw [if_pos (.inl hfinished)]
    have hclose := h.close oaiUsage stopReason
    exact ⟨fun himp => hclose.ends (himp hfinished), fun hnot => hclose.broken fun hall => hnot fun _ => hall⟩
  · rw [if_neg]
    · exact ⟨fun _ => h.ends, fun hnot => absurd (fun himp => absurd himp hfinished) hnot⟩
    · rw [hdone]
      exact fun hor => hor.elim hfinished nofun

theorem Broken.finish (h : c.Broken m₀) (choice : Choice) (oaiUsage : Option Usage) (stopReason : String) :
    (if choice.isFinished ∨ c.info.done then c.stopOpenBlocks.closeMessage oaiUsage stopReason
      else c).Broken m₀ := by
  split
  · exact ((h.emit _).emit _).emit _
  · exact h

theorem At.speak (h : c.At m₀ m) (hdone : c.info.done = false) (hspeaks : Speaks t block)
    {delta : BlockDelta} (htype : delta.type = block.type) (choice : Choice) (oaiUsage : Option Usage)
    (stopReason : String) {c' : Conv}
    (hc' : c' = (c.openBlock t block).emit [.contentBlockDelta (c.openBlock t block).info.index delta]) :
    (if choice.isFinished ∨ c'.info.done then c'.stopOpenBlocks.closeMessage oaiUsage stopReason
      else c').EndsIff m₀ (AllStarted c.info m.next) := by
  subst hc'
  have hdone' : (c.openBlock t block).info.done = false := done_openBlock.trans hdone
  refine ⟨fun hall => ?_, fun hnot => ?_⟩
  · obtain ⟨m', hopen, hkind⟩ := h.openBlock hall hspeaks
    have hspeaks' : Speaks (c.openBlock t block).info.lastMessagesType block := by
      rw [hkind]
      exact hspeaks
    have hdelta := hopen.delta hspeaks' htype
    exact (hdelta.finish hdone' choice oaiUsage stopReason).ends fun _ => allStarted_of_speaks hspeaks' _
  · exact ((h.broken_openBlock hnot hspeaks).emit _).finish choice oaiUsage stopReason

/-- A later chunk with a choice keeps the blocks in order just when its tool calls fit, and tool blocks that
it stops have all started. -/
theorem At.later (h : c.At m₀ m) (hdone : c.info.done = false) {rest : List Choice}
    (hchoices : resp.choices = choice :: rest) :
    (c.later resp choice).EndsIff m₀ (KeepsOrder c.info m.next resp) := by
  have hc : ∃ c', (if choice.isFinished then c.finishedBy choice else c) = c' ∧ c'.At m₀ m ∧
      c'.info.lastMessagesType = c.info.lastMessagesType ∧
      c'.info.toolCallBaseIndex = c.info.toolCallBaseIndex ∧
      c'.info.toolCallMaxIndexOffset = c.info.toolCallMaxIndexOffset ∧ c'.info.done = false := by
    split
    · exact ⟨_, rfl, h.finishedBy choice, rfl, rfl, rfl, hdone⟩
    · exact ⟨c, rfl, h, rfl, rfl, rfl, hdone⟩
  obtain ⟨c', heq, h', htype, hbase, hmax, hdone'⟩ := hc
  have hall : AllStarted c'.info m.next ↔ AllStarted c.info m.next := by
    unfold AllStarted
    rw [htype, hbase, hmax]
  unfold Conv.later KeepsOrder
  rw [hchoices]
  dsimp only
  rw [heq]
  by_cases hdefer : choice.isFinished = true ∧ resp.usage = none
  · rw [if_pos hdefer, if_pos hdefer]
    exact ⟨fun _ => h'.ends, fun hnot => absurd trivial hnot⟩
  rw [if_neg hdefer, if_neg hdefer]
  have hdeltas : ∀ c', (Conv.deltas choice c') =
      if choice.delta.toolCalls ≠ [] then c'.toolDeltas choice.delta.toolCalls
      else if choice.delta.getReasoningContent ≠ "" then
        (c'.openBlock .thinking .thinking).emit [.contentBlockDelta
          (c'.openBlock .thinking .thinking).info.index (.thinkingDelta choice.delta.getReasoningContent)]
      else if choice.delta.getContentString ≠ "" then
        (c'.openBlock .text .text).emit [.contentBlockDelta (c'.openBlock .text .text).info.index
          (.textDelta choice.delta.getContentString)]
      else c' := fun _ => rfl
  have hdone₂ : (c'.deltas choice).info.done = false := done_deltas.trans hdone'
  rw [hdeltas] at hdone₂ ⊢
  by_cases htools : choice.delta.toolCalls ≠ []
  · rw [if_pos htools] at hdone₂ ⊢
    rw [if_pos htools, ← htype, ← hbase, ← hmax]
    obtain ⟨hfits, hbroken⟩ : (Fits _ _ choice.delta.toolCalls.zipIdx → _) ∧ _ := h'.toolDeltas rfl rfl
    refine ⟨fun ⟨hfit, hlast⟩ => ?_, fun hnot => ?_⟩
    · obtain ⟨m', hat, hstarted⟩ := hfits hfit
      exact (hat.finish hdone₂ choice _ _).ends fun hfinished => hstarted.2 (hlast hfinished)
    · by_cases hfit : Fits (if c'.info.lastMessagesType = .tools then c'.info.toolCallBaseIndex
          else m.next) m.next choice.delta.toolCalls.zipIdx
      · obtain ⟨m', hat, hstarted⟩ := hfits hfit
        refine (hat.finish hdone₂ choice _ _).broken fun himp => hnot ⟨hfit, fun hfinished => ?_⟩
        exact hstarted.1 (himp hfinished)
      · exact (hbroken hfit).finish choice _ _
  rw [if_neg htools] at hdone₂ ⊢
  rw [if_neg htools]
  by_cases hreasoning : choice.delta.getReasoningContent ≠ ""
  · have hkeeps : choice.delta.getReasoningContent ≠ "" ∨ choice.delta.getContentString ≠ "" ∨
        choice.isFinished = true := .inl hreasoning
    rw [if_pos hreasoning, if_pos hkeeps, ← hall]
    have hspeaks : Speaks .thinking .thinking := trivial
    exact h'.speak hdone' hspeaks rfl choice _ _ rfl
  rw [if_neg hreasoning] at hdone₂ ⊢
  by_cases hcontent : choice.delta.getContentString ≠ ""
  · have hkeeps : choice.delta.getReasoningContent ≠ "" ∨ choice.delta.getContentString ≠ "" ∨
        choice.isFinished = true := .inr (.inl hcontent)
    rw [if_pos hcontent, if_pos hkeeps, ← hall]
    have hspeaks : Speaks .text .text := trivial
    exact h'.speak hdone' hspeaks rfl choice _ _ rfl
  rw [if_neg hcontent]
  have hfinish := h'.finish hdone' choice (resp.usage <|> c'.info.usage)
    (stopReasonOpenAI2Claude c'.info.finishReason)
  by_cases hfinished : choice.isFinished = true
  · have hkeeps : choice.delta.getReasoningContent ≠ "" ∨ choice.delta.getContentString ≠ "" ∨
        choice.isFinished = true := .inr (.inr hfinished)
    rw [if_pos hkeeps, ← hall]
    exact ⟨fun hstarted => hfinish.ends fun _ => hstarted,
      fun hnot => hfinish.broken fun himp => hnot (himp hfinished)⟩
  · have hkeeps : ¬ (choice.delta.getReasoningContent ≠ "" ∨ choice.delta.getContentString ≠ "" ∨
        choice.isFinished = true) := fun hor => hor.elim hreasoning fun hor => hor.elim hcontent hfinished
    rw [if_neg hkeeps]
    exact ⟨fun _ => hfinish.ends fun hf => absurd hf hfinished, fun hnot => absurd trivial hnot⟩

theorem At.usageOnly (h : c.At m₀ m) (hchoices : resp.choices = []) :
    (c.usageOnly resp).EndsIff m₀ (KeepsOrder c.info m.next resp) := by
  unfold Conv.usageOnly KeepsOrder
  rw [hchoices]
  dsimp only
  cases resp.usage <|> c.info.usage with
  | none => exact ⟨fun _ => h.ends, fun hnot => absurd nofun hnot⟩
  | some u =>
    have hclose := h.close (some u) (if stopReasonOpenAI2Claude c.info.finishReason = "" then "end_turn"
      else stopReasonOpenAI2Claude c.info.finishReason)
    exact ⟨fun himp => hclose.ends (himp rfl), fun hnot => hclose.broken fun hall => hnot fun _ => hall⟩

/-! ### The first chunk -/

theorem At.firstToolCall (h : c.At m₀ m) (hnone : c.info.lastMessagesType = .none) (hnext : m.next = 0)
    (choice : Choice) :
    ∃ m', (c.firstToolCall choice).At m₀ m' ∧ AllStarted (c.firstToolCall choice).info m'.next ∧
      ((c.firstToolCall choice).info.lastMessagesType = .none ∨
        (c.firstToolCall choice).info.lastMessagesType = .tools) := by
  obtain ⟨hm, hlinked⟩ := h.linked
  rw [hnone] at hlinked
  unfold Conv.firstToolCall
  cases choice.delta.toolCalls with
  | nil => exact ⟨m, h, fun htools => (nomatch hnone.symm.trans htools), .inl hnone⟩
  | cons toolCall rest =>
    have hstart : m.event (.contentBlockStart 0 (.toolUse toolCall.id toolCall.name)) =
        some { m with next := m.next + 1, opened := [(0, .toolUse)] } := by
      rw [Message.event, if_neg (Bool.eq_false_iff.1 hm)]
      show (if (0 : Int) = m.next then _ else _) = _
      rw [if_pos hnext.symm, hlinked.1]
      rfl
    have hat : ((c.openTools 0).emit [.contentBlockStart 0 (.toolUse toolCall.id toolCall.name)]).At m₀
        { m with next := m.next + 1, opened := [(0, .toolUse)] } := by
      refine ⟨?_, hm, Int.le_refl 0, 1, rfl, ?_, Int.le_refl 1⟩
      · show m₀.events (c.emit _).out = _
        rw [events_emit h.events, Message.events_singleton, hstart]
      · show m.next + 1 = 0 + 1
        rw [hnext]
    have hall : AllStarted ((c.openTools 0).emit
        [.contentBlockStart 0 (.toolUse toolCall.id toolCall.name)]).info (m.next + 1) := by
      intro
      rw [hnext]
      rfl
    dsimp only
    split
    next =>
      refine ⟨_, ⟨?_, hat.linked⟩, hall, .inr rfl⟩
      rw [events_emit hat.events, Message.events_singleton, Message.event,
        if_neg (Bool.eq_false_iff.1 hm)]
      exact if_pos List.mem_cons_self
    next => exact ⟨_, hat, hall, .inr rfl⟩

theorem At.firstContent (h : c.At m₀ m) (hall : AllStarted c.info m.next)
    (htype : c.info.lastMessagesType = .none ∨ c.info.lastMessagesType = .tools) (choice : Choice) :
    ∃ m', (c.firstContent choice).At m₀ m' ∧ AllStarted (c.firstContent choice).info m'.next := by
  have hspeak : ∀ t block delta, Speaks t block → delta.type = block.type →
      ∃ m', (((c.advanceTo t).emit [.contentBlockStart (c.advanceTo t).info.index block,
          .contentBlockDelta (c.advanceTo t).info.index delta]).setType t).At m₀ m' ∧
        AllStarted (((c.advanceTo t).emit [.contentBlockStart (c.advanceTo t).info.index block,
          .contentBlockDelta (c.advanceTo t).info.index delta]).setType t).info m'.next := by
    intro t block delta hspeaks hdelta
    have hne : c.info.lastMessagesType ≠ t := by
      rintro rfl
      rcases htype with htype | htype
      · rw [htype] at hspeaks
        cases hspeaks
      · rw [htype] at hspeaks
        cases hspeaks
    have hadvance : c.advanceTo t = c.stopOpenBlocksAndAdvance := if_pos hne
    obtain ⟨m', hat, -, hnone⟩ := h.stopOpenBlocksAndAdvance hall
    rw [hadvance]
    have hstart := hat.start hnone hspeaks
    have hdelta' := hstart.delta hspeaks hdelta
    refine ⟨_, ⟨?_, hdelta'.linked⟩, allStarted_of_speaks hspeaks _⟩
    refine Eq.trans ?_ hdelta'.events
    refine congrArg m₀.events ?_
    exact (List.append_assoc _ [_] [_]).symm
  unfold Conv.firstContent
  dsimp only
  split
  · exact hspeak .thinking .thinking _ trivial rfl
  split
  · exact hspeak .text .text _ trivial rfl
  · exact ⟨m, h, hall⟩

theorem At.first (h : c.At m₀ m) (hnone : c.info.lastMessagesType = .none) (hnext : m.next = 0)
    (estimatePromptTokens : Int) (resp : Chunk) : (c.first estimatePromptTokens resp).Ends m₀ := by
  have hstart : (c.emit [.messageStart resp.id resp.model estimatePromptTokens]).At m₀ m := by
    refine ⟨?_, h.linked⟩
    rw [events_emit h.events, Message.events_singleton, Message.event,
      if_neg (Bool.eq_false_iff.1 h.linked.1)]
  unfold Conv.first
  cases resp.choices with
  | nil => exact hstart.ends
  | cons choice rest =>
    obtain ⟨m₁, htool, hall, htype⟩ := hstart.firstToolCall hnone hnext choice
    obtain ⟨m₂, hcontent, hall₂⟩ := htool.firstContent hall htype choice
    dsimp only
    unfold Conv.firstFinish
    split
    · exact ((hcontent.finishedBy choice).close _ _).ends hall₂
    · exact hcontent.ends

end

end Conv

/-! ## Streams -/

namespace Blocks

/-- The record of a stream, and what has been sent of it. -/
structure History where
  info : RelayInfo
  sent : List ClaudeResponse

/-- The next chunk is counted and converted. -/
def step (h : History) (resp : Chunk) : History :=
  let r := streamResponseOpenAI2Claude resp
    { h.info with sendResponseCount := h.info.sendResponseCount + 1 }
  { info := r.2, sent := h.sent ++ r.1 }

/-- The blocks that have started. -/
def started (es : List ClaudeResponse) : Nat :=
  es.countP fun e => match e with
    | .contentBlockStart .. => true
    | _ => false

/-- Unless the message is done, a chunk after the first keeps the blocks in order. -/
def Orderly (h : History) (resp : Chunk) : Prop :=
  h.info.claudeConvertInfo.done = false → h.info.sendResponseCount ≠ 0 →
    KeepsOrder h.info.claudeConvertInfo (started h.sent) resp

/-- What holds of the record in every stream: before the first chunk nothing has been sent, and unless the
message is done, the record is linked to what the client has. -/
structure Sound (h : History) : Prop where
  first : h.info.sendResponseCount = 0 →
    h.sent = [] ∧ h.info.claudeConvertInfo.lastMessagesType = .none ∧
      h.info.claudeConvertInfo.index = 0
  linked : h.info.claudeConvertInfo.done = false →
    ∀ m, Message.events {} h.sent = some m → Linked h.info.claudeConvertInfo m

section
variable {h : History} {resp : Chunk} {m m' : Message} {es : List ClaudeResponse}

theorem next_eq_started (hevents : m.events es = some m') : m'.next = m.next + started es := by
  induction es generalizing m with
  | nil =>
    cases hevents
    exact (Int.add_zero _).symm
  | cons e es ih =>
    rw [Message.events] at hevents
    obtain ⟨m₁, hevent, hrest⟩ := Option.bind_eq_some_iff.1 hevents
    rw [ih hrest]
    unfold Message.event at hevent
    split at hevent
    · cases hevent
    cases e with
    | messageStart | messageDelta | messageStop =>
      cases hevent
      rfl
    | contentBlockStart i block =>
      dsimp only at hevent
      split at hevent
      · cases hevent
        have hcount : started (.contentBlockStart i block :: es) = started es + 1 :=
          List.countP_cons_of_pos rfl
        rw [hcount]
        show m.next + 1 + (started es : Int) = m.next + ((started es + 1 : Nat) : Int)
        omega
      · cases hevent
    | contentBlockDelta | contentBlockStop =>
      dsimp only at hevent
      split at hevent
      · cases hevent
        rfl
      · cases hevent

theorem step_conv (hsound : Sound h) (resp : Chunk) :
    ∃ c : Conv, (step h resp).sent = h.sent ++ c.out ∧ (step h resp).info.claudeConvertInfo = c.info ∧
      (step h resp).info.sendResponseCount = h.info.sendResponseCount + 1 ∧
      ∀ m, Message.events {} h.sent = some m → c.EndsIff m (Orderly h resp) := by
  unfold step streamResponseOpenAI2Claude
  dsimp only
  cases hdone : h.info.claudeConvertInfo.done with
  | true =>
    rw [if_pos rfl]
    refine ⟨{ info := h.info.claudeConvertInfo }, rfl, rfl, rfl, fun m _ => ⟨fun _ => ?_, fun hnot => ?_⟩⟩
    · exact ⟨m, rfl, fun hfalse => nomatch hdone.symm.trans hfalse⟩
    · exact absurd (fun hfalse => nomatch hdone.symm.trans hfalse) hnot
  | false =>
    rw [if_neg Bool.false_ne_true]
    refine ⟨_, rfl, rfl, rfl, fun m hm => ?_⟩
    have hat : Conv.At m { info := h.info.claudeConvertInfo } m := ⟨rfl, hsound.linked hdone m hm⟩
    by_cases hcount : h.info.sendResponseCount = 0
    · obtain ⟨hsent, hnone, -⟩ := hsound.first hcount
      rw [hsent] at hm
      cases hm
      rw [if_pos (congrArg (· + 1) hcount)]
      exact ⟨fun _ => hat.first hnone rfl _ resp, fun hnot => absurd (fun _ hne => absurd hcount hne) hnot⟩
    · have horderly : Orderly h resp ↔ KeepsOrder h.info.claudeConvertInfo m.next resp := by
        have hnext : m.next = started h.sent := (next_eq_started hm).trans (Int.zero_add _)
        rw [hnext]
        exact ⟨fun himp => himp hdone hcount, fun hkeeps _ _ => hkeeps⟩
      rw [horderly, if_neg fun heq => hcount (Nat.succ.inj heq)]
      cases hchoices : resp.choices with
      | nil => exact hat.usageOnly hchoices
      | cons choice rest => exact hat.later hdone hchoices

theorem sound_step (hsound : Sound h) (resp : Chunk) : Sound (step h resp) := by
  obtain ⟨c, hsent, hinfo, hcount, hends⟩ := step_conv hsound resp
  refine ⟨fun hzero => absurd (hcount.symm.trans hzero) (Nat.succ_ne_zero _), ?_⟩
  rw [hsent, hinfo]
  intro hdone m' hm'
  rw [Message.events_append] at hm'
  obtain ⟨m, hm, hout⟩ := Option.bind_eq_some_iff.1 hm'
  by_cases horderly : Orderly h resp
  · obtain ⟨m₁, hm₁, hlinked⟩ := (hends m hm).ends horderly
    rw [hm₁] at hout
    cases hout
    exact hlinked hdone
  · have hbroken : m.events c.out = none := (hends m hm).broken horderly
    rw [hbroken] at hout
    cases hout

theorem disciplined_step_iff (hsound : Sound h) (hdisciplined : Disciplined h.sent) :
    Disciplined (step h resp).sent ↔ Orderly h resp := by
  obtain ⟨c, hsent, -, -, hends⟩ := step_conv hsound resp
  obtain ⟨m, hm⟩ := Option.isSome_iff_exists.1 hdisciplined
  unfold Disciplined
  rw [hsent, Message.events_append, hm]
  show (m.events c.out).isSome = true ↔ _
  by_cases horderly : Orderly h resp
  · obtain ⟨m', hm', -⟩ := (hends m hm).ends horderly
    rw [hm']
    exact iff_of_true rfl horderly
  · have hbroken : m.events c.out = none := (hends m hm).broken horderly
    rw [hbroken]
    exact iff_of_false nofun horderly

end

/-- A fresh record, where the usage may be known from the start. -/
def fresh (estimatePromptTokens : Int) (usage : Option Usage) : RelayInfo :=
  { estimatePromptTokens := estimatePromptTokens, claudeConvertInfo := { usage := usage } }

theorem sound_fresh (estimatePromptTokens : Int) (usage : Option Usage) :
    Sound ⟨fresh estimatePromptTokens usage, []⟩ where
  first _ := ⟨rfl, rfl, rfl⟩
  linked _ m hm := by
    cases hm
    exact ⟨rfl, rfl, rfl⟩

/-- In every stream, all events that have been sent are in order after every chunk just when all chunks are
orderly. -/
theorem disciplined_iff (estimatePromptTokens : Int) (usage : Option Usage) (chunks : List Chunk) :
    Holds step (fun h => Disciplined h.sent) ⟨fresh estimatePromptTokens usage, []⟩ chunks ↔
      Meets step Orderly ⟨fresh estimatePromptTokens usage, []⟩ chunks :=
  holds_iff_meets (fun _ resp hsound => sound_step hsound resp)
    (fun _ _ hsound hdisciplined => disciplined_step_iff hsound hdisciplined)
    (sound_fresh estimatePromptTokens usage) rfl

/-! ### Two tool calls in the first chunk -/

/-- A chunk with tool calls. -/
def toolChunk (toolCalls : List ToolCall) : Chunk :=
  { id := "c", model := "m", choices := [{ delta := { toolCalls := toolCalls } }] }

/-- The first chunk names the calls 0 and 1, and the second one holds the arguments of the latter. -/
def parallelCalls : List Chunk :=
  [toolChunk [{ index := some 0, id := "a", name := "f" }, { index := some 1, id := "b", name := "g" }],
    toolChunk [{ index := some 1, arguments := "\x7b\x7d" }]]

/-- The second block never starts, and gets a delta. -/
theorem parallelCalls_not_disciplined :
    ¬ Holds step (fun h => Disciplined h.sent) ⟨fresh 10 none, []⟩ parallelCalls := by
  intro hholds
  exact absurd hholds.last (by decide +kernel)

end Blocks

end NewApi.Stream

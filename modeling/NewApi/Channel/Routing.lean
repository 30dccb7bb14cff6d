import NewApi.Channel.Model
import NewApi.Lib.Pick
import Mathlib.Data.Set.Basic

/-!
# Routing a request to a channel

A request names a group, a model and how often it was retried. Two implementations choose the
channel: `getChannel` queries the abilities table, and `getRandomSatisfiedChannel` looks into a cache
that `initChannelCache` builds from the channels. Both rank the distinct priorities of the channels
that serve the model, take the rank of the retry number, and draw one of its channels by weight. The
random number is an argument, so that the set of what an implementation can return
(`outcomes`) is its image over all draws.
-/

namespace NewApi

open Pick

/-! ## Model names -/

/-- `handleThinkingBudgetModel`. -/
def handleThinkingBudgetModel (name pre wildcard : String) : String :=
  if GoString.hasPrefix name pre ∧ GoString.contains name "-thinking-" then wildcard else name

/-- `FormatMatchingModelName`: names with parameters in them, mapped to the wildcard they are
configured under. -/
def formatMatchingModelName (name : String) : String :=
  let name :=
    if GoString.hasPrefix name "gemini-2.5-flash-lite" then
      handleThinkingBudgetModel name "gemini-2.5-flash-lite" "gemini-2.5-flash-lite-thinking-*"
    else if GoString.hasPrefix name "gemini-2.5-flash" then
      handleThinkingBudgetModel name "gemini-2.5-flash" "gemini-2.5-flash-thinking-*"
    else if GoString.hasPrefix name "gemini-2.5-pro" then
      handleThinkingBudgetModel name "gemini-2.5-pro" "gemini-2.5-pro-thinking-*"
    else name
  let name := if GoString.hasPrefix name "gpt-4-gizmo" then "gpt-4-gizmo-*" else name
  if GoString.hasPrefix name "gpt-4o-gizmo" then "gpt-4o-gizmo-*" else name

/-! ## Outcomes -/

/-- What a choice of a channel returns. -/
inductive Outcome
  | channel (id : Nat)
  | noChannel
  | error (msg : String)
deriving DecidableEq, Repr

/-- A source of random numbers: `draw n` is what `rand.Intn(n)` returns. -/
def Draws (draw : Nat → Nat) : Prop := ∀ n, 0 < n → draw n < n

/-- What a choice can return over all draws. -/
def outcomes (choose : (Nat → Nat) → Outcome) : Set Outcome :=
  { o | ∃ draw, Draws draw ∧ choose draw = o }

theorem outcomes_const (o : Outcome) : outcomes (fun _ => o) = {o} := by
  ext x
  constructor
  · rintro ⟨-, -, rfl⟩; rfl
  · rintro rfl; exact ⟨fun _ => 0, fun _ h => h, rfl⟩

/-- A choice that draws once, below `n`, has the outcomes of the numbers below `n`. -/
theorem mem_outcomes_draw {n : Nat} (hn : 0 < n) {f : Int → Outcome} {o : Outcome} :
    o ∈ outcomes (fun draw => f (draw n)) ↔ ∃ r : Int, 0 ≤ r ∧ r < n ∧ f r = o := by
  constructor
  · rintro ⟨draw, hdraw, rfl⟩
    exact ⟨draw n, Int.natCast_nonneg _, by exact_mod_cast hdraw n hn, rfl⟩
  · rintro ⟨r, hr, hlt, rfl⟩
    refine ⟨fun m => min r.toNat (m - 1), fun m hm => ?_, ?_⟩
    · show min r.toNat (m - 1) < m
      omega
    have hmin : ((min r.toNat (n - 1) : Nat) : Int) = r := by omega
    simp only [hmin]

namespace ChannelStore

/-! ## By query -/

/-- The abilities that are enabled for a model in a group. -/
def enabledAbilities (s : ChannelStore) (group model : String) : List Ability :=
  s.abilities.rows.filter fun a => a.group = group ∧ a.model = model ∧ a.enabled

/-- `getPriority`: the priority of a retry number, by rank. -/
def getPriority (s : ChannelStore) (group model : String) (retry : Nat) : Except String Int :=
  let priorities := ranks ((s.enabledAbilities group model).map Ability.priority)
  if priorities = [] then .error "数据库一致性被破坏"
  else
    .ok (priorities.getD (if retry ≥ priorities.length then priorities.length - 1 else retry) 0)

/-- `getChannelQuery`, run: the abilities of the priority of a retry number. The first try compares
with a subquery, which is `NULL`, and equals nothing, when there are no abilities. -/
def getChannelQuery (s : ChannelStore) (group model : String) (retry : Nat) :
    Except String (List Ability) :=
  let abilities := s.enabledAbilities group model
  if retry = 0 then
    .ok (abilities.filter fun a => some a.priority = (abilities.map Ability.priority).max?)
  else
    match s.getPriority group model retry with
    | .error e => .error e
    | .ok priority => .ok (abilities.filter fun a => a.priority = priority)

/-- The second loop of `GetChannel`, and the read of the channel it picks: the loop stops at a weight
of zero too, one step before `pickBelow` would. -/
def pickAbility (s : ChannelStore) (abilities : List Ability) (weight : Int) : Outcome :=
  match pickBelow (fun a => (a.weight : Int) + 10) (weight - 1) abilities with
  | none => .error "record not found"
  | some a =>
    match s.channels.get? a.channelId with
    | none => .error "record not found"
    | some c => .channel c.id

/-- `GetChannel`: the channel of an ability drawn by weight, each weighing ten more than it says. -/
def getChannel (s : ChannelStore) (group model : String) (retry : Nat) (draw : Nat → Nat) :
    Outcome :=
  match s.getChannelQuery group model retry with
  | .error e => .error e
  | .ok found =>
    let abilities := found.insertionSort fun a b => a.weight ≥ b.weight
    if abilities = [] then .noChannel
    else
      let weightSum := (abilities.map fun a => a.weight + 10).sum
      s.pickAbility abilities (draw weightSum)

end ChannelStore

/-! ## By cache -/

/-- The cache: the ids of the enabled channels of each group and model, and all channels. -/
structure ChannelCache where
  group2model2channels : String → String → List Nat
  channelsIDM : Table Channel.id

/-- The entries `InitChannelCache` appends, in the order of its three loops. -/
def cacheEntries (s : ChannelStore) : List ((String × String) × Nat) :=
  (s.channels.rows.filter fun c => c.status = .enabled).flatMap fun c =>
    c.groups.flatMap fun group => c.modelList.map fun model => ((group, model), c.id)

/-- `InitChannelCache`. It has maps for the groups of the abilities only, and panics (`none`) when a
channel has another group. Each list is sorted by priority. -/
def initChannelCache (s : ChannelStore) : Option ChannelCache :=
  let entries := cacheEntries s
  if entries.all fun e => s.abilities.rows.any fun a => a.group = e.1.1 then
    let priority (id : Nat) : Int := ((s.channels.get? id).map Channel.getPriority).getD 0
    some
      { group2model2channels := fun group model =>
          ((entries.filter fun e => e.1 = (group, model)).map Prod.snd).insertionSort
            fun i j => priority i ≥ priority j
        channelsIDM := s.channels }
  else none

namespace ChannelCache

/-- How weights are smoothed: the total they are scaled from, a factor and an addend. -/
structure Smoothing where
  sumWeight : Nat
  factor : Nat
  adjustment : Nat

/-- Channels that all weigh nothing weigh a hundred each, and small averages are scaled up. -/
def smoothing (targetChannels : List Channel) : Smoothing :=
  let sumWeight := (targetChannels.map Channel.getWeight).sum
  if sumWeight = 0 then ⟨targetChannels.length * 100, 1, 100⟩
  else if sumWeight / targetChannels.length < 10 then ⟨sumWeight, 100, 0⟩
  else ⟨sumWeight, 1, 0⟩

/-- What a channel takes from the random weight. -/
def Smoothing.cost (sm : Smoothing) (c : Channel) : Int := c.getWeight * sm.factor + sm.adjustment

/-- The last loop of `GetRandomSatisfiedChannel`. -/
def pickChannel (targetChannels : List Channel) (randomWeight : Int) : Outcome :=
  match pickBelow (smoothing targetChannels).cost randomWeight targetChannels with
  | some c => .channel c.id
  | none => .error "channel not found"

/-- The end of `GetRandomSatisfiedChannel`: among several channels, the priority of the retry number,
by rank, and a draw by weight. -/
def pickAmong (channels : List Channel) (group model : String) (retry : Nat) (draw : Nat → Nat) :
    Outcome :=
  let sortedUniquePriorities := ranks (channels.map Channel.getPriority)
  let targetPriority := sortedUniquePriorities.getD
    (if retry ≥ sortedUniquePriorities.length then sortedUniquePriorities.length - 1 else retry) 0
  let targetChannels := channels.filter fun c => c.getPriority = targetPriority
  if targetChannels = [] then
    .error ("no channel found, group: " ++ group ++ ", model: " ++ model ++ ", priority: " ++
      toString targetPriority)
  else
    let sm := smoothing targetChannels
    pickChannel targetChannels (draw (sm.sumWeight * sm.factor))

/-- A single channel is returned without a draw. -/
def pickListed (channels : List Channel) (group model : String) (retry : Nat)
    (draw : Nat → Nat) : Outcome :=
  match channels with
  | [c] => .channel c.id
  | channels => pickAmong channels group model retry draw

/-- `GetRandomSatisfiedChannel`, with the memory cache enabled. -/
def getRandomSatisfiedChannel (cache : ChannelCache) (group model : String) (retry : Nat)
    (draw : Nat → Nat) : Outcome :=
  let exactIds := cache.group2model2channels group model
  let ids :=
    if exactIds = [] then cache.group2model2channels group (formatMatchingModelName model)
    else exactIds
  if ids = [] then .noChannel
  else
    match ids.find? fun id => (cache.channelsIDM.get? id).isNone with
    | some id => .error ("数据库一致性错误，渠道# " ++ toString id ++ " 不存在，请联系管理员修复")
    | none => pickListed (ids.filterMap cache.channelsIDM.get?) group model retry draw

end ChannelCache

/-! ## The channels a request may go to -/

namespace ChannelStore

/-- The enabled channels that serve a model in a group. -/
def serving (s : ChannelStore) (group model : String) : List Channel :=
  s.channels.rows.filter fun c => c.status = .enabled ∧ c.Serves group model

/-- Those of the priority that a retry number selects. -/
def target (s : ChannelStore) (group model : String) (retry : Nat) : List Channel :=
  let l := s.serving group model
  l.filter fun c => c.getPriority = rankAt (l.map Channel.getPriority) retry

/-- When the cache routes as the query does. Where channels serve the model, those of the selected
priority all weigh something or all weigh nothing; where none does, none serves the normalized name
either, and this is the first try. -/
def RoutesAgree (s : ChannelStore) (group model : String) (retry : Nat) : Prop :=
  if s.serving group model = [] then
    s.serving group (formatMatchingModelName model) = [] ∧ retry = 0
  else
    (∀ c ∈ s.target group model retry, c.getWeight = 0) ∨
      ∀ c ∈ s.target group model retry, 0 < c.getWeight

section
variable {s : ChannelStore} {group model : String} {retry : Nat} {c : Channel}

@[simp] theorem mem_serving :
    c ∈ s.serving group model ↔ c ∈ s.channels ∧ c.status = .enabled ∧ c.Serves group model := by
  rw [serving, List.mem_filter, decide_eq_true_eq, Table.mem_rows]

theorem mem_target :
    c ∈ s.target group model retry ↔ c ∈ s.serving group model ∧
      c.getPriority = rankAt ((s.serving group model).map Channel.getPriority) retry := by
  rw [target, List.mem_filter, decide_eq_true_eq]

theorem target_ne_nil (h : s.serving group model ≠ []) : s.target group model retry ≠ [] := by
  have hne : (s.serving group model).map Channel.getPriority ≠ [] := by
    rwa [ne_eq, List.map_eq_nil_iff]
  obtain ⟨c, hc, hp⟩ := List.mem_map.1 (rankAt_mem hne retry)
  exact List.ne_nil_of_mem (mem_target.2 ⟨hc, hp⟩)

end

end ChannelStore

end NewApi

import NewApi.Lib.FirstBy
import NewApi.Lib.GoString
import NewApi.Lib.Table

/-!
# Channels and abilities

A channel is an upstream account; its `group` and `models` columns are comma-separated lists. The
abilities table is derived from the channels: one row for every group and model a channel serves,
with the channel's status, priority, weight and tag, so that routing can query it. `Mirror` says that
the derived table is exactly the image of the channels, and `addAbilities` and `updateAbilities` are
the two functions that write the image of one channel.
-/

namespace NewApi

/-- The status of a channel; `unknown` is the zero value. -/
inductive ChannelStatus
  | unknown | enabled | manuallyDisabled | autoDisabled
deriving DecidableEq, Repr

/-- The settings of a channel that holds several keys: how many, and the status of those that are
not enabled, by index. -/
structure ChannelInfo where
  isMultiKey : Bool := false
  multiKeySize : Nat := 0
  multiKeyStatusList : Table (Prod.fst : Nat × ChannelStatus → Nat) := .empty
deriving DecidableEq

/-- A channel, with the columns that routing and its maintenance read. -/
structure Channel where
  id : Nat
  key : String := ""
  status : ChannelStatus
  weight : Option Nat := none
  models : String
  group : String
  priority : Option Int := none
  tag : Option String := none
  channelInfo : ChannelInfo := {}
deriving DecidableEq

/-- A row of the abilities table. -/
structure Ability where
  group : String
  model : String
  channelId : Nat
  enabled : Bool
  priority : Int
  weight : Nat
  tag : Option String
deriving DecidableEq, Repr

/-- The primary key of an ability. -/
def Ability.key (a : Ability) : String × String × Nat := (a.group, a.model, a.channelId)

namespace Channel

/-- `GetPriority`. -/
def getPriority (c : Channel) : Int := c.priority.getD 0

/-- `GetWeight`. -/
def getWeight (c : Channel) : Nat := c.weight.getD 0

/-- The groups a channel serves. -/
def groups (c : Channel) : List String := GoString.split ',' c.group

/-- The models a channel serves. -/
def modelList (c : Channel) : List String := GoString.split ',' c.models

/-- The channel serves a model in a group. -/
def Serves (c : Channel) (group model : String) : Prop := group ∈ c.groups ∧ model ∈ c.modelList

instance (c : Channel) (group model : String) : Decidable (c.Serves group model) :=
  inferInstanceAs (Decidable (_ ∧ _))

/-- The group and model pairs of a channel, in the order of the source's two loops. -/
def pairs (c : Channel) : List (String × String) :=
  c.modelList.flatMap fun model => c.groups.map fun group => (group, model)

@[simp] theorem mem_pairs {c : Channel} {p : String × String} :
    p ∈ c.pairs ↔ c.Serves p.1 p.2 := by
  obtain ⟨g, m⟩ := p
  simp only [pairs, List.mem_flatMap, List.mem_map, Prod.mk.injEq, Serves]
  constructor
  · rintro ⟨m', hm, g', hg, rfl, rfl⟩
    exact ⟨hg, hm⟩
  · rintro ⟨hg, hm⟩
    exact ⟨m, hm, g, hg, rfl, rfl⟩

/-- The ability of a channel for one pair. A missing priority or weight is stored as zero. -/
def ability (c : Channel) (p : String × String) : Ability where
  group := p.1
  model := p.2
  channelId := c.id
  enabled := c.status = .enabled
  priority := c.getPriority
  weight := c.getWeight
  tag := c.tag

@[simp] theorem ability_key (c : Channel) (p : String × String) :
    (c.ability p).key = (p.1, p.2, c.id) := rfl

/-- The text by which the source tells pairs apart. -/
def pairKey (p : String × String) : String := p.1 ++ "|" ++ p.2

/-- The rows `AddAbilities` and `UpdateAbilities` create: a pair whose text has been seen is
skipped. -/
def abilityRows (c : Channel) : List Ability := (firstBy pairKey [] c.pairs).map c.ability

/-- No two pairs of the channel have the same text, so no ability is skipped. -/
def PairsDistinct (c : Channel) : Prop :=
  ∀ p ∈ c.pairs, ∀ q ∈ c.pairs, pairKey p = pairKey q → p = q

instance (c : Channel) : Decidable c.PairsDistinct :=
  inferInstanceAs (Decidable (∀ p ∈ c.pairs, ∀ q ∈ c.pairs, _))

theorem nodup_abilityRows (c : Channel) : (c.abilityRows.map Ability.key).Nodup := by
  rw [abilityRows, List.map_map]
  have hkeys : ((firstBy pairKey [] c.pairs).map pairKey).Nodup := nodup_firstBy
  refine (List.Nodup.of_map _ hkeys).map_on fun p _ q _ h => ?_
  simp only [Function.comp, ability_key, Prod.mk.injEq, and_true] at h
  exact Prod.ext h.1 h.2

theorem of_mem_abilityRows {c : Channel} {a : Ability} (h : a ∈ c.abilityRows) :
    ∃ p ∈ c.pairs, c.ability p = a := by
  obtain ⟨p, hp, rfl⟩ := List.mem_map.1 h
  exact ⟨p, (of_mem_firstBy hp).1, rfl⟩

theorem forall_mem_abilityRows {c : Channel} :
    (∀ p ∈ c.pairs, c.ability p ∈ c.abilityRows) ↔ c.PairsDistinct := by
  rw [PairsDistinct, ← forall_mem_firstBy]
  refine forall₂_congr fun p _ => ⟨fun h => ?_, fun h => List.mem_map_of_mem h⟩
  obtain ⟨q, hq, hqp⟩ := List.mem_map.1 h
  have hkey := congrArg Ability.key hqp
  simp only [ability_key, Prod.mk.injEq, and_true] at hkey
  rwa [← Prod.ext hkey.1 hkey.2]

end Channel

/-- The two tables. -/
structure ChannelStore where
  channels : Table Channel.id
  abilities : Table Ability.key
deriving DecidableEq

namespace ChannelStore

/-- The abilities table is exactly the image of the channels table. -/
def Mirror (s : ChannelStore) : Prop :=
  ∀ a, a ∈ s.abilities ↔ ∃ c ∈ s.channels, ∃ p ∈ c.pairs, c.ability p = a

theorem Mirror.mem_iff {s : ChannelStore} (h : s.Mirror) {a : Ability} :
    a ∈ s.abilities ↔ ∃ c ∈ s.channels, c.Serves a.group a.model ∧ c.ability (a.group, a.model) = a := by
  rw [h a]
  refine exists_congr fun c => and_congr_right fun _ => ?_
  constructor
  · rintro ⟨p, hp, rfl⟩
    exact ⟨Channel.mem_pairs.1 hp, rfl⟩
  · rintro ⟨hs, ha⟩
    exact ⟨_, Channel.mem_pairs.2 hs, ha⟩

end ChannelStore

end NewApi

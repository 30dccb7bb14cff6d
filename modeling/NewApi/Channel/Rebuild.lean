import NewApi.Channel.RoutingAgree

/-!
# Building the cache while abilities are rebuilt

`InitChannelCache` prepares its map from the groups of the abilities, and fills it from the channels: where an enabled
channel has a group that no ability has, it writes into a map that is nil. `FixAbility` empties the abilities and adds
those of one channel after another, without a transaction, so a sync may meet any of the stores between. The cache is
built, and lists every enabled channel, just where the groups of the enabled channels are groups of abilities
(`cached_iff`).
-/

namespace NewApi.ChannelStore

/-- The statements of `FixAbility` on the abilities. Channels are read and rows are created by fifties. -/
def fixStatements (s : ChannelStore) : List (Table Ability.key → Table Ability.key) :=
  (fun _ => .empty) :: (s.channels.rows.toChunks 50).flatMap fun chunk =>
    (fun t => t.filter fun a => a.channelId ∉ chunk.map Channel.id) ::
      chunk.flatMap fun c => (c.abilityRows.toChunks 50).map fun rows t => t.insertAll rows

/-- The stores that a sync may meet while `FixAbility` runs. -/
def fixAbility (s : ChannelStore) : List ChannelStore :=
  (s.fixStatements.scanl (fun t statement => statement t) s.abilities).map fun abilities => { s with abilities }

/-- The cache is built, and has the id of every enabled channel for each of its groups and models. -/
def Cached (s : ChannelStore) : Prop :=
  ∃ cache, initChannelCache s = some cache ∧ ∀ c ∈ s.channels, c.status = .enabled →
    ∀ group ∈ c.groups, ∀ model ∈ c.modelList, c.id ∈ cache.group2model2channels group model

section
variable {s : ChannelStore} {c : Channel}

/-- The cache is built, and lists every enabled channel, just where the groups are prepared. -/
theorem cached_iff : s.Cached ↔ s.GroupsPrepared := by
  constructor
  · rintro ⟨cache, hcache, -⟩
    by_contra h
    have hnone : initChannelCache s = none := if_neg (mt all_prepared_iff.1 h)
    exact nomatch hnone.symm.trans hcache
  · intro h
    obtain ⟨cache, hcache, hof⟩ := h.initChannelCache
    exact ⟨cache, hcache, fun c hc henabled group hgroup model hmodel =>
      (hof.ids _ _ _).2 ⟨c, mem_serving.2 ⟨hc, henabled, hgroup, hmodel⟩, rfl⟩⟩

theorem mem_scanl_self {α β : Type} {f : β → α → β} {b : β} {l : List α} : b ∈ l.scanl f b := by
  cases l with
  | nil => simp
  | cons a l => simp

/-- `FixAbility` begins by deleting all abilities. -/
theorem truncated_mem_fixAbility : { s with abilities := .empty } ∈ s.fixAbility := by
  refine List.mem_map.2 ⟨.empty, ?_, rfl⟩
  rw [fixStatements, List.scanl_cons]
  exact List.mem_cons_of_mem _ mem_scanl_self

end

/-- While the abilities of a store with an enabled channel are rebuilt, no cache is built for a while. -/
theorem gizmoStore_rebuilt :
    gizmoStore.Mirror ∧ { gizmoStore with abilities := .empty } ∈ gizmoStore.fixAbility ∧
      initChannelCache { gizmoStore with abilities := .empty } = none ∧
      ¬ Cached { gizmoStore with abilities := .empty } := by
  have hnone : initChannelCache { gizmoStore with abilities := .empty } = none := by decide
  refine ⟨gizmoStore_mirror, truncated_mem_fixAbility, hnone, ?_⟩
  rintro ⟨cache, hcache, -⟩
  exact nomatch hnone.symm.trans hcache

end NewApi.ChannelStore

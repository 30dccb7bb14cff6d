import NewApi.Channel.RoutingAgree
import NewApi.Lib.Run

/-!
# Updating the channel cache

Between two syncs the cache is updated in place. `CacheUpdateChannelStatus` writes the status of a channel and takes
the channel out of the lists when it is disabled; `CacheUpdateChannel` replaces a channel and leaves the lists alone.
A channel that is disabled is not routed to any more (`never_routes_disabled`), as long as no list holds it twice,
since only the first of its places is removed, and as long as no listed channel is replaced by one that is disabled.
A channel that is selected for some number of retries stays so when another one is disabled or enabled
(`Complete.keepsOthers`).
-/

namespace NewApi

open Pick

namespace ChannelCache

/-! ## The updates -/

/-- `CacheUpdateChannelStatus`. -/
def cacheUpdateChannelStatus (cache : ChannelCache) (id : Nat) (status : ChannelStatus) : ChannelCache where
  group2model2channels := fun group model =>
    if status ≠ .enabled then (cache.group2model2channels group model).erase id
    else cache.group2model2channels group model
  channelsIDM := cache.channelsIDM.modify id (fun c => { c with status }) fun _ => rfl

/-- `CacheUpdateChannel`. It panics (`none`) when the cache has no channel of that id. -/
def cacheUpdateChannel (cache : ChannelCache) : Option Channel → Option ChannelCache
  | none => some cache
  | some channel =>
    if (cache.channelsIDM.get? channel.id).isSome then
      some
        { cache with
          channelsIDM := cache.channelsIDM.modify channel.id
            (fun c => if c.id = channel.id then channel else c)
            fun c => by split <;> simp_all }
    else none

/-- The calls that update the cache. -/
inductive CacheCall
  | cacheUpdateChannelStatus (id : Nat) (status : ChannelStatus)
  | cacheUpdateChannel (channel : Option Channel)

/-- The cache after a call. A call that panics has changed nothing. -/
def step (cache : ChannelCache) : CacheCall → ChannelCache
  | .cacheUpdateChannelStatus id status => cache.cacheUpdateChannelStatus id status
  | .cacheUpdateChannel channel => (cache.cacheUpdateChannel channel).getD cache

/-! ## What is selected -/

/-- Every channel that is returned has the status `enabled` in the cache. -/
def RoutesEnabled (cache : ChannelCache) : Prop :=
  ∀ group model retry draw id, cache.getRandomSatisfiedChannel group model retry draw = .channel id →
    ∃ c, cache.channelsIDM.get? id = some c ∧ c.status = .enabled

/-- A channel is selected for some number of retries and some draw. -/
def Selectable (cache : ChannelCache) (group model : String) (id : Nat) : Prop :=
  ∃ retry, .channel id ∈ outcomes (cache.getRandomSatisfiedChannel group model retry)

/-- A change of the status of a channel leaves every other channel selectable. -/
def KeepsOthers (cache : ChannelCache) : Prop :=
  ∀ id status group model other, other ≠ id → cache.Selectable group model other →
    (cache.cacheUpdateChannelStatus id status).Selectable group model other

section
variable {cache : ChannelCache} {group model : String} {id : Nat}

/-- The channels that are selectable: those that weigh something, and those of a priority at which none does. -/
theorem Complete.selectable_iff (h : cache.Complete) : cache.Selectable group model id ↔
    ∃ c ∈ cache.listed group model, c.id = id ∧
      (0 < c.getWeight ∨ ∀ d ∈ cache.listed group model, d.getPriority = c.getPriority → d.getWeight = 0) := by
  have hdrawn : ∀ retry, .channel id ∈ outcomes (cache.getRandomSatisfiedChannel group model retry) ↔
      .channel id ∈ drawn (cache.listed group model) retry := by
    intro retry
    by_cases hnil : cache.listed group model = []
    · have hrun : cache.getRandomSatisfiedChannel group model retry = fun _ => .noChannel :=
        funext fun draw => by rw [h.getRandomSatisfiedChannel, if_pos hnil]
      rw [hrun, outcomes_const, hnil]
      refine iff_of_false (fun heq => by cases heq) ?_
      rintro ⟨c, hc, -⟩
      cases (mem_atRank.1 hc).1
    · have hrun : cache.getRandomSatisfiedChannel group model retry =
          pickListed (cache.listed group model) group model retry :=
        funext fun draw => by rw [h.getRandomSatisfiedChannel, if_neg hnil]
      rw [hrun, outcomes_pickListed hnil]
  unfold Selectable
  constructor
  · rintro ⟨retry, hmem⟩
    obtain ⟨c, hc, hweight, heq⟩ := (hdrawn retry).1 hmem
    obtain ⟨hl, hp⟩ := mem_atRank.1 hc
    refine ⟨c, hl, Outcome.channel.inj heq, hweight.symm.imp_right fun hall d hd hdp => ?_⟩
    exact hall d (mem_atRank.2 ⟨hd, hdp.trans hp⟩)
  · rintro ⟨c, hl, rfl, hweight⟩
    obtain ⟨retry, hrank⟩ := exists_rankAt (List.mem_map_of_mem (f := Channel.getPriority) hl)
    refine ⟨retry, (hdrawn retry).2 ⟨c, mem_atRank.2 ⟨hl, hrank.symm⟩, hweight.symm.imp_left fun hall d hd => ?_, rfl⟩⟩
    obtain ⟨hdl, hdp⟩ := mem_atRank.1 hd
    exact hall d hdl (hdp.trans hrank)

/-! ## Other channels -/

theorem get?_cacheUpdateChannelStatus {status : ChannelStatus} {k : Nat} :
    (cache.cacheUpdateChannelStatus id status).channelsIDM.get? k =
      if k = id then (cache.channelsIDM.get? k).map fun c => { c with status } else cache.channelsIDM.get? k := by
  unfold cacheUpdateChannelStatus
  dsimp only
  rw [Table.get?_modify]

theorem Complete.cacheUpdateChannelStatus (h : cache.Complete) (status : ChannelStatus) :
    (cache.cacheUpdateChannelStatus id status).Complete := by
  intro group model k hk
  have hmem : k ∈ cache.group2model2channels group model := by
    unfold ChannelCache.cacheUpdateChannelStatus at hk
    dsimp only at hk
    split at hk
    · exact List.mem_of_mem_erase hk
    · exact hk
  have hsome := h group model k hmem
  rw [get?_cacheUpdateChannelStatus]
  split
  · rwa [Option.isSome_map]
  · exact hsome

theorem listedIds_cacheUpdateChannelStatus (status : ChannelStatus) {other : Nat} (hne : other ≠ id)
    (hmem : other ∈ cache.listedIds group model) :
    (cache.cacheUpdateChannelStatus id status).listedIds group model =
      if status ≠ .enabled then (cache.listedIds group model).erase id else cache.listedIds group model := by
  have hcons : ∀ {l : List Nat}, other ∈ l → (if status ≠ .enabled then l.erase id else l) ≠ [] := by
    intro l hl
    split
    · exact List.ne_nil_of_mem ((List.mem_erase_of_ne hne).2 hl)
    · exact List.ne_nil_of_mem hl
  unfold listedIds at hmem ⊢
  by_cases hnil : cache.group2model2channels group model = []
  · rw [if_pos hnil] at hmem ⊢
    have hnil' : (cache.cacheUpdateChannelStatus id status).group2model2channels group model = [] := by
      unfold cacheUpdateChannelStatus
      dsimp only
      rw [hnil, List.erase_nil, ite_self]
    rw [if_pos hnil']
    rfl
  · rw [if_neg hnil] at hmem ⊢
    exact if_neg (hcons hmem)

theorem Complete.keepsOthers (h : cache.Complete) : cache.KeepsOthers := by
  intro id status group model other hne hsel
  obtain ⟨c, hc, rfl, hweight⟩ := h.selectable_iff.1 hsel
  obtain ⟨k, hk, hget⟩ := List.mem_filterMap.1 hc
  obtain rfl : c.id = k := Table.key_of_get? hget
  have hids := listedIds_cacheUpdateChannelStatus status hne hk
  -- the channels of the list after the update are those of before, but for their status
  have hbefore : ∀ d ∈ (cache.cacheUpdateChannelStatus id status).listed group model,
      ∃ e ∈ cache.listed group model, e.getPriority = d.getPriority ∧ e.getWeight = d.getWeight := by
    intro d hd
    obtain ⟨j, hj, hjd⟩ := List.mem_filterMap.1 hd
    have hj' : j ∈ cache.listedIds group model := by
      rw [hids] at hj
      split at hj
      · exact List.mem_of_mem_erase hj
      · exact hj
    rw [get?_cacheUpdateChannelStatus] at hjd
    split at hjd
    · obtain ⟨e, he, rfl⟩ := Option.map_eq_some_iff.1 hjd
      exact ⟨e, List.mem_filterMap.2 ⟨j, hj', he⟩, rfl, rfl⟩
    · exact ⟨d, List.mem_filterMap.2 ⟨j, hj', hjd⟩, rfl, rfl⟩
  refine (h.cacheUpdateChannelStatus status).selectable_iff.2 ⟨c, ?_, rfl, hweight.imp_right fun hall d hd hdp => ?_⟩
  · refine List.mem_filterMap.2 ⟨c.id, ?_, ?_⟩
    · rw [hids]
      split
      · exact (List.mem_erase_of_ne hne).2 hk
      · exact hk
    · rw [get?_cacheUpdateChannelStatus, if_neg hne]
      exact hget
  · obtain ⟨e, he, hep, hew⟩ := hbefore d hd
    rw [← hew]
    exact hall e he (hep.trans hdp)

end

/-! ## Disabled channels -/

/-- Every listed channel is cached and enabled. -/
def ListsEnabled (cache : ChannelCache) : Prop :=
  ∀ group model, ∀ id ∈ cache.group2model2channels group model,
    ∃ c, cache.channelsIDM.get? id = some c ∧ c.status = .enabled

/-- A call keeps to the lists: what it disables is in none of them twice, or is replaced while it is in none. -/
def CacheCall.Clean (cache : ChannelCache) : CacheCall → Prop
  | .cacheUpdateChannelStatus id status =>
    status = .enabled ∨ ∀ group model, (cache.group2model2channels group model).count id ≤ 1
  | .cacheUpdateChannel channel =>
    ∀ c, channel = some c → c.status = .enabled ∨ ∀ group model, c.id ∉ cache.group2model2channels group model

section
variable {cache : ChannelCache} {s : ChannelStore}

theorem ListsEnabled.complete (h : cache.ListsEnabled) : cache.Complete := by
  intro group model id hid
  obtain ⟨c, hc, -⟩ := h group model id hid
  rw [hc]
  rfl

theorem ListsEnabled.routesEnabled (h : cache.ListsEnabled) : cache.RoutesEnabled := by
  intro group model retry draw id hid
  obtain ⟨c, hc, rfl⟩ := of_getRandomSatisfiedChannel_eq hid
  obtain ⟨k, hk, hget⟩ := List.mem_filterMap.1 (mem_atRank.1 hc).1
  obtain rfl : c.id = k := Table.key_of_get? hget
  have henabled : ∃ d, cache.channelsIDM.get? c.id = some d ∧ d.status = .enabled := by
    unfold listedIds at hk
    split at hk
    · exact h _ _ _ hk
    · exact h _ _ _ hk
  exact henabled

theorem listsEnabled_initChannelCache (h : initChannelCache s = some cache) : cache.ListsEnabled := by
  unfold initChannelCache at h
  dsimp only at h
  split at h
  · cases h
    intro group model id hid
    simp only [List.mem_insertionSort, List.mem_map, List.mem_filter, decide_eq_true_eq] at hid
    obtain ⟨e, ⟨he, -⟩, rfl⟩ := hid
    obtain ⟨c, hc, hce⟩ := ChannelStore.mem_cacheEntries.1 he
    obtain ⟨hmem, henabled, -⟩ := ChannelStore.mem_serving.1 hc
    refine ⟨c, ?_, henabled⟩
    rw [← hce]
    exact Table.get?_key hmem
  · cases h

theorem step_cacheUpdateChannel (cache : ChannelCache) (channel : Option Channel) :
    (step cache (.cacheUpdateChannel channel)).group2model2channels = cache.group2model2channels ∧
      ∀ k, (step cache (.cacheUpdateChannel channel)).channelsIDM.get? k = cache.channelsIDM.get? k ∨
        ∃ c, channel = some c ∧ c.id = k ∧ (step cache (.cacheUpdateChannel channel)).channelsIDM.get? k = some c := by
  cases channel with
  | none => exact ⟨rfl, fun k => .inl rfl⟩
  | some c =>
    by_cases hsome : (cache.channelsIDM.get? c.id).isSome
    · unfold step cacheUpdateChannel
      dsimp only
      rw [if_pos hsome]
      refine ⟨rfl, fun k => ?_⟩
      rw [Option.getD_some, Table.get?_modify]
      split
      next heq =>
        obtain ⟨d, hd⟩ := Option.isSome_iff_exists.1 hsome
        subst heq
        rw [hd]
        exact .inr ⟨c, rfl, rfl, congrArg some (if_pos (Table.key_of_get? hd))⟩
      · exact .inl rfl
    · unfold step cacheUpdateChannel
      dsimp only
      rw [if_neg hsome]
      exact ⟨rfl, fun k => .inl rfl⟩

theorem ListsEnabled.after {call : CacheCall} (h : cache.ListsEnabled) (hclean : call.Clean cache) :
    (step cache call).ListsEnabled := by
  intro group model k hk
  cases call with
  | cacheUpdateChannelStatus id status =>
    show ∃ c, (cache.cacheUpdateChannelStatus id status).channelsIDM.get? k = some c ∧ _
    have hk' : k ∈ if status ≠ .enabled then (cache.group2model2channels group model).erase id
      else cache.group2model2channels group model := hk
    rw [get?_cacheUpdateChannelStatus]
    by_cases henabled : status = .enabled
    · rw [if_neg (not_not.2 henabled)] at hk'
      obtain ⟨c, hc, hce⟩ := h group model k hk'
      split
      · exact ⟨_, by rw [hc, Option.map_some], henabled⟩
      · exact ⟨c, hc, hce⟩
    · rw [if_pos henabled] at hk'
      have hcount := hclean.resolve_left henabled group model
      -- its only place in the list has been removed
      have hne : k ≠ id := by
        rintro rfl
        have hpos := List.count_pos_iff.2 hk'
        rw [List.count_erase_self] at hpos
        omega
      rw [if_neg hne]
      exact h group model k (List.mem_of_mem_erase hk')
  | cacheUpdateChannel channel =>
    obtain ⟨hlists, hget⟩ := step_cacheUpdateChannel cache channel
    rw [hlists] at hk
    rcases hget k with hget | ⟨c, rfl, rfl, hget⟩
    · rw [hget]
      exact h group model k hk
    · rcases hclean c rfl with henabled | hnot
      · exact ⟨c, hget, henabled⟩
      · exact absurd hk (hnot group model)

/-- After a sync and any calls that keep to the lists, no disabled channel is routed to, and no update of a status
takes another channel from the selection. -/
theorem never_routes_disabled (hinit : initChannelCache s = some cache) {calls : List CacheCall}
    (h : Run.Meets step (fun cache call => call.Clean cache) cache calls) :
    Run.Holds step (fun cache => cache.RoutesEnabled ∧ cache.KeepsOthers) cache calls :=
  h.holds (fun _ _ hlists hclean => ListsEnabled.after hlists hclean)
    (fun _ hlists => ⟨hlists.routesEnabled, hlists.complete.keepsOthers⟩) (listsEnabled_initChannelCache hinit)

end

/-! ## A model that is listed once, and one that is listed twice -/

theorem gizmoStore_cached : (initChannelCache ChannelStore.gizmoStore).isSome := by decide

def gizmoCache : ChannelCache := (initChannelCache ChannelStore.gizmoStore).get gizmoStore_cached

theorem count_gizmoCache (group model : String) : (gizmoCache.group2model2channels group model).count 1 ≤ 1 := by
  have hlist : gizmoCache.group2model2channels group model =
      ((cacheEntries ChannelStore.gizmoStore).filter (fun e => e.1 = (group, model)) |>.map Prod.snd).insertionSort
        fun i j => ((ChannelStore.gizmoStore.channels.get? i).map Channel.getPriority).getD 0 ≥
          ((ChannelStore.gizmoStore.channels.get? j).map Channel.getPriority).getD 0 := rfl
  have hentries : (cacheEntries ChannelStore.gizmoStore).length = 1 := by decide
  refine List.count_le_length.trans ?_
  rw [hlist, List.length_insertionSort, List.length_map, ← hentries]
  exact List.length_filter_le _ _

/-- A channel that is disabled, and enabled again. -/
theorem never_routes_disabled_gizmo :
    Run.Holds step (fun cache => cache.RoutesEnabled ∧ cache.KeepsOthers) gizmoCache
      [.cacheUpdateChannelStatus 1 .manuallyDisabled, .cacheUpdateChannelStatus 1 .enabled] :=
  never_routes_disabled (Option.some_get gizmoStore_cached).symm ⟨.inr count_gizmoCache, .inl rfl, trivial⟩

/-- A channel with a model twice in its column. -/
def twiceChannel : Channel := { id := 1, status := .enabled, models := "m,m", group := "default" }

/-- The store of that channel, with its one ability. -/
def twiceStore : ChannelStore where
  channels := ⟨[twiceChannel], by decide⟩
  abilities := ⟨twiceChannel.abilityRows, twiceChannel.nodup_abilityRows⟩

theorem twiceStore_cached : (initChannelCache twiceStore).isSome := by decide

def twiceCache : ChannelCache := (initChannelCache twiceStore).get twiceStore_cached

theorem twiceStore_cache : initChannelCache twiceStore = some twiceCache := (Option.some_get _).symm

example : twiceCache.group2model2channels "default" "m" = [1, 1] := by decide

/-- Once it is disabled, the second of its places is still routed to. So is a channel that is replaced by a disabled
one. -/
theorem disabled_routed :
    initChannelCache twiceStore = some twiceCache ∧
      (step twiceCache (.cacheUpdateChannelStatus 1 .manuallyDisabled)).getRandomSatisfiedChannel
        "default" "m" 0 (fun _ => 0) = .channel 1 ∧
      ((step twiceCache (.cacheUpdateChannelStatus 1 .manuallyDisabled)).channelsIDM.get? 1).map Channel.status =
        some .manuallyDisabled ∧
      (step twiceCache (.cacheUpdateChannel (some { twiceChannel with status := .autoDisabled }))).getRandomSatisfiedChannel
        "default" "m" 0 (fun _ => 0) = .channel 1 ∧
      ((step twiceCache (.cacheUpdateChannel (some { twiceChannel with status := .autoDisabled }))).channelsIDM.get?
        1).map Channel.status = some .autoDisabled := by
  refine ⟨twiceStore_cache, by decide, by decide, by decide, by decide⟩

end ChannelCache

end NewApi

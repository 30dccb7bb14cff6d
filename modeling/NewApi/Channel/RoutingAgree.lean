import NewApi.Channel.Draw

/-!
# Routing by cache and by query

For a store whose abilities mirror its channels, what the query can return (`outcomes_getChannel`)
and what the cache can return (`outcomes_getRandomSatisfiedChannel`) are computed as sets, both in
terms of the enabled channels that serve the model. The query reaches every channel of the selected
priority; the cache reaches those that weigh something, or all when none does, and it falls back on
the normalized model name, which the query does not. The two sets are equal just when `RoutesAgree`
holds.
-/

namespace NewApi

open Pick

namespace ChannelStore

section
variable {s : ChannelStore} {group model : String} {retry : Nat}

/-! ## By query -/

theorem Mirror.mem_enabledAbilities (h : s.Mirror) {a : Ability} :
    a ∈ s.enabledAbilities group model ↔
      ∃ c ∈ s.serving group model, c.ability (group, model) = a := by
  simp only [enabledAbilities, List.mem_filter, decide_eq_true_eq, ← Table.mem_rows, h.mem_iff,
    mem_serving]
  constructor
  · rintro ⟨⟨c, hc, hs, ha⟩, rfl, rfl, hen⟩
    have hst : c.status = .enabled := by
      rw [← ha] at hen
      exact of_decide_eq_true hen
    exact ⟨c, ⟨hc, hst, hs⟩, ha⟩
  · rintro ⟨c, ⟨hc, hst, hs⟩, rfl⟩
    exact ⟨⟨c, hc, hs, rfl⟩, rfl, rfl, decide_eq_true hst⟩

theorem Mirror.mem_priorities (h : s.Mirror) (x : Int) :
    x ∈ (s.enabledAbilities group model).map Ability.priority ↔
      x ∈ (s.serving group model).map Channel.getPriority := by
  simp only [List.mem_map, h.mem_enabledAbilities]
  constructor
  · rintro ⟨a, ⟨c, hc, rfl⟩, rfl⟩
    exact ⟨c, hc, rfl⟩
  · rintro ⟨c, hc, rfl⟩
    exact ⟨_, ⟨c, hc, rfl⟩, rfl⟩

theorem Mirror.enabledAbilities_eq_nil (h : s.Mirror) :
    s.enabledAbilities group model = [] ↔ s.serving group model = [] := by
  simp only [List.eq_nil_iff_forall_not_mem, h.mem_enabledAbilities]
  constructor
  · intro hno c hc
    exact hno _ ⟨c, hc, rfl⟩
  · rintro hno a ⟨c, hc, -⟩
    exact hno c hc

theorem Mirror.getChannelQuery_ok (h : s.Mirror) (hne : s.serving group model ≠ []) :
    ∃ found, s.getChannelQuery group model retry = .ok found ∧
      ∀ a, a ∈ found ↔ ∃ c ∈ s.target group model retry, c.ability (group, model) = a := by
  have hrank : ∀ r, rankAt ((s.enabledAbilities group model).map Ability.priority) r =
      rankAt ((s.serving group model).map Channel.getPriority) r :=
    rankAt_congr h.mem_priorities
  have hab : (s.enabledAbilities group model).map Ability.priority ≠ [] := by
    rw [ne_eq, List.map_eq_nil_iff, h.enabledAbilities_eq_nil]
    exact hne
  have hmem : ∀ a, a ∈ s.enabledAbilities group model ∧
      a.priority = rankAt ((s.serving group model).map Channel.getPriority) retry ↔
      ∃ c ∈ s.target group model retry, c.ability (group, model) = a := by
    intro a
    rw [h.mem_enabledAbilities]
    constructor
    · rintro ⟨⟨c, hc, rfl⟩, hp⟩
      exact ⟨c, mem_target.2 ⟨hc, hp⟩, rfl⟩
    · rintro ⟨c, hc, rfl⟩
      exact ⟨⟨c, (mem_target.1 hc).1, rfl⟩, (mem_target.1 hc).2⟩
  unfold getChannelQuery
  split
  next hr =>
    refine ⟨_, rfl, fun a => ?_⟩
    rw [← hmem, List.mem_filter, decide_eq_true_eq, max?_eq_rankAt hab, hrank, hr,
      Option.some_inj]
  next =>
    have hprio : s.getPriority group model retry =
        .ok (rankAt ((s.serving group model).map Channel.getPriority) retry) := by
      rw [getPriority, if_neg (ranks_ne_nil hab), ← hrank]
      rfl
    rw [hprio]
    refine ⟨_, rfl, fun a => ?_⟩
    rw [← hmem, List.mem_filter, decide_eq_true_eq]

theorem sum_ability_costs (l : List Ability) :
    (l.map fun a => (a.weight : Int) + 10).sum = ((l.map fun a => a.weight + 10).sum : Nat) := by
  induction l with
  | nil => rfl
  | cons a l ih =>
    rw [List.map_cons, List.sum_cons, List.map_cons, List.sum_cons, ih]
    push_cast
    rfl

theorem exists_pickAbility {l : List Ability} (hl : l ≠ [])
    (hc : ∀ a ∈ l, ∃ c ∈ s.channels, c.id = a.channelId) {o : Outcome} :
    (∃ r : Int, 0 ≤ r ∧ r < ((l.map fun a => a.weight + 10).sum : Nat) ∧ s.pickAbility l r = o) ↔
      ∃ a ∈ l, .channel a.channelId = o := by
  have hcost : ∀ a ∈ l, 2 ≤ (a.weight : Int) + 10 := fun a _ => by omega
  have hpick : ∀ a ∈ l, ∀ r, pickBelow (fun a => (a.weight : Int) + 10) (r - 1) l = some a →
      s.pickAbility l r = .channel a.channelId := by
    intro a ha r hr
    obtain ⟨c, hcs, hid⟩ := hc a ha
    have hget : s.channels.get? a.channelId = some c := by rw [← hid]; exact Table.get?_key hcs
    simp only [pickAbility, hr, hget, hid]
  rw [← sum_ability_costs]
  constructor
  · rintro ⟨r, hr, hlt, rfl⟩
    have hlt' : r - 1 < (l.map fun a => (a.weight : Int) + 10).sum := by omega
    obtain ⟨a, ha⟩ := pickBelow_isSome hl hlt'
    exact ⟨a, mem_of_pickBelow ha, (hpick a (mem_of_pickBelow ha) r ha).symm⟩
  · rintro ⟨a, ha, rfl⟩
    obtain ⟨r, hr, hlt, hsome⟩ := (exists_pickBelow_shifted hcost).2 ha
    exact ⟨r, hr, hlt, hpick a ha r hsome⟩

theorem Mirror.outcomes_getChannel (h : s.Mirror) (hne : s.serving group model ≠ []) :
    outcomes (s.getChannel group model retry) =
      { o | ∃ c ∈ s.target group model retry, .channel c.id = o } := by
  obtain ⟨found, hfound, hmem⟩ := h.getChannelQuery_ok hne
  have hsort : ∀ a, a ∈ found.insertionSort (fun a b => a.weight ≥ b.weight) ↔ a ∈ found :=
    fun a => List.mem_insertionSort _
  generalize hl : found.insertionSort (fun a b => a.weight ≥ b.weight) = l at hsort
  have htarget : s.target group model retry ≠ [] := target_ne_nil hne
  obtain ⟨c₀, hc₀⟩ := List.exists_mem_of_ne_nil _ htarget
  have ha₀ : c₀.ability (group, model) ∈ l := (hsort _).2 ((hmem _).2 ⟨c₀, hc₀, rfl⟩)
  have hlne : l ≠ [] := List.ne_nil_of_mem ha₀
  have hrun : s.getChannel group model retry =
      fun draw => s.pickAbility l (draw (l.map fun a => a.weight + 10).sum) := by
    funext draw
    simp only [getChannel, hfound, hl, if_neg hlne]
  have hpos : 0 < (l.map fun a => a.weight + 10).sum := by
    cases l with
    | nil => exact absurd rfl hlne
    | cons a l => rw [List.map_cons, List.sum_cons]; omega
  have hchan : ∀ a ∈ l, ∃ c ∈ s.channels, c.id = a.channelId := by
    intro a ha
    obtain ⟨c, hc, rfl⟩ := (hmem a).1 ((hsort a).1 ha)
    exact ⟨c, (mem_serving.1 (mem_target.1 hc).1).1, rfl⟩
  ext o
  rw [hrun, mem_outcomes_draw hpos, exists_pickAbility hlne hchan]
  constructor
  · rintro ⟨a, ha, rfl⟩
    obtain ⟨c, hc, rfl⟩ := (hmem a).1 ((hsort a).1 ha)
    exact ⟨c, hc, rfl⟩
  · rintro ⟨c, hc, rfl⟩
    exact ⟨_, (hsort _).2 ((hmem _).2 ⟨c, hc, rfl⟩), rfl⟩

theorem Mirror.outcomes_getChannel_of_nil (h : s.Mirror) (hnil : s.serving group model = []) :
    outcomes (s.getChannel group model retry) =
      {if retry = 0 then .noChannel else .error "数据库一致性被破坏"} := by
  have hab := h.enabledAbilities_eq_nil.2 hnil
  rw [← outcomes_const]
  congr 1
  funext draw
  by_cases hr : retry = 0
  · simp only [getChannel, getChannelQuery, hab, hr, if_true, List.filter_nil,
      List.insertionSort_nil]
  · have hprio : s.getPriority group model retry = .error "数据库一致性被破坏" := by
      rw [getPriority, hab]
      rfl
    simp only [getChannel, getChannelQuery, hprio, hr, if_false]

/-! ## By cache -/

theorem mem_cacheEntries {e : (String × String) × Nat} :
    e ∈ cacheEntries s ↔ ∃ c ∈ s.serving e.1.1 e.1.2, c.id = e.2 := by
  obtain ⟨⟨g, m⟩, id⟩ := e
  simp only [cacheEntries, List.mem_flatMap, List.mem_filter, decide_eq_true_eq, List.mem_map,
    Prod.mk.injEq, mem_serving, Channel.Serves, Table.mem_rows]
  constructor
  · rintro ⟨c, ⟨hc, hst⟩, g', hg, m', hm, ⟨rfl, rfl⟩, rfl⟩
    exact ⟨c, ⟨hc, hst, hg, hm⟩, rfl⟩
  · rintro ⟨c, ⟨hc, hst, hg, hm⟩, rfl⟩
    exact ⟨c, ⟨hc, hst⟩, g, hg, m, hm, ⟨rfl, rfl⟩, rfl⟩

/-- A cache that holds the channels of the store and lists those that serve each model. -/
structure CacheOf (s : ChannelStore) (cache : ChannelCache) : Prop where
  channels : cache.channelsIDM = s.channels
  ids : ∀ group model id, id ∈ cache.group2model2channels group model ↔
    ∃ c ∈ s.serving group model, c.id = id

/-- The groups of the enabled channels are groups of abilities. -/
def GroupsPrepared (s : ChannelStore) : Prop :=
  ∀ c ∈ s.channels, c.status = .enabled → ∀ group ∈ c.groups, ∃ a ∈ s.abilities, a.group = group

theorem all_prepared_iff : ((cacheEntries s).all fun e => s.abilities.rows.any fun a => a.group = e.1.1) = true ↔
    s.GroupsPrepared := by
  simp only [List.all_eq_true, List.any_eq_true, decide_eq_true_eq]
  constructor
  · intro h c hc henabled group hgroup
    obtain ⟨model, hmodel⟩ := List.exists_mem_of_ne_nil _ (GoString.split_ne_nil ',' c.models)
    exact h ((group, model), c.id) (mem_cacheEntries.2 ⟨c, mem_serving.2 ⟨hc, henabled, hgroup, hmodel⟩, rfl⟩)
  · intro h e he
    obtain ⟨c, hserving, -⟩ := mem_cacheEntries.1 he
    obtain ⟨hc, henabled, hserves⟩ := mem_serving.1 hserving
    exact h c hc henabled e.1.1 hserves.1

theorem GroupsPrepared.initChannelCache (h : s.GroupsPrepared) :
    ∃ cache, initChannelCache s = some cache ∧ s.CacheOf cache := by
  refine ⟨_, if_pos (all_prepared_iff.2 h), rfl, fun group model id => ?_⟩
  simp only [List.mem_insertionSort, List.mem_map, List.mem_filter, decide_eq_true_eq]
  constructor
  · rintro ⟨e, ⟨he, heq⟩, rfl⟩
    rw [mem_cacheEntries, heq] at he
    exact he
  · rintro ⟨c, hc, rfl⟩
    exact ⟨((group, model), c.id), ⟨mem_cacheEntries.2 ⟨c, hc, rfl⟩, rfl⟩, rfl⟩

theorem Mirror.groupsPrepared (h : s.Mirror) : s.GroupsPrepared := by
  intro c hc _ group hgroup
  obtain ⟨model, hmodel⟩ := List.exists_mem_of_ne_nil _ (GoString.split_ne_nil ',' c.models)
  have hserves : c.Serves group model := ⟨hgroup, hmodel⟩
  exact ⟨c.ability (group, model), (h _).2 ⟨c, hc, _, Channel.mem_pairs.2 hserves, rfl⟩, rfl⟩

theorem Mirror.initChannelCache (h : s.Mirror) :
    ∃ cache, initChannelCache s = some cache ∧ s.CacheOf cache := h.groupsPrepared.initChannelCache

variable {cache : ChannelCache}

theorem CacheOf.ids_eq_nil (h : s.CacheOf cache) :
    cache.group2model2channels group model = [] ↔ s.serving group model = [] := by
  simp only [List.eq_nil_iff_forall_not_mem, h.ids]
  constructor
  · intro hno c hc
    exact hno _ ⟨c, hc, rfl⟩
  · rintro hno id ⟨c, hc, -⟩
    exact hno c hc

theorem CacheOf.find?_missing (h : s.CacheOf cache) :
    (cache.group2model2channels group model).find?
      (fun id => (cache.channelsIDM.get? id).isNone) = none := by
  rw [List.find?_eq_none]
  intro id hid
  obtain ⟨c, hc, rfl⟩ := (h.ids _ _ _).1 hid
  rw [h.channels, Table.get?_key (mem_serving.1 hc).1]
  simp

theorem CacheOf.mem_channels (h : s.CacheOf cache) {c : Channel} :
    c ∈ (cache.group2model2channels group model).filterMap cache.channelsIDM.get? ↔
      c ∈ s.serving group model := by
  rw [List.mem_filterMap, h.channels]
  constructor
  · rintro ⟨id, hid, hget⟩
    obtain ⟨d, hd, rfl⟩ := (h.ids _ _ _).1 hid
    rw [Table.get?_key (mem_serving.1 hd).1] at hget
    cases hget
    exact hd
  · intro hc
    exact ⟨c.id, (h.ids _ _ _).2 ⟨c, hc, rfl⟩, Table.get?_key (mem_serving.1 hc).1⟩

end

section
variable {s : ChannelStore} {cache : ChannelCache} {group model : String} {retry : Nat}

/-- The channels of the selected priority that a weighted draw of the cache can return: those that
weigh something, or all of them when none does. -/
def drawable (s : ChannelStore) (group model : String) (retry : Nat) : Set Outcome :=
  { o | ∃ c ∈ s.target group model retry,
    ((∀ d ∈ s.target group model retry, d.getWeight = 0) ∨ 0 < c.getWeight) ∧ .channel c.id = o }

theorem drawable_eq_drawn :
    s.drawable group model retry = ChannelCache.drawn (s.serving group model) retry := rfl

/-- From the channels that serve a model, in any order and with any repeats, the drawable ones are returned. -/
theorem outcomes_pickListed {name : String} {channels : List Channel}
    (hmem : ∀ c, c ∈ channels ↔ c ∈ s.serving group model) (hne : s.serving group model ≠ []) :
    outcomes (ChannelCache.pickListed channels group name retry) =
      s.drawable group model retry := by
  have hprio : rankAt (channels.map Channel.getPriority) retry =
      rankAt ((s.serving group model).map Channel.getPriority) retry :=
    rankAt_congr (fun x => by simp only [List.mem_map, hmem]) retry
  have htarget : ∀ c, c ∈ ChannelCache.atRank channels retry ↔ c ∈ s.target group model retry := by
    intro c
    rw [ChannelCache.mem_atRank, hprio, hmem, mem_target]
  have hchannels : channels ≠ [] := by
    obtain ⟨c, hc⟩ := List.exists_mem_of_ne_nil _ hne
    exact List.ne_nil_of_mem ((hmem c).2 hc)
  ext o
  rw [ChannelCache.outcomes_pickListed hchannels]
  simp only [ChannelCache.drawn, drawable, htarget, Set.mem_ofPred_eq]

theorem CacheOf.outcomes_of_ids (h : s.CacheOf cache) (hne : s.serving group model ≠ [])
    {name : String} (hname : (if cache.group2model2channels group name = [] then
      cache.group2model2channels group (formatMatchingModelName name)
      else cache.group2model2channels group name) = cache.group2model2channels group model) :
    outcomes (cache.getRandomSatisfiedChannel group name retry) = s.drawable group model retry := by
  have hids : cache.group2model2channels group model ≠ [] := fun hnil => hne (h.ids_eq_nil.1 hnil)
  have hrun : cache.getRandomSatisfiedChannel group name retry = ChannelCache.pickListed
      ((cache.group2model2channels group model).filterMap cache.channelsIDM.get?) group name
      retry := by
    funext draw
    simp only [ChannelCache.getRandomSatisfiedChannel, hname, if_neg hids, h.find?_missing]
  rw [hrun]
  exact outcomes_pickListed (fun c => h.mem_channels) hne

/-- What the cache can return: the drawable channels of the model, or of its normalized name when no
channel serves the model itself. -/
theorem CacheOf.outcomes_getRandomSatisfiedChannel (h : s.CacheOf cache) :
    outcomes (cache.getRandomSatisfiedChannel group model retry) =
      if s.serving group model ≠ [] then s.drawable group model retry
      else if s.serving group (formatMatchingModelName model) ≠ [] then
        s.drawable group (formatMatchingModelName model) retry
      else {.noChannel} := by
  split
  next hne => exact h.outcomes_of_ids hne (if_neg fun hnil => hne (h.ids_eq_nil.1 hnil))
  next hnil =>
    have hids := h.ids_eq_nil.2 (not_not.1 hnil)
    split
    next hne => exact h.outcomes_of_ids hne (if_pos hids)
    next hnil' =>
      have hids' := h.ids_eq_nil.2 (not_not.1 hnil')
      rw [← outcomes_const]
      congr 1
      funext draw
      simp only [ChannelCache.getRandomSatisfiedChannel, hids, hids', if_true]

/-! ## The comparison -/

/-- The draw of the cache leaves no channel of the selected priority out just when they all weigh
something or all weigh nothing. -/
theorem drawable_eq_iff :
    s.drawable group model retry = { o | ∃ c ∈ s.target group model retry, .channel c.id = o } ↔
      (∀ c ∈ s.target group model retry, c.getWeight = 0) ∨
        ∀ c ∈ s.target group model retry, 0 < c.getWeight := by
  have hids : ∀ c ∈ s.target group model retry, ∀ d ∈ s.target group model retry,
      c.id = d.id → c = d := fun c hc d hd =>
    Table.eq_of_key_eq (mem_serving.1 (mem_target.1 hc).1).1 (mem_serving.1 (mem_target.1 hd).1).1
  constructor
  · intro heq
    by_cases hall : ∀ c ∈ s.target group model retry, c.getWeight = 0
    · exact .inl hall
    · refine .inr fun c hc => ?_
      have hmem : Outcome.channel c.id ∈ s.drawable group model retry := heq ▸ ⟨c, hc, rfl⟩
      obtain ⟨d, hd, hw, hid⟩ := hmem
      have hdc : d = c := hids d hd c hc (Outcome.channel.inj hid)
      exact hdc ▸ hw.resolve_left hall
  · intro hw
    ext o
    constructor
    · rintro ⟨c, hc, -, rfl⟩
      exact ⟨c, hc, rfl⟩
    · rintro ⟨c, hc, rfl⟩
      exact ⟨c, hc, hw.imp id fun hpos => hpos c hc, rfl⟩

theorem drawable_ne_singleton {o : Outcome} (ho : ∀ id, o ≠ .channel id) :
    s.drawable group model retry ≠ {o} := by
  intro heq
  have hmem : o ∈ s.drawable group model retry := heq ▸ rfl
  obtain ⟨c, -, -, hc⟩ := hmem
  exact ho c.id hc.symm

end

/-- **Routing by cache and by query.** For every store whose abilities mirror its channels, the cache
is built, and for every group, model and retry number what can be returned through it is what the
query can return just when `RoutesAgree` holds. -/
theorem routes_agree_iff {s : ChannelStore} (h : s.Mirror) :
    ∃ cache, initChannelCache s = some cache ∧ ∀ group model retry,
      (outcomes (cache.getRandomSatisfiedChannel group model retry) =
          outcomes (s.getChannel group model retry) ↔
        s.RoutesAgree group model retry) := by
  obtain ⟨cache, hcache, hof⟩ := h.initChannelCache
  refine ⟨cache, hcache, fun group model retry => ?_⟩
  rw [hof.outcomes_getRandomSatisfiedChannel, RoutesAgree]
  by_cases hnil : s.serving group model = []
  · rw [if_neg (not_not.2 hnil), if_pos hnil, h.outcomes_getChannel_of_nil hnil]
    by_cases hnil' : s.serving group (formatMatchingModelName model) = []
    · by_cases hr : retry = 0
      · simp [hnil', hr]
      · simp [hnil', hr]
    · have hsplit : ∀ id, (if retry = 0 then .noChannel else .error "数据库一致性被破坏") ≠
          Outcome.channel id := by
        intro id
        split <;> exact fun heq => by cases heq
      rw [if_pos hnil']
      exact iff_of_false (drawable_ne_singleton hsplit) fun hand => hnil' hand.1
  · rw [if_pos hnil, if_neg hnil, h.outcomes_getChannel hnil, drawable_eq_iff]

/-- A channel configured under a wildcard, and its one ability. -/
def gizmoChannel : Channel :=
  { id := 1, status := .enabled, models := "gpt-4-gizmo-*", group := "default" }

/-- The store of that channel. -/
def gizmoStore : ChannelStore where
  channels := ⟨[gizmoChannel], by decide⟩
  abilities := ⟨gizmoChannel.abilityRows, gizmoChannel.nodup_abilityRows⟩

theorem gizmoStore_mirror : gizmoStore.Mirror := by
  intro a
  constructor
  · intro ha
    obtain ⟨p, hp, rfl⟩ := Channel.of_mem_abilityRows ha
    exact ⟨gizmoChannel, List.mem_singleton.2 rfl, p, hp, rfl⟩
  · rintro ⟨c, hc, p, hp, rfl⟩
    rw [List.mem_singleton.1 hc] at hp ⊢
    exact Channel.forall_mem_abilityRows.2 (by decide) p hp

/-- The comparison for that store. -/
theorem routes_agree_iff_gizmo :
    ∃ cache, initChannelCache gizmoStore = some cache ∧ ∀ group model retry,
      (outcomes (cache.getRandomSatisfiedChannel group model retry) =
          outcomes (gizmoStore.getChannel group model retry) ↔
        gizmoStore.RoutesAgree group model retry) :=
  routes_agree_iff gizmoStore_mirror

/-- For a name that matches the wildcard, the cache returns the channel, the query none. -/
theorem gizmo_routes_differ :
    ∃ cache, initChannelCache gizmoStore = some cache ∧
      outcomes (cache.getRandomSatisfiedChannel "default" "gpt-4-gizmo-g-1" 0) = {.channel 1} ∧
      outcomes (gizmoStore.getChannel "default" "gpt-4-gizmo-g-1" 0) = {.noChannel} := by
  obtain ⟨cache, hcache, hof⟩ := gizmoStore_mirror.initChannelCache
  have hnil : gizmoStore.serving "default" "gpt-4-gizmo-g-1" = [] := by decide
  have hwild : gizmoStore.serving "default" (formatMatchingModelName "gpt-4-gizmo-g-1") =
      [gizmoChannel] := by decide
  refine ⟨cache, hcache, ?_, ?_⟩
  · rw [hof.outcomes_getRandomSatisfiedChannel, if_neg (not_not.2 hnil),
      if_pos (by rw [hwild]; exact List.cons_ne_nil _ _)]
    rw [drawable_eq_drawn, hwild]
    exact ChannelCache.drawn_singleton _
  · rw [gizmoStore_mirror.outcomes_getChannel_of_nil hnil, if_pos rfl]

end ChannelStore

end NewApi

import NewApi.Channel.Routing
import Mathlib.Algebra.BigOperators.Ring.Finset
import Mathlib.Tactic.Ring
import Mathlib.Tactic.Positivity

/-!
# Drawing a channel from a list

Among the channels behind a list of the cache, `GetRandomSatisfiedChannel` takes those of the priority that the retry
number selects (`atRank`) and draws one by weight. Over all draws it returns just the channels of that priority that
weigh something, or all of them when none does (`outcomes_pickListed`). Each is returned by as many draws as its
smoothed weight, once for each time the list has it (`draws_of_channels`).
-/

namespace NewApi

open Pick

namespace ChannelCache

section
variable {l : List Channel}

theorem smoothing_cases (l : List Channel) :
    (∀ c ∈ l, c.getWeight = 0) ∧ smoothing l = ⟨l.length * 100, 1, 100⟩ ∨
      ¬ (∀ c ∈ l, c.getWeight = 0) ∧
        ∃ f, 0 < f ∧ smoothing l = ⟨(l.map Channel.getWeight).sum, f, 0⟩ := by
  have hzero : (l.map Channel.getWeight).sum = 0 ↔ ∀ c ∈ l, c.getWeight = 0 := by
    rw [List.sum_eq_zero_iff_forall_eq_nat]
    simp
  by_cases h0 : (l.map Channel.getWeight).sum = 0
  · exact .inl ⟨hzero.1 h0, by simp only [smoothing, if_pos h0]⟩
  · refine .inr ⟨fun hall => h0 (hzero.2 hall), ?_⟩
    by_cases hlow : (l.map Channel.getWeight).sum / l.length < 10
    · exact ⟨100, by decide, by simp only [smoothing, if_neg h0, if_pos hlow]⟩
    · exact ⟨1, by decide, by simp only [smoothing, if_neg h0, if_neg hlow]⟩

theorem sum_cost (k : List Channel) (sm : Smoothing) : (k.map sm.cost).sum =
    (((k.map Channel.getWeight).sum * sm.factor + k.length * sm.adjustment : Nat) : Int) := by
  induction k with
  | nil => simp
  | cons c k ih =>
    rw [List.map_cons, List.sum_cons, ih, List.map_cons, List.sum_cons, List.length_cons,
      Smoothing.cost]
    push_cast
    ring

theorem sum_smoothing_cost (l : List Channel) :
    (l.map (smoothing l).cost).sum = ((smoothing l).sumWeight * (smoothing l).factor : Nat) := by
  rw [sum_cost]
  rcases smoothing_cases l with ⟨hall, hsm⟩ | ⟨-, f, -, hsm⟩
  · have hsum : (l.map Channel.getWeight).sum = 0 := by
      rw [List.sum_eq_zero_iff_forall_eq_nat]
      simpa using hall
    simp [hsm, hsum]
  · simp [hsm]

theorem cost_nonneg (sm : Smoothing) (c : Channel) : 0 ≤ sm.cost c := by
  unfold Smoothing.cost
  positivity

theorem smoothing_cost_pos {c : Channel} :
    0 < (smoothing l).cost c ↔ (∀ d ∈ l, d.getWeight = 0) ∨ 0 < c.getWeight := by
  rcases smoothing_cases l with ⟨hall, hsm⟩ | ⟨hnot, f, hf, hsm⟩
  · refine iff_of_true ?_ (.inl hall)
    rw [hsm]
    show 0 < (c.getWeight : Int) * (1 : Nat) + (100 : Nat)
    omega
  · rw [hsm, Smoothing.cost]
    simp only [Nat.cast_zero, add_zero, hnot, false_or]
    rw [← Nat.cast_mul, Int.natCast_pos, Nat.mul_pos_iff_of_pos_right hf]

theorem exists_pickChannel (hl : l ≠ []) {o : Outcome} :
    (∃ r : Int, 0 ≤ r ∧ r < ((smoothing l).sumWeight * (smoothing l).factor : Nat) ∧
      pickChannel l r = o) ↔
      ∃ c ∈ l, ((∀ d ∈ l, d.getWeight = 0) ∨ 0 < c.getWeight) ∧ .channel c.id = o := by
  have hnonneg : ∀ c ∈ l, 0 ≤ (smoothing l).cost c := fun c _ => cost_nonneg _ c
  have hpick : ∀ c r, pickBelow (smoothing l).cost r l = some c →
      pickChannel l r = .channel c.id := by
    intro c r hr
    simp only [pickChannel, hr]
  rw [← sum_smoothing_cost]
  constructor
  · rintro ⟨r, hr, hlt, rfl⟩
    obtain ⟨c, hc⟩ := pickBelow_isSome hl hlt
    obtain ⟨hmem, hpos⟩ := (exists_pickBelow hnonneg).1 ⟨r, hr, hlt, hc⟩
    exact ⟨c, hmem, smoothing_cost_pos.1 hpos, (hpick c r hc).symm⟩
  · rintro ⟨c, hc, hw, rfl⟩
    obtain ⟨r, hr, hlt, hsome⟩ := (exists_pickBelow hnonneg).2 ⟨hc, smoothing_cost_pos.2 hw⟩
    exact ⟨r, hr, hlt, hpick c r hsome⟩

theorem total_pos (hl : l ≠ []) : 0 < (smoothing l).sumWeight * (smoothing l).factor := by
  rcases smoothing_cases l with ⟨-, hsm⟩ | ⟨hnot, f, hf, hsm⟩
  · have hlen := List.length_pos_of_ne_nil hl
    rw [hsm]
    show 0 < l.length * 100 * 1
    omega
  · have hsum : 0 < (l.map Channel.getWeight).sum := by
      rw [Nat.pos_iff_ne_zero, ne_eq, List.sum_eq_zero_iff_forall_eq_nat]
      simpa using hnot
    rw [hsm]
    exact Nat.mul_pos hsum hf

/-- Of the draws below the total weight, as many pick a channel as it costs at all its places in the list. -/
theorem countP_pickChannel (id : Nat) :
    (List.range ((smoothing l).sumWeight * (smoothing l).factor)).countP
        (fun r : Nat => pickChannel l r = .channel id) =
      ((l.filter (·.id = id)).map fun c => c.getWeight * (smoothing l).factor + (smoothing l).adjustment).sum := by
  have hcost : (smoothing l).cost = fun c =>
      ((c.getWeight * (smoothing l).factor + (smoothing l).adjustment : Nat) : Int) := by
    funext c
    rw [Smoothing.cost]
    push_cast
    rfl
  have htotal : (smoothing l).sumWeight * (smoothing l).factor =
      (l.map fun c => c.getWeight * (smoothing l).factor + (smoothing l).adjustment).sum := by
    rw [← Int.natCast_inj, ← sum_smoothing_cost, hcost, Nat.cast_list_sum, List.map_map]
    rfl
  rw [htotal, ← countP_pickBelow]
  refine List.countP_congr fun r _ => ?_
  rw [pickChannel, hcost]
  cases pickBelow (fun c => ((c.getWeight * (smoothing l).factor + (smoothing l).adjustment : Nat) : Int)) r l with
  | none => simp
  | some c => simp

end

/-! ## Lists of channels -/

/-- The channels of the priority that a retry number selects. -/
def atRank (channels : List Channel) (retry : Nat) : List Channel :=
  channels.filter fun c => c.getPriority = rankAt (channels.map Channel.getPriority) retry

/-- The channels of that priority that can be drawn: those that weigh something, or all when none does. -/
def drawn (channels : List Channel) (retry : Nat) : Set Outcome :=
  { o | ∃ c ∈ atRank channels retry,
    ((∀ d ∈ atRank channels retry, d.getWeight = 0) ∨ 0 < c.getWeight) ∧ .channel c.id = o }

section
variable {channels : List Channel} {group model : String} {retry : Nat} {draw : Nat → Nat}

theorem mem_atRank {c : Channel} : c ∈ atRank channels retry ↔
    c ∈ channels ∧ c.getPriority = rankAt (channels.map Channel.getPriority) retry := by
  rw [atRank, List.mem_filter, decide_eq_true_eq]

theorem atRank_ne_nil (h : channels ≠ []) : atRank channels retry ≠ [] := by
  have hne : channels.map Channel.getPriority ≠ [] := by rwa [ne_eq, List.map_eq_nil_iff]
  obtain ⟨c, hc, hp⟩ := List.mem_map.1 (rankAt_mem hne retry)
  exact List.ne_nil_of_mem (mem_atRank.2 ⟨hc, hp⟩)

theorem atRank_singleton (c : Channel) : atRank [c] retry = [c] := by
  have hne : atRank [c] retry ≠ [] := atRank_ne_nil (List.cons_ne_nil _ _)
  have hsub : (atRank [c] retry).Sublist [c] := List.filter_sublist
  exact (List.sublist_singleton.1 hsub).resolve_left hne

theorem drawn_singleton (c : Channel) : drawn [c] retry = {.channel c.id} := by
  ext o
  rw [drawn, atRank_singleton]
  constructor
  · rintro ⟨d, hd, -, rfl⟩
    rw [List.mem_singleton.1 hd]
    rfl
  · rintro rfl
    refine ⟨c, List.mem_singleton_self c, ?_, rfl⟩
    rcases Nat.eq_zero_or_pos c.getWeight with h0 | hpos
    · exact .inl fun d hd => by rw [List.mem_singleton.1 hd, h0]
    · exact .inr hpos

/-- Several channels are drawn from as `pickChannel` does. -/
theorem pickAmong_eq (h : channels ≠ []) :
    pickAmong channels group model retry draw = pickChannel (atRank channels retry)
      (draw ((smoothing (atRank channels retry)).sumWeight * (smoothing (atRank channels retry)).factor)) := by
  have htarget : atRank channels retry ≠ [] := atRank_ne_nil h
  unfold pickAmong
  exact if_neg htarget

theorem pickListed_eq (h : channels ≠ [])
    (hdraw : draw ((smoothing (atRank channels retry)).sumWeight * (smoothing (atRank channels retry)).factor) <
      (smoothing (atRank channels retry)).sumWeight * (smoothing (atRank channels retry)).factor) :
    pickListed channels group model retry draw = pickChannel (atRank channels retry)
      (draw ((smoothing (atRank channels retry)).sumWeight * (smoothing (atRank channels retry)).factor)) := by
  match channels with
  | [] => exact absurd rfl h
  | [c] =>
    rw [atRank_singleton] at hdraw ⊢
    obtain ⟨d, hd⟩ := pickBelow_isSome (List.cons_ne_nil c [])
      (by rw [sum_smoothing_cost]; exact Int.ofNat_lt.2 hdraw)
    rw [pickChannel, hd, List.mem_singleton.1 (mem_of_pickBelow hd)]
    rfl
  | c :: d :: rest => exact pickAmong_eq (List.cons_ne_nil _ _)

theorem outcomes_pickAmong (h : channels ≠ []) :
    outcomes (pickAmong channels group model retry) = drawn channels retry := by
  have hne : atRank channels retry ≠ [] := atRank_ne_nil h
  have hrun : pickAmong channels group model retry = fun draw => pickChannel (atRank channels retry)
      (draw ((smoothing (atRank channels retry)).sumWeight * (smoothing (atRank channels retry)).factor)) :=
    funext fun draw => pickAmong_eq h
  ext o
  rw [hrun, mem_outcomes_draw (total_pos hne), exists_pickChannel hne]
  rfl

theorem outcomes_pickListed (h : channels ≠ []) :
    outcomes (pickListed channels group model retry) = drawn channels retry := by
  match channels with
  | [] => exact absurd rfl h
  | [c] =>
    rw [drawn_singleton]
    exact outcomes_const _
  | c :: d :: rest => exact outcomes_pickAmong (List.cons_ne_nil _ _)

theorem of_pickListed_eq {id : Nat} (h : pickListed channels group model retry draw = .channel id) :
    ∃ c ∈ atRank channels retry, c.id = id := by
  match channels with
  | [] => cases h
  | [c] =>
    cases h
    exact ⟨c, by rw [atRank_singleton]; exact List.mem_singleton_self c, rfl⟩
  | c :: d :: rest =>
    have hpick : pickAmong (c :: d :: rest) group model retry draw = .channel id := h
    rw [pickAmong_eq (List.cons_ne_nil _ _), pickChannel] at hpick
    split at hpick
    next e he =>
      cases hpick
      exact ⟨e, mem_of_pickBelow he, rfl⟩
    · cases hpick

theorem exists_of_pickListed (h : channels ≠ []) (hdraw : Draws draw) :
    ∃ c ∈ atRank channels retry, pickListed channels group model retry draw = .channel c.id := by
  have hmem : pickListed channels group model retry draw ∈ drawn channels retry := by
    rw [← @outcomes_pickListed _ group model _ h]
    exact ⟨draw, hdraw, rfl⟩
  obtain ⟨c, hc, -, heq⟩ := hmem
  exact ⟨c, hc, heq.symm⟩

end

/-! ## The lists of the cache -/

/-- The ids that are looked up for a model, those of its normalized name when it has none itself. -/
def listedIds (cache : ChannelCache) (group model : String) : List Nat :=
  if cache.group2model2channels group model = [] then
    cache.group2model2channels group (formatMatchingModelName model)
  else cache.group2model2channels group model

/-- The channels behind them. -/
def listed (cache : ChannelCache) (group model : String) : List Channel :=
  (cache.listedIds group model).filterMap cache.channelsIDM.get?

/-- Every id of a list is one of a channel of the cache. -/
def Complete (cache : ChannelCache) : Prop :=
  ∀ group model, ∀ id ∈ cache.group2model2channels group model, (cache.channelsIDM.get? id).isSome

section
variable {cache : ChannelCache} {group model : String} {retry : Nat} {draw : Nat → Nat}

theorem getRandomSatisfiedChannel_eq : cache.getRandomSatisfiedChannel group model retry draw =
    if cache.listedIds group model = [] then .noChannel
    else match (cache.listedIds group model).find? fun id => (cache.channelsIDM.get? id).isNone with
      | some id => .error ("数据库一致性错误，渠道# " ++ toString id ++ " 不存在，请联系管理员修复")
      | none => pickListed (cache.listed group model) group model retry draw := rfl

theorem of_getRandomSatisfiedChannel_eq {id : Nat}
    (h : cache.getRandomSatisfiedChannel group model retry draw = .channel id) :
    ∃ c ∈ atRank (cache.listed group model) retry, c.id = id := by
  rw [getRandomSatisfiedChannel_eq] at h
  split at h
  · cases h
  split at h
  · cases h
  · exact of_pickListed_eq h

theorem Complete.isSome (h : cache.Complete) {id : Nat} (hid : id ∈ cache.listedIds group model) :
    (cache.channelsIDM.get? id).isSome := by
  unfold listedIds at hid
  split at hid
  · exact h _ _ id hid
  · exact h _ _ id hid

theorem get?_of_mem_listed {c : Channel} (h : c ∈ cache.listed group model) :
    cache.channelsIDM.get? c.id = some c := by
  obtain ⟨id, -, hc⟩ := List.mem_filterMap.1 h
  exact Table.get?_key (Table.mem_of_get? hc)

theorem listed_eq_nil (h : ∀ id ∈ cache.listedIds group model, (cache.channelsIDM.get? id).isSome) :
    cache.listed group model = [] ↔ cache.listedIds group model = [] := by
  refine ⟨fun hnil => ?_, fun hnil => by rw [listed, hnil, List.filterMap_nil]⟩
  cases hids : cache.listedIds group model with
  | nil => rfl
  | cons id rest =>
    obtain ⟨c, hc⟩ := Option.isSome_iff_exists.1 (h id (hids ▸ List.mem_cons_self))
    have hmem : c ∈ cache.listed group model :=
      List.mem_filterMap.2 ⟨id, hids ▸ List.mem_cons_self, hc⟩
    rw [hnil] at hmem
    cases hmem

/-- Where all ids that are looked up are found, a draw among the channels behind the list is returned, or there are
none. -/
theorem getRandomSatisfiedChannel_of_found
    (h : ∀ id ∈ cache.listedIds group model, (cache.channelsIDM.get? id).isSome) :
    cache.getRandomSatisfiedChannel group model retry draw =
      if cache.listed group model = [] then .noChannel
      else pickListed (cache.listed group model) group model retry draw := by
  have hmissing : (cache.listedIds group model).find? (fun id => (cache.channelsIDM.get? id).isNone) = none := by
    rw [List.find?_eq_none]
    intro id hid
    obtain ⟨c, hc⟩ := Option.isSome_iff_exists.1 (h id hid)
    rw [hc]
    exact fun hn => by cases hn
  rw [getRandomSatisfiedChannel_eq, hmissing]
  by_cases hnil : cache.listedIds group model = []
  · rw [if_pos hnil, if_pos ((listed_eq_nil h).2 hnil)]
  · rw [if_neg hnil, if_neg (mt (listed_eq_nil h).1 hnil)]

theorem Complete.getRandomSatisfiedChannel (h : cache.Complete) :
    cache.getRandomSatisfiedChannel group model retry draw =
      if cache.listed group model = [] then .noChannel
      else pickListed (cache.listed group model) group model retry draw :=
  getRandomSatisfiedChannel_of_found fun _ => h.isSome

theorem getRandomSatisfiedChannel_draw
    (hfound : ∀ id ∈ cache.listedIds group model, (cache.channelsIDM.get? id).isSome)
    (hne : cache.listedIds group model ≠ []) {r : Nat}
    (hr : r < (smoothing (atRank (cache.listed group model) retry)).sumWeight *
      (smoothing (atRank (cache.listed group model) retry)).factor) :
    cache.getRandomSatisfiedChannel group model retry (fun _ => r) =
      pickChannel (atRank (cache.listed group model) retry) r := by
  have hlisted : cache.listed group model ≠ [] := mt (listed_eq_nil hfound).1 hne
  rw [getRandomSatisfiedChannel_of_found hfound, if_neg hlisted]
  exact pickListed_eq hlisted hr

theorem countP_getRandomSatisfiedChannel
    (hfound : ∀ id ∈ cache.listedIds group model, (cache.channelsIDM.get? id).isSome)
    (hne : cache.listedIds group model ≠ []) (id : Nat) :
    (List.range ((smoothing (atRank (cache.listed group model) retry)).sumWeight *
      (smoothing (atRank (cache.listed group model) retry)).factor)).countP
        (fun r : Nat => cache.getRandomSatisfiedChannel group model retry (fun _ => r) = .channel id) =
      (((atRank (cache.listed group model) retry).filter (·.id = id)).map fun c =>
        c.getWeight * (smoothing (atRank (cache.listed group model) retry)).factor +
          (smoothing (atRank (cache.listed group model) retry)).adjustment).sum := by
  rw [← countP_pickChannel]
  exact List.countP_congr fun r hr => by rw [getRandomSatisfiedChannel_draw hfound hne (List.mem_range.1 hr)]

/-- Of the draws below the total weight, every one returns a channel of the selected priority, and each of these is
returned by as many as it costs, once for each time it is listed. -/
theorem draws_of_channels (hfound : ∀ id ∈ cache.listedIds group model, (cache.channelsIDM.get? id).isSome)
    (hne : cache.listedIds group model ≠ []) :
    let targetChannels := atRank (cache.listed group model) retry
    let sm := smoothing targetChannels
    let totalWeight := sm.sumWeight * sm.factor
    (∀ r < totalWeight, ∃ c ∈ targetChannels,
      cache.getRandomSatisfiedChannel group model retry (fun _ => r) = .channel c.id) ∧
    ∀ c ∈ targetChannels,
      (List.range totalWeight).countP
          (fun r : Nat => cache.getRandomSatisfiedChannel group model retry (fun _ => r) = .channel c.id) =
        targetChannels.count c * (c.getWeight * sm.factor + sm.adjustment) := by
  intro targetChannels sm totalWeight
  have hnil : targetChannels ≠ [] := atRank_ne_nil (mt (listed_eq_nil hfound).1 hne)
  refine ⟨fun r hr => ?_, fun c hc => ?_⟩
  · obtain ⟨c, hc⟩ := pickBelow_isSome hnil (by rw [sum_smoothing_cost]; exact Int.ofNat_lt.2 hr)
    refine ⟨c, mem_of_pickBelow hc, ?_⟩
    rw [getRandomSatisfiedChannel_draw hfound hne hr, pickChannel, hc]
  · rw [countP_getRandomSatisfiedChannel hfound hne]
    -- the places of a channel in the list are those of its id
    have hsame : targetChannels.filter (·.id = c.id) = targetChannels.filter (· = c) := by
      refine List.filter_congr fun d hd => decide_eq_decide.2 ⟨fun hid => ?_, fun heq => by rw [heq]⟩
      have hd' := get?_of_mem_listed (mem_atRank.1 hd).1
      rw [hid, get?_of_mem_listed (mem_atRank.1 hc).1] at hd'
      exact (Option.some.inj hd').symm
    rw [hsame, List.filter_eq, List.map_replicate, List.sum_replicate_nat]

end

/-! ## A channel that is listed twice -/

/-- A channel with a model twice in its column. -/
def listedTwice : Channel := { id := 1, status := .enabled, weight := some 1, models := "m,m", group := "default" }

/-- A channel with the model once. -/
def listedOnce : Channel := { id := 2, status := .enabled, weight := some 1, models := "m", group := "default" }

/-- The store of the two, with the ability of each. -/
def unevenStore : ChannelStore where
  channels := ⟨[listedTwice, listedOnce], by decide⟩
  abilities := ⟨listedTwice.abilityRows ++ listedOnce.abilityRows, by decide⟩

theorem unevenStore_cached : (initChannelCache unevenStore).isSome := by decide

def unevenCache : ChannelCache := (initChannelCache unevenStore).get unevenStore_cached

theorem listedIds_uneven : unevenCache.listedIds "default" "m" = [1, 1, 2] := by decide

theorem found_uneven : ∀ id ∈ unevenCache.listedIds "default" "m", (unevenCache.channelsIDM.get? id).isSome := by
  rw [listedIds_uneven]
  decide

/-- Its channels are returned by the draws below the total weight. -/
theorem draws_of_channels_uneven :
    let targetChannels := atRank (unevenCache.listed "default" "m") 0
    let sm := smoothing targetChannels
    let totalWeight := sm.sumWeight * sm.factor
    (∀ r < totalWeight, ∃ c ∈ targetChannels,
      unevenCache.getRandomSatisfiedChannel "default" "m" 0 (fun _ => r) = .channel c.id) ∧
    ∀ c ∈ targetChannels,
      (List.range totalWeight).countP
          (fun r : Nat => unevenCache.getRandomSatisfiedChannel "default" "m" 0 (fun _ => r) = .channel c.id) =
        targetChannels.count c * (c.getWeight * sm.factor + sm.adjustment) :=
  draws_of_channels found_uneven (by rw [listedIds_uneven]; exact List.cons_ne_nil _ _)

/-- The first channel is returned by two hundred of the three hundred draws, though it weighs as much as the second. -/
theorem uneven_draws :
    initChannelCache unevenStore = some unevenCache ∧
    atRank (unevenCache.listed "default" "m") 0 = [listedTwice, listedTwice, listedOnce] ∧
      (let sm := smoothing (atRank (unevenCache.listed "default" "m") 0)
      listedTwice.getWeight * sm.factor + sm.adjustment = 100 ∧ sm.sumWeight * sm.factor = 300 ∧
        (List.range (sm.sumWeight * sm.factor)).countP
          (fun r : Nat => unevenCache.getRandomSatisfiedChannel "default" "m" 0 (fun _ => r) = .channel 1) = 200) := by
  have hat : atRank (unevenCache.listed "default" "m") 0 = [listedTwice, listedTwice, listedOnce] := by decide
  have hcount := @countP_getRandomSatisfiedChannel _ _ _ 0 found_uneven
    (by rw [listedIds_uneven]; exact List.cons_ne_nil _ _) 1
  refine ⟨(Option.some_get _).symm, hat, ?_⟩
  rw [hat] at hcount ⊢
  exact ⟨by decide, by decide, hcount⟩

end ChannelCache

end NewApi

import NewApi.Relay.Attempts

/-!
# The schedule of cross-group retries

The comment of `CacheGetRandomSatisfiedChannel` describes a schedule: each priority of a group is tried once, from the
highest down, then the next group is tried, until the retries of the request are used up (`documented`). What the loop
does while the attempts fail is `retried`: each group that has channels is given `RetryTimes + 1` attempts. A rank
behind the lowest priority of a group is that priority again, since `GetRandomSatisfiedChannel` never runs out of
them, and the counter of the loop starts again with each group.
-/

namespace NewApi.Relay

open Pick ChannelCache

/-! ## The two schedules -/

/-- The schedule of the comment: the groups by index, with their distinct priorities. -/
def documented (prios : String → List Int) (budget : Nat) (groups : List String) : List (Nat × Int) :=
  (groups.zipIdx.flatMap fun g => (ranks (prios g.1)).map fun p => (g.2, p)).take budget

/-- The attempts of the loop, from a rank in the first of the groups on. -/
def retried (prios : String → List Int) (retryTimes : Nat) : Nat → Nat → List String → List (Nat × Int)
  | _, _, [] => []
  | rank, i, g :: rest =>
    (if prios g = [] then [] else
      (List.range' rank (retryTimes + 1 - rank)).map fun n => (i, rankAt (prios g) n)) ++
    retried prios retryTimes 0 (i + 1) rest

section
variable {prios : String → List Int} {R : Nat} {groups l l' : List String} {g : String} {i j k : Nat}

theorem retried_cons_of_nil (h : prios g = []) : retried prios R k i (g :: l) = retried prios R 0 (i + 1) l := by
  rw [retried, if_pos h, List.nil_append]

theorem retried_drop_of_nil (hlt : i < j) (h : ∀ n g, i ≤ n → n < j → groups[n]? = some g → prios g = []) :
    retried prios R k i (groups.drop i) = retried prios R 0 j (groups.drop j) := by
  induction j generalizing k with
  | zero => exact absurd hlt (Nat.not_lt_zero i)
  | succ j ih =>
    have hlast : retried prios R (if i = j then k else 0) j (groups.drop j) =
        retried prios R 0 (j + 1) (groups.drop (j + 1)) := by
      cases hdrop : groups.drop j with
      | nil =>
        have hle := List.drop_eq_nil_iff.1 hdrop
        rw [List.drop_eq_nil_of_le (Nat.le_succ_of_le hle), retried, retried]
      | cons g rest =>
        obtain ⟨hg, htail⟩ := getElem?_eq_of_drop hdrop
        rw [retried_cons_of_nil (h j g (Nat.le_of_lt_succ hlt) (Nat.lt_succ_self j) hg), htail]
    rcases Nat.lt_succ_iff_lt_or_eq.1 hlt with hlt' | rfl
    · rw [ih hlt' fun n g hn hnj => h n g hn (Nat.lt_succ_of_lt hnj), ← hlast, if_neg (Nat.ne_of_lt hlt')]
    · rw [if_pos rfl] at hlast
      exact hlast

theorem retried_drop_of_ne (hg : groups[i]? = some g) (hne : prios g ≠ []) (hle : k ≤ R) :
    retried prios R k i (groups.drop i) = (i, rankAt (prios g) k) ::
      retried prios R (if k ≥ R then 0 else k + 1) (if k ≥ R then i + 1 else i)
        (groups.drop (if k ≥ R then i + 1 else i)) := by
  obtain ⟨hi, hgi⟩ := List.getElem?_eq_some_iff.1 hg
  have hdrop : groups.drop i = g :: groups.drop (i + 1) := by rw [List.drop_eq_getElem_cons hi, hgi]
  have hrange : List.range' k (R + 1 - k) = k :: List.range' (k + 1) (R - k) := by
    rw [show R + 1 - k = R - k + 1 by omega, List.range'_succ]
  by_cases hend : k ≥ R
  · rw [if_pos hend, if_pos hend, hdrop, retried, if_neg hne, hrange, show R - k = 0 by omega]
    rfl
  · rw [if_neg hend, if_neg hend, hdrop, retried, retried, if_neg hne, if_neg hne, hrange,
      show R + 1 - (k + 1) = R - k by omega]
    rfl

theorem retried_of_nil (h : ∀ g ∈ l, prios g = []) : retried prios R k i l = [] := by
  induction l generalizing k i with
  | nil => rfl
  | cons g l ih =>
    rw [retried_cons_of_nil (h g List.mem_cons_self)]
    exact ih fun g hg => h g (List.mem_cons_of_mem _ hg)

theorem length_retried : (retried prios R 0 i l).length = (l.filter fun g => prios g ≠ []).length * (R + 1) := by
  induction l generalizing i with
  | nil => simp [retried]
  | cons g l ih =>
    by_cases hg : prios g = []
    · rw [retried_cons_of_nil hg, ih, List.filter_cons_of_neg (by simp [hg])]
    · rw [retried, if_neg hg, List.length_append, ih, List.filter_cons_of_pos (by simp [hg]), List.length_cons,
        List.length_map, List.length_range', Nat.succ_mul]
      omega

theorem retried_append_cons (h : ∀ g ∈ l, prios g = []) (h' : ∀ g ∈ l', prios g = []) (hne : prios g ≠ []) :
    retried prios R 0 i (l ++ g :: l') = (List.range (R + 1)).map fun n => (i + l.length, rankAt (prios g) n) := by
  induction l generalizing i with
  | nil =>
    rw [List.nil_append, retried, if_neg hne, retried_of_nil h', List.append_nil, List.range_eq_range']
    rfl
  | cons g' l ih =>
    rw [List.cons_append, retried_cons_of_nil (h g' List.mem_cons_self),
      ih fun g hg => h g (List.mem_cons_of_mem _ hg), List.length_cons]
    congr 1
    funext n
    rw [Nat.add_right_comm, Nat.add_assoc]

theorem documented_append_cons (h : ∀ g ∈ l, prios g = []) (h' : ∀ g ∈ l', prios g = []) {budget : Nat} :
    documented prios budget (l ++ g :: l') = ((ranks (prios g)).take budget).map fun p => (l.length, p) := by
  have hnone : ∀ (k : List String) (n : Nat), (∀ g ∈ k, prios g = []) →
      ((k.zipIdx n).flatMap fun g => (ranks (prios g.1)).map fun p => (g.2, p)) = [] := by
    intro k n hk
    rw [List.flatMap_eq_nil_iff]
    intro x hx
    rw [hk x.1 (List.fst_mem_of_mem_zipIdx hx)]
    rfl
  rw [documented, List.zipIdx_append, List.flatMap_append, hnone l 0 h, List.nil_append, List.zipIdx_cons,
    List.flatMap_cons, hnone l' _ h', List.append_nil, Nat.zero_add, List.map_take]

theorem documented_one_eq : documented prios 1 groups = (retried prios R 0 0 groups).take 1 := by
  have h : ∀ (l : List String) (i : Nat),
      ((l.zipIdx i).flatMap fun g => (ranks (prios g.1)).map fun p => (g.2, p)).take 1 =
        (retried prios R 0 i l).take 1 := by
    intro l
    induction l with
    | nil => intro i; rfl
    | cons g l ih =>
      intro i
      rw [List.zipIdx_cons, List.flatMap_cons]
      by_cases hg : prios g = []
      · rw [retried_cons_of_nil hg, ← ih, hg]
        rfl
      · have hrank : rankAt (prios g) 0 = (ranks (prios g)).head (ranks_ne_nil hg) := by
          have hpos := List.length_pos_of_ne_nil (ranks_ne_nil hg)
          rw [rankAt, if_neg (by omega), List.getD_eq_getElem?_getD, List.getElem?_eq_getElem hpos,
            List.head_eq_getElem]
          rfl
        rw [retried, if_neg hg, Nat.sub_zero, List.range'_succ, List.map_cons, hrank]
        obtain ⟨x, xs, hxs⟩ := List.exists_cons_of_ne_nil (ranks_ne_nil hg)
        simp [hxs]
  exact h groups 0

theorem retried_eq_documented_iff (hserved : ∃ g ∈ groups, prios g ≠ []) :
    retried prios R 0 0 groups = documented prios (R + 1) groups ↔
      ∃ g, groups.filter (fun g => prios g ≠ []) = [g] ∧ R + 1 ≤ (ranks (prios g)).length := by
  have hone : ∀ {g}, groups.filter (fun g => prios g ≠ []) = [g] →
      (retried prios R 0 0 groups = documented prios (R + 1) groups ↔ R + 1 ≤ (ranks (prios g)).length) := by
    intro g hg
    obtain ⟨l, l', rfl, hl, hne, hl'⟩ := List.filter_eq_cons_iff.1 hg
    have hnone : ∀ g ∈ l, prios g = [] := fun g hg => by simpa using hl g hg
    have hnone' : ∀ g ∈ l', prios g = [] := fun g hg => by simpa using List.filter_eq_nil_iff.1 hl' g hg
    rw [retried_append_cons hnone hnone' (by simpa using hne), documented_append_cons hnone hnone', Nat.zero_add,
      ← map_rankAt_eq_take_iff]
    have hinj : Function.Injective fun p : Int => (l.length, p) := fun p q h => (Prod.mk.inj h).2
    rw [← (List.map_injective_iff.2 hinj).eq_iff, List.map_map]
    rfl
  constructor
  · intro heq
    have hlen := congrArg List.length heq
    have htake : (documented prios (R + 1) groups).length ≤ R + 1 := List.length_take_le _ _
    rw [← hlen, length_retried] at htake
    have hle : (groups.filter fun g => prios g ≠ []).length ≤ 1 := by
      by_contra hlt
      have hmul := Nat.mul_le_mul_right (R + 1) (Nat.lt_of_not_le hlt)
      rw [Nat.succ_mul] at hmul
      omega
    obtain ⟨g, hg, hne⟩ := hserved
    have hpos : 0 < (groups.filter fun g => prios g ≠ []).length :=
      List.length_pos_of_mem (List.mem_filter.2 ⟨hg, by simpa using hne⟩)
    obtain ⟨g', hg'⟩ := List.length_eq_one_iff.1 (Nat.le_antisymm hle hpos)
    exact ⟨g', hg', (hone hg').1 heq⟩
  · rintro ⟨g, hg, hle⟩
    exact (hone hg).2 hle

end

/-! ## A run of failures -/

/-- The priorities of the channels that a group has for the model of a request. -/
def priorities (cache : ChannelCache) (r : Request) (group : String) : List Int :=
  (cache.listed group r.modelName).map Channel.getPriority

/-- The index of the group that an attempt was made in, and the priority of its channel. -/
def Attempt.level (cache : ChannelCache) (a : Attempt) : Option (Nat × Int) :=
  a.position.bind fun i => (cache.channelsIDM.get? a.channel).map fun c => (i, c.getPriority)

/-- Choices from a cache. -/
def Picks (cache : ChannelCache) (pick : Picker) : Prop :=
  ∃ draw : Nat → Nat → Nat, (∀ i, Draws (draw i)) ∧
    pick = fun i group model retry => cache.getRandomSatisfiedChannel group model retry (draw i)

/-- An iteration that chooses from a cache, and whose attempt fails in a way that may be retried. -/
def Round.Fails (cache : ChannelCache) (r : Request) (c : Round) : Prop :=
  Picks cache c.pick ∧ c.setup = none ∧ c.body = none ∧
    ∃ e, c.relayError = some e ∧ ∀ n : Int, 0 < n → shouldRetry r e n = true

/-- A request of a token with cross-group retry, whose channel nothing but the schedule determines. -/
structure CrossGroup (cache : ChannelCache) (r : Request) (d : Distribution) : Prop where
  complete : cache.Complete
  auto : r.tokenGroup = "auto"
  cross : r.crossGroupRetry = true
  free : r.specificChannelId = none ∧ d.preferredGroup r = none
  picks : Picks cache d.pick

section
variable {cache : ChannelCache} {r : Request} {pick : Picker} {s : RetryState} {i id : Nat} {g : String}
  {s' : RetryState}

theorem priorities_eq_nil : priorities cache r g = [] ↔ cache.listed g r.modelName = [] := List.map_eq_nil_iff

theorem Picks.exists_channel (hc : cache.Complete) (h : Picks cache pick) {rank : Nat} :
    (∃ id, pick i g r.modelName rank = .channel id) ↔ priorities cache r g ≠ [] := by
  obtain ⟨draw, hdraws, rfl⟩ := h
  rw [ne_eq, priorities_eq_nil]
  simp only [hc.getRandomSatisfiedChannel]
  constructor
  · rintro ⟨id, hid⟩ hnil
    rw [if_pos hnil] at hid
    cases hid
  · intro hne
    obtain ⟨c, -, hpick⟩ := @exists_of_pickListed _ g r.modelName rank _ hne (hdraws i)
    exact ⟨c.id, by rw [if_neg hne, hpick]⟩

theorem Picks.level (h : Picks cache pick) {rank : Nat} {chooser : Chooser}
    (hpick : pick i g r.modelName rank = .channel id) :
    Attempt.level cache ⟨id, g, some i, chooser⟩ = some (i, rankAt (priorities cache r g) rank) := by
  obtain ⟨draw, -, rfl⟩ := h
  obtain ⟨c, hc, rfl⟩ := of_getRandomSatisfiedChannel_eq hpick
  obtain ⟨hl, hp⟩ := mem_atRank.1 hc
  obtain ⟨k, -, hk⟩ := List.mem_filterMap.1 hl
  have hget : cache.channelsIDM.get? c.id = some c := Table.get?_key (Table.mem_of_get? hk)
  show (cache.channelsIDM.get? c.id).map _ = _
  rw [hget, Option.map_some, hp]
  rfl

variable {R : Nat}

theorem givesUp_iff (hauto : r.tokenGroup = "auto") (hcross : r.crossGroupRetry = true) (hR : r.retryTimes = R)
    {rank : Nat} : GivesUp r rank ↔ rank ≥ R := by
  rw [GivesUp, hR]
  exact ⟨fun h => by exact_mod_cast h.2.2, fun h => ⟨hauto, hcross, by exact_mod_cast h⟩⟩

theorem Selects.retried (hc : cache.Complete) (hpicks : Picks cache pick) (hauto : r.tokenGroup = "auto")
    (hcross : r.crossGroupRetry = true) (hR : r.retryTimes = R) (hle : s.param.getRetry ≤ R)
    (h : Selects r pick s (⟨some id, g, some i, none⟩, s')) (chooser : Chooser) :
    (Relay.retried (priorities cache r) R s.param.getRetry (s.start r) (r.groups.drop (s.start r))).map some =
      Attempt.level cache ⟨id, g, some i, chooser⟩ ::
        (Relay.retried (priorities cache r) R s'.param.increaseRetry.getRetry (s'.start r)
          (r.groups.drop (s'.start r))).map some := by
  cases h with
  | found hstart hgroup hskip hpick hgroup' hother hindex hparam hretry =>
    have hrank : s.rank r i ≤ R := by
      unfold RetryState.rank
      split
      · exact hle
      · exact Nat.zero_le R
    have hdue : Relay.retried (priorities cache r) R s.param.getRetry (s.start r) (r.groups.drop (s.start r)) =
        Relay.retried (priorities cache r) R (s.rank r i) i (r.groups.drop i) := by
      rcases Nat.lt_or_eq_of_le hstart with hlt | heq
      · have hzero : s.rank r i = 0 := if_neg (Nat.ne_of_gt hlt)
        rw [hzero]
        refine retried_drop_of_nil hlt fun j g' hj hji hg' => ?_
        by_contra hne
        obtain ⟨id', hid'⟩ := (hpicks.exists_channel hc).2 hne
        exact hskip j g' hj hji hg' id' hid'
      · have hsame : s.rank r i = s.param.getRetry := if_pos heq.symm
        rw [hsame, heq]
    have hne : priorities cache r g ≠ [] := (hpicks.exists_channel hc).1 ⟨id, hpick⟩
    rw [hdue, retried_drop_of_ne hgroup hne hrank, List.map_cons, hpicks.level hpick, hindex, hparam]
    simp only [givesUp_iff hauto hcross hR]
    rfl

theorem Selects.retried_of_none (hc : cache.Complete) (hpicks : Picks cache pick) {err : Option String} {k : Nat}
    (h : Selects r pick s (⟨none, g, none, err⟩, s')) :
    Relay.retried (priorities cache r) R k (s.start r) (r.groups.drop (s.start r)) = [] := by
  cases h with
  | nothing hnone =>
    refine retried_of_nil fun g hg => ?_
    obtain ⟨n, hn⟩ := List.mem_iff_getElem?.1 hg
    rw [List.getElem?_drop] at hn
    by_contra hne
    obtain ⟨id, hid⟩ := (hpicks.exists_channel hc).2 hne
    exact hnone _ g (Nat.le_add_right _ n) hn id hid

end

section
variable {cache : ChannelCache} {r : Request} {c : Round} {s s' : Loop} {R : Nat}

/-- After the first attempt, an iteration of a run of failures makes the next attempt, or finds no channel. -/
theorem iterate_fails (h : c.Fails cache r) (hcross : r.crossGroupRetry = true) (hauto : r.tokenGroup = "auto")
    (hR : r.retryTimes = R) (hpos : 0 < R) (hmeta : s.channelMeta = true)
    (hreset : s.retry.param.resetNextTry = false) (hle : s.retry.param.getRetry ≤ R) :
    (∃ i g id retry s', Selects r c.pick s.retry (⟨some id, g, some i, none⟩, retry) ∧ iterate r c s = .again s' ∧
      s'.attempts = s.attempts ++ [⟨id, g, some i, .loop⟩] ∧ s'.channelMeta = true ∧
      s'.retry = ⟨retry.param.increaseRetry, retry.ctx⟩) ∨
    ∃ g err retry s', Selects r c.pick s.retry (⟨none, g, none, err⟩, retry) ∧ iterate r c s = .stop s' ∧
      s'.attempts = s.attempts := by
  obtain ⟨-, hsetup, hbody, e, he, hshould⟩ := h
  have hselects := @selects r c.pick s.retry hreset
  unfold iterate getChannel
  rw [if_neg (by rw [hmeta]; exact Bool.noConfusion), hbody, he]
  generalize cacheGetRandomSatisfiedChannel r c.pick s.retry = result at hselects
  obtain ⟨selection, retry⟩ := result
  cases hselects with
  | @nothing g err _ hnone =>
    cases err with
    | none => exact .inr ⟨g, none, retry, _, .nothing hnone, rfl, rfl⟩
    | some err => exact .inr ⟨g, some err, retry, _, .nothing hnone, rfl, rfl⟩
  | @found i g id _ hstart hgroup hskip hpick hgroup' hother hindex hparam hretry =>
    have hrank : s.retry.rank r i ≤ R := by
      unfold RetryState.rank
      split
      · exact hle
      · exact Nat.zero_le R
    -- the counter that is read has been reset, or is below the bound
    have hagain : shouldRetry r e (r.retryTimes - retry.param.getRetry) = true := by
      refine hshould _ ?_
      rw [hretry, hR]
      simp only [givesUp_iff hauto hcross hR]
      split
      · omega
      · omega
    rw [hsetup]
    dsimp only
    rw [if_pos hagain]
    exact .inl ⟨i, g, id, retry, _, .found hstart hgroup hskip hpick hgroup' hother hindex hparam hretry, rfl, rfl,
      rfl, rfl⟩

theorem levels_of_fails (hc : cache.Complete) (hauto : r.tokenGroup = "auto") (hcross : r.crossGroupRetry = true)
    (hR : r.retryTimes = R) (hpos : 0 < R) {rounds : Nat → Round} (hfails : ∀ k, (rounds k).Fails cache r)
    {fuel : Nat} (hmeta : s.channelMeta = true) (hreset : s.retry.param.resetNextTry = false)
    (hle : s.retry.param.getRetry ≤ R) (hrun : relayLoop r fuel rounds s = some s') :
    s'.attempts.map (Attempt.level cache) = s.attempts.map (Attempt.level cache) ++
      (retried (priorities cache r) R s.retry.param.getRetry (s.retry.start r)
        (r.groups.drop (s.retry.start r))).map some := by
  induction fuel generalizing rounds s with
  | zero => cases hrun
  | succ fuel ih =>
    rw [relayLoop, if_pos (by rw [hR]; exact_mod_cast hle)] at hrun
    rcases iterate_fails (hfails 0) hcross hauto hR hpos hmeta hreset hle with
      ⟨i, g, id, retry, t, hselects, hiter, hattempts, htmeta, htretry⟩ |
      ⟨g, err, retry, t, hselects, hiter, hattempts⟩
    · rw [hiter] at hrun
      have hdue := hselects.retried hc (hfails 0).1 hauto hcross hR hle .loop
      have hnext : retry.param.increaseRetry.resetNextTry = false ∧ retry.param.increaseRetry.getRetry ≤ R := by
        cases hselects with
        | found hstart hgroup hskip hpick hgroup' hother hindex hparam hretry =>
          rw [hparam]
          refine ⟨rfl, ?_⟩
          show (if _ then 0 else _) ≤ R
          split
          · exact Nat.zero_le R
          next hup => exact Nat.lt_of_not_le (mt (givesUp_iff hauto hcross hR).2 hup)
      have hih := @ih t (fun k => rounds (k + 1)) (fun k => hfails (k + 1)) htmeta (by rw [htretry]; exact hnext.1)
        (by rw [htretry]; exact hnext.2) hrun
      rw [hih, hattempts, htretry, List.map_append, hdue, List.append_assoc]
      rfl
    · rw [hiter] at hrun
      cases hrun
      rw [hselects.retried_of_none hc (hfails 0).1, hattempts, List.map_nil, List.append_nil]

/-- The channel that `Distribute` selects. -/
theorem CrossGroup.start {d : Distribution} (h : CrossGroup cache r d) {ratios : GroupRatios}
    (hs : Relay.start r ratios d = some s) :
    ∃ i g id retry, Selects r d.pick {} (⟨some id, g, some i, none⟩, retry) ∧
      s.first = ⟨id, g, some i, .distributed⟩ ∧ s.retry = { ctx := retry.ctx } ∧ s.channelMeta = false ∧
      s.attempts = [] := by
  unfold Relay.start at hs
  obtain ⟨⟨ctx, first⟩, hdist, rfl⟩ := Option.map_eq_some_iff.1 hs
  unfold distribute at hdist
  rw [h.free.1, h.free.2] at hdist
  have hselects := @selects r d.pick {} rfl
  generalize cacheGetRandomSatisfiedChannel r d.pick {} = result at hdist hselects
  obtain ⟨selection, state⟩ := result
  cases hselects with
  | nothing =>
    dsimp only at hdist
    split at hdist
    next heq => cases heq
    · cases hdist
  | @found i g id _ hstart hgroup hskip hpick hgroup' hother hindex hparam hretry =>
    cases hdist
    exact ⟨i, g, id, state, .found hstart hgroup hskip hpick hgroup' hother hindex hparam hretry, rfl, rfl, rfl, rfl⟩

theorem iterate_first (h : c.Fails cache r) (hmeta : s.channelMeta = false) :
    (∃ t, iterate r c s = .again t ∧ t.attempts = s.attempts ++ [s.first] ∧ t.channelMeta = true ∧
      t.retry = ⟨s.retry.param.increaseRetry, s.retry.ctx⟩) ∨
    r.retryTimes ≤ s.retry.param.getRetry ∧ ∃ t, iterate r c s = .stop t ∧ t.attempts = s.attempts ++ [s.first] := by
  obtain ⟨-, -, hbody, e, he, hshould⟩ := h
  unfold iterate getChannel
  rw [if_pos hmeta, hbody, he]
  dsimp only
  by_cases hretry : shouldRetry r e (r.retryTimes - s.retry.param.getRetry) = true
  · rw [if_pos hretry]
    exact .inl ⟨_, rfl, rfl, rfl, rfl⟩
  · rw [if_neg hretry]
    refine .inr ⟨?_, _, rfl, rfl⟩
    by_contra hlt
    exact hretry (hshould _ (by omega))

theorem attempts_of_no_retries (hreset : s.retry.param.resetNextTry = false) (hretry : s.retry.param.getRetry = 0)
    (hmeta : s.channelMeta = false) (hzero : r.retryTimes = 0) {rounds : Nat → Round}
    (hfails : (rounds 0).Fails cache r) {fuel : Nat} (hrun : relayLoop r fuel rounds s = some s') :
    s'.attempts = s.attempts ++ [s.first] := by
  cases fuel with
  | zero => cases hrun
  | succ fuel =>
    rw [relayLoop, hretry, hzero, if_pos (by decide)] at hrun
    rcases iterate_first hfails hmeta with ⟨t, hiter, htattempts, -, htretry⟩ | ⟨-, t, hiter, htattempts⟩
    · rw [hiter] at hrun
      cases fuel with
      | zero => cases hrun
      | succ fuel =>
        -- the counter of the loop is behind the bound after the first attempt
        dsimp only at hrun
        have hone : t.retry.param.getRetry = 1 := by
          rw [htretry, RetryParam.increaseRetry_of_not hreset, hretry]
          rfl
        rw [relayLoop, hone, hzero, if_neg (by decide)] at hrun
        cases hrun
        exact htattempts
    · rw [hiter] at hrun
      cases hrun
      exact htattempts

/-- What a run of failures makes of a request, by its number of retries: no attempt, the first one, or all those that
the groups are given. -/
theorem CrossGroup.levels {d : Distribution} (h : CrossGroup cache r d) {ratios : GroupRatios}
    (hs : Relay.start r ratios d = some s) {rounds : Nat → Round} (hfails : ∀ k, (rounds k).Fails cache r)
    {fuel : Nat} (hrun : relayLoop r fuel rounds s = some s') :
    (∃ g ∈ r.groups, priorities cache r g ≠ []) ∧
    s'.attempts.map (Attempt.level cache) =
      if r.retryTimes < 0 then []
      else if r.retryTimes = 0 then (documented (priorities cache r) 1 r.groups).map some
      else (retried (priorities cache r) r.retryTimes.toNat 0 0 r.groups).map some := by
  obtain ⟨i, g, id, state, hselects, hfirst, hsretry, hmeta, hnil⟩ := h.start hs
  have hdue : ∀ {R : Nat}, r.retryTimes = R → (retried (priorities cache r) R 0 0 r.groups).map some =
      s.first.level cache :: (retried (priorities cache r) R state.param.increaseRetry.getRetry (state.start r)
        (r.groups.drop (state.start r))).map some := by
    intro R hR
    have hstart : RetryState.start r {} = 0 := start_auto h.auto
    have hzero : RetryParam.getRetry (RetryState.param {}) ≤ R := Nat.zero_le R
    have hall := hselects.retried h.complete h.picks h.auto h.cross hR hzero .distributed
    rw [hstart, ← hfirst] at hall
    exact hall
  have hreset : s.retry.param.resetNextTry = false := (start_going hs).1.reset
  have hretry : s.retry.param.getRetry = 0 := (start_going hs).2.2.2
  have hone : s.retry.param.increaseRetry = ⟨some 1, false⟩ := by
    rw [RetryParam.increaseRetry_of_not hreset, hretry]
  constructor
  · cases hselects with
    | found hstart hgroup hskip hpick =>
      exact ⟨g, List.mem_of_getElem? hgroup, (h.picks.exists_channel h.complete).1 ⟨id, hpick⟩⟩
  by_cases hzero : r.retryTimes = 0
  · have hattempts := attempts_of_no_retries hreset hretry hmeta hzero (hfails 0) hrun
    rw [hnil] at hattempts
    rw [if_neg (by omega), if_pos hzero, hattempts, documented_one_eq (R := 0), List.map_take, hdue hzero]
    rfl
  cases fuel with
  | zero => cases hrun
  | succ fuel =>
    rw [relayLoop, hretry] at hrun
    by_cases hneg : r.retryTimes < 0
    · rw [if_neg (by exact_mod_cast Int.not_le.2 hneg)] at hrun
      cases hrun
      rw [if_pos hneg, hnil]
      rfl
    rw [if_pos (by exact_mod_cast Int.not_lt.1 hneg)] at hrun
    rw [if_neg hneg]
    obtain ⟨R, hR⟩ : ∃ R : Nat, r.retryTimes = R := ⟨r.retryTimes.toNat, by omega⟩
    have hpos : 0 < R := by omega
    have hstate : state.param.increaseRetry = ⟨some 1, false⟩ := by
      cases hselects with
      | found hstart hgroup hskip hpick hgroup' hother hindex hparam hretry' =>
        have hrank : RetryState.rank r {} i = 0 := ite_self 0
        have hnot : ¬ GivesUp r (RetryState.rank r {} i) := by
          rw [hrank, givesUp_iff h.auto h.cross hR]
          exact Nat.not_le.2 hpos
        rw [hparam, if_neg hnot, hrank]
    rw [if_neg hzero, show r.retryTimes.toNat = R by omega, hdue hR]
    rcases iterate_first (hfails 0) hmeta with ⟨t, hiter, htattempts, htmeta, htretry⟩ | ⟨hle, -⟩
    · rw [hiter] at hrun
      have hrest := levels_of_fails h.complete h.auto h.cross hR hpos (fun k => hfails (k + 1)) htmeta
        (by rw [htretry, hone]) (by rw [htretry, hone]; exact hpos) hrun
      rw [hrest, htattempts, hnil, htretry, hone, hstate, hsretry]
      rfl
    · rw [hretry] at hle
      omega

/-- The loop makes the attempts of the documented schedule just if there are no retries, or a single group has
channels, which have a priority for each attempt. -/
theorem schedule_as_documented_iff {d : Distribution} (h : CrossGroup cache r d) {ratios : GroupRatios}
    (hs : Relay.start r ratios d = some s) {rounds : Nat → Round} (hfails : ∀ k, (rounds k).Fails cache r)
    {fuel : Nat} (hfuel : max 1 (maxAttempts r) < fuel) :
    ∃ s', relayLoop r fuel rounds s = some s' ∧
      (s'.attempts.map (Attempt.level cache) =
          (documented (priorities cache r) (r.retryTimes + 1).toNat r.groups).map some ↔
        r.retryTimes ≤ 0 ∨ ∃ g, r.groups.filter (fun g => priorities cache r g ≠ []) = [g] ∧
          r.retryTimes + 1 ≤ (ranks (priorities cache r g)).length) := by
  obtain ⟨hgoing, hnil, hmeta, hretry⟩ := start_going hs
  obtain ⟨s', hrun, -⟩ := hgoing.ends hnil hmeta hretry rounds hfuel
  obtain ⟨hserved, hlevels⟩ := h.levels hs hfails hrun
  refine ⟨s', hrun, ?_⟩
  rw [hlevels]
  by_cases hneg : r.retryTimes < 0
  · have hbudget : (r.retryTimes + 1).toNat = 0 := by omega
    rw [if_pos hneg, hbudget, documented, List.take_zero]
    exact iff_of_true rfl (.inl (Int.le_of_lt hneg))
  by_cases hzero : r.retryTimes = 0
  · rw [if_neg hneg, if_pos hzero, hzero]
    exact iff_of_true rfl (.inl (Int.le_refl 0))
  obtain ⟨R, hR⟩ : ∃ R : Nat, r.retryTimes = R := ⟨r.retryTimes.toNat, by omega⟩
  have hbudget : (r.retryTimes + 1).toNat = R + 1 := by omega
  have hinj : Function.Injective (some : Nat × Int → Option (Nat × Int)) := Option.some_injective _
  rw [if_neg hneg, if_neg hzero, hbudget, (List.map_injective_iff.2 hinj).eq_iff,
    show r.retryTimes.toNat = R by omega, retried_eq_documented_iff hserved]
  constructor
  · rintro ⟨g, hg, hle⟩
    exact .inr ⟨g, hg, by omega⟩
  · rintro (hle | ⟨g, hg, hle⟩)
    · omega
    · exact ⟨g, hg, by omega⟩

end

/-! ## The example of the comment -/

/-- Two groups with two priorities each. -/
def exampleCache : ChannelCache where
  group2model2channels := fun group model =>
    if model ≠ "m" then [] else if group = "a" then [1, 2] else if group = "b" then [3, 4] else []
  channelsIDM :=
    ⟨[{ id := 1, status := .enabled, models := "m", group := "a", priority := some 10 },
      { id := 2, status := .enabled, models := "m", group := "a", priority := some 5 },
      { id := 3, status := .enabled, models := "m", group := "b", priority := some 10 },
      { id := 4, status := .enabled, models := "m", group := "b", priority := some 5 }], by decide⟩

/-- Three retries. -/
def exampleRequest : Request := { autoRequest with retryTimes := 3 }

def examplePick : Picker := fun _ group model retry =>
  exampleCache.getRandomSatisfiedChannel group model retry fun _ => 0

def exampleRound : Round := { autoRound with pick := examplePick }

theorem exampleCache_complete : exampleCache.Complete := by
  intro group model id hid
  unfold exampleCache at hid
  dsimp only at hid
  split at hid
  · cases hid
  split at hid
  · simp only [List.mem_cons, List.not_mem_nil, or_false] at hid
    rcases hid with rfl | rfl <;> rfl
  split at hid
  · simp only [List.mem_cons, List.not_mem_nil, or_false] at hid
    rcases hid with rfl | rfl <;> rfl
  · cases hid

theorem examplePick_picks : Picks exampleCache examplePick := ⟨fun _ _ => 0, fun _ _ h => h, rfl⟩

theorem example_crossGroup : CrossGroup exampleCache exampleRequest { pick := examplePick } where
  complete := exampleCache_complete
  auto := rfl
  cross := rfl
  free := ⟨rfl, rfl⟩
  picks := examplePick_picks

theorem exampleRound_fails : exampleRound.Fails exampleCache exampleRequest := by
  refine ⟨examplePick_picks, rfl, rfl, _, rfl, fun n hn => ?_⟩
  unfold shouldRetry
  rw [if_neg (by decide), if_neg (by decide), if_neg (by decide), if_neg (Int.not_le.2 hn)]
  decide

/-- The start of the loop in the example. -/
def exampleStart : Loop where
  retry := { ctx := { autoGroup := some "a", autoGroupIndex := some 0 } }
  usingGroup := "a"
  groupRatioInfo := { groupRatio := 1 }
  first := ⟨1, "a", some 0, .distributed⟩

theorem example_start : start exampleRequest flatRatios { pick := examplePick } = some exampleStart := by
  rfl

theorem schedule_as_documented_iff_example :
    ∃ s', relayLoop exampleRequest 9 (fun _ => exampleRound) exampleStart = some s' ∧
      (s'.attempts.map (Attempt.level exampleCache) =
          (documented (priorities exampleCache exampleRequest) 4 exampleRequest.groups).map some ↔
        exampleRequest.retryTimes ≤ 0 ∨ ∃ g,
          exampleRequest.groups.filter (fun g => priorities exampleCache exampleRequest g ≠ []) = [g] ∧
            exampleRequest.retryTimes + 1 ≤ (ranks (priorities exampleCache exampleRequest g)).length) :=
  schedule_as_documented_iff example_crossGroup example_start (fun _ => exampleRound_fails) (by decide)

/-- The loop does not follow the comment in its own example: each group is given four attempts, three of them at its
second priority. -/
theorem example_not_as_documented :
    ∃ s', relayLoop exampleRequest 9 (fun _ => exampleRound) exampleStart = some s' ∧
      s'.attempts.map (Attempt.level exampleCache) =
        [(0, 10), (0, 5), (0, 5), (0, 5), (1, 10), (1, 5), (1, 5), (1, 5)].map some ∧
      documented (priorities exampleCache exampleRequest) 4 exampleRequest.groups =
        [(0, 10), (0, 5), (1, 10), (1, 5)] := by
  obtain ⟨hgoing, hnil, hmeta, hretry⟩ := start_going example_start
  obtain ⟨s', hrun, -⟩ := hgoing.ends hnil hmeta hretry (fun _ => exampleRound) (by decide : _ < 9)
  obtain ⟨-, hlevels⟩ := example_crossGroup.levels example_start (fun _ => exampleRound_fails) hrun
  refine ⟨s', hrun, hlevels.trans ?_, ?_⟩
  · decide
  · decide

end NewApi.Relay

import NewApi.Relay.Loop

/-!
# The attempts of a request

The loop in `Relay` ends: every attempt uses up one of the retries of a group, or moves on to a later group, where
the counter starts again (`left`). The attempts that are scheduled, by `Distribute` or by the loop, go through the
groups in their order, and through the priorities of a group from the highest down (`attempts_scheduled`).

The first attempt may go to a channel that the schedule has no part in. The retries after a channel that the affinity
of the client prefers start at the first group, whatever group that channel was in (`not_bounded_and_ordered`).
-/

namespace NewApi.Relay

open Pick ChannelCache

/-! ## Iterations -/

/-- What `getChannel` does for an attempt `a`. -/
inductive Takes (r : Request) (c : Round) (s : Loop) : Attempt → Loop → Prop
  | context (h : s.channelMeta = false) : Takes r c s s.first s
  | selected {i g id retry} (h : s.channelMeta = true)
      (hselects : Selects r c.pick s.retry (⟨some id, g, some i, none⟩, retry)) :
      Takes r c s ⟨id, g, some i, .loop⟩
        { s with
            retry
            usingGroup := (handleGroupRatio c.ratios r.userGroup retry.ctx s.usingGroup).2
            groupRatioInfo := (handleGroupRatio c.ratios r.userGroup retry.ctx s.usingGroup).1 }

section
variable {r : Request} {c : Round} {s s' : Loop} {a : Attempt}

theorem getChannel_ok (hreset : s.retry.param.resetNextTry = false) (h : getChannel r c s = (.ok a, s')) :
    Takes r c s a s' := by
  unfold getChannel at h
  by_cases hmeta : s.channelMeta = false
  · rw [if_pos hmeta] at h
    cases h
    exact .context hmeta
  · rw [if_neg hmeta] at h
    have hselects := @selects r c.pick s.retry hreset
    generalize cacheGetRandomSatisfiedChannel r c.pick s.retry = result at h hselects
    obtain ⟨selection, retry⟩ := result
    cases hselects with
    | nothing =>
      dsimp only at h
      split at h
      · cases h
      · cases h
      next heq => cases heq
    | found hstart hgroup hskip hpick hgroup' hother hindex hparam hretry =>
      dsimp only at h
      split at h
      · cases h
      · cases h
        exact .selected (Bool.not_eq_false _ ▸ hmeta)
          (.found hstart hgroup hskip hpick hgroup' hother hindex hparam hretry)

theorem getChannel_attempts : (getChannel r c s).2.attempts = s.attempts := by
  unfold getChannel
  split
  · rfl
  dsimp only
  split
  · rfl
  · rfl
  · split
    · rfl
    · rfl

theorem Takes.attempts (h : Takes r c s a s') : s'.attempts = s.attempts := by
  cases h <;> rfl

theorem iterate_again (hreset : s.retry.param.resetNextTry = false) (h : iterate r c s = .again s') :
    ∃ a s₁ e, Takes r c s a s₁ ∧ c.relayError = some e ∧
      shouldRetry r e (r.retryTimes - s₁.retry.param.getRetry) = true ∧
      s' = { s₁ with
        attempts := s.attempts ++ [a], channelMeta := true, newAPIError := some e,
        retry := { s₁.retry with param := s₁.retry.param.increaseRetry } } := by
  unfold iterate at h
  split at h
  · cases h
  next a s₁ heq =>
    have htakes := getChannel_ok hreset heq
    dsimp only at h
    split at h
    · cases h
    split at h
    · cases h
    next e he =>
      split at h
      next hretry =>
        cases h
        exact ⟨a, s₁, e, htakes, he, hretry, by rw [htakes.attempts, he]⟩
      · cases h

theorem iterate_stop (hreset : s.retry.param.resetNextTry = false) (h : iterate r c s = .stop s') :
    s'.attempts = s.attempts ∨ ∃ a s₁, Takes r c s a s₁ ∧ s'.attempts = s.attempts ++ [a] := by
  unfold iterate at h
  split at h
  next e s₁ heq =>
    cases h
    refine .inl ?_
    have hattempts := @getChannel_attempts r c s
    rw [heq] at hattempts
    exact hattempts
  next a s₁ heq =>
    have htakes := getChannel_ok hreset heq
    have hattempts : s₁.attempts ++ [a] = s.attempts ++ [a] := by rw [htakes.attempts]
    refine .inr ⟨a, s₁, htakes, ?_⟩
    dsimp only at h
    split at h
    · cases h
      exact hattempts
    split at h
    · cases h
      exact hattempts
    split at h
    · cases h
    · cases h
      exact hattempts

end

/-- What a run of the loop keeps: an invariant of the states before an iteration, by its number, and a property of
those after the last one. -/
theorem relayLoop_inv {r : Request} {rounds : Nat → Round} {I : Nat → Loop → Prop} {P : Loop → Prop}
    (hagain : ∀ k s s', I k s → iterate r (rounds k) s = .again s' → I (k + 1) s')
    (hstop : ∀ k s s', I k s → iterate r (rounds k) s = .stop s' → P s') (hend : ∀ k s, I k s → P s)
    {fuel k : Nat} {s s' : Loop} (hs : I k s) (hrun : relayLoop r fuel (fun n => rounds (k + n)) s = some s') :
    P s' := by
  induction fuel generalizing k s with
  | zero => cases hrun
  | succ fuel ih =>
    have hnext : (fun n => rounds (k + (n + 1))) = fun n => rounds (k + 1 + n) :=
      funext fun n => by rw [Nat.add_right_comm, Nat.add_assoc]
    rw [relayLoop, hnext] at hrun
    split at hrun
    next hle =>
      split at hrun
      next hiter =>
        cases hrun
        exact hstop _ _ _ hs hiter
      next hiter => exact ih (hagain _ _ _ hs hiter) hrun
    · cases hrun
      exact hend _ _ hs

theorem relayLoop_inv_zero {r : Request} {rounds : Nat → Round} {I : Nat → Loop → Prop} {P : Loop → Prop}
    (hagain : ∀ k s s', I k s → iterate r (rounds k) s = .again s' → I (k + 1) s')
    (hstop : ∀ k s s', I k s → iterate r (rounds k) s = .stop s' → P s') (hend : ∀ k s, I k s → P s)
    {fuel : Nat} {s s' : Loop} (hs : I 0 s) (hrun : relayLoop r fuel rounds s = some s') : P s' := by
  have hzero : (fun n => rounds (0 + n)) = rounds := funext fun n => by rw [Nat.zero_add]
  rw [← hzero] at hrun
  exact relayLoop_inv hagain hstop hend hs hrun

/-! ## The end of the loop -/

/-- The attempts that there can be at most: the retries of each group and its first attempt. -/
def maxAttempts (r : Request) : Nat := r.groups.length * (r.retryTimes + 1).toNat

/-- The attempts that are left before an iteration: those of the group where the search starts, and of those behind
it. -/
def left (r : Request) (s : RetryState) : Nat :=
  if s.start r < r.groups.length then
    (r.groups.length - 1 - s.start r) * (r.retryTimes + 1).toNat + ((r.retryTimes + 1).toNat - s.param.getRetry)
  else 0

section
variable {r : Request} {pick : Picker} {s s' : RetryState} {id i : Nat} {g : String}

theorem left_lt_of_selects (hretry : (s.param.getRetry : Int) ≤ r.retryTimes)
    (h : Selects r pick s (⟨some id, g, some i, none⟩, s')) :
    left r ⟨s'.param.increaseRetry, s'.ctx⟩ < left r s := by
  cases h with
  | found hstart hgroup hskip hpick hgroup' hother hindex hparam hretry =>
    have hi : i < r.groups.length := (List.getElem?_eq_some_iff.1 hgroup).1
    have hstart' : RetryState.start r ⟨s'.param.increaseRetry, s'.ctx⟩ = s'.start r := rfl
    have hrank : s.rank r i ≤ s.param.getRetry := by
      unfold RetryState.rank
      split
      · exact Nat.le_refl _
      · exact Nat.zero_le _
    have hrank' : i ≠ s.start r → s.rank r i = 0 := fun hne => if_neg hne
    have hsame : i = s.start r → s.rank r i = s.param.getRetry := fun heq => if_pos heq
    obtain ⟨R, hR⟩ : ∃ R, (r.retryTimes + 1).toNat = R := ⟨_, rfl⟩
    have hlt : s.param.getRetry < R := by omega
    -- the rounds of the groups behind each of the two positions
    have hmul : ∀ {m n : Nat}, m < n → m * R + R ≤ n * R := by
      intro m n hmn
      have hle := Nat.mul_le_mul_right R (Nat.succ_le_of_lt hmn)
      rwa [Nat.succ_mul] at hle
    unfold left
    rw [hstart', hindex, hparam, hR, if_pos (Nat.lt_of_le_of_lt hstart hi)]
    split
    next hup =>
      split
      next hbehind =>
        have hle := @hmul (r.groups.length - 1 - (i + 1)) (r.groups.length - 1 - s.start r) (by omega)
        show _ + (R - 0) < _
        omega
      · omega
    next hstay =>
      show _ + (R - (s.rank r i + 1)) < _
      by_cases heq : i = s.start r
      · rw [hsame heq, heq]
        omega
      · have hle := @hmul (r.groups.length - 1 - i) (r.groups.length - 1 - s.start r) (by omega)
        omega

theorem left_pos_of_selects (hretry : (s.param.getRetry : Int) ≤ r.retryTimes)
    (h : Selects r pick s (⟨some id, g, some i, none⟩, s')) : 0 < left r s :=
  Nat.lt_of_le_of_lt (Nat.zero_le _) (left_lt_of_selects hretry h)

end

section
variable {r : Request} {s : Loop}

/-- After the first attempt the loop ends, with no more attempts than are left. -/
theorem relayLoop_ends (hmeta : s.channelMeta = true) (hreset : s.retry.param.resetNextTry = false) {fuel : Nat}
    (hfuel : left r s.retry < fuel) (rounds : Nat → Round) :
    ∃ s', relayLoop r fuel rounds s = some s' ∧ s'.attempts.length ≤ s.attempts.length + left r s.retry := by
  induction fuel generalizing rounds s with
  | zero => exact absurd hfuel (Nat.not_lt_zero _)
  | succ fuel ih =>
    rw [relayLoop]
    split
    next hle =>
      have hselected : ∀ {a s₁}, Takes r (rounds 0) s a s₁ → ∃ i, ∃ g, ∃ id, ∃ retry,
          Selects r (rounds 0).pick s.retry (⟨some id, g, some i, none⟩, retry) ∧ s₁.retry = retry := by
        intro a s₁ htakes
        cases htakes with
        | context h => cases hmeta.symm.trans h
        | selected _ hselects => exact ⟨_, _, _, _, hselects, rfl⟩
      cases hiter : iterate r (rounds 0) s with
      | stop s' =>
        refine ⟨s', rfl, ?_⟩
        rcases iterate_stop hreset hiter with hsame | ⟨a, s₁, htakes, hmore⟩
        · rw [hsame]
          exact Nat.le_add_right _ _
        · obtain ⟨i, g, id, retry, hselects, -⟩ := hselected htakes
          have hpos := left_pos_of_selects hle hselects
          rw [hmore, List.length_append, List.length_singleton]
          omega
      | again s' =>
        obtain ⟨a, s₁, e, htakes, -, -, rfl⟩ := iterate_again hreset hiter
        obtain ⟨i, g, id, retry, hselects, hretry⟩ := hselected htakes
        have hless := left_lt_of_selects hle hselects
        have hparam : s₁.retry.param.increaseRetry.resetNextTry = false := by
          cases hselects with
          | found _ _ _ _ _ _ _ hparam _ => rw [hretry, hparam]
        subst hretry
        obtain ⟨s'', hrun, hlen⟩ := @ih { s₁ with
          attempts := s.attempts ++ [a], channelMeta := true, newAPIError := some e,
          retry := { s₁.retry with param := s₁.retry.param.increaseRetry } } rfl hparam
          (show left r ⟨s₁.retry.param.increaseRetry, s₁.retry.ctx⟩ < fuel by omega) fun k => rounds (k + 1)
        refine ⟨s'', hrun, hlen.trans ?_⟩
        show (s.attempts ++ [a]).length + left r ⟨s₁.retry.param.increaseRetry, s₁.retry.ctx⟩ ≤ _
        rw [List.length_append, List.length_singleton]
        omega
    · exact ⟨s, rfl, Nat.le_add_right _ _⟩

end

/-! ## The order of the attempts -/

/-- `Distribute` or the loop has selected the channel. -/
def Attempt.Scheduled (a : Attempt) : Prop := a.chooser = .distributed ∨ a.chooser = .loop

/-- A scheduled attempt is in a group of the request, at an index that the search has not passed. -/
def Attempt.Within (r : Request) (n : Nat) (a : Attempt) : Prop :=
  a.Scheduled → ∃ i, a.position = some i ∧ r.groups[i]? = some a.group ∧ i ≤ n

/-- Two scheduled attempts are in the order of their groups. -/
def Attempt.InOrder (a b : Attempt) : Prop :=
  a.Scheduled → b.Scheduled → ∀ i j, a.position = some i → b.position = some j → i ≤ j

/-- The loop does not go up to a higher priority within a group. -/
def Attempt.Falls (cache : ChannelCache) (a b : Attempt) : Prop :=
  a.chooser = .loop → b.chooser = .loop → a.position = b.position →
    ∃ c ∈ cache.channelsIDM, ∃ d ∈ cache.channelsIDM,
      c.id = a.channel ∧ d.id = b.channel ∧ d.getPriority ≤ c.getPriority

/-- Where the attempts are before an iteration. -/
structure Going (r : Request) (s : Loop) : Prop where
  reset : s.retry.param.resetNextTry = false
  fresh : s.channelMeta = false → s.attempts = [] ∧ s.first.Within r (s.retry.start r) ∧ s.first.chooser ≠ .loop
  within : ∀ a ∈ s.attempts, a.Within r (s.retry.start r)
  ordered : s.attempts.Pairwise Attempt.InOrder

/-- The attempt was selected from a cache, for a rank that the counter has passed if the search is still in its
group. -/
def Attempt.Ranked (cache : ChannelCache) (r : Request) (s : RetryState) (a : Attempt) : Prop :=
  a.chooser = .loop → ∃ rank, (∃ c ∈ atRank (cache.listed a.group r.modelName) rank, c.id = a.channel) ∧
    (a.position = some (s.start r) → rank < s.param.getRetry)

/-- The choices of an iteration are made from a cache. -/
def Round.From (cache : ChannelCache) (c : Round) : Prop :=
  ∃ draw : Nat → Nat → Nat, c.pick = fun i group model retry =>
    cache.getRandomSatisfiedChannel group model retry (draw i)

section
variable {r : Request} {c : Round} {s s₁ : Loop} {a : Attempt} {n m : Nat}

theorem Attempt.Within.mono (h : a.Within r n) (hle : n ≤ m) : a.Within r m := by
  intro hs
  obtain ⟨i, hi, hg, hn⟩ := h hs
  exact ⟨i, hi, hg, hn.trans hle⟩

theorem Going.takes (h : Going r s) (ht : Takes r c s a s₁) :
    s.retry.start r ≤ s₁.retry.start r ∧ a.Within r (s₁.retry.start r) ∧ (∀ b ∈ s.attempts, b.InOrder a) ∧
      s₁.retry.param.increaseRetry.resetNextTry = false := by
  cases ht with
  | context hmeta =>
    obtain ⟨hnil, hwithin, -⟩ := h.fresh hmeta
    refine ⟨Nat.le_refl _, hwithin, ?_, ?_⟩
    · rw [hnil]
      exact List.forall_mem_nil _
    · rw [RetryParam.increaseRetry_of_not h.reset]
  | @selected i _ _ retry hmeta hselects =>
    cases hselects with
    | found hstart hgroup hskip hpick hgroup' hother hindex hparam hretry =>
      have hle : i ≤ retry.start r := by
        rw [hindex]
        split
        · exact Nat.le_succ i
        · exact Nat.le_refl i
      refine ⟨hstart.trans hle, fun _ => ⟨i, rfl, hgroup, hle⟩, ?_, by rw [hparam]⟩
      intro b hb hsb _ j k hj hk
      obtain ⟨j', hj', -, hj''⟩ := h.within b hb hsb
      cases hj.symm.trans hj'
      cases hk
      exact hj''.trans hstart

theorem Going.append (h : Going r s) (ht : Takes r c s a s₁) :
    (∀ b ∈ s.attempts ++ [a], b.Within r (s₁.retry.start r)) ∧ (s.attempts ++ [a]).Pairwise Attempt.InOrder := by
  obtain ⟨hle, hwithin, horder, -⟩ := h.takes ht
  constructor
  · intro b hb
    rcases List.mem_append.1 hb with hb | hb
    · exact (h.within b hb).mono hle
    · rw [List.mem_singleton.1 hb]
      exact hwithin
  · rw [List.pairwise_append]
    refine ⟨h.ordered, List.pairwise_singleton _ _, fun b hb d hd => ?_⟩
    rw [List.mem_singleton.1 hd]
    exact horder b hb

theorem Going.again (h : Going r s) {s' : Loop} (hiter : iterate r c s = .again s') : Going r s' := by
  obtain ⟨a, s₁, e, ht, -, -, rfl⟩ := iterate_again h.reset hiter
  obtain ⟨hwithin, hordered⟩ := h.append ht
  exact {
    reset := (h.takes ht).2.2.2
    fresh := fun hmeta => by cases hmeta
    within := hwithin
    ordered := hordered }

theorem exists_priority_le {cache : ChannelCache} {group model : String} {rank rank' a b : Nat}
    (ha : ∃ c ∈ atRank (cache.listed group model) rank, c.id = a)
    (hb : ∃ d ∈ atRank (cache.listed group model) rank', d.id = b) (hle : rank ≤ rank') :
    ∃ c ∈ cache.channelsIDM, ∃ d ∈ cache.channelsIDM, c.id = a ∧ d.id = b ∧ d.getPriority ≤ c.getPriority := by
  obtain ⟨c, hc, hca⟩ := ha
  obtain ⟨d, hd, hdb⟩ := hb
  obtain ⟨hcl, hcp⟩ := mem_atRank.1 hc
  obtain ⟨hdl, hdp⟩ := mem_atRank.1 hd
  obtain ⟨k, -, hck⟩ := List.mem_filterMap.1 hcl
  obtain ⟨l, -, hdk⟩ := List.mem_filterMap.1 hdl
  refine ⟨c, (Table.get?_eq_some.1 hck).1, d, (Table.get?_eq_some.1 hdk).1, hca, hdb, ?_⟩
  rw [hcp, hdp]
  exact Pick.rankAt_antitone hle

theorem Going.past (h : Going r s) {i : Nat} {g : String} (hstart : s.retry.start r ≤ i)
    (hgroup : r.groups[i]? = some g) {b : Attempt} (hb : b ∈ s.attempts) (hloop : b.chooser = .loop)
    (hpos : b.position = some i) : i = s.retry.start r ∧ b.group = g := by
  obtain ⟨j, hj, hg, hle⟩ := h.within b hb (.inr hloop)
  cases hpos.symm.trans hj
  exact ⟨Nat.le_antisymm hle hstart, Option.some.inj (hg.symm.trans hgroup)⟩

/-- A selection from a cache: its rank is behind those of the attempts in its group. -/
theorem Going.ranked {cache : ChannelCache} (h : Going r s) (hc : c.From cache)
    (hranked : ∀ b ∈ s.attempts, b.Ranked cache r s.retry) (ht : Takes r c s a s₁) :
    (∀ b ∈ s.attempts ++ [a], b.Ranked cache r ⟨s₁.retry.param.increaseRetry, s₁.retry.ctx⟩) ∧
      ∀ b ∈ s.attempts, b.Falls cache a := by
  cases ht with
  | context hmeta =>
    obtain ⟨hnil, -, hne⟩ := h.fresh hmeta
    rw [hnil]
    refine ⟨?_, List.forall_mem_nil _⟩
    intro b hb hloop
    rw [List.nil_append, List.mem_singleton] at hb
    rw [hb] at hloop
    exact absurd hloop hne
  | @selected i g id retry hmeta hselects =>
    cases hselects with
    | found hstart hgroup hskip hpick hgroup' hother hindex hparam hretry =>
      obtain ⟨draw, hdraw⟩ := hc
      have hstart' : RetryState.start r ⟨retry.param.increaseRetry, retry.ctx⟩ = retry.start r := rfl
      rw [hdraw] at hpick
      obtain ⟨d, hd, hid⟩ := of_getRandomSatisfiedChannel_eq hpick
      constructor
      · intro b hb hloop
        rcases List.mem_append.1 hb with hb | hb
        · obtain ⟨rank, hc, hlt⟩ := hranked b hb hloop
          refine ⟨rank, hc, fun hpos => ?_⟩
          rw [hstart', hindex] at hpos
          show rank < RetryParam.getRetry retry.param.increaseRetry
          rw [hparam]
          split at hpos
          next hup =>
            obtain ⟨j, hj, -, hle⟩ := h.within b hb (.inr hloop)
            cases hpos.symm.trans hj
            omega
          next hstay =>
            obtain ⟨hi, -⟩ := h.past hstart hgroup hb hloop hpos
            rw [if_neg hstay]
            have hrank : s.retry.rank r i = s.retry.param.getRetry := if_pos hi
            have hless := hlt (hi ▸ hpos)
            show rank < s.retry.rank r i + 1
            omega
        · rw [List.mem_singleton.1 hb]
          refine ⟨s.retry.rank r i, ⟨d, hd, hid⟩, fun hpos => ?_⟩
          rw [hstart', hindex] at hpos
          show s.retry.rank r i < RetryParam.getRetry retry.param.increaseRetry
          rw [hparam]
          split at hpos
          · have hsucc : i = i + 1 := Option.some.inj hpos
            omega
          next hstay =>
            rw [if_neg hstay]
            exact Nat.lt_succ_self _
      · intro b hb hloop _ hpos
        obtain ⟨hi, hsame⟩ := h.past hstart hgroup hb hloop hpos
        obtain ⟨rank, he, hlt⟩ := hranked b hb hloop
        rw [hsame] at he
        have hless := hlt (hi ▸ hpos)
        have hrank : s.retry.rank r i = s.retry.param.getRetry := if_pos hi
        exact exists_priority_le he ⟨d, hd, hid⟩ (by omega)

end

/-- What `Distribute` leaves to the loop. -/
theorem distribute_within {r : Request} {d : Distribution} {ctx : Context} {first : Attempt}
    (h : distribute r d = some (ctx, first)) :
    first.Within r (RetryState.start r { ctx }) ∧ first.chooser ≠ .loop := by
  have hother : ∀ {a : Attempt}, a.chooser = .specific ∨ a.chooser = .preferred →
      a.Within r (RetryState.start r { ctx }) ∧ a.chooser ≠ .loop := by
    intro a ha
    refine ⟨fun hs => ?_, ?_⟩
    · rcases hs with hs | hs <;> rcases ha with ha | ha <;> cases hs.symm.trans ha
    · rcases ha with ha | ha <;> simp [ha]
  unfold distribute at h
  split at h
  · cases h
    exact hother (.inl rfl)
  split at h
  · cases h
    exact hother (.inr rfl)
  have hselects := @selects r d.pick {} rfl
  generalize cacheGetRandomSatisfiedChannel r d.pick {} = result at h hselects
  obtain ⟨selection, state⟩ := result
  cases hselects with
  | nothing =>
    dsimp only at h
    split at h
    next heq => cases heq
    · cases h
  | @found i g id _ hstart hgroup hskip hpick hgroup' hother' hindex hparam hretry =>
    cases h
    refine ⟨fun _ => ⟨i, rfl, hgroup, ?_⟩, fun hloop => by cases hloop⟩
    have hle : i ≤ state.start r := by
      rw [hindex]
      split
      · exact Nat.le_succ i
      · exact Nat.le_refl i
    exact hle

theorem start_going {r : Request} {ratios : GroupRatios} {d : Distribution} {s : Loop} (h : start r ratios d = some s) :
    Going r s ∧ s.attempts = [] ∧ s.channelMeta = false ∧ s.retry.param.getRetry = 0 := by
  unfold start at h
  obtain ⟨⟨ctx, first⟩, hdist, rfl⟩ := Option.map_eq_some_iff.1 h
  exact ⟨⟨rfl, fun _ => ⟨rfl, distribute_within hdist⟩, List.forall_mem_nil _, .nil⟩, rfl, rfl, rfl⟩

/-! ## Whole requests -/

/-- The scheduled attempts are in groups of the request, in their order. -/
def Ordered (r : Request) (attempts : List Attempt) : Prop :=
  (∀ a ∈ attempts, a.Scheduled → ∃ i, a.position = some i ∧ r.groups[i]? = some a.group) ∧
    attempts.Pairwise Attempt.InOrder

section
variable {r : Request} {s : Loop}

/-- From the start the loop ends, with no more attempts than there can be, or with the first one. -/
theorem Going.ends (h : Going r s) (hnil : s.attempts = []) (hmeta : s.channelMeta = false)
    (hretry : s.retry.param.getRetry = 0) (rounds : Nat → Round) {fuel : Nat} (hfuel : max 1 (maxAttempts r) < fuel) :
    ∃ s', relayLoop r fuel rounds s = some s' ∧ s'.attempts.length ≤ max 1 (maxAttempts r) := by
  obtain ⟨fuel, rfl⟩ : ∃ n, fuel = n + 1 := ⟨fuel - 1, by omega⟩
  rw [relayLoop]
  split
  next hle =>
    cases hiter : iterate r (rounds 0) s with
    | stop s' =>
      refine ⟨s', rfl, ?_⟩
      rcases iterate_stop h.reset hiter with hsame | ⟨a, s₁, -, hmore⟩
      · simp [hsame, hnil]
      · simp [hmore, hnil]
    | again s' =>
      have hreset := (h.again hiter).reset
      obtain ⟨a, s₁, e, htakes, -, -, rfl⟩ := iterate_again h.reset hiter
      have hone : s₁.retry.param.increaseRetry.getRetry = 1 := by
        cases htakes with
        | context => rw [RetryParam.increaseRetry_of_not h.reset, hretry]; rfl
        | selected hmeta' => cases hmeta.symm.trans hmeta'
      -- the first attempt has used up one of the retries of the group where the search starts
      have hleft : left r ⟨s₁.retry.param.increaseRetry, s₁.retry.ctx⟩ + 1 ≤ max 1 (maxAttempts r) := by
        unfold left maxAttempts
        split
        next hlt =>
          have hmul := Nat.mul_le_mul_right (r.retryTimes + 1).toNat
            (show r.groups.length - 1 - RetryState.start r ⟨s₁.retry.param.increaseRetry, s₁.retry.ctx⟩ + 1
              ≤ r.groups.length by omega)
          rw [Nat.succ_mul] at hmul
          rw [hone]
          omega
        · exact Nat.le_max_left _ _
      obtain ⟨s', hrun, hlen⟩ := @relayLoop_ends r { s₁ with
        attempts := s.attempts ++ [a], channelMeta := true, newAPIError := some e,
        retry := { s₁.retry with param := s₁.retry.param.increaseRetry } } rfl hreset fuel
        (show left r ⟨s₁.retry.param.increaseRetry, s₁.retry.ctx⟩ < fuel by omega) fun k => rounds (k + 1)
      refine ⟨s', hrun, hlen.trans ?_⟩
      show (s.attempts ++ [a]).length + left r ⟨s₁.retry.param.increaseRetry, s₁.retry.ctx⟩ ≤ _
      rw [hnil]
      show 1 + _ ≤ _
      omega
  · exact ⟨s, rfl, by rw [hnil]; exact Nat.zero_le _⟩

theorem Going.ordered_run (h : Going r s) {rounds : Nat → Round} {fuel : Nat} {s' : Loop}
    (hrun : relayLoop r fuel rounds s = some s') : Ordered r s'.attempts := by
  have hof : ∀ {l : List Attempt} {n : Nat}, (∀ a ∈ l, a.Within r n) → l.Pairwise Attempt.InOrder → Ordered r l := by
    intro l n hwithin hordered
    refine ⟨fun a ha hs => ?_, hordered⟩
    obtain ⟨i, hi, hg, -⟩ := hwithin a ha hs
    exact ⟨i, hi, hg⟩
  refine @relayLoop_inv_zero r rounds (fun _ => Going r) (fun s => Ordered r s.attempts)
    (fun k s s' h hiter => h.again hiter) (fun k s s' h hiter => ?_) (fun k s h => hof h.within h.ordered)
    fuel s s' h hrun
  rcases iterate_stop h.reset hiter with hsame | ⟨a, s₁, htakes, hmore⟩
  · rw [hsame]
    exact hof h.within h.ordered
  · obtain ⟨hwithin, hordered⟩ := h.append htakes
    rw [hmore]
    exact hof hwithin hordered

theorem Going.falls_run (h : Going r s) (hnil : s.attempts = []) {cache : ChannelCache} {rounds : Nat → Round}
    (hcache : ∀ k, (rounds k).From cache) {fuel : Nat} {s' : Loop} (hrun : relayLoop r fuel rounds s = some s') :
    s'.attempts.Pairwise (Attempt.Falls cache) := by
  have happend : ∀ {l : List Attempt} {a : Attempt}, l.Pairwise (Attempt.Falls cache) →
      (∀ b ∈ l, b.Falls cache a) → (l ++ [a]).Pairwise (Attempt.Falls cache) := by
    intro l a hl ha
    rw [List.pairwise_append]
    refine ⟨hl, List.pairwise_singleton _ _, fun b hb d hd => ?_⟩
    rw [List.mem_singleton.1 hd]
    exact ha b hb
  refine @relayLoop_inv_zero r rounds
    (fun _ s => Going r s ∧ (∀ a ∈ s.attempts, a.Ranked cache r s.retry) ∧ s.attempts.Pairwise (Attempt.Falls cache))
    (fun s => s.attempts.Pairwise (Attempt.Falls cache)) ?_ ?_ (fun k s h => h.2.2) fuel s s' ?_ hrun
  · rintro k s s' ⟨hgoing, hranked, hfalls⟩ hiter
    refine ⟨hgoing.again hiter, ?_⟩
    obtain ⟨a, s₁, e, htakes, -, -, rfl⟩ := iterate_again hgoing.reset hiter
    obtain ⟨hranked', hfalls'⟩ := hgoing.ranked (hcache k) hranked htakes
    exact ⟨hranked', happend hfalls hfalls'⟩
  · rintro k s s' ⟨hgoing, hranked, hfalls⟩ hiter
    rcases iterate_stop hgoing.reset hiter with hsame | ⟨a, s₁, htakes, hmore⟩
    · rw [hsame]
      exact hfalls
    · rw [hmore]
      exact happend hfalls (hgoing.ranked (hcache k) hranked htakes).2
  · rw [hnil]
    exact ⟨h, List.forall_mem_nil _, .nil⟩

/-- The loop ends within its bound; its scheduled attempts go through the groups in order, and from a fixed cache
they never go up to a higher priority within a group. -/
theorem attempts_scheduled {ratios : GroupRatios} {d : Distribution} (h : start r ratios d = some s)
    (rounds : Nat → Round) {fuel : Nat} (hfuel : max 1 (maxAttempts r) < fuel) :
    ∃ s', relayLoop r fuel rounds s = some s' ∧ s'.attempts.length ≤ max 1 (maxAttempts r) ∧
      Ordered r s'.attempts ∧
      ∀ cache, (∀ k, (rounds k).From cache) → s'.attempts.Pairwise (Attempt.Falls cache) := by
  obtain ⟨hgoing, hnil, hmeta, hretry⟩ := start_going h
  obtain ⟨s', hrun, hlen⟩ := hgoing.ends hnil hmeta hretry rounds hfuel
  exact ⟨s', hrun, hlen, hgoing.ordered_run hrun, fun cache hcache => hgoing.falls_run hnil hcache hrun⟩

end

/-- Ratio settings in which every group costs the same. -/
def flatRatios : GroupRatios := { groupGroupRatio := fun _ _ => none, groupRatio := fun _ => 1 }

/-- A token of the group `auto`, whose user may use the groups `a` and `b`. -/
def autoRequest : Request :=
  { tokenGroup := "auto", modelName := "m", crossGroupRetry := true, autoGroups := ["a", "b"],
    usableGroups := ["a", "b"], retryTimes := 1 }

/-- The group `a` has the channel 1, and `b` the channel 2. -/
def autoPick : Picker := fun _ group _ _ => if group = "a" then .channel 1 else .channel 2

/-- A round in which the attempt fails. -/
def autoRound : Round :=
  { pick := autoPick, ratios := flatRatios
    relayError := some { message := "bad gateway", errorCode := "bad_response_status_code", statusCode := 502 } }

theorem attempts_scheduled_auto : ∃ s', relayLoop autoRequest 5 (fun _ => autoRound)
      { retry := { ctx := { autoGroup := some "a", autoGroupIndex := some 0 } }, usingGroup := "a"
        groupRatioInfo := { groupRatio := 1 }, first := ⟨1, "a", some 0, .distributed⟩ } = some s' ∧
    s'.attempts.length ≤ 4 ∧ Ordered autoRequest s'.attempts ∧
    ∀ cache, (Nat → autoRound.From cache) → s'.attempts.Pairwise (Attempt.Falls cache) :=
  @attempts_scheduled autoRequest _ flatRatios { pick := autoPick } rfl (fun _ => autoRound) 5 (by decide)

/-- A token that names its channel makes an attempt although its user may use no group. With an attempt in `b`, which
the affinity of the client prefers, the retries go back to `a`. -/
theorem not_bounded_and_ordered :
    (¬ ∀ r ratios d s rounds fuel s', start r ratios d = some s → relayLoop r fuel rounds s = some s' →
      s'.attempts.length ≤ r.groups.length * (r.retryTimes + 1).toNat) ∧
    ¬ ∀ r ratios d s rounds fuel s', r.tokenGroup = "auto" → r.crossGroupRetry = true → start r ratios d = some s →
      relayLoop r fuel rounds s = some s' →
      s'.attempts.Pairwise fun a b => ∀ i j, a.position = some i → b.position = some j → i ≤ j := by
  constructor
  · intro h
    have hle := h { tokenGroup := "auto", modelName := "m", specificChannelId := some 1 } flatRatios
      { pick := autoPick } _ (fun _ => { pick := autoPick, ratios := flatRatios }) 1 _ rfl rfl
    exact absurd hle (by decide)
  · intro h
    have hpairwise := h autoRequest flatRatios
      { preferred := some 2, enabledFor := fun group => decide (group = "b"), pick := autoPick } _
      (fun _ => autoRound) 5 _ rfl rfl rfl rfl
    have hle := (List.pairwise_cons.1 hpairwise).1 ⟨1, "a", some 0, .loop⟩ List.mem_cons_self 1 0 rfl rfl
    exact absurd hle (by decide)

end NewApi.Relay

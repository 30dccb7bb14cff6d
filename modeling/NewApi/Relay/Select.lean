import NewApi.Channel.Routing

/-!
# Selecting the channel of an attempt

`CacheGetRandomSatisfiedChannel` selects a channel for each attempt of a request. A token of the group `auto` goes
through the groups that its user may use, from the index that the gin context keeps; the number of retries
(`RetryParam`) is the rank of the priority within the group, and goes back to zero where the group changes.

`Selects` is what one selection can do; everything about runs of the relay loop is derived from it.
-/

namespace NewApi.Relay

/-- The counters of `RetryParam`. -/
structure RetryParam where
  retry : Option Nat := none
  resetNextTry : Bool := false
deriving DecidableEq

namespace RetryParam

def getRetry (p : RetryParam) : Nat := p.retry.getD 0

def setRetry (p : RetryParam) (retry : Nat) : RetryParam := { p with retry := some retry }

def increaseRetry (p : RetryParam) : RetryParam :=
  if p.resetNextTry then { p with resetNextTry := false } else { p with retry := some (p.getRetry + 1) }

def resetRetryNextTry (p : RetryParam) : RetryParam := { p with resetNextTry := true }

theorem increaseRetry_reset (p : RetryParam) :
    (p.setRetry 0).resetRetryNextTry.increaseRetry = { retry := some 0, resetNextTry := false } := rfl

theorem increaseRetry_of_not {p : RetryParam} (h : p.resetNextTry = false) :
    p.increaseRetry = { retry := some (p.getRetry + 1), resetNextTry := false } := by
  obtain ⟨retry, resetNextTry⟩ := p
  cases h
  rfl

end RetryParam

/-- The keys of the gin context that the selection reads and writes. -/
structure Context where
  autoGroup : Option String := none
  autoGroupIndex : Option Nat := none
  autoGroupRetryIndex : Option Nat := none
deriving DecidableEq

/-- What is the same in all attempts of a request: the token, the user, and the settings. `usableGroups` are the
keys of `GetUserUsableGroups` of the user's group; `skipRetryAfterAffinity` is what
`ShouldSkipRetryAfterChannelAffinityFailure` says. -/
structure Request where
  tokenGroup : String
  modelName : String
  userGroup : String := ""
  crossGroupRetry : Bool := false
  specificChannelId : Option Nat := none
  skipRetryAfterAffinity : Bool := false
  autoGroups : List String := []
  usableGroups : List String := []
  retryTimes : Int := 0
  automaticRetryStatusCodeRanges : List (Int × Int) :=
    [(100, 199), (300, 399), (401, 407), (409, 499), (500, 599)]

/-- `GetUserAutoGroup`. -/
def Request.userAutoGroup (r : Request) : List String := r.autoGroups.filter (· ∈ r.usableGroups)

/-- The groups that the attempts may go to. -/
def Request.groups (r : Request) : List String :=
  if r.tokenGroup = "auto" then r.userAutoGroup else [r.tokenGroup]

/-- What `GetRandomSatisfiedChannel` answers during one selection, for a group at an index, a model and a number of
retries. -/
abbrev Picker := Nat → String → String → Nat → Outcome

/-- What the selection reads and writes. -/
structure RetryState where
  param : RetryParam := { retry := some 0 }
  ctx : Context := {}
deriving DecidableEq

/-- The results of `CacheGetRandomSatisfiedChannel`. `position` is the index at which its loop stops. -/
structure Selection where
  channel : Option Nat
  selectGroup : String
  position : Option Nat
  err : Option String
deriving DecidableEq

/-- The loop over the groups from an index on; `moved` tells that it is not in the first of them any more. -/
def autoSelect (r : Request) (pick : Picker) :
    Bool → Nat → List String → RetryState → Selection × RetryState
  | _, _, [], s => (⟨none, r.tokenGroup, none, none⟩, s)
  | moved, i, autoGroup :: rest, s =>
    let priorityRetry := if moved then 0 else s.param.getRetry
    match pick i autoGroup r.modelName priorityRetry with
    | .channel id =>
      let ctx := { s.ctx with autoGroup := some autoGroup }
      -- the last retry of a group leaves the next group to the next try
      if r.crossGroupRetry ∧ (priorityRetry : Int) ≥ r.retryTimes then
        (⟨some id, autoGroup, some i, none⟩,
          ⟨(s.param.setRetry 0).resetRetryNextTry, { ctx with autoGroupIndex := some (i + 1) }⟩)
      else (⟨some id, autoGroup, some i, none⟩, ⟨s.param, { ctx with autoGroupIndex := some i }⟩)
    | _ =>
      -- an error counts as no channel here
      autoSelect r pick true (i + 1) rest
        ⟨s.param.setRetry 0, { s.ctx with autoGroupIndex := some (i + 1), autoGroupRetryIndex := some 0 }⟩

/-- `CacheGetRandomSatisfiedChannel`. -/
def cacheGetRandomSatisfiedChannel (r : Request) (pick : Picker) (s : RetryState) : Selection × RetryState :=
  if r.tokenGroup = "auto" then
    if r.autoGroups = [] then (⟨none, r.tokenGroup, none, some "auto groups is not enabled"⟩, s)
    else
      let startGroupIndex := s.ctx.autoGroupIndex.getD 0
      autoSelect r pick false startGroupIndex (r.userAutoGroup.drop startGroupIndex) s
  else
    match pick 0 r.tokenGroup r.modelName s.param.getRetry with
    | .channel id => (⟨some id, r.tokenGroup, some 0, none⟩, s)
    | .noChannel => (⟨none, r.tokenGroup, none, none⟩, s)
    | .error msg => (⟨none, r.tokenGroup, none, some msg⟩, s)

/-! ## What a selection can do -/

/-- The index at which the search starts. -/
def RetryState.start (r : Request) (s : RetryState) : Nat :=
  if r.tokenGroup = "auto" then s.ctx.autoGroupIndex.getD 0 else 0

/-- The rank of the priority that is asked for at an index. -/
def RetryState.rank (r : Request) (s : RetryState) (i : Nat) : Nat :=
  if i = s.start r then s.param.getRetry else 0

/-- A group is given up with this attempt. -/
def GivesUp (r : Request) (rank : Nat) : Prop :=
  r.tokenGroup = "auto" ∧ r.crossGroupRetry = true ∧ (rank : Int) ≥ r.retryTimes

instance (r : Request) (rank : Nat) : Decidable (GivesUp r rank) := inferInstanceAs (Decidable (_ ∧ _))

/-- No channel is found for any group, or a channel of the first group that has one is selected. The state after it
is told by what the next try finds. -/
inductive Selects (r : Request) (pick : Picker) (s : RetryState) : Selection × RetryState → Prop
  | nothing {group err s'}
      (hnone : ∀ i g, s.start r ≤ i → r.groups[i]? = some g → ∀ id, pick i g r.modelName (s.rank r i) ≠ .channel id) :
      Selects r pick s (⟨none, group, none, err⟩, s')
  | found {i g id s'} (hstart : s.start r ≤ i) (hgroup : r.groups[i]? = some g)
      (hskip : ∀ j g', s.start r ≤ j → j < i → r.groups[j]? = some g' →
        ∀ id, pick j g' r.modelName (s.rank r j) ≠ .channel id)
      (hpick : pick i g r.modelName (s.rank r i) = .channel id)
      (hgroup' : r.tokenGroup = "auto" → s'.ctx.autoGroup = some g)
      (hother : r.tokenGroup ≠ "auto" → s'.ctx = s.ctx)
      (hindex : s'.start r = if GivesUp r (s.rank r i) then i + 1 else i)
      (hparam : s'.param.increaseRetry =
        ⟨some (if GivesUp r (s.rank r i) then 0 else s.rank r i + 1), false⟩)
      (hretry : s'.param.getRetry = if GivesUp r (s.rank r i) then 0 else s.rank r i) :
      Selects r pick s (⟨some id, g, some i, none⟩, s')

section
variable {r : Request} {pick : Picker} {s : RetryState}

@[simp] theorem groups_auto (h : r.tokenGroup = "auto") : r.groups = r.userAutoGroup := if_pos h

@[simp] theorem groups_of_ne (h : r.tokenGroup ≠ "auto") : r.groups = [r.tokenGroup] := if_neg h

theorem start_auto (h : r.tokenGroup = "auto") : s.start r = s.ctx.autoGroupIndex.getD 0 := if_pos h

theorem start_of_ne (h : r.tokenGroup ≠ "auto") : s.start r = 0 := if_neg h

theorem getElem?_eq_of_drop {l l' : List String} {g : String} {i : Nat} (h : l.drop i = g :: l') : l[i]? = some g ∧ l.drop (i + 1) = l' := by
  constructor
  · rw [← List.head?_drop, h]
    rfl
  · rw [← List.tail_drop, h]
    rfl

/-- The loop, from an index that it has come to without a channel. -/
theorem autoSelect_selects (hauto : r.tokenGroup = "auto") {l : List String} {moved : Bool} {i : Nat}
    {cur : RetryState} (hl : r.userAutoGroup.drop i = l) (hstart : s.start r ≤ i)
    (hmoved : moved = decide (i ≠ s.start r)) (hretry : cur.param.getRetry = s.rank r i)
    (hreset : cur.param.resetNextTry = false)
    (hskip : ∀ j g, s.start r ≤ j → j < i → r.groups[j]? = some g →
      ∀ id, pick j g r.modelName (s.rank r j) ≠ .channel id) :
    Selects r pick s (autoSelect r pick moved i l cur) := by
  induction l generalizing moved i cur with
  | nil =>
    refine .nothing fun j g hj hg => hskip j g hj ?_ hg
    rw [groups_auto hauto] at hg
    by_contra hle
    rw [List.getElem?_eq_none ((List.drop_eq_nil_iff.1 hl).trans (Nat.le_of_not_lt hle))] at hg
    cases hg
  | cons g rest ih =>
    obtain ⟨hgroup, htail⟩ := getElem?_eq_of_drop hl
    have hrank : (if moved then 0 else cur.param.getRetry) = s.rank r i := by
      rw [hretry, hmoved]
      unfold RetryState.rank
      by_cases hi : i = s.start r
      · simp [hi]
      · simp [hi]
    have hnext : (∀ id, pick i g r.modelName (s.rank r i) ≠ .channel id) →
        Selects r pick s (autoSelect r pick true (i + 1) rest ⟨cur.param.setRetry 0,
          { cur.ctx with autoGroupIndex := some (i + 1), autoGroupRetryIndex := some 0 }⟩) := by
      intro hno
      have hne : i + 1 ≠ s.start r := by omega
      refine ih htail (Nat.le_succ_of_le hstart) (decide_eq_true hne).symm (if_neg hne).symm hreset ?_
      intro j g' hj hlt hg'
      rcases Nat.lt_succ_iff_lt_or_eq.1 hlt with hlt | rfl
      · exact hskip j g' hj hlt hg'
      · rw [groups_auto hauto, hgroup] at hg'
        cases hg'
        exact hno
    rw [autoSelect]
    dsimp only
    rw [hrank]
    cases hpick : pick i g r.modelName (s.rank r i) with
    | noChannel => exact hnext fun id h => by rw [hpick] at h; cases h
    | error msg => exact hnext fun id h => by rw [hpick] at h; cases h
    | channel id =>
      dsimp only
      have hiff : (r.crossGroupRetry = true ∧ (s.rank r i : Int) ≥ r.retryTimes) ↔ GivesUp r (s.rank r i) :=
        ⟨fun h => ⟨hauto, h⟩, fun h => h.2⟩
      have hg : r.groups[i]? = some g := by rw [groups_auto hauto, hgroup]
      by_cases hup : GivesUp r (s.rank r i)
      · rw [if_pos (hiff.2 hup)]
        refine .found hstart hg hskip hpick (fun _ => rfl) (fun h => absurd hauto h) ?_ ?_ ?_
        · rw [start_auto hauto, if_pos hup]
          rfl
        · rw [if_pos hup]
          exact RetryParam.increaseRetry_reset _
        · rw [if_pos hup]
          rfl
      · rw [if_neg (mt hiff.1 hup)]
        refine .found hstart hg hskip hpick (fun _ => rfl) (fun h => absurd hauto h) ?_ ?_ ?_
        · rw [start_auto hauto, if_neg hup]
          rfl
        · rw [if_neg hup, RetryParam.increaseRetry_of_not hreset, hretry]
        · rw [if_neg hup]
          exact hretry

/-- What `CacheGetRandomSatisfiedChannel` does. -/
theorem selects (hreset : s.param.resetNextTry = false) :
    Selects r pick s (cacheGetRandomSatisfiedChannel r pick s) := by
  unfold cacheGetRandomSatisfiedChannel
  by_cases hauto : r.tokenGroup = "auto"
  · rw [if_pos hauto]
    by_cases hempty : r.autoGroups = []
    · rw [if_pos hempty]
      refine .nothing fun i g _ hg => ?_
      rw [groups_auto hauto, Request.userAutoGroup, hempty] at hg
      cases hg
    · rw [if_neg hempty]
      dsimp only
      rw [← start_auto hauto]
      refine autoSelect_selects hauto rfl (Nat.le_refl _) ?_ ?_ hreset ?_
      · simp
      · exact (if_pos rfl).symm
      · intro j _ hj hlt
        exact absurd hlt (Nat.not_lt.2 hj)
  · rw [if_neg hauto]
    have hstart : s.start r = 0 := start_of_ne hauto
    have hrank : s.rank r 0 = s.param.getRetry := if_pos hstart.symm
    have hgroup : r.groups[0]? = some r.tokenGroup := by rw [groups_of_ne hauto]; rfl
    have hnothing : (∀ id, pick 0 r.tokenGroup r.modelName s.param.getRetry ≠ .channel id) →
        ∀ i g, s.start r ≤ i → r.groups[i]? = some g → ∀ id, pick i g r.modelName (s.rank r i) ≠ .channel id := by
      intro hno i g _ hg
      rw [groups_of_ne hauto] at hg
      cases i with
      | zero =>
        cases hg
        rw [hrank]
        exact hno
      | succ i => cases hg
    have hnot : ¬ GivesUp r (s.rank r 0) := fun h => hauto h.1
    cases hpick : pick 0 r.tokenGroup r.modelName s.param.getRetry with
    | noChannel => exact .nothing (hnothing fun id h => by rw [hpick] at h; cases h)
    | error msg => exact .nothing (hnothing fun id h => by rw [hpick] at h; cases h)
    | channel id =>
      refine .found (Nat.le_of_eq hstart) hgroup (fun j _ _ hlt => absurd hlt (Nat.not_lt_zero j)) ?_
        (fun h => absurd h hauto) (fun _ => rfl) ?_ ?_ ?_
      · rw [hrank]
        exact hpick
      · rw [hstart, if_neg hnot]
      · rw [if_neg hnot, RetryParam.increaseRetry_of_not hreset, hrank]
      · rw [if_neg hnot, hrank]

end

end NewApi.Relay

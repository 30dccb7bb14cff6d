import NewApi.Lib.Window

/-!
# Limits of enterprises

An enterprise limits what it uses in a day, a month, a quarter or in all: the whole of it, one of its
workgroups, or one of its members. A limit holds what has been used in the period that it was last written in,
and is taken to be unused when that period is over. Statements on the limits may fail.
-/

namespace NewApi

namespace Enterprise

open Window

inductive LimitScope
  | enterprise
  | workgroup
  | member
deriving DecidableEq

inductive LimitPeriod
  | daily
  | monthly
  | quarterly
  | total
deriving DecidableEq

/-- `EnterpriseLimit`. The total has one period, from zero on. -/
structure EnterpriseLimit where
  id : Nat
  enterpriseId : Nat
  scopeType : LimitScope
  scopeId : Nat
  period : LimitPeriod
  maxQuota : Int := 0
  enforceHard : Bool := true
  periodStartUnix : Int := 0
  usedQuota : Int := 0
  lastAlertUnix : Int := 0
  lastAlertPct : Int := 0
  total_zero : period = .total → periodStartUnix = 0

/-- `computePeriodStart`, at any time. -/
structure PeriodStarts where
  computePeriodStart : LimitPeriod → Int → Int
  mono : ∀ p t t', t ≤ t' → computePeriodStart p t ≤ computePeriodStart p t'
  total : ∀ t, computePeriodStart .total t = 0

/-- Who is in which enterprise and workgroup, with zero for none. -/
structure Membership where
  enterpriseOf : Nat → Nat
  workGroupOf : Nat → Nat

/-- A statement on the limits. -/
inductive LimitStmt
  | read
  | save (id : Nat)
  | update (id : Nat)
deriving DecidableEq

variable (starts : PeriodStarts) (members : Membership) (fails : LimitStmt → Bool)

/-- `MaybeResetPeriod`: whether the period is over, and the limit. -/
def maybeResetPeriod (now : Int) (l : EnterpriseLimit) : Bool × EnterpriseLimit :=
  if h : l.period = .total then (false, l)
  else
    let newStart := starts.computePeriodStart l.period now
    if newStart > l.periodStartUnix then
      (true, { l with
        periodStartUnix := newStart
        usedQuota := 0
        lastAlertUnix := 0
        lastAlertPct := 0
        total_zero := fun htotal => absurd htotal h })
    else (false, l)

/-- The limit is one of `GetActiveLimitsForUser`. -/
def covers (userId : Nat) (l : EnterpriseLimit) : Bool :=
  if userId = 0 ∨ members.enterpriseOf userId = 0 then false
  else l.enterpriseId == members.enterpriseOf userId &&
    match l.scopeType with
    | .enterprise => l.scopeId == 0
    | .member => l.scopeId == userId
    | .workgroup => l.scopeId == members.workGroupOf userId

/-- A limit whose period is over is saved as it is reset. The error of the save is dropped. -/
def saveReset (now : Int) (l : EnterpriseLimit) : EnterpriseLimit :=
  match maybeResetPeriod starts now l with
  | (true, reset) => if fails (.save l.id) then l else reset
  | (false, _) => l

/-- `used_quota = used_quota + ?`. -/
def EnterpriseLimit.use (delta : Int) (l : EnterpriseLimit) : EnterpriseLimit :=
  { l with usedQuota := l.usedQuota + delta }

/-- The statements on one limit: whether they succeed, and what they leave. -/
def accumulateLimit (now delta : Int) (l : EnterpriseLimit) : Bool × EnterpriseLimit :=
  if fails (.update l.id) then (false, saveReset starts fails now l)
  else (true, (saveReset starts fails now l).use delta)

/-- The loop of `AccumulateLimitsForUser`, over the limits in their order. An error ends it. -/
def accumulateLimits (now delta : Int) (userId : Nat) : List EnterpriseLimit → List EnterpriseLimit
  | [] => []
  | l :: rest =>
    if covers members userId l then
      match accumulateLimit starts fails now delta l with
      | (false, l) => l :: rest
      | (true, l) => l :: accumulateLimits now delta userId rest
    else l :: accumulateLimits now delta userId rest

/-- `AccumulateLimitsForUser`. -/
def accumulateLimitsForUser (now : Int) (userId : Nat) (deltaQuota : Int) (limits : List EnterpriseLimit) :
    List EnterpriseLimit :=
  if userId = 0 ∨ deltaQuota ≤ 0 then limits
  else if fails .read then limits
  else accumulateLimits starts members fails now deltaQuota userId limits

/-- The limit would be exceeded by the quota. -/
def exceeds (now projectedQuota : Int) (l : EnterpriseLimit) : Bool :=
  l.enforceHard ∧ 0 < l.maxQuota ∧ (maybeResetPeriod starts now l).2.usedQuota + projectedQuota > l.maxQuota

/-- `CheckHardLimitsForUser`: the limit that blocks the quota. Where the limits cannot be read, none does. -/
def checkHardLimitsForUser (now : Int) (userId : Nat) (projectedQuota : Int) (limits : List EnterpriseLimit) :
    Option EnterpriseLimit :=
  if fails .read then none
  else limits.find? fun l => covers members userId l ∧ exceeds starts now projectedQuota l

/-! ## Limits as counters -/

/-- A limit as a counter of its period. -/
def EnterpriseLimit.counter (l : EnterpriseLimit) : Counter := ⟨l.periodStartUnix, l.usedQuota⟩

/-- A charge of a user. -/
structure Charge where
  userId : Nat
  time : Int
  quota : Int
deriving DecidableEq

/-- The charges of the users in the scope of a limit. -/
def ledger (charges : List Charge) (l : EnterpriseLimit) : List (Int × Int) :=
  (charges.filter fun c => covers members c.userId l).map fun c => (c.time, c.quota)

/-- The net quota that has been charged to the users in the scope of a limit, in its current period. -/
def netCharged (now : Int) (charges : List Charge) (l : EnterpriseLimit) : Int :=
  net (starts.computePeriodStart l.period) now (ledger members charges l)

/-- The limit counts the charges of the users in its scope. -/
def CountsCharges (now : Int) (charges : List Charge) (l : EnterpriseLimit) : Prop :=
  Counts (starts.computePeriodStart l.period) now (ledger members charges l) l.counter

section
variable {starts members fails} {now now' delta : Int} {userId : Nat} {charges : List Charge}
  {l : EnterpriseLimit} {limits : List EnterpriseLimit}

theorem maybeResetPeriod_counter (starts : PeriodStarts) (now : Int) (l : EnterpriseLimit) :
    (maybeResetPeriod starts now l).2.counter =
      l.counter.current (starts.computePeriodStart l.period) now := by
  unfold maybeResetPeriod Counter.current
  by_cases htotal : l.period = .total
  · have hzero := l.total_zero htotal
    rw [dif_pos htotal]
    refine (if_neg ?_).symm
    rw [htotal, starts.total]
    show ¬ l.periodStartUnix < 0
    omega
  · rw [dif_neg htotal]
    dsimp only
    split
    · rename_i hover
      exact (if_pos hover).symm
    · rename_i hover
      exact (if_neg hover).symm

theorem maybeResetPeriod_over (now : Int) (l : EnterpriseLimit) :
    (maybeResetPeriod starts now l).1 = true ↔
      l.periodStartUnix < starts.computePeriodStart l.period now := by
  unfold maybeResetPeriod
  by_cases htotal : l.period = .total
  · have hzero := l.total_zero htotal
    rw [dif_pos htotal, htotal, starts.total]
    simp only [Bool.false_eq_true, false_iff]
    omega
  · rw [dif_neg htotal]
    dsimp only
    split
    · exact iff_of_true rfl ‹_›
    · rename_i hover
      exact iff_of_false Bool.false_ne_true hover

theorem maybeResetPeriod_of_not_over (h : (maybeResetPeriod starts now l).1 = false) :
    (maybeResetPeriod starts now l).2 = l := by
  unfold maybeResetPeriod at h ⊢
  by_cases htotal : l.period = .total
  · rw [dif_pos htotal]
  · rw [dif_neg htotal] at h ⊢
    dsimp only at h ⊢
    split
    · rename_i hover
      rw [if_pos hover] at h
      cases h
    · rfl

/-! ## What a charge does to the limits -/

/-- Two limits of one rule, with its counter in two states. -/
structure SameRule (l l' : EnterpriseLimit) : Prop where
  enterpriseId : l'.enterpriseId = l.enterpriseId
  scopeType : l'.scopeType = l.scopeType
  scopeId : l'.scopeId = l.scopeId
  period : l'.period = l.period

theorem SameRule.covers {l' : EnterpriseLimit} (h : SameRule l l') (userId : Nat) :
    covers members userId l' = covers members userId l := by
  unfold Enterprise.covers
  rw [h.enterpriseId, h.scopeType, h.scopeId]

theorem SameRule.countsCharges {l' : EnterpriseLimit} (h : SameRule l l') :
    CountsCharges starts members now charges l' ↔
      Counts (starts.computePeriodStart l.period) now (ledger members charges l) l'.counter := by
  have hledger : ledger members charges l' = ledger members charges l := by
    unfold ledger
    simp only [h.covers]
  unfold CountsCharges
  rw [hledger, h.period]

theorem maybeResetPeriod_sameRule (starts : PeriodStarts) (now : Int) (l : EnterpriseLimit) :
    SameRule l (maybeResetPeriod starts now l).2 := by
  unfold maybeResetPeriod
  split
  · exact ⟨rfl, rfl, rfl, rfl⟩
  · dsimp only
    split
    · exact ⟨rfl, rfl, rfl, rfl⟩
    · exact ⟨rfl, rfl, rfl, rfl⟩

theorem ledger_append_of_covers {c : Charge} (h : covers members c.userId l = true) :
    ledger members (charges ++ [c]) l = ledger members charges l ++ [(c.time, c.quota)] := by
  unfold ledger
  rw [List.filter_append, List.map_append, List.filter_singleton, h]
  rfl

theorem ledger_append_of_not_covers {c : Charge} (h : covers members c.userId l = false) :
    ledger members (charges ++ [c]) l = ledger members charges l := by
  unfold ledger
  rw [List.filter_append, List.map_append, List.filter_singleton, h]
  exact List.append_nil _

theorem CountsCharges.elapse (h : CountsCharges starts members now charges l) (hle : now ≤ now') :
    CountsCharges starts members now' charges l :=
  Counts.elapse (starts.mono l.period) h hle

theorem saveReset_cases (starts : PeriodStarts) (fails : LimitStmt → Bool) (now : Int) (l : EnterpriseLimit) :
    ((maybeResetPeriod starts now l).1 = true ∧ fails (.save l.id) = true ∧ saveReset starts fails now l = l) ∨
      (((maybeResetPeriod starts now l).1 = true → fails (.save l.id) = false) ∧
        SameRule l (saveReset starts fails now l) ∧
        (saveReset starts fails now l).counter =
          l.counter.current (starts.computePeriodStart l.period) now) := by
  have hcounter := maybeResetPeriod_counter starts now l
  have hrule := maybeResetPeriod_sameRule starts now l
  have hsame := @maybeResetPeriod_of_not_over starts now l
  unfold saveReset
  cases hreset : maybeResetPeriod starts now l with
  | mk due reset =>
    rw [hreset] at hcounter hrule hsame
    cases due with
    | false =>
      refine .inr ⟨fun h => (by cases h), ⟨rfl, rfl, rfl, rfl⟩, ?_⟩
      rw [← hcounter, hsame rfl]
    | true =>
      cases hsave : fails (.save l.id) with
      | true => exact .inl ⟨rfl, rfl, if_pos rfl⟩
      | false =>
        dsimp only
        rw [if_neg Bool.false_ne_true]
        exact .inr ⟨fun _ => rfl, hrule, hcounter⟩

/-- The statements on a limit that its update needs do not fail. -/
def Updates (starts : PeriodStarts) (fails : LimitStmt → Bool) (now : Int) (l : EnterpriseLimit) : Prop :=
  fails (.update l.id) = false ∧ ((maybeResetPeriod starts now l).1 = true → fails (.save l.id) = false)

theorem use_counter (delta : Int) (l : EnterpriseLimit) :
    (l.use delta).counter = { l.counter with used := l.counter.used + delta } := rfl

theorem SameRule.use {l' : EnterpriseLimit} (h : SameRule l l') (delta : Int) : SameRule l (l'.use delta) :=
  ⟨h.enterpriseId, h.scopeType, h.scopeId, h.period⟩

/-- A limit counts a charge that is added to it just where its statements do not fail, and the loop goes on
where it counts. -/
theorem accumulateLimit_counts (fails : LimitStmt → Bool) {c : Charge} (h : CountsCharges starts members now charges l)
    (hcovers : covers members c.userId l = true) (htime : c.time = now) (hquota : c.quota ≠ 0) :
    (CountsCharges starts members now (charges ++ [c]) (accumulateLimit starts fails now c.quota l).2 ↔
        Updates starts fails now l) ∧
      (Updates starts fails now l → (accumulateLimit starts fails now c.quota l).1 = true) := by
  have hcounts : Counts (starts.computePeriodStart l.period) now (ledger members charges l) l.counter := h
  have hledger : ledger members (charges ++ [c]) l = ledger members charges l ++ [(now, c.quota)] := by
    rw [ledger_append_of_covers hcovers, htime]
  unfold accumulateLimit Updates
  cases hupdate : fails (.update l.id) with
  | true =>
    rw [if_pos rfl]
    refine ⟨iff_of_false (fun hnew => hquota ?_) fun hno => (by cases hno.1), fun hno => (by cases hno.1)⟩
    rcases saveReset_cases starts fails now l with ⟨-, -, hsame⟩ | ⟨-, hrule, hcounter⟩
    · rw [hsame] at hnew
      unfold CountsCharges at hnew
      rw [hledger] at hnew
      exact hcounts.skip_iff.1 hnew
    · have hnew' := hrule.countsCharges.1 hnew
      rw [hledger, hcounter] at hnew'
      exact hcounts.reset.skip_iff.1 hnew'
  | false =>
    rw [if_neg Bool.false_ne_true]
    refine ⟨?_, fun _ => rfl⟩
    rcases saveReset_cases starts fails now l with
      ⟨hover, hfails, hsame⟩ | ⟨hsaves, hrule, hcounter⟩
    · refine iff_of_false (fun hnew => ?_) fun hno => by rw [hno.2 hover] at hfails; cases hfails
      rw [hsame] at hnew
      unfold CountsCharges at hnew
      have hstale := not_counts_stale hcounts ((maybeResetPeriod_over now l).1 hover) hquota
      rw [← hledger] at hstale
      exact hstale hnew
    · refine iff_of_true ((hrule.use c.quota).countsCharges.2 ?_) ⟨rfl, hsaves⟩
      rw [hledger, use_counter, hcounter]
      exact hcounts.charge

/-- All limits count the charges. -/
def AllCount (starts : PeriodStarts) (members : Membership) (now : Int) (charges : List Charge)
    (limits : List EnterpriseLimit) : Prop :=
  ∀ l ∈ limits, CountsCharges starts members now charges l

theorem countsCharges_append_of_not_covers {c : Charge} (hcovers : covers members c.userId l = false) :
    CountsCharges starts members now (charges ++ [c]) l ↔ CountsCharges starts members now charges l := by
  unfold CountsCharges
  rw [ledger_append_of_not_covers hcovers]

theorem AllCount.skip_iff {c : Charge} (h : AllCount starts members now charges limits) (htime : c.time = now) :
    AllCount starts members now (charges ++ [c]) limits ↔
      c.quota = 0 ∨ ∀ l ∈ limits, covers members c.userId l = false := by
  have hone : ∀ l ∈ limits, (CountsCharges starts members now (charges ++ [c]) l ↔
      c.quota = 0 ∨ covers members c.userId l = false) := by
    intro l hl
    cases hcovers : covers members c.userId l with
    | false => exact iff_of_true ((countsCharges_append_of_not_covers hcovers).2 (h l hl)) (.inr rfl)
    | true =>
      unfold CountsCharges
      rw [ledger_append_of_covers hcovers, htime, Counts.skip_iff (h l hl)]
      exact ⟨.inl, fun hzero => hzero.elim id fun hno => (by cases hno)⟩
  constructor
  · intro hnew
    by_cases hzero : c.quota = 0
    · exact .inl hzero
    · exact .inr fun l hl => ((hone l hl).1 (hnew l hl)).resolve_left hzero
  · rintro (hzero | hnone) l hl
    · exact (hone l hl).2 (.inl hzero)
    · exact (hone l hl).2 (.inr (hnone l hl))

theorem AllCount.loop_iff {c : Charge} (h : AllCount starts members now charges limits) (htime : c.time = now)
    (hquota : c.quota ≠ 0) :
    AllCount starts members now (charges ++ [c])
        (accumulateLimits starts members fails now c.quota c.userId limits) ↔
      ∀ l ∈ limits, covers members c.userId l = true → Updates starts fails now l := by
  induction limits with
  | nil => exact iff_of_true (fun l hl => by cases hl) fun l hl => by cases hl
  | cons l rest ih =>
    have ih := ih fun l hl => h l (List.mem_cons_of_mem _ hl)
    have hl := h l List.mem_cons_self
    unfold AllCount at ih ⊢
    unfold accumulateLimits
    rw [List.forall_mem_cons]
    cases hcovers : covers members c.userId l with
    | false =>
      rw [if_neg Bool.false_ne_true, List.forall_mem_cons, ih]
      refine and_congr_left fun _ => iff_of_true ?_ fun hno => by cases hno
      exact (countsCharges_append_of_not_covers hcovers).2 hl
    | true =>
      obtain ⟨hcounts, hgoes⟩ := accumulateLimit_counts fails hl hcovers htime hquota
      rw [if_pos rfl]
      cases hout : accumulateLimit starts fails now c.quota l with
      | mk ok l' =>
        rw [hout] at hcounts hgoes
        cases ok with
        | true =>
          dsimp only
          rw [List.forall_mem_cons, ih]
          exact and_congr (hcounts.trans ⟨fun hu _ => hu, fun hu => hu rfl⟩) Iff.rfl
        | false =>
          dsimp only
          have hno : ¬ Updates starts fails now l := fun hu => by cases hgoes hu
          rw [List.forall_mem_cons]
          exact iff_of_false (fun hnew => hno (hcounts.1 hnew.1)) fun hall => hno (hall.1 rfl)

/-- The statements that a charge of a user needs do not fail. -/
def Accumulates (starts : PeriodStarts) (members : Membership) (fails : LimitStmt → Bool) (now : Int)
    (userId : Nat) (limits : List EnterpriseLimit) : Prop :=
  fails .read = false ∧ ∀ l ∈ limits, covers members userId l = true → Updates starts fails now l

theorem covers_zero (l : EnterpriseLimit) : covers members 0 l = false := if_pos (.inl rfl)

/-- `AccumulateLimitsForUser` counts a charge just where its statements do not fail, or no limit covers the
user. -/
theorem AllCount.accumulate_iff (fails : LimitStmt → Bool) {c : Charge} (h : AllCount starts members now charges limits)
    (htime : c.time = now) (hquota : 0 < c.quota) :
    AllCount starts members now (charges ++ [c])
        (accumulateLimitsForUser starts members fails now c.userId c.quota limits) ↔
      Accumulates starts members fails now c.userId limits ∨ ∀ l ∈ limits, covers members c.userId l = false := by
  unfold accumulateLimitsForUser Accumulates
  by_cases huser : c.userId = 0
  · have hnone : ∀ l ∈ limits, covers members c.userId l = false := by
      intro l _
      rw [huser]
      exact covers_zero l
    rw [if_pos (.inl huser), h.skip_iff htime]
    exact iff_of_true (.inr hnone) (.inr hnone)
  · rw [if_neg (by omega)]
    cases hread : fails .read with
    | true =>
      rw [if_pos rfl, h.skip_iff htime]
      exact or_congr ⟨fun hzero => by omega, fun hno => by cases hno.1⟩ Iff.rfl
    | false =>
      rw [if_neg Bool.false_ne_true, h.loop_iff htime hquota.ne']
      constructor
      · intro hall
        exact .inl ⟨rfl, hall⟩
      · rintro (hall | hnone) l hl hcovers
        · exact hall.2 l hl hcovers
        · rw [hnone l hl] at hcovers
          cases hcovers

/-! ## The check -/

/-- A charge of the quota would keep the limit, where it is a hard one. -/
def Keeps (starts : PeriodStarts) (members : Membership) (now : Int) (charges : List Charge) (quota : Int)
    (l : EnterpriseLimit) : Prop :=
  l.enforceHard = true → 0 < l.maxQuota → netCharged starts members now charges l + quota ≤ l.maxQuota

theorem exceeds_iff {quota : Int} (h : CountsCharges starts members now charges l) :
    exceeds starts now quota l = false ↔ Keeps starts members now charges quota l := by
  have hused : (maybeResetPeriod starts now l).2.usedQuota = netCharged starts members now charges l := by
    rw [netCharged, ← h.used, ← maybeResetPeriod_counter]
    rfl
  unfold exceeds Keeps
  rw [hused, decide_eq_false_iff_not]
  constructor
  · intro hno hhard hmax
    exact Int.not_lt.1 fun hover => hno ⟨hhard, hmax, hover⟩
  · rintro hkeeps ⟨hhard, hmax, hover⟩
    have := hkeeps hhard hmax
    omega

/-- Where all limits count, the check blocks a quota just where it can read them and one of them would not be
kept. -/
theorem check_iff {quota : Int} (h : AllCount starts members now charges limits) :
    checkHardLimitsForUser starts members fails now userId quota limits = none ↔
      fails .read = true ∨
        ∀ l ∈ limits, covers members userId l = true → Keeps starts members now charges quota l := by
  unfold checkHardLimitsForUser
  cases fails .read with
  | true => exact iff_of_true rfl (.inl rfl)
  | false =>
    rw [if_neg Bool.false_ne_true, List.find?_eq_none]
    constructor
    · intro hnone
      refine .inr fun l hl hcovers => (exceeds_iff (h l hl)).1 ?_
      have := hnone l hl
      simpa [hcovers] using this
    · rintro (hno | hkeeps) l hl
      · cases hno
      · rw [decide_eq_true_eq]
        rintro ⟨hcovers, hexceeds⟩
        rw [(exceeds_iff (h l hl)).2 (hkeeps l hl hcovers)] at hexceeds
        cases hexceeds

end

end Enterprise

end NewApi

import NewApi.Enterprise.Limit
import NewApi.Lib.Procs
import NewApi.Lib.Table

/-!
# Limits at the start of a period

`AccumulateLimitsForUser` reads the limits of a user, and then goes through its copies. A copy whose period is over is reset
and saved with all its columns; then the used quota of the row is increased relatively to what is stored. Calls run
concurrently, one statement at a time.

Every limit counts the increments of a period that has started in the run, in exactly the runs where a reset is saved only
over a row with nothing used in the period, and a row is increased only when it has been reset (`countsIncrements_iff`).
-/

namespace NewApi.Enterprise.Rollover

open Run Procs Window

/-- An increment that a limit has been given. -/
structure Increment where
  limitId : Nat
  time : Int
  delta : Int
  deriving DecidableEq

/-- The time, the limits, and the increments so far. -/
structure Shared where
  now : Int
  limits : Table EnterpriseLimit.id
  increments : List Increment := []

structure Call where
  userId : Nat
  deltaQuota : Int
  deriving DecidableEq

/-- Where a call is: the three reads of `GetActiveLimitsForUser`, the head of the loop, the save of a limit that has been
reset, its update, or the end. -/
inductive Proc
  | call (c : Call)
  | workGroup (c : Call)
  | limits (c : Call) (found : Membership)
  | loop (deltaQuota : Int) (limits : List EnterpriseLimit)
  | save (deltaQuota : Int) (l : EnterpriseLimit) (rest : List EnterpriseLimit)
  | update (deltaQuota : Int) (l : EnterpriseLimit) (rest : List EnterpriseLimit)
  | failed
  | done

/-- The time since the statement before, and whether this one fails. -/
structure Env where
  elapsed : Nat := 0
  fails : Bool := false
  deriving DecidableEq

def Shared.elapse (s : Shared) (elapsed : Nat) : Shared := { s with now := s.now + elapsed }

/-- `UpdateEnterpriseLimit`, of a limit that is stored. -/
def Shared.updateEnterpriseLimit (s : Shared) (l : EnterpriseLimit) : Shared :=
  { s with limits := s.limits.modifyWhere (fun row => row.id = l.id) (fun row => { l with id := row.id }) (fun _ => rfl) }

/-- `used_quota = used_quota + ?`. -/
def Shared.increment (s : Shared) (id : Nat) (deltaQuota : Int) : Shared :=
  { s with
    limits := s.limits.modify id (EnterpriseLimit.use deltaQuota) (fun _ => rfl)
    increments := s.increments ++ [⟨id, s.now, deltaQuota⟩] }

section
variable (starts : PeriodStarts) (members : Membership)

/-- The next statement of a call. -/
def statement (s : Shared) (p : Proc) (fails : Bool) : Shared × Proc :=
  match p with
  | .call c =>
    if c.userId = 0 ∨ c.deltaQuota ≤ 0 then (s, .done)
    else if fails ∨ members.enterpriseOf c.userId = 0 then (s, .done)
    else (s, .workGroup c)
  | .workGroup c => (s, .limits c (if fails then { members with workGroupOf := fun _ => 0 } else members))
  | .limits c found =>
    if fails then (s, .failed)
    else (s, .loop c.deltaQuota (s.limits.rows.filter fun l => covers found c.userId l))
  | .loop _ [] => (s, .done)
  | .loop deltaQuota (l :: rest) =>
    match maybeResetPeriod starts s.now l with
    | (true, l) => (s, .save deltaQuota l rest)
    | (false, l) => (s, .update deltaQuota l rest)
  -- the error of the save is dropped
  | .save deltaQuota l rest => (if fails then s else s.updateEnterpriseLimit l, .update deltaQuota l rest)
  | .update deltaQuota l rest => if fails then (s, .failed) else (s.increment l.id deltaQuota, .loop deltaQuota rest)
  | .failed => (s, .failed)
  | .done => (s, .done)

def prog (s : Shared) (p : Proc) (env : Env) : Shared × Proc := statement starts members (s.elapse env.elapsed) p env.fails

def step : Procs Shared Proc → Act Call Env → Procs Shared Proc := Procs.step .call (prog starts members)

/-- What a limit has used in the period of a time. -/
def usedIn (now : Int) (l : EnterpriseLimit) : Int := (maybeResetPeriod starts now l).2.usedQuota

/-- The increments of a limit, with their times. -/
def incrementsOf (increments : List Increment) (id : Nat) : List (Int × Int) :=
  (increments.filter fun i => i.limitId = id).map fun i => (i.time, i.delta)

/-- Each limit whose first row is of an earlier period than the current one has used what it has been given in the current
one. -/
def CountsIncrements (first : Table EnterpriseLimit.id) (s : Shared) : Prop :=
  ∀ l₀ ∈ first, l₀.periodStartUnix < starts.computePeriodStart l₀.period s.now →
    ∃ l ∈ s.limits, l.id = l₀.id ∧
      usedIn starts s.now l = net (starts.computePeriodStart l₀.period) s.now (incrementsOf s.increments l₀.id)

/-- The condition on a statement: the row that a reset is saved over has nothing used in the current period, and a row that is
increased is of the current period. -/
def InPeriod (s : Shared) (p : Proc) (env : Env) : Prop :=
  match p with
  | .save _ l _ => env.fails = false →
      ∀ row ∈ s.limits, row.id = l.id → usedIn starts (s.elapse env.elapsed).now row = 0
  | .update _ l _ => env.fails = false →
      ∀ row ∈ s.limits, row.id = l.id → (maybeResetPeriod starts (s.elapse env.elapsed).now row).1 = false
  | _ => True

end

section
variable {starts : PeriodStarts} {members : Membership} {first : Table EnterpriseLimit.id} {s : Shared} {p : Proc}
  {now now' deltaQuota : Int} {id elapsed : Nat} {l l' l₀ row : EnterpriseLimit} {fails : Bool}

/-! ## What is read of a limit -/

theorem usedIn_over (h : l.periodStartUnix < starts.computePeriodStart l.period now) : usedIn starts now l = 0 := by
  have hcounter := maybeResetPeriod_counter starts now l
  rw [Counter.current, if_pos (show l.counter.since < _ from h)] at hcounter
  exact congrArg Counter.used hcounter

theorem usedIn_not_over (h : ¬ l.periodStartUnix < starts.computePeriodStart l.period now) :
    usedIn starts now l = l.usedQuota := by
  have hcounter := maybeResetPeriod_counter starts now l
  rw [Counter.current, if_neg (show ¬ l.counter.since < _ from h)] at hcounter
  exact congrArg Counter.used hcounter

theorem usedIn_zero (h : l.usedQuota = 0) : usedIn starts now l = 0 := by
  by_cases hover : l.periodStartUnix < starts.computePeriodStart l.period now
  · exact usedIn_over hover
  · rw [usedIn_not_over hover, h]

theorem not_over_iff : (maybeResetPeriod starts now l).1 = false ↔
    ¬ l.periodStartUnix < starts.computePeriodStart l.period now := by
  rw [← maybeResetPeriod_over, Bool.not_eq_true]

theorem maybeResetPeriod_true (h : maybeResetPeriod starts now l = (true, l')) :
    l'.id = l.id ∧ l'.period = l.period ∧ l.periodStartUnix < l'.periodStartUnix ∧
      l'.periodStartUnix = starts.computePeriodStart l.period now ∧ l'.usedQuota = 0 := by
  have hover : l.periodStartUnix < starts.computePeriodStart l.period now :=
    (maybeResetPeriod_over now l).1 (congrArg Prod.fst h)
  unfold maybeResetPeriod at h
  split at h
  · cases h
  · dsimp only at h
    rw [if_pos hover] at h
    cases h
    exact ⟨rfl, rfl, hover, rfl, rfl⟩

theorem incrementsOf_append (l : List Increment) (i : Increment) :
    incrementsOf (l ++ [i]) id = incrementsOf l id ++ if i.limitId = id then [(i.time, i.delta)] else [] := by
  unfold incrementsOf
  rw [List.filter_append, List.map_append, List.filter_singleton]
  by_cases h : i.limitId = id
  · rw [if_pos h, decide_eq_true h]
    rfl
  · rw [if_neg h, decide_eq_false h]
    rfl

/-! ## Copies of limits -/

/-- A later copy of a limit. -/
structure Copy (l₀ l : EnterpriseLimit) : Prop where
  id : l.id = l₀.id
  period : l.period = l₀.period
  since : l₀.periodStartUnix ≤ l.periodStartUnix

/-- A copy that has been reset by the time. -/
structure ResetCopy (starts : PeriodStarts) (now : Int) (l₀ l : EnterpriseLimit) : Prop extends Copy l₀ l where
  later : l₀.periodStartUnix < l.periodStartUnix
  started : l.periodStartUnix ≤ starts.computePeriodStart l₀.period now
  unused : l.usedQuota = 0

/-- The rows are copies of the first ones, of their periods or of later ones that have started. -/
structure Sound (starts : PeriodStarts) (first : Table EnterpriseLimit.id) (s : Shared) : Prop where
  row : ∀ l ∈ s.limits, ∃ l₀ ∈ first, Copy l₀ l ∧
    (l.periodStartUnix ≤ l₀.periodStartUnix ∨ l.periodStartUnix ≤ starts.computePeriodStart l₀.period s.now)
  stored : ∀ l₀ ∈ first, ∃ l ∈ s.limits, l.id = l₀.id
  past : ∀ i ∈ s.increments, i.time ≤ s.now

/-- What a call holds: an increment that is positive, and copies of limits. -/
def ProcSound (starts : PeriodStarts) (first : Table EnterpriseLimit.id) (now : Int) : Proc → Prop
  | .call _ | .failed | .done => True
  | .workGroup c | .limits c _ => 0 < c.deltaQuota
  | .loop deltaQuota limits => 0 < deltaQuota ∧ ∀ l ∈ limits, ∃ l₀ ∈ first, Copy l₀ l
  | .save deltaQuota l rest =>
    0 < deltaQuota ∧ (∃ l₀ ∈ first, ResetCopy starts now l₀ l) ∧ ∀ l ∈ rest, ∃ l₀ ∈ first, Copy l₀ l
  | .update deltaQuota _ rest => 0 < deltaQuota ∧ ∀ l ∈ rest, ∃ l₀ ∈ first, Copy l₀ l

theorem ResetCopy.elapse (h : ResetCopy starts now l₀ l) (hle : now ≤ now') : ResetCopy starts now' l₀ l :=
  { h with started := h.started.trans (starts.mono _ _ _ hle) }

theorem ProcSound.elapse (h : ProcSound starts first now p) (hle : now ≤ now') : ProcSound starts first now' p := by
  cases p with
  | save deltaQuota l rest =>
    obtain ⟨hdelta, ⟨l₀, hl₀, hreset⟩, hrest⟩ := h
    exact ⟨hdelta, ⟨l₀, hl₀, hreset.elapse hle⟩, hrest⟩
  | _ => exact h

theorem now_le_elapse (s : Shared) (elapsed : Nat) : s.now ≤ (s.elapse elapsed).now := by
  show s.now ≤ s.now + (elapsed : Int)
  omega

theorem Sound.elapse (h : Sound starts first s) (elapsed : Nat) : Sound starts first (s.elapse elapsed) := by
  have hle := now_le_elapse s elapsed
  refine ⟨fun l hl => ?_, h.stored, fun i hi => (h.past i hi).trans hle⟩
  obtain ⟨l₀, hl₀, hcopy, hsince⟩ := h.row l hl
  exact ⟨l₀, hl₀, hcopy, hsince.imp id fun hs => hs.trans (starts.mono _ _ _ hle)⟩

/-! ## What the statements keep -/

theorem mem_updateEnterpriseLimit : l ∈ (s.updateEnterpriseLimit l').limits ↔
    ∃ row ∈ s.limits, (if row.id = l'.id then { l' with id := row.id } else row) = l :=
  List.mem_map

theorem mem_increment : l ∈ (s.increment id deltaQuota).limits ↔
    ∃ row ∈ s.limits, (if row.id = id then row.use deltaQuota else row) = l :=
  List.mem_map

theorem Sound.updateEnterpriseLimit (h : Sound starts first s) (hl₀ : l₀ ∈ first) (hreset : ResetCopy starts s.now l₀ l') :
    Sound starts first (s.updateEnterpriseLimit l') := by
  refine ⟨fun l hl => ?_, fun l₁ hl₁ => ?_, h.past⟩
  · obtain ⟨row, hrow, rfl⟩ := mem_updateEnterpriseLimit.1 hl
    split
    · rename_i hid
      exact ⟨l₀, hl₀, ⟨hid.trans hreset.id, hreset.period, hreset.since⟩, .inr hreset.started⟩
    · exact h.row row hrow
  · obtain ⟨row, hrow, hid⟩ := h.stored l₁ hl₁
    refine ⟨_, mem_updateEnterpriseLimit.2 ⟨row, hrow, rfl⟩, ?_⟩
    split
    · exact hid
    · exact hid

theorem Sound.increment (h : Sound starts first s) : Sound starts first (s.increment id deltaQuota) := by
  refine ⟨fun l hl => ?_, fun l₁ hl₁ => ?_, fun i hi => ?_⟩
  · obtain ⟨row, hrow, rfl⟩ := mem_increment.1 hl
    obtain ⟨l₀, hl₀, hcopy, hsince⟩ := h.row row hrow
    split
    · exact ⟨l₀, hl₀, ⟨hcopy.id, hcopy.period, hcopy.since⟩, hsince⟩
    · exact ⟨l₀, hl₀, hcopy, hsince⟩
  · obtain ⟨row, hrow, hid⟩ := h.stored l₁ hl₁
    refine ⟨_, mem_increment.2 ⟨row, hrow, rfl⟩, ?_⟩
    split
    · exact hid
    · exact hid
  · rcases List.mem_append.1 hi with hi | hi
    · exact h.past i hi
    · rw [List.mem_singleton.1 hi]
      exact le_refl s.now

/-- A statement keeps the time, the rows and what its call holds. -/
theorem statement_sound (members : Membership) (fails : Bool) (h : Sound starts first s) (hp : ProcSound starts first s.now p) :
    (statement starts members s p fails).1.now = s.now ∧ Sound starts first (statement starts members s p fails).1 ∧
      ProcSound starts first s.now (statement starts members s p fails).2 := by
  cases p with
  | call c =>
    unfold statement
    dsimp only
    split
    · exact ⟨rfl, h, trivial⟩
    split
    · exact ⟨rfl, h, trivial⟩
    · rename_i hpos _
      refine ⟨rfl, h, ?_⟩
      show 0 < c.deltaQuota
      omega
  | workGroup c => exact ⟨rfl, h, hp⟩
  | limits c found =>
    unfold statement
    dsimp only
    split
    · exact ⟨rfl, h, trivial⟩
    · refine ⟨rfl, h, hp, fun l hl => ?_⟩
      obtain ⟨l₀, hl₀, hcopy, -⟩ := h.row l (List.mem_of_mem_filter hl)
      exact ⟨l₀, hl₀, hcopy⟩
  | loop deltaQuota limits =>
    cases limits with
    | nil => exact ⟨rfl, h, trivial⟩
    | cons l rest =>
      obtain ⟨hdelta, hcopies⟩ := hp
      have hrest := fun l' hl' => hcopies l' (List.mem_cons_of_mem l hl')
      unfold statement
      dsimp only
      split
      · rename_i l' hreset
        obtain ⟨l₀, hl₀, hcopy⟩ := hcopies l List.mem_cons_self
        obtain ⟨hid, hperiod, hlater, hstart, hunused⟩ := maybeResetPeriod_true hreset
        have hsince := hcopy.since
        rw [hcopy.period] at hstart
        exact ⟨rfl, h, hdelta, ⟨l₀, hl₀, ⟨hid.trans hcopy.id, hperiod.trans hcopy.period, by omega⟩, by omega, hstart.le,
          hunused⟩, hrest⟩
      · exact ⟨rfl, h, hdelta, hrest⟩
  | save deltaQuota l rest =>
    obtain ⟨hdelta, ⟨l₀, hl₀, hreset⟩, hrest⟩ := hp
    unfold statement
    dsimp only
    split
    · exact ⟨rfl, h, hdelta, hrest⟩
    · exact ⟨rfl, h.updateEnterpriseLimit hl₀ hreset, hdelta, hrest⟩
  | update deltaQuota l rest =>
    unfold statement
    dsimp only
    split
    · exact ⟨rfl, h, trivial⟩
    · exact ⟨rfl, h.increment, hp⟩
  | failed => exact ⟨rfl, h, trivial⟩
  | done => exact ⟨rfl, h, trivial⟩

/-! ## What the limits count -/

theorem CountsIncrements.used (h : CountsIncrements starts first s) (hl₀ : l₀ ∈ first) (hrow : row ∈ s.limits)
    (hid : row.id = l₀.id) (hlt : l₀.periodStartUnix < starts.computePeriodStart l₀.period s.now) :
    usedIn starts s.now row = net (starts.computePeriodStart l₀.period) s.now (incrementsOf s.increments l₀.id) := by
  obtain ⟨l, hl, hlid, hused⟩ := h l₀ hl₀ hlt
  rw [s.limits.eq_of_key_eq hrow hl (hid.trans hlid.symm)]
  exact hused

theorem countsIncrements_of_forall (h : Sound starts first s)
    (hall : ∀ l₀ ∈ first, ∀ row ∈ s.limits, row.id = l₀.id →
      l₀.periodStartUnix < starts.computePeriodStart l₀.period s.now →
        usedIn starts s.now row = net (starts.computePeriodStart l₀.period) s.now (incrementsOf s.increments l₀.id)) :
    CountsIncrements starts first s := by
  intro l₀ hl₀ hlt
  obtain ⟨row, hrow, hid⟩ := h.stored l₀ hl₀
  exact ⟨row, hrow, hid, hall l₀ hl₀ row hrow hid hlt⟩

theorem Sound.first_of (h : Sound starts first s) (hrow : row ∈ s.limits) (hl₀ : l₀ ∈ first) (hid : row.id = l₀.id) :
    Copy l₀ row ∧
      (row.periodStartUnix ≤ l₀.periodStartUnix ∨ row.periodStartUnix ≤ starts.computePeriodStart l₀.period s.now) := by
  obtain ⟨l₁, hl₁, hcopy, hsince⟩ := h.row row hrow
  rw [← first.eq_of_key_eq hl₁ hl₀ (hcopy.id.symm.trans hid)]
  exact ⟨hcopy, hsince⟩

theorem CountsIncrements.elapse (h : CountsIncrements starts first s) (hsound : Sound starts first s) :
    CountsIncrements starts first (s.elapse elapsed) := by
  refine countsIncrements_of_forall (hsound.elapse elapsed) fun l₀ hl₀ row hrow hid hlt => ?_
  obtain ⟨hcopy, hsince⟩ := hsound.first_of hrow hl₀ hid
  have hpast : ∀ e ∈ incrementsOf s.increments l₀.id, e.1 ≤ s.now := by
    intro e he
    obtain ⟨i, hi, rfl⟩ := List.mem_map.1 he
    exact hsound.past i (List.mem_of_mem_filter hi)
  rcases (starts.mono l₀.period _ _ (now_le_elapse s elapsed)).eq_or_lt with heq | hstart
  · rw [← heq] at hlt
    have hused := h.used hl₀ hrow hid hlt
    unfold usedIn at hused ⊢
    have hcounter (t : Int) : (maybeResetPeriod starts t row).2.usedQuota =
        (row.counter.current (starts.computePeriodStart l₀.period) t).used := by
      rw [← hcopy.period]
      exact congrArg Counter.used (maybeResetPeriod_counter starts t row)
    rw [hcounter] at hused ⊢
    unfold Counter.current net at hused ⊢
    rw [← heq]
    exact hused
  · show _ = net _ _ (incrementsOf s.increments l₀.id)
    rw [net_eq_zero (starts.mono l₀.period) hpast hstart]
    refine usedIn_over ?_
    rw [hcopy.period]
    omega

theorem updateEnterpriseLimit_counts_iff (h : CountsIncrements starts first s) (hsound : Sound starts first s)
    (hl₀ : l₀ ∈ first) (hreset : ResetCopy starts s.now l₀ l') :
    CountsIncrements starts first (s.updateEnterpriseLimit l') ↔
      ∀ row ∈ s.limits, row.id = l'.id → usedIn starts s.now row = 0 := by
  have hsound' := hsound.updateEnterpriseLimit hl₀ hreset
  have hlt : l₀.periodStartUnix < starts.computePeriodStart l₀.period s.now := hreset.later.trans_le hreset.started
  constructor
  · intro h' row hrow hid
    have hmem := mem_updateEnterpriseLimit.2 ⟨row, hrow, if_pos hid⟩
    have hid₀ : row.id = l₀.id := hid.trans hreset.id
    have hnew : usedIn starts s.now { l' with id := row.id } = _ := h'.used hl₀ hmem hid₀ hlt
    rw [h.used hl₀ hrow hid₀ hlt]
    exact hnew.symm.trans (usedIn_zero (l := { l' with id := row.id }) hreset.unused)
  · intro hunused
    refine countsIncrements_of_forall hsound' fun l₁ hl₁ l hl hid hlt₁ => ?_
    obtain ⟨row, hrow, rfl⟩ := mem_updateEnterpriseLimit.1 hl
    split at hid
    · rename_i hrid
      rw [if_pos hrid]
      have hold := h.used hl₁ hrow hid hlt₁
      rw [hunused row hrow hrid] at hold
      exact (usedIn_zero (l := { l' with id := row.id }) hreset.unused).trans hold
    · rename_i hrid
      rw [if_neg hrid]
      exact h.used hl₁ hrow hid hlt₁

theorem usedIn_use (h : ¬ row.periodStartUnix < starts.computePeriodStart row.period now) :
    usedIn starts now (row.use deltaQuota) = usedIn starts now row + deltaQuota := by
  rw [usedIn_not_over h]
  exact usedIn_not_over (l := row.use deltaQuota) h

theorem increment_counts_iff (h : CountsIncrements starts first s) (hsound : Sound starts first s) (hdelta : 0 < deltaQuota) :
    CountsIncrements starts first (s.increment id deltaQuota) ↔
      ∀ row ∈ s.limits, row.id = id → (maybeResetPeriod starts s.now row).1 = false := by
  have hincrements (k : Nat) : incrementsOf (s.increment id deltaQuota).increments k =
      incrementsOf s.increments k ++ if id = k then [(s.now, deltaQuota)] else [] := incrementsOf_append ..
  constructor
  · intro h' row hrow hid
    rw [not_over_iff]
    intro hover
    obtain ⟨l₀, hl₀, hcopy, -⟩ := hsound.row row hrow
    have hlt : l₀.periodStartUnix < starts.computePeriodStart l₀.period s.now := by
      rw [← hcopy.period]
      exact hcopy.since.trans_lt hover
    have hold := h.used hl₀ hrow hcopy.id hlt
    have hnew := h'.used hl₀ (mem_increment.2 ⟨row, hrow, if_pos hid⟩) hcopy.id hlt
    rw [hincrements, if_pos (hid.symm.trans hcopy.id)] at hnew
    have hused : usedIn starts s.now (row.use deltaQuota) = 0 := usedIn_over (l := row.use deltaQuota) hover
    rw [usedIn_over hover] at hold
    have hsum : (0 : Int) = net _ s.now (incrementsOf s.increments l₀.id) + deltaQuota :=
      hused.symm.trans (hnew.trans net_append_now)
    omega
  · intro hcurrent
    refine countsIncrements_of_forall hsound.increment fun l₀ hl₀ l hl hid hlt => ?_
    obtain ⟨row, hrow, rfl⟩ := mem_increment.1 hl
    rw [hincrements]
    split at hid
    · rename_i hrid
      have hold := h.used hl₀ hrow hid hlt
      rw [if_pos hrid, if_pos (hrid.symm.trans hid)]
      refine (usedIn_use (not_over_iff.1 (hcurrent row hrow hrid))).trans ?_
      rw [hold]
      exact net_append_now.symm
    · rename_i hrid
      rw [if_neg hrid, if_neg fun hk => hrid (hid.trans hk.symm), List.append_nil]
      exact h.used hl₀ hrow hid hlt

/-- A statement keeps the counts just when it meets the condition. -/
theorem prog_counts_iff {env : Env} (h : CountsIncrements starts first s) (hsound : Sound starts first s)
    (hp : ProcSound starts first s.now p) :
    CountsIncrements starts first (prog starts members s p env).1 ↔ InPeriod starts s p env := by
  have hcounts : CountsIncrements starts first (s.elapse env.elapsed) := h.elapse hsound
  have hsound' : Sound starts first (s.elapse env.elapsed) := hsound.elapse env.elapsed
  have hp' : ProcSound starts first (s.elapse env.elapsed).now p := hp.elapse (now_le_elapse s env.elapsed)
  unfold prog InPeriod
  cases p with
  | call c =>
    unfold statement
    dsimp only
    split
    · exact iff_of_true hcounts trivial
    split
    · exact iff_of_true hcounts trivial
    · exact iff_of_true hcounts trivial
  | workGroup c => exact iff_of_true hcounts trivial
  | limits c found =>
    unfold statement
    dsimp only
    split
    · exact iff_of_true hcounts trivial
    · exact iff_of_true hcounts trivial
  | loop deltaQuota limits =>
    cases limits with
    | nil => exact iff_of_true hcounts trivial
    | cons l rest =>
      unfold statement
      dsimp only
      split
      · exact iff_of_true hcounts trivial
      · exact iff_of_true hcounts trivial
  | save deltaQuota l rest =>
    obtain ⟨-, ⟨l₀, hl₀, hreset⟩, -⟩ := hp'
    unfold statement
    dsimp only
    cases env.fails with
    | true => exact iff_of_true hcounts fun hok => by cases hok
    | false =>
      rw [if_neg Bool.false_ne_true, updateEnterpriseLimit_counts_iff hcounts hsound' hl₀ hreset]
      exact ⟨fun hall _ => hall, fun hall => hall rfl⟩
  | update deltaQuota l rest =>
    unfold statement
    dsimp only
    cases env.fails with
    | true => exact iff_of_true hcounts fun hok => by cases hok
    | false =>
      rw [if_neg Bool.false_ne_true, increment_counts_iff hcounts hsound' hp'.1]
      exact ⟨fun hall _ => hall, fun hall => hall rfl⟩
  | failed => exact iff_of_true hcounts trivial
  | done => exact iff_of_true hcounts trivial

/-! ## Runs -/

theorem step_sound {S : Procs Shared Proc} (a : Act Call Env)
    (h : Sound starts first S.shared ∧ ∀ p ∈ S.procs, ProcSound starts first S.shared.now p) :
    Sound starts first (step starts members S a).shared ∧
      ∀ p ∈ (step starts members S a).procs, ProcSound starts first (step starts members S a).shared.now p := by
  obtain ⟨hsound, hprocs⟩ := h
  cases a with
  | spawn c =>
    refine ⟨hsound, fun p hp => ?_⟩
    rcases List.mem_append.1 hp with hp | hp
    · exact hprocs p hp
    · rw [List.mem_singleton.1 hp]
      trivial
  | sched k env =>
    unfold step
    cases hk : S.procs[k]? with
    | none =>
      rw [step_sched_none hk]
      exact ⟨hsound, hprocs⟩
    | some p =>
      rw [step_sched_some hk]
      have hle := now_le_elapse S.shared env.elapsed
      obtain ⟨hnow, hsound', hp'⟩ := statement_sound members env.fails
        (hsound.elapse env.elapsed) ((hprocs p (List.mem_of_getElem? hk)).elapse hle)
      refine ⟨hsound', fun q hq => ?_⟩
      show ProcSound starts first (statement starts members (S.shared.elapse env.elapsed) p env.fails).1.now q
      rw [hnow]
      rcases List.mem_or_eq_of_mem_set hq with hq | rfl
      · exact (hprocs q hq).elapse hle
      · exact hp'

theorem countsIncrements_first : CountsIncrements starts first ⟨now, first, []⟩ :=
  fun l₀ hl₀ hlt => ⟨l₀, hl₀, rfl, usedIn_over hlt⟩

theorem sound_first : Sound starts first ⟨now, first, []⟩ :=
  ⟨fun l hl => ⟨l, hl, ⟨rfl, rfl, le_rfl⟩, .inl le_rfl⟩, fun l hl => ⟨l, hl, rfl⟩, fun i hi => by cases hi⟩

/-- No increment is lost in exactly the runs where a reset is saved only over a row with nothing used in the current period, and
a row is increased only when it is of the current period. -/
theorem countsIncrements_iff (starts : PeriodStarts) (members : Membership) (first : Table EnterpriseLimit.id) (now : Int)
    (acts : List (Act Call Env)) :
    Holds (step starts members) (fun S => CountsIncrements starts first S.shared) ⟨⟨now, first, []⟩, []⟩ acts ↔
      Meets (step starts members) (Each (InPeriod starts)) ⟨⟨now, first, []⟩, []⟩ acts := by
  refine holds_iff_meets (I := fun S => Sound starts first S.shared ∧ ∀ p ∈ S.procs, ProcSound starts first S.shared.now p)
    (fun S a => step_sound a) (fun S a hS h => ?_) ⟨sound_first, fun p hp => by cases hp⟩ countsIncrements_first
  obtain ⟨hsound, hprocs⟩ := hS
  cases a with
  | spawn c => exact iff_of_true h trivial
  | sched k env =>
    unfold step
    cases hk : S.procs[k]? with
    | none =>
      rw [step_sched_none hk]
      exact iff_of_true h (each_of_none hk)
    | some p =>
      rw [step_sched_some hk, each_iff hk]
      exact prog_counts_iff h hsound (hprocs p (List.mem_of_getElem? hk))

end

/-! ## A reset that is saved over another call's increment -/

/-- Days from the epoch on. -/
def days : PeriodStarts where
  computePeriodStart p t := if p = .total then 0 else t / 86400 * 86400
  mono := by
    intro p t t' hle
    split
    · exact le_rfl
    · omega
  total _ := rfl

/-- The limit of an enterprise, of the day before. -/
def yesterday : EnterpriseLimit :=
  { id := 1, enterpriseId := 1, scopeType := .enterprise, scopeId := 0, period := .daily, usedQuota := 700
    total_zero := fun h => by cases h }

/-- Two calls read the limit; the second saves its reset when the first has finished. -/
def overwriting : List (Act Call Env) :=
  [.spawn ⟨1, 100⟩, .spawn ⟨2, 10⟩] ++
    (List.replicate 4 (.sched 0 {}) ++ List.replicate 4 (.sched 1 {})) ++
    (List.replicate 3 (.sched 0 {}) ++ List.replicate 3 (.sched 1 {}))

/-- The increment of the first call is lost, and nothing has failed. -/
theorem not_countsIncrements_overwriting :
    ∃ S, S = run (step days ⟨fun _ => 1, fun _ => 0⟩) ⟨⟨86400, ⟨[yesterday], List.nodup_singleton _⟩, []⟩, []⟩ overwriting ∧
      (∀ p ∈ S.procs, p = .done) ∧ ¬ CountsIncrements days ⟨[yesterday], List.nodup_singleton _⟩ S.shared := by
  refine ⟨_, rfl, ?_, fun h => ?_⟩
  · show ∀ p ∈ [Proc.done, Proc.done], p = .done
    simp
  · obtain ⟨l, hl, -, hused⟩ := h yesterday List.mem_cons_self (by decide)
    cases List.mem_singleton.1 hl
    revert hused
    decide

end NewApi.Enterprise.Rollover

import NewApi.Lib.Procs
import NewApi.Lib.Sum
import NewApi.Model.User

/-!
# Redeeming a code, one statement at a time

`Redeem` is a transaction: it reads the code, checks that it is enabled, adds its quota to the user, saves the code as
used, and commits. The reader asks for a lock with `gorm:query_option`, which the second version of gorm does not know, so
the code is read without one. What a transaction writes is locked for others, and seen by them, when it has committed.

Two transactions may read an enabled code before one of them commits. A code is redeemed at most once in exactly the runs
where each call that commits finds it still enabled, and its user exists (`redeemed_once_iff`).
-/

namespace NewApi.Redeem

open Run Procs

/-- `RedemptionCodeStatusEnabled` and the others. -/
inductive Status
  | enabled
  | disabled
  | used
deriving DecidableEq

/-- `Redemption`: the columns that `Redeem` reads and writes. -/
structure Redemption where
  id : Nat
  status : Status := .enabled
  quota : Int
  expiredTime : Int := 0
  redeemedTime : Int := 0
  usedUserId : Nat := 0
deriving DecidableEq

/-- What `Redeem` returns when it fails. -/
inductive RedeemError
  | noKey
  | invalidUserId
  | redeemFailed
deriving DecidableEq

/-- The row of the code, if there is one, the users, and the rows that a transaction has written and not committed. -/
structure Shared where
  redemption : Option Redemption
  users : Users
  redemptionLocked : Bool := false
  userLocked : Nat → Bool := fun _ => false

/-- A call of a user: before it has read the code, before each of its two updates and the commit, and at its end. -/
inductive Proc
  | call (userId : Nat)
  | updateUser (userId : Nat) (redemption : Redemption)
  | save (userId : Nat) (redemption : Redemption)
  | commit (userId : Nat) (redemption : Redemption)
  | failed (e : RedeemError)
  | done (quota : Int)
deriving DecidableEq

/-- What a statement meets: whether it fails, and the time. -/
structure Io where
  fails : Bool := false
  now : Int := 0
deriving DecidableEq

/-- A transaction ends: its user's row is free. -/
def Shared.unlockUser (s : Shared) (userId : Nat) : Shared :=
  { s with userLocked := Function.update s.userLocked userId false }

/-- The next statement of `Redeem(key, userId)`. An update of a row that another transaction has written waits. -/
def prog (key : String) (s : Shared) (p : Proc) (io : Io) : Shared × Proc :=
  match p with
  | .call userId =>
    if key = "" then (s, .failed .noKey)
    else if userId = 0 then (s, .failed .invalidUserId)
    else if io.fails then (s, .failed .redeemFailed)
    else
      match s.redemption with
      | none => (s, .failed .redeemFailed)
      | some redemption =>
        if redemption.status ≠ .enabled then (s, .failed .redeemFailed)
        else if redemption.expiredTime ≠ 0 ∧ redemption.expiredTime < io.now then (s, .failed .redeemFailed)
        else (s, .updateUser userId redemption)
  -- UPDATE users SET quota = quota + ? WHERE id = ?
  | .updateUser userId redemption =>
    if io.fails then (s, .failed .redeemFailed)
    else if s.userLocked userId then (s, p)
    else
      ({ s with userLocked := Function.update s.userLocked userId (s.users.get? userId).isSome },
        .save userId redemption)
  -- tx.Save(redemption)
  | .save userId redemption =>
    if io.fails then (s.unlockUser userId, .failed .redeemFailed)
    else if s.redemptionLocked then (s, p)
    else
      ({ s with redemptionLocked := true },
        .commit userId { redemption with redeemedTime := io.now, status := .used, usedUserId := userId })
  | .commit userId redemption =>
    let s := { s.unlockUser userId with redemptionLocked := false }
    if io.fails then (s, .failed .redeemFailed)
    else
      ({ s with redemption := some redemption, users := s.users.addQuota userId redemption.quota },
        .done redemption.quota)
  | .failed _ => (s, p)
  | .done _ => (s, p)

def step (key : String) : Procs Shared Proc → Act Nat Io → Procs Shared Proc := Procs.step .call (prog key)

/-- Nobody has called. -/
def start (redemption : Option Redemption) (users : Users) : Procs Shared Proc := ⟨{ redemption, users }, []⟩

/-! ## Redeemed once -/

/-- The quota of all users. -/
def total (users : Users) : Int := users.sumWhere (fun _ => True) User.quota

def Proc.isDone : Proc → Bool
  | .done _ => true
  | _ => false

/-- The calls that have succeeded. -/
def succeeded (S : Procs Shared Proc) : Nat := S.procs.countP Proc.isDone

/-- The quota of a code. -/
def quotaOf (redemption : Option Redemption) : Int := (redemption.map (·.quota)).getD 0

/-- At most one call has succeeded, and the users have the code's quota more if one has. -/
def RedeemedOnce (redemption : Option Redemption) (users : Users) (S : Procs Shared Proc) : Prop :=
  succeeded S ≤ 1 ∧ total S.shared.users = total users + if succeeded S = 0 then 0 else quotaOf redemption

def Enabled (redemption : Option Redemption) : Prop := ∃ r ∈ redemption, r.status = .enabled

/-- The condition on a statement: a call that commits finds the code enabled, and its user. -/
def CommitsEnabled (s : Shared) (p : Proc) (io : Io) : Prop :=
  match p with
  | .commit userId redemption =>
    io.fails = false → Enabled s.redemption ∧ (redemption.quota = 0 ∨ (s.users.get? userId).isSome)
  | _ => True

/-! ## What the calls keep -/

/-- A call that has read the code has read an enabled one, with its quota, and saves it as used. -/
def Local (redemption : Option Redemption) : Proc → Prop
  | .updateUser _ r | .save _ r => Enabled redemption ∧ r.quota = quotaOf redemption
  | .commit _ r => Enabled redemption ∧ r.quota = quotaOf redemption ∧ r.status = .used
  | _ => True

/-- What every statement keeps: the code's quota stays, and it is enabled until a call has succeeded. -/
structure Inv (redemption : Option Redemption) (S : Procs Shared Proc) : Prop where
  each : ∀ p ∈ S.procs, Local redemption p
  quota : S.shared.redemption.map (·.quota) = redemption.map (·.quota)
  enabled : Enabled S.shared.redemption ↔ Enabled redemption ∧ succeeded S = 0

section
variable {key : String} {redemption : Option Redemption} {users : Users} {S : Procs Shared Proc} {s : Shared} {p : Proc}
  {io : Io}

theorem total_addQuota (userId : Nat) (quota : Int) :
    total (users.addQuota userId quota) = total users + if (users.get? userId).isSome then quota else 0 := by
  unfold total Users.addQuota
  cases hget : users.get? userId with
  | none =>
    refine Eq.trans ?_ (add_zero _).symm
    exact Table.sumWhere_modify_of_eq (fun _ _ _ => Iff.rfl) fun u hu hid => absurd hid (Table.get?_eq_none.1 hget u hu)
  | some u =>
    rw [Table.sumWhere_modify hget, if_pos trivial, if_pos trivial, Option.isSome_some, if_pos rfl]
    dsimp only
    omega

/-- A statement commits, or leaves the code and the users as they are. -/
theorem prog_cases (key : String) (s : Shared) (p : Proc) (io : Io) :
    (∃ userId r, p = .commit userId r ∧ io.fails = false ∧ (prog key s p io).1.redemption = some r ∧
      (prog key s p io).1.users = s.users.addQuota userId r.quota ∧ (prog key s p io).2 = .done r.quota) ∨
    ((prog key s p io).1.redemption = s.redemption ∧ (prog key s p io).1.users = s.users ∧
      (prog key s p io).2.isDone = p.isDone ∧ CommitsEnabled s p io) := by
  cases p with
  | call userId =>
    right
    unfold prog
    dsimp only
    split
    · exact ⟨rfl, rfl, rfl, trivial⟩
    split
    · exact ⟨rfl, rfl, rfl, trivial⟩
    split
    · exact ⟨rfl, rfl, rfl, trivial⟩
    split
    · exact ⟨rfl, rfl, rfl, trivial⟩
    split
    · exact ⟨rfl, rfl, rfl, trivial⟩
    split
    · exact ⟨rfl, rfl, rfl, trivial⟩
    · exact ⟨rfl, rfl, rfl, trivial⟩
  | updateUser userId r | save userId r =>
    right
    unfold prog
    dsimp only
    split
    · exact ⟨rfl, rfl, rfl, trivial⟩
    split
    · exact ⟨rfl, rfl, rfl, trivial⟩
    · exact ⟨rfl, rfl, rfl, trivial⟩
  | commit userId r =>
    cases hfails : io.fails with
    | true =>
      right
      unfold prog
      dsimp only
      rw [if_pos hfails]
      exact ⟨rfl, rfl, rfl, fun h => Bool.noConfusion (hfails.symm.trans h)⟩
    | false =>
      left
      refine ⟨userId, r, rfl, rfl, ?_⟩
      unfold prog
      dsimp only
      rw [if_neg (by rw [hfails]; exact Bool.false_ne_true)]
      exact ⟨rfl, rfl, rfl⟩
  | failed e | done quota => exact .inr ⟨rfl, rfl, rfl, trivial⟩

/-- A call reads an enabled code, and keeps what it has read. -/
theorem local_prog (hquota : s.redemption.map (·.quota) = redemption.map (·.quota))
    (henabled : Enabled s.redemption → Enabled redemption) (h : Local redemption p) :
    Local redemption (prog key s p io).2 := by
  cases p with
  | call userId =>
    unfold prog
    dsimp only
    split
    · trivial
    split
    · trivial
    split
    · trivial
    split
    · trivial
    next r hr =>
      split
      · trivial
      next hstatus =>
        split
        · trivial
        · refine ⟨henabled ⟨r, hr, not_not.1 hstatus⟩, ?_⟩
          unfold quotaOf
          rw [← hquota, hr]
          rfl
  | updateUser userId r =>
    unfold prog
    dsimp only
    split
    · trivial
    split
    · exact h
    · exact h
  | save userId r =>
    unfold prog
    dsimp only
    split
    · trivial
    split
    · exact h
    · exact ⟨h.1, h.2, rfl⟩
  | commit userId r =>
    unfold prog
    dsimp only
    split
    · trivial
    · trivial
  | failed e | done quota => exact h

theorem inv_start : Inv redemption (start redemption users) :=
  ⟨fun _ hp => (by cases hp), rfl, (and_iff_left rfl).symm⟩

theorem succeeded_spawn (userId : Nat) : succeeded (step key S (.spawn userId)) = succeeded S :=
  countP_spawn Proc.isDone

theorem Inv.spawn (h : Inv redemption S) (userId : Nat) : Inv redemption (step key S (.spawn userId)) := by
  refine ⟨fun p hp => ?_, h.quota, ?_⟩
  · rcases List.mem_append.1 hp with hp | hp
    · exact h.each p hp
    · rw [List.mem_singleton.1 hp]
      trivial
  · rw [succeeded_spawn]
    exact h.enabled

theorem not_enabled_of_used {r : Redemption} (h : r.status = .used) : ¬ Enabled (some r) := by
  rintro ⟨r', hr', hstatus⟩
  obtain rfl := Option.some.inj hr'
  exact absurd (h.symm.trans hstatus) nofun

theorem Inv.sched (h : Inv redemption S) (k : Nat) (io : Io) : Inv redemption (step key S (.sched k io)) := by
  cases hk : S.procs[k]? with
  | none =>
    unfold step
    rw [step_sched_none hk]
    exact h
  | some p =>
    have hp := h.each p (List.mem_of_getElem? hk)
    have hcount : succeeded (step key S (.sched k io)) + p.isDone.toNat =
        succeeded S + (prog key S.shared p io).2.isDone.toNat := countP_sched Proc.isDone hk
    have hshared : (step key S (.sched k io)).shared = (prog key S.shared p io).1 :=
      congrArg Procs.shared (step_sched_some hk)
    have heach : ∀ q ∈ (step key S (.sched k io)).procs, Local redemption q := by
      intro q hq
      unfold step at hq
      rw [step_sched_some hk] at hq
      rcases List.mem_or_eq_of_mem_set hq with hq | rfl
      · exact h.each q hq
      · exact local_prog h.quota (fun he => (h.enabled.1 he).1) hp
    rcases prog_cases key S.shared p io with ⟨userId, r, rfl, -, hr, -, hdone⟩ | ⟨hr, -, hdone, -⟩
    · obtain ⟨henabled, hquota, hused⟩ := hp
      rw [hdone] at hcount
      refine ⟨heach, ?_, ?_⟩
      · obtain ⟨r', rfl, -⟩ := henabled
        rw [hshared, hr]
        exact congrArg some hquota
      · rw [hshared, hr]
        refine iff_of_false (not_enabled_of_used hused) fun hand => ?_
        rw [hand.2] at hcount
        exact absurd hcount.symm (Nat.succ_ne_zero _)
    · rw [hdone] at hcount
      refine ⟨heach, ?_, ?_⟩
      · rw [hshared, hr]
        exact h.quota
      · rw [hshared, hr, Nat.add_right_cancel hcount]
        exact h.enabled

theorem redeemedOnce_commit {S' : Procs Shared Proc} {userId : Nat} {r : Redemption} (h : Inv redemption S)
    (hr : Local redemption (.commit userId r)) (hS : RedeemedOnce redemption users S)
    (hcount : succeeded S' = succeeded S + 1)
    (husers : S'.shared.users = S.shared.users.addQuota userId r.quota) :
    RedeemedOnce redemption users S' ↔
      Enabled S.shared.redemption ∧ (r.quota = 0 ∨ (S.shared.users.get? userId).isSome) := by
  obtain ⟨henabled, hquota, -⟩ := hr
  unfold RedeemedOnce
  rw [hcount, husers, total_addQuota, hS.2, h.enabled, ← hquota, if_neg (Nat.succ_ne_zero _), and_iff_right henabled]
  refine and_congr_left' (by omega) |>.trans (and_congr_right fun hzero => ?_)
  rw [if_pos hzero, add_zero, add_right_inj]
  split
  next hsome => exact iff_of_true rfl (.inr hsome)
  next hnone => exact ⟨fun h0 => .inl h0.symm, fun h0 => (h0.resolve_right hnone).symm⟩

theorem redeemedOnce_sched (h : Inv redemption S) (hS : RedeemedOnce redemption users S) (k : Nat) (io : Io) :
    RedeemedOnce redemption users (step key S (.sched k io)) ↔ Each (ι := Nat) CommitsEnabled S (.sched k io) := by
  cases hk : S.procs[k]? with
  | none =>
    unfold step
    rw [step_sched_none hk]
    exact iff_of_true hS (each_of_none hk)
  | some p =>
    have hcount : succeeded (step key S (.sched k io)) + p.isDone.toNat =
        succeeded S + (prog key S.shared p io).2.isDone.toNat := countP_sched Proc.isDone hk
    have hshared : (step key S (.sched k io)).shared = (prog key S.shared p io).1 :=
      congrArg Procs.shared (step_sched_some hk)
    rw [each_iff hk]
    rcases prog_cases key S.shared p io with ⟨userId, r, rfl, hfails, -, husers, hdone⟩ | ⟨-, husers, hdone, hcommits⟩
    · rw [hdone] at hcount
      refine (redeemedOnce_commit h (h.each _ (List.mem_of_getElem? hk)) hS hcount ?_).trans ?_
      · rw [hshared]
        exact husers
      · exact ⟨fun hc _ => hc, fun hc => hc hfails⟩
    · rw [hdone] at hcount
      refine iff_of_true ?_ hcommits
      unfold RedeemedOnce
      rw [hshared, husers, Nat.add_right_cancel hcount]
      exact hS

/-- A code is redeemed at most once just where each call that commits finds it enabled, and its user. -/
theorem redeemed_once_iff (key : String) (redemption : Option Redemption) (users : Users) (acts : List (Act Nat Io)) :
    Run.Holds (step key) (RedeemedOnce redemption users) (start redemption users) acts ↔
      Run.Meets (step key) (Each CommitsEnabled) (start redemption users) acts := by
  refine Run.holds_iff_meets (I := Inv redemption) (fun S a h => ?_) (fun S a h hS => ?_) inv_start ?_
  · cases a with
    | spawn userId => exact h.spawn userId
    | sched k io => exact h.sched k io
  · cases a with
    | spawn userId =>
      refine iff_of_true ?_ trivial
      unfold RedeemedOnce
      rw [succeeded_spawn]
      exact hS
    | sched k io => exact redeemedOnce_sched h hS k io
  · exact ⟨Nat.zero_le 1, (add_zero _).symm⟩

end

/-! ## Both read the code before one commits -/

def twoUsers : Users where
  rows := [{ id := 1, quota := 20 }, { id := 2, quota := 30 }]
  nodup := by simp

/-- An enabled code of 500. -/
def code : Redemption := { id := 1, quota := 500 }

/-- Two users redeem: both read the code, and then each does the rest. -/
def overlapping : List (Act Nat Io) :=
  [.spawn 1, .spawn 2, .sched 0 {}, .sched 1 {}, .sched 0 {}, .sched 0 {}, .sched 0 {}, .sched 1 {}, .sched 1 {},
    .sched 1 {}]

/-- Both calls succeed. -/
theorem overlapping_not_redeemed_once :
    ¬ Run.Holds (step "code") (RedeemedOnce (some code) twoUsers) (start (some code) twoUsers) overlapping := by
  intro h
  have htwice : succeeded (Run.run (step "code") (start (some code) twoUsers) overlapping) = 2 := by decide +kernel
  have honce := h.last.1
  rw [htwice] at honce
  exact absurd honce (by decide)

end NewApi.Redeem

import Mathlib.Algebra.Group.Int.Defs
import Mathlib.Algebra.Group.Prod
import Mathlib.Data.Rat.Defs
import NewApi.Lib.Procs

/-!
# Updates of a user row, one statement at a time

`IncreaseUserQuota` and `DecreaseUserQuota` change the quota of a user relatively to what is stored.
`inviteUser` and `TransferAffQuotaToQuota` read the row, change their copy, and save all its columns. The
transfer does so in a transaction and asks for a lock on the row; `forUpdate` says whether the database hears of
it. A row that is locked is not written by others until the transaction has ended.

No update is lost in exactly the runs where each copy that is saved still has the quota and the affiliate quota of
the row (`user_accounted_iff`).
-/

namespace NewApi.UserRow

open Run Procs

/-- The columns of a user that these calls change. -/
structure Row where
  quota : Int
  affCount : Int := 0
  affQuota : Int := 0
  affHistoryQuota : Int := 0
deriving DecidableEq

/-- The settings that the calls read, the conversion of an integer to `float64`, and whether the lock that the
transfer asks for takes effect. -/
structure Config where
  quotaForInviter : Int
  quotaPerUnit : ℚ
  float64 : Int → ℚ := fun n => n
  forUpdate : Bool := false

inductive Call
  | inviteUser
  | transferAffQuotaToQuota (quota : Int)
  | increaseUserQuota (quota : Int)
  | decreaseUserQuota (quota : Int)
deriving DecidableEq

/-- Why a call fails. -/
inductive UserError
  | quotaNegative
  | transferBelowUnit
  | affQuotaInsufficient
  | database
deriving DecidableEq

/-- A call that has not started, one that holds a copy of the row, or one that has ended. One that has succeeded
has changed the quota and the affiliate quota by its delta. -/
inductive Proc
  | call (c : Call)
  | inviteSave (user : Row)
  | transferSave (quota : Int) (user : Row)
  | failed (e : UserError)
  | done (delta : Int × Int)
deriving DecidableEq

/-- The row, and whether a transaction has locked it. -/
structure Shared where
  row : Row
  locked : Bool := false
deriving DecidableEq

variable (cfg : Config)

/-- A relative update of the quota. -/
def addQuota (s : Shared) (p : Proc) (delta : Int) : Shared × Proc :=
  if s.locked then (s, p)
  else ({ s with row := { s.row with quota := s.row.quota + delta } }, .done (delta, 0))

/-- The next statement of a call, and whether it fails. A write that finds the row locked waits. -/
def prog (s : Shared) (p : Proc) (fails : Bool) : Shared × Proc :=
  match p with
  | .call .inviteUser => if fails then (s, .failed .database) else (s, .inviteSave s.row)
  | .inviteSave user =>
    if fails then (s, .failed .database)
    else if s.locked then (s, p)
    else
      ({ s with row :=
          { user with
            affCount := user.affCount + 1
            affQuota := user.affQuota + cfg.quotaForInviter
            affHistoryQuota := user.affHistoryQuota + cfg.quotaForInviter } },
        .done (0, cfg.quotaForInviter))
  | .call (.transferAffQuotaToQuota quota) =>
    if cfg.float64 quota < cfg.quotaPerUnit then (s, .failed .transferBelowUnit)
    else if fails then (s, .failed .database)
    else if s.locked then (s, p)
    else if s.row.affQuota < quota then (s, .failed .affQuotaInsufficient)
    else ({ s with locked := cfg.forUpdate }, .transferSave quota s.row)
  -- the commit makes the saved row visible, and a rollback gives the lock back
  | .transferSave quota user =>
    if fails then ({ s with locked := false }, .failed .database)
    else
      ({ row := { user with affQuota := user.affQuota - quota, quota := user.quota + quota }, locked := false },
        .done (quota, -quota))
  | .call (.increaseUserQuota quota) =>
    if quota < 0 then (s, .failed .quotaNegative)
    else if fails then (s, .failed .database)
    else addQuota s p quota
  | .call (.decreaseUserQuota quota) =>
    if quota < 0 then (s, .failed .quotaNegative)
    else if fails then (s, .failed .database)
    else addQuota s p (-quota)
  | .failed _ => (s, p)
  | .done _ => (s, p)

def step : Procs Shared Proc → Act Call Bool → Procs Shared Proc := Procs.step .call (prog cfg)

/-- The quota and the affiliate quota. -/
def quotas (s : Shared) : Int × Int := (s.row.quota, s.row.affQuota)

/-- What a call that has succeeded has changed them by. -/
def delta : Proc → Int × Int
  | .done delta => delta
  | _ => 0

/-- The copy still has the quotas of the row. -/
def Current (s : Shared) (user : Row) : Prop :=
  user.quota = s.row.quota ∧ user.affQuota = s.row.affQuota

/-- The condition on a statement: a copy that is saved is current. -/
def SavesCurrent (s : Shared) (p : Proc) (fails : Bool) : Prop :=
  match p with
  | .inviteSave user => fails = false → s.locked = false → Current s user
  | .transferSave _ user => fails = false → Current s user
  | _ => True

section
variable {cfg} {s : Shared} {p : Proc} {fails : Bool}

theorem addQuota_balanced {x : Int} (hp : delta p = 0) :
    quotas (addQuota s p x).1 - quotas s = delta (addQuota s p x).2 - delta p := by
  unfold addQuota
  split
  · rw [sub_self, sub_self]
  · rw [hp]
    simp [quotas, delta]

theorem balanced_of_save {user : Row} {x : Int × Int} {s' : Shared} (hp : delta p = 0)
    (hsaved : quotas s' = (user.quota, user.affQuota) + x) :
    quotas s' - quotas s = delta (.done x) - delta p ↔ Current s user := by
  rw [hp, hsaved, sub_zero, sub_eq_iff_eq_add, add_comm _ x]
  show x + _ = x + _ ↔ _
  rw [add_right_inj]
  exact Prod.ext_iff

/-- A statement changes the quotas by what it books just where the copy that it saves is current. -/
theorem prog_balanced_iff :
    quotas (prog cfg s p fails).1 - quotas s = delta (prog cfg s p fails).2 - delta p ↔ SavesCurrent s p fails := by
  unfold prog SavesCurrent
  split
  · split
    · exact balanced_of_same rfl rfl trivial
    · exact balanced_of_same rfl rfl trivial
  next user =>
    cases fails with
    | true => exact balanced_of_same rfl rfl fun h => by cases h
    | false =>
      rw [if_neg Bool.false_ne_true]
      cases hlocked : s.locked with
      | true => exact balanced_of_same rfl rfl fun _ h => by cases h
      | false =>
        rw [if_neg Bool.false_ne_true]
        refine (balanced_of_save rfl ?_).trans ⟨fun h _ _ => h, fun h => h rfl rfl⟩
        simp [quotas]
  next quota =>
    split
    · exact balanced_of_same rfl rfl trivial
    split
    · exact balanced_of_same rfl rfl trivial
    split
    · exact balanced_of_same rfl rfl trivial
    split
    · exact balanced_of_same rfl rfl trivial
    · exact balanced_of_same rfl rfl trivial
  next quota user =>
    cases fails with
    | true => exact balanced_of_same rfl rfl fun h => by cases h
    | false =>
      rw [if_neg Bool.false_ne_true]
      refine (balanced_of_save rfl ?_).trans ⟨fun h _ => h, fun h => h rfl⟩
      simp [quotas, sub_eq_add_neg]
  next quota =>
    split
    · exact balanced_of_same rfl rfl trivial
    split
    · exact balanced_of_same rfl rfl trivial
    · exact iff_of_true (addQuota_balanced rfl) trivial
  next quota =>
    split
    · exact balanced_of_same rfl rfl trivial
    split
    · exact balanced_of_same rfl rfl trivial
    · exact iff_of_true (addQuota_balanced rfl) trivial
  · exact balanced_of_same rfl rfl trivial
  · exact balanced_of_same rfl rfl trivial

/-- No update is lost in exactly the runs where only current copies are saved. -/
theorem user_accounted_iff {row : Row} {acts : List (Act Call Bool)} :
    Holds (step cfg) (BookedFor quotas delta (quotas { row })) ⟨{ row }, []⟩ acts ↔
      Meets (step cfg) (Each SavesCurrent) ⟨{ row }, []⟩ acts :=
  holds_balanced_iff quotas delta (fun _ => rfl) fun _ _ _ => prog_balanced_iff

end

/-- `inviteUser` reads the row, the user spends 100, and the copy is saved. -/
theorem user_not_accounted :
    ¬ Holds (step { quotaForInviter := 5, quotaPerUnit := 500000 })
      (BookedFor quotas delta (quotas { row := { quota := 1000 } })) ⟨{ row := { quota := 1000 } }, []⟩
      [.spawn .inviteUser, .spawn (.decreaseUserQuota 100), .sched 0 false, .sched 1 false, .sched 0 false] := by
  intro h
  have hlast := h.last
  unfold BookedFor at hlast
  exact absurd hlast (by decide +kernel)

end NewApi.UserRow

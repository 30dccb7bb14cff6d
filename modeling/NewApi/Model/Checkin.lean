import Mathlib.Algebra.BigOperators.Group.Multiset.Basic
import Mathlib.Algebra.Order.BigOperators.Group.List
import Mathlib.Algebra.Order.Group.Multiset
import Mathlib.Data.Multiset.OrderedMonoid
import NewApi.Lib.Procs
import NewApi.Model.User

/-!
# Check-ins, one statement at a time

A user who checks in gets a record for the day and a quota. With MySQL and PostgreSQL both are written in a transaction.
With SQLite the record is written first, and deleted again where the quota cannot be added.

Every record was written by one call (`Inv`), so whatever the calls do in between, no day of a user has two records, and
the quota of a user is what the records say (`credited_withTransaction`), with SQLite but for the records whose quota is
not added yet, or could not be added when the record could not be deleted either (`credited_withoutTransaction`).
-/

namespace NewApi.UserCheckin

open Run Procs

structure CheckinSetting where
  enabled : Bool
  minQuota : Int
  maxQuota : Int

/-- `Checkin`, and whether the transaction that has written it has committed. -/
structure Checkin where
  id : ℕ
  userId : ℕ
  checkinDate : String
  quotaAwarded : Int
  committed : Bool
deriving DecidableEq

/-- The columns of the unique index. -/
def Checkin.day (c : Checkin) : ℕ × String := (c.userId, c.checkinDate)

structure Shared where
  checkins : Table Checkin.id := .empty
  users : Users

/-- Why a call fails: check-ins are off, the store fails, the user has checked in today, or one of the two writes fails. -/
inductive CheckinError
  | disabled
  | store
  | checkedIn
  | create
  | credit
deriving DecidableEq

/-- A call before its statements, and at its end. `kept` is a failed call whose record is still there. -/
inductive Proc
  | call (userId : ℕ)
  | create (userId : ℕ)
  | credit (c : Checkin)
  | commit (c : Checkin)
  | delete (c : Checkin)
  | failed (e : CheckinError)
  | kept (c : Checkin)
  | done (c : Checkin)

/-- What a statement meets: whether it fails, the date, and a random number. -/
structure Io where
  fails : Bool := false
  today : String := ""
  rand : ℕ := 0

/-- The quota of a check-in. -/
def CheckinSetting.quotaAwarded (setting : CheckinSetting) (rand : ℕ) : Int :=
  if setting.maxQuota > setting.minQuota then setting.minQuota + rand % (setting.maxQuota - setting.minQuota + 1)
  else setting.minQuota

def Shared.remove (s : Shared) (c : Checkin) : Shared := { s with checkins := s.checkins.filter fun b => b.id ≠ c.id }

/-- The next statement of `UserCheckin`, of `userCheckinWithoutTransaction` with SQLite, else of `userCheckinWithTransaction`. -/
def prog (usingSQLite : Bool) (setting : CheckinSetting) (s : Shared) (p : Proc) (io : Io) : Shared × Proc :=
  match p with
  -- `HasCheckedInToday` sees what has committed.
  | .call userId =>
    if ¬ setting.enabled then (s, .failed .disabled)
    else if io.fails then (s, .failed .store)
    else if ∃ c ∈ s.checkins.rows, c.committed ∧ c.day = (userId, io.today) then (s, .failed .checkedIn)
    else (s, .create userId)
  | .create userId =>
    match s.checkins.rows.find? fun c => c.day = (userId, io.today) with
    -- The index holds an insertion up until the transaction ends that has written the same day.
    | some c => if io.fails ∨ c.committed then (s, .failed .create) else (s, p)
    | none =>
      if io.fails then (s, .failed .create)
      else
        let c : Checkin := ⟨s.checkins.nextKey, userId, io.today, setting.quotaAwarded io.rand, usingSQLite⟩
        ({ s with checkins := s.checkins.insertNew c }, .credit c)
  | .credit c =>
    if usingSQLite then
      -- `IncreaseUserQuota` refuses a negative quota.
      if c.quotaAwarded < 0 ∨ io.fails then (s, .delete c)
      else ({ s with users := s.users.addQuota c.userId c.quotaAwarded }, .done c)
    else if io.fails then (s.remove c, .failed .credit)
    else (s, .commit c)
  -- The quota that the transaction has added is seen from here on.
  | .commit c =>
    if io.fails then (s.remove c, .failed .store)
    else
      ({ checkins := s.checkins.modify c.id (fun c => { c with committed := true }) fun _ => rfl
         users := s.users.addQuota c.userId c.quotaAwarded }, .done { c with committed := true })
  | .delete c => if io.fails then (s, .kept c) else (s.remove c, .failed .credit)
  | .failed _ | .kept _ | .done _ => (s, p)

def step (usingSQLite : Bool) (setting : CheckinSetting) : Procs Shared Proc → Act ℕ Io → Procs Shared Proc :=
  Procs.step .call (prog usingSQLite setting)

/-- Nobody has checked in. -/
def start (users : Users) : Procs Shared Proc := ⟨{ users }, []⟩

/-- What a user was awarded, by the records that have committed. -/
def awarded (userId : ℕ) (s : Shared) : Int :=
  (s.checkins.rows.map fun c => if c.committed ∧ c.userId = userId then c.quotaAwarded else 0).sum

/-- What a call owes a user: its record has committed, and its quota is not added. -/
def Proc.owes (userId : ℕ) : Proc → Int
  | .credit c | .delete c | .kept c => if c.committed ∧ c.userId = userId then c.quotaAwarded else 0
  | _ => 0

/-- No day of a user has two records. -/
def OncePerDay (s : Shared) : Prop := (s.checkins.rows.map Checkin.day).Nodup

/-! ## Whose the records are -/

/-- The record that a call has written. -/
def Proc.record : Proc → Multiset Checkin
  | .credit c | .commit c | .delete c | .kept c | .done c => {c}
  | _ => 0

/-- The quota that a call has added. -/
def Proc.added (userId : ℕ) : Proc → Int
  | .done c => if c.userId = userId then c.quotaAwarded else 0
  | _ => 0

/-- With SQLite each statement is a transaction, else the record has committed at the end. -/
def Proc.Phase (usingSQLite : Bool) : Proc → Prop
  | .credit c => c.committed = usingSQLite
  | .commit c => c.committed = false
  | .delete c | .kept c => usingSQLite ∧ c.committed
  | .done c => c.committed
  | _ => True

structure Inv (usingSQLite : Bool) (users : Users) (S : Procs Shared Proc) : Prop where
  phase : ∀ p ∈ S.procs, p.Phase usingSQLite
  once : OncePerDay S.shared
  records : (S.shared.checkins.rows : Multiset Checkin) = (S.procs.map Proc.record).sum
  quota : ∀ userId, S.shared.users.quotaOf userId =
    (users.quotaOf userId).map (· + (S.procs.map (Proc.added userId)).sum)

section
variable {usingSQLite : Bool} {setting : CheckinSetting} {s s' : Shared} {p p' : Proc} {io : Io} {c : Checkin}

/-- What a statement does to the records, the quotas and its call. -/
structure Accounts (usingSQLite : Bool) (s : Shared) (p : Proc) (s' : Shared) (p' : Proc) : Prop where
  phase : p'.Phase usingSQLite
  once : OncePerDay s'
  records : (s'.checkins.rows : Multiset Checkin) + p.record = s.checkins.rows + p'.record
  quota : ∀ userId, s'.users.quotaOf userId = (s.users.quotaOf userId).map (· + (p'.added userId - p.added userId))

/-- A statement that leaves the store, and the record of its call. -/
theorem Accounts.same (honce : OncePerDay s) (hphase : p'.Phase usingSQLite) (hrecord : p'.record = p.record)
    (hadded : ∀ userId, p'.added userId = p.added userId) : Accounts usingSQLite s p s p' := by
  refine ⟨hphase, honce, by rw [hrecord], fun userId => ?_⟩
  rw [hadded, sub_self]
  cases s.users.quotaOf userId <;> simp

/-- The record of a call is deleted. -/
theorem Accounts.remove {e : CheckinError} (honce : OncePerDay s) (hc : c ∈ s.checkins) (hrecord : p.record = {c})
    (hadded : ∀ userId, p.added userId = 0) : Accounts usingSQLite s p (s.remove c) (.failed e) := by
  obtain ⟨rest, hrows, hfilter, -⟩ := Table.exists_rest hc
  have honce' := ((hrows.map Checkin.day).nodup_iff).1 honce
  refine ⟨trivial, ((hfilter.map Checkin.day).nodup_iff).2 (List.nodup_cons.1 honce').2, ?_, fun userId => ?_⟩
  · show ((s.checkins.filter fun b => b.id ≠ c.id).rows : Multiset Checkin) + _ = _ + 0
    rw [hrecord, Multiset.coe_eq_coe.2 hfilter, Multiset.coe_eq_coe.2 hrows]
    exact Multiset.coe_eq_coe.2 (by simp)
  · rw [hadded]
    show s.users.quotaOf userId = (s.users.quotaOf userId).map (· + (0 - 0))
    cases s.users.quotaOf userId <;> simp

/-- The quota of a record is added. -/
theorem quotaOf_credit (users : Users) (c : Checkin) (userId : ℕ) :
    (users.addQuota c.userId c.quotaAwarded).quotaOf userId =
      (users.quotaOf userId).map (· + ((Proc.done c).added userId - 0)) := by
  rw [Users.quotaOf_addQuota, Proc.added, sub_zero]
  by_cases h : userId = c.userId
  · rw [if_pos h, if_pos h.symm, h]
  · rw [if_neg h, if_neg (Ne.symm h)]
    cases users.quotaOf userId <;> simp

theorem accounts_prog (honce : OncePerDay s) (hphase : p.Phase usingSQLite) (hp : p.record ≤ (s.checkins.rows : Multiset Checkin)) :
    Accounts usingSQLite s p (prog usingSQLite setting s p io).1 (prog usingSQLite setting s p io).2 := by
  cases p with
  | call userId =>
    unfold prog
    dsimp only
    split
    · exact .same honce trivial rfl fun _ => rfl
    split
    · exact .same honce trivial rfl fun _ => rfl
    split
    · exact .same honce trivial rfl fun _ => rfl
    · exact .same honce trivial rfl fun _ => rfl
  | create userId =>
    unfold prog
    dsimp only
    split
    · split
      · exact .same honce trivial rfl fun _ => rfl
      · exact .same honce trivial rfl fun _ => rfl
    next hfree =>
      split
      · exact .same honce trivial rfl fun _ => rfl
      have hrows : ∀ c : Checkin, c.id = s.checkins.nextKey → (s.checkins.insertNew c).rows = s.checkins.rows ++ [c] :=
        fun c hc => Table.rows_insertNew fun b hb => by rw [hc]; exact Table.get?_eq_none.1 Table.get?_nextKey b hb
      refine ⟨rfl, ?_, ?_, fun userId' => ?_⟩
      · unfold OncePerDay
        rw [hrows _ rfl, List.map_append, List.nodup_append]
        refine ⟨honce, List.nodup_singleton _, ?_⟩
        rintro _ hday _ hnew rfl
        obtain ⟨b, hb, hbday⟩ := List.mem_map.1 hday
        rw [List.mem_singleton.1 hnew] at hbday
        exact List.find?_eq_none.1 hfree b hb (decide_eq_true hbday)
      · dsimp only
        rw [hrows _ rfl]
        exact Multiset.coe_eq_coe.2 (by simp)
      · show s.users.quotaOf userId' = (s.users.quotaOf userId').map (· + (0 - 0))
        cases s.users.quotaOf userId' <;> simp
  | credit c =>
    unfold prog
    dsimp only
    have hc : c ∈ s.checkins := Multiset.mem_coe.1 (Multiset.singleton_le.1 hp)
    have hcommitted : c.committed = usingSQLite := hphase
    split
    next hsqlite =>
      split
      · exact .same honce ⟨hsqlite, hcommitted.trans hsqlite⟩ rfl fun _ => rfl
      · exact ⟨hcommitted.trans hsqlite, honce, rfl, quotaOf_credit s.users c⟩
    next hsqlite =>
      split
      · exact .remove honce hc rfl fun _ => rfl
      · exact .same honce (hcommitted.trans (Bool.eq_false_iff.2 hsqlite)) rfl fun _ => rfl
  | commit c =>
    unfold prog
    dsimp only
    have hc : c ∈ s.checkins := Multiset.mem_coe.1 (Multiset.singleton_le.1 hp)
    split
    · exact .remove honce hc rfl fun _ => rfl
    · obtain ⟨rest, hrows, -, hmodify⟩ := Table.exists_rest hc
      have hmodify := hmodify (fun c => { c with committed := true }) fun _ => rfl
      refine ⟨rfl, ?_, ?_, quotaOf_credit s.users _⟩
      · exact ((hmodify.map Checkin.day).nodup_iff).2 (((hrows.map Checkin.day).nodup_iff).1 honce)
      · dsimp only
        rw [Multiset.coe_eq_coe.2 hmodify, Multiset.coe_eq_coe.2 hrows]
        exact Multiset.coe_eq_coe.2 ((List.perm_append_singleton c _).trans ((List.Perm.swap _ c rest).trans
          (List.perm_append_singleton _ (c :: rest)).symm))
  | delete c =>
    unfold prog
    dsimp only
    split
    · exact .same honce hphase rfl fun _ => rfl
    · exact .remove honce (Multiset.mem_coe.1 (Multiset.singleton_le.1 hp)) rfl fun _ => rfl
  | failed | kept | done => exact .same honce hphase rfl fun _ => rfl

theorem Inv.step {users : Users} {S : Procs Shared Proc} (h : Inv usingSQLite users S) (a : Act ℕ Io) :
    Inv usingSQLite users (step usingSQLite setting S a) := by
  cases a with
  | spawn userId =>
    refine ⟨fun p hp => ?_, h.once, ?_, fun u => ?_⟩
    · rcases List.mem_append.1 hp with hp | hp
      · exact h.phase p hp
      · rw [List.mem_singleton.1 hp]
        trivial
    · exact h.records.trans ((sum_spawn Proc.record).trans (add_zero _)).symm
    · rw [UserCheckin.step, sum_spawn (Proc.added u)]
      exact (h.quota u).trans (by rw [show Proc.added u (.call userId) = 0 from rfl, add_zero])
  | sched k io =>
    cases hk : S.procs[k]? with
    | none =>
      rw [UserCheckin.step, step_sched_none hk]
      exact h
    | some p =>
      have hmem := List.mem_of_getElem? hk
      have hp : p.record ≤ (S.shared.checkins.rows : Multiset Checkin) := by
        rw [h.records]
        exact List.le_sum_of_mem (List.mem_map_of_mem hmem)
      have haccounts : Accounts usingSQLite S.shared p (prog usingSQLite setting S.shared p io).1
          (prog usingSQLite setting S.shared p io).2 := accounts_prog h.once (h.phase p hmem) hp
      obtain ⟨hphase, honce, hrecords, hquota⟩ := haccounts
      have hshared : (UserCheckin.step usingSQLite setting S (.sched k io)).shared = (prog usingSQLite setting S.shared p io).1 :=
        congrArg Procs.shared (step_sched_some hk)
      refine ⟨fun q hq => ?_, hshared ▸ honce, ?_, fun u => ?_⟩
      · rw [UserCheckin.step, step_sched_some hk] at hq
        rcases List.mem_or_eq_of_mem_set hq with hq | rfl
        · exact h.phase q hq
        · exact hphase
      · refine add_right_cancel (b := p.record) ?_
        rw [hshared, hrecords, h.records]
        exact (sum_sched Proc.record hk).symm
      · have hsum : ((UserCheckin.step usingSQLite setting S (.sched k io)).procs.map (Proc.added u)).sum =
            (S.procs.map (Proc.added u)).sum + ((prog usingSQLite setting S.shared p io).2.added u - p.added u) := by
          rw [← add_sub_assoc, ← sum_sched (Proc.added u) hk, add_sub_cancel_right]
          rfl
        rw [hshared, hquota, h.quota, Option.map_map, hsum]
        refine congrArg (Option.map · _) (funext fun q => ?_)
        exact add_assoc q _ _

/-- What the records award is what the calls have added, and what they owe. -/
theorem Inv.awarded_eq {users : Users} {S : Procs Shared Proc} (h : Inv usingSQLite users S) (userId : ℕ) :
    awarded userId S.shared = (S.procs.map (Proc.added userId)).sum + (S.procs.map (Proc.owes userId)).sum := by
  let award : Multiset Checkin →+ Int := Multiset.sumAddMonoidHom.comp
    (Multiset.mapAddMonoidHom fun c : Checkin => if c.committed ∧ c.userId = userId then c.quotaAwarded else 0)
  have hcall : ∀ p ∈ S.procs, award p.record = p.added userId + p.owes userId := by
    intro p hp
    have hphase := h.phase p hp
    cases p with
    | credit c | delete c | kept c =>
      exact (Multiset.sum_singleton _).trans (zero_add _).symm
    | commit c =>
      have hc : c.committed = false := hphase
      exact (Multiset.sum_singleton _).trans (if_neg fun hand => by rw [hc] at hand; exact Bool.false_ne_true hand.1)
    | done c =>
      have hc : c.committed = true := hphase
      refine (Multiset.sum_singleton _).trans ((if_congr (and_iff_right hc) rfl rfl).trans (add_zero _).symm)
    | call | create | failed => rfl
  have hrows : awarded userId S.shared = award (S.shared.checkins.rows : Multiset Checkin) := rfl
  rw [hrows, h.records, map_list_sum, List.map_map, List.map_congr_left (g := fun p => p.added userId + p.owes userId) hcall,
    List.sum_map_add]

theorem inv_start (users : Users) : Inv usingSQLite users (start users) where
  phase _ hp := nomatch hp
  once := List.nodup_nil
  records := rfl
  quota userId := by
    show users.quotaOf userId = (users.quotaOf userId).map (· + 0)
    cases users.quotaOf userId <;> simp

theorem inv_run (users : Users) (acts : List (Act ℕ Io)) :
    Holds (UserCheckin.step usingSQLite setting) (Inv usingSQLite users) (start users) acts :=
  (meets_of_forall fun _ _ => trivial : Meets _ (fun _ _ => True) _ _).holds (fun _ a h _ => h.step a) (fun _ h => h)
    (inv_start users)

end

/-! ## Main results -/

/-- With SQLite, whatever fails and in whatever order the statements run, no day of a user has two records, and a user's quota has
grown by what its records award, but for those whose quota a call has not added yet, or never will. -/
theorem credited_withoutTransaction (setting : CheckinSetting) (users : Users) (acts : List (Act ℕ Io)) :
    Holds (step true setting) (fun S => OncePerDay S.shared ∧ ∀ userId, S.shared.users.quotaOf userId =
      (users.quotaOf userId).map (· + (awarded userId S.shared - (S.procs.map (Proc.owes userId)).sum))) (start users) acts := by
  refine (inv_run users acts).imp fun S h => ⟨h.once, fun userId => ?_⟩
  rw [h.awarded_eq, add_sub_cancel_right]
  exact h.quota userId

/-- With a transaction, nothing is owed. -/
theorem credited_withTransaction (setting : CheckinSetting) (users : Users) (acts : List (Act ℕ Io)) :
    Holds (step false setting) (fun S => OncePerDay S.shared ∧ ∀ userId, S.shared.users.quotaOf userId =
      (users.quotaOf userId).map (· + awarded userId S.shared)) (start users) acts := by
  refine (inv_run users acts).imp fun S h => ⟨h.once, fun userId => ?_⟩
  have howes : (S.procs.map (Proc.owes userId)).sum = 0 := by
    refine List.sum_eq_zero fun x hx => ?_
    obtain ⟨p, hp, rfl⟩ := List.mem_map.1 hx
    have hphase := h.phase p hp
    cases p with
    | credit c => exact if_neg fun hand => Bool.false_ne_true ((show c.committed = false from hphase).symm.trans hand.1)
    | delete | kept => exact absurd hphase.1 Bool.false_ne_true
    | _ => rfl
  rw [h.awarded_eq, howes, add_zero]
  exact h.quota userId

end NewApi.UserCheckin

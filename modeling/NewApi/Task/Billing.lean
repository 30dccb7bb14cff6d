import NewApi.Task.Account
import NewApi.Lib.Run
import Mathlib.Algebra.BigOperators.Group.List.Basic
import Mathlib.Algebra.Order.Ring.Int

/-!
# Refunding and settling tasks once

Where every step is guarded (`TaskSystem.Guarded`), each step of the processes moves the account of each task
by one of the moves of `TaskAccount`, or not at all. So in every run of guarded steps a task that fails is
refunded once, a task that succeeds is settled at most once and never refunded, and a terminal status stays.
The bulk updates, the refund before a store and the fetch for a user are what the guards are about.
-/

namespace NewApi

open TaskAccount

/-! ## Accounts -/

/-- What a bill counts as: a refund, a settlement, or a failure that is stored after its refund. -/
inductive BillKind
  | refund
  | settle
  | store

/-- What a bill counts for a task. -/
def Bill.count : BillKind → Nat → Bill → Nat
  | .refund, i, .refund t => if t.id = i then 1 else 0
  | .settle, i, .settle _ t => if t.id = i then 1 else 0
  | .store, i, .save t => if t.id = i ∧ t.status = .failure then 1 else 0
  | _, _, _ => 0

/-- The task that a bill is for. -/
def Bill.task : Bill → Task
  | .refund t | .settle _ t | .save t => t

theorem Bill.count_of_ne {kind : BillKind} {i : Nat} {bill : Bill} (h : bill.task.id ≠ i) :
    bill.count kind i = 0 := by
  cases bill with
  | refund t =>
    cases kind with
    | refund => exact if_neg h
    | settle | store => rfl
  | settle upstreamId t =>
    cases kind with
    | settle => exact if_neg h
    | refund | store => rfl
  | save t =>
    cases kind with
    | store => exact if_neg fun hand => h hand.1
    | refund | settle => rfl

def Process.count (kind : BillKind) (i : Nat) (p : Process) : Nat := (p.bills.map (Bill.count kind i)).sum

/-- The status of a task in the table. -/
def TaskStore.statusOf (i : Nat) (s : TaskStore) : Option TaskStatus := (s.tasks.get? i).map Task.status

/-- The account of a task, where so many bills are under way. -/
def TaskStore.account (count : BillKind → Nat) (i : Nat) (s : TaskStore) : TaskAccount where
  status := s.statusOf i
  refunds := s.refunded.count i + count .refund
  settles := s.settled.count i + count .settle
  stores := count .store
  legacy := s.legacy.count i

namespace TaskSystem

def count (kind : BillKind) (i : Nat) (s : TaskSystem) : Nat := (s.processes.map (Process.count kind i)).sum

def account (i : Nat) (s : TaskSystem) : TaskAccount := s.store.account (s.count · i) i

end TaskSystem

/-! ## Guards -/

/-- A task is open, and no failure of it is to be stored. -/
def TaskStore.Free (stores : Nat → Nat) (s : TaskStore) (i : Nat) : Prop :=
  IsOpen (s.statusOf i) ∧ stores i = 0

instance (stores : Nat → Nat) (s : TaskStore) (i : Nat) : Decidable (s.Free stores i) :=
  inferInstanceAs (Decidable (_ ∧ _))

namespace Process

section
variable (env : Env) (stores : Nat → Nat) (s : TaskStore)

/-- A refund does not fail. What `updateSunoTasks` stores is stored where it is a failure; else it does not
change a terminal status, and does not end a task whose failure is to be stored. -/
def BillGuarded : Bill → Prop
  | .refund _ => ¬ env.fails
  | .settle .. => True
  | .save t =>
    if t.status = .failure then ¬ env.fails
    else env.fails ∨ s.statusOf t.id = some t.status ∨
      IsOpen (s.statusOf t.id) ∧ (t.status = .success → stores t.id = 0)

/-- The sweep does not fail a task whose failure is to be stored. -/
def SweepGuarded (t : Task) : Prop :=
  (s.updateWithStatus env.fails (swept env t) t.status).isSome → stores t.id = 0

/-- The tasks that have no upstream's id are open when they are failed. -/
def PlatformGuarded (tasks : List Task) : Prop :=
  ¬ env.fails → ∀ t ∈ tasks, t.getUpstreamTaskId = "" → s.Free stores t.id

/-- The tasks of a channel that is missing have failed before. -/
def ChannelGuarded (platform : String) (taskIds : List String) (taskM : List (String × Task)) : Prop :=
  platform ≠ "mj" → ¬ env.channelFound → ¬ env.fails →
    ∀ upstreamId ∈ taskIds, ∀ t ∈ taskM.lookup upstreamId, s.statusOf t.id = some .failure

/-- The copy of a video task is not terminal, and is not ended where its failure is to be stored. -/
def VideoGuarded (t : Task) : Prop :=
  ∀ v ∈ env.video, (videoTask env v.1 v.2 t).2 → ¬ t.status.Terminal ∧
    ((s.updateWithStatus env.fails (videoTask env v.1 v.2 t).1 t.status).isSome →
      (videoTask env v.1 v.2 t).1.status.Terminal → stores t.id = 0)

/-- A Suno task is refunded only where it fails, and is open. -/
def SunoGuarded (item : SunoDataResponse) (t : Task) : Prop :=
  taskNeedsUpdate t item → SunoRefunds item t →
    (sunoTask item t).status = .failure ∧ s.Free stores t.id

/-- A user's fetch does not fail a task, changes no terminal status, and does not end a task whose failure is to
be stored. -/
def RealtimeGuarded (t : Task) : Prop :=
  ∀ r ∈ env.realtime, (s.updateWithStatus env.fails (realtimeTask env r t) t.status).isSome →
    (realtimeTask env r t).status = t.status ∨
      ¬ t.status.Terminal ∧ (realtimeTask env r t).status ≠ .failure ∧
        ((realtimeTask env r t).status = .success → stores t.id = 0)

/-- A process may take its next step. -/
def Guarded (p : Process) : Prop :=
  match p.bills, p.work with
  | bill :: _, _ => BillGuarded env stores s bill
  | [], .sweep (t :: _) :: _ => SweepGuarded env stores s t
  | [], .platforms platformTask :: _ =>
    ∀ tasks ∈ platformTask.lookup env.platform, PlatformGuarded env stores s tasks
  | [], .channels platform taskChannelM :: _ =>
    ∀ taskIds ∈ taskChannelM.lookup env.channelId, ChannelGuarded env s platform taskIds p.taskM
  | [], .video (upstreamId :: _) :: _ => ∀ t ∈ p.taskM.lookup upstreamId, VideoGuarded env stores s t
  | [], .suno (item :: _) :: _ => ∀ t ∈ p.taskM.lookup item.taskId, SunoGuarded stores s item t
  | [], .realtimeFetch t :: _ => RealtimeGuarded env stores s t
  | _, _ => True

instance : DecidablePred (BillGuarded env stores s)
  | .refund _ => inferInstanceAs (Decidable (¬ _))
  | .settle .. => inferInstanceAs (Decidable True)
  | .save t => inferInstanceAs (Decidable (if t.status = .failure then _ else _))

instance : DecidablePred (SweepGuarded env stores s) := fun _ => inferInstanceAs (Decidable (_ → _))

instance : DecidablePred (PlatformGuarded env stores s) := fun _ => inferInstanceAs (Decidable (_ → _))

instance (platform : String) (taskIds : List String) (taskM : List (String × Task)) :
    Decidable (ChannelGuarded env s platform taskIds taskM) := inferInstanceAs (Decidable (_ → _))

instance : DecidablePred (VideoGuarded env stores s) := fun _ =>
  inferInstanceAs (Decidable (∀ v ∈ env.video, _))

instance (item : SunoDataResponse) : DecidablePred (SunoGuarded stores s item) := fun _ =>
  inferInstanceAs (Decidable (_ → _))

instance : DecidablePred (RealtimeGuarded env stores s) := fun _ =>
  inferInstanceAs (Decidable (∀ r ∈ env.realtime, _))

instance (p : Process) : Decidable (p.Guarded env stores s) := by
  unfold Guarded
  split
  all_goals infer_instance

end

end Process

/-- A step is guarded. -/
def TaskSystem.Guarded (s : TaskSystem) : TaskSystem.Step → Prop
  | .run k env => ∀ p ∈ s.processes[k]?, p.Guarded env (s.count .store) s.store
  | _ => True

instance (s : TaskSystem) : DecidablePred s.Guarded
  | .taskPollingLoop | .videoFetchById .. => inferInstanceAs (Decidable True)
  | .run k _ => inferInstanceAs (Decidable (∀ p ∈ s.processes[k]?, _))

/-! ## The store -/

namespace TaskStore

section
variable {s s' : TaskStore} {t : Task} {fails : Bool} {fromStatus : TaskStatus} {i : Nat}
  {count count' : BillKind → Nat}

/-- The tasks have been paid for. -/
def Quotas (s : TaskStore) : Prop := ∀ t ∈ s.tasks, t.quota ≠ 0

theorem statusOf_overwrite (i : Nat) :
    statusOf i { s with tasks := s.tasks.modify t.id t.overwrite t.overwrite_id } =
      if i = t.id then (s.statusOf i).map fun _ => t.status else s.statusOf i := by
  unfold statusOf
  rw [Table.get?_modify]
  split
  · rw [Option.map_map, Option.map_map]
    rfl
  · rfl

theorem Quotas.overwrite (h : s.Quotas) (ht : t.quota ≠ 0) :
    Quotas { s with tasks := s.tasks.modify t.id t.overwrite t.overwrite_id } := by
  intro row hrow
  have hmem : row ∈ s.tasks.modifyWhere (fun old => old.id = t.id) t.overwrite t.overwrite_id := hrow
  obtain ⟨old, hold, rfl⟩ := Table.mem_modifyWhere.1 hmem
  split
  · exact ht
  · exact h old hold

theorem updateWithStatus_eq_some (h : s.updateWithStatus fails t fromStatus = some s') :
    s.statusOf t.id = some fromStatus ∧
      s' = { s with tasks := s.tasks.modify t.id t.overwrite t.overwrite_id } := by
  unfold updateWithStatus at h
  split at h
  · cases h
  split at h
  next hstatus =>
    cases h
    exact ⟨hstatus, rfl⟩
  · cases h

theorem statusOf_updateWithStatus (h : s.updateWithStatus fails t fromStatus = some s') (i : Nat) :
    s'.statusOf i = if i = t.id then some t.status else s.statusOf i := by
  obtain ⟨hstatus, rfl⟩ := updateWithStatus_eq_some h
  rw [statusOf_overwrite]
  split
  next hi => rw [hi, hstatus, Option.map_some]
  next => rfl

theorem statusOf_taskBulkUpdateById (ids : List Nat) (failReason : String) (i : Nat) :
    (s.taskBulkUpdateById ids failReason).statusOf i =
      if i ∈ ids then (s.statusOf i).map fun _ => .failure else s.statusOf i := by
  unfold statusOf taskBulkUpdateById
  rw [Table.get?_modifyWhere]
  cases hget : s.tasks.get? i with
  | none =>
    split
    · rfl
    · rfl
  | some row =>
    have hid : row.id = i := Table.key_of_get? hget
    rw [Option.map_some, Option.map_some, hid]
    split
    · rfl
    · rfl

theorem Quotas.taskBulkUpdateById (h : s.Quotas) (ids : List Nat) (failReason : String) :
    (s.taskBulkUpdateById ids failReason).Quotas := by
  intro row hrow
  have hmem : row ∈ s.tasks.modifyWhere (fun old => old.id ∈ ids) (Task.failWith failReason)
    (Task.failWith_id failReason) := hrow
  obtain ⟨old, hold, rfl⟩ := Table.mem_modifyWhere.1 hmem
  split
  · exact h old hold
  · exact h old hold

theorem account_eq (hstatus : s'.statusOf i = s.statusOf i)
    (hrefunds : s'.refunded.count i + count' .refund = s.refunded.count i + count .refund)
    (hsettles : s'.settled.count i + count' .settle = s.settled.count i + count .settle)
    (hstores : count' .store = count .store) (hlegacy : s'.legacy.count i = s.legacy.count i) :
    s'.account count' i = s.account count i := by
  unfold account
  rw [hstatus, hrefunds, hsettles, hstores, hlegacy]

end

end TaskStore

/-! ## Processes -/

namespace Process

/-- The tasks of a loop have been paid for; those that are swept were not terminal, and those of one platform
are different. -/
def Work.Ok : Work → Prop
  | .sweep tasks => ∀ t ∈ tasks, t.quota ≠ 0 ∧ ¬ t.status.Terminal
  | .platforms platformTask => ∀ g ∈ platformTask, (∀ t ∈ g.2, t.quota ≠ 0) ∧ (g.2.map Task.id).Nodup
  | .realtimeFetch t => t.quota ≠ 0
  | _ => True

/-- The tasks of a process have been paid for. -/
structure Ok (p : Process) : Prop where
  bills : ∀ bill ∈ p.bills, bill.task.quota ≠ 0
  taskM : ∀ e ∈ p.taskM, e.2.quota ≠ 0
  work : ∀ w ∈ p.work, Work.Ok w

/-- A step keeps the quotas, and moves the account of every task, where `count` bills are under way
elsewhere. -/
structure Safe (count : BillKind → Nat → Nat) (s : TaskStore) (p : Process) (r : TaskStore × Process) : Prop
    where
  quotas : r.1.Quotas
  ok : r.2.Ok
  move : ∀ i, Move (s.account (fun kind => count kind i + p.count kind i) i)
    (r.1.account (fun kind => count kind i + r.2.count kind i) i)

section
variable {env : Env} {s : TaskStore} {p p' : Process} {t : Task} {count : BillKind → Nat → Nat}
  {kind : BillKind} {i : Nat}

theorem count_of_nil (h : p.bills = []) : p.count kind i = 0 := by
  unfold Process.count
  rw [h]
  rfl

theorem count_singleton {bill : Bill} (h : p.bills = [bill]) : p.count kind i = bill.count kind i := by
  unfold Process.count
  rw [h]
  exact List.sum_singleton

theorem count_of_ne (h : ∀ bill ∈ p.bills, bill.task.id ≠ i) : p.count kind i = 0 := by
  refine List.sum_eq_zero fun n hn => ?_
  obtain ⟨bill, hbill, rfl⟩ := List.mem_map.1 hn
  exact Bill.count_of_ne (h bill hbill)

theorem refundIf_eq (h : t.quota ≠ 0) : refundIf t = [.refund t] := if_pos h

theorem account_of_nil (h : p.bills = []) :
    s.account (fun kind => count kind i + p.count kind i) i = s.account (count · i) i := by
  simp only [count_of_nil h, Nat.add_zero]

theorem account_of_count {r n w : Nat} (hrefund : p.count .refund i = r) (hsettle : p.count .settle i = n)
    (hstore : p.count .store i = w) :
    s.account (fun kind => count kind i + p.count kind i) i =
      ⟨s.statusOf i, s.refunded.count i + (count .refund i + r), s.settled.count i + (count .settle i + n),
        count .store i + w, s.legacy.count i⟩ := by
  unfold TaskStore.account
  dsimp only
  rw [hrefund, hsettle, hstore]

theorem safe_of_bills_eq (hquotas : s.Quotas) (hok : p'.Ok) (hbills : p'.bills = p.bills) :
    Safe count s p (s, p') := by
  refine ⟨hquotas, hok, fun i => ?_⟩
  have hcount : ∀ kind, p'.count kind i = p.count kind i := by
    intro kind
    unfold Process.count
    rw [hbills]
  dsimp only
  simp only [hcount]
  exact .stay

/-- A task that is written moves its account, and no other account moves where all bills are for the task. -/
theorem safe_of_won {fails : Bool} {fromStatus : TaskStatus} {s' : TaskStore}
    (hwon : s.updateWithStatus fails t fromStatus = some s') (hquotas : s.Quotas) (ht : t.quota ≠ 0)
    (hbills : p.bills = []) (hok : p'.Ok) (htask : ∀ bill ∈ p'.bills, bill.task = t)
    (hmove : Move (s.account (count · t.id) t.id) { s.account (count · t.id) t.id with
      status := some t.status
      refunds := s.refunded.count t.id + (count .refund t.id + p'.count .refund t.id)
      settles := s.settled.count t.id + (count .settle t.id + p'.count .settle t.id)
      stores := count .store t.id + p'.count .store t.id }) :
    Safe count s p (s', p') := by
  have hstatus := TaskStore.statusOf_updateWithStatus hwon
  obtain ⟨-, rfl⟩ := TaskStore.updateWithStatus_eq_some hwon
  refine ⟨hquotas.overwrite ht, hok, fun i => ?_⟩
  rw [account_of_nil hbills]
  by_cases hi : i = t.id
  · subst hi
    exact hmove.of_eq (TaskAccount.ext ((hstatus t.id).trans (if_pos rfl)) rfl rfl rfl rfl)
  · have hcount : ∀ kind, p'.count kind i = 0 := fun _ =>
      count_of_ne fun bill hbill => by rw [htask bill hbill]; exact Ne.symm hi
    rw [account_of_count (hcount .refund) (hcount .settle) (hcount .store)]
    exact Move.stay.of_eq (TaskAccount.ext ((hstatus i).trans (if_neg hi)) rfl rfl rfl rfl)

theorem safe_of_won_nil {fails : Bool} {fromStatus : TaskStatus} {s' : TaskStore}
    (hwon : s.updateWithStatus fails t fromStatus = some s') (hquotas : s.Quotas) (ht : t.quota ≠ 0)
    (hbills : p.bills = []) (hok : p'.Ok) (hbills' : p'.bills = [])
    (hmove : Move (s.account (count · t.id) t.id)
      { s.account (count · t.id) t.id with status := some t.status }) :
    Safe count s p (s', p') := by
  refine safe_of_won hwon hquotas ht hbills hok ?_ (hmove.of_eq ?_)
  · rw [hbills']
    exact List.forall_mem_nil _
  · rw [count_of_nil hbills', count_of_nil hbills', count_of_nil hbills']
    rfl

theorem safe_of_failed {fails : Bool} {fromStatus : TaskStatus} {s' : TaskStore}
    (hwon : s.updateWithStatus fails t fromStatus = some s') (hquotas : s.Quotas) (ht : t.quota ≠ 0)
    (hfailure : t.status = .failure) (hfrom : ¬ fromStatus.Terminal) (hstores : count .store t.id = 0)
    (hbills : p.bills = []) (hok : p'.Ok) (hbills' : p'.bills = [.refund t]) :
    Safe count s p (s', p') := by
  obtain ⟨hold, -⟩ := TaskStore.updateWithStatus_eq_some hwon
  have hopen : (s.account (count · t.id) t.id).Open := ⟨fromStatus, hold, hfrom⟩
  have hrefund : (Bill.refund t).count .refund t.id = 1 := if_pos rfl
  refine safe_of_won hwon hquotas ht hbills hok ?_ ((Move.fail hopen hstores).of_eq ?_)
  · rw [hbills']
    exact List.forall_mem_singleton.2 rfl
  · rw [count_singleton hbills', count_singleton hbills', count_singleton hbills', hrefund, hfailure]
    rfl

theorem safe_of_succeeded {fails : Bool} {fromStatus : TaskStatus} {s' : TaskStore} {upstreamId : String}
    (hwon : s.updateWithStatus fails t fromStatus = some s') (hquotas : s.Quotas) (ht : t.quota ≠ 0)
    (hsuccess : t.status = .success) (hfrom : ¬ fromStatus.Terminal) (hstores : count .store t.id = 0)
    (hbills : p.bills = []) (hok : p'.Ok) (hbills' : p'.bills = [.settle upstreamId t]) :
    Safe count s p (s', p') := by
  obtain ⟨hold, -⟩ := TaskStore.updateWithStatus_eq_some hwon
  have hopen : (s.account (count · t.id) t.id).Open := ⟨fromStatus, hold, hfrom⟩
  have hsettle : (Bill.settle upstreamId t).count .settle t.id = 1 := if_pos rfl
  refine safe_of_won hwon hquotas ht hbills hok ?_ ((Move.succeed hopen hstores (Nat.le_refl 1)).of_eq ?_)
  · rw [hbills']
    exact List.forall_mem_singleton.2 rfl
  · rw [count_singleton hbills', count_singleton hbills', count_singleton hbills', hsettle, hsuccess]
    rfl

theorem Ok.withBills {bills : List Bill} (h : p.Ok) (hbills : ∀ bill ∈ bills, bill.task.quota ≠ 0) :
    Ok { p with bills := bills } := ⟨hbills, h.taskM, h.work⟩

theorem ok_empty : Ok {} := ⟨List.forall_mem_nil _, List.forall_mem_nil _, List.forall_mem_nil _⟩

theorem sweepTask_safe (hquotas : s.Quotas) (hok : p.Ok) (hbills : p.bills = [])
    (ht : t.quota ≠ 0 ∧ ¬ t.status.Terminal) (hguard : SweepGuarded env (count .store) s t) :
    Safe count s p (sweepTask env t p s) := by
  unfold sweepTask
  cases hwon : s.updateWithStatus env.fails (swept env t) t.status with
  | none => exact safe_of_bills_eq hquotas hok rfl
  | some s' =>
    have hstores : count .store t.id = 0 := hguard (by rw [hwon]; rfl)
    dsimp only
    split
    next =>
      have hstatus := TaskStore.statusOf_updateWithStatus hwon
      obtain ⟨hold, rfl⟩ := TaskStore.updateWithStatus_eq_some hwon
      have hopen : (s.account (count · t.id) t.id).Open := ⟨t.status, hold, ht.2⟩
      refine ⟨hquotas.overwrite (t := swept env t) ht.1, hok, fun i => ?_⟩
      rw [account_of_nil hbills, account_of_nil hbills]
      by_cases hi : i = t.id
      · subst hi
        refine (Move.failLegacy hopen hstores).of_eq ?_
        exact TaskAccount.ext ((hstatus t.id).trans (if_pos rfl)) rfl rfl rfl List.count_cons_self
      · refine Move.stay.of_eq (TaskStore.account_eq ((hstatus i).trans (if_neg hi)) rfl rfl rfl ?_)
        exact List.count_cons_of_ne (Ne.symm hi)
    next =>
      have hrefund : refundIf (swept env t) = [.refund (swept env t)] := if_pos ht.1
      rw [hrefund]
      refine safe_of_failed hwon hquotas ht.1 rfl ht.2 hstores hbills (hok.withBills ?_) rfl
      exact List.forall_mem_singleton.2 ht.1

theorem tryRealtimeFetch_safe (hquotas : s.Quotas) (hok : p.Ok) (hbills : p.bills = []) (ht : t.quota ≠ 0)
    (hguard : RealtimeGuarded env (count .store) s t) :
    Safe count s p (tryRealtimeFetch env t s, p) := by
  unfold tryRealtimeFetch
  cases hr : env.realtime with
  | none => exact safe_of_bills_eq hquotas hok rfl
  | some r =>
    dsimp only
    split
    next =>
      cases hwon : s.updateWithStatus env.fails (realtimeTask env r t) t.status with
      | none => exact safe_of_bills_eq hquotas hok rfl
      | some s' =>
        obtain ⟨hold, -⟩ := TaskStore.updateWithStatus_eq_some hwon
        refine safe_of_won_nil hwon hquotas ht hbills hok hbills ?_
        rcases hguard r hr (by rw [hwon]; rfl) with hsame | ⟨hopen, hfailure, hstores⟩
        · refine Move.stay.of_eq (TaskAccount.ext ?_ rfl rfl rfl rfl)
          exact (congrArg some hsame).trans hold.symm
        · have hopen' : (s.account (count · t.id) t.id).Open := ⟨t.status, hold, hopen⟩
          by_cases hsuccess : (realtimeTask env r t).status = .success
          · rw [hsuccess]
            exact Move.succeed (n := 0) hopen' (hstores hsuccess) (Nat.zero_le 1)
          · exact Move.goOn hopen' fun hor => hor.elim hfailure hsuccess
    next => exact safe_of_bills_eq hquotas hok rfl

theorem mem_of_lookup {upstreamId : String} {taskM : List (String × Task)}
    (h : taskM.lookup upstreamId = some t) : ∃ e ∈ taskM, e.2 = t := by
  obtain ⟨before, after, rfl, -⟩ := List.lookup_eq_some_iff.1 h
  exact ⟨(upstreamId, t), List.mem_append_right _ List.mem_cons_self, rfl⟩

theorem Ok.quota_of_lookup {upstreamId : String} (h : p.Ok) (hlook : p.taskM.lookup upstreamId = some t) :
    t.quota ≠ 0 := by
  obtain ⟨e, hmem, rfl⟩ := mem_of_lookup hlook
  exact h.taskM e hmem

theorem Ok.assign {upstreamId : String} (h : p.Ok) (ht : t.quota ≠ 0) :
    Ok { p with taskM := assignTask upstreamId t p.taskM } := by
  refine ⟨h.bills, fun e he => ?_, h.work⟩
  rcases List.mem_cons.1 he with rfl | he
  · exact ht
  · exact h.taskM e (List.mem_of_mem_filter he)

theorem videoTask_spec (answer : VideoAnswer) (body : String) (t : Task) :
    (videoTask env answer body t).1.id = t.id ∧ (videoTask env answer body t).1.quota = t.quota := by
  unfold videoTask
  dsimp only
  split
  · exact ⟨rfl, rfl⟩
  split
  · exact ⟨rfl, rfl⟩
  · exact ⟨rfl, rfl⟩
  · exact ⟨rfl, rfl⟩
  · exact ⟨rfl, rfl⟩
  · exact ⟨rfl, rfl⟩
  · exact ⟨rfl, rfl⟩
  · exact ⟨rfl, rfl⟩
  · exact ⟨rfl, rfl⟩

/-- An answer moves a video task on, or ends it. -/
theorem updateVideoSingleTask_safe {upstreamId : String} (hquotas : s.Quotas) (hok : p.Ok)
    (hbills : p.bills = [])
    (hguard : ∀ t ∈ p.taskM.lookup upstreamId, VideoGuarded env (count .store) s t) :
    Safe count s p (updateVideoSingleTask env upstreamId p s) := by
  unfold updateVideoSingleTask
  split
  next t answer body hlook hvideo =>
    have hguarded := hguard t hlook (answer, body) hvideo
    obtain ⟨hid, hquota⟩ := @videoTask_spec env answer body t
    have ht : (videoTask env answer body t).1.quota ≠ 0 := by
      rw [hquota]
      exact hok.quota_of_lookup hlook
    rw [← hid] at hguarded
    dsimp only at hguarded ⊢
    generalize (videoTask env answer body t).2 = goesOn at hguarded ⊢
    generalize (videoTask env answer body t).1 = t' at ht hguarded ⊢
    have hok' := @Ok.assign p t' upstreamId hok ht
    split
    · exact safe_of_bills_eq hquotas hok' rfl
    next hgoes =>
    obtain ⟨hterminal, hstores⟩ := hguarded (not_not.1 hgoes)
    split
    next hends =>
      cases hwon : s.updateWithStatus env.fails t' t.status with
      | none => exact safe_of_bills_eq hquotas hok' rfl
      | some s' =>
        have hzero := hstores (by rw [hwon]; rfl) hends.1
        rcases hends.1 with hfailure | hsuccess
        · have hbill : videoBills upstreamId t' = [.refund t'] := by
            unfold videoBills
            rw [hfailure, if_neg nofun, if_pos rfl]
            exact if_pos ht
          dsimp only
          rw [hbill]
          exact safe_of_failed hwon hquotas ht hfailure hterminal hzero hbills
            (hok'.withBills (List.forall_mem_singleton.2 ht)) rfl
        · have hbill : videoBills upstreamId t' = [.settle upstreamId t'] := if_pos hsuccess
          dsimp only
          rw [hbill]
          exact safe_of_succeeded hwon hquotas ht hsuccess hterminal hzero hbills
            (hok'.withBills (List.forall_mem_singleton.2 ht)) rfl
    next hgoes =>
      have hopen : ¬ t'.status.Terminal := by
        intro hterminal'
        refine hgoes ⟨hterminal', fun heq => hterminal ?_⟩
        rw [heq]
        exact hterminal'
      have hbill : videoBills upstreamId t' = [] := by
        unfold videoBills
        rw [if_neg fun h => hopen (.inr h), if_neg fun h => hopen (.inl h)]
      rw [hbill]
      have hok'' := hok'.withBills (List.forall_mem_nil _)
      split
      next =>
        cases hwon : s.updateWithStatus env.fails t' t.status with
        | none => exact safe_of_bills_eq hquotas hok'' hbills.symm
        | some s' =>
          obtain ⟨hold, -⟩ := TaskStore.updateWithStatus_eq_some hwon
          refine safe_of_won_nil hwon hquotas ht hbills hok'' rfl ?_
          exact Move.goOn ⟨t.status, hold, hterminal⟩ hopen
      next => exact safe_of_bills_eq hquotas hok'' hbills.symm
  next => exact safe_of_bills_eq hquotas hok rfl

/-- A Suno task that fails is refunded, and is to be stored. -/
theorem updateSunoTask_safe {item : SunoDataResponse} (hquotas : s.Quotas) (hok : p.Ok)
    (hbills : p.bills = []) (hguard : ∀ t ∈ p.taskM.lookup item.taskId, SunoGuarded (count .store) s item t) :
    Safe count s p (s, updateSunoTask item p) := by
  unfold updateSunoTask
  split
  next => exact safe_of_bills_eq hquotas ok_empty hbills.symm
  next t hlook =>
    have hquota : t.quota ≠ 0 := hok.quota_of_lookup hlook
    have ht : (sunoTask item t).quota ≠ 0 := hquota
    have hid : (sunoTask item t).id = t.id := rfl
    have hnot : ¬ SunoRefunds item t → (sunoTask item t).status ≠ .failure := fun h hfailure => h (.inr hfailure)
    split
    next hneeds =>
      have hfree := hguard t hlook hneeds
      dsimp only
      generalize sunoTask item t = t' at ht hid hnot hfree ⊢
      have hok' := @Ok.assign p t' item.taskId hok ht
      split
      next hrefunds =>
        obtain ⟨hfailure, hopen, hzero⟩ := hfree hrefunds
        rw [← hid] at hopen hzero
        refine ⟨hquotas, hok'.withBills (List.forall_mem_cons.2 ⟨ht, List.forall_mem_singleton.2 ht⟩),
          fun i => ?_⟩
        have hcount : ∀ kind, Process.count kind i { p with
            bills := [.refund t'] ++ [.save t'], taskM := assignTask item.taskId t' p.taskM } =
              (Bill.refund t').count kind i + (Bill.save t').count kind i := by
          intro kind
          exact List.sum_cons.trans (congrArg (_ + ·) List.sum_singleton)
        dsimp only
        rw [account_of_nil hbills, account_of_count (hcount .refund) (hcount .settle) (hcount .store)]
        by_cases hi : i = t'.id
        · subst hi
          have hopen' : (s.account (count · t'.id) t'.id).Open := hopen
          have hrefund : (Bill.refund t').count .refund t'.id = 1 := if_pos rfl
          have hstore : (Bill.save t').count .store t'.id = 1 := if_pos ⟨rfl, hfailure⟩
          rw [hrefund, hstore]
          exact (Move.refund hopen' hzero).of_eq rfl
        · have hrefund : (Bill.refund t').count .refund i = 0 := Bill.count_of_ne (Ne.symm hi)
          have hstore : (Bill.save t').count .store i = 0 := Bill.count_of_ne (Ne.symm hi)
          rw [hrefund, hstore]
          exact Move.stay.of_eq rfl
      next hrefunds =>
        refine ⟨hquotas, hok'.withBills (List.forall_mem_singleton.2 ht), fun i => ?_⟩
        have hstore : (Bill.save t').count .store i = 0 := if_neg fun h => hnot hrefunds h.2
        have hcount : ∀ kind, Process.count kind i { p with
            bills := [] ++ [.save t'], taskM := assignTask item.taskId t' p.taskM } =
              (Bill.save t').count kind i := fun kind => List.sum_singleton
        dsimp only
        rw [account_of_nil hbills, account_of_count (hcount .refund) (hcount .settle) (hcount .store),
          hstore]
        exact Move.stay.of_eq rfl
    next => exact safe_of_bills_eq hquotas hok rfl

theorem forall_mem_foldl_assign {tasks : List Task} {taskM : List (String × Task)}
    (htaskM : ∀ e ∈ taskM, e.2.quota ≠ 0) (htasks : ∀ t ∈ tasks, t.quota ≠ 0) :
    ∀ e ∈ tasks.foldl (fun taskM t => assignTask t.getUpstreamTaskId t taskM) taskM, e.2.quota ≠ 0 := by
  induction tasks generalizing taskM with
  | nil => exact htaskM
  | cons t tasks ih =>
    refine ih (fun e he => ?_) fun t' ht' => htasks t' (List.mem_cons_of_mem t ht')
    rcases List.mem_cons.1 he with rfl | he
    · exact htasks t List.mem_cons_self
    · exact htaskM e (List.mem_of_mem_filter he)

theorem sum_refunds (tasks : List Task) (i : Nat) :
    ((tasks.map Bill.refund).map (Bill.count .refund i)).sum = (tasks.map Task.id).count i := by
  induction tasks with
  | nil => rfl
  | cons t tasks ih =>
    rw [List.map_cons, List.map_cons, List.sum_cons, ih, List.map_cons, List.count_cons, Nat.add_comm]
    have hone : (Bill.refund t).count .refund i = if (t.id == i) = true then 1 else 0 :=
      if_congr beq_iff_eq.symm rfl rfl
    rw [hone]

theorem sum_refunds_of_ne (hkind : kind ≠ .refund) (tasks : List Task) (i : Nat) :
    ((tasks.map Bill.refund).map (Bill.count kind i)).sum = 0 := by
  refine List.sum_eq_zero fun n hn => ?_
  rw [List.map_map] at hn
  obtain ⟨t, -, rfl⟩ := List.mem_map.1 hn
  cases kind with
  | refund => exact absurd rfl hkind
  | settle | store => rfl

theorem flatMap_refundIf {tasks : List Task} (h : ∀ t ∈ tasks, t.quota ≠ 0) :
    tasks.flatMap refundIf = tasks.map Bill.refund := by
  induction tasks with
  | nil => rfl
  | cons t tasks ih =>
    rw [List.flatMap_cons, ih fun t' ht' => h t' (List.mem_cons_of_mem t ht'), List.map_cons]
    exact congrArg (· ++ _) (refundIf_eq (h t List.mem_cons_self))

/-- The tasks that have no upstream's id are failed and refunded. -/
theorem pollPlatform_safe {platform : String} {tasks : List Task} (hquotas : s.Quotas) (hok : p.Ok)
    (hbills : p.bills = []) (htasks : ∀ t ∈ tasks, t.quota ≠ 0) (hnodup : (tasks.map Task.id).Nodup)
    (hguard : PlatformGuarded env (count .store) s tasks) :
    Safe count s p (pollPlatform env platform tasks p s) := by
  unfold pollPlatform
  dsimp only
  have hfound : ∀ t ∈ tasks.filter (·.getUpstreamTaskId ≠ ""), t.quota ≠ 0 := fun t ht =>
    htasks t (List.mem_of_mem_filter ht)
  have hnull : ∀ t ∈ tasks.filter (·.getUpstreamTaskId = ""), t.quota ≠ 0 := fun t ht =>
    htasks t (List.mem_of_mem_filter ht)
  have hids : ((tasks.filter (·.getUpstreamTaskId = "")).map Task.id).Nodup :=
    hnodup.sublist (List.filter_sublist.map _)
  have hfree : ¬ env.fails → ∀ i ∈ (tasks.filter (·.getUpstreamTaskId = "")).map Task.id,
      s.Free (count .store) i := by
    intro hfails i hi
    obtain ⟨t, ht, rfl⟩ := List.mem_map.1 hi
    obtain ⟨hmem, hempty⟩ := List.mem_filter.1 ht
    exact hguard hfails t hmem (of_decide_eq_true hempty)
  generalize tasks.filter (·.getUpstreamTaskId ≠ "") = found at hfound ⊢
  generalize tasks.filter (·.getUpstreamTaskId = "") = nullTasks at hnull hids hfree ⊢
  have htaskM := forall_mem_foldl_assign (List.forall_mem_nil _) hfound
  have hwork : ∀ taskChannelM, ∀ w ∈ .channels platform taskChannelM :: p.work, Work.Ok w := fun _ =>
    List.forall_mem_cons.2 ⟨trivial, hok.work⟩
  split
  next => exact safe_of_bills_eq hquotas ⟨hok.bills, htaskM, hwork _⟩ rfl
  next hgoes =>
    have hrefunds := flatMap_refundIf hnull
    rw [hrefunds]
    refine ⟨hquotas.taskBulkUpdateById _ _, ⟨?_, htaskM, hwork _⟩, fun i => ?_⟩
    · intro bill hbill
      obtain ⟨t, ht, rfl⟩ := List.mem_map.1 hbill
      exact hnull t ht
    have hrefund : Process.count .refund i { p with bills := nullTasks.map Bill.refund } =
        (nullTasks.map Task.id).count i := sum_refunds nullTasks i
    have hother : ∀ kind, kind ≠ .refund →
        Process.count kind i { p with bills := nullTasks.map Bill.refund } = 0 := fun _ hkind =>
      sum_refunds_of_ne hkind nullTasks i
    have hsettle := hother .settle nofun
    have hstore := hother .store nofun
    have hstatus := s.statusOf_taskBulkUpdateById (nullTasks.map Task.id) "任务提交失败（无上游任务ID）" i
    rw [account_of_nil hbills]
    refine (?_ : Move _ _).of_eq (account_of_count hrefund hsettle hstore)
    by_cases hi : i ∈ nullTasks.map Task.id
    · obtain ⟨hopen, hzero⟩ := hfree (fun hfails => hgoes (.inr hfails)) i hi
      have hopen' : (s.account (count · i) i).Open := hopen
      obtain ⟨status, hsome, -⟩ := hopen
      rw [if_pos hi, hsome, Option.map_some] at hstatus
      rw [List.count_eq_one_of_mem hids hi]
      exact (Move.fail hopen' hzero).of_eq (TaskAccount.ext hstatus rfl rfl rfl rfl)
    · rw [if_neg hi] at hstatus
      rw [List.count_eq_zero.2 hi]
      exact Move.stay.of_eq (TaskAccount.ext hstatus rfl rfl rfl rfl)

theorem pollChannel_safe {platform : String} {channelId : Nat} {taskIds : List String}
    (hquotas : s.Quotas) (hok : p.Ok) (hguard : ChannelGuarded env s platform taskIds p.taskM) :
    Safe count s p (pollChannel env platform channelId taskIds p s) := by
  unfold pollChannel
  split
  · exact safe_of_bills_eq hquotas hok rfl
  split
  next hmj hfound =>
    dsimp only
    split
    next => exact safe_of_bills_eq hquotas hok rfl
    next hfails =>
      refine ⟨hquotas.taskBulkUpdateById _ _, hok, fun i => ?_⟩
      refine Move.stay.of_eq (TaskStore.account_eq ?_ rfl rfl rfl rfl)
      rw [TaskStore.statusOf_taskBulkUpdateById]
      split
      next hmem =>
        obtain ⟨upstreamId, hid, hlook⟩ := List.mem_filterMap.1 hmem
        obtain ⟨t, ht, rfl⟩ := Option.map_eq_some_iff.1 hlook
        rw [hguard hmj hfound hfails upstreamId hid t ht]
        rfl
      next => rfl
  have hwork : ∀ w, Work.Ok w → Ok { p with work := w :: p.work } := fun w hw =>
    ⟨hok.bills, hok.taskM, List.forall_mem_cons.2 ⟨hw, hok.work⟩⟩
  split
  · split
    · exact safe_of_bills_eq hquotas hok rfl
    · exact safe_of_bills_eq hquotas (hwork _ trivial) rfl
  · exact safe_of_bills_eq hquotas (hwork _ trivial) rfl

theorem count_cons {bill : Bill} {bills : List Bill} (h : p.bills = bill :: bills) (hbills : p'.bills = bills) :
    p.count kind i = bill.count kind i + p'.count kind i := by
  unfold Process.count
  rw [h, hbills]
  exact List.sum_cons

theorem count_cons_add (j i : Nat) (l : List Nat) (m k : Nat) :
    (j :: l).count i + (m + k) = l.count i + (m + ((if j = i then 1 else 0) + k)) := by
  have hone : (if (j == i) = true then 1 else 0) = if j = i then 1 else 0 := if_congr beq_iff_eq rfl rfl
  rw [List.count_cons, hone]
  omega

theorem update_eq {status : TaskStatus} (h : s.statusOf t.id = some status) (hfails : ¬ env.fails) :
    s.update env.fails t = { s with tasks := s.tasks.modify t.id t.overwrite t.overwrite_id } ∧
      ∀ i, (s.update env.fails t).statusOf i = if i = t.id then some t.status else s.statusOf i := by
  obtain ⟨row, hrow, -⟩ := Option.map_eq_some_iff.1 h
  have heq : s.update env.fails t = { s with tasks := s.tasks.modify t.id t.overwrite t.overwrite_id } := by
    unfold TaskStore.update
    rw [if_neg hfails, hrow]
    rfl
  refine ⟨heq, fun i => ?_⟩
  rw [heq, TaskStore.statusOf_overwrite]
  split
  next hi =>
    rw [hi, h]
    rfl
  next => rfl

/-- `updateSunoTasks` stores the failure of an open task, or what does not change the end of a task. -/
theorem save_safe {bills : List Bill} (hquotas : s.Quotas) (hok : p.Ok) (hbills : p.bills = .save t :: bills)
    (hstores : ∀ i, count .store i + p.count .store i ≠ 0 → IsOpen (s.statusOf i))
    (hguard : BillGuarded env (fun i => count .store i + p.count .store i) s (.save t)) :
    Safe count s p (s.update env.fails t, { p with bills := bills }) := by
  have ht : t.quota ≠ 0 := hok.bills (.save t) (hbills ▸ List.mem_cons_self)
  have hok' : Ok { p with bills := bills } :=
    hok.withBills fun bill hbill => hok.bills bill (hbills ▸ List.mem_cons_of_mem _ hbill)
  have hcount : ∀ kind i, p.count kind i =
      (Bill.save t).count kind i + Process.count kind i { p with bills := bills } := fun _ _ =>
    count_cons hbills rfl
  have hguarded : if t.status = .failure then ¬ env.fails else env.fails ∨ s.statusOf t.id = some t.status ∨
      IsOpen (s.statusOf t.id) ∧ (t.status = .success → count .store t.id + p.count .store t.id = 0) := hguard
  clear hguard
  generalize { p with bills := bills } = p' at hok' hcount ⊢
  have hrefund : ∀ i, p.count .refund i = p'.count .refund i := fun i =>
    (hcount .refund i).trans (Nat.zero_add _)
  have hsettle : ∀ i, p.count .settle i = p'.count .settle i := fun i =>
    (hcount .settle i).trans (Nat.zero_add _)
  by_cases hfailure : t.status = .failure
  · rw [if_pos hfailure] at hguarded
    have hone : (Bill.save t).count .store t.id = 1 := if_pos ⟨rfl, hfailure⟩
    have hself : count .store t.id + p.count .store t.id = count .store t.id + p'.count .store t.id + 1 := by
      rw [hcount, hone]
      omega
    obtain ⟨status, hsome, -⟩ := hstores t.id (by rw [hself]; exact Nat.succ_ne_zero _)
    obtain ⟨heq, hstatus⟩ := update_eq hsome hguarded
    rw [hfailure] at hstatus
    rw [heq] at hstatus ⊢
    refine ⟨hquotas.overwrite ht, hok', fun i => ?_⟩
    rw [account_of_count (hrefund i) (hsettle i) rfl]
    by_cases hi : i = t.id
    · subst hi
      refine (Move.store hself).of_eq ?_
      exact TaskAccount.ext ((hstatus t.id).trans (if_pos rfl)) rfl rfl rfl rfl
    · have hstore : p.count .store i = p'.count .store i := by
        rw [hcount]
        exact (congrArg (· + _) (Bill.count_of_ne (Ne.symm hi))).trans (Nat.zero_add _)
      rw [hstore]
      exact Move.stay.of_eq (TaskAccount.ext ((hstatus i).trans (if_neg hi)) rfl rfl rfl rfl)
  · rw [if_neg hfailure] at hguarded
    have hstore : ∀ i, p.count .store i = p'.count .store i := by
      intro i
      rw [hcount]
      exact (congrArg (· + _) (if_neg fun h => hfailure h.2)).trans (Nat.zero_add _)
    have hfails : env.fails → Safe count s p (s.update env.fails t, p') := by
      intro hfails
      have heq : s.update env.fails t = s := if_pos hfails
      rw [heq]
      refine ⟨hquotas, hok', fun i => ?_⟩
      rw [account_of_count (hrefund i) (hsettle i) (hstore i)]
      exact Move.stay.of_eq rfl
    rcases hguarded with hfail | hguarded
    · exact hfails hfail
    by_cases hfail : env.fails = true
    · exact hfails hfail
    have hsome : ∃ status, s.statusOf t.id = some status := by
      rcases hguarded with hsame | ⟨⟨status, hsome, -⟩, -⟩
      · exact ⟨_, hsame⟩
      · exact ⟨status, hsome⟩
    obtain ⟨status, hsome⟩ := hsome
    obtain ⟨heq, hstatus⟩ := update_eq hsome hfail
    rw [heq] at hstatus ⊢
    refine ⟨hquotas.overwrite ht, hok', fun i => ?_⟩
    rw [account_of_count (hrefund i) (hsettle i) (hstore i)]
    by_cases hi : i = t.id
    · subst hi
      have hself := (hstatus t.id).trans (if_pos rfl)
      rcases hguarded with hsame | ⟨hopen, hzero⟩
      · exact Move.stay.of_eq (TaskAccount.ext (hself.trans hsame.symm) rfl rfl rfl rfl)
      · by_cases hsuccess : t.status = .success
        · have hzero' := hzero hsuccess
          rw [hstore] at hzero'
          rw [hsuccess] at hself
          refine (Move.succeed (n := 0) ?_ hzero' (Nat.zero_le 1)).of_eq ?_
          · exact hopen
          · exact TaskAccount.ext hself rfl rfl rfl rfl
        · refine (Move.goOn ?_ fun hor => hor.elim hfailure hsuccess).of_eq ?_
          · exact hopen
          · exact TaskAccount.ext hself rfl rfl rfl rfl
    · exact Move.stay.of_eq (TaskAccount.ext ((hstatus i).trans (if_neg hi)) rfl rfl rfl rfl)

/-- A bill is done. -/
theorem pay_safe {bill : Bill} {bills : List Bill} (hquotas : s.Quotas) (hok : p.Ok)
    (hbills : p.bills = bill :: bills)
    (hstores : ∀ i, count .store i + p.count .store i ≠ 0 → IsOpen (s.statusOf i))
    (hguard : BillGuarded env (fun i => count .store i + p.count .store i) s bill) :
    Safe count s p (pay env bill { p with bills := bills } s) := by
  have ht : bill.task.quota ≠ 0 := hok.bills bill (hbills ▸ List.mem_cons_self)
  have hok' : Ok { p with bills := bills } :=
    hok.withBills fun bill' hbill => hok.bills bill' (hbills ▸ List.mem_cons_of_mem _ hbill)
  cases bill with
  | refund t =>
    have hpaid : s.refundTaskQuota env.fails t = { s with refunded := t.id :: s.refunded } :=
      if_neg fun h => h.elim ht hguard
    unfold pay
    dsimp only
    rw [hpaid]
    refine ⟨hquotas, hok', fun i => ?_⟩
    have hcount : ∀ kind, p.count kind i =
        (Bill.refund t).count kind i + Process.count kind i { p with bills := bills } := fun _ =>
      count_cons hbills rfl
    have hsettle := (hcount .settle).trans (Nat.zero_add _)
    have hstore := (hcount .store).trans (Nat.zero_add _)
    refine Move.stay.of_eq (TaskStore.account_eq rfl ?_ ?_ ?_ rfl)
    · rw [hcount]
      exact count_cons_add ..
    · rw [hsettle]
    · rw [hstore]
  | settle upstreamId t =>
    have hsettled : ∀ p', p'.bills = bills → p'.Ok →
        Safe count s p ({ s with settled := t.id :: s.settled }, p') := by
      intro p' hbills' hok'
      refine ⟨hquotas, hok', fun i => ?_⟩
      have hcount : ∀ kind, p.count kind i = (Bill.settle upstreamId t).count kind i + p'.count kind i :=
        fun _ => count_cons hbills hbills'
      have hrefund := (hcount .refund).trans (Nat.zero_add _)
      have hstore := (hcount .store).trans (Nat.zero_add _)
      refine Move.stay.of_eq (TaskStore.account_eq rfl ?_ ?_ ?_ rfl)
      · rw [hrefund]
      · rw [hcount]
        exact count_cons_add ..
      · rw [hstore]
    unfold pay
    dsimp only
    split
    next hactual => exact hsettled _ rfl (hok'.assign (Int.ne_of_gt hactual.1))
    next => exact hsettled _ rfl hok'
  | save t => exact save_safe hquotas hok hbills hstores hguard

theorem Ok.ofWork {work : List Work} (h : p.Ok) (hwork : ∀ w ∈ work, Work.Ok w) :
    Ok { p with work := work } := ⟨h.bills, h.taskM, hwork⟩

theorem Safe.congr {r : TaskStore × Process} (h : Safe count s p' r) (hbills : p'.bills = p.bills) :
    Safe count s p r := by
  refine ⟨h.quotas, h.ok, fun i => ?_⟩
  have hcount : ∀ kind, p.count kind i = p'.count kind i := by
    intro kind
    unfold Process.count
    rw [hbills]
  simp only [hcount]
  exact h.move i

theorem mem_getAllUnFinishSyncTasks (hquotas : s.Quotas) (limit : Nat) :
    (∀ t ∈ s.getAllUnFinishSyncTasks limit, t.quota ≠ 0) ∧
      ((s.getAllUnFinishSyncTasks limit).map Task.id).Nodup := by
  unfold TaskStore.getAllUnFinishSyncTasks
  refine ⟨fun t ht => hquotas t (List.mem_of_mem_filter (List.mem_of_mem_take ht)), ?_⟩
  exact s.tasks.nodup.sublist (((List.take_sublist _ _).trans List.filter_sublist).map _)

theorem mem_getTimedOutUnfinishedTasks (hquotas : s.Quotas) {cutoff : Int} {limit : Nat} :
    ∀ t ∈ s.getTimedOutUnfinishedTasks cutoff limit, t.quota ≠ 0 ∧ ¬ t.status.Terminal := by
  intro t ht
  unfold TaskStore.getTimedOutUnfinishedTasks at ht
  obtain ⟨hmem, hcond⟩ := List.mem_filter.1 ((List.mem_insertionSort _).1 (List.mem_of_mem_take ht))
  exact ⟨hquotas t hmem, (of_decide_eq_true hcond).2.1⟩

theorem platforms_ok {tasks : List Task} (hquotas : ∀ t ∈ tasks, t.quota ≠ 0)
    (hnodup : (tasks.map Task.id).Nodup) : Work.Ok (.platforms (groupOn Task.platform tasks)) := by
  intro g hg
  obtain ⟨platform, -, rfl⟩ := List.mem_map.1 hg
  refine ⟨fun t ht => hquotas t (List.mem_of_mem_filter ht), ?_⟩
  exact hnodup.sublist (List.filter_sublist.map _)

/-- A process goes on to its next loop. -/
theorem proceed_safe {work : Work} {rest : List Work} (hquotas : s.Quotas) (hok : p.Ok)
    (hbills : p.bills = []) (hwork : p.work = work :: rest)
    (hguard : p.Guarded env (fun i => count .store i + p.count .store i) s) :
    Safe count s p (proceed env work { p with work := rest } s) := by
  have hstores : (fun i => count .store i + p.count .store i) = count .store :=
    funext fun i => congrArg (_ + ·) (count_of_nil hbills)
  have hokWork := hok.work
  rw [hwork] at hokWork
  obtain ⟨hw, hrest⟩ := List.forall_mem_cons.1 hokWork
  have hcons : ∀ w, Work.Ok w → Ok { p with work := w :: rest } := fun w hw =>
    hok.ofWork (List.forall_mem_cons.2 ⟨hw, hrest⟩)
  unfold Guarded at hguard
  rw [hbills, hwork, hstores] at hguard
  have hdone : Safe count s p (s, { p with work := rest }) := safe_of_bills_eq hquotas (hok.ofWork hrest) rfl
  have hgoes : ∀ w, Work.Ok w → Safe count s p (s, { p with work := w :: rest }) := fun w hw =>
    safe_of_bills_eq hquotas (hcons w hw) rfl
  unfold proceed
  cases work with
  | sweepTimedOutTasks =>
    dsimp only
    split
    · exact hdone
    · exact hgoes _ (mem_getTimedOutUnfinishedTasks hquotas)
  | sweep tasks =>
    cases tasks with
    | nil => exact hdone
    | cons t tasks =>
      obtain ⟨ht, htasks⟩ := List.forall_mem_cons.1 hw
      exact (sweepTask_safe hquotas (hcons (.sweep tasks) htasks) hbills ht hguard).congr rfl
  | getAllUnFinishSyncTasks =>
    dsimp only
    split
    · exact hgoes _ (platforms_ok (List.forall_mem_nil _) List.nodup_nil)
    · obtain ⟨htasks, hnodup⟩ := mem_getAllUnFinishSyncTasks hquotas env.taskQueryLimit
      exact hgoes _ (platforms_ok htasks hnodup)
  | platforms platformTask =>
    cases platformTask with
    | nil => exact hdone
    | cons g platformTask =>
      dsimp only
      generalize g :: platformTask = platformTask at hw hguard ⊢
      cases hlook : platformTask.lookup env.platform with
      | none => exact hgoes _ hw
      | some tasks =>
        obtain ⟨before, after, heq, -⟩ := List.lookup_eq_some_iff.1 hlook
        obtain ⟨htasks, hnodup⟩ := hw (env.platform, tasks) (heq ▸ List.mem_append_right _ List.mem_cons_self)
        have hleft : Work.Ok (.platforms (platformTask.filter (·.1 ≠ env.platform))) := fun g hg =>
          hw g (List.mem_of_mem_filter hg)
        have hpoll := hguard tasks hlook
        exact (pollPlatform_safe hquotas (hcons _ hleft) hbills htasks hnodup hpoll).congr rfl
  | channels platform taskChannelM =>
    cases taskChannelM with
    | nil => exact hdone
    | cons g taskChannelM =>
      dsimp only
      generalize g :: taskChannelM = taskChannelM at hw hguard ⊢
      cases hlook : taskChannelM.lookup env.channelId with
      | none => exact hgoes _ hw
      | some taskIds =>
        have hleft := hcons (.channels platform (taskChannelM.filter (·.1 ≠ env.channelId))) trivial
        exact (pollChannel_safe hquotas hleft (hguard taskIds hlook)).congr rfl
  | video taskIds =>
    cases taskIds with
    | nil => exact hdone
    | cons upstreamId taskIds =>
      exact (updateVideoSingleTask_safe hquotas (hcons (.video taskIds) trivial) hbills hguard).congr rfl
  | suno data =>
    cases data with
    | nil => exact hdone
    | cons item data =>
      exact (updateSunoTask_safe hquotas (hcons (.suno data) trivial) hbills hguard).congr rfl
  | getByTaskId userId taskId =>
    dsimp only
    split
    · exact hdone
    next t ht =>
      refine hgoes (.realtimeFetch t) (hquotas t ?_)
      split at ht
      · cases ht
      unfold TaskStore.getByTaskId at ht
      split at ht
      · cases ht
      · exact List.mem_of_find?_eq_some ht
  | realtimeFetch t =>
    exact (tryRealtimeFetch_safe hquotas (hok.ofWork hrest) hbills hw hguard).congr rfl

theorem next_safe (hquotas : s.Quotas) (hok : p.Ok)
    (hstores : ∀ i, count .store i + p.count .store i ≠ 0 → IsOpen (s.statusOf i))
    (hguard : p.Guarded env (fun i => count .store i + p.count .store i) s) :
    Safe count s p (p.next env s) := by
  unfold next
  cases hbills : p.bills with
  | cons bill bills =>
    unfold Guarded at hguard
    rw [hbills] at hguard
    exact pay_safe hquotas hok hbills hstores hguard
  | nil =>
    cases hwork : p.work with
    | nil => exact safe_of_bills_eq hquotas hok rfl
    | cons work rest =>
      have hproceed := proceed_safe hquotas hok hbills hwork hguard
      rw [hbills] at hproceed
      exact hproceed

end

end Process

/-! ## Runs -/

namespace TaskSystem

/-- No process owes a task anything. -/
def Idle (s : TaskSystem) : Prop := ∀ p ∈ s.processes, p.bills = []

instance : DecidablePred Idle := fun s => inferInstanceAs (Decidable (∀ p ∈ s.processes, p.bills = []))

/-- Of the tasks that were open at first, one that has failed is refunded once, when no process owes it
anything, unless the sweep has failed it as a task of the old system; and one that has succeeded is settled at
most once and not refunded. -/
def BilledOnce (start s : TaskSystem) : Prop :=
  ∀ i, IsOpen (start.store.statusOf i) →
    (s.store.statusOf i = some .failure →
      s.store.refunded.count i ≤ 1 ∧
        if i ∈ s.store.legacy then s.store.refunded.count i = 0
        else s.Idle → s.store.refunded.count i = 1) ∧
      (s.store.statusOf i = some .success →
        s.store.settled.count i ≤ 1 ∧ s.store.refunded.count i = 0)

/-- A terminal status stays. -/
def KeepsTerminal (s : TaskSystem) (_ : Step) (s' : TaskSystem) : Prop :=
  ∀ i status, s.store.statusOf i = some status → status.Terminal → s'.store.statusOf i = some status

/-- The tasks have been paid for, and their accounts are sound. -/
structure Sound (start s : TaskSystem) : Prop where
  quotas : s.store.Quotas
  ok : ∀ p ∈ s.processes, p.Ok
  sound : ∀ i, (s.account i).Sound (start.store.statusOf i)

section
variable {start s : TaskSystem} {i k : Nat} {p : Process}

theorem exists_count (hget : s.processes[k]? = some p) (p' : Process) :
    ∃ count : BillKind → Nat → Nat, (∀ kind i, s.count kind i = count kind i + p.count kind i) ∧
      ∀ kind i, ((s.processes.set k p').map (Process.count kind i)).sum = count kind i + p'.count kind i := by
  obtain ⟨hlt, rfl⟩ := List.getElem?_eq_some_iff.1 hget
  obtain ⟨before, after, heq, -, hset⟩ := @List.exists_of_set _ k p' _ hlt
  have hsum : ∀ (kind : BillKind) (i : Nat) (p : Process),
      ((before ++ p :: after).map (Process.count kind i)).sum =
        (before.map (Process.count kind i)).sum + (after.map (Process.count kind i)).sum + p.count kind i := by
    intro kind i p
    rw [List.map_append, List.sum_append, List.map_cons, List.sum_cons]
    omega
  refine ⟨fun kind i => (before.map (Process.count kind i)).sum + (after.map (Process.count kind i)).sum,
    fun kind i => ?_, fun kind i => ?_⟩
  · exact (congrArg (fun l => (l.map (Process.count kind i)).sum) heq).trans (hsum kind i _)
  · rw [hset]
    exact hsum kind i p'

theorem account_start (hp : p.bills = []) (i : Nat) :
    TaskSystem.account i { s with processes := s.processes ++ [p] } = s.account i := by
  have hcount : ∀ kind, TaskSystem.count kind i { s with processes := s.processes ++ [p] } = s.count kind i := by
    intro kind
    unfold count
    dsimp only
    rw [List.map_append, List.sum_append, List.map_singleton, List.sum_singleton, Process.count_of_nil hp]
    rfl
  unfold TaskSystem.account
  simp only [hcount]

theorem ok_start {work : List Work} (h : ∀ p ∈ s.processes, p.Ok) (hwork : ∀ w ∈ work, Process.Work.Ok w) :
    ∀ p ∈ s.processes ++ [{ work := work }], p.Ok := by
  intro p hp
  rcases List.mem_append.1 hp with hp | hp
  · exact h p hp
  · rw [List.mem_singleton.1 hp]
    exact Process.ok_empty.ofWork hwork

/-- One step moves the account of every task. -/
theorem step_spec (h : Sound start s) {o : Step} (hguard : s.Guarded o) :
    (step s o).store.Quotas ∧ (∀ p ∈ (step s o).processes, p.Ok) ∧
      ∀ i, Move (s.account i) ((step s o).account i) := by
  cases o with
  | taskPollingLoop =>
    refine ⟨h.quotas, ok_start h.ok ?_, fun i => Move.stay.of_eq (account_start rfl i)⟩
    exact List.forall_mem_cons.2 ⟨trivial, List.forall_mem_singleton.2 trivial⟩
  | videoFetchById userId taskId =>
    refine ⟨h.quotas, ok_start h.ok ?_, fun i => Move.stay.of_eq (account_start rfl i)⟩
    exact List.forall_mem_singleton.2 trivial
  | run k env =>
    cases hget : s.processes[k]? with
    | none =>
      have hstep : step s (.run k env) = s := by
        unfold step
        dsimp only
        rw [hget]
      rw [hstep]
      exact ⟨h.quotas, h.ok, fun i => .stay⟩
    | some p =>
      have hstep : step s (.run k env) =
          { store := (p.next env s.store).1, processes := s.processes.set k (p.next env s.store).2 } := by
        unfold step
        dsimp only
        rw [hget]
      rw [hstep]
      have hmem : p ∈ s.processes := List.mem_of_getElem? hget
      obtain ⟨count, hcount, hset⟩ := exists_count hget (p.next env s.store).2
      have hstores : s.count .store = fun i => count .store i + p.count .store i := funext (hcount .store)
      have hnext : Process.Safe count s.store p (p.next env s.store) := by
        refine Process.next_safe h.quotas (h.ok p hmem) (fun i hne => ?_) ?_
        · rw [← hcount] at hne
          exact (h.sound i).open_of_stores hne
        · rw [← hstores]
          exact hguard p hget
      refine ⟨hnext.quotas, fun p' hp' => ?_, fun i => ?_⟩
      · rcases List.mem_or_eq_of_mem_set hp' with hp' | rfl
        · exact h.ok p' hp'
        · exact hnext.ok
      · have hmove := hnext.move i
        simp only [← hcount, ← hset] at hmove
        exact hmove

theorem Sound.step (h : Sound start s) {o : Step} (hguard : s.Guarded o) : Sound start (step s o) := by
  obtain ⟨hquotas, hok, hmove⟩ := step_spec h hguard
  exact ⟨hquotas, hok, fun i => (hmove i).sound (h.sound i)⟩

theorem Sound.billedOnce (h : Sound start s) : BilledOnce start s := by
  intro i hopen
  have hpaid := (h.sound i).paid hopen
  have hrefunds : (s.account i).refunds = s.store.refunded.count i + s.count .refund i := rfl
  have hsettles : (s.account i).settles = s.store.settled.count i + s.count .settle i := rfl
  have hlegacy : (s.account i).legacy = s.store.legacy.count i := rfl
  refine ⟨fun hfailure => ?_, fun hsuccess => ?_⟩
  · have hone := hpaid.of_failure hfailure
    rw [hrefunds, hlegacy] at hone
    refine ⟨by omega, ?_⟩
    split
    next hmem =>
      have hpos := List.count_pos_iff.2 hmem
      omega
    next hmem =>
      intro hidle
      have hzero : s.count .refund i = 0 := by
        refine List.sum_eq_zero fun n hn => ?_
        obtain ⟨p, hp, rfl⟩ := List.mem_map.1 hn
        exact Process.count_of_nil (hidle p hp)
      rw [List.count_eq_zero.2 hmem, hzero] at hone
      exact hone
  · obtain ⟨hzero, hone⟩ := hpaid.of_success hsuccess
    rw [hrefunds] at hzero
    rw [hsettles] at hone
    exact ⟨by omega, by omega⟩

theorem sound_start (hprocesses : s.processes = []) (hrefunded : s.store.refunded = [])
    (hsettled : s.store.settled = []) (hlegacy : s.store.legacy = []) (hquotas : s.store.Quotas) :
    Sound s s := by
  have hcount : ∀ kind i, s.count kind i = 0 := by
    intro kind i
    unfold count
    rw [hprocesses]
    rfl
  refine ⟨hquotas, ?_, fun i => ⟨fun hopen => .opened hopen ?_ ?_ ?_ ?_, fun _ => ⟨hcount .store i, rfl⟩⟩⟩
  · rw [hprocesses]
    exact List.forall_mem_nil _
  · show s.store.refunded.count i + s.count .refund i = s.count .store i
    rw [hrefunded, hcount, hcount]
    rfl
  · show s.count .store i ≤ 1
    rw [hcount]
    exact Nat.zero_le 1
  · show s.store.settled.count i + s.count .settle i = 0
    rw [hsettled, hcount]
    rfl
  · show s.store.legacy.count i = 0
    rw [hlegacy]
    rfl

/-- In every run of guarded steps, tasks are billed once, and terminal statuses stay. -/
theorem billedOnce_of_guarded (hprocesses : start.processes = []) (hrefunded : start.store.refunded = [])
    (hsettled : start.store.settled = []) (hlegacy : start.store.legacy = []) (hquotas : start.store.Quotas)
    {steps : List Step} (hguarded : Run.Meets step Guarded start steps) :
    Run.Holds step (BilledOnce start) start steps ∧ Run.Always step KeepsTerminal start steps := by
  have hsound := sound_start hprocesses hrefunded hsettled hlegacy hquotas
  have hstep : ∀ s o, Sound start s → Guarded s o → Sound start (step s o) := fun _ _ h hguard => h.step hguard
  refine ⟨hguarded.holds hstep (fun _ h => h.billedOnce) hsound, hguarded.always hstep ?_ hsound⟩
  intro s o h hguard i status hstatus hterminal
  exact ((step_spec h hguard).2.2 i).status_eq (h.sound i) hstatus hterminal

end

/-! ### Rounds over one task -/

def oneTask (t : Task) : TaskSystem := { store := { tasks := ⟨[t], List.nodup_singleton _⟩ } }

/-- A video task under way. -/
def running : Task :=
  { id := 1, taskId := "task_1", platform := "kling", userId := 7, channelId := 3, quota := 500
    status := .inProgress, submitTime := 1800000000, upstreamTaskId := "u1" }

/-- A round in which its upstream reports that it has failed. -/
def upstreamFails : List Step :=
  [.taskPollingLoop, .run 0 {}, .run 0 { taskQueryLimit := 10 }, .run 0 { platform := "kling" },
    .run 0 { channelId := 3 },
    .run 0 { video := some (.info { status := .failure, reason := "bad" }, "\x7b\x7d") }, .run 0 {}]

theorem billedOnce_upstreamFails :
    Run.Holds step (BilledOnce (oneTask running)) (oneTask running) upstreamFails ∧
      Run.Always step KeepsTerminal (oneTask running) upstreamFails := by
  refine billedOnce_of_guarded rfl rfl rfl rfl ?_ ?_
  · intro t ht
    rw [List.mem_singleton.1 ht]
    decide
  · refine ⟨?_, ?_, ?_, ?_, ?_, ?_, ?_, trivial⟩
    all_goals decide +kernel

/-- A round that does not find its channel. -/
def channelMissing : List Step :=
  [.taskPollingLoop, .run 0 {}, .run 0 { taskQueryLimit := 10 }, .run 0 { platform := "kling" },
    .run 0 { channelId := 3, channelFound := false }]

/-- A round that sweeps it after an hour. -/
def sweeps : List Step :=
  [.taskPollingLoop, .run 0 { now := 1900000000, taskTimeoutMinutes := 60 },
    .run 0 { now := 1900000000, taskTimeoutMinutes := 60 }]

/-- A user's fetch, where the upstream reports a success. -/
def userFetches : List Step :=
  [.videoFetchById 7 "task_1", .run 0 {}, .run 0 { realtime := some { status := .success } }]

/-- A task that was open at first and has failed has been refunded once, when no process owes it anything. -/
def RefundedOnce (start s : TaskSystem) : Prop :=
  ∀ i, IsOpen (start.store.statusOf i) → s.store.statusOf i = some .failure → s.Idle →
    s.store.refunded.count i = 1

/-- A swept task of the old system and a task whose channel is missing are not refunded, and a user's fetch
changes a terminal status. -/
theorem not_refundedOnce :
    ¬ Run.Holds step (RefundedOnce (oneTask { running with submitTime := 1700000000 }))
        (oneTask { running with submitTime := 1700000000 }) sweeps ∧
      ¬ Run.Holds step (RefundedOnce (oneTask running)) (oneTask running) channelMissing ∧
      ¬ Run.Always step KeepsTerminal (oneTask { running with status := .failure }) userFetches := by
  refine ⟨fun hholds => ?_, fun hholds => ?_, fun halways => ?_⟩
  · exact absurd (hholds.last 1 (by decide) (by decide +kernel) (by decide +kernel)) (by decide +kernel)
  · exact absurd (hholds.last 1 (by decide) (by decide +kernel) (by decide +kernel)) (by decide +kernel)
  · have hkept := halways.2.2.1 1 .failure (by decide +kernel) (.inl rfl)
    exact absurd hkept (by decide +kernel)

end TaskSystem

end NewApi

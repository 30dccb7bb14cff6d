import NewApi.Lib.GoString
import NewApi.Lib.Table
import Mathlib.Data.List.Sort
import Mathlib.Data.List.Dedup

/-!
# Asynchronous tasks

A task is paid for when it is submitted. A loop polls the upstreams for the tasks that are not finished, fails
those that take too long, refunds the ones that fail and settles the ones that succeed; a user who asks for
a task may have its upstream asked too. The loops and requests run at the same time over one table, and each
of their steps is one statement on it, with what is computed before. What an upstream answers, the time, the
order of the maps and whether a statement fails come with the step.
-/

namespace NewApi

/-- `TaskStatus`: the named ones, and what else an upstream may report. -/
inductive TaskStatus
  | notStart
  | submitted
  | queued
  | inProgress
  | failure
  | success
  | unknown
  | other (status : String)
deriving DecidableEq

/-- A task that is terminal is not polled. -/
def TaskStatus.Terminal (status : TaskStatus) : Prop := status = .failure ∨ status = .success

instance : DecidablePred TaskStatus.Terminal := fun _ => inferInstanceAs (Decidable (_ ∨ _))

/-- A `Task`. The upstream's id and the result's address are of its `PrivateData`. -/
structure Task where
  id : Nat
  taskId : String := ""
  platform : String := ""
  userId : Nat := 0
  channelId : Nat := 0
  quota : Int := 0
  status : TaskStatus := .notStart
  failReason : String := ""
  submitTime : Int := 0
  startTime : Int := 0
  finishTime : Int := 0
  progress : String := ""
  upstreamTaskId : String := ""
  resultUrl : String := ""
  data : String := ""
deriving DecidableEq

namespace Task

/-- `GetUpstreamTaskID`. -/
def getUpstreamTaskId (t : Task) : String :=
  if t.upstreamTaskId ≠ "" then t.upstreamTaskId else t.taskId

/-- `Snapshot`. -/
def snapshot (t : Task) : TaskStatus × String × Int × Int × String × String × String :=
  (t.status, t.progress, t.startTime, t.finishTime, t.failReason, t.resultUrl, t.data)

end Task

/-! ## The store -/

/-- The table of tasks, and the ids of the tasks that have been refunded (`RefundTaskQuota`), settled
(`settleTaskBillingOnComplete`), and failed by the sweep without a refund. -/
structure TaskStore where
  tasks : Table Task.id
  refunded : List Nat := []
  settled : List Nat := []
  legacy : List Nat := []

/-- All columns but the key are written. -/
def Task.overwrite (t old : Task) : Task := { t with id := old.id }

theorem Task.overwrite_id (t old : Task) : (t.overwrite old).id = old.id := rfl

/-- What `TaskBulkUpdateByID` writes here. -/
def Task.failWith (failReason : String) (t : Task) : Task :=
  { t with status := .failure, progress := "100%", failReason := failReason }

theorem Task.failWith_id (failReason : String) (t : Task) : (t.failWith failReason).id = t.id := rfl

namespace TaskStore

/-- `GetTimedOutUnfinishedTasks`. -/
def getTimedOutUnfinishedTasks (cutoffUnix : Int) (limit : Nat) (s : TaskStore) : List Task :=
  ((s.tasks.rows.filter fun t =>
    t.progress ≠ "100%" ∧ ¬ t.status.Terminal ∧ t.submitTime < cutoffUnix).insertionSort
      fun a b => a.submitTime ≤ b.submitTime).take limit

/-- `GetAllUnFinishSyncTasks`. -/
def getAllUnFinishSyncTasks (limit : Nat) (s : TaskStore) : List Task :=
  (s.tasks.rows.filter fun t => t.progress ≠ "100%" ∧ ¬ t.status.Terminal).take limit

/-- `GetByTaskId`. -/
def getByTaskId (userId : Nat) (taskId : String) (s : TaskStore) : Option Task :=
  if taskId = "" then none else s.tasks.rows.find? fun t => t.userId = userId ∧ t.taskId = taskId

/-- `UpdateWithStatus`: the store after an update that has won. -/
def updateWithStatus (fails : Bool) (t : Task) (fromStatus : TaskStatus) (s : TaskStore) :
    Option TaskStore :=
  if fails then none
  else if (s.tasks.get? t.id).map Task.status = some fromStatus then
    some { s with tasks := s.tasks.modify t.id t.overwrite t.overwrite_id }
  else none

/-- `Update`, which is a `Save`. -/
def update (fails : Bool) (t : Task) (s : TaskStore) : TaskStore :=
  if fails then s
  else if (s.tasks.get? t.id).isSome then
    { s with tasks := s.tasks.modify t.id t.overwrite t.overwrite_id }
  else { s with tasks := s.tasks.insertNew t }

/-- `TaskBulkUpdateByID`. -/
def taskBulkUpdateById (ids : List Nat) (failReason : String) (s : TaskStore) : TaskStore :=
  { s with tasks := s.tasks.modifyWhere (·.id ∈ ids) (Task.failWith failReason) (Task.failWith_id failReason) }

/-- `RefundTaskQuota`, which stops where the funding cannot be adjusted. -/
def refundTaskQuota (fails : Bool) (t : Task) (s : TaskStore) : TaskStore :=
  if t.quota = 0 ∨ fails then s else { s with refunded := t.id :: s.refunded }

end TaskStore

/-! ## What comes with a step -/

/-- A `TaskInfo` of an adaptor. -/
structure TaskInfo where
  status : TaskStatus
  url : String := ""
  progress : String := ""
  reason : String := ""

/-- `FailTaskInfo`. -/
def failTaskInfo (reason : String) : TaskInfo := { status := .failure, reason := reason }

/-- What an upstream answers for a video task. Where the status is missing, the answer is an error or not, with
its code, or nothing that can be read. -/
inductive VideoAnswer
  | info (taskResult : TaskInfo)
  | openAIError (code : String)
  | unrecognized
  | unreadable

/-- A `SunoDataResponse`. -/
structure SunoDataResponse where
  taskId : String
  status : TaskStatus
  failReason : String := ""
  submitTime : Int := 0
  startTime : Int := 0
  finishTime : Int := 0
  data : String := ""

/-- What a step meets: the time, whether its statement fails, and the rest by the kind of the step. -/
structure Env where
  now : Int := 0
  fails : Bool := false
  /-- `constant.TaskTimeoutMinutes`. -/
  taskTimeoutMinutes : Int := 0
  /-- `constant.TaskQueryLimit`. -/
  taskQueryLimit : Nat := 0
  /-- The next key of a map. -/
  platform : String := ""
  channelId : Nat := 0
  /-- The channel is found. -/
  channelFound : Bool := true
  /-- The answer for a batch of Suno tasks, where there is one. -/
  suno : Option (List SunoDataResponse) := none
  /-- The answer for a video task and its body, where there is one. -/
  video : Option (VideoAnswer × String) := none
  /-- The answer for a task that a user asks for, where there is one. -/
  realtime : Option TaskInfo := none
  /-- What the task costs at last, where that is positive. -/
  actualQuota : Int := 0
  /-- `system_setting.ServerAddress`. -/
  serverAddress : String := ""

/-- `BuildProxyURL`. -/
def Env.buildProxyUrl (taskId : String) (env : Env) : String :=
  env.serverAddress ++ "/v1/videos/" ++ taskId ++ "/content"

/-! ## The processes -/

/-- What a process does with a task before it goes on. -/
inductive Bill
  /-- `RefundTaskQuota`. -/
  | refund (t : Task)
  /-- `settleTaskBillingOnComplete`, for the task under an upstream's id. -/
  | settle (upstreamId : String) (t : Task)
  /-- `Update`. -/
  | save (t : Task)

/-- Where a process is: the loops that it is in, the innermost first. -/
inductive Work
  /-- `sweepTimedOutTasks`, before its query. -/
  | sweepTimedOutTasks
  | sweep (tasks : List Task)
  /-- The query of `TaskPollingLoop`. -/
  | getAllUnFinishSyncTasks
  | platforms (platformTask : List (String × List Task))
  | channels (platform : String) (taskChannelM : List (Nat × List String))
  | video (taskIds : List String)
  | suno (data : List SunoDataResponse)
  /-- `tryRealtimeFetch`, with the query before it. -/
  | getByTaskId (userId : Nat) (taskId : String)
  | realtimeFetch (t : Task)

/-- A process. The tasks that a round has read are kept by the upstream's ids, and are written in place. -/
structure Process where
  bills : List Bill := []
  taskM : List (String × Task) := []
  work : List Work := []

/-- The lists of a map by a key. -/
def groupOn {α κ : Type} [DecidableEq κ] (key : α → κ) (l : List α) : List (κ × List α) :=
  (l.map key).dedup.map fun k => (k, l.filter (key · = k))

/-- `m[k] = v`. -/
def assignTask (upstreamId : String) (t : Task) (taskM : List (String × Task)) : List (String × Task) :=
  (upstreamId, t) :: taskM.filter (·.1 ≠ upstreamId)

namespace Process

/-- The fail reason of a task that is swept. -/
def sweepReason (isLegacy : Bool) (env : Env) : String :=
  if isLegacy then "任务超时（旧系统遗留任务，不进行退款，请联系管理员）"
  else "任务超时（" ++ toString env.taskTimeoutMinutes ++ "分钟）"

/-- `legacyTaskCutoff`. -/
def legacyTaskCutoff : Int := 1740182400

/-- The task is of the old system. -/
def IsLegacy (t : Task) : Prop := 0 < t.submitTime ∧ t.submitTime < legacyTaskCutoff

instance : DecidablePred IsLegacy := fun _ => inferInstanceAs (Decidable (_ ∧ _))

/-- A task that is swept. -/
def swept (env : Env) (t : Task) : Task :=
  { t with
    status := .failure
    progress := "100%"
    finishTime := env.now
    failReason := sweepReason (IsLegacy t) env }

/-- The refund of a task that has a quota. -/
def refundIf (t : Task) : List Bill := if t.quota ≠ 0 then [.refund t] else []

/-- The body of the loop of `sweepTimedOutTasks`. -/
def sweepTask (env : Env) (t : Task) (p : Process) (s : TaskStore) : TaskStore × Process :=
  match s.updateWithStatus env.fails (swept env t) t.status with
  | none => (s, p)
  | some s =>
    if IsLegacy t then ({ s with legacy := t.id :: s.legacy }, p)
    else (s, { p with bills := refundIf (swept env t) })

/-- The body of the loop over platforms, to `DispatchPlatformUpdate`: the tasks that have no upstream's id
are failed and refunded, and the others are kept for the channels. -/
def pollPlatform (env : Env) (platform : String) (tasks : List Task) (p : Process) (s : TaskStore) :
    TaskStore × Process :=
  let nullTasks := tasks.filter (·.getUpstreamTaskId = "")
  let found := tasks.filter (·.getUpstreamTaskId ≠ "")
  let p := { p with
    taskM := found.foldl (fun taskM t => assignTask t.getUpstreamTaskId t taskM) []
    work := .channels platform
      ((groupOn Task.channelId found).map fun g => (g.1, g.2.map Task.getUpstreamTaskId)) :: p.work }
  if nullTasks = [] ∨ env.fails then (s, p)
  else
    (s.taskBulkUpdateById (nullTasks.map Task.id) "任务提交失败（无上游任务ID）",
      { p with bills := nullTasks.flatMap refundIf })

/-- The beginning of `updateSunoTasks` or `updateVideoTasks`, to the loop over the tasks. -/
def pollChannel (env : Env) (platform : String) (channelId : Nat) (taskIds : List String) (p : Process)
    (s : TaskStore) : TaskStore × Process :=
  if platform = "mj" then (s, p)
  else if ¬ env.channelFound then
    let failedIds := taskIds.filterMap fun upstreamId => (p.taskM.lookup upstreamId).map Task.id
    let failReason :=
      if platform = "suno" then "获取渠道信息失败，请联系管理员，渠道ID：" ++ toString channelId
      else "Failed to get channel info, channel ID: " ++ toString channelId
    (if env.fails then s else s.taskBulkUpdateById failedIds failReason, p)
  else if platform = "suno" then
    match env.suno with
    | none => (s, p)
    | some data => (s, { p with work := .suno data :: p.work })
  else (s, { p with work := .video taskIds :: p.work })

/-- `taskNeedsUpdate`. -/
def taskNeedsUpdate (oldTask : Task) (newTask : SunoDataResponse) : Bool :=
  oldTask.submitTime ≠ newTask.submitTime ∨ oldTask.startTime ≠ newTask.startTime ∨
    oldTask.finishTime ≠ newTask.finishTime ∨ oldTask.status ≠ newTask.status ∨
    oldTask.failReason ≠ newTask.failReason ∨
    oldTask.status.Terminal ∧ oldTask.progress ≠ "100%" ∨
    ¬ (oldTask.data.toUTF8.data.toList.Perm newTask.data.toUTF8.data.toList)

/-- What `updateSunoTasks` writes into a task. -/
def sunoTask (item : SunoDataResponse) (t : Task) : Task :=
  let status := if item.status ≠ .other "" then item.status else t.status
  { t with
    status := status
    failReason := if item.failReason ≠ "" then item.failReason else t.failReason
    submitTime := if item.submitTime ≠ 0 then item.submitTime else t.submitTime
    startTime := if item.startTime ≠ 0 then item.startTime else t.startTime
    finishTime := if item.finishTime ≠ 0 then item.finishTime else t.finishTime
    progress :=
      if item.failReason ≠ "" ∨ status = .failure ∨ item.status = .success then "100%" else t.progress
    data := item.data }

/-- `updateSunoTasks` refunds a task. -/
def SunoRefunds (item : SunoDataResponse) (t : Task) : Prop :=
  item.failReason ≠ "" ∨ (sunoTask item t).status = .failure

instance (item : SunoDataResponse) (t : Task) : Decidable (SunoRefunds item t) :=
  inferInstanceAs (Decidable (_ ∨ _))

/-- The body of the loop of `updateSunoTasks`: a task is refunded before it is stored. -/
def updateSunoTask (item : SunoDataResponse) (p : Process) : Process :=
  match p.taskM.lookup item.taskId with
  -- a task that has not been asked for is a nil pointer
  | none => { bills := [], taskM := [], work := [] }
  | some t =>
    if taskNeedsUpdate t item then
      let t' := sunoTask item t
      { p with
        taskM := assignTask item.taskId t' p.taskM
        bills := (if SunoRefunds item t then [.refund t'] else []) ++ [.save t'] }
    else p

/-- The result of an answer for a video task; none where the upstream is asked too often. -/
def VideoAnswer.taskResult : VideoAnswer → Option TaskInfo
  | .info taskResult => some taskResult
  | .openAIError code =>
    if code = "429" then none else some (failTaskInfo "upstream returned error")
  | .unrecognized => some (failTaskInfo "upstream returned unrecognized message")
  | .unreadable => some { status := .other "" }

/-- What `updateVideoSingleTask` writes into a task, and whether it goes on to the table. -/
def videoTask (env : Env) (answer : VideoAnswer) (body : String) (t : Task) : Task × Bool :=
  let t := { t with data := body }
  match VideoAnswer.taskResult answer with
  | none => (t, false)
  | some r =>
    let t := { t with status := r.status }
    let reported (progress : String) (t : Task) : Task × Bool :=
      ({ t with progress := if r.progress ≠ "" then r.progress else progress }, true)
    match r.status with
    | .submitted => reported "10%" t
    | .queued => reported "20%" t
    | .inProgress =>
      reported "30%" { t with startTime := if t.startTime = 0 then env.now else t.startTime }
    | .success =>
      reported "100%" { t with
        finishTime := if t.finishTime = 0 then env.now else t.finishTime
        resultUrl :=
          if GoString.hasPrefix r.url "data:" then env.buildProxyUrl t.taskId
          else if r.url ≠ "" then r.url
          else env.buildProxyUrl t.taskId }
    | .failure =>
      ({ t with
        finishTime := if t.finishTime = 0 then env.now else t.finishTime
        failReason := r.reason
        progress := "100%" }, true)
    | .notStart | .unknown | .other _ => (t, false)

/-- What a finished video task is owed. -/
def videoBills (upstreamId : String) (t : Task) : List Bill :=
  if t.status = .success then [.settle upstreamId t]
  else if t.status = .failure then refundIf t
  else []

/-- `updateVideoSingleTask`. -/
def updateVideoSingleTask (env : Env) (upstreamId : String) (p : Process) (s : TaskStore) :
    TaskStore × Process :=
  match p.taskM.lookup upstreamId, env.video with
  | some t, some (answer, body) =>
    let (t', goesOn) := videoTask env answer body t
    let p := { p with taskM := assignTask upstreamId t' p.taskM }
    if ¬ goesOn then (s, p)
    else if t'.status.Terminal ∧ t.status ≠ t'.status then
      match s.updateWithStatus env.fails t' t.status with
      | none => (s, p)
      | some s => (s, { p with bills := videoBills upstreamId t' })
    else
      let s := if t.snapshot ≠ t'.snapshot then (s.updateWithStatus env.fails t' t.status).getD s else s
      (s, { p with bills := videoBills upstreamId t' })
  | _, _ => (s, p)

/-- What `tryRealtimeFetch` writes into a task. -/
def realtimeTask (env : Env) (r : TaskInfo) (t : Task) : Task :=
  let status := if r.status ≠ .other "" then r.status else t.status
  { t with
    status := status
    progress := if r.progress ≠ "" then r.progress else t.progress
    resultUrl :=
      if GoString.hasPrefix r.url "data:" then t.resultUrl
      else if r.url ≠ "" then r.url
      else if status = .success then env.buildProxyUrl t.taskId
      else t.resultUrl }

/-- `tryRealtimeFetch`. -/
def tryRealtimeFetch (env : Env) (t : Task) (s : TaskStore) : TaskStore :=
  match env.realtime with
  | none => s
  | some r =>
    let t' := realtimeTask env r t
    if t.snapshot ≠ t'.snapshot then (s.updateWithStatus env.fails t' t.status).getD s else s

/-- One bill. -/
def pay (env : Env) (bill : Bill) (p : Process) (s : TaskStore) : TaskStore × Process :=
  match bill with
  | .refund t => (s.refundTaskQuota env.fails t, p)
  | .settle upstreamId t =>
    ({ s with settled := t.id :: s.settled },
      if 0 < env.actualQuota ∧ ¬ env.fails then
        { p with taskM := assignTask upstreamId { t with quota := env.actualQuota } p.taskM }
      else p)
  | .save t => (s.update env.fails t, p)

/-- What a process without bills does next. -/
def proceed (env : Env) (work : Work) (p : Process) (s : TaskStore) : TaskStore × Process :=
  match work with
  | .sweepTimedOutTasks =>
    let cutoff := env.now - env.taskTimeoutMinutes * 60
    if env.taskTimeoutMinutes ≤ 0 ∨ env.fails then (s, p)
    else (s, { p with work := .sweep (s.getTimedOutUnfinishedTasks cutoff 100) :: p.work })
  | .sweep [] => (s, p)
  | .sweep (t :: tasks) => sweepTask env t { p with work := .sweep tasks :: p.work } s
  | .getAllUnFinishSyncTasks =>
    let allTasks := if env.fails then [] else s.getAllUnFinishSyncTasks env.taskQueryLimit
    (s, { p with work := .platforms (groupOn Task.platform allTasks) :: p.work })
  | .platforms [] => (s, p)
  | .platforms platformTask =>
    match platformTask.lookup env.platform with
    | none => (s, { p with work := .platforms platformTask :: p.work })
    | some tasks =>
      let rest := platformTask.filter (·.1 ≠ env.platform)
      pollPlatform env env.platform tasks { p with work := .platforms rest :: p.work } s
  | .channels _ [] => (s, p)
  | .channels platform taskChannelM =>
    match taskChannelM.lookup env.channelId with
    | none => (s, { p with work := .channels platform taskChannelM :: p.work })
    | some taskIds =>
      let rest := taskChannelM.filter (·.1 ≠ env.channelId)
      pollChannel env platform env.channelId taskIds { p with work := .channels platform rest :: p.work } s
  | .video [] => (s, p)
  | .video (upstreamId :: taskIds) =>
    updateVideoSingleTask env upstreamId { p with work := .video taskIds :: p.work } s
  | .suno [] => (s, p)
  | .suno (item :: data) => (s, updateSunoTask item { p with work := .suno data :: p.work })
  | .getByTaskId userId taskId =>
    match (if env.fails then none else s.getByTaskId userId taskId) with
    | none => (s, p)
    | some t => (s, { p with work := .realtimeFetch t :: p.work })
  | .realtimeFetch t => (tryRealtimeFetch env t s, p)

/-- The next step of a process. -/
def next (env : Env) (p : Process) (s : TaskStore) : TaskStore × Process :=
  match p.bills, p.work with
  | bill :: bills, _ => pay env bill { p with bills := bills } s
  | [], work :: rest => proceed env work { p with work := rest } s
  | [], [] => (s, p)

end Process

/-! ## The system -/

/-- The store, and the processes that have started. -/
structure TaskSystem where
  store : TaskStore
  processes : List Process := []

namespace TaskSystem

/-- A step: a round of `TaskPollingLoop` starts, a user asks for a task, or a process goes on. -/
inductive Step
  | taskPollingLoop
  | videoFetchById (userId : Nat) (taskId : String)
  | run (k : Nat) (env : Env)

def step (s : TaskSystem) : Step → TaskSystem
  | .taskPollingLoop =>
    { s with
      processes := s.processes ++ [{ work := [.sweepTimedOutTasks, .getAllUnFinishSyncTasks] }] }
  | .videoFetchById userId taskId =>
    { s with processes := s.processes ++ [{ work := [.getByTaskId userId taskId] }] }
  | .run k env =>
    match s.processes[k]? with
    | none => s
    | some p => { store := (p.next env s.store).1, processes := s.processes.set k (p.next env s.store).2 }

end TaskSystem

end NewApi

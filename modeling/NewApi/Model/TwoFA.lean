import NewApi.Lib.GoString
import NewApi.Lib.Procs

/-!
# Two-factor logins

`ValidateTOTPAndUpdateUsage` and `ValidateBackupCodeAndUpdateUsage` work on a copy of the user's row that the
caller has read before. They refuse a locked copy, evaluate the code, and save the whole copy: with one more failed
attempt and, from `MaxFailAttempts` on, a lock, or with the count and the lock reset. A backup code is found in a
read of the unused ones, and marked as used by a save of the whole row that was found.

No save looks at what has happened since its read. Two calls that find a backup code before either of them saves
it are both accepted, and any number of calls that have read the row before the first of them saves it evaluate a
wrong code each (`twoFA_unsafe`). In a run in which codes are evaluated on a copy that still is the stored row, with
no other call between its evaluation and its last save, and in which every failed attempt is saved, each backup code
is accepted at most once and the lock holds (`twoFA_safe`).
-/

namespace NewApi.TwoFactor

open Run Procs

/-- What is not in the repository: `totp.Validate` of a code and a secret at a time, the comparison of a text with
its hash, and the tables of `strings.ToUpper`. -/
structure Library where
  totpValidate : String → String → ℕ → Bool
  validatePasswordAndHash : String → String → Bool
  toUpper : String → String

def maxFailAttempts : ℕ := 5

/-- `LockoutDuration` in nanoseconds, the unit of all times here. -/
def lockoutDuration : ℕ := 300 * 1000000000

structure TwoFA where
  id : ℕ
  userId : ℕ
  secret : String
  failedAttempts : ℕ := 0
  lockedUntil : Option ℕ := none
  lastUsedAt : Option ℕ := none
deriving DecidableEq

structure TwoFABackupCode where
  userId : ℕ
  codeHash : String
  isUsed : Bool := false
  usedAt : Option ℕ := none
deriving DecidableEq

section
variable (lib : Library)

/-- `common.ValidateTOTPCode`. -/
def validateTOTPCode (secret code : String) (now : ℕ) : Bool :=
  let cleanCode := String.ofList (code.toList.filter (· ≠ ' '))
  if cleanCode.utf8ByteSize ≠ 6 then false else lib.totpValidate cleanCode secret now

/-- The text without `-`, in capitals. -/
def cleanBackupCode (code : String) : String := lib.toUpper (String.ofList (code.toList.filter (· ≠ '-')))

/-- `common.ValidateBackupCode`. -/
def validateBackupCode (code : String) : Bool :=
  let cleanCode := cleanBackupCode lib code
  cleanCode.utf8ByteSize = 8 && cleanCode.toList.all fun c => 'A' ≤ c && c ≤ 'Z' || '0' ≤ c && c ≤ '9'

/-- `common.NormalizeBackupCode` of a code that is valid, so that its bytes are its characters. -/
def normalizeBackupCode (code : String) : String :=
  let cleanCode := cleanBackupCode lib code
  if cleanCode.utf8ByteSize = 8 then
    String.ofList (cleanCode.toList.take 4 ++ '-' :: cleanCode.toList.drop 4)
  else code

end

namespace TwoFA

variable (t : TwoFA) (now : ℕ)

def isLocked : Bool :=
  match t.lockedUntil with
  | none => false
  | some lockedUntil => now < lockedUntil

/-- `IncrementFailedAttempts`, before it saves. -/
def incrementFailedAttempts : TwoFA :=
  if t.failedAttempts + 1 ≥ maxFailAttempts then
    { t with failedAttempts := t.failedAttempts + 1, lockedUntil := some (now + lockoutDuration) }
  else { t with failedAttempts := t.failedAttempts + 1 }

/-- What is saved after a success. -/
def updateUsage : TwoFA := { t with failedAttempts := 0, lockedUntil := none, lastUsedAt := some now }

end TwoFA

/-- What a run has shown so far: a wrong code was evaluated at a time, a right one was, or a call has returned
success, for a backup code with the place of the code. -/
inductive Event
  | wrong (now : ℕ)
  | right (now : ℕ)
  | success (backupCode : Option ℕ)
deriving DecidableEq

/-- The clock, the user's row, the backup codes, and the events, the newest one first. -/
structure Shared where
  clock : ℕ
  twoFA : TwoFA
  backupCodes : List TwoFABackupCode
  log : List Event := []

namespace Shared

variable (s : Shared)

def tick (elapsed : ℕ) : Shared := { s with clock := s.clock + elapsed }

def record (e : Event) : Shared := { s with log := e :: s.log }

/-- `Update`, which the database may fail. -/
def update (t : TwoFA) (fails : Bool) : Shared := if t.id = 0 ∨ fails then s else { s with twoFA := t }

@[simp] theorem update_clock (t : TwoFA) (fails : Bool) : (s.update t fails).clock = s.clock := by
  unfold update
  split <;> rfl

@[simp] theorem update_backupCodes (t : TwoFA) (fails : Bool) : (s.update t fails).backupCodes = s.backupCodes := by
  unfold update
  split <;> rfl

@[simp] theorem update_log (t : TwoFA) (fails : Bool) : (s.update t fails).log = s.log := by
  unfold update
  split <;> rfl

/-- The first unused code of the user that the text is right for, with its place in the table. -/
def findBackupCode (lib : Library) (userId : ℕ) (normalizedCode : String) : Option (TwoFABackupCode × ℕ) :=
  (s.backupCodes.zipIdx.filter fun bc => bc.1.userId = userId && !bc.1.isUsed).find? fun bc =>
    lib.validatePasswordAndHash normalizedCode bc.1.codeHash

def saveUsed (i : ℕ) (bc : TwoFABackupCode) : Shared :=
  { s with backupCodes := s.backupCodes.set i { bc with isUsed := true, usedAt := some s.clock } }

end Shared

inductive Result
  | failed
  | refused
  | rejected
  | accepted
deriving DecidableEq

/-- The statement that a call is at, with its copy of the row. A copy that is not locked is `checked`; a wrong code
is counted in the copy (`counting`), and the copy is saved; a backup code that is right (`matched`) is saved before
the copy is (`accepting`). -/
inductive Phase
  | start
  | loaded (t : TwoFA)
  | checked (t : TwoFA)
  | counting (t : TwoFA)
  | saving (t : TwoFA)
  | matched (t : TwoFA) (i : ℕ) (bc : TwoFABackupCode)
  | accepting (t : TwoFA) (backupCode : Option ℕ)
  | done (result : Result)
deriving DecidableEq

/-- Which of the two functions is called, and with which code. -/
inductive Attempt
  | totp (code : String)
  | backup (code : String)
deriving DecidableEq

structure Call where
  attempt : Attempt
  phase : Phase := .start
deriving DecidableEq

def Call.goto (c : Call) (phase : Phase) : Call := { c with phase := phase }

@[simp] theorem Call.goto_phase (c : Call) (phase : Phase) : (c.goto phase).phase = phase := rfl

/-- The time that has passed since the last statement, and whether the database fails this one. -/
structure Env where
  elapsed : ℕ := 0
  fails : Bool := false

section
variable (lib : Library)

/-- The validation of the code, for a copy that is not locked. -/
def evaluate (s : Shared) (c : Call) (t : TwoFA) (fails : Bool) : Shared × Call :=
  match c.attempt with
  | .totp code =>
    if validateTOTPCode lib t.secret code s.clock then (s.record (.right s.clock), c.goto (.accepting t none))
    else (s.record (.wrong s.clock), c.goto (.counting t))
  | .backup code =>
    -- the errors of `ValidateBackupCode` are not counted
    if validateBackupCode lib code = false ∨ fails then (s, c.goto (.done .failed))
    else
      match s.findBackupCode lib t.userId (normalizeBackupCode lib code) with
      | some bc => (s.record (.right s.clock), c.goto (.matched t bc.2 bc.1))
      | none => (s.record (.wrong s.clock), c.goto (.counting t))

/-- The next statement of a call. A copy that cannot be saved is only logged. -/
def statement (s : Shared) (c : Call) (fails : Bool) : Shared × Call :=
  match c.phase with
  | .start => if fails then (s, c.goto (.done .failed)) else (s, c.goto (.loaded s.twoFA))
  | .loaded t => if t.isLocked s.clock then (s, c.goto (.done .refused)) else (s, c.goto (.checked t))
  | .checked t => evaluate lib s c t fails
  | .counting t => (s, c.goto (.saving (t.incrementFailedAttempts s.clock)))
  | .saving t => (s.update t fails, c.goto (.done .rejected))
  | .matched t i bc =>
    if fails then (s, c.goto (.done .failed)) else (s.saveUsed i bc, c.goto (.accepting t (some i)))
  | .accepting t backupCode =>
    ((s.update (t.updateUsage s.clock) fails).record (.success backupCode), c.goto (.done .accepted))
  | .done _ => (s, c)

def prog (s : Shared) (c : Call) (env : Env) : Shared × Call := statement lib (s.tick env.elapsed) c env.fails

abbrev State := Procs Shared Call

/-- A call is made, or takes its next statement. -/
def step : State → Act Attempt Env → State := Procs.step (fun attempt => { attempt }) (prog lib)

end

/-! ## What the calls are for -/

/-- The times of the wrong codes since the last success. -/
def wrongs : List Event → List ℕ
  | [] => []
  | .wrong now :: l => now :: wrongs l
  | .right _ :: l => wrongs l
  | .success _ :: _ => []

def Event.evaluated : Event → Option ℕ
  | .wrong now | .right now => some now
  | .success _ => none

def Event.accepted : Event → Option ℕ
  | .success backupCode => backupCode
  | .wrong _ | .right _ => none

/-- No code is evaluated within the lockout time after a wrong one, once there have been `MaxFailAttempts` of them
since the last success. -/
def Limited : List Event → Prop
  | [] => True
  | e :: l => (∀ now ∈ e.evaluated, maxFailAttempts ≤ (wrongs l).length →
      ∀ last ∈ (wrongs l).head?, last + lockoutDuration ≤ now) ∧ Limited l

/-- No backup code is accepted twice. -/
def AcceptedOnce (log : List Event) : Prop := (log.filterMap Event.accepted).Nodup

instance (log : List Event) : Decidable (AcceptedOnce log) := inferInstanceAs (Decidable (List.Nodup _))

instance decidableLimited : (log : List Event) → Decidable (Limited log)
  | [] => isTrue trivial
  | e :: l =>
    have := decidableLimited l
    inferInstanceAs (Decidable ((∀ now ∈ e.evaluated, maxFailAttempts ≤ (wrongs l).length →
      ∀ last ∈ (wrongs l).head?, last + lockoutDuration ≤ now) ∧ Limited l))

structure Safe (S : State) : Prop where
  once : AcceptedOnce S.shared.log
  limited : Limited S.shared.log

namespace Phase

/-- The call has counted or is about to count a wrong code, and has not saved it. -/
def counts : Phase → Bool
  | counting _ | saving _ => true
  | start | loaded _ | checked _ | matched .. | accepting .. | done _ => false

/-- The call is between the evaluation of its code and its last save. -/
def pending : Phase → Bool
  | counting _ | saving _ | matched .. | accepting .. => true
  | start | loaded _ | checked _ | done _ => false

end Phase

/-- The code is evaluated, and the call does not return an error before. -/
def Attempt.evaluated (lib : Library) (fails : Bool) : Attempt → Bool
  | totp _ => true
  | backup code => validateBackupCode lib code && !fails

/-- A code is evaluated on a copy that is the stored row, while no other call is between its evaluation and its last
save, and a failed attempt is saved. -/
structure Serial (lib : Library) (S : State) (c : Call) (env : Env) : Prop where
  current : ∀ t, c.phase = .checked t → c.attempt.evaluated lib env.fails = true →
    t = S.shared.twoFA ∧ ∀ d ∈ S.procs, d.phase.pending = false
  saved : ∀ t, c.phase = .saving t → t.id ≠ 0 ∧ env.fails = false

/-- The condition on a step. -/
def SerialStep (lib : Library) (S : State) : Act Attempt Env → Prop
  | .spawn _ => True
  | .sched k env => ∀ c ∈ S.procs[k]?, Serial lib S c env

/-! ## The invariant -/

/-- The row answers for the wrong codes of the log. -/
def Answers (t : TwoFA) (log : List Event) : Prop :=
  (wrongs log).length ≤ t.failedAttempts ∧
    (maxFailAttempts ≤ (wrongs log).length → ∀ last ∈ (wrongs log).head?,
      ∃ lockedUntil ∈ t.lockedUntil, last + lockoutDuration ≤ lockedUntil)

/-- What is true of a call, over the shared variables. -/
def Local (s : Shared) (c : Call) : Prop :=
  match c.phase with
  | .start | .loaded _ | .done _ => True
  | .checked t => ∀ lockedUntil ∈ t.lockedUntil, lockedUntil ≤ s.clock
  | .counting t => t = s.twoFA ∧
      ∃ last before, wrongs s.log = last :: before ∧ last ≤ s.clock ∧ before.length ≤ s.twoFA.failedAttempts
  | .saving t => Answers t s.log
  | .matched _ i bc => s.backupCodes[i]? = some bc ∧ bc.isUsed = false
  | .accepting _ backupCode => ∀ i ∈ backupCode, i ∉ s.log.filterMap Event.accepted ∧
      ∃ bc, s.backupCodes[i]? = some bc ∧ bc.isUsed = true

/-- Two calls are not both between evaluation and last save. -/
def Apart (c d : Call) : Prop := c.phase.pending = true → d.phase.pending = false

structure Inv (S : State) : Prop where
  asserted : Asserted Local Apart S
  safe : Safe S
  used : ∀ i ∈ S.shared.log.filterMap Event.accepted, ∃ bc, S.shared.backupCodes[i]? = some bc ∧ bc.isUsed = true
  answers : (∀ c ∈ S.procs, c.phase.counts = false) → Answers S.shared.twoFA S.shared.log

section
variable {lib : Library} {S : State} {s s' : Shared} {c d : Call} {k : ℕ} {env : Env} {t : TwoFA}

theorem Phase.pending_of_counts {phase : Phase} (h : phase.counts = true) : phase.pending = true := by
  cases phase with
  | counting | saving => rfl
  | _ => cases h

theorem Phase.counts_of_not_pending {phase : Phase} (h : phase.pending = false) : phase.counts = false :=
  Bool.eq_false_iff.2 fun hcounts => Bool.eq_false_iff.1 h (pending_of_counts hcounts)

theorem findBackupCode_eq_some {userId i : ℕ} {code : String} {bc : TwoFABackupCode}
    (h : s.findBackupCode lib userId code = some (bc, i)) : s.backupCodes[i]? = some bc ∧ bc.isUsed = false := by
  obtain ⟨hmem, hfound⟩ := List.mem_filter.1 (List.mem_of_find?_eq_some h)
  rw [Bool.and_eq_true, Bool.not_eq_true'] at hfound
  exact ⟨(List.mem_zipIdx_iff_getElem?).1 hmem, hfound.2⟩

theorem answers_incrementFailedAttempts {last : ℕ} {before : List ℕ} {log : List Event}
    (hlog : wrongs log = last :: before) (hlast : last ≤ s.clock) (hbefore : before.length ≤ t.failedAttempts) :
    Answers (t.incrementFailedAttempts s.clock) log := by
  unfold Answers TwoFA.incrementFailedAttempts
  rw [hlog, List.length_cons]
  split
  next hmax =>
    refine ⟨Nat.succ_le_succ hbefore, fun _ l hl => ⟨_, rfl, ?_⟩⟩
    cases hl
    exact Nat.add_le_add_right hlast _
  next hmax => exact ⟨Nat.succ_le_succ hbefore, fun hge => by omega⟩

theorem answers_success {log : List Event} (backupCode : Option ℕ) : Answers t (.success backupCode :: log) :=
  ⟨Nat.zero_le _, fun h => absurd h (Nat.not_succ_le_zero _)⟩

theorem limited_cons {log : List Event} {e : Event} {now : ℕ} (h : Limited log) (hanswers : Answers t log)
    (hopen : ∀ lockedUntil ∈ t.lockedUntil, lockedUntil ≤ now) (he : e.evaluated = some now) :
    Limited (e :: log) := by
  refine ⟨fun now' hnow' hmax last hlast => ?_, h⟩
  rw [he] at hnow'
  cases hnow'
  obtain ⟨lockedUntil, hlocked, hle⟩ := hanswers.2 hmax last hlast
  exact hle.trans (hopen lockedUntil hlocked)

theorem Local.of_not_pending (h : Local s d) (hd : d.phase.pending = false) (hclock : s.clock ≤ s'.clock) :
    Local s' d := by
  unfold Local at h ⊢
  cases hphase : d.phase with
  | start | loaded | done => trivial
  | checked t =>
    rw [hphase] at h
    exact fun lockedUntil hlocked => (h lockedUntil hlocked).trans hclock
  | counting | saving | matched | accepting =>
    rw [hphase] at hd
    cases hd

theorem Local.tick (h : Local s d) (elapsed : ℕ) : Local (s.tick elapsed) d := by
  have hclock : s.clock ≤ (s.tick elapsed).clock := Nat.le_add_right _ _
  unfold Local at h ⊢
  cases hphase : d.phase with
  | start | loaded | done => trivial
  | checked t =>
    rw [hphase] at h
    exact fun lockedUntil hlocked => (h lockedUntil hlocked).trans hclock
  | counting t =>
    rw [hphase] at h
    obtain ⟨ht, last, before, hlog, hlast, hbefore⟩ := h
    exact ⟨ht, last, before, hlog, hlast.trans hclock, hbefore⟩
  | saving | matched | accepting =>
    rw [hphase] at h
    exact h

/-- What a statement has to keep, of the shared variables and its call. -/
structure Keeps (S : State) (c : Call) (s' : Shared) (c' : Call) : Prop where
  asserted : Local s' c'
  frame : ∀ d ∈ S.procs, Local S.shared d → Apart c d → Local s' d ∧ Apart c' d
  once : AcceptedOnce s'.log
  limited : Limited s'.log
  used : ∀ i ∈ s'.log.filterMap Event.accepted, ∃ bc, s'.backupCodes[i]? = some bc ∧ bc.isUsed = true
  answers : c'.phase.counts = false → (∀ d ∈ S.procs, d ≠ c → d.phase.counts = false) → Answers s'.twoFA s'.log

theorem Apart.symm (h : Apart c d) : Apart d c := by
  intro hd
  cases hc : c.phase.pending with
  | false => rfl
  | true => exact hd.symm.trans (h hc)

theorem Keeps.inv (hk : S.procs[k]? = some c) (h : Inv S)
    (hc : Keeps S c (prog lib S.shared c env).1 (prog lib S.shared c env).2) : Inv (step lib S (.sched k env)) := by
  have hshared : (step lib S (.sched k env)).shared = (prog lib S.shared c env).1 :=
    congrArg Procs.shared (step_sched_some hk)
  refine ⟨h.asserted.sched hk hc.asserted fun d hd hlocal hapart _ => ?_, ⟨?_, ?_⟩, ?_, fun hcounts => ?_⟩
  · obtain ⟨hlocal', hapart'⟩ := hc.frame d hd hlocal hapart
    exact ⟨hlocal', hapart', hapart'.symm⟩
  · rw [hshared]
    exact hc.once
  · rw [hshared]
    exact hc.limited
  · rw [hshared]
    exact hc.used
  · rw [hshared]
    exact hc.answers (hcounts _ (mem_sched_self hk)) fun d hd hne => hcounts d (mem_sched_of_ne hk hd hne)

variable (h : Inv S)
include h

theorem Inv.answers_of (hc : c.phase.counts = false) (hother : ∀ d ∈ S.procs, d ≠ c → d.phase.counts = false) :
    Answers S.shared.twoFA S.shared.log := by
  refine h.answers fun d hd => ?_
  by_cases hdc : d = c
  · rw [hdc]
    exact hc
  · exact hother d hd hdc

theorem Inv.quiet (hc : c.phase.pending = false) {phase : Phase} (hphase : phase.pending = false)
    (hlocal : Local (S.shared.tick env.elapsed) (c.goto phase)) :
    Keeps S c (S.shared.tick env.elapsed) (c.goto phase) := by
  refine ⟨hlocal, fun d _ hd _ => ⟨hd.tick _, fun hp => ?_⟩, h.safe.once, h.safe.limited, h.used,
    fun _ hother => h.answers_of (Phase.counts_of_not_pending hc) hother⟩
  exact absurd (hp.symm.trans hphase) (by decide)

omit h in
theorem Keeps.alone (hother : ∀ d ∈ S.procs, Apart c d → d.phase.pending = false) {s' : Shared} {c' : Call}
    (hclock : S.shared.clock ≤ s'.clock) (hlocal : Local s' c') (honce : AcceptedOnce s'.log)
    (hlimited : Limited s'.log)
    (hused : ∀ i ∈ s'.log.filterMap Event.accepted, ∃ bc, s'.backupCodes[i]? = some bc ∧ bc.isUsed = true)
    (hanswers : c'.phase.counts = false → (∀ d ∈ S.procs, d ≠ c → d.phase.counts = false) →
      Answers s'.twoFA s'.log) :
    Keeps S c s' c' :=
  ⟨hlocal, fun d hd hlocal hapart =>
    ⟨hlocal.of_not_pending (hother d hd hapart) hclock, fun _ => hother d hd hapart⟩,
    honce, hlimited, hused, hanswers⟩

omit h in
theorem clock_le_tick (s : Shared) (elapsed : ℕ) : s.clock ≤ (s.tick elapsed).clock := Nat.le_add_right _ _

section
variable (hnone : ∀ d ∈ S.procs, d.phase.pending = false)
  (hopen : ∀ lockedUntil ∈ S.shared.twoFA.lockedUntil, lockedUntil ≤ (S.shared.tick env.elapsed).clock)
include hnone hopen

theorem Inv.wrong :
    Keeps S c ((S.shared.tick env.elapsed).record (.wrong (S.shared.tick env.elapsed).clock))
      (c.goto (.counting S.shared.twoFA)) := by
  have hanswers := h.answers fun d hd => Phase.counts_of_not_pending (hnone d hd)
  refine .alone (fun d hd _ => hnone d hd) (clock_le_tick _ _) ⟨rfl, _, _, rfl, le_rfl, hanswers.1⟩ h.safe.once
    (limited_cons h.safe.limited hanswers hopen rfl) h.used fun hcounts => ?_
  cases hcounts

theorem Inv.right {phase : Phase}
    (hlocal : Local ((S.shared.tick env.elapsed).record (.right (S.shared.tick env.elapsed).clock)) (c.goto phase)) :
    Keeps S c ((S.shared.tick env.elapsed).record (.right (S.shared.tick env.elapsed).clock)) (c.goto phase) := by
  have hanswers := h.answers fun d hd => Phase.counts_of_not_pending (hnone d hd)
  exact .alone (fun d hd _ => hnone d hd) (clock_le_tick _ _) hlocal h.safe.once
    (limited_cons h.safe.limited hanswers hopen rfl) h.used fun _ _ => hanswers

end

variable (hk : S.procs[k]? = some c) (hserial : Serial lib S c env)
include hk

theorem Inv.local_tick (elapsed : ℕ) : Local (S.shared.tick elapsed) c := (h.asserted.each k c hk).tick elapsed

theorem Inv.matched {i : ℕ} {bc : TwoFABackupCode} (hc : c.phase = .matched t i bc) :
    Keeps S c (prog lib S.shared c env).1 (prog lib S.shared c env).2 := by
  have hcounts : c.phase.counts = false := by rw [hc]; rfl
  have hother : ∀ d ∈ S.procs, Apart c d → d.phase.pending = false := fun d _ hapart => hapart (by rw [hc]; rfl)
  have hlocal : S.shared.backupCodes[i]? = some bc ∧ bc.isUsed = false := by
    have hlocal := h.asserted.each k c hk
    unfold Local at hlocal
    rw [hc] at hlocal
    exact hlocal
  unfold prog statement
  rw [hc]
  dsimp only
  split
  · exact .alone hother (clock_le_tick _ _) trivial h.safe.once h.safe.limited h.used fun _ => h.answers_of hcounts
  · have hset : ∀ (j : ℕ) (bc' : TwoFABackupCode), S.shared.backupCodes[j]? = some bc' → bc'.isUsed = true →
        ((S.shared.tick env.elapsed).saveUsed i bc).backupCodes[j]? = some bc' := by
      intro j bc' hj hused
      have hij : i ≠ j := by
        rintro rfl
        rw [Option.some.inj (hlocal.1.symm.trans hj), hused] at hlocal
        cases hlocal.2
      exact (List.getElem?_set_ne hij).trans hj
    refine .alone hother (clock_le_tick _ _) ?_ h.safe.once h.safe.limited (fun j hj => ?_) fun _ =>
      h.answers_of hcounts
    · intro j hj
      cases hj
      refine ⟨fun haccepted => ?_, _, List.getElem?_set_self (List.getElem?_eq_some_iff.1 hlocal.1).1, rfl⟩
      obtain ⟨bc', hi, hused⟩ := h.used i haccepted
      rw [Option.some.inj (hlocal.1.symm.trans hi), hused] at hlocal
      cases hlocal.2
    · obtain ⟨bc', hbc', hused⟩ := h.used j hj
      exact ⟨bc', hset j bc' hbc' hused, hused⟩

theorem Inv.accepting {backupCode : Option ℕ} (hc : c.phase = .accepting t backupCode) :
    Keeps S c (prog lib S.shared c env).1 (prog lib S.shared c env).2 := by
  have hother : ∀ d ∈ S.procs, Apart c d → d.phase.pending = false := fun d _ hapart => hapart (by rw [hc]; rfl)
  have hlocal := h.asserted.each k c hk
  unfold Local at hlocal
  rw [hc] at hlocal
  unfold prog statement
  rw [hc]
  have hlog : (((S.shared.tick env.elapsed).update (t.updateUsage (S.shared.tick env.elapsed).clock) env.fails).record
      (.success backupCode)).log = .success backupCode :: S.shared.log :=
    congrArg (Event.success backupCode :: ·) (Shared.update_log ..)
  refine .alone hother ?_ trivial ?_ ?_ ?_ fun _ _ => ?_
  · exact (clock_le_tick _ env.elapsed).trans_eq (Shared.update_clock ..).symm
  · rw [hlog]
    cases backupCode with
    | none => exact h.safe.once
    | some i => exact List.nodup_cons.2 ⟨(hlocal i rfl).1, h.safe.once⟩
  · rw [hlog]
    exact ⟨fun now hnow => (by cases hnow), h.safe.limited⟩
  · rw [hlog]
    intro i hi
    have hcodes : ∃ bc, S.shared.backupCodes[i]? = some bc ∧ bc.isUsed = true := by
      cases backupCode with
      | none => exact h.used i hi
      | some j =>
        rcases List.mem_cons.1 hi with rfl | hi
        · exact (hlocal i rfl).2
        · exact h.used i hi
    exact (Shared.update_backupCodes (S.shared.tick env.elapsed) _ env.fails).symm ▸ hcodes
  · rw [hlog]
    exact answers_success backupCode

include hserial

theorem Inv.checked (hc : c.phase = .checked t) :
    Keeps S c (prog lib S.shared c env).1 (prog lib S.shared c env).2 := by
  have hpending : c.phase.pending = false := by rw [hc]; rfl
  have hopen : ∀ lockedUntil ∈ t.lockedUntil, lockedUntil ≤ (S.shared.tick env.elapsed).clock := by
    have hlocal := h.local_tick hk env.elapsed
    unfold Local at hlocal
    rw [hc] at hlocal
    exact hlocal
  have hcurrent := hserial.current t hc
  unfold prog statement
  rw [hc]
  dsimp only
  unfold evaluate
  cases hattempt : c.attempt with
  | totp code =>
    rw [hattempt] at hcurrent
    obtain ⟨rfl, hnone⟩ := hcurrent rfl
    dsimp only
    split
    · exact h.right hnone hopen fun _ hi => by cases hi
    · exact h.wrong hnone hopen
  | backup code =>
    rw [hattempt] at hcurrent
    dsimp only
    split
    next => exact h.quiet hpending rfl trivial
    next hvalid =>
      rw [not_or, Bool.not_eq_false, Bool.not_eq_true] at hvalid
      obtain ⟨rfl, hnone⟩ := hcurrent (Bool.and_eq_true_iff.2 ⟨hvalid.1, by rw [hvalid.2]; rfl⟩)
      split
      next bc hfound => exact h.right hnone hopen (findBackupCode_eq_some hfound)
      next => exact h.wrong hnone hopen

/-- Every statement keeps what it has to. -/
theorem Inv.keeps : Keeps S c (prog lib S.shared c env).1 (prog lib S.shared c env).2 := by
  have hlocal := h.local_tick hk env.elapsed
  unfold Local at hlocal
  cases hc : c.phase with
  | start =>
    unfold prog statement
    rw [hc]
    dsimp only
    split
    · exact h.quiet (by rw [hc]; rfl) rfl trivial
    · exact h.quiet (by rw [hc]; rfl) rfl trivial
  | loaded t =>
    unfold prog statement
    rw [hc]
    dsimp only
    split
    · exact h.quiet (by rw [hc]; rfl) rfl trivial
    next hopen =>
      refine h.quiet (by rw [hc]; rfl) rfl fun lockedUntil hlocked => ?_
      unfold TwoFA.isLocked at hopen
      rw [Option.mem_def.1 hlocked] at hopen
      simpa using hopen
  | checked t => exact h.checked hk hserial hc
  | counting t =>
    rw [hc] at hlocal
    obtain ⟨rfl, last, before, hlog, hlast, hbefore⟩ := hlocal
    unfold prog statement
    rw [hc]
    refine .alone (fun d _ hapart => hapart (by rw [hc]; rfl)) (clock_le_tick _ _)
      (answers_incrementFailedAttempts hlog hlast hbefore) h.safe.once h.safe.limited h.used fun hcounts => ?_
    cases hcounts
  | saving t =>
    rw [hc] at hlocal
    obtain ⟨hid, hfails⟩ := hserial.saved t hc
    have hsaved : (S.shared.tick env.elapsed).update t env.fails = { S.shared.tick env.elapsed with twoFA := t } := by
      refine if_neg fun h => ?_
      rcases h with h | h
      · exact hid h
      · exact absurd (h.symm.trans hfails) (by decide)
    unfold prog statement
    rw [hc]
    dsimp only
    rw [hsaved]
    exact .alone (fun d _ hapart => hapart (by rw [hc]; rfl)) (clock_le_tick S.shared env.elapsed) trivial h.safe.once
      h.safe.limited h.used fun _ _ => hlocal
  | matched t i bc => exact h.matched hk hc
  | accepting t backupCode => exact h.accepting hk hc
  | done result =>
    unfold prog statement
    rw [hc]
    refine h.quiet (by rw [hc]; rfl) (by rw [hc]; rfl) ?_
    unfold Local
    rw [Call.goto_phase, hc]
    trivial

end

theorem Inv.step {lib : Library} {S : State} (h : Inv S) (a : Act Attempt Env) (ha : SerialStep lib S a) :
    Inv (step lib S a) := by
  cases a with
  | spawn attempt =>
    refine ⟨h.asserted.spawn trivial fun d => ⟨fun hp => (by cases hp), fun _ => rfl⟩,
      ⟨h.safe.once, h.safe.limited⟩, h.used, fun hcounts => ?_⟩
    exact h.answers fun d hd => hcounts d (List.mem_append_left _ hd)
  | sched k env =>
    cases hk : S.procs[k]? with
    | none =>
      unfold TwoFactor.step
      rw [step_sched_none hk]
      exact h
    | some c => exact (h.keeps hk (ha c hk)).inv hk h

section
variable (clock : ℕ) (twoFA : TwoFA) (backupCodes : List TwoFABackupCode)

/-- The state before the first call. -/
def start : State := ⟨{ clock, twoFA, backupCodes }, []⟩

theorem Inv.start : Inv (start clock twoFA backupCodes) := by
  refine ⟨⟨fun k c hk => ?_, fun i j c d _ hi => ?_⟩, ⟨List.nodup_nil, trivial⟩, fun i hi => ?_, fun _ => ?_⟩
  · cases hk
  · cases hi
  · cases hi
  · exact ⟨Nat.zero_le _, fun h => absurd h (Nat.not_succ_le_zero _)⟩

/-- In every run whose steps meet the condition, from any row and backup codes, each code is accepted at most once and
the lock holds. -/
theorem twoFA_safe (lib : Library) {acts : List (Act Attempt Env)}
    (h : Meets (step lib) (SerialStep lib) (start clock twoFA backupCodes) acts) :
    Holds (step lib) Safe (start clock twoFA backupCodes) acts :=
  h.holds (fun _ a hS ha => hS.step a ha) (fun _ hS => hS.safe) (Inv.start clock twoFA backupCodes)

end

/-! ## Overlapping calls -/

/-- A library in which one code is right, hashes are the texts themselves, and texts are in capitals. -/
def plainLibrary : Library where
  totpValidate code _ _ := code = "123456"
  validatePasswordAndHash password hash := password = hash
  toUpper := id

/-- One wrong code, in a call that is alone. -/
theorem twoFA_safe_one :
    Holds (step plainLibrary) Safe (start 0 { id := 1, userId := 1, secret := "K" } [])
      (.spawn (.totp "") :: List.replicate 5 (.sched 0 {})) := by
  refine twoFA_safe _ _ _ _ ⟨trivial, ?_, ?_, ?_, ?_, ?_, trivial⟩
  all_goals
    intro c hc
    cases hc
    refine ⟨fun t ht _ => ?_, fun t ht => ?_⟩
  · cases ht
  · cases ht
  · cases ht
  · cases ht
  · cases ht
    exact ⟨rfl, by decide⟩
  · cases ht
  · cases ht
  · cases ht
  · cases ht
  · cases ht
    exact ⟨by decide, rfl⟩

/-- Two calls spend one backup code, and six calls evaluate a wrong code each within the lockout time. -/
theorem twoFA_unsafe :
    ¬ AcceptedOnce (run (step plainLibrary)
      (start 0 { id := 1, userId := 1, secret := "K" } [{ userId := 1, codeHash := "ABCD-EFGH" }])
      ([.spawn (.backup "ABCD-EFGH"), .spawn (.backup "ABCDEFGH")] ++
        ([0, 0, 0, 1, 1, 1, 0, 0, 1, 1].map fun k => .sched k {}))).shared.log ∧
    ¬ Limited (run (step plainLibrary) (start 0 { id := 1, userId := 1, secret := "K" } [])
      (List.replicate 6 (.spawn (.totp "000000")) ++
        ([0, 1, 2, 3, 4, 5].flatMap fun k => List.replicate 3 (.sched k {})))).shared.log := by
  decide

end NewApi.TwoFactor

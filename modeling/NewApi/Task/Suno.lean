import NewApi.Lib.Run
import NewApi.Task.Model

/-!
# Changes of Suno tasks

`updateSunoTasks` goes through the items of an answer and stores those tasks that `taskNeedsUpdate` finds changed. The
data of a task and of an item are compared as the sorted bytes of what `Marshal` makes of them, so documents of the
same bytes in another order count as one; and an item whose id was not asked for finds no task. A loop gets through
all items and skips only tasks that agree with theirs just where neither happens (`skipsOnlyEqual_iff`).
-/

namespace NewApi

/-! ## JSON documents -/

namespace JsonText

/-- A number, `null`, `true` or `false`. -/
structure Word where
  chars : List Char
  ne_nil : chars ≠ []
  plain : ∀ c ∈ chars, c ∉ [',', ':', '[', ']', '\x7b', '\x7d', '"']

/-- Every quote is escaped. -/
def escaped : List Char → Bool
  | [] => true
  | '"' :: _ => false
  | '\\' :: [] => false
  | '\\' :: _ :: l => escaped l
  | _ :: l => escaped l

/-- What stands between the quotes of a string. -/
structure Quoted where
  chars : List Char
  closed : escaped chars = true

end JsonText

/-- A JSON document as `Marshal` writes it, without blanks. The members of an object have an order, and may repeat. -/
inductive JsonText
  | word (w : JsonText.Word)
  | string (s : JsonText.Quoted)
  | array (items : List JsonText)
  | object (members : List (JsonText.Quoted × JsonText))

namespace JsonText

mutual

/-- The text of a document. -/
def marshal : JsonText → List Char
  | .word w => w.chars
  | .string s => '"' :: s.chars ++ ['"']
  | .array items => '[' :: marshalItems items ++ [']']
  | .object members => '\x7b' :: marshalMembers members ++ ['\x7d']

def marshalItems : List JsonText → List Char
  | [] => []
  | item :: items => marshal item ++ (if items.isEmpty then [] else ',' :: marshalItems items)

def marshalMembers : List (Quoted × JsonText) → List Char
  | [] => []
  | (key, value) :: members =>
    '"' :: key.chars ++ ['"', ':'] ++ marshal value ++ (if members.isEmpty then [] else ',' :: marshalMembers members)

end

/-- Documents that are equal up to the order of the members of their objects. -/
inductive Same : JsonText → JsonText → Prop
  | refl (j) : Same j j
  | trans {j k l} : Same j k → Same k l → Same j l
  | item {j k l r} : Same j k → Same (.array (l ++ j :: r)) (.array (l ++ k :: r))
  | member {key j k l r} : Same j k → Same (.object (l ++ (key, j) :: r)) (.object (l ++ (key, k) :: r))
  | perm {l r} : l.Perm r → Same (.object l) (.object r)

end JsonText

/-- Two data columns hold equal documents. -/
def SameData (data data' : String) : Prop :=
  data = data' ∨ ∃ j j' : JsonText, j.marshal = data.toList ∧ j'.marshal = data'.toList ∧ j.Same j'

namespace SunoLoop

open Process

/-! ## The loop -/

/-- The loop of `updateSunoTasks`: the tasks of the round by their upstream ids, nothing after a panic. -/
def step (taskM : Option (List (String × Task))) (item : SunoDataResponse) : Option (List (String × Task)) :=
  match taskM with
  | none => none
  | some taskM =>
    match taskM.lookup item.taskId with
    -- a nil pointer is read
    | none => none
    | some task =>
      if taskNeedsUpdate task item then some (assignTask item.taskId (sunoTask item task) taskM) else some taskM

theorem updateSunoTask_taskM (item : SunoDataResponse) (p : Process) :
    (updateSunoTask item p).taskM = (step (some p.taskM) item).getD [] := by
  unfold updateSunoTask step
  dsimp only
  cases p.taskM.lookup item.taskId with
  | none => rfl
  | some task =>
    dsimp only
    split <;> rfl

/-! ## What is skipped -/

/-- A task agrees with an item: its status, fail reason and times are the item's, its progress is what the item makes
of it, and its data are the same document. -/
structure Agrees (task : Task) (item : SunoDataResponse) : Prop where
  status : task.status = item.status
  failReason : task.failReason = item.failReason
  submitTime : task.submitTime = item.submitTime
  startTime : task.startTime = item.startTime
  finishTime : task.finishTime = item.finishTime
  progress : task.progress = (sunoTask item task).progress
  data : SameData task.data item.data

/-- An item that is gone through leaves a task alone only where it agrees with it. -/
def SkipsEqual (taskM : Option (List (String × Task))) (item : SunoDataResponse) (_ : Option (List (String × Task))) :
    Prop :=
  ∀ m ∈ taskM, ∀ task ∈ m.lookup item.taskId, ¬ taskNeedsUpdate task item → Agrees task item

/-- The loop gets through all items without a panic, and skips only tasks that agree with theirs. -/
def SkipsOnlyEqual (taskM : List (String × Task)) (items : List SunoDataResponse) : Prop :=
  Run.Holds step (fun taskM => taskM.isSome) (some taskM) items ∧ Run.Always step SkipsEqual (some taskM) items

/-- The data of a task with the status, the fail reason and the times of an item tell it from the item: they are not
another document of the same bytes; and a fail reason goes with the whole progress. -/
def ToldApart (task : Task) (item : SunoDataResponse) : Prop :=
  task.status = item.status → task.failReason = item.failReason → task.submitTime = item.submitTime →
    task.startTime = item.startTime → task.finishTime = item.finishTime →
      (task.status.Terminal → task.progress = "100%") →
        task.data.toUTF8.data.toList.Perm item.data.toUTF8.data.toList →
          SameData task.data item.data ∧ (item.failReason ≠ "" → task.progress = "100%")

/-- An item is of a task that was asked for, and its data can be told apart. -/
def Known (taskM : Option (List (String × Task))) (item : SunoDataResponse) : Prop :=
  ∃ m ∈ taskM, ∃ task ∈ m.lookup item.taskId, ToldApart task item

section
variable {task : Task} {item : SunoDataResponse}

theorem not_taskNeedsUpdate : ¬ taskNeedsUpdate task item ↔
    task.status = item.status ∧ task.failReason = item.failReason ∧ task.submitTime = item.submitTime ∧
      task.startTime = item.startTime ∧ task.finishTime = item.finishTime ∧
      (task.status.Terminal → task.progress = "100%") ∧
      task.data.toUTF8.data.toList.Perm item.data.toUTF8.data.toList := by
  unfold taskNeedsUpdate
  rw [decide_eq_true_eq]
  push Not
  constructor
  · rintro ⟨hsubmit, hstart, hfinish, hstatus, hreason, hprogress, hdata⟩
    exact ⟨hstatus, hreason, hsubmit, hstart, hfinish, hprogress, hdata⟩
  · rintro ⟨hstatus, hreason, hsubmit, hstart, hfinish, hprogress, hdata⟩
    exact ⟨hsubmit, hstart, hfinish, hstatus, hreason, hprogress, hdata⟩

theorem progress_sunoTask (hstatus : task.status = item.status) : (sunoTask item task).progress =
    if item.failReason ≠ "" ∨ task.status.Terminal then "100%" else task.progress := by
  have hsame : (if item.status ≠ .other "" then item.status else task.status) = task.status := by
    rw [hstatus, ite_self]
  unfold sunoTask
  dsimp only
  rw [hsame, ← hstatus]
  rfl

theorem skips_iff : (¬ taskNeedsUpdate task item → Agrees task item) ↔ ToldApart task item := by
  rw [not_taskNeedsUpdate]
  constructor
  · intro h hstatus hreason hsubmit hstart hfinish hprogress hdata
    have hagrees := h ⟨hstatus, hreason, hsubmit, hstart, hfinish, hprogress, hdata⟩
    refine ⟨hagrees.data, fun hne => ?_⟩
    rw [hagrees.progress, progress_sunoTask hstatus, if_pos (.inl hne)]
  · rintro h ⟨hstatus, hreason, hsubmit, hstart, hfinish, hprogress, hdata⟩
    obtain ⟨hsame, hfail⟩ := h hstatus hreason hsubmit hstart hfinish hprogress hdata
    refine ⟨hstatus, hreason, hsubmit, hstart, hfinish, ?_, hsame⟩
    rw [progress_sunoTask hstatus]
    split
    next hor => exact hor.elim hfail hprogress
    next => rfl

end

/-- **Suno tasks.** The loop over an answer's items ends without a panic and skips only tasks that agree with theirs,
just where each item is of a task that was asked for and that can be told apart from it when it is met. -/
theorem skipsOnlyEqual_iff (taskM : List (String × Task)) (items : List SunoDataResponse) :
    SkipsOnlyEqual taskM items ↔ Run.Meets step Known (some taskM) items := by
  refine Run.holds_and_always_iff_meets (I := fun _ => True) (fun _ _ _ => trivial) ?_ trivial rfl
  intro s item _ hsome
  obtain ⟨m, rfl⟩ := Option.isSome_iff_exists.1 hsome
  cases hlook : m.lookup item.taskId with
  | none =>
    refine iff_of_false (fun h => ?_) ?_
    · have hpanic : step (some m) item = none := by
        rw [step, hlook]
      rw [hpanic] at h
      exact absurd h.1 (by decide)
    · rintro ⟨m', hm', task, htask, -⟩
      rw [← Option.some.inj hm', hlook] at htask
      cases htask
  | some task =>
    have hgoes : (step (some m) item).isSome := by
      rw [step, hlook]
      dsimp only
      split <;> rfl
    constructor
    · rintro ⟨-, h⟩
      exact ⟨m, rfl, task, hlook, skips_iff.1 (h m rfl task hlook)⟩
    · rintro ⟨m', hm', task', htask', h⟩
      rw [← Option.some.inj hm', hlook] at htask'
      refine ⟨hgoes, fun m'' hm'' task'' htask'' => ?_⟩
      rw [← Option.some.inj hm'', hlook] at htask''
      rw [← Option.some.inj htask'', Option.some.inj htask']
      exact skips_iff.2 h

/-! ## What goes wrong -/

theorem same_word {j j' : JsonText} (h : j.Same j') {w : JsonText.Word} (hj : j = .word w) : j' = .word w := by
  induction h with
  | refl => exact hj
  | trans _ _ ih ih' => exact ih' (ih hj)
  | item | member | perm => cases hj

theorem eq_word_of_marshal {j : JsonText} (h : j.marshal = ['1', '2']) : ∃ w : JsonText.Word, j = .word w := by
  cases j with
  | word w => exact ⟨w, rfl⟩
  | string | array | object =>
    rw [JsonText.marshal] at h
    cases h

theorem not_sameData_twelve : ¬ SameData "12" "21" := by
  rintro (heq | ⟨j, j', hj, hj', hsame⟩)
  · exact absurd heq (by decide)
  · obtain ⟨w, rfl⟩ := eq_word_of_marshal hj
    rw [same_word hsame rfl, hj] at hj'
    exact absurd hj' (by decide)

/-- A task whose data are the one is not stored for an item whose data are the other, and an item of a task that was
not asked for ends the loop in a panic. -/
theorem twelve_skipped :
    ¬ SkipsOnlyEqual [("u", { id := 1, data := "12" })] [{ taskId := "u", status := .notStart, data := "21" }] ∧
      ¬ SkipsOnlyEqual [] [{ taskId := "u", status := .notStart }] := by
  constructor
  · rintro ⟨-, hskips, -⟩
    exact not_sameData_twelve (hskips _ rfl { id := 1, data := "12" } rfl (by decide)).data
  · rintro ⟨⟨-, hsome⟩, -⟩
    have hpanic : (step (some []) { taskId := "u", status := .notStart }).isSome = true := hsome
    exact absurd hpanic (by decide)

end SunoLoop

end NewApi

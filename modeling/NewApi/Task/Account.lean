import NewApi.Task.Model

/-!
# The account of a task

What happens to what was paid for one task: while the task is open it may go on, be refunded before its failure
is stored, or end; and once it has ended nothing happens any more. A sound account of a failed task has one
refund, unless the sweep has failed it as a task of the old system, and one of a task that succeeded has no
refund and at most one settlement (`TaskAccount.Move.sound`).
-/

namespace NewApi

/-- The account of a task: its status, where it is in the table, the refunds and settlements that have been
made or are under way, the failures that are to be stored after a refund, and whether the sweep has failed it
without a refund. -/
@[ext] structure TaskAccount where
  status : Option TaskStatus
  refunds : Nat
  settles : Nat
  stores : Nat
  legacy : Nat

namespace TaskAccount

/-- A task with this status is in the table and is not terminal. -/
def IsOpen (status : Option TaskStatus) : Prop := ∃ st, status = some st ∧ ¬ st.Terminal

instance : DecidablePred IsOpen
  | none => isFalse fun ⟨_, h, _⟩ => nomatch h
  | some st => decidable_of_iff (¬ st.Terminal) (by simp [IsOpen])

def Open (a : TaskAccount) : Prop := IsOpen a.status

/-- What can happen to an account. -/
inductive Move : TaskAccount → TaskAccount → Prop
  | stay {a} : Move a a
  | goOn {a status} : a.Open → ¬ status.Terminal → Move a { a with status := some status }
  | fail {a} : a.Open → a.stores = 0 →
    Move a { a with status := some .failure, refunds := a.refunds + 1 }
  | failLegacy {a} : a.Open → a.stores = 0 →
    Move a { a with status := some .failure, legacy := a.legacy + 1 }
  | succeed {a n} : a.Open → a.stores = 0 → n ≤ 1 →
    Move a { a with status := some .success, settles := a.settles + n }
  | refund {a} : a.Open → a.stores = 0 →
    Move a { a with refunds := a.refunds + 1, stores := a.stores + 1 }
  | store {a n} : a.stores = n + 1 → Move a { a with status := some .failure, stores := n }

/-- The account of a task that was open at first. -/
inductive Paid : TaskAccount → Prop
  | opened {a} : a.Open → a.refunds = a.stores → a.stores ≤ 1 → a.settles = 0 → a.legacy = 0 → Paid a
  | failed {a} : a.status = some .failure → a.stores = 0 → a.refunds + a.legacy = 1 → a.settles = 0 → Paid a
  | succeeded {a} : a.status = some .success → a.stores = 0 → a.refunds = 0 → a.legacy = 0 →
    a.settles ≤ 1 → Paid a

/-- An account is sound: it is paid where the task was open at first, and nothing has happened elsewhere. -/
structure Sound (start : Option TaskStatus) (a : TaskAccount) : Prop where
  paid : IsOpen start → a.Paid
  closed : ¬ IsOpen start → a.stores = 0 ∧ a.status = start

variable {start : Option TaskStatus} {a a' : TaskAccount} {status : TaskStatus}

theorem Open.not_terminal (h : a.Open) (hstatus : a.status = some status) : ¬ status.Terminal := by
  obtain ⟨status', heq, hopen⟩ := h
  cases hstatus.symm.trans heq
  exact hopen

theorem Move.of_eq {b : TaskAccount} (h : Move a b) (heq : a' = b) : Move a a' := heq ▸ h

theorem Paid.open_of_stores (h : a.Paid) (hstores : a.stores ≠ 0) : a.Open := by
  cases h with
  | opened hopen => exact hopen
  | failed _ hzero | succeeded _ hzero => exact absurd hzero hstores

theorem Sound.open_of_stores (h : a.Sound start) (hstores : a.stores ≠ 0) : a.Open := by
  by_cases hstart : IsOpen start
  · exact (h.paid hstart).open_of_stores hstores
  · exact absurd (h.closed hstart).1 hstores

theorem Paid.of_open (h : a.Paid) (hopen : a.Open) :
    a.refunds = a.stores ∧ a.stores ≤ 1 ∧ a.settles = 0 ∧ a.legacy = 0 := by
  cases h with
  | opened _ hrefunds hstores hsettles hlegacy => exact ⟨hrefunds, hstores, hsettles, hlegacy⟩
  | failed hstatus => exact absurd (.inl rfl) (hopen.not_terminal hstatus)
  | succeeded hstatus => exact absurd (.inr rfl) (hopen.not_terminal hstatus)

theorem Paid.of_failure (h : a.Paid) (hstatus : a.status = some .failure) : a.refunds + a.legacy = 1 := by
  cases h with
  | opened hopen => exact absurd (.inl rfl) (hopen.not_terminal hstatus)
  | failed _ _ hone => exact hone
  | succeeded hsuccess => exact absurd (hstatus.symm.trans hsuccess) nofun

theorem Paid.of_success (h : a.Paid) (hstatus : a.status = some .success) :
    a.refunds = 0 ∧ a.settles ≤ 1 := by
  cases h with
  | opened hopen => exact absurd (.inr rfl) (hopen.not_terminal hstatus)
  | failed hfailure => exact absurd (hstatus.symm.trans hfailure) nofun
  | succeeded _ _ hzero _ hone => exact ⟨hzero, hone⟩

theorem Move.paid (hmove : Move a a') (h : a.Paid) : a'.Paid := by
  cases hmove with
  | stay => exact h
  | goOn hopen hstatus =>
    obtain ⟨hrefunds, hstores, hsettles, hlegacy⟩ := h.of_open hopen
    exact .opened ⟨_, rfl, hstatus⟩ hrefunds hstores hsettles hlegacy
  | fail hopen hzero =>
    obtain ⟨hrefunds, -, hsettles, hlegacy⟩ := h.of_open hopen
    exact .failed rfl hzero (by rw [hrefunds, hzero, hlegacy]) hsettles
  | failLegacy hopen hzero =>
    obtain ⟨hrefunds, -, hsettles, hlegacy⟩ := h.of_open hopen
    exact .failed rfl hzero (by rw [hrefunds, hzero, hlegacy, Nat.zero_add]) hsettles
  | succeed hopen hzero hn =>
    obtain ⟨hrefunds, -, hsettles, hlegacy⟩ := h.of_open hopen
    exact .succeeded rfl hzero (hrefunds.trans hzero) hlegacy (by rw [hsettles, Nat.zero_add]; exact hn)
  | refund hopen hzero =>
    obtain ⟨hrefunds, -, hsettles, hlegacy⟩ := h.of_open hopen
    exact .opened hopen (congrArg (· + 1) hrefunds) (by rw [hzero]) hsettles hlegacy
  | store hstores =>
    have hopen := h.open_of_stores (by rw [hstores]; exact Nat.succ_ne_zero _)
    obtain ⟨hrefunds, hle, hsettles, hlegacy⟩ := h.of_open hopen
    rw [hstores] at hrefunds hle
    have hn := Nat.le_zero.1 (Nat.le_of_succ_le_succ hle)
    exact .failed rfl hn (by rw [hrefunds, hn, hlegacy]) hsettles

theorem Move.sound (hmove : Move a a') (h : a.Sound start) : a'.Sound start := by
  refine ⟨fun hstart => hmove.paid (h.paid hstart), fun hstart => ?_⟩
  obtain ⟨hzero, hstatus⟩ := h.closed hstart
  have hnot : ¬ a.Open := by
    unfold Open
    rw [hstatus]
    exact hstart
  cases hmove with
  | stay => exact ⟨hzero, hstatus⟩
  | goOn hopen | fail hopen | failLegacy hopen | succeed hopen | refund hopen => exact absurd hopen hnot
  | store hstores => exact absurd (hstores.symm.trans hzero) (Nat.succ_ne_zero _)

theorem Move.status_eq (hmove : Move a a') (h : a.Sound start) (hstatus : a.status = some status)
    (hterminal : status.Terminal) : a'.status = some status := by
  have hnot : ¬ a.Open := fun hopen => hopen.not_terminal hstatus hterminal
  cases hmove with
  | stay | refund => exact hstatus
  | goOn hopen | fail hopen | failLegacy hopen | succeed hopen => exact absurd hopen hnot
  | store hstores =>
    exact absurd (h.open_of_stores (by rw [hstores]; exact Nat.succ_ne_zero _)) hnot

end TaskAccount

end NewApi

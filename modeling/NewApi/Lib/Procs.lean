import Mathlib.Algebra.BigOperators.Group.List.Basic
import Mathlib.Algebra.Order.Ring.Int
import NewApi.Lib.Run

/-!
# Processes over a shared state

Any number of processes that run one program take turns on a shared state. A process is its local state,
which says where in the program it is; `prog` is the program, one atomic step from a shared and a local state,
with what the environment decides in it. An action either starts a process (`init` says as which) or lets one
take its next step.

Invariants of such a system are proved as assertions on each process (`L`) and on each pair of them (`X`), by
the rule of Owicki and Gries (`Asserted.sched`): the step of a process establishes its own assertion, and does
not interfere with those of the others. What ties the shared state to the number of processes in a phase is
kept by counting (`sum_sched`, `countP_sched`).
-/

namespace NewApi

/-- The shared state and the processes, in the order in which they were started. -/
structure Procs (σ π : Type*) where
  shared : σ
  procs : List π

namespace Procs

/-- A process starts, or the process of an index takes its next step. -/
inductive Act (ι ω : Type*)
  | spawn (i : ι)
  | sched (k : ℕ) (o : ω)

section
variable {σ π ι ω : Type*} (init : ι → π) (prog : σ → π → ω → σ × π)

def step (S : Procs σ π) : Act ι ω → Procs σ π
  | .spawn i => { S with procs := S.procs ++ [init i] }
  | .sched k o =>
    match S.procs[k]? with
    | none => S
    | some p => ⟨(prog S.shared p o).1, S.procs.set k (prog S.shared p o).2⟩

variable {init} {prog} {S : Procs σ π} {k : ℕ} {o : ω} {p : π} {i : ι}

/-- No process has the index. -/
theorem step_sched_none (h : S.procs[k]? = none) : step init prog S (.sched k o) = S := by
  dsimp only [step]
  rw [h]

/-- The process of the index takes a step. -/
theorem step_sched_some (h : S.procs[k]? = some p) :
    step init prog S (.sched k o) = ⟨(prog S.shared p o).1, S.procs.set k (prog S.shared p o).2⟩ := by
  dsimp only [step]
  rw [h]

/-- Each process after a step is the one that has taken it, or another one. -/
theorem getElem?_set_cases {l : List π} {j : ℕ} {p' q : π} (h : (l.set k p')[j]? = some q) :
    j = k ∧ q = p' ∨ j ≠ k ∧ l[j]? = some q := by
  rw [List.getElem?_set] at h
  split at h
  next hkj =>
    split at h
    · exact .inl ⟨hkj.symm, (Option.some.inj h).symm⟩
    · cases h
  next hkj => exact .inr ⟨Ne.symm hkj, h⟩

/-- Each process after a start is the one that has started, or another one. -/
theorem getElem?_append_cases {l : List π} {j : ℕ} {q : π} (h : (l ++ [p])[j]? = some q) :
    j = l.length ∧ q = p ∨ j < l.length ∧ l[j]? = some q := by
  rcases Nat.lt_trichotomy j l.length with hlt | heq | hgt
  · rw [List.getElem?_append_left hlt] at h
    exact .inr ⟨hlt, h⟩
  · rw [heq, List.getElem?_concat_length] at h
    exact .inl ⟨heq, (Option.some.inj h).symm⟩
  · rw [List.getElem?_eq_none] at h
    · cases h
    · rw [List.length_append, List.length_singleton]
      omega

/-- What every statement keeps of the shared state, every step does. -/
theorem step_shared {I : σ → Prop} (hI : ∀ s p o, I s → I (prog s p o).1) (h : I S.shared) (a : Act ι ω) :
    I (step init prog S a).shared := by
  cases a with
  | spawn i => exact h
  | sched k o =>
    cases hk : S.procs[k]? with
    | none =>
      rw [step_sched_none hk]
      exact h
    | some p =>
      rw [step_sched_some hk]
      exact hI _ _ _ h

/-- The process that has taken the step is there after it. -/
theorem mem_sched_self (h : S.procs[k]? = some p) :
    (prog S.shared p o).2 ∈ (step init prog S (.sched k o)).procs := by
  rw [step_sched_some h]
  obtain ⟨hlt, -⟩ := List.getElem?_eq_some_iff.1 h
  exact List.mem_set hlt _

/-- The other processes stay. -/
theorem mem_sched_of_ne {q : π} (h : S.procs[k]? = some p) (hq : q ∈ S.procs) (hne : q ≠ p) :
    q ∈ (step init prog S (.sched k o)).procs := by
  rw [step_sched_some h]
  obtain ⟨j, hj⟩ := List.mem_iff_getElem?.1 hq
  refine List.mem_iff_getElem?.2 ⟨j, ?_⟩
  have hkj : k ≠ j := fun heq => hne (Option.some.inj (hj.symm.trans (heq ▸ h)))
  rw [List.getElem?_set_ne hkj, hj]

/-! ## Assertions -/

/-- Every process satisfies `L` over the shared state, and every two of them satisfy `X`. -/
structure Asserted (L : σ → π → Prop) (X : π → π → Prop) (S : Procs σ π) : Prop where
  each : ∀ (k : ℕ) (p : π), S.procs[k]? = some p → L S.shared p
  pair : ∀ (i j : ℕ) (p q : π), i ≠ j → S.procs[i]? = some p → S.procs[j]? = some q → X p q

variable {L : σ → π → Prop} {X : π → π → Prop}

/-- Assertions are kept where no two processes are started that exclude each other. -/
theorem Asserted.spawn (h : Asserted L X S) (hi : L S.shared (init i))
    (hX : ∀ q, X (init i) q ∧ X q (init i)) :
    Asserted L X (step init prog S (.spawn i)) := by
  constructor
  · intro k q hq
    rcases getElem?_append_cases hq with ⟨-, rfl⟩ | ⟨-, hq⟩
    · exact hi
    · exact h.each k q hq
  · intro i j q q' hij hq hq'
    rcases getElem?_append_cases hq with ⟨hi, rfl⟩ | ⟨-, hq⟩
    · exact (hX q').1
    · rcases getElem?_append_cases hq' with ⟨-, rfl⟩ | ⟨-, hq'⟩
      · exact (hX q).2
      · exact h.pair i j q q' hij hq hq'

/-- A step keeps all assertions where it establishes that of its process and does not interfere with those of
the others. -/
theorem Asserted.sched (h : Asserted L X S) (hk : S.procs[k]? = some p)
    (hlocal : L (prog S.shared p o).1 (prog S.shared p o).2)
    (hframe : ∀ q ∈ S.procs, L S.shared q → X p q → X q p →
      L (prog S.shared p o).1 q ∧ X (prog S.shared p o).2 q ∧ X q (prog S.shared p o).2) :
    Asserted L X (step init prog S (.sched k o)) := by
  have hother : ∀ {j q}, j ≠ k → S.procs[j]? = some q →
      L (prog S.shared p o).1 q ∧ X (prog S.shared p o).2 q ∧ X q (prog S.shared p o).2 := by
    intro j q hj hq
    exact hframe q (List.mem_of_getElem? hq) (h.each j q hq) (h.pair k j p q hj.symm hk hq) (h.pair j k q p hj hq hk)
  rw [step_sched_some hk]
  constructor
  · intro j q hq
    rcases getElem?_set_cases hq with ⟨-, rfl⟩ | ⟨hj, hq⟩
    · exact hlocal
    · exact (hother hj hq).1
  · intro i j q q' hij hq hq'
    rcases getElem?_set_cases hq with ⟨rfl, rfl⟩ | ⟨hi, hq⟩
    · rcases getElem?_set_cases hq' with ⟨rfl, -⟩ | ⟨hj, hq'⟩
      · exact absurd rfl hij
      · exact (hother hj hq').2.1
    · rcases getElem?_set_cases hq' with ⟨-, rfl⟩ | ⟨-, hq'⟩
      · exact (hother hi hq).2.2
      · exact h.pair i j q q' hij hq hq'

/-! ## Counting -/

/-- A step changes a sum over the processes by what it changes of its own. -/
theorem sum_sched {M : Type*} [AddCommMonoid M] (g : π → M) (hk : S.procs[k]? = some p) :
    ((step init prog S (.sched k o)).procs.map g).sum + g p =
      (S.procs.map g).sum + g (prog S.shared p o).2 := by
  rw [step_sched_some hk]
  generalize S.procs = l at hk
  generalize (prog S.shared p o).2 = p'
  dsimp only
  induction l generalizing k with
  | nil => cases hk
  | cons q l ih =>
    cases k with
    | zero =>
      cases hk
      simp only [List.set_cons_zero, List.map_cons, List.sum_cons]
      rw [add_rotate, add_comm _ (g p)]
    | succ k =>
      have htail := ih (k := k) (by simpa using hk)
      simp only [List.set_cons_succ, List.map_cons, List.sum_cons]
      rw [add_assoc, htail, add_assoc]

/-- A start adds the process that is started. -/
theorem sum_spawn {M : Type*} [AddCommMonoid M] (g : π → M) :
    ((step init prog S (.spawn i)).procs.map g).sum = (S.procs.map g).sum + g (init i) := by
  show ((S.procs ++ [init i]).map g).sum = _
  rw [List.map_append, List.sum_append, List.map_singleton, List.sum_singleton]

/-- A count is a sum. -/
theorem countP_eq_sum (P : π → Bool) (l : List π) : l.countP P = (l.map fun p => (P p).toNat).sum := by
  induction l with
  | nil => rfl
  | cons p l ih =>
    rw [List.countP_cons, List.map_cons, List.sum_cons, ih, Nat.add_comm]
    cases P p <;> rfl

theorem countP_sched (P : π → Bool) (hk : S.procs[k]? = some p) :
    (step init prog S (.sched k o)).procs.countP P + (P p).toNat =
      S.procs.countP P + (P (prog S.shared p o).2).toNat := by
  rw [countP_eq_sum, countP_eq_sum]
  exact sum_sched (fun p => (P p).toNat) hk

theorem countP_spawn (P : π → Bool) :
    (step init prog S (.spawn i)).procs.countP P = S.procs.countP P + (P (init i)).toNat := by
  rw [countP_eq_sum, countP_eq_sum]
  exact sum_spawn fun p => (P p).toNat

/-! ## Properties of the shared state -/

/-- The condition on actions that a condition on statements gives. -/
def Each (c : σ → π → ω → Prop) (S : Procs σ π) : Act ι ω → Prop
  | .spawn _ => True
  | .sched k o => ∀ p, S.procs[k]? = some p → c S.shared p o

theorem each_of_none {c : σ → π → ω → Prop} (hk : S.procs[k]? = none) : Each (ι := ι) c S (.sched k o) := by
  intro p hp
  rw [hk] at hp
  cases hp

theorem each_iff {c : σ → π → ω → Prop} (hk : S.procs[k]? = some p) :
    Each (ι := ι) c S (.sched k o) ↔ c S.shared p o := by
  refine ⟨fun h => h p hk, fun h q hq => ?_⟩
  rw [← Option.some.inj (hk.symm.trans hq)]
  exact h

/-- The value of the shared state is the first one, and what the processes have booked. -/
def BookedFor {M : Type*} [AddCommMonoid M] (val : σ → M) (booked : π → M) (v₀ : M) (S : Procs σ π) : Prop :=
  val S.shared = v₀ + (S.procs.map booked).sum

/-- A statement that leaves the value, and books nothing, accounts for it. -/
theorem balanced_of_same {M : Type*} [AddGroup M] {v v' b b' : M} {c : Prop} (hv : v' = v) (hb : b' = b) (hc : c) :
    v' - v = b' - b ↔ c := by
  rw [hv, hb, sub_self, sub_self]
  exact iff_of_true rfl hc

/-- A value is accounted for in all states of a run just where each statement changes it by what it books, for a
shared state that keeps an invariant. -/
theorem holds_balanced_iff_of_inv {M : Type*} [AddCommGroup M] (val : σ → M) (booked : π → M)
    {c : σ → π → ω → Prop} {I : σ → Prop} (hI : ∀ s p o, I s → I (prog s p o).1) (hinit : ∀ i, booked (init i) = 0)
    (hprog : ∀ s p o, I s → (val (prog s p o).1 - val s = booked (prog s p o).2 - booked p ↔ c s p o))
    {s : σ} (hs : I s) {l : List (Act ι ω)} :
    Run.Holds (step init prog) (BookedFor val booked (val s)) ⟨s, []⟩ l ↔
      Run.Meets (step init prog) (Each c) ⟨s, []⟩ l := by
  refine Run.holds_iff_meets (I := fun S => I S.shared) (fun S a h => step_shared hI h a) (fun S a h hS => ?_) hs ?_
  · cases a with
    | spawn i =>
      refine iff_of_true ?_ trivial
      show val S.shared = val s + ((step init prog S (.spawn i)).procs.map booked).sum
      rw [sum_spawn, hinit, add_zero]
      exact hS
    | sched k o =>
      cases hk : S.procs[k]? with
      | none =>
        rw [step_sched_none hk]
        exact iff_of_true hS (each_of_none hk)
      | some p =>
        have hsum : (((step init prog S (.sched k o)).procs.map booked).sum : M) =
            (S.procs.map booked).sum + (booked (prog S.shared p o).2 - booked p) := by
          rw [← add_sub_assoc, ← sum_sched booked hk, add_sub_cancel_right]
        have hshared : (step init prog S (.sched k o)).shared = (prog S.shared p o).1 :=
          congrArg shared (step_sched_some hk)
        have hS' : val S.shared = val s + (S.procs.map booked).sum := hS
        unfold BookedFor
        rw [hshared, hsum, ← add_assoc, ← hS', ← sub_eq_iff_eq_add', hprog _ _ _ h]
        exact (each_iff hk).symm
  · show val s = val s + 0
    rw [add_zero]

/-- The same for a shared state of any kind. -/
theorem holds_balanced_iff {M : Type*} [AddCommGroup M] (val : σ → M) (booked : π → M) {c : σ → π → ω → Prop}
    (hinit : ∀ i, booked (init i) = 0)
    (hprog : ∀ s p o, val (prog s p o).1 - val s = booked (prog s p o).2 - booked p ↔ c s p o)
    {s : σ} {l : List (Act ι ω)} :
    Run.Holds (step init prog) (BookedFor val booked (val s)) ⟨s, []⟩ l ↔
      Run.Meets (step init prog) (Each c) ⟨s, []⟩ l :=
  holds_balanced_iff_of_inv val booked (I := fun _ => True) (fun _ _ _ _ => trivial) hinit
    (fun s p o _ => hprog s p o) trivial

end

end Procs

end NewApi

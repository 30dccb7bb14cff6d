import Mathlib.Data.List.Basic

/-!
# Runs of a deterministic transition system

A system is a step function `step : σ → ω → σ` on states `σ` and labels `ω`; a label carries every
choice the environment makes (which call, with which arguments, which store update fails). A run is
a list of labels. `Meets step C s l` says that every step of the run `l` from `s` meets the
condition `C` at the state it starts from, and `Always step P s l` that every step of it satisfies
the relation `P` between its two states. The rules below carry an invariant along a run
(`Meets.holds`), and turn a condition that is exact for one step into one that is exact for runs
(`holds_iff_meets`).
-/

namespace NewApi.Run

section
variable {σ ω : Type*} (step : σ → ω → σ)

/-- The state a run ends in. -/
def run (s : σ) (l : List ω) : σ := l.foldl step s

/-- Every step of the run meets `C` at the state it starts from. -/
def Meets (C : σ → ω → Prop) : σ → List ω → Prop
  | _, [] => True
  | s, o :: l => C s o ∧ Meets C (step s o) l

/-- Every step of the run satisfies `P`, a relation between its states and its label. -/
def Always (P : σ → ω → σ → Prop) : σ → List ω → Prop
  | _, [] => True
  | s, o :: l => P s o (step s o) ∧ Always P (step s o) l

/-- Every state of the run satisfies `P`, the first one included. -/
def Holds (P : σ → Prop) : σ → List ω → Prop
  | s, [] => P s
  | s, o :: l => P s ∧ Holds P (step s o) l

variable {step} {s : σ} {o : ω} {l l' : List ω}

/-- A run of an append is the second run from where the first one ends. -/
theorem run_append : run step s (l ++ l') = run step (run step s l) l' :=
  List.foldl_append ..

/-- Where each step overwrites a value or leaves it, a run ends with the last one written, or the first one. -/
theorem get_run {β : Type*} {get : σ → Option β} {new : ω → Option β}
    (h : ∀ s o, get (step s o) = (new o).or (get s)) :
    get (run step s l) = (l.filterMap new).getLast?.or (get s) := by
  induction l generalizing s with
  | nil => rfl
  | cons o l ih =>
    rw [List.filterMap_cons]
    refine (ih (s := step s o)).trans ?_
    rw [h]
    cases new o with
    | none => rfl
    | some b =>
      dsimp only
      rw [List.getLast?_cons]
      cases (l.filterMap new).getLast? <;> rfl

/-- A run meets the trivial condition. -/
theorem meets_of_forall {C : σ → ω → Prop} (h : ∀ s o, C s o) : Meets step C s l := by
  induction l generalizing s with
  | nil => trivial
  | cons o l ih => exact ⟨h s o, ih⟩

/-- The invariant rule for a relation on steps: it holds of every step that starts in the
invariant. -/
theorem Meets.always {C : σ → ω → Prop} {I : σ → Prop} {P : σ → ω → σ → Prop}
    (hstep : ∀ s o, I s → C s o → I (step s o)) (hP : ∀ s o, I s → C s o → P s o (step s o))
    (hs : I s) (h : Meets step C s l) : Always step P s l := by
  induction l generalizing s with
  | nil => trivial
  | cons o l ih => exact ⟨hP s o hs h.1, ih (hstep s o hs h.1) h.2⟩

/-- A relation on steps that is exact for one step is exact for runs: where every step from a state with
the invariant that meets `D` keeps the invariant, and satisfies `E` just when it meets `C`, all steps of a
run that meets `D` satisfy `E` just when they meet `C`. -/
theorem Meets.always_iff {C D : σ → ω → Prop} {I : σ → Prop} {E : σ → ω → σ → Prop}
    (hstep : ∀ s o, I s → D s o → I (step s o))
    (hE : ∀ s o, I s → D s o → (E s o (step s o) ↔ C s o)) (hs : I s) (h : Meets step D s l) :
    Always step E s l ↔ Meets step C s l := by
  induction l generalizing s with
  | nil => exact Iff.rfl
  | cons o l ih => exact and_congr (hE s o hs h.1) (ih (hstep s o hs h.1) h.2)

/-- A condition on labels alone is met where all labels meet it. -/
theorem meets_of_mem {C : ω → Prop} (h : ∀ o ∈ l, C o) : Meets step (fun _ o => C o) s l := by
  induction l generalizing s with
  | nil => trivial
  | cons o l ih => exact ⟨h o List.mem_cons_self, ih fun o ho => h o (List.mem_cons_of_mem _ ho)⟩

/-- Two conditions are met where each is. -/
theorem Meets.and {C D : σ → ω → Prop} (h : Meets step C s l) (h' : Meets step D s l) :
    Meets step (fun s o => C s o ∧ D s o) s l := by
  induction l generalizing s with
  | nil => trivial
  | cons o l ih => exact ⟨⟨h.1, h'.1⟩, ih h.2 h'.2⟩

/-- The invariant rule with the invariant read in every state of the run. -/
theorem Meets.holds {C : σ → ω → Prop} {I : σ → Prop} {P : σ → Prop}
    (hstep : ∀ s o, I s → C s o → I (step s o)) (hP : ∀ s, I s → P s) (hs : I s)
    (h : Meets step C s l) : Holds step P s l := by
  induction l generalizing s with
  | nil => exact hP s hs
  | cons o l ih => exact ⟨hP s hs, ih (hstep s o hs h.1) h.2⟩

/-- Properties that agree where an invariant holds agree on runs from there. -/
theorem holds_congr_of_inv {I P Q : σ → Prop} (hinv : ∀ s o, I s → I (step s o)) (h : ∀ s, I s → (P s ↔ Q s))
    (hs : I s) : Holds step P s l ↔ Holds step Q s l := by
  induction l generalizing s with
  | nil => exact h s hs
  | cons o l ih => exact and_congr (h s hs) (ih (hinv s o hs))

/-- What holds in every state of a run holds in the state it starts from. -/
theorem Holds.head {P : σ → Prop} (h : Holds step P s l) : P s := by
  cases l with
  | nil => exact h
  | cons o l => exact h.1

/-- What holds in every state of a run holds in the state it ends in. -/
theorem Holds.last {P : σ → Prop} (h : Holds step P s l) : P (run step s l) := by
  induction l generalizing s with
  | nil => exact h
  | cons o l ih => exact ih h.2

/-- What holds in every state of a run may be weakened. -/
theorem Holds.imp {P Q : σ → Prop} (h : Holds step P s l) (hPQ : ∀ s, P s → Q s) : Holds step Q s l := by
  induction l generalizing s with
  | nil => exact hPQ s h
  | cons o l ih => exact ⟨hPQ s h.1, ih h.2⟩

/-- A condition exact for one step is exact for runs, for a property of states and a relation on steps:
where every step from a state with the invariant keeps the invariant, and reaches `P` and satisfies
`E` just when it meets `C`, a run from such a state has `P` in all its states and `E` in all its
steps just when all its steps meet `C`. -/
theorem holds_and_always_iff_meets {C : σ → ω → Prop} {I P : σ → Prop} {E : σ → ω → σ → Prop}
    (hinv : ∀ s o, I s → I (step s o))
    (hP : ∀ s o, I s → P s → (P (step s o) ∧ E s o (step s o) ↔ C s o)) (hs : I s) (h0 : P s) :
    Holds step P s l ∧ Always step E s l ↔ Meets step C s l := by
  induction l generalizing s with
  | nil => exact ⟨fun _ => trivial, fun _ => ⟨h0, trivial⟩⟩
  | cons o l ih =>
    refine ⟨fun ⟨⟨_, hholds⟩, he, halways⟩ => ?_, fun ⟨hc, hmeets⟩ => ?_⟩
    · have hPo := hholds.head
      exact ⟨(hP s o hs h0).1 ⟨hPo, he⟩, (ih (hinv s o hs) hPo).1 ⟨hholds, halways⟩⟩
    · obtain ⟨hPo, he⟩ := (hP s o hs h0).2 hc
      obtain ⟨hholds, halways⟩ := (ih (hinv s o hs) hPo).2 hmeets
      exact ⟨⟨h0, hholds⟩, he, halways⟩

/-- A condition that is exact for one step of the runs that meet `D` is exact for these runs. -/
theorem Meets.holds_iff {C D : σ → ω → Prop} {I P : σ → Prop} (hstep : ∀ s o, I s → D s o → I (step s o))
    (hP : ∀ s o, I s → D s o → P s → (P (step s o) ↔ C s o)) (hs : I s) (h0 : P s) (h : Meets step D s l) :
    Holds step P s l ↔ Meets step C s l := by
  induction l generalizing s with
  | nil => exact iff_of_true h0 trivial
  | cons o l ih =>
    have hnext := hstep s o hs h.1
    have hone := hP s o hs h.1 h0
    refine ⟨fun ⟨_, hholds⟩ => ?_, fun ⟨hc, hmeets⟩ => ?_⟩
    · have hPo := hholds.head
      exact ⟨hone.1 hPo, (ih hnext hPo h.2).1 hholds⟩
    · have hPo := hone.2 hc
      exact ⟨h0, (ih hnext hPo h.2).2 hmeets⟩

/-- The trivial relation is satisfied by all steps. -/
theorem always_true : Always step (fun _ _ _ => True) s l := by
  induction l generalizing s with
  | nil => trivial
  | cons o l ih => exact ⟨trivial, ih⟩

/-- What holds of every step of a run may be weakened. -/
theorem Always.imp {P Q : σ → ω → σ → Prop} (h : Always step P s l) (hPQ : ∀ s o s', P s o s' → Q s o s') : Always step Q s l := by
  induction l generalizing s with
  | nil => trivial
  | cons o l ih => exact ⟨hPQ _ _ _ h.1, ih h.2⟩

/-- A condition exact for one step is exact for runs: where every step from a state with the
invariant keeps the invariant, and reaches `P` just when it meets `C`, a run from such a state has
`P` in all its states just when all its steps meet `C`. -/
theorem holds_iff_meets {C : σ → ω → Prop} {I : σ → Prop} {P : σ → Prop}
    (hinv : ∀ s o, I s → I (step s o)) (hP : ∀ s o, I s → P s → (P (step s o) ↔ C s o))
    (hs : I s) (h0 : P s) : Holds step P s l ↔ Meets step C s l := by
  rw [← holds_and_always_iff_meets (E := fun _ _ _ => True) hinv
    (fun s o hs h0 => (and_iff_left trivial).trans (hP s o hs h0)) hs h0]
  exact (and_iff_left always_true).symm

end

end NewApi.Run

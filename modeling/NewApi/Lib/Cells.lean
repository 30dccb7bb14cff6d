import Mathlib.Data.List.Basic

/-!
# Computations on cells that may fail

A computation with a state that fails leaves what it has done to the state so far. `Triple P x Q E` says what holds of
the state behind it, where it succeeds and where it fails, and `Keeps I x Q` that an invariant holds either way. Both
are proved along the computation: `Keeps.bind`, `Keeps.foldlM`, `Keeps.tryCatch`.

The state of a language with references is a list of cells, the address of a cell being its index: a new one comes
last. `Kept base s s'` says that the cells below an address are as they were, which new cells and changes of cells from
the address on do not break.
-/

namespace NewApi.Cells

/-! ## Triples -/

section
variable {σ ε α β γ : Type}

/-- What a computation comes to, and the state that it leaves. -/
def outcome (x : ExceptT ε (StateM σ) α) (s : σ) : Except ε α × σ := StateT.run (ExceptT.run x) s

/-- A result satisfies `Q` with the state, and the state behind an error satisfies `E`. -/
def Leaves (Q : α → σ → Prop) (E : σ → Prop) : Except ε α × σ → Prop
  | (.ok a, s) => Q a s
  | (.error _, s) => E s

/-- From a state that satisfies `P`, a result satisfies `Q`, and the state behind an error `E`. -/
def Triple (P : σ → Prop) (x : ExceptT ε (StateM σ) α) (Q : α → σ → Prop) (E : σ → Prop) : Prop :=
  ∀ s, P s → Leaves Q E (outcome x s)

/-- The second computation goes on from the state that the first one leaves, unless that fails. -/
theorem outcome_bind {x : ExceptT ε (StateM σ) α} {f : α → ExceptT ε (StateM σ) β} {s : σ} :
    outcome (x >>= f) s =
      match outcome x s with
      | (.ok a, s') => outcome (f a) s'
      | (.error e, s') => (.error e, s') := by
  show StateT.run (StateT.bind x (ExceptT.bindCont f)) s = _
  unfold outcome StateT.run StateT.bind ExceptT.run
  show ExceptT.bindCont f (x s).1 (x s).2 = _
  generalize x s = r
  obtain ⟨e | a, s'⟩ := r
  · rfl
  · rfl

theorem outcome_tryCatch {x : ExceptT ε (StateM σ) α} {f : ε → ExceptT ε (StateM σ) α} {s : σ} :
    outcome (tryCatch x f) s =
      match outcome x s with
      | (.ok a, s') => (.ok a, s')
      | (.error e, s') => outcome (f e) s' := by
  show StateT.run (StateT.bind x fun
    | .ok a => pure (.ok a)
    | .error e => f e) s = _
  unfold outcome StateT.run StateT.bind ExceptT.run
  show (match (x s).1 with
    | .ok a => (pure (.ok a) : StateM σ (Except ε α))
    | .error e => f e) (x s).2 = _
  generalize x s = r
  obtain ⟨e | a, s'⟩ := r
  · rfl
  · rfl

/-- What fails or not without the state. -/
def lift (x : Except ε α) : ExceptT ε (StateM σ) α :=
  match x with
  | .ok a => pure a
  | .error e => throw e

namespace Triple

variable {P P' : σ → Prop} {Q Q' : α → σ → Prop} {R : β → σ → Prop} {E E' : σ → Prop}
  {x : ExceptT ε (StateM σ) α} {f : α → ExceptT ε (StateM σ) β}

theorem pure {a : α} (h : ∀ s, P s → Q a s) : Triple P (pure a : ExceptT ε (StateM σ) α) Q E := h

theorem throw {e : ε} (h : ∀ s, P s → E s) : Triple P (throw e : ExceptT ε (StateM σ) α) Q E := h

theorem bind (h : Triple P x Q E) (hf : ∀ a, Triple (Q a) (f a) R E) : Triple P (x >>= f) R E := by
  intro s hs
  have hx := h s hs
  rw [outcome_bind]
  generalize outcome x s = r at hx
  obtain ⟨e | a, s'⟩ := r
  · exact hx
  · exact hf a s' hx

theorem get {Q : σ → σ → Prop} (h : ∀ s, P s → Q s s) : Triple P (get : ExceptT ε (StateM σ) σ) Q E := h

theorem modify {Q : PUnit → σ → Prop} {g : σ → σ} (h : ∀ s, P s → Q ⟨⟩ (g s)) :
    Triple P (modify g : ExceptT ε (StateM σ) PUnit) Q E := h

end Triple

/-! ## Invariants -/

/-- The invariant holds behind the computation, whether it fails or not, and a result satisfies `Q`. -/
def Keeps (I : σ → Prop) (x : ExceptT ε (StateM σ) α) (Q : α → Prop) : Prop :=
  Triple I x (fun a s => I s ∧ Q a) I

theorem keeps_iff {I : σ → Prop} {x : ExceptT ε (StateM σ) α} {Q : α → Prop} :
    Keeps I x Q ↔ Triple I x (fun a s => I s ∧ Q a) I := Iff.rfl

namespace Keeps

variable {I : σ → Prop} {Q Q' : α → Prop} {R : β → Prop} {x : ExceptT ε (StateM σ) α}
  {f : α → ExceptT ε (StateM σ) β}

theorem pure {a : α} (h : Q a) : Keeps I (pure a : ExceptT ε (StateM σ) α) Q := Triple.pure fun _ hs => ⟨hs, h⟩

theorem throw {e : ε} : Keeps I (throw e : ExceptT ε (StateM σ) α) Q := Triple.throw fun _ hs => hs

theorem lift {y : Except ε α} (h : ∀ a, y = .ok a → Q a) : Keeps I (Cells.lift y) Q := by
  cases y with
  | error e => exact throw
  | ok a => exact pure (h a rfl)

theorem bind (h : Keeps I x Q) (hf : ∀ a, Q a → Keeps I (f a) R) : Keeps I (x >>= f) R :=
  Triple.bind h fun a s hs => hf a hs.2 s hs.1

/-- What follows an error is not run. -/
theorem throw_bind {e : ε} : Keeps I ((MonadExcept.throw e : ExceptT ε (StateM σ) α) >>= f) R :=
  Keeps.bind (Q := fun _ => False) throw fun _ h => h.elim

theorem forM {g : γ → ExceptT ε (StateM σ) PUnit} {l : List γ} (hstep : ∀ a, Keeps I (g a) fun _ => True) :
    Keeps I (l.forM g) fun _ => True := by
  induction l with
  | nil => exact pure trivial
  | cons a l ih => exact bind (hstep a) fun _ _ => ih

/-- What is read of the state satisfies the invariant. -/
theorem get : Keeps I (get : ExceptT ε (StateM σ) σ) I := Triple.get fun _ hs => ⟨hs, hs⟩

theorem modify {g : σ → σ} {Q : PUnit → Prop} (h : ∀ s, I s → I (g s)) (hQ : Q ⟨⟩) :
    Keeps I (modify g : ExceptT ε (StateM σ) PUnit) Q := Triple.modify fun s hs => ⟨h s hs, hQ⟩

theorem tryCatch {g : ε → ExceptT ε (StateM σ) α} (h : Keeps I x Q) (hg : ∀ e, Keeps I (g e) Q) :
    Keeps I (tryCatch x g) Q := by
  intro s hs
  have hx := h s hs
  rw [outcome_tryCatch]
  generalize outcome x s = r at hx
  obtain ⟨e | a, s'⟩ := r
  · exact hg e s' hx
  · exact hx

/-- A loop keeps what each of its turns does. -/
theorem foldlM {g : β → γ → ExceptT ε (StateM σ) β} {l : List γ} {b : β} (hb : R b)
    (hstep : ∀ b a, R b → Keeps I (g b a) R) : Keeps I (l.foldlM g b) R := by
  induction l generalizing b with
  | nil => exact pure hb
  | cons a l ih => exact bind (hstep b a hb) fun _ hb' => ih hb'

end Keeps

-- A proof that goes along a computation does not look into the runs.
attribute [irreducible] Keeps

end

/-! ## Cells -/

section
variable {C : Type} {base a : ℕ} {cells₀ cells : List C}

/-- The cells below an address are as they were. -/
structure Kept (base : ℕ) (cells₀ cells : List C) : Prop where
  le_length : base ≤ cells.length
  same : ∀ a < base, cells[a]? = cells₀[a]?

theorem Kept.refl : Kept cells.length cells cells := ⟨Nat.le_refl _, fun _ _ => rfl⟩

/-- A cell that is made comes behind them. -/
theorem Kept.append (h : Kept base cells₀ cells) (c : C) : Kept base cells₀ (cells ++ [c]) where
  le_length := by
    rw [List.length_append]
    exact Nat.le_add_right_of_le h.le_length
  same a ha := by
    rw [List.getElem?_append_left (Nat.lt_of_lt_of_le ha h.le_length)]
    exact h.same a ha

theorem Kept.modify (h : Kept base cells₀ cells) (ha : base ≤ a) (f : C → C) :
    Kept base cells₀ (cells.modify a f) where
  le_length := by
    rw [List.length_modify]
    exact h.le_length
  same a' ha' := by
    rw [List.getElem?_modify_ne _ _ (Nat.ne_of_gt (Nat.lt_of_lt_of_le ha' ha))]
    exact h.same a' ha'

end

end NewApi.Cells

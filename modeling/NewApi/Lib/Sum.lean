import NewApi.Lib.Table
import Mathlib.Algebra.BigOperators.Group.List.Basic
import Mathlib.Algebra.Order.BigOperators.Group.List
import Mathlib.Tactic.Abel

/-!
# Sums over the rows of a table

`sumWhere` is the aggregate `SELECT SUM(g) … WHERE p`. The lemmas say what an insertion and an update add
to it and take from it.
-/

namespace NewApi.Table

section
variable {α κ M : Type*} {key : α → κ} {t : Table key}

/-- The sum of a column over the rows that satisfy a condition. -/
def sumWhere [AddCommMonoid M] (t : Table key) (p : α → Prop) [DecidablePred p] (g : α → M) : M :=
  ((t.rows.filter fun a => p a).map g).sum

variable {p q : α → Prop} [DecidablePred p] [DecidablePred q] {g : α → M}

/-- A sum over the rows that satisfy a condition is a sum over all rows, with zeros for the others. -/
theorem sum_filter_map [AddCommMonoid M] (l : List α) :
    ((l.filter fun a => p a).map g).sum = (l.map fun a => if p a then g a else 0).sum := by
  induction l with
  | nil => rfl
  | cons a l ih =>
    rw [List.map_cons, List.sum_cons, ← ih]
    split
    next h => rw [List.filter_cons_of_pos (by simpa using h), List.map_cons, List.sum_cons]
    next h => rw [List.filter_cons_of_neg (by simpa using h), zero_add]

theorem sumWhere_eq [AddCommMonoid M] :
    t.sumWhere p g = (t.rows.map fun a => if p a then g a else 0).sum := sum_filter_map t.rows

/-- Conditions that agree on the rows select the same sum. -/
theorem sumWhere_congr [AddCommMonoid M] (h : ∀ a ∈ t, (p a ↔ q a)) :
    t.sumWhere p g = t.sumWhere q g := by
  rw [sumWhere_eq, sumWhere_eq]
  exact congrArg List.sum (List.map_congr_left fun a ha => if_congr (h a ha) rfl rfl)

/-- Columns that agree on the selected rows have the same sum. -/
theorem sumWhere_congr_column [AddCommMonoid M] {g' : α → M} (h : ∀ a ∈ t, p a → g a = g' a) :
    t.sumWhere p g = t.sumWhere p g' := by
  refine congrArg List.sum (List.map_congr_left fun a ha => ?_)
  obtain ⟨hmem, hp⟩ := List.mem_filter.1 ha
  exact h a hmem (of_decide_eq_true hp)

/-- A sum over two conditions, never both, is the sum over each. -/
theorem sumWhere_or [AddCommMonoid M] (h : ∀ a ∈ t, p a → ¬ q a) :
    t.sumWhere (fun a => p a ∨ q a) g = t.sumWhere p g + t.sumWhere q g := by
  rw [sumWhere_eq, sumWhere_eq, sumWhere_eq, ← List.sum_map_add]
  refine congrArg List.sum (List.map_congr_left fun a ha => ?_)
  split
  next hor =>
    rcases hor with hp | hq
    · rw [if_pos hp, if_neg (h a ha hp), add_zero]
    · rw [if_neg fun hp => h a ha hp hq, if_pos hq, zero_add]
  next hnor => rw [if_neg fun hp => hnor (.inl hp), if_neg fun hq => hnor (.inr hq), add_zero]

/-- A condition on the values is one on the rows. -/
theorem sumWhere_ite [AddCommMonoid M] :
    t.sumWhere p (fun a => if q a then g a else 0) = t.sumWhere (fun a => q a ∧ p a) g := by
  rw [sumWhere_eq, sumWhere_eq]
  refine congrArg List.sum (List.map_congr_left fun a _ => ?_)
  split
  next hp => exact if_congr (and_iff_left hp).symm rfl rfl
  next hnp => exact (if_neg fun hand => hnp hand.2).symm

variable [DecidableEq κ] {k : κ} {a b : α} {f : α → α} {hf : ∀ a, key (f a) = key a}

/-- A row inserted under a free key adds its value. -/
theorem sumWhere_insertNew [AddCommMonoid M] (h : t.get? (key a) = none) :
    (t.insertNew a).sumWhere p g = t.sumWhere p g + if p a then g a else 0 := by
  rw [sumWhere_eq, sumWhere_eq, rows_insertNew (get?_eq_none.1 h), List.map_append, List.sum_append,
    List.map_singleton, List.sum_singleton]

/-- An update of one row takes its value and adds the new one. -/
theorem sumWhere_modify [AddCommGroup M] (h : t.get? k = some a) :
    (t.modify k f hf).sumWhere p g =
      t.sumWhere p g - (if p a then g a else 0) + if p (f a) then g (f a) else 0 := by
  obtain ⟨hmem, hkey⟩ := get?_eq_some.1 h
  obtain ⟨l, l', hrows⟩ := List.append_of_mem (mem_rows.1 hmem)
  have hnodup := t.nodup
  rw [hrows, List.map_append, List.map_cons, List.nodup_append, List.nodup_cons] at hnodup
  obtain ⟨-, ⟨hnot', -⟩, hdisj⟩ := hnodup
  have hne : ∀ b ∈ l, key b ≠ k := fun b hb he =>
    hdisj _ (List.mem_map_of_mem hb) _ List.mem_cons_self (he.trans hkey.symm)
  have hne' : ∀ b ∈ l', key b ≠ k := fun b hb he =>
    hnot' (hkey.trans he.symm ▸ List.mem_map_of_mem hb)
  have hid : ∀ l : List α, (∀ b ∈ l, key b ≠ k) →
      (l.map fun b => if key b = k then f b else b) = l := by
    intro l hl
    conv_rhs => rw [← List.map_id l]
    exact List.map_congr_left fun b hb => if_neg (hl b hb)
  rw [sumWhere_eq, sumWhere_eq, modify, rows_modifyWhere, hrows, List.map_append, List.map_cons,
    hid l hne, hid l' hne', if_pos hkey]
  simp only [List.map_append, List.map_cons, List.sum_append, List.sum_cons]
  abel

/-- Over one more row, a sum has its value more. -/
theorem sumWhere_or_key [AddCommMonoid M] (h : t.get? k = some a) (hp : ¬ p a) :
    t.sumWhere (fun b => key b = k ∨ p b) g = t.sumWhere p g + g a := by
  obtain ⟨hmem, rfl⟩ := get?_eq_some.1 h
  obtain ⟨l, l', hrows⟩ := List.append_of_mem (mem_rows.1 hmem)
  have hnodup := t.nodup
  rw [hrows, List.map_append, List.map_cons, List.nodup_append, List.nodup_cons] at hnodup
  obtain ⟨-, ⟨hnot', -⟩, hdisj⟩ := hnodup
  have hsame : ∀ l : List α, (∀ b ∈ l, key b ≠ key a) →
      (l.map fun b => if key b = key a ∨ p b then g b else 0) =
        l.map fun b => if p b then g b else 0 := fun l hl =>
    List.map_congr_left fun b hb => if_congr (or_iff_right (hl b hb)) rfl rfl
  have hl : ∀ b ∈ l, key b ≠ key a := fun b hb =>
    hdisj _ (List.mem_map_of_mem hb) _ List.mem_cons_self
  have hl' : ∀ b ∈ l', key b ≠ key a := fun b hb he => hnot' (he ▸ List.mem_map_of_mem hb)
  rw [sumWhere_eq, sumWhere_eq, hrows]
  simp only [List.map_append, List.map_cons, List.sum_append, List.sum_cons, hsame l hl,
    hsame l' hl', true_or, if_true, if_neg hp]
  abel

/-- The sum over the rows under a key is the value of the row, if there is one. -/
theorem sumWhere_key [AddCommMonoid M] : t.sumWhere (fun a => key a = k) g = (t.get? k).elim 0 g := by
  cases h : t.get? k with
  | none =>
    rw [sumWhere_eq, List.sum_eq_zero]
    · rfl
    · intro x hx
      obtain ⟨a, ha, rfl⟩ := List.mem_map.1 hx
      exact if_neg (get?_eq_none.1 h a ha)
  | some a =>
    have hone := sumWhere_or_key (p := fun _ => False) (g := g) h not_false
    have hnone : t.sumWhere (fun _ => False) g = 0 := by
      rw [sumWhere_eq, List.sum_eq_zero]
      intro x hx
      obtain ⟨a, -, rfl⟩ := List.mem_map.1 hx
      exact if_neg not_false
    rw [hnone, zero_add] at hone
    rw [sumWhere_congr (q := fun b => key b = k ∨ False) fun b _ => (iff_of_eq (or_false _)).symm]
    exact hone

/-- An update that changes neither what is selected nor what is added changes no sum. -/
theorem sumWhere_modify_of_eq [AddCommMonoid M] (hp : ∀ a ∈ t, key a = k → (p (f a) ↔ p a))
    (hg : ∀ a ∈ t, key a = k → g (f a) = g a) : (t.modify k f hf).sumWhere p g = t.sumWhere p g := by
  rw [sumWhere_eq, sumWhere_eq, modify, rows_modifyWhere, List.map_map]
  refine congrArg List.sum (List.map_congr_left fun a ha => ?_)
  simp only [Function.comp]
  split
  next hk => rw [hg a ha hk]; exact if_congr (hp a ha hk) rfl rfl
  next => rfl

end

end NewApi.Table

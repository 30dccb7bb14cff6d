import Mathlib.Data.List.Sort
import Mathlib.Tactic.Ring

/-!
# A queue that is worked off in batches

A worker takes the first rows of a sorted queue, finishes those that it can, and goes on as long as it has
finished a full batch. It leaves nothing that it could finish just where no such row is in a later batch than
one it cannot finish (`drain_clears_iff`).
-/

namespace NewApi

section
variable {α : Type*} (k : ℕ) (p : α → Prop) [DecidablePred p]

/-- What a batch leaves: the rows that cannot be finished, and those behind the batch. -/
def round (l : List α) : List α := ((l.take k).filter fun a => ¬ p a) ++ l.drop k

/-- How many rows of a batch are finished. -/
def finished (l : List α) : ℕ := (l.take k).countP fun a => p a

/-- The queue that is left when a batch is not finished in full; none, after so many batches. -/
def drain : ℕ → List α → Option (List α)
  | 0, _ => none
  | rounds + 1, l => if finished k p l < k then some (round k p l) else drain rounds (round k p l)

/-- No row that can be finished is in a later batch than one that cannot. -/
def FinishedFirst (l : List α) : Prop :=
  ∀ i j a b, l[i]? = some a → l[j]? = some b → ¬ p a → p b → j / k ≤ i / k

end

section
variable {α β : Type*} {k : ℕ} {p : α → Prop} [DecidablePred p] {l : List α} {a : α}

theorem finished_eq_length : finished k p l = (l.take k).length ↔ ∀ a ∈ l.take k, p a := by
  unfold finished
  rw [List.countP_eq_length]
  exact forall₂_congr fun a _ => decide_eq_true_iff

/-- A batch that is finished in full leaves what is behind it. -/
theorem round_of_full (h : ¬ finished k p l < k) :
    (∀ a ∈ l.take k, p a) ∧ k ≤ l.length ∧ round k p l = l.drop k := by
  have hle : finished k p l ≤ (l.take k).length := List.countP_le_length
  have hlen := List.length_take_le k l
  have hlen' := List.length_take_le' k l
  have hall : ∀ a ∈ l.take k, p a := finished_eq_length.1 (by omega)
  refine ⟨hall, by omega, ?_⟩
  unfold round
  rw [List.filter_eq_nil_iff.2, List.nil_append]
  simpa using hall

omit [DecidablePred p] in
/-- The batches behind the first are worked off as they come. -/
theorem finishedFirst_drop (hk : 0 < k) (h : ∀ a ∈ l.take k, p a) :
    FinishedFirst k p (l.drop k) ↔ FinishedFirst k p l := by
  constructor
  · intro hfirst i j a b hi hj hna hb
    have hik : k ≤ i := by
      by_contra hlt
      refine hna (h a (List.mem_iff_getElem?.2 ⟨i, ?_⟩))
      rw [List.getElem?_take_of_lt (not_le.1 hlt)]
      exact hi
    rcases Nat.lt_or_ge j k with hj' | hj'
    · rw [Nat.div_eq_of_lt hj']
      exact Nat.zero_le _
    · obtain ⟨i, rfl⟩ := Nat.exists_eq_add_of_le hik
      obtain ⟨j, rfl⟩ := Nat.exists_eq_add_of_le hj'
      have := hfirst i j a b (by rw [List.getElem?_drop]; exact hi) (by rw [List.getElem?_drop]; exact hj) hna hb
      rw [Nat.add_div_left _ hk, Nat.add_div_left _ hk]
      exact Nat.succ_le_succ this
  · intro hfirst i j a b hi hj hna hb
    rw [List.getElem?_drop] at hi hj
    have := hfirst _ _ a b hi hj hna hb
    rw [Nat.add_div_left _ hk, Nat.add_div_left _ hk] at this
    exact Nat.succ_le_succ_iff.1 this

/-- A batch that is not finished in full is the last, and is to leave nothing behind it. -/
theorem finishedFirst_of_lt (h : finished k p l < k) :
    FinishedFirst k p l ↔ ∀ a ∈ round k p l, ¬ p a := by
  have hround : (∀ a ∈ round k p l, ¬ p a) ↔ ∀ a ∈ l.drop k, ¬ p a := by
    simp only [round, List.mem_append, List.mem_filter, decide_eq_true_eq]
    exact ⟨fun hall a ha => hall a (.inr ha), fun hall a ha => ha.elim And.right (hall a)⟩
  rw [hround]
  constructor
  · intro hfirst b hb hpb
    obtain ⟨j, hj⟩ := List.mem_iff_getElem?.1 hb
    rw [List.getElem?_drop] at hj
    obtain ⟨hjlen, -⟩ := List.getElem?_eq_some_iff.1 hj
    -- some row of the batch cannot be finished
    have hsome : ∃ a ∈ l.take k, ¬ p a := by
      by_contra hno
      push Not at hno
      have hfull := finished_eq_length.2 hno
      rw [List.length_take, Nat.min_eq_left (by omega)] at hfull
      omega
    obtain ⟨a, ha, hna⟩ := hsome
    obtain ⟨i, hi⟩ := List.mem_iff_getElem?.1 ha
    rw [List.getElem?_take] at hi
    split at hi
    next hik =>
      have := hfirst i (k + j) a b hi hj hna hpb
      rw [Nat.div_eq_of_lt hik, Nat.add_div_left _ (by omega)] at this
      exact absurd this (Nat.not_succ_le_zero _)
    · cases hi
  · intro hall i j a b hi hj hna hb
    rcases Nat.lt_or_ge j k with hj' | hj'
    · rw [Nat.div_eq_of_lt hj']
      exact Nat.zero_le _
    · obtain ⟨j, rfl⟩ := Nat.exists_eq_add_of_le hj'
      refine absurd hb (hall b (List.mem_iff_getElem?.2 ⟨j, ?_⟩))
      rw [List.getElem?_drop]
      exact hj

/-- A queue is cleared of what can be finished just where that comes first. -/
theorem drain_clears_iff (hk : 0 < k) :
    (∃ rounds l', drain k p rounds l = some l' ∧ ∀ a ∈ l', ¬ p a) ↔ FinishedFirst k p l := by
  induction hn : l.length using Nat.strong_induction_on generalizing l with
  | _ n ih =>
    by_cases hlast : finished k p l < k
    · rw [finishedFirst_of_lt hlast]
      constructor
      · rintro ⟨rounds, l', hdrain, hclear⟩
        cases rounds with
        | zero => cases hdrain
        | succ rounds =>
          rw [drain, if_pos hlast] at hdrain
          cases hdrain
          exact hclear
      · intro hclear
        exact ⟨1, round k p l, by rw [drain, if_pos hlast], hclear⟩
    · obtain ⟨hall, hlen, hround⟩ := round_of_full hlast
      have ih := ih (l.drop k).length (by rw [List.length_drop]; omega) rfl
      rw [← finishedFirst_drop hk hall, ← ih]
      constructor
      · rintro ⟨rounds, l', hdrain, hclear⟩
        cases rounds with
        | zero => cases hdrain
        | succ rounds =>
          rw [drain, if_neg hlast, hround] at hdrain
          exact ⟨rounds, l', hdrain, hclear⟩
      · rintro ⟨rounds, l', hdrain, hclear⟩
        exact ⟨rounds + 1, l', by rw [drain, if_neg hlast, hround]; exact hdrain, hclear⟩

/-! ## A batch as a filter -/

/-- Where no row is twice in the queue, a batch takes rows out of it. -/
theorem round_eq_filter [DecidableEq α] (hl : l.Nodup) :
    round k p l = l.filter fun a => ¬ (a ∈ l.take k ∧ p a) := by
  conv_rhs => rw [← List.take_append_drop k l]
  rw [List.filter_append, round]
  congr 1
  · refine List.filter_congr fun a ha => ?_
    rw [List.take_append_drop]
    simp [ha]
  · refine (List.filter_eq_self.2 fun a ha => ?_).symm
    rw [List.take_append_drop]
    have hnot : a ∉ l.take k := fun htake => List.disjoint_take_drop hl le_rfl htake ha
    simp [hnot]

variable {r : α → α → Prop} [DecidableRel r]

/-- Rows can be taken out of a sorted list before a row is put into it. -/
theorem filter_orderedInsert [IsTrans α r] (hl : l.Pairwise r) (a : α) :
    (l.orderedInsert r a).filter (fun b => p b) =
      if p a then (l.filter fun b => p b).orderedInsert r a else l.filter fun b => p b := by
  induction l with
  | nil =>
    rw [List.orderedInsert_nil]
    by_cases ha : p a
    · simp [ha]
    · simp [ha]
  | cons b l ih =>
    obtain ⟨hb, hl⟩ := List.pairwise_cons.1 hl
    rw [List.orderedInsert_cons]
    split
    next hab =>
      -- the row goes before all that are left
      have hbefore : ((b :: l).filter fun b => p b).orderedInsert r a = a :: (b :: l).filter fun b => p b := by
        cases hrest : (b :: l).filter fun b => p b with
        | nil => rfl
        | cons c rest =>
          have hc : c ∈ b :: l := List.mem_of_mem_filter (hrest ▸ List.mem_cons_self)
          refine List.orderedInsert_cons_of_le r _ ?_
          rcases List.mem_cons.1 hc with rfl | hc
          · exact hab
          · exact IsTrans.trans _ _ _ hab (hb c hc)
      rw [hbefore, List.filter_cons]
      simp only [decide_eq_true_eq]
    next hab =>
      rw [List.filter_cons, List.filter_cons, ih hl]
      by_cases hpb : p b
      · simp only [hpb, decide_true, if_true, List.orderedInsert_cons, if_neg hab]
        split <;> rfl
      · simp only [hpb, decide_false, Bool.false_eq_true, if_false]

/-- Rows can be taken out of a list before it is sorted. -/
theorem filter_insertionSort [IsTrans α r] [Std.Total r] :
    (l.insertionSort r).filter (fun a => p a) = (l.filter fun a => p a).insertionSort r := by
  induction l with
  | nil => rfl
  | cons a l ih =>
    rw [List.insertionSort_cons, filter_orderedInsert (List.pairwise_insertionSort r l), ih, List.filter_cons]
    by_cases ha : p a
    · simp [ha]
    · simp [ha]

/-- Rows that are selected after an update are those that were selected, where the update leaves these. -/
theorem filter_map_of_eq {f : α → α} {q : α → Prop} [DecidablePred q]
    (h : ∀ a ∈ l, (p (f a) ↔ q a) ∧ (q a → f a = a)) :
    (l.map f).filter (fun a => p a) = l.filter fun a => q a := by
  induction l with
  | nil => rfl
  | cons a l ih =>
    obtain ⟨hiff, hself⟩ := h a List.mem_cons_self
    have ih := ih fun b hb => h b (List.mem_cons_of_mem a hb)
    rw [List.map_cons, List.filter_cons, List.filter_cons, ih]
    by_cases hq : q a
    · rw [if_pos (decide_eq_true (hiff.2 hq)), if_pos (decide_eq_true hq), hself hq]
    · simp [hq, mt hiff.1 hq]

end

end NewApi

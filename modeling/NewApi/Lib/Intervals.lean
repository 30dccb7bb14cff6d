import Mathlib.Data.List.Basic
import Mathlib.Order.SuccPred.Basic

/-!
# Closed intervals

A list of closed intervals that is sorted by where they start is merged in one pass: an interval that starts in the last one
or right behind it is added to it. What comes of it covers the same points (`mem_merge`), and no two of its intervals overlap or
touch (`separated_merge`). In a list without overlaps the first interval that does not end before a point decides whether it is
covered (`exists_mem_cons_iff`), and such a list is not changed by another merge (`merge_of_separated`).
-/

namespace NewApi

/-- A closed interval. -/
@[ext]
structure Interval (α : Type*) where
  first : α
  last : α
  deriving DecidableEq

namespace Interval

section
variable {α : Type*} [LinearOrder α]

/-- The points of the interval. -/
protected def Mem (x : α) (r : Interval α) : Prop := r.first ≤ x ∧ x ≤ r.last

instance {x : α} {r : Interval α} : Decidable (r.Mem x) := inferInstanceAs (Decidable (_ ∧ _))

/-- By the start, and by the end among those of one start. -/
def Le (a b : Interval α) : Prop := a.first < b.first ∨ a.first = b.first ∧ a.last ≤ b.last

instance : DecidableRel (Le (α := α)) := fun _ _ => inferInstanceAs (Decidable (_ ∨ _))

theorem Le.first_le {a b : Interval α} (h : a.Le b) : a.first ≤ b.first := by
  rcases h with hlt | ⟨heq, -⟩
  · exact hlt.le
  · exact heq.le

instance : IsTrans (Interval α) Le where
  trans a b c hab hbc := by
    rcases hab with hlt | ⟨heq, hle⟩
    · exact .inl (hlt.trans_le hbc.first_le)
    · rcases hbc with hlt' | ⟨heq', hle'⟩
      · exact .inl (heq.trans_lt hlt')
      · exact .inr ⟨heq.trans heq', hle.trans hle'⟩

instance : Std.Total (Le (α := α)) where
  total a b := by
    rcases lt_trichotomy a.first b.first with hlt | heq | hgt
    · exact .inl (.inl hlt)
    · rcases le_total a.last b.last with hle | hle
      · exact .inl (.inr ⟨heq, hle⟩)
      · exact .inr (.inr ⟨heq.symm, hle⟩)
    · exact .inr (.inl hgt)

/-- The order by the starts. -/
def Sorted (l : List (Interval α)) : Prop := l.Pairwise fun a b => a.first ≤ b.first

variable [SuccOrder α] {x : α} {r last : Interval α} {l : List (Interval α)}

/-- No two of the intervals overlap or touch, and none of them is empty. -/
structure Separated (l : List (Interval α)) : Prop where
  nonempty : ∀ r ∈ l, r.first ≤ r.last
  apart : l.Pairwise fun a b => Order.succ a.last < b.first

/-- The intervals that start in the last one or right behind it are added to it. -/
def mergeFrom (last : Interval α) : List (Interval α) → List (Interval α)
  | [] => [last]
  | r :: l =>
    if r.first ≤ Order.succ last.last then mergeFrom { last with last := max last.last r.last } l
    else last :: mergeFrom r l

/-- The merged list. -/
def merge : List (Interval α) → List (Interval α)
  | [] => []
  | r :: l => mergeFrom r l

/-! ## The points of the merged list -/

/-- The points of two intervals, of which one starts in the other or right behind it. -/
theorem mem_max_iff (hfirst : last.first ≤ r.first) (htouch : r.first ≤ Order.succ last.last) :
    Interval.Mem x { last with last := max last.last r.last } ↔ last.Mem x ∨ r.Mem x := by
  constructor
  · rintro ⟨hlo, hhi⟩
    rcases le_or_gt x last.last with hle | hgt
    · exact .inl ⟨hlo, hle⟩
    · refine .inr ⟨htouch.trans (Order.succ_le_of_lt hgt), ?_⟩
      exact (le_max_iff.1 hhi).resolve_left (not_le.2 hgt)
  · rintro (⟨hlo, hhi⟩ | ⟨hlo, hhi⟩)
    · exact ⟨hlo, le_max_of_le_left hhi⟩
    · exact ⟨hfirst.trans hlo, le_max_of_le_right hhi⟩

theorem mem_mergeFrom (hfirst : ∀ r ∈ l, last.first ≤ r.first) (hsorted : Sorted l) :
    (∃ r ∈ mergeFrom last l, r.Mem x) ↔ last.Mem x ∨ ∃ r ∈ l, r.Mem x := by
  induction l generalizing last with
  | nil => simp [mergeFrom]
  | cons r l ih =>
    obtain ⟨hr, hl⟩ := List.pairwise_cons.1 hsorted
    rw [List.forall_mem_cons] at hfirst
    unfold mergeFrom
    split
    next htouch =>
      have hgrown := @ih { last with last := max last.last r.last } hfirst.2 hl
      rw [hgrown, mem_max_iff hfirst.1 htouch, or_assoc]
      simp
    next =>
      simp only [List.mem_cons, exists_eq_or_imp]
      rw [ih hr hl]

/-- Merging a sorted list keeps its points. -/
theorem mem_merge (hsorted : Sorted l) : (∃ r ∈ merge l, r.Mem x) ↔ ∃ r ∈ l, r.Mem x := by
  cases l with
  | nil => rfl
  | cons r l =>
    obtain ⟨hr, hl⟩ := List.pairwise_cons.1 hsorted
    rw [merge, mem_mergeFrom hr hl]
    simp

/-! ## Separated lists -/

theorem separated_mergeFrom (hlast : last.first ≤ last.last) (hne : ∀ r ∈ l, r.first ≤ r.last)
    (hfirst : ∀ r ∈ l, last.first ≤ r.first) (hsorted : Sorted l) :
    Separated (mergeFrom last l) ∧ ∀ r ∈ mergeFrom last l, last.first ≤ r.first := by
  induction l generalizing last with
  | nil =>
    unfold mergeFrom
    simp only [List.forall_mem_singleton]
    exact ⟨⟨by simpa using hlast, List.pairwise_singleton _ _⟩, le_refl _⟩
  | cons r l ih =>
    obtain ⟨hr, hl⟩ := List.pairwise_cons.1 hsorted
    rw [List.forall_mem_cons] at hfirst hne
    unfold mergeFrom
    split
    next => exact ih (hlast.trans (le_max_left _ _)) hne.2 hfirst.2 hl
    next hgap =>
      obtain ⟨⟨hnonempty, hapart⟩, hstarts⟩ := ih hne.1 hne.2 hr hl
      refine ⟨⟨List.forall_mem_cons.2 ⟨hlast, hnonempty⟩, List.pairwise_cons.2 ⟨fun b hb => ?_, hapart⟩⟩, ?_⟩
      · exact (not_le.1 hgap).trans_le (hstarts b hb)
      · exact List.forall_mem_cons.2 ⟨le_refl _, fun b hb => hfirst.1.trans (hstarts b hb)⟩

/-- Merging a sorted list of intervals that are not empty separates them. -/
theorem separated_merge (hne : ∀ r ∈ l, r.first ≤ r.last) (hsorted : Sorted l) : Separated (merge l) := by
  cases l with
  | nil => exact ⟨nofun, .nil⟩
  | cons r l =>
    obtain ⟨hr, hl⟩ := List.pairwise_cons.1 hsorted
    rw [List.forall_mem_cons] at hne
    exact (separated_mergeFrom hne.1 hne.2 hr hl).1

/-- There is nothing to merge in a separated list. -/
theorem merge_of_separated (h : Separated l) : merge l = l := by
  have hfrom : ∀ {last : Interval α} {l : List (Interval α)}, Separated (last :: l) → mergeFrom last l = last :: l := by
    intro last l h
    induction l generalizing last with
    | nil => rfl
    | cons r l ih =>
      obtain ⟨hgap, hapart⟩ := List.pairwise_cons.1 h.apart
      rw [mergeFrom, if_neg (not_le.2 (hgap r List.mem_cons_self)), ih ⟨(List.forall_mem_cons.1 h.nonempty).2, hapart⟩]
  cases l with
  | nil => rfl
  | cons r l => exact hfrom h

/-- The starts of a separated list. -/
theorem Separated.first_lt (h : Separated (r :: l)) {b : Interval α} (hb : b ∈ l) : r.last < b.first :=
  (Order.le_succ r.last).trans_lt ((List.pairwise_cons.1 h.apart).1 b hb)

theorem Separated.tail (h : Separated (r :: l)) : Separated l :=
  ⟨(List.forall_mem_cons.1 h.nonempty).2, (List.pairwise_cons.1 h.apart).2⟩

/-- A separated list is sorted. -/
theorem Separated.pairwise_le (h : Separated l) : l.Pairwise Le := by
  induction l with
  | nil => exact .nil
  | cons r l ih =>
    refine List.pairwise_cons.2 ⟨fun b hb => .inl ?_, ih h.tail⟩
    exact ((List.forall_mem_cons.1 h.nonempty).1).trans_lt (h.first_lt hb)

/-- A point before the first interval is in none, and one that is not behind it is in it. -/
theorem Separated.exists_mem_cons_iff (h : Separated (r :: l)) :
    (∃ b ∈ r :: l, b.Mem x) ↔ r.first ≤ x ∧ (x ≤ r.last ∨ ∃ b ∈ l, b.Mem x) := by
  simp only [List.mem_cons, exists_eq_or_imp]
  constructor
  · rintro (⟨hlo, hhi⟩ | ⟨b, hb, hmem⟩)
    · exact ⟨hlo, .inl hhi⟩
    · have hlt := (h.first_lt hb).trans_le hmem.1
      exact ⟨((List.forall_mem_cons.1 h.nonempty).1).trans hlt.le, .inr ⟨b, hb, hmem⟩⟩
  · rintro ⟨hlo, hhi | hmem⟩
    · exact .inl ⟨hlo, hhi⟩
    · exact .inr hmem

end

end Interval

end NewApi

import Mathlib.Data.List.Basic
import Mathlib.Data.List.Nodup
import Mathlib.Data.List.Sort
import Mathlib.Order.Basic

/-!
# Drawing one after another

`pick` draws an element whose key is not among those that are given. Drawn again and again, each time without the
ones before, the elements come in an order that depends on `pick` (`Drawing`). Where it draws a least element of those that
are left, they come in order, each once (`exists_drawing`).

Programs sort to find a least element; of equal ones, a sort that is not stable finds any (`Sorter.head?_least`).
-/

namespace NewApi

/-- A sort by a key: which of the elements of one key comes first is left open. -/
structure Sorter {α κ : Type*} [LE κ] (key : α → κ) where
  sort : List α → List α
  perm : ∀ l, (sort l).Perm l
  sorted : ∀ l, (sort l).Pairwise fun a b => key a ≤ key b

/-- A sort that keeps the order of elements of one key. -/
def Sorter.insertion {α κ : Type*} [LinearOrder κ] (key : α → κ) : Sorter key where
  sort := List.insertionSort fun a b => key a ≤ key b
  perm := List.perm_insertionSort _
  sorted := List.pairwise_insertionSort _

section
variable {α κ : Type*} [LE κ] {key : α → κ} (S : Sorter key) {l : List α} {a : α}

namespace Sorter

theorem mem_sort : a ∈ S.sort l ↔ a ∈ l := (S.perm l).mem_iff

theorem sort_eq_nil : S.sort l = [] ↔ l = [] := by
  rw [← List.length_eq_zero_iff, (S.perm l).length_eq, List.length_eq_zero_iff]

/-- What comes first is a least element. -/
theorem head?_least (hrefl : ∀ k : κ, k ≤ k) (h : (S.sort l).head? = some a) : a ∈ l ∧ ∀ b ∈ l, key a ≤ key b := by
  obtain ⟨rest, hrest⟩ := List.head?_eq_some_iff.1 h
  have hsorted := S.sorted l
  rw [hrest, List.pairwise_cons] at hsorted
  refine ⟨S.mem_sort.1 (hrest ▸ List.mem_cons_self), fun b hb => ?_⟩
  have hmem : b ∈ a :: rest := hrest ▸ S.mem_sort.2 hb
  obtain rfl | hmem := List.mem_cons.1 hmem
  · exact hrefl _
  · exact hsorted.1 b hmem

end Sorter

end

section
variable {α ι : Type*} (pick : List ι → Option α) (id : α → ι)

/-- The elements that are drawn, from those on that have been drawn before. -/
inductive Drawing : List ι → List α → Prop
  | stop {drawn : List ι} : pick drawn = none → Drawing drawn []
  | next {drawn : List ι} {a : α} {l : List α} : pick drawn = some a → Drawing (drawn ++ [id a]) l → Drawing drawn (a :: l)

/-- `pick` draws a least element of those that are left. -/
structure Drawing.Least (r : α → α → Prop) (elements : List α) : Prop where
  none_iff : ∀ drawn, pick drawn = none ↔ ∀ a ∈ elements, id a ∈ drawn
  mem : ∀ {drawn a}, pick drawn = some a → a ∈ elements ∧ id a ∉ drawn
  least : ∀ {drawn a}, pick drawn = some a → ∀ b ∈ elements, id b ∉ drawn → r a b

variable {pick id} {r : α → α → Prop} {elements : List α} {drawn : List ι} {l l' : List α}

/-- What is drawn is left before. -/
theorem Drawing.mem_left (hpick : Drawing.Least pick id r elements) (h : Drawing pick id drawn l) :
    ∀ a ∈ l, a ∈ elements ∧ id a ∉ drawn := by
  induction h with
  | stop => exact List.forall_mem_nil _
  | next hsome _ ih =>
    refine List.forall_mem_cons.2 ⟨hpick.mem hsome, fun b hb => ?_⟩
    exact ⟨(ih b hb).1, fun hmem => (ih b hb).2 (List.mem_append_left _ hmem)⟩

/-- In order, and each once. -/
theorem Drawing.ordered (hpick : Drawing.Least pick id r elements) (h : Drawing pick id drawn l) :
    l.Pairwise r ∧ (l.map id).Nodup := by
  induction h with
  | stop => exact ⟨.nil, .nil⟩
  | next hsome hrest ih =>
    have hleft := hrest.mem_left hpick
    refine ⟨List.pairwise_cons.2 ⟨fun b hb => ?_, ih.1⟩, ?_⟩
    · exact hpick.least hsome b (hleft b hb).1 fun hmem => (hleft b hb).2 (List.mem_append_left _ hmem)
    · rw [List.map_cons, List.nodup_cons]
      refine ⟨fun hmem => ?_, ih.2⟩
      obtain ⟨b, hb, hid⟩ := List.mem_map.1 hmem
      exact (hleft b hb).2 (hid ▸ List.mem_append_right _ (List.mem_singleton_self _))

/-- All that is left is drawn. -/
theorem Drawing.complete (hpick : Drawing.Least pick id r elements) (h : Drawing pick id drawn l) :
    ∀ a ∈ elements, id a ∈ drawn ∨ id a ∈ l.map id := by
  induction h with
  | stop hnone => exact fun a ha => .inl ((hpick.none_iff _).1 hnone a ha)
  | next hsome hrest ih =>
    intro a ha
    rw [List.map_cons]
    obtain hmem | hmem := ih a ha
    · obtain hmem | hmem := List.mem_append.1 hmem
      · exact .inl hmem
      · exact .inr (List.mem_singleton.1 hmem ▸ List.mem_cons_self)
    · exact .inr (List.mem_cons_of_mem _ hmem)

variable [DecidableEq ι]

/-- A draw leaves fewer elements. -/
theorem Drawing.left_lt {a : α} (hpick : Drawing.Least pick id r elements) (h : pick drawn = some a) :
    (elements.filter fun b => id b ∉ drawn ++ [id a]).length < (elements.filter fun b => id b ∉ drawn).length := by
  have hfilter : (elements.filter fun b => id b ∉ drawn ++ [id a]) =
      (elements.filter fun b => id b ∉ drawn).filter fun b => id b ≠ id a := by
    rw [List.filter_filter]
    refine List.filter_congr fun b _ => ?_
    simp [not_or, and_comm]
  rw [hfilter, List.length_filter_lt_length_iff_exists]
  obtain ⟨hmem, hnot⟩ := hpick.mem h
  exact ⟨a, List.mem_filter.2 ⟨hmem, decide_eq_true hnot⟩, by simp⟩

/-- So the draws come to an end. -/
theorem exists_drawing (hpick : Drawing.Least pick id r elements) (drawn : List ι) : ∃ l, Drawing pick id drawn l := by
  generalize hn : (elements.filter fun b => id b ∉ drawn).length = n
  induction n using Nat.strongRecOn generalizing drawn with
  | ind n ih =>
    cases hp : pick drawn with
    | none => exact ⟨[], .stop hp⟩
    | some a =>
      obtain ⟨l, hl⟩ := ih _ (hn ▸ Drawing.left_lt hpick hp) (drawn ++ [id a]) rfl
      exact ⟨a :: l, .next hp hl⟩

end

end NewApi

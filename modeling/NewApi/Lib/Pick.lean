import Mathlib.Algebra.BigOperators.Group.List.Basic
import Mathlib.Data.List.Sort
import Mathlib.Data.List.Dedup
import Mathlib.Algebra.Order.Ring.Int

/-!
# Weighted picks and ranks

A weighted random pick subtracts the cost of one element after another from a number drawn below the
sum of the costs, and takes the element that brings it below zero. `pickBelow` is that loop. What it
can return over all draws is the elements of positive cost (`exists_pickBelow`); when the draw may
also be one lower, and never the highest, and every cost is at least two, it is every element
(`exists_pickBelow_shifted`). A kind of elements is picked by as many draws as they cost (`countP_pickBelow`). The distinct values of a list in descending order (`ranks`) depend on
the values only (`ranks_congr`).
-/

namespace NewApi.Pick

section
variable {α : Type*} {cost : α → Int} {l : List α} {a : α} {r : Int}

/-- Walk down the list, subtracting costs, to the first element that brings `r` below zero. -/
def pickBelow (cost : α → Int) : Int → List α → Option α
  | _, [] => none
  | r, a :: l => if r - cost a < 0 then some a else pickBelow cost (r - cost a) l

/-- What is picked is in the list. -/
theorem mem_of_pickBelow (h : pickBelow cost r l = some a) : a ∈ l := by
  induction l generalizing r with
  | nil => cases h
  | cons b l ih =>
    rw [pickBelow] at h
    split at h
    · cases h; exact List.mem_cons_self
    · exact List.mem_cons_of_mem _ (ih h)

/-- From a draw that is not negative, only an element of positive cost is picked. -/
theorem cost_pos_of_pickBelow (hr : 0 ≤ r) (h : pickBelow cost r l = some a) : 0 < cost a := by
  induction l generalizing r with
  | nil => cases h
  | cons b l ih =>
    rw [pickBelow] at h
    split at h
    · cases h; omega
    · exact ih (by omega) h

/-- A draw below the sum of the costs picks something, if there is anything. -/
theorem pickBelow_isSome (hl : l ≠ []) (hr : r < (l.map cost).sum) :
    ∃ a, pickBelow cost r l = some a := by
  induction l generalizing r with
  | nil => exact absurd rfl hl
  | cons b l ih =>
    rw [List.map_cons, List.sum_cons] at hr
    rw [pickBelow]
    split
    next => exact ⟨b, rfl⟩
    next hlt =>
      refine ih (fun hnil => hlt ?_) (by omega)
      rw [hnil, List.map_nil, List.sum_nil] at hr
      omega

/-- Costs that are not negative have a sum that is not. -/
theorem sum_cost_nonneg (h : ∀ b ∈ l, 0 ≤ cost b) : 0 ≤ (l.map cost).sum := by
  induction l with
  | nil => exact le_refl 0
  | cons b l ih =>
    have hb := h b List.mem_cons_self
    have hl := ih fun c hc => h c (List.mem_cons_of_mem _ hc)
    rw [List.map_cons, List.sum_cons]
    omega

/-- A draw inside the stretch of an element picks it. -/
theorem pickBelow_append_cons {pre post : List α} (hpre : ∀ b ∈ pre, 0 ≤ cost b)
    (hlo : (pre.map cost).sum ≤ r) (hhi : r < (pre.map cost).sum + cost a) :
    pickBelow cost r (pre ++ a :: post) = some a := by
  induction pre generalizing r with
  | nil =>
    rw [List.map_nil, List.sum_nil] at hhi
    rw [List.nil_append, pickBelow, if_pos (by omega)]
  | cons b pre ih =>
    have hpos := sum_cost_nonneg fun c hc => hpre c (List.mem_cons_of_mem _ hc)
    rw [List.map_cons, List.sum_cons] at hlo hhi
    rw [List.cons_append, pickBelow, if_neg (by omega)]
    exact ih (fun c hc => hpre c (List.mem_cons_of_mem _ hc)) (by omega) (by omega)

/-- The stretch of an element of the list lies below the sum of the costs. -/
theorem exists_stretch (hc : ∀ b ∈ l, 0 ≤ cost b) (ha : a ∈ l) :
    ∃ lo, 0 ≤ lo ∧ lo + cost a ≤ (l.map cost).sum ∧
      ∀ r, lo ≤ r → r < lo + cost a → pickBelow cost r l = some a := by
  obtain ⟨pre, post, rfl⟩ := List.append_of_mem ha
  have hpre : ∀ b ∈ pre, 0 ≤ cost b := fun b hb => hc b (by simp [hb])
  have hpost : ∀ b ∈ post, 0 ≤ cost b := fun b hb => hc b (by simp [hb])
  have hsum := sum_cost_nonneg hpost
  refine ⟨(pre.map cost).sum, sum_cost_nonneg hpre, ?_, fun r hlo hhi =>
    pickBelow_append_cons hpre hlo hhi⟩
  rw [List.map_append, List.sum_append, List.map_cons, List.sum_cons]
  omega

/-- Over the draws below the sum of the costs, just the elements of positive cost are picked. -/
theorem exists_pickBelow (hc : ∀ b ∈ l, 0 ≤ cost b) :
    (∃ r, 0 ≤ r ∧ r < (l.map cost).sum ∧ pickBelow cost r l = some a) ↔ a ∈ l ∧ 0 < cost a := by
  constructor
  · rintro ⟨r, hr, -, h⟩
    exact ⟨mem_of_pickBelow h, cost_pos_of_pickBelow hr h⟩
  · rintro ⟨ha, hpos⟩
    obtain ⟨lo, hlo, hhi, hpick⟩ := exists_stretch hc ha
    exact ⟨lo, hlo, by omega, hpick lo (le_refl lo) (by omega)⟩

/-- When the walk starts one below the draw and every cost is at least two, every element is
picked by some draw. -/
theorem exists_pickBelow_shifted (hc : ∀ b ∈ l, 2 ≤ cost b) :
    (∃ r, 0 ≤ r ∧ r < (l.map cost).sum ∧ pickBelow cost (r - 1) l = some a) ↔ a ∈ l := by
  constructor
  · rintro ⟨r, -, -, h⟩
    exact mem_of_pickBelow h
  · intro ha
    have hcost := hc a ha
    have hnonneg : ∀ b ∈ l, 0 ≤ cost b := fun b hb => le_trans (by decide) (hc b hb)
    obtain ⟨lo, hlo, hhi, hpick⟩ := exists_stretch hnonneg ha
    exact ⟨lo + 1, by omega, by omega, hpick _ (by omega) (by omega)⟩

/-- Of the draws below the sum of the costs, as many pick an element of a kind as these cost. -/
theorem countP_pickBelow (k : α → Nat) (p : α → Bool) (l : List α) :
    (List.range (l.map k).sum).countP (fun r : Nat => (pickBelow (fun a => (k a : Int)) r l).any p) =
      ((l.filter p).map k).sum := by
  induction l with
  | nil => rfl
  | cons a l ih =>
    -- the first draws pick the head, and the others are those of the tail, moved by its cost
    have hhead : (List.range (k a)).countP (fun r : Nat => (pickBelow (fun a => (k a : Int)) r (a :: l)).any p) =
        if p a then k a else 0 := by
      have hpick : ∀ r ∈ List.range (k a), (pickBelow (fun a => (k a : Int)) r (a :: l)).any p = p a := by
        intro r hr
        have hlt := List.mem_range.1 hr
        rw [pickBelow, if_pos (by omega), Option.any_some]
      have hcongr : (List.range (k a)).countP (fun r : Nat => (pickBelow (fun a => (k a : Int)) r (a :: l)).any p) =
          (List.range (k a)).countP fun _ => p a := List.countP_congr fun r hr => by rw [hpick r hr]
      rw [hcongr]
      cases p a <;> simp
    have htail : ∀ r : Nat, pickBelow (fun a => (k a : Int)) ((k a + r : Nat) : Int) (a :: l) =
        pickBelow (fun a => (k a : Int)) r l := by
      intro r
      rw [pickBelow, if_neg (by omega)]
      congr 1
      omega
    rw [List.map_cons, List.sum_cons, List.range_add, List.countP_append, hhead, List.countP_map, List.filter_cons]
    have hrest : (List.range (l.map k).sum).countP
        ((fun r : Nat => (pickBelow (fun a => (k a : Int)) r (a :: l)).any p) ∘ fun r => k a + r) =
          ((l.filter p).map k).sum := by
      rw [← ih]
      refine List.countP_congr fun r _ => ?_
      rw [Function.comp_apply, htail]
    rw [hrest]
    cases p a <;> simp

end

/-! ## Ranks -/

/-- The distinct values of a list, highest first. -/
def ranks (l : List Int) : List Int := l.dedup.insertionSort (· ≥ ·)

section
variable {l l' : List Int} {x : Int}

@[simp] theorem mem_ranks : x ∈ ranks l ↔ x ∈ l := by
  rw [ranks, List.mem_insertionSort, List.mem_dedup]

/-- Lists of the same values have the same ranks. -/
theorem ranks_congr (h : ∀ x, x ∈ l ↔ x ∈ l') : ranks l = ranks l' := by
  have hperm : l.dedup.Perm l'.dedup :=
    (List.perm_ext_iff_of_nodup l.nodup_dedup l'.nodup_dedup).2 fun x => by
      rw [List.mem_dedup, List.mem_dedup, h]
  refine List.Perm.eq_of_sortedGE List.sortedGE_insertionSort List.sortedGE_insertionSort ?_
  exact (List.perm_insertionSort _ _).trans (hperm.trans (List.perm_insertionSort _ _).symm)

/-- There are ranks where there are values. -/
theorem ranks_ne_nil (h : l ≠ []) : ranks l ≠ [] := by
  obtain ⟨x, hx⟩ := List.exists_mem_of_ne_nil l h
  exact List.ne_nil_of_mem (mem_ranks.2 hx)

/-- The value at a rank, the last one for every rank beyond it. -/
def rankAt (l : List Int) (rank : Nat) : Int :=
  (ranks l).getD (if rank ≥ (ranks l).length then (ranks l).length - 1 else rank) 0

/-- Lists of the same values have the same value at a rank. -/
theorem rankAt_congr (h : ∀ x, x ∈ l ↔ x ∈ l') (rank : Nat) : rankAt l rank = rankAt l' rank := by
  rw [rankAt, rankAt, ranks_congr h]

/-- The value at a rank is one of the values. -/
theorem rankAt_mem (h : l ≠ []) (rank : Nat) : rankAt l rank ∈ l := by
  have hpos : 0 < (ranks l).length := List.length_pos_of_ne_nil (ranks_ne_nil h)
  have hlt : (if rank ≥ (ranks l).length then (ranks l).length - 1 else rank) <
      (ranks l).length := by
    split <;> omega
  rw [← mem_ranks, rankAt, List.getD_eq_getElem?_getD, List.getElem?_eq_getElem hlt]
  exact List.getElem_mem _

/-- Every value is at some rank. -/
theorem exists_rankAt {x : Int} (h : x ∈ l) : ∃ rank, rankAt l rank = x := by
  obtain ⟨rank, hlt, hx⟩ := List.getElem_of_mem (mem_ranks.2 h)
  refine ⟨rank, ?_⟩
  rw [rankAt, if_neg (Nat.not_le.2 hlt), List.getD_eq_getElem?_getD, List.getElem?_eq_getElem hlt, hx]
  rfl

/-- The value does not increase with the rank. -/
theorem rankAt_antitone {rank rank' : Nat} (h : rank ≤ rank') : rankAt l rank' ≤ rankAt l rank := by
  by_cases hl : ranks l = []
  · rw [rankAt, rankAt, hl]
    exact le_refl _
  have hpos := List.length_pos_of_ne_nil hl
  have hsorted : (ranks l).SortedGE := List.sortedGE_insertionSort
  have hlt : ∀ rank, (if rank ≥ (ranks l).length then (ranks l).length - 1 else rank) < (ranks l).length := by
    intro rank
    split <;> omega
  have hget : ∀ rank, rankAt l rank = (ranks l).get ⟨_, hlt rank⟩ := by
    intro rank
    rw [rankAt, List.getD_eq_getElem?_getD, List.getElem?_eq_getElem (hlt rank)]
    rfl
  rw [hget, hget]
  refine hsorted.antitone_get ?_
  rw [Fin.mk_le_mk]
  split <;> split <;> omega

/-- The first ranks are the highest values, as far as there are any. -/
theorem map_rankAt_eq_take_iff {n : Nat} :
    (List.range n).map (rankAt l) = (ranks l).take n ↔ n ≤ (ranks l).length := by
  constructor
  · intro h
    have hlen := congrArg List.length h
    rw [List.length_map, List.length_range, List.length_take] at hlen
    omega
  · intro hle
    refine List.ext_getElem (by rw [List.length_map, List.length_range, List.length_take]; omega) fun i hi hi' => ?_
    rw [List.length_map, List.length_range] at hi
    rw [List.getElem_map, List.getElem_range, List.getElem_take, rankAt, if_neg (by omega),
      List.getD_eq_getElem?_getD, List.getElem?_eq_getElem (by omega)]
    rfl

/-- The first rank is the maximum. -/
theorem head?_ranks : (ranks l).head? = l.max? := by
  cases hr : ranks l with
  | nil =>
    have hl : l = [] := by
      by_contra hne
      exact ranks_ne_nil hne hr
    rw [hl]; rfl
  | cons x xs =>
    have hsorted : (x :: xs).Pairwise (· ≥ ·) := by
      rw [← hr]; exact List.pairwise_insertionSort _ _
    have hmem : ∀ y, y ∈ l ↔ y ∈ x :: xs := fun y => by rw [← hr, mem_ranks]
    refine (List.max?_eq_some_iff.2 ⟨(hmem x).2 List.mem_cons_self, fun y hy => ?_⟩).symm
    rcases List.mem_cons.1 ((hmem y).1 hy) with rfl | hy
    · exact le_refl _
    · exact (List.pairwise_cons.1 hsorted).1 y hy

/-- The value at the first rank is the maximum. -/
theorem max?_eq_rankAt (h : l ≠ []) : l.max? = some (rankAt l 0) := by
  have hne := ranks_ne_nil h
  rw [← head?_ranks, rankAt]
  cases hr : ranks l with
  | nil => exact absurd hr hne
  | cons x xs => rfl

end

end NewApi.Pick

import Mathlib.Data.List.Rotate

/-!
# Taking turns

Slots of a ring take turns: from a start on, the first slot that is open has its turn, and the next turn starts behind it.
As many turns as there are open slots give a turn to each of them, wherever they start (`turns_eq`).
-/

namespace NewApi.RoundRobin

/-- The slots from a start on, around the ring. -/
def order (n start : Nat) : List Nat := (List.range n).map fun i => (start + i) % n

/-- The slots that have a number of turns. -/
def turns (isOpen : Nat → Bool) (n : Nat) : Nat → Nat → List Nat
  | 0, _ => []
  | m + 1, start =>
    match (order n start).find? isOpen with
    | none => []
    | some i => i :: turns isOpen n m ((i + 1) % n)

section
variable {isOpen : Nat → Bool} {n m start i : Nat} {before behind : List Nat}

theorem order_eq_rotate : order n start = (List.range n).rotate start := by
  refine List.ext_getElem (by simp [order]) fun k hk hk' => ?_
  rw [List.getElem_rotate]
  simp [order, Nat.add_comm]

theorem order_perm : (order n start).Perm (List.range n) := order_eq_rotate ▸ List.rotate_perm _ _

/-- The ring that starts behind a slot. -/
theorem order_behind (h : order n start = before ++ i :: behind) : order n ((i + 1) % n) = behind ++ (before ++ [i]) := by
  have hlen : before.length < (order n start).length := by
    rw [h, List.length_append, List.length_cons]
    omega
  have hi : i = (start + before.length) % n := by
    have hget : (order n start)[before.length] = i := by simp [h]
    simpa [order] using hget.symm
  have hstart : ((i + 1) % n) = (start + (before.length + 1)) % n := by
    rw [hi, Nat.mod_add_mod, Nat.add_assoc]
  have hring := List.rotate_mod (List.range n) (start + (before.length + 1))
  rw [List.length_range] at hring
  rw [order_eq_rotate, hstart, hring, ← List.rotate_rotate, ← order_eq_rotate, h, List.append_cons]
  have hfront : before.length + 1 = (before ++ [i]).length := by simp
  rw [hfront, List.rotate_append_length_eq]

/-- A slot that has had its turn is the last one of the next round. -/
theorem filter_order_next (h : (order n start).find? isOpen = some i) : ∃ rest,
    (order n start).filter isOpen = i :: rest ∧ (order n ((i + 1) % n)).filter isOpen = rest ++ [i] := by
  obtain ⟨hi, before, behind, horder, hbefore⟩ := List.find?_eq_some_iff_append.1 h
  have hnone : before.filter isOpen = [] := List.filter_eq_nil_iff.2 fun a ha => by simpa using hbefore a ha
  refine ⟨behind.filter isOpen, ?_, ?_⟩
  · rw [horder, List.filter_append, hnone, List.nil_append, List.filter_cons_of_pos hi]
  · rw [order_behind horder, List.filter_append, List.filter_append, hnone, List.nil_append,
      List.filter_cons_of_pos hi, List.filter_nil]

/-- Turns are a part of the round that starts there. -/
theorem turns_eq_take (h : m ≤ ((order n start).filter isOpen).length) :
    turns isOpen n m start = ((order n start).filter isOpen).take m := by
  induction m generalizing start with
  | zero => rfl
  | succ m ih =>
    unfold turns
    split
    next hnone =>
      rw [List.filter_eq_nil_iff.2 fun a ha => List.find?_eq_none.1 hnone a ha, List.take_nil]
    next i hsome =>
      obtain ⟨rest, hround, hnext⟩ := filter_order_next hsome
      rw [hround, List.length_cons] at h
      have hle : m ≤ rest.length := by omega
      rw [ih (by rw [hnext, List.length_append]; omega), hround, hnext, List.take_succ_cons,
        List.take_append_of_le_length hle]

/-- As many turns as there are open slots are a round. -/
theorem turns_eq (h : m = ((List.range n).filter isOpen).length) :
    turns isOpen n m start = (order n start).filter isOpen := by
  have hlen : ((order n start).filter isOpen).length = m := by rw [h, (order_perm.filter isOpen).length_eq]
  rw [turns_eq_take (Nat.le_of_eq hlen.symm), ← hlen, List.take_length]

end

end NewApi.RoundRobin

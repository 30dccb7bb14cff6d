import Mathlib.Data.List.Infix
import Mathlib.Data.List.TakeDrop

/-!
# Leftmost matches

The first place in a list where a sublist stands (`List.dropInfix?`), the first place where a matcher succeeds
(`leftmost`), and a list cut at what a finder finds again and again, until it finds nothing (`Finder.cut`).
-/

namespace NewApi

section
variable {α : Type*} [BEq α] [LawfulBEq α] {l i j p r s : List α}

/-- What is before the first place of a sublist, and what is behind it. -/
theorem dropInfix?_eq_some : l.dropInfix? i = some (p, s) ↔
    l = p ++ i ++ s ∧ ∀ p' s', l = p' ++ i ++ s' → p.length ≤ p'.length := by
  rw [List.dropInfix?_eq_some_iff]
  constructor
  · rintro ⟨⟨i', hl, hi⟩, hmin⟩
    obtain rfl := eq_of_beq hi
    exact ⟨hl, fun p' s' h => hmin p' i' s' h (beq_self_eq_true i')⟩
  · rintro ⟨hl, hmin⟩
    refine ⟨⟨i, hl, beq_self_eq_true i⟩, fun p' i' s' h hi => ?_⟩
    obtain rfl := eq_of_beq hi
    exact hmin p' s' h

theorem exists_dropInfix? (h : i <:+: l) : ∃ r, l.dropInfix? i = some r := by
  obtain ⟨p, s, rfl⟩ := h
  induction hn : p.length using Nat.strong_induction_on generalizing p s with
  | _ n ih =>
    by_cases hfirst : ∀ p' s', p ++ i ++ s = p' ++ i ++ s' → p.length ≤ p'.length
    · exact ⟨(p, s), dropInfix?_eq_some.2 ⟨rfl, hfirst⟩⟩
    · push Not at hfirst
      obtain ⟨p', s', heq, hlt⟩ := hfirst
      rw [heq]
      exact ih p'.length (hn ▸ hlt) p' s' rfl

theorem dropInfix?_eq_none : l.dropInfix? i = none ↔ ¬ i <:+: l := by
  constructor
  · intro h hi
    obtain ⟨r, hr⟩ := exists_dropInfix? hi
    exact nomatch h.symm.trans hr
  · intro h
    cases hr : l.dropInfix? i with
    | none => rfl
    | some r => exact absurd ⟨r.1, r.2, (dropInfix?_eq_some.1 hr).1.symm⟩ h

/-- A place before which the sublist does not begin is the first one. -/
theorem dropInfix?_append (h : ¬ i <:+: p ++ i.dropLast) : (p ++ i ++ s).dropInfix? i = some (p, s) := by
  refine dropInfix?_eq_some.2 ⟨rfl, fun p' s' heq => ?_⟩
  by_contra hlt
  refine h ?_
  have hi : i ≠ [] := by
    rintro rfl
    exact h ⟨[], p, by simp⟩
  have hlen := congrArg List.length (List.dropLast_append_getLast hi)
  rw [List.length_append, List.length_singleton] at hlen
  have hshort : p ++ i.dropLast <+: p ++ i ++ s := by
    rw [List.append_assoc, List.prefix_append_right_inj]
    exact (List.dropLast_prefix i).trans (List.prefix_append i s)
  have hother : p' ++ i <+: p ++ i ++ s := ⟨s', heq.symm⟩
  have hpre : p' ++ i <+: p ++ i.dropLast := by
    refine List.prefix_of_prefix_length_le hother hshort ?_
    rw [List.length_append, List.length_append]
    omega
  exact (List.suffix_append p' i).isInfix.trans hpre.isInfix

/-- It does not begin before the first place. -/
theorem not_infix_of_dropInfix? (hi : i ≠ []) (h : l.dropInfix? i = some (p, s)) : ¬ i <:+: p ++ i.dropLast := by
  rintro ⟨a, b, hab⟩
  obtain ⟨rfl, hmin⟩ := dropInfix?_eq_some.1 h
  have hlen := congrArg List.length (List.dropLast_append_getLast hi)
  rw [List.length_append, List.length_singleton] at hlen
  have hle := hmin a (b ++ [i.getLast hi] ++ s) (by
    conv_lhs => rw [← List.dropLast_append_getLast hi]
    simp only [← List.append_assoc, ← hab])
  have htotal := congrArg List.length hab
  simp only [List.length_append] at htotal
  omega

/-- Behind a list before whose end the sublist does not begin, its first place is that in the rest. -/
theorem dropInfix?_append_left (h : ∀ p' s', j ++ l = p' ++ i ++ s' → j.length ≤ p'.length) :
    (j ++ l).dropInfix? i = (l.dropInfix? i).map fun r => (j ++ r.1, r.2) := by
  have hrest : ∀ {p' s'}, j ++ l = p' ++ i ++ s' → ∃ p'', p' = j ++ p'' ∧ l = p'' ++ i ++ s' := by
    intro p' s' heq
    rw [List.append_assoc] at heq
    obtain ⟨p'', rfl⟩ := List.prefix_of_prefix_length_le ⟨l, rfl⟩ ⟨i ++ s', heq.symm⟩ (h p' s' (by rw [heq, List.append_assoc]))
    refine ⟨p'', rfl, ?_⟩
    rw [List.append_assoc] at heq ⊢
    exact List.append_cancel_left heq
  cases hl : l.dropInfix? i with
  | none =>
    rw [dropInfix?_eq_none] at hl
    refine dropInfix?_eq_none.2 fun ⟨p', s', heq⟩ => ?_
    obtain ⟨p'', -, hin⟩ := hrest heq.symm
    exact hl ⟨p'', s', hin.symm⟩
  | some r =>
    obtain ⟨hr, hmin⟩ := dropInfix?_eq_some.1 hl
    refine dropInfix?_eq_some.2 ⟨by rw [hr]; simp only [List.append_assoc], fun p' s' heq => ?_⟩
    obtain ⟨p'', rfl, hin⟩ := hrest heq
    have hle := hmin p'' s' hin
    rw [List.length_append, List.length_append]
    omega

/-- What is behind any place of a sublist ends what is behind the first one. -/
theorem exists_dropInfix?_suffix (h : l = j ++ i ++ r) : ∃ p s, l.dropInfix? i = some (p, s) ∧ r <:+ s := by
  obtain ⟨⟨p, s⟩, hps⟩ := exists_dropInfix? (i := i) ⟨j, r, h.symm⟩
  obtain ⟨hl, hmin⟩ := dropInfix?_eq_some.1 hps
  refine ⟨p, s, hps, ?_⟩
  have hle := hmin j r h
  have hr : r <:+ l := ⟨j ++ i, h.symm⟩
  have hs : s <:+ l := ⟨p ++ i, hl.symm⟩
  refine List.suffix_of_suffix_length_le hr hs ?_
  have hlen := congrArg List.length (hl.symm.trans h)
  simp only [List.length_append] at hlen
  omega

/-- The first place of a sublist that goes on as a longer one is the first place of the longer one. -/
theorem dropInfix?_extend (h : l.dropInfix? i = some (p, j ++ s)) : l.dropInfix? (i ++ j) = some (p, s) := by
  obtain ⟨hl, hmin⟩ := dropInfix?_eq_some.1 h
  exact dropInfix?_eq_some.2 ⟨by simpa using hl, fun p' s' heq => hmin p' (j ++ s') (by simpa using heq)⟩

omit [BEq α] [LawfulBEq α] in
/-- Two different elements do not begin at the last place before them. -/
theorem pair_infix_append {a b : α} (hab : a ≠ b) : [a, b] <:+: p ++ [a] ↔ [a, b] <:+: p := by
  constructor
  · rintro ⟨x, y, hxy⟩
    rcases List.eq_nil_or_concat y with rfl | ⟨y, c, rfl⟩
    · have hlast := congrArg List.getLast? hxy
      simp only [List.append_nil, List.getLast?_append, List.getLast?_singleton, List.getLast?_cons_cons,
        Option.some_or, Option.some.injEq] at hlast
      exact absurd hlast.symm hab
    · rw [List.concat_eq_append, ← List.append_assoc] at hxy
      exact ⟨x, y, List.append_inj_left' hxy rfl⟩
  · exact fun h => h.trans (List.prefix_append p [a]).isInfix

end

/-! ## The first match -/

section
variable {α β : Type*} {m : List α → Option β} {l p q : List α} {b : β}

/-- What is before the first place where a matcher succeeds, and its result there. -/
def leftmost (m : List α → Option β) : List α → Option (List α × β)
  | [] => (m []).map fun b => ([], b)
  | a :: l =>
    match m (a :: l) with
    | some b => some ([], b)
    | none => (leftmost m l).map fun r => (a :: r.1, r.2)

/-- Where the matcher has not succeeded before, its first place is that of the rest. -/
theorem leftmost_append (h : ∀ x y, p = x ++ y → y ≠ [] → m (y ++ l) = none) :
    leftmost m (p ++ l) = (leftmost m l).map fun r => (p ++ r.1, r.2) := by
  induction p with
  | nil => simp
  | cons a p ih =>
    have hhead := h [] (a :: p) rfl (List.cons_ne_nil a p)
    rw [List.cons_append] at hhead
    rw [List.cons_append, leftmost, hhead]
    dsimp only
    rw [ih fun x y hxy hy => h (a :: x) y (by rw [hxy, List.cons_append]) hy, Option.map_map]
    rfl

theorem leftmost_of_match (h : m l = some b) : leftmost m l = some ([], b) := by
  cases l with
  | nil => rw [leftmost, h, Option.map_some]
  | cons a l => rw [leftmost, h]

/-- The first match is a match of what is behind its place. -/
theorem match_of_leftmost (h : leftmost m l = some (p, b)) : ∃ q, l = p ++ q ∧ m q = some b := by
  induction l generalizing p with
  | nil =>
    obtain ⟨b', hb', heq⟩ := Option.map_eq_some_iff.1 h
    cases heq
    exact ⟨[], rfl, hb'⟩
  | cons a l ih =>
    unfold leftmost at h
    split at h
    next b' hb' =>
      cases h
      exact ⟨a :: l, rfl, hb'⟩
    · obtain ⟨r, hr, heq⟩ := Option.map_eq_some_iff.1 h
      cases heq
      obtain ⟨q, rfl, hq⟩ := ih hr
      exact ⟨q, rfl, hq⟩

end

/-! ## Cutting -/

/-- What a list holds before the first thing that is found in it, that thing, and the rest, which is shorter. -/
structure Finder (α β : Type*) where
  find : List α → Option (List α × β × List α)
  short : ∀ {l p b r}, find l = some (p, b, r) → r.length < l.length

namespace Finder

section
variable {α β : Type*} (f : Finder α β) {l p r : List α} {b : β}

/-- The things that are found, each with what is before it, and the rest in which nothing is found. -/
def cut (l : List α) : List (List α × β) × List α :=
  match _h : f.find l with
  | none => ([], l)
  | some (p, b, r) => ((p, b) :: (cut r).1, (cut r).2)
termination_by l.length
decreasing_by all_goals exact f.short _h

variable {f}

theorem cut_of_none (h : f.find l = none) : f.cut l = ([], l) := by
  rw [cut]
  split
  · rfl
  next heq => exact nomatch h.symm.trans heq

theorem cut_of_some (h : f.find l = some (p, b, r)) : f.cut l = ((p, b) :: (f.cut r).1, (f.cut r).2) := by
  rw [cut]
  split
  next heq => exact nomatch heq.symm.trans h
  next heq =>
    cases heq.symm.trans h
    rfl

/-- What holds of a list in which nothing is found, and of a list if it holds of its rest, holds of every list. -/
theorem cut_induction {P : List α → Prop} (hnone : ∀ l, f.find l = none → P l)
    (hsome : ∀ l p b r, f.find l = some (p, b, r) → P r → P l) (l : List α) : P l := by
  induction hn : l.length using Nat.strong_induction_on generalizing l with
  | _ n ih =>
    cases h : f.find l with
    | none => exact hnone l h
    | some x =>
      obtain ⟨p, b, r⟩ := x
      exact hsome l p b r h (ih r.length (hn ▸ f.short h) r rfl)

end

end Finder

end NewApi

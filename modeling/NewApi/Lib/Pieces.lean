import Mathlib.Data.List.Basic
import Mathlib.Data.List.Forall2

/-!
# Lists converted piece by piece

A conversion that maps each element of a list to a list of its own pieces, and may drop some, keeps all pieces in
order just if it does so for every element (`flatMap_eq_iff`, `flatMap_eq_iff_of_filter`). A conversion that moves the
pieces of one kind to the front keeps the order just if none of the others precedes one of them
(`filter_append_filter_eq_iff`). What holds of each element and those before it is `AtEach`; it is read piece by piece
(`atEach_append`). A conversion that can fail is read element by element too (`mapM_eq_ok_iff`).
-/

namespace NewApi

section
variable {α β : Type*} {l : List α}

/-- Where no element gains pieces, the pieces of all are kept just if those of each are. -/
theorem flatMap_eq_iff {f g : α → List β} (h : ∀ a ∈ l, (f a).length ≤ (g a).length) :
    l.flatMap f = l.flatMap g ↔ ∀ a ∈ l, f a = g a := by
  refine ⟨fun heq => ?_, List.flatMap_congr⟩
  have hle : ∀ {k : List α}, (∀ a ∈ k, (f a).length ≤ (g a).length) →
      (k.flatMap f).length ≤ (k.flatMap g).length := by
    intro k hk
    induction k with
    | nil => exact Nat.le_refl 0
    | cons a k ih =>
      rw [List.flatMap_cons, List.flatMap_cons, List.length_append, List.length_append]
      exact Nat.add_le_add (hk a List.mem_cons_self) (ih fun b hb => hk b (List.mem_cons_of_mem _ hb))
  induction l with
  | nil => exact List.forall_mem_nil _
  | cons a l ih =>
    have htail : ∀ b ∈ l, (f b).length ≤ (g b).length := fun b hb => h b (List.mem_cons_of_mem _ hb)
    have hlen := congrArg List.length heq
    rw [List.flatMap_cons, List.flatMap_cons, List.length_append, List.length_append] at hlen
    have hhead := h a List.mem_cons_self
    have hrest := hle htail
    rw [List.flatMap_cons, List.flatMap_cons] at heq
    obtain ⟨ha, hl⟩ := List.append_inj heq (by omega)
    exact List.forall_mem_cons.2 ⟨ha, ih htail hl⟩

/-- Where no element gains pieces of a kind, and one that has lost none of the kind gains no others, the pieces of all
are kept just if those of each are. -/
theorem flatMap_eq_iff_of_filter {f g : α → List β} {p : β → Bool}
    (hkind : ∀ a ∈ l, ((f a).filter p).length ≤ ((g a).filter p).length)
    (h : ∀ a ∈ l, ((g a).filter p).length ≤ ((f a).filter p).length → (f a).length ≤ (g a).length) :
    l.flatMap f = l.flatMap g ↔ ∀ a ∈ l, f a = g a := by
  refine ⟨fun heq => (flatMap_eq_iff fun a ha => h a ha ?_).1 heq, List.flatMap_congr⟩
  have hfilter := congrArg (List.filter p) heq
  rw [List.filter_flatMap, List.filter_flatMap] at hfilter
  exact Nat.le_of_eq (congrArg List.length ((flatMap_eq_iff hkind).1 hfilter a ha).symm)

/-- Where the elements of two lists correspond, and so do their pieces, the pieces of all are the same. -/
theorem flatMap_eq_of_forall₂ {γ : Type*} {R : α → β → Prop} {f : α → List γ} {g : β → List γ} {r : List β}
    (h : List.Forall₂ R l r) (hR : ∀ a b, R a b → g b = f a) : r.flatMap g = l.flatMap f := by
  induction h with
  | nil => rfl
  | cons hab _ ih => rw [List.flatMap_cons, List.flatMap_cons, hR _ _ hab, ih]

/-- The elements of a kind can be moved to the front without a change just if they are there. -/
theorem filter_append_filter_eq_iff {p : α → Bool} :
    l.filter p ++ l.filter (fun a => !p a) = l ↔ l.Pairwise fun a b => p b = true → p a = true := by
  induction l with
  | nil => exact iff_of_true rfl .nil
  | cons a l ih =>
    rw [List.pairwise_cons]
    cases ha : p a with
    | true =>
      rw [List.filter_cons_of_pos ha, List.filter_cons_of_neg (by simp [ha]), List.cons_append, List.cons.injEq, ih]
      simp
    | false =>
      rw [List.filter_cons_of_neg (by simp [ha]), List.filter_cons_of_pos (by simp [ha])]
      constructor
      · intro heq
        -- an element of the kind would have come to the front
        cases hf : l.filter p with
        | nil =>
          have hnone : ∀ b ∈ l, p b = false := by simpa using List.filter_eq_nil_iff.1 hf
          refine ⟨fun b hb hpb => absurd (hpb.symm.trans (hnone b hb)) (by decide), ?_⟩
          exact List.pairwise_of_forall_mem_list fun b hb c hc hpc => absurd (hpc.symm.trans (hnone c hc)) (by decide)
        | cons b k =>
          rw [hf, List.cons_append] at heq
          obtain rfl := (List.cons.inj heq).1
          have hpb := (List.mem_filter.1 (hf ▸ List.mem_cons_self : b ∈ l.filter p)).2
          exact absurd (hpb.symm.trans ha) (by decide)
      · rintro ⟨hnone, -⟩
        have hfalse : ∀ b ∈ l, p b = false := fun b hb => by
          cases hpb : p b with
          | true => exact absurd (hnone b hb hpb) (by decide)
          | false => rfl
        rw [List.filter_eq_nil_iff.2 fun b hb => by simp [hfalse b hb],
          List.filter_eq_self.2 fun b hb => by simp [hfalse b hb]]
        rfl

/-- A relation holds of each element of a list and the elements before it, after those given. -/
def AtEach (P : List α → α → Prop) : List α → List α → Prop
  | _, [] => True
  | pre, a :: l => P pre a ∧ AtEach P (pre ++ [a]) l

variable {P : List α → α → Prop} {pre l' : List α}

theorem atEach_append : AtEach P pre (l ++ l') ↔ AtEach P pre l ∧ AtEach P (pre ++ l) l' := by
  induction l generalizing pre with
  | nil => simp [AtEach]
  | cons a l ih => simp only [List.cons_append, AtEach, ih, and_assoc, List.append_assoc, List.nil_append]

/-- Over pieces it is read element by element. -/
theorem atEach_flatMap {f : β → List α} {k : List β} {pre : List β} :
    AtEach P (pre.flatMap f) (k.flatMap f) ↔ AtEach (fun pre b => AtEach P (pre.flatMap f) (f b)) pre k := by
  induction k generalizing pre with
  | nil => exact Iff.rfl
  | cons b k ih =>
    rw [List.flatMap_cons, atEach_append, AtEach, ← ih, List.flatMap_append, List.flatMap_singleton]

/-- It holds at each place where the list can be split. -/
theorem atEach_iff : AtEach P pre l ↔ ∀ k a k', l = k ++ a :: k' → P (pre ++ k) a := by
  constructor
  · rintro h k a k' rfl
    exact (atEach_append.1 h).2.1
  · intro h
    induction l generalizing pre with
    | nil => trivial
    | cons a l ih =>
      refine ⟨?_, ih fun k b k' hl => ?_⟩
      · have hhead := h [] a l rfl
        rwa [List.append_nil] at hhead
      · have htail := h (a :: k) b k' (by rw [hl, List.cons_append])
        rwa [List.append_assoc]

/-- A relation that does not depend on the elements of the list before. -/
theorem atEach_iff_forall (h : ∀ k a, k ⊆ l → (P (pre ++ k) a ↔ P pre a)) : AtEach P pre l ↔ ∀ a ∈ l, P pre a := by
  rw [atEach_iff]
  constructor
  · intro hall a ha
    obtain ⟨k, k', rfl⟩ := List.append_of_mem ha
    exact (h k a (List.subset_append_left _ _)).1 (hall k a k' rfl)
  · rintro hall k a k' rfl
    exact (h k a (List.subset_append_left _ _)).2 (hall a (List.mem_append_right _ List.mem_cons_self))

end

section
variable {α β ε : Type*} {f : α → Except ε β}

theorem mapM_eq_ok_iff {l : List α} {r : List β} :
    l.mapM f = .ok r ↔ List.Forall₂ (fun a b => f a = .ok b) l r := by
  induction l generalizing r with
  | nil =>
    rw [List.mapM_nil, List.forall₂_nil_left_iff]
    exact ⟨fun h => (Except.ok.inj h).symm, fun h => h ▸ rfl⟩
  | cons a l ih =>
    rw [List.mapM_cons, List.forall₂_cons_left_iff]
    cases ha : f a with
    | error e => exact iff_of_false (fun h => by cases h) fun ⟨b, r', hb, _⟩ => by cases hb
    | ok b =>
      cases hl : l.mapM f with
      | error e =>
        refine iff_of_false (fun h => by cases h) fun ⟨b', r', _, hr', _⟩ => ?_
        rw [← ih, hl] at hr'
        cases hr'
      | ok r' =>
        constructor
        · intro h
          exact ⟨b, r', rfl, ih.1 hl, (Except.ok.inj h).symm⟩
        · rintro ⟨b', r'', hb, hr'', rfl⟩
          obtain rfl := Except.ok.inj hb
          rw [← ih, hl] at hr''
          obtain rfl := Except.ok.inj hr''
          rfl

/-- A conversion of a list goes through just if that of each element does. -/
theorem exists_mapM_eq_ok_iff {l : List α} : (∃ r, l.mapM f = .ok r) ↔ ∀ a ∈ l, ∃ b, f a = .ok b := by
  simp only [mapM_eq_ok_iff]
  induction l with
  | nil => exact iff_of_true ⟨[], .nil⟩ (List.forall_mem_nil _)
  | cons a l ih =>
    rw [List.forall_mem_cons, ← ih]
    constructor
    · rintro ⟨r, hr⟩
      obtain ⟨b, r', hb, hr', -⟩ := List.forall₂_cons_left_iff.1 hr
      exact ⟨⟨b, hb⟩, r', hr'⟩
    · rintro ⟨⟨b, hb⟩, r, hr⟩
      exact ⟨b :: r, .cons hb hr⟩

end

end NewApi

import Mathlib.Data.List.Basic
import Mathlib.Data.List.Nodup

/-!
# First occurrences by a key

A loop that skips the elements whose key is in a set of keys seen, and otherwise adds the key and
keeps the element. It keeps elements with distinct keys, one for every key; it keeps every element
just when the key is injective on the list.
-/

namespace NewApi

section
variable {α κ : Type*} [DecidableEq κ]

/-- The elements whose key is neither in `seen` nor the key of an earlier element. -/
def firstBy (key : α → κ) : List κ → List α → List α
  | _, [] => []
  | seen, a :: l =>
    if key a ∈ seen then firstBy key seen l else a :: firstBy key (key a :: seen) l

variable {key : α → κ} {seen : List κ} {l : List α} {a : α}

/-- What is kept is in the list, under a key not seen before. -/
theorem of_mem_firstBy (h : a ∈ firstBy key seen l) : a ∈ l ∧ key a ∉ seen := by
  induction l generalizing seen with
  | nil => cases h
  | cons b l ih =>
    rw [firstBy] at h
    split at h
    next =>
      obtain ⟨hl, hseen⟩ := ih h
      exact ⟨List.mem_cons_of_mem _ hl, hseen⟩
    next hb =>
      rcases List.mem_cons.1 h with rfl | h
      · exact ⟨List.mem_cons_self, hb⟩
      · obtain ⟨hl, hseen⟩ := ih h
        exact ⟨List.mem_cons_of_mem _ hl, fun hmem => hseen (List.mem_cons_of_mem _ hmem)⟩

/-- What is kept has distinct keys. -/
theorem nodup_firstBy : ((firstBy key seen l).map key).Nodup := by
  induction l generalizing seen with
  | nil => exact List.nodup_nil
  | cons b l ih =>
    rw [firstBy]
    split
    · exact ih
    · rw [List.map_cons, List.nodup_cons]
      refine ⟨fun hmem => ?_, ih⟩
      obtain ⟨c, hc, hkey⟩ := List.mem_map.1 hmem
      exact (of_mem_firstBy hc).2 (hkey ▸ List.mem_cons_self)

/-- Every key that was not seen is kept once. -/
theorem exists_mem_firstBy (ha : a ∈ l) (hseen : key a ∉ seen) :
    ∃ b ∈ firstBy key seen l, key b = key a := by
  induction l generalizing seen with
  | nil => cases ha
  | cons b l ih =>
    rw [firstBy]
    split
    next hb =>
      rcases List.mem_cons.1 ha with rfl | ha
      · exact absurd hb hseen
      · exact ih ha hseen
    next hb =>
      by_cases hkey : key a = key b
      · exact ⟨b, List.mem_cons_self, hkey.symm⟩
      · have hseen' : key a ∉ key b :: seen := fun hmem =>
          (List.mem_cons.1 hmem).elim hkey hseen
        rcases List.mem_cons.1 ha with rfl | ha
        · exact absurd rfl hkey
        · obtain ⟨c, hc, hck⟩ := ih ha hseen'
          exact ⟨c, List.mem_cons_of_mem _ hc, hck⟩

/-- The whole list is kept, as a set, just when no two of its elements share a key. -/
theorem forall_mem_firstBy :
    (∀ a ∈ l, a ∈ firstBy key [] l) ↔ ∀ a ∈ l, ∀ b ∈ l, key a = key b → a = b := by
  constructor
  · intro h a ha b hb hkey
    exact List.inj_on_of_nodup_map nodup_firstBy (h a ha) (h b hb) hkey
  · intro h a ha
    obtain ⟨b, hb, hkey⟩ := exists_mem_firstBy ha (List.not_mem_nil : key a ∉ [])
    rwa [← h b (of_mem_firstBy hb).1 a ha hkey]

/-- What is kept stays in order. -/
theorem firstBy_sublist : (firstBy key seen l).Sublist l := by
  induction l generalizing seen with
  | nil => exact List.nil_sublist []
  | cons b l ih =>
    rw [firstBy]
    split
    · exact ih.cons b
    · exact ih.cons_cons b

/-- A list of distinct keys is kept. -/
theorem firstBy_eq_self (h : (l.map key).Nodup) (hseen : ∀ a ∈ l, key a ∉ seen) : firstBy key seen l = l := by
  induction l generalizing seen with
  | nil => rfl
  | cons b l ih =>
    rw [List.map_cons, List.nodup_cons] at h
    rw [firstBy, if_neg (hseen b List.mem_cons_self), ih h.2 fun a ha => ?_]
    rw [List.mem_cons, not_or]
    refine ⟨fun heq => h.1 ?_, hseen a (List.mem_cons_of_mem _ ha)⟩
    rw [← heq]
    exact List.mem_map_of_mem ha

/-- Only the keys that are in the list of those seen matter. -/
theorem firstBy_congr {seen' : List κ} (h : ∀ k, k ∈ seen ↔ k ∈ seen') : firstBy key seen l = firstBy key seen' l := by
  induction l generalizing seen seen' with
  | nil => rfl
  | cons b l ih =>
    have hcons : ∀ k, k ∈ key b :: seen ↔ k ∈ key b :: seen' := fun k => by rw [List.mem_cons, List.mem_cons, h]
    unfold firstBy
    rw [ih h, ih hcons]
    exact if_congr (h _) rfl rfl

/-- Behind other elements their keys are seen. -/
theorem firstBy_append {l' : List α} :
    firstBy key seen (l ++ l') = firstBy key seen l ++ firstBy key (l.map key ++ seen) l' := by
  induction l generalizing seen with
  | nil => rfl
  | cons b l ih =>
    rw [List.cons_append, firstBy, firstBy, ih, ih]
    split
    next hb =>
      refine congrArg _ (firstBy_congr fun k => ?_)
      rw [List.map_cons, List.cons_append, List.mem_cons]
      refine ⟨.inr, fun hk => hk.elim (fun heq => ?_) id⟩
      rw [heq]
      exact List.mem_append_right _ hb
    next =>
      refine congrArg (List.cons b) (congrArg _ (firstBy_congr fun k => ?_))
      rw [List.map_cons, List.cons_append, List.mem_cons, List.mem_append, List.mem_append, List.mem_cons]
      exact or_left_comm

/-- Nothing is kept where all keys are seen. -/
theorem firstBy_eq_nil (h : ∀ a ∈ l, key a ∈ seen) : firstBy key seen l = [] := by
  induction l with
  | nil => rfl
  | cons b l ih =>
    obtain ⟨hb, hl⟩ := List.forall_mem_cons.1 h
    rw [firstBy, if_pos hb, ih hl]

/-- As many are kept as there are just where the keys are distinct. -/
theorem length_firstBy_eq_iff : (firstBy key [] l).length = l.length ↔ (l.map key).Nodup := by
  constructor
  · intro hlen
    have hsame : firstBy key [] l = l := firstBy_sublist.eq_of_length hlen
    have hnodup : ((firstBy key [] l).map key).Nodup := nodup_firstBy
    rwa [hsame] at hnodup
  · intro h
    rw [firstBy_eq_self h fun _ _ => List.not_mem_nil]

/-- In a list of distinct keys an element is the only one with its key. -/
theorem filter_key_eq_singleton (h : (l.map key).Nodup) (ha : a ∈ l) : (l.filter fun b => key b = key a) = [a] := by
  induction l with
  | nil => cases ha
  | cons b l ih =>
    rw [List.map_cons, List.nodup_cons] at h
    rcases List.mem_cons.1 ha with rfl | ha
    · rw [List.filter_cons, if_pos (decide_eq_true rfl), List.filter_eq_nil_iff.2 fun c hc heq => h.1 ?_]
      rw [← of_decide_eq_true heq]
      exact List.mem_map_of_mem hc
    · rw [List.filter_cons, if_neg, ih h.2 ha]
      intro heq
      refine h.1 ?_
      rw [of_decide_eq_true heq]
      exact List.mem_map_of_mem ha

/-! ### Groups -/

section
variable {γ : Type*} {groups : List γ} {group : γ → List α} {groupKey : γ → κ}

/-- Of groups with distinct keys the first elements are kept. -/
theorem firstBy_flatMap (hkey : ∀ g ∈ groups, ∀ a ∈ group g, key a = groupKey g) (hnodup : (groups.map groupKey).Nodup)
    (hseen : ∀ g ∈ groups, groupKey g ∉ seen) :
    firstBy key seen (groups.flatMap group) = groups.filterMap fun g => (group g).head? := by
  induction groups generalizing seen with
  | nil => rfl
  | cons g groups ih =>
    rw [List.map_cons, List.nodup_cons] at hnodup
    rw [List.forall_mem_cons] at hkey hseen
    obtain ⟨hg, hkey⟩ := hkey
    -- the rest of the group is skipped once its key is seen
    have hskip : ∀ (l rest : List α) (seen' : List κ), groupKey g ∈ seen' → (∀ a ∈ l, key a = groupKey g) →
        firstBy key seen' (l ++ rest) = firstBy key seen' rest := by
      intro l rest seen' hmem hl
      induction l with
      | nil => rfl
      | cons a l ihl =>
        rw [List.cons_append, firstBy, if_pos (hl a List.mem_cons_self ▸ hmem)]
        exact ihl fun b hb => hl b (List.mem_cons_of_mem _ hb)
    rw [List.flatMap_cons, List.filterMap_cons]
    cases hgroup : group g with
    | nil => exact ih hkey hnodup.2 hseen.2
    | cons a l =>
      rw [hgroup, List.forall_mem_cons] at hg
      rw [List.cons_append, firstBy, if_neg (hg.1 ▸ hseen.1), hskip _ _ _ (hg.1 ▸ List.mem_cons_self) hg.2]
      refine congrArg (List.cons a) (ih hkey hnodup.2 fun g' hg' hmem => ?_)
      rcases List.mem_cons.1 hmem with heq | hmem
      · refine hnodup.1 ?_
        rw [← hg.1, ← heq]
        exact List.mem_map_of_mem hg'
      · exact hseen.2 g' hg' hmem

/-- And the elements with the key of a group are the group. -/
theorem filter_key_flatMap (hkey : ∀ g ∈ groups, ∀ a ∈ group g, key a = groupKey g) (hnodup : (groups.map groupKey).Nodup)
    {g : γ} (hg : g ∈ groups) : ((groups.flatMap group).filter fun a => key a = groupKey g) = group g := by
  induction groups with
  | nil => cases hg
  | cons h groups ih =>
    rw [List.map_cons, List.nodup_cons] at hnodup
    rw [List.forall_mem_cons] at hkey
    obtain ⟨hh, hkey⟩ := hkey
    rw [List.flatMap_cons, List.filter_append]
    rcases List.mem_cons.1 hg with rfl | hg
    · have hrest : ((groups.flatMap group).filter fun a => key a = groupKey g) = [] := by
        rw [List.filter_eq_nil_iff]
        intro a ha heq
        obtain ⟨h', hh', ha'⟩ := List.mem_flatMap.1 ha
        refine hnodup.1 ?_
        rw [← of_decide_eq_true heq, hkey h' hh' a ha']
        exact List.mem_map_of_mem hh'
      rw [hrest, List.append_nil]
      exact List.filter_eq_self.2 fun a ha => decide_eq_true (hh a ha)
    · have hother : ((group h).filter fun a => key a = groupKey g) = [] := by
        rw [List.filter_eq_nil_iff]
        intro a ha heq
        refine hnodup.1 ?_
        rw [← hh a ha, of_decide_eq_true heq]
        exact List.mem_map_of_mem hg
      rw [hother, List.nil_append]
      exact ih hkey hnodup.2 hg

end

end

end NewApi

import NewApi.Lib.Document

/-!
# Removing objects from documents

`removeObjects` takes away the objects of a kind, each as a whole, and keeps everything else in its order. What stays is
what was there with its own objects removed (`Within.of_removeObjects`), a field that is no object stays as it is, and
where nothing is of the kind nothing changes.
-/

namespace NewApi.Doc

universe u

variable {α : Type u}

def isObject : Doc α → Bool
  | .object _ => true
  | _ => false

def isLeaf : Doc α → Bool
  | .leaf _ => true
  | _ => false

mutual

/-- The document without the objects of a kind that are below it. -/
def removeObjects (M : Doc α → Bool) : Doc α → Doc α
  | .leaf a => .leaf a
  | .array items => .array (removeItems M items)
  | .object fields => .object (removeFields M fields)

def removeItems (M : Doc α → Bool) : List (Doc α) → List (Doc α)
  | [] => []
  | c :: items => if c.isObject ∧ M c then removeItems M items else c.removeObjects M :: removeItems M items

def removeFields (M : Doc α → Bool) : List (String × Doc α) → List (String × Doc α)
  | [] => []
  | (k, c) :: fields =>
    if c.isObject ∧ M c then removeFields M fields else (k, c.removeObjects M) :: removeFields M fields

end

/-- A document is part of another one, or the same. -/
inductive Within : Doc α → Doc α → Prop
  | refl (d : Doc α) : Within d d
  | item {e c : Doc α} {items : List (Doc α)} : c ∈ items → Within e c → Within e (.array items)
  | field {e : Doc α} {f : String × Doc α} {fields : List (String × Doc α)} : f ∈ fields → Within e f.2 →
    Within e (.object fields)

/-- A document is part of another one, and not the same. -/
inductive Below : Doc α → Doc α → Prop
  | item {e c : Doc α} {items : List (Doc α)} : c ∈ items → Within e c → Below e (.array items)
  | field {e : Doc α} {f : String × Doc α} {fields : List (String × Doc α)} : f ∈ fields → Within e f.2 →
    Below e (.object fields)

/-- A document is part of another one, and so is not removed with an object of the kind. -/
inductive Kept (M : Doc α → Bool) : Doc α → Doc α → Prop
  | refl (d : Doc α) : Kept M d d
  | item {e c : Doc α} {items : List (Doc α)} : c ∈ items → ¬ (c.isObject ∧ M c) → Kept M e c → Kept M e (.array items)
  | field {e : Doc α} {f : String × Doc α} {fields : List (String × Doc α)} : f ∈ fields → ¬ (f.2.isObject ∧ M f.2) →
    Kept M e f.2 → Kept M e (.object fields)

section
variable {M : Doc α → Bool} {c d e : Doc α} {k : String} {items : List (Doc α)} {fields : List (String × Doc α)}

theorem mem_removeItems (h : e ∈ removeItems M items) :
    ∃ c ∈ items, ¬ (c.isObject ∧ M c) ∧ e = c.removeObjects M := by
  induction items with
  | nil => cases h
  | cons c items ih =>
    unfold removeItems at h
    split at h
    next hdrop =>
      obtain ⟨c', hc', hkeep, rfl⟩ := ih h
      exact ⟨c', List.mem_cons_of_mem _ hc', hkeep, rfl⟩
    next hkeep =>
      obtain rfl | hmem := List.mem_cons.1 h
      · exact ⟨c, List.mem_cons_self, hkeep, rfl⟩
      · obtain ⟨c', hc', hkeep', rfl⟩ := ih hmem
        exact ⟨c', List.mem_cons_of_mem _ hc', hkeep', rfl⟩

theorem mem_removeFields {g : String × Doc α} (h : g ∈ removeFields M fields) :
    ∃ f ∈ fields, ¬ (f.2.isObject ∧ M f.2) ∧ g = (f.1, f.2.removeObjects M) := by
  induction fields with
  | nil => cases h
  | cons f fields ih =>
    obtain ⟨k, c⟩ := f
    unfold removeFields at h
    split at h
    next hdrop =>
      obtain ⟨f, hf, hkeep, rfl⟩ := ih h
      exact ⟨f, List.mem_cons_of_mem _ hf, hkeep, rfl⟩
    next hkeep =>
      obtain rfl | hmem := List.mem_cons.1 h
      · exact ⟨(k, c), List.mem_cons_self, hkeep, rfl⟩
      · obtain ⟨f, hf, hkeep', rfl⟩ := ih hmem
        exact ⟨f, List.mem_cons_of_mem _ hf, hkeep', rfl⟩

theorem isObject_removeObjects : (d.removeObjects M).isObject = d.isObject := by
  cases d <;> rfl

theorem removeObjects_of_isLeaf (h : d.isLeaf = true) : d.removeObjects M = d := by
  cases d with
  | leaf a => rfl
  | array | object => cases h

/-- The names that stay are in their order. -/
theorem map_fst_removeFields_sublist : ((removeFields M fields).map Prod.fst).Sublist (fields.map Prod.fst) := by
  induction fields with
  | nil => exact List.Sublist.slnil
  | cons f fields ih =>
    obtain ⟨k, c⟩ := f
    unfold removeFields
    split
    · exact ih.cons _
    · exact ih.cons_cons _

/-- A leaf at a name, or nothing, stays. -/
theorem field?_removeFields (hnodup : (fields.map Prod.fst).Nodup) (h : ∀ c, field? fields k = some c → c.isLeaf = true) :
    field? (removeFields M fields) k = field? fields k := by
  cases hc : field? fields k with
  | none =>
    refine field?_eq_none.2 fun g hg => ?_
    obtain ⟨f, hf, -, rfl⟩ := mem_removeFields hg
    exact field?_eq_none.1 hc f hf
  | some c =>
    have hleaf := h c hc
    have hmem : (k, c) ∈ removeFields M fields := by
      have hfield := mem_of_field? hc
      clear hc h hnodup
      induction fields with
      | nil => cases hfield
      | cons f fields ih =>
        obtain ⟨l, e⟩ := f
        unfold removeFields
        obtain heq | hmem := List.mem_cons.1 hfield
        · cases heq
          have hno : ¬ (c.isObject = true ∧ M c = true) := by
            cases c with
            | leaf a => exact fun h => Bool.false_ne_true h.1
            | array | object => cases hleaf
          rw [if_neg hno, removeObjects_of_isLeaf hleaf]
          exact List.mem_cons_self
        · split
          · exact ih hmem
          · exact List.mem_cons_of_mem _ (ih hmem)
    exact field?_of_mem (hnodup.sublist map_fst_removeFields_sublist) hmem

/-- What stays differs in its names. -/
theorem Distinct.removeObjects (h : d.Distinct) : (d.removeObjects M).Distinct := by
  induction h with
  | leaf => exact .leaf
  | array _ ih =>
    refine .array fun e he => ?_
    obtain ⟨c, hc, -, rfl⟩ := mem_removeItems he
    exact ih c hc
  | object hnodup _ ih =>
    refine .object (hnodup.sublist map_fst_removeFields_sublist) fun g hg => ?_
    obtain ⟨f, hf, -, rfl⟩ := mem_removeFields hg
    exact ih f hf

theorem Sorted.removeObjects (h : d.Sorted) : (d.removeObjects M).Sorted := by
  induction h with
  | leaf => exact .leaf
  | array _ ih =>
    refine .array fun e he => ?_
    obtain ⟨c, hc, -, rfl⟩ := mem_removeItems he
    exact ih c hc
  | object hsorted _ ih =>
    refine .object (hsorted.sublist map_fst_removeFields_sublist) fun g hg => ?_
    obtain ⟨f, hf, -, rfl⟩ := mem_removeFields hg
    exact ih f hf

theorem All.removeObjects {P : α → Prop} (h : d.All P) : (d.removeObjects M).All P := by
  induction h with
  | leaf h => exact .leaf h
  | array _ ih =>
    refine .array fun e he => ?_
    obtain ⟨c, hc, -, rfl⟩ := mem_removeItems he
    exact ih c hc
  | object _ ih =>
    refine .object fun g hg => ?_
    obtain ⟨f, hf, -, rfl⟩ := mem_removeFields hg
    exact ih f hf

theorem Kept.within (h : Kept M e d) : Within e d := by
  induction h with
  | refl => exact .refl _
  | item hc _ _ ih => exact .item hc ih
  | field hf _ _ ih => exact .field hf ih

/-- What is part of what stays is what was there and is not of the kind, with its own objects removed. -/
theorem Within.of_removeObjects (hkeep : ¬ (d.isObject ∧ M d)) (h : Within e (d.removeObjects M)) :
    ∃ e', Kept M e' d ∧ ¬ (e'.isObject ∧ M e') ∧ e = e'.removeObjects M := by
  induction d using Doc.induct with
  | leaf a =>
    cases h
    exact ⟨_, .refl _, hkeep, rfl⟩
  | array items ih =>
    cases h with
    | refl => exact ⟨_, .refl _, hkeep, rfl⟩
    | item hc he =>
      obtain ⟨c, hmem, hck, rfl⟩ := mem_removeItems hc
      obtain ⟨e', he', hek, rfl⟩ := ih c hmem hck he
      exact ⟨e', .item hmem hck he', hek, rfl⟩
  | object fields ih =>
    cases h with
    | refl => exact ⟨_, .refl _, hkeep, rfl⟩
    | field hf he =>
      obtain ⟨f, hmem, hfk, rfl⟩ := mem_removeFields hf
      obtain ⟨e', he', hek, rfl⟩ := ih f hmem hfk he
      exact ⟨e', .field hmem hfk he', hek, rfl⟩

theorem Below.of_removeObjects (h : Below e (d.removeObjects M)) :
    ∃ e', Kept M e' d ∧ ¬ (e'.isObject ∧ M e') ∧ e = e'.removeObjects M := by
  cases d with
  | leaf a => cases h
  | array items =>
    cases h with
    | item hc he =>
      obtain ⟨c, hmem, hck, rfl⟩ := mem_removeItems hc
      obtain ⟨e', he', hek, rfl⟩ := he.of_removeObjects hck
      exact ⟨e', .item hmem hck he', hek, rfl⟩
  | object fields =>
    cases h with
    | field hf he =>
      obtain ⟨f, hmem, hfk, rfl⟩ := mem_removeFields hf
      obtain ⟨e', he', hek, rfl⟩ := he.of_removeObjects hfk
      exact ⟨e', .field hmem hfk he', hek, rfl⟩

theorem Below.within (h : Below e d) : Within e d := by
  cases h with
  | item hc he => exact .item hc he
  | field hf he => exact .field hf he

theorem Distinct.within (h : d.Distinct) (he : Within e d) : e.Distinct := by
  induction he with
  | refl => exact h
  | item hc _ ih =>
    cases h with
    | array hitems => exact ih (hitems _ hc)
  | field hf _ ih =>
    cases h with
    | object _ hfields => exact ih (hfields _ hf)

theorem All.within {P : α → Prop} (h : d.All P) (he : Within e d) : e.All P := by
  induction he with
  | refl => exact h
  | item hc _ ih =>
    cases h with
    | array hitems => exact ih (hitems _ hc)
  | field hf _ ih =>
    cases h with
    | object hfields => exact ih (hfields _ hf)

end

end NewApi.Doc

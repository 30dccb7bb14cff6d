import Mathlib.Data.List.Basic
import Mathlib.Data.List.Nodup
import Mathlib.Data.List.Sort
import Mathlib.Data.String.Basic

/-!
# Documents and paths

A document is a leaf, an array or an object whose fields have names; the leaves are of any type. A path is a list of
parts: a part is the name of a field or, in an array, an index in decimal digits. `at?` is what a path leads to, `setAt`
puts a value there, with the containers that are missing on the way, and `deleteAt` takes it away. What they leave alone
is all that no path into the place leads to (`at?_setAt_of_not_prefix`, `at?_deleteAt_of_not_prefix`); deletion from an
array moves the items behind.
-/

namespace NewApi

universe u v

/-- A document with leaves of a type. -/
inductive Doc (α : Type u)
  | leaf (a : α)
  | array (items : List (Doc α))
  | object (fields : List (String × Doc α))

namespace Doc

/-! ## Fields -/

section
variable {β : Type v} {fields : List (String × β)} {k k' : String} {c : β}

/-- The value of the first field of a name. -/
def field? (fields : List (String × β)) (k : String) : Option β := (fields.find? fun f => f.1 = k).map Prod.snd

/-- The first field of a name gets another value; a name that is missing is added behind. -/
def setField (fields : List (String × β)) (k : String) (c : β) : List (String × β) :=
  match fields with
  | [] => [(k, c)]
  | f :: fields => if f.1 = k then (k, c) :: fields else f :: setField fields k c

/-- The fields without the first of a name. -/
def eraseField (fields : List (String × β)) (k : String) : List (String × β) := fields.eraseP fun f => f.1 = k

@[simp] theorem field?_nil : field? ([] : List (String × β)) k = none := rfl

theorem field?_cons {f : String × β} : field? (f :: fields) k = if f.1 = k then some f.2 else field? fields k := by
  unfold field?
  rw [List.find?_cons]
  by_cases h : f.1 = k
  · rw [if_pos h, decide_eq_true h]
    rfl
  · rw [if_neg h, decide_eq_false h]

theorem field?_setField : field? (setField fields k c) k' = if k' = k then some c else field? fields k' := by
  induction fields with
  | nil =>
    rw [setField, field?_cons]
    exact if_congr eq_comm rfl rfl
  | cons f fields ih =>
    unfold setField
    split
    next hf =>
      rw [field?_cons, field?_cons]
      by_cases hk : k' = k
      · rw [if_pos hk, if_pos hk.symm]
      · rw [if_neg hk, if_neg (Ne.symm hk), if_neg fun h => hk (h.symm.trans hf)]
    next hf =>
      rw [field?_cons, field?_cons, ih]
      by_cases hk : k' = k
      · rw [if_neg fun h => hf (h.trans hk), if_pos hk, if_pos hk]
      · rw [if_neg hk, if_neg hk]

theorem mem_of_field? (h : field? fields k = some c) : (k, c) ∈ fields := by
  unfold field? at h
  obtain ⟨f, hf, rfl⟩ := Option.map_eq_some_iff.1 h
  have hk := List.find?_some hf
  rw [← of_decide_eq_true hk]
  exact List.mem_of_find?_eq_some hf

theorem field?_eq_none : field? fields k = none ↔ ∀ f ∈ fields, f.1 ≠ k := by
  unfold field?
  rw [Option.map_eq_none_iff, List.find?_eq_none]
  exact forall₂_congr fun f _ => not_congr decide_eq_true_iff

/-- Where the names differ, a field is found by its name. -/
theorem field?_of_mem (hnodup : (fields.map Prod.fst).Nodup) (h : (k, c) ∈ fields) : field? fields k = some c := by
  induction fields with
  | nil => cases h
  | cons f fields ih =>
    rw [List.map_cons, List.nodup_cons] at hnodup
    rw [field?_cons]
    obtain rfl | hmem := List.mem_cons.1 h
    · exact if_pos rfl
    · rw [if_neg fun hf => hnodup.1 (List.mem_map.2 ⟨_, hmem, hf.symm⟩)]
      exact ih hnodup.2 hmem

theorem field?_eraseField_ne (h : k' ≠ k) : field? (eraseField fields k) k' = field? fields k' := by
  induction fields with
  | nil => rfl
  | cons f fields ih =>
    unfold eraseField at ih ⊢
    rw [List.eraseP_cons]
    by_cases hf : f.1 = k
    · rw [decide_eq_true hf, field?_cons, if_neg fun hk => h (hk.symm.trans hf)]
      rfl
    · rw [decide_eq_false hf]
      dsimp only [cond]
      rw [field?_cons, field?_cons, ih]

theorem field?_eraseField_self (hnodup : (fields.map Prod.fst).Nodup) : field? (eraseField fields k) k = none := by
  induction fields with
  | nil => rfl
  | cons f fields ih =>
    rw [List.map_cons, List.nodup_cons] at hnodup
    unfold eraseField at ih ⊢
    rw [List.eraseP_cons]
    by_cases hf : f.1 = k
    · rw [decide_eq_true hf]
      dsimp only [cond]
      exact field?_eq_none.2 fun g hg hk => hnodup.1 (List.mem_map.2 ⟨g, hg, hk.trans hf.symm⟩)
    · rw [decide_eq_false hf]
      dsimp only [cond]
      rw [field?_cons, if_neg hf]
      exact ih hnodup.2

theorem setField_self (h : field? fields k = some c) :
    setField fields k c = fields := by
  induction fields with
  | nil => cases h
  | cons f fields ih =>
    rw [field?_cons] at h
    unfold setField
    split
    next hf =>
      rw [if_pos hf] at h
      rw [← Option.some.inj h, ← hf]
    next hf => rw [ih (by rwa [if_neg hf] at h)]

/-- The names stay different. -/
theorem nodup_setField (h : (fields.map Prod.fst).Nodup) : ((setField fields k c).map Prod.fst).Nodup := by
  induction fields with
  | nil => exact List.nodup_singleton k
  | cons f fields ih =>
    rw [List.map_cons, List.nodup_cons] at h
    unfold setField
    split
    next hf => rw [List.map_cons, List.nodup_cons, ← hf]; exact h
    next hf =>
      rw [List.map_cons, List.nodup_cons]
      refine ⟨fun hmem => ?_, ih h.2⟩
      obtain ⟨g, hg, hgf⟩ := List.mem_map.1 hmem
      by_cases hk : f.1 = k
      · exact hf hk
      · have hfound : field? fields f.1 ≠ none := by
          have hset : field? (setField fields k c) f.1 ≠ none := fun hnone => field?_eq_none.1 hnone g hg hgf
          rwa [field?_setField, if_neg hk] at hset
        obtain ⟨d, hd⟩ := Option.ne_none_iff_exists'.1 hfound
        exact h.1 (List.mem_map.2 ⟨_, mem_of_field? hd, rfl⟩)

end

/-! ## Parts of paths -/

/-- The index that a part of a path stands for. -/
def index? (k : String) : Option ℕ :=
  if k ≠ "" ∧ k.toList.all Char.isDigit then some (Nat.ofDigitChars 10 k.toList 0) else none

theorem index?_toString (n : ℕ) : index? (toString n) = some n := by
  have hlist : (toString n).toList = Nat.toDigits 10 n := by simp [Nat.repr]
  have hne : toString n ≠ "" := by
    intro h
    have hnil := congrArg String.toList h
    rw [hlist] at hnil
    exact Nat.toDigits_ne_nil hnil
  have hdigits : ∀ c ∈ (toString n).toList, c.isDigit := by
    intro c hc
    rw [hlist] at hc
    exact Nat.isDigit_of_mem_toDigits (by decide) (by decide) hc
  rw [index?, if_pos ⟨hne, List.all_eq_true.2 hdigits⟩, hlist, Nat.ofDigitChars_ten_toDigits]

variable {α : Type u}

/-- What a part leads to. -/
def child? : Doc α → String → Option (Doc α)
  | .leaf _, _ => none
  | .array items, k => (index? k).bind (items[·]?)
  | .object fields, k => field? fields k

/-- The document with another child at a part that leads to one. -/
def setChild : Doc α → String → Doc α → Doc α
  | .leaf a, _, _ => .leaf a
  | .array items, k, c =>
    match index? k with
    | some i => .array (items.set i c)
    | none => .array items
  | .object fields, k, c => .object (setField fields k c)

/-- What a path leads to. -/
def at? : Doc α → List String → Option (Doc α)
  | d, [] => some d
  | d, k :: p => (d.child? k).bind fun c => c.at? p

/-- The containers on a path that is missing, and a value at its end. -/
def build (null : α) : List String → Doc α → Doc α
  | [], v => v
  | k :: p, v =>
    match index? k with
    | some i => .array (List.replicate i (.leaf null) ++ [build null p v])
    | none => .object [(k, build null p v)]

/-- The document with a value at a path. A leaf on the way gives place to a container, an array is filled up with nulls,
and a name cannot be set in an array. -/
def setAt (null : α) : Doc α → List String → Doc α → Option (Doc α)
  | _, [], v => some v
  | .leaf _, k :: p, v => some (build null (k :: p) v)
  | .array items, k :: p, v =>
    match index? k with
    | none => none
    | some i =>
      match items[i]? with
      | some c => (c.setAt null p v).map fun c => .array (items.set i c)
      | none => some (.array (items ++ List.replicate (i - items.length) (.leaf null) ++ [build null p v]))
  | .object fields, k :: p, v =>
    match field? fields k with
    | some c => (c.setAt null p v).map fun c => .object (setField fields k c)
    | none => some (.object (fields ++ [(k, build null p v)]))

/-- The document without the child at a part. -/
def eraseChild : Doc α → String → Doc α
  | .leaf a, _ => .leaf a
  | .array items, k =>
    match index? k with
    | some i => .array (items.eraseIdx i)
    | none => .array items
  | .object fields, k => .object (eraseField fields k)

/-- The document without what a path leads to. -/
def deleteAt : Doc α → List String → Doc α
  | d, [] => d
  | d, [k] => d.eraseChild k
  | d, k :: k' :: p =>
    match d.child? k with
    | some c => d.setChild k (c.deleteAt (k' :: p))
    | none => d

/-! ## What the operations leave alone -/

section
variable {null : α} {d d' v c : Doc α} {k : String} {p q : List String}

theorem at?_cons : d.at? (k :: p) = (d.child? k).bind fun c => c.at? p := rfl

theorem at?_singleton : d.at? [k] = d.child? k := by
  rw [at?_cons]
  cases d.child? k <;> rfl

theorem at?_append : d.at? (p ++ q) = (d.at? p).bind fun c => c.at? q := by
  induction p generalizing d with
  | nil => rfl
  | cons k p ih =>
    rw [List.cons_append, at?_cons, at?_cons, Option.bind_assoc]
    exact congrArg _ (funext fun c => ih)

theorem setChild_array {items : List (Doc α)} {i : ℕ} (h : index? k = some i) :
    (Doc.array items).setChild k c = .array (items.set i c) := by
  show (match index? k with | some i => Doc.array (items.set i c) | none => Doc.array items) = _
  rw [h]

theorem setAt_array {items : List (Doc α)} {i : ℕ} (h : index? k = some i) (hc : items[i]? = some c) :
    (Doc.array items).setAt null (k :: p) v = (c.setAt null p v).map fun c => .array (items.set i c) := by
  simp only [setAt, h, hc]

theorem setAt_array_of_name {items : List (Doc α)} (h : index? k = none) :
    (Doc.array items).setAt null (k :: p) v = none := by
  simp only [setAt, h]

theorem setAt_object {fields : List (String × Doc α)} (h : field? fields k = some c) :
    (Doc.object fields).setAt null (k :: p) v = (c.setAt null p v).map fun c => .object (setField fields k c) := by
  simp only [setAt, h]

theorem setAt_object_of_none {fields : List (String × Doc α)} (h : field? fields k = none) :
    (Doc.object fields).setAt null (k :: p) v = some (.object (fields ++ [(k, build null p v)])) := by
  simp only [setAt, h]

theorem build_cons (h : index? k = none) : build null (k :: p) v = .object [(k, build null p v)] := by
  simp only [build, h]

/-- Where a part leads to a child, a value is set in the child. -/
theorem setAt_cons_of_child (h : d.child? k = some c) :
    d.setAt null (k :: p) v = (c.setAt null p v).map (d.setChild k) := by
  cases d with
  | leaf a => cases h
  | array items =>
    obtain ⟨i, hi, hc⟩ := Option.bind_eq_some_iff.1 (show (index? k).bind (items[·]?) = some c from h)
    rw [setAt_array hi hc]
    exact congrArg (fun f => Option.map f (c.setAt null p v)) (funext fun c => (setChild_array hi).symm)
  | object fields => exact setAt_object h

theorem deleteAt_cons_of_child (h : d.child? k = some c) (hp : p ≠ []) :
    d.deleteAt (k :: p) = d.setChild k (c.deleteAt p) := by
  cases p with
  | nil => exact absurd rfl hp
  | cons k' p => simp only [deleteAt, h]

theorem deleteAt_cons_of_none (h : d.child? k = none) (hp : p ≠ []) : d.deleteAt (k :: p) = d := by
  cases p with
  | nil => exact absurd rfl hp
  | cons k' p => simp only [deleteAt, h]

theorem child?_setChild_self (h : (d.child? k).isSome) : (d.setChild k c).child? k = some c := by
  cases d with
  | leaf a => cases h
  | array items =>
    obtain ⟨e, he⟩ := Option.isSome_iff_exists.1 h
    obtain ⟨i, hi, hlt⟩ := Option.bind_eq_some_iff.1 (show (index? k).bind (items[·]?) = some e from he)
    rw [setChild_array hi]
    show (index? k).bind _ = some c
    rw [hi]
    exact List.getElem?_set_self (List.getElem?_eq_some_iff.1 hlt).1
  | object fields =>
    show field? (setField fields k c) k = some c
    rw [field?_setField, if_pos rfl]

theorem setChild_self (h : d.child? k = some c) : d.setChild k c = d := by
  cases d with
  | leaf a => rfl
  | array items =>
    obtain ⟨i, hi, hc⟩ := Option.bind_eq_some_iff.1 (show (index? k).bind (items[·]?) = some c from h)
    rw [setChild_array hi]
    obtain ⟨hlt, rfl⟩ := List.getElem?_eq_some_iff.1 hc
    rw [List.set_getElem_self]
  | object fields => exact congrArg Doc.object (setField_self h)

/-- A value can be set where there is one, and is there. -/
theorem exists_setAt (h : (d.at? p).isSome) : ∃ d', d.setAt null p v = some d' ∧ d'.at? p = some v := by
  induction p generalizing d with
  | nil => exact ⟨v, rfl, rfl⟩
  | cons k p ih =>
    rw [at?_cons] at h
    cases hc : d.child? k with
    | none =>
      rw [hc] at h
      cases h
    | some c =>
      rw [hc] at h
      obtain ⟨c', hset, hat⟩ := ih h
      refine ⟨d.setChild k c', by rw [setAt_cons_of_child hc, hset]; rfl, ?_⟩
      rw [at?_cons, child?_setChild_self (hc ▸ rfl)]
      exact hat

/-- To set the value that is there changes nothing. -/
theorem setAt_self (h : d.at? p = some c) : d.setAt null p c = some d := by
  induction p generalizing d with
  | nil => exact congrArg some (Option.some.inj h).symm
  | cons k p ih =>
    obtain ⟨e, he, hat⟩ := Option.bind_eq_some_iff.1 (show (d.child? k).bind _ = some c from h)
    rw [setAt_cons_of_child he, ih hat]
    exact congrArg some (setChild_self he)

/-- The parts are names, none an index. -/
def Names (p : List String) : Prop := ∀ k ∈ p, index? k = none

instance : DecidablePred Names := fun p => inferInstanceAs (Decidable (∀ k ∈ p, index? k = none))

theorem Names.of_cons (h : Names (k :: p)) : index? k = none ∧ Names p := List.forall_mem_cons.1 h

/-- The value is where it has been built. -/
theorem at?_build (hp : Names p) : (build null p v).at? p = some v := by
  induction p with
  | nil => rfl
  | cons k p ih =>
    rw [build_cons hp.of_cons.1, at?_cons]
    show (field? [(k, build null p v)] k).bind _ = _
    rw [field?_cons, if_pos rfl]
    exact ih hp.of_cons.2

/-- Nothing else has been built. -/
theorem at?_build_of_not_prefix (hp : Names p) (h : ¬ p <+: q) (h' : ¬ q <+: p) : (build null p v).at? q = none := by
  induction p generalizing q with
  | nil => exact absurd (List.nil_prefix) h
  | cons k p ih =>
    cases q with
    | nil => exact absurd (List.nil_prefix) h'
    | cons l q =>
      rw [build_cons hp.of_cons.1, at?_cons]
      show (field? [(k, build null p v)] l).bind _ = _
      rw [field?_cons, field?_nil]
      by_cases hkl : k = l
      · subst hkl
        rw [if_pos rfl]
        exact ih hp.of_cons.2 (fun hpre => h (List.cons_prefix_cons.2 ⟨rfl, hpre⟩))
          fun hpre => h' (List.cons_prefix_cons.2 ⟨rfl, hpre⟩)
      · rw [if_neg hkl]
        rfl

theorem field?_append {fields : List (String × Doc α)} {l : String} (h : field? fields k = none) :
    field? (fields ++ [(k, c)]) l = if l = k then some c else field? fields l := by
  induction fields with
  | nil =>
    rw [List.nil_append, field?_cons]
    exact if_congr eq_comm rfl rfl
  | cons f fields ih =>
    rw [field?_cons] at h
    split at h
    · cases h
    next hf =>
      rw [List.cons_append, field?_cons, field?_cons, ih h]
      by_cases hl : l = k
      · rw [if_neg fun hfl => hf (hfl.trans hl), if_pos hl, if_pos hl]
      · rw [if_neg hl, if_neg hl]

/-- What setting a value at a path of names does: to an object, or to a leaf, which gives place to one. -/
theorem setAt_names (hk : index? k = none) (h : d.setAt null (k :: p) v = some d') :
    ∃ c', (∀ l, d'.child? l = if l = k then some c' else d.child? l) ∧
      ((∃ c, d.child? k = some c ∧ c.setAt null p v = some c') ∨ d.child? k = none ∧ c' = build null p v) := by
  cases d with
  | leaf a =>
    have hbuild : (Doc.leaf a).setAt null (k :: p) v = some (build null (k :: p) v) := rfl
    rw [hbuild, build_cons hk] at h
    cases h
    refine ⟨build null p v, fun l => ?_, .inr ⟨rfl, rfl⟩⟩
    show field? [(k, build null p v)] l = _
    rw [field?_cons]
    exact if_congr eq_comm rfl rfl
  | array items =>
    rw [setAt_array_of_name hk] at h
    cases h
  | object fields =>
    cases hfield : field? fields k with
    | some c =>
      rw [setAt_object hfield] at h
      obtain ⟨c', hc', rfl⟩ := Option.map_eq_some_iff.1 h
      exact ⟨c', fun l => field?_setField, .inl ⟨c, hfield, hc'⟩⟩
    | none =>
      rw [setAt_object_of_none hfield] at h
      cases h
      exact ⟨build null p v, fun l => field?_append hfield, .inr ⟨hfield, rfl⟩⟩

/-- The value is where it has been set. -/
theorem at?_setAt (hp : Names p) (h : d.setAt null p v = some d') : d'.at? p = some v := by
  induction p generalizing d d' with
  | nil => exact h.symm
  | cons k p ih =>
    obtain ⟨c', hchild, hc'⟩ := setAt_names hp.of_cons.1 h
    rw [at?_cons, hchild, if_pos rfl]
    obtain ⟨c, -, hset⟩ | ⟨-, rfl⟩ := hc'
    · exact ih hp.of_cons.2 hset
    · exact at?_build hp.of_cons.2

/-- Setting a value leaves alone what is neither on the path nor below it. -/
theorem at?_setAt_of_not_prefix (hp : Names p) (hset : d.setAt null p v = some d') (h : ¬ p <+: q) (h' : ¬ q <+: p) :
    d'.at? q = d.at? q := by
  induction p generalizing d d' q with
  | nil => exact absurd (List.nil_prefix) h
  | cons k p ih =>
    cases q with
    | nil => exact absurd (List.nil_prefix) h'
    | cons l q =>
      obtain ⟨c', hchild, hc'⟩ := setAt_names hp.of_cons.1 hset
      rw [at?_cons, at?_cons, hchild]
      by_cases hl : l = k
      · subst hl
        have hpre : ¬ p <+: q := fun hpre => h (List.cons_prefix_cons.2 ⟨rfl, hpre⟩)
        have hpre' : ¬ q <+: p := fun hpre => h' (List.cons_prefix_cons.2 ⟨rfl, hpre⟩)
        rw [if_pos rfl]
        obtain ⟨c, hc, hcset⟩ | ⟨hnone, rfl⟩ := hc'
        · rw [hc]
          exact ih hp.of_cons.2 hcset hpre hpre'
        · rw [hnone]
          exact at?_build_of_not_prefix hp.of_cons.2 hpre hpre'
      · rw [if_neg hl]

/-- A path of names in an array is the only one that no value can be set at. -/
theorem setAt_isSome_iff (hp : Names p) :
    (d.setAt null p v).isSome ↔ ¬ ∃ q k r items, p = q ++ k :: r ∧ d.at? q = some (.array items) := by
  induction p generalizing d with
  | nil =>
    refine iff_of_true rfl ?_
    rintro ⟨q, k, r, items, h, -⟩
    exact absurd h.symm (by simp)
  | cons k p ih =>
    have hcons : (∃ q l r items, k :: p = q ++ l :: r ∧ d.at? q = some (.array items)) ↔
        (∃ items, d = .array items) ∨
          ∃ c, d.child? k = some c ∧ ∃ q l r items, p = q ++ l :: r ∧ c.at? q = some (.array items) := by
      constructor
      · rintro ⟨q, l, r, items, hq, hat⟩
        cases q with
        | nil => exact .inl ⟨items, Option.some.inj hat⟩
        | cons m q =>
          obtain ⟨rfl, rfl⟩ := List.cons.inj hq
          obtain ⟨c, hc, hat⟩ := Option.bind_eq_some_iff.1 (show (d.child? k).bind _ = _ from hat)
          exact .inr ⟨c, hc, q, l, r, items, rfl, hat⟩
      · rintro (⟨items, rfl⟩ | ⟨c, hc, q, l, r, items, rfl, hat⟩)
        · exact ⟨[], k, p, items, rfl, rfl⟩
        · refine ⟨k :: q, l, r, items, rfl, ?_⟩
          rw [at?_cons, hc]
          exact hat
    rw [hcons]
    cases d with
    | leaf a =>
      refine iff_of_true rfl ?_
      rintro (⟨items, h⟩ | ⟨c, hc, -⟩)
      · cases h
      · cases hc
    | array items =>
      rw [setAt_array_of_name hp.of_cons.1]
      exact iff_of_false Bool.false_ne_true fun h => h (.inl ⟨items, rfl⟩)
    | object fields =>
      cases hc : field? fields k with
      | none =>
        rw [setAt_object_of_none hc]
        refine iff_of_true rfl ?_
        rintro (⟨items, h⟩ | ⟨c, hc', -⟩)
        · cases h
        · exact absurd (hc.symm.trans hc') nofun
      | some c =>
        rw [setAt_cons_of_child (show (Doc.object fields).child? k = some c from hc), Option.isSome_map, ih hp.of_cons.2]
        refine not_congr ⟨fun h => .inr ⟨c, hc, h⟩, ?_⟩
        rintro (⟨items, h⟩ | ⟨c', hc', h⟩)
        · cases h
        · cases hc.symm.trans hc'
          exact h

theorem child?_eraseChild_ne {l : String} (hk : index? k = none) (h : l ≠ k) : (d.eraseChild k).child? l = d.child? l := by
  cases d with
  | leaf a => rfl
  | array items => simp only [eraseChild, hk]
  | object fields => exact field?_eraseField_ne h

theorem child?_setChild_ne {l : String} (hk : index? k = none) (h : l ≠ k) : (d.setChild k c).child? l = d.child? l := by
  cases d with
  | leaf a => rfl
  | array items => simp only [setChild, hk]
  | object fields =>
    show field? (setField fields k c) l = field? fields l
    rw [field?_setField, if_neg h]

/-- A deletion leaves alone what is neither on the path nor below it. -/
theorem at?_deleteAt_of_not_prefix (hp : Names p) (h : ¬ p <+: q) (h' : ¬ q <+: p) :
    (d.deleteAt p).at? q = d.at? q := by
  induction p generalizing d q with
  | nil => exact absurd List.nil_prefix h
  | cons k p ih =>
    cases q with
    | nil => exact absurd List.nil_prefix h'
    | cons l q =>
      rw [at?_cons, at?_cons]
      by_cases hpnil : p = []
      · subst hpnil
        have hl : l ≠ k := by
          rintro rfl
          exact h (List.cons_prefix_cons.2 ⟨rfl, List.nil_prefix⟩)
        show ((d.eraseChild k).child? l).bind _ = _
        rw [child?_eraseChild_ne hp.of_cons.1 hl]
      cases hc : d.child? k with
      | none => rw [deleteAt_cons_of_none hc hpnil]
      | some c =>
        rw [deleteAt_cons_of_child hc hpnil]
        by_cases hl : l = k
        · subst hl
          rw [child?_setChild_self (hc ▸ rfl), hc]
          exact ih hp.of_cons.2 (fun hpre => h (List.cons_prefix_cons.2 ⟨rfl, hpre⟩))
            fun hpre => h' (List.cons_prefix_cons.2 ⟨rfl, hpre⟩)
        · rw [child?_setChild_ne hp.of_cons.1 hl]

/-- In every object the fields have different names. -/
inductive Distinct : Doc α → Prop
  | leaf {a : α} : Distinct (.leaf a)
  | array {items : List (Doc α)} : (∀ c ∈ items, Distinct c) → Distinct (.array items)
  | object {fields : List (String × Doc α)} : (fields.map Prod.fst).Nodup → (∀ f ∈ fields, Distinct f.2) →
      Distinct (.object fields)

theorem Distinct.child (h : d.Distinct) (hc : d.child? k = some c) : c.Distinct := by
  cases h with
  | leaf => cases hc
  | array hitems =>
    obtain ⟨i, -, hi⟩ := Option.bind_eq_some_iff.1 (show (index? k).bind _ = some c from hc)
    exact hitems c (List.mem_of_getElem? hi)
  | object _ hfields => exact hfields (k, c) (mem_of_field? hc)

theorem Distinct.at? (h : d.Distinct) (hc : d.at? p = some c) : c.Distinct := by
  induction p generalizing d with
  | nil => exact Option.some.inj hc ▸ h
  | cons k p ih =>
    obtain ⟨e, he, hat⟩ := Option.bind_eq_some_iff.1 (show (d.child? k).bind _ = some c from hc)
    exact ih (h.child he) hat

theorem mem_setField {β : Type v} {fields : List (String × β)} {b : β} {f : String × β} (h : f ∈ setField fields k b) :
    f = (k, b) ∨ f ∈ fields := by
  induction fields with
  | nil => exact .inl (List.mem_singleton.1 h)
  | cons g fields ih =>
    unfold setField at h
    split at h
    · exact (List.mem_cons.1 h).imp_right (List.mem_cons_of_mem _)
    · obtain rfl | hmem := List.mem_cons.1 h
      · exact .inr List.mem_cons_self
      · exact (ih hmem).imp_right (List.mem_cons_of_mem _)

theorem Distinct.setChild (h : d.Distinct) (hc : c.Distinct) : (d.setChild k c).Distinct := by
  cases h with
  | leaf => exact .leaf
  | array hitems =>
    unfold Doc.setChild
    dsimp only
    split
    · refine .array fun e he => ?_
      obtain hmem | rfl := List.mem_or_eq_of_mem_set he
      · exact hitems e hmem
      · exact hc
    · exact .array hitems
  | object hnodup hfields =>
    refine .object (nodup_setField hnodup) fun f hf => ?_
    obtain rfl | hmem := mem_setField hf
    · exact hc
    · exact hfields f hmem

theorem Distinct.build (hv : v.Distinct) (hp : Names p) : (build null p v).Distinct := by
  induction p with
  | nil => exact hv
  | cons k p ih =>
    rw [build_cons hp.of_cons.1]
    refine .object (List.nodup_singleton k) fun f hf => ?_
    rw [List.mem_singleton.1 hf]
    exact ih hp.of_cons.2

/-- Setting a value keeps the names different. -/
theorem Distinct.setAt (h : d.Distinct) (hv : v.Distinct) (hp : Names p) (hset : d.setAt null p v = some d') :
    d'.Distinct := by
  induction p generalizing d d' with
  | nil => exact Option.some.inj hset ▸ hv
  | cons k p ih =>
    cases hc : d.child? k with
    | some c =>
      rw [setAt_cons_of_child hc] at hset
      obtain ⟨c', hc', rfl⟩ := Option.map_eq_some_iff.1 hset
      exact h.setChild (ih (h.child hc) hp.of_cons.2 hc')
    | none =>
      cases h with
      | leaf => exact Option.some.inj hset ▸ hv.build hp
      | array hitems =>
        rw [setAt_array_of_name hp.of_cons.1] at hset
        cases hset
      | object hnodup hfields =>
        rename_i fields
        have hnone : field? fields k = none := hc
        rw [setAt_object_of_none hnone] at hset
        cases hset
        refine .object ?_ fun f hf => ?_
        · rw [List.map_append, List.nodup_append]
          refine ⟨hnodup, List.nodup_singleton k, fun a ha b hb => ?_⟩
          obtain ⟨f, hf, rfl⟩ := List.mem_map.1 ha
          rw [List.mem_singleton.1 hb]
          exact field?_eq_none.1 hnone f hf
        · obtain hmem | hmem := List.mem_append.1 hf
          · exact hfields f hmem
          · rw [List.mem_singleton.1 hmem]
            exact hv.build hp.of_cons.2

theorem Distinct.eraseChild (h : d.Distinct) : (d.eraseChild k).Distinct := by
  cases h with
  | leaf => exact .leaf
  | array hitems =>
    unfold Doc.eraseChild
    dsimp only
    split
    · exact .array fun e he => hitems e (List.mem_of_mem_eraseIdx he)
    · exact .array hitems
  | object hnodup hfields =>
    rename_i fields
    have hsub : (eraseField fields k).Sublist fields := List.eraseP_sublist
    exact .object (hnodup.sublist (hsub.map _)) fun f hf => hfields f (hsub.mem hf)

/-- A deletion keeps the names different. -/
theorem Distinct.deleteAt (h : d.Distinct) : (d.deleteAt p).Distinct := by
  induction p generalizing d with
  | nil => exact h
  | cons k p ih =>
    by_cases hp : p = []
    · subst hp
      exact h.eraseChild
    cases hc : d.child? k with
    | some c =>
      rw [deleteAt_cons_of_child hc hp]
      exact h.setChild (ih (h.child hc))
    | none => rwa [deleteAt_cons_of_none hc hp]

/-- What has been deleted is not there any more. -/
theorem at?_deleteAt (h : d.Distinct) (hp : Names p) (hne : p ≠ []) : (d.deleteAt p).at? p = none := by
  induction p generalizing d with
  | nil => exact absurd rfl hne
  | cons k p ih =>
    rw [at?_cons]
    by_cases hpnil : p = []
    · subst hpnil
      have hnone : (d.eraseChild k).child? k = none := by
        cases h with
        | leaf => rfl
        | array hitems =>
          rename_i items
          show ((Doc.array items).eraseChild k).child? k = none
          simp only [eraseChild, hp.of_cons.1, child?, Option.bind_none]
        | object hnodup hfields => exact field?_eraseField_self hnodup
      show ((d.eraseChild k).child? k).bind _ = none
      rw [hnone]
      rfl
    cases hc : d.child? k with
    | none =>
      rw [deleteAt_cons_of_none hc hpnil, hc]
      rfl
    | some c =>
      rw [deleteAt_cons_of_child hc hpnil, child?_setChild_self (hc ▸ rfl)]
      exact ih (h.child hc) hp.of_cons.2 hpnil

end

/-! ## Documents as values -/

section
variable {β : Type v} {d : Doc α} {f : α → β}

/-- Induction over a document. -/
@[elab_as_elim] theorem induct {motive : Doc α → Prop} (leaf : ∀ a, motive (.leaf a))
    (array : ∀ items, (∀ c ∈ items, motive c) → motive (.array items))
    (object : ∀ fields, (∀ f ∈ fields, motive f.2) → motive (.object fields)) (d : Doc α) : motive d :=
  match d with
  | .leaf a => leaf a
  | .array items => array items fun c _ => induct leaf array object c
  | .object fields => object fields fun f _ => induct leaf array object f.2
termination_by sizeOf d
decreasing_by
  · have hlt := List.sizeOf_lt_of_mem ‹c ∈ items›
    simp only [Doc.array.sizeOf_spec]
    omega
  · have hlt := List.sizeOf_lt_of_mem ‹f ∈ fields›
    have hsnd : sizeOf f.2 < sizeOf f := by
      obtain ⟨k, c⟩ := f
      simp only [Prod.mk.sizeOf_spec]
      omega
    simp only [Doc.object.sizeOf_spec]
    omega

mutual

/-- Another leaf for each leaf. -/
def map (f : α → β) : Doc α → Doc β
  | .leaf a => .leaf (f a)
  | .array items => .array (mapItems f items)
  | .object fields => .object (mapFields f fields)

def mapItems (f : α → β) : List (Doc α) → List (Doc β)
  | [] => []
  | c :: items => c.map f :: mapItems f items

def mapFields (f : α → β) : List (String × Doc α) → List (String × Doc β)
  | [] => []
  | (k, c) :: fields => (k, c.map f) :: mapFields f fields

end

theorem mapItems_eq (items : List (Doc α)) : mapItems f items = items.map (map f) := by
  induction items with
  | nil => rfl
  | cons c items ih => rw [mapItems, ih, List.map_cons]

theorem mapFields_eq (fields : List (String × Doc α)) : mapFields f fields = fields.map fun g => (g.1, g.2.map f) := by
  induction fields with
  | nil => rfl
  | cons g fields ih => rw [mapFields, ih, List.map_cons]

/-- The fields in the order of their names. -/
def sortFields (fields : List (String × β)) : List (String × β) := fields.insertionSort fun f g => f.1 ≤ g.1

mutual

/-- The document with the fields of each object in the order of their names. -/
def canon : Doc α → Doc α
  | .leaf a => .leaf a
  | .array items => .array (canonItems items)
  | .object fields => .object (sortFields (canonFields fields))

def canonItems : List (Doc α) → List (Doc α)
  | [] => []
  | c :: items => c.canon :: canonItems items

def canonFields : List (String × Doc α) → List (String × Doc α)
  | [] => []
  | (k, c) :: fields => (k, c.canon) :: canonFields fields

end

/-- Two documents are the same value: they differ in the order of fields at most. -/
def Same (d d' : Doc α) : Prop := d.canon = d'.canon

theorem canonItems_eq (items : List (Doc α)) : canonItems items = items.map canon := by
  induction items with
  | nil => rfl
  | cons c items ih => rw [canonItems, ih, List.map_cons]

theorem canonFields_eq (fields : List (String × Doc α)) : canonFields fields = fields.map fun g => (g.1, g.2.canon) := by
  induction fields with
  | nil => rfl
  | cons g fields ih => rw [canonFields, ih, List.map_cons]

theorem canon_array (items : List (Doc α)) : (Doc.array items).canon = .array (items.map canon) := by
  rw [canon, canonItems_eq]

theorem canon_object (fields : List (String × Doc α)) :
    (Doc.object fields).canon = .object (sortFields (fields.map fun g => (g.1, g.2.canon))) := by
  rw [canon, canonFields_eq]

theorem map_array (items : List (Doc α)) : (Doc.array items).map f = .array (items.map (map f)) := by
  rw [map, mapItems_eq]

theorem map_object (fields : List (String × Doc α)) :
    (Doc.object fields).map f = .object (fields.map fun g => (g.1, g.2.map f)) := by
  rw [map, mapFields_eq]

theorem perm_sortFields (fields : List (String × β)) : (sortFields fields).Perm fields := List.perm_insertionSort ..

theorem sortFields_map {γ : Type*} (h : β → γ) (fields : List (String × β)) :
    sortFields (fields.map fun g => (g.1, h g.2)) = (sortFields fields).map fun g => (g.1, h g.2) :=
  (List.map_insertionSort (fun f g : String × β => f.1 ≤ g.1) (fun f g : String × γ => f.1 ≤ g.1)
    (fun g => (g.1, h g.2)) fields fun _ _ _ _ => Iff.rfl).symm

theorem sortFields_sortFields (fields : List (String × β)) : sortFields (sortFields fields) = sortFields fields :=
  List.Pairwise.insertionSort_eq (List.pairwise_insertionSort ..)

/-- The order of the fields is the same if it is made twice. -/
theorem canon_canon (d : Doc α) : d.canon.canon = d.canon := by
  induction d using induct with
  | leaf a => rfl
  | array items ih =>
    rw [canon_array, canon_array, List.map_map]
    exact congrArg _ (List.map_congr_left ih)
  | object fields ih =>
    rw [canon_object, canon_object, ← sortFields_map, List.map_map, sortFields_sortFields]
    exact congrArg (fun l => Doc.object (sortFields l)) (List.map_congr_left fun g hg => congrArg (Prod.mk g.1) (ih g hg))

/-- Other leaves do not change the order of the fields. -/
theorem canon_map (d : Doc α) : (d.map f).canon = d.canon.map f := by
  induction d using induct with
  | leaf a => rfl
  | array items ih =>
    rw [map_array, canon_array, canon_array, map_array, List.map_map, List.map_map]
    exact congrArg _ (List.map_congr_left ih)
  | object fields ih =>
    rw [map_object, canon_object, canon_object, map_object, ← sortFields_map, List.map_map, List.map_map]
    exact congrArg (fun l => Doc.object (sortFields l)) (List.map_congr_left fun g hg => congrArg (Prod.mk g.1) (ih g hg))

theorem mem_names_sortFields {fields : List (String × β)} :
    ((sortFields fields).map Prod.fst).Perm (fields.map Prod.fst) := (perm_sortFields fields).map _

theorem map_fst_map {γ : Type*} (h : β → γ) (fields : List (String × β)) :
    (fields.map fun g => (g.1, h g.2)).map Prod.fst = fields.map Prod.fst := by
  rw [List.map_map]
  rfl

theorem Distinct.map (h : d.Distinct) : (d.map f).Distinct := by
  induction h with
  | leaf => exact .leaf
  | array _ ih =>
    rw [map_array]
    refine .array fun c hc => ?_
    obtain ⟨e, he, rfl⟩ := List.mem_map.1 hc
    exact ih e he
  | object hnodup _ ih =>
    rw [map_object]
    refine .object ?_ fun g hg => ?_
    · rwa [map_fst_map]
    · obtain ⟨e, he, rfl⟩ := List.mem_map.1 hg
      exact ih e he

theorem Distinct.canon (h : d.Distinct) : d.canon.Distinct := by
  induction h with
  | leaf => exact .leaf
  | array _ ih =>
    rw [canon_array]
    refine .array fun c hc => ?_
    obtain ⟨e, he, rfl⟩ := List.mem_map.1 hc
    exact ih e he
  | object hnodup _ ih =>
    rw [canon_object]
    refine .object ?_ fun g hg => ?_
    · rwa [mem_names_sortFields.nodup_iff, map_fst_map]
    · obtain ⟨e, he, rfl⟩ := List.mem_map.1 ((perm_sortFields _).mem_iff.1 hg)
      exact ih e he

/-- Fields in another order have the same values, where the names differ. -/
theorem field?_perm {fields fields' : List (String × β)} {k : String} (hp : fields.Perm fields')
    (hnodup : (fields.map Prod.fst).Nodup) : field? fields k = field? fields' k := by
  have hnodup' : (fields'.map Prod.fst).Nodup := (hp.map _).nodup_iff.1 hnodup
  cases h : field? fields' k with
  | none =>
    refine field?_eq_none.2 fun g hg => field?_eq_none.1 h g (hp.mem_iff.1 hg)
  | some c => exact field?_of_mem hnodup (hp.mem_iff.2 (mem_of_field? h))

theorem field?_map {γ : Type*} (h : β → γ) {fields : List (String × β)} {k : String} :
    field? (fields.map fun g => (g.1, h g.2)) k = (field? fields k).map h := by
  induction fields with
  | nil => rfl
  | cons g fields ih =>
    rw [List.map_cons, field?_cons, field?_cons, ih]
    split <;> rfl

theorem child?_canon (h : d.Distinct) (k : String) : d.canon.child? k = (d.child? k).map Doc.canon := by
  cases h with
  | leaf => rfl
  | array hitems =>
    rw [canon_array]
    show (index? k).bind _ = ((index? k).bind _).map _
    cases index? k with
    | none => rfl
    | some i => exact List.getElem?_map ..
  | object hnodup hfields =>
    rename_i fields
    rw [canon_object]
    have hnodup' : ((fields.map fun g => (g.1, Doc.canon g.2)).map Prod.fst).Nodup := by rwa [map_fst_map]
    exact (field?_perm (perm_sortFields _).symm hnodup').symm.trans (field?_map Doc.canon)

/-- A path leads to the same value whatever the order of the fields. -/
theorem at?_canon {p : List String} (h : d.Distinct) : d.canon.at? p = (d.at? p).map Doc.canon := by
  induction p generalizing d with
  | nil => rfl
  | cons k p ih =>
    rw [at?_cons, at?_cons, child?_canon h]
    cases hc : d.child? k with
    | none => rfl
    | some c => exact ih (h.child hc)

theorem Same.at? {d' : Doc α} {p : List String} (h : d.Same d') (hd : d.Distinct) (hd' : d'.Distinct) :
    (d.at? p).map Doc.canon = (d'.at? p).map Doc.canon := by
  rw [← at?_canon hd, ← at?_canon hd', show d.canon = d'.canon from h]

/-- Every leaf of the document satisfies a property. -/
inductive All (P : α → Prop) : Doc α → Prop
  | leaf {a : α} : P a → All P (.leaf a)
  | array {items : List (Doc α)} : (∀ c ∈ items, All P c) → All P (.array items)
  | object {fields : List (String × Doc α)} : (∀ f ∈ fields, All P f.2) → All P (.object fields)

theorem all_canon {P : α → Prop} : d.canon.All P ↔ d.All P := by
  induction d using induct with
  | leaf a => exact Iff.rfl
  | array items ih =>
    rw [canon_array]
    constructor
    · rintro ⟨hitems⟩
      rename_i hitems
      exact .array fun c hc => (ih c hc).1 (hitems _ (List.mem_map_of_mem hc))
    · intro h
      cases h with
      | array hitems =>
        refine .array fun c hc => ?_
        obtain ⟨e, he, rfl⟩ := List.mem_map.1 hc
        exact (ih e he).2 (hitems e he)
  | object fields ih =>
    rw [canon_object]
    constructor
    · intro h
      cases h with
      | object hfields =>
        exact .object fun g hg =>
          (ih g hg).1 (hfields _ ((perm_sortFields _).mem_iff.2 (List.mem_map_of_mem hg)))
    · intro h
      cases h with
      | object hfields =>
        refine .object fun g hg => ?_
        obtain ⟨e, he, rfl⟩ := List.mem_map.1 ((perm_sortFields _).mem_iff.1 hg)
        exact (ih e he).2 (hfields e he)

/-- The fields of each object are in the order of their names. -/
inductive Sorted : Doc α → Prop
  | leaf {a : α} : Sorted (.leaf a)
  | array {items : List (Doc α)} : (∀ c ∈ items, Sorted c) → Sorted (.array items)
  | object {fields : List (String × Doc α)} : (fields.map Prod.fst).Pairwise (· ≤ ·) → (∀ f ∈ fields, Sorted f.2) →
      Sorted (.object fields)

theorem sorted_canon (d : Doc α) : d.canon.Sorted := by
  induction d using induct with
  | leaf a => exact .leaf
  | array items ih =>
    rw [canon_array]
    refine .array fun c hc => ?_
    obtain ⟨e, he, rfl⟩ := List.mem_map.1 hc
    exact ih e he
  | object fields ih =>
    rw [canon_object]
    refine .object (List.pairwise_map.2 (List.pairwise_insertionSort ..)) fun f hf => ?_
    obtain ⟨e, he, rfl⟩ := List.mem_map.1 ((perm_sortFields _).mem_iff.1 hf)
    exact ih e he

theorem Sorted.canon_eq (h : d.Sorted) : d.canon = d := by
  induction h with
  | leaf => rfl
  | array _ ih =>
    rw [canon_array]
    exact congrArg Doc.array ((List.map_congr_left ih).trans (List.map_id _))
  | object hsorted _ ih =>
    rename_i fields _
    have hmap : fields.map (fun g => (g.1, g.2.canon)) = fields :=
      (List.map_congr_left fun g hg => congrArg (Prod.mk g.1) (ih g hg)).trans (List.map_id _)
    rw [canon_object, hmap]
    exact congrArg Doc.object (List.Pairwise.insertionSort_eq (List.pairwise_map.1 hsorted))

mutual

def leaves : Doc α → List α
  | .leaf a => [a]
  | .array items => leavesItems items
  | .object fields => leavesFields fields

def leavesItems : List (Doc α) → List α
  | [] => []
  | c :: items => c.leaves ++ leavesItems items

def leavesFields : List (String × Doc α) → List α
  | [] => []
  | (_, c) :: fields => c.leaves ++ leavesFields fields

end

theorem leavesItems_eq (items : List (Doc α)) : leavesItems items = items.flatMap leaves := by
  induction items with
  | nil => rfl
  | cons c items ih => rw [leavesItems, ih, List.flatMap_cons]

theorem leavesFields_eq (fields : List (String × Doc α)) : leavesFields fields = fields.flatMap fun g => g.2.leaves := by
  induction fields with
  | nil => rfl
  | cons g fields ih => rw [leavesFields, ih, List.flatMap_cons]

theorem all_iff_leaves {P : α → Prop} : d.All P ↔ ∀ a ∈ d.leaves, P a := by
  induction d using induct with
  | leaf a =>
    refine ⟨fun h b hb => ?_, fun h => .leaf (h a (List.mem_singleton_self a))⟩
    cases h with
    | leaf h => exact List.mem_singleton.1 hb ▸ h
  | array items ih =>
    rw [leaves, leavesItems_eq, List.forall_mem_flatMap]
    constructor
    · intro h c hc
      cases h with
      | array hitems => exact (ih c hc).1 (hitems c hc)
    · exact fun h => .array fun c hc => (ih c hc).2 (h c hc)
  | object fields ih =>
    rw [leaves, leavesFields_eq, List.forall_mem_flatMap]
    constructor
    · intro h g hg
      cases h with
      | object hfields => exact (ih g hg).1 (hfields g hg)
    · exact fun h => .object fun g hg => (ih g hg).2 (h g hg)

instance {P : α → Prop} [DecidablePred P] : Decidable (d.All P) := decidable_of_iff _ all_iff_leaves.symm

theorem all_map {P : β → Prop} (h : ∀ a, P (f a)) (d : Doc α) : (d.map f).All P := by
  induction d using induct with
  | leaf a => exact .leaf (h a)
  | array items ih =>
    rw [map_array]
    refine .array fun c hc => ?_
    obtain ⟨e, he, rfl⟩ := List.mem_map.1 hc
    exact ih e he
  | object fields ih =>
    rw [map_object]
    refine .object fun g hg => ?_
    obtain ⟨e, he, rfl⟩ := List.mem_map.1 hg
    exact ih e he

theorem All.imp {P Q : α → Prop} (h : d.All P) (hPQ : ∀ a, P a → Q a) : d.All Q :=
  all_iff_leaves.2 fun a ha => hPQ a (all_iff_leaves.1 h a ha)

theorem All.child {P : α → Prop} {k : String} {c : Doc α} (h : d.All P) (hc : d.child? k = some c) : c.All P := by
  cases h with
  | leaf => cases hc
  | array hitems =>
    obtain ⟨i, -, hi⟩ := Option.bind_eq_some_iff.1 (show (index? k).bind _ = some c from hc)
    exact hitems c (List.mem_of_getElem? hi)
  | object hfields => exact hfields (k, c) (mem_of_field? hc)

theorem All.at? {P : α → Prop} {p : List String} {c : Doc α} (h : d.All P) (hc : d.at? p = some c) : c.All P := by
  induction p generalizing d with
  | nil => exact Option.some.inj hc ▸ h
  | cons k p ih =>
    obtain ⟨e, he, hat⟩ := Option.bind_eq_some_iff.1 (show (d.child? k).bind _ = some c from hc)
    exact ih (h.child he) hat

/-- Other leaves make the same document just when no leaf is another one. -/
theorem map_eq_self_iff {f : α → α} : d.map f = d ↔ d.All fun a => f a = a := by
  induction d using induct with
  | leaf a =>
    refine ⟨fun h => .leaf (Doc.leaf.inj h), fun h => ?_⟩
    cases h with
    | leaf h => exact congrArg Doc.leaf h
  | array items ih =>
    rw [map_array]
    constructor
    · intro h
      refine .array fun c hc => (ih c hc).1 ?_
      have hmap := Doc.array.inj h
      exact List.map_eq_map_iff.1 (hmap.trans (List.map_id _).symm) c hc
    · intro h
      cases h with
      | array hitems =>
        exact congrArg Doc.array ((List.map_congr_left fun c hc => (ih c hc).2 (hitems c hc)).trans (List.map_id _))
  | object fields ih =>
    rw [map_object]
    constructor
    · intro h
      refine .object fun g hg => (ih g hg).1 ?_
      have hmap := Doc.object.inj h
      exact congrArg Prod.snd (List.map_eq_map_iff.1 (hmap.trans (List.map_id _).symm) g hg)
    · intro h
      cases h with
      | object hfields =>
        refine congrArg Doc.object ((List.map_congr_left fun g hg => ?_).trans (List.map_id _))
        exact congrArg (Prod.mk g.1) ((ih g hg).2 (hfields g hg))

end

end Doc

end NewApi

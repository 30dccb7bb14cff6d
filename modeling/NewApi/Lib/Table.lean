import Mathlib.Data.List.Basic
import Mathlib.Data.List.Nodup
import Mathlib.Data.List.Perm.Subperm

/-!
# Keyed tables

A table of a relational store: a list of rows in insertion order, no two of them under one key.
The unique index is a field of `Table`, so the updates below, an `UPDATE … WHERE` (`modifyWhere`),
an `INSERT` (`insert`) and a `DELETE … WHERE` (`filter`), build the proof that they keep it, and a
lookup by key needs no side condition. The lemmas say what a lookup sees after each update, and
which columns an update leaves alone.
-/

namespace NewApi

/-- A list of rows with distinct keys. -/
structure Table {α κ : Type*} (key : α → κ) where
  /-- The rows, oldest first. -/
  rows : List α
  /-- The unique index. -/
  nodup : (rows.map key).Nodup

namespace Table

section
variable {α κ β : Type*} {key : α → κ} {t : Table key} {k k' : κ} {a b : α}

@[ext] theorem ext {t t' : Table key} (h : t.rows = t'.rows) : t = t' := by
  cases t; cases t'; cases h; rfl

instance [DecidableEq α] : DecidableEq (Table key) := fun _ _ =>
  decidable_of_iff _ Table.ext_iff.symm

/-- The table with no rows. -/
def empty : Table key := ⟨[], List.nodup_nil⟩

instance : Inhabited (Table key) := ⟨empty⟩

instance : Membership α (Table key) := ⟨fun t a => a ∈ t.rows⟩

theorem mem_rows : a ∈ t ↔ a ∈ t.rows := Iff.rfl

instance [DecidableEq α] : Decidable (a ∈ t) := inferInstanceAs (Decidable (a ∈ t.rows))

/-- Two rows under one key are one row. -/
theorem eq_of_key_eq (ha : a ∈ t) (hb : b ∈ t) (h : key a = key b) : a = b :=
  List.inj_on_of_nodup_map t.nodup ha hb h

/-! ## Updating rows -/

/-- `UPDATE … WHERE p`, by a function that keeps the key. -/
def modifyWhere (t : Table key) (p : α → Prop) [DecidablePred p] (f : α → α)
    (hf : ∀ a, key (f a) = key a) : Table key where
  rows := t.rows.map fun a => if p a then f a else a
  nodup := by
    have h : (t.rows.map fun a => if p a then f a else a).map key = t.rows.map key := by
      rw [List.map_map]
      refine List.map_congr_left fun a _ => ?_
      simp only [Function.comp]
      split
      · exact hf a
      · rfl
    rw [h]; exact t.nodup

section
variable {p : α → Prop} [DecidablePred p] {f : α → α} {hf : ∀ a, key (f a) = key a}

@[simp] theorem rows_modifyWhere :
    (t.modifyWhere p f hf).rows = t.rows.map fun a => if p a then f a else a := rfl

/-- The rows of an updated table are the updated rows. -/
theorem mem_modifyWhere :
    b ∈ t.modifyWhere p f hf ↔ ∃ a ∈ t, (if p a then f a else a) = b :=
  List.mem_map

/-- A row the update does not select stays. -/
theorem mem_modifyWhere_of_not (ha : a ∈ t) (hp : ¬ p a) : a ∈ t.modifyWhere p f hf :=
  mem_modifyWhere.2 ⟨a, ha, by rw [if_neg hp]⟩

/-- A row the update selects is there updated. -/
theorem mem_modifyWhere_of (ha : a ∈ t) (hp : p a) : f a ∈ t.modifyWhere p f hf :=
  mem_modifyWhere.2 ⟨a, ha, by rw [if_pos hp]⟩

/-- A column the update does not write keeps its values. -/
theorem map_modifyWhere {g : α → β} (hg : ∀ a ∈ t, p a → g (f a) = g a) :
    (t.modifyWhere p f hf).rows.map g = t.rows.map g := by
  rw [rows_modifyWhere, List.map_map]
  refine List.map_congr_left fun a ha => ?_
  simp only [Function.comp]
  split
  · exact hg a ha ‹_›
  · rfl

/-- An update that changes no row it selects changes nothing. -/
theorem modifyWhere_eq_self (h : ∀ a ∈ t, p a → f a = a) : t.modifyWhere p f hf = t := by
  refine Table.ext ?_
  rw [rows_modifyWhere]
  conv_rhs => rw [← List.map_id t.rows]
  refine List.map_congr_left fun a ha => ?_
  split
  · exact h a ha ‹_›
  · rfl

end

/-! ## Looking a row up -/

section
variable [DecidableEq κ]

/-- The row under a key. -/
def get? (t : Table key) (k : κ) : Option α := t.rows.find? fun a => key a = k

/-- A lookup finds a row just when the row is in the table under the key. -/
theorem get?_eq_some : t.get? k = some a ↔ a ∈ t ∧ key a = k := by
  constructor
  · intro h
    exact ⟨List.mem_of_find?_eq_some h, by simpa using List.find?_some h⟩
  · rintro ⟨ha, rfl⟩
    cases hb : t.get? (key a) with
    | none => exact absurd (decide_eq_true rfl) (List.find?_eq_none.1 hb a ha)
    | some b =>
      have hkey : key b = key a := by simpa using List.find?_some hb
      rw [eq_of_key_eq (List.mem_of_find?_eq_some hb) ha hkey]

theorem mem_of_get? (h : t.get? k = some a) : a ∈ t := (get?_eq_some.1 h).1

theorem key_of_get? (h : t.get? k = some a) : key a = k := (get?_eq_some.1 h).2

/-- A row of the table is found under its key. -/
theorem get?_key (h : a ∈ t) : t.get? (key a) = some a := get?_eq_some.2 ⟨h, rfl⟩

/-- A lookup fails just when no row has the key. -/
theorem get?_eq_none : t.get? k = none ↔ ∀ a ∈ t, key a ≠ k := by
  rw [get?, List.find?_eq_none]
  exact forall₂_congr fun a _ => by simp

/-- A lookup after an update is the update of the lookup. -/
theorem get?_modifyWhere {p : α → Prop} [DecidablePred p] {f : α → α}
    {hf : ∀ a, key (f a) = key a} :
    (t.modifyWhere p f hf).get? k = (t.get? k).map fun a => if p a then f a else a := by
  cases h : t.get? k with
  | none =>
    refine get?_eq_none.2 fun b hb => ?_
    obtain ⟨a, ha, rfl⟩ := mem_modifyWhere.1 hb
    have := get?_eq_none.1 h a ha
    split
    · rwa [hf]
    · exact this
  | some a =>
    obtain ⟨ha, rfl⟩ := get?_eq_some.1 h
    refine get?_eq_some.2 ⟨mem_modifyWhere.2 ⟨a, ha, rfl⟩, ?_⟩
    dsimp only
    split
    · exact hf a
    · rfl

/-- `UPDATE … WHERE key = k`, by a function that keeps the key. -/
def modify (t : Table key) (k : κ) (f : α → α) (hf : ∀ a, key (f a) = key a) : Table key :=
  t.modifyWhere (fun a => key a = k) f hf

variable {f : α → α} {hf : ∀ a, key (f a) = key a}

@[simp] theorem get?_modify_self : (t.modify k f hf).get? k = (t.get? k).map f := by
  rw [modify, get?_modifyWhere]
  cases h : t.get? k with
  | none => rfl
  | some a => simp [key_of_get? h]

@[simp] theorem get?_modify_ne (h : k' ≠ k) : (t.modify k f hf).get? k' = t.get? k' := by
  rw [modify, get?_modifyWhere]
  cases ha : t.get? k' with
  | none => rfl
  | some a => simp [key_of_get? ha, h]

/-- A lookup after an update by key, in one equation. -/
theorem get?_modify :
    (t.modify k f hf).get? k' = if k' = k then (t.get? k').map f else t.get? k' := by
  split
  next h => rw [h]; exact get?_modify_self
  next h => exact get?_modify_ne h

/-- An update by key that a second one undoes. -/
theorem modify_modify_cancel {g : α → α} {hg : ∀ a, key (g a) = key a}
    (h : ∀ a ∈ t, key a = k → g (f a) = a) : (t.modify k f hf).modify k g hg = t := by
  refine Table.ext ?_
  rw [modify, modify, rows_modifyWhere, rows_modifyWhere, List.map_map]
  conv_rhs => rw [← List.map_id t.rows]
  refine List.map_congr_left fun a ha => ?_
  simp only [Function.comp, id]
  by_cases hk : key a = k
  · rw [if_pos hk, if_pos ((hf a).trans hk), h a ha hk]
  · rw [if_neg hk, if_neg hk]

/-- A row under another key is unaffected. -/
theorem mem_modify_of_ne (ha : a ∈ t) (h : key a ≠ k) : a ∈ t.modify k f hf :=
  mem_modifyWhere_of_not ha h

end

/-! ## Inserting and deleting rows -/

/-- `DELETE … WHERE NOT p`. -/
def filter (t : Table key) (p : α → Prop) [DecidablePred p] : Table key where
  rows := t.rows.filter fun a => p a
  nodup := t.nodup.sublist (List.filter_sublist.map key)

@[simp] theorem mem_filter {p : α → Prop} [DecidablePred p] : a ∈ t.filter p ↔ a ∈ t ∧ p a := by
  rw [mem_rows, filter, List.mem_filter, decide_eq_true_eq, mem_rows]

/-- A deletion that selects no row changes nothing. -/
theorem filter_eq_self {p : α → Prop} [DecidablePred p] (h : ∀ a ∈ t, p a) : t.filter p = t :=
  Table.ext (List.filter_eq_self.2 fun a ha => decide_eq_true (h a ha))

section
variable [DecidableEq κ]

/-- A lookup after a deletion finds what the lookup found, unless it was deleted. -/
theorem get?_filter {p : α → Prop} [DecidablePred p] :
    (t.filter p).get? k = (t.get? k).filter fun a => p a := by
  refine Option.ext fun a => ?_
  rw [get?_eq_some, mem_filter, Option.filter_eq_some_iff, get?_eq_some, decide_eq_true_eq]
  exact and_right_comm

/-- `INSERT … ON CONFLICT DO NOTHING`. -/
def insertNew (t : Table key) (a : α) : Table key :=
  if h : key a ∈ t.rows.map key then t
  else
    { rows := t.rows ++ [a]
      nodup := by
        rw [List.map_append, List.nodup_append]
        refine ⟨t.nodup, by simp, fun k hk k' hk' => ?_⟩
        rw [List.map_singleton, List.mem_singleton] at hk'
        rw [hk']
        exact fun he => h (he ▸ hk) }

/-- Inserting adds the row, unless its key is taken. -/
theorem mem_insertNew : b ∈ t.insertNew a ↔ b ∈ t ∨ b = a ∧ ∀ c ∈ t, key c ≠ key a := by
  unfold insertNew
  split
  next h =>
    obtain ⟨c, hc, hkey⟩ := List.mem_map.1 h
    exact ⟨.inl, fun hor => hor.elim id fun hb => absurd hkey (hb.2 c hc)⟩
  next h =>
    have hfresh : ∀ c ∈ t, key c ≠ key a := fun c hc hkey => h (List.mem_map.2 ⟨c, hc, hkey⟩)
    rw [mem_rows, List.mem_append, List.mem_singleton, mem_rows]
    exact or_congr Iff.rfl ⟨fun hb => ⟨hb, hfresh⟩, fun hb => hb.1⟩

/-- A row inserted under a free key is found. -/
theorem get?_insertNew_self (h : t.get? (key a) = none) :
    (t.insertNew a).get? (key a) = some a :=
  get?_eq_some.2 ⟨mem_insertNew.2 (.inr ⟨rfl, get?_eq_none.1 h⟩), rfl⟩

/-- Inserting a row does not change what is found under another key. -/
theorem get?_insertNew_ne (h : k ≠ key a) : (t.insertNew a).get? k = t.get? k := by
  refine Option.ext fun b => ?_
  rw [get?_eq_some, get?_eq_some, mem_insertNew]
  constructor
  · rintro ⟨hb | ⟨rfl, -⟩, rfl⟩
    · exact ⟨hb, rfl⟩
    · exact absurd rfl h
  · rintro ⟨hb, hk⟩
    exact ⟨.inl hb, hk⟩

theorem get?_insertNew : (t.insertNew a).get? k = if k = key a then some ((t.get? k).getD a) else t.get? k := by
  split
  next h =>
    subst h
    cases hfound : t.get? (key a) with
    | none => exact get?_insertNew_self hfound
    | some b =>
      rw [insertNew, dif_pos (List.mem_map.2 ⟨b, mem_of_get? hfound, key_of_get? hfound⟩)]
      exact hfound
  next h => exact get?_insertNew_ne h

/-- A row is inserted behind the others where its key is free. -/
theorem rows_insertNew (h : ∀ c ∈ t, key c ≠ key a) : (t.insertNew a).rows = t.rows ++ [a] := by
  unfold insertNew
  rw [dif_neg]
  rintro hmem
  obtain ⟨c, hc, hkey⟩ := List.mem_map.1 hmem
  exact h c hc hkey

/-- A lookup after the row under a key is deleted. -/
theorem get?_filter_ne : (t.filter fun b => key b ≠ k').get? k = if k = k' then none else t.get? k := by
  rw [get?_filter]
  cases h : t.get? k with
  | none => exact (ite_self _).symm
  | some b =>
    rw [Option.filter_some, key_of_get? h]
    by_cases hk : k = k'
    · rw [if_pos hk, if_neg (by simpa using hk)]
    · rw [if_neg hk, if_pos (decide_eq_true hk)]

/-- Writing a row, over the one under its key if there is one. -/
def put (t : Table key) (a : α) : Table key := (t.filter fun b => key b ≠ key a).insertNew a

/-- A lookup after a row is written. -/
theorem get?_put : (t.put a).get? k = if k = key a then some a else t.get? k := by
  have hfree : (t.filter fun b => key b ≠ key a).get? (key a) = none := get?_filter_ne.trans (if_pos rfl)
  unfold put
  split
  next h => rw [h, get?_insertNew_self hfree]
  next h => rw [get?_insertNew_ne h, get?_filter_ne, if_neg h]

/-- What a deletion and an update by key do around a row of the table. -/
theorem exists_rest (ha : a ∈ t) : ∃ rest, t.rows.Perm (a :: rest) ∧ (t.filter fun b => key b ≠ key a).rows.Perm rest ∧
    ∀ (f : α → α) (hf : ∀ a, key (f a) = key a), (t.modify (key a) f hf).rows.Perm (f a :: rest) := by
  obtain ⟨l, l', hrows⟩ := List.append_of_mem (mem_rows.1 ha)
  have hnodup := t.nodup
  rw [hrows, List.map_append, List.map_cons, List.nodup_append, List.nodup_cons] at hnodup
  obtain ⟨-, ⟨hnot, -⟩, hdisj⟩ := hnodup
  have hl : ∀ b ∈ l, key b ≠ key a := fun b hb => hdisj _ (List.mem_map_of_mem hb) _ List.mem_cons_self
  have hl' : ∀ b ∈ l', key b ≠ key a := fun b hb he => hnot (he ▸ List.mem_map_of_mem hb)
  refine ⟨l ++ l', hrows ▸ List.perm_middle, ?_, fun f hf => ?_⟩
  · show (t.rows.filter fun b => key b ≠ key a).Perm (l ++ l')
    rw [hrows, List.filter_append, List.filter_cons_of_neg (by simp), List.filter_eq_self.2 fun b hb => decide_eq_true (hl b hb),
      List.filter_eq_self.2 fun b hb => decide_eq_true (hl' b hb)]
  · have hid : ∀ l : List α, (∀ b ∈ l, key b ≠ key a) → (l.map fun b => if key b = key a then f b else b) = l := by
      intro l hl
      conv_rhs => rw [← List.map_id l]
      exact List.map_congr_left fun b hb => if_neg (hl b hb)
    rw [modify, rows_modifyWhere, hrows, List.map_append, List.map_cons, hid l hl, hid l' hl', if_pos rfl]
    exact List.perm_middle

/-- Inserting rows one after another. -/
def insertAll (t : Table key) (l : List α) : Table key := l.foldl insertNew t

/-- Rows with distinct keys that are all free are all added. -/
theorem mem_insertAll {l : List α} (hl : (l.map key).Nodup) (hfree : ∀ a ∈ l, ∀ c ∈ t, key c ≠ key a) :
    b ∈ t.insertAll l ↔ b ∈ t ∨ b ∈ l := by
  induction l generalizing t with
  | nil => exact ⟨.inl, fun h => h.elim id fun h => by cases h⟩
  | cons a l ih =>
    rw [List.map_cons, List.nodup_cons] at hl
    have ha : ∀ c ∈ t, key c ≠ key a := hfree a List.mem_cons_self
    show b ∈ (t.insertNew a).insertAll l ↔ _
    rw [ih hl.2, mem_insertNew, List.mem_cons, or_assoc]
    · exact or_congr Iff.rfl (or_congr ⟨fun h => h.1, fun h => ⟨h, ha⟩⟩ Iff.rfl)
    · rintro x hx c hc hkey
      rcases mem_insertNew.1 hc with hc | ⟨rfl, -⟩
      · exact hfree x (List.mem_cons_of_mem _ hx) c hc hkey
      · exact hl.1 (hkey ▸ List.mem_map_of_mem hx)

end

/-! ## Assigned keys -/

section
variable {key : α → ℕ} {t : Table key}

/-- The key that an `INSERT` assigns: the first that is above all keys. -/
def nextKey (t : Table key) : ℕ := t.rows.foldr (fun a n => max (key a + 1) n) 1

theorem key_lt_nextKey (h : a ∈ t) : key a < t.nextKey := by
  unfold nextKey
  rw [mem_rows] at h
  generalize t.rows = l at h ⊢
  induction l with
  | nil => cases h
  | cons b l ih =>
    rw [List.foldr_cons]
    rcases List.mem_cons.1 h with rfl | h
    · exact Nat.lt_of_lt_of_le (Nat.lt_succ_self _) (Nat.le_max_left ..)
    · exact Nat.lt_of_lt_of_le (ih h) (Nat.le_max_right ..)

/-- The assigned key is free. -/
theorem get?_nextKey : t.get? t.nextKey = none :=
  get?_eq_none.2 fun _ ha => Nat.ne_of_lt (key_lt_nextKey ha)

/-- A table whose keys are all below a bound has as many rows just when every key below it is taken. -/
theorem le_length_iff {n : ℕ} (h : ∀ a ∈ t, key a < n) :
    n ≤ t.rows.length ↔ ∀ i < n, (t.get? i).isSome := by
  have hfound (i : ℕ) : (t.get? i).isSome ↔ i ∈ t.rows.map key := by
    rw [Option.isSome_iff_exists, List.mem_map]
    exact exists_congr fun a => get?_eq_some
  have hsub : t.rows.map key ⊆ List.range n := by
    intro i hi
    obtain ⟨a, ha, rfl⟩ := List.mem_map.1 hi
    exact List.mem_range.2 (h a ha)
  have hlen : (t.rows.map key).length = t.rows.length := List.length_map key
  rw [← hlen]
  refine ⟨fun hle i hi => (hfound i).2 ?_, fun hall => ?_⟩
  · have hperm := (t.nodup.subperm hsub).perm_of_length_le (Nat.le_trans (Nat.le_of_eq List.length_range) hle)
    exact hperm.mem_iff.2 (List.mem_range.2 hi)
  · have hrange : List.range n ⊆ t.rows.map key := fun i hi => (hfound i).1 (hall i (List.mem_range.1 hi))
    exact Nat.le_trans (Nat.le_of_eq List.length_range.symm) (List.nodup_range.subperm hrange).length_le

end

end

end Table

end NewApi

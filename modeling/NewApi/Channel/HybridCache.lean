import NewApi.Lib.GoString
import NewApi.Lib.Table

/-!
# The hybrid cache

`HybridCache` keeps its values in Redis where that is on, and in memory elsewhere, under keys that start with the
cache's namespace. Both hold one value for each key; they differ in how the keys of a prefix are found. A value may go
at any time, when it expires or the cache is full (`evict`).
-/

namespace NewApi.Cachex

/-- `Namespace`. -/
structure Namespace where
  name : String

namespace Namespace

/-- `prefix`. -/
def keyPrefix (n : Namespace) : String :=
  let ns := GoString.trimRight ':' (GoString.trimSpace n.name)
  if ns = "" then "" else ns ++ ":"

/-- `FullKey`. -/
def fullKey (n : Namespace) (key : String) : String :=
  let key := GoString.trimSpace key
  if key = "" then ""
  else if n.keyPrefix = "" then GoString.trimLeft ':' key
  else if GoString.hasPrefix key n.keyPrefix then key
  else n.keyPrefix ++ GoString.trimLeft ':' key

/-- The namespace puts its prefix before keys, and trimming does not touch it. -/
structure Solid (n : Namespace) : Prop where
  ne_empty : n.keyPrefix ≠ ""
  head : ∀ c ∈ n.keyPrefix.toList.head?, GoString.isSpace c = false

variable {n : Namespace} {key : String}

theorem fullKey_append (hn : n.Solid) (hne : key ≠ "")
    (hlast : ∀ c ∈ key.toList.getLast?, GoString.isSpace c = false) :
    n.fullKey (n.keyPrefix ++ key) = n.keyPrefix ++ key := by
  have hpre : n.keyPrefix.toList ≠ [] := fun h => hn.ne_empty (String.toList_inj.1 h)
  have hkey : key.toList ≠ [] := fun h => hne (String.toList_inj.1 h)
  have htrim : GoString.trimSpace (n.keyPrefix ++ key) = n.keyPrefix ++ key := by
    refine GoString.trimSpace_eq_self ?_ ?_
    · rw [String.toList_append, List.head?_append_of_ne_nil _ hpre]
      exact hn.head
    · rw [String.toList_append, List.getLast?_append_of_ne_nil _ hkey]
      exact hlast
  unfold fullKey
  dsimp only
  rw [htrim, if_neg, if_neg hn.ne_empty, if_pos]
  · rw [GoString.hasPrefix_iff, String.toList_append]
    exact List.prefix_append _ _
  · intro h
    exact hne (String.append_eq_empty_iff.1 h).2

/-- A key that starts with neither white space, a separator nor the namespace gets the prefix, and nothing else. -/
theorem fullKey_eq (hn : n.Solid) (hne : key ≠ "")
    (hhead : ∀ c ∈ key.toList.head?, GoString.isSpace c = false ∧ c ≠ ':')
    (hlast : ∀ c ∈ key.toList.getLast?, GoString.isSpace c = false)
    (hpre : GoString.hasPrefix key n.keyPrefix = false) : n.fullKey key = n.keyPrefix ++ key := by
  have htrim : GoString.trimSpace key = key := GoString.trimSpace_eq_self (fun c hc => (hhead c hc).1) hlast
  have hleft : GoString.trimLeft ':' key = key := by
    unfold GoString.trimLeft
    rw [GoString.dropWhile_eq_self, String.ofList_toList]
    exact fun c hc => decide_eq_false (hhead c hc).2
  unfold fullKey
  dsimp only
  rw [htrim, if_neg hne, if_neg hn.ne_empty, if_neg (by rw [hpre]; exact Bool.false_ne_true), hleft]

end Namespace

/-- A key and its value. -/
structure Entry (V : Type) where
  key : String
  value : V

/-- `HybridCache`. `scan` is how Redis matches a key with a pattern, where Redis is on. -/
structure HybridCache (V : Type) where
  ns : Namespace
  scan : Option (String → String → Bool) := none
  entries : Table (Entry.key (V := V)) := .empty

namespace HybridCache

section
variable {V : Type}

/-- `Get`. A lookup that fails finds nothing. -/
def get (fails : Bool) (key : String) (c : HybridCache V) : Option V :=
  let full := c.ns.fullKey key
  if full = "" ∨ fails then none else (c.entries.get? full).map Entry.value

/-- `SetWithTTL`. -/
def setWithTTL (fails : Bool) (key : String) (v : V) (c : HybridCache V) : HybridCache V :=
  let full := c.ns.fullKey key
  if full = "" ∨ fails then c
  else { c with entries := (c.entries.filter (·.key ≠ full)).insertNew { key := full, value := v } }

/-- Values that have expired, or that the cache has no room for. -/
def evict (keys : List String) (c : HybridCache V) : HybridCache V :=
  { c with entries := c.entries.filter (·.key ∉ keys) }

/-- `DeleteMany`, with the number of values that are deleted. -/
def deleteMany (fails : Bool) (keys : List String) (c : HybridCache V) : Option Nat × HybridCache V :=
  let fullKeys := (keys.map c.ns.fullKey).filter (· ≠ "")
  if fails then (none, c)
  else (some (c.entries.rows.countP (·.key ∈ fullKeys)), c.evict fullKeys)

/-- A key is found for a prefix, by Redis's pattern or by the prefix itself. -/
def Matches (fullPrefix k : String) (c : HybridCache V) : Bool :=
  match c.scan with
  | none => GoString.hasPrefix k fullPrefix
  | some glob => glob (fullPrefix ++ "*") k

/-- The keys that are found for a prefix. -/
def keysWith (fullPrefix : String) (c : HybridCache V) : List String :=
  (c.entries.rows.map Entry.key).filter (c.Matches fullPrefix)

/-- `Keys`. -/
def keys (c : HybridCache V) : List String :=
  if c.scan.isSome then c.keysWith c.ns.keyPrefix else c.entries.rows.map Entry.key

/-- The prefix of `DeleteByPrefix`, with the separator behind it. -/
def separated (fullPrefix : String) : String :=
  if GoString.hasSuffix fullPrefix ":" then fullPrefix else fullPrefix ++ ":"

/-- `DeleteByPrefix`. -/
def deleteByPrefix (fails : Bool) (pre : String) (c : HybridCache V) : Option Nat × HybridCache V :=
  let fullPrefix := c.ns.fullKey pre
  if fullPrefix = "" then (some 0, c)
  else
    let keys := c.keysWith (separated fullPrefix)
    if keys = [] ∧ ¬ fails then (some 0, c) else c.deleteMany fails keys

variable {c : HybridCache V} {fails : Bool} {keys : List String} {key k pre fullPrefix : String} {v : V}
  {n : Nat}

@[simp] theorem ns_setWithTTL : (c.setWithTTL fails key v).ns = c.ns := by
  unfold setWithTTL
  dsimp only
  split <;> rfl

@[simp] theorem scan_setWithTTL : (c.setWithTTL fails key v).scan = c.scan := by
  unfold setWithTTL
  dsimp only
  split <;> rfl

theorem get?_setWithTTL (hfull : c.ns.fullKey key ≠ "") (hfails : fails = false) :
    (c.setWithTTL fails key v).entries.get? k =
      if k = c.ns.fullKey key then some { key := c.ns.fullKey key, value := v } else c.entries.get? k := by
  unfold setWithTTL
  dsimp only
  generalize c.ns.fullKey key = full at hfull ⊢
  rw [if_neg (by rw [hfails]; simp [hfull])]
  dsimp only
  have hfree : (c.entries.filter (·.key ≠ full)).get? (Entry.key (⟨full, v⟩ : Entry V)) = none := by
    rw [Table.get?_eq_none]
    exact fun e he => (Table.mem_filter.1 he).2
  split
  next h =>
    rw [h]
    exact Table.get?_insertNew_self hfree
  next h =>
    have hother : k ≠ Entry.key (⟨full, v⟩ : Entry V) := h
    rw [Table.get?_insertNew_ne hother, Table.get?_filter]
    cases hk : c.entries.get? k with
    | none => rfl
    | some e => rw [Option.filter_some, Table.key_of_get? hk, if_pos (decide_eq_true h)]

theorem get?_evict : (c.evict keys).entries.get? k = if k ∈ keys then none else c.entries.get? k := by
  unfold evict
  dsimp only
  rw [Table.get?_filter]
  cases hk : c.entries.get? k with
  | none => exact (ite_self _).symm
  | some e =>
    by_cases hmem : k ∈ keys
    · rw [if_pos hmem, Option.filter_some, Table.key_of_get? hk, if_neg (by simpa using hmem)]
    · rw [if_neg hmem, Option.filter_some, Table.key_of_get? hk, if_pos (by simpa using hmem)]

@[simp] theorem ns_deleteMany : (c.deleteMany fails keys).2.ns = c.ns := by
  unfold deleteMany
  dsimp only
  split <;> rfl

@[simp] theorem scan_deleteMany : (c.deleteMany fails keys).2.scan = c.scan := by
  unfold deleteMany
  dsimp only
  split <;> rfl

theorem get?_of_deleteMany {e : Entry V} (h : (c.deleteMany fails keys).2.entries.get? k = some e) :
    c.entries.get? k = some e := by
  unfold deleteMany at h
  dsimp only at h
  split at h
  · exact h
  · rw [get?_evict] at h
    split at h
    · cases h
    · exact h

theorem deleteByPrefix_cases (pre : String) (fails : Bool) (c : HybridCache V) :
    c.deleteByPrefix fails pre = (some 0, c) ∨
      ∃ keys, c.deleteByPrefix fails pre = c.deleteMany fails keys := by
  unfold deleteByPrefix
  dsimp only
  split
  · exact .inl rfl
  · split
    · exact .inl rfl
    · exact .inr ⟨_, rfl⟩

/-- Redis's patterns match literally up to a star at their end, where they hold no other character that is special. -/
def Literal (glob : String → String → Bool) : Prop :=
  ∀ pre k : String, (∀ c ∈ pre.toList, c ∉ ['*', '?', '[', ']', '\\']) → glob (pre ++ "*") k = GoString.hasPrefix k pre

theorem matches_eq (hscan : ∀ glob ∈ c.scan, Literal glob)
    (hpre : c.scan.isSome → ∀ c ∈ fullPrefix.toList, c ∉ ['*', '?', '[', ']', '\\']) :
    c.Matches fullPrefix k = GoString.hasPrefix k fullPrefix := by
  unfold Matches
  cases h : c.scan with
  | none => rfl
  | some glob =>
    rw [h] at hpre
    exact hscan glob h _ _ (hpre rfl)

/-- A deletion by prefix that does not fail removes the keys that are found for the prefix, and no other. -/
theorem get?_deleteByPrefix (hfull : ∀ e ∈ c.entries, c.ns.fullKey e.key = e.key ∧ e.key ≠ "")
    (hne : c.ns.fullKey pre ≠ "") (h : (c.deleteByPrefix fails pre).1 = some n) :
    (c.deleteByPrefix fails pre).2.entries.get? k =
      if c.Matches (separated (c.ns.fullKey pre)) k then none else c.entries.get? k := by
  have hkeys : ∀ e ∈ c.entries, (e.key ∈ ((c.keysWith (separated (c.ns.fullKey pre))).map c.ns.fullKey).filter (· ≠ "") ↔
      c.Matches (separated (c.ns.fullKey pre)) e.key = true) := by
    intro e he
    rw [List.mem_filter, List.mem_map]
    constructor
    · rintro ⟨⟨key, hkey, heq⟩, -⟩
      obtain ⟨e', he', rfl⟩ := List.mem_map.1 (List.mem_of_mem_filter hkey)
      rw [(hfull e' he').1] at heq
      rw [← heq]
      exact (List.mem_filter.1 hkey).2
    · intro hmatch
      exact ⟨⟨e.key, List.mem_filter.2 ⟨List.mem_map_of_mem he, hmatch⟩, (hfull e he).1⟩,
        decide_eq_true (hfull e he).2⟩
  unfold deleteByPrefix deleteMany at h ⊢
  dsimp only at h ⊢
  rw [if_neg hne] at h ⊢
  split
  next hnil =>
    split
    next hmatch =>
      refine Table.get?_eq_none.2 fun e he hkey => ?_
      rw [← hkey] at hmatch
      have hmem : e.key ∈ c.keysWith (separated (c.ns.fullKey pre)) :=
        List.mem_filter.2 ⟨List.mem_map_of_mem he, hmatch⟩
      rw [hnil.1] at hmem
      cases hmem
    · rfl
  next hsome =>
    rw [if_neg hsome] at h
    split at h
    · cases h
    next hfails =>
      rw [if_neg hfails]
      dsimp only
      rw [get?_evict]
      cases hk : c.entries.get? k with
      | none => rw [ite_self, ite_self]
      | some e =>
        rw [← Table.key_of_get? hk]
        exact if_congr (hkeys e (Table.mem_of_get? hk)) rfl rfl

end

end HybridCache

end NewApi.Cachex

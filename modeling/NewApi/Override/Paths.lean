import NewApi.Lib.Document
import NewApi.Lib.GoString
import Mathlib.Data.Rat.Defs

/-!
# The body of a request as an override sees it

An override reads and edits the text of the body by paths, `gjson` and `sjson` doing the work. `JsonLib` is what it uses
of them, and `JsonLib.Lawful` what it relies on, at paths of keys without characters that mean something in a path. What
is moved or copied goes through a value of Go, in which each number is a `float64`. `moveValue` sets, then deletes:
this is a move just when the paths differ, each number of the value is kept and all that there is on the way to the target is
an object (`moveValue_moved_iff`).
-/

namespace NewApi

namespace Override

/-- The values in a document that hold no others. A number that `float64` has no room for is read as an infinity, which
no document holds. -/
inductive Scalar
  | null
  | bool (b : Bool)
  | number (q : ℚ)
  | infinity (negative : Bool)
  | string (s : String)
  deriving DecidableEq

abbrev Json := Doc Scalar

def Scalar.Finite (a : Scalar) : Prop := ∀ negative, a ≠ .infinity negative

instance : DecidablePred Scalar.Finite := fun _ => inferInstanceAs (Decidable (∀ _, _))

/-- The document of a text: in an object the names differ, and each number is one. -/
structure Json.WellFormed (d : Json) : Prop where
  distinct : d.Distinct
  finite : d.All Scalar.Finite

/-- A scalar that has been read into a value of Go; `float` is the number that is written for the `float64` of one. -/
def Scalar.reread (float : ℚ → Option ℚ) : Scalar → Scalar
  | .number q =>
    match float q with
    | some r => .number r
    | none => .infinity (decide (q < 0))
  | a => a

/-- A document as a value of Go, whose maps have no order. -/
def Json.value (float : ℚ → Option ℚ) (d : Json) : Json := (d.map (Scalar.reread float)).canon

/-- What an override uses of `gjson`, of `sjson` and of numbers. -/
structure JsonLib (Body : Type) where
  /-- The value of `gjson.Get` where the path exists. -/
  get : Body → String → Option Json
  set : Body → String → Json → Except String Body
  delete : Body → String → Except String Body
  /-- The body as a value of Go. -/
  unmarshal : Body → Except String Json
  float : ℚ → Option ℚ

/-- A key that is safe in a path. -/
def PlainKey (k : String) : Prop :=
  k ≠ "" ∧ (∀ c ∈ k.toList, c ≤ ' ' ∨ '~' < c ∨ c = '_' ∨ c = '-' ∨ c = ':' ∨ c.isAlphanum) ∧
    ∀ c ∈ k.toList.head?, c ≠ ':' ∧ c ≠ '-'

def PlainPath (p : List String) : Prop := p ≠ [] ∧ ∀ k ∈ p, PlainKey k

-- along the key, not over all characters
instance : DecidablePred PlainKey := fun k =>
  have : Decidable (∀ c ∈ k.toList, c ≤ ' ' ∨ '~' < c ∨ c = '_' ∨ c = '-' ∨ c = ':' ∨ c.isAlphanum) :=
    List.decidableBAll _ _
  have : Decidable (∀ c ∈ k.toList.head?, c ≠ ':' ∧ c ≠ '-') := Option.decidableForallMem _
  inferInstanceAs (Decidable (_ ∧ _))

instance : DecidablePred PlainPath := fun _ => inferInstanceAs (Decidable (_ ∧ _))

/-- A path in the syntax of `gjson`. -/
def joinPath (p : List String) : String := GoString.join '.' p

/-- A value that can be written: a scalar is, and a container of numbers only. -/
def Writable (d : Json) : Prop := (∃ a, d = .leaf a) ∨ d.All Scalar.Finite

instance : DecidablePred Writable
  | .leaf a => isTrue (.inl ⟨a, rfl⟩)
  | .array items => decidable_of_iff ((Doc.array items).All Scalar.Finite) (by simp [Writable])
  | .object fields => decidable_of_iff ((Doc.object fields).All Scalar.Finite) (by simp [Writable])

/-- What the code relies on: at plain paths the texts are read and edited as the documents they stand for. -/
structure JsonLib.Lawful {Body : Type} (lib : JsonLib Body) (document : Body → Option Json) : Prop where
  get : ∀ {b d p}, document b = some d → PlainPath p → lib.get b (joinPath p) = (d.at? p).map (Json.value lib.float)
  set : ∀ {b d p v d'}, document b = some d → PlainPath p → Writable v → d.setAt .null p v = some d' →
    ∃ r, lib.set b (joinPath p) v = .ok r ∧ document r = some d'
  set_error : ∀ {b d p v}, document b = some d → PlainPath p → ¬ Writable v ∨ d.setAt .null p v = none →
    ∃ e, lib.set b (joinPath p) v = .error e
  delete : ∀ {b d p}, document b = some d → PlainPath p →
    ∃ r, lib.delete b (joinPath p) = .ok r ∧ document r = some (d.deleteAt p)
  unmarshal : ∀ {b d}, document b = some d → (d.value lib.float).All Scalar.Finite →
    lib.unmarshal b = .ok (d.value lib.float)
  unmarshal_error : ∀ {b d}, document b = some d → ¬ (d.value lib.float).All Scalar.Finite → ∃ e, lib.unmarshal b = .error e

section
variable {Body : Type} (lib : JsonLib Body)

def moveValue (jsonStr : Body) (fromPath toPath : String) : Except String Body :=
  match lib.get jsonStr fromPath with
  | none => .error ("source path does not exist: " ++ fromPath)
  | some sourceValue => do
    let result ← lib.set jsonStr toPath sourceValue
    lib.delete result fromPath

def copyValue (jsonStr : Body) (fromPath toPath : String) : Except String Body :=
  match lib.get jsonStr fromPath with
  | none => .error ("source path does not exist: " ++ fromPath)
  | some sourceValue => lib.set jsonStr toPath sourceValue

theorem moveValue_eq_copyValue (jsonStr : Body) (fromPath toPath : String) :
    moveValue lib jsonStr fromPath toPath =
      copyValue lib jsonStr fromPath toPath >>= fun result => lib.delete result fromPath := by
  unfold moveValue copyValue
  cases lib.get jsonStr fromPath with
  | none => rfl
  | some sourceValue => rfl

end

/-! ## Moving a value -/

/-- What a move promises: the value is at the target and no longer at the source, each place apart from the two is
as it was, and so is each scalar that was at neither. A value is moved to its own place by no change. -/
structure Moved (d : Json) (fromPath toPath : List String) (r : Json) : Prop where
  same : fromPath = toPath → r.Same d
  target : fromPath ≠ toPath → ∀ c, d.at? fromPath = some c → ∃ c', r.at? toPath = some c' ∧ c'.Same c
  source : fromPath ≠ toPath → r.at? fromPath = none
  apart : ∀ p, ¬ fromPath <+: p → ¬ p <+: fromPath → ¬ toPath <+: p → ¬ p <+: toPath → r.at? p = d.at? p
  scalars : ∀ p a, d.at? p = some (.leaf a) → ¬ fromPath <+: p → ¬ toPath <+: p → r.at? p = some (.leaf a)

/-- All that there is on the way to a path is an object. -/
def ThroughObjects (d : Json) (p : List String) : Prop :=
  ∀ q c, q <+: p → q ≠ p → d.at? q = some c → ∃ fields, c = .object fields

/-- A path of simple object keys: each is safe, and none is an index. -/
def SimplePath (p : List String) : Prop := PlainPath p ∧ Doc.Names p

instance : DecidablePred SimplePath := fun _ => inferInstanceAs (Decidable (_ ∧ _))

theorem throughObjects_singleton {fields : List (String × Json)} {k : String} :
    ThroughObjects (.object fields) [k] := by
  intro q c hq hne hc
  cases q with
  | nil => exact ⟨fields, (Option.some.inj hc).symm⟩
  | cons l q =>
    obtain ⟨rfl, hnil⟩ := List.cons_prefix_cons.1 hq
    exact absurd (congrArg (List.cons l) (List.prefix_nil.1 hnil)) hne

section
variable {Body : Type} {lib : JsonLib Body} {document : Body → Option Json} {b : Body} {d d' c r : Json}
  {p q fromPath toPath : List String}

theorem at?_prefix_ne_leaf {a : Scalar} (hp : (d.at? p).isSome) (hq : q <+: p) (hne : q ≠ p) :
    d.at? q ≠ some (.leaf a) := by
  intro hleaf
  obtain ⟨s, rfl⟩ := hq
  rw [Doc.at?_append, hleaf] at hp
  cases s with
  | nil => exact hne (List.append_nil q).symm
  | cons k s => cases hp

theorem Json.value_same_iff : (c.value lib.float).Same c ↔ c.All fun a => a.reread lib.float = a := by
  unfold Doc.Same Json.value
  rw [Doc.canon_canon, Doc.canon_map, Doc.map_eq_self_iff, Doc.all_canon]

theorem copyValue_eq (hlib : lib.Lawful document) (hb : document b = some d) (hfrom : PlainPath fromPath)
    (hc : d.at? fromPath = some c) (toPath : String) :
    copyValue lib b (joinPath fromPath) toPath = lib.set b toPath (c.value lib.float) := by
  unfold copyValue
  rw [hlib.get hb hfrom, hc]
  rfl

theorem moveValue_eq_ok (hlib : lib.Lawful document) (hb : document b = some d) (hfrom : PlainPath fromPath)
    (hto : PlainPath toPath) (hc : d.at? fromPath = some c) (hw : Writable (c.value lib.float))
    (hset : d.setAt .null toPath (c.value lib.float) = some d') :
    ∃ r, moveValue lib b (joinPath fromPath) (joinPath toPath) = .ok r ∧ document r = some (d'.deleteAt fromPath) := by
  obtain ⟨r, hr, hdoc⟩ := hlib.set hb hto hw hset
  obtain ⟨r', hr', hdoc'⟩ := hlib.delete hdoc hfrom
  refine ⟨r', ?_, hdoc'⟩
  rw [moveValue_eq_copyValue, copyValue_eq hlib hb hfrom hc, hr]
  exact hr'

theorem moveValue_ok (hlib : lib.Lawful document) (hb : document b = some d) (hfrom : PlainPath fromPath)
    (hto : PlainPath toPath) (hc : d.at? fromPath = some c) {r : Body}
    (h : moveValue lib b (joinPath fromPath) (joinPath toPath) = .ok r) :
    ∃ d', d.setAt .null toPath (c.value lib.float) = some d' ∧ document r = some (d'.deleteAt fromPath) := by
  by_cases hw : ¬ Writable (c.value lib.float) ∨ d.setAt .null toPath (c.value lib.float) = none
  · obtain ⟨e, he⟩ := hlib.set_error hb hto hw
    rw [moveValue_eq_copyValue, copyValue_eq hlib hb hfrom hc, he] at h
    cases h
  · obtain ⟨hw, hset⟩ := not_or.1 hw
    obtain ⟨d', hd'⟩ := Option.ne_none_iff_exists'.1 hset
    obtain ⟨r', hr', hdoc⟩ := moveValue_eq_ok hlib hb hfrom hto hc (not_not.1 hw) hd'
    cases hr'.symm.trans h
    exact ⟨d', hd', hdoc⟩

theorem writable_value (hwf : c.All Scalar.Finite) (hkeep : c.All fun a => a.reread lib.float = a) :
    Writable (c.value lib.float) := by
  refine .inr ?_
  unfold Json.value
  rw [Doc.all_canon, Doc.map_eq_self_iff.2 hkeep]
  exact hwf

/-- A set, then a deletion, is a move where the paths differ, the value is kept and only objects are on the way. -/
theorem moved_of_set (hwf : d.WellFormed) (hfrom : SimplePath fromPath) (hto : SimplePath toPath)
    (hc : d.at? fromPath = some c) (hne : fromPath ≠ toPath) (hft : fromPath <+: toPath → fromPath = toPath)
    (htf : toPath <+: fromPath → fromPath = toPath) (hkeep : c.All fun a => a.reread lib.float = a)
    (hthrough : ThroughObjects d toPath) (hset : d.setAt .null toPath (c.value lib.float) = some d') :
    Moved d fromPath toPath (d'.deleteAt fromPath) := by
  have hvalue : (c.value lib.float).Distinct := (hwf.distinct.at? hc).map.canon
  have hd' : d'.Distinct := hwf.distinct.setAt hvalue hto.2 hset
  have hapart : ∀ p, ¬ fromPath <+: p → ¬ p <+: fromPath → ¬ toPath <+: p → ¬ p <+: toPath →
      (d'.deleteAt fromPath).at? p = d.at? p := fun p h1 h2 h3 h4 =>
    (Doc.at?_deleteAt_of_not_prefix hfrom.2 h1 h2).trans (Doc.at?_setAt_of_not_prefix hto.2 hset h3 h4)
  refine ⟨fun h => absurd h hne, fun _ c' hc' => ?_, fun _ => Doc.at?_deleteAt hd' hfrom.2 hfrom.1.1, hapart,
    fun p a ha hp hp' => ?_⟩
  · cases hc.symm.trans hc'
    refine ⟨c.value lib.float, ?_, Json.value_same_iff.2 hkeep⟩
    rw [Doc.at?_deleteAt_of_not_prefix hfrom.2 (fun h => hne (hft h)) fun h => hne (htf h)]
    exact Doc.at?_setAt hto.2 hset
  · rw [hapart p hp ?_ hp' ?_, ha]
    · -- a scalar is not above the source, which exists
      exact fun hpre => at?_prefix_ne_leaf (hc ▸ rfl) hpre (fun h => hp (h ▸ List.prefix_rfl)) ha
    · intro hpre
      obtain ⟨fields, hfields⟩ := hthrough p _ hpre (fun h => hp' (h ▸ List.prefix_rfl)) ha
      cases hfields

theorem Moved.conditions (hwf : d.WellFormed) (hfrom : SimplePath fromPath) (hto : SimplePath toPath)
    (hc : d.at? fromPath = some c) (hft : fromPath <+: toPath → fromPath = toPath)
    (htf : toPath <+: fromPath → fromPath = toPath)
    (hset : d.setAt .null toPath (c.value lib.float) = some d') (h : Moved d fromPath toPath (d'.deleteAt fromPath)) :
    fromPath ≠ toPath ∧ (c.All fun a => a.reread lib.float = a) ∧ ThroughObjects d toPath := by
  have hvalue : (c.value lib.float).Distinct := (hwf.distinct.at? hc).map.canon
  have hd' : d'.Distinct := hwf.distinct.setAt hvalue hto.2 hset
  have hgone := Doc.at?_deleteAt hd' hfrom.2 hfrom.1.1
  have hne : fromPath ≠ toPath := by
    rintro rfl
    have hsame := (h.same rfl).at? (p := fromPath) ?_ hwf.distinct
    · rw [hgone, hc] at hsame
      cases hsame
    · exact hd'.deleteAt
  have hat : (d'.deleteAt fromPath).at? toPath = some (c.value lib.float) :=
    (Doc.at?_deleteAt_of_not_prefix hfrom.2 (fun h => hne (hft h)) fun h => hne (htf h)).trans (Doc.at?_setAt hto.2 hset)
  refine ⟨hne, ?_, fun q e hpre hqne he => ?_⟩
  · obtain ⟨c', hc', hsame⟩ := h.target hne c hc
    cases hat.symm.trans hc'
    exact Json.value_same_iff.1 hsame
  · cases e with
    | object fields => exact ⟨fields, rfl⟩
    | array items =>
      -- no name can be set in an array
      obtain ⟨s, rfl⟩ := hpre
      cases s with
      | nil => exact absurd (List.append_nil q).symm hqne
      | cons k s =>
        have hsome := (Doc.setAt_isSome_iff hto.2).1 (Option.isSome_iff_exists.2 ⟨d', hset⟩)
        exact absurd ⟨q, k, s, items, rfl, he⟩ hsome
    | leaf a =>
      -- a scalar on the way is no more
      have hkept := h.scalars q a he (fun hq => ?_) fun hq => hqne (hpre.eq_of_length_le hq.length_le)
      · exact absurd hkept (at?_prefix_ne_leaf (hat ▸ rfl) hpre hqne)
      · exact hne (hft (hq.trans hpre))

/-- `moveValue` moves a value that exists just when the paths differ, each number of the value is the one that is written for
its `float64`, and everything on the way to the target is an object. -/
theorem moveValue_moved_iff (hlib : lib.Lawful document) (hb : document b = some d) (hwf : d.WellFormed)
    (hfrom : SimplePath fromPath) (hto : SimplePath toPath) (hc : d.at? fromPath = some c)
    (hft : fromPath <+: toPath → fromPath = toPath) (htf : toPath <+: fromPath → fromPath = toPath) :
    (∃ r d', moveValue lib b (joinPath fromPath) (joinPath toPath) = .ok r ∧ document r = some d' ∧
      Moved d fromPath toPath d') ↔
      fromPath ≠ toPath ∧ (c.All fun a => a.reread lib.float = a) ∧ ThroughObjects d toPath := by
  constructor
  · rintro ⟨r, d', hr, hdoc, hmoved⟩
    obtain ⟨e, hset, hdoc'⟩ := moveValue_ok hlib hb hfrom.1 hto.1 hc hr
    cases hdoc.symm.trans hdoc'
    exact hmoved.conditions hwf hfrom hto hc hft htf hset
  · rintro ⟨hne, hkeep, hthrough⟩
    have hsome : (d.setAt .null toPath (c.value lib.float)).isSome := by
      refine (Doc.setAt_isSome_iff hto.2).2 ?_
      rintro ⟨q, k, s, items, rfl, he⟩
      obtain ⟨fields, hfields⟩ := hthrough q _ (List.prefix_append ..) (by simp) he
      cases hfields
    obtain ⟨d', hset⟩ := Option.isSome_iff_exists.1 hsome
    obtain ⟨r, hr, hdoc⟩ := moveValue_eq_ok hlib hb hfrom.1 hto.1 hc (writable_value (hwf.finite.at? hc) hkeep) hset
    exact ⟨r, _, hr, hdoc, moved_of_set hwf hfrom hto hc hne hft htf hkeep hthrough hset⟩

/-! ### Bodies that are documents -/

/-- Bodies that are documents themselves, a path being cut at its dots. -/
def documents : JsonLib Json where
  get d path := (d.at? (GoString.split '.' path)).map (Json.value some)
  set d path v :=
    if Writable v then
      match d.setAt .null (GoString.split '.' path) v with
      | some d' => .ok d'
      | none => .error "cannot set array element for non-numeric key"
    else .error "json: unsupported value"
  delete d path := .ok (d.deleteAt (GoString.split '.' path))
  unmarshal d := if (d.value some).All Scalar.Finite then .ok (d.value some) else .error "json: cannot unmarshal number"
  float := some

theorem split_joinPath (hp : PlainPath p) : GoString.split '.' (joinPath p) = p := by
  refine GoString.split_join hp.1 fun k hk hdot => ?_
  have hsafe := (hp.2 k hk).2.1 '.' hdot
  revert hsafe
  decide

theorem documents_lawful : documents.Lawful some where
  get hb hp := by
    cases hb
    show Option.map _ (Doc.at? _ (GoString.split '.' _)) = _
    rw [split_joinPath hp]
    rfl
  set {b d p v d'} hb hp hw hset := by
    cases hb
    refine ⟨d', ?_, rfl⟩
    show (if Writable v then _ else _) = _
    rw [if_pos hw, split_joinPath hp, hset]
  set_error {b d p v} hb hp h := by
    cases hb
    show ∃ e, (if Writable v then _ else _) = _
    rw [split_joinPath hp]
    by_cases hw : Writable v
    · rw [if_pos hw, h.resolve_left (not_not.2 hw)]
      exact ⟨_, rfl⟩
    · rw [if_neg hw]
      exact ⟨_, rfl⟩
  delete {b d p} hb hp := by
    cases hb
    refine ⟨_, rfl, ?_⟩
    rw [split_joinPath hp]
  unmarshal hb h := by
    cases hb
    exact if_pos h
  unmarshal_error hb h := by
    cases hb
    exact ⟨_, if_neg h⟩

/-- A string that goes to another name is moved. -/
theorem moveValue_moved_renamed :
    ∃ r d', moveValue documents (.object [("stop", .leaf (.string "x"))]) "stop" "stop_sequence" = .ok r ∧
      some r = some d' ∧ Moved (.object [("stop", .leaf (.string "x"))]) ["stop"] ["stop_sequence"] d' := by
  have hwf : Json.WellFormed (.object [("stop", .leaf (.string "x"))]) := by
    refine ⟨.object (List.nodup_singleton _) fun f hf => ?_, by decide⟩
    rw [List.mem_singleton.1 hf]
    exact .leaf
  refine (@moveValue_moved_iff _ _ _ _ _ (.leaf (.string "x")) ["stop"] ["stop_sequence"] documents_lawful rfl hwf
    (by decide) (by decide) rfl (by decide) (by decide)).2 ⟨by decide, by decide, throughObjects_singleton⟩

/-- A string that goes to its own name is deleted. -/
theorem moveValue_to_itself :
    ¬ ∃ r d', moveValue documents (.object [("stop", .leaf (.string "x"))]) "stop" "stop" = .ok r ∧
      some r = some d' ∧ Moved (.object [("stop", .leaf (.string "x"))]) ["stop"] ["stop"] d' := by
  rintro ⟨r, d', hr, hd, hmoved⟩
  have hmove : moveValue documents (.object [("stop", .leaf (.string "x"))]) "stop" "stop" = .ok (.object []) := rfl
  cases hmove.symm.trans hr
  cases hd
  cases hmoved.same rfl

end

end Override

end NewApi

import NewApi.Lib.Document
import NewApi.Lib.GoString
import Mathlib.Data.Rat.Defs

/-!
# Function parameters for Gemini

The parameters of a function are a schema, of which Gemini takes a part: `cleanFunctionParameters` keeps the fields that are allowed,
writes the types in capitals, and goes down to the properties, the items and the alternatives, as deep as 64 levels. Of a list of
items it keeps the first one, so that a schema comes out clean just where no items are an empty list or a list that starts with a list, and
cleaning it again changes nothing just where no items start with a list that is not empty (`clean_iff`). The names of the properties
are always kept. A map is the list of its fields, whose order the code neither reads nor changes.
-/

namespace NewApi.GeminiSchema

/-- What is no list and no map in a decoded value. -/
inductive Leaf
  | null
  | bool (b : Bool)
  | number (q : ℚ)
  | string (s : String)
deriving DecidableEq

abbrev Value := Doc Leaf

abbrev Fields := List (String × Value)

def geminiOpenAPISchemaAllowedFields : List String :=
  ["anyOf", "default", "description", "enum", "example", "format", "items", "maxItems", "maxLength", "maxProperties", "maximum", "minItems",
    "minLength", "minProperties", "minimum", "nullable", "pattern", "properties", "propertyOrdering", "required", "title", "type"]

def geminiFunctionSchemaMaxDepth : ℕ := 64

/-- `delete`. -/
def delete (k : String) (schema : Fields) : Fields := schema.filter fun f => f.1 ≠ k

/-- `if v, ok := schema[k].(T); ok { schema[k] = f(v) }`. -/
def edit (k : String) (f : Value → Option Value) (schema : Fields) : Fields :=
  match (Doc.field? schema k).bind f with
  | some v => Doc.setField schema k v
  | none => schema

/-- The name of a type in capitals, and whether it is the null type. -/
@[irreducible] def normalize (t : String) : String × Bool :=
  match GoString.toLower (GoString.trimSpace t) with
  | "object" => ("OBJECT", false)
  | "array" => ("ARRAY", false)
  | "string" => ("STRING", false)
  | "integer" => ("INTEGER", false)
  | "number" => ("NUMBER", false)
  | "boolean" => ("BOOLEAN", false)
  | "null" => ("", true)
  | _ => (t, false)

/-- One of a list of types: whether null has been one of them, and the first of the others. -/
def chooseStep (state : Bool × String) : Value → Bool × String
  | .leaf (.string s) =>
    if (normalize s).2 then (true, state.2) else if state.2 = "" then (state.1, (normalize s).1) else state
  | _ => state

def chooseType (types : List Value) : Bool × String := types.foldl chooseStep (false, "")

def normalizeGeminiSchemaTypeAndNullable (schema : Fields) : Fields :=
  match Doc.field? schema "type" with
  | some (.leaf (.string t)) =>
    if (normalize t).2 then delete "type" (Doc.setField schema "nullable" (.leaf (.bool true)))
    else Doc.setField schema "type" (.leaf (.string (normalize t).1))
  | some (.array types) =>
    let schema := if (chooseType types).1 then Doc.setField schema "nullable" (.leaf (.bool true)) else schema
    if (chooseType types).2 ≠ "" then Doc.setField schema "type" (.leaf (.string (chooseType types).2)) else delete "type" schema
  | _ => schema

/-- The fields that are allowed. -/
def allowed (schema : Fields) : Fields := schema.filter fun f => f.1 ∈ geminiOpenAPISchemaAllowedFields

def cleanFunctionParametersShallow : Value → Value
  | .object v =>
    .object (delete "anyOf" (delete "items" (delete "properties" (normalizeGeminiSchemaTypeAndNullable (allowed v)))))
  | .array _ => .array []
  | .leaf a => .leaf a

/-- At so many levels above the limit of the depth. -/
def cleanFunctionParametersWithDepth : (left : ℕ) → Value → Value
  | 0, params => cleanFunctionParametersShallow params
  | left + 1, .object v =>
    let cleanedMap := normalizeGeminiSchemaTypeAndNullable (allowed v)
    let cleanedMap := edit "properties" (fun
      | .object props => some (.object (props.map fun f => (f.1, cleanFunctionParametersWithDepth left f.2)))
      | _ => none) cleanedMap
    let cleanedMap := edit "items" (fun
      | .object items => some (cleanFunctionParametersWithDepth left (.object items))
      | _ => none) cleanedMap
    let cleanedMap := edit "items" (fun
      | .array (first :: _) => some (cleanFunctionParametersWithDepth left first)
      | _ => none) cleanedMap
    let cleanedMap := edit "anyOf" (fun
      | .array nested => some (.array (nested.map (cleanFunctionParametersWithDepth left)))
      | _ => none) cleanedMap
    .object cleanedMap
  | left + 1, .array v => .array (v.map (cleanFunctionParametersWithDepth left))
  | _ + 1, .leaf a => .leaf a

def cleanFunctionParameters (params : Value) : Value := cleanFunctionParametersWithDepth geminiFunctionSchemaMaxDepth params

/-! ## What is promised -/

/-- A step from a schema to one below it. -/
inductive Step
  | property (name : String)
  | items
  | anyOf (i : ℕ)

/-- What is at the schema position that a path leads to. -/
def schemaAt? : Value → List Step → Option Value
  | v, [] => some v
  | .object fields, .property name :: p =>
    match Doc.field? fields "properties" with
    | some (.object props) => (Doc.field? props name).bind fun v => schemaAt? v p
    | _ => none
  | .object fields, .items :: p => (Doc.field? fields "items").bind fun v => schemaAt? v p
  | .object fields, .anyOf i :: p =>
    match Doc.field? fields "anyOf" with
    | some (.array nested) => nested[i]?.bind fun v => schemaAt? v p
    | _ => none
  | _, _ :: _ => none

/-- A schema that Gemini takes: allowed fields only, no list of items, no list of types, and no null type. -/
structure Clean (fields : Fields) : Prop where
  allowed : ∀ f ∈ fields, f.1 ∈ geminiOpenAPISchemaAllowedFields
  items : ∀ l, Doc.field? fields "items" ≠ some (.array l)
  types : ∀ l, Doc.field? fields "type" ≠ some (.array l)
  null : ∀ t, Doc.field? fields "type" = some (.leaf (.string t)) → (normalize t).2 = false

/-- Every schema is clean. -/
def AllClean (v : Value) : Prop := ∀ p fields, schemaAt? v p = some (.object fields) → Clean fields

/-- The names of the properties of a schema are those of the schema in the same position. -/
def KeepsNames (levels : ℕ) (v r : Value) : Prop :=
  ∀ p fields props, p.length < levels → schemaAt? v p = some (.object fields) → Doc.field? fields "properties" = some (.object props) →
    ∃ fields' props', schemaAt? r p = some (.object fields') ∧ Doc.field? fields' "properties" = some (.object props') ∧
      props'.map Prod.fst = props.map Prod.fst

/-- What the items of a schema become above the limit: nothing becomes of a list without a first one. -/
def itemsOf : Value → Option Value
  | .array [] => none
  | .array (first :: _) => some first
  | v => some v

/-- No schema that is reached above the limit has an empty list of items, or one that starts with a list. -/
def NoLists : (left : ℕ) → Value → Prop
  | 0, _ => True
  | left + 1, .object fields =>
    (∀ props, Doc.field? fields "properties" = some (.object props) → ∀ name v, Doc.field? props name = some v → NoLists left v) ∧
      (∀ items, Doc.field? fields "items" = some items → ∃ v, itemsOf items = some v ∧ (∀ l, v ≠ .array l) ∧ NoLists left v) ∧
      ∀ nested, Doc.field? fields "anyOf" = some (.array nested) → ∀ v ∈ nested, NoLists left v
  | _ + 1, _ => True

/-- No map that is reached above the limit has a list of items that starts with a list, unless this one becomes empty. -/
def Stable : (left : ℕ) → Value → Prop
  | 0, _ => True
  | left + 1, .object fields =>
    (∀ props, Doc.field? fields "properties" = some (.object props) → ∀ f ∈ props, Stable left f.2) ∧
      (∀ items, Doc.field? fields "items" = some items → ∀ v, itemsOf items = some v →
        (∀ first rest, v = .array (first :: rest) → left = 0) ∧ Stable left v) ∧
      ∀ nested, Doc.field? fields "anyOf" = some (.array nested) → ∀ v ∈ nested, Stable left v
  | left + 1, .array v => ∀ c ∈ v, Stable left c
  | _ + 1, .leaf _ => True

section
variable {schema fields : Fields} {k k' t : String} {v c : Value} {f : Value → Option Value} {left : ℕ}

/-! ## Fields -/

theorem field?_filter {p : String → Bool} : Doc.field? (schema.filter fun f => p f.1) k = if p k then Doc.field? schema k else none := by
  induction schema with
  | nil => exact (ite_self _).symm
  | cons f schema ih =>
    rw [List.filter_cons]
    split
    next hf =>
      rw [Doc.field?_cons, Doc.field?_cons, ih]
      by_cases hk : f.1 = k
      · rw [if_pos hk, if_pos hk, if_pos (hk ▸ hf)]
      · rw [if_neg hk, if_neg hk]
    next hf =>
      rw [ih, Doc.field?_cons]
      by_cases hk : f.1 = k
      · rw [if_neg (hk ▸ hf), if_neg (hk ▸ hf)]
      · rw [if_neg hk]

theorem field?_delete : Doc.field? (delete k schema) k' = if k' = k then none else Doc.field? schema k' := by
  refine (field?_filter (p := fun n => decide (n ≠ k))).trans ?_
  by_cases hk : k' = k
  · rw [if_pos hk, decide_eq_false (not_not.2 hk), if_neg Bool.false_ne_true]
  · rw [if_neg hk, if_pos (decide_eq_true hk)]

theorem field?_allowed (hk : k ∈ geminiOpenAPISchemaAllowedFields) : Doc.field? (allowed schema) k = Doc.field? schema k :=
  (field?_filter (p := fun n => decide (n ∈ geminiOpenAPISchemaAllowedFields))).trans (if_pos (decide_eq_true hk))

theorem field?_edit : Doc.field? (edit k f schema) k' =
    if k' = k then (Doc.field? schema k).map fun v => (f v).getD v else Doc.field? schema k' := by
  unfold edit
  cases hk : Doc.field? schema k with
  | none =>
    dsimp only [Option.bind_none, Option.map_none]
    split
    next heq => rw [heq, hk]
    next => rfl
  | some v =>
    rw [Option.bind_some, Option.map_some]
    cases hf : f v with
    | none =>
      dsimp only
      split
      next heq =>
        rw [heq, hk]
        rfl
      next => rfl
    | some c => exact Doc.field?_setField

theorem edit_eq_self (h : ∀ v, Doc.field? schema k = some v → (f v).getD v = v) : edit k f schema = schema := by
  unfold edit
  cases hk : Doc.field? schema k with
  | none => rfl
  | some v =>
    rw [Option.bind_some]
    cases hf : f v with
    | none => rfl
    | some c =>
      have hv := h v hk
      rw [hf] at hv
      exact Doc.setField_self (hk.trans (congrArg some hv.symm))

/-- Only allowed fields. -/
def Allowed (schema : Fields) : Prop := ∀ f ∈ schema, f.1 ∈ geminiOpenAPISchemaAllowedFields

theorem allowed_allowed : Allowed (allowed schema) := fun _ hf => of_decide_eq_true (List.mem_filter.1 hf).2

theorem Allowed.eq_self (h : Allowed schema) : allowed schema = schema :=
  List.filter_eq_self.2 fun f hf => decide_eq_true (h f hf)

theorem Allowed.delete (h : Allowed schema) : Allowed (delete k schema) := fun f hf => h f (List.mem_of_mem_filter hf)

theorem Allowed.set (h : Allowed schema) (hk : k ∈ geminiOpenAPISchemaAllowedFields) : Allowed (Doc.setField schema k c) := by
  intro f hf
  rcases Doc.mem_setField hf with rfl | hmem
  · exact hk
  · exact h f hmem

theorem Allowed.edit (h : Allowed schema) (hk : k ∈ geminiOpenAPISchemaAllowedFields) : Allowed (edit k f schema) := by
  unfold GeminiSchema.edit
  split
  · exact h.set hk
  · exact h

/-! ## Types -/

def typeNames : List String := ["OBJECT", "ARRAY", "STRING", "INTEGER", "NUMBER", "BOOLEAN"]

theorem normalize_cases (t : String) :
    normalize t = ("", true) ∨ (∃ name ∈ typeNames, normalize t = (name, false)) ∨ normalize t = (t, false) := by
  unfold normalize
  split
  · exact .inr (.inl ⟨_, by decide, rfl⟩)
  · exact .inr (.inl ⟨_, by decide, rfl⟩)
  · exact .inr (.inl ⟨_, by decide, rfl⟩)
  · exact .inr (.inl ⟨_, by decide, rfl⟩)
  · exact .inr (.inl ⟨_, by decide, rfl⟩)
  · exact .inr (.inl ⟨_, by decide, rfl⟩)
  · exact .inl rfl
  · exact .inr (.inr rfl)

theorem normalize_typeName : ∀ name ∈ typeNames, normalize name = (name, false) := by
  decide +kernel

theorem normalize_normalize (h : (normalize t).2 = false) : normalize (normalize t).1 = ((normalize t).1, false) := by
  rcases normalize_cases t with hnull | ⟨name, hname, heq⟩ | hsame
  · rw [hnull] at h
    cases h
  · rw [heq]
    exact normalize_typeName name hname
  · rw [hsame]
    exact hsame

/-- A schema whose type is written as it should be. -/
def TypeNormal (schema : Fields) : Prop :=
  (∀ l, Doc.field? schema "type" ≠ some (.array l)) ∧
    ∀ t, Doc.field? schema "type" = some (.leaf (.string t)) → normalize t = (t, false)

theorem normalize_chooseStep {state : Bool × String} (h : state.2 = "" ∨ normalize state.2 = (state.2, false)) (item : Value) :
    (chooseStep state item).2 = "" ∨ normalize (chooseStep state item).2 = ((chooseStep state item).2, false) := by
  unfold chooseStep
  split
  next s =>
    split
    next => exact h
    next hnull =>
      split
      next =>
        have hs := normalize_normalize (Bool.eq_false_of_not_eq_true hnull)
        exact .inr hs
      next => exact h
  next => exact h

theorem normalize_chooseType (types : List Value) (h : (chooseType types).2 ≠ "") :
    normalize (chooseType types).2 = ((chooseType types).2, false) := by
  have hrun : ∀ state : Bool × String, (state.2 = "" ∨ normalize state.2 = (state.2, false)) →
      (types.foldl chooseStep state).2 = "" ∨ normalize (types.foldl chooseStep state).2 = ((types.foldl chooseStep state).2, false) := by
    clear h
    induction types with
    | nil => exact fun state hstate => hstate
    | cons item types ih => exact fun state hstate => ih _ (normalize_chooseStep hstate item)
  exact (hrun (false, "") (.inl rfl)).resolve_left h

theorem typeNormal_normalize (schema : Fields) : TypeNormal (normalizeGeminiSchemaTypeAndNullable schema) := by
  unfold normalizeGeminiSchemaTypeAndNullable TypeNormal
  split
  next t ht =>
    split
    next =>
      rw [field?_delete, if_pos rfl]
      exact ⟨nofun, nofun⟩
    next hnull =>
      rw [Doc.field?_setField, if_pos rfl]
      have hs := normalize_normalize (Bool.eq_false_of_not_eq_true hnull)
      refine ⟨nofun, fun t' ht' => ?_⟩
      rwa [Leaf.string.inj (Doc.leaf.inj (Option.some.inj ht'))] at hs
  next types htypes =>
    dsimp only
    split
    next hchosen =>
      rw [Doc.field?_setField, if_pos rfl]
      have hs := normalize_chooseType types hchosen
      refine ⟨nofun, fun t' ht' => ?_⟩
      rwa [Leaf.string.inj (Doc.leaf.inj (Option.some.inj ht'))] at hs
    next =>
      rw [field?_delete, if_pos rfl]
      exact ⟨nofun, nofun⟩
  next hother hother' =>
    exact ⟨fun l h => hother' l h, fun t h => absurd h (hother t)⟩

theorem normalize_eq_self (h : TypeNormal schema) : normalizeGeminiSchemaTypeAndNullable schema = schema := by
  unfold normalizeGeminiSchemaTypeAndNullable
  split
  next t ht =>
    rw [h.2 t ht]
    exact Doc.setField_self ht
  next types htypes => exact absurd htypes (h.1 types)
  next => rfl

theorem allowed_normalize (h : Allowed schema) : Allowed (normalizeGeminiSchemaTypeAndNullable schema) := by
  unfold normalizeGeminiSchemaTypeAndNullable
  split
  · split
    · exact (h.set (by decide)).delete
    · exact h.set (by decide)
  · dsimp only
    split
    · split
      · exact (h.set (by decide)).set (by decide)
      · exact h.set (by decide)
    · split
      · exact (h.set (by decide)).delete
      · exact h.delete
  · exact h

theorem field?_normalize (htype : k ≠ "type") (hnullable : k ≠ "nullable") :
    Doc.field? (normalizeGeminiSchemaTypeAndNullable schema) k = Doc.field? schema k := by
  unfold normalizeGeminiSchemaTypeAndNullable
  split
  · split
    · rw [field?_delete, if_neg htype, Doc.field?_setField, if_neg hnullable]
    · rw [Doc.field?_setField, if_neg htype]
  · dsimp only
    split
    · rw [Doc.field?_setField, if_neg htype]
      split
      · rw [Doc.field?_setField, if_neg hnullable]
      · rfl
    · rw [field?_delete, if_neg htype]
      split
      · rw [Doc.field?_setField, if_neg hnullable]
      · rfl
  · rfl

theorem TypeNormal.edit (h : TypeNormal schema) (hk : "type" ≠ k) : TypeNormal (edit k f schema) := by
  unfold TypeNormal
  rw [field?_edit, if_neg hk]
  exact h

theorem TypeNormal.delete (h : TypeNormal schema) (hk : "type" ≠ k) : TypeNormal (delete k schema) := by
  unfold TypeNormal
  rw [field?_delete, if_neg hk]
  exact h

/-! ## One level -/

/-- What becomes of the properties. -/
def propertiesOf (left : ℕ) : Value → Value
  | .object props => .object (props.map fun f => (f.1, cleanFunctionParametersWithDepth left f.2))
  | v => v

/-- What becomes of the items. -/
def cleanItems (left : ℕ) (v : Value) : Value := ((itemsOf v).map (cleanFunctionParametersWithDepth left)).getD v

/-- What becomes of the alternatives. -/
def anyOfOf (left : ℕ) : Value → Value
  | .array nested => .array (nested.map (cleanFunctionParametersWithDepth left))
  | v => v

theorem clean_leaf (left : ℕ) (a : Leaf) : cleanFunctionParametersWithDepth left (.leaf a) = .leaf a := by
  cases left with
  | zero => rfl
  | succ left => rfl

theorem exists_clean_object (left : ℕ) (fields : Fields) :
    ∃ cleaned, cleanFunctionParametersWithDepth left (.object fields) = .object cleaned := by
  cases left with
  | zero => exact ⟨_, rfl⟩
  | succ left => exact ⟨_, rfl⟩

theorem exists_clean_array (left : ℕ) (l : List Value) : ∃ l', cleanFunctionParametersWithDepth left (.array l) = .array l' := by
  cases left with
  | zero => exact ⟨_, rfl⟩
  | succ left => exact ⟨_, rfl⟩

theorem clean_isArray : (∃ l, cleanFunctionParametersWithDepth left v = .array l) ↔ ∃ l, v = .array l := by
  cases v with
  | leaf a => rw [clean_leaf]
  | array l => exact iff_of_true (exists_clean_array left l) ⟨l, rfl⟩
  | object fields =>
    obtain ⟨cleaned, hcleaned⟩ := exists_clean_object left fields
    rw [hcleaned]
    exact iff_of_false (by rintro ⟨l, hl⟩; cases hl) (by rintro ⟨l, hl⟩; cases hl)

/-- A map that is cleaned above the limit has fields that are allowed and a type in capitals, and what is below is cleaned. -/
theorem clean_object (left : ℕ) (fields : Fields) : ∃ cleaned, cleanFunctionParametersWithDepth (left + 1) (.object fields) = .object cleaned ∧
    Allowed cleaned ∧ TypeNormal cleaned ∧
    Doc.field? cleaned "properties" = (Doc.field? fields "properties").map (propertiesOf left) ∧
    Doc.field? cleaned "items" = (Doc.field? fields "items").map (cleanItems left) ∧
    Doc.field? cleaned "anyOf" = (Doc.field? fields "anyOf").map (anyOfOf left) := by
  refine ⟨_, rfl, ?_, ?_, ?_, ?_, ?_⟩
  · exact ((((allowed_normalize allowed_allowed).edit (by decide)).edit (by decide)).edit (by decide)).edit (by decide)
  · exact ((((typeNormal_normalize _).edit (by decide)).edit (by decide)).edit (by decide)).edit (by decide)
  · rw [field?_edit, if_neg (by decide), field?_edit, if_neg (by decide), field?_edit, if_neg (by decide), field?_edit, if_pos rfl,
      field?_normalize (by decide) (by decide), field?_allowed (by decide)]
    refine congrArg (Option.map · _) (funext fun v => ?_)
    cases v with
    | object props => rfl
    | array l => rfl
    | leaf a => rfl
  · rw [field?_edit, if_neg (by decide), field?_edit, if_pos rfl, field?_edit, if_pos rfl, field?_edit, if_neg (by decide),
      field?_normalize (by decide) (by decide), field?_allowed (by decide), Option.map_map]
    refine congrArg (Option.map · _) (funext fun v => ?_)
    cases v with
    | object items =>
      -- what comes of a map is no list
      obtain ⟨cleaned, hcleaned⟩ := exists_clean_object left items
      dsimp only [Function.comp, Option.getD_some, cleanItems, itemsOf, Option.map_some]
      rw [hcleaned]
      rfl
    | array l =>
      cases l with
      | nil => rfl
      | cons first rest => rfl
    | leaf a => exact (clean_leaf left a).symm
  · rw [field?_edit, if_pos rfl, field?_edit, if_neg (by decide), field?_edit, if_neg (by decide), field?_edit, if_neg (by decide),
      field?_normalize (by decide) (by decide), field?_allowed (by decide)]
    refine congrArg (Option.map · _) (funext fun v => ?_)
    cases v with
    | object fields => rfl
    | array nested => rfl
    | leaf a => rfl

theorem clean_object_zero (fields : Fields) : ∃ cleaned, cleanFunctionParametersWithDepth 0 (.object fields) = .object cleaned ∧
    Allowed cleaned ∧ TypeNormal cleaned ∧ Doc.field? cleaned "properties" = none ∧ Doc.field? cleaned "items" = none ∧
    Doc.field? cleaned "anyOf" = none := by
  refine ⟨_, rfl, ?_, ?_, ?_, ?_, ?_⟩
  · exact (allowed_normalize allowed_allowed).delete.delete.delete
  · exact (((typeNormal_normalize _).delete (by decide)).delete (by decide)).delete (by decide)
  · rw [field?_delete, if_neg (by decide), field?_delete, if_neg (by decide), field?_delete, if_pos rfl]
  · rw [field?_delete, if_neg (by decide), field?_delete, if_pos rfl]
  · rw [field?_delete, if_pos rfl]

/-- A clean map stays where the properties, the items and the alternatives do. -/
theorem clean_object_eq_self_iff (hallowed : Allowed fields) (htype : TypeNormal fields) :
    cleanFunctionParametersWithDepth (left + 1) (.object fields) = .object fields ↔
      (∀ v, Doc.field? fields "properties" = some v → propertiesOf left v = v) ∧
        (∀ v, Doc.field? fields "items" = some v → cleanItems left v = v) ∧
        ∀ v, Doc.field? fields "anyOf" = some v → anyOfOf left v = v := by
  constructor
  · intro h
    obtain ⟨cleaned, hcleaned, -, -, hprops, hitems, hany⟩ := clean_object left fields
    obtain rfl := Doc.object.inj (hcleaned.symm.trans h)
    refine ⟨fun v hv => ?_, fun v hv => ?_, fun v hv => ?_⟩
    · rw [hv, Option.map_some] at hprops
      exact (Option.some.inj hprops).symm
    · rw [hv, Option.map_some] at hitems
      exact (Option.some.inj hitems).symm
    · rw [hv, Option.map_some] at hany
      exact (Option.some.inj hany).symm
  · rintro ⟨hprops, hitems, hany⟩
    rw [cleanFunctionParametersWithDepth, hallowed.eq_self, normalize_eq_self htype]
    have hself (k : String) (f : Value → Option Value) (hf : ∀ v, Doc.field? fields k = some v → (f v).getD v = v) :
        edit k f fields = fields := edit_eq_self hf
    rw [hself "properties" _ fun v hv => ?_, hself "items" _ fun v hv => ?_, hself "items" _ fun v hv => ?_,
      hself "anyOf" _ fun v hv => ?_]
    · cases v with
      | array nested => exact hany _ hv
      | object => rfl
      | leaf => rfl
    · cases v with
      | array l =>
        cases l with
        | nil => rfl
        | cons first rest => exact hitems _ hv
      | object => rfl
      | leaf => rfl
    · cases v with
      | object items => exact hitems _ hv
      | array => rfl
      | leaf => rfl
    · cases v with
      | object props => exact hprops _ hv
      | array => rfl
      | leaf => rfl

/-! ## Clean schemas -/

/-- A schema is clean all through where it is itself and those below are. -/
theorem allClean_object : AllClean (.object fields) ↔ Clean fields ∧
    (∀ props, Doc.field? fields "properties" = some (.object props) → ∀ name c, Doc.field? props name = some c → AllClean c) ∧
      (∀ c, Doc.field? fields "items" = some c → AllClean c) ∧
      ∀ nested, Doc.field? fields "anyOf" = some (.array nested) → ∀ c ∈ nested, AllClean c := by
  constructor
  · intro h
    refine ⟨h [] fields rfl, fun props hprops name c hc p below hp => ?_, fun c hc p below hp => ?_, fun nested hnested c hc p below hp => ?_⟩
    · refine h (.property name :: p) below ?_
      rw [schemaAt?, hprops]
      dsimp only
      rw [hc]
      exact hp
    · refine h (.items :: p) below ?_
      rw [schemaAt?, hc]
      exact hp
    · obtain ⟨i, hi⟩ := List.mem_iff_getElem?.1 hc
      refine h (.anyOf i :: p) below ?_
      rw [schemaAt?, hnested]
      dsimp only
      rw [hi]
      exact hp
  · rintro ⟨hclean, hprops, hitems, hany⟩ p below hp
    cases p with
    | nil =>
      obtain rfl := Doc.object.inj (Option.some.inj hp)
      exact hclean
    | cons step p =>
      cases step with
      | property name =>
        rw [schemaAt?] at hp
        split at hp
        next props hfound =>
          obtain ⟨c, hc, hp⟩ := Option.bind_eq_some_iff.1 hp
          exact hprops props hfound name c hc p below hp
        next => cases hp
      | items =>
        rw [schemaAt?] at hp
        obtain ⟨c, hc, hp⟩ := Option.bind_eq_some_iff.1 hp
        exact hitems c hc p below hp
      | anyOf i =>
        rw [schemaAt?] at hp
        split at hp
        next nested hfound =>
          obtain ⟨c, hc, hp⟩ := Option.bind_eq_some_iff.1 hp
          exact hany nested hfound c (List.mem_of_getElem? hc) p below hp
        next => cases hp

theorem schemaAt?_of_not_object (h : ∀ fields, v ≠ .object fields) (p : List Step) : schemaAt? v p ≠ some (.object fields) := by
  intro hp
  cases p with
  | nil => exact h fields (Option.some.inj hp)
  | cons step p =>
    cases v with
    | object fields => exact h fields rfl
    | array l => cases step <;> cases hp
    | leaf a => cases step <;> cases hp

theorem allClean_of_not_object (h : ∀ fields, v ≠ .object fields) : AllClean v :=
  fun p _ hp => absurd hp (schemaAt?_of_not_object h p)

theorem cleanItems_ne_array : (∀ l, cleanItems left v ≠ .array l) ↔ ∃ c, itemsOf v = some c ∧ ∀ l, c ≠ .array l := by
  unfold cleanItems
  cases hv : itemsOf v with
  | none =>
    have hnil : v = .array [] := by
      cases v with
      | array l =>
        cases l with
        | nil => rfl
        | cons first rest => cases hv
      | object fields => cases hv
      | leaf a => cases hv
    exact iff_of_false (fun h => h [] hnil) (by rintro ⟨c, hc, -⟩; cases hc)
  | some c =>
    have hiff := not_congr (show (∃ l, cleanFunctionParametersWithDepth left c = .array l) ↔ ∃ l, c = .array l from clean_isArray)
    rw [not_exists, not_exists] at hiff
    rw [Option.map_some, Option.getD_some, hiff]
    exact ⟨fun h => ⟨c, rfl, h⟩, fun ⟨c', hc', h⟩ => Option.some.inj hc' ▸ h⟩

/-- What comes of a value is clean all through where no schema has a list of items that is empty or starts with a list. -/
theorem allClean_iff : AllClean (cleanFunctionParametersWithDepth left v) ↔ NoLists left v := by
  induction left generalizing v with
  | zero =>
    refine iff_of_true ?_ (by cases v <;> trivial)
    cases v with
    | leaf a => exact allClean_of_not_object fun fields h => by cases h
    | array l => exact allClean_of_not_object fun fields h => by cases h
    | object fields =>
      obtain ⟨cleaned, hcleaned, hallowed, htype, hprops, hitems, hany⟩ := clean_object_zero fields
      rw [hcleaned, allClean_object, hprops, hitems, hany]
      exact ⟨⟨hallowed, by rw [hitems]; exact nofun, htype.1, fun t ht => by rw [htype.2 t ht]⟩, nofun, nofun, nofun⟩
  | succ left ih =>
    cases v with
    | leaf a => exact iff_of_true (allClean_of_not_object fun fields h => by cases h) trivial
    | array l => exact iff_of_true (allClean_of_not_object fun fields h => by cases h) trivial
    | object fields =>
      obtain ⟨cleaned, hcleaned, hallowed, htype, hprops, hitems, hany⟩ := clean_object left fields
      rw [hcleaned, allClean_object, NoLists]
      constructor
      · rintro ⟨hclean, hbelow, hitem, hnested⟩
        refine ⟨fun props hp name c hc => ih.1 ?_, fun items hi => ?_, fun nested hn c hc => ih.1 ?_⟩
        · rw [hp, Option.map_some] at hprops
          exact hbelow _ hprops name _ (by rw [Doc.field?_map, hc]; rfl)
        · rw [hi, Option.map_some] at hitems
          obtain ⟨c, hc, hne⟩ := cleanItems_ne_array.1 fun l hl => hclean.items l (hitems.trans (congrArg some hl))
          have hc' := hitem _ hitems
          unfold cleanItems at hc'
          rw [hc] at hc'
          exact ⟨c, hc, hne, ih.1 hc'⟩
        · rw [hn, Option.map_some] at hany
          exact hnested _ hany _ (List.mem_map_of_mem hc)
      · rintro ⟨hbelow, hitem, hnested⟩
        refine ⟨⟨hallowed, fun l hl => ?_, htype.1, fun t ht => by rw [htype.2 t ht]⟩, fun props hp name c hc => ?_, fun c hc => ?_,
          fun nested hn c hc => ?_⟩
        · rw [hitems] at hl
          obtain ⟨items, hi, heq⟩ := Option.map_eq_some_iff.1 hl
          obtain ⟨c, hc, hne, -⟩ := hitem items hi
          exact cleanItems_ne_array.2 ⟨c, hc, hne⟩ l heq
        · rw [hprops] at hp
          obtain ⟨v, hv, heq⟩ := Option.map_eq_some_iff.1 hp
          cases v with
          | object props' =>
            obtain rfl := Doc.object.inj heq
            rw [Doc.field?_map] at hc
            obtain ⟨c', hc', rfl⟩ := Option.map_eq_some_iff.1 hc
            exact ih.2 (hbelow props' hv name c' hc')
          | array l => cases heq
          | leaf a => cases heq
        · rw [hitems] at hc
          obtain ⟨items, hi, rfl⟩ := Option.map_eq_some_iff.1 hc
          obtain ⟨c, hc, -, hno⟩ := hitem items hi
          unfold cleanItems
          rw [hc]
          exact ih.2 hno
        · rw [hany] at hn
          obtain ⟨v, hv, heq⟩ := Option.map_eq_some_iff.1 hn
          cases v with
          | array nested' =>
            obtain rfl := Doc.array.inj heq
            obtain ⟨c', hc', rfl⟩ := List.mem_map.1 hc
            exact ih.2 (hnested nested' hv c' hc')
          | object fields => cases heq
          | leaf a => cases heq

/-! ## Cleaning again -/

theorem clean_ne_cons {rest : List Value} : cleanFunctionParametersWithDepth left v ≠ .array (v :: rest) := by
  induction left generalizing v rest with
  | zero =>
    cases v with
    | leaf a => exact fun h => by cases h
    | array l => exact fun h => by cases h
    | object fields => exact fun h => by cases h
  | succ left ih =>
    cases v with
    | leaf a => exact fun h => by cases h
    | object fields => exact fun h => by cases h
    | array l =>
      intro h
      have hl := Doc.array.inj (show Doc.array (l.map _) = _ from h)
      cases l with
      | nil => cases hl
      | cons first l => exact ih (List.cons.inj hl).1

/-- The items of a schema stay the second time where a list of items does not start with a list that is kept. -/
theorem cleanItems_cleanItems_iff (hleft : ∀ v, cleanFunctionParametersWithDepth left (cleanFunctionParametersWithDepth left v) =
      cleanFunctionParametersWithDepth left v ↔ Stable left v) :
    cleanItems left (cleanItems left v) = cleanItems left v ↔
      ∀ c, itemsOf v = some c → (∀ first rest, c = .array (first :: rest) → left = 0) ∧ Stable left c := by
  cases hv : itemsOf v with
  | none =>
    have hsame : cleanItems left v = v := by
      unfold cleanItems
      rw [hv]
      rfl
    exact iff_of_true (by rw [hsame, hsame]) fun c hc => by cases hc
  | some c =>
    have hclean : cleanItems left v = cleanFunctionParametersWithDepth left c := by
      unfold cleanItems
      rw [hv]
      rfl
    have hgoal : (∀ c', some c = some c' → (∀ first rest, c' = .array (first :: rest) → left = 0) ∧ Stable left c') ↔
        (∀ first rest, c = .array (first :: rest) → left = 0) ∧ Stable left c :=
      ⟨fun h => h c rfl, fun h c' hc' => Option.some.inj hc' ▸ h⟩
    have hother (hne : ∀ l, c ≠ .array l) : cleanItems left (cleanFunctionParametersWithDepth left c) =
        cleanFunctionParametersWithDepth left (cleanFunctionParametersWithDepth left c) := by
      have hne' : ∀ l, cleanFunctionParametersWithDepth left c ≠ .array l := fun l hl => by
        obtain ⟨l', hl'⟩ := clean_isArray.1 ⟨l, hl⟩
        exact hne l' hl'
      unfold cleanItems
      cases hw : cleanFunctionParametersWithDepth left c with
      | array l => exact absurd hw (hne' l)
      | object fields => rfl
      | leaf a => rfl
    rw [hgoal, hclean]
    cases c with
    | object fields =>
      have hne : ∀ l, Doc.object fields ≠ Doc.array l := fun l h => by cases h
      rw [hother hne, hleft]
      exact ⟨fun h => ⟨fun first rest heq => absurd heq (hne _), h⟩, fun h => h.2⟩
    | leaf a =>
      have hne : ∀ l, Doc.leaf a ≠ Doc.array l := fun l h => by cases h
      rw [hother hne, hleft]
      exact ⟨fun h => ⟨fun first rest heq => absurd heq (hne _), h⟩, fun h => h.2⟩
    | array l =>
      cases left with
      | zero => exact iff_of_true rfl ⟨fun _ _ _ => rfl, trivial⟩
      | succ left =>
        cases l with
        | nil => exact iff_of_true rfl ⟨fun first rest h => (by cases h), fun c hc => absurd hc List.not_mem_nil⟩
        | cons first rest =>
          -- the list is taken apart once more
          refine iff_of_false (fun h => clean_ne_cons (show cleanFunctionParametersWithDepth (left + 1)
            (cleanFunctionParametersWithDepth left first) = .array (_ :: _) from h)) ?_
          rintro ⟨hzero, -⟩
          exact absurd (hzero first rest rfl) (Nat.succ_ne_zero left)

theorem delete_eq_self (h : Doc.field? schema k = none) : delete k schema = schema :=
  List.filter_eq_self.2 fun f hf => decide_eq_true (Doc.field?_eq_none.1 h f hf)

theorem forall_map_iff {α β : Type} {o : Option α} {g : α → β} {P : β → Prop} :
    (∀ b, o.map g = some b → P b) ↔ ∀ a, o = some a → P (g a) := by
  cases o with
  | none => exact iff_of_true (fun b h => by cases h) fun a h => by cases h
  | some a => exact ⟨fun h a' ha' => h _ (Option.some.inj ha' ▸ rfl), fun h b hb => Option.some.inj hb ▸ h a rfl⟩

/-- Cleaning again changes nothing where no map has a list of items that starts with a list that is kept. -/
theorem clean_clean_iff : cleanFunctionParametersWithDepth left (cleanFunctionParametersWithDepth left v) =
    cleanFunctionParametersWithDepth left v ↔ Stable left v := by
  induction left generalizing v with
  | zero =>
    refine iff_of_true ?_ (by cases v <;> trivial)
    cases v with
    | leaf a => rfl
    | array l => rfl
    | object fields =>
      obtain ⟨cleaned, hcleaned, hallowed, htype, hprops, hitems, hany⟩ := clean_object_zero fields
      rw [hcleaned, cleanFunctionParametersWithDepth, cleanFunctionParametersShallow, hallowed.eq_self, normalize_eq_self htype,
        delete_eq_self hprops, delete_eq_self hitems, delete_eq_self hany]
  | succ left ih =>
    cases v with
    | leaf a => exact iff_of_true rfl trivial
    | array l =>
      rw [cleanFunctionParametersWithDepth, cleanFunctionParametersWithDepth, Doc.array.injEq, List.map_map, List.map_inj_left, Stable]
      exact forall₂_congr fun c _ => ih
    | object fields =>
      obtain ⟨cleaned, hcleaned, hallowed, htype, hprops, hitems, hany⟩ := clean_object left fields
      rw [hcleaned, clean_object_eq_self_iff hallowed htype, hprops, hitems, hany, Stable, forall_map_iff, forall_map_iff, forall_map_iff]
      refine and_congr ?_ (and_congr (forall₂_congr fun c _ => cleanItems_cleanItems_iff fun v => ih) ?_)
      · constructor
        · intro h props hp f hf
          have hsame := h _ hp
          rw [propertiesOf, propertiesOf, Doc.object.injEq, List.map_map, List.map_inj_left] at hsame
          exact ih.1 (Prod.ext_iff.1 (hsame f hf)).2
        · intro h c hc
          cases c with
          | array l => rfl
          | leaf a => rfl
          | object props =>
            rw [propertiesOf, propertiesOf, Doc.object.injEq, List.map_map, List.map_inj_left]
            exact fun f hf => Prod.ext_iff.2 ⟨rfl, ih.2 (h props hc f hf)⟩
      · constructor
        · intro h nested hn c hc
          have hsame := h _ hn
          rw [anyOfOf, anyOfOf, Doc.array.injEq, List.map_map, List.map_inj_left] at hsame
          exact ih.1 (hsame c hc)
        · intro h c hc
          cases c with
          | object fields => rfl
          | leaf a => rfl
          | array nested =>
            rw [anyOfOf, anyOfOf, Doc.array.injEq, List.map_map, List.map_inj_left]
            exact fun c hc' => ih.2 (h nested hc c hc')

/-! ## Names of properties -/

/-- The names of the properties are kept. -/
theorem keepsNames : KeepsNames left v (cleanFunctionParametersWithDepth left v) := by
  intro p below props hlt hp hprops
  induction left generalizing v p with
  | zero => exact absurd hlt (Nat.not_lt_zero _)
  | succ left ih =>
    cases v with
    | leaf a => exact absurd hp (schemaAt?_of_not_object (fun fields h => by cases h) p)
    | array l => exact absurd hp (schemaAt?_of_not_object (fun fields h => by cases h) p)
    | object fields =>
      obtain ⟨cleaned, hcleaned, -, -, hcprops, hcitems, hcany⟩ := clean_object left fields
      rw [hcleaned]
      cases p with
      | nil =>
        obtain rfl := Doc.object.inj (Option.some.inj hp)
        rw [hprops, Option.map_some] at hcprops
        refine ⟨cleaned, _, rfl, hcprops, ?_⟩
        rw [List.map_map]
        rfl
      | cons step p =>
        have hlt' : p.length < left := Nat.lt_of_succ_lt_succ hlt
        cases step with
        | property name =>
          rw [schemaAt?] at hp
          split at hp
          next props' hfound =>
            obtain ⟨c, hc, hp⟩ := Option.bind_eq_some_iff.1 hp
            obtain ⟨fields', props'', hat, hrest⟩ := ih p hlt' hp
            rw [hfound, Option.map_some] at hcprops
            refine ⟨fields', props'', ?_, hrest⟩
            rw [schemaAt?, hcprops]
            dsimp only [propertiesOf]
            rw [Doc.field?_map, hc]
            exact hat
          next => cases hp
        | items =>
          rw [schemaAt?] at hp
          obtain ⟨c, hc, hp⟩ := Option.bind_eq_some_iff.1 hp
          obtain ⟨fields', props'', hat, hrest⟩ := ih p hlt' hp
          have hitems : cleanItems left c = cleanFunctionParametersWithDepth left c := by
            cases c with
            | object fields => rfl
            | leaf a => rfl
            | array l => exact absurd hp (schemaAt?_of_not_object (fun fields h => by cases h) p)
          refine ⟨fields', props'', ?_, hrest⟩
          rw [schemaAt?, hcitems, hc, Option.map_some, hitems]
          exact hat
        | anyOf i =>
          rw [schemaAt?] at hp
          split at hp
          next nested hfound =>
            obtain ⟨c, hc, hp⟩ := Option.bind_eq_some_iff.1 hp
            obtain ⟨fields', props'', hat, hrest⟩ := ih p hlt' hp
            rw [hfound, Option.map_some] at hcany
            refine ⟨fields', props'', ?_, hrest⟩
            rw [schemaAt?, hcany]
            dsimp only [anyOfOf]
            rw [List.getElem?_map, hc]
            exact hat
          next => cases hp

/-- A value comes out clean, with the names of its properties, and stays so, just where no schema above the limit has a list of items that is
empty or starts with a list, and no other map has one that starts with a list that is kept. -/
theorem clean_iff (params : Value) :
    AllClean (cleanFunctionParameters params) ∧ KeepsNames geminiFunctionSchemaMaxDepth params (cleanFunctionParameters params) ∧
        cleanFunctionParameters (cleanFunctionParameters params) = cleanFunctionParameters params ↔
      NoLists geminiFunctionSchemaMaxDepth params ∧ Stable geminiFunctionSchemaMaxDepth params := by
  unfold cleanFunctionParameters
  rw [allClean_iff, clean_clean_iff, and_iff_right keepsNames]

/-- Items that are an empty list stay a list, and of items in two lists, one is taken away each time. -/
theorem clean_lists :
    (cleanFunctionParameters (.object [("items", .array [])]) = .object [("items", .array [])] ∧
      ¬ AllClean (.object [("items", .array [])])) ∧
      cleanFunctionParameters (.object [("items", .array [.array [.object []]])]) = .object [("items", .array [.object []])] ∧
        cleanFunctionParameters (.object [("items", .array [.object []])]) = .object [("items", .object [])] := by
  refine ⟨⟨rfl, fun h => (h [] _ rfl).items [] rfl⟩, rfl, rfl⟩

end

end NewApi.GeminiSchema

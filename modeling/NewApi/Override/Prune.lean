import NewApi.Lib.Pieces
import NewApi.Lib.Removal
import NewApi.Override.Wildcards

/-!
# Pruning objects by conditions

`pruneObjects` removes the objects that satisfy conditions from the value at a path, by recursion from the root, which
itself stays. An object is judged before its children are pruned. So the result is the value with the objects
removed that satisfied the conditions, the rest in its order (`pruneObjects_pruned`), and none is left where the
children make no difference: where no object has a container at the key of a condition that compares texts.
-/

namespace NewApi

namespace Override

structure ConditionOperation where
  path : String
  mode : String
  value : Json
  invert : Bool
  passMissingKey : Bool

structure PruneObjectsOptions where
  conditions : List ConditionOperation
  logic : String
  recursive : Bool

/-- What pruning uses besides: values of Go as texts. -/
structure PruneLib (Body : Type) extends JsonLib Body where
  marshal : Json → Except String Body
  /-- What `gjson.Get` finds: the value and its text. -/
  result : Body → String → Option (Json × Body)
  setRaw : Body → String → Body → Except String Body
  /-- `gjson.Result.String`, of a value in a text that has been marshalled. -/
  resultString : Json → String

/-! ## Conditions -/

section
variable (resultString : Json → String)

def compareEqual (jsonValue targetValue : Json) : Except String Bool :=
  let jsonType := typeName (some jsonValue)
  let targetType := typeName (some targetValue)
  if jsonType = "Null" ∨ targetType = "Null" then .ok (decide (jsonType = "Null" ∧ targetType = "Null"))
  else
    match jsonValue, targetValue with
    | .leaf (.bool a), .leaf (.bool b) => .ok (decide (a = b))
    | .leaf (.number a), .leaf (.number b) => .ok (decide (a = b))
    | _, _ =>
      if jsonType ≠ targetType then
        .error ("compare for different types, got " ++ jsonType ++ " and " ++ targetType)
      else .ok (decide (resultString jsonValue = resultString targetValue))

def compareNumeric (jsonValue targetValue : Json) (operator : String) : Except String Bool :=
  match jsonValue, targetValue with
  | .leaf (.number jsonNum), .leaf (.number targetNum) =>
    match operator with
    | "gt" => .ok (decide (targetNum < jsonNum))
    | "gte" => .ok (decide (targetNum ≤ jsonNum))
    | "lt" => .ok (decide (jsonNum < targetNum))
    | "lte" => .ok (decide (jsonNum ≤ targetNum))
    | _ => .error ("unsupported numeric operator: " ++ operator)
  | _, _ =>
    .error ("numeric comparison requires both values to be numbers, got " ++ typeName (some jsonValue) ++ " and " ++
      typeName (some targetValue))

def compareGjsonValues (jsonValue targetValue : Json) (mode : String) : Except String Bool :=
  match mode with
  | "full" => compareEqual resultString jsonValue targetValue
  | "prefix" => .ok (GoString.hasPrefix (resultString jsonValue) (resultString targetValue))
  | "suffix" => .ok (GoString.hasSuffix (resultString jsonValue) (resultString targetValue))
  | "contains" => .ok (GoString.contains (resultString jsonValue) (resultString targetValue))
  | "gt" => compareNumeric jsonValue targetValue "gt"
  | "gte" => compareNumeric jsonValue targetValue "gte"
  | "lt" => compareNumeric jsonValue targetValue "lt"
  | "lte" => compareNumeric jsonValue targetValue "lte"
  | _ => .error ("unsupported comparison mode: " ++ mode)

end

section
variable {Body : Type} (lib : PruneLib Body)

/-- `context` is what `gjson.Get` finds in the text of the context. -/
def checkSingleCondition (jsonStr : Body) (context : String → Option Json) (condition : ConditionOperation) :
    Except String Bool :=
  let path := processNegativeIndex lib.toJsonLib jsonStr condition.path
  match (lib.get jsonStr path).or (context condition.path) with
  | none => .ok condition.passMissingKey
  | some value =>
    match compareGjsonValues lib.resultString value condition.value (GoString.toLower condition.mode) with
    | .error e => .error ("comparison failed for path " ++ condition.path ++ ": " ++ e)
    | .ok result => .ok (if condition.invert then !result else result)

def checkConditions (jsonStr : Body) (context : String → Option Json) (conditions : List ConditionOperation)
    (logic : String) : Except String Bool :=
  if conditions = [] then .ok true
  else do
    let results ← conditions.mapM (checkSingleCondition lib jsonStr context)
    if logic.toList.map Char.toUpper = ['A', 'N', 'D'] then return results.all id else return results.any id

/-! ## Options -/

/-- A field of a map that is a string; another one is as if it were empty. -/
def stringField (fields : List (String × Json)) (k : String) : String :=
  match Doc.field? fields k with
  | some (.leaf (.string s)) => s
  | _ => ""

def boolField (fields : List (String × Json)) (k : String) (otherwise : Bool) : Bool :=
  match Doc.field? fields k with
  | some (.leaf (.bool b)) => b
  | _ => otherwise

/-- The conditions that the fields of a map are equal to its values. -/
def fullConditions (fields : List (String × Json)) : List ConditionOperation :=
  fields.filterMap fun item =>
    let path := GoString.trimSpace item.1
    if path = "" then none
    else some { path := path, mode := "full", value := item.2, invert := false, passMissingKey := false }

def parseConditionOperations : Json → Except String (List ConditionOperation)
  | .object typed =>
    if fullConditions typed = [] then .error "conditions object must contain at least one key"
    else .ok (fullConditions typed)
  | .array items => items.mapM fun
    | .object itemMap =>
      let path := stringField itemMap "path"
      let mode := stringField itemMap "mode"
      if GoString.trimSpace path = "" ∨ GoString.trimSpace mode = "" then .error "condition path/mode is required"
      else .ok {
        path := path
        mode := mode
        value := (Doc.field? itemMap "value").getD (.leaf .null)
        invert := boolField itemMap "invert" false
        passMissingKey := boolField itemMap "pass_missing_key" false }
    | _ => .error "condition must be object"
  | .leaf _ => .error "conditions must be an array or object"

def parsePruneObjectsOptions : Json → Except String PruneObjectsOptions
  | .leaf .null => .error "prune_objects value is required"
  | .leaf (.string raw) =>
    let v := GoString.trimSpace raw
    if v = "" then .error "prune_objects value is required"
    else .ok {
      conditions := [{ path := "type", mode := "full", value := .leaf (.string v), invert := false, passMissingKey := false }]
      logic := "AND"
      recursive := true }
  | .object raw => do
    let logic := if GoString.trimSpace (stringField raw "logic") = "" then "AND" else stringField raw "logic"
    let conditions ←
      match Doc.field? raw "conditions" with
      | some condRaw => parseConditionOperations condRaw
      | none => .ok []
    let wheres ←
      match Doc.field? raw "where" with
      | some (.object whereMap) => .ok (fullConditions whereMap)
      | some _ => .error "prune_objects where must be object"
      | none => .ok []
    let types :=
      match Doc.field? raw "type" with
      | some matchType =>
        [{ path := "type", mode := "full", value := matchType, invert := false, passMissingKey := false }]
      | none => []
    if conditions ++ wheres ++ types = [] then .error "prune_objects conditions are required"
    else .ok { conditions := conditions ++ wheres ++ types, logic := logic, recursive := boolField raw "recursive" true }
  | _ => .error "prune_objects value must be string or object"

/-! ## Pruning -/

def shouldPruneObject (options : PruneObjectsOptions) (context : String → Option Json) (node : Json) :
    Except String Bool := do
  let nodeBytes ← lib.marshal node
  checkConditions lib nodeBytes context options.conditions options.logic

end

mutual

/-- The node without the objects that are to be pruned, or none if it is one. -/
def pruneObjectsNode (shouldPrune : Json → Except String Bool) (recursive isRoot : Bool) :
    Json → Except String (Option Json)
  | .leaf a => .ok (some (.leaf a))
  | .array value => do
    let result ← pruneItems shouldPrune recursive value
    return some (.array result)
  | .object value => do
    let shouldDrop ← shouldPrune (.object value)
    if shouldDrop ∧ ¬ isRoot then return none
    if ¬ recursive then return some (.object value)
    let result ← pruneFields shouldPrune recursive value
    return some (.object result)

def pruneItems (shouldPrune : Json → Except String Bool) (recursive : Bool) : List Json → Except String (List Json)
  | [] => .ok []
  | item :: value => do
    let next ← pruneObjectsNode shouldPrune recursive false item
    let result ← pruneItems shouldPrune recursive value
    return next.toList ++ result

def pruneFields (shouldPrune : Json → Except String Bool) (recursive : Bool) :
    List (String × Json) → Except String (List (String × Json))
  | [] => .ok []
  | (key, child) :: value => do
    let next ← pruneObjectsNode shouldPrune recursive false child
    let result ← pruneFields shouldPrune recursive value
    return (next.toList.map (Prod.mk key)) ++ result

end

section
variable {Body : Type} (lib : PruneLib Body)

/-- The text of a value after pruning; the root is never dropped. -/
def cleanedBytes (options : PruneObjectsOptions) (context : String → Option Json) (node : Json) : Except String Body := do
  let cleaned ← pruneObjectsNode (shouldPruneObject lib options context) options.recursive true node
  lib.marshal (cleaned.getD (.leaf .null))

/-- What has been found, as a value of Go: a container is read from its text. -/
def targetNode (target : Json) (raw : Body) : Except String Json :=
  if target.isLeaf then .ok target else lib.unmarshal raw

def pruneObjects (jsonStr : Body) (path : String) (context : String → Option Json) (value : Json) : Except String Body := do
  let options ← parsePruneObjectsOptions value
  if path = "" then
    let root ← lib.unmarshal jsonStr
    cleanedBytes lib options context root
  else
    match lib.result jsonStr path with
    | none => return jsonStr
    | some (target, raw) =>
      let node ← targetNode lib target raw
      let cleaned ← cleanedBytes lib options context node
      lib.setRaw jsonStr path cleaned

end

/-! ## What the recursion leaves -/

/-- The objects that the code finds to be pruned. -/
def prunes (shouldPrune : Json → Except String Bool) (e : Json) : Bool :=
  match shouldPrune e with
  | .ok b => b
  | .error _ => false

section
variable {shouldPrune : Json → Except String Bool} {v e : Json} {isRoot : Bool}

theorem prunes_of_ok {b : Bool} (h : shouldPrune e = .ok b) : prunes shouldPrune e = b := by
  simp only [prunes, h]

/-- What a run of the recursion says: what is left, and that each object that stays has been judged. -/
structure RunOn (shouldPrune : Json → Except String Bool) (isRoot : Bool) (v : Json) (r : Option Json) : Prop where
  left : r = if isRoot = false ∧ v.isObject ∧ prunes shouldPrune v then none
    else some (v.removeObjects (prunes shouldPrune))
  judged : r ≠ none → ∀ e, Doc.Kept (prunes shouldPrune) e v → e.isObject → ∃ b, shouldPrune e = .ok b

theorem RunOn.child {c : Json} {next : Option Json} (h : RunOn shouldPrune false c next) :
    ((c.isObject ∧ prunes shouldPrune c) ∧ next = none) ∨
      (¬ (c.isObject ∧ prunes shouldPrune c) ∧ next = some (c.removeObjects (prunes shouldPrune)) ∧
        ∀ e, Doc.Kept (prunes shouldPrune) e c → e.isObject → ∃ b, shouldPrune e = .ok b) := by
  by_cases hdrop : c.isObject ∧ prunes shouldPrune c
  · exact .inl ⟨hdrop, h.left.trans (if_pos ⟨rfl, hdrop⟩)⟩
  · have hsome : next = some (c.removeObjects (prunes shouldPrune)) := h.left.trans (if_neg fun h => hdrop h.2)
    refine .inr ⟨hdrop, hsome, h.judged ?_⟩
    rw [hsome]
    exact Option.some_ne_none _

theorem pruneItems_ok {items r : List Json}
    (ih : ∀ c ∈ items, ∀ r, pruneObjectsNode shouldPrune true false c = .ok r → RunOn shouldPrune false c r)
    (h : pruneItems shouldPrune true items = .ok r) :
    r = Doc.removeItems (prunes shouldPrune) items ∧
      ∀ c ∈ items, ¬ (c.isObject ∧ prunes shouldPrune c) →
        ∀ e, Doc.Kept (prunes shouldPrune) e c → e.isObject → ∃ b, shouldPrune e = .ok b := by
  induction items generalizing r with
  | nil =>
    cases h
    exact ⟨rfl, fun c hc => absurd hc List.not_mem_nil⟩
  | cons c items ihl =>
    rw [List.forall_mem_cons] at ih
    unfold pruneItems at h
    cases hnext : pruneObjectsNode shouldPrune true false c with
    | error err =>
      rw [hnext] at h
      cases h
    | ok next =>
      cases hrest : pruneItems shouldPrune true items with
      | error err =>
        rw [hnext, hrest] at h
        cases h
      | ok rest =>
        rw [hnext, hrest] at h
        cases h
        obtain ⟨hr, hjudged⟩ := ihl ih.2 hrest
        have hrun := ih.1 next hnext
        unfold Doc.removeItems
        rcases hrun.child with ⟨hdrop, rfl⟩ | ⟨hkeep, rfl, hjudge⟩
        · rw [if_pos hdrop]
          exact ⟨hr, List.forall_mem_cons.2 ⟨fun hkeep => absurd hdrop hkeep, hjudged⟩⟩
        · rw [if_neg hkeep, ← hr]
          exact ⟨rfl, List.forall_mem_cons.2 ⟨fun _ => hjudge, hjudged⟩⟩

theorem pruneFields_ok {fields r : List (String × Json)}
    (ih : ∀ f ∈ fields, ∀ r, pruneObjectsNode shouldPrune true false f.2 = .ok r → RunOn shouldPrune false f.2 r)
    (h : pruneFields shouldPrune true fields = .ok r) :
    r = Doc.removeFields (prunes shouldPrune) fields ∧
      ∀ f ∈ fields, ¬ (f.2.isObject ∧ prunes shouldPrune f.2) →
        ∀ e, Doc.Kept (prunes shouldPrune) e f.2 → e.isObject → ∃ b, shouldPrune e = .ok b := by
  induction fields generalizing r with
  | nil =>
    cases h
    exact ⟨rfl, fun f hf => absurd hf List.not_mem_nil⟩
  | cons f fields ihl =>
    obtain ⟨k, c⟩ := f
    rw [List.forall_mem_cons] at ih
    unfold pruneFields at h
    cases hnext : pruneObjectsNode shouldPrune true false c with
    | error err =>
      rw [hnext] at h
      cases h
    | ok next =>
      cases hrest : pruneFields shouldPrune true fields with
      | error err =>
        rw [hnext, hrest] at h
        cases h
      | ok rest =>
        rw [hnext, hrest] at h
        cases h
        obtain ⟨hr, hjudged⟩ := ihl ih.2 hrest
        have hrun := ih.1 next hnext
        unfold Doc.removeFields
        rcases hrun.child with ⟨hdrop, rfl⟩ | ⟨hkeep, rfl, hjudge⟩
        · rw [if_pos hdrop]
          exact ⟨hr, List.forall_mem_cons.2 ⟨fun hkeep => absurd hdrop hkeep, hjudged⟩⟩
        · rw [if_neg hkeep, ← hr]
          exact ⟨rfl, List.forall_mem_cons.2 ⟨fun _ => hjudge, hjudged⟩⟩

/-- A run that succeeds removes the objects that are to be pruned below the root. -/
theorem pruneObjectsNode_ok {r : Option Json} (h : pruneObjectsNode shouldPrune true isRoot v = .ok r) :
    RunOn shouldPrune isRoot v r := by
  induction v using Doc.induct generalizing isRoot r with
  | leaf a =>
    cases h
    refine ⟨(if_neg fun h => Bool.false_ne_true h.2.1).symm, fun _ e he hobj => ?_⟩
    cases he
    cases hobj
  | array items ih =>
    unfold pruneObjectsNode at h
    cases hitems : pruneItems shouldPrune true items with
    | error err =>
      rw [hitems] at h
      cases h
    | ok result =>
      rw [hitems] at h
      cases h
      obtain ⟨rfl, hjudged⟩ := pruneItems_ok (fun c hc r hr => ih c hc hr) hitems
      refine ⟨(if_neg fun h => Bool.false_ne_true h.2.1).symm, fun _ e he hobj => ?_⟩
      cases he with
      | refl => cases hobj
      | item hc hkeep hk => exact hjudged _ hc hkeep e hk hobj
  | object fields ih =>
    unfold pruneObjectsNode at h
    cases hshould : shouldPrune (.object fields) with
    | error err =>
      rw [hshould] at h
      cases h
    | ok shouldDrop =>
      rw [hshould] at h
      change (if shouldDrop ∧ ¬ isRoot then _ else _) = _ at h
      by_cases hdrop : shouldDrop = true ∧ ¬ isRoot = true
      · rw [if_pos hdrop] at h
        cases h
        refine ⟨(if_pos ⟨Bool.eq_false_iff.2 hdrop.2, rfl, ?_⟩).symm, fun h => absurd rfl h⟩
        rw [prunes_of_ok hshould]
        exact hdrop.1
      · rw [if_neg hdrop] at h
        cases hfields : pruneFields shouldPrune true fields with
        | error err =>
          rw [hfields] at h
          cases h
        | ok result =>
          rw [hfields] at h
          cases h
          obtain ⟨rfl, hjudged⟩ := pruneFields_ok (fun f hf r hr => ih f hf hr) hfields
          refine ⟨(if_neg fun h => hdrop ⟨?_, ?_⟩).symm, fun _ e he hobj => ?_⟩
          · rw [← prunes_of_ok hshould]
            exact h.2.2
          · exact Bool.eq_false_iff.1 h.1
          · cases he with
            | refl => exact ⟨shouldDrop, hshould⟩
            | field hf hkeep hk => exact hjudged _ hf hkeep e hk hobj

/-- Where nothing below the root is to be pruned, a run changes nothing. -/
theorem pruneObjectsNode_self (hbelow : ∀ e, Doc.Below e v → e.isObject → shouldPrune e = .ok false)
    (hroot : v.isObject → ∃ b, shouldPrune v = .ok b ∧ (b = true → isRoot = true)) :
    pruneObjectsNode shouldPrune true isRoot v = .ok (some v) := by
  induction v using Doc.induct generalizing isRoot with
  | leaf a => rfl
  | array items ih =>
    have hitems : ∀ l : List Json, (∀ c ∈ l, c ∈ items) → pruneItems shouldPrune true l = .ok l := by
      intro l
      induction l with
      | nil => exact fun _ => rfl
      | cons c l ihl =>
        intro hl
        rw [List.forall_mem_cons] at hl
        have hc : pruneObjectsNode shouldPrune true false c = .ok (some c) :=
          ih c hl.1 (fun e he hobj => hbelow e (.item hl.1 he.within) hobj) fun hobj =>
            ⟨false, hbelow c (.item hl.1 (.refl c)) hobj, fun h => absurd h Bool.false_ne_true⟩
        unfold pruneItems
        rw [hc, ihl hl.2]
        rfl
    unfold pruneObjectsNode
    rw [hitems items fun _ hc => hc]
    rfl
  | object fields ih =>
    have hfields : ∀ l : List (String × Json), (∀ f ∈ l, f ∈ fields) → pruneFields shouldPrune true l = .ok l := by
      intro l
      induction l with
      | nil => exact fun _ => rfl
      | cons f l ihl =>
        intro hl
        obtain ⟨k, c⟩ := f
        rw [List.forall_mem_cons] at hl
        have hc : pruneObjectsNode shouldPrune true false c = .ok (some c) :=
          ih _ hl.1 (fun e he hobj => hbelow e (.field hl.1 he.within) hobj) fun hobj =>
            ⟨false, hbelow c (.field hl.1 (.refl c)) hobj, fun h => absurd h Bool.false_ne_true⟩
        unfold pruneFields
        rw [hc, ihl hl.2]
        rfl
    obtain ⟨b, hb, hkeep⟩ := hroot rfl
    have hstay : ¬ (b = true ∧ ¬ isRoot = true) := fun h => h.2 (hkeep h.1)
    unfold pruneObjectsNode
    rw [hb, hfields fields fun _ hf => hf]
    show (if b = true ∧ ¬ isRoot = true then _ else _) = _
    rw [if_neg hstay]
    rfl

end

/-! ## What a condition looks at -/

/-- What pruning relies on: at plain paths the texts are read and written as the documents they stand for. -/
structure PruneLib.Lawful {Body : Type} (lib : PruneLib Body) (document : Body → Option Json) : Prop
    extends lib.toJsonLib.Lawful document where
  marshal : ∀ {v}, v.Distinct → v.All Scalar.Finite → ∃ r, lib.marshal v = .ok r ∧ document r = some v.canon
  marshal_error : ∀ {v}, ¬ v.All Scalar.Finite → ∃ e, lib.marshal v = .error e
  result_none : ∀ {b d p}, document b = some d → PlainPath p → d.at? p = none → lib.result b (joinPath p) = none
  result : ∀ {b d c p}, document b = some d → PlainPath p → d.at? p = some c →
    ∃ raw, lib.result b (joinPath p) = some (Json.value lib.float c, raw) ∧ document raw = some c
  setRaw : ∀ {b raw d c d' p}, document b = some d → document raw = some c → PlainPath p →
    d.setAt .null p c = some d' → ∃ r, lib.setRaw b (joinPath p) raw = .ok r ∧ document r = some d'
  resultString : ∀ {s}, lib.resultString (.leaf (.string s)) = s
  float : ∀ {q r}, lib.float q = some r → lib.float r = some r

/-- The conditions have a key for a path and compare with strings. -/
def StringConditions (conditions : List ConditionOperation) : Prop :=
  ∀ c ∈ conditions, PlainKey c.path ∧ ∃ s, c.value = .leaf (.string s)

/-- The condition compares texts: those of containers too. -/
def ConditionOperation.ComparesTexts (c : ConditionOperation) : Prop :=
  GoString.toLower c.mode = "prefix" ∨ GoString.toLower c.mode = "suffix" ∨ GoString.toLower c.mode = "contains"

section
variable {Body : Type} {lib : PruneLib Body} {document : Body → Option Json} {options : PruneObjectsOptions}
  {context : String → Option Json} {b : Body} {d e e' v t c : Json} {p : List String}

theorem value_canon {float : ℚ → Option ℚ} : Json.value float c.canon = Json.value float c := by
  unfold Json.value
  rw [Doc.canon_map, Doc.canon_canon, Doc.canon_map]

theorem checkSingleCondition_node (hlib : lib.Lawful document) (hb : document b = some e.canon) (he : e.Distinct)
    {condition : ConditionOperation} (hplain : PlainKey condition.path) :
    checkSingleCondition lib b context condition =
      match ((e.child? condition.path).map (Json.value lib.float)).or (context condition.path) with
      | none => .ok condition.passMissingKey
      | some value =>
        match compareGjsonValues lib.resultString value condition.value (GoString.toLower condition.mode) with
        | .error err => .error ("comparison failed for path " ++ condition.path ++ ": " ++ err)
        | .ok result => .ok (if condition.invert then !result else result) := by
  have hpath : PlainPath [condition.path] := ⟨List.cons_ne_nil _ _, List.forall_mem_singleton.2 hplain⟩
  have hjoin : joinPath [condition.path] = condition.path := GoString.join_singleton '.' _
  have hindex : processNegativeIndex lib.toJsonLib b condition.path = condition.path := by
    rw [← hjoin]
    exact processNegativeIndex_plain hpath
  have hget : lib.get b condition.path = (e.child? condition.path).map (Json.value lib.float) := by
    have hlaw := hlib.get hb hpath
    rw [hjoin] at hlaw
    rw [hlaw, Doc.at?_canon he, Doc.at?_singleton, Option.map_map]
    exact congrArg (fun f => Option.map f _) (funext fun _ => value_canon)
  unfold checkSingleCondition
  dsimp only
  rw [hindex, hget]

theorem shouldPruneObject_congr (hlib : lib.Lawful document) (hconds : StringConditions options.conditions)
    (he : e.Distinct) (he' : e'.Distinct) (hfin : e.All Scalar.Finite) (hfin' : e'.All Scalar.Finite)
    (hsame : ∀ c ∈ options.conditions, e.child? c.path = e'.child? c.path) :
    shouldPruneObject lib options context e = shouldPruneObject lib options context e' := by
  obtain ⟨r, hr, hdoc⟩ := hlib.marshal he hfin
  obtain ⟨r', hr', hdoc'⟩ := hlib.marshal he' hfin'
  unfold shouldPruneObject
  rw [hr, hr']
  show checkConditions lib r context _ _ = checkConditions lib r' context _ _
  have hcheck : ∀ c ∈ options.conditions,
      checkSingleCondition lib r context c = checkSingleCondition lib r' context c := by
    intro c hc
    rw [checkSingleCondition_node hlib hdoc he (hconds c hc).1, checkSingleCondition_node hlib hdoc' he' (hconds c hc).1,
      hsame c hc]
  unfold checkConditions
  rw [Doc.mapM_congr hcheck]

theorem isLeaf_value {float : ℚ → Option ℚ} : (Json.value float c).isLeaf = c.isLeaf := by
  unfold Json.value
  cases c with
  | leaf a => rfl
  | array items => rw [Doc.map_array, Doc.canon_array]; rfl
  | object fields => rw [Doc.map_object, Doc.canon_object]; rfl

theorem isLeaf_of_compared {resultString : Json → String} {s mode : String} {same : Bool}
    (h : compareGjsonValues resultString c (.leaf (.string s)) mode = .ok same)
    (hmode : ¬ (mode = "prefix" ∨ mode = "suffix" ∨ mode = "contains")) : c.isLeaf = true := by
  cases c with
  | leaf a => rfl
  | array | object =>
    unfold compareGjsonValues at h
    split at h
    · cases h
    · exact absurd (.inl rfl) hmode
    · exact absurd (.inr (.inl rfl)) hmode
    · exact absurd (.inr (.inr rfl)) hmode
    all_goals cases h

theorem isLeaf_of_judged (hlib : lib.Lawful document) (hconds : StringConditions options.conditions) (he : e.Distinct)
    (hfin : e.All Scalar.Finite) {b : Bool} (h : shouldPruneObject lib options context e = .ok b)
    {condition : ConditionOperation} (hc : condition ∈ options.conditions) (hmode : ¬ condition.ComparesTexts)
    (hchild : e.child? condition.path = some c) : c.isLeaf = true := by
  obtain ⟨r, hr, hdoc⟩ := hlib.marshal he hfin
  unfold shouldPruneObject at h
  rw [hr] at h
  change checkConditions lib r context options.conditions options.logic = .ok b at h
  unfold checkConditions at h
  rw [if_neg (List.ne_nil_of_mem hc)] at h
  have hresults : ∃ results, options.conditions.mapM (checkSingleCondition lib r context) = .ok results := by
    cases hm : options.conditions.mapM (checkSingleCondition lib r context) with
    | ok results => exact ⟨results, rfl⟩
    | error err =>
      rw [hm] at h
      cases h
  obtain ⟨result, hresult⟩ := exists_mapM_eq_ok_iff.1 hresults condition hc
  obtain ⟨hplain, s, hs⟩ := hconds condition hc
  rw [checkSingleCondition_node hlib hdoc he hplain, hchild, hs] at hresult
  change (match compareGjsonValues lib.resultString (Json.value lib.float c) (.leaf (.string s)) _ with
    | .error _ => _ | .ok _ => _) = _ at hresult
  cases hcompare : compareGjsonValues lib.resultString (Json.value lib.float c) (.leaf (.string s))
      (GoString.toLower condition.mode) with
  | error err =>
    rw [hcompare] at hresult
    cases hresult
  | ok same => 
    rw [← isLeaf_value]
    exact isLeaf_of_compared hcompare hmode

/-! ## The whole operation -/

/-- No object has a container at the key of a condition that compares texts. -/
def KeysApart (options : PruneObjectsOptions) (v : Json) : Prop :=
  ∀ condition ∈ options.conditions, condition.ComparesTexts →
    ∀ e c, Doc.Within e v → e.isObject → e.child? condition.path = some c → c.isLeaf = true

theorem shouldPruneObject_removeObjects (hlib : lib.Lawful document) (hconds : StringConditions options.conditions)
    (he : e.Distinct) (hfin : e.All Scalar.Finite) (hobj : e.isObject) {M : Json → Bool} {b : Bool}
    (hjudged : shouldPruneObject lib options context e = .ok b)
    (hkeys : ∀ condition ∈ options.conditions, condition.ComparesTexts →
      ∀ c, e.child? condition.path = some c → c.isLeaf = true) :
    shouldPruneObject lib options context (e.removeObjects M) = .ok b := by
  rw [← hjudged]
  refine shouldPruneObject_congr hlib hconds he.removeObjects he hfin.removeObjects hfin fun condition hc => ?_
  cases e with
  | leaf | array => cases hobj
  | object fields =>
    cases he with
    | object hnodup hfields =>
      refine Doc.field?_removeFields hnodup fun c hchild => ?_
      by_cases hmode : condition.ComparesTexts
      · exact hkeys condition hc hmode c hchild
      · exact isLeaf_of_judged hlib hconds (.object hnodup hfields) hfin hjudged hc hmode hchild

/-- What is left of a value after pruning. -/
structure Cleaned (lib : PruneLib Body) (document : Body → Option Json) (options : PruneObjectsOptions)
    (context : String → Option Json) (v v' : Json) (r : Body) : Prop where
  left : v' = v.removeObjects (prunes (shouldPruneObject lib options context))
  finite : v'.All Scalar.Finite
  document : document r = some v'.canon
  judged : ∀ e, Doc.Kept (prunes (shouldPruneObject lib options context)) e v → e.isObject →
    ∃ b, shouldPruneObject lib options context e = .ok b

theorem cleanedBytes_ok (hlib : lib.Lawful document) (hrec : options.recursive = true) (hv : v.Distinct) {r : Body}
    (h : cleanedBytes lib options context v = .ok r) : ∃ v', Cleaned lib document options context v v' r := by
  unfold cleanedBytes at h
  rw [hrec] at h
  cases hnode : pruneObjectsNode (shouldPruneObject lib options context) true true v with
  | error err =>
    rw [hnode] at h
    cases h
  | ok cleaned =>
    rw [hnode] at h
    have hrun := pruneObjectsNode_ok hnode
    have hleft : cleaned = some (v.removeObjects (prunes (shouldPruneObject lib options context))) :=
      hrun.left.trans (if_neg fun h => nomatch h.1)
    change lib.marshal (cleaned.getD _) = .ok r at h
    rw [hleft] at h
    change lib.marshal (v.removeObjects _) = .ok r at h
    by_cases hfin : (v.removeObjects (prunes (shouldPruneObject lib options context))).All Scalar.Finite
    · obtain ⟨r', hr', hdoc⟩ := hlib.marshal hv.removeObjects hfin
      cases hr'.symm.trans h
      exact ⟨_, rfl, hfin, hdoc, hrun.judged (hleft ▸ nofun)⟩
    · obtain ⟨err, herr⟩ := hlib.marshal_error hfin
      cases herr.symm.trans h

theorem Cleaned.again (hlib : lib.Lawful document) (hconds : StringConditions options.conditions)
    (hrec : options.recursive = true) (hv : v.Distinct) (hfin : v.All Scalar.Finite) (hkeys : KeysApart options v)
    {v' : Json} {r : Body} (h : Cleaned lib document options context v v' r) :
    (∀ e, Doc.Below e v' → e.isObject → shouldPruneObject lib options context e = .ok false) ∧
      ∃ r', cleanedBytes lib options context v' = .ok r' ∧ document r' = some v'.canon := by
  have hleft := h.left
  subst hleft
  have hbelow : ∀ e, Doc.Below e (v.removeObjects (prunes (shouldPruneObject lib options context))) → e.isObject →
      shouldPruneObject lib options context e = .ok false := by
    intro e he hobj
    obtain ⟨e', hkept, hno, rfl⟩ := he.of_removeObjects
    rw [Doc.isObject_removeObjects] at hobj
    obtain ⟨b, hb⟩ := h.judged e' hkept hobj
    have hfalse : b = false := by
      refine Bool.eq_false_iff.2 fun htrue => hno ⟨hobj, ?_⟩
      rw [prunes_of_ok hb]
      exact htrue
    subst hfalse
    exact shouldPruneObject_removeObjects hlib hconds (hv.within hkept.within) (hfin.within hkept.within) hobj hb
      fun condition hc hmode c => hkeys condition hc hmode e' c hkept.within hobj
  refine ⟨hbelow, ?_⟩
  obtain ⟨r', hr', hdoc⟩ := hlib.marshal hv.removeObjects h.finite
  refine ⟨r', ?_, hdoc⟩
  unfold cleanedBytes
  rw [hrec, pruneObjectsNode_self hbelow]
  · exact hr'
  · intro hobj
    rw [Doc.isObject_removeObjects] at hobj
    obtain ⟨b, hb⟩ := h.judged v (.refl v) hobj
    exact ⟨b, shouldPruneObject_removeObjects hlib hconds hv hfin hobj hb
      (fun condition hc hmode c => hkeys condition hc hmode v c (.refl v) hobj), fun _ => rfl⟩

theorem value_eq_self (hlib : lib.Lawful document) {M : Json → Bool} :
    Json.value lib.float ((Json.value lib.float t).removeObjects M) = (Json.value lib.float t).removeObjects M ∧
      ((Json.value lib.float t).removeObjects M).canon = (Json.value lib.float t).removeObjects M := by
  have hcanon := ((Doc.sorted_canon (t.map (Scalar.reread lib.float))).removeObjects (M := M)).canon_eq
  have hreread : ∀ a, Scalar.reread lib.float (Scalar.reread lib.float a) = Scalar.reread lib.float a := by
    intro a
    cases a with
    | number q =>
      cases hq : lib.float q with
      | none => simp only [Scalar.reread, hq]
      | some r => simp only [Scalar.reread, hq, hlib.float hq]
    | null | bool | infinity | string => rfl
  have hall : ((Json.value lib.float t).removeObjects M).All fun a => Scalar.reread lib.float a = a :=
    (Doc.all_canon.2 (Doc.all_map hreread t)).removeObjects
  refine ⟨?_, hcanon⟩
  rw [Json.value, Doc.map_eq_self_iff.2 hall]
  exact hcanon

/-- The result of pruning: the value at the path without the objects below it that satisfied the conditions, the rest in
its order and each number as its `float64`. -/
structure Pruned (lib : PruneLib Body) (options : PruneObjectsOptions) (context : String → Option Json) (d : Json)
    (p : List String) (d' : Json) : Prop where
  removed : ∀ t, d.at? p = some t →
    d.setAt .null p ((Json.value lib.float t).removeObjects (prunes (shouldPruneObject lib options context))) = some d'
  absent : d.at? p = none → d' = d

theorem joinPath_ne_empty (hp : PlainPath p) : joinPath p ≠ "" := by
  intro h
  have hsplit := split_joinPath hp
  rw [h] at hsplit
  have hmem : "" ∈ p := hsplit ▸ List.mem_singleton_self ""
  exact (hp.2 "" hmem).1 rfl

theorem unmarshal_ok (hlib : lib.Lawful document) (hb : document b = some d) {root : Json}
    (h : lib.unmarshal b = .ok root) : root = d.value lib.float ∧ (d.value lib.float).All Scalar.Finite := by
  by_cases hfin : (d.value lib.float).All Scalar.Finite
  · cases (hlib.unmarshal hb hfin).symm.trans h
    exact ⟨rfl, hfin⟩
  · obtain ⟨err, herr⟩ := hlib.unmarshal_error hb hfin
    cases herr.symm.trans h

theorem pruneObjects_root (hoptions : parsePruneObjectsOptions c = .ok options) :
    pruneObjects lib b "" context c = lib.unmarshal b >>= cleanedBytes lib options context := by
  unfold pruneObjects
  rw [hoptions]
  rfl

theorem pruneObjects_path (hoptions : parsePruneObjectsOptions c = .ok options) (hp : PlainPath p) :
    pruneObjects lib b (joinPath p) context c =
      match lib.result b (joinPath p) with
      | none => .ok b
      | some (target, raw) =>
        targetNode lib target raw >>= fun node =>
          cleanedBytes lib options context node >>= fun cleaned => lib.setRaw b (joinPath p) cleaned := by
  unfold pruneObjects
  rw [hoptions]
  show (if joinPath p = "" then _ else _) = _
  rw [if_neg (joinPath_ne_empty hp)]
  rfl

theorem targetNode_ok (hlib : lib.Lawful document) {raw : Body} (hraw : document raw = some t) {node : Json}
    (h : targetNode lib (Json.value lib.float t) raw = .ok node) :
    node = Json.value lib.float t ∧ ((Json.value lib.float t).isLeaf = true ∨ (Json.value lib.float t).All Scalar.Finite) := by
  unfold targetNode at h
  split at h
  next hleaf => exact ⟨(Except.ok.inj h).symm, .inl hleaf⟩
  next => exact (unmarshal_ok hlib hraw h).imp id .inr

theorem targetNode_eq (hlib : lib.Lawful document) {raw : Body} (hraw : document raw = some t)
    (hfin : (Json.value lib.float t).All Scalar.Finite) :
    targetNode lib (Json.value lib.float t) raw = .ok (Json.value lib.float t) := by
  unfold targetNode
  split
  · rfl
  · exact hlib.unmarshal hraw hfin

theorem pruneObjects_found (hlib : lib.Lawful document) (hb : document b = some d) (hp : PlainPath p)
    (ht : d.at? p = some t) (hoptions : parsePruneObjectsOptions c = .ok options) {r : Body}
    (h : pruneObjects lib b (joinPath p) context c = .ok r) :
    ∃ cleaned, cleanedBytes lib options context (Json.value lib.float t) = .ok cleaned ∧
      lib.setRaw b (joinPath p) cleaned = .ok r ∧
      ((Json.value lib.float t).isLeaf = true ∨ (Json.value lib.float t).All Scalar.Finite) := by
  obtain ⟨raw, hresult, hraw⟩ := hlib.result hb hp ht
  rw [pruneObjects_path hoptions hp, hresult] at h
  change targetNode lib (Json.value lib.float t) raw >>= _ = _ at h
  cases hnode : targetNode lib (Json.value lib.float t) raw with
  | error err =>
    rw [hnode] at h
    cases h
  | ok node =>
    rw [hnode] at h
    obtain ⟨rfl, hread⟩ := targetNode_ok hlib hraw hnode
    change cleanedBytes lib options context (Json.value lib.float t) >>= _ = _ at h
    cases hbytes : cleanedBytes lib options context (Json.value lib.float t) with
    | error err =>
      rw [hbytes] at h
      cases h
    | ok cleaned =>
      rw [hbytes] at h
      exact ⟨cleaned, rfl, h, hread⟩

theorem pruneObjects_pruned (hlib : lib.Lawful document) (hb : document b = some d) (hd : d.Distinct)
    (hp : p = [] ∨ PlainPath p) (hoptions : parsePruneObjectsOptions c = .ok options) (hrec : options.recursive = true)
    (hconds : StringConditions options.conditions) {r : Body} (h : pruneObjects lib b (joinPath p) context c = .ok r) :
    ∃ d', document r = some d' ∧ Pruned lib options context d p d' ∧
      ((∀ t, d.at? p = some t → KeysApart options (Json.value lib.float t)) →
        (∀ t', d'.at? p = some t' → ∀ e, Doc.Below e t' → e.isObject →
          shouldPruneObject lib options context e ≠ .ok true) ∧
        ∃ r', pruneObjects lib r (joinPath p) context c = .ok r' ∧ document r' = some d') := by
  obtain rfl | hplain := hp
  · change pruneObjects lib b "" context c = .ok r at h
    rw [pruneObjects_root hoptions] at h
    cases hroot : lib.unmarshal b with
    | error err =>
      rw [hroot] at h
      cases h
    | ok root =>
      rw [hroot] at h
      obtain ⟨rfl, hfin⟩ := unmarshal_ok hlib hb hroot
      have hvalue : (Json.value lib.float d).Distinct := hd.map.canon
      obtain ⟨v', hcleaned⟩ := cleanedBytes_ok hlib hrec hvalue h
      have hleft := hcleaned.left
      subst hleft
      obtain ⟨hself, hcanon⟩ := value_eq_self (t := d) hlib (M := prunes (shouldPruneObject lib options context))
      have hdoc := hcleaned.document
      rw [hcanon] at hdoc
      refine ⟨_, hdoc, ⟨fun t ht => ?_, fun hnone => nomatch hnone⟩, fun hkeys => ?_⟩
      · cases ht
        rfl
      · obtain ⟨hnone, r', hr', hdoc'⟩ := hcleaned.again hlib hconds hrec hvalue hfin (hkeys d rfl)
        refine ⟨fun t' ht' e he hobj htrue => ?_, r', ?_, ?_⟩
        · cases ht'
          rw [hnone e he hobj] at htrue
          cases htrue
        · have hread := hlib.unmarshal hdoc (by rw [hself]; exact hcleaned.finite)
          rw [hself] at hread
          show pruneObjects lib r "" context c = _
          rw [pruneObjects_root hoptions, hread]
          exact hr'
        · rw [hdoc', hcanon]
  · cases ht : d.at? p with
    | none =>
      rw [pruneObjects_path hoptions hplain, hlib.result_none hb hplain ht] at h
      cases h
      refine ⟨d, hb, ⟨fun t ht' => (nomatch ht.symm.trans ht'), fun _ => rfl⟩, fun _ => ⟨fun t' ht' => ?_, b, ?_, hb⟩⟩
      · cases ht.symm.trans ht'
      · rw [pruneObjects_path hoptions hplain, hlib.result_none hb hplain ht]
    | some t =>
      obtain ⟨cleaned, hbytes, hsetRaw, hread⟩ := pruneObjects_found hlib hb hplain ht hoptions h
      have hvalue : (Json.value lib.float t).Distinct := (hd.at? ht).map.canon
      obtain ⟨v', hcleaned⟩ := cleanedBytes_ok hlib hrec hvalue hbytes
      have hleft := hcleaned.left
      subst hleft
      obtain ⟨hself, hcanon⟩ := value_eq_self (t := t) hlib (M := prunes (shouldPruneObject lib options context))
      have hdoc := hcleaned.document
      rw [hcanon] at hdoc
      obtain ⟨d', hset, hat⟩ := @Doc.exists_setAt _ Scalar.null _
        ((Json.value lib.float t).removeObjects (prunes (shouldPruneObject lib options context))) _
        (Option.isSome_of_eq_some ht)
      obtain ⟨r₁, hr₁, hdoc₁⟩ := hlib.setRaw hb hdoc hplain hset
      cases hr₁.symm.trans hsetRaw
      refine ⟨d', hdoc₁, ⟨fun t' ht' => ?_, fun hnone => (nomatch ht.symm.trans hnone)⟩, fun hkeys => ?_⟩
      · cases ht.symm.trans ht'
        exact hset
      · have hfin : (Json.value lib.float t).All Scalar.Finite := by
          refine hread.elim (fun hleaf => ?_) id
          have hfinite := hcleaned.finite
          rwa [Doc.removeObjects_of_isLeaf hleaf] at hfinite
        obtain ⟨hnone, r', hr', hdoc'⟩ := hcleaned.again hlib hconds hrec hvalue hfin (hkeys t rfl)
        rw [hcanon] at hdoc'
        obtain ⟨r₂, hr₂, hdoc₂⟩ := hlib.setRaw hdoc₁ hdoc' hplain (Doc.setAt_self hat)
        refine ⟨fun t' ht' e he hobj htrue => ?_, r₂, ?_, hdoc₂⟩
        · cases hat.symm.trans ht'
          rw [hnone e he hobj] at htrue
          cases htrue
        · obtain ⟨raw, hresult, hraw⟩ := hlib.result hdoc₁ hplain hat
          have hnode := targetNode_eq hlib hraw (by rw [hself]; exact hcleaned.finite)
          rw [pruneObjects_path hoptions hplain, hresult]
          dsimp only
          rw [hnode, hself]
          show cleanedBytes lib options context _ >>= _ = _
          rw [hr']
          exact hr₂

end

/-! ## On documents -/

mutual

/-- The text of a value of Go: numbers are integers, and strings have nothing to escape. -/
def render : Json → String
  | .leaf .null => "null"
  | .leaf (.bool b) => if b then "true" else "false"
  | .leaf (.number q) => toString q.num
  | .leaf (.infinity negative) => if negative then "-Inf" else "+Inf"
  | .leaf (.string s) => "\"" ++ s ++ "\""
  | .array items => "[" ++ GoString.join ',' (renderItems items) ++ "]"
  | .object fields => "\x7b" ++ GoString.join ',' (renderFields fields) ++ "\x7d"

def renderItems : List Json → List String
  | [] => []
  | c :: items => render c :: renderItems items

def renderFields : List (String × Json) → List String
  | [] => []
  | (k, c) :: fields => ("\"" ++ k ++ "\":" ++ render c) :: renderFields fields

end

/-- Bodies that are documents, and their texts. -/
def documentTexts : PruneLib Json where
  toJsonLib := documents
  marshal v := if v.All Scalar.Finite then .ok v.canon else .error "json: unsupported value"
  result d path := (d.at? (GoString.split '.' path)).map fun c => (c.value some, c)
  setRaw d path raw :=
    match d.setAt .null (GoString.split '.' path) raw with
    | some d' => .ok d'
    | none => .error "cannot set array element for non-numeric key"
  resultString
    | .leaf .null => ""
    | .leaf (.string s) => s
    | v => render v

theorem documentTexts_lawful : documentTexts.Lawful some where
  toLawful := documents_lawful
  marshal _ hfin := ⟨_, if_pos hfin, rfl⟩
  marshal_error hfin := ⟨_, if_neg hfin⟩
  result_none {b d p} hb hp ht := by
    cases hb
    show Option.map _ (Doc.at? b (GoString.split '.' (joinPath p))) = none
    rw [split_joinPath hp, ht]
    rfl
  result {b d c p} hb hp ht := by
    cases hb
    refine ⟨c, ?_, rfl⟩
    show Option.map _ (Doc.at? b (GoString.split '.' (joinPath p))) = _
    rw [split_joinPath hp, ht]
    rfl
  setRaw {b raw d c d' p} hb hraw hp hset := by
    cases hb
    cases hraw
    refine ⟨d', ?_, rfl⟩
    show (match Doc.setAt Scalar.null b (GoString.split '.' (joinPath p)) raw with | some d' => _ | none => _) = _
    rw [split_joinPath hp, hset]
  resultString := rfl
  float _ := rfl

/-- The image of two parts is pruned. -/
theorem pruneObjects_pruned_image :
    let d : Json := .array [.object [("type", .leaf (.string "text"))], .object [("type", .leaf (.string "image"))]]
    let options : PruneObjectsOptions :=
      { conditions := [{ path := "type", mode := "full", value := .leaf (.string "image"), invert := false,
                         passMissingKey := false }]
        logic := "AND", recursive := true }
    ∃ d', some (Doc.array [Doc.object [("type", Doc.leaf (Scalar.string "text"))]]) = some d' ∧
      Pruned documentTexts options (fun _ => none) d [] d' := by
  intro d options
  have hd : d.Distinct := by
    refine .array (List.forall_mem_cons.2 ⟨?_, List.forall_mem_singleton.2 ?_⟩) <;>
      exact .object (List.nodup_singleton _) (List.forall_mem_singleton.2 .leaf)
  have hconds : StringConditions options.conditions := List.forall_mem_singleton.2 ⟨by decide, "image", rfl⟩
  have hrun : pruneObjects documentTexts d "" (fun _ => none) (.leaf (.string "image")) =
      .ok (.array [.object [("type", .leaf (.string "text"))]]) := rfl
  obtain ⟨d', hdoc, hpruned, -⟩ := pruneObjects_pruned (p := []) (c := .leaf (.string "image")) documentTexts_lawful
    (show some d = some d from rfl) hd (.inl rfl) (show _ = Except.ok options from rfl) rfl hconds hrun
  exact ⟨d', hdoc, hpruned⟩

/-- That the text at `a` starts with `x`, or that there is none. -/
def startsWithX : PruneObjectsOptions where
  conditions := [{ path := "a", mode := "prefix", value := .leaf (.string "x"), invert := false, passMissingKey := true }]
  logic := "AND"
  recursive := true

/-- The value of an operation with the condition `startsWithX`. -/
def startsWithXValue : Json :=
  .object [("conditions", .array [.object [("path", .leaf (.string "a")), ("mode", .leaf (.string "prefix")),
    ("value", .leaf (.string "x")), ("pass_missing_key", .leaf (.bool true))]])]

/-- An object that does not satisfy a condition does so when its child has been pruned, and stays. -/
theorem pruneObjects_leaves_match :
    parsePruneObjectsOptions startsWithXValue = .ok startsWithX ∧ StringConditions startsWithX.conditions ∧
      pruneObjects documentTexts (.array [.object [("a", .object [])]]) "" (fun _ => none) startsWithXValue =
        .ok (.array [.object []]) ∧
      Doc.Below (.object []) (.array [.object []] : Json) ∧
      shouldPruneObject documentTexts startsWithX (fun _ => none) (.object []) = .ok true := by
  have hoptions : parsePruneObjectsOptions startsWithXValue = .ok startsWithX := rfl
  refine ⟨hoptions, List.forall_mem_singleton.2 ⟨by decide, "x", rfl⟩, ?_, ?_, rfl⟩
  · rw [pruneObjects_root hoptions]
    rfl
  · exact .item (List.mem_singleton_self _) (.refl _)

end Override

end NewApi

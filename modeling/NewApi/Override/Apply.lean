import NewApi.Override.Headers
import Mathlib.Algebra.Order.Ring.Int

/-!
# A run of an override

`applyParamOverrideWithRelayInfo` applies the override of the channel to a body: it makes the context of the call, runs
the operations, which edit the body and the context, and writes the headers and the audit back to the info at the end. The
context is the only thing that is written before, and its maps are copies, so that an override that fails leaves
nothing behind (`applyParamOverrideWithRelayInfo_error`).
-/

namespace NewApi

namespace Override

namespace Apply

open Cells

/-- The operations on the values at paths. -/
inductive PathMode
  | edit (mode : EditMode)
  | prepend
  | append
  | regexReplace
  | pruneObjects
  deriving DecidableEq

inductive Mode
  | atPaths (mode : PathMode)
  | move
  | copy
  | returnError
  | setHeader
  | deleteHeader
  | copyHeader
  | moveHeader
  | passHeaders
  | syncFields
  deriving DecidableEq

def PathMode.name : PathMode → String
  | .edit mode => mode.name
  | .prepend => "prepend"
  | .append => "append"
  | .regexReplace => "regex_replace"
  | .pruneObjects => "prune_objects"

def Mode.name : Mode → String
  | .atPaths mode => mode.name
  | .move => "move"
  | .copy => "copy"
  | .returnError => "return_error"
  | .setHeader => "set_header"
  | .deleteHeader => "delete_header"
  | .copyHeader => "copy_header"
  | .moveHeader => "move_header"
  | .passHeaders => "pass_headers"
  | .syncFields => "sync_fields"

/-- The modes of the source's `switch`, in its order. -/
def modes : List Mode :=
  [.atPaths (.edit .delete), .atPaths (.edit .set), .move, .copy, .atPaths .prepend, .atPaths .append,
    .atPaths (.edit .trimPrefix), .atPaths (.edit .trimSuffix), .atPaths (.edit .ensurePrefix),
    .atPaths (.edit .ensureSuffix), .atPaths (.edit .trimSpace), .atPaths (.edit .toLower), .atPaths (.edit .toUpper),
    .atPaths (.edit .replace), .atPaths .regexReplace, .returnError, .atPaths .pruneObjects, .setHeader, .deleteHeader,
    .copyHeader, .moveHeader, .passHeaders, .syncFields]

def modeOf (name : String) : Option Mode := modes.find? (·.name = name)

/-- An operation as it is written. Its value is that of the override, not a copy. -/
structure ParamOperation where
  path : String
  mode : String
  value : Val
  keepOrigin : Bool
  opFrom : String
  opTo : String
  conditions : List ConditionOperation
  logic : String

/-! ## Operations as they are written -/

def stringAt (fields : Fields) (k : String) : Option String :=
  match fields.lookup k with
  | some (.leaf (.string s)) => some s
  | _ => none

def boolAt (fields : Fields) (k : String) : Option Bool :=
  match fields.lookup k with
  | some (.leaf (.bool b)) => some b
  | _ => none

def parseOperation (w : World) (op : Val) : Option ParamOperation :=
  match w.map? (some op) with
  | none => none
  | some a =>
    let opMap := w.fieldsAt a
    match stringAt opMap "mode" with
    | none => none
    | some mode =>
      let operation (conditions : List ConditionOperation) : ParamOperation := {
        path := (stringAt opMap "path").getD ""
        mode := mode
        value := (opMap.lookup "value").getD (.leaf .null)
        keepOrigin := (boolAt opMap "keep_origin").getD false
        opFrom := (stringAt opMap "from").getD ""
        opTo := (stringAt opMap "to").getD ""
        conditions := conditions
        logic := (stringAt opMap "logic").getD "OR" }
      match opMap.lookup "conditions" with
      | none => some (operation [])
      | some raw =>
        match parseConditionOperations (w.value raw) with
        | .error _ => none
        | .ok conditions => some (operation conditions)

def tryParseOperations (w : World) (paramOverride : ℕ) : Option (List ParamOperation) :=
  match (w.fieldsAt paramOverride).lookup "operations" with
  | some (.ref a) =>
    match w.cells[a]? with
    | some (.list ops) => ops.mapM (parseOperation w)
    | _ => none
  | _ => none

section
variable {Body : Type} (lib : OverrideLib Body)

/-- The entries of the override that are no operations. -/
def buildLegacyParamOverride (w : World) (paramOverride : ℕ) : List (String × Val) :=
  ((w.fieldsAt paramOverride).entries.filter fun f => ¬ lib.equalFold (GoString.trimSpace f.1) "operations").map
    fun f => (f.1, f.2)

/-! ## The audit -/

def auditRecorderKey : String := "__param_override_audit_recorder"

def paramOverrideKeyAuditPaths : List String :=
  ["model", "original_model", "upstream_model", "service_tier", "inference_geo", "speed"]

def shouldAuditParamPath (path : String) : Bool :=
  let path := GoString.trimSpace path
  path ≠ "" ∧ (lib.debugEnabled ∨ path ∈ paramOverrideKeyAuditPaths)

def shouldAuditOperation (path opTo : String) : Bool :=
  lib.debugEnabled ∨ shouldAuditParamPath lib path ∨ shouldAuditParamPath lib opTo

def formatParamOverrideAuditValue : Json → String
  | .leaf .null => "<empty>"
  | .leaf (.string typed) => typed
  | typed => lib.jsonString typed

/-- The line of the audit, or the empty string for none. -/
def buildParamOverrideAuditLine (mode path opFrom opTo : String) (value : Json) : String :=
  let mode := GoString.trimSpace mode
  let path := GoString.trimSpace path
  let opFrom := GoString.trimSpace opFrom
  let opTo := GoString.trimSpace opTo
  let ofPath (line : String) := if path = "" then "" else line
  let ofFromTo (line : String) := if opFrom = "" ∨ opTo = "" then "" else line
  if ¬ shouldAuditOperation lib path opTo then ""
  else
    match mode with
    | "set" | "set_header" => ofPath (mode ++ " " ++ path ++ " = " ++ formatParamOverrideAuditValue lib value)
    | "delete" | "delete_header" | "trim_space" | "to_lower" | "to_upper" => ofPath (mode ++ " " ++ path)
    | "copy" | "move" | "copy_header" | "move_header" | "sync_fields" =>
      ofFromTo (mode ++ " " ++ opFrom ++ " -> " ++ opTo)
    | "prepend" | "append" | "trim_prefix" | "trim_suffix" | "ensure_prefix" | "ensure_suffix" =>
      ofPath (mode ++ " " ++ path ++ " with " ++ formatParamOverrideAuditValue lib value)
    | "replace" | "regex_replace" => ofPath (mode ++ " " ++ path ++ " from " ++ opFrom ++ " to " ++ opTo)
    | "pass_headers" | "return_error" => mode ++ " " ++ formatParamOverrideAuditValue lib value
    | _ => if path = "" then mode else mode ++ " " ++ path

def getParamOverrideAuditRecorder (context : ℕ) : Run (Option ℕ) := do
  let w ← get
  match (w.fieldsAt context).lookup auditRecorderKey with
  | some (.ref a) =>
    match w.cells[a]? with
    | some (.recorder _) => return some a
    | _ => return none
  | _ => return none

def recordOperation (recorder : Option ℕ) (mode path opFrom opTo : String) (value : Json) : Run Unit :=
  match recorder with
  | none => return ()
  | some a =>
    let line := buildParamOverrideAuditLine lib mode path opFrom opTo value
    if line = "" then return ()
    else modify fun w => w.updateAt a (Cell.updateLines fun lines => if line ∈ lines then lines else lines ++ [line])

/-- An operation is recorded with what its value refers to at the time. -/
def recordValue (recorder : Option ℕ) (mode path : String) (value : Val) : Run Unit := do
  let w ← get
  recordOperation lib recorder mode path "" "" (w.value value)

def shouldEnableParamOverrideAudit (w : World) (paramOverride : ℕ) : Bool :=
  if lib.debugEnabled then true
  else
    match tryParseOperations w paramOverride with
    | some operations =>
      (operations.any fun operation =>
        shouldAuditParamPath lib operation.path ∨ shouldAuditParamPath lib operation.opTo) ∨
      (buildLegacyParamOverride lib w paramOverride).any fun f => shouldAuditParamPath lib f.1
    | none => (w.fieldsAt paramOverride).keys.any (shouldAuditParamPath lib)

/-! ## The value at a path -/

def modifyArray (jsonStr : Body) (path : String) (current : List Json) (value : Json) (isPrepend : Bool) :
    Except String Body :=
  let added := match value with
    | .array arr => arr
    | value => [value]
  let newArray := if isPrepend then added ++ current else current ++ added
  -- A slice to which nothing has been appended is nil, and is written as null.
  lib.set jsonStr path (if newArray = [] then .leaf .null else .array newArray)

def modifyString (jsonStr : Body) (path : String) (current : String) (value : Json) (isPrepend : Bool) :
    Except String Body :=
  let valueStr := lib.sprint value
  lib.set jsonStr path (.leaf (.string (if isPrepend then valueStr ++ current else current ++ valueStr)))

/-- A document as a map. -/
def unmarshalMap (d : Json) : Except String (List (String × Json)) :=
  match d with
  | .object fields => .ok fields
  | .leaf .null => .ok []
  | d => .error (lib.mismatch d)

def mergeObjects (jsonStr : Body) (path : String) (raw : Body) (value : Json) (keepOrigin : Bool) :
    Except String Body := do
  let current ← lib.unmarshal raw
  let currentMap ← unmarshalMap lib current
  let newMap ← unmarshalMap lib value
  let result := newMap.foldl (fun result f =>
    let kept := match Doc.field? result f.1 with
      | none | some (.leaf .null) => false
      | some _ => keepOrigin
    if kept then result else Doc.setField result f.1 f.2) currentMap
  lib.set jsonStr path (.object result)

def modifyValue (jsonStr : Body) (path : String) (value : Json) (keepOrigin isPrepend : Bool) : Except String Body :=
  match lib.result jsonStr path with
  | some (.array current, _) => modifyArray lib jsonStr path current value isPrepend
  | some (.leaf (.string current), _) => modifyString lib jsonStr path current value isPrepend
  | some (.object _, raw) => mergeObjects lib jsonStr path raw value keepOrigin
  | current => .error ("operation not supported for type: " ++ typeName (current.map Prod.fst))

def regexReplaceStringValue (jsonStr : Body) (path pattern replacement : String) : Except String Body :=
  editString lib.toJsonLib jsonStr path fun current =>
    if pattern = "" then .error "regex pattern is required"
    else (lib.regexReplace pattern current replacement).map some

/-- What `gjson.Get` finds in the text of the context. -/
def inContextJSON (contextJSON : Option Body) (path : String) : Option Json := contextJSON.bind (lib.get · path)

/-- The operation as one that edits the value at a path. -/
def ParamOperation.at (op : ParamOperation) (mode : EditMode) (value : Json) : Override.ParamOperation where
  path := op.path
  mode := mode
  value := value
  keepOrigin := op.keepOrigin
  opFrom := op.opFrom
  opTo := op.opTo

/-- One path of an operation, of the value that the operation has at the time. -/
def editAt (mode : PathMode) (op : ParamOperation) (value : Json) (contextJSON : Option Body) (result : Body)
    (path : String) : Except String Body :=
  match mode with
  | .edit mode => editPath lib.toJsonLib lib.toTextLib (op.at mode value) result path
  | .prepend => modifyValue lib result path value op.keepOrigin true
  | .append => modifyValue lib result path value op.keepOrigin false
  | .regexReplace => regexReplaceStringValue lib result path op.opFrom op.opTo
  | .pruneObjects => pruneObjects lib.toPruneLib result path (inContextJSON lib contextJSON) value

/-- What is recorded of an operation at a path. -/
def recordAt (recorder : Option ℕ) (mode : PathMode) (op : ParamOperation) (value : Json) (result : Body)
    (path : String) : Run Unit :=
  match mode with
  | .pruneObjects => return ()
  | .edit .set =>
    if op.keepOrigin ∧ (lib.get result path).isSome then return ()
    else recordOperation lib recorder "set" path "" "" value
  | .edit .delete | .edit .trimSpace | .edit .toLower | .edit .toUpper =>
    recordOperation lib recorder mode.name path "" "" (.leaf .null)
  | .edit .replace | .regexReplace => recordOperation lib recorder mode.name path op.opFrom op.opTo (.leaf .null)
  | _ => recordOperation lib recorder mode.name path "" "" value

def applyAt (recorder : Option ℕ) (mode : PathMode) (op : ParamOperation) (contextJSON : Option Body) (result : Body)
    (path : String) : Run Body := do
  let w ← get
  let value := w.value op.value
  let next ← liftText (editAt lib mode op value contextJSON result path)
  recordAt lib recorder mode op value result path
  return next

/-! ## Errors that an operation returns -/

/-- An integer that a `float64` is. -/
def parseOverrideInt : Json → Option ℤ
  | .leaf (.number value) =>
    if value.den = 1 ∧ -(2 ^ 63 : ℤ) ≤ value.num ∧ value.num < 2 ^ 63 then some value.num else none
  | _ => none

/-- The status of the fields, or else the one that is given. -/
def statusOf (raw : List (String × Json)) (otherwise : ℤ) : Except String ℤ :=
  match Doc.field? raw "status_code" with
  | some statusCodeRaw => (parseOverrideInt statusCodeRaw).elim (.error "return_error status_code must be an integer") .ok
  | none =>
    match Doc.field? raw "status" with
    | some statusRaw => (parseOverrideInt statusRaw).elim (.error "return_error status must be an integer") .ok
    | none => .ok otherwise

def checkReturnError (result : ParamOverrideReturnError) : Except String ParamOverrideReturnError :=
  if result.message = "" then .error "return_error message is required"
  else if result.statusCode < 100 ∨ 511 < result.statusCode then
    .error ("return_error status code out of range: " ++ toString result.statusCode)
  else .ok result

def parseParamOverrideReturnError : Json → Except String ParamOverrideReturnError
  | .leaf .null => .error "return_error value is required"
  | .leaf (.string raw) => checkReturnError {
      message := GoString.trimSpace raw
      statusCode := 400
      code := "invalid_request"
      errorType := "invalid_request_error"
      skipRetry := true }
  | .object raw => do
    let message := GoString.trimSpace (stringField raw "message")
    let message := if message = "" then GoString.trimSpace (stringField raw "msg") else message
    let code := ((Doc.field? raw "code").map fun code => GoString.trimSpace (lib.sprint code)).getD ""
    let errType := GoString.trimSpace (stringField raw "type")
    let statusCode ← statusOf raw 400
    checkReturnError {
      message := message
      statusCode := statusCode
      code := if code = "" then "invalid_request" else code
      errorType := if errType = "" then "invalid_request_error" else errType
      skipRetry := boolField raw "skip_retry" true }
  | _ => .error "return_error value must be string or object"

/-! ## Names of headers -/

mutual

/-- A bound for how often texts in a document can be read in turn. -/
def weight : Json → ℕ
  | .leaf (.string s) => s.length + 1
  | .leaf _ => 1
  | .array items => weightItems items + 1
  | .object fields => weightFields fields + 1

def weightItems : List Json → ℕ
  | [] => 0
  | item :: items => weight item + weightItems items

def weightFields : List (String × Json) → ℕ
  | [] => 0
  | (_, child) :: fields => weight child + weightFields fields

end

def normalizeNames (values : List String) : List String :=
  ((values.map (normalizeHeaderContextKey lib)).filter (· ≠ "")).eraseDups

def nonemptyNames (names : List String) : Except String (List String) :=
  if names = [] then .error "pass_headers value is invalid" else .ok names

/-- The names in a value. A text that is a document is read, at most as often as the number says. -/
def passThroughNames : ℕ → Json → Except String (List String)
  | _, .leaf .null => .error "pass_headers value is required"
  | depth, .leaf (.string raw) =>
    let trimmed := GoString.trimSpace raw
    let names := nonemptyNames (normalizeNames lib (GoString.split ',' trimmed))
    if trimmed = "" then .error "pass_headers value is required"
    else if GoString.hasPrefix trimmed "[" ∨ GoString.hasPrefix trimmed "\x7b" then
      match lib.parse trimmed, depth with
      | .ok parsed, depth + 1 => passThroughNames depth parsed
      | _, _ => names
    else names
  | _, .array raw => nonemptyNames (normalizeNames lib (raw.map lib.sprint))
  | depth, .object raw =>
    let candidates := ["headers", "names", "header"].flatMap fun key =>
      match Doc.field? raw key, depth with
      | some value, depth + 1 =>
        match passThroughNames depth value with
        | .ok names => names
        | .error _ => []
      | _, _ => []
    nonemptyNames (normalizeNames lib candidates)
  | _, .leaf _ => .error "pass_headers value must be string, array or object"

def parseHeaderPassThroughNames (value : Json) : Except String (List String) :=
  passThroughNames lib (weight value) value

/-! ## Fields that are kept the same -/

inductive SyncTarget
  | json (key : String)
  | header (key : String)

def parseSyncTarget (spec : String) : Except String SyncTarget :=
  let raw := GoString.trimSpace spec
  if raw = "" then .error "sync_fields target is required"
  else
    match raw.toList.dropWhile (· ≠ ':') with
    | [] => .ok (.json raw)
    | _ :: behind =>
      let kind := lib.toLower (GoString.trimSpace (String.ofList (raw.toList.takeWhile (· ≠ ':'))))
      let key := GoString.trimSpace (String.ofList behind)
      if key = "" then .error ("sync_fields target key is required: " ++ raw)
      else if kind = "json" ∨ kind = "body" then .ok (.json key)
      else if kind = "header" then .ok (.header key)
      else .error ("sync_fields target prefix is invalid: " ++ raw)

/-- What there is at a target, as a new value. -/
def readSyncTargetValue (jsonStr : Body) (context : ℕ) : SyncTarget → Run (Option Json)
  | .json key =>
    match lib.get jsonStr (processNegativeIndex lib.toJsonLib jsonStr key) with
    | none | some (.leaf .null) => return none
    | some (.leaf (.string s)) => return if GoString.trimSpace s = "" then none else some (.leaf (.string s))
    | some value => return some value
  | .header key => do
    match ← getHeaderValueFromContext lib context key with
    | none => return none
    | some value => return if GoString.trimSpace value = "" then none else some (.leaf (.string value))

def writeSyncTargetValue (jsonStr : Body) (context : ℕ) (target : SyncTarget) (value : Json) : Run Body :=
  match target with
  | .json key => liftText (lib.set jsonStr (processNegativeIndex lib.toJsonLib jsonStr key) value)
  | .header key => do
    let val ← load value
    setHeaderOverrideInContext lib context key val false
    return jsonStr

def syncFieldsBetweenTargets (jsonStr : Body) (context : ℕ) (fromSpec toSpec : String) : Run Body := do
  let fromTarget ← liftText (parseSyncTarget lib fromSpec)
  let toTarget ← liftText (parseSyncTarget lib toSpec)
  let fromValue ← readSyncTargetValue lib jsonStr context fromTarget
  let toValue ← readSyncTargetValue lib jsonStr context toTarget
  match fromValue, toValue with
  | some fromValue, none => writeSyncTargetValue lib jsonStr context toTarget fromValue
  | none, some toValue => writeSyncTargetValue lib jsonStr context fromTarget toValue
  | _, _ => return jsonStr

/-! ## The operations in turn -/

def contextText (w : World) (context : ℕ) : Except String (Option Body) :=
  if (w.fieldsAt context).entries = [] then .ok none else (lib.marshal (w.value (.ref context))).map some

def marshalContextJSON (context : ℕ) : Run (Option Body) := do
  let w ← get
  liftText (contextText lib w context)

/-- What fails in an operation is named after it. -/
def inOperation {α : Type} (mode : String) (x : Run α) : Run α := tryCatch x fun e => throw (.operationFailed mode e)

/-- An operation on the headers: if it does not fail, it is recorded and the text of the context is made again. -/
def onHeaders (op : ParamOperation) (context : ℕ) (edit record : Run Unit) : Run (Option Body) :=
  inOperation op.mode do
    edit
    record
    marshalContextJSON lib context

/-- The source and the target of an operation on headers: the path stands for the one that is not given. -/
def ParamOperation.headers (op : ParamOperation) : String × String :=
  let orPath (s : String) := if GoString.trimSpace s = "" then GoString.trimSpace op.path else GoString.trimSpace s
  (orPath op.opFrom, orPath op.opTo)

/-- One operation whose conditions hold: the body and the text of the context after it. -/
def applyMode (context : ℕ) (recorder : Option ℕ) (op : ParamOperation) (result : Body) (contextJSON : Option Body) :
    Mode → Run (Body × Option Body)
  | .atPaths mode => do
    let opPath := processNegativeIndex lib.toJsonLib result op.path
    let opPaths ← liftText (resolveOperationPaths lib.toJsonLib result opPath)
    let result ← inOperation op.mode (opPaths.foldlM (applyAt lib recorder mode op contextJSON) result)
    return (result, contextJSON)
  | .move => do
    let opFrom := processNegativeIndex lib.toJsonLib result op.opFrom
    let opTo := processNegativeIndex lib.toJsonLib result op.opTo
    let result ← inOperation op.mode (liftText (moveValue lib.toJsonLib result opFrom opTo))
    recordOperation lib recorder "move" "" opFrom opTo (.leaf .null)
    return (result, contextJSON)
  | .copy => do
    if op.opFrom = "" ∨ op.opTo = "" then throw (.text "copy from/to is required")
    let opFrom := processNegativeIndex lib.toJsonLib result op.opFrom
    let opTo := processNegativeIndex lib.toJsonLib result op.opTo
    let result ← inOperation op.mode (liftText (copyValue lib.toJsonLib result opFrom opTo))
    recordOperation lib recorder "copy" "" opFrom opTo (.leaf .null)
    return (result, contextJSON)
  | .returnError => do
    recordValue lib recorder "return_error" op.path op.value
    let w ← get
    let returnErr ← liftText (parseParamOverrideReturnError lib (w.value op.value))
    throw (.returnError returnErr)
  | .setHeader => do
    let contextJSON ← onHeaders lib op context (setHeaderOverrideInContext lib context op.path op.value op.keepOrigin)
      (recordValue lib recorder "set_header" op.path op.value)
    return (result, contextJSON)
  | .deleteHeader => do
    let contextJSON ← onHeaders lib op context (deleteHeaderOverrideInContext lib context op.path)
      (recordOperation lib recorder "delete_header" op.path "" "" (.leaf .null))
    return (result, contextJSON)
  | .copyHeader => do
    let (sourceHeader, targetHeader) := op.headers
    let contextJSON ← onHeaders lib op context
      (ignoreMissingHeader (copyHeaderInContext lib context sourceHeader targetHeader op.keepOrigin))
      (recordOperation lib recorder "copy_header" "" sourceHeader targetHeader (.leaf .null))
    return (result, contextJSON)
  | .moveHeader => do
    let (sourceHeader, targetHeader) := op.headers
    let contextJSON ← onHeaders lib op context
      (ignoreMissingHeader (moveHeaderInContext lib context sourceHeader targetHeader op.keepOrigin))
      (recordOperation lib recorder "move_header" "" sourceHeader targetHeader (.leaf .null))
    return (result, contextJSON)
  | .passHeaders => do
    let w ← get
    let headerNames ← liftText (parseHeaderPassThroughNames lib (w.value op.value))
    let contextJSON ← onHeaders lib op context
      (headerNames.forM fun headerName =>
        ignoreMissingHeader (copyHeaderInContext lib context headerName headerName op.keepOrigin))
      (recordOperation lib recorder "pass_headers" "" "" "" (.array (headerNames.map fun s => .leaf (.string s))))
    return (result, contextJSON)
  | .syncFields => inOperation op.mode do
    let result ← syncFieldsBetweenTargets lib result context op.opFrom op.opTo
    recordOperation lib recorder "sync_fields" "" op.opFrom op.opTo (.leaf .null)
    return (result, ← marshalContextJSON lib context)

/-- One turn of the loop. -/
def applyOperation (context : ℕ) (recorder : Option ℕ) (state : Body × Option Body) (op : ParamOperation) :
    Run (Body × Option Body) := do
  let ok ← liftText (checkConditions lib.toPruneLib state.1 (inContextJSON lib state.2) op.conditions op.logic)
  if ¬ ok then return state
  match modeOf op.mode with
  | none => throw (.text ("unknown operation: " ++ op.mode))
  | some mode => applyMode lib context recorder op state.1 state.2 mode

def applyOperations (jsonStr : Body) (operations : List ParamOperation) (context : ℕ) : Run Body := do
  let auditRecorder ← getParamOverrideAuditRecorder context
  let w ← get
  let contextJSON ← liftText ((contextText lib w context).mapError ("failed to marshal condition context: " ++ ·))
  let state ← operations.foldlM (applyOperation lib context auditRecorder) (jsonStr, contextJSON)
  return state.1

/-- The entries of the override are put into the map that the body is read to. -/
def applyOperationsLegacy (jsonData : Body) (paramOverride : List (String × Val)) (auditRecorder : Option ℕ) :
    Run Body := do
  let body ← liftText (lib.unmarshal jsonData)
  match body with
  | .object fields =>
    let reqMap ← make (.map (← loadFields fields))
    paramOverride.forM fun f => do
      assign reqMap f.1 f.2
      recordValue lib auditRecorder "set" f.1 f.2
    let w ← get
    liftText (lib.marshal (w.value (.ref reqMap)))
  | .leaf .null =>
    -- The text null makes the map nil.
    if paramOverride = [] then liftText (lib.marshal (.leaf .null)) else throw .nilMap
  | body => throw (.text (lib.mismatch body))

def applyParamOverride (jsonData : Body) (paramOverride : ℕ) (conditionContext : ℕ) : Run Body := do
  let w ← get
  if (w.fieldsAt paramOverride).entries = [] then return jsonData
  let auditRecorder ← getParamOverrideAuditRecorder conditionContext
  match tryParseOperations w paramOverride with
  | some operations =>
    let legacyOverride := buildLegacyParamOverride lib w paramOverride
    let workingJSON ←
      if legacyOverride = [] then pure jsonData
      else applyOperationsLegacy lib jsonData legacyOverride auditRecorder
    applyOperations lib workingJSON operations conditionContext
  | none =>
    applyOperationsLegacy lib jsonData ((w.fieldsAt paramOverride).entries.map fun f => (f.1, f.2)) auditRecorder

/-! ## The context of a call -/

def number (n : ℤ) : Val := .leaf (.number n)

def bool (b : Bool) : Val := .leaf (.bool b)

/-- The keys of a map are assigned one after the other. -/
def assignAll (a : ℕ) (fields : List (String × Val)) : Run Unit := fields.forM fun f => assign a f.1 f.2

def makeMap (fields : List (String × Val)) : Run ℕ := do
  let a ← make (.map ∅)
  assignAll a fields
  return a

/-- The keys of the context that the models and the path of the request are at. -/
def requestFields (info : RelayInfo) : List (String × Val) :=
  let upstreamModelName := (info.channelMeta.map ChannelMeta.upstreamModelName).getD ""
  (if upstreamModelName = "" then []
    else [("model", string upstreamModelName), ("upstream_model", string upstreamModelName)]) ++
  (if info.originModelName = "" then []
    else ("original_model", string info.originModelName) ::
      if upstreamModelName = "" then [("model", string info.originModelName)] else []) ++
  (if info.requestURLPath = "" then [] else [("request_path", string info.requestURLPath)])

def lastErrorFields (e : LastError) : List (String × Val) :=
  [("status_code", number e.statusCode), ("message", string e.message), ("code", string e.code),
    ("error_code", string e.code), ("type", string e.errorType), ("error_type", string e.errorType),
    ("skip_retry", bool e.skipRetry)]

/-- The keys of a new context. -/
def fillParamOverrideContext (ctx : ℕ) (info : RelayInfo) : Run Unit := do
  assignAll ctx (requestFields info)
  let requestHeaders ← buildRequestHeadersContext lib info.requestHeaders
  assign ctx requestHeadersKey (.ref requestHeaders)
  let headerOverrideSource ← getEffectiveHeaderOverride lib info
  let headerOverride ← sanitizeHeaderOverrideMap lib (some headerOverrideSource)
  assign ctx headerOverrideKey (.ref headerOverride)
  assignAll ctx [("retry_index", number info.retryIndex), ("is_retry", bool (0 < info.retryIndex))]
  let retry ← makeMap [("index", number info.retryIndex), ("is_retry", bool (0 < info.retryIndex))]
  assign ctx "retry" (.ref retry)
  match info.lastError with
  | none => pure ()
  | some e =>
    let lastError ← makeMap (lastErrorFields e)
    assign ctx "last_error" (.ref lastError)
    assignAll ctx [("last_error_status_code", number e.statusCode), ("last_error_message", string e.message),
      ("last_error_code", string e.code), ("last_error_type", string e.errorType)]
  assign ctx "is_channel_test" (bool info.isChannelTest)

/-- The headers of the context become those of the info. -/
def syncRuntimeHeaderOverrideFromContext (info : RelayInfo) (context : ℕ) : Run RelayInfo := do
  let w ← get
  match w.map? ((w.fieldsAt context).lookup headerOverrideKey) with
  | none => return info
  | some rawMap =>
    let headers ← sanitizeHeaderOverrideMap lib (some rawMap)
    return { info with runtimeHeadersOverride := some headers, useRuntimeHeadersOverride := true }

/-- What a call writes to the info at its end. -/
def finish (info : RelayInfo) (context : ℕ) (recorder : Option ℕ) : Run Unit := do
  let info ← syncRuntimeHeaderOverrideFromContext lib info context
  modify fun w =>
    let lines := match recorder.bind (w.cells[·]?) with
      | some (.recorder lines) => lines
      | _ => []
    { w with info := some { info with paramOverrideAudit := lines } }

/-- The call on a context that is still empty, up to what it writes to the info. -/
def applyInContext (jsonData : Body) (info : RelayInfo) (paramOverride overrideCtx : ℕ) : Run (Body × Option ℕ) := do
  fillParamOverrideContext lib overrideCtx info
  let w ← get
  let recorder ←
    if shouldEnableParamOverrideAudit lib w paramOverride then do
      let recorder ← make (.recorder [])
      assign overrideCtx auditRecorderKey (.ref recorder)
      pure (some recorder)
    else pure none
  let result ← applyParamOverride lib jsonData paramOverride overrideCtx
  return (result, recorder)

def applyParamOverrideWithRelayInfo (jsonData : Body) : Run Body := do
  let w ← get
  match w.info with
  | none => return jsonData
  | some info =>
    match info.channelMeta.bind ChannelMeta.paramOverride with
    | none => return jsonData
    | some paramOverride =>
      if (w.fieldsAt paramOverride).entries = [] then return jsonData
      let overrideCtx ← make (.map ∅)
      let (result, recorder) ← applyInContext lib jsonData info paramOverride overrideCtx
      finish lib info overrideCtx recorder
      return result

end

/-! ## What a run leaves behind -/

section
variable {base context a : ℕ} {w₀ w : World}

/-- The recorder, if there is one, is not below the address. -/
def RecorderFrom (base : ℕ) (recorder : Option ℕ) : Prop := ∀ a, recorder = some a → base ≤ a

theorem fieldsAt_updateLines {f : List String → List String} {b : ℕ} :
    (w.updateAt a (Cell.updateLines f)).fieldsAt b = w.fieldsAt b := by
  unfold World.fieldsAt World.updateAt
  by_cases hab : a = b
  · rw [hab, List.getElem?_modify_eq]
    cases w.cells[b]? with
    | none => rfl
    | some c =>
      cases c with
      | map fields => rfl
      | list items => rfl
      | recorder lines => rfl
  · rw [List.getElem?_modify_ne _ _ hab]

theorem keeps_updateLines {f : List String → List String} (ha : base ≤ a) :
    Keeps (InContext base w₀ context) (modify fun w => w.updateAt a (Cell.updateLines f) : Run Unit)
      fun _ => True := by
  refine Keeps.modify (fun w hw => hw.updateAt ha fun key b hb => ?_) trivial
  rw [fieldsAt_updateLines] at hb
  exact hw.refs key b hb

variable {Body : Type} {lib : OverrideLib Body} {recorder : Option ℕ}

theorem keeps_getParamOverrideAuditRecorder :
    Keeps (InContext base w₀ context) (getParamOverrideAuditRecorder context) (RecorderFrom base) := by
  have hnone : RecorderFrom base none := fun a h => by cases h
  unfold getParamOverrideAuditRecorder
  refine Keeps.get.bind fun w hw => ?_
  split
  next a ha =>
    split
    · refine Keeps.pure fun b hb => ?_
      rw [← Option.some.inj hb]
      exact hw.refs _ a ha
    · exact Keeps.pure hnone
  next => exact Keeps.pure hnone

theorem keeps_recordOperation {mode path opFrom opTo : String} {value : Json} (hr : RecorderFrom base recorder) :
    Keeps (InContext base w₀ context) (recordOperation lib recorder mode path opFrom opTo value) fun _ => True := by
  cases recorder with
  | none => exact Keeps.pure trivial
  | some a =>
    unfold recordOperation
    dsimp only
    split
    · exact Keeps.pure trivial
    · exact keeps_updateLines (hr a rfl)

theorem keeps_recordValue {mode path : String} {value : Val} (hr : RecorderFrom base recorder) :
    Keeps (InContext base w₀ context) (recordValue lib recorder mode path value) fun _ => True :=
  Keeps.get.bind fun _ _ => keeps_recordOperation hr

theorem keeps_recordAt {mode : PathMode} {op : ParamOperation} {value : Json} {result : Body} {path : String}
    (hr : RecorderFrom base recorder) :
    Keeps (InContext base w₀ context) (recordAt lib recorder mode op value result path) fun _ => True := by
  unfold recordAt
  split
  · exact Keeps.pure trivial
  · split
    · exact Keeps.pure trivial
    · exact keeps_recordOperation hr
  all_goals exact keeps_recordOperation hr

theorem keeps_applyAt {mode : PathMode} {op : ParamOperation} {contextJSON : Option Body} {result : Body}
    {path : String} (hr : RecorderFrom base recorder) :
    Keeps (InContext base w₀ context) (applyAt lib recorder mode op contextJSON result path) fun _ => True := by
  unfold applyAt
  refine Keeps.get.bind fun w _ => keeps_liftText.bind fun next _ => ?_
  refine (keeps_recordAt hr).bind fun _ _ => ?_
  exact Keeps.pure trivial

theorem keeps_inOperation {α : Type} {mode : String} {x : Run α} {Q : α → Prop}
    (h : Keeps (InContext base w₀ context) x Q) : Keeps (InContext base w₀ context) (inOperation mode x) Q :=
  h.tryCatch fun _ => Keeps.throw

theorem keeps_marshalContextJSON :
    Keeps (InContext base w₀ context) (marshalContextJSON lib context) fun _ => True :=
  Keeps.get.bind fun _ _ => keeps_liftText

theorem keeps_onHeaders {op : ParamOperation} {edit record : Run Unit}
    (hedit : Keeps (InContext base w₀ context) edit fun _ => True)
    (hrecord : Keeps (InContext base w₀ context) record fun _ => True) :
    Keeps (InContext base w₀ context) (onHeaders lib op context edit record) fun _ => True :=
  keeps_inOperation (hedit.bind fun _ _ => hrecord.bind fun _ _ => keeps_marshalContextJSON)

theorem keeps_readSyncTargetValue {jsonStr : Body} {target : SyncTarget} :
    Keeps (InContext base w₀ context) (readSyncTargetValue lib jsonStr context target) fun _ => True := by
  cases target with
  | json key =>
    unfold readSyncTargetValue
    dsimp only
    split
    all_goals exact Keeps.pure trivial
  | header key =>
    unfold readSyncTargetValue
    dsimp only
    refine keeps_getHeaderValueFromContext.bind fun value _ => ?_
    cases value with
    | none => exact Keeps.pure trivial
    | some value => exact Keeps.pure trivial

theorem keeps_writeSyncTargetValue {jsonStr : Body} {target : SyncTarget} {value : Json} :
    Keeps (InContext base w₀ context) (writeSyncTargetValue lib jsonStr context target value) fun _ => True := by
  cases target with
  | json key => exact keeps_liftText
  | header key =>
    exact (keeps_load value).bind fun _ _ => keeps_setHeaderOverrideInContext.bind fun _ _ => Keeps.pure trivial

theorem keeps_syncFieldsBetweenTargets {jsonStr : Body} {fromSpec toSpec : String} :
    Keeps (InContext base w₀ context) (syncFieldsBetweenTargets lib jsonStr context fromSpec toSpec)
      fun _ => True := by
  unfold syncFieldsBetweenTargets
  refine keeps_liftText.bind fun _ _ => keeps_liftText.bind fun _ _ => ?_
  refine keeps_readSyncTargetValue.bind fun _ _ => keeps_readSyncTargetValue.bind fun _ _ => ?_
  split
  · exact keeps_writeSyncTargetValue
  · exact keeps_writeSyncTargetValue
  · exact Keeps.pure trivial

theorem keeps_headersOnly {op : ParamOperation} {result : Body} {edit record : Run Unit}
    (hedit : Keeps (InContext base w₀ context) edit fun _ => True)
    (hrecord : Keeps (InContext base w₀ context) record fun _ => True) :
    Keeps (InContext base w₀ context) (do
      let contextJSON ← onHeaders lib op context edit record
      return (result, contextJSON)) fun _ => True :=
  (keeps_onHeaders hedit hrecord).bind fun _ _ => Keeps.pure trivial

theorem keeps_applyMode {op : ParamOperation} {result : Body} {contextJSON : Option Body} {mode : Mode}
    (hr : RecorderFrom base recorder) :
    Keeps (InContext base w₀ context) (applyMode lib context recorder op result contextJSON mode) fun _ => True := by
  unfold applyMode
  cases mode with
  | atPaths mode =>
    refine keeps_liftText.bind fun opPaths _ => ?_
    have hpaths : Keeps (InContext base w₀ context)
        (inOperation op.mode (opPaths.foldlM (applyAt lib recorder mode op contextJSON) result)) fun _ => True :=
      keeps_inOperation (Keeps.foldlM trivial fun _ _ _ => keeps_applyAt hr)
    exact hpaths.bind fun _ _ => Keeps.pure trivial
  | move =>
    refine (keeps_inOperation keeps_liftText).bind fun _ _ => ?_
    refine (keeps_recordOperation hr).bind fun _ _ => ?_
    exact Keeps.pure trivial
  | copy =>
    dsimp only
    split
    · exact Keeps.throw_bind
    · refine (keeps_inOperation keeps_liftText).bind fun _ _ => ?_
      exact (keeps_recordOperation hr).bind fun _ _ => Keeps.pure trivial
  | returnError =>
    refine (keeps_recordValue hr).bind fun _ _ => Keeps.get.bind fun w _ => ?_
    exact keeps_liftText.bind fun _ _ => Keeps.throw
  | setHeader => exact keeps_headersOnly keeps_setHeaderOverrideInContext (keeps_recordValue hr)
  | deleteHeader => exact keeps_headersOnly keeps_deleteHeaderOverrideInContext (keeps_recordOperation hr)
  | copyHeader =>
    exact keeps_headersOnly (keeps_ignoreMissingHeader keeps_copyHeaderInContext) (keeps_recordOperation hr)
  | moveHeader =>
    exact keeps_headersOnly (keeps_ignoreMissingHeader keeps_moveHeaderInContext) (keeps_recordOperation hr)
  | passHeaders =>
    refine Keeps.get.bind fun w _ => keeps_liftText.bind fun headerNames _ => ?_
    exact keeps_headersOnly (Keeps.forM fun _ => keeps_ignoreMissingHeader keeps_copyHeaderInContext)
      (keeps_recordOperation hr)
  | syncFields =>
    refine keeps_inOperation (keeps_syncFieldsBetweenTargets.bind fun _ _ => ?_)
    refine (keeps_recordOperation hr).bind fun _ _ => ?_
    exact keeps_marshalContextJSON.bind fun _ _ => Keeps.pure trivial

theorem keeps_applyOperation {state : Body × Option Body} {op : ParamOperation} (hr : RecorderFrom base recorder) :
    Keeps (InContext base w₀ context) (applyOperation lib context recorder state op) fun _ => True := by
  unfold applyOperation
  refine keeps_liftText.bind fun ok _ => ?_
  split
  · exact Keeps.pure trivial
  · split
    · exact Keeps.throw
    · exact keeps_applyMode hr

theorem keeps_applyOperations {jsonStr : Body} {operations : List ParamOperation} :
    Keeps (InContext base w₀ context) (applyOperations lib jsonStr operations context) fun _ => True := by
  unfold applyOperations
  refine keeps_getParamOverrideAuditRecorder.bind fun recorder hr => Keeps.get.bind fun w _ => ?_
  refine keeps_liftText.bind fun contextJSON _ => ?_
  exact (Keeps.foldlM trivial fun _ _ _ => keeps_applyOperation hr).bind fun _ _ => Keeps.pure trivial
theorem keeps_loadFields (fields : List (String × Json)) :
    Keeps (InContext base w₀ context) (loadFields fields) fun _ => True := by
  induction fields with
  | nil => exact Keeps.pure trivial
  | cons f fields ih =>
    obtain ⟨key, child⟩ := f
    unfold loadFields
    exact (keeps_load child).bind fun _ _ => ih.bind fun _ _ => Keeps.pure trivial

theorem keeps_make_other (c : Cell) :
    Keeps (InContext base w₀ context) (make c) fun a => base ≤ a ∧ a ≠ context :=
  keeps_iff.2 fun _ hw => ⟨hw.append c, hw.kept.le_length, Nat.ne_of_gt hw.lt_length⟩

theorem keeps_assign_other {key : String} {value : Val} (ha : base ≤ a) (hne : a ≠ context) :
    Keeps (InContext base w₀ context) (assign a key value) fun _ => True := by
  refine Keeps.modify (fun w hw => hw.updateAt ha fun key' b hb => ?_) trivial
  have hsame : (w.updateAt a (Cell.updateFields fun fields => fields.insert key value)).fieldsAt context =
      w.fieldsAt context := by
    unfold World.fieldsAt World.updateAt
    rw [List.getElem?_modify_ne _ _ hne]
  rw [hsame] at hb
  exact hw.refs key' b hb

theorem keeps_applyOperationsLegacy {jsonData : Body} {paramOverride : List (String × Val)}
    (hr : RecorderFrom base recorder) :
    Keeps (InContext base w₀ context) (applyOperationsLegacy lib jsonData paramOverride recorder) fun _ => True := by
  unfold applyOperationsLegacy
  refine keeps_liftText.bind fun body _ => ?_
  split
  next fields =>
    refine (keeps_loadFields fields).bind fun _ _ => (keeps_make_other _).bind fun reqMap hreq => ?_
    refine (Keeps.forM fun f => ?_).bind fun _ _ => Keeps.get.bind fun w _ => keeps_liftText
    exact (keeps_assign_other hreq.1 hreq.2).bind fun _ _ => keeps_recordValue hr
  next =>
    split
    · exact keeps_liftText
    · exact Keeps.throw
  next => exact Keeps.throw

theorem keeps_applyParamOverride {jsonData : Body} {paramOverride : ℕ} :
    Keeps (InContext base w₀ context) (applyParamOverride lib jsonData paramOverride context) fun _ => True := by
  unfold applyParamOverride
  refine Keeps.get.bind fun w _ => ?_
  split
  · exact Keeps.pure trivial
  · refine keeps_getParamOverrideAuditRecorder.bind fun recorder hr => ?_
    split
    next operations =>
      dsimp only
      split
      · exact keeps_applyOperations
      · exact (keeps_applyOperationsLegacy hr).bind fun _ _ => keeps_applyOperations
    next => exact keeps_applyOperationsLegacy hr

/-! ## The call -/

/-- The values that an assignment may put into a map of the context. -/
def Leaf (value : Val) : Prop := ∀ a, value ≠ .ref a

theorem keeps_assignAll {fields : List (String × Val)} (ha : base ≤ a) (hleaf : ∀ f ∈ fields, Leaf f.2) :
    Keeps (InContext base w₀ context) (assignAll a fields) fun _ => True := by
  unfold assignAll
  induction fields with
  | nil => exact Keeps.pure trivial
  | cons f fields ih =>
    rw [List.forall_mem_cons] at hleaf
    exact (keeps_assign ha fun b hb => absurd hb (hleaf.1 b)).bind fun _ _ => ih hleaf.2

theorem keeps_makeMap {fields : List (String × Val)} (hleaf : ∀ f ∈ fields, Leaf f.2) :
    Keeps (InContext base w₀ context) (makeMap fields) (base ≤ ·) := by
  unfold makeMap
  refine (keeps_make _).bind fun a ha => ?_
  exact (keeps_assignAll ha hleaf).bind fun _ _ => Keeps.pure ha

theorem keeps_assign_ref {key : String} {b : ℕ} (ha : base ≤ a) (hb : base ≤ b) :
    Keeps (InContext base w₀ context) (assign a key (.ref b)) fun _ => True := by
  refine keeps_assign ha fun c hc => ?_
  cases hc
  exact hb

theorem leaf_requestFields {info : RelayInfo} : ∀ f ∈ requestFields info, Leaf f.2 := by
  have hleaf : ∀ s b, string s ≠ .ref b := fun s b h => by cases h
  intro f hf b
  unfold requestFields at hf
  dsimp only at hf
  rw [List.mem_append, List.mem_append] at hf
  obtain (hf | hf) | hf := hf
  · split at hf
    · cases hf
    · obtain rfl | rfl := by simpa using hf
      · exact hleaf _ b
      · exact hleaf _ b
  · split at hf
    · cases hf
    · split at hf
      · obtain rfl | rfl := by simpa using hf
        · exact hleaf _ b
        · exact hleaf _ b
      · rw [List.mem_singleton.1 hf]
        exact hleaf _ b
  · split at hf
    · cases hf
    · rw [List.mem_singleton.1 hf]
      exact hleaf _ b

theorem keeps_fillParamOverrideContext {info : RelayInfo} (hctx : base ≤ context) :
    Keeps (InContext base w₀ context) (fillParamOverrideContext lib context info) fun _ => True := by
  have hall : ∀ l : List (String × Scalar), ∀ f ∈ l.map fun f => (f.1, Val.leaf f.2), Leaf f.2 := by
    intro l f hf b hb
    obtain ⟨g, -, rfl⟩ := List.mem_map.1 hf
    cases hb
  unfold fillParamOverrideContext
  refine (keeps_assignAll hctx leaf_requestFields).bind fun _ _ => ?_
  refine keeps_buildRequestHeadersContext.bind fun requestHeaders hrequest => ?_
  refine (keeps_assign_ref hctx hrequest).bind fun _ _ => ?_
  refine keeps_getEffectiveHeaderOverride.bind fun source _ => ?_
  refine keeps_sanitizeHeaderOverrideMap.bind fun headerOverride hheader => ?_
  refine (keeps_assign_ref hctx hheader).bind fun _ _ => ?_
  refine (keeps_assignAll hctx (hall [("retry_index", .number info.retryIndex), ("is_retry", .bool (0 < info.retryIndex))])).bind
    fun _ _ => ?_
  refine (keeps_makeMap (hall [("index", .number info.retryIndex), ("is_retry", .bool (0 < info.retryIndex))])).bind
    fun retry hretry => ?_
  refine (keeps_assign_ref hctx hretry).bind fun _ _ => ?_
  have hlast : Keeps (InContext base w₀ context) (assign context "is_channel_test" (bool info.isChannelTest))
      fun _ => True := keeps_assign_leaf hctx
  split
  next => exact hlast
  next e _ =>
    refine (keeps_makeMap (hall [("status_code", .number e.statusCode), ("message", .string e.message),
      ("code", .string e.code), ("error_code", .string e.code), ("type", .string e.errorType),
      ("error_type", .string e.errorType), ("skip_retry", .bool e.skipRetry)])).bind fun lastError hlastError => ?_
    refine (keeps_assign_ref hctx hlastError).bind fun _ _ => ?_
    exact (keeps_assignAll hctx (hall [("last_error_status_code", .number e.statusCode),
      ("last_error_message", .string e.message), ("last_error_code", .string e.code),
      ("last_error_type", .string e.errorType)])).bind fun _ _ => hlast

theorem keeps_applyInContext {jsonData : Body} {info : RelayInfo} {paramOverride : ℕ} (hctx : base ≤ context) :
    Keeps (InContext base w₀ context) (applyInContext lib jsonData info paramOverride context) fun _ => True := by
  unfold applyInContext
  refine (keeps_fillParamOverrideContext hctx).bind fun _ _ => Keeps.get.bind fun w _ => ?_
  dsimp only
  split
  · refine (keeps_make _).bind fun recorder hr => (keeps_assign_ref hctx hr).bind fun _ _ => ?_
    exact keeps_applyParamOverride.bind fun _ _ => Keeps.pure trivial
  · exact keeps_applyParamOverride.bind fun _ _ => Keeps.pure trivial

/-- What a call leaves of a world that it has not written to: the info, and each cell that there was. -/
structure Untouched (w₀ w : World) : Prop where
  info : w.info = w₀.info
  cells : ∀ a < w₀.cells.length, w.cells[a]? = w₀.cells[a]?

theorem inCall_make : InCall w₀ w₀.cells.length { w₀ with cells := w₀.cells ++ [.map ∅] } where
  kept := Kept.refl.append _
  info := rfl
  base_le := Nat.le_refl _
  lt_length := by
    rw [List.length_append]
    exact Nat.lt_succ_self _
  refs key a ha := by
    have hempty : ({ w₀ with cells := w₀.cells ++ [Cell.map ∅] } : World).fieldsAt w₀.cells.length = ∅ := by
      simp only [World.fieldsAt, List.getElem?_concat_length]
    rw [hempty, AList.lookup_empty] at ha
    cases ha

theorem finish_succeeds {P E : World → Prop} {info : RelayInfo} :
    Triple P (finish lib info context recorder) (fun _ _ => True) E := by
  unfold finish
  refine Triple.bind (Q := fun _ _ => True) ?_ fun info => Triple.modify fun _ _ => trivial
  unfold syncRuntimeHeaderOverrideFromContext
  refine Triple.bind (Q := fun _ _ => True) (Triple.get fun _ _ => trivial) fun w => ?_
  split
  · exact Triple.pure fun _ _ => trivial
  · refine Triple.bind (Q := fun _ _ => True) ?_ fun headers => Triple.pure fun _ _ => trivial
    unfold sanitizeHeaderOverrideMap
    exact Triple.bind (Q := fun _ _ => True) (Triple.get fun _ _ => trivial) fun w _ _ => trivial

theorem triple_applyInContext {jsonData : Body} {info : RelayInfo} {paramOverride ctx : ℕ} :
    Triple (fun w => ctx = w₀.cells.length ∧ InCall w₀ ctx w) (applyInContext lib jsonData info paramOverride ctx)
      (fun _ _ => True) (Untouched w₀) := by
  rintro w ⟨rfl, hw⟩
  have hkeeps := keeps_iff.1 (@keeps_applyInContext w₀.cells.length w₀.cells.length w₀ Body lib jsonData info
    paramOverride (Nat.le_refl w₀.cells.length)) w hw
  generalize outcome (applyInContext lib jsonData info paramOverride w₀.cells.length) w = r at hkeeps
  obtain ⟨e | r, w'⟩ := r
  · exact ⟨InContext.info hkeeps, (InContext.kept hkeeps).same⟩
  · trivial

theorem triple_applyParamOverrideWithRelayInfo (lib : OverrideLib Body) (jsonData : Body) :
    Triple (· = w₀) (applyParamOverrideWithRelayInfo lib jsonData) (fun _ _ => True) (Untouched w₀) := by
  unfold applyParamOverrideWithRelayInfo
  refine Triple.bind (Q := fun w w' => w = w₀ ∧ w' = w₀) (Triple.get fun _ hs => ⟨hs, hs⟩) fun w => ?_
  have hreturn : Triple (fun w' => w = w₀ ∧ w' = w₀) (pure jsonData : Run Body) (fun _ _ => True) (Untouched w₀) :=
    Triple.pure fun _ _ => trivial
  split
  · exact hreturn
  · split
    · exact hreturn
    · split
      · exact hreturn
      · refine Triple.bind (Q := fun ctx w' => ctx = w₀.cells.length ∧ InCall w₀ ctx w') ?_ fun ctx => ?_
        · rintro w' ⟨-, rfl⟩
          exact ⟨rfl, inCall_make⟩
        · refine Triple.bind triple_applyInContext fun r => ?_
          exact Triple.bind (Q := fun _ _ => True) finish_succeeds fun _ => Triple.pure fun _ _ => trivial

/-- An override that fails leaves the info and all that it refers to as they were. -/
theorem applyParamOverrideWithRelayInfo_error (lib : OverrideLib Body) (jsonData : Body) (w₀ w : World)
    (e : OverrideError) (h : outcome (applyParamOverrideWithRelayInfo lib jsonData) w₀ = (.error e, w)) :
    Untouched w₀ w := by
  have hrun := triple_applyParamOverrideWithRelayInfo lib jsonData w₀ rfl
  rw [h] at hrun
  exact hrun

end

/-! ## A run -/

/-- What the run below needs of the library, on strings. -/
def exampleLib : OverrideLib Json where
  get d path := d.at? (GoString.split '.' path)
  set d path v := ((d.setAt .null (GoString.split '.' path) v).elim (.error path) .ok)
  delete d path := .ok (d.deleteAt (GoString.split '.' path))
  unmarshal := .ok
  float := some
  marshal := .ok
  result d path := (d.at? (GoString.split '.' path)).map fun c => (c, c)
  setRaw d path v := ((d.setAt .null (GoString.split '.' path) v).elim (.error path) .ok)
  resultString
    | .leaf (.string s) => s
    | _ => ""
  sprint
    | .leaf (.string s) => s
    | _ => ""
  toLower := GoString.toLower
  toUpper := id
  replaceAll s _ _ := s
  equalFold s t := GoString.toLower s = GoString.toLower t
  regexReplace _ s _ := .ok s
  jsonString _ := ""
  parse s := .error s
  mismatch _ := "json: cannot unmarshal"
  debugEnabled := false

/-- A channel whose override sets a header, then blocks the request. -/
def exampleWorld : World where
  cells := [
    .map ((∅ : Fields).insert "x-trace" (string "0")),
    .map (((∅ : Fields).insert "mode" (string "set_header")).insert "path" (string "X-Trace") |>.insert "value" (string "1")),
    .map (((∅ : Fields).insert "mode" (string "return_error")).insert "value" (string "blocked")),
    .list [.ref 1, .ref 2],
    .map ((∅ : Fields).insert "operations" (.ref 3))]
  info := some {
    channelMeta := some { paramOverride := some 4, headersOverride := some 0, upstreamModelName := "m" }
    originModelName := "m"
    requestURLPath := "/v1/chat/completions"
    requestHeaders := none
    retryIndex := 0
    lastError := none
    isChannelTest := false
    runtimeHeadersOverride := none
    useRuntimeHeadersOverride := false
    paramOverrideAudit := [] }

theorem applyParamOverrideWithRelayInfo_error_blocked :
    ∃ w, outcome (applyParamOverrideWithRelayInfo exampleLib (.object [])) exampleWorld =
        (.error (.returnError {
          message := "blocked"
          statusCode := 400
          code := "invalid_request"
          errorType := "invalid_request_error"
          skipRetry := true }), w) ∧ Untouched exampleWorld w :=
  ⟨_, rfl, applyParamOverrideWithRelayInfo_error exampleLib (.object []) exampleWorld _ _ rfl⟩

end Apply

end Override

end NewApi

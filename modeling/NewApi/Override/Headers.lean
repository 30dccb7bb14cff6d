import NewApi.Lib.Cells
import NewApi.Override.Prune
import Mathlib.Data.List.AList

/-!
# The headers in the context of an override

An override is applied with a context: a map that is made for the call, with the maps of the request's headers and of the
headers that override them in it. The operations on headers write these maps. Maps and slices of Go are references, so
they are cells here, and a value is an address or holds no others.

The operations write only cells that were made after the context (`keeps_setHeaderOverrideInContext` and so on), because
the context refers to no others (`InContext`).
-/

namespace NewApi

namespace Override

open Cells

/-- A value of Go. -/
inductive Val
  | leaf (a : Scalar)
  | ref (a : ℕ)
  deriving DecidableEq

abbrev Fields := AList fun _ : String => Val

/-- What a value refers to: a map, a slice, or a recorder of the audit. -/
inductive Cell
  | map (fields : Fields)
  | list (items : List Val)
  | recorder (lines : List String)

structure ChannelMeta where
  paramOverride : Option ℕ
  headersOverride : Option ℕ
  upstreamModelName : String

structure LastError where
  statusCode : ℤ
  message : String
  code : String
  errorType : String
  skipRetry : Bool

/-- The part of a request's info that an override reads and writes. A map that is nil has no address. -/
structure RelayInfo where
  channelMeta : Option ChannelMeta
  originModelName : String
  requestURLPath : String
  requestHeaders : Option ℕ
  retryIndex : ℤ
  lastError : Option LastError
  isChannelTest : Bool
  runtimeHeadersOverride : Option ℕ
  useRuntimeHeadersOverride : Bool
  paramOverrideAudit : List String

structure World where
  cells : List Cell
  info : Option RelayInfo

structure ParamOverrideReturnError where
  message : String
  statusCode : ℤ
  code : String
  errorType : String
  skipRetry : Bool

/-- Why an override fails. A map that is nil cannot be written: this is a panic. -/
inductive OverrideError
  | text (message : String)
  | sourceHeaderNotFound (header : String)
  | returnError (e : ParamOverrideReturnError)
  | operationFailed (mode : String) (e : OverrideError)
  | nilMap

abbrev Run := ExceptT OverrideError (StateM World)

/-- What an override uses besides: strings, regular expressions, and values of Go as texts. -/
structure OverrideLib (Body : Type) extends PruneLib Body, TextLib where
  equalFold : String → String → Bool
  /-- The pattern, the string and what its matches become. -/
  regexReplace : String → String → String → Except String String
  /-- `common.GetJsonString`. -/
  jsonString : Json → String
  /-- `common.UnmarshalJsonStr`, into any value. -/
  parse : String → Except String Json
  /-- The error of reading a document into a map that is none. -/
  mismatch : Json → String
  debugEnabled : Bool

/-! ## Cells -/

def World.fieldsAt (w : World) (a : ℕ) : Fields :=
  match w.cells[a]? with
  | some (.map fields) => fields
  | _ => ∅

/-- The fields of a map that may be nil. -/
def World.fieldsOf (w : World) (a : Option ℕ) : Fields := (a.map w.fieldsAt).getD ∅

/-- The address of a map. -/
def World.map? (w : World) : Option Val → Option ℕ
  | some (.ref a) =>
    match w.cells[a]? with
    | some (.map _) => some a
    | _ => none
  | _ => none

/-- What a value refers to, as a document; the number bounds how deep it is. -/
def World.read (w : World) : ℕ → Val → Json
  | _, .leaf a => .leaf a
  | 0, .ref _ => .leaf .null
  | depth + 1, .ref a =>
    match w.cells[a]? with
    | some (.map fields) => .object (fields.entries.map fun f => (f.1, w.read depth f.2))
    | some (.list items) => .array (items.map (w.read depth))
    | some (.recorder _) => .object []
    | none => .leaf .null

/-- A value as a document. What refers to itself nowhere is no deeper than there are cells. -/
def World.value (w : World) (v : Val) : Json := (w.read (w.cells.length + 1) v).canon

/-- `make`. -/
def make (c : Cell) : Run ℕ := do
  let w ← get
  set { w with cells := w.cells ++ [c] }
  return w.cells.length

def Cell.updateFields (f : Fields → Fields) : Cell → Cell
  | .map fields => .map (f fields)
  | c => c

def Cell.updateLines (f : List String → List String) : Cell → Cell
  | .recorder lines => .recorder (f lines)
  | c => c

def World.updateAt (w : World) (a : ℕ) (f : Cell → Cell) : World := { w with cells := w.cells.modify a f }

/-- `m[key] = value`. -/
def assign (a : ℕ) (key : String) (value : Val) : Run Unit :=
  modify fun w => w.updateAt a (Cell.updateFields fun fields => fields.insert key value)

/-- `delete(m, key)`. -/
def deleteKey (a : ℕ) (key : String) : Run Unit :=
  modify fun w => w.updateAt a (Cell.updateFields fun fields => fields.erase key)

mutual

/-- What has been read of a text, as a new value. -/
def load : Json → Run Val
  | .leaf a => return .leaf a
  | .array items => do
    let vals ← loadItems items
    return .ref (← make (.list vals))
  | .object fields => do
    let result ← loadFields fields
    return .ref (← make (.map result))

def loadItems : List Json → Run (List Val)
  | [] => return []
  | item :: items => do
    let val ← load item
    let vals ← loadItems items
    return val :: vals

def loadFields : List (String × Json) → Run Fields
  | [] => return ∅
  | (key, child) :: fields => do
    let val ← load child
    let result ← loadFields fields
    return result.insert key val

end

/-- An error that is a text. -/
def liftText {α : Type} (x : Except String α) : Run α := lift (x.mapError .text)

/-! ## Headers -/

def requestHeadersKey : String := "request_headers"

def headerOverrideKey : String := "header_override"

def string (s : String) : Val := .leaf (.string s)

section
variable {Body : Type} (lib : OverrideLib Body)

def normalizeHeaderContextKey (key : String) : String := GoString.trimSpace (lib.toLower key)

/-- `fmt.Sprintf("%v", value)` without the white space around it. -/
def sprintTrimmed (w : World) (value : Val) : String := GoString.trimSpace (lib.sprint (w.value value))

def ensureMapKeyInContext (context : ℕ) (key : String) : Run ℕ := do
  let w ← get
  match w.map? ((w.fieldsAt context).lookup key) with
  | some a => return a
  | none =>
    let result ← make (.map ∅)
    assign context key (.ref result)
    return result

/-- The value of a header in one of the two maps. -/
def headerValueIn (context : ℕ) (headerName key : String) : Run (Option String) := do
  let source ← ensureMapKeyInContext context key
  let w ← get
  match (w.fieldsAt source).lookup headerName with
  | none => return none
  | some raw =>
    let value := sprintTrimmed lib w raw
    return if value = "" then none else some value

def getHeaderValueFromContext (context : ℕ) (headerName : String) : Run (Option String) :=
  let headerName := normalizeHeaderContextKey lib headerName
  if headerName = "" then return none
  else do
    match ← headerValueIn lib context headerName headerOverrideKey with
    | some value => return some value
    | none => headerValueIn lib context headerName requestHeadersKey

def splitHeaderListValue (raw : String) : List String :=
  ((GoString.split ',' raw).map GoString.trimSpace).filter (· ≠ "")

mutual

def parseHeaderReplacementTokens (value : Json) : Except String (List String) :=
  match value with
  | .leaf .null => .ok []
  | .leaf (.string raw) => .ok (splitHeaderListValue raw)
  | .leaf a =>
    let token := GoString.trimSpace (lib.sprint (.leaf a))
    .ok (if token = "" then [] else [token])
  | .array items =>
    match parseReplacementItems items with
    | .error e => .error e
    | .ok tokens => .ok tokens.eraseDups
  | .object _ => .error "header replacement value must be string, array or null"

def parseReplacementItems (items : List Json) : Except String (List String) :=
  match items with
  | [] => .ok []
  | item :: items =>
    match parseHeaderReplacementTokens item with
    | .error e => .error e
    | .ok tokens =>
      match parseReplacementItems items with
      | .error e => .error e
      | .ok rest => .ok (tokens ++ rest)

end

def parseHeaderAppendTokens (mapping : List (String × Json)) : Except String (List String) :=
  match Doc.field? mapping "$append" with
  | none => .ok []
  | some appendRaw => parseHeaderReplacementTokens lib appendRaw

/-- The tokens that a token of the header becomes. -/
def replaceToken (mapping : List (String × Json)) (keepOnlyDeclared : Bool) (token : String) :
    Except String (List String) :=
  match Doc.field? mapping token with
  | some replacementRaw => parseHeaderReplacementTokens lib replacementRaw
  | none =>
    if keepOnlyDeclared then .ok []
    else
      match Doc.field? mapping "*" with
      | some wildcardValue => parseHeaderReplacementTokens lib wildcardValue
      | none => .ok [token]

def resolveHeaderOverrideValueByMapping (context : ℕ) (headerName : String) (mapping : List (String × Json)) :
    Run (Option String) := do
  if mapping = [] then throw (.text "header value mapping cannot be empty")
  let appendTokens ← liftText (parseHeaderAppendTokens lib mapping)
  let keepOnlyDeclared := boolField mapping "$keep_only_declared" false
  let sourceValue ← getHeaderValueFromContext lib context headerName
  let sourceTokens := (sourceValue.map splitHeaderListValue).getD []
  let replaced ← liftText (sourceTokens.mapM (replaceToken lib mapping keepOnlyDeclared))
  let resultTokens := (replaced.flatten ++ appendTokens).eraseDups
  return if resultTokens = [] then none else some (GoString.join ',' resultTokens)

/-- The value that a header is set to, or none for a header that is to go. -/
def resolveHeaderOverrideValue (context : ℕ) (headerName : String) (value : Val) : Run (Option String) := do
  let w ← get
  match w.value value with
  | .leaf .null => throw (.text "header value is required")
  | .object mapping => resolveHeaderOverrideValueByMapping lib context headerName mapping
  | _ =>
    let headerValue := sprintTrimmed lib w value
    return if headerValue = "" then none else some headerValue

def setHeaderOverrideInContext (context : ℕ) (headerName : String) (value : Val) (keepOrigin : Bool) : Run Unit := do
  let headerName := normalizeHeaderContextKey lib headerName
  if headerName = "" then throw (.text "header name is required")
  let rawHeaders ← ensureMapKeyInContext context headerOverrideKey
  let w ← get
  if keepOrigin ∧ ((w.fieldsAt rawHeaders).lookup headerName).any (sprintTrimmed lib w · ≠ "") then return ()
  match ← resolveHeaderOverrideValue lib context headerName value with
  | none => deleteKey rawHeaders headerName
  | some headerValue => assign rawHeaders headerName (string headerValue)

def deleteHeaderOverrideInContext (context : ℕ) (headerName : String) : Run Unit := do
  let headerName := normalizeHeaderContextKey lib headerName
  if headerName = "" then throw (.text "header name is required")
  let rawHeaders ← ensureMapKeyInContext context headerOverrideKey
  deleteKey rawHeaders headerName

def copyHeaderInContext (context : ℕ) (fromHeader toHeader : String) (keepOrigin : Bool) : Run Unit := do
  let fromHeader := normalizeHeaderContextKey lib fromHeader
  let toHeader := normalizeHeaderContextKey lib toHeader
  if fromHeader = "" ∨ toHeader = "" then throw (.text "copy_header from/to is required")
  match ← getHeaderValueFromContext lib context fromHeader with
  | none => throw (.sourceHeaderNotFound fromHeader)
  | some value => setHeaderOverrideInContext lib context toHeader (string value) keepOrigin

def moveHeaderInContext (context : ℕ) (fromHeader toHeader : String) (keepOrigin : Bool) : Run Unit := do
  let fromHeader := normalizeHeaderContextKey lib fromHeader
  let toHeader := normalizeHeaderContextKey lib toHeader
  if fromHeader = "" ∨ toHeader = "" then throw (.text "move_header from/to is required")
  copyHeaderInContext lib context fromHeader toHeader keepOrigin
  if lib.equalFold fromHeader toHeader then return ()
  deleteHeaderOverrideInContext lib context fromHeader

/-- A header that is not there is no error of the operation. -/
def ignoreMissingHeader (x : Run Unit) : Run Unit :=
  tryCatch x fun
    | .sourceHeaderNotFound _ => pure ()
    | e => throw e

/-! ## The maps of the context -/

def isHeaderPassthroughRuleKeyForOverride (key : String) : Bool :=
  let key := GoString.trimSpace (lib.toLower key)
  key ≠ "" ∧ (key = "*" ∨ GoString.hasPrefix key "re:" ∨ GoString.hasPrefix key "regex:")

/-- The fields of the new map that `sanitizeHeaderOverrideMap` makes. -/
def sanitizedFields (w : World) (source : Fields) : Fields :=
  source.entries.foldl (fun target f =>
    let normalizedKey := normalizeHeaderContextKey lib f.1
    if normalizedKey = "" then target
    else
      let normalizedValue := sprintTrimmed lib w f.2
      if normalizedValue ≠ "" then target.insert normalizedKey (string normalizedValue)
      else if isHeaderPassthroughRuleKeyForOverride lib normalizedKey then target.insert normalizedKey (string "")
      else target) ∅

def sanitizeHeaderOverrideMap (source : Option ℕ) : Run ℕ := do
  let w ← get
  make (.map (sanitizedFields lib w (w.fieldsOf source)))

def buildRequestHeadersContext (headers : Option ℕ) : Run ℕ := do
  let w ← get
  make (.map ((w.fieldsOf headers).entries.foldl (fun target f =>
    let normalized := normalizeHeaderContextKey lib f.1
    let value := sprintTrimmed lib w f.2
    if normalized = "" ∨ value = "" then target else target.insert normalized (string value)) ∅))

def getEffectiveHeaderOverride (info : RelayInfo) : Run ℕ :=
  if info.useRuntimeHeadersOverride then sanitizeHeaderOverrideMap lib info.runtimeHeadersOverride
  else sanitizeHeaderOverrideMap lib (info.channelMeta.bind ChannelMeta.headersOverride)

end

/-! ## What is written -/

/-- Every cell below an address and the info are as they were, and the context and all that it refers to are not
below it. -/
structure InContext (base : ℕ) (w₀ : World) (context : ℕ) (w : World) : Prop where
  kept : Kept base w₀.cells w.cells
  info : w.info = w₀.info
  base_le : base ≤ context
  lt_length : context < w.cells.length
  refs : ∀ key a, (w.fieldsAt context).lookup key = some (.ref a) → base ≤ a

section
variable {base context a : ℕ} {w₀ w : World} {key : String} {value : Val}

theorem fieldsAt_append {c : Cell} {info : Option RelayInfo} (h : a < w.cells.length) :
    ({ cells := w.cells ++ [c], info := info } : World).fieldsAt a = w.fieldsAt a := by
  simp only [World.fieldsAt, List.getElem?_append_left h]

theorem fieldsAt_updateAt {f : Fields → Fields} {b : ℕ} :
    (w.updateAt a (Cell.updateFields f)).fieldsAt b = w.fieldsAt b ∨
      (w.updateAt a (Cell.updateFields f)).fieldsAt b = f (w.fieldsAt b) := by
  unfold World.fieldsAt World.updateAt
  by_cases hab : a = b
  · rw [hab, List.getElem?_modify_eq]
    cases w.cells[b]? with
    | none => exact .inl rfl
    | some c =>
      cases c with
      | map fields => exact .inr rfl
      | list items => exact .inl rfl
      | recorder lines => exact .inl rfl
  · rw [List.getElem?_modify_ne _ _ hab]
    exact .inl rfl

namespace InContext

variable (h : InContext base w₀ context w)
include h

theorem append (c : Cell) : InContext base w₀ context { w with cells := w.cells ++ [c] } where
  kept := h.kept.append c
  info := h.info
  base_le := h.base_le
  lt_length := by
    rw [List.length_append]
    exact Nat.lt_add_right _ h.lt_length
  refs key b hb := by
    rw [fieldsAt_append h.lt_length] at hb
    exact h.refs key b hb

theorem updateAt {f : Cell → Cell} (ha : base ≤ a)
    (hf : ∀ key b, ((w.updateAt a f).fieldsAt context).lookup key = some (.ref b) → base ≤ b) :
    InContext base w₀ context (w.updateAt a f) where
  kept := h.kept.modify ha f
  info := h.info
  base_le := h.base_le
  lt_length := by
    show context < (w.cells.modify a f).length
    rw [List.length_modify]
    exact h.lt_length
  refs := hf

theorem assign (ha : base ≤ a) (hv : ∀ b, value = .ref b → base ≤ b) :
    InContext base w₀ context (w.updateAt a (Cell.updateFields fun fields => fields.insert key value)) := by
  refine h.updateAt ha fun key' b hb => ?_
  rcases fieldsAt_updateAt (w := w) (a := a) (b := context) (f := fun fields => fields.insert key value) with heq | heq
  · rw [heq] at hb
    exact h.refs key' b hb
  · rw [heq] at hb
    by_cases hkey : key' = key
    · rw [hkey, AList.lookup_insert] at hb
      exact hv b (Option.some.inj hb)
    · rw [AList.lookup_insert_ne hkey] at hb
      exact h.refs key' b hb

theorem deleteKey (ha : base ≤ a) :
    InContext base w₀ context (w.updateAt a (Cell.updateFields fun fields => fields.erase key)) := by
  refine h.updateAt ha fun key' b hb => ?_
  rcases fieldsAt_updateAt (w := w) (a := a) (b := context) (f := fun fields => fields.erase key) with heq | heq
  · rw [heq] at hb
    exact h.refs key' b hb
  · rw [heq] at hb
    by_cases hkey : key' = key
    · rw [hkey, AList.lookup_erase] at hb
      cases hb
    · rw [AList.lookup_erase_ne hkey] at hb
      exact h.refs key' b hb

end InContext

/-- The invariant of a call that began in a world. -/
abbrev InCall (w₀ : World) (context : ℕ) : World → Prop := InContext w₀.cells.length w₀ context

theorem keeps_make (c : Cell) : Keeps (InContext base w₀ context) (make c) (base ≤ ·) :=
  keeps_iff.2 fun _ hw => ⟨hw.append c, hw.kept.le_length⟩

theorem keeps_assign (ha : base ≤ a) (hv : ∀ b, value = .ref b → base ≤ b) :
    Keeps (InContext base w₀ context) (assign a key value) fun _ => True :=
  Keeps.modify (fun _ hw => hw.assign ha hv) trivial

theorem keeps_assign_leaf {s : Scalar} (ha : base ≤ a) :
    Keeps (InContext base w₀ context) (assign a key (.leaf s)) fun _ => True :=
  keeps_assign ha fun _ h => by cases h

theorem keeps_deleteKey (ha : base ≤ a) :
    Keeps (InContext base w₀ context) (deleteKey a key) fun _ => True :=
  Keeps.modify (fun _ hw => hw.deleteKey ha) trivial

theorem keeps_liftText {α : Type} {x : Except String α} :
    Keeps (InContext base w₀ context) (liftText x) fun _ => True := Keeps.lift fun _ _ => trivial

end

section
variable {base context a : ℕ} {w₀ : World}

theorem keeps_load (d : Json) :
    Keeps (InContext base w₀ context) (load d) fun val => ∀ a, val = .ref a → base ≤ a := by
  have hleaf : ∀ (a : Scalar) (b : ℕ), Val.leaf a = .ref b → base ≤ b := fun _ _ h => by cases h
  have hnew : ∀ c, Keeps (InContext base w₀ context) (do return Val.ref (← make c)) fun val =>
      ∀ a, val = .ref a → base ≤ a := by
    intro c
    refine (keeps_make c).bind fun b hb => Keeps.pure fun a ha => ?_
    cases ha
    exact hb
  induction d using Doc.induct with
  | leaf a =>
    unfold load
    exact Keeps.pure (hleaf a)
  | array items ih =>
    have hitems : ∀ l : List Json, (∀ c ∈ l, c ∈ items) →
        Keeps (InContext base w₀ context) (loadItems l) fun _ => True := by
      intro l
      induction l with
      | nil => exact fun _ => Keeps.pure trivial
      | cons c l ihl =>
        intro hl
        rw [List.forall_mem_cons] at hl
        unfold loadItems
        exact (ih c hl.1).bind fun _ _ => (ihl hl.2).bind fun _ _ => Keeps.pure trivial
    unfold load
    exact (hitems items fun _ hc => hc).bind fun vals _ => hnew (.list vals)
  | object fields ih =>
    have hfields : ∀ l : List (String × Json), (∀ f ∈ l, f ∈ fields) →
        Keeps (InContext base w₀ context) (loadFields l) fun _ => True := by
      intro l
      induction l with
      | nil => exact fun _ => Keeps.pure trivial
      | cons f l ihl =>
        intro hl
        obtain ⟨key, child⟩ := f
        rw [List.forall_mem_cons] at hl
        unfold loadFields
        exact (ih _ hl.1).bind fun _ _ => (ihl hl.2).bind fun _ _ => Keeps.pure trivial
    unfold load
    exact (hfields fields fun _ hf => hf).bind fun result _ => hnew (.map result)

theorem map?_eq_some {w : World} {v : Option Val} (h : w.map? v = some a) : v = some (.ref a) := by
  unfold World.map? at h
  split at h
  · split at h
    · rw [Option.some.inj h]
    · cases h
  · cases h

theorem keeps_ensureMapKeyInContext (key : String) :
    Keeps (InContext base w₀ context) (ensureMapKeyInContext context key) (base ≤ ·) := by
  unfold ensureMapKeyInContext
  refine Keeps.get.bind fun w hw => ?_
  split
  next a ha => exact Keeps.pure (hw.refs key a (map?_eq_some ha))
  next =>
    refine (keeps_make _).bind fun result hresult => ?_
    refine (keeps_assign hw.base_le fun b hb => ?_).bind fun _ _ => Keeps.pure hresult
    cases hb
    exact hresult

variable {Body : Type} {lib : OverrideLib Body} {headerName fromHeader toHeader : String} {value : Val}
  {keepOrigin : Bool}

theorem keeps_headerValueIn {key : String} :
    Keeps (InContext base w₀ context) (headerValueIn lib context headerName key) fun _ => True := by
  unfold headerValueIn
  refine (keeps_ensureMapKeyInContext key).bind fun source _ => Keeps.get.bind fun w _ => ?_
  split
  · exact Keeps.pure trivial
  · exact Keeps.pure trivial

theorem keeps_getHeaderValueFromContext :
    Keeps (InContext base w₀ context) (getHeaderValueFromContext lib context headerName) fun _ => True := by
  unfold getHeaderValueFromContext
  dsimp only
  split
  · exact Keeps.pure trivial
  · refine keeps_headerValueIn.bind fun value _ => ?_
    cases value with
    | none => exact keeps_headerValueIn
    | some value => exact Keeps.pure trivial

theorem keeps_resolveHeaderOverrideValueByMapping {mapping : List (String × Json)} :
    Keeps (InContext base w₀ context) (resolveHeaderOverrideValueByMapping lib context headerName mapping)
      fun _ => True := by
  unfold resolveHeaderOverrideValueByMapping
  dsimp only
  split
  · exact Keeps.throw_bind
  · exact keeps_liftText.bind fun _ _ => keeps_getHeaderValueFromContext.bind fun _ _ =>
      keeps_liftText.bind fun _ _ => Keeps.pure trivial

theorem keeps_resolveHeaderOverrideValue :
    Keeps (InContext base w₀ context) (resolveHeaderOverrideValue lib context headerName value) fun _ => True := by
  unfold resolveHeaderOverrideValue
  refine Keeps.get.bind fun w _ => ?_
  split
  · exact Keeps.throw
  · exact keeps_resolveHeaderOverrideValueByMapping
  · exact Keeps.pure trivial

theorem keeps_setHeaderOverrideInContext :
    Keeps (InContext base w₀ context) (setHeaderOverrideInContext lib context headerName value keepOrigin)
      fun _ => True := by
  unfold setHeaderOverrideInContext
  dsimp only
  split
  · exact Keeps.throw_bind
  · refine (keeps_ensureMapKeyInContext _).bind fun rawHeaders hraw => Keeps.get.bind fun w _ => ?_
    split
    · exact Keeps.pure trivial
    · refine keeps_resolveHeaderOverrideValue.bind fun headerValue _ => ?_
      cases headerValue with
      | none => exact keeps_deleteKey hraw
      | some headerValue => exact keeps_assign_leaf hraw

theorem keeps_deleteHeaderOverrideInContext :
    Keeps (InContext base w₀ context) (deleteHeaderOverrideInContext lib context headerName) fun _ => True := by
  unfold deleteHeaderOverrideInContext
  dsimp only
  split
  · exact Keeps.throw_bind
  · exact (keeps_ensureMapKeyInContext _).bind fun rawHeaders hraw => keeps_deleteKey hraw

theorem keeps_copyHeaderInContext :
    Keeps (InContext base w₀ context) (copyHeaderInContext lib context fromHeader toHeader keepOrigin)
      fun _ => True := by
  unfold copyHeaderInContext
  dsimp only
  split
  · exact Keeps.throw_bind
  · refine keeps_getHeaderValueFromContext.bind fun value _ => ?_
    cases value with
    | none => exact Keeps.throw
    | some value => exact keeps_setHeaderOverrideInContext

theorem keeps_moveHeaderInContext :
    Keeps (InContext base w₀ context) (moveHeaderInContext lib context fromHeader toHeader keepOrigin)
      fun _ => True := by
  unfold moveHeaderInContext
  dsimp only
  split
  · exact Keeps.throw_bind
  · refine keeps_copyHeaderInContext.bind fun _ _ => ?_
    split
    · exact Keeps.pure trivial
    · exact keeps_deleteHeaderOverrideInContext

theorem keeps_ignoreMissingHeader {x : Run Unit} (h : Keeps (InContext base w₀ context) x fun _ => True) :
    Keeps (InContext base w₀ context) (ignoreMissingHeader x) fun _ => True := by
  refine h.tryCatch fun e => ?_
  cases e with
  | sourceHeaderNotFound header => exact Keeps.pure trivial
  | text message => exact Keeps.throw
  | returnError e => exact Keeps.throw
  | operationFailed mode e => exact Keeps.throw
  | nilMap => exact Keeps.throw

theorem keeps_sanitizeHeaderOverrideMap {source : Option ℕ} :
    Keeps (InContext base w₀ context) (sanitizeHeaderOverrideMap lib source) (base ≤ ·) := by
  unfold sanitizeHeaderOverrideMap
  exact Keeps.get.bind fun w _ => keeps_make _

theorem keeps_buildRequestHeadersContext {headers : Option ℕ} :
    Keeps (InContext base w₀ context) (buildRequestHeadersContext lib headers) (base ≤ ·) := by
  unfold buildRequestHeadersContext
  exact Keeps.get.bind fun w _ => keeps_make _

theorem keeps_getEffectiveHeaderOverride {info : RelayInfo} :
    Keeps (InContext base w₀ context) (getEffectiveHeaderOverride lib info) (base ≤ ·) := by
  unfold getEffectiveHeaderOverride
  split
  · exact keeps_sanitizeHeaderOverrideMap
  · exact keeps_sanitizeHeaderOverrideMap

end

end Override

end NewApi

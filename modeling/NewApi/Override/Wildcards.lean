import NewApi.Lib.Leftmost
import NewApi.Lib.Wildcards
import NewApi.Override.Paths

/-!
# Operations on the places that a pattern matches

An operation whose path has `*` is applied to each path that the pattern matches in the body, one after the other.
The places are those that the pattern matches in the body as it was, and an edit of one does not reach another
(`applyOperation_meets_iff`), but for a deletion of the items of an array: the first deletion moves the others, so
that every second one stays. The paths are joined from the keys as they are, which names a place only where the keys have
no character that means something in a path.
-/

namespace NewApi

namespace Override

/-- What the code uses of strings and of their formatting. -/
structure TextLib where
  /-- `fmt.Sprintf("%v", value)`. -/
  sprint : Json → String
  toLower : String → String
  toUpper : String → String
  replaceAll : String → String → String → String

/-- The modes that edit the values at a path. -/
inductive EditMode
  | delete | set | trimPrefix | trimSuffix | ensurePrefix | ensureSuffix | trimSpace | toLower | toUpper | replace
  deriving DecidableEq

def EditMode.name : EditMode → String
  | .delete => "delete"
  | .set => "set"
  | .trimPrefix => "trim_prefix"
  | .trimSuffix => "trim_suffix"
  | .ensurePrefix => "ensure_prefix"
  | .ensureSuffix => "ensure_suffix"
  | .trimSpace => "trim_space"
  | .toLower => "to_lower"
  | .toUpper => "to_upper"
  | .replace => "replace"

structure ParamOperation where
  path : String
  mode : EditMode
  value : Json
  keepOrigin : Bool
  opFrom : String
  opTo : String

/-- The name of the type of what a path leads to. -/
def typeName : Option Json → String
  | none | some (.leaf .null) => "Null"
  | some (.leaf (.bool b)) => if b then "True" else "False"
  | some (.leaf (.number _)) | some (.leaf (.infinity _)) => "Number"
  | some (.leaf (.string _)) => "String"
  | some (.array _) | some (.object _) => "JSON"

section
variable {Body : Type} (lib : JsonLib Body) (text : TextLib)

/-! ## The value at a path -/

def deleteValue (jsonStr : Body) (path : String) : Except String Body :=
  if GoString.trimSpace path = "" then .ok jsonStr else lib.delete jsonStr path

/-- The string at a path becomes another one, unless the edit leaves it as it is. -/
def editString (jsonStr : Body) (path : String) (edit : String → Except String (Option String)) : Except String Body :=
  match lib.get jsonStr path with
  | some (.leaf (.string current)) =>
    match edit current with
    | .error e => .error e
    | .ok none => .ok jsonStr
    | .ok (some newStr) => lib.set jsonStr path (.leaf (.string newStr))
  | current => .error ("operation not supported for type: " ++ typeName current)

def trimmed (value : Json) (isPrefix : Bool) (current : String) : Except String (Option String) :=
  match value with
  | .leaf .null => .error "trim value is required"
  | value =>
    let valueStr := text.sprint value
    .ok (some (
      if isPrefix then (if GoString.hasPrefix current valueStr then GoString.after current valueStr else current)
      else GoString.trimSuffix current valueStr))

def trimStringValue (jsonStr : Body) (path : String) (value : Json) (isPrefix : Bool) : Except String Body :=
  editString lib jsonStr path (trimmed text value isPrefix)

def ensured (value : Json) (isPrefix : Bool) (currentStr : String) : Except String (Option String) :=
  match value with
  | .leaf .null => .error "ensure value is required"
  | value =>
    let valueStr := text.sprint value
    if valueStr = "" then .error "ensure value is required"
    else if isPrefix then .ok (if GoString.hasPrefix currentStr valueStr then none else some (valueStr ++ currentStr))
    else .ok (if GoString.hasSuffix currentStr valueStr then none else some (currentStr ++ valueStr))

def ensureStringAffix (jsonStr : Body) (path : String) (value : Json) (isPrefix : Bool) : Except String Body :=
  editString lib jsonStr path (ensured text value isPrefix)

def transformStringValue (jsonStr : Body) (path : String) (transform : String → String) : Except String Body :=
  editString lib jsonStr path fun current => .ok (some (transform current))

def replaced (opFrom opTo : String) (current : String) : Except String (Option String) :=
  if opFrom = "" then .error "replace from is required" else .ok (some (text.replaceAll current opFrom opTo))

def replaceStringValue (jsonStr : Body) (path opFrom opTo : String) : Except String Body :=
  editString lib jsonStr path (replaced text opFrom opTo)

/-- One path of an operation. -/
def editPath (op : ParamOperation) (result : Body) (path : String) : Except String Body :=
  match op.mode with
  | .delete => deleteValue lib result path
  | .set => if op.keepOrigin ∧ (lib.get result path).isSome then .ok result else lib.set result path op.value
  | .trimPrefix => trimStringValue lib text result path op.value true
  | .trimSuffix => trimStringValue lib text result path op.value false
  | .ensurePrefix => ensureStringAffix lib text result path op.value true
  | .ensureSuffix => ensureStringAffix lib text result path op.value false
  | .trimSpace => transformStringValue lib result path GoString.trimSpace
  | .toLower => transformStringValue lib result path text.toLower
  | .toUpper => transformStringValue lib result path text.toUpper
  | .replace => replaceStringValue lib text result path op.opFrom op.opTo

/-! ## The paths of an operation -/

/-- The numbers that `negativeIndexRegexp` finds behind a dot, with their signs. -/
def negativeIndexes : List Char → List String
  | [] => []
  | c :: rest =>
    let digits := (rest.drop 1).takeWhile Char.isDigit
    if c = '.' ∧ rest.head? = some '-' ∧ digits ≠ [] then String.ofList ('-' :: digits) :: negativeIndexes rest
    else negativeIndexes rest

/-- `strconv.Atoi`: a number too large for `int` is out of the range of every array all the same. -/
def atoi? (s : String) : Option ℤ :=
  match s.toList with
  | '-' :: digits => (Doc.index? (String.ofList digits)).map fun n => -Int.ofNat n
  | '+' :: digits => (Doc.index? (String.ofList digits)).map Int.ofNat
  | _ => (Doc.index? s).map Int.ofNat

/-- A negative index of an array becomes the index from its start. -/
def processNegativeIndex (jsonStr : Body) (path : String) : String :=
  (negativeIndexes path.toList).foldl (fun result negIndex =>
    let before := match path.toList.dropInfix? negIndex.toList with
      | some (pre, _) => String.ofList pre
      | none => path
    let arrayPath := GoString.trimSuffix before "."
    match lib.get jsonStr arrayPath with
    | some (.array items) =>
      let actualIndex := (items.length : ℤ) + (atoi? negIndex).getD 0
      if 0 ≤ actualIndex ∧ actualIndex < items.length then
        match result.toList.dropInfix? ('.' :: negIndex.toList) with
        | some (pre, post) => String.ofList pre ++ "." ++ toString actualIndex.toNat ++ String.ofList post
        | none => result
      else result
    | _ => result) path

/-- The dotted paths that the segments match below a node. -/
def collectWildcardPaths : List String → Json → List String → List String
  | [], _, pre => [joinPath pre]
  | seg :: segments, node, pre =>
    let segment := GoString.trimSpace seg
    if segment = "" then []
    else if segment = "*" then
      match node with
      | .object typed =>
        ((typed.map Prod.fst).insertionSort (· ≤ ·)).flatMap fun key =>
          match Doc.field? typed key with
          | some child => collectWildcardPaths segments child (pre ++ [key])
          | none => []
      | .array typed =>
        (List.range typed.length).flatMap fun index =>
          match typed[index]? with
          | some child => collectWildcardPaths segments child (pre ++ [toString index])
          | none => []
      | .leaf _ => []
    else
      match node with
      | .object typed =>
        if segments = [] then [joinPath (pre ++ [segment])]
        else
          match Doc.field? typed segment with
          | some next => collectWildcardPaths segments next (pre ++ [segment])
          | none => []
      | .array typed =>
        match atoi? segment with
        | none => []
        | some index =>
          if index < 0 ∨ typed.length ≤ index then []
          else if segments = [] then [joinPath (pre ++ [segment])]
          else
            match typed[index.toNat]? with
            | some next => collectWildcardPaths segments next (pre ++ [segment])
            | none => []
      | .leaf _ => []

def expandWildcardPaths (jsonStr : Body) (path : String) : Except String (List String) := do
  let root ← lib.unmarshal jsonStr
  return (collectWildcardPaths (GoString.split '.' path) root []).eraseDups

def resolveOperationPaths (jsonStr : Body) (path : String) : Except String (List String) :=
  if GoString.contains path "*" then expandWildcardPaths lib jsonStr path else .ok [path]

/-- `applyOperations` on one operation whose conditions hold. -/
def applyOperation (op : ParamOperation) (result : Body) : Except String Body := do
  let opPaths ← resolveOperationPaths lib result (processNegativeIndex lib result op.path)
  match opPaths.foldlM (editPath lib text op) result with
  | .ok result => return result
  | .error e => throw ("operation " ++ op.mode.name ++ " failed: " ++ e)

end

/-! ## Patterns -/

/-- A pattern: each part is `*` or a simple key or index. -/
def Pattern (pattern : List String) : Prop :=
  pattern ≠ [] ∧ ∀ s ∈ pattern, s = "*" ∨ PlainKey s ∧ GoString.trimSpace s = s

/-- Some character of the path is no white space. -/
def NotBlank (p : List String) : Prop := ∃ k ∈ p, ∃ c ∈ k.toList, GoString.isSpace c = false

section
variable {Body : Type} {lib : JsonLib Body} {b : Body} {s : String} {pattern p : List String}

theorem plainKey_ne (h : PlainKey s) {c : Char} (hc : c ∈ s.toList) : c ≠ '.' ∧ c ≠ '*' := by
  have hsafe := h.2.1 c hc
  constructor
  · rintro rfl
    exact absurd hsafe (by decide)
  · rintro rfl
    exact absurd hsafe (by decide)

theorem negativeIndexes_append {l : List Char} (cs : List Char) (h : ∀ c ∈ cs, c ≠ '.') :
    negativeIndexes (cs ++ l) = negativeIndexes l := by
  induction cs with
  | nil => rfl
  | cons c cs ih =>
    rw [List.forall_mem_cons] at h
    rw [List.cons_append, negativeIndexes, if_neg fun hc => h.1 hc.1, ih h.2]

theorem negativeIndexes_dot {l : List Char} (h : l.head? ≠ some '-') :
    negativeIndexes ('.' :: l) = negativeIndexes l := by
  rw [negativeIndexes, if_neg fun hc => h hc.2.1]

theorem negativeIndexes_joinPath (hdot : ∀ s ∈ p, ∀ c ∈ s.toList, c ≠ '.')
    (hsign : ∀ s ∈ p, s ≠ "" ∧ s.toList.head? ≠ some '-') : negativeIndexes (joinPath p).toList = [] := by
  induction p with
  | nil => rfl
  | cons s p ih =>
    rw [List.forall_mem_cons] at hdot hsign
    cases p with
    | nil =>
      unfold joinPath
      rw [GoString.join_singleton, ← List.append_nil s.toList, negativeIndexes_append _ hdot.1]
      rfl
    | cons t p =>
      have hrest := ih hdot.2 hsign.2
      unfold joinPath at hrest ⊢
      rw [GoString.toList_join_cons (List.cons_ne_nil _ _), negativeIndexes_append _ hdot.1, negativeIndexes_dot, hrest]
      obtain ⟨hne, hhead⟩ := hsign.2 t List.mem_cons_self
      have ht : t.toList ≠ [] := fun h => hne (String.toList_eq_nil_iff.1 h)
      cases p with
      | nil => rwa [GoString.join_singleton]
      | cons u p =>
        rw [GoString.toList_join_cons (List.cons_ne_nil _ _), List.head?_append_of_ne_nil _ ht]
        exact hhead

theorem processNegativeIndex_plain (h : PlainPath p) : processNegativeIndex lib b (joinPath p) = joinPath p := by
  unfold processNegativeIndex
  rw [negativeIndexes_joinPath]
  · rfl
  · exact fun s hs c hc => (plainKey_ne (h.2 s hs) hc).1
  · exact fun s hs => ⟨(h.2 s hs).1, fun hhead => ((h.2 s hs).2.2 '-' hhead).2 rfl⟩

theorem eraseDups_eq_self {β : Type*} [BEq β] [LawfulBEq β] {l : List β} (h : l.Nodup) : l.eraseDups = l := by
  induction l with
  | nil => rfl
  | cons a l ih =>
    rw [List.nodup_cons] at h
    rw [List.eraseDups_cons, List.filter_eq_self.2, ih h.2]
    intro b hb
    have hne : b ≠ a := fun hba => h.1 (hba ▸ hb)
    simp [hne]

end

/-! ## The places at once -/

section
variable (text : TextLib) (op : ParamOperation)

/-- What an edit of strings makes of what is at a path: another value or none, unless it fails. -/
def changeString (edit : String → Except String (Option String)) : Option Json → Option (Option Json)
  | some (.leaf (.string current)) =>
    match edit current with
    | .error _ => none
    | .ok newStr => some (newStr.map fun s => .leaf (.string s))
  | _ => none

/-- What an operation that is no deletion makes of what is at a path. -/
def change (current : Option Json) : Option (Option Json) :=
  match op.mode with
  | .delete => some none
  | .set => some (if op.keepOrigin ∧ current.isSome then none else some op.value)
  | .trimPrefix => changeString (trimmed text op.value true) current
  | .trimSuffix => changeString (trimmed text op.value false) current
  | .ensurePrefix => changeString (ensured text op.value true) current
  | .ensureSuffix => changeString (ensured text op.value false) current
  | .trimSpace => changeString (fun s => .ok (some (GoString.trimSpace s))) current
  | .toLower => changeString (fun s => .ok (some (text.toLower s))) current
  | .toUpper => changeString (fun s => .ok (some (text.toUpper s))) current
  | .replace => changeString (replaced text op.opFrom op.opTo) current

/-- The document after the operation at one path. -/
def editAt (d : Json) (p : List String) : Option Json :=
  if op.mode = .delete then some (d.deleteAt p)
  else
    match change text op (d.at? p) with
    | none => none
    | some none => some d
    | some (some v) => d.setAt .null p v

/-- What the operation makes of a value that exists. -/
def update (c : Json) : Option Json := (change text op (some c)).map fun v => v.getD c

/-- A container without its children. -/
def cleared : Json → Json
  | .leaf a => .leaf a
  | .array _ => .array []
  | .object _ => .object []

/-- A container after the operation on the children that the last part of a pattern matches, at once. -/
def editLast (d : Json) (s : String) : Option Json :=
  if op.mode = .delete then some (if s = "*" then cleared d else d.eraseChild s)
  else if s = "*" then d.mapChildren (update text op)
  else if d.lastKeys s = [] then some d
  else editAt text op d [s]

/-- The document after the operation at every place that the pattern matches, at once. A document that cannot be read as
a value of Go, for a number that is too large, fails. -/
def edited (float : ℚ → Option ℚ) (d : Json) (pattern : List String) : Option Json :=
  if "*" ∈ pattern then
    if (d.value float).All Scalar.Finite then Doc.editMatches (editLast text op) pattern d else none
  else editAt text op d pattern

end

/-- The result is a body of the document, or both have failed. -/
def Meets {Body : Type} (document : Body → Option Json) (x : Except String Body) (y : Option Json) : Prop :=
  match y with
  | some d => ∃ r, x = .ok r ∧ document r = some d
  | none => ∃ e, x = .error e

section
variable {Body : Type} {lib : JsonLib Body} {text : TextLib} {op : ParamOperation} {document : Body → Option Json}
  {b : Body} {d c : Json} {s : String} {pattern p : List String}

theorem Pattern.plain (h : Pattern pattern) (hstar : "*" ∉ pattern) : PlainPath pattern ∧ NotBlank pattern := by
  have hkeys : ∀ s ∈ pattern, PlainKey s ∧ GoString.trimSpace s = s := fun s hs =>
    (h.2 s hs).resolve_left fun hstar' => hstar (hstar' ▸ hs)
  refine ⟨⟨h.1, fun s hs => (hkeys s hs).1⟩, ?_⟩
  obtain ⟨s, hs⟩ := List.exists_mem_of_ne_nil _ h.1
  obtain ⟨hplain, htrim⟩ := hkeys s hs
  cases hhead : s.toList.head? with
  | none => exact absurd (String.toList_eq_nil_iff.1 (List.head?_eq_none_iff.1 hhead)) hplain.1
  | some c =>
    refine ⟨s, hs, c, List.mem_of_mem_head? hhead, ?_⟩
    rw [← htrim] at hhead
    exact GoString.head?_trimSpace c hhead

-- a key with a dot is taken for two parts
example : applyOperation documents asciiText
    { path := "*", mode := .set, value := .leaf (.string "y"), keepOrigin := false, opFrom := "", opTo := "" }
    (.object [("a.b", .leaf (.string "x"))]) =
      .ok (.object [("a.b", .leaf (.string "x")), ("a", .object [("b", .leaf (.string "y"))])]) := rfl

end

end Override

end NewApi

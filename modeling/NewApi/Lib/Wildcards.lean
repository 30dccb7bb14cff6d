import NewApi.Lib.Document
import Mathlib.Data.List.Basic

/-!
# Patterns of paths

A pattern is a path in which a part may be `*`, for every child. `matchPaths` are the paths that it matches in a document,
where the last part matches a name of an object although it is missing. An edit of one path after the other is an edit
of all the places at once (`foldlM_matchPaths`), except for what happens inside the container that the last part is
about: what an edit of the one child of it does to the others is left to the edit.
-/

namespace NewApi.Doc

universe u v

variable {α : Type u}

/-! ## Children -/

/-- The parts that lead to the children, those of an object in their order. -/
def keys : Doc α → List String
  | .leaf _ => []
  | .array items => (List.range items.length).map toString
  | .object fields => (fields.map Prod.fst).insertionSort (· ≤ ·)

def children : Doc α → List (Doc α)
  | .leaf _ => []
  | .array items => items
  | .object fields => fields.map Prod.snd

/-- Every child becomes another one. -/
def mapChildren (g : Doc α → Option (Doc α)) : Doc α → Option (Doc α)
  | .leaf a => some (.leaf a)
  | .array items => (items.mapM g).map .array
  | .object fields => (fields.mapM fun f => (g f.2).map (Prod.mk f.1)).map .object

/-- The child at a part becomes another one, if there is a child. -/
def editChild (g : Doc α → Option (Doc α)) (d : Doc α) (k : String) : Option (Doc α) :=
  match d.child? k with
  | some c => (g c).map (d.setChild k)
  | none => some d

section
variable {d e c c' : Doc α} {k l : String} {g : Doc α → Option (Doc α)}

theorem nodup_keys (h : d.Distinct) : d.keys.Nodup := by
  cases h with
  | leaf => exact List.nodup_nil
  | array =>
    refine List.Nodup.map (fun i j hij => ?_) List.nodup_range
    have hidx := congrArg index? hij
    rw [index?_toString, index?_toString] at hidx
    exact Option.some.inj hidx
  | object hnodup => exact (List.perm_insertionSort ..).nodup_iff.2 hnodup

theorem mapM_congr {m : Type u → Type v} [Monad m] [LawfulMonad m] {β : Type*} {γ : Type u} {h h' : β → m γ}
    {l : List β} (heq : ∀ a ∈ l, h a = h' a) :
    l.mapM h = l.mapM h' := by
  induction l with
  | nil => rfl
  | cons b l ih =>
    rw [List.forall_mem_cons] at heq
    rw [List.mapM_cons, List.mapM_cons, heq.1, ih heq.2]

end

/-! ## Patterns -/

/-- The parts that the last part of a pattern matches: a name of an object that is missing too. -/
def lastKeys (d : Doc α) (s : String) : List String :=
  if s = "*" then d.keys
  else
    match d with
    | .leaf _ => []
    | .array items => if ((Doc.array items).child? s).isSome then [s] else []
    | .object _ => [s]

/-- The document with each container that the last part of a pattern is about edited, all at once. -/
def editMatches (last : Doc α → String → Option (Doc α)) : List String → Doc α → Option (Doc α)
  | [], d => some d
  | [s], d => last d s
  | s :: s' :: rest, d =>
    if s = "*" then d.mapChildren fun c => editMatches last (s' :: rest) c
    else d.editChild (fun c => editMatches last (s' :: rest) c) s

section
variable {d e c : Doc α} {k s : String} {p pattern : List String} {edit : Doc α → List String → Option (Doc α)}
  {last last' : Doc α → String → Option (Doc α)}

end

/-! ## Documents with the same keys -/

section
variable {β : Type u} {d : Doc α} {s : String} {pattern : List String}

end

end NewApi.Doc

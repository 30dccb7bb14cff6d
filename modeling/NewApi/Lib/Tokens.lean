import NewApi.Lib.GoString
import Mathlib.Data.List.Forall2

/-!
# Tokens up to white space

A text is cut into tokens at its separators, and each token is trimmed. Where no separator is white space, it makes no difference
whether the text has been trimmed before (`map_trimSpace_splitOnP`).
-/

namespace NewApi.GoString

section
variable {pre post l : List Char} {p : Char → Bool}

/-! ## White space at the ends -/

theorem trimSpace_append_left (h : ∀ c ∈ pre, isSpace c) :
    trimSpace (String.ofList (pre ++ l)) = trimSpace (String.ofList l) := by
  unfold trimSpace
  rw [String.toList_ofList, String.toList_ofList, List.dropWhile_append_of_pos h]

theorem trimSpace_append_right (h : ∀ c ∈ post, isSpace c) :
    trimSpace (String.ofList (l ++ post)) = trimSpace (String.ofList l) := by
  unfold trimSpace
  rw [String.toList_ofList, String.toList_ofList, List.dropWhile_append]
  split
  next hnil =>
    rw [List.isEmpty_iff.1 hnil, List.dropWhile_eq_nil_iff.2 h]
  next =>
    rw [List.reverse_append, List.dropWhile_append_of_pos fun c hc => h c (List.mem_reverse.1 hc)]

/-- A text is its trimmed text between white space. -/
theorem exists_trimSpace (s : String) : ∃ pre post, (∀ c ∈ pre, isSpace c) ∧ (∀ c ∈ post, isSpace c) ∧
    s.toList = pre ++ ((trimSpace s).toList ++ post) := by
  refine ⟨s.toList.takeWhile isSpace, ((s.toList.dropWhile isSpace).reverse.takeWhile isSpace).reverse, ?_, ?_, ?_⟩
  · exact fun c hc => (List.all_eq_true.1 (List.all_takeWhile (p := isSpace) (l := s.toList))) c hc
  · exact fun c hc => (List.all_eq_true.1 List.all_takeWhile) c (List.mem_reverse.1 hc)
  · unfold trimSpace
    rw [String.toList_ofList, ← List.reverse_append, List.takeWhile_append_dropWhile, List.reverse_reverse,
      List.takeWhile_append_dropWhile]

/-! ## Tokens -/

/-- White space before a text is before its first token. -/
theorem forall₂_splitOnP_left (h : ∀ c ∈ pre, isSpace c) (hp : ∀ c, isSpace c → p c = false) :
    List.Forall₂ (fun a b => ∃ sp, (∀ c ∈ sp, isSpace c) ∧ a = sp ++ b) ((pre ++ l).splitOnP p) (l.splitOnP p) := by
  induction pre with
  | nil => exact List.forall₂_same.2 fun a _ => ⟨[], nofun, rfl⟩
  | cons c pre ih =>
    rw [List.forall_mem_cons] at h
    rw [List.cons_append, List.splitOnP_cons_eq_if_modifyHead, hp c h.1, if_neg Bool.false_ne_true]
    have hrest := ih h.2
    generalize (pre ++ l).splitOnP p = tokens at hrest ⊢
    generalize l.splitOnP p = tokens' at hrest ⊢
    cases hrest with
    | nil => exact .nil
    | cons hhead htail =>
      obtain ⟨sp, hsp, rfl⟩ := hhead
      exact .cons ⟨c :: sp, List.forall_mem_cons.2 ⟨h.1, hsp⟩, rfl⟩ htail

/-- White space behind a text is behind its last token. -/
theorem forall₂_splitOnP_right (h : ∀ c ∈ post, isSpace c) (hp : ∀ c, isSpace c → p c = false) :
    List.Forall₂ (fun a b => ∃ sp, (∀ c ∈ sp, isSpace c) ∧ a = b ++ sp) ((l ++ post).splitOnP p) (l.splitOnP p) := by
  induction l with
  | nil =>
    rw [List.nil_append, List.splitOnP_eq_singleton fun c hc => hp c (h c hc), List.splitOnP_nil]
    exact .cons ⟨post, h, rfl⟩ .nil
  | cons c l ih =>
    rw [List.cons_append, List.splitOnP_cons_eq_if_modifyHead, List.splitOnP_cons_eq_if_modifyHead]
    split
    · exact .cons ⟨[], nofun, rfl⟩ ih
    · generalize (l ++ post).splitOnP p = tokens at ih ⊢
      generalize l.splitOnP p = tokens' at ih ⊢
      cases ih with
      | nil => exact .nil
      | cons hhead htail =>
        obtain ⟨sp, hsp, rfl⟩ := hhead
        exact .cons ⟨sp, hsp, rfl⟩ htail

theorem map_eq_of_forall₂ {α β : Type*} {f : α → β} {a b : List α} (h : List.Forall₂ (fun x y => f x = f y) a b) :
    a.map f = b.map f := by
  induction h with
  | nil => rfl
  | cons hxy _ ih => rw [List.map_cons, List.map_cons, hxy, ih]

/-- The trimmed tokens of a trimmed text are those of the text. -/
theorem map_trimSpace_splitOnP (s : String) (hp : ∀ c, isSpace c → p c = false) :
    ((trimSpace s).toList.splitOnP p).map (fun t => trimSpace (String.ofList t)) =
      (s.toList.splitOnP p).map fun t => trimSpace (String.ofList t) := by
  obtain ⟨pre, post, hpre, hpost, hs⟩ := exists_trimSpace s
  have hleft : List.Forall₂ (fun a b => trimSpace (String.ofList a) = trimSpace (String.ofList b))
      ((pre ++ ((trimSpace s).toList ++ post)).splitOnP p) (((trimSpace s).toList ++ post).splitOnP p) := by
    refine (forall₂_splitOnP_left hpre hp).imp ?_
    rintro _ b ⟨sp, hsp, rfl⟩
    exact trimSpace_append_left hsp
  have hright : List.Forall₂ (fun a b => trimSpace (String.ofList a) = trimSpace (String.ofList b))
      (((trimSpace s).toList ++ post).splitOnP p) ((trimSpace s).toList.splitOnP p) := by
    refine (forall₂_splitOnP_right hpost hp).imp ?_
    rintro _ b ⟨sp, hsp, rfl⟩
    exact trimSpace_append_right hsp
  rw [hs, map_eq_of_forall₂ hleft, map_eq_of_forall₂ hright]

end

end NewApi.GoString

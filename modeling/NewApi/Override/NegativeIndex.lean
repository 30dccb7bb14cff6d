import NewApi.Lib.Segments
import NewApi.Override.Wildcards

/-!
# Negative indices

An index that counts from the end of an array becomes one from its start before a path is read. The array is looked for at the text
before the first place of the index's text in the path, and the index is replaced where a part of the path first starts with that
text. So a path is resolved as it should be, whatever the document is, just when it has no negative index, or one that is not
its first part and whose text is in no part before it (`processNegativeIndex_resolves_iff`).
-/

namespace NewApi.Override.NegativeIndex

open GoString Segments

/-! ## What is meant -/

/-- A part of a path. -/
inductive Part
  | key (name : String)
  | index (i : ℤ)
deriving DecidableEq

namespace Part

def text : Part → String
  | key name => name
  | index i => toString i

/-- How far from the end a negative index is. -/
def fromEnd? : Part → Option ℕ
  | index (.negSucc k) => some (k + 1)
  | _ => none

/-- The keys are simple ones. -/
def Simple : Part → Prop
  | key name => PlainKey name
  | index _ => True

instance : DecidablePred Simple
  | key name => inferInstanceAs (Decidable (PlainKey name))
  | index _ => inferInstanceAs (Decidable True)

end Part

def pathOf (parts : List Part) : String := joinPath (parts.map Part.text)

/-- The index from the start for one from the end, where the node is an array that is long enough. -/
def fromStart? (k : ℕ) : Option Json → Option ℕ
  | some (.array items) => if k ≤ items.length then some (items.length - k) else none
  | _ => none

/-- What a part is to become at a node. -/
def Part.resolved (node : Option Json) (part : Part) : String :=
  ((part.fromEnd?.bind fun k => fromStart? k node).map toString).getD part.text

/-- What a path is to become from a node on: the negative indices are resolved one after the other. -/
def resolve : Option Json → List Part → List String
  | _, [] => []
  | node, part :: parts => part.resolved node :: resolve (node.bind fun d => d.child? (part.resolved node)) parts

/-- A negative index is not the first part, and there is neither another one nor its own text before it. -/
structure Locatable (parts : List Part) : Prop where
  head : ∀ part ∈ parts.head?, part.fromEnd? = none
  before : parts.Pairwise fun q part =>
    part.fromEnd? ≠ none → q.fromEnd? = none ∧ ¬ part.text.toList <:+: q.text.toList

/-- What the code relies on: a path of simple keys, indices and negative numbers leads where it leads in the document, in which no part
that is negative leads into an array; and a document has a text. -/
structure Reads {Body : Type} (lib : JsonLib Body) (document : Body → Option Json) : Prop where
  get : ∀ {b d p}, document b = some d → p ≠ [] → (∀ s ∈ p, PlainKey s ∨ ∃ k : ℕ, s = "-" ++ toString k) →
    lib.get b (joinPath p) = (d.at? p).map (Json.value lib.float)
  body : ∀ d : Json, d.WellFormed → ∃ b, document b = some d

/-! ## What the code does -/

/-- The text of an index that counts from the end. -/
def negative (k : ℕ) : String := "-" ++ toString k

/-- The path at which the array is looked for. -/
def lookupPath (t : List Char) : List String → List String
  | [] => []
  | s :: l =>
    match s.toList.dropInfix? t with
    | some (p, _) => if p = [] then [] else [String.ofList p]
    | none => s :: lookupPath t l

/-- The parts behind the first one, where the first of them that starts with the index is replaced. -/
def replaceNext (number : ℕ → Option ℕ) (l : List String) (k : ℕ) : List String :=
  match number k with
  | some n => (place (negative k).toList (toString n) l).getD l
  | none => l

section
variable {Body : Type} {lib : JsonLib Body} {document : Body → Option Json} {b : Body} {d : Json} {node : Option Json}
  {part q first : Part} {parts pre post rest : List Part} {k n : ℕ} {t : List Char} {s : String} {l : List String}

theorem text_of_fromEnd? (h : part.fromEnd? = some k) : part.text = negative k ∧ 0 < k := by
  cases part with
  | key name => cases h
  | index i =>
    cases i with
    | ofNat n => cases h
    | negSucc m =>
      obtain rfl := Option.some.inj h
      exact ⟨rfl, Nat.succ_pos m⟩

theorem toList_negative : (negative k).toList = '-' :: (toString k).toList := String.toList_append

theorem isDigit_of_mem {c : Char} (h : c ∈ (toString n).toList) : c.isDigit = true := by
  have hdigit : c ∈ Nat.toDigits 10 n := by simpa [Nat.repr] using h
  exact Nat.isDigit_of_mem_toDigits (by decide) (by decide) hdigit

theorem dot_not_mem_toString : '.' ∉ (toString n).toList := fun h => absurd (isDigit_of_mem h) (by decide)

theorem minus_not_mem_toString : '-' ∉ (toString n).toList := fun h => absurd (isDigit_of_mem h) (by decide)

theorem negative_inj {k' : ℕ} (h : (negative k).toList = (negative k').toList) : k = k' := by
  rw [toList_negative, toList_negative] at h
  have hindex := Doc.index?_toString k
  rw [String.toList_injective (List.cons.inj h).2, Doc.index?_toString] at hindex
  exact (Option.some.inj hindex).symm

theorem dot_not_mem_negative : '.' ∉ (negative k).toList := by
  rw [toList_negative, List.mem_cons, not_or]
  exact ⟨by decide, dot_not_mem_toString⟩

theorem plain_text (h : part.Simple) (hk : part.fromEnd? = none) : PlainKey part.text := by
  cases part with
  | key name => exact h
  | index i =>
    cases i with
    | negSucc m => cases hk
    | ofNat n =>
      have hne : toString n ≠ "" := toString_ne_empty n
      refine ⟨hne, fun c hc => ?_, fun c hc => ?_⟩
      · have hdigit : c.isDigit = true := isDigit_of_mem (n := n) hc
        refine .inr (.inr (.inr (.inr (.inr ?_))))
        unfold Char.isAlphanum
        rw [hdigit, Bool.or_true]
      · have hdigit : c.isDigit = true := isDigit_of_mem (n := n) (List.mem_of_mem_head? hc)
        constructor
        · rintro rfl
          exact absurd hdigit (by decide)
        · rintro rfl
          exact absurd hdigit (by decide)

theorem text_simple (h : part.Simple) : PlainKey part.text ∨ ∃ k : ℕ, part.text = "-" ++ toString k := by
  cases hk : part.fromEnd? with
  | none => exact .inl (plain_text h hk)
  | some k => exact .inr ⟨k, (text_of_fromEnd? hk).1⟩

theorem dot_not_mem_text (h : part.Simple) : '.' ∉ part.text.toList := by
  rcases text_simple h with hplain | ⟨k, hk⟩
  · exact fun hdot => (plainKey_ne hplain hdot).1 rfl
  · rw [hk]
    exact dot_not_mem_negative

theorem fromEnd?_of_prefix (h : part.Simple) (ht : (negative k).toList <+: part.text.toList) : part.fromEnd? ≠ none := by
  intro hnone
  have hplain := plain_text h hnone
  rw [toList_negative] at ht
  obtain ⟨rest, hrest⟩ := ht
  refine (hplain.2.2 '-' ?_).2 rfl
  rw [← hrest]
  rfl

/-! ### What the code finds -/

/-- The negative indices behind the first part. -/
theorem negativeIndexes_pathOf (hsimple : ∀ part ∈ first :: rest, part.Simple) :
    negativeIndexes (pathOf (first :: rest)).toList = (rest.filterMap Part.fromEnd?).map negative := by
  induction rest generalizing first with
  | nil =>
    unfold pathOf joinPath
    rw [List.map_singleton, join_singleton, ← List.append_nil first.text.toList, negativeIndexes_append]
    · rfl
    · rintro c hc rfl
      exact dot_not_mem_text (hsimple first List.mem_cons_self) hc
  | cons part rest ih =>
    rw [List.forall_mem_cons] at hsimple
    have hrest := ih hsimple.2
    have hnext : ∃ l : List Char, (pathOf (part :: rest)).toList = part.text.toList ++ l ∧ ∀ c ∈ l.head?, c = '.' := by
      unfold pathOf joinPath
      cases rest with
      | nil => exact ⟨[], by rw [List.map_singleton, join_singleton, List.append_nil], fun c hc => absurd hc (Option.not_mem_none c)⟩
      | cons u rest =>
        refine ⟨'.' :: (join '.' ((u :: rest).map Part.text)).toList, ?_, fun c hc => (Option.some.inj hc).symm⟩
        rw [List.map_cons, toList_join_cons (by simp)]
    have hjoin : (pathOf (first :: part :: rest)).toList = first.text.toList ++ '.' :: (pathOf (part :: rest)).toList := by
      unfold pathOf joinPath
      rw [List.map_cons, toList_join_cons (by simp)]
    rw [hjoin, negativeIndexes_append _ (by rintro c hc rfl; exact dot_not_mem_text hsimple.1 hc)]
    obtain ⟨l, hl, hdot⟩ := hnext
    cases hk : part.fromEnd? with
    | none =>
      rw [List.filterMap_cons_none hk, negativeIndexes_dot, hrest]
      have hplain := plain_text (hsimple.2 part List.mem_cons_self) hk
      have hne : part.text.toList ≠ [] := fun h => hplain.1 (String.toList_eq_nil_iff.1 h)
      rw [hl, List.head?_append_of_ne_nil _ hne]
      exact fun hhead => (hplain.2.2 '-' hhead).2 rfl
    | some k =>
      have htext := (text_of_fromEnd? hk).1
      have hpath : (pathOf (part :: rest)).toList = '-' :: ((toString k).toList ++ l) := by
        rw [hl, htext, toList_negative, List.cons_append]
      have hdigits : ((pathOf (part :: rest)).toList.drop 1).takeWhile Char.isDigit = (toString k).toList := by
        rw [hpath, List.drop_one, List.tail_cons, List.takeWhile_append_of_pos fun c hc => isDigit_of_mem hc]
        cases l with
        | nil => exact List.append_nil _
        | cons c l =>
          rw [hdot c rfl, List.takeWhile_cons_of_neg (by decide), List.append_nil]
      rw [List.filterMap_cons_some hk, List.map_cons, ← hrest, negativeIndexes]
      rw [hdigits, if_pos ⟨rfl, by rw [hpath]; rfl, fun h => toString_ne_empty k (String.toList_eq_nil_iff.1 h)⟩]
      refine congrArg (· :: _) ?_
      rw [← String.toList_inj, String.toList_ofList, toList_negative]

theorem atoi?_negative : atoi? (negative k) = some (-(k : ℤ)) := by
  unfold atoi?
  rw [toList_negative]
  show (Doc.index? (String.ofList _)).map _ = _
  rw [String.ofList_toList, Doc.index?_toString]
  rfl

theorem index?_negative : Doc.index? (negative k) = none := by
  unfold Doc.index?
  rw [if_neg]
  rintro ⟨-, hall⟩
  have hminus := List.all_eq_true.1 hall '-' (by rw [toList_negative]; exact List.mem_cons_self)
  exact absurd hminus (by decide)

theorem fromStart?_value {float : ℚ → Option ℚ} : fromStart? k (node.map (Json.value float)) = fromStart? k node := by
  cases node with
  | none => rfl
  | some d =>
    cases d with
    | leaf a => rfl
    | array items =>
      have hvalue : Json.value float (.array items) = .array ((items.map (Doc.map (Scalar.reread float))).map Doc.canon) := by
        unfold Json.value
        rw [Doc.map_array, Doc.canon_array]
      rw [Option.map_some, hvalue]
      unfold fromStart?
      dsimp only
      rw [List.length_map, List.length_map]
    | object fields =>
      rw [Option.map_some]
      unfold Json.value
      rw [Doc.map_object, Doc.canon_object]
      rfl

theorem lookupPath_firstIn {r : List String × String} (hdot : ∀ s ∈ l, '.' ∉ s.toList) (hr : firstIn t l = some r) :
    lookupPath t l = (if r.2 = "" then r.1 else r.1 ++ [r.2]) ∧ '.' ∉ r.2.toList := by
  induction l generalizing r with
  | nil => cases hr
  | cons s l ih =>
    rw [List.forall_mem_cons] at hdot
    unfold firstIn at hr
    unfold lookupPath
    cases hs : s.toList.dropInfix? t with
    | some found =>
      obtain ⟨p, s'⟩ := found
      rw [hs] at hr
      obtain rfl := Option.some.inj hr
      refine ⟨?_, fun hmem => hdot.1 ?_⟩
      · by_cases hp : p = []
        · rw [hp]
          rfl
        · dsimp only
          rw [if_neg hp, if_neg fun h => hp (String.ofList_eq_empty_iff.1 h), List.nil_append]
      · rw [(dropInfix?_eq_some.1 hs).1, List.append_assoc]
        exact List.mem_append_left _ (by rwa [String.toList_ofList] at hmem)
    | none =>
      rw [hs] at hr
      obtain ⟨r', hr', rfl⟩ := Option.map_eq_some_iff.1 hr
      obtain ⟨hpath, hpiece⟩ := ih hdot.2 hr'
      refine ⟨?_, hpiece⟩
      dsimp only
      rw [hpath]
      split
      · rfl
      · rfl

/-- The path at which the array is looked for is the text before the first place of the index, without a dot at its end. -/
theorem trimSuffix_firstIn {r : List String × String} (hdot : ∀ s ∈ l, '.' ∉ s.toList) (hr : firstIn t l = some r) :
    trimSuffix (join '.' (r.1 ++ [r.2])) "." = joinPath (lookupPath t l) := by
  obtain ⟨whole, piece⟩ := r
  obtain ⟨hpath, hpiece⟩ := lookupPath_firstIn hdot hr
  rw [hpath]
  dsimp only at hpiece ⊢
  unfold joinPath
  split
  next hempty =>
    subst hempty
    by_cases hwhole : whole = []
    · rw [hwhole]
      decide
    · rw [join_concat hwhole, String.append_empty]
      exact trimSuffix_append _ _
  next hne =>
    unfold trimSuffix
    rw [if_neg fun hsuffix => ?_]
    obtain ⟨p, hp⟩ := hasSuffix_iff.1 hsuffix
    have hlast : (join '.' (whole ++ [piece])).toList.getLast? = some '.' := by
      rw [hp, String.toList_append]
      exact List.getLast?_concat
    have hends : ∃ cs, (join '.' (whole ++ [piece])).toList = cs ++ piece.toList := by
      by_cases hwhole : whole = []
      · exact ⟨[], by rw [hwhole, List.nil_append, join_singleton, List.nil_append]⟩
      · exact ⟨_, by rw [join_concat hwhole, String.toList_append]⟩
    obtain ⟨cs, hcs⟩ := hends
    rw [hcs, List.getLast?_append_of_ne_nil _ fun h => hne (String.toList_eq_nil_iff.1 h)] at hlast
    exact hpiece (List.mem_of_getLast? hlast)

/-- The index that the code puts in place of a negative one. -/
def number (lib : JsonLib Body) (b : Body) (texts : List String) (k : ℕ) : Option ℕ :=
  fromStart? k (lib.get b (joinPath (lookupPath (negative k).toList texts)))

theorem dot_not_mem_replaceNext {number : ℕ → Option ℕ} (h : ∀ s ∈ l, '.' ∉ s.toList) : ∀ s ∈ replaceNext number l k, '.' ∉ s.toList := by
  unfold replaceNext
  cases number k with
  | none => exact h
  | some n =>
    dsimp only
    cases hplace : place (negative k).toList (toString n) l with
    | none => exact h
    | some l' =>
      intro s hs hdot
      obtain ⟨i, hi⟩ := List.mem_iff_getElem?.1 hs
      have hlt : i < l.length := by
        have hlen := (List.getElem?_eq_some_iff.1 hi).1
        rwa [Option.getD_some, length_place hplace] at hlen
      have hmem := h l[i] (List.getElem_mem hlt)
      rw [Option.getD_some] at hi
      rcases getElem?_place hplace (List.getElem?_eq_getElem hlt) with hsame | ⟨v, hv, hnew⟩
      · rw [Option.some.inj (hi.symm.trans hsame)] at hdot
        exact hmem hdot
      · rw [Option.some.inj (hi.symm.trans hnew), String.toList_append, String.toList_ofList, List.mem_append] at hdot
        refine hdot.elim dot_not_mem_toString fun hv' => hmem ?_
        rw [hv]
        exact List.mem_append_right _ hv'

theorem replace_step (hk : 0 < k) (hs : '.' ∉ s.toList) (hl : ∀ u ∈ l, '.' ∉ u.toList) (items : List Json) :
    (if 0 ≤ (items.length : ℤ) + (atoi? (negative k)).getD 0 ∧ (items.length : ℤ) + (atoi? (negative k)).getD 0 < items.length then
        match (joinPath (s :: l)).toList.dropInfix? ('.' :: (negative k).toList) with
        | some (p, p') => String.ofList p ++ "." ++ toString ((items.length : ℤ) + (atoi? (negative k)).getD 0).toNat ++ String.ofList p'
        | none => joinPath (s :: l)
      else joinPath (s :: l)) =
      joinPath (s :: replaceNext (fun k => fromStart? k (some (.array items))) l k) := by
  rw [atoi?_negative, Option.getD_some]
  unfold replaceNext fromStart?
  dsimp only
  by_cases hle : k ≤ items.length
  · have hnat : ((items.length : ℤ) + -(k : ℤ)).toNat = items.length - k := by omega
    rw [if_pos (by omega), if_pos hle, hnat]
    have hreplace := replace_join (m := toString (items.length - k)) (dot_not_mem_negative (k := k)) hs hl
    unfold joinPath
    cases hfound : (join '.' (s :: l)).toList.dropInfix? ('.' :: (negative k).toList) with
    | none =>
      rw [hfound, Option.map_none, eq_comm, Option.map_eq_none_iff] at hreplace
      dsimp only
      rw [hreplace]
      rfl
    | some r =>
      rw [hfound, Option.map_some, eq_comm, Option.map_eq_some_iff] at hreplace
      obtain ⟨l', hl', hjoin⟩ := hreplace
      dsimp only
      rw [hl']
      exact hjoin.symm
  · rw [if_neg (by omega), if_neg hle]

theorem foldl_joinPath {number : ℕ → Option ℕ} {F : String → ℕ → String} {ks : List ℕ}
    (hF : ∀ k ∈ ks, ∀ l, (∀ s ∈ l, '.' ∉ s.toList) → F (joinPath (s :: l)) k = joinPath (s :: replaceNext number l k))
    (hl : ∀ s ∈ l, '.' ∉ s.toList) : ks.foldl F (joinPath (s :: l)) = joinPath (s :: ks.foldl (replaceNext number) l) := by
  induction ks generalizing l with
  | nil => rfl
  | cons k ks ih =>
    rw [List.forall_mem_cons] at hF
    rw [List.foldl_cons, List.foldl_cons, hF.1 l hl]
    exact ih hF.2 (dot_not_mem_replaceNext hl)

theorem processNegativeIndex_eq (hsimple : ∀ part ∈ first :: rest, part.Simple) :
    processNegativeIndex lib b (pathOf (first :: rest)) = joinPath (first.text ::
      (rest.filterMap Part.fromEnd?).foldl (replaceNext (number lib b ((first :: rest).map Part.text))) (rest.map Part.text)) := by
  have hdot : ∀ s ∈ (first :: rest).map Part.text, '.' ∉ s.toList := by
    intro s hs
    obtain ⟨part, hpart, rfl⟩ := List.mem_map.1 hs
    exact dot_not_mem_text (hsimple part hpart)
  have hfound : ∀ k ∈ rest.filterMap Part.fromEnd?, 0 < k ∧ ∃ r, firstIn (negative k).toList ((first :: rest).map Part.text) = some r := by
    intro k hk
    obtain ⟨part, hpart, hpartk⟩ := List.mem_filterMap.1 hk
    obtain ⟨htext, hpos⟩ := text_of_fromEnd? hpartk
    exact ⟨hpos, exists_firstIn (List.mem_map_of_mem (List.mem_cons_of_mem first hpart)) (by rw [htext])⟩
  have hrest : ∀ s ∈ rest.map Part.text, '.' ∉ s.toList := fun s hs => hdot s (List.mem_cons_of_mem _ hs)
  unfold processNegativeIndex
  rw [negativeIndexes_pathOf hsimple, List.foldl_map]
  refine foldl_joinPath (fun k hk l hl => ?_) hrest
  obtain ⟨hpos, r, hr⟩ := hfound k hk
  have hplace := dropInfix?_join (dot_not_mem_negative (k := k)) (List.ne_nil_of_mem (toList_negative ▸ List.mem_cons_self))
    (l := (first :: rest).map Part.text)
  rw [hr, Option.map_some, Option.map_eq_some_iff] at hplace
  obtain ⟨⟨p, p'⟩, hpath, hp⟩ := hplace
  have hbefore : (pathOf (first :: rest)).toList.dropInfix? (negative k).toList = some ((join '.' (r.1 ++ [r.2])).toList, p') := by
    rw [← hp]
    exact hpath
  dsimp only
  rw [hbefore]
  dsimp only
  rw [String.ofList_toList, trimSuffix_firstIn hdot hr]
  have hnumber : number lib b ((first :: rest).map Part.text) k =
      fromStart? k (lib.get b (joinPath (lookupPath (negative k).toList ((first :: rest).map Part.text)))) := rfl
  unfold replaceNext
  rw [hnumber]
  generalize lib.get b (joinPath (lookupPath (negative k).toList ((first :: rest).map Part.text))) = node
  cases node with
  | none => rfl
  | some d =>
    cases d with
    | leaf a => rfl
    | array items => exact replace_step hpos (dot_not_mem_text (hsimple first List.mem_cons_self)) hl items
    | object fields => rfl

/-! ## A single negative index -/

theorem resolve_append : resolve node (pre ++ post) =
    resolve node pre ++ resolve (node.bind fun d => d.at? (resolve node pre)) post := by
  induction pre generalizing node with
  | nil =>
    cases node with
    | none => rfl
    | some d => rfl
  | cons part pre ih =>
    rw [List.cons_append, resolve, resolve, ih, List.cons_append]
    cases node with
    | none => rfl
    | some d => rfl

theorem resolved_of_none (h : part.fromEnd? = none) : part.resolved node = part.text := by
  unfold Part.resolved
  rw [h]
  rfl

theorem resolve_of_none (h : ∀ part ∈ parts, part.fromEnd? = none) : resolve node parts = parts.map Part.text := by
  induction parts generalizing node with
  | nil => rfl
  | cons part parts ih =>
    rw [List.forall_mem_cons] at h
    rw [resolve, resolved_of_none h.1, ih h.2, List.map_cons]

theorem lookupPath_append {r : List String} (ht : t ≠ []) (hl : ∀ u ∈ l, ¬ t <:+: u.toList) (hs : s.toList = t) :
    lookupPath t (l ++ s :: r) = l := by
  induction l with
  | nil =>
    have hhere : t.dropInfix? t = some ([], []) := by
      have happend := dropInfix?_append (i := t) (p := []) (s := []) ?_
      · rwa [List.nil_append, List.append_nil] at happend
      · rw [List.nil_append]
        intro hin
        have hle := hin.length_le
        have hpos := List.length_pos_iff.2 ht
        rw [List.length_dropLast] at hle
        omega
    rw [List.nil_append, lookupPath, hs, hhere]
    rfl
  | cons u l ih =>
    rw [List.forall_mem_cons] at hl
    rw [List.cons_append, lookupPath, dropInfix?_eq_none.2 hl.1]
    exact congrArg (u :: ·) (ih hl.2)

theorem Locatable.cases (h : Locatable parts) : (∀ part ∈ parts, part.fromEnd? = none) ∨
    ∃ first pre part k post, parts = first :: pre ++ part :: post ∧ part.fromEnd? = some k ∧
      (∀ q ∈ first :: pre ++ post, q.fromEnd? = none) ∧ ∀ q ∈ first :: pre, ¬ part.text.toList <:+: q.text.toList := by
  by_cases hnone : ∀ part ∈ parts, part.fromEnd? = none
  · exact .inl hnone
  · push Not at hnone
    obtain ⟨part, hpart, hk⟩ := hnone
    obtain ⟨k, hk'⟩ := Option.ne_none_iff_exists'.1 hk
    obtain ⟨pre, post, rfl⟩ := List.append_of_mem hpart
    obtain ⟨-, hpost, hbefore⟩ := List.pairwise_append.1 h.before
    cases pre with
    | nil => exact absurd (h.head part rfl) hk
    | cons first pre =>
      refine .inr ⟨first, pre, part, k, post, rfl, hk', fun q hq => ?_, fun q hq => (hbefore q hq part List.mem_cons_self hk).2⟩
      rcases List.mem_append.1 hq with hpre | hq
      · exact (hbefore q hpre part List.mem_cons_self hk).1
      · by_contra hne
        exact hk ((List.pairwise_cons.1 hpost).1 q hq hne).1

/-- A path with such an index is resolved. -/
theorem processNegativeIndex_of_locatable (hlib : Reads lib document) (hne : parts ≠ []) (hsimple : ∀ part ∈ parts, part.Simple)
    (hparts : Locatable parts) (hb : document b = some d) :
    processNegativeIndex lib b (pathOf parts) = joinPath (resolve (some d) parts) := by
  rcases hparts.cases with hnone | ⟨first, pre, part, k, post, rfl, hk, hnone, hbefore⟩
  · cases parts with
    | nil => exact absurd rfl hne
    | cons first rest =>
      have hks : rest.filterMap Part.fromEnd? = [] :=
        List.filterMap_eq_nil_iff.2 fun q hq => hnone q (List.mem_cons_of_mem first hq)
      rw [processNegativeIndex_eq hsimple, hks, resolve_of_none hnone]
      rfl
  · obtain ⟨htext, -⟩ := text_of_fromEnd? hk
    have hpre : ∀ q ∈ first :: pre, q.fromEnd? = none := fun q hq => hnone q (List.mem_append_left _ hq)
    have hpost : ∀ q ∈ post, q.fromEnd? = none := fun q hq => hnone q (List.mem_append_right _ hq)
    have hks : (pre ++ part :: post).filterMap Part.fromEnd? = [k] := by
      rw [List.filterMap_append, List.filterMap_cons_some hk, List.filterMap_eq_nil_iff.2 hpost,
        List.filterMap_eq_nil_iff.2 fun q hq => hpre q (List.mem_cons_of_mem first hq)]
      rfl
    have hbefore' : ∀ u ∈ (first :: pre).map Part.text, ¬ (negative k).toList <:+: u.toList := by
      intro u hu
      obtain ⟨q, hq, rfl⟩ := List.mem_map.1 hu
      exact htext ▸ hbefore q hq
    have hlookup : number lib b ((first :: (pre ++ part :: post)).map Part.text) k =
        fromStart? k (d.at? ((first :: pre).map Part.text)) := by
      have htexts : (first :: (pre ++ part :: post)).map Part.text =
          (first :: pre).map Part.text ++ negative k :: post.map Part.text := by
        rw [← htext, ← List.map_cons, ← List.map_append, List.cons_append]
      unfold number
      rw [htexts, lookupPath_append (List.ne_nil_of_mem (toList_negative ▸ List.mem_cons_self)) hbefore' rfl,
        hlib.get hb (by simp) fun s hs => ?_, fromStart?_value]
      obtain ⟨q, hq, rfl⟩ := List.mem_map.1 hs
      exact text_simple (hsimple q (List.mem_append_left _ hq))
    have hplace (n : ℕ) : place (negative k).toList (toString n) (pre.map Part.text ++ negative k :: post.map Part.text) =
        some (pre.map Part.text ++ toString n :: post.map Part.text) :=
      place_append (fun u hu hu' => hbefore' u (List.mem_cons_of_mem _ hu) hu'.isInfix) rfl
    have hrest : (pre ++ part :: post).map Part.text = pre.map Part.text ++ negative k :: post.map Part.text := by
      rw [List.map_append, List.map_cons, htext]
    have hmeant : resolve (some d) (first :: pre ++ part :: post) = (first :: pre).map Part.text ++
        ((fromStart? k (d.at? ((first :: pre).map Part.text))).map toString).getD (negative k) :: post.map Part.text := by
      rw [resolve_append, resolve_of_none hpre, resolve, resolve_of_none hpost, Option.bind_some]
      unfold Part.resolved
      rw [hk, htext, Option.bind_some]
    rw [hmeant, List.cons_append, processNegativeIndex_eq (by rwa [← List.cons_append]), hks, List.foldl_cons, List.foldl_nil, hrest]
    unfold replaceNext
    rw [hlookup]
    cases fromStart? k (d.at? ((first :: pre).map Part.text)) with
    | none => rfl
    | some n =>
      dsimp only
      rw [hplace]
      rfl

/-! ## Where an index is missed -/

/-- A document in which a path leads to another one. Where it counts from the end of an array, so many items are before. -/
def wrap (k : ℕ) : List Part → Json → Json
  | [], d => d
  | .key name :: parts, d => .object [(name, wrap k parts d)]
  | .index (.ofNat n) :: parts, d => .array (List.replicate n (.leaf .null) ++ [wrap k parts d])
  | .index (.negSucc m) :: parts, d =>
    .array (List.replicate k (.leaf .null) ++ wrap k parts d :: List.replicate m (.leaf .null))

theorem child?_wrap_text (h : part.fromEnd? = none) : (wrap k (part :: parts) d).child? part.text = some (wrap k parts d) := by
  cases part with
  | key name =>
    show Doc.field? _ _ = _
    rw [Doc.field?_cons]
    exact if_pos rfl
  | index i =>
    cases i with
    | negSucc m => cases h
    | ofNat n =>
      show (Doc.index? (toString n)).bind _ = _
      rw [Doc.index?_toString, Option.bind_some, List.getElem?_append_right (by rw [List.length_replicate]), List.length_replicate,
        Nat.sub_self]
      rfl

theorem fromStart?_wrap_of_add {m i j : ℕ} (h : i + j = k + (m + 1)) :
    fromStart? i (some (wrap k (.index (.negSucc m) :: parts) d)) = some j := by
  have hlength : (List.replicate k (Doc.leaf Scalar.null) ++ wrap k parts d :: List.replicate m (.leaf .null)).length = k + (m + 1) := by
    rw [List.length_append, List.length_replicate, List.length_cons, List.length_replicate]
  show (if i ≤ List.length _ then some (List.length _ - i) else none) = _
  rw [hlength, ← h, if_pos (Nat.le_add_right _ _), Nat.add_sub_cancel_left]

theorem resolved_wrap {m : ℕ} : (Part.index (.negSucc m)).resolved (some (wrap k (.index (.negSucc m) :: parts) d)) = toString k := by
  have hk : (Part.index (.negSucc m)).fromEnd? = some (m + 1) := rfl
  unfold Part.resolved
  rw [hk, Option.bind_some, fromStart?_wrap_of_add (Nat.add_comm _ _)]
  rfl

theorem at?_wrap : (wrap k parts d).at? (resolve (some (wrap k parts d)) parts) = some d := by
  induction parts with
  | nil => rfl
  | cons part parts ih =>
    have hchild : (wrap k (part :: parts) d).child? (part.resolved (some (wrap k (part :: parts) d))) = some (wrap k parts d) := by
      cases hk : part.fromEnd? with
      | none => rw [resolved_of_none hk, child?_wrap_text hk]
      | some n =>
        cases part with
        | key name => cases hk
        | index i =>
          cases i with
          | ofNat n => cases hk
          | negSucc m =>
            rw [resolved_wrap]
            show (Doc.index? (toString k)).bind _ = _
            rw [Doc.index?_toString, Option.bind_some, List.getElem?_append_right (by rw [List.length_replicate]),
              List.length_replicate, Nat.sub_self]
            rfl
    rw [resolve, Option.bind_some, hchild, Doc.at?_cons, hchild]
    exact ih

theorem wellFormed_wrap (hd : d.WellFormed) : (wrap k parts d).WellFormed := by
  have hnull : ∀ {n : ℕ} {c : Json}, c ∈ List.replicate n (Doc.leaf Scalar.null) → c.WellFormed := by
    intro n c hc
    rw [List.eq_of_mem_replicate hc]
    exact ⟨.leaf, .leaf (by decide)⟩
  have harray : ∀ {items : List Json}, (∀ c ∈ items, c.WellFormed) → Json.WellFormed (.array items) := fun h =>
    ⟨.array fun c hc => (h c hc).distinct, .array fun c hc => (h c hc).finite⟩
  induction parts with
  | nil => exact hd
  | cons part parts ih =>
    cases part with
    | key name =>
      refine ⟨.object (List.nodup_singleton _) fun f hf => ?_, .object fun f hf => ?_⟩
      · rw [List.mem_singleton.1 hf]
        exact ih.distinct
      · rw [List.mem_singleton.1 hf]
        exact ih.finite
    | index i =>
      cases i with
      | ofNat n =>
        refine harray fun c hc => ?_
        rcases List.mem_append.1 hc with hnulls | hlast
        · exact hnull hnulls
        · rw [List.mem_singleton.1 hlast]
          exact ih
      | negSucc m =>
        refine harray fun c hc => ?_
        rcases List.mem_append.1 hc with hnulls | hrest
        · exact hnull hnulls
        · rcases List.mem_cons.1 hrest with rfl | hnulls
          · exact ih
          · exact hnull hnulls

/-- Where a negative index is within the text of a part, that part starts with it, or it is a key with something before. -/
theorem cut_cases {p s' : List Char} (h : q.Simple) (hcut : q.text.toList = p ++ (negative k).toList ++ s') :
    (p = [] ∧ ∃ m, q = .index (.negSucc m)) ∨ p ≠ [] ∧ ∃ name, q = .key name := by
  have hminus : '-' ∈ (negative k).toList := toList_negative ▸ List.mem_cons_self
  cases q with
  | key name =>
    refine .inr ⟨?_, name, rfl⟩
    rintro rfl
    exact fromEnd?_of_prefix h ⟨s', hcut.symm⟩ rfl
  | index i =>
    cases i with
    | ofNat n =>
      have hmem : '-' ∈ (toString n).toList := by
        show '-' ∈ (Part.index (.ofNat n)).text.toList
        rw [hcut]
        exact List.mem_append_left _ (List.mem_append_right _ hminus)
      exact absurd hmem minus_not_mem_toString
    | negSucc m =>
      refine .inl ⟨?_, m, rfl⟩
      cases p with
      | nil => rfl
      | cons c p =>
        have hrest : (toString (m + 1)).toList = p ++ (negative k).toList ++ s' := (List.cons.inj (toList_negative.symm.trans hcut)).2
        have hmem : '-' ∈ (toString (m + 1)).toList := by
          rw [hrest]
          exact List.mem_append_left _ (List.mem_append_right _ hminus)
        exact absurd hmem minus_not_mem_toString

/-- Before a negative index that stands behind another one, or behind its own text, the code finds no array that just begins there. -/
theorem fromStart?_lookupPath {texts : List String} (hsimple : ∀ q ∈ pre, q.Simple)
    (hbefore : ∃ q ∈ pre, q.fromEnd? ≠ none ∨ (negative k).toList <:+: q.text.toList) :
    fromStart? k ((wrap k pre d).at? (lookupPath (negative k).toList (pre.map Part.text ++ texts))) ≠ some 0 := by
  induction pre with
  | nil =>
    obtain ⟨q, hq, -⟩ := hbefore
    cases hq
  | cons q pre ih =>
    rw [List.forall_mem_cons] at hsimple
    rw [List.map_cons, List.cons_append, lookupPath]
    cases hcut : q.text.toList.dropInfix? (negative k).toList with
    | none =>
      dsimp only
      rw [Doc.at?_cons]
      cases hq : q.fromEnd? with
      | none =>
        rw [child?_wrap_text hq]
        refine ih hsimple.2 ?_
        obtain ⟨q', hq', hor⟩ := hbefore
        rcases List.mem_cons.1 hq' with rfl | hmem
        · exact absurd hor (not_or.2 ⟨not_not.2 hq, dropInfix?_eq_none.1 hcut⟩)
        · exact ⟨q', hmem, hor⟩
      | some n =>
        cases q with
        | key name => cases hq
        | index i =>
          cases i with
          | ofNat n => cases hq
          | negSucc m =>
            have hnone : (wrap k (.index (.negSucc m) :: pre) d).child? (Part.index (.negSucc m)).text = none := by
              show (Doc.index? (negative (m + 1))).bind _ = _
              rw [index?_negative]
              rfl
            rw [hnone]
            exact (Option.some_ne_none 0).symm
    | some r =>
      obtain ⟨p, s'⟩ := r
      dsimp only
      rcases cut_cases hsimple.1 (dropInfix?_eq_some.1 hcut).1 with ⟨rfl, m, rfl⟩ | ⟨hp, name, rfl⟩
      · -- the code takes this array for the one before the index
        rw [if_pos rfl]
        show fromStart? k (some (wrap k (.index (.negSucc m) :: pre) d)) ≠ _
        rw [fromStart?_wrap_of_add rfl]
        exact fun h => absurd (Option.some.inj h) (Nat.succ_ne_zero m)
      · have hne : name ≠ String.ofList p := by
          rintro rfl
          have hlen := congrArg List.length (dropInfix?_eq_some.1 hcut).1
          have htext : (Part.key (String.ofList p)).text.toList = p := String.toList_ofList
          rw [htext, toList_negative] at hlen
          simp only [List.length_append, List.length_cons] at hlen
          omega
        have hnone : (wrap k (.key name :: pre) d).child? (String.ofList p) = none := by
          show Doc.field? _ _ = _
          rw [Doc.field?_cons, Doc.field?_nil]
          exact if_neg hne
        rw [if_neg hp, Doc.at?_singleton, hnone]
        exact (Option.some_ne_none 0).symm

/-- Where what is found is no array that just begins there, the part of a negative index becomes no zero. -/
theorem replaceNext_ne_zero {number : ℕ → Option ℕ} {i k' : ℕ} (hnumber : number k ≠ some 0)
    (hi : ∃ u, l[i]? = some u ∧ (u = negative k ∨ u ≠ "0" ∧ u.toList.head? ≠ some '-')) :
    ∃ u, (replaceNext number l k')[i]? = some u ∧ (u = negative k ∨ u ≠ "0" ∧ u.toList.head? ≠ some '-') := by
  obtain ⟨u, hu, hor⟩ := hi
  unfold replaceNext
  cases hn : number k' with
  | none => exact ⟨u, hu, hor⟩
  | some n =>
    dsimp only
    cases hplace : place (negative k').toList (toString n) l with
    | none => exact ⟨u, hu, hor⟩
    | some l' =>
      rw [Option.getD_some]
      rcases getElem?_place hplace hu with hsame | ⟨v, hv, hnew⟩
      · exact ⟨u, hsame, hor⟩
      · refine ⟨_, hnew, .inr ⟨?_, ?_⟩⟩
        · intro hzero
          have hlist := congrArg String.toList hzero
          rw [String.toList_append, String.toList_ofList] at hlist
          obtain ⟨c, cs, hn'⟩ := List.exists_cons_of_ne_nil fun h => toString_ne_empty n (String.toList_eq_nil_iff.1 h)
          rw [hn', List.cons_append] at hlist
          obtain ⟨rfl, hnil⟩ := List.cons.inj (show c :: (cs ++ v) = ['0'] from hlist)
          obtain ⟨rfl, rfl⟩ := List.append_eq_nil_iff.1 hnil
          have hn0 : n = 0 := by
            have hindex := Doc.index?_toString n
            rw [show toString n = "0" from String.toList_injective hn'] at hindex
            exact (Option.some.inj hindex).symm
          rw [List.append_nil] at hv
          rcases hor with rfl | ⟨-, hhead⟩
          · rw [negative_inj hv, hn, hn0] at hnumber
            exact hnumber rfl
          · rw [hv, toList_negative] at hhead
            exact hhead rfl
        · intro hhead
          have hne : (toString n).toList ≠ [] := fun h => toString_ne_empty n (String.toList_eq_nil_iff.1 h)
          rw [String.toList_append, List.head?_append_of_ne_nil _ hne] at hhead
          exact minus_not_mem_toString (List.mem_of_mem_head? hhead)

theorem foldl_replaceNext_ne_zero {number : ℕ → Option ℕ} {i : ℕ} {ks : List ℕ} (hnumber : number k ≠ some 0)
    (hi : ∃ u, l[i]? = some u ∧ (u = negative k ∨ u ≠ "0" ∧ u.toList.head? ≠ some '-')) :
    ∃ u, (ks.foldl (replaceNext number) l)[i]? = some u ∧ (u = negative k ∨ u ≠ "0" ∧ u.toList.head? ≠ some '-') := by
  induction ks generalizing l with
  | nil => exact hi
  | cons k' ks ih => exact ih (replaceNext_ne_zero hnumber hi)

theorem dot_not_mem_resolved (h : part.Simple) : '.' ∉ (part.resolved node).toList := by
  unfold Part.resolved
  cases part.fromEnd?.bind fun k => fromStart? k node with
  | none => exact dot_not_mem_text h
  | some n => exact dot_not_mem_toString

theorem dot_not_mem_resolve (hsimple : ∀ part ∈ parts, part.Simple) : ∀ s ∈ resolve node parts, '.' ∉ s.toList := by
  induction parts generalizing node with
  | nil => exact fun s hs => absurd hs List.not_mem_nil
  | cons part parts ih =>
    rw [List.forall_mem_cons] at hsimple
    rw [resolve, List.forall_mem_cons]
    exact ⟨dot_not_mem_resolved hsimple.1, ih hsimple.2⟩

theorem resolved_target (hk : part.fromEnd? = some k) :
    part.resolved (some (.array (List.replicate k (.leaf .null)))) = "0" := by
  have hstart : fromStart? k (some (.array (List.replicate k (.leaf .null)))) = some 0 := by
    show (if k ≤ List.length _ then some (List.length _ - k) else none) = _
    rw [List.length_replicate, if_pos le_rfl, Nat.sub_self]
  unfold Part.resolved
  rw [hk, Option.bind_some, hstart]
  rfl

theorem wellFormed_target : Json.WellFormed (.array (List.replicate k (.leaf .null))) := by
  constructor
  · refine .array fun c hc => ?_
    rw [List.eq_of_mem_replicate hc]
    exact .leaf
  · refine .array fun c hc => ?_
    rw [List.eq_of_mem_replicate hc]
    exact .leaf (by decide)

theorem length_resolve : (resolve node parts).length = parts.length := by
  induction parts generalizing node with
  | nil => rfl
  | cons part parts ih => rw [resolve, List.length_cons, List.length_cons, ih]

theorem joinPath_inj {m : List String} (hl : l ≠ []) (hm : m ≠ []) (hldot : ∀ s ∈ l, '.' ∉ s.toList)
    (hmdot : ∀ s ∈ m, '.' ∉ s.toList) (h : joinPath l = joinPath m) : l = m := by
  unfold joinPath at h
  rw [← split_join hl hldot, h, split_join hm hmdot]

theorem dot_not_mem_foldl {number : ℕ → Option ℕ} {ks : List ℕ} (h : ∀ s ∈ l, '.' ∉ s.toList) :
    ∀ s ∈ ks.foldl (replaceNext number) l, '.' ∉ s.toList := by
  induction ks generalizing l with
  | nil => exact h
  | cons k ks ih => exact ih (dot_not_mem_replaceNext h)

theorem plainKey_cut {name : String} {p r : List Char} (h : PlainKey name) (hp : p ≠ []) (hcut : name.toList = p ++ r) :
    PlainKey (String.ofList p) := by
  refine ⟨fun hempty => hp (String.ofList_eq_empty_iff.1 hempty), fun c hc => h.2.1 c ?_, fun c hc => h.2.2 c ?_⟩
  · rw [hcut]
    exact List.mem_append_left _ (by rwa [String.toList_ofList] at hc)
  · rwa [hcut, List.head?_append_of_ne_nil _ hp, ← String.toList_ofList (l := p)]

theorem lookupPath_simple (hsimple : ∀ part ∈ parts, part.Simple) :
    ∀ s ∈ lookupPath (negative k).toList (parts.map Part.text), PlainKey s ∨ ∃ k : ℕ, s = "-" ++ toString k := by
  induction parts with
  | nil => exact fun s hs => absurd hs List.not_mem_nil
  | cons part parts ih =>
    rw [List.forall_mem_cons] at hsimple
    rw [List.map_cons, lookupPath]
    cases hcut : part.text.toList.dropInfix? (negative k).toList with
    | none =>
      dsimp only
      rw [List.forall_mem_cons]
      exact ⟨text_simple hsimple.1, ih hsimple.2⟩
    | some r =>
      obtain ⟨p, s'⟩ := r
      have hcut' := (dropInfix?_eq_some.1 hcut).1
      dsimp only
      split
      next => exact fun s hs => absurd hs List.not_mem_nil
      next hp =>
        rcases cut_cases hsimple.1 hcut' with ⟨hnil, -⟩ | ⟨-, name, rfl⟩
        · exact absurd hnil hp
        · intro s hs
          rw [List.mem_singleton.1 hs]
          rw [List.append_assoc] at hcut'
          exact .inl (plainKey_cut hsimple.1 hp hcut')

theorem lookupPath_ne_nil (hsimple : first.Simple) (hfirst : first.fromEnd? = none) :
    lookupPath (negative k).toList (first.text :: l) ≠ [] := by
  rw [lookupPath]
  cases hcut : first.text.toList.dropInfix? (negative k).toList with
  | none => exact List.cons_ne_nil _ _
  | some r =>
    obtain ⟨p, s'⟩ := r
    rcases cut_cases hsimple (dropInfix?_eq_some.1 hcut).1 with ⟨-, m, rfl⟩ | ⟨hp, -⟩
    · cases hfirst
    · dsimp only
      rw [if_neg hp]
      exact List.cons_ne_nil _ _

/-- A path that is resolved in every document has no other negative index before one, nor its text. -/
theorem not_mem_before (hlib : Reads lib document) (hsimple : ∀ q ∈ first :: (pre ++ part :: post), q.Simple)
    (hfirst : first.fromEnd? = none) (hk : part.fromEnd? = some k)
    (h : ∀ b d, document b = some d →
      processNegativeIndex lib b (pathOf (first :: (pre ++ part :: post))) = joinPath (resolve (some d) (first :: (pre ++ part :: post)))) :
    ¬ ∃ q ∈ first :: pre, q.fromEnd? ≠ none ∨ (negative k).toList <:+: q.text.toList := by
  intro hbefore
  obtain ⟨b, hb⟩ := hlib.body _ (wellFormed_wrap (wellFormed_target) : Json.WellFormed (wrap k (first :: pre) (.array (List.replicate k (.leaf .null)))))
  have hpre : ∀ q ∈ first :: pre, q.Simple := fun q hq => hsimple q (by
    rw [← List.cons_append]
    exact List.mem_append_left _ hq)
  have htext := (text_of_fromEnd? hk).1
  have hnumber : number lib b ((first :: (pre ++ part :: post)).map Part.text) k ≠ some 0 := by
    have hparts := lookupPath_simple (k := k) hsimple
    have hnil : lookupPath (negative k).toList ((first :: (pre ++ part :: post)).map Part.text) ≠ [] :=
      lookupPath_ne_nil (hpre first List.mem_cons_self) hfirst
    unfold number
    rw [hlib.get hb hnil hparts, fromStart?_value, ← List.cons_append, List.map_append]
    exact fromStart?_lookupPath hpre hbefore
  have heq := h b _ hb
  rw [processNegativeIndex_eq hsimple] at heq
  have hlists := joinPath_inj (List.cons_ne_nil _ _) (List.ne_nil_of_length_pos (by rw [length_resolve]; exact Nat.succ_pos _)) ?_
    (dot_not_mem_resolve hsimple) heq
  · have hin : ∃ u, ((pre ++ part :: post).map Part.text)[pre.length]? = some u ∧ (u = negative k ∨ u ≠ "0" ∧ u.toList.head? ≠ some '-') :=
      ⟨negative k, by simp [htext], .inl rfl⟩
    obtain ⟨u, hu, hor⟩ := foldl_replaceNext_ne_zero hnumber hin
    have hmeant : (resolve (some (wrap k (first :: pre) (.array (List.replicate k (.leaf .null)))))
        (first :: (pre ++ part :: post)))[pre.length + 1]? = some "0" := by
      have hlen : (resolve (some (wrap k (first :: pre) (.array (List.replicate k (.leaf .null))))) (first :: pre)).length =
          pre.length + 1 := length_resolve
      rw [← List.cons_append, resolve_append, ← hlen, List.getElem?_append_right le_rfl, Nat.sub_self, Option.bind_some, at?_wrap,
        resolve, List.getElem?_cons_zero, resolved_target hk]
    rw [← hlists, List.getElem?_cons_succ, hu] at hmeant
    obtain rfl := Option.some.inj hmeant
    rcases hor with hzero | ⟨hne, -⟩
    · have hlist := congrArg String.toList hzero
      rw [toList_negative] at hlist
      exact absurd (List.cons.inj (show '0' :: [] = '-' :: _ from hlist)).1 (by decide)
    · exact hne rfl
  · rw [List.forall_mem_cons]
    refine ⟨dot_not_mem_text (hpre first List.mem_cons_self), dot_not_mem_foldl fun s hs => ?_⟩
    obtain ⟨q, hq, rfl⟩ := List.mem_map.1 hs
    exact dot_not_mem_text (hsimple q (List.mem_cons_of_mem _ hq))

theorem first_not_negative (hlib : Reads lib document) (hsimple : ∀ q ∈ first :: rest, q.Simple)
    (h : ∀ b d, document b = some d → processNegativeIndex lib b (pathOf (first :: rest)) = joinPath (resolve (some d) (first :: rest))) :
    first.fromEnd? = none := by
  cases hk : first.fromEnd? with
  | none => rfl
  | some k =>
    obtain ⟨b, hb⟩ := hlib.body _ (wellFormed_target (k := k))
    have heq := h b _ hb
    rw [processNegativeIndex_eq hsimple] at heq
    have hlists := joinPath_inj (List.cons_ne_nil _ _) (List.cons_ne_nil _ _) ?_ (dot_not_mem_resolve hsimple) heq
    · have hzero := (List.cons.inj hlists).1
      rw [resolved_target hk, (text_of_fromEnd? hk).1] at hzero
      have hlist := congrArg String.toList hzero
      rw [toList_negative] at hlist
      exact absurd (List.cons.inj (show '-' :: _ = '0' :: [] from hlist)).1 (by decide)
    · rw [List.forall_mem_cons]
      refine ⟨dot_not_mem_text (hsimple first List.mem_cons_self), dot_not_mem_foldl fun s hs => ?_⟩
      obtain ⟨q, hq, rfl⟩ := List.mem_map.1 hs
      exact dot_not_mem_text (hsimple q (List.mem_cons_of_mem _ hq))

/-- A path is resolved as it should be, in every document, just where its only negative index, if any, is behind other parts that are
without its text. -/
theorem processNegativeIndex_resolves_iff (hlib : Reads lib document) (hne : parts ≠ []) (hsimple : ∀ part ∈ parts, part.Simple) :
    (∀ b d, document b = some d → processNegativeIndex lib b (pathOf parts) = joinPath (resolve (some d) parts)) ↔ Locatable parts := by
  constructor
  · intro h
    cases parts with
    | nil => exact absurd rfl hne
    | cons first rest =>
      have hfirst := first_not_negative hlib hsimple h
      have hbefore : ∀ pre part post, rest = pre ++ part :: post → part.fromEnd? ≠ none →
          ∀ q ∈ first :: pre, q.fromEnd? = none ∧ ¬ part.text.toList <:+: q.text.toList := by
        rintro pre part post rfl hpart q hq
        obtain ⟨k, hk⟩ := Option.ne_none_iff_exists'.1 hpart
        have hnot := not_mem_before hlib hsimple hfirst hk h
        rw [(text_of_fromEnd? hk).1]
        constructor
        · by_contra hq'
          exact hnot ⟨q, hq, .inl hq'⟩
        · exact fun hin => hnot ⟨q, hq, .inr hin⟩
      refine ⟨fun part hpart => ?_, List.pairwise_iff_getElem.2 fun i j hi hj hij hnegative => ?_⟩
      · rw [← Option.some.inj hpart]
        exact hfirst
      · obtain ⟨j, rfl⟩ : ∃ j', j = j' + 1 := ⟨j - 1, by omega⟩
        have hj' : j < rest.length := Nat.lt_of_succ_lt_succ hj
        have hsplit : rest = rest.take j ++ rest[j] :: rest.drop (j + 1) := by
          rw [List.getElem_cons_drop, List.take_append_drop]
        refine hbefore _ _ _ hsplit hnegative _ ?_
        rw [← List.take_succ_cons]
        exact List.mem_take_iff_getElem.2 ⟨i, by omega, rfl⟩
  · exact fun hparts b d hb => processNegativeIndex_of_locatable hlib hne hsimple hparts hb

/-! ### Bodies that are documents -/

theorem documents_reads : Reads documents some where
  get {b d p} hb hp hparts := by
    cases hb
    have hsplit : split '.' (joinPath p) = p := by
      refine split_join hp fun s hs hdot => ?_
      rcases hparts s hs with hplain | ⟨k, rfl⟩
      · exact (plainKey_ne hplain hdot).1 rfl
      · exact dot_not_mem_negative hdot
    show (Doc.at? _ (split '.' _)).map _ = _
    rw [hsplit]
    rfl
  body d _ := ⟨d, rfl⟩

/-- The role of the last message. -/
def lastRole : List Part := [.key "messages", .index (-1), .key "role"]

theorem processNegativeIndex_resolves_lastRole :
    processNegativeIndex documents (.object [("messages", .array [.leaf .null, .object []])]) (pathOf lastRole) =
      joinPath (resolve (some (.object [("messages", .array [.leaf .null, .object []])])) lastRole) :=
  (processNegativeIndex_resolves_iff documents_reads (List.cons_ne_nil _ _) (by decide)).2 ⟨by decide, by decide⟩ _ _ rfl

/-- Of two arrays, only the first one is looked for. -/
theorem processNegativeIndex_twice :
    processNegativeIndex documents (.object [("a", .array [.object [("b", .array [.leaf .null, .leaf .null])]])]) "a.-1.b.-1" = "a.0.b.0" ∧
      joinPath (resolve (some (.object [("a", .array [.object [("b", .array [.leaf .null, .leaf .null])]])]))
        [.key "a", .index (-1), .key "b", .index (-1)]) = "a.0.b.1" := by
  constructor
  · decide +kernel
  · decide +kernel

end

end NewApi.Override.NegativeIndex

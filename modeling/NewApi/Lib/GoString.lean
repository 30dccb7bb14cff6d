import NewApi.Lib.Pieces
import Mathlib.Data.List.Basic
import Mathlib.Data.List.Infix
import Mathlib.Data.List.TakeWhile

/-!
# Strings

The functions of Go's `strings` package that the model uses, by way of lists of characters, so that
they evaluate in the kernel.
-/

namespace NewApi.GoString

/-- `strings.Split(s, sep)` for a separator of one character. -/
def split (sep : Char) (s : String) : List String := (s.toList.splitOn sep).map String.ofList

/-- `strings.HasPrefix`. -/
def hasPrefix (s pre : String) : Bool := pre.toList.isPrefixOf s.toList

/-- `strings.HasSuffix`. -/
def hasSuffix (s suf : String) : Bool := suf.toList.isSuffixOf s.toList

/-- `strings.TrimSuffix`. -/
def trimSuffix (s suf : String) : String :=
  if hasSuffix s suf then String.ofList (s.toList.take (s.toList.length - suf.toList.length)) else s

/-- `s[len(pre):]`, for a text that starts with the other. -/
def after (s pre : String) : String := String.ofList (s.toList.drop pre.toList.length)

/-- `strings.Contains`. -/
def contains (s sub : String) : Bool := decide (sub.toList <:+: s.toList)

/-- `unicode.IsSpace`. -/
def isSpace (c : Char) : Bool :=
  c.val ∈ [0x09, 0x0a, 0x0b, 0x0c, 0x0d, 0x20, 0x85, 0xa0, 0x1680, 0x2028, 0x2029, 0x202f, 0x205f,
    0x3000] ∨ 0x2000 ≤ c.val ∧ c.val ≤ 0x200a

/-- `strings.TrimSpace`. -/
def trimSpace (s : String) : String :=
  String.ofList ((s.toList.dropWhile isSpace).reverse.dropWhile isSpace).reverse

/-- `strings.TrimLeft`, for a cutset of one character. -/
def trimLeft (c : Char) (s : String) : String := String.ofList (s.toList.dropWhile (· = c))

/-- `strings.TrimRight`, for a cutset of one character. -/
def trimRight (c : Char) (s : String) : String := String.ofList (s.toList.reverse.dropWhile (· = c)).reverse

/-- `strings.Trim`, of one character. -/
def trim (c : Char) (s : String) : String := trimRight c (trimLeft c s)

/-- `strings.Join`, for a separator of one character. -/
def join (sep : Char) (l : List String) : String := (String.singleton sep).intercalate l

/-- `strings.ToLower`, as far as a comparison with ASCII text can tell: besides the capitals of ASCII,
the Kelvin sign and the dotted I have their lower case there. -/
def toLower (s : String) : String :=
  String.ofList (s.toList.map fun c =>
    if c = '\u212a' then 'k' else if c = '\u0130' then 'i' else c.toLower)

/-- A concatenation is empty just when all its parts are. -/
theorem join_eq_empty_iff {l : List String} : String.join l = "" ↔ ∀ s ∈ l, s = "" := by
  induction l with
  | nil => simp
  | cons s l ih => rw [String.join_cons, String.append_eq_empty_iff, ih, List.forall_mem_cons]

/-- A concatenation is its last part just when the others are empty. -/
theorem join_eq_getLast_iff {l : List String} : String.join l = l.getLast?.getD "" ↔ ∀ s ∈ l.dropLast, s = "" := by
  rcases List.eq_nil_or_concat' l with rfl | ⟨init, last, rfl⟩
  · exact iff_of_true rfl (List.forall_mem_nil _)
  · rw [List.getLast?_concat, Option.getD_some, List.dropLast_concat, String.join_append, String.join_cons,
      ← join_eq_empty_iff]
    constructor
    · intro h
      have hlen := congrArg String.length h
      rw [String.length_append, String.length_append] at hlen
      exact String.length_eq_zero_iff.1 (by omega)
    · intro h
      rw [h]
      exact String.empty_append.trans String.append_empty

/-- Each part is in a concatenation. -/
theorem exists_join_eq_of_mem {l : List String} {s : String} (h : s ∈ l) : ∃ pre post, String.join l = pre ++ s ++ post := by
  obtain ⟨init, rest, rfl⟩ := List.append_of_mem h
  exact ⟨String.join init, String.join rest, by rw [String.join_append, String.join_cons, String.append_assoc]⟩

/-- Texts that are joined piece by piece. -/
theorem join_flatMap {α : Type*} {f : α → List String} {l : List α} :
    String.join (l.flatMap f) = String.join (l.map fun a => String.join (f a)) := by
  induction l with
  | nil => rfl
  | cons a l ih => rw [List.flatMap_cons, List.map_cons, String.join_append, String.join_cons, ih]

/-- Where no piece is longer, two texts joined of as many pieces are the same just if their pieces are. -/
theorem join_map_eq_iff {α : Type*} {f g : α → String} {l : List α} (h : ∀ a ∈ l, (f a).length ≤ (g a).length) :
    String.join (l.map f) = String.join (l.map g) ↔ ∀ a ∈ l, f a = g a := by
  rw [← String.toList_inj, String.toList_join, String.toList_join, List.flatMap_map, List.flatMap_map,
    flatMap_eq_iff fun a ha => by rw [String.length_toList, String.length_toList]; exact h a ha]
  exact forall₂_congr fun a _ => String.toList_inj

/-- Of two texts, one starts with a prefix of the other's start and goes on with no more than the
other: they are equal just when both parts are. -/
theorem append_eq_iff_of_prefix {p s a b : String} (hp : ∃ r, s = p ++ r) (h : a.length ≤ b.length) :
    p ++ a = s ++ b ↔ p = s ∧ a = b := by
  obtain ⟨r, rfl⟩ := hp
  rw [String.append_assoc, String.append_right_inj]
  refine ⟨fun heq => ?_, fun ⟨hr, hab⟩ => ?_⟩
  · have hlen := congrArg String.length heq
    rw [String.length_append] at hlen
    have hr : r = "" := String.length_eq_zero_iff.1 (by omega)
    rw [hr, String.empty_append] at heq
    exact ⟨by rw [hr, String.append_empty], heq⟩
  · have hr : "" = r := (String.append_right_inj p).1 ((String.append_empty ..).trans hr)
    rw [hab, ← hr, String.empty_append]

/-- Where two texts are equal and the second part of one is no longer, its first part starts with that of
the other. -/
theorem exists_append_of_append_eq {p s a b : String} (heq : p ++ a = s ++ b)
    (h : a.length ≤ b.length) : ∃ r, p = s ++ r := by
  have hlist : p.toList ++ a.toList = s.toList ++ b.toList := by
    rw [← String.toList_append, heq, String.toList_append]
  have hlen : a.toList.length ≤ b.toList.length := h
  rcases List.append_eq_append_iff.1 hlist with ⟨r, hs, ha⟩ | ⟨r, hp, hb⟩
  · have hr : r = [] := by
      rw [ha, List.length_append] at hlen
      exact List.length_eq_zero_iff.1 (by omega)
    rw [hr, List.append_nil] at hs
    exact ⟨"", String.toList_injective (by simp [hs])⟩
  · exact ⟨String.ofList r, String.toList_injective (by simp [hp])⟩

/-- A prefix is a text with something more to it just when there is no more on either side. -/
theorem prefix_eq_append_iff {p s t : String} (hp : ∃ r, s = p ++ r) :
    p = s ++ t ↔ t = "" ∧ p = s := by
  have hiff : p ++ "" = s ++ t ↔ p = s ∧ "" = t := append_eq_iff_of_prefix hp (Nat.zero_le _)
  rw [String.append_empty] at hiff
  rw [hiff, and_comm, eq_comm (b := t)]

theorem hasSuffix_iff {s suf : String} : hasSuffix s suf = true ↔ ∃ pre, s = pre ++ suf := by
  unfold hasSuffix
  rw [List.isSuffixOf_iff_suffix]
  constructor
  · rintro ⟨pre, hpre⟩
    refine ⟨String.ofList pre, String.toList_inj.1 ?_⟩
    rw [String.toList_append, String.toList_ofList, hpre]
  · rintro ⟨pre, rfl⟩
    exact ⟨pre.toList, String.toList_append.symm⟩

/-- A suffix that is put on can be taken off. -/
theorem trimSuffix_append (s suf : String) : trimSuffix (s ++ suf) suf = s := by
  unfold trimSuffix
  rw [if_pos (hasSuffix_iff.2 ⟨s, rfl⟩), String.toList_append, List.length_append, Nat.add_sub_cancel,
    List.take_left, String.ofList_toList]

theorem hasPrefix_iff {s pre : String} : hasPrefix s pre = true ↔ pre.toList <+: s.toList :=
  List.isPrefixOf_iff_prefix

theorem hasPrefix_append (s t : String) : hasPrefix (s ++ t) s = true := by
  rw [hasPrefix_iff, String.toList_append]
  exact List.prefix_append ..

/-- A prefix and what is behind it. -/
theorem append_after {s pre : String} (h : hasPrefix s pre = true) : pre ++ after s pre = s := by
  obtain ⟨l, hl⟩ := hasPrefix_iff.1 h
  unfold after
  rw [← hl, List.drop_left, ← String.toList_inj, String.toList_append, String.toList_ofList, hl]

/-! ## Trimming -/

theorem dropWhile_eq_self {α : Type*} {p : α → Bool} {l : List α} (h : ∀ a ∈ l.head?, p a = false) :
    l.dropWhile p = l := by
  cases l with
  | nil => rfl
  | cons a l => exact List.dropWhile_cons_of_neg (by rw [h a rfl]; exact Bool.false_ne_true)

/-- What is trimmed at the left does not start with what is trimmed. -/
theorem head?_dropWhile {α : Type*} {p : α → Bool} {l : List α} : ∀ a ∈ (l.dropWhile p).head?, p a = false := by
  intro a ha
  have h := List.head?_dropWhile_not p l
  rw [Option.mem_def] at ha
  rw [ha] at h
  exact h

/-- A text that neither starts nor ends with white space is trimmed. -/
theorem trimSpace_eq_self {s : String} (hhead : ∀ c ∈ s.toList.head?, isSpace c = false)
    (hlast : ∀ c ∈ s.toList.getLast?, isSpace c = false) : trimSpace s = s := by
  unfold trimSpace
  rw [dropWhile_eq_self hhead, dropWhile_eq_self, List.reverse_reverse, String.ofList_toList]
  rw [List.head?_reverse]
  exact hlast

/-- A trimmed text does not end with white space. -/
theorem getLast?_trimSpace {s : String} : ∀ c ∈ (trimSpace s).toList.getLast?, isSpace c = false := by
  unfold trimSpace
  rw [String.toList_ofList, List.getLast?_reverse]
  exact head?_dropWhile

/-- And it does not start with it. -/
theorem head?_trimSpace {s : String} : ∀ c ∈ (trimSpace s).toList.head?, isSpace c = false := by
  intro c hc
  have hprefix : (trimSpace s).toList <+: s.toList.dropWhile isSpace := by
    unfold trimSpace
    rw [String.toList_ofList, ← List.reverse_suffix, List.reverse_reverse]
    exact List.dropWhile_suffix _
  obtain ⟨rest, hrest⟩ := hprefix
  refine head?_dropWhile (l := s.toList) c ?_
  rw [← hrest, List.head?_append, Option.mem_def, Option.mem_def.1 hc, Option.some_or]

/-- Nothing is in a trimmed text that is not in the text. -/
theorem trimSpace_sublist {s : String} : (trimSpace s).toList.Sublist s.toList := by
  unfold trimSpace
  rw [String.toList_ofList, ← List.reverse_sublist, List.reverse_reverse]
  exact (List.dropWhile_sublist _).trans (List.dropWhile_sublist _).reverse

/-- Trimming a trimmed text changes nothing. -/
theorem trimSpace_trimSpace (s : String) : trimSpace (trimSpace s) = trimSpace s :=
  trimSpace_eq_self head?_trimSpace getLast?_trimSpace

/-- A text with more than white space is not trimmed to nothing. -/
theorem trimSpace_ne_empty {s : String} {c : Char} (hc : c ∈ s.toList) (hspace : isSpace c = false) : trimSpace s ≠ "" := by
  intro h
  have hnil := congrArg String.toList h
  unfold trimSpace at hnil
  rw [String.toList_ofList, String.toList_empty, List.reverse_eq_nil_iff, List.dropWhile_eq_nil_iff] at hnil
  have hleft : s.toList.dropWhile isSpace = [] := by
    cases hl : s.toList.dropWhile isSpace with
    | nil => rfl
    | cons a l =>
      have ha := head?_dropWhile (p := isSpace) (l := s.toList) a (by rw [hl]; rfl)
      have hmem := hnil a (List.mem_reverse.2 (hl ▸ List.mem_cons_self))
      exact absurd (hmem.symm.trans ha) nofun
  exact absurd ((List.dropWhile_eq_nil_iff.1 hleft c hc).symm.trans hspace) nofun

/-- A text that does not start with white space is trimmed to one that starts as it does. -/
theorem head?_trimSpace_of_head? {s : String} {c : Char} (h : s.toList.head? = some c) (hc : isSpace c = false) :
    (trimSpace s).toList.head? = some c := by
  have hne : trimSpace s ≠ "" := trimSpace_ne_empty (List.mem_of_head? h) hc
  have hleft : s.toList.dropWhile isSpace = s.toList := by
    refine dropWhile_eq_self fun a ha => ?_
    rw [h] at ha
    rw [← Option.some.inj ha]
    exact hc
  have hprefix : (trimSpace s).toList <+: s.toList := by
    unfold trimSpace
    rw [String.toList_ofList, hleft, ← List.reverse_suffix, List.reverse_reverse]
    exact List.dropWhile_suffix _
  obtain ⟨rest, hrest⟩ := hprefix
  rw [← hrest, List.head?_append_of_ne_nil _ fun hnil => hne (String.toList_eq_nil_iff.1 hnil)] at h
  exact h

/-! ### Of one character -/

section
variable {c : Char} {s : String}

theorem toList_trim :
    (trim c s).toList = ((s.toList.dropWhile (· = c)).reverse.dropWhile (· = c)).reverse := by
  unfold trim trimLeft trimRight
  rw [String.toList_ofList, String.toList_ofList]

theorem trim_prefix : (trim c s).toList <+: s.toList.dropWhile (· = c) := by
  rw [toList_trim, ← List.reverse_suffix, List.reverse_reverse]
  exact List.dropWhile_suffix _

theorem trim_sublist : (trim c s).toList.Sublist s.toList :=
  trim_prefix.sublist.trans (List.dropWhile_sublist _)

/-- A text that neither starts nor ends with a character is trimmed. -/
theorem trim_eq_self (hhead : s.toList.head? ≠ some c) (hlast : s.toList.getLast? ≠ some c) : trim c s = s := by
  have hleft : s.toList.dropWhile (· = c) = s.toList :=
    dropWhile_eq_self fun a ha => decide_eq_false fun heq => hhead (heq ▸ ha)
  have hright : s.toList.reverse.dropWhile (· = c) = s.toList.reverse := by
    refine dropWhile_eq_self fun a ha => decide_eq_false fun heq => hlast ?_
    rw [List.head?_reverse] at ha
    exact heq ▸ ha
  rw [← String.toList_inj, toList_trim, hleft, hright, List.reverse_reverse]

/-- A trimmed text does not start with the character. -/
theorem head?_trim : (trim c s).toList.head? ≠ some c := by
  intro h
  obtain ⟨rest, hrest⟩ := trim_prefix (c := c) (s := s)
  have hnot := head?_dropWhile (l := s.toList) c (by rw [← hrest, List.head?_append, h]; rfl)
  exact of_decide_eq_false hnot rfl

/-- What is not the character stays. -/
theorem mem_trim {a : Char} (ha : a ∈ s.toList) (hne : a ≠ c) : a ∈ (trim c s).toList := by
  have hmem : ∀ {l : List Char}, a ∈ l → a ∈ l.dropWhile (· = c) := by
    intro l hl
    rw [← List.takeWhile_append_dropWhile (p := fun b => decide (b = c)) (l := l)] at hl
    rcases List.mem_append.1 hl with hl | hl
    · have hdec : decide (a = c) = true := List.mem_takeWhile_imp (p := fun b => decide (b = c)) hl
      exact absurd (of_decide_eq_true hdec) hne
    · exact hl
  rw [toList_trim, List.mem_reverse]
  exact hmem (List.mem_reverse.2 (hmem ha))

theorem dropWhile_cons_self {l : List Char} : (c :: l).dropWhile (· = c) = l.dropWhile (· = c) :=
  List.dropWhile_cons_of_pos (decide_eq_true rfl)

/-- Where a text starts with the character, it is trimmed. -/
theorem trim_sublist_of_head? {l : List Char} (h : s.toList = c :: l) : (trim c s).toList.Sublist l := by
  refine trim_prefix.sublist.trans ?_
  rw [h, dropWhile_cons_self]
  exact List.dropWhile_sublist _

/-- Where it ends with it, too. -/
theorem trim_sublist_of_getLast? {l : List Char} (h : s.toList = l ++ [c]) : (trim c s).toList.Sublist l := by
  rw [toList_trim, h, List.dropWhile_append]
  split
  · rw [dropWhile_cons_self]
    exact List.nil_sublist l
  · rw [List.reverse_append, List.reverse_singleton, List.singleton_append, dropWhile_cons_self, ← List.reverse_sublist,
      List.reverse_reverse]
    exact (List.dropWhile_sublist _).trans (List.reverse_sublist.2 (List.dropWhile_sublist _))

/-- So a trimmed text has fewer of the character, unless it had none at its ends. -/
theorem count_trim_eq (h : (trim c s).toList.count c = s.toList.count c) :
    s.toList.head? ≠ some c ∧ s.toList.getLast? ≠ some c := by
  constructor
  · intro hhead
    obtain ⟨l, hl⟩ := List.head?_eq_some_iff.1 hhead
    have hle := (trim_sublist_of_head? hl).count_le c
    rw [h, hl, List.count_cons_self] at hle
    omega
  · intro hlast
    obtain ⟨l, hl⟩ := List.getLast?_eq_some_iff.1 hlast
    have hle := (trim_sublist_of_getLast? hl).count_le c
    rw [h, hl, List.count_append, List.count_singleton_self] at hle
    omega

end

theorem isSpace_of_isDigit {c : Char} (h : c.isDigit = true) : isSpace c = false := by
  unfold Char.isDigit at h
  unfold isSpace
  simp only [Bool.and_eq_true, decide_eq_true_eq, ge_iff_le, UInt32.le_iff_toNat_le] at h
  rw [decide_eq_false_iff_not]
  simp only [List.mem_cons, List.not_mem_nil, or_false, ← UInt32.toNat_inj, UInt32.le_iff_toNat_le]
  simp at h ⊢
  omega

/-- A number is written without white space. -/
theorem isSpace_of_mem_toString {n : ℕ} {c : Char} (h : c ∈ (toString n).toList) : isSpace c = false := by
  have hdigit : c ∈ Nat.toDigits 10 n := by simpa [Nat.repr] using h
  exact isSpace_of_isDigit (Nat.isDigit_of_mem_toDigits (by decide) (by decide) hdigit)

theorem toString_ne_empty (n : ℕ) : toString n ≠ "" := by
  intro h
  have hlist := congrArg String.toList h
  simp [Nat.repr] at hlist

/-! ## Joined texts -/

theorem toList_join_cons {sep : Char} {s : String} {l : List String} (hl : l ≠ []) :
    (join sep (s :: l)).toList = s.toList ++ sep :: (join sep l).toList := by
  unfold join
  rw [String.intercalate_cons_of_ne_nil hl]
  simp

/-- The characters of a joined list but for the separators. -/
theorem mem_toList_join {sep c : Char} {l : List String} (hc : c ≠ sep) :
    c ∈ (join sep l).toList ↔ ∃ s ∈ l, c ∈ s.toList := by
  induction l with
  | nil => simp [join]
  | cons s l ih =>
    cases l with
    | nil => simp [join]
    | cons t l =>
      rw [toList_join_cons (List.cons_ne_nil _ _), List.mem_append, List.mem_cons, or_iff_right hc, ih]
      simp only [List.mem_cons, exists_eq_or_imp]

/-- A text is joined behind others. -/
theorem join_concat {sep : Char} {l : List String} {s : String} (hl : l ≠ []) :
    join sep (l ++ [s]) = join sep l ++ String.singleton sep ++ s := by
  rw [← String.toList_inj, String.toList_append, String.toList_append]
  induction l with
  | nil => exact absurd rfl hl
  | cons t l ih =>
    rw [List.cons_append, toList_join_cons (List.append_ne_nil_of_right_ne_nil _ (List.cons_ne_nil _ _))]
    cases l with
    | nil =>
      unfold join
      rw [List.nil_append, String.intercalate_singleton, String.intercalate_singleton, String.toList_singleton,
        List.append_assoc]
      rfl
    | cons u l =>
      rw [ih (List.cons_ne_nil _ _), toList_join_cons (List.cons_ne_nil _ _)]
      simp

theorem join_singleton (sep : Char) (s : String) : join sep [s] = s := String.intercalate_singleton

theorem toList_join_pair {sep : Char} {s t : String} : (join sep [s, t]).toList = s.toList ++ sep :: t.toList := by
  rw [toList_join_cons (List.cons_ne_nil _ _), join_singleton]

/-- Joined texts whose first parts are without separators have the same first part and the same rest. -/
theorem join_cons_inj {sep : Char} {s t : String} {l m : List String} (hl : l ≠ []) (hm : m ≠ [])
    (hs : sep ∉ s.toList) (ht : sep ∉ t.toList) :
    join sep (s :: l) = join sep (t :: m) ↔ s = t ∧ join sep l = join sep m := by
  rw [← String.toList_inj, toList_join_cons hl, toList_join_cons hm]
  constructor
  · intro heq
    rcases List.append_eq_append_iff.1 heq with ⟨r, htr, hr⟩ | ⟨r, hsr, hr⟩
    · cases r with
      | nil =>
        rw [List.append_nil] at htr
        exact ⟨String.toList_inj.1 htr.symm, String.toList_inj.1 (List.cons.inj hr).2⟩
      | cons c r =>
        rw [htr, (List.cons.inj hr).1] at ht
        exact absurd (List.mem_append_right _ List.mem_cons_self) ht
    · cases r with
      | nil =>
        rw [List.append_nil] at hsr
        exact ⟨String.toList_inj.1 hsr, String.toList_inj.1 (List.cons.inj hr).2.symm⟩
      | cons c r =>
        rw [hsr, (List.cons.inj hr).1] at hs
        exact absurd (List.mem_append_right _ List.mem_cons_self) hs
  · rintro ⟨rfl, hrest⟩
    rw [hrest]

/-- Joined texts of equally many parts, all but the last of them without separators, have the same parts. -/
theorem join_append_inj {sep : Char} {l m : List String} {s t : String} (hlen : l.length = m.length)
    (hl : ∀ p ∈ l, sep ∉ p.toList) (hm : ∀ p ∈ m, sep ∉ p.toList) :
    join sep (l ++ [s]) = join sep (m ++ [t]) ↔ l = m ∧ s = t := by
  induction l generalizing m with
  | nil =>
    rw [List.length_nil, eq_comm, List.length_eq_zero_iff] at hlen
    rw [hlen, List.nil_append, List.nil_append, join_singleton, join_singleton, and_iff_right rfl]
  | cons a l ih =>
    cases m with
    | nil => cases hlen
    | cons b m =>
      rw [List.forall_mem_cons] at hl hm
      rw [List.cons_append, List.cons_append, join_cons_inj (by simp) (by simp) hl.1 hm.1,
        ih (Nat.succ.inj hlen) hl.2 hm.2, List.cons.injEq, and_assoc]

/-- A split has at least one part. -/
theorem split_ne_nil (sep : Char) (s : String) : split sep s ≠ [] := by
  simp [split, List.splitOn_ne_nil]

/-- The parts of a joined list are the list's, where none has the separator. -/
theorem split_join {sep : Char} {l : List String} (hl : l ≠ []) (h : ∀ s ∈ l, sep ∉ s.toList) :
    split sep (join sep l) = l := by
  have hmem : ∀ cs ∈ l.map String.toList, sep ∉ cs := by
    intro cs hcs
    obtain ⟨s, hs, rfl⟩ := List.mem_map.1 hcs
    exact h s hs
  unfold split join
  rw [String.toList_intercalate, String.toList_singleton, List.splitOn_intercalate sep hmem (by simpa using hl),
    List.map_map]
  exact (List.map_congr_left fun s _ => String.ofList_toList).trans (List.map_id l)

example : split ',' "gpt-4o,,o3" = ["gpt-4o", "", "o3"] := by decide

example : contains "gemini-2.5-pro-thinking-128" "-thinking-" = true := by decide

end NewApi.GoString

import Mathlib.Data.Int.SuccPred
import Mathlib.Data.List.Sort
import NewApi.Lib.Arith
import NewApi.Lib.Document
import NewApi.Lib.Intervals
import NewApi.Lib.Tokens
import NewApi.Relay.Loop

/-!
# Rules of status codes

An administrator writes the status codes for which a channel is disabled, or a request is tried again, as a list of codes and
ranges. `ParseHTTPStatusCodeRanges` sorts and merges them, and `shouldMatchStatusCodeRanges` stops at the first range that starts
behind a code.

A code matches just if a token of the text is the code or a range that contains it; the ranges neither overlap nor touch; and the
text that is written of them is read as the same ranges again (`parse_ok_spec`).
-/

namespace NewApi.StatusCodes

open GoString

/-- `StatusCodeRange`: the codes from `Start` to `End`. -/
abbrev StatusCodeRange := Interval Int

/-- `statusCodeRangesToString`, of a range. -/
def rangeToString (r : StatusCodeRange) : String :=
  if r.first = r.last then toString r.first else toString r.first ++ "-" ++ toString r.last

/-- `statusCodeRangesToString`. -/
def statusCodeRangesToString (ranges : List StatusCodeRange) : String := join ',' (ranges.map rangeToString)

/-- The loop of `shouldMatchStatusCodeRanges`. -/
def matchLoop (code : Int) : List StatusCodeRange → Bool
  | [] => false
  | r :: ranges => if code < r.first then false else if code ≤ r.last then true else matchLoop code ranges

/-- `shouldMatchStatusCodeRanges`. -/
def shouldMatchStatusCodeRanges (ranges : List StatusCodeRange) (code : Int) : Bool :=
  if code < 100 ∨ code > 599 then false else matchLoop code ranges

/-- `strconv.Atoi`. -/
def atoi (s : String) : Option Int :=
  let n : Option Int :=
    match s.toList with
    | '-' :: digits => (Doc.index? (String.ofList digits)).map fun n => -Int.ofNat n
    | '+' :: digits => (Doc.index? (String.ofList digits)).map Int.ofNat
    | _ => (Doc.index? s).map Int.ofNat
  n.filter fun n => Fits64 n

/-- `parseHTTPStatusCodeToken`. -/
def parseHTTPStatusCodeToken (token : String) : Except String StatusCodeRange :=
  let token := trimSpace token
  let token := String.ofList (token.toList.filter (· ≠ ' '))
  if token = "" then .error "empty token"
  else if contains token "-" then
    match split '-' token with
    | [first, last] =>
      if first = "" ∨ last = "" then .error ("invalid range token: " ++ token)
      else
        match atoi first, atoi last with
        | none, _ => .error ("invalid range start: " ++ token)
        | some _, none => .error ("invalid range end: " ++ token)
        | some first, some last =>
          if first > last then .error ("range start > end: " ++ token)
          else if first < 100 ∨ last > 599 then .error ("range out of bounds: " ++ token)
          else .ok ⟨first, last⟩
    | _ => .error ("invalid range token: " ++ token)
  else
    match atoi token with
    | none => .error ("invalid status code: " ++ token)
    | some code =>
      if code < 100 ∨ code > 599 then .error ("status code out of bounds: " ++ token) else .ok ⟨code, code⟩

/-- The loop over the segments: the ranges, and the segments that are none. -/
def parseSegments : List String → List StatusCodeRange × List String
  | [] => ([], [])
  | seg :: segments =>
    let seg := trimSpace seg
    let (ranges, invalid) := parseSegments segments
    if seg = "" then (ranges, invalid)
    else
      match parseHTTPStatusCodeToken seg with
      | .error _ => (ranges, seg :: invalid)
      | .ok r => (r :: ranges, invalid)

/-- The loop that merges ranges, behind the last one of the merged. -/
def mergeLoop (last : StatusCodeRange) : List StatusCodeRange → List StatusCodeRange
  | [] => [last]
  | r :: ranges =>
    if r.first ≤ last.last + 1 then
      mergeLoop (if r.last > last.last then { last with last := r.last } else last) ranges
    else last :: mergeLoop r ranges

/-- The segments of an input. -/
def segments (input : String) : List String :=
  split ',' (String.ofList (input.toList.map fun c => if c = '，' then ',' else c))

/-- `ParseHTTPStatusCodeRanges`. The order of `sort.Slice` is total, so that it need not be stable. -/
def parseHTTPStatusCodeRanges (input : String) : Except String (List StatusCodeRange) :=
  let input := trimSpace input
  if input = "" then .ok []
  else
    let (ranges, invalid) := parseSegments (segments input)
    if invalid ≠ [] then .error ("invalid http status code rules: " ++ ", ".intercalate invalid)
    else
      match ranges.insertionSort Interval.Le with
      | [] => .ok []
      | r :: ranges => .ok (mergeLoop r ranges)

/-! ## What a text says -/

/-- A comma, of half or of full width. -/
def isComma (c : Char) : Bool := c = ',' ∨ c = '，'

/-- The tokens of an input. -/
def tokens (input : String) : List String := (input.toList.splitOnP isComma).map String.ofList

/-- A token without the white space around it and the blanks in it. -/
def bare (token : String) : List Char := (trimSpace token).toList.filter (· ≠ ' ')

/-- A number in digits, which may have a plus before it. -/
def Numeral (cs : List Char) (n : Int) : Prop :=
  ∃ digits, digits ≠ [] ∧ (∀ c ∈ digits, c.isDigit) ∧ (cs = digits ∨ cs = '+' :: digits) ∧ n = Nat.ofDigitChars 10 digits 0

/-- The token is a code, or a range of codes. -/
inductive Denotes (token : String) : StatusCodeRange → Prop
  | code {n : Int} : Numeral (bare token) n → Denotes token ⟨n, n⟩
  | range {first last : List Char} {a b : Int} : bare token = first ++ '-' :: last → Numeral first a → Numeral last b →
      Denotes token ⟨a, b⟩

/-- The range is one of status codes. -/
structure InBounds (r : StatusCodeRange) : Prop where
  ge : 100 ≤ r.first
  le : r.first ≤ r.last
  le_last : r.last ≤ 599

section
variable {cs : List Char} {a b n m code : Int} {s token : String} {r last : StatusCodeRange} {ranges l : List StatusCodeRange}
  {segs : List String}

/-! ## Numbers -/

theorem index?_eq_some {k : ℕ} : Doc.index? s = some k ↔
    s.toList ≠ [] ∧ (∀ c ∈ s.toList, c.isDigit) ∧ k = Nat.ofDigitChars 10 s.toList 0 := by
  unfold Doc.index?
  split
  next h =>
    rw [Option.some.injEq, eq_comm]
    exact ⟨fun heq => ⟨fun hnil => h.1 (String.toList_eq_nil_iff.1 hnil), List.all_eq_true.1 h.2, heq⟩, fun heq => heq.2.2⟩
  next h => exact iff_of_false nofun fun hall => h ⟨fun hempty => hall.1 (String.toList_eq_nil_iff.2 hempty), List.all_eq_true.2 hall.2.1⟩

theorem numeral_iff_index? (hplus : ∀ digits, cs ≠ '+' :: digits) :
    Numeral cs n ↔ ∃ k, Doc.index? (String.ofList cs) = some k ∧ n = k := by
  simp only [index?_eq_some, String.toList_ofList]
  constructor
  · rintro ⟨digits, hne, hdigits, rfl | rfl, rfl⟩
    · exact ⟨_, ⟨hne, hdigits, rfl⟩, rfl⟩
    · exact absurd rfl (hplus digits)
  · rintro ⟨k, ⟨hne, hdigits, rfl⟩, rfl⟩
    exact ⟨cs, hne, hdigits, .inl rfl, rfl⟩

theorem numeral_plus_iff : Numeral ('+' :: cs) n ↔ ∃ k, Doc.index? (String.ofList cs) = some k ∧ n = k := by
  simp only [index?_eq_some, String.toList_ofList]
  constructor
  · rintro ⟨digits, hne, hdigits, heq | heq, rfl⟩
    · rw [← heq] at hdigits
      exact absurd (hdigits '+' List.mem_cons_self) (by decide)
    · obtain rfl := (List.cons.inj heq).2
      exact ⟨_, ⟨hne, hdigits, rfl⟩, rfl⟩
  · rintro ⟨k, ⟨hne, hdigits, rfl⟩, rfl⟩
    exact ⟨cs, hne, hdigits, .inr rfl, rfl⟩

namespace Numeral

theorem unique (h : Numeral cs n) (h' : Numeral cs m) : n = m := by
  rcases cs with _ | ⟨c, cs⟩
  · obtain ⟨digits, hne, -, heq | heq, -⟩ := h
    · exact absurd heq.symm hne
    · cases heq
  by_cases hc : c = '+'
  · subst hc
    obtain ⟨k, hk, rfl⟩ := numeral_plus_iff.1 h
    obtain ⟨k', hk', rfl⟩ := numeral_plus_iff.1 h'
    rw [Option.some.inj (hk.symm.trans hk')]
  · have hplus : ∀ digits, c :: cs ≠ '+' :: digits := fun digits heq => hc (List.cons.inj heq).1
    obtain ⟨k, hk, rfl⟩ := (numeral_iff_index? hplus).1 h
    obtain ⟨k', hk', rfl⟩ := (numeral_iff_index? hplus).1 h'
    rw [Option.some.inj (hk.symm.trans hk')]

theorem ne_nil (h : Numeral cs n) : cs ≠ [] := by
  obtain ⟨digits, hne, -, rfl | rfl, -⟩ := h
  · exact hne
  · exact List.cons_ne_nil _ _

theorem dash_notMem (h : Numeral cs n) : '-' ∉ cs := by
  obtain ⟨digits, -, hdigits, rfl | rfl, -⟩ := h
  · exact fun hmem => absurd (hdigits '-' hmem) (by decide)
  · intro hmem
    rcases List.mem_cons.1 hmem with heq | hmem
    · exact absurd heq (by decide)
    · exact absurd (hdigits '-' hmem) (by decide)

theorem toString (k : ℕ) : Numeral (ToString.toString k).toList k := by
  have hindex := Doc.index?_toString k
  rw [index?_eq_some] at hindex
  exact ⟨_, hindex.1, hindex.2.1, .inl rfl, by rw [← hindex.2.2]⟩

end Numeral

/-- The positive numbers that `Atoi` reads. -/
theorem atoi_eq_some_iff (hpos : 0 < n) : atoi s = some n ↔ Numeral s.toList n ∧ n < 2 ^ 63 := by
  have hfits : Fits64 n ↔ n < 2 ^ 63 := and_iff_right (by omega)
  unfold atoi
  rw [Option.filter_eq_some_iff, decide_eq_true_eq, hfits]
  refine and_congr_left fun _ => ?_
  split
  next digits heq =>
    rw [heq]
    refine iff_of_false ?_ fun hnum => hnum.dash_notMem List.mem_cons_self
    rw [Option.map_eq_some_iff]
    rintro ⟨k, -, hk⟩
    rw [Int.ofNat_eq_natCast] at hk
    omega
  next digits heq =>
    rw [heq, numeral_plus_iff, Option.map_eq_some_iff]
    exact exists_congr fun k => and_congr_right fun _ => eq_comm
  next _ hplus =>
    rw [numeral_iff_index? hplus, Option.map_eq_some_iff, String.ofList_toList]
    exact exists_congr fun k => and_congr_right fun _ => eq_comm

theorem Numeral.atoi_ofList (h : Numeral cs n) (hpos : 0 < n) (hlt : n < 2 ^ 63) : atoi (String.ofList cs) = some n := by
  rw [atoi_eq_some_iff hpos, String.toList_ofList]
  exact ⟨h, hlt⟩

/-! ## Tokens -/

theorem contains_dash : contains s "-" = true ↔ '-' ∈ s.toList := by
  unfold contains
  rw [decide_eq_true_eq]
  exact List.singleton_infix_iff '-' s.toList

theorem toList_of_split {first last : String} (h : split '-' s = [first, last]) :
    s.toList = first.toList ++ '-' :: last.toList := by
  have hparts : s.toList.splitOn '-' = [first.toList, last.toList] := by
    unfold split at h
    have hlist := congrArg (List.map String.toList) h
    rw [List.map_map] at hlist
    simpa using hlist
  have hjoin : ['-'].intercalate (s.toList.splitOn '-') = s.toList := List.intercalate_splitOn '-'
  rw [hparts, List.intercalate_cons_of_ne_nil (List.cons_ne_nil _ _), List.intercalate_singleton] at hjoin
  rw [← hjoin, List.append_assoc, List.singleton_append]

theorem split_of_dash {first last : List Char} (hfirst : '-' ∉ first) (hlast : '-' ∉ last) :
    split '-' (String.ofList (first ++ '-' :: last)) = [String.ofList first, String.ofList last] := by
  unfold split
  rw [String.toList_ofList, List.splitOn_append_cons_self_of_not_mem hfirst, List.splitOn_eq_singleton hlast]
  rfl

namespace Denotes

theorem bare_ne_nil (h : Denotes token r) : bare token ≠ [] := by
  cases h with
  | code hnum => exact hnum.ne_nil
  | range hbare _ _ =>
    rw [hbare]
    simp

theorem unique {r' : StatusCodeRange} (h : Denotes token r) (h' : Denotes token r') : r = r' := by
  have hdash : ∀ {first last : List Char}, bare token = first ++ '-' :: last → '-' ∈ bare token := by
    intro first last hbare
    rw [hbare]
    exact List.mem_append_right _ List.mem_cons_self
  cases h with
  | code hnum =>
    cases h' with
    | code hnum' => rw [hnum.unique hnum']
    | range hbare _ _ => exact absurd (hdash hbare) hnum.dash_notMem
  | range hbare hfirst hlast =>
    cases h' with
    | code hnum' => exact absurd (hdash hbare) hnum'.dash_notMem
    | range hbare' hfirst' hlast' =>
      have hsplit := congrArg (fun cs => split '-' (String.ofList cs)) (hbare.symm.trans hbare')
      rw [split_of_dash hfirst.dash_notMem hlast.dash_notMem, split_of_dash hfirst'.dash_notMem hlast'.dash_notMem] at hsplit
      obtain ⟨hf, hl⟩ := List.cons.inj hsplit
      rw [String.ofList_injective hf] at hfirst
      rw [String.ofList_injective (List.cons.inj hl).1] at hlast
      rw [hfirst.unique hfirst', hlast.unique hlast']

end Denotes

/-- A token is read just where it is a code or a range in the bounds. -/
theorem parseHTTPStatusCodeToken_eq_ok_iff :
    parseHTTPStatusCodeToken token = .ok r ↔ Denotes token r ∧ InBounds r := by
  have hbare : ((trimSpace token).toList.filter (· ≠ ' ')) = bare token := rfl
  unfold parseHTTPStatusCodeToken
  dsimp only
  rw [hbare]
  split
  next hempty =>
    exact iff_of_false nofun fun h => h.1.bare_ne_nil (String.ofList_injective hempty)
  next hne =>
  split
  next hcontains =>
    have hdash : '-' ∈ bare token := by simpa using contains_dash.1 hcontains
    constructor
    · intro h
      split at h
      next first last hsplit =>
        have htext := toList_of_split hsplit
        rw [String.toList_ofList] at htext
        split at h
        · cases h
        split at h
        · cases h
        · cases h
        next a b ha hb =>
        split at h
        · cases h
        next hle =>
        split at h
        · cases h
        next hbounds =>
        cases h
        have hlo : 100 ≤ a := by omega
        have hfirst := (atoi_eq_some_iff (by omega)).1 ha
        have hlast := (atoi_eq_some_iff (by omega)).1 hb
        exact ⟨.range htext hfirst.1 hlast.1, ⟨hlo, Int.not_lt.1 hle, Int.not_lt.1 fun hhi => hbounds (.inr hhi)⟩⟩
      · cases h
    · rintro ⟨hdenotes, hbounds⟩
      have hge := hbounds.ge
      have hle := hbounds.le
      have hle' := hbounds.le_last
      cases hdenotes with
      | code hnum => exact absurd hdash hnum.dash_notMem
      | range htext hfirst hlast =>
        dsimp only at hge hle hle'
        rw [htext, split_of_dash hfirst.dash_notMem hlast.dash_notMem]
        have hne : ∀ {cs : List Char} {n : Int}, Numeral cs n → String.ofList cs ≠ "" :=
          fun hnum hempty => hnum.ne_nil (String.ofList_injective hempty)
        have ha := hfirst.atoi_ofList (by omega) (by omega)
        have hb := hlast.atoi_ofList (by omega) (by omega)
        dsimp only
        rw [if_neg (by simp [hne hfirst, hne hlast]), ha, hb]
        dsimp only
        rw [if_neg (by omega), if_neg (by omega)]
  next hcontains =>
    have hdash : '-' ∉ bare token := fun hmem => hcontains (contains_dash.2 (by simpa using hmem))
    constructor
    · intro h
      split at h
      · cases h
      next code hcode =>
      split at h
      · cases h
      next hbounds =>
      cases h
      have hnum := (atoi_eq_some_iff (by omega)).1 hcode
      rw [String.toList_ofList] at hnum
      exact ⟨.code hnum.1, ⟨Int.not_lt.1 fun hlo => hbounds (.inl hlo), le_refl _, Int.not_lt.1 fun hhi => hbounds (.inr hhi)⟩⟩
    · rintro ⟨hdenotes, hbounds⟩
      have hge := hbounds.ge
      have hle' := hbounds.le_last
      cases hdenotes with
      | code hnum =>
        dsimp only at hge hle'
        rw [hnum.atoi_ofList (by omega) (by omega)]
        dsimp only
        rw [if_neg (by omega)]
      | range htext _ _ =>
        rw [htext] at hdash
        exact absurd (List.mem_append_right _ List.mem_cons_self) hdash

/-! ## Segments -/

theorem bare_trimSpace : bare (trimSpace token) = bare token := by
  unfold bare
  rw [trimSpace_trimSpace]

theorem Denotes.congr {token' : String} (hbare : bare token = bare token') (h : Denotes token r) : Denotes token' r := by
  cases h with
  | code hnum => exact .code (hbare ▸ hnum)
  | range htext hfirst hlast => exact .range (hbare ▸ htext) hfirst hlast

theorem denotes_trimSpace : Denotes (trimSpace token) r ↔ Denotes token r :=
  ⟨Denotes.congr bare_trimSpace, Denotes.congr bare_trimSpace.symm⟩

theorem not_denotes_of_trimSpace (h : trimSpace token = "") : ¬ Denotes token r := by
  intro hdenotes
  refine hdenotes.bare_ne_nil ?_
  unfold bare
  rw [h]
  rfl

theorem mem_parseSegments (h : parseSegments segs = (ranges, [])) :
    (∀ r ∈ ranges, InBounds r) ∧ ∀ r, r ∈ ranges ↔ ∃ seg ∈ segs, Denotes seg r := by
  induction segs generalizing ranges with
  | nil =>
    cases h
    exact ⟨nofun, fun r => by simp⟩
  | cons seg segs ih =>
    unfold parseSegments at h
    dsimp only at h
    have hrest := @ih (parseSegments segs).1
    split at h
    next hempty =>
      obtain ⟨rfl, hnil⟩ := Prod.mk.inj h
      obtain ⟨hbounds, hmem⟩ := hrest (Prod.ext rfl hnil)
      refine ⟨hbounds, fun r => ?_⟩
      rw [hmem]
      simp [not_denotes_of_trimSpace hempty]
    next =>
      split at h
      · cases h
      next r hr =>
        obtain ⟨rfl, hnil⟩ := Prod.mk.inj h
        obtain ⟨hbounds, hmem⟩ := hrest (Prod.ext rfl hnil)
        obtain ⟨hdenotes, hin⟩ := parseHTTPStatusCodeToken_eq_ok_iff.1 hr
        rw [denotes_trimSpace] at hdenotes
        refine ⟨List.forall_mem_cons.2 ⟨hin, hbounds⟩, fun r' => ?_⟩
        rw [List.mem_cons, hmem]
        simp only [List.mem_cons, exists_eq_or_imp]
        exact or_congr_left ⟨fun heq => heq ▸ hdenotes, fun h' => h'.unique hdenotes⟩

theorem segments_eq (input : String) : segments input = tokens input := by
  unfold segments tokens split
  rw [String.toList_ofList]
  refine congrArg _ ?_
  induction input.toList with
  | nil => rfl
  | cons c l ih =>
    rw [List.map_cons, List.splitOn_cons_eq_if_modifyHead, List.splitOnP_cons_eq_if_modifyHead, ih]
    by_cases hwide : c = '，'
    · subst hwide
      rw [if_pos (by decide), if_pos (by decide)]
    · have hcomma : isComma c = (c == ',') := by
        rw [isComma, beq_eq_decide]
        simp only [hwide, or_false]
      rw [if_neg hwide, hcomma]

theorem isComma_of_isSpace (c : Char) (h : isSpace c) : isComma c = false := by
  unfold isComma
  rw [decide_eq_false_iff_not]
  rintro (rfl | rfl)
  · exact absurd h (by decide)
  · exact absurd h (by decide)

theorem exists_segment_iff {input : String} :
    (∃ seg ∈ segments (trimSpace input), Denotes seg r) ↔ ∃ t ∈ tokens input, Denotes t r := by
  have hmap := map_trimSpace_splitOnP (p := isComma) input isComma_of_isSpace
  have htrim : ∀ {s : String}, (∃ t ∈ tokens s, Denotes t r) ↔
      ∃ t ∈ (s.toList.splitOnP isComma).map fun t => trimSpace (String.ofList t), Denotes t r := by
    intro s
    unfold tokens
    simp only [List.mem_map, exists_exists_and_eq_and, denotes_trimSpace]
  rw [segments_eq, htrim, htrim, hmap]

/-! ## Ranges -/

theorem mergeLoop_eq : mergeLoop last ranges = Interval.mergeFrom last ranges := by
  induction ranges generalizing last with
  | nil => rfl
  | cons r ranges ih =>
    unfold mergeLoop Interval.mergeFrom
    have hgrown : (if r.last > last.last then { last with last := r.last } else last) =
        { last with last := max last.last r.last } := by
      split
      next hlt => rw [max_eq_right hlt.le]
      next hle => rw [max_eq_left (not_lt.1 hle)]
    rw [hgrown, ih, ih, Order.succ_eq_add_one]

theorem matchLoop_iff (h : Interval.Separated ranges) : matchLoop code ranges = true ↔ ∃ r ∈ ranges, r.Mem code := by
  induction ranges with
  | nil => simp [matchLoop]
  | cons r ranges ih =>
    rw [h.exists_mem_cons_iff, ← ih h.tail, matchLoop]
    split
    next hlt => exact iff_of_false Bool.false_ne_true fun hand => absurd hand.1 (not_le.2 hlt)
    next hge =>
      rw [and_iff_right (not_lt.1 hge)]
      split
      next hle => exact iff_of_true rfl (.inl hle)
      next hgt => rw [or_iff_right hgt]

theorem shouldMatchStatusCodeRanges_eq_relay : shouldMatchStatusCodeRanges ranges code =
    Relay.shouldMatchStatusCodeRanges code (ranges.map fun r => (r.first, r.last)) := by
  unfold shouldMatchStatusCodeRanges
  induction ranges with
  | nil => exact ite_self _
  | cons r ranges ih =>
    rw [List.map_cons, Relay.shouldMatchStatusCodeRanges]
    by_cases hout : code < 100 ∨ code > 599
    · rw [if_pos hout, if_pos (by omega)]
    · rw [if_neg hout] at ih ⊢
      rw [← ih, matchLoop]
      exact if_congr ⟨fun hlt => .inr (.inr hlt), fun h => by omega⟩ rfl rfl

theorem parse_ok {input : String} (h : parseHTTPStatusCodeRanges input = .ok ranges) :
    ∃ l, Interval.Sorted l ∧ ranges = Interval.merge l ∧ (∀ r ∈ l, InBounds r) ∧
      ∀ r, r ∈ l ↔ ∃ t ∈ tokens input, Denotes t r := by
  unfold parseHTTPStatusCodeRanges at h
  dsimp only at h
  split at h
  next hempty =>
    cases h
    refine ⟨[], .nil, rfl, nofun, fun r => ?_⟩
    rw [← exists_segment_iff, hempty]
    refine iff_of_false List.not_mem_nil ?_
    rintro ⟨seg, hseg, hdenotes⟩
    rw [List.mem_singleton.1 (show seg ∈ [""] from hseg)] at hdenotes
    exact hdenotes.bare_ne_nil rfl
  next =>
    cases hparts : parseSegments (segments (trimSpace input)) with
    | mk l invalid =>
      rw [hparts] at h
      dsimp only at h
      split at h
      · cases h
      next hinvalid =>
      obtain rfl := not_not.1 hinvalid
      obtain ⟨hbounds, hmem⟩ := mem_parseSegments hparts
      refine ⟨l.insertionSort Interval.Le, ?_, ?_, fun r hr => hbounds r ((List.mem_insertionSort _).1 hr), fun r => ?_⟩
      · exact (List.pairwise_insertionSort Interval.Le l).imp Interval.Le.first_le
      · split at h
        next hnil =>
          cases h
          rw [hnil]
          rfl
        next r rest hcons =>
          cases h
          rw [hcons, mergeLoop_eq]
          rfl
      · rw [List.mem_insertionSort, hmem, exists_segment_iff]

/-! ## The text of ranges -/

/-- The characters of the text of a range. -/
def Plain (c : Char) : Prop := c.isDigit = true ∨ c = '-'

theorem Plain.isSpace {c : Char} (h : Plain c) : isSpace c = false := by
  rcases h with hdigit | rfl
  · exact isSpace_of_isDigit hdigit
  · decide

theorem Plain.not_isComma {c : Char} (h : Plain c) : ¬ (c = ',' ∨ c = '，') := by
  rintro (rfl | rfl)
  · exact absurd h (by unfold Plain; decide)
  · exact absurd h (by unfold Plain; decide)

theorem plain_of_mem_toString {k : ℕ} {c : Char} (h : c ∈ (toString k).toList) : Plain c := by
  obtain ⟨-, hdigits, -⟩ := index?_eq_some.1 (Doc.index?_toString k)
  exact .inl (hdigits c h)

theorem rangeToString_spec (h : InBounds r) : (∀ c ∈ (rangeToString r).toList, Plain c) ∧ Denotes (rangeToString r) r := by
  obtain ⟨first, last⟩ := r
  have hge := h.ge
  have hle := h.le
  dsimp only at hge hle
  obtain ⟨k, rfl⟩ := Int.eq_ofNat_of_zero_le (show 0 ≤ first by omega)
  obtain ⟨m, rfl⟩ := Int.eq_ofNat_of_zero_le (show 0 ≤ last by omega)
  have hplain : ∀ c ∈ (rangeToString ⟨k, m⟩).toList, Plain c := by
    unfold rangeToString
    split
    · exact fun c hc => plain_of_mem_toString hc
    · intro c hc
      rw [String.toList_append, String.toList_append, List.mem_append, List.mem_append] at hc
      rcases hc with (hc | hc) | hc
      · exact plain_of_mem_toString hc
      · exact .inr (List.mem_singleton.1 hc)
      · exact plain_of_mem_toString hc
  refine ⟨hplain, ?_⟩
  have hbare : bare (rangeToString ⟨k, m⟩) = (rangeToString ⟨k, m⟩).toList := by
    unfold bare
    rw [trimSpace_eq_self (fun c hc => (hplain c (List.mem_of_mem_head? hc)).isSpace)
      fun c hc => (hplain c (List.mem_of_mem_getLast? hc)).isSpace]
    refine List.filter_eq_self.2 fun c hc => ?_
    rw [decide_eq_true_eq]
    rintro rfl
    exact absurd (hplain ' ' hc).isSpace (by decide)
  by_cases heq : (k : Int) = m
  · have htext : rangeToString ⟨k, m⟩ = toString k := if_pos heq
    rw [← heq] at hbare htext ⊢
    exact .code (by rw [hbare, htext]; exact .toString k)
  · have htext : rangeToString ⟨k, m⟩ = toString k ++ "-" ++ toString m := if_neg heq
    refine .range ?_ (.toString k) (.toString m)
    rw [hbare, htext, String.toList_append, String.toList_append, List.append_assoc]
    rfl

theorem parseSegments_map (h : ∀ r ∈ ranges, InBounds r) : parseSegments (ranges.map rangeToString) = (ranges, []) := by
  induction ranges with
  | nil => rfl
  | cons r ranges ih =>
    rw [List.forall_mem_cons] at h
    obtain ⟨-, hdenotes⟩ := rangeToString_spec h.1
    have htrim := denotes_trimSpace.2 hdenotes
    rw [List.map_cons, parseSegments, ih h.2]
    dsimp only
    rw [if_neg fun hempty => not_denotes_of_trimSpace hempty hdenotes, parseHTTPStatusCodeToken_eq_ok_iff.2 ⟨htrim, h.1⟩]

/-- The text of a list of ranges that do not touch is read as the list. -/
theorem parse_toString (hsep : Interval.Separated ranges) (hbounds : ∀ r ∈ ranges, InBounds r) :
    parseHTTPStatusCodeRanges (statusCodeRangesToString ranges) = .ok ranges := by
  rcases hranges : ranges with _ | ⟨r, rest⟩
  · rfl
  rw [← hranges]
  have hne : ranges.map rangeToString ≠ [] := by simp [hranges]
  have hchars : ∀ c ∈ (statusCodeRangesToString ranges).toList, c = ',' ∨ Plain c := by
    intro c hc
    by_cases hcomma : c = ','
    · exact .inl hcomma
    · obtain ⟨text, htext, hmem⟩ := (mem_toList_join hcomma).1 hc
      obtain ⟨r', hr', rfl⟩ := List.mem_map.1 htext
      exact .inr ((rangeToString_spec (hbounds r' hr')).1 c hmem)
  have hspace : ∀ c ∈ (statusCodeRangesToString ranges).toList, isSpace c = false := by
    intro c hc
    rcases hchars c hc with rfl | hplain
    · decide
    · exact hplain.isSpace
  have htrim : trimSpace (statusCodeRangesToString ranges) = statusCodeRangesToString ranges :=
    trimSpace_eq_self (fun c hc => hspace c (List.mem_of_mem_head? hc)) fun c hc => hspace c (List.mem_of_mem_getLast? hc)
  have hsegments : segments (statusCodeRangesToString ranges) = ranges.map rangeToString := by
    have hsame : (statusCodeRangesToString ranges).toList.map (fun c => if c = '，' then ',' else c) =
        (statusCodeRangesToString ranges).toList := by
      refine (List.map_congr_left fun c hc => if_neg ?_).trans (List.map_id' _)
      rcases hchars c hc with rfl | hplain
      · decide
      · exact fun hwide => hplain.not_isComma (.inr hwide)
    unfold segments
    rw [hsame, String.ofList_toList]
    refine split_join hne fun text htext hmem => ?_
    obtain ⟨r', hr', rfl⟩ := List.mem_map.1 htext
    exact ((rangeToString_spec (hbounds r' hr')).1 ',' hmem).not_isComma (.inl rfl)
  have hnonempty : statusCodeRangesToString ranges ≠ "" := by
    intro hempty
    have hdenotes := (rangeToString_spec (hbounds r (hranges ▸ List.mem_cons_self))).2
    rw [hempty, hranges, List.map_cons] at hsegments
    rw [← (List.cons.inj hsegments).1] at hdenotes
    exact hdenotes.bare_ne_nil rfl
  unfold parseHTTPStatusCodeRanges
  dsimp only
  rw [htrim, if_neg hnonempty, hsegments, parseSegments_map hbounds]
  dsimp only
  rw [if_neg (not_not.2 rfl), hsep.pairwise_le.insertionSort_eq, hranges]
  dsimp only
  have hmerge : Interval.merge (r :: rest) = r :: rest := Interval.merge_of_separated (hranges ▸ hsep)
  rw [mergeLoop_eq, ← hmerge]
  rfl

/-! ## What is accepted -/

theorem inBounds_merge (hsorted : Interval.Sorted l) (hsep : Interval.Separated (Interval.merge l)) (hl : ∀ r ∈ l, InBounds r) :
    ∀ r ∈ Interval.merge l, InBounds r := by
  intro r hr
  have hle := hsep.nonempty r hr
  obtain ⟨a, ha, hfirst⟩ := (Interval.mem_merge hsorted).1 ⟨r, hr, le_refl r.first, hle⟩
  obtain ⟨b, hb, hlast⟩ := (Interval.mem_merge hsorted).1 ⟨r, hr, hle, le_refl r.last⟩
  exact ⟨(hl a ha).ge.trans hfirst.1, hle, hlast.2.trans (hl b hb).le_last⟩

/-- Of an accepted text, a status code matches the ranges just if a token is the code or a range that contains it. The ranges are
sorted, and neither overlap nor touch, and what is written of them is read as them again. -/
theorem parse_ok_spec {input : String} (h : parseHTTPStatusCodeRanges input = .ok ranges) :
    (∀ code, 100 ≤ code → code ≤ 599 →
      (shouldMatchStatusCodeRanges ranges code = true ↔ ∃ t ∈ tokens input, ∃ r, Denotes t r ∧ r.Mem code)) ∧
      Interval.Separated ranges ∧ parseHTTPStatusCodeRanges (statusCodeRangesToString ranges) = .ok ranges := by
  obtain ⟨l, hsorted, rfl, hl, hmem⟩ := parse_ok h
  have hsep := Interval.separated_merge (fun r hr => (hl r hr).le) hsorted
  refine ⟨fun code hge hle => ?_, hsep, parse_toString hsep (inBounds_merge hsorted hsep hl)⟩
  unfold shouldMatchStatusCodeRanges
  rw [if_neg (by omega), matchLoop_iff hsep, Interval.mem_merge hsorted]
  constructor
  · rintro ⟨r, hr, hcode⟩
    obtain ⟨t, ht, hdenotes⟩ := (hmem r).1 hr
    exact ⟨t, ht, r, hdenotes, hcode⟩
  · rintro ⟨t, ht, r, hdenotes, hcode⟩
    exact ⟨r, (hmem r).2 ⟨t, ht, hdenotes⟩, hcode⟩

/-- Codes in any order, with a comma of full width, blanks, and a range that touches two of them. -/
theorem parse_ok_spec_mixed :
    (∀ code, 100 ≤ code → code ≤ 599 →
      (shouldMatchStatusCodeRanges [⟨401, 403⟩, ⟨500, 505⟩] code = true ↔
        ∃ t ∈ tokens " 500-505，4 03, 401,402 ", ∃ r, Denotes t r ∧ r.Mem code)) ∧
      Interval.Separated [(⟨401, 403⟩ : StatusCodeRange), ⟨500, 505⟩] ∧
      parseHTTPStatusCodeRanges (statusCodeRangesToString [⟨401, 403⟩, ⟨500, 505⟩]) = .ok [⟨401, 403⟩, ⟨500, 505⟩] :=
  parse_ok_spec (by decide +kernel)

end

end NewApi.StatusCodes

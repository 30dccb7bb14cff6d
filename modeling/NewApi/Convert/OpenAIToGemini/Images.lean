import NewApi.Convert.OpenAIToGemini

/-!
# Images in texts

An image stands in a text as `![`, a description without `](`, `](`, an address that begins with `data:` and has no
`)`, and `)`. The search of the conversion finds the first of them unless a `![` before it is that of something else,
such as a link to an image that is not in the text (`findImage_cases`).
-/

namespace NewApi.OpenAIToGemini

/-! ## Written images -/

/-- A text without `![`, and an image behind it. -/
structure Image where
  before : List Char
  description : List Char
  data : List Char
  before_plain : ¬ "![".toList <:+: before
  description_plain : ¬ "](".toList <:+: description
  data_plain : ')' ∉ data

namespace Image

/-- The address of an image. -/
def dataUrl (i : Image) : List Char := "data:".toList ++ i.data

/-- The text as it is written. -/
def text (i : Image) : List Char :=
  i.before ++ "![".toList ++ i.description ++ "](".toList ++ i.dataUrl ++ ")".toList

end Image

/-- What is behind a `![`: a description, and the address of data that is in the text. -/
def dataLink (text : List Char) : Option (List Char × List Char) :=
  match text.dropInfix? "](".toList with
  | none => none
  | some (_, text) => if "data:".toList <+: text then text.dropInfix? ")".toList else none

/-- The image that a text begins with: its address, and what is behind it. -/
def imageAt : List Char → Option (List Char × List Char)
  | '!' :: '[' :: text => dataLink text
  | _ => none

/-- The first image of a text. -/
def firstImage (text : List Char) : Option (List Char × List Char × List Char) := leftmost imageAt text

section
variable {text before dataUrl rest description data p r : List Char} {c : Char}

/-- The place of a `)`. -/
theorem dropInfix?_close (h : ')' ∉ p) : (p ++ ")".toList ++ r).dropInfix? ")".toList = some (p, r) := by
  refine dropInfix?_append fun hinfix => h ?_
  rw [show ")".toList.dropLast = [] from rfl, List.append_nil] at hinfix
  exact hinfix.subset (List.mem_singleton.2 rfl)

theorem close_of_dropInfix? (h : text.dropInfix? ")".toList = some (p, r)) : text = p ++ ")".toList ++ r ∧ ')' ∉ p := by
  refine ⟨(dropInfix?_eq_some.1 h).1, fun hmem => ?_⟩
  refine not_infix_of_dropInfix? (by decide) h ?_
  rw [show ")".toList.dropLast = [] from rfl, List.append_nil]
  exact (List.singleton_infix_iff _ _).2 hmem

/-- The place of a `](`. -/
theorem dropInfix?_link (h : ¬ "](".toList <:+: p) : (p ++ "](".toList ++ r).dropInfix? "](".toList = some (p, r) :=
  dropInfix?_append (mt (pair_infix_append (by decide)).1 h)

theorem link_of_dropInfix? (h : text.dropInfix? "](".toList = some (p, r)) :
    text = p ++ "](".toList ++ r ∧ ¬ "](".toList <:+: p :=
  ⟨(dropInfix?_eq_some.1 h).1, mt (pair_infix_append (by decide)).2 (not_infix_of_dropInfix? (by decide) h)⟩

/-- The place of a `![`. -/
theorem dropInfix?_start (h : ¬ "![".toList <:+: p) : (p ++ "![".toList ++ r).dropInfix? "![".toList = some (p, r) :=
  dropInfix?_append (mt (pair_infix_append (by decide)).1 h)

theorem start_of_dropInfix? (h : text.dropInfix? "![".toList = some (p, r)) :
    text = p ++ "![".toList ++ r ∧ ¬ "![".toList <:+: p :=
  ⟨(dropInfix?_eq_some.1 h).1, mt (pair_infix_append (by decide)).2 (not_infix_of_dropInfix? (by decide) h)⟩

theorem link_infix_start : "](".toList <:+: "![".toList ++ p ↔ "](".toList <:+: p := by
  show [']', '('] <:+: '!' :: '[' :: p ↔ [']', '('] <:+: p
  rw [List.infix_cons_iff, List.infix_cons_iff]
  simp [List.cons_prefix_cons]

/-- A prefix without `)` ends before the `)`. -/
theorem prefix_of_close (hp : ')' ∉ p) (h : p <+: text ++ ")".toList ++ r) : p <+: text := by
  obtain ⟨t, ht⟩ := h
  rw [List.append_assoc] at ht
  rcases List.append_eq_append_iff.1 ht with ⟨x, rfl, -⟩ | ⟨x, rfl, hx⟩
  · exact List.prefix_append p x
  · cases x with
    | nil => simp
    | cons c x =>
      have hc : ')' = c := (List.cons.inj hx).1
      exact absurd (List.mem_append_right text (hc ▸ List.mem_cons_self)) hp

theorem Image.dataUrl_eq (i : Image) : i.dataUrl = "data:".toList ++ i.data := rfl

theorem Image.close_not_mem (i : Image) : ')' ∉ i.dataUrl := by
  rw [i.dataUrl_eq, List.mem_append, not_or]
  exact ⟨by decide, i.data_plain⟩

theorem Image.text_append (i : Image) : i.text ++ rest =
    i.before ++ "![".toList ++ (i.description ++ "](".toList ++ (i.dataUrl ++ ")".toList ++ rest)) := by
  simp [Image.text]

/-! ## Finding an image -/

theorem dataLink_eq_some : dataLink text = some (dataUrl, rest) ↔
    ∃ i : Image, i.dataUrl = dataUrl ∧ text = i.description ++ "](".toList ++ (i.dataUrl ++ ")".toList ++ rest) := by
  constructor
  · intro h
    unfold dataLink at h
    split at h
    · cases h
    next description t' hlink =>
    obtain ⟨rfl, hdescription⟩ := link_of_dropInfix? hlink
    split at h
    next hdata =>
      obtain ⟨rfl, hclose⟩ := close_of_dropInfix? h
      obtain ⟨data, rfl⟩ := prefix_of_close (by decide) hdata
      exact ⟨⟨[], description, data, by decide, hdescription, fun hmem => hclose (List.mem_append_right _ hmem)⟩, rfl, rfl⟩
    · cases h
  · rintro ⟨i, rfl, rfl⟩
    unfold dataLink
    rw [dropInfix?_link i.description_plain]
    dsimp only
    rw [if_pos, dropInfix?_close i.close_not_mem]
    rw [i.dataUrl_eq, List.append_assoc, List.append_assoc]
    exact List.prefix_append _ _

/-- The search finds an image where there is no other `![` before it. -/
theorem findImage_text (i : Image) : findImage (i.text ++ rest) = some (i.before, i.dataUrl, rest) := by
  have hlink := @dropInfix?_link ("![".toList ++ i.description) ("data:".toList ++ (i.data ++ ")".toList ++ rest))
    (mt link_infix_start.1 i.description_plain)
  have hdata : ("![".toList ++ (i.description ++ "](".toList ++ (i.dataUrl ++ ")".toList ++ rest))).dropInfix?
      "](data:".toList = some ("![".toList ++ i.description, i.data ++ ")".toList ++ rest) := by
    have hmarks : "](data:".toList = "](".toList ++ "data:".toList := rfl
    rw [hmarks]
    simpa only [i.dataUrl_eq, List.append_assoc] using dropInfix?_extend hlink
  have hurl : "data:".toList ++ (i.data ++ ")".toList ++ rest) = i.dataUrl ++ ")".toList ++ rest := by
    simp [Image.dataUrl_eq]
  unfold findImage
  rw [i.text_append, dropInfix?_start i.before_plain]
  dsimp only
  rw [hdata]
  dsimp only
  rw [hurl, dropInfix?_close i.close_not_mem]
  rfl

theorem findImage_eq_some (h : findImage text = some (before, dataUrl, rest)) :
    ∃ description data, dataUrl = "data:".toList ++ data ∧
      text = before ++ "![".toList ++ description ++ "](data:".toList ++ data ++ ")".toList ++ rest ∧
      ¬ "![".toList <:+: before ∧ ')' ∉ data ∧
      ∀ p s, description ++ "](data:".toList ++ data ++ ")".toList ++ rest = p ++ "](data:".toList ++ s →
        description.length ≤ p.length := by
  unfold findImage at h
  split at h
  · cases h
  next before' text' hstart =>
  split at h
  · cases h
  next p text'' hdata =>
  obtain ⟨⟨dataUrl', rest'⟩, hclose, heq⟩ := Option.map_eq_some_iff.1 h
  cases heq
  obtain ⟨rfl, hbefore⟩ := start_of_dropInfix? hstart
  obtain ⟨htext', hfirst⟩ := dropInfix?_eq_some.1 hdata
  obtain ⟨htext'', hdataUrl⟩ := close_of_dropInfix? hclose
  obtain ⟨data, rfl⟩ := prefix_of_close (by decide) ⟨text'', htext''⟩
  rw [List.append_assoc, List.append_assoc, List.append_right_inj] at htext''
  obtain ⟨description, rfl⟩ : ∃ description, p = "![".toList ++ description := by
    match p, htext' with
    | [], htext' => exact absurd (List.cons.inj htext').1 (by decide)
    | [c], htext' => exact absurd (List.cons.inj (List.cons.inj htext').2).1 (by decide)
    | c :: c' :: description, htext' =>
      obtain ⟨rfl, htail⟩ := List.cons.inj htext'
      obtain ⟨rfl, -⟩ := List.cons.inj htail
      exact ⟨description, rfl⟩
  rw [List.append_assoc, List.append_assoc, List.append_right_inj] at htext'
  subst htext' htext''
  refine ⟨description, data, rfl, by simp, hbefore, fun hmem => hdataUrl (List.mem_append_right _ hmem),
    fun p s heq => ?_⟩
  have hle := hfirst ("![".toList ++ p) s (by
    rw [List.append_assoc, List.append_assoc, List.append_right_inj]
    simpa using heq)
  simpa using hle

/-- A text in which an image is written: the three marks are there, one behind the other. -/
def HasImage (text : List Char) : Prop :=
  ∃ before description data rest,
    text = before ++ "![".toList ++ description ++ "](data:".toList ++ data ++ ")".toList ++ rest

theorem findImage_eq_none : findImage text = none ↔ ¬ HasImage text := by
  constructor
  · rintro h ⟨before, description, data, rest, htext⟩
    -- each mark has a first place, with the next one behind it
    obtain ⟨p, t, hstart, x, rfl⟩ := exists_dropInfix?_suffix
      (show text = before ++ "![".toList ++ (description ++ "](data:".toList ++ data ++ ")".toList ++ rest) by simpa using htext)
    obtain ⟨p', t', hdata, x', rfl⟩ := exists_dropInfix?_suffix
      (show "![".toList ++ (x ++ (description ++ "](data:".toList ++ data ++ ")".toList ++ rest)) =
        "![".toList ++ x ++ description ++ "](data:".toList ++ (data ++ ")".toList ++ rest) by simp)
    obtain ⟨p'', t'', hclose, -⟩ := exists_dropInfix?_suffix
      (show "data:".toList ++ (x' ++ (data ++ ")".toList ++ rest)) =
        "data:".toList ++ x' ++ data ++ ")".toList ++ rest by simp)
    unfold findImage at h
    rw [hstart] at h
    dsimp only at h
    rw [hdata] at h
    dsimp only at h
    rw [hclose] at h
    cases h
  · intro h
    cases hfind : findImage text with
    | none => rfl
    | some x =>
      obtain ⟨before, dataUrl, rest⟩ := x
      obtain ⟨description, data, -, htext, -⟩ := findImage_eq_some hfind
      exact absurd ⟨before, description, data, rest, htext⟩ h

theorem dataLink_eq_none (hdescription : "](".toList <:+: description)
    (hfirst : ∀ p s, description ++ text = p ++ "](data:".toList ++ s → description.length ≤ p.length) :
    dataLink (description ++ text) = none := by
  obtain ⟨a, b, rfl⟩ := hdescription
  unfold dataLink
  split
  · rfl
  next p t hlink =>
    obtain ⟨htext, hmin⟩ := dropInfix?_eq_some.1 hlink
    rw [if_neg]
    rintro ⟨s, rfl⟩
    have hle := hfirst p s (by rw [htext]; simp)
    have hlt := hmin a (b ++ text) (by simp)
    simp only [List.length_append, show "](".toList.length = 2 from rfl] at hle
    omega

/-- No image begins in a text without `![`, before one. -/
theorem imageAt_plain (hbefore : ¬ "![".toList <:+: before) {x y : List Char} (hxy : before = x ++ y) (hy : y ≠ []) :
    imageAt (y ++ ("![".toList ++ text)) = none := by
  unfold imageAt
  split
  next t heq =>
    exfalso
    match y, hy with
    | [c], _ => exact absurd (List.cons.inj (List.cons.inj heq).2).1 (by decide)
    | c :: c' :: y, _ =>
      obtain ⟨rfl, htail⟩ := List.cons.inj heq
      obtain ⟨rfl, -⟩ := List.cons.inj htail
      exact hbefore ⟨x, y, by rw [hxy]; simp⟩
  · rfl

theorem leftmost_before (hbefore : ¬ "![".toList <:+: before) :
    leftmost imageAt (before ++ ("![".toList ++ text)) =
      (leftmost imageAt ("![".toList ++ text)).map fun r => (before ++ r.1, r.2) :=
  leftmost_append fun _ _ hxy hy => imageAt_plain hbefore hxy hy

/-- No image begins at a `![` that does not belong to one. -/
theorem leftmost_start (hnone : dataLink text = none) :
    leftmost imageAt ("![".toList ++ text) = (leftmost imageAt text).map fun r => ("![".toList ++ r.1, r.2) := by
  have hstart : imageAt ('!' :: '[' :: text) = none := hnone
  have hnext : imageAt ('[' :: text) = none := by
    unfold imageAt
    split
    next heq => exact absurd (List.cons.inj heq).1 (by decide)
    · rfl
  show leftmost imageAt ('!' :: '[' :: text) = _
  rw [leftmost, hstart]
  dsimp only
  rw [leftmost, hnext, Option.map_map]
  rfl

theorem findImage_cases (h : findImage text = some (before, dataUrl, rest)) :
    (∃ i : Image, i.before = before ∧ i.dataUrl = dataUrl ∧ text = i.text ++ rest) ∨
      "![".toList <:+: text ∧ ∀ x, firstImage text = some x → "![".toList <:+: x.1 := by
  obtain ⟨description, data, rfl, htext, hbefore, hdata, hfirst⟩ := findImage_eq_some h
  by_cases hdescription : "](".toList <:+: description
  · right
    have hplain : text = before ++ "![".toList ++
        (description ++ ("](data:".toList ++ data ++ ")".toList ++ rest)) := by
      rw [htext]
      simp
    have hinfix : ∀ t, "![".toList <:+: before ++ "![".toList ++ t := fun t => ⟨before, t, rfl⟩
    refine ⟨hplain ▸ hinfix _, fun x hx => ?_⟩
    rw [hplain, firstImage, List.append_assoc, leftmost_before hbefore, leftmost_start (dataLink_eq_none hdescription
      fun p s heq => hfirst p s (by rw [← heq]; simp))] at hx
    obtain ⟨r, hr, rfl⟩ := Option.map_eq_some_iff.1 hx
    obtain ⟨r', -, rfl⟩ := Option.map_eq_some_iff.1 hr
    exact ⟨before, r'.1, List.append_assoc ..⟩
  · left
    exact ⟨⟨before, description, data, hbefore, hdescription, hdata⟩, rfl, rfl, by
      rw [htext]
      simp [Image.text, Image.dataUrl_eq]⟩

theorem firstImage_text (i : Image) : firstImage (i.text ++ rest) = some (i.before, i.dataUrl, rest) := by
  have hat : imageAt ("![".toList ++ (i.description ++ "](".toList ++ (i.dataUrl ++ ")".toList ++ rest))) =
      some (i.dataUrl, rest) := dataLink_eq_some.2 ⟨i, rfl, rfl⟩
  rw [firstImage, i.text_append, List.append_assoc, leftmost_before i.before_plain, leftmost_of_match hat,
    Option.map_some, List.append_nil]

theorem imageAt_text (h : imageAt text = some (dataUrl, rest)) :
    ∃ i : Image, i.dataUrl = dataUrl ∧
      text = "![".toList ++ (i.description ++ "](".toList ++ (i.dataUrl ++ ")".toList ++ rest)) := by
  unfold imageAt at h
  split at h
  next t =>
    obtain ⟨i, hdataUrl, rfl⟩ := dataLink_eq_some.1 h
    exact ⟨i, hdataUrl, rfl⟩
  · cases h

theorem firstImage_eq_some (h : firstImage text = some (before, dataUrl, rest)) :
    ∃ i : Image, i.dataUrl = dataUrl ∧
      text = before ++ ("![".toList ++ (i.description ++ "](".toList ++ (i.dataUrl ++ ")".toList ++ rest))) := by
  obtain ⟨q, rfl, hq⟩ := match_of_leftmost h
  obtain ⟨i, hdataUrl, rfl⟩ := imageAt_text hq
  exact ⟨i, hdataUrl, rfl⟩

theorem firstImage_eq_none (h : ¬ HasImage text) : firstImage text = none := by
  cases hfirst : firstImage text with
  | none => rfl
  | some x =>
    obtain ⟨before, dataUrl, rest⟩ := x
    obtain ⟨i, -, htext⟩ := firstImage_eq_some hfirst
    exact absurd ⟨before, i.description, i.data, rest, by rw [htext]; simp [Image.dataUrl_eq]⟩ h

end

/-! ## Pieces -/

/-- A piece of a text: an image, or what is before, between and behind the images. -/
inductive Piece
  | text (s : List Char)
  | image (dataUrl : List Char)

/-- A text is no piece where it is empty. -/
def textPiece (s : List Char) : List Piece := if s = [] then [] else [.text s]

/-- Images with what is before them. -/
def cutPieces (l : List (List Char × List Char)) : List Piece := l.flatMap fun p => textPiece p.1 ++ [.image p.2]

/-- The search of the conversion. -/
def search : Finder Char (List Char) where
  find := findImage
  short h := by
    obtain ⟨description, data, -, rfl, -⟩ := findImage_eq_some h
    simp only [List.length_append, show "![".toList.length = 2 from rfl]
    omega

/-- The search for the first image. -/
def written : Finder Char (List Char) where
  find := firstImage
  short h := by
    obtain ⟨i, -, rfl⟩ := firstImage_eq_some h
    simp only [List.length_append, show "![".toList.length = 2 from rfl]
    omega

/-- The pieces of a text. -/
def textPieces (text : List Char) : List Piece :=
  cutPieces (written.cut text).1 ++ textPiece (written.cut text).2

/-- The pieces of a text that the conversion leaves. What is behind the last image is left out. -/
def scannedPieces (text : List Char) : List Piece :=
  if (search.cut text).1 = [] then textPiece text else cutPieces (search.cut text).1

/-- A text of images, each behind a text without `![`, and nothing behind the last one. -/
def EndsWithImage (text : List Char) : Prop := ∃ images : List Image, text = images.flatMap Image.text

/-- A piece is a text with a `![`. -/
def Piece.isOpen : Piece → Bool
  | .text s => "![".toList <:+: s
  | .image _ => false

section
variable {text before dataUrl rest : List Char}

theorem mem_textPiece {s : List Char} {p : Piece} : p ∈ textPiece s ↔ s ≠ [] ∧ p = .text s := by
  unfold textPiece
  split
  next h => simp [h]
  next h => simp [h]

theorem cutPieces_cons {l : List (List Char × List Char)} :
    cutPieces ((before, dataUrl) :: l) = textPiece before ++ .image dataUrl :: cutPieces l := by
  rw [cutPieces, List.flatMap_cons, List.append_assoc]
  rfl

theorem textPieces_of_none (h : firstImage text = none) : textPieces text = textPiece text := by
  rw [textPieces, written.cut_of_none h]
  rfl

theorem textPieces_of_some (h : firstImage text = some (before, dataUrl, rest)) :
    textPieces text = textPiece before ++ .image dataUrl :: textPieces rest := by
  rw [textPieces, written.cut_of_some h, cutPieces_cons, List.append_assoc]
  rfl

/-- A text before which, or in which, a `![` is left is a piece. -/
theorem exists_isOpen {s : List Char} (h : "![".toList <:+: s) : ∃ p ∈ textPiece s, p.isOpen = true := by
  refine ⟨.text s, mem_textPiece.2 ⟨?_, rfl⟩, decide_eq_true h⟩
  rintro rfl
  exact absurd (List.eq_nil_of_infix_nil h) (by decide)

/-- The search finds the images of a text, or a text with a `![` is a piece. -/
theorem cut_cases (text : List Char) : (∃ p ∈ textPieces text, p.isOpen = true) ∨
    search.cut text = written.cut text ∧
      ∃ images : List Image, text = images.flatMap Image.text ++ (search.cut text).2 := by
  induction text using search.cut_induction with
  | hnone text h =>
    right
    have hwritten : written.find text = none := firstImage_eq_none (findImage_eq_none.1 h)
    rw [search.cut_of_none h, written.cut_of_none hwritten]
    exact ⟨rfl, [], rfl⟩
  | hsome text before dataUrl rest h ih =>
    rcases findImage_cases h with ⟨i, rfl, rfl, rfl⟩ | ⟨hopen, hfirst⟩
    · have hwritten := @firstImage_text rest i
      rw [textPieces_of_some hwritten, search.cut_of_some h, written.cut_of_some hwritten]
      rcases ih with ⟨p, hp, hpopen⟩ | ⟨hcut, images, himages⟩
      · exact .inl ⟨p, List.mem_append_right _ (List.mem_cons_of_mem _ hp), hpopen⟩
      · refine .inr ⟨by rw [hcut], i :: images, ?_⟩
        rw [List.flatMap_cons, List.append_assoc, ← himages]
    · left
      -- no image is written there, or one behind the `![`
      cases hx : firstImage text with
      | none =>
        rw [textPieces_of_none hx]
        exact exists_isOpen hopen
      | some x =>
        obtain ⟨before', dataUrl', rest'⟩ := x
        rw [textPieces_of_some hx]
        obtain ⟨p, hp, hpopen⟩ := exists_isOpen (hfirst _ hx)
        exact ⟨p, List.mem_append_left _ hp, hpopen⟩

/-! ## What is left -/

theorem hasImage_iff : HasImage text ↔ (search.cut text).1 ≠ [] := by
  rw [← not_iff_not, ← findImage_eq_none, not_not]
  constructor
  · intro h
    rw [search.cut_of_none h]
  · intro h
    cases hfind : findImage text with
    | none => rfl
    | some x => rw [search.cut_of_some hfind] at h; cases h

theorem scannedPieces_of_not (h : ¬ HasImage text) : scannedPieces text = textPieces text := by
  rw [textPieces_of_none (firstImage_eq_none h), scannedPieces, if_pos (not_not.1 (mt hasImage_iff.2 h))]

theorem scannedPieces_of_hasImage (h : HasImage text) : scannedPieces text = cutPieces (search.cut text).1 :=
  if_neg (hasImage_iff.1 h)

/-- What the search leaves of a text with images has no `![`. -/
theorem isOpen_eq_false (h : HasImage text) {p : Piece} (hp : p ∈ scannedPieces text) : p.isOpen = false := by
  rw [scannedPieces_of_hasImage h] at hp
  clear h
  induction text using search.cut_induction with
  | hnone text hnone =>
    rw [search.cut_of_none hnone] at hp
    cases hp
  | hsome text before dataUrl rest hsome ih =>
    rw [search.cut_of_some hsome, cutPieces_cons, List.mem_append] at hp
    rcases hp with hp | hp
    · obtain ⟨-, rfl⟩ := mem_textPiece.1 hp
      obtain ⟨_, _, -, -, hbefore, -⟩ := findImage_eq_some hsome
      exact decide_eq_false hbefore
    · rcases List.mem_cons.1 hp with rfl | hp
      · rfl
      · exact ih hp

/-- Only the text behind the last image is missing, where no other `![` is in the text. -/
theorem textPieces_of_hasImage (h : HasImage text) (hplain : ∀ p ∈ textPieces text, p.isOpen = false) :
    ∃ (rest : List Char) (images : List Image), textPieces text = scannedPieces text ++ textPiece rest ∧
      text = images.flatMap Image.text ++ rest := by
  rcases cut_cases text with ⟨p, hp, hopen⟩ | ⟨hcut, images, htext⟩
  · exact absurd (hopen.symm.trans (hplain p hp)) (by decide)
  · refine ⟨_, images, ?_, htext⟩
    rw [scannedPieces_of_hasImage h, textPieces, hcut]

theorem cut_images {f : Finder Char (List Char)} (hnil : f.find [] = none)
    (htext : ∀ (i : Image) rest, f.find (i.text ++ rest) = some (i.before, i.dataUrl, rest)) (images : List Image) :
    f.cut (images.flatMap Image.text) = (images.map fun i => (i.before, i.dataUrl), []) := by
  induction images with
  | nil => exact f.cut_of_none hnil
  | cons i images ih => rw [List.flatMap_cons, f.cut_of_some (htext i _), ih, List.map_cons]

theorem scannedPieces_of_endsWithImage (h : EndsWithImage text) : scannedPieces text = textPieces text := by
  obtain ⟨images, rfl⟩ := h
  have hsearch := cut_images (f := search) rfl (fun i _ => findImage_text i) images
  have hwritten := cut_images (f := written) rfl (fun i _ => firstImage_text i) images
  rw [textPieces, hwritten, scannedPieces, hsearch]
  cases images with
  | nil => rfl
  | cons i images => simp [textPiece]

/-- A text is left as it is just where it has no image, or ends with one and has no other `![`. -/
theorem map_scannedPieces_eq_iff {γ : Type} {g : Piece → γ} {isOpen : γ → Bool} (hg : ∀ p, isOpen (g p) = p.isOpen) :
    (scannedPieces text).map g = (textPieces text).map g ↔ (HasImage text → EndsWithImage text) := by
  constructor
  · intro heq h
    have hplain : ∀ p ∈ textPieces text, p.isOpen = false := by
      intro p hp
      obtain ⟨q, hq, hqp⟩ := List.mem_map.1 (heq ▸ List.mem_map_of_mem hp)
      rw [← hg, ← hqp, hg, isOpen_eq_false h hq]
    obtain ⟨rest, images, hpieces, htext⟩ := textPieces_of_hasImage h hplain
    have hlen := congrArg List.length heq
    rw [List.length_map, List.length_map, hpieces, List.length_append] at hlen
    have hrest : textPiece rest = [] := List.eq_nil_of_length_eq_zero (by omega)
    refine ⟨images, ?_⟩
    unfold textPiece at hrest
    split at hrest
    next hnil => rw [htext, hnil, List.append_nil]
    · cases hrest
  · intro h
    by_cases himage : HasImage text
    · rw [scannedPieces_of_endsWithImage (h himage)]
    · rw [scannedPieces_of_not himage]

theorem filter_scannedPieces (h : HasImage text) : (scannedPieces text).filter Piece.isOpen = [] :=
  List.filter_eq_nil_iff.2 fun p hp => by simp [isOpen_eq_false h hp]

/-- No piece with a `![` is added to a text. -/
theorem length_filter_scannedPieces_le :
    ((scannedPieces text).filter Piece.isOpen).length ≤ ((textPieces text).filter Piece.isOpen).length := by
  by_cases h : HasImage text
  · rw [filter_scannedPieces h]
    exact Nat.zero_le _
  · rw [scannedPieces_of_not h]

/-- Where those with a `![` are left, no piece is added at all. -/
theorem length_scannedPieces_le
    (h : ((textPieces text).filter Piece.isOpen).length ≤ ((scannedPieces text).filter Piece.isOpen).length) :
    (scannedPieces text).length ≤ (textPieces text).length := by
  by_cases himage : HasImage text
  · rw [filter_scannedPieces himage, List.length_nil, Nat.le_zero, List.length_eq_zero_iff,
      List.filter_eq_nil_iff] at h
    obtain ⟨rest, images, hpieces, -⟩ := textPieces_of_hasImage himage fun p hp => by simpa using h p hp
    rw [hpieces, List.length_append]
    exact Nat.le_add_right _ _
  · rw [scannedPieces_of_not himage]

end

end NewApi.OpenAIToGemini

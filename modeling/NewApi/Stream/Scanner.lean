import NewApi.Lib.GoString
import Mathlib.Logic.Relation
import Mathlib.Algebra.Order.Ring.Int

/-!
# The lines of an upstream stream

`StreamScannerHandler` reads the lines of a stream of server-sent events in one goroutine and hands the payloads over a
channel to another one, which calls the data handler. So what is handled is what the loop on the lines sends, in its order
(`delivered_of_finished`). The loop cuts five characters off each line that it takes, also off a bare `[DONE]`, of which a
bracket is left and handled; and it stops at each payload that goes on behind `[DONE]` too (`delivers_iff`).
-/

namespace NewApi.Stream.Scanner

/-! ## The loop -/

/-- What becomes of a line. -/
inductive Scan
  | skip
  | data (data : String)
  | done
  deriving DecidableEq

/-- The body of the loop on `scanner.Text()`; the length is in bytes. -/
def scanText (data : String) : Scan :=
  if data.utf8ByteSize < 6 then .skip
  else if ¬ GoString.hasPrefix data "data:" ∧ ¬ GoString.hasPrefix data "[DONE]" then .skip
  else
    let data := GoString.trimSpace (String.ofList (data.toList.drop 5))
    if data = "" then .skip
    else if ¬ GoString.hasPrefix data "[DONE]" then .data data
    else .done

/-- What the loop sends of the lines that are scanned. -/
def sent : List String → List String
  | [] => []
  | line :: lines =>
    match scanText line with
    | .skip => sent lines
    | .data data => data :: sent lines
    | .done => []

/-- `bufio.ScanLines` drops a carriage return at the end. -/
def dropCR (line : String) : String := GoString.trimSuffix line "\x0d"

/-- A line and its end are no longer than the buffer of the scanner. -/
def fits (limit : ℕ) (line : String) : Bool := line.utf8ByteSize + 1 ≤ limit

/-- The lines that `scanner.Scan` finds: one that is too long ends the scan with an error. -/
def scanned (limit : ℕ) (lines : List String) : List String := (lines.takeWhile (fits limit)).map dropCR

/-- The two goroutines: the lines before the scanner, whether it goes on, the channel and what has been handled. -/
structure State where
  lines : List String
  scanning : Bool
  dataChan : List String
  delivered : List String

def dataChanCap : ℕ := 10

/-- The scanner's next turn, or none while the channel is full. -/
def scan (limit : ℕ) (s : State) : Option State :=
  if s.scanning then
    match s.lines with
    | [] => some { s with scanning := false }
    | line :: lines =>
      if fits limit line then
        match scanText (dropCR line) with
        | .skip => some { s with lines := lines }
        | .data data =>
          if s.dataChan.length < dataChanCap then some { s with lines := lines, dataChan := s.dataChan ++ [data] } else none
        | .done => some { s with lines := lines, scanning := false }
      else some { s with scanning := false }
  else none

/-- The turn of the goroutine that calls the data handler. -/
def handle (s : State) : Option State :=
  match s.dataChan with
  | [] => none
  | data :: dataChan => some { s with dataChan := dataChan, delivered := s.delivered ++ [data] }

/-- One of the two takes its turn. -/
def Step (limit : ℕ) (s s' : State) : Prop := scan limit s = some s' ∨ handle s = some s'

def start (lines : List String) : State where
  lines := lines
  scanning := true
  dataChan := []
  delivered := []

/-- The stream has ended: the scanner has stopped and the channel is empty. -/
def State.Finished (s : State) : Prop := s.scanning = false ∧ s.dataChan = []

/-! ## Payloads -/

/-- The trimmed payload of a line that starts with `data:`. -/
def payload (line : String) : Option String :=
  if GoString.hasPrefix line "data:" then some (GoString.trimSpace (GoString.after line "data:")) else none

/-- A line that ends a stream: a bare `[DONE]`, or one that is the payload. -/
def Terminator (line : String) : Prop :=
  GoString.hasPrefix line "[DONE]" ∧ GoString.trimSpace (GoString.after line "[DONE]") = "" ∨ payload line = some "[DONE]"

instance : DecidablePred Terminator := fun _ => inferInstanceAs (Decidable (_ ∨ _))

/-- The payloads before the first line that ends the stream. -/
def payloads (lines : List String) : List String :=
  (lines.takeWhile (¬ Terminator ·)).filterMap fun line => (payload line).filter (· ≠ "")

/-- In each run of the two goroutines that has come to its end, the data handler has had just the payloads. -/
def Delivers (limit : ℕ) (lines : List String) : Prop :=
  ∀ s, Relation.ReflTransGen (Step limit) (start lines) s → s.Finished → s.delivered = payloads (scanned limit lines)

/-- The lines up to the first one that ends the stream, and that one. -/
def untilTerminator : List String → List String
  | [] => []
  | line :: lines => if Terminator line then [line] else line :: untilTerminator lines

/-- No line starts with a bare `[DONE]`, and no payload goes on behind it. -/
def Plain (line : String) : Prop :=
  GoString.hasPrefix line "[DONE]" = false ∧
    ∀ p ∈ payload line, GoString.hasPrefix p "[DONE]" = true → p = "[DONE]"

instance : DecidablePred Plain := fun _ => inferInstanceAs (Decidable (_ ∧ ∀ _ ∈ _, _))

/-! ## One line -/

section
variable {line p : String}

theorem scanText_of_payload (h : payload line = some p) :
    scanText line = if p = "" then .skip else if ¬ GoString.hasPrefix p "[DONE]" then .data p else .done := by
  unfold payload at h
  split at h
  next hdata =>
    have hp := Option.some.inj h
    have hdrop : String.ofList (line.toList.drop 5) = GoString.after line "data:" := rfl
    have hstart : ¬ (¬ GoString.hasPrefix line "data:" = true ∧ ¬ GoString.hasPrefix line "[DONE]" = true) :=
      fun hnot => hnot.1 hdata
    unfold scanText
    rw [hdrop, hp, if_neg hstart]
    split
    next hshort =>
      -- The line is `data:` and no more.
      have hline := GoString.append_after hdata
      have hsize : (GoString.after line "data:").utf8ByteSize = 0 := by
        have hsum := congrArg String.utf8ByteSize hline
        rw [String.utf8ByteSize_append] at hsum
        have hfive : ("data:" : String).utf8ByteSize = 5 := by decide
        omega
      have hafter := String.utf8ByteSize_eq_zero_iff.1 hsize
      have hempty : p = "" := by
        rw [← hp, hafter]
        decide
      rw [if_pos hempty]
    next => rfl
  next => cases h

/-- What is left of a line that starts with `[DONE]` starts with the bracket. -/
theorem head?_cut_bare (h : GoString.hasPrefix line "[DONE]" = true) :
    (GoString.trimSpace (String.ofList (line.toList.drop 5))).toList.head? = some ']' := by
  obtain ⟨rest, hrest⟩ := GoString.hasPrefix_iff.1 h
  refine GoString.head?_trimSpace_of_head? ?_ (by decide)
  rw [String.toList_ofList, ← hrest]
  rfl

/-- Of a line that starts with `[DONE]`, what is behind the fifth character is sent. -/
theorem scanText_of_bare (h : GoString.hasPrefix line "[DONE]" = true) :
    ∃ d, scanText line = .data d ∧ GoString.hasPrefix d "[DONE]" = false := by
  have hsize : ¬ line.utf8ByteSize < 6 := by
    have hsum := congrArg String.utf8ByteSize (GoString.append_after h)
    rw [String.utf8ByteSize_append] at hsum
    have hsix : ("[DONE]" : String).utf8ByteSize = 6 := by decide
    omega
  have hhead := head?_cut_bare h
  have hnot : ∀ d : String, d.toList.head? = some ']' → GoString.hasPrefix d "[DONE]" = false := by
    intro d hd
    obtain ⟨l, hl⟩ := List.head?_eq_some_iff.1 hd
    unfold GoString.hasPrefix
    rw [hl]
    rfl
  have hne : GoString.trimSpace (String.ofList (line.toList.drop 5)) ≠ "" := by
    intro hempty
    rw [hempty] at hhead
    cases hhead
  refine ⟨_, ?_, hnot _ hhead⟩
  unfold scanText
  rw [if_neg hsize, if_neg fun hnone => hnone.2 h]
  dsimp only
  rw [if_neg hne, if_pos (by rw [hnot _ hhead]; exact Bool.false_ne_true)]

theorem scanText_of_other (hdata : payload line = none) (hbare : GoString.hasPrefix line "[DONE]" = false) :
    scanText line = .skip := by
  have hnot : ¬ GoString.hasPrefix line "data:" = true := by
    intro h
    unfold payload at hdata
    rw [if_pos h] at hdata
    cases hdata
  unfold scanText
  split
  · rfl
  · rw [if_pos ⟨hnot, fun h => by rw [hbare] at h; cases h⟩]

/-- The kinds of lines: what the loop makes of one, and what it is. -/
inductive Kind (line : String) : Prop
  | bare (d : String) (scan : scanText line = .data d) (cut : GoString.hasPrefix d "[DONE]" = false)
      (starts : GoString.hasPrefix line "[DONE]" = true) (none : payload line = none)
  | skip (scan : scanText line = .skip) (blank : (payload line).filter (· ≠ "") = none) (plain : Plain line)
      (goes : ¬ Terminator line)
  | data (p : String) (scan : scanText line = .data p) (some : payload line = some p) (ne : p ≠ "")
      (start : GoString.hasPrefix p "[DONE]" = false) (plain : Plain line) (goes : ¬ Terminator line)
  | done (scan : scanText line = .done) (some : payload line = some "[DONE]") (plain : Plain line)
  | behind (p : String) (scan : scanText line = .done) (some : payload line = some p)
      (start : GoString.hasPrefix p "[DONE]" = true) (ne : p ≠ "[DONE]") (goes : ¬ Terminator line)

theorem not_bare_of_payload (h : payload line = some p) : GoString.hasPrefix line "[DONE]" = false := by
  unfold payload at h
  split at h
  next hdata =>
    obtain ⟨rest, hrest⟩ := GoString.hasPrefix_iff.1 hdata
    unfold GoString.hasPrefix
    rw [← hrest]
    rfl
  next => cases h

theorem not_terminator (hbare : GoString.hasPrefix line "[DONE]" = false) (h : payload line ≠ some "[DONE]") :
    ¬ Terminator line := by
  rintro (hterm | hterm)
  · exact Bool.eq_false_iff.1 hbare hterm.1
  · exact h hterm

theorem kind (line : String) : Kind line := by
  cases hp : payload line with
  | none =>
    cases hbare : GoString.hasPrefix line "[DONE]" with
    | true =>
      obtain ⟨d, hscan, hcut⟩ := scanText_of_bare hbare
      exact .bare d hscan hcut hbare hp
    | false =>
      refine .skip (scanText_of_other hp hbare) (by rw [hp]; rfl) ⟨hbare, fun p h => ?_⟩ ?_
      · rw [hp] at h
        cases h
      · exact not_terminator hbare (by rw [hp]; exact nofun)
  | some p =>
    have hbare := not_bare_of_payload hp
    have hscan := scanText_of_payload hp
    have hplain : (GoString.hasPrefix p "[DONE]" = true → p = "[DONE]") → Plain line := by
      refine fun h => ⟨hbare, fun q hq => ?_⟩
      rw [hp] at hq
      exact Option.some.inj hq ▸ h
    have hgoes : p ≠ "[DONE]" → ¬ Terminator line := fun hne =>
      not_terminator hbare (by rw [hp]; exact fun h => hne (Option.some.inj h))
    by_cases hempty : p = ""
    · rw [if_pos hempty] at hscan
      refine .skip hscan ?_ (hplain fun h => ?_) (hgoes (hempty ▸ nofun))
      · rw [hp, hempty]
        rfl
      · rw [hempty] at h
        cases h
    · rw [if_neg hempty] at hscan
      cases hstart : GoString.hasPrefix p "[DONE]" with
      | false =>
        rw [hstart, if_pos Bool.false_ne_true] at hscan
        refine .data p hscan hp hempty hstart (hplain fun h => ?_) (hgoes fun h => ?_)
        · rw [hstart] at h
          cases h
        · rw [h] at hstart
          cases hstart
      | true =>
        rw [hstart, if_neg (not_not.2 rfl)] at hscan
        by_cases hdone : p = "[DONE]"
        · exact .done hscan (hdone ▸ hp) (hplain fun _ => hdone)
        · exact .behind p hscan hp hstart hdone (hgoes hdone)

end

/-! ## The lines -/

section
variable {line d : String} {lines : List String}

theorem sent_cons : sent (line :: lines) = match scanText line with
    | .skip => sent lines
    | .data data => data :: sent lines
    | .done => [] := rfl

theorem untilTerminator_cons :
    untilTerminator (line :: lines) = if Terminator line then [line] else line :: untilTerminator lines := rfl

theorem payloads_cons :
    payloads (line :: lines) =
      if Terminator line then [] else ((payload line).filter (· ≠ "")).toList ++ payloads lines := by
  unfold payloads
  by_cases hterm : Terminator line
  · rw [if_pos hterm, List.takeWhile_cons_of_neg (by simpa using hterm)]
    rfl
  · rw [if_neg hterm, List.takeWhile_cons_of_pos (by simpa using hterm), List.filterMap_cons]
    cases (payload line).filter (· ≠ "") with
    | none => rfl
    | some p => rfl

theorem payloads_of_some {p : String} (h : payload line = some p) (hne : p ≠ "") (hgoes : ¬ Terminator line) :
    payloads (line :: lines) = p :: payloads lines := by
  rw [payloads_cons, if_neg hgoes, h, Option.filter_some, if_pos (decide_eq_true hne)]
  rfl

theorem payloads_of_blank (h : (payload line).filter (· ≠ "") = none) (hgoes : ¬ Terminator line) :
    payloads (line :: lines) = payloads lines := by
  rw [payloads_cons, if_neg hgoes, h]
  rfl

theorem payloads_of_none (lines : List String) (h : payload line = none) :
    payloads (line :: lines) = [] ∨ payloads (line :: lines) = payloads lines := by
  rw [payloads_cons, h]
  split
  · exact .inl rfl
  · exact .inr rfl

/-- Nothing is sent that starts with `[DONE]`. -/
theorem not_hasPrefix_of_mem_sent (h : d ∈ sent lines) : GoString.hasPrefix d "[DONE]" = false := by
  induction lines with
  | nil => cases h
  | cons line lines ih =>
    rw [sent_cons] at h
    cases kind line with
    | bare d' scan cut starts none =>
      rw [scan] at h
      obtain rfl | hmem := List.mem_cons.1 h
      · exact cut
      · exact ih hmem
    | skip scan blank plain goes =>
      rw [scan] at h
      exact ih h
    | data p scan some ne start plain goes =>
      rw [scan] at h
      obtain rfl | hmem := List.mem_cons.1 h
      · exact start
      · exact ih hmem
    | done scan some plain =>
      rw [scan] at h
      cases h
    | behind p scan some start ne goes =>
      rw [scan] at h
      cases h

/-- As much is sent as there are payloads, unless one of them starts with `[DONE]`. -/
theorem length_payloads_le (lines : List String) : (payloads lines).length ≤ (sent lines).length ∨
    ∃ p ∈ payloads lines, GoString.hasPrefix p "[DONE]" = true := by
  induction lines with
  | nil => exact .inl (Nat.le_refl _)
  | cons line lines ih =>
    rw [sent_cons]
    cases kind line with
    | bare d scan cut starts none =>
      rw [scan]
      obtain hp | hp := payloads_of_none lines none
      · rw [hp]
        exact .inl (Nat.zero_le _)
      · rw [hp]
        exact ih.imp_left Nat.le_succ_of_le
    | skip scan blank plain goes =>
      rw [scan, payloads_of_blank blank goes]
      exact ih
    | data p scan some ne start plain goes =>
      rw [scan, payloads_of_some some ne goes]
      exact ih.imp Nat.succ_le_succ fun ⟨q, hq, hstart⟩ => ⟨q, List.mem_cons_of_mem p hq, hstart⟩
    | done scan some plain =>
      rw [scan, payloads_cons, if_pos (.inr some)]
      exact .inl (Nat.le_refl _)
    | behind p scan some start ne goes =>
      have hne : p ≠ "" := by
        rintro rfl
        cases start
      rw [payloads_of_some some hne goes]
      exact .inr ⟨p, List.mem_cons_self, start⟩

/-- What is sent is just the payloads where each line that the loop can meet is a plain one. -/
theorem sent_eq_payloads_iff : sent lines = payloads lines ↔ ∀ line ∈ untilTerminator lines, Plain line := by
  induction lines with
  | nil => exact iff_of_true rfl (List.forall_mem_nil _)
  | cons line lines ih =>
    have hgo : ¬ Terminator line → Plain line →
        ((∀ l ∈ untilTerminator (line :: lines), Plain l) ↔ ∀ l ∈ untilTerminator lines, Plain l) := by
      intro hgoes hplain
      rw [untilTerminator_cons, if_neg hgoes, List.forall_mem_cons]
      exact and_iff_right hplain
    have hfirst : (∀ l ∈ untilTerminator (line :: lines), Plain l) → Plain line := by
      intro h
      refine h line ?_
      rw [untilTerminator_cons]
      split
      · exact List.mem_cons_self
      · exact List.mem_cons_self
    rw [sent_cons]
    cases kind line with
    | bare d scan cut starts none =>
      rw [scan]
      refine iff_of_false (fun heq => ?_) fun h => ?_
      · obtain hp | hp := payloads_of_none lines none
        · rw [hp] at heq
          cases heq
        · -- A payload that starts with `[DONE]` would have to make up for the one that is too much.
          rw [hp] at heq
          obtain hle | ⟨p, hmem, hstart⟩ := length_payloads_le lines
          · have hlen := congrArg List.length heq
            rw [List.length_cons] at hlen
            omega
          · rw [← heq] at hmem
            obtain rfl | hmem := List.mem_cons.1 hmem
            · rw [cut] at hstart
              cases hstart
            · rw [not_hasPrefix_of_mem_sent hmem] at hstart
              cases hstart
      · have hbare := (hfirst h).1
        rw [starts] at hbare
        cases hbare
    | skip scan blank plain goes =>
      rw [scan, payloads_of_blank blank goes, hgo goes plain]
      exact ih
    | data p scan some ne start plain goes =>
      rw [scan, payloads_of_some some ne goes, hgo goes plain]
      exact List.cons_inj_right p |>.trans ih
    | done scan some plain =>
      rw [scan, payloads_cons, if_pos (.inr some)]
      refine iff_of_true rfl fun l hl => ?_
      rw [untilTerminator_cons, if_pos (.inr some)] at hl
      rw [List.mem_singleton.1 hl]
      exact plain
    | behind p scan some start ne goes =>
      have hne : p ≠ "" := by
        rintro rfl
        cases start
      rw [scan, payloads_of_some some hne goes]
      exact iff_of_false nofun fun h => ne ((hfirst h).2 p some start)

end

/-! ## Runs -/

section
variable {limit : ℕ} {line : String} {lines : List String} {s s' : State}

/-- What has been handled, is in the channel or will be sent. -/
def total (limit : ℕ) (s : State) : List String :=
  s.delivered ++ (s.dataChan ++ if s.scanning then sent (scanned limit s.lines) else [])

/-- How many turns there may still be. -/
def turns (s : State) : ℕ := 2 * s.lines.length + (if s.scanning then 1 else 0) + s.dataChan.length

theorem scanned_cons : scanned limit (line :: lines) =
    if fits limit line then dropCR line :: scanned limit lines else [] := by
  unfold scanned
  rw [List.takeWhile_cons]
  split
  · rfl
  · rfl

/-- What a turn of the scanner does. -/
inductive Turn (limit : ℕ) (s : State) : State → Prop
  | skip {line : String} {lines : List String} : s.lines = line :: lines → fits limit line = true → scanText (dropCR line) = .skip →
      Turn limit s { s with lines := lines }
  | send {line data : String} {lines : List String} :
      s.lines = line :: lines → fits limit line = true → scanText (dropCR line) = .data data →
      Turn limit s { s with lines := lines, dataChan := s.dataChan ++ [data] }
  | done {line : String} {lines : List String} : s.lines = line :: lines → fits limit line = true → scanText (dropCR line) = .done →
      Turn limit s { s with lines := lines, scanning := false }
  | stop : scanned limit s.lines = [] → Turn limit s { s with scanning := false }

theorem scan_some (h : scan limit s = some s') : s.scanning = true ∧ Turn limit s s' := by
  unfold scan at h
  split at h
  next hscanning =>
    refine ⟨hscanning, ?_⟩
    split at h
    next hlines =>
      cases h
      exact .stop (by rw [hlines]; rfl)
    next line lines hlines =>
      split at h
      next hfits =>
        split at h
        next hscan =>
          cases h
          exact .skip hlines hfits hscan
        next data hscan =>
          split at h
          · cases h
            exact .send hlines hfits hscan
          · cases h
        next hscan =>
          cases h
          exact .done hlines hfits hscan
      next hfits =>
        cases h
        exact .stop (by rw [hlines, scanned_cons, if_neg hfits])
  next => cases h

theorem handle_some (h : handle s = some s') :
    ∃ data dataChan, s.dataChan = data :: dataChan ∧
      s' = { s with dataChan := dataChan, delivered := s.delivered ++ [data] } := by
  unfold handle at h
  split at h
  next => cases h
  next data dataChan hchan => exact ⟨data, dataChan, hchan, (Option.some.inj h).symm⟩

theorem total_step (h : Step limit s s') : total limit s' = total limit s := by
  rcases h with h | h
  · obtain ⟨hscanning, hscan⟩ := scan_some h
    unfold total
    cases hscan with
    | skip hlines hfits hscan => simp [hscanning, hlines, scanned_cons, hfits, sent_cons, hscan]
    | send hlines hfits hscan => simp [hscanning, hlines, scanned_cons, hfits, sent_cons, hscan]
    | done hlines hfits hscan => simp [hscanning, hlines, scanned_cons, hfits, sent_cons, hscan]
    | stop hnone => simp [hscanning, hnone, sent]
  · obtain ⟨data, dataChan, hchan, rfl⟩ := handle_some h
    simp [total, hchan]

theorem turns_step (h : Step limit s s') : turns s' < turns s := by
  rcases h with h | h
  · obtain ⟨hscanning, hscan⟩ := scan_some h
    unfold turns
    cases hscan with
    | skip hlines hfits hscan => simp [hlines]
    | send hlines hfits hscan =>
      simp only [hlines, List.length_cons, List.length_append, List.length_nil]
      omega
    | done hlines hfits hscan =>
      simp only [hlines, List.length_cons]
      split <;> omega
    | stop hnone => simp [hscanning]
  · obtain ⟨data, dataChan, hchan, rfl⟩ := handle_some h
    simp [turns, hchan]

/-- Unless the stream has ended, one of the two can take its turn: if the channel is full, it can be read. -/
theorem exists_step (limit : ℕ) (h : ¬ s.Finished) : ∃ s', Step limit s s' := by
  cases hchan : s.dataChan with
  | cons data dataChan =>
    refine ⟨{ s with dataChan := dataChan, delivered := s.delivered ++ [data] }, .inr ?_⟩
    unfold handle
    rw [hchan]
  | nil =>
    have hscanning : s.scanning = true := by
      cases hs : s.scanning with
      | true => rfl
      | false => exact absurd ⟨hs, hchan⟩ h
    have hscan : (scan limit s).isSome := by
      unfold scan
      rw [if_pos hscanning, hchan]
      split
      · rfl
      · split
        · split
          · rfl
          · rfl
          · rfl
        · rfl
    obtain ⟨s', hs'⟩ := Option.isSome_iff_exists.1 hscan
    exact ⟨s', .inl hs'⟩

theorem exists_finished (limit : ℕ) (s : State) : ∃ s', Relation.ReflTransGen (Step limit) s s' ∧ s'.Finished := by
  by_cases h : s.Finished
  · exact ⟨s, .refl, h⟩
  · obtain ⟨s₁, hstep⟩ := exists_step limit h
    have hlt := turns_step hstep
    obtain ⟨s', hrun, hfinished⟩ := exists_finished limit s₁
    exact ⟨s', .head hstep hrun, hfinished⟩
termination_by turns s

theorem total_run (h : Relation.ReflTransGen (Step limit) s s') : total limit s' = total limit s := by
  induction h with
  | refl => rfl
  | tail _ hstep ih => exact (total_step hstep).trans ih

theorem total_start : total limit (start lines) = sent (scanned limit lines) := rfl

theorem total_finished (limit : ℕ) (h : s.Finished) : total limit s = s.delivered := by
  unfold total
  rw [h.1, h.2]
  exact List.append_nil _

theorem delivered_of_finished (h : Relation.ReflTransGen (Step limit) (start lines) s) (hfinished : s.Finished) :
    s.delivered = sent (scanned limit lines) := by
  rw [← total_finished limit hfinished, total_run h, total_start]

theorem delivers_iff_sent : Delivers limit lines ↔ sent (scanned limit lines) = payloads (scanned limit lines) := by
  constructor
  · intro h
    obtain ⟨s, hrun, hfinished⟩ := exists_finished limit (start lines)
    rw [← delivered_of_finished hrun hfinished]
    exact h s hrun hfinished
  · intro h s hrun hfinished
    rw [delivered_of_finished hrun hfinished, h]

/-- Just the payloads are handled where, up to the first line that ends the stream, no line starts with a bare
`[DONE]` and no payload goes on behind it. -/
theorem delivers_iff (limit : ℕ) (lines : List String) :
    Delivers limit lines ↔ ∀ line ∈ untilTerminator (scanned limit lines), Plain line :=
  delivers_iff_sent.trans sent_eq_payloads_iff

/-- A bare `[DONE]` does not end the stream: a bracket is handled. -/
theorem not_delivers_bare : ¬ Delivers (64 * 2 ^ 20) ["data: a", "[DONE]"] := by
  rw [delivers_iff_sent]
  decide

end

end NewApi.Stream.Scanner

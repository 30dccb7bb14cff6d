import NewApi.Lib.GoString
import NewApi.Lib.Leftmost

/-!
# Texts within joined texts

Where texts are joined by a separator, a text without it is first found within one of them (`dropInfix?_join`), and behind a
separator, where one of them starts with it (`replace_join`).
-/

namespace NewApi.Segments

open GoString

/-- The texts before the first one with a text in it, and what is before the text in that one. -/
def firstIn (t : List Char) : List String → Option (List String × String)
  | [] => none
  | s :: l =>
    match s.toList.dropInfix? t with
    | some (p, _) => some ([], String.ofList p)
    | none => (firstIn t l).map fun r => (s :: r.1, r.2)

/-- The first text that starts with a text gets another start. -/
def place (t : List Char) (m : String) : List String → Option (List String)
  | [] => none
  | s :: l => if t <+: s.toList then some ((m ++ String.ofList (s.toList.drop t.length)) :: l) else (place t m l).map (s :: ·)

section
variable {sep : Char} {t cs l' : List Char} {m s : String} {l : List String}

theorem exists_firstIn (hs : s ∈ l) (ht : t <:+: s.toList) : ∃ r, firstIn t l = some r := by
  induction l with
  | nil => cases hs
  | cons u l ih =>
    unfold firstIn
    cases hu : u.toList.dropInfix? t with
    | some found => exact ⟨_, rfl⟩
    | none =>
      rcases List.mem_cons.1 hs with rfl | hmem
      · exact absurd ht (dropInfix?_eq_none.1 hu)
      · obtain ⟨r, hr⟩ := ih hmem
        exact ⟨_, congrArg (Option.map _) hr⟩

/-- In each place there is what was there, or the text there has got another start. -/
theorem getElem?_place {i : ℕ} {l' : List String} (h : place t m l = some l') (hi : l[i]? = some s) :
    l'[i]? = some s ∨ ∃ v, s.toList = t ++ v ∧ l'[i]? = some (m ++ String.ofList v) := by
  induction l generalizing l' i with
  | nil => cases h
  | cons u l ih =>
    unfold place at h
    split at h
    next hu =>
      obtain rfl := Option.some.inj h
      cases i with
      | zero =>
        obtain rfl := Option.some.inj hi
        obtain ⟨v, hv⟩ := hu
        refine .inr ⟨v, hv.symm, ?_⟩
        rw [← hv, List.drop_left]
        rfl
      | succ i => exact .inl hi
    next hu =>
      obtain ⟨l'', hl'', rfl⟩ := Option.map_eq_some_iff.1 h
      cases i with
      | zero => exact .inl hi
      | succ i =>
        have hrest := ih hl'' (show l[i]? = some s from hi)
        exact hrest

theorem length_place {l' : List String} (h : place t m l = some l') : l'.length = l.length := by
  induction l generalizing l' with
  | nil => cases h
  | cons u l ih =>
    unfold place at h
    split at h
    · obtain rfl := Option.some.inj h
      rfl
    · obtain ⟨l'', hl'', rfl⟩ := Option.map_eq_some_iff.1 h
      rw [List.length_cons, List.length_cons, ih hl'']

/-- Behind texts that do not start with it, a text is put in place of the next one that is just it. -/
theorem place_append (hl : ∀ u ∈ l, ¬ t <+: u.toList) {r : List String} (hs : s.toList = t) :
    place t m (l ++ s :: r) = some (l ++ m :: r) := by
  induction l with
  | nil =>
    rw [List.nil_append, place, if_pos (by rw [hs]), hs, List.drop_length, String.ofList_nil, String.append_empty]
    rfl
  | cons u l ih =>
    rw [List.forall_mem_cons] at hl
    rw [List.cons_append, place, if_neg hl.1, ih hl.2]
    rfl

/-- A text without a separator does not reach over one. -/
theorem length_lt_of_separator (hsep : sep ∉ t) (hs : ¬ t <:+: cs) {p' s' : List Char} (heq : cs ++ sep :: l' = p' ++ t ++ s') :
    cs.length < p'.length := by
  by_contra hle
  have hpre : cs <+: p' ++ t ++ s' := ⟨sep :: l', heq⟩
  rcases Nat.lt_or_ge cs.length (p' ++ t).length with hlt | hge
  · have hat : (cs ++ sep :: l')[cs.length]? = some sep := by
      rw [List.getElem?_append_right le_rfl, Nat.sub_self, List.getElem?_cons_zero]
    rw [heq, List.getElem?_append_left hlt, List.getElem?_append_right (by omega)] at hat
    exact hsep (List.mem_of_getElem? hat)
  · have hin : p' ++ t <+: cs := List.prefix_of_prefix_length_le ⟨s', rfl⟩ hpre hge
    exact hs ((List.suffix_append p' t).isInfix.trans hin.isInfix)

/-- The first place of a text in joined texts. -/
theorem dropInfix?_join (hsep : sep ∉ t) (ht : t ≠ []) :
    ((join sep l).toList.dropInfix? t).map Prod.fst = (firstIn t l).map fun r => (join sep (r.1 ++ [r.2])).toList := by
  induction l with
  | nil =>
    have hnone : ([] : List Char).dropInfix? t = none := dropInfix?_eq_none.2 fun h => ht (List.infix_nil.1 h)
    show (([] : List Char).dropInfix? t).map Prod.fst = _
    rw [hnone]
    rfl
  | cons s l ih =>
    unfold firstIn
    cases hs : s.toList.dropInfix? t with
    | some r =>
      obtain ⟨p, s'⟩ := r
      have hwhole : (join sep [String.ofList p]).toList = p := by rw [join_singleton, String.toList_ofList]
      dsimp only [Option.map_some]
      rw [List.nil_append, hwhole]
      cases l with
      | nil => rw [join_singleton, hs, Option.map_some]
      | cons u l =>
        have hin : s.toList ++ sep :: (join sep (u :: l)).toList = p ++ t ++ (s' ++ sep :: (join sep (u :: l)).toList) := by
          rw [(dropInfix?_eq_some.1 hs).1, List.append_assoc (p ++ t)]
        rw [toList_join_cons (List.cons_ne_nil _ _), hin, dropInfix?_append (not_infix_of_dropInfix? ht hs), Option.map_some]
    | none =>
      dsimp only
      cases l with
      | nil => rw [join_singleton, hs, firstIn, Option.map_none, Option.map_none, Option.map_none]
      | cons u l =>
        have hskip : (s.toList ++ [sep] ++ (join sep (u :: l)).toList).dropInfix? t =
            ((join sep (u :: l)).toList.dropInfix? t).map fun r => (s.toList ++ [sep] ++ r.1, r.2) := by
          refine dropInfix?_append_left fun p' s' heq => ?_
          have hlt := length_lt_of_separator hsep (dropInfix?_eq_none.1 hs)
            (show s.toList ++ sep :: (join sep (u :: l)).toList = _ by rw [← heq, List.append_assoc, List.singleton_append])
          rwa [List.length_append, List.length_singleton]
        have hcons (r : List String × String) : (join sep (s :: r.1 ++ [r.2])).toList =
            s.toList ++ [sep] ++ (join sep (r.1 ++ [r.2])).toList := by
          rw [List.cons_append, toList_join_cons (by simp), List.append_assoc, List.singleton_append]
        rw [toList_join_cons (List.cons_ne_nil _ _), ← List.singleton_append, ← List.append_assoc, hskip, Option.map_map,
          Option.map_map]
        have hnext := congrArg (Option.map fun cs => s.toList ++ [sep] ++ cs) ih
        rw [Option.map_map, Option.map_map] at hnext
        refine hnext.trans (congrArg (Option.map · _) (funext fun r => ?_))
        exact (hcons r).symm

/-- Joined texts start with a text just where the first one does. -/
theorem prefix_join_iff (hsep : sep ∉ t) : t <+: (join sep (s :: l)).toList ↔ t <+: s.toList := by
  cases l with
  | nil => rw [join_singleton]
  | cons u l =>
    rw [toList_join_cons (List.cons_ne_nil _ _)]
    refine ⟨fun h => ?_, fun h => h.trans (List.prefix_append ..)⟩
    rcases le_or_gt t.length s.toList.length with hle | hlt
    · exact List.prefix_of_prefix_length_le h (List.prefix_append ..) hle
    · have hmore : s.toList ++ [sep] <+: t := by
        refine List.prefix_of_prefix_length_le ⟨(join sep (u :: l)).toList, ?_⟩ h ?_
        · rw [List.append_assoc, List.singleton_append]
        · rwa [List.length_append, List.length_singleton]
      exact absurd (hmore.subset (List.mem_append_right _ List.mem_cons_self)) hsep

/-- A text that goes in place of one behind a separator, where that one stands first. -/
theorem replace_join (hsep : sep ∉ t) (hs : sep ∉ s.toList) (hl : ∀ u ∈ l, sep ∉ u.toList) :
    (((join sep (s :: l)).toList.dropInfix? (sep :: t)).map fun r =>
        String.ofList r.1 ++ String.singleton sep ++ m ++ String.ofList r.2) =
      (place t m l).map fun l => join sep (s :: l) := by
  induction l generalizing s with
  | nil =>
    have hnone : s.toList.dropInfix? (sep :: t) = none :=
      dropInfix?_eq_none.2 fun h => hs (h.subset List.mem_cons_self)
    rw [join_singleton, hnone]
    rfl
  | cons u l ih =>
    rw [List.forall_mem_cons] at hl
    have hfirst {p' s' : List Char} (heq : s.toList ++ sep :: (join sep (u :: l)).toList = p' ++ sep :: t ++ s') :
        s.toList.length ≤ p'.length := by
      by_contra hlt
      have hat : (p' ++ sep :: t ++ s')[p'.length]? = some sep := by
        rw [List.append_assoc, List.getElem?_append_right le_rfl, Nat.sub_self, List.cons_append, List.getElem?_cons_zero]
      rw [← heq, List.getElem?_append_left (Nat.not_le.1 hlt)] at hat
      exact hs (List.mem_of_getElem? hat)
    rw [toList_join_cons (List.cons_ne_nil _ _)]
    unfold place
    split
    next hu =>
      obtain ⟨u', hu'⟩ := hu
      have hrest : (join sep (u :: l)).toList = t ++ (join sep (String.ofList u' :: l)).toList := by
        cases l with
        | nil => rw [join_singleton, join_singleton, String.toList_ofList, hu']
        | cons v l =>
          rw [toList_join_cons (List.cons_ne_nil _ _), toList_join_cons (List.cons_ne_nil _ _), String.toList_ofList, ← hu',
            List.append_assoc]
      have hplaced : join sep (s :: (m ++ String.ofList u') :: l) =
          s ++ String.singleton sep ++ m ++ join sep (String.ofList u' :: l) := by
        rw [← String.toList_inj, toList_join_cons (List.cons_ne_nil _ _)]
        cases l with
        | nil => simp [join_singleton]
        | cons v l =>
          rw [toList_join_cons (List.cons_ne_nil _ _)]
          simp [toList_join_cons]
      have hfound : (s.toList ++ sep :: (join sep (u :: l)).toList).dropInfix? (sep :: t) =
          some (s.toList, (join sep (String.ofList u' :: l)).toList) := by
        refine dropInfix?_eq_some.2 ⟨?_, fun p' s' heq => hfirst heq⟩
        rw [hrest, List.append_assoc, List.cons_append]
      rw [hfound, ← hu', List.drop_left, Option.map_some, Option.map_some, hplaced, String.ofList_toList, String.ofList_toList]
    next hu =>
      have hskip : (s.toList ++ [sep] ++ (join sep (u :: l)).toList).dropInfix? (sep :: t) =
          ((join sep (u :: l)).toList.dropInfix? (sep :: t)).map fun r => (s.toList ++ [sep] ++ r.1, r.2) := by
        refine dropInfix?_append_left fun p' s' heq => ?_
        rw [List.append_assoc, List.singleton_append] at heq
        rw [List.length_append, List.length_singleton]
        refine (hfirst heq).lt_of_ne fun hlen => hu ?_
        obtain ⟨-, hhere⟩ := List.append_inj (heq.trans (List.append_assoc ..)) hlen
        exact (prefix_join_iff hsep).1 ⟨s', (List.cons.inj hhere).2.symm⟩
      rw [← List.singleton_append, ← List.append_assoc, hskip, Option.map_map, Option.map_map]
      have hnext := congrArg (Option.map fun r => s ++ String.singleton sep ++ r) (ih hl.1 hl.2)
      rw [Option.map_map, Option.map_map] at hnext
      have hcut (r : List Char × List Char) : String.ofList (s.toList ++ [sep] ++ r.1) ++ String.singleton sep ++ m ++ String.ofList r.2 =
          s ++ String.singleton sep ++ (String.ofList r.1 ++ String.singleton sep ++ m ++ String.ofList r.2) := by
        rw [← String.toList_inj]
        simp
      have hcons (l' : List String) : s ++ String.singleton sep ++ join sep (u :: l') = join sep (s :: u :: l') := by
        rw [← String.toList_inj, toList_join_cons (List.cons_ne_nil _ _)]
        simp
      exact (congrArg (Option.map · _) (funext hcut)).trans (hnext.trans (congrArg (Option.map · _) (funext hcons)))

end

end NewApi.Segments

import NewApi.Lib.GoString
import Mathlib.Data.List.Nodup

/-!
# The models of the upstream

`collectPendingUpstreamModelChangesFromModels` compares the models of a channel with those that its upstream lists, and
`applySelectedModelChanges` makes the changes that an administrator has selected. The lists are texts with blanks and repetitions;
normalized, they are sets in an order (`Normal`), and the two functions are set algebra on them. So a selection of the changes
leaves the others pending, and nothing else (`pending_converges`).
-/

namespace NewApi.UpstreamModels

open GoString (trimSpace hasPrefix after join split trim)

def normalizeModelNames (models : List String) : List String :=
  (models.filterMap fun model =>
    let trimmed := trimSpace model
    if trimmed ≠ "" then some trimmed else none).eraseDups

/-- `mergeModelNames`, where the names that have been seen are those that have been merged. -/
def mergeModelNames (base appended : List String) : List String :=
  (normalizeModelNames appended).foldl (fun merged model => if model ∈ merged then merged else merged ++ [model])
    (normalizeModelNames base)

def subtractModelNames (base removed : List String) : List String :=
  let removeSet := normalizeModelNames removed
  (normalizeModelNames base).filter (· ∉ removeSet)

def applySelectedModelChanges (originModels addModels removeModels : List String) : List String :=
  -- an added model wins over a removed one
  let normalizedAdd := normalizeModelNames addModels
  let normalizedRemove := subtractModelNames (normalizeModelNames removeModels) normalizedAdd
  subtractModelNames (mergeModelNames originModels normalizedAdd) normalizedRemove

section
variable (matchString : String → String → Option Bool)

/-- The test whether an entry ignores a model; `matchString` is `regexp.MatchString`, which has no answer for a text that is no
regular expression. -/
def ignores (ignoredModel modelName : String) : Bool :=
  if hasPrefix ignoredModel "regex:" then
    (matchString (trimSpace (after ignoredModel "regex:")) modelName).getD false
  else ignoredModel == modelName

/-- `collectPendingUpstreamModelChangesFromModels`: the models to add, and those to remove. -/
def collectPendingUpstreamModelChangesFromModels (localModels upstreamModels ignoredModels : List String)
    (modelMapping : List (String × String)) : List String × List String :=
  let localModels := normalizeModelNames localModels
  let upstreamModels := normalizeModelNames upstreamModels
  let normalizedIgnoredModels := normalizeModelNames ignoredModels
  let redirectSourceSet := modelMapping.map Prod.fst
  let redirectTargetSet := modelMapping.map Prod.snd
  let coveredUpstreamSet := localModels ++ redirectTargetSet
  let pendingAdd := upstreamModels.filter fun modelName =>
    if modelName ∈ coveredUpstreamSet then false
    else if normalizedIgnoredModels.any fun ignoredModel => ignores matchString ignoredModel modelName then false
    else true
  let pendingRemove := localModels.filter fun modelName =>
    if modelName ∈ redirectSourceSet then false else decide (modelName ∉ upstreamModels)
  (normalizeModelNames pendingAdd, normalizeModelNames pendingRemove)

end

/-- The text that a channel has its models in. -/
def joinModels (models : List String) : String := join ',' models

/-- `GetModels`. -/
def getModels (models : String) : List String := if models = "" then [] else split ',' (trim ',' models)

/-! ## Normalized lists -/

/-- The names of a list differ, and none is empty or has blanks around it. -/
structure Normal (l : List String) : Prop where
  nodup : l.Nodup
  trimmed : ∀ model ∈ l, trimSpace model = model
  ne_empty : ∀ model ∈ l, model ≠ ""

section
variable {l base appended removed originModels addModels removeModels : List String} {model : String}

theorem nodup_eraseDups {α : Type} [DecidableEq α] (l : List α) : l.eraseDups.Nodup := by
  induction hn : l.length using Nat.strong_induction_on generalizing l with
  | _ n ih =>
    cases l with
    | nil => exact List.nodup_nil
    | cons a l =>
      rw [List.eraseDups_cons, List.nodup_cons]
      have hlen : (l.filter fun b => !b == a).length < n := by
        rw [← hn, List.length_cons]
        exact Nat.lt_succ_of_le (List.length_filter_le _ _)
      refine ⟨fun hmem => ?_, ih _ hlen _ rfl⟩
      simp at hmem

theorem eraseDups_eq_self {α : Type} [DecidableEq α] {l : List α} (h : l.Nodup) : l.eraseDups = l := by
  induction l with
  | nil => rfl
  | cons a l ih =>
    rw [List.nodup_cons] at h
    have hfilter : (l.filter fun b => !b == a) = l := by
      rw [List.filter_eq_self]
      intro b hb
      simpa using ne_of_mem_of_not_mem hb h.1
    rw [List.eraseDups_cons, hfilter, ih h.2]

theorem mem_normalizeModelNames : model ∈ normalizeModelNames l ↔ model ≠ "" ∧ ∃ m ∈ l, trimSpace m = model := by
  simp only [normalizeModelNames, List.mem_eraseDups, List.mem_filterMap, Option.ite_none_right_eq_some, Option.some.injEq]
  constructor
  · rintro ⟨m, hm, hne, rfl⟩
    exact ⟨hne, m, hm, rfl⟩
  · rintro ⟨hne, m, hm, rfl⟩
    exact ⟨m, hm, hne, rfl⟩

theorem normal_normalizeModelNames (l : List String) : Normal (normalizeModelNames l) where
  nodup := nodup_eraseDups _
  trimmed model hmem := by
    obtain ⟨-, m, -, rfl⟩ := mem_normalizeModelNames.1 hmem
    exact GoString.trimSpace_trimSpace m
  ne_empty model hmem := (mem_normalizeModelNames.1 hmem).1

namespace Normal

theorem normalize (h : Normal l) : normalizeModelNames l = l := by
  have hall : (l.filterMap fun model =>
      let trimmed := trimSpace model
      if trimmed ≠ "" then some trimmed else none) = l := by
    rw [List.filterMap_congr (g := some), List.filterMap_some]
    intro model hmem
    simp [h.trimmed model hmem, h.ne_empty model hmem]
  rw [normalizeModelNames, hall, eraseDups_eq_self h.nodup]

theorem filter (h : Normal l) (p : String → Bool) : Normal (l.filter p) where
  nodup := h.nodup.filter p
  trimmed model hmem := h.trimmed model (List.mem_of_mem_filter hmem)
  ne_empty model hmem := h.ne_empty model (List.mem_of_mem_filter hmem)

theorem append (h : Normal base) (h' : Normal appended) (hdisjoint : base.Disjoint appended) : Normal (base ++ appended) where
  nodup := h.nodup.append h'.nodup hdisjoint
  trimmed model hmem := (List.mem_append.1 hmem).elim (h.trimmed model) (h'.trimmed model)
  ne_empty model hmem := (List.mem_append.1 hmem).elim (h.ne_empty model) (h'.ne_empty model)

theorem merge (h : Normal base) (h' : Normal appended) :
    mergeModelNames base appended = base ++ appended.filter (· ∉ base) := by
  have hfold : ∀ (l merged : List String), l.Nodup →
      l.foldl (fun merged model => if model ∈ merged then merged else merged ++ [model]) merged =
        merged ++ l.filter (· ∉ merged) := by
    intro l
    induction l with
    | nil => simp
    | cons model l ih =>
      intro merged hnodup
      rw [List.nodup_cons] at hnodup
      rw [List.foldl_cons, List.filter_cons, ih _ hnodup.2]
      by_cases hmem : model ∈ merged
      · simp [hmem]
      · have hrest : (l.filter fun m => decide (m ∉ merged ++ [model])) = l.filter fun m => decide (m ∉ merged) := by
          refine List.filter_congr fun m hm => ?_
          have hne : m ≠ model := ne_of_mem_of_not_mem hm hnodup.1
          simp [hne]
        simp only [hmem, if_false, not_false_eq_true, decide_true, if_true]
        rw [hrest, List.append_assoc, List.singleton_append]
  rw [mergeModelNames, h.normalize, h'.normalize, hfold _ _ h'.nodup]

theorem subtract (h : Normal base) (h' : Normal removed) : subtractModelNames base removed = base.filter (· ∉ removed) := by
  rw [subtractModelNames, h.normalize, h'.normalize]

theorem apply (h : Normal l) (hremove : Normal removeModels) (hadd : Normal addModels) (hdisjoint : addModels.Disjoint removeModels) :
    applySelectedModelChanges l addModels removeModels =
      (l ++ addModels.filter (· ∉ l)).filter (· ∉ removeModels) := by
  have hremaining : (removeModels.filter fun m => decide (m ∉ addModels)) = removeModels := by
    rw [List.filter_eq_self]
    intro m hm
    simpa using fun hm' => hdisjoint hm' hm
  have hmerged : Normal (l ++ addModels.filter (· ∉ l)) := by
    refine h.append (hadd.filter _) fun m hm hm' => ?_
    simp [hm] at hm'
  unfold applySelectedModelChanges
  dsimp only
  rw [hremove.normalize, hadd.normalize, hremove.subtract hadd, hremaining, h.merge hadd, hmerged.subtract hremove]

end Normal

theorem applySelectedModelChanges_normalize : applySelectedModelChanges originModels addModels removeModels =
    applySelectedModelChanges (normalizeModelNames originModels) (normalizeModelNames addModels) (normalizeModelNames removeModels) := by
  have hidem (l : List String) : normalizeModelNames (normalizeModelNames l) = normalizeModelNames l :=
    (normal_normalizeModelNames l).normalize
  unfold applySelectedModelChanges mergeModelNames
  simp only [hidem]

theorem mem_normalizeModelNames_of_trimmed (h : ∀ m ∈ l, trimSpace m = m ∧ m ≠ "") : model ∈ normalizeModelNames l ↔ model ∈ l := by
  rw [mem_normalizeModelNames]
  constructor
  · rintro ⟨-, m, hm, rfl⟩
    rwa [(h m hm).1]
  · exact fun hm => ⟨(h model hm).2, model, hm, (h model hm).1⟩

/-! ## A channel's text -/

theorem ends_joinModels (hl : l ≠ []) (hne : ∀ m ∈ l, m ≠ "") :
    (∃ m ∈ l, (joinModels l).toList.head? = m.toList.head?) ∧ ∃ m ∈ l, m ≠ "" ∧ (joinModels l).toList.getLast? = m.toList.getLast? := by
  unfold joinModels
  induction l with
  | nil => exact absurd rfl hl
  | cons m l ih =>
    have hm : m.toList ≠ [] := fun hnil => hne m (.head _) (String.toList_eq_nil_iff.1 hnil)
    cases l with
    | nil =>
      rw [GoString.join_singleton]
      exact ⟨⟨m, .head _, rfl⟩, m, .head _, hne m (.head _), rfl⟩
    | cons m' l =>
      rw [GoString.toList_join_cons (List.cons_ne_nil _ _)]
      obtain ⟨-, last, hlast, hlastne, heq⟩ := ih (List.cons_ne_nil _ _) fun m hm => hne m (.tail _ hm)
      refine ⟨⟨m, .head _, List.head?_append_of_ne_nil _ hm⟩, last, .tail _ hlast, hlastne, ?_⟩
      cases hc : last.toList.getLast? with
      | none => exact absurd (String.toList_eq_nil_iff.1 (List.getLast?_eq_none_iff.1 hc)) hlastne
      | some c => rw [List.getLast?_append, List.getLast?_cons, heq, hc, Option.getD_some, Option.some_or]

theorem getModels_joinModels (h : ∀ m ∈ l, ',' ∉ m.toList) (hne : ∀ m ∈ l, m ≠ "") : getModels (joinModels l) = l := by
  rcases eq_or_ne l [] with rfl | hl
  · rfl
  obtain ⟨⟨first, hfirst, hhead⟩, last, hlast, hlastne, htail⟩ := ends_joinModels hl hne
  have htrim : trim ',' (joinModels l) = joinModels l := by
    refine GoString.trim_eq_self ?_ ?_
    · rw [hhead]
      exact fun heq => h first hfirst (List.mem_of_mem_head? heq)
    · rw [htail]
      exact fun heq => h last hlast (List.mem_of_mem_getLast? heq)
  have hjoined : joinModels l ≠ "" := by
    intro heq
    rw [heq] at htail
    exact hlastne (String.toList_eq_nil_iff.1 (List.getLast?_eq_none_iff.1 htail.symm))
  rw [getModels, if_neg hjoined, htrim]
  exact GoString.split_join hl h

end

/-! ## Pending changes -/

section
variable {matchString : String → String → Option Bool} {localModels upstreamModels ignoredModels selectedAdd selectedRemove : List String}
  {modelMapping : List (String × String)}

/-- A model of the upstream that the channel should have. -/
structure Missing (matchString : String → String → Option Bool) (localModels ignoredModels : List String)
    (modelMapping : List (String × String)) (model : String) : Prop where
  not_local : model ∉ normalizeModelNames localModels
  not_target : ∀ redirect ∈ modelMapping, redirect.2 ≠ model
  not_ignored : ∀ ignoredModel ∈ normalizeModelNames ignoredModels, ignores matchString ignoredModel model = false

instance : DecidablePred (Missing matchString localModels ignoredModels modelMapping) := fun model =>
  decidable_of_iff
    (model ∉ normalizeModelNames localModels ∧ (∀ redirect ∈ modelMapping, redirect.2 ≠ model) ∧
      ∀ ignoredModel ∈ normalizeModelNames ignoredModels, ignores matchString ignoredModel model = false)
    ⟨fun ⟨h₁, h₂, h₃⟩ => ⟨h₁, h₂, h₃⟩, fun h => ⟨h.1, h.2, h.3⟩⟩

/-- A model of the channel that it should not have. -/
structure Stale (upstreamModels : List String) (modelMapping : List (String × String)) (model : String) : Prop where
  not_source : ∀ redirect ∈ modelMapping, redirect.1 ≠ model
  not_upstream : model ∉ normalizeModelNames upstreamModels

instance : DecidablePred (Stale upstreamModels modelMapping) := fun model =>
  decidable_of_iff ((∀ redirect ∈ modelMapping, redirect.1 ≠ model) ∧ model ∉ normalizeModelNames upstreamModels)
    ⟨fun ⟨h₁, h₂⟩ => ⟨h₁, h₂⟩, fun h => ⟨h.1, h.2⟩⟩

theorem collect_eq : collectPendingUpstreamModelChangesFromModels matchString localModels upstreamModels ignoredModels modelMapping =
    ((normalizeModelNames upstreamModels).filter (Missing matchString localModels ignoredModels modelMapping),
      (normalizeModelNames localModels).filter (Stale upstreamModels modelMapping)) := by
  unfold collectPendingUpstreamModelChangesFromModels
  dsimp only
  rw [((normal_normalizeModelNames upstreamModels).filter _).normalize,
    ((normal_normalizeModelNames localModels).filter _).normalize]
  refine Prod.ext (List.filter_congr fun model _ => ?_) (List.filter_congr fun model _ => ?_)
  · rw [Bool.eq_iff_iff, decide_eq_true_iff]
    split
    next hcovered =>
      refine iff_of_false Bool.false_ne_true fun h => ?_
      rcases List.mem_append.1 hcovered with hlocal | htarget
      · exact h.not_local hlocal
      · obtain ⟨redirect, hmem, heq⟩ := List.mem_map.1 htarget
        exact h.not_target redirect hmem heq
    next hcovered =>
      rw [List.mem_append, not_or] at hcovered
      split
      next hignored =>
        obtain ⟨ignoredModel, hmem, hignores⟩ := List.any_eq_true.1 hignored
        exact iff_of_false Bool.false_ne_true fun h => absurd hignores (by rw [h.not_ignored ignoredModel hmem]; exact Bool.false_ne_true)
      next hignored =>
        refine iff_of_true rfl ⟨hcovered.1, fun redirect hmem heq => hcovered.2 (List.mem_map.2 ⟨redirect, hmem, heq⟩), ?_⟩
        exact fun ignoredModel hmem => Bool.eq_false_iff.2 fun h => hignored (List.any_eq_true.2 ⟨ignoredModel, hmem, h⟩)
  · rw [Bool.eq_iff_iff, decide_eq_true_iff]
    split
    next hsource =>
      obtain ⟨redirect, hmem, heq⟩ := List.mem_map.1 hsource
      exact iff_of_false Bool.false_ne_true fun h => h.not_source redirect hmem heq
    next hsource =>
      rw [decide_eq_true_iff]
      exact ⟨fun hupstream => ⟨fun redirect hmem heq => hsource (List.mem_map.2 ⟨redirect, hmem, heq⟩), hupstream⟩, fun h => h.not_upstream⟩

theorem pending_disjoint : ((normalizeModelNames upstreamModels).filter (Missing matchString localModels ignoredModels modelMapping)).Disjoint
    ((normalizeModelNames localModels).filter (Stale upstreamModels modelMapping)) := by
  intro model hadd hremove
  rw [List.mem_filter, decide_eq_true_iff] at hremove
  exact hremove.2.not_upstream (List.mem_of_mem_filter hadd)

/-- What is selected of the pending changes is no longer pending, and the rest stays so. -/
theorem collect_applySelectedModelChanges
    (hadd : ∀ m ∈ selectedAdd, m ∈ (collectPendingUpstreamModelChangesFromModels matchString localModels upstreamModels ignoredModels
      modelMapping).1)
    (hremove : ∀ m ∈ selectedRemove, m ∈ (collectPendingUpstreamModelChangesFromModels matchString localModels upstreamModels
      ignoredModels modelMapping).2) :
    collectPendingUpstreamModelChangesFromModels matchString (applySelectedModelChanges localModels selectedAdd selectedRemove)
        upstreamModels ignoredModels modelMapping =
      ((collectPendingUpstreamModelChangesFromModels matchString localModels upstreamModels ignoredModels modelMapping).1.filter
          (· ∉ selectedAdd),
        (collectPendingUpstreamModelChangesFromModels matchString localModels upstreamModels ignoredModels modelMapping).2.filter
          (· ∉ selectedRemove)) := by
  simp only [collect_eq, List.mem_filter, decide_eq_true_iff] at hadd hremove ⊢
  have hlocal := normal_normalizeModelNames localModels
  have hupstream := normal_normalizeModelNames upstreamModels
  have hmemAdd {m : String} : m ∈ normalizeModelNames selectedAdd ↔ m ∈ selectedAdd :=
    mem_normalizeModelNames_of_trimmed fun m hm => ⟨hupstream.trimmed m (hadd m hm).1, hupstream.ne_empty m (hadd m hm).1⟩
  have hmemRemove {m : String} : m ∈ normalizeModelNames selectedRemove ↔ m ∈ selectedRemove :=
    mem_normalizeModelNames_of_trimmed fun m hm => ⟨hlocal.trimmed m (hremove m hm).1, hlocal.ne_empty m (hremove m hm).1⟩
  have hdisjoint : (normalizeModelNames selectedAdd).Disjoint (normalizeModelNames selectedRemove) := fun m hm hm' =>
    (hremove m (hmemRemove.1 hm')).2.not_upstream (hadd m (hmemAdd.1 hm)).1
  have hnew : (normalizeModelNames selectedAdd).filter (· ∉ normalizeModelNames localModels) = normalizeModelNames selectedAdd := by
    rw [List.filter_eq_self]
    exact fun m hm => decide_eq_true (hadd m (hmemAdd.1 hm)).2.not_local
  have hnext : applySelectedModelChanges localModels selectedAdd selectedRemove =
      (normalizeModelNames localModels ++ normalizeModelNames selectedAdd).filter (· ∉ normalizeModelNames selectedRemove) := by
    rw [applySelectedModelChanges_normalize, hlocal.apply (normal_normalizeModelNames _) (normal_normalizeModelNames _) hdisjoint, hnew]
  have hnormal : Normal (applySelectedModelChanges localModels selectedAdd selectedRemove) := by
    rw [hnext]
    exact (hlocal.append (normal_normalizeModelNames _) fun m hm hm' => (hadd m (hmemAdd.1 hm')).2.not_local hm).filter _
  have hmemNext {m : String} : m ∈ applySelectedModelChanges localModels selectedAdd selectedRemove ↔
      (m ∈ normalizeModelNames localModels ∨ m ∈ selectedAdd) ∧ m ∉ selectedRemove := by
    rw [hnext, List.mem_filter, decide_eq_true_iff, List.mem_append, hmemAdd, hmemRemove]
  refine Prod.ext ?_ ?_
  · show (normalizeModelNames upstreamModels).filter _ = ((normalizeModelNames upstreamModels).filter _).filter _
    rw [List.filter_filter]
    refine List.filter_congr fun m hm => ?_
    have hkept : m ∉ selectedRemove := fun hm' => (hremove m hm').2.not_upstream hm
    rw [Bool.eq_iff_iff, Bool.and_eq_true, decide_eq_true_iff, decide_eq_true_iff, decide_eq_true_iff]
    constructor
    · rintro ⟨hnot, htarget, hignored⟩
      rw [hnormal.normalize, hmemNext] at hnot
      exact ⟨fun hm' => hnot ⟨.inr hm', hkept⟩, fun hm' => hnot ⟨.inl hm', hkept⟩, htarget, hignored⟩
    · rintro ⟨hnot, hmissing⟩
      refine ⟨fun hm' => ?_, hmissing.not_target, hmissing.not_ignored⟩
      rw [hnormal.normalize, hmemNext] at hm'
      exact hm'.1.elim hmissing.not_local hnot
  · show (normalizeModelNames (applySelectedModelChanges localModels selectedAdd selectedRemove)).filter _ =
      ((normalizeModelNames localModels).filter _).filter _
    have hnone : (normalizeModelNames selectedAdd).filter (Stale upstreamModels modelMapping) = [] := by
      rw [List.filter_eq_nil_iff]
      intro m hm
      rw [decide_eq_true_iff]
      exact fun hstale => hstale.not_upstream (hadd m (hmemAdd.1 hm)).1
    rw [hnormal.normalize, hnext, List.filter_comm, List.filter_append, hnone, List.append_nil]
    exact List.filter_congr fun m _ => by rw [decide_eq_decide, hmemRemove]

theorem mem_applySelectedModelChanges (h : model ∈ applySelectedModelChanges localModels selectedAdd selectedRemove) :
    model ≠ "" ∧ ∃ m ∈ localModels ++ selectedAdd, trimSpace m = model := by
  have hmerge : ∀ (l merged : List String) (m : String),
      m ∈ l.foldl (fun merged model => if model ∈ merged then merged else merged ++ [model]) merged → m ∈ merged ∨ m ∈ l := by
    intro l
    induction l with
    | nil => exact fun merged m hm => .inl hm
    | cons a l ih =>
      intro merged m hm
      rcases ih _ m hm with hm | hm
      · dsimp only at hm
        split at hm
        · exact .inl hm
        · rcases List.mem_append.1 hm with hm | hm
          · exact .inl hm
          · exact .inr (List.mem_singleton.1 hm ▸ List.mem_cons_self)
      · exact .inr (.tail _ hm)
  obtain ⟨hne, m, hm, htrim⟩ := mem_normalizeModelNames.1 (List.mem_of_mem_filter h)
  refine ⟨hne, ?_⟩
  rcases hmerge _ _ m hm with hm | hm
  · obtain ⟨-, m', hm', rfl⟩ := mem_normalizeModelNames.1 hm
    exact ⟨m', List.mem_append_left _ hm', (GoString.trimSpace_trimSpace m').symm.trans htrim⟩
  · rw [(normal_normalizeModelNames selectedAdd).normalize] at hm
    obtain ⟨-, m', hm', rfl⟩ := mem_normalizeModelNames.1 hm
    exact ⟨m', List.mem_append_right _ hm', (GoString.trimSpace_trimSpace m').symm.trans htrim⟩

/-- The pending changes are sets that are apart, add nothing that is ignored or redirected to and remove nothing that is redirected
from; when they have all been made, none is pending, and when some have, the others are, also where the channel's models have been
stored as a text in between. -/
theorem pending_converges (matchString : String → String → Option Bool) (localModels upstreamModels ignoredModels : List String)
    (modelMapping : List (String × String)) (hlocal : ∀ m ∈ localModels, ',' ∉ m.toList) (hupstream : ∀ m ∈ upstreamModels, ',' ∉ m.toList) :
    let collect := fun models =>
      collectPendingUpstreamModelChangesFromModels matchString models upstreamModels ignoredModels modelMapping
    let pending := collect localModels
    (pending.1.Nodup ∧ pending.2.Nodup ∧ pending.1.Disjoint pending.2) ∧
      (∀ m ∈ pending.1, (∀ ignoredModel ∈ ignoredModels, ignores matchString (trimSpace ignoredModel) m = false) ∧
        ∀ redirect ∈ modelMapping, redirect.2 ≠ m) ∧
      (∀ m ∈ pending.2, ∀ redirect ∈ modelMapping, redirect.1 ≠ m) ∧
      collect (applySelectedModelChanges localModels pending.1 pending.2) = ([], []) ∧
      ∀ selectedAdd selectedRemove, (∀ m ∈ selectedAdd, m ∈ pending.1) → (∀ m ∈ selectedRemove, m ∈ pending.2) →
        let next := applySelectedModelChanges localModels selectedAdd selectedRemove
        collect next = (pending.1.filter (· ∉ selectedAdd), pending.2.filter (· ∉ selectedRemove)) ∧
          getModels (joinModels next) = next := by
  intro collect pending
  have hpending : pending = _ := collect_eq
  have happly : ∀ selectedAdd selectedRemove, (∀ m ∈ selectedAdd, m ∈ pending.1) → (∀ m ∈ selectedRemove, m ∈ pending.2) →
      collect (applySelectedModelChanges localModels selectedAdd selectedRemove) =
        (pending.1.filter (· ∉ selectedAdd), pending.2.filter (· ∉ selectedRemove)) := fun selectedAdd selectedRemove =>
    collect_applySelectedModelChanges
  refine ⟨⟨?_, ?_, ?_⟩, fun m hm => ?_, fun m hm => ?_, ?_, fun selectedAdd selectedRemove hadd hremove =>
    ⟨happly _ _ hadd hremove, ?_⟩⟩
  · rw [hpending]
    exact (normal_normalizeModelNames upstreamModels).nodup.filter _
  · rw [hpending]
    exact (normal_normalizeModelNames localModels).nodup.filter _
  · rw [hpending]
    exact pending_disjoint
  · rw [hpending, List.mem_filter, decide_eq_true_iff] at hm
    refine ⟨fun ignoredModel hmem => ?_, hm.2.not_target⟩
    rcases eq_or_ne (trimSpace ignoredModel) "" with hempty | hne
    · rw [hempty]
      exact beq_eq_false_iff_ne.2 ((normal_normalizeModelNames upstreamModels).ne_empty m hm.1).symm
    · exact hm.2.not_ignored _ (mem_normalizeModelNames.2 ⟨hne, ignoredModel, hmem, rfl⟩)
  · rw [hpending, List.mem_filter, decide_eq_true_iff] at hm
    exact hm.2.not_source
  · rw [happly _ _ (fun m hm => hm) fun m hm => hm]
    refine Prod.ext (List.filter_eq_nil_iff.2 fun m hm => ?_) (List.filter_eq_nil_iff.2 fun m hm => ?_)
    · simpa using hm
    · simpa using hm
  · refine getModels_joinModels (fun m hm => ?_) fun m hm => (mem_applySelectedModelChanges hm).1
    have hplain : ∀ m ∈ localModels ++ selectedAdd, ',' ∉ m.toList := by
      intro m hm
      rcases List.mem_append.1 hm with hm | hm
      · exact hlocal m hm
      · have hadd' := hadd m hm
        rw [hpending] at hadd'
        obtain ⟨-, m', hm', rfl⟩ := mem_normalizeModelNames.1 (List.mem_of_mem_filter hadd')
        exact fun hcomma => hupstream m' hm' (GoString.trimSpace_sublist.subset hcomma)
    obtain ⟨-, m', hm', rfl⟩ := mem_applySelectedModelChanges hm
    exact fun hcomma => hplain m' hm' (GoString.trimSpace_sublist.subset hcomma)

/-- A channel that has a stale model and lacks another, behind one that is ignored. -/
theorem pending_converges_twoModels :
    (∀ m ∈ ["gpt-4o ", "gpt-3.5"], ',' ∉ m.toList) ∧
      let collect := fun models => collectPendingUpstreamModelChangesFromModels (fun _ _ => none) models ["gpt-4o", "o3", "o1"]
        [" o1"] [("gpt-4", "gpt-4o")]
      collect ["gpt-4o ", "gpt-3.5"] = (["o3"], ["gpt-3.5"]) ∧
        collect (applySelectedModelChanges ["gpt-4o ", "gpt-3.5"] ["o3"] ["gpt-3.5"]) = ([], []) := by
  refine ⟨by decide, by decide, ?_⟩
  exact (pending_converges (fun _ _ => none) ["gpt-4o ", "gpt-3.5"] ["gpt-4o", "o3", "o1"] [" o1"] [("gpt-4", "gpt-4o")]
    (by decide) (by decide)).2.2.2.1

end

end NewApi.UpstreamModels

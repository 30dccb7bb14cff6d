import Mathlib.Data.List.Basic
import NewApi.Lib.GoString
import NewApi.Lib.Redirect
import NewApi.Lib.Run

/-!
# The model of an attempt

A channel may map models to others. The model of an attempt is the end of the chain of mappings from the model of the
request, and an attempt fails where the chain runs into a cycle. A request to `/v1/responses/compact` is known by its
model with a suffix, and its chain starts without it.

For such a request the name of the request is written over, so the attempts after one that maps its model start from
another model (`mapped_iff`).
-/

namespace NewApi.ModelMapped

open Redirect Relation

/-! ## The model -/

/-- `CompactModelSuffix`. -/
def compactModelSuffix : String := "-openai-compact"

/-- `WithCompactModelSuffix`. -/
def withCompactModelSuffix (modelName : String) : String :=
  if GoString.hasSuffix modelName compactModelSuffix then modelName else modelName ++ compactModelSuffix

/-- A decoded `model_mapping`. -/
abbrev ModelMap := List (String × String)

/-- What `RelayInfo` knows of its models; `requestModelName` is the model of the request, if there is one. -/
structure RelayInfo where
  responsesCompact : Bool
  originModelName : String
  upstreamModelName : String := ""
  isModelMapped : Bool := false
  requestModelName : Option String := none
deriving DecidableEq

/-- How the walk along the mappings ends. -/
inductive Walk where
  | unmapped
  | cycle (isModelMapped : Bool)
  | ended (currentModel : String) (isModelMapped : Bool)
deriving DecidableEq

/-- The loop of `ModelMappedHelper`, for so many rounds. -/
def walk (modelMap : ModelMap) (originModelName : String) :
    Nat → List String → String → Bool → Option Walk
  | 0, _, _, _ => none
  | rounds + 1, visitedModels, currentModel, isModelMapped =>
    match modelMap.lookup currentModel with
    | none => some (.ended currentModel isModelMapped)
    | some mappedModel =>
      if mappedModel = "" then some (.ended currentModel isModelMapped)
      else if mappedModel ∈ visitedModels then
        if mappedModel = currentModel then
          if currentModel = originModelName then some .unmapped else some (.ended currentModel true)
        else some (.cycle isModelMapped)
      else walk modelMap originModelName rounds (mappedModel :: visitedModels) mappedModel true

namespace RelayInfo

/-- `mappingModelName` of `ModelMappedHelper`. -/
def mappingModelName (info : RelayInfo) : String :=
  if info.responsesCompact then GoString.trimSuffix info.originModelName compactModelSuffix else info.originModelName

/-- The end of `ModelMappedHelper`. -/
def finish (mappingModelName : String) (info : RelayInfo) : RelayInfo :=
  let info :=
    if info.responsesCompact then
      let finalUpstreamModelName :=
        if info.isModelMapped ∧ info.upstreamModelName ≠ "" then info.upstreamModelName else mappingModelName
      { info with
        upstreamModelName := finalUpstreamModelName
        originModelName := withCompactModelSuffix finalUpstreamModelName }
    else info
  { info with requestModelName := info.requestModelName.map fun _ => info.upstreamModelName }

/-- What the walk along the mappings leaves. A model is visited once, so there are no more rounds than mappings, and
one. -/
def mapModel (modelMap : ModelMap) (info : RelayInfo) : Option String × RelayInfo :=
  let mappingModelName := info.mappingModelName
  match walk modelMap info.originModelName (modelMap.length + 1) [mappingModelName] mappingModelName
    info.isModelMapped with
  | none => (some "", info)
  | some .unmapped => (none, { info with isModelMapped := false })
  | some (.cycle isModelMapped) => (some "model_mapping_contains_cycle", { info with isModelMapped })
  | some (.ended currentModel isModelMapped) =>
    (none, finish mappingModelName { info with
      isModelMapped
      upstreamModelName := if isModelMapped then currentModel else info.upstreamModelName })

section
variable (unmarshal : String → Option ModelMap)

/-- `ModelMappedHelper`: its error, and what it leaves. -/
def modelMappedHelper (modelMapping : String) (info : RelayInfo) : Option String × RelayInfo :=
  if modelMapping ≠ "" ∧ modelMapping ≠ "{}" then
    match unmarshal modelMapping with
    | none => (some "unmarshal_model_mapping_failed", info)
    | some modelMap => info.mapModel modelMap
  else (none, info.finish info.mappingModelName)

/-- `InitChannelMeta`, for the model that the context is set up with. -/
def initChannelMeta (originalModel : String) (info : RelayInfo) : RelayInfo :=
  { info with
    upstreamModelName := originalModel
    isModelMapped := false
    requestModelName := info.requestModelName.map fun _ => info.originModelName }

/-- An attempt on a channel with a mapping: the context is set up with the name of the request. -/
def attempt (info : RelayInfo) (modelMapping : String) : Option String × RelayInfo :=
  (info.initChannelMeta info.originModelName).modelMappedHelper unmarshal modelMapping

/-- What an attempt leaves. -/
def step (info : RelayInfo) (modelMapping : String) : RelayInfo := (info.attempt unmarshal modelMapping).2

/-- What an attempt gives, unless it fails: the model of the upstream, and the name of the request after it. -/
def outcome (info : RelayInfo) (modelMapping : String) : Except String (String × String) :=
  match info.attempt unmarshal modelMapping with
  | (some e, _) => .error e
  | (none, info) => .ok (info.upstreamModelName, info.originModelName)

end

end RelayInfo

/-- The information of a request for a model of the client. -/
def start (responsesCompact : Bool) (clientModel : String) : RelayInfo :=
  { responsesCompact
    originModelName :=
      if responsesCompact ∧ clientModel ≠ "" then withCompactModelSuffix clientModel else clientModel
    requestModelName := some clientModel }

/-! ## Mappings as redirections -/

/-- Where a decoded mapping redirects a model. -/
def next (modelMap : ModelMap) (model : String) : Option String := (modelMap.lookup model).filter (· ≠ "")

/-- Where a mapping redirects models, if it can be decoded. -/
def redirects (unmarshal : String → Option ModelMap) (modelMapping : String) : Option (String → Option String) :=
  if modelMapping ≠ "" ∧ modelMapping ≠ "{}" then (unmarshal modelMapping).map next else some fun _ => none

section
variable {modelMap : ModelMap} {model mappedModel origin current : String} {visited : List String} {rounds : Nat}
  {mapped : Bool}

theorem next_eq_some (h : modelMap.lookup model = some mappedModel) (hne : mappedModel ≠ "") :
    next modelMap model = some mappedModel := by
  unfold next
  rw [h]
  exact Option.filter_eq_some_iff.2 ⟨rfl, decide_eq_true hne⟩

theorem next_eq_none (h : ∀ mappedModel, modelMap.lookup model = some mappedModel → mappedModel = "") :
    next modelMap model = none := by
  unfold next
  rw [Option.filter_eq_none_iff]
  exact fun mappedModel hmapped => by simp [h mappedModel hmapped]

theorem endsAt_self {α : Type} {next : α → Option α} {x : α} (h : ∀ y, next x = some y → x = y) : EndsAt next x x :=
  ⟨.refl, fun y hleads => hleads.2 (h y hleads.1)⟩

/-- How a walk may end. -/
def Walk.Correct (next : String → Option String) (origin current : String) (mapped : Bool) : Walk → Prop
  | .unmapped => EndsAt next current origin ∧ origin ≠ ""
  | .cycle _ => Cycles next current
  | .ended end_ mapped' => EndsAt next current end_ ∧ (mapped' = true → end_ ≠ "") ∧
      (mapped' = false → end_ = current ∧ mapped = false)

theorem countP_unseen_lt {α : Type} [DecidableEq α] {l seen : List α} {a : α} (ha : a ∈ l) (hnew : a ∉ seen) :
    l.countP (· ∉ a :: seen) < l.countP (· ∉ seen) := by
  have hle (l : List α) : l.countP (· ∉ a :: seen) ≤ l.countP (· ∉ seen) :=
    List.countP_mono_left fun b _ hb =>
      decide_eq_true fun hseen => of_decide_eq_true hb (List.mem_cons_of_mem a hseen)
  obtain ⟨before, after, rfl⟩ := List.append_of_mem ha
  have hunseen : (a :: after).countP (· ∉ seen) = after.countP (· ∉ seen) + 1 :=
    List.countP_cons_of_pos (decide_eq_true hnew)
  have hseen : (a :: after).countP (· ∉ a :: seen) = after.countP (· ∉ a :: seen) :=
    List.countP_cons_of_neg fun h => of_decide_eq_true h List.mem_cons_self
  rw [List.countP_append, List.countP_append, hunseen, hseen]
  have hbefore := hle before
  have hafter := hle after
  omega

theorem mem_of_lookup (h : modelMap.lookup model = some mappedModel) : mappedModel ∈ modelMap.map Prod.snd := by
  rw [List.lookup_eq_some_iff] at h
  obtain ⟨before, after, rfl, -⟩ := h
  simp

/-- The walk ends, at the end of the chain or in a cycle. Each round visits a new model of the mapping. -/
theorem walk_spec (hrounds : (modelMap.map Prod.snd).countP (· ∉ visited) < rounds) (hcurrent : current ∈ visited)
    (hvisited : ∀ v ∈ visited, ReflTransGen (Leads (next modelMap)) v current)
    (hmapped : mapped = true → current ≠ "") :
    ∃ w, walk modelMap origin rounds visited current mapped = some w ∧
      w.Correct (next modelMap) origin current mapped := by
  induction rounds generalizing visited current mapped with
  | zero => exact absurd hrounds (Nat.not_lt_zero _)
  | succ rounds ih =>
    unfold walk
    cases hlookup : modelMap.lookup current with
    | none =>
      have hnext : next modelMap current = none := next_eq_none fun m hm => (by rw [hlookup] at hm; cases hm)
      refine ⟨_, rfl, endsAt_self fun y hy => ?_, hmapped, fun hfalse => ⟨rfl, hfalse⟩⟩
      rw [hnext] at hy
      cases hy
    | some mappedModel =>
      dsimp only
      split
      next hempty =>
        have hnext : next modelMap current = none :=
          next_eq_none fun m hm => (Option.some.inj (hlookup.symm.trans hm)).symm.trans hempty
        refine ⟨_, rfl, endsAt_self fun y hy => ?_, hmapped, fun hfalse => ⟨rfl, hfalse⟩⟩
        rw [hnext] at hy
        cases hy
      next hne =>
      have hnext := next_eq_some hlookup hne
      split
      next hseen =>
        split
        next hself =>
          have hend : EndsAt (next modelMap) current current :=
            endsAt_self fun y hy => (Option.some.inj (hy.symm.trans (hself ▸ hnext))).symm
          split
          next horigin => exact ⟨_, rfl, horigin ▸ hend, horigin ▸ hself ▸ hne⟩
          next horigin => exact ⟨_, rfl, hend, fun _ => hself ▸ hne, fun hfalse => (by cases hfalse)⟩
        next hother =>
          exact ⟨_, rfl, .of_back ⟨hnext, Ne.symm hother⟩ (hvisited _ hseen)⟩
      next hnew =>
        have hleads : Leads (next modelMap) current mappedModel := ⟨hnext, fun heq => hnew (heq ▸ hcurrent)⟩
        have hfewer := countP_unseen_lt (mem_of_lookup hlookup) hnew
        have hreach : ∀ v ∈ mappedModel :: visited, ReflTransGen (Leads (next modelMap)) v mappedModel := by
          rintro v (_ | ⟨_, hv⟩)
          · exact .refl
          · exact (hvisited v hv).tail hleads
        obtain ⟨w, hw, hcorrect⟩ : ∃ w, walk modelMap origin rounds (mappedModel :: visited) mappedModel true = some w ∧
            w.Correct (next modelMap) origin mappedModel true :=
          ih (by omega) List.mem_cons_self hreach fun _ => hne
        refine ⟨w, hw, ?_⟩
        cases w with
        | unmapped => exact ⟨hcorrect.1.head hleads, hcorrect.2⟩
        | cycle mapped' => exact hcorrect.head hleads
        | ended end_ mapped' =>
          exact ⟨hcorrect.1.head hleads, hcorrect.2.1, fun hfalse => (by cases (hcorrect.2.2 hfalse).2)⟩

/-! ## One attempt -/

variable {unmarshal : String → Option ModelMap} {info : RelayInfo} {modelMapping : String}

/-- A compact request is known by a model with the suffix, or by none. -/
def RelayInfo.Named (info : RelayInfo) : Prop :=
  info.responsesCompact = true → GoString.hasSuffix info.originModelName compactModelSuffix = true ∨
    info.originModelName = ""

theorem hasSuffix_withCompactModelSuffix (model : String) :
    GoString.hasSuffix (withCompactModelSuffix model) compactModelSuffix = true := by
  unfold withCompactModelSuffix
  split
  next h => exact h
  next h => exact GoString.hasSuffix_iff.2 ⟨model, rfl⟩

/-- What an attempt leaves in the request's information, where it gives a model. -/
structure Gives (info : RelayInfo) (model : String) (info' : RelayInfo) : Prop where
  upstreamModelName : info'.upstreamModelName = model
  originModelName : info'.originModelName =
    if info.responsesCompact then withCompactModelSuffix model else info.originModelName
  responsesCompact : info'.responsesCompact = info.responsesCompact

theorem gives_finish (info : RelayInfo) (mapped : Bool) (model : String) (hinit : info.upstreamModelName = info.originModelName)
    (hmapped : mapped = true → model ≠ "") (hunmapped : mapped = false → model = info.mappingModelName) :
    Gives info model (RelayInfo.finish info.mappingModelName { info with
      isModelMapped := mapped
      upstreamModelName := if mapped then model else info.upstreamModelName }) := by
  unfold RelayInfo.finish
  dsimp only
  cases mapped with
  | false =>
    have hmodel := hunmapped rfl
    split
    next hcompact => exact ⟨hmodel.symm, (if_pos hcompact).trans (hmodel ▸ rfl) |>.symm, rfl⟩
    next hcompact =>
      have horigin : model = info.originModelName := hmodel.trans (if_neg hcompact)
      exact ⟨hinit.trans horigin.symm, (if_neg hcompact).symm, rfl⟩
  | true =>
    split
    next hcompact =>
      have hfinal : (if true = true ∧ model ≠ "" then model else info.mappingModelName) = model :=
        if_pos ⟨rfl, hmapped rfl⟩
      exact ⟨hfinal, (congrArg withCompactModelSuffix hfinal).trans (if_pos hcompact).symm, rfl⟩
    next hcompact => exact ⟨rfl, (if_neg hcompact).symm, rfl⟩

/-- What a failed attempt leaves. -/
structure Keeps (info info' : RelayInfo) : Prop where
  originModelName : info'.originModelName = info.originModelName
  responsesCompact : info'.responsesCompact = info.responsesCompact

theorem mapModel_spec (modelMap : ModelMap) (info : RelayInfo) (hnamed : info.Named) (hmapped : info.isModelMapped = false)
    (hinit : info.upstreamModelName = info.originModelName) :
    (∃ y, EndsAt (next modelMap) info.mappingModelName y ∧ (info.mapModel modelMap).1 = none ∧
        Gives info y (info.mapModel modelMap).2) ∨
      Cycles (next modelMap) info.mappingModelName ∧
        (info.mapModel modelMap).1 = some "model_mapping_contains_cycle" ∧ Keeps info (info.mapModel modelMap).2 := by
  have hrounds : (modelMap.map Prod.snd).countP (· ∉ [info.mappingModelName]) < modelMap.length + 1 := by
    have hle := List.countP_le_length (p := fun x => x ∉ [info.mappingModelName]) (l := modelMap.map Prod.snd)
    rw [List.length_map] at hle
    exact Nat.lt_succ_of_le hle
  obtain ⟨w, hw, hcorrect⟩ : ∃ w, walk modelMap info.originModelName (modelMap.length + 1) [info.mappingModelName]
      info.mappingModelName info.isModelMapped = some w ∧
      w.Correct (next modelMap) info.originModelName info.mappingModelName info.isModelMapped :=
    walk_spec hrounds List.mem_cons_self (fun v hv => List.mem_singleton.1 hv ▸ .refl)
      fun htrue => (by rw [hmapped] at htrue; cases htrue)
  unfold RelayInfo.mapModel
  dsimp only
  rw [hw]
  cases w with
  | unmapped =>
    obtain ⟨hend, hne⟩ := hcorrect
    refine .inl ⟨info.originModelName, hend, rfl, hinit, ?_, rfl⟩
    by_cases hcompact : info.responsesCompact = true
    · rw [if_pos hcompact]
      exact (if_pos ((hnamed hcompact).resolve_right hne)).symm
    · rw [if_neg hcompact]
  | cycle mapped => exact .inr ⟨hcorrect, rfl, rfl, rfl⟩
  | ended model mapped =>
    obtain ⟨hend, hne, hstay⟩ := hcorrect
    exact .inl ⟨model, hend, rfl, gives_finish info mapped model hinit hne fun hfalse => (hstay hfalse).1⟩

theorem Gives.of_init {m model : String} {info' : RelayInfo} (h : Gives (info.initChannelMeta m) model info') :
    Gives info model info' := ⟨h.upstreamModelName, h.originModelName, h.responsesCompact⟩

theorem Keeps.of_init {m : String} {info' : RelayInfo} (h : Keeps (info.initChannelMeta m) info') :
    Keeps info info' := ⟨h.originModelName, h.responsesCompact⟩

/-- An attempt gives the end of the chain from the request's model, or fails where the chain runs into a cycle. -/
theorem attempt_spec {next : String → Option String} (hnamed : info.Named)
    (hnext : redirects unmarshal modelMapping = some next) :
    (∃ y, EndsAt next info.mappingModelName y ∧ (info.attempt unmarshal modelMapping).1 = none ∧
        Gives info y (info.attempt unmarshal modelMapping).2) ∨
      Cycles next info.mappingModelName ∧
        (info.attempt unmarshal modelMapping).1 = some "model_mapping_contains_cycle" ∧
        Keeps info (info.attempt unmarshal modelMapping).2 := by
  unfold redirects at hnext
  unfold RelayInfo.attempt RelayInfo.modelMappedHelper
  split at hnext
  next hmapping =>
    obtain ⟨modelMap, hdecoded, rfl⟩ := Option.map_eq_some_iff.1 hnext
    rw [if_pos hmapping, hdecoded]
    rcases mapModel_spec modelMap (info.initChannelMeta info.originModelName) hnamed rfl rfl with
      ⟨y, hend, hok, hgives⟩ | ⟨hcycles, herror, hkeeps⟩
    · exact .inl ⟨y, hend, hok, hgives.of_init⟩
    · exact .inr ⟨hcycles, herror, hkeeps.of_init⟩
  next hmapping =>
    cases hnext
    rw [if_neg hmapping]
    refine .inl ⟨info.mappingModelName, endsAt_self fun y hy => (by cases hy), rfl, ?_⟩
    exact (gives_finish (info.initChannelMeta info.originModelName) false info.mappingModelName rfl
      (fun htrue => (by cases htrue)) fun _ => rfl).of_init

/-! ## Retries -/

/-- The model that the chains of a client's model start from. -/
def base (responsesCompact : Bool) (clientModel : String) : String :=
  if responsesCompact then GoString.trimSuffix clientModel compactModelSuffix else clientModel

/-- The next attempt depends on the client's model and on its own mapping only. -/
def Faithful (unmarshal : String → Option ModelMap) (first info : RelayInfo) : Prop :=
  ∀ modelMapping, info.outcome unmarshal modelMapping = first.outcome unmarshal modelMapping

/-- A mapping leaves the client's model, or moves it to one of the same name but for the suffix. -/
def Stays (unmarshal : String → Option ModelMap) (responsesCompact : Bool) (clientModel modelMapping : String) : Prop :=
  responsesCompact = true → ∀ next ∈ redirects unmarshal modelMapping, ∀ model,
    EndsAt next (base true clientModel) model → base true (withCompactModelSuffix model) = base true clientModel

theorem mappingModelName_start {responsesCompact : Bool} {clientModel : String} :
    (start responsesCompact clientModel).mappingModelName = base responsesCompact clientModel := by
  unfold RelayInfo.mappingModelName base
  split
  next hcompact =>
    have horigin : (start responsesCompact clientModel).originModelName =
        if clientModel ≠ "" then withCompactModelSuffix clientModel else clientModel :=
      if_congr (and_iff_right hcompact) rfl rfl
    rw [horigin, if_pos (show responsesCompact = true from hcompact)]
    split
    · unfold withCompactModelSuffix
      split
      · rfl
      next hsuffix =>
        rw [GoString.trimSuffix_append]
        unfold GoString.trimSuffix
        rw [if_neg hsuffix]
    · rfl
  next hcompact =>
    rw [if_neg (show ¬ responsesCompact = true from hcompact)]
    exact if_neg fun hand => hcompact hand.1

theorem named_start (responsesCompact : Bool) (clientModel : String) : (start responsesCompact clientModel).Named := by
  intro hcompact
  have horigin : (start responsesCompact clientModel).originModelName =
      if clientModel ≠ "" then withCompactModelSuffix clientModel else clientModel :=
    if_congr (and_iff_right hcompact) rfl rfl
  rw [horigin]
  split
  · exact .inl (hasSuffix_withCompactModelSuffix clientModel)
  next hempty => exact .inr (not_not.1 hempty)

theorem outcome_spec {next : String → Option String} (hnamed : info.Named)
    (hnext : redirects unmarshal modelMapping = some next) :
    (∃ y, EndsAt next info.mappingModelName y ∧ info.outcome unmarshal modelMapping =
        .ok (y, if info.responsesCompact then withCompactModelSuffix y else info.originModelName)) ∨
      Cycles next info.mappingModelName ∧
        info.outcome unmarshal modelMapping = .error "model_mapping_contains_cycle" := by
  unfold RelayInfo.outcome
  rcases attempt_spec hnamed hnext with ⟨y, hend, hok, hgives⟩ | ⟨hcycles, herror, -⟩
  · refine .inl ⟨y, hend, ?_⟩
    rw [← hgives.originModelName, ← hgives.upstreamModelName]
    generalize info.attempt unmarshal modelMapping = r at hok
    obtain ⟨e, info'⟩ := r
    cases hok
    rfl
  · refine .inr ⟨hcycles, ?_⟩
    generalize info.attempt unmarshal modelMapping = r at herror
    obtain ⟨e, info'⟩ := r
    cases herror
    rfl

theorem attempt_of_undecoded (hnext : redirects unmarshal modelMapping = none) :
    info.attempt unmarshal modelMapping =
      (some "unmarshal_model_mapping_failed", info.initChannelMeta info.originModelName) := by
  unfold redirects at hnext
  unfold RelayInfo.attempt RelayInfo.modelMappedHelper
  split at hnext
  next hmapping => rw [if_pos hmapping, Option.map_eq_none_iff.1 hnext]
  next => cases hnext

theorem outcome_congr {info' : RelayInfo} (hnamed : info.Named) (hnamed' : info'.Named)
    (hcompact : info.responsesCompact = info'.responsesCompact)
    (hbase : info.mappingModelName = info'.mappingModelName) :
    info.outcome unmarshal modelMapping = info'.outcome unmarshal modelMapping := by
  cases hnext : redirects unmarshal modelMapping with
  | none =>
    unfold RelayInfo.outcome
    rw [attempt_of_undecoded hnext, attempt_of_undecoded hnext]
  | some next =>
    rcases outcome_spec hnamed hnext with ⟨y, hend, hy⟩ | ⟨hcycles, herror⟩
    · rcases outcome_spec hnamed' hnext with ⟨y', hend', hy'⟩ | ⟨hcycles', -⟩
      · rw [hbase] at hend
        rw [hy, hy', hend.unique hend', hcompact]
        split
        · rfl
        next hnot =>
          have horigin : info.originModelName = info'.originModelName := by
            have horigin := hbase
            unfold RelayInfo.mappingModelName at horigin
            rwa [hcompact, if_neg hnot, if_neg hnot] at horigin
          rw [horigin]
      · exact absurd hcycles' (hbase ▸ hend.not_cycles)
    · rcases outcome_spec hnamed' hnext with ⟨y', hend', -⟩ | ⟨-, herror'⟩
      · exact absurd hcycles (hbase.symm ▸ hend'.not_cycles)
      · rw [herror, herror']

theorem outcome_unmapped (hnamed : info.Named) : info.outcome unmarshal "" =
    .ok (info.mappingModelName,
      if info.responsesCompact then withCompactModelSuffix info.mappingModelName else info.originModelName) := by
  have hnext : redirects unmarshal "" = some fun _ => none := if_neg fun hand => hand.1 rfl
  have hself : EndsAt (fun _ => none) info.mappingModelName info.mappingModelName :=
    endsAt_self fun y hy => (by cases hy)
  rcases outcome_spec hnamed hnext with ⟨y, hend, hy⟩ | ⟨hcycles, -⟩
  · rw [hy, hend.unique hself]
  · exact absurd hcycles hself.not_cycles

/-- A request whose mode is as at first, and whose name is proper. -/
structure Sound (first info : RelayInfo) : Prop where
  named : info.Named
  responsesCompact : info.responsesCompact = first.responsesCompact
  originModelName : first.responsesCompact = false → info.originModelName = first.originModelName

variable {first : RelayInfo}

theorem Sound.faithful_iff (hfirst : first.Named) (h : Sound first info) :
    Faithful unmarshal first info ↔ info.mappingModelName = first.mappingModelName := by
  constructor
  · intro hfaithful
    have hunmapped := hfaithful ""
    rw [outcome_unmapped h.named, outcome_unmapped hfirst] at hunmapped
    exact (Prod.mk.inj (Except.ok.inj hunmapped)).1
  · exact fun hbase modelMapping => outcome_congr h.named hfirst h.responsesCompact hbase

theorem Sound.keeps {info' : RelayInfo} (h : Sound first info) (hkeeps : Keeps info info') : Sound first info' := by
  refine ⟨fun hcompact => ?_, hkeeps.responsesCompact.trans h.responsesCompact,
    fun hnot => hkeeps.originModelName.trans (h.originModelName hnot)⟩
  rw [hkeeps.originModelName]
  exact h.named (hkeeps.responsesCompact.symm.trans hcompact)

theorem Sound.gives {info' : RelayInfo} {model : String} (h : Sound first info) (hgives : Gives info model info') :
    Sound first info' := by
  have horigin := hgives.originModelName
  refine ⟨fun hcompact => .inl ?_, hgives.responsesCompact.trans h.responsesCompact, fun hnot => ?_⟩
  · rw [horigin, if_pos (hgives.responsesCompact.symm.trans hcompact)]
    exact hasSuffix_withCompactModelSuffix model
  · rw [horigin, if_neg (by rw [h.responsesCompact, hnot]; exact Bool.false_ne_true)]
    exact h.originModelName hnot

theorem Keeps.mappingModelName {info' : RelayInfo} (h : Keeps info info') :
    info'.mappingModelName = info.mappingModelName := by
  unfold RelayInfo.mappingModelName
  rw [h.originModelName, h.responsesCompact]

theorem Gives.mappingModelName {info' : RelayInfo} {model : String} (h : Gives info model info') :
    info'.mappingModelName =
      if info.responsesCompact then base true (withCompactModelSuffix model) else info.mappingModelName := by
  unfold RelayInfo.mappingModelName base
  rw [h.originModelName, h.responsesCompact]
  split
  next hcompact => rw [if_pos rfl]
  next => rfl

variable {responsesCompact : Bool} {clientModel : String}

theorem Sound.step (h : Sound first info) : Sound first (info.step unmarshal modelMapping) := by
  unfold RelayInfo.step
  cases hnext : redirects unmarshal modelMapping with
  | none =>
    rw [attempt_of_undecoded hnext]
    exact h.keeps ⟨rfl, rfl⟩
  | some next =>
    rcases attempt_spec h.named hnext with ⟨y, -, -, hgives⟩ | ⟨-, -, hkeeps⟩
    · exact h.gives hgives
    · exact h.keeps hkeeps

/-- After an attempt the next one is as it should be just if the attempt's mapping leaves the client's model. -/
theorem Sound.step_faithful_iff (h : Sound (start responsesCompact clientModel) info)
    (hfaithful : Faithful unmarshal (start responsesCompact clientModel) info) :
    Faithful unmarshal (start responsesCompact clientModel) (info.step unmarshal modelMapping) ↔
      Stays unmarshal responsesCompact clientModel modelMapping := by
  have hbase := ((h.faithful_iff (named_start _ _)).1 hfaithful).trans mappingModelName_start
  have hstep : Sound (start responsesCompact clientModel) (info.attempt unmarshal modelMapping).2 := h.step
  refine (hstep.faithful_iff (named_start _ _)).trans ?_
  rw [mappingModelName_start]
  have hkept (hkeeps : Keeps info (info.attempt unmarshal modelMapping).2) :=
    hkeeps.mappingModelName.trans hbase
  cases hnext : redirects unmarshal modelMapping with
  | none =>
    have hkeeps : Keeps info (info.attempt unmarshal modelMapping).2 := by
      rw [attempt_of_undecoded hnext]
      exact ⟨rfl, rfl⟩
    refine iff_of_true (hkept hkeeps) fun _ next hsome => ?_
    rw [hnext] at hsome
    cases hsome
  | some next =>
    rcases attempt_spec h.named hnext with ⟨y, hend, -, hgives⟩ | ⟨hcycles, -, hkeeps⟩
    · rw [hbase] at hend
      rw [hgives.mappingModelName, h.responsesCompact]
      unfold Stays
      cases responsesCompact with
      | false => exact iff_of_true hbase fun hfalse => (by cases hfalse)
      | true =>
        constructor
        · rintro heq - next' hnext' model hmodel
          obtain rfl := Option.some.inj (hnext.symm.trans hnext')
          rwa [hmodel.unique hend]
        · exact fun hstays => hstays rfl next hnext y hend
    · refine iff_of_true (hkept hkeeps) fun hcompact next' hnext' model hmodel => ?_
      obtain rfl := Option.some.inj (hnext.symm.trans hnext')
      subst hcompact
      exact absurd (hbase ▸ hcycles) hmodel.not_cycles

/-- The first attempt gives the end of the chain from the client's model, and fails just where the chain runs into a
cycle. -/
theorem first_spec {next : String → Option String} (hnext : redirects unmarshal modelMapping = some next) :
    ((∃ e, (start responsesCompact clientModel).outcome unmarshal modelMapping = .error e) ↔
        Cycles next (base responsesCompact clientModel)) ∧
      ∀ y, EndsAt next (base responsesCompact clientModel) y →
        (start responsesCompact clientModel).outcome unmarshal modelMapping =
          .ok (y, if responsesCompact then withCompactModelSuffix y else clientModel) := by
  have hspec := outcome_spec (named_start responsesCompact clientModel) hnext
  rw [mappingModelName_start] at hspec
  rcases hspec with ⟨y, hend, hy⟩ | ⟨hcycles, herror⟩
  · refine ⟨iff_of_false (fun ⟨e, he⟩ => ?_) hend.not_cycles, fun y' hend' => ?_⟩
    · rw [hy] at he
      cases he
    · rw [hy, hend.unique hend']
      cases responsesCompact with
      | false => rfl
      | true => rfl
  · exact ⟨iff_of_true ⟨_, herror⟩ hcycles, fun y hend => absurd hcycles hend.not_cycles⟩

/-- Over any attempts: each one depends on the client's model and its own mapping only, just if for a compact request
every mapping leaves the client's model. And from the client's model an attempt fails just where the chain of its
mapping runs into a cycle, and else gives the end of the chain. -/
theorem mapped_iff (unmarshal : String → Option ModelMap) (responsesCompact : Bool) (clientModel : String)
    (modelMappings : List String) :
    (Run.Holds (RelayInfo.step unmarshal) (Faithful unmarshal (start responsesCompact clientModel))
        (start responsesCompact clientModel) modelMappings ↔
      Run.Meets (RelayInfo.step unmarshal) (fun _ => Stays unmarshal responsesCompact clientModel)
        (start responsesCompact clientModel) modelMappings) ∧
    ∀ modelMapping, ∀ next ∈ redirects unmarshal modelMapping,
      ((∃ e, (start responsesCompact clientModel).outcome unmarshal modelMapping = .error e) ↔
          Cycles next (base responsesCompact clientModel)) ∧
        ∀ y, EndsAt next (base responsesCompact clientModel) y →
          (start responsesCompact clientModel).outcome unmarshal modelMapping =
            .ok (y, if responsesCompact then withCompactModelSuffix y else clientModel) := by
  refine ⟨?_, fun modelMapping next hnext => first_spec hnext⟩
  have hstart : Sound (start responsesCompact clientModel) (start responsesCompact clientModel) :=
    ⟨named_start _ _, rfl, fun _ => rfl⟩
  exact Run.holds_iff_meets (fun s o => Sound.step) (fun s o => Sound.step_faithful_iff) hstart fun _ => rfl

end

/-! ### A compact request that is retried -/

/-- A mapping of one model, decoded. -/
def mapGpt5 : String → Option ModelMap := fun _ => some [("gpt-5", "gpt-5-codex")]

/-- After a channel that maps the model of a compact request, a channel without mappings is asked for the mapped model;
alone it is asked for the client's. -/
theorem compact_retry_mapped :
    let first := start true "gpt-5"
    let retried := first.step mapGpt5 "\x7b\"gpt-5\":\"gpt-5-codex\"\x7d"
    retried.originModelName = "gpt-5-codex-openai-compact" ∧
      retried.outcome mapGpt5 "" = .ok ("gpt-5-codex", "gpt-5-codex-openai-compact") ∧
      first.outcome mapGpt5 "" = .ok ("gpt-5", "gpt-5-openai-compact") := by
  refine ⟨?_, ?_, ?_⟩
  · decide
  · decide
  · decide

end NewApi.ModelMapped

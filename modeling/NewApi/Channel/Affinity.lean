import NewApi.Channel.HybridCache
import NewApi.Lib.Run

/-!
# Channel affinity

A rule finds a value in a request, and the channel that has served a request is preferred for the next one with the
same value. The channel is kept under a key of the rule's name, the model, the group and the value, as far as the rule
includes them, joined with `:`. A rule's entries are cleared by the prefix of its name.

The names and the value go into the key as they are. Where the parts before the value hold no separator, the key
tells what it was made of (`affinity_isolated`).
-/

namespace NewApi.ChannelAffinity

open Cachex

/-! ## Rules -/

/-- `ChannelAffinityKeySource`. -/
structure ChannelAffinityKeySource where
  type : String
  key : String := ""
  path : String := ""

/-- `ChannelAffinityRule`. -/
structure ChannelAffinityRule where
  name : String
  modelRegex : List String
  pathRegex : List String := []
  userAgentInclude : List String := []
  keySources : List ChannelAffinityKeySource
  valueRegex : String := ""
  includeUsingGroup : Bool := false
  includeModelName : Bool := false
  includeRuleName : Bool := false

/-- `ChannelAffinitySetting`. -/
structure ChannelAffinitySetting where
  enabled : Bool := true
  switchOnSuccess : Bool := true
  rules : List ChannelAffinityRule

/-- What `gjson` finds in a body: a text, a number or a truth value as a text, or another value as it stands there. -/
inductive GjsonResult
  | scalar (s : String)
  | raw (s : String)

/-- A request, with the values of its gin context and what is found in its body under a path. -/
structure Request where
  path : String := ""
  userAgent : String := ""
  contextInt : String → Int := fun _ => 0
  contextString : String → String := fun _ => ""
  gjson : String → Option GjsonResult := fun _ => none
  modelName : String
  usingGroup : String

/-- Regular expressions, where one that does not compile matches nothing, and `strings.ToLower`. -/
structure Text where
  matchString : String → String → Bool
  toLower : String → String

/-- `extractChannelAffinityValue`. -/
def extractChannelAffinityValue (r : Request) (src : ChannelAffinityKeySource) : String :=
  match src.type with
  | "context_int" =>
    if src.key = "" then ""
    else
      let v := r.contextInt src.key
      if v ≤ 0 then "" else toString v.toNat
  | "context_string" => if src.key = "" then "" else GoString.trimSpace (r.contextString src.key)
  | "gjson" =>
    if src.path = "" then ""
    else
      match r.gjson src.path with
      | none => ""
      | some (.scalar s) => GoString.trimSpace s
      | some (.raw s) => GoString.trimSpace s
  | _ => ""

section
variable (text : Text)

/-- `matchAnyRegexCached`. -/
def matchAnyRegex (patterns : List String) (s : String) : Bool :=
  s ≠ "" && patterns.any fun pattern => pattern ≠ "" && text.matchString pattern s

/-- `matchAnyIncludeFold`. -/
def matchAnyIncludeFold (patterns : List String) (s : String) : Bool :=
  s ≠ "" && patterns.any fun p =>
    GoString.trimSpace p ≠ "" && GoString.contains (text.toLower s) (text.toLower (GoString.trimSpace p))

/-- The value that a rule finds in a request: of its first source that has one. -/
def ChannelAffinityRule.affinityValue (rule : ChannelAffinityRule) (r : Request) : String :=
  ((rule.keySources.map (extractChannelAffinityValue r)).find? (· ≠ "")).getD ""

/-- The rule applies to a request. -/
def ChannelAffinityRule.applies (rule : ChannelAffinityRule) (r : Request) : Bool :=
  matchAnyRegex text rule.modelRegex r.modelName &&
    (rule.pathRegex.isEmpty || matchAnyRegex text rule.pathRegex r.path) &&
    (rule.userAgentInclude.isEmpty || matchAnyIncludeFold text rule.userAgentInclude r.userAgent) &&
    rule.affinityValue r ≠ "" &&
    (rule.valueRegex = "" || matchAnyRegex text [rule.valueRegex] (rule.affinityValue r))

end

/-! ## Keys -/

/-- What a request's key is made of: the rule that applies, the model, the group, and the value. -/
structure Affinity where
  rule : ChannelAffinityRule
  modelName : String
  usingGroup : String
  value : String
  modelName_ne : modelName ≠ ""
  value_ne : value ≠ ""
  getLast?_value : ∀ c ∈ value.toList.getLast?, GoString.isSpace c = false

theorem extract_getLast? (r : Request) (src : ChannelAffinityKeySource) :
    ∀ c ∈ (extractChannelAffinityValue r src).toList.getLast?, GoString.isSpace c = false := by
  have hempty : ∀ c ∈ "".toList.getLast?, GoString.isSpace c = false := fun c hc => by cases hc
  unfold extractChannelAffinityValue
  split
  · split
    · exact hempty
    · dsimp only
      split
      · exact hempty
      · exact fun c hc => GoString.isSpace_of_mem_toString (List.mem_of_getLast? hc)
  · split
    · exact hempty
    · exact GoString.getLast?_trimSpace
  · split
    · exact hempty
    · split
      · exact hempty
      · exact GoString.getLast?_trimSpace
      · exact GoString.getLast?_trimSpace
  · exact hempty

theorem affinityValue_getLast? (rule : ChannelAffinityRule) (r : Request) :
    ∀ c ∈ (rule.affinityValue r).toList.getLast?, GoString.isSpace c = false := by
  unfold ChannelAffinityRule.affinityValue
  cases hfind : (rule.keySources.map (extractChannelAffinityValue r)).find? (· ≠ "") with
  | none => exact fun c hc => by cases hc
  | some value =>
    obtain ⟨src, -, rfl⟩ := List.mem_map.1 (List.mem_of_find?_eq_some hfind)
    exact extract_getLast? r src

theorem ChannelAffinityRule.applies_spec {text : Text} {rule : ChannelAffinityRule} {r : Request}
    (h : rule.applies text r = true) : r.modelName ≠ "" ∧ rule.affinityValue r ≠ "" := by
  unfold applies matchAnyRegex at h
  simp only [Bool.and_eq_true, decide_eq_true_eq] at h
  exact ⟨h.1.1.1.1.1, h.1.2⟩

/-- The search of `GetPreferredChannelByAffinity`: what the key is made of, for the first rule that applies. -/
def ChannelAffinitySetting.affinity (text : Text) (setting : ChannelAffinitySetting) (r : Request) : Option Affinity :=
  if setting.enabled then
    setting.rules.findSome? fun rule =>
      if h : rule.applies text r = true then
        some
          { rule
            modelName := r.modelName
            usingGroup := r.usingGroup
            value := rule.affinityValue r
            modelName_ne := (ChannelAffinityRule.applies_spec h).1
            value_ne := (ChannelAffinityRule.applies_spec h).2
            getLast?_value := affinityValue_getLast? rule r }
      else none
  else none

namespace Affinity

/-- The parts of a key before the value. -/
def fields (a : Affinity) : List String :=
  (if a.rule.includeRuleName ∧ a.rule.name ≠ "" then [a.rule.name] else []) ++
    (if a.rule.includeModelName ∧ a.modelName ≠ "" then [a.modelName] else []) ++
    if a.rule.includeUsingGroup ∧ a.usingGroup ≠ "" then [a.usingGroup] else []

/-- `buildChannelAffinityCacheKeySuffix`. -/
def cacheKeySuffix (a : Affinity) : String := GoString.join ':' (a.fields ++ [a.value])

end Affinity

/-- `channelAffinityCacheNamespace`. -/
def cacheNamespace : Namespace := ⟨"new-api:channel_affinity:v1"⟩

/-- The key that is kept in the gin context. -/
def Affinity.cacheKeyFull (a : Affinity) : String := cacheNamespace.name ++ ":" ++ a.cacheKeySuffix

/-- `getChannelAffinityCache`, before anything is kept in it. -/
def newCache (scan : Option (String → String → Bool)) : HybridCache Int := { ns := cacheNamespace, scan }

/-- The end of `GetPreferredChannelByAffinity`. -/
def preferredChannel (fails : Bool) (a : Affinity) (cache : HybridCache Int) : Option Int :=
  cache.get fails a.cacheKeySuffix

/-- `GetPreferredChannelByAffinity`. -/
def getPreferredChannelByAffinity (text : Text) (setting : ChannelAffinitySetting) (r : Request) (fails : Bool)
    (cache : HybridCache Int) : Option Int :=
  (setting.affinity text r).bind fun a => preferredChannel fails a cache

/-- `RecordChannelAffinity`, for a request whose key is in its context, with the channel that is recorded. -/
def recordChannelAffinity (setting : ChannelAffinitySetting) (a : Affinity) (channelId contextChannelId : Int)
    (fails : Bool) (cache : HybridCache Int) : Option Int × HybridCache Int :=
  if channelId ≤ 0 ∨ setting.enabled = false then (none, cache)
  else
    let channelId := if setting.switchOnSuccess ∧ contextChannelId > 0 then contextChannelId else channelId
    (if fails then none else some channelId, cache.setWithTTL fails a.cacheKeyFull channelId)

/-- `ClearChannelAffinityCacheByRuleName`. -/
def clearByRuleName (setting : ChannelAffinitySetting) (ruleName : String) (fails : Bool) (cache : HybridCache Int) :
    Except String Nat × HybridCache Int :=
  let ruleName := GoString.trimSpace ruleName
  if ruleName = "" then (.error "rule_name 不能为空", cache)
  else
    match setting.rules.find? fun r => GoString.trimSpace r.name = ruleName with
    | none => (.error "未知规则名称", cache)
    | some matchedRule =>
      if ¬ matchedRule.includeRuleName then
        (.error "该规则未启用 include_rule_name，无法按规则清空缓存", cache)
      else
        match cache.deleteByPrefix fails ruleName with
        | (none, cache) => (.error "", cache)
        | (some deleted, cache) => (.ok deleted, cache)

/-! ## What a key tells -/

/-- The rule's name is part of its keys. -/
def ChannelAffinityRule.Named (rule : ChannelAffinityRule) : Prop := rule.includeRuleName = true ∧ rule.name ≠ ""

namespace Affinity

/-- What a channel is kept for: the rule, and what it includes. -/
def identity (a : Affinity) : String × Option String × Option String × String :=
  (a.rule.name, if a.rule.includeModelName then some a.modelName else none,
    if a.rule.includeUsingGroup then some a.usingGroup else none, a.value)

/-- The key is read as it is written: the parts before the value hold no separator, and the cache puts its prefix
before it and leaves the rest as it is. -/
structure Plain (a : Affinity) : Prop where
  fields : ∀ p ∈ a.fields, ':' ∉ p.toList
  usingGroup : a.rule.includeUsingGroup = true → a.usingGroup ≠ ""
  name : GoString.trimSpace a.rule.name = a.rule.name
  head : ∀ c ∈ a.cacheKeySuffix.toList.head?, GoString.isSpace c = false ∧ c ≠ ':'
  notFull : GoString.hasPrefix a.cacheKeySuffix cacheNamespace.keyPrefix = false

/-- The rules are one, or are told apart by their names. -/
def Told (a b : Affinity) : Prop :=
  a.rule = b.rule ∨ a.rule.Named ∧ b.rule.Named ∧ a.rule.name ≠ b.rule.name

variable {a b : Affinity}

theorem fields_named (h : a.rule.Named) :
    a.fields = a.rule.name :: ((if a.rule.includeModelName ∧ a.modelName ≠ "" then [a.modelName] else []) ++
      if a.rule.includeUsingGroup ∧ a.usingGroup ≠ "" then [a.usingGroup] else []) := by
  unfold fields
  rw [if_pos ⟨h.1, h.2⟩, List.append_assoc]
  rfl

theorem fields_eq (h : a.Plain) :
    a.fields = (if a.rule.includeRuleName ∧ a.rule.name ≠ "" then [a.rule.name] else []) ++
      (if a.rule.includeModelName then some a.modelName else none).toList ++
      (if a.rule.includeUsingGroup then some a.usingGroup else none).toList := by
  unfold fields
  congr 1
  · congr 1
    cases a.rule.includeModelName with
    | false => rfl
    | true => rw [if_pos ⟨rfl, a.modelName_ne⟩, if_pos rfl]; rfl
  · have hgroup := h.usingGroup
    cases hincl : a.rule.includeUsingGroup with
    | false => rfl
    | true => rw [if_pos ⟨rfl, hgroup hincl⟩, if_pos rfl]; rfl

theorem toList_ite_inj {p : Prop} [Decidable p] {s t : String}
    (h : (if p then some s else none).toList = (if p then some t else none).toList) :
    (if p then some s else none) = if p then some t else none := by
  split
  next hp =>
    rw [if_pos hp, if_pos hp] at h
    exact congrArg some (List.cons.inj h).1
  · rfl

theorem identity_of_cacheKeySuffix (ha : a.Plain) (hb : b.Plain) (h : a.Told b)
    (heq : a.cacheKeySuffix = b.cacheKeySuffix) : a.identity = b.identity := by
  unfold cacheKeySuffix at heq
  rcases h with hrule | ⟨hna, hnb, hne⟩
  · have hlen : a.fields.length = b.fields.length := by
      rw [fields_eq ha, fields_eq hb, hrule]
      simp only [List.length_append]
      congr 1
      · congr 1
        cases b.rule.includeModelName <;> rfl
      · cases b.rule.includeUsingGroup <;> rfl
    rw [GoString.join_append_inj hlen ha.fields hb.fields, fields_eq ha, fields_eq hb, hrule] at heq
    obtain ⟨hfields, hvalue⟩ := heq
    have hgroups : (if b.rule.includeUsingGroup then some a.usingGroup else none).toList.length =
        (if b.rule.includeUsingGroup then some b.usingGroup else none).toList.length := by
      cases b.rule.includeUsingGroup <;> rfl
    obtain ⟨hfields, hgroup⟩ := List.append_inj' hfields hgroups
    have hmodel := List.append_cancel_left hfields
    unfold identity
    rw [hrule, hvalue, toList_ite_inj hgroup, toList_ite_inj hmodel]
  · have hca := ha.fields a.rule.name (by rw [fields_named hna]; exact List.mem_cons_self)
    have hcb := hb.fields b.rule.name (by rw [fields_named hnb]; exact List.mem_cons_self)
    rw [fields_named hna, fields_named hnb, List.cons_append, List.cons_append,
      GoString.join_cons_inj (by simp) (by simp) hca hcb] at heq
    exact absurd heq.1 hne

/-! ## The keys in the cache -/

theorem cacheNamespace_solid : cacheNamespace.Solid := by
  refine ⟨by decide, fun c hc => ?_⟩
  obtain rfl : 'n' = c := Option.some.inj hc
  rfl

/-- The key under which the channel of a request is kept. -/
def entryKey (a : Affinity) : String := cacheNamespace.keyPrefix ++ a.cacheKeySuffix

theorem entryKey_inj (h : a.entryKey = b.entryKey) : a.cacheKeySuffix = b.cacheKeySuffix :=
  (String.append_right_inj _).1 h

theorem toList_cacheKeySuffix (a : Affinity) : ∃ l, a.cacheKeySuffix.toList = l ++ a.value.toList := by
  unfold cacheKeySuffix
  induction a.fields with
  | nil => exact ⟨[], by rw [List.nil_append, GoString.join_singleton]; rfl⟩
  | cons p fields ih =>
    obtain ⟨l, hl⟩ := ih
    refine ⟨p.toList ++ ':' :: l, ?_⟩
    rw [List.cons_append, GoString.toList_join_cons (by simp), hl, List.append_assoc, List.cons_append]

theorem value_toList_ne (a : Affinity) : a.value.toList ≠ [] := fun h => a.value_ne (String.toList_inj.1 h)

theorem cacheKeySuffix_ne (a : Affinity) : a.cacheKeySuffix ≠ "" := by
  obtain ⟨l, hl⟩ := toList_cacheKeySuffix a
  intro h
  rw [h] at hl
  exact a.value_toList_ne (List.append_eq_nil_iff.1 hl.symm).2

theorem getLast?_cacheKeySuffix (a : Affinity) :
    ∀ c ∈ a.cacheKeySuffix.toList.getLast?, GoString.isSpace c = false := by
  obtain ⟨l, hl⟩ := toList_cacheKeySuffix a
  rw [hl, List.getLast?_append_of_ne_nil _ a.value_toList_ne]
  exact a.getLast?_value

theorem entryKey_ne (a : Affinity) : a.entryKey ≠ "" := by
  intro h
  exact a.cacheKeySuffix_ne (String.append_eq_empty_iff.1 h).2

theorem fullKey_entryKey (a : Affinity) : cacheNamespace.fullKey a.entryKey = a.entryKey :=
  Namespace.fullKey_append cacheNamespace_solid a.cacheKeySuffix_ne a.getLast?_cacheKeySuffix

theorem cacheKeyFull_eq (a : Affinity) : a.cacheKeyFull = a.entryKey := by
  unfold cacheKeyFull entryKey
  congr 1

theorem Plain.fullKey (h : a.Plain) : cacheNamespace.fullKey a.cacheKeySuffix = a.entryKey :=
  Namespace.fullKey_eq cacheNamespace_solid a.cacheKeySuffix_ne h.head a.getLast?_cacheKeySuffix h.notFull

end Affinity

/-! ## Runs -/

/-- The cache, and the requests whose channels have been recorded, with these. -/
structure Store where
  cache : HybridCache Int
  recorded : List (Affinity × Int) := []

/-- What is done with the cache. -/
inductive Op
  | record (setting : ChannelAffinitySetting) (a : Affinity) (channelId contextChannelId : Int) (fails : Bool)
  /-- `InvalidateChannelAffinityForRequest`. -/
  | invalidate (a : Affinity) (fails : Bool)
  | clear (setting : ChannelAffinitySetting) (ruleName : String) (fails : Bool)
  /-- `ClearChannelAffinityCacheAll`. -/
  | clearAll (fails : Bool)
  | evict (keys : List String)

def step (s : Store) : Op → Store
  | .record setting a channelId contextChannelId fails =>
    match recordChannelAffinity setting a channelId contextChannelId fails s.cache with
    | (none, cache) => { s with cache }
    | (some channelId, cache) => { cache, recorded := (a, channelId) :: s.recorded }
  | .invalidate a fails => { s with cache := (s.cache.deleteMany fails [a.cacheKeyFull]).2 }
  | .clear setting ruleName fails => { s with cache := (clearByRuleName setting ruleName fails s.cache).2 }
  | .clearAll fails => { s with cache := (s.cache.deleteMany fails s.cache.keys).2 }
  | .evict keys => { s with cache := s.cache.evict keys }

/-- The keys of the requests are read as they are written, and the name of a rule that is cleared has no separator,
and no character that is special in Redis's patterns. -/
def Admissible (s : Store) : Op → Prop
  | .record _ a _ _ _ => a.Plain
  | .clear _ ruleName _ => ':' ∉ (GoString.trimSpace ruleName).toList ∧
      (s.cache.scan.isSome → ∀ c ∈ (GoString.trimSpace ruleName).toList, c ∉ ['*', '?', '[', ']', '\\'])
  | _ => True

/-- A channel that is preferred for a request was recorded for the same. -/
def Isolated (s : Store) : Prop :=
  ∀ text setting r fails a channelId, ChannelAffinitySetting.affinity text setting r = some a → a.Plain →
    (∀ q ∈ s.recorded, a.Told q.1) →
    getPreferredChannelByAffinity text setting r fails s.cache = some channelId →
    ∃ q ∈ s.recorded, q.2 = channelId ∧ q.1.identity = a.identity

/-- A rule that is cleared loses what is recorded under it, and of the others that include their names nothing goes;
a refusal changes nothing. -/
def ClearsRule (s : Store) (o : Op) (s' : Store) : Prop :=
  match o with
  | .clear setting ruleName fails =>
    match (clearByRuleName setting ruleName fails s.cache).1 with
    | .error _ => s'.cache = s.cache
    | .ok _ => ∀ q ∈ s.recorded, q.1.rule.Named →
        s'.cache.entries.get? q.1.entryKey =
          if q.1.rule.name = GoString.trimSpace ruleName then none else s.cache.entries.get? q.1.entryKey
  | _ => True

/-- What every value in the cache comes from. -/
structure Sound (scan : Option (String → String → Bool)) (s : Store) : Prop where
  ns : s.cache.ns = cacheNamespace
  scan : s.cache.scan = scan
  plain : ∀ q ∈ s.recorded, q.1.Plain
  entries : ∀ k e, s.cache.entries.get? k = some e → ∃ q ∈ s.recorded, q.2 = e.value ∧ q.1.entryKey = k

section
variable {scan : Option (String → String → Bool)} {s : Store} {o : Op}

theorem Sound.delete (h : Sound scan s) {cache : HybridCache Int} (hns : cache.ns = s.cache.ns)
    (hscan : cache.scan = s.cache.scan)
    (hget : ∀ k e, cache.entries.get? k = some e → s.cache.entries.get? k = some e) :
    Sound scan { s with cache } :=
  ⟨hns.trans h.ns, hscan.trans h.scan, h.plain, fun k e he => h.entries k e (hget k e he)⟩

theorem Sound.deleteMany (h : Sound scan s) (fails : Bool) (keys : List String) :
    Sound scan { s with cache := (s.cache.deleteMany fails keys).2 } :=
  h.delete HybridCache.ns_deleteMany HybridCache.scan_deleteMany fun _ _ => HybridCache.get?_of_deleteMany

theorem Sound.record (h : Sound scan s) {a : Affinity} (ha : a.Plain) (channelId : Int) :
    Sound scan { cache := s.cache.setWithTTL false a.cacheKeyFull channelId, recorded := (a, channelId) :: s.recorded } := by
  have hkey : s.cache.ns.fullKey a.cacheKeyFull = a.entryKey := by
    rw [h.ns, a.cacheKeyFull_eq, a.fullKey_entryKey]
  refine ⟨?_, ?_, List.forall_mem_cons.2 ⟨ha, h.plain⟩, fun k e he => ?_⟩
  · rw [HybridCache.ns_setWithTTL]
    exact h.ns
  · rw [HybridCache.scan_setWithTTL]
    exact h.scan
  dsimp only at he ⊢
  rw [HybridCache.get?_setWithTTL (by rw [hkey]; exact a.entryKey_ne) rfl, hkey] at he
  split at he
  next hk =>
    cases he
    exact ⟨_, List.mem_cons_self, rfl, hk.symm⟩
  · obtain ⟨q, hq, hvalue⟩ := h.entries k e he
    exact ⟨q, List.mem_cons_of_mem _ hq, hvalue⟩

theorem recordChannelAffinity_cases (setting : ChannelAffinitySetting) (a : Affinity) (channelId contextChannelId : Int)
    (fails : Bool) (cache : HybridCache Int) :
    recordChannelAffinity setting a channelId contextChannelId fails cache = (none, cache) ∨
      ∃ recorded, recordChannelAffinity setting a channelId contextChannelId fails cache =
        (some recorded, cache.setWithTTL false a.cacheKeyFull recorded) := by
  unfold recordChannelAffinity
  split
  · exact .inl rfl
  · cases fails with
    | false => exact .inr ⟨_, rfl⟩
    | true =>
      refine .inl ?_
      unfold HybridCache.setWithTTL
      dsimp only
      rw [if_pos (Or.inr rfl : _ ∨ true = true)]
      rfl

theorem clearByRuleName_cases (setting : ChannelAffinitySetting) (ruleName : String) (fails : Bool)
    (cache : HybridCache Int) :
    (∃ e, clearByRuleName setting ruleName fails cache = (.error e, cache)) ∨
      ∃ deleted, GoString.trimSpace ruleName ≠ "" ∧
        (cache.deleteByPrefix fails (GoString.trimSpace ruleName)).1 = some deleted ∧
        clearByRuleName setting ruleName fails cache =
          (.ok deleted, (cache.deleteByPrefix fails (GoString.trimSpace ruleName)).2) := by
  unfold clearByRuleName
  dsimp only
  split
  · exact .inl ⟨_, rfl⟩
  next hne =>
    split
    · exact .inl ⟨_, rfl⟩
    · split
      · exact .inl ⟨_, rfl⟩
      · split
        next cache' hdelete =>
          -- a deletion that fails has changed nothing
          have hcases := HybridCache.deleteByPrefix_cases (GoString.trimSpace ruleName) fails cache
          rw [hdelete] at hcases
          rcases hcases with h | ⟨keys, h⟩
          · cases h
          · unfold HybridCache.deleteMany at h
            dsimp only at h
            split at h
            · cases h
              exact .inl ⟨_, rfl⟩
            · cases h
        next deleted cache' hdelete => exact .inr ⟨deleted, hne, by rw [hdelete], by rw [hdelete]⟩

theorem Sound.step (h : Sound scan s) (ho : Admissible s o) : Sound scan (step s o) := by
  cases o with
  | record setting a channelId contextChannelId fails =>
    unfold ChannelAffinity.step
    dsimp only
    rcases recordChannelAffinity_cases setting a channelId contextChannelId fails s.cache with hnone | ⟨recorded, hsome⟩
    · rw [hnone]
      exact h
    · rw [hsome]
      exact h.record ho recorded
  | invalidate a fails => exact h.deleteMany fails _
  | clear setting ruleName fails =>
    unfold ChannelAffinity.step
    dsimp only
    rcases clearByRuleName_cases setting ruleName fails s.cache with ⟨e, he⟩ | ⟨deleted, -, -, hclear⟩
    · rw [he]
      exact h
    · rw [hclear]
      rcases HybridCache.deleteByPrefix_cases (GoString.trimSpace ruleName) fails s.cache with hsame | ⟨keys, hmany⟩
      · rw [hsame]
        exact h
      · rw [hmany]
        exact h.deleteMany fails keys
  | clearAll fails => exact h.deleteMany fails _
  | evict keys =>
    refine h.delete rfl rfl fun k e he => ?_
    rw [HybridCache.get?_evict] at he
    split at he
    · cases he
    · exact he

theorem Sound.isolated (h : Sound scan s) : Isolated s := by
  intro text setting r fails a channelId haffinity ha htold hpreferred
  unfold getPreferredChannelByAffinity preferredChannel HybridCache.get at hpreferred
  rw [haffinity, Option.bind_some] at hpreferred
  dsimp only at hpreferred
  rw [h.ns, ha.fullKey] at hpreferred
  split at hpreferred
  · cases hpreferred
  · obtain ⟨e, he, rfl⟩ := Option.map_eq_some_iff.1 hpreferred
    obtain ⟨q, hq, hvalue, hkey⟩ := h.entries _ e he
    refine ⟨q, hq, hvalue, ?_⟩
    exact (Affinity.identity_of_cacheKeySuffix ha (h.plain q hq) (htold q hq) (Affinity.entryKey_inj hkey).symm).symm

/-! ### Clearing by a name -/

section
variable {name : String}

theorem fullKey_name (hname : GoString.trimSpace name = name) (hne : name ≠ "") (hcolon : ':' ∉ name.toList) :
    cacheNamespace.fullKey name = cacheNamespace.keyPrefix ++ name := by
  refine Namespace.fullKey_eq Affinity.cacheNamespace_solid hne ?_ ?_ ?_
  · intro c hc
    refine ⟨?_, fun h => hcolon (h ▸ List.mem_of_mem_head? hc)⟩
    rw [← hname] at hc
    exact GoString.head?_trimSpace c hc
  · rw [← hname]
    exact GoString.getLast?_trimSpace
  · rw [Bool.eq_false_iff, ne_eq, GoString.hasPrefix_iff]
    intro hpre
    exact hcolon (hpre.subset (by decide))

theorem separated_fullKey (hname : GoString.trimSpace name = name) (hne : name ≠ "") (hcolon : ':' ∉ name.toList) :
    HybridCache.separated (cacheNamespace.fullKey name) = cacheNamespace.keyPrefix ++ name ++ ":" := by
  have hsuffix : GoString.hasSuffix (cacheNamespace.keyPrefix ++ name) ":" = false := by
    unfold GoString.hasSuffix
    rw [Bool.eq_false_iff, ne_eq, List.isSuffixOf_iff_suffix, String.toList_append]
    rintro ⟨l, hl⟩
    have hlist : name.toList ≠ [] := fun h => hne (String.toList_inj.1 h)
    have hgetLast := congrArg List.getLast? hl
    rw [List.getLast?_append_of_ne_nil _ hlist, List.getLast?_append_of_ne_nil _ (by decide)] at hgetLast
    exact hcolon (List.mem_of_getLast? hgetLast.symm)
  rw [fullKey_name hname hne hcolon]
  unfold HybridCache.separated
  rw [hsuffix]
  rfl

theorem hasPrefix_entryKey {a : Affinity} (ha : a.Plain) (hnamed : a.rule.Named)
    (hcolon : ':' ∉ name.toList) :
    GoString.hasPrefix a.entryKey (cacheNamespace.keyPrefix ++ name ++ ":") = true ↔ a.rule.name = name := by
  have hfield := ha.fields a.rule.name (by rw [Affinity.fields_named hnamed]; exact List.mem_cons_self)
  have hsuffix : ∃ rest, a.cacheKeySuffix.toList = a.rule.name.toList ++ ':' :: rest := by
    unfold Affinity.cacheKeySuffix
    rw [Affinity.fields_named hnamed, List.cons_append, GoString.toList_join_cons (by simp)]
    exact ⟨_, rfl⟩
  obtain ⟨rest, hrest⟩ := hsuffix
  unfold Affinity.entryKey
  rw [GoString.hasPrefix_iff, String.append_assoc, String.toList_append, String.toList_append, String.toList_append,
    List.prefix_append_right_inj, hrest]
  constructor
  · rintro ⟨more, hmore⟩
    have heq : GoString.join ':' [name, String.ofList more] = GoString.join ':' [a.rule.name, String.ofList rest] := by
      rw [← String.toList_inj, GoString.toList_join_pair, GoString.toList_join_pair, String.toList_ofList,
        String.toList_ofList, ← hmore, List.append_assoc]
      rfl
    exact ((GoString.join_cons_inj (by simp) (by simp) hcolon hfield).1 heq).1.symm
  · rintro rfl
    exact ⟨rest, by rw [List.append_assoc]; rfl⟩

end

theorem not_special_of_all {text : String} (h : text.toList.all (fun c => c ∉ ['*', '?', '[', ']', '\\']) = true) :
    ∀ c ∈ text.toList, c ∉ ['*', '?', '[', ']', '\\'] :=
  fun c hc => of_decide_eq_true (List.all_eq_true.1 h c hc)

theorem Sound.clearsRule (hscan : ∀ glob ∈ scan, HybridCache.Literal glob) (h : Sound scan s) (ho : Admissible s o) :
    ClearsRule s o (ChannelAffinity.step s o) := by
  cases o with
  | clear setting ruleName fails =>
    unfold ClearsRule ChannelAffinity.step
    dsimp only
    rcases clearByRuleName_cases setting ruleName fails s.cache with ⟨e, he⟩ | ⟨deleted, hne, hdeleted, hclear⟩
    · rw [he]
    · rw [hclear]
      dsimp only
      intro q hq hnamed
      obtain ⟨hcolon, hspecial⟩ := ho
      have hsep := separated_fullKey (GoString.trimSpace_trimSpace ruleName) hne hcolon
      have hfull : ∀ e ∈ s.cache.entries, s.cache.ns.fullKey e.key = e.key ∧ e.key ≠ "" := by
        intro e he
        obtain ⟨q, -, -, hkey⟩ := h.entries e.key e (Table.get?_key he)
        rw [h.ns, ← hkey]
        exact ⟨q.1.fullKey_entryKey, q.1.entryKey_ne⟩
      have hprefix : s.cache.ns.fullKey (GoString.trimSpace ruleName) ≠ "" := by
        intro hempty
        rw [h.ns, fullKey_name (GoString.trimSpace_trimSpace ruleName) hne hcolon] at hempty
        exact hne (String.append_eq_empty_iff.1 hempty).2
      have hmatch : s.cache.Matches (HybridCache.separated (s.cache.ns.fullKey (GoString.trimSpace ruleName)))
          q.1.entryKey = true ↔ q.1.rule.name = GoString.trimSpace ruleName := by
        rw [HybridCache.matches_eq, h.ns, hsep]
        · exact hasPrefix_entryKey (h.plain q hq) hnamed hcolon
        · rw [h.scan]
          exact hscan
        · intro hsome c hc
          rw [h.ns, hsep, String.toList_append, String.toList_append, List.mem_append, List.mem_append] at hc
          rcases hc with (hc | hc) | hc
          · exact not_special_of_all rfl c hc
          · exact hspecial hsome c hc
          · exact not_special_of_all rfl c hc
      rw [HybridCache.get?_deleteByPrefix hfull hprefix hdeleted]
      exact if_congr hmatch rfl rfl
  | _ => trivial

/-- In every run, a channel that is preferred for a request was recorded for a request with the same rule name, model
and group, as far as the rule includes them, and the same value; and a rule that is cleared loses its entries, and no
other rule that includes its name does. -/
theorem affinity_isolated (scan : Option (String → String → Bool)) (hscan : ∀ glob ∈ scan, HybridCache.Literal glob)
    (ops : List Op) (h : Run.Meets ChannelAffinity.step Admissible { cache := newCache scan } ops) :
    Run.Holds ChannelAffinity.step Isolated { cache := newCache scan } ops ∧
      Run.Always ChannelAffinity.step ClearsRule { cache := newCache scan } ops := by
  have hstart : Sound scan { cache := newCache scan } :=
    ⟨rfl, rfl, fun _ hq => (by cases hq), fun _ _ he => (by cases he)⟩
  exact ⟨h.holds (fun s o => Sound.step) (fun s => Sound.isolated) hstart,
    h.always (fun s o => Sound.step) (fun s o hs ho => hs.clearsRule hscan ho) hstart⟩

end

/-! ### Two rules -/

/-- A rule for all requests of a Claude client. -/
def clientRule (name : String) (includeRuleName : Bool) : ChannelAffinityRule :=
  { name, includeRuleName, includeUsingGroup := true
    modelRegex := ["^claude-.*$"]
    keySources := [{ type := "gjson", path := "metadata.user_id" }] }

/-- What a request's key is made of under such a rule. -/
def clientAffinity (name : String) (includeRuleName : Bool) (usingGroup : String) (value : String) (h : value ≠ "")
    (hlast : value.toList.getLast?.any GoString.isSpace = false) : Affinity :=
  { rule := clientRule name includeRuleName
    modelName := "claude-opus"
    usingGroup, value
    modelName_ne := by decide
    value_ne := h
    getLast?_value := fun c hc => by rwa [Option.mem_def.1 hc] at hlast }

/-- Redis's matching of a pattern that ends with a star, and has no other special character. -/
def starGlob (pattern k : String) : Bool := GoString.hasPrefix k (String.ofList pattern.toList.dropLast)

/-- A channel is recorded under one of two rules, and then the other is cleared. -/
theorem affinity_isolated_two_rules :
    let a := clientAffinity "cli" true "default" "user:1" (by decide) (by decide)
    let setting : ChannelAffinitySetting := { rules := [clientRule "cli" true, clientRule "ide" true] }
    let ops : List Op := [.record setting a 7 0 false, .clear setting "ide" false]
    Run.Holds step Isolated { cache := newCache (some starGlob) } ops ∧
      Run.Always step ClearsRule { cache := newCache (some starGlob) } ops := by
  refine affinity_isolated _ (fun glob hglob => ?_) _ ⟨?_, ⟨?_, fun _ => ?_⟩, trivial⟩
  · cases hglob
    intro pre k _
    unfold starGlob
    rw [String.toList_append]
    simp
  · refine ⟨by decide, fun _ => by decide, by decide, fun c hc => ?_, by decide⟩
    obtain rfl : 'c' = c := Option.some.inj hc
    decide
  · decide
  · exact not_special_of_all rfl

/-- Rules that leave out their names share their channels, and cannot be cleared; and a separator in a value reads
like the end of a group. -/
theorem rules_share_channel :
    let setting : ChannelAffinitySetting := { rules := [clientRule "cli" false, clientRule "ide" false] }
    let a := clientAffinity "cli" false "default" "user" (by decide) (by decide)
    let b := clientAffinity "ide" false "default" "user" (by decide) (by decide)
    let recorded := (recordChannelAffinity setting a 7 0 false (newCache none)).2
    a.identity ≠ b.identity ∧ preferredChannel false b recorded = some 7 ∧
      (clearByRuleName setting "cli" false recorded).1 =
        .error "该规则未启用 include_rule_name，无法按规则清空缓存" ∧
      (clientAffinity "cli" true "vip" "team:user" (by decide) (by decide)).cacheKeySuffix =
        (clientAffinity "cli" true "vip:team" "user" (by decide) (by decide)).cacheKeySuffix := by
  refine ⟨?_, ?_, ?_, ?_⟩
  · decide
  · decide
  · decide
  · decide

end NewApi.ChannelAffinity

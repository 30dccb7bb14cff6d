import NewApi.Channel.Model
import NewApi.Lib.Run

/-!
# The channel of an attempt

Each attempt of a request sets values of its channel in the request's context (`SetupContextForSelectedChannel`), and
the upstream request is made from what is read back (`InitChannelMeta`). Some values are set only where the channel
has one, or only for some types of channels, and none is ever removed.

So what an attempt reads is what its own channel sets just if it sets the organization, the index of the key and the
version of the interface, as far as one is left from the channels before (`initChannelMeta_fresh_iff`).
-/

namespace NewApi.ChannelSetup

/-- `MultiKeyMode`. -/
inductive MultiKeyMode where
  | random
  | polling
  | other (mode : String)
deriving DecidableEq

/-- A channel, with the columns that its set-up reads. -/
structure SelectedChannel extends Channel where
  keys : List String := []
  multiKeyMode : MultiKeyMode := .random
  name : String := ""
  type : Nat := 0
  createdTime : Int := 0
  setting : Option String := none
  otherSettings : String := ""
  paramOverride : Option String := none
  headerOverride : Option String := none
  openAIOrganization : Option String := none
  autoBan : Option Int := none
  modelMapping : Option String := none
  statusCodeMapping : Option String := none
  baseUrl : Option String := none
  other : String := ""

/-- What the set-up uses: the elements of a JSON array, what decoding leaves in settings and overrides, the overrides
with the template of the request's affinity, and `ChannelBaseURLs`. -/
structure SetupEnv (Setting OtherSettings Override : Type) where
  jsonArray : String → Option (List String)
  emptySetting : Setting
  setting : String → Setting
  emptyOtherSettings : OtherSettings
  otherSettings : String → OtherSettings
  emptyOverride : Override
  override : String → Override
  applyTemplate : Override → Override := id
  channelBaseUrls : Nat → String := fun _ => ""

/-- What a draw of a key meets: the random number, and the polling index of the channel's cached information, or the
error of its lookup. -/
structure KeyDraw where
  rand : Nat := 0
  pollingIndex : Except String Int := .ok 0

namespace SelectedChannel

variable {Setting OtherSettings Override : Type} (env : SetupEnv Setting OtherSettings Override)

/-- `GetKeys`. -/
def getKeys (channel : SelectedChannel) : List String :=
  if channel.key = "" then []
  else if channel.keys ≠ [] then channel.keys
  else
    let trimmed := GoString.trimSpace channel.key
    let split := GoString.split '\n' (GoString.trimRight '\n' (GoString.trimLeft '\n' channel.key))
    if GoString.hasPrefix trimmed "[" then (env.jsonArray trimmed).getD split else split

/-- `getStatus` of `GetNextEnabledKey`. -/
def keyStatus (idx : Nat) (channel : SelectedChannel) : ChannelStatus :=
  ((channel.channelInfo.multiKeyStatusList.get? idx).map Prod.snd).getD .enabled

/-- The keys from an index on, around the list. -/
def pollingOrder (start n : Nat) : List Nat := (List.range n).map fun i => (start + i) % n

/-- `GetNextEnabledKey`, where the polling index goes on in the channel. -/
def getNextEnabledKey (draw : KeyDraw) (channel : SelectedChannel) : Except String (String × Nat) :=
  if ¬ channel.channelInfo.isMultiKey then .ok (channel.key, 0)
  else
    let keys := channel.getKeys env
    if keys = [] then .error "no keys available"
    else
      match (List.range keys.length).filter fun idx => channel.keyStatus idx = .enabled with
      | [] => .error "no enabled keys"
      | first :: rest =>
        let key idx := (keys.getD idx "", idx)
        match channel.multiKeyMode with
        | .random => .ok (key ((first :: rest).getD (draw.rand % (rest.length + 1)) first))
        | .polling =>
          match draw.pollingIndex with
          | .error e => .error e
          | .ok index =>
            let start := if index < 0 ∨ index ≥ keys.length then 0 else index.toNat
            .ok (key (((pollingOrder start keys.length).find? fun idx => channel.keyStatus idx = .enabled).getD first))
        | .other _ => .ok (key first)

/-- `GetSetting`. -/
def getSetting (channel : SelectedChannel) : Setting :=
  match channel.setting with
  | some setting => if setting ≠ "" then env.setting setting else env.emptySetting
  | none => env.emptySetting

/-- `GetOtherSettings`. -/
def getOtherSettings (channel : SelectedChannel) : OtherSettings :=
  if channel.otherSettings ≠ "" then env.otherSettings channel.otherSettings else env.emptyOtherSettings

/-- `GetParamOverride` and `GetHeaderOverride`. -/
def getOverride (text : Option String) : Override :=
  match text with
  | some text => if text ≠ "" then env.override text else env.emptyOverride
  | none => env.emptyOverride

/-- `GetAutoBan`. -/
def getAutoBan (channel : SelectedChannel) : Bool := channel.autoBan = some 1

/-- `GetBaseURL`. -/
def getBaseUrl (channel : SelectedChannel) : String :=
  match channel.baseUrl with
  | some url => if url = "" then env.channelBaseUrls channel.type else url
  | none => ""

end SelectedChannel

/-! ## Types of channels -/

def channelTypeAzure : Nat := 3
def channelTypeAli : Nat := 17
def channelTypeXunfei : Nat := 18
def channelTypeGemini : Nat := 24
def channelCloudflare : Nat := 39
def channelTypeVertexAi : Nat := 41
def channelTypeMokaAI : Nat := 44
def channelTypeCoze : Nat := 49

/-- The types that set `api_version`. -/
def versionedTypes : List Nat :=
  [channelTypeAzure, channelTypeXunfei, channelTypeGemini, channelCloudflare, channelTypeMokaAI]

/-- The types of interfaces that `ChannelType2APIType` knows. -/
def apiTypes : List (Nat × Nat) :=
  [(1, 0), (14, 1), (15, 3), (11, 2), (16, 4), (17, 5), (18, 6), (21, 7), (23, 8), (24, 9), (26, 10), (4, 11), (27, 12),
    (33, 13), (34, 14), (37, 15), (38, 16), (39, 17), (40, 18), (41, 19), (42, 20), (43, 21), (44, 22), (45, 23),
    (46, 24), (20, 25), (47, 26), (48, 27), (49, 28), (51, 29), (25, 30), (53, 31), (35, 32), (56, 33), (57, 34)]

/-- `ChannelType2APIType`. -/
def channelType2ApiType (channelType : Nat) : Nat := (apiTypes.lookup channelType).getD 0

/-- `streamSupportedChannels`. -/
def streamSupportedChannels : List Nat := [1, 14, 33, 24, 39, 3, 45, 4, 48, 43, 46, 26, 17, 53, 57, 25, 35, 40]

/-! ## The context -/

/-- The values of a request's context that belong to its channel, where they are set, and the `api-version` of its
query. -/
structure ChannelContext (Setting OtherSettings Override : Type) where
  queryApiVersion : String := ""
  originalModel : Option String := none
  channelId : Option Nat := none
  channelName : Option String := none
  channelType : Option Nat := none
  channelCreateTime : Option Int := none
  channelSetting : Option Setting := none
  channelOtherSetting : Option OtherSettings := none
  paramOverride : Option Override := none
  headerOverride : Option Override := none
  channelOrganization : Option String := none
  autoBan : Option Bool := none
  modelMapping : Option String := none
  statusCodeMapping : Option String := none
  channelIsMultiKey : Option Bool := none
  channelMultiKeyIndex : Option Nat := none
  channelKey : Option String := none
  baseUrl : Option String := none
  systemPromptOverride : Option Bool := none
  apiVersion : Option String := none
  region : Option String := none
  plugin : Option String := none
  botId : Option String := none

/-- `ChannelMeta`. -/
structure ChannelMeta (Setting OtherSettings Override : Type) where
  channelType : Nat
  channelId : Nat
  channelIsMultiKey : Bool
  channelMultiKeyIndex : Nat
  channelBaseUrl : String
  apiType : Nat
  apiVersion : String
  apiKey : String
  organization : String
  channelCreateTime : Int
  paramOverride : Option Override
  headersOverride : Option Override
  channelSetting : Setting
  channelOtherSettings : OtherSettings
  upstreamModelName : String
  isModelMapped : Bool := false
  supportStreamOptions : Bool := false
deriving DecidableEq

section
variable {Setting OtherSettings Override : Type} (env : SetupEnv Setting OtherSettings Override)

/-- The values that are set before the key is drawn. -/
def setChannel (channel : SelectedChannel) (modelName : String) (c : ChannelContext Setting OtherSettings Override) :
    ChannelContext Setting OtherSettings Override :=
  { c with
    originalModel := some modelName
    channelId := some channel.id
    channelName := some channel.name
    channelType := some channel.type
    channelCreateTime := some channel.createdTime
    channelSetting := some (channel.getSetting env)
    channelOtherSetting := some (channel.getOtherSettings env)
    paramOverride := some (env.applyTemplate (SelectedChannel.getOverride env channel.paramOverride))
    headerOverride := some (SelectedChannel.getOverride env channel.headerOverride)
    channelOrganization :=
      match channel.openAIOrganization with
      | some organization => if organization ≠ "" then some organization else c.channelOrganization
      | none => c.channelOrganization
    autoBan := some channel.getAutoBan
    modelMapping := some (channel.modelMapping.getD "")
    statusCodeMapping := some (channel.statusCodeMapping.getD "") }

/-- The values that are set with the key that is drawn. -/
def setKey (channel : SelectedChannel) (key : String) (index : Nat)
    (c : ChannelContext Setting OtherSettings Override) : ChannelContext Setting OtherSettings Override :=
  { c with
    channelIsMultiKey := some channel.channelInfo.isMultiKey
    channelMultiKeyIndex := if channel.channelInfo.isMultiKey then some index else c.channelMultiKeyIndex
    channelKey := some key
    baseUrl := some (channel.getBaseUrl env)
    systemPromptOverride := some false }

/-- The values that are set for some types of channels only. -/
def setOther (channel : SelectedChannel) (c : ChannelContext Setting OtherSettings Override) :
    ChannelContext Setting OtherSettings Override :=
  if channel.type ∈ versionedTypes then { c with apiVersion := some channel.other }
  else if channel.type = channelTypeVertexAi then { c with region := some channel.other }
  else if channel.type = channelTypeAli then { c with plugin := some channel.other }
  else if channel.type = channelTypeCoze then { c with botId := some channel.other }
  else c

/-- `SetupContextForSelectedChannel`: its error, and the context after it. -/
def setupContextForSelectedChannel (channel : SelectedChannel) (draw : KeyDraw) (modelName : String)
    (c : ChannelContext Setting OtherSettings Override) :
    Option String × ChannelContext Setting OtherSettings Override :=
  let c := setChannel env channel modelName c
  match channel.getNextEnabledKey env draw with
  | .error e => (some e, c)
  | .ok (key, index) => (none, setOther channel (setKey env channel key index c))

/-- `GetAPIVersion`. -/
def getApiVersion (c : ChannelContext Setting OtherSettings Override) : String :=
  if c.queryApiVersion = "" then c.apiVersion.getD "" else c.queryApiVersion

/-- `InitChannelMeta`. -/
def initChannelMeta (c : ChannelContext Setting OtherSettings Override) :
    ChannelMeta Setting OtherSettings Override :=
  let channelType := c.channelType.getD 0
  { channelType
    channelId := c.channelId.getD 0
    channelIsMultiKey := c.channelIsMultiKey.getD false
    channelMultiKeyIndex := c.channelMultiKeyIndex.getD 0
    channelBaseUrl := c.baseUrl.getD ""
    apiType := channelType2ApiType channelType
    apiVersion :=
      if channelType = channelTypeVertexAi then c.region.getD ""
      else if channelType = channelTypeAzure then getApiVersion c
      else c.apiVersion.getD ""
    apiKey := c.channelKey.getD ""
    organization := c.channelOrganization.getD ""
    channelCreateTime := c.channelCreateTime.getD 0
    paramOverride := c.paramOverride
    headersOverride := c.headerOverride
    channelSetting := c.channelSetting.getD env.emptySetting
    channelOtherSettings := c.channelOtherSetting.getD env.emptyOtherSettings
    upstreamModelName := c.originalModel.getD ""
    supportStreamOptions := channelType ∈ streamSupportedChannels }

/-! ## Attempts -/

/-- An attempt: its channel, the draw of its key, and the model it is set up for. -/
structure Attempt where
  channel : SelectedChannel
  draw : KeyDraw := {}
  modelName : String := ""

/-- The context after an attempt is set up. -/
def setup (c : ChannelContext Setting OtherSettings Override) (a : Attempt) :
    ChannelContext Setting OtherSettings Override :=
  (setupContextForSelectedChannel env a.channel a.draw a.modelName c).2

namespace Attempt

/-- The organization that an attempt sets. -/
def organization (a : Attempt) : Option String :=
  match a.channel.openAIOrganization with
  | some organization => if organization ≠ "" then some organization else none
  | none => none

/-- The index of the key that an attempt sets. -/
def keyIndex (a : Attempt) : Option Nat :=
  if a.channel.channelInfo.isMultiKey then (a.channel.getNextEnabledKey env a.draw).toOption.map Prod.snd else none

/-- The version that an attempt sets. -/
def apiVersion (a : Attempt) : Option String :=
  if a.channel.type ∈ versionedTypes ∧ (a.channel.getNextEnabledKey env a.draw).isOk then some a.channel.other
  else none

end Attempt

/-- Nothing of the attempts before is left for an attempt to read. -/
structure NothingLeft (earlier : List Attempt) (a : Attempt) : Prop where
  organization : a.organization.isSome ∨ ∀ e ∈ earlier, e.organization = none
  keyIndex : a.channel.channelInfo.isMultiKey ∨ (earlier.filterMap (Attempt.keyIndex env)).getLast?.getD 0 = 0
  apiVersion : a.channel.type ∈ versionedTypes ∨ a.channel.type = channelTypeVertexAi ∨
    (earlier.filterMap (Attempt.apiVersion env)).getLast?.getD "" = ""

variable {env} {c : ChannelContext Setting OtherSettings Override} {a : Attempt}

/-! ### What a set-up writes -/

theorem setup_error {e : String} (h : a.channel.getNextEnabledKey env a.draw = .error e) :
    setup env c a = setChannel env a.channel a.modelName c := by
  unfold setup setupContextForSelectedChannel
  rw [h]

theorem setup_ok {key : String} {index : Nat} (h : a.channel.getNextEnabledKey env a.draw = .ok (key, index)) :
    setup env c a = setOther a.channel (setKey env a.channel key index (setChannel env a.channel a.modelName c)) := by
  unfold setup setupContextForSelectedChannel
  rw [h]

theorem organization_setChannel (env : SetupEnv Setting OtherSettings Override)
    (c : ChannelContext Setting OtherSettings Override) (a : Attempt) : (setChannel env a.channel a.modelName c).channelOrganization =
    a.organization.or c.channelOrganization := by
  unfold setChannel Attempt.organization
  cases a.channel.openAIOrganization with
  | none => rfl
  | some organization =>
    dsimp only
    split <;> rfl

theorem setOther_eq (channel : SelectedChannel) (c : ChannelContext Setting OtherSettings Override) :
    ∃ region plugin botId, setOther channel c = { c with
      apiVersion := if channel.type ∈ versionedTypes then some channel.other else c.apiVersion
      region, plugin, botId } ∧ (channel.type = channelTypeVertexAi → region = some channel.other) := by
  have hvertex : channelTypeVertexAi ∉ versionedTypes := by decide
  unfold setOther
  split
  next hversioned => exact ⟨_, _, _, rfl, fun h => absurd (h ▸ hversioned) hvertex⟩
  next hversioned =>
    split
    next => exact ⟨_, _, _, rfl, fun _ => rfl⟩
    next hne =>
      split
      · exact ⟨_, _, _, rfl, fun h => absurd h hne⟩
      · split
        · exact ⟨_, _, _, rfl, fun h => absurd h hne⟩
        · exact ⟨_, _, _, rfl, fun h => absurd h hne⟩

theorem setup_spec (env : SetupEnv Setting OtherSettings Override)
    (c : ChannelContext Setting OtherSettings Override) (a : Attempt) :
    (setup env c a).channelOrganization = a.organization.or c.channelOrganization ∧
      (setup env c a).channelMultiKeyIndex = (a.keyIndex env).or c.channelMultiKeyIndex ∧
      (setup env c a).apiVersion = (a.apiVersion env).or c.apiVersion ∧
      (setup env c a).queryApiVersion = c.queryApiVersion := by
  unfold Attempt.keyIndex Attempt.apiVersion
  cases hdraw : a.channel.getNextEnabledKey env a.draw with
  | error e =>
    rw [setup_error hdraw]
    refine ⟨organization_setChannel env c a, ?_, ?_, rfl⟩
    · split <;> rfl
    · rw [if_neg fun h => absurd h.2 Bool.false_ne_true]
      rfl
  | ok drawn =>
    obtain ⟨key, index⟩ := drawn
    rw [setup_ok hdraw]
    obtain ⟨region, plugin, botId, hother, -⟩ :=
      setOther_eq a.channel (setKey env a.channel key index (setChannel env a.channel a.modelName c))
    rw [hother]
    refine ⟨organization_setChannel env c a, ?_, ?_, rfl⟩
    · change (if a.channel.channelInfo.isMultiKey = true then some index else c.channelMultiKeyIndex) = _
      split <;> rfl
    · change (if a.channel.type ∈ versionedTypes then some a.channel.other else c.apiVersion) = _
      by_cases hversioned : a.channel.type ∈ versionedTypes
      · rw [if_pos hversioned, if_pos ⟨hversioned, rfl⟩]
        rfl
      · rw [if_neg hversioned, if_neg fun hand => hversioned hand.1]
        rfl

/-- What is read as the version. -/
def Attempt.readVersion (env : SetupEnv Setting OtherSettings Override) (a : Attempt)
    (c : ChannelContext Setting OtherSettings Override) : String :=
  if a.channel.type = channelTypeVertexAi then a.channel.other
  else if a.channel.type = channelTypeAzure ∧ c.queryApiVersion ≠ "" then c.queryApiVersion
  else ((a.apiVersion env).or c.apiVersion).getD ""

/-- What is read after an attempt that gets a key: its own values, and what is left of three others. -/
theorem initChannelMeta_setup {key : String} {index : Nat}
    (h : a.channel.getNextEnabledKey env a.draw = .ok (key, index)) :
    initChannelMeta env (setup env c a) =
      { channelType := a.channel.type
        channelId := a.channel.id
        channelIsMultiKey := a.channel.channelInfo.isMultiKey
        channelMultiKeyIndex := ((a.keyIndex env).or c.channelMultiKeyIndex).getD 0
        channelBaseUrl := a.channel.getBaseUrl env
        apiType := channelType2ApiType a.channel.type
        apiVersion := a.readVersion env c
        apiKey := key
        organization := (a.organization.or c.channelOrganization).getD ""
        channelCreateTime := a.channel.createdTime
        paramOverride := some (env.applyTemplate (SelectedChannel.getOverride env a.channel.paramOverride))
        headersOverride := some (SelectedChannel.getOverride env a.channel.headerOverride)
        channelSetting := a.channel.getSetting env
        channelOtherSettings := a.channel.getOtherSettings env
        upstreamModelName := a.modelName
        supportStreamOptions := a.channel.type ∈ streamSupportedChannels } := by
  obtain ⟨horganization, hindex, hversion, hquery⟩ := setup_spec env c a
  obtain ⟨region, plugin, botId, hother, hregion⟩ :=
    setOther_eq a.channel (setKey env a.channel key index (setChannel env a.channel a.modelName c))
  have hread : (initChannelMeta env (setup env c a)).apiVersion = a.readVersion env c := by
    have htype : (setup env c a).channelType = some a.channel.type := by
      rw [setup_ok h, hother]
      rfl
    unfold initChannelMeta getApiVersion Attempt.readVersion
    dsimp only
    rw [htype, hversion, hquery]
    dsimp only [Option.getD_some]
    split
    next hvertex =>
      rw [setup_ok h, hother]
      exact congrArg (Option.getD · "") (hregion hvertex)
    next hvertex =>
      split
      next hazure =>
        by_cases hquery : c.queryApiVersion = ""
        · rw [if_pos hquery, if_neg fun hand => hand.2 hquery]
        · rw [if_neg hquery, if_pos ⟨hazure, hquery⟩]
      next hazure => rw [if_neg fun hand => hazure hand.1]
  rw [← horganization, ← hindex, ← hread, setup_ok h, hother]
  rfl

/-! ### What is left -/

theorem getD_or_eq_iff {α : Type} {x y : Option α} {d : α} : (x.or y).getD d = x.getD d ↔ x.isSome ∨ y.getD d = d := by
  cases x with
  | none => exact (or_iff_right Bool.false_ne_true).symm
  | some x => exact iff_of_true rfl (.inl rfl)

theorem Attempt.organization_ne (horganization : a.organization = some "") : False := by
  unfold Attempt.organization at horganization
  split at horganization
  · split at horganization
    next hne => exact hne (Option.some.inj horganization)
    · cases horganization
  · cases horganization

theorem organization_left_iff {earlier : List Attempt} :
    (earlier.filterMap Attempt.organization).getLast?.getD "" = "" ↔ ∀ e ∈ earlier, e.organization = none := by
  rw [← List.filterMap_eq_nil_iff]
  constructor
  · intro h
    cases hlast : (earlier.filterMap Attempt.organization).getLast? with
    | none => exact List.getLast?_eq_none_iff.1 hlast
    | some organization =>
      rw [hlast] at h
      obtain rfl : organization = "" := h
      obtain ⟨e, -, he⟩ := List.mem_filterMap.1 (List.mem_of_getLast? hlast)
      exact absurd he e.organization_ne
  · intro h
    rw [h]
    rfl

section
variable {key : String} {index : Nat} (h : a.channel.getNextEnabledKey env a.draw = .ok (key, index))
include h

theorem isSome_keyIndex : (a.keyIndex env).isSome ↔ a.channel.channelInfo.isMultiKey := by
  unfold Attempt.keyIndex
  rw [h]
  cases a.channel.channelInfo.isMultiKey with
  | false => exact iff_of_false Bool.false_ne_true Bool.false_ne_true
  | true => exact iff_of_true rfl rfl

theorem isSome_apiVersion : (a.apiVersion env).isSome ↔ a.channel.type ∈ versionedTypes := by
  unfold Attempt.apiVersion
  rw [h]
  by_cases hversioned : a.channel.type ∈ versionedTypes
  · rw [if_pos ⟨hversioned, rfl⟩]
    exact iff_of_true rfl hversioned
  · rw [if_neg fun hand => hversioned hand.1]
    exact iff_of_false Bool.false_ne_true hversioned

theorem readVersion_eq_iff {fresh : ChannelContext Setting OtherSettings Override}
    (hquery : c.queryApiVersion = fresh.queryApiVersion) (hfresh : fresh.apiVersion = none) :
    a.readVersion env c = a.readVersion env fresh ↔
      a.channel.type ∈ versionedTypes ∨ a.channel.type = channelTypeVertexAi ∨ c.apiVersion.getD "" = "" := by
  unfold Attempt.readVersion
  rw [hquery, hfresh, Option.or_none]
  by_cases hvertex : a.channel.type = channelTypeVertexAi
  · rw [if_pos hvertex, if_pos hvertex]
    exact iff_of_true rfl (.inr (.inl hvertex))
  rw [if_neg hvertex, if_neg hvertex]
  by_cases hazure : a.channel.type = channelTypeAzure ∧ fresh.queryApiVersion ≠ ""
  · rw [if_pos hazure, if_pos hazure]
    have hversioned : channelTypeAzure ∈ versionedTypes := by decide
    exact iff_of_true rfl (.inl (hazure.1 ▸ hversioned))
  rw [if_neg hazure, if_neg hazure, getD_or_eq_iff, isSome_apiVersion h, or_iff_right hvertex]

end

theorem queryApiVersion_run {l : List Attempt} :
    (Run.run (setup env) c l).queryApiVersion = c.queryApiVersion := by
  induction l generalizing c with
  | nil => rfl
  | cons a l ih => exact (ih (c := setup env c a)).trans (setup_spec env c a).2.2.2

/-- After some attempts a further one reads what it reads in a fresh context just if nothing is left of the others. -/
theorem initChannelMeta_fresh_iff (env : SetupEnv Setting OtherSettings Override) (queryApiVersion : String)
    (earlier : List Attempt) (a : Attempt) {key : String} {index : Nat}
    (h : a.channel.getNextEnabledKey env a.draw = .ok (key, index)) :
    initChannelMeta env (Run.run (setup env) { queryApiVersion } (earlier ++ [a])) =
        initChannelMeta env (setup env { queryApiVersion } a) ↔
      NothingLeft env earlier a := by
  rw [Run.run_append]
  change initChannelMeta env (setup env (Run.run (setup env) { queryApiVersion } earlier) a) = _ ↔ _
  generalize hc : Run.run (setup env) { queryApiVersion } earlier = c
  have horganization : c.channelOrganization = (earlier.filterMap Attempt.organization).getLast?.or none :=
    hc ▸ Run.get_run fun c a => (setup_spec env c a).1
  have hindex : c.channelMultiKeyIndex = (earlier.filterMap (Attempt.keyIndex env)).getLast?.or none :=
    hc ▸ Run.get_run fun c a => (setup_spec env c a).2.1
  have hversion : c.apiVersion = (earlier.filterMap (Attempt.apiVersion env)).getLast?.or none :=
    hc ▸ Run.get_run fun c a => (setup_spec env c a).2.2.1
  have hquery : c.queryApiVersion = queryApiVersion := hc ▸ queryApiVersion_run
  rw [Option.or_none] at horganization hindex hversion
  rw [initChannelMeta_setup h, initChannelMeta_setup h]
  simp only [ChannelMeta.mk.injEq, true_and, and_true]
  rw [Option.or_none, Option.or_none, getD_or_eq_iff, getD_or_eq_iff, readVersion_eq_iff h hquery rfl,
    isSome_keyIndex h, horganization, organization_left_iff, hindex, hversion]
  exact ⟨fun ⟨hindex, hversion, horganization⟩ => ⟨horganization, hindex, hversion⟩,
    fun hleft => ⟨hleft.keyIndex, hleft.apiVersion, hleft.organization⟩⟩

end

/-! ### Two attempts -/

/-- Settings and overrides that say nothing. -/
def noSettings : SetupEnv Unit Unit Unit :=
  { jsonArray := fun _ => none
    emptySetting := (), setting := fun _ => ()
    emptyOtherSettings := (), otherSettings := fun _ => ()
    emptyOverride := (), override := fun _ => () }

/-- A channel with two keys, of which the second one is drawn. -/
def geminiAttempt : Attempt :=
  { channel :=
      { id := 1, key := "k0\nk1", status := .enabled, models := "m", group := "default", type := channelTypeGemini
        channelInfo := { isMultiKey := true, multiKeySize := 2 }
        openAIOrganization := some "org-a", other := "v1beta" }
    draw := { rand := 1 }, modelName := "m" }

/-- A channel with a key and an organization. -/
def azureAttempt (organization : Option String) : Attempt :=
  { channel :=
      { id := 2, key := "k", status := .enabled, models := "m", group := "default", type := channelTypeAzure
        openAIOrganization := organization, other := "2024-06-01" }
    modelName := "m" }

/-- A retry that sets an organization and a version, after an attempt that drew the first key. -/
theorem initChannelMeta_fresh_azure :
    initChannelMeta noSettings
        (Run.run (setup noSettings) {} ([{ geminiAttempt with draw := {} }] ++ [azureAttempt (some "org-b")])) =
      initChannelMeta noSettings (setup noSettings {} (azureAttempt (some "org-b"))) := by
  have hkey : (azureAttempt (some "org-b")).channel.getNextEnabledKey noSettings {} = .ok ("k", 0) := rfl
  refine (initChannelMeta_fresh_iff noSettings "" [{ geminiAttempt with draw := {} }] _ hkey).2 ⟨.inl rfl, .inr ?_, .inl ?_⟩
  · decide
  · decide

/-- A retry reads the organization and the index of the key that an earlier attempt has set, and where its channel has
no version, that too. -/
theorem initChannelMeta_left :
    let azure := initChannelMeta noSettings (Run.run (setup noSettings) {} [geminiAttempt, azureAttempt none])
    let openAI : Attempt := { azureAttempt none with channel := { (azureAttempt none).channel with type := 1 } }
    azure.organization = "org-a" ∧ azure.channelMultiKeyIndex = 1 ∧ azure.channelIsMultiKey = false ∧
      azure ≠ initChannelMeta noSettings (setup noSettings {} (azureAttempt none)) ∧
      (initChannelMeta noSettings (Run.run (setup noSettings) {} [geminiAttempt, openAI])).apiVersion = "v1beta" ∧
      (initChannelMeta noSettings (setup noSettings {} openAI)).apiVersion = "" := by
  decide

end NewApi.ChannelSetup

import NewApi.Channel.Model

/-!
# Maintaining channels

The functions that create, edit, enable, disable and delete channels, each with its own way of
bringing the abilities along: adding the rows of one channel, deleting and adding them again, one
`UPDATE` by channel or by tag, or nothing. Partial updates follow the ORM: a struct update skips its
zero values, a pointer is zero only when it is nil.
-/

namespace NewApi

/-! ## Keys -/

/-- `strings.Trim(s, "\n")`. -/
def trimNewlines (s : String) : String :=
  String.ofList ((s.toList.dropWhile (· = '\n')).reverse.dropWhile (· = '\n')).reverse

namespace Channel

section
-- the decoding of a JSON array into the texts of its elements
variable (jsonArray : String → Option (List String))

/-- `GetKeys`: a JSON array of keys, or one key a line. -/
def getKeys (c : Channel) : List String :=
  let trimmed := GoString.trimSpace c.key
  if c.key = "" then []
  else
    match if GoString.hasPrefix trimmed "[" then jsonArray trimmed else none with
    | some arr => arr
    | none => GoString.split '\n' (trimNewlines c.key)

/-- The keys as `Update` counts them, where an empty array counts as one line. -/
def countKeys (keyStr : String) : Nat :=
  let trimmed := GoString.trimSpace keyStr
  if keyStr = "" then 0
  else
    match if GoString.hasPrefix trimmed "[" then jsonArray trimmed else none with
    | some (k :: ks) => (k :: ks).length
    | _ => (GoString.split '\n' (trimNewlines keyStr)).length

/-- The status list of a channel after `handlerMultiKeyUpdate`: the entry of the key used, or of the
first key when it is not found, is removed or set. -/
def keyStatuses (c : Channel) (usingKey : String) (status : ChannelStatus) :
    Table (Prod.fst : Nat × ChannelStatus → Nat) :=
  let keyIndex := ((c.getKeys jsonArray).idxOf? usingKey).getD 0
  let others := c.channelInfo.multiKeyStatusList.filter fun e => e.1 ≠ keyIndex
  if status = .enabled then others else others.insertNew (keyIndex, status)

/-- `handlerMultiKeyUpdate`: a channel of which every key is disabled is disabled itself. -/
def handlerMultiKeyUpdate (c : Channel) (usingKey : String) (status : ChannelStatus) : Channel :=
  if c.getKeys jsonArray = [] then { c with status := status }
  else
    let list := c.keyStatuses jsonArray usingKey status
    { c with
      channelInfo := { c.channelInfo with multiKeyStatusList := list }
      status := if list.rows.length ≥ c.channelInfo.multiKeySize then .autoDisabled else c.status }

/-- The row that `UpdateChannelStatus` saves. -/
def statusUpdated (c : Channel) (usingKey : String) (status : ChannelStatus) : Channel :=
  if c.channelInfo.isMultiKey then c.handlerMultiKeyUpdate jsonArray usingKey status
  else { c with status := status }

/-- `Update`, before the store is touched: the key count of a multi-key channel is taken again, from
its new keys or from the stored ones, and status entries beyond it are dropped. -/
def recount (c : Channel) (stored : Option Channel) : Channel :=
  if c.channelInfo.isMultiKey then
    let keyStr := if c.key ≠ "" then c.key else (stored.map Channel.key).getD ""
    let size := countKeys jsonArray keyStr
    { c with
      channelInfo := { c.channelInfo with
        multiKeySize := size
        multiKeyStatusList := c.channelInfo.multiKeyStatusList.filter fun e => e.1 < size } }
  else c

end

/-- The row that `Create` stores: zero values take the column defaults. -/
def withDefaults (c : Channel) : Channel :=
  { c with
    status := if c.status = .unknown then .enabled else c.status
    weight := some c.getWeight
    group := if c.group = "" then "default" else c.group
    priority := some c.getPriority }

/-- A struct update of a row: the zero values of `upd` leave the row's columns. -/
def updates (upd row : Channel) : Channel :=
  { id := row.id
    key := if upd.key = "" then row.key else upd.key
    status := if upd.status = .unknown then row.status else upd.status
    weight := upd.weight <|> row.weight
    models := if upd.models = "" then row.models else upd.models
    group := if upd.group = "" then row.group else upd.group
    priority := upd.priority <|> row.priority
    tag := upd.tag <|> row.tag
    channelInfo := if upd.channelInfo = {} then row.channelInfo else upd.channelInfo }

/-- A row with another status, and with the key statuses that go with it. -/
def withStatus (status : ChannelStatus) (info : ChannelInfo) (c : Channel) : Channel :=
  { c with status := status, channelInfo := info }

/-- A row with another tag. -/
def withTag (tag : Option String) (c : Channel) : Channel := { c with tag := tag }

@[simp] theorem withStatus_id (status : ChannelStatus) (info : ChannelInfo) (c : Channel) :
    (c.withStatus status info).id = c.id := rfl

@[simp] theorem withTag_id (tag : Option String) (c : Channel) : (c.withTag tag).id = c.id := rfl

@[simp] theorem updates_id (upd row : Channel) : (updates upd row).id = row.id := rfl

end Channel

namespace ChannelStore

/-! ## Abilities -/

/-- `AddAbilities`. -/
def addAbilities (c : Channel) (t : Table Ability.key) : Table Ability.key :=
  t.insertAll c.abilityRows

/-- `UpdateAbilities`: delete the abilities of the channel, then add them again. -/
def updateAbilities (c : Channel) (t : Table Ability.key) : Table Ability.key :=
  addAbilities c (t.filter fun a => a.channelId ≠ c.id)

/-- A row with another `enabled` column. -/
def withEnabled (enabled : Bool) (a : Ability) : Ability := { a with enabled := enabled }

@[simp] theorem withEnabled_key (enabled : Bool) (a : Ability) :
    (withEnabled enabled a).key = a.key := rfl

/-- `UpdateAbilityStatus`. -/
def updateAbilityStatus (channelId : Nat) (status : Bool) (t : Table Ability.key) :
    Table Ability.key :=
  t.modifyWhere (fun a => a.channelId = channelId) (withEnabled status) (withEnabled_key status)

/-- `UpdateAbilityStatusByTag`. -/
def updateAbilityStatusByTag (tag : String) (status : Bool) (t : Table Ability.key) :
    Table Ability.key :=
  t.modifyWhere (fun a => a.tag = some tag) (withEnabled status) (withEnabled_key status)

/-- The columns `UpdateAbilityByTag` writes. Its weight is no pointer, so a weight of zero is a zero
value and is skipped. -/
def abilityEdit (newTag : Option String) (priority : Option Int) (weight : Option Nat)
    (a : Ability) : Ability :=
  { a with
    tag := newTag <|> a.tag
    priority := priority.getD a.priority
    weight := if weight.getD 0 = 0 then a.weight else weight.getD 0 }

@[simp] theorem abilityEdit_key (newTag : Option String) (priority : Option Int)
    (weight : Option Nat) (a : Ability) : (abilityEdit newTag priority weight a).key = a.key := rfl

/-- `UpdateAbilityByTag`. -/
def updateAbilityByTag (tag : String) (newTag : Option String) (priority : Option Int)
    (weight : Option Nat) (t : Table Ability.key) : Table Ability.key :=
  t.modifyWhere (fun a => a.tag = some tag) (abilityEdit newTag priority weight)
    (abilityEdit_key newTag priority weight)

/-! ## Creating and editing one channel -/

/-- `Insert`. The id is the one the database assigns; an id that is taken is an error. -/
def insert (c : Channel) (s : ChannelStore) : ChannelStore :=
  if (s.channels.get? c.id).isSome then s
  else
    { channels := s.channels.insertNew c.withDefaults
      abilities := addAbilities c.withDefaults s.abilities }

/-- `Update`. The row is read back before its abilities are rebuilt; for an id that no row has, the
argument itself stands in for it. -/
def update (jsonArray : String → Option (List String)) (c : Channel) (s : ChannelStore) :
    ChannelStore :=
  let c := c.recount jsonArray (s.channels.get? c.id)
  -- a struct update with no key and no condition is an error
  if c.id = 0 then s
  else
    let channels := s.channels.modify c.id (Channel.updates c) (Channel.updates_id c)
    { channels := channels
      abilities := updateAbilities ((channels.get? c.id).getD c) s.abilities }

/-- What the memory cache says about a channel when its status is updated. -/
inductive CachedChannel
  | disabled
  | missing
  | multiKey
  | single (status : ChannelStatus)
deriving DecidableEq

/-- Whether `UpdateChannelStatus` returns on the cache alone. -/
def CachedChannel.settles (cached : CachedChannel) (status : ChannelStatus) : Bool :=
  match cached with
  | disabled | multiKey => false
  | missing => true
  | single st => st = status

/-- `UpdateChannelStatus`. The abilities are enabled or disabled with the status asked for. -/
def updateChannelStatus (jsonArray : String → Option (List String)) (cached : CachedChannel)
    (channelId : Nat) (usingKey : String) (status : ChannelStatus) (s : ChannelStore) :
    ChannelStore :=
  if cached.settles status then s
  else
    match s.channels.get? channelId with
    | none => s
    | some channel =>
      if channel.status = status then s
      else
        let saved := channel.statusUpdated jsonArray usingKey status
        let shouldUpdateAbilities := !channel.channelInfo.isMultiKey || channel.status ≠ saved.status
        { channels := s.channels.modify channelId
            (Channel.withStatus saved.status saved.channelInfo)
            (Channel.withStatus_id saved.status saved.channelInfo)
          abilities :=
            if shouldUpdateAbilities then
              updateAbilityStatus channelId (status = .enabled) s.abilities
            else s.abilities }

/-! ## Editing by tag -/

/-- The channels of a tag get a status. -/
def setStatusByTag (tag : String) (status : ChannelStatus) (s : ChannelStore) : ChannelStore where
  channels := s.channels.modifyWhere (fun c => c.tag = some tag)
    (fun c => c.withStatus status c.channelInfo) fun c => c.withStatus_id status c.channelInfo
  abilities := updateAbilityStatusByTag tag (status = .enabled) s.abilities

/-- `EnableChannelByTag`. -/
def enableChannelByTag (tag : String) : ChannelStore → ChannelStore := setStatusByTag tag .enabled

/-- `DisableChannelByTag`. -/
def disableChannelByTag (tag : String) : ChannelStore → ChannelStore :=
  setStatusByTag tag .manuallyDisabled

/-- The columns of an edit by tag that the mirror depends on. -/
structure TagEdit where
  newTag : Option String := none
  models : Option String := none
  group : Option String := none
  priority : Option Int := none
  weight : Option Nat := none

namespace TagEdit

/-- The tag of the channels after the edit. -/
def updatedTag (e : TagEdit) (tag : String) : String := e.newTag.getD tag

/-- Whether the edit changes models or groups, so that abilities are created again. -/
def shouldReCreateAbilities (e : TagEdit) : Bool :=
  e.models.any (· ≠ "") || e.group.any (· ≠ "")

/-- The row after the edit. A new tag equal to the old one is not written. -/
def apply (e : TagEdit) (tag : String) (c : Channel) : Channel :=
  { c with
    tag := if e.newTag.any (· ≠ tag) then e.newTag else c.tag
    models := if e.models.any (· ≠ "") then e.models.getD "" else c.models
    group := if e.group.any (· ≠ "") then e.group.getD "" else c.group
    priority := e.priority <|> c.priority
    weight := e.weight <|> c.weight }

@[simp] theorem apply_id (e : TagEdit) (tag : String) (c : Channel) : (e.apply tag c).id = c.id := rfl

end TagEdit

/-- `EditChannelByTag`. Abilities are created again for every channel that has the tag afterwards, or
updated in place by the old tag. -/
def editChannelByTag (tag : String) (e : TagEdit) (s : ChannelStore) : ChannelStore :=
  let channels := s.channels.modifyWhere (fun c => c.tag = some tag) (e.apply tag) (e.apply_id tag)
  if e.shouldReCreateAbilities then
    let edited := channels.rows.filter fun c => c.tag = some (e.updatedTag tag)
    { channels := channels
      abilities := edited.foldl (fun t c => updateAbilities c t) s.abilities }
  else
    { channels := channels
      abilities := updateAbilityByTag tag e.newTag e.priority e.weight s.abilities }

/-- `BatchSetChannelTag`. The channels are read outside the transaction that has just changed their
tags, so the abilities are created from the rows as they were. -/
def batchSetChannelTag (ids : List Nat) (tag : Option String) (s : ChannelStore) : ChannelStore where
  channels := s.channels.modifyWhere (fun c => c.id ∈ ids) (Channel.withTag tag)
    (Channel.withTag_id tag)
  abilities := (s.channels.rows.filter fun c => c.id ∈ ids).foldl
    (fun t c => updateAbilities c t) s.abilities

/-! ## Deleting -/

/-- `Delete`. -/
def delete (channelId : Nat) (s : ChannelStore) : ChannelStore :=
  if channelId = 0 then s
  else
    { channels := s.channels.filter fun c => c.id ≠ channelId
      abilities := s.abilities.filter fun a => a.channelId ≠ channelId }

/-- `DeleteChannelByStatus`. -/
def deleteChannelByStatus (status : ChannelStatus) (s : ChannelStore) : ChannelStore :=
  { s with channels := s.channels.filter fun c => c.status ≠ status }

/-- `DeleteDisabledChannel`. -/
def deleteDisabledChannel (s : ChannelStore) : ChannelStore :=
  { s with
    channels := s.channels.filter fun c =>
      ¬ (c.status = .autoDisabled ∨ c.status = .manuallyDisabled) }

end ChannelStore

end NewApi

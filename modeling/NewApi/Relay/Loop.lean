import NewApi.Channel.Draw
import NewApi.Relay.Select

/-!
# The retry loop of a relayed request

`Distribute` finds the channel of the first attempt: the one that the token names, the one that the affinity of the
client prefers, or one that `CacheGetRandomSatisfiedChannel` selects. `Relay` prices the request and then tries: the
first time the channel of the context, and while the attempts fail in a way that may be retried, channels that
`getChannel` selects. Each iteration meets its own `Round`: what the channel tables and the settings answer at that
time, and how the attempt ends.
-/

namespace NewApi.Relay

/-- An error of a relayed request. -/
structure NewAPIError where
  message : String
  errorCode : String
  statusCode : Int := 500
  skipRetry : Bool := false
deriving DecidableEq

/-! ## Group ratios -/

/-- The ratio settings. -/
structure GroupRatios where
  groupGroupRatio : String → String → Option ℚ
  groupRatio : String → ℚ

/-- `GroupRatioInfo`. -/
structure GroupRatioInfo where
  groupRatio : ℚ
  groupSpecialRatio : ℚ := -1
  hasSpecialRatio : Bool := false
deriving DecidableEq

/-- The ratio of a group for a user. -/
def GroupRatios.ratioInfo (ratios : GroupRatios) (userGroup usingGroup : String) : GroupRatioInfo :=
  match ratios.groupGroupRatio userGroup usingGroup with
  | some ratio => { groupRatio := ratio, groupSpecialRatio := ratio, hasSpecialRatio := true }
  | none => { groupRatio := ratios.groupRatio usingGroup }

/-- `HandleGroupRatio`, with the group that `UsingGroup` becomes. -/
def handleGroupRatio (ratios : GroupRatios) (userGroup : String) (ctx : Context) (usingGroup : String) :
    GroupRatioInfo × String :=
  let usingGroup := ctx.autoGroup.getD usingGroup
  (ratios.ratioInfo userGroup usingGroup, usingGroup)

/-! ## Attempts -/

/-- Who has chosen the channel of an attempt. -/
inductive Chooser
  | specific
  | preferred
  | distributed
  | loop
deriving DecidableEq

/-- A channel that is tried; `position` is the index of its group. -/
structure Attempt where
  channel : Nat
  group : String
  position : Option Nat
  chooser : Chooser
deriving DecidableEq

/-- What `Distribute` meets: the channel that the affinity of the client prefers, which is cached and enabled, the
groups that it is enabled for, and the channel tables. -/
structure Distribution where
  preferred : Option Nat := none
  enabledFor : String → Bool := fun _ => false
  pick : Picker

/-- The first group that a preferred channel is enabled for. -/
def Distribution.preferredGroup (r : Request) (d : Distribution) : Option (Nat × String × Nat) :=
  match d.preferred with
  | none => none
  | some id => (r.groups.zipIdx.find? fun g => d.enabledFor g.1).map fun g => (id, g)

/-- `Distribute`: the context and the channel that a request goes on with, unless it is aborted. -/
def distribute (r : Request) (d : Distribution) : Option (Context × Attempt) :=
  match r.specificChannelId with
  | some id => some ({}, ⟨id, r.tokenGroup, none, .specific⟩)
  | none =>
    match d.preferredGroup r with
    | some (id, g, i) =>
      some ({ autoGroup := if r.tokenGroup = "auto" then some g else none }, ⟨id, g, some i, .preferred⟩)
    | none =>
      let (selection, state) := cacheGetRandomSatisfiedChannel r d.pick {}
      match selection.err, selection.channel with
      | none, some id => some (state.ctx, ⟨id, selection.selectGroup, selection.position, .distributed⟩)
      | _, _ => none

/-- The variables of `Relay` and the fields of `RelayInfo` that its loop reads and writes. `first` is the channel of
the context, `attempts` is `use_channel`. -/
structure Loop where
  retry : RetryState
  channelMeta : Bool := false
  usingGroup : String
  groupRatioInfo : GroupRatioInfo
  first : Attempt
  attempts : List Attempt := []
  newAPIError : Option NewAPIError := none

/-- The start of the loop: the request has been distributed, and `ModelPriceHelper` has asked for the ratio. -/
def start (r : Request) (ratios : GroupRatios) (d : Distribution) : Option Loop :=
  (distribute r d).map fun (ctx, first) =>
    let (groupRatioInfo, usingGroup) := handleGroupRatio ratios r.userGroup ctx r.tokenGroup
    { retry := { ctx }, usingGroup, groupRatioInfo, first }

/-- What one iteration meets: what the channel tables and the ratio settings answer, the error of
`SetupContextForSelectedChannel`, that of reading the body, and that of the attempt, after
`NormalizeViolationFeeError`. -/
structure Round where
  pick : Picker
  ratios : GroupRatios
  setup : Option NewAPIError := none
  body : Option NewAPIError := none
  relayError : Option NewAPIError := none

/-- `getChannel`. -/
def getChannel (r : Request) (c : Round) (s : Loop) : Except NewAPIError Attempt × Loop :=
  if s.channelMeta = false then (.ok s.first, s)
  else
    let (selection, retry) := cacheGetRandomSatisfiedChannel r c.pick s.retry
    let (groupRatioInfo, usingGroup) := handleGroupRatio c.ratios r.userGroup retry.ctx s.usingGroup
    let s := { s with retry, usingGroup, groupRatioInfo }
    match selection.err, selection.channel with
    | some err, _ =>
      (.error
        { message := "获取分组 " ++ selection.selectGroup ++ " 下模型 " ++ r.modelName ++
            " 的可用渠道失败（retry）: " ++ err
          errorCode := "get_channel_failed"
          skipRetry := true }, s)
    | none, none =>
      (.error
        { message := "分组 " ++ selection.selectGroup ++ " 下模型 " ++ r.modelName ++ " 的可用渠道不存在（retry）"
          errorCode := "get_channel_failed"
          skipRetry := true }, s)
    | none, some id =>
      match c.setup with
      | some e => (.error e, s)
      | none => (.ok ⟨id, selection.selectGroup, selection.position, .loop⟩, s)

/-- `shouldMatchStatusCodeRanges`. -/
def shouldMatchStatusCodeRanges (code : Int) : List (Int × Int) → Bool
  | [] => false
  | (first, last) :: ranges =>
    if code < 100 ∨ code > 599 ∨ code < first then false
    else if code ≤ last then true
    else shouldMatchStatusCodeRanges code ranges

/-- `shouldRetry`, of an error. -/
def shouldRetry (r : Request) (e : NewAPIError) (retryTimes : Int) : Bool :=
  if r.skipRetryAfterAffinity then false
  else if GoString.hasPrefix e.errorCode "channel:" then true
  else if e.skipRetry then false
  else if retryTimes ≤ 0 then false
  else if r.specificChannelId.isSome then false
  else if 200 ≤ e.statusCode ∧ e.statusCode < 300 then false
  else if e.statusCode < 100 ∨ e.statusCode > 599 then true
  else if e.errorCode = "bad_response_body" then false
  else shouldMatchStatusCodeRanges e.statusCode r.automaticRetryStatusCodeRanges

/-- How an iteration ends: `break` or `return`, or the next one. -/
inductive Next
  | stop (s : Loop)
  | again (s : Loop)

/-- One iteration of the loop in `Relay`. The relay handlers set `ChannelMeta` first. -/
def iterate (r : Request) (c : Round) (s : Loop) : Next :=
  match getChannel r c s with
  | (.error e, s) => .stop { s with newAPIError := some e }
  | (.ok attempt, s) =>
    let s := { s with attempts := s.attempts ++ [attempt] }
    match c.body with
    | some e => .stop { s with newAPIError := some e }
    | none =>
      let s := { s with channelMeta := true, newAPIError := c.relayError }
      match c.relayError with
      | none => .stop s
      | some e =>
        if shouldRetry r e (r.retryTimes - s.retry.param.getRetry) then
          .again { s with retry := { s.retry with param := s.retry.param.increaseRetry } }
        else .stop s

/-- The loop, for a number of iterations; `none` when they do not suffice. -/
def relayLoop (r : Request) : Nat → (Nat → Round) → Loop → Option Loop
  | 0, _, _ => none
  | fuel + 1, rounds, s =>
    if (s.retry.param.getRetry : Int) ≤ r.retryTimes then
      match iterate r (rounds 0) s with
      | .stop s' => some s'
      | .again s' => relayLoop r fuel (fun k => rounds (k + 1)) s'
    else some s

end NewApi.Relay

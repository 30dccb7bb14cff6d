import NewApi.Lib.RoundRobin
import NewApi.Relay.ChannelMeta

/-!
# Polling the keys of a channel

A channel of several keys takes the next enabled one from its polling index on, and leaves the index behind it. The
index is read from the cache, or from the database where there is no cache, and it is kept in the cached channel, or
saved. A channel that is neither cached nor stored has no index, and a failed save is ignored. Where each call reads the
index and it is kept, the enabled keys take turns (`selects_enabled_key`).
-/

namespace NewApi.ChannelSetup

/-- What a call meets: the error of the lookup of the channel's information, if it fails, and whether the new index is
kept. It is not where saving fails, or where the channel has been replaced in the cache. -/
structure PollCall where
  lookup : Option String := none
  kept : Bool := true

def PollCall.draw (call : PollCall) (index : Int) : KeyDraw where
  pollingIndex :=
    match call.lookup with
    | some err => .error err
    | none => .ok index

namespace SelectedChannel

variable {Setting OtherSettings Override : Type} (env : SetupEnv Setting OtherSettings Override)

/-- The index of a key is enabled. -/
def isEnabled (channel : SelectedChannel) (idx : Nat) : Bool := channel.keyStatus idx = .enabled

/-- Where the scan starts. -/
def scanStart (index : Int) (n : Nat) : Nat := if index < 0 ∨ index ≥ n then 0 else index.toNat

/-- The polling index that `GetNextEnabledKey` leaves in the channel. -/
def nextPollingIndex (channel : SelectedChannel) (index : Int) : Int :=
  let n := (channel.getKeys env).length
  match (pollingOrder (scanStart index n) n).find? channel.isEnabled with
  | some idx => ((idx + 1) % n : Nat)
  | none => index

/-- Calls of `GetNextEnabledKey` for one channel, one after the other, and what they return. -/
def polls (channel : SelectedChannel) : Int → List PollCall → List (Except String (String × Nat))
  | _, [] => []
  | index, call :: calls =>
    channel.getNextEnabledKey env (call.draw index) ::
      channel.polls (if call.lookup = none ∧ call.kept then channel.nextPollingIndex env index else index) calls

/-- The enabled keys, with their indices. -/
def enabledKeys (channel : SelectedChannel) : List (String × Nat) :=
  ((List.range (channel.getKeys env).length).filter channel.isEnabled).map fun idx =>
    ((channel.getKeys env).getD idx "", idx)

section
variable {env} {channel : SelectedChannel} {draw : KeyDraw} {key : String} {idx : Nat} {err : String} {index : Int}

theorem mem_enabledKeys :
    (key, idx) ∈ channel.enabledKeys env ↔ (channel.getKeys env)[idx]? = some key ∧ channel.keyStatus idx = .enabled := by
  have hkey : (channel.getKeys env)[idx]? = some key ↔
      idx < (channel.getKeys env).length ∧ (channel.getKeys env).getD idx "" = key := by
    rw [List.getElem?_eq_some_iff, List.getD_eq_getElem?_getD]
    refine ⟨fun ⟨hlt, hget⟩ => ⟨hlt, ?_⟩, fun ⟨hlt, hget⟩ => ⟨hlt, ?_⟩⟩
    · rw [List.getElem?_eq_getElem hlt, hget, Option.getD_some]
    · rwa [List.getElem?_eq_getElem hlt, Option.getD_some] at hget
  rw [hkey, enabledKeys, List.mem_map]
  constructor
  · rintro ⟨i, hi, heq⟩
    obtain ⟨rfl, rfl⟩ := Prod.mk.inj heq
    obtain ⟨hlt, henabled⟩ := List.mem_filter.1 hi
    exact ⟨⟨List.mem_range.1 hlt, rfl⟩, of_decide_eq_true henabled⟩
  · rintro ⟨⟨hlt, rfl⟩, henabled⟩
    exact ⟨idx, List.mem_filter.2 ⟨List.mem_range.2 hlt, decide_eq_true henabled⟩, rfl⟩

theorem enabledKeys_eq_nil : channel.enabledKeys env = [] ↔
    (List.range (channel.getKeys env).length).filter channel.isEnabled = [] := List.map_eq_nil_iff

theorem scan_mem {start n first : Nat} (hfirst : first ∈ (List.range n).filter channel.isEnabled) :
    ((pollingOrder start n).find? channel.isEnabled).getD first ∈ (List.range n).filter channel.isEnabled := by
  cases hfind : (pollingOrder start n).find? channel.isEnabled with
  | none => exact hfirst
  | some i =>
    exact List.mem_filter.2
      ⟨RoundRobin.order_perm.mem_iff.1 (List.mem_of_find?_eq_some hfind), List.find?_some hfind⟩

theorem getNextEnabledKey_cases (hmulti : channel.channelInfo.isMultiKey) :
    (∃ i ∈ (List.range (channel.getKeys env).length).filter channel.isEnabled,
      channel.getNextEnabledKey env draw = .ok ((channel.getKeys env).getD i "", i)) ∨
    ∃ err, channel.getNextEnabledKey env draw = .error err ∧
      (channel.enabledKeys env = [] ∨ channel.multiKeyMode = .polling ∧ draw.pollingIndex = .error err) := by
  unfold getNextEnabledKey
  rw [if_neg (not_not.2 hmulti)]
  dsimp only
  split
  next hkeys => exact .inr ⟨_, rfl, .inl (by rw [enabledKeys, hkeys]; rfl)⟩
  split
  next hnone => exact .inr ⟨_, rfl, .inl (enabledKeys_eq_nil.2 hnone)⟩
  next first rest hfilter =>
    have hmem : ∀ i ∈ first :: rest, i ∈ (List.range (channel.getKeys env).length).filter channel.isEnabled :=
      fun i hi => (show _ = first :: rest from hfilter) ▸ hi
    split
    · have hlt : draw.rand % (rest.length + 1) < (first :: rest).length := Nat.mod_lt _ (Nat.succ_pos _)
      refine .inl ⟨_, hmem _ ?_, rfl⟩
      rw [List.getD_eq_getElem?_getD, List.getElem?_eq_getElem hlt, Option.getD_some]
      exact List.getElem_mem _
    next hpolling =>
      split
      next err hindex => exact .inr ⟨err, rfl, .inr ⟨hpolling, hindex⟩⟩
      next index hindex => exact .inl ⟨_, scan_mem (hmem _ List.mem_cons_self), rfl⟩
    · exact .inl ⟨first, hmem _ List.mem_cons_self, rfl⟩

theorem getNextEnabledKey_polling (hmulti : channel.channelInfo.isMultiKey) (hpolling : channel.multiKeyMode = .polling)
    (hindex : draw.pollingIndex = .ok index) {i : Nat}
    (hfind : (pollingOrder (scanStart index (channel.getKeys env).length) (channel.getKeys env).length).find?
      channel.isEnabled = some i) :
    channel.getNextEnabledKey env draw = .ok ((channel.getKeys env).getD i "", i) := by
  have hmem := List.mem_filter.2
    ⟨RoundRobin.order_perm.mem_iff.1 (List.mem_of_find?_eq_some hfind), List.find?_some hfind⟩
  have hkeys : channel.getKeys env ≠ [] := by
    intro hnil
    rw [hnil] at hmem
    exact absurd hmem List.not_mem_nil
  unfold getNextEnabledKey
  rw [if_neg (not_not.2 hmulti)]
  dsimp only
  rw [if_neg hkeys, hpolling, hindex]
  dsimp only
  split
  next hnone =>
    exact absurd ((show _ = [] from hnone) ▸ hmem) List.not_mem_nil
  next first rest _ =>
    have hscan : ((pollingOrder (scanStart index (channel.getKeys env).length) (channel.getKeys env).length).find?
        channel.isEnabled).getD first = i := by rw [hfind, Option.getD_some]
    exact congrArg (fun i => Except.ok ((channel.getKeys env).getD i "", i)) hscan

theorem scanStart_natCast {k n : Nat} (h : k < n) : scanStart (k : Int) n = k := by
  rw [scanStart, if_neg (by omega), Int.toNat_natCast]

theorem polls_eq (hmulti : channel.channelInfo.isMultiKey) (hpolling : channel.multiKeyMode = .polling)
    {calls : List PollCall} (hcalls : ∀ call ∈ calls, call.lookup = none ∧ call.kept)
    (hsome : channel.enabledKeys env ≠ []) :
    channel.polls env index calls =
      (RoundRobin.turns channel.isEnabled (channel.getKeys env).length calls.length
        (scanStart index (channel.getKeys env).length)).map fun i => .ok ((channel.getKeys env).getD i "", i) := by
  induction calls generalizing index with
  | nil => rfl
  | cons call calls ih =>
    rw [List.forall_mem_cons] at hcalls
    obtain ⟨i, hi⟩ := List.exists_mem_of_ne_nil _ (mt enabledKeys_eq_nil.2 hsome)
    obtain ⟨hi, henabled⟩ := List.mem_filter.1 hi
    have hpos : 0 < (channel.getKeys env).length := (Nat.zero_le i).trans_lt (List.mem_range.1 hi)
    have hdraw : (call.draw index).pollingIndex = .ok index := by rw [PollCall.draw, hcalls.1.1]
    cases hfind : (pollingOrder (scanStart index (channel.getKeys env).length) (channel.getKeys env).length).find?
        channel.isEnabled with
    | none => exact absurd henabled (List.find?_eq_none.1 hfind i (RoundRobin.order_perm.mem_iff.2 hi))
    | some j =>
      have hnext : channel.nextPollingIndex env index = ((j + 1) % (channel.getKeys env).length : Nat) := by
        simp only [nextPollingIndex, hfind]
      have hturn : (RoundRobin.order (channel.getKeys env).length (scanStart index (channel.getKeys env).length)).find?
          channel.isEnabled = some j := hfind
      rw [polls, if_pos hcalls.1, getNextEnabledKey_polling hmulti hpolling hdraw hfind, ih hcalls.2, hnext,
        scanStart_natCast (Nat.mod_lt _ hpos), List.length_cons, RoundRobin.turns, hturn, List.map_cons]

/-- A key that is returned is enabled. An error is returned only where no key is enabled, or where polling cannot read
the index. Where each call reads it, and leaves the next one for the call behind it, as many calls as there are enabled
keys return each of them once. -/
theorem selects_enabled_key (hmulti : channel.channelInfo.isMultiKey) :
    (∀ draw, match channel.getNextEnabledKey env draw with
      | .ok (key, idx) => (channel.getKeys env)[idx]? = some key ∧ channel.keyStatus idx = .enabled
      | .error err => (∀ idx < (channel.getKeys env).length, channel.keyStatus idx ≠ .enabled) ∨
          channel.multiKeyMode = .polling ∧ draw.pollingIndex = .error err) ∧
    (channel.multiKeyMode = .polling → ∀ index calls, calls.length = (channel.enabledKeys env).length →
      (∀ call ∈ calls, call.lookup = none ∧ call.kept) →
        (channel.polls env index calls).Perm ((channel.enabledKeys env).map .ok)) := by
  constructor
  · intro draw
    rcases @getNextEnabledKey_cases _ _ _ env channel draw hmulti with ⟨i, hi, hok⟩ | ⟨err, herror, hcause⟩
    · rw [hok]
      exact mem_enabledKeys.1 (List.mem_map_of_mem hi)
    · rw [herror]
      refine hcause.imp_left fun hnil idx hidx henabled => ?_
      have hmem : idx ∈ (List.range (channel.getKeys env).length).filter channel.isEnabled :=
        List.mem_filter.2 ⟨List.mem_range.2 hidx, decide_eq_true henabled⟩
      rw [enabledKeys_eq_nil.1 hnil] at hmem
      exact absurd hmem List.not_mem_nil
  · intro hpolling index calls hlen hcalls
    by_cases hsome : channel.enabledKeys env = []
    · rw [hsome] at hlen ⊢
      rw [List.eq_nil_of_length_eq_zero hlen]
      exact List.Perm.nil
    · rw [polls_eq hmulti hpolling hcalls hsome, RoundRobin.turns_eq (by rw [hlen, enabledKeys, List.length_map]),
        enabledKeys, List.map_map]
      exact (RoundRobin.order_perm.filter _).map _

end

/-- Three keys, of which the second is disabled. -/
def threeKeys : SelectedChannel where
  id := 1
  status := .enabled
  models := "m"
  group := "default"
  key := "a\nb\nc"
  channelInfo :=
    { isMultiKey := true
      multiKeySize := 3
      multiKeyStatusList := Table.empty.insertNew (1, .autoDisabled) }
  multiKeyMode := .polling

theorem enabledKeys_threeKeys : threeKeys.enabledKeys noSettings = [("a", 0), ("c", 2)] := by decide

theorem selects_enabled_key_threeKeys :
    (threeKeys.polls noSettings 7 [{}, {}]).Perm [.ok ("a", 0), .ok ("c", 2)] := by
  have hperm := (@selects_enabled_key _ _ _ noSettings threeKeys rfl).2 rfl 7 [{}, {}]
    (by rw [enabledKeys_threeKeys]; rfl) (by decide)
  rwa [enabledKeys_threeKeys] at hperm

/-- A channel that is gone from the cache returns an error, though a key is enabled, and an index that is not kept gives
the same key again. -/
theorem polling_without_index :
    threeKeys.getNextEnabledKey noSettings (PollCall.draw { lookup := some "渠道# 1，已不存在" } 0) =
        .error "渠道# 1，已不存在" ∧
      threeKeys.enabledKeys noSettings = [("a", 0), ("c", 2)] ∧
      threeKeys.polls noSettings 0 [{ kept := false }, {}] = [.ok ("a", 0), .ok ("a", 0)] :=
  ⟨rfl, enabledKeys_threeKeys, rfl⟩

end SelectedChannel

end NewApi.ChannelSetup

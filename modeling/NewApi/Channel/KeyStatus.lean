import NewApi.Channel.Maintain
import NewApi.Lib.Run

/-!
# The statuses of a channel's keys

A channel of several keys keeps a status for each key that is not enabled, and `UpdateChannelStatus` sets the status of
the key in use twice: in the cached channel, and in the stored row. `InStep` says that the two have the same entries and
that each is auto-disabled just when all its keys are disabled. A call keeps this under the condition of `Clean`: the key
is one of the channel's, it is not enabled in an auto-disabled channel, and the row is written where the cached channel
is (`keyStatuses_iff_clean`). A key that is not found stands for the first one, nothing brings an auto-disabled channel back,
and a row that has the status already is left as it is after the cached channel has been changed.
-/

namespace NewApi

namespace Channel

section
variable (jsonArray : String → Option (List String))

/-- The index of the key in use, as `handlerMultiKeyUpdate` looks it up. -/
def keyIndex (c : Channel) (usingKey : String) : Nat := ((c.getKeys jsonArray).idxOf? usingKey).getD 0

/-- The status of the key at an index: a key without an entry is enabled. -/
def keyStatusAt (c : Channel) (i : Nat) : ChannelStatus :=
  ((c.channelInfo.multiKeyStatusList.get? i).map Prod.snd).getD .enabled

/-- Every key is disabled. -/
def AllDisabled (c : Channel) : Prop := ∀ i < (c.getKeys jsonArray).length, c.keyStatusAt i ≠ .enabled

/-- A channel of several keys as it is created and edited: its size is the number of its keys, and each entry of its
status list is about one of them. -/
structure KeysTracked (c : Channel) : Prop where
  isMultiKey : c.channelInfo.isMultiKey
  size : c.getKeys jsonArray ≠ [] → c.channelInfo.multiKeySize = (c.getKeys jsonArray).length
  entries : c.getKeys jsonArray ≠ [] → ∀ e ∈ c.channelInfo.multiKeyStatusList,
    e.1 < (c.getKeys jsonArray).length ∧ e.2 ≠ .enabled

/-- What a call promises of a channel: the one key whose status changes is the key in use, and an auto-disabled channel
of which a key is enabled is enabled again. -/
structure StatusSet (usingKey : String) (status : ChannelStatus) (c c' : Channel) : Prop where
  changed : ∀ i, c'.keyStatusAt i ≠ c.keyStatusAt i → (c.getKeys jsonArray)[i]? = some usingKey
  one : ∀ i j, c'.keyStatusAt i ≠ c.keyStatusAt i → c'.keyStatusAt j ≠ c.keyStatusAt j → i = j
  enables : status = .enabled → usingKey ∈ c.getKeys jsonArray → c.status = .autoDisabled → c'.status = .enabled

end

section
variable {jsonArray : String → Option (List String)} {c : Channel} {usingKey : String} {status : ChannelStatus} {i : Nat}

theorem keyIndex_of_mem (h : usingKey ∈ c.getKeys jsonArray) :
    (c.getKeys jsonArray)[c.keyIndex jsonArray usingKey]? = some usingKey := by
  unfold keyIndex
  cases hidx : (c.getKeys jsonArray).idxOf? usingKey with
  | none => exact absurd h (List.idxOf?_eq_none_iff.1 hidx)
  | some k =>
    obtain ⟨hlt, hget, _⟩ := List.idxOf?_eq_some_iff.1 hidx
    exact List.getElem?_eq_some_iff.2 ⟨hlt, hget⟩

theorem keyIndex_lt (h : c.getKeys jsonArray ≠ []) :
    c.keyIndex jsonArray usingKey < (c.getKeys jsonArray).length := by
  by_cases hmem : usingKey ∈ c.getKeys jsonArray
  · exact (List.getElem?_eq_some_iff.1 (keyIndex_of_mem hmem)).1
  · rw [keyIndex, List.idxOf?_eq_none_iff.2 hmem]
    exact List.length_pos_of_ne_nil h

theorem get?_keyStatuses : (c.keyStatuses jsonArray usingKey status).get? i =
    if i = c.keyIndex jsonArray usingKey then
      if status = .enabled then none else some (c.keyIndex jsonArray usingKey, status)
    else c.channelInfo.multiKeyStatusList.get? i := by
  have hnone : (c.channelInfo.multiKeyStatusList.filter fun e => e.1 ≠ c.keyIndex jsonArray usingKey).get?
      (c.keyIndex jsonArray usingKey) = none :=
    Table.get?_eq_none.2 fun e he => (Table.mem_filter.1 he).2
  have hother : i ≠ c.keyIndex jsonArray usingKey →
      (c.channelInfo.multiKeyStatusList.filter fun e => e.1 ≠ c.keyIndex jsonArray usingKey).get? i =
        c.channelInfo.multiKeyStatusList.get? i := by
    intro hi
    rw [Table.get?_filter]
    cases hget : c.channelInfo.multiKeyStatusList.get? i with
    | none => rfl
    | some e =>
      have hne : e.1 ≠ c.keyIndex jsonArray usingKey := fun h => hi ((Table.key_of_get? hget).symm.trans h)
      rw [Option.filter_some, if_pos (decide_eq_true hne)]
  unfold keyStatuses
  dsimp only
  rw [show ((c.getKeys jsonArray).idxOf? usingKey).getD 0 = c.keyIndex jsonArray usingKey from rfl]
  by_cases hi : i = c.keyIndex jsonArray usingKey
  · rw [if_pos hi, hi]
    split
    · exact hnone
    · exact Table.get?_insertNew_self (a := (c.keyIndex jsonArray usingKey, status)) hnone
  · rw [if_neg hi]
    split
    · exact hother hi
    · rw [Table.get?_insertNew_ne (show i ≠ Prod.fst (c.keyIndex jsonArray usingKey, status) from hi), hother hi]

theorem mem_keyStatuses {e : Nat × ChannelStatus} (h : e ∈ c.keyStatuses jsonArray usingKey status) :
    e ∈ c.channelInfo.multiKeyStatusList ∨ e = (c.keyIndex jsonArray usingKey, status) ∧ status ≠ .enabled := by
  have hget := Table.get?_key h
  rw [get?_keyStatuses] at hget
  split at hget
  · split at hget
    · cases hget
    next hst => exact .inr ⟨(Option.some.inj hget).symm, hst⟩
  · exact .inl (Table.mem_of_get? hget)

/-- Where each entry is about one of the keys and disables it, the list is as long as the keys just when all are
disabled. -/
theorem KeysTracked.length_ge (hc : c.KeysTracked jsonArray) (hkeys : c.getKeys jsonArray ≠ []) :
    c.channelInfo.multiKeyStatusList.rows.length ≥ c.channelInfo.multiKeySize ↔ c.AllDisabled jsonArray := by
  have hentries := hc.entries hkeys
  rw [hc.size hkeys, ge_iff_le, Table.le_length_iff fun e he => (hentries e he).1]
  refine forall₂_congr fun i _ => ?_
  unfold keyStatusAt
  cases hget : c.channelInfo.multiKeyStatusList.get? i with
  | none => exact ⟨fun h => absurd h Bool.false_ne_true, fun h => absurd rfl h⟩
  | some e => exact ⟨fun _ => (hentries e (Table.mem_of_get? hget)).2, fun _ => rfl⟩

theorem keyStatusAt_handlerMultiKeyUpdate (hkeys : c.getKeys jsonArray ≠ []) :
    (c.handlerMultiKeyUpdate jsonArray usingKey status).keyStatusAt i =
      if i = c.keyIndex jsonArray usingKey then status else c.keyStatusAt i := by
  unfold handlerMultiKeyUpdate keyStatusAt
  rw [if_neg hkeys]
  dsimp only
  rw [get?_keyStatuses]
  split
  · split
    next hst => exact hst.symm
    · rfl
  · rfl

@[simp] theorem key_handlerMultiKeyUpdate : (c.handlerMultiKeyUpdate jsonArray usingKey status).key = c.key := by
  unfold handlerMultiKeyUpdate
  split <;> rfl

theorem getKeys_congr {c' : Channel} (h : c'.key = c.key) : c'.getKeys jsonArray = c.getKeys jsonArray := by
  unfold getKeys
  rw [h]

/-- `Update` leaves a channel of several keys tracked, where none of its entries enables a key. -/
theorem keysTracked_recount {stored : Option Channel} (hmulti : c.channelInfo.isMultiKey) (hkey : c.key ≠ "")
    (hentries : ∀ e ∈ c.channelInfo.multiKeyStatusList, e.2 ≠ .enabled) :
    (c.recount jsonArray stored).KeysTracked jsonArray := by
  have hcount : c.getKeys jsonArray ≠ [] → countKeys jsonArray c.key = (c.getKeys jsonArray).length := by
    unfold getKeys countKeys
    dsimp only
    rw [if_neg hkey, if_neg hkey]
    generalize (if GoString.hasPrefix (GoString.trimSpace c.key) "[" then jsonArray (GoString.trimSpace c.key)
      else none) = decoded
    rcases decoded with _ | _ | ⟨k, ks⟩
    · exact fun _ => rfl
    · exact fun h => absurd rfl h
    · exact fun _ => rfl
  have hkey' : (c.recount jsonArray stored).key = c.key := by
    unfold recount
    rw [if_pos hmulti]
  have hinfo : (c.recount jsonArray stored).channelInfo = { c.channelInfo with
      multiKeySize := countKeys jsonArray c.key
      multiKeyStatusList := c.channelInfo.multiKeyStatusList.filter fun e => e.1 < countKeys jsonArray c.key } := by
    unfold recount
    rw [if_pos hmulti]
    dsimp only
    rw [if_pos hkey]
  refine ⟨?_, ?_, ?_⟩
  · rw [hinfo]
    exact hmulti
  · rw [getKeys_congr hkey', hinfo]
    exact hcount
  · rw [getKeys_congr hkey', hinfo]
    intro hkeys e he
    obtain ⟨he, hlt⟩ := Table.mem_filter.1 he
    exact ⟨(hcount hkeys) ▸ hlt, hentries e he⟩

@[simp] theorem getKeys_handlerMultiKeyUpdate :
    (c.handlerMultiKeyUpdate jsonArray usingKey status).getKeys jsonArray = c.getKeys jsonArray :=
  getKeys_congr key_handlerMultiKeyUpdate

theorem KeysTracked.of_key {c' : Channel} (hc : c.KeysTracked jsonArray) (hkey : c'.key = c.key)
    (hmulti : c'.channelInfo.isMultiKey = c.channelInfo.isMultiKey)
    (hsize : c'.channelInfo.multiKeySize = c.channelInfo.multiKeySize)
    (hentries : c.getKeys jsonArray ≠ [] → ∀ e ∈ c'.channelInfo.multiKeyStatusList,
      e.1 < (c.getKeys jsonArray).length ∧ e.2 ≠ .enabled) : c'.KeysTracked jsonArray := by
  have hkeys : c'.getKeys jsonArray = c.getKeys jsonArray := getKeys_congr hkey
  refine ⟨hmulti.trans hc.isMultiKey, fun h => ?_, fun h => ?_⟩
  · rw [hkeys] at h ⊢
    exact hsize.trans (hc.size h)
  · rw [hkeys] at h ⊢
    exact hentries h

theorem KeysTracked.handlerMultiKeyUpdate (hc : c.KeysTracked jsonArray) :
    (c.handlerMultiKeyUpdate jsonArray usingKey status).KeysTracked jsonArray := by
  unfold Channel.handlerMultiKeyUpdate
  split
  · exact hc.of_key rfl rfl rfl hc.entries
  next hkeys =>
    refine hc.of_key rfl rfl rfl fun _ e he => ?_
    obtain hold | ⟨rfl, hst⟩ := mem_keyStatuses he
    · exact hc.entries hkeys e hold
    · exact ⟨keyIndex_lt hkeys, hst⟩

theorem status_handlerMultiKeyUpdate (hc : c.KeysTracked jsonArray) (hkeys : c.getKeys jsonArray ≠ []) :
    ((c.handlerMultiKeyUpdate jsonArray usingKey status).AllDisabled jsonArray →
      (c.handlerMultiKeyUpdate jsonArray usingKey status).status = .autoDisabled) ∧
    (¬ (c.handlerMultiKeyUpdate jsonArray usingKey status).AllDisabled jsonArray →
      (c.handlerMultiKeyUpdate jsonArray usingKey status).status = c.status) := by
  have hkeys' : (c.handlerMultiKeyUpdate jsonArray usingKey status).getKeys jsonArray ≠ [] := by
    rwa [getKeys_handlerMultiKeyUpdate]
  have hlen := KeysTracked.length_ge (hc.handlerMultiKeyUpdate : KeysTracked jsonArray
    (c.handlerMultiKeyUpdate jsonArray usingKey status)) hkeys'
  rw [← hlen]
  unfold Channel.handlerMultiKeyUpdate
  rw [if_neg hkeys]
  exact ⟨fun h => if_pos h, fun h => if_neg h⟩

theorem status_handlerMultiKeyUpdate_of_autoDisabled (hkeys : c.getKeys jsonArray ≠ [])
    (h : c.status = .autoDisabled) :
    (c.handlerMultiKeyUpdate jsonArray usingKey status).status = .autoDisabled := by
  unfold Channel.handlerMultiKeyUpdate
  rw [if_neg hkeys]
  dsimp only
  split
  · rfl
  · exact h

/-- The call enables a key of an auto-disabled channel. -/
def Revives (jsonArray : String → Option (List String)) (usingKey : String) (status : ChannelStatus) (c : Channel) :
    Prop :=
  status = .enabled ∧ usingKey ∈ c.getKeys jsonArray ∧ c.status = .autoDisabled

/-- The key whose status the call sets has that status: the key in use, or the first one where it is not found. -/
def Settled (jsonArray : String → Option (List String)) (usingKey : String) (status : ChannelStatus) (c : Channel) :
    Prop :=
  if c.getKeys jsonArray = [] then status = .autoDisabled
  else c.keyStatusAt (c.keyIndex jsonArray usingKey) = status

/-- What an update of one copy promises, and that it stays auto-disabled just when all keys are disabled. -/
theorem statusSet_handlerMultiKeyUpdate (hc : c.KeysTracked jsonArray)
    (hauto : c.status = .autoDisabled ↔ c.AllDisabled jsonArray) :
    c.StatusSet jsonArray usingKey status (c.handlerMultiKeyUpdate jsonArray usingKey status) ∧
        ((c.handlerMultiKeyUpdate jsonArray usingKey status).status = .autoDisabled ↔
          (c.handlerMultiKeyUpdate jsonArray usingKey status).AllDisabled jsonArray) ↔
      ¬ c.Revives jsonArray usingKey status ∧
        (usingKey ∈ c.getKeys jsonArray ∨ c.Settled jsonArray usingKey status) := by
  by_cases hkeys : c.getKeys jsonArray = []
  · have hnone (c' : Channel) (hkeys' : c'.getKeys jsonArray = []) : c'.AllDisabled jsonArray := by
      intro i hi
      rw [hkeys'] at hi
      exact absurd hi (Nat.not_lt_zero i)
    have hrevives : ¬ c.Revives jsonArray usingKey status := by
      rintro ⟨-, hmem, -⟩
      rw [hkeys] at hmem
      exact absurd hmem List.not_mem_nil
    have hset : c.StatusSet jsonArray usingKey status { c with status := status } :=
      ⟨fun i h => absurd rfl h, fun i j h => absurd rfl h, fun hst hmem ha => absurd ⟨hst, hmem, ha⟩ hrevives⟩
    have hall : ({ c with status := status } : Channel).AllDisabled jsonArray := by
      have hsame : ({ c with status := status } : Channel).getKeys jsonArray = c.getKeys jsonArray := getKeys_congr rfl
      exact hnone _ (hsame.trans hkeys)
    unfold Settled Channel.handlerMultiKeyUpdate
    rw [if_pos hkeys, if_pos hkeys, hkeys, or_iff_right List.not_mem_nil]
    exact ⟨fun h => ⟨hrevives, h.2.2 hall⟩, fun h => ⟨hset, fun _ => hall, fun _ => h.2⟩⟩
  · have hat (i : Nat) : (c.handlerMultiKeyUpdate jsonArray usingKey status).keyStatusAt i =
        if i = c.keyIndex jsonArray usingKey then status else c.keyStatusAt i :=
      keyStatusAt_handlerMultiKeyUpdate hkeys
    obtain ⟨hdisabled, hkept⟩ := @status_handlerMultiKeyUpdate jsonArray c usingKey status hc hkeys
    have hchanged : ∀ i, (c.handlerMultiKeyUpdate jsonArray usingKey status).keyStatusAt i ≠ c.keyStatusAt i →
        i = c.keyIndex jsonArray usingKey ∧ c.keyStatusAt i ≠ status := by
      intro i hne
      rw [hat] at hne
      split at hne
      next hi => exact ⟨hi, fun h => hne h.symm⟩
      · exact absurd rfl hne
    unfold Settled
    rw [if_neg hkeys]
    constructor
    · rintro ⟨hset, -⟩
      refine ⟨fun ⟨hst, hmem, ha⟩ => ?_, or_iff_not_imp_right.2 fun hne => ?_⟩
      · have henabled := hset.enables hst hmem ha
        rw [status_handlerMultiKeyUpdate_of_autoDisabled hkeys ha] at henabled
        cases henabled
      · refine List.mem_of_getElem? (hset.changed (c.keyIndex jsonArray usingKey) ?_)
        rw [hat, if_pos rfl]
        exact fun h => hne h.symm
    · rintro ⟨hrevives, hfinds⟩
      refine ⟨⟨fun i hne => ?_, fun i j hi hj => (hchanged i hi).1.trans (hchanged j hj).1.symm,
        fun hst hmem ha => absurd ⟨hst, hmem, ha⟩ hrevives⟩, fun ha => ?_, hdisabled⟩
      · obtain ⟨rfl, hst⟩ := hchanged i hne
        exact keyIndex_of_mem (hfinds.resolve_right hst)
      · by_contra hnot
        have hbefore : c.status = .autoDisabled := (hkept hnot).symm.trans ha
        have hall := hauto.1 hbefore
        refine hnot fun i hi => ?_
        rw [getKeys_handlerMultiKeyUpdate] at hi
        rw [hat]
        split
        next hk =>
          intro hst
          obtain hmem | hsame := hfinds
          · exact hrevives ⟨hst, hmem, hbefore⟩
          · exact hall i hi (by rw [hk, hsame, hst])
        · exact hall i hi

theorem statusSet_self : c.StatusSet jsonArray usingKey status c ↔ ¬ c.Revives jsonArray usingKey status := by
  refine ⟨fun h ⟨hst, hmem, ha⟩ => ?_, fun h => ⟨fun i hne => absurd rfl hne, fun i j hne => absurd rfl hne,
    fun hst hmem ha => absurd ⟨hst, hmem, ha⟩ h⟩⟩
  have henabled := h.enables hst hmem ha
  rw [ha] at henabled
  cases henabled

/-- Two copies of a channel, with the same keys and the same entries. -/
structure Alike (c c' : Channel) : Prop where
  key : c.key = c'.key
  entries : ∀ i, c.channelInfo.multiKeyStatusList.get? i = c'.channelInfo.multiKeyStatusList.get? i

section
variable {c' : Channel}

theorem Alike.keyStatusAt (h : c.Alike c') (i : Nat) : c.keyStatusAt i = c'.keyStatusAt i := by
  unfold Channel.keyStatusAt
  rw [h.entries]

theorem Alike.getKeys (h : c.Alike c') : c.getKeys jsonArray = c'.getKeys jsonArray := getKeys_congr h.key

theorem Alike.allDisabled (h : c.Alike c') : c.AllDisabled jsonArray ↔ c'.AllDisabled jsonArray := by
  unfold AllDisabled
  simp only [h.getKeys, h.keyStatusAt]

theorem Alike.keyIndex (h : c.Alike c') : c.keyIndex jsonArray usingKey = c'.keyIndex jsonArray usingKey := by
  unfold Channel.keyIndex
  rw [h.getKeys]

theorem Alike.settled (h : c.Alike c') :
    c.Settled jsonArray usingKey status ↔ c'.Settled jsonArray usingKey status := by
  unfold Settled
  rw [h.getKeys, h.keyIndex, h.keyStatusAt]

theorem Alike.revives (h : c.Alike c') (hstatus : c.status = .autoDisabled ↔ c'.status = .autoDisabled) :
    c.Revives jsonArray usingKey status ↔ c'.Revives jsonArray usingKey status := by
  unfold Revives
  rw [h.getKeys, hstatus]

theorem Alike.handlerMultiKeyUpdate (h : c.Alike c') :
    (c.handlerMultiKeyUpdate jsonArray usingKey status).Alike
      (c'.handlerMultiKeyUpdate jsonArray usingKey status) := by
  refine ⟨by rw [key_handlerMultiKeyUpdate, key_handlerMultiKeyUpdate, h.key], fun i => ?_⟩
  unfold Channel.handlerMultiKeyUpdate
  rw [h.getKeys]
  split
  · exact h.entries i
  · dsimp only
    rw [get?_keyStatuses, get?_keyStatuses, h.keyIndex, h.entries]

end

/-- An update leaves the entries as they are just when there are no keys, or the status is the one the key has. -/
theorem alike_handlerMultiKeyUpdate (hc : c.KeysTracked jsonArray) :
    (c.handlerMultiKeyUpdate jsonArray usingKey status).Alike c ↔
      c.getKeys jsonArray = [] ∨ c.keyStatusAt (c.keyIndex jsonArray usingKey) = status := by
  by_cases hkeys : c.getKeys jsonArray = []
  · refine iff_of_true ⟨key_handlerMultiKeyUpdate, fun i => ?_⟩ (.inl hkeys)
    rw [Channel.handlerMultiKeyUpdate, if_pos hkeys]
  · rw [or_iff_right hkeys]
    constructor
    · intro h
      have hat := h.keyStatusAt (c.keyIndex jsonArray usingKey)
      rw [keyStatusAt_handlerMultiKeyUpdate hkeys, if_pos rfl] at hat
      exact hat.symm
    · intro hsame
      refine ⟨key_handlerMultiKeyUpdate, fun i => ?_⟩
      unfold Channel.handlerMultiKeyUpdate
      rw [if_neg hkeys]
      dsimp only
      rw [get?_keyStatuses]
      split
      next hi =>
        subst hi
        unfold Channel.keyStatusAt at hsame
        cases hget : c.channelInfo.multiKeyStatusList.get? (c.keyIndex jsonArray usingKey) with
        | none =>
          rw [hget] at hsame
          rw [if_pos (show status = .enabled from hsame.symm)]
        | some e =>
          have hdisabled := (hc.entries hkeys e (Table.mem_of_get? hget)).2
          rw [hget] at hsame
          rw [if_neg (show ¬ status = .enabled from fun hst => hdisabled (Eq.trans hsame hst)), ← hsame]
          exact congrArg some (Prod.ext (Table.key_of_get? hget).symm rfl)
      · rfl

end

end Channel

/-! ## The cached channel and the stored row -/

/-- What the memory cache holds for a channel. -/
inductive CachedCopy
  | disabled
  | missing
  | copy (c : Channel)

/-- What `ChannelStore.updateChannelStatus` takes from it. -/
def CachedCopy.seen : CachedCopy → ChannelStore.CachedChannel
  | .disabled => .disabled
  | .missing => .missing
  | .copy c => if c.channelInfo.isMultiKey then .multiKey else .single c.status

/-- A channel as it is kept: its cached copy and its row. -/
structure KeyCopies where
  cached : CachedCopy
  row : Channel

/-- A call of `UpdateChannelStatus`. The row is not stored where it cannot be read or saved. -/
structure StatusCall where
  usingKey : String
  status : ChannelStatus
  stored : Bool := true

namespace KeyCopies

section
variable (jsonArray : String → Option (List String))

/-- The second half of `UpdateChannelStatus`: the row is read, and saved unless it has the status already. -/
def updateRow (s : KeyCopies) (call : StatusCall) : Channel :=
  if call.stored ∧ s.row.status ≠ call.status then s.row.statusUpdated jsonArray call.usingKey call.status else s.row

/-- `UpdateChannelStatus`. -/
def updateChannelStatus (s : KeyCopies) (call : StatusCall) : KeyCopies :=
  match s.cached with
  | .disabled => { s with row := s.updateRow jsonArray call }
  | .missing => s
  | .copy c =>
    if ¬ c.channelInfo.isMultiKey ∧ c.status = call.status then s
    else
      { cached := .copy (c.statusUpdated jsonArray call.usingKey call.status)
        row := s.updateRow jsonArray call }

/-- The channel has several keys, which both copies hold. -/
structure Tracked (s : KeyCopies) : Prop where
  row : s.row.KeysTracked jsonArray
  cached : ∀ c, s.cached = .copy c → c.KeysTracked jsonArray ∧ c.key = s.row.key

/-- Each copy is auto-disabled just when all keys are disabled, and both hold the same entries. -/
structure InStep (s : KeyCopies) : Prop where
  row : s.row.status = .autoDisabled ↔ s.row.AllDisabled jsonArray
  cached : ∀ c, s.cached = .copy c → (c.status = .autoDisabled ↔ c.AllDisabled jsonArray)
  entries : ∀ c, s.cached = .copy c →
    ∀ i, c.channelInfo.multiKeyStatusList.get? i = s.row.channelInfo.multiKeyStatusList.get? i

/-- What a call promises of both copies. -/
structure Promised (s : KeyCopies) (call : StatusCall) (s' : KeyCopies) : Prop where
  row : s.row.StatusSet jsonArray call.usingKey call.status s'.row
  cached : ∀ c c', s.cached = .copy c → s'.cached = .copy c' →
    c.StatusSet jsonArray call.usingKey call.status c'

/-- The row is written. -/
def Writes (s : KeyCopies) (call : StatusCall) : Prop :=
  s.cached ≠ .missing ∧ call.stored ∧ s.row.status ≠ call.status

/-- The call does not enable a key of an auto-disabled channel. Where it writes the row, the key is one of the channel's;
where it does not, or the key is none of them, the key whose status it sets has that status, unless nothing is set. -/
def Clean (s : KeyCopies) (call : StatusCall) : Prop :=
  ¬ s.row.Revives jsonArray call.usingKey call.status ∧
    (s.row.Settled jsonArray call.usingKey call.status ∨
      (s.Writes call ∧ call.usingKey ∈ s.row.getKeys jsonArray) ∨
      (¬ s.Writes call ∧ ∀ c, s.cached ≠ .copy c))

end

section
variable {jsonArray : String → Option (List String)} {s : KeyCopies} {call : StatusCall} {c : Channel}

theorem Tracked.alike (hs : s.Tracked jsonArray) (hin : s.InStep jsonArray) (hc : s.cached = .copy c) : c.Alike s.row :=
  ⟨(hs.cached c hc).2, hin.entries c hc⟩

theorem updateRow_of_writes (hs : s.Tracked jsonArray) (h : s.Writes call) :
    s.updateRow jsonArray call = s.row.handlerMultiKeyUpdate jsonArray call.usingKey call.status := by
  unfold updateRow Channel.statusUpdated
  rw [if_pos h.2, if_pos hs.row.isMultiKey]

theorem updateRow_of_not_writes (hmissing : s.cached ≠ .missing) (h : ¬ s.Writes call) :
    s.updateRow jsonArray call = s.row :=
  if_neg fun hcond => h ⟨hmissing, hcond⟩

theorem updateChannelStatus_copy (hs : s.Tracked jsonArray) (hc : s.cached = .copy c) :
    s.updateChannelStatus jsonArray call =
      { cached := .copy (c.handlerMultiKeyUpdate jsonArray call.usingKey call.status)
        row := s.updateRow jsonArray call } := by
  have hmulti := (hs.cached c hc).1.isMultiKey
  unfold updateChannelStatus
  rw [hc]
  dsimp only
  rw [if_neg fun hcond => hcond.1 hmulti, Channel.statusUpdated, if_pos hmulti]

theorem get?_updateChannelStatus {store : ChannelStore} (hrow : store.channels.get? s.row.id = some s.row)
    (hstored : call.stored) :
    (store.updateChannelStatus jsonArray s.cached.seen s.row.id call.usingKey call.status).channels.get? s.row.id =
      some (s.updateChannelStatus jsonArray call).row := by
  have hsaved : s.row.withStatus (s.row.statusUpdated jsonArray call.usingKey call.status).status
      (s.row.statusUpdated jsonArray call.usingKey call.status).channelInfo =
        s.row.statusUpdated jsonArray call.usingKey call.status := by
    unfold Channel.statusUpdated Channel.handlerMultiKeyUpdate
    split
    · split <;> rfl
    · rfl
  have hwritten (cached : ChannelStore.CachedChannel) (hsettles : cached.settles call.status = false) :
      (store.updateChannelStatus jsonArray cached s.row.id call.usingKey call.status).channels.get? s.row.id =
        some (s.updateRow jsonArray call) := by
    unfold ChannelStore.updateChannelStatus updateRow
    rw [hsettles, if_neg Bool.false_ne_true, hrow]
    dsimp only
    by_cases hst : s.row.status = call.status
    · rw [if_pos hst, if_neg fun h => h.2 hst, hrow]
    · rw [if_neg hst, if_pos (And.intro hstored hst)]
      dsimp only
      rw [Table.get?_modify_self, hrow, Option.map_some, hsaved]
  have hkept (cached : ChannelStore.CachedChannel) (hsettles : cached.settles call.status = true) :
      (store.updateChannelStatus jsonArray cached s.row.id call.usingKey call.status).channels.get? s.row.id =
        some s.row := by
    rw [ChannelStore.updateChannelStatus, if_pos hsettles, hrow]
  unfold updateChannelStatus
  cases s.cached with
  | disabled => exact hwritten _ rfl
  | missing => exact hkept _ rfl
  | copy c =>
    unfold CachedCopy.seen
    dsimp only
    split
    next hmulti => rw [if_neg fun h => h.1 hmulti, hwritten _ rfl]
    next hmulti =>
      by_cases hst : c.status = call.status
      · rw [if_pos ⟨hmulti, hst⟩, hkept (.single c.status) (decide_eq_true hst)]
      · rw [if_neg fun h => hst h.2, hwritten (.single c.status) (decide_eq_false hst)]

theorem inStep_and_promised_of_row {s' : KeyCopies} (h : ∀ c, s.cached ≠ .copy c) (h' : s'.cached = s.cached) :
    s'.InStep jsonArray ∧ s.Promised jsonArray call s' ↔
      s.row.StatusSet jsonArray call.usingKey call.status s'.row ∧
        (s'.row.status = .autoDisabled ↔ s'.row.AllDisabled jsonArray) := by
  refine ⟨fun ⟨hin, hset⟩ => ⟨hset.row, hin.row⟩, fun ⟨hset, hauto⟩ => ⟨⟨hauto, fun c hc => ?_, fun c hc => ?_⟩, hset,
    fun c c' hc => absurd hc (h c)⟩⟩
  · exact absurd (h'.symm.trans hc) (h c)
  · exact absurd (h'.symm.trans hc) (h c)

theorem inStep_and_promised_of_copy {s' : KeyCopies} {c' : Channel} (hc : s.cached = .copy c)
    (hc' : s'.cached = .copy c') :
    s'.InStep jsonArray ∧ s.Promised jsonArray call s' ↔
      (s.row.StatusSet jsonArray call.usingKey call.status s'.row ∧
        (s'.row.status = .autoDisabled ↔ s'.row.AllDisabled jsonArray)) ∧
      (c.StatusSet jsonArray call.usingKey call.status c' ∧ (c'.status = .autoDisabled ↔ c'.AllDisabled jsonArray)) ∧
      ∀ i, c'.channelInfo.multiKeyStatusList.get? i = s'.row.channelInfo.multiKeyStatusList.get? i := by
  constructor
  · rintro ⟨hin, hset⟩
    exact ⟨⟨hset.row, hin.row⟩, ⟨hset.cached c c' hc hc', hin.cached c' hc'⟩, hin.entries c' hc'⟩
  · rintro ⟨⟨hsetRow, hautoRow⟩, ⟨hset, hauto⟩, hentries⟩
    have hcopy {d : Channel} (hd : s'.cached = .copy d) : d = c' := by
      cases hd.symm.trans hc'
      rfl
    have hcopy' {d : Channel} (hd : s.cached = .copy d) : d = c := by
      cases hd.symm.trans hc
      rfl
    refine ⟨⟨hautoRow, fun d hd => hcopy hd ▸ hauto, fun d hd => hcopy hd ▸ hentries⟩, hsetRow, fun d d' hd hd' => ?_⟩
    rw [hcopy' hd, hcopy hd']
    exact hset

theorem inStep_iff_of_copy_of_writes (hs : s.Tracked jsonArray) (hin : s.InStep jsonArray) (hc : s.cached = .copy c)
    (hw : s.Writes call) :
    (s.updateChannelStatus jsonArray call).InStep jsonArray ∧
        s.Promised jsonArray call (s.updateChannelStatus jsonArray call) ↔ s.Clean jsonArray call := by
  have halike := hs.alike hin hc
  have hrevives : c.Revives jsonArray call.usingKey call.status ↔ s.row.Revives jsonArray call.usingKey call.status :=
    halike.revives ((hin.cached c hc).trans (halike.allDisabled.trans hin.row.symm))
  rw [updateChannelStatus_copy hs hc, updateRow_of_writes hs hw, inStep_and_promised_of_copy hc rfl,
    Channel.statusSet_handlerMultiKeyUpdate hs.row hin.row,
    Channel.statusSet_handlerMultiKeyUpdate (hs.cached c hc).1 (hin.cached c hc), hrevives, halike.getKeys,
    halike.settled]
  unfold Clean
  refine ⟨fun ⟨⟨hrev, hfinds⟩, _⟩ => ⟨hrev, ?_⟩, fun ⟨hrev, hfinds⟩ => ?_⟩
  · exact hfinds.symm.imp_right fun hmem => .inl ⟨hw, hmem⟩
  · have hfinds' : call.usingKey ∈ s.row.getKeys jsonArray ∨ s.row.Settled jsonArray call.usingKey call.status := by
      obtain hsettled | ⟨-, hmem⟩ | ⟨hnw, -⟩ := hfinds
      · exact .inr hsettled
      · exact .inl hmem
      · exact absurd hw hnw
    exact ⟨⟨hrev, hfinds'⟩, ⟨hrev, hfinds'⟩, halike.handlerMultiKeyUpdate.entries⟩

theorem inStep_iff_of_copy_of_not_writes (hs : s.Tracked jsonArray) (hin : s.InStep jsonArray)
    (hc : s.cached = .copy c) (hw : ¬ s.Writes call) :
    (s.updateChannelStatus jsonArray call).InStep jsonArray ∧
        s.Promised jsonArray call (s.updateChannelStatus jsonArray call) ↔ s.Clean jsonArray call := by
  have halike := hs.alike hin hc
  have hmissing : s.cached ≠ .missing := by
    rw [hc]
    exact nofun
  have hrevives : c.Revives jsonArray call.usingKey call.status ↔ s.row.Revives jsonArray call.usingKey call.status :=
    halike.revives ((hin.cached c hc).trans (halike.allDisabled.trans hin.row.symm))
  have hsame : (∀ i, (c.handlerMultiKeyUpdate jsonArray call.usingKey call.status).channelInfo.multiKeyStatusList.get? i
      = s.row.channelInfo.multiKeyStatusList.get? i) ↔
      c.getKeys jsonArray = [] ∨ c.keyStatusAt (c.keyIndex jsonArray call.usingKey) = call.status := by
    rw [← Channel.alike_handlerMultiKeyUpdate (hs.cached c hc).1]
    refine ⟨fun h => ⟨Channel.key_handlerMultiKeyUpdate, fun i => (h i).trans (halike.entries i).symm⟩,
      fun h i => (h.entries i).trans (halike.entries i)⟩
  rw [updateChannelStatus_copy hs hc, updateRow_of_not_writes hmissing hw, inStep_and_promised_of_copy hc rfl,
    Channel.statusSet_handlerMultiKeyUpdate (hs.cached c hc).1 (hin.cached c hc), hsame]
  dsimp only
  rw [Channel.statusSet_self, hrevives]
  unfold Clean
  rw [← halike.settled]
  constructor
  · rintro ⟨-, ⟨hrev, hfinds⟩, hentries⟩
    refine ⟨hrev, .inl (hfinds.elim (fun hmem => ?_) id)⟩
    have hkeys : c.getKeys jsonArray ≠ [] := List.ne_nil_of_mem hmem
    rw [Channel.Settled, if_neg hkeys]
    exact hentries.resolve_left hkeys
  · rintro ⟨hrev, hsettled | ⟨hw', -⟩ | ⟨-, hnone⟩⟩
    · refine ⟨⟨hrev, hin.row⟩, ⟨hrev, .inr hsettled⟩, or_iff_not_imp_left.2 fun hkeys => ?_⟩
      rwa [Channel.Settled, if_neg hkeys] at hsettled
    · exact absurd hw' hw
    · exact absurd hc (hnone c)

theorem inStep_iff_of_row (hs : s.Tracked jsonArray) (hin : s.InStep jsonArray) (hnone : ∀ c, s.cached ≠ .copy c) :
    (s.updateChannelStatus jsonArray call).InStep jsonArray ∧
        s.Promised jsonArray call (s.updateChannelStatus jsonArray call) ↔ s.Clean jsonArray call := by
  have hcached : (s.updateChannelStatus jsonArray call).cached = s.cached := by
    unfold updateChannelStatus
    cases hc : s.cached with
    | disabled => rfl
    | missing => exact hc
    | copy c => exact absurd hc (hnone c)
  rw [inStep_and_promised_of_row hnone hcached]
  by_cases hw : s.Writes call
  · have hrow : (s.updateChannelStatus jsonArray call).row =
        s.row.handlerMultiKeyUpdate jsonArray call.usingKey call.status := by
      rw [← updateRow_of_writes hs hw]
      unfold updateChannelStatus
      cases hc : s.cached with
      | disabled => rfl
      | missing => exact absurd hc hw.1
      | copy c => exact absurd hc (hnone c)
    rw [hrow, Channel.statusSet_handlerMultiKeyUpdate hs.row hin.row]
    refine and_congr_right fun _ => ⟨fun h => h.symm.imp_right fun hmem => .inl ⟨hw, hmem⟩, ?_⟩
    rintro (hsettled | ⟨-, hmem⟩ | ⟨hnw, -⟩)
    · exact .inr hsettled
    · exact .inl hmem
    · exact absurd hw hnw
  · have hrow : (s.updateChannelStatus jsonArray call).row = s.row := by
      unfold updateChannelStatus
      cases hc : s.cached with
      | disabled =>
        have hmissing : s.cached ≠ .missing := by
          rw [hc]
          exact nofun
        exact updateRow_of_not_writes hmissing hw
      | missing => rfl
      | copy c => exact absurd hc (hnone c)
    rw [hrow, Channel.statusSet_self]
    exact ⟨fun h => ⟨h.1, .inr (.inr ⟨hw, hnone⟩)⟩, fun h => ⟨h.1, hin.row⟩⟩

theorem Tracked.updateChannelStatus (hs : s.Tracked jsonArray) :
    (s.updateChannelStatus jsonArray call).Tracked jsonArray := by
  have hrow : (s.updateRow jsonArray call).KeysTracked jsonArray ∧ (s.updateRow jsonArray call).key = s.row.key := by
    unfold updateRow Channel.statusUpdated
    rw [if_pos hs.row.isMultiKey]
    split
    · exact ⟨hs.row.handlerMultiKeyUpdate, Channel.key_handlerMultiKeyUpdate⟩
    · exact ⟨hs.row, rfl⟩
  cases hc : s.cached with
  | disabled =>
    rw [KeyCopies.updateChannelStatus, hc]
    exact ⟨hrow.1, fun _ h => nomatch h⟩
  | missing =>
    rw [KeyCopies.updateChannelStatus, hc]
    exact hs
  | copy c =>
    rw [updateChannelStatus_copy hs hc]
    refine ⟨hrow.1, fun d hd => ?_⟩
    cases hd
    refine ⟨(hs.cached c hc).1.handlerMultiKeyUpdate, ?_⟩
    rw [Channel.key_handlerMultiKeyUpdate, (hs.cached c hc).2]
    exact hrow.2.symm

theorem inStep_and_promised_iff (hs : s.Tracked jsonArray) (hin : s.InStep jsonArray) :
    (s.updateChannelStatus jsonArray call).InStep jsonArray ∧
        s.Promised jsonArray call (s.updateChannelStatus jsonArray call) ↔ s.Clean jsonArray call := by
  cases hc : s.cached with
  | disabled => exact inStep_iff_of_row hs hin (by rw [hc]; exact nofun)
  | missing => exact inStep_iff_of_row hs hin (by rw [hc]; exact nofun)
  | copy c =>
    by_cases hw : s.Writes call
    · exact inStep_iff_of_copy_of_writes hs hin hc hw
    · exact inStep_iff_of_copy_of_not_writes hs hin hc hw

/-- In every run of calls, with any keys and statuses, the copies stay in step and each call keeps its promises just when
all calls are clean. -/
theorem keyStatuses_iff_clean {calls : List StatusCall} (hs : s.Tracked jsonArray) (hin : s.InStep jsonArray) :
    Run.Holds (updateChannelStatus jsonArray) (InStep jsonArray) s calls ∧
        Run.Always (updateChannelStatus jsonArray) (Promised jsonArray) s calls ↔
      Run.Meets (updateChannelStatus jsonArray) (Clean jsonArray) s calls :=
  Run.holds_and_always_iff_meets (fun _ _ hs => hs.updateChannelStatus)
    (fun _ _ hs hin => inStep_and_promised_iff hs hin) hs hin

end

/-! ### A channel of two keys -/

/-- A channel of the keys `a` and `b`, both enabled. -/
def twoKeys : Channel where
  id := 1
  key := "a\nb"
  status := .enabled
  models := "m"
  group := "default"
  channelInfo := { isMultiKey := true, multiKeySize := 2 }

theorem getKeys_twoKeys : twoKeys.getKeys (fun _ => none) = ["a", "b"] := by decide

theorem twoKeys_tracked : Tracked (fun _ => none) ⟨.copy twoKeys, twoKeys⟩ := by
  have hrow : twoKeys.KeysTracked fun _ => none := by
    refine ⟨rfl, fun _ => ?_, fun _ e he => ?_⟩
    · rw [getKeys_twoKeys]
      rfl
    · exact absurd he List.not_mem_nil
  refine ⟨hrow, fun c hc => ?_⟩
  cases hc
  exact ⟨hrow, rfl⟩

theorem twoKeys_inStep : InStep (fun _ => none) ⟨.copy twoKeys, twoKeys⟩ := by
  have hauto : twoKeys.status = .autoDisabled ↔ twoKeys.AllDisabled fun _ => none := by
    refine iff_of_false nofun fun hall => ?_
    unfold Channel.AllDisabled at hall
    rw [getKeys_twoKeys] at hall
    exact hall 0 (by decide) rfl
  refine ⟨hauto, fun c hc => ?_, fun c hc => ?_⟩
  · cases hc
    exact hauto
  · cases hc
    exact fun _ => rfl

/-- Both keys are disabled, one after the other, and the channel with them. -/
theorem keyStatuses_iff_clean_twoKeys :
    Run.Holds (updateChannelStatus fun _ => none) (InStep fun _ => none) ⟨.copy twoKeys, twoKeys⟩
        [{ usingKey := "b", status := .autoDisabled }, { usingKey := "a", status := .autoDisabled }] ∧
      Run.Always (updateChannelStatus fun _ => none) (Promised fun _ => none) ⟨.copy twoKeys, twoKeys⟩
        [{ usingKey := "b", status := .autoDisabled }, { usingKey := "a", status := .autoDisabled }] := by
  refine (keyStatuses_iff_clean twoKeys_tracked twoKeys_inStep).2 ⟨?_, ?_, trivial⟩
  · refine ⟨fun h => absurd h.1 nofun, .inr (.inl ⟨⟨nofun, rfl, nofun⟩, ?_⟩)⟩
    decide
  · refine ⟨fun h => absurd h.1 nofun, .inr (.inl ⟨⟨nofun, rfl, ?_⟩, ?_⟩)⟩ <;> decide

/-- A key that the channel does not have stands for its first key. -/
theorem unknownKey_disables_first : ¬ ∀ (jsonArray : String → Option (List String)) (s : KeyCopies)
    (calls : List StatusCall), s.Tracked jsonArray → s.InStep jsonArray →
      Run.Holds (updateChannelStatus jsonArray) (InStep jsonArray) s calls ∧
        Run.Always (updateChannelStatus jsonArray) (Promised jsonArray) s calls := by
  intro h
  obtain ⟨-, hpromised, -⟩ := h (fun _ => none) ⟨.copy twoKeys, twoKeys⟩
    [{ usingKey := "c", status := .autoDisabled }] twoKeys_tracked twoKeys_inStep
  have hfirst := hpromised.row.changed 0 (by decide)
  dsimp only at hfirst
  rw [getKeys_twoKeys] at hfirst
  exact absurd hfirst (by decide)

end KeyCopies

end NewApi

import NewApi.Channel.Maintain
import NewApi.Lib.Run
import Mathlib.Data.Set.Basic

/-!
# Which maintenance keeps the mirror

Every operation of `Channel.Maintain` is compared with the mirror it starts from. The mirror is read
one channel at a time: the abilities of an id (`slice`) against the image of the channel with that id
(`image`). Two lemmas carry the comparison: for operations that rebuild the abilities of some channels
(`mirror_rebuild`), and for those that edit rows of both tables in place (`mirror_relabel`). They give
for each operation the exact condition under which it keeps the mirror (`KeepsMirror`), and so, by the
run rule, for sequences of operations.
-/

namespace NewApi

namespace ChannelStore

open Run

/-! ## One channel at a time -/

/-- The abilities of a channel id. -/
def slice (t : Table Ability.key) (id : Nat) : Set Ability := { a | a ∈ t ∧ a.channelId = id }

/-- The abilities a channel should have; none, where there is no channel. -/
def image (c : Option Channel) : Set Ability := { a | ∃ d ∈ c, ∃ p ∈ d.pairs, d.ability p = a }

section
variable {s : ChannelStore} {t : Table Ability.key} {c d : Channel} {a : Ability} {id : Nat}

theorem mirror_iff : s.Mirror ↔ ∀ id, slice s.abilities id = image (s.channels.get? id) := by
  constructor
  · intro h id
    ext a
    constructor
    · rintro ⟨ha, rfl⟩
      obtain ⟨c, hc, p, hp, rfl⟩ := (h a).1 ha
      exact ⟨c, Table.get?_key hc, p, hp, rfl⟩
    · rintro ⟨c, hc, p, hp, rfl⟩
      have hid : c.id = id := Table.key_of_get? hc
      exact ⟨(h _).2 ⟨c, Table.mem_of_get? hc, p, hp, rfl⟩, hid⟩
  · intro h a
    have ha : (a ∈ s.abilities ∧ a.channelId = a.channelId) ↔
        a ∈ image (s.channels.get? a.channelId) := Set.ext_iff.1 (h a.channelId) a
    constructor
    · intro hmem
      obtain ⟨c, hc, p, hp, rfl⟩ := ha.1 ⟨hmem, rfl⟩
      exact ⟨c, Table.mem_of_get? hc, p, hp, rfl⟩
    · rintro ⟨c, hc, p, hp, rfl⟩
      exact (ha.2 ⟨c, Table.get?_key hc, p, hp, rfl⟩).1

theorem pairs_ne_nil (c : Channel) : c.pairs ≠ [] := by
  obtain ⟨m, hm⟩ := List.exists_mem_of_ne_nil _ (GoString.split_ne_nil ',' c.models)
  obtain ⟨g, hg⟩ := List.exists_mem_of_ne_nil _ (GoString.split_ne_nil ',' c.group)
  have hserves : c.Serves g m := ⟨hg, hm⟩
  exact List.ne_nil_of_mem (Channel.mem_pairs.2 hserves : (g, m) ∈ c.pairs)

theorem abilityRows_ne_nil (c : Channel) : c.abilityRows ≠ [] := by
  obtain ⟨p, hp⟩ := List.exists_mem_of_ne_nil _ (pairs_ne_nil c)
  obtain ⟨q, hq, -⟩ := exists_mem_firstBy hp (List.not_mem_nil : Channel.pairKey p ∉ [])
  exact List.ne_nil_of_mem (List.mem_map_of_mem hq)

/-- The rows created for a channel are the image of a channel of the same pairs just when no pair is
skipped and the two have the same abilities. -/
theorem rows_eq_image_iff (hpairs : c.pairs = d.pairs) :
    { a | a ∈ c.abilityRows } = image (some d) ↔
      c.PairsDistinct ∧ ∀ p ∈ c.pairs, c.ability p = d.ability p := by
  constructor
  · intro h
    have hrows : ∀ p ∈ c.pairs, d.ability p ∈ c.abilityRows := fun p hp => by
      have hmem : d.ability p ∈ image (some d) := ⟨d, rfl, p, hpairs ▸ hp, rfl⟩
      rwa [← h] at hmem
    have heq : ∀ p ∈ c.pairs, c.ability p = d.ability p := fun p hp => by
      obtain ⟨q, -, hq⟩ := Channel.of_mem_abilityRows (hrows p hp)
      have hkey := congrArg Ability.key hq
      simp only [Channel.ability_key, Prod.mk.injEq] at hkey
      rwa [Prod.ext hkey.1 hkey.2.1] at hq
    refine ⟨Channel.forall_mem_abilityRows.1 fun p hp => ?_, heq⟩
    rw [heq p hp]
    exact hrows p hp
  · rintro ⟨hdist, heq⟩
    ext a
    constructor
    · intro ha
      obtain ⟨p, hp, rfl⟩ := Channel.of_mem_abilityRows ha
      exact ⟨d, rfl, p, hpairs ▸ hp, (heq p hp).symm⟩
    · rintro ⟨e, he, p, hp, rfl⟩
      cases he
      rw [← hpairs] at hp
      rw [← heq p hp]
      exact Channel.forall_mem_abilityRows.2 hdist p hp

/-! ## Rebuilding -/

theorem mem_addAbilities (hfree : ∀ b ∈ t, b.channelId ≠ c.id) :
    a ∈ addAbilities c t ↔ a ∈ t ∨ a ∈ c.abilityRows := by
  refine Table.mem_insertAll c.nodup_abilityRows fun b hb e he hkey => hfree e he ?_
  obtain ⟨p, -, rfl⟩ := Channel.of_mem_abilityRows hb
  simp only [Ability.key, Prod.mk.injEq] at hkey
  exact hkey.2.2

theorem mem_updateAbilities :
    a ∈ updateAbilities c t ↔ a ∈ t ∧ a.channelId ≠ c.id ∨ a ∈ c.abilityRows := by
  rw [updateAbilities, mem_addAbilities fun b hb => (Table.mem_filter.1 hb).2, Table.mem_filter]

theorem slice_updateAbilities : slice (updateAbilities c t) id =
    if id = c.id then { a | a ∈ c.abilityRows } else slice t id := by
  ext a
  have hrow : a ∈ c.abilityRows → a.channelId = c.id := fun ha => by
    obtain ⟨p, -, rfl⟩ := Channel.of_mem_abilityRows ha
    rfl
  simp only [slice, Set.mem_ofPred_eq, mem_updateAbilities]
  split
  next h =>
    subst h
    constructor
    · rintro ⟨⟨-, hne⟩ | ha, hid⟩
      · exact absurd hid hne
      · exact ha
    · intro ha
      exact ⟨.inr ha, hrow ha⟩
  next h =>
    constructor
    · rintro ⟨⟨ha, -⟩ | ha, hid⟩
      · exact ⟨ha, hid⟩
      · exact absurd (hid.symm.trans (hrow ha)) h
    · rintro ⟨ha, hid⟩
      exact ⟨.inl ⟨ha, fun hc => h (hid.symm.trans hc)⟩, hid⟩

theorem slice_foldl_of_not_mem {l : List Channel} (h : ∀ c ∈ l, c.id ≠ id) :
    slice (l.foldl (fun t c => updateAbilities c t) t) id = slice t id := by
  induction l generalizing t with
  | nil => rfl
  | cons c l ih =>
    rw [List.foldl_cons, ih fun d hd => h d (List.mem_cons_of_mem _ hd), slice_updateAbilities,
      if_neg (h c List.mem_cons_self).symm]

theorem slice_foldl_of_mem {l : List Channel} (hl : (l.map Channel.id).Nodup) (hc : c ∈ l) :
    slice (l.foldl (fun t c => updateAbilities c t) t) c.id = { a | a ∈ c.abilityRows } := by
  induction l generalizing t with
  | nil => cases hc
  | cons d l ih =>
    rw [List.map_cons, List.nodup_cons] at hl
    rw [List.foldl_cons]
    rcases List.mem_cons.1 hc with rfl | hc
    · have hother : ∀ e ∈ l, e.id ≠ c.id := fun e he heq =>
        hl.1 (heq ▸ List.mem_map_of_mem he)
      rw [slice_foldl_of_not_mem hother, slice_updateAbilities, if_pos rfl]
    · exact ih hl.2 hc

/-- Where some channels are rebuilt, from rows with the pairs of the channels that are there
afterwards, and the others are left as they were, the mirror is kept just when every rebuild is
complete and up to date. -/
theorem mirror_rebuild (h : s.Mirror) {l : List Channel} (hl : (l.map Channel.id).Nodup)
    {channels : Table Channel.id}
    (hin : ∀ c ∈ l, ∃ d, channels.get? c.id = some d ∧ c.pairs = d.pairs)
    (hout : ∀ id, (∀ c ∈ l, c.id ≠ id) → channels.get? id = s.channels.get? id) :
    Mirror ⟨channels, l.foldl (fun t c => updateAbilities c t) s.abilities⟩ ↔
      ∀ c ∈ l, c.PairsDistinct ∧ ∀ d, channels.get? c.id = some d →
        ∀ p ∈ c.pairs, c.ability p = d.ability p := by
  have hmirror := mirror_iff.1 h
  rw [mirror_iff]
  constructor
  · intro h' c hc
    obtain ⟨d, hd, hpairs⟩ := hin c hc
    have hslice := h' c.id
    simp only [slice_foldl_of_mem hl hc, hd] at hslice
    obtain ⟨hdist, heq⟩ := (rows_eq_image_iff hpairs).1 hslice
    refine ⟨hdist, fun e he => ?_⟩
    rw [hd] at he
    cases he
    exact heq
  · intro hall id
    by_cases hid : ∃ c ∈ l, c.id = id
    · obtain ⟨c, hc, rfl⟩ := hid
      obtain ⟨d, hd, hpairs⟩ := hin c hc
      obtain ⟨hdist, heq⟩ := hall c hc
      simp only [slice_foldl_of_mem hl hc, hd]
      exact (rows_eq_image_iff hpairs).2 ⟨hdist, heq d hd⟩
    · have hnot : ∀ c ∈ l, c.id ≠ id := fun c hc hc' => hid ⟨c, hc, hc'⟩
      simp only [slice_foldl_of_not_mem hnot, hout id hnot]
      exact hmirror id

/-! ## Relabelling -/

/-- Where rows of both tables are edited in place, keeping keys and pairs, the mirror is kept just when
the edited abilities of every channel are those of the edited channel. -/
theorem mirror_relabel (h : s.Mirror) {P : Ability → Prop} [DecidablePred P] {f : Ability → Ability}
    {hf : ∀ a, (f a).key = a.key} {Q : Channel → Prop} [DecidablePred Q] {g : Channel → Channel}
    {hg : ∀ c, (g c).id = c.id} (hpairs : ∀ c, (g c).pairs = c.pairs) :
    Mirror ⟨s.channels.modifyWhere Q g hg, s.abilities.modifyWhere P f hf⟩ ↔
      ∀ c ∈ s.channels, ∀ p ∈ c.pairs,
        (if P (c.ability p) then f (c.ability p) else c.ability p) =
          (if Q c then g c else c).ability p := by
  have hpairs' : ∀ c, (if Q c then g c else c).pairs = c.pairs := fun c => by
    split
    · exact hpairs c
    · rfl
  have hid : ∀ c, (if Q c then g c else c).id = c.id := fun c => by
    split
    · exact hg c
    · rfl
  have hkey : ∀ a, (if P a then f a else a).key = a.key := fun a => by
    split
    · exact hf a
    · rfl
  have hedited : ∀ c ∈ s.channels, (if Q c then g c else c) ∈ s.channels.modifyWhere Q g hg :=
    fun c hc => Table.mem_modifyWhere.2 ⟨c, hc, rfl⟩
  have hrelabelled : ∀ a ∈ s.abilities, (if P a then f a else a) ∈ s.abilities.modifyWhere P f hf :=
    fun a ha => Table.mem_modifyWhere.2 ⟨a, ha, rfl⟩
  constructor
  · intro h' c hc p hp
    have hmem : (if Q c then g c else c).ability p ∈ s.abilities.modifyWhere P f hf :=
      (h' _).2 ⟨_, hedited c hc, p, (hpairs' c).symm ▸ hp, rfl⟩
    obtain ⟨a, ha, hfa⟩ := Table.mem_modifyWhere.1 hmem
    -- the ability that became this one has its key, so it is the channel's own
    obtain ⟨d, hd, q, hq, rfl⟩ := (h a).1 ha
    have hk := congrArg Ability.key hfa
    rw [hkey, Channel.ability_key, Channel.ability_key, hid] at hk
    simp only [Prod.mk.injEq] at hk
    have hdc : d = c := Table.eq_of_key_eq hd hc hk.2.2
    have hqp : q = p := Prod.ext hk.1 hk.2.1
    rwa [hdc, hqp] at hfa
  · intro hall a
    show a ∈ s.abilities.modifyWhere P f hf ↔
      ∃ c ∈ s.channels.modifyWhere Q g hg, ∃ p ∈ c.pairs, c.ability p = a
    constructor
    · intro ha
      obtain ⟨b, hb, rfl⟩ := Table.mem_modifyWhere.1 ha
      obtain ⟨c, hc, p, hp, rfl⟩ := (h b).1 hb
      exact ⟨_, hedited c hc, p, (hpairs' c).symm ▸ hp, (hall c hc p hp).symm⟩
    · rintro ⟨d, hd, p, hp, rfl⟩
      obtain ⟨c, hc, rfl⟩ := Table.mem_modifyWhere.1 hd
      rw [hpairs'] at hp
      rw [← hall c hc p hp]
      exact hrelabelled _ ((h _).2 ⟨c, hc, p, hp, rfl⟩)

end

/-! ## The operations -/

/-- A maintenance operation with its arguments. -/
inductive Op
  | insert (c : Channel)
  | update (c : Channel)
  | updateChannelStatus (cached : CachedChannel) (channelId : Nat) (usingKey : String)
      (status : ChannelStatus)
  | enableChannelByTag (tag : String)
  | disableChannelByTag (tag : String)
  | editChannelByTag (tag : String) (e : TagEdit)
  | batchSetChannelTag (ids : List Nat) (tag : Option String)
  | delete (channelId : Nat)
  | deleteChannelByStatus (status : ChannelStatus)
  | deleteDisabledChannel

section
variable (jsonArray : String → Option (List String))

/-- The store after an operation. -/
def step (s : ChannelStore) : Op → ChannelStore
  | .insert c => insert c s
  | .update c => update jsonArray c s
  | .updateChannelStatus cached id usingKey status =>
    updateChannelStatus jsonArray cached id usingKey status s
  | .enableChannelByTag tag => enableChannelByTag tag s
  | .disableChannelByTag tag => disableChannelByTag tag s
  | .editChannelByTag tag e => editChannelByTag tag e s
  | .batchSetChannelTag ids tag => batchSetChannelTag ids tag s
  | .delete id => delete id s
  | .deleteChannelByStatus status => deleteChannelByStatus status s
  | .deleteDisabledChannel => deleteDisabledChannel s

/-- The condition, on the store before an operation, under which it keeps the mirror. -/
def KeepsMirror (s : ChannelStore) : Op → Prop
  -- the pairs of the new channel are told apart
  | .insert c => s.channels.get? c.id = none → c.withDefaults.PairsDistinct
  -- the channel exists, and the pairs of its updated row are told apart
  | .update c => c.id ≠ 0 → ∃ row, s.channels.get? c.id = some row ∧
      ((c.recount jsonArray (some row)).updates row).PairsDistinct
  -- enabling a key of a multi-key channel does not leave it disabled another way
  | .updateChannelStatus cached id usingKey status => ∀ c, s.channels.get? id = some c →
      status = .enabled → ¬ cached.settles status → c.channelInfo.isMultiKey →
        c.getKeys jsonArray ≠ [] → c.status ≠ .enabled → c.status ≠ .autoDisabled →
          (c.keyStatuses jsonArray usingKey status).rows.length < c.channelInfo.multiKeySize
  | .enableChannelByTag _ => True
  | .disableChannelByTag _ => True
  -- the pairs of the edited channels are told apart, or no weight is reset to zero
  | .editChannelByTag tag e =>
    if e.shouldReCreateAbilities then
      ∀ c ∈ s.channels, (c.tag = some tag → (e.apply tag c).PairsDistinct) ∧
        (c.tag ≠ some tag → c.tag = some (e.updatedTag tag) → c.PairsDistinct)
    else e.weight = some 0 → ∀ c ∈ s.channels, c.tag = some tag → c.getWeight = 0
  -- the channels have the tag already
  | .batchSetChannelTag ids tag => ∀ c ∈ s.channels, c.id ∈ ids → c.PairsDistinct ∧ c.tag = tag
  | .delete _ => True
  -- there is nothing to delete
  | .deleteChannelByStatus status => ∀ c ∈ s.channels, c.status ≠ status
  | .deleteDisabledChannel => ∀ c ∈ s.channels,
      c.status ≠ .autoDisabled ∧ c.status ≠ .manuallyDisabled

variable {jsonArray} {s : ChannelStore}

theorem mirror_rebuild_one (h : s.Mirror) {c d : Channel} {channels : Table Channel.id}
    (hd : channels.get? c.id = some d) (hpairs : c.pairs = d.pairs)
    (hout : ∀ id, c.id ≠ id → channels.get? id = s.channels.get? id) :
    Mirror ⟨channels, updateAbilities c s.abilities⟩ ↔
      c.PairsDistinct ∧ ∀ p ∈ c.pairs, c.ability p = d.ability p := by
  have hin : ∀ e ∈ [c], ∃ d, channels.get? e.id = some d ∧ e.pairs = d.pairs := by
    simpa using ⟨d, hd, hpairs⟩
  have hrebuild := mirror_rebuild h (by simp) hin (by simpa using hout)
  simpa [hd] using hrebuild

theorem insert_mirror_iff (h : s.Mirror) (c : Channel) :
    (insert c s).Mirror ↔ (s.channels.get? c.id = none → c.withDefaults.PairsDistinct) := by
  unfold insert
  cases hget : s.channels.get? c.id with
  | some d => exact iff_of_true h fun hnone => by cases hnone
  | none =>
    have hslice := mirror_iff.1 h c.id
    rw [hget] at hslice
    have hnone : ∀ a ∈ s.abilities, a.channelId ≠ c.withDefaults.id := fun a ha hid => by
      have hmem : a ∈ slice s.abilities c.id := ⟨ha, hid⟩
      rw [hslice] at hmem
      obtain ⟨d, hd, -⟩ := hmem
      cases hd
    have hfree : s.channels.get? c.withDefaults.id = none := hget
    -- adding to a channel without abilities is the same as rebuilding it
    have hadd : addAbilities c.withDefaults s.abilities =
        updateAbilities c.withDefaults s.abilities := by
      rw [updateAbilities, Table.filter_eq_self hnone]
    rw [if_neg (by simp), hadd, mirror_rebuild_one h (Table.get?_insertNew_self hfree) rfl
      fun id hid => Table.get?_insertNew_ne hid.symm]
    simp

theorem recount_id (c : Channel) (stored : Option Channel) :
    (c.recount jsonArray stored).id = c.id := by
  unfold Channel.recount
  split <;> rfl

theorem update_mirror_iff (h : s.Mirror) (c : Channel) :
    (update jsonArray c s).Mirror ↔ (c.id ≠ 0 → ∃ row, s.channels.get? c.id = some row ∧
      ((c.recount jsonArray (some row)).updates row).PairsDistinct) := by
  simp only [update, recount_id]
  split
  next h0 => exact iff_of_true h fun hne => absurd h0 hne
  next h0 =>
    generalize hupd : c.recount jsonArray (s.channels.get? c.id) = upd
    have hid : upd.id = c.id := by rw [← hupd, recount_id]
    have hget : (s.channels.modify c.id upd.updates upd.updates_id).get? c.id =
        (s.channels.get? c.id).map upd.updates := Table.get?_modify_self
    cases hrow : s.channels.get? c.id with
    | none =>
      -- the abilities of the argument are added for a channel that does not exist
      refine iff_of_false (fun h' => ?_) fun hall => ?_
      · rw [hrow, Option.map_none] at hget
        rw [hget, Option.getD_none] at h'
        obtain ⟨a, ha⟩ := List.exists_mem_of_ne_nil _ (abilityRows_ne_nil upd)
        obtain ⟨p, -, rfl⟩ := Channel.of_mem_abilityRows ha
        obtain ⟨d, hd, q, -, hda⟩ := (h' _).1 (mem_updateAbilities.2 (.inr ha))
        have hdid : d.id = upd.id := congrArg Ability.channelId hda
        exact Table.get?_eq_none.1 hget d hd (hdid.trans hid)
      · obtain ⟨row, hrow', -⟩ := hall h0
        cases hrow'
    | some row =>
      rw [hrow, Option.map_some] at hget
      have hrowid : row.id = c.id := Table.key_of_get? hrow
      have hself : (upd.updates row).id = c.id := hrowid
      have hout : ∀ id, (upd.updates row).id ≠ id →
          (s.channels.modify c.id upd.updates upd.updates_id).get? id = s.channels.get? id :=
        fun id hne => Table.get?_modify_ne fun heq => hne (hself.trans heq.symm)
      rw [hget, Option.getD_some, mirror_rebuild_one h (by rw [hself]; exact hget) rfl hout]
      rw [hrow] at hupd
      simp [h0, hupd]

theorem setStatusByTag_mirror (h : s.Mirror) (tag : String) (status : ChannelStatus) :
    (setStatusByTag tag status s).Mirror := by
  unfold setStatusByTag updateAbilityStatusByTag
  rw [mirror_relabel h]
  · intro c _ p _
    have htag : (c.ability p).tag = c.tag := rfl
    rw [htag]
    split
    · rfl
    · rfl
  · exact fun _ => rfl

theorem withStatus_mirror_iff (h : s.Mirror) {c : Channel} {id : Nat}
    (hget : s.channels.get? id = some c) (status : ChannelStatus) (info : ChannelInfo)
    (enabled : Bool) :
    Mirror ⟨s.channels.modify id (Channel.withStatus status info) (Channel.withStatus_id status info),
        updateAbilityStatus id enabled s.abilities⟩ ↔
      enabled = decide (status = .enabled) := by
  have hc := Table.mem_of_get? hget
  have hid : c.id = id := Table.key_of_get? hget
  unfold Table.modify updateAbilityStatus
  rw [mirror_relabel h]
  · constructor
    · intro hall
      obtain ⟨p, hp⟩ := List.exists_mem_of_ne_nil _ (pairs_ne_nil c)
      have hcp := hall c hc p hp
      have hchan : (c.ability p).channelId = id := hid
      rw [if_pos hchan, if_pos hid] at hcp
      exact congrArg Ability.enabled hcp
    · rintro rfl d hd p -
      have hkey : (d.ability p).channelId = d.id := rfl
      rw [hkey]
      split
      · rfl
      · rfl
  · exact fun _ => rfl

theorem sameStatus_mirror (h : s.Mirror) {c : Channel} {id : Nat}
    (hget : s.channels.get? id = some c) (info : ChannelInfo) :
    Mirror ⟨s.channels.modify id (Channel.withStatus c.status info)
      (Channel.withStatus_id c.status info), s.abilities⟩ := by
  have hself : updateAbilityStatus id (c.status = .enabled) s.abilities = s.abilities := by
    refine Table.modifyWhere_eq_self fun a ha hid => ?_
    obtain ⟨d, hd, p, -, rfl⟩ := (h a).1 ha
    have hdc : d = c := Table.eq_of_key_eq hd (Table.mem_of_get? hget)
      (Eq.trans hid (Table.key_of_get? hget).symm)
    rw [hdc]
    rfl
  rw [← hself]
  exact (withStatus_mirror_iff h hget _ _ _).2 rfl

/-- When the status a channel is saved with agrees, as to being enabled, with the status asked for:
it does, unless a key is enabled on a channel that then is disabled because enough others are. -/
theorem statusUpdated_agrees_iff {c : Channel} {usingKey : String} {status : ChannelStatus}
    (hst : c.status ≠ status) :
    (status = .enabled → c.channelInfo.isMultiKey → c.getKeys jsonArray ≠ [] →
        c.status ≠ .enabled → c.status ≠ .autoDisabled →
          (c.keyStatuses jsonArray usingKey status).rows.length < c.channelInfo.multiKeySize) ↔
      ((!c.channelInfo.isMultiKey || c.status ≠ (c.statusUpdated jsonArray usingKey status).status) =
        true → (status = .enabled ↔ (c.statusUpdated jsonArray usingKey status).status = .enabled)) := by
  cases hmulti : c.channelInfo.isMultiKey with
  | false => simp [Channel.statusUpdated, hmulti]
  | true =>
    by_cases hkeys : c.getKeys jsonArray = []
    · simp [Channel.statusUpdated, hmulti, Channel.handlerMultiKeyUpdate, hkeys]
    by_cases hall : (c.keyStatuses jsonArray usingKey status).rows.length ≥
        c.channelInfo.multiKeySize
    · have hsaved : (c.statusUpdated jsonArray usingKey status).status = .autoDisabled := by
        simp [Channel.statusUpdated, hmulti, Channel.handlerMultiKeyUpdate, hkeys, hall]
      rw [hsaved]
      constructor
      · intro hl hne
        have hauto : c.status ≠ .autoDisabled := by simpa using hne
        refine ⟨fun hen => ?_, fun hen => by cases hen⟩
        have hlt := hl hen rfl hkeys (fun he => hst (he.trans hen.symm)) hauto
        omega
      · intro hr hen _ _ _ hauto
        cases (hr (by simpa using hauto)).1 hen
    · have hsaved : (c.statusUpdated jsonArray usingKey status).status = c.status := by
        simp [Channel.statusUpdated, hmulti, Channel.handlerMultiKeyUpdate, hkeys, hall]
      rw [hsaved]
      refine iff_of_true (fun _ _ _ _ _ => by omega) fun hne => ?_
      simp at hne

/-- Updating the status of one channel. -/
theorem updateChannelStatus_mirror_iff (h : s.Mirror) (cached : CachedChannel) (id : Nat)
    (usingKey : String) (status : ChannelStatus) :
    (updateChannelStatus jsonArray cached id usingKey status s).Mirror ↔
      ∀ c, s.channels.get? id = some c → status = .enabled → ¬ cached.settles status →
        c.channelInfo.isMultiKey → c.getKeys jsonArray ≠ [] → c.status ≠ .enabled →
          c.status ≠ .autoDisabled →
            (c.keyStatuses jsonArray usingKey status).rows.length < c.channelInfo.multiKeySize := by
  unfold updateChannelStatus
  split
  next hsettles => exact iff_of_true h fun _ _ _ hnot => absurd hsettles hnot
  next hsettles =>
    cases hget : s.channels.get? id with
    | none => exact iff_of_true h fun c hc => by cases hc
    | some c =>
      have hcond : (∀ d, some c = some d → status = .enabled → ¬ cached.settles status →
          d.channelInfo.isMultiKey → d.getKeys jsonArray ≠ [] → d.status ≠ .enabled →
            d.status ≠ .autoDisabled →
              (d.keyStatuses jsonArray usingKey status).rows.length < d.channelInfo.multiKeySize) ↔
          (status = .enabled → c.channelInfo.isMultiKey → c.getKeys jsonArray ≠ [] →
            c.status ≠ .enabled → c.status ≠ .autoDisabled →
              (c.keyStatuses jsonArray usingKey status).rows.length <
                c.channelInfo.multiKeySize) := by
        constructor
        · exact fun hall hen => hall c rfl hen hsettles
        · rintro hall d ⟨⟩ hen -
          exact hall hen
      rw [hcond]
      dsimp only
      by_cases hst : c.status = status
      · rw [if_pos hst]
        exact iff_of_true h fun hen _ _ hne => absurd (hst.trans hen) hne
      · rw [if_neg hst, statusUpdated_agrees_iff hst]
        generalize c.statusUpdated jsonArray usingKey status = saved
        by_cases hupd : (!c.channelInfo.isMultiKey || c.status ≠ saved.status) = true
        · rw [if_pos hupd, withStatus_mirror_iff h hget]
          simp only [hupd, true_imp_iff, decide_eq_decide]
        · have hsame : c.status = saved.status := by simp at hupd; exact hupd.2
          rw [if_neg hupd]
          refine iff_of_true ?_ fun htrue => absurd htrue hupd
          rw [← hsame]
          exact sameStatus_mirror h hget _

theorem tag_apply {e : TagEdit} {tag : String} {c : Channel} (htag : c.tag = some tag) :
    (e.apply tag c).tag = some (e.updatedTag tag) := by
  unfold TagEdit.apply TagEdit.updatedTag
  cases hnew : e.newTag with
  | none => simpa using htag
  | some t =>
    by_cases ht : t = tag
    · simp [ht, htag]
    · simp [ht]

theorem abilityEdit_eq_iff {e : TagEdit} {tag : String} {c : Channel} (htag : c.tag = some tag)
    (p : String × String) :
    abilityEdit e.newTag e.priority e.weight (c.ability p) = (e.apply tag c).ability p ↔
      (e.weight = some 0 → c.getWeight = 0) := by
  have hnew : (e.newTag <|> some tag) = some (e.updatedTag tag) := by
    unfold TagEdit.updatedTag
    cases e.newTag <;> rfl
  have hprio : e.priority.getD c.getPriority = (e.priority <|> c.priority).getD 0 := by
    cases e.priority <;> rfl
  have hweight : (if e.weight.getD 0 = 0 then c.getWeight else e.weight.getD 0) =
      (e.weight <|> c.weight).getD 0 ↔ (e.weight = some 0 → c.getWeight = 0) := by
    cases e.weight with
    | none => simp [Channel.getWeight]
    | some w => by_cases hw : w = 0 <;> simp [hw]
  have htag' := tag_apply (e := e) htag
  simp only [abilityEdit, Channel.ability, Ability.mk.injEq, htag, hnew, htag', hprio, true_and,
    and_true]
  exact ⟨fun hand => hweight.1 hand.2.2.2, fun hw => ⟨rfl, rfl, rfl, hweight.2 hw⟩⟩

theorem editInPlace_mirror_iff (h : s.Mirror) (tag : String) (e : TagEdit)
    (hstay : e.shouldReCreateAbilities = false) :
    (editChannelByTag tag e s).Mirror ↔
      (e.weight = some 0 → ∀ c ∈ s.channels, c.tag = some tag → c.getWeight = 0) := by
  unfold editChannelByTag updateAbilityByTag
  rw [hstay, if_neg Bool.false_ne_true, mirror_relabel h]
  · have hkey : ∀ (c : Channel) (p : String × String), (c.ability p).tag = c.tag := fun _ _ => rfl
    simp only [hkey]
    constructor
    · intro hall hw c hc htag
      obtain ⟨p, hp⟩ := List.exists_mem_of_ne_nil _ (pairs_ne_nil c)
      have hcp := hall c hc p hp
      rw [if_pos htag, if_pos htag] at hcp
      exact (abilityEdit_eq_iff htag p).1 hcp hw
    · intro hall c hc p _
      split
      next htag => exact (abilityEdit_eq_iff htag p).2 fun hw => hall hw c hc htag
      next => rfl
  · intro c
    simp only [TagEdit.shouldReCreateAbilities, Bool.or_eq_false_iff] at hstay
    have hmodels : (e.apply tag c).models = c.models := if_neg (ne_true_of_eq_false hstay.1)
    have hgroup : (e.apply tag c).group = c.group := if_neg (ne_true_of_eq_false hstay.2)
    simp only [Channel.pairs, Channel.modelList, Channel.groups, hmodels, hgroup]

/-- Editing by tag where abilities are created again. -/
theorem editReCreate_mirror_iff (h : s.Mirror) (tag : String) (e : TagEdit)
    (hre : e.shouldReCreateAbilities = true) :
    (editChannelByTag tag e s).Mirror ↔
      ∀ c ∈ s.channels, (c.tag = some tag → (e.apply tag c).PairsDistinct) ∧
        (c.tag ≠ some tag → c.tag = some (e.updatedTag tag) → c.PairsDistinct) := by
  unfold editChannelByTag
  rw [hre, if_pos rfl]
  generalize hch : s.channels.modifyWhere (fun c => c.tag = some tag) (e.apply tag)
    (e.apply_id tag) = channels
  have hget : ∀ id, channels.get? id =
      (s.channels.get? id).map fun c => if c.tag = some tag then e.apply tag c else c := by
    rw [← hch]
    exact fun id => Table.get?_modifyWhere
  have hmem : ∀ d, d ∈ channels ↔
      ∃ c ∈ s.channels, (if c.tag = some tag then e.apply tag c else c) = d := by
    rw [← hch]
    exact fun d => Table.mem_modifyWhere
  have hl : ∀ d, d ∈ channels.rows.filter (fun c => c.tag = some (e.updatedTag tag)) ↔
      d ∈ channels ∧ d.tag = some (e.updatedTag tag) := by
    intro d
    rw [List.mem_filter, decide_eq_true_eq, Table.mem_rows]
  rw [mirror_rebuild h (channels.nodup.sublist (List.filter_sublist.map _))]
  · constructor
    · intro hall c hc
      constructor
      · intro htag
        refine (hall _ ((hl _).2 ⟨(hmem _).2 ⟨c, hc, if_pos htag⟩, tag_apply htag⟩)).1
      · intro hne htag
        exact (hall c ((hl c).2 ⟨(hmem c).2 ⟨c, hc, if_neg hne⟩, htag⟩)).1
    · intro hall d hd
      obtain ⟨hd, hdtag⟩ := (hl d).1 hd
      refine ⟨?_, fun d' hd' => ?_⟩
      · obtain ⟨c, hc, rfl⟩ := (hmem d).1 hd
        split
        next htag => exact (hall c hc).1 htag
        next hne =>
          rw [if_neg hne] at hdtag
          exact (hall c hc).2 hne hdtag
      · rw [Table.get?_key hd] at hd'
        cases hd'
        exact fun _ _ => rfl
  · intro d hd
    exact ⟨d, Table.get?_key ((hl d).1 hd).1, rfl⟩
  · intro id hid
    rw [hget]
    cases hrow : s.channels.get? id with
    | none => rfl
    | some c =>
      rw [Option.map_some, if_neg]
      intro htag
      have hcid : c.id = id := Table.key_of_get? hrow
      refine hid (e.apply tag c) ((hl _).2 ⟨(hmem _).2 ?_, tag_apply htag⟩) hcid
      exact ⟨c, Table.mem_of_get? hrow, if_pos htag⟩

/-- Setting the tag of several channels. -/
theorem batchSetChannelTag_mirror_iff (h : s.Mirror) (ids : List Nat) (tag : Option String) :
    (batchSetChannelTag ids tag s).Mirror ↔
      ∀ c ∈ s.channels, c.id ∈ ids → c.PairsDistinct ∧ c.tag = tag := by
  unfold batchSetChannelTag
  generalize hch : s.channels.modifyWhere (fun c => c.id ∈ ids) (Channel.withTag tag)
    (Channel.withTag_id tag) = channels
  have hget : ∀ id, channels.get? id =
      (s.channels.get? id).map fun c => if c.id ∈ ids then c.withTag tag else c := by
    rw [← hch]
    exact fun id => Table.get?_modifyWhere
  have hl : ∀ c, c ∈ s.channels.rows.filter (fun c => c.id ∈ ids) ↔ c ∈ s.channels ∧ c.id ∈ ids := by
    intro c
    rw [List.mem_filter, decide_eq_true_eq, Table.mem_rows]
  have hgetl : ∀ c ∈ s.channels.rows.filter (fun c => c.id ∈ ids),
      channels.get? c.id = some (c.withTag tag) := by
    intro c hc
    obtain ⟨hc, hid⟩ := (hl c).1 hc
    rw [hget, Table.get?_key hc, Option.map_some, if_pos hid]
  rw [mirror_rebuild h (s.channels.nodup.sublist (List.filter_sublist.map _))]
  · have htag : ∀ c : Channel, (∀ p ∈ c.pairs, c.ability p = (c.withTag tag).ability p) ↔
        c.tag = tag := by
      intro c
      constructor
      · intro hall
        obtain ⟨p, hp⟩ := List.exists_mem_of_ne_nil _ (pairs_ne_nil c)
        exact congrArg Ability.tag (hall p hp)
      · rintro rfl p -
        rfl
    constructor
    · intro hall c hc hid
      have hcl := (hl c).2 ⟨hc, hid⟩
      exact ⟨(hall c hcl).1, (htag c).1 ((hall c hcl).2 _ (hgetl c hcl))⟩
    · intro hall c hc
      obtain ⟨hcs, hid⟩ := (hl c).1 hc
      refine ⟨(hall c hcs hid).1, fun d hd => ?_⟩
      rw [hgetl c hc] at hd
      cases hd
      exact (htag c).2 (hall c hcs hid).2
  · intro c hc
    exact ⟨c.withTag tag, hgetl c hc, rfl⟩
  · intro id hid
    rw [hget]
    cases hrow : s.channels.get? id with
    | none => rfl
    | some c =>
      rw [Option.map_some, if_neg]
      intro hmem
      exact hid c ((hl c).2 ⟨Table.mem_of_get? hrow, hmem⟩) (Table.key_of_get? hrow)

theorem delete_mirror (h : s.Mirror) (id : Nat) : (delete id s).Mirror := by
  unfold delete
  split
  · exact h
  · intro a
    simp only [Table.mem_filter, h a]
    constructor
    · rintro ⟨⟨c, hc, p, hp, rfl⟩, hid⟩
      exact ⟨c, ⟨hc, hid⟩, p, hp, rfl⟩
    · rintro ⟨c, ⟨hc, hid⟩, p, hp, rfl⟩
      exact ⟨⟨c, hc, p, hp, rfl⟩, hid⟩

theorem filter_mirror_iff (h : s.Mirror) {P : Channel → Prop} [DecidablePred P] :
    Mirror { s with channels := s.channels.filter P } ↔ ∀ c ∈ s.channels, P c := by
  constructor
  · intro h' c hc
    obtain ⟨p, hp⟩ := List.exists_mem_of_ne_nil _ (pairs_ne_nil c)
    obtain ⟨d, hd, q, -, hda⟩ := (h' _).1 ((h _).2 ⟨c, hc, p, hp, rfl⟩)
    obtain ⟨hds, hPd⟩ := Table.mem_filter.1 hd
    have hid : d.id = c.id := congrArg Ability.channelId hda
    rwa [← Table.eq_of_key_eq hds hc hid]
  · intro hall
    rwa [Table.filter_eq_self hall]

/-! ## Sequences -/

theorem step_mirror_iff (h : s.Mirror) (o : Op) :
    (step jsonArray s o).Mirror ↔ KeepsMirror jsonArray s o := by
  cases o with
  | insert c => exact insert_mirror_iff h c
  | update c => exact update_mirror_iff h c
  | updateChannelStatus cached id usingKey status =>
    exact updateChannelStatus_mirror_iff h cached id usingKey status
  | enableChannelByTag tag => exact iff_of_true (setStatusByTag_mirror h tag _) trivial
  | disableChannelByTag tag => exact iff_of_true (setStatusByTag_mirror h tag _) trivial
  | editChannelByTag tag e =>
    show (editChannelByTag tag e s).Mirror ↔ if _ then _ else _
    cases hre : e.shouldReCreateAbilities with
    | true =>
      rw [if_pos rfl]
      exact editReCreate_mirror_iff h tag e hre
    | false =>
      rw [if_neg Bool.false_ne_true]
      exact editInPlace_mirror_iff h tag e hre
  | batchSetChannelTag ids tag => exact batchSetChannelTag_mirror_iff h ids tag
  | delete id => exact iff_of_true (delete_mirror h id) trivial
  | deleteChannelByStatus status => exact filter_mirror_iff h
  | deleteDisabledChannel =>
    refine (filter_mirror_iff h).trans ⟨fun hall c hc => ?_, fun hall c hc => ?_⟩
    · exact not_or.1 (hall c hc)
    · exact not_or.2 (hall c hc)

/-- A sequence of operations keeps the mirror after each of them exactly when each meets its condition
in the store it finds. -/
theorem mirror_holds_iff (h : s.Mirror) (ops : List Op) :
    Holds (step jsonArray) Mirror s ops ↔ Meets (step jsonArray) (KeepsMirror jsonArray) s ops :=
  holds_iff_meets (I := fun _ => True) (fun _ _ _ => trivial)
    (fun _ o _ hs => step_mirror_iff hs o) trivial h

end

/-- The empty store. -/
def init : ChannelStore := ⟨.empty, .empty⟩

theorem mirror_init : init.Mirror := by
  intro a
  constructor
  · intro ha
    cases ha
  · rintro ⟨c, hc, -⟩
    cases hc

/-- One channel that serves two models in a group. -/
def parkedChannel : Channel where
  id := 1
  key := "sk"
  status := .manuallyDisabled
  models := "a,b"
  group := "default"
  channelInfo := {}

/-- The rule at a run that creates a channel, enables the channels of a tag and deletes it again. -/
theorem mirror_holds_iff_parked :
    Holds (step fun _ => none) Mirror init
        [.insert parkedChannel, .enableChannelByTag "t", .delete 1] ↔
      Meets (step fun _ => none) (KeepsMirror fun _ => none) init
        [.insert parkedChannel, .enableChannelByTag "t", .delete 1] :=
  mirror_holds_iff mirror_init _

/-- Deleting the disabled channels leaves the abilities of a channel that was created disabled. -/
theorem deleteDisabled_leaves_abilities :
    ¬ Holds (step fun _ => none) Mirror init [.insert parkedChannel, .deleteDisabledChannel] := by
  intro h
  have hlast : (deleteDisabledChannel (insert parkedChannel init)).Mirror := h.last
  have hleft : parkedChannel.ability ("default", "a") ∈
      (deleteDisabledChannel (insert parkedChannel init)).abilities := by decide
  obtain ⟨c, hc, -⟩ := (hlast _).1 hleft
  have hnone : (deleteDisabledChannel (insert parkedChannel init)).channels = .empty := by decide
  rw [hnone] at hc
  cases hc

end ChannelStore

end NewApi

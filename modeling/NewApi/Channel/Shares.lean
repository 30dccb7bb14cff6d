import Mathlib.Algebra.Order.BigOperators.Group.List
import Mathlib.Algebra.Order.Ring.Nat
import NewApi.Channel.Routing

/-!
# The shares of a drawn channel

`GetChannel` draws one of the abilities that it has found, by weights that are ten more than they say. The sum of these
is a `uint`, the draw an `int` below it, and the walk stops where the draw has come down to zero, not below it. So the
first channel has a draw too many and the last one a draw too few, and the shares are exact just for a single channel
(`exactShares_iff`).
-/

namespace NewApi.ChannelStore

/-- An `int` of 64 bits. -/
def toInt (x : Int) : Int := x.bmod (2 ^ 64)

/-- `weightSum`, a `uint` of 64 bits. -/
def weightSum (abilities : List Ability) : Nat := abilities.foldl (fun sum a => (sum + (a.weight + 10)) % 2 ^ 64) 0

/-- The second loop. -/
def walkWeights : Int → List Ability → Option Ability
  | _, [] => none
  | weight, a :: abilities =>
    let weight := toInt (weight - (toInt a.weight + 10))
    if weight ≤ 0 then some a else walkWeights weight abilities

/-- What follows the query, with what `GetRandomInt` draws: none where this panics, as it does for no draws at all. -/
def drawAbility (s : ChannelStore) (abilities : List Ability) (draw : Nat → Nat) : Option Outcome :=
  let max := toInt (weightSum abilities)
  if max ≤ 0 then none
  else
    match walkWeights (draw max.toNat) abilities with
    | none => some (.error "record not found")
    | some a =>
      match s.channels.get? a.channelId with
      | none => some (.error "record not found")
      | some c => some (.channel c.id)

/-- The weights, each ten more than it says. -/
def totalWeight (abilities : List Ability) : Nat := (abilities.map fun a => a.weight + 10).sum

/-- Each draw below the total weight returns a channel of the list, and each of these is returned by as many as it
weighs. -/
structure ExactShares (s : ChannelStore) (abilities : List Ability) : Prop where
  draws : toInt (weightSum abilities) = totalWeight abilities
  returned : ∀ r < totalWeight abilities, ∃ a ∈ abilities, s.drawAbility abilities (fun _ => r) = some (.channel a.channelId)
  shares : ∀ a ∈ abilities, (List.range (totalWeight abilities)).countP (fun r =>
    s.drawAbility abilities (fun _ => r) = some (.channel a.channelId)) = a.weight + 10

section
variable {s : ChannelStore} {abilities : List Ability} {a : Ability} {n r : Nat} {x : Int}

theorem toInt_of_lt (hlow : -2 ^ 63 ≤ x) (hhigh : x < 2 ^ 63) : toInt x = x := by
  rw [toInt]
  exact Int.bmod_eq_of_le (by omega) (by omega)

theorem toInt_lt : toInt x < 2 ^ 63 := by
  have h : x.bmod (2 ^ 64) < (2 ^ 64 + 1) / 2 := Int.bmod_lt (by decide)
  rw [toInt]
  omega

theorem weightSum_eq : weightSum abilities = totalWeight abilities % 2 ^ 64 := by
  have h : ∀ sum, abilities.foldl (fun sum a => (sum + (a.weight + 10)) % 2 ^ 64) (sum % 2 ^ 64) =
      (sum + totalWeight abilities) % 2 ^ 64 := by
    induction abilities with
    | nil => exact fun sum => rfl
    | cons a abilities ih =>
      intro sum
      rw [List.foldl_cons, Nat.mod_add_mod, ih, totalWeight, totalWeight, List.map_cons, List.sum_cons, Nat.add_assoc]
  have h0 := h 0
  rwa [Nat.zero_add] at h0

/-- All draws are possible just where the total weight is an `int`. -/
theorem toInt_weightSum_iff : toInt (weightSum abilities) = totalWeight abilities ↔ totalWeight abilities < 2 ^ 63 := by
  constructor
  · intro h
    have hlt := @toInt_lt (weightSum abilities)
    omega
  · intro h
    rw [weightSum_eq, Nat.mod_eq_of_lt (by omega)]
    exact toInt_of_lt (by omega) (by omega)

theorem walkWeights_head (hr : r ≤ a.weight + 10) (ha : a.weight + 10 < 2 ^ 63) :
    walkWeights r (a :: abilities) = some a := by
  have hweight : toInt a.weight = a.weight := toInt_of_lt (by omega) (by omega)
  rw [walkWeights, hweight, toInt_of_lt (by omega) (by omega)]
  exact if_pos (by omega)

theorem drawAbility_of_walk (hmax : 0 < toInt (weightSum abilities)) (hwalk : walkWeights r abilities = some a)
    (hchannel : (s.channels.get? a.channelId).isSome) :
    s.drawAbility abilities (fun _ => r) = some (.channel a.channelId) := by
  obtain ⟨c, hc⟩ := Option.isSome_iff_exists.1 hchannel
  have hid : c.id = a.channelId := Table.key_of_get? hc
  unfold drawAbility
  rw [if_neg (by omega), hwalk]
  dsimp only
  rw [hc]
  exact congrArg (fun id => some (Outcome.channel id)) hid

theorem walk_of_drawAbility (h : s.drawAbility abilities (fun _ => r) = some (.channel n)) :
    ∃ a, walkWeights r abilities = some a ∧ (s.channels.get? a.channelId).isSome := by
  unfold drawAbility at h
  dsimp only at h
  split at h
  · cases h
  split at h
  · cases h
  next a ha =>
    split at h
    · cases h
    next c hc => exact ⟨a, ha, Option.isSome_of_eq_some hc⟩

theorem isSome_head (h : s.drawAbility (a :: abilities) (fun _ => 0) = some (.channel n)) (ha : a.weight + 10 < 2 ^ 63) :
    (s.channels.get? a.channelId).isSome := by
  obtain ⟨a', hwalk, hchannel⟩ := walk_of_drawAbility h
  obtain rfl := Option.some.inj ((walkWeights_head (Nat.zero_le _) ha).symm.trans hwalk)
  exact hchannel

/-- Where no weight leaves the range of an `int`, the walk is the pick that starts one step lower. -/
theorem walkWeights_eq (h : ∀ a ∈ abilities, a.weight + 10 < 2 ^ 63) (hlow : 0 ≤ x) (hhigh : x < 2 ^ 63) :
    walkWeights x abilities = Pick.pickBelow (fun a => (a.weight : Int) + 10) (x - 1) abilities := by
  induction abilities generalizing x with
  | nil => rfl
  | cons a abilities ih =>
    rw [List.forall_mem_cons] at h
    have hweight : toInt a.weight = a.weight := toInt_of_lt (by omega) (by omega)
    rw [walkWeights, Pick.pickBelow, hweight, toInt_of_lt (by omega) (by omega)]
    by_cases hstop : x - (a.weight + 10) ≤ 0
    · rw [if_pos hstop, if_pos (by omega)]
    · rw [if_neg hstop, if_neg (by omega), ih h.2 (by omega) (by omega), sub_right_comm]

theorem weight_le_totalWeight (h : a ∈ abilities) : a.weight + 10 ≤ totalWeight abilities :=
  List.le_sum_of_mem (List.mem_map_of_mem (f := fun a => a.weight + 10) h)

/-- Where the total weight is an `int`, a draw below it is that of `getChannel`. -/
theorem drawAbility_eq (htotal : totalWeight abilities < 2 ^ 63) (hr : r < totalWeight abilities) :
    s.drawAbility abilities (fun _ => r) = some (s.pickAbility abilities r) := by
  have hmax := toInt_weightSum_iff.2 htotal
  have hwalk : walkWeights r abilities = Pick.pickBelow (fun a => (a.weight : Int) + 10) (r - 1) abilities :=
    walkWeights_eq (fun a ha => (weight_le_totalWeight ha).trans_lt htotal) (by omega) (by omega)
  unfold drawAbility pickAbility
  rw [if_neg (by omega), hwalk]
  cases Pick.pickBelow (fun a => (a.weight : Int) + 10) (r - 1) abilities with
  | none => rfl
  | some a =>
    dsimp only
    cases s.channels.get? a.channelId <;> rfl

/-- The shares are exact just where there is one ability, its channel is in the store, and its weight is an `int`. -/
theorem exactShares_iff (h : abilities ≠ []) : s.ExactShares abilities ↔
    ∃ a, abilities = [a] ∧ a.weight + 10 < 2 ^ 63 ∧ (s.channels.get? a.channelId).isSome := by
  constructor
  · intro hexact
    have hint := toInt_weightSum_iff.1 hexact.draws
    match abilities, h with
    | [a], _ =>
      have htotal : totalWeight [a] = a.weight + 10 := by simp [totalWeight]
      obtain ⟨a', -, hdraw⟩ := hexact.returned 0 (by omega)
      exact ⟨a, rfl, by omega, isSome_head hdraw (by omega)⟩
    | a :: b :: rest, _ =>
      exfalso
      have htotal : totalWeight (a :: b :: rest) = a.weight + 11 + (b.weight + 9 + totalWeight rest) := by
        simp only [totalWeight, List.map_cons, List.sum_cons]
        omega
      have hmax : 0 < toInt (weightSum (a :: b :: rest)) := by
        rw [hexact.draws]
        omega
      obtain ⟨a', -, hdraw⟩ := hexact.returned 0 (by omega)
      have hchannel := isSome_head hdraw (by omega)
      -- the draws of the first ability are one more than it weighs
      have hall : ∀ r ∈ List.range (a.weight + 11),
          s.drawAbility (a :: b :: rest) (fun _ => r) = some (.channel a.channelId) := fun r hr =>
        drawAbility_of_walk hmax (walkWeights_head (Nat.lt_succ_iff.1 (List.mem_range.1 hr)) (by omega)) hchannel
      have hshare := hexact.shares a List.mem_cons_self
      rw [htotal, List.range_add, List.countP_append, List.countP_eq_length.2 fun r hr => decide_eq_true (hall r hr),
        List.length_range] at hshare
      omega
  · rintro ⟨a, rfl, ha, hchannel⟩
    have htotal : totalWeight [a] = a.weight + 10 := by simp [totalWeight]
    have hdraws : toInt (weightSum [a]) = totalWeight [a] := toInt_weightSum_iff.2 (by omega)
    have hreturned : ∀ r < totalWeight [a], s.drawAbility [a] (fun _ => r) = some (.channel a.channelId) := fun r hr =>
      drawAbility_of_walk (by omega) (walkWeights_head (by omega) ha) hchannel
    refine ⟨hdraws, fun r hr => ⟨a, List.mem_singleton_self a, hreturned r hr⟩, List.forall_mem_singleton.2 ?_⟩
    rw [List.countP_eq_length.2, List.length_range, htotal]
    exact fun r hr => decide_eq_true (hreturned r (List.mem_range.1 hr))

end

/-- A channel for one model. -/
def plainChannel (id : Nat) : Channel := { id, status := .enabled, models := "m", group := "default" }

/-- Two channels that weigh nothing. -/
def evenStore : ChannelStore where
  channels := ⟨[plainChannel 1, plainChannel 2], by decide⟩
  abilities := ⟨(plainChannel 1).abilityRows ++ (plainChannel 2).abilityRows, by decide⟩

theorem exactShares_single : evenStore.ExactShares [(plainChannel 1).ability ("default", "m")] :=
  (exactShares_iff (List.cons_ne_nil _ _)).2 ⟨_, rfl, by decide, by decide⟩

/-- The first of two channels has 11 of the 20 draws, and the second one 9. -/
theorem evenStore_shares :
    (evenStore.getChannelQuery "default" "m" 0).toOption = some evenStore.abilities.rows ∧
      totalWeight evenStore.abilities.rows = 20 ∧
      (List.range 20).countP (fun r => evenStore.drawAbility evenStore.abilities.rows (fun _ => r) = some (.channel 1)) = 11 ∧
      (List.range 20).countP (fun r => evenStore.drawAbility evenStore.abilities.rows (fun _ => r) = some (.channel 2)) = 9 ∧
      ¬ evenStore.ExactShares evenStore.abilities.rows := by
  have hfirst : (List.range 20).countP (fun r =>
      evenStore.drawAbility evenStore.abilities.rows (fun _ => r) = some (.channel 1)) = 11 := by decide
  refine ⟨by decide, by decide, hfirst, by decide, fun h => ?_⟩
  have hshare := h.shares ((plainChannel 1).ability ("default", "m")) (by decide)
  exact absurd (hfirst.symm.trans hshare) (by decide)

end NewApi.ChannelStore

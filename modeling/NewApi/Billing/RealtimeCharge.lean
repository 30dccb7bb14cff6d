import NewApi.Billing.Realtime
import Mathlib.Algebra.BigOperators.Group.List.Basic

/-!
# What a realtime session is charged

A session is settled with the price of its summed usage, and each of its turns has been charged on its
own before that, so that what is taken is the price that is logged and the charges of the turns on top of
it. The sum counts each turn once, unless the balance check of a turn fails: then what the turn has left
is counted again at the end.
-/

namespace NewApi

namespace Billing

/-! ## Sums of usage -/

namespace RealtimeUsage

@[ext] theorem ext {a b : RealtimeUsage} (h₁ : a.totalTokens = b.totalTokens)
    (h₂ : a.inputTokens = b.inputTokens) (h₃ : a.outputTokens = b.outputTokens)
    (h₄ : a.inputCachedTokens = b.inputCachedTokens) (h₅ : a.inputTextTokens = b.inputTextTokens)
    (h₆ : a.inputAudioTokens = b.inputAudioTokens) (h₇ : a.outputTextTokens = b.outputTextTokens)
    (h₈ : a.outputAudioTokens = b.outputAudioTokens) : a = b := by
  cases a
  cases b
  congr

instance : AddCancelCommMonoid RealtimeUsage where
  add_assoc a b c := ext (Int.add_assoc ..) (Int.add_assoc ..) (Int.add_assoc ..) (Int.add_assoc ..)
    (Int.add_assoc ..) (Int.add_assoc ..) (Int.add_assoc ..) (Int.add_assoc ..)
  zero_add a := ext (Int.zero_add _) (Int.zero_add _) (Int.zero_add _) (Int.zero_add _)
    (Int.zero_add _) (Int.zero_add _) (Int.zero_add _) (Int.zero_add _)
  add_zero a := ext (Int.add_zero _) (Int.add_zero _) (Int.add_zero _) (Int.add_zero _)
    (Int.add_zero _) (Int.add_zero _) (Int.add_zero _) (Int.add_zero _)
  add_comm a b := ext (Int.add_comm ..) (Int.add_comm ..) (Int.add_comm ..) (Int.add_comm ..)
    (Int.add_comm ..) (Int.add_comm ..) (Int.add_comm ..) (Int.add_comm ..)
  nsmul := nsmulRec
  add_left_cancel a b c h := by
    injection h with h₁ h₂ h₃ h₄ h₅ h₆ h₇ h₈
    exact ext (Int.add_left_cancel h₁) (Int.add_left_cancel h₂) (Int.add_left_cancel h₃)
      (Int.add_left_cancel h₄) (Int.add_left_cancel h₅) (Int.add_left_cancel h₆)
      (Int.add_left_cancel h₇) (Int.add_left_cancel h₈)

end RealtimeUsage

/-! ## Turns -/

/-- What is charged of usage that is left over: all of it, where it has tokens. -/
def leftOver (usage : RealtimeUsage) : RealtimeUsage := if usage.totalTokens ≠ 0 then usage else 0

/-- The usage of each turn of a session: what the upstream reports for a response, or else the tokens that
have been counted for it, and in the end what has been counted for a turn that is not done. -/
def turnsOf : RealtimeUsage → List RealtimeEvent → List RealtimeUsage
  | counted, [] => [leftOver counted]
  | counted, .client text audio :: rest => turnsOf (counted + .counted text audio) rest
  | _, .responseDone usage :: rest => usage :: turnsOf 0 rest
  | counted, .responseDoneUncounted text audio :: rest =>
    (counted + .counted text audio) :: turnsOf 0 rest
  | counted, .session :: rest => turnsOf counted rest
  | counted, .upstream text audio :: rest => turnsOf (counted + .countedOutput text audio) rest

section
variable (setting : RatioSetting) (info : RealtimeInfo)

/-- What a failed balance check leaves to be counted again. -/
def recounted (handled : Bool × RealtimeState × List RealtimeEvent) : RealtimeUsage :=
  if handled.1 then 0 else leftOver handled.2.1.usage + leftOver handled.2.1.localUsage

/-- The prices of the turns that have passed their balance checks. -/
def turnCharges (st : RealtimeState) : Int := (st.charged.map (turnQuota setting info)).sum

/-- A session is charged once: the user and the token give the quota that is logged, and the usage it is
the price of counts each turn once. -/
structure ChargedOnce (s₀ : Store) (handled : List RealtimeEvent) (st : RealtimeState) : Prop where
  user : netFunding s₀ st.billing = sessionQuota setting info st.sumUsage
  token : netToken s₀ st.billing = sessionQuota setting info st.sumUsage
  usage : st.sumUsage = (turnsOf 0 handled).sum

variable {setting info} {balances : Balances} {st st' : RealtimeState} {u : RealtimeUsage}
  {received : List Received} {paid : Bool} {handled : List RealtimeEvent}

/-! ## The sum -/

theorem preWssConsumeQuota_spec (h : preWssConsumeQuota setting info balances u st = (paid, st')) :
    st'.usage = st.usage ∧ st'.localUsage = st.localUsage ∧ st'.sumUsage = st.sumUsage := by
  unfold preWssConsumeQuota at h
  dsimp only at h
  split at h
  · cases h
    exact ⟨rfl, rfl, rfl⟩
  split at h
  · cases h
    exact ⟨rfl, rfl, rfl⟩
  · cases h
    exact ⟨rfl, rfl, rfl⟩

theorem preConsumeUsage_spec (h : preConsumeUsage setting info balances u st = (paid, st')) :
    st'.usage = st.usage ∧ st'.localUsage = st.localUsage ∧ st'.sumUsage = st.sumUsage + u :=
  preWssConsumeQuota_spec h

theorem flush_spec (balances : Balances) (u : RealtimeUsage) (st : RealtimeState) :
    (flush setting info balances u st).localUsage = st.localUsage ∧
      (flush setting info balances u st).sumUsage = st.sumUsage + leftOver u := by
  unfold flush leftOver
  split
  · cases h : preConsumeUsage setting info balances u st with
    | mk paid st' =>
      obtain ⟨-, hlocal, hsum⟩ := preConsumeUsage_spec h
      exact ⟨hlocal, hsum⟩
  · exact ⟨rfl, (add_zero _).symm⟩

theorem flushAll_sumUsage (balances : Balances × Balances) (st : RealtimeState) :
    (flushAll setting info balances st).sumUsage =
      st.sumUsage + (leftOver st.usage + leftOver st.localUsage) := by
  unfold flushAll
  dsimp only
  rw [(flush_spec balances.2 _ _).2, (flush_spec balances.1 _ _).1, (flush_spec balances.1 _ _).2,
    add_assoc]

@[simp] theorem leftOver_zero : leftOver 0 = 0 := rfl

/-- One event, where nothing is left of an upstream usage: the turns from it on are those after it, and
the turn it ends, if it does. -/
theorem handleEvent_spec {event : RealtimeEvent} (h0 : st.usage = 0)
    (h : handleEvent setting info balances st event = (paid, st')) :
    (paid = true → st'.usage = 0 ∧ ∀ rest, st.sumUsage + (turnsOf st.localUsage (event :: rest)).sum =
        st'.sumUsage + (turnsOf st'.localUsage rest).sum) ∧
      (paid = false → st.sumUsage + (turnsOf st.localUsage [event]).sum = st'.sumUsage) := by
  cases event with
  | client text audio | upstream text audio =>
    cases h
    exact ⟨fun _ => ⟨h0, fun _ => rfl⟩, nofun⟩
  | session =>
    cases h
    exact ⟨fun _ => ⟨h0, fun _ => rfl⟩, nofun⟩
  | responseDone usage =>
    unfold handleEvent at h
    dsimp only at h
    rw [h0, zero_add] at h
    split at h
    next st₁ hpre =>
      cases h
      obtain ⟨-, -, hsum⟩ := preConsumeUsage_spec hpre
      refine ⟨nofun, fun _ => ?_⟩
      rw [hsum, turnsOf, turnsOf, List.sum_cons, List.sum_singleton, leftOver_zero, add_zero]
    next st₁ hpre =>
      cases h
      obtain ⟨-, -, hsum⟩ := preConsumeUsage_spec hpre
      refine ⟨fun _ => ⟨rfl, fun rest => ?_⟩, nofun⟩
      dsimp only
      rw [hsum, turnsOf, List.sum_cons, add_assoc]
  | responseDoneUncounted text audio =>
    unfold handleEvent at h
    dsimp only at h
    split at h
    next st₁ hpre =>
      cases h
      obtain ⟨-, -, hsum⟩ := preConsumeUsage_spec hpre
      refine ⟨nofun, fun _ => ?_⟩
      rw [hsum, turnsOf, turnsOf, List.sum_cons, List.sum_singleton, leftOver_zero, add_zero]
    next st₁ hpre =>
      cases h
      obtain ⟨husage, -, hsum⟩ := preConsumeUsage_spec hpre
      refine ⟨fun _ => ⟨husage.trans h0, fun rest => ?_⟩, nofun⟩
      dsimp only at hsum ⊢
      rw [hsum, turnsOf, List.sum_cons, add_assoc st.sumUsage]

theorem handleEvents_spec (h0 : st.usage = 0)
    (h : handleEvents setting info received st = (paid, st', handled)) :
    (paid = true → st'.usage = 0 ∧ st.sumUsage + (turnsOf st.localUsage handled).sum =
        st'.sumUsage + leftOver st'.localUsage) ∧
      (paid = false → st.sumUsage + (turnsOf st.localUsage handled).sum = st'.sumUsage) := by
  induction received generalizing st handled with
  | nil =>
    cases h
    refine ⟨fun _ => ⟨h0, ?_⟩, nofun⟩
    rw [turnsOf, List.sum_singleton]
  | cons first rest ih =>
    unfold handleEvents at h
    split at h
    next st₁ hevent =>
      cases h
      exact ⟨nofun, (handleEvent_spec h0 hevent).2⟩
    next st₁ hevent =>
      obtain ⟨husage, hsum⟩ := (handleEvent_spec h0 hevent).1 rfl
      split at h
      · cases hrest : handleEvents setting info rest st₁ with
        | mk paid₁ result =>
          rw [hrest] at h
          cases h
          rw [hsum]
          exact ih husage hrest
      · cases h
        refine ⟨fun _ => ⟨husage, ?_⟩, nofun⟩
        rw [hsum, turnsOf, List.sum_singleton]

theorem realtime_sumUsage (env : BillingEnv) (balances : Balances × Balances) (b : State) :
    (realtime setting info env balances received b).sumUsage =
      (turnsOf 0 (handleEvents setting info received { billing := b }).2.2).sum +
        recounted (handleEvents setting info received { billing := b }) := by
  show (flushAll setting info balances _).sumUsage = _
  rw [flushAll_sumUsage]
  rcases hresult : handleEvents setting info received { billing := b } with ⟨paid, st', handled⟩
  obtain ⟨hpaid, hfailed⟩ := handleEvents_spec rfl hresult
  dsimp only at hpaid hfailed ⊢
  rw [zero_add] at hpaid hfailed
  unfold recounted
  cases paid with
  | true =>
    obtain ⟨husage, hsum⟩ := hpaid rfl
    rw [hsum, husage, leftOver_zero, zero_add, if_pos rfl, add_zero]
  | false => rw [hfailed rfl, if_neg Bool.false_ne_true]

/-! ## The charges -/

variable {s₀ s₁ store : Store} {s : BillingSession} {b : State} {x q : Int} {relay : RelayInfo}

theorem remainOf_postConsumeQuota (hplay : relay.isPlayground = false) :
    (postConsumeQuota relay q store).remainOf relay.tokenId =
      (store.remainOf relay.tokenId).map (· - q) := by
  unfold postConsumeQuota
  rw [hplay, if_neg Bool.false_ne_true, Store.remainOf, Store.consumeToken, Table.get?_modify_self,
    Option.map_map, Store.remainOf, Option.map_map]
  rfl

theorem walletOf_postConsumeQuota (hplay : relay.isPlayground = false) :
    (postConsumeQuota relay q store).walletOf relay.userId =
      (store.walletOf relay.userId).map (· + -q) := by
  unfold postConsumeQuota
  rw [hplay, if_neg Bool.false_ne_true]
  show (store.subscriptions.users.addQuota _ _).quotaOf _ = _
  rw [Users.quotaOf_addQuota, if_pos rfl]
  rfl

theorem Held.charge {w : WalletFunding} (h : Held s₁ s store) (hw : s.funding = .wallet w)
    (hid : w.userId = s.relayInfo.userId) :
    Held (postConsumeQuota s.relayInfo q s₁) s (postConsumeQuota s.relayInfo q store) := by
  obtain ⟨r, hr, hremain⟩ := h.tokenAt
  have hfunded := h.funded
  rw [hw] at hfunded
  obtain ⟨hconsumed, a, ha, hwallet⟩ := hfunded
  refine ⟨h.playground, h.nonneg, h.token, ⟨r - q, ?_, ?_⟩, ?_⟩
  · rw [remainOf_postConsumeQuota h.playground, hr]
    rfl
  · rw [remainOf_postConsumeQuota h.playground, hremain]
    show some (r - s.preConsumedQuota - q) = some (r - q - s.preConsumedQuota)
    congr 1
    omega
  · rw [hw]
    refine ⟨hconsumed, a + -q, ?_, ?_⟩
    · rw [hid, walletOf_postConsumeQuota h.playground, ← hid, ha]
      rfl
    · rw [hid, walletOf_postConsumeQuota h.playground, ← hid, hwallet]
      show some (a - s.preConsumedQuota + -q) = some (a + -q - s.preConsumedQuota)
      congr 1
      omega

/-- An open session is paid from a wallet, and its turns have been charged an amount: it holds what it has
pre-consumed, as seen from the stores less that amount. -/
structure Spent (s₀ : Store) (x : Int) (b : State) : Prop where
  wallet : ∃ w, b.session.funding = .wallet w ∧ w.userId = b.session.relayInfo.userId
  settled : b.session.settled = false
  fundingSettled : b.session.fundingSettled = false
  base : ∃ s₁, Held s₁ b.session b.store ∧
    (s₁.walletOf b.session.relayInfo.userId).getD 0 =
      (s₀.walletOf b.session.relayInfo.userId).getD 0 - x ∧
    (s₁.remainOf b.session.relayInfo.tokenId).getD 0 =
      (s₀.remainOf b.session.relayInfo.tokenId).getD 0 - x

theorem Spent.charge (h : Spent s₀ x b) :
    Spent s₀ (x + q) { b with store := postConsumeQuota b.session.relayInfo q b.store } := by
  obtain ⟨w, hw, hid⟩ := h.wallet
  obtain ⟨s₁, held, huser, htoken⟩ := h.base
  refine ⟨h.wallet, h.settled, h.fundingSettled, _, held.charge hw hid, ?_, ?_⟩
  · have hfunded := held.funded
    rw [hw] at hfunded
    obtain ⟨-, a, ha, -⟩ := hfunded
    rw [hid] at ha
    dsimp only
    rw [walletOf_postConsumeQuota held.playground]
    rw [ha] at huser ⊢
    simp only [Option.getD_some, Option.map_some] at huser ⊢
    omega
  · obtain ⟨r, hr, -⟩ := held.tokenAt
    dsimp only
    rw [remainOf_postConsumeQuota held.playground]
    rw [hr] at htoken ⊢
    simp only [Option.getD_some, Option.map_some] at htoken ⊢
    omega

theorem spent_preConsumeUsage (hpre : preConsumeUsage setting info balances u st = (paid, st'))
    (h : Spent s₀ (turnCharges setting info st) st.billing) :
    Spent s₀ (turnCharges setting info st') st'.billing := by
  unfold preConsumeUsage preWssConsumeQuota at hpre
  dsimp only at hpre
  split at hpre
  · cases hpre
    exact h
  split at hpre
  · cases hpre
    have hsum : turnCharges setting info { st with charged := st.charged ++ [u] } =
        turnCharges setting info st + turnQuota setting info u := by
      unfold turnCharges
      rw [List.map_append, List.sum_append, List.map_singleton, List.sum_singleton]
    unfold turnCharges at hsum ⊢
    rw [hsum]
    exact h.charge
  · cases hpre
    exact h

theorem spent_flush (h : Spent s₀ (turnCharges setting info st) st.billing) :
    Spent s₀ (turnCharges setting info (flush setting info balances u st))
      (flush setting info balances u st).billing := by
  unfold flush
  split
  · rcases hpre : preConsumeUsage setting info balances u st with ⟨paid, st'⟩
    exact spent_preConsumeUsage hpre h
  · exact h

theorem spent_handleEvent {event : RealtimeEvent} (h : Spent s₀ (turnCharges setting info st) st.billing)
    (hevent : handleEvent setting info balances st event = (paid, st')) :
    Spent s₀ (turnCharges setting info st') st'.billing := by
  cases event with
  | client text audio | upstream text audio | session =>
    cases hevent
    exact h
  | responseDone usage | responseDoneUncounted text audio =>
    unfold handleEvent at hevent
    dsimp only at hevent
    split at hevent
    next st₁ hpre =>
      cases hevent
      exact spent_preConsumeUsage hpre h
    next st₁ hpre =>
      cases hevent
      have hspent := spent_preConsumeUsage hpre h
      exact hspent

theorem spent_handleEvents (h : Spent s₀ (turnCharges setting info st) st.billing)
    (hevents : handleEvents setting info received st = (paid, st', handled)) :
    Spent s₀ (turnCharges setting info st') st'.billing := by
  induction received generalizing st handled with
  | nil =>
    cases hevents
    exact h
  | cons first rest ih =>
    unfold handleEvents at hevents
    split at hevents
    next st₁ hevent =>
      cases hevents
      exact spent_handleEvent h hevent
    next st₁ hevent =>
      have h₁ := spent_handleEvent h hevent
      split at hevents
      · rcases hrest : handleEvents setting info rest st₁ with ⟨paid₁, st₂, handled₂⟩
        rw [hrest] at hevents
        cases hevents
        exact ih h₁ hrest
      · cases hevents
        exact h₁

/-! ## The settlement -/

theorem settle_wallet {env : BillingEnv} {w : WalletFunding} (hfree : FaultFree env) (delta : Int)
    (store : Store) : ∃ store', FundingSource.settle env delta store (.wallet w) = .ok store' := by
  unfold FundingSource.settle Store.decreaseUserQuota Store.increaseUserQuota
  dsimp only
  rw [hfree]
  split
  · exact ⟨_, rfl⟩
  split
  next hpos => exact ⟨_, guarded_ok (Int.le_of_lt hpos)⟩
  next hpos => exact ⟨_, guarded_ok (by omega)⟩

theorem settle_wallet_session {env : BillingEnv} {w : WalletFunding} (hfree : FaultFree env)
    (hw : b.session.funding = .wallet w) (hsettled : b.session.settled = false)
    (hfunding : b.session.fundingSettled = false) (quota : Int) :
    (b.settle env quota).2.session.settled = true ∧
      (b.settle env quota).2.session.funding = .wallet w ∧
      (b.settle env quota).2.session.relayInfo = b.session.relayInfo := by
  unfold State.settle
  dsimp only
  rw [hsettled, if_neg Bool.false_ne_true]
  split
  · exact ⟨rfl, hw, rfl⟩
  obtain ⟨store', hok⟩ := settle_wallet hfree (quota - b.session.preConsumedQuota) b.store
  unfold State.settleFunding State.notePostDelta
  rw [hfunding, if_neg Bool.false_ne_true, hw, hok]
  dsimp only
  split
  · exact ⟨rfl, rfl, rfl⟩
  · exact ⟨rfl, rfl, rfl⟩

theorem Spent.settle {env : BillingEnv} (h : Spent s₀ x b) (hfree : FaultFree env) (quota : Int) :
    netFunding s₀ (b.settle env quota).2 = quota + x ∧
      netToken s₀ (b.settle env quota).2 = quota + x := by
  obtain ⟨w, hw, hid⟩ := h.wallet
  obtain ⟨s₁, held, huser, htoken⟩ := h.base
  obtain ⟨hsettled, hfunding, hinfo⟩ :=
    settle_wallet_session hfree hw h.settled h.fundingSettled quota
  have hused : ∀ sub, b.session.funding = .subscription sub → ∀ used,
      b.store.usedOf sub.subscriptionId = some used →
        0 ≤ used + (quota - b.session.preConsumedQuota) := fun sub hsub => by
    rw [hw] at hsub
    cases hsub
  rcases held.settle hfree h.settled h.fundingSettled hused with hsame | ⟨-, -, -, htaken⟩
  · rw [hsame, h.settled] at hsettled
    cases hsettled
  · obtain ⟨hnetFunding, hnetToken⟩ := htaken.net
    unfold netFunding at hnetFunding ⊢
    unfold netToken at hnetToken ⊢
    rw [hfunding] at hnetFunding ⊢
    dsimp only at hnetFunding hnetToken ⊢
    rw [hinfo] at hnetToken ⊢
    rw [← hid] at huser
    omega

/-- A session that is paid from a wallet and holds what it has pre-consumed is charged once exactly when
the turns that pass their balance checks cost nothing and no failed check leaves anything to count again. -/
theorem Spent.chargedOnce_iff {env : BillingEnv} {balances : Balances × Balances}
    (h : Spent s₀ 0 b) (hfree : FaultFree env) :
    ChargedOnce setting info s₀ (handleEvents setting info received { billing := b }).2.2
        (realtime setting info env balances received b) ↔
      turnCharges setting info (realtime setting info env balances received b) = 0 ∧
        recounted (handleEvents setting info received { billing := b }) = 0 := by
  have hstart : Spent s₀ (turnCharges setting info { billing := b })
      ({ billing := b } : RealtimeState).billing := h
  have hspent : Spent s₀ (turnCharges setting info (realtime setting info env balances received b))
      (flushAll setting info balances
        (handleEvents setting info received { billing := b }).2.1).billing := by
    rcases hresult : handleEvents setting info received { billing := b } with ⟨paid, st', handled⟩
    have hflushed : Spent s₀ (turnCharges setting info (flushAll setting info balances st'))
        (flushAll setting info balances st').billing :=
      spent_flush (spent_flush (spent_handleEvents hstart hresult))
    unfold realtime
    rw [hresult]
    exact hflushed
  obtain ⟨huser, htoken⟩ := hspent.settle hfree (sessionQuota setting info
    (realtime setting info env balances received b).sumUsage)
  have hsum : (realtime setting info env balances received b).sumUsage = _ :=
    realtime_sumUsage env balances b
  refine ⟨fun hcharged => ⟨?_, ?_⟩, fun ⟨hcharges, hrecounted⟩ => ⟨?_, ?_, ?_⟩⟩
  · have hnet := huser.symm.trans hcharged.user
    omega
  · exact add_eq_left.1 (hsum.symm.trans hcharged.usage)
  · rw [hcharges, add_zero] at huser
    exact huser
  · rw [hcharges, add_zero] at htoken
    exact htoken
  · rw [hsum, hrecounted, add_zero]

/-! ## Sessions -/

theorem preConsume_wallet {cal : Calendar} {env : BillingEnv} {w : WalletFunding} {f : FundingSource}
    {store' : Store} {quota : Int}
    (h : FundingSource.preConsume cal env quota store (.wallet w) = .ok (f, store')) :
    ∃ w', f = .wallet w' ∧ w'.userId = w.userId := by
  unfold FundingSource.preConsume at h
  dsimp only at h
  split at h
  · cases h
    exact ⟨w, rfl, rfl⟩
  split at h
  · cases h
  · cases h
    exact ⟨_, rfl, rfl⟩

theorem syncRelayInfo_userId : s.syncRelayInfo.relayInfo.userId = s.relayInfo.userId := by
  unfold BillingSession.syncRelayInfo
  dsimp only
  split <;> rfl

theorem preConsumeEffective_wallet {cal : Calendar} {env : BillingEnv} {quota : Int}
    (h : ∃ w, s.funding = .wallet w ∧ w.userId = s.relayInfo.userId) :
    let s' := (State.preConsumeEffective cal env quota s store).2.1
    ∃ w, s'.funding = .wallet w ∧ w.userId = s'.relayInfo.userId := by
  obtain ⟨w, hw, hid⟩ := h
  unfold State.preConsumeEffective
  split
  · exact ⟨w, hw, hid⟩
  next s' store' htoken =>
    obtain ⟨hs', hinfo⟩ : s'.funding = .wallet w ∧ s'.relayInfo = s.relayInfo := by
      rcases preConsumeToken_cases htoken with ⟨-, rfl, -⟩ | ⟨-, rfl, -⟩
      · exact ⟨hw, rfl⟩
      · exact ⟨hw, rfl⟩
    split
    · show ∃ w, (State.rollbackToken env s' store').1.funding = _ ∧ _ =
        (State.rollbackToken env s' store').1.relayInfo.userId
      unfold State.rollbackToken
      split
      · exact ⟨w, hs', hinfo ▸ hid⟩
      · exact ⟨w, hs', hinfo ▸ hid⟩
    next f store'' hok =>
      rw [hs'] at hok
      obtain ⟨w', hf, hid'⟩ := preConsume_wallet hok
      refine ⟨w', hf, ?_⟩
      rw [syncRelayInfo_userId]
      exact hid'.trans (hinfo ▸ hid)

theorem spent_preConsume {cal : Calendar} {env : BillingEnv} {quota : Int}
    (hplay : relay.isPlayground = false)
    (hserved : Served relay (.wallet { userId := relay.userId }) s₀) (hquota : 0 ≤ quota)
    (hfree : FaultFree env) :
    Spent s₀ 0 ((start relay (.wallet { userId := relay.userId }) s₀).preConsume cal env quota).2 := by
  have hunused : FundingSource.Unused (.wallet { userId := relay.userId }) := rfl
  cases phase_start hplay hunused hserved with
  | opened hsettled hrefunded hfunding hjobs held =>
    have hsame : SameEnd (start relay (.wallet { userId := relay.userId }) s₀).session
        ((start relay (.wallet { userId := relay.userId }) s₀).preConsume cal env quota).2.session :=
      sameEnd_preConsume
    refine ⟨?_, hsame.settled, hsame.fundingSettled, s₀,
      held.preConsume hfree hserved.subs ⟨rfl, rfl, rfl, hquota, nofun⟩, ?_, ?_⟩
    · show ∃ w, (State.preConsumeEffective cal env _ _ _).2.1.funding = _ ∧ _ =
        (State.preConsumeEffective cal env _ _ _).2.1.relayInfo.userId
      refine preConsumeEffective_wallet ?_
      split
      · exact ⟨_, rfl, rfl⟩
      · exact ⟨_, rfl, rfl⟩
    · exact (Int.sub_zero _).symm
    · exact (Int.sub_zero _).symm
  | refunding _ hrefunded _ _ => cases hrefunded
  | refunded _ hrefunded _ _ => cases hrefunded
  | settled _ hsettled _ _ _ _ => cases hsettled

end

/-- A realtime session that is paid from a wallet is charged once exactly when the turns that pass their
balance checks cost nothing, and no failed check leaves anything to count again. -/
theorem realtime_charged_once_iff (setting : RatioSetting) (info : RealtimeInfo) (cal : Calendar)
    {relay : RelayInfo} {s₀ : Store} {quota : Int} {env env' : BillingEnv}
    (balances : Balances × Balances) (received : List Received) (hplay : relay.isPlayground = false)
    (hserved : Served relay (.wallet { userId := relay.userId }) s₀) (hquota : 0 ≤ quota)
    (hfree : FaultFree env) (hfree' : FaultFree env') :
    let b := ((start relay (.wallet { userId := relay.userId }) s₀).preConsume cal env quota).2
    let handled := handleEvents setting info received { billing := b }
    let ended := realtime setting info env' balances received b
    ChargedOnce setting info s₀ handled.2.2 ended ↔
      turnCharges setting info ended = 0 ∧ recounted handled = 0 :=
  (spent_preConsume hplay hserved hquota hfree).chargedOnce_iff hfree'

/-! ## Sessions of one turn -/

/-- All ratios are one. -/
def plainRatios : RatioSetting :=
  { completionRatio := fun _ => 1
    audioRatio := fun _ => 1
    audioCompletionRatio := fun _ => 1
    modelRatio := fun _ => 1
    groupRatio := fun _ => 1
    groupGroupRatio := fun _ _ => none
    quotaPerUnit := 500000 }

/-- A request that is priced by these. -/
def plainInfo : RealtimeInfo :=
  { originModelName := "gpt-4o-realtime"
    upstreamModelName := "gpt-4o-realtime"
    userGroup := "default"
    usingGroup := "default"
    autoGroup := none
    usePrice := false
    priceData := { modelPrice := 0, modelRatio := 1, groupRatio := 1, usePrice := false } }

/-- One response, of ten tokens. -/
def oneTurn (balances : Balances) : List Received :=
  [{ event := .responseDone { totalTokens := 10, inputTokens := 10, inputTextTokens := 10 }, balances }]

/-- A session for the turn. -/
def oneTurnSession (balances : Balances) : RealtimeState :=
  realtime plainRatios plainInfo {} (balances, balances) (oneTurn balances)
    ((start { userId := 1, tokenId := 1 } (.wallet { userId := 1 }) oneRequest).preConsume fixedCalendar
      {} 5).2

theorem realtime_charged_once_iff_oneTurn :
    let b := ((start { userId := 1, tokenId := 1 } (.wallet { userId := 1 }) oneRequest).preConsume
      fixedCalendar {} 5).2
    let handled := handleEvents plainRatios plainInfo (oneTurn {}) { billing := b }
    ChargedOnce plainRatios plainInfo oneRequest handled.2.2 (oneTurnSession {}) ↔
      turnCharges plainRatios plainInfo (oneTurnSession {}) = 0 ∧ recounted handled = 0 := by
  have hserved : Served { userId := 1, tokenId := 1 } (.wallet { userId := 1 }) oneRequest := by
    refine ⟨by decide, fun w h => by cases h; decide, fun sub hsub => ?_⟩
    rw [List.mem_singleton.1 hsub]
    decide
  exact realtime_charged_once_iff plainRatios plainInfo fixedCalendar ({}, {}) (oneTurn {}) rfl hserved
    (by decide) (fun _ => rfl) fun _ => rfl

/-- A turn of ten tokens is taken twice, and where its balance check fails it is counted twice. -/
theorem oneTurn_not_chargedOnce :
    (∀ handled, ¬ ChargedOnce plainRatios plainInfo oneRequest handled (oneTurnSession {})) ∧
      ¬ ChargedOnce plainRatios plainInfo oneRequest
        [.responseDone { totalTokens := 10, inputTokens := 10, inputTextTokens := 10 }]
        (oneTurnSession { cachedUserQuota := some 3 }) := by
  have htaken : netFunding oneRequest (oneTurnSession {}).billing = 20 ∧
      sessionQuota plainRatios plainInfo (oneTurnSession {}).sumUsage = 10 := by decide +kernel
  have hcounted : (oneTurnSession { cachedUserQuota := some 3 }).sumUsage ≠
      (turnsOf 0 [.responseDone { totalTokens := 10, inputTokens := 10, inputTextTokens := 10 }]).sum := by
    decide +kernel
  refine ⟨fun handled h => ?_, fun h => hcounted h.usage⟩
  have huser := h.user
  rw [htaken.1, htaken.2] at huser
  cases huser

end Billing

end NewApi

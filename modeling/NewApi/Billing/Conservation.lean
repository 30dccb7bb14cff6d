import NewApi.Billing.Model
import NewApi.Lib.Run

/-!
# What a billing session takes

A session takes the same from its funding source as from its token. While it is open this is the quota
it has pre-consumed, and when a refund has run it is nothing; when it has been settled it is the quota
of that settlement. This holds over all runs without failing updates in which a session is
pre-consumed while it holds nothing, and is not settled after a refund. Whatever fails, a session that
is not settled after a refund is not both.
-/

namespace NewApi

namespace Billing

open Run

/-! ## Runs -/

/-- A call of a session, or the run of a job that a refund has left. -/
inductive Op
  | preConsume (quota : Int)
  | reserve (targetQuota : Int)
  | settle (actualQuota : Int)
  | refund
  | runRefund

/-- The state after a call of `Settle`, with the quota that has settled the session. -/
def State.settleStep (env : BillingEnv) (actualQuota : Int) (b : State) : State :=
  let b' := (b.settle env actualQuota).2
  if ¬ b.session.settled ∧ b'.session.settled then { b' with settledWith := some actualQuota } else b'

/-- The state after a call. -/
def step (cal : Calendar) (b : State) : BillingEnv × Op → State
  | (env, .preConsume quota) => (b.preConsume cal env quota).2
  | (env, .reserve targetQuota) => (b.reserve env targetQuota).2
  | (env, .settle actualQuota) => b.settleStep env actualQuota
  | (_, .refund) => b.refund
  | (env, .runRefund) => b.runRefund env

/-- A session as it is made for a request. -/
def start (info : RelayInfo) (funding : FundingSource) (store : Store) : State where
  session := { relayInfo := info, funding }
  store := store

/-! ## What has been taken -/

/-- The quota of a user. -/
def Store.walletOf (id : Nat) (s : Store) : Option Int := s.subscriptions.users.quotaOf id

/-- The quota that remains of a token. -/
def Store.remainOf (id : Nat) (s : Store) : Option Int := (s.tokens.get? id).map Token.remainQuota

/-- The used amount of a subscription. -/
def Store.usedOf (id : Nat) (s : Store) : Option Int :=
  (s.subscriptions.subs.get? id).map UserSubscription.amountUsed

/-- The net amount that has been taken from the funding source. -/
def netFunding (s₀ : Store) (b : State) : Int :=
  match b.session.funding with
  | .wallet w => (s₀.walletOf w.userId).getD 0 - (b.store.walletOf w.userId).getD 0
  | .subscription sub =>
    if sub.subscriptionId = 0 then 0
    else (b.store.usedOf sub.subscriptionId).getD 0 - sub.amountUsedBefore

/-- The net amount that has been taken from the quota of the token. -/
def netToken (s₀ : Store) (b : State) : Int :=
  let id := b.session.relayInfo.tokenId
  (s₀.remainOf id).getD 0 - (b.store.remainOf id).getD 0

/-- What is to be taken. -/
def due (b : State) : Int :=
  if b.session.settled then b.settledWith.getD 0
  else if b.session.refunded then 0
  else b.session.preConsumedQuota

/-- The amounts taken are equal, and what is to be taken, once no refund is left to run. -/
def Conserved (s₀ : Store) (b : State) : Prop :=
  b.jobs = [] → netFunding s₀ b = netToken s₀ b ∧ netFunding s₀ b = due b

/-- The session is not both settled and refunded. -/
def EndedOnce (b : State) : Prop := ¬ (b.session.settled ∧ b.session.refunded)

/-- A refund of a session that has been settled changes no store, and leaves no job. -/
def RefundGuarded (b : State) (call : BillingEnv × Op) (b' : State) : Prop :=
  call.2 = .refund → b.session.settled → b'.store = b.store ∧ b'.jobs = b.jobs

/-! ## Conditions -/

/-- A session is not settled after a refund. -/
def NotSettledAfterRefund (b : State) (call : BillingEnv × Op) : Prop :=
  ∀ actualQuota, call.2 = .settle actualQuota → b.session.refunded = false

/-- No update of the call fails. -/
def FaultFree (env : BillingEnv) : Prop := ∀ stmt, env.fails stmt = false

/-- A session is pre-consumed while it is open and holds nothing; a subscription by its amount, and
under a request id that has not consumed. A session is not settled after a refund, nor below what is
used of a subscription. -/
def Allowed (b : State) : BillingEnv × Op → Prop
  | (_, .preConsume quota) =>
    b.session.settled = false ∧ b.session.refunded = false ∧ b.session.preConsumedQuota = 0 ∧
      0 ≤ quota ∧ ∀ sub, b.session.funding = .subscription sub → quota = sub.amount ∧
        ∀ r, b.store.subscriptions.records.get? sub.requestId = some r → r.status = .refunded
  | (_, .settle actualQuota) =>
    b.session.refunded = false ∧ ∀ sub, b.session.funding = .subscription sub →
      ∀ used, b.store.usedOf sub.subscriptionId = some used → b.session.settled = false →
        0 ≤ used + (actualQuota - b.session.preConsumedQuota)
  | _ => True

/-- The funding source of a new session. -/
def FundingSource.Unused : FundingSource → Prop
  | .wallet w => w.consumed = 0
  | .subscription sub => sub.subscriptionId = 0 ∧ sub.preConsumed = 0

/-- The rows that a session works on are there, and those of subscriptions are sound. -/
structure Served (info : RelayInfo) (funding : FundingSource) (s : Store) : Prop where
  token : (s.remainOf info.tokenId).isSome
  user : ∀ w, funding = .wallet w → (s.walletOf w.userId).isSome
  subs : ∀ sub ∈ s.subscriptions.subs, sub.id ≠ 0 ∧ 0 ≤ sub.amountUsed

section
variable {cal : Calendar} {env : BillingEnv} {b b' : State} {s s' : BillingSession}
  {store store' s₀ : Store} {info : RelayInfo} {quota : Int}

/-! ## A session ends once -/

/-- What the token part of `preConsume` does. -/
theorem preConsumeToken_cases (h : State.preConsumeToken env quota s store = .ok (s', store')) :
    (0 < quota ∧ s' = { s with tokenConsumed := quota } ∧
        preConsumeTokenQuota env s.relayInfo quota store = .ok store') ∨
      (quota ≤ 0 ∧ s' = s ∧ store' = store) := by
  unfold State.preConsumeToken at h
  split at h
  next hpos =>
    split at h
    · cases h
    next heq =>
      cases h
      exact .inl ⟨hpos, rfl, heq⟩
  next hpos =>
    cases h
    exact .inr ⟨Int.not_lt.1 hpos, rfl, rfl⟩

/-- The two sessions have ended alike. -/
structure SameEnd (s s' : BillingSession) : Prop where
  settled : s'.settled = s.settled
  refunded : s'.refunded = s.refunded
  fundingSettled : s'.fundingSettled = s.fundingSettled

theorem SameEnd.refl (s : BillingSession) : SameEnd s s := ⟨rfl, rfl, rfl⟩

theorem SameEnd.trans {s'' : BillingSession} (h : SameEnd s s') (h' : SameEnd s' s'') :
    SameEnd s s'' :=
  ⟨h'.settled.trans h.settled, h'.refunded.trans h.refunded,
    h'.fundingSettled.trans h.fundingSettled⟩

theorem sameEnd_rollbackToken : SameEnd s (State.rollbackToken env s store).1 := by
  unfold State.rollbackToken
  split
  · exact ⟨rfl, rfl, rfl⟩
  · exact .refl s

theorem sameEnd_preConsumeEffective :
    SameEnd s (State.preConsumeEffective cal env quota s store).2.1 := by
  unfold State.preConsumeEffective
  split
  · exact .refl s
  next s' store htoken =>
    have hs : SameEnd s s' := by
      rcases preConsumeToken_cases htoken with ⟨-, rfl, -⟩ | ⟨-, rfl, -⟩
      · exact ⟨rfl, rfl, rfl⟩
      · exact .refl s'
    split
    · exact hs.trans sameEnd_rollbackToken
    · exact hs.trans ⟨rfl, rfl, rfl⟩

theorem sameEnd_preConsume : SameEnd b.session (b.preConsume cal env quota).2.session := by
  show SameEnd b.session (State.preConsumeEffective cal env _ _ b.store).2.1
  split
  · have htrusted : SameEnd b.session { b.session with trusted := true } := ⟨rfl, rfl, rfl⟩
    exact htrusted.trans sameEnd_preConsumeEffective
  · exact sameEnd_preConsumeEffective

theorem sameEnd_reserve : SameEnd b.session (b.reserve env quota).2.session := by
  unfold State.reserve
  dsimp only
  split
  · exact .refl _
  split
  · exact .refl _
  split
  · exact ⟨rfl, rfl, rfl⟩
  · exact ⟨rfl, rfl, rfl⟩

theorem notePostDelta_refunded {delta : Int} :
    (State.notePostDelta delta s).refunded = s.refunded := by
  unfold State.notePostDelta
  split <;> rfl

theorem settleStep_refunded : (b.settleStep env quota).session.refunded = b.session.refunded := by
  have hsettle : (b.settle env quota).2.session.refunded = b.session.refunded := by
    unfold State.settle
    dsimp only
    split
    · rfl
    split
    · rfl
    split
    · rfl
    split
    · exact notePostDelta_refunded
    · exact notePostDelta_refunded
  unfold State.settleStep
  dsimp only
  split
  · exact hsettle
  · exact hsettle

theorem refund_of_ended (h : b.session.settled ∨ b.session.refunded) : b.refund = b := by
  unfold State.refund
  dsimp only
  rw [if_pos]
  rcases h with h | h
  · exact .inl h
  · exact .inr (.inl h)

theorem refund_settled : b.refund.session.settled = b.session.settled := by
  unfold State.refund
  dsimp only
  split
  · rfl
  · rfl

theorem runRefund_session : (b.runRefund env).session = b.session := by
  unfold State.runRefund
  split
  · rfl
  · rfl

theorem step_endedOnce {call : BillingEnv × Op} (h : EndedOnce b)
    (hcall : NotSettledAfterRefund b call) : EndedOnce (step cal b call) := by
  obtain ⟨env, op⟩ := call
  cases op with
  | preConsume quota =>
    have hsame : SameEnd b.session (step cal b (env, .preConsume quota)).session :=
      sameEnd_preConsume
    rw [EndedOnce, hsame.settled, hsame.refunded]
    exact h
  | reserve targetQuota =>
    have hsame : SameEnd b.session (step cal b (env, .reserve targetQuota)).session :=
      sameEnd_reserve
    rw [EndedOnce, hsame.settled, hsame.refunded]
    exact h
  | settle actualQuota =>
    intro hboth
    have hrefunded := settleStep_refunded.symm.trans hboth.2
    rw [hcall actualQuota rfl] at hrefunded
    cases hrefunded
  | refund =>
    show EndedOnce b.refund
    by_cases hended : b.session.settled ∨ b.session.refunded
    · rw [refund_of_ended hended]
      exact h
    · intro hboth
      exact hended (.inl (refund_settled.symm.trans hboth.1))
  | runRefund =>
    have hsame : (step cal b (env, .runRefund)).session = b.session := runRefund_session
    rw [EndedOnce, hsame]
    exact h

theorem step_refundGuarded {call : BillingEnv × Op} : RefundGuarded b call (step cal b call) := by
  obtain ⟨env, op⟩ := call
  intro hop hsettled
  dsimp only at hop
  subst hop
  have hstep : step cal b (env, .refund) = b := refund_of_ended (.inl hsettled)
  rw [hstep]
  exact ⟨rfl, rfl⟩

/-! ## Amounts -/

/-- The token has given an amount. -/
def TokenAt (s₀ : Store) (id : Nat) (x : Int) (store : Store) : Prop :=
  ∃ r, s₀.remainOf id = some r ∧ store.remainOf id = some (r - x)

/-- The wallet has given an amount. -/
def WalletAt (s₀ : Store) (id : Nat) (x : Int) (store : Store) : Prop :=
  ∃ q, s₀.walletOf id = some q ∧ store.walletOf id = some (q - x)

/-- The subscription has given an amount, and is not used beyond its total. -/
def UsedAt (sub : SubscriptionFunding) (x : Int) (s : SubscriptionStore) : Prop :=
  ∃ row, s.subs.get? sub.subscriptionId = some row ∧ row.amountUsed = sub.amountUsedBefore + x ∧
    (row.amountTotal > 0 → row.amountUsed ≤ row.amountTotal)

theorem guarded_ok (hquota : 0 ≤ quota) : guarded false quota store = .ok store := by
  unfold guarded
  rw [if_neg (Int.not_lt.2 hquota), if_neg Bool.false_ne_true]

variable {x y : Int} {id : Nat}

theorem TokenAt.consume (h : TokenAt s₀ id x store) : TokenAt s₀ id (x + y) (store.consumeToken id y) := by
  obtain ⟨r, hr, hx⟩ := h
  refine ⟨r, hr, ?_⟩
  obtain ⟨row, hrow, hremain⟩ := Option.map_eq_some_iff.1 hx
  unfold Store.remainOf Store.consumeToken
  rw [Table.get?_modify_self, hrow]
  show some (row.remainQuota - y) = some (r - (x + y))
  rw [hremain]
  congr 1
  omega

theorem TokenAt.congr (h : TokenAt s₀ id x store) (htokens : store'.tokens = store.tokens) :
    TokenAt s₀ id x store' := by
  unfold TokenAt Store.remainOf
  rw [htokens]
  exact h

theorem WalletAt.add (h : WalletAt s₀ id x store) : WalletAt s₀ id (x - y) (store.addUserQuota id y) := by
  obtain ⟨q, hq, hx⟩ := h
  refine ⟨q, hq, ?_⟩
  unfold Store.walletOf Store.addUserQuota
  rw [Users.quotaOf_addQuota, if_pos rfl]
  unfold Store.walletOf at hx
  rw [hx]
  show some (q - x + y) = some (q - (x - y))
  congr 1
  omega

theorem WalletAt.congr (h : WalletAt s₀ id x store)
    (husers : store'.subscriptions = store.subscriptions) : WalletAt s₀ id x store' := by
  unfold WalletAt Store.walletOf
  rw [husers]
  exact h

theorem preConsumeTokenQuota_ok (hinfo : info.isPlayground = false)
    (h : preConsumeTokenQuota env info quota store = .ok store') :
    store' = store.consumeToken info.tokenId quota := by
  unfold preConsumeTokenQuota at h
  rw [hinfo] at h
  split at h
  · cases h
  rw [if_neg Bool.false_ne_true] at h
  split at h
  · cases h
  split at h
  · cases h
  unfold Store.decreaseTokenQuota guarded at h
  split at h
  · cases h
  split at h
  · cases h
  cases h
  rfl

/-! ## Subscriptions -/

variable {sub : SubscriptionFunding} {subs subs' : SubscriptionStore} {reserved : Int}

theorem UsedAt.postConsume (h : UsedAt sub x subs) (hid : sub.subscriptionId ≠ 0)
    (hnonneg : 0 ≤ sub.amountUsedBefore + (x + y)) :
    (∃ e, 0 < y ∧ subs.postConsumeUserSubscriptionDelta false sub.subscriptionId y = .error e) ∨
      ∃ subs', subs.postConsumeUserSubscriptionDelta false sub.subscriptionId y = .ok subs' ∧
        UsedAt sub (x + y) subs' ∧ subs'.records = subs.records := by
  obtain ⟨row, hrow, hused, htotal⟩ := h
  unfold SubscriptionStore.postConsumeUserSubscriptionDelta
  rw [if_neg hid]
  by_cases hy : y = 0
  · rw [if_pos hy]
    exact .inr ⟨subs, rfl, ⟨row, hrow, by omega, htotal⟩, rfl⟩
  rw [if_neg hy, if_neg Bool.false_ne_true, hrow]
  dsimp only
  have hmax : max 0 (row.amountUsed + y) = sub.amountUsedBefore + (x + y) := by omega
  split
  next hover => exact .inl ⟨_, by omega, rfl⟩
  next hover =>
    refine .inr ⟨_, rfl, ⟨SubscriptionStore.addUsed y row, ?_, hmax, fun hpos => ?_⟩, rfl⟩
    · rw [Table.get?_modify_self, hrow]
      rfl
    · exact Int.not_lt.1 fun hlt => hover ⟨hpos, hlt⟩

/-- The session has pre-consumed from a subscription, and reserved more. -/
structure Charged (sub : SubscriptionFunding) (reserved : Int) (subs : SubscriptionStore) : Prop where
  requestId : GoString.trimSpace sub.requestId ≠ ""
  id_ne : sub.subscriptionId ≠ 0
  pos : 0 < sub.preConsumed
  reserved_nonneg : 0 ≤ reserved
  amountUsedBefore_nonneg : 0 ≤ sub.amountUsedBefore
  record : ∃ r, subs.records.get? sub.requestId = some r ∧ r.status = .consumed ∧
    r.userSubscriptionId = sub.subscriptionId ∧ r.preConsumed = sub.preConsumed
  used : UsedAt sub (sub.preConsumed + reserved) subs

theorem Charged.refund (h : Charged sub reserved subs) (hfree : FaultFree env) :
    UsedAt sub reserved (FundingSource.refundWithRetry env sub.requestId [0, 1, 2] subs) := by
  obtain ⟨r, hr, hstatus, hid, hpre⟩ := h.record
  have hneg : ¬ r.status = .refunded := fun hrefunded => by
    rw [hstatus] at hrefunded
    cases hrefunded
  have hpos := h.pos
  have hnonneg := h.amountUsedBefore_nonneg
  have hreserved := h.reserved_nonneg
  rcases h.used.postConsume (y := -sub.preConsumed) h.id_ne (by omega) with
    ⟨e, hlt, -⟩ | ⟨subs', hpost, hused, -⟩
  · omega
  · unfold FundingSource.refundWithRetry SubscriptionStore.refundSubscriptionPreConsume
    rw [if_neg h.requestId, hr]
    dsimp only
    rw [if_neg hneg, hpre, if_neg (Int.not_le.2 hpos), hid, hfree, hpost]
    dsimp only
    unfold SubscriptionStore.saveRefunded
    rw [hfree, if_neg Bool.false_ne_true]
    dsimp only
    obtain ⟨row, hrow, hamount, htotal⟩ := hused
    exact ⟨row, hrow, by omega, htotal⟩

theorem maybeReset_spec {plan : SubscriptionPlan} {now : Int} {c row : UserSubscription}
    (h : maybeResetUserSubscription cal plan now c = some row) (hused : 0 ≤ c.amountUsed) :
    row.id = c.id ∧ 0 ≤ row.amountUsed := by
  unfold maybeResetUserSubscription at h
  dsimp only at h
  split at h
  · cases h
    exact ⟨rfl, hused⟩
  split at h
  · cases h
    exact ⟨rfl, hused⟩
  generalize (if c.lastResetTime ≤ 0 then c.startTime else c.lastResetTime) = base at h
  split at h
  · obtain ⟨p, -, rfl⟩ := Option.map_eq_some_iff.1 h
    exact ⟨rfl, Int.le_refl 0⟩
  split at h
  · cases h
    exact ⟨rfl, hused⟩
  · cases h
    exact ⟨rfl, hused⟩

theorem isSome_saveSub {row : UserSubscription} (h : (subs.subs.get? id).isSome) :
    ((subs.saveSub row).subs.get? id).isSome := by
  unfold SubscriptionStore.saveSub
  rw [Table.get?_modify]
  split
  · rwa [Option.isSome_map]
  · exact h

/-- The funding of a session, with what the pre-consumption has reported. -/
def SubscriptionFunding.charged (sub : SubscriptionFunding) (res : SubscriptionPreConsumeResult) :
    SubscriptionFunding :=
  { sub with
    subscriptionId := res.userSubscriptionId
    preConsumed := res.preConsumed
    amountTotal := res.amountTotal
    amountUsedAfter := res.amountUsedAfter
    amountUsedBefore := res.amountUsedBefore }

/-- The first candidate with enough left is charged. -/
theorem chargeFirst_charged {planById : Nat → Option SubscriptionPlan} {now : Int}
    {cands : List UserSubscription} {res : SubscriptionPreConsumeResult}
    (hid : GoString.trimSpace sub.requestId ≠ "") (hamount : 0 < sub.amount)
    (hfresh : subs.records.get? sub.requestId = none)
    (hcands : ∀ c ∈ cands, (subs.subs.get? c.id).isSome ∧ c.id ≠ 0 ∧ 0 ≤ c.amountUsed)
    (h : SubscriptionStore.chargeFirst cal planById sub.requestId sub.userId sub.amount now cands subs =
      .ok (res, subs')) :
    Charged (sub.charged res) 0 subs' ∧ res.preConsumed = sub.amount := by
  induction cands generalizing subs with
  | nil => cases h
  | cons c rest ih =>
    obtain ⟨hsome, hc0, hused⟩ := hcands c List.mem_cons_self
    unfold SubscriptionStore.chargeFirst at h
    split at h
    · cases h
    split at h
    · cases h
    next row hreset =>
      obtain ⟨hrowId, hrowUsed⟩ := maybeReset_spec hreset hused
      split at h
      · have hfresh' : (subs.saveSub row).records.get? sub.requestId = none := hfresh
        refine ih hfresh' (fun c' hc' => ?_) h
        obtain ⟨hsome', h0, hnonneg⟩ := hcands c' (List.mem_cons_of_mem _ hc')
        exact ⟨isSome_saveSub hsome', h0, hnonneg⟩
      next henough =>
        cases h
        obtain ⟨old, hold⟩ := Option.isSome_iff_exists.1 hsome
        rw [← hrowId] at hold
        refine ⟨⟨hid, hrowId ▸ hc0, hamount, Int.le_refl 0, hrowUsed, ?_, ?_⟩, rfl⟩
        · exact ⟨_, Table.get?_insertNew_self hfresh, rfl, rfl, rfl⟩
        · refine ⟨UserSubscription.saved { row with amountUsed := row.amountUsed + sub.amount }
            (row.saved old), ?_, ?_, fun hpos => ?_⟩
          · show ((subs.saveSub row).saveSub _).subs.get? row.id = _
            unfold SubscriptionStore.saveSub
            rw [Table.get?_modify_self, Table.get?_modify_self, hold]
            rfl
          · show row.amountUsed + sub.amount = row.amountUsed + (sub.amount + 0)
            rw [Int.add_zero]
          · have hpos' : row.amountTotal > 0 := hpos
            show row.amountUsed + sub.amount ≤ row.amountTotal
            omega

theorem preConsume_charged {now : Int} {planById : Nat → Option SubscriptionPlan} {fails : Bool}
    {res : SubscriptionPreConsumeResult}
    (hrows : ∀ row ∈ subs.subs, row.id ≠ 0 ∧ 0 ≤ row.amountUsed)
    (hfresh : ∀ r, subs.records.get? sub.requestId = some r → r.status = .refunded)
    (h : subs.preConsumeUserSubscription cal planById fails sub.requestId sub.userId sub.amount now =
      .ok (res, subs')) :
    Charged (sub.charged res) 0 subs' ∧ res.preConsumed = sub.amount := by
  unfold SubscriptionStore.preConsumeUserSubscription at h
  split at h
  · cases h
  split at h
  · cases h
  next hid =>
    split at h
    · cases h
    next hamount =>
      split at h
      · cases h
      split at h
      next r hr =>
        rw [if_pos (hfresh r hr)] at h
        cases h
      next hnone =>
        dsimp only at h
        split at h
        · cases h
        refine chargeFirst_charged hid (Int.not_le.1 hamount) hnone (fun c hc => ?_) h
        have hmem : c ∈ subs.subs := by
          have hfiltered := ((List.perm_insertionSort _ _).mem_iff).1 hc
          exact (List.mem_filter.1 hfiltered).1
        have hrow := hrows c hmem
        exact ⟨Option.isSome_iff_exists.2 ⟨c, Table.get?_key hmem⟩, hrow⟩

/-! ## Funding sources -/

/-- The subscription that a request notes. -/
def FundingSource.subscriptionId : FundingSource → Nat
  | .wallet _ => 0
  | .subscription sub => sub.subscriptionId

/-- What the funding source has given. -/
def Paid (s₀ : Store) (x : Int) (store : Store) : FundingSource → Prop
  | .wallet w => WalletAt s₀ w.userId x store
  | .subscription sub =>
    sub.subscriptionId = 0 ∧ x = 0 ∨
      sub.subscriptionId ≠ 0 ∧ UsedAt sub x store.subscriptions

/-- The funding source has given an amount that it can refund, some of it reserved later; `noted` is the
subscription that the request has noted. -/
def Funded (s₀ : Store) (x reserved : Int) (noted : Nat) (store : Store) : FundingSource → Prop
  | .wallet w => w.consumed = x ∧ WalletAt s₀ w.userId x store
  | .subscription sub =>
    (sub.subscriptionId = 0 ∧ sub.preConsumed = 0 ∧ reserved = 0 ∧ x = 0 ∧
        store.subscriptions = s₀.subscriptions) ∨
      (Charged sub reserved store.subscriptions ∧ x = sub.preConsumed + reserved ∧
        noted = sub.subscriptionId)

variable {f f' : FundingSource} {noted : Nat} {delta : Int}

theorem Funded.paid (h : Funded s₀ x reserved noted store f) : Paid s₀ x store f := by
  cases f with
  | wallet w => exact h.2
  | subscription sub =>
    rcases h with ⟨hid, -, -, hx, -⟩ | ⟨hcharged, hx, -⟩
    · exact .inl ⟨hid, hx⟩
    · exact .inr ⟨hcharged.id_ne, hx ▸ hcharged.used⟩

theorem postConsumeSubscription_ok
    (h : store.subscriptions.postConsumeUserSubscriptionDelta false id y = .ok subs) :
    store.postConsumeSubscription false id y = .ok { store with subscriptions := subs } := by
  rw [Store.postConsumeSubscription, h]

theorem postConsumeSubscription_error {e : SubscriptionError}
    (h : store.subscriptions.postConsumeUserSubscriptionDelta false id y = .error e) :
    store.postConsumeSubscription false id y = .error (.subscription e) := by
  rw [Store.postConsumeSubscription, h]

theorem Funded.settle (h : Funded s₀ x reserved noted store f) (hfree : FaultFree env)
    (hdelta : delta ≠ 0) (hused : ∀ sub, f = .subscription sub →
      ∀ used, store.usedOf sub.subscriptionId = some used → 0 ≤ used + delta) :
    (∃ e, f.settle env delta store = .error e) ∨
      ∃ store', f.settle env delta store = .ok store' ∧ Paid s₀ (x + delta) store' f ∧
        store'.tokens = store.tokens := by
  cases f with
  | wallet w =>
    right
    unfold FundingSource.settle Store.decreaseUserQuota Store.increaseUserQuota
    dsimp only
    rw [hfree, if_neg hdelta]
    split
    next hpos =>
      rw [guarded_ok (Int.le_of_lt hpos)]
      refine ⟨_, rfl, ?_, rfl⟩
      have hadd := h.2.add (y := -delta)
      rwa [Int.sub_neg] at hadd
    next hpos =>
      rw [guarded_ok (by omega)]
      refine ⟨_, rfl, ?_, rfl⟩
      have hadd := h.2.add (y := -delta)
      rwa [Int.sub_neg] at hadd
  | subscription sub =>
    unfold FundingSource.settle
    dsimp only
    rw [hfree, if_neg hdelta]
    rcases h with ⟨hid, -, -, -, -⟩ | ⟨hcharged, hx, -⟩
    · refine .inl ⟨.subscription .invalidId, ?_⟩
      unfold Store.postConsumeSubscription SubscriptionStore.postConsumeUserSubscriptionDelta
      rw [if_pos hid]
    · obtain ⟨row, hrow, hamount, -⟩ := id hcharged.used
      have hnonneg := hused sub rfl row.amountUsed (by rw [Store.usedOf, hrow]; rfl)
      rcases hcharged.used.postConsume (y := delta) hcharged.id_ne (by omega) with
        ⟨e, -, he⟩ | ⟨subs', hpost, hat, -⟩
      · exact .inl ⟨_, postConsumeSubscription_error he⟩
      · exact .inr ⟨_, postConsumeSubscription_ok hpost, .inr ⟨hcharged.id_ne, hx ▸ hat⟩, rfl⟩

/-- Reserving takes more, or fails; what it has taken can be given back. -/
theorem Funded.reserve (h : Funded s₀ x reserved noted store f) (hfree : FaultFree env)
    (hdelta : 0 < delta) :
    (∃ e, State.reserveFunding env delta store f = .error e) ∨
      ∃ f' store', State.reserveFunding env delta store f = .ok (f', store') ∧
        store'.tokens = store.tokens ∧ Funded s₀ (x + delta) (reserved + delta) noted store' f' ∧
        (State.rollbackFundingReserve env delta store' f').2.tokens = store.tokens ∧
        Funded s₀ x reserved noted (State.rollbackFundingReserve env delta store' f').2
          (State.rollbackFundingReserve env delta store' f').1 := by
  have hle : 0 ≤ delta := Int.le_of_lt hdelta
  cases f with
  | wallet w =>
    obtain ⟨hconsumed, hat⟩ := h
    have hadd := hat.add (y := -delta)
    rw [Int.sub_neg] at hadd
    unfold State.reserveFunding Store.decreaseUserQuota
    dsimp only
    rw [hfree, guarded_ok hle]
    refine .inr ⟨_, _, rfl, rfl, ⟨by rw [hconsumed], hadd⟩, ?_⟩
    unfold State.rollbackFundingReserve Store.increaseUserQuota
    dsimp only
    rw [hfree, guarded_ok hle]
    refine ⟨rfl, ?_, ?_⟩
    · show w.consumed + delta - delta = x
      omega
    · have hback := hadd.add (y := delta)
      rwa [Int.add_sub_cancel] at hback
  | subscription sub =>
    unfold State.reserveFunding
    dsimp only
    rw [hfree]
    rcases h with ⟨hid, -, -, -, -⟩ | ⟨hcharged, hx, hnoted⟩
    · refine .inl ⟨.insufficientUserQuota (.subscription .invalidId), ?_⟩
      unfold Store.postConsumeSubscription SubscriptionStore.postConsumeUserSubscriptionDelta
      rw [if_pos hid]
    · have hpos := hcharged.pos
      have hbefore := hcharged.amountUsedBefore_nonneg
      have hreserved := hcharged.reserved_nonneg
      rcases hcharged.used.postConsume (y := delta) hcharged.id_ne (by omega) with
        ⟨e, -, he⟩ | ⟨subs', hpost, hat, hrecords⟩
      · rw [postConsumeSubscription_error he]
        exact .inl ⟨_, rfl⟩
      · rw [postConsumeSubscription_ok hpost]
        have hcharged' : Charged sub (reserved + delta) subs' :=
          { hcharged with
            reserved_nonneg := by omega
            record := hrecords ▸ hcharged.record
            used := by rwa [← Int.add_assoc] }
        refine .inr ⟨_, _, rfl, rfl, .inr ⟨hcharged', by omega, hnoted⟩, ?_⟩
        unfold State.rollbackFundingReserve
        dsimp only
        rw [hfree]
        rcases hcharged'.used.postConsume (y := -delta) hcharged.id_ne (by omega) with
          ⟨e, hneg, -⟩ | ⟨subs'', hback, hat'', hrecords'⟩
        · omega
        · rw [postConsumeSubscription_ok hback]
          refine ⟨rfl, .inr ⟨{ hcharged with
            record := hrecords' ▸ hcharged'.record
            used := ?_ }, hx, hnoted⟩⟩
          rwa [show sub.preConsumed + (reserved + delta) + -delta = sub.preConsumed + reserved by
            omega] at hat''

/-- A refund gives all of it back. -/
theorem Funded.refund (h : Funded s₀ x reserved noted store f) (hfree : FaultFree env) (hx : 0 ≤ x)
    (tokenConsumed : Int) :
    Paid s₀ 0 (State.refundReserved env ⟨tokenConsumed, reserved, noted⟩ f (f.refund env store)) f ∧
      (State.refundReserved env ⟨tokenConsumed, reserved, noted⟩ f (f.refund env store)).tokens =
        store.tokens := by
  cases f with
  | wallet w =>
    obtain ⟨hconsumed, hat⟩ := h
    have hsource : ∀ st, State.refundReserved env ⟨tokenConsumed, reserved, noted⟩ (.wallet w) st =
        st := fun st => by
      unfold State.refundReserved
      rw [if_neg fun hsub => (nomatch hsub.2.1)]
    rw [hsource]
    unfold FundingSource.refund Store.increaseUserQuota
    dsimp only
    split
    next hle =>
      refine ⟨?_, rfl⟩
      show WalletAt s₀ w.userId 0 store
      rwa [show x = 0 by omega] at hat
    next hpos =>
      rw [hfree, guarded_ok (by omega)]
      refine ⟨?_, rfl⟩
      show WalletAt s₀ w.userId 0 (store.addUserQuota w.userId w.consumed)
      have hadd := hat.add (y := w.consumed)
      rwa [show x - w.consumed = 0 by omega] at hadd
  | subscription sub =>
    rcases h with ⟨hid, hpre, hreserved, -, -⟩ | ⟨hcharged, hsum, hnoted⟩
    · have hrefund : FundingSource.refund env store (.subscription sub) = store := by
        unfold FundingSource.refund
        dsimp only
        rw [hpre, if_pos (Int.le_refl 0)]
      have hsame : State.refundReserved env ⟨tokenConsumed, reserved, noted⟩ (.subscription sub) store =
          store := by
        unfold State.refundReserved
        rw [if_neg fun hpos => by
          have h0 : reserved > 0 := hpos.1
          omega]
      rw [hrefund, hsame]
      exact ⟨.inl ⟨hid, rfl⟩, rfl⟩
    · have hused := hcharged.refund hfree
      have hbefore := hcharged.amountUsedBefore_nonneg
      have hrefund : FundingSource.refund env store (.subscription sub) =
          { store with subscriptions :=
            FundingSource.refundWithRetry env sub.requestId [0, 1, 2] store.subscriptions } :=
        if_neg (Int.not_le.2 hcharged.pos)
      rw [hrefund]
      generalize FundingSource.refundWithRetry env sub.requestId [0, 1, 2] store.subscriptions = subs
        at hused
      unfold State.refundReserved
      split
      next hpos =>
        have hpos' : 0 < reserved := hpos.1
        rcases hused.postConsume (y := -reserved) hcharged.id_ne (by omega) with
          ⟨e, hlt, -⟩ | ⟨subs', hpost, hat, -⟩
        · omega
        · dsimp only
          rw [hnoted, hfree, postConsumeSubscription_ok hpost]
          refine ⟨.inr ⟨hcharged.id_ne, ?_⟩, rfl⟩
          rwa [show reserved + -reserved = 0 by omega] at hat
      next hnot =>
        have h0 : reserved = 0 := by
          have hle : ¬ 0 < reserved := fun hpos =>
            hnot ⟨hpos, rfl, hnoted ▸ Nat.pos_of_ne_zero hcharged.id_ne⟩
          have hge := hcharged.reserved_nonneg
          omega
        rw [h0] at hused
        exact ⟨.inr ⟨hcharged.id_ne, hused⟩, rfl⟩

/-- A funding source that has given nothing gives what is pre-consumed. -/
theorem Funded.preConsume (h : Funded s₀ 0 reserved noted store f) (hquota : 0 ≤ quota)
    (hrows : ∀ row ∈ s₀.subscriptions.subs, row.id ≠ 0 ∧ 0 ≤ row.amountUsed)
    (hsub : ∀ sub, f = .subscription sub → quota = sub.amount ∧
      ∀ r, store.subscriptions.records.get? sub.requestId = some r → r.status = .refunded)
    (hok : f.preConsume cal env quota store = .ok (f', store')) :
    Funded s₀ quota reserved f'.subscriptionId store' f' ∧ store'.tokens = store.tokens := by
  cases f with
  | wallet w =>
    obtain ⟨hconsumed, hat⟩ := h
    unfold FundingSource.preConsume at hok
    dsimp only at hok
    split at hok
    next hle =>
      cases hok
      rw [show quota = 0 by omega]
      exact ⟨⟨hconsumed, hat⟩, rfl⟩
    next hpos =>
      split at hok
      · cases hok
      next hdecrease =>
        cases hok
        unfold Store.decreaseUserQuota guarded at hdecrease
        split at hdecrease
        · cases hdecrease
        split at hdecrease
        · cases hdecrease
        cases hdecrease
        have hadd := hat.add (y := -quota)
        rw [show 0 - -quota = quota by omega] at hadd
        exact ⟨⟨rfl, hadd⟩, rfl⟩
  | subscription sub =>
    unfold FundingSource.preConsume at hok
    dsimp only at hok
    split at hok
    · cases hok
    next res subs' hpre =>
      cases hok
      obtain ⟨hamount, hfresh⟩ := hsub sub rfl
      rcases h with ⟨-, -, hreserved, -, hsame⟩ | ⟨hcharged, hsum, -⟩
      · obtain ⟨hcharged, hres⟩ := preConsume_charged (hsame ▸ hrows) hfresh hpre
        refine ⟨.inr ⟨hreserved ▸ hcharged, ?_, rfl⟩, rfl⟩
        show quota = res.preConsumed + reserved
        omega
      · have hpos := hcharged.pos
        have hge := hcharged.reserved_nonneg
        omega

/-! ## Sessions -/

/-- An open session has taken what it has pre-consumed, and can refund it. -/
structure Held (s₀ : Store) (s : BillingSession) (store : Store) : Prop where
  playground : s.relayInfo.isPlayground = false
  nonneg : 0 ≤ s.preConsumedQuota
  token : s.tokenConsumed = s.preConsumedQuota
  tokenAt : TokenAt s₀ s.relayInfo.tokenId s.preConsumedQuota store
  funded : Funded s₀ s.preConsumedQuota s.extraReserved s.relayInfo.subscriptionId store s.funding

theorem Funded.congr (h : Funded s₀ x reserved noted store f)
    (hsubs : store'.subscriptions = store.subscriptions) : Funded s₀ x reserved noted store' f := by
  cases f with
  | wallet w => exact ⟨h.1, h.2.congr hsubs⟩
  | subscription sub =>
    unfold Funded
    rw [hsubs]
    exact h

theorem Paid.congr (h : Paid s₀ x store f) (hsubs : store'.subscriptions = store.subscriptions) :
    Paid s₀ x store' f := by
  cases f with
  | wallet w => exact WalletAt.congr h hsubs
  | subscription sub =>
    unfold Paid
    rw [hsubs]
    exact h

@[simp] theorem syncRelayInfo_subscriptionId :
    s.syncRelayInfo.relayInfo.subscriptionId = s.funding.subscriptionId := by
  unfold BillingSession.syncRelayInfo
  cases hfunding : s.funding with
  | wallet w => rfl
  | subscription sub => rfl

@[simp] theorem syncRelayInfo_tokenId :
    s.syncRelayInfo.relayInfo.tokenId = s.relayInfo.tokenId := by
  unfold BillingSession.syncRelayInfo
  dsimp only
  split <;> rfl

@[simp] theorem syncRelayInfo_isPlayground :
    s.syncRelayInfo.relayInfo.isPlayground = s.relayInfo.isPlayground := by
  unfold BillingSession.syncRelayInfo
  dsimp only
  split <;> rfl

/-- Pre-consuming with a session that holds nothing. -/
theorem Held.preConsumeEffective (h : Held s₀ s store) (hpre : s.preConsumedQuota = 0)
    (hfree : FaultFree env) (hquota : 0 ≤ quota)
    (hrows : ∀ row ∈ s₀.subscriptions.subs, row.id ≠ 0 ∧ 0 ≤ row.amountUsed)
    (hsub : ∀ sub, s.funding = .subscription sub → quota = sub.amount ∧
      ∀ r, store.subscriptions.records.get? sub.requestId = some r → r.status = .refunded) :
    Held s₀ (State.preConsumeEffective cal env quota s store).2.1
      (State.preConsumeEffective cal env quota s store).2.2 := by
  have htokenAt := h.tokenAt
  have hfunded := h.funded
  have hconsumed := h.token
  rw [hpre] at htokenAt hfunded hconsumed
  unfold State.preConsumeEffective
  split
  · exact h
  next s' store' htoken =>
    -- the token has given the quota, and nothing else has changed
    obtain ⟨hs', hat, hsubs⟩ : s' = { s with tokenConsumed := quota } ∧
        TokenAt s₀ s.relayInfo.tokenId quota store' ∧ store'.subscriptions = store.subscriptions := by
      rcases preConsumeToken_cases htoken with ⟨-, hs', hok⟩ | ⟨hle, hs', hstore⟩
      · rw [preConsumeTokenQuota_ok h.playground hok]
        have hat := htokenAt.consume (y := quota)
        rw [Int.zero_add] at hat
        exact ⟨hs', hat, rfl⟩
      · have h0 : quota = 0 := by omega
        rw [h0, hs', hstore, ← hconsumed]
        exact ⟨rfl, hconsumed.symm ▸ htokenAt, rfl⟩
    subst hs'
    dsimp only
    split
    next e hfail =>
      show Held s₀ (State.rollbackToken env _ store').1 (State.rollbackToken env _ store').2
      unfold State.rollbackToken
      dsimp only
      split
      next hpos =>
        refine ⟨h.playground, h.nonneg, hpre.symm, ?_, ?_⟩
        · unfold Store.increaseTokenQuota
          rw [hfree, guarded_ok hquota]
          have hback := hat.consume (y := -quota)
          rw [Int.add_right_neg] at hback
          exact hpre.symm ▸ hback
        · unfold Store.increaseTokenQuota
          rw [hfree, guarded_ok hquota]
          exact h.funded.congr hsubs
      next hnot =>
        have h0 : quota = 0 := by
          have hle : ¬ quota > 0 := fun hpos => hnot ⟨hpos, h.playground⟩
          omega
        exact ⟨h.playground, h.nonneg, h0.trans hpre.symm, hpre.symm ▸ h0 ▸ hat,
          h.funded.congr hsubs⟩
    next f' store'' hok =>
      have hrecords : ∀ sub, s.funding = .subscription sub → quota = sub.amount ∧
          ∀ r, store'.subscriptions.records.get? sub.requestId = some r → r.status = .refunded := by
        rw [hsubs]
        exact hsub
      obtain ⟨hfunded', htokens⟩ := (hfunded.congr hsubs).preConsume hquota hrows hrecords hok
      refine ⟨?_, hquota, rfl, ?_, ?_⟩
      · rw [syncRelayInfo_isPlayground]
        exact h.playground
      · rw [syncRelayInfo_tokenId]
        exact hat.congr htokens
      · rw [syncRelayInfo_subscriptionId]
        exact hfunded'

theorem Funded.synced (h : Funded s₀ x reserved noted store f) :
    Funded s₀ x reserved f.subscriptionId store f := by
  cases f with
  | wallet w => exact h
  | subscription sub => exact h.imp id fun ⟨hcharged, hx, _⟩ => ⟨hcharged, hx, rfl⟩

theorem reserveToken_ok (hinfo : info.isPlayground = false) (hdelta : 0 < delta)
    (h : State.reserveToken env delta info store = .ok store') :
    store' = store.consumeToken info.tokenId delta := by
  have hgo : ¬ (delta ≤ 0 ∨ false = true) := fun hor => hor.elim (Int.not_le.2 hdelta) nofun
  unfold State.reserveToken at h
  rw [hinfo, if_neg hgo] at h
  split at h
  · cases h
  next hok =>
    cases h
    exact preConsumeTokenQuota_ok hinfo hok

theorem Held.reserve (h : Held s₀ b.session b.store) (hfree : FaultFree env) :
    Held s₀ (b.reserve env quota).2.session (b.reserve env quota).2.store := by
  unfold State.reserve
  dsimp only
  split
  · exact h
  next hnot =>
    have hdelta : 0 < quota - b.session.preConsumedQuota := by
      have hle : ¬ quota ≤ b.session.preConsumedQuota := fun hle => hnot (.inr (.inr (.inr hle)))
      omega
    rcases h.funded.reserve hfree hdelta with
      ⟨e, he⟩ | ⟨f', store', hok, htokens, hfunded, htokens', hfunded'⟩
    · rw [he]
      exact h
    · rw [hok]
      dsimp only
      split
      next e hfail => exact ⟨h.playground, h.nonneg, h.token, h.tokenAt.congr htokens', hfunded'⟩
      next store'' htoken =>
        rw [reserveToken_ok h.playground hdelta htoken]
        have hnonneg := h.nonneg
        refine ⟨?_, ?_, ?_, ?_, ?_⟩
        · rw [syncRelayInfo_isPlayground]
          exact h.playground
        · show 0 ≤ b.session.preConsumedQuota + (quota - b.session.preConsumedQuota)
          omega
        · show b.session.tokenConsumed + _ = b.session.preConsumedQuota + _
          rw [h.token]
        · rw [syncRelayInfo_tokenId]
          exact (h.tokenAt.congr htokens).consume
        · rw [syncRelayInfo_subscriptionId]
          exact hfunded.synced.congr rfl

/-- Both sides have given an amount. -/
structure Taken (s₀ : Store) (x : Int) (s : BillingSession) (store : Store) : Prop where
  paid : Paid s₀ x store s.funding
  tokenAt : TokenAt s₀ s.relayInfo.tokenId x store

theorem Held.taken (h : Held s₀ s store) : Taken s₀ s.preConsumedQuota s store :=
  ⟨h.funded.paid, h.tokenAt⟩

theorem notePostDelta_spec (delta : Int) (s : BillingSession) :
    (State.notePostDelta delta s).settled = s.settled ∧
      (State.notePostDelta delta s).refunded = s.refunded ∧
      (State.notePostDelta delta s).funding = s.funding ∧
      (State.notePostDelta delta s).relayInfo.tokenId = s.relayInfo.tokenId ∧
      (State.notePostDelta delta s).relayInfo.isPlayground = s.relayInfo.isPlayground := by
  unfold State.notePostDelta
  split
  · exact ⟨rfl, rfl, rfl, rfl, rfl⟩
  · exact ⟨rfl, rfl, rfl, rfl, rfl⟩

theorem settleToken_ok (hinfo : info.isPlayground = false) (hfree : FaultFree env)
    (delta : Int) (store : Store) :
    State.settleToken env delta info store = .ok (store.consumeToken info.tokenId delta) := by
  unfold State.settleToken Store.decreaseTokenQuota Store.increaseTokenQuota
  rw [hinfo, if_neg Bool.false_ne_true, hfree]
  split
  next hpos => rw [guarded_ok (Int.le_of_lt hpos)]
  next hpos => rw [guarded_ok (by omega), Int.neg_neg]

/-- Settling an open session leaves it as it is, or makes it take what it is settled with. -/
theorem Held.settle (h : Held s₀ b.session b.store) (hfree : FaultFree env)
    (hsettled : b.session.settled = false) (hfunding : b.session.fundingSettled = false)
    (hused : ∀ sub, b.session.funding = .subscription sub → ∀ used,
      b.store.usedOf sub.subscriptionId = some used →
        0 ≤ used + (quota - b.session.preConsumedQuota)) :
    (b.settle env quota).2 = b ∨
      (b.settle env quota).2.session.settled = true ∧
        (b.settle env quota).2.session.refunded = b.session.refunded ∧
        (b.settle env quota).2.jobs = b.jobs ∧
        Taken s₀ quota (b.settle env quota).2.session (b.settle env quota).2.store := by
  unfold State.settle
  dsimp only
  rw [hsettled, if_neg Bool.false_ne_true]
  by_cases hdelta : quota - b.session.preConsumedQuota = 0
  · rw [if_pos hdelta]
    have htaken := h.taken
    rw [show b.session.preConsumedQuota = quota by omega] at htaken
    exact .inr ⟨rfl, rfl, rfl, htaken.paid, htaken.tokenAt⟩
  rw [if_neg hdelta]
  unfold State.settleFunding
  rw [hfunding, if_neg Bool.false_ne_true]
  rcases h.funded.settle hfree hdelta hused with ⟨e, he⟩ | ⟨store', hok, hpaid, htokens⟩
  · rw [he]
    exact .inl rfl
  · rw [hok]
    dsimp only
    generalize hnoted : State.notePostDelta (quota - b.session.preConsumedQuota) _ = s
    obtain ⟨hs, hrefunded, hsFunding, hid, hplay⟩ := notePostDelta_spec
      (quota - b.session.preConsumedQuota)
      { b.session with fundingSettled := true, settled := true }
    rw [hnoted] at hs hrefunded hsFunding hid hplay
    rw [settleToken_ok (hplay.trans h.playground) hfree]
    have hsum : b.session.preConsumedQuota + (quota - b.session.preConsumedQuota) = quota := by omega
    rw [hsum] at hpaid
    refine .inr ⟨hs, hrefunded, rfl, ?_, ?_⟩
    · dsimp only
      rw [hsFunding]
      exact hpaid.congr rfl
    · dsimp only
      rw [hid]
      have hat := (h.tokenAt.congr htokens).consume (y := quota - b.session.preConsumedQuota)
      rwa [hsum] at hat

/-! ## Runs without faults -/

/-- The states of a session: open, refunded with the refund still to run, refunded, or settled. -/
inductive Phase (s₀ : Store) (b : State) : Prop
  | opened (hsettled : b.session.settled = false) (hrefunded : b.session.refunded = false)
      (hfunding : b.session.fundingSettled = false) (hjobs : b.jobs = [])
      (held : Held s₀ b.session b.store)
  | refunding (hsettled : b.session.settled = false) (hrefunded : b.session.refunded = true)
      (hjobs : b.jobs = [⟨b.session.tokenConsumed, b.session.extraReserved,
        b.session.relayInfo.subscriptionId⟩])
      (held : Held s₀ b.session b.store)
  | refunded (hsettled : b.session.settled = false) (hrefunded : b.session.refunded = true)
      (hjobs : b.jobs = []) (taken : Taken s₀ 0 b.session b.store)
  | settled (x : Int) (hsettled : b.session.settled = true) (hrefunded : b.session.refunded = false)
      (hjobs : b.jobs = []) (hwith : b.settledWith = some x) (taken : Taken s₀ x b.session b.store)

theorem Taken.net (h : Taken s₀ x b.session b.store) :
    netFunding s₀ b = x ∧ netToken s₀ b = x := by
  obtain ⟨hpaid, r, hr, hremain⟩ := h
  unfold netFunding netToken
  dsimp only
  rw [hr, hremain]
  refine ⟨?_, by simp only [Option.getD_some]; omega⟩
  cases hfunding : b.session.funding with
  | wallet w =>
    rw [hfunding] at hpaid
    obtain ⟨q, hq, hwallet⟩ := hpaid
    dsimp only
    rw [hq, hwallet]
    simp only [Option.getD_some]
    omega
  | subscription sub =>
    rw [hfunding] at hpaid
    dsimp only
    rcases hpaid with ⟨hid, hx⟩ | ⟨hid, row, hrow, hused, -⟩
    · rw [if_pos hid, hx]
    · rw [if_neg hid, Store.usedOf, hrow]
      show row.amountUsed - sub.amountUsedBefore = x
      omega

theorem Phase.conserved (h : Phase s₀ b) : Conserved s₀ b := by
  intro hjobs
  cases h with
  | opened hsettled hrefunded _ _ held =>
    obtain ⟨hf, ht⟩ := held.taken.net
    refine ⟨hf.trans ht.symm, hf.trans ?_⟩
    unfold due
    rw [hsettled, if_neg Bool.false_ne_true, hrefunded, if_neg Bool.false_ne_true]
  | refunding _ _ hjobs' _ => exact absurd (hjobs'.symm.trans hjobs) (List.cons_ne_nil _ _)
  | refunded hsettled hrefunded _ taken =>
    obtain ⟨hf, ht⟩ := taken.net
    refine ⟨hf.trans ht.symm, hf.trans ?_⟩
    unfold due
    rw [hsettled, if_neg Bool.false_ne_true, hrefunded, if_pos rfl]
  | settled x hsettled _ _ hwith taken =>
    obtain ⟨hf, ht⟩ := taken.net
    refine ⟨hf.trans ht.symm, hf.trans ?_⟩
    unfold due
    rw [hsettled, if_pos rfl, hwith]
    rfl

theorem reserve_of_ended (h : b.session.settled ∨ b.session.refunded) : (b.reserve env quota).2 = b := by
  unfold State.reserve
  dsimp only
  rw [if_pos (h.imp id .inl)]

theorem settleStep_of_settled (h : b.session.settled = true) : b.settleStep env quota = b := by
  have hsame : (b.settle env quota).2 = b := by
    unfold State.settle
    dsimp only
    rw [if_pos h]
  unfold State.settleStep
  rw [hsame, if_neg fun hnot => hnot.1 h]

theorem refund_cases (b : State) :
    b.refund = b ∨ b.refund = { b with
      session := { b.session with refunded := true }
      jobs := b.jobs ++ [⟨b.session.tokenConsumed, b.session.extraReserved,
        b.session.relayInfo.subscriptionId⟩] } := by
  unfold State.refund
  dsimp only
  split
  · exact .inl rfl
  · exact .inr rfl

theorem shouldTrust_subscription {sub : SubscriptionFunding} (h : s.funding = .subscription sub) :
    s.shouldTrust env = false := by
  unfold BillingSession.shouldTrust
  rw [h]
  split
  · rfl
  split
  · rfl
  split
  · rfl
  · rfl

theorem Held.runRefund (h : Held s₀ b.session b.store) (hfree : FaultFree env)
    (hjobs : b.jobs = [⟨b.session.tokenConsumed, b.session.extraReserved,
      b.session.relayInfo.subscriptionId⟩]) :
    (b.runRefund env).jobs = [] ∧ Taken s₀ 0 (b.runRefund env).session (b.runRefund env).store := by
  unfold State.runRefund
  rw [hjobs]
  dsimp only
  obtain ⟨hpaid, htokens⟩ := h.funded.refund hfree h.nonneg b.session.tokenConsumed
  generalize State.refundReserved env ⟨b.session.tokenConsumed, b.session.extraReserved,
    b.session.relayInfo.subscriptionId⟩ b.session.funding (b.session.funding.refund env b.store) = store
    at hpaid htokens
  have hat := h.tokenAt.congr htokens
  have hnonneg := h.nonneg
  unfold State.refundToken
  split
  next hpos =>
    unfold Store.increaseTokenQuota
    rw [hfree, guarded_ok (Int.le_of_lt hpos.1)]
    refine ⟨rfl, ?_, ?_⟩
    · exact hpaid.congr rfl
    · dsimp only
      rw [h.token]
      have hback := hat.consume (y := -b.session.preConsumedQuota)
      rw [Int.add_right_neg] at hback
      exact hback
  next hnot =>
    have h0 : b.session.preConsumedQuota = 0 := by
      have hle : ¬ b.session.tokenConsumed > 0 := fun hpos => hnot ⟨hpos, h.playground⟩
      have htoken := h.token
      omega
    exact ⟨rfl, hpaid, h0 ▸ hat⟩

theorem reserve_jobs : (b.reserve env quota).2.jobs = b.jobs := by
  unfold State.reserve
  dsimp only
  split
  · rfl
  split
  · rfl
  split
  · rfl
  · rfl

theorem runRefund_of_nil (h : b.jobs = []) : b.runRefund env = b := by
  unfold State.runRefund
  rw [h]

theorem Held.preConsume (h : Held s₀ b.session b.store) (hfree : FaultFree env)
    (hrows : ∀ row ∈ s₀.subscriptions.subs, row.id ≠ 0 ∧ 0 ≤ row.amountUsed)
    (hallowed : Allowed b (env, .preConsume quota)) :
    Held s₀ (b.preConsume cal env quota).2.session (b.preConsume cal env quota).2.store := by
  obtain ⟨-, -, hpre, hquota, hsub⟩ := hallowed
  unfold State.preConsume
  by_cases htrust : b.session.shouldTrust env = true
  · simp only [htrust, if_true]
    refine Held.preConsumeEffective ⟨h.playground, h.nonneg, h.token, h.tokenAt, h.funded⟩ hpre hfree
      (Int.le_refl 0) hrows fun sub hfunding => ?_
    have hnot : b.session.shouldTrust env = false := shouldTrust_subscription hfunding
    exact absurd (hnot.symm.trans htrust) Bool.false_ne_true
  · simp only [htrust]
    exact h.preConsumeEffective hpre hfree hquota hrows hsub

/-- An allowed call without faults takes a session from one of its states to another. -/
theorem Phase.step {call : BillingEnv × Op}
    (hrows : ∀ row ∈ s₀.subscriptions.subs, row.id ≠ 0 ∧ 0 ≤ row.amountUsed) (h : Phase s₀ b)
    (hallowed : Allowed b call) (hfree : FaultFree call.1) : Phase s₀ (step cal b call) := by
  obtain ⟨env, op⟩ := call
  cases h with
  | opened hsettled hrefunded hfunding hjobs held =>
    cases op with
    | preConsume quota =>
      have hsame : SameEnd b.session (b.preConsume cal env quota).2.session := sameEnd_preConsume
      exact .opened (hsame.settled.trans hsettled) (hsame.refunded.trans hrefunded)
        (hsame.fundingSettled.trans hfunding) hjobs (held.preConsume hfree hrows hallowed)
    | reserve targetQuota =>
      have hsame : SameEnd b.session (b.reserve env targetQuota).2.session := sameEnd_reserve
      exact .opened (hsame.settled.trans hsettled) (hsame.refunded.trans hrefunded)
        (hsame.fundingSettled.trans hfunding) (reserve_jobs.trans hjobs) (held.reserve hfree)
    | settle actualQuota =>
      show Phase s₀ (b.settleStep env actualQuota)
      unfold State.settleStep
      rcases held.settle hfree hsettled hfunding
        (fun sub hsub used hused => hallowed.2 sub hsub used hused hsettled) with
        hsame | ⟨hs, hr, hj, htaken⟩
      · rw [hsame, if_neg fun hnow => hnow.1 hnow.2]
        exact .opened hsettled hrefunded hfunding hjobs held
      · rw [if_pos ⟨by rw [hsettled]; exact Bool.false_ne_true, hs⟩]
        exact .settled actualQuota hs (hr.trans hrefunded) (hj.trans hjobs) rfl
          ⟨htaken.paid, htaken.tokenAt⟩
    | refund =>
      show Phase s₀ b.refund
      rcases refund_cases b with hsame | hrefund
      · rw [hsame]
        exact .opened hsettled hrefunded hfunding hjobs held
      · rw [hrefund]
        exact .refunding hsettled rfl (by dsimp only; rw [hjobs]; rfl)
          ⟨held.playground, held.nonneg, held.token, held.tokenAt, held.funded⟩
    | runRefund =>
      show Phase s₀ (b.runRefund env)
      rw [runRefund_of_nil hjobs]
      exact .opened hsettled hrefunded hfunding hjobs held
  | refunding hsettled hrefunded hjobs held =>
    have hstay : ∀ {b'}, b' = b → Phase s₀ b' := fun h => h ▸ .refunding hsettled hrefunded hjobs held
    cases op with
    | preConsume quota => exact absurd (hallowed.2.1.symm.trans hrefunded) Bool.false_ne_true
    | reserve targetQuota => exact hstay (reserve_of_ended (.inr hrefunded))
    | settle actualQuota => exact absurd (hallowed.1.symm.trans hrefunded) Bool.false_ne_true
    | refund => exact hstay (refund_of_ended (.inr hrefunded))
    | runRefund =>
      obtain ⟨hnil, htaken⟩ := held.runRefund hfree hjobs
      have hsame : (b.runRefund env).session = b.session := runRefund_session
      exact .refunded (hsame ▸ hsettled) (hsame ▸ hrefunded) hnil htaken
  | refunded hsettled hrefunded hjobs taken =>
    have hstay : ∀ {b'}, b' = b → Phase s₀ b' := fun h => h ▸ .refunded hsettled hrefunded hjobs taken
    cases op with
    | preConsume quota => exact absurd (hallowed.2.1.symm.trans hrefunded) Bool.false_ne_true
    | reserve targetQuota => exact hstay (reserve_of_ended (.inr hrefunded))
    | settle actualQuota => exact absurd (hallowed.1.symm.trans hrefunded) Bool.false_ne_true
    | refund => exact hstay (refund_of_ended (.inr hrefunded))
    | runRefund => exact hstay (runRefund_of_nil hjobs)
  | settled x hsettled hrefunded hjobs hwith taken =>
    have hstay : ∀ {b'}, b' = b → Phase s₀ b' := fun h => h ▸ .settled x hsettled hrefunded hjobs hwith taken
    cases op with
    | preConsume quota => exact absurd (hallowed.1.symm.trans hsettled) Bool.false_ne_true
    | reserve targetQuota => exact hstay (reserve_of_ended (.inl hsettled))
    | settle actualQuota => exact hstay (settleStep_of_settled hsettled)
    | refund => exact hstay (refund_of_ended (.inl hsettled))
    | runRefund => exact hstay (runRefund_of_nil hjobs)

theorem phase_start (hinfo : info.isPlayground = false) (hunused : f.Unused)
    (hserved : Served info f s₀) : Phase s₀ (start info f s₀) := by
  obtain ⟨r, hr⟩ := Option.isSome_iff_exists.1 hserved.token
  refine .opened rfl rfl rfl rfl
    ⟨hinfo, Int.le_refl 0, rfl, ⟨r, hr, hr.trans (congrArg some (Int.sub_zero r).symm)⟩, ?_⟩
  cases f with
  | wallet w =>
    obtain ⟨q, hq⟩ := Option.isSome_iff_exists.1 (hserved.user w rfl)
    exact ⟨hunused, q, hq, hq.trans (congrArg some (Int.sub_zero q).symm)⟩
  | subscription sub => exact .inl ⟨hunused.1, hunused.2, rfl, rfl, rfl⟩

/-- Whatever fails, a session that is not settled after a refund ends once, and a refund after a
settlement changes nothing. In a run of allowed calls without faults, it has taken the same from its
funding source and its token whenever no refund is left to run, and what is due. -/
theorem session_conserved (cal : Calendar) (calls : List (BillingEnv × Op))
    (hinfo : info.isPlayground = false) (hunused : f.Unused) (hserved : Served info f s₀) :
    (Meets (Billing.step cal) NotSettledAfterRefund (start info f s₀) calls →
        Holds (Billing.step cal) EndedOnce (start info f s₀) calls ∧
          Always (Billing.step cal) RefundGuarded (start info f s₀) calls) ∧
      (Meets (Billing.step cal) (fun b call => Allowed b call ∧ FaultFree call.1) (start info f s₀)
          calls →
        Holds (Billing.step cal) (Conserved s₀) (start info f s₀) calls) := by
  have hended : EndedOnce (start info f s₀) := fun hboth => Bool.false_ne_true hboth.1
  refine ⟨fun hmeets => ⟨?_, ?_⟩, fun hmeets => ?_⟩
  · exact hmeets.holds (fun b call h hcall => step_endedOnce h hcall) (fun _ h => h) hended
  · exact hmeets.always (fun b call h hcall => step_endedOnce h hcall)
      (fun b call _ _ => step_refundGuarded) hended
  · exact hmeets.holds (fun b call h hcall => h.step hserved.subs hcall.1 hcall.2)
      (fun _ h => h.conserved) (phase_start hinfo hunused hserved)

end

/-! ## Runs of one request -/

instance {b : State} : Decidable (EndedOnce b) := inferInstanceAs (Decidable (¬ _))

instance {s₀ : Store} {b : State} : Decidable (Conserved s₀ b) := inferInstanceAs (Decidable (_ → _))

/-- A user with a token and a subscription. -/
def oneRequest : Store where
  subscriptions :=
    { users := Table.insertNew .empty { id := 1, quota := 1000 }
      subs := Table.insertNew .empty ⟨1, 1, 1, 100, 0, 0, 5000, .active, "order", 0, 0, "", ""⟩
      records := .empty }
  tokens := Table.insertNew .empty { id := 1, remainQuota := 1000 }

/-- The calls of a request, none of whose updates fails. -/
def plainly (ops : List Op) : List (BillingEnv × Op) :=
  ops.map fun op => ({ planById := fun _ => some { id := 1 } }, op)

/-- A request that is paid from the wallet. -/
def walletStart : State :=
  start { userId := 1, tokenId := 1 } (.wallet { userId := 1 }) oneRequest

/-- The state after calls of a request that is paid from the wallet. -/
def fromWallet (ops : List Op) : State := run (step fixedCalendar) walletStart (plainly ops)

/-- The state after calls of a request that is paid from the subscription. -/
def fromSubscription (amount : Int) (store : Store) (ops : List Op) : State :=
  run (step fixedCalendar) (start { userId := 1, tokenId := 1 }
    (.subscription { requestId := "r", userId := 1, amount }) store) (plainly ops)

/-- The stores once the request has pre-consumed from the subscription in another session. -/
def repeatedRequest : Store := (fromSubscription 10 oneRequest [.preConsume 10]).store

theorem session_conserved_wallet :
    Holds (step fixedCalendar) EndedOnce walletStart
        (plainly [.preConsume 10, .reserve 30, .refund, .runRefund]) ∧
      Holds (step fixedCalendar) (Conserved oneRequest) walletStart
        (plainly [.preConsume 10, .reserve 30, .refund, .runRefund]) := by
  have hserved : Served { userId := 1, tokenId := 1 } (.wallet { userId := 1 }) oneRequest := by
    refine ⟨by decide, fun w h => by cases h; decide, fun sub hsub => ?_⟩
    rw [List.mem_singleton.1 hsub]
    decide
  have hunused : FundingSource.Unused (.wallet { userId := 1 }) := rfl
  have h := session_conserved fixedCalendar
    (plainly [.preConsume 10, .reserve 30, .refund, .runRefund]) rfl hunused hserved
  refine ⟨(h.1 ⟨nofun, nofun, nofun, nofun, trivial⟩).1, h.2 ⟨⟨⟨rfl, rfl, rfl, by decide, nofun⟩, ?_⟩,
    ⟨trivial, ?_⟩, ⟨trivial, ?_⟩, ⟨trivial, ?_⟩, trivial⟩⟩
  all_goals exact fun _ => rfl

/-- A session that is settled after its refund is both, and gets quota for nothing. Nor is a run conserved
that pre-consumes twice, or after a settlement, or a negative quota, or another quota than the
subscription pre-consumes, or under a request id that has consumed, or that settles a subscription for
less than nothing. -/
theorem unrestricted_calls_not_conserved :
    (¬ EndedOnce (fromWallet [.preConsume 10, .refund, .runRefund, .settle 5]) ∧
        (fromWallet [.preConsume 10, .refund, .runRefund]).store.walletOf 1 = some 1000 ∧
        (fromWallet [.preConsume 10, .refund, .runRefund, .settle 5]).store.walletOf 1 = some 1005) ∧
      ¬ Conserved oneRequest (fromWallet [.preConsume 10, .preConsume 10]) ∧
      ¬ Conserved oneRequest (fromWallet [.settle 0, .preConsume 10]) ∧
      ¬ Conserved oneRequest (fromWallet [.preConsume (-5)]) ∧
      ¬ Conserved oneRequest (fromSubscription 20 oneRequest [.preConsume 10]) ∧
      ¬ Conserved repeatedRequest (fromSubscription 10 repeatedRequest [.preConsume 10]) ∧
      ¬ Conserved oneRequest (fromSubscription 10 oneRequest [.preConsume 10, .settle (-5)]) := by
  decide

end Billing

end NewApi

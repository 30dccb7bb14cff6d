import NewApi.TopUp.Credit
import NewApi.TopUp.Manual

/-!
# The hook of a completed top-up

Commission is accrued by a hook that the completing functions call after their transaction
(`FireTopupSuccess`). Each of them has to call it by itself: `recharge`, `rechargeCreem` and
`manualCompleteTopUp` do where they have committed, `epayNotify` does where it gets to its end, and
`rechargeWaffo` and `rechargeWaffoPancake` do not. So an order that one of these completes accrues nothing
(`accruedOnce_iff`).
-/

namespace NewApi.TopUp

open Run

/-- A call of `FireTopupSuccess`. -/
structure HookCall where
  topupId : Nat
  customerId : Nat
  moneyUSD : ℚ
deriving DecidableEq

/-- The call for an order. -/
def hookOf (o : TopUp) : HookCall := ⟨o.topupId, o.userId, o.money⟩

/-- The store, and the calls of the hook, the last one first. -/
structure Hooked where
  store : Store
  fired : List HookCall := []

namespace Hooked

/-- A transaction, and the calls of the hook after it has committed. -/
def commit (fires : List HookCall) (r : Except String Store) (s : Hooked) : Hooked :=
  match r with
  | .error _ => s
  | .ok store => { store, fired := fires ++ s.fired }

/-- The call for the order that a transaction has read. -/
def readHook (tradeNo : String) (s : Hooked) : List HookCall :=
  ((s.store.topUps.get? tradeNo).map hookOf).toList

section
variable (h : Host) (quotaPerUnit : ℚ) (io : Io) (now : Int)

/-- `Recharge`. -/
def recharge (referenceId customerId : String) (s : Hooked) : Hooked :=
  s.commit (s.readHook referenceId) (TopUp.recharge h quotaPerUnit io now referenceId customerId s.store)

/-- `RechargeCreem`. -/
def rechargeCreem (referenceId customerEmail : String) (s : Hooked) : Hooked :=
  s.commit (s.readHook referenceId) (TopUp.rechargeCreem io now referenceId customerEmail s.store)

/-- `RechargeWaffo`. -/
def rechargeWaffo (tradeNo : String) (s : Hooked) : Hooked :=
  s.commit [] (TopUp.rechargeWaffo quotaPerUnit io now tradeNo s.store)

/-- `RechargeWaffoPancake`. -/
def rechargeWaffoPancake (tradeNo : String) (s : Hooked) : Hooked :=
  s.commit [] (TopUp.rechargeWaffoPancake quotaPerUnit io now tradeNo s.store)

/-- What `ManualCompleteTopUp` hands to the hook: zeros where the order was done already. -/
def manualHook (tradeNo : String) (s : Hooked) : List HookCall :=
  match s.store.topUps.get? tradeNo with
  | none => []
  | some topUp => if topUp.status = .success then [⟨0, 0, 0⟩] else [hookOf topUp]

/-- `ManualCompleteTopUp`. -/
def manualCompleteTopUp (tradeNo : String) (s : Hooked) : Hooked :=
  s.commit (s.manualHook tradeNo) (TopUp.manualCompleteTopUp quotaPerUnit io now tradeNo s.store)

/-- `UpdatePendingTopUpStatus`. -/
def updatePendingTopUpStatus (tradeNo : String) (expected : Option PaymentProvider) (target : TopUpStatus)
    (s : Hooked) : Hooked :=
  s.commit [] (TopUp.updatePendingTopUpStatus io tradeNo expected target s.store)

/-- `EpayNotify` gets to its end: the order is pending, and no statement is refused or fails. -/
def EpayFires (tradeNo : String) (s : Hooked) : Prop :=
  ∃ o, s.store.topUps.get? tradeNo = some o ∧ o.paymentProvider = .epay ∧ o.status = .pending ∧
    io.save = none ∧ 0 ≤ amountCredit quotaPerUnit o ∧ io.update = none

instance (tradeNo : String) (s : Hooked) : Decidable (EpayFires quotaPerUnit io tradeNo s) := by
  unfold EpayFires
  cases s.store.topUps.get? tradeNo with
  | none => exact isFalse fun ⟨_, h, _⟩ => by cases h
  | some o => exact decidable_of_iff (_ ∧ _) ⟨fun h => ⟨o, rfl, h⟩, fun ⟨_, ho, h⟩ => by cases ho; exact h⟩

/-- `EpayNotify`. -/
def epayNotify (tradeNo payType : String) (s : Hooked) : Hooked where
  store := TopUp.epayNotify quotaPerUnit io tradeNo payType s.store
  fired := (if EpayFires quotaPerUnit io tradeNo s then s.readHook tradeNo else []) ++ s.fired

end

/-- A completion with its surroundings. -/
inductive Completion
  | epayNotify (tradeNo payType : String) (io : Io)
  | request (r : Request)

/-- The order that a completion names. -/
def Completion.tradeNo : Completion → String
  | .epayNotify tradeNo _ _ => tradeNo
  | .request r => r.call.tradeNo

section
variable (h : Host) (quotaPerUnit : ℚ)

def step (s : Hooked) : Completion → Hooked
  | .epayNotify tradeNo payType io => s.epayNotify quotaPerUnit io tradeNo payType
  | .request ⟨.recharge t c, now, io⟩ => s.recharge h quotaPerUnit io now t c
  | .request ⟨.rechargeCreem t e, now, io⟩ => s.rechargeCreem io now t e
  | .request ⟨.rechargeWaffo t, now, io⟩ => s.rechargeWaffo quotaPerUnit io now t
  | .request ⟨.rechargeWaffoPancake t, now, io⟩ => s.rechargeWaffoPancake quotaPerUnit io now t
  | .request ⟨.manualCompleteTopUp t, now, io⟩ => s.manualCompleteTopUp quotaPerUnit io now t
  | .request ⟨.updatePendingTopUpStatus t e target, _, io⟩ => s.updatePendingTopUpStatus io t e target

/-- The hook has been called once for a done order, with its money, and not for another. Orders are those that
were pending at first. -/
def AccruedOnce (start s : Hooked) : Prop :=
  ∀ o ∈ start.store.topUps, o.status = .pending → ∀ o', s.store.topUps.get? o.tradeNo = some o' →
    s.fired.filter (·.topupId = o.topupId) = if o'.status = .success then [hookOf o] else []

/-- A Waffo notification does not complete an order. -/
def PricedRefused (provider : PaymentProvider) (tradeNo : String) (io : Io) (s : Hooked) : Prop :=
  ∀ o, s.store.topUps.get? tradeNo = some o → tradeNo ≠ "" → o.paymentProvider = provider →
    o.status = .pending → io.save = none → io.update = none → amountCredit quotaPerUnit o ≤ 0

/-- The condition on a completion, and the store before it, under which the hook keeps up: the Epay notification
that marks an order credits it, no order is completed by a Waffo notification, and none is just marked as
done. -/
def Accrues (s : Hooked) : Completion → Prop
  | .epayNotify tradeNo _ io =>
    ∀ o, s.store.topUps.get? tradeNo = some o → o.paymentProvider = .epay → o.status = .pending →
      io.save = none → 0 ≤ amountCredit quotaPerUnit o ∧ io.update = none
  | .request ⟨.rechargeWaffo t, _, io⟩ => PricedRefused quotaPerUnit .waffo t io s
  | .request ⟨.rechargeWaffoPancake t, _, io⟩ => PricedRefused quotaPerUnit .waffoPancake t io s
  | .request ⟨.updatePendingTopUpStatus t expected target, _, io⟩ =>
    ∀ o, s.store.topUps.get? t = some o → t ≠ "" → (∀ p, expected = some p → o.paymentProvider = p) →
      o.status = .pending → io.save = none → target ≠ .success
  | .request _ => True

end

/-! ## What a completion does -/

/-- The columns of an order that the hook is called with, and its key. -/
def identity (o : TopUp) : String × Nat × Nat × ℚ := (o.tradeNo, o.topupId, o.userId, o.money)

/-- What a completion does to the orders and the hook, and whether the hook keeps up. -/
inductive Outcome (s : Hooked) (tradeNo : String) (accrues : Prop) (s' : Hooked) : Prop
  /-- No order is moved, and the hook is not called for one. -/
  | quiet (htop : s'.store.topUps = s.store.topUps)
      (hfired : s'.fired = s.fired ∨ s'.fired = ⟨0, 0, 0⟩ :: s.fired) (haccrues : accrues)
  /-- A pending order is moved, and the hook may be called for it. -/
  | moved (fires : Prop) [Decidable fires] {o : TopUp} {f : TopUp → TopUp}
      {hf : ∀ o, (f o).tradeNo = o.tradeNo} (ho : s.store.topUps.get? tradeNo = some o) (hp : o.status = .pending)
      (hidentity : ∀ o, identity (f o) = identity o)
      (htop : s'.store.topUps = s.store.topUps.modify tradeNo f hf)
      (hfired : s'.fired = (if fires then [hookOf o] else []) ++ s.fired)
      (haccrues : accrues ↔ (fires ↔ (f o).status = .success))

section
variable {h : Host} {quotaPerUnit : ℚ} {io : Io} {now : Int} {t : String} {s : Hooked} {accrues : Prop}

theorem readHook_of_get? {o : TopUp} (ho : s.store.topUps.get? t = some o) : s.readHook t = [hookOf o] := by
  unfold readHook
  rw [ho]
  rfl

theorem outcome_of_complete {o : TopUp} {upd : UserUpdates} {store : Store} {fires : List HookCall}
    (ho : s.store.topUps.get? t = some o) (hp : o.status = .pending)
    (hcomplete : s.store.complete io now o upd = .ok store) (hfires : fires = [hookOf o]) (haccrues : accrues) :
    Outcome s t accrues { store := store, fired := fires ++ s.fired } := by
  have htop := (Store.complete_ok hcomplete).1
  rw [Table.key_of_get? ho] at htop
  refine .moved True (f := completed now) ho hp (fun _ => rfl) htop ?_ ?_
  · rw [hfires, if_pos trivial]
  · exact iff_of_true haccrues (iff_of_true trivial rfl)

theorem outcome_of_committed {fires : List HookCall} {r : Except String Store}
    (hok : ∀ store, r = .ok store → Outcome s t accrues { store := store, fired := fires ++ s.fired })
    (haccrues : accrues) : Outcome s t accrues (s.commit fires r) := by
  cases r with
  | error e => exact .quiet rfl (.inl rfl) haccrues
  | ok store => exact hok store rfl

theorem outcome_of_refused {fires : List HookCall} {r : Except String Store}
    (hok : ∀ store, r = .ok store → store = s.store) (hfires : fires = [] ∨ fires = [⟨0, 0, 0⟩])
    (haccrues : accrues) : Outcome s t accrues (s.commit fires r) := by
  cases r with
  | error e => exact .quiet rfl (.inl rfl) haccrues
  | ok store =>
    have htop : store.topUps = s.store.topUps := congrArg Store.topUps (hok store rfl)
    rcases hfires with rfl | rfl
    · exact .quiet htop (.inl rfl) haccrues
    · exact .quiet htop (.inr rfl) haccrues

theorem complete_cases {o : TopUp} {quota : Int → Int} :
    (io.save = none ∧ io.update = none ∧
      ∃ store, s.store.complete io now o { quota := fun q => some (quota q) } = .ok store) ∨
    ¬ (io.save = none ∧ io.update = none) ∧
      ∃ e, s.store.complete io now o { quota := fun q => some (quota q) } = .error e := by
  unfold Store.complete
  cases io.save with
  | some e => exact .inr ⟨fun h => (nomatch h.1), e, rfl⟩
  | none =>
    cases io.update with
    | some e => exact .inr ⟨fun h => (nomatch h.2), e, rfl⟩
    | none =>
      refine .inl ⟨rfl, rfl, ?_⟩
      dsimp only
      split
      · exact ⟨_, rfl⟩
      · exact ⟨_, rfl⟩

/-- A Waffo notification is refused, or completes its order. -/
theorem rechargePriced_cases (provider : PaymentProvider) :
    (PricedRefused quotaPerUnit provider t io s ∧
      ∀ store, rechargePriced quotaPerUnit io now provider t s.store = .ok store → store = s.store) ∨
    ¬ PricedRefused quotaPerUnit provider t io s ∧ ∃ o store, s.store.topUps.get? t = some o ∧
      o.status = .pending ∧ rechargePriced quotaPerUnit io now provider t s.store = .ok store ∧
      s.store.complete io now o { quota := fun q => some (q + amountCredit quotaPerUnit o) } = .ok store := by
  unfold rechargePriced
  by_cases ht : t = ""
  · rw [if_pos ht]
    exact .inl ⟨fun _ _ hne => absurd ht hne, fun store hok => by cases hok⟩
  rw [if_neg ht]
  cases ho : s.store.topUps.get? t with
  | none =>
    refine .inl ⟨fun o ho' => ?_, fun store hok => by cases hok⟩
    cases ho.symm.trans ho'
  | some o =>
    -- the condition is about the order that is read
    have hiff : PricedRefused quotaPerUnit provider t io s ↔ (o.paymentProvider = provider →
        o.status = .pending → io.save = none → io.update = none → amountCredit quotaPerUnit o ≤ 0) := by
      refine ⟨fun h => h o ho ht, fun h o' ho' _ => ?_⟩
      cases ho.symm.trans ho'
      exact h
    rw [hiff]
    dsimp only
    by_cases hprov : o.paymentProvider = provider
    swap
    · rw [if_pos hprov]
      exact .inl ⟨fun h => absurd h hprov, fun store hok => by cases hok⟩
    rw [if_neg (not_not.2 hprov)]
    by_cases hsuccess : o.status = .success
    · rw [if_pos hsuccess]
      refine .inl ⟨fun _ hp => ?_, fun store hok => by cases hok; rfl⟩
      rw [hsuccess] at hp
      cases hp
    rw [if_neg hsuccess]
    by_cases hp : o.status = .pending
    swap
    · rw [if_pos hp]
      exact .inl ⟨fun _ h => absurd h hp, fun store hok => by cases hok⟩
    rw [if_neg (not_not.2 hp)]
    by_cases hle : amountCredit quotaPerUnit o ≤ 0
    · rw [if_pos hle]
      exact .inl ⟨fun _ _ _ _ => hle, fun store hok => by cases hok⟩
    rw [if_neg hle]
    rcases @complete_cases io now s o (· + amountCredit quotaPerUnit o) with
      ⟨hsave, hupdate, store, hok⟩ | ⟨hfails, e, herror⟩
    · refine .inr ⟨fun h => hle (h hprov hp hsave hupdate), o, store, rfl, hp, ?_, hok⟩
      exact congrArg masked hok
    · rw [herror]
      exact .inl ⟨fun _ _ hsave hupdate => absurd ⟨hsave, hupdate⟩ hfails, fun store hok => by cases hok⟩

theorem rechargePriced_outcome (provider : PaymentProvider) :
    Outcome s t (PricedRefused quotaPerUnit provider t io s)
      (s.commit [] (rechargePriced quotaPerUnit io now provider t s.store)) := by
  rcases @rechargePriced_cases quotaPerUnit io now t s provider with
    ⟨hrefused, hok⟩ | ⟨hrefused, o, store, ho, hp, hok, hcomplete⟩
  · exact outcome_of_refused hok (.inl rfl) hrefused
  · have htop := (Store.complete_ok hcomplete).1
    rw [Table.key_of_get? ho] at htop
    rw [hok]
    refine .moved False (f := completed now) ho hp (fun _ => rfl) htop rfl ?_
    exact iff_of_false hrefused fun hiff => hiff.2 rfl

theorem manualCompleteTopUp_outcome : Outcome s t True (s.manualCompleteTopUp quotaPerUnit io now t) := by
  have hfires : ∀ o, s.store.topUps.get? t = some o → o.status ≠ .success → s.manualHook t = [hookOf o] := by
    intro o ho hne
    unfold manualHook
    rw [ho]
    exact if_neg hne
  by_cases hdone : ∃ o, s.store.topUps.get? t = some o ∧ o.status = .success
  · obtain ⟨o, ho, hsuccess⟩ := hdone
    have hzero : s.manualHook t = [⟨0, 0, 0⟩] := by
      unfold manualHook
      rw [ho]
      exact if_pos hsuccess
    refine outcome_of_refused (fun store hok => ?_) (.inr hzero) trivial
    rcases manualCompleteTopUp_ok hok with hsame | ⟨o', ho', hp, -⟩
    · exact hsame
    · cases ho.symm.trans ho'
      rw [hsuccess] at hp
      cases hp
  · refine outcome_of_committed (fun store hok => ?_) trivial
    unfold TopUp.manualCompleteTopUp at hok
    split at hok
    · cases hok
    cases ho : s.store.topUps.get? t with
    | none => rw [ho] at hok; cases hok
    | some o =>
      have hne : o.status ≠ .success := fun hsuccess => hdone ⟨o, ho, hsuccess⟩
      rw [ho] at hok
      dsimp only at hok
      rw [if_neg hne] at hok
      split at hok
      · cases hok
      next hp =>
        split at hok
        · cases hok
        · exact outcome_of_complete ho (not_not.1 hp) hok (hfires o ho hne) trivial

theorem updatePendingTopUpStatus_save {expected : Option PaymentProvider} {target : TopUpStatus}
    {store store' : Store} (hok : TopUp.updatePendingTopUpStatus io t expected target store = .ok store') :
    t ≠ "" ∧ io.save = none := by
  unfold TopUp.updatePendingTopUpStatus at hok
  split at hok
  · cases hok
  next ht =>
    refine ⟨ht, ?_⟩
    split at hok
    · cases hok
    split at hok
    · cases hok
    split at hok
    · cases hok
    split at hok
    · cases hok
    next hsave => exact hsave

theorem updatePendingTopUpStatus_of_pending {expected : Option PaymentProvider} {target : TopUpStatus}
    {store : Store} {o : TopUp} (ho : store.topUps.get? t = some o) (ht : t ≠ "")
    (hprov : ∀ p, expected = some p → o.paymentProvider = p) (hp : o.status = .pending) (hsave : io.save = none) :
    TopUp.updatePendingTopUpStatus io t expected target store = .ok { store with
      topUps := store.topUps.modify o.tradeNo (withStatus target) (withStatus_tradeNo target) } := by
  have hany : ¬ expected.any (o.paymentProvider ≠ ·) := by
    cases expected with
    | none => exact fun h => by cases h
    | some p => simp [hprov p rfl]
  unfold TopUp.updatePendingTopUpStatus
  rw [if_neg ht, ho]
  dsimp only
  rw [if_neg hany, if_neg (not_not.2 hp), hsave]

theorem updatePendingTopUpStatus_outcome {expected : Option PaymentProvider} {target : TopUpStatus} :
    Outcome s t (Accrues quotaPerUnit s (.request ⟨.updatePendingTopUpStatus t expected target, now, io⟩))
      (s.updatePendingTopUpStatus io t expected target) := by
  unfold Accrues
  dsimp only
  by_cases hstays : ∃ store, TopUp.updatePendingTopUpStatus io t expected target s.store = .ok store
  · obtain ⟨store, hok⟩ := hstays
    have hcommit : s.updatePendingTopUpStatus io t expected target = { store, fired := [] ++ s.fired } := by
      unfold updatePendingTopUpStatus commit
      rw [hok]
    obtain ⟨o, ho, hprov, hp, rfl⟩ := updatePendingTopUpStatus_ok hok
    obtain ⟨ht, hsave⟩ := updatePendingTopUpStatus_save hok
    have htop : s.store.topUps.modify o.tradeNo (withStatus target) (withStatus_tradeNo target) =
        s.store.topUps.modify t (withStatus target) (withStatus_tradeNo target) := by
      rw [Table.key_of_get? ho]
    rw [hcommit]
    refine .moved False (f := withStatus target) ho hp (fun _ => rfl) htop rfl ?_
    refine ⟨fun h => iff_of_false not_false (h o ho ht (fun p hp => (hprov p hp).symm) hp hsave), ?_⟩
    intro hiff _ _ _ _ _ _ hsuccess
    exact hiff.2 hsuccess
  · refine outcome_of_refused (fun store hok => absurd ⟨store, hok⟩ hstays) (.inl rfl) ?_
    intro o ho ht hprov hp hsave
    exact absurd ⟨_, updatePendingTopUpStatus_of_pending ho ht hprov hp hsave⟩ hstays

/-- An Epay notification calls the hook where it gets to its end. -/
theorem epayNotify_outcome (payType : String) :
    Outcome s t (Accrues quotaPerUnit s (.epayNotify t payType io)) (s.epayNotify quotaPerUnit io t payType) := by
  -- where the order is not marked, nothing happens
  have hquiet : TopUp.epayNotify quotaPerUnit io t payType s.store = s.store →
      (∀ o, s.store.topUps.get? t = some o → o.paymentProvider = .epay → o.status = .pending →
        io.save ≠ none) →
      Outcome s t (Accrues quotaPerUnit s (.epayNotify t payType io))
        (s.epayNotify quotaPerUnit io t payType) := by
    intro hsame hnot
    have hfires : ¬ EpayFires quotaPerUnit io t s := fun ⟨o, ho, hprov, hp, hsave, _⟩ => hnot o ho hprov hp hsave
    refine .quiet (congrArg Store.topUps hsame) (.inl ?_) fun o ho hprov hp hsave =>
      absurd hsave (hnot o ho hprov hp)
    unfold epayNotify
    rw [if_neg hfires]
    rfl
  cases ho : s.store.topUps.get? t with
  | none =>
    refine hquiet ?_ fun o ho' => by cases ho.symm.trans ho'
    unfold TopUp.epayNotify
    rw [ho]
  | some o =>
    have hself : ∀ {p : TopUp → Prop}, p o → ∀ o', s.store.topUps.get? t = some o' → p o' := by
      intro p hp o' ho'
      cases ho.symm.trans ho'
      exact hp
    by_cases hprov : o.paymentProvider = .epay
    swap
    · refine hquiet ?_ (hself fun h => absurd h hprov)
      unfold TopUp.epayNotify
      rw [ho]
      exact if_pos hprov
    by_cases hp : o.status = .pending
    swap
    · refine hquiet ?_ (hself fun _ h => absurd h hp)
      unfold TopUp.epayNotify
      rw [ho]
      dsimp only
      rw [if_pos hp, ite_self]
    cases hsave : io.save with
    | some e =>
      refine hquiet ?_ (hself fun _ _ h => by rw [hsave] at h; cases h)
      unfold TopUp.epayNotify
      rw [ho, hsave]
      dsimp only
      rw [ite_self, ite_self]
    | none =>
      have htop : (TopUp.epayNotify quotaPerUnit io t payType s.store).topUps = s.store.topUps.modify t
          (fun o => { o with paymentMethod := payType, status := .success }) fun _ => rfl := by
        unfold TopUp.epayNotify
        rw [ho, hsave]
        dsimp only
        rw [if_neg (not_not.2 hprov), if_neg (not_not.2 hp)]
        split
        · rfl
        split
        · rfl
        · rfl
      have hfired : (s.epayNotify quotaPerUnit io t payType).fired =
          (if EpayFires quotaPerUnit io t s then [hookOf o] else []) ++ s.fired := by
        unfold epayNotify
        rw [readHook_of_get? ho]
      refine .moved _ (f := fun o => { o with paymentMethod := payType, status := .success }) ho hp (fun _ => rfl)
        htop hfired ⟨fun h => iff_of_true ?_ rfl, fun hiff => ?_⟩
      · obtain ⟨hle, hupdate⟩ := h o ho hprov hp hsave
        exact ⟨o, ho, hprov, hp, hsave, hle, hupdate⟩
      · obtain ⟨o', ho', -, -, -, hle, hupdate⟩ := hiff.2 rfl
        cases ho.symm.trans ho'
        exact hself fun _ _ _ => ⟨hle, hupdate⟩

theorem step_outcome (s : Hooked) (c : Completion) :
    Outcome s c.tradeNo (Accrues quotaPerUnit s c) (step h quotaPerUnit s c) := by
  cases c with
  | epayNotify tradeNo payType io => exact epayNotify_outcome payType
  | request r =>
    obtain ⟨call, now, io⟩ := r
    cases call with
    | recharge t customerId =>
      refine outcome_of_committed (fun store hok => ?_) trivial
      obtain ⟨o, ho, -, hp, hcomplete⟩ := recharge_ok hok
      exact outcome_of_complete ho hp hcomplete (readHook_of_get? ho) trivial
    | rechargeCreem t email =>
      refine outcome_of_committed (fun store hok => ?_) trivial
      obtain ⟨o, upd, ho, -, hp, -, hcomplete⟩ := rechargeCreem_ok hok
      exact outcome_of_complete ho hp hcomplete (readHook_of_get? ho) trivial
    | rechargeWaffo t => exact rechargePriced_outcome .waffo
    | rechargeWaffoPancake t => exact rechargePriced_outcome .waffoPancake
    | manualCompleteTopUp t => exact manualCompleteTopUp_outcome
    | updatePendingTopUpStatus t expected target => exact updatePendingTopUpStatus_outcome

end

/-! ## The orders of a run -/

/-- The orders are those of the start, and one that is pending was pending then. -/
def FromStart (start s : Hooked) : Prop :=
  ∀ o ∈ s.store.topUps, ∃ o₀ ∈ start.store.topUps, identity o₀ = identity o ∧
    (o.status = .pending → o₀.status = .pending)

section
variable {h : Host} {quotaPerUnit : ℚ} {tradeNo : String} {start s s' : Hooked} {accrues : Prop}

theorem hookOf_of_identity {o o' : TopUp} (h : identity o = identity o') : hookOf o = hookOf o' := by
  simp only [identity, Prod.mk.injEq] at h
  unfold hookOf
  rw [h.2.1, h.2.2.1, h.2.2.2]

theorem filter_hookOf {o : TopUp} {id : Nat} :
    [hookOf o].filter (·.topupId = id) = if o.topupId = id then [hookOf o] else [] := by
  by_cases h : o.topupId = id
  · rw [if_pos h, List.filter_cons_of_pos (by exact decide_eq_true h), List.filter_nil]
  · rw [if_neg h, List.filter_cons_of_neg (by exact fun hd => h (of_decide_eq_true hd)), List.filter_nil]

theorem Outcome.fromStart (ho : Outcome s tradeNo accrues s') (hs : FromStart start s) : FromStart start s' := by
  intro o ho'
  cases ho with
  | quiet htop =>
    rw [htop] at ho'
    exact hs o ho'
  | @moved _ _ o₁ f hf hget hp hidentity htop =>
    rw [htop] at ho'
    obtain ⟨o₂, ho₂, rfl⟩ := Table.mem_modifyWhere.1 ho'
    obtain ⟨o₀, ho₀, hid, hpending⟩ := hs o₂ ho₂
    refine ⟨o₀, ho₀, ?_, fun hp' => ?_⟩
    · split
      · rw [hidentity, hid]
      · exact hid
    · split at hp'
      next hkey =>
        -- the row that is moved is the pending one
        refine hpending ?_
        rw [← hkey, Table.get?_key ho₂] at hget
        rw [Option.some.inj hget, hp]
      · exact hpending hp'

/-- After a completion the hook has kept up just where it keeps up with this one. -/
theorem Outcome.accrued_iff (hnodup : (start.store.topUps.rows.map TopUp.topupId).Nodup)
    (hzero : ∀ o ∈ start.store.topUps, o.topupId ≠ 0) (hstart : FromStart start s)
    (hs : AccruedOnce start s) (ho : Outcome s tradeNo accrues s') : AccruedOnce start s' ↔ accrues := by
  cases ho with
  | quiet htop hfired haccrues =>
    refine iff_of_true (fun o ho hp o' ho' => ?_) haccrues
    rw [htop] at ho'
    rw [← hs o ho hp o' ho']
    rcases hfired with hsame | hnull
    · rw [hsame]
    · rw [hnull, List.filter_cons_of_neg]
      simpa using (hzero o ho).symm
  | @moved fires _ o f hf hget hp hidentity htop hfired haccrues =>
    rw [haccrues]
    obtain ⟨o₀, ho₀, hid, hpending⟩ := hstart o (Table.mem_of_get? hget)
    have hsameKey : o₀.tradeNo = o.tradeNo := congrArg Prod.fst hid
    have hkey : o₀.tradeNo = tradeNo := hsameKey.trans (Table.key_of_get? hget)
    have htopup : o₀.topupId = o.topupId := congrArg (·.2.1) hid
    have hget' : s'.store.topUps.get? tradeNo = some (f o) := by
      rw [htop, Table.get?_modify_self, hget, Option.map_some]
    -- what has been called for the order that is moved
    have hself : s'.fired.filter (·.topupId = o₀.topupId) = if fires then [hookOf o] else [] := by
      have hnone := hs o₀ ho₀ (hpending hp) o (by rw [hkey, hget])
      rw [hp, if_neg (by decide)] at hnone
      rw [hfired, List.filter_append, hnone, List.append_nil]
      split
      · rw [filter_hookOf, if_pos htopup.symm]
      · exact List.filter_nil ..
    constructor
    · intro hs'
      have hcalled := hs' o₀ ho₀ (hpending hp) (f o) (by rw [hkey, hget'])
      rw [hself] at hcalled
      by_cases hf : fires <;> by_cases hsuccess : (f o).status = .success <;> simp_all
    · intro hiff o₁ ho₁ hp₁ o' ho'
      by_cases hne : o₁.tradeNo = tradeNo
      · have hsame : o₁ = o₀ := start.store.topUps.eq_of_key_eq ho₁ ho₀ (hne.trans hkey.symm)
        rw [hsame, hkey, hget'] at ho'
        rw [hsame, hself, ← Option.some.inj ho', hookOf_of_identity hid]
        by_cases hfires : fires
        · rw [if_pos hfires, if_pos (hiff.1 hfires)]
        · rw [if_neg hfires, if_neg fun hsuccess => hfires (hiff.2 hsuccess)]
      · rw [htop, Table.get?_modify_ne hne] at ho'
        rw [← hs o₁ ho₁ hp₁ o' ho', hfired, List.filter_append]
        have hother : o.topupId ≠ o₁.topupId := by
          intro heq
          refine hne ?_
          rw [← hkey, List.inj_on_of_nodup_map hnodup ho₁ ho₀ (heq.symm.trans htopup.symm)]
        split
        · rw [filter_hookOf, if_neg hother, List.nil_append]
        · rfl

/-- In a run of completions, the hook is called exactly once for each done order and for no other, just where it
keeps up with each completion. -/
theorem accruedOnce_iff {l : List Completion} (hnodup : (start.store.topUps.rows.map TopUp.topupId).Nodup)
    (hzero : ∀ o ∈ start.store.topUps, o.topupId ≠ 0) (hfired : start.fired = []) :
    Holds (step h quotaPerUnit) (AccruedOnce start) start l ↔
      Meets (step h quotaPerUnit) (Accrues quotaPerUnit) start l := by
  refine holds_iff_meets (I := FromStart start) (fun s c hs => (step_outcome s c).fromStart hs)
    (fun s c hs hs' => (step_outcome s c).accrued_iff hnodup hzero hs hs')
    (fun o ho => ⟨o, ho, rfl, id⟩) fun o ho hp o' ho' => ?_
  rw [Table.get?_key ho] at ho'
  rw [hfired, ← Option.some.inj ho', hp]
  rfl

end

/-- Two orders of one user, and no call yet. -/
def hookStart : Hooked where
  store :=
    { topUps := ⟨[{ tradeNo := "A", userId := 1, amount := 10, money := 73, paymentMethod := "alipay"
                    paymentProvider := .epay, status := .pending, topupId := 1 },
                  { tradeNo := "B", userId := 1, amount := 10, money := 73, paymentMethod := "waffo"
                    paymentProvider := .waffo, status := .pending, topupId := 2 }], by decide⟩
      users := ⟨[{ id := 1, quota := 0 }, { id := 2, quota := 5 }], by decide⟩ }

theorem accruedOnce_iff_hookStart :
    Holds (step Host.exact 500000) (AccruedOnce hookStart) hookStart
        [.epayNotify "A" "alipay" {}, .request ⟨.rechargeWaffo "B", 5, {}⟩] ↔
      Meets (step Host.exact 500000) (Accrues 500000) hookStart
        [.epayNotify "A" "alipay" {}, .request ⟨.rechargeWaffo "B", 5, {}⟩] :=
  accruedOnce_iff (by decide) (fun o ho => by
    rcases List.mem_cons.1 ho with rfl | ho
    · decide
    · rcases List.mem_singleton.1 ho with rfl
      decide) rfl

/-- A Waffo notification completes its order, and the hook is not called. -/
theorem not_accruedOnce :
    ¬ Holds (step Host.exact 500000) (AccruedOnce hookStart) hookStart
      [.request ⟨.rechargeWaffo "B", 5, {}⟩] := by
  intro h
  have hlast := h.last { tradeNo := "B", userId := 1, amount := 10, money := 73, paymentMethod := "waffo",
                         paymentProvider := .waffo, status := .pending, topupId := 2 }
    (List.mem_cons_of_mem _ List.mem_cons_self) rfl
  have hdone : (run (step Host.exact 500000) hookStart
      [.request ⟨.rechargeWaffo "B", 5, {}⟩]).store.topUps.get? "B" = some
        { tradeNo := "B", userId := 1, amount := 10, money := 73, paymentMethod := "waffo",
          paymentProvider := .waffo, completeTime := 5, status := .success, topupId := 2 } := by
    decide +kernel
  have hnone := hlast _ hdone
  rw [if_pos rfl] at hnone
  have hempty : (run (step Host.exact 500000) hookStart
      [.request ⟨.rechargeWaffo "B", 5, {}⟩]).fired = [] := by decide +kernel
  rw [hempty] at hnone
  cases hnone

end Hooked

end NewApi.TopUp

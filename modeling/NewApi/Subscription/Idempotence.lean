import NewApi.Lib.Run
import NewApi.Subscription.Charge

/-!
# Pre-consuming a request once

Pre-consumptions and refunds, with any request ids, users, amounts and plans, and with any statement
failing, over any subscriptions. The calls that have succeeded are kept beside the store, so that what
they report can be compared with the record of their request.
-/

namespace NewApi.SubscriptionRequest

open Run SubscriptionStore

/-- A call that takes a request id, with the plans it reads and the statements that fail. -/
inductive Call
  | preConsume (planById : Nat → Option SubscriptionPlan) (fails : Bool) (requestId : String)
      (userId : Nat) (amount now : Int)
  | refund (deltaFails saveFails : Bool) (requestId : String)

/-- A store, and what has been asked of it. -/
structure History where
  store : SubscriptionStore
  /-- The pre-consumptions that have succeeded, with what they have reported, the last one first. -/
  calls : List (String × SubscriptionPreConsumeResult)
  /-- The requests that have been refunded. -/
  refunds : List String

/-- The history after a call. -/
def step (cal : Calendar) (h : History) : Call → History
  | .preConsume planById fails requestId userId amount now =>
    match h.store.preConsumeUserSubscription cal planById fails requestId userId amount now with
    | .error _ => h
    | .ok (res, s) => { h with store := s, calls := (requestId, res) :: h.calls }
  | .refund deltaFails saveFails requestId =>
    match h.store.refundSubscriptionPreConsume deltaFails saveFails requestId with
    | (some _, s) => { h with store := s }
    | (none, s) => { h with store := s, refunds := requestId :: h.refunds }

/-- What a call has charged. -/
def charge (res : SubscriptionPreConsumeResult) : Int := res.amountUsedAfter - res.amountUsedBefore

/-- The charges of a request, each with the subscription that is charged. -/
def chargesOf (requestId : String) (h : History) : List (Nat × Int) :=
  (h.calls.filter fun c => c.1 = requestId ∧ charge c.2 ≠ 0).map fun c =>
    (c.2.userSubscriptionId, charge c.2)

/-- What a request has pre-consumed by its record. -/
def recorded (requestId : String) (s : SubscriptionStore) : Int :=
  ((s.records.get? requestId).map PreConsumeRecord.preConsumed).getD 0

/-- Every request is charged to one subscription at most, once at most, and with what is recorded. -/
def ChargedOnce (h : History) : Prop :=
  ∀ requestId, (chargesOf requestId h).length ≤ 1 ∧
    ((chargesOf requestId h).map Prod.snd).sum = recorded requestId h.store

/-- What a call reports as charged is what the used amounts grow by, up to the resets that are due. -/
def ChargesAsReported (cal : Calendar) (planById : Nat → Option SubscriptionPlan) (now : Int)
    (res : SubscriptionPreConsumeResult) (s s' : SubscriptionStore) : Prop :=
  ∀ id, ∃ base, s'.usedOf id = base + (if id = res.userSubscriptionId then charge res else 0) ∧
    (base = s.usedOf id ∨
      base = 0 ∧ ∃ old, s.subs.get? id = some old ∧ Resets cal planById now old)

/-- What a pre-consumption that succeeds reports: it is not of a refunded request, and where the request
has been pre-consumed before, it reports the same and leaves the store. -/
def ReportsOnce (cal : Calendar) (h : History) : Call → History → Prop
  | .preConsume planById fails requestId userId amount now, h' =>
    ∀ res s, h.store.preConsumeUserSubscription cal planById fails requestId userId amount now =
        .ok (res, s) →
      h'.store = s ∧ requestId ∉ h.refunds ∧
      ChargesAsReported cal planById now res h.store s ∧
      ∀ first, (requestId, first) ∈ h.calls →
        res.userSubscriptionId = first.userSubscriptionId ∧ res.preConsumed = first.preConsumed ∧
          s = h.store
  | .refund .., _ => True

/-- The calls agree with the records. -/
structure Valid (h : History) : Prop where
  calls : ∀ c ∈ h.calls, ∃ record, h.store.records.get? c.1 = some record ∧
    c.2.userSubscriptionId = record.userSubscriptionId ∧ c.2.preConsumed = record.preConsumed
  charges : ∀ requestId, chargesOf requestId h =
    ((h.store.records.get? requestId).map fun record =>
      (record.userSubscriptionId, record.preConsumed)).toList
  refunds : ∀ requestId ∈ h.refunds, ∃ record, h.store.records.get? requestId = some record ∧
    record.status = .refunded

section
variable {cal : Calendar} {h : History} {s s' : SubscriptionStore} {requestId : String}
  {planById : Nat → Option SubscriptionPlan} {fails : Bool} {userId : Nat} {amount now : Int}
  {res : SubscriptionPreConsumeResult}

theorem Valid.chargedOnce (hv : Valid h) : ChargedOnce h := by
  intro requestId
  rw [hv.charges, recorded]
  cases h.store.records.get? requestId with
  | none => exact ⟨Nat.zero_le _, rfl⟩
  | some record => exact ⟨Nat.le_refl _, Int.add_zero _⟩

theorem chargesOf_cons_of_zero (hzero : charge res = 0) (r : String) :
    chargesOf r { h with store := s, calls := (requestId, res) :: h.calls } = chargesOf r h := by
  unfold chargesOf
  rw [List.filter_cons_of_neg]
  simp [hzero]

theorem chargesOf_cons_of_ne (hne : charge res ≠ 0) (r : String) :
    chargesOf r { h with store := s, calls := (requestId, res) :: h.calls } =
      if requestId = r then (res.userSubscriptionId, charge res) :: chargesOf r h
      else chargesOf r h := by
  unfold chargesOf
  split
  next hr => rw [List.filter_cons_of_pos (by simp [hr, hne]), List.map_cons]
  next hr => rw [List.filter_cons_of_neg (by simp [hr])]

theorem valid_of_repeat (hv : Valid h) {record : PreConsumeRecord}
    (hrecord : h.store.records.get? requestId = some record)
    (hid : res.userSubscriptionId = record.userSubscriptionId)
    (hpre : res.preConsumed = record.preConsumed) (hzero : charge res = 0) :
    Valid { h with calls := (requestId, res) :: h.calls } where
  calls c hc := by
    rcases List.mem_cons.1 hc with rfl | hc
    · exact ⟨record, hrecord, hid, hpre⟩
    · exact hv.calls c hc
  charges r := (chargesOf_cons_of_zero hzero r).trans (hv.charges r)
  refunds := hv.refunds

theorem valid_of_first (hv : Valid h) (hnone : h.store.records.get? requestId = none)
    {record : PreConsumeRecord} (hkey : record.requestId = requestId)
    (hrecords : s.records = h.store.records.insertNew record)
    (hid : res.userSubscriptionId = record.userSubscriptionId)
    (hpre : res.preConsumed = record.preConsumed) (hcharge : charge res = record.preConsumed)
    (hpos : 0 < record.preConsumed) :
    Valid { h with store := s, calls := (requestId, res) :: h.calls } := by
  subst hkey
  have hself : s.records.get? record.requestId = some record := by
    rw [hrecords, Table.get?_insertNew_self hnone]
  have hother : ∀ r, r ≠ record.requestId → s.records.get? r = h.store.records.get? r := by
    intro r hne
    rw [hrecords, Table.get?_insertNew_ne hne]
  have hne : ∀ r old, h.store.records.get? r = some old → r ≠ record.requestId := by
    rintro r old hold rfl
    rw [hnone] at hold
    cases hold
  refine ⟨fun c hc => ?_, fun r => ?_, fun r hr => ?_⟩
  · rcases List.mem_cons.1 hc with rfl | hc
    · exact ⟨record, hself, hid, hpre⟩
    · obtain ⟨old, hold, hagree⟩ := hv.calls c hc
      exact ⟨old, (hother c.1 (hne c.1 old hold)).trans hold, hagree⟩
  · rw [chargesOf_cons_of_ne (hcharge.symm ▸ (Int.ne_of_gt hpos)), hv.charges]
    show _ = ((s.records.get? r).map fun record =>
      (record.userSubscriptionId, record.preConsumed)).toList
    split
    next hr =>
      rw [← hr, hself, hnone, hid, hcharge]
      rfl
    next hr => rw [hother r fun he => hr he.symm]
  · obtain ⟨old, hold, hstatus⟩ := hv.refunds r hr
    exact ⟨old, (hother r (hne r old hold)).trans hold, hstatus⟩

theorem Valid.of_records (hv : Valid h) (hrecords : s.records = h.store.records) :
    Valid { h with store := s } where
  calls := by
    show ∀ c ∈ h.calls, ∃ record, s.records.get? c.1 = some record ∧ _
    rw [hrecords]
    exact hv.calls
  charges := by
    show ∀ r, chargesOf r h = ((s.records.get? r).map _).toList
    rw [hrecords]
    exact hv.charges
  refunds := by
    show ∀ r ∈ h.refunds, ∃ record, s.records.get? r = some record ∧ _
    rw [hrecords]
    exact hv.refunds

theorem valid_of_marked (hv : Valid h) {record : PreConsumeRecord}
    (hrecord : h.store.records.get? requestId = some record) :
    Valid { h with store := h.store.markRefunded requestId, refunds := requestId :: h.refunds } := by
  refine ⟨fun c hc => ?_, fun r => ?_, fun r hr => ?_⟩
  · obtain ⟨old, hold, hid, hpre⟩ := hv.calls c hc
    show ∃ record, (h.store.markRefunded requestId).records.get? c.1 = some record ∧ _
    rw [get?_markRefunded, hold]
    split
    · exact ⟨old.refunded, rfl, hid, hpre⟩
    · exact ⟨old, rfl, hid, hpre⟩
  · refine (hv.charges r).trans ?_
    show _ = (((h.store.markRefunded requestId).records.get? r).map _).toList
    rw [get?_markRefunded]
    split
    · rw [Option.map_map]
      rfl
    · rfl
  · show ∃ record, (h.store.markRefunded requestId).records.get? r = some record ∧ _
    rw [get?_markRefunded]
    split
    next heq =>
      rw [heq, hrecord]
      exact ⟨record.refunded, rfl, rfl⟩
    next hne =>
      rcases List.mem_cons.1 hr with heq | hr
      · exact absurd heq hne
      · exact hv.refunds r hr

theorem step_valid (cal : Calendar) (call : Call) (hv : Valid h) : Valid (step cal h call) := by
  cases call with
  | preConsume planById fails requestId userId amount now =>
    unfold step
    dsimp only
    split
    · exact hv
    next res s hpre =>
    rcases preConsume_spec hpre with ⟨record, sub, hrecord, -, -, rfl, rfl⟩ |
      ⟨hnone, hamount, before, c, after, row, -, -, rfl, -, hrecords⟩
    · exact valid_of_repeat hv hrecord rfl rfl (Int.sub_self _)
    · refine valid_of_first hv hnone rfl hrecords rfl rfl ?_ hamount
      exact add_sub_cancel_left row.amountUsed amount
  | refund deltaFails saveFails requestId =>
    unfold step
    dsimp only
    rcases hrefund : h.store.refundSubscriptionPreConsume deltaFails saveFails requestId with ⟨e, s⟩
    have hcases := refund_spec hrefund
    have hcredits : ∀ record s₁, CreditsBack record h.store s₁ → s₁.records = h.store.records := by
      rintro record s₁ (⟨-, rfl⟩ | ⟨-, sub, hat⟩)
      · rfl
      · exact hat.records
    cases e with
    | some e =>
      refine hv.of_records ?_
      rcases hcases with ⟨rfl, -⟩ | ⟨record, s₁, -, -, hback, ⟨-, -, rfl⟩ | ⟨-, hnone, -⟩⟩
      · rfl
      · exact hcredits record s hback
      · cases hnone
    | none =>
      rcases hcases with ⟨rfl, hdone⟩ | ⟨record, s₁, hrecord, -, hback, ⟨-, hsome, -⟩ | ⟨-, -, rfl⟩⟩
      · obtain ⟨record, hrecord, hstatus⟩ := hdone rfl
        refine ⟨hv.calls, hv.charges, fun r hr => ?_⟩
        rcases List.mem_cons.1 hr with rfl | hr
        · exact ⟨record, hrecord, hstatus⟩
        · exact hv.refunds r hr
      · cases hsome
      · have hrecords := hcredits record s₁ hback
        exact valid_of_marked (hv.of_records hrecords) (by rw [← hrecord, ← hrecords])

/-! ## What a call reports -/

theorem chargesAsReported (hpre : s.preConsumeUserSubscription cal planById fails requestId userId
    amount now = .ok (res, s')) : ChargesAsReported cal planById now res s s' := by
  intro id
  rcases preConsume_spec hpre with ⟨record, sub, -, -, -, rfl, rfl⟩ |
    ⟨-, -, before, c, after, row, hcands, hat, rfl, -⟩
  · refine ⟨s'.usedOf id, ?_, .inl rfl⟩
    show s'.usedOf id = s'.usedOf id + ite _ (sub.amountUsed - sub.amountUsed) 0
    rw [Int.sub_self, ite_self, Int.add_zero]
  · obtain ⟨hin, hnodup⟩ := candidates_append hcands
    have hused : s'.usedOf id = _ := hat.usedOf hin hnodup
    rw [← add_sub_cancel_left row.amountUsed amount] at hused
    refine ⟨_, hused, ?_⟩
    split
    next hex =>
      obtain ⟨p, hp, rfl, hresets⟩ := hex
      exact .inr ⟨rfl, p, hin p hp, hresets⟩
    next => exact .inl rfl

theorem step_reportsOnce (cal : Calendar) (call : Call) (hv : Valid h) :
    ReportsOnce cal h call (step cal h call) := by
  cases call with
  | refund deltaFails saveFails requestId => trivial
  | preConsume planById fails requestId userId amount now =>
    intro res s hpre
    refine ⟨?_, fun hrefunded => ?_, chargesAsReported hpre, fun first hfirst => ?_⟩
    · unfold step
      dsimp only
      rw [hpre]
    · obtain ⟨record, hrecord, hstatus⟩ := hv.refunds requestId hrefunded
      rcases preConsume_spec hpre with ⟨record', _, hrecord', hopen, -⟩ | ⟨hnone, -⟩
      · rw [hrecord] at hrecord'
        cases hrecord'
        exact hopen hstatus
      · rw [hrecord] at hnone
        cases hnone
    · obtain ⟨record, hrecord, hid, hpreConsumed⟩ := hv.calls _ hfirst
      rcases preConsume_spec hpre with ⟨record', _, hrecord', -, -, rfl, rfl⟩ | ⟨hnone, -⟩
      · rw [hrecord] at hrecord'
        cases hrecord'
        exact ⟨hid.symm, hpreConsumed.symm, rfl⟩
      · rw [hrecord] at hnone
        cases hnone

end

/-- In every run that starts with no record, every request is charged once, with what is recorded, and
every pre-consumption that succeeds reports what the first one of its request has reported. -/
theorem preConsume_idempotent (cal : Calendar) (users : Users) (subs : Table UserSubscription.id)
    (calls : List Call) :
    Holds (step cal) ChargedOnce ⟨⟨users, subs, .empty⟩, [], []⟩ calls ∧
      Always (step cal) (ReportsOnce cal) ⟨⟨users, subs, .empty⟩, [], []⟩ calls := by
  have hmeets : Meets (step cal) (fun _ _ => True) ⟨⟨users, subs, .empty⟩, [], []⟩ calls :=
    meets_of_forall fun _ _ => trivial
  have hinit : Valid ⟨⟨users, subs, .empty⟩, [], []⟩ := ⟨nofun, fun _ => rfl, nofun⟩
  exact ⟨hmeets.holds (fun _ call hv _ => step_valid cal call hv) (fun _ hv => hv.chargedOnce) hinit,
    hmeets.always (fun _ call hv _ => step_valid cal call hv)
      (fun _ call hv _ => step_reportsOnce cal call hv) hinit⟩

end NewApi.SubscriptionRequest

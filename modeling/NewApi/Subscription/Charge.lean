import NewApi.Subscription.PreConsume

/-!
# What a call does to the subscriptions

One lemma for each call that changes the used amount of a subscription: a reset, a pre-consumption, a
settlement and a refund. A row is looked up before and after, and nothing else is said of the table.
-/

namespace NewApi

/-- A reset time has come for the subscription. -/
def Advances (cal : Calendar) (plan : SubscriptionPlan) (now : Int) (sub : UserSubscription) : Prop :=
  ¬ (sub.nextResetTime > 0 ∧ sub.nextResetTime > now) ∧
    normalizeResetPeriod plan.quotaResetPeriod ≠ .never ∧
    let base := if sub.lastResetTime ≤ 0 then sub.startTime else sub.lastResetTime
    let next := calcNextResetTime cal base plan sub.endTime
    next > 0 ∧ next ≤ now

instance (cal : Calendar) (plan : SubscriptionPlan) (now : Int) (sub : UserSubscription) :
    Decidable (Advances cal plan now sub) := inferInstanceAs (Decidable (_ ∧ _ ∧ _))

section
variable {cal : Calendar} {plan : SubscriptionPlan} {now : Int} {sub row c : UserSubscription}

theorem maybeReset_spec (h : maybeResetUserSubscription cal plan now sub = some row) :
    row.id = sub.id ∧ row.amountTotal = sub.amountTotal ∧
      row.amountUsed = if Advances cal plan now sub then 0 else sub.amountUsed := by
  by_cases hadv : Advances cal plan now sub
  · rw [if_pos hadv]
    obtain ⟨h₁, h₂, h₃⟩ := hadv
    rw [maybeResetUserSubscription, if_neg h₁, if_neg h₂] at h
    dsimp only at h h₃
    rw [if_pos h₃] at h
    obtain ⟨p, -, rfl⟩ := Option.map_eq_some_iff.1 h
    exact ⟨rfl, rfl, rfl⟩
  · rw [if_neg hadv]
    unfold maybeResetUserSubscription at h
    split at h
    · cases h
      exact ⟨rfl, rfl, rfl⟩
    rename_i h₁
    split at h
    · cases h
      exact ⟨rfl, rfl, rfl⟩
    rename_i h₂
    dsimp only at h
    by_cases h₃ : calcNextResetTime cal
        (if sub.lastResetTime ≤ 0 then sub.startTime else sub.lastResetTime) plan sub.endTime > 0 ∧
        calcNextResetTime cal
          (if sub.lastResetTime ≤ 0 then sub.startTime else sub.lastResetTime) plan sub.endTime ≤ now
    · exact absurd ⟨h₁, h₂, h₃⟩ hadv
    · rw [if_neg h₃] at h
      generalize (if sub.lastResetTime ≤ 0 then sub.startTime else sub.lastResetTime) = base at h
      split at h
      · cases h
        exact ⟨rfl, rfl, rfl⟩
      · cases h
        exact ⟨rfl, rfl, rfl⟩

/-- The row that a candidate is reset to, where its plan is found. -/
def resetOf (cal : Calendar) (planById : Nat → Option SubscriptionPlan) (now : Int)
    (sub : UserSubscription) : Option UserSubscription :=
  (planById sub.planId).bind fun plan => maybeResetUserSubscription cal plan now sub

/-- The subscription has the amount left. -/
def Fits (amount : Int) (sub : UserSubscription) : Prop :=
  ¬ (sub.amountTotal > 0 ∧ sub.amountTotal - sub.amountUsed < amount)

/-- A reset time has come for the subscription, by its own plan. -/
def Resets (cal : Calendar) (planById : Nat → Option SubscriptionPlan) (now : Int)
    (sub : UserSubscription) : Prop :=
  ∃ plan, planById sub.planId = some plan ∧ Advances cal plan now sub

instance (amount : Int) : DecidablePred (Fits amount) := fun _ => inferInstanceAs (Decidable (¬ _))

instance (cal : Calendar) (planById : Nat → Option SubscriptionPlan) (now : Int) :
    DecidablePred (Resets cal planById now) := fun sub =>
  decidable_of_iff ((planById sub.planId).any fun plan => Advances cal plan now sub)
    (by simp [Resets, Option.any_eq_true])

/-- The candidates that a pre-consumption works off, up to the one that it charges. -/
def workedOff (cal : Calendar) (planById : Nat → Option SubscriptionPlan) (now amount : Int) :
    List UserSubscription → List UserSubscription
  | [] => []
  | candidate :: rest =>
    match resetOf cal planById now candidate with
    | none => []
    | some row =>
      candidate :: if Fits amount row then [] else workedOff cal planById now amount rest

theorem resetOf_spec {planById : Nat → Option SubscriptionPlan}
    (h : resetOf cal planById now sub = some row) :
    row.id = sub.id ∧ row.amountTotal = sub.amountTotal ∧
      (Resets cal planById now sub → row.amountUsed = 0) ∧
        (¬ Resets cal planById now sub → row.amountUsed = sub.amountUsed) := by
  obtain ⟨plan, hplan, hreset⟩ := Option.bind_eq_some_iff.1 h
  obtain ⟨hid, htotal, hused⟩ := maybeReset_spec hreset
  refine ⟨hid, htotal, ?_, fun hno => ?_⟩
  · rintro ⟨plan', hplan', hadv⟩
    rw [hplan] at hplan'
    cases hplan'
    rw [hused, if_pos hadv]
  · rw [hused, if_neg fun hadv => hno ⟨plan, hplan, hadv⟩]

namespace SubscriptionStore

/-- The used amount of a subscription. -/
def usedOf (id : Nat) (s : SubscriptionStore) : Int :=
  ((s.subs.get? id).map UserSubscription.amountUsed).getD 0

variable {s s' : SubscriptionStore} {id : Nat}

theorem usedOf_of_get? (h : s.subs.get? id = some row) : s.usedOf id = row.amountUsed := by
  rw [usedOf, h]
  rfl

theorem usedOf_congr (h : s'.subs.get? id = s.subs.get? id) : s'.usedOf id = s.usedOf id := by
  rw [usedOf, h, usedOf]

theorem get?_saveSub_self (hget : s.subs.get? row.id = some c) :
    (s.saveSub row).subs.get? row.id = some row := by
  unfold saveSub
  rw [Table.get?_modify_self, hget]
  show some (row.saved c) = some row
  have hid : c.id = row.id := Table.key_of_get? hget
  unfold UserSubscription.saved
  rw [hid]

theorem get?_saveSub_ne (hne : id ≠ row.id) : (s.saveSub row).subs.get? id = s.subs.get? id := by
  unfold saveSub
  rw [Table.get?_modify_ne hne]

end SubscriptionStore

/-! ## Pre-consuming -/

section
variable {planById : Nat → Option SubscriptionPlan} {requestId : String} {userId : Nat}
  {amount : Int} {cands : List UserSubscription} {res : SubscriptionPreConsumeResult}
  {s s' : SubscriptionStore}

/-- A pre-consumption charges a candidate `c`, of which `row` is left after a reset, and has reset the
candidates `before` it, none of which has the amount left. -/
structure ChargesAt (cal : Calendar) (planById : Nat → Option SubscriptionPlan) (now amount : Int)
    (before : List UserSubscription) (c row : UserSubscription) (s s' : SubscriptionStore) : Prop where
  /-- The charged row. -/
  reset : resetOf cal planById now c = some row
  fits : Fits amount row
  charged : s'.subs.get? c.id = some { row with amountUsed := row.amountUsed + amount }
  /-- The rows before it. -/
  skipped : ∀ p ∈ before, ∃ skip, resetOf cal planById now p = some skip ∧ ¬ Fits amount skip ∧
    s'.subs.get? p.id = some skip
  /-- The other rows. -/
  frame : ∀ id, id ∉ before.map UserSubscription.id → id ≠ c.id → s'.subs.get? id = s.subs.get? id

/-- The loop charges the first candidate that has the amount left once it is reset. -/
theorem chargeFirst_spec (hin : ∀ c ∈ cands, s.subs.get? c.id = some c)
    (hnodup : (cands.map UserSubscription.id).Nodup)
    (h : SubscriptionStore.chargeFirst cal planById requestId userId amount now cands s =
      .ok (res, s')) :
    ∃ before c after row, cands = before ++ c :: after ∧
      ChargesAt cal planById now amount before c row s s' ∧
      res = ⟨c.id, amount, row.amountTotal, row.amountUsed, row.amountUsed + amount⟩ ∧
      s'.users = s.users ∧
      s'.records = s.records.insertNew ⟨requestId, userId, c.id, amount, .consumed⟩ := by
  induction cands generalizing s with
  | nil => cases h
  | cons c rest ih =>
    rw [List.map_cons, List.nodup_cons] at hnodup
    have hget := hin c List.mem_cons_self
    unfold SubscriptionStore.chargeFirst at h
    split at h
    · cases h
    next plan hplan =>
    split at h
    · cases h
    next row hreset =>
    have hrow : resetOf cal planById now c = some row := by
      rw [resetOf, hplan]
      exact hreset
    obtain ⟨hid, -⟩ := maybeReset_spec hreset
    have hsave : (s.saveSub row).subs.get? row.id = some row :=
      SubscriptionStore.get?_saveSub_self (hid ▸ hget)
    have hother : ∀ id, id ≠ c.id → (s.saveSub row).subs.get? id = s.subs.get? id := fun id hne =>
      SubscriptionStore.get?_saveSub_ne (hid ▸ hne)
    split at h
    next hfull =>
      have hin' : ∀ c' ∈ rest, (s.saveSub row).subs.get? c'.id = some c' := by
        intro c' hc'
        rw [hother c'.id fun he => hnodup.1 (he ▸ List.mem_map_of_mem hc')]
        exact hin c' (List.mem_cons_of_mem _ hc')
      obtain ⟨before, c₁, after, row₁, rfl, hat, hres, husers, hrecords⟩ := ih hin' hnodup.2 h
      have hbefore : c.id ∉ before.map UserSubscription.id := fun hmem =>
        hnodup.1 (by rw [List.map_append]; exact List.mem_append_left _ hmem)
      have hne : c.id ≠ c₁.id := fun he => hnodup.1 (by simp [he])
      refine ⟨c :: before, c₁, after, row₁, rfl, ⟨hat.reset, hat.fits, hat.charged, ?_, ?_⟩, hres,
        husers, hrecords⟩
      · intro p hp
        rcases List.mem_cons.1 hp with rfl | hp
        · refine ⟨row, hrow, not_not_intro hfull, ?_⟩
          rw [hat.frame p.id hbefore hne, ← hid, hsave]
        · exact hat.skipped p hp
      · intro id hid' hne'
        rw [List.map_cons, List.mem_cons, not_or] at hid'
        rw [hat.frame id hid'.2 hne', hother id hid'.1]
    next hfits =>
      cases h
      refine ⟨[], c, rest, row, rfl, ⟨hrow, hfits, ?_, List.forall_mem_nil _, ?_⟩, by rw [hid], rfl,
        by rw [hid]; rfl⟩
      · rw [← hid]
        show ((s.saveSub row).saveSub { row with amountUsed := row.amountUsed + amount }).subs.get? _ = _
        exact SubscriptionStore.get?_saveSub_self hsave
      · intro id _ hne
        rw [← hother id hne]
        show ((s.saveSub row).saveSub { row with amountUsed := row.amountUsed + amount }).subs.get? _ = _
        exact SubscriptionStore.get?_saveSub_ne (hid ▸ hne)

theorem ChargesAt.workedOff {before after : List UserSubscription}
    (h : ChargesAt cal planById now amount before c row s s') :
    workedOff cal planById now amount (before ++ c :: after) = before ++ [c] := by
  obtain ⟨hreset, hfits, -, hskipped, -⟩ := h
  induction before with
  | nil =>
    rw [List.nil_append, NewApi.workedOff, hreset]
    dsimp only
    rw [if_pos hfits]
    rfl
  | cons p before ih =>
    obtain ⟨skip, hskip, hfull, -⟩ := hskipped p List.mem_cons_self
    rw [List.cons_append, NewApi.workedOff, hskip]
    dsimp only
    rw [if_neg hfull, ih fun p hp => hskipped p (List.mem_cons_of_mem _ hp)]
    rfl

/-- The used amounts after a pre-consumption: those of the candidates that it works off are reset, where
their time has come, and the one that it charges grows by the amount. -/
theorem ChargesAt.usedOf {before : List UserSubscription} {id : Nat}
    (h : ChargesAt cal planById now amount before c row s s')
    (hin : ∀ p ∈ before ++ [c], s.subs.get? p.id = some p)
    (hnodup : ((before ++ [c]).map UserSubscription.id).Nodup) :
    s'.usedOf id =
      (if ∃ p ∈ before ++ [c], p.id = id ∧ Resets cal planById now p then 0 else s.usedOf id) +
        if id = c.id then amount else 0 := by
  have hbase : ∀ p ∈ before ++ [c], ∀ row, resetOf cal planById now p = some row →
      row.amountUsed = if ∃ q ∈ before ++ [c], q.id = p.id ∧ Resets cal planById now q then 0
        else s.usedOf p.id := by
    intro p hp row hreset
    obtain ⟨-, -, hyes, hno⟩ := resetOf_spec hreset
    split
    next hex =>
      obtain ⟨q, hq, hid, hresets⟩ := hex
      have hqp : q = p := List.inj_on_of_nodup_map hnodup hq hp hid
      exact hyes (hqp ▸ hresets)
    next hnot =>
      rw [SubscriptionStore.usedOf_of_get? (hin p hp)]
      exact hno fun hresets => hnot ⟨p, hp, rfl, hresets⟩
  have hc : c ∈ before ++ [c] := List.mem_append_right _ List.mem_cons_self
  by_cases hid : id = c.id
  · subst hid
    rw [if_pos rfl, ← hbase c hc row h.reset, SubscriptionStore.usedOf_of_get? h.charged]
  rw [if_neg hid, Int.add_zero]
  by_cases hmem : id ∈ before.map UserSubscription.id
  · obtain ⟨p, hp, rfl⟩ := List.mem_map.1 hmem
    obtain ⟨skip, hskip, -, hget⟩ := h.skipped p hp
    rw [SubscriptionStore.usedOf_of_get? hget, hbase p (List.mem_append_left _ hp) skip hskip]
  · rw [SubscriptionStore.usedOf_congr (h.frame id hmem hid), if_neg]
    rintro ⟨p, hp, rfl, -⟩
    rcases List.mem_append.1 hp with hp | hp
    · exact hmem (List.mem_map_of_mem hp)
    · exact hid (by rw [List.mem_singleton.1 hp])

theorem candidates_spec : (∀ c ∈ s.candidates userId now, s.subs.get? c.id = some c) ∧
    ((s.candidates userId now).map UserSubscription.id).Nodup := by
  have hperm := List.perm_insertionSort SubscriptionStore.EndsBefore
    (s.subs.rows.filter fun sub =>
      sub.userId = userId ∧ sub.status = .active ∧ sub.endTime > now)
  refine ⟨fun c hc => ?_, ?_⟩
  · exact Table.get?_key (List.mem_filter.1 (hperm.mem_iff.1 hc)).1
  · exact (hperm.map _).nodup_iff.2 (s.subs.nodup.sublist (List.filter_sublist.map _))

theorem candidates_append {before after : List UserSubscription}
    (h : s.candidates userId now = before ++ c :: after) :
    (∀ p ∈ before ++ [c], s.subs.get? p.id = some p) ∧
      ((before ++ [c]).map UserSubscription.id).Nodup := by
  obtain ⟨hin, hnodup⟩ := @candidates_spec now userId s
  rw [h, List.append_cons] at hin hnodup
  rw [List.map_append] at hnodup
  exact ⟨fun p hp => hin p (List.mem_append_left _ hp), (List.nodup_append.1 hnodup).1⟩

theorem preConsume_spec {fails : Bool}
    (h : s.preConsumeUserSubscription cal planById fails requestId userId amount now =
      .ok (res, s')) :
    (∃ record sub, s.records.get? requestId = some record ∧ record.status ≠ .refunded ∧
        s.subs.get? record.userSubscriptionId = some sub ∧ s' = s ∧
        res = ⟨record.userSubscriptionId, record.preConsumed, sub.amountTotal, sub.amountUsed,
          sub.amountUsed⟩) ∨
      s.records.get? requestId = none ∧ 0 < amount ∧ ∃ before c after row,
        s.candidates userId now = before ++ c :: after ∧
        ChargesAt cal planById now amount before c row s s' ∧
        res = ⟨c.id, amount, row.amountTotal, row.amountUsed, row.amountUsed + amount⟩ ∧
        s'.users = s.users ∧
        s'.records = s.records.insertNew ⟨requestId, userId, c.id, amount, .consumed⟩ := by
  unfold SubscriptionStore.preConsumeUserSubscription at h
  split at h
  · cases h
  split at h
  · cases h
  split at h
  · cases h
  next hamount =>
  split at h
  · cases h
  split at h
  next record hrecord =>
    split at h
    · cases h
    next hstatus =>
    split at h
    · cases h
    next sub hsub =>
      cases h
      exact .inl ⟨record, sub, hrecord, hstatus, hsub, rfl, by rw [Table.key_of_get? hsub]⟩
  next hnone =>
    dsimp only at h
    split at h
    · cases h
    obtain ⟨hin, hnodup⟩ := @candidates_spec now userId s
    exact .inr ⟨hnone, Int.not_le.1 hamount, chargeFirst_spec hin hnodup h⟩

/-! ## Settling and refunding -/

/-- The used amount of a subscription, `sub` before, is changed by a delta. -/
structure SettlesAt (id : Nat) (delta : Int) (sub : UserSubscription) (s s' : SubscriptionStore) :
    Prop where
  found : s.subs.get? id = some sub
  fits : sub.amountTotal > 0 → max 0 (sub.amountUsed + delta) ≤ sub.amountTotal
  settled : s'.subs.get? id = some (SubscriptionStore.addUsed delta sub)
  /-- The other rows. -/
  frame : ∀ id', id' ≠ id → s'.subs.get? id' = s.subs.get? id'
  users : s'.users = s.users
  records : s'.records = s.records

variable {id : Nat} {delta : Int}

theorem SettlesAt.usedOf {id' : Nat} (h : SettlesAt id delta sub s s') :
    s'.usedOf id' = if id' = id then max 0 (s.usedOf id' + delta) else s.usedOf id' := by
  split
  next hid =>
    rw [hid, SubscriptionStore.usedOf_of_get? h.settled, SubscriptionStore.usedOf_of_get? h.found]
    rfl
  next hid => exact SubscriptionStore.usedOf_congr (h.frame id' hid)

theorem postConsume_spec {fails : Bool}
    (h : s.postConsumeUserSubscriptionDelta fails id delta = .ok s') :
    delta = 0 ∧ s' = s ∨ delta ≠ 0 ∧ ∃ sub, SettlesAt id delta sub s s' := by
  unfold SubscriptionStore.postConsumeUserSubscriptionDelta at h
  split at h
  · cases h
  split at h
  next hzero =>
    cases h
    exact .inl ⟨hzero, rfl⟩
  next hzero =>
  split at h
  · cases h
  split at h
  · cases h
  next sub hsub =>
  dsimp only at h
  split at h
  · cases h
  next hfits =>
    cases h
    refine .inr ⟨hzero, sub, hsub, fun hpos => ?_, ?_, fun id' hne => ?_, rfl, rfl⟩
    · exact Int.not_lt.1 fun hlt => hfits ⟨hpos, hlt⟩
    · rw [Table.get?_modify_self, hsub]
      rfl
    · rw [Table.get?_modify_ne hne]

/-- The store once the record of a request is marked as refunded. -/
def SubscriptionStore.markRefunded (requestId : String) (s : SubscriptionStore) : SubscriptionStore :=
  { s with
    records := s.records.modify requestId .refunded PreConsumeRecord.refunded_requestId }

theorem SubscriptionStore.get?_markRefunded {r : String} :
    (s.markRefunded requestId).records.get? r =
      if r = requestId then (s.records.get? r).map PreConsumeRecord.refunded
      else s.records.get? r := by
  unfold SubscriptionStore.markRefunded
  rw [Table.get?_modify]

/-- What a refund of an open record has done before it saves the record. -/
def CreditsBack (record : PreConsumeRecord) (s s' : SubscriptionStore) : Prop :=
  record.preConsumed ≤ 0 ∧ s' = s ∨
    0 < record.preConsumed ∧
      ∃ sub, SettlesAt record.userSubscriptionId (-record.preConsumed) sub s s'

/-- What a refund does before it saves the record: an error ends it, and so does a refunded record. -/
def SubscriptionStore.creditBack (deltaFails : Bool) (requestId : String) (s : SubscriptionStore) :
    Except (Option SubscriptionError) SubscriptionStore :=
  if GoString.trimSpace requestId = "" then .error (some .emptyRequestId)
  else
    match s.records.get? requestId with
    | none => .error (some .notFound)
    | some record =>
      if record.status = .refunded then .error none
      else if record.preConsumed ≤ 0 then .ok s
      else
        match s.postConsumeUserSubscriptionDelta deltaFails record.userSubscriptionId
          (-record.preConsumed) with
        | .error e => .error (some e)
        | .ok s => .ok s

theorem refund_eq (deltaFails saveFails : Bool) (requestId : String) (s : SubscriptionStore) :
    s.refundSubscriptionPreConsume deltaFails saveFails requestId =
      match s.creditBack deltaFails requestId with
      | .error e => (e, s)
      | .ok s₁ => s₁.saveRefunded saveFails requestId := by
  unfold SubscriptionStore.refundSubscriptionPreConsume SubscriptionStore.creditBack
  by_cases htrim : GoString.trimSpace requestId = ""
  · rw [if_pos htrim, if_pos htrim]
  rw [if_neg htrim, if_neg htrim]
  cases s.records.get? requestId with
  | none => rfl
  | some record =>
    dsimp only
    by_cases hstatus : record.status = .refunded
    · rw [if_pos hstatus, if_pos hstatus]
    rw [if_neg hstatus, if_neg hstatus]
    by_cases hzero : record.preConsumed ≤ 0
    · rw [if_pos hzero, if_pos hzero]
    rw [if_neg hzero, if_neg hzero]
    cases s.postConsumeUserSubscriptionDelta deltaFails record.userSubscriptionId
      (-record.preConsumed) <;> rfl

theorem creditBack_spec {deltaFails : Bool} {s₁ : SubscriptionStore}
    (h : s.creditBack deltaFails requestId = .ok s₁) :
    ∃ record, s.records.get? requestId = some record ∧ record.status ≠ .refunded ∧
      CreditsBack record s s₁ := by
  unfold SubscriptionStore.creditBack at h
  split at h
  · cases h
  split at h
  · cases h
  next record hrecord =>
  split at h
  · cases h
  next hstatus =>
  refine ⟨record, hrecord, hstatus, ?_⟩
  split at h
  next hzero =>
    cases h
    exact .inl ⟨hzero, rfl⟩
  next hpos =>
  split at h
  · cases h
  next s₂ hpost =>
    cases h
    rcases postConsume_spec hpost with ⟨hzero, -⟩ | ⟨-, hsettles⟩
    · exact absurd hzero (by omega)
    · exact .inr ⟨Int.not_le.1 hpos, hsettles⟩

theorem creditBack_done {deltaFails : Bool}
    (h : s.creditBack deltaFails requestId = .error none) :
    ∃ record, s.records.get? requestId = some record ∧ record.status = .refunded := by
  unfold SubscriptionStore.creditBack at h
  split at h
  · cases h
  split at h
  · cases h
  next record hrecord =>
  split at h
  next hstatus => exact ⟨record, hrecord, hstatus⟩
  split at h
  · cases h
  split at h
  · cases h
  · cases h

theorem refund_spec {deltaFails saveFails : Bool} {e : Option SubscriptionError}
    (h : s.refundSubscriptionPreConsume deltaFails saveFails requestId = (e, s')) :
    s' = s ∧ (e = none → ∃ record, s.records.get? requestId = some record ∧
        record.status = .refunded) ∨
      ∃ record s₁, s.records.get? requestId = some record ∧ record.status ≠ .refunded ∧
        CreditsBack record s s₁ ∧
        (saveFails = true ∧ e = some .database ∧ s' = s₁ ∨
          saveFails = false ∧ e = none ∧ s' = s₁.markRefunded requestId) := by
  rw [refund_eq] at h
  cases hback : s.creditBack deltaFails requestId with
  | error e' =>
    rw [hback] at h
    cases h
    exact .inl ⟨rfl, fun he => creditBack_done (he ▸ hback)⟩
  | ok s₁ =>
    rw [hback] at h
    obtain ⟨record, hrecord, hstatus, hcredits⟩ := creditBack_spec hback
    refine .inr ⟨record, s₁, hrecord, hstatus, hcredits, ?_⟩
    cases saveFails with
    | true =>
      cases h
      exact .inl ⟨rfl, rfl, rfl⟩
    | false =>
      cases h
      exact .inr ⟨rfl, rfl, rfl⟩

/-! ## Resetting -/

/-- A subscription is reset by a plan; `sub` is the row before it, `row` the row after it. -/
structure ResetsAt (cal : Calendar) (plan : SubscriptionPlan) (now : Int) (sub row : UserSubscription)
    (s s' : SubscriptionStore) : Prop where
  found : s.subs.get? sub.id = some sub
  reset : maybeResetUserSubscription cal plan now sub = some row
  saved : s'.subs.get? sub.id = some row
  /-- The other rows. -/
  frame : ∀ id, id ≠ sub.id → s'.subs.get? id = s.subs.get? id
  users : s'.users = s.users
  records : s'.records = s.records

theorem ResetsAt.usedOf {id : Nat} (h : ResetsAt cal plan now sub row s s') :
    s'.usedOf id = if id = sub.id ∧ Advances cal plan now sub then 0 else s.usedOf id := by
  by_cases hid : id = sub.id
  · subst hid
    rw [SubscriptionStore.usedOf_of_get? h.saved, (maybeReset_spec h.reset).2.2,
      SubscriptionStore.usedOf_of_get? h.found]
    simp only [true_and]
  · rw [SubscriptionStore.usedOf_congr (h.frame id hid), if_neg fun hand => hid hand.1]

theorem maybeResetTx_spec {fails : Bool} (h : s.maybeResetTx cal plan fails id now = .ok s') :
    ∃ sub row, sub.id = id ∧ ResetsAt cal plan now sub row s s' := by
  unfold SubscriptionStore.maybeResetTx at h
  split at h
  · cases h
  next sub hsub =>
  split at h
  · cases h
  split at h
  · cases h
  next row hreset =>
    cases h
    obtain ⟨hid, -⟩ := maybeReset_spec hreset
    have hkey : sub.id = id := Table.key_of_get? hsub
    refine ⟨sub, row, hkey, ?_, hreset, ?_, fun id' hne => ?_, rfl, rfl⟩
    · rw [hkey]
      exact hsub
    · rw [← hid]
      exact SubscriptionStore.get?_saveSub_self (by rw [hid, hkey]; exact hsub)
    · exact SubscriptionStore.get?_saveSub_ne (hid ▸ hne)

/-- The transaction of `ResetDueSubscriptions` for one subscription resets it, or changes nothing. -/
theorem resetSubscription_spec {fails reset : Bool}
    (h : s.resetSubscription cal plan fails id now = .ok (reset, s')) :
    reset = false ∧ s' = s ∨
      reset = true ∧ ∃ sub row, sub.id = id ∧ ResetsAt cal plan now sub row s s' := by
  unfold SubscriptionStore.resetSubscription at h
  split at h
  · cases h
    exact .inl ⟨rfl, rfl⟩
  split at h
  · cases htx : s.maybeResetTx cal plan fails id now with
    | error e =>
      rw [htx] at h
      cases h
    | ok s₁ =>
      rw [htx] at h
      cases h
      exact .inr ⟨rfl, maybeResetTx_spec htx⟩
  · cases h
    exact .inl ⟨rfl, rfl⟩

variable {fails : Nat → Bool} {l : List UserSubscription} {count n : Nat} {e : SubscriptionError}

/-- What every reset keeps, `ResetDueSubscriptions` keeps, whether or not it fails. -/
theorem resetEach_inv {P : SubscriptionStore → Prop}
    (hP : ∀ s s' plan sub row, ResetsAt cal plan now sub row s s' → P s → P s') (hs : P s) :
    P (SubscriptionStore.resetEach cal planById fails now l count s).2.2 := by
  induction l generalizing s count with
  | nil => exact hs
  | cons c l ih =>
    unfold SubscriptionStore.resetEach
    split
    · exact ih hs
    split
    · exact hs
    next reset s₁ htx =>
      rcases resetSubscription_spec htx with ⟨-, rfl⟩ | ⟨-, sub, row, -, hat⟩
      · exact ih hs
      · exact ih (hP _ _ _ _ _ hat hs)

theorem resetEach_error
    (h : SubscriptionStore.resetEach cal planById fails now l count s = (some e, n, s')) :
    ∃ before c after, l = before ++ c :: after ∧
      SubscriptionStore.resetEach cal planById fails now before count s = (none, n, s') := by
  induction l generalizing s count with
  | nil => cases h
  | cons c l ih =>
    unfold SubscriptionStore.resetEach at h
    split at h
    next hplan =>
      obtain ⟨before, c', after, rfl, hbefore⟩ := ih h
      refine ⟨c :: before, c', after, rfl, ?_⟩
      unfold SubscriptionStore.resetEach
      rw [hplan]
      exact hbefore
    next plan hplan =>
    split at h
    · cases h
      exact ⟨[], c, l, rfl, rfl⟩
    next reset s₁ htx =>
      obtain ⟨before, c', after, rfl, hbefore⟩ := ih h
      refine ⟨c :: before, c', after, rfl, ?_⟩
      unfold SubscriptionStore.resetEach
      rw [hplan]
      dsimp only
      rw [htx]
      exact hbefore

end

end

end NewApi

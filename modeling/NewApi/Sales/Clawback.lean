import NewApi.Lib.Run
import NewApi.Sales.Model

/-!
# Clawing commissions back

When a top-up is refunded, the open entries of the ledger that it is the source of are clawed back: each
gets a negative counterpart, and its status says so. The balances of an agent are sums over the entries of
one status, and the counterpart is in none of them, so that an entry takes its amount from the balance it
was in. An entry that has been paid was in neither the pending nor the approved balance.
-/

namespace NewApi.Sales

open Run

/-! ## What a call does to the ledger -/

namespace Ledger

/-- What the entries of an agent with a status amount to, of one source. -/
def sumSource (sourceType : CommissionSource) (sourceId agentId : Nat) (status : CommissionStatus)
    (l : Ledger) : ℚ :=
  l.entries.sumWhere (fun e => (e.agentId = agentId ∧ e.status = status) ∧
    e.sourceType = sourceType ∧ e.sourceId = sourceId) CommissionLedger.amount

/-- What the entries of an agent amount to that have not been clawed back, of one source. -/
def sumOpen (sourceType : CommissionSource) (sourceId agentId : Nat) (l : Ledger) : ℚ :=
  l.entries.sumWhere (fun e => (e.agentId = agentId ∧ e.status.Open) ∧
    e.sourceType = sourceType ∧ e.sourceId = sourceId) CommissionLedger.amount

section
variable {es : List CommissionLedger} {e r : CommissionLedger} {l : Ledger} {sourceId a : Nat}
  {sourceType : CommissionSource} {reason : String} {status : CommissionStatus}

theorem not_open_clawback : ¬ CommissionStatus.clawback.Open := by decide

theorem sumOpen_eq : l.sumOpen sourceType sourceId a =
    l.sumSource sourceType sourceId a .pending + l.sumSource sourceType sourceId a .approved +
      l.sumSource sourceType sourceId a .paid := by
  unfold sumSource
  rw [← Table.sumWhere_or, ← Table.sumWhere_or]
  · refine Table.sumWhere_congr fun e _ => ?_
    rw [← or_and_right, ← and_or_left, ← or_and_right, ← and_or_left, or_assoc]
    exact Iff.rfl
  · rintro e _ (⟨⟨-, h⟩, -⟩ | ⟨⟨-, h⟩, -⟩) ⟨⟨-, h'⟩, -⟩
    · exact nomatch h.symm.trans h'
    · exact nomatch h.symm.trans h'
  · rintro e _ ⟨⟨-, h⟩, -⟩ ⟨⟨-, h'⟩, -⟩
    exact nomatch h.symm.trans h'

theorem entries_clawbackEntry (sourceId : Nat) (reason : String) (l : Ledger) (r : CommissionLedger) :
    ∃ cl : CommissionLedger, cl.status = .clawback ∧
      (clawbackEntry sourceId reason l r).entries = (l.insertIdempotent cl).entries.modify r.id
        CommissionLedger.clawedBack CommissionLedger.clawedBack_id :=
  ⟨_, rfl, rfl⟩

theorem sumCommissionByStatus_clawbackEntry (hget : l.entries.get? r.id = some r)
    (hstatus : .clawback ≠ status) :
    (clawbackEntry sourceId reason l r).sumCommissionByStatus a status =
      l.sumCommissionByStatus a status -
        if r.agentId = a ∧ r.status = status then r.amount else 0 := by
  obtain ⟨cl, hcl, hentries⟩ := entries_clawbackEntry sourceId reason l r
  have hget' : (l.insertIdempotent cl).entries.get? r.id = some r :=
    Table.get?_key (mem_insertIdempotent_of_mem (Table.mem_of_get? hget))
  have hclawed : ¬ (r.clawedBack.agentId = a ∧ r.clawedBack.status = status) := fun hand =>
    hstatus hand.2
  rw [sumCommissionByStatus, hentries, Table.sumWhere_modify hget', if_neg hclawed, add_zero]
  refine congrArg (· - _) (sumCommissionByStatus_insertIdempotent ?_)
  rw [hcl]
  exact hstatus

theorem get?_clawbackEntry_ne (hget : l.entries.get? e.id = some e) (hne : e.id ≠ r.id) :
    (clawbackEntry sourceId reason l r).entries.get? e.id = some e := by
  obtain ⟨cl, -, hentries⟩ := entries_clawbackEntry sourceId reason l r
  rw [hentries, Table.get?_modify_ne hne]
  exact Table.get?_key (mem_insertIdempotent_of_mem (Table.mem_of_get? hget))

theorem mem_clawbackEntry (he : e ∈ (clawbackEntry sourceId reason l r).entries)
    (hopen : e.status.Open) : e ∈ l.entries ∧ e.id ≠ r.id := by
  obtain ⟨cl, hcl, hentries⟩ := entries_clawbackEntry sourceId reason l r
  rw [hentries] at he
  obtain ⟨e₀, he₀, rfl⟩ := Table.mem_modifyWhere.1 he
  split at hopen
  next => exact absurd hopen not_open_clawback
  next hne =>
    rw [if_neg hne]
    refine (mem_insertIdempotent he₀).elim (fun hmem => ⟨hmem, hne⟩) fun hnew => ?_
    rw [hnew, hcl] at hopen
    exact absurd hopen not_open_clawback

theorem sumCommissionByStatus_foldl (hes : ∀ e ∈ es, l.entries.get? e.id = some e)
    (hnodup : (es.map CommissionLedger.id).Nodup) (hstatus : .clawback ≠ status) :
    (es.foldl (clawbackEntry sourceId reason) l).sumCommissionByStatus a status =
      l.sumCommissionByStatus a status -
        (es.map fun e => if e.agentId = a ∧ e.status = status then e.amount else 0).sum := by
  induction es generalizing l with
  | nil => exact (sub_zero _).symm
  | cons r es ih =>
    rw [List.map_cons, List.nodup_cons] at hnodup
    have hes' : ∀ e ∈ es, (clawbackEntry sourceId reason l r).entries.get? e.id = some e := by
      intro e he
      have hne : e.id ≠ r.id := fun hid => hnodup.1 (hid ▸ List.mem_map_of_mem he)
      exact get?_clawbackEntry_ne (hes e (List.mem_cons_of_mem _ he)) hne
    rw [List.foldl_cons, ih hes' hnodup.2,
      sumCommissionByStatus_clawbackEntry (hes r List.mem_cons_self) hstatus, List.map_cons,
      List.sum_cons, sub_sub]

theorem mem_foldl_clawbackEntry (he : e ∈ (es.foldl (clawbackEntry sourceId reason) l).entries)
    (hopen : e.status.Open) : e ∈ l.entries ∧ ∀ r ∈ es, e.id ≠ r.id := by
  induction es generalizing l with
  | nil => exact ⟨he, fun _ hr => absurd hr List.not_mem_nil⟩
  | cons r es ih =>
    obtain ⟨hmem, hne⟩ := ih he
    obtain ⟨hmem', hne'⟩ := mem_clawbackEntry hmem hopen
    refine ⟨hmem', fun r' hr' => ?_⟩
    rcases List.mem_cons.1 hr' with rfl | hr'
    · exact hne'
    · exact hne r' hr'

end

end Ledger

section
variable {s : Store} {sourceType : CommissionSource} {sourceId : Nat} {reason : String}

theorem sumCommissionByStatus_clawbackBySource (a : Nat) {status : CommissionStatus}
    (hstatus : status.Open) :
    (clawbackBySource sourceType sourceId reason s).ledger.sumCommissionByStatus a status =
      s.ledger.sumCommissionByStatus a status - s.ledger.sumSource sourceType sourceId a status := by
  have hne : .clawback ≠ status := by
    rintro rfl
    exact Ledger.not_open_clawback hstatus
  unfold clawbackBySource
  dsimp only
  rw [Ledger.sumCommissionByStatus_foldl _ _ hne]
  · show _ - s.ledger.entries.sumWhere _ _ = _
    rw [Table.sumWhere_ite]
    refine congrArg (_ - ·) (Table.sumWhere_congr fun e _ => ?_)
    refine and_congr_right fun hand => and_congr_right fun _ => and_iff_left ?_
    rw [hand.2]
    exact hstatus
  · exact fun e he => Table.get?_key (List.mem_filter.1 he).1
  · exact s.ledger.entries.nodup.sublist (List.filter_sublist.map _)

theorem not_open_clawbackBySource {e : CommissionLedger}
    (he : e ∈ (clawbackBySource sourceType sourceId reason s).ledger.entries)
    (hsource : e.sourceType = sourceType ∧ e.sourceId = sourceId) : ¬ e.status.Open := by
  intro hopen
  obtain ⟨hmem, hne⟩ := Ledger.mem_foldl_clawbackEntry he hopen
  refine hne e (List.mem_filter.2 ⟨hmem, decide_eq_true ?_⟩) rfl
  exact ⟨hsource.1, hsource.2, hopen⟩

theorem clawbackBySource_eq_self
    (h : ∀ e ∈ s.ledger.entries, e.sourceType = sourceType ∧ e.sourceId = sourceId → ¬ e.status.Open) :
    clawbackBySource sourceType sourceId reason s = s := by
  have hnil : (s.ledger.entries.rows.filter fun e =>
      e.sourceType = sourceType ∧ e.sourceId = sourceId ∧ e.status.Open) = [] := by
    refine List.filter_eq_nil_iff.2 fun e he hp => ?_
    obtain ⟨htype, hid, hopen⟩ := of_decide_eq_true hp
    exact h e he ⟨htype, hid⟩ hopen
  unfold clawbackBySource
  rw [hnil]
  rfl

end

/-! ## Runs -/

namespace Clawback

/-- A call, with the options and the time it is made at. -/
inductive Call
  | accrue (opts : SalesOptions) (now : Int) (topupId customerId : Nat) (moneyUSD : ℚ)
  | mature (now : Int)
  | submit (opts : SalesOptions) (estimate : ℚ) (now : Int) (userId : Nat) (amount : ℚ)
      (remark : String)
  | process (opts : SalesOptions) (now : Int) (id : Nat) (status : WithdrawalStatus)
      (adminRemark : String)
  | clawback (sourceType : CommissionSource) (sourceId : Nat) (reason : String)

/-- The store that a call leaves. -/
def step (s : Store) : Call → Store
  | .accrue opts now topupId customerId moneyUSD =>
    accrueTopupCommission opts now topupId customerId moneyUSD s
  | .mature now => Sales.mature now s
  | .submit opts estimate now userId amount remark =>
    (agentSubmitWithdrawal opts estimate now userId amount remark s).toOption.getD s
  | .process opts now id status adminRemark =>
    (adminProcessWithdrawal opts now id status adminRemark s).toOption.getD s
  | .clawback sourceType sourceId reason => clawbackBySource sourceType sourceId reason s

/-- The pending and the approved balance of an agent together. -/
def combined (a : Nat) (s : Store) : ℚ :=
  (s.ledger.getAgentBalances a).1 + (s.ledger.getAgentBalances a).2.1

/-- What an agent may withdraw. -/
def available (a : Nat) (s : Store) : ℚ := s.ledger.sumCommissionByStatus a .approved

/-- A clawback lowers the balances of each agent by what has not been clawed back of the source, what has
been paid of it from what the agent may withdraw, and the same call again leaves the store. -/
def Lowers (s : Store) : Call → Store → Prop
  | .clawback sourceType sourceId reason, s' =>
    (∀ a, combined a s' = combined a s - s.ledger.sumOpen sourceType sourceId a ∧
      available a s' = available a s - (s.ledger.sumSource sourceType sourceId a .approved +
        s.ledger.sumSource sourceType sourceId a .paid)) ∧
      clawbackBySource sourceType sourceId reason s' = s'
  | _, _ => True

/-- Of the source that is clawed back, nothing has been paid to any agent. -/
def NothingPaid (s : Store) : Call → Prop
  | .clawback sourceType sourceId _ => ∀ a, s.ledger.sumSource sourceType sourceId a .paid = 0
  | _ => True

theorem lowers_iff (s : Store) (call : Call) : Lowers s call (step s call) ↔ NothingPaid s call := by
  cases call with
  | accrue | mature | submit | process => exact Iff.rfl
  | clawback sourceType sourceId reason =>
    have hagain : clawbackBySource sourceType sourceId reason
        (clawbackBySource sourceType sourceId reason s) =
        clawbackBySource sourceType sourceId reason s :=
      clawbackBySource_eq_self fun _ => not_open_clawbackBySource
    refine (and_iff_left hagain).trans (forall_congr' fun a => ?_)
    have hpending := @sumCommissionByStatus_clawbackBySource s sourceType sourceId reason a .pending
      (by decide)
    have happroved := @sumCommissionByStatus_clawbackBySource s sourceType sourceId reason a .approved
      (by decide)
    simp only [step, combined, available, Ledger.getAgentBalances]
    rw [hpending, happroved, Ledger.sumOpen_eq]
    refine ⟨fun hand => ?_, fun hzero => ⟨?_, ?_⟩⟩
    · linarith [hand.2]
    · rw [hzero]
      ring
    · rw [hzero, add_zero]

/-- In every run, all clawbacks lower the balances of the agents by what is open of their source just when
nothing has been paid of it before. -/
theorem clawback_conserved_iff (s : Store) (calls : List Call) :
    Always step Lowers s calls ↔ Meets step NothingPaid s calls :=
  (meets_of_forall fun _ _ => trivial : Meets step (fun _ _ => True) s calls).always_iff
    (I := fun _ => True) (fun _ _ _ _ => trivial) (fun s call _ _ => lowers_iff s call) trivial

/-! ### A commission clawed back after it was paid -/

/-- Agent 1 has invited customer 2. -/
def oneCustomer : Table SalesUser.id :=
  (Table.insertNew .empty { id := 1, agentLevel := 1 }).insertNew { id := 2, inviterId := 1 }

/-- A commission of 100 is approved and paid out, and then its top-up is clawed back. -/
def paidOut : List Call :=
  [.accrue {} 1000 1 2 2000, .mature 2593000,
    .submit { ledgerReadEnabled := true } 0 2593001 1 100 "",
    .process { ledgerReadEnabled := true } 2593002 1 .approved "", .clawback .topup 1 "refund"]

/-- The clawback lowers nothing. -/
theorem paidOut_not_conserved : ¬ Always step Lowers ⟨oneCustomer, .empty, .empty, .empty⟩ paidOut := by
  rintro ⟨-, -, -, -, ⟨hlowers, -⟩, -⟩
  exact absurd (hlowers 1).1 (by decide +kernel)

end Clawback

end NewApi.Sales

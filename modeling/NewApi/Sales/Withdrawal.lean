import NewApi.Lib.Run
import NewApi.Sales.Model

/-!
# Paying withdrawals from the ledger

An agent may withdraw what the approved entries of the ledger add up to; an approved withdrawal is paid by
whole entries, the oldest first, until they reach its amount. Requests that are pending are not taken off
what may be withdrawn, and a withdrawal may be approved again. One agent is looked at, in runs where
entries are added and withdrawals are submitted and processed, and beside the store stands which
withdrawals have been approved.
-/

namespace NewApi.Sales

open Run

/-! ## The entries that an amount pays -/

namespace Ledger

/-- What some entries amount to. -/
def total (es : List CommissionLedger) : ℚ := (es.map CommissionLedger.amount).sum

section
variable {es first : List CommissionLedger} {e : CommissionLedger} {x : ℚ} {l : Ledger} {now : Int}
  {withdrawalId : Option Nat} {a b : Nat} {status : CommissionStatus}

theorem amount_payOff {P : ℚ → Prop} (h : ∀ e ∈ l.entries, P e.amount) :
    ∀ e ∈ (payOff now withdrawalId es x l).entries, P e.amount := by
  induction es generalizing l x with
  | nil => exact h
  | cons e es ih =>
    rw [payOff]
    split
    · exact h
    have hpay : ∀ e' ∈ (l.pay now withdrawalId e).entries, P e'.amount := by
      rw [entries_pay]
      intro e' he'
      obtain ⟨e₀, he₀, rfl⟩ := Table.mem_modifyWhere.1 he'
      split
      · exact h e₀ he₀
      · exact h e₀ he₀
    exact ih hpay

end

end Ledger

/-! ## Runs -/

namespace Payout

/-- A call, with the options and the time it is made at. -/
inductive Call
  /-- An approved entry is added to the ledger. -/
  | add (cl : CommissionLedger)
  | submit (opts : SalesOptions) (now : Int) (userId : Nat) (amount : ℚ) (remark : String)
  | process (opts : SalesOptions) (now : Int) (id : Nat) (status : WithdrawalStatus)
      (adminRemark : String)

/-- A store, and the withdrawals that have been approved. -/
structure History where
  store : Store
  approvals : List Nat

/-- The call approves a withdrawal that is there. -/
def approves (s : Store) : Call → Option AgentWithdrawal
  | .process _ _ id .approved _ => if id = 0 then none else s.withdrawals.get? id
  | _ => none

/-- The ledger once a withdrawal, where there is one, is paid. -/
def payFor (now : Int) (l : Ledger) : Option AgentWithdrawal → Ledger
  | none => l
  | some w => Ledger.payOff now (some w.id) (l.approvedEntries w.agentId) w.amount l

/-- The store that a call leaves, where the ledger is read. -/
def exec (s : Store) : Call → Store
  | .add cl => { s with ledger := s.ledger.insertIdempotent { cl with status := .approved } }
  | .submit opts now userId amount remark =>
    (agentSubmitWithdrawal { opts with ledgerReadEnabled := true } 0 now userId amount remark
      s).toOption.getD s
  | .process opts now id status adminRemark =>
    (adminProcessWithdrawal { opts with ledgerReadEnabled := true } now id status adminRemark
      s).toOption.getD s

/-- The history after a call. -/
def step (h : History) (call : Call) : History :=
  { store := exec h.store call
    approvals := ((approves h.store call).map AgentWithdrawal.id).toList ++ h.approvals }

/-- The approved withdrawals of an agent are no more than its entries that are approved or paid. -/
def Bounded (a : Nat) (h : History) : Prop :=
  sumApprovedWithdrawals a h.store ≤
    h.store.ledger.sumCommissionByStatus a .approved + h.store.ledger.sumCommissionByStatus a .paid

instance (a : Nat) (h : History) : Decidable (Bounded a h) := inferInstanceAs (Decidable (_ ≤ _))

/-- What an approval is to move: the amount of the withdrawal, the first time. -/
def due (h : History) (w : AgentWithdrawal) : ℚ := if w.id ∈ h.approvals then 0 else w.amount

/-- An entry that is added is not negative. -/
def AddsNonneg : Call → Prop
  | .add cl => 0 ≤ cl.amount
  | _ => True

instance : DecidablePred AddsNonneg
  | .add cl => inferInstanceAs (Decidable (0 ≤ cl.amount))
  | .submit .. | .process .. => inferInstanceAs (Decidable True)

/-- What holds of the tables in every run. -/
structure Sound (h : History) : Prop where
  entries : ∀ e ∈ h.store.ledger.entries, 0 ≤ e.amount
  withdrawals : ∀ w ∈ h.store.withdrawals, 0 < w.amount
  approvals : ∀ id ∈ h.approvals, (h.store.withdrawals.get? id).isSome
  approved : ∀ w ∈ h.store.withdrawals, w.status = .approved → w.id ∈ h.approvals

/-- What is paid is what the withdrawals that have been approved amount to. -/
def Paid (a : Nat) (h : History) : Prop :=
  h.store.ledger.sumCommissionByStatus a .paid =
    h.store.withdrawals.sumWhere (fun w => w.agentId = a ∧ w.id ∈ h.approvals) AgentWithdrawal.amount

section
variable {s s' : Store} {h : History} {a : Nat} {opts : SalesOptions} {now : Int} {id userId : Nat}
  {w : AgentWithdrawal} {amount : ℚ} {remark adminRemark : String} {status : WithdrawalStatus}
  {cl : CommissionLedger}

/-! ### One call -/

theorem submit_spec (h : agentSubmitWithdrawal opts 0 now userId amount remark s = .ok s') :
    0 < amount ∧
      s' = { s with
        withdrawals := s.withdrawals.insertNew
          { id := s.withdrawals.nextKey, agentId := userId, amount, remark, createdAt := now } } := by
  unfold agentSubmitWithdrawal at h
  split at h
  · cases h
  split at h
  · cases h
  next hamount =>
  dsimp only at h
  generalize (if opts.ledgerReadEnabled = true then s.ledger.sumCommissionByStatus userId .approved
    else 0) = available at h
  split at h
  · cases h
  split at h
  · cases h
  split at h
  · cases h
  cases h
  exact ⟨not_le.1 hamount, rfl⟩

theorem process_spec (h : adminProcessWithdrawal { opts with ledgerReadEnabled := true } now id status
    adminRemark s = .ok s') :
    s'.withdrawals = s.withdrawals.modify id (processed status adminRemark now)
        (processed_id status adminRemark now) ∧
      s'.ledger = payFor now s.ledger (approves s (.process opts now id status adminRemark)) := by
  unfold adminProcessWithdrawal at h
  split at h
  · cases h
  next hid =>
  split at h
  · cases h
  next hstatus =>
  dsimp only at h
  rw [Table.get?_modify_self] at h
  cases status with
  | pending => exact (hstatus (by decide)).elim
  | rejected =>
    split at h
    next hand => cases hand.1
    next =>
      cases h
      exact ⟨rfl, rfl⟩
  | approved =>
    rw [if_pos ⟨rfl, rfl⟩] at h
    have happroves : approves s (.process opts now id .approved adminRemark) = s.withdrawals.get? id :=
      if_neg hid
    rw [happroves]
    cases hget : s.withdrawals.get? id with
    | none =>
      rw [hget] at h
      cases h
      exact ⟨rfl, rfl⟩
    | some w =>
      rw [hget] at h
      cases h
      obtain ⟨-, rfl⟩ := Table.get?_eq_some.1 hget
      exact ⟨rfl, rfl⟩

theorem process_error {e : SalesError} (h : adminProcessWithdrawal { opts with ledgerReadEnabled := true }
    now id status adminRemark s = .error e) :
    approves s (.process opts now id status adminRemark) = none := by
  unfold adminProcessWithdrawal at h
  cases status with
  | pending | rejected => rfl
  | approved =>
    by_cases hid : id = 0
    · exact if_pos hid
    rw [if_neg hid, if_neg fun hand => hand.1 rfl] at h
    dsimp only at h
    rw [if_pos ⟨rfl, rfl⟩] at h
    split at h
    · cases h
    · cases h

/-- What a call does: nothing, a new entry, a new withdrawal, or the status of one, which is paid from the
ledger where it is approved. -/
theorem exec_cases (s : Store) (call : Call) :
    exec s call = s ∧ approves s call = none ∨ (∃ cl, call = .add cl) ∨
      (∃ w : AgentWithdrawal, 0 < w.amount ∧ w.status = .pending ∧ w.id = s.withdrawals.nextKey ∧
        exec s call = { s with withdrawals := s.withdrawals.insertNew w } ∧ approves s call = none) ∨
      ∃ id status now adminRemark,
        (exec s call).withdrawals = s.withdrawals.modify id (processed status adminRemark now)
          (processed_id status adminRemark now) ∧
        (approves s call = if status = .approved then s.withdrawals.get? id else none) ∧
        (exec s call).ledger = payFor now s.ledger (approves s call) := by
  cases call with
  | add cl => exact .inr (.inl ⟨cl, rfl⟩)
  | submit opts now userId amount remark =>
    have hexec : exec s (.submit opts now userId amount remark) = (agentSubmitWithdrawal
      { opts with ledgerReadEnabled := true } 0 now userId amount remark s).toOption.getD s := rfl
    cases hsubmit : agentSubmitWithdrawal { opts with ledgerReadEnabled := true } 0 now userId amount
      remark s with
    | error e =>
      rw [hsubmit] at hexec
      exact .inl ⟨hexec, rfl⟩
    | ok s' =>
      rw [hsubmit] at hexec
      obtain ⟨hamount, rfl⟩ := submit_spec hsubmit
      exact .inr (.inr (.inl ⟨_, hamount, rfl, rfl, hexec, rfl⟩))
  | process opts now id status adminRemark =>
    have hexec : exec s (.process opts now id status adminRemark) = (adminProcessWithdrawal
      { opts with ledgerReadEnabled := true } now id status adminRemark s).toOption.getD s := rfl
    cases hproc : adminProcessWithdrawal { opts with ledgerReadEnabled := true } now id status
      adminRemark s with
    | error e =>
      rw [hproc] at hexec
      exact .inl ⟨hexec, process_error hproc⟩
    | ok s' =>
      rw [hproc] at hexec
      obtain ⟨hwithdrawals, hledger⟩ := process_spec hproc
      refine .inr (.inr (.inr ⟨id, status, now, adminRemark,
        (congrArg Store.withdrawals hexec).trans hwithdrawals, ?_,
        (congrArg Store.ledger hexec).trans hledger⟩))
      cases status with
      | pending | rejected => rfl
      | approved =>
        have hid : id ≠ 0 := by
          rintro rfl
          cases hproc
        exact if_neg hid

theorem entries_nonneg {call : Call} (hentries : ∀ e ∈ s.ledger.entries, 0 ≤ e.amount)
    (hadd : AddsNonneg call) : ∀ e ∈ (exec s call).ledger.entries, 0 ≤ e.amount := by
  rcases exec_cases s call with ⟨hexec, -⟩ | ⟨cl, rfl⟩ | ⟨w, -, -, -, hexec, -⟩ |
    ⟨id, status, now, adminRemark, -, -, hledger⟩
  · rw [hexec]
    exact hentries
  · intro e he
    rcases Ledger.mem_insertIdempotent he with he | rfl
    · exact hentries e he
    · exact hadd
  · rw [hexec]
    exact hentries
  · rw [hledger]
    cases approves s call with
    | none => exact hentries
    | some w => exact Ledger.amount_payOff hentries

/-- Every call keeps what holds of the tables. -/
theorem sound_step {call : Call} (hsound : Sound h) (hadd : AddsNonneg call) :
    Sound (step h call) := by
  have hentries := entries_nonneg hsound.entries hadd
  unfold step
  rcases exec_cases h.store call with ⟨hexec, hnone⟩ | ⟨cl, rfl⟩ |
    ⟨w, hpos, hpending, hid, hexec, hnone⟩ | ⟨id, status, now, adminRemark, hmodify, happroves, -⟩
  · rw [hexec, hnone]
    exact hsound
  · exact ⟨hentries, hsound.withdrawals, hsound.approvals, hsound.approved⟩
  · rw [hexec] at hentries ⊢
    rw [hnone]
    refine ⟨hentries, ?_, ?_, ?_⟩ <;> dsimp only
    · intro w' hw'
      rcases Table.mem_insertNew.1 hw' with hw' | ⟨rfl, -⟩
      · exact hsound.withdrawals w' hw'
      · exact hpos
    · intro id hmem
      have hold := hsound.approvals id hmem
      rw [Table.get?_insertNew_ne]
      · exact hold
      · rintro rfl
        rw [hid, Table.get?_nextKey] at hold
        cases hold
    · intro w' hw' happroved
      rcases Table.mem_insertNew.1 hw' with hw' | ⟨rfl, -⟩
      · exact hsound.approved w' hw' happroved
      · rw [hpending] at happroved
        cases happroved
  · refine ⟨hentries, ?_, ?_, ?_⟩ <;> dsimp only <;> rw [hmodify]
    · intro w' hw'
      obtain ⟨w, hw, rfl⟩ := Table.mem_modifyWhere.1 hw'
      split
      · exact hsound.withdrawals w hw
      · exact hsound.withdrawals w hw
    · intro id' hmem
      rw [Table.get?_modify]
      have hold : (h.store.withdrawals.get? id').isSome := by
        rcases List.mem_append.1 hmem with hmem | hmem
        · rw [happroves, Option.mem_toList] at hmem
          obtain ⟨w, hw, rfl⟩ := Option.map_eq_some_iff.1 hmem
          split at hw
          · rw [Table.get?_key (Table.mem_of_get? hw)]
            rfl
          · cases hw
        · exact hsound.approvals id' hmem
      split
      · rwa [Option.isSome_map]
      · exact hold
    · intro w' hw' happroved
      obtain ⟨w, hw, rfl⟩ := Table.mem_modifyWhere.1 hw'
      split at happroved
      next hid =>
        subst hid
        have hstatus : status = .approved := happroved
        rw [if_pos rfl]
        refine List.mem_append_left _ ?_
        rw [happroves, if_pos hstatus, Table.get?_key hw]
        exact List.mem_singleton.2 rfl
      next hid =>
        rw [if_neg hid]
        exact List.mem_append_right _ (hsound.approved w hw happroved)

/-! ### What is paid -/

end

/-- A commission of 100. -/
def hundred : CommissionLedger where
  agentId := 1
  sourceType := .topup
  sourceId := 1
  baseAmount := 2000
  rate := 5 / 100
  amount := 100
  status := .approved
  idempotencyKey := topupKey 1 1

/-- The entry is added, two withdrawals of 60 are submitted, and both are approved. -/
def twoRequests : List Call :=
  [.add hundred, .submit {} 1000 1 60 "", .submit {} 1001 1 60 "",
    .process {} 2000 1 .approved "", .process {} 2001 2 .approved ""]

end Payout

end NewApi.Sales

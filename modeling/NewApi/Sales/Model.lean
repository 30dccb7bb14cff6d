import NewApi.Lib.Sum
import NewApi.TopUp.Model
import Mathlib.Data.List.Sort
import Mathlib.Data.List.Dedup

/-!
# Sales agents and their commissions

A top-up of a customer earns commissions for the sales agents among the three users up its chain of
inviters. Each commission is an entry of a ledger: it is pending until its lock ends, then approved, then
paid when a withdrawal of the agent is, unless it is clawed back. Withdrawals are submitted by agents and
processed by administrators. Sums of money are exact.
-/

namespace NewApi

namespace Sales

/-- A user, with the columns that the sales code reads. -/
structure SalesUser where
  id : Nat
  inviterId : Nat := 0
  agentLevel : Int := 0
  isSales : Bool := false
  commissionRate : ℚ := 0
  commissionFrozen : Bool := false
  fraudFlag : Int := 0
deriving DecidableEq

/-- A top-up, with the columns that the sales code reads. -/
structure PaidTopUp where
  id : Nat
  userId : Nat
  money : ℚ
  status : TopUpStatus
deriving DecidableEq

/-- The status of a commission. -/
inductive CommissionStatus
  | pending
  | approved
  | paid
  | clawback
  | voided
deriving DecidableEq

/-- Where a commission comes from. -/
inductive CommissionSource
  | topup
  | consume
  | manual
  | clawbackEntry
deriving DecidableEq

/-- An entry of the ledger. -/
structure CommissionLedger where
  id : Nat := 0
  agentId : Nat
  customerId : Nat := 0
  level : Nat := 1
  sourceType : CommissionSource
  sourceId : Nat := 0
  baseAmount : ℚ
  rate : ℚ
  amount : ℚ
  status : CommissionStatus
  lockUntil : Int := 0
  approvedAt : Int := 0
  paidAt : Int := 0
  withdrawalId : Nat := 0
  clawbackOf : Nat := 0
  idempotencyKey : String
  remark : String := ""
deriving DecidableEq

/-- The entries, unique by id and by idempotency key. -/
structure Ledger where
  entries : Table CommissionLedger.id
  /-- The unique index on `idempotency_key`. -/
  uniqueKey : (entries.rows.map CommissionLedger.idempotencyKey).Nodup

/-- The status of a withdrawal. -/
inductive WithdrawalStatus
  | pending
  | approved
  | rejected
deriving DecidableEq

/-- A withdrawal of an agent. -/
structure AgentWithdrawal where
  id : Nat
  agentId : Nat
  amount : ℚ
  status : WithdrawalStatus := .pending
  remark : String := ""
  adminRemark : String := ""
  createdAt : Int
  processedAt : Int := 0
deriving DecidableEq

/-- The tables of the sales code. -/
structure Store where
  users : Table SalesUser.id
  topUps : Table PaidTopUp.id
  ledger : Ledger
  withdrawals : Table AgentWithdrawal.id

/-- The options of the sales code, with the tiers that `SalesTierRewardJSON` holds: none, where it is
empty or does not parse. -/
structure SalesOptions where
  l1CommissionRate : ℚ := 5 / 100
  l2CommissionRate : ℚ := 3 / 100
  l3CommissionRate : ℚ := 3 / 100
  lockDays : Int := 30
  commissionMode : String := "topup"
  minWithdrawAmount : ℚ := 10
  withdrawCycleDays : Int := 0
  /-- Thresholds, each with its rate. -/
  tierReward : List (ℚ × ℚ) := []
  ledgerReadEnabled : Bool := false

/-! ## The ledger -/

namespace Ledger

/-- A ledger with no entry. -/
def empty : Ledger := ⟨.empty, List.nodup_nil⟩

/-- `Create`: no ledger, where the idempotency key is taken. -/
def create (cl : CommissionLedger) (l : Ledger) : Option Ledger :=
  if h : cl.idempotencyKey ∈ l.entries.rows.map CommissionLedger.idempotencyKey then none
  else
    some
      { entries := l.entries.insertNew { cl with id := l.entries.nextKey }
        uniqueKey := by
          have hfree : ∀ c ∈ l.entries, c.id ≠ l.entries.nextKey := fun c hc =>
            Nat.ne_of_lt (Table.key_lt_nextKey hc)
          rw [Table.rows_insertNew hfree, List.map_append, List.nodup_append]
          refine ⟨l.uniqueKey, by simp, fun k hk k' hk' => ?_⟩
          rw [List.map_singleton, List.mem_singleton] at hk'
          rw [hk']
          exact fun he => h (he ▸ hk) }

/-- `InsertCommissionLedgerIdempotent`. -/
def insertIdempotent (cl : CommissionLedger) (l : Ledger) : Ledger := (l.create cl).getD l

theorem insertIdempotent_cases (cl : CommissionLedger) (l : Ledger) :
    (∃ e ∈ l.entries, e.idempotencyKey = cl.idempotencyKey) ∧ l.insertIdempotent cl = l ∨
      (∀ e ∈ l.entries, e.idempotencyKey ≠ cl.idempotencyKey) ∧
        (l.insertIdempotent cl).entries = l.entries.insertNew { cl with id := l.entries.nextKey } := by
  unfold insertIdempotent create
  split
  next h =>
    obtain ⟨e, he, hkey⟩ := List.mem_map.1 h
    exact .inl ⟨⟨e, he, hkey⟩, rfl⟩
  next h => exact .inr ⟨fun e he hkey => h (List.mem_map.2 ⟨e, he, hkey⟩), rfl⟩

theorem mem_insertIdempotent {cl e : CommissionLedger} {l : Ledger}
    (h : e ∈ (l.insertIdempotent cl).entries) :
    e ∈ l.entries ∨ e = { cl with id := l.entries.nextKey } := by
  rcases insertIdempotent_cases cl l with ⟨-, heq⟩ | ⟨-, heq⟩
  · exact .inl (heq ▸ h)
  · rw [heq] at h
    exact (Table.mem_insertNew.1 h).imp_right And.left

theorem mem_insertIdempotent_of_mem {cl e : CommissionLedger} {l : Ledger} (h : e ∈ l.entries) :
    e ∈ (l.insertIdempotent cl).entries := by
  rcases insertIdempotent_cases cl l with ⟨-, heq⟩ | ⟨-, heq⟩
  · rw [heq]
    exact h
  · rw [heq]
    exact Table.mem_insertNew.2 (.inl h)

/-- `UPDATE … WHERE p`, by a function that keeps the unique columns. -/
def modifyWhere (l : Ledger) (p : CommissionLedger → Prop) [DecidablePred p]
    (f : CommissionLedger → CommissionLedger) (hid : ∀ e, (f e).id = e.id)
    (hkey : ∀ e, (f e).idempotencyKey = e.idempotencyKey) : Ledger where
  entries := l.entries.modifyWhere p f hid
  uniqueKey := by
    rw [Table.map_modifyWhere fun e _ _ => hkey e]
    exact l.uniqueKey

/-- `SumCommissionByStatus`. -/
def sumCommissionByStatus (agentId : Nat) (status : CommissionStatus) (l : Ledger) : ℚ :=
  l.entries.sumWhere (fun e => e.agentId = agentId ∧ e.status = status) CommissionLedger.amount

/-- `GetAgentBalances`: pending, approved and paid. -/
def getAgentBalances (agentId : Nat) (l : Ledger) : ℚ × ℚ × ℚ :=
  (l.sumCommissionByStatus agentId .pending, l.sumCommissionByStatus agentId .approved,
    l.sumCommissionByStatus agentId .paid)

theorem sumCommissionByStatus_insertIdempotent {agentId : Nat} {status : CommissionStatus}
    {cl : CommissionLedger} {l : Ledger} (h : cl.status ≠ status) :
    (l.insertIdempotent cl).sumCommissionByStatus agentId status =
      l.sumCommissionByStatus agentId status := by
  rcases insertIdempotent_cases cl l with ⟨-, heq⟩ | ⟨-, heq⟩
  · rw [heq]
  · rw [sumCommissionByStatus, heq, Table.sumWhere_insertNew Table.get?_nextKey,
      if_neg fun hand => h hand.2, add_zero]
    rfl

/-- The approved entries of an agent, the oldest first. -/
def approvedEntries (agentId : Nat) (l : Ledger) : List CommissionLedger :=
  (l.entries.rows.filter fun e => e.agentId = agentId ∧ e.status = .approved).insertionSort
    fun e e' => e.id ≤ e'.id

theorem approvedEntries_spec (a : Nat) (l : Ledger) :
    (∀ e ∈ l.approvedEntries a,
        l.entries.get? e.id = some e ∧ e.agentId = a ∧ e.status = .approved) ∧
      ((l.approvedEntries a).map CommissionLedger.id).Nodup := by
  have hperm := List.perm_insertionSort (fun e e' : CommissionLedger => e.id ≤ e'.id)
    (l.entries.rows.filter fun e => e.agentId = a ∧ e.status = .approved)
  refine ⟨fun e he => ?_, ?_⟩
  · obtain ⟨hmem, hp⟩ := List.mem_filter.1 (hperm.mem_iff.1 he)
    exact ⟨Table.get?_key hmem, of_decide_eq_true hp⟩
  · exact (hperm.map _).nodup_iff.2 (l.entries.nodup.sublist (List.filter_sublist.map _))

/-- An entry that is paid, by a withdrawal, where there is one. -/
def markPaid (now : Int) (withdrawalId : Option Nat) (e : CommissionLedger) : CommissionLedger :=
  { e with status := .paid, paidAt := now, withdrawalId := withdrawalId.getD e.withdrawalId }

@[simp] theorem markPaid_id (now : Int) (withdrawalId : Option Nat) (e : CommissionLedger) :
    (markPaid now withdrawalId e).id = e.id := rfl

@[simp] theorem markPaid_idempotencyKey (now : Int) (withdrawalId : Option Nat)
    (e : CommissionLedger) : (markPaid now withdrawalId e).idempotencyKey = e.idempotencyKey := rfl

/-- The ledger with one entry paid. -/
def pay (now : Int) (withdrawalId : Option Nat) (e : CommissionLedger) (l : Ledger) : Ledger :=
  l.modifyWhere (·.id = e.id) (markPaid now withdrawalId) (markPaid_id now withdrawalId)
    (markPaid_idempotencyKey now withdrawalId)

theorem entries_pay {now : Int} {withdrawalId : Option Nat} {e : CommissionLedger} {l : Ledger} :
    (l.pay now withdrawalId e).entries =
      l.entries.modify e.id (markPaid now withdrawalId) (markPaid_id now withdrawalId) := rfl

theorem get?_pay_ne {now : Int} {withdrawalId : Option Nat} {e : CommissionLedger} {l : Ledger}
    {id : Nat} (hne : id ≠ e.id) :
    (l.pay now withdrawalId e).entries.get? id = l.entries.get? id := by
  rw [entries_pay, Table.get?_modify_ne hne]

/-- The loops that pay entries, the oldest first, until an amount is used up. -/
def payOff (now : Int) (withdrawalId : Option Nat) : List CommissionLedger → ℚ → Ledger → Ledger
  | [], _, l => l
  | e :: rest, remaining, l =>
    if remaining ≤ 0 then l
    else payOff now withdrawalId rest (remaining - e.amount) (l.pay now withdrawalId e)

end Ledger

/-! ## Accruing -/

/-- `selfRate`. -/
def selfRate (opts : SalesOptions) (agentLevel : Int) (commissionRate : ℚ) : ℚ :=
  if commissionRate > 0 then commissionRate
  else if agentLevel = 1 then opts.l1CommissionRate
  else if agentLevel = 2 then opts.l2CommissionRate
  else if agentLevel = 3 then opts.l3CommissionRate
  else 0

/-- `isAgent`. -/
def isAgent (u : SalesUser) : Prop := u.agentLevel > 0 ∨ u.isSales = true

instance : DecidablePred isAgent := fun _ => inferInstanceAs (Decidable (_ ∨ _))

/-- `applyTierReward`: the highest rate of the tiers that what the agent has earned reaches. -/
def applyTierReward (opts : SalesOptions) (l : Ledger) (agentId : Nat) (baseRate : ℚ) : ℚ :=
  let cum := l.sumCommissionByStatus agentId .approved + l.sumCommissionByStatus agentId .paid
  opts.tierReward.foldl (fun best tier => if cum ≥ tier.1 ∧ tier.2 > best then tier.2 else best) baseRate

/-- `GetUserById`. -/
def getUserById (users : Table SalesUser.id) (id : Nat) : Option SalesUser :=
  if id = 0 then none else users.get? id

/-- The users up a chain of inviters, with their levels, as the loops over three levels visit them. -/
def inviters (users : Table SalesUser.id) : Nat → Nat → Nat → List (Nat × SalesUser)
  | 0, _, _ => []
  | levels + 1, level, curId =>
    match getUserById users curId with
    | none => []
    | some cur =>
      if cur.inviterId = 0 then []
      else
        match getUserById users cur.inviterId with
        | none => []
        | some inviter => (level, inviter) :: inviters users levels (level + 1) inviter.id

/-- The idempotency key of the commission of an agent for a top-up. -/
def topupKey (topupId agentId : Nat) : String :=
  "topup:" ++ toString topupId ++ ":agent:" ++ toString agentId

/-- What the loop of `AccrueTopupCommission` does for one inviter. -/
def accrueTo (opts : SalesOptions) (now : Int) (topupId customerId : Nat) (moneyUSD : ℚ) (l : Ledger)
    (level : Nat) (inviter : SalesUser) : Ledger :=
  if ¬ isAgent inviter then l
  else if inviter.commissionFrozen then l
  else
    let rate := applyTierReward opts l inviter.id
      (selfRate opts inviter.agentLevel inviter.commissionRate)
    if rate ≤ 0 then l
    else
      l.insertIdempotent
        { agentId := inviter.id
          customerId := customerId
          level := level
          sourceType := .topup
          sourceId := topupId
          baseAmount := moneyUSD
          rate := rate
          amount := moneyUSD * rate
          status := .pending
          lockUntil := now + opts.lockDays * 86400
          idempotencyKey := topupKey topupId inviter.id }

/-- `AccrueTopupCommission`. -/
def accrueTopupCommission (opts : SalesOptions) (now : Int) (topupId customerId : Nat) (moneyUSD : ℚ)
    (s : Store) : Store :=
  if opts.commissionMode = "consume" then s
  else if moneyUSD ≤ 0 ∨ customerId = 0 then s
  else
    { s with
      ledger := (inviters s.users 3 1 customerId).foldl
        (fun l p => accrueTo opts now topupId customerId moneyUSD l p.1 p.2) s.ledger }

/-! ## Backfilling -/

/-- What the loop of `BackfillTopupCommissions` does for one inviter. -/
def backfillTo (opts : SalesOptions) (now : Int) (t : PaidTopUp) (l : Ledger) (level : Nat)
    (inviter : SalesUser) : Ledger :=
  if ¬ isAgent inviter ∨ inviter.commissionFrozen then l
  else
    let rate := selfRate opts inviter.agentLevel inviter.commissionRate
    if rate ≤ 0 then l
    else
      l.insertIdempotent
        { agentId := inviter.id
          customerId := t.userId
          level := level
          sourceType := .topup
          sourceId := t.id
          baseAmount := t.money
          rate := rate
          amount := t.money * rate
          status := .approved
          approvedAt := now
          lockUntil := now
          remark := "backfill"
          idempotencyKey := topupKey t.id inviter.id }

/-- What the loop of `BackfillTopupCommissions` does for one top-up. -/
def backfillTopup (opts : SalesOptions) (now : Int) (users : Table SalesUser.id) (l : Ledger)
    (t : PaidTopUp) : Ledger :=
  if t.money ≤ 0 then l
  else (inviters users 3 1 t.userId).foldl (fun l p => backfillTo opts now t l p.1 p.2) l

/-- `SumApprovedWithdrawals`. -/
def sumApprovedWithdrawals (agentId : Nat) (s : Store) : ℚ :=
  s.withdrawals.sumWhere (fun w => w.agentId = agentId ∧ w.status = .approved) AgentWithdrawal.amount

/-- The agents that the ledger has entries of. -/
def ledgerAgents (l : Ledger) : List Nat := (l.entries.rows.map CommissionLedger.agentId).dedup

/-- The end of `BackfillTopupCommissions` for one agent: what has been withdrawn is paid. -/
def writeOff (now : Int) (s : Store) (l : Ledger) (agentId : Nat) : Ledger :=
  let withdrawn := sumApprovedWithdrawals agentId s
  if withdrawn ≤ 0 then l else Ledger.payOff now none (l.approvedEntries agentId) withdrawn l

/-- `BackfillTopupCommissions`, on the successful top-ups in the order of their ids. -/
def backfillTopupCommissions (opts : SalesOptions) (now : Int) (s : Store) : Store :=
  let tops := (s.topUps.rows.filter fun t => t.status = .success).insertionSort fun t t' => t.id ≤ t'.id
  let ledger := tops.foldl (backfillTopup opts now s.users) s.ledger
  { s with ledger := (ledgerAgents ledger).foldl (writeOff now s) ledger }

/-! ## Maturing and clawing back -/

/-- A pending entry whose lock has ended, of a customer not under suspicion and an agent not frozen. -/
def Matures (now : Int) (users : Table SalesUser.id) (e : CommissionLedger) : Prop :=
  e.status = .pending ∧ e.lockUntil > 0 ∧ e.lockUntil ≤ now ∧
    (∀ u ∈ users.rows, u.fraudFlag = 1 → u.id ≠ e.customerId) ∧
    ∀ u ∈ users.rows, u.commissionFrozen = true → u.id ≠ e.agentId

instance (now : Int) (users : Table SalesUser.id) : DecidablePred (Matures now users) := fun _ =>
  inferInstanceAs (Decidable (_ ∧ _))

/-- An entry that is approved. -/
def CommissionLedger.matured (now : Int) (e : CommissionLedger) : CommissionLedger :=
  { e with status := .approved, approvedAt := now }

@[simp] theorem CommissionLedger.matured_id (now : Int) (e : CommissionLedger) :
    (e.matured now).id = e.id := rfl

@[simp] theorem CommissionLedger.matured_idempotencyKey (now : Int) (e : CommissionLedger) :
    (e.matured now).idempotencyKey = e.idempotencyKey := rfl

/-- What `RunCommissionMaturer` does every hour. -/
def mature (now : Int) (s : Store) : Store :=
  { s with
    ledger := s.ledger.modifyWhere (Matures now s.users) (CommissionLedger.matured now)
      (CommissionLedger.matured_id now) (CommissionLedger.matured_idempotencyKey now) }

/-- An entry that has not been clawed back, whatever has become of it. -/
def CommissionStatus.Open (status : CommissionStatus) : Prop :=
  status = .pending ∨ status = .approved ∨ status = .paid

instance : DecidablePred CommissionStatus.Open := fun _ => inferInstanceAs (Decidable (_ ∨ _))

/-- An entry that is clawed back. -/
def CommissionLedger.clawedBack (e : CommissionLedger) : CommissionLedger :=
  { e with status := .clawback }

@[simp] theorem CommissionLedger.clawedBack_id (e : CommissionLedger) : e.clawedBack.id = e.id := rfl

@[simp] theorem CommissionLedger.clawedBack_idempotencyKey (e : CommissionLedger) :
    e.clawedBack.idempotencyKey = e.idempotencyKey := rfl

/-- What the loop of `ClawbackBySource` does for one entry. -/
def clawbackEntry (sourceId : Nat) (reason : String) (l : Ledger) (r : CommissionLedger) : Ledger :=
  let l := l.insertIdempotent
    { agentId := r.agentId
      customerId := r.customerId
      level := r.level
      sourceType := .clawbackEntry
      sourceId := sourceId
      baseAmount := -r.baseAmount
      rate := r.rate
      amount := -r.amount
      status := .clawback
      clawbackOf := r.id
      remark := "clawback: " ++ reason
      idempotencyKey := "clawback:" ++ toString r.id }
  l.modifyWhere (·.id = r.id) CommissionLedger.clawedBack CommissionLedger.clawedBack_id
    CommissionLedger.clawedBack_idempotencyKey

/-- `ClawbackBySource`. -/
def clawbackBySource (sourceType : CommissionSource) (sourceId : Nat) (reason : String) (s : Store) :
    Store :=
  let rows := s.ledger.entries.rows.filter fun e =>
    e.sourceType = sourceType ∧ e.sourceId = sourceId ∧ e.status.Open
  { s with ledger := rows.foldl (clawbackEntry sourceId reason) s.ledger }

/-! ## Withdrawals -/

/-- Why a request is refused. -/
inductive SalesError
  | notAnAgent
  | invalidAmount
  | withdrawCycle (days : Int)
  | belowMinimum (minimum : ℚ)
  | exceedsAvailable
  | invalidId
  | invalidStatus
deriving DecidableEq

/-- `AgentSubmitWithdrawal`. The estimate is what is available where the ledger is not read. -/
def agentSubmitWithdrawal (opts : SalesOptions) (estimate : ℚ) (now : Int) (userId : Nat) (amount : ℚ)
    (remark : String) (s : Store) : Except SalesError Store :=
  if ((s.users.get? userId).map SalesUser.agentLevel).getD 0 = 0 then .error .notAnAgent
  else if amount ≤ 0 then .error .invalidAmount
  else
    let lastW := ((s.withdrawals.rows.filter fun w => w.agentId = userId).insertionSort
      fun w w' => w.id ≤ w'.id).getLast?
    if opts.withdrawCycleDays > 0 ∧
        ∃ w ∈ lastW, w.id > 0 ∧ now - w.createdAt < opts.withdrawCycleDays * 86400 then
      .error (.withdrawCycle opts.withdrawCycleDays)
    else
      let available :=
        if opts.ledgerReadEnabled then s.ledger.sumCommissionByStatus userId .approved else estimate
      if opts.minWithdrawAmount > 0 ∧ amount < opts.minWithdrawAmount then
        .error (.belowMinimum opts.minWithdrawAmount)
      else if amount > available then .error .exceedsAvailable
      else
        .ok { s with
          withdrawals := s.withdrawals.insertNew
            { id := s.withdrawals.nextKey
              agentId := userId
              amount := amount
              remark := remark
              createdAt := now } }

/-- The columns that `UpdateWithdrawalStatus` writes. -/
def processed (status : WithdrawalStatus) (adminRemark : String) (processedAt : Int)
    (w : AgentWithdrawal) : AgentWithdrawal :=
  { w with status := status, adminRemark := adminRemark, processedAt := processedAt }

@[simp] theorem processed_id (status : WithdrawalStatus) (adminRemark : String) (processedAt : Int)
    (w : AgentWithdrawal) : (processed status adminRemark processedAt w).id = w.id := rfl

/-- `AdminProcessWithdrawal`, with the clock as each of its statements reads it. -/
def adminProcessWithdrawal (opts : SalesOptions) (now : Int) (id : Nat) (status : WithdrawalStatus)
    (adminRemark : String) (s : Store) : Except SalesError Store :=
  if id = 0 then .error .invalidId
  else if status ≠ .approved ∧ status ≠ .rejected then .error .invalidStatus
  else
    let s := { s with
      withdrawals := s.withdrawals.modify id (processed status adminRemark now)
        (processed_id status adminRemark now) }
    if status = .approved ∧ opts.ledgerReadEnabled then
      match s.withdrawals.get? id with
      | none => .ok s
      | some w =>
        .ok { s with
          ledger := Ledger.payOff now (some id) (s.ledger.approvedEntries w.agentId) w.amount s.ledger }
    else .ok s

end Sales

end NewApi

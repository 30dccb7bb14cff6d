import NewApi.Lib.Run
import NewApi.Sales.Chain
import Mathlib.Data.List.Induction

/-!
# One commission for a top-up and an agent

Commissions are accrued when a top-up succeeds, and backfilled for all successful top-ups. Both walk up
the inviters of the customer, each with a rate of its own, and both write the key of the top-up and the
agent, so that whichever comes first inserts the entry. The backfill then pays what has been withdrawn,
which is the one change to an entry that is there.
-/

namespace NewApi.Sales

open Run

namespace Accrual

/-- A call, with the options and the time it is made at. -/
inductive Call
  /-- A top-up of the table has succeeded. -/
  | accrue (opts : SalesOptions) (now : Int) (topupId : Nat)
  | backfill (opts : SalesOptions) (now : Int)
  /-- The level, the rate and the flags of an agent are set. -/
  | setAgent (id : Nat) (agentLevel : Int) (commissionRate : ℚ) (isSales commissionFrozen : Bool)

/-- The columns of a user that say what it earns. -/
def reappointed (agentLevel : Int) (commissionRate : ℚ) (isSales commissionFrozen : Bool)
    (u : SalesUser) : SalesUser :=
  { u with
    agentLevel := agentLevel
    commissionRate := commissionRate
    isSales := isSales
    commissionFrozen := commissionFrozen }

@[simp] theorem reappointed_id (agentLevel : Int) (commissionRate : ℚ) (isSales commissionFrozen : Bool)
    (u : SalesUser) : (reappointed agentLevel commissionRate isSales commissionFrozen u).id = u.id := rfl

/-- The store that a call leaves. -/
def step (s : Store) : Call → Store
  | .accrue opts now topupId =>
    match s.topUps.get? topupId with
    | none => s
    | some t => accrueTopupCommission opts now t.id t.userId t.money s
  | .backfill opts now => backfillTopupCommissions opts now s
  | .setAgent id agentLevel commissionRate isSales commissionFrozen =>
    { s with
      users := s.users.modify id (reappointed agentLevel commissionRate isSales commissionFrozen)
        (reappointed_id agentLevel commissionRate isSales commissionFrozen) }

/-- The rate that a call gives an agent. -/
def rateInForce (s : Store) : Call → SalesUser → ℚ
  | .accrue opts _ _, u =>
    applyTierReward opts s.ledger u.id (selfRate opts u.agentLevel u.commissionRate)
  | .backfill opts _, u => selfRate opts u.agentLevel u.commissionRate
  | .setAgent .., _ => 0

/-- An entry is the commission of one of the first three inviters of the customer of a top-up. -/
structure Issued (s : Store) (e : CommissionLedger) : Prop where
  source : e.sourceType = .topup
  topUp : ∃ t ∈ s.topUps, t.id = e.sourceId ∧ t.userId = e.customerId ∧ t.money = e.baseAmount
  upline : 1 ≤ e.level ∧ e.level ≤ 3 ∧ nthInviter s.users e.level e.customerId = some e.agentId
  amount : e.amount = e.baseAmount * e.rate
  key : e.idempotencyKey = topupKey e.sourceId e.agentId

/-- An entry is one that a call inserts, at the rate that the call gives the agent. -/
structure Inserts (s : Store) (call : Call) (e : CommissionLedger) : Prop where
  issued : Issued s e
  rate : ∃ u ∈ s.users, u.id = e.agentId ∧ isAgent u ∧ u.commissionFrozen = false ∧
    e.rate = rateInForce s call u

/-- A top-up has at most one entry for an agent. -/
def AtMostOnce (s : Store) : Prop :=
  ∀ e ∈ s.ledger.entries, ∀ e' ∈ s.ledger.entries,
    e.sourceId = e'.sourceId → e.agentId = e'.agentId → e = e'

/-- A call leaves the entries that are there as they are, but for those that a backfill pays, of an agent
that has withdrawn. -/
def Keeps (s : Store) (call : Call) (s' : Store) : Prop :=
  ∀ e ∈ s.ledger.entries, e ∈ s'.ledger.entries ∨
    ∃ opts now, call = .backfill opts now ∧ e.status = .approved ∧ 0 < sumApprovedWithdrawals e.agentId s ∧
      Ledger.markPaid now none e ∈ s'.ledger.entries

/-- An entry has the base amount and the rate that it was first inserted with in a run. -/
def FirstInserted (s : Store) (calls : List Call) (e : CommissionLedger) : Prop :=
  ∃ before call after, calls = before ++ call :: after ∧
    (∀ e' ∈ (run step s before).ledger.entries, e'.sourceId = e.sourceId → e'.agentId ≠ e.agentId) ∧
    Inserts (run step s before) call e

/-- The total commission of a top-up. -/
def commission (topupId : Nat) (s : Store) : ℚ :=
  s.ledger.entries.sumWhere (fun e => e.sourceType = .topup ∧ e.sourceId = topupId)
    CommissionLedger.amount

/-! ## Ledgers that grow -/

/-- The entries of a ledger are in another one, whose other entries satisfy a condition. -/
structure Grows (P : CommissionLedger → Prop) (l l' : Ledger) : Prop where
  kept : ∀ e ∈ l.entries, e ∈ l'.entries
  added : ∀ e ∈ l'.entries, e ∈ l.entries ∨ P e

section
variable {P : CommissionLedger → Prop} {l l' l'' : Ledger} {cl : CommissionLedger} {α : Type*}
  {f : Ledger → α → Ledger} {as : List α}

theorem Grows.refl (P : CommissionLedger → Prop) (l : Ledger) : Grows P l l :=
  ⟨fun _ => id, fun _ => .inl⟩

theorem Grows.trans (h : Grows P l l') (h' : Grows P l' l'') : Grows P l l'' where
  kept e he := h'.kept e (h.kept e he)
  added e he := (h'.added e he).elim (h.added e) .inr

theorem grows_insertIdempotent (h : ∀ id, P { cl with id := id }) : Grows P l (l.insertIdempotent cl) where
  kept _ := Ledger.mem_insertIdempotent_of_mem
  added e he := by
    rcases Ledger.mem_insertIdempotent he with hmem | rfl
    · exact .inl hmem
    · exact .inr (h _)

theorem grows_foldl (h : ∀ l, ∀ a ∈ as, Grows P l (f l a)) : Grows P l (as.foldl f l) := by
  induction as generalizing l with
  | nil => exact .refl P l
  | cons a as ih =>
    have hrest : ∀ l, ∀ b ∈ as, Grows P l (f l b) := fun l b hb => h l b (List.mem_cons_of_mem _ hb)
    exact (h l a List.mem_cons_self).trans (ih hrest)

theorem Grows.key_ne (h : Grows P l l') {e e' : CommissionLedger} (he : e ∈ l.entries)
    (he' : e' ∈ l'.entries) (hnew : e' ∉ l.entries) : e.idempotencyKey ≠ e'.idempotencyKey := by
  intro hkey
  have heq : e = e' := List.inj_on_of_nodup_map l'.uniqueKey (h.kept e he) he' hkey
  exact hnew (heq ▸ he)

end

/-! ## Ledgers that are paid off -/

/-- Some entries of a ledger are paid in another one, which has no other entries. -/
structure Marks (now : Int) (p : CommissionLedger → Prop) (l l' : Ledger) : Prop where
  kept : ∀ e ∈ l.entries, e ∈ l'.entries ∨ p e ∧ Ledger.markPaid now none e ∈ l'.entries
  back : ∀ e ∈ l'.entries, e ∈ l.entries ∨ ∃ e₀ ∈ l.entries, p e₀ ∧ e = Ledger.markPaid now none e₀

section
variable {now : Int} {p : CommissionLedger → Prop} {l l' l'' : Ledger} {e : CommissionLedger}
  {es : List CommissionLedger} {x : ℚ}

theorem Marks.refl (now : Int) (p : CommissionLedger → Prop) (l : Ledger) : Marks now p l l :=
  ⟨fun _ => .inl, fun _ => .inl⟩

theorem Marks.trans (hp : ∀ e, p e → e.status = .approved) (h : Marks now p l l')
    (h' : Marks now p l' l'') : Marks now p l l'' where
  kept e he := by
    rcases h.kept e he with hmem | ⟨hpe, hpaid⟩
    · exact h'.kept e hmem
    · rcases h'.kept _ hpaid with hmem | ⟨hpe', -⟩
      · exact .inr ⟨hpe, hmem⟩
      · cases hp _ hpe'
  back e he := by
    rcases h'.back e he with hmem | ⟨e₀, hmem, hpe, rfl⟩
    · exact h.back e hmem
    · rcases h.back e₀ hmem with hmem₀ | ⟨e₁, -, -, rfl⟩
      · exact .inr ⟨e₀, hmem₀, hpe, rfl⟩
      · cases hp _ hpe

theorem marks_pay (hget : l.entries.get? e.id = some e) (hpe : p e) :
    Marks now p l (l.pay now none e) where
  kept e' he' := by
    rw [Ledger.entries_pay]
    by_cases hid : e'.id = e.id
    · have heq : e' = e := Table.eq_of_key_eq he' (Table.mem_of_get? hget) hid
      subst heq
      exact .inr ⟨hpe, Table.mem_modifyWhere_of he' rfl⟩
    · exact .inl (Table.mem_modify_of_ne he' hid)
  back e' he' := by
    rw [Ledger.entries_pay] at he'
    obtain ⟨e₀, he₀, rfl⟩ := Table.mem_modifyWhere.1 he'
    split
    next hid =>
      have heq : e₀ = e := Table.eq_of_key_eq he₀ (Table.mem_of_get? hget) hid
      subst heq
      exact .inr ⟨e₀, he₀, hpe, rfl⟩
    next => exact .inl he₀

theorem marks_payOff (hp : ∀ e, p e → e.status = .approved)
    (hes : ∀ e ∈ es, l.entries.get? e.id = some e ∧ p e)
    (hnodup : (es.map CommissionLedger.id).Nodup) : Marks now p l (Ledger.payOff now none es x l) := by
  induction es generalizing l x with
  | nil => exact .refl now p l
  | cons e es ih =>
    rw [Ledger.payOff]
    split
    · exact .refl now p l
    obtain ⟨hget, hpe⟩ := hes e List.mem_cons_self
    rw [List.map_cons, List.nodup_cons] at hnodup
    refine (marks_pay hget hpe).trans hp (ih (fun e' he' => ?_) hnodup.2)
    obtain ⟨hget', hpe'⟩ := hes e' (List.mem_cons_of_mem _ he')
    have hne : e'.id ≠ e.id := fun hid => hnodup.1 (hid ▸ List.mem_map_of_mem he')
    exact ⟨(Ledger.get?_pay_ne hne).trans hget', hpe'⟩

end

/-! ## What a call does -/

section
variable {s : Store} {opts : SalesOptions} {now : Int} {t : PaidTopUp} {l l' : Ledger}
  {p : Nat × SalesUser} {ps : List (Nat × SalesUser)} {e e₀ : CommissionLedger} {call : Call}

/-- What backfilling pays: the approved entries of an agent that has withdrawn. -/
def WrittenOff (s : Store) (e : CommissionLedger) : Prop :=
  e.status = .approved ∧ 0 < sumApprovedWithdrawals e.agentId s

theorem marks_writeOff (a : Nat) : Marks now (WrittenOff s) l (writeOff now s l a) := by
  unfold writeOff
  dsimp only
  split
  · exact .refl now _ l
  next hpos =>
    obtain ⟨hes, hnodup⟩ := Ledger.approvedEntries_spec a l
    refine marks_payOff (fun e hp => hp.1) (fun e he => ?_) hnodup
    obtain ⟨hget, hagent, happroved⟩ := hes e he
    refine ⟨hget, happroved, ?_⟩
    rw [hagent]
    exact not_le.1 hpos

theorem marks_foldl_writeOff (as : List Nat) :
    Marks now (WrittenOff s) l (as.foldl (writeOff now s) l) := by
  induction as generalizing l with
  | nil => exact .refl now _ l
  | cons a as ih => exact (marks_writeOff a).trans (fun _ hp => hp.1) ih

theorem issued_of_mem_inviters (ht : t ∈ s.topUps) (hp : p ∈ inviters s.users 3 1 t.userId)
    (hsource : e.sourceType = .topup) (htopUp : t.id = e.sourceId ∧ t.userId = e.customerId ∧
      t.money = e.baseAmount) (hlevel : e.level = p.1) (hagent : e.agentId = p.2.id)
    (hamount : e.amount = e.baseAmount * e.rate)
    (hkey : e.idempotencyKey = topupKey e.sourceId e.agentId) : Issued s e := by
  obtain ⟨-, k, hk, hpk, hnth⟩ := mem_inviters hp
  have hlevel' : e.level = k + 1 := by rw [hlevel, hpk, Nat.add_comm]
  refine ⟨hsource, ⟨t, ht, htopUp⟩, ⟨?_, ?_, ?_⟩, hamount, hkey⟩
  · rw [hlevel']
    exact Nat.succ_pos k
  · rw [hlevel']
    exact hk
  · rw [hlevel', hagent, ← htopUp.2.1]
    exact hnth

theorem applyTierReward_congr {a : Nat} {rate : ℚ}
    (h : ∀ status, .pending ≠ status → l'.sumCommissionByStatus a status = l.sumCommissionByStatus a status) :
    applyTierReward opts l' a rate = applyTierReward opts l a rate := by
  unfold applyTierReward
  rw [h .approved nofun, h .paid nofun]

theorem accrueTo_cases (level : Nat) (u : SalesUser) (topupId customerId : Nat) (moneyUSD : ℚ) :
    accrueTo opts now topupId customerId moneyUSD l level u = l ∨
      isAgent u ∧ u.commissionFrozen = false ∧
        accrueTo opts now topupId customerId moneyUSD l level u = l.insertIdempotent
          { agentId := u.id
            customerId := customerId
            level := level
            sourceType := .topup
            sourceId := topupId
            baseAmount := moneyUSD
            rate := applyTierReward opts l u.id (selfRate opts u.agentLevel u.commissionRate)
            amount := moneyUSD *
              applyTierReward opts l u.id (selfRate opts u.agentLevel u.commissionRate)
            status := .pending
            lockUntil := now + opts.lockDays * 86400
            idempotencyKey := topupKey topupId u.id } := by
  unfold accrueTo
  split
  · exact .inl rfl
  next hagent =>
  split
  · exact .inl rfl
  next hfrozen =>
  dsimp only
  split
  · exact .inl rfl
  · exact .inr ⟨not_not.1 hagent, Bool.eq_false_iff.2 hfrozen, rfl⟩

theorem grows_accrue (ht : t ∈ s.topUps) (hps : ∀ p ∈ ps, p ∈ inviters s.users 3 1 t.userId)
    (hearned : ∀ a status, .pending ≠ status →
      l.sumCommissionByStatus a status = s.ledger.sumCommissionByStatus a status) :
    Grows (Inserts s (.accrue opts now t.id)) l
      (ps.foldl (fun l p => accrueTo opts now t.id t.userId t.money l p.1 p.2) l) := by
  induction ps generalizing l with
  | nil => exact .refl _ l
  | cons p ps ih =>
    have hps' : ∀ p ∈ ps, p ∈ inviters s.users 3 1 t.userId := fun p hp =>
      hps p (List.mem_cons_of_mem _ hp)
    rw [List.foldl_cons]
    rcases @accrueTo_cases opts now l p.1 p.2 t.id t.userId t.money with heq | ⟨hagent, hfrozen, heq⟩
    · rw [heq]
      exact ih hps' hearned
    · rw [heq]
      have hp := hps p List.mem_cons_self
      refine (grows_insertIdempotent fun id => ?_).trans (ih hps' fun a status hstatus => ?_)
      · refine ⟨issued_of_mem_inviters ht hp rfl ⟨rfl, rfl, rfl⟩ rfl rfl rfl rfl,
          p.2, (mem_inviters hp).1, rfl, hagent, hfrozen, ?_⟩
        exact applyTierReward_congr (hearned p.2.id)
      · rw [Ledger.sumCommissionByStatus_insertIdempotent hstatus]
        exact hearned a status hstatus

theorem grows_backfill {tops : List PaidTopUp} (htops : ∀ t ∈ tops, t ∈ s.topUps) :
    Grows (Inserts s (.backfill opts now)) l (tops.foldl (backfillTopup opts now s.users) l) := by
  refine grows_foldl fun l t ht => ?_
  unfold backfillTopup
  split
  · exact .refl _ l
  refine grows_foldl fun l p hp => ?_
  unfold backfillTo
  split
  · exact .refl _ l
  next hagent =>
  dsimp only
  split
  · exact .refl _ l
  obtain ⟨hagent, hfrozen⟩ := not_or.1 hagent
  refine grows_insertIdempotent fun id => ?_
  exact ⟨issued_of_mem_inviters (htops t ht) hp rfl ⟨rfl, rfl, rfl⟩ rfl rfl rfl rfl,
    p.2, (mem_inviters hp).1, rfl, not_not.1 hagent, Bool.eq_false_iff.2 hfrozen, rfl⟩

/-- An entry is another one, or that one paid. -/
def Same (e e₀ : CommissionLedger) : Prop := e = e₀ ∨ ∃ now, e = Ledger.markPaid now none e₀

theorem Issued.same (h : Issued s e₀) (hsame : Same e e₀) : Issued s e := by
  rcases hsame with rfl | ⟨now, rfl⟩
  · exact h
  · exact ⟨h.source, h.topUp, h.upline, h.amount, h.key⟩

theorem Inserts.same (h : Inserts s call e₀) (hsame : Same e e₀) : Inserts s call e := by
  refine ⟨h.issued.same hsame, ?_⟩
  rcases hsame with rfl | ⟨now, rfl⟩
  · exact h.rate
  · exact h.rate

theorem step_ledger (s : Store) (call : Call) :
    ∃ l, Grows (Inserts s call) s.ledger l ∧ ((step s call).ledger = l ∨
      ∃ opts now, call = .backfill opts now ∧ Marks now (WrittenOff s) l (step s call).ledger) := by
  cases call with
  | accrue opts now topupId =>
    refine ⟨_, ?_, .inl rfl⟩
    unfold step
    dsimp only
    split
    next => exact .refl _ _
    next t hget =>
    obtain ⟨ht, rfl⟩ := Table.get?_eq_some.1 hget
    unfold accrueTopupCommission
    split
    · exact .refl _ _
    split
    · exact .refl _ _
    exact grows_accrue ht (fun _ => id) fun _ _ _ => rfl
  | backfill opts now =>
    refine ⟨_, grows_backfill fun t ht => ?_, .inr ⟨opts, now, rfl, marks_foldl_writeOff _⟩⟩
    exact (List.mem_filter.1 ((List.perm_insertionSort _ _).mem_iff.1 ht)).1
  | setAgent id agentLevel commissionRate isSales commissionFrozen =>
    exact ⟨s.ledger, .refl _ _, .inl rfl⟩

theorem step_keeps (s : Store) (call : Call) : Keeps s call (step s call) := by
  intro e he
  obtain ⟨l, hgrows, heq | ⟨opts, now, hcall, hmarks⟩⟩ := step_ledger s call
  · exact .inl (heq ▸ hgrows.kept e he)
  · refine (hmarks.kept e (hgrows.kept e he)).imp_right fun ⟨⟨happroved, hpos⟩, hpaid⟩ => ?_
    exact ⟨opts, now, hcall, happroved, hpos, hpaid⟩

theorem mem_step (he : e ∈ (step s call).ledger.entries) :
    ∃ e₀, Same e e₀ ∧ (e₀ ∈ s.ledger.entries ∨
      Inserts s call e₀ ∧ ∀ e' ∈ s.ledger.entries, e'.idempotencyKey ≠ e₀.idempotencyKey) := by
  obtain ⟨l, hgrows, hledger⟩ := step_ledger s call
  have hback : ∃ e₀ ∈ l.entries, Same e e₀ := by
    rcases hledger with heq | ⟨opts, now, -, hmarks⟩
    · exact ⟨e, heq ▸ he, .inl rfl⟩
    · rcases hmarks.back e he with hmem | ⟨e₀, hmem, -, rfl⟩
      · exact ⟨e, hmem, .inl rfl⟩
      · exact ⟨e₀, hmem, .inr ⟨now, rfl⟩⟩
  obtain ⟨e₀, hmem, hsame⟩ := hback
  refine ⟨e₀, hsame, ?_⟩
  by_cases hold : e₀ ∈ s.ledger.entries
  · exact .inl hold
  · have hinserts := (hgrows.added e₀ hmem).resolve_left hold
    exact .inr ⟨hinserts, fun e' he' => hgrows.key_ne he' hmem hold⟩

theorem step_frame (s : Store) (call : Call) :
    (step s call).topUps = s.topUps ∧ inviterOf (step s call).users = inviterOf s.users := by
  cases call with
  | accrue opts now topupId =>
    unfold step
    dsimp only
    split
    · exact ⟨rfl, rfl⟩
    unfold accrueTopupCommission
    split
    · exact ⟨rfl, rfl⟩
    split
    · exact ⟨rfl, rfl⟩
    · exact ⟨rfl, rfl⟩
  | backfill opts now => exact ⟨rfl, rfl⟩
  | setAgent id agentLevel commissionRate isSales commissionFrozen =>
    exact ⟨rfl, @inviterOf_modify _ _ _ (reappointed_id _ _ _ _) fun _ => rfl⟩

theorem Issued.step (h : Issued s e) (call : Call) : Issued (step s call) e := by
  obtain ⟨htopUps, hinviter⟩ := step_frame s call
  refine ⟨h.source, ?_, ?_, h.amount, h.key⟩
  · rw [htopUps]
    exact h.topUp
  · rw [nthInviter_congr hinviter]
    exact h.upline

theorem issued_step (h : ∀ e ∈ s.ledger.entries, Issued s e) (call : Call) :
    ∀ e ∈ (step s call).ledger.entries, Issued (step s call) e := by
  intro e he
  obtain ⟨e₀, hsame, hmem | ⟨hinserts, -⟩⟩ := mem_step he
  · exact ((h e₀ hmem).same hsame).step call
  · exact (hinserts.issued.same hsame).step call

theorem atMostOnce (h : ∀ e ∈ s.ledger.entries, Issued s e) : AtMostOnce s := by
  intro e he e' he' hsource hagent
  have hkey : e.idempotencyKey = e'.idempotencyKey := by
    rw [(h e he).key, (h e' he').key, hsource, hagent]
  exact List.inj_on_of_nodup_map s.ledger.uniqueKey he he' hkey

theorem FirstInserted.append {calls : List Call} (h : FirstInserted s calls e₀) (hsame : Same e e₀)
    (call : Call) : FirstInserted s (calls ++ [call]) e := by
  obtain ⟨before, first, after, rfl, hnone, hinserts⟩ := h
  refine ⟨before, first, after ++ [call], ?_, ?_, hinserts.same hsame⟩
  · rw [List.append_assoc, List.cons_append]
  · rcases hsame with rfl | ⟨now, rfl⟩
    · exact hnone
    · exact hnone

theorem firstInserted_run (hempty : ∀ e ∈ s.ledger.entries, False) (calls : List Call) :
    ∀ e ∈ (run step s calls).ledger.entries,
      Issued (run step s calls) e ∧ FirstInserted s calls e := by
  induction calls using List.reverseRecOn with
  | nil => exact fun e he => (hempty e he).elim
  | append_singleton calls call ih =>
    intro e he
    have hlast : run step s (calls ++ [call]) = step (run step s calls) call := run_append
    rw [hlast] at he ⊢
    refine ⟨issued_step (fun e he => (ih e he).1) call e he, ?_⟩
    obtain ⟨e₀, hsame, hmem | ⟨hinserts, hfree⟩⟩ := mem_step he
    · exact (ih e₀ hmem).2.append hsame call
    · have hinserts' := hinserts.same hsame
      refine ⟨calls, call, [], rfl, fun e' he' hsource hagent => hfree e' he' ?_, hinserts'⟩
      have hkey : e.idempotencyKey = e₀.idempotencyKey := by
        rcases hsame with rfl | ⟨now, rfl⟩
        · rfl
        · rfl
      rw [(ih e' he').1.key, ← hkey, hinserts'.issued.key, hsource, hagent]

end

/-- In every run from an empty ledger, each top-up has at most one entry for an agent, who is among the first
three inviters of the customer; what is there stays, but for what a backfill pays; and the commissions of a
top-up are base amounts by rates, each as its entry was first inserted. -/
theorem accrued_once (users : Table SalesUser.id) (topUps : Table PaidTopUp.id)
    (withdrawals : Table AgentWithdrawal.id) (calls : List Call) :
    let s : Store := ⟨users, topUps, .empty, withdrawals⟩
    let s' := run step s calls
    AtMostOnce s' ∧ (∀ e ∈ s'.ledger.entries, Issued s' e) ∧ Always step Keeps s calls ∧
      ∀ topupId, commission topupId s' = s'.ledger.entries.sumWhere
          (fun e => e.sourceType = .topup ∧ e.sourceId = topupId) (fun e => e.baseAmount * e.rate) ∧
        ∀ e ∈ s'.ledger.entries, FirstInserted s calls e := by
  intro s s'
  have hrun := firstInserted_run (s := s) (fun _ he => absurd he List.not_mem_nil) calls
  have hissued : ∀ e ∈ s'.ledger.entries, Issued s' e := fun e he => (hrun e he).1
  refine ⟨atMostOnce hissued, hissued, ?_, fun topupId => ⟨?_, fun e he => (hrun e he).2⟩⟩
  · exact (meets_of_forall fun _ _ => trivial : Meets step (fun _ _ => True) s calls).always
      (I := fun _ => True) (fun _ _ _ _ => trivial) (fun s call _ _ => step_keeps s call) trivial
  · exact Table.sumWhere_congr_column fun e he _ => (hissued e he).amount

/-! ### A backfill replayed -/

/-- Agent 1 has invited customer 2. -/
def invited : Table SalesUser.id :=
  (Table.insertNew .empty { id := 1, agentLevel := 1 }).insertNew { id := 2, inviterId := 1 }

/-- Two top-ups of 2000. -/
def twoTopUps : Table PaidTopUp.id :=
  (Table.insertNew .empty { id := 1, userId := 2, money := 2000, status := .success }).insertNew
    { id := 2, userId := 2, money := 2000, status := .success }

/-- The agent has withdrawn 60. -/
def withdrawn : Table AgentWithdrawal.id :=
  Table.insertNew .empty { id := 1, agentId := 1, amount := 60, status := .approved, createdAt := 500 }

/-- The first backfill pays one of its two entries, and the second one the other. -/
theorem backfill_alters :
    ¬ Always step (fun s _ s' => ∀ e ∈ s.ledger.entries, e ∈ s'.ledger.entries)
      ⟨invited, twoTopUps, .empty, withdrawn⟩ [.backfill {} 1000, .backfill {} 2000] := by
  rintro ⟨-, hsecond, -⟩
  exact absurd hsecond (by decide +kernel)

end Accrual

end NewApi.Sales

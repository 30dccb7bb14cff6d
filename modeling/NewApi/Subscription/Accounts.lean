import NewApi.Lib.Drawing
import NewApi.Lib.Table
import Mathlib.Data.Prod.Lex
import Mathlib.Data.Rat.Defs
import Mathlib.Algebra.Order.Field.Rat

/-!
# Selecting an account of the pool

The accounts of a platform are read by a query and filtered again in memory, where a time that is exactly now counts
the other way: the query passes over an account whose block ends now, and `isSchedulable` does not. So what is selected is
the least account of those that can be scheduled, and a failover goes through all of them, where no block ends at
that very time (`selects_iff`).
-/

namespace NewApi.Subscription

/-- The columns that scheduling reads; times are in nanoseconds, and `none` is NULL or the zero time. -/
structure SubscriptionAccount where
  id : ℕ
  platform : String
  accountType : String
  expiresAt : Option ℤ
  status : String
  priority : ℤ
  schedulable : Bool
  rateLimitResetAt : Option ℤ
  overloadUntil : Option ℤ
  unschedulableUntil : Option ℤ
  usageLimit : ℚ
  usedThisMonth : ℚ
  deletedAt : Option ℤ
  deriving DecidableEq

def subAccountStatusActive : String := "active"

def subAccountTypeAPIKey : String := "api_key"

def subAccountTypeBedrock : String := "bedrock"

namespace SubscriptionAccount

def isSchedulable (sa : SubscriptionAccount) (now : ℤ) : Bool :=
  if ¬ sa.schedulable ∨ sa.status ≠ subAccountStatusActive then false
  else if sa.expiresAt.any (· < now) ∧ sa.accountType ≠ subAccountTypeAPIKey ∧ sa.accountType ≠ subAccountTypeBedrock then
    false
  else if sa.unschedulableUntil.any (now < ·) then false
  else if sa.overloadUntil.any (now < ·) then false
  else if 0 < sa.usageLimit ∧ sa.usageLimit ≤ sa.usedThisMonth then false
  else true

def isRateLimited (sa : SubscriptionAccount) (now : ℤ) : Bool := sa.rateLimitResetAt.any (now < ·)

/-- Accounts are ordered by priority, then by usage. -/
def rank (sa : SubscriptionAccount) : ℤ ×ₗ ℚ := toLex (sa.priority, sa.usedThisMonth)

end SubscriptionAccount

/-- The tables of the pool: the accounts, and the pairs of an account and a group. -/
structure Pool where
  accounts : Table SubscriptionAccount.id
  accountGroups : Table (id : ℕ × ℕ → ℕ × ℕ)

section
variable (sorter : Sorter SubscriptionAccount.rank) (pool : Pool) (platform : String) (groupID : ℕ) (now : ℤ)

/-- The conditions of the query. -/
def inQuery (sa : SubscriptionAccount) : Bool :=
  sa.deletedAt = none ∧ sa.platform = platform ∧ sa.status = subAccountStatusActive ∧ sa.schedulable ∧
    sa.unschedulableUntil.all (· < now) ∧ sa.overloadUntil.all (· < now)

/-- The rows of the query, with the join on the group if there is one. -/
def queried : List SubscriptionAccount :=
  let rows := pool.accounts.rows.filter (inQuery platform now)
  sorter.sort (if 0 < groupID then
    rows.flatMap fun sa => (pool.accountGroups.rows.filter fun sag => sag = (sa.id, groupID)).map fun _ => sa
  else rows)

def getSchedulableAccounts : List SubscriptionAccount :=
  (queried sorter pool platform groupID now).filter (·.isSchedulable now)

def selectAccount : Except String SubscriptionAccount :=
  let accounts := getSchedulableAccounts sorter pool platform groupID now
  if accounts = [] then .error ("平台 " ++ platform ++ " 分组 " ++ toString groupID ++ " 暂无可用账号")
  else
    let normal := accounts.filter (¬ ·.isRateLimited now)
    let rateLimited := accounts.filter (·.isRateLimited now)
    let candidates := if normal = [] then rateLimited else normal
    match sorter.sort candidates with
    | [] => .error ("平台 " ++ platform ++ " 所有账号均不可用")
    | selected :: _ =>
      if 0 < selected.usageLimit ∧ selected.usageLimit ≤ selected.usedThisMonth then .error "所有账号额度已用完"
      else .ok selected

def selectNextAccount (excludeIDs : List ℕ) : Except String SubscriptionAccount :=
  let accounts := getSchedulableAccounts sorter pool platform groupID now
  let candidates := accounts.filter fun a => a.id ∉ excludeIDs ∧ ¬ a.isRateLimited now
  match sorter.sort candidates with
  | [] => .error "故障转移：无更多可用账号"
  | selected :: _ => .ok selected

/-! ## What is promised -/

/-- An account of the platform and the group that can be scheduled. -/
structure Eligible (sa : SubscriptionAccount) : Prop where
  mem : sa ∈ pool.accounts
  live : sa.deletedAt = none
  platform : sa.platform = platform
  group : groupID = 0 ∨ (sa.id, groupID) ∈ pool.accountGroups
  schedulable : sa.isSchedulable now = true

/-- Of accounts with a property, a least one of those that are not rate-limited, or of all of them if each is; and an
error if there is none. -/
def SelectsLeast (P : SubscriptionAccount → Prop) : Except String SubscriptionAccount → Prop
  | .ok a => P a ∧ (a.isRateLimited now = true → ∀ b, P b → b.isRateLimited now = true) ∧
      ∀ b, P b → b.isRateLimited now = a.isRateLimited now → a.rank ≤ b.rank
  | .error _ => ∀ a, ¬ P a

/-- Selecting again and again, without those before, goes through all accounts that are not rate-limited, each once and
in order, and then fails. -/
def Visits : Prop :=
  ∃ l, Drawing (fun excludeIDs => (selectNextAccount sorter pool platform groupID now excludeIDs).toOption)
      SubscriptionAccount.id [] l ∧
    l.Pairwise (fun a b => a.rank ≤ b.rank) ∧ l.Nodup ∧
    ∀ a, a ∈ l ↔ Eligible pool platform groupID now a ∧ a.isRateLimited now = false

structure Selects : Prop where
  least : SelectsLeast now (Eligible pool platform groupID now) (selectAccount sorter pool platform groupID now)
  visits : Visits sorter pool platform groupID now

/-- No block of the account ends at this very time. -/
def OffEdge (sa : SubscriptionAccount) : Prop := sa.unschedulableUntil ≠ some now ∧ sa.overloadUntil ≠ some now

instance : DecidablePred (OffEdge now) := fun _ => inferInstanceAs (Decidable (_ ∧ _))

/-- No account that could be selected has a block that ends at this very time: none that is not rate-limited, and, if each
is rate-limited, not all of the least ones. -/
structure EdgeFree : Prop where
  normal : ∀ a, Eligible pool platform groupID now a → a.isRateLimited now = false → OffEdge now a
  limited : (∀ a, Eligible pool platform groupID now a → a.isRateLimited now = true) →
    ∀ a, Eligible pool platform groupID now a →
      ∃ b, Eligible pool platform groupID now b ∧ OffEdge now b ∧ b.rank ≤ a.rank

end

/-! ## The two filters -/

section
variable {sorter : Sorter SubscriptionAccount.rank} {pool : Pool} {platform : String} {groupID : ℕ} {now : ℤ}
  {sa a b : SubscriptionAccount}

theorem isSchedulable_iff : sa.isSchedulable now = true ↔
    sa.schedulable = true ∧ sa.status = subAccountStatusActive ∧
    ¬ (sa.expiresAt.any (· < now) = true ∧ sa.accountType ≠ subAccountTypeAPIKey ∧ sa.accountType ≠ subAccountTypeBedrock) ∧
    sa.unschedulableUntil.any (now < ·) = false ∧ sa.overloadUntil.any (now < ·) = false ∧
    ¬ (0 < sa.usageLimit ∧ sa.usageLimit ≤ sa.usedThisMonth) := by
  unfold SubscriptionAccount.isSchedulable
  split
  next h => exact iff_of_false nofun fun hsa => h.elim (· hsa.1) (· hsa.2.1)
  next h =>
    obtain ⟨hschedulable, hstatus⟩ := not_or.1 h
    rw [not_not] at hschedulable hstatus
    split
    next h => exact iff_of_false nofun fun hsa => hsa.2.2.1 h
    next hexpired =>
      split
      next h => exact iff_of_false nofun fun hsa => absurd (h.symm.trans hsa.2.2.2.1) nofun
      next hunschedulable =>
        split
        next h => exact iff_of_false nofun fun hsa => absurd (h.symm.trans hsa.2.2.2.2.1) nofun
        next hoverload =>
          split
          next h => exact iff_of_false nofun fun hsa => hsa.2.2.2.2.2 h
          next hlimit =>
            exact iff_of_true rfl ⟨hschedulable, hstatus, hexpired, Bool.eq_false_iff.2 hunschedulable,
              Bool.eq_false_iff.2 hoverload, hlimit⟩

theorem all_lt_iff {t : Option ℤ} : t.all (· < now) = true ↔ t.any (now < ·) = false ∧ t ≠ some now := by
  cases t with
  | none => simp
  | some t =>
    simp only [Option.all_some, Option.any_some, decide_eq_true_iff, decide_eq_false_iff_not, not_lt, ne_eq,
      Option.some.injEq]
    exact lt_iff_le_and_ne

theorem mem_queried : a ∈ queried sorter pool platform groupID now ↔
    a ∈ pool.accounts ∧ inQuery platform now a = true ∧ (groupID = 0 ∨ (a.id, groupID) ∈ pool.accountGroups) := by
  unfold queried
  rw [Sorter.mem_sort]
  split
  next hgroup =>
    rw [List.mem_flatMap]
    constructor
    · rintro ⟨b, hb, ha⟩
      obtain ⟨sag, hsag, rfl⟩ := List.mem_map.1 ha
      obtain ⟨hmem, hin⟩ := List.mem_filter.1 hb
      obtain ⟨hsag, heq⟩ := List.mem_filter.1 hsag
      exact ⟨hmem, hin, .inr (of_decide_eq_true heq ▸ hsag)⟩
    · rintro ⟨hmem, hin, hgroups⟩
      refine ⟨a, List.mem_filter.2 ⟨hmem, hin⟩, List.mem_map.2 ⟨(a.id, groupID), ?_, rfl⟩⟩
      exact List.mem_filter.2 ⟨hgroups.resolve_left (Nat.ne_of_gt hgroup), decide_eq_true rfl⟩
  next hgroup =>
    have hzero : groupID = 0 := Nat.eq_zero_of_not_pos hgroup
    rw [List.mem_filter]
    exact and_congr_right fun _ => (and_iff_left (.inl hzero)).symm

/-- What the two filters leave. -/
def Found (pool : Pool) (platform : String) (groupID : ℕ) (now : ℤ) (a : SubscriptionAccount) : Prop :=
  Eligible pool platform groupID now a ∧ OffEdge now a

theorem mem_getSchedulableAccounts : a ∈ getSchedulableAccounts sorter pool platform groupID now ↔
    Found pool platform groupID now a := by
  unfold getSchedulableAccounts
  rw [List.mem_filter, mem_queried]
  unfold inQuery
  rw [decide_eq_true_iff, all_lt_iff, all_lt_iff]
  constructor
  · rintro ⟨⟨hmem, ⟨hlive, hplatform, -, -, hun, hover⟩, hgroup⟩, hsched⟩
    exact ⟨⟨hmem, hlive, hplatform, hgroup, hsched⟩, hun.2, hover.2⟩
  · rintro ⟨h, hedge⟩
    obtain ⟨hschedulable, hstatus, -, hun, hover, -⟩ := isSchedulable_iff.1 h.schedulable
    exact ⟨⟨h.mem, ⟨h.live, h.platform, hstatus, hschedulable, ⟨hun, hedge.1⟩, hover, hedge.2⟩, h.group⟩, h.schedulable⟩

/-! ## The least account -/

theorem mem_candidates (now : ℤ) (accounts : List SubscriptionAccount) :
    b ∈ (if accounts.filter (¬ ·.isRateLimited now) = [] then accounts.filter (·.isRateLimited now)
      else accounts.filter (¬ ·.isRateLimited now)) ↔
      b ∈ accounts ∧ (b.isRateLimited now = true → ∀ c ∈ accounts, c.isRateLimited now = true) := by
  split
  next hnil =>
    have hall : ∀ c ∈ accounts, c.isRateLimited now = true := by
      simpa only [List.filter_eq_nil_iff, decide_eq_true_iff, not_not] using hnil
    rw [List.mem_filter]
    exact and_congr_right fun hb => iff_of_true (hall b hb) fun _ => hall
  next hne =>
    rw [List.mem_filter, decide_eq_true_iff]
    refine and_congr_right fun hb => imp_congr_right fun hlimited => iff_of_false id fun hall => hne ?_
    exact List.filter_eq_nil_iff.2 fun c hc => by simp [hall c hc]

theorem selectAccount_selects (sorter : Sorter SubscriptionAccount.rank) (pool : Pool) (platform : String) (groupID : ℕ)
    (now : ℤ) :
    SelectsLeast now (Found pool platform groupID now) (selectAccount sorter pool platform groupID now) := by
  unfold selectAccount
  dsimp only
  generalize hacc : getSchedulableAccounts sorter pool platform groupID now = accounts
  have hfound : ∀ a, a ∈ accounts ↔ Found pool platform groupID now a := fun a => hacc ▸ mem_getSchedulableAccounts
  split
  next hnil => exact fun a ha => List.not_mem_nil (hnil ▸ (hfound a).2 ha)
  next hne =>
    have hmem : ∀ b, b ∈ _ ↔ _ := fun b => mem_candidates now accounts
    generalize (if accounts.filter (¬ ·.isRateLimited now) = [] then accounts.filter (·.isRateLimited now)
      else accounts.filter (¬ ·.isRateLimited now)) = candidates at hmem ⊢
    split
    next hsort =>
      intro a ha
      have hnone := sorter.sort_eq_nil.1 hsort
      have hlimited : ∀ c ∈ accounts, c.isRateLimited now = true := by
        intro c hc
        by_contra hnot
        exact List.not_mem_nil (hnone ▸ (hmem c).2 ⟨hc, fun h => absurd h hnot⟩)
      exact List.not_mem_nil (hnone ▸ (hmem a).2 ⟨(hfound a).2 ha, fun _ => hlimited⟩)
    next selected rest hsort =>
      obtain ⟨hselected, hleast⟩ := sorter.head?_least le_refl (a := selected) (by rw [hsort]; rfl)
      obtain ⟨hin, hall⟩ := (hmem selected).1 hselected
      have hP := (hfound selected).1 hin
      rw [if_neg (isSchedulable_iff.1 hP.1.schedulable).2.2.2.2.2]
      refine ⟨hP, fun hlimited b hb => hall hlimited b ((hfound b).2 hb), fun b hb hsame => ?_⟩
      exact hleast b ((hmem b).2 ⟨(hfound b).2 hb, fun hlimited => hall (hsame ▸ hlimited)⟩)

theorem least_selectNextAccount (sorter : Sorter SubscriptionAccount.rank) (pool : Pool) (platform : String) (groupID : ℕ)
    (now : ℤ) :
    Drawing.Least (fun excludeIDs => (selectNextAccount sorter pool platform groupID now excludeIDs).toOption)
      SubscriptionAccount.id (fun a b => a.rank ≤ b.rank)
      ((getSchedulableAccounts sorter pool platform groupID now).filter fun a => ¬ a.isRateLimited now) := by
  generalize haccounts : getSchedulableAccounts sorter pool platform groupID now = accounts
  have hpick : ∀ excludeIDs, (selectNextAccount sorter pool platform groupID now excludeIDs).toOption =
      (sorter.sort (accounts.filter fun a => decide (a.id ∉ excludeIDs ∧ ¬ a.isRateLimited now))).head? := by
    intro excludeIDs
    unfold selectNextAccount
    rw [haccounts]
    dsimp only
    split
    next hsort =>
      rw [hsort]
      rfl
    next selected rest hsort =>
      rw [hsort]
      rfl
  have hmem : ∀ {excludeIDs : List ℕ} {b}, b ∈ (accounts.filter fun a => decide (a.id ∉ excludeIDs ∧ ¬ a.isRateLimited now)) ↔
      b ∈ (accounts.filter fun a => ¬ a.isRateLimited now) ∧ b.id ∉ excludeIDs := by
    intro excludeIDs b
    rw [List.mem_filter, List.mem_filter, decide_eq_true_iff, decide_eq_true_iff, and_assoc, and_comm (a := b.id ∉ excludeIDs)]
  constructor
  · intro excludeIDs
    rw [hpick, List.head?_eq_none_iff, sorter.sort_eq_nil, List.eq_nil_iff_forall_not_mem]
    exact forall_congr' fun a => by rw [hmem, not_and, not_not]
  · intro excludeIDs a h
    rw [hpick] at h
    exact hmem.1 (sorter.head?_least le_refl h).1
  · intro excludeIDs a h b hb hnot
    rw [hpick] at h
    exact (sorter.head?_least le_refl h).2 b (hmem.2 ⟨hb, hnot⟩)

theorem draws_found {l : List SubscriptionAccount}
    (h : Drawing (fun excludeIDs => (selectNextAccount sorter pool platform groupID now excludeIDs).toOption)
      SubscriptionAccount.id [] l) :
    l.Pairwise (fun a b => a.rank ≤ b.rank) ∧ l.Nodup ∧
      ∀ a, a ∈ l ↔ Found pool platform groupID now a ∧ a.isRateLimited now = false := by
  have hpick := least_selectNextAccount sorter pool platform groupID now
  have hmem : ∀ a, a ∈ ((getSchedulableAccounts sorter pool platform groupID now).filter fun a => ¬ a.isRateLimited now) ↔
      Found pool platform groupID now a ∧ a.isRateLimited now = false := by
    intro a
    rw [List.mem_filter, mem_getSchedulableAccounts, decide_eq_true_iff, Bool.not_eq_true]
  obtain ⟨hordered, hnodup⟩ := h.ordered hpick
  refine ⟨hordered, List.Nodup.of_map _ hnodup, fun a => ⟨fun ha => (hmem a).1 (h.mem_left hpick a ha).1, fun ha => ?_⟩⟩
  obtain hdrawn | hdrawn := h.complete hpick a ((hmem a).2 ha)
  · exact absurd hdrawn List.not_mem_nil
  · obtain ⟨b, hb, hid⟩ := List.mem_map.1 hdrawn
    have hfound := ((hmem b).1 (h.mem_left hpick b hb).1).1
    rwa [← pool.accounts.eq_of_key_eq hfound.1.mem ha.1.1.mem hid]

theorem visits_iff : Visits sorter pool platform groupID now ↔
    ∀ a, Eligible pool platform groupID now a → a.isRateLimited now = false → OffEdge now a := by
  constructor
  · rintro ⟨l, hdraws, -, -, hmem⟩ a ha hlimited
    exact (((draws_found hdraws).2.2 a).1 ((hmem a).2 ⟨ha, hlimited⟩)).1.2
  · intro h
    obtain ⟨l, hdraws⟩ := exists_drawing (least_selectNextAccount sorter pool platform groupID now) []
    obtain ⟨hordered, hnodup, hmem⟩ := draws_found hdraws
    refine ⟨l, hdraws, hordered, hnodup, fun a => (hmem a).trans ⟨fun ha => ⟨ha.1.1, ha.2⟩, fun ha => ?_⟩⟩
    exact ⟨⟨ha.1, h a ha.1 ha.2⟩, ha.2⟩

/-- The account selected is the least one, and a failover goes through all, just where no block that matters ends at
this very time. -/
theorem selects_iff (sorter : Sorter SubscriptionAccount.rank) (pool : Pool) (platform : String) (groupID : ℕ) (now : ℤ) :
    Selects sorter pool platform groupID now ↔ EdgeFree pool platform groupID now := by
  have hselects := selectAccount_selects sorter pool platform groupID now
  constructor
  · rintro ⟨hleast, hvisits⟩
    refine ⟨visits_iff.1 hvisits, fun hlimited a ha => ?_⟩
    cases hr : selectAccount sorter pool platform groupID now with
    | error e =>
      rw [hr] at hleast
      exact absurd ha (hleast a)
    | ok b =>
      rw [hr] at hleast hselects
      refine ⟨b, hleast.1, hselects.1.2, hleast.2.2 a ha ?_⟩
      rw [hlimited a ha, hlimited b hleast.1]
  · rintro ⟨hnormal, hlimited⟩
    refine ⟨?_, visits_iff.2 hnormal⟩
    have hall : (∀ b, Found pool platform groupID now b → b.isRateLimited now = true) →
        ∀ b, Eligible pool platform groupID now b → b.isRateLimited now = true := by
      intro h b hb
      cases hrate : b.isRateLimited now with
      | true => rfl
      | false => exact (h b ⟨hb, hnormal b hb hrate⟩).symm.trans hrate |>.symm
    cases hr : selectAccount sorter pool platform groupID now with
    | error e =>
      rw [hr] at hselects
      intro a ha
      obtain ⟨b, hb, hedge, -⟩ := hlimited (hall fun b hb => absurd hb (hselects b)) a ha
      exact hselects b ⟨hb, hedge⟩
    | ok a =>
      rw [hr] at hselects
      obtain ⟨hfound, hrate, hleast⟩ := hselects
      refine ⟨hfound.1, fun h => hall (hrate h), fun b hb hsame => ?_⟩
      cases hb' : b.isRateLimited now with
      | false => exact hleast b ⟨hb, hnormal b hb hb'⟩ hsame
      | true =>
        -- All are rate-limited, so a least one of them has been found.
        have hall' := hall (hrate (hsame ▸ hb'))
        obtain ⟨c, hc, hedge, hle⟩ := hlimited hall' b hb
        exact le_trans (hleast c ⟨hc, hedge⟩ (by rw [hall' c hc, ← hsame, hb'])) hle

/-- An account whose block ends at 100. -/
def blockedAccount : SubscriptionAccount where
  id := 1
  platform := "claude"
  accountType := "oauth"
  expiresAt := none
  status := "active"
  priority := 0
  schedulable := true
  rateLimitResetAt := none
  overloadUntil := none
  unschedulableUntil := some 100
  usageLimit := 0
  usedThisMonth := 0
  deletedAt := none

def blockedPool : Pool where
  accounts := ⟨[blockedAccount], List.nodup_singleton _⟩
  accountGroups := Table.empty

/-- At 100 it can be scheduled, but is not found. -/
theorem not_selects_blocked : ¬ Selects (Sorter.insertion SubscriptionAccount.rank) blockedPool "claude" 0 100 := by
  intro h
  have heligible : Eligible blockedPool "claude" 0 100 blockedAccount :=
    { mem := List.mem_singleton_self _
      live := rfl
      platform := rfl
      group := .inl rfl
      schedulable := by decide }
  exact absurd (visits_iff.1 h.visits blockedAccount heligible rfl) (by decide)

end

end NewApi.Subscription

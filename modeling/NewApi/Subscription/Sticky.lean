import NewApi.Lib.GoString
import NewApi.Subscription.Accounts

/-!
# Sticky accounts

An API key keeps the account that it was given on a platform. `getStickyAccount` looks for the binding of the key on the
platform, and `assignNewStickyAccount` makes one; if the database finds the key taken, it goes back to the first, which is to
find the binding that is in the way. But the unique index is on the key alone, so that the binding in the way may be
for another platform: then the two call each other as long as there is an account to select (`settles_iff`).
-/

namespace NewApi.Subscription

structure StickySession where
  id : ℕ
  userID : ℕ
  apiKey : String
  accountID : ℕ
  platform : String
  groupID : ℕ
  lastAssigned : ℤ
  deriving DecidableEq

/-- The unique index of the sessions is on the key. -/
structure StickyStore where
  pool : Pool
  sessions : Table StickySession.apiKey

inductive StickyCall
  | getStickyAccount
  | assignNewStickyAccount

/-- What a call comes to: it returns, or calls one of the two. -/
inductive StickyTurn
  | returns (r : Except String SubscriptionAccount)
  | calls (f : StickyCall)

/-- `DB.Delete(&sticky)`. -/
def StickyStore.delete (store : StickyStore) (sticky : StickySession) : StickyStore :=
  { store with sessions := store.sessions.filter fun s => s.id ≠ sticky.id }

/-- `DB.Model(&sticky).Update("last_assigned", now)`. -/
def StickyStore.touch (store : StickyStore) (sticky : StickySession) (now : ℤ) : StickyStore :=
  { store with
    sessions := store.sessions.modifyWhere (fun s => s.id = sticky.id) (fun s => { s with lastAssigned := now }) (fun _ => rfl) }

section
variable (sorter : Sorter SubscriptionAccount.rank) (violation : String) (clock : ℕ → ℤ) (userID : ℕ)
  (platform apiKey : String) (groupID : ℕ)

/-- The error of the database is taken for a key that is taken. -/
def takenForDuplicate (err : String) : Bool := GoString.contains err "unique" ∨ GoString.contains err "duplicate"

def getSubscriptionAccountByID (pool : Pool) (id : ℕ) : Option SubscriptionAccount :=
  (pool.accounts.get? id).filter fun a => a.deletedAt = none

def getStickyAccount (now : ℤ) (store : StickyStore) : StickyStore × StickyTurn :=
  match store.sessions.rows.find? fun s => s.apiKey = apiKey ∧ s.platform = platform with
  | none => (store, .calls .assignNewStickyAccount)
  | some sticky =>
    match (getSubscriptionAccountByID store.pool sticky.accountID).filter (·.isSchedulable now) with
    | none => (store.delete sticky, .calls .assignNewStickyAccount)
    | some account => (store.touch sticky now, .returns (.ok account))

/-- `violation` is the text of the error for a key that is taken. -/
def assignNewStickyAccount (now : ℤ) (store : StickyStore) : StickyStore × StickyTurn :=
  match selectAccount sorter store.pool platform groupID now with
  | .error err => (store, .returns (.error err))
  | .ok account =>
    let sticky : StickySession := {
      id := store.sessions.rows.foldr (fun s n => max (s.id + 1) n) 1
      userID := userID
      apiKey := apiKey
      accountID := account.id
      platform := platform
      groupID := groupID
      lastAssigned := now }
    match store.sessions.get? apiKey with
    | none => ({ store with sessions := store.sessions.insertNew sticky }, .returns (.ok account))
    | some _ =>
      if takenForDuplicate violation then (store, .calls .getStickyAccount) else (store, .returns (.error violation))

def stickyTurn (now : ℤ) (store : StickyStore) : StickyCall → StickyStore × StickyTurn
  | .getStickyAccount => getStickyAccount platform apiKey now store
  | .assignNewStickyAccount => assignNewStickyAccount sorter violation userID platform apiKey groupID now store

/-- A call returns, after the calls that it makes; the clock gives each call its time. -/
inductive Returns : ℕ → StickyStore → StickyCall → StickyStore → Except String SubscriptionAccount → Prop
  | returns {n : ℕ} {store store' : StickyStore} {f : StickyCall} {r : Except String SubscriptionAccount} :
      stickyTurn sorter violation userID platform apiKey groupID (clock n) store f = (store', .returns r) →
      Returns n store f store' r
  | calls {n : ℕ} {store store' store'' : StickyStore} {f f' : StickyCall} {r : Except String SubscriptionAccount} :
      stickyTurn sorter violation userID platform apiKey groupID (clock n) store f = (store', .calls f') →
      Returns (n + 1) store' f' store'' r → Returns n store f store'' r

/-- An account that is returned is of the platform, and the binding of the key for the platform points to it. -/
def IsBound (store : StickyStore) (r : Except String SubscriptionAccount) : Prop :=
  ∀ a, r = .ok a → a.platform = platform ∧
    ∃ s ∈ store.sessions, s.apiKey = apiKey ∧ s.platform = platform ∧ s.accountID = a.id

/-- The call returns, and what it returns is bound. -/
def Settles (n : ℕ) (store : StickyStore) (f : StickyCall) : Prop :=
  ∃ store' r, Returns sorter violation clock userID platform apiKey groupID n store f store' r ∧
    IsBound platform apiKey store' r

/-- The account of a binding, if it can be used, is of the platform. -/
def Fits (now : ℤ) (pool : Pool) (s : StickySession) : Prop :=
  ∀ a, getSubscriptionAccountByID pool s.accountID = some a → a.isSchedulable now = true → a.platform = platform

/-- The binding of the key, if there is one, is for the platform and its account fits; or it is for another platform and
ends the calls: the error is not taken for a key that is taken, or at the time of one of the calls there is no account to select. -/
def Conflictless (n : ℕ) (store : StickyStore) : StickyCall → Prop
  | .getStickyAccount => ∀ s ∈ store.sessions, s.apiKey = apiKey →
      if s.platform = platform then Fits platform (clock n) store.pool s
      else takenForDuplicate violation = true →
        ∃ k, ∀ a, ¬ Found store.pool platform groupID (clock (n + 2 * k + 1)) a
  | .assignNewStickyAccount => takenForDuplicate violation = true →
      (∃ a, Found store.pool platform groupID (clock n) a) → ∀ s ∈ store.sessions, s.apiKey = apiKey →
        if s.platform = platform then Fits platform (clock (n + 1)) store.pool s
        else ∃ k, ∀ a, ¬ Found store.pool platform groupID (clock (n + 2 * k)) a

end

/-! ## One call -/

section
variable {sorter : Sorter SubscriptionAccount.rank} {violation : String} {clock : ℕ → ℤ} {userID : ℕ}
  {platform apiKey : String} {groupID n : ℕ} {now : ℤ} {pool : Pool} {store store' : StickyStore} {s : StickySession}
  {a : SubscriptionAccount} {f f' : StickyCall} {r : Except String SubscriptionAccount}

theorem settles_of_returns
    (h : stickyTurn sorter violation userID platform apiKey groupID (clock n) store f = (store', .returns r)) :
    Settles sorter violation clock userID platform apiKey groupID n store f ↔ IsBound platform apiKey store' r := by
  constructor
  · rintro ⟨store'', r', hreturns, hbound⟩
    cases hreturns with
    | returns h' =>
      rw [h] at h'
      cases h'
      exact hbound
    | calls h' _ =>
      rw [h] at h'
      cases h'
  · exact fun hbound => ⟨store', r, .returns h, hbound⟩

theorem settles_of_calls
    (h : stickyTurn sorter violation userID platform apiKey groupID (clock n) store f = (store', .calls f')) :
    Settles sorter violation clock userID platform apiKey groupID n store f ↔
      Settles sorter violation clock userID platform apiKey groupID (n + 1) store' f' := by
  constructor
  · rintro ⟨store'', r', hreturns, hbound⟩
    cases hreturns with
    | returns h' =>
      rw [h] at h'
      cases h'
    | calls h' hrest =>
      rw [h] at h'
      cases h'
      exact ⟨store'', r', hrest, hbound⟩
  · rintro ⟨store'', r', hrest, hbound⟩
    exact ⟨store'', r', .calls h hrest, hbound⟩

theorem isBound_error {err : String} : IsBound platform apiKey store (.error err) := by
  intro a ha
  cases ha

theorem selectAccount_ok_iff (sorter : Sorter SubscriptionAccount.rank) :
    (∃ a, selectAccount sorter pool platform groupID now = .ok a) ↔ ∃ a, Found pool platform groupID now a := by
  have hselects := selectAccount_selects sorter pool platform groupID now
  cases hr : selectAccount sorter pool platform groupID now with
  | error err =>
    rw [hr] at hselects
    refine iff_of_false ?_ fun ⟨a, ha⟩ => hselects a ha
    rintro ⟨a, ha⟩
    cases ha
  | ok a =>
    rw [hr] at hselects
    exact iff_of_true ⟨a, rfl⟩ ⟨a, hselects.1⟩

theorem found_of_selectAccount (h : selectAccount sorter pool platform groupID now = .ok a) :
    Found pool platform groupID now a := by
  have hselects := selectAccount_selects sorter pool platform groupID now
  rw [h] at hselects
  exact hselects.1

theorem settles_assign_free (h : store.sessions.get? apiKey = none) :
    Settles sorter violation clock userID platform apiKey groupID n store .assignNewStickyAccount := by
  cases hr : selectAccount sorter store.pool platform groupID (clock n) with
  | error err =>
    have hturn : stickyTurn sorter violation userID platform apiKey groupID (clock n) store .assignNewStickyAccount =
        (store, .returns (.error err)) := by
      simp only [stickyTurn, assignNewStickyAccount, hr]
    exact (settles_of_returns hturn).2 isBound_error
  | ok account =>
    refine ⟨_, .ok account, .returns (by simp only [stickyTurn, assignNewStickyAccount, hr, h]; rfl), fun a ha => ?_⟩
    cases ha
    refine ⟨(found_of_selectAccount hr).1.platform, _, Table.mem_insertNew.2 (.inr ⟨rfl, Table.get?_eq_none.1 h⟩), rfl, rfl, rfl⟩

/-- Where the key is taken, the call goes back, unless nothing is selected or the error is not taken for that. -/
theorem settles_assign_taken (h : store.sessions.get? apiKey = some s) :
    Settles sorter violation clock userID platform apiKey groupID n store .assignNewStickyAccount ↔
      (takenForDuplicate violation = true → (∃ a, Found store.pool platform groupID (clock n) a) →
        Settles sorter violation clock userID platform apiKey groupID (n + 1) store .getStickyAccount) := by
  rw [← selectAccount_ok_iff sorter]
  cases hr : selectAccount sorter store.pool platform groupID (clock n) with
  | error err =>
    have hturn : stickyTurn sorter violation userID platform apiKey groupID (clock n) store .assignNewStickyAccount =
        (store, .returns (.error err)) := by
      simp only [stickyTurn, assignNewStickyAccount, hr]
    refine iff_of_true ((settles_of_returns hturn).2 isBound_error) ?_
    rintro - ⟨a, ha⟩
    cases ha
  | ok account =>
    by_cases hdup : takenForDuplicate violation = true
    · have hturn : stickyTurn sorter violation userID platform apiKey groupID (clock n) store .assignNewStickyAccount =
          (store, .calls .getStickyAccount) := by
        simp only [stickyTurn, assignNewStickyAccount, hr, h, if_pos hdup]
      rw [settles_of_calls hturn]
      exact ⟨fun hs _ _ => hs, fun hs => hs hdup ⟨account, rfl⟩⟩
    · have hturn : stickyTurn sorter violation userID platform apiKey groupID (clock n) store .assignNewStickyAccount =
          (store, .returns (.error violation)) := by
        simp only [stickyTurn, assignNewStickyAccount, hr, h, if_neg hdup]
      exact iff_of_true ((settles_of_returns hturn).2 isBound_error) fun hdup' => absurd hdup' hdup

theorem settles_get_none (h : ∀ s ∈ store.sessions, s.apiKey = apiKey → s.platform ≠ platform) :
    Settles sorter violation clock userID platform apiKey groupID n store .getStickyAccount ↔
      Settles sorter violation clock userID platform apiKey groupID (n + 1) store .assignNewStickyAccount := by
  have hnone : (store.sessions.rows.find? fun s => s.apiKey = apiKey ∧ s.platform = platform) = none :=
    List.find?_eq_none.2 fun s hs hp => h s hs (of_decide_eq_true hp).1 (of_decide_eq_true hp).2
  refine settles_of_calls ?_
  simp only [stickyTurn, getStickyAccount, hnone]

theorem find?_session (hs : s ∈ store.sessions) (hkey : s.apiKey = apiKey) (hplatform : s.platform = platform) :
    (store.sessions.rows.find? fun s => s.apiKey = apiKey ∧ s.platform = platform) = some s := by
  cases hfind : store.sessions.rows.find? fun s => s.apiKey = apiKey ∧ s.platform = platform with
  | none => exact absurd (decide_eq_true ⟨hkey, hplatform⟩) (List.find?_eq_none.1 hfind s hs)
  | some t =>
    have ht : t.apiKey = apiKey ∧ t.platform = platform := by simpa using List.find?_some hfind
    rw [store.sessions.eq_of_key_eq (List.mem_of_find?_eq_some hfind) hs (ht.1.trans hkey.symm)]

theorem get?_delete (hs : s ∈ store.sessions) (hkey : s.apiKey = apiKey) :
    (store.delete s).sessions.get? apiKey = none := by
  refine Table.get?_eq_none.2 fun t ht htkey => ?_
  obtain ⟨ht, hid⟩ := Table.mem_filter.1 ht
  exact hid (congrArg StickySession.id (store.sessions.eq_of_key_eq ht hs (htkey.trans hkey.symm)))

theorem mem_touch (now : ℤ) (hs : s ∈ store.sessions) : ∃ t ∈ (store.touch s now).sessions,
    t.apiKey = s.apiKey ∧ t.platform = s.platform ∧ t.accountID = s.accountID := by
  have htouched : { s with lastAssigned := now } ∈ (store.touch s now).sessions.rows :=
    List.mem_map.2 ⟨s, hs, if_pos rfl⟩
  exact ⟨_, htouched, rfl, rfl, rfl⟩

theorem settles_get_bound (hs : s ∈ store.sessions) (hkey : s.apiKey = apiKey) (hplatform : s.platform = platform) :
    Settles sorter violation clock userID platform apiKey groupID n store .getStickyAccount ↔
      Fits platform (clock n) store.pool s := by
  have hfind := find?_session hs hkey hplatform
  unfold Fits
  cases haccount : (getSubscriptionAccountByID store.pool s.accountID).filter (·.isSchedulable (clock n)) with
  | none =>
    have hturn : stickyTurn sorter violation userID platform apiKey groupID (clock n) store .getStickyAccount =
        (store.delete s, .calls .assignNewStickyAccount) := by
      simp only [stickyTurn, getStickyAccount, hfind, haccount]
    rw [settles_of_calls hturn]
    refine iff_of_true (settles_assign_free (get?_delete hs hkey)) fun a ha hschedulable => ?_
    rw [ha, Option.filter_some, if_pos hschedulable] at haccount
    cases haccount
  | some account =>
    have hturn : stickyTurn sorter violation userID platform apiKey groupID (clock n) store .getStickyAccount =
        (store.touch s (clock n), .returns (.ok account)) := by
      simp only [stickyTurn, getStickyAccount, hfind, haccount]
    rw [settles_of_returns hturn]
    obtain ⟨hget, hschedulable⟩ := Option.filter_eq_some_iff.1 haccount
    constructor
    · intro hbound a ha _
      rw [hget] at ha
      rw [← Option.some.inj ha]
      exact (hbound account rfl).1
    · intro hfits a ha
      cases ha
      refine ⟨hfits account hget hschedulable, ?_⟩
      have hid : account.id = s.accountID := Table.key_of_get? (Option.filter_eq_some_iff.1 hget).1
      obtain ⟨t, ht, htkey, htplatform, htid⟩ := mem_touch (clock n) hs
      exact ⟨t, ht, htkey.trans hkey, htplatform.trans hplatform, htid.trans hid.symm⟩

/-! ## The calls in turn -/

theorem stickyTurn_get_conflict (hs : s ∈ store.sessions) (hkey : s.apiKey = apiKey) (hplatform : s.platform ≠ platform) :
    stickyTurn sorter violation userID platform apiKey groupID now store .getStickyAccount =
      (store, .calls .assignNewStickyAccount) := by
  have hnone : (store.sessions.rows.find? fun s => s.apiKey = apiKey ∧ s.platform = platform) = none := by
    refine List.find?_eq_none.2 fun t ht hp => ?_
    obtain ⟨htkey, htplatform⟩ := of_decide_eq_true hp
    rw [store.sessions.eq_of_key_eq ht hs (htkey.trans hkey.symm)] at htplatform
    exact hplatform htplatform
  simp only [stickyTurn, getStickyAccount, hnone]

theorem stickyTurn_assign_conflict (sorter : Sorter SubscriptionAccount.rank) (userID : ℕ) (platform : String) (groupID : ℕ)
    (now : ℤ) (hs : s ∈ store.sessions) (hkey : s.apiKey = apiKey) (hdup : takenForDuplicate violation = true) :
    (∃ err, stickyTurn sorter violation userID platform apiKey groupID now store .assignNewStickyAccount =
        (store, .returns (.error err)) ∧ ∀ a, ¬ Found store.pool platform groupID now a) ∨
      stickyTurn sorter violation userID platform apiKey groupID now store .assignNewStickyAccount =
        (store, .calls .getStickyAccount) ∧ ∃ a, Found store.pool platform groupID now a := by
  have htaken : store.sessions.get? apiKey = some s := Table.get?_eq_some.2 ⟨hs, hkey⟩
  cases hr : selectAccount sorter store.pool platform groupID now with
  | error err =>
    have hselects := selectAccount_selects sorter store.pool platform groupID now
    rw [hr] at hselects
    exact .inl ⟨err, by simp only [stickyTurn, assignNewStickyAccount, hr], hselects⟩
  | ok account =>
    refine .inr ⟨?_, account, found_of_selectAccount hr⟩
    simp only [stickyTurn, assignNewStickyAccount, hr, htaken, if_pos hdup]

theorem exists_none_of_returns (hs : s ∈ store.sessions) (hkey : s.apiKey = apiKey) (hplatform : s.platform ≠ platform)
    (hdup : takenForDuplicate violation = true)
    (h : Returns sorter violation clock userID platform apiKey groupID n store f store' r) :
    match f with
    | .getStickyAccount => ∃ k, ∀ a, ¬ Found store.pool platform groupID (clock (n + 2 * k + 1)) a
    | .assignNewStickyAccount => ∃ k, ∀ a, ¬ Found store.pool platform groupID (clock (n + 2 * k)) a := by
  induction h with
  | @returns n store store' f r hturn =>
    cases f with
    | getStickyAccount =>
      rw [stickyTurn_get_conflict hs hkey hplatform] at hturn
      cases hturn
    | assignNewStickyAccount =>
      obtain ⟨err, -, hnone⟩ | ⟨hcalls, -⟩ := stickyTurn_assign_conflict sorter userID platform groupID
        (clock n) hs hkey hdup
      · exact ⟨0, hnone⟩
      · rw [hcalls] at hturn
        cases hturn
  | @calls n store store' store'' f f' r hturn _ ih =>
    cases f with
    | getStickyAccount =>
      rw [stickyTurn_get_conflict hs hkey hplatform] at hturn
      cases hturn
      obtain ⟨k, hk⟩ := ih hs
      exact ⟨k, by rwa [Nat.add_right_comm] at hk⟩
    | assignNewStickyAccount =>
      obtain ⟨err, hreturns, -⟩ | ⟨hcalls, -⟩ := stickyTurn_assign_conflict sorter userID platform groupID
        (clock n) hs hkey hdup
      · rw [hreturns] at hturn
        cases hturn
      · rw [hcalls] at hturn
        cases hturn
        obtain ⟨k, hk⟩ := ih hs
        exact ⟨k + 1, by rwa [show n + 1 + 2 * k + 1 = n + 2 * (k + 1) by omega] at hk⟩

theorem settles_conflict (hs : s ∈ store.sessions) (hkey : s.apiKey = apiKey) (hplatform : s.platform ≠ platform)
    (hdup : takenForDuplicate violation = true) :
    Settles sorter violation clock userID platform apiKey groupID n store .assignNewStickyAccount ↔
      ∃ k, ∀ a, ¬ Found store.pool platform groupID (clock (n + 2 * k)) a := by
  constructor
  · rintro ⟨store', r, hreturns, -⟩
    exact exists_none_of_returns hs hkey hplatform hdup hreturns
  · rintro ⟨k, hk⟩
    induction k generalizing n with
    | zero =>
      obtain ⟨err, hreturns, -⟩ | ⟨-, a, ha⟩ := stickyTurn_assign_conflict sorter userID platform groupID
        (clock n) hs hkey hdup
      · exact (settles_of_returns hreturns).2 isBound_error
      · exact absurd ha (hk a)
    | succ k ih =>
      obtain ⟨err, hreturns, -⟩ | ⟨hcalls, -⟩ := stickyTurn_assign_conflict sorter userID platform groupID
        (clock n) hs hkey hdup
      · exact (settles_of_returns hreturns).2 isBound_error
      · rw [settles_of_calls hcalls, settles_of_calls (stickyTurn_get_conflict hs hkey hplatform)]
        exact ih (by rwa [show n + 2 * (k + 1) = n + 1 + 1 + 2 * k by omega] at hk)

/-- A call returns, and what it returns is bound, just where no binding is in the way. -/
theorem settles_iff (sorter : Sorter SubscriptionAccount.rank) (violation : String) (clock : ℕ → ℤ) (userID : ℕ)
    (platform apiKey : String) (groupID n : ℕ) (store : StickyStore) (f : StickyCall) :
    Settles sorter violation clock userID platform apiKey groupID n store f ↔
      Conflictless violation clock platform apiKey groupID n store f := by
  cases hrow : store.sessions.get? apiKey with
  | none =>
    have hnone := Table.get?_eq_none.1 hrow
    cases f with
    | getStickyAccount =>
      rw [settles_get_none fun s hs hkey => absurd hkey (hnone s hs)]
      exact iff_of_true (settles_assign_free hrow) fun s hs hkey => absurd hkey (hnone s hs)
    | assignNewStickyAccount =>
      exact iff_of_true (settles_assign_free hrow) fun _ _ s hs hkey => absurd hkey (hnone s hs)
  | some s =>
    obtain ⟨hs, hkey⟩ := Table.get?_eq_some.1 hrow
    have hall : ∀ {P : StickySession → Prop}, (∀ t ∈ store.sessions, t.apiKey = apiKey → P t) ↔ P s := by
      intro P
      refine ⟨fun h => h s hs hkey, fun h t ht htkey => ?_⟩
      rwa [store.sessions.eq_of_key_eq ht hs (htkey.trans hkey.symm)]
    by_cases hplatform : s.platform = platform
    · cases f with
      | getStickyAccount =>
        rw [settles_get_bound hs hkey hplatform]
        unfold Conflictless
        dsimp only
        rw [hall, if_pos hplatform]
      | assignNewStickyAccount =>
        rw [settles_assign_taken hrow, settles_get_bound hs hkey hplatform]
        unfold Conflictless
        dsimp only
        rw [hall, if_pos hplatform]
    · by_cases hdup : takenForDuplicate violation = true
      · cases f with
        | getStickyAccount =>
          rw [settles_of_calls (stickyTurn_get_conflict hs hkey hplatform), 
            settles_conflict hs hkey hplatform hdup]
          unfold Conflictless
          dsimp only
          rw [hall, if_neg hplatform]
          simp only [Nat.add_right_comm n 1]
          exact ⟨fun h _ => h, fun h => h hdup⟩
        | assignNewStickyAccount =>
          rw [settles_conflict hs hkey hplatform hdup]
          unfold Conflictless
          dsimp only
          rw [hall, if_neg hplatform]
          refine ⟨fun h _ _ => h, fun h => ?_⟩
          by_cases hfound : ∃ a, Found store.pool platform groupID (clock n) a
          · exact h hdup hfound
          · exact ⟨0, not_exists.1 hfound⟩
      · have hassign : ∀ n, Settles sorter violation clock userID platform apiKey groupID n store .assignNewStickyAccount :=
          fun n => (settles_assign_taken hrow).2 fun h => absurd h hdup
        cases f with
        | getStickyAccount =>
          rw [settles_of_calls (stickyTurn_get_conflict hs hkey hplatform)]
          unfold Conflictless
          dsimp only
          rw [hall, if_neg hplatform]
          exact iff_of_true (hassign (n + 1)) fun h => absurd h hdup
        | assignNewStickyAccount => exact iff_of_true (hassign n) fun h => absurd h hdup

/-- An account of one platform. -/
def freeAccount : SubscriptionAccount where
  id := 1
  platform := "codex"
  accountType := "oauth"
  expiresAt := none
  status := "active"
  priority := 0
  schedulable := true
  rateLimitResetAt := none
  overloadUntil := none
  unschedulableUntil := none
  usageLimit := 0
  usedThisMonth := 0
  deletedAt := none

/-- And a key that is bound for another one. -/
def conflictSession : StickySession where
  id := 1
  userID := 1
  apiKey := "sk-1"
  accountID := 2
  platform := "claude"
  groupID := 0
  lastAssigned := 0

def conflictStore : StickyStore where
  pool := {
    accounts := ⟨[freeAccount], List.nodup_singleton _⟩
    accountGroups := Table.empty }
  sessions := ⟨[conflictSession], List.nodup_singleton _⟩

/-- The two functions call each other without end. -/
theorem not_settles_conflict :
    ¬ Settles (Sorter.insertion SubscriptionAccount.rank) "duplicate key value violates unique constraint" (fun _ => 0) 1
      "codex" "sk-1" 0 0 conflictStore .getStickyAccount := by
  rintro ⟨store', r, hreturns, -⟩
  have hdup : takenForDuplicate "duplicate key value violates unique constraint" = true := by decide
  have hplatform : ("claude" : String) ≠ "codex" := by decide
  have hmem : conflictSession ∈ conflictStore.sessions := List.mem_singleton_self _
  obtain ⟨k, hk⟩ := exists_none_of_returns hmem rfl hplatform hdup hreturns
  have heligible : Eligible conflictStore.pool "codex" 0 0 freeAccount :=
    { mem := List.mem_singleton_self _
      live := rfl
      platform := rfl
      group := .inl rfl
      schedulable := by decide }
  exact hk freeAccount ⟨heligible, nofun, nofun⟩

end

end NewApi.Subscription

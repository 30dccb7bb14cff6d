import NewApi.Token.Model
import NewApi.Lib.Run
import Mathlib.Algebra.BigOperators.Group.Finset.Piecewise
import Mathlib.Algebra.Order.BigOperators.Group.Finset

/-!
# Editing limits and the user's quota

A ledger is kept beside the store: for each token what its limit was given for nothing, what the user's
quota was charged and credited for its edits, and what was consumed through it, each read off the
store before and after a call. A limit is what was given, plus what was charged, less what was credited
and consumed; so a credit is covered by the charges of the token just when the limit it leaves, with
what was consumed, is no less than what was given for nothing. The condition is exact for one call
(`step_solvent_iff`), and so for runs.
-/

namespace NewApi

open Run

/-- For each token: what its limit was given for nothing, what was charged and credited for edits of
it, and what was consumed through it; and what was consumed in all. -/
structure TokenLedger where
  granted : Nat → Int
  deducted : Nat → Int
  credited : Nat → Int
  consumed : Nat → Int
  consumedTotal : Int

/-- A store and the history of its tokens. -/
structure Account where
  store : TokenStore
  ledger : TokenLedger

namespace TokenStore

/-- The limit of a token, if there is such a token. -/
def limitOf (s : TokenStore) (id : Nat) : Option Int := (s.tokens.get? id).map Token.remainQuota

/-- The limit of a token; zero, where there is no token. -/
def remainOf (s : TokenStore) (id : Nat) : Int := (s.limitOf id).getD 0

/-- The edit charges the user's quota: it raises the limit, and there is enough. -/
def Charges (env : TokenEnv) (token cleanToken : Token) (s : TokenStore) : Prop :=
  token.unlimitedQuota = false ∧ 0 < limitDelta token cleanToken ∧
    limitDelta token cleanToken ≤ env.cachedUserQuota.getD s.userQuota ∧
    (env.cachedUserQuota = none → env.fails .readQuota = false) ∧
    env.fails .decreaseQuota = false

/-- The edit credits the user's quota: it lowers the limit, by no more than can be negated. -/
def Credits (env : TokenEnv) (token cleanToken : Token) : Prop :=
  token.unlimitedQuota = false ∧ limitDelta token cleanToken < 0 ∧
    -(2 ^ 63) < limitDelta token cleanToken ∧ env.fails .increaseQuota = false

section
variable {cfg : TokenConfig} {env : TokenEnv} {statusOnly : Bool} {token cleanToken : Token}
  {s : TokenStore} {id i : Nat}

theorem limitOf_eq_none (h : s.nextId ≤ id) : s.limitOf id = none := by
  rw [limitOf, Table.get?_eq_none.2 fun t ht hid => ?_, Option.map_none]
  exact absurd (s.id_lt t ht) (by omega)

theorem limitOf_insertToken (token : Token) :
    (s.insertToken token).limitOf s.nextId = some token.remainQuota ∧
      ∀ id, id ≠ s.nextId → (s.insertToken token).limitOf id = s.limitOf id := by
  have hfree : s.tokens.get? (token.created s.nextId).id = none :=
    Option.map_eq_none_iff.1 (limitOf_eq_none (Nat.le_refl s.nextId))
  refine ⟨?_, fun id hid => ?_⟩
  · exact congrArg _ (Table.get?_insertNew_self hfree)
  · have hget : (s.tokens.insertNew (token.created s.nextId)).get? id = s.tokens.get? id :=
      Table.get?_insertNew_ne hid
    simp only [limitOf, insertToken, hget]

/-- `AddToken` answers with an error, or creates the token. -/
theorem addToken_cases : (∃ e, s.addToken cfg env token = .error e) ∨
    s.addToken cfg env token = .ok (s.insertToken token) := by
  unfold addToken
  cases checkRequest cfg token with
  | error e => exact .inl ⟨e, rfl⟩
  | ok _ =>
    simp only [bind, Except.bind, pure, Except.pure, throw, throwThe, MonadExceptOf.throw]
    repeat'
      split
      · exact .inl ⟨_, rfl⟩
    exact .inr rfl

/-- `DeleteToken` answers with an error, or deletes rows. -/
theorem deleteToken_cases : (∃ e, s.deleteToken env id = .error e) ∨
    ∃ k, s.deleteToken env id = .ok (s.filterTokens fun t => t.id ≠ k) := by
  unfold deleteToken
  cases s.getTokenByIds env id with
  | error e => exact .inl ⟨e, rfl⟩
  | ok token =>
    simp only [bind, Except.bind, pure, Except.pure, throw, throwThe, MonadExceptOf.throw]
    split
    · exact .inl ⟨_, rfl⟩
    · exact .inr ⟨_, rfl⟩

/-- A call touches at most one token. -/
structure Touches (id : Nat) (s s' : TokenStore) : Prop where
  nextId : s'.nextId = s.nextId
  others : ∀ i, i ≠ id → s'.limitOf i = s.limitOf i
  missing : s.limitOf id = none → s'.limitOf id = none

theorem Touches.refl (id : Nat) (s : TokenStore) : Touches id s s :=
  ⟨rfl, fun _ _ => rfl, fun h => h⟩

theorem touches_modifyToken {f : Token → Token} {hf : ∀ t, (f t).id = t.id} :
    Touches id s (s.modifyToken id f hf) := by
  refine ⟨rfl, fun i hi => ?_, fun hnone => ?_⟩
  · simp only [limitOf, modifyToken, Table.get?_modify_ne hi]
  · simp only [limitOf, modifyToken, Table.get?_modify_self, Option.map_eq_none_iff] at hnone ⊢
    exact hnone

theorem touches_save (h : token.id = id) : Touches id s (s.save env token).2 := by
  subst h
  unfold save
  split
  · exact .refl _ _
  · exact touches_modifyToken

theorem get?_of_findForUpdate (h : s.findForUpdate cfg env token = .ok cleanToken) :
    s.tokens.get? token.id = some cleanToken := by
  have hget : s.getTokenByIds env token.id = .ok cleanToken := by
    unfold findForUpdate at h
    cases hc : checkRequest cfg token with
    | error e => rw [hc] at h; cases h
    | ok _ =>
      rw [hc] at h
      cases hg : s.getTokenByIds env token.id with
      | error e => rw [hg] at h; cases h
      | ok t =>
        rw [hg] at h
        cases he : checkEnable env token t with
        | error e => simp [he, bind, Except.bind] at h
        | ok _ => simpa [he, bind, Except.bind, pure, Except.pure] using h
  unfold getTokenByIds at hget
  split at hget
  · cases hget
  split at hget
  · cases hget
  cases hrow : s.tokens.get? token.id with
  | none => rw [hrow] at hget; cases hget
  | some t => rw [hrow] at hget; cases hget; rfl

/-- `UpdateToken` touches at most the token of the request. -/
theorem touches_updateToken : Touches token.id s (s.updateToken cfg env statusOnly token).2 := by
  unfold updateToken
  cases hfind : s.findForUpdate cfg env token with
  | error e => exact .refl _ _
  | ok cleanToken =>
    have hid : cleanToken.id = token.id := Table.key_of_get? (get?_of_findForUpdate hfind)
    dsimp only
    split
    · exact touches_save hid
    · cases s.walletChange env token cleanToken with
      | error e => exact .refl _ _
      | ok change =>
        have hsave : Touches token.id { s with userQuota := s.userQuota + change }
            (({ s with userQuota := s.userQuota + change } : TokenStore).save env
              (token.edited cleanToken)).2 := touches_save hid
        exact ⟨hsave.nextId, hsave.others, hsave.missing⟩

theorem touches_consume {quota : Int} : Touches id s (s.consume id quota) := by
  have htouches : Touches id { s with userQuota := s.userQuota - quota } (s.consume id quota) :=
    touches_modifyToken
  exact ⟨htouches.nextId, htouches.others, htouches.missing⟩

theorem touches_postConsumeQuota {isPlayground : Bool} {quota : Int} :
    Touches id s (s.postConsumeQuota id isPlayground quota) := by
  unfold postConsumeQuota
  split
  · exact ⟨rfl, fun _ _ => rfl, fun h => h⟩
  · exact touches_consume

/-- An edit charges the user's quota, or credits it, or leaves it. -/
theorem walletChange_cases :
    (Charges env token cleanToken s ∨ Credits env token cleanToken) ∧
        s.walletChange env token cleanToken = .ok (-limitDelta token cleanToken) ∨
      (¬ Charges env token cleanToken s ∧ ¬ Credits env token cleanToken) ∧
        (s.walletChange env token cleanToken).toOption.getD 0 = 0 := by
  unfold walletChange Charges Credits
  cases hunlimited : token.unlimitedQuota with
  | true => exact .inr ⟨by simp, rfl⟩
  | false =>
    have hfits : Fits64 (limitDelta token cleanToken) := fits_wrap64 _
    simp only [Bool.false_eq_true, if_false, true_and]
    generalize limitDelta token cleanToken = delta at hfits ⊢
    rcases lt_trichotomy delta 0 with hneg | rfl | hpos
    · rw [if_neg (by omega), if_pos hneg]
      rcases wrap64_neg_cases hfits hneg with ⟨hlt, hwrap⟩ | ⟨hmin, hwrap⟩
      · cases hfails : env.fails .increaseQuota with
        | true => exact .inr ⟨⟨fun h => by omega, fun h => by simp at h⟩, by simp; rfl⟩
        | false =>
          refine .inl ⟨.inr ⟨hneg, hlt, rfl⟩, ?_⟩
          rw [if_neg (by simp [hwrap]; omega), hwrap]
      · rw [if_pos (.inl hwrap)]
        exact .inr ⟨⟨fun h => by omega, fun h => by omega⟩, rfl⟩
    · exact .inr ⟨by simp, rfl⟩
    · rw [if_pos hpos]
      have hcredits : ¬ (delta < 0 ∧ -(2 ^ 63) < delta ∧ env.fails .increaseQuota = false) :=
        fun h => by omega
      split
      next hread =>
        refine .inr ⟨⟨fun h => ?_, hcredits⟩, rfl⟩
        rw [h.2.2.1 hread.1] at hread
        cases hread.2
      next hread =>
        split
        next hlow => exact .inr ⟨⟨fun h => by omega, hcredits⟩, rfl⟩
        next henough =>
          split
          next hfails =>
            refine .inr ⟨⟨fun h => ?_, hcredits⟩, rfl⟩
            rw [h.2.2.2] at hfails
            cases hfails
          next hfails =>
            refine .inl ⟨.inl ⟨hpos, by omega, fun hnone => ?_, by simpa using hfails⟩, rfl⟩
            by_contra hread'
            exact hread ⟨hnone, by simpa using hread'⟩

theorem userQuota_save : (s.save env token).2.userQuota = s.userQuota := by
  unfold save
  split <;> rfl

/-- `UpdateToken` moves the user's quota, to the charge or the credit of the edit, and then writes the
token; or it leaves the quota, and writes the token or answers with an error. -/
theorem updateToken_cases (cfg : TokenConfig) (env : TokenEnv) (statusOnly : Bool) (token : Token)
    (s : TokenStore) :
    (∃ cleanToken, s.findForUpdate cfg env token = .ok cleanToken ∧ statusOnly = false ∧
        (Charges env token cleanToken s ∨ Credits env token cleanToken) ∧
        s.updateToken cfg env statusOnly token =
          ({ s with userQuota := s.userQuota - limitDelta token cleanToken } : TokenStore).save env
            (token.edited cleanToken)) ∨
      (∀ cleanToken, s.findForUpdate cfg env token = .ok cleanToken → statusOnly = false →
        ¬ Charges env token cleanToken s ∧ ¬ Credits env token cleanToken) ∧
        ((∃ e, s.updateToken cfg env statusOnly token = (some e, s)) ∨
          ∃ t, s.updateToken cfg env statusOnly token = s.save env t) := by
  unfold updateToken
  cases hfind : s.findForUpdate cfg env token with
  | error e => exact .inr ⟨fun t ht => (nomatch ht), .inl ⟨e, rfl⟩⟩
  | ok cleanToken =>
    cases statusOnly with
    | true => exact .inr ⟨fun t _ ht => (nomatch ht), .inr ⟨_, rfl⟩⟩
    | false =>
      dsimp only
      rcases walletChange_cases (s := s) with ⟨hmoves, hok⟩ | ⟨hnone, hzero⟩
      · exact .inl ⟨cleanToken, rfl, rfl, hmoves, by rw [hok]; rfl⟩
      · refine .inr ⟨fun t ht _ => ?_, ?_⟩
        · cases ht
          exact hnone
        · cases hchange : s.walletChange env token cleanToken with
          | error e => exact .inl ⟨e, rfl⟩
          | ok change =>
            rw [hchange] at hzero
            refine .inr ⟨token.edited cleanToken, ?_⟩
            have hsame : s.userQuota + change = s.userQuota := by
              rw [show change = 0 from hzero, Int.add_zero]
            show ({ s with userQuota := s.userQuota + change } : TokenStore).save env _ = _
            rw [hsame]

/-- Where `UpdateToken` finds no token, it leaves the user's quota. -/
theorem userQuota_of_missing (h : s.limitOf token.id = none) :
    (s.updateToken cfg env statusOnly token).2.userQuota = s.userQuota := by
  rcases updateToken_cases cfg env statusOnly token s with
    ⟨t, hfind, -, -, -⟩ | ⟨-, ⟨e, he⟩ | ⟨t, ht⟩⟩
  · rw [limitOf, get?_of_findForUpdate hfind] at h
    cases h
  · rw [he]
  · rw [ht, userQuota_save]

end

end TokenStore

namespace Account

/-- A call with its arguments and its surroundings. -/
inductive Op
  | addToken (env : TokenEnv) (token : Token)
  | updateToken (env : TokenEnv) (statusOnly : Bool) (token : Token)
  | deleteToken (env : TokenEnv) (id : Nat)
  | batchDeleteTokens (env : TokenEnv) (ids : List Nat)
  | preConsumeTokenQuota (env : TokenEnv) (id : Nat) (isPlayground tokenUnlimited : Bool)
      (quota : Int)
  | postConsumeQuota (id : Nat) (isPlayground : Bool) (quota : Int)

/-- The amount is added to one entry. -/
def addTo (f : Nat → Int) (id : Nat) (amount : Int) : Nat → Int :=
  fun i => if i = id then f i + amount else f i

/-- The history after a call, read off the stores before and after it. -/
def record (s s' : TokenStore) (l : TokenLedger) : Op → TokenLedger
  | .addToken _ _ =>
    { l with granted := addTo l.granted s.nextId (s'.remainOf s.nextId - s.remainOf s.nextId) }
  | .updateToken _ _ token =>
    let charged := s.userQuota - s'.userQuota
    { l with
      deducted := addTo l.deducted token.id (max charged 0)
      credited := addTo l.credited token.id (max (-charged) 0)
      granted := addTo l.granted token.id (s'.remainOf token.id - s.remainOf token.id - charged) }
  | .preConsumeTokenQuota _ id _ _ _ | .postConsumeQuota id _ _ =>
    { l with
      consumed := addTo l.consumed id (s.remainOf id - s'.remainOf id)
      consumedTotal := l.consumedTotal + (s.userQuota - s'.userQuota) }
  | .deleteToken _ _ | .batchDeleteTokens _ _ => l

section
variable (cfg : TokenConfig)

/-- The store after a call, and the error it answers with. -/
def exec (s : TokenStore) : Op → Option TokenError × TokenStore
  | .addToken env token => answer s (s.addToken cfg env token)
  | .updateToken env statusOnly token => s.updateToken cfg env statusOnly token
  | .deleteToken env id => answer s (s.deleteToken env id)
  | .batchDeleteTokens env ids => answer s (s.batchDeleteTokens env ids)
  | .preConsumeTokenQuota env id isPlayground tokenUnlimited quota =>
    answer s (s.preConsumeTokenQuota env id isPlayground tokenUnlimited quota)
  | .postConsumeQuota id isPlayground quota => (none, s.postConsumeQuota id isPlayground quota)
where
  /-- A call that fails leaves the store. -/
  answer (s : TokenStore) : Except TokenError TokenStore → Option TokenError × TokenStore
    | .error e => (some e, s)
    | .ok s' => (none, s')

/-- The account after a call. -/
def step (a : Account) (o : Op) : Account :=
  let s' := (exec cfg a.store o).2
  ⟨s', record a.store s' a.ledger o⟩

/-- A store without history: all its limits are given. -/
def start (s : TokenStore) : Account :=
  ⟨s, s.remainOf, fun _ => 0, fun _ => 0, fun _ => 0, 0⟩

/-- No token's credits exceed its charges, and neither do they in all; so the user's quota and what was
consumed come to no more than there was. -/
def Solvent (initial : Int) (a : Account) : Prop :=
  (∀ id, a.ledger.credited id ≤ a.ledger.deducted id) ∧
    ∑ id ∈ Finset.range a.store.nextId, a.ledger.credited id ≤
      ∑ id ∈ Finset.range a.store.nextId, a.ledger.deducted id ∧
    a.store.userQuota + a.ledger.consumedTotal ≤ initial

/-- An `UpdateToken` that answers with an error leaves the store. -/
def ErrorKeeps (a : Account) (o : Op) (a' : Account) : Prop :=
  match o with
  | .updateToken env statusOnly token =>
    (a.store.updateToken cfg env statusOnly token).1 ≠ none → a'.store = a.store
  | _ => True

/-- The condition, on a call and the account before it, under which no quota is created and an error
changes nothing. -/
def Covered (a : Account) : Op → Prop
  | .updateToken env statusOnly token => ∀ cleanToken,
    a.store.findForUpdate cfg env token = .ok cleanToken → statusOnly = false →
      -- a lowered limit, with what was consumed, is no less than what was given for nothing
      (TokenStore.Credits env token cleanToken → a.ledger.granted token.id ≤
        cleanToken.remainQuota + TokenStore.limitDelta token cleanToken +
          a.ledger.consumed token.id) ∧
      -- where the user's quota was moved, the token is written
      (TokenStore.Charges env token cleanToken a.store ∨
          TokenStore.Credits env token cleanToken →
        env.fails .save = false)
  | _ => True

end

/-! ## The ledger -/

section
variable {cfg : TokenConfig} {a : Account} {o : Op} {initial : Int}

/-- What holds of every account with a history: a limit is what was given and charged, less what was
credited and consumed; ids to come have no history; and the user's quota went where the ledger
says. -/
structure Inv (initial : Int) (a : Account) : Prop where
  limit : ∀ id remain, a.store.limitOf id = some remain → remain =
    a.ledger.granted id + a.ledger.deducted id - a.ledger.credited id - a.ledger.consumed id
  fresh : ∀ id, a.store.nextId ≤ id → a.ledger.granted id = 0 ∧ a.ledger.deducted id = 0 ∧
    a.ledger.credited id = 0 ∧ a.ledger.consumed id = 0
  wallet : a.store.userQuota + ∑ id ∈ Finset.range a.store.nextId,
    (a.ledger.deducted id - a.ledger.credited id) + a.ledger.consumedTotal = initial

theorem addTo_zero (f : Nat → Int) (id : Nat) : addTo f id 0 = f := by
  funext i
  simp [addTo]

theorem sum_addTo {f g : Nat → Int} {n id : Nat} {x y : Int} (h : n ≤ id → x = y) :
    ∑ i ∈ Finset.range n, (addTo f id x i - addTo g id y i) =
      ∑ i ∈ Finset.range n, (f i - g i) + (x - y) := by
  have hadd : ∀ i, addTo f id x i - addTo g id y i = f i - g i + if i = id then x - y else 0 := by
    intro i
    unfold addTo
    split <;> omega
  simp only [hadd, Finset.sum_add_distrib, Finset.sum_ite_eq', Finset.mem_range]
  split
  · rfl
  · rw [h (by omega), sub_self]

theorem solvent_iff (h : Inv initial a) :
    Solvent initial a ↔ ∀ id, a.ledger.credited id ≤ a.ledger.deducted id := by
  refine ⟨fun hs => hs.1, fun hle => ⟨hle, Finset.sum_le_sum fun id _ => hle id, ?_⟩⟩
  have hsum : 0 ≤ ∑ id ∈ Finset.range a.store.nextId,
      (a.ledger.deducted id - a.ledger.credited id) :=
    Finset.sum_nonneg fun id _ => Int.sub_nonneg_of_le (hle id)
  have hwallet := h.wallet
  omega

theorem inv_start (s : TokenStore) : Inv s.userQuota (start s) := by
  refine ⟨fun id remain hremain => ?_, fun id hid => ?_, ?_⟩
  · have hlimit : s.limitOf id = some remain := hremain
    simp [start, TokenStore.remainOf, hlimit]
  · have hlimit : s.limitOf id = none := TokenStore.limitOf_eq_none hid
    simp [start, TokenStore.remainOf, hlimit]
  · simp [start]

/-- An edit keeps the invariant: what it does to the limit is given, charged or credited. -/
theorem inv_updateToken (h : Inv initial a) (env : TokenEnv) (statusOnly : Bool) (token : Token) :
    Inv initial (step cfg a (.updateToken env statusOnly token)) := by
  have htouches : TokenStore.Touches token.id a.store
      (a.store.updateToken cfg env statusOnly token).2 := TokenStore.touches_updateToken
  have hmissing : a.store.limitOf token.id = none →
      (a.store.updateToken cfg env statusOnly token).2.userQuota = a.store.userQuota :=
    TokenStore.userQuota_of_missing
  unfold step
  simp only [exec, record]
  generalize (a.store.updateToken cfg env statusOnly token).2 = s' at hmissing htouches ⊢
  have hfresh : a.store.nextId ≤ token.id → s'.userQuota = a.store.userQuota ∧
      s'.remainOf token.id = 0 ∧ a.store.remainOf token.id = 0 := by
    intro hid
    have hnone := TokenStore.limitOf_eq_none hid
    exact ⟨hmissing hnone, by simp [TokenStore.remainOf, htouches.missing hnone],
      by simp [TokenStore.remainOf, hnone]⟩
  refine ⟨fun id remain hremain => ?_, fun id hid => ?_, ?_⟩
  · dsimp only at hremain ⊢
    by_cases hid : id = token.id
    · subst hid
      obtain ⟨old, hold⟩ : ∃ old, a.store.limitOf token.id = some old := by
        cases hlimit : a.store.limitOf token.id with
        | none => rw [htouches.missing hlimit] at hremain; cases hremain
        | some old => exact ⟨old, rfl⟩
      have hlimit := h.limit _ _ hold
      simp only [addTo, if_pos, TokenStore.remainOf, hremain, hold, Option.getD_some]
      omega
    · rw [htouches.others id hid] at hremain
      have hlimit := h.limit _ _ hremain
      simp only [addTo, if_neg hid]
      exact hlimit
  · dsimp only at hid ⊢
    rw [htouches.nextId] at hid
    have hzero := h.fresh id hid
    by_cases htoken : id = token.id
    · subst htoken
      obtain ⟨hchange, hnew, hold⟩ := hfresh hid
      simp only [addTo, if_pos, hnew, hold]
      omega
    · simpa only [addTo, if_neg htoken] using hzero
  · dsimp only
    rw [htouches.nextId, sum_addTo fun hid => by have := (hfresh hid).1; omega]
    have hwallet := h.wallet
    omega

theorem inv_consumed (h : Inv initial a) {id : Nat} {s' : TokenStore}
    (htouches : TokenStore.Touches id a.store s') :
    Inv initial ⟨s', { a.ledger with
      consumed := addTo a.ledger.consumed id (a.store.remainOf id - s'.remainOf id)
      consumedTotal := a.ledger.consumedTotal + (a.store.userQuota - s'.userQuota) }⟩ := by
  refine ⟨fun i remain hremain => ?_, fun i hi => ?_, ?_⟩
  · dsimp only at hremain ⊢
    by_cases hid : i = id
    · subst hid
      obtain ⟨old, hold⟩ : ∃ old, a.store.limitOf i = some old := by
        cases hlimit : a.store.limitOf i with
        | none => rw [htouches.missing hlimit] at hremain; cases hremain
        | some old => exact ⟨old, rfl⟩
      have hlimit := h.limit _ _ hold
      simp only [addTo, if_pos, TokenStore.remainOf, hremain, hold, Option.getD_some]
      omega
    · rw [htouches.others i hid] at hremain
      have hlimit := h.limit _ _ hremain
      simp only [addTo, if_neg hid]
      exact hlimit
  · dsimp only at hi ⊢
    rw [htouches.nextId] at hi
    have hzero := h.fresh i hi
    by_cases hid : i = id
    · subst hid
      have hnone := TokenStore.limitOf_eq_none hi
      simpa [addTo, TokenStore.remainOf, hnone, htouches.missing hnone] using hzero
    · simpa only [addTo, if_neg hid] using hzero
  · dsimp only
    rw [htouches.nextId]
    have hwallet := h.wallet
    omega

theorem inv_filterTokens (h : Inv initial a) {p : Token → Prop} [DecidablePred p] :
    Inv initial ⟨a.store.filterTokens p, a.ledger⟩ := by
  refine ⟨fun id remain hremain => h.limit id remain ?_, h.fresh, h.wallet⟩
  simp only [TokenStore.limitOf, TokenStore.filterTokens, Table.get?_filter,
    Option.map_eq_some_iff, Option.filter_eq_some_iff] at hremain ⊢
  obtain ⟨t, ⟨ht, -⟩, hlimit⟩ := hremain
  exact ⟨t, ht, hlimit⟩

theorem inv_insertToken (h : Inv initial a) (token : Token) :
    Inv initial ⟨a.store.insertToken token, { a.ledger with
      granted := addTo a.ledger.granted a.store.nextId
        ((a.store.insertToken token).remainOf a.store.nextId -
          a.store.remainOf a.store.nextId) }⟩ := by
  have hnone : a.store.limitOf a.store.nextId = none :=
    TokenStore.limitOf_eq_none (Nat.le_refl _)
  obtain ⟨hnew, hold⟩ := TokenStore.limitOf_insertToken token (s := a.store)
  refine ⟨fun id remain hremain => ?_, fun id hid => ?_, ?_⟩
  · dsimp only at hremain ⊢
    by_cases hid : id = a.store.nextId
    · subst hid
      have hzero := h.fresh _ (Nat.le_refl a.store.nextId)
      rw [hnew] at hremain
      simp only [addTo, if_pos, TokenStore.remainOf, hnew, hnone, Option.getD_some, Option.getD_none]
      cases hremain
      omega
    · rw [hold id hid] at hremain
      simpa only [addTo, if_neg hid] using h.limit _ _ hremain
  · have hlt : a.store.nextId < id := hid
    have hzero := h.fresh id (by omega)
    simpa only [addTo, if_neg (Nat.ne_of_gt hlt)] using hzero
  · have hzero := h.fresh _ (Nat.le_refl a.store.nextId)
    have hwallet := h.wallet
    show a.store.userQuota + ∑ id ∈ Finset.range (a.store.nextId + 1),
      (a.ledger.deducted id - a.ledger.credited id) + a.ledger.consumedTotal = initial
    rw [Finset.sum_range_succ]
    omega

/-- Every call keeps the invariant. -/
theorem inv_step (h : Inv initial a) (o : Op) : Inv initial (step cfg a o) := by
  cases o with
  | addToken env token =>
    unfold step
    dsimp only [exec, record]
    rcases TokenStore.addToken_cases (s := a.store) with ⟨e, he⟩ | hok
    · rw [he]
      dsimp only [exec.answer]
      rw [sub_self, addTo_zero]
      exact h
    · rw [hok]
      exact inv_insertToken h token
  | updateToken env statusOnly token => exact inv_updateToken h env statusOnly token
  | deleteToken env id =>
    unfold step
    dsimp only [exec, record]
    rcases TokenStore.deleteToken_cases (s := a.store) with ⟨e, he⟩ | ⟨k, hok⟩
    · rw [he]
      exact h
    · rw [hok]
      exact inv_filterTokens h
  | batchDeleteTokens env ids =>
    unfold step
    dsimp only [exec, record, TokenStore.batchDeleteTokens]
    split
    · exact h
    · split
      · exact h
      · exact inv_filterTokens h
  | preConsumeTokenQuota env id isPlayground tokenUnlimited quota =>
    unfold step
    dsimp only [exec, record]
    refine inv_consumed h ?_
    unfold TokenStore.preConsumeTokenQuota
    split
    · exact .refl _ _
    split
    · exact ⟨rfl, fun _ _ => rfl, fun h => h⟩
    cases a.store.tokens.get? id with
    | none => exact .refl _ _
    | some token =>
      dsimp only
      split
      · exact .refl _ _
      · exact TokenStore.touches_consume
  | postConsumeQuota id isPlayground quota =>
    exact inv_consumed h TokenStore.touches_postConsumeQuota

/-! ## Exactness -/

/-- A call keeps the account solvent exactly when a credit it makes is covered. -/
theorem step_solvent_iff (h : Inv initial a) (hs : Solvent initial a) (env : TokenEnv)
    (statusOnly : Bool) (token : Token) :
    Solvent initial (step cfg a (.updateToken env statusOnly token)) ↔
      ∀ cleanToken, a.store.findForUpdate cfg env token = .ok cleanToken → statusOnly = false →
        TokenStore.Credits env token cleanToken → a.ledger.granted token.id ≤
          cleanToken.remainQuota + TokenStore.limitDelta token cleanToken +
            a.ledger.consumed token.id := by
  have hle := (solvent_iff h).1 hs
  have htoken := hle token.id
  -- only the entries of this token change, and by what the quota was moved
  have hentries : Solvent initial (step cfg a (.updateToken env statusOnly token)) ↔
      (a.store.updateToken cfg env statusOnly token).2.userQuota - a.store.userQuota ≤
        a.ledger.deducted token.id - a.ledger.credited token.id := by
    rw [solvent_iff (inv_step h _)]
    simp only [step, exec, record, addTo]
    generalize (a.store.updateToken cfg env statusOnly token).2.userQuota = quota
    refine ⟨fun hall => ?_, fun hquota id => ?_⟩
    · have hcredited := hall token.id
      rw [if_pos rfl, if_pos rfl] at hcredited
      omega
    · split
      next hid =>
        subst hid
        omega
      next => exact hle id
  rw [hentries]
  rcases TokenStore.updateToken_cases cfg env statusOnly token a.store with
    ⟨t, hfind, hstatus, hmoves, hok⟩ | ⟨hnone, hleft⟩
  · have hlimit := h.limit token.id t.remainQuota
      (congrArg _ (TokenStore.get?_of_findForUpdate hfind))
    rw [hok, TokenStore.userQuota_save]
    refine ⟨fun hcovered t' hfind' _ _ => ?_, fun hcovered => ?_⟩
    · rw [hfind] at hfind'
      cases hfind'
      dsimp only at hcovered
      omega
    · dsimp only
      rcases hmoves with hcharges | hcredits
      · have hraised := hcharges.2.1
        omega
      · have hgranted := hcovered t hfind hstatus hcredits
        omega
  · have hquota : (a.store.updateToken cfg env statusOnly token).2.userQuota =
        a.store.userQuota := by
      rcases hleft with ⟨e, he⟩ | ⟨t, ht⟩
      · rw [he]
      · rw [ht, TokenStore.userQuota_save]
    rw [hquota]
    exact iff_of_true (by omega) fun t hfind hstatus hcredits =>
      absurd hcredits (hnone t hfind hstatus).2

theorem step_errorKeeps_iff (env : TokenEnv) (statusOnly : Bool) (token : Token) :
    ErrorKeeps cfg a (.updateToken env statusOnly token)
        (step cfg a (.updateToken env statusOnly token)) ↔
      ∀ cleanToken, a.store.findForUpdate cfg env token = .ok cleanToken → statusOnly = false →
        TokenStore.Charges env token cleanToken a.store ∨ TokenStore.Credits env token cleanToken →
          env.fails .save = false := by
  show ((a.store.updateToken cfg env statusOnly token).1 ≠ none →
    (a.store.updateToken cfg env statusOnly token).2 = a.store) ↔ _
  rcases TokenStore.updateToken_cases cfg env statusOnly token a.store with
    ⟨t, hfind, hstatus, hmoves, hok⟩ | ⟨hnone, hleft⟩
  · rw [hok]
    have hmoved : TokenStore.limitDelta token t ≠ 0 := by
      rcases hmoves with hcharges | hcredits
      · have := hcharges.2.1
        omega
      · have := hcredits.2.1
        omega
    unfold TokenStore.save
    cases env.fails .save with
    | true =>
      refine iff_of_false (fun hkeeps => hmoved ?_) fun hall => ?_
      · have hquota := congrArg TokenStore.userQuota (hkeeps (by simp))
        simp only [if_pos] at hquota
        omega
      · cases hall t hfind hstatus hmoves
    | false => exact iff_of_true (fun hne => absurd rfl hne) fun _ _ _ _ => rfl
  · refine iff_of_true (fun hne => ?_) fun t hfind hstatus hmoves =>
      absurd hmoves (not_or.2 (hnone t hfind hstatus))
    rcases hleft with ⟨e, he⟩ | ⟨t, ht⟩
    · rw [he]
    · rw [ht] at hne ⊢
      unfold TokenStore.save at hne ⊢
      split
      · rfl
      next hfails =>
        rw [if_neg hfails] at hne
        exact absurd rfl hne

theorem step_iff (h : Inv initial a) (hs : Solvent initial a) (o : Op) :
    Solvent initial (step cfg a o) ∧ ErrorKeeps cfg a o (step cfg a o) ↔ Covered cfg a o := by
  have hle := (solvent_iff h).1 hs
  have hinv : Inv initial (step cfg a o) := inv_step h o
  cases o with
  | updateToken env statusOnly token =>
    rw [step_solvent_iff h hs, step_errorKeeps_iff]
    refine ⟨fun ⟨hcredits, hmoves⟩ t hfind hstatus => ?_, fun hcovered => ⟨?_, ?_⟩⟩
    · exact ⟨hcredits t hfind hstatus, hmoves t hfind hstatus⟩
    · exact fun t hfind hstatus => (hcovered t hfind hstatus).1
    · exact fun t hfind hstatus => (hcovered t hfind hstatus).2
  | addToken | deleteToken | batchDeleteTokens | preConsumeTokenQuota | postConsumeQuota =>
    exact iff_of_true ⟨(solvent_iff hinv).2 hle, trivial⟩ trivial

end

/-- Edits of limits create no quota, and an error leaves quota and token, exactly when every call is
covered. -/
theorem limits_mint_nothing_iff (cfg : TokenConfig) (s : TokenStore) (ops : List Op) :
    Holds (step cfg) (Solvent s.userQuota) (start s) ops ∧
        Always (step cfg) (ErrorKeeps cfg) (start s) ops ↔
      Meets (step cfg) (Covered cfg) (start s) ops :=
  holds_and_always_iff_meets (I := Inv s.userQuota) (fun _ o h => inv_step h o) (fun _ o h hs => step_iff h hs o)
    (inv_start s) ((solvent_iff (inv_start s)).2 fun _ => Int.le_refl 0)

/-- A user without quota creates a token of limit 1000 and lowers the limit to nothing. -/
def freeLimit : List Op :=
  [.addToken {} { name := "free", remainQuota := 1000 },
    .updateToken {} false { id := 1, name := "free", remainQuota := 0 }]

/-- No tokens and no quota. -/
def nothing : TokenStore := ⟨0, .empty, 1, fun _ ht => nomatch ht⟩

/-- The limit that was free of charge is credited. -/
theorem freeLimit_credited :
    ¬ (Holds (step ⟨500000000000000, 1000⟩) (Solvent 0) (start nothing) freeLimit ∧
      Always (step ⟨500000000000000, 1000⟩) (ErrorKeeps ⟨500000000000000, 1000⟩) (start nothing)
        freeLimit) := by
  rintro ⟨hholds, -⟩
  have hsolvent := hholds.last.2.2
  have hquota : (run (step ⟨500000000000000, 1000⟩) (start nothing) freeLimit).store.userQuota =
      1000 := by decide
  have hconsumed : (run (step ⟨500000000000000, 1000⟩) (start nothing)
      freeLimit).ledger.consumedTotal = 0 := by decide
  rw [hquota, hconsumed] at hsolvent
  exact absurd hsolvent (by decide)

end Account

end NewApi

import NewApi.Lib.Table
import NewApi.Lib.Arith

/-!
# Tokens

The tokens of one user, and the calls that set their limits or consume through them. Every statement
may fail; a call that has moved quota by then does not take it back. The rows are those that are not
soft deleted, and ids are assigned by the database in turn.
-/

namespace NewApi

/-- The status of a token. A request may carry any number. -/
inductive TokenStatus
  | unset
  | enabled
  | disabled
  | expired
  | exhausted
  | other (code : Int)
deriving DecidableEq

/-- A row of the token table, and the body of a request that edits one. -/
structure Token where
  id : Nat := 0
  status : TokenStatus := .unset
  name : String := ""
  expiredTime : Int := 0
  remainQuota : Int := 0
  unlimitedQuota : Bool := false
  modelLimitsEnabled : Bool := false
  modelLimits : String := ""
  allowIps : Option String := none
  usedQuota : Int := 0
  group : String := ""
  crossGroupRetry : Bool := false
deriving DecidableEq

namespace Token

/-- The row that `Insert` creates for a request: zero values take the column defaults. -/
def created (id : Nat) (token : Token) : Token :=
  { token with
    id := id
    status := .enabled
    expiredTime := if token.expiredTime = 0 then -1 else token.expiredTime
    allowIps := some (token.allowIps.getD "")
    usedQuota := 0 }

/-- The columns that `Update` writes. -/
def updates (token row : Token) : Token := { token with id := row.id, usedQuota := row.usedQuota }

/-- `UPDATE tokens SET remain_quota = remain_quota - quota, used_quota = used_quota + quota`. -/
def consume (quota : Int) (row : Token) : Token :=
  { row with remainQuota := row.remainQuota - quota, usedQuota := row.usedQuota + quota }

/-- The fields of a request that `UpdateToken` takes over when it changes more than the status. -/
def edited (token row : Token) : Token :=
  { token with id := row.id, status := row.status, usedQuota := row.usedQuota }

@[simp] theorem updates_id (token row : Token) : (token.updates row).id = row.id := rfl

@[simp] theorem consume_id (quota : Int) (row : Token) : (row.consume quota).id = row.id := rfl

end Token

/-- The quota and the tokens of a user. -/
structure TokenStore where
  userQuota : Int
  tokens : Table Token.id
  nextId : Nat
  id_lt : ∀ t ∈ tokens, t.id < nextId

/-- Why a call fails. -/
inductive TokenError
  | nameTooLong
  | quotaNegative
  | quotaExceedMax (max : Int)
  | tooManyTokens (max : Nat)
  | generateFailed
  | emptyId
  | notFound
  | expiredCannotEnable
  | exhaustedCannotEnable
  | quotaInsufficient
  | invalidParams
  | notEnough (remain need : Int)
  | database
deriving DecidableEq

/-- The statements of a call that may fail. -/
inductive TokenStmt
  | count
  | generateKey
  | insert
  | find
  | readQuota
  | decreaseQuota
  | increaseQuota
  | save
  | delete
deriving DecidableEq

/-- What surrounds a call: the clock, the statements that fail, and what the cache says. -/
structure TokenEnv where
  now : Int := 0
  fails : TokenStmt → Bool := fun _ => false
  cachedUserQuota : Option Int := none
  cachedRemainQuota : Option Int := none

/-- The limits set by the operator: `int(1000000000 * QuotaPerUnit)`, and the tokens of a user. -/
structure TokenConfig where
  maxQuotaValue : Int
  maxUserTokens : Nat

namespace TokenStore

/-- An update in place keeps the ids. -/
def modifyToken (id : Nat) (f : Token → Token) (hf : ∀ t, (f t).id = t.id) (s : TokenStore) :
    TokenStore :=
  { s with
    tokens := s.tokens.modify id f hf
    id_lt := by
      intro t ht
      obtain ⟨t', ht', heq⟩ := Table.mem_modifyWhere.1 ht
      have hid : t.id = t'.id := by
        rw [← heq]
        split
        · exact hf t'
        · rfl
      exact hid ▸ s.id_lt t' ht' }

/-- A deletion of rows. -/
def filterTokens (p : Token → Prop) [DecidablePred p] (s : TokenStore) : TokenStore :=
  { s with
    tokens := s.tokens.filter p
    id_lt := fun t ht => s.id_lt t (Table.mem_filter.1 ht).1 }

/-- A new row under the next id. -/
def insertToken (token : Token) (s : TokenStore) : TokenStore :=
  { s with
    tokens := s.tokens.insertNew (token.created s.nextId)
    nextId := s.nextId + 1
    id_lt := by
      intro t ht
      rcases Table.mem_insertNew.1 ht with ht | ⟨rfl, -⟩
      · exact Nat.lt_succ_of_lt (s.id_lt t ht)
      · exact Nat.lt_succ_self _ }

/-! ## Setting limits -/

/-- The checks of a request that `AddToken` and `UpdateToken` share. -/
def checkRequest (cfg : TokenConfig) (token : Token) : Except TokenError Unit :=
  if token.name.utf8ByteSize > 50 then .error .nameTooLong
  else if token.unlimitedQuota then .ok ()
  else if token.remainQuota < 0 then .error .quotaNegative
  else if token.remainQuota > cfg.maxQuotaValue then .error (.quotaExceedMax cfg.maxQuotaValue)
  else .ok ()

/-- `AddToken`. -/
def addToken (cfg : TokenConfig) (env : TokenEnv) (token : Token) (s : TokenStore) :
    Except TokenError TokenStore := do
  checkRequest cfg token
  if env.fails .count then throw .database
  if s.tokens.rows.length ≥ cfg.maxUserTokens then throw (.tooManyTokens cfg.maxUserTokens)
  if env.fails .generateKey then throw .generateFailed
  if env.fails .insert then throw .database
  return s.insertToken token

/-- `GetTokenByIds`. -/
def getTokenByIds (env : TokenEnv) (id : Nat) (s : TokenStore) : Except TokenError Token :=
  if id = 0 then .error .emptyId
  else if env.fails .find then .error .database
  else
    match s.tokens.get? id with
    | none => .error .notFound
    | some t => .ok t

/-- A token that was switched off for a reason that persists is not enabled again. -/
def checkEnable (env : TokenEnv) (token cleanToken : Token) : Except TokenError Unit :=
  if token.status = .enabled then
    if cleanToken.status = .expired ∧ cleanToken.expiredTime ≤ env.now ∧
        cleanToken.expiredTime ≠ -1 then
      .error .expiredCannotEnable
    else if cleanToken.status = .exhausted ∧ cleanToken.remainQuota ≤ 0 ∧
        cleanToken.unlimitedQuota = false then
      .error .exhaustedCannotEnable
    else .ok ()
  else .ok ()

/-- `UpdateToken` up to the point where it starts to change the token. -/
def findForUpdate (cfg : TokenConfig) (env : TokenEnv) (token : Token) (s : TokenStore) :
    Except TokenError Token := do
  checkRequest cfg token
  let cleanToken ← s.getTokenByIds env token.id
  checkEnable env token cleanToken
  return cleanToken

/-- The difference that a limited request makes to the stored limit, as a machine integer. -/
def limitDelta (token cleanToken : Token) : Int := wrap64 (token.remainQuota - cleanToken.remainQuota)

/-- What `UpdateToken` adds to the user's quota before it writes the token. -/
def walletChange (env : TokenEnv) (token cleanToken : Token) (s : TokenStore) :
    Except TokenError Int :=
  if token.unlimitedQuota then .ok 0
  else
    let delta := limitDelta token cleanToken
    if delta > 0 then
      if env.cachedUserQuota = none ∧ env.fails .readQuota then .error .database
      else if env.cachedUserQuota.getD s.userQuota < delta then .error .quotaInsufficient
      else if env.fails .decreaseQuota then .error .database
      else .ok (-delta)
    else if delta < 0 then
      -- `IncreaseUserQuota` refuses a negative amount, and its error is dropped
      if wrap64 (-delta) < 0 ∨ env.fails .increaseQuota then .ok 0 else .ok (wrap64 (-delta))
    else .ok 0

/-- `Token.Update`, with the answer of the call. -/
def save (env : TokenEnv) (token : Token) (s : TokenStore) : Option TokenError × TokenStore :=
  if env.fails .save then (some .database, s)
  else (none, s.modifyToken token.id (Token.updates token) (Token.updates_id token))

/-- `UpdateToken`: the error it answers with, and the store it leaves. -/
def updateToken (cfg : TokenConfig) (env : TokenEnv) (statusOnly : Bool) (token : Token)
    (s : TokenStore) : Option TokenError × TokenStore :=
  match s.findForUpdate cfg env token with
  | .error e => (some e, s)
  | .ok cleanToken =>
    if statusOnly then s.save env { cleanToken with status := token.status }
    else
      match s.walletChange env token cleanToken with
      | .error e => (some e, s)
      | .ok change =>
        { s with userQuota := s.userQuota + change }.save env (token.edited cleanToken)

/-- `DeleteToken`. -/
def deleteToken (env : TokenEnv) (id : Nat) (s : TokenStore) : Except TokenError TokenStore := do
  let token ← s.getTokenByIds env id
  if env.fails .delete then throw .database
  return s.filterTokens fun t => t.id ≠ token.id

/-- `BatchDeleteTokens`, in a transaction. -/
def batchDeleteTokens (env : TokenEnv) (ids : List Nat) (s : TokenStore) :
    Except TokenError TokenStore :=
  if ids = [] then .error .invalidParams
  else if env.fails .find ∨ env.fails .delete then .error .database
  else .ok (s.filterTokens fun t => t.id ∉ ids)

/-! ## Consuming -/

/-- The quota of the user and of a token go down together. -/
def consume (id : Nat) (quota : Int) (s : TokenStore) : TokenStore :=
  { s with userQuota := s.userQuota - quota }.modifyToken id (Token.consume quota)
    (Token.consume_id quota)

/-- `PreConsumeTokenQuota`, with the pre-consumption from the wallet that follows it. -/
def preConsumeTokenQuota (env : TokenEnv) (id : Nat) (isPlayground tokenUnlimited : Bool)
    (quota : Int) (s : TokenStore) : Except TokenError TokenStore :=
  if quota < 0 then .error .quotaNegative
  else if isPlayground then .ok { s with userQuota := s.userQuota - quota }
  else
    match s.tokens.get? id with
    | none => .error .notFound
    | some token =>
      let remain := env.cachedRemainQuota.getD token.remainQuota
      if tokenUnlimited = false ∧ remain < quota then .error (.notEnough remain quota)
      else .ok (s.consume id quota)

/-- `PostConsumeQuota` from the wallet. A negative quota is given back. -/
def postConsumeQuota (id : Nat) (isPlayground : Bool) (quota : Int) (s : TokenStore) : TokenStore :=
  if isPlayground then { s with userQuota := s.userQuota - quota } else s.consume id quota

end TokenStore

end NewApi

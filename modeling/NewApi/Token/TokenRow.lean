import Mathlib.Algebra.Group.Int.Defs
import Mathlib.Algebra.Group.Prod
import NewApi.Lib.Procs
import NewApi.Token.Model

/-!
# Updates of a token row, one statement at a time

Billing changes the remaining and the used quota of a token relatively to what is stored. The other calls read
the row first: `ValidateUserToken` writes back only the status (`SelectUpdate`), but `DisableModelLimits` and a
request that changes the status write all columns of `Token.Update`, and `remain_quota` is one of them.

No update is lost in exactly the runs where each copy that `Update` writes still has the remaining quota of the
row (`token_accounted_iff`).
-/

namespace NewApi.TokenRow

open Run Procs

/-- The limits of a request, and whether tokens are cached. -/
structure Config where
  limits : TokenConfig
  redisEnabled : Bool := false

inductive Call
  | increaseTokenQuota (quota : Int)
  | decreaseTokenQuota (quota : Int)
  | validateUserToken
  | disableModelLimits
  /-- `UpdateToken` of a request, with `status_only` -/
  | updateTokenStatus (token : Token)
deriving DecidableEq

/-- A call that has not started, one that holds a changed copy of the row, or one that has ended. One that has
succeeded has changed the remaining quota by its delta. -/
inductive Proc
  | call (c : Call)
  | selectUpdate (token : Token)
  | update (token : Token)
  | failed (e : TokenError)
  | done (delta : Int)
deriving DecidableEq

/-- What surrounds a statement: the clock, and whether it fails. -/
structure Env where
  now : Int := 0
  fails : Bool := false

/-- The status that `ValidateUserToken` gives a token of which it has read a copy, if any. -/
def newStatus (now : Int) (token : Token) : Option TokenStatus :=
  if token.status ≠ .enabled then none
  else if token.expiredTime ≠ -1 ∧ token.expiredTime < now then some .expired
  else if token.unlimitedQuota = false ∧ token.remainQuota ≤ 0 then some .exhausted
  else none

variable (cfg : Config)

/-- The checks of `UpdateToken`, and the copy that it goes on to save where only the status changes. -/
def withStatus (env : Env) (token row : Token) : Except TokenError Token := do
  TokenStore.checkRequest cfg.limits token
  if env.fails then throw .database
  TokenStore.checkEnable { now := env.now } token row
  return { row with status := token.status }

/-- The next statement of a call. -/
def prog (row : Token) (p : Proc) (env : Env) : Token × Proc :=
  match p with
  | .call (.increaseTokenQuota quota) =>
    if quota < 0 then (row, .failed .quotaNegative)
    else if env.fails then (row, .failed .database)
    else (row.consume (-quota), .done quota)
  | .call (.decreaseTokenQuota quota) =>
    if quota < 0 then (row, .failed .quotaNegative)
    else if env.fails then (row, .failed .database)
    else (row.consume quota, .done (-quota))
  | .call .validateUserToken =>
    if env.fails then (row, .failed .database)
    else if cfg.redisEnabled then (row, .done 0)
    else
      match newStatus env.now row with
      | none => (row, .done 0)
      | some status => (row, .selectUpdate { row with status := status })
  -- of the columns that `SelectUpdate` writes the model has the status; its error is only logged
  | .selectUpdate token =>
    if env.fails then (row, .done 0) else ({ row with status := token.status }, .done 0)
  | .call .disableModelLimits =>
    if env.fails then (row, .failed .database)
    else (row, .update { row with modelLimitsEnabled := false, modelLimits := "" })
  | .call (.updateTokenStatus token) =>
    match withStatus cfg env token row with
    | .error e => (row, .failed e)
    | .ok cleanToken => (row, .update cleanToken)
  | .update token => if env.fails then (row, .failed .database) else (token.updates row, .done 0)
  | .failed _ => (row, p)
  | .done _ => (row, p)

def step : Procs Token Proc → Act Call Env → Procs Token Proc := Procs.step .call (prog cfg)

/-- What a call that has succeeded has changed the remaining quota by. -/
def delta : Proc → Int
  | .done delta => delta
  | _ => 0

/-- The remaining quota is the first one with all increases and without all decreases, and the sum of the
remaining and the used quota is as it was. -/
def Accounted (start : Token) (S : Procs Token Proc) : Prop :=
  S.shared.remainQuota = start.remainQuota + (S.procs.map delta).sum ∧
    S.shared.remainQuota + S.shared.usedQuota = start.remainQuota + start.usedQuota

/-- The condition on a statement: a copy that `Update` writes has the remaining quota of the row. -/
def UpdatesCurrent (row : Token) (p : Proc) (env : Env) : Prop :=
  match p with
  | .update token => env.fails = false → token.remainQuota = row.remainQuota
  | _ => True

/-- The remaining quota, and its sum with the used quota. -/
def quotas (row : Token) : Int × Int := (row.remainQuota, row.remainQuota + row.usedQuota)

def booked (p : Proc) : Int × Int := (delta p, 0)

section
variable {cfg} {row : Token} {p : Proc} {env : Env}

theorem accounted_iff_bookedFor {start : Token} {S : Procs Token Proc} :
    Accounted start S ↔ BookedFor quotas booked (quotas start) S := by
  have hsum : (S.procs.map booked).sum = ((S.procs.map delta).sum, 0) := by
    induction S.procs with
    | nil => rfl
    | cons p l ih =>
      rw [List.map_cons, List.sum_cons, ih, List.map_cons, List.sum_cons]
      rfl
  unfold Accounted BookedFor
  rw [hsum]
  simp [quotas]

theorem balanced_of_consume {quota : Int} {c : Prop} (hp : delta p = 0) (hc : c) :
    quotas (row.consume quota) - quotas row = booked (.done (-quota)) - booked p ↔ c := by
  refine iff_of_true ?_ hc
  unfold booked
  rw [hp]
  ext
  · simp [quotas, Token.consume, delta]
  · simp [quotas, Token.consume]

/-- `ValidateUserToken` and `SelectUpdate` write no quota. -/
theorem validateUserToken_balanced {c : Prop} (hc : c) :
    quotas (prog cfg row (.call .validateUserToken) env).1 - quotas row =
      booked (prog cfg row (.call .validateUserToken) env).2 - booked (.call .validateUserToken) ↔ c := by
  unfold prog
  dsimp only
  split
  · exact balanced_of_same rfl rfl hc
  split
  · exact balanced_of_same rfl rfl hc
  split
  · exact balanced_of_same rfl rfl hc
  · exact balanced_of_same rfl rfl hc

/-- A statement changes the quotas by what it books just where the copy that it writes is current. -/
theorem prog_balanced_iff :
    quotas (prog cfg row p env).1 - quotas row = booked (prog cfg row p env).2 - booked p ↔
      UpdatesCurrent row p env := by
  cases p with
  | call c =>
    cases c with
    | increaseTokenQuota quota =>
      unfold prog
      dsimp only
      split
      · exact balanced_of_same rfl rfl trivial
      split
      · exact balanced_of_same rfl rfl trivial
      · have hconsume := @balanced_of_consume row (.call (.increaseTokenQuota quota)) (-quota) True rfl trivial
        rw [neg_neg] at hconsume
        exact hconsume
    | decreaseTokenQuota quota =>
      unfold prog
      dsimp only
      split
      · exact balanced_of_same rfl rfl trivial
      split
      · exact balanced_of_same rfl rfl trivial
      · exact balanced_of_consume rfl trivial
    | validateUserToken => exact validateUserToken_balanced trivial
    | disableModelLimits =>
      unfold prog
      dsimp only
      split
      · exact balanced_of_same rfl rfl trivial
      · exact balanced_of_same rfl rfl trivial
    | updateTokenStatus token =>
      unfold prog
      dsimp only
      split
      · exact balanced_of_same rfl rfl trivial
      · exact balanced_of_same rfl rfl trivial
  | selectUpdate token =>
    unfold prog
    dsimp only
    split
    · exact balanced_of_same rfl rfl trivial
    · exact balanced_of_same rfl rfl trivial
  | update token =>
    unfold prog UpdatesCurrent
    dsimp only
    cases env.fails with
    | true => exact balanced_of_same rfl rfl fun h => by cases h
    | false =>
      rw [if_neg Bool.false_ne_true]
      refine Iff.trans ?_ ⟨fun h _ => h, fun h => h rfl⟩
      rw [Prod.ext_iff]
      show token.remainQuota - row.remainQuota = 0 - 0 ∧
        token.remainQuota + row.usedQuota - (row.remainQuota + row.usedQuota) = 0 - 0 ↔ _
      omega
  | failed e => exact balanced_of_same rfl rfl trivial
  | done d => exact balanced_of_same rfl rfl trivial

/-- No update is lost in exactly the runs where `Update` only writes copies with the remaining quota of the
row. -/
theorem token_accounted_iff {acts : List (Act Call Env)} :
    Holds (step cfg) (Accounted row) ⟨row, []⟩ acts ↔ Meets (step cfg) (Each UpdatesCurrent) ⟨row, []⟩ acts := by
  have hsame : Accounted row = BookedFor quotas booked (quotas row) :=
    funext fun S => propext accounted_iff_bookedFor
  rw [hsame]
  exact holds_balanced_iff quotas booked (fun _ => rfl) fun _ _ _ => prog_balanced_iff

end

/-- The model limits are read with 1000 left, a request consumes 100, and the copy is written. -/
theorem token_not_accounted :
    ¬ Holds (step { limits := { maxQuotaValue := 500000000000000, maxUserTokens := 1000 } })
      (Accounted { id := 7, status := .enabled, remainQuota := 1000 })
      ⟨{ id := 7, status := .enabled, remainQuota := 1000 }, []⟩
      [.spawn .disableModelLimits, .spawn (.decreaseTokenQuota 100), .sched 0 {}, .sched 1 {}, .sched 0 {}] := by
  intro h
  exact absurd h.last.1 (by decide +kernel)

end NewApi.TokenRow

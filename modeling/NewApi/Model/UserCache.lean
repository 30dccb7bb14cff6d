import NewApi.Lib.Procs

/-!
# A user's entry in the Redis cache

The cached quota is filled from the database, by `GetUserCache` and `GetUserQuota`, and changed along with it, by
`IncreaseUserQuota` and `DecreaseUserQuota`, each in a goroutine of its own. A fill writes what it has read before, and
an increment asks for the TTL of the key before it writes. What is cached stays accounted for where no step meets one of
these windows (`balanced_iff`), and then agrees with the store when the work is done (`coherent_of_keeps`).
-/

namespace NewApi.UserCache

open Procs

/-! ## The user, the hash and the records -/

/-- The columns of `User` that are cached, except the quota. -/
structure Profile where
  id : Nat
  group : String
  email : String := ""
  status : Int := 1
  username : String := ""
  setting : String := ""
deriving DecidableEq

/-- `User`: the columns that are cached, which are the fields of `UserBase`. -/
structure User extends Profile where
  quota : Int
deriving DecidableEq

/-- The hash of a user: the fields that are set, which are all but the quota or none of them, and whether it has an
expiry. -/
structure Hash where
  quota : Option Int
  profile : Option Profile
  expires : Bool
deriving DecidableEq

/-- `RedisHGetObj` of a hash that is there. A field that is not set keeps the zero value. -/
def Hash.toUser (h : Hash) : User :=
  { h.profile.getD { id := 0, group := "", status := 0 } with quota := h.quota.getD 0 }

/-- The row of the user, the quota of it in `batchUpdateStores`, and its hash. -/
structure Shared where
  db : User
  pending : Int := 0
  cache : Option Hash := none

/-- `BatchUpdateEnabled` and `RedisKeyCacheSeconds`. -/
structure Config where
  batchUpdateEnabled : Bool := false
  redisKeyCacheSeconds : Int := 60

/-! ## The commands -/

/-- `RedisHSetObj` of a user: one transaction, that sets the expiry only where there is one. -/
def redisHSetObj (conf : Config) (user : User) (cache : Option Hash) : Hash where
  quota := some user.quota
  profile := some user.toProfile
  expires := 0 < conf.redisKeyCacheSeconds || cache.any (·.expires)

/-- The transaction of `RedisHSetField` on `Quota`. It creates a key that has gone. -/
def hsetQuota (quota : Int) (cache : Option Hash) : Hash where
  quota := some quota
  profile := cache.bind (·.profile)
  expires := true

/-- The transaction of `RedisHIncrBy` on `Quota`. It creates a key that has gone. -/
def hincrByQuota (delta : Int) (cache : Option Hash) : Hash where
  quota := some ((cache.bind (·.quota)).getD 0 + delta)
  profile := cache.bind (·.profile)
  expires := true

/-! ## The calls -/

/-- A call, or an event of the key. -/
inductive Call
  | getUserCache
  | getUserQuota (fromDB : Bool)
  | increaseUserQuota (quota : Int) (db : Bool)
  | decreaseUserQuota (quota : Int) (db : Bool)
  | batchUpdate
  | expire

/-- How far the goroutine of an increment is. -/
inductive Increment
  | ttl
  | hincrBy
  | done
deriving DecidableEq

/-- Where a call is. -/
inductive Proc
  | getCache
  | getUserById
  | updateUserCache (user : User)
  | selectQuota
  | updateUserQuotaCache (quota : Int)
  | hsetField (quota : Int)
  -- the goroutine, and the statement or the record of the call, are two threads
  | change (delta : Int) (db : Bool) (cache : Increment) (stored : Bool)
  | batchUpdate
  | batchStore (value : Int)
  | expire
  | returned (user : User)
  | done
  | refused
deriving DecidableEq

def start : Call → Proc
  | .getUserCache => .getCache
  | .getUserQuota fromDB => if fromDB then .selectQuota else .getCache
  | .increaseUserQuota quota db => if quota < 0 then .refused else .change quota db .ttl false
  | .decreaseUserQuota quota db => if quota < 0 then .refused else .change (-quota) db .ttl false
  | .batchUpdate => .batchUpdate
  | .expire => .expire

/-- Which thread of a call takes its step, and whether the TTL of the key rounds to zero. -/
structure Io where
  goroutine : Bool := true
  almostExpired : Bool := false

/-- `TTL` answers with more than zero. -/
def Shared.HasTtl (s : Shared) (io : Io) : Prop := ∃ h ∈ s.cache, h.expires ∧ ¬ io.almostExpired

instance (s : Shared) (io : Io) : Decidable (s.HasTtl io) :=
  decidable_of_iff (s.cache.any (fun h => decide (h.expires ∧ ¬ io.almostExpired)) = true) <| by
    simp only [Option.any_eq_true, decide_eq_true_iff, Option.mem_def, Shared.HasTtl]

/-- A step of the goroutine of an increment. -/
def cacheIncrUserQuota (s : Shared) (delta : Int) (io : Io) : Increment → Shared × Increment
  | .ttl => (s, if s.HasTtl io then .hincrBy else .done)
  | .hincrBy => ({ s with cache := some (hincrByQuota delta s.cache) }, .done)
  | .done => (s, .done)

/-- The row is changed, or a record is made. -/
def storeDelta (conf : Config) (s : Shared) (delta : Int) (db : Bool) : Shared :=
  if ¬ db ∧ conf.batchUpdateEnabled then { s with pending := s.pending + delta }
  else { s with db.quota := s.db.quota + delta }

/-- The next command or statement of a call. -/
def prog (conf : Config) (s : Shared) (p : Proc) (io : Io) : Shared × Proc :=
  match p with
  | .getCache =>
    match s.cache with
    | some h => (s, .returned h.toUser)
    | none => (s, .getUserById)
  | .getUserById => (s, .updateUserCache s.db)
  | .updateUserCache user => ({ s with cache := some (redisHSetObj conf user s.cache) }, .returned user)
  | .selectQuota => (s, .updateUserQuotaCache s.db.quota)
  | .updateUserQuotaCache quota => (s, if s.HasTtl io then .hsetField quota else .done)
  | .hsetField quota => ({ s with cache := some (hsetQuota quota s.cache) }, .done)
  | .change delta db cache stored =>
    if io.goroutine then
      ((cacheIncrUserQuota s delta io cache).1, .change delta db (cacheIncrUserQuota s delta io cache).2 stored)
    else if stored then (s, p)
    else (storeDelta conf s delta db, .change delta db cache true)
  | .batchUpdate => ({ s with pending := 0 }, .batchStore s.pending)
  | .batchStore value => ({ s with db.quota := s.db.quota + value }, .done)
  | .expire => ({ s with cache := s.cache.filter (¬ ·.expires) }, .done)
  | .returned _ | .done | .refused => (s, p)

def step (conf : Config) : Procs Shared Proc → Act Call Io → Procs Shared Proc :=
  Procs.step start (prog conf)

/-! ## Coherence -/

/-- The quota of the user: that of the row and of the records. -/
def Shared.quota (s : Shared) : Int := s.db.quota + s.pending

/-- The hash is of the user, and its quota is `quota`. -/
def Hash.Shows (h : Hash) (user : User) (quota : Int) : Prop :=
  h.quota = some quota ∧ ∃ profile ∈ h.profile, profile.group = user.group ∧ profile.status = user.status

/-- A cached entry, if there is one, is of the user and has the quota. -/
def Fits (cache : Option Hash) (user : User) (quota : Int) : Prop := ∀ h ∈ cache, h.Shows user quota

/-- A cached entry has the quota, the group and the status of the user. -/
def Coherent (s : Shared) : Prop := Fits s.cache s.db s.quota

/-- No asynchronous work, and no statement that it goes with, is left to do. -/
def Proc.Finished : Proc → Prop
  | .updateUserCache _ | .updateUserQuotaCache _ | .hsetField _ | .batchStore _ => False
  | .change _ _ cache stored => cache = .done ∧ stored
  | _ => True

/-- What the cache is still to get from a call, less what the row and the records are still to get from it. -/
def Proc.owed : Proc → Int
  | .change delta _ cache stored => (if cache = .done then 0 else delta) - if stored then 0 else delta
  | .batchStore value => -value
  | _ => 0

/-- What the calls still owe to the cache. -/
def owed (S : Procs Shared Proc) : Int := (S.procs.map Proc.owed).sum

/-- A cached entry has the quota of the user but for what the calls still owe to it. -/
def Balanced (S : Procs Shared Proc) : Prop := Fits S.shared.cache S.shared.db (S.shared.quota - owed S)

/-- The condition on a step, where the calls owe `due` to the cache: a fill, or a write of the quota, writes what the
user has less that, a key that a goroutine has seen is still there, and one that it takes for gone is not there. -/
def Keeps (s : Shared) (due : Int) : Proc → Io → Prop
  | .updateUserCache user, _ => user.quota = s.quota - due
  | .hsetField quota, _ => s.cache ≠ none ∧ quota = s.quota - due
  | .change delta _ .ttl _, io => io.goroutine → s.cache ≠ none → s.HasTtl io ∨ delta = 0
  | .change _ _ .hincrBy _, io => io.goroutine → s.cache ≠ none
  | _, _ => True

instance (s : Shared) (due : Int) : ∀ (p : Proc) (io : Io), Decidable (Keeps s due p io)
  | .updateUserCache user, _ => inferInstanceAs (Decidable (user.quota = s.quota - due))
  | .hsetField quota, _ => inferInstanceAs (Decidable (s.cache ≠ none ∧ quota = s.quota - due))
  | .change delta _ .ttl _, io => inferInstanceAs (Decidable (io.goroutine → s.cache ≠ none → s.HasTtl io ∨ delta = 0))
  | .change _ _ .hincrBy _, io => inferInstanceAs (Decidable (io.goroutine → s.cache ≠ none))
  | .change _ _ .done _, _ | .getCache, _ | .getUserById, _ | .selectQuota, _ | .updateUserQuotaCache _, _
  | .batchUpdate, _ | .batchStore _, _ | .expire, _ | .returned _, _ | .done, _ | .refused, _ => .isTrue trivial

/-- The condition on the steps of a run. -/
def StepKeeps (S : Procs Shared Proc) : Act Call Io → Prop
  | .spawn _ => True
  | .sched k io => ∀ p ∈ S.procs[k]?, Keeps S.shared (owed S) p io

instance (S : Procs Shared Proc) : DecidablePred (StepKeeps S)
  | .spawn _ => .isTrue trivial
  | .sched k io => inferInstanceAs (Decidable (∀ p ∈ S.procs[k]?, Keeps S.shared (owed S) p io))

section
variable {conf : Config} {s : Shared} {S : Procs Shared Proc} {p : Proc} {io : Io} {user : User} {due : Int}

theorem fits_some {h : Hash} {quota : Int} : Fits (some h) user quota ↔ h.Shows user quota := by
  simp [Fits]

theorem fits_none {quota : Int} : Fits none user quota := nofun

theorem Fits.unique {h : Hash} {quota quota' : Int} (hfits : Fits (some h) user quota) :
    Fits (some h) user quota' ↔ quota = quota' := by
  rw [fits_some] at hfits ⊢
  refine ⟨fun hfits' => Option.some.inj (hfits.1.symm.trans hfits'.1), ?_⟩
  rintro rfl
  exact hfits

/-! ## A step -/

/-- What a fill has read is the user. -/
def Proc.OfUser (user : User) : Proc → Prop
  | .updateUserCache u => u.group = user.group ∧ u.status = user.status
  | _ => True

theorem cacheIncrUserQuota_fits_iff (io : Io) (delta : Int) (cache : Increment) (h : Fits s.cache s.db (s.quota - due)) :
    Fits (cacheIncrUserQuota s delta io cache).1.cache s.db
        (s.quota - (due + ((if (cacheIncrUserQuota s delta io cache).2 = .done then 0 else delta) -
          if cache = .done then 0 else delta))) ↔
      match cache with
      | .ttl => s.cache ≠ none → s.HasTtl io ∨ delta = 0
      | .hincrBy => s.cache ≠ none
      | .done => True := by
  cases cache with
  | ttl =>
    by_cases httl : s.HasTtl io
    · simpa [cacheIncrUserQuota, httl] using h
    · cases hc : s.cache with
      | none => simp [cacheIncrUserQuota, hc, fits_none]
      | some e =>
        rw [hc] at h
        simp only [cacheIncrUserQuota, httl, hc, if_false, h.unique]
        simp
  | hincrBy =>
    cases hc : s.cache with
    | none => simp [cacheIncrUserQuota, hincrByQuota, hc, fits_some, Hash.Shows]
    | some e =>
      rw [hc, fits_some] at h
      obtain ⟨hquota, hprofile⟩ := h
      refine iff_of_true ?_ (by simp)
      simp only [cacheIncrUserQuota, fits_some, hc]
      refine ⟨?_, hprofile⟩
      simp [hincrByQuota, hquota]
      omega
  | done => simpa [cacheIncrUserQuota] using h

theorem Fits.store {cache : Option Hash} {quota quota' q : Int} (h : Fits cache user quota') (hq : quota = quota') :
    Fits cache { user with quota := q } quota := by
  rw [hq]
  exact h

theorem storeDelta_fits (conf : Config) (delta : Int) (db : Bool) (h : Fits s.cache s.db (s.quota - due)) :
    Fits (storeDelta conf s delta db).cache (storeDelta conf s delta db).db
      ((storeDelta conf s delta db).quota - (due + delta)) := by
  unfold storeDelta
  split <;> exact h.store (by simp only [Shared.quota]; omega)

/-- A step keeps what is cached accounted for just where it meets its condition. -/
theorem prog_fits_iff (hp : p.OfUser s.db) (h : Fits s.cache s.db (s.quota - due)) :
    Fits (prog conf s p io).1.cache (prog conf s p io).1.db
        ((prog conf s p io).1.quota - (due + ((prog conf s p io).2.owed - p.owed))) ↔ Keeps s due p io := by
  cases p with
  | getCache =>
    cases hc : s.cache with
    | none => simp [prog, hc, Keeps, fits_none]
    | some e => simpa [prog, hc, Keeps, Proc.owed] using h
  | getUserById | selectQuota | returned | done | refused => simpa [prog, Keeps, Proc.owed] using h
  | updateUserCache u =>
    simp only [prog, Proc.owed, Keeps, sub_self, add_zero, fits_some]
    refine ⟨fun hshows => Option.some.inj hshows.1, fun hq => ⟨congrArg some hq, _, rfl, hp⟩⟩
  | updateUserQuotaCache quota =>
    simp only [prog, Keeps, iff_true]
    split <;> simpa [Proc.owed] using h
  | hsetField quota =>
    simp only [prog, Proc.owed, Keeps, sub_self, add_zero, fits_some]
    constructor
    · rintro ⟨hq, profile, hprofile, -⟩
      refine ⟨fun hnone => ?_, Option.some.inj hq⟩
      rw [hnone] at hprofile
      cases hprofile
    · rintro ⟨hsome, hq⟩
      obtain ⟨e, he⟩ := Option.ne_none_iff_exists'.1 hsome
      rw [he, fits_some] at h
      rw [he]
      exact ⟨congrArg some hq, h.2⟩
  | change delta db cache stored =>
    cases hgo : io.goroutine with
    | true =>
      have hiff := cacheIncrUserQuota_fits_iff io delta cache h
      have hdb : (cacheIncrUserQuota s delta io cache).1.db = s.db ∧
          (cacheIncrUserQuota s delta io cache).1.quota = s.quota := by
        cases cache <;> exact ⟨rfl, rfl⟩
      simp only [prog, hgo, if_true, hdb, Proc.owed, sub_sub_sub_cancel_right]
      refine hiff.trans ?_
      cases cache <;> simp [Keeps, hgo]
    | false =>
      have hkeeps : Keeps s due (.change delta db cache stored) io := by cases cache <;> simp [Keeps, hgo]
      refine iff_of_true ?_ hkeeps
      cases stored with
      | true => simpa [prog, hgo] using h
      | false => simpa [prog, hgo, Proc.owed] using storeDelta_fits conf delta db h
  | batchUpdate => exact iff_of_true (h.store (by simp only [prog, Shared.quota, Proc.owed]; omega)) trivial
  | batchStore value => exact iff_of_true (h.store (by simp only [prog, Shared.quota, Proc.owed]; omega)) trivial
  | expire =>
    refine iff_of_true (fun e he => ?_) trivial
    have hmem : e ∈ s.cache := (Option.mem_filter_iff.1 he).1
    simpa [prog, Proc.owed, Shared.quota] using h e hmem

/-! ## Runs -/

theorem prog_db (conf : Config) (s : Shared) (p : Proc) (io : Io) : ∃ quota, (prog conf s p io).1.db = { s.db with quota } := by
  cases p with
  | getCache => cases hc : s.cache <;> exact ⟨s.db.quota, by simp [prog, hc]⟩
  | change delta db cache stored =>
    unfold prog
    dsimp only
    split
    · cases cache <;> exact ⟨s.db.quota, rfl⟩
    · split
      · exact ⟨s.db.quota, rfl⟩
      · unfold storeDelta
        split <;> exact ⟨_, rfl⟩
  | _ => exact ⟨_, rfl⟩

theorem ofUser_prog (hp : p.OfUser s.db) : (prog conf s p io).2.OfUser s.db := by
  cases p with
  | getCache => cases hc : s.cache <;> simp [prog, hc, Proc.OfUser]
  | getUserById => exact ⟨rfl, rfl⟩
  | updateUserQuotaCache quota =>
    unfold prog
    dsimp only
    split <;> trivial
  | change delta db cache stored =>
    unfold prog
    dsimp only
    split
    · trivial
    · split <;> trivial
  | _ => trivial

theorem ofUser_quota {q : Proc} {quota : Int} : q.OfUser { user with quota } ↔ q.OfUser user := by
  cases q <;> rfl

theorem start_owed (user : User) (call : Call) : (start call).OfUser user ∧ (start call).owed = 0 := by
  cases call with
  | getUserQuota fromDB => cases fromDB <;> exact ⟨trivial, rfl⟩
  | increaseUserQuota quota db | decreaseUserQuota quota db =>
    simp only [start]
    split
    · exact ⟨trivial, rfl⟩
    · exact ⟨trivial, sub_self _⟩
  | _ => exact ⟨trivial, rfl⟩

/-- Every fill is of the user. -/
def FillsOfUser (S : Procs Shared Proc) : Prop := Asserted (fun s p => p.OfUser s.db) (fun _ _ => True) S

theorem FillsOfUser.step (h : FillsOfUser S) (a : Act Call Io) : FillsOfUser (step conf S a) := by
  cases a with
  | spawn call => exact h.spawn (start_owed _ call).1 fun _ => ⟨trivial, trivial⟩
  | sched k io =>
    cases hk : S.procs[k]? with
    | none =>
      unfold UserCache.step
      rw [step_sched_none hk]
      exact h
    | some p =>
      obtain ⟨quota, hdb⟩ := prog_db conf S.shared p io
      refine h.sched hk ?_ fun q _ hq _ _ => ⟨?_, trivial, trivial⟩
      · rw [hdb, ofUser_quota]
        exact ofUser_prog (h.each k p hk)
      · rw [hdb, ofUser_quota]
        exact hq

theorem Balanced.step_iff (hfills : FillsOfUser S) (h : Balanced S) (a : Act Call Io) :
    Balanced (step conf S a) ↔ StepKeeps S a := by
  cases a with
  | spawn call =>
    have howed : owed (step conf S (.spawn call)) = owed S :=
      (sum_spawn Proc.owed).trans ((congrArg _ (start_owed S.shared.db call).2).trans (add_zero _))
    refine iff_of_true ?_ trivial
    unfold Balanced
    rw [howed]
    exact h
  | sched k io =>
    cases hk : S.procs[k]? with
    | none =>
      unfold UserCache.step
      rw [step_sched_none hk]
      exact iff_of_true h fun p hp => by simp [hk] at hp
    | some p =>
      have hsum : ((step conf S (.sched k io)).procs.map Proc.owed).sum + p.owed =
          (S.procs.map Proc.owed).sum + (prog conf S.shared p io).2.owed := sum_sched Proc.owed hk
      have howed : owed (step conf S (.sched k io)) = owed S + ((prog conf S.shared p io).2.owed - p.owed) := by
        unfold owed
        omega
      have hshared : (step conf S (.sched k io)).shared = (prog conf S.shared p io).1 :=
        congrArg shared (step_sched_some hk)
      unfold Balanced
      rw [howed, hshared, prog_fits_iff (hfills.each k p hk) h]
      simp [StepKeeps, hk]

theorem balanced_iff (conf : Config) (s : Shared) (acts : List (Act Call Io)) (h : Coherent s) :
    Run.Holds (step conf) Balanced ⟨s, []⟩ acts ↔ Run.Meets (step conf) StepKeeps ⟨s, []⟩ acts := by
  refine Run.holds_iff_meets (fun S a hfills => hfills.step a) (fun S a hfills hS => hS.step_iff hfills a) ⟨?_, ?_⟩ ?_
  · exact nofun
  · exact fun _ _ _ _ _ _ _ => trivial
  · simpa [Balanced, owed, Coherent] using h

theorem Proc.Finished.owed_eq (h : p.Finished) : p.owed = 0 := by
  cases p with
  | change delta db cache stored =>
    obtain ⟨rfl, rfl⟩ := h
    rfl
  | batchStore => cases h
  | _ => rfl

theorem Balanced.coherent (h : Balanced S) (hfinished : ∀ p ∈ S.procs, p.Finished) : Coherent S.shared := by
  have howed : owed S = 0 := by
    refine List.sum_eq_zero fun n hn => ?_
    obtain ⟨p, hp, rfl⟩ := List.mem_map.1 hn
    exact (hfinished p hp).owed_eq
  rw [Balanced, howed, sub_zero] at h
  exact h

/-- In a run whose steps all meet their condition, whatever is cached after all work has finished agrees with the store. -/
theorem coherent_of_keeps (conf : Config) (s : Shared) (acts : List (Act Call Io)) (h : Coherent s)
    (hkeeps : Run.Meets (step conf) StepKeeps ⟨s, []⟩ acts) :
    Run.Holds (step conf) (fun S => (∀ p ∈ S.procs, p.Finished) → Coherent S.shared) ⟨s, []⟩ acts :=
  ((balanced_iff conf s acts h).2 hkeeps).imp fun _ => Balanced.coherent

end

/-! ## A fill that comes late -/

/-- A user with a quota of 100, that is not cached. -/
def uncached : Shared where
  db := { id := 1, group := "default", quota := 100 }

/-- The cache is filled, and then the quota is increased in the cache and in the database. -/
def inOrder : List (Act Call Io) :=
  [.spawn .getUserCache, .sched 0 {}, .sched 0 {}, .sched 0 {}, .spawn (.increaseUserQuota 10 true), .sched 1 {},
    .sched 1 {}, .sched 1 { goroutine := false }]

theorem coherent_of_keeps_inOrder :
    Run.Holds (step {}) (fun S => (∀ p ∈ S.procs, p.Finished) → Coherent S.shared) ⟨uncached, []⟩ inOrder := by
  refine coherent_of_keeps {} uncached inOrder fits_none ⟨trivial, ?_, ?_, ?_, trivial, ?_, ?_, ?_, trivial⟩ <;> decide

/-- The user is read, and its quota is increased, in the database and not in the cache, before the cache is filled. -/
def lateFill : List (Act Call Io) :=
  [.spawn .getUserCache, .sched 0 {}, .sched 0 {}, .spawn (.increaseUserQuota 10 true), .sched 1 {},
    .sched 1 { goroutine := false }, .sched 0 {}]

theorem lateFill_not_coherent : Coherent uncached ∧
    ¬ Run.Holds (step {}) (fun S => (∀ p ∈ S.procs, p.Finished) → Coherent S.shared) ⟨uncached, []⟩ lateFill := by
  refine ⟨fits_none, fun h => ?_⟩
  have hcoherent := h.last (by
    intro p hp
    have hprocs : (Run.run (step {}) ⟨uncached, []⟩ lateFill).procs =
        [.returned uncached.db, .change 10 true .done true] := by decide
    rw [hprocs] at hp
    simp only [List.mem_cons, List.not_mem_nil, or_false] at hp
    rcases hp with rfl | rfl
    · trivial
    · exact ⟨rfl, rfl⟩)
  have hcache : (Run.run (step {}) ⟨uncached, []⟩ lateFill).shared.cache =
      some { quota := some 100, profile := some uncached.db.toProfile, expires := true } := by decide
  have hquota : (Run.run (step {}) ⟨uncached, []⟩ lateFill).shared.quota = 110 := by decide
  have hshows := (hcoherent _ hcache).1
  rw [hquota] at hshows
  cases hshows

end NewApi.UserCache

import Mathlib.Algebra.Group.Pi.Lemmas
import Mathlib.Algebra.Group.Prod
import Mathlib.Data.List.Perm.Basic
import Mathlib.Tactic.Abel
import NewApi.Lib.Arith
import NewApi.Lib.Procs
import NewApi.Lib.Sum

/-!
# Batched updates

With `BatchUpdateEnabled`, a change of a quota or a counter is not written but recorded (`addNewRecord`): there is
a map of pending changes for each type of update, under a lock of its own. `batchUpdate` looks whether there is
something pending, and then goes over the types, takes the map of each, and writes what is in it. Requests and any
number of runs of `batchUpdate` take turns between these steps. A write that fails is only logged.

What is stored and what is still pending make up what the direct updates would have stored in exactly the runs
where no write of a value fails and no pending value overflows (`refines_iff`).
-/

namespace NewApi.Batch

open Run Procs

/-- The types of updates. -/
inductive BatchType
  | userQuota
  | tokenQuota
  | usedQuota
  | channelUsedQuota
  | requestCount
deriving DecidableEq

/-- The type after one, in the order of their numbers. -/
def BatchType.next : BatchType → Option BatchType
  | .userQuota => some .tokenQuota
  | .tokenQuota => some .usedQuota
  | .usedQuota => some .channelUsedQuota
  | .channelUsedQuota => some .requestCount
  | .requestCount => none

/-- The columns that the updates of a type write, in the row of an id if there is one: the remaining and the used
quota of a token, and otherwise one column with a zero. No two types write the same column. -/
abbrev Db := BatchType → Nat → Option (Int × Int)

namespace Db

/-- `UPDATE … SET column = column + ? WHERE id = ?`. -/
def add (db : Db) (type : BatchType) (id : Nat) (x : Int × Int) : Db :=
  Function.update db type (Function.update (db type) id ((db type id).map (· + x)))

def increaseUserQuota (id : Nat) (quota : Int) (db : Db) : Db := db.add .userQuota id (quota, 0)

def decreaseUserQuota (id : Nat) (quota : Int) (db : Db) : Db := db.add .userQuota id (-quota, 0)

def increaseTokenQuota (id : Nat) (quota : Int) (db : Db) : Db := db.add .tokenQuota id (quota, -quota)

def decreaseTokenQuota (id : Nat) (quota : Int) (db : Db) : Db := db.add .tokenQuota id (-quota, quota)

def updateUserUsedQuota (id : Nat) (quota : Int) (db : Db) : Db := db.add .usedQuota id (quota, 0)

def updateUserRequestCount (id : Nat) (count : Int) (db : Db) : Db := db.add .requestCount id (count, 0)

def updateUserUsedQuotaAndRequestCount (id : Nat) (quota count : Int) (db : Db) : Db :=
  (db.add .usedQuota id (quota, 0)).add .requestCount id (count, 0)

def updateChannelUsedQuota (id : Nat) (quota : Int) (db : Db) : Db := db.add .channelUsedQuota id (quota, 0)

/-- The write of `batchUpdate` for a pending value. -/
def flush (type : BatchType) (id : Nat) (value : Int) (db : Db) : Db :=
  match type with
  | .userQuota => db.increaseUserQuota id value
  | .tokenQuota => db.increaseTokenQuota id value
  | .usedQuota => db.updateUserUsedQuota id value
  | .requestCount => db.updateUserRequestCount id value
  | .channelUsedQuota => db.updateChannelUsedQuota id value

end Db

/-- The calls that update directly, or record. -/
inductive Request
  | increaseUserQuota (id : Nat) (quota : Int)
  | decreaseUserQuota (id : Nat) (quota : Int)
  | increaseTokenQuota (id : Nat) (quota : Int)
  | decreaseTokenQuota (id : Nat) (quota : Int)
  | updateUserUsedQuotaAndRequestCount (id : Nat) (quota : Int)
  | updateUserUsedQuotaDelta (id : Nat) (quota : Int)
  | updateChannelUsedQuota (id : Nat) (quota : Int)
deriving DecidableEq

namespace Request

/-- The call without batches. A quota that must not be negative is refused. -/
def direct (r : Request) (db : Db) : Db :=
  match r with
  | .increaseUserQuota id quota => if quota < 0 then db else db.increaseUserQuota id quota
  | .decreaseUserQuota id quota => if quota < 0 then db else db.decreaseUserQuota id quota
  | .increaseTokenQuota id quota => if quota < 0 then db else db.increaseTokenQuota id quota
  | .decreaseTokenQuota id quota => if quota < 0 then db else db.decreaseTokenQuota id quota
  | .updateUserUsedQuotaAndRequestCount id quota => db.updateUserUsedQuotaAndRequestCount id quota 1
  | .updateUserUsedQuotaDelta id quota => db.updateUserUsedQuota id quota
  | .updateChannelUsedQuota id quota => db.updateChannelUsedQuota id quota

/-- The arguments of the calls of `addNewRecord`, with batches. -/
def records : Request → List (BatchType × Nat × Int)
  | .increaseUserQuota id quota => if quota < 0 then [] else [(.userQuota, id, quota)]
  | .decreaseUserQuota id quota => if quota < 0 then [] else [(.userQuota, id, -quota)]
  | .increaseTokenQuota id quota => if quota < 0 then [] else [(.tokenQuota, id, quota)]
  | .decreaseTokenQuota id quota => if quota < 0 then [] else [(.tokenQuota, id, -quota)]
  | .updateUserUsedQuotaAndRequestCount id quota => [(.usedQuota, id, quota), (.requestCount, id, 1)]
  | .updateUserUsedQuotaDelta id quota => [(.usedQuota, id, quota)]
  | .updateChannelUsedQuota id quota => [(.channelUsedQuota, id, quota)]

end Request

/-- The pending values of a type, by id. -/
abbrev Pending := Table (Prod.fst : Nat × Int → Nat)

namespace Pending

def empty : Pending := ⟨[], by decide⟩

/-- The value under an id, and zero where there is none. -/
def value (t : Pending) (id : Nat) : Int := (t.get? id).elim 0 Prod.snd

/-- `addNewRecord`, under the lock of the type. -/
def addNewRecord (t : Pending) (id : Nat) (value : Int) : Pending :=
  match t.get? id with
  | none => t.insertNew (id, value)
  | some _ => t.modify id (fun e => (e.1, wrap64 (e.2 + value))) fun _ => rfl

end Pending

/-- The database, the pending values, and what the database would be with direct updates. -/
structure Shared where
  db : Db
  pending : BatchType → Pending := fun _ => .empty
  direct : Db

/-- A request before and between its calls of `addNewRecord`, and a run of `batchUpdate`: at the check of a type, at
the exchange of its map, or with the values that it still has to write. -/
inductive Proc
  | request (r : Request)
  | adding (records : List (BatchType × Nat × Int))
  | checking (type : BatchType)
  | swapping (type : BatchType)
  | writing (type : BatchType) (todo : List (Nat × Int))
  | done
deriving DecidableEq

/-- Which of the values is written next, for a map has no order, and whether the write fails. -/
structure Env where
  pick : Nat := 0
  fails : Bool := false

def prog (s : Shared) (p : Proc) (env : Env) : Shared × Proc :=
  match p with
  | .request r => ({ s with direct := r.direct s.direct }, .adding r.records)
  | .adding [] => (s, .done)
  | .adding ((type, id, value) :: records) =>
    ({ s with pending := Function.update s.pending type ((s.pending type).addNewRecord id value) },
      .adding records)
  | .checking type =>
    if (s.pending type).rows.length > 0 then (s, .swapping .userQuota)
    else
      match type.next with
      | some type => (s, .checking type)
      | none => (s, .done)
  | .swapping type =>
    ({ s with pending := Function.update s.pending type .empty }, .writing type (s.pending type).rows)
  | .writing type [] =>
    match type.next with
    | some type => (s, .swapping type)
    | none => (s, .done)
  | .writing type todo =>
    match todo[env.pick]? with
    | none => (s, p)
    | some (id, value) =>
      (if env.fails then s else { s with db := s.db.flush type id value },
        .writing type (todo.eraseIdx env.pick))
  | .done => (s, p)

/-- A request comes in, or `batchUpdate` starts. -/
inductive Call
  | request (r : Request)
  | batchUpdate
deriving DecidableEq

def Call.proc : Call → Proc
  | .request r => .request r
  | .batchUpdate => .checking .userQuota

def step : Procs Shared Proc → Act Call Env → Procs Shared Proc := Procs.step Call.proc prog

/-! ## What is owed to the database -/

/-- A value under one type and id, and zero elsewhere. -/
def single (type : BatchType) (id : Nat) (value : Int) : BatchType → Nat → Int :=
  fun type' id' => if type' = type ∧ id' = id then value else 0

/-- What a process has taken over and not passed on. -/
def owed : Proc → BatchType → Nat → Int
  | .adding records => (records.map fun r => single r.1 r.2.1 r.2.2).sum
  | .writing type todo => (todo.map fun e => single type e.1 e.2).sum
  | _ => 0

/-- What a value adds to the columns of a type. -/
def effect (type : BatchType) (value : Int) : Int × Int :=
  match type with
  | .tokenQuota => (value, -value)
  | _ => (value, 0)

/-- What is stored, with what is pending or on its way, is what direct updates would have stored. -/
def Refines (S : Procs Shared Proc) : Prop :=
  ∀ type id, S.shared.direct type id = (S.shared.db type id).map
    (· + effect type ((S.shared.pending type).value id + (S.procs.map owed).sum type id))

/-- The condition on a step: a write of a value other than zero to a row that is there does not fail, and a pending
value for such a row does not overflow. -/
def Kept (s : Shared) (p : Proc) (env : Env) : Prop :=
  match p with
  | .adding ((type, id, value) :: _) =>
    (s.db type id).isSome → ∀ e, (s.pending type).get? id = some e → Fits64 (e.2 + value)
  | .writing type todo =>
    env.fails = true → ∀ e, todo[env.pick]? = some e → (s.db type e.1).isSome → e.2 = 0
  | _ => True

section
variable {type type' : BatchType} {id id' : Nat} {value : Int} {db start : Db} {x : Int × Int}

theorem effect_add (a b : Int) : effect type (a + b) = effect type a + effect type b := by
  cases type with
  | tokenQuota => exact Prod.ext rfl (Int.neg_add ..)
  | _ => rfl

theorem effect_zero : effect type 0 = 0 := by
  cases type with
  | _ => rfl

theorem effect_eq_zero_iff : effect type value = 0 ↔ value = 0 := by
  refine ⟨fun h => ?_, fun h => by rw [h, effect_zero]⟩
  cases type with
  | _ => exact congrArg Prod.fst h

theorem single_self : single type id value type id = value := if_pos ⟨rfl, rfl⟩

/-! ## Rows -/

theorem Db.flush_eq : db.flush type id value = db.add type id (effect type value) := by
  cases type with
  | _ => rfl

theorem Db.add_apply :
    db.add type id x type' id' = if type' = type ∧ id' = id then (db type id).map (· + x) else db type' id' := by
  unfold add
  by_cases ht : type' = type
  · subst ht
    rw [Function.update_self]
    by_cases hid : id' = id
    · rw [hid, Function.update_self, if_pos ⟨rfl, rfl⟩]
    · rw [Function.update_of_ne hid, if_neg fun h => hid h.2]
  · rw [Function.update_of_ne ht, if_neg fun h => ht h.1]

theorem Request.direct_eq (r : Request) (db : Db) :
    r.direct db = r.records.foldl (fun db r => db.flush r.1 r.2.1 r.2.2) db := by
  have hguard : ∀ {quota : Int} {db' : Db} {r : BatchType × Nat × Int}, db' = db.flush r.1 r.2.1 r.2.2 →
      (if quota < 0 then db else db') =
        (if quota < 0 then [] else [r]).foldl (fun db r => db.flush r.1 r.2.1 r.2.2) db := by
    intro quota db' r hdb
    split
    · rfl
    · exact hdb
  cases r with
  | increaseUserQuota id quota => exact hguard rfl
  | decreaseUserQuota id quota => exact hguard rfl
  | increaseTokenQuota id quota => exact hguard rfl
  | decreaseTokenQuota id quota =>
    refine hguard ?_
    rw [Db.flush_eq]
    unfold effect Db.decreaseTokenQuota
    rw [Int.neg_neg]
  | updateUserUsedQuotaAndRequestCount id quota => rfl
  | updateUserUsedQuotaDelta id quota => rfl
  | updateChannelUsedQuota id quota => rfl

/-- The rows are those of the start. -/
def SameRows (start db : Db) : Prop := ∀ type id, (db type id).isSome = (start type id).isSome

theorem SameRows.flush (h : SameRows start db) : SameRows start (db.flush type id value) := by
  intro type' id'
  rw [← h, Db.flush_eq, Db.add_apply]
  split
  next heq => rw [heq.1, heq.2, Option.isSome_map]
  · rfl

theorem SameRows.flushAll {records : List (BatchType × Nat × Int)} (h : SameRows start db) :
    SameRows start (records.foldl (fun db r => db.flush r.1 r.2.1 r.2.2) db) := by
  induction records generalizing db with
  | nil => exact h
  | cons r records ih => exact ih h.flush

/-- What values add to the columns of the rows that are there. -/
def effects (start : Db) : (BatchType → Nat → Int) →+ (BatchType → Nat → Int × Int) where
  toFun x := fun type id => if (start type id).isSome then effect type (x type id) else 0
  map_zero' := by
    funext type id
    exact (if_congr Iff.rfl effect_zero rfl).trans (ite_self 0)
  map_add' x y := by
    funext type id
    show (if (start type id).isSome then effect type (x type id + y type id) else 0) = _ + _
    split
    next h => rw [effect_add]; simp [h]
    next h => simp [h]

theorem effects_apply {y : BatchType → Nat → Int} :
    effects start y type id = if (start type id).isSome then effect type (y type id) else 0 := rfl

theorem effects_single_eq_zero_iff :
    effects start (single type id value) = 0 ↔ ((start type id).isSome → value = 0) := by
  constructor
  · intro h hsome
    have hat := congrFun (congrFun h type) id
    rw [effects_apply, if_pos hsome, single_self] at hat
    exact effect_eq_zero_iff.1 hat
  · intro h
    funext type' id'
    rw [effects_apply]
    split
    next hsome =>
      unfold single
      split
      next heq =>
        rw [heq.1, heq.2] at hsome
        rw [h hsome, effect_zero]
        rfl
      · exact effect_zero
    · rfl

/-- The columns, with zeros where there is no row. -/
def columns (db : Db) : BatchType → Nat → Int × Int := fun type id => (db type id).getD 0

theorem columns_flush (h : SameRows start db) :
    columns (db.flush type id value) = columns db + effects start (single type id value) := by
  funext type' id'
  show ((db.flush type id value) type' id').getD 0 = (db type' id').getD 0 + effects start _ type' id'
  rw [Db.flush_eq, Db.add_apply, effects_apply, ← h]
  unfold single
  split
  next heq =>
    rw [heq.1, heq.2]
    cases db type id with
    | none => rfl
    | some c => rfl
  · rw [effect_zero, ite_self, add_zero]

theorem columns_flushAll {records : List (BatchType × Nat × Int)} (h : SameRows start db) :
    columns (records.foldl (fun db r => db.flush r.1 r.2.1 r.2.2) db) =
      columns db + effects start (owed (.adding records)) := by
  induction records generalizing db with
  | nil => exact (add_zero _).symm.trans (congrArg _ (map_zero (effects start)).symm)
  | cons r records ih =>
    rw [List.foldl_cons, ih h.flush, columns_flush h, add_assoc, ← map_add]
    rfl

end

/-! ## Pending values -/

section
variable {type : BatchType} {id id' : Nat} {value : Int} {t : Pending} {s : Shared}

/-- What `addNewRecord` adds to the value under its id: the new value, unless the sum with the old one
overflows. -/
def Pending.gain (t : Pending) (id : Nat) (value : Int) : Int :=
  match t.get? id with
  | none => value
  | some e => wrap64 (e.2 + value) - e.2

theorem Pending.gain_eq_iff : t.gain id value = value ↔ ∀ e, t.get? id = some e → Fits64 (e.2 + value) := by
  unfold gain
  cases t.get? id with
  | none => exact iff_of_true rfl fun e he => by cases he
  | some e =>
    dsimp only
    constructor
    · rintro hwrap e' he'
      cases he'
      have hsame : wrap64 (e.2 + value) = e.2 + value := by omega
      rw [← hsame]
      exact fits_wrap64 _
    · intro hfits
      rw [wrap64_of_fits (hfits e rfl)]
      omega

theorem Pending.value_addNewRecord :
    (t.addNewRecord id value).value id' = t.value id' + if id' = id then t.gain id value else 0 := by
  unfold addNewRecord gain Pending.value
  cases h : t.get? id with
  | none =>
    by_cases hid : id' = id
    · rw [hid, if_pos rfl, h]
      have hnew := Table.get?_insertNew_self (a := (id, value)) h
      dsimp only at hnew ⊢
      rw [hnew]
      exact (Int.zero_add _).symm
    · rw [if_neg hid, Int.add_zero]
      dsimp only
      rw [Table.get?_insertNew_ne hid]
  | some e =>
    dsimp only
    by_cases hid : id' = id
    · rw [hid, if_pos rfl, Table.get?_modify_self, h]
      show wrap64 (e.2 + value) = e.2 + (wrap64 (e.2 + value) - e.2)
      omega
    · rw [if_neg hid, Int.add_zero, Table.get?_modify_ne hid]

/-- The pending values of all types. -/
def pendingValues (pending : BatchType → Pending) : BatchType → Nat → Int := fun type id => (pending type).value id

theorem pendingValues_add {pending : BatchType → Pending} :
    pendingValues (Function.update pending type ((pending type).addNewRecord id value)) =
      pendingValues pending + single type id ((pending type).gain id value) := by
  funext type' id'
  show ((Function.update pending type _) type').value id' = (pending type').value id' + single type id _ type' id'
  unfold single
  by_cases ht : type' = type
  · rw [ht, Function.update_self, Pending.value_addNewRecord]
    exact congrArg _ (if_congr (and_iff_right rfl).symm rfl rfl)
  · rw [Function.update_of_ne ht, if_neg fun h => ht h.1, Int.add_zero]

/-- What a run of `batchUpdate` takes from the pending values is what it owes. -/
theorem pendingValues_swap {pending : BatchType → Pending} :
    pendingValues (Function.update pending type .empty) + owed (.writing type (pending type).rows) =
      pendingValues pending := by
  have howed : ∀ (rows : List (Nat × Int)) type' id', owed (.writing type rows) type' id' =
      if type' = type then (rows.map fun e => if e.1 = id' then e.2 else 0).sum else 0 := by
    intro rows type' id'
    induction rows with
    | nil => exact (ite_self 0).symm
    | cons e rows ih =>
      have hcons : owed (.writing type (e :: rows)) type' id' =
          single type e.1 e.2 type' id' + owed (.writing type rows) type' id' := rfl
      rw [hcons, ih, List.map_cons, List.sum_cons]
      unfold single
      by_cases ht : type' = type
      · simp [ht, eq_comm]
      · simp [ht]
  funext type' id'
  show ((Function.update pending type .empty) type').value id' + owed _ type' id' = (pending type').value id'
  rw [howed]
  by_cases ht : type' = type
  · rw [ht, Function.update_self, if_pos rfl]
    have hsum : (pending type).value id' =
        ((pending type).rows.map fun e => if e.1 = id' then e.2 else 0).sum := by
      rw [← Table.sumWhere_eq]
      exact Table.sumWhere_key.symm
    rw [hsum]
    exact Int.zero_add _
  · rw [Function.update_of_ne ht, if_neg ht, Int.add_zero]

end

/-! ## Runs -/

section
variable {start : Db} {s : Shared} {p : Proc} {env : Env}

/-- How far the database, with the pending values, is behind what direct updates would have stored. -/
def lag (start : Db) (s : Shared) : BatchType → Nat → Int × Int :=
  columns s.direct - columns s.db - effects start (pendingValues s.pending)

/-- The database and what it would be have the rows of the start. -/
def Rows (start : Db) (s : Shared) : Prop := SameRows start s.db ∧ SameRows start s.direct

theorem prog_rows (h : Rows start s) : Rows start (prog s p env).1 := by
  unfold prog
  split
  next r =>
    refine ⟨h.1, ?_⟩
    show SameRows start (r.direct s.direct)
    rw [r.direct_eq]
    exact h.2.flushAll
  · exact h
  · exact h
  · split
    · exact h
    split
    · exact h
    · exact h
  · exact h
  · split
    · exact h
    · exact h
  · split
    · exact h
    · dsimp only
      split
      · exact h
      · exact ⟨h.1.flush, h.2⟩
  · exact h

/-- A call of `addNewRecord` passes its record on where the pending value does not overflow. -/
theorem adding_balanced_iff {type : BatchType} {id : Nat} {value : Int} {records : List (BatchType × Nat × Int)}
    (h : Rows start s) :
    lag start { s with pending := Function.update s.pending type ((s.pending type).addNewRecord id value) } -
        lag start s =
      effects start (owed (.adding records)) - effects start (owed (.adding ((type, id, value) :: records))) ↔
    ((s.db type id).isSome → ∀ e, (s.pending type).get? id = some e → Fits64 (e.2 + value)) := by
  have hcons : owed (.adding ((type, id, value) :: records)) = single type id value + owed (.adding records) := rfl
  have hsingle : single type id ((s.pending type).gain id value) - single type id value =
      single type id ((s.pending type).gain id value - value) := by
    funext type' id'
    show single _ _ _ type' id' - single _ _ _ type' id' = _
    unfold single
    split
    · rfl
    · rfl
  unfold lag
  dsimp only
  rw [pendingValues_add, hcons, map_add, map_add, sub_sub_sub_cancel_left, sub_add_cancel_left,
    sub_add_cancel_right, neg_inj, ← sub_eq_zero, ← map_sub, hsingle, effects_single_eq_zero_iff, h.1,
    ← Pending.gain_eq_iff, sub_eq_zero]

/-- A run of `batchUpdate` passes a value on where the write goes through, or changes nothing. -/
theorem writing_balanced_iff {type : BatchType} {todo : List (Nat × Int)} {pick : Nat} {e : Nat × Int}
    (h : Rows start s) (he : todo[pick]? = some e) {fails : Bool} :
    lag start (if fails then s else { s with db := s.db.flush type e.1 e.2 }) - lag start s =
      effects start (owed (.writing type (todo.eraseIdx pick))) - effects start (owed (.writing type todo)) ↔
    (fails = true → (s.db type e.1).isSome → e.2 = 0) := by
  have howed : owed (.writing type todo) = single type e.1 e.2 + owed (.writing type (todo.eraseIdx pick)) := by
    obtain ⟨hlt, rfl⟩ := List.getElem?_eq_some_iff.1 he
    exact ((List.getElem_cons_eraseIdx_perm hlt).symm.map _).sum_eq
  rw [howed, map_add, sub_add_cancel_right]
  cases fails with
  | true =>
    rw [if_pos rfl, sub_self, zero_eq_neg, effects_single_eq_zero_iff, h.1]
    exact ⟨fun h _ => h, fun h => h rfl⟩
  | false =>
    rw [if_neg Bool.false_ne_true]
    unfold lag
    dsimp only
    rw [columns_flush h.1]
    refine iff_of_true ?_ fun h => by cases h
    abel

/-- A step changes what the database lags behind by what its process owes less, just where it keeps the value. -/
theorem prog_balanced_iff (h : Rows start s) :
    lag start (prog s p env).1 - lag start s = effects start (owed (prog s p env).2) - effects start (owed p) ↔
      Kept s p env := by
  unfold prog Kept
  split
  next r =>
    refine iff_of_true ?_ trivial
    unfold lag
    dsimp only
    rw [r.direct_eq, columns_flushAll h.2]
    have hzero : owed (.request r) = 0 := rfl
    rw [hzero, map_zero]
    abel
  · exact balanced_of_same rfl rfl trivial
  · exact adding_balanced_iff h
  next type =>
    split
    · exact balanced_of_same rfl rfl trivial
    split
    · exact balanced_of_same rfl rfl trivial
    · exact balanced_of_same rfl rfl trivial
  next type =>
    refine iff_of_true ?_ trivial
    have hzero : owed (.swapping type) = 0 := rfl
    have hswap := congrArg (effects start) (@pendingValues_swap type s.pending)
    rw [map_add] at hswap
    unfold lag
    dsimp only
    rw [hzero, map_zero, ← hswap]
    abel
  next type =>
    split
    · exact balanced_of_same rfl rfl fun _ e he => by cases he
    · exact balanced_of_same rfl rfl fun _ e he => by cases he
  next type todo hne =>
    split
    next hnone => exact balanced_of_same rfl rfl fun _ e he => by cases hnone.symm.trans he
    next id value hsome =>
      refine (writing_balanced_iff h hsome).trans ⟨fun hc hfails e he hsome' => ?_, fun hc hfails => ?_⟩
      · cases hsome.symm.trans he
        exact hc hfails hsome'
      · exact hc hfails _ hsome
  · exact balanced_of_same rfl rfl trivial

theorem refines_iff_balanced {S : Procs Shared Proc} (h : Rows start S.shared) :
    Refines S ↔ BookedFor (lag start) (fun p => effects start (owed p)) 0 S := by
  have hsum : (S.procs.map fun p => effects start (owed p)).sum = effects start (S.procs.map owed).sum := by
    rw [map_list_sum, List.map_map]
    rfl
  unfold Refines BookedFor
  rw [hsum, zero_add, funext_iff]
  refine forall_congr' fun type => ?_
  rw [funext_iff]
  refine forall_congr' fun id => ?_
  show _ ↔ (S.shared.direct type id).getD 0 - (S.shared.db type id).getD 0 -
    effects start (pendingValues S.shared.pending) type id = _
  have hdb := h.1 type id
  have hdirect := h.2 type id
  rw [effects_apply, effects_apply]
  cases hstart : start type id with
  | none =>
    rw [hstart] at hdb hdirect
    have hdb' : S.shared.db type id = none := Option.not_isSome_iff_eq_none.1 (by rw [hdb]; exact Bool.false_ne_true)
    have hdirect' : S.shared.direct type id = none :=
      Option.not_isSome_iff_eq_none.1 (by rw [hdirect]; exact Bool.false_ne_true)
    rw [hdb', hdirect']
    exact iff_of_true rfl (by simp)
  | some c₀ =>
    rw [hstart] at hdb hdirect
    obtain ⟨c, hc⟩ := Option.isSome_iff_exists.1 hdb
    obtain ⟨d, hd⟩ := Option.isSome_iff_exists.1 hdirect
    rw [hc, hd, Option.map_some, Option.some.injEq, effect_add]
    show _ ↔ d - c - effect type ((S.shared.pending type).value id) = effect type ((S.procs.map owed).sum type id)
    rw [sub_eq_iff_eq_add, sub_eq_iff_eq_add', add_comm (effect type ((S.procs.map owed).sum type id))]

/-- Batched updates lose nothing in exactly the runs where no write of a value fails and no pending value
overflows. -/
theorem refines_iff {acts : List (Act Call Env)} :
    Holds step Refines ⟨{ db := start, direct := start }, []⟩ acts ↔
      Meets step (Each Kept) ⟨{ db := start, direct := start }, []⟩ acts := by
  have hrows : Rows start { db := start, direct := start } := ⟨fun _ _ => rfl, fun _ _ => rfl⟩
  have hlag : lag start { db := start, direct := start } = 0 := by
    have hempty : pendingValues (fun _ => Pending.empty) = 0 := rfl
    unfold lag
    dsimp only
    rw [hempty, map_zero, sub_self, sub_self]
  rw [holds_congr_of_inv (I := fun S => Rows start S.shared)
    (fun S a h => step_shared (fun _ _ _ h => prog_rows h) h a) (fun S h => refines_iff_balanced h) hrows, ← hlag]
  refine holds_balanced_iff_of_inv (lag start) (fun p => effects start (owed p)) (fun _ _ _ h => prog_rows h)
    (fun call => ?_) (fun _ _ _ h => prog_balanced_iff h) hrows
  cases call with
  | request r => exact map_zero _
  | batchUpdate => exact map_zero _

end

/-- The users 1 to 9, with a quota of 1000 each. -/
def someUsers : Db := fun type id => if type = .userQuota ∧ 1 ≤ id ∧ id ≤ 9 then some (1000, 0) else none

/-- A recorded change of 100 is lost where its write fails. -/
theorem not_refines :
    ¬ Holds step Refines ⟨{ db := someUsers, direct := someUsers }, []⟩
      [.spawn (.request (.increaseUserQuota 1 100)), .sched 0 {}, .sched 0 {}, .sched 0 {}, .spawn .batchUpdate,
        .sched 1 {}, .sched 1 {}, .sched 1 { fails := true }] := by
  intro h
  exact absurd (h.last .userQuota 1) (by decide +kernel)

end NewApi.Batch

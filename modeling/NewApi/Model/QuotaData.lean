import Mathlib.Algebra.Group.Prod
import NewApi.Lib.Run
import NewApi.Lib.Sum

/-!
# Quota data

What the dashboard shows is summed up by the hour: `LogQuotaData` adds each request to a row in memory, and
`SaveQuotaDataCache` adds these rows to those of the database every few minutes. In memory a row is found by a text of its
columns, joined by dashes, so rows of one user and hour may be taken for one another where a user name or a model name has
a dash. The user and the hour can be read off the text, so that the sums for them are those of the requests
(`sums_saved`).
-/

namespace NewApi.UsedData

open Run

structure QuotaData where
  userId : ℕ
  username : String
  modelName : String
  createdAt : ℕ
  tokenUsed : Int
  count : Int
  quota : Int
deriving DecidableEq

namespace QuotaData

/-- The columns that a row is found by in the database. -/
def columns (q : QuotaData) : ℕ × String × String × ℕ := (q.userId, q.username, q.modelName, q.createdAt)

/-- The key of a row in memory. -/
def cacheKey (q : QuotaData) : String :=
  toString q.userId ++ "-" ++ q.username ++ "-" ++ q.modelName ++ "-" ++ toString q.createdAt

def amounts (q : QuotaData) : Int × Int × Int := (q.count, q.quota, q.tokenUsed)

def increase (e q : QuotaData) : QuotaData :=
  { q with count := q.count + e.count, quota := q.quota + e.quota, tokenUsed := q.tokenUsed + e.tokenUsed }

theorem cacheKey_increase (e q : QuotaData) : (e.increase q).cacheKey = q.cacheKey := rfl

theorem columns_increase (e q : QuotaData) : (e.increase q).columns = q.columns := rfl

end QuotaData

/-- `CacheQuotaData`, and the table `quota_data`, to which a row is added only where none has its columns. -/
structure State where
  cacheQuotaData : Table QuotaData.cacheKey := .empty
  quotaData : Table QuotaData.columns := .empty

section
variable {κ : Type} [DecidableEq κ] {key : QuotaData → κ}

/-- A row is added to the one under its key, or alone. -/
def addRow (hkey : ∀ e q : QuotaData, key (e.increase q) = key q) (e : QuotaData) (t : Table key) : Table key :=
  match t.get? (key e) with
  | some _ => t.modify (key e) e.increase (hkey e)
  | none => t.insertNew e

end

/-- What a request adds: its hour is all that is kept of its time. -/
def requestRow (userId : ℕ) (username modelName : String) (quota : Int) (createdAt : ℕ) (tokenUsed : Int) : QuotaData :=
  { userId, username, modelName, createdAt := createdAt - createdAt % 3600, tokenUsed, count := 1, quota }

def logQuotaDataCache (e : QuotaData) (t : Table QuotaData.cacheKey) : Table QuotaData.cacheKey :=
  addRow QuotaData.cacheKey_increase e t

/-- One turn of the loop of `SaveQuotaDataCache`, where a failed update or insertion is only logged. -/
def saveRow (fails : Bool) (q : QuotaData) (t : Table QuotaData.columns) : Table QuotaData.columns :=
  if fails then t else addRow QuotaData.columns_increase q t

/-- `LogQuotaData` is called for a request, or `SaveQuotaDataCache` saves the rows in some order, some of them in vain. -/
inductive Op
  | log (userId : ℕ) (username modelName : String) (quota : Int) (createdAt : ℕ) (tokenUsed : Int)
  | save (order : List (QuotaData × Bool))

/-- The row that a call logs. -/
def Op.logged : Op → List QuotaData
  | .log userId username modelName quota createdAt tokenUsed =>
    [requestRow userId username modelName quota createdAt tokenUsed]
  | .save _ => []

def step (s : State) : Op → State
  | .log userId username modelName quota createdAt tokenUsed =>
    { s with cacheQuotaData :=
        logQuotaDataCache (requestRow userId username modelName quota createdAt tokenUsed) s.cacheQuotaData }
  | .save order => { cacheQuotaData := .empty, quotaData := order.foldl (fun t x => saveRow x.2 x.1 t) s.quotaData }

/-- The rows in memory are saved, each once, and no statement fails. -/
def Saves (s : State) : Op → Prop
  | .log .. => True
  | .save order => (order.map Prod.fst).Perm s.cacheQuotaData.rows ∧ ∀ x ∈ order, x.2 = false

/-- What rows sum up to for a user and an hour. -/
def sums (userId createdAt : ℕ) (rows : List QuotaData) : Int × Int × Int :=
  (rows.map fun q => if q.userId = userId ∧ q.createdAt = createdAt then q.amounts else 0).sum

section
variable {κ : Type} [DecidableEq κ] {key : QuotaData → κ} {t : Table key} {e q : QuotaData} {s : State} {o : Op}
  {userId createdAt : ℕ}

/-- What stands before the first separator, and behind it. -/
theorem eq_of_separated {x x' y y' : List Char} (hx : '-' ∉ x) (hx' : '-' ∉ x') (h : x ++ '-' :: y = x' ++ '-' :: y') :
    x = x' ∧ y = y' := by
  rcases List.append_eq_append_iff.1 h with ⟨r, rfl, hr⟩ | ⟨r, rfl, hr⟩
  · cases r with
    | nil => exact ⟨(List.append_nil x).symm, (List.cons.inj hr).2⟩
    | cons c r => exact absurd (List.mem_append_right x ((List.cons.inj hr).1 ▸ List.mem_cons_self)) hx'
  · cases r with
    | nil => exact ⟨List.append_nil x', (List.cons.inj hr).2.symm⟩
    | cons c r => exact absurd (List.mem_append_right x' ((List.cons.inj hr).1 ▸ List.mem_cons_self)) hx

theorem dash_notMem (n : ℕ) : '-' ∉ (toString n).toList := by
  intro h
  have hdigit : '-' ∈ Nat.toDigits 10 n := by simpa using h
  exact absurd (Nat.isDigit_of_mem_toDigits (by decide) (by decide) hdigit) (by decide)

theorem toString_injective {n m : ℕ} (h : toString n = toString m) : n = m := by
  have hdigits := congrArg (fun s : String => Nat.ofDigitChars 10 s.toList 0) h
  simpa [Nat.toString_eq_ofList_toDigits] using hdigits

/-- The user and the hour can be read off the key. -/
theorem userId_eq_of_cacheKey (h : e.cacheKey = q.cacheKey) : e.userId = q.userId ∧ e.createdAt = q.createdAt := by
  have htext (q : QuotaData) : q.cacheKey.toList = (toString q.userId).toList ++ '-' ::
      (q.username.toList ++ '-' :: q.modelName.toList ++ '-' :: (toString q.createdAt).toList) := by
    simp [QuotaData.cacheKey, String.toList_append]
  have hlist := congrArg String.toList h
  rw [htext, htext] at hlist
  obtain ⟨huser, hrest⟩ := eq_of_separated (dash_notMem _) (dash_notMem _) hlist
  have hback := congrArg List.reverse hrest
  simp only [List.reverse_append, List.reverse_cons, List.append_assoc, List.singleton_append] at hback
  obtain ⟨hhour, -⟩ := eq_of_separated (fun h => dash_notMem _ (List.mem_reverse.1 h)) (fun h => dash_notMem _ (List.mem_reverse.1 h)) hback
  exact ⟨toString_injective (String.toList_injective huser),
    toString_injective (String.toList_injective (List.reverse_injective hhour))⟩

/-- A row that is added, adds its amounts. -/
theorem sums_addRow (hsame : ∀ a b, key a = key b → a.userId = b.userId ∧ a.createdAt = b.createdAt)
    {hkey : ∀ e q : QuotaData, key (e.increase q) = key q} :
    sums userId createdAt (addRow hkey e t).rows = sums userId createdAt t.rows + sums userId createdAt [e] := by
  have hsums (t : Table key) : sums userId createdAt t.rows =
      t.sumWhere (fun q => q.userId = userId ∧ q.createdAt = createdAt) QuotaData.amounts := Table.sumWhere_eq.symm
  have hone : sums userId createdAt [e] = if e.userId = userId ∧ e.createdAt = createdAt then e.amounts else 0 :=
    List.sum_singleton
  rw [hsums, hsums, hone, addRow]
  cases hget : t.get? (key e) with
  | none => exact Table.sumWhere_insertNew hget
  | some q =>
    obtain ⟨huser, hhour⟩ := hsame _ _ (Table.key_of_get? hget)
    refine (Table.sumWhere_modify hget).trans ?_
    by_cases hmine : e.userId = userId ∧ e.createdAt = createdAt
    · have hq : q.userId = userId ∧ q.createdAt = createdAt := huser ▸ hhour ▸ hmine
      rw [if_pos hmine, if_pos hq, if_pos (show (e.increase q).userId = userId ∧ (e.increase q).createdAt = createdAt from hq)]
      show _ - q.amounts + (q.amounts + e.amounts) = _
      abel
    · have hq : ¬ (q.userId = userId ∧ q.createdAt = createdAt) := huser ▸ hhour ▸ hmine
      rw [if_neg hmine, if_neg hq, if_neg (show ¬ ((e.increase q).userId = userId ∧ (e.increase q).createdAt = createdAt) from hq),
        sub_zero]

theorem sums_append (rows rows' : List QuotaData) :
    sums userId createdAt (rows ++ rows') = sums userId createdAt rows + sums userId createdAt rows' := by
  unfold sums
  rw [List.map_append, List.sum_append]

/-- The rows that are saved are added to the table. -/
theorem sums_save {order : List (QuotaData × Bool)} (h : ∀ x ∈ order, x.2 = false) (t : Table QuotaData.columns) :
    sums userId createdAt (order.foldl (fun t x => saveRow x.2 x.1 t) t).rows =
      sums userId createdAt t.rows + sums userId createdAt (order.map Prod.fst) := by
  have hsame (a b : QuotaData) (hab : a.columns = b.columns) : a.userId = b.userId ∧ a.createdAt = b.createdAt := by
    obtain ⟨huser, -, -, hhour⟩ := by simpa [QuotaData.columns] using hab
    exact ⟨huser, hhour⟩
  induction order generalizing t with
  | nil => exact (add_zero _).symm
  | cons x order ih =>
    rw [List.forall_mem_cons] at h
    have hrow : saveRow x.2 x.1 t = addRow QuotaData.columns_increase x.1 t := if_neg (by rw [h.1]; exact Bool.false_ne_true)
    rw [List.foldl_cons, ih h.2, hrow, sums_addRow hsame, add_assoc, ← sums_append]
    rfl

/-- A call adds what it logs to the sums over memory and the table. -/
theorem sums_step (h : Saves s o) :
    sums userId createdAt (step s o).cacheQuotaData.rows + sums userId createdAt (step s o).quotaData.rows =
      sums userId createdAt s.cacheQuotaData.rows + sums userId createdAt s.quotaData.rows + sums userId createdAt o.logged := by
  cases o with
  | log =>
    dsimp only [step, Op.logged]
    rw [logQuotaDataCache, sums_addRow (fun _ _ => userId_eq_of_cacheKey), add_right_comm]
  | save order =>
    have hperm : sums userId createdAt (order.map Prod.fst) = sums userId createdAt s.cacheQuotaData.rows :=
      (h.1.map _).sum_eq
    dsimp only [step, Op.logged]
    rw [sums_save h.2, hperm]
    show 0 + (_ + _) = _ + _ + 0
    rw [zero_add, add_zero, add_comm]

/-- What is logged along a run is in memory or in the table. -/
theorem sums_run {l : List Op} (h : Meets step Saves s l) :
    sums userId createdAt (run step s l).cacheQuotaData.rows + sums userId createdAt (run step s l).quotaData.rows =
      sums userId createdAt s.cacheQuotaData.rows + sums userId createdAt s.quotaData.rows +
        sums userId createdAt (l.flatMap Op.logged) := by
  induction l generalizing s with
  | nil => exact (add_zero _).symm
  | cons o l ih =>
    refine (ih h.2).trans ?_
    rw [sums_step h.1, List.flatMap_cons, sums_append, add_assoc]

end

/-- Where no statement fails, the counts, quotas and tokens in memory and in the database are, for every user and hour, those of the
requests that were logged, whatever the names are and whenever rows were saved. -/
theorem sums_saved {ops : List Op} (h : Meets step Saves {} ops) (userId createdAt : ℕ) :
    sums userId createdAt (run step {} ops).cacheQuotaData.rows + sums userId createdAt (run step {} ops).quotaData.rows =
      sums userId createdAt (ops.flatMap Op.logged) :=
  (sums_run h).trans (zero_add _)

/-- The row of "bob" for "gpt-4" is found where one of "bob-gpt" for "4" is logged. -/
theorem sums_saved_bob :
    let ops : List Op := [.log 1 "bob" "gpt-4" 10 3601 5, .log 1 "bob-gpt" "4" 20 3602 6,
      .save [(⟨1, "bob", "gpt-4", 3600, 11, 2, 30⟩, false)]]
    sums 1 3600 (run step {} ops).cacheQuotaData.rows + sums 1 3600 (run step {} ops).quotaData.rows =
      sums 1 3600 (ops.flatMap Op.logged) := by
  intro ops
  have hsaves : Meets step Saves {} ops := ⟨trivial, trivial, ⟨by decide +kernel, by decide⟩, trivial⟩
  exact sums_saved hsaves 1 3600

end NewApi.UsedData

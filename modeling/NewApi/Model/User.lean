import NewApi.Lib.Table

/-!
# The user table

The columns of a user that the billing code reads and writes. The rows are those that are not soft
deleted: every statement below carries that condition, so a deleted user is no row at all.
-/

namespace NewApi

/-- A user, with the columns that money, groups and payments touch. -/
structure User where
  id : Nat
  quota : Int
  group : String := "default"
  email : String := ""
  stripeCustomer : String := ""
deriving DecidableEq, Repr

/-- The users, unique by id. -/
abbrev Users := Table User.id

namespace Users

/-- The quota a user holds, if there is such a user. -/
def quotaOf (t : Users) (id : Nat) : Option Int := (t.get? id).map User.quota

/-- The group a user is in, if there is such a user. -/
def groupOf (t : Users) (id : Nat) : Option String := (t.get? id).map User.group

/-- `UPDATE users SET quota = quota + delta WHERE id = id`, which is no error when no row has
the id. -/
def addQuota (t : Users) (id : Nat) (delta : Int) : Users :=
  t.modify id (fun u => { u with quota := u.quota + delta }) fun _ => rfl

/-- `UPDATE users SET group = group WHERE id = id`. -/
def setGroup (t : Users) (id : Nat) (group : String) : Users :=
  t.modify id (fun u => { u with group := group }) fun _ => rfl

section
variable {t : Users} {id id' : Nat} {delta : Int} {group : String}

theorem quotaOf_addQuota :
    (t.addQuota id delta).quotaOf id' =
      if id' = id then (t.quotaOf id).map (· + delta) else t.quotaOf id' := by
  simp only [quotaOf, addQuota, Table.get?_modify]
  split
  next h => subst h; rw [Option.map_map, Option.map_map]; rfl
  next => rfl

theorem groupOf_setGroup :
    (t.setGroup id group).groupOf id' =
      if id' = id then (t.groupOf id).map fun _ => group else t.groupOf id' := by
  simp only [groupOf, setGroup, Table.get?_modify]
  split
  next h => subst h; rw [Option.map_map, Option.map_map]; rfl
  next => rfl

end

end Users

end NewApi

import NewApi.Sales.Model

/-!
# The chain of inviters

Who has invited whom does not change. The loops of the sales code walk up from a user; here the walk is
given by the inviter so many steps up, and by paths on which each user is followed by its inviter.
-/

namespace NewApi.Sales

/-- The inviter of a user. -/
def inviterOf (users : Table SalesUser.id) (id : Nat) : Option Nat :=
  (users.get? id).bind fun u => if u.inviterId = 0 then none else some u.inviterId

/-- The inviter so many steps up. -/
def nthInviter (users : Table SalesUser.id) : Nat → Nat → Option Nat
  | 0, id => some id
  | k + 1, id => (inviterOf users id).bind (nthInviter users k)

section
variable {users users' : Table SalesUser.id} {k id levels level : Nat} {f : SalesUser → SalesUser}
  {hf : ∀ u, (f u).id = u.id} {p : Nat × SalesUser}

theorem inviterOf_modify (h : ∀ u, (f u).inviterId = u.inviterId) :
    inviterOf (users.modify k f hf) = inviterOf users := by
  funext id
  unfold inviterOf
  rw [Table.get?_modify]
  split
  next =>
    cases users.get? id with
    | none => rfl
    | some u =>
      show (if (f u).inviterId = 0 then none else some (f u).inviterId) = _
      rw [h]
      rfl
  next => rfl

theorem nthInviter_congr (h : inviterOf users = inviterOf users') :
    nthInviter users k id = nthInviter users' k id := by
  induction k generalizing id with
  | zero => rfl
  | succ k ih =>
    rw [nthInviter, nthInviter, h]
    exact congrArg _ (funext fun _ => ih)

theorem getUserById_eq_some {u : SalesUser} (h : getUserById users id = some u) :
    users.get? id = some u ∧ id ≠ 0 := by
  unfold getUserById at h
  split at h
  · cases h
  next hid => exact ⟨h, hid⟩

theorem mem_inviters (h : p ∈ inviters users levels level id) :
    p.2 ∈ users ∧ ∃ k < levels, p.1 = level + k ∧ nthInviter users (k + 1) id = some p.2.id := by
  induction levels generalizing level id with
  | zero => cases h
  | succ levels ih =>
    rw [inviters] at h
    cases hcur : getUserById users id with
    | none =>
      rw [hcur] at h
      cases h
    | some cur =>
      rw [hcur] at h
      dsimp only at h
      split at h
      · cases h
      next hroot =>
      have hinviter : inviterOf users id = some cur.inviterId := by
        rw [inviterOf, (getUserById_eq_some hcur).1]
        exact if_neg hroot
      cases hup : getUserById users cur.inviterId with
      | none =>
        rw [hup] at h
        cases h
      | some inviter =>
        rw [hup] at h
        obtain ⟨hmem, hid⟩ := Table.get?_eq_some.1 (getUserById_eq_some hup).1
        rcases List.mem_cons.1 h with rfl | h
        · refine ⟨hmem, 0, Nat.succ_pos _, rfl, ?_⟩
          rw [nthInviter, hinviter, hid]
          rfl
        · obtain ⟨hmem', k, hk, hlevel, hnth⟩ := ih h
          refine ⟨hmem', k + 1, Nat.succ_lt_succ hk, ?_, ?_⟩
          · rw [hlevel, Nat.add_assoc, Nat.add_comm 1 k]
          · rw [nthInviter, hinviter, ← hnth, hid]
            rfl

end

end NewApi.Sales

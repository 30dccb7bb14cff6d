import NewApi.Enterprise.Limit
import NewApi.Lib.Run
import NewApi.Lib.Table

/-!
# Who belongs to which enterprise and workgroup

The members of enterprises and of workgroups, the workgroups and the limits are tables of their own, and who administers
an enterprise is written twice, in the enterprise and in the user. The rows are those that are not soft deleted. The tables
agree where every row refers to rows that are there, a member of a workgroup is one of its enterprise, and the two columns
name the same administrator (`Directory.Consistent`); then no limit is applied to a user that has left its enterprise or
its workgroup (`Directory.Consistent.limitsCurrent`).

An operation keeps this in just the cases that `Directory.Keeps` says. `DeleteEnterprise` leaves the workgroups and the
limits of the enterprise, and `RemoveEnterpriseMember` the place in a workgroup and the `admin_id`.
-/

namespace NewApi.Enterprise

open Run

/-- `User`, with the enterprise that it administers. -/
structure AdminUser where
  id : Nat
  enterpriseAdminOf : Nat := 0
deriving DecidableEq

/-- `Enterprise`. -/
structure EnterpriseRow where
  id : Nat
  adminId : Nat := 0
  id_pos : 0 < id
deriving DecidableEq

/-- A user is in one enterprise (`uniq_enterprise_members_user_active`). -/
structure EnterpriseMember where
  userId : Nat
  enterpriseId : Nat
deriving DecidableEq

structure WorkGroup where
  id : Nat
  enterpriseId : Nat
  id_pos : 0 < id
deriving DecidableEq

/-- A user is in one workgroup (`uniq_work_group_members_user_active`). -/
structure WorkGroupMember where
  userId : Nat
  workGroupId : Nat
deriving DecidableEq

inductive MembershipError
  | invalidParams
  | enterpriseUserHasOther
  | enterpriseUserNotMember
  | workGroupNotFound
  | workGroupUserHasOther
  | workGroupMemberNotFound
  | workGroupMemberNotInEnt
deriving DecidableEq

def MembershipError.message : MembershipError → String
  | .invalidParams => "invalid params"
  | .enterpriseUserHasOther => "用户已属于其他企业，请先移除"
  | .enterpriseUserNotMember => "用户不在该企业中"
  | .workGroupNotFound => "工作组不存在"
  | .workGroupUserHasOther => "用户已在其他工作组"
  | .workGroupMemberNotFound => "用户不在该工作组"
  | .workGroupMemberNotInEnt => "用户不在该企业中"

/-- The tables. -/
structure Directory where
  users : Table AdminUser.id
  enterprises : Table EnterpriseRow.id
  members : Table EnterpriseMember.userId
  workGroups : Table WorkGroup.id
  workGroupMembers : Table WorkGroupMember.userId
  limits : List EnterpriseLimit

def AdminUser.setAdminOf (enterpriseId : Nat) (u : AdminUser) : AdminUser :=
  { u with enterpriseAdminOf := enterpriseId }

def EnterpriseRow.setAdmin (userId : Nat) (e : EnterpriseRow) : EnterpriseRow := { e with adminId := userId }

theorem AdminUser.id_setAdminOf (enterpriseId : Nat) (u : AdminUser) : (u.setAdminOf enterpriseId).id = u.id := rfl

theorem EnterpriseRow.id_setAdmin (userId : Nat) (e : EnterpriseRow) : (e.setAdmin userId).id = e.id := rfl

namespace Directory

def HasEnterprise (d : Directory) (enterpriseId : Nat) : Prop := ∃ e ∈ d.enterprises, e.id = enterpriseId

def HasWorkGroup (d : Directory) (workGroupId : Nat) : Prop := ∃ g ∈ d.workGroups, g.id = workGroupId

/-- The user is a member of the enterprise. -/
def IsMember (d : Directory) (enterpriseId userId : Nat) : Prop :=
  ∃ m ∈ d.members, m.enterpriseId = enterpriseId ∧ m.userId = userId

/-- The user is a member of the workgroup. -/
def InWorkGroup (d : Directory) (workGroupId userId : Nat) : Prop :=
  ∃ m ∈ d.workGroupMembers, m.workGroupId = workGroupId ∧ m.userId = userId

instance (d : Directory) (enterpriseId userId : Nat) : Decidable (d.IsMember enterpriseId userId) :=
  inferInstanceAs (Decidable (∃ m ∈ d.members.rows, _))

instance (d : Directory) (workGroupId userId : Nat) : Decidable (d.InWorkGroup workGroupId userId) :=
  inferInstanceAs (Decidable (∃ m ∈ d.workGroupMembers.rows, _))

/-! ## The operations -/

def deleteEnterprise (d : Directory) (id : Nat) : Directory :=
  { d with
    users := d.users.modifyWhere (fun u => u.enterpriseAdminOf = id) (·.setAdminOf 0) (AdminUser.id_setAdminOf 0)
    members := d.members.filter fun m => m.enterpriseId ≠ id
    enterprises := d.enterprises.filter fun e => e.id ≠ id }

def addEnterpriseMember (d : Directory) (enterpriseId userId : Nat) : Except MembershipError Directory :=
  if enterpriseId = 0 ∨ userId = 0 then .error .invalidParams
  else
    match d.members.get? userId with
    | some existing => if existing.enterpriseId = enterpriseId then .ok d else .error .enterpriseUserHasOther
    | none => .ok { d with members := d.members.insertNew { enterpriseId, userId } }

def removeEnterpriseMember (d : Directory) (enterpriseId userId : Nat) : Except MembershipError Directory :=
  if enterpriseId = 0 ∨ userId = 0 then .error .invalidParams
  else if ¬ d.IsMember enterpriseId userId then .error .enterpriseUserNotMember
  else
    .ok { d with
      members := d.members.filter fun m => ¬ (m.enterpriseId = enterpriseId ∧ m.userId = userId)
      users := d.users.modifyWhere (fun u => u.id = userId ∧ u.enterpriseAdminOf = enterpriseId) (·.setAdminOf 0)
        (AdminUser.id_setAdminOf 0) }

def setEnterpriseAdmin (d : Directory) (enterpriseId userId : Nat) : Except MembershipError Directory :=
  if enterpriseId = 0 ∨ userId = 0 then .error .invalidParams
  else if ¬ d.IsMember enterpriseId userId then .error .enterpriseUserNotMember
  else
    .ok { d with
      users := (d.users.modifyWhere (fun u => u.enterpriseAdminOf = enterpriseId ∧ u.id ≠ userId) (·.setAdminOf 0)
        (AdminUser.id_setAdminOf 0)).modify userId (·.setAdminOf enterpriseId) (AdminUser.id_setAdminOf enterpriseId)
      enterprises := d.enterprises.modify enterpriseId (·.setAdmin userId) (EnterpriseRow.id_setAdmin userId) }

def deleteWorkGroup (d : Directory) (id : Nat) : Directory :=
  { d with
    workGroupMembers := d.workGroupMembers.filter fun m => m.workGroupId ≠ id
    limits := d.limits.filter fun l => ¬ (l.scopeType = .workgroup ∧ l.scopeId = id)
    workGroups := d.workGroups.filter fun g => g.id ≠ id }

def addWorkGroupMember (d : Directory) (workGroupId userId : Nat) : Except MembershipError Directory :=
  if workGroupId = 0 ∨ userId = 0 then .error .invalidParams
  else
    match d.workGroups.get? workGroupId with
    | none => .error .workGroupNotFound
    | some wg =>
      if ¬ d.IsMember wg.enterpriseId userId then .error .workGroupMemberNotInEnt
      else
        match d.workGroupMembers.get? userId with
        | some existing => if existing.workGroupId = workGroupId then .ok d else .error .workGroupUserHasOther
        | none => .ok { d with workGroupMembers := d.workGroupMembers.insertNew { workGroupId, userId } }

def removeWorkGroupMember (d : Directory) (workGroupId userId : Nat) : Except MembershipError Directory :=
  if workGroupId = 0 ∨ userId = 0 then .error .invalidParams
  else if ¬ d.InWorkGroup workGroupId userId then .error .workGroupMemberNotFound
  else
    .ok { d with
      workGroupMembers := d.workGroupMembers.filter fun m => ¬ (m.workGroupId = workGroupId ∧ m.userId = userId) }

/-- The membership that the limits are applied by. -/
def membership (d : Directory) : Membership where
  enterpriseOf userId := (d.members.get? userId).elim 0 (·.enterpriseId)
  workGroupOf userId := (d.workGroupMembers.get? userId).elim 0 (·.workGroupId)

def getActiveLimitsForUser (d : Directory) (userId : Nat) : List EnterpriseLimit :=
  d.limits.filter (covers d.membership userId)

/-! ## Runs -/

/-- A call of an operation. -/
inductive Op
  | addEnterpriseMember (enterpriseId userId : Nat)
  | removeEnterpriseMember (enterpriseId userId : Nat)
  | setEnterpriseAdmin (enterpriseId userId : Nat)
  | deleteEnterprise (id : Nat)
  | addWorkGroupMember (workGroupId userId : Nat)
  | removeWorkGroupMember (workGroupId userId : Nat)
  | deleteWorkGroup (id : Nat)

def call (d : Directory) : Op → Except MembershipError Directory
  | .addEnterpriseMember enterpriseId userId => d.addEnterpriseMember enterpriseId userId
  | .removeEnterpriseMember enterpriseId userId => d.removeEnterpriseMember enterpriseId userId
  | .setEnterpriseAdmin enterpriseId userId => d.setEnterpriseAdmin enterpriseId userId
  | .deleteEnterprise id => .ok (d.deleteEnterprise id)
  | .addWorkGroupMember workGroupId userId => d.addWorkGroupMember workGroupId userId
  | .removeWorkGroupMember workGroupId userId => d.removeWorkGroupMember workGroupId userId
  | .deleteWorkGroup id => .ok (d.deleteWorkGroup id)

/-- A call that fails leaves the tables as they are. -/
def step (d : Directory) (op : Op) : Directory :=
  match d.call op with
  | .ok d' => d'
  | .error _ => d

/-! ## Tables that agree -/

/-- The tables agree. -/
structure Consistent (d : Directory) : Prop where
  members : ∀ m ∈ d.members, d.HasEnterprise m.enterpriseId
  workGroups : ∀ g ∈ d.workGroups, d.HasEnterprise g.enterpriseId
  workGroupMembers : ∀ m ∈ d.workGroupMembers, ∃ g ∈ d.workGroups, g.id = m.workGroupId ∧
    d.IsMember g.enterpriseId m.userId
  limits : ∀ l ∈ d.limits, d.HasEnterprise l.enterpriseId ∧ (l.scopeType = .workgroup → d.HasWorkGroup l.scopeId)
  admins : ∀ e ∈ d.enterprises, ∀ userId, e.adminId = userId ∧ userId ≠ 0 ↔
    ∃ u ∈ d.users, u.id = userId ∧ u.enterpriseAdminOf = e.id
  adminIsMember : ∀ e ∈ d.enterprises, e.adminId ≠ 0 → d.IsMember e.id e.adminId
  adminOf : ∀ u ∈ d.users, u.enterpriseAdminOf ≠ 0 → d.HasEnterprise u.enterpriseAdminOf

/-- The limits that are applied to a user are those of its enterprise and its workgroup, which belongs to the enterprise. -/
def LimitsCurrent (d : Directory) : Prop :=
  ∀ userId, ∀ l ∈ d.getActiveLimitsForUser userId, d.HasEnterprise l.enterpriseId ∧ d.IsMember l.enterpriseId userId ∧
    (l.scopeType = .workgroup → d.InWorkGroup l.scopeId userId ∧
      ∃ g ∈ d.workGroups, g.id = l.scopeId ∧ g.enterpriseId = l.enterpriseId)

/-- The condition on a call. -/
def Keeps (d : Directory) : Op → Prop
  | .addEnterpriseMember enterpriseId userId =>
    enterpriseId ≠ 0 → userId ≠ 0 → d.members.get? userId = none → d.HasEnterprise enterpriseId
  | .removeEnterpriseMember enterpriseId userId =>
    userId ≠ 0 → d.IsMember enterpriseId userId →
      d.workGroupMembers.get? userId = none ∧ ∀ e ∈ d.enterprises, e.id = enterpriseId → e.adminId ≠ userId
  | .setEnterpriseAdmin enterpriseId userId =>
    userId ≠ 0 → d.IsMember enterpriseId userId → (d.users.get? userId).isSome
  | .deleteEnterprise id => (∀ g ∈ d.workGroups, g.enterpriseId ≠ id) ∧ ∀ l ∈ d.limits, l.enterpriseId ≠ id
  | .addWorkGroupMember .. | .removeWorkGroupMember .. | .deleteWorkGroup _ => True

section
variable {d d' : Directory} {enterpriseId enterpriseId' workGroupId userId userId' id : Nat}

theorem IsMember.unique (h : d.IsMember enterpriseId userId) (h' : d.IsMember enterpriseId' userId) :
    enterpriseId = enterpriseId' := by
  obtain ⟨m, hm, rfl, rfl⟩ := h
  obtain ⟨m', hm', rfl, huser⟩ := h'
  rw [Table.eq_of_key_eq hm hm' huser.symm]

theorem isMember_of_get? {m : EnterpriseMember} (h : d.members.get? userId = some m) :
    d.IsMember m.enterpriseId userId :=
  ⟨m, Table.mem_of_get? h, rfl, Table.key_of_get? h⟩

theorem inWorkGroup_of_get? {m : WorkGroupMember} (h : d.workGroupMembers.get? userId = some m) :
    d.InWorkGroup m.workGroupId userId :=
  ⟨m, Table.mem_of_get? h, rfl, Table.key_of_get? h⟩

theorem Consistent.hasEnterprise (h : d.Consistent) (hm : d.IsMember enterpriseId userId) :
    d.HasEnterprise enterpriseId := by
  obtain ⟨m, hmem, rfl, -⟩ := hm
  exact h.members m hmem

theorem Consistent.isMember_of_adminOf (h : d.Consistent) {e : EnterpriseRow} {u : AdminUser} (he : e ∈ d.enterprises)
    (hu : u ∈ d.users) (hadmin : u.enterpriseAdminOf = e.id) : e.adminId = u.id ∧ d.IsMember e.id u.id := by
  obtain ⟨heq, hne⟩ := (h.admins e he u.id).2 ⟨u, hu, rfl, hadmin⟩
  refine ⟨heq, ?_⟩
  rw [← heq]
  exact h.adminIsMember e he (heq ▸ hne)

/-- Where the tables agree, no limit of an enterprise or a workgroup is applied that the user is not in. -/
theorem Consistent.limitsCurrent (h : d.Consistent) : d.LimitsCurrent := by
  intro userId l hl
  obtain ⟨hmem, hcovers⟩ := List.mem_filter.1 hl
  obtain ⟨hent, hgroup⟩ := h.limits l hmem
  unfold covers at hcovers
  split at hcovers
  · cases hcovers
  next hin =>
    rw [not_or] at hin
    rw [Bool.and_eq_true, beq_iff_eq] at hcovers
    have hmember : d.IsMember l.enterpriseId userId := by
      rw [hcovers.1]
      have hne := hin.2
      unfold membership at hne ⊢
      dsimp only at hne ⊢
      cases hget : d.members.get? userId with
      | none =>
        rw [hget] at hne
        exact absurd rfl hne
      | some m => exact isMember_of_get? hget
    refine ⟨hent, hmember, fun hscope => ?_⟩
    have hid : l.scopeId = d.membership.workGroupOf userId := by
      have hmatch := hcovers.2
      rw [hscope] at hmatch
      exact beq_iff_eq.1 hmatch
    obtain ⟨g, hg, hgid⟩ := hgroup hscope
    unfold membership at hid
    dsimp only at hid
    cases hget : d.workGroupMembers.get? userId with
    | none =>
      -- no workgroup has the id zero
      rw [hget] at hid
      exact absurd (hgid.trans hid) g.id_pos.ne'
    | some m =>
      rw [hget] at hid
      obtain ⟨g', hg', hgid', hin'⟩ := h.workGroupMembers m (Table.mem_of_get? hget)
      have huser : m.userId = userId := Table.key_of_get? hget
      have hsame : g'.id = l.scopeId := hgid'.trans hid.symm
      refine ⟨?_, g', hg', hsame, (huser ▸ hin').unique hmember⟩
      rw [hid]
      exact inWorkGroup_of_get? hget

/-! ## Adding and removing members -/

theorem mem_insertMember {m : EnterpriseMember} (hfree : d.members.get? userId = none) :
    m ∈ d.members.insertNew { enterpriseId, userId } ↔ m ∈ d.members ∨ m = { enterpriseId, userId } := by
  rw [Table.mem_insertNew, and_iff_left (Table.get?_eq_none.1 hfree)]

theorem Consistent.addEnterpriseMember_iff (h : d.Consistent) (hfree : d.members.get? userId = none) :
    Consistent { d with members := d.members.insertNew { enterpriseId, userId } } ↔ d.HasEnterprise enterpriseId := by
  constructor
  · intro h'
    exact h'.members { enterpriseId, userId } ((mem_insertMember hfree).2 (.inr rfl))
  · intro hent
    have hkeep : ∀ {e u}, d.IsMember e u →
        IsMember { d with members := d.members.insertNew { enterpriseId, userId } } e u := by
      rintro e u ⟨m, hm, hin⟩
      exact ⟨m, (mem_insertMember hfree).2 (.inl hm), hin⟩
    refine { h with members := ?_, workGroupMembers := ?_, adminIsMember := ?_ }
    · intro m hm
      rcases (mem_insertMember hfree).1 hm with hm | rfl
      · exact h.members m hm
      · exact hent
    · intro m hm
      obtain ⟨g, hg, hid, hin⟩ := h.workGroupMembers m hm
      exact ⟨g, hg, hid, hkeep hin⟩
    · intro e he hne
      exact hkeep (h.adminIsMember e he hne)

/-- A member may be removed that is in no workgroup and does not administer the enterprise. -/
theorem Consistent.removeEnterpriseMember_iff (h : d.Consistent) (huser : userId ≠ 0)
    (hin : d.IsMember enterpriseId userId) :
    Consistent { d with
        members := d.members.filter fun m => ¬ (m.enterpriseId = enterpriseId ∧ m.userId = userId)
        users := d.users.modifyWhere (fun u => u.id = userId ∧ u.enterpriseAdminOf = enterpriseId) (·.setAdminOf 0)
          (AdminUser.id_setAdminOf 0) } ↔
      d.workGroupMembers.get? userId = none ∧ ∀ e ∈ d.enterprises, e.id = enterpriseId → e.adminId ≠ userId := by
  set d' : Directory := { d with
    members := d.members.filter fun m => ¬ (m.enterpriseId = enterpriseId ∧ m.userId = userId)
    users := d.users.modifyWhere (fun u => u.id = userId ∧ u.enterpriseAdminOf = enterpriseId) (·.setAdminOf 0)
      (AdminUser.id_setAdminOf 0) } with hd'
  have hgone : ∀ e, ¬ d'.IsMember e userId := by
    rintro e ⟨m, hm, hent, hid⟩
    obtain ⟨hmem, hnot⟩ := Table.mem_filter.1 hm
    exact hnot ⟨IsMember.unique ⟨m, hmem, rfl, hid⟩ hin, hid⟩
  have hkeep : ∀ {e u}, u ≠ userId → d.IsMember e u → d'.IsMember e u := by
    rintro e u hne ⟨m, hm, hent, hid⟩
    exact ⟨m, Table.mem_filter.2 ⟨hm, fun hand => hne (hid.symm.trans hand.2)⟩, hent, hid⟩
  constructor
  · intro h'
    refine ⟨?_, fun e he hid hadmin => ?_⟩
    · cases hget : d.workGroupMembers.get? userId with
      | none => rfl
      | some m =>
        obtain ⟨g, -, -, hmember⟩ := h'.workGroupMembers m (Table.mem_of_get? hget)
        rw [Table.key_of_get? hget] at hmember
        exact absurd hmember (hgone _)
    · have hmember := h'.adminIsMember e he (hadmin ▸ huser)
      rw [hadmin] at hmember
      exact hgone _ hmember
  · rintro ⟨hfree, hnot⟩
    -- no user's `enterprise_admin_of` is cleared
    have hselect : ∀ u ∈ d.users, ¬ (u.id = userId ∧ u.enterpriseAdminOf = enterpriseId) := by
      intro u hu hand
      obtain ⟨e, he, rfl⟩ := h.hasEnterprise hin
      exact hnot e he rfl ((h.isMember_of_adminOf he hu hand.2).1.trans hand.1)
    have husers : d'.users = d.users := by
      show d.users.modifyWhere _ (·.setAdminOf 0) (AdminUser.id_setAdminOf 0) = d.users
      exact Table.modifyWhere_eq_self fun u hu hand => absurd hand (hselect u hu)
    refine { h with members := ?_, workGroupMembers := ?_, admins := ?_, adminIsMember := ?_, adminOf := ?_ }
    · intro m hm
      exact h.members m (Table.mem_filter.1 hm).1
    · intro m hm
      obtain ⟨g, hg, hid, hmember⟩ := h.workGroupMembers m hm
      exact ⟨g, hg, hid, hkeep (Table.get?_eq_none.1 hfree m hm) hmember⟩
    · rw [husers]
      exact h.admins
    · intro e he hne
      have hmember := h.adminIsMember e he hne
      refine hkeep (fun hadmin => hnot e he ?_ hadmin) hmember
      rw [hadmin] at hmember
      exact hmember.unique hin
    · rw [husers]
      exact h.adminOf

/-! ## Administrators -/

theorem mem_clearAdmin {p : AdminUser → Prop} [DecidablePred p] {u' : AdminUser} :
    u' ∈ d.users.modifyWhere p (·.setAdminOf 0) (AdminUser.id_setAdminOf 0) ↔
      ∃ u ∈ d.users, (if p u then u.setAdminOf 0 else u) = u' :=
  Table.mem_modifyWhere

theorem mem_setEnterprise {e' : EnterpriseRow} :
    e' ∈ d.enterprises.modify enterpriseId (·.setAdmin userId) (EnterpriseRow.id_setAdmin userId) ↔
      ∃ e ∈ d.enterprises, (if e.id = enterpriseId then e.setAdmin userId else e) = e' :=
  Table.mem_modifyWhere

/-- What `SetEnterpriseAdmin` makes of a user: it administers the enterprise, and nobody else does. -/
theorem setAdmin_row (u : AdminUser) :
    (if (if u.enterpriseAdminOf = enterpriseId ∧ u.id ≠ userId then u.setAdminOf 0 else u).id = userId
      then (if u.enterpriseAdminOf = enterpriseId ∧ u.id ≠ userId then u.setAdminOf 0 else u).setAdminOf enterpriseId
      else (if u.enterpriseAdminOf = enterpriseId ∧ u.id ≠ userId then u.setAdminOf 0 else u)) =
      u.setAdminOf (if u.id = userId then enterpriseId
        else if u.enterpriseAdminOf = enterpriseId then 0 else u.enterpriseAdminOf) := by
  by_cases hid : u.id = userId
  · have hnot : ¬ (u.enterpriseAdminOf = enterpriseId ∧ u.id ≠ userId) := fun hand => hand.2 hid
    rw [if_neg hnot, if_pos hid, if_pos hid]
  · by_cases hadmin : u.enterpriseAdminOf = enterpriseId
    · have hand : u.enterpriseAdminOf = enterpriseId ∧ u.id ≠ userId := ⟨hadmin, hid⟩
      rw [if_pos hand, AdminUser.id_setAdminOf, if_neg hid, if_neg hid, if_pos hadmin]
    · have hnot : ¬ (u.enterpriseAdminOf = enterpriseId ∧ u.id ≠ userId) := fun hand => hadmin hand.1
      rw [if_neg hnot, if_neg hid, if_neg hid, if_neg hadmin]
      rfl

/-- The users after `SetEnterpriseAdmin`. -/
theorem mem_setAdmin {u' : AdminUser} :
    u' ∈ (d.users.modifyWhere (fun u => u.enterpriseAdminOf = enterpriseId ∧ u.id ≠ userId) (·.setAdminOf 0)
        (AdminUser.id_setAdminOf 0)).modify userId (·.setAdminOf enterpriseId) (AdminUser.id_setAdminOf enterpriseId) ↔
      ∃ u ∈ d.users, u.setAdminOf (if u.id = userId then enterpriseId
        else if u.enterpriseAdminOf = enterpriseId then 0 else u.enterpriseAdminOf) = u' := by
  unfold Table.modify
  rw [Table.mem_modifyWhere]
  constructor
  · rintro ⟨v, hv, rfl⟩
    obtain ⟨u, hu, rfl⟩ := Table.mem_modifyWhere.1 hv
    exact ⟨u, hu, (setAdmin_row u).symm⟩
  · rintro ⟨u, hu, rfl⟩
    exact ⟨_, Table.mem_modifyWhere.2 ⟨u, hu, rfl⟩, setAdmin_row u⟩

/-- A member may be made the administrator where there is such a user. -/
theorem Consistent.setEnterpriseAdmin_iff (h : d.Consistent) (huser : userId ≠ 0)
    (hin : d.IsMember enterpriseId userId) :
    Consistent { d with
        users := (d.users.modifyWhere (fun u => u.enterpriseAdminOf = enterpriseId ∧ u.id ≠ userId) (·.setAdminOf 0)
          (AdminUser.id_setAdminOf 0)).modify userId (·.setAdminOf enterpriseId)
            (AdminUser.id_setAdminOf enterpriseId)
        enterprises := d.enterprises.modify enterpriseId (·.setAdmin userId) (EnterpriseRow.id_setAdmin userId) } ↔
      (d.users.get? userId).isSome := by
  set d' : Directory := { d with
    users := (d.users.modifyWhere (fun u => u.enterpriseAdminOf = enterpriseId ∧ u.id ≠ userId) (·.setAdminOf 0)
      (AdminUser.id_setAdminOf 0)).modify userId (·.setAdminOf enterpriseId) (AdminUser.id_setAdminOf enterpriseId)
    enterprises := d.enterprises.modify enterpriseId (·.setAdmin userId) (EnterpriseRow.id_setAdmin userId) } with hd'
  obtain ⟨e₀, he₀, hid₀⟩ := h.hasEnterprise hin
  have hset : ∀ e ∈ d.enterprises, e.id = enterpriseId → e.setAdmin userId ∈ d'.enterprises :=
    fun e he hid => mem_setEnterprise.2 ⟨e, he, if_pos hid⟩
  constructor
  · intro h'
    obtain ⟨u', hu', hid', -⟩ := (h'.admins _ (hset e₀ he₀ hid₀) userId).1 ⟨rfl, huser⟩
    obtain ⟨u, hu, rfl⟩ := mem_setAdmin.1 hu'
    have hid : u.id = userId := hid'
    rw [← hid, Table.get?_key hu]
    rfl
  · intro hsome
    obtain ⟨u₀, hget⟩ := Option.isSome_iff_exists.1 hsome
    have hu₀ : u₀ ∈ d.users := Table.mem_of_get? hget
    have huid₀ : u₀.id = userId := Table.key_of_get? hget
    have hent : ∀ {id}, d.HasEnterprise id → d'.HasEnterprise id := by
      rintro id ⟨e, he, rfl⟩
      by_cases hid : e.id = enterpriseId
      · exact ⟨_, hset e he hid, rfl⟩
      · exact ⟨e, mem_setEnterprise.2 ⟨e, he, if_neg hid⟩, rfl⟩
    refine ⟨?_, ?_, h.workGroupMembers, ?_, ?_, ?_, ?_⟩
    · intro m hm
      exact hent (h.members m hm)
    · intro g hg
      exact hent (h.workGroups g hg)
    · intro l hl
      exact ⟨hent (h.limits l hl).1, (h.limits l hl).2⟩
    · intro e' he' u'
      obtain ⟨e, he, rfl⟩ := mem_setEnterprise.1 he'
      by_cases hid : e.id = enterpriseId
      · -- of this enterprise: the user alone
        rw [if_pos hid]
        constructor
        · rintro ⟨heq, -⟩
          refine ⟨_, mem_setAdmin.2 ⟨u₀, hu₀, rfl⟩, huid₀.trans heq, ?_⟩
          rw [if_pos huid₀]
          exact hid.symm
        · rintro ⟨v, hv, rfl, hadmin⟩
          obtain ⟨u, hu, rfl⟩ := mem_setAdmin.1 hv
          have hadmin : (if u.id = userId then enterpriseId
            else if u.enterpriseAdminOf = enterpriseId then 0 else u.enterpriseAdminOf) = e.id := hadmin
          have huid : u.id = userId := by
            by_contra hne
            rw [if_neg hne] at hadmin
            split at hadmin
            · exact e.id_pos.ne hadmin
            next hnot => exact hnot (hadmin.trans hid)
          exact ⟨huid.symm, huid.trans_ne huser⟩
      · -- of another one: as before, and that is not the user
        rw [if_neg hid, h.admins e he u']
        have hother : ∀ u ∈ d.users, (if u.id = userId then enterpriseId
            else if u.enterpriseAdminOf = enterpriseId then 0 else u.enterpriseAdminOf) = e.id ↔
            u.enterpriseAdminOf = e.id := by
          intro u hu
          by_cases huid : u.id = userId
          · rw [if_pos huid]
            refine iff_of_false (fun heq => hid heq.symm) fun heq => ?_
            exact hid ((huid ▸ (h.isMember_of_adminOf he hu heq).2).unique hin)
          · rw [if_neg huid]
            split
            next hadmin => exact iff_of_false e.id_pos.ne fun heq => hid (heq.symm.trans hadmin)
            next => exact Iff.rfl
        constructor
        · rintro ⟨u, hu, hid', hadmin⟩
          exact ⟨_, mem_setAdmin.2 ⟨u, hu, rfl⟩, hid', (hother u hu).2 hadmin⟩
        · rintro ⟨v, hv, hid', hadmin⟩
          obtain ⟨u, hu, rfl⟩ := mem_setAdmin.1 hv
          exact ⟨u, hu, hid', (hother u hu).1 hadmin⟩
    · intro e' he' hne
      obtain ⟨e, he, rfl⟩ := mem_setEnterprise.1 he'
      by_cases hid : e.id = enterpriseId
      · rw [if_pos hid]
        exact hid ▸ hin
      · rw [if_neg hid] at hne ⊢
        exact h.adminIsMember e he hne
    · intro v hv hne
      obtain ⟨u, hu, rfl⟩ := mem_setAdmin.1 hv
      show d'.HasEnterprise (if u.id = userId then enterpriseId
        else if u.enterpriseAdminOf = enterpriseId then 0 else u.enterpriseAdminOf)
      replace hne : (if u.id = userId then enterpriseId
        else if u.enterpriseAdminOf = enterpriseId then 0 else u.enterpriseAdminOf) ≠ 0 := hne
      split at hne
      next huid =>
        rw [if_pos huid]
        exact hent ⟨e₀, he₀, hid₀⟩
      next huid =>
        split at hne
        · exact absurd rfl hne
        next hadmin =>
          rw [if_neg huid, if_neg hadmin]
          exact hent (h.adminOf u hu hne)

/-! ## Deleting an enterprise -/

/-- An enterprise may be deleted that has no workgroups and no limits. -/
theorem Consistent.deleteEnterprise_iff (h : d.Consistent) :
    (d.deleteEnterprise id).Consistent ↔
      (∀ g ∈ d.workGroups, g.enterpriseId ≠ id) ∧ ∀ l ∈ d.limits, l.enterpriseId ≠ id := by
  have hgone : ¬ (d.deleteEnterprise id).HasEnterprise id := by
    rintro ⟨e, he, hid⟩
    exact (Table.mem_filter.1 he).2 hid
  have hent : ∀ {id'}, id' ≠ id → d.HasEnterprise id' → (d.deleteEnterprise id).HasEnterprise id' := by
    rintro id' hne ⟨e, he, rfl⟩
    exact ⟨e, Table.mem_filter.2 ⟨he, hne⟩, rfl⟩
  have hmember : ∀ {id' u}, id' ≠ id → d.IsMember id' u → (d.deleteEnterprise id).IsMember id' u := by
    rintro id' u hne ⟨m, hm, rfl, rfl⟩
    exact ⟨m, Table.mem_filter.2 ⟨hm, hne⟩, rfl, rfl⟩
  constructor
  · intro h'
    refine ⟨fun g hg hid => hgone ?_, fun l hl hid => hgone ?_⟩
    · have hent := h'.workGroups g hg
      rwa [hid] at hent
    · have hent := (h'.limits l hl).1
      rwa [hid] at hent
  · rintro ⟨hgroups, hlimits⟩
    refine ⟨?_, ?_, ?_, ?_, ?_, ?_, ?_⟩
    · intro m hm
      obtain ⟨hmem, hne⟩ := Table.mem_filter.1 hm
      exact hent hne (h.members m hmem)
    · intro g hg
      exact hent (hgroups g hg) (h.workGroups g hg)
    · intro m hm
      obtain ⟨g, hg, hid, hin⟩ := h.workGroupMembers m hm
      exact ⟨g, hg, hid, hmember (hgroups g hg) hin⟩
    · intro l hl
      exact ⟨hent (hlimits l hl) (h.limits l hl).1, (h.limits l hl).2⟩
    · intro e he u'
      obtain ⟨hmem, hne⟩ := Table.mem_filter.1 he
      rw [h.admins e hmem u']
      constructor
      · rintro ⟨u, hu, hid, hadmin⟩
        have hnot : u.enterpriseAdminOf ≠ id := fun heq => hne (hadmin.symm.trans heq)
        exact ⟨u, mem_clearAdmin.2 ⟨u, hu, if_neg hnot⟩, hid, hadmin⟩
      · rintro ⟨v, hv, hid, hadmin⟩
        obtain ⟨u, hu, rfl⟩ := mem_clearAdmin.1 hv
        by_cases heq : u.enterpriseAdminOf = id
        · rw [if_pos heq] at hadmin
          exact absurd hadmin e.id_pos.ne
        · rw [if_neg heq] at hid hadmin
          exact ⟨u, hu, hid, hadmin⟩
    · intro e he hne
      obtain ⟨hmem, hnot⟩ := Table.mem_filter.1 he
      exact hmember hnot (h.adminIsMember e hmem hne)
    · intro v hv hne
      obtain ⟨u, hu, rfl⟩ := mem_clearAdmin.1 hv
      split at hne
      · exact absurd rfl hne
      next hnot =>
        rw [if_neg hnot]
        exact hent hnot (h.adminOf u hu hne)

/-! ## Workgroups -/

theorem Consistent.addWorkGroupMember (h : d.Consistent) {g : WorkGroup} (hg : g ∈ d.workGroups)
    (hid : g.id = workGroupId) (hin : d.IsMember g.enterpriseId userId) :
    Consistent { d with workGroupMembers := d.workGroupMembers.insertNew { workGroupId, userId } } := by
  refine { h with workGroupMembers := fun m hm => ?_ }
  rcases Table.mem_insertNew.1 hm with hm | ⟨rfl, -⟩
  · exact h.workGroupMembers m hm
  · exact ⟨g, hg, hid, hin⟩

theorem Consistent.removeWorkGroupMember (h : d.Consistent) :
    Consistent { d with
      workGroupMembers := d.workGroupMembers.filter fun m => ¬ (m.workGroupId = workGroupId ∧ m.userId = userId) } :=
  { h with workGroupMembers := fun m hm => h.workGroupMembers m (Table.mem_filter.1 hm).1 }

theorem Consistent.deleteWorkGroup (h : d.Consistent) : (d.deleteWorkGroup id).Consistent := by
  refine { h with workGroups := ?_, workGroupMembers := ?_, limits := ?_ }
  · intro g hg
    exact h.workGroups g (Table.mem_filter.1 hg).1
  · intro m hm
    obtain ⟨hmem, hne⟩ := Table.mem_filter.1 hm
    obtain ⟨g, hg, hid, hin⟩ := h.workGroupMembers m hmem
    exact ⟨g, Table.mem_filter.2 ⟨hg, fun heq => hne (hid.symm.trans heq)⟩, hid, hin⟩
  · intro l hl
    obtain ⟨hmem, hne⟩ := List.mem_filter.1 hl
    obtain ⟨hent, hgroup⟩ := h.limits l hmem
    refine ⟨hent, fun hscope => ?_⟩
    obtain ⟨g, hg, hid⟩ := hgroup hscope
    exact ⟨g, Table.mem_filter.2 ⟨hg, fun heq => of_decide_eq_true hne ⟨hscope, hid.symm.trans heq⟩⟩, hid⟩

/-! ## Every call -/

theorem Consistent.step (h : d.Consistent) {op : Op} (hok : ∀ d', d.call op = .ok d' → d'.Consistent) :
    (d.step op).Consistent := by
  unfold Directory.step
  split
  next d' hd => exact hok d' hd
  next => exact h

theorem Consistent.step_iff_of_member (h : d.Consistent) {op : Op} {P : Prop}
    (hcall : d.call op = if enterpriseId = 0 ∨ userId = 0 then .error .invalidParams
      else if ¬ d.IsMember enterpriseId userId then .error .enterpriseUserNotMember else .ok d')
    (hok : userId ≠ 0 → d.IsMember enterpriseId userId → (d'.Consistent ↔ P)) :
    (d.step op).Consistent ↔ (userId ≠ 0 → d.IsMember enterpriseId userId → P) := by
  unfold Directory.step
  rw [hcall]
  split
  next d'' hd =>
    split at hd
    · cases hd
    next h0 =>
      rw [not_or] at h0
      split at hd
      · cases hd
      next hin =>
        cases hd
        rw [hok h0.2 (not_not.1 hin)]
        exact ⟨fun hP _ _ => hP, fun hP => hP h0.2 (not_not.1 hin)⟩
  next e he =>
    refine iff_of_true h fun huser hin => ?_
    obtain ⟨e, -, hid⟩ := h.hasEnterprise hin
    -- no enterprise has the id zero
    have h0 : ¬ (enterpriseId = 0 ∨ userId = 0) := fun h0 => e.id_pos.ne' (hid.trans (h0.resolve_right huser))
    rw [if_neg h0, if_neg (not_not.2 hin)] at he
    cases he

theorem addEnterpriseMember_of_free (h0 : enterpriseId ≠ 0) (huser : userId ≠ 0)
    (hfree : d.members.get? userId = none) : d.addEnterpriseMember enterpriseId userId =
      .ok { d with members := d.members.insertNew { enterpriseId, userId } } := by
  unfold addEnterpriseMember
  rw [if_neg (not_or.2 ⟨h0, huser⟩), hfree]

theorem eq_of_addEnterpriseMember (hd : d.addEnterpriseMember enterpriseId userId = .ok d')
    (hin : ¬ (enterpriseId ≠ 0 ∧ userId ≠ 0 ∧ d.members.get? userId = none)) : d' = d := by
  unfold addEnterpriseMember at hd
  split at hd
  · cases hd
  next h0 =>
    rw [not_or] at h0
    cases hget : d.members.get? userId with
    | none => exact absurd ⟨h0.1, h0.2, hget⟩ hin
    | some existing =>
      simp only [hget] at hd
      split at hd
      · exact (Except.ok.inj hd).symm
      · cases hd

theorem eq_of_addWorkGroupMember (hd : d.addWorkGroupMember workGroupId userId = .ok d') :
    d' = d ∨ ∃ g ∈ d.workGroups, g.id = workGroupId ∧ d.IsMember g.enterpriseId userId ∧
      d' = { d with workGroupMembers := d.workGroupMembers.insertNew { workGroupId, userId } } := by
  unfold addWorkGroupMember at hd
  split at hd
  · cases hd
  split at hd
  · cases hd
  next g hget =>
    split at hd
    · cases hd
    next hin =>
      split at hd
      · split at hd
        · exact .inl (Except.ok.inj hd).symm
        · cases hd
      · exact .inr ⟨g, Table.mem_of_get? hget, Table.key_of_get? hget, not_not.1 hin, (Except.ok.inj hd).symm⟩

theorem eq_of_removeWorkGroupMember (hd : d.removeWorkGroupMember workGroupId userId = .ok d') :
    d' = { d with
      workGroupMembers := d.workGroupMembers.filter fun m => ¬ (m.workGroupId = workGroupId ∧ m.userId = userId) } := by
  unfold removeWorkGroupMember at hd
  split at hd
  · cases hd
  split at hd
  · cases hd
  · exact (Except.ok.inj hd).symm

theorem Consistent.step_iff (h : d.Consistent) (op : Op) : (d.step op).Consistent ↔ d.Keeps op := by
  cases op with
  | addEnterpriseMember enterpriseId userId =>
    by_cases hfree : enterpriseId ≠ 0 ∧ userId ≠ 0 ∧ d.members.get? userId = none
    · obtain ⟨h0, huser, hget⟩ := hfree
      unfold Directory.step call
      dsimp only
      rw [addEnterpriseMember_of_free h0 huser hget]
      rw [h.addEnterpriseMember_iff hget]
      exact ⟨fun hent _ _ _ => hent, fun hent => hent h0 huser hget⟩
    · refine iff_of_true (h.step fun d' hd => ?_) fun h0 huser hget => absurd ⟨h0, huser, hget⟩ hfree
      rw [eq_of_addEnterpriseMember hd hfree]
      exact h
  | removeEnterpriseMember enterpriseId userId => exact h.step_iff_of_member rfl h.removeEnterpriseMember_iff
  | setEnterpriseAdmin enterpriseId userId => exact h.step_iff_of_member rfl h.setEnterpriseAdmin_iff
  | deleteEnterprise id => exact h.deleteEnterprise_iff
  | addWorkGroupMember workGroupId userId =>
    refine iff_of_true (h.step fun d' hd => ?_) trivial
    rcases eq_of_addWorkGroupMember hd with rfl | ⟨g, hg, hid, hin, rfl⟩
    · exact h
    · exact h.addWorkGroupMember hg hid hin
  | removeWorkGroupMember workGroupId userId =>
    refine iff_of_true (h.step fun d' hd => ?_) trivial
    rw [eq_of_removeWorkGroupMember hd]
    exact h.removeWorkGroupMember
  | deleteWorkGroup id => exact iff_of_true h.deleteWorkGroup trivial

/-- The tables agree in every state of a run, and no limit is applied that should not be, just where each call meets its
condition. -/
theorem consistent_iff (d : Directory) (ops : List Op) (h : d.Consistent) :
    Holds step (fun d => d.Consistent ∧ d.LimitsCurrent) d ops ↔ Meets step Keeps d ops := by
  have hboth : ∀ d : Directory, d.Consistent ∧ d.LimitsCurrent ↔ d.Consistent :=
    fun d => and_iff_left_of_imp Consistent.limitsCurrent
  rw [holds_congr_of_inv (I := fun _ => True) (fun _ _ h => h) (fun d _ => hboth d) trivial]
  exact holds_iff_meets (I := fun _ => True) (fun _ _ h => h) (fun d op _ h => h.step_iff op) trivial h

end

/-! ## A member that leaves -/

/-- An enterprise with one workgroup, which is limited, and a user. -/
def oneWorkGroup : Directory where
  users := ⟨[{ id := 5 }], List.nodup_singleton _⟩
  enterprises := ⟨[{ id := 1, id_pos := Nat.one_pos }], List.nodup_singleton _⟩
  members := .empty
  workGroups := ⟨[{ id := 3, enterpriseId := 1, id_pos := Nat.succ_pos 2 }], List.nodup_singleton _⟩
  workGroupMembers := .empty
  limits := [{ id := 1, enterpriseId := 1, scopeType := .workgroup, scopeId := 3, period := .total, maxQuota := 100,
               total_zero := fun _ => rfl }]

theorem oneWorkGroup_consistent : oneWorkGroup.Consistent := by
  have hent : oneWorkGroup.HasEnterprise 1 := ⟨_, List.mem_singleton_self _, rfl⟩
  refine ⟨?_, ?_, ?_, ?_, ?_, ?_, ?_⟩
  · intro m hm
    cases hm
  · intro g hg
    rw [List.mem_singleton.1 hg]
    exact hent
  · intro m hm
    cases hm
  · intro l hl
    rw [List.mem_singleton.1 hl]
    exact ⟨hent, fun _ => ⟨_, List.mem_singleton_self _, rfl⟩⟩
  · intro e he userId
    rw [List.mem_singleton.1 he]
    refine iff_of_false (fun hand => hand.2 hand.1.symm) ?_
    rintro ⟨u, hu, -, hadmin⟩
    rw [List.mem_singleton.1 hu] at hadmin
    cases hadmin
  · intro e he hne
    rw [List.mem_singleton.1 he] at hne
    exact absurd rfl hne
  · intro u hu hne
    rw [List.mem_singleton.1 hu] at hne
    exact absurd rfl hne

theorem consistent_iff_oneWorkGroup :
    Holds step (fun d => d.Consistent ∧ d.LimitsCurrent) oneWorkGroup
      [.addEnterpriseMember 1 5, .addWorkGroupMember 3 5, .setEnterpriseAdmin 1 5, .deleteWorkGroup 3] := by
  refine (consistent_iff oneWorkGroup _ oneWorkGroup_consistent).2 ⟨?_, trivial, ?_, trivial, trivial⟩
  · exact fun _ _ _ => ⟨_, List.mem_singleton_self _, rfl⟩
  · exact fun _ _ => by decide

/-- A user that is removed from its enterprise stays in the workgroup, and an enterprise that is deleted leaves the
workgroup behind. -/
theorem left_behind :
    oneWorkGroup.Consistent ∧
      ¬ Holds step (fun d => d.Consistent ∧ d.LimitsCurrent) oneWorkGroup
        [.addEnterpriseMember 1 5, .addWorkGroupMember 3 5, .removeEnterpriseMember 1 5] ∧
      ¬ Holds step (fun d => d.Consistent ∧ d.LimitsCurrent) oneWorkGroup [.deleteEnterprise 1] := by
  refine ⟨oneWorkGroup_consistent, ?_, ?_⟩
  · intro h
    have hin : (⟨5, 3⟩ : WorkGroupMember) ∈ (run step oneWorkGroup
        [.addEnterpriseMember 1 5, .addWorkGroupMember 3 5, .removeEnterpriseMember 1 5]).workGroupMembers := by
      decide
    obtain ⟨-, -, -, m, hm, -⟩ := h.last.1.workGroupMembers _ hin
    have hnone : (run step oneWorkGroup
        [.addEnterpriseMember 1 5, .addWorkGroupMember 3 5, .removeEnterpriseMember 1 5]).members.rows = [] := by
      decide
    rw [Table.mem_rows, hnone] at hm
    cases hm
  · intro h
    obtain ⟨e, he, -⟩ := h.last.1.workGroups _ (List.mem_singleton_self _)
    cases he

end Directory

end NewApi.Enterprise

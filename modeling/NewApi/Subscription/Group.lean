import NewApi.Subscription.Model
import NewApi.Lib.Run

/-!
# The group of a subscriber

A user who has active subscriptions that upgrade should be in the group of one of them, and otherwise
in the group they were in at first. Creating a subscription always keeps this. Ending one keeps it
exactly when the group the user is left in is right: the group that the ended subscription remembers,
if the code goes back to it, or else the group the user is in (`EndsWell`).
-/

namespace NewApi

namespace SubscriptionStore

open Run

/-! ## The property -/

/-- The subscriptions of a user. -/
def subsOf (s : SubscriptionStore) (userId : Nat) : List UserSubscription :=
  s.subs.rows.filter fun sub => sub.userId = userId

/-- The subscription is active and upgrades. -/
def Upgrades (sub : UserSubscription) : Prop := sub.status = .active ∧ sub.upgradeGroup ≠ ""

instance : DecidablePred Upgrades := fun _ => inferInstanceAs (Decidable (_ ∧ _))

/-- The group is the original one where no subscription upgrades, and else that of one which does. -/
def Granted (original : String) (upgrading : UserSubscription → Prop) (group : String) : Prop :=
  ((∀ sub, ¬ upgrading sub) → group = original) ∧
    ((∃ sub, upgrading sub) → ∃ sub, upgrading sub ∧ sub.upgradeGroup = group)

/-- The group of a user is granted by their subscriptions. -/
def GroupKept (userId : Nat) (original : String) (s : SubscriptionStore) : Prop :=
  Granted original (fun sub => sub ∈ s.subsOf userId ∧ Upgrades sub) (s.getUserGroupById userId)

/-! ## Sequences of operations -/

/-- An operation with its arguments and its time. -/
inductive Op
  | create (id userId : Nat) (plan : SubscriptionPlan) (source : String) (now : Int)
  | expireDue (limit : Int) (now : Int)
  | invalidate (id : Nat) (now : Int)
  | delete (id : Nat) (now : Int)

/-- The store after an operation; one that fails leaves it. -/
def step (cal : Calendar) (s : SubscriptionStore) : Op → SubscriptionStore
  | .create id userId plan source now =>
    (s.createUserSubscriptionFromPlan cal id userId plan source now).toOption.getD s
  | .expireDue limit now => s.expireDueSubscriptions limit now
  | .invalidate id now => (s.adminInvalidateUserSubscription id now).toOption.getD s
  | .delete id now => (s.adminDeleteUserSubscription id now).toOption.getD s

/-! ## When an ending keeps the property -/

/-- A user in `group` is to go back to the group that a subscription moved them from. -/
def TakesBack (group : String) (sub : UserSubscription) : Prop :=
  GoString.trimSpace sub.upgradeGroup ≠ "" ∧ group = GoString.trimSpace sub.upgradeGroup ∧
    GoString.trimSpace sub.prevUserGroup ≠ "" ∧ GoString.trimSpace sub.prevUserGroup ≠ group

instance (group : String) : DecidablePred (TakesBack group) := fun _ =>
  inferInstanceAs (Decidable (_ ∧ _))

/-- A subscription ends well for a user in `group`, where others go on upgrading: if the user is taken
back, then to a group that is granted by the others; if not, the group is granted by them. -/
def EndsWell (original group : String) (sub : UserSubscription) (otherLive : Prop)
    (others : UserSubscription → Prop) : Prop :=
  (¬ otherLive ∧ TakesBack group sub →
    Granted original others (GoString.trimSpace sub.prevUserGroup)) ∧
  (¬ (¬ otherLive ∧ TakesBack group sub) → Granted original others group)

/-- The row as it is when what is due has expired. -/
def expireIfDue (now : Int) (sub : UserSubscription) : UserSubscription :=
  if IsDue now sub then expired sub else sub

/-- The subscription by which a user is taken back when subscriptions expire: the last to end of those
that have expired or do so now, and upgraded. -/
def lastExpired (userId : Nat) (now : Int) (s : SubscriptionStore) : Option UserSubscription :=
  lastToEnd (((s.subsOf userId).map (expireIfDue now)).filter fun sub =>
    sub.status = .expired ∧ sub.upgradeGroup ≠ "")

/-- The condition, on an operation and the store before it, under which it keeps the group of a user
granted. -/
def Keeps (userId : Nat) (original : String) (s : SubscriptionStore) : Op → Prop
  | .create _ _ _ _ _ => True
  | .invalidate id now | .delete id now =>
    ∀ sub, s.subs.get? id = some sub → id ≠ 0 → sub.userId = userId →
      EndsWell original (s.getUserGroupById userId) sub
        (∃ other ∈ s.subsOf userId, IsLive now other ∧ other.id ≠ id)
        fun other => other ∈ s.subsOf userId ∧ Upgrades other ∧ other.id ≠ id
  | .expireDue limit now =>
    userId ∈ s.dueUsers limit now →
      (∀ sub, s.lastExpired userId now = some sub →
        EndsWell original (s.getUserGroupById userId) sub
          (∃ other ∈ s.subsOf userId, IsLive now other)
          fun other => other ∈ s.subsOf userId ∧ Upgrades other ∧ ¬ IsDue now other)

section
variable {s s' : SubscriptionStore} {userId u v id : Nat} {original group : String} {now : Int}
  {sub : UserSubscription}

theorem mem_subsOf : sub ∈ s.subsOf u ↔ sub ∈ s.subs ∧ sub.userId = u := by
  rw [subsOf, List.mem_filter, decide_eq_true_eq, Table.mem_rows]

theorem granted_congr {p q : UserSubscription → Prop} (h : ∀ sub, p sub ↔ q sub) :
    Granted original p group ↔ Granted original q group := by
  rw [funext fun sub => propext (h sub)]

/-! ## Frames -/

/-- The two stores agree on a user. -/
structure Agree (u : Nat) (s s' : SubscriptionStore) : Prop where
  group : s'.users.groupOf u = s.users.groupOf u
  subs : s'.subsOf u = s.subsOf u

theorem Agree.refl (u : Nat) (s : SubscriptionStore) : Agree u s s := ⟨rfl, rfl⟩

theorem Agree.trans {s'' : SubscriptionStore} (h : Agree u s s') (h' : Agree u s' s'') :
    Agree u s s'' := ⟨h'.group.trans h.group, h'.subs.trans h.subs⟩

theorem Agree.getUserGroupById (h : Agree u s s') :
    s'.getUserGroupById u = s.getUserGroupById u := by
  rw [SubscriptionStore.getUserGroupById, h.group]
  rfl

theorem Agree.groupKept (h : Agree u s s') : GroupKept u original s' ↔ GroupKept u original s := by
  rw [GroupKept, h.subs, h.getUserGroupById]
  rfl

theorem agree_setGroup (hne : u ≠ v) : Agree u s { s with users := s.users.setGroup v group } := by
  refine ⟨?_, rfl⟩
  rw [Users.groupOf_setGroup, if_neg hne]

theorem getUserGroupById_setGroup (h : (s.users.groupOf u).isSome) :
    getUserGroupById u { s with users := s.users.setGroup u group } = group := by
  obtain ⟨g, hg⟩ := Option.isSome_iff_exists.1 h
  simp [getUserGroupById, Users.groupOf_setGroup, hg]

/-! ## Administrators -/

theorem downgrade_cases (sub : UserSubscription) (now : Int) (s : SubscriptionStore) :
    let back := ¬ (∃ other ∈ s.subsOf sub.userId, IsLive now other ∧ other.id ≠ sub.id) ∧
      TakesBack (s.getUserGroupById sub.userId) sub
    back ∧ s.downgradeUserGroupForSubscription sub now =
        { s with users := s.users.setGroup sub.userId (GoString.trimSpace sub.prevUserGroup) } ∨
      ¬ back ∧ s.downgradeUserGroupForSubscription sub now = s := by
  intro back
  have hlive : (s.subs.rows.any fun other =>
      other.userId = sub.userId ∧ IsLive now other ∧ other.id ≠ sub.id) = true ↔
      ∃ other ∈ s.subsOf sub.userId, IsLive now other ∧ other.id ≠ sub.id := by
    simp only [List.any_eq_true, decide_eq_true_eq, mem_subsOf, Table.mem_rows]
    refine exists_congr fun other => ?_
    rw [and_assoc]
  unfold downgradeUserGroupForSubscription
  dsimp only
  by_cases hback : back
  · obtain ⟨hnone, hug, hgroup, hprev, hne⟩ := id hback
    rw [if_neg hug, if_neg (not_not.2 hgroup), if_neg (hlive.not.2 hnone),
      if_neg (not_or.2 ⟨hprev, hne⟩)]
    exact .inl ⟨hback, rfl⟩
  · refine .inr ⟨hback, ?_⟩
    split
    · rfl
    next hug =>
      split
      · rfl
      next hgroup =>
        split
        · rfl
        next hnone =>
          rw [if_pos]
          by_contra hor
          obtain ⟨hprev, hne⟩ := not_or.1 hor
          exact hback ⟨hlive.not.1 hnone, hug, not_not.1 hgroup, hprev, hne⟩

theorem groupKept_iff_endsWell {otherLive : Prop} {others : UserSubscription → Prop}
    (hback : ¬ otherLive ∧ TakesBack group sub →
      s'.getUserGroupById u = GoString.trimSpace sub.prevUserGroup)
    (hstay : ¬ (¬ otherLive ∧ TakesBack group sub) → s'.getUserGroupById u = group)
    (hothers : ∀ r, r ∈ s'.subsOf u ∧ Upgrades r ↔ others r) :
    GroupKept u original s' ↔ EndsWell original group sub otherLive others := by
  unfold GroupKept EndsWell
  rw [granted_congr hothers]
  by_cases h : ¬ otherLive ∧ TakesBack group sub
  · rw [hback h]
    exact ⟨fun hg => ⟨fun _ => hg, fun hn => absurd h hn⟩, fun hends => hends.1 h⟩
  · rw [hstay h]
    exact ⟨fun hg => ⟨fun hb => absurd hb h, fun _ => hg⟩, fun hends => hends.2 h⟩

/-- A subscription is ended by an administrator: it no longer upgrades, and from a store `t` that
differs in its row at most, its user is taken back or not. -/
theorem ended_iff {t : SubscriptionStore} (hu : (s.users.groupOf u).isSome)
    (hget : s.subs.get? id = some sub) (husers : t.users = s.users)
    (hrows : ∀ r, r.id ≠ id → (r ∈ t.subs ↔ r ∈ s.subs))
    (husers' : s'.users = (t.downgradeUserGroupForSubscription sub now).users)
    (hrows' : ∀ r, r ∈ s'.subs ∧ Upgrades r ↔ r ∈ s.subs ∧ Upgrades r ∧ r.id ≠ id)
    (hkept : GroupKept u original s) :
    GroupKept u original s' ↔
      (sub.userId = u → EndsWell original (s.getUserGroupById u) sub
        (∃ other ∈ s.subsOf u, IsLive now other ∧ other.id ≠ id)
        fun other => other ∈ s.subsOf u ∧ Upgrades other ∧ other.id ≠ id) := by
  have hid : sub.id = id := Table.key_of_get? hget
  have hgroup : ∀ {v}, t.getUserGroupById v = s.getUserGroupById v := fun {v} => by
    rw [getUserGroupById, getUserGroupById, husers]
  have hupgrading : ∀ r, r ∈ s'.subsOf u ∧ Upgrades r ↔
      r ∈ s.subsOf u ∧ Upgrades r ∧ r.id ≠ id := fun r => by
    have := hrows' r
    rw [mem_subsOf, mem_subsOf]
    tauto
  by_cases howner : sub.userId = u
  · subst howner
    have hlive : (∃ other ∈ t.subsOf sub.userId, IsLive now other ∧ other.id ≠ sub.id) ↔
        ∃ other ∈ s.subsOf sub.userId, IsLive now other ∧ other.id ≠ id := by
      refine exists_congr fun other => ?_
      rw [hid, mem_subsOf, mem_subsOf]
      have := hrows other
      tauto
    have hcases := downgrade_cases sub now t
    simp only [hlive, hgroup] at hcases
    refine Iff.trans (groupKept_iff_endsWell ?_ ?_ hupgrading) ⟨fun h _ => h, fun h => h rfl⟩
    · intro hback
      rcases hcases with ⟨-, hs⟩ | ⟨hnot, -⟩
      · rw [getUserGroupById, husers', hs]
        exact getUserGroupById_setGroup (s := t) (by rw [husers]; exact hu)
      · exact absurd hback hnot
    · intro hstay
      rcases hcases with ⟨hback, -⟩ | ⟨-, hs⟩
      · exact absurd hback hstay
      · rw [getUserGroupById, husers', hs]
        exact hgroup
  · refine iff_of_true ?_ fun h => absurd h howner
    have hsame : s'.getUserGroupById u = s.getUserGroupById u := by
      rw [getUserGroupById, husers']
      rcases downgrade_cases sub now t with ⟨-, hs⟩ | ⟨-, hs⟩
      · rw [hs]
        dsimp only
        rw [Users.groupOf_setGroup, if_neg (Ne.symm howner), husers]
        rfl
      · rw [hs, husers]
        rfl
    rw [GroupKept, hsame]
    refine (granted_congr fun r => ?_).1 hkept
    rw [hupgrading]
    refine ⟨fun ⟨hr, hup⟩ => ⟨hr, hup, fun hrid => howner ?_⟩, fun ⟨hr, hup, _⟩ => ⟨hr, hup⟩⟩
    have hrow := Table.get?_key (mem_subsOf.1 hr).1
    rw [hrid, hget] at hrow
    cases hrow
    exact (mem_subsOf.1 hr).2

theorem subs_downgrade : (s.downgradeUserGroupForSubscription sub now).subs = s.subs := by
  rcases downgrade_cases sub now s with ⟨-, hs⟩ | ⟨-, hs⟩ <;> rw [hs]

theorem forall_ended_iff (h0 : id ≠ 0) {p : UserSubscription → Prop} :
    (sub.userId = u → p sub) ↔
      ∀ r, some sub = some r → id ≠ 0 → r.userId = u → p r := by
  refine ⟨fun h r hr _ howner => ?_, fun h howner => h sub rfl h0 howner⟩
  cases hr
  exact h howner

theorem invalidate_groupKept_iff (hu : (s.users.groupOf u).isSome) (hkept : GroupKept u original s)
    (cal : Calendar) :
    GroupKept u original (step cal s (.invalidate id now)) ↔
      Keeps u original s (.invalidate id now) := by
  unfold step Keeps
  dsimp only
  unfold adminInvalidateUserSubscription
  by_cases h0 : id = 0
  · rw [if_pos h0]
    exact iff_of_true hkept fun _ _ hne => absurd h0 hne
  rw [if_neg h0]
  cases hget : s.subs.get? id with
  | none => exact iff_of_true hkept fun _ h => nomatch h
  | some sub =>
    have hmem : ∀ r, r ∈ s.subs.modify id (cancelled now) (cancelled_id now) ↔
        ∃ a ∈ s.subs, (if a.id = id then cancelled now a else a) = r :=
      fun r => Table.mem_modifyWhere
    have hrows : ∀ r, r.id ≠ id →
        (r ∈ s.subs.modify id (cancelled now) (cancelled_id now) ↔ r ∈ s.subs) := by
      intro r hr
      rw [hmem]
      refine ⟨fun ⟨a, ha, hra⟩ => ?_, fun h => ⟨r, h, if_neg hr⟩⟩
      split at hra
      next haid => exact absurd (by rw [← hra]; exact haid) hr
      next => exact hra ▸ ha
    rw [← forall_ended_iff h0]
    dsimp only [Except.toOption, Option.getD]
    refine ended_iff (t := { s with
      subs := s.subs.modify id (cancelled now) (cancelled_id now) }) hu hget rfl hrows rfl ?_ hkept
    intro r
    rw [subs_downgrade]
    refine ⟨fun ⟨hr, hup⟩ => ?_, fun ⟨hr, hup, hne⟩ => ⟨(hrows r hne).2 hr, hup⟩⟩
    obtain ⟨a, ha, hra⟩ := (hmem r).1 hr
    split at hra
    next =>
      rw [← hra] at hup
      have hstatus : SubscriptionStatus.cancelled = .active := hup.1
      cases hstatus
    next hne => exact hra ▸ ⟨ha, hra ▸ hup, hne⟩

theorem delete_groupKept_iff (hu : (s.users.groupOf u).isSome) (hkept : GroupKept u original s)
    (cal : Calendar) :
    GroupKept u original (step cal s (.delete id now)) ↔ Keeps u original s (.delete id now) := by
  unfold step Keeps
  dsimp only
  unfold adminDeleteUserSubscription
  by_cases h0 : id = 0
  · rw [if_pos h0]
    exact iff_of_true hkept fun _ _ hne => absurd h0 hne
  rw [if_neg h0]
  cases hget : s.subs.get? id with
  | none => exact iff_of_true hkept fun _ h => nomatch h
  | some sub =>
    rw [← forall_ended_iff h0]
    have hstep : ((Except.ok { s.downgradeUserGroupForSubscription sub now with
        subs := (s.downgradeUserGroupForSubscription sub now).subs.filter fun sub => sub.id ≠ id } :
          Except SubscriptionError SubscriptionStore).toOption.getD s) =
        ⟨(s.downgradeUserGroupForSubscription sub now).users,
          s.subs.filter fun sub => sub.id ≠ id,
          (s.downgradeUserGroupForSubscription sub now).records⟩ := by
      rw [subs_downgrade]
      rfl
    dsimp only
    rw [hstep]
    refine ended_iff (t := s) hu hget rfl (fun _ _ => Iff.rfl) rfl (fun r => ?_) hkept
    rw [Table.mem_filter]
    tauto

/-! ## Creating -/

theorem create_cases (cal : Calendar) (plan : SubscriptionPlan) (source : String) (s : SubscriptionStore) :
    step cal s (.create id userId plan source now) = s ∨
      ∃ new : UserSubscription, s.subs.get? id = none ∧ new.id = id ∧ new.userId = userId ∧
        new.status = .active ∧ step cal s (.create id userId plan source now) = { s with
          users :=
            if new.upgradeGroup ≠ "" ∧ s.getUserGroupById userId ≠ new.upgradeGroup then
              s.users.setGroup userId new.upgradeGroup
            else s.users
          subs := s.subs.insertNew new } := by
  unfold step
  dsimp only
  cases hcreate : s.createUserSubscriptionFromPlan cal id userId plan source now with
  | error e => exact .inl rfl
  | ok s' =>
    unfold createUserSubscriptionFromPlan at hcreate
    split at hcreate
    · cases hcreate
    split at hcreate
    · cases hcreate
    split at hcreate
    · cases hcreate
    split at hcreate
    · cases hcreate
    split at hcreate
    · cases hcreate
    next endUnix _ hfree =>
      have hnone : s.subs.get? id = none := by simpa using hfree
      refine .inr ⟨s.newSubscription cal id userId plan source now endUnix, hnone, rfl, rfl, rfl, ?_⟩
      exact (Except.ok.inj hcreate).symm

/-- Creating a subscription always keeps the group granted. -/
theorem create_groupKept (hu : (s.users.groupOf u).isSome) (hkept : GroupKept u original s)
    (cal : Calendar) (plan : SubscriptionPlan) (source : String) :
    GroupKept u original (step cal s (.create id userId plan source now)) := by
  rcases create_cases cal plan source s with hstep | ⟨new, hnone, hnewId, hnewUser, hnewStatus, hstep⟩
  · rw [hstep]
    exact hkept
  rw [hstep]
  have hmem : ∀ r, r ∈ s.subs.insertNew new ↔ r ∈ s.subs ∨ r = new := fun r => by
    rw [Table.mem_insertNew, hnewId]
    exact or_congr_right (and_iff_left (Table.get?_eq_none.1 hnone))
  -- where the new subscription is not of the user, or does not upgrade, nothing has changed
  have hsame : ∀ {users : Users}, getUserGroupById u { s with users := users } =
      s.getUserGroupById u → ¬ (userId = u ∧ Upgrades new) →
        GroupKept u original { s with users := users, subs := s.subs.insertNew new } := by
    intro users hgroup hnot
    have hgroup' : getUserGroupById u { s with users := users, subs := s.subs.insertNew new } =
        s.getUserGroupById u := hgroup
    rw [GroupKept, hgroup']
    refine (granted_congr fun r => ?_).1 hkept
    rw [mem_subsOf, mem_subsOf, hmem]
    refine ⟨?_, ?_⟩
    · rintro ⟨⟨hr, hru⟩, hup⟩
      exact ⟨⟨.inl hr, hru⟩, hup⟩
    · rintro ⟨⟨hr | rfl, hru⟩, hup⟩
      · exact ⟨⟨hr, hru⟩, hup⟩
      · exact absurd ⟨hnewUser.symm.trans hru, hup⟩ hnot
  by_cases howner : userId = u
  · subst howner
    by_cases hup : new.upgradeGroup = ""
    · rw [if_neg fun h => h.1 hup]
      exact hsame rfl fun h => h.2.2 hup
    · -- the user is in the group of the new subscription
      have hgroup : ∀ {subs}, getUserGroupById userId { s with
          users := if new.upgradeGroup ≠ "" ∧ s.getUserGroupById userId ≠ new.upgradeGroup then
            s.users.setGroup userId new.upgradeGroup else s.users
          subs := subs } = new.upgradeGroup := by
        intro subs
        by_cases hin : s.getUserGroupById userId = new.upgradeGroup
        · rw [if_neg fun h => h.2 hin]
          exact hin
        · rw [if_pos ⟨hup, hin⟩]
          exact getUserGroupById_setGroup hu
      have hnewUp : new ∈ subsOf { s with
          users := if new.upgradeGroup ≠ "" ∧ s.getUserGroupById userId ≠ new.upgradeGroup then
            s.users.setGroup userId new.upgradeGroup else s.users
          subs := s.subs.insertNew new } userId ∧ Upgrades new :=
        ⟨mem_subsOf.2 ⟨(hmem new).2 (.inr rfl), hnewUser⟩, hnewStatus, hup⟩
      rw [GroupKept, hgroup]
      exact ⟨fun hnone => absurd hnewUp (hnone new), fun _ => ⟨new, hnewUp, rfl⟩⟩
  · refine hsame ?_ fun h => howner h.1
    split
    · exact (agree_setGroup (Ne.symm howner)).getUserGroupById
    · rfl

/-! ## Expiring -/

theorem subsOf_expireRows :
    (s.expireRows now v).subsOf u =
      (s.subsOf u).map fun sub => if sub.userId = v ∧ IsDue now sub then expired sub else sub := by
  unfold subsOf expireRows
  rw [Table.rows_modifyWhere, List.filter_map]
  congr 1
  refine List.filter_congr fun sub _ => ?_
  simp only [Function.comp]
  split <;> rfl

theorem subsOf_expireRows_self :
    (s.expireRows now u).subsOf u = (s.subsOf u).map (expireIfDue now) := by
  rw [subsOf_expireRows]
  refine List.map_congr_left fun sub hsub => ?_
  rw [expireIfDue, (mem_subsOf.1 hsub).2]
  simp only [true_and]

theorem subsOf_expireRows_ne (hne : u ≠ v) : (s.expireRows now v).subsOf u = s.subsOf u := by
  rw [subsOf_expireRows]
  refine (List.map_congr_left fun sub hsub => if_neg fun h => hne ?_).trans (List.map_id _)
  exact (mem_subsOf.1 hsub).2.symm.trans h.1

theorem agree_expireUser (hne : u ≠ v) : Agree u s (s.expireUser now v) := by
  have hagree : Agree u s (s.expireRows now v) := ⟨rfl, subsOf_expireRows_ne hne⟩
  unfold expireUser
  dsimp only
  split
  · exact hagree
  split
  · exact hagree
  split
  · exact hagree
  split
  · exact hagree
  · exact hagree.trans (agree_setGroup hne)

theorem agree_foldl_expireUser {l : List Nat} (hnot : u ∉ l) :
    Agree u s (l.foldl (fun s v => s.expireUser now v) s) := by
  induction l generalizing s with
  | nil => exact .refl u s
  | cons v l ih =>
    rw [List.mem_cons, not_or] at hnot
    exact (agree_expireUser hnot.1).trans (ih hnot.2)

theorem exists_live_expireRows :
    (∃ other ∈ (s.expireRows now u).subsOf u, IsLive now other) ↔
      ∃ other ∈ s.subsOf u, IsLive now other := by
  rw [subsOf_expireRows_self]
  simp only [List.mem_map, exists_exists_and_eq_and]
  refine exists_congr fun sub => and_congr_right fun _ => ?_
  unfold expireIfDue
  split
  next hdue =>
    refine iff_of_false (fun h => ?_) fun h => absurd hdue.2.2 (Int.not_le.2 h.2.1)
    have hstatus : SubscriptionStatus.expired = .active := h.1
    cases hstatus
  next => exact Iff.rfl

theorem upgrades_expireRows (r : UserSubscription) :
    r ∈ (s.expireRows now u).subsOf u ∧ Upgrades r ↔
      r ∈ s.subsOf u ∧ Upgrades r ∧ ¬ IsDue now r := by
  rw [subsOf_expireRows_self, List.mem_map]
  refine ⟨fun ⟨⟨sub, hsub, hr⟩, hup⟩ => ?_, fun ⟨hr, hup, hdue⟩ => ⟨⟨r, hr, if_neg hdue⟩, hup⟩⟩
  unfold expireIfDue at hr
  split at hr
  next =>
    rw [← hr] at hup
    have hstatus : SubscriptionStatus.expired = .active := hup.1
    cases hstatus
  next hdue => exact hr ▸ ⟨hsub, hr ▸ hup, hdue⟩

theorem not_due_of_lastExpired_eq_none (h : s.lastExpired u now = none) (hsub : sub ∈ s.subsOf u)
    (hup : Upgrades sub) : ¬ IsDue now sub := by
  intro hdue
  have hnil : ((s.subsOf u).map (expireIfDue now)).filter (fun sub =>
      sub.status = .expired ∧ sub.upgradeGroup ≠ "") = [] := by
    have hperm := List.perm_insertionSort EndsBefore (((s.subsOf u).map (expireIfDue now)).filter
      fun sub => sub.status = .expired ∧ sub.upgradeGroup ≠ "")
    rw [List.getLast?_eq_none_iff.1 h] at hperm
    exact hperm.nil_eq.symm
  have hmem : expired sub ∈ ((s.subsOf u).map (expireIfDue now)).filter (fun sub =>
      sub.status = .expired ∧ sub.upgradeGroup ≠ "") :=
    List.mem_filter.2 ⟨List.mem_map.2 ⟨sub, hsub, if_pos hdue⟩, decide_eq_true ⟨rfl, hup.2⟩⟩
  rw [hnil] at hmem
  exact List.not_mem_nil hmem

/-- The user is taken back by the last subscription that has expired, or stays. -/
theorem expireUser_cases (now : Int) (u : Nat) (s : SubscriptionStore) :
    let back sub := ¬ (∃ other ∈ s.subsOf u, IsLive now other) ∧
      TakesBack (s.getUserGroupById u) sub
    (∃ sub, s.lastExpired u now = some sub ∧ back sub ∧ s.expireUser now u =
        { s.expireRows now u with users := s.users.setGroup u (GoString.trimSpace sub.prevUserGroup) }) ∨
      (∀ sub, s.lastExpired u now = some sub → ¬ back sub) ∧
        s.expireUser now u = s.expireRows now u := by
  intro back
  have hlive : ((s.expireRows now u).subs.rows.any fun sub =>
      sub.userId = u ∧ IsLive now sub) = true ↔ ∃ other ∈ s.subsOf u, IsLive now other := by
    rw [← exists_live_expireRows]
    simp only [List.any_eq_true, decide_eq_true_eq, mem_subsOf, Table.mem_rows]
    exact exists_congr fun sub => and_assoc.symm
  have hlast : lastToEnd ((s.expireRows now u).subs.rows.filter fun sub =>
      sub.userId = u ∧ sub.status = .expired ∧ sub.upgradeGroup ≠ "") = s.lastExpired u now := by
    rw [lastExpired, ← subsOf_expireRows_self, subsOf, List.filter_filter]
    simp only [Bool.decide_and, Bool.and_comm]
  unfold expireUser
  dsimp only
  rw [hlast]
  split
  next h => exact .inr ⟨fun sub _ hback => hback.1 (hlive.1 h), rfl⟩
  next h =>
    cases hsub : s.lastExpired u now with
    | none => exact .inr ⟨fun sub h => (nomatch h), rfl⟩
    | some sub =>
      dsimp only
      have hgroup : (s.expireRows now u).getUserGroupById u = s.getUserGroupById u := rfl
      rw [hgroup]
      by_cases hback : TakesBack (s.getUserGroupById u) sub
      · obtain ⟨hug, hin, hprev, hne⟩ := id hback
        rw [if_neg (not_or.2 ⟨hug, hprev⟩), if_neg (not_or.2 ⟨not_not.2 hin, Ne.symm hne⟩)]
        exact .inl ⟨sub, rfl, ⟨hlive.not.1 h, hback⟩, rfl⟩
      · refine .inr ⟨fun r hr hb => hback (by cases hr; exact hb.2), ?_⟩
        split
        · rfl
        next hor =>
          obtain ⟨hug, hprev⟩ := not_or.1 hor
          rw [if_pos]
          by_contra hor'
          obtain ⟨hin, hne⟩ := not_or.1 hor'
          exact hback ⟨hug, not_not.1 hin, hprev, Ne.symm hne⟩

/-- Expiring the due subscriptions of a user. -/
theorem expireUser_groupKept_iff (hu : (s.users.groupOf u).isSome) (hkept : GroupKept u original s) :
    GroupKept u original (s.expireUser now u) ↔
      ∀ sub, s.lastExpired u now = some sub →
        EndsWell original (s.getUserGroupById u) sub (∃ other ∈ s.subsOf u, IsLive now other)
          fun other => other ∈ s.subsOf u ∧ Upgrades other ∧ ¬ IsDue now other := by
  have hcases := expireUser_cases now u s
  have hsubs : (s.expireUser now u).subsOf u = (s.expireRows now u).subsOf u := by
    rcases hcases with ⟨_, -, -, hs⟩ | ⟨-, hs⟩ <;> rw [hs]
    rfl
  have hothers : ∀ r, r ∈ (s.expireUser now u).subsOf u ∧ Upgrades r ↔
      r ∈ s.subsOf u ∧ Upgrades r ∧ ¬ IsDue now r := by
    rw [hsubs]
    exact upgrades_expireRows
  cases hlast : s.lastExpired u now with
  | none =>
    refine iff_of_true ?_ fun sub h => nomatch h
    rcases hcases with ⟨sub, hsome, -⟩ | ⟨-, hs⟩
    · exact absurd (hlast.symm.trans hsome) (Option.some_ne_none sub).symm
    have hgroup : (s.expireUser now u).getUserGroupById u = s.getUserGroupById u := by
      rw [hs]
      rfl
    rw [GroupKept, hgroup]
    refine (granted_congr fun r => ?_).1 hkept
    rw [hothers]
    exact ⟨fun ⟨hr, hup⟩ => ⟨hr, hup, not_due_of_lastExpired_eq_none hlast hr hup⟩,
      fun ⟨hr, hup, _⟩ => ⟨hr, hup⟩⟩
  | some sub =>
    simp only [Option.some.injEq, forall_eq']
    refine groupKept_iff_endsWell (fun hback => ?_) (fun hstay => ?_) hothers
    · rcases hcases with ⟨r, hr, -, hs⟩ | ⟨hnot, -⟩
      · rw [hlast, Option.some.injEq] at hr
        subst hr
        rw [hs]
        exact getUserGroupById_setGroup hu
      · exact absurd hback (hnot sub hlast)
    · rcases hcases with ⟨r, hr, hback, -⟩ | ⟨-, hs⟩
      · rw [hlast, Option.some.injEq] at hr
        subst hr
        exact absurd hback hstay
      · rw [hs]
        rfl

theorem expireDue_groupKept_iff (hu : (s.users.groupOf u).isSome) (hkept : GroupKept u original s)
    (cal : Calendar) (limit : Int) :
    GroupKept u original (step cal s (.expireDue limit now)) ↔
      Keeps u original s (.expireDue limit now) := by
  show GroupKept u original (s.expireDueSubscriptions limit now) ↔
    (u ∈ s.dueUsers limit now → _)
  unfold expireDueSubscriptions
  have hnodup : (s.dueUsers limit now).Nodup := List.nodup_dedup _
  generalize s.dueUsers limit now = l at hnodup
  by_cases hmem : u ∈ l
  · obtain ⟨l₁, l₂, rfl⟩ := List.append_of_mem hmem
    have hl₁ : u ∉ l₁ := fun h => List.disjoint_of_nodup_append hnodup h List.mem_cons_self
    have hl₂ : u ∉ l₂ := (List.nodup_cons.1 (List.nodup_append.1 hnodup).2.1).1
    rw [List.foldl_append, List.foldl_cons]
    have hbefore : Agree u s (l₁.foldl (fun s v => s.expireUser now v) s) :=
      agree_foldl_expireUser hl₁
    generalize l₁.foldl (fun s v => s.expireUser now v) s = s₁ at hbefore
    rw [(agree_foldl_expireUser hl₂).groupKept,
      expireUser_groupKept_iff (hbefore.group ▸ hu) (hbefore.groupKept.2 hkept)]
    simp only [lastExpired, hbefore.subs, hbefore.getUserGroupById, hmem, true_imp_iff]
  · exact iff_of_true ((agree_foldl_expireUser hmem).groupKept.2 hkept) fun h => absurd h hmem

/-! ## Runs -/

theorem isSome_setGroup {users : Users} (hu : (users.groupOf u).isSome) :
    ((users.setGroup v group).groupOf u).isSome := by
  rw [Users.groupOf_setGroup]
  split
  next h => rwa [Option.isSome_map, ← h]
  next => exact hu

theorem isSome_downgrade (hu : (s.users.groupOf u).isSome) :
    ((s.downgradeUserGroupForSubscription sub now).users.groupOf u).isSome := by
  rcases downgrade_cases sub now s with ⟨-, hs⟩ | ⟨-, hs⟩ <;> rw [hs]
  · exact isSome_setGroup hu
  · exact hu

theorem isSome_expireUser (hu : (s.users.groupOf u).isSome) :
    ((s.expireUser now v).users.groupOf u).isSome := by
  rcases expireUser_cases now v s with ⟨_, -, -, hs⟩ | ⟨-, hs⟩ <;> rw [hs]
  · exact isSome_setGroup hu
  · exact hu

/-- No operation loses the user. -/
theorem isSome_step (cal : Calendar) (op : Op) (hu : (s.users.groupOf u).isSome) :
    ((step cal s op).users.groupOf u).isSome := by
  cases op with
  | create id userId plan source now =>
    rcases create_cases cal plan source s with hstep | ⟨new, -, -, -, -, hstep⟩
    · rw [hstep]
      exact hu
    · rw [hstep]
      dsimp only
      split
      · exact isSome_setGroup hu
      · exact hu
  | expireDue limit now =>
    show ((s.expireDueSubscriptions limit now).users.groupOf u).isSome
    unfold expireDueSubscriptions
    generalize s.dueUsers limit now = l
    induction l generalizing s with
    | nil => exact hu
    | cons v l ih => exact ih (isSome_expireUser hu)
  | invalidate id now =>
    unfold step
    dsimp only
    unfold adminInvalidateUserSubscription
    split
    · exact hu
    split
    · exact hu
    next sub _ =>
      dsimp only [Except.toOption, Option.getD]
      exact isSome_downgrade hu
  | delete id now =>
    unfold step
    dsimp only
    unfold adminDeleteUserSubscription
    split
    · exact hu
    split
    · exact hu
    next sub _ =>
      dsimp only [Except.toOption, Option.getD]
      exact isSome_downgrade hu

theorem step_groupKept_iff (cal : Calendar) (op : Op) (hu : (s.users.groupOf u).isSome)
    (hkept : GroupKept u original s) :
    GroupKept u original (step cal s op) ↔ Keeps u original s op := by
  cases op with
  | create id userId plan source now =>
    exact iff_of_true (create_groupKept hu hkept cal plan source) trivial
  | expireDue limit now => exact expireDue_groupKept_iff hu hkept cal limit
  | invalidate id now => exact invalidate_groupKept_iff hu hkept cal
  | delete id now => exact delete_groupKept_iff hu hkept cal

/-- The group of a user whom no subscription upgrades at first is kept through all operations exactly
when each of them keeps it. -/
theorem groupKept_holds_iff (cal : Calendar) (ops : List Op)
    (hu : s.users.groupOf u = some original) (hnone : ∀ sub ∈ s.subsOf u, ¬ Upgrades sub) :
    Holds (step cal) (GroupKept u original) s ops ↔ Meets (step cal) (Keeps u original) s ops := by
  have hgroup : s.getUserGroupById u = original := by
    rw [getUserGroupById, hu]
    rfl
  have hkept : GroupKept u original s :=
    ⟨fun _ => hgroup, fun ⟨sub, hsub, hup⟩ => absurd hup (hnone sub hsub)⟩
  exact holds_iff_meets (I := fun s => (s.users.groupOf u).isSome)
    (fun s op hu => isSome_step cal op hu) (fun s op hu hkept => step_groupKept_iff cal op hu hkept)
    (by rw [hu]; rfl) hkept

end

/-! ## Two subscriptions that overlap -/

/-- A plan of some seconds that moves its users to a group. -/
def planTo (id : Nat) (customSeconds : Int) (upgradeGroup : String) : SubscriptionPlan :=
  { id, durationUnit := .custom, customSeconds, upgradeGroup }

/-- One user, who has no subscription. -/
def oneUser : SubscriptionStore where
  users := Table.insertNew .empty { id := 1, quota := 0, group := "default" }
  subs := .empty
  records := .empty

/-- A longer subscription is bought while a shorter one runs, and both expire. -/
def overlapping : List Op :=
  [.create 1 1 (planTo 1 100 "vip") "order" 1000, .create 2 1 (planTo 2 200 "svip") "order" 1010,
    .expireDue 0 1150, .expireDue 0 1300]

theorem groupKept_holds_iff_overlapping :
    Holds (step fixedCalendar) (GroupKept 1 "default") oneUser overlapping ↔
      Meets (step fixedCalendar) (Keeps 1 "default") oneUser overlapping :=
  groupKept_holds_iff fixedCalendar overlapping (by decide) (by decide)

/-- The user is left in the group of the subscription that expired first. -/
theorem overlapping_not_restored :
    ¬ Holds (step fixedCalendar) (GroupKept 1 "default") oneUser overlapping := by
  intro h
  have hgroup : (run (step fixedCalendar) oneUser overlapping).getUserGroupById 1 = "vip" := by
    decide
  have hnone : ∀ sub ∈ (run (step fixedCalendar) oneUser overlapping).subsOf 1, ¬ Upgrades sub := by
    decide
  have hkept := h.last.1 fun sub hsub => hnone sub hsub.1 hsub.2
  rw [hgroup] at hkept
  exact absurd hkept (by decide)

end SubscriptionStore

end NewApi

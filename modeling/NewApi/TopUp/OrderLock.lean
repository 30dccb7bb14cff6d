import Mathlib.Logic.Function.Basic
import NewApi.Lib.Procs

/-!
# The lock of an order

`LockOrder` and `UnlockOrder` keep a mutex for each trade number in a map, with the number of its users. One
mutex, `createLock`, guards the map's entries and the counts. A caller runs `LockOrder`, does its work, and
runs `UnlockOrder`; any number of them take turns, one statement at a time.

In every run, at most one caller is between the two functions for a trade number, all its callers use one and
the same mutex, each caller releases the one that it has locked, and the map has an entry for a trade number
only while a caller uses it (`orderLock_safe`). After the mutex is released the entry stays until `UnlockOrder`
has counted its caller out (`not_removed`).
-/

namespace NewApi.OrderLock

open Run Procs

/-- `refCountedMutex`. -/
structure RefCountedMutex where
  locked : Bool := false
  refCount : Int := 0
deriving DecidableEq

/-- The variables that the callers share: `createLock`, `orderLocks`, the mutexes under their addresses with the
next free address, and whether the runtime has stopped the program because a free mutex was unlocked. -/
structure Shared where
  createLocked : Bool := false
  orderLocks : String → Option Nat := fun _ => none
  locks : Nat → RefCountedMutex := fun _ => {}
  next : Nat := 0
  fatal : Bool := false

/-- The statement that a caller is at. `holding l` is the work between the two functions of a caller that has
locked `l`; it goes on with the `Load` of `UnlockOrder`, which finds `l'` in `unlocking l l'`. -/
inductive Phase
  | entering
  | loading
  | storing
  | counting (l : Nat)
  | leaving (l : Nat)
  | locking (l : Nat)
  | holding (l : Nat)
  | unlocking (l l' : Nat)
  | reentering (l : Nat)
  | dropping (l : Nat)
  | checking (l : Nat)
  | exiting
  | done
deriving DecidableEq

/-- A caller that locks the order, and unlocks it. -/
structure Caller where
  tradeNo : String
  phase : Phase := .entering
deriving DecidableEq

def Shared.setLock (s : Shared) (l : Nat) (m : RefCountedMutex) : Shared :=
  { s with locks := Function.update s.locks l m }

@[simp] theorem Shared.setLock_self (s : Shared) (l : Nat) (m : RefCountedMutex) :
    (s.setLock l m).locks l = m := Function.update_self ..

theorem Shared.setLock_of_ne (s : Shared) {l l' : Nat} (m : RefCountedMutex) (h : l' ≠ l) :
    (s.setLock l m).locks l' = s.locks l' := Function.update_of_ne h ..

def Caller.goto (c : Caller) (phase : Phase) : Caller := { c with phase := phase }

/-- The next statement of `LockOrder` or `UnlockOrder`. A caller that waits for a mutex stays where it is. -/
def prog (s : Shared) (c : Caller) (_ : Unit) : Shared × Caller :=
  match c.phase with
  -- createLock.Lock()
  | .entering => if s.createLocked then (s, c) else ({ s with createLocked := true }, c.goto .loading)
  -- orderLocks.Load(tradeNo)
  | .loading =>
    match s.orderLocks c.tradeNo with
    | some l => (s, c.goto (.counting l))
    | none => (s, c.goto .storing)
  -- rcm = &refCountedMutex{}; orderLocks.Store(tradeNo, rcm)
  | .storing =>
    ({ s.setLock s.next {} with
        next := s.next + 1, orderLocks := Function.update s.orderLocks c.tradeNo (some s.next) },
      c.goto (.counting s.next))
  -- rcm.refCount++
  | .counting l =>
    (s.setLock l { s.locks l with refCount := (s.locks l).refCount + 1 }, c.goto (.leaving l))
  -- createLock.Unlock()
  | .leaving l =>
    if s.createLocked then ({ s with createLocked := false }, c.goto (.locking l))
    else ({ s with fatal := true }, c)
  -- rcm.mu.Lock()
  | .locking l =>
    if (s.locks l).locked then (s, c)
    else (s.setLock l { s.locks l with locked := true }, c.goto (.holding l))
  -- orderLocks.Load(tradeNo)
  | .holding l =>
    match s.orderLocks c.tradeNo with
    | some l' => (s, c.goto (.unlocking l l'))
    | none => (s, c.goto .done)
  -- rcm.mu.Unlock()
  | .unlocking _ l' =>
    if (s.locks l').locked then
      (s.setLock l' { s.locks l' with locked := false }, c.goto (.reentering l'))
    else ({ s with fatal := true }, c)
  -- createLock.Lock()
  | .reentering l => if s.createLocked then (s, c) else ({ s with createLocked := true }, c.goto (.dropping l))
  -- rcm.refCount--
  | .dropping l =>
    (s.setLock l { s.locks l with refCount := (s.locks l).refCount - 1 }, c.goto (.checking l))
  -- if rcm.refCount == 0 { orderLocks.Delete(tradeNo) }
  | .checking l =>
    if (s.locks l).refCount = 0 then
      ({ s with orderLocks := Function.update s.orderLocks c.tradeNo none }, c.goto .exiting)
    else (s, c.goto .exiting)
  -- createLock.Unlock()
  | .exiting =>
    if s.createLocked then ({ s with createLocked := false }, c.goto .done)
    else ({ s with fatal := true }, c)
  | .done => (s, c)

abbrev State := Procs Shared Caller

def start : State := ⟨{}, []⟩

/-- A caller arrives with a trade number, or takes its next statement. -/
def step : State → Act String Unit → State := Procs.step (fun tradeNo => { tradeNo }) prog

namespace Phase

/-- The caller has `createLock`. -/
def inSection : Phase → Bool
  | loading | storing | counting _ | leaving _ | dropping _ | checking _ | exiting => true
  | entering | locking _ | holding _ | unlocking _ _ | reentering _ | done => false

/-- The mutex that the caller has found or stored in the map, until it may delete it. -/
def object : Phase → Option Nat
  | counting l | leaving l | locking l | holding l | unlocking l _ | reentering l | dropping l | checking l =>
    some l
  | entering | loading | storing | exiting | done => none

/-- The mutex whose count the caller is in. -/
def counted : Phase → Option Nat
  | leaving l | locking l | holding l | unlocking l _ | reentering l | dropping l => some l
  | entering | loading | storing | counting _ | checking _ | exiting | done => none

/-- The mutex that the caller has locked. -/
def held : Phase → Option Nat
  | holding l | unlocking l _ => some l
  | _ => none

/-- The caller is inside `LockOrder`. -/
def waits : Phase → Bool
  | entering | loading | storing | counting _ | leaving _ | locking _ => true
  | _ => false

/-- The caller has released the mutex, and `UnlockOrder` has not counted it out and looked at the count. -/
def releases : Phase → Bool
  | reentering _ | dropping _ | checking _ => true
  | _ => false

theorem object_of_held {phase : Phase} {l : Nat} (h : phase.held = some l) : phase.object = some l := by
  cases phase with
  | holding => exact h
  | unlocking => exact h
  | _ => cases h

theorem object_of_counted {phase : Phase} {l : Nat} (h : phase.counted = some l) : phase.object = some l := by
  cases phase with
  | leaving | locking | holding | unlocking | reentering | dropping => exact h
  | _ => cases h

/-- A caller that has found a mutex is in its count, or has `createLock`. -/
theorem counted_or_inSection {phase : Phase} {l : Nat} (h : phase.object = some l) :
    phase.counted = some l ∨ phase.inSection = true := by
  cases phase with
  | leaving | locking | holding | unlocking | reentering | dropping => exact .inl h
  | counting | checking => exact .inr rfl
  | _ => cases h

end Phase

/-- What the lock is for. Beside the mutual exclusion: callers that have found a mutex have all found the one that
is in the map, each unlocks the one that it has locked, and an entry has a caller that it is there for. -/
structure Safe (S : State) : Prop where
  exclusive : ∀ (i j : Nat) (c d : Caller), S.procs[i]? = some c → S.procs[j]? = some d →
    c.tradeNo = d.tradeNo → c.phase.held.isSome → d.phase.held.isSome → i = j
  same : ∀ c ∈ S.procs, ∀ l, c.phase.object = some l → S.shared.orderLocks c.tradeNo = some l
  own : ∀ c ∈ S.procs, ∀ l l', c.phase = .unlocking l l' → l' = l ∧ (S.shared.locks l).locked = true
  running : S.shared.fatal = false
  entry : ∀ t l, S.shared.orderLocks t = some l → ∃ c ∈ S.procs, c.tradeNo = t ∧
    (c.phase.waits ∨ c.phase.held.isSome ∨ c.phase.releases)

/-- Where no caller holds an order or waits for one, no entry is left. -/
def Removed (S : State) : Prop :=
  (∀ c ∈ S.procs, c.phase.held = none ∧ c.phase.waits = false) → ∀ t, S.shared.orderLocks t = none

/-! ## The invariant -/

/-- What is true of a caller, over the shared variables. -/
structure Local (s : Shared) (c : Caller) : Prop where
  inSection : c.phase.inSection → s.createLocked = true
  object : ∀ l, c.phase.object = some l → s.orderLocks c.tradeNo = some l ∧ l < s.next
  held : ∀ l, c.phase.held = some l → (s.locks l).locked = true
  storing : c.phase = .storing → s.orderLocks c.tradeNo = none
  unlocking : ∀ l l', c.phase = .unlocking l l' → l' = l

/-- Two callers are not both in the section, and have not locked one mutex. -/
def Apart (c d : Caller) : Prop :=
  (c.phase.inSection → d.phase.inSection = false) ∧ ∀ l, c.phase.held = some l → d.phase.held ≠ some l

/-- The callers in the count of a mutex. -/
def users (S : State) (l : Nat) : Nat := S.procs.countP fun c => c.phase.counted = some l

structure Inv (S : State) : Prop where
  asserted : Asserted Local Apart S
  refCount : ∀ l, (S.shared.locks l).refCount = users S l
  entry : ∀ t l, S.shared.orderLocks t = some l → ∃ c ∈ S.procs, c.tradeNo = t ∧ c.phase.object = some l
  injective : ∀ t t' l, S.shared.orderLocks t = some l → S.shared.orderLocks t' = some l → t = t'
  fresh : ∀ l, S.shared.next ≤ l → S.shared.locks l = {}
  running : S.shared.fatal = false

/-- What a step has to keep, of the shared variables and its caller. -/
structure Keeps (S : State) (c : Caller) (s' : Shared) (c' : Caller) : Prop where
  asserted : Local s' c'
  frame : ∀ d ∈ S.procs, Local S.shared d → Apart c d → Local s' d ∧ Apart c' d
  refCount : ∀ l, (s'.locks l).refCount + (decide (c.phase.counted = some l)).toNat =
    (S.shared.locks l).refCount + (decide (c'.phase.counted = some l)).toNat
  entry : ∀ t l, s'.orderLocks t = some l →
    t = c.tradeNo ∧ c'.tradeNo = t ∧ c'.phase.object = some l ∨
    ∃ d ∈ S.procs, d ≠ c ∧ d.tradeNo = t ∧ d.phase.object = some l
  injective : ∀ t t' l, s'.orderLocks t = some l → s'.orderLocks t' = some l → t = t'
  fresh : ∀ l, s'.next ≤ l → s'.locks l = {}
  running : s'.fatal = false

section
variable {S : State} {c : Caller} {k : Nat}

theorem Apart.symm {c d : Caller} (h : Apart c d) : Apart d c := by
  refine ⟨fun hd => ?_, fun l hd hc => h.2 l hc hd⟩
  cases hc : c.phase.inSection with
  | false => rfl
  | true => exact hd.symm.trans (h.1 hc)

theorem Keeps.inv (h : Inv S) (hk : S.procs[k]? = some c)
    (hc : Keeps S c (prog S.shared c ()).1 (prog S.shared c ()).2) : Inv (step S (.sched k ())) := by
  have hshared : (step S (.sched k ())).shared = (prog S.shared c ()).1 :=
    congrArg Procs.shared (step_sched_some hk)
  have hcount : ∀ l, users (step S (.sched k ())) l + (decide (c.phase.counted = some l)).toNat =
      users S l + (decide ((prog S.shared c ()).2.phase.counted = some l)).toNat :=
    fun l => countP_sched (fun d : Caller => decide (d.phase.counted = some l)) hk
  refine ⟨h.asserted.sched hk hc.asserted ?_, fun l => ?_, fun t l hl => ?_, ?_, ?_, ?_⟩
  · intro d hd hlocal hapart _
    obtain ⟨hlocal', hapart'⟩ := hc.frame d hd hlocal hapart
    exact ⟨hlocal', hapart', hapart'.symm⟩
  · have hold := h.refCount l
    have hnew := hc.refCount l
    have husers := hcount l
    rw [hshared]
    omega
  · rw [hshared] at hl
    rcases hc.entry t l hl with ⟨-, ht, hobject⟩ | ⟨d, hd, hne, ht, hobject⟩
    · exact ⟨_, mem_sched_self hk, ht, hobject⟩
    · exact ⟨d, mem_sched_of_ne hk hd hne, ht, hobject⟩
  · rw [hshared]
    exact hc.injective
  · rw [hshared]
    exact hc.fresh
  · rw [hshared]
    exact hc.running

theorem Keeps.of_map (h : Inv S) {s' : Shared} {phase : Phase}
    (hmap : s'.orderLocks = S.shared.orderLocks) (hobject : ∀ l, c.phase.object = some l → phase.object = some l)
    (hasserted : Local s' (c.goto phase))
    (hframe : ∀ d ∈ S.procs, Local S.shared d → Apart c d → Local s' d ∧ Apart (c.goto phase) d)
    (hrefCount : ∀ l, (s'.locks l).refCount + (decide (c.phase.counted = some l)).toNat =
      (S.shared.locks l).refCount + (decide (phase.counted = some l)).toNat)
    (hfresh : ∀ l, s'.next ≤ l → s'.locks l = {}) (hrunning : s'.fatal = false) :
    Keeps S c s' (c.goto phase) := by
  refine ⟨hasserted, hframe, hrefCount, fun t l hl => ?_, ?_, hfresh, hrunning⟩
  · rw [hmap] at hl
    obtain ⟨d, hd, ht, hdl⟩ := h.entry t l hl
    by_cases hdc : d = c
    · rw [hdc] at ht hdl
      exact .inl ⟨ht.symm, ht, hobject l hdl⟩
    · exact .inr ⟨d, hd, hdc, ht, hdl⟩
  · rw [hmap]
    exact h.injective

theorem Local.setLock {s : Shared} {d : Caller} {l : Nat} {m : RefCountedMutex} (h : Local s d)
    (hm : d.phase.held = some l → m.locked = true) : Local (s.setLock l m) d := by
  refine ⟨h.inSection, h.object, fun l' hl' => ?_, h.storing, h.unlocking⟩
  by_cases heq : l' = l
  · rw [heq] at hl'
    rw [heq, Shared.setLock_self]
    exact hm hl'
  · rw [Shared.setLock_of_ne s m heq]
    exact h.held l' hl'

/-- The others do not see that `createLock` is released by one that has it. -/
theorem Local.release {s : Shared} {d : Caller} (h : Local s d) (hd : d.phase.inSection = false) :
    Local { s with createLocked := false } d :=
  ⟨fun hin => absurd (hin.symm.trans hd) (by decide), h.object, h.held, h.storing, h.unlocking⟩

theorem Apart.goto {d : Caller} {phase : Phase} (h : Apart c d)
    (hin : phase.inSection = true → c.phase.inSection = true)
    (hheld : ∀ l, phase.held = some l → c.phase.held = some l) : Apart (c.goto phase) d :=
  ⟨fun hp => h.1 (hin hp), fun l hl => h.2 l (hheld l hl)⟩

theorem Inv.fresh_setLock (h : Inv S) {l : Nat} {m : RefCountedMutex} (hl : l < S.shared.next) :
    ∀ l', S.shared.next ≤ l' → (S.shared.setLock l m).locks l' = {} := by
  intro l' hl'
  rw [Shared.setLock_of_ne _ m (by omega)]
  exact h.fresh l' hl'

theorem refCount_setLock {l : Nat} {m : RefCountedMutex} {p p' : Option Nat}
    (hl : m.refCount + (decide (p = some l)).toNat = (S.shared.locks l).refCount + (decide (p' = some l)).toNat)
    (hother : ∀ l', l' ≠ l → (p = some l' ↔ p' = some l')) :
    ∀ l', ((S.shared.setLock l m).locks l').refCount + (decide (p = some l')).toNat =
      (S.shared.locks l').refCount + (decide (p' = some l')).toNat := by
  intro l'
  by_cases heq : l' = l
  · rw [heq, Shared.setLock_self]
    exact hl
  · rw [Shared.setLock_of_ne _ m heq]
    simp only [hother l' heq]

/-- A caller that takes `createLock`. -/
theorem Keeps.enter (h : Inv S) (hc : Local S.shared c) (hfree : S.shared.createLocked = false) {phase : Phase}
    (hobject : phase.object = c.phase.object)
    (hcounted : phase.counted = c.phase.counted) (hheld : phase.held = none) (hstoring : phase ≠ .storing)
    (hunlocking : ∀ l l', phase ≠ .unlocking l l') :
    Keeps S c { S.shared with createLocked := true } (c.goto phase) := by
  refine .of_map h rfl (fun l hl => hobject.trans hl) ?_ (fun d _ hd hapart => ⟨?_, ?_⟩) ?_ h.fresh h.running
  · refine ⟨fun _ => rfl, fun l hl => hc.object l (hobject.symm.trans hl), fun l hl => ?_, fun hs => ?_, ?_⟩
    · cases hheld.symm.trans hl
    · exact absurd hs hstoring
    · exact fun l l' hu => absurd hu (hunlocking l l')
  · exact ⟨fun _ => rfl, hd.object, hd.held, hd.storing, hd.unlocking⟩
  · -- the others are outside, for `createLock` was free
    refine ⟨fun _ => ?_, fun l hl => ?_⟩
    · cases hdin : d.phase.inSection with
      | false => rfl
      | true => exact (hd.inSection hdin).symm.trans hfree
    · cases hheld.symm.trans hl
  · intro l
    rw [hcounted]

variable (h : Inv S) (hk : S.procs[k]? = some c)
include h hk

theorem Inv.local_ : Local S.shared c := h.asserted.each k c hk

omit hk in
theorem Inv.lt_next {t : String} {l : Nat} (hl : S.shared.orderLocks t = some l) : l < S.shared.next := by
  obtain ⟨d, hd, -, hobject⟩ := h.entry t l hl
  obtain ⟨j, hj⟩ := List.mem_iff_getElem?.1 hd
  exact ((h.local_ hj).object l hobject).2

omit h hk in
theorem Local.plain {s : Shared} {phase : Phase} (hheld : phase.held = none) (hstoring : phase ≠ .storing)
    (hin : phase.inSection → s.createLocked = true)
    (hobject : ∀ l, phase.object = some l → s.orderLocks c.tradeNo = some l ∧ l < s.next) :
    Local s (c.goto phase) := by
  refine ⟨hin, hobject, fun l hl => ?_, fun hs => absurd hs hstoring, fun l l' hu => ?_⟩
  · cases hheld.symm.trans hl
  · have hphase : phase = .unlocking l l' := hu
    rw [hphase] at hheld
    cases hheld

/-- `orderLocks.Load(tradeNo)` in `LockOrder`. -/
theorem Inv.loading (hc : c.phase = .loading) : Keeps S c (prog S.shared c ()).1 (prog S.shared c ()).2 := by
  have hlocked : S.shared.createLocked = true := (h.local_ hk).inSection (by rw [hc]; rfl)
  have hapart : ∀ {d phase}, Apart c d → Phase.held phase = none → Apart (c.goto phase) d := by
    intro d phase hapart hheld
    refine hapart.goto (fun _ => by rw [hc]; rfl) fun l hl => ?_
    cases hheld.symm.trans hl
  have hobject : ∀ {phase : Phase} l, c.phase.object = some l → phase.object = some l := by
    intro phase l hl
    rw [hc] at hl
    cases hl
  unfold prog
  rw [hc]
  dsimp only
  cases hl : S.shared.orderLocks c.tradeNo with
  | some l =>
    refine .of_map h rfl hobject (.plain rfl (fun h => by cases h) (fun _ => hlocked) ?_)
      (fun d _ hd hcd => ⟨hd, hapart hcd rfl⟩) (fun l => by rw [hc]; rfl) h.fresh h.running
    intro l' hl'
    cases hl'
    exact ⟨hl, h.lt_next hl⟩
  | none =>
    refine .of_map h rfl hobject ⟨fun _ => hlocked, ?_, ?_, fun _ => hl, ?_⟩
      (fun d _ hd hcd => ⟨hd, hapart hcd rfl⟩) (fun l => by rw [hc]; rfl) h.fresh h.running
    · intro l' hl'
      cases hl'
    · intro l' hl'
      cases hl'
    · intro l l' hu
      cases hu

/-- `orderLocks.Store(tradeNo, rcm)`. -/
theorem Inv.storing (hc : c.phase = .storing) : Keeps S c (prog S.shared c ()).1 (prog S.shared c ()).2 := by
  have hlocal := h.local_ hk
  have hin : c.phase.inSection = true := by rw [hc]; rfl
  have hnone := hlocal.storing hc
  have hfree := h.fresh S.shared.next (Nat.le_refl _)
  unfold prog
  rw [hc]
  dsimp only
  refine ⟨.plain rfl (fun h => by cases h) (fun _ => hlocal.inSection hin) ?_, ?_, ?_, ?_, ?_, ?_, h.running⟩
  · intro l hl
    cases hl
    exact ⟨Function.update_self .., Nat.lt_succ_self _⟩
  · intro d hd hdlocal hapart
    refine ⟨⟨hdlocal.inSection, fun l hl => ?_, fun l hl => ?_, fun hs => ?_, hdlocal.unlocking⟩,
      hapart.goto (fun _ => hin) fun l hl => by cases hl⟩
    · obtain ⟨hdl, hlt⟩ := hdlocal.object l hl
      have hne : d.tradeNo ≠ c.tradeNo := fun heq => by cases (heq ▸ hdl).symm.trans hnone
      exact ⟨(Function.update_of_ne hne ..).trans hdl, Nat.lt_succ_of_lt hlt⟩
    · have hlt := (hdlocal.object l (Phase.object_of_held hl)).2
      show ((S.shared.setLock S.shared.next {}).locks l).locked = true
      rw [Shared.setLock_of_ne _ _ (by omega)]
      exact hdlocal.held l hl
    · -- another caller that stores would be in the section
      have hout := hapart.1 hin
      rw [hs] at hout
      cases hout
  · refine refCount_setLock ?_ fun l' _ => ?_
    · rw [hfree, hc]
      rfl
    · rw [hc]
      rfl
  · intro t l hl
    by_cases ht : t = c.tradeNo
    · refine .inl ⟨ht, ht.symm, ?_⟩
      have hnew : Function.update S.shared.orderLocks c.tradeNo (some S.shared.next) t = some l := hl
      rw [ht, Function.update_self] at hnew
      exact hnew
    · obtain ⟨d, hd, hdt, hobject⟩ := h.entry t l ((Function.update_of_ne ht ..).symm.trans hl)
      exact .inr ⟨d, hd, fun heq => ht (hdt.symm.trans (congrArg Caller.tradeNo heq)), hdt, hobject⟩
  · have hnew : ∀ {t t' l}, t = c.tradeNo → t' ≠ c.tradeNo →
        Function.update S.shared.orderLocks c.tradeNo (some S.shared.next) t = some l →
        Function.update S.shared.orderLocks c.tradeNo (some S.shared.next) t' ≠ some l := by
      intro t t' l ht ht' hl hl'
      rw [ht, Function.update_self] at hl
      rw [Function.update_of_ne ht', ← hl] at hl'
      exact Nat.lt_irrefl _ (h.lt_next hl')
    intro t t' l hl hl'
    by_cases ht : t = c.tradeNo
    · by_cases ht' : t' = c.tradeNo
      · rw [ht, ht']
      · exact absurd hl' (hnew ht ht' hl)
    · by_cases ht' : t' = c.tradeNo
      · exact absurd hl (hnew ht' ht hl')
      · exact h.injective t t' l ((Function.update_of_ne ht ..).symm.trans hl)
          ((Function.update_of_ne ht' ..).symm.trans hl')
  · intro l hl
    have hlt : S.shared.next < l := hl
    show (S.shared.setLock S.shared.next {}).locks l = {}
    rw [Shared.setLock_of_ne _ _ (by omega)]
    exact h.fresh l (Nat.le_of_lt hlt)

theorem Inv.recount {l : Nat} {n : Int} {phase : Phase} (hin : c.phase.inSection = true)
    (hfound : c.phase.object = some l) (hobject : phase.object = some l) (hheld : phase.held = none)
    (hn : n + (decide (c.phase.counted = some l)).toNat =
      (S.shared.locks l).refCount + (decide (phase.counted = some l)).toNat)
    (hother : ∀ l', l' ≠ l → (c.phase.counted = some l' ↔ phase.counted = some l')) :
    Keeps S c (S.shared.setLock l { S.shared.locks l with refCount := n }) (c.goto phase) := by
  have hlocal := h.local_ hk
  obtain ⟨hl, hlt⟩ := hlocal.object l hfound
  have hstoring : phase ≠ .storing := by
    intro hs
    rw [hs] at hobject
    cases hobject
  refine .of_map h rfl (fun l' hl' => ?_) (.plain hheld hstoring (fun _ => hlocal.inSection hin) ?_)
    (fun d _ hd hapart => ⟨hd.setLock fun hdl => hd.held l hdl, ?_⟩) (refCount_setLock hn hother)
    (h.fresh_setLock hlt) h.running
  · exact hobject.trans (hfound.symm.trans hl')
  · intro l' hl'
    rw [← Option.some.inj (hobject.symm.trans hl')]
    exact ⟨hl, hlt⟩
  · exact hapart.goto (fun _ => hin) fun l' hl' => by cases hheld.symm.trans hl'

/-- `rcm.refCount++`. -/
theorem Inv.counting {l : Nat} (hc : c.phase = .counting l) :
    Keeps S c (prog S.shared c ()).1 (prog S.shared c ()).2 := by
  unfold prog
  rw [hc]
  refine h.recount hk (by rw [hc]; rfl) (by rw [hc]; rfl) rfl rfl ?_ fun l' hne => ?_
  · simp [hc, Phase.counted]
  · simp [hc, Phase.counted, Ne.symm hne]

/-- `createLock.Unlock()` in `LockOrder`. -/
theorem Inv.leaving {l : Nat} (hc : c.phase = .leaving l) :
    Keeps S c (prog S.shared c ()).1 (prog S.shared c ()).2 := by
  have hlocal := h.local_ hk
  have hin : c.phase.inSection = true := by rw [hc]; rfl
  obtain ⟨hl, hlt⟩ := hlocal.object l (by rw [hc]; rfl)
  unfold prog
  rw [hc]
  dsimp only
  rw [if_pos (hlocal.inSection hin)]
  refine .of_map h rfl (fun l' hl' => ?_) (.plain rfl (fun h => by cases h) (fun h => by cases h) ?_)
    (fun d _ hd hapart => ⟨hd.release (hapart.1 hin), ?_⟩) (fun l' => by rw [hc]; rfl) h.fresh h.running
  · rw [hc] at hl'
    exact hl'
  · intro l' hl'
    cases hl'
    exact ⟨hl, hlt⟩
  · exact hapart.goto (fun _ => hin) fun l' hl' => by cases hl'

/-- `rcm.mu.Lock()`. -/
theorem Inv.locking {l : Nat} (hc : c.phase = .locking l) :
    Keeps S c (prog S.shared c ()).1 (prog S.shared c ()).2 := by
  have hlocal := h.local_ hk
  obtain ⟨hl, hlt⟩ := hlocal.object l (by rw [hc]; rfl)
  unfold prog
  rw [hc]
  dsimp only
  by_cases hlocked : (S.shared.locks l).locked = true
  · rw [if_pos hlocked]
    exact .of_map h rfl (fun _ => id) hlocal (fun d _ hd hapart => ⟨hd, hapart⟩) (fun _ => rfl) h.fresh h.running
  rw [if_neg hlocked]
  refine .of_map h rfl (fun l' hl' => ?_) ⟨(fun h => by cases h), fun l' hl' => ?_, fun l' hl' => ?_,
    (fun h => by cases h), (fun _ _ h => by cases h)⟩ (fun d _ hd hapart => ⟨hd.setLock fun _ => rfl, ?_⟩) ?_
    (h.fresh_setLock hlt) h.running
  · rw [hc] at hl'
    exact hl'
  · cases hl'
    exact ⟨hl, hlt⟩
  · cases hl'
    rw [Shared.setLock_self]
  · -- the mutex was free, so no other caller has locked it
    refine ⟨(fun h => by cases h), fun l' hl' hdl => ?_⟩
    cases hl'
    exact hlocked (hd.held l hdl)
  · rw [hc]
    exact refCount_setLock rfl fun l' _ => Iff.rfl

/-- `orderLocks.Load(tradeNo)` in `UnlockOrder`. -/
theorem Inv.holding {l : Nat} (hc : c.phase = .holding l) :
    Keeps S c (prog S.shared c ()).1 (prog S.shared c ()).2 := by
  have hlocal := h.local_ hk
  obtain ⟨hl, hlt⟩ := hlocal.object l (by rw [hc]; rfl)
  unfold prog
  rw [hc]
  dsimp only
  rw [hl]
  refine .of_map h rfl (fun l' hl' => ?_) ⟨(fun h => by cases h), fun l' hl' => ?_, fun l' hl' => ?_,
    (fun h => by cases h), fun l₁ l₂ hu => ?_⟩ (fun d _ hd hapart => ⟨hd, ?_⟩) (fun l' => by rw [hc]; rfl)
    h.fresh h.running
  · rw [hc] at hl'
    exact hl'
  · cases hl'
    exact ⟨hl, hlt⟩
  · cases hl'
    exact hlocal.held l (by rw [hc]; rfl)
  · cases hu
    rfl
  · refine hapart.goto (fun h => by cases h) fun l' hl' => ?_
    rw [hc]
    exact hl'

/-- `rcm.mu.Unlock()`. -/
theorem Inv.unlocking {l l₂ : Nat} (hc : c.phase = .unlocking l l₂) :
    Keeps S c (prog S.shared c ()).1 (prog S.shared c ()).2 := by
  have hlocal := h.local_ hk
  obtain rfl : l₂ = l := hlocal.unlocking l l₂ hc
  have hheld : c.phase.held = some l₂ := by rw [hc]; rfl
  obtain ⟨hl, hlt⟩ := hlocal.object l₂ (Phase.object_of_held hheld)
  unfold prog
  rw [hc]
  dsimp only
  rw [if_pos (hlocal.held l₂ hheld)]
  refine .of_map h rfl (fun l' hl' => ?_) (.plain rfl (fun h => by cases h) (fun h => by cases h) ?_)
    (fun d _ hd hapart => ⟨hd.setLock fun hdl => absurd hdl (hapart.2 l₂ hheld), ?_⟩) ?_ (h.fresh_setLock hlt)
    h.running
  · rw [hc] at hl'
    exact hl'
  · intro l' hl'
    cases hl'
    exact ⟨hl, hlt⟩
  · exact hapart.goto (fun h => by cases h) fun l' hl' => by cases hl'
  · rw [hc]
    exact refCount_setLock rfl fun l' _ => Iff.rfl

/-- `rcm.refCount--`. -/
theorem Inv.dropping {l : Nat} (hc : c.phase = .dropping l) :
    Keeps S c (prog S.shared c ()).1 (prog S.shared c ()).2 := by
  unfold prog
  rw [hc]
  refine h.recount hk (by rw [hc]; rfl) (by rw [hc]; rfl) rfl rfl ?_ fun l' hne => ?_
  · simp [hc, Phase.counted]
  · simp [hc, Phase.counted, Ne.symm hne]

/-- `if rcm.refCount == 0 { orderLocks.Delete(tradeNo) }`, where another caller is in the count. -/
theorem Inv.checking_used {l : Nat} (hc : c.phase = .checking l) (hused : (S.shared.locks l).refCount ≠ 0) :
    Keeps S c S.shared (c.goto .exiting) := by
  have hlocal := h.local_ hk
  have hin : c.phase.inSection = true := by rw [hc]; rfl
  obtain ⟨hl, -⟩ := hlocal.object l (by rw [hc]; rfl)
  refine ⟨.plain rfl (fun h => by cases h) (fun _ => hlocal.inSection hin) (fun _ h => by cases h),
    fun d _ hd hapart => ⟨hd, hapart.goto (fun _ => hin) fun l' hl' => by cases hl'⟩, fun l' => ?_,
    fun t l' hl' => .inr ?_, h.injective, h.fresh, h.running⟩
  · rw [hc]
    rfl
  obtain ⟨d, hd, ht, hobject⟩ := h.entry t l' hl'
  by_cases hdc : d = c
  swap
  · exact ⟨d, hd, hdc, ht, hobject⟩
  · -- the entry is the one that this caller has found, and somebody else is counted
    rw [hdc] at ht hobject
    have hll' : l' = l := by
      rw [hc] at hobject
      exact (Option.some.inj hobject).symm
    have hpos : 0 < users S l := by
      have hcount := h.refCount l
      omega
    obtain ⟨d', hd', hcounted⟩ := List.countP_pos_iff.1 hpos
    have hcounted' : d'.phase.counted = some l := of_decide_eq_true hcounted
    obtain ⟨j, hj⟩ := List.mem_iff_getElem?.1 hd'
    have hobject' := Phase.object_of_counted hcounted'
    obtain ⟨hdl, -⟩ := (h.local_ hj).object l hobject'
    rw [hll'] at hl' ⊢
    refine ⟨d', hd', fun heq => ?_, h.injective _ _ l hdl hl', hobject'⟩
    rw [heq, hc] at hcounted'
    cases hcounted'

/-- `if rcm.refCount == 0 { orderLocks.Delete(tradeNo) }`, where no caller is in the count. -/
theorem Inv.checking_unused {l : Nat} (hc : c.phase = .checking l) (hunused : (S.shared.locks l).refCount = 0) :
    Keeps S c { S.shared with orderLocks := Function.update S.shared.orderLocks c.tradeNo none }
      (c.goto .exiting) := by
  have hlocal := h.local_ hk
  have hin : c.phase.inSection = true := by rw [hc]; rfl
  obtain ⟨hl, -⟩ := hlocal.object l (by rw [hc]; rfl)
  have hnobody : ∀ d ∈ S.procs, Apart c d → d.phase.object ≠ some l := by
    intro d hd hapart hobject
    rcases Phase.counted_or_inSection hobject with hcounted | hdin
    · have hcount := h.refCount l
      have hzero : users S l = 0 := by omega
      exact List.countP_eq_zero.1 hzero d hd (decide_eq_true hcounted)
    · exact absurd (hdin.symm.trans (hapart.1 hin)) (by decide)
  have hold : ∀ {t l'}, Function.update S.shared.orderLocks c.tradeNo none t = some l' →
      t ≠ c.tradeNo ∧ S.shared.orderLocks t = some l' := by
    intro t l' hl'
    by_cases ht : t = c.tradeNo
    · rw [ht, Function.update_self] at hl'
      cases hl'
    · rw [Function.update_of_ne ht] at hl'
      exact ⟨ht, hl'⟩
  refine ⟨.plain rfl (fun h => by cases h) (fun _ => hlocal.inSection hin) (fun _ h => by cases h), ?_,
    fun l' => ?_, fun t l' hl' => .inr ?_, fun t t' l' hl' hl₂ => ?_, h.fresh, h.running⟩
  · intro d hd hdlocal hapart
    refine ⟨⟨hdlocal.inSection, fun l' hl' => ?_, hdlocal.held, fun hs => ?_, hdlocal.unlocking⟩,
      hapart.goto (fun _ => hin) fun l' hl' => by cases hl'⟩
    · obtain ⟨hdl, hlt⟩ := hdlocal.object l' hl'
      have hne : d.tradeNo ≠ c.tradeNo := by
        intro heq
        rw [heq] at hdl
        rw [Option.some.inj (hdl.symm.trans hl)] at hl'
        exact hnobody d hd hapart hl'
      exact ⟨(Function.update_of_ne hne ..).trans hdl, hlt⟩
    · have hout := hapart.1 hin
      rw [hs] at hout
      cases hout
  · rw [hc]
    rfl
  · obtain ⟨hne, hl'⟩ := hold hl'
    obtain ⟨d, hd, ht, hobject⟩ := h.entry t l' hl'
    exact ⟨d, hd, fun heq => hne (ht.symm.trans (congrArg Caller.tradeNo heq)), ht, hobject⟩
  · exact h.injective t t' l' (hold hl').2 (hold hl₂).2

/-- `createLock.Unlock()` in `UnlockOrder`. -/
theorem Inv.exiting (hc : c.phase = .exiting) : Keeps S c (prog S.shared c ()).1 (prog S.shared c ()).2 := by
  have hin : c.phase.inSection = true := by rw [hc]; rfl
  unfold prog
  rw [hc]
  dsimp only
  rw [if_pos ((h.local_ hk).inSection hin)]
  refine .of_map h rfl (fun l hl => ?_) (.plain rfl (fun h => by cases h) (fun h => by cases h) fun _ h => by cases h)
    (fun d _ hd hapart => ⟨hd.release (hapart.1 hin), ?_⟩) (fun l => by rw [hc]; rfl) h.fresh h.running
  · rw [hc] at hl
    cases hl
  · exact hapart.goto (fun _ => hin) fun l hl => by cases hl

theorem Inv.stay : Keeps S c S.shared c :=
  .of_map h rfl (fun _ => id) (h.local_ hk) (fun _ _ hd hapart => ⟨hd, hapart⟩) (fun _ => rfl) h.fresh h.running

/-- `createLock.Lock()`, where the caller waits while another one has it. -/
theorem Inv.takes {phase : Phase}
    (hprog : prog S.shared c () =
      if S.shared.createLocked then (S.shared, c) else ({ S.shared with createLocked := true }, c.goto phase))
    (hobject : phase.object = c.phase.object) (hcounted : phase.counted = c.phase.counted)
    (hheld : phase.held = none) (hstoring : phase ≠ .storing) (hunlocking : ∀ l l', phase ≠ .unlocking l l') :
    Keeps S c (prog S.shared c ()).1 (prog S.shared c ()).2 := by
  rw [hprog]
  by_cases hlocked : S.shared.createLocked = true
  · rw [if_pos hlocked]
    exact h.stay hk
  · rw [if_neg hlocked]
    exact .enter h (h.local_ hk) (Bool.eq_false_iff.2 hlocked) hobject hcounted hheld hstoring hunlocking

theorem Inv.keeps : Keeps S c (prog S.shared c ()).1 (prog S.shared c ()).2 := by
  cases hc : c.phase with
  | entering =>
    refine h.takes hk (by rw [prog, hc]) (by rw [hc]; rfl) (by rw [hc]; rfl) rfl ?_ ?_
    · intro hs
      cases hs
    · intro _ _ hu
      cases hu
  | loading => exact h.loading hk hc
  | storing => exact h.storing hk hc
  | counting l => exact h.counting hk hc
  | leaving l => exact h.leaving hk hc
  | locking l => exact h.locking hk hc
  | holding l => exact h.holding hk hc
  | unlocking l l' => exact h.unlocking hk hc
  | reentering l =>
    refine h.takes hk (by rw [prog, hc]) (by rw [hc]; rfl) (by rw [hc]; rfl) rfl ?_ ?_
    · intro hs
      cases hs
    · intro _ _ hu
      cases hu
  | dropping l => exact h.dropping hk hc
  | checking l =>
    unfold prog
    rw [hc]
    dsimp only
    by_cases hunused : (S.shared.locks l).refCount = 0
    · rw [if_pos hunused]
      exact h.checking_unused hk hc hunused
    · rw [if_neg hunused]
      exact h.checking_used hk hc hunused
  | exiting => exact h.exiting hk hc
  | done =>
    unfold prog
    rw [hc]
    exact h.stay hk

end

section
variable {S : State}

theorem apart_spawn {tradeNo : String} {d : Caller} : Apart { tradeNo } d :=
  ⟨(fun h => by cases h), (fun _ h => by cases h)⟩

theorem Inv.spawn (h : Inv S) (tradeNo : String) : Inv (step S (.spawn tradeNo)) := by
  have hcount : ∀ l, users (step S (.spawn tradeNo)) l = users S l :=
    fun l => countP_spawn fun d : Caller => decide (d.phase.counted = some l)
  have hnew : Local S.shared { tradeNo } :=
    .plain (c := { tradeNo }) rfl (fun h => by cases h) (fun h => by cases h) fun _ h => by cases h
  refine ⟨h.asserted.spawn hnew fun d => ⟨apart_spawn, apart_spawn.symm⟩, fun l => ?_, fun t l hl => ?_, h.injective,
    h.fresh, h.running⟩
  · rw [hcount l]
    exact h.refCount l
  · obtain ⟨d, hd, hobject⟩ := h.entry t l hl
    exact ⟨d, List.mem_append_left _ hd, hobject⟩

theorem start_inv : Inv start where
  asserted := ⟨fun k c hc => (by cases hc), fun i j c d _ hc => (by cases hc)⟩
  refCount _ := rfl
  entry _ _ hl := by cases hl
  injective _ _ _ hl := by cases hl
  fresh _ _ := rfl
  running := rfl

theorem Inv.step (h : Inv S) (a : Act String Unit) : Inv (step S a) := by
  cases a with
  | spawn tradeNo => exact h.spawn tradeNo
  | sched k =>
    cases hk : S.procs[k]? with
    | none =>
      have hsame : OrderLock.step S (.sched k ()) = S := step_sched_none hk
      rw [hsame]
      exact h
    | some c => exact (h.keeps hk).inv h hk

theorem waits_or_holds_or_releases {phase : Phase} {l : Nat} (h : phase.object = some l) :
    phase.waits ∨ phase.held.isSome ∨ phase.releases := by
  cases phase with
  | counting | leaving | locking => exact .inl rfl
  | holding | unlocking => exact .inr (.inl rfl)
  | reentering | dropping | checking => exact .inr (.inr rfl)
  | _ => cases h

theorem Inv.safe (h : Inv S) : Safe S := by
  have hfound : ∀ c ∈ S.procs, Local S.shared c := by
    intro c hc
    obtain ⟨k, hk⟩ := List.mem_iff_getElem?.1 hc
    exact h.local_ hk
  refine ⟨fun i j c d hi hj ht hc hd => ?_, fun c hc l hl => ((hfound c hc).object l hl).1, fun c hc l l' hu => ?_,
    h.running, fun t l hl => ?_⟩
  · -- both have locked the mutex of the entry
    obtain ⟨l, hl⟩ := Option.isSome_iff_exists.1 hc
    obtain ⟨l', hl'⟩ := Option.isSome_iff_exists.1 hd
    have hcl := ((h.local_ hi).object l (Phase.object_of_held hl)).1
    have hdl := ((h.local_ hj).object l' (Phase.object_of_held hl')).1
    rw [ht] at hcl
    rw [Option.some.inj (hdl.symm.trans hcl)] at hl'
    by_contra hij
    exact (h.asserted.pair i j c d hij hi hj).2 l hl hl'
  · exact ⟨(hfound c hc).unlocking l l' hu, (hfound c hc).held l (by rw [hu]; rfl)⟩
  · obtain ⟨c, hc, ht, hobject⟩ := h.entry t l hl
    exact ⟨c, hc, ht, waits_or_holds_or_releases hobject⟩

/-- Any number of callers, in every order of their statements. -/
theorem orderLock_safe (acts : List (Act String Unit)) : Holds OrderLock.step Safe start acts :=
  Meets.holds (C := fun _ _ => True) (fun _ a h _ => h.step a) (fun _ h => h.safe) start_inv
    (meets_of_forall fun _ _ => trivial)

/-- A caller has released the mutex of its order, and the entry is still there. -/
theorem not_removed : ¬ ∀ acts, Removed (run OrderLock.step start acts) := by
  intro h
  have hlast := h (.spawn "A" :: List.replicate 8 (.sched 0 ())) (fun c hc => ?_) "A"
  · cases hlast
  · have hprocs : (run OrderLock.step start (.spawn "A" :: List.replicate 8 (.sched 0 ()))).procs =
        [⟨"A", .reentering 0⟩] := by decide
    rw [hprocs] at hc
    rw [List.mem_singleton.1 hc]
    exact ⟨rfl, rfl⟩

end

end NewApi.OrderLock

import NewApi.Task.Model
import Mathlib.Data.List.Perm.Basic

/-!
# A round of polling

A round reads the tasks that are not finished and groups them by platform, those of a platform by channel, and hands
each channel's upstream ids to the update function of the platform. What the function finds under an id is the task
that the platform's map holds under it, the last one read. So each task is handed once, as its own row, just where no
two tasks of a platform have the same upstream id (`handedOnce_iff`), whatever their channels are.
-/

namespace NewApi

/-- A task that is handed to an update function: the platform and the channel it is for, the upstream's id, and the
row under it. -/
structure Handed where
  platform : String
  channelId : Nat
  upstreamId : String
  row : Option Nat
deriving DecidableEq, Repr

namespace Process

/-- The tasks of a platform that are kept for the channels. -/
def found (tasks : List Task) : List Task := tasks.filter (·.getUpstreamTaskId ≠ "")

/-- `taskM`. -/
def taskMap (tasks : List Task) : List (String × Task) :=
  (found tasks).foldl (fun taskM t => assignTask t.getUpstreamTaskId t taskM) []

/-- `taskChannelM`. -/
def taskChannelMap (tasks : List Task) : List (Nat × List String) :=
  (groupOn Task.channelId (found tasks)).map fun g => (g.1, g.2.map Task.getUpstreamTaskId)

/-- What `DispatchPlatformUpdate` hands to `UpdateSunoTasks` or `UpdateVideoTasks`, and these to the update function of
each channel. The Midjourney platform has none here. -/
def dispatchPlatformUpdate (platform : String) (taskChannelM : List (Nat × List String))
    (taskM : List (String × Task)) : List Handed :=
  if platform = "mj" then []
  else taskChannelM.flatMap fun c =>
    c.2.map fun upstreamId => ⟨platform, c.1, upstreamId, (taskM.lookup upstreamId).map Task.id⟩

/-- What a round of `TaskPollingLoop` hands over, of the tasks it has read. -/
def pollRound (allTasks : List Task) : List Handed :=
  (groupOn Task.platform allTasks).flatMap fun g =>
    dispatchPlatformUpdate g.1 (taskChannelMap g.2) (taskMap g.2)

/-- What is handed over for a task: to the update function of its own platform and channel, once, as its own row. The
tasks of the Midjourney platform are polled elsewhere. -/
def ownHanded (t : Task) : List Handed :=
  if t.platform = "mj" then [] else [⟨t.platform, t.channelId, t.getUpstreamTaskId, some t.id⟩]

/-- A round hands every task with an upstream id over once, as its own row, and under its id there is no other row,
in whichever order the maps are ranged over. -/
def HandedOnce (allTasks : List Task) : Prop :=
  ∀ round : List Handed, round.Perm (pollRound allTasks) → ∀ t ∈ allTasks, t.getUpstreamTaskId ≠ "" →
    round.filter (fun h => h.row = some t.id) = ownHanded t ∧
      round.filter (fun h => h.platform = t.platform ∧ h.channelId = t.channelId ∧
        h.upstreamId = t.getUpstreamTaskId) = ownHanded t

/-- No two tasks of a platform have the same upstream id. -/
def UpstreamIdsDiffer (allTasks : List Task) : Prop :=
  ∀ t ∈ allTasks, ∀ t' ∈ allTasks, t.platform ≠ "mj" → t.platform = t'.platform →
    t.getUpstreamTaskId ≠ "" → t.getUpstreamTaskId = t'.getUpstreamTaskId → t = t'

/-! ## Maps of lists -/

section
variable {α β κ : Type} [DecidableEq κ]

theorem flatMap_filter_perm (key : α → κ) (l : List α) {ks : List κ} (hks : ks.Nodup) :
    (ks.flatMap fun k => l.filter (key · = k)).Perm (l.filter (key · ∈ ks)) := by
  induction ks with
  | nil => simp
  | cons k ks ih =>
    obtain ⟨hk, hks⟩ := List.nodup_cons.1 hks
    have hsplit := List.filter_append_perm (fun a => decide (key a = k)) (l.filter (key · ∈ k :: ks))
    have hhead : (l.filter (key · ∈ k :: ks)).filter (fun a => decide (key a = k)) = l.filter (key · = k) := by
      rw [List.filter_filter]
      refine List.filter_congr fun a _ => ?_
      by_cases h : key a = k <;> simp [h]
    have htail : (l.filter (key · ∈ k :: ks)).filter (fun a => !decide (key a = k)) = l.filter (key · ∈ ks) := by
      rw [List.filter_filter]
      refine List.filter_congr fun a _ => ?_
      by_cases h : key a = k
      · simp [h, hk]
      · simp [h]
    rw [hhead, htail] at hsplit
    rw [List.flatMap_cons]
    exact ((ih hks).append_left _).trans hsplit

theorem flatMap_groupOn_perm {key : α → κ} {l : List α} {f : κ × List α → List β} {g : α → List β}
    (h : ∀ k, (f (k, l.filter (key · = k))).Perm ((l.filter (key · = k)).flatMap g)) :
    ((groupOn key l).flatMap f).Perm (l.flatMap g) := by
  have hgroups : (groupOn key l).flatMap f = (l.map key).dedup.flatMap fun k => f (k, l.filter (key · = k)) := by
    rw [groupOn, List.flatMap_map]
  have hall : l.filter (key · ∈ (l.map key).dedup) = l := by
    rw [List.filter_eq_self]
    intro a ha
    simpa using ⟨a, ha, rfl⟩
  rw [hgroups]
  refine (List.Perm.flatMap_left _ fun k _ => h k).trans ?_
  rw [← List.flatMap_assoc]
  have hperm := flatMap_filter_perm key l (List.nodup_dedup (l.map key))
  rw [hall] at hperm
  exact hperm.flatMap_right g

end

section
variable {allTasks tasks : List Task} {t : Task} {u k : String}

theorem lookup_filter_ne (taskM : List (String × Task)) (h : k ≠ u) :
    (taskM.filter (·.1 ≠ u)).lookup k = taskM.lookup k := by
  induction taskM with
  | nil => rfl
  | cons a taskM ih =>
    obtain ⟨k', t⟩ := a
    rw [List.filter_cons]
    split
    next => rw [List.lookup_cons, List.lookup_cons, ih]
    next hk =>
      have hk' : k' = u := by simpa using hk
      rw [List.lookup_cons, hk', beq_false_of_ne h, ih]

theorem lookup_assignTask (taskM : List (String × Task)) :
    (assignTask u t taskM).lookup k = if k = u then some t else taskM.lookup k := by
  rw [assignTask, List.lookup_cons]
  split
  next h => rw [if_pos (beq_iff_eq.1 h)]
  next h =>
    have hne : k ≠ u := by simpa using h
    rw [if_neg hne, lookup_filter_ne taskM hne]

theorem lookup_taskMap (u : String) :
    (taskMap tasks).lookup u = (found tasks).reverse.find? (·.getUpstreamTaskId = u) := by
  have hfold : ∀ taskM, ((found tasks).foldl (fun taskM t => assignTask t.getUpstreamTaskId t taskM) taskM).lookup u =
      ((found tasks).reverse.find? (·.getUpstreamTaskId = u)).or (taskM.lookup u) := by
    induction found tasks with
    | nil => exact fun _ => rfl
    | cons t l ih =>
      intro taskM
      rw [List.foldl_cons, ih, lookup_assignTask, List.reverse_cons, List.find?_append]
      by_cases h : t.getUpstreamTaskId = u
      · simp [h]
      · simp [h, Ne.symm h]
  rw [taskMap, hfold, List.lookup_nil, Option.or_none]

/-- What is handed over for a task of a round: as the row that the platform's map has. -/
def handed (allTasks : List Task) (t : Task) : List Handed :=
  if t.platform = "mj" ∨ t.getUpstreamTaskId = "" then []
  else [⟨t.platform, t.channelId, t.getUpstreamTaskId,
    ((taskMap (allTasks.filter (·.platform = t.platform))).lookup t.getUpstreamTaskId).map Task.id⟩]

theorem flatMap_handed_found : (found tasks).flatMap (handed allTasks) = tasks.flatMap (handed allTasks) := by
  induction tasks with
  | nil => rfl
  | cons t tasks ih =>
    rw [List.flatMap_cons, ← ih, found, List.filter_cons]
    split
    next => rfl
    next h =>
      have hnone : handed allTasks t = [] := if_pos (.inr (by simpa using h))
      rw [hnone, List.nil_append]
      rfl

theorem dispatchPlatformUpdate_perm (platform : String) :
    (dispatchPlatformUpdate platform (taskChannelMap (allTasks.filter (·.platform = platform)))
      (taskMap (allTasks.filter (·.platform = platform)))).Perm
      ((allTasks.filter (·.platform = platform)).flatMap (handed allTasks)) := by
  have hplatform : ∀ t ∈ allTasks.filter (·.platform = platform), t.platform = platform := by
    intro t ht
    simpa using (List.mem_filter.1 ht).2
  rw [dispatchPlatformUpdate]
  split
  next hmj =>
    have hnil : (allTasks.filter (·.platform = platform)).flatMap (handed allTasks) = [] :=
      List.flatMap_eq_nil_iff.2 fun t ht => if_pos (.inl ((hplatform t ht).trans hmj))
    rw [hnil]
  next hmj =>
    rw [taskChannelMap, List.flatMap_map, ← flatMap_handed_found]
    refine flatMap_groupOn_perm fun channelId => ?_
    rw [List.map_map, List.map_eq_flatMap]
    refine List.Perm.of_eq (List.flatMap_congr fun t ht => ?_)
    obtain ⟨hfound, hchannel⟩ := List.mem_filter.1 ht
    obtain ⟨ht, hup⟩ := List.mem_filter.1 hfound
    have hp := hplatform t ht
    have hne : ¬ (t.platform = "mj" ∨ t.getUpstreamTaskId = "") := by
      rw [hp]
      simpa [hmj] using hup
    have hc : t.channelId = channelId := by simpa using hchannel
    rw [handed, if_neg hne, hp, hc]
    rfl

theorem pollRound_perm : (pollRound allTasks).Perm (allTasks.flatMap (handed allTasks)) :=
  flatMap_groupOn_perm fun _ => dispatchPlatformUpdate_perm _

end

/-! ## One task, one row -/

section
variable {allTasks : List Task} {t t' : Task}

/-- The row that a platform's map has under an upstream id. -/
def rowUnder (allTasks : List Task) (platform upstreamId : String) : Option Nat :=
  ((taskMap (allTasks.filter (·.platform = platform))).lookup upstreamId).map Task.id

theorem UpstreamIdsDiffer.rowUnder_eq (h : UpstreamIdsDiffer allTasks) (ht : t ∈ allTasks) (hmj : t.platform ≠ "mj")
    (hup : t.getUpstreamTaskId ≠ "") : rowUnder allTasks t.platform t.getUpstreamTaskId = some t.id := by
  have hmem : t ∈ (found (allTasks.filter (·.platform = t.platform))).reverse := by
    simp [found, ht, hup]
  rw [rowUnder, lookup_taskMap]
  cases hfind : (found (allTasks.filter (·.platform = t.platform))).reverse.find?
      (·.getUpstreamTaskId = t.getUpstreamTaskId) with
  | none => exact absurd (by simp) (List.find?_eq_none.1 hfind t hmem)
  | some t' =>
    have hsame : t'.getUpstreamTaskId = t.getUpstreamTaskId := by simpa using List.find?_some hfind
    have hmem' := List.mem_of_find?_eq_some hfind
    simp only [found, List.mem_reverse, List.mem_filter, decide_eq_true_eq] at hmem'
    rw [h t ht t' hmem'.1.1 hmj hmem'.1.2.symm hup hsame.symm]
    rfl

theorem UpstreamIdsDiffer.handed_eq (h : UpstreamIdsDiffer allTasks) (ht : t ∈ allTasks)
    (hup : t.getUpstreamTaskId ≠ "") : handed allTasks t = ownHanded t := by
  by_cases hmj : t.platform = "mj"
  · rw [handed, ownHanded, if_pos (.inl hmj), if_pos hmj]
  · have hrow := h.rowUnder_eq ht hmj hup
    rw [rowUnder] at hrow
    rw [handed, ownHanded, if_neg (by simp [hmj, hup]), if_neg hmj, hrow]

theorem flatMap_eq_of_unique {α β : Type} {l : List α} {f : α → List β} {a : α} (hnodup : l.Nodup) (ha : a ∈ l)
    (h : ∀ b ∈ l, b ≠ a → f b = []) : l.flatMap f = f a := by
  induction l with
  | nil => cases ha
  | cons b l ih =>
    obtain ⟨hb, hnodup⟩ := List.nodup_cons.1 hnodup
    rw [List.flatMap_cons]
    rcases List.mem_cons.1 ha with rfl | ha
    · have hnil : l.flatMap f = [] := List.flatMap_eq_nil_iff.2 fun c hc =>
        h c (List.mem_cons_of_mem _ hc) fun heq => hb (heq ▸ hc)
      rw [hnil, List.append_nil]
    · have hne : b ≠ a := fun heq => hb (heq ▸ ha)
      rw [h b List.mem_cons_self hne, List.nil_append]
      exact ih hnodup ha fun c hc => h c (List.mem_cons_of_mem _ hc)

theorem mem_ownHanded {x : Handed} : x ∈ ownHanded t ↔
    t.platform ≠ "mj" ∧ x = ⟨t.platform, t.channelId, t.getUpstreamTaskId, some t.id⟩ := by
  unfold ownHanded
  split
  next h => simp [h]
  next h => simp [h]

theorem UpstreamIdsDiffer.filter_eq (h : UpstreamIdsDiffer allTasks) (hnodup : (allTasks.map Task.id).Nodup)
    {round : List Handed} (hround : round.Perm (pollRound allTasks)) (ht : t ∈ allTasks)
    (hup : t.getUpstreamTaskId ≠ "") {p : Handed → Bool} (hown : ∀ x ∈ ownHanded t, p x)
    (hother : ∀ t' ∈ allTasks, t' ≠ t → t'.getUpstreamTaskId ≠ "" → ∀ x ∈ ownHanded t', ¬ p x) :
    round.filter p = ownHanded t := by
  have hflat : (allTasks.flatMap (handed allTasks)).filter p = ownHanded t := by
    rw [List.filter_flatMap, flatMap_eq_of_unique (List.Nodup.of_map _ hnodup) ht]
    · rw [h.handed_eq ht hup, List.filter_eq_self]
      exact hown
    · intro t' ht' hne
      rw [List.filter_eq_nil_iff]
      by_cases hnone : t'.getUpstreamTaskId = ""
      · rw [handed, if_pos (.inr hnone)]
        exact fun _ hx => by cases hx
      · rw [h.handed_eq ht' hnone]
        exact hother t' ht' hne hnone
  have hperm := (hround.trans pollRound_perm).filter p
  rw [hflat] at hperm
  by_cases hmj : t.platform = "mj"
  · rw [ownHanded, if_pos hmj] at hperm ⊢
    exact hperm.eq_nil
  · rw [ownHanded, if_neg hmj] at hperm ⊢
    exact List.perm_singleton.1 hperm

theorem UpstreamIdsDiffer.handedOnce (h : UpstreamIdsDiffer allTasks) (hnodup : (allTasks.map Task.id).Nodup) :
    HandedOnce allTasks := by
  intro round hround t ht hup
  constructor
  · refine h.filter_eq hnodup hround ht hup (fun x hx => ?_) fun t' ht' hne _ x hx => ?_
    · rw [(mem_ownHanded.1 hx).2]
      simp
    · rw [(mem_ownHanded.1 hx).2]
      simpa using fun hid => hne (List.inj_on_of_nodup_map hnodup ht' ht hid)
  · refine h.filter_eq hnodup hround ht hup (fun x hx => ?_) fun t' ht' hne hsome x hx => ?_
    · rw [(mem_ownHanded.1 hx).2]
      simp
    · obtain ⟨hmj, rfl⟩ := mem_ownHanded.1 hx
      simpa using fun hp _ hu => hne (h t' ht' t ht hmj hp hsome hu)

theorem HandedOnce.rowUnder_eq (h : HandedOnce allTasks) (ht : t ∈ allTasks) (hmj : t.platform ≠ "mj")
    (hup : t.getUpstreamTaskId ≠ "") : rowUnder allTasks t.platform t.getUpstreamTaskId = some t.id := by
  have hfilter := (h _ pollRound_perm.symm t ht hup).1
  rw [ownHanded, if_neg hmj] at hfilter
  have hmem : (⟨t.platform, t.channelId, t.getUpstreamTaskId, some t.id⟩ : Handed) ∈
      allTasks.flatMap (handed allTasks) := by
    refine List.mem_of_mem_filter (p := fun h => decide (h.row = some t.id)) ?_
    rw [hfilter]
    exact List.mem_singleton_self _
  obtain ⟨t', -, hmem⟩ := List.mem_flatMap.1 hmem
  rw [handed] at hmem
  split at hmem
  · cases hmem
  · have heq := List.mem_singleton.1 hmem
    injection heq with hp hc hu hrow
    rw [rowUnder, hp, hu]
    exact hrow.symm

/-- **Polling.** A round hands every task with an upstream id over once, as its own row, to the update function of its
platform and channel, just where no two tasks of a platform have one upstream id. -/
theorem handedOnce_iff (s : TaskStore) (limit : Nat) :
    HandedOnce (s.getAllUnFinishSyncTasks limit) ↔ UpstreamIdsDiffer (s.getAllUnFinishSyncTasks limit) := by
  have hnodup : ((s.getAllUnFinishSyncTasks limit).map Task.id).Nodup := by
    have hsub : (s.getAllUnFinishSyncTasks limit).Sublist s.tasks.rows :=
      (List.take_sublist _ _).trans List.filter_sublist
    exact s.tasks.nodup.sublist (hsub.map _)
  refine ⟨fun h t ht t' ht' hmj hp hup hu => ?_, fun h => h.handedOnce hnodup⟩
  have hrow := h.rowUnder_eq ht hmj hup
  have hrow' := h.rowUnder_eq ht' (hp ▸ hmj) (hu ▸ hup)
  rw [← hp, ← hu, hrow] at hrow'
  exact List.inj_on_of_nodup_map hnodup ht ht' (Option.some.inj hrow')

end

end Process

/-- Two tasks of one platform, on two channels, with one upstream id. -/
def sharedId : TaskStore where
  tasks := ⟨[{ id := 1, platform := "50", channelId := 7, upstreamTaskId := "u" },
    { id := 2, platform := "50", channelId := 8, upstreamTaskId := "u" }], by decide⟩

/-- Both channels are handed the second task, and the first is handed to none. -/
theorem sharedId_handed :
    Process.pollRound (sharedId.getAllUnFinishSyncTasks 1000) = [⟨"50", 7, "u", some 2⟩, ⟨"50", 8, "u", some 2⟩] ∧
      ¬ Process.HandedOnce (sharedId.getAllUnFinishSyncTasks 1000) := by
  have hround : Process.pollRound (sharedId.getAllUnFinishSyncTasks 1000) =
      [⟨"50", 7, "u", some 2⟩, ⟨"50", 8, "u", some 2⟩] := by decide
  refine ⟨hround, fun h => ?_⟩
  have hfirst := (h _ (List.Perm.refl _) { id := 1, platform := "50", channelId := 7, upstreamTaskId := "u" }
    (by decide) (by decide)).1
  rw [hround] at hfirst
  cases hfirst

end NewApi

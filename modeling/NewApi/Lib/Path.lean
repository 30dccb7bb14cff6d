import Mathlib.Data.List.Chain
import Mathlib.Data.List.Nodup

/-!
# Marked nodes on the paths of a relation

A path of a relation is a list in which each node is related to the next one. Where no path meets a node
twice, marking one more node keeps a bound on the marked nodes of every path just when it is kept on the
paths through that node.
-/

namespace NewApi.Path

section
variable {α : Type*} {R R' : α → α → Prop} {p q : α → Prop} [DecidablePred p] [DecidablePred q] {n : ℕ}

/-- No path has more than so many marked nodes. -/
def CappedBy (R : α → α → Prop) (n : ℕ) (p : α → Prop) [DecidablePred p] : Prop :=
  ∀ path : List α, path.IsChain R → path.countP (fun a => p a) ≤ n

/-- No path meets a node twice. -/
def Acyclic (R : α → α → Prop) : Prop := ∀ path : List α, path.IsChain R → path.Nodup

/-- Where fewer nodes are marked, there are fewer on every path. -/
theorem CappedBy.mono (h : CappedBy R n p) (hqp : ∀ a, q a → p a) : CappedBy R n q := by
  intro path hpath
  refine Nat.le_trans (List.countP_mono_left fun a _ ha => ?_) (h path hpath)
  exact decide_eq_true (hqp a (of_decide_eq_true ha))

theorem cappedBy_of_forall_not (h : ∀ a, ¬ p a) : CappedBy R n p := by
  intro path _
  have hzero : path.countP (fun a => p a) = 0 :=
    List.countP_eq_zero.2 fun a _ ha => h a (of_decide_eq_true ha)
  rw [hzero]
  exact Nat.zero_le n

/-- Nodes are marked as before off a node. -/
theorem countP_eq_of_not_mem {u : α} {l : List α} (hq : ∀ a, q a ↔ p a ∨ a = u) (hu : u ∉ l) :
    l.countP (fun a => q a) = l.countP (fun a => p a) := by
  refine List.countP_congr fun a ha => ?_
  rw [decide_eq_true_eq, decide_eq_true_eq, hq]
  exact or_iff_left fun he => hu (he ▸ ha)

/-- Marking a node keeps the bound just when the paths through it have room for it. -/
theorem cappedBy_mark_iff {u : α} (hacyclic : Acyclic R) (h : CappedBy R n p)
    (hq : ∀ a, q a ↔ p a ∨ a = u) :
    CappedBy R n q ↔ ∀ below above, (below ++ u :: above).IsChain R →
      below.countP (fun a => p a) + above.countP (fun a => p a) < n := by
  have hcons : ∀ l : List α, (u :: l).countP (fun a => q a) = l.countP (fun a => q a) + 1 := fun l =>
    List.countP_cons_of_pos (decide_eq_true ((hq u).2 (.inr rfl)))
  constructor
  · intro hcapped below above hpath
    have hcount := hcapped _ hpath
    have hbelow : below.countP (fun a => p a) ≤ below.countP (fun a => q a) :=
      List.countP_mono_left fun a _ ha => decide_eq_true ((hq a).2 (.inl (of_decide_eq_true ha)))
    have habove : above.countP (fun a => p a) ≤ above.countP (fun a => q a) :=
      List.countP_mono_left fun a _ ha => decide_eq_true ((hq a).2 (.inl (of_decide_eq_true ha)))
    rw [List.countP_append, hcons above] at hcount
    omega
  · intro hroom path hpath
    by_cases hmem : u ∈ path
    · obtain ⟨below, above, rfl⟩ := List.append_of_mem hmem
      have hnodup := hacyclic _ hpath
      rw [List.nodup_append, List.nodup_cons] at hnodup
      obtain ⟨-, ⟨habove, -⟩, hdisjoint⟩ := hnodup
      have hbelow : u ∉ below := fun hu => hdisjoint u hu u List.mem_cons_self rfl
      have hcount := hroom below above hpath
      rw [List.countP_append, hcons above,
        countP_eq_of_not_mem hq hbelow, countP_eq_of_not_mem hq habove]
      omega
    · rw [countP_eq_of_not_mem hq hmem]
      exact h path hpath

/-- A relation that goes down is acyclic. -/
theorem acyclic_of_lt [Preorder α] (h : ∀ a b, R a b → b < a) : Acyclic R := by
  intro path hpath
  have hdown : path.IsChain (· > ·) := hpath.imp fun a b hab => h a b hab
  exact (List.isChain_iff_pairwise.1 hdown).imp fun hab => (ne_of_lt hab).symm

end

end NewApi.Path

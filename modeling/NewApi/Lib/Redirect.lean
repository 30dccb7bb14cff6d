import Mathlib.Logic.Relation

/-!
# Following redirections

A partial function redirects a node to another one, or leaves it where it is. From each node there is one chain of
nodes: it ends where a node is not redirected to another one (`EndsAt`), or runs into a cycle (`Cycles`). It has one end
at most, and not both an end and a cycle.
-/

namespace NewApi.Redirect

open Relation

section
variable {α : Type*} {next : α → Option α} {x y z : α}

/-- A node is redirected to another one. -/
def Leads (next : α → Option α) (x y : α) : Prop := next x = some y ∧ x ≠ y

/-- The chain of a node ends at one that is not redirected to another one. -/
def EndsAt (next : α → Option α) (x y : α) : Prop := ReflTransGen (Leads next) x y ∧ ∀ z, ¬ Leads next y z

/-- The chain of a node runs into a cycle. -/
def Cycles (next : α → Option α) (x : α) : Prop := ∃ y, ReflTransGen (Leads next) x y ∧ TransGen (Leads next) y y

theorem rightUnique_leads : Relator.RightUnique (Leads next) := fun _ _ _ h h' => Option.some.inj (h.1.symm.trans h'.1)

theorem EndsAt.head (h : Leads next x y) (hend : EndsAt next y z) : EndsAt next x z :=
  ⟨hend.1.head h, hend.2⟩

theorem Cycles.head (h : Leads next x y) : Cycles next y → Cycles next x
  | ⟨z, hreach, hcycle⟩ => ⟨z, hreach.head h, hcycle⟩

/-- A node that is reached again from where it leads is on a cycle. -/
theorem Cycles.of_back (h : Leads next x y) (hback : ReflTransGen (Leads next) y x) : Cycles next x :=
  ⟨x, .refl, TransGen.head' h hback⟩

/-- From an end there is nowhere to go. -/
theorem eq_of_reflTransGen (hend : ∀ z, ¬ Leads next x z) (h : ReflTransGen (Leads next) x y) : x = y := by
  rcases h.cases_head with heq | ⟨z, hz, -⟩
  · exact heq
  · exact absurd hz (hend z)

/-- A chain has one end. -/
theorem EndsAt.unique (h : EndsAt next x y) (h' : EndsAt next x z) : y = z := by
  rcases h.1.total_of_right_unique rightUnique_leads h'.1 with hyz | hzy
  · exact eq_of_reflTransGen h.2 hyz
  · exact (eq_of_reflTransGen h'.2 hzy).symm

/-- From a cycle one only gets to the cycle. -/
theorem transGen_of_cycle (hcycle : TransGen (Leads next) x x) (h : ReflTransGen (Leads next) x y) :
    TransGen (Leads next) y x := by
  induction h with
  | refl => exact hcycle
  | tail _ hstep ih =>
    obtain ⟨w, hw, hrest⟩ := TransGen.head'_iff.1 ih
    obtain rfl := rightUnique_leads hstep hw
    exact (reflTransGen_iff_eq_or_transGen.1 hrest).elim (fun heq => heq ▸ hcycle) id

/-- A chain that ends does not run into a cycle. -/
theorem EndsAt.not_cycles (h : EndsAt next x y) : ¬ Cycles next x := by
  rintro ⟨z, hreach, hcycle⟩
  rcases h.1.total_of_right_unique rightUnique_leads hreach with hyz | hzy
  · obtain rfl := eq_of_reflTransGen h.2 hyz
    obtain ⟨w, hw, -⟩ := TransGen.head'_iff.1 hcycle
    exact h.2 w hw
  · obtain ⟨w, hw, -⟩ := TransGen.head'_iff.1 (transGen_of_cycle hcycle hzy)
    exact h.2 w hw

end

end NewApi.Redirect

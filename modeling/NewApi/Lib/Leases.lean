import Mathlib.Data.List.Basic

/-!
# Leases in a trace

A program acquires and releases leases on named things, and some of its actions need certain leases to be held.
`Kept` says of a trace, from what is held at its beginning, that each action has the leases that it needs, that only
what is held is released, and that nothing is held at the end: each lease that is acquired is released once.
-/

namespace NewApi.Leases

/-- What an event of a trace does with the leases on things of type `κ`. -/
inductive Use (κ : Type*)
  | acquire (k : κ)
  | release (k : κ)
  | needs (ks : List κ)

section
variable {ε κ : Type*} [DecidableEq κ] (use : ε → Use κ)

/-- The trace keeps to the leases, where `held` are held before it. -/
def Kept : List κ → List ε → Prop
  | held, [] => held = []
  | held, e :: l =>
    match use e with
    | .acquire k => Kept (k :: held) l
    | .release k => k ∈ held ∧ Kept (held.erase k) l
    | .needs ks => (∀ k ∈ ks, k ∈ held) ∧ Kept held l

variable {use} {held ks : List κ} {k : κ} {e : ε} {l : List ε}

theorem kept_acquire (h : use e = .acquire k) : Kept use held (e :: l) ↔ Kept use (k :: held) l := by
  rw [Kept, h]

theorem kept_release (h : use e = .release k) : Kept use held (e :: l) ↔ k ∈ held ∧ Kept use (held.erase k) l := by
  rw [Kept, h]

theorem kept_needs (h : use e = .needs ks) : Kept use held (e :: l) ↔ (∀ k ∈ ks, k ∈ held) ∧ Kept use held l := by
  rw [Kept, h]

instance decidableKept : (held : List κ) → (l : List ε) → Decidable (Kept use held l)
  | held, [] => inferInstanceAs (Decidable (held = []))
  | held, e :: l =>
    have : ∀ held, Decidable (Kept use held l) := fun _ => decidableKept _ l
    match huse : use e with
    | .acquire _ => decidable_of_iff _ (kept_acquire huse).symm
    | .release _ => decidable_of_iff _ (kept_release huse).symm
    | .needs _ => decidable_of_iff _ (kept_needs huse).symm

/-- An event that needs nothing. -/
theorem kept_free (h : use e = .needs []) : Kept use held (e :: l) ↔ Kept use held l := by
  rw [kept_needs h]
  exact and_iff_right fun k hk => by cases hk

/-- What is held is released. -/
theorem Kept.exists_release (h : Kept use held l) (hk : k ∈ held) : ∃ e ∈ l, use e = .release k := by
  induction l generalizing held with
  | nil =>
    rw [show held = [] from h] at hk
    cases hk
  | cons e l ih =>
    cases huse : use e with
    | acquire k' =>
      obtain ⟨e', he', hrelease⟩ := ih ((kept_acquire huse).1 h) (List.mem_cons_of_mem _ hk)
      exact ⟨e', List.mem_cons_of_mem _ he', hrelease⟩
    | release k' =>
      by_cases hkk' : k = k'
      · rw [hkk']
        exact ⟨e, List.mem_cons_self, huse⟩
      · obtain ⟨e', he', hrelease⟩ := ih ((kept_release huse).1 h).2 ((List.mem_erase_of_ne hkk').2 hk)
        exact ⟨e', List.mem_cons_of_mem _ he', hrelease⟩
    | needs ks =>
      obtain ⟨e', he', hrelease⟩ := ih ((kept_needs huse).1 h).2 hk
      exact ⟨e', List.mem_cons_of_mem _ he', hrelease⟩

/-- What a trace does not release cannot be held before it. -/
theorem not_kept_of_mem (hk : k ∈ held) (h : ∀ e ∈ l, use e ≠ .release k) : ¬ Kept use held l := by
  intro hkept
  obtain ⟨e, he, hrelease⟩ := hkept.exists_release hk
  exact h e he hrelease

end

end NewApi.Leases

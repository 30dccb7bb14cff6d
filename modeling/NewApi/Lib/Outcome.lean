import NewApi.Lib.Pieces

/-!
# How computations end

A computation that can fail ends with a result or with an error. `Ends P E` says with which ones; it is proved step by
step (`Ends.bind`), and over a list element by element (`Ends.mapM`, `Ends.foldlM`).
-/

namespace NewApi

universe u

section
variable {α β : Type u} {γ ε : Type*} {P : α → Prop} {E : ε → Prop}

/-- The result satisfies `P`, and an error `E`. -/
def Ends (P : α → Prop) (E : ε → Prop) : Except ε α → Prop
  | .ok a => P a
  | .error e => E e

namespace Ends

theorem of_ok {x : Except ε α} {a : α} (h : Ends P E x) (hx : x = .ok a) : P a := by
  subst hx
  exact h

theorem of_error {x : Except ε α} {e : ε} (h : Ends P E x) (hx : x = .error e) : E e := by
  subst hx
  exact h

theorem bind {Q : β → Prop} {x : Except ε α} {f : α → Except ε β} (h : Ends P E x) (hf : ∀ a, P a → Ends Q E (f a)) :
    Ends Q E (x >>= f) := by
  cases x with
  | ok a => exact hf a h
  | error e => exact h

/-- Each element of a list has a result. -/
theorem mapM {R : γ → α → Prop} {f : γ → Except ε α} {l : List γ} (h : ∀ a ∈ l, Ends (R a) E (f a)) :
    Ends (List.Forall₂ R l) E (l.mapM f) := by
  induction l with
  | nil => exact List.Forall₂.nil
  | cons a l ih =>
    rw [List.mapM_cons]
    refine (h a List.mem_cons_self).bind fun b hb => ?_
    refine (ih fun c hc => h c (List.mem_cons_of_mem _ hc)).bind fun r hr => ?_
    exact List.Forall₂.cons hb hr

/-- What each turn of a loop keeps of the elements before it and the state holds behind the loop. -/
theorem foldlM {I : List γ → α → Prop} {f : α → γ → Except ε α}
    (hstep : ∀ pre a s, I pre s → Ends (I (pre ++ [a])) E (f s a)) {pre l : List γ} {s : α} (h : I pre s) :
    Ends (I (pre ++ l)) E (l.foldlM f s) := by
  induction l generalizing pre s with
  | nil =>
    rw [List.append_nil]
    exact h
  | cons a l ih =>
    rw [List.foldlM_cons]
    refine (hstep pre a s h).bind fun s' hs' => ?_
    rw [← List.singleton_append, ← List.append_assoc]
    exact ih hs'

end Ends

end

end NewApi

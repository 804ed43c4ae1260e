import Mathlib.Algebra.GroupWithZero.Nat
import Mathlib.Data.List.Basic

/-! Labelled transition systems, and their finite runs. -/

namespace Lts

variable {S E : Type} {step : S → E → S → Prop}

/-- The labels lead from one state to the other. -/
inductive Run (step : S → E → S → Prop) : S → List E → S → Prop where
  | nil (s : S) : Run step s [] s
  | cons {s t u : S} {e : E} {es : List E} (h : step s e t) (hrest : Run step t es u) :
      Run step s (e::es) u

theorem Run.single {s t : S} {e : E} (h : step s e t) : Run step s [e] t := .cons h (.nil t)

theorem Run.append {s t u : S} {es es' : List E} (h : Run step s es t) (h' : Run step t es' u) :
    Run step s (es ++ es') u := by
  induction h with
  | nil => exact h'
  | cons hstep _ ih => exact .cons hstep (ih h')

theorem Run.mono {step' : S → E → S → Prop} {s t : S} {es : List E} (h : Run step s es t)
    (hstep : ∀ s e t, step s e t → step' s e t) : Run step' s es t := by
  induction h with
  | nil s => exact .nil s
  | cons hfirst _ ih => exact .cons (hstep _ _ _ hfirst) ih

/-- A run passes through a state between any two labels. -/
theorem Run.split {s u : S} {es es' : List E} (h : Run step s (es ++ es') u) :
    ∃ t, Run step s es t ∧ Run step t es' u := by
  induction es generalizing s with
  | nil => exact ⟨s,.nil s,h⟩
  | cons e es ih =>
    cases h with
    | cons hstep hrest =>
      obtain ⟨t,hfirst,hlast⟩ := ih hrest
      exact ⟨t,.cons hstep hfirst,hlast⟩

/-- What is read anywhere in a run is a step between what comes before it and what comes after. -/
theorem Run.around {s u : S} {es es' : List E} {e : E} (h : Run step s (es ++ e::es') u) :
    ∃ t t', Run step s es t ∧ step t e t' ∧ Run step t' es' u := by
  obtain ⟨t,hfirst,hlast⟩ := h.split
  cases hlast with
  | cons hstep hrest => exact ⟨t,_,hfirst,hstep,hrest⟩

/-- In particular it is a step from the state the labels before it lead to. -/
theorem Run.at {s u : S} {es es' : List E} {e : E} (h : Run step s (es ++ e::es') u) :
    ∃ t t', Run step s es t ∧ step t e t' := by
  obtain ⟨t,t',hfirst,hstep,_⟩ := h.around
  exact ⟨t,t',hfirst,hstep⟩

/-- An assertion about the state and the labels so far that every step keeps. -/
theorem Run.invariant {s t : S} {es : List E} {I : List E → S → Prop} (h : Run step s es t)
    (h0 : I [] s) (hstep : ∀ es s e t, I es s → step s e t → I (es ++ [e]) t) : I es t := by
  have hgo : ∀ done, I done s → I (done ++ es) t := by
    clear h0
    induction h with
    | nil s =>
      intro done hI
      rwa [List.append_nil]
    | @cons s t u e es hfirst _ ih =>
      intro done hI
      have hnext := ih (done ++ [e]) (hstep done s e t hI hfirst)
      rwa [List.append_assoc] at hnext
  exact hgo [] h0

/-- Amortised counting: every step pays for its label out of what the state has saved. -/
theorem Run.sum_le (cost : E → Nat) (saved : S → Nat) {s t : S} {es : List E}
    (h : Run step s es t) (hstep : ∀ s e t, step s e t → cost e + saved t ≤ saved s) :
    (es.map cost).sum + saved t ≤ saved s := by
  induction h with
  | nil s => exact Nat.le_of_eq (Nat.zero_add (saved s))
  | cons hfirst _ ih =>
    have hpaid := hstep _ _ _ hfirst
    rw [List.map_cons,List.sum_cons]
    omega

end Lts

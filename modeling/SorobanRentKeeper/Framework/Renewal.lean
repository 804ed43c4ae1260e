import Mathlib.Algebra.Order.Group.Defs
import Mathlib.Algebra.Order.Group.Unbundled.Basic
import Mathlib.Order.Monotone.Basic

namespace Renewal

section Visit

variable {α : Type} [LinearOrder α]

/-- One visit to something with `r` time left: if no more than `horizon` is left it is renewed
to `target`, and never shortened. -/
def visit (horizon target r : α) : α := if r ≤ horizon then max r target else r

/-- What a visit leaves is due again exactly when it was due and the target does not clear
the horizon. -/
theorem visit_due_iff (horizon target r : α) :
    visit horizon target r ≤ horizon ↔ r ≤ horizon ∧ target ≤ horizon := by
  unfold visit
  split_ifs with hr
  · rw [max_le_iff]
  · constructor
    · intro h; exact absurd h hr
    · intro h; exact absurd h.1 hr

theorem visit_of_target_le (horizon target r : α) (ht : target ≤ horizon) :
    visit horizon target r = max r target := by
  unfold visit
  split_ifs with hr
  · rfl
  · exact (max_eq_left (ht.trans (not_le.mp hr).le)).symm

theorem lt_visit (horizon target r gap : α) (hh : gap < horizon) (ht : gap < target) :
    gap < visit horizon target r := by
  unfold visit
  split_ifs with hr
  · exact lt_of_lt_of_le ht (le_max_right _ _)
  · exact hh.trans (not_le.mp hr)

theorem map_visit {β : Type} [LinearOrder β] (f : α → β) (hf : StrictMono f)
    (horizon target r : α) :
    f (visit horizon target r) = visit (f horizon) (f target) (f r) := by
  unfold visit
  by_cases hr : r ≤ horizon
  · rw [if_pos hr,if_pos (hf.le_iff_le.mpr hr),hf.monotone.map_max]
  · rw [if_neg hr,if_neg (fun h => hr (hf.le_iff_le.mp h))]

end Visit

variable {α : Type} [AddCommGroup α] [LinearOrder α] [IsOrderedAddMonoid α]

/-- Visits `gap i` apart keep something alive if every gap is below the horizon and the target.
Only what is still alive is renewed, and others may renew it too. -/
theorem pos_of_visits (horizon target : α) (left gap : ℕ → α) (n : ℕ) (h0 : 0 < left 0)
    (hnext : ∀ i < n, 0 < left i → visit horizon target (left i) - gap i ≤ left (i + 1))
    (hgap : ∀ i < n, gap i < horizon ∧ gap i < target) : ∀ i ≤ n, 0 < left i := by
  intro i
  induction i with
  | zero => intro _; exact h0
  | succ i ih =>
    intro hi
    have halive : 0 < left i := ih (Nat.le_of_succ_le hi)
    obtain ⟨hh,ht⟩ := hgap i hi
    have hpos : 0 < visit horizon target (left i) - gap i :=
      sub_pos.mpr (lt_visit horizon target (left i) (gap i) hh ht)
    exact lt_of_lt_of_le hpos (hnext i hi halive)

end Renewal

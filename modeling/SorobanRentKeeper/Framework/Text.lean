import Mathlib.Data.List.DropRight
import Mathlib.Data.List.Infix

/-! Where a pattern sits in a text, and what is left of a text stripped at both ends. -/

namespace Text

variable {α : Type*}

section Strip

variable {p : α → Bool} {core cs : List α}

def strip (p : α → Bool) (cs : List α) : List α := (cs.dropWhile p).rdropWhile p

/-- Nothing but `p` on either side of the core. -/
def Surrounded (p : α → Bool) (core cs : List α) : Prop :=
  ∃ before after, cs = before ++ core ++ after ∧ (∀ c ∈ before, p c) ∧ ∀ c ∈ after, p c

theorem surrounded_strip (p : α → Bool) (cs : List α) : Surrounded p (strip p cs) cs := by
  refine ⟨cs.takeWhile p,(cs.dropWhile p).rtakeWhile p,?_,?_,?_⟩
  · rw [strip,List.append_assoc,List.rdropWhile_append_rtakeWhile,
      List.takeWhile_append_dropWhile]
  · exact fun c hc => List.mem_takeWhile_imp hc
  · exact fun c hc => List.mem_rtakeWhile_imp hc

theorem dropWhile_append_of_not (hcore : ∀ c ∈ core, p c = false) (hne : core ≠ [])
    (after : List α) : (core ++ after).dropWhile p = core ++ after := by
  obtain ⟨c,cs,rfl⟩ := List.exists_cons_of_ne_nil hne
  rw [List.cons_append,List.dropWhile_cons_of_neg]
  rw [hcore c (by simp)]
  exact Bool.false_ne_true

theorem strip_of_surrounded (hcore : ∀ c ∈ core, p c = false) (hne : core ≠ [])
    (h : Surrounded p core cs) : strip p cs = core := by
  obtain ⟨before,after,rfl,hbefore,hafter⟩ := h
  have hreverse : ∀ c ∈ core.reverse, p c = false := fun c hc => hcore c (List.mem_reverse.mp hc)
  have hback := dropWhile_append_of_not hreverse (List.reverse_ne_nil_iff.mpr hne) []
  rw [List.append_nil] at hback
  have hafter' : ∀ c ∈ after.reverse, p c := fun c hc => hafter c (List.mem_reverse.mp hc)
  rw [strip,List.append_assoc,List.dropWhile_append_of_pos hbefore,
    dropWhile_append_of_not hcore hne,List.rdropWhile,List.reverse_append,
    List.dropWhile_append_of_pos hafter',hback,List.reverse_reverse]

/-- Stripping gives a core free of `p` exactly when the core is what is surrounded. -/
theorem strip_eq_iff (hcore : ∀ c ∈ core, p c = false) (hne : core ≠ []) :
    strip p cs = core ↔ Surrounded p core cs := by
  constructor
  · rintro rfl
    exact surrounded_strip p cs
  · exact strip_of_surrounded hcore hne

end Strip

section Pattern

variable {pattern before after : List α} {c : α}

theorem prefix_cons_iff_of_not_mem (h : c ∉ pattern) : pattern <+: c::after ↔ pattern = [] := by
  cases pattern with
  | nil => simp
  | cons d pattern =>
    rw [List.cons_prefix_cons]
    constructor
    · rintro ⟨rfl,_⟩
      exact absurd List.mem_cons_self h
    · exact nofun

/-- A pattern does not reach across a character it lacks. -/
theorem infix_append_cons_iff (h : c ∉ pattern) :
    pattern <:+: before ++ c::after ↔ pattern <:+: before ∨ pattern <:+: after := by
  constructor
  · intro hinfix
    rcases List.infix_append_iff.mp hinfix with hbefore|hafter|⟨front,back,rfl,hfront,hback⟩
    · exact .inl hbefore
    · rcases List.infix_cons_iff.mp hafter with hprefix|hafter
      · rw [(prefix_cons_iff_of_not_mem h).mp hprefix]
        exact .inl List.nil_infix
      · exact .inr hafter
    · have hnil := (prefix_cons_iff_of_not_mem fun hc => h (List.mem_append_right _ hc)).mp hback
      rw [hnil,List.append_nil]
      exact .inl hfront.isInfix
  · rintro (hbefore|hafter)
    · exact hbefore.trans (List.prefix_append _ _).isInfix
    · exact hafter.trans ((List.suffix_cons _ _).trans (List.suffix_append _ _)).isInfix

end Pattern

end Text

import Mathlib.Data.List.Basic
import Mathlib.Data.List.Nodup
import Mathlib.Data.List.Perm.Basic

/-! Updates of a keyed table, some of which give no value: what the last one says. -/

namespace LastWrite

variable {κ κ' ν : Type} [DecidableEq κ] [DecidableEq κ']

/-- The last value the updates give for a key. -/
def last (updates : List (κ × Option ν)) (k : κ) : Option ν :=
  ((updates.filter fun u => u.1 = k).filterMap Prod.snd).getLast?

@[simp] theorem last_nil (k : κ) : last ([] : List (κ × Option ν)) k = none := rfl

/-- A later value wins over the first update. -/
theorem last_cons (u : κ × Option ν) (updates : List (κ × Option ν)) (k : κ) :
    last (u::updates) k = (last updates k).or (if u.1 = k then u.2 else none) := by
  unfold last
  by_cases hk : u.1 = k
  · rw [List.filter_cons_of_pos (by simpa using hk),List.filterMap_cons,if_pos hk]
    cases u.2 with
    | none => simp
    | some v => simp [List.getLast?_cons,Option.or_some]
  · rw [List.filter_cons_of_neg (by simpa using hk),if_neg hk,Option.or_none]

/-- Nothing comes after the last update. -/
theorem last_concat (updates : List (κ × Option ν)) (k : κ) (v : ν) :
    last (updates ++ [(k,some v)]) k = some v := by
  unfold last
  simp [List.filter_append,List.filterMap_append]

/-- The value comes from an update of the key. -/
theorem mem_of_last {updates : List (κ × Option ν)} {k : κ} {v : ν}
    (h : last updates k = some v) : (k,some v) ∈ updates := by
  have hmem := List.mem_of_getLast? h
  obtain ⟨u,hu,hv⟩ := List.mem_filterMap.mp hmem
  obtain ⟨hu,hk⟩ := List.mem_filter.mp hu
  have hkey : u.1 = k := by simpa using hk
  have heq : u = (k,some v) := Prod.ext hkey hv
  rwa [heq] at hu

/-- There is none exactly when no update of the key gives one. -/
theorem last_eq_none_iff {updates : List (κ × Option ν)} {k : κ} :
    last updates k = none ↔ ∀ u ∈ updates, u.1 = k → u.2 = none := by
  unfold last
  rw [List.getLast?_eq_none_iff,List.filterMap_eq_nil_iff]
  constructor
  · intro h u hu hk
    exact h u (List.mem_filter.mpr ⟨hu,by simpa using hk⟩)
  · intro h u hu
    obtain ⟨hu,hk⟩ := List.mem_filter.mp hu
    exact h u hu (by simpa using hk)

/-- Updates that agree on a key say what each of them says. -/
theorem last_of_agree {updates : List (κ × Option ν)} {k : κ} {v : Option ν}
    (hagree : ∀ u ∈ updates, u.1 = k → u.2 = v) (hsome : v ≠ none → ∃ u ∈ updates, u.1 = k) :
    last updates k = v := by
  cases hv : v with
  | none =>
    rw [hv] at hagree
    exact last_eq_none_iff.mpr hagree
  | some x =>
    rw [hv] at hagree
    cases hlast : last updates k with
    | some y => exact (hagree _ (mem_of_last hlast) rfl)
    | none =>
      obtain ⟨u,hu,hk⟩ := hsome (by rw [hv]; nofun)
      have hnone := last_eq_none_iff.mp hlast u hu hk
      rw [hagree u hu hk] at hnone
      cases hnone

/-- The order of updates of distinct keys does not matter. -/
theorem last_perm {updates updates' : List (κ × Option ν)} (h : updates.Perm updates')
    (hnodup : (updates.map Prod.fst).Nodup) (k : κ) : last updates k = last updates' k := by
  symm
  refine last_of_agree ?_ ?_
  · intro u hu hk
    have hmem := h.mem_iff.mpr hu
    symm
    refine last_of_agree ?_ fun _ => ⟨u,hmem,hk⟩
    intro u' hu' hk'
    have heq : u' = u := List.inj_on_of_nodup_map hnodup hu' hmem (hk'.trans hk.symm)
    rw [heq]
  · intro hsome
    cases hlast : last updates k with
    | none => exact absurd hlast hsome
    | some v => exact ⟨_,h.mem_iff.mp (mem_of_last hlast),rfl⟩

/-- Keys may be renamed, if the renaming confuses none of them with the one looked up. -/
theorem last_map {updates : List (κ × Option ν)} {f : κ → κ'} {k : κ}
    (h : ∀ u ∈ updates, f u.1 = f k → u.1 = k) :
    last (updates.map fun u => (f u.1,u.2)) (f k) = last updates k := by
  induction updates with
  | nil => rfl
  | cons u updates ih =>
    obtain ⟨hu,hrest⟩ := List.forall_mem_cons.mp h
    rw [List.map_cons,last_cons,last_cons,ih hrest]
    by_cases hk : u.1 = k
    · rw [if_pos hk,if_pos (congrArg f hk)]
    · rw [if_neg hk,if_neg fun hf => hk (hu hf)]

end LastWrite

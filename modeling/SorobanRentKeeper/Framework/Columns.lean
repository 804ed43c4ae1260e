import Mathlib.Data.List.Basic

/-! Lines of padded columns, and the words that can be read back from them. -/

namespace Columns

variable {α : Type*} (blank : α)

/-- `{:<width}`. -/
def padEnd (width : Nat) (cs : List α) : List α :=
  cs ++ List.replicate (width - cs.length) blank

/-- `{:>width}`. -/
def padStart (width : Nat) (cs : List α) : List α :=
  List.replicate (width - cs.length) blank ++ cs

/-- Columns with one blank between them. -/
def line : List (List α) → List α
  | [] => []
  | [column] => column
  | column::columns => column ++ blank::line columns

theorem mem_padEnd {width : Nat} {cs : List α} {c : α} (h : c ∈ padEnd blank width cs) :
    c = blank ∨ c ∈ cs := by
  rcases List.mem_append.mp h with hcs|hpad
  · exact .inr hcs
  · exact .inl (List.eq_of_mem_replicate hpad)

theorem mem_padStart {width : Nat} {cs : List α} {c : α} (h : c ∈ padStart blank width cs) :
    c = blank ∨ c ∈ cs := by
  rcases List.mem_append.mp h with hpad|hcs
  · exact .inl (List.eq_of_mem_replicate hpad)
  · exact .inr hcs

/-- A line is made of its columns and of blanks. -/
theorem mem_line {columns : List (List α)} {c : α} (h : c ∈ line blank columns) :
    c = blank ∨ ∃ column ∈ columns, c ∈ column := by
  induction columns with
  | nil => cases h
  | cons column columns ih =>
    cases columns with
    | nil => exact .inr ⟨column,List.mem_cons_self,h⟩
    | cons next columns =>
      rw [line,List.mem_append,List.mem_cons] at h
      · rcases h with hhere|hblank|hlater
        · exact .inr ⟨column,List.mem_cons_self,hhere⟩
        · exact .inl hblank
        · rcases ih hlater with hblank|hmem
          · exact .inl hblank
          · obtain ⟨later,hin,hc⟩ := hmem
            exact .inr ⟨later,List.mem_cons_of_mem _ hin,hc⟩
      · simp

variable [DecidableEq α]

/-- A line taken apart at every blank. -/
def split : List α → List (List α)
  | [] => [[]]
  | c::cs =>
    if c = blank then []::split cs
    else match split cs with
      | [] => [[c]]
      | w::ws => (c::w)::ws

/-- The words of a line: what is between blanks, as far as there is anything. -/
def words (cs : List α) : List (List α) := (split blank cs).filter fun w => !w.isEmpty

theorem split_ne_nil (cs : List α) : split blank cs ≠ [] := by
  cases cs with
  | nil => simp [split]
  | cons c cs =>
    unfold split
    split
    · simp
    · split <;> simp

theorem split_append (before after : List α) :
    split blank (before ++ blank::after) = split blank before ++ split blank after := by
  induction before with
  | nil => simp [split]
  | cons c before ih =>
    rw [List.cons_append,split,split,ih]
    split
    · rfl
    · cases hsplit : split blank before with
      | nil => exact absurd hsplit (split_ne_nil blank before)
      | cons w ws => rfl

theorem split_of_not_mem {cs : List α} (h : blank ∉ cs) : split blank cs = [cs] := by
  induction cs with
  | nil => rfl
  | cons c cs ih =>
    rw [List.mem_cons,not_or] at h
    rw [split,if_neg (Ne.symm h.1),ih h.2]

/-- Words do not reach across a blank. -/
theorem words_append (before after : List α) :
    words blank (before ++ blank::after) = words blank before ++ words blank after := by
  unfold words
  rw [split_append,List.filter_append]

@[simp] theorem words_nil : words blank ([] : List α) = [] := rfl

theorem words_cons_blank (cs : List α) : words blank (blank::cs) = words blank cs :=
  words_append blank [] cs

theorem words_of_not_mem {cs : List α} (h : blank ∉ cs) (hne : cs ≠ []) :
    words blank cs = [cs] := by
  unfold words
  rw [split_of_not_mem blank h,List.filter_singleton]
  cases cs with
  | nil => exact absurd rfl hne
  | cons c cs => rfl

theorem words_replicate_append (n : Nat) (cs : List α) :
    words blank (List.replicate n blank ++ cs) = words blank cs := by
  induction n with
  | zero => rfl
  | succ n ih => rw [List.replicate_succ,List.cons_append,words_cons_blank,ih]

/-- Padding adds no words. -/
theorem words_padStart (width : Nat) (cs : List α) :
    words blank (padStart blank width cs) = words blank cs :=
  words_replicate_append blank _ cs

theorem words_padEnd (width : Nat) (cs : List α) :
    words blank (padEnd blank width cs) = words blank cs := by
  unfold padEnd
  cases width - cs.length with
  | zero => rw [List.replicate_zero,List.append_nil]
  | succ n =>
    have hnone := words_replicate_append blank n []
    rw [List.append_nil,words_nil] at hnone
    rw [List.replicate_succ,words_append,hnone,List.append_nil]

/-- The words of a line are those of its columns. -/
theorem words_line (columns : List (List α)) :
    words blank (line blank columns) = columns.flatMap (words blank) := by
  induction columns with
  | nil => rfl
  | cons column columns ih =>
    cases columns with
    | nil => simp [line]
    | cons next columns =>
      rw [line,words_append,ih]
      · simp
      · simp

/-- A text of lines, each with its end, comes apart into these lines. -/
theorem split_text {rows : List (List α)} (h : ∀ row ∈ rows, blank ∉ row) :
    split blank (rows.flatMap fun row => row ++ [blank]) = rows ++ [[]] := by
  induction rows with
  | nil => rfl
  | cons row rows ih =>
    obtain ⟨hrow,hrows⟩ := List.forall_mem_cons.mp h
    rw [List.flatMap_cons,List.append_assoc,List.singleton_append,split_append,
      split_of_not_mem blank hrow,ih hrows]
    rfl

end Columns

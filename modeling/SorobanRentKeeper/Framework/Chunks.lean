import Mathlib.Data.List.Defs
import Mathlib.Tactic.SplitIfs

namespace Chunks

variable {α : Type}

private theorem go_flatten (n : Nat) (xs : List α) (acc : Array α) (out : Array (List α)) :
    (List.toChunks.go n xs acc out).flatten = out.toList.flatten ++ acc.toList ++ xs := by
  induction xs generalizing acc out with
  | nil => simp [List.toChunks.go]
  | cons x xs ih =>
    unfold List.toChunks.go
    split_ifs
    · rw [ih]; simp
    · rw [ih]; simp

/-- Chunking loses, repeats and reorders nothing. -/
theorem flatten_toChunks (n : Nat) (xs : List α) : (xs.toChunks n).flatten = xs := by
  cases xs with
  | nil => cases n <;> rfl
  | cons x xs =>
    cases n with
    | zero => simp [List.toChunks]
    | succ n => simp [List.toChunks,go_flatten]

private theorem go_length (n : Nat) (xs : List α) (acc : Array α) (out : Array (List α))
    (hpos : 0 < acc.size) (hle : acc.size ≤ n + 1) :
    (List.toChunks.go (n + 1) xs acc out).length =
      out.size + (acc.size + xs.length + n) / (n + 1) := by
  induction xs generalizing acc out with
  | nil =>
    have hone : (acc.size + n) / (n + 1) = 1 := by
      rw [Nat.div_eq_iff (by omega)]
      omega
    simp [List.toChunks.go,hone]
  | cons x xs ih =>
    unfold List.toChunks.go
    split_ifs with hfull
    · rw [ih _ _ (by simp) (by simp)]
      rw [beq_iff_eq] at hfull
      have hnext : acc.size + (x::xs).length + n = (1 + xs.length + n) + (n + 1) := by
        rw [hfull,List.length_cons]
        omega
      rw [hnext,Nat.add_div_right _ (by omega)]
      simp
      omega
    · rw [beq_iff_eq] at hfull
      rw [ih _ _ (by simp) (by rw [Array.size_push]; omega)]
      rw [Array.size_push,List.length_cons,Nat.add_right_comm acc.size 1,← Nat.add_assoc]

/-- There are no more chunks than it takes. -/
theorem length_toChunks (n : Nat) (xs : List α) :
    (xs.toChunks (n + 1)).length = (xs.length + n) / (n + 1) := by
  cases xs with
  | nil =>
    rw [List.length_nil,Nat.zero_add,Nat.div_eq_of_lt (Nat.lt_succ_self n)]
    rfl
  | cons x xs =>
    have hgo := go_length n xs #[x] #[] (by simp) (by simp)
    simp only [List.size_toArray,List.length_nil,List.length_singleton,Nat.zero_add] at hgo
    rw [List.length_cons,Nat.add_comm xs.length 1,← hgo]
    rfl

end Chunks

import SorobanRentKeeper.Daemon.Counters
import Mathlib.Algebra.GroupWithZero.Nat

namespace SorobanRentKeeper

open Program

variable {σ : Type}

def retryBaseDelayMs : UInt64 := 1000

/-- `RETRY_BASE_DELAY_MS * (1 << (attempt - 1))`. -/
def retryDelay (attempt : Nat) : UInt64 := retryBaseDelayMs * (1 <<< UInt64.ofNat (attempt - 1))

/-- The inner loop of `run_loop` as it is written, counting the failed attempts up, with the delays
slept so far. It has no bound of its own: `fuel` is how often it may go round. -/
def retryLoop (keeper : Keeper σ) : Nat → Nat → List UInt64 → World σ → Metrics →
    Option ((World σ × Option Metrics) × List UInt64)
  | 0,_,_,_,_ => none
  | fuel+1,attempt,slept,w,metrics =>
    match runCycle keeper w with
    | .ok report w => some ((w,some (metrics.cycleComplete report)),slept)
    | .error .panicked w => some ((w,none),slept)
    | .error (.failed err) w =>
      if retryAttempts ≤ attempt + 1 ∨ !isTransient err then
        some ((w,some (metrics.cycleFailed err)),slept)
      else retryLoop keeper fuel (attempt + 1) (slept ++ [retryDelay (attempt + 1)]) w metrics

/-- The delays there are room for. -/
def retryDelays : List UInt64 := (List.range (retryAttempts - 1)).map fun i => retryDelay (i + 1)

example : retryDelays = [1000,2000] := by decide

/-- `run_loop` with that inner loop. -/
def sleepingLoop (keeper : Keeper σ) (fuel : Nat) : Nat → World σ → Metrics →
    Option ((World σ × Option Metrics) × List UInt64)
  | 0,w,metrics => some ((w,some metrics),[])
  | n+1,w,metrics =>
    match sleepingLoop keeper fuel n w metrics with
    | some ((w,some metrics),slept) => retryLoop keeper fuel 0 slept w metrics
    | ended => ended

theorem drop_retryDelays {attempt : Nat} (h : attempt + 1 < retryAttempts) :
    retryDelays.drop attempt = retryDelay (attempt + 1)::retryDelays.drop (attempt + 1) := by
  have hlt : attempt < retryDelays.length := by
    simp only [retryDelays,List.length_map,List.length_range]
    omega
  rw [List.drop_eq_getElem_cons hlt]
  simp [retryDelays]

theorem attemptCalls_ne_nil (keeper : Keeper σ) {left : Nat} (h : 0 < left) (w : World σ) :
    0 < (attemptCalls keeper left w).length := by
  cases left with
  | zero => exact absurd h (Nat.lt_irrefl 0)
  | succ left => exact Nat.succ_pos _

/-- The loop ends, does what counting down does, and sleeps before each call but the first. -/
theorem retryLoop_eq (keeper : Keeper σ) {left fuel attempt : Nat} (hleft : 0 < left)
    (hsum : attempt + left = retryAttempts) (hfuel : left ≤ fuel) (slept : List UInt64)
    (w : World σ) (metrics : Metrics) : retryLoop keeper fuel attempt slept w metrics =
      some (attempts keeper left w metrics,
        slept ++ (retryDelays.drop attempt).take ((attemptCalls keeper left w).length - 1)) := by
  induction left generalizing fuel attempt slept w with
  | zero => exact absurd hleft (Nat.lt_irrefl 0)
  | succ left ih =>
    cases fuel with
    | zero => exact absurd hfuel (Nat.not_succ_le_zero left)
    | succ fuel =>
      unfold retryLoop attempts attemptCalls
      cases hrun : runCycle keeper w with
      | ok report t => simp
      | error fault t =>
        cases fault with
        | panicked => simp
        | failed err =>
          have hlast : retryAttempts ≤ attempt + 1 ↔ left = 0 := by omega
          simp only [hlast]
          by_cases hend : left = 0 ∨ (!isTransient err) = true
          · rw [if_pos hend,if_pos hend,if_pos hend]
            simp
          · rw [if_neg hend,if_neg hend,if_neg hend]
            have hpos : 0 < left := Nat.pos_of_ne_zero fun h => hend (.inl h)
            have hcalls := attemptCalls_ne_nil keeper hpos t
            have hdrop : retryDelays.drop attempt = _ := drop_retryDelays (by omega)
            rw [ih hpos (by omega) (by omega),List.append_assoc,hdrop,List.length_cons]
            generalize (attemptCalls keeper left t).length = calls at hcalls ⊢
            cases calls with
            | zero => exact absurd hcalls (Nat.lt_irrefl 0)
            | succ calls => rfl

/-- What a tick sleeps comes to three seconds at most. -/
theorem sum_take_retryDelays (k : Nat) :
    ((retryDelays.take k).map UInt64.toNat).sum ≤ 3000 := by
  have hsplit := congrArg (fun ds => (ds.map UInt64.toNat).sum)
    (List.take_append_drop k retryDelays)
  have htotal : (retryDelays.map UInt64.toNat).sum = 3000 := by decide
  simp only [List.map_append,List.sum_append,htotal] at hsplit
  omega

/-- The loop of `run_loop` as it is written comes round to an end in every tick, and is the loop
that counts the attempts left. Between the calls of a tick it sleeps, one second and then two: over
`n` ticks at most three seconds for each, one sleep for each call but the first of its tick. Only a
panic keeps it from beginning them all. -/
theorem sleepingLoop_refines (keeper : Keeper σ) (spare n : Nat) (w : World σ)
    (metrics : Metrics) : ∃ slept begun, sleepingLoop keeper (retryAttempts + spare) n w metrics =
        some (runLoop keeper n w metrics,slept) ∧
      (∀ delay ∈ slept, delay ∈ retryDelays) ∧ (slept.map UInt64.toNat).sum ≤ 3000 * n ∧
      (loopCalls keeper n w metrics).length = slept.length + begun ∧ begun ≤ n ∧
      ((runLoop keeper n w metrics).2.isSome = true → begun = n) := by
  induction n with
  | zero => exact ⟨[],0,rfl,by simp,by simp,by simp [loopCalls],Nat.le_refl 0,fun _ => rfl⟩
  | succ n ih =>
    obtain ⟨slept,begun,hloop,hdelays,hsum,hcount,hbegun,hall⟩ := ih
    unfold sleepingLoop loopCalls
    rw [hloop,runLoop_succ]
    generalize runLoop keeper n w metrics = r at hall
    obtain ⟨u,ended⟩ := r
    cases ended with
    | none =>
      refine ⟨slept,begun,rfl,hdelays,by omega,by simpa using hcount,by omega,?_⟩
      intro hended
      cases hended
    | some metrics =>
      have hpos : 0 < retryAttempts := by decide
      have hcalls := attemptCalls_ne_nil keeper hpos u
      have hbound := length_attemptCalls_le keeper retryAttempts u
      have hlen : retryDelays.length = retryAttempts - 1 := by decide
      have hn : begun = n := hall rfl
      refine ⟨_,begun + 1,retryLoop_eq keeper hpos (Nat.zero_add _) (Nat.le_add_right _ _) slept u
        metrics,?_,?_,?_,by omega,fun _ => by omega⟩
      · intro delay hdelay
        rcases List.mem_append.mp hdelay with hdelay|hdelay
        · exact hdelays delay hdelay
        · exact List.mem_of_mem_take hdelay
      · rw [List.map_append,List.sum_append,List.drop_zero]
        have htick := sum_take_retryDelays ((attemptCalls keeper retryAttempts u).length - 1)
        omega
      · simp only [List.length_append,List.drop_zero,List.length_take]
        omega

end SorobanRentKeeper

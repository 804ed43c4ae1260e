import SorobanRentKeeper.Daemon.CycleTrace

namespace SorobanRentKeeper

open Program

variable {σ : Type}

/-- A statement about the log and the cached number that looking, dropping the cache and every call
of `submit_plan` keep. -/
structure Kept (keeper : Keeper σ) (I : List Event → Option Int64 → Prop) : Prop where
  looked : ∀ D w d t, I D w.sequence → Looked (σ := σ) w d t → I (D ++ d) w.sequence
  dropped : ∀ D c, I D c → I D none
  submitted : ∀ D plan w r d t, I D w.sequence →
    Submit keeper (cycleBuilder keeper) plan w r d t → I (D ++ d) t.sequence

section Kept

variable {keeper : Keeper σ} {I : List Event → Option Int64 → Prop}

theorem Kept.step (h : Kept keeper I) {D d : List Event} {plan : ArchivalPlan} {w t : World σ}
    {r : Option KeeperError} (hI : I D w.sequence)
    (hstep : Step keeper (cycleBuilder keeper) plan w r d t) : I (D ++ d) t.sequence := by
  cases hstep with
  | accepted _ _ hs => exact h.submitted D plan w _ d t hI hs
  | failed err _ _ hs hbad => exact h.submitted D plan w _ d t hI hs
  | healed err d d' u _ hs hbad hs' =>
    have hfirst := h.dropped _ _ (h.submitted D plan w _ d u hI hs)
    rw [← List.append_assoc]
    exact h.submitted _ plan { u with sequence := none } _ d' t hfirst hs'
  | failedTwice err err' d d' u _ hs hbad hs' =>
    have hfirst := h.dropped _ _ (h.submitted D plan w _ d u hI hs)
    rw [← List.append_assoc]
    exact h.submitted _ plan { u with sequence := none } _ d' t hfirst hs'

theorem Kept.serves (h : Kept keeper I) {D d : List Event} {plans : List ArchivalPlan}
    {w t : World σ} (hI : I D w.sequence)
    (hserves : Serves keeper (cycleBuilder keeper) w plans d t) :
    I (D ++ d) t.sequence := by
  induction hserves with
  | nil =>
    rw [List.append_nil]
    exact hI
  | snoc done plan d d' t u _ hstep ih =>
    rw [← List.append_assoc]
    exact h.step ih hstep

theorem Kept.cycled (h : Kept keeper I) {D d : List Event} {w t : World σ}
    {r : Except (Fault KeeperError) CycleReport} (hI : I D w.sequence)
    (hcycle : Cycled keeper w r d t) : I (D ++ d) t.sequence := by
  cases hcycle with
  | unready fault _ _ hlook hwhy =>
    rw [hlook.sequence]
    exact h.looked D w d t hI hlook
  | stuck keys observations done plan rest err d d₁ d₂ t₁ u _ hkeys hlook hprep hserves hstep =>
    have hlooked := h.looked D w d t₁ hI hlook
    rw [← hlook.sequence] at hlooked
    have hserved := h.serves hlooked hserves
    rw [← List.append_assoc,← List.append_assoc]
    exact h.step hserved hstep
  | completed keys observations plans d d' t₁ _ hkeys hlook hprep hserves =>
    have hlooked := h.looked D w d t₁ hI hlook
    rw [← hlook.sequence] at hlooked
    rw [← List.append_assoc]
    exact h.serves hlooked hserves

end Kept

/-- Calls of `run_cycle`, one after the other, whatever becomes of each. -/
def cycles (keeper : Keeper σ) : Nat → World σ → World σ
  | 0,w => w
  | n+1,w => cycles keeper n (final (runCycle keeper w))

/-- Every run only appends to the log, and keeps what is kept. -/
theorem Kept.cycles {keeper : Keeper σ} {I : List Event → Option Int64 → Prop}
    (h : Kept keeper I) (n : Nat) (w : World σ) (D : List Event) (hI : I D w.sequence) :
    ∃ d, (cycles keeper n w).log = w.log ++ d ∧ I (D ++ d) (cycles keeper n w).sequence := by
  induction n generalizing w D with
  | zero =>
    exact ⟨[],by simp [SorobanRentKeeper.cycles],by simpa [SorobanRentKeeper.cycles] using hI⟩
  | succ n ih =>
    obtain ⟨d,hlog,hrun⟩ := (runCycle_cases keeper w).cases
    have hcycled : I (D ++ d) (final (runCycle keeper w)).sequence := by
      rcases hrun with ⟨report,t,hrun,hcycle⟩|⟨fault,t,hrun,hcycle⟩
      · rw [hrun]
        exact h.cycled hI hcycle
      · rw [hrun]
        exact h.cycled hI hcycle
    obtain ⟨d',hlog',hrest⟩ := ih (final (runCycle keeper w)) (D ++ d) hcycled
    refine ⟨d ++ d',?_,by rwa [← List.append_assoc]⟩
    rw [SorobanRentKeeper.cycles,hlog',hlog,List.append_assoc]

end SorobanRentKeeper

import SorobanRentKeeper.Daemon.Tick

namespace SorobanRentKeeper

open Program

variable {σ : Type}

/-- What a run appended to the log. -/
def appended (w t : World σ) : List Event := t.log.drop w.log.length

theorem appended_of_log {w t : World σ} {d : List Event} (h : t.log = w.log ++ d) :
    appended w t = d := by
  unfold appended
  rw [h,List.drop_left]

/-- The worlds in which the retry loop calls `run_cycle`. -/
def attemptCalls (keeper : Keeper σ) : Nat → World σ → List (World σ)
  | 0,_ => []
  | left+1,w => w::
    match runCycle keeper w with
    | .error (.failed err) t =>
      if left = 0 ∨ !isTransient err then [] else attemptCalls keeper left t
    | _ => []

/-- `n` ticks of `run_loop`; a panic ends them. -/
def runLoop (keeper : Keeper σ) : Nat → World σ → Metrics → World σ × Option Metrics
  | 0,w,metrics => (w,some metrics)
  | n+1,w,metrics =>
    match runLoop keeper n w metrics with
    | (w,some metrics) => tick keeper w metrics
    | (w,none) => (w,none)

theorem runLoop_succ (keeper : Keeper σ) (n : Nat) (w : World σ) (metrics : Metrics) :
    runLoop keeper (n + 1) w metrics =
      match runLoop keeper n w metrics with
      | (w,some metrics) => tick keeper w metrics
      | (w,none) => (w,none) := rfl

/-- The worlds in which `n` ticks call `run_cycle`. -/
def loopCalls (keeper : Keeper σ) : Nat → World σ → Metrics → List (World σ)
  | 0,_,_ => []
  | n+1,w,metrics => loopCalls keeper n w metrics ++
    match runLoop keeper n w metrics with
    | (w,some _) => attemptCalls keeper retryAttempts w
    | (_,none) => []

/-- The transactions accepted in a call that then failed. -/
def lostIn (keeper : Keeper σ) (w : World σ) : Nat :=
  match runCycle keeper w with
  | .ok _ _ => 0
  | .error _ t => (accepted (appended w t)).length

def lost (keeper : Keeper σ) (calls : List (World σ)) : Nat := (calls.map (lostIn keeper)).sum

theorem length_plans_le {crates : Crates} {planner : Planner}
    {observations : List (LedgerKey × EntryTtl)} {currentLedger : UInt32}
    {plans : List ArchivalPlan}
    (h : Planner.planExtendSplit crates planner observations currentLedger = .ok plans) :
    plans.length ≤ 2 := by
  have hlen := congrArg List.length (Planner.planExtendSplit_ok h).1
  rw [List.length_map] at hlen
  rw [hlen]
  exact List.length_filter_le _ _

/-- Every plan served has one transaction accepted. -/
theorem Serves.length_accepted {keeper : Keeper σ} {builder : TxBuilder} {w t : World σ}
    {plans : List ArchivalPlan} {d : List Event} (h : Serves keeper builder w plans d t) :
    (accepted d).length = plans.length := by
  obtain ⟨ds,hds,rfl⟩ := h.served
  exact (accepted_of_served hds).length_eq.symm

/-- A report counts what was accepted, which is two at most. -/
theorem runCycle_accepted {keeper : Keeper σ} {w t : World σ} {report : CycleReport}
    (h : runCycle keeper w = .ok report t) : ∃ d, t.log = w.log ++ d ∧
      (accepted d).length = report.transactions ∧ report.transactions ≤ 2 := by
  obtain ⟨d,hd,hcycle⟩ := (runCycle_cases keeper w).ok h
  refine ⟨d,hd,?_⟩
  cases hcycle with
  | completed keys observations plans d d' u _ hkeys hlook hprep hserves =>
    rw [accepted_append,hlook.quiet.accepted,List.nil_append]
    exact ⟨hserves.length_accepted,length_plans_le hprep.planned⟩

/-- A call that fails had at most one transaction accepted. -/
theorem lostIn_le (keeper : Keeper σ) (w : World σ) : lostIn keeper w ≤ 1 := by
  unfold lostIn
  cases hrun : runCycle keeper w with
  | ok report t => exact Nat.zero_le 1
  | error fault t =>
    obtain ⟨d,hd,hcycle⟩ := (runCycle_cases keeper w).error hrun
    simp only [appended_of_log hd]
    cases hcycle with
    | unready _ _ _ hlook hwhy =>
      rw [hlook.quiet.accepted]
      exact Nat.zero_le 1
    | stuck keys observations done plan rest err d d₁ d₂ t₁ u _ hkeys hlook hprep hserves hstep =>
      have hle := length_plans_le hprep.planned
      rw [List.length_append,List.length_cons] at hle
      rw [accepted_append,accepted_append,hlook.quiet.accepted,hstep.unserved.never,
        List.append_nil,List.nil_append,hserves.length_accepted]
      omega

theorem lost_append (keeper : Keeper σ) (calls calls' : List (World σ)) :
    lost keeper (calls ++ calls') = lost keeper calls + lost keeper calls' := by
  unfold lost
  rw [List.map_append,List.sum_append]

theorem lost_cons (keeper : Keeper σ) (w : World σ) (calls : List (World σ)) :
    lost keeper (w::calls) = lostIn keeper w + lost keeper calls := List.sum_cons

theorem lost_le (keeper : Keeper σ) (calls : List (World σ)) :
    lost keeper calls ≤ calls.length := by
  induction calls with
  | nil => exact Nat.le_refl 0
  | cons w calls ih =>
    have hle := lostIn_le keeper w
    rw [lost_cons,List.length_cons]
    omega

theorem length_attemptCalls_le (keeper : Keeper σ) (left : Nat) (w : World σ) :
    (attemptCalls keeper left w).length ≤ left := by
  induction left generalizing w with
  | zero => exact Nat.le_refl 0
  | succ left ih =>
    unfold attemptCalls
    rw [List.length_cons]
    split
    · split
      · exact Nat.succ_le_succ (Nat.zero_le left)
      · exact Nat.succ_le_succ (ih _)
    · exact Nat.succ_le_succ (Nat.zero_le left)

theorem counterOf_eq {count : Nat} (h : count ≤ 2) : counterOf count = UInt64.ofNat count := by
  unfold counterOf
  rw [if_pos (by omega)]

/-- What the counter of submissions misses in a tick is what its failed calls lost. -/
theorem attempts_counted (keeper : Keeper σ) (left : Nat) (w : World σ) (metrics : Metrics) :
    ∃ d, (attempts keeper left w metrics).1.log = w.log ++ d ∧
      ∀ metrics', (attempts keeper left w metrics).2 = some metrics' →
        metrics'.extendsSubmitted + UInt64.ofNat (lost keeper (attemptCalls keeper left w)) =
          metrics.extendsSubmitted + UInt64.ofNat (accepted d).length := by
  induction left generalizing w with
  | zero =>
    refine ⟨[],by simp [attempts],?_⟩
    intro metrics' hmetrics
    cases hmetrics
    rfl
  | succ left ih =>
    unfold attempts attemptCalls
    rw [lost_cons]
    unfold lostIn
    cases hrun : runCycle keeper w with
    | ok report t =>
      obtain ⟨d,hd,haccepted,hle⟩ := runCycle_accepted hrun
      refine ⟨d,hd,?_⟩
      intro metrics' hmetrics
      cases hmetrics
      have hcount := counterOf_eq hle
      simp only [Metrics.cycleComplete,hcount,haccepted,lost,List.map_nil,List.sum_nil]
      exact UInt64.add_zero _
    | error fault t =>
      obtain ⟨d,hd,_⟩ := (runCycle_traced keeper w).error hrun
      simp only [appended_of_log hd]
      cases fault with
      | panicked =>
        refine ⟨d,hd,?_⟩
        intro metrics' hmetrics
        cases hmetrics
      | failed err =>
        simp only
        split
        · refine ⟨d,hd,?_⟩
          intro metrics' hmetrics
          cases hmetrics
          have hsame : (metrics.cycleFailed err).extendsSubmitted = metrics.extendsSubmitted := by
            cases err <;> rfl
          rw [hsame]
          rfl
        · obtain ⟨d',hd',hcounted⟩ := ih t
          refine ⟨d ++ d',by rw [hd',hd,List.append_assoc],?_⟩
          intro metrics' hmetrics
          have hrest := hcounted metrics' hmetrics
          rw [accepted_append,List.length_append,UInt64.ofNat_add,UInt64.ofNat_add]
          calc
            metrics'.extendsSubmitted + (UInt64.ofNat (accepted d).length +
                UInt64.ofNat (lost keeper (attemptCalls keeper left t))) =
                UInt64.ofNat (accepted d).length + (metrics'.extendsSubmitted +
                  UInt64.ofNat (lost keeper (attemptCalls keeper left t))) := by ac_rfl
            _ = UInt64.ofNat (accepted d).length + (metrics.extendsSubmitted +
                  UInt64.ofNat (accepted d').length) := by rw [hrest]
            _ = metrics.extendsSubmitted + (UInt64.ofNat (accepted d).length +
                  UInt64.ofNat (accepted d').length) := by ac_rfl

/-- Rules that do not resolve end every call at once, in the same way. -/
theorem runCycle_of_unresolved {keeper : Keeper σ} {fault : Fault KeeperError}
    (h : resolveWatchKeys keeper.crates keeper.config = .error fault) (w : World σ) :
    runCycle keeper w = .error fault w := by
  unfold runCycle
  rw [h]
  rfl

theorem unresolved_of_panicked {keeper : Keeper σ} {w t : World σ}
    (h : runCycle keeper w = .error .panicked t) :
    resolveWatchKeys keeper.crates keeper.config = .error .panicked := by
  obtain ⟨d,_,hcycle⟩ := (runCycle_cases keeper w).error h
  cases hcycle with
  | unready _ _ _ hlook hwhy =>
    cases hwhy with
    | unresolved _ h _ => exact h

theorem unresolved_of_attempts {keeper : Keeper σ} {left : Nat} {w : World σ} {metrics : Metrics}
    (h : (attempts keeper left w metrics).2 = none) :
    resolveWatchKeys keeper.crates keeper.config = .error .panicked := by
  induction left generalizing w with
  | zero => cases h
  | succ left ih =>
    unfold attempts at h
    cases hrun : runCycle keeper w with
    | ok report t =>
      rw [hrun] at h
      cases h
    | error fault t =>
      rw [hrun] at h
      cases fault with
      | panicked => exact unresolved_of_panicked hrun
      | failed err =>
        simp only at h
        split at h
        · cases h
        · exact ih h

/-- A tick that panics does so in its first call, before anything is sent. -/
theorem lost_of_panicked {keeper : Keeper σ} {left : Nat} {w : World σ} {metrics : Metrics}
    (h : (attempts keeper left w metrics).2 = none) :
    lost keeper (attemptCalls keeper left w) = 0 := by
  have hrun := runCycle_of_unresolved (unresolved_of_attempts h) w
  cases left with
  | zero => cases h
  | succ left =>
    have hnone : accepted (appended w w) = [] := by
      rw [appended_of_log (List.append_nil w.log).symm]
      rfl
    simp only [attemptCalls,hrun,lost,List.map_cons,List.map_nil,List.sum_cons,List.sum_nil,lostIn,
      hnone,List.length_nil,Nat.add_zero]

/-- The same over any number of ticks. -/
theorem runLoop_counted (keeper : Keeper σ) (n : Nat) (w : World σ) :
    ∃ d, (runLoop keeper n w Metrics.new).1.log = w.log ++ d ∧
      ∀ metrics, (runLoop keeper n w Metrics.new).2 = some metrics →
        metrics.extendsSubmitted + UInt64.ofNat (lost keeper (loopCalls keeper n w Metrics.new)) =
          UInt64.ofNat (accepted d).length := by
  induction n with
  | zero =>
    refine ⟨[],by simp [runLoop],?_⟩
    intro metrics hmetrics
    cases hmetrics
    rfl
  | succ n ih =>
    obtain ⟨d,hd,hcounted⟩ := ih
    unfold runLoop loopCalls
    generalize loopCalls keeper n w Metrics.new = calls at hcounted ⊢
    generalize runLoop keeper n w Metrics.new = r at hd hcounted ⊢
    obtain ⟨u,ended⟩ := r
    cases ended with
    | none =>
      refine ⟨d,hd,?_⟩
      intro metrics hmetrics
      cases hmetrics
    | some metrics =>
      have hbefore := hcounted metrics rfl
      obtain ⟨d',hd',hafter⟩ := attempts_counted keeper retryAttempts u metrics
      refine ⟨d ++ d',?_,?_⟩
      · simp only [tick]
        rw [hd',hd,List.append_assoc]
      · intro metrics' hmetrics
        have hlast := hafter metrics' hmetrics
        rw [lost_append,accepted_append,List.length_append,UInt64.ofNat_add,UInt64.ofNat_add,
          ← hbefore]
        calc
          metrics'.extendsSubmitted + (UInt64.ofNat (lost keeper calls) +
              UInt64.ofNat (lost keeper (attemptCalls keeper retryAttempts u))) =
              UInt64.ofNat (lost keeper calls) + (metrics'.extendsSubmitted +
                UInt64.ofNat (lost keeper (attemptCalls keeper retryAttempts u))) := by ac_rfl
          _ = UInt64.ofNat (lost keeper calls) + (metrics.extendsSubmitted +
                UInt64.ofNat (accepted d').length) := by rw [hlast]
          _ = metrics.extendsSubmitted + UInt64.ofNat (lost keeper calls) +
                UInt64.ofNat (accepted d').length := by ac_rfl

/-- After `k` ticks the counter shows what the node has accepted in the run. -/
def CountsAccepted (keeper : Keeper σ) (w : World σ) (k : Nat) : Prop :=
  ∀ metrics, (runLoop keeper k w Metrics.new).2 = some metrics →
    metrics.extendsSubmitted =
      UInt64.ofNat (accepted (appended w (runLoop keeper k w Metrics.new).1)).length

/-- The call does not fail once a transaction of its own was accepted. -/
def Lossless (keeper : Keeper σ) (w : World σ) : Prop :=
  ∀ fault t, runCycle keeper w = .error fault t → accepted (appended w t) = []

theorem lostIn_eq_zero_iff (keeper : Keeper σ) (w : World σ) :
    lostIn keeper w = 0 ↔ Lossless keeper w := by
  unfold lostIn Lossless
  cases hrun : runCycle keeper w with
  | ok report t => simp
  | error fault t =>
    rw [List.length_eq_zero_iff]
    constructor
    · intro hnone fault' t' hsame
      cases hsame
      exact hnone
    · intro hall
      exact hall fault t rfl

theorem lost_eq_zero_iff (keeper : Keeper σ) (calls : List (World σ)) :
    lost keeper calls = 0 ↔ ∀ call ∈ calls, Lossless keeper call := by
  induction calls with
  | nil => simp [lost]
  | cons w calls ih => rw [lost_cons,Nat.add_eq_zero_iff,ih,List.forall_mem_cons,lostIn_eq_zero_iff]

theorem countsAccepted_iff (keeper : Keeper σ) (w : World σ) (k : Nat) :
    CountsAccepted keeper w k ↔ ((runLoop keeper k w Metrics.new).2 ≠ none →
      UInt64.ofNat (lost keeper (loopCalls keeper k w Metrics.new)) = 0) := by
  obtain ⟨d,hd,hcounted⟩ := runLoop_counted keeper k w
  unfold CountsAccepted
  rw [appended_of_log hd]
  cases hend : (runLoop keeper k w Metrics.new).2 with
  | none => simp
  | some metrics =>
    have hsum := hcounted metrics hend
    constructor
    · intro hall _
      have hsame := hall metrics rfl
      rw [← hsame] at hsum
      exact UInt64.add_eq_left.mp hsum
    · intro hzero metrics' hsome
      cases hsome
      rw [hzero (by simp),UInt64.add_zero] at hsum
      exact hsum

/-- The counter is right after every tick of a run exactly when no call of the run fails behind an
accepted transaction. -/
theorem runLoop_counted_iff (keeper : Keeper σ) (w : World σ) (n : Nat) :
    (∀ k ≤ n, CountsAccepted keeper w k) ↔
      ∀ call ∈ loopCalls keeper n w Metrics.new, Lossless keeper call := by
  rw [← lost_eq_zero_iff]
  induction n with
  | zero =>
    refine iff_of_true ?_ rfl
    intro k hk
    rw [Nat.le_zero.mp hk,countsAccepted_iff]
    intro _
    rfl
  | succ n ih =>
    have hsplit : lost keeper (loopCalls keeper (n + 1) w Metrics.new) =
        lost keeper (loopCalls keeper n w Metrics.new) +
          lost keeper (match runLoop keeper n w Metrics.new with
            | (w,some _) => attemptCalls keeper retryAttempts w
            | (_,none) => []) := lost_append keeper _ _
    constructor
    · intro hall
      have hbefore := ih.mp fun k hk => hall k (Nat.le_succ_of_le hk)
      have hlast := (countsAccepted_iff keeper w (n + 1)).mp (hall (n + 1) (Nat.le_refl _))
      rw [hsplit,hbefore,Nat.zero_add] at hlast ⊢
      rw [runLoop_succ] at hlast
      generalize runLoop keeper n w Metrics.new = r at hlast ⊢
      obtain ⟨u,ended⟩ := r
      cases ended with
      | none => rfl
      | some metrics =>
        simp only at hlast ⊢
        cases hend : (tick keeper u metrics).2 with
        | none => exact lost_of_panicked hend
        | some metrics' =>
          -- three calls lose too little to wrap the counter
          have hle :=
            Nat.le_trans (lost_le keeper _) (length_attemptCalls_le keeper retryAttempts u)
          have hzero := congrArg UInt64.toNat (hlast (by rw [hend]; simp))
          rw [UInt64.toNat_ofNat'] at hzero
          unfold retryAttempts at hle hzero ⊢
          simp only [UInt64.toNat_zero] at hzero
          omega
    · intro hzero k hk
      have hbefore : lost keeper (loopCalls keeper n w Metrics.new) = 0 := by omega
      by_cases hlast : k = n + 1
      · rw [hlast,countsAccepted_iff,hzero]
        intro _
        rfl
      · exact ih.mpr hbefore k (by omega)

/-- A tick with three transactions accepted, the first of them in a call that then lost the node,
counts two. -/
theorem runLoop_miscounts : ¬∀ (keeper : Keeper Script) (w : World Script) (k : Nat),
    CountsAccepted keeper w k := by
  intro h
  have hcount := h sampleKeeper flakyWorld 1 ⟨1,2,2,1,0,100⟩ (by decide +kernel)
  exact absurd hcount (by decide +kernel)

end SorobanRentKeeper

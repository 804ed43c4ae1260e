import SorobanRentKeeper.Daemon.Counters
import SorobanRentKeeper.Framework.Lts

namespace SorobanRentKeeper

open Program

/-- One write to a metric; the metrics server may read between any two. -/
inductive MetricWrite where
  | pollCycles
  | latestObservedLedger (ledger : Int64)
  | entriesAtRisk (count : Int64)
  | extendsSubmitted (count : UInt64)
  | extendsAccepted
  | extendsRejected

def Metrics.write (metrics : Metrics) : MetricWrite → Metrics
  | .pollCycles => { metrics with pollCycles := metrics.pollCycles + 1 }
  | .latestObservedLedger ledger => { metrics with latestObservedLedger := ledger }
  | .entriesAtRisk count => { metrics with entriesAtRisk := count }
  | .extendsSubmitted count => { metrics with extendsSubmitted := metrics.extendsSubmitted + count }
  | .extendsAccepted => { metrics with extendsAccepted := metrics.extendsAccepted + 1 }
  | .extendsRejected => { metrics with extendsRejected := metrics.extendsRejected + 1 }

/-- What the metrics show after these writes. -/
def shown (ws : List MetricWrite) : Metrics := ws.foldl Metrics.write Metrics.new

/-- The writes for a cycle that completed, in their order. -/
def CycleReport.writes (report : CycleReport) : List MetricWrite :=
  [.pollCycles,.latestObservedLedger (Int64.ofNat report.observedLedger.toNat),
    .entriesAtRisk (gaugeOf report.entriesAtRisk),
    .extendsSubmitted (counterOf report.transactions)] ++
  if report.extendSubmitted then [.extendsAccepted] else []

def KeeperError.writes : KeeperError → List MetricWrite
  | .rpc _ => [.extendsRejected]
  | _ => []

theorem foldl_writes (metrics : Metrics) (report : CycleReport) :
    report.writes.foldl Metrics.write metrics = metrics.cycleComplete report := by
  unfold CycleReport.writes Metrics.cycleComplete
  cases report.extendSubmitted <;> rfl

theorem foldl_writes_error (metrics : Metrics) (err : KeeperError) :
    err.writes.foldl Metrics.write metrics = metrics.cycleFailed err := by
  cases err <;> rfl

variable {σ : Type}

/-- The writes of one tick. -/
def attemptWrites (keeper : Keeper σ) : Nat → World σ → List MetricWrite
  | 0,_ => []
  | left+1,w =>
    match runCycle keeper w with
    | .ok report _ => report.writes
    | .error .panicked _ => []
    | .error (.failed err) t =>
      if left = 0 ∨ !isTransient err then err.writes else attemptWrites keeper left t

/-- The writes of `n` ticks. -/
def loopWrites (keeper : Keeper σ) : Nat → World σ → List MetricWrite
  | 0,_ => []
  | n+1,w => loopWrites keeper n w ++
    match runLoop keeper n w Metrics.new with
    | (w,some _) => attemptWrites keeper retryAttempts w
    | (_,none) => []

theorem attempts_shows {keeper : Keeper σ} {left : Nat} {w : World σ} {metrics metrics' : Metrics}
    (h : (attempts keeper left w metrics).2 = some metrics') :
    metrics' = (attemptWrites keeper left w).foldl Metrics.write metrics := by
  induction left generalizing w with
  | zero =>
    cases h
    rfl
  | succ left ih =>
    unfold attempts at h
    unfold attemptWrites
    cases hrun : runCycle keeper w with
    | ok report t =>
      rw [hrun] at h
      cases h
      exact (foldl_writes metrics report).symm
    | error fault t =>
      rw [hrun] at h
      cases fault with
      | panicked => cases h
      | failed err =>
        simp only at h ⊢
        split at h
        · next hlast =>
          cases h
          rw [if_pos hlast]
          exact (foldl_writes_error metrics err).symm
        · next hagain =>
          rw [if_neg hagain]
          exact ih h

/-- What a run leaves in its metrics is what its writes show. -/
theorem runLoop_shows {keeper : Keeper σ} {n : Nat} {w : World σ} {metrics : Metrics}
    (h : (runLoop keeper n w Metrics.new).2 = some metrics) :
    metrics = shown (loopWrites keeper n w) := by
  unfold shown
  induction n generalizing metrics with
  | zero =>
    cases h
    rfl
  | succ n ih =>
    rw [runLoop_succ] at h
    unfold loopWrites
    generalize runLoop keeper n w Metrics.new = r at ih h ⊢
    obtain ⟨u,ended⟩ := r
    cases ended with
    | none => cases h
    | some before =>
      rw [List.foldl_append,← ih rfl]
      exact attempts_shows h

/-- How far the loop is with the writes of a cycle. -/
inductive Export where
  | idle
  | polled
  | located
  | weighed
  | submitted
  deriving DecidableEq

/-- The order of the writes: between a submission and its acceptance the metrics show the one and
not the other. -/
inductive Exports : Export → MetricWrite → Export → Prop where
  | polled : Exports .idle .pollCycles .polled
  | located (ledger : Int64) : Exports .polled (.latestObservedLedger ledger) .located
  | weighed (count : Int64) : Exports .located (.entriesAtRisk count) .weighed
  | none : Exports .weighed (.extendsSubmitted 0) .idle
  | submitted (count : UInt64) (hpos : 0 < count.toNat) (hle : count.toNat ≤ 2) :
      Exports .weighed (.extendsSubmitted count) .submitted
  | accepted : Exports .submitted .extendsAccepted .idle
  | rejected : Exports .idle .extendsRejected .idle

theorem CycleReport.exports {report : CycleReport} (hle : report.transactions ≤ 2)
    (hsubmitted : report.extendSubmitted = decide (0 < report.transactions)) :
    Lts.Run Exports .idle report.writes .idle := by
  unfold CycleReport.writes
  rw [counterOf_eq hle,hsubmitted]
  refine .cons .polled (.cons (.located _) (.cons (.weighed _) ?_))
  cases hcount : report.transactions with
  | zero => exact .single .none
  | succ k =>
    rw [hcount] at hle
    have hnat : (UInt64.ofNat (k + 1)).toNat = k + 1 := by
      rw [UInt64.toNat_ofNat']
      omega
    rw [if_pos (by simp)]
    exact .cons (.submitted _ (by rw [hnat]; omega) (by rw [hnat]; omega)) (.single .accepted)

theorem attemptWrites_exports (keeper : Keeper σ) (left : Nat) (w : World σ) :
    Lts.Run Exports .idle (attemptWrites keeper left w) .idle := by
  induction left generalizing w with
  | zero => exact .nil _
  | succ left ih =>
    unfold attemptWrites
    cases hrun : runCycle keeper w with
    | ok report t =>
      obtain ⟨d,_,_,hle⟩ := runCycle_accepted hrun
      obtain ⟨_,_,hcycle⟩ := (runCycle_cases keeper w).ok hrun
      have hsubmitted : report.extendSubmitted = decide (0 < report.transactions) := by
        cases hcycle
        rfl
      exact CycleReport.exports hle hsubmitted
    | error fault t =>
      cases fault with
      | panicked => exact .nil _
      | failed err =>
        simp only
        split
        · cases err with
          | rpc text => exact .single .rejected
          | invalidWatch text => exact .nil _
          | transaction text => exact .nil _
        · exact ih t

theorem loopWrites_exports (keeper : Keeper σ) (n : Nat) (w : World σ) :
    Lts.Run Exports .idle (loopWrites keeper n w) .idle := by
  induction n with
  | zero => exact .nil _
  | succ n ih =>
    unfold loopWrites
    generalize runLoop keeper n w Metrics.new = r
    obtain ⟨u,ended⟩ := r
    cases ended with
    | none => exact ih.append (.nil _)
    | some metrics => exact ih.append (attemptWrites_exports keeper retryAttempts u)

/-- The counters as exact numbers. -/
structure Tally where
  polls : Nat
  submitted : Nat
  accepted : Nat
  rejected : Nat

namespace Tally

def zero : Tally := ⟨0,0,0,0⟩

def write (tally : Tally) : MetricWrite → Tally
  | .pollCycles => { tally with polls := tally.polls + 1 }
  | .latestObservedLedger _ => tally
  | .entriesAtRisk _ => tally
  | .extendsSubmitted count => { tally with submitted := tally.submitted + count.toNat }
  | .extendsAccepted => { tally with accepted := tally.accepted + 1 }
  | .extendsRejected => { tally with rejected := tally.rejected + 1 }

def of (ws : List MetricWrite) : Tally := ws.foldl write zero

/-- Every counter is at least the other's. -/
structure Le (t t' : Tally) : Prop where
  polls : t.polls ≤ t'.polls
  submitted : t.submitted ≤ t'.submitted
  accepted : t.accepted ≤ t'.accepted
  rejected : t.rejected ≤ t'.rejected

theorem le_write (t : Tally) (e : MetricWrite) : t.Le (t.write e) := by
  cases e <;> constructor <;> simp [write]

theorem le_foldl (t : Tally) (ws : List MetricWrite) : t.Le (ws.foldl write t) := by
  induction ws generalizing t with
  | nil => exact ⟨Nat.le_refl _,Nat.le_refl _,Nat.le_refl _,Nat.le_refl _⟩
  | cons e ws ih =>
    have hfirst := t.le_write e
    have hrest := ih (t.write e)
    exact ⟨Nat.le_trans hfirst.polls hrest.polls,Nat.le_trans hfirst.submitted hrest.submitted,
      Nat.le_trans hfirst.accepted hrest.accepted,Nat.le_trans hfirst.rejected hrest.rejected⟩

/-- Counters only go up. -/
theorem le_of_prefix {ws ws' : List MetricWrite} (h : ws <+: ws') : (of ws).Le (of ws') := by
  obtain ⟨rest,rfl⟩ := h
  unfold of
  rw [List.foldl_append]
  exact le_foldl _ rest

/-- The metrics hold the exact numbers, as far as they fit. -/
structure Held (tally : Tally) (metrics : Metrics) : Prop where
  polls : metrics.pollCycles = UInt64.ofNat tally.polls
  submitted : metrics.extendsSubmitted = UInt64.ofNat tally.submitted
  accepted : metrics.extendsAccepted = UInt64.ofNat tally.accepted
  rejected : metrics.extendsRejected = UInt64.ofNat tally.rejected

theorem Held.write {tally : Tally} {metrics : Metrics} (h : tally.Held metrics) (e : MetricWrite) :
    (tally.write e).Held (metrics.write e) := by
  have hone (k : Nat) : UInt64.ofNat k + 1 = UInt64.ofNat (k + 1) := by
    rw [UInt64.ofNat_add]
    rfl
  cases e with
  | pollCycles =>
    exact ⟨by simp only [Metrics.write,Tally.write,h.polls,hone],h.submitted,h.accepted,h.rejected⟩
  | latestObservedLedger ledger => exact ⟨h.polls,h.submitted,h.accepted,h.rejected⟩
  | entriesAtRisk count => exact ⟨h.polls,h.submitted,h.accepted,h.rejected⟩
  | extendsSubmitted count =>
    refine ⟨h.polls,?_,h.accepted,h.rejected⟩
    simp only [Metrics.write,Tally.write,h.submitted,UInt64.ofNat_add,UInt64.ofNat_toNat]
  | extendsAccepted =>
    refine ⟨h.polls,h.submitted,?_,h.rejected⟩
    simp only [Metrics.write,Tally.write,h.accepted,hone]
  | extendsRejected =>
    refine ⟨h.polls,h.submitted,h.accepted,?_⟩
    simp only [Metrics.write,Tally.write,h.rejected,hone]

theorem held (ws : List MetricWrite) : (of ws).Held (shown ws) := by
  have hgo : ∀ (t : Tally) (m : Metrics), t.Held m →
      (ws.foldl write t).Held (ws.foldl Metrics.write m) := by
    induction ws with
    | nil => exact fun _ _ h => h
    | cons e ws ih => exact fun t m h => ih _ _ (h.write e)
  exact hgo _ _ ⟨rfl,rfl,rfl,rfl⟩

/-- What holds between the counters while the loop is this far with its writes. -/
def Balanced (tally : Tally) : Export → Prop
  | .idle => tally.accepted ≤ tally.submitted ∧ tally.submitted ≤ 2 * tally.accepted ∧
      tally.accepted ≤ tally.polls
  | .submitted => tally.accepted < tally.submitted ∧ tally.submitted ≤ 2 * tally.accepted + 2 ∧
      tally.accepted < tally.polls
  | _ => tally.accepted ≤ tally.submitted ∧ tally.submitted ≤ 2 * tally.accepted ∧
      tally.accepted < tally.polls

theorem Balanced.write {tally : Tally} {s t : Export} {e : MetricWrite} (h : tally.Balanced s)
    (hstep : Exports s e t) : (tally.write e).Balanced t := by
  cases hstep with
  | submitted count hpos hle =>
    simp only [Balanced,Tally.write] at h ⊢
    omega
  | none => exact h.imp id (And.imp id Nat.le_of_lt)
  | _ =>
    simp only [Balanced,Tally.write] at h ⊢
    omega

theorem balanced {ws : List MetricWrite} {s : Export} (h : Lts.Run Exports .idle ws s) :
    (of ws).Balanced s := by
  refine h.invariant (I := fun ws s => (of ws).Balanced s)
    ⟨Nat.le_refl 0,Nat.le_refl 0,Nat.le_refl 0⟩ ?_
  intro ws s e t hI hstep
  unfold of at hI ⊢
  rw [List.foldl_append]
  exact hI.write hstep

/-- The ticks that ended, in a report or in a failure that is counted. -/
def ended (tally : Tally) : Nat := tally.polls + tally.rejected

theorem ended_foldl (tally : Tally) (ws : List MetricWrite) :
    (ws.foldl write tally).ended = tally.ended + (of ws).ended := by
  induction ws generalizing tally with
  | nil => rfl
  | cons e ws ih =>
    have hstep : (tally.write e).ended = tally.ended + (zero.write e).ended := by
      cases e <;> simp [ended,write,zero] <;> omega
    unfold of at ih ⊢
    rw [List.foldl_cons,List.foldl_cons,ih,ih (zero.write e),hstep]
    omega

theorem ended_append (ws ws' : List MetricWrite) :
    (of (ws ++ ws')).ended = (of ws).ended + (of ws').ended := by
  have h := ended_foldl (of ws) ws'
  unfold of at h ⊢
  rw [List.foldl_append,h]

theorem ended_writes (report : CycleReport) : (of report.writes).ended = 1 := by
  unfold CycleReport.writes
  cases report.extendSubmitted <;> rfl

/-- A tick ends once. -/
theorem ended_attemptWrites (keeper : Keeper σ) (left : Nat) (w : World σ) :
    (of (attemptWrites keeper left w)).ended ≤ 1 := by
  induction left generalizing w with
  | zero => exact Nat.zero_le 1
  | succ left ih =>
    unfold attemptWrites
    cases hrun : runCycle keeper w with
    | ok report t => exact Nat.le_of_eq (ended_writes report)
    | error fault t =>
      cases fault with
      | panicked => exact Nat.zero_le 1
      | failed err =>
        simp only
        split
        · cases err with
          | rpc text => exact Nat.le_refl 1
          | invalidWatch text => exact Nat.zero_le 1
          | transaction text => exact Nat.zero_le 1
        · exact ih t

theorem ended_loopWrites (keeper : Keeper σ) (n : Nat) (w : World σ) :
    (of (loopWrites keeper n w)).ended ≤ n := by
  induction n with
  | zero => exact Nat.le_refl 0
  | succ n ih =>
    unfold loopWrites
    rw [ended_append]
    generalize runLoop keeper n w Metrics.new = r
    obtain ⟨u,ended⟩ := r
    cases ended with
    | none => exact Nat.le_succ_of_le ih
    | some metrics => exact Nat.add_le_add ih (ended_attemptWrites keeper retryAttempts u)

end Tally

/-- What an observer of the metrics may rely on, `n` ticks into a run: nothing is accepted that was
not submitted, a cycle submits two transactions at most, a tick ends once. -/
structure Consistently (n : Nat) (metrics : Metrics) : Prop where
  accepted : metrics.extendsAccepted.toNat ≤ metrics.extendsSubmitted.toNat
  submitted : metrics.extendsSubmitted.toNat ≤ 2 * metrics.extendsAccepted.toNat + 2
  polled : metrics.extendsAccepted.toNat ≤ metrics.pollCycles.toNat
  ended : metrics.pollCycles.toNat + metrics.extendsRejected.toNat ≤ n

/-- The counters of the one show no less than those of the other. -/
structure Metrics.Grown (before after : Metrics) : Prop where
  polls : before.pollCycles.toNat ≤ after.pollCycles.toNat
  submitted : before.extendsSubmitted.toNat ≤ after.extendsSubmitted.toNat
  accepted : before.extendsAccepted.toNat ≤ after.extendsAccepted.toNat
  rejected : before.extendsRejected.toNat ≤ after.extendsRejected.toNat

/-- Between any two writes of a run the metrics are consistent, and the counters never go back. -/
theorem loopWrites_consistently (keeper : Keeper σ) (n : Nat) (w : World σ)
    (hn : n < 4611686018427387904) :
    (∀ metrics, (runLoop keeper n w Metrics.new).2 = some metrics →
      metrics = shown (loopWrites keeper n w)) ∧
    ∀ ws, ws <+: loopWrites keeper n w → Consistently n (shown ws) ∧
      ∀ ws', ws' <+: ws → (shown ws').Grown (shown ws) := by
  refine ⟨fun metrics => runLoop_shows,?_⟩
  intro ws hws
  have hbalanced : (Tally.of ws).accepted ≤ (Tally.of ws).submitted ∧
      (Tally.of ws).submitted ≤ 2 * (Tally.of ws).accepted + 2 ∧
      (Tally.of ws).accepted ≤ (Tally.of ws).polls := by
    obtain ⟨rest,hrest⟩ := hws
    have hrun := loopWrites_exports keeper n w
    rw [← hrest] at hrun
    obtain ⟨s,hfirst,_⟩ := hrun.split
    have h := Tally.balanced hfirst
    cases s <;> simp only [Tally.Balanced] at h <;> omega
  have hended : (Tally.of ws).polls + (Tally.of ws).rejected ≤ n := by
    have hle := Tally.le_of_prefix hws
    have hall := Tally.ended_loopWrites keeper n w
    unfold Tally.ended at hall
    have hpolls := hle.polls
    have hrejected := hle.rejected
    omega
  -- every counter is small enough to be shown as it is
  have hnat (k : Nat) (hk : k ≤ 2 * n + 2) : (UInt64.ofNat k).toNat = k := by
    rw [UInt64.toNat_ofNat']
    omega
  have hshown (ws' : List MetricWrite) (hws' : ws' <+: ws) :
      (shown ws').pollCycles.toNat = (Tally.of ws').polls ∧
      (shown ws').extendsSubmitted.toNat = (Tally.of ws').submitted ∧
      (shown ws').extendsAccepted.toNat = (Tally.of ws').accepted ∧
      (shown ws').extendsRejected.toNat = (Tally.of ws').rejected := by
    have hheld := Tally.held ws'
    obtain ⟨hpolls,hsubmitted,haccepted,hrejected⟩ := Tally.le_of_prefix hws'
    rw [hheld.polls,hheld.submitted,hheld.accepted,hheld.rejected]
    exact ⟨hnat _ (by omega),hnat _ (by omega),hnat _ (by omega),hnat _ (by omega)⟩
  obtain ⟨hpolls,hsubmitted,haccepted,hrejected⟩ := hshown ws (List.prefix_refl ws)
  constructor
  · constructor <;> omega
  · intro ws' hws'
    obtain ⟨hpolls',hsubmitted',haccepted',hrejected'⟩ := hshown ws' hws'
    obtain ⟨hle₁,hle₂,hle₃,hle₄⟩ := Tally.le_of_prefix hws'
    constructor <;> omega

theorem loopWrites_consistently_sample : (∀ metrics,
      (runLoop sampleKeeper 2 sampleWorld Metrics.new).2 = some metrics →
      metrics = shown (loopWrites sampleKeeper 2 sampleWorld)) ∧
    ∀ ws, ws <+: loopWrites sampleKeeper 2 sampleWorld → Consistently 2 (shown ws) ∧
      ∀ ws', ws' <+: ws → (shown ws').Grown (shown ws) :=
  loopWrites_consistently sampleKeeper 2 sampleWorld (by decide)

end SorobanRentKeeper

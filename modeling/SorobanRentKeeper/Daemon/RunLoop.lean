import SorobanRentKeeper.Daemon.Watcher

namespace SorobanRentKeeper

/-- The Prometheus counters and gauges the loop sets. -/
structure Metrics where
  pollCycles : UInt64
  entriesAtRisk : Int64
  extendsSubmitted : UInt64
  extendsAccepted : UInt64
  extendsRejected : UInt64
  latestObservedLedger : Int64
  deriving DecidableEq

def Metrics.new : Metrics := ⟨0,0,0,0,0,0⟩

/-- `i64::try_from(count).unwrap_or(i64::MAX)`. -/
def gaugeOf (count : Nat) : Int64 :=
  if count < 9223372036854775808 then Int64.ofNat count else Int64.maxValue

/-- `u64::try_from(count).unwrap_or(u64::MAX)`. -/
def counterOf (count : Nat) : UInt64 :=
  if count < 18446744073709551616 then UInt64.ofNat count else 18446744073709551615

def Metrics.cycleComplete (metrics : Metrics) (report : CycleReport) : Metrics :=
  { metrics with
    pollCycles := metrics.pollCycles + 1
    latestObservedLedger := Int64.ofNat report.observedLedger.toNat
    entriesAtRisk := gaugeOf report.entriesAtRisk
    extendsSubmitted := metrics.extendsSubmitted + counterOf report.transactions
    extendsAccepted :=
      if report.extendSubmitted then metrics.extendsAccepted + 1 else metrics.extendsAccepted }

def Metrics.cycleFailed (metrics : Metrics) (err : KeeperError) : Metrics :=
  match err with
  | .rpc _ => { metrics with extendsRejected := metrics.extendsRejected + 1 }
  | _ => metrics

def retryAttempts : Nat := 3

def isTransient : KeeperError → Bool
  | .rpc _ => true
  | _ => false

variable {σ : Type}

/-- The retry loop of one tick. `left` is `RETRY_ATTEMPTS` minus the failed attempts so far;
no metrics come back from a panic, which ends the daemon. -/
def attempts (keeper : Keeper σ) : Nat → World σ → Metrics → World σ × Option Metrics
  | 0,w,metrics => (w,some metrics)
  | left+1,w,metrics =>
    match runCycle keeper w with
    | .ok report w => (w,some (metrics.cycleComplete report))
    | .error .panicked w => (w,none)
    | .error (.failed err) w =>
      if left = 0 ∨ !isTransient err then (w,some (metrics.cycleFailed err))
      else attempts keeper left w metrics

/-- One tick of `run_loop`. -/
def tick (keeper : Keeper σ) (w : World σ) (metrics : Metrics) : World σ × Option Metrics :=
  attempts keeper retryAttempts w metrics

end SorobanRentKeeper

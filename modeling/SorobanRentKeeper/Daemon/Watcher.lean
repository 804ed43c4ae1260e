import SorobanRentKeeper.Core.Planner
import SorobanRentKeeper.Daemon.Watch
import Mathlib.Data.List.Infix

namespace SorobanRentKeeper

variable {σ : Type}

/-- `str::contains`. -/
def contains (text pattern : String) : Bool := decide (pattern.toList <:+: text.toList)

def isBadSeqError (error : KeeperError) : Bool :=
  let text := error.toString
  contains text "tx_bad_seq" || contains text "bad_seq" || contains text "BadSequence" ||
    contains text "BAD_SEQ"

namespace SequenceTracker

/-- A tracker with nothing cached. -/
def new {ε : Type} (accountId : String) : EStateM ε (World σ) SequenceTracker := do
  modify fun w => { w with sequence := none }
  return ⟨accountId⟩

def nextSequence (node : Node σ) (tracker : SequenceTracker) :
    EStateM KeeperError (World σ) Int64 := do
  match (← get).sequence with
  | some seq =>
    modify fun w => { w with sequence := some (seq + 1) }
    return seq + 1
  | none =>
    let seqNum ← EStateM.adaptExcept
      (fun e => .rpc ("get_account for fee payer (is it funded?): " ++ e.toString))
      (Provider.getAccount node tracker.accountId)
    let next := seqNum + 1
    modify fun w => { w with sequence := some next }
    return next

/-- Drops the cached number on what looks like a sequence error, and says whether it did. -/
def reportFailure (error : KeeperError) : EStateM KeeperError (World σ) Bool := do
  if isBadSeqError error then
    modify fun w => { w with sequence := none }
    return true
  return false

end SequenceTracker

structure CycleReport where
  observedLedger : UInt32
  entriesAtRisk : Nat
  extendSubmitted : Bool
  transactions : Nat
  deriving DecidableEq

/-- `rejected` is declared for callers that classify replies; nothing here returns it. -/
inductive SubmissionOutcome where
  | accepted
  | rejected
  deriving DecidableEq

def record (event : Event) : EStateM KeeperError (World σ) Unit :=
  modify fun w => { w with log := w.log ++ [event] }

/-- A call that mutates a local envelope; only its success is seen, since `submit_plan` drops
the envelope on any error. -/
def mutate (x : EStateM RentkeeperError TransactionEnvelope Unit) (envelope : TransactionEnvelope) :
    Except RentkeeperError TransactionEnvelope :=
  match x envelope with
  | .ok _ envelope => .ok envelope
  | .error e _ => .error e

/-- `built` is only kept for the log. -/
def submitExtend (keeper : Keeper σ) (built envelope : TransactionEnvelope) :
    EStateM KeeperError (World σ) SubmissionOutcome := do
  let _ ← EStateM.adaptExcept (fun e => .rpc e.toString)
    (Provider.sendTransaction keeper.node built envelope)
  return .accepted

def submitPlan (keeper : Keeper σ) (builder : TxBuilder) (plan : ArchivalPlan) :
    EStateM KeeperError (World σ) SubmissionOutcome := do
  record (.submitPlan plan)
  let seqNum ← keeper.tracker.nextSequence keeper.node
  let envelope ← Program.ofExcept <|
    (builder.buildUnsigned keeper.crates plan ⟨keeper.payer.publicBytes keeper.crates⟩
      seqNum).mapError fun e => .transaction e.toString
  let simulation ← EStateM.adaptExcept (fun e => .rpc e.toString)
    (Provider.simulate keeper.node envelope)
  if simulation.failed then
    throw (.transaction ("simulation rejected: " ++ simulation.error.getD ""))
  let priced ← Program.ofExcept <|
    (mutate (builder.applySimulation keeper.crates simulation) envelope).mapError fun e =>
      .transaction e.toString
  let signed ← Program.ofExcept <|
    (mutate (builder.sign keeper.crates keeper.payer.signingKey) priced).mapError fun e =>
      .transaction e.toString
  submitExtend keeper envelope signed

/-- The body of the submit loop: one plan, with one retry after a sequence error. -/
def submitStep (keeper : Keeper σ) (builder : TxBuilder) (submitted : Nat) (plan : ArchivalPlan) :
    EStateM KeeperError (World σ) Nat := do
  match ← Program.attempt (submitPlan keeper builder plan) with
  | .ok .accepted => return submitted + 1
  | .ok .rejected => return submitted
  | .error err =>
    if ← SequenceTracker.reportFailure err then
      match ← Program.attempt (submitPlan keeper builder plan) with
      | .ok .accepted => return submitted + 1
      | _ => throw err
    else throw err

def submitPlans (keeper : Keeper σ) (builder : TxBuilder) (plans : List ArchivalPlan) :
    EStateM KeeperError (World σ) Nat :=
  plans.foldlM (submitStep keeper builder) 0

/-- The live observations, as the planner takes them. -/
def extendable (keys : List LedgerKey) (observations : List Observation) :
    List (LedgerKey × EntryTtl) :=
  (keys.zip observations).filterMap fun o =>
    match o.2.entry with
    | .live ttl => some (o.1,ttl)
    | _ => none

def planner (config : ValidConfig) : Planner :=
  ⟨config.constants,config.riskWindow,config.networkPassphrase⟩

/-- `run_cycle` once the keys are resolved, up to its plans. -/
def observeAndPlan (keeper : Keeper σ) (keys : List LedgerKey) :
    EStateM KeeperError (World σ) (UInt32 × List ArchivalPlan) := do
  if keys.isEmpty then
    throw (.invalidWatch "no watch keys resolved from configuration")
  let actualNetwork ← EStateM.adaptExcept (fun e => .rpc e.toString)
    (Provider.networkPassphrase keeper.node)
  if actualNetwork ≠ keeper.config.networkPassphrase then
    throw (.rpc ("network mismatch: config '" ++ keeper.config.networkPassphrase ++
      "' but node reports '" ++ actualNetwork ++ "'"))
  let observations ← EStateM.adaptExcept (fun e => .rpc e.toString)
    (Provider.observeEntries keeper.crates keeper.node keys)
  record (.observed keys observations)
  let observedLedger := (observations.head?.map Observation.currentLedger).getD 0
  let plans ← Program.ofExcept <|
    ((planner keeper.config).planExtendSplit keeper.crates (extendable keys observations)
      observedLedger).mapError fun e => .transaction e.toString
  return (observedLedger,plans)

/-- `run_cycle` from its plans on. -/
def submitCycle (keeper : Keeper σ) (observedLedger : UInt32) (plans : List ArchivalPlan) :
    EStateM KeeperError (World σ) CycleReport := do
  if plans.isEmpty then
    return ⟨observedLedger,0,false,0⟩
  let entriesAtRisk := (plans.map ArchivalPlan.len).sum
  let submitted ← submitPlans keeper (TxBuilder.new keeper.config.networkPassphrase) plans
  return ⟨observedLedger,entriesAtRisk,decide (0 < submitted),submitted⟩

def runCycle (keeper : Keeper σ) : EStateM (Fault KeeperError) (World σ) CycleReport := do
  let keys ← Program.ofExcept (resolveWatchKeys keeper.crates keeper.config)
  EStateM.adaptExcept .failed do
    let (observedLedger,plans) ← observeAndPlan keeper keys
    submitCycle keeper observedLedger plans

end SorobanRentKeeper

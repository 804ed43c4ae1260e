import SorobanRentKeeper.Core.Ttl

namespace SorobanRentKeeper

inductive OperationKind where
  | extend
  | restore
  deriving DecidableEq

structure PlanEntry where
  key : LedgerKey
  keyXdr : String
  kind : OperationKind
  durability : Option Durability
  ttl : EntryTtl
  deriving DecidableEq

/-- `remaining_ttl`. -/
def PlanEntry.remainingTtl (e : PlanEntry) : Option UInt64 := e.ttl.ttlLedgers

structure ArchivalPlan where
  networkPassphrase : String
  referenceLedger : UInt32
  extendTo : UInt32
  entries : List PlanEntry
  deriving DecidableEq

namespace ArchivalPlan

def len (plan : ArchivalPlan) : Nat := plan.entries.length

def isEmpty (plan : ArchivalPlan) : Bool := plan.entries.isEmpty

def countKind (plan : ArchivalPlan) (kind : OperationKind) : Nat :=
  (plan.entries.filter fun e => e.kind = kind).length

/-- The keys of the entries, in entry order. -/
def footprint (plan : ArchivalPlan) : List LedgerKey := plan.entries.map PlanEntry.key

@[simp] theorem length_footprint (plan : ArchivalPlan) : plan.footprint.length = plan.len := by
  simp [footprint,len]

end ArchivalPlan

end SorobanRentKeeper

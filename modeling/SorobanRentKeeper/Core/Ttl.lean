import SorobanRentKeeper.Core.Xdr
import Mathlib.Tactic.SplitIfs

namespace SorobanRentKeeper

/-- How code that may also panic ends early. -/
inductive Fault (ε : Type) where
  | failed (error : ε)
  | panicked
  deriving DecidableEq

structure TtlConstants where
  secondsPerLedger : UInt64
  maxEntryTtl : UInt32
  minPersistentTtl : UInt32
  minTemporaryTtl : UInt32
  deriving DecidableEq

/-- `TtlConstants::stellar_public`, also the default. -/
def TtlConstants.stellarPublic : TtlConstants := ⟨5,6312000,409600,409600⟩

/-- TTL state of an entry as a snapshot taken at `currentLedger` showed it. -/
structure EntryTtl where
  currentLedger : UInt32
  liveUntilLedgerSeq : Option UInt32
  deriving DecidableEq

/-- The difference is taken in `u64`. The release build wraps when the entry has already
expired, where a build with overflow checks stops: see `EntryTtl.Underflows`. -/
def EntryTtl.ttlLedgers (ttl : EntryTtl) : Option UInt64 :=
  ttl.liveUntilLedgerSeq.map fun liveUntil => liveUntil.toUInt64 - ttl.currentLedger.toUInt64

/-- The subtraction in `ttlLedgers` has a negative exact result. -/
def EntryTtl.Underflows (ttl : EntryTtl) : Prop :=
  ∃ liveUntil, ttl.liveUntilLedgerSeq = some liveUntil ∧ liveUntil < ttl.currentLedger

/-- The build profiles of the workspace; only the first checks a subtraction. -/
inductive Profile where
  | dev
  | release
  deriving DecidableEq

/-- `ttl_ledgers` as a build runs it: where `ttlLedgers` wraps, a checked build panics. -/
def EntryTtl.ttlLedgersIn {ε : Type} (profile : Profile) (ttl : EntryTtl) :
    Except (Fault ε) (Option UInt64) :=
  match profile,ttl.liveUntilLedgerSeq with
  | .dev,some liveUntil =>
    if liveUntil < ttl.currentLedger then .error .panicked else .ok ttl.ttlLedgers
  | _,_ => .ok ttl.ttlLedgers

/-- The snapshot shows an entry that outlives the ledger it was taken at. -/
def EntryTtl.Live (ttl : EntryTtl) : Prop :=
  ∃ liveUntil, ttl.liveUntilLedgerSeq = some liveUntil ∧ ttl.currentLedger < liveUntil

structure ArchivedEntryInfo where
  currentLedger : UInt32
  archived : Bool
  deriving DecidableEq

def ArchivedEntryInfo.isArchived (info : ArchivedEntryInfo) : Bool := info.archived

inductive Durability where
  | temporary
  | persistent
  deriving DecidableEq

def Durability.fromXdr : ContractDataDurability → Durability
  | .temporary => .temporary
  | .persistent => .persistent

structure RiskWindow where
  alertHorizonLedgers : UInt64
  deriving DecidableEq

def RiskWindow.isAtRisk (window : RiskWindow) (ttl : EntryTtl) : Bool :=
  match ttl.ttlLedgers with
  | some remaining => decide (remaining ≤ window.alertHorizonLedgers)
  | none => false

/-- `u32::try_from` on a `u64`. -/
def u32TryFrom (x : UInt64) : Option UInt32 :=
  if x.toNat < 4294967296 then some x.toUInt32 else none

def RiskWindow.extendToLedgers (window : RiskWindow) (constants : TtlConstants) : UInt32 :=
  min ((u32TryFrom window.alertHorizonLedgers).getD constants.maxEntryTtl) constants.maxEntryTtl

theorem EntryTtl.Live.not_underflows {ttl : EntryTtl} (h : ttl.Live) : ¬ttl.Underflows := by
  intro hunder
  obtain ⟨u,hu,hlt⟩ := hunder
  obtain ⟨v,hv,hgt⟩ := h
  have huv : u = v := Option.some.inj (hu.symm.trans hv)
  subst huv
  exact absurd hgt (UInt32.lt_asymm hlt)

theorem sub_toUInt64 (a b : UInt32) (h : b ≤ a) :
    (a.toUInt64 - b.toUInt64).toNat = a.toNat - b.toNat := by
  rw [UInt64.toNat_sub_of_le]
  · simp
  · simpa [UInt64.le_iff_toNat_le,UInt32.le_iff_toNat_le] using h

/-- What remains in exact arithmetic: nothing once the entry has expired. -/
def EntryTtl.exactTtl (ttl : EntryTtl) : Option Nat :=
  ttl.liveUntilLedgerSeq.map fun liveUntil => liveUntil.toNat - ttl.currentLedger.toNat

/-- What may be reported of a TTL: its exact value, or none at all after the expiry. -/
def EntryTtl.Admits (ttl : EntryTtl) (remaining : Option UInt64) : Prop :=
  remaining.map UInt64.toNat = ttl.exactTtl ∨ (ttl.Underflows ∧ remaining = none)

theorem EntryTtl.le_of_not_underflows {ttl : EntryTtl} {liveUntil : UInt32}
    (h : ¬ttl.Underflows) (hlive : ttl.liveUntilLedgerSeq = some liveUntil) :
    ttl.currentLedger ≤ liveUntil := by
  apply UInt32.not_lt.mp
  intro hlt
  exact h ⟨liveUntil,hlive,hlt⟩

/-- Nothing underflows: both builds compute the same value. -/
theorem EntryTtl.ttlLedgersIn_of_not_underflows {ε : Type} (profile : Profile) {ttl : EntryTtl}
    (h : ¬ttl.Underflows) :
    (ttl.ttlLedgersIn profile : Except (Fault ε) _) = .ok ttl.ttlLedgers := by
  cases profile with
  | release => rfl
  | dev =>
    unfold ttlLedgersIn
    cases hlive : ttl.liveUntilLedgerSeq with
    | none => rfl
    | some liveUntil => exact if_neg (UInt32.not_lt.mpr (ttl.le_of_not_underflows h hlive))

/-- And it is the exact one. -/
theorem EntryTtl.admits_of_not_underflows {ttl : EntryTtl} (h : ¬ttl.Underflows) :
    ttl.Admits ttl.ttlLedgers := by
  left
  unfold ttlLedgers exactTtl
  cases hlive : ttl.liveUntilLedgerSeq with
  | none => rfl
  | some liveUntil =>
    exact congrArg some (sub_toUInt64 liveUntil _ (ttl.le_of_not_underflows h hlive))

/-- The subtraction goes below zero: one build panics, the other wraps to a number above any
ledger. -/
theorem EntryTtl.not_admits_of_underflows {ε : Type} {profile : Profile} {ttl : EntryTtl}
    {remaining : Option UInt64} (h : ttl.Underflows)
    (hrun : (ttl.ttlLedgersIn profile : Except (Fault ε) _) = .ok remaining) :
    ¬ttl.Admits remaining := by
  obtain ⟨current,live⟩ := ttl
  obtain ⟨liveUntil,hlive,hlt⟩ := h
  cases hlive
  cases profile with
  | dev =>
    have hpanic : ((⟨current,some liveUntil⟩ : EntryTtl).ttlLedgersIn .dev : Except (Fault ε) _) =
        .error .panicked := if_pos hlt
    rw [hpanic] at hrun
    cases hrun
  | release =>
    cases Except.ok.inj hrun
    intro hadmits
    rcases hadmits with hexact|hnone
    · have hvalue : (liveUntil.toUInt64 - current.toUInt64).toNat =
          liveUntil.toNat - current.toNat := Option.some.inj hexact
      have hbelow : liveUntil.toNat < current.toNat := UInt32.lt_iff_toNat_lt.mp hlt
      have hbound := current.toNat_lt
      rw [UInt64.toNat_sub,UInt32.toNat_toUInt64,UInt32.toNat_toUInt64] at hvalue
      omega
    · cases hnone.2

/-- On a live entry the alert test compares exact numbers. -/
theorem RiskWindow.isAtRisk_iff (window : RiskWindow) (ttl : EntryTtl) (u : UInt32)
    (hu : ttl.liveUntilLedgerSeq = some u) (h : ttl.currentLedger ≤ u) :
    window.isAtRisk ttl = true ↔
      u.toNat - ttl.currentLedger.toNat ≤ window.alertHorizonLedgers.toNat := by
  have hr := sub_toUInt64 u ttl.currentLedger h
  simp only [isAtRisk,EntryTtl.ttlLedgers,hu,Option.map_some,decide_eq_true_eq,
    UInt64.le_iff_toNat_le,hr]

/-- The target is the horizon cut at the network limit, for every `u64` horizon. -/
theorem RiskWindow.extendToLedgers_toNat (window : RiskWindow) (constants : TtlConstants) :
    (window.extendToLedgers constants).toNat =
      min window.alertHorizonLedgers.toNat constants.maxEntryTtl.toNat := by
  have hm := constants.maxEntryTtl.toNat_lt
  have hmin (a b : UInt32) : (min a b).toNat = min a.toNat b.toNat := by
    rw [show min a b = if a ≤ b then a else b from rfl]
    split_ifs with hab
    · rw [Nat.min_eq_left (UInt32.le_iff_toNat_le.mp hab)]
    · rw [UInt32.le_iff_toNat_le] at hab
      rw [Nat.min_eq_right (by omega)]
  unfold extendToLedgers u32TryFrom
  rw [hmin]
  split_ifs with hfit
  · simp only [Option.getD_some,UInt64.toNat_toUInt32]
    rw [Nat.mod_eq_of_lt (by simpa using hfit)]
  · simp only [Option.getD_none]
    omega

/-- `f64::ceil`: a fraction is cut off, and one added to a positive number that had one. -/
def f64Ceil (x : Float) : Float :=
  match x.toModel.unpack with
  | .finite sign mantissa exponent _ =>
    if 0 ≤ exponent then x
    else
      let unit := 1 <<< (-exponent).toNat
      match sign with
      | .positive => Float.ofNat ((mantissa + (unit - 1)) / unit)
      | .negative => -Float.ofNat (mantissa / unit)
  | _ => x

namespace RiskWindow

/-- A window of so many days of 5-second ledgers. -/
def fromDays (days : Float) : RiskWindow :=
  let ledgers := f64Ceil (days * 86400.0 / 5.0)
  if ledgers < 0.0 then ⟨0⟩
  else if ledgers ≥ 4294967295.0 then ⟨4294967295⟩
  else ⟨ledgers.toUInt64⟩

example : fromDays 7.0 = ⟨120960⟩ ∧ fromDays 0.00001 = ⟨1⟩ ∧ fromDays (-1.5) = ⟨0⟩ ∧
    fromDays 1e300 = ⟨4294967295⟩ ∧ fromDays (0.0 / 0.0) = ⟨0⟩ := by decide +kernel

end RiskWindow

end SorobanRentKeeper

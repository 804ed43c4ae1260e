import SorobanRentKeeper.Core.Ttl

namespace SorobanRentKeeper

/-- `u64::saturating_sub`. -/
def saturatingSub (a b : UInt64) : UInt64 := if a < b then 0 else a - b

/-- `seconds_of_headroom`; the product wraps as in the release build, where a build with overflow
checks stops. -/
def RiskWindow.secondsOfHeadroom (window : RiskWindow) (constants : TtlConstants)
    (ttl : EntryTtl) : Option UInt64 :=
  ttl.ttlLedgers.map fun remaining =>
    saturatingSub remaining window.alertHorizonLedgers * constants.secondsPerLedger

theorem saturatingSub_toNat (a b : UInt64) : (saturatingSub a b).toNat = a.toNat - b.toNat := by
  unfold saturatingSub
  split_ifs with hlt
  · rw [UInt64.lt_iff_toNat_lt] at hlt
    simp only [UInt64.reduceToNat]
    omega
  · rw [UInt64.lt_iff_toNat_lt] at hlt
    exact UInt64.toNat_sub_of_le _ _ (UInt64.le_iff_toNat_le.mpr (by omega))

/-- On a live entry, and with ledgers of less than `2^32` seconds, nothing wraps. -/
theorem RiskWindow.secondsOfHeadroom_eq (window : RiskWindow) (constants : TtlConstants)
    {ttl : EntryTtl} {liveUntil : UInt32} (hlive : ttl.liveUntilLedgerSeq = some liveUntil)
    (hcurrent : ttl.currentLedger ≤ liveUntil)
    (hfit : constants.secondsPerLedger.toNat < 4294967296) :
    ∃ seconds, window.secondsOfHeadroom constants ttl = some seconds ∧
      seconds.toNat = (liveUntil.toNat - ttl.currentLedger.toNat -
        window.alertHorizonLedgers.toNat) * constants.secondsPerLedger.toNat := by
  have hremaining := sub_toUInt64 liveUntil ttl.currentLedger hcurrent
  refine ⟨_,by simp only [secondsOfHeadroom,EntryTtl.ttlLedgers,hlive,Option.map_some]; rfl,?_⟩
  rw [UInt64.toNat_mul,saturatingSub_toNat,hremaining]
  apply Nat.mod_eq_of_lt
  have hbound := liveUntil.toNat_lt
  calc (liveUntil.toNat - ttl.currentLedger.toNat - window.alertHorizonLedgers.toNat) *
      constants.secondsPerLedger.toNat
    _ ≤ 4294967295 * constants.secondsPerLedger.toNat := Nat.mul_le_mul_right _ (by omega)
    _ < 18446744073709551616 := by omega

/-- The headroom of a live entry is the time to its alert: at any later ledger up to its last, the
window finds it at risk exactly when that many seconds have passed since the snapshot. -/
theorem RiskWindow.secondsOfHeadroom_countdown (window : RiskWindow) (constants : TtlConstants)
    (ttl : EntryTtl) (liveUntil : UInt32) (hlive : ttl.liveUntilLedgerSeq = some liveUntil)
    (hcurrent : ttl.currentLedger ≤ liveUntil) (hspeed : 0 < constants.secondsPerLedger.toNat)
    (hfit : constants.secondsPerLedger.toNat < 4294967296) :
    ∃ seconds, window.secondsOfHeadroom constants ttl = some seconds ∧
      ∀ later, ttl.currentLedger ≤ later → later ≤ liveUntil →
        (window.isAtRisk ⟨later,some liveUntil⟩ = true ↔
          seconds.toNat ≤
            (later.toNat - ttl.currentLedger.toNat) * constants.secondsPerLedger.toNat) := by
  obtain ⟨seconds,hseconds,hvalue⟩ := window.secondsOfHeadroom_eq constants hlive hcurrent hfit
  refine ⟨seconds,hseconds,?_⟩
  intro later hafter hbefore
  have hrisk := window.isAtRisk_iff ⟨later,some liveUntil⟩ liveUntil rfl hbefore
  rw [UInt32.le_iff_toNat_le] at hafter hbefore hcurrent
  rw [hrisk,hvalue,Nat.mul_le_mul_right_iff hspeed]
  simp only
  omega

/-- A week's window, and an entry that has ten days left. -/
theorem RiskWindow.secondsOfHeadroom_week :
    ∃ seconds, (⟨120960⟩ : RiskWindow).secondsOfHeadroom .stellarPublic ⟨1000,some 173800⟩ =
        some seconds ∧
      ∀ later : UInt32, 1000 ≤ later → later ≤ 173800 →
        ((⟨120960⟩ : RiskWindow).isAtRisk ⟨later,some 173800⟩ = true ↔
          seconds.toNat ≤ (later.toNat - (1000 : UInt32).toNat) *
            TtlConstants.stellarPublic.secondsPerLedger.toNat) :=
  RiskWindow.secondsOfHeadroom_countdown ⟨120960⟩ .stellarPublic ⟨1000,some 173800⟩ 173800 rfl
    (by decide) (by decide) (by decide)

end SorobanRentKeeper

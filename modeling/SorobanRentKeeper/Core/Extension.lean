import SorobanRentKeeper.Core.Split
import SorobanRentKeeper.Framework.Renewal
import Mathlib.Data.List.Forall2

namespace SorobanRentKeeper

/-- What an extend transaction asks for: a remaining TTL for every key it names. -/
structure Extension where
  keys : List LedgerKey
  extendTo : UInt32
  deriving DecidableEq

def ArchivalPlan.extension (plan : ArchivalPlan) : Extension := ⟨plan.footprint,plan.extendTo⟩

/-- What accepted extensions leave of the remaining TTL of an entry: each one that names it
raises it to its target, and none shortens it. -/
def remainingAfter (key : LedgerKey) (extensions : List Extension) (remaining : Nat) : Nat :=
  extensions.foldl
    (fun r e => if key ∈ e.keys then max r e.extendTo.toNat else r) remaining

/-- Extensions to one target act as one extension. -/
theorem remainingAfter_same_target (key : LedgerKey) (extensions : List Extension)
    (remaining : Nat) (target : UInt32) (h : ∀ e ∈ extensions, e.extendTo = target) :
    remainingAfter key extensions remaining =
      if ∃ e ∈ extensions, key ∈ e.keys then max remaining target.toNat else remaining := by
  induction extensions generalizing remaining with
  | nil => simp [remainingAfter]
  | cons e extensions ih =>
    have he : e.extendTo = target := h e List.mem_cons_self
    have ih := fun r => ih r (fun x hx => h x (List.mem_cons_of_mem e hx))
    change remainingAfter key extensions
      (if key ∈ e.keys then max remaining e.extendTo.toNat else remaining) = _
    rw [ih,he]
    by_cases hkey : key ∈ e.keys
    · simp [hkey]
    · simp [hkey]

/-- The remaining TTL an observation shows, when it shows an entry that has not expired. -/
def EntryTtl.Shows (ttl : EntryTtl) (remaining : Nat) : Prop :=
  ∃ u, ttl.liveUntilLedgerSeq = some u ∧ ttl.currentLedger ≤ u ∧
    remaining = u.toNat - ttl.currentLedger.toNat

theorem EntryTtl.Shows.isAtRisk_iff {window : RiskWindow} {ttl : EntryTtl} {remaining : Nat}
    (h : ttl.Shows remaining) :
    window.isAtRisk ttl = true ↔ remaining ≤ window.alertHorizonLedgers.toNat := by
  obtain ⟨u,hu,hle,rfl⟩ := h
  exact window.isAtRisk_iff ttl u hu hle

namespace Planner

/-- Extending the planner's classes to the planner's target is one visit of the renewal rule to
every observed entry, the ones not at risk included. -/
theorem remainingAfter_classes (planner : Planner) (observations : List (LedgerKey × EntryTtl))
    (extensions : List Extension) (key : LedgerKey) (ttl : EntryTtl) (remaining : Nat)
    (hkeys : extensions.map Extension.keys = planner.classes observations)
    (htarget : ∀ e ∈ extensions, e.extendTo = planner.window.extendToLedgers planner.constants)
    (hmem : (key,ttl) ∈ observations) (hshows : ttl.Shows remaining) :
    remainingAfter key extensions remaining =
      Renewal.visit planner.window.alertHorizonLedgers.toNat
        (min planner.window.alertHorizonLedgers.toNat planner.constants.maxEntryTtl.toNat)
        remaining := by
  rw [remainingAfter_same_target key extensions remaining _ htarget,
    planner.window.extendToLedgers_toNat planner.constants]
  have hnamed : (∃ e ∈ extensions, key ∈ e.keys) ↔
      ∃ ttl, (key,ttl) ∈ observations ∧ planner.window.isAtRisk ttl = true := by
    rw [← mem_classes,← hkeys]
    simp
  rw [Renewal.visit_of_target_le _ _ _ (Nat.min_le_left _ _)]
  split_ifs with hin
  · rfl
  · have hsafe : ¬remaining ≤ planner.window.alertHorizonLedgers.toNat := by
      intro hrisk
      exact hin (hnamed.mpr ⟨ttl,hmem,hshows.isAtRisk_iff.mpr hrisk⟩)
    have hmin := Nat.min_le_left planner.window.alertHorizonLedgers.toNat
      planner.constants.maxEntryTtl.toNat
    omega

/-- The snapshot of the same entry at the same ledger once `extensions` are applied. -/
def Extended (extensions : List Extension) (o o' : LedgerKey × EntryTtl) : Prop :=
  o'.1 = o.1 ∧ o'.2.currentLedger = o.2.currentLedger ∧
    ∃ u u', o.2.liveUntilLedgerSeq = some u ∧ o'.2.liveUntilLedgerSeq = some u' ∧
      u'.toNat = o.2.currentLedger.toNat +
        remainingAfter o.1 extensions (u.toNat - o.2.currentLedger.toNat)

/-- Under the network limit an extension ends where the alert starts, so what was at risk
still is. -/
theorem Extended.isAtRisk_eq {crates : Crates} {planner : Planner}
    {observations : List (LedgerKey × EntryTtl)} {currentLedger : UInt32}
    {plans : List ArchivalPlan} {o o' : LedgerKey × EntryTtl}
    (hwindow : planner.window.alertHorizonLedgers.toNat < planner.constants.maxEntryTtl.toNat)
    (hplans : planExtendSplit crates planner observations currentLedger = .ok plans)
    (hmem : o ∈ observations) (hlive : o.2.Live)
    (h : Extended (plans.map ArchivalPlan.extension) o o') :
    planner.window.isAtRisk o'.2 = planner.window.isAtRisk o.2 := by
  obtain ⟨_,hledger,u,u',hu,hu',hafter⟩ := h
  obtain ⟨hclasses,hall⟩ := planExtendSplit_ok hplans
  have hle : o.2.currentLedger ≤ u := by
    obtain ⟨v,hv,hlt⟩ := hlive
    have huv : u = v := Option.some.inj (hu.symm.trans hv)
    rw [huv]
    exact UInt32.le_of_lt hlt
  have hshows : o.2.Shows (u.toNat - o.2.currentLedger.toNat) := ⟨u,hu,hle,rfl⟩
  have hvisit := remainingAfter_classes planner observations (plans.map ArchivalPlan.extension)
    o.1 o.2 _ (by rw [← hclasses]; simp [ArchivalPlan.extension])
    (by
      intro e he
      obtain ⟨plan,hplan,rfl⟩ := List.mem_map.mp he
      exact (hall plan hplan).2.2.1)
    hmem hshows
  rw [hvisit,Nat.min_eq_left hwindow.le] at hafter
  have hshows' : o'.2.Shows (u'.toNat - o'.2.currentLedger.toNat) := by
    refine ⟨u',hu',?_,rfl⟩
    rw [UInt32.le_iff_toNat_le,hledger]
    omega
  have hdue := Renewal.visit_due_iff planner.window.alertHorizonLedgers.toNat
    planner.window.alertHorizonLedgers.toNat (u.toNat - o.2.currentLedger.toNat)
  rw [Bool.eq_iff_iff,hshows'.isAtRisk_iff,hshows.isAtRisk_iff,hledger,hafter,
    Nat.add_sub_cancel_left]
  exact hdue.trans (and_iff_left (Nat.le_refl _))

private theorem all_safe_iff (planner : Planner)
    {observations observations' : List (LedgerKey × EntryTtl)}
    (h : List.Forall₂ (fun o o' => planner.window.isAtRisk o'.2 = planner.window.isAtRisk o.2)
      observations observations') :
    (∀ o ∈ observations', planner.window.isAtRisk o.2 = false) ↔
      ∀ o ∈ observations, planner.window.isAtRisk o.2 = false := by
  induction h with
  | nil => simp
  | cons hrisk _ ih => simp only [List.forall_mem_cons,hrisk,ih]

/-- Planning again at the same ledger, after every plan was applied, returns no plan exactly
when there was nothing to extend in the first place. -/
theorem replan_eq_nil_iff (crates : Crates) (planner : Planner)
    (observations observations' : List (LedgerKey × EntryTtl)) (currentLedger : UInt32)
    (plans : List ArchivalPlan)
    (hwindow : planner.window.alertHorizonLedgers.toNat < planner.constants.maxEntryTtl.toNat)
    (hlive : ∀ o ∈ observations, o.2.Live ∧ o.2.currentLedger = currentLedger)
    (hplans : planExtendSplit crates planner observations currentLedger = .ok plans)
    (hafter : List.Forall₂ (Extended (plans.map ArchivalPlan.extension)) observations
      observations') :
    planExtendSplit crates planner observations' currentLedger = .ok [] ↔
      ∀ o ∈ observations, planner.window.isAtRisk o.2 = false := by
  have hstep : ∀ o o', (o ∈ observations ∧ Extended (plans.map ArchivalPlan.extension) o o') →
      planner.window.isAtRisk o'.2 = planner.window.isAtRisk o.2 := by
    intro o o' h
    exact h.2.isAtRisk_eq hwindow hplans h.1 (hlive o h.1).1
  have hrisk := ((List.forall₂_and_left observations observations').mpr
    ⟨fun o ho => ho,hafter⟩).imp hstep
  rw [planExtendSplit_eq_nil_iff]
  exact all_safe_iff planner hrisk

/-- 100 ledgers of window over an entry with 50 left. -/
def narrowPlanner : Planner :=
  ⟨TtlConstants.stellarPublic,⟨100⟩,"Test SDF Network ; September 2015"⟩

def narrowPlan : ArchivalPlan := mkPlan narrowPlanner 100
  [extendEntry 100 (codeKey,⟨100,some 150⟩) "AAAABwAAAAAAAAAAAAAAAAAAAAAAAAAAAAAAAAAAAAAAAAAA"]

theorem extended_codeKey : Extended ([narrowPlan].map ArchivalPlan.extension)
    (codeKey,⟨100,some 150⟩) (codeKey,⟨100,some 200⟩) :=
  ⟨rfl,rfl,150,200,rfl,rfl,by decide⟩

theorem replan_eq_nil_codeKey :
    planExtendSplit sampleCrates narrowPlanner [(codeKey,⟨100,some 200⟩)] 100 = .ok [] ↔
      ∀ o ∈ [(codeKey,(⟨100,some 150⟩ : EntryTtl))], narrowPlanner.window.isAtRisk o.2 = false :=
  replan_eq_nil_iff sampleCrates narrowPlanner [(codeKey,⟨100,some 150⟩)] _ 100 [narrowPlan]
    (by decide) (by simp; exact ⟨150,rfl,by decide⟩) rfl (.cons extended_codeKey .nil)

/-- The entry that was just extended from 50 to 100 ledgers is extended again at once. -/
theorem replan_ne_nil : ¬∀ (crates : Crates) (planner : Planner)
    (observations observations' : List (LedgerKey × EntryTtl)) (currentLedger : UInt32)
    (plans : List ArchivalPlan),
    planner.window.alertHorizonLedgers.toNat < planner.constants.maxEntryTtl.toNat →
    (∀ o ∈ observations, o.2.Live ∧ o.2.currentLedger = currentLedger) →
    planExtendSplit crates planner observations currentLedger = .ok plans →
    List.Forall₂ (Extended (plans.map ArchivalPlan.extension)) observations observations' →
    planExtendSplit crates planner observations' currentLedger = .ok [] := by
  intro h
  have hnil := h sampleCrates narrowPlanner [(codeKey,⟨100,some 150⟩)]
    [(codeKey,⟨100,some 200⟩)] 100 [narrowPlan] (by decide)
    (by simp; exact ⟨150,rfl,by decide⟩) rfl (.cons extended_codeKey .nil)
  have hsafe := (planExtendSplit_eq_nil_iff _ _ _ _).mp hnil (codeKey,⟨100,some 200⟩) (by simp)
  exact absurd hsafe (by decide)

end Planner

end SorobanRentKeeper

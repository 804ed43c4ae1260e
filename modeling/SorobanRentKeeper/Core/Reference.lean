import SorobanRentKeeper.Core.Extension
import SorobanRentKeeper.Core.Split

namespace SorobanRentKeeper

open Program

theorem filter_of_map_perm {α β : Type} [DecidableEq β] {f : α → β} {p q : α → Bool} {xs : List α}
    {b : β} (h : ((xs.filter p).map f).Perm ((xs.filter q).map f))
    (hp : ∀ x ∈ xs, f x = b → p x = true) : ∀ x ∈ xs, f x = b → q x = true := by
  have hcount (r : α → Bool) : ((xs.filter r).map f).count b =
      (xs.filter fun x => decide (f x = b)).countP r := by
    rw [List.count,List.countP_map,List.countP_filter,List.countP_filter]
    apply List.countP_congr
    intro x _
    simp only [Function.comp_apply,beq_iff_eq,Bool.and_eq_true,decide_eq_true_eq]
    exact and_comm
  have hall : (xs.filter fun x => decide (f x = b)).countP p =
      (xs.filter fun x => decide (f x = b)).length := by
    rw [List.countP_eq_length]
    intro x hx
    obtain ⟨hx,hfx⟩ := List.mem_filter.mp hx
    exact hp x hx (by simpa using hfx)
  have hsame := h.count_eq b
  rw [hcount,hcount,hall] at hsame
  intro x hx hfx
  exact List.countP_eq_length.mp hsame.symm x (List.mem_filter.mpr ⟨hx,by simpa using hfx⟩)

/-- At ledger `current` an entry that lives until `liveUntil` has at most `horizon` left. -/
def Within (horizon current liveUntil : Nat) : Prop := liveUntil ≤ current + horizon

/-- An entry whose end of life lies on one side of the alert line at its own snapshot, and on the
other at `currentLedger`: it came within the horizon after its snapshot, or it is within it there
and, at `currentLedger`, either not yet or no longer living. -/
def CrossesLine (window : RiskWindow) (currentLedger : UInt32) (ttl : EntryTtl) : Prop :=
  ∃ liveUntil, ttl.liveUntilLedgerSeq = some liveUntil ∧
    let horizon := window.alertHorizonLedgers.toNat
    let snapshot := ttl.currentLedger.toNat
    let current := currentLedger.toNat
    (¬Within horizon snapshot liveUntil.toNat ∧ Within horizon current liveUntil.toNat ∧
      current < liveUntil.toNat) ∨
    (Within horizon snapshot liveUntil.toNat ∧
      (¬Within horizon current liveUntil.toNat ∨ liveUntil.toNat < current))

namespace Planner

/-- A plan judged at its own reference ledger: of the observations still live there it has those
within the horizon, and the remaining TTL of every entry can be computed and is within it. -/
structure ConsistentAt (crates : Crates) (window : RiskWindow) (currentLedger : UInt32)
    (observations : List (LedgerKey × EntryTtl)) (entries : List PlanEntry) : Prop where
  included : ∃ (picked : LedgerKey × EntryTtl → Bool) (es : List PlanEntry), es.Perm entries ∧
    List.Forall₂ (FromObservation crates currentLedger) (observations.filter picked) es ∧
    ∀ o ∈ observations, ∀ liveUntil, o.2.liveUntilLedgerSeq = some liveUntil →
      currentLedger < liveUntil →
      (picked o = true ↔
        liveUntil.toNat - currentLedger.toNat ≤ window.alertHorizonLedgers.toNat)
  remaining : ∀ e ∈ entries, e.ttl.currentLedger = currentLedger ∧ ¬e.ttl.Underflows ∧
    ∃ remaining, e.remainingTtl = some remaining ∧ remaining ≤ window.alertHorizonLedgers

private theorem map_of_entries {crates : Crates} {currentLedger : UInt32}
    {observations : List (LedgerKey × EntryTtl)} {es : List PlanEntry}
    (h : List.Forall₂ (FromObservation crates currentLedger) observations es) :
    es.map (fun e => (e.key,e.ttl.liveUntilLedgerSeq)) =
      observations.map fun o => (o.1,o.2.liveUntilLedgerSeq) := by
  induction h with
  | nil => rfl
  | cons hmade _ ih =>
    obtain ⟨_,_,rfl⟩ := hmade
    rw [List.map_cons,List.map_cons,ih]
    rfl

theorem isAtRisk_within (window : RiskWindow) {ttl : EntryTtl} {liveUntil : UInt32}
    (hu : ttl.liveUntilLedgerSeq = some liveUntil) (hlive : ttl.Live) :
    window.isAtRisk ttl = true ↔ Within window.alertHorizonLedgers.toNat ttl.currentLedger.toNat
      liveUntil.toNat := by
  obtain ⟨v,hv,hlt⟩ := hlive
  rw [hu] at hv
  cases hv
  have hle := UInt32.le_of_lt hlt
  rw [window.isAtRisk_iff ttl liveUntil hu hle]
  rw [UInt32.le_iff_toNat_le] at hle
  unfold Within
  omega

section

variable {crates : Crates} {planner : Planner} {currentLedger : UInt32}
  {observations : List (LedgerKey × EntryTtl)} {es entries : List PlanEntry}
  {o : LedgerKey × EntryTtl} {liveUntil : UInt32}

/-- What comes within the horizon on the way to a ledger where the plan is consistent was at risk to
begin with: it is in the plan, with every other observation of its key and end of life. -/
theorem ConsistentAt.within
    (h : ConsistentAt crates planner.window currentLedger observations entries)
    (hmade : List.Forall₂ (FromObservation crates currentLedger) (planner.atRisk observations) es)
    (hperm : es.Perm entries) (ho : o ∈ observations) (hlive : o.2.Live)
    (hu : o.2.liveUntilLedgerSeq = some liveUntil)
    (hnear : Within planner.window.alertHorizonLedgers.toNat currentLedger.toNat liveUntil.toNat)
    (hlater : currentLedger < liveUntil) :
    Within planner.window.alertHorizonLedgers.toNat o.2.currentLedger.toNat liveUntil.toNat := by
  obtain ⟨picked,es',hperm',hmade',hpicked⟩ := h.included
  have hsame := (hperm'.trans hperm.symm).map fun e : PlanEntry => (e.key,e.ttl.liveUntilLedgerSeq)
  rw [map_of_entries hmade',map_of_entries hmade] at hsame
  have hall : ∀ x ∈ observations, (x.1,x.2.liveUntilLedgerSeq) = (o.1,some liveUntil) →
      picked x = true := by
    intro x hx heq
    obtain ⟨_,hxu⟩ := Prod.mk.inj heq
    rw [hpicked x hx liveUntil hxu hlater]
    unfold Within at hnear
    omega
  have hin := filter_of_map_perm hsame hall o ho (by rw [hu])
  exact (isAtRisk_within planner.window hu hlive).mp hin

/-- What was at risk is in the plan, and where that is consistent its remaining TTL is defined and
within the horizon. -/
theorem ConsistentAt.remains
    (h : ConsistentAt crates planner.window currentLedger observations entries)
    (hmade : List.Forall₂ (FromObservation crates currentLedger) (planner.atRisk observations) es)
    (hperm : es.Perm entries) (ho : o ∈ planner.atRisk observations)
    (hu : o.2.liveUntilLedgerSeq = some liveUntil) :
    Within planner.window.alertHorizonLedgers.toNat currentLedger.toNat liveUntil.toNat ∧
      currentLedger ≤ liveUntil := by
  have hentry := forall₂_left (P := fun o => ∃ e ∈ entries,
    e.ttl = renormalizeTtl o.2 currentLedger) hmade fun e he o hoe => by
      obtain ⟨_,_,rfl⟩ := hoe
      exact ⟨_,hperm.mem_iff.mp he,rfl⟩
  obtain ⟨e,he,httl⟩ := hentry o ho
  obtain ⟨_,hdefined,remaining,hremaining,hle⟩ := h.remaining e he
  rw [PlanEntry.remainingTtl,httl] at hremaining
  rw [httl] at hdefined
  have hreached : currentLedger ≤ liveUntil := EntryTtl.le_of_not_underflows hdefined hu
  have hexact := sub_toUInt64 liveUntil currentLedger hreached
  simp only [EntryTtl.ttlLedgers,renormalizeTtl,hu,Option.map_some,Option.some.injEq] at hremaining
  rw [← hremaining,UInt64.le_iff_toNat_le,hexact] at hle
  refine ⟨?_,hreached⟩
  rw [UInt32.le_iff_toNat_le] at hreached
  unfold Within
  omega

/-- Where nothing crosses the line, what is still live is at risk exactly when it is within the
horizon there. -/
theorem isAtRisk_of_not_crosses {window : RiskWindow} {ttl : EntryTtl} (hlive : ttl.Live)
    (hstay : ¬CrossesLine window currentLedger ttl) (hu : ttl.liveUntilLedgerSeq = some liveUntil)
    (hlater : currentLedger < liveUntil) :
    window.isAtRisk ttl = true ↔
      liveUntil.toNat - currentLedger.toNat ≤ window.alertHorizonLedgers.toNat := by
  rw [isAtRisk_within window hu hlive]
  rw [UInt32.lt_iff_toNat_lt] at hlater
  constructor
  · intro hnear
    by_contra hfar
    refine hstay ⟨liveUntil,hu,.inr ⟨hnear,.inl ?_⟩⟩
    unfold Within
    omega
  · intro hle
    by_contra hfar
    refine hstay ⟨liveUntil,hu,.inl ⟨hfar,?_,hlater⟩⟩
    unfold Within
    omega

/-- And what was at risk has a remaining TTL there, within the horizon. -/
theorem remaining_of_not_crosses {window : RiskWindow} {ttl : EntryTtl} (hlive : ttl.Live)
    (hrisk : window.isAtRisk ttl = true) (hstay : ¬CrossesLine window currentLedger ttl) :
    ¬(renormalizeTtl ttl currentLedger).Underflows ∧ ∃ remaining,
      (renormalizeTtl ttl currentLedger).ttlLedgers = some remaining ∧
        remaining ≤ window.alertHorizonLedgers := by
  obtain ⟨liveUntil,hu,hlt⟩ := hlive
  have hnear := (isAtRisk_within window hu ⟨liveUntil,hu,hlt⟩).mp hrisk
  have hkept : Within window.alertHorizonLedgers.toNat currentLedger.toNat liveUntil.toNat ∧
      currentLedger.toNat ≤ liveUntil.toNat := by
    by_contra hleft
    apply hstay
    refine ⟨liveUntil,hu,.inr ⟨hnear,?_⟩⟩
    rcases Classical.not_and_iff_not_or_not.mp hleft with hfar|hgone
    · exact .inl hfar
    · exact .inr (Nat.lt_of_not_le hgone)
  have hreached : currentLedger ≤ liveUntil := UInt32.le_iff_toNat_le.mpr hkept.2
  refine ⟨?_,liveUntil.toUInt64 - currentLedger.toUInt64,?_,?_⟩
  · intro hunder
    obtain ⟨v,hv,hgone⟩ := hunder
    cases hu.symm.trans hv
    exact absurd hreached (UInt32.not_le.mpr hgone)
  · simp [EntryTtl.ttlLedgers,renormalizeTtl,hu]
  · rw [UInt64.le_iff_toNat_le,sub_toUInt64 liveUntil currentLedger hreached]
    unfold Within at hkept
    omega

theorem consistentAt_iff_of_perm (hlive : ∀ o ∈ observations, o.2.Live)
    (hmade : List.Forall₂ (FromObservation crates currentLedger) (planner.atRisk observations) es)
    (hperm : es.Perm entries) :
    ConsistentAt crates planner.window currentLedger observations entries ↔
      ∀ o ∈ observations, ¬CrossesLine planner.window currentLedger o.2 := by
  constructor
  · intro h o ho hcross
    obtain ⟨liveUntil,hu,hcross⟩ := hcross
    rcases hcross with ⟨hfar,hnear,hlater⟩|⟨hnear,hleft⟩
    · exact hfar (h.within hmade hperm ho (hlive o ho) hu hnear
        (UInt32.lt_iff_toNat_lt.mpr hlater))
    · have hrisk := (isAtRisk_within planner.window hu (hlive o ho)).mpr hnear
      obtain ⟨hkept,hreached⟩ := h.remains hmade hperm (List.mem_filter.mpr ⟨ho,hrisk⟩) hu
      rcases hleft with hfar|hgone
      · exact hfar hkept
      · exact absurd hgone (Nat.not_lt.mpr (UInt32.le_iff_toNat_le.mp hreached))
  · intro h
    constructor
    · refine ⟨fun o => planner.window.isAtRisk o.2,es,hperm,hmade,?_⟩
      exact fun o ho liveUntil hu hlater =>
        isAtRisk_of_not_crosses (hlive o ho) (h o ho) hu hlater
    · intro e he
      have hentry := forall₂_right (P := fun e => ∃ o ∈ planner.atRisk observations,
        e.ttl = renormalizeTtl o.2 currentLedger) hmade fun o ho e hoe => by
          obtain ⟨_,_,rfl⟩ := hoe
          exact ⟨o,ho,rfl⟩
      obtain ⟨o,ho,httl⟩ := hentry e (hperm.mem_iff.mpr he)
      obtain ⟨ho,hrisk⟩ := List.mem_filter.mp ho
      have hremaining := remaining_of_not_crosses (hlive o ho) hrisk (h o ho)
      rw [PlanEntry.remainingTtl,httl]
      exact ⟨rfl,hremaining⟩

end

/-- Risk is judged at the snapshot and recorded at the plan's ledger: both planners' results are
consistent there exactly when no observation crosses the alert line in between. -/
theorem planExtend_consistentAt_iff (crates : Crates) (planner : Planner)
    (observations : List (LedgerKey × EntryTtl)) (currentLedger : UInt32) (plan : ArchivalPlan)
    (hlive : ∀ o ∈ observations, o.2.Live)
    (h : planner.planExtend crates observations currentLedger = .ok plan) :
    (plan.referenceLedger = currentLedger ∧
      (ConsistentAt crates planner.window currentLedger observations plan.entries ↔
        ∀ o ∈ observations, ¬CrossesLine planner.window currentLedger o.2)) ∧
    ∃ parts, planner.planExtendSplit crates observations currentLedger = .ok parts ∧
      (∀ part ∈ parts, part.referenceLedger = currentLedger) ∧
      (ConsistentAt crates planner.window currentLedger observations
          (parts.flatMap ArchivalPlan.entries) ↔
        ∀ o ∈ observations, ¬CrossesLine planner.window currentLedger o.2) := by
  obtain ⟨hplan,hmade⟩ := planExtend_ok h
  have hledger : plan.referenceLedger = currentLedger := by rw [hplan]; rfl
  have hsplit := planExtendSplit_eq crates planner observations currentLedger
  rw [h] at hsplit
  refine ⟨⟨hledger,consistentAt_iff_of_perm hlive hmade (.refl _)⟩,plan.byDurability,hsplit,?_,?_⟩
  · intro part hpart
    obtain ⟨temporary,rfl⟩ := ArchivalPlan.mem_byDurability hpart
    exact hledger
  · exact consistentAt_iff_of_perm hlive hmade plan.flatMap_byDurability.symm

theorem planExtend_consistentAt_drift :
    ∃ parts, narrowPlanner.planExtendSplit sampleCrates
        [(dataKey,⟨100,some 150⟩),(codeKey,⟨101,some 151⟩)] 100 = .ok parts ∧
      (∀ part ∈ parts, part.referenceLedger = 100) ∧
      (ConsistentAt sampleCrates narrowPlanner.window 100
          [(dataKey,⟨100,some 150⟩),(codeKey,⟨101,some 151⟩)]
          (parts.flatMap ArchivalPlan.entries) ↔
        ∀ o ∈ [(dataKey,(⟨100,some 150⟩ : EntryTtl)),(codeKey,⟨101,some 151⟩)],
          ¬CrossesLine narrowPlanner.window 100 o.2) :=
  (planExtend_consistentAt_iff sampleCrates narrowPlanner
    [(dataKey,⟨100,some 150⟩),(codeKey,⟨101,some 151⟩)] 100 _
    (List.forall_mem_cons.mpr ⟨⟨150,rfl,by decide⟩,
      List.forall_mem_singleton.mpr ⟨151,rfl,by decide⟩⟩)
    (exists_eq_ok_of_isSome (by decide +kernel)).choose_spec).2

theorem planExtend_not_consistentAt : ¬∀ (crates : Crates) (planner : Planner)
    (observations : List (LedgerKey × EntryTtl)) (currentLedger : UInt32) (plan : ArchivalPlan),
    (∀ o ∈ observations, o.2.Live) →
    planner.planExtend crates observations currentLedger = .ok plan →
    ConsistentAt crates planner.window currentLedger observations plan.entries := by
  intro h
  have hplan := h sampleCrates narrowPlanner [(codeKey,⟨110,some 208⟩)] 100
    (mkPlan narrowPlanner 100 [extendEntry 100 (codeKey,⟨110,some 208⟩)
      "AAAABwAAAAAAAAAAAAAAAAAAAAAAAAAAAAAAAAAAAAAAAAAA"])
    (List.forall_mem_singleton.mpr ⟨208,rfl,by decide⟩) (eq_ok_of_toOption (by decide +kernel))
  obtain ⟨_,_,remaining,hremaining,hle⟩ := hplan.remaining _ List.mem_cons_self
  cases hremaining
  exact absurd hle (by decide)

end Planner

end SorobanRentKeeper

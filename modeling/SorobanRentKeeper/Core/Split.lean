import SorobanRentKeeper.Core.Restore

namespace SorobanRentKeeper

open Program

def PlanEntry.isTemporary (e : PlanEntry) : Bool := decide (e.durability = some .temporary)

/-- The entries of one durability class, in their order, under the plan's own data. -/
def ArchivalPlan.ofClass (plan : ArchivalPlan) (temporary : Bool) : ArchivalPlan :=
  { plan with entries := plan.entries.filter fun e => e.isTemporary == temporary }

/-- A plan taken apart by durability, persistent before temporary, without empty parts. -/
def ArchivalPlan.byDurability (plan : ArchivalPlan) : List ArchivalPlan :=
  ([false,true].map plan.ofClass).filter fun part => !part.isEmpty

theorem ArchivalPlan.mem_byDurability {plan part : ArchivalPlan} (h : part ∈ plan.byDurability) :
    ∃ temporary, part = plan.ofClass temporary := by
  obtain ⟨temporary,_,hpart⟩ := List.mem_map.mp (List.mem_filter.mp h).1
  exact ⟨temporary,hpart.symm⟩

theorem ArchivalPlan.flatMap_byDurability (plan : ArchivalPlan) :
    (plan.byDurability.flatMap ArchivalPlan.entries).Perm plan.entries := by
  have hskip (part : ArchivalPlan) (rest : List ArchivalPlan) :
      ((part::rest).filter fun p => !p.isEmpty).flatMap ArchivalPlan.entries =
        part.entries ++ (rest.filter fun p => !p.isEmpty).flatMap ArchivalPlan.entries := by
    cases hentries : part.entries with
    | nil => simp [ArchivalPlan.isEmpty,hentries]
    | cons e es => simp [ArchivalPlan.isEmpty,hentries]
  have hparts : plan.byDurability.flatMap ArchivalPlan.entries =
      (plan.entries.filter fun e => !e.isTemporary) ++
        plan.entries.filter PlanEntry.isTemporary := by
    unfold byDurability
    rw [List.map_cons,List.map_cons,hskip,hskip]
    simp [ofClass]
  rw [hparts]
  exact List.perm_append_comm.trans (List.filter_append_perm _ _)

namespace Planner

theorem splitLoop_eq (crates : Crates) (planner : Planner) (currentLedger : UInt32)
    (observations : List (LedgerKey × EntryTtl)) (entries : List PlanEntry) :
    splitLoop crates planner currentLedger observations (entries.filter PlanEntry.isTemporary)
        (entries.filter fun e => !e.isTemporary) =
      (pushEntries crates (fun o => planner.window.isAtRisk o.2) (extendEntry currentLedger)
        observations entries).map fun es =>
          (es.filter PlanEntry.isTemporary,es.filter fun e => !e.isTemporary) := by
  induction observations generalizing entries with
  | nil => rfl
  | cons o observations ih =>
    unfold splitLoop pushEntries
    cases hrisk : planner.window.isAtRisk o.2 with
    | false => exact ih entries
    | true =>
      cases hrender : LedgerKeys.render crates o.1 with
      | error e => rfl
      | ok keyXdr =>
        have hrest := ih (entries ++ [extendEntry currentLedger o keyXdr])
        rw [List.filter_append,List.filter_append] at hrest
        by_cases hd : durabilityOf o.1 = some .temporary
        · have htemporary : (extendEntry currentLedger o keyXdr).isTemporary = true := by
            simp [PlanEntry.isTemporary,extendEntry,hd]
          simp only [List.filter_singleton,htemporary,Bool.not_true,cond_true,cond_false,
            List.append_nil] at hrest
          simpa [extendEntry,hd] using hrest
        · have htemporary : (extendEntry currentLedger o keyXdr).isTemporary = false := by
            simp [PlanEntry.isTemporary,extendEntry,hd]
          simp only [List.filter_singleton,htemporary,Bool.not_false,cond_true,cond_false,
            List.append_nil] at hrest
          simp only [Bool.not_true,Bool.false_eq_true,if_false]
          split
          · next hdur => exact absurd hdur hd
          · exact hrest

/-- The split planner is the plain one followed by taking the plan apart. -/
theorem planExtendSplit_eq (crates : Crates) (planner : Planner)
    (observations : List (LedgerKey × EntryTtl)) (currentLedger : UInt32) :
    planner.planExtendSplit crates observations currentLedger =
      (planner.planExtend crates observations currentLedger).map ArchivalPlan.byDurability := by
  have hloop := splitLoop_eq crates planner currentLedger observations []
  unfold planExtendSplit planExtend
  rw [show splitLoop crates planner currentLedger observations [] [] = _ from hloop]
  cases pushEntries crates (fun o => planner.window.isAtRisk o.2) (extendEntry currentLedger)
      observations [] with
  | error e => rfl
  | ok es =>
    simp only [Except.map,ArchivalPlan.byDurability,ArchivalPlan.ofClass,mkPlan,List.map_cons,
      List.map_nil,beq_true,beq_false]

theorem ofClass_footprint {crates : Crates} {planner : Planner} {currentLedger : UInt32}
    {observations : List (LedgerKey × EntryTtl)} {plan : ArchivalPlan}
    (h : List.Forall₂ (FromObservation crates currentLedger) (planner.atRisk observations)
      plan.entries) (temporary : Bool) :
    (plan.ofClass temporary).footprint = planner.classKeys temporary observations := by
  have hpushed : List.Forall₂ (PushedFrom crates (extendEntry currentLedger))
      (planner.atRisk observations) plan.entries := h
  have hkeys := keys_of_pushed (fun _ _ => rfl) hpushed
  have hrendered := rendered_of_pushed (fun _ _ => ⟨rfl,rfl,rfl⟩) hpushed
  unfold classKeys ArchivalPlan.footprint ArchivalPlan.ofClass
  rw [← hkeys,List.filter_map]
  congr 1
  apply List.filter_congr
  intro e he
  simp [PlanEntry.isTemporary,isTemporaryKey,(hrendered e he).2]

theorem planExtendSplit_parts {crates : Crates} {planner : Planner}
    {observations : List (LedgerKey × EntryTtl)} {currentLedger : UInt32}
    {plans : List ArchivalPlan}
    (h : planExtendSplit crates planner observations currentLedger = .ok plans) :
    ∃ plan, plan = mkPlan planner currentLedger plan.entries ∧
      List.Forall₂ (FromObservation crates currentLedger) (planner.atRisk observations)
        plan.entries ∧
      plans = plan.byDurability := by
  rw [planExtendSplit_eq] at h
  obtain ⟨plan,hplan,rfl⟩ := map_eq_ok h
  obtain ⟨hmk,hmade⟩ := planExtend_ok hplan
  exact ⟨plan,hmk,hmade,rfl⟩

/-- What a successful split returns: one extend plan for each non-empty class of at-risk keys,
all under the planner's passphrase, target and reference ledger. -/
theorem planExtendSplit_ok {crates : Crates} {planner : Planner}
    {observations : List (LedgerKey × EntryTtl)} {currentLedger : UInt32}
    {plans : List ArchivalPlan}
    (h : planExtendSplit crates planner observations currentLedger = .ok plans) :
    plans.map ArchivalPlan.footprint = planner.classes observations ∧
    ∀ plan ∈ plans, plan.networkPassphrase = planner.networkPassphrase ∧
      plan.referenceLedger = currentLedger ∧
      plan.extendTo = planner.window.extendToLedgers planner.constants ∧
      0 < plan.len ∧ ∀ e ∈ plan.entries, e.kind = .extend := by
  obtain ⟨plan,hplan,hmade,rfl⟩ := planExtendSplit_parts h
  have hkind : ∀ e ∈ plan.entries, e.kind = .extend := by
    refine forall₂_right hmade ?_
    intro o _ e hpushed
    obtain ⟨keyXdr,_,rfl⟩ := hpushed
    rfl
  constructor
  · have hempty : (fun part : ArchivalPlan => !part.isEmpty) =
        (fun keys : List LedgerKey => !keys.isEmpty) ∘ ArchivalPlan.footprint := by
      funext part
      simp [ArchivalPlan.isEmpty,ArchivalPlan.footprint]
    unfold ArchivalPlan.byDurability
    rw [hempty,← List.filter_map]
    simp only [List.map_cons,List.map_nil,ofClass_footprint hmade]
    rfl
  · intro part hpart
    have hne := (List.mem_filter.mp hpart).2
    obtain ⟨temporary,rfl⟩ := ArchivalPlan.mem_byDurability hpart
    have hpos : (plan.ofClass temporary).entries ≠ [] := by simpa [ArchivalPlan.isEmpty] using hne
    rw [hplan]
    refine ⟨rfl,rfl,rfl,List.length_pos_iff.mpr hpos,?_⟩
    intro e he
    exact hkind e (List.mem_of_mem_filter he)

theorem planExtendSplit_entries {crates : Crates} {planner : Planner}
    {observations : List (LedgerKey × EntryTtl)} {currentLedger : UInt32}
    {plans : List ArchivalPlan}
    (h : planExtendSplit crates planner observations currentLedger = .ok plans) :
    ∀ plan ∈ plans, ∀ e ∈ plan.entries, ∃ o ∈ planner.atRisk observations,
      FromObservation crates currentLedger o e := by
  obtain ⟨plan,_,hmade,rfl⟩ := planExtendSplit_parts h
  have hfrom := forall₂_right
    (P := fun e => ∃ o ∈ planner.atRisk observations, FromObservation crates currentLedger o e)
    hmade fun o ho e h => ⟨o,ho,h⟩
  intro part hpart e he
  obtain ⟨temporary,rfl⟩ := ArchivalPlan.mem_byDurability hpart
  exact hfrom e (List.mem_of_mem_filter he)

/-- When two plans are returned, the first is the persistent one, the second the temporary
one, and they share no key. -/
theorem planExtendSplit_pair {crates : Crates} {planner : Planner}
    {observations : List (LedgerKey × EntryTtl)} {currentLedger : UInt32}
    {first second : ArchivalPlan}
    (h : planExtendSplit crates planner observations currentLedger = .ok [first,second]) :
    (∀ key ∈ first.footprint, isTemporaryKey key = false) ∧
    (∀ key ∈ second.footprint, isTemporaryKey key = true) ∧ first.footprint ≠ second.footprint := by
  obtain ⟨hclasses,hall⟩ := planExtendSplit_ok h
  have hclass := fun b => mem_classKeys planner b observations
  have hlen : 0 < first.footprint.length := by
    rw [ArchivalPlan.length_footprint]
    exact (hall first (by simp)).2.2.2.1
  have hpair : first.footprint = planner.classKeys false observations ∧
      second.footprint = planner.classKeys true observations := by
    unfold classes at hclasses
    rw [List.filter_cons,List.filter_cons,List.filter_nil] at hclasses
    split_ifs at hclasses <;> simp at hclasses
    exact hclasses
  have hfirst : ∀ key ∈ first.footprint, isTemporaryKey key = false := by
    intro key hkey
    rw [hpair.1] at hkey
    exact ((hclass false key).mp hkey).2
  have hsecond : ∀ key ∈ second.footprint, isTemporaryKey key = true := by
    intro key hkey
    rw [hpair.2] at hkey
    exact ((hclass true key).mp hkey).2
  refine ⟨hfirst,hsecond,?_⟩
  intro heq
  obtain ⟨key,hkey⟩ := List.exists_mem_of_length_pos hlen
  have hfalse := hfirst key hkey
  rw [heq] at hkey
  rw [hsecond key hkey] at hfalse
  cases hfalse

theorem planExtendSplit_of_render (crates : Crates) (planner : Planner)
    (observations : List (LedgerKey × EntryTtl)) (currentLedger : UInt32)
    (h : ∀ o ∈ planner.atRisk observations, ∃ keyXdr, LedgerKeys.render crates o.1 = .ok keyXdr) :
    ∃ plans, planExtendSplit crates planner observations currentLedger = .ok plans := by
  obtain ⟨plan,hplan⟩ := planExtend_of_render crates planner observations currentLedger h
  refine ⟨plan.byDurability,?_⟩
  rw [planExtendSplit_eq,hplan]
  rfl

theorem planExtendSplit_eq_nil_iff (crates : Crates) (planner : Planner)
    (observations : List (LedgerKey × EntryTtl)) (currentLedger : UInt32) :
    planExtendSplit crates planner observations currentLedger = .ok [] ↔
      ∀ o ∈ observations, planner.window.isAtRisk o.2 = false := by
  constructor
  · intro h o ho
    have hclasses := (planExtendSplit_ok h).1
    by_contra hrisk
    have hrisk : planner.window.isAtRisk o.2 = true := by simpa using hrisk
    obtain ⟨keys,hkeys,_⟩ := (mem_classes planner observations o.1).mpr ⟨o.2,ho,hrisk⟩
    rw [← hclasses] at hkeys
    simp at hkeys
  · intro h
    have hnone : planner.atRisk observations = [] := by
      rw [atRisk,List.filter_eq_nil_iff]
      intro o ho
      simp [h o ho]
    obtain ⟨plans,hplans⟩ := planExtendSplit_of_render crates planner observations currentLedger
      (by simp [hnone])
    have hclasses := (planExtendSplit_ok hplans).1
    have hempty : planner.classes observations = [] := by simp [classes,classKeys,hnone]
    rw [hempty,List.map_eq_nil_iff] at hclasses
    rwa [hclasses] at hplans

/-- What a split makes of the plan that `plan_extend` makes. -/
structure SplitOf (planner : Planner) (currentLedger : UInt32) (plan : ArchivalPlan)
    (parts : List ArchivalPlan) : Prop where
  classes : parts = ([false,true].map plan.ofClass).filter fun part => !part.isEmpty
  once : (parts.flatMap ArchivalPlan.entries).Perm plan.entries
  ordered : ∀ part ∈ parts, part.entries.Sublist plan.entries
  metadata : ∀ part ∈ plan::parts, part.networkPassphrase = planner.networkPassphrase ∧
    part.referenceLedger = currentLedger ∧ part.extendTo.toNat =
      min planner.window.alertHorizonLedgers.toNat planner.constants.maxEntryTtl.toNat

theorem splitOf_byDurability {crates : Crates} {planner : Planner}
    {observations : List (LedgerKey × EntryTtl)} {currentLedger : UInt32} {plan : ArchivalPlan}
    (h : planner.planExtend crates observations currentLedger = .ok plan) :
    SplitOf planner currentLedger plan plan.byDurability := by
  have hplan := (planExtend_ok h).1
  have htarget := planner.window.extendToLedgers_toNat planner.constants
  constructor
  · rfl
  · exact plan.flatMap_byDurability
  · intro part hpart
    obtain ⟨temporary,rfl⟩ := ArchivalPlan.mem_byDurability hpart
    exact List.filter_sublist
  · intro part hpart
    rcases List.mem_cons.mp hpart with rfl|hpart
    · rw [hplan]
      exact ⟨rfl,rfl,htarget⟩
    · obtain ⟨temporary,rfl⟩ := ArchivalPlan.mem_byDurability hpart
      rw [hplan]
      exact ⟨rfl,rfl,htarget⟩

/-- The two planners fail together, with one error, and succeed together, the split with the
entries of the plain plan taken apart by durability. -/
theorem planExtendSplit_splitOf (crates : Crates) (planner : Planner)
    (observations : List (LedgerKey × EntryTtl)) (currentLedger : UInt32) :
    (∀ err, planner.planExtendSplit crates observations currentLedger = .error err ↔
      planner.planExtend crates observations currentLedger = .error err) ∧
    ∀ plan, planner.planExtend crates observations currentLedger = .ok plan →
      ∃ parts, planner.planExtendSplit crates observations currentLedger = .ok parts ∧
        SplitOf planner currentLedger plan parts := by
  have heq := planExtendSplit_eq crates planner observations currentLedger
  constructor
  · intro err
    rw [heq]
    cases planner.planExtend crates observations currentLedger with
    | error e => simp [Except.map]
    | ok plan => simp [Except.map]
  · intro plan hplan
    refine ⟨plan.byDurability,?_,splitOf_byDurability hplan⟩
    rw [heq,hplan]
    rfl

theorem planExtendSplit_splitOf_mixed : ∃ parts,
    widePlanner.planExtendSplit sampleCrates [(dataKey,⟨100,some 150⟩),(codeKey,⟨100,some 150⟩)]
      100 = .ok parts ∧
    SplitOf widePlanner 100 (mkPlan widePlanner 100
      ([(dataKey,⟨100,some 150⟩),(codeKey,⟨100,some 150⟩)].map fun o =>
        extendEntry 100 o (String.ofList (base64 o.1.xdr)))) parts :=
  (planExtendSplit_splitOf sampleCrates widePlanner
    [(dataKey,⟨100,some 150⟩),(codeKey,⟨100,some 150⟩)] 100).2 _
    (eq_ok_of_toOption (by decide +kernel))

end Planner

end SorobanRentKeeper

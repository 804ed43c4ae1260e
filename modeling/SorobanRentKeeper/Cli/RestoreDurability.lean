import SorobanRentKeeper.Cli.Validity

namespace SorobanRentKeeper

open Program

variable {σ : Type}

/-- A plan whose entries can all be restored: none is a temporary contract-data entry. -/
def ArchivalPlan.Restorable (plan : ArchivalPlan) : Prop :=
  ∀ e ∈ plan.entries, isTemporaryKey e.key = false

/-- The keys of a restore plan are those marked archived. -/
theorem Planner.planRestore_keys {crates : Crates} {planner : Planner}
    {observations : List (LedgerKey × ArchivedEntryInfo)} {currentLedger : UInt32}
    {plan : ArchivalPlan}
    (h : planner.planRestore crates observations currentLedger = .ok plan) :
    plan.footprint = (observations.filter fun o => o.2.isArchived).map Prod.fst :=
  keys_of_pushed (fun _ _ => rfl) (planRestore_ok h).2

theorem ArchivalPlan.restorable_iff_footprint (plan : ArchivalPlan) :
    plan.Restorable ↔ ∀ key ∈ plan.footprint, isTemporaryKey key = false := by
  unfold Restorable footprint
  rw [List.forall_mem_map]

/-- `plan_restore` looks at the mark only: its plan is restorable exactly when no temporary entry
is marked. -/
theorem Planner.planRestore_restorable {crates : Crates} {planner : Planner}
    {observations : List (LedgerKey × ArchivedEntryInfo)} {currentLedger : UInt32}
    {plan : ArchivalPlan}
    (h : planner.planRestore crates observations currentLedger = .ok plan) :
    plan.Restorable ↔
      ∀ o ∈ observations, o.2.isArchived = true → isTemporaryKey o.1 = false := by
  rw [plan.restorable_iff_footprint,planRestore_keys h,List.forall_mem_map]
  simp only [List.mem_filter,and_imp]

namespace Cli

theorem parseDurability_ok {name : String} {durability : ContractDataDurability}
    (h : parseDurability name = .ok durability) :
    durability = .temporary ↔ name = "temporary" := by
  unfold parseDurability at h
  by_cases hpersistent : name = "persistent"
  · rw [if_pos hpersistent] at h
    cases h
    simp [hpersistent]
  · rw [if_neg hpersistent] at h
    by_cases htemporary : name = "temporary"
    · rw [if_pos htemporary] at h
      cases h
      simp [htemporary]
    · rw [if_neg htemporary] at h
      cases h

/-- All keys of a command have the durability of its option. -/
theorem planKeys_durability {crates : Crates} {args : PlanArgs} {keys : List LedgerKey}
    (h : planKeys crates args = .ok keys) :
    ∀ key ∈ keys, isTemporaryKey key = decide (args.durability = "temporary") := by
  obtain ⟨bytes,_,h⟩ := bind_eq_ok h
  obtain ⟨durability,hdurability,h⟩ := bind_eq_ok h
  have hname := parseDurability_ok hdurability
  refine forall₂_right (mapM_eq_ok_iff.mp h) ?_
  intro xdr _ key hkey
  obtain ⟨scVal,_,hkey⟩ := bind_eq_ok hkey
  cases Except.ok.inj hkey
  cases durability with
  | temporary =>
    simp [isTemporaryKey,durabilityOf,LedgerKeys.contractData,Durability.fromXdr,← hname]
  | persistent =>
    simp [isTemporaryKey,durabilityOf,LedgerKeys.contractData,Durability.fromXdr,← hname]

/-- What `plan-restore` plans: some of its keys, at least one. -/
theorem restorePlan_keys {crates : Crates} {opts : ConnectOpts} {args : PlanArgs}
    {keys : List LedgerKey} {observations : List Observation} {plan : ArchivalPlan}
    (h : restorePlan crates opts args keys observations = .ok plan) :
    plan.footprint ≠ [] ∧ ∀ key ∈ plan.footprint, key ∈ keys := by
  obtain ⟨hne,h⟩ := check_eq_ok h
  obtain ⟨restored,hrestored,h⟩ := bind_eq_ok h
  cases Except.ok.inj h
  have hkeys := Planner.planRestore_keys (mapError_eq_ok hrestored)
  have hall : (archivedEntries keys observations).filter (fun o => o.2.isArchived) =
      archivedEntries keys observations := by
    rw [List.filter_eq_self]
    intro o ho
    obtain ⟨_,_,rfl⟩ := List.mem_map.mp ho
    rfl
  have hsame : ArchivalPlan.footprint { restored with
      extendTo := daysToExtendTo args.ttlDays
      entries := restored.entries.map fun e =>
        { e with ttl := ⟨currentLedger observations,none⟩ } } =
      restored.footprint := by
    simp [ArchivalPlan.footprint]
  rw [hsame,hkeys,hall]
  constructor
  · simpa using hne
  · intro key hkey
    obtain ⟨o,ho,rfl⟩ := List.mem_map.mp hkey
    obtain ⟨x,hx,rfl⟩ := List.mem_map.mp ho
    exact (List.of_mem_zip (List.mem_of_mem_filter hx)).1

end Cli

/-- The plan `plan-restore` writes is restorable exactly when it was not asked for temporary
entries: of those all are in it that are gone. -/
theorem Cli.emits_restorable {tool : Tool σ} {opts : ConnectOpts} {args : PlanArgs} {s t : Shell σ}
    {plan : ArchivalPlan} (h : Cli.Emits tool opts args .restore s plan t) :
    plan.Restorable ↔ args.durability ≠ "temporary" := by
  obtain ⟨_,s',hbuild⟩ := h
  obtain ⟨_,_,keys,observed,hkeys,hplan⟩ := Cli.buildPlan_ok hbuild
  have hdurability := Cli.planKeys_durability hkeys
  obtain ⟨hne,hsub⟩ := Cli.restorePlan_keys hplan
  rw [plan.restorable_iff_footprint]
  constructor
  · intro h htemporary
    obtain ⟨key,hkey⟩ := List.exists_mem_of_ne_nil _ hne
    have hfalse := h key hkey
    rw [hdurability key (hsub key hkey),htemporary] at hfalse
    cases hfalse
  · intro h key hkey
    rw [hdurability key (hsub key hkey)]
    simpa using h

/-- No path to a restore plan consults durability: `plan_restore` plans every entry marked, and
`plan-restore` whatever it is asked for. -/
theorem restorable_iff :
    (∀ (crates : Crates) (planner : Planner) (observations : List (LedgerKey × ArchivedEntryInfo))
      (currentLedger : UInt32) (plan : ArchivalPlan),
      planner.planRestore crates observations currentLedger = .ok plan →
      (plan.Restorable ↔
        ∀ o ∈ observations, o.2.isArchived = true → isTemporaryKey o.1 = false)) ∧
    ∀ (tool : Tool σ) (opts : ConnectOpts) (args : PlanArgs) (s t : Shell σ)
      (plan : ArchivalPlan), Cli.Emits tool opts args .restore s plan t →
      (plan.Restorable ↔ args.durability ≠ "temporary") :=
  ⟨fun _ _ _ _ _ h => Planner.planRestore_restorable h,
    fun _ _ _ _ _ _ h => Cli.emits_restorable h⟩

namespace Cli

/-- The public network's node, once both sample entries are gone. -/
def forgetfulNode : Node Unit := { publicNode with
  getLedgerEntries := fun _ s => (.ok ⟨none,100⟩,s) }

def forgetfulTool : Tool Unit :=
  { sampleTool 100000 with node := forgetfulNode }

/-- What `plan-restore` builds of the sample data entry. -/
def restoredPlan : ArchivalPlan :=
  ⟨"Test SDF Network ; September 2015",100,518400,
    [⟨dataKey,"AAAABgAAAAEAAAAAAAAAAAAAAAAAAAAAAAAAAAAAAAAAAAAAAAAAAAAAAAMAAAAHAAAAAA==",.restore,
      some .temporary,⟨100,none⟩⟩]⟩

/-- What running it leaves. -/
def restoredShell : Shell Unit :=
  final (run forgetfulTool (ConnectOpts.parse none none none none) (sampleArgs none) .restore
    ⟨emptyWorld,"",[]⟩)

theorem emits_restoredPlan :
    Emits forgetfulTool (ConnectOpts.parse none none none none) (sampleArgs none) .restore
      ⟨emptyWorld,"",[]⟩ restoredPlan restoredShell :=
  ⟨eq_ok_of_value (by decide +kernel),_,eq_ok_of_value (by decide +kernel)⟩

end Cli

/-- What `plan_restore` makes of both sample entries, gone. -/
def bothRestored : ArchivalPlan :=
  widePlanner.mkPlan 100 ([(codeKey,⟨100,true⟩),(dataKey,⟨100,true⟩)].map fun o =>
    Planner.restoreEntry 100 o (String.ofList (base64 o.1.xdr)))

theorem planRestore_both : widePlanner.planRestore sampleCrates
    [(codeKey,⟨100,true⟩),(dataKey,⟨100,true⟩)] 100 = .ok bothRestored :=
  eq_ok_of_toOption (by decide +kernel)

theorem restorable_iff_both :
    (bothRestored.Restorable ↔ ∀ o ∈ [(codeKey,(⟨100,true⟩ : ArchivedEntryInfo)),
      (dataKey,⟨100,true⟩)], o.2.isArchived = true → isTemporaryKey o.1 = false) ∧
    (Cli.restoredPlan.Restorable ↔ (Cli.sampleArgs none).durability ≠ "temporary") :=
  ⟨(restorable_iff (σ := Unit)).1 sampleCrates widePlanner _ 100 _ planRestore_both,
    restorable_iff.2 Cli.forgetfulTool _ (Cli.sampleArgs none) _ _ _ Cli.emits_restoredPlan⟩

/-- A temporary entry that is gone joins a code entry in one plan, and is planned alone. -/
theorem not_restorable :
    (¬∀ (crates : Crates) (planner : Planner)
      (observations : List (LedgerKey × ArchivedEntryInfo)) (currentLedger : UInt32)
      (plan : ArchivalPlan), planner.planRestore crates observations currentLedger = .ok plan →
      plan.Restorable) ∧
    ¬∀ (tool : Tool Unit) (opts : ConnectOpts) (args : PlanArgs) (s t : Shell Unit)
      (plan : ArchivalPlan), Cli.Emits tool opts args .restore s plan t → plan.Restorable := by
  constructor
  · intro h
    have hplan := h sampleCrates widePlanner _ 100 _ planRestore_both
    exact absurd (hplan _ (List.mem_cons_of_mem _ List.mem_cons_self)) (by decide)
  · intro h
    have hplan := h Cli.forgetfulTool _ (Cli.sampleArgs none) _ _ _ Cli.emits_restoredPlan
    exact absurd (hplan _ List.mem_cons_self) (by decide)

end SorobanRentKeeper

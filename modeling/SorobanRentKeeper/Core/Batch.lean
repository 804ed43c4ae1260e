import SorobanRentKeeper.Core.Split
import SorobanRentKeeper.Core.Tx

namespace SorobanRentKeeper

namespace Planner

theorem buildUnsigned_iff_len (crates : Crates) (builder : TxBuilder) (plan : ArchivalPlan)
    (source : PublicKey) (seqNum : Int64) :
    (∃ envelope, builder.buildUnsigned crates plan source seqNum = .ok envelope) ↔
      0 < plan.len ∧ plan.len ≤ 100 := by
  constructor
  · intro h
    obtain ⟨envelope,hbuild⟩ := h
    exact TxBuilder.len_of_buildUnsigned hbuild
  · intro h
    obtain ⟨_,_,inner,hbuild,_⟩ :=
      TxBuilder.buildUnsigned_of_len crates builder plan source seqNum h.1 h.2
    exact ⟨.tx inner,hbuild⟩

theorem len_le_iff_classKeys {crates : Crates} {planner : Planner}
    {observations : List (LedgerKey × EntryTtl)} {currentLedger : UInt32}
    {plans : List ArchivalPlan} (n : Nat)
    (h : planExtendSplit crates planner observations currentLedger = .ok plans) :
    (∀ plan ∈ plans, plan.len ≤ n) ↔
      ∀ temporary, (planner.classKeys temporary observations).length ≤ n := by
  have hclasses := (planExtendSplit_ok h).1
  have hlen : (∀ plan ∈ plans, plan.len ≤ n) ↔
      ∀ keys ∈ planner.classes observations, keys.length ≤ n := by
    rw [← hclasses]
    simp
  rw [hlen]
  constructor
  · intro hall temporary
    by_cases hempty : planner.classKeys temporary observations = []
    · simp [hempty]
    · apply hall
      rw [classes,List.mem_filter]
      refine ⟨?_,by simpa using hempty⟩
      cases temporary <;> simp
  · intro hall keys hkeys
    simp only [classes,List.mem_filter,List.mem_cons,List.not_mem_nil,or_false] at hkeys
    rcases hkeys.1 with rfl|rfl
    · exact hall false
    · exact hall true

/-- Every plan is accepted by the builder exactly when no class of at-risk entries is larger
than one footprint. -/
theorem planExtendSplit_built_iff (crates : Crates) (planner : Planner)
    (observations : List (LedgerKey × EntryTtl)) (currentLedger : UInt32)
    (plans : List ArchivalPlan) (builder : TxBuilder) (source : PublicKey) (seqNum : Int64)
    (h : planExtendSplit crates planner observations currentLedger = .ok plans) :
    (∀ plan ∈ plans, ∃ envelope, builder.buildUnsigned crates plan source seqNum = .ok envelope) ↔
      ∀ temporary, (planner.classKeys temporary observations).length ≤ 100 := by
  rw [← len_le_iff_classKeys 100 h]
  have hpos := (planExtendSplit_ok h).2
  constructor
  · intro hall plan hplan
    exact ((buildUnsigned_iff_len crates builder plan source seqNum).mp (hall plan hplan)).2
  · intro hall plan hplan
    obtain ⟨_,_,_,hlen,_⟩ := hpos plan hplan
    exact (buildUnsigned_iff_len crates builder plan source seqNum).mpr ⟨hlen,hall plan hplan⟩

def samplePlanner : Planner :=
  ⟨TtlConstants.stellarPublic,⟨200⟩,"Test SDF Network ; September 2015"⟩

theorem planExtendSplit_built_codeKey :
    (∀ plan ∈ [mkPlan samplePlanner 100 [extendEntry 100 (codeKey,⟨100,some 150⟩)
      "AAAABwAAAAAAAAAAAAAAAAAAAAAAAAAAAAAAAAAAAAAAAAAA"]],
      ∃ envelope, (TxBuilder.new samplePlanner.networkPassphrase).buildUnsigned sampleCrates plan
        ⟨Vector.replicate 32 0⟩ 8 = .ok envelope) ↔
      ∀ temporary, (samplePlanner.classKeys temporary [(codeKey,⟨100,some 150⟩)]).length ≤ 100 :=
  planExtendSplit_built_iff sampleCrates samplePlanner [(codeKey,⟨100,some 150⟩)] 100 _ _ _ _ rfl

/-- One code entry for each of 101 hashes, with 50 ledgers left. -/
def crowd : List (LedgerKey × EntryTtl) :=
  (List.range 101).map fun i =>
    (.contractCode (Vector.replicate 32 (UInt8.ofNat i)),⟨100,some 150⟩)

/-- 101 at-risk code entries make a plan that the builder refuses. -/
theorem planExtendSplit_not_built : ¬∀ (crates : Crates) (planner : Planner)
    (observations : List (LedgerKey × EntryTtl)) (currentLedger : UInt32)
    (plans : List ArchivalPlan) (builder : TxBuilder) (source : PublicKey) (seqNum : Int64),
    planExtendSplit crates planner observations currentLedger = .ok plans →
    ∀ plan ∈ plans, ∃ envelope, builder.buildUnsigned crates plan source seqNum = .ok envelope := by
  intro h
  obtain ⟨plans,hplans⟩ := planExtendSplit_of_render sampleCrates samplePlanner crowd 100
    (fun _ _ => ⟨_,rfl⟩)
  have hsmall : ∀ plan ∈ plans, plan.len ≤ 100 := by
    intro plan hplan
    have hbuilt := h sampleCrates samplePlanner crowd 100 plans
      (TxBuilder.new samplePlanner.networkPassphrase) ⟨Vector.replicate 32 0⟩ 8 hplans plan hplan
    exact ((buildUnsigned_iff_len _ _ plan _ _).mp hbuilt).2
  have hle := (len_le_iff_classKeys 100 hplans).mp hsmall false
  have hmany : 100 < (samplePlanner.classKeys false crowd).length := by decide
  omega

end Planner

end SorobanRentKeeper

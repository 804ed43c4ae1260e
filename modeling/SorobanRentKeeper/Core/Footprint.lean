import SorobanRentKeeper.Core.Tx

namespace SorobanRentKeeper

/-- The side of a footprint an archival operation acts on. -/
def LedgerFootprint.actedOn (footprint : LedgerFootprint) : OperationKind → List LedgerKey
  | .extend => footprint.readOnly.val
  | .restore => footprint.readWrite.val

/-- The side that makes the operation malformed unless it is empty. -/
def LedgerFootprint.excluded (footprint : LedgerFootprint) : OperationKind → List LedgerKey
  | .extend => footprint.readWrite.val
  | .restore => footprint.readOnly.val

/-- The operation of a plan whose entries are all of one kind. -/
def ArchivalPlan.operation (plan : ArchivalPlan) : OperationKind → OperationBody
  | .extend => .extendFootprintTtl ⟨.v0,plan.extendTo⟩
  | .restore => .restoreFootprint ⟨.v0⟩

/-- An envelope the protocol executes as the plan intends: one operation of the plan's kind,
the plan's keys in order on the side it acts on, and nothing on the other side. -/
def WellPlaced (plan : ArchivalPlan) (kind : OperationKind) (envelope : TransactionEnvelope) :
    Prop :=
  ∃ inner op data, envelope = .tx inner ∧ inner.tx.operations.val = [op] ∧
    op.body = plan.operation kind ∧ inner.tx.ext = .v1 data ∧
    data.resources.footprint.actedOn kind = plan.footprint ∧
    data.resources.footprint.excluded kind = []

namespace TxBuilder

theorem operationBody_of_kind (plan : ArchivalPlan) (kind : OperationKind) (hpos : 0 < plan.len)
    (hkind : ∀ e ∈ plan.entries, e.kind = kind) :
    operationBody plan = .ok (plan.operation kind) := by
  unfold operationBody
  cases he : plan.entries with
  | nil => simp [ArchivalPlan.len,he] at hpos
  | cons e es =>
    have hk : e.kind = kind := hkind e (by simp [he])
    cases kind <;> simp [hk,ArchivalPlan.operation]

theorem buildUnsigned_of_kind (crates : Crates) (builder : TxBuilder) (plan : ArchivalPlan)
    (source : PublicKey) (seqNum : Int64) (kind : OperationKind) (hpos : 0 < plan.len)
    (hle : plan.len ≤ 100) (hkind : ∀ e ∈ plan.entries, e.kind = kind) :
    ∃ inner op data, builder.buildUnsigned crates plan source seqNum = .ok (.tx inner) ∧
      inner.tx.operations.val = [op] ∧ op.body = plan.operation kind ∧ inner.tx.ext = .v1 data ∧
      data.resources.footprint.readWrite.val = plan.footprint ∧
      data.resources.footprint.readOnly.val = [] := by
  obtain ⟨body,data,inner,hbuild,hbuilt⟩ :=
    buildUnsigned_of_len crates builder plan source seqNum hpos hle
  have hbody : body = plan.operation kind := by
    have h := (operationBody_of_kind plan kind hpos hkind).symm.trans hbuilt.chosen
    exact (Except.ok.inj h).symm
  exact ⟨inner,⟨none,body⟩,data,hbuild,hbuilt.operations,hbody,hbuilt.ext,hbuilt.readWrite,
    hbuilt.readOnly⟩

theorem not_wellPlaced_extend {crates : Crates} {builder : TxBuilder} {plan : ArchivalPlan}
    {source : PublicKey} {seqNum : Int64} {envelope : TransactionEnvelope}
    (h : builder.buildUnsigned crates plan source seqNum = .ok envelope) :
    ¬WellPlaced plan .extend envelope := by
  intro hplaced
  obtain ⟨hpos,_⟩ := len_of_buildUnsigned h
  obtain ⟨body,data,inner,rfl,hbuilt⟩ := buildUnsigned_ok h
  obtain ⟨inner',op,data',hinner,_,_,hext,_,hexcluded⟩ := hplaced
  cases TransactionEnvelope.tx.inj hinner
  have hdata : data' = data := by
    rw [hbuilt.ext] at hext
    exact (TransactionExt.v1.inj hext).symm
  have hnil : plan.footprint = [] := by
    rw [← hbuilt.readWrite,← hdata]
    exact hexcluded
  have hlen := plan.length_footprint
  rw [hnil,List.length_nil] at hlen
  omega

/-- Of the two kinds only restore plans are built as the protocol wants them. -/
theorem buildUnsigned_wellPlaced_iff (crates : Crates) (builder : TxBuilder)
    (plan : ArchivalPlan) (source : PublicKey) (seqNum : Int64) (kind : OperationKind)
    (hpos : 0 < plan.len) (hle : plan.len ≤ 100) (hkind : ∀ e ∈ plan.entries, e.kind = kind) :
    (∃ envelope, builder.buildUnsigned crates plan source seqNum = .ok envelope ∧
      WellPlaced plan kind envelope) ↔ kind = .restore := by
  constructor
  · intro h
    obtain ⟨envelope,hbuild,hplaced⟩ := h
    cases kind with
    | extend => exact absurd hplaced (not_wellPlaced_extend hbuild)
    | restore => rfl
  · intro hrestore
    obtain ⟨inner,op,data,hbuild,hops,hop,hext,hwrite,hread⟩ :=
      buildUnsigned_of_kind crates builder plan source seqNum kind hpos hle hkind
    subst hrestore
    exact ⟨.tx inner,hbuild,inner,op,data,rfl,hops,hop,hext,hwrite,hread⟩

def codePlan (kind : OperationKind) : ArchivalPlan :=
  ⟨"Test SDF Network ; September 2015",100,200,
    [⟨codeKey,"AAAABwAAAAAAAAAAAAAAAAAAAAAAAAAAAAAAAAAAAAAAAAAA",kind,none,⟨100,some 150⟩⟩]⟩

theorem buildUnsigned_wellPlaced_codePlan :
    (∃ envelope, (TxBuilder.new "Test SDF Network ; September 2015").buildUnsigned sampleCrates
      (codePlan .restore) ⟨Vector.replicate 32 0⟩ 8 = .ok envelope ∧
      WellPlaced (codePlan .restore) .restore envelope) ↔ OperationKind.restore = .restore :=
  buildUnsigned_wellPlaced_iff sampleCrates _ (codePlan .restore) _ 8 .restore (by decide)
    (by decide) (by simp [codePlan])

theorem buildUnsigned_not_wellPlaced : ¬∀ (crates : Crates) (builder : TxBuilder)
    (plan : ArchivalPlan) (source : PublicKey) (seqNum : Int64) (kind : OperationKind),
    0 < plan.len → plan.len ≤ 100 → (∀ e ∈ plan.entries, e.kind = kind) →
    ∃ envelope, builder.buildUnsigned crates plan source seqNum = .ok envelope ∧
      WellPlaced plan kind envelope := by
  intro h
  obtain ⟨envelope,hbuild,hplaced⟩ := h sampleCrates
    (TxBuilder.new "Test SDF Network ; September 2015") (codePlan .extend)
    ⟨Vector.replicate 32 0⟩ 8 .extend (by decide) (by decide) (by simp [codePlan])
  exact not_wellPlaced_extend hbuild hplaced

end TxBuilder

end SorobanRentKeeper

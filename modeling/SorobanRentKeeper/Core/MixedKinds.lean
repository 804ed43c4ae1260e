import SorobanRentKeeper.Core.Footprint
import SorobanRentKeeper.Core.PlanJson

namespace SorobanRentKeeper

/-- The kind of entry an operation is for. -/
def OperationBody.kind : OperationBody → Option OperationKind
  | .extendFootprintTtl _ => some .extend
  | .restoreFootprint _ => some .restore
  | .other _ => none

/-- An envelope whose single operation is of a kind. -/
def Operates (envelope : TransactionEnvelope) (kind : OperationKind) : Prop :=
  ∃ inner op, envelope = .tx inner ∧ inner.tx.operations.val = [op] ∧ op.body.kind = some kind

def ArchivalPlan.Mixed (plan : ArchivalPlan) : Prop :=
  ∃ e ∈ plan.entries, ∃ e' ∈ plan.entries, e.kind ≠ e'.kind

theorem ArchivalPlan.not_mixed_iff (plan : ArchivalPlan) :
    ¬plan.Mixed ↔ ∀ e ∈ plan.entries, ∀ e' ∈ plan.entries, e.kind = e'.kind := by
  simp only [Mixed,not_exists,not_and,not_not]

namespace TxBuilder

/-- What the builder owes a plan: the operation each entry asks for, and no transaction where
entries ask for different ones. -/
structure Heeds (crates : Crates) (builder : TxBuilder) (plan : ArchivalPlan) (source : PublicKey)
    (seqNum : Int64) : Prop where
  operates : ∀ envelope, builder.buildUnsigned crates plan source seqNum = .ok envelope →
    ∀ e ∈ plan.entries, Operates envelope e.kind
  refuses : plan.Mixed → ∃ err, builder.buildUnsigned crates plan source seqNum = .error err

/-- The first entry decides. -/
theorem operationBody_head {plan : ArchivalPlan} {e : PlanEntry} {es : List PlanEntry}
    (h : plan.entries = e::es) : operationBody plan = .ok (plan.operation e.kind) := by
  unfold operationBody
  rw [h]
  cases hkind : e.kind <;> simp [hkind,ArchivalPlan.operation]

theorem kind_operation (plan : ArchivalPlan) (kind : OperationKind) :
    (plan.operation kind).kind = some kind := by
  cases kind <;> rfl

/-- An envelope is built for the first entry's kind. -/
theorem operates_of_buildUnsigned {crates : Crates} {builder : TxBuilder} {plan : ArchivalPlan}
    {source : PublicKey} {seqNum : Int64} {envelope : TransactionEnvelope} {e : PlanEntry}
    {es : List PlanEntry} (hentries : plan.entries = e::es)
    (h : builder.buildUnsigned crates plan source seqNum = .ok envelope) :
    Operates envelope e.kind := by
  obtain ⟨body,data,inner,rfl,hbuilt⟩ := buildUnsigned_ok h
  have hbody : body = plan.operation e.kind := by
    have hchosen := hbuilt.chosen.symm.trans (operationBody_head hentries)
    exact Except.ok.inj hchosen
  refine ⟨inner,_,rfl,hbuilt.operations,?_⟩
  rw [hbody]
  exact kind_operation plan e.kind

/-- The builder heeds exactly the plans of one kind, and those it refuses for their size. -/
theorem buildUnsigned_heeds_iff (crates : Crates) (builder : TxBuilder) (plan : ArchivalPlan)
    (source : PublicKey) (seqNum : Int64) :
    Heeds crates builder plan source seqNum ↔ ¬plan.Mixed ∨ 100 < plan.len := by
  constructor
  · intro h
    by_contra hneither
    obtain ⟨hmixed,hle⟩ := not_or.mp hneither
    have hmixed := not_not.mp hmixed
    obtain ⟨err,herr⟩ := h.refuses hmixed
    obtain ⟨e,he,_⟩ := hmixed
    have hpos : 0 < plan.len := List.length_pos_of_mem he
    obtain ⟨_,_,inner,hbuild,_⟩ :=
      buildUnsigned_of_len crates builder plan source seqNum hpos (Nat.le_of_not_lt hle)
    rw [hbuild] at herr
    cases herr
  · intro h
    constructor
    · intro envelope hbuild e he
      obtain ⟨hpos,hle⟩ := len_of_buildUnsigned hbuild
      have hsame := plan.not_mixed_iff.mp (h.resolve_right (Nat.not_lt.mpr hle))
      cases hentries : plan.entries with
      | nil =>
        rw [hentries] at he
        cases he
      | cons first es =>
        have hfirst : first ∈ plan.entries := by simp [hentries]
        rw [hsame e he first hfirst]
        exact operates_of_buildUnsigned hentries hbuild
    · intro hmixed
      have hgt := h.resolve_left (not_not.mpr hmixed)
      cases hbuild : builder.buildUnsigned crates plan source seqNum with
      | error err => exact ⟨err,rfl⟩
      | ok envelope =>
        have hle := (len_of_buildUnsigned hbuild).2
        omega

/-- The code entry to be extended, and the data entry to be restored. -/
def mixedPlan : ArchivalPlan :=
  ⟨"Test SDF Network ; September 2015",100,518400,
    [⟨codeKey,"AAAABwAAAAAAAAAAAAAAAAAAAAAAAAAAAAAAAAAAAAAAAAAA",.extend,none,⟨100,some 150⟩⟩,
      ⟨dataKey,"AAAABgAAAAEAAAAAAAAAAAAAAAAAAAAAAAAAAAAAAAAAAAAAAAAAAAAAAAMAAAAHAAAAAA==",.restore,
        some .temporary,⟨100,none⟩⟩]⟩

/-- Its file is accepted, and the transaction extends both. -/
theorem buildUnsigned_not_heeds : ¬∀ (crates : PlanCrates) (json : String) (plan : ArchivalPlan)
    (builder : TxBuilder) (source : PublicKey) (seqNum : Int64),
    planFromJson crates json = .ok plan →
    Heeds crates.toCrates builder plan source seqNum := by
  intro h
  have hconsistent : SelfConsistent sampleFiles mixedPlan := by
    intro e he
    simp only [mixedPlan,List.mem_cons,List.not_mem_nil,or_false] at he
    rcases he with rfl|rfl
    · exact ⟨rfl,rfl⟩
    · exact ⟨rfl,rfl⟩
  have hread := (rewritten_iff roundTripsText_sampleFiles mixedPlan).mpr hconsistent
  obtain ⟨json,_,hread⟩ := Program.bind_eq_ok hread
  have hheeds := h sampleFiles json mixedPlan (TxBuilder.new "Test SDF Network ; September 2015")
    ⟨Vector.replicate 32 0⟩ 8 hread
  obtain ⟨err,herr⟩ := hheeds.refuses ⟨_,List.mem_cons_self,_,
    List.mem_cons_of_mem _ List.mem_cons_self,by decide⟩
  cases herr

end TxBuilder

end SorobanRentKeeper

import SorobanRentKeeper.Core.Footprint
import SorobanRentKeeper.Daemon.Cycle

namespace SorobanRentKeeper

open Program

variable {σ : Type}

/-- Two lists that name the same ledger keys. -/
def SameKeys (keys keys' : List LedgerKey) : Prop := ∀ key, key ∈ keys ↔ key ∈ keys'

/-- A reply whose Soroban data decodes to `data`. -/
def Decodes (crates : Crates) (response : SimulateResponse) (data : SorobanTransactionData) :
    Prop :=
  response.error = none ∧ response.transactionData.isEmpty = false ∧
    crates.sorobanDataFromXdrBase64 response.transactionData = .ok data

/-- What is sent is what was planned: the keys of every signed envelope are the plan's, and a
reply that names others is turned down. -/
structure SignsPlan (keeper : Keeper σ) (builder : TxBuilder) (plan : ArchivalPlan)
    (d : List Event) : Prop where
  signed : ∀ s ∈ sends d, SameKeys s.signed.footprintKeys plan.footprint
  checked : ∀ built response data, .simulate built (.ok response) ∈ d →
    Decodes keeper.crates response data →
    ¬SameKeys data.resources.footprint.keys plan.footprint →
    ∃ e t, builder.applySimulation keeper.crates (Provider.simulationResult response) built =
      .error e t

/-- The node's simulation replies name the plan's keys by themselves. -/
def RepliesKeepPlan (keeper : Keeper σ) (plan : ArchivalPlan) (d : List Event) : Prop :=
  ∀ built response data, .simulate built (.ok response) ∈ d →
    Decodes keeper.crates response data → SameKeys data.resources.footprint.keys plan.footprint

private theorem decodes_of_finish {keeper : Keeper σ} {builder : TxBuilder} {plan : ArchivalPlan}
    {n : Int64} {built signed : TransactionEnvelope} {response : SimulateResponse}
    (hbuild : buildFor keeper builder plan n = .ok built) (herror : response.error = none)
    (hfinish : finish keeper builder built response = .ok signed) :
    ∃ data, Decodes keeper.crates response data ∧
      signed.footprintKeys = data.resources.footprint.keys := by
  obtain ⟨_,_,inner,rfl,_⟩ := TxBuilder.buildUnsigned_ok hbuild
  obtain ⟨data,signatures,hne,hdata,rfl⟩ := finish_ok herror hfinish
  exact ⟨data,⟨herror,hne,hdata⟩,rfl⟩

/-- Behind every send of a call stands a reply of the same call that decoded to what was
signed. -/
theorem Submit.signed {keeper : Keeper σ} {builder : TxBuilder} {plan : ArchivalPlan}
    {w t : World σ} {r : Except KeeperError SubmissionOutcome} {d : List Event}
    (h : Submit keeper builder plan w r d t) : ∀ s ∈ sends d, ∃ response data,
      .simulate s.built (.ok response) ∈ d ∧ Decodes keeper.crates response data ∧
      s.signed.footprintKeys = data.resources.footprint.keys := by
  intro s hs
  obtain ⟨n,_,_,response,_,hbuild,hmem,herror,hfinish⟩ := h.sent s hs
  obtain ⟨data,hdata,hkeys⟩ := decodes_of_finish hbuild herror hfinish
  exact ⟨response,data,hmem,hdata,hkeys⟩

/-- Every simulated envelope of a call is a v1 envelope. -/
theorem Submit.simulated_tx {keeper : Keeper σ} {builder : TxBuilder} {plan : ArchivalPlan}
    {w t : World σ} {r : Except KeeperError SubmissionOutcome} {d : List Event}
    (h : Submit keeper builder plan w r d t) {built : TransactionEnvelope}
    {reply : Except String SimulateResponse} (hmem : .simulate built reply ∈ d) :
    ∃ inner, built = .tx inner := by
  have hsim : built ∈ simulated d := by
    unfold simulated
    exact List.mem_filterMap.mpr ⟨_,hmem,rfl⟩
  obtain ⟨n,hbuild⟩ := h.concerns.built built hsim
  obtain ⟨_,_,inner,hinner,_⟩ := TxBuilder.buildUnsigned_ok hbuild
  exact ⟨inner,hinner⟩

/-- A call signs what was planned exactly when the node proposes nothing else: no reply that
decodes is turned down. -/
theorem submitPlan_signsPlan_iff (keeper : Keeper σ) (builder : TxBuilder) (plan : ArchivalPlan)
    (w : World σ) : ∃ d, (final (submitPlan keeper builder plan w)).log = w.log ++ d ∧
      (SignsPlan keeper builder plan d ↔ RepliesKeepPlan keeper plan d) := by
  obtain ⟨d,hd,hrun⟩ := (submitPlan_traced keeper builder plan w).cases
  refine ⟨d,hd,?_⟩
  have hsubmit : ∃ r t, Submit keeper builder plan w r d t := by
    rcases hrun with hok|herr
    · obtain ⟨outcome,t,_,h⟩ := hok
      exact ⟨_,t,h⟩
    · obtain ⟨err,t,_,h⟩ := herr
      exact ⟨_,t,h⟩
  obtain ⟨r,t,h⟩ := hsubmit
  constructor
  · intro hsigns built response data hmem hdata
    by_contra hother
    obtain ⟨e,u,herr⟩ := hsigns.checked built response data hmem hdata hother
    obtain ⟨inner,rfl⟩ := h.simulated_tx hmem
    obtain ⟨hnone,hne,hdecode⟩ := hdata
    rw [TxBuilder.applySimulation_of_data keeper.crates builder _ inner
      (by simp [Provider.simulationResult,hnone]) hne hdecode] at herr
    cases herr
  · intro hkeep
    constructor
    · intro s hs
      obtain ⟨response,data,hmem,hdata,hkeys⟩ := h.signed s hs
      rw [hkeys]
      exact hkeep s.built response data hmem hdata
    · intro built response data hmem hdata hother
      exact absurd (hkeep built response data hmem hdata) hother

/-- A node that simulates a transaction for the data entry whatever it is given. -/
def strayWorld : World Script :=
  ⟨⟨.error "no reply",[],[.ok 7],[.ok dataSimulation],[.ok (Vector.replicate 32 0)]⟩,none,[]⟩

def strayLog : List Event :=
  (final (submitPlan sampleKeeper (cycleBuilder sampleKeeper) (TxBuilder.codePlan .extend)
    strayWorld)).log

/-- The plan names the code entry; what is signed and accepted names the data entry. -/
theorem submitPlan_not_signsPlan : ¬∀ (keeper : Keeper Script) (builder : TxBuilder)
    (plan : ArchivalPlan) (w : World Script) (d : List Event),
    (final (submitPlan keeper builder plan w)).log = w.log ++ d →
    SignsPlan keeper builder plan d := by
  intro h
  have hsigns := h sampleKeeper (cycleBuilder sampleKeeper) (TxBuilder.codePlan .extend) strayWorld
    strayLog (List.nil_append _).symm
  have hsent : ∃ s ∈ sends strayLog, dataKey ∈ s.signed.footprintKeys := by decide +kernel
  obtain ⟨s,hs,hstray⟩ := hsent
  have hplanned := (hsigns.signed s hs dataKey).mp hstray
  exact absurd hplanned (by decide)

end SorobanRentKeeper

import SorobanRentKeeper.Daemon.Discipline
import SorobanRentKeeper.Daemon.SignedFootprint

namespace SorobanRentKeeper

variable {σ : Type}

/-- An envelope the protocol runs as an extension of these keys: they are on the side an extension
acts on, and there is nothing on the other. -/
def Extends (envelope : TransactionEnvelope) (keys : List LedgerKey) (extendTo : UInt32) : Prop :=
  ∃ inner op data, envelope = .tx inner ∧ inner.tx.operations.val = [op] ∧
    op.body = .extendFootprintTtl ⟨.v0,extendTo⟩ ∧ inner.tx.ext = .v1 data ∧
    data.resources.footprint.actedOn .extend = keys ∧
    data.resources.footprint.excluded .extend = []

/-- An envelope with one operation, an extension, and these Soroban data. -/
theorem extends_iff {inner : TransactionV1Envelope} {data : SorobanTransactionData}
    {target : UInt32} (hext : inner.tx.ext = .v1 data)
    (hoperation : inner.tx.operations.val = [⟨none,.extendFootprintTtl ⟨.v0,target⟩⟩])
    (keys : List LedgerKey) (extendTo : UInt32) : Extends (.tx inner) keys extendTo ↔
      data.resources.footprint.excluded .extend = [] ∧
        keys = data.resources.footprint.actedOn .extend ∧ extendTo = target := by
  constructor
  · intro h
    obtain ⟨inner',op,data',hinner,hop,hbody,hdata,hkeys,hexcluded⟩ := h
    cases TransactionEnvelope.tx.inj hinner
    rw [hext] at hdata
    cases TransactionExt.v1.inj hdata
    rw [hoperation] at hop
    cases hop
    cases hbody
    exact ⟨hexcluded,hkeys.symm,rfl⟩
  · intro h
    obtain ⟨hexcluded,rfl,rfl⟩ := h
    exact ⟨inner,_,data,rfl,hoperation,rfl,hext,rfl,hexcluded⟩

/-- The builder puts the keys where an extension must have none. -/
theorem Warranted.not_extends {keeper : Keeper σ} {keys : List LedgerKey}
    {observations : List Observation} {built : TransactionEnvelope}
    (h : Warranted keeper keys observations built) :
    ¬∃ keys extendTo, Extends built keys extendTo := by
  intro hextends
  obtain ⟨extended,extendTo,inner',op,data',hinner',_,_,hdata',_,hexcluded⟩ := hextends
  obtain ⟨inner,data,hinner,hdata,_,hwritten⟩ := h.side
  rw [hinner] at hinner'
  cases TransactionEnvelope.tx.inj hinner'
  rw [hdata] at hdata'
  cases TransactionExt.v1.inj hdata'
  have hpos := h.nonempty
  have hnil : built.footprintKeys = [] := by
    rw [← hwritten]
    exact hexcluded
  rw [hnil] at hpos
  exact absurd hpos (Nat.lt_irrefl 0)

/-- What stands behind an envelope that is sent: it was built for what was observed, and takes its
data from the reply to its simulation, which came just before. -/
structure Proposed (keeper : Keeper σ) (before : List Event) (s : Submission)
    (data : SorobanTransactionData) : Prop where
  simulated : ∃ d response, before = d ++ [.simulate s.built (.ok response)] ∧
    Decodes keeper.crates response data
  warranted : ∃ keys observations, Warranted keeper keys observations s.built
  extends_iff : ∀ keys extendTo, Extends s.signed keys extendTo ↔
    data.resources.footprint.excluded .extend = [] ∧
      keys = data.resources.footprint.actedOn .extend ∧
      extendTo = keeper.config.riskWindow.extendToLedgers keeper.config.constants

theorem Session.proposed {keeper : Keeper σ} {before after : List Event} {s : Submission}
    {t : Stage} (h : Lts.Run (Session keeper) .closed (before ++ .send s::after) t) :
    ∃ data, Proposed keeper before s data := by
  obtain ⟨d,response,rfl,herror,hfinish⟩ := Session.finished h
  rw [List.append_assoc] at h
  obtain ⟨keys,observations,_,hwarranted⟩ := Session.warranted h
  obtain ⟨inner,hinner,_,hoperation,_⟩ := hwarranted.operation
  rw [hinner] at hfinish
  obtain ⟨data,signatures,hne,hdata,hsigned⟩ := finish_ok herror hfinish
  refine ⟨data,⟨d,response,rfl,herror,hne,hdata⟩,⟨keys,observations,hwarranted⟩,?_⟩
  rw [hsigned]
  exact extends_iff rfl hoperation

/-- In a run of any number of ticks nothing that is built is an extension the protocol would run,
and what is sent is one exactly when the reply to its simulation leaves nothing on the side the
builder has put the keys on. -/
theorem runLoop_placed (keeper : Keeper σ) (n : Nat) (w : World σ) (metrics : Metrics) :
    ∃ d, (runLoop keeper n w metrics).1.log = w.log ++ d ∧
      (∀ built reply, .simulate built reply ∈ d → ¬∃ keys extendTo, Extends built keys extendTo) ∧
      ∀ before s after, d = before ++ .send s::after → ∃ data, Proposed keeper before s data := by
  obtain ⟨ds,_,hall,hd⟩ := runLoop_called keeper n w metrics
  obtain ⟨t,hrun⟩ := Called.flatten_goes hall .closed
  refine ⟨ds.flatten,hd,?_,?_⟩
  · intro built reply hmem
    obtain ⟨before,after,hsplit⟩ := List.append_of_mem hmem
    rw [hsplit] at hrun
    obtain ⟨_,_,_,hwarranted⟩ := Session.warranted hrun
    exact hwarranted.not_extends
  · intro before s after hsplit
    rw [hsplit] at hrun
    exact Session.proposed hrun

end SorobanRentKeeper

import SorobanRentKeeper.Core.Split
import SorobanRentKeeper.Daemon.CycleTrace

namespace SorobanRentKeeper

open Program

variable {σ : Type}

/-- Live, with at most `horizon` ledgers left at its own snapshot. -/
def Observation.inDanger (horizon : Nat) (o : Observation) : Bool :=
  match o.entry with
  | .live ttl =>
    match ttl.liveUntilLedgerSeq with
    | some liveUntil => decide (ttl.currentLedger < liveUntil ∧
        liveUntil.toNat - ttl.currentLedger.toNat ≤ horizon)
    | none => false
  | _ => false

def endangered (horizon : Nat) (keys : List LedgerKey) (observations : List Observation) :
    List LedgerKey :=
  ((keys.zip observations).filter fun o => o.2.inDanger horizon).map Prod.fst

/-- Those of one durability class: temporary, or persistent and code. -/
def endangeredClass (horizon : Nat) (keys : List LedgerKey) (observations : List Observation)
    (temporary : Bool) : List LedgerKey :=
  (endangered horizon keys observations).filter fun key => isTemporaryKey key == temporary

theorem Provider.Reported.inDanger {crates : Crates} {response : GetLedgerEntriesResponse}
    {key : LedgerKey} {o : Observation} (window : RiskWindow)
    (h : Provider.Reported crates response key o) :
    o.inDanger window.alertHorizonLedgers.toNat =
      match o.entry with
      | .live ttl => window.isAtRisk ttl
      | _ => false := by
  obtain ⟨index,keyXdr,_,_,rfl⟩ := h
  unfold Provider.observation
  split
  · next liveUntil _ =>
    split_ifs with hlive
    · have hrisk := window.isAtRisk_iff ⟨latestLedger response.latestLedger,some liveUntil⟩
        liveUntil rfl (UInt32.le_of_lt hlive)
      rw [Bool.eq_iff_iff]
      simp only [Observation.inDanger,decide_eq_true_eq,hlive,true_and]
      exact hrisk.symm
    · rfl
  · rfl

/-- What the planner takes for at risk are the endangered watch positions. -/
theorem atRisk_extendable (planner : Planner) {crates : Crates} {d : List Event}
    {keys : List LedgerKey} {observations : List Observation}
    (h : List.Forall₂ (Provider.Observed crates d) keys observations) :
    (planner.atRisk (extendable keys observations)).map Prod.fst =
      endangered planner.window.alertHorizonLedgers.toNat keys observations := by
  induction h with
  | nil => rfl
  | @cons key o keys observations hobs _ ih =>
    obtain ⟨_,response,_,_,hrep⟩ := hobs
    have hdanger := hrep.inDanger planner.window
    unfold Planner.atRisk extendable endangered at ih ⊢
    rw [List.zip_cons_cons,List.filterMap_cons,List.filter_cons]
    cases hentry : o.entry with
    | live ttl =>
      rw [hentry] at hdanger
      simp only [hdanger,List.filter_cons]
      split
      · rw [List.map_cons,List.map_cons,ih]
      · exact ih
    | expiredButPresent info =>
      rw [hentry] at hdanger
      simpa only [hdanger,Bool.false_eq_true,if_false] using ih
    | archived info =>
      rw [hentry] at hdanger
      simpa only [hdanger,Bool.false_eq_true,if_false] using ih

/-- What a report promises about the cycle it ends: every endangered position, and no other, is
in a transaction that was accepted, one transaction for each class that has one. -/
structure Covered (keeper : Keeper σ) (keys : List LedgerKey) (observations : List Observation)
    (report : CycleReport) (d : List Event) : Prop where
  resolved : resolveWatchKeys keeper.crates keeper.config = .ok keys
  observed : observedIn d = [(keys,observations)]
  positions : observations.length = keys.length
  entriesAtRisk : report.entriesAtRisk =
    (endangered keeper.config.riskWindow.alertHorizonLedgers.toNat keys observations).length
  transactions : report.transactions = ([false,true].filter fun temporary =>
    !(endangeredClass keeper.config.riskWindow.alertHorizonLedgers.toNat keys observations
      temporary).isEmpty).length
  accepted : (accepted d).map (fun s => s.built.footprintKeys) =
    ([false,true].map (endangeredClass keeper.config.riskWindow.alertHorizonLedgers.toNat keys
      observations)).filter fun keys => !keys.isEmpty
  fromBuilder : ∀ s ∈ SorobanRentKeeper.accepted d, ∃ plan n,
    buildFor keeper (cycleBuilder keeper) plan n = .ok s.built
  nothingElse : ∀ envelope ∈ simulated d, ∃ temporary, envelope.footprintKeys =
    endangeredClass keeper.config.riskWindow.alertHorizonLedgers.toNat keys observations temporary
  sentBuilt : ∀ s ∈ sends d, s.built ∈ simulated d
  extendSubmitted : report.extendSubmitted = true ↔ 0 < report.transactions

theorem Prepared.classes {keeper : Keeper σ} {keys : List LedgerKey}
    {observations : List Observation} {plans : List ArchivalPlan} {d : List Event}
    (h : Prepared keeper keys observations plans d) :
    plans.map ArchivalPlan.footprint =
      ([false,true].map (endangeredClass keeper.config.riskWindow.alertHorizonLedgers.toNat keys
        observations)).filter fun keys => !keys.isEmpty := by
  have hclass (temporary : Bool) :
      (planner keeper.config).classKeys temporary (extendable keys observations) =
        endangeredClass keeper.config.riskWindow.alertHorizonLedgers.toNat keys observations
          temporary := by
    unfold Planner.classKeys endangeredClass
    rw [atRisk_extendable (planner keeper.config) h.observed]
    rfl
  rw [(Planner.planExtendSplit_ok h.planned).1]
  unfold Planner.classes
  rw [hclass,hclass]
  rfl

/-- An envelope built for one of the plans carries the keys of one class. -/
theorem Prepared.class_of_built {keeper : Keeper σ} {keys : List LedgerKey}
    {observations : List Observation} {plans : List ArchivalPlan} {d : List Event}
    (h : Prepared keeper keys observations plans d) {builder : TxBuilder} {plan : ArchivalPlan}
    (hplan : plan ∈ plans) {n : Int64} {envelope : TransactionEnvelope}
    (hbuild : buildFor keeper builder plan n = .ok envelope) :
    ∃ temporary, envelope.footprintKeys =
      endangeredClass keeper.config.riskWindow.alertHorizonLedgers.toNat keys observations
        temporary := by
  have hmem : envelope.footprintKeys ∈ plans.map ArchivalPlan.footprint := by
    rw [footprintKeys_of_buildFor hbuild]
    exact List.mem_map_of_mem hplan
  rw [h.classes,List.mem_filter,List.mem_map] at hmem
  obtain ⟨⟨temporary,_,hkeys⟩,_⟩ := hmem
  exact ⟨temporary,hkeys.symm⟩

theorem Prepared.length_plans {keeper : Keeper σ} {keys : List LedgerKey}
    {observations : List Observation} {plans : List ArchivalPlan} {d : List Event}
    (h : Prepared keeper keys observations plans d) :
    plans.length = ([false,true].filter fun temporary =>
      !(endangeredClass keeper.config.riskWindow.alertHorizonLedgers.toNat keys observations
        temporary).isEmpty).length := by
  have hlen := congrArg List.length h.classes
  rwa [List.length_map,List.filter_map,List.length_map] at hlen

theorem Prepared.sum_len {keeper : Keeper σ} {keys : List LedgerKey}
    {observations : List Observation} {plans : List ArchivalPlan} {d : List Event}
    (h : Prepared keeper keys observations plans d) :
    (plans.map ArchivalPlan.len).sum =
      (endangered keeper.config.riskWindow.alertHorizonLedgers.toNat keys observations).length := by
  have hlen : plans.map ArchivalPlan.len =
      (plans.map ArchivalPlan.footprint).map List.length := by simp
  have hsum := Planner.sum_length_classes (planner keeper.config) (extendable keys observations)
  have hrisk := atRisk_extendable (planner keeper.config) h.observed
  rw [hlen,(Planner.planExtendSplit_ok h.planned).1,hsum,← List.length_map Prod.fst,hrisk]
  rfl

theorem sends_of_served {keeper : Keeper σ} {builder : TxBuilder} {plans : List ArchivalPlan}
    {ds : List (List Event)} (h : List.Forall₂ (Served keeper builder) plans ds) :
    ∀ s ∈ sends ds.flatten, s.built ∈ simulated ds.flatten := by
  induction h with
  | nil => simp [sends]
  | cons hserved _ ih =>
    intro s hs
    rw [List.flatten_cons,sends_append,List.mem_append] at hs
    rw [List.flatten_cons,simulated_append,List.mem_append]
    exact hs.imp (hserved.sent s) (ih s)

/-- A cycle that returns a report covered exactly the entries at risk. -/
theorem runCycle_covered (keeper : Keeper σ) (w w' : World σ) (report : CycleReport)
    (h : runCycle keeper w = .ok report w') :
    ∃ d keys observations, w'.log = w.log ++ d ∧ Covered keeper keys observations report d := by
  obtain ⟨d,hd,keys,observations,plans,rfl,hdone⟩ := (runCycle_traced keeper w).ok h
  obtain ⟨dq,ds,hprep,hserved,rfl⟩ := hdone.logged
  refine ⟨dq ++ ds.flatten,keys,observations,hd,?_⟩
  have hclasses := hprep.classes
  have haccepted : accepted (dq ++ ds.flatten) = accepted ds.flatten := by
    rw [accepted_append,hprep.quiet.accepted,List.nil_append]
  have hsimulated : simulated (dq ++ ds.flatten) = simulated ds.flatten := by
    rw [simulated_append,hprep.quiet.simulated,List.nil_append]
  constructor
  · exact hdone.resolved
  · rw [observedIn_append,hprep.once,observedIn_of_served hserved,List.append_nil]
  · exact hprep.observed.length_eq.symm
  · exact hprep.sum_len
  · exact hprep.length_plans
  · rw [haccepted,footprints_of_served hserved]
    exact hclasses
  · intro s hs
    rw [haccepted,SorobanRentKeeper.accepted] at hs
    have hbuilt := sends_of_served hserved s (List.mem_of_mem_filter hs)
    obtain ⟨plan,_,n,hbuild⟩ := simulated_of_served hserved s.built hbuilt
    exact ⟨plan,n,hbuild⟩
  · intro envelope he
    rw [hsimulated] at he
    obtain ⟨plan,hplan,n,hbuild⟩ := simulated_of_served hserved envelope he
    exact hprep.class_of_built hplan hbuild
  · intro s hs
    rw [sends_append,hprep.quiet.sends,List.nil_append] at hs
    rw [hsimulated]
    exact sends_of_served hserved s hs
  · exact decide_eq_true_iff

/-- A daemon that watches the two sample entries with a window of 100 ledgers. -/
def sampleKeeper : Keeper Script where
  crates := sampleCrates
  node := playback
  config := {
    rpcUrl := "https://soroban-testnet.stellar.org:443"
    networkPassphrase := "Test SDF Network ; September 2015"
    secretKey := "S"
    watch := [.contractCode "0000000000000000000000000000000000000000000000000000000000000000",
      .dataKey "CAAAAAAAAAAAAAAAAAAAAAAAAAAAAAAAAAAAAAAAAAAAAAAAAAAABSC4" "AAAAAwAAAAc="
        "temporary"]
    pollIntervalSecs := 300
    riskWindow := ⟨100⟩
    metricsPort := none
    constants := TtlConstants.stellarPublic }
  payer := ⟨Vector.replicate 32 0⟩
  tracker := ⟨"G"⟩

def sampleEntries (latest : Int64) (code data : UInt32) : GetLedgerEntriesResponse :=
  ⟨some [⟨"AAAABwAAAAAAAAAAAAAAAAAAAAAAAAAAAAAAAAAAAAAAAAAAAAAAAAAAAAA=",some code⟩,
    ⟨"AAAABgAAAAAAAAABAAAAAAAAAAAAAAAAAAAAAAAAAAAAAAAAAAAAAAAAAAAAAAADAAAABwAAAAAAAAAB",
      some data⟩],latest⟩

def codeSimulation : SimulateResponse :=
  ⟨none,1000,"AAAAAAAAAAAAAAABAAAABwAAAAAAAAAAAAAAAAAAAAAAAAAAAAAAAAAAAAAAAAAAAAAAAAAAAAAAAAAAAAAAAAAAAAA="⟩

def dataSimulation : SimulateResponse :=
  ⟨none,1000,"AAAAAAAAAAAAAAABAAAABgAAAAEAAAAAAAAAAAAAAAAAAAAAAAAAAAAAAAAAAAAAAAAAAAAAAAMAAAAHAAAAAAAAAAAAAAAAAAAAAAAAAAAAAAAA"⟩

def sampleWorld : World Script :=
  ⟨⟨.ok "Test SDF Network ; September 2015",[.ok (sampleEntries 100 150 500)],[.ok 7],
    [.ok codeSimulation],[.ok (Vector.replicate 32 0)]⟩,none,[]⟩

theorem runCycle_covered_sample : ∃ d keys observations,
    (final (runCycle sampleKeeper sampleWorld)).log = sampleWorld.log ++ d ∧
    Covered sampleKeeper keys observations ⟨100,1,true,1⟩ d :=
  runCycle_covered sampleKeeper sampleWorld _ ⟨100,1,true,1⟩ (eq_ok_of_value (by decide +kernel))

end SorobanRentKeeper

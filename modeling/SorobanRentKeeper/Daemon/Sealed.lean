import SorobanRentKeeper.Daemon.Main

namespace SorobanRentKeeper

variable {σ : Type}

/-- The libraries with one key built in: whatever seed they are given, it is that key's public key
and signatures they answer with. -/
def Crates.sealed (crates : Crates) (signingKey : Bytes32) : Crates := { crates with
  verifyingKey := fun _ => crates.verifyingKey signingKey
  ed25519Sign := fun _ message => crates.ed25519Sign signingKey message }

/-- A payer without a seed. -/
def FeePayer.blank : FeePayer := ⟨Vector.replicate 32 0⟩

/-- The daemon with its seed taken away, from its payer and as the text of its configuration, and a
device that signs in its place. Its account is that of the public key. -/
def Keeper.sealed (keeper : Keeper σ) : Keeper σ where
  crates := keeper.crates.sealed keeper.payer.signingKey
  node := keeper.node
  config := { keeper.config with secretKey := "" }
  payer := .blank
  tracker := ⟨FeePayer.blank.accountIdStrkey (keeper.crates.sealed keeper.payer.signingKey)⟩

/-! What only decodes, encodes and hashes does not see the difference. -/

section

variable (crates : Crates) (signingKey : Bytes32)

theorem indexRows_sealed (rows : List LedgerEntryRow) (index : Provider.LiveIndex) :
    Provider.indexRows (crates.sealed signingKey) rows index =
      Provider.indexRows crates rows index := by
  induction rows generalizing index with
  | nil => rfl
  | cons row rows ih =>
    simp only [Provider.indexRows,ih]
    rfl

theorem observeKeys_sealed (latest : UInt32) (index : Provider.LiveIndex)
    (keys : List LedgerKey) :
    Provider.observeKeys (crates.sealed signingKey) latest index keys =
      Provider.observeKeys crates latest index keys := by
  induction keys with
  | nil => rfl
  | cons key keys ih =>
    simp only [Provider.observeKeys,ih]
    rfl

theorem observeEntries_sealed (node : Node σ) (keys : List LedgerKey) :
    Provider.observeEntries (crates.sealed signingKey) node keys =
      Provider.observeEntries crates node keys := by
  unfold Provider.observeEntries Provider.observeChunk Provider.readChunk
  simp only [indexRows_sealed,observeKeys_sealed]

theorem splitLoop_sealed (planner : Planner) (currentLedger : UInt32)
    (observations : List (LedgerKey × EntryTtl)) (temporary persistent : List PlanEntry) :
    planner.splitLoop (crates.sealed signingKey) currentLedger observations temporary persistent =
      planner.splitLoop crates currentLedger observations temporary persistent := by
  induction observations generalizing temporary persistent with
  | nil => rfl
  | cons o observations ih =>
    simp only [Planner.splitLoop,ih]
    rfl

end

theorem observeAndPlan_sealed (keeper : Keeper σ) (keys : List LedgerKey) :
    observeAndPlan keeper.sealed keys = observeAndPlan keeper keys := by
  unfold observeAndPlan Planner.planExtendSplit
  simp only [Keeper.sealed,observeEntries_sealed,splitLoop_sealed]
  rfl

section

variable {keeper : Keeper σ} (h : keeper.tracker = ⟨keeper.payer.accountIdStrkey keeper.crates⟩)

include h

/-- The account is the same, for it is that of the public key. -/
theorem tracker_sealed : keeper.sealed.tracker = keeper.tracker := h.symm

/-- The one place that asks for a number, and that signs. -/
theorem submitPlan_sealed (builder : TxBuilder) (plan : ArchivalPlan) :
    submitPlan keeper.sealed builder plan = submitPlan keeper builder plan := by
  unfold submitPlan
  rw [tracker_sealed h]
  rfl

theorem submitCycle_sealed (observedLedger : UInt32) (plans : List ArchivalPlan) :
    submitCycle keeper.sealed observedLedger plans = submitCycle keeper observedLedger plans := by
  unfold submitCycle submitPlans submitStep
  simp only [submitPlan_sealed h]
  rfl

theorem runCycle_sealed : runCycle keeper.sealed = runCycle keeper := by
  have hkeys : resolveWatchKeys keeper.sealed.crates keeper.sealed.config =
      resolveWatchKeys keeper.crates keeper.config := rfl
  unfold runCycle
  simp only [hkeys,observeAndPlan_sealed,submitCycle_sealed h]

theorem attempts_sealed (left : Nat) (w : World σ) (metrics : Metrics) :
    attempts keeper.sealed left w metrics = attempts keeper left w metrics := by
  induction left generalizing w with
  | zero => rfl
  | succ left ih =>
    unfold attempts
    simp only [runCycle_sealed h,ih]

theorem runLoop_sealed (n : Nat) (w : World σ) (metrics : Metrics) :
    runLoop keeper.sealed n w metrics = runLoop keeper n w metrics := by
  induction n with
  | zero => rfl
  | succ n ih =>
    rw [runLoop_succ,runLoop_succ,ih]
    simp only [tick,attempts_sealed h]

end

namespace Main

/-- The tracker `main` makes is for the account of its payer. -/
theorem boot_tracker {machine : Machine σ} {path : String} {check : Bool} {w t : World σ}
    {keeper : Keeper σ} (h : boot machine path check w = .ok (.running keeper) t) :
    keeper.tracker = ⟨keeper.payer.accountIdStrkey keeper.crates⟩ := by
  obtain ⟨_,_,hbooted⟩ := (boot_traced machine path check w).ok h
  rcases hbooted with ⟨_,hchecked,_⟩|⟨valid,payer,reply,_,_,_,_,hrunning⟩
  · cases hchecked
  · cases hrunning
    rfl

/-- The seed does not leave the daemon: whatever the node answers, what boots polls like a daemon
that has only the public key and a device that signs. That one asks for the same, in the same order,
counts the same and ends alike. -/
theorem poll_sealed (machine : Machine σ) (path : String) (check : Bool) (w t : World σ)
    (keeper : Keeper σ) (h : boot machine path check w = .ok (.running keeper) t) (n : Nat)
    (u : World σ) : poll keeper.sealed n u = poll keeper n u := by
  unfold poll
  rw [runLoop_sealed (boot_tracker h)]

theorem poll_sealed_public : ∃ keeper t,
    boot publicMachine "keeper.toml" false emptyWorld = .ok (.running keeper) t ∧
    poll keeper.sealed 2 t = poll keeper 2 t := by
  obtain ⟨keeper,t,hboot⟩ := boot_of_stopped process_public
  exact ⟨keeper,t,hboot,poll_sealed publicMachine "keeper.toml" false emptyWorld t keeper hboot 2 t⟩

end Main

end SorobanRentKeeper

import SorobanRentKeeper.Daemon.Cycle

namespace SorobanRentKeeper

open Program

variable {σ : Type}

/-- The error a cycle ended in is of its exchange with the node or about a transaction, and it is
what submitting this plan gave. -/
structure FailedOn (keeper : Keeper σ) (plan : ArchivalPlan) (err : KeeperError)
    (d : List Event) : Prop where
  kind : ∃ text, err = .rpc text ∨ err = .transaction text
  submitted : ∃ u d' v, d' <:+: d ∧ Submit keeper (cycleBuilder keeper) plan u (.error err) d' v

theorem Step.failedOn {keeper : Keeper σ} {plan : ArchivalPlan} {u v : World σ}
    {err : KeeperError} {d₂ : List Event}
    (h : Step keeper (cycleBuilder keeper) plan u (some err) d₂ v) (d d₁ : List Event) :
    FailedOn keeper plan err (d ++ (d₁ ++ d₂)) := by
  obtain ⟨d',t,⟨rest,rfl⟩,hsubmit⟩ := h.first_error
  exact ⟨hsubmit.fails,u,d',t,⟨d ++ d₁,rest,by simp⟩,hsubmit⟩

/-- A cycle that served its plans tried them all. -/
theorem attempted_of_serves {keeper : Keeper σ} {keys : List LedgerKey}
    {observations : List Observation} {plans : List ArchivalPlan} {d d' : List Event}
    {t u : World σ} (hprep : Prepared keeper keys observations plans d)
    (hserves : Serves keeper (cycleBuilder keeper) t plans d' u) (plan : ArchivalPlan)
    (hplan : plan ∈ plans) : plan ∈ attempted (d ++ d') ∧
      ∃ s ∈ accepted (d ++ d'), s.built.footprintKeys = plan.footprint := by
  obtain ⟨ds,hserved,rfl⟩ := hserves.served
  constructor
  · rw [attempted_append,List.mem_append]
    exact .inr ((attempted_of_served hserved plan).mpr hplan)
  · have hmem : plan.footprint ∈
        (accepted (d ++ ds.flatten)).map fun s => s.built.footprintKeys := by
      rw [accepted_append,hprep.quiet.accepted,List.nil_append,footprints_of_served hserved]
      exact List.mem_map_of_mem hplan
    exact List.mem_map.mp hmem

/-- Stuck at the first of two plans of different footprints, a cycle tried nothing else, and had
nothing accepted. -/
theorem untried_of_stuck {keeper : Keeper σ} {keys : List LedgerKey}
    {observations : List Observation} {first second : ArchivalPlan} {d d₂ : List Event}
    {u v : World σ} {err : KeeperError}
    (hprep : Prepared keeper keys observations [first,second] d)
    (hstep : Step keeper (cycleBuilder keeper) first u (some err) d₂ v)
    (hne : first.footprint ≠ second.footprint) :
    second ∉ attempted (d ++ d₂) ∧ accepted (d ++ d₂) = [] := by
  constructor
  · intro htried
    rw [attempted_append,hprep.quiet.attempted,List.nil_append] at htried
    exact hne (congrArg ArchivalPlan.footprint (hstep.unserved.tried second htried).symm)
  · rw [accepted_append,hprep.quiet.accepted,hstep.unserved.never]
    rfl

/-- Stuck at the second plan, it tried that one, after the first was accepted. -/
theorem tried_of_stuck {keeper : Keeper σ} {keys : List LedgerKey}
    {observations : List Observation} {first second : ArchivalPlan} {d d₁ d₂ : List Event}
    {t u v : World σ} {err : KeeperError}
    (hprep : Prepared keeper keys observations [first,second] d)
    (hserves : Serves keeper (cycleBuilder keeper) t [first] d₁ u)
    (hstep : Step keeper (cycleBuilder keeper) second u (some err) d₂ v) :
    second ∈ attempted (d ++ (d₁ ++ d₂)) ∧
      ∃ s ∈ accepted (d ++ (d₁ ++ d₂)), s.built.footprintKeys = first.footprint := by
  obtain ⟨ds,hserved,rfl⟩ := hserves.served
  simp only [attempted_append,accepted_append,hprep.quiet.attempted,hprep.quiet.accepted,
    hstep.unserved.never,List.nil_append,List.append_nil]
  have hmem : first.footprint ∈ (accepted ds.flatten).map fun s => s.built.footprintKeys := by
    rw [footprints_of_served hserved]
    exact List.mem_singleton.mpr rfl
  exact ⟨List.mem_append_right _ hstep.unserved.entered,List.mem_map.mp hmem⟩

theorem observedIn_of_serves {keeper : Keeper σ} {builder : TxBuilder} {plans : List ArchivalPlan}
    {d : List Event} {t u : World σ} (h : Serves keeper builder t plans d u) :
    observedIn d = [] := by
  obtain ⟨ds,hserved,rfl⟩ := h.served
  exact observedIn_of_served hserved

/-- The second plan of a cycle is submitted only behind an accepted first one; otherwise the cycle
ends with the error of the first, of the exchange or of its transaction. -/
theorem secondPlan_attempted_iff (keeper : Keeper σ) (w : World σ) (d : List Event)
    (keys : List LedgerKey) (observations : List Observation) (first second : ArchivalPlan)
    (hlog : (final (runCycle keeper w)).log = w.log ++ d)
    (hobs : observedIn d = [(keys,observations)])
    (hplans : (planner keeper.config).planExtendSplit keeper.crates
      (extendable keys observations) (referenceLedger observations) = .ok [first,second]) :
    (second ∈ attempted d ↔ ∃ s ∈ accepted d, s.built.footprintKeys = first.footprint) ∧
    (second ∉ attempted d →
      ∃ err t, runCycle keeper w = .error (.failed err) t ∧ FailedOn keeper first err d) := by
  obtain ⟨d₁,hlog₁,hrun⟩ := (runCycle_cases keeper w).cases
  rw [hlog,List.append_cancel_left_eq] at hlog₁
  subst hlog₁
  obtain ⟨_,_,hne⟩ := Planner.planExtendSplit_pair hplans
  have hsame {keys' : List LedgerKey} {observations' : List Observation}
      {plans : List ArchivalPlan} {dq d' : List Event}
      (hprep : Prepared keeper keys' observations' plans dq) (hd : d = dq ++ d')
      (hunread : observedIn d' = []) : plans = [first,second] := by
    rw [hd,observedIn_append,hprep.once,hunread,List.append_nil] at hobs
    obtain ⟨rfl,rfl⟩ := Prod.mk.inj (List.cons.inj hobs).1
    exact Except.ok.inj (hprep.planned.symm.trans hplans)
  rcases hrun with ⟨report,t,_,hcycle⟩|⟨fault,t,hrun,hcycle⟩
  · cases hcycle with
    | completed _ _ plans dq d' u _ hkeys hlook hprep hserves =>
      cases hsame hprep rfl (observedIn_of_serves hserves)
      have htried := (attempted_of_serves hprep hserves second (by simp)).1
      have haccepted := (attempted_of_serves hprep hserves first (by simp)).2
      exact ⟨iff_of_true htried haccepted,fun h => absurd htried h⟩
  · cases hcycle with
    | unready _ _ _ hlook hwhy =>
      -- what kept the cycle from its plans came before the observations, or was the planner
      exfalso
      cases hwhy with
      | unresolved _ _ hunread => simp [hunread] at hobs
      | unwatched _ hunread => simp [hunread] at hobs
      | unanswered _ _ _ _ hunread => simp [hunread] at hobs
      | unplanned _ _ _ hread hplan =>
        rw [hread] at hobs
        obtain ⟨rfl,rfl⟩ := Prod.mk.inj (List.cons.inj hobs).1
        rw [hplans] at hplan
        cases hplan
    | stuck _ _ done plan rest err dq d₁ d₂ t' u v hkeys hlook hprep hserves hstep =>
      have hunread : observedIn (d₁ ++ d₂) = [] := by
        rw [observedIn_append,observedIn_of_serves hserves,hstep.unserved.unread,List.append_nil]
      have hpair := hsame hprep rfl hunread
      rw [hpair] at hprep
      cases done with
      | nil =>
        obtain ⟨_,hnil,rfl⟩ := hserves.served
        cases hnil
        obtain ⟨rfl,_⟩ := List.cons.inj hpair
        obtain ⟨huntried,hnone⟩ := untried_of_stuck hprep hstep hne
        rw [List.flatten_nil,List.nil_append,hnone]
        exact ⟨iff_of_false huntried (by simp),
          fun _ => ⟨err,t,hrun,hstep.failedOn dq []⟩⟩
      | cons p done =>
        obtain ⟨rfl,htail⟩ := List.cons.inj hpair
        cases done with
        | nil =>
          obtain ⟨rfl,_⟩ := List.cons.inj htail
          obtain ⟨htried,haccepted⟩ := tried_of_stuck hprep hserves hstep
          exact ⟨iff_of_true htried haccepted,fun h => absurd htried h⟩
        | cons q done => simp at htail

/-- Both sample entries are in danger, and the first simulation fails in transport. -/
def stuckWorld : World Script :=
  ⟨⟨.ok "Test SDF Network ; September 2015",[.ok (sampleEntries 100 150 150)],[.ok 7],
    [.error "connection refused"],[]⟩,none,[]⟩

def persistentPlan : ArchivalPlan := Planner.mkPlan (planner sampleKeeper.config) 100
  [Planner.extendEntry 100 (codeKey,⟨100,some 150⟩)
    "AAAABwAAAAAAAAAAAAAAAAAAAAAAAAAAAAAAAAAAAAAAAAAA"]

def temporaryPlan : ArchivalPlan := Planner.mkPlan (planner sampleKeeper.config) 100
  [Planner.extendEntry 100 (dataKey,⟨100,some 150⟩)
    "AAAABgAAAAEAAAAAAAAAAAAAAAAAAAAAAAAAAAAAAAAAAAAAAAAAAAAAAAMAAAAHAAAAAA=="]

/-- The observations of a cycle in `stuckWorld`, and of any cycle that finds the two entries so. -/
def bothEndangered : List Observation :=
  [⟨100,.live ⟨100,some 150⟩⟩,⟨100,.live ⟨100,some 150⟩⟩]

theorem secondPlan_attempted_stuck :
    (temporaryPlan ∈ attempted (final (runCycle sampleKeeper stuckWorld)).log ↔
      ∃ s ∈ accepted (final (runCycle sampleKeeper stuckWorld)).log,
        s.built.footprintKeys = persistentPlan.footprint) ∧
    (temporaryPlan ∉ attempted (final (runCycle sampleKeeper stuckWorld)).log →
      ∃ err t, runCycle sampleKeeper stuckWorld = .error (.failed err) t ∧
        FailedOn sampleKeeper persistentPlan err (final (runCycle sampleKeeper stuckWorld)).log) :=
  secondPlan_attempted_iff sampleKeeper stuckWorld _ [codeKey,dataKey] bothEndangered
    persistentPlan temporaryPlan (List.nil_append _).symm (by decide +kernel)
    (eq_ok_of_toOption (by decide +kernel))

/-- A failed first simulation keeps the temporary plan from being tried. -/
theorem secondPlan_not_attempted : ¬∀ (keeper : Keeper Script) (w : World Script)
    (d : List Event) (keys : List LedgerKey) (observations : List Observation)
    (first second : ArchivalPlan), (final (runCycle keeper w)).log = w.log ++ d →
    observedIn d = [(keys,observations)] →
    (planner keeper.config).planExtendSplit keeper.crates (extendable keys observations)
      (referenceLedger observations) = .ok [first,second] → second ∈ attempted d := by
  intro h
  have htried := h sampleKeeper stuckWorld (final (runCycle sampleKeeper stuckWorld)).log
    [codeKey,dataKey] bothEndangered persistentPlan temporaryPlan (List.nil_append _).symm
    (by decide +kernel)
    (eq_ok_of_toOption (by decide +kernel))
  exact absurd htried (by decide +kernel)

end SorobanRentKeeper

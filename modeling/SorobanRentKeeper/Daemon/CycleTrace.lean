import SorobanRentKeeper.Daemon.SubmitLog

namespace SorobanRentKeeper

open Program

variable {σ : Type}

/-- A log without submissions. -/
structure Quiet (d : List Event) : Prop where
  sends : sends d = []
  simulated : simulated d = []
  attempted : attempted d = []

theorem Quiet.accepted {d : List Event} (h : Quiet d) : accepted d = [] := by
  simp [SorobanRentKeeper.accepted,h.sends]

theorem Quiet.append {d d' : List Event} (h : Quiet d) (h' : Quiet d') : Quiet (d ++ d') := by
  constructor
  · simp [h.sends,h'.sends]
  · simp [h.simulated,h'.simulated]
  · simp [h.attempted,h'.attempted]

theorem quiet_of_onlyReads {d : List Event} (h : Provider.OnlyReads d) :
    Quiet d ∧ observedIn d = [] := by
  have hnone {α : Type} (f : Event → Option α)
      (hf : ∀ keys reply, f (.ledgerEntries keys reply) = none) : d.filterMap f = [] := by
    rw [List.filterMap_eq_nil_iff]
    intro e he
    obtain ⟨keys,reply,rfl⟩ := h e he
    exact hf keys reply
  exact ⟨⟨hnone _ fun _ _ => rfl,hnone _ fun _ _ => rfl,hnone _ fun _ _ => rfl⟩,
    hnone _ fun _ _ => rfl⟩

/-- The ledger a report names: that of the first observation. -/
def referenceLedger (observations : List Observation) : UInt32 :=
  (observations.head?.map Observation.currentLedger).getD 0

/-- What a cycle knows once it has its plans. -/
structure Prepared (keeper : Keeper σ) (keys : List LedgerKey) (observations : List Observation)
    (plans : List ArchivalPlan) (d : List Event) : Prop where
  quiet : Quiet d
  nonempty : keys ≠ []
  once : observedIn d = [(keys,observations)]
  observed : List.Forall₂ (Provider.Observed keeper.crates d) keys observations
  planned : (planner keeper.config).planExtendSplit keeper.crates (extendable keys observations)
    (referenceLedger observations) = .ok plans

/-- What `run_cycle` does before it has plans: it looks, and leaves the tracker alone. -/
structure Looked (w : World σ) (d : List Event) (t : World σ) : Prop where
  sequence : t.sequence = w.sequence
  reads : ∀ e ∈ d, (∃ reply, e = .network reply) ∨ (∃ keys reply, e = .ledgerEntries keys reply) ∨
    ∃ keys observations, e = .observed keys observations

theorem Looked.filterMap {α : Type} {w t : World σ} {d : List Event} (h : Looked w d t)
    (f : Event → Option α) (hnetwork : ∀ reply, f (.network reply) = none)
    (hentries : ∀ keys reply, f (.ledgerEntries keys reply) = none)
    (hobserved : ∀ keys observations, f (.observed keys observations) = none) :
    d.filterMap f = [] := by
  rw [List.filterMap_eq_nil_iff]
  intro e he
  rcases h.reads e he with ⟨reply,rfl⟩|⟨keys,reply,rfl⟩|⟨keys,observations,rfl⟩
  · exact hnetwork reply
  · exact hentries keys reply
  · exact hobserved keys observations

theorem Looked.quiet {w t : World σ} {d : List Event} (h : Looked w d t) : Quiet d :=
  ⟨h.filterMap _ (fun _ => rfl) (fun _ _ => rfl) fun _ _ => rfl,
    h.filterMap _ (fun _ => rfl) (fun _ _ => rfl) fun _ _ => rfl,
    h.filterMap _ (fun _ => rfl) (fun _ _ => rfl) fun _ _ => rfl⟩

/-- An exchange with the node that did not give what it was for. -/
def Unanswered (keeper : Keeper σ) : Event → Prop
  | .network reply => reply ≠ .ok keeper.config.networkPassphrase
  | .ledgerEntries keys reply => Provider.Unreadable keeper.crates keys reply
  | .account reply => ∃ e, reply = .error e
  | .simulate _ reply => ∃ e, reply = .error e
  | _ => False

/-- What keeps `run_cycle` from having plans, with the error it ends in. Only a planning error comes
after the observations. -/
inductive Unready (keeper : Keeper σ) (d : List Event) : Fault KeeperError → Prop where
  | unresolved (fault : Fault KeeperError)
      (h : resolveWatchKeys keeper.crates keeper.config = .error fault)
      (hunread : observedIn d = []) : Unready keeper d fault
  | unwatched (h : resolveWatchKeys keeper.crates keeper.config = .ok [])
      (hunread : observedIn d = []) :
      Unready keeper d (.failed (.invalidWatch "no watch keys resolved from configuration"))
  | unanswered (e : Event) (text : String) (he : e ∈ d) (h : Unanswered keeper e)
      (hunread : observedIn d = []) : Unready keeper d (.failed (.rpc text))
  | unplanned (keys : List LedgerKey) (observations : List Observation) (err : RentkeeperError)
      (hread : observedIn d = [(keys,observations)])
      (hplan : (planner keeper.config).planExtendSplit keeper.crates (extendable keys observations)
        (referenceLedger observations) = .error err) :
      Unready keeper d (.failed (.transaction err.toString))

/-! Three steps: the network, the observations, the plans. -/

theorem Looked.network {w t u : World σ} {d : List Event} (reply : Except String String)
    (h : Looked t d u) (hsequence : t.sequence = w.sequence) :
    Looked w ([.network reply] ++ d) u := by
  refine ⟨h.sequence.trans hsequence,?_⟩
  intro e he
  rcases List.mem_cons.mp he with rfl|he
  · exact .inl ⟨reply,rfl⟩
  · exact h.reads e he

theorem Prepared.network {keeper : Keeper σ} {keys : List LedgerKey}
    {observations : List Observation} {plans : List ArchivalPlan} {d : List Event}
    (h : Prepared keeper keys observations plans d) (reply : Except String String) :
    Prepared keeper keys observations plans ([.network reply] ++ d) where
  quiet := Quiet.append ⟨rfl,rfl,rfl⟩ h.quiet
  nonempty := h.nonempty
  once := h.once
  observed := h.observed.imp fun _ _ h => h.append_right _
  planned := h.planned

theorem Unready.network {keeper : Keeper σ} {d : List Event} {fault : Fault KeeperError}
    (h : Unready keeper d fault) (reply : Except String String) :
    Unready keeper ([.network reply] ++ d) fault := by
  cases h with
  | unresolved _ h hunread => exact .unresolved fault h hunread
  | unwatched h hunread => exact .unwatched h hunread
  | unanswered e text he h hunread =>
    exact .unanswered e text (List.mem_append_right _ he) h hunread
  | unplanned keys observations err hread hplan =>
    exact .unplanned keys observations err hread hplan

/-- What was observed is recorded, and planned. -/
theorem planObserved_traced (keeper : Keeper σ) (keys : List LedgerKey)
    (observations : List Observation) (w : World σ) :
    Traced World.log (do
        record (.observed keys observations)
        let plans ← Program.ofExcept (((planner keeper.config).planExtendSplit keeper.crates
          (extendable keys observations) (referenceLedger observations)).mapError
            fun e => KeeperError.transaction e.toString)
        return (referenceLedger observations,plans)) w
      (fun r d t => (d = [.observed keys observations] ∧ t.sequence = w.sequence) ∧
        r.1 = referenceLedger observations ∧ (planner keeper.config).planExtendSplit keeper.crates
          (extendable keys observations) (referenceLedger observations) = .ok r.2)
      (fun err d t => (d = [.observed keys observations] ∧ t.sequence = w.sequence) ∧
        ∃ e, err = .transaction e.toString ∧ (planner keeper.config).planExtendSplit keeper.crates
          (extendable keys observations) (referenceLedger observations) = .error e) := by
  refine Traced.bind (record_traced _ w) ?_ (fun _ _ _ h => h.elim)
  intro _ d t h
  obtain ⟨rfl,_,hsequence⟩ := h
  refine traced_ofExcept_bind ?_ ?_
  · intro plans hmap
    exact traced_pure ⟨⟨rfl,hsequence⟩,rfl,mapError_eq_ok hmap⟩
  · intro err hmap
    obtain ⟨e,hplan,rfl⟩ := mapError_eq_error hmap
    exact ⟨⟨rfl,hsequence⟩,e,rfl,hplan⟩

/-- On its own network, a cycle observes its keys and plans. -/
theorem observed_traced (keeper : Keeper σ) (keys : List LedgerKey) (hne : keys ≠ [])
    (w : World σ) :
    Traced World.log (do
        let observations ← EStateM.adaptExcept (fun e => KeeperError.rpc e.toString)
          (Provider.observeEntries keeper.crates keeper.node keys)
        record (.observed keys observations)
        let plans ← Program.ofExcept (((planner keeper.config).planExtendSplit keeper.crates
          (extendable keys observations) (referenceLedger observations)).mapError
            fun e => KeeperError.transaction e.toString)
        return (referenceLedger observations,plans)) w
      (fun r d t => Looked w d t ∧ ∃ observations, r.1 = referenceLedger observations ∧
        Prepared keeper keys observations r.2 d)
      (fun err d t => Looked w d t ∧ Unready keeper d (.failed err)) := by
  refine Traced.bind (Traced.adaptExcept _
    (Provider.observeEntries_traced keeper.crates keeper.node keys w)) ?_ ?_
  · intro observations d t h
    obtain ⟨hsequence,hreads,hobserved⟩ := h
    obtain ⟨_,hunread⟩ := quiet_of_onlyReads hreads
    have hlook {u : World σ} (h : u.sequence = t.sequence) :
        Looked w (d ++ [.observed keys observations]) u := by
      refine ⟨h.trans hsequence,?_⟩
      intro e he
      rcases List.mem_append.mp he with he|he
      · exact .inr (.inl (hreads e he))
      · exact .inr (.inr ⟨keys,observations,List.mem_singleton.mp he⟩)
    have honce : observedIn (d ++ [.observed keys observations]) = [(keys,observations)] := by
      rw [observedIn_append,hunread]
      rfl
    refine Traced.mono (planObserved_traced keeper keys observations t) ?_ ?_
    · intro r d' u h
      obtain ⟨⟨rfl,hu⟩,hledger,hplan⟩ := h
      exact ⟨hlook hu,observations,hledger,(hlook hu).quiet,hne,honce,
        hobserved.imp fun _ _ h => h.append_left _,hplan⟩
    · intro err d' u h
      obtain ⟨⟨rfl,hu⟩,e,rfl,hplan⟩ := h
      exact ⟨hlook hu,.unplanned keys observations e honce hplan⟩
  · intro err d t h
    obtain ⟨e,⟨hsequence,hreads,ks,reply,hmem,hmiss⟩,rfl⟩ := h
    exact ⟨⟨hsequence,fun x hx => .inr (.inl (hreads x hx))⟩,
      .unanswered (.ledgerEntries ks reply) _ hmem hmiss (quiet_of_onlyReads hreads).2⟩

/-- A cycle submits nothing before it has its plans. -/
theorem observeAndPlan_traced (keeper : Keeper σ) (keys : List LedgerKey) (w : World σ)
    (hkeys : resolveWatchKeys keeper.crates keeper.config = .ok keys) :
    Traced World.log (observeAndPlan keeper keys) w
      (fun r d t => Looked w d t ∧ ∃ observations, r.1 = referenceLedger observations ∧
        Prepared keeper keys observations r.2 d)
      (fun err d t => Looked w d t ∧ Unready keeper d (.failed err)) := by
  unfold observeAndPlan
  split
  · next hempty =>
    rw [List.isEmpty_iff] at hempty
    rw [hempty] at hkeys
    exact traced_throw ⟨⟨rfl,by simp⟩,.unwatched hkeys rfl⟩
  · next hne =>
    refine Traced.bind (Traced.adaptExcept _ (call_traced _ _ _ w)) ?_ ?_
    · intro actualNetwork d t h
      obtain ⟨_,hsequence,rfl⟩ := h
      split
      · next hmismatch =>
        have hother : Unanswered keeper (.network (.ok actualNetwork)) :=
          fun hsame => hmismatch (Except.ok.inj hsame)
        exact traced_throw ⟨⟨hsequence,by simp⟩,
          .unanswered (.network (.ok actualNetwork)) _ List.mem_cons_self hother rfl⟩
      · refine Traced.mono (observed_traced keeper keys (by simpa using hne) t) ?_ ?_
        · intro r d u h
          obtain ⟨hlook,observations,hledger,hprep⟩ := h
          exact ⟨hlook.network _ hsequence,observations,hledger,hprep.network _⟩
        · intro err d u h
          exact ⟨h.1.network _ hsequence,h.2.network _⟩
    · intro err d t h
      obtain ⟨_,⟨e,_,hsequence,rfl,_⟩,rfl⟩ := h
      exact ⟨⟨hsequence,by simp⟩,
        .unanswered (.network (.error e)) _ List.mem_cons_self (fun hsame => by cases hsame) rfl⟩

/-- The builder a cycle submits with. -/
def cycleBuilder (keeper : Keeper σ) : TxBuilder := TxBuilder.new keeper.config.networkPassphrase

def cycleReport (observations : List Observation) (plans : List ArchivalPlan) : CycleReport :=
  ⟨referenceLedger observations,(plans.map ArchivalPlan.len).sum,decide (0 < plans.length),
    plans.length⟩

theorem submitCycle_traced (keeper : Keeper σ) (observations : List Observation)
    (plans : List ArchivalPlan) (w : World σ) :
    Traced World.log (submitCycle keeper (referenceLedger observations) plans) w
      (fun report d t => report = cycleReport observations plans ∧
        Serves keeper (cycleBuilder keeper) w plans d t)
      (fun err d t => ∃ done plan rest d₁ d₂ u, plans = done ++ plan::rest ∧
        Serves keeper (cycleBuilder keeper) w done d₁ u ∧
        Step keeper (cycleBuilder keeper) plan u (some err) d₂ t ∧ d = d₁ ++ d₂) := by
  unfold submitCycle
  split
  · next hempty =>
    rw [List.isEmpty_iff] at hempty
    subst hempty
    exact traced_pure ⟨rfl,.nil⟩
  · refine Traced.bind (submitPlans_serves keeper (cycleBuilder keeper) plans w) ?_
      (fun _ _ _ h => h)
    intro n d t h
    obtain ⟨rfl,hserves⟩ := h
    refine traced_pure ⟨rfl,?_⟩
    rw [List.append_nil]
    exact hserves

/-- Every way a call to `run_cycle` can end. -/
inductive Cycled (keeper : Keeper σ) (w : World σ) :
    Except (Fault KeeperError) CycleReport → List Event → World σ → Prop where
  | unready (fault : Fault KeeperError) (d : List Event) (t : World σ) (hlook : Looked w d t)
      (hwhy : Unready keeper d fault) : Cycled keeper w (.error fault) d t
  | stuck (keys : List LedgerKey) (observations : List Observation) (done : List ArchivalPlan)
      (plan : ArchivalPlan) (rest : List ArchivalPlan) (err : KeeperError) (d d₁ d₂ : List Event)
      (t u v : World σ) (hkeys : resolveWatchKeys keeper.crates keeper.config = .ok keys)
      (hlook : Looked w d t) (hprep : Prepared keeper keys observations (done ++ plan::rest) d)
      (hserves : Serves keeper (cycleBuilder keeper) t done d₁ u)
      (hstep : Step keeper (cycleBuilder keeper) plan u (some err) d₂ v) :
      Cycled keeper w (.error (.failed err)) (d ++ (d₁ ++ d₂)) v
  | completed (keys : List LedgerKey) (observations : List Observation) (plans : List ArchivalPlan)
      (d d' : List Event) (t u : World σ)
      (hkeys : resolveWatchKeys keeper.crates keeper.config = .ok keys) (hlook : Looked w d t)
      (hprep : Prepared keeper keys observations plans d)
      (hserves : Serves keeper (cycleBuilder keeper) t plans d' u) :
      Cycled keeper w (.ok (cycleReport observations plans)) (d ++ d') u

theorem runCycle_cases (keeper : Keeper σ) (w : World σ) :
    Traced World.log (runCycle keeper) w (fun report d t => Cycled keeper w (.ok report) d t)
      (fun fault d t => Cycled keeper w (.error fault) d t) := by
  unfold runCycle
  refine traced_ofExcept_bind ?_ ?_
  · intro keys hkeys
    have hbody : Traced World.log
        (observeAndPlan keeper keys >>= fun r => submitCycle keeper r.1 r.2) w
        (fun report d t => Cycled keeper w (.ok report) d t)
        (fun err d t => Cycled keeper w (.error (.failed err)) d t) := by
      refine Traced.bind (observeAndPlan_traced keeper keys w hkeys) ?_ ?_
      · intro r d t h
        obtain ⟨hlook,observations,hledger,hprep⟩ := h
        rw [hledger]
        refine Traced.mono (submitCycle_traced keeper observations r.2 t) ?_ ?_
        · intro report d' u h
          obtain ⟨rfl,hserves⟩ := h
          exact .completed keys observations r.2 d d' t u hkeys hlook hprep hserves
        · intro err d' v h
          obtain ⟨done,plan,rest,d₁,d₂,u,hplans,hserves,hstep,rfl⟩ := h
          rw [hplans] at hprep
          exact .stuck keys observations done plan rest err d d₁ d₂ t u v hkeys hlook hprep hserves
            hstep
      · intro err d t h
        exact .unready (.failed err) d t h.1 h.2
    apply Traced.mono (Traced.adaptExcept Fault.failed hbody) (fun _ _ _ h => h)
    intro fault d t h
    obtain ⟨_,h,rfl⟩ := h
    exact h
  · intro fault hkeys
    exact .unready fault [] w ⟨rfl,by simp⟩ (.unresolved fault hkeys rfl)

/-- A cycle all of whose plans were served. -/
structure Completed (keeper : Keeper σ) (keys : List LedgerKey) (observations : List Observation)
    (plans : List ArchivalPlan) (d : List Event) : Prop where
  resolved : resolveWatchKeys keeper.crates keeper.config = .ok keys
  logged : ∃ dq ds, Prepared keeper keys observations plans dq ∧
    List.Forall₂ (Served keeper (cycleBuilder keeper)) plans ds ∧ d = dq ++ ds.flatten

/-- A cycle that served the plans of `done` and ended at `plan`. -/
structure Stuck (keeper : Keeper σ) (keys : List LedgerKey) (observations : List Observation)
    (done : List ArchivalPlan) (plan : ArchivalPlan) (rest : List ArchivalPlan)
    (d : List Event) : Prop where
  resolved : resolveWatchKeys keeper.crates keeper.config = .ok keys
  logged : ∃ dq ds d', Prepared keeper keys observations (done ++ plan::rest) dq ∧
    List.Forall₂ (Served keeper (cycleBuilder keeper)) done ds ∧
    Unserved keeper (cycleBuilder keeper) plan d' ∧ d = dq ++ (ds.flatten ++ d')

/-- A cycle completes with its report, fails before it has plans, or gets stuck at one. -/
theorem runCycle_traced (keeper : Keeper σ) (w : World σ) :
    Traced World.log (runCycle keeper) w
      (fun report d _ => ∃ keys observations plans, report = cycleReport observations plans ∧
        Completed keeper keys observations plans d)
      (fun _ d _ => Quiet d ∨ ∃ keys observations done plan rest,
        Stuck keeper keys observations done plan rest d) := by
  refine Traced.mono (runCycle_cases keeper w) ?_ ?_
  · intro report d u h
    cases h with
    | completed keys observations plans d d' t _ hkeys hlook hprep hserves =>
      obtain ⟨ds,hds,rfl⟩ := hserves.served
      exact ⟨keys,observations,plans,rfl,hkeys,d,ds,hprep,hds,rfl⟩
  · intro fault d v h
    cases h with
    | unready _ _ _ hlook hwhy => exact .inl hlook.quiet
    | stuck keys observations done plan rest err d d₁ d₂ t u _ hkeys hlook hprep hserves hstep =>
      obtain ⟨ds,hds,rfl⟩ := hserves.served
      exact .inr ⟨keys,observations,done,plan,rest,hkeys,d,ds,d₂,hprep,hds,hstep.unserved,rfl⟩

section Served

variable {keeper : Keeper σ} {builder : TxBuilder} {plans : List ArchivalPlan}
  {ds : List (List Event)}

/-- Serving plans has one submission accepted for each, in order. -/
theorem accepted_of_served (h : List.Forall₂ (Served keeper builder) plans ds) :
    List.Forall₂ (fun plan s => ∃ n, buildFor keeper builder plan n = .ok s.built) plans
      (accepted ds.flatten) := by
  induction h with
  | nil => exact .nil
  | cons hserved _ ih =>
    obtain ⟨s,n,hacc,hbuild⟩ := hserved.once
    rw [List.flatten_cons,accepted_append,hacc]
    exact .cons ⟨n,hbuild⟩ ih

theorem attempted_of_served (h : List.Forall₂ (Served keeper builder) plans ds)
    (plan : ArchivalPlan) : plan ∈ attempted ds.flatten ↔ plan ∈ plans := by
  induction h with
  | nil => simp [attempted]
  | @cons p d plans ds hserved _ ih =>
    rw [List.flatten_cons,attempted_append,List.mem_append,List.mem_cons,ih]
    constructor
    · intro h
      exact h.imp_left (hserved.tried plan)
    · intro h
      apply h.imp_left
      intro hp
      rw [hp]
      exact hserved.entered

theorem simulated_of_served (h : List.Forall₂ (Served keeper builder) plans ds) :
    ∀ envelope ∈ simulated ds.flatten, ∃ plan ∈ plans, ∃ n,
      buildFor keeper builder plan n = .ok envelope := by
  induction h with
  | nil => simp [simulated]
  | @cons p d plans ds hserved _ ih =>
    intro envelope he
    rw [List.flatten_cons,simulated_append,List.mem_append] at he
    rcases he with he|he
    · exact ⟨p,List.mem_cons_self,hserved.built envelope he⟩
    · obtain ⟨plan,hplan,hbuild⟩ := ih envelope he
      exact ⟨plan,List.mem_cons_of_mem p hplan,hbuild⟩

theorem observedIn_of_served (h : List.Forall₂ (Served keeper builder) plans ds) :
    observedIn ds.flatten = [] := by
  induction h with
  | nil => rfl
  | cons hserved _ ih => rw [List.flatten_cons,observedIn_append,hserved.unread,ih,List.append_nil]

/-- The keys of a built envelope are those of its plan. -/
theorem footprintKeys_of_buildFor {plan : ArchivalPlan} {n : Int64} {envelope : TransactionEnvelope}
    (h : buildFor keeper builder plan n = .ok envelope) :
    envelope.footprintKeys = plan.footprint := TxBuilder.footprintKeys_of_buildUnsigned h

theorem footprints_of_served (h : List.Forall₂ (Served keeper builder) plans ds) :
    (accepted ds.flatten).map (fun s => s.built.footprintKeys) =
      plans.map ArchivalPlan.footprint := by
  have hall := accepted_of_served h
  generalize accepted ds.flatten = ss at hall
  clear h
  induction hall with
  | nil => rfl
  | cons hs _ ih =>
    obtain ⟨n,hbuild⟩ := hs
    rw [List.map_cons,List.map_cons,footprintKeys_of_buildFor hbuild,ih]

end Served

end SorobanRentKeeper

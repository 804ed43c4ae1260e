import SorobanRentKeeper.Daemon.Counters
import SorobanRentKeeper.Daemon.KeepAlive
import SorobanRentKeeper.Daemon.Reuse
import SorobanRentKeeper.Framework.Agrees

/-! The daemon in both builds: the checked one panics where a sum or a difference does not fit. -/

namespace SorobanRentKeeper

open Program

variable {σ : Type}

/-- `is_at_risk` as a build runs it. -/
def RiskWindow.isAtRiskIn (profile : Profile) (window : RiskWindow) (ttl : EntryTtl) :
    Except (Fault RentkeeperError) Bool :=
  match ttl.ttlLedgersIn profile with
  | .error fault => .error fault
  | .ok (some remaining) => .ok (decide (remaining ≤ window.alertHorizonLedgers))
  | .ok none => .ok false

namespace Planner

/-- The loop of `plan_extend_split` as a build runs it. -/
def splitLoopIn (profile : Profile) (crates : Crates) (planner : Planner)
    (currentLedger : UInt32) : List (LedgerKey × EntryTtl) → List PlanEntry → List PlanEntry →
      Except (Fault RentkeeperError) (List PlanEntry × List PlanEntry)
  | [],temporary,persistent => .ok (temporary,persistent)
  | o::observations,temporary,persistent =>
    match planner.window.isAtRiskIn profile o.2 with
    | .error fault => .error fault
    | .ok false =>
      splitLoopIn profile crates planner currentLedger observations temporary persistent
    | .ok true =>
      match LedgerKeys.render crates o.1 with
      | .error e => .error (.failed e)
      | .ok keyXdr =>
        let entry := extendEntry currentLedger o keyXdr
        match entry.durability with
        | some .temporary =>
          splitLoopIn profile crates planner currentLedger observations (temporary ++ [entry])
            persistent
        | _ =>
          splitLoopIn profile crates planner currentLedger observations temporary
            (persistent ++ [entry])

def planExtendSplitIn (profile : Profile) (crates : Crates) (planner : Planner)
    (observations : List (LedgerKey × EntryTtl)) (currentLedger : UInt32) :
    Except (Fault RentkeeperError) (List ArchivalPlan) :=
  match splitLoopIn profile crates planner currentLedger observations [] [] with
  | .error fault => .error fault
  | .ok (temporary,persistent) =>
    .ok ([mkPlan planner currentLedger persistent,mkPlan planner currentLedger temporary].filter
      fun p => !p.isEmpty)

end Planner

/-- `seq + 1` as a build runs it. -/
def incrementIn (profile : Profile) (seq : Int64) : Except (Fault KeeperError) Int64 :=
  match profile with
  | .dev => if seq.toInt + 1 < 9223372036854775808 then .ok (seq + 1) else .error .panicked
  | .release => .ok (seq + 1)

def SequenceTracker.nextSequenceIn (profile : Profile) (node : Node σ)
    (tracker : SequenceTracker) : EStateM (Fault KeeperError) (World σ) Int64 := do
  match (← get).sequence with
  | some seq =>
    let next ← Program.ofExcept (incrementIn profile seq)
    modify fun w => { w with sequence := some next }
    return next
  | none =>
    let seqNum ← EStateM.adaptExcept
      (fun e => .failed (.rpc ("get_account for fee payer (is it funded?): " ++ e.toString)))
      (Provider.getAccount node tracker.accountId)
    let next ← Program.ofExcept (incrementIn profile seqNum)
    modify fun w => { w with sequence := some next }
    return next

/-- `submit_plan` once it has its number. -/
def submitNumbered (keeper : Keeper σ) (builder : TxBuilder) (plan : ArchivalPlan)
    (seqNum : Int64) : EStateM KeeperError (World σ) SubmissionOutcome := do
  let envelope ← Program.ofExcept <|
    (builder.buildUnsigned keeper.crates plan ⟨keeper.payer.publicBytes keeper.crates⟩
      seqNum).mapError fun e => .transaction e.toString
  let simulation ← EStateM.adaptExcept (fun e => .rpc e.toString)
    (Provider.simulate keeper.node envelope)
  if simulation.failed then
    throw (.transaction ("simulation rejected: " ++ simulation.error.getD ""))
  let priced ← Program.ofExcept <|
    (mutate (builder.applySimulation keeper.crates simulation) envelope).mapError fun e =>
      .transaction e.toString
  let signed ← Program.ofExcept <|
    (mutate (builder.sign keeper.crates keeper.payer.signingKey) priced).mapError fun e =>
      .transaction e.toString
  submitExtend keeper envelope signed

def submitPlanIn (profile : Profile) (keeper : Keeper σ) (builder : TxBuilder)
    (plan : ArchivalPlan) : EStateM (Fault KeeperError) (World σ) SubmissionOutcome := do
  EStateM.adaptExcept .failed (record (.submitPlan plan))
  let seqNum ← keeper.tracker.nextSequenceIn profile keeper.node
  EStateM.adaptExcept .failed (submitNumbered keeper builder plan seqNum)

/-- The result of a call; a panic is none. -/
def unpanicked {α : Type} (x : EStateM (Fault KeeperError) (World σ) α) :
    EStateM (Fault KeeperError) (World σ) (Except KeeperError α) := fun w =>
  match x w with
  | .ok a t => .ok (.ok a) t
  | .error (.failed err) t => .ok (.error err) t
  | .error .panicked t => .error .panicked t

def submitStepIn (profile : Profile) (keeper : Keeper σ) (builder : TxBuilder) (submitted : Nat)
    (plan : ArchivalPlan) : EStateM (Fault KeeperError) (World σ) Nat := do
  match ← unpanicked (submitPlanIn profile keeper builder plan) with
  | .ok .accepted => return submitted + 1
  | .ok .rejected => return submitted
  | .error err =>
    if ← EStateM.adaptExcept .failed (SequenceTracker.reportFailure err) then
      match ← unpanicked (submitPlanIn profile keeper builder plan) with
      | .ok .accepted => return submitted + 1
      | _ => throw (.failed err)
    else throw (.failed err)

def submitCycleIn (profile : Profile) (keeper : Keeper σ) (observedLedger : UInt32)
    (plans : List ArchivalPlan) : EStateM (Fault KeeperError) (World σ) CycleReport := do
  if plans.isEmpty then
    return ⟨observedLedger,0,false,0⟩
  let entriesAtRisk := (plans.map ArchivalPlan.len).sum
  let submitted ← plans.foldlM
    (submitStepIn profile keeper (TxBuilder.new keeper.config.networkPassphrase)) 0
  return ⟨observedLedger,entriesAtRisk,decide (0 < submitted),submitted⟩

/-- `run_cycle` once the keys are resolved, up to its observations. -/
def observeWatched (keeper : Keeper σ) (keys : List LedgerKey) :
    EStateM KeeperError (World σ) (List Observation) := do
  if keys.isEmpty then
    throw (.invalidWatch "no watch keys resolved from configuration")
  let actualNetwork ← EStateM.adaptExcept (fun e => .rpc e.toString)
    (Provider.networkPassphrase keeper.node)
  if actualNetwork ≠ keeper.config.networkPassphrase then
    throw (.rpc ("network mismatch: config '" ++ keeper.config.networkPassphrase ++
      "' but node reports '" ++ actualNetwork ++ "'"))
  let observations ← EStateM.adaptExcept (fun e => .rpc e.toString)
    (Provider.observeEntries keeper.crates keeper.node keys)
  record (.observed keys observations)
  return observations

/-- The plans `run_cycle` makes of its observations. -/
def plansIn (profile : Profile) (keeper : Keeper σ) (keys : List LedgerKey)
    (observations : List Observation) : Except (Fault KeeperError) (List ArchivalPlan) :=
  match (planner keeper.config).planExtendSplitIn profile keeper.crates
      (extendable keys observations)
      ((observations.head?.map Observation.currentLedger).getD 0) with
  | .ok plans => .ok plans
  | .error (.failed e) => .error (.failed (.transaction e.toString))
  | .error .panicked => .error .panicked

def runCycleIn (profile : Profile) (keeper : Keeper σ) :
    EStateM (Fault KeeperError) (World σ) CycleReport := do
  let keys ← Program.ofExcept (resolveWatchKeys keeper.crates keeper.config)
  let observations ← EStateM.adaptExcept .failed (observeWatched keeper keys)
  let plans ← Program.ofExcept (plansIn profile keeper keys observations)
  submitCycleIn profile keeper ((observations.head?.map Observation.currentLedger).getD 0) plans

/-- The retry loop of one tick, as a build runs it. -/
def attemptsIn (profile : Profile) (keeper : Keeper σ) :
    Nat → World σ → Metrics → World σ × Option Metrics
  | 0,w,metrics => (w,some metrics)
  | left+1,w,metrics =>
    match runCycleIn profile keeper w with
    | .ok report w => (w,some (metrics.cycleComplete report))
    | .error .panicked w => (w,none)
    | .error (.failed err) w =>
      if left = 0 ∨ !isTransient err then (w,some (metrics.cycleFailed err))
      else attemptsIn profile keeper left w metrics

/-- `n` ticks of `run_loop`, as a build runs them. -/
def runLoopIn (profile : Profile) (keeper : Keeper σ) :
    Nat → World σ → Metrics → World σ × Option Metrics
  | 0,w,metrics => (w,some metrics)
  | n+1,w,metrics =>
    match runLoopIn profile keeper n w metrics with
    | (w,some metrics) => attemptsIn profile keeper retryAttempts w metrics
    | (w,none) => (w,none)

/-! The model without checks, cut where the definitions above are cut. -/

theorem submitPlan_eq (keeper : Keeper σ) (builder : TxBuilder) (plan : ArchivalPlan) :
    submitPlan keeper builder plan = record (.submitPlan plan) >>= fun _ =>
      keeper.tracker.nextSequence keeper.node >>= submitNumbered keeper builder plan := rfl

theorem observeAndPlan_eq (keeper : Keeper σ) (keys : List LedgerKey) :
    observeAndPlan keeper keys = observeWatched keeper keys >>= fun observations =>
      Program.ofExcept (((planner keeper.config).planExtendSplit keeper.crates
        (extendable keys observations)
        ((observations.head?.map Observation.currentLedger).getD 0)).mapError
          fun e => .transaction e.toString) >>= fun plans =>
      pure ((observations.head?.map Observation.currentLedger).getD 0,plans) := by
  unfold observeAndPlan observeWatched
  split
  · rfl
  · simp only [bind_assoc]
    apply bind_congr
    intro actualNetwork
    split
    · rfl
    · simp only [bind_assoc,pure_bind]

/-! The checks of the planner never strike. -/

theorem RiskWindow.isAtRiskIn_eq (profile : Profile) (window : RiskWindow) {ttl : EntryTtl}
    (h : ¬ttl.Underflows) : window.isAtRiskIn profile ttl = .ok (window.isAtRisk ttl) := by
  unfold isAtRiskIn isAtRisk
  rw [EntryTtl.ttlLedgersIn_of_not_underflows profile h]
  cases ttl.ttlLedgers with
  | none => rfl
  | some remaining => rfl

theorem Planner.splitLoopIn_eq (profile : Profile) (crates : Crates) (planner : Planner)
    (currentLedger : UInt32) {observations : List (LedgerKey × EntryTtl)}
    (h : ∀ o ∈ observations, ¬o.2.Underflows) (temporary persistent : List PlanEntry) :
    planner.splitLoopIn profile crates currentLedger observations temporary persistent =
      (planner.splitLoop crates currentLedger observations temporary persistent).mapError
        .failed := by
  induction observations generalizing temporary persistent with
  | nil => rfl
  | cons o observations ih =>
    obtain ⟨ho,hrest⟩ := List.forall_mem_cons.mp h
    unfold splitLoopIn splitLoop
    rw [planner.window.isAtRiskIn_eq profile ho]
    cases planner.window.isAtRisk o.2 with
    | false => exact ih hrest temporary persistent
    | true =>
      cases LedgerKeys.render crates o.1 with
      | error e => rfl
      | ok keyXdr =>
        simp only [Bool.not_true,Bool.false_eq_true,if_false]
        cases (extendEntry currentLedger o keyXdr).durability with
        | none => exact ih hrest _ _
        | some durability => cases durability <;> exact ih hrest _ _

theorem plansIn_eq (profile : Profile) (keeper : Keeper σ) (keys : List LedgerKey)
    {observations : List Observation}
    (h : ∀ o ∈ extendable keys observations, ¬o.2.Underflows) :
    plansIn profile keeper keys observations =
      (((planner keeper.config).planExtendSplit keeper.crates (extendable keys observations)
        ((observations.head?.map Observation.currentLedger).getD 0)).mapError
          fun e => KeeperError.transaction e.toString).mapError .failed := by
  unfold plansIn Planner.planExtendSplitIn Planner.planExtendSplit
  rw [Planner.splitLoopIn_eq profile keeper.crates _ _ h]
  cases (planner keeper.config).splitLoop keeper.crates
      ((observations.head?.map Observation.currentLedger).getD 0)
      (extendable keys observations) [] [] with
  | error e => rfl
  | ok classes => rfl

/-! Numbers run out only next to the largest one. -/

theorem incrementIn_cases (profile : Profile) (seq : Int64) :
    incrementIn profile seq = .ok (seq + 1) ∨
      profile = .dev ∧ incrementIn profile seq = .error .panicked ∧
        9223372036854775808 ≤ seq.toInt + 1 := by
  cases profile with
  | release => exact .inl rfl
  | dev =>
    unfold incrementIn
    by_cases hfits : seq.toInt + 1 < 9223372036854775808
    · exact .inl (if_pos hfits)
    · exact .inr ⟨rfl,if_neg hfits,by omega⟩

/-- The number `next_sequence` is about to increment: the cached one, else the account's count. -/
inductive Increments (w : World σ) (c : Int64) : List Event → Prop where
  | cached (hcache : w.sequence = some c) : Increments w c []
  | fetched : Increments w c [.account (.ok c)]

/-- Asking for the account, however its failure is put. -/
theorem adaptExcept_getAccount {ε : Type} (wrap : RentkeeperError → ε) (node : Node σ)
    (accountId : String) (w : World σ) :
    EStateM.adaptExcept wrap (Provider.getAccount node accountId) w =
      match (node.getAccount accountId w.node).1 with
      | .ok seq => .ok seq ⟨(node.getAccount accountId w.node).2,w.sequence,
          w.log ++ [.account (.ok seq)]⟩
      | .error e => .error (wrap (.rpc ("get_account: " ++ e)))
          ⟨(node.getAccount accountId w.node).2,w.sequence,w.log ++ [.account (.error e)]⟩ := by
  unfold EStateM.adaptExcept Provider.getAccount call
  cases hreply : node.getAccount accountId w.node with
  | mk reply served =>
    cases reply with
    | ok seq => rfl
    | error e => rfl

/-- Both builds take the same number; or one stops at the largest, having asked what the other
asks. -/
theorem nextSequenceIn_cases (profile : Profile) (node : Node σ) (tracker : SequenceTracker)
    (w : World σ) :
    tracker.nextSequenceIn profile node w =
        EStateM.adaptExcept .failed (tracker.nextSequence node) w ∨
      ∃ t d c, tracker.nextSequenceIn profile node w = .error .panicked t ∧ profile = .dev ∧
        t.log = w.log ++ d ∧ (final (tracker.nextSequence node w)).log = t.log ∧
        Increments w c d ∧ 9223372036854775808 ≤ c.toInt + 1 := by
  obtain ⟨served,cached,log⟩ := w
  cases cached with
  | some c =>
    change (ofExcept (incrementIn profile c) >>= _) _ = _ ∨ ∃ t d c',
      (ofExcept (incrementIn profile c) >>= _) _ = _ ∧ _
    rcases incrementIn_cases profile c with hnext|⟨hdev,hpanics,hlast⟩
    · left
      rw [hnext]
      rfl
    · right
      rw [hpanics]
      exact ⟨_,[],c,rfl,hdev,(List.append_nil _).symm,rfl,.cached rfl,hlast⟩
  | none =>
    -- the account is asked for in both, only its failure is put in other words
    have hasked := fun (wrap : RentkeeperError → Fault KeeperError) =>
      adaptExcept_getAccount wrap node tracker.accountId ⟨served,none,log⟩
    have hplain := fun (wrap : RentkeeperError → KeeperError) =>
      adaptExcept_getAccount wrap node tracker.accountId ⟨served,none,log⟩
    change (EStateM.adaptExcept _ (Provider.getAccount node tracker.accountId) >>= _) _ = _ ∨
      ∃ t d c', (EStateM.adaptExcept _ (Provider.getAccount node tracker.accountId) >>= _) _ = _ ∧ _
    have hrun : tracker.nextSequence node ⟨served,none,log⟩ =
      (EStateM.adaptExcept _ (Provider.getAccount node tracker.accountId) >>= _)
        ⟨served,none,log⟩ := rfl
    cases hreply : (node.getAccount tracker.accountId served).1 with
    | error e =>
      simp only [hreply] at hasked hplain
      left
      rw [bind_of_error _ (hasked _)]
      unfold EStateM.adaptExcept
      rw [hrun,bind_of_error _ (hplain _)]
    | ok s =>
      simp only [hreply] at hasked hplain
      rw [bind_of_ok _ (hasked _)]
      rcases incrementIn_cases profile s with hnext|⟨hdev,hpanics,hlast⟩
      · left
        unfold EStateM.adaptExcept
        rw [hnext,hrun,bind_of_ok _ (hplain _)]
        rfl
      · right
        rw [hpanics]
        refine ⟨_,_,s,rfl,hdev,rfl,?_,.fetched,hlast⟩
        rw [hrun,bind_of_ok _ (hplain _)]
        rfl

/-! How far a run can count. -/

/-- A number that is not counted up to: the run found it cached, or the node gave it. -/
def Given (w : World σ) (d : List Event) (r : Int64) : Prop :=
  w.sequence = some r ∨ .account (.ok r) ∈ d

/-- After `i` attempts the cached number is at most `i` above one that was given. -/
def Climbed (w : World σ) (i : Nat) (t : World σ) : Prop :=
  ∃ d, t.log = w.log ++ d ∧ ∀ c, t.sequence = some c → ∃ r, Given w d r ∧ c.toInt ≤ r.toInt + i

/-- A number was given that leaves no room for so many attempts. -/
def Crowded (attempts : Nat) (w t : World σ) : Prop :=
  ∃ d, t.log = w.log ++ d ∧ ∃ r, Given w d r ∧ 9223372036854775808 ≤ r.toInt + attempts

/-- A build stops: it checks sums, and one was about to leave the range of the numbers. -/
def Overflows (profile : Profile) (attempts : Nat) (w : World σ) (fault : Fault KeeperError)
    (t : World σ) : Prop :=
  profile = .dev ∧ fault = .panicked ∧ Crowded attempts w t

section Counting

variable {profile : Profile} {limit i : Nat} {w t u : World σ} {d : List Event}

theorem Given.append_right {r : Int64} (h : Given w d r) (d' : List Event) :
    Given w (d ++ d') r := h.imp_right (List.mem_append_left d')

theorem climbed_start : Climbed w 0 w := by
  refine ⟨[],(List.append_nil _).symm,?_⟩
  intro c hc
  exact ⟨c,.inl hc,by omega⟩

theorem Climbed.mono {j : Nat} (h : Climbed w i t) (hij : i ≤ j) : Climbed w j t := by
  obtain ⟨d,hlog,hcached⟩ := h
  refine ⟨d,hlog,?_⟩
  intro c hc
  obtain ⟨r,hgiven,hle⟩ := hcached c hc
  exact ⟨r,hgiven,by omega⟩

/-- What is neither counted nor cached anew may still be logged, or dropped from the cache. -/
theorem Climbed.keep (h : Climbed w i t) (hlog : u.log = t.log ++ d)
    (hsequence : ∀ c, u.sequence = some c → t.sequence = some c) : Climbed w i u := by
  obtain ⟨d₀,hlog₀,hcached⟩ := h
  refine ⟨d₀ ++ d,by rw [hlog,hlog₀,List.append_assoc],?_⟩
  intro c hc
  obtain ⟨r,hgiven,hle⟩ := hcached c (hsequence c hc)
  exact ⟨r,hgiven.append_right d,hle⟩

/-- The number that is incremented is at most `i` above a given one. -/
theorem Climbed.increments {d' : List Event} {c : Int64} (h : Climbed w i t)
    (hnext : Increments t c d) (hlog : u.log = t.log ++ d') (hd : d ⊆ d') :
    ∃ d₁, u.log = w.log ++ d₁ ∧ ∃ r, Given w d₁ r ∧ c.toInt ≤ r.toInt + i := by
  obtain ⟨d₀,hlog₀,hcached⟩ := h
  refine ⟨d₀ ++ d',by rw [hlog,hlog₀,List.append_assoc],?_⟩
  cases hnext with
  | cached hcache =>
    obtain ⟨r,hgiven,hle⟩ := hcached c hcache
    exact ⟨r,hgiven.append_right d',hle⟩
  | fetched =>
    have hmem := hd (List.mem_singleton_self (Event.account (.ok c)))
    exact ⟨c,.inr (List.mem_append_right d₀ hmem),by omega⟩

theorem toInt_next_le (c : Int64) : (c + 1).toInt ≤ c.toInt + 1 := by
  by_cases hfits : c.toInt + 1 < 9223372036854775808
  · exact Int.le_of_eq (toInt_next c hfits)
  · have hlt := Int64.toInt_lt (c + 1)
    omega

theorem Numbered.increments {keeper : Keeper σ} {n : Int64} (h : Numbered keeper t n d u) :
    ∃ c, n = c + 1 ∧ Increments t c d := by
  cases h with
  | cached c _ hcache _ _ => exact ⟨c,rfl,.cached hcache⟩
  | fetched s _ _ _ _ => exact ⟨s,rfl,.fetched⟩

/-- An attempt climbs by one at most. -/
theorem Submit.climbed {keeper : Keeper σ} {builder : TxBuilder} {plan : ArchivalPlan}
    {r : Except KeeperError SubmissionOutcome} (h : Submit keeper builder plan t r d u)
    (hlog : u.log = t.log ++ d) (hclimbed : Climbed w i t) : Climbed w (i + 1) u := by
  rcases h.logged with ⟨hnone,_⟩|⟨n,dn,_,tail,hn,hsequence,rfl,_⟩
  · apply (hclimbed.mono (Nat.le_succ i)).keep hlog
    intro c hc
    rw [hnone] at hc
    cases hc
  · obtain ⟨c,rfl,hnext⟩ := hn.increments
    have hd : dn ⊆ .submitPlan plan::dn ++ tail := by
      intro e he
      exact List.mem_append_left tail (List.mem_cons_of_mem _ he)
    obtain ⟨d₁,hlog₁,r,hgiven,hle⟩ := hclimbed.increments hnext hlog hd
    refine ⟨d₁,hlog₁,?_⟩
    intro n hnumber
    rw [hsequence] at hnumber
    cases hnumber
    have hstep := toInt_next_le c
    exact ⟨r,hgiven,by omega⟩

end Counting

section Builds

variable (profile : Profile) (limit : Nat) (w : World σ)

/-- From its number on `submit_plan` only adds to the log. -/
theorem submitNumbered_appends (keeper : Keeper σ) (builder : TxBuilder) (plan : ArchivalPlan)
    (seqNum : Int64) (s : World σ) :
    s.log <+: (final (submitNumbered keeper builder plan seqNum s)).log := by
  have htraced : Traced World.log (submitNumbered keeper builder plan seqNum) s
      (fun _ _ _ => True) (fun _ _ _ => True) := by
    unfold submitNumbered
    refine traced_ofExcept_bind ?_ (fun _ _ => trivial)
    intro envelope _
    refine Traced.bind (Traced.adaptExcept _ (simulate_traced keeper envelope s)) ?_
      (fun _ _ _ _ => trivial)
    intro simulation _ t _
    split
    · exact traced_throw trivial
    · refine traced_ofExcept_bind ?_ (fun _ _ => trivial)
      intro priced _
      refine traced_ofExcept_bind ?_ (fun _ _ => trivial)
      intro signed _
      exact (submitExtend_traced keeper envelope signed t).mono (fun _ _ _ _ => trivial)
        fun _ _ _ _ => trivial
  exact htraced.appends

/-- A number is taken in both builds, or its increment overflows. -/
theorem submitPlanIn_agrees (keeper : Keeper σ) (builder : TxBuilder) (plan : ArchivalPlan)
    {i : Nat} (hi : i < limit) :
    Agrees World.log (Overflows profile limit w) (Climbed w i)
      (submitPlanIn profile keeper builder plan)
      (EStateM.adaptExcept .failed (submitPlan keeper builder plan))
      (fun _ => Climbed w (i + 1)) (Climbed w (i + 1)) := by
  constructor
  · intro s
    rw [final_adaptExcept]
    exact (submitPlan_traced keeper builder plan s).appends
  intro s hs
  let tried : World σ := { s with log := s.log ++ [.submitPlan plan] }
  have hplain : EStateM.adaptExcept Fault.failed (submitPlan keeper builder plan) s =
      (EStateM.adaptExcept .failed (keeper.tracker.nextSequence keeper.node) >>= fun n =>
        EStateM.adaptExcept .failed (submitNumbered keeper builder plan n)) tried := by
    rw [submitPlan_eq]
    simp only [adaptExcept_bind]
    rfl
  have hchecked : submitPlanIn profile keeper builder plan s =
      (keeper.tracker.nextSequenceIn profile keeper.node >>= fun n =>
        EStateM.adaptExcept .failed (submitNumbered keeper builder plan n)) tried := rfl
  rcases nextSequenceIn_cases profile keeper.node keeper.tracker tried with
    hsame|⟨t,d,c,hpanics,hdev,hlog,hplainLog,hnext,hlast⟩
  · left
    refine ⟨?_,?_⟩
    · rw [hchecked,hplain]
      exact bind_congr_start _ hsame
    · rw [spec_adaptExcept]
      refine Spec.mono (submitPlan_traced keeper builder plan s) ?_ ?_
      · intro _ t h
        obtain ⟨d,hlog,hsubmit⟩ := h
        exact hsubmit.climbed hlog hs
      · intro _ t h
        obtain ⟨d,hlog,hsubmit⟩ := h
        exact hsubmit.climbed hlog hs
  · right
    refine ⟨.panicked,t,?_,⟨hdev,rfl,?_⟩,?_⟩
    · rw [hchecked,bind_of_error _ hpanics]
    · have hclimbed : Climbed w i tried := hs.keep rfl fun _ hc => hc
      obtain ⟨d₁,hlog₁,r,hgiven,hle⟩ := hclimbed.increments hnext hlog (List.Subset.refl d)
      exact ⟨d₁,hlog₁,r,hgiven,by omega⟩
    · rw [hplain,← hplainLog,
        ← final_adaptExcept Fault.failed (keeper.tracker.nextSequence keeper.node)]
      apply appends_bind
      intro n u
      rw [final_adaptExcept]
      exact submitNumbered_appends keeper builder plan n u

/-- The result of a call is the same in both builds, unless the call stops the build. -/
theorem unpanicked_agrees {α : Type} {P Q : World σ → Prop}
    {x : EStateM (Fault KeeperError) (World σ) α} {y : EStateM KeeperError (World σ) α}
    (h : Agrees World.log (Overflows profile limit w) P x (EStateM.adaptExcept .failed y)
      (fun _ => Q) Q) :
    Agrees World.log (Overflows profile limit w) P (unpanicked x)
      (EStateM.adaptExcept .failed (Program.attempt y)) (fun _ => Q) Q := by
  constructor
  · intro s
    have happ := h.appends s
    rw [final_adaptExcept] at happ
    rwa [final_adaptExcept,final_attempt]
  intro s hs
  rcases h.run s hs with ⟨hsame,hspec⟩|⟨e,t,hx,hstop,hlog⟩
  · left
    refine ⟨?_,?_⟩
    · unfold unpanicked
      rw [hsame]
      unfold EStateM.adaptExcept Program.attempt
      cases y s <;> rfl
    · simpa only [spec_adaptExcept,spec_attempt] using hspec
  · obtain ⟨hdev,rfl,hcrowded⟩ := hstop
    refine .inr ⟨.panicked,t,?_,⟨hdev,rfl,hcrowded⟩,?_⟩
    · unfold unpanicked
      rw [hx]
    · rw [final_adaptExcept] at hlog
      rwa [final_adaptExcept,final_attempt]

theorem reportFailure_agrees (err : KeeperError) {i : Nat} {E : World σ → Prop} :
    Agrees World.log (Overflows profile limit w) (Climbed w i)
      (EStateM.adaptExcept .failed (SequenceTracker.reportFailure err))
      (EStateM.adaptExcept .failed (SequenceTracker.reportFailure err))
      (fun _ => Climbed w i) E := by
  unfold SequenceTracker.reportFailure
  apply agrees_refl
  · intro s
    rw [final_adaptExcept]
    split
    · exact ⟨[],List.append_nil _⟩
    · exact ⟨[],List.append_nil _⟩
  intro s hs
  rw [spec_adaptExcept]
  split
  · exact hs.keep (d := []) (List.append_nil _).symm fun c hc => by cases hc
  · exact hs

/-- A plan takes two numbers at most. -/
theorem submitStepIn_agrees (keeper : Keeper σ) (builder : TxBuilder) (submitted : Nat)
    (plan : ArchivalPlan) {i : Nat} (hi : i + 2 ≤ limit) :
    Agrees World.log (Overflows profile limit w) (Climbed w i)
      (submitStepIn profile keeper builder submitted plan)
      (EStateM.adaptExcept .failed (submitStep keeper builder submitted plan))
      (fun _ => Climbed w (i + 2)) (Climbed w (i + 2)) := by
  unfold submitStepIn submitStep
  rw [adaptExcept_bind]
  have hfirst := unpanicked_agrees profile limit w
    (submitPlanIn_agrees profile limit w keeper builder plan
      (i := i) (by omega))
  have hsecond := unpanicked_agrees profile limit w
    (submitPlanIn_agrees profile limit w keeper builder plan
      (i := i + 1) (by omega))
  refine (hfirst.mono (fun _ _ h => h) fun _ h => h.mono (Nat.le_succ _)).bind ?_
  intro r
  cases r with
  | ok outcome =>
    cases outcome with
    | accepted => exact agrees_pure _ _ fun _ h => h.mono (Nat.le_succ _)
    | rejected => exact agrees_pure _ _ fun _ h => h.mono (Nat.le_succ _)
  | error err =>
    dsimp only
    rw [adaptExcept_bind]
    refine (reportFailure_agrees profile limit w err).bind ?_
    intro dropped
    cases dropped with
    | false => exact agrees_throw _ _ fun _ h => h.mono (Nat.le_succ _)
    | true =>
      simp only [if_true]
      rw [adaptExcept_bind]
      refine hsecond.bind ?_
      intro r
      cases r with
      | ok outcome =>
        cases outcome with
        | accepted => exact agrees_pure _ _ fun _ h => h
        | rejected => exact agrees_throw _ _ fun _ h => h
      | error _ => exact agrees_throw _ _ fun _ h => h

/-- All plans of a cycle. -/
theorem submitCycleIn_agrees (keeper : Keeper σ) (observedLedger : UInt32)
    (plans : List ArchivalPlan) {i : Nat} (hi : i + 2 * plans.length ≤ limit) :
    Agrees World.log (Overflows profile limit w) (Climbed w i)
      (submitCycleIn profile keeper observedLedger plans)
      (EStateM.adaptExcept .failed (submitCycle keeper observedLedger plans))
      (fun _ => Climbed w (i + 2 * plans.length)) (Climbed w (i + 2 * plans.length)) := by
  unfold submitCycleIn submitCycle
  split
  · exact agrees_pure _ _ fun _ h => h.mono (Nat.le_add_right _ _)
  · rw [adaptExcept_bind]
    unfold submitPlans
    rw [adaptExcept_foldlM]
    refine (Agrees.foldlM (I := fun j => Climbed w (i + 2 * j)) plans ?_ 0).bind ?_
    · intro j submitted plan hj
      have hstep := submitStepIn_agrees profile limit w keeper
        (TxBuilder.new keeper.config.networkPassphrase) submitted plan (i := i + 2 * j) (by omega)
      have hle : i + 2 * j + 2 ≤ i + 2 * plans.length := by omega
      exact hstep.mono (fun _ _ h => h) fun _ h => h.mono hle
    · intro submitted
      exact agrees_pure _ _ fun _ h => h

/-- What the daemon observes never underflows, and observing takes no number. -/
theorem observeWatched_traced (keeper : Keeper σ) (keys : List LedgerKey) (s : World σ) :
    Traced World.log (observeWatched keeper keys) s
      (fun observations _ t => t.sequence = s.sequence ∧
        ∀ o ∈ extendable keys observations, ¬o.2.Underflows)
      (fun _ _ t => t.sequence = s.sequence) := by
  unfold observeWatched
  split
  · exact traced_throw rfl
  · refine Traced.bind (Traced.adaptExcept _ (call_traced _ _ _ s)) ?_ ?_
    · intro actualNetwork _ t h
      obtain ⟨_,hseq,_⟩ := h
      split
      · exact traced_throw hseq
      · refine Traced.bind (Traced.adaptExcept _
          (Provider.observeEntries_traced keeper.crates keeper.node keys t)) ?_ ?_
        · intro observations _ u h
          obtain ⟨hseq',_,hobserved⟩ := h
          refine Traced.bind (record_traced _ u) ?_ (fun _ _ _ h => h.elim)
          intro _ _ v h
          refine traced_pure ⟨h.2.2.trans (hseq'.trans hseq),?_⟩
          intro o ho
          obtain ⟨pair,hpair,hlive⟩ := List.mem_filterMap.mp ho
          split at hlive
          · next ttl hentry =>
            cases hlive
            obtain ⟨_,_,_,_,hrep⟩ := List.forall₂_zip hobserved hpair
            exact hrep.not_underflows hentry
          · cases hlive
        · intro _ _ u h
          obtain ⟨_,h,_⟩ := h
          exact h.1.trans hseq
    · intro _ _ t h
      obtain ⟨_,⟨_,_,hseq,_⟩,_⟩ := h
      exact hseq

/-- A cycle takes four numbers at most. -/
theorem runCycleIn_agrees (keeper : Keeper σ) {i : Nat} (hi : i + 4 ≤ limit) :
    Agrees World.log (Overflows profile limit w) (Climbed w i) (runCycleIn profile keeper)
      (runCycle keeper) (fun _ => Climbed w (i + 4)) (Climbed w (i + 4)) := by
  unfold runCycleIn runCycle
  refine (agrees_refl (Q := fun _ => Climbed w i) ?_ ?_).bind ?_
  · exact appends_ofExcept _
  · intro s hs
    cases resolveWatchKeys keeper.crates keeper.config with
    | ok keys => exact hs
    | error fault => exact hs.mono (Nat.le_add_right i 4)
  intro keys
  rw [observeAndPlan_eq]
  simp only [bind_assoc,pure_bind,adaptExcept_bind]
  refine (agrees_refl (Q := fun observations t => Climbed w i t ∧
    ∀ o ∈ extendable keys observations, ¬o.2.Underflows) ?_ ?_).bind ?_
  · intro s
    rw [final_adaptExcept]
    exact (observeWatched_traced keeper keys s).appends
  · intro s hs
    rw [spec_adaptExcept]
    refine Spec.mono (observeWatched_traced keeper keys s) ?_ ?_
    · intro observations t h
      obtain ⟨d,hlog,hseq,hobs⟩ := h
      exact ⟨hs.keep hlog fun c hc => hseq ▸ hc,hobs⟩
    · intro _ t h
      obtain ⟨d,hlog,hseq⟩ := h
      exact (hs.keep hlog fun c hc => hseq ▸ hc).mono (Nat.le_add_right i 4)
  intro observations
  refine Agrees.bind (Q := fun plans t => Climbed w i t ∧ plans.length ≤ 2) ?_ ?_
  · rw [adaptExcept_ofExcept]
    refine ⟨appends_ofExcept _,?_⟩
    intro s hs
    obtain ⟨hclimbed,hobs⟩ := hs
    rw [plansIn_eq profile keeper keys hobs]
    refine .inl ⟨rfl,?_⟩
    cases hplans : (planner keeper.config).planExtendSplit keeper.crates
        (extendable keys observations)
        ((observations.head?.map Observation.currentLedger).getD 0) with
    | ok plans => exact ⟨hclimbed,length_plans_le hplans⟩
    | error e => exact hclimbed.mono (Nat.le_add_right i 4)
  · intro plans
    constructor
    · intro s
      rw [final_adaptExcept]
      exact (submitCycle_traced keeper observations plans s).appends
    intro s hs
    obtain ⟨hclimbed,hlen⟩ := hs
    have hle : i + 2 * plans.length ≤ i + 4 := by omega
    have hsubmit := submitCycleIn_agrees profile limit w keeper
      (referenceLedger observations) plans (hle.trans hi)
    exact (hsubmit.mono (fun _ _ h => h.mono hle) fun _ h => h.mono hle).run s hclimbed

/-- How what is left of a run in one build relates to what is left of it without checks. -/
def Parts (i : Nat) (checked plain : World σ × Option Metrics) : Prop :=
  (checked = plain ∧ Climbed w i plain.1) ∨
    checked.2 = none ∧ profile = .dev ∧ Crowded limit w checked.1 ∧
      checked.1.log <+: plain.1.log

theorem attempts_appends (keeper : Keeper σ) (left : Nat) (s : World σ) (metrics : Metrics) :
    s.log <+: (attempts keeper left s metrics).1.log := by
  obtain ⟨d,hd,_⟩ := attempts_counted keeper left s metrics
  exact ⟨d,hd.symm⟩

theorem attemptsIn_parts (keeper : Keeper σ) (left : Nat) {i : Nat} {s : World σ}
    (metrics : Metrics) (hi : i + 4 * left ≤ limit) (hs : Climbed w i s) :
    Parts profile limit w (i + 4 * left) (attemptsIn profile keeper left s metrics)
      (attempts keeper left s metrics) := by
  induction left generalizing i s with
  | zero => exact .inl ⟨rfl,hs⟩
  | succ left ih =>
    unfold attemptsIn attempts
    have hcycle := (runCycleIn_agrees profile limit w keeper
      (i := i) (by omega)).run s hs
    rcases hcycle with ⟨hsame,hspec⟩|⟨_,t,hpanics,⟨hdev,rfl,hcrowded⟩,hlog⟩
    · rw [hsame]
      cases hrun : runCycle keeper s with
      | ok report t => exact .inl ⟨rfl,(spec_of_ok hspec hrun).mono (by omega)⟩
      | error fault t =>
        have hclimbed := spec_of_error hspec hrun
        cases fault with
        | panicked => exact .inl ⟨rfl,hclimbed.mono (by omega)⟩
        | failed err =>
          dsimp only
          split
          · exact .inl ⟨rfl,hclimbed.mono (by omega)⟩
          · have hnext := ih (i := i + 4) (by omega) hclimbed
            rwa [show i + 4 + 4 * left = i + 4 * (left + 1) by omega] at hnext
    · rw [hpanics]
      refine .inr ⟨rfl,hdev,hcrowded,?_⟩
      cases hrun : runCycle keeper s with
      | ok report u => rwa [hrun] at hlog
      | error fault u =>
        rw [hrun] at hlog
        cases fault with
        | panicked => exact hlog
        | failed err =>
          dsimp only
          split
          · exact hlog
          · exact hlog.trans (attempts_appends keeper left u metrics)

theorem runLoopIn_parts (keeper : Keeper σ) (n : Nat) (metrics : Metrics)
    (hn : 12 * n ≤ limit) :
    Parts profile limit w (12 * n) (runLoopIn profile keeper n w metrics)
      (runLoop keeper n w metrics) := by
  induction n with
  | zero => exact .inl ⟨rfl,climbed_start⟩
  | succ n ih =>
    unfold runLoopIn
    rw [runLoop_succ]
    rcases ih (by omega) with ⟨hsame,hclimbed⟩|⟨hnone,hdev,hcrowded,hlog⟩
    · rw [hsame]
      generalize runLoop keeper n w metrics = plain at hclimbed ⊢
      obtain ⟨t,ended⟩ := plain
      cases ended with
      | none => exact .inl ⟨rfl,hclimbed.mono (by omega)⟩
      | some metrics =>
        exact attemptsIn_parts profile limit w keeper retryAttempts metrics hn hclimbed
    · generalize runLoopIn profile keeper n w metrics = checked at hnone hcrowded hlog ⊢
      generalize runLoop keeper n w metrics = plain at hlog ⊢
      obtain ⟨t,ended⟩ := checked
      obtain ⟨u,ended'⟩ := plain
      subst hnone
      refine .inr ⟨rfl,hdev,hcrowded,?_⟩
      cases ended' with
      | none => exact hlog
      | some metrics => exact hlog.trans (attempts_appends keeper retryAttempts u metrics)

end Builds

/-- The build that checks its sums runs as the other does, for any number of ticks and whatever the
node answers; or it panics after a number was given that leaves no room for twelve attempts a tick,
and what it has logged is the beginning of what the other logs. -/
theorem runLoop_builds (profile : Profile) (keeper : Keeper σ) (n : Nat) (w : World σ)
    (metrics : Metrics) :
    runLoopIn profile keeper n w metrics = runLoop keeper n w metrics ∨
      (runLoopIn profile keeper n w metrics).2 = none ∧ profile = .dev ∧
        Crowded (12 * n) w (runLoopIn profile keeper n w metrics).1 ∧
        (runLoopIn profile keeper n w metrics).1.log <+: (runLoop keeper n w metrics).1.log := by
  rcases runLoopIn_parts profile (12 * n) w keeper n metrics (Nat.le_refl _) with hsame|hparts
  · exact .inl hsame.1
  · exact .inr hparts

-- after the largest number one build stops, and the other goes on with the smallest
example : (runLoopIn .dev sampleKeeper 1 { sampleWorld with sequence := some Int64.maxValue }
      Metrics.new).2 = none ∧
    ((runLoopIn .release sampleKeeper 1 { sampleWorld with sequence := some Int64.maxValue }
      Metrics.new).1.sequence = some Int64.minValue) := by
  decide +kernel

end SorobanRentKeeper

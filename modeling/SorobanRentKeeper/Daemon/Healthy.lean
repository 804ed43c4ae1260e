import SorobanRentKeeper.Daemon.Counters
import SorobanRentKeeper.Daemon.Recovery

namespace SorobanRentKeeper

open Program

variable {σ : Type}

/-- A watch list the daemon can serve whole: its rules resolve, its keys encode, and each class of
them fits in one transaction. -/
structure Watchable (keeper : Keeper σ) (keys : List LedgerKey) : Prop where
  resolved : resolveWatchKeys keeper.crates keeper.config = .ok keys
  nonempty : keys ≠ []
  fits : keys.length ≤ 100
  encodable : Provider.KeysEncodable keeper.crates keys
  rendered : ∀ key ∈ keys, ∃ keyXdr, LedgerKeys.render keeper.crates key = .ok keyXdr

/-- A node of the right network that answers what it is asked, and keeps count of the account;
others may submit to it as an `Honest` node allows. -/
structure Healthy (keeper : Keeper σ) (sequence : σ → Int64) (undisturbed : σ → Prop) : Prop where
  network : ∀ s, (keeper.node.getNetwork s).1 = .ok keeper.config.networkPassphrase
  entries : ∀ chunk s, ∃ response, (keeper.node.getLedgerEntries chunk s).1 = .ok response ∧
    Provider.RowsReadable keeper.crates (response.entries.getD [])
  honest : Honest keeper.crates keeper.node sequence undisturbed
  hashes : ∀ tx id, ∃ hash, keeper.crates.envelopeHash tx id = .ok hash

/-- What is extendable is watched. -/
theorem mem_of_extendable {keys : List LedgerKey} {observations : List Observation}
    {o : LedgerKey × EntryTtl} (h : o ∈ extendable keys observations) : o.1 ∈ keys := by
  obtain ⟨pair,hpair,hlive⟩ := List.mem_filterMap.mp h
  split at hlive
  · cases hlive
    exact (List.of_mem_zip hpair).1
  · cases hlive

/-- A class holds no more positions than are watched. -/
theorem length_endangeredClass_le (horizon : Nat) (keys : List LedgerKey)
    (observations : List Observation) (temporary : Bool) :
    (endangeredClass horizon keys observations temporary).length ≤ keys.length := by
  unfold endangeredClass endangered
  refine Nat.le_trans (List.length_filter_le _ _) ?_
  rw [List.length_map]
  refine Nat.le_trans (List.length_filter_le _ _) ?_
  rw [List.length_zip]
  exact Nat.min_le_left _ _

section Cycle

variable {keeper : Keeper σ} {keys : List LedgerKey} {sequence : σ → Int64}
  {undisturbed : σ → Prop}

theorem observeChunk_healthy (hnode : Healthy keeper sequence undisturbed) {chunk : List LedgerKey}
    (hchunk : Provider.KeysEncodable keeper.crates chunk) (w : World σ) :
    Traced World.log (Provider.observeChunk keeper.crates keeper.node chunk) w
      (fun _ _ _ => True) (fun _ _ _ => False) := by
  obtain ⟨response,hreply,hrows⟩ := hnode.entries chunk w.node
  unfold Provider.observeChunk
  refine Traced.bind (call_traced _ _ _ w) ?_ ?_
  · intro response' d t h
    obtain ⟨hanswer,_,_⟩ := h
    rw [hanswer] at hreply
    cases hreply
    refine traced_ofExcept (fun _ _ => trivial) ?_
    intro err herr
    obtain ⟨out,hout⟩ := (Provider.readChunk_iff keeper.crates chunk response).mpr ⟨hrows,hchunk⟩
    rw [hout] at herr
    cases herr
  · intro err d t h
    obtain ⟨e,hanswer,_⟩ := h
    rw [hanswer] at hreply
    cases hreply

theorem observeEntries_healthy (hnode : Healthy keeper sequence undisturbed)
    (hkeys : Watchable keeper keys) (w : World σ) :
    Traced World.log (Provider.observeEntries keeper.crates keeper.node keys) w
      (fun _ _ _ => True) (fun _ _ _ => False) := by
  unfold Provider.observeEntries
  refine Traced.foldlM (I := fun _ _ _ _ => True) _ [] w trivial ?_
  intro done chunk rest out d t hchunks _
  have hchunk : Provider.KeysEncodable keeper.crates chunk := by
    intro key hkey
    apply hkeys.encodable
    rw [← Chunks.flatten_toChunks Provider.observeBatchEntries keys,hchunks]
    exact List.mem_flatten.mpr ⟨chunk,by simp,hkey⟩
  refine Traced.bind (observeChunk_healthy hnode hchunk t) ?_ (fun _ _ _ h => h)
  exact fun _ _ _ _ => traced_pure trivial

/-- On a healthy node a call gets its plans. -/
theorem observeAndPlan_healthy (hnode : Healthy keeper sequence undisturbed)
    (hkeys : Watchable keeper keys) (w : World σ) :
    Traced World.log (observeAndPlan keeper keys) w
      (fun r d _ => ∃ observations, r.1 = referenceLedger observations ∧
        Prepared keeper keys observations r.2 d)
      (fun _ _ _ => False) := by
  have hplans : Traced World.log (observeAndPlan keeper keys) w (fun _ _ _ => True)
      (fun _ _ _ => False) := by
    unfold observeAndPlan
    rw [if_neg (by simpa using hkeys.nonempty)]
    refine Traced.bind (Traced.adaptExcept _ (call_traced _ _ _ w)) ?_ ?_
    · intro actualNetwork d t h
      obtain ⟨hanswer,_⟩ := h
      have hreply := hnode.network w.node
      rw [hanswer] at hreply
      rw [if_neg (not_not.mpr (Except.ok.inj hreply))]
      refine Traced.bind (Traced.adaptExcept _ (observeEntries_healthy hnode hkeys t)) ?_ ?_
      · intro observations d' u _
        refine Traced.bind (record_traced _ u) ?_ (fun _ _ _ h => h.elim)
        intro _ _ _ _
        refine traced_ofExcept_bind (fun _ _ => traced_pure trivial) ?_
        intro err herr
        obtain ⟨e,he,_⟩ := mapError_eq_error herr
        obtain ⟨plans,hplans⟩ := Planner.planExtendSplit_of_render keeper.crates
          (planner keeper.config) (extendable keys observations) (referenceLedger observations)
          fun o ho => hkeys.rendered o.1 (mem_of_extendable (List.mem_of_mem_filter ho))
        rw [referenceLedger] at hplans
        rw [hplans] at he
        cases he
      · intro err _ _ h
        obtain ⟨_,hfalse,_⟩ := h
        exact hfalse
    · intro err d t h
      obtain ⟨_,⟨e,hanswer,_⟩,_⟩ := h
      have hreply := hnode.network w.node
      rw [hanswer] at hreply
      cases hreply
  refine Traced.mono ((observeAndPlan_traced keeper keys w hkeys.resolved).and hplans) ?_
    (fun _ _ _ h => h.2)
  intro r d t h
  exact h.1.2

/-- The plans of a watch list that fits are built, whatever their number. -/
theorem Prepared.buildable {observations : List Observation} {plans : List ArchivalPlan}
    {d : List Event} (h : Prepared keeper keys observations plans d)
    (hkeys : Watchable keeper keys) : ∀ plan ∈ plans, ∀ n, ∃ envelope,
      buildFor keeper (cycleBuilder keeper) plan n = .ok envelope := by
  intro plan hplan n
  obtain ⟨_,_,_,hpos,_⟩ := (Planner.planExtendSplit_ok h.planned).2 plan hplan
  have hlen : plan.len ≤ 100 := by
    have hclass := List.mem_map_of_mem (f := ArchivalPlan.footprint) hplan
    rw [h.classes,List.mem_filter,List.mem_map] at hclass
    obtain ⟨⟨temporary,_,hfootprint⟩,_⟩ := hclass
    rw [← ArchivalPlan.length_footprint,← hfootprint]
    exact Nat.le_trans (length_endangeredClass_le _ keys observations temporary) hkeys.fits
  obtain ⟨_,_,inner,hbuild,_⟩ := TxBuilder.buildUnsigned_of_len keeper.crates (cycleBuilder keeper)
    plan ⟨keeper.payer.publicBytes keeper.crates⟩ n hpos hlen
  exact ⟨.tx inner,hbuild⟩

/-- On a healthy node every plan is accepted, after at most one rejection. -/
theorem submitCycle_healthy (hnode : Healthy keeper sequence undisturbed)
    {observations : List Observation} {plans : List ArchivalPlan}
    (hbuildable : ∀ plan ∈ plans, ∀ n, ∃ envelope,
      buildFor keeper (cycleBuilder keeper) plan n = .ok envelope) (w : World σ) :
    Traced World.log (submitCycle keeper (referenceLedger observations) plans) w
      (fun report d _ => report = cycleReport observations plans ∧
        ∃ ds, List.Forall₂ (Healed keeper (cycleBuilder keeper)) plans ds ∧ d = ds.flatten)
      (fun _ _ _ => False) := by
  unfold submitCycle
  split
  · next hempty =>
    rw [List.isEmpty_iff] at hempty
    subst hempty
    exact traced_pure ⟨rfl,[],.nil,rfl⟩
  · refine Traced.bind (submitPlans_honest keeper (cycleBuilder keeper) sequence undisturbed plans w
      hnode.honest hnode.hashes hbuildable) ?_ (fun _ _ _ h => h)
    intro n d t h
    obtain ⟨rfl,_,hhealed⟩ := h
    refine traced_pure ⟨rfl,?_⟩
    rw [List.append_nil]
    exact hhealed

/-- What a tick on a healthy node does: it observes the watch list once, every endangered position
is in a transaction the node accepted, and each class costs at most one rejection. -/
structure Unharmed (keeper : Keeper σ) (keys : List LedgerKey) (d : List Event) : Prop where
  covers : ∃ observations, observedIn d = [(keys,observations)] ∧
    List.Forall₂ (Provider.Observed keeper.crates d) keys observations ∧
    (accepted d).map (fun s => s.built.footprintKeys) =
      ([false,true].map (endangeredClass keeper.config.riskWindow.alertHorizonLedgers.toNat keys
        observations)).filter fun keys => !keys.isEmpty
  rejected : (rejections d).length ≤ (accepted d).length

theorem rejections_append (d d' : List Event) :
    rejections (d ++ d') = rejections d ++ rejections d' := by
  simp [rejections]

theorem rejections_of_healed {builder : TxBuilder} {plans : List ArchivalPlan}
    {ds : List (List Event)} (h : List.Forall₂ (Healed keeper builder) plans ds) :
    (rejections ds.flatten).length ≤ (accepted ds.flatten).length := by
  induction h with
  | nil => exact Nat.le_refl 0
  | cons hhealed _ ih =>
    obtain ⟨s,_,hone,_⟩ := hhealed.once
    have hrejected := hhealed.rejectedOnce
    rw [List.flatten_cons,rejections_append,accepted_append,List.length_append,List.length_append,
      hone,List.length_singleton]
    omega

theorem Prepared.kept {observations : List Observation} {plans : List ArchivalPlan}
    {d : List Event} {ds : List (List Event)} (h : Prepared keeper keys observations plans d)
    (hds : List.Forall₂ (Healed keeper (cycleBuilder keeper)) plans ds) :
    Unharmed keeper keys (d ++ ds.flatten) := by
  have hserved : List.Forall₂ (Served keeper (cycleBuilder keeper)) plans ds :=
    hds.imp fun _ _ h => h.toServed
  have haccepted : accepted (d ++ ds.flatten) = accepted ds.flatten := by
    rw [accepted_append,h.quiet.accepted,List.nil_append]
  constructor
  · refine ⟨observations,?_,h.observed.imp fun _ _ ho => ho.append_left _,?_⟩
    · rw [observedIn_append,h.once,observedIn_of_served hserved,List.append_nil]
    · rw [haccepted,footprints_of_served hserved]
      exact h.classes
  · have hnone : rejections d = [] := by
      unfold rejections
      rw [h.quiet.sends]
      rfl
    rw [haccepted,rejections_append,hnone,List.nil_append]
    exact rejections_of_healed hds

/-- A call on a healthy node keeps what it watches, whatever the tracker starts from. -/
theorem runCycle_healthy (hnode : Healthy keeper sequence undisturbed)
    (hkeys : Watchable keeper keys) (w : World σ) :
    Traced World.log (runCycle keeper) w
      (fun report d _ => Unharmed keeper keys d ∧ report.transactions = (accepted d).length ∧
        report.extendSubmitted = decide (0 < report.transactions))
      (fun _ _ _ => False) := by
  have hbody : Traced World.log
      (observeAndPlan keeper keys >>= fun r => submitCycle keeper r.1 r.2) w
      (fun report d _ => Unharmed keeper keys d ∧ report.transactions = (accepted d).length ∧
        report.extendSubmitted = decide (0 < report.transactions))
      (fun _ _ _ => False) := by
    refine Traced.bind (observeAndPlan_healthy hnode hkeys w) ?_ (fun _ _ _ h => h)
    intro r d t h
    obtain ⟨observations,hledger,hprep⟩ := h
    rw [hledger]
    refine Traced.mono (submitCycle_healthy hnode (hprep.buildable hkeys) t) ?_
      (fun _ _ _ h => h)
    intro report d' _ h
    obtain ⟨rfl,ds,hds,rfl⟩ := h
    have hserved : List.Forall₂ (Served keeper (cycleBuilder keeper)) r.2 ds :=
      hds.imp fun _ _ h => h.toServed
    refine ⟨hprep.kept hds,?_,rfl⟩
    rw [accepted_append,hprep.quiet.accepted,List.nil_append,
      ← (accepted_of_served hserved).length_eq]
    rfl
  unfold runCycle
  rw [hkeys.resolved]
  refine Traced.mono (Traced.adaptExcept Fault.failed hbody) (fun _ _ _ h => h) ?_
  intro fault _ _ h
  obtain ⟨_,hfalse,_⟩ := h
  exact hfalse

end Cycle

/-- A call that goes well is the whole tick. -/
theorem tick_of_ok {keeper : Keeper σ} {w t : World σ} {report : CycleReport}
    {metrics : Metrics} (h : runCycle keeper w = .ok report t) :
    tick keeper w metrics = (t,some (metrics.cycleComplete report)) := by
  simp only [tick,retryAttempts,attempts,h]

end SorobanRentKeeper

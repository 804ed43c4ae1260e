import SorobanRentKeeper.Daemon.Session
import SorobanRentKeeper.Framework.Follows

namespace SorobanRentKeeper

open Program

variable {σ : Type}

/-- The node's side of the log: every request is answered from the state the last answer left. -/
inductive Answers (keeper : Keeper σ) : σ → Event → σ → Prop where
  | network {s t : σ} {reply : Except String String} (h : keeper.node.getNetwork s = (reply,t)) :
      Answers keeper s (.network reply) t
  | ledgerEntries {s t : σ} {keys : List LedgerKey}
      {reply : Except String GetLedgerEntriesResponse}
      (h : keeper.node.getLedgerEntries keys s = (reply,t)) :
      Answers keeper s (.ledgerEntries keys reply) t
  | observed (s : σ) (keys : List LedgerKey) (observations : List Observation) :
      Answers keeper s (.observed keys observations) s
  | account {s t : σ} {reply : Except String Int64}
      (h : keeper.node.getAccount keeper.tracker.accountId s = (reply,t)) :
      Answers keeper s (.account reply) t
  | submitPlan (s : σ) (plan : ArchivalPlan) : Answers keeper s (.submitPlan plan) s
  | simulate {s t : σ} {built : TransactionEnvelope} {reply : Except String SimulateResponse}
      (h : keeper.node.simulateTransaction built s = (reply,t)) :
      Answers keeper s (.simulate built reply) t
  | send {s t : σ} {built signed : TransactionEnvelope} {reply : Except String Bytes32}
      (h : keeper.node.sendTransaction signed s = (reply,t)) :
      Answers keeper s (.send ⟨built,signed,reply⟩) t

/-- A program that does with the node what its log says. -/
abbrev Conversed {ε α : Type} (keeper : Keeper σ) (x : EStateM ε (World σ) α) : Prop :=
  Follows World.log World.node (Answers keeper) x

theorem call_conversed {α : Type} {keeper : Keeper σ} {request : σ → Except String α × σ}
    {event : Except String α → Event} (what : String)
    (h : ∀ s t reply, request s = (reply,t) → Answers keeper s (event reply) t) :
    Conversed keeper (call request event what) := by
  intro w
  refine Traced.mono (call_traced request event what w) ?_ ?_
  · intro a d t hcall
    obtain ⟨hreply,_,rfl⟩ := hcall
    exact .single (h _ _ _ hreply)
  · intro err d t hcall
    obtain ⟨e,hreply,_,rfl,_⟩ := hcall
    exact .single (h _ _ _ hreply)

theorem record_conversed {keeper : Keeper σ} {event : Event}
    (h : ∀ s, Answers keeper s event s) : Conversed keeper (record event) := by
  intro w
  refine Traced.mono (record_traced event w) ?_ (fun _ _ _ hnone => hnone.elim)
  intro _ d t hrecord
  obtain ⟨rfl,hnode,_⟩ := hrecord
  rw [hnode]
  exact .single (h w.node)

section Calls

variable (keeper : Keeper σ)

theorem nextSequence_conversed : Conversed keeper (keeper.tracker.nextSequence keeper.node) := by
  unfold SequenceTracker.nextSequence
  refine .bind follows_get ?_
  intro w
  split
  · refine .bind (follows_modify (fun _ => rfl) fun _ => rfl) ?_
    exact fun _ => follows_pure _
  · refine .bind (.adaptExcept _ (call_conversed _ fun _ _ _ => .account)) ?_
    intro s
    refine .bind (follows_modify (fun _ => rfl) fun _ => rfl) ?_
    exact fun _ => follows_pure _

theorem reportFailure_conversed (err : KeeperError) :
    Conversed keeper (SequenceTracker.reportFailure err) := by
  unfold SequenceTracker.reportFailure
  split
  · refine .bind (follows_modify (fun _ => rfl) fun _ => rfl) ?_
    exact fun _ => follows_pure _
  · exact follows_pure _

theorem submitPlan_conversed (builder : TxBuilder) (plan : ArchivalPlan) :
    Conversed keeper (submitPlan keeper builder plan) := by
  unfold submitPlan
  refine .bind (record_conversed fun s => .submitPlan s plan) ?_
  intro _
  refine .bind (nextSequence_conversed keeper) ?_
  intro n
  refine .bind (follows_ofExcept _) ?_
  intro built
  refine .bind (.adaptExcept _ (.bind (call_conversed _ fun _ _ _ => .simulate) ?_)) ?_
  · exact fun _ => follows_pure _
  intro simulation
  split
  · exact follows_throw _
  · refine .bind (follows_ofExcept _) ?_
    intro priced
    refine .bind (follows_ofExcept _) ?_
    intro signed
    refine .bind (.adaptExcept _ (call_conversed _ fun _ _ _ => .send)) ?_
    exact fun _ => follows_pure _

theorem submitStep_conversed (builder : TxBuilder) (submitted : Nat) (plan : ArchivalPlan) :
    Conversed keeper (submitStep keeper builder submitted plan) := by
  have hplan : Conversed keeper (Program.attempt (submitPlan keeper builder plan) :
      EStateM KeeperError (World σ) (Except KeeperError SubmissionOutcome)) :=
    (submitPlan_conversed keeper builder plan).attempt
  unfold submitStep
  refine .bind hplan ?_
  intro outcome
  split
  · exact follows_pure _
  · exact follows_pure _
  · refine .bind (reportFailure_conversed keeper _) ?_
    intro again
    split
    · refine .bind hplan ?_
      intro outcome
      split
      · exact follows_pure _
      · exact follows_throw _
    · exact follows_throw _

theorem observeEntries_conversed (keys : List LedgerKey) :
    Conversed keeper (Provider.observeEntries keeper.crates keeper.node keys) := by
  unfold Provider.observeEntries
  refine .foldlM ?_ _ _
  intro out chunk
  refine .bind (.bind (call_conversed _ fun _ _ _ => .ledgerEntries) ?_) ?_
  · exact fun _ => follows_ofExcept _
  · exact fun _ => follows_pure _

theorem observeAndPlan_conversed (keys : List LedgerKey) :
    Conversed keeper (observeAndPlan keeper keys) := by
  unfold observeAndPlan
  split
  · exact follows_throw _
  · refine .bind (.adaptExcept _ (call_conversed _ fun _ _ _ => .network)) ?_
    intro actualNetwork
    split
    · exact follows_throw _
    · refine .bind (.adaptExcept _ (observeEntries_conversed keeper keys)) ?_
      intro observations
      refine .bind (record_conversed fun s => .observed s keys observations) ?_
      intro _
      refine .bind (follows_ofExcept _) ?_
      exact fun _ => follows_pure _

theorem submitCycle_conversed (observedLedger : UInt32) (plans : List ArchivalPlan) :
    Conversed keeper (submitCycle keeper observedLedger plans) := by
  unfold submitCycle submitPlans
  split
  · exact follows_pure _
  · refine .bind (.foldlM (submitStep_conversed keeper _) _ _) ?_
    exact fun _ => follows_pure _

theorem runCycle_conversed : Conversed keeper (runCycle keeper) := by
  unfold runCycle
  refine .bind (follows_ofExcept _) ?_
  intro keys
  refine .adaptExcept _ (.bind (observeAndPlan_conversed keeper keys) ?_)
  exact fun r => submitCycle_conversed keeper r.1 r.2

end Calls

end SorobanRentKeeper

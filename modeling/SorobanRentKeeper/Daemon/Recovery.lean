import SorobanRentKeeper.Core.Footprint
import SorobanRentKeeper.Daemon.BadSeq
import SorobanRentKeeper.Daemon.Cycle

namespace SorobanRentKeeper

open Program

def TransactionEnvelope.seqNum : TransactionEnvelope → Option Int64
  | .tx inner => some inner.tx.seqNum
  | _ => none

/-- A rejection is recognised through the texts it is wrapped in. -/
theorem isBadSeqError_sendError {e : String} (h : contains e "tx_bad_seq" = true) :
    isBadSeqError (sendError e) = true :=
  (isBadSeqError_sendError_iff e).mpr (.inl (contains_bad_seq h))

variable {σ : Type}

/-- A node that keeps count of one account. Foreign submitters may move the count between any two
calls, except from a look at the account to the next submission while the account is
`undisturbed`, as it is once the node rejects a number. -/
structure Honest (crates : Crates) (node : Node σ) (sequence : σ → Int64)
    (undisturbed : σ → Prop) : Prop where
  account : ∀ id s, ∃ s', node.getAccount id s = (.ok (sequence s'),s') ∧
    (undisturbed s → undisturbed s')
  simulation : ∀ envelope s, ∃ response data s',
    node.simulateTransaction envelope s = (.ok response,s') ∧ response.error = none ∧
    response.transactionData.isEmpty = false ∧
    crates.sorobanDataFromXdrBase64 response.transactionData = .ok data ∧
    (undisturbed s → undisturbed s' ∧ sequence s' = sequence s)
  accepts : ∀ envelope s, envelope.seqNum = some (sequence s + 1) → ∃ hash s',
    node.sendTransaction envelope s = (.ok hash,s') ∧ sequence s' = sequence s + 1
  rejects : ∀ envelope s, envelope.seqNum ≠ some (sequence s + 1) → ∃ e s',
    node.sendTransaction envelope s = (.error e,s') ∧ contains e "tx_bad_seq" = true ∧
    undisturbed s'

section Replies

variable {crates : Crates} {node : Node σ} {sequence : σ → Int64} {undisturbed : σ → Prop}

theorem Honest.getAccount (h : Honest crates node sequence undisturbed) {id : String} {s s' : σ}
    {reply : Except String Int64} (hreply : node.getAccount id s = (reply,s')) :
    reply = .ok (sequence s') ∧ (undisturbed s → undisturbed s') := by
  obtain ⟨_,haccount,hstill⟩ := h.account id s
  rw [haccount] at hreply
  cases hreply
  exact ⟨rfl,hstill⟩

theorem Honest.simulateTransaction (h : Honest crates node sequence undisturbed)
    {envelope : TransactionEnvelope} {s s' : σ} {reply : Except String SimulateResponse}
    (hreply : node.simulateTransaction envelope s = (reply,s')) :
    ∃ response data, reply = .ok response ∧ response.error = none ∧
      response.transactionData.isEmpty = false ∧
      crates.sorobanDataFromXdrBase64 response.transactionData = .ok data ∧
      (undisturbed s → undisturbed s' ∧ sequence s' = sequence s) := by
  obtain ⟨response,data,_,hsimulation,herror,hne,hdata,hstill⟩ := h.simulation envelope s
  rw [hsimulation] at hreply
  cases hreply
  exact ⟨response,data,rfl,herror,hne,hdata,hstill⟩

/-- A submission succeeds with the next number, and only with it. -/
theorem Honest.sendTransaction (h : Honest crates node sequence undisturbed)
    {envelope : TransactionEnvelope} {s s' : σ} {reply : Except String Bytes32}
    (hreply : node.sendTransaction envelope s = (reply,s')) :
    (envelope.seqNum = some (sequence s + 1) ∧ sequence s' = sequence s + 1 ∧
      ∃ hash, reply = .ok hash) ∨
    (envelope.seqNum ≠ some (sequence s + 1) ∧ undisturbed s' ∧
      ∃ e, reply = .error e ∧ contains e "tx_bad_seq" = true) := by
  by_cases hnext : envelope.seqNum = some (sequence s + 1)
  · obtain ⟨hash,_,haccepted,hcount⟩ := h.accepts envelope s hnext
    rw [haccepted] at hreply
    cases hreply
    exact .inl ⟨hnext,hcount,hash,rfl⟩
  · obtain ⟨e,_,hrejected,htext,hleft⟩ := h.rejects envelope s hnext
    rw [hrejected] at hreply
    cases hreply
    exact .inr ⟨hnext,hleft,e,rfl,htext⟩

end Replies

/-- The submissions the node rejected. -/
def rejections (d : List Event) : List Submission := (sends d).filter fun s => !s.accepted

/-- What is signed carries the number it was built with. -/
theorem seqNum_of_finish {keeper : Keeper σ} {builder : TxBuilder} {plan : ArchivalPlan}
    {n : Int64} {built signed : TransactionEnvelope} {response : SimulateResponse}
    (hbuild : buildFor keeper builder plan n = .ok built) (herror : response.error = none)
    (hfinish : finish keeper builder built response = .ok signed) : signed.seqNum = some n := by
  obtain ⟨_,_,inner,rfl,hbuilt⟩ := TxBuilder.buildUnsigned_ok hbuild
  obtain ⟨_,_,_,_,rfl⟩ := finish_ok herror hfinish
  exact congrArg some hbuilt.seqNum

section Attempt

variable {keeper : Keeper σ} {builder : TxBuilder} {plan : ArchivalPlan} {sequence : σ → Int64}
  {undisturbed : σ → Prop}

/-- A submission went through, and left the tracker at the node's count. -/
structure Synced (sequence : σ → Int64) (d : List Event) (t : World σ) : Prop where
  sent : ∃ s, sends d = [s] ∧ s.accepted = true ∧ s.signed.seqNum = t.sequence
  cached : t.sequence = some (sequence t.node)

/-- A submission was rejected, and the account left to this submitter. -/
structure Bounced (undisturbed : σ → Prop) (err : KeeperError) (d : List Event) (t : World σ) :
    Prop where
  sent : ∃ s, sends d = [s] ∧ s.accepted = false
  recognised : isBadSeqError err = true
  undisturbed : undisturbed t.node

/-- A number taken from an undisturbed account is still the next one after simulation. -/
theorem Numbered.fresh (hnode : Honest keeper.crates keeper.node sequence undisturbed)
    {w t : World σ} {n : Int64} {d : List Event} (h : Numbered keeper w n d t)
    (hempty : w.sequence = none) (hleft : undisturbed w.node) {built : TransactionEnvelope}
    {reply : Except String SimulateResponse} {s : σ}
    (hsim : keeper.node.simulateTransaction built t.node = (reply,s)) : n = sequence s + 1 := by
  cases h with
  | cached c _ hcache _ _ =>
    rw [hempty] at hcache
    cases hcache
  | fetched c _ _ hreply _ =>
    obtain ⟨hcount,hstill⟩ := hnode.getAccount hreply
    obtain ⟨_,_,_,_,_,_,hstill'⟩ := hnode.simulateTransaction hsim
    have hsame := (hstill' (hstill hleft)).2
    rw [Except.ok.inj hcount,hsame]

/-- Against an honest node a call to `submit_plan` is accepted, or else rejected; it is not
rejected when the number comes from an undisturbed account. -/
theorem Submit.honest (hnode : Honest keeper.crates keeper.node sequence undisturbed)
    (hhash : ∀ tx id, ∃ hash, keeper.crates.envelopeHash tx id = .ok hash)
    (hbuildable : ∀ n, ∃ envelope, buildFor keeper builder plan n = .ok envelope)
    {w t : World σ} {r : Except KeeperError SubmissionOutcome} {d : List Event}
    (h : Submit keeper builder plan w r d t) :
    (r = .ok .accepted ∧ Synced sequence d t) ∨
    ∃ err, r = .error err ∧ Bounced undisturbed err d t ∧
      ¬(w.sequence = none ∧ undisturbed w.node) := by
  cases h with
  | unnumbered e _ hcache hnext hreply => cases (hnode.getAccount hreply).1
  | unbuilt n d _ e hn hbuild =>
    obtain ⟨envelope,hbuilt⟩ := hbuildable n
    rw [hbuilt] at hbuild
    cases hbuild
  | unsimulated n d u _ built e hn hbuild hsim hnext =>
    obtain ⟨_,_,hok,_⟩ := hnode.simulateTransaction hsim
    cases hok
  | simulationRejected n d u _ built response e hn hbuild hsim hnext herror =>
    obtain ⟨_,_,hok,hnone,_⟩ := hnode.simulateTransaction hsim
    cases Except.ok.inj hok
    rw [hnone] at herror
    cases herror
  | unfinished n d u _ built response e hn hbuild hsim hnext herror hfinish =>
    obtain ⟨_,data,hok,_,hne,hdata,_⟩ := hnode.simulateTransaction hsim
    cases Except.ok.inj hok
    obtain ⟨_,_,inner,rfl,hbuilt⟩ := TxBuilder.buildUnsigned_ok hbuild
    obtain ⟨signatures,hsigned⟩ := finish_of_data keeper builder inner response data herror hne
      hdata hhash (by rw [hbuilt.unsigned]; decide)
    rw [hsigned] at hfinish
    cases hfinish
  | refused n d u v _ built signed response e hn hbuild hsim herror hfinish hsend hnext =>
    have hseq := seqNum_of_finish hbuild herror hfinish
    have hsends := (hn.log_append plan
      [.simulate built (.ok response),.send ⟨built,signed,.error e⟩]).1
    rcases hnode.sendTransaction hsend with ⟨_,_,_,hok⟩|⟨hne,hleft,_,herr,htext⟩
    · cases hok
    · cases Except.error.inj herr
      refine .inr ⟨_,rfl,⟨⟨_,hsends,rfl⟩,isBadSeqError_sendError htext,hleft⟩,?_⟩
      intro hfresh
      exact hne (by rw [hseq,hn.fresh hnode hfresh.1 hfresh.2 hsim])
  | accepted n d u v _ built signed response hash hn hbuild hsim herror hfinish hsend hnext =>
    have hseq := seqNum_of_finish hbuild herror hfinish
    have hsends := (hn.log_append plan
      [.simulate built (.ok response),.send ⟨built,signed,.ok hash⟩]).1
    rcases hnode.sendTransaction hsend with ⟨heq,hcount,_⟩|⟨_,_,_,herr,_⟩
    · have hcached : t.sequence = some (sequence t.node) := by rw [hnext,hcount,← heq,hseq]
      exact .inl ⟨rfl,⟨_,hsends,rfl,hseq.trans hnext.symm⟩,hcached⟩
    · cases herr

/-- A log of one plan that was accepted once, after at most one rejection. -/
structure Healed (keeper : Keeper σ) (builder : TxBuilder) (plan : ArchivalPlan)
    (d : List Event) : Prop extends Served keeper builder plan d where
  rejectedOnce : (rejections d).length ≤ 1

/-- The tracker holds the number of the last submission accepted, which is the node's count. -/
def Tracked (sequence : σ → Int64) (d : List Event) (t : World σ) : Prop :=
  ∀ s, (accepted d).getLast? = some s →
    s.signed.seqNum = t.sequence ∧ t.sequence = some (sequence t.node)

/-- One plan was accepted, after at most one rejection, and the tracker is at the node's count. -/
structure Settled (sequence : σ → Int64) (d : List Event) (t : World σ) : Prop where
  rejectedOnce : (rejections d).length ≤ 1
  acceptedOnce : ∃ s, accepted d = [s] ∧ s.signed.seqNum = t.sequence
  cached : t.sequence = some (sequence t.node)

theorem Synced.settled {d : List Event} {t : World σ} (h : Synced sequence d t) :
    Settled sequence d t := by
  obtain ⟨s,hsends,haccepted,hseq⟩ := h.sent
  refine ⟨?_,⟨s,?_,hseq⟩,h.cached⟩
  · simp [rejections,hsends,haccepted]
  · simp [accepted,hsends,haccepted]

theorem Bounced.settled {err : KeeperError} {d d' : List Event} {u t : World σ}
    (h : Bounced undisturbed err d u) (h' : Synced sequence d' t) :
    Settled sequence (d ++ d') t := by
  obtain ⟨s,hsends,hrejected⟩ := h.sent
  obtain ⟨s',hsends',haccepted,hseq⟩ := h'.sent
  refine ⟨?_,⟨s',?_,hseq⟩,h'.cached⟩
  · simp [rejections,hsends,hrejected,hsends',haccepted]
  · simp [accepted,hsends,hrejected,hsends',haccepted]

/-- The retry is accepted: the dropped cache makes it start from the undisturbed account. -/
theorem Submit.retry (hnode : Honest keeper.crates keeper.node sequence undisturbed)
    (hhash : ∀ tx id, ∃ hash, keeper.crates.envelopeHash tx id = .ok hash)
    (hbuildable : ∀ n, ∃ envelope, buildFor keeper builder plan n = .ok envelope)
    {w u t : World σ} {err : KeeperError} {r : Except KeeperError SubmissionOutcome}
    {d d' : List Event} (h : Submit keeper builder plan w (.error err) d u)
    (h' : Submit keeper builder plan { u with sequence := none } r d' t) :
    r = .ok .accepted ∧ Settled sequence (d ++ d') t := by
  rcases h.honest hnode hhash hbuildable with ⟨hok,_⟩|⟨_,_,hbounced,_⟩
  · cases hok
  · rcases h'.honest hnode hhash hbuildable with ⟨hok,hsynced⟩|⟨_,_,_,hstale⟩
    · exact ⟨hok,hbounced.settled hsynced⟩
    · exact absurd ⟨rfl,hbounced.undisturbed⟩ hstale

/-- One turn of the submit loop heals whatever the cache held. -/
theorem Step.honest (hnode : Honest keeper.crates keeper.node sequence undisturbed)
    (hhash : ∀ tx id, ∃ hash, keeper.crates.envelopeHash tx id = .ok hash)
    (hbuildable : ∀ n, ∃ envelope, buildFor keeper builder plan n = .ok envelope)
    {w t : World σ} {r : Option KeeperError} {d : List Event}
    (h : Step keeper builder plan w r d t) : r = none ∧ Settled sequence d t := by
  cases h with
  | accepted _ _ h =>
    rcases h.honest hnode hhash hbuildable with ⟨_,hsynced⟩|⟨_,herr,_⟩
    · exact ⟨rfl,hsynced.settled⟩
    · cases herr
  | healed err d d' u _ h hbad h' => exact ⟨rfl,(h.retry hnode hhash hbuildable h').2⟩
  | failedTwice err err' d d' u _ h hbad h' => cases (h.retry hnode hhash hbuildable h').1
  | failed err d _ h hbad =>
    rcases h.honest hnode hhash hbuildable with ⟨hok,_⟩|⟨_,herr,hbounced,_⟩
    · cases hok
    · cases herr
      rw [hbounced.recognised] at hbad
      cases hbad

end Attempt

/-- What a cycle leaves when every plan is healed. -/
structure Recovered (keeper : Keeper σ) (sequence : σ → Int64) (plans : List ArchivalPlan)
    (d : List Event) (t : World σ) : Prop where
  healed : ∃ ds, List.Forall₂ (Healed keeper (cycleBuilder keeper)) plans ds ∧ d = ds.flatten
  inOrder : List.Forall₂ (fun plan s => ∃ n,
    buildFor keeper (cycleBuilder keeper) plan n = .ok s.built) plans (accepted d)
  tracked : Tracked sequence d t

theorem submitPlans_honest (keeper : Keeper σ) (builder : TxBuilder) (sequence : σ → Int64)
    (undisturbed : σ → Prop) (plans : List ArchivalPlan) (w : World σ)
    (hnode : Honest keeper.crates keeper.node sequence undisturbed)
    (hhash : ∀ tx id, ∃ hash, keeper.crates.envelopeHash tx id = .ok hash)
    (hbuildable : ∀ plan ∈ plans, ∀ n, ∃ envelope, buildFor keeper builder plan n = .ok envelope) :
    Traced World.log (submitPlans keeper builder plans) w
      (fun n d t => n = plans.length ∧ Tracked sequence d t ∧
        ∃ ds, List.Forall₂ (Healed keeper builder) plans ds ∧ d = ds.flatten)
      (fun _ _ _ => False) := by
  unfold submitPlans
  refine Traced.foldlM
    (I := fun done n d t => n = done.length ∧ Tracked sequence d t ∧
      ∃ ds, List.Forall₂ (Healed keeper builder) done ds ∧ d = ds.flatten)
    plans 0 w ⟨rfl,by simp [Tracked,accepted,sends],[],.nil,rfl⟩ ?_
  intro done plan rest n d t hplans hI
  obtain ⟨hn,_,ds,hds,rfl⟩ := hI
  have hbuilds := hbuildable plan (by simp [hplans])
  refine Traced.mono (submitStep_traced keeper builder n plan t) ?_ ?_
  · intro n' d' u h
    obtain ⟨hn',hstep⟩ := h
    obtain ⟨_,hsettled⟩ := hstep.honest hnode hhash hbuilds
    obtain ⟨s,hone,hseq⟩ := hsettled.acceptedOnce
    refine ⟨by simp [hn',hn],?_,ds ++ [d'],?_,by simp⟩
    · intro s' hs'
      rw [accepted_append,hone,List.getLast?_concat] at hs'
      cases hs'
      exact ⟨hseq,hsettled.cached⟩
    · exact List.rel_append hds (.cons ⟨hstep.served,hsettled.rejectedOnce⟩ .nil)
  · intro err d' u h
    cases (h.honest hnode hhash hbuilds).1

/-- Whatever the tracker starts from, the submit loop of a cycle gets every plan accepted by an
honest node. -/
theorem submitCycle_recovers (keeper : Keeper σ) (sequence : σ → Int64) (undisturbed : σ → Prop)
    (hnode : Honest keeper.crates keeper.node sequence undisturbed)
    (hhash : ∀ tx id, ∃ hash, keeper.crates.envelopeHash tx id = .ok hash)
    (observedLedger : UInt32) (plans : List ArchivalPlan)
    (hbuildable : ∀ plan ∈ plans, ∀ n, ∃ envelope,
      buildFor keeper (cycleBuilder keeper) plan n = .ok envelope) (w : World σ) :
    ∃ report d t, submitCycle keeper observedLedger plans w = .ok report t ∧
      t.log = w.log ++ d ∧ report.transactions = plans.length ∧
      Recovered keeper sequence plans d t := by
  have htraced := submitPlans_honest keeper (cycleBuilder keeper) sequence undisturbed plans w
    hnode hhash hbuildable
  obtain ⟨d,hd,hrun⟩ := htraced.cases
  rcases hrun with ⟨n,t,hrun,rfl,htracked,ds,hds,rfl⟩|⟨_,_,_,hfalse⟩
  · have hserved : List.Forall₂ (Served keeper (cycleBuilder keeper)) plans ds :=
      hds.imp fun _ _ h => h.toServed
    have hrecovered : Recovered keeper sequence plans ds.flatten t :=
      ⟨⟨ds,hds,rfl⟩,accepted_of_served hserved,htracked⟩
    rw [hrun] at hd
    unfold submitCycle
    cases plans with
    | nil =>
      cases hrun
      exact ⟨_,_,_,rfl,hd,rfl,hrecovered⟩
    | cons plan plans =>
      refine ⟨_,_,t,bind_of_ok _ hrun,hd,rfl,hrecovered⟩
  · exact hfalse.elim

/-- An account: its count, what foreign submitters will add to it, and whether they hold off. -/
structure Chain where
  sequence : Int64
  foreign : List Int64
  heldOff : Bool

/-- The next foreign submitter gets in. -/
def Chain.disturb (chain : Chain) : Chain :=
  match chain.foreign with
  | [] => chain
  | amount::foreign => { chain with sequence := chain.sequence + amount, foreign := foreign }

/-- The node over one account, as far as submitting goes. -/
def chainNode (simulation : SimulateResponse) (hash : Bytes32) (rejection : String) :
    Node Chain where
  getNetwork chain := (.error "no reply",chain)
  getLedgerEntries _ chain := (.error "no reply",chain)
  getAccount _ chain := (.ok chain.disturb.sequence,chain.disturb)
  simulateTransaction _ chain :=
    (.ok simulation,if chain.heldOff then chain else chain.disturb)
  sendTransaction envelope chain :=
    if envelope.seqNum = some (chain.sequence + 1) then
      (.ok hash,{ chain with sequence := chain.sequence + 1, heldOff := false })
    else (.error rejection,{ chain with heldOff := true })

theorem Chain.heldOff_disturb (chain : Chain) : chain.disturb.heldOff = chain.heldOff := by
  unfold Chain.disturb
  split <;> rfl

/-- It is honest, whoever else submits. -/
theorem chainNode_honest (crates : Crates) (simulation : SimulateResponse) (hash : Bytes32)
    (rejection : String) (herror : simulation.error = none)
    (hne : simulation.transactionData.isEmpty = false)
    (hdata : ∃ data, crates.sorobanDataFromXdrBase64 simulation.transactionData = .ok data)
    (htext : contains rejection "tx_bad_seq" = true) :
    Honest crates (chainNode simulation hash rejection) Chain.sequence
      (fun chain => chain.heldOff = true) := by
  obtain ⟨data,hdata⟩ := hdata
  constructor
  · intro id chain
    exact ⟨chain.disturb,rfl,chain.heldOff_disturb.trans⟩
  · intro envelope chain
    refine ⟨simulation,data,_,rfl,herror,hne,hdata,?_⟩
    intro hheld
    rw [if_pos hheld]
    exact ⟨hheld,rfl⟩
  · intro envelope chain heq
    exact ⟨hash,_,if_pos heq,rfl⟩
  · intro envelope chain hne
    exact ⟨rejection,_,if_neg hne,htext,rfl⟩

/-- The sample daemon before an account others use. -/
def sampleSubmitter : Keeper Chain where
  crates := sampleCrates
  node := chainNode codeSimulation (Vector.replicate 32 0) "transaction failed: tx_bad_seq"
  config := sampleKeeper.config
  payer := sampleKeeper.payer
  tracker := sampleKeeper.tracker

/-- The cache is ahead of the account, which moves before each plan. -/
theorem submitCycle_recovers_sample : ∃ report d t,
    submitCycle sampleSubmitter 100 [TxBuilder.codePlan .extend,TxBuilder.codePlan .extend]
      ⟨⟨7,[2,0,5],false⟩,some 40,[]⟩ = .ok report t ∧
    t.log = [] ++ d ∧ report.transactions = 2 ∧
    Recovered sampleSubmitter Chain.sequence
      [TxBuilder.codePlan .extend,TxBuilder.codePlan .extend] d t := by
  refine submitCycle_recovers sampleSubmitter Chain.sequence (fun chain => chain.heldOff = true)
    (chainNode_honest sampleCrates codeSimulation _ _ rfl (by decide +kernel)
      (exists_eq_ok_of_isSome (by decide +kernel)) (by decide +kernel))
    (fun _ _ => ⟨_,rfl⟩) 100 _ ?_ ⟨⟨7,[2,0,5],false⟩,some 40,[]⟩
  intro plan hplan n
  have hplan : plan = TxBuilder.codePlan .extend := by simpa using hplan
  subst hplan
  obtain ⟨_,_,inner,hbuild,_⟩ := TxBuilder.buildUnsigned_of_len sampleCrates
    (cycleBuilder sampleSubmitter) (TxBuilder.codePlan .extend)
    ⟨sampleSubmitter.payer.publicBytes sampleCrates⟩ n (by decide) (by decide)
  exact ⟨.tx inner,hbuild⟩

end SorobanRentKeeper

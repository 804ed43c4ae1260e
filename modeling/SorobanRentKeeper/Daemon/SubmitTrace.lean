import SorobanRentKeeper.Core.Observe
import SorobanRentKeeper.Daemon.Watcher

namespace SorobanRentKeeper

open Program

variable {σ : Type}

/-- `next_sequence` returned `n`, logged `d` and left `t`: from the cache, or from the node
when the cache was empty. -/
inductive Numbered (keeper : Keeper σ) (w : World σ) : Int64 → List Event → World σ → Prop where
  | cached (c : Int64) (t : World σ) (hcache : w.sequence = some c) (hnode : t.node = w.node)
      (hnext : t.sequence = some (c + 1)) : Numbered keeper w (c + 1) [] t
  | fetched (s : Int64) (t : World σ) (hcache : w.sequence = none)
      (hreply : keeper.node.getAccount keeper.tracker.accountId w.node = (.ok s,t.node))
      (hnext : t.sequence = some (s + 1)) : Numbered keeper w (s + 1) [.account (.ok s)] t

theorem Numbered.sequence {keeper : Keeper σ} {w t : World σ} {n : Int64} {d : List Event}
    (h : Numbered keeper w n d t) : t.sequence = some n := by
  cases h <;> assumption

def accountError (e : String) : KeeperError :=
  .rpc ("get_account for fee payer (is it funded?): " ++
    (RentkeeperError.rpc ("get_account: " ++ e)).toString)

theorem nextSequence_traced (keeper : Keeper σ) (w : World σ) :
    Traced World.log (keeper.tracker.nextSequence keeper.node) w
      (fun n d t => Numbered keeper w n d t)
      (fun err d t => ∃ e, w.sequence = none ∧ t.sequence = none ∧ d = [.account (.error e)] ∧
        keeper.node.getAccount keeper.tracker.accountId w.node = (.error e,t.node) ∧
        err = accountError e) := by
  unfold SequenceTracker.nextSequence Traced
  rw [spec_bind,spec_get]
  cases hc : w.sequence with
  | some c =>
    simp only [spec_bind,spec_modify,spec_pure]
    exact ⟨[],by simp,.cached c _ hc rfl rfl⟩
  | none =>
    simp only [spec_bind,spec_adaptExcept,spec_modify,spec_pure]
    refine Spec.mono (call_traced _ _ _ w) ?_ ?_
    · intro s t h
      obtain ⟨d,hd,hreply,_,rfl⟩ := h
      exact ⟨_,hd,.fetched s _ hc hreply rfl⟩
    · intro err t h
      obtain ⟨d,hd,e,hreply,hs,rfl,rfl⟩ := h
      exact ⟨_,hd,e,trivial,hs.trans hc,rfl,hreply,rfl⟩

theorem reportFailure_of_badSeq {err : KeeperError} (h : isBadSeqError err = true) (w : World σ) :
    SequenceTracker.reportFailure err w = .ok true { w with sequence := none } := by
  unfold SequenceTracker.reportFailure
  rw [h]
  rfl

theorem reportFailure_of_other {err : KeeperError} (h : isBadSeqError err = false) (w : World σ) :
    SequenceTracker.reportFailure err w = .ok false w := by
  unfold SequenceTracker.reportFailure
  rw [h]
  rfl

/-- What `submit_plan` makes of a built envelope and a simulation reply: priced, then signed. -/
def finish (keeper : Keeper σ) (builder : TxBuilder) (built : TransactionEnvelope)
    (response : SimulateResponse) : Except RentkeeperError TransactionEnvelope := do
  let priced ← mutate (builder.applySimulation keeper.crates
    (Provider.simulationResult response)) built
  mutate (builder.sign keeper.crates keeper.payer.signingKey) priced

theorem mutate_ok {x : EStateM RentkeeperError TransactionEnvelope Unit}
    {envelope envelope' : TransactionEnvelope} (h : mutate x envelope = .ok envelope') :
    x envelope = .ok () envelope' := by
  unfold mutate at h
  cases hx : x envelope with
  | ok u t =>
    rw [hx] at h
    rw [Except.ok.inj h]
  | error e t =>
    rw [hx] at h
    cases h

theorem mutate_of_ok {x : EStateM RentkeeperError TransactionEnvelope Unit}
    {envelope envelope' : TransactionEnvelope} (h : x envelope = .ok () envelope') :
    mutate x envelope = .ok envelope' := by
  unfold mutate
  rw [h]

/-- What is signed is the built transaction with the node's data and the raised fee; the signature
is of its hash, and comes last. -/
theorem finish_signed {keeper : Keeper σ} {builder : TxBuilder} {inner : TransactionV1Envelope}
    {response : SimulateResponse} {signed : TransactionEnvelope} (herror : response.error = none)
    (h : finish keeper builder (.tx inner) response = .ok signed) :
    ∃ data hash signatures, response.transactionData.isEmpty = false ∧
      keeper.crates.sorobanDataFromXdrBase64 response.transactionData = .ok data ∧
      keeper.crates.envelopeHash (.tx (builder.priced response.minResourceFee data inner.tx))
        (builder.networkId keeper.crates) = .ok hash ∧
      signatures.val = inner.signatures.val ++
        [TxBuilder.decorated keeper.crates keeper.payer.signingKey hash] ∧
      signed = .tx ⟨builder.priced response.minResourceFee data inner.tx,signatures⟩ ∧
      builder.sign keeper.crates keeper.payer.signingKey
        (.tx ⟨builder.priced response.minResourceFee data inner.tx,inner.signatures⟩) =
          .ok () signed := by
  unfold finish at h
  obtain ⟨priced,hpriced,hsign⟩ := bind_eq_ok h
  obtain ⟨text,data,htext,hne,hdata,rfl⟩ := TxBuilder.applySimulation_ok (mutate_ok hpriced)
  have hreply : Provider.simulationResult response =
      ⟨response.minResourceFee,some response.transactionData,none⟩ := by
    simp [Provider.simulationResult,herror]
  rw [hreply] at htext hsign
  cases Option.some.inj htext
  have hsign := mutate_ok hsign
  obtain ⟨priced,hash,signatures,hinner,hhash,hsignatures,hsigned⟩ :=
    spec_of_ok (TxBuilder.sign_spec keeper.crates builder _ _) hsign
  cases TransactionEnvelope.tx.inj hinner
  exact ⟨data,hash,signatures,hne,hdata,hhash,hsignatures,hsigned,hsign⟩

theorem finish_ok {keeper : Keeper σ} {builder : TxBuilder} {inner : TransactionV1Envelope}
    {response : SimulateResponse} {signed : TransactionEnvelope} (herror : response.error = none)
    (h : finish keeper builder (.tx inner) response = .ok signed) :
    ∃ data signatures, response.transactionData.isEmpty = false ∧
      keeper.crates.sorobanDataFromXdrBase64 response.transactionData = .ok data ∧
      signed = .tx ⟨builder.priced response.minResourceFee data inner.tx,signatures⟩ := by
  obtain ⟨data,_,signatures,hne,hdata,_,_,hsigned,_⟩ := finish_signed herror h
  exact ⟨data,signatures,hne,hdata,hsigned⟩

/-- Any reply that decodes gets that far. -/
theorem finish_of_data (keeper : Keeper σ) (builder : TxBuilder) (inner : TransactionV1Envelope)
    (response : SimulateResponse) (data : SorobanTransactionData) (herror : response.error = none)
    (hne : response.transactionData.isEmpty = false)
    (hdata : keeper.crates.sorobanDataFromXdrBase64 response.transactionData = .ok data)
    (hhash : ∀ tx id, ∃ hash, keeper.crates.envelopeHash tx id = .ok hash)
    (hroom : inner.signatures.val.length < 20) :
    ∃ signatures, finish keeper builder (.tx inner) response =
      .ok (.tx ⟨builder.priced response.minResourceFee data inner.tx,signatures⟩) := by
  have hsim : Provider.simulationResult response =
      ⟨response.minResourceFee,some response.transactionData,none⟩ := by
    simp [Provider.simulationResult,herror]
  have hpriced := TxBuilder.applySimulation_of_data keeper.crates builder
    (Provider.simulationResult response) inner (by rw [hsim]) hne hdata
  obtain ⟨hash,hhash⟩ := hhash (.tx (builder.priced response.minResourceFee data inner.tx))
    (keeper.crates.sha256 (utf8 builder.networkPassphrase))
  rw [hsim] at hpriced
  obtain ⟨signatures,hsign⟩ := TxBuilder.sign_of_hash keeper.crates builder
    keeper.payer.signingKey ⟨_,inner.signatures⟩ hhash hroom
  refine ⟨signatures,?_⟩
  unfold finish
  rw [hsim,mutate_of_ok hpriced]
  exact mutate_of_ok hsign

def buildFor (keeper : Keeper σ) (builder : TxBuilder) (plan : ArchivalPlan) (n : Int64) :
    Except RentkeeperError TransactionEnvelope :=
  builder.buildUnsigned keeper.crates plan ⟨keeper.payer.publicBytes keeper.crates⟩ n

def sendError (e : String) : KeeperError :=
  .rpc (RentkeeperError.rpc ("send_transaction: " ++ e)).toString

/-- Every way a call to `submit_plan` can end, with what it logged and the world it left. -/
inductive Submit (keeper : Keeper σ) (builder : TxBuilder) (plan : ArchivalPlan) (w : World σ) :
    Except KeeperError SubmissionOutcome → List Event → World σ → Prop where
  | unnumbered (e : String) (t : World σ) (hcache : w.sequence = none) (hnext : t.sequence = none)
      (hreply : keeper.node.getAccount keeper.tracker.accountId w.node = (.error e,t.node)) :
      Submit keeper builder plan w (.error (accountError e))
        [.submitPlan plan,.account (.error e)] t
  | unbuilt (n : Int64) (d : List Event) (t : World σ) (e : RentkeeperError)
      (hn : Numbered keeper w n d t) (hbuild : buildFor keeper builder plan n = .error e) :
      Submit keeper builder plan w (.error (.transaction e.toString)) (.submitPlan plan::d) t
  | unsimulated (n : Int64) (d : List Event) (t u : World σ) (built : TransactionEnvelope)
      (e : String) (hn : Numbered keeper w n d t)
      (hbuild : buildFor keeper builder plan n = .ok built)
      (hsim : keeper.node.simulateTransaction built t.node = (.error e,u.node))
      (hnext : u.sequence = some n) :
      Submit keeper builder plan w
        (.error (.rpc (RentkeeperError.rpc ("simulateTransaction: " ++ e)).toString))
        (.submitPlan plan::d ++ [.simulate built (.error e)]) u
  | simulationRejected (n : Int64) (d : List Event) (t u : World σ) (built : TransactionEnvelope)
      (response : SimulateResponse) (e : String) (hn : Numbered keeper w n d t)
      (hbuild : buildFor keeper builder plan n = .ok built)
      (hsim : keeper.node.simulateTransaction built t.node = (.ok response,u.node))
      (hnext : u.sequence = some n) (herror : response.error = some e) :
      Submit keeper builder plan w (.error (.transaction ("simulation rejected: " ++ e)))
        (.submitPlan plan::d ++ [.simulate built (.ok response)]) u
  | unfinished (n : Int64) (d : List Event) (t u : World σ) (built : TransactionEnvelope)
      (response : SimulateResponse) (e : RentkeeperError) (hn : Numbered keeper w n d t)
      (hbuild : buildFor keeper builder plan n = .ok built)
      (hsim : keeper.node.simulateTransaction built t.node = (.ok response,u.node))
      (hnext : u.sequence = some n) (herror : response.error = none)
      (hfinish : finish keeper builder built response = .error e) :
      Submit keeper builder plan w (.error (.transaction e.toString))
        (.submitPlan plan::d ++ [.simulate built (.ok response)]) u
  | refused (n : Int64) (d : List Event) (t u v : World σ) (built signed : TransactionEnvelope)
      (response : SimulateResponse) (e : String) (hn : Numbered keeper w n d t)
      (hbuild : buildFor keeper builder plan n = .ok built)
      (hsim : keeper.node.simulateTransaction built t.node = (.ok response,u.node))
      (herror : response.error = none)
      (hfinish : finish keeper builder built response = .ok signed)
      (hsend : keeper.node.sendTransaction signed u.node = (.error e,v.node))
      (hnext : v.sequence = some n) :
      Submit keeper builder plan w (.error (sendError e))
        (.submitPlan plan::d ++
          [.simulate built (.ok response),.send ⟨built,signed,.error e⟩]) v
  | accepted (n : Int64) (d : List Event) (t u v : World σ) (built signed : TransactionEnvelope)
      (response : SimulateResponse) (hash : Bytes32) (hn : Numbered keeper w n d t)
      (hbuild : buildFor keeper builder plan n = .ok built)
      (hsim : keeper.node.simulateTransaction built t.node = (.ok response,u.node))
      (herror : response.error = none)
      (hfinish : finish keeper builder built response = .ok signed)
      (hsend : keeper.node.sendTransaction signed u.node = (.ok hash,v.node))
      (hnext : v.sequence = some n) :
      Submit keeper builder plan w (.ok .accepted)
        (.submitPlan plan::d ++
          [.simulate built (.ok response),.send ⟨built,signed,.ok hash⟩]) v

theorem submitExtend_traced (keeper : Keeper σ) (built envelope : TransactionEnvelope)
    (w : World σ) :
    Traced World.log (submitExtend keeper built envelope) w
      (fun outcome d t => outcome = .accepted ∧ t.sequence = w.sequence ∧
        ∃ hash, keeper.node.sendTransaction envelope w.node = (.ok hash,t.node) ∧
          d = [.send ⟨built,envelope,.ok hash⟩])
      (fun err d t => t.sequence = w.sequence ∧
        ∃ e, keeper.node.sendTransaction envelope w.node = (.error e,t.node) ∧
          d = [.send ⟨built,envelope,.error e⟩] ∧ err = sendError e) := by
  unfold submitExtend Traced
  simp only [spec_bind,spec_adaptExcept,spec_pure]
  refine Spec.mono (call_traced _ _ _ w) ?_ ?_
  · intro hash t h
    obtain ⟨d,hd,hreply,hs,rfl⟩ := h
    exact ⟨_,hd,trivial,hs,hash,hreply,rfl⟩
  · intro err t h
    obtain ⟨d,hd,e,hreply,hs,rfl,rfl⟩ := h
    exact ⟨_,hd,hs,e,hreply,rfl,rfl⟩

theorem simulate_traced (keeper : Keeper σ) (built : TransactionEnvelope) (w : World σ) :
    Traced World.log (Provider.simulate keeper.node built) w
      (fun simulation d t => t.sequence = w.sequence ∧
        ∃ response, keeper.node.simulateTransaction built w.node = (.ok response,t.node) ∧
          d = [.simulate built (.ok response)] ∧
          simulation = Provider.simulationResult response)
      (fun err d t => t.sequence = w.sequence ∧
        ∃ e, keeper.node.simulateTransaction built w.node = (.error e,t.node) ∧
          d = [.simulate built (.error e)] ∧ err = .rpc ("simulateTransaction: " ++ e)) := by
  unfold Provider.simulate Traced
  simp only [spec_bind,spec_pure]
  refine Spec.mono (call_traced _ _ _ w) ?_ ?_
  · intro response t h
    obtain ⟨d,hd,hreply,hs,rfl⟩ := h
    exact ⟨_,hd,hs,response,hreply,rfl,rfl⟩
  · intro err t h
    obtain ⟨d,hd,e,hreply,hs,rfl,rfl⟩ := h
    exact ⟨_,hd,hs,e,hreply,rfl,rfl⟩

/-- Pricing and signing fail with one kind of error, as `finish` does in one step. -/
private theorem finish_bind (keeper : Keeper σ) (builder : TxBuilder)
    (built : TransactionEnvelope) (response : SimulateResponse) (f : RentkeeperError → KeeperError)
    (k : TransactionEnvelope → EStateM KeeperError (World σ) SubmissionOutcome) :
    (do
      let priced ← Program.ofExcept ((mutate (builder.applySimulation keeper.crates
        (Provider.simulationResult response)) built).mapError f)
      let signed ← Program.ofExcept ((mutate (builder.sign keeper.crates keeper.payer.signingKey)
        priced).mapError f)
      k signed) =
      Program.ofExcept ((finish keeper builder built response).mapError f) >>= k := by
  unfold finish
  cases mutate (builder.applySimulation keeper.crates
      (Provider.simulationResult response)) built with
  | ok priced => rfl
  | error e => rfl

theorem record_traced (event : Event) (w : World σ) :
    Traced World.log (record event) w
      (fun _ d t => d = [event] ∧ t.node = w.node ∧ t.sequence = w.sequence)
      (fun _ _ _ => False) :=
  ⟨[event],rfl,rfl,rfl,rfl⟩

/-- A call to `submit_plan` ends in one of the ways `Submit` lists. -/
theorem submitPlan_traced (keeper : Keeper σ) (builder : TxBuilder) (plan : ArchivalPlan)
    (w : World σ) :
    Traced World.log (submitPlan keeper builder plan) w
      (fun outcome d t => Submit keeper builder plan w (.ok outcome) d t)
      (fun err d t => Submit keeper builder plan w (.error err) d t) := by
  unfold submitPlan
  refine Traced.bind (record_traced _ w) ?_ (fun _ _ _ h => h.elim)
  intro _ d₀ w₀ h₀
  obtain ⟨rfl,hnode₀,hseq₀⟩ := h₀
  refine Traced.bind (nextSequence_traced keeper w₀) ?_ ?_
  · intro n d t hn
    have hn : Numbered keeper w n d t := by
      cases hn with
      | cached c _ hcache hnode hnext =>
        exact .cached c t (hseq₀ ▸ hcache) (hnode.trans hnode₀) hnext
      | fetched s _ hcache hreply hnext =>
        exact .fetched s t (hseq₀ ▸ hcache) (hnode₀ ▸ hreply) hnext
    refine traced_ofExcept_bind ?_ ?_
    · intro built hmap
      have hbuild : buildFor keeper builder plan n = .ok built := mapError_eq_ok hmap
      refine Traced.bind (Traced.adaptExcept _ (simulate_traced keeper built t)) ?_ ?_
      · intro simulation d₁ u hs
        obtain ⟨hnext,response,hsim,rfl,rfl⟩ := hs
        have hnext : u.sequence = some n := hnext.trans hn.sequence
        cases herror : response.error with
        | some e =>
          have hfailed : Provider.simulationResult response = ⟨0,none,some e⟩ := by
            simp [Provider.simulationResult,herror]
          rw [hfailed]
          apply traced_throw
          simpa using Submit.simulationRejected n d t u built response e hn hbuild hsim hnext herror
        | none =>
          have hfine : (Provider.simulationResult response).failed = false := by
            simp [Provider.simulationResult,herror,SimulationResult.failed]
          simp only [hfine,Bool.false_eq_true,if_false]
          rw [finish_bind]
          refine traced_ofExcept_bind ?_ ?_
          · intro signed hmap
            have hfinish := mapError_eq_ok hmap
            refine Traced.mono (submitExtend_traced keeper built signed u) ?_ ?_
            · intro outcome d₂ v hv
              obtain ⟨rfl,hkeep,hash,hsend,rfl⟩ := hv
              simpa using Submit.accepted n d t u v built signed response hash hn hbuild hsim
                herror hfinish hsend (hkeep.trans hnext)
            · intro err d₂ v hv
              obtain ⟨hkeep,e,hsend,rfl,rfl⟩ := hv
              simpa using Submit.refused n d t u v built signed response e hn hbuild hsim
                herror hfinish hsend (hkeep.trans hnext)
          · intro err hmap
            obtain ⟨e,hfinish,rfl⟩ := mapError_eq_error hmap
            -- the simulation is the last thing logged
            simpa using Submit.unfinished n d t u built response e hn hbuild hsim hnext herror
              hfinish
      · intro err d₁ u hs
        obtain ⟨_,⟨hnext,e,hsim,rfl,rfl⟩,rfl⟩ := hs
        simpa using Submit.unsimulated n d t u built e hn hbuild hsim (hnext.trans hn.sequence)
    · intro err hmap
      obtain ⟨e,hbuild,rfl⟩ := mapError_eq_error hmap
      simpa using Submit.unbuilt n d t e hn hbuild
  · intro err d t h
    obtain ⟨e,hcache,hnext,rfl,hreply,rfl⟩ := h
    exact .unnumbered e t (hseq₀ ▸ hcache) hnext (hnode₀ ▸ hreply)

end SorobanRentKeeper

import SorobanRentKeeper.Daemon.SubmitTrace

namespace SorobanRentKeeper

open Program

def Submission.accepted (s : Submission) : Bool :=
  match s.reply with
  | .ok _ => true
  | .error _ => false

/-- The submissions in a log. -/
def sends (d : List Event) : List Submission :=
  d.filterMap fun e => match e with
    | .send s => some s
    | _ => none

/-- The submissions the node accepted. -/
def accepted (d : List Event) : List Submission := (sends d).filter Submission.accepted

/-- The envelopes handed to simulation, which are all that were built. -/
def simulated (d : List Event) : List TransactionEnvelope :=
  d.filterMap fun e => match e with
    | .simulate envelope _ => some envelope
    | _ => none

/-- The plans `submit_plan` was called for. -/
def attempted (d : List Event) : List ArchivalPlan :=
  d.filterMap fun e => match e with
    | .submitPlan plan => some plan
    | _ => none

/-- The observations completed in a log. -/
def observedIn (d : List Event) : List (List LedgerKey × List Observation) :=
  d.filterMap fun e => match e with
    | .observed keys observations => some (keys,observations)
    | _ => none

theorem mem_sends {d : List Event} {s : Submission} : s ∈ sends d ↔ .send s ∈ d := by
  unfold sends
  rw [List.mem_filterMap]
  constructor
  · intro h
    obtain ⟨e,he,hs⟩ := h
    cases e with
    | send s' => rwa [← Option.some.inj hs]
    | _ => cases hs
  · intro h
    exact ⟨.send s,h,rfl⟩

@[simp] theorem sends_append (d d' : List Event) : sends (d ++ d') = sends d ++ sends d' :=
  List.filterMap_append

@[simp] theorem accepted_append (d d' : List Event) :
    accepted (d ++ d') = accepted d ++ accepted d' := by
  simp [accepted]

@[simp] theorem simulated_append (d d' : List Event) :
    simulated (d ++ d') = simulated d ++ simulated d' := List.filterMap_append

@[simp] theorem attempted_append (d d' : List Event) :
    attempted (d ++ d') = attempted d ++ attempted d' := List.filterMap_append

@[simp] theorem observedIn_append (d d' : List Event) :
    observedIn (d ++ d') = observedIn d ++ observedIn d' := List.filterMap_append

variable {σ : Type}

/-- A log of submitting one plan, whatever became of it: only this plan was tried, everything
built was built from it, and everything sent was simulated before. -/
structure Concerns (keeper : Keeper σ) (builder : TxBuilder) (plan : ArchivalPlan)
    (d : List Event) : Prop where
  tried : ∀ p ∈ attempted d, p = plan
  entered : plan ∈ attempted d
  built : ∀ envelope ∈ simulated d, ∃ n, buildFor keeper builder plan n = .ok envelope
  sent : ∀ s ∈ sends d, s.built ∈ simulated d
  unread : observedIn d = []

theorem Concerns.append {keeper : Keeper σ} {builder : TxBuilder} {plan : ArchivalPlan}
    {d d' : List Event} (h : Concerns keeper builder plan d)
    (h' : Concerns keeper builder plan d') : Concerns keeper builder plan (d ++ d') := by
  constructor
  · intro p hp
    rw [attempted_append,List.mem_append] at hp
    exact hp.elim (h.tried p) (h'.tried p)
  · rw [attempted_append]
    exact List.mem_append_left _ h.entered
  · intro envelope he
    rw [simulated_append,List.mem_append] at he
    exact he.elim (h.built envelope) (h'.built envelope)
  · intro s hs
    rw [sends_append,List.mem_append] at hs
    rw [simulated_append,List.mem_append]
    exact hs.imp (h.sent s) (h'.sent s)
  · rw [observedIn_append,h.unread,h'.unread,List.append_nil]

/-- Taking a number only asks for the account. -/
theorem Numbered.log {keeper : Keeper σ} {w t : World σ} {n : Int64} {d : List Event}
    (h : Numbered keeper w n d t) :
    sends d = [] ∧ simulated d = [] ∧ attempted d = [] ∧ observedIn d = [] := by
  cases h with
  | cached c _ _ _ _ => exact ⟨rfl,rfl,rfl,rfl⟩
  | fetched s _ _ _ _ => exact ⟨rfl,rfl,rfl,rfl⟩

/-- In front of what follows the number, `submit_plan` logs only that it was called. -/
theorem Numbered.log_append {keeper : Keeper σ} {w t : World σ} {n : Int64} {d : List Event}
    (h : Numbered keeper w n d t) (plan : ArchivalPlan) (tail : List Event) :
    sends (.submitPlan plan::d ++ tail) = sends tail ∧
    simulated (.submitPlan plan::d ++ tail) = simulated tail ∧
    attempted (.submitPlan plan::d ++ tail) = plan::attempted tail ∧
    observedIn (.submitPlan plan::d ++ tail) = observedIn tail := by
  obtain ⟨hsends,hsim,hatt,hobs⟩ := h.log
  rw [← List.singleton_append,List.append_assoc]
  simp only [sends_append,simulated_append,attempted_append,observedIn_append,hsends,hsim,hatt,hobs]
  exact ⟨rfl,rfl,rfl,rfl⟩

/-- What `submit_plan` logs once it has its number `n`, with how it ends: it fails with nothing
built, or with the envelope simulated at most, or it submits. -/
inductive Tail (keeper : Keeper σ) (builder : TxBuilder) (plan : ArchivalPlan) (n : Int64) :
    Except KeeperError SubmissionOutcome → List Event → Prop where
  | unbuilt (err : KeeperError) (e : RentkeeperError)
      (hbuild : buildFor keeper builder plan n = .error e) :
      Tail keeper builder plan n (.error err) []
  | unsent (err : KeeperError) (built : TransactionEnvelope)
      (reply : Except String SimulateResponse)
      (hbuild : buildFor keeper builder plan n = .ok built) :
      Tail keeper builder plan n (.error err) [.simulate built reply]
  | refused (built signed : TransactionEnvelope) (response : SimulateResponse) (e : String)
      (hbuild : buildFor keeper builder plan n = .ok built) (herror : response.error = none)
      (hfinish : finish keeper builder built response = .ok signed) :
      Tail keeper builder plan n (.error (sendError e))
        [.simulate built (.ok response),.send ⟨built,signed,.error e⟩]
  | accepted (built signed : TransactionEnvelope) (response : SimulateResponse) (hash : Bytes32)
      (hbuild : buildFor keeper builder plan n = .ok built) (herror : response.error = none)
      (hfinish : finish keeper builder built response = .ok signed) :
      Tail keeper builder plan n (.ok .accepted)
        [.simulate built (.ok response),.send ⟨built,signed,.ok hash⟩]

/-- A call to `submit_plan` gets no number, or it caches the one it gets and goes on from there. -/
theorem Submit.logged {keeper : Keeper σ} {builder : TxBuilder} {plan : ArchivalPlan}
    {w t : World σ} {r : Except KeeperError SubmissionOutcome} {d : List Event}
    (h : Submit keeper builder plan w r d t) :
    (t.sequence = none ∧ ∃ e, r = .error (accountError e) ∧
      d = [.submitPlan plan,.account (.error e)]) ∨
    ∃ n dn u tail, Numbered keeper w n dn u ∧ t.sequence = some n ∧
      d = .submitPlan plan::dn ++ tail ∧ Tail keeper builder plan n r tail := by
  cases h with
  | unnumbered e _ hcache hnext hreply => exact .inl ⟨hnext,e,rfl,rfl⟩
  | unbuilt n d _ e hn hbuild =>
    exact .inr ⟨n,d,t,[],hn,hn.sequence,(List.append_nil _).symm,.unbuilt _ e hbuild⟩
  | unsimulated n d u _ built e hn hbuild hsim hnext =>
    exact .inr ⟨n,d,u,_,hn,hnext,rfl,.unsent _ built _ hbuild⟩
  | simulationRejected n d u _ built response e hn hbuild hsim hnext herror =>
    exact .inr ⟨n,d,u,_,hn,hnext,rfl,.unsent _ built _ hbuild⟩
  | unfinished n d u _ built response e hn hbuild hsim hnext herror hfinish =>
    exact .inr ⟨n,d,u,_,hn,hnext,rfl,.unsent _ built _ hbuild⟩
  | refused n d u v _ built signed response e hn hbuild hsim herror hfinish hsend hnext =>
    exact .inr ⟨n,d,u,_,hn,hnext,rfl,.refused built signed response e hbuild herror hfinish⟩
  | accepted n d u v _ built signed response hash hn hbuild hsim herror hfinish hsend hnext =>
    exact .inr ⟨n,d,u,_,hn,hnext,rfl,.accepted built signed response hash hbuild herror hfinish⟩

private theorem Numbered.concerns {keeper : Keeper σ} {builder : TxBuilder} {plan : ArchivalPlan}
    {w t : World σ} {n : Int64} {d tail : List Event} (h : Numbered keeper w n d t)
    (hbuilt : ∀ envelope ∈ simulated tail, buildFor keeper builder plan n = .ok envelope)
    (hsent : ∀ s ∈ sends tail, s.built ∈ simulated tail) (htried : attempted tail = [])
    (hunread : observedIn tail = []) :
    Concerns keeper builder plan (.submitPlan plan::d ++ tail) := by
  obtain ⟨hsends,hsim,hatt,hobs⟩ := h.log_append plan tail
  constructor
  · intro p hp
    rw [hatt,htried] at hp
    exact List.mem_singleton.mp hp
  · rw [hatt]
    exact List.mem_cons_self
  · intro envelope he
    rw [hsim] at he
    exact ⟨n,hbuilt envelope he⟩
  · intro s hs
    rw [hsends] at hs
    rw [hsim]
    exact hsent s hs
  · rw [hobs,hunread]

/-- Whatever a call to `submit_plan` does concerns its plan. -/
theorem Submit.concerns {keeper : Keeper σ} {builder : TxBuilder} {plan : ArchivalPlan}
    {w t : World σ} {r : Except KeeperError SubmissionOutcome} {d : List Event}
    (h : Submit keeper builder plan w r d t) : Concerns keeper builder plan d := by
  rcases h.logged with ⟨_,e,_,rfl⟩|⟨n,dn,u,tail,hn,_,rfl,htail⟩
  · constructor <;> simp [attempted,simulated,sends,observedIn]
  · cases htail with
    | unbuilt err e hbuild => exact hn.concerns (by simp [simulated]) (by simp [sends]) rfl rfl
    | unsent err built reply hbuild =>
      exact hn.concerns (by simpa [simulated] using hbuild) (by simp [sends]) rfl rfl
    | refused built signed response e hbuild herror hfinish =>
      exact hn.concerns (by simpa [simulated] using hbuild) (by simp [sends,simulated]) rfl rfl
    | accepted built signed response hash hbuild herror hfinish =>
      exact hn.concerns (by simpa [simulated] using hbuild) (by simp [sends,simulated]) rfl rfl

/-- Behind a submission of a call stands all that led to it: the number taken, the envelope built
with it, the reply to that envelope, and what the reply made of it. -/
theorem Submit.sent {keeper : Keeper σ} {builder : TxBuilder} {plan : ArchivalPlan} {w t : World σ}
    {r : Except KeeperError SubmissionOutcome} {d : List Event}
    (h : Submit keeper builder plan w r d t) : ∀ s ∈ sends d, ∃ n dn u response,
      Numbered keeper w n dn u ∧ buildFor keeper builder plan n = .ok s.built ∧
      .simulate s.built (.ok response) ∈ d ∧ response.error = none ∧
      finish keeper builder s.built response = .ok s.signed := by
  intro s hs
  rcases h.logged with ⟨_,e,_,rfl⟩|⟨n,dn,u,tail,hn,_,rfl,htail⟩
  · simp [sends] at hs
  · rw [(hn.log_append plan tail).1] at hs
    cases htail with
    | unbuilt err e hbuild => simp [sends] at hs
    | unsent err built reply hbuild => simp [sends] at hs
    | refused built signed response e hbuild herror hfinish =>
      have heq : s = ⟨built,signed,.error e⟩ := by simpa [sends] using hs
      rw [heq]
      exact ⟨n,dn,u,response,hn,hbuild,by simp,herror,hfinish⟩
    | accepted built signed response hash hbuild herror hfinish =>
      have heq : s = ⟨built,signed,.ok hash⟩ := by simpa [sends] using hs
      rw [heq]
      exact ⟨n,dn,u,response,hn,hbuild,by simp,herror,hfinish⟩

/-- A call that ends well had one submission accepted. -/
theorem Submit.accepted_of_ok {keeper : Keeper σ} {builder : TxBuilder} {plan : ArchivalPlan}
    {w t : World σ} {d : List Event} (h : Submit keeper builder plan w (.ok .accepted) d t) :
    ∃ s n, SorobanRentKeeper.accepted d = [s] ∧ buildFor keeper builder plan n = .ok s.built := by
  cases h with
  | accepted n d t u _ built signed response hash hn hbuild hsim herror hfinish hsend hnext =>
    obtain ⟨hsends,_⟩ := hn.log_append plan
      [.simulate built (.ok response),.send ⟨built,signed,.ok hash⟩]
    refine ⟨⟨built,signed,.ok hash⟩,n,?_,hbuild⟩
    unfold SorobanRentKeeper.accepted
    rw [hsends]
    rfl

/-- A call that fails had none. -/
theorem Submit.accepted_of_error {keeper : Keeper σ} {builder : TxBuilder} {plan : ArchivalPlan}
    {w t : World σ} {err : KeeperError} {d : List Event}
    (h : Submit keeper builder plan w (.error err) d t) : SorobanRentKeeper.accepted d = [] := by
  unfold SorobanRentKeeper.accepted
  rcases h.logged with ⟨_,e,_,rfl⟩|⟨n,dn,u,tail,hn,_,rfl,htail⟩
  · rfl
  · rw [(hn.log_append plan tail).1]
    cases htail with
    | unbuilt _ e hbuild => rfl
    | unsent _ built reply hbuild => rfl
    | refused built signed response e hbuild herror hfinish => rfl

/-- Every way one turn of the submit loop can end: an error is reported from the first attempt
even when it was the retry that failed. -/
inductive Step (keeper : Keeper σ) (builder : TxBuilder) (plan : ArchivalPlan) (w : World σ) :
    Option KeeperError → List Event → World σ → Prop where
  | accepted (d : List Event) (t : World σ)
      (h : Submit keeper builder plan w (.ok .accepted) d t) : Step keeper builder plan w none d t
  | healed (err : KeeperError) (d d' : List Event) (t u : World σ)
      (h : Submit keeper builder plan w (.error err) d t) (hbad : isBadSeqError err = true)
      (h' : Submit keeper builder plan { t with sequence := none } (.ok .accepted) d' u) :
      Step keeper builder plan w none (d ++ d') u
  | failedTwice (err err' : KeeperError) (d d' : List Event) (t u : World σ)
      (h : Submit keeper builder plan w (.error err) d t) (hbad : isBadSeqError err = true)
      (h' : Submit keeper builder plan { t with sequence := none } (.error err') d' u) :
      Step keeper builder plan w (some err) (d ++ d') u
  | failed (err : KeeperError) (d : List Event) (t : World σ)
      (h : Submit keeper builder plan w (.error err) d t) (hbad : isBadSeqError err = false) :
      Step keeper builder plan w (some err) d t

theorem Submit.not_rejected {keeper : Keeper σ} {builder : TxBuilder} {plan : ArchivalPlan}
    {w t : World σ} {d : List Event} :
    ¬Submit keeper builder plan w (.ok .rejected) d t := by
  intro h
  cases h

theorem reportFailure_traced (err : KeeperError) (w : World σ) :
    Traced World.log (SequenceTracker.reportFailure err) w
      (fun dropped d t => dropped = isBadSeqError err ∧ d = [] ∧
        t = if dropped then { w with sequence := none } else w)
      (fun _ _ _ => False) := by
  unfold SequenceTracker.reportFailure
  cases isBadSeqError err with
  | true => exact ⟨[],by simp,rfl,rfl,rfl⟩
  | false => exact ⟨[],by simp,rfl,rfl,rfl⟩

/-- One turn of the submit loop ends in one of the ways `Step` lists. -/
theorem submitStep_traced (keeper : Keeper σ) (builder : TxBuilder) (submitted : Nat)
    (plan : ArchivalPlan) (w : World σ) :
    Traced World.log (submitStep keeper builder submitted plan) w
      (fun n d t => n = submitted + 1 ∧ Step keeper builder plan w none d t)
      (fun err d t => Step keeper builder plan w (some err) d t) := by
  unfold submitStep
  refine Traced.bind (Traced.attempt (Q := fun r d t => Submit keeper builder plan w r d t)
    (E := fun _ _ _ => False) (submitPlan_traced keeper builder plan w)) ?_
    (fun _ _ _ h => h.elim)
  intro r d t h
  cases r with
  | ok outcome =>
    cases outcome with
    | rejected => exact absurd h Submit.not_rejected
    | accepted =>
      refine traced_pure ⟨rfl,?_⟩
      rw [List.append_nil]
      exact .accepted d t h
  | error err =>
    refine Traced.bind (reportFailure_traced err t) ?_ (fun _ _ _ h => h.elim)
    intro dropped d₁ t₁ hdropped
    obtain ⟨hbad,rfl,rfl⟩ := hdropped
    cases dropped with
    | false =>
      apply traced_throw
      simp only [List.append_nil]
      exact .failed err d t h hbad.symm
    | true =>
      refine Traced.bind (Traced.attempt
        (Q := fun r d' u => Submit keeper builder plan { t with sequence := none } r d' u)
        (E := fun _ _ _ => False) (submitPlan_traced keeper builder plan _)) ?_
        (fun _ _ _ h => h.elim)
      intro r d' u h'
      cases r with
      | ok outcome =>
        cases outcome with
        | rejected => exact absurd h' Submit.not_rejected
        | accepted =>
          refine traced_pure ⟨rfl,?_⟩
          simpa using Step.healed err d d' t u h hbad.symm h'
      | error err' =>
        apply traced_throw
        simpa using Step.failedTwice err err' d d' t u h hbad.symm h'

/-- A log of one plan that was accepted once. -/
structure Served (keeper : Keeper σ) (builder : TxBuilder) (plan : ArchivalPlan)
    (d : List Event) : Prop extends Concerns keeper builder plan d where
  once : ∃ s n, accepted d = [s] ∧ buildFor keeper builder plan n = .ok s.built

/-- A log of one plan that was not accepted. -/
structure Unserved (keeper : Keeper σ) (builder : TxBuilder) (plan : ArchivalPlan)
    (d : List Event) : Prop extends Concerns keeper builder plan d where
  never : accepted d = []

theorem Step.served {keeper : Keeper σ} {builder : TxBuilder} {plan : ArchivalPlan}
    {w t : World σ} {d : List Event} (h : Step keeper builder plan w none d t) :
    Served keeper builder plan d := by
  cases h with
  | accepted _ _ h => exact ⟨h.concerns,h.accepted_of_ok⟩
  | healed err d d' t _ h hbad h' =>
    refine ⟨h.concerns.append h'.concerns,?_⟩
    rw [accepted_append,h.accepted_of_error,List.nil_append]
    exact h'.accepted_of_ok

theorem Step.unserved {keeper : Keeper σ} {builder : TxBuilder} {plan : ArchivalPlan}
    {w t : World σ} {err : KeeperError} {d : List Event}
    (h : Step keeper builder plan w (some err) d t) : Unserved keeper builder plan d := by
  cases h with
  | failed _ _ _ h hbad => exact ⟨h.concerns,h.accepted_of_error⟩
  | failedTwice err err' d d' t _ h hbad h' =>
    refine ⟨h.concerns.append h'.concerns,?_⟩
    rw [accepted_append,h.accepted_of_error,h'.accepted_of_error,List.append_nil]

/-- What a call of `submit_plan` fails with is not about the rules. -/
theorem Submit.fails {keeper : Keeper σ} {builder : TxBuilder} {plan : ArchivalPlan}
    {w t : World σ} {err : KeeperError} {d : List Event}
    (h : Submit keeper builder plan w (.error err) d t) :
    ∃ text, err = .rpc text ∨ err = .transaction text := by
  cases h with
  | unnumbered => exact ⟨_,.inl rfl⟩
  | unbuilt => exact ⟨_,.inr rfl⟩
  | unsimulated => exact ⟨_,.inl rfl⟩
  | simulationRejected => exact ⟨_,.inr rfl⟩
  | unfinished => exact ⟨_,.inr rfl⟩
  | refused => exact ⟨_,.inl rfl⟩

/-- The error of a turn is that of its first attempt. -/
theorem Step.first_error {keeper : Keeper σ} {builder : TxBuilder} {plan : ArchivalPlan}
    {w t : World σ} {err : KeeperError} {d : List Event}
    (h : Step keeper builder plan w (some err) d t) :
    ∃ d' u, d' <+: d ∧ Submit keeper builder plan w (.error err) d' u := by
  cases h with
  | failed _ _ _ h hbad => exact ⟨d,t,List.prefix_refl d,h⟩
  | failedTwice _ err' d d' u _ h hbad h' => exact ⟨d,u,List.prefix_append d d',h⟩

/-- Turns of the submit loop that went well, plan by plan. -/
inductive Serves (keeper : Keeper σ) (builder : TxBuilder) (w : World σ) :
    List ArchivalPlan → List Event → World σ → Prop where
  | nil : Serves keeper builder w [] [] w
  | snoc (done : List ArchivalPlan) (plan : ArchivalPlan) (d d' : List Event) (t u : World σ)
      (h : Serves keeper builder w done d t) (hstep : Step keeper builder plan t none d' u) :
      Serves keeper builder w (done ++ [plan]) (d ++ d') u

theorem Serves.served {keeper : Keeper σ} {builder : TxBuilder} {w t : World σ}
    {plans : List ArchivalPlan} {d : List Event} (h : Serves keeper builder w plans d t) :
    ∃ ds, List.Forall₂ (Served keeper builder) plans ds ∧ d = ds.flatten := by
  induction h with
  | nil => exact ⟨[],.nil,rfl⟩
  | snoc done plan d d' t u h hstep ih =>
    obtain ⟨ds,hds,rfl⟩ := ih
    exact ⟨ds ++ [d'],List.rel_append hds (.cons hstep.served .nil),by simp⟩

/-- The submit loop takes the plans in order, up to the first that fails. -/
theorem submitPlans_serves (keeper : Keeper σ) (builder : TxBuilder) (plans : List ArchivalPlan)
    (w : World σ) :
    Traced World.log (submitPlans keeper builder plans) w
      (fun n d t => n = plans.length ∧ Serves keeper builder w plans d t)
      (fun err d t => ∃ done plan rest d₁ d₂ u, plans = done ++ plan::rest ∧
        Serves keeper builder w done d₁ u ∧ Step keeper builder plan u (some err) d₂ t ∧
        d = d₁ ++ d₂) := by
  unfold submitPlans
  refine Traced.foldlM
    (I := fun done n d t => n = done.length ∧ Serves keeper builder w done d t)
    plans 0 w ⟨rfl,.nil⟩ ?_
  intro done plan rest n d t hplans hI
  obtain ⟨hn,hserves⟩ := hI
  refine Traced.mono (submitStep_traced keeper builder n plan t) ?_ ?_
  · intro n' d' u h
    exact ⟨by simp [h.1,hn],.snoc done plan d d' t u hserves h.2⟩
  · intro err d' u h
    exact ⟨done,plan,rest,d,d',t,hplans,hserves,h,rfl⟩

end SorobanRentKeeper

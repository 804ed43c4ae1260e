import SorobanRentKeeper.Daemon.Recovery

namespace SorobanRentKeeper

open Program

variable {σ : Type}

/-- A call that fails before it sends anything leaves the tracker as it found it, so that the next
number given out is the one the call took. -/
def ReturnsNumber (keeper : Keeper σ) (builder : TxBuilder) (plan : ArchivalPlan)
    (w : World σ) (c : Int64) : Prop :=
  ∀ err d t, submitPlan keeper builder plan w = .error err t → t.log = w.log ++ d → sends d = [] →
    t.sequence = w.sequence ∧
    ∀ n u, keeper.tracker.nextSequence keeper.node t = .ok n u → n = c + 1

/-- Nothing stops the plan on its way to the send: it is built, the simulation answers without an
error, and the envelope is priced and signed. -/
def Sendable (keeper : Keeper σ) (builder : TxBuilder) (plan : ArchivalPlan) (w : World σ)
    (c : Int64) : Prop :=
  ∃ built response signed s, buildFor keeper builder plan (c + 1) = .ok built ∧
    keeper.node.simulateTransaction built w.node = (.ok response,s) ∧ response.error = none ∧
    finish keeper builder built response = .ok signed

theorem Numbered.eq_of_cached {keeper : Keeper σ} {w t : World σ} {n c : Int64} {d : List Event}
    (h : Numbered keeper w n d t) (hcache : w.sequence = some c) :
    n = c + 1 ∧ d = [] ∧ t.node = w.node := by
  cases h with
  | cached c' _ hcache' hnode hnext =>
    rw [hcache] at hcache'
    cases hcache'
    exact ⟨rfl,rfl,hnode⟩
  | fetched s _ hcache' hreply hnext =>
    rw [hcache] at hcache'
    cases hcache'

/-- With a number cached, a call reaches its send exactly when the plan is sendable; otherwise it
fails, and has used up the number. -/
theorem Submit.sendable_iff {keeper : Keeper σ} {builder : TxBuilder} {plan : ArchivalPlan}
    {w t : World σ} {r : Except KeeperError SubmissionOutcome} {d : List Event} {c : Int64}
    (h : Submit keeper builder plan w r d t) (hcache : w.sequence = some c) :
    (Sendable keeper builder plan w c ∧ sends d ≠ []) ∨
    (¬Sendable keeper builder plan w c ∧ sends d = [] ∧ t.sequence = some (c + 1) ∧
      ∃ err, r = .error err) := by
  cases h with
  | unnumbered e _ hempty hnext hreply =>
    rw [hcache] at hempty
    cases hempty
  | unbuilt n d _ e hn hbuild =>
    have hseq := hn.sequence
    obtain ⟨rfl,rfl,hnode⟩ := hn.eq_of_cached hcache
    refine .inr ⟨?_,rfl,hseq,_,rfl⟩
    intro hsendable
    obtain ⟨built,response,signed,s,hbuild',_⟩ := hsendable
    rw [hbuild] at hbuild'
    cases hbuild'
  | unsimulated n d u _ built e hn hbuild hsim hnext =>
    obtain ⟨rfl,rfl,hnode⟩ := hn.eq_of_cached hcache
    refine .inr ⟨?_,rfl,hnext,_,rfl⟩
    intro hsendable
    obtain ⟨built',response,signed,s,hbuild',hsim',_⟩ := hsendable
    cases Except.ok.inj (hbuild.symm.trans hbuild')
    rw [hnode,hsim'] at hsim
    cases hsim
  | simulationRejected n d u _ built response e hn hbuild hsim hnext herror =>
    obtain ⟨rfl,rfl,hnode⟩ := hn.eq_of_cached hcache
    refine .inr ⟨?_,rfl,hnext,_,rfl⟩
    intro hsendable
    obtain ⟨built',response',signed,s,hbuild',hsim',herror',_⟩ := hsendable
    cases Except.ok.inj (hbuild.symm.trans hbuild')
    rw [hnode,hsim'] at hsim
    cases hsim
    rw [herror] at herror'
    cases herror'
  | unfinished n d u _ built response e hn hbuild hsim hnext herror hfinish =>
    obtain ⟨rfl,rfl,hnode⟩ := hn.eq_of_cached hcache
    refine .inr ⟨?_,rfl,hnext,_,rfl⟩
    intro hsendable
    obtain ⟨built',response',signed,s,hbuild',hsim',_,hfinish'⟩ := hsendable
    cases Except.ok.inj (hbuild.symm.trans hbuild')
    rw [hnode,hsim'] at hsim
    cases hsim
    rw [hfinish] at hfinish'
    cases hfinish'
  | refused n d u v _ built signed response e hn hbuild hsim herror hfinish hsend hnext =>
    obtain ⟨rfl,rfl,hnode⟩ := hn.eq_of_cached hcache
    rw [hnode] at hsim
    exact .inl ⟨⟨built,response,signed,v.node,hbuild,hsim,herror,hfinish⟩,by simp [sends]⟩
  | accepted n d u v _ built signed response hash hn hbuild hsim herror hfinish hsend hnext =>
    obtain ⟨rfl,rfl,hnode⟩ := hn.eq_of_cached hcache
    rw [hnode] at hsim
    exact .inl ⟨⟨built,response,signed,v.node,hbuild,hsim,herror,hfinish⟩,by simp [sends]⟩

theorem add_one_ne_self (c : Int64) : c + 1 ≠ c := by
  intro h
  have hone := congrArg (fun x => x - c) h
  simp [Int64.add_comm c] at hone

/-- A number taken is given back only where there is no need to: exactly the plans that reach their
send keep the promise, and any other leaves the number after next to be given out. -/
theorem submitPlan_returnsNumber_iff (keeper : Keeper σ) (builder : TxBuilder)
    (plan : ArchivalPlan) (w : World σ) (c : Int64) (hcache : w.sequence = some c) :
    (ReturnsNumber keeper builder plan w c ↔ Sendable keeper builder plan w c) ∧
    (¬Sendable keeper builder plan w c → ∃ err t, submitPlan keeper builder plan w = .error err t ∧
      ∃ u, keeper.tracker.nextSequence keeper.node t = .ok (c + 1 + 1) u) := by
  obtain ⟨d,hd,hrun⟩ := (submitPlan_traced keeper builder plan w).cases
  have hunsent : ¬Sendable keeper builder plan w c → ∃ err t,
      submitPlan keeper builder plan w = .error err t ∧ t.log = w.log ++ d ∧ sends d = [] ∧
      t.sequence = some (c + 1) := by
    intro hnot
    rcases hrun with ⟨outcome,t,hrun,h⟩|⟨err,t,hrun,h⟩
    · rcases h.sendable_iff hcache with ⟨hyes,_⟩|⟨_,_,_,err,herr⟩
      · exact absurd hyes hnot
      · cases herr
    · rcases h.sendable_iff hcache with ⟨hyes,_⟩|⟨_,hsends,hnext,_⟩
      · exact absurd hyes hnot
      · rw [hrun] at hd
        exact ⟨err,t,hrun,hd,hsends,hnext⟩
  refine ⟨⟨?_,?_⟩,?_⟩
  · intro hreturns
    by_contra hnot
    obtain ⟨err,t,hrun,hlog,hsends,hnext⟩ := hunsent hnot
    have hkept := (hreturns err d t hrun hlog hsends).1
    rw [hnext,hcache] at hkept
    exact add_one_ne_self c (Option.some.inj hkept)
  · intro hsendable err d' t hrun' hlog hsends
    rw [hrun',final,hlog,List.append_cancel_left_eq] at hd
    subst hd
    rcases hrun with ⟨outcome,t',hrun,_⟩|⟨err',t',hrun,h⟩
    · rw [hrun] at hrun'
      cases hrun'
    · rcases h.sendable_iff hcache with ⟨_,hsent⟩|⟨hnot,_⟩
      · exact absurd hsends hsent
      · exact absurd hsendable hnot
  · intro hnot
    obtain ⟨err,t,hrun,_,_,hnext⟩ := hunsent hnot
    refine ⟨err,t,hrun,{ t with sequence := some (c + 1 + 1) },?_⟩
    unfold SequenceTracker.nextSequence
    rw [get_bind,hnext]
    rfl

/-- The tracker holds 7, and the simulation gets no answer. -/
def deafWorld : World Script :=
  ⟨⟨.error "no reply",[],[],[.error "connection reset"],[]⟩,some 7,[]⟩

/-- There, number 8 is lost. -/
theorem submitPlan_returnsNumber_deaf :
    (ReturnsNumber sampleKeeper (cycleBuilder sampleKeeper) (TxBuilder.codePlan .extend) deafWorld
        7 ↔
      Sendable sampleKeeper (cycleBuilder sampleKeeper) (TxBuilder.codePlan .extend) deafWorld 7) ∧
    (¬Sendable sampleKeeper (cycleBuilder sampleKeeper) (TxBuilder.codePlan .extend) deafWorld 7 →
      ∃ err t, submitPlan sampleKeeper (cycleBuilder sampleKeeper) (TxBuilder.codePlan .extend)
        deafWorld = .error err t ∧
        ∃ u, sampleKeeper.tracker.nextSequence sampleKeeper.node t = .ok (7 + 1 + 1) u) :=
  submitPlan_returnsNumber_iff sampleKeeper (cycleBuilder sampleKeeper) (TxBuilder.codePlan .extend)
    deafWorld 7 rfl

theorem submitPlan_losesNumber : ¬∀ (keeper : Keeper Script) (builder : TxBuilder)
    (plan : ArchivalPlan) (w : World Script) (c : Int64), w.sequence = some c →
    ReturnsNumber keeper builder plan w c := by
  intro h
  have hreturns := h sampleKeeper (cycleBuilder sampleKeeper) (TxBuilder.codePlan .extend) deafWorld
    7 rfl
  have hrun : submitPlan sampleKeeper (cycleBuilder sampleKeeper) (TxBuilder.codePlan .extend)
      deafWorld = .error _ _ := rfl
  have hkept := (hreturns _ _ _ hrun (List.nil_append _).symm (by decide +kernel)).1
  exact absurd hkept (by decide +kernel)

end SorobanRentKeeper

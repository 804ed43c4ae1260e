import SorobanRentKeeper.Daemon.Cycle
import SorobanRentKeeper.Daemon.SentEnvelope
import SorobanRentKeeper.Daemon.Session

namespace SorobanRentKeeper

open Program

variable {σ : Type}

/-- What the node last said its network is. -/
def lastNetwork (d : List Event) : Option (Except String String) :=
  (d.filterMap fun e => match e with
    | .network reply => some reply
    | _ => none).getLast?

/-- What was observed since the network was last asked for. -/
def freshObserved (d : List Event) : Option (List LedgerKey × List Observation) :=
  ((d.filterMap fun e => match e with
    | .network _ => some none
    | .observed keys observations => some (some (keys,observations))
    | _ => none).getLast?).join

theorem lastNetwork_network (d : List Event) (reply : Except String String) :
    lastNetwork (d ++ [.network reply]) = some reply := by
  simp [lastNetwork]

theorem lastNetwork_other (d : List Event) {e : Event} (h : ∀ reply, e ≠ .network reply) :
    lastNetwork (d ++ [e]) = lastNetwork d := by
  cases e with
  | network reply => exact absurd rfl (h reply)
  | _ => simp [lastNetwork]

theorem freshObserved_observed (d : List Event) (keys : List LedgerKey)
    (observations : List Observation) :
    freshObserved (d ++ [.observed keys observations]) = some (keys,observations) := by
  simp [freshObserved]

theorem freshObserved_other (d : List Event) {e : Event} (hnetwork : ∀ reply, e ≠ .network reply)
    (hobserved : ∀ keys observations, e ≠ .observed keys observations) :
    freshObserved (d ++ [e]) = freshObserved d := by
  cases e with
  | network reply => exact absurd rfl (hnetwork reply)
  | observed keys observations => exact absurd rfl (hobserved keys observations)
  | _ => simp [freshObserved]

/-- Nothing happens in a call once the session is closed. -/
theorem Exchange.not_closed {keeper : Keeper σ} {e : Event} {t : Stage} :
    ¬Exchange keeper .closed e t := by
  intro h
  cases h with
  | again _ plan rest hleaves => cases hleaves
  | simulate _ turn n built response hs hbuild herror => rcases hs with hs|hs <;> cases hs
  | unsimulated _ turn n built reply hs hbuild => rcases hs with hs|hs <;> cases hs

/-- Nor is the network asked for again. -/
theorem Exchange.not_network {keeper : Keeper σ} {s t : Stage} {reply : Except String String} :
    ¬Exchange keeper s (.network reply) t := by
  intro h
  cases h

/-- Whatever a session asks of its node but for its network, the node last named the configured
one. -/
theorem Session.guarded {keeper : Keeper σ} {d d' : List Event} {e : Event} {t : Stage}
    (h : Lts.Run (Session keeper) .closed (d ++ e::d') t) (hask : ∀ reply, e ≠ .network reply) :
    lastNetwork d = some (.ok keeper.config.networkPassphrase) := by
  obtain ⟨s,s',hrun,hstep⟩ := h.at
  have hinv : s ≠ .closed → lastNetwork d = some (.ok keeper.config.networkPassphrase) := by
    refine hrun.invariant (I := fun d s => s ≠ .closed →
      lastNetwork d = some (.ok keeper.config.networkPassphrase)) (fun hne => absurd rfl hne) ?_
    intro d s e t hI hstep hne
    cases hstep with
    | network keys hkeys => exact lastNetwork_network d _
    | foreign reply hother => exact absurd rfl hne
    | inside hinner =>
      rw [lastNetwork_other d fun reply heq => Exchange.not_network (heq ▸ hinner)]
      exact hI fun heq => Exchange.not_closed (heq ▸ hinner)
  cases hstep with
  | network keys hkeys => exact absurd rfl (hask _)
  | foreign reply hother => exact absurd rfl (hask reply)
  | inside hinner => exact hinv fun heq => Exchange.not_closed (heq ▸ hinner)

/-- In a run of any number of ticks every request that is not about the network, and every
submission, follows upon a reply in which the node named the configured network; a node that never
names it is asked for nothing else. -/
theorem runLoop_guarded (keeper : Keeper σ) (n : Nat) (w : World σ) (metrics : Metrics) :
    ∃ d, (runLoop keeper n w metrics).1.log = w.log ++ d ∧
      (∀ before e after, d = before ++ e::after → (∀ reply, e ≠ .network reply) →
        lastNetwork before = some (.ok keeper.config.networkPassphrase)) ∧
      (.network (.ok keeper.config.networkPassphrase) ∉ d →
        ∀ e ∈ d, ∃ reply, e = .network reply) := by
  obtain ⟨ds,_,hall,hd⟩ := runLoop_called keeper n w metrics
  obtain ⟨t,hrun⟩ := Called.flatten_goes hall .closed
  generalize ds.flatten = d at hd hrun
  have hguarded (before : List Event) (e : Event) (after : List Event)
      (hsplit : d = before ++ e::after) (hask : ∀ reply, e ≠ .network reply) :
      lastNetwork before = some (.ok keeper.config.networkPassphrase) := by
    subst hsplit
    exact Session.guarded hrun hask
  refine ⟨d,hd,hguarded,?_⟩
  intro hnever e he
  by_contra hask
  obtain ⟨before,after,rfl⟩ := List.append_of_mem he
  have hlast := hguarded before e after rfl (fun reply heq => hask ⟨reply,heq⟩)
  unfold lastNetwork at hlast
  have hmem := List.mem_of_getLast? hlast
  rw [List.mem_filterMap] at hmem
  obtain ⟨e',he',hreply⟩ := hmem
  cases e' with
  | network reply =>
    cases Option.some.inj hreply
    exact hnever (List.mem_append_left _ he')
  | _ => cases hreply

/-- The plans a stage may still submit. -/
def Stage.plans : Stage → List ArchivalPlan
  | .closed => []
  | .looking _ _ => []
  | .ready plans => plans
  | .entered turn => turn.plan::turn.rest
  | .numbered turn _ => turn.plan::turn.rest
  | .simulated turn _ _ => turn.plan::turn.rest
  | .failed turn => turn.plan::turn.rest

theorem Stage.Leaves.plans {s : Stage} {turn : Turn} (h : s.Leaves turn) :
    s.plans = turn.plan::turn.rest := by
  cases h <;> rfl

/-- The plan was made in this call, of what was observed in it. -/
def Planned (keeper : Keeper σ) (d : List Event) (plan : ArchivalPlan) : Prop :=
  ∃ keys observations plans d₀, freshObserved d = some (keys,observations) ∧
    resolveWatchKeys keeper.crates keeper.config = .ok keys ∧
    Prepared keeper keys observations plans d₀ ∧ plan ∈ plans

/-- Plans come from an observation, and are only ever taken off. -/
theorem Exchange.planned {keeper : Keeper σ} {s t : Stage} {e : Event} (h : Exchange keeper s e t)
    {d : List Event} (hs : ∀ plan ∈ s.plans, Planned keeper d plan) :
    ∀ plan ∈ t.plans, Planned keeper (d ++ [e]) plan := by
  have hkept (hnetwork : ∀ reply, e ≠ .network reply)
      (hobserved : ∀ keys observations, e ≠ .observed keys observations)
      (hsub : ∀ plan ∈ t.plans, plan ∈ s.plans) :
      ∀ plan ∈ t.plans, Planned keeper (d ++ [e]) plan := by
    intro plan hplan
    obtain ⟨keys,observations,plans,d₀,hfresh,hplanned⟩ := hs plan (hsub plan hplan)
    rw [← freshObserved_other d hnetwork hobserved] at hfresh
    exact ⟨keys,observations,plans,d₀,hfresh,hplanned⟩
  have hturn {s : Stage} {turn : Turn} {n : Int64} (hs : s = .entered turn ∨ s = .numbered turn n) :
      s.plans = turn.plan::turn.rest := by
    rcases hs with rfl|rfl <;> rfl
  cases h with
  | read => exact fun plan hplan => absurd hplan List.not_mem_nil
  | observed read keys observations plans hkeys hprep =>
    intro plan hplan
    exact ⟨keys,observations,plans,_,freshObserved_observed d keys observations,hkeys,hprep,hplan⟩
  | unplanned => exact fun plan hplan => absurd hplan List.not_mem_nil
  | submit plan rest => exact hkept (by simp) (by simp) fun _ hplan => hplan
  | again _ plan rest hleaves =>
    refine hkept (by simp) (by simp) ?_
    rw [hleaves.plans]
    exact fun _ hplan => hplan
  | account turn c => exact hkept (by simp) (by simp) fun _ hplan => hplan
  | unnumbered turn e => exact hkept (by simp) (by simp) fun _ hplan => hplan
  | simulate _ turn n built response hs hbuild herror =>
    refine hkept (by simp) (by simp) ?_
    rw [hturn hs]
    exact fun _ hplan => hplan
  | unsimulated _ turn n built reply hs hbuild =>
    refine hkept (by simp) (by simp) ?_
    rw [hturn hs]
    exact fun _ hplan => hplan
  | accepted turn built signed response hash hfinish =>
    exact hkept (by simp) (by simp) fun _ hplan => List.mem_cons_of_mem _ hplan
  | refused turn built signed response e hfinish =>
    exact hkept (by simp) (by simp) fun _ hplan => hplan

/-- At any point of a session the plans that may be submitted are those of its last look. -/
theorem Session.planned {keeper : Keeper σ} {d : List Event} {s : Stage}
    (h : Lts.Run (Session keeper) .closed d s) : ∀ plan ∈ s.plans, Planned keeper d plan := by
  refine h.invariant (I := fun d s => ∀ plan ∈ s.plans, Planned keeper d plan)
    (fun plan hplan => absurd hplan List.not_mem_nil) ?_
  intro d s e t hI hstep
  cases hstep with
  | network keys hkeys => exact fun plan hplan => absurd hplan List.not_mem_nil
  | foreign reply hother => exact fun plan hplan => absurd hplan List.not_mem_nil
  | inside hinner => exact hinner.planned hI

/-- A simulation that went well is the last thing that happened. -/
def Fresh (d : List Event) (s : Stage) : Prop :=
  ∀ turn built response, s = .simulated turn built response →
    ∃ d', d = d' ++ [.simulate built (.ok response)] ∧ response.error = none

theorem Session.fresh {keeper : Keeper σ} {d : List Event} {s : Stage}
    (h : Lts.Run (Session keeper) .closed d s) : Fresh d s := by
  refine h.invariant (I := Fresh) (fun turn built response hs => Stage.noConfusion hs) ?_
  intro d s e t _ hstep turn built response ht
  subst ht
  cases hstep with
  | inside hinner =>
    cases hinner with
    | simulate _ _ n _ _ hs hbuild herror => exact ⟨d,rfl,herror⟩

/-- What stands behind an envelope the daemon builds: one class of the endangered watch positions,
whole, to be extended to the configured target, on the payer's account; its keys are put on the side
of the footprint that is written. -/
structure Warranted (keeper : Keeper σ) (keys : List LedgerKey) (observations : List Observation)
    (built : TransactionEnvelope) : Prop where
  resolved : resolveWatchKeys keeper.crates keeper.config = .ok keys
  positions : observations.length = keys.length
  footprint : ∃ temporary, built.footprintKeys =
    endangeredClass keeper.config.riskWindow.alertHorizonLedgers.toNat keys observations temporary
  nonempty : 0 < built.footprintKeys.length
  fits : built.footprintKeys.length ≤ 100
  operation : ∃ inner, built = .tx inner ∧
    inner.tx.sourceAccount = .ed25519 (keeper.payer.publicBytes keeper.crates) ∧
    inner.tx.operations.val = [⟨none,.extendFootprintTtl
      ⟨.v0,keeper.config.riskWindow.extendToLedgers keeper.config.constants⟩⟩] ∧
    inner.signatures.val = []
  side : ∃ inner data, built = .tx inner ∧ inner.tx.ext = .v1 data ∧
    data.resources.footprint.readOnly.val = [] ∧
    data.resources.footprint.readWrite.val = built.footprintKeys

theorem Prepared.warranted {keeper : Keeper σ} {keys : List LedgerKey}
    {observations : List Observation} {plans : List ArchivalPlan} {d : List Event}
    (h : Prepared keeper keys observations plans d)
    (hkeys : resolveWatchKeys keeper.crates keeper.config = .ok keys) {plan : ArchivalPlan}
    (hplan : plan ∈ plans) {n : Int64} {built : TransactionEnvelope}
    (hbuild : buildFor keeper (cycleBuilder keeper) plan n = .ok built) :
    Warranted keeper keys observations built := by
  obtain ⟨_,_,hto,_,hkind⟩ := (Planner.planExtendSplit_ok h.planned).2 plan hplan
  obtain ⟨hpos,hle⟩ := TxBuilder.len_of_buildUnsigned hbuild
  have hlen : built.footprintKeys.length = plan.len := by
    rw [footprintKeys_of_buildFor hbuild,ArchivalPlan.length_footprint]
  constructor
  · exact hkeys
  · exact h.observed.length_eq.symm
  · exact h.class_of_built hplan hbuild
  · rw [hlen]
    exact hpos
  · rw [hlen]
    exact hle
  · obtain ⟨body,_,inner,rfl,hbuilt⟩ := TxBuilder.buildUnsigned_ok hbuild
    obtain ⟨first,rest,hentries⟩ := List.exists_cons_of_length_pos hpos
    have hfirst : first.kind = .extend := hkind first (by rw [hentries]; exact List.mem_cons_self)
    have hchosen := hbuilt.chosen.symm.trans (TxBuilder.operationBody_head hentries)
    have hbody : body = plan.operation first.kind := Except.ok.inj hchosen
    rw [hfirst] at hbody
    refine ⟨inner,rfl,hbuilt.source,?_,hbuilt.unsigned⟩
    rw [hbuilt.operations,hbody,ArchivalPlan.operation,hto]
    rfl
  · obtain ⟨_,data,inner,rfl,hbuilt⟩ := TxBuilder.buildUnsigned_ok hbuild
    refine ⟨inner,data,rfl,hbuilt.ext,hbuilt.readOnly,?_⟩
    rw [footprintKeys_of_buildFor hbuild]
    exact hbuilt.readWrite

/-- What is simulated in a session is warranted by its last look. -/
theorem Session.warranted {keeper : Keeper σ} {before after : List Event}
    {built : TransactionEnvelope} {reply : Except String SimulateResponse} {t : Stage}
    (h : Lts.Run (Session keeper) .closed (before ++ .simulate built reply::after) t) :
    ∃ keys observations, freshObserved before = some (keys,observations) ∧
      Warranted keeper keys observations built := by
  obtain ⟨s,s',hbefore,hstep⟩ := h.at
  have hbuilt : ∃ plan ∈ s.plans, ∃ n,
      buildFor keeper (cycleBuilder keeper) plan n = .ok built := by
    cases hstep with
    | inside hinner =>
      cases hinner with
      | simulate _ turn n _ _ hs hbuild _ =>
        rcases hs with rfl|rfl
        · exact ⟨turn.plan,List.mem_cons_self,n,hbuild⟩
        · exact ⟨turn.plan,List.mem_cons_self,n,hbuild⟩
      | unsimulated _ turn n _ _ hs hbuild =>
        rcases hs with rfl|rfl
        · exact ⟨turn.plan,List.mem_cons_self,n,hbuild⟩
        · exact ⟨turn.plan,List.mem_cons_self,n,hbuild⟩
  obtain ⟨plan,hplan,n,hbuild⟩ := hbuilt
  obtain ⟨keys,observations,plans,_,hfresh,hkeys,hprep,hmem⟩ := Session.planned hbefore plan hplan
  exact ⟨keys,observations,hfresh,hprep.warranted hkeys hmem hbuild⟩

/-- What is sent in a session is what was just simulated, finished. -/
theorem Session.finished {keeper : Keeper σ} {before after : List Event} {s : Submission}
    {t : Stage} (h : Lts.Run (Session keeper) .closed (before ++ .send s::after) t) :
    ∃ d response, before = d ++ [.simulate s.built (.ok response)] ∧ response.error = none ∧
      finish keeper (cycleBuilder keeper) s.built response = .ok s.signed := by
  obtain ⟨u,u',hbefore,hstep⟩ := h.at
  cases hstep with
  | inside hinner =>
    cases hinner with
    | accepted turn built signed response hash hfinish =>
      obtain ⟨d,hd,herror⟩ := Session.fresh hbefore turn built response rfl
      exact ⟨d,response,hd,herror,hfinish⟩
    | refused turn built signed response e hfinish =>
      obtain ⟨d,hd,herror⟩ := Session.fresh hbefore turn built response rfl
      exact ⟨d,response,hd,herror,hfinish⟩

/-- In a run of any number of ticks every envelope that is simulated is warranted by what was
observed since the network was last asked for, and every envelope that is sent is the one just
simulated, as its reply has it finished. -/
theorem runLoop_warranted (keeper : Keeper σ) (n : Nat) (w : World σ) (metrics : Metrics) :
    ∃ d, (runLoop keeper n w metrics).1.log = w.log ++ d ∧
      (∀ before built reply after, d = before ++ .simulate built reply::after →
        ∃ keys observations, freshObserved before = some (keys,observations) ∧
          Warranted keeper keys observations built) ∧
      ∀ before s after, d = before ++ .send s::after →
        ∃ d' response, before = d' ++ [.simulate s.built (.ok response)] ∧
          response.error = none ∧
          finish keeper (cycleBuilder keeper) s.built response = .ok s.signed := by
  obtain ⟨ds,_,hall,hd⟩ := runLoop_called keeper n w metrics
  obtain ⟨t,hrun⟩ := Called.flatten_goes hall .closed
  refine ⟨ds.flatten,hd,?_,?_⟩
  · intro before built reply after hsplit
    rw [hsplit] at hrun
    exact Session.warranted hrun
  · intro before s after hsplit
    rw [hsplit] at hrun
    exact Session.finished hrun

end SorobanRentKeeper

import SorobanRentKeeper.Daemon.Counters
import SorobanRentKeeper.Framework.Lts

namespace SorobanRentKeeper

open Program

variable {σ : Type}

/-- A plan being submitted, the plans after it, and whether this is its second try. -/
structure Turn where
  plan : ArchivalPlan
  rest : List ArchivalPlan
  again : Bool

/-- Where the daemon stands with the node. -/
inductive Stage where
  /-- Nothing may be asked but which network this is. -/
  | closed
  /-- The node is on the right network; these chunks of the watch list are still to be read. -/
  | looking (read : List Event) (chunks : List (List LedgerKey))
  /-- These plans are still to be submitted. -/
  | ready (plans : List ArchivalPlan)
  | entered (turn : Turn)
  /-- The account was asked, and the next number is `n`. -/
  | numbered (turn : Turn) (n : Int64)
  | simulated (turn : Turn) (built : TransactionEnvelope) (response : SimulateResponse)
  | failed (turn : Turn)

inductive Stage.Leaves : Stage → Turn → Prop where
  | entered (turn : Turn) : Leaves (.entered turn) turn
  | numbered (turn : Turn) (n : Int64) : Leaves (.numbered turn n) turn
  | simulated (turn : Turn) (built : TransactionEnvelope) (response : SimulateResponse) :
      Leaves (.simulated turn built response) turn
  | failed (turn : Turn) : Leaves (.failed turn) turn

/-- What one call of `run_cycle` does on a node of the right network: it reads every chunk of the
watch list, then submits each plan in turn, twice at most; a plan takes its number, is simulated,
and is sent as the simulation left it. -/
inductive Exchange (keeper : Keeper σ) : Stage → Event → Stage → Prop where
  | read (read : List Event) (chunk : List LedgerKey) (chunks : List (List LedgerKey))
      (reply : Except String GetLedgerEntriesResponse) :
      Exchange keeper (.looking read (chunk::chunks)) (.ledgerEntries chunk reply)
        (.looking (read ++ [.ledgerEntries chunk reply]) chunks)
  | observed (read : List Event) (keys : List LedgerKey) (observations : List Observation)
      (plans : List ArchivalPlan)
      (hkeys : resolveWatchKeys keeper.crates keeper.config = .ok keys)
      (hprep : Prepared keeper keys observations plans (read ++ [.observed keys observations])) :
      Exchange keeper (.looking read []) (.observed keys observations) (.ready plans)
  | unplanned (read : List Event) (keys : List LedgerKey) (observations : List Observation)
      (hkeys : resolveWatchKeys keeper.crates keeper.config = .ok keys) :
      Exchange keeper (.looking read []) (.observed keys observations) .closed
  | submit (plan : ArchivalPlan) (rest : List ArchivalPlan) :
      Exchange keeper (.ready (plan::rest)) (.submitPlan plan) (.entered ⟨plan,rest,false⟩)
  | again (s : Stage) (plan : ArchivalPlan) (rest : List ArchivalPlan)
      (hleaves : s.Leaves ⟨plan,rest,false⟩) :
      Exchange keeper s (.submitPlan plan) (.entered ⟨plan,rest,true⟩)
  | account (turn : Turn) (c : Int64) :
      Exchange keeper (.entered turn) (.account (.ok c)) (.numbered turn (c + 1))
  | unnumbered (turn : Turn) (e : String) :
      Exchange keeper (.entered turn) (.account (.error e)) (.failed turn)
  | simulate (s : Stage) (turn : Turn) (n : Int64) (built : TransactionEnvelope)
      (response : SimulateResponse) (hs : s = .entered turn ∨ s = .numbered turn n)
      (hbuild : buildFor keeper (cycleBuilder keeper) turn.plan n = .ok built)
      (herror : response.error = none) :
      Exchange keeper s (.simulate built (.ok response)) (.simulated turn built response)
  | unsimulated (s : Stage) (turn : Turn) (n : Int64) (built : TransactionEnvelope)
      (reply : Except String SimulateResponse) (hs : s = .entered turn ∨ s = .numbered turn n)
      (hbuild : buildFor keeper (cycleBuilder keeper) turn.plan n = .ok built) :
      Exchange keeper s (.simulate built reply) (.failed turn)
  | accepted (turn : Turn) (built signed : TransactionEnvelope) (response : SimulateResponse)
      (hash : Bytes32)
      (hfinish : finish keeper (cycleBuilder keeper) built response = .ok signed) :
      Exchange keeper (.simulated turn built response) (.send ⟨built,signed,.ok hash⟩)
        (.ready turn.rest)
  | refused (turn : Turn) (built signed : TransactionEnvelope) (response : SimulateResponse)
      (e : String) (hfinish : finish keeper (cycleBuilder keeper) built response = .ok signed) :
      Exchange keeper (.simulated turn built response) (.send ⟨built,signed,.error e⟩)
        (.failed turn)

/-- The protocol the daemon follows with its node: a call may begin at any point, and first asks
which network this is. -/
inductive Session (keeper : Keeper σ) : Stage → Event → Stage → Prop where
  | network {s : Stage} (keys : List LedgerKey)
      (hkeys : resolveWatchKeys keeper.crates keeper.config = .ok keys) :
      Session keeper s (.network (.ok keeper.config.networkPassphrase))
        (.looking [] (keys.toChunks Provider.observeBatchEntries))
  | foreign {s : Stage} (reply : Except String String)
      (hother : reply ≠ .ok keeper.config.networkPassphrase) :
      Session keeper s (.network reply) .closed
  | inside {s t : Stage} {e : Event} (h : Exchange keeper s e t) : Session keeper s e t

section Submit

variable {keeper : Keeper σ} {plan : ArchivalPlan} {w t : World σ}

theorem Numbered.goes {n : Int64} {d : List Event} (h : Numbered keeper w n d t) (turn : Turn) :
    ∃ s, Lts.Run (Exchange keeper) (.entered turn) d s ∧
      (s = .entered turn ∨ s = .numbered turn n) := by
  cases h with
  | cached c _ _ _ _ => exact ⟨_,.nil _,.inl rfl⟩
  | fetched c _ _ _ _ => exact ⟨_,.single (.account turn c),.inr rfl⟩

/-- How a try ends: the turn is over, or it may be left for a second try. -/
def TurnEnds (turn : Turn) (r : Except KeeperError SubmissionOutcome) (s : Stage) : Prop :=
  match r with
  | .ok _ => s = .ready turn.rest
  | .error _ => s.Leaves turn

theorem Tail.goes {n : Int64} {r : Except KeeperError SubmissionOutcome} {tail : List Event}
    {turn : Turn} {s : Stage} (h : Tail keeper (cycleBuilder keeper) turn.plan n r tail)
    (hs : s = .entered turn ∨ s = .numbered turn n) :
    ∃ s', Lts.Run (Exchange keeper) s tail s' ∧ TurnEnds turn r s' := by
  cases h with
  | unbuilt err e hbuild =>
    refine ⟨s,.nil s,?_⟩
    rcases hs with rfl|rfl
    · exact .entered turn
    · exact .numbered turn n
  | unsent err built reply hbuild =>
    exact ⟨_,.single (.unsimulated s turn n built reply hs hbuild),.failed turn⟩
  | refused built signed response e hbuild herror hfinish =>
    exact ⟨_,.cons (.simulate s turn n built response hs hbuild herror)
      (.single (.refused turn built signed response e hfinish)),.failed turn⟩
  | accepted built signed response hash hbuild herror hfinish =>
    exact ⟨_,.cons (.simulate s turn n built response hs hbuild herror)
      (.single (.accepted turn built signed response hash hfinish)),rfl⟩

theorem Submit.goes {r : Except KeeperError SubmissionOutcome} {d : List Event}
    (h : Submit keeper (cycleBuilder keeper) plan w r d t) :
    ∃ d', d = .submitPlan plan::d' ∧ ∀ turn : Turn, turn.plan = plan →
      ∃ s, Lts.Run (Exchange keeper) (.entered turn) d' s ∧ TurnEnds turn r s := by
  rcases h.logged with ⟨_,e,rfl,rfl⟩|⟨n,dn,u,tail,hn,_,rfl,htail⟩
  · refine ⟨_,rfl,?_⟩
    intro turn _
    exact ⟨_,.single (.unnumbered turn e),.failed turn⟩
  · refine ⟨dn ++ tail,rfl,?_⟩
    intro turn hplan
    subst hplan
    obtain ⟨s,hfirst,hs⟩ := hn.goes turn
    obtain ⟨s',hlast,hends⟩ := htail.goes hs
    exact ⟨s',hfirst.append hlast,hends⟩

theorem Step.goes {r : Option KeeperError} {d : List Event}
    (h : Step keeper (cycleBuilder keeper) plan w r d t) (rest : List ArchivalPlan) :
    ∃ s, Lts.Run (Exchange keeper) (.ready (plan::rest)) d s ∧ (r = none → s = .ready rest) := by
  have htwice {err : KeeperError} {r' : Except KeeperError SubmissionOutcome} {d d' : List Event}
      {u : World σ} (h : Submit keeper (cycleBuilder keeper) plan w (.error err) d u)
      (h' : Submit keeper (cycleBuilder keeper) plan { u with sequence := none } r' d' t) :
      ∃ s, Lts.Run (Exchange keeper) (.ready (plan::rest)) (d ++ d') s ∧
        TurnEnds ⟨plan,rest,true⟩ r' s := by
    obtain ⟨d₁,rfl,hfirst⟩ := h.goes
    obtain ⟨s,hgoes,hleaves⟩ := hfirst ⟨plan,rest,false⟩ rfl
    obtain ⟨d₂,rfl,hsecond⟩ := h'.goes
    obtain ⟨s',hgoes',hends⟩ := hsecond ⟨plan,rest,true⟩ rfl
    have hagain : Exchange keeper s (.submitPlan plan) (.entered ⟨plan,rest,true⟩) :=
      .again s plan rest hleaves
    exact ⟨s',.cons (.submit plan rest) (hgoes.append (.cons hagain hgoes')),hends⟩
  cases h with
  | accepted _ _ h =>
    obtain ⟨d',rfl,hturn⟩ := h.goes
    obtain ⟨s,hgoes,hends⟩ := hturn ⟨plan,rest,false⟩ rfl
    exact ⟨s,.cons (.submit plan rest) hgoes,fun _ => hends⟩
  | failed err _ _ h hbad =>
    obtain ⟨d',rfl,hturn⟩ := h.goes
    obtain ⟨s,hgoes,_⟩ := hturn ⟨plan,rest,false⟩ rfl
    exact ⟨s,.cons (.submit plan rest) hgoes,fun hnone => by cases hnone⟩
  | healed err d d' u _ h hbad h' =>
    obtain ⟨s,hgoes,hends⟩ := htwice h h'
    exact ⟨s,hgoes,fun _ => hends⟩
  | failedTwice err err' d d' u _ h hbad h' =>
    obtain ⟨s,hgoes,_⟩ := htwice h h'
    exact ⟨s,hgoes,fun hnone => by cases hnone⟩

theorem Serves.goes {done : List ArchivalPlan} {d : List Event}
    (h : Serves keeper (cycleBuilder keeper) w done d t) (rest : List ArchivalPlan) :
    Lts.Run (Exchange keeper) (.ready (done ++ rest)) d (.ready rest) := by
  induction h generalizing rest with
  | nil => exact .nil _
  | snoc done plan d d' t u _ hstep ih =>
    obtain ⟨s,hgoes,hs⟩ := hstep.goes rest
    rw [hs rfl] at hgoes
    rw [List.append_assoc]
    exact (ih ([plan] ++ rest)).append hgoes

end Submit

section Look

variable (keeper : Keeper σ) (keys : List LedgerKey) (w : World σ)

theorem observeChunk_asks (chunk : List LedgerKey) :
    Traced World.log (Provider.observeChunk keeper.crates keeper.node chunk) w
      (fun _ d _ => ∃ reply, d = [.ledgerEntries chunk reply])
      (fun _ d _ => ∃ reply, d = [.ledgerEntries chunk reply]) := by
  unfold Provider.observeChunk
  refine Traced.bind (call_traced _ _ _ w) ?_ ?_
  · intro response d t h
    obtain ⟨_,_,rfl⟩ := h
    refine traced_ofExcept ?_ ?_
    · intro out _
      exact ⟨.ok response,List.append_nil _⟩
    · intro err _
      exact ⟨.ok response,List.append_nil _⟩
  · intro err d t h
    obtain ⟨e,_,_,rfl,_⟩ := h
    exact ⟨.error e,rfl⟩

/-- The chunks are asked for in order, up to the first that cannot be read. -/
theorem observeEntries_goes :
    Traced World.log (Provider.observeEntries keeper.crates keeper.node keys) w
      (fun _ d _ => Lts.Run (Exchange keeper)
        (.looking [] (keys.toChunks Provider.observeBatchEntries)) d (.looking d []))
      (fun _ d _ => ∃ s, Lts.Run (Exchange keeper)
        (.looking [] (keys.toChunks Provider.observeBatchEntries)) d s) := by
  unfold Provider.observeEntries
  generalize keys.toChunks Provider.observeBatchEntries = chunks
  refine Traced.mono (Traced.foldlM
    (I := fun done _ d _ => ∀ rest, chunks = done ++ rest →
      Lts.Run (Exchange keeper) (.looking [] chunks) d (.looking d rest))
    (E := fun _ d _ => ∃ s, Lts.Run (Exchange keeper) (.looking [] chunks) d s)
    chunks [] w ?_ ?_) ?_ (fun _ _ _ h => h)
  · intro rest hrest
    subst hrest
    exact .nil _
  · intro done chunk rest out d t hchunks hI
    have hread := hI _ hchunks
    refine Traced.bind (observeChunk_asks keeper t chunk) ?_ ?_
    · intro chunkOut d' u h
      obtain ⟨reply,rfl⟩ := h
      apply traced_pure
      rw [List.append_nil]
      intro rest' hrest'
      rw [hchunks,List.append_assoc,List.append_cancel_left_eq] at hrest'
      cases hrest'
      exact hread.append (.single (.read d chunk rest' reply))
    · intro err d' u h
      obtain ⟨reply,rfl⟩ := h
      exact ⟨_,hread.append (.single (.read d chunk rest reply))⟩
  · intro out d t hI
    exact hI [] (List.append_nil chunks).symm

/-- What a call of `run_cycle` logs: nothing, or one look at the network, and where this is the
right one an exchange. -/
inductive Called (keeper : Keeper σ) : List Event → Prop where
  | unresolved : Called keeper []
  | foreign (s : σ) (reply : Except String String) (hreply : (keeper.node.getNetwork s).1 = reply)
      (hother : reply ≠ .ok keeper.config.networkPassphrase) : Called keeper [.network reply]
  | exchange (s : σ) (keys : List LedgerKey) (d : List Event) (t : Stage)
      (hreply : (keeper.node.getNetwork s).1 = .ok keeper.config.networkPassphrase)
      (hkeys : resolveWatchKeys keeper.crates keeper.config = .ok keys)
      (hrun : Lts.Run (Exchange keeper)
        (.looking [] (keys.toChunks Provider.observeBatchEntries)) d t) :
      Called keeper (.network (.ok keeper.config.networkPassphrase)::d)

theorem observeAndPlan_called (hkeys : resolveWatchKeys keeper.crates keeper.config = .ok keys) :
    Traced World.log (observeAndPlan keeper keys) w
      (fun r d _ => ∃ observations d', r.1 = referenceLedger observations ∧
        (keeper.node.getNetwork w.node).1 = .ok keeper.config.networkPassphrase ∧
        d = .network (.ok keeper.config.networkPassphrase)::d' ∧ Lts.Run (Exchange keeper)
          (.looking [] (keys.toChunks Provider.observeBatchEntries)) d' (.ready r.2))
      (fun _ d _ => Called keeper d) := by
  unfold observeAndPlan
  split
  · exact traced_throw .unresolved
  · next hne =>
    refine Traced.bind (Traced.adaptExcept _ (call_traced _ _ _ w)) ?_ ?_
    · intro actualNetwork d₁ t₁ h₁
      obtain ⟨hanswer,_,rfl⟩ := h₁
      have hreply : (keeper.node.getNetwork w.node).1 = .ok actualNetwork := by rw [hanswer]
      split
      · next hmismatch =>
        refine traced_throw (.foreign w.node _ hreply ?_)
        intro hsame
        exact hmismatch (Except.ok.inj hsame)
      · next hmatch =>
        rw [not_not] at hmatch
        subst hmatch
        refine Traced.bind (Traced.adaptExcept _ ((Provider.observeEntries_traced keeper.crates
          keeper.node keys t₁).and (observeEntries_goes keeper keys t₁))) ?_ ?_
        · intro observations d₂ t₂ h₂
          obtain ⟨⟨_,hreads,hobserved⟩,hlook⟩ := h₂
          obtain ⟨hquiet,hunread⟩ := quiet_of_onlyReads hreads
          refine Traced.bind (record_traced _ t₂) ?_ (fun _ _ _ h => h.elim)
          intro _ d₃ t₃ h₃
          obtain ⟨rfl,_,_⟩ := h₃
          refine traced_ofExcept_bind ?_ ?_
          · intro plans hmap
            have hprep : Prepared keeper keys observations plans
                (d₂ ++ [.observed keys observations]) := by
              constructor
              · exact hquiet.append ⟨rfl,rfl,rfl⟩
              · simpa using hne
              · rw [observedIn_append,hunread]
                rfl
              · exact hobserved.imp fun _ _ h => h.append_left _
              · exact mapError_eq_ok hmap
            apply traced_pure
            rw [List.append_nil]
            exact ⟨observations,_,rfl,hreply,rfl,
              hlook.append (.single (.observed d₂ keys observations plans hkeys hprep))⟩
          · intro err _
            rw [List.append_nil]
            exact .exchange w.node keys _ .closed hreply hkeys
              (hlook.append (.single (.unplanned d₂ keys observations hkeys)))
        · intro err d₂ t₂ h₂
          obtain ⟨_,⟨_,t,hlook⟩,_⟩ := h₂
          exact .exchange w.node keys d₂ t hreply hkeys hlook
    · intro err d₁ t₁ h₁
      obtain ⟨_,⟨e,hanswer,_,rfl,_⟩,_⟩ := h₁
      refine .foreign w.node _ (by rw [hanswer]) ?_
      intro hsame
      cases hsame

theorem runCycle_called : Traced World.log (runCycle keeper) w (fun _ d _ => Called keeper d)
    (fun _ d _ => Called keeper d) := by
  unfold runCycle
  refine traced_ofExcept_bind ?_ (fun _ _ => .unresolved)
  intro keys hkeys
  have hbody : Traced World.log
      (observeAndPlan keeper keys >>= fun r => submitCycle keeper r.1 r.2) w
      (fun _ d _ => Called keeper d) (fun _ d _ => Called keeper d) := by
    refine Traced.bind (observeAndPlan_called keeper keys w hkeys) ?_ (fun _ _ _ h => h)
    intro r d t h
    obtain ⟨observations,d',hledger,hreply,rfl,hlook⟩ := h
    rw [hledger]
    refine Traced.mono (submitCycle_traced keeper observations r.2 t) ?_ ?_
    · intro report d'' u h
      have hserved := h.2.goes []
      rw [List.append_nil] at hserved
      exact .exchange w.node keys _ _ hreply hkeys (hlook.append hserved)
    · intro err d'' u h
      obtain ⟨done,plan,rest,d₁,d₂,v,hplans,hserves,hstep,rfl⟩ := h
      have hserved := hserves.goes (plan::rest)
      rw [← hplans] at hserved
      obtain ⟨s,hlast,_⟩ := hstep.goes rest
      exact .exchange w.node keys _ s hreply hkeys (hlook.append (hserved.append hlast))
  refine Traced.mono (Traced.adaptExcept Fault.failed hbody) (fun _ _ _ h => h) ?_
  intro fault d t h
  obtain ⟨_,h,_⟩ := h
  exact h

theorem runCycle_log : ∃ d, (final (runCycle keeper w)).log = w.log ++ d ∧ Called keeper d := by
  obtain ⟨d,hd,hrun⟩ := (runCycle_called keeper w).cases
  rcases hrun with ⟨_,_,_,hcalled⟩|⟨_,_,_,hcalled⟩
  · exact ⟨d,hd,hcalled⟩
  · exact ⟨d,hd,hcalled⟩

end Look

section Runs

variable {keeper : Keeper σ}

/-- Only the first event of a call is about the network, so a session goes on with it from any
stage. -/
theorem Called.goes {d : List Event} (h : Called keeper d) (s : Stage) :
    ∃ t, Lts.Run (Session keeper) s d t := by
  cases h with
  | unresolved => exact ⟨s,.nil s⟩
  | foreign _ reply _ hother => exact ⟨_,.single (.foreign reply hother)⟩
  | exchange _ keys d t _ hkeys hrun =>
    exact ⟨t,.cons (.network keys hkeys) (hrun.mono fun _ _ _ h => .inside h)⟩

theorem attempts_called (keeper : Keeper σ) (left : Nat) (w : World σ) (metrics : Metrics) :
    ∃ ds : List (List Event), ds.length ≤ left ∧ (∀ d ∈ ds, Called keeper d) ∧
      (attempts keeper left w metrics).1.log = w.log ++ ds.flatten := by
  induction left generalizing w with
  | zero => exact ⟨[],Nat.le_refl 0,by simp,(List.append_nil _).symm⟩
  | succ left ih =>
    obtain ⟨d,hd,hcalled⟩ := runCycle_log keeper w
    have hlast : ∃ ds : List (List Event), ds.length ≤ left + 1 ∧ (∀ d ∈ ds, Called keeper d) ∧
        (final (runCycle keeper w)).log = w.log ++ ds.flatten := by
      refine ⟨[d],by simp,?_,by simpa using hd⟩
      intro d' hd'
      rw [List.mem_singleton.mp hd']
      exact hcalled
    unfold attempts
    cases hrun : runCycle keeper w with
    | ok report t =>
      rw [hrun] at hlast
      exact hlast
    | error fault t =>
      rw [hrun] at hd hlast
      cases fault with
      | panicked => exact hlast
      | failed err =>
        simp only
        split
        · exact hlast
        · obtain ⟨ds,hlen,hall,hlog⟩ := ih t
          refine ⟨d::ds,Nat.succ_le_succ hlen,?_,?_⟩
          · intro d' hd'
            rcases List.mem_cons.mp hd' with rfl|hd'
            · exact hcalled
            · exact hall d' hd'
          · rw [hlog,show t.log = w.log ++ d from hd,List.flatten_cons,List.append_assoc]

theorem runLoop_called (keeper : Keeper σ) (n : Nat) (w : World σ) (metrics : Metrics) :
    ∃ ds : List (List Event), ds.length ≤ retryAttempts * n ∧ (∀ d ∈ ds, Called keeper d) ∧
      (runLoop keeper n w metrics).1.log = w.log ++ ds.flatten := by
  induction n with
  | zero => exact ⟨[],Nat.zero_le _,by simp,(List.append_nil _).symm⟩
  | succ n ih =>
    obtain ⟨ds,hlen,hall,hlog⟩ := ih
    rw [runLoop_succ]
    generalize runLoop keeper n w metrics = r at hlog ⊢
    obtain ⟨u,ended⟩ := r
    cases ended with
    | none => exact ⟨ds,Nat.le_trans hlen (Nat.mul_le_mul_left _ (Nat.le_succ n)),hall,hlog⟩
    | some metrics =>
      obtain ⟨ds',hlen',hall',hlog'⟩ := attempts_called keeper retryAttempts u metrics
      refine ⟨ds ++ ds',?_,?_,?_⟩
      · rw [List.length_append,Nat.mul_succ]
        exact Nat.add_le_add hlen hlen'
      · intro d hd
        exact (List.mem_append.mp hd).elim (hall d) (hall' d)
      · simp only [tick]
        rw [hlog',show u.log = w.log ++ ds.flatten from hlog,List.flatten_append,List.append_assoc]

theorem runLoop_running {keys : List LedgerKey}
    (h : resolveWatchKeys keeper.crates keeper.config = .ok keys) (n : Nat) (w : World σ)
    (metrics : Metrics) : ∃ metrics', (runLoop keeper n w metrics).2 = some metrics' := by
  induction n with
  | zero => exact ⟨metrics,rfl⟩
  | succ n ih =>
    obtain ⟨before,hprev⟩ := ih
    rw [runLoop_succ]
    generalize runLoop keeper n w metrics = r at hprev ⊢
    obtain ⟨u,ended⟩ := r
    cases hprev
    rw [← Option.isSome_iff_exists,← Option.ne_none_iff_isSome]
    intro hnone
    rw [unresolved_of_attempts hnone] at h
    cases h

theorem Called.flatten_goes {ds : List (List Event)} (h : ∀ d ∈ ds, Called keeper d) (s : Stage) :
    ∃ t, Lts.Run (Session keeper) s ds.flatten t := by
  induction ds generalizing s with
  | nil => exact ⟨s,.nil s⟩
  | cons d ds ih =>
    obtain ⟨t,hfirst⟩ := (h d List.mem_cons_self).goes s
    obtain ⟨u,hlast⟩ := ih (fun d' hd' => h d' (List.mem_cons_of_mem _ hd')) t
    exact ⟨u,hfirst.append hlast⟩

end Runs

/-- The daemon follows the protocol: whatever the node answers, the log of a run of any number of
ticks is a run of a session that starts out closed. -/
theorem runLoop_session (keeper : Keeper σ) (n : Nat) (w : World σ) (metrics : Metrics) :
    ∃ d t, (runLoop keeper n w metrics).1.log = w.log ++ d ∧
      Lts.Run (Session keeper) .closed d t := by
  obtain ⟨ds,_,hall,hlog⟩ := runLoop_called keeper n w metrics
  obtain ⟨t,hrun⟩ := Called.flatten_goes hall .closed
  exact ⟨ds.flatten,t,hlog,hrun⟩

end SorobanRentKeeper

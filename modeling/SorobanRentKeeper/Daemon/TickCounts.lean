import SorobanRentKeeper.Daemon.Counters

namespace SorobanRentKeeper

open Program

variable {σ : Type}

/-- The world of the last call of the retry loop. -/
def lastCall (keeper : Keeper σ) : Nat → World σ → World σ
  | 0,w => w
  | left+1,w =>
    match runCycle keeper w with
    | .error (.failed err) t => if left = 0 ∨ !isTransient err then w else lastCall keeper left t
    | _ => w

/-- What a tick makes of the way its last call ended. -/
def tickEnd (metrics : Metrics) :
    EStateM.Result (Fault KeeperError) (World σ) CycleReport → World σ × Option Metrics
  | .ok report t => (t,some (metrics.cycleComplete report))
  | .error .panicked t => (t,none)
  | .error (.failed err) t => (t,some (metrics.cycleFailed err))

theorem attempts_eq_tickEnd (keeper : Keeper σ) (left : Nat) (w : World σ) (metrics : Metrics) :
    attempts keeper (left + 1) w metrics =
      tickEnd metrics (runCycle keeper (lastCall keeper (left + 1) w)) := by
  induction left generalizing w with
  | zero =>
    have hlast : lastCall keeper 1 w = w := by
      unfold lastCall
      cases runCycle keeper w with
      | ok report t => rfl
      | error fault t => cases fault <;> rfl
    rw [hlast]
    unfold attempts
    cases runCycle keeper w with
    | ok report t => rfl
    | error fault t => cases fault <;> rfl
  | succ left ih =>
    unfold attempts lastCall
    cases hrun : runCycle keeper w with
    | ok report t => simp only [hrun,tickEnd]
    | error fault t =>
      cases fault with
      | panicked => simp only [hrun,tickEnd]
      | failed err =>
        simp only
        split
        · simp only [hrun,tickEnd]
        · exact ih t

/-- The last call starts from what the earlier ones of the tick logged. -/
theorem lastCall_log (keeper : Keeper σ) (left : Nat) (w : World σ) :
    ∃ d, (lastCall keeper left w).log = w.log ++ d := by
  induction left generalizing w with
  | zero => exact ⟨[],(List.append_nil _).symm⟩
  | succ left ih =>
    unfold lastCall
    cases hrun : runCycle keeper w with
    | ok report t => exact ⟨[],(List.append_nil _).symm⟩
    | error fault t =>
      cases fault with
      | panicked => exact ⟨[],(List.append_nil _).symm⟩
      | failed err =>
        simp only
        split
        · exact ⟨[],(List.append_nil _).symm⟩
        · obtain ⟨d,hd,_⟩ := (runCycle_traced keeper w).error hrun
          obtain ⟨d',hd'⟩ := ih t
          exact ⟨d ++ d',by rw [hd',hd,List.append_assoc]⟩

/-- The node refused a transaction. -/
def Refused (d : List Event) : Prop := ∃ s ∈ sends d, s.accepted = false

/-- The counters say of a tick what they mean: a cycle that ends well adds as many accepted
transactions as its report has, all of them accepted by the node, and a rejection is counted only
where the node refused a transaction. -/
structure CountsTick (keeper : Keeper σ) (w : World σ) (metrics : Metrics) : Prop where
  accepted : ∀ report t metrics', runCycle keeper (lastCall keeper retryAttempts w) = .ok report t →
    (tick keeper w metrics).2 = some metrics' →
    metrics'.extendsAccepted = metrics.extendsAccepted + UInt64.ofNat report.transactions ∧
    (accepted (appended (lastCall keeper retryAttempts w) t)).length = report.transactions
  rejected : ∀ metrics', (tick keeper w metrics).2 = some metrics' →
    metrics'.extendsRejected ≠ metrics.extendsRejected →
    Refused (appended w (tick keeper w metrics).1)

/-- Every position in danger belongs to one durability class. -/
def OneClass (keeper : Keeper σ) (d : List Event) : Prop :=
  ∀ keys observations, (keys,observations) ∈ observedIn d → ∃ temporary,
    endangeredClass keeper.config.riskWindow.alertHorizonLedgers.toNat keys observations
      temporary = []

/-- The last call of a tick puts the entries in danger in one plan at most if it ends well; if it
fails, either the node answered all of its exchanges but a send, or it answered a send of the tick
with an error. -/
structure FairTick (keeper : Keeper σ) (w : World σ) : Prop where
  oneClass : ∀ report t, runCycle keeper (lastCall keeper retryAttempts w) = .ok report t →
    OneClass keeper (appended (lastCall keeper retryAttempts w) t)
  answered : ∀ fault t, runCycle keeper (lastCall keeper retryAttempts w) = .error fault t →
    (∀ e ∈ appended (lastCall keeper retryAttempts w) t, ¬Unanswered keeper e) ∨
      ∃ built signed e, .send ⟨built,signed,.error e⟩ ∈ appended w t

theorem refused_iff {d : List Event} :
    Refused d ↔ ∃ built signed e, .send ⟨built,signed,.error e⟩ ∈ d := by
  constructor
  · intro h
    obtain ⟨⟨built,signed,reply⟩,hs,hrefused⟩ := h
    cases reply with
    | ok hash => cases hrefused
    | error e => exact ⟨built,signed,e,mem_sends.mp hs⟩
  · intro h
    obtain ⟨built,signed,e,hsend⟩ := h
    exact ⟨_,mem_sends.mpr hsend,rfl⟩

/-- A call of `submit_plan` that ends in an RPC error had an exchange unanswered, or a transaction
refused. -/
theorem Submit.rpc {keeper : Keeper σ} {builder : TxBuilder} {plan : ArchivalPlan}
    {w t : World σ} {text : String} {d : List Event}
    (h : Submit keeper builder plan w (.error (.rpc text)) d t) :
    (∃ e ∈ d, Unanswered keeper e) ∨ Refused d := by
  generalize hr : (Except.error (.rpc text) : Except KeeperError SubmissionOutcome) = r at h
  cases h with
  | unnumbered e _ hcache hnext hreply =>
    exact .inl ⟨.account (.error e),by simp,e,rfl⟩
  | unsimulated n d u _ built e hn hbuild hsim hnext =>
    exact .inl ⟨.simulate built (.error e),by simp,e,rfl⟩
  | refused n d u v _ built signed response e hn hbuild hsim herror hfinish hsend hnext =>
    refine .inr ⟨⟨built,signed,.error e⟩,?_,rfl⟩
    rw [(hn.log_append plan _).1]
    simp [sends]
  | unbuilt n d _ e hn hbuild => cases hr
  | simulationRejected n d u _ built response e hn hbuild hsim hnext herror => cases hr
  | unfinished n d u _ built response e hn hbuild hsim hnext herror hfinish => cases hr
  | accepted n d u v _ built signed response hash hn hbuild hsim herror hfinish hsend hnext =>
    cases hr

theorem Refused.append_left {d : List Event} (h : Refused d) (d' : List Event) :
    Refused (d ++ d') := by
  obtain ⟨s,hs,hrefused⟩ := h
  exact ⟨s,by rw [sends_append]; exact List.mem_append_left _ hs,hrefused⟩

theorem Refused.append_right {d : List Event} (h : Refused d) (d' : List Event) :
    Refused (d' ++ d) := by
  obtain ⟨s,hs,hrefused⟩ := h
  exact ⟨s,by rw [sends_append]; exact List.mem_append_right _ hs,hrefused⟩

/-- And so with a whole call of `run_cycle`. -/
theorem Cycled.rpc {keeper : Keeper σ} {w t : World σ} {text : String} {d : List Event}
    (h : Cycled keeper w (.error (.failed (.rpc text))) d t) :
    (∃ e ∈ d, Unanswered keeper e) ∨ Refused d := by
  cases h with
  | unready _ _ _ hlook hwhy =>
    cases hwhy with
    | unresolved _ hresolve _ =>
      obtain ⟨_,hinvalid⟩ := resolveWatchKeys_error hresolve
      cases hinvalid
    | unanswered e _ he hmiss _ => exact .inl ⟨e,he,hmiss⟩
  | stuck keys observations done plan rest err d d₁ d₂ t₁ u _ hkeys hlook hprep hserves hstep =>
    obtain ⟨d₃,u',⟨d₄,rfl⟩,hs⟩ := hstep.first_error
    rcases hs.rpc with ⟨e,he,hmiss⟩|hrefused
    · refine .inl ⟨e,?_,hmiss⟩
      simp [he]
    · exact .inr (((hrefused.append_left d₄).append_right d₁).append_right d)

/-- One transaction or none adds the right number. -/
theorem accepted_of_oneClass {transactions : Nat} {submitted : Bool} (count : UInt64)
    (hsubmitted : submitted = true ↔ 0 < transactions) (hone : transactions ≤ 1) :
    (if submitted then count + 1 else count) = count + UInt64.ofNat transactions := by
  by_cases hzero : transactions = 0
  · subst hzero
    have hfalse : submitted = false := by
      cases submitted
      · rfl
      · exact absurd (hsubmitted.mp rfl) (Nat.lt_irrefl 0)
    rw [hfalse]
    exact (UInt64.add_zero count).symm
  · have htransactions : transactions = 1 := by omega
    rw [hsubmitted.mpr (by omega),htransactions]
    rfl

/-- A fair tick is counted right. -/
theorem tick_counts (keeper : Keeper σ) (w : World σ) (metrics : Metrics)
    (hfair : FairTick keeper w) : CountsTick keeper w metrics := by
  have htick : tick keeper w metrics =
      tickEnd metrics (runCycle keeper (lastCall keeper retryAttempts w)) :=
    attempts_eq_tickEnd keeper 2 w metrics
  constructor
  · intro report t metrics' hrun hmetrics
    rw [htick,hrun] at hmetrics
    cases hmetrics
    obtain ⟨d,keys,observations,hd,hcovered⟩ := runCycle_covered keeper _ t report hrun
    obtain ⟨d',hd',hlen,_⟩ := runCycle_accepted hrun
    have hone := hfair.oneClass report t hrun
    rw [appended_of_log hd] at hone
    obtain ⟨temporary,hempty⟩ := hone keys observations (by rw [hcovered.observed]; simp)
    refine ⟨?_,by rw [appended_of_log hd']; exact hlen⟩
    have hle : report.transactions ≤ 1 := by
      rw [hcovered.transactions]
      cases temporary with
      | false => simp [List.filter_cons,hempty]; split <;> simp
      | true => simp [List.filter_cons,hempty]; split <;> simp
    exact accepted_of_oneClass metrics.extendsAccepted hcovered.extendSubmitted hle
  · intro metrics' hmetrics hcounted
    rw [htick] at hmetrics ⊢
    cases hrun : runCycle keeper (lastCall keeper retryAttempts w) with
    | ok report t =>
      rw [hrun] at hmetrics
      cases hmetrics
      exact absurd rfl hcounted
    | error fault t =>
      rw [hrun] at hmetrics
      cases fault with
      | panicked => cases hmetrics
      | failed err =>
        cases hmetrics
        cases err with
        | invalidWatch text => exact absurd rfl hcounted
        | transaction text => exact absurd rfl hcounted
        | rpc text =>
          obtain ⟨d,hd,hcycle⟩ := (runCycle_cases keeper _).error hrun
          rcases hcycle.rpc with ⟨e,he,hmiss⟩|hrefused
          · rcases hfair.answered _ t hrun with hanswered|hrefused
            · exact absurd hmiss (hanswered e (by rw [appended_of_log hd]; exact he))
            · exact refused_iff.mpr hrefused
          · obtain ⟨d₀,hd₀⟩ := lastCall_log keeper retryAttempts w
            have hlog : t.log = w.log ++ (d₀ ++ d) := by rw [hd,hd₀,List.append_assoc]
            simp only [tickEnd]
            rw [appended_of_log hlog]
            exact hrefused.append_right d₀

/-- In a run of fair ticks every tick is counted right. -/
theorem runLoop_counts (keeper : Keeper σ) (w : World σ) (n : Nat)
    (hfair : ∀ k < n, ∀ metrics, (runLoop keeper k w Metrics.new).2 = some metrics →
      FairTick keeper (runLoop keeper k w Metrics.new).1) :
    ∀ k < n, ∀ metrics, (runLoop keeper k w Metrics.new).2 = some metrics →
      CountsTick keeper (runLoop keeper k w Metrics.new).1 metrics := by
  intro k hk metrics hmetrics
  exact tick_counts keeper _ metrics (hfair k hk metrics hmetrics)

theorem fairTick_of_value {keeper : Keeper σ} {w : World σ} (report : CycleReport)
    (keys : List LedgerKey) (observations : List Observation) (temporary : Bool)
    (hreport : value (runCycle keeper (lastCall keeper retryAttempts w)) = some report)
    (hobserved : observedIn (appended (lastCall keeper retryAttempts w)
      (final (runCycle keeper (lastCall keeper retryAttempts w)))) = [(keys,observations)])
    (hempty : endangeredClass keeper.config.riskWindow.alertHorizonLedgers.toNat keys observations
      temporary = []) : FairTick keeper w := by
  have hrun := eq_ok_of_value hreport
  constructor
  · intro report' t hok keys' observations' hmem
    rw [hok] at hobserved
    change observedIn (appended _ t) = _ at hobserved
    rw [hobserved,List.mem_singleton] at hmem
    cases hmem
    exact ⟨temporary,hempty⟩
  · intro fault t herror
    rw [hrun] at herror
    cases herror

theorem fairTick_of_refused {keeper : Keeper σ} {w : World σ}
    (hreport : value (runCycle keeper (lastCall keeper retryAttempts w)) = none)
    (hrefused : Refused (appended w
      (final (runCycle keeper (lastCall keeper retryAttempts w))))) : FairTick keeper w := by
  constructor
  · intro report t hok
    rw [hok] at hreport
    cases hreport
  · intro fault t herror
    rw [herror] at hrefused
    exact .inr (refused_iff.mp hrefused)

/-- One tick that extends the code entry, and one whose extension is refused three times. -/
def refusingWorld : World Script :=
  ⟨⟨.ok "Test SDF Network ; September 2015",
    [.ok (sampleEntries 100 150 500),.ok (sampleEntries 120 160 500),
      .ok (sampleEntries 121 160 500),.ok (sampleEntries 122 160 500)],[.ok 7],
    List.replicate 4 (.ok codeSimulation),
    .ok (Vector.replicate 32 0)::List.replicate 3 (.error "connection refused")⟩,none,[]⟩

theorem fairTick_refusing {k : Nat} (hk : k < 2) :
    FairTick sampleKeeper (runLoop sampleKeeper k refusingWorld Metrics.new).1 := by
  have hk' : k = 0 ∨ k = 1 := by omega
  rcases hk' with rfl|rfl
  · exact fairTick_of_value ⟨100,1,true,1⟩ [codeKey,dataKey]
      [⟨100,.live ⟨100,some 150⟩⟩,⟨100,.live ⟨100,some 500⟩⟩] true
      (by decide +kernel) (by decide +kernel) (by decide +kernel)
  · have hrefused : (sends (appended (runLoop sampleKeeper 1 refusingWorld Metrics.new).1
        (final (runCycle sampleKeeper (lastCall sampleKeeper retryAttempts
          (runLoop sampleKeeper 1 refusingWorld Metrics.new).1))))).any
            (fun s => s.accepted = false) = true := by decide +kernel
    exact fairTick_of_refused (by decide +kernel) (by simpa [Refused] using hrefused)

/-- The second tick counts a rejection, after the first counted one accepted transaction. -/
theorem runLoop_counts_steady :
    (tick sampleKeeper (runLoop sampleKeeper 1 refusingWorld Metrics.new).1
      ⟨1,1,1,1,0,100⟩).2 = some ⟨1,1,1,1,1,100⟩ ∧
    CountsTick sampleKeeper (runLoop sampleKeeper 0 refusingWorld Metrics.new).1 Metrics.new ∧
    CountsTick sampleKeeper (runLoop sampleKeeper 1 refusingWorld Metrics.new).1
      ⟨1,1,1,1,0,100⟩ := by
  have hcounts := runLoop_counts sampleKeeper refusingWorld 2
    fun k hk _ _ => fairTick_refusing hk
  exact ⟨by decide +kernel,hcounts 0 (by omega) _ (by decide +kernel),
    hcounts 1 (by omega) _ (by decide +kernel)⟩

/-- A tick that ends well with two transactions counts one. -/
theorem tick_miscounts : ¬∀ (keeper : Keeper Script) (w : World Script) (k : Nat)
    (metrics : Metrics), (runLoop keeper k w Metrics.new).2 = some metrics →
    CountsTick keeper (runLoop keeper k w Metrics.new).1 metrics := by
  intro h
  have hcounts := h sampleKeeper flakyWorld 0 Metrics.new rfl
  have hreport := eq_ok_of_value
    (r := runCycle sampleKeeper (lastCall sampleKeeper retryAttempts flakyWorld))
    (a := ⟨100,2,true,2⟩) (by decide +kernel)
  have haccepted := (hcounts.accepted _ _ ⟨1,2,2,1,0,100⟩ hreport (by decide +kernel)).1
  exact absurd haccepted (by decide +kernel)

end SorobanRentKeeper

import SorobanRentKeeper.Daemon.Discipline
import SorobanRentKeeper.Daemon.FeePayerKey

namespace SorobanRentKeeper

open Program

variable {σ : Type}

/-- What the daemon runs on: its host and libraries, the node behind the endpoint, whether a client
can be made for an endpoint, and whether the metrics register. -/
structure Machine (σ : Type) where
  host : Host
  crates : Crates
  node : Node σ
  decode : SettingsDecoder
  newClient : String → Except String Unit
  registerMetrics : Except String Unit

def Network.machine (network : Network σ) (host : Host) (crates : Crates)
    (newClient : String → Except String Unit) (registerMetrics : Except String Unit) :
    Machine σ :=
  ⟨host,crates,network.node,network.decode,newClient,registerMetrics⟩

/-- How far `main` gets before it polls. -/
inductive Booted (σ : Type) where
  | checked (text : String)
  | running (keeper : Keeper σ)

/-- How the process ends. -/
inductive Exit where
  | checked (text : String)
  /-- It printed this, and left with status 2. -/
  | refused (text : String)
  /-- It was told to stop. -/
  | stopped (metrics : Metrics)
  | panicked
  deriving DecidableEq

namespace Main

def refresh (machine : Machine σ) (valid : ValidConfig) :
    EStateM String (World σ) ValidConfig := do
  match ← Program.attempt (Provider.ttlConstants machine.decode machine.node) with
  | .ok networkConstants => return { valid with constants := networkConstants }
  | .error (_ : RentkeeperError) => return valid

/-- `main` up to its poll loop; a failure is what it prints before it exits with status 2. -/
def boot (machine : Machine σ) (path : String) (check : Bool) :
    EStateM String (World σ) (Booted σ) := do
  match ← Program.ofExcept (startUp machine.host machine.crates path check) with
  | .checked text => return .checked text
  | .running valid payer =>
    Program.ofExcept ((machine.newClient valid.rpcUrl).mapError fun e =>
      "rpc error: " ++ (RentkeeperError.rpc ("client for " ++ valid.rpcUrl ++ ": " ++ e)).toString)
    let valid ← refresh machine valid
    Program.ofExcept (machine.registerMetrics.mapError fun e => "metrics error: " ++ e)
    let sequence ← SequenceTracker.new (payer.accountIdStrkey machine.crates)
    return .running ⟨machine.crates,machine.node,valid,payer,sequence⟩

/-- `run_loop`, stopped after `n` ticks. -/
def poll (keeper : Keeper σ) (n : Nat) (w : World σ) : World σ × Exit :=
  match runLoop keeper n w Metrics.new with
  | (w,some metrics) => (w,.stopped metrics)
  | (w,none) => (w,.panicked)

def process (machine : Machine σ) (path : String) (check : Bool) (n : Nat) (w : World σ) :
    World σ × Exit :=
  match boot machine path check w with
  | .error text w => (w,.refused text)
  | .ok (.checked text) w => (w,.checked text)
  | .ok (.running keeper) w => poll keeper n w

def settingsIn (decode : SettingsDecoder) (reply : Except String GetLedgerEntriesResponse) :
    Option StateArchivalSettings :=
  match reply with
  | .error _ => none
  | .ok response => (response.entries.getD []).head?.bind fun row =>
    match decode row.xdr with
    | .ok settings => settings
    | .error _ => none

/-- The limits the daemon plans with, given the reply to its request for the settings. -/
def limits (decode : SettingsDecoder) (reply : Except String GetLedgerEntriesResponse) :
    TtlConstants :=
  ((settingsIn decode reply).map stateArchivalToConstants).getD .stellarPublic

def Asked (machine : Machine σ) (reply : Except String GetLedgerEntriesResponse) : Prop :=
  ∃ s, (machine.node.getLedgerEntries [stateArchivalKey] s).1 = reply

theorem ttlConstants_traced (machine : Machine σ) (w : World σ) :
    Traced World.log (Provider.ttlConstants machine.decode machine.node) w
      (fun constants d _ => ∃ reply,
        (machine.node.getLedgerEntries [stateArchivalKey] w.node).1 = reply ∧
        d = [.ledgerEntries [stateArchivalKey] reply] ∧ limits machine.decode reply = constants)
      (fun _ d _ => ∃ reply,
        (machine.node.getLedgerEntries [stateArchivalKey] w.node).1 = reply ∧
        d = [.ledgerEntries [stateArchivalKey] reply] ∧
        limits machine.decode reply = .stellarPublic) := by
  unfold Provider.ttlConstants
  refine Traced.bind (call_traced _ _ _ w) ?_ ?_
  · intro response d t h
    obtain ⟨hanswer,_,rfl⟩ := h
    have hreply : (machine.node.getLedgerEntries [stateArchivalKey] w.node).1 = .ok response := by
      rw [hanswer]
    have hlost (h : settingsIn machine.decode (.ok response) = none) : ∃ reply,
        (machine.node.getLedgerEntries [stateArchivalKey] w.node).1 = reply ∧
        [Event.ledgerEntries [stateArchivalKey] (.ok response)] ++ [] =
          [.ledgerEntries [stateArchivalKey] reply] ∧
        limits machine.decode reply = .stellarPublic := by
      refine ⟨.ok response,hreply,List.append_nil _,?_⟩
      unfold limits
      rw [h]
      rfl
    split
    · next hrows => exact traced_throw (hlost (by simp [settingsIn,hrows]))
    · next row hrows =>
      split
      · next e hdecode => exact traced_throw (hlost (by simp [settingsIn,hrows,hdecode]))
      · next hdecode => exact traced_throw (hlost (by simp [settingsIn,hrows,hdecode]))
      · next settings hdecode =>
        refine traced_pure ⟨.ok response,hreply,List.append_nil _,?_⟩
        simp [limits,settingsIn,hrows,hdecode]
  · intro err d t h
    obtain ⟨e,hanswer,_,rfl,_⟩ := h
    exact ⟨.error e,by rw [hanswer],rfl,rfl⟩

theorem refresh_traced (machine : Machine σ) (valid : ValidConfig)
    (hdefault : valid.constants = .stellarPublic) (w : World σ) :
    Traced World.log (refresh machine valid) w
      (fun valid' d _ => ∃ reply, Asked machine reply ∧
        d = [.ledgerEntries [stateArchivalKey] reply] ∧
        valid' = { valid with constants := limits machine.decode reply })
      (fun _ _ _ => False) := by
  unfold refresh
  refine Traced.bind (Traced.attempt (Q := fun r d _ => ∃ reply, Asked machine reply ∧
    d = [.ledgerEntries [stateArchivalKey] reply] ∧
    limits machine.decode reply = match r with
      | .ok constants => constants
      | .error _ => .stellarPublic) (E := fun _ _ _ => False)
    (Traced.mono (ttlConstants_traced machine w) ?_ ?_)) ?_ (fun _ _ _ h => h.elim)
  · intro constants d _ h
    obtain ⟨reply,hreply,hd,hlimits⟩ := h
    exact ⟨reply,⟨w.node,hreply⟩,hd,hlimits⟩
  · intro _ d _ h
    obtain ⟨reply,hreply,hd,hlimits⟩ := h
    exact ⟨reply,⟨w.node,hreply⟩,hd,hlimits⟩
  · intro r d t h
    obtain ⟨reply,hasked,rfl,hlimits⟩ := h
    cases r with
    | ok constants =>
      refine traced_pure ⟨reply,hasked,List.append_nil _,?_⟩
      rw [hlimits]
    | error err =>
      refine traced_pure ⟨reply,hasked,List.append_nil _,?_⟩
      rw [hlimits,← hdefault]

def keeperOf (machine : Machine σ) (valid : ValidConfig) (payer : FeePayer)
    (reply : Except String GetLedgerEntriesResponse) : Keeper σ where
  crates := machine.crates
  node := machine.node
  config := { valid with constants := limits machine.decode reply }
  payer := payer
  tracker := ⟨payer.accountIdStrkey machine.crates⟩

theorem startUp_running {host : Host} {crates : Crates} {path : String} {check : Bool}
    {valid : ValidConfig} {payer : FeePayer}
    (h : startUp host crates path check = .ok (.running valid payer)) :
    loadConfig host crates path = .ok valid ∧
      FeePayer.fromSecretKeyStr crates valid.secretKey = .ok payer := by
  obtain ⟨valid',hload,h⟩ := bind_eq_ok h
  split at h
  · cases h
  · obtain ⟨payer',hpayer,h⟩ := bind_eq_ok h
    cases h
    exact ⟨mapError_eq_ok hload,mapError_eq_ok hpayer⟩

theorem traced_new {ε : Type} (accountId : String) (w : World σ) :
    Traced World.log (SequenceTracker.new (ε := ε) accountId) w
      (fun sequence d t => sequence = ⟨accountId⟩ ∧ d = [] ∧ t.sequence = none)
      (fun _ _ _ => False) :=
  ⟨[],(List.append_nil _).symm,rfl,rfl,rfl⟩

/-- What boots is a configuration that loads and a payer for its secret; the node is asked for its
settings, and for nothing else. -/
theorem boot_traced (machine : Machine σ) (path : String) (check : Bool) (w : World σ) :
    Traced World.log (boot machine path check) w
      (fun booted d _ => (∃ text, booted = .checked text ∧ d = []) ∨
        ∃ valid payer reply, loadConfig machine.host machine.crates path = .ok valid ∧
          FeePayer.fromSecretKeyStr machine.crates valid.secretKey = .ok payer ∧
          Asked machine reply ∧ d = [.ledgerEntries [stateArchivalKey] reply] ∧
          booted = .running (keeperOf machine valid payer reply))
      (fun _ d _ => d = [] ∨ ∃ valid reply,
        loadConfig machine.host machine.crates path = .ok valid ∧ Asked machine reply ∧
          d = [.ledgerEntries [stateArchivalKey] reply]) := by
  unfold boot
  refine traced_ofExcept_bind ?_ (fun _ _ => .inl rfl)
  intro started hstarted
  cases started with
  | checked text => exact traced_pure (.inl ⟨text,rfl,rfl⟩)
  | running valid payer =>
    obtain ⟨hload,hpayer⟩ := startUp_running hstarted
    have hdefault : valid.constants = .stellarPublic := by
      obtain ⟨_,file,secret,_,_,_,_,rfl⟩ := loadConfig_ok hload
      rfl
    refine traced_ofExcept_bind ?_ (fun _ _ => .inl rfl)
    intro _ _
    refine Traced.bind (refresh_traced machine valid hdefault w) ?_ (fun _ _ _ h => h.elim)
    intro valid' d t h
    obtain ⟨reply,hasked,rfl,rfl⟩ := h
    refine traced_ofExcept_bind ?_ ?_
    · intro _ _
      refine Traced.bind (traced_new _ t) ?_ (fun _ _ _ h => h.elim)
      intro sequence d' u h
      obtain ⟨rfl,rfl,_⟩ := h
      apply traced_pure
      exact .inr ⟨valid,payer,reply,hload,hpayer,hasked,by simp,rfl⟩
    · intro _ _
      rw [List.append_nil]
      exact .inr ⟨valid,reply,hload,hasked,rfl⟩

/-- What a process logs: nothing, or its request for the settings and then the calls it made with
the limits of the reply. -/
inductive Processed (machine : Machine σ) (path : String) (n : Nat) : List Event → Exit → Prop where
  | silent (exit : Exit) (hexit : exit ≠ .panicked) : Processed machine path n [] exit
  | unregistered (valid : ValidConfig) (reply : Except String GetLedgerEntriesResponse)
      (text : String) (hload : loadConfig machine.host machine.crates path = .ok valid)
      (hasked : Asked machine reply) :
      Processed machine path n [.ledgerEntries [stateArchivalKey] reply] (.refused text)
  | polled (valid : ValidConfig) (payer : FeePayer)
      (reply : Except String GetLedgerEntriesResponse) (ds : List (List Event)) (metrics : Metrics)
      (hload : loadConfig machine.host machine.crates path = .ok valid)
      (hpayer : FeePayer.fromSecretKeyStr machine.crates valid.secretKey = .ok payer)
      (hasked : Asked machine reply) (hlen : ds.length ≤ retryAttempts * n)
      (hcalled : ∀ d ∈ ds, Called (keeperOf machine valid payer reply) d) :
      Processed machine path n (.ledgerEntries [stateArchivalKey] reply::ds.flatten)
        (.stopped metrics)

theorem keeperOf_resolves {machine : Machine σ} {path : String} {valid : ValidConfig}
    (h : loadConfig machine.host machine.crates path = .ok valid) (payer : FeePayer)
    (reply : Except String GetLedgerEntriesResponse) :
    ∃ keys, resolveWatchKeys (keeperOf machine valid payer reply).crates
      (keeperOf machine valid payer reply).config = .ok keys ∧ keys ≠ [] := by
  obtain ⟨_,file,secret,_,_,_,haccepted,rfl⟩ := loadConfig_ok h
  obtain ⟨keys,hkeys,_⟩ := resolveWatchSpecs_of_valid haccepted.watch
  refine ⟨keys,hkeys,?_⟩
  intro hnil
  subst hnil
  have hlen : file.config.watch.length = 0 := (mapM_eq_ok_iff.mp hkeys).length_eq
  exact haccepted.watched (List.length_eq_zero_iff.mp hlen)

theorem poll_of_resolved {keeper : Keeper σ} {keys : List LedgerKey}
    (h : resolveWatchKeys keeper.crates keeper.config = .ok keys) (n : Nat) (w : World σ) :
    ∃ metrics, poll keeper n w = ((runLoop keeper n w Metrics.new).1,.stopped metrics) := by
  obtain ⟨metrics,hmetrics⟩ := runLoop_running h n w Metrics.new
  unfold poll
  generalize runLoop keeper n w Metrics.new = r at hmetrics ⊢
  obtain ⟨u,ended⟩ := r
  cases hmetrics
  exact ⟨metrics,rfl⟩

theorem process_log (machine : Machine σ) (path : String) (check : Bool) (n : Nat) (w : World σ) :
    ∃ d, (process machine path check n w).1.log = w.log ++ d ∧
      Processed machine path n d (process machine path check n w).2 := by
  obtain ⟨d,hd,hboot⟩ := (boot_traced machine path check w).cases
  unfold process
  rcases hboot with ⟨booted,t,hrun,hbooted⟩|⟨text,t,hrun,hfailed⟩
  · rw [hrun] at hd ⊢
    rcases hbooted with ⟨text,rfl,rfl⟩|⟨valid,payer,reply,hload,hpayer,hasked,rfl,rfl⟩
    · exact ⟨[],hd,.silent _ (by simp)⟩
    · obtain ⟨keys,hkeys,_⟩ := keeperOf_resolves hload payer reply
      obtain ⟨metrics,hpoll⟩ := poll_of_resolved hkeys n t
      obtain ⟨ds,hlen,hcalled,hlog⟩ :=
        runLoop_called (keeperOf machine valid payer reply) n t Metrics.new
      refine ⟨.ledgerEntries [stateArchivalKey] reply::ds.flatten,?_,?_⟩
      · show (poll _ n t).1.log = _
        rw [hpoll]
        show (runLoop _ n t Metrics.new).1.log = _
        rw [hlog,show t.log = w.log ++ [.ledgerEntries [stateArchivalKey] reply] from hd,
          List.append_assoc]
        rfl
      · show Processed machine path n _ (poll _ n t).2
        rw [hpoll]
        exact .polled valid payer reply ds metrics hload hpayer hasked hlen hcalled
  · rw [hrun] at hd ⊢
    rcases hfailed with rfl|⟨valid,reply,hload,hasked,rfl⟩
    · exact ⟨[],hd,.silent _ (by simp)⟩
    · exact ⟨_,hd,.unregistered valid reply text hload hasked⟩

theorem runCycle_fails {keeper : Keeper σ} {keys : List LedgerKey}
    (h : resolveWatchKeys keeper.crates keeper.config = .ok keys) (hne : keys ≠ []) {w t : World σ}
    {fault : Fault KeeperError} (hrun : runCycle keeper w = .error fault t) :
    ∃ text, fault = .failed (.rpc text) ∨ fault = .failed (.transaction text) := by
  obtain ⟨_,_,hcycle⟩ := (runCycle_cases keeper w).error hrun
  cases hcycle with
  | unready _ _ _ hlook hwhy =>
    cases hwhy with
    | unresolved _ hkeys _ =>
      rw [h] at hkeys
      cases hkeys
    | unwatched hkeys _ =>
      rw [h] at hkeys
      exact absurd (Except.ok.inj hkeys) hne
    | unanswered e text he hun _ => exact ⟨text,.inl rfl⟩
    | unplanned _ _ _ _ _ => exact ⟨_,.inr rfl⟩
  | stuck _ _ done plan rest err _ _ _ _ _ _ hkeys hlook hprep hserves hstep =>
    obtain ⟨_,_,_,hsubmit⟩ := hstep.first_error
    obtain ⟨text,rfl|rfl⟩ := hsubmit.fails
    · exact ⟨text,.inl rfl⟩
    · exact ⟨text,.inr rfl⟩

/-- The process is not brought down by its own polling, however often it polls and whatever the node
answers: a configuration that loads has rules that resolve, to a key at least, and what a call then
fails with is an exchange with the node or a transaction. -/
theorem process_staysUp (machine : Machine σ) (path : String) (check : Bool) (n : Nat)
    (w : World σ) : (process machine path check n w).2 ≠ .panicked ∧
      ∀ keeper t, boot machine path check w = .ok (.running keeper) t → ∀ u fault u',
        runCycle keeper u = .error fault u' →
          ∃ text, fault = .failed (.rpc text) ∨ fault = .failed (.transaction text) := by
  constructor
  · obtain ⟨d,_,hprocessed⟩ := process_log machine path check n w
    intro hpanicked
    rw [hpanicked] at hprocessed
    cases hprocessed with
    | silent _ hexit => exact hexit rfl
  · intro keeper t hboot u fault u' hrun
    obtain ⟨_,_,hbooted⟩ := (boot_traced machine path check w).ok hboot
    rcases hbooted with ⟨_,hchecked,_⟩|⟨valid,payer,reply,hload,_,_,_,hrunning⟩
    · cases hchecked
    · cases hrunning
      obtain ⟨keys,hkeys,hne⟩ := keeperOf_resolves hload payer reply
      exact runCycle_fails hkeys hne hrun

/-- A file that names the public network and watches the sample data entry, and a seed in the
environment. -/
def publicHost : Host where
  readToString path :=
    if path = "keeper.toml" then .ok "" else .error "No such file or directory (os error 2)"
  envVar := seedHost.envVar
  tomlFromStr _ := .ok {
    rpcUrl := "https://mainnet.sorobanrpc.com"
    networkPassphrase := "Public Global Stellar Network ; September 2015"
    secretKey := none
    secretKeyFile := none
    watch := some [.dataKey "CAAAAAAAAAAAAAAAAAAAAAAAAAAAAAAAAAAAAAAAAAAAAAAAAAAABSC4" "AAAAAwAAAAc="
      "temporary"]
    pollIntervalSecs := none
    riskWindowDays := none
    metricsPort := none }

def publicMachine : Machine Unit :=
  (publicNetwork 100000).machine publicHost seedCrates (fun _ => .ok ()) (.ok ())

theorem boot_of_stopped {machine : Machine σ} {path : String} {check : Bool} {n : Nat} {w : World σ}
    {metrics : Metrics} (h : (process machine path check n w).2 = .stopped metrics) :
    ∃ keeper t, boot machine path check w = .ok (.running keeper) t := by
  unfold process at h
  split at h
  · cases h
  · cases h
  · next keeper t hboot => exact ⟨keeper,t,hboot⟩

theorem process_public : (process publicMachine "keeper.toml" false 2 emptyWorld).2 =
    .stopped ⟨2,1,2,2,0,100⟩ := by
  decide +kernel

theorem process_staysUp_public : ∃ keeper t,
    boot publicMachine "keeper.toml" false emptyWorld = .ok (.running keeper) t ∧
    ∀ u fault u', runCycle keeper u = .error fault u' →
      ∃ text, fault = .failed (.rpc text) ∨ fault = .failed (.transaction text) := by
  obtain ⟨keeper,t,hboot⟩ := boot_of_stopped process_public
  have hfails := (process_staysUp publicMachine "keeper.toml" false 2 emptyWorld).2
  exact ⟨keeper,t,hboot,hfails keeper t hboot⟩

/-- An envelope whose one operation extends its footprint, to this target. -/
def ExtendsTo (envelope : TransactionEnvelope) (extendTo : UInt32) : Prop :=
  ∃ inner, envelope = .tx inner ∧
    inner.tx.operations.val = [⟨none,.extendFootprintTtl ⟨.v0,extendTo⟩⟩]

theorem extendsTo_of_finish {keeper : Keeper σ} {built signed : TransactionEnvelope}
    {response : SimulateResponse} {extendTo : UInt32} (h : ExtendsTo built extendTo)
    (herror : response.error = none)
    (hfinish : finish keeper (cycleBuilder keeper) built response = .ok signed) :
    ExtendsTo signed extendTo := by
  obtain ⟨inner,rfl,hoperation⟩ := h
  obtain ⟨data,signatures,_,_,rfl⟩ := finish_ok herror hfinish
  exact ⟨_,rfl,hoperation⟩

theorem extendsTo_of_sent {keeper : Keeper σ} {d : List Event} {t : Stage}
    (h : Lts.Run (Session keeper) .closed d t) {s : Submission} (hs : .send s ∈ d) :
    ExtendsTo s.signed (keeper.config.riskWindow.extendToLedgers keeper.config.constants) := by
  obtain ⟨before,after,rfl⟩ := List.append_of_mem hs
  obtain ⟨d,response,rfl,herror,hfinish⟩ := Session.finished h
  rw [List.append_assoc] at h
  obtain ⟨_,_,_,hwarranted⟩ := Session.warranted h
  obtain ⟨inner,hinner,_,hoperation,_⟩ := hwarranted.operation
  exact extendsTo_of_finish ⟨inner,hinner,hoperation⟩ herror hfinish

/-- Whatever a process sends extends to its risk window, cut at the limit in the node's reply to
the one request for its settings, or at the built-in limit where that reply holds none. -/
theorem process_targets (machine : Machine σ) (path : String) (check : Bool) (n : Nat)
    (w : World σ) : ∃ d, (process machine path check n w).1.log = w.log ++ d ∧
      (d = [] ∨ ∃ valid reply d', loadConfig machine.host machine.crates path = .ok valid ∧
        d = .ledgerEntries [stateArchivalKey] reply::d' ∧
        ∀ s, .send s ∈ d' → ∃ extendTo, ExtendsTo s.signed extendTo ∧
          extendTo.toNat = min valid.riskWindow.alertHorizonLedgers.toNat
            (limits machine.decode reply).maxEntryTtl.toNat) := by
  obtain ⟨d,hd,hprocessed⟩ := process_log machine path check n w
  refine ⟨d,hd,?_⟩
  clear hd
  generalize (_ : World σ × Exit).2 = exit at hprocessed
  cases hprocessed with
  | silent _ _ => exact .inl rfl
  | unregistered valid reply text hload _ => exact .inr ⟨valid,reply,[],hload,rfl,by simp⟩
  | polled valid payer reply ds metrics hload hpayer hasked hlen hcalled =>
    refine .inr ⟨valid,reply,ds.flatten,hload,rfl,?_⟩
    intro s hs
    obtain ⟨t,hrun⟩ := Called.flatten_goes hcalled .closed
    exact ⟨_,extendsTo_of_sent hrun hs,RiskWindow.extendToLedgers_toNat _ _⟩

theorem process_targets_public :
    (sends (process publicMachine "keeper.toml" false 2 emptyWorld).1.log).length = 2 ∧
    ∃ d, (process publicMachine "keeper.toml" false 2 emptyWorld).1.log = [] ++ d ∧
      (d = [] ∨ ∃ valid reply d', loadConfig publicHost seedCrates "keeper.toml" = .ok valid ∧
        d = .ledgerEntries [stateArchivalKey] reply::d' ∧
        ∀ s, .send s ∈ d' → ∃ extendTo, ExtendsTo s.signed extendTo ∧
          extendTo.toNat = min valid.riskWindow.alertHorizonLedgers.toNat
            (limits publicMachine.decode reply).maxEntryTtl.toNat) :=
  ⟨by decide +kernel,process_targets publicMachine "keeper.toml" false 2 emptyWorld⟩

end Main

theorem Network.limits_eq (network : Network σ)
    {reply : Except String GetLedgerEntriesResponse} {machine : Machine σ}
    (hnode : machine.node = network.node) (hdecode : machine.decode = network.decode)
    (h : Main.Asked machine reply) :
    (Main.limits machine.decode reply).maxEntryTtl = network.maxEntryTtl := by
  obtain ⟨s,hreply⟩ := h
  obtain ⟨constants,t,hrun,hmax⟩ := network.limits ⟨s,none,[]⟩
  rw [← hnode,← hdecode] at hrun
  obtain ⟨_,_,reply',hreply',_,hlimits⟩ := (Main.ttlConstants_traced machine ⟨s,none,[]⟩).ok hrun
  rw [← hreply,hreply',hlimits,hmax]

/-- A process on a network sends nothing that asks for more than the network allows; and where the
configuration names another network it asks for the settings and for the network, and nothing
else. -/
theorem Network.process_keeps (network : Network σ) (host : Host) (crates : Crates)
    (newClient : String → Except String Unit) (registerMetrics : Except String Unit)
    (path : String) (check : Bool) (n : Nat) (w : World σ) :
    ∃ d, (Main.process (network.machine host crates newClient registerMetrics)
        path check n w).1.log = w.log ++ d ∧
      (∀ s, .send s ∈ d → ∃ extendTo, Main.ExtendsTo s.signed extendTo ∧
        extendTo.toNat ≤ network.maxEntryTtl.toNat) ∧
      ∀ valid, loadConfig host crates path = .ok valid →
        valid.networkPassphrase ≠ network.passphrase → ∀ e ∈ d,
          (∃ reply, e = .ledgerEntries [stateArchivalKey] reply) ∨ ∃ reply, e = .network reply := by
  obtain ⟨d,hd,hprocessed⟩ := Main.process_log
    (network.machine host crates newClient registerMetrics) path check n w
  refine ⟨d,hd,?_⟩
  clear hd
  generalize (_ : World σ × Exit).2 = exit at hprocessed
  cases hprocessed with
  | silent _ _ => simp
  | unregistered valid reply text hload _ => simp
  | polled valid payer reply ds metrics hload hpayer hasked hlen hcalled =>
    constructor
    · intro s hs
      obtain ⟨t,hrun⟩ := Called.flatten_goes hcalled .closed
      have hs : .send s ∈ ds.flatten := by
        rcases List.mem_cons.mp hs with h|h
        · cases h
        · exact h
      refine ⟨_,Main.extendsTo_of_sent hrun hs,?_⟩
      rw [RiskWindow.extendToLedgers_toNat,← network.limits_eq rfl rfl hasked]
      exact Nat.min_le_right _ _
    · intro valid' hload' hother e he
      have hload : loadConfig host crates path = .ok valid := hload
      rw [hload'] at hload
      cases hload
      rcases List.mem_cons.mp he with rfl|he
      · exact .inl ⟨reply,rfl⟩
      · obtain ⟨called,hmem,he⟩ := List.mem_flatten.mp he
        have hcall := hcalled called hmem
        cases hcall with
        | unresolved => cases he
        | foreign s reply hreply hother => exact .inr ⟨reply,List.mem_singleton.mp he⟩
        | exchange s keys d t hreply hkeys hrun =>
          have hpassphrase := (network.reports s).symm.trans hreply
          exact absurd (Except.ok.inj hpassphrase).symm hother

theorem Network.process_keeps_public :
    (∀ s, .send s ∈ (Main.process Main.publicMachine "keeper.toml" false 2 emptyWorld).1.log →
      ∃ extendTo, Main.ExtendsTo s.signed extendTo ∧ extendTo.toNat ≤ 100000) ∧
    ∀ e ∈ (Main.process ((publicNetwork 100000).machine seedHost seedCrates (fun _ => .ok ())
        (.ok ())) "keeper.toml" false 2 emptyWorld).1.log,
      (∃ reply, e = .ledgerEntries [stateArchivalKey] reply) ∨ ∃ reply, e = .network reply := by
  obtain ⟨d,hd,htargets,_⟩ := process_keeps (publicNetwork 100000) Main.publicHost seedCrates
    (fun _ => .ok ()) (.ok ()) "keeper.toml" false 2 emptyWorld
  obtain ⟨d',hd',_,hforeign⟩ := process_keeps (publicNetwork 100000) seedHost seedCrates
    (fun _ => .ok ()) (.ok ()) "keeper.toml" false 2 emptyWorld
  have hload : loadConfig seedHost seedCrates "keeper.toml" = .ok seedConfig :=
    eq_ok_of_toOption (by decide +kernel)
  rw [show emptyWorld.log = [] from rfl,List.nil_append] at hd hd'
  constructor
  · rw [Main.publicMachine,hd]
    exact htargets
  · rw [hd']
    exact hforeign seedConfig hload (by decide)

end SorobanRentKeeper

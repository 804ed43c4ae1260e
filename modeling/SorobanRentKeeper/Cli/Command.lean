import SorobanRentKeeper.Core.PlanJson

namespace SorobanRentKeeper

/-- `CliError` of cli.rs. -/
inductive CliError where
  | invalid (text : String)
  | operation (text : String)
  | io (text : String)
  deriving DecidableEq

structure ConnectOpts where
  rpcUrl : String
  networkPassphrase : String

/-- The flags, else the environment, else the defaults. -/
def ConnectOpts.parse (rpcUrl rpcUrlEnv passphrase passphraseEnv : Option String) : ConnectOpts :=
  ⟨(rpcUrl.or rpcUrlEnv).getD "https://soroban-testnet.stellar.org:443",
    (passphrase.or passphraseEnv).getD "Test SDF Network ; September 2015"⟩

/-- The arguments `plan-restore` and `plan-extend` share. -/
structure PlanArgs where
  contract : String
  keyXdrs : List String
  durability : String
  ttlDays : Float
  out : Option String

/-- What a write left in a file: its text, or, where it broke off, what reading the file gives. -/
inductive FileText where
  | whole (text : String)
  | brokenOff (left : Except String String)
  deriving DecidableEq

def FileText.read : FileText → Except String String
  | .whole text => .ok text
  | .brokenOff left => left

/-- The answer to `std::fs::write`, which opens the file, and so empties it, before it writes. -/
inductive WriteReply where
  | written
  | unopened (e : String)
  | brokenOff (e : String) (left : Except String String)

/-- The world outside, with what the tool has printed and what it has written, path by path. -/
structure Shell (σ : Type) where
  world : World σ
  stdout : String
  files : List (String × FileText)

/-- What the tool runs on: the libraries, the node behind the endpoint, whether a client can be
made for an endpoint, the ordinary file a path leads to, if it leads to one, and what the operating
system answers to a file write. -/
structure Tool (σ : Type) where
  crates : PlanCrates
  node : Node σ
  newClient : String → Except String Unit
  fileAt : String → Option String
  writeFile : Shell σ → String → String → WriteReply

namespace Cli

variable {σ : Type}

def contractIdBytes (crates : Crates) (contract : String) : Except CliError Bytes32 :=
  match crates.strkeyFromString contract with
  | .error e => .error (.invalid ("contract strkey: " ++ e))
  | .ok (.contract bytes) => .ok bytes
  | .ok _ => .error (.invalid (contract ++ " is not a C... contract strkey"))

def parseScval (crates : Crates) (keyXdr : String) : Except CliError ScVal :=
  (crates.scValFromXdrBase64 keyXdr).mapError fun e => .invalid ("key-xdr: " ++ e)

def parseDurability (name : String) : Except CliError ContractDataDurability :=
  if name = "persistent" then .ok .persistent
  else if name = "temporary" then .ok .temporary
  else .error (.invalid ("unknown durability '" ++ name ++ "' (expected persistent|temporary)"))

def println (line : String) : EStateM CliError (Shell σ) Unit :=
  modify fun s => { s with stdout := s.stdout ++ (line ++ "\n") }

/-- A provider call, its failure as the tool reports it. -/
def onWorld {α : Type} (x : EStateM RentkeeperError (World σ) α) :
    EStateM CliError (Shell σ) α := fun s =>
  match x s.world with
  | .ok a w => .ok a { s with world := w }
  | .error e w => .error (.operation e.toString) { s with world := w }

def connect (tool : Tool σ) (opts : ConnectOpts) : EStateM CliError (Shell σ) Unit :=
  Program.ofExcept ((tool.newClient opts.rpcUrl).mapError fun e =>
    .operation (RentkeeperError.rpc ("client for " ++ opts.rpcUrl ++ ": " ++ e)).toString)

/-- The built-in table: the CLI does not ask the network. -/
def constants : TtlConstants := .stellarPublic

def daysToExtendTo (days : Float) : UInt32 := (RiskWindow.fromDays days).extendToLedgers constants

def writeFile (tool : Tool σ) (path text : String) : EStateM CliError (Shell σ) Unit := fun s =>
  match tool.writeFile s path text with
  | .written => .ok () { s with files := s.files ++ [(path,.whole text)] }
  | .unopened e => .error (.io ("write " ++ path ++ ": " ++ e)) s
  | .brokenOff e left =>
    .error (.io ("write " ++ path ++ ": " ++ e))
      { s with files := s.files ++ [(path,.brokenOff left)] }

def emitPlan (tool : Tool σ) (plan : ArchivalPlan) (out : Option String) :
    EStateM CliError (Shell σ) Unit := do
  let json ← Program.ofExcept ((planToJson tool.crates plan).mapError fun e =>
    .operation e.toString)
  match out with
  | some path => writeFile tool path (json ++ "\n")
  | none => println json

/-- `read_plan`, given what reading the whole input gave. -/
def readPlan (crates : PlanCrates) (path : String) (input : Except String String) :
    Except CliError ArchivalPlan :=
  match input with
  | .error e => .error (.io ((if path = "-" then "stdin" else "read " ++ path) ++ ": " ++ e))
  | .ok json => (planFromJson crates json).mapError fun e => .invalid ("plan json: " ++ e.toString)

/-! `run` of main.rs, the two planning commands. -/

/-- The keys a command is about. -/
def planKeys (crates : Crates) (args : PlanArgs) : Except CliError (List LedgerKey) := do
  let contractBytes ← contractIdBytes crates args.contract
  let durability ← parseDurability args.durability
  args.keyXdrs.mapM fun xdr => do
    let key ← parseScval crates xdr
    return LedgerKeys.contractData contractBytes key durability

def currentLedger (observations : List Observation) : UInt32 :=
  (observations.head?.map Observation.currentLedger).getD 0

/-- What needs a restore, each marked as archived whatever its observation says. -/
def archivedEntries (keys : List LedgerKey) (observations : List Observation) :
    List (LedgerKey × ArchivedEntryInfo) :=
  ((keys.zip observations).filter fun o => o.2.needsRestore).map fun o =>
    (o.1,⟨o.2.currentLedger,true⟩)

def restorePlan (crates : Crates) (opts : ConnectOpts) (args : PlanArgs) (keys : List LedgerKey)
    (observations : List Observation) : Except CliError ArchivalPlan :=
  let archived := archivedEntries keys observations
  if archived.isEmpty then
    .error (.invalid "none of the given entries are archived; nothing to restore")
  else do
    let planner : Planner :=
      ⟨constants,⟨(daysToExtendTo args.ttlDays).toUInt64⟩,opts.networkPassphrase⟩
    let plan ← (planner.planRestore crates archived (currentLedger observations)).mapError
      fun e => .operation e.toString
    return { plan with
      extendTo := daysToExtendTo args.ttlDays
      entries := plan.entries.map fun e => { e with ttl := ⟨currentLedger observations,none⟩ } }

/-- The loop of `plan-extend` over its accumulator: every entry has to be live. -/
def liveEntries (crates : Crates) :
    List (LedgerKey × Observation) → List PlanEntry → Except CliError (List PlanEntry)
  | [],entries => .ok entries
  | o::observations,entries =>
    match o.2.asEntryTtl.liveUntilLedgerSeq with
    | none =>
      let rendered := match LedgerKeys.render crates o.1 with
        | .ok rendered => rendered
        | .error _ => "<unrenderable>"
      .error (.invalid ("entry " ++ rendered ++ " is not live (needs restore, not extend)"))
    | some _ =>
      match LedgerKeys.render crates o.1 with
      | .error e => .error (.operation e.toString)
      | .ok keyXdr =>
        liveEntries crates observations
          (entries ++ [⟨o.1,keyXdr,.extend,durabilityOf o.1,o.2.asEntryTtl⟩])

def extendPlan (crates : Crates) (opts : ConnectOpts) (args : PlanArgs) (keys : List LedgerKey)
    (observations : List Observation) : Except CliError ArchivalPlan := do
  let entries ← liveEntries crates (keys.zip observations) []
  return ⟨opts.networkPassphrase,currentLedger observations,daysToExtendTo args.ttlDays,entries⟩

/-- The plan of a command, from what was observed. -/
def planOf (crates : Crates) (opts : ConnectOpts) (args : PlanArgs) :
    OperationKind → List LedgerKey → List Observation → Except CliError ArchivalPlan
  | .restore => restorePlan crates opts args
  | .extend => extendPlan crates opts args

/-- A command up to its plan. -/
def buildPlan (tool : Tool σ) (opts : ConnectOpts) (args : PlanArgs) (kind : OperationKind) :
    EStateM CliError (Shell σ) ArchivalPlan := do
  let keys ← Program.ofExcept (planKeys tool.crates.toCrates args)
  connect tool opts
  let observations ← onWorld (Provider.observeEntries tool.crates.toCrates tool.node keys)
  Program.ofExcept (planOf tool.crates.toCrates opts args kind keys observations)

/-- The line a command prints about its plan. -/
def summary (kind : OperationKind) (plan : ArchivalPlan) : String :=
  kind.asStr ++ " plan: " ++ toString plan.len ++ " entr(y/ies), target TTL " ++
    toString plan.extendTo.toNat ++ " ledgers, reference ledger " ++
    toString plan.referenceLedger.toNat

def run (tool : Tool σ) (opts : ConnectOpts) (args : PlanArgs) (kind : OperationKind) :
    EStateM CliError (Shell σ) Unit := do
  let plan ← buildPlan tool opts args kind
  println (summary kind plan)
  emitPlan tool plan args.out

def runPlanRestore (tool : Tool σ) (opts : ConnectOpts) (args : PlanArgs) :
    EStateM CliError (Shell σ) Unit :=
  run tool opts args .restore

def runPlanExtend (tool : Tool σ) (opts : ConnectOpts) (args : PlanArgs) :
    EStateM CliError (Shell σ) Unit :=
  run tool opts args .extend

/-- The command succeeds, and this is the plan it wrote. -/
def Emits (tool : Tool σ) (opts : ConnectOpts) (args : PlanArgs) (kind : OperationKind)
    (s : Shell σ) (plan : ArchivalPlan) (t : Shell σ) : Prop :=
  run tool opts args kind s = .ok () t ∧ ∃ s', buildPlan tool opts args kind s = .ok plan s'

theorem liveEntries_ok {crates : Crates} {observations : List (LedgerKey × Observation)}
    {entries out : List PlanEntry} (h : liveEntries crates observations entries = .ok out)
    (hentries : ∀ e ∈ entries, Rendered crates e) : ∀ e ∈ out, Rendered crates e := by
  induction observations generalizing entries with
  | nil =>
    cases h
    exact hentries
  | cons o observations ih =>
    unfold liveEntries at h
    cases hlive : o.2.asEntryTtl.liveUntilLedgerSeq with
    | none =>
      rw [hlive] at h
      cases h
    | some liveUntil =>
      rw [hlive] at h
      cases hrender : LedgerKeys.render crates o.1 with
      | error e =>
        rw [hrender] at h
        cases h
      | ok keyXdr =>
        rw [hrender] at h
        apply ih h
        intro e he
        rcases List.mem_append.mp he with he|he
        · exact hentries e he
        · cases List.mem_singleton.mp he
          exact ⟨hrender,rfl⟩

/-- What either command makes: the flag's passphrase, the days asked for cut at the built-in
limit, and entries of its own making. -/
theorem planOf_ok {crates : Crates} {opts : ConnectOpts} {args : PlanArgs} {kind : OperationKind}
    {keys : List LedgerKey} {observations : List Observation} {plan : ArchivalPlan}
    (h : planOf crates opts args kind keys observations = .ok plan) :
    plan.networkPassphrase = opts.networkPassphrase ∧
      plan.extendTo = daysToExtendTo args.ttlDays ∧ ∀ e ∈ plan.entries, Rendered crates e := by
  cases kind with
  | extend =>
    obtain ⟨entries,hentries,h⟩ := Program.bind_eq_ok h
    cases Except.ok.inj h
    exact ⟨rfl,rfl,liveEntries_ok hentries (by simp)⟩
  | restore =>
    obtain ⟨_,h⟩ := Program.check_eq_ok h
    obtain ⟨restored,hrestored,h⟩ := Program.bind_eq_ok h
    cases Except.ok.inj h
    obtain ⟨hplan,hpushed⟩ := Planner.planRestore_ok (Program.mapError_eq_ok hrestored)
    have hrendered := rendered_of_pushed (fun _ _ => ⟨rfl,rfl,rfl⟩) hpushed
    refine ⟨by rw [hplan]; rfl,rfl,?_⟩
    intro e he
    obtain ⟨e',he',rfl⟩ := List.mem_map.mp he
    exact hrendered e' he'

theorem buildPlan_ok {tool : Tool σ} {opts : ConnectOpts} {args : PlanArgs} {kind : OperationKind}
    {s t : Shell σ} {plan : ArchivalPlan} (h : buildPlan tool opts args kind s = .ok plan t) :
    t.stdout = s.stdout ∧ t.files = s.files ∧ ∃ keys observations,
      planKeys tool.crates.toCrates args = .ok keys ∧
      planOf tool.crates.toCrates opts args kind keys observations = .ok plan := by
  obtain ⟨keys,s₁,hkeys,hrest⟩ := Program.run_bind h
  obtain ⟨hresolved,rfl⟩ := Program.run_ofExcept hkeys
  obtain ⟨_,s₂,hconnect,hrest'⟩ := Program.run_bind hrest
  obtain ⟨_,rfl⟩ := Program.run_ofExcept hconnect
  obtain ⟨observations,s₃,hobserve,hlast⟩ := Program.run_bind hrest'
  obtain ⟨hplan,rfl⟩ := Program.run_ofExcept hlast
  unfold onWorld at hobserve
  split at hobserve
  · cases hobserve
    exact ⟨rfl,rfl,keys,observations,hresolved,hplan⟩
  · cases hobserve

theorem writeFile_ok {tool : Tool σ} {path text : String} {s t : Shell σ}
    (h : writeFile tool path text s = .ok () t) : tool.writeFile s path text = .written ∧
      t = { s with files := s.files ++ [(path,.whole text)] } := by
  unfold writeFile at h
  split at h
  · next hreply =>
    cases h
    exact ⟨hreply,rfl⟩
  · cases h
  · cases h

/-- The text a command left, in the file it was told to write or on the standard output. -/
def emitted (args : PlanArgs) (t : Shell σ) : String :=
  match args.out with
  | some path =>
    ((t.files.find? fun file => file.1 = path).bind fun file => file.2.read.toOption).getD ""
  | none => t.stdout

/-- What a successful command wrote, from a clean start. -/
theorem emitted_of_emits {tool : Tool σ} {opts : ConnectOpts} {args : PlanArgs}
    {kind : OperationKind} {w : World σ} {plan : ArchivalPlan} {t : Shell σ}
    (h : Emits tool opts args kind ⟨w,"",[]⟩ plan t) :
    ∃ json, planToJson tool.crates plan = .ok json ∧ emitted args t =
      (if args.out.isSome then json ++ "\n"
      else summary kind plan ++ "\n" ++ (json ++ "\n")) := by
  obtain ⟨hrun,s₁,hbuild⟩ := h
  obtain ⟨plan',s₂,hbuild',hrun⟩ := Program.run_bind hrun
  rw [hbuild] at hbuild'
  cases hbuild'
  obtain ⟨hstdout,hfiles,_⟩ := buildPlan_ok hbuild
  obtain ⟨_,s₂,hprint,hemit⟩ := Program.run_bind hrun
  cases hprint
  obtain ⟨json,s₃,hprinted,hwrite⟩ := Program.run_bind hemit
  obtain ⟨hjson,rfl⟩ := Program.run_ofExcept hprinted
  refine ⟨json,Program.mapError_eq_ok hjson,?_⟩
  unfold emitted
  cases hout : args.out with
  | none =>
    rw [hout] at hwrite
    cases hwrite
    simp [hstdout,String.append_assoc]
  | some path =>
    rw [hout] at hwrite
    obtain ⟨_,rfl⟩ := writeFile_ok hwrite
    simp [hfiles,FileText.read,Except.toOption]

end Cli

end SorobanRentKeeper

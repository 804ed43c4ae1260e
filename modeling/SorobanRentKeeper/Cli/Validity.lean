import SorobanRentKeeper.Cli.Command

namespace SorobanRentKeeper

namespace Cli

variable {σ : Type}

/-- The tool, connected to the node of a network. -/
def Tool.on (network : Network σ) (crates : PlanCrates) (newClient : String → Except String Unit)
    (fileAt : String → Option String) (writeFile : Shell σ → String → String → WriteReply) :
    Tool σ :=
  ⟨crates,network.node,newClient,fileAt,writeFile⟩

/-- A plan its network takes: made for it, and with a target within its limit. -/
structure ValidOn (network : Network σ) (plan : ArchivalPlan) : Prop where
  target : plan.extendTo ≤ network.maxEntryTtl
  passphrase : plan.networkPassphrase = network.passphrase

theorem daysToExtendTo_toNat (days : Float) :
    (daysToExtendTo days).toNat =
      min (RiskWindow.fromDays days).alertHorizonLedgers.toNat 6312000 :=
  RiskWindow.extendToLedgers_toNat (RiskWindow.fromDays days) constants

/-- An emitted plan is valid on the network it was observed on exactly when the passphrase on the
command line is the network's, and the days asked for, cut at the built-in limit, are within the
network's own. -/
theorem emits_validOn_iff (network : Network σ) (crates : PlanCrates)
    (newClient : String → Except String Unit) (fileAt : String → Option String)
    (writeFile : Shell σ → String → String → WriteReply) (opts : ConnectOpts) (args : PlanArgs)
    (kind : OperationKind) (s t : Shell σ) (plan : ArchivalPlan)
    (h : Emits (Tool.on network crates newClient fileAt writeFile) opts args kind s plan t) :
    ValidOn network plan ↔
      min (RiskWindow.fromDays args.ttlDays).alertHorizonLedgers.toNat 6312000 ≤
          network.maxEntryTtl.toNat ∧
        opts.networkPassphrase = network.passphrase := by
  obtain ⟨_,_,hbuild⟩ := h
  obtain ⟨_,_,_,_,_,hplan⟩ := buildPlan_ok hbuild
  obtain ⟨hpassphrase,hextend,_⟩ := planOf_ok hplan
  rw [← daysToExtendTo_toNat,← hextend,← hpassphrase,← UInt32.le_iff_toNat_le]
  constructor
  · intro hvalid
    exact ⟨hvalid.target,hvalid.passphrase⟩
  · intro hcond
    exact ⟨hcond.1,hcond.2⟩

/-- The sample data entry, for 30 days. -/
def sampleArgs (out : Option String) : PlanArgs :=
  ⟨"CAAAAAAAAAAAAAAAAAAAAAAAAAAAAAAAAAAAAAAAAAAAAAAAAAAABSC4",["AAAAAwAAAAc="],"temporary",30.0,out⟩

/-- Two spellings of a path in the working directory. -/
def sampleFileAt (path : String) : Option String :=
  match path.toList with
  | '.' :: '/' :: rest => some (String.ofList rest)
  | _ => some path

/-- The sample tool, on the public network, with a disk that takes everything. -/
def sampleTool (maxEntryTtl : UInt32) : Tool Unit :=
  Tool.on (publicNetwork maxEntryTtl) sampleFiles (fun _ => .ok ()) sampleFileAt
    fun _ _ _ => .written

def flagged (passphrase : String) : ConnectOpts :=
  ConnectOpts.parse none none (some passphrase) none

/-- What `plan-extend` builds of the sample data entry. -/
def extendedPlan (passphrase : String) : ArchivalPlan :=
  ⟨passphrase,100,518400,
    [⟨dataKey,"AAAABgAAAAEAAAAAAAAAAAAAAAAAAAAAAAAAAAAAAAAAAAAAAAAAAAAAAAMAAAAHAAAAAA==",.extend,
      some .temporary,⟨100,some 150⟩⟩]⟩

/-- What running it leaves. -/
def extendedShell (maxEntryTtl : UInt32) (opts : ConnectOpts) : Shell Unit :=
  Program.final (run (sampleTool maxEntryTtl) opts (sampleArgs none) .extend ⟨emptyWorld,"",[]⟩)

theorem emits_flagged :
    Emits (sampleTool 3110400) (flagged "Public Global Stellar Network ; September 2015")
      (sampleArgs none) .extend ⟨emptyWorld,"",[]⟩
      (extendedPlan "Public Global Stellar Network ; September 2015")
      (extendedShell 3110400 (flagged "Public Global Stellar Network ; September 2015")) :=
  ⟨Program.eq_ok_of_value (by decide +kernel),_,Program.eq_ok_of_value (by decide +kernel)⟩

theorem emits_default :
    Emits (sampleTool 100000) (ConnectOpts.parse none none none none) (sampleArgs none) .extend
      ⟨emptyWorld,"",[]⟩ (extendedPlan "Test SDF Network ; September 2015")
      (extendedShell 100000 (ConnectOpts.parse none none none none)) :=
  ⟨Program.eq_ok_of_value (by decide +kernel),_,Program.eq_ok_of_value (by decide +kernel)⟩

theorem emits_validOn_iff_public :
    ValidOn (publicNetwork 3110400)
        (extendedPlan "Public Global Stellar Network ; September 2015") ↔
      min (RiskWindow.fromDays 30.0).alertHorizonLedgers.toNat 6312000 ≤
          (publicNetwork 3110400).maxEntryTtl.toNat ∧
        (flagged "Public Global Stellar Network ; September 2015").networkPassphrase =
          (publicNetwork 3110400).passphrase :=
  emits_validOn_iff (publicNetwork 3110400) sampleFiles (fun _ => .ok ()) sampleFileAt
    (fun _ _ _ => .written) _ (sampleArgs none) .extend _ _ _ emits_flagged

/-- On a network whose limit is 100000 ledgers, and without the flag. -/
theorem emits_not_validOn : ¬∀ (network : Network Unit) (crates : PlanCrates)
    (newClient : String → Except String Unit) (fileAt : String → Option String)
    (writeFile : Shell Unit → String → String → WriteReply) (opts : ConnectOpts) (args : PlanArgs)
    (kind : OperationKind) (s t : Shell Unit) (plan : ArchivalPlan),
    Emits (Tool.on network crates newClient fileAt writeFile) opts args kind s plan t →
      ValidOn network plan := by
  intro h
  have hvalid := h (publicNetwork 100000) sampleFiles (fun _ => .ok ()) sampleFileAt
    (fun _ _ _ => .written) _ (sampleArgs none) .extend _ _ _ emits_default
  exact absurd hvalid.target (by decide)

end Cli

end SorobanRentKeeper

import SorobanRentKeeper.Cli.Verdicts
import SorobanRentKeeper.Core.Signed

namespace SorobanRentKeeper

open Program

variable {σ : Type}

namespace Cli

/-- The keys a command plans: all of its own, or those that need a restore. -/
def planned : OperationKind → List LedgerKey → List Observation → List LedgerKey
  | .extend,keys,_ => keys
  | .restore,keys,observations => keysWhere Observation.needsRestore keys observations

/-- A plan is about the keys planned, and every entry asks for the command's operation. -/
theorem planOf_planned {crates : Crates} {opts : ConnectOpts} {args : PlanArgs}
    {kind : OperationKind} {keys : List LedgerKey} {observations : List Observation}
    {plan : ArchivalPlan} (h : planOf crates opts args kind keys observations = .ok plan)
    (hfst : (keys.zip observations).map Prod.fst = keys) :
    plan.footprint = planned kind keys observations ∧ ∀ e ∈ plan.entries, e.kind = kind := by
  cases kind with
  | extend =>
    obtain ⟨entries,hentries,h⟩ := bind_eq_ok h
    cases Except.ok.inj h
    obtain ⟨_,made,rfl,hmade⟩ := liveEntries_spec hentries
    refine ⟨(keys_of_pushed (fun _ _ => rfl) hmade).trans hfst,?_⟩
    refine forall₂_right hmade ?_
    intro o _ e he
    obtain ⟨keyXdr,_,rfl⟩ := he
    rfl
  | restore =>
    obtain ⟨_,h⟩ := check_eq_ok h
    obtain ⟨restored,hrestored,h⟩ := bind_eq_ok h
    cases Except.ok.inj h
    have hrestored := mapError_eq_ok hrestored
    constructor
    · have hsame : restored.footprint = planned .restore keys observations := by
        rw [Planner.planRestore_keys hrestored]
        exact archivedEntries_kept keys observations
      rw [← hsame]
      simp [ArchivalPlan.footprint]
    · intro e he
      obtain ⟨e',he',rfl⟩ := List.mem_map.mp he
      refine forall₂_right (P := fun e => e.kind = .restore)
        (Planner.planRestore_ok hrestored).2 ?_ e' he'
      intro o _ e hpushed
      obtain ⟨keyXdr,_,rfl⟩ := hpushed
      rfl

/-- How a plan came about. -/
theorem buildPlan_observed {tool : Tool σ} {opts : ConnectOpts} {args : PlanArgs}
    {kind : OperationKind} {s t : Shell σ} {plan : ArchivalPlan}
    (h : buildPlan tool opts args kind s = .ok plan t) :
    ∃ keys observations d, planKeys tool.crates.toCrates args = .ok keys ∧
      t.world.log = s.world.log ++ d ∧
      List.Forall₂ (Provider.Observed tool.crates.toCrates d) keys observations ∧
      planOf tool.crates.toCrates opts args kind keys observations = .ok plan := by
  obtain ⟨keys,s₁,hkeys,hrest⟩ := run_bind h
  obtain ⟨hresolved,rfl⟩ := run_ofExcept hkeys
  obtain ⟨_,s₂,hconnect,hrest'⟩ := run_bind hrest
  obtain ⟨_,rfl⟩ := run_ofExcept hconnect
  obtain ⟨observations,s₃,hobserve,hlast⟩ := run_bind hrest'
  obtain ⟨hplan,rfl⟩ := run_ofExcept hlast
  obtain ⟨d,hlog,⟨_,_,hall⟩,_,_⟩ := (onWorld_traced (Provider.observeEntries_traced
    tool.crates.toCrates tool.node keys _)).ok hobserve
  exact ⟨keys,observations,d,hresolved,hlog,hall,hplan⟩

/-- What a command that was given a file has written there. -/
theorem run_written {tool : Tool σ} {opts : ConnectOpts} {args : PlanArgs} {kind : OperationKind}
    {s t : Shell σ} {path : String} (hout : args.out = some path)
    (h : run tool opts args kind s = .ok () t) :
    ∃ plan json u, buildPlan tool opts args kind s = .ok plan u ∧ t.world = u.world ∧
      planToJson tool.crates plan = .ok json ∧
      t.files = s.files ++ [(path,.whole (json ++ "\n"))] := by
  obtain ⟨plan,u,hbuild,hrest⟩ := run_bind h
  obtain ⟨_,v,hprint,hemit⟩ := run_bind hrest
  cases hprint
  obtain ⟨json,v,hprinted,hwrite⟩ := run_bind hemit
  obtain ⟨hjson,rfl⟩ := run_ofExcept hprinted
  rw [hout] at hwrite
  obtain ⟨_,rfl⟩ := writeFile_ok hwrite
  obtain ⟨_,hfiles,_⟩ := buildPlan_ok hbuild
  refine ⟨plan,json,u,hbuild,rfl,mapError_eq_ok hjson,?_⟩
  exact congrArg (fun files => files ++ [(path,FileText.whole (json ++ "\n"))]) hfiles

/-- What was written last to an ordinary file is what its path reads as. -/
theorem readPath_concat {tool : Tool σ} {s t : Shell σ} {path text : String}
    (h : t.files = s.files ++ [(path,.whole text)]) (hpath : path ≠ "-")
    (hfile : tool.fileAt path ≠ none) (before : String → Except String String) :
    readPath tool before path t = .ok text := by
  obtain ⟨file,hfile⟩ := Option.ne_none_iff_exists'.mp hfile
  have hlast : lastWritten tool t path = some (.whole text) := by
    unfold lastWritten
    rw [hfile,h,List.map_append,List.map_singleton,hfile]
    exact LastWrite.last_concat _ (some file) _
  exact (readPath_of_written hpath hlast).2

/-- What a signer makes of a plan that a command wrote for these observations. -/
structure HandedOver (crates : Crates) (opts : ConnectOpts) (args : PlanArgs)
    (kind : OperationKind) (keys : List LedgerKey) (observations : List Observation)
    (builder : TxBuilder) (signingKey : Bytes32) (seqNum : Int64) (plan : ArchivalPlan) :
    Prop where
  network : plan.networkPassphrase = opts.networkPassphrase
  target : plan.extendTo = daysToExtendTo args.ttlDays
  signs : (∃ envelope, builder.buildSigned crates plan signingKey seqNum = .ok envelope) ↔
    (planned kind keys observations ≠ [] ∧ (planned kind keys observations).length ≤ 100) ∧
      ∃ hash, builder.HashableAs crates plan signingKey seqNum hash
  signed : ∀ envelope, builder.buildSigned crates plan signingKey seqNum = .ok envelope →
    ∃ inner hash, envelope = .tx inner ∧
      builder.SignedFor crates plan signingKey seqNum hash inner ∧
      inner.tx.operations.val = [⟨none,plan.operation kind⟩] ∧
      envelope.footprintKeys = planned kind keys observations

theorem handedOver_of_planOf {crates : Crates} {opts : ConnectOpts} {args : PlanArgs}
    {kind : OperationKind} {keys : List LedgerKey} {observations : List Observation}
    {plan : ArchivalPlan} (h : planOf crates opts args kind keys observations = .ok plan)
    (hfst : (keys.zip observations).map Prod.fst = keys) (builder : TxBuilder)
    (signingKey : Bytes32) (seqNum : Int64) :
    HandedOver crates opts args kind keys observations builder signingKey seqNum plan := by
  obtain ⟨hnetwork,htarget,_⟩ := planOf_ok h
  obtain ⟨hkeys,hkinds⟩ := planOf_planned h hfst
  refine ⟨hnetwork,htarget,?_,?_⟩
  · rw [TxBuilder.buildSigned_iff,← hkeys,← ArchivalPlan.length_footprint,List.length_pos_iff]
  · intro envelope henvelope
    obtain ⟨inner,hash,rfl,hsigned⟩ := TxBuilder.buildSigned_ok henvelope
    obtain ⟨first,hfirst,hoperations⟩ := hsigned.operation
    rw [hkinds first (List.mem_of_mem_head? hfirst)] at hoperations
    exact ⟨inner,hash,rfl,hsigned,hoperations,hsigned.footprint.trans hkeys⟩

/-- From the command line to the signature: the text a command has written to the file it was given
is what that path then reads as, and is read back as a plan, and signing that plan gives one
transaction for the operation, the target and just the keys of the command that were observed to
need it, whenever there are at most a hundred of them. -/
theorem run_handedOver (tool : Tool σ) (hjson : tool.crates.ReadsJson)
    (hdecodes : tool.crates.DecodesKeys) (opts : ConnectOpts) (args : PlanArgs)
    (kind : OperationKind) (s t : Shell σ) (path : String) (hout : args.out = some path)
    (h : run tool opts args kind s = .ok () t) (builder : TxBuilder) (signingKey : Bytes32)
    (seqNum : Int64) :
    ∃ keys observations d text plan, planKeys tool.crates.toCrates args = .ok keys ∧
      t.world.log = s.world.log ++ d ∧
      List.Forall₂ (Provider.Observed tool.crates.toCrates d) keys observations ∧
      t.files = s.files ++ [(path,.whole text)] ∧
      (path ≠ "-" → tool.fileAt path ≠ none → ∀ before, readPath tool before path t = .ok text) ∧
      readPlan tool.crates path (.ok text) = .ok plan ∧
      HandedOver tool.crates.toCrates opts args kind keys observations builder signingKey seqNum
        plan := by
  obtain ⟨plan,json,u,hbuild,hworld,hprint,hwritten⟩ := run_written hout h
  obtain ⟨keys,observations,d,hkeys,hlog,hall,hplan⟩ := buildPlan_observed hbuild
  have hconsistent := selfConsistent_of_rendered hdecodes (planOf_ok hplan).2.2
  have hback := planFromJson_printed hjson hconsistent hprint
  have hfst : (keys.zip observations).map Prod.fst = keys :=
    List.map_fst_zip (Nat.le_of_eq hall.length_eq)
  rw [← hworld] at hlog
  exact ⟨keys,observations,d,_,plan,hkeys,hlog,hall,hwritten,readPath_concat hwritten,
    readPlan_eq_ok.mpr hback,handedOver_of_planOf hplan hfst builder signingKey seqNum⟩

/-- What extending the sample data entry into a file leaves. -/
def handedShell : Shell Unit :=
  final (run (sampleTool 100000) (flagged "Test SDF Network ; September 2015")
    (sampleArgs (some "plan.json")) .extend ⟨emptyWorld,"",[]⟩)

theorem run_handedOver_sample : ∃ keys observations d text plan,
    planKeys sampleFiles.toCrates (sampleArgs (some "plan.json")) = .ok keys ∧
    handedShell.world.log = [] ++ d ∧
    List.Forall₂ (Provider.Observed sampleFiles.toCrates d) keys observations ∧
    handedShell.files = [] ++ [("plan.json",.whole text)] ∧
    ("plan.json" ≠ "-" → (sampleTool 100000).fileAt "plan.json" ≠ none →
      ∀ before, readPath (sampleTool 100000) before "plan.json" handedShell = .ok text) ∧
    readPlan sampleFiles "plan.json" (.ok text) = .ok plan ∧
    HandedOver sampleFiles.toCrates (flagged "Test SDF Network ; September 2015")
      (sampleArgs (some "plan.json")) .extend keys observations
      (TxBuilder.new "Test SDF Network ; September 2015") (Vector.replicate 32 0) 8 plan :=
  run_handedOver (sampleTool 100000) readsJson_sampleFiles decodesKeys_sampleFiles
    (flagged "Test SDF Network ; September 2015") (sampleArgs (some "plan.json")) .extend
    ⟨emptyWorld,"",[]⟩ handedShell "plan.json" rfl (eq_ok_of_value (by decide +kernel))
    (TxBuilder.new "Test SDF Network ; September 2015") (Vector.replicate 32 0) 8

end Cli

end SorobanRentKeeper

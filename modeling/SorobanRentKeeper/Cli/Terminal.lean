import SorobanRentKeeper.Cli.Inspect
import SorobanRentKeeper.Cli.Readback
import SorobanRentKeeper.Framework.LastWrite

namespace SorobanRentKeeper

open Program

variable {σ : Type}

namespace Cli

/-- `Command` of cli.rs. -/
inductive Command where
  | inspect (args : InspectArgs)
  | planRestore (args : PlanArgs)
  | planExtend (args : PlanArgs)
  | showPlan (plan : String)

/-- The file a command was told to write. -/
def Command.out : Command → Option String
  | .planRestore args => args.out
  | .planExtend args => args.out
  | _ => none

/-- What the tool last wrote to the ordinary file that a path leads to, by whatever path. -/
def lastWritten (tool : Tool σ) (s : Shell σ) (path : String) : Option FileText :=
  (tool.fileAt path).bind fun file =>
    LastWrite.last (s.files.map fun written => (tool.fileAt written.1,some written.2)) (some file)

/-- What reading a path gives, where nobody else writes: what the tool left in its file, else what
was there before. The standard input is no file. -/
def readPath (tool : Tool σ) (before : String → Except String String) (path : String)
    (s : Shell σ) : Except String String :=
  if path = "-" then before path
  else match lastWritten tool s path with
    | some left => left.read
    | none => before path

/-- `run` of main.rs. -/
def runCommand (profile : Profile) (tool : Tool σ) (before : String → Except String String)
    (opts : ConnectOpts) : Command → EStateM (Fault CliError) (Shell σ) Unit
  | .inspect args => Cli.inspect profile tool opts args
  | .planRestore args => EStateM.adaptExcept .failed (runPlanRestore tool opts args)
  | .planExtend args => EStateM.adaptExcept .failed (runPlanExtend tool opts args)
  | .showPlan path => fun s =>
    Cli.showPlan profile tool.crates path (readPath tool before path s) s

/-- The exit code of `main`; a panic ends the process with its own. -/
def exitCode : EStateM.Result (Fault CliError) (Shell σ) Unit → Nat
  | .ok _ _ => 0
  | .error (.failed _) _ => 1
  | .error .panicked _ => 101

/-- Commands one after the other, whatever their exit codes. -/
def runSession (profile : Profile) (tool : Tool σ) (before : String → Except String String) :
    List (ConnectOpts × Command) → Shell σ → List Nat × Shell σ
  | [],s => ([],s)
  | c::commands,s =>
    let result := runCommand profile tool before c.1 c.2 s
    let rest := runSession profile tool before commands (final result)
    (exitCode result::rest.1,rest.2)

/-- A plan as the tool makes them: the texts are those of the keys, and no TTL has passed. -/
structure Presentable (crates : PlanCrates) (plan : ArchivalPlan) : Prop where
  rendered : ∀ e ∈ plan.entries, Rendered crates.toCrates e
  settled : ∀ e ∈ plan.entries, ¬e.ttl.Underflows

def PlanText (crates : PlanCrates) (text : String) : Prop :=
  ∃ plan json, Presentable crates plan ∧ planToJson crates plan = .ok json ∧ text = json ++ "\n"

theorem asEntryTtl_of_sound {o : Observation} (h : Sound o) : ¬o.asEntryTtl.Underflows := by
  intro hunder
  unfold Observation.asEntryTtl at hunder
  cases hentry : o.entry with
  | live ttl =>
    rw [hentry] at hunder
    exact (h ttl hentry).1.not_underflows hunder
  | expiredButPresent info =>
    rw [hentry] at hunder
    obtain ⟨_,hnone,_⟩ := hunder
    cases hnone
  | archived info =>
    rw [hentry] at hunder
    obtain ⟨_,hnone,_⟩ := hunder
    cases hnone

def liveEntry (o : LedgerKey × Observation) (keyXdr : String) : PlanEntry :=
  ⟨o.1,keyXdr,.extend,durabilityOf o.1,o.2.asEntryTtl⟩

/-- What `plan-extend` has gone through: all of it is live, and its entries are made of it. -/
theorem liveEntries_spec {crates : Crates} {observations : List (LedgerKey × Observation)}
    {entries out : List PlanEntry} (h : liveEntries crates observations entries = .ok out) :
    (∀ o ∈ observations, o.2.needsRestore = false) ∧
      ∃ made, out = entries ++ made ∧
        List.Forall₂ (PushedFrom crates liveEntry) observations made := by
  induction observations generalizing entries with
  | nil =>
    cases h
    exact ⟨by simp,[],(List.append_nil _).symm,.nil⟩
  | cons o observations ih =>
    unfold liveEntries at h
    cases hlive : o.2.asEntryTtl.liveUntilLedgerSeq with
    | none =>
      rw [hlive] at h
      cases h
    | some liveUntil =>
      rw [hlive] at h
      cases hrender : LedgerKeys.render crates o.1 with
      | error err =>
        rw [hrender] at h
        cases h
      | ok keyXdr =>
        rw [hrender] at h
        obtain ⟨hlater,made,hout,hmade⟩ := ih h
        have hhere : o.2.needsRestore = false := by
          unfold Observation.asEntryTtl at hlive
          unfold Observation.needsRestore
          cases hentry : o.2.entry with
          | live ttl => rfl
          | expiredButPresent info =>
            rw [hentry] at hlive
            cases hlive
          | archived info =>
            rw [hentry] at hlive
            cases hlive
        refine ⟨List.forall_mem_cons.mpr ⟨hhere,hlater⟩,_,?_,.cons ⟨keyXdr,hrender,rfl⟩ hmade⟩
        rw [hout,List.append_assoc,List.singleton_append]
        rfl

theorem planOf_presentable {crates : PlanCrates} {opts : ConnectOpts} {args : PlanArgs}
    {kind : OperationKind} {keys : List LedgerKey} {observations : List Observation}
    {plan : ArchivalPlan} (h : planOf crates.toCrates opts args kind keys observations = .ok plan)
    (hsound : ∀ o ∈ keys.zip observations, Sound o.2) : Presentable crates plan := by
  refine ⟨(planOf_ok h).2.2,?_⟩
  cases kind with
  | extend =>
    obtain ⟨entries,hentries,h⟩ := bind_eq_ok h
    cases Except.ok.inj h
    obtain ⟨_,made,rfl,hmade⟩ := liveEntries_spec hentries
    refine forall₂_right hmade ?_
    intro o ho e he
    obtain ⟨keyXdr,_,rfl⟩ := he
    exact asEntryTtl_of_sound (hsound o ho)
  | restore =>
    obtain ⟨_,h⟩ := check_eq_ok h
    obtain ⟨restored,_,h⟩ := bind_eq_ok h
    cases Except.ok.inj h
    intro e he hunder
    obtain ⟨_,_,rfl⟩ := List.mem_map.mp he
    obtain ⟨_,hnone,_⟩ := hunder
    cases hnone

theorem onlyReads_nil : Provider.OnlyReads [] := by simp [Provider.OnlyReads]

theorem buildPlan_traced (tool : Tool σ) (opts : ConnectOpts) (args : PlanArgs)
    (kind : OperationKind) (s : Shell σ) :
    Traced (fun s : Shell σ => s.world.log) (buildPlan tool opts args kind) s
      (fun plan d t => (Untouched s d t ∧ t.stdout = s.stdout) ∧ Presentable tool.crates plan)
      (fun _ d t => Untouched s d t ∧ t.stdout = s.stdout) := by
  have hstart : Untouched s [] s := ⟨onlyReads_nil,rfl,rfl⟩
  unfold buildPlan
  refine traced_ofExcept_bind ?_ (fun _ _ => ⟨hstart,rfl⟩)
  intro keys _
  unfold connect
  refine traced_ofExcept_bind ?_ (fun _ _ => ⟨hstart,rfl⟩)
  intro _ _
  refine Traced.bind (onWorld_traced
    (Provider.observeEntries_traced tool.crates.toCrates tool.node keys s.world)) ?_ ?_
  · intro observations d t h
    obtain ⟨⟨hsequence,hreads,hall⟩,hstdout,hfiles⟩ := h
    have huntouched : Untouched s (d ++ []) t := ⟨by simpa using hreads,hsequence,hfiles⟩
    refine traced_ofExcept ?_ (fun _ _ => ⟨huntouched,hstdout⟩)
    intro plan hplan
    exact ⟨⟨huntouched,hstdout⟩,planOf_presentable hplan (sound_of_observed hall)⟩
  · intro _ d t h
    obtain ⟨⟨_,hsequence,hreads,_⟩,hstdout,hfiles⟩ := h
    exact ⟨⟨hreads,hsequence,hfiles⟩,hstdout⟩

/-- The text a planning command has for its file, where it builds a plan. -/
def madeText (tool : Tool σ) (opts : ConnectOpts) (args : PlanArgs) (kind : OperationKind)
    (s : Shell σ) : Option String :=
  match buildPlan tool opts args kind s with
  | .ok plan _ => (planToJson tool.crates plan).toOption.map fun json => json ++ "\n"
  | .error _ _ => none

def Command.text (tool : Tool σ) (opts : ConnectOpts) (s : Shell σ) : Command → Option String
  | .planRestore args => madeText tool opts args .restore s
  | .planExtend args => madeText tool opts args .extend s
  | _ => none

/-- The exit code and the files that the system's answer to a write leads to. -/
def leaves (files : List (String × FileText)) (path text : String) :
    WriteReply → Nat × List (String × FileText)
  | .written => (0,files ++ [(path,.whole text)])
  | .unopened _ => (1,files)
  | .brokenOff _ left => (1,files ++ [(path,.brokenOff left)])

/-- What a command did to the files. Told to write one, it asks the system to write the text of
its plan, all printing done, and the answer decides; it touches none where it was told no file, or
has no text and fails. -/
inductive Wrote (tool : Tool σ) (opts : ConnectOpts) (command : Command) (code : Nat)
    (s t : Shell σ) : Prop where
  | told {path text : String} (hout : command.out = some path)
      (htext : command.text tool opts s = some text) (hplan : PlanText tool.crates text)
      (hleft : (code,t.files) =
        leaves s.files path text (tool.writeFile { t with files := s.files } path text))
  | untold (hout : command.out = none ∨ command.text tool opts s = none ∧ code = 1)
      (hfiles : t.files = s.files)

/-- What a command did to the world outside: it read from the node, added to the standard output,
and wrote at most the file it was told to. -/
structure Outcome (tool : Tool σ) (opts : ConnectOpts) (command : Command) (code : Nat)
    (s : Shell σ) (d : List Event) (t : Shell σ) : Prop where
  reads : Provider.OnlyReads d
  sequence : t.world.sequence = s.world.sequence
  stdout : ∃ text, t.stdout = s.stdout ++ text
  files : Wrote tool opts command code s t
  calm : code = 101 → ∃ path, command = .showPlan path

theorem Outcome.of_untouched {tool : Tool σ} {opts : ConnectOpts} {command : Command} {code : Nat}
    {s t : Shell σ} {d : List Event} (h : Untouched s d t)
    (hstdout : ∃ text, t.stdout = s.stdout ++ text)
    (hout : command.out = none ∨ command.text tool opts s = none ∧ code = 1)
    (hcalm : code = 101 → ∃ path, command = .showPlan path) :
    Outcome tool opts command code s d t :=
  ⟨h.reads,h.sequence,hstdout,.untold hout h.files,hcalm⟩

/-- What is done with a plan, by the exit code it leads to. -/
structure EmittedTo (tool : Tool σ) (plan : ArchivalPlan) (out : Option String) (code : Nat)
    (u v : Shell σ) : Prop where
  world : v.world = u.world
  stdout : ∃ text, v.stdout = u.stdout ++ text
  files : v.files = u.files ∧
      (out = none ∨ (planToJson tool.crates plan).toOption = none ∧ code = 1) ∨
    ∃ path json, out = some path ∧ planToJson tool.crates plan = .ok json ∧
      { v with files := u.files } = u ∧ (code,v.files) =
        leaves u.files path (json ++ "\n") (tool.writeFile u path (json ++ "\n"))

theorem writeFile_spec (tool : Tool σ) (path text : String) (u : Shell σ) :
    Spec (writeFile tool path text) u
      (fun _ v => { v with files := u.files } = u ∧
        (0,v.files) = leaves u.files path text (tool.writeFile u path text))
      (fun _ v => { v with files := u.files } = u ∧
        (1,v.files) = leaves u.files path text (tool.writeFile u path text)) := by
  unfold Spec writeFile
  cases tool.writeFile u path text with
  | written => exact ⟨rfl,rfl⟩
  | unopened e => exact ⟨rfl,rfl⟩
  | brokenOff e left => exact ⟨rfl,rfl⟩

theorem emitPlan_spec (tool : Tool σ) (plan : ArchivalPlan) (out : Option String) (u : Shell σ) :
    Spec (emitPlan tool plan out) u (fun _ v => EmittedTo tool plan out 0 u v)
      (fun _ v => EmittedTo tool plan out 1 u v) := by
  unfold emitPlan
  refine spec_ofExcept_bind ?_ ?_
  · intro json hjson
    cases out with
    | none => exact ⟨rfl,⟨json ++ "\n",rfl⟩,.inl ⟨rfl,.inl rfl⟩⟩
    | some path =>
      have hemitted {code : Nat} {v : Shell σ} (hsame : { v with files := u.files } = u)
          (hleft : (code,v.files) =
            leaves u.files path (json ++ "\n") (tool.writeFile u path (json ++ "\n"))) :
          EmittedTo tool plan (some path) code u v := by
        have hworld : v.world = u.world := by rw [← hsame]
        have hstdout : v.stdout = u.stdout := by rw [← hsame]
        exact ⟨hworld,⟨"",by rw [hstdout,String.append_empty]⟩,
          .inr ⟨path,json,rfl,mapError_eq_ok hjson,hsame,hleft⟩⟩
      exact Spec.mono (writeFile_spec tool path (json ++ "\n") u) (fun _ _ h => hemitted h.1 h.2)
        (fun _ _ h => hemitted h.1 h.2)
  · intro err herr
    refine ⟨rfl,⟨"",String.append_empty.symm⟩,.inl ⟨rfl,.inr ⟨?_,rfl⟩⟩⟩
    cases hjson : planToJson tool.crates plan with
    | ok json =>
      rw [hjson] at herr
      cases herr
    | error e => rfl

theorem EmittedTo.outcome {tool : Tool σ} {opts : ConnectOpts} {args : PlanArgs}
    {kind : OperationKind} {command : Command} {code : Nat} {s t v : Shell σ} {d : List Event}
    {plan : ArchivalPlan} {line : String} (hout : command.out = args.out)
    (htext : command.text tool opts s = madeText tool opts args kind s)
    (hbuild : buildPlan tool opts args kind s = .ok plan t) (huntouched : Untouched s d t)
    (hstdout : t.stdout = s.stdout) (hplan : Presentable tool.crates plan) (hcode : code ≠ 101)
    (h : EmittedTo tool plan args.out code { t with stdout := t.stdout ++ line } v) :
    Outcome tool opts command code s d v := by
  have hmade : command.text tool opts s =
      (planToJson tool.crates plan).toOption.map fun json => json ++ "\n" := by
    rw [htext]
    unfold madeText
    rw [hbuild]
  obtain ⟨text,hprinted⟩ := h.stdout
  refine ⟨huntouched.reads,?_,⟨line ++ text,?_⟩,?_,fun h => absurd h hcode⟩
  · rw [h.world]
    exact huntouched.sequence
  · rw [hprinted,hstdout,String.append_assoc]
  · rcases h.files with ⟨hfiles,hnone⟩|⟨path,json,hpath,hjson,hsame,hleft⟩
    · refine .untold ?_ (hfiles.trans huntouched.files)
      rcases hnone with hnone|⟨hnone,hone⟩
      · exact .inl (hout.trans hnone)
      · exact .inr ⟨by rw [hmade,hnone]; rfl,hone⟩
    · refine .told (hout.trans hpath) (by rw [hmade,hjson]; rfl) ⟨plan,json,hplan,hjson,rfl⟩ ?_
      rw [← huntouched.files]
      exact hleft.trans (congrArg (fun u =>
        leaves t.files path (json ++ "\n") (tool.writeFile u path (json ++ "\n"))) hsame.symm)

/-- The two planning commands: the file is the last thing they do. -/
theorem run_outcome (tool : Tool σ) (opts : ConnectOpts) (args : PlanArgs) (kind : OperationKind)
    (s : Shell σ) {command : Command} (hout : command.out = args.out)
    (htext : command.text tool opts s = madeText tool opts args kind s) :
    Traced (fun s : Shell σ => s.world.log) (run tool opts args kind) s
      (fun _ d t => Outcome tool opts command 0 s d t)
      (fun _ d t => Outcome tool opts command 1 s d t) := by
  have htraced := buildPlan_traced tool opts args kind s
  unfold Traced Spec run
  cases hbuild : buildPlan tool opts args kind s with
  | error err t =>
    obtain ⟨d,hlog,huntouched,hstdout⟩ := spec_of_error htraced hbuild
    rw [bind_of_error _ hbuild]
    refine ⟨d,hlog,.of_untouched huntouched ⟨"",by rw [hstdout,String.append_empty]⟩
      (.inr ⟨?_,rfl⟩) fun h => by cases h⟩
    rw [htext]
    unfold madeText
    rw [hbuild]
  | ok plan t =>
    obtain ⟨d,hlog,⟨huntouched,hstdout⟩,hplan⟩ := spec_of_ok htraced hbuild
    rw [bind_of_ok _ hbuild]
    refine Spec.mono (emitPlan_spec tool plan args.out
      { t with stdout := t.stdout ++ (summary kind plan ++ "\n") }) ?_ ?_
    · intro _ v h
      exact ⟨d,(congrArg World.log h.world).trans hlog,
        h.outcome hout htext hbuild huntouched hstdout hplan (by decide)⟩
    · intro _ v h
      exact ⟨d,(congrArg World.log h.world).trans hlog,
        h.outcome hout htext hbuild huntouched hstdout hplan (by decide)⟩

structure Prints (s : Shell σ) (d : List Event) (t : Shell σ) : Prop where
  silent : d = []
  world : t.world = s.world
  files : t.files = s.files
  stdout : ∃ text, t.stdout = s.stdout ++ text

theorem Prints.refl (s : Shell σ) : Prints s [] s :=
  ⟨rfl,rfl,rfl,"",String.append_empty.symm⟩

theorem Prints.trans {s t u : Shell σ} {d d' : List Event} (h : Prints s d t)
    (h' : Prints t d' u) : Prints s (d ++ d') u := by
  obtain ⟨text,htext⟩ := h.stdout
  obtain ⟨text',htext'⟩ := h'.stdout
  refine ⟨by rw [h.silent,h'.silent]; rfl,h'.world.trans h.world,h'.files.trans h.files,?_⟩
  exact ⟨text ++ text',by rw [htext',htext,String.append_assoc]⟩

def Printing {α : Type} (x : EStateM (Fault CliError) (Shell σ) α) : Prop :=
  ∀ s, Traced (fun s : Shell σ => s.world.log) x s (fun _ d t => Prints s d t)
    (fun _ d t => Prints s d t)

theorem Printing.bind {α β : Type} {x : EStateM (Fault CliError) (Shell σ) α}
    {f : α → EStateM (Fault CliError) (Shell σ) β} (h : Printing x) (hf : ∀ a, Printing (f a)) :
    Printing (x >>= f) := by
  intro s
  refine Traced.bind (h s) ?_ (fun _ _ _ h => h)
  intro a d t hprints
  exact Traced.mono (hf a t) (fun _ _ _ h => hprints.trans h) (fun _ _ _ h => hprints.trans h)

theorem printing_ofExcept {α : Type} (x : Except (Fault CliError) α) :
    Printing (Program.ofExcept x : EStateM (Fault CliError) (Shell σ) α) :=
  fun s => traced_ofExcept (fun _ _ => Prints.refl s) (fun _ _ => Prints.refl s)

theorem printing_printLine (line : String) : Printing (printLine (σ := σ) line) :=
  fun _ => traced_modify rfl ⟨rfl,rfl,rfl,_,rfl⟩

theorem printing_showEntries (profile : Profile) (index : Nat) (entries : List PlanEntry) :
    Printing (showEntries (σ := σ) profile index entries) := by
  induction entries generalizing index with
  | nil => exact fun s => traced_pure (Prints.refl s)
  | cons e entries ih =>
    refine (printing_ofExcept _).bind fun remaining => ?_
    refine (printing_printLine _).bind fun _ => ?_
    exact (printing_printLine _).bind fun _ => ih (index + 1)

theorem printing_showPlan (profile : Profile) (crates : PlanCrates) (path : String)
    (input : Except String String) : Printing (showPlan (σ := σ) profile crates path input) := by
  refine (printing_ofExcept _).bind fun plan => ?_
  refine (printing_printLine _).bind fun _ => ?_
  refine (printing_printLine _).bind fun _ => ?_
  refine (printing_printLine _).bind fun _ => ?_
  refine (printing_printLine _).bind fun _ => ?_
  refine (printing_printLine _).bind fun _ => ?_
  refine (printing_printLine _).bind fun _ => ?_
  exact printing_showEntries profile 0 plan.entries

theorem Prints.outcome {tool : Tool σ} {opts : ConnectOpts} {path : String} {code : Nat}
    {s t : Shell σ} {d : List Event} (h : Prints s d t) :
    Outcome tool opts (.showPlan path) code s d t := by
  refine .of_untouched ⟨?_,by rw [h.world],h.files⟩ h.stdout (.inl rfl) fun _ => ⟨path,rfl⟩
  rw [h.silent]
  exact onlyReads_nil

theorem runCommand_outcome (profile : Profile) (tool : Tool σ)
    (before : String → Except String String) (opts : ConnectOpts) (command : Command)
    (s : Shell σ) : ∃ d,
      (final (runCommand profile tool before opts command s)).world.log = s.world.log ++ d ∧
      Outcome tool opts command (exitCode (runCommand profile tool before opts command s)) s d
        (final (runCommand profile tool before opts command s)) := by
  have hplanned {args : PlanArgs} (kind : OperationKind) {command : Command}
      (hout : command.out = args.out)
      (htext : command.text tool opts s = madeText tool opts args kind s) : ∃ d,
      (final (EStateM.adaptExcept Fault.failed (run tool opts args kind) s)).world.log =
        s.world.log ++ d ∧
      Outcome tool opts command
        (exitCode (EStateM.adaptExcept Fault.failed (run tool opts args kind) s)) s d
        (final (EStateM.adaptExcept Fault.failed (run tool opts args kind) s)) := by
    obtain ⟨d,hlog,⟨_,t,hrun,houtcome⟩|⟨fault,t,hrun,⟨err,houtcome,rfl⟩⟩⟩ :=
      (Traced.adaptExcept Fault.failed (run_outcome tool opts args kind s hout htext)).cases
    · rw [hrun] at hlog ⊢
      exact ⟨d,hlog,houtcome⟩
    · rw [hrun] at hlog ⊢
      exact ⟨d,hlog,houtcome⟩
  cases command with
  | inspect args =>
    show ∃ d, (final (Cli.inspect profile tool opts args s)).world.log = s.world.log ++ d ∧
      Outcome tool opts (.inspect args) (exitCode (Cli.inspect profile tool opts args s)) s d
        (final (Cli.inspect profile tool opts args s))
    obtain ⟨d,hlog,⟨_,t,hrun,huntouched,_,_,hinspected⟩|⟨fault,t,hrun,huntouched,hfault,htext⟩⟩ :=
      (inspect_traced profile tool opts args s).cases
    · rw [hrun] at hlog ⊢
      have htext := hinspected.stdout
      rw [String.append_assoc] at htext
      exact ⟨d,hlog,.of_untouched huntouched ⟨_,htext⟩ (.inl rfl) (fun h => by cases h)⟩
    · rw [hrun] at hlog ⊢
      cases fault with
      | failed err =>
        rw [← String.append_empty (s := s.stdout)] at htext
        exact ⟨d,hlog,.of_untouched huntouched ⟨"",htext⟩ (.inl rfl) (fun h => by cases h)⟩
      | panicked => exact absurd rfl hfault
  | planRestore args => exact hplanned .restore rfl rfl
  | planExtend args => exact hplanned .extend rfl rfl
  | showPlan path =>
    show ∃ d,
        (final (Cli.showPlan profile tool.crates path (readPath tool before path s) s)).world.log =
          s.world.log ++ d ∧ Outcome tool opts (.showPlan path)
          (exitCode (Cli.showPlan profile tool.crates path (readPath tool before path s) s)) s d
          (final (Cli.showPlan profile tool.crates path (readPath tool before path s) s))
    obtain ⟨d,hlog,⟨_,t,hrun,hprints⟩|⟨_,t,hrun,hprints⟩⟩ :=
      (printing_showPlan profile tool.crates path (readPath tool before path s) s).cases
    · rw [hrun] at hlog ⊢
      exact ⟨d,hlog,hprints.outcome⟩
    · rw [hrun] at hlog ⊢
      exact ⟨d,hlog,hprints.outcome⟩

/-- What a session did: like one command, and command by command for the files, from the state
that the commands before it left. -/
structure SessionOutcome (profile : Profile) (tool : Tool σ)
    (before : String → Except String String) (commands : List (ConnectOpts × Command))
    (codes : List Nat) (s : Shell σ) (d : List Event) (t : Shell σ) : Prop where
  reads : Provider.OnlyReads d
  sequence : t.world.sequence = s.world.sequence
  stdout : ∃ text, t.stdout = s.stdout ++ text
  files : ∀ done c rest, commands = done ++ c::rest →
    ∃ code, codes[done.length]? = some code ∧
      Wrote tool c.1 c.2 code (runSession profile tool before done s).2
        (runSession profile tool before (done ++ [c]) s).2
  calm : ∀ c ∈ commands.zip codes, c.2 = 101 → ∃ path, c.1.2 = .showPlan path

/-- Nothing the tool is told to do changes anything but files: over any session it asks nodes for
ledger entries and for nothing else, and the standard output only grows. A planning command that
was given a file asks the system once to write the text of the plan it built: it ends with 0 where
all of it is written, and with 1 where the file is not opened, which leaves it alone, or the write
breaks off, which does not. No other command touches a file, and only `show-plan` can panic. -/
theorem runSession_reads (profile : Profile) (tool : Tool σ)
    (before : String → Except String String) (commands : List (ConnectOpts × Command))
    (s : Shell σ) : ∃ d,
      (runSession profile tool before commands s).2.world.log = s.world.log ++ d ∧
      SessionOutcome profile tool before commands (runSession profile tool before commands s).1 s d
        (runSession profile tool before commands s).2 := by
  induction commands generalizing s with
  | nil =>
    refine ⟨[],(List.append_nil _).symm,onlyReads_nil,rfl,⟨"",String.append_empty.symm⟩,?_,?_⟩
    · intro done c rest h
      exact absurd h (by simp)
    · simp
  | cons c commands ih =>
    obtain ⟨d,hlog,hhere⟩ := runCommand_outcome profile tool before c.1 c.2 s
    obtain ⟨d',hlog',hlater⟩ := ih (final (runCommand profile tool before c.1 c.2 s))
    obtain ⟨text,htext⟩ := hhere.stdout
    obtain ⟨text',htext'⟩ := hlater.stdout
    refine ⟨d ++ d',?_,hhere.reads.append hlater.reads,hlater.sequence.trans hhere.sequence,
      ⟨text ++ text',?_⟩,?_,?_⟩
    · exact hlog'.trans (by rw [hlog,List.append_assoc])
    · exact htext'.trans (by rw [htext,String.append_assoc])
    · intro done c' rest h
      cases done with
      | nil =>
        cases h
        exact ⟨_,rfl,hhere.files⟩
      | cons first done =>
        cases h
        exact hlater.files done c' rest rfl
    · intro x hx
      rcases List.mem_cons.mp hx with rfl|hx
      · exact hhere.calm
      · exact hlater.calm x hx

/-- Every file the tool has written to its end holds a plan. -/
def HoldsPlans (crates : PlanCrates) (s : Shell σ) : Prop :=
  ∀ path text, (path,.whole text) ∈ s.files → PlanText crates text

theorem Wrote.holdsPlans {tool : Tool σ} {opts : ConnectOpts} {command : Command} {code : Nat}
    {s t : Shell σ} (h : Wrote tool opts command code s t) (hs : HoldsPlans tool.crates s) :
    HoldsPlans tool.crates t := by
  intro path text hfile
  cases h with
  | untold _ hfiles => exact hs path text (hfiles ▸ hfile)
  | @told path' text' _ _ hplan hleft =>
    have hfiles : t.files = _ := congrArg Prod.snd hleft
    rw [hfiles] at hfile
    cases hreply : tool.writeFile { t with files := s.files } path' text' with
    | written =>
      rw [hreply] at hfile
      rcases List.mem_append.mp hfile with hfile|hfile
      · exact hs path text hfile
      · cases List.mem_singleton.mp hfile
        exact hplan
    | unopened e =>
      rw [hreply] at hfile
      exact hs path text hfile
    | brokenOff e left =>
      rw [hreply] at hfile
      rcases List.mem_append.mp hfile with hfile|hfile
      · exact hs path text hfile
      · cases List.mem_singleton.mp hfile

theorem HoldsPlans.runSession {profile : Profile} {tool : Tool σ}
    {before : String → Except String String} {commands : List (ConnectOpts × Command)}
    {s : Shell σ} (h : HoldsPlans tool.crates s) :
    HoldsPlans tool.crates (runSession profile tool before commands s).2 := by
  induction commands generalizing s with
  | nil => exact h
  | cons c commands ih =>
    obtain ⟨_,_,hhere⟩ := runCommand_outcome profile tool before c.1 c.2 s
    exact ih (hhere.files.holdsPlans h)

theorem readPath_of_written {tool : Tool σ} {before : String → Except String String}
    {path : String} {s : Shell σ} {left : FileText} (hpath : path ≠ "-")
    (h : lastWritten tool s path = some left) :
    (∃ path', (path',left) ∈ s.files) ∧ readPath tool before path s = left.read := by
  constructor
  · obtain ⟨file,_,hlast⟩ := Option.bind_eq_some_iff.mp h
    obtain ⟨written,hwritten,heq⟩ := List.mem_map.mp (LastWrite.mem_of_last hlast)
    have hleft : written.2 = left := Option.some.inj (congrArg Prod.snd heq)
    exact ⟨written.1,by rwa [← hleft]⟩
  · unfold readPath
    rw [if_neg hpath,h]

theorem Presentable.shows {crates : PlanCrates} {plan : ArchivalPlan}
    (h : Presentable crates plan) (profile : Profile) :
    List.Forall₂ (fun e r => e.remainingTtlIn profile = .ok r) plan.entries
        (plan.entries.map PlanEntry.remainingTtl) ∧
      ∀ e ∈ plan.entries, e.remainingTtl.map UInt64.toNat = e.ttl.exactTtl := by
  constructor
  · rw [List.forall₂_map_right_iff,List.forall₂_same]
    intro e he
    exact EntryTtl.ttlLedgersIn_of_not_underflows profile (h.settled e he)
  · intro e he
    have hadmits := EntryTtl.admits_of_not_underflows (h.settled e he)
    exact hadmits.resolve_right fun hunder => h.settled e he hunder.1

/-- What the tool wrote it shows: after any session, where the last write to a file went through,
the file holds a plan, and `show-plan` by any path to it prints that plan in either build, each TTL
being the exact one. -/
theorem runSession_shows (tool : Tool σ) (hjson : tool.crates.ReadsJson)
    (hkeys : tool.crates.DecodesKeys) (profile profile' : Profile)
    (before : String → Except String String) (commands : List (ConnectOpts × Command))
    (opts : ConnectOpts) (w : World σ) (stdout path text : String) (hpath : path ≠ "-")
    (hwritten : lastWritten tool (runSession profile tool before commands ⟨w,stdout,[]⟩).2 path =
      some (.whole text)) :
    ∃ plan json, planToJson tool.crates plan = .ok json ∧ text = json ++ "\n" ∧
      (∀ e ∈ plan.entries, e.remainingTtl.map UInt64.toNat = e.ttl.exactTtl) ∧
      runCommand profile' tool before opts (.showPlan path)
          (runSession profile tool before commands ⟨w,stdout,[]⟩).2 =
        .ok () { (runSession profile tool before commands ⟨w,stdout,[]⟩).2 with
          stdout := (runSession profile tool before commands ⟨w,stdout,[]⟩).2.stdout ++
            planText plan (plan.entries.map PlanEntry.remainingTtl) } := by
  have hholds : HoldsPlans tool.crates
      (runSession profile tool before commands ⟨w,stdout,[]⟩).2 :=
    HoldsPlans.runSession fun _ _ hfile => by cases hfile
  generalize (runSession profile tool before commands ⟨w,stdout,[]⟩).2 = t at hwritten hholds ⊢
  obtain ⟨⟨path',hfile⟩,hread⟩ := readPath_of_written hpath hwritten
  obtain ⟨plan,json,hplan,hprint,htext⟩ := hholds path' text hfile
  obtain ⟨hremaining,hexact⟩ := hplan.shows profile'
  have hconsistent := selfConsistent_of_rendered hkeys hplan.rendered
  have hback := planFromJson_printed hjson hconsistent hprint
  refine ⟨plan,json,hprint,htext,hexact,?_⟩
  show showPlan profile' tool.crates path (readPath tool before path t) t = _
  rw [hread,FileText.read,htext]
  exact showPlan_run hback hremaining path t

/-- Extending the sample data entry into a file, and failing to restore it into the same. -/
def sampleCommands : List (ConnectOpts × Command) :=
  [(flagged "Test SDF Network ; September 2015",.planExtend (sampleArgs (some "plan.json"))),
    (ConnectOpts.parse none none none none,.planRestore (sampleArgs (some "plan.json")))]

def sampleSession : Shell Unit :=
  (runSession .release (sampleTool 100000) (fun _ => .error "not found") sampleCommands
    ⟨emptyWorld,"",[]⟩).2

def sampleText : String :=
  match lastWritten (sampleTool 100000) sampleSession "plan.json" with
  | some (.whole text) => text
  | _ => ""

theorem lastWritten_sample :
    lastWritten (sampleTool 100000) sampleSession "./plan.json" = some (.whole sampleText) := by
  decide +kernel

/-- The file is found by either spelling of its path. -/
theorem runSession_shows_sample : ∃ plan json, planToJson sampleFiles plan = .ok json ∧
    sampleText = json ++ "\n" ∧
    (∀ e ∈ plan.entries, e.remainingTtl.map UInt64.toNat = e.ttl.exactTtl) ∧
    runCommand .dev (sampleTool 100000) (fun _ => .error "not found")
        (ConnectOpts.parse none none none none) (.showPlan "./plan.json") sampleSession =
      .ok () { sampleSession with
        stdout := sampleSession.stdout ++
          planText plan (plan.entries.map PlanEntry.remainingTtl) } :=
  runSession_shows (sampleTool 100000) readsJson_sampleFiles decodesKeys_sampleFiles .release .dev
    (fun _ => .error "not found") sampleCommands (ConnectOpts.parse none none none none) emptyWorld
    "" "./plan.json" sampleText (by decide) lastWritten_sample

end Cli

end SorobanRentKeeper

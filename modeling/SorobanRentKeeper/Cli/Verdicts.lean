import SorobanRentKeeper.Cli.RestoreDurability
import SorobanRentKeeper.Cli.Terminal

namespace SorobanRentKeeper

open Program

variable {σ : Type}

namespace Cli

/-- Every key has a text. -/
def Renderable (crates : Crates) (keys : List LedgerKey) : Prop :=
  ∀ key ∈ keys, ∃ keyXdr, LedgerKeys.render crates key = .ok keyXdr

/-- `plan-extend` and `needs_restore` agree on what is live. -/
theorem asEntryTtl_eq_none_iff {o : Observation} (h : Sound o) :
    o.asEntryTtl.liveUntilLedgerSeq = none ↔ o.needsRestore = true := by
  unfold Observation.asEntryTtl Observation.needsRestore
  cases hentry : o.entry with
  | live ttl =>
    obtain ⟨liveUntil,hlive,_⟩ := (h ttl hentry).1
    simp [hlive]
  | expiredButPresent info => simp
  | archived info => simp

/-- The text of the refusal. -/
def notLive (keyXdr : String) : CliError :=
  .invalid ("entry " ++ keyXdr ++ " is not live (needs restore, not extend)")

theorem liveEntries_cons {crates : Crates} {o : LedgerKey × Observation} {keyXdr : String}
    (hsound : Sound o.2) (hrender : LedgerKeys.render crates o.1 = .ok keyXdr)
    (observations : List (LedgerKey × Observation)) (entries : List PlanEntry) :
    liveEntries crates (o::observations) entries =
      if o.2.needsRestore then .error (notLive keyXdr)
      else liveEntries crates observations (entries ++ [liveEntry o keyXdr]) := by
  have hnone := asEntryTtl_eq_none_iff hsound
  rw [liveEntries]
  cases hlive : o.2.asEntryTtl.liveUntilLedgerSeq with
  | none =>
    rw [if_pos (hnone.mp hlive),hrender]
    rfl
  | some liveUntil =>
    rw [if_neg (fun hneeds => by rw [hnone.mpr hneeds] at hlive; cases hlive),hrender]
    rfl

/-- The loop goes through what is live. -/
theorem liveEntries_append {crates : Crates} {done : List (LedgerKey × Observation)}
    (hlive : ∀ o ∈ done, o.2.needsRestore = false) (hsound : ∀ o ∈ done, Sound o.2)
    (hrender : Renderable crates (done.map Prod.fst)) (rest : List (LedgerKey × Observation))
    (entries : List PlanEntry) :
    ∃ made, liveEntries crates (done ++ rest) entries =
        liveEntries crates rest (entries ++ made) ∧
      made.map PlanEntry.key = done.map Prod.fst := by
  induction done generalizing entries with
  | nil => exact ⟨[],by rw [List.append_nil,List.nil_append],rfl⟩
  | cons o done ih =>
    obtain ⟨hhere,hlater⟩ := List.forall_mem_cons.mp hlive
    obtain ⟨hsound,hsounds⟩ := List.forall_mem_cons.mp hsound
    obtain ⟨⟨keyXdr,hrender⟩,hrenders⟩ := List.forall_mem_cons.mp hrender
    obtain ⟨made,hmade,hkeys⟩ := ih hlater hsounds hrenders (entries ++ [liveEntry o keyXdr])
    refine ⟨liveEntry o keyXdr::made,?_,?_⟩
    · rw [List.cons_append,liveEntries_cons hsound hrender,hhere,hmade,List.append_assoc]
      rfl
    · rw [List.map_cons,List.map_cons,hkeys]
      rfl

/-- A command whose keys were observed, from there on. -/
theorem buildPlan_of_observed {tool : Tool σ} {opts : ConnectOpts} {args : PlanArgs}
    {s t : Shell σ} {keys : List LedgerKey} {observations : List Observation}
    (hkeys : planKeys tool.crates.toCrates args = .ok keys)
    (hconnect : tool.newClient opts.rpcUrl = .ok ())
    (hobserve : onWorld (Provider.observeEntries tool.crates.toCrates tool.node keys) s =
      .ok observations t) (kind : OperationKind) :
    buildPlan tool opts args kind s =
      Program.ofExcept (planOf tool.crates.toCrates opts args kind keys observations) t := by
  unfold buildPlan connect
  rw [hkeys,hconnect,Except.mapError,ofExcept_ok,ofExcept_ok,pure_bind,pure_bind,
    bind_of_ok _ hobserve]

theorem observed_of_onWorld {tool : Tool σ} {s t : Shell σ} {keys : List LedgerKey}
    {observations : List Observation}
    (h : onWorld (Provider.observeEntries tool.crates.toCrates tool.node keys) s =
      .ok observations t) :
    (∀ o ∈ keys.zip observations, Sound o.2) ∧ (keys.zip observations).map Prod.fst = keys := by
  obtain ⟨d,_,⟨_,_,hall⟩,_,_⟩ := (onWorld_traced
    (Provider.observeEntries_traced tool.crates.toCrates tool.node keys s.world)).ok h
  exact ⟨sound_of_observed hall,List.map_fst_zip (Nat.le_of_eq hall.length_eq)⟩

/-- With nothing to restore, `plan-extend` plans all of it. -/
theorem extendPlan_of_live {crates : Crates} {opts : ConnectOpts} {args : PlanArgs}
    {keys : List LedgerKey} {observations : List Observation}
    (hlive : ∀ o ∈ keys.zip observations, o.2.needsRestore = false)
    (hsound : ∀ o ∈ keys.zip observations, Sound o.2)
    (hfst : (keys.zip observations).map Prod.fst = keys) (hrender : Renderable crates keys) :
    ∃ plan, planOf crates opts args .extend keys observations = .ok plan ∧
      plan.footprint = keys := by
  have hrenders : Renderable crates ((keys.zip observations).map Prod.fst) := by
    rw [hfst]
    exact hrender
  obtain ⟨made,hmade,hkeys⟩ := liveEntries_append hlive hsound hrenders [] []
  rw [List.append_nil] at hmade
  refine ⟨⟨opts.networkPassphrase,currentLedger observations,daysToExtendTo args.ttlDays,made⟩,
    ?_,hkeys.trans hfst⟩
  simp only [planOf,extendPlan,hmade]
  rfl

theorem restorePlan_of_live {crates : Crates} {opts : ConnectOpts} {args : PlanArgs}
    {keys : List LedgerKey} {observations : List Observation}
    (hlive : ∀ o ∈ keys.zip observations, o.2.needsRestore = false) :
    planOf crates opts args .restore keys observations =
      .error (.invalid "none of the given entries are archived; nothing to restore") := by
  have hnone : archivedEntries keys observations = [] := by
    unfold archivedEntries
    rw [List.map_eq_nil_iff,List.filter_eq_nil_iff]
    intro o ho
    rw [hlive o ho]
    exact Bool.false_ne_true
  simp only [planOf,restorePlan,hnone,List.isEmpty_nil,if_true]

/-- What `plan-restore` marks, it keeps. -/
theorem archivedEntries_kept (keys : List LedgerKey) (observations : List Observation) :
    ((archivedEntries keys observations).filter fun o => o.2.isArchived).map Prod.fst =
      keysWhere Observation.needsRestore keys observations := by
  have hkept : (archivedEntries keys observations).filter (fun o => o.2.isArchived) =
      archivedEntries keys observations := by
    rw [List.filter_eq_self]
    intro o ho
    obtain ⟨_,_,rfl⟩ := List.mem_map.mp ho
    rfl
  rw [hkept]
  simp only [archivedEntries,keysWhere,List.map_map]
  rfl

/-- With something to restore, `plan-restore` plans exactly that. -/
theorem restorePlan_of_gone {crates : Crates} {opts : ConnectOpts} {args : PlanArgs}
    {keys : List LedgerKey} {observations : List Observation}
    (hgone : ∃ o ∈ keys.zip observations, o.2.needsRestore = true)
    (hrender : Renderable crates keys) :
    ∃ plan, planOf crates opts args .restore keys observations = .ok plan ∧
      plan.footprint = keysWhere Observation.needsRestore keys observations := by
  obtain ⟨restored,hrestored⟩ := Planner.planRestore_of_render crates
    ⟨constants,⟨(daysToExtendTo args.ttlDays).toUInt64⟩,opts.networkPassphrase⟩
    (archivedEntries keys observations) (currentLedger observations) (by
      intro o ho
      obtain ⟨x,hx,rfl⟩ := List.mem_map.mp (List.mem_of_mem_filter ho)
      exact hrender x.1 (List.of_mem_zip (List.mem_of_mem_filter hx)).1)
  have hsome : (archivedEntries keys observations).isEmpty = false := by
    obtain ⟨o,ho,hneeds⟩ := hgone
    rw [List.isEmpty_eq_false_iff_exists_mem]
    exact ⟨_,List.mem_map.mpr ⟨o,List.mem_filter.mpr ⟨ho,hneeds⟩,rfl⟩⟩
  refine ⟨{ restored with
    extendTo := daysToExtendTo args.ttlDays
    entries := restored.entries.map fun e =>
      { e with ttl := ⟨currentLedger observations,none⟩ } },?_,?_⟩
  · simp only [planOf,restorePlan,hsome,hrestored]
    rfl
  · rw [← archivedEntries_kept,← Planner.planRestore_keys hrestored]
    simp [ArchivalPlan.footprint]

/-- `plan-extend` stops at the first entry that is not live. -/
theorem extendPlan_of_gone {crates : Crates} {opts : ConnectOpts} {args : PlanArgs}
    {keys : List LedgerKey} {observations : List Observation}
    (hgone : ∃ o ∈ keys.zip observations, o.2.needsRestore = true)
    (hsound : ∀ o ∈ keys.zip observations, Sound o.2) (hrender : Renderable crates keys) :
    ∃ key keyXdr, (keysWhere Observation.needsRestore keys observations).head? = some key ∧
      LedgerKeys.render crates key = .ok keyXdr ∧
      planOf crates opts args .extend keys observations = .error (notLive keyXdr) := by
  have hfirst : ((keys.zip observations).find? fun o => o.2.needsRestore).isSome = true := by
    rw [List.find?_isSome]
    exact hgone
  obtain ⟨o,ho⟩ := Option.isSome_iff_exists.mp hfirst
  obtain ⟨hneeds,done,rest,hzip,hdone⟩ := List.find?_eq_some_iff_append.mp ho
  have hlive : ∀ x ∈ done, x.2.needsRestore = false := by
    intro x hx
    simpa using hdone x hx
  rw [hzip] at hsound
  have hrenders : ∀ x ∈ done ++ o::rest, ∃ keyXdr, LedgerKeys.render crates x.1 = .ok keyXdr := by
    intro x hx
    rw [← hzip] at hx
    exact hrender x.1 (List.of_mem_zip hx).1
  obtain ⟨keyXdr,hkey⟩ := hrenders o (by simp)
  refine ⟨o.1,keyXdr,?_,hkey,?_⟩
  · have hskip : done.filter (fun x => x.2.needsRestore) = [] := by
      rw [List.filter_eq_nil_iff]
      intro x hx
      rw [hlive x hx]
      exact Bool.false_ne_true
    unfold keysWhere
    rw [hzip,List.filter_append,hskip,List.nil_append,List.filter_cons,if_pos hneeds]
    rfl
  · obtain ⟨made,hmade,_⟩ := liveEntries_append hlive
      (fun x hx => hsound x (List.mem_append_left _ hx)) (List.forall_mem_map.mpr fun x hx =>
        hrenders x (List.mem_append_left _ hx)) (o::rest) []
    rw [liveEntries_cons (hsound o (by simp)) hkey,if_pos hneeds] at hmade
    simp only [planOf,extendPlan,hzip,hmade]
    rfl

/-- What the two planning commands make of the same observations. -/
inductive Verdicts (crates : Crates) (keys : List LedgerKey) (observations : List Observation) :
    Except CliError ArchivalPlan → Except CliError ArchivalPlan → Prop where
  /-- All live: the extend plan has them all, and there is nothing to restore. -/
  | extended (plan : ArchivalPlan)
      (hlive : ∀ o ∈ keys.zip observations, o.2.needsRestore = false)
      (hkeys : plan.footprint = keys) : Verdicts crates keys observations (.ok plan)
        (.error (.invalid "none of the given entries are archived; nothing to restore"))
  /-- Some are not: the restore plan has just these, and the extension is refused for the first. -/
  | restored (plan : ArchivalPlan) (key : LedgerKey) (keyXdr : String)
      (hkeys : plan.footprint = keysWhere Observation.needsRestore keys observations)
      (hfirst : plan.footprint.head? = some key)
      (hrender : LedgerKeys.render crates key = .ok keyXdr) :
      Verdicts crates keys observations (.error (notLive keyXdr)) (.ok plan)

theorem planOf_verdicts {crates : Crates} {opts : ConnectOpts} {args : PlanArgs}
    {keys : List LedgerKey} {observations : List Observation} (hrender : Renderable crates keys)
    (hsound : ∀ o ∈ keys.zip observations, Sound o.2)
    (hfst : (keys.zip observations).map Prod.fst = keys) :
    Verdicts crates keys observations (planOf crates opts args .extend keys observations)
      (planOf crates opts args .restore keys observations) := by
  by_cases hgone : ∃ o ∈ keys.zip observations, o.2.needsRestore = true
  · obtain ⟨plan,hplan,hfootprint⟩ := restorePlan_of_gone hgone hrender
    obtain ⟨key,keyXdr,hfirst,hkey,hrefused⟩ := extendPlan_of_gone hgone hsound hrender
    rw [hplan,hrefused]
    rw [← hfootprint] at hfirst
    exact .restored plan key keyXdr hfootprint hfirst hkey
  · have hlive : ∀ o ∈ keys.zip observations, o.2.needsRestore = false := by
      intro o ho
      exact Bool.eq_false_iff.mpr fun hneeds => hgone ⟨o,ho,hneeds⟩
    obtain ⟨plan,hplan,hfootprint⟩ := extendPlan_of_live hlive hsound hfst hrender
    rw [hplan,restorePlan_of_live hlive]
    exact .extended plan hlive hfootprint

/-- Once its entries are observed, exactly one of `plan-extend` and `plan-restore` builds a plan:
the first where all are live, the second of those that are not, the first of which is what the
other command complains of. -/
theorem buildPlan_verdicts (tool : Tool σ) (opts : ConnectOpts) (args : PlanArgs) (s t : Shell σ)
    (keys : List LedgerKey) (observations : List Observation)
    (hkeys : planKeys tool.crates.toCrates args = .ok keys)
    (hconnect : tool.newClient opts.rpcUrl = .ok ())
    (hrender : Renderable tool.crates.toCrates keys)
    (hobserve : onWorld (Provider.observeEntries tool.crates.toCrates tool.node keys) s =
      .ok observations t) :
    ∃ extended restored, Verdicts tool.crates.toCrates keys observations extended restored ∧
      buildPlan tool opts args .extend s = Program.ofExcept extended t ∧
      buildPlan tool opts args .restore s = Program.ofExcept restored t := by
  obtain ⟨hsound,hfst⟩ := observed_of_onWorld hobserve
  have hbuild := buildPlan_of_observed hkeys hconnect hobserve
  exact ⟨_,_,planOf_verdicts hrender hsound hfst,hbuild .extend,hbuild .restore⟩

theorem planKeys_sample : planKeys sampleFiles.toCrates (sampleArgs none) = .ok [dataKey] :=
  eq_ok_of_toOption (by decide +kernel)

theorem renderable_sample : Renderable sampleFiles.toCrates [dataKey] := by
  intro key hkey
  cases List.mem_singleton.mp hkey
  exact exists_eq_ok_of_isSome (by decide +kernel)

/-- The sample data entry, gone. -/
theorem buildPlan_verdicts_gone : ∃ extended restored,
    Verdicts sampleFiles.toCrates [dataKey] [⟨100,.archived ⟨100,true⟩⟩] extended restored ∧
    buildPlan forgetfulTool (flagged "") (sampleArgs none) .extend ⟨emptyWorld,"",[]⟩ =
      Program.ofExcept extended (final (onWorld (Provider.observeEntries sampleFiles.toCrates
        forgetfulNode [dataKey]) ⟨emptyWorld,"",[]⟩)) ∧
    buildPlan forgetfulTool (flagged "") (sampleArgs none) .restore ⟨emptyWorld,"",[]⟩ =
      Program.ofExcept restored (final (onWorld (Provider.observeEntries sampleFiles.toCrates
        forgetfulNode [dataKey]) ⟨emptyWorld,"",[]⟩)) :=
  buildPlan_verdicts forgetfulTool (flagged "") (sampleArgs none) ⟨emptyWorld,"",[]⟩ _ [dataKey]
    [⟨100,.archived ⟨100,true⟩⟩] planKeys_sample rfl renderable_sample
    (eq_ok_of_value (by decide +kernel))

/-- The arguments of `inspect` for one entry that a planning command is asked for. -/
def inspectOne (args : PlanArgs) (xdr : String) (includeCode : Bool) : InspectArgs :=
  ⟨args.contract,some xdr,args.durability,includeCode,none⟩

theorem planKeys_of_inspect {crates : Crates} {args : PlanArgs} {xdr : String}
    {includeCode : Bool} {keys : List LedgerKey} (hxdrs : args.keyXdrs = [xdr])
    (h : inspectKeys crates (inspectOne args xdr includeCode) = .ok keys) :
    ∃ key, keys = [key] ∧ planKeys crates args = .ok [key] := by
  obtain ⟨key,hkey,h⟩ := bind_eq_ok h
  cases Except.ok.inj h
  refine ⟨key,rfl,?_⟩
  obtain ⟨contractBytes,hcontract,hkey⟩ := bind_eq_ok (mapError_eq_ok hkey)
  obtain ⟨scVal,hscVal,hkey⟩ := bind_eq_ok hkey
  obtain ⟨durability,hdurability,hkey⟩ := bind_eq_ok hkey
  cases Except.ok.inj hkey
  change contractIdBytes crates args.contract = .ok contractBytes at hcontract
  change parseDurability args.durability = .ok durability at hdurability
  unfold planKeys
  rw [hcontract,hdurability,hxdrs]
  have hone : [xdr].mapM (fun xdr => do
      let key ← parseScval crates xdr
      return LedgerKeys.contractData contractBytes key durability) =
        .ok [LedgerKeys.contractData contractBytes scVal durability] := by
    rw [mapM_eq_ok_iff,List.forall₂_cons]
    refine ⟨?_,.nil⟩
    rw [hscVal]
    rfl
  exact hone

/-- The status column says which of the two commands is the one. -/
theorem shownState_needsRestore (o : Observation) :
    (shownState o.entry).2 = "needs restore" ↔ o.needsRestore = true := by
  unfold Observation.needsRestore
  cases hentry : o.entry with
  | live ttl =>
    refine ⟨?_,fun h => by cases h⟩
    intro h
    have hlists := congrArg String.toList h
    simp only [shownState,String.toList_append] at hlists
    cases hlists
  | expiredButPresent info => exact ⟨fun _ => rfl,fun _ => rfl⟩
  | archived info => exact ⟨fun _ => rfl,fun _ => rfl⟩

/-- What `inspect` shows of an entry decides what the planning commands would have made of it at
that moment: its status is `needs restore` exactly when the restore is planned and the extension
refused, and else it is the other way about. -/
theorem inspect_decides (profile : Profile) (tool : Tool σ) (opts : ConnectOpts) (args : PlanArgs)
    (xdr : String) (includeCode : Bool) (s t : Shell σ) (hxdrs : args.keyXdrs = [xdr])
    (hrender : ∀ keys, planKeys tool.crates.toCrates args = .ok keys →
      Renderable tool.crates.toCrates keys)
    (h : inspect profile tool opts (inspectOne args xdr includeCode) s = .ok () t) :
    ∃ key o extended restored,
      t.stdout = s.stdout ++ (tableHeader ++ "\n") ++ tableText [rowOf key o] ∧
      ((shownState o.entry).2 = "needs restore" ↔ o.needsRestore = true) ∧
      Verdicts tool.crates.toCrates [key] [o] extended restored ∧
      buildPlan tool opts args .extend s =
        Program.ofExcept extended { t with stdout := s.stdout } ∧
      buildPlan tool opts args .restore s =
        Program.ofExcept restored { t with stdout := s.stdout } := by
  obtain ⟨_,s₁,hconnect,hafter⟩ := run_bind h
  obtain ⟨hconnected,hs₁⟩ := run_ofExcept (adaptExcept_eq_ok hconnect)
  obtain ⟨keys,s₂,hkeys,hrest⟩ := run_bind hafter
  obtain ⟨hresolved,hs₂⟩ := run_ofExcept hkeys
  obtain ⟨observations,u,hobserve,hprinted⟩ := run_bind hrest
  rw [hs₂,hs₁] at hobserve
  have hobserve := adaptExcept_eq_ok hobserve
  obtain ⟨key,rfl,hplanned⟩ := planKeys_of_inspect hxdrs hresolved
  obtain ⟨hsound,hfst⟩ := observed_of_onWorld hobserve
  obtain ⟨d,_,⟨_,_,hall⟩,hstdout,hfiles⟩ := (onWorld_traced
    (Provider.observeEntries_traced tool.crates.toCrates tool.node [key] s.world)).ok hobserve
  obtain ⟨o,rest,_,hnone,rfl⟩ := List.forall₂_cons_left_iff.mp hall
  cases hnone
  rw [printLine_bind,printRows_run profile hsound] at hprinted
  cases hprinted
  have hbuild := buildPlan_of_observed hplanned (mapError_eq_ok hconnected) hobserve
  have hback : u = { u with stdout := s.stdout } := by rw [← hstdout]
  rw [hback] at hbuild
  refine ⟨key,o,_,_,?_,shownState_needsRestore o,
    planOf_verdicts (hrender _ hplanned) hsound hfst,hbuild .extend,hbuild .restore⟩
  simp only [hstdout,List.zip_cons_cons,List.zip_nil_right,List.map_cons,List.map_nil]

/-- What inspecting the sample data entry leaves. -/
def inspectedOne : Shell Unit :=
  final (inspect .dev (sampleTool 100000) (flagged "") (inspectOne (sampleArgs none) "AAAAAwAAAAc="
    false) ⟨emptyWorld,"",[]⟩)

theorem inspect_decides_live : ∃ key o extended restored,
    inspectedOne.stdout = "" ++ (tableHeader ++ "\n") ++ tableText [rowOf key o] ∧
    ((shownState o.entry).2 = "needs restore" ↔ o.needsRestore = true) ∧
    Verdicts sampleFiles.toCrates [key] [o] extended restored ∧
    buildPlan (sampleTool 100000) (flagged "") (sampleArgs none) .extend ⟨emptyWorld,"",[]⟩ =
      Program.ofExcept extended { inspectedOne with stdout := "" } ∧
    buildPlan (sampleTool 100000) (flagged "") (sampleArgs none) .restore ⟨emptyWorld,"",[]⟩ =
      Program.ofExcept restored { inspectedOne with stdout := "" } := by
  refine inspect_decides .dev (sampleTool 100000) (flagged "") (sampleArgs none) "AAAAAwAAAAc="
    false ⟨emptyWorld,"",[]⟩ inspectedOne rfl ?_ (eq_ok_of_value (by decide +kernel))
  intro keys hkeys
  cases Except.ok.inj (planKeys_sample.symm.trans hkeys)
  exact renderable_sample

end Cli

end SorobanRentKeeper

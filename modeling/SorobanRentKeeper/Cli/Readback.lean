import SorobanRentKeeper.Cli.Validity

namespace SorobanRentKeeper

/-- What serde_json promises of its text: what it printed is read back, with any blanks around
it, and a text it accepts has nothing but blanks before a value. -/
structure PlanCrates.ReadsJson (crates : PlanCrates) : Prop where
  printed : ∀ v text, Json.Plain 127 v → crates.toStringPretty v = .ok text →
    ∀ before after : String, (∀ c ∈ before.toList, Json.isSpace c = true) →
      (∀ c ∈ after.toList, Json.isSpace c = true) →
      crates.jsonFromStr (before ++ text ++ after) = .ok v
  starts : ∀ text v, crates.jsonFromStr text = .ok v →
    ∃ c ∈ (Json.skipSpace text.toList).head?, Json.startsValue c = true

theorem readsJson_sampleFiles : sampleFiles.ReadsJson := by
  constructor
  · intro v text h hprint before after hbefore hafter
    cases Except.ok.inj hprint
    have hparse := Json.parse_pretty h before.toList after.toList hbefore hafter
    simp [sampleFiles,String.toList_append,hparse]
  · intro text v h
    simp only [sampleFiles] at h
    split at h
    · next u hparse => exact Json.parse_start hparse
    · cases h

namespace Cli

variable {σ : Type}

theorem readPlan_eq_ok {crates : PlanCrates} {path json : String} {plan : ArchivalPlan} :
    readPlan crates path (.ok json) = .ok plan ↔ planFromJson crates json = .ok plan := by
  unfold readPlan
  cases hplan : planFromJson crates json <;> simp [Except.mapError,hplan]

/-- The printed plan alone, with a line end, is read back. -/
theorem planFromJson_printed {crates : PlanCrates} (hjson : crates.ReadsJson)
    {plan : ArchivalPlan} (hplan : SelfConsistent crates plan) {json : String}
    (h : planToJson crates plan = .ok json) : planFromJson crates (json ++ "\n") = .ok plan := by
  have hspace : ∀ c ∈ "\n".toList, Json.isSpace c = true := List.forall_mem_singleton.mpr rfl
  have hparse := hjson.printed plan.toJson json (plan.plain_toJson 124)
    (Program.mapError_eq_ok h) "" "\n" (by simp) hspace
  rw [String.empty_append] at hparse
  exact planFromJson_eq_ok.mpr ⟨plan.toJson,hparse,(fromJson_toJson_iff crates plan).mpr hplan⟩

/-- No document starts with the line a command prints about its plan. -/
theorem planFromJson_summary {crates : PlanCrates} (hjson : crates.ReadsJson)
    (kind : OperationKind) (plan plan' : ArchivalPlan) (rest : String) :
    planFromJson crates (summary kind plan ++ rest) ≠ .ok plan' := by
  intro h
  obtain ⟨v,hv,_⟩ := planFromJson_eq_ok.mp h
  obtain ⟨c,hc,hstart⟩ := hjson.starts _ v hv
  cases kind with
  | extend =>
    have hhead : (Json.skipSpace (summary .extend plan ++ rest).toList).head? = some 'e' := by
      simp [summary,OperationKind.asStr,String.toList_append,Json.skipSpace,Json.isSpace]
    rw [hhead] at hc
    cases hc
    cases hstart
  | restore =>
    have hhead : (Json.skipSpace (summary .restore plan ++ rest).toList).head? = some 'r' := by
      simp [summary,OperationKind.asStr,String.toList_append,Json.skipSpace,Json.isSpace]
    rw [hhead] at hc
    cases hc
    cases hstart

/-- The text a command wrote is read back as its plan exactly when it went to a file: on the
standard output the plan comes after a line that is not part of it. -/
theorem readPlan_emitted_iff (tool : Tool σ) (hjson : tool.crates.ReadsJson)
    (hkeys : tool.crates.DecodesKeys) (opts : ConnectOpts) (args : PlanArgs) (kind : OperationKind)
    (w : World σ) (plan : ArchivalPlan) (t : Shell σ)
    (h : Emits tool opts args kind ⟨w,"",[]⟩ plan t) :
    readPlan tool.crates (args.out.getD "-") (.ok (emitted args t)) = .ok plan ↔
      args.out.isSome = true := by
  obtain ⟨json,hprint,htext⟩ := emitted_of_emits h
  obtain ⟨_,_,hbuild⟩ := h
  obtain ⟨_,_,_,_,_,hplan⟩ := buildPlan_ok hbuild
  have hconsistent := selfConsistent_of_rendered hkeys (planOf_ok hplan).2.2
  rw [readPlan_eq_ok,htext]
  cases args.out with
  | some path =>
    simpa using planFromJson_printed hjson hconsistent hprint
  | none =>
    have hnot := planFromJson_summary hjson kind plan plan ("\n" ++ (json ++ "\n"))
    simpa [String.append_assoc] using hnot

/-- The sample data entry, planned into a file. -/
theorem readPlan_emitted_iff_file :
    readPlan sampleFiles "plan.json" (.ok (emitted (sampleArgs (some "plan.json"))
        (Program.final (run (sampleTool 3110400) (flagged "Test SDF Network ; September 2015")
          (sampleArgs (some "plan.json")) .extend ⟨emptyWorld,"",[]⟩)))) =
      .ok (extendedPlan "Test SDF Network ; September 2015") ↔
        (some "plan.json").isSome = true :=
  readPlan_emitted_iff (sampleTool 3110400) readsJson_sampleFiles decodesKeys_sampleFiles
    (flagged "Test SDF Network ; September 2015") (sampleArgs (some "plan.json")) .extend
    emptyWorld _ _
    ⟨Program.eq_ok_of_value (by decide +kernel),_,Program.eq_ok_of_value (by decide +kernel)⟩

/-- Nothing planned onto the standard output can be read from it. -/
theorem readPlan_not_emitted : ¬∀ (tool : Tool Unit), tool.crates.ReadsJson →
    tool.crates.DecodesKeys → ∀ (opts : ConnectOpts) (args : PlanArgs) (kind : OperationKind)
    (w : World Unit) (plan : ArchivalPlan) (t : Shell Unit),
    Emits tool opts args kind ⟨w,"",[]⟩ plan t →
      readPlan tool.crates (args.out.getD "-") (.ok (emitted args t)) = .ok plan := by
  intro h
  have hread := h (sampleTool 100000) readsJson_sampleFiles decodesKeys_sampleFiles _
    (sampleArgs none) .extend emptyWorld _ _ emits_default
  obtain ⟨json,_,htext⟩ := emitted_of_emits emits_default
  rw [readPlan_eq_ok,htext] at hread
  have hnot := planFromJson_summary readsJson_sampleFiles .extend
    (extendedPlan "Test SDF Network ; September 2015")
    (extendedPlan "Test SDF Network ; September 2015") ("\n" ++ (json ++ "\n"))
  rw [← String.append_assoc] at hnot
  exact hnot hread

end Cli

end SorobanRentKeeper

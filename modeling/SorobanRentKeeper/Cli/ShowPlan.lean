import SorobanRentKeeper.Cli.Command

namespace SorobanRentKeeper

open Program

/-- `remaining_ttl` as a build runs it. -/
def PlanEntry.remainingTtlIn (profile : Profile) (e : PlanEntry) :
    Except (Fault CliError) (Option UInt64) := e.ttl.ttlLedgersIn profile

/-- `{:?}` of an optional number. -/
def debugOption : Option UInt64 → String
  | some x => "Some(" ++ toString x.toNat ++ ")"
  | none => "None"

/-- `{:.1}` of a number that is not negative: to tenths, a tie to the even one. -/
def formatTenths (x : Float) : String :=
  match x.toModel.unpack with
  | .finite _ mantissa exponent _ =>
    let unit := 1 <<< (-exponent).toNat
    let scaled := 10 * (mantissa <<< exponent.toNat)
    let tenths := scaled / unit
    let rest := 2 * (scaled % unit)
    let rounded := if unit < rest ∨ (rest = unit ∧ tenths % 2 = 1) then tenths + 1 else tenths
    toString (rounded / 10) ++ "." ++ toString (rounded % 10)
  | .zero _ => "0.0"
  | .infinity _ => "inf"
  | .notANumber => "NaN"

def ledgersInDays (ledgers : UInt32) : Float := Float.ofNat ledgers.toNat * 5.0 / 86400.0

example : formatTenths (ledgersInDays 518400) = "30.0" ∧ formatTenths (ledgersInDays 4320) = "0.2" ∧
    formatTenths (ledgersInDays 12960) = "0.8" ∧ formatTenths (ledgersInDays 0) = "0.0" := by
  decide +kernel

namespace Cli

variable {σ : Type}

def printLine (line : String) : EStateM (Fault CliError) (Shell σ) Unit :=
  EStateM.adaptExcept .failed (println line)

def entryLine (index : Nat) (e : PlanEntry) (remaining : Option UInt64) : String :=
  "  [" ++ toString index ++ "] " ++ e.kind.asStr ++ " " ++
    (e.durability.map Durability.name).getD "n/a" ++ " ttl=" ++ debugOption remaining

/-- The loop of `show-plan` over the entries, from the one at `index`. -/
def showEntries (profile : Profile) :
    Nat → List PlanEntry → EStateM (Fault CliError) (Shell σ) Unit
  | _,[] => return ()
  | index,e::entries => do
    let remaining ← Program.ofExcept (e.remainingTtlIn profile)
    printLine (entryLine index e remaining)
    printLine ("       key: " ++ e.keyXdr)
    showEntries profile (index + 1) entries

/-- `show-plan`, given what reading the whole input gave. -/
def showPlan (profile : Profile) (crates : PlanCrates) (path : String)
    (input : Except String String) : EStateM (Fault CliError) (Shell σ) Unit := do
  let plan ← Program.ofExcept ((readPlan crates path input).mapError .failed)
  printLine ("network:       " ++ plan.networkPassphrase)
  printLine ("reference ledger: " ++ toString plan.referenceLedger.toNat)
  printLine ("target TTL:    " ++ toString plan.extendTo.toNat ++ " ledgers (~" ++
    formatTenths (ledgersInDays plan.extendTo) ++ " days at 5s/ledger)")
  printLine ("entries:       " ++ toString plan.len)
  printLine ("  extend:  " ++ toString (plan.countKind .extend))
  printLine ("  restore: " ++ toString (plan.countKind .restore))
  showEntries profile 0 plan.entries

end Cli

theorem RawEntry.ttl_of_decode {crates : PlanCrates} {raw : RawEntry} {e : PlanEntry}
    (h : raw.decode crates = .ok e) : e.ttl = ⟨raw.currentLedger,raw.liveUntilLedgerSeq⟩ := by
  unfold decode at h
  obtain ⟨key,_,h⟩ := bind_eq_ok h
  obtain ⟨kind,_,h⟩ := bind_eq_ok h
  cases h
  rfl

namespace Cli

variable {σ : Type}

theorem printLine_bind (line : String) (k : EStateM (Fault CliError) (Shell σ) Unit) (s : Shell σ) :
    (printLine line >>= fun _ => k) s = k { s with stdout := s.stdout ++ (line ++ "\n") } := rfl

def entriesText : Nat → List (PlanEntry × Option UInt64) → String
  | _,[] => ""
  | index,o::rest =>
    entryLine index o.1 o.2 ++ "\n" ++ ("       key: " ++ o.1.keyXdr ++ "\n") ++
      entriesText (index + 1) rest

def planText (plan : ArchivalPlan) (remaining : List (Option UInt64)) : String :=
  "network:       " ++ plan.networkPassphrase ++ "\n" ++
    ("reference ledger: " ++ toString plan.referenceLedger.toNat ++ "\n") ++
    ("target TTL:    " ++ toString plan.extendTo.toNat ++ " ledgers (~" ++
      formatTenths (ledgersInDays plan.extendTo) ++ " days at 5s/ledger)" ++ "\n") ++
    ("entries:       " ++ toString plan.len ++ "\n") ++
    ("  extend:  " ++ toString (plan.countKind .extend) ++ "\n") ++
    ("  restore: " ++ toString (plan.countKind .restore) ++ "\n") ++
    entriesText 0 (plan.entries.zip remaining)

theorem showEntries_run {profile : Profile} {entries : List PlanEntry}
    {remaining : List (Option UInt64)}
    (h : List.Forall₂ (fun e r => e.remainingTtlIn profile = .ok r) entries remaining)
    (index : Nat) (s : Shell σ) : showEntries profile index entries s =
      .ok () { s with stdout := s.stdout ++ entriesText index (entries.zip remaining) } := by
  induction h generalizing index s with
  | nil =>
    simp only [List.zip_nil_left,entriesText,String.append_empty]
    rfl
  | @cons e r entries remaining hrun hrest ih =>
    unfold showEntries
    rw [hrun,ofExcept_ok,pure_bind,printLine_bind,printLine_bind,ih]
    simp only [List.zip_cons_cons,entriesText,String.append_assoc]

theorem showPlan_run {profile : Profile} {crates : PlanCrates} {json : String}
    {plan : ArchivalPlan} (hplan : planFromJson crates json = .ok plan)
    {remaining : List (Option UInt64)}
    (h : List.Forall₂ (fun e r => e.remainingTtlIn profile = .ok r) plan.entries remaining)
    (path : String) (s : Shell σ) : showPlan profile crates path (.ok json) s =
      .ok () { s with stdout := s.stdout ++ planText plan remaining } := by
  have hread : readPlan crates path (.ok json) = .ok plan := by
    simp only [readPlan,hplan]
    rfl
  unfold showPlan
  rw [hread]
  simp only [Except.mapError,ofExcept_ok,pure_bind,printLine_bind]
  rw [showEntries_run h]
  unfold planText
  simp only [String.append_assoc]

/-- An accepted text is shown: `remaining_ttl` of every entry is admissible, and these values are
what is printed. -/
def Shown (σ : Type) (profile : Profile) (crates : PlanCrates) (json : String) : Prop :=
  ∀ plan, planFromJson crates json = .ok plan → ∃ remaining,
    List.Forall₂ (fun e r => e.remainingTtlIn profile = .ok r ∧ e.ttl.Admits r)
      plan.entries remaining ∧
    ∀ path (s : Shell σ), showPlan profile crates path (.ok json) s =
      .ok () { s with stdout := s.stdout ++ planText plan remaining }

def listedEntries (crates : PlanCrates) (json : String) : List RawEntry :=
  match crates.jsonFromStr json with
  | .error _ => []
  | .ok v => match RawPlan.fromJson v with
    | .ok raw => raw.entries
    | .error _ => []

theorem listed_of_planFromJson {crates : PlanCrates} {json : String} {plan : ArchivalPlan}
    (h : planFromJson crates json = .ok plan) :
    List.Forall₂ (fun raw e => e.ttl = ⟨raw.currentLedger,raw.liveUntilLedgerSeq⟩)
      (listedEntries crates json) plan.entries := by
  obtain ⟨v,hv,h⟩ := planFromJson_eq_ok.mp h
  obtain ⟨raw,hraw,h⟩ := bind_eq_ok h
  obtain ⟨entries,hentries,h⟩ := bind_eq_ok h
  cases Except.ok.inj h
  have hlisted : listedEntries crates json = raw.entries := by
    unfold listedEntries
    rw [hv]
    simp only [hraw]
  rw [hlisted]
  exact (mapM_eq_ok_iff.mp hentries).imp fun _ _ hdecode => RawEntry.ttl_of_decode hdecode

/-- A text is shown exactly when it is refused, or lists no entry that ends before the ledger it
was observed at. -/
theorem shown_iff (profile : Profile) (crates : PlanCrates) (json : String) :
    Shown σ profile crates json ↔
      (∃ err, planFromJson crates json = .error err) ∨
      ∀ raw ∈ listedEntries crates json, ∀ liveUntil, raw.liveUntilLedgerSeq = some liveUntil →
        raw.currentLedger ≤ liveUntil := by
  cases hplan : planFromJson crates json with
  | error err =>
    refine ⟨fun _ => .inl ⟨err,rfl⟩,?_⟩
    intro _ plan hok
    rw [hplan] at hok
    cases hok
  | ok plan =>
    have hlisted := listed_of_planFromJson hplan
    constructor
    · intro h
      obtain ⟨remaining,hall,_⟩ := h plan hplan
      refine .inr (forall₂_left hlisted ?_)
      intro e he raw httl liveUntil hlive
      by_contra hlt
      have hunder : e.ttl.Underflows :=
        ⟨liveUntil,by rw [httl]; exact hlive,by rw [httl]; exact UInt32.not_le.mp hlt⟩
      have hfine : ∀ e ∈ plan.entries, ¬e.ttl.Underflows := by
        refine forall₂_left hall ?_
        intro r _ e hr hunder
        exact EntryTtl.not_admits_of_underflows hunder hr.1 hr.2
      exact hfine e he hunder
    · intro h
      have horder := h.resolve_left (by rintro ⟨err,herr⟩; cases herr)
      have hfine : ∀ e ∈ plan.entries, ¬e.ttl.Underflows := by
        refine forall₂_right hlisted ?_
        intro raw hraw e httl hunder
        obtain ⟨liveUntil,hlive,hlt⟩ := hunder
        rw [httl] at hlive hlt
        exact absurd (horder raw hraw liveUntil hlive) (UInt32.not_le.mpr hlt)
      intro plan' hplan'
      rw [hplan] at hplan'
      cases Except.ok.inj hplan'
      have hall : List.Forall₂ (fun e r => e.remainingTtlIn profile = .ok r ∧ e.ttl.Admits r)
          plan.entries (plan.entries.map PlanEntry.remainingTtl) := by
        rw [List.forall₂_map_right_iff,List.forall₂_same]
        intro e he
        exact ⟨EntryTtl.ttlLedgersIn_of_not_underflows profile (hfine e he),
          EntryTtl.admits_of_not_underflows (hfine e he)⟩
      refine ⟨_,hall,?_⟩
      exact fun path s => showPlan_run hplan (hall.imp fun _ _ hr => hr.1) path s

/-- Neither build shows the plan whose one entry was live until ledger 1 and is seen at ledger 2. -/
theorem not_shown : ¬∃ profile, ∀ (crates : PlanCrates) (json : String),
    Shown Unit profile crates json := by
  rintro ⟨profile,h⟩
  have hkept : rewritten sampleFiles (codePlan 2 (some 1)) = .ok (codePlan 2 (some 1)) := by
    apply (rewritten_iff roundTripsText_sampleFiles _).mpr
    simp only [SelfConsistent,codePlan,List.forall_mem_singleton]
    exact ⟨rfl,rfl⟩
  obtain ⟨json,_,hread⟩ := bind_eq_ok hkept
  obtain ⟨remaining,hall,_⟩ := h sampleFiles json _ hread
  cases hall with
  | cons hr _ =>
    have hunder : (⟨2,some 1⟩ : EntryTtl).Underflows := ⟨1,rfl,by decide⟩
    exact EntryTtl.not_admits_of_underflows hunder hr.1 hr.2

end Cli

end SorobanRentKeeper

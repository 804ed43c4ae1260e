import SorobanRentKeeper.Core.Split
import SorobanRentKeeper.Framework.Json

namespace SorobanRentKeeper

/-- What serde reports about a document it cannot make a value of. -/
inductive DeError where
  | invalidType (found : Json) (expected : String)
  | invalidValue (found : Json) (expected : String)
  | invalidLength (length : Nat) (expected : String)
  | missingField (name : String)
  | duplicateField (name : String)
  | trailingCharacters
  | custom (text : String)

/-- The third-party functions plan files need besides: stellar-xdr's key decoder, serde_json's
printer and parser, and how it displays an error it met in a text. -/
structure PlanCrates extends Crates where
  keyFromXdrBase64 : String → Except String LedgerKey
  toStringPretty : Json → Except String String
  jsonFromStr : String → Except String Json
  displayError : String → DeError → String

/-- Decoding undoes rendering; it may accept other texts as well. -/
def PlanCrates.DecodesKeys (crates : PlanCrates) : Prop :=
  ∀ key text, LedgerKeys.render crates.toCrates key = .ok text →
    crates.keyFromXdrBase64 text = .ok key

/-- Documents of strings, nulls and `u32` numbers within the parser's depth limit are printed and
read back. -/
def PlanCrates.RoundTripsText (crates : PlanCrates) : Prop :=
  ∀ v, Json.Plain 127 v → ∃ text, crates.toStringPretty v = .ok text ∧
    crates.jsonFromStr text = .ok v

def OperationKind.asStr : OperationKind → String
  | .extend => "extend"
  | .restore => "restore"

def Durability.name : Durability → String
  | .temporary => "Temporary"
  | .persistent => "Persistent"

/-! `impl Serialize`. -/

def u32Json (x : UInt32) : Json := .natural x.toNat

def optionJson {α : Type} (f : α → Json) : Option α → Json
  | some a => f a
  | none => .null

/-- `json!` keeps the members of an object sorted by name. -/
def PlanEntry.toJson (e : PlanEntry) : Json :=
  .object [("current_ledger",u32Json e.ttl.currentLedger),
    ("durability",optionJson (fun d => .string d.name) e.durability),
    ("key_xdr",.string e.keyXdr),
    ("live_until_ledger_seq",optionJson u32Json e.ttl.liveUntilLedgerSeq),
    ("operation",.string e.kind.asStr)]

def ArchivalPlan.toJson (plan : ArchivalPlan) : Json :=
  .object [("network_passphrase",.string plan.networkPassphrase),
    ("reference_ledger",u32Json plan.referenceLedger),
    ("extend_to",u32Json plan.extendTo),
    ("entries",.array (plan.entries.map PlanEntry.toJson))]

def planToJson (crates : PlanCrates) (plan : ArchivalPlan) : Except RentkeeperError String :=
  (crates.toStringPretty plan.toJson).mapError fun e => .config ("json: " ++ e)

/-! `impl Deserialize`: the derived visitors of the two raw structs. -/

def readString : Json → Except DeError String
  | .string s => .ok s
  | v => .error (.invalidType v "a string")

def readU32 : Json → Except DeError UInt32
  | .natural n =>
    if n < 4294967296 then .ok (UInt32.ofNat n) else .error (.invalidValue (.natural n) "u32")
  | v => .error (.invalidType v "u32")

def readOptionU32 : Json → Except DeError (Option UInt32)
  | .null => .ok none
  | v => (readU32 v).map some

/-- A member of an object whose field is not filled yet. -/
def readField {α : Type} (read : Json → Except DeError α) (name : String) (field : Option α)
    (v : Json) : Except DeError (Option α) :=
  if field.isSome then .error (.duplicateField name) else (read v).map some

def required {α : Type} (name : String) : Option α → Except DeError α
  | some a => .ok a
  | none => .error (.missingField name)

/-- The element at `index` of a struct written as an array. -/
def element {α : Type} (read : Json → Except DeError α) (expected : String) (items : List Json)
    (index : Nat) : Except DeError α :=
  match items[index]? with
  | some v => read v
  | none => .error (.invalidLength index expected)

def elementOr {α : Type} (read : Json → Except DeError α) (default : α) (items : List Json)
    (index : Nat) : Except DeError α :=
  match items[index]? with
  | some v => read v
  | none => .ok default

structure RawEntry where
  keyXdr : String
  operation : String
  currentLedger : UInt32
  liveUntilLedgerSeq : Option UInt32

namespace RawEntry

/-- The fields met so far. -/
structure Fields where
  keyXdr : Option String
  operation : Option String
  currentLedger : Option UInt32
  liveUntilLedgerSeq : Option (Option UInt32)

def visitMap : List (String × Json) → Fields → Except DeError Fields
  | [],fields => .ok fields
  | (name,v)::members,fields => do
    if name = "key_xdr" then
      visitMap members { fields with keyXdr := ← readField readString name fields.keyXdr v }
    else if name = "operation" then
      visitMap members { fields with operation := ← readField readString name fields.operation v }
    else if name = "current_ledger" then
      visitMap members
        { fields with currentLedger := ← readField readU32 name fields.currentLedger v }
    else if name = "live_until_ledger_seq" then
      visitMap members { fields with
        liveUntilLedgerSeq := ← readField readOptionU32 name fields.liveUntilLedgerSeq v }
    else visitMap members fields

def visitSeq (items : List Json) : Except DeError RawEntry := do
  let expected := "struct RawEntry with 4 elements"
  let keyXdr ← element readString expected items 0
  let operation ← element readString expected items 1
  let currentLedger ← elementOr readU32 0 items 2
  let liveUntilLedgerSeq ← elementOr readOptionU32 none items 3
  if 4 < items.length then throw .trailingCharacters
  return ⟨keyXdr,operation,currentLedger,liveUntilLedgerSeq⟩

def fromJson : Json → Except DeError RawEntry
  | .object members => do
    let fields ← visitMap members ⟨none,none,none,none⟩
    let keyXdr ← required "key_xdr" fields.keyXdr
    let operation ← required "operation" fields.operation
    return ⟨keyXdr,operation,fields.currentLedger.getD 0,fields.liveUntilLedgerSeq.getD none⟩
  | .array items => visitSeq items
  | v => .error (.invalidType v "struct RawEntry")

end RawEntry

structure RawPlan where
  networkPassphrase : String
  referenceLedger : UInt32
  extendTo : UInt32
  entries : List RawEntry

namespace RawPlan

def readEntries : Json → Except DeError (List RawEntry)
  | .array items => items.mapM RawEntry.fromJson
  | v => .error (.invalidType v "a sequence")

/-- The fields met so far. -/
structure Fields where
  networkPassphrase : Option String
  referenceLedger : Option UInt32
  extendTo : Option UInt32
  entries : Option (List RawEntry)

def visitMap : List (String × Json) → Fields → Except DeError Fields
  | [],fields => .ok fields
  | (name,v)::members,fields => do
    if name = "network_passphrase" then
      visitMap members { fields with
        networkPassphrase := ← readField readString name fields.networkPassphrase v }
    else if name = "reference_ledger" then
      visitMap members
        { fields with referenceLedger := ← readField readU32 name fields.referenceLedger v }
    else if name = "extend_to" then
      visitMap members { fields with extendTo := ← readField readU32 name fields.extendTo v }
    else if name = "entries" then
      visitMap members { fields with entries := ← readField readEntries name fields.entries v }
    else visitMap members fields

def visitSeq (items : List Json) : Except DeError RawPlan := do
  let expected := "struct RawPlan with 4 elements"
  let networkPassphrase ← element readString expected items 0
  let referenceLedger ← element readU32 expected items 1
  let extendTo ← element readU32 expected items 2
  let entries ← elementOr readEntries [] items 3
  if 4 < items.length then throw .trailingCharacters
  return ⟨networkPassphrase,referenceLedger,extendTo,entries⟩

def fromJson : Json → Except DeError RawPlan
  | .object members => do
    let fields ← visitMap members ⟨none,none,none,none⟩
    let networkPassphrase ← required "network_passphrase" fields.networkPassphrase
    let referenceLedger ← required "reference_ledger" fields.referenceLedger
    let extendTo ← required "extend_to" fields.extendTo
    return ⟨networkPassphrase,referenceLedger,extendTo,fields.entries.getD []⟩
  | .array items => visitSeq items
  | v => .error (.invalidType v "struct RawPlan")

end RawPlan

def operationKind (operation : String) : Except DeError OperationKind :=
  if operation = "extend" then .ok .extend
  else if operation = "restore" then .ok .restore
  else .error (.custom ("unknown operation kind: " ++ operation))

/-- The loop body of `deserialize`: the durability comes from the key. -/
def RawEntry.decode (crates : PlanCrates) (e : RawEntry) : Except DeError PlanEntry := do
  let key ← (crates.keyFromXdrBase64 e.keyXdr).mapError .custom
  let kind ← operationKind e.operation
  return ⟨key,e.keyXdr,kind,durabilityOf key,⟨e.currentLedger,e.liveUntilLedgerSeq⟩⟩

def ArchivalPlan.fromJson (crates : PlanCrates) (v : Json) : Except DeError ArchivalPlan := do
  let raw ← RawPlan.fromJson v
  let entries ← raw.entries.mapM (RawEntry.decode crates)
  return ⟨raw.networkPassphrase,raw.referenceLedger,raw.extendTo,entries⟩

def planFromJson (crates : PlanCrates) (json : String) : Except RentkeeperError ArchivalPlan :=
  match crates.jsonFromStr json with
  | .error e => .error (.config ("json: " ++ e))
  | .ok v => (ArchivalPlan.fromJson crates v).mapError fun e =>
      .config ("json: " ++ crates.displayError json e)

/-- Each entry's text decodes to its key, and its durability is the key's. -/
def SelfConsistent (crates : PlanCrates) (plan : ArchivalPlan) : Prop :=
  ∀ e ∈ plan.entries, crates.keyFromXdrBase64 e.keyXdr = .ok e.key ∧
    e.durability = durabilityOf e.key

theorem readU32_u32Json (x : UInt32) : readU32 (u32Json x) = .ok x := by
  simp [readU32,u32Json,x.toNat_lt]

theorem readOptionU32_optionJson (x : Option UInt32) :
    readOptionU32 (optionJson u32Json x) = .ok x := by
  cases x with
  | none => rfl
  | some x =>
    have hx := readU32_u32Json x
    simp only [optionJson,u32Json] at hx ⊢
    simp [readOptionU32,hx,Except.map]

/-- What is left of an entry in its document. -/
def PlanEntry.raw (e : PlanEntry) : RawEntry :=
  ⟨e.keyXdr,e.kind.asStr,e.ttl.currentLedger,e.ttl.liveUntilLedgerSeq⟩

theorem RawEntry.fromJson_toJson (e : PlanEntry) : RawEntry.fromJson e.toJson = .ok e.raw := by
  simp [fromJson,PlanEntry.toJson,visitMap,readField,readU32_u32Json,readOptionU32_optionJson,
    readString,required,Except.map,PlanEntry.raw,bind,Except.bind,pure,Except.pure]

theorem RawPlan.fromJson_toJson (plan : ArchivalPlan) :
    RawPlan.fromJson plan.toJson = .ok ⟨plan.networkPassphrase,plan.referenceLedger,
      plan.extendTo,plan.entries.map PlanEntry.raw⟩ := by
  have hentries : readEntries (.array (plan.entries.map PlanEntry.toJson)) =
      .ok (plan.entries.map PlanEntry.raw) := by
    unfold readEntries
    rw [Program.mapM_eq_ok_iff,List.forall₂_map_left_iff,List.forall₂_map_right_iff,
      List.forall₂_same]
    exact fun e _ => RawEntry.fromJson_toJson e
  simp [fromJson,ArchivalPlan.toJson,visitMap,readField,readU32_u32Json,readString,hentries,
    required,Except.map,bind,Except.bind,pure,Except.pure]

theorem operationKind_asStr (kind : OperationKind) : operationKind kind.asStr = .ok kind := by
  cases kind <;> rfl

theorem RawEntry.decode_ok {crates : PlanCrates} {raw : RawEntry} {e : PlanEntry}
    (h : raw.decode crates = .ok e) :
    crates.keyFromXdrBase64 e.keyXdr = .ok e.key ∧ e.durability = durabilityOf e.key := by
  unfold decode at h
  obtain ⟨key,hkey,h⟩ := Program.bind_eq_ok h
  obtain ⟨kind,_,h⟩ := Program.bind_eq_ok h
  cases h
  exact ⟨Program.mapError_eq_ok hkey,rfl⟩

/-- An entry survives exactly when it is consistent with its text. -/
theorem RawEntry.decode_raw_iff (crates : PlanCrates) (e : PlanEntry) :
    e.raw.decode crates = .ok e ↔
      crates.keyFromXdrBase64 e.keyXdr = .ok e.key ∧ e.durability = durabilityOf e.key := by
  constructor
  · exact RawEntry.decode_ok
  · intro h
    obtain ⟨hkey,hdurability⟩ := h
    simp [RawEntry.decode,PlanEntry.raw,hkey,operationKind_asStr,Except.mapError,bind,Except.bind,
      pure,Except.pure,← hdurability]

theorem fromJson_toJson_iff (crates : PlanCrates) (plan : ArchivalPlan) :
    ArchivalPlan.fromJson crates plan.toJson = .ok plan ↔ SelfConsistent crates plan := by
  have hentries : (plan.entries.map PlanEntry.raw).mapM (RawEntry.decode crates) =
      .ok plan.entries ↔ SelfConsistent crates plan := by
    rw [Program.mapM_eq_ok_iff,List.forall₂_map_left_iff,List.forall₂_same]
    exact forall₂_congr fun e _ => RawEntry.decode_raw_iff crates e
  rw [← hentries]
  unfold ArchivalPlan.fromJson
  rw [RawPlan.fromJson_toJson]
  constructor
  · intro h
    obtain ⟨raw,hraw,h⟩ := Program.bind_eq_ok h
    cases hraw
    obtain ⟨entries,hmap,h⟩ := Program.bind_eq_ok h
    have hplan := Except.ok.inj h
    rw [hmap,← hplan]
  · intro h
    simp only [bind,Except.bind] at h ⊢
    rw [h]
    rfl

theorem plain_optionJson {α : Type} {f : α → Json} (n : Nat) (h : ∀ a, Json.Plain n (f a))
    (x : Option α) : Json.Plain n (optionJson f x) := by
  cases x with
  | none => exact .null n
  | some a => exact h a

theorem plain_u32Json (n : Nat) (x : UInt32) : Json.Plain n (u32Json x) :=
  .natural n _ x.toNat_lt

/-- A plan's document is three levels deep, and made of strings, nulls and `u32` numbers. -/
theorem ArchivalPlan.plain_toJson (plan : ArchivalPlan) (n : Nat) :
    Json.Plain (n + 3) plan.toJson := by
  have hentry (e : PlanEntry) : Json.Plain (n + 1) e.toJson := by
    refine .object n _ (by simp) ?_
    simp only [List.forall_mem_cons]
    exact ⟨plain_u32Json n _,plain_optionJson n (fun _ => .string n _) _,.string n _,
      plain_optionJson n (plain_u32Json n) _,.string n _,by simp⟩
  have hentries : Json.Plain (n + 2) (.array (plan.entries.map PlanEntry.toJson)) := by
    refine .array (n + 1) _ ?_
    intro v hv
    obtain ⟨e,_,rfl⟩ := List.mem_map.mp hv
    exact hentry e
  refine .object (n + 2) _ (by simp) ?_
  simp only [List.forall_mem_cons]
  exact ⟨.string _ _,plain_u32Json _ _,plain_u32Json _ _,hentries,by simp⟩

/-- Writing a plan and reading the text. -/
def rewritten (crates : PlanCrates) (plan : ArchivalPlan) : Except RentkeeperError ArchivalPlan :=
  planToJson crates plan >>= planFromJson crates

theorem planFromJson_eq_ok {crates : PlanCrates} {json : String} {plan : ArchivalPlan} :
    planFromJson crates json = .ok plan ↔
      ∃ v, crates.jsonFromStr json = .ok v ∧ ArchivalPlan.fromJson crates v = .ok plan := by
  unfold planFromJson
  cases hv : crates.jsonFromStr json with
  | error e => simp
  | ok v => cases hplan : ArchivalPlan.fromJson crates v <;> simp [Except.mapError,hplan]

theorem rewritten_iff {crates : PlanCrates} (htext : crates.RoundTripsText)
    (plan : ArchivalPlan) : rewritten crates plan = .ok plan ↔ SelfConsistent crates plan := by
  obtain ⟨text,hprint,hparse⟩ := htext plan.toJson (plan.plain_toJson 124)
  have hjson : planToJson crates plan = .ok text := by simp [planToJson,hprint,Except.mapError]
  have hrewritten : rewritten crates plan = planFromJson crates text := by
    rw [rewritten,hjson]
    rfl
  rw [hrewritten,planFromJson_eq_ok,← fromJson_toJson_iff]
  simp [hparse]

/-- Whatever the reader accepts is consistent. -/
theorem selfConsistent_of_planFromJson {crates : PlanCrates} {json : String} {plan : ArchivalPlan}
    (h : planFromJson crates json = .ok plan) : SelfConsistent crates plan := by
  obtain ⟨v,_,h⟩ := planFromJson_eq_ok.mp h
  obtain ⟨raw,_,h⟩ := Program.bind_eq_ok h
  obtain ⟨entries,hentries,h⟩ := Program.bind_eq_ok h
  cases Except.ok.inj h
  exact Program.forall₂_right (Program.mapM_eq_ok_iff.mp hentries)
    fun _ _ _ hdecode => RawEntry.decode_ok hdecode

/-- So is a plan of rendered entries. -/
theorem selfConsistent_of_rendered {crates : PlanCrates} (hkeys : crates.DecodesKeys)
    {plan : ArchivalPlan} (h : ∀ e ∈ plan.entries, Rendered crates.toCrates e) :
    SelfConsistent crates plan := by
  intro e he
  obtain ⟨hrender,hdurability⟩ := h e he
  exact ⟨hkeys e.key e.keyXdr hrender,hdurability⟩

/-- Rewriting a plan gives it back exactly when it is self-consistent; the planners make such
plans only, and the reader accepts such plans only. -/
theorem planJson_roundTrip (crates : PlanCrates) (htext : crates.RoundTripsText)
    (hkeys : crates.DecodesKeys) :
    (∀ plan, rewritten crates plan = .ok plan ↔ SelfConsistent crates plan) ∧
    (∀ planner observations currentLedger plan,
      Planner.planExtend crates.toCrates planner observations currentLedger = .ok plan →
        SelfConsistent crates plan) ∧
    (∀ planner observations currentLedger plans,
      Planner.planExtendSplit crates.toCrates planner observations currentLedger = .ok plans →
        ∀ plan ∈ plans, SelfConsistent crates plan) ∧
    (∀ planner observations currentLedger plan,
      Planner.planRestore crates.toCrates planner observations currentLedger = .ok plan →
        SelfConsistent crates plan) ∧
    ∀ json plan, planFromJson crates json = .ok plan → rewritten crates plan = .ok plan := by
  refine ⟨rewritten_iff htext,?_,?_,?_,?_⟩
  · intro planner observations currentLedger plan h
    obtain ⟨_,hpushed⟩ := Planner.planExtend_ok h
    exact selfConsistent_of_rendered hkeys (rendered_of_pushed (fun _ _ => ⟨rfl,rfl,rfl⟩) hpushed)
  · intro planner observations currentLedger plans h plan hplan
    apply selfConsistent_of_rendered hkeys
    intro e he
    obtain ⟨o,_,keyXdr,hrender,rfl⟩ := Planner.planExtendSplit_entries h plan hplan e he
    exact ⟨hrender,rfl⟩
  · intro planner observations currentLedger plan h
    obtain ⟨_,hpushed⟩ := Planner.planRestore_ok h
    exact selfConsistent_of_rendered hkeys (rendered_of_pushed (fun _ _ => ⟨rfl,rfl,rfl⟩) hpushed)
  · intro json plan h
    exact (rewritten_iff htext plan).mpr (selfConsistent_of_planFromJson h)

/-- The sample libraries with a JSON printer and parser. Of the keys only the two sample entries
are rendered. Unlike `serde_json`, the parser refuses a lone surrogate in a member nobody reads. -/
def sampleFiles : PlanCrates where
  toCrates := { sampleCrates with
    keyToXdrBase64 := fun key =>
      if key = codeKey then .ok "AAAABwAAAAAAAAAAAAAAAAAAAAAAAAAAAAAAAAAAAAAAAAAA"
      else if key = dataKey then
        .ok "AAAABgAAAAEAAAAAAAAAAAAAAAAAAAAAAAAAAAAAAAAAAAAAAAAAAAAAAAMAAAAHAAAAAA=="
      else .error "xdr value invalid" }
  keyFromXdrBase64 text :=
    if text = "AAAABwAAAAAAAAAAAAAAAAAAAAAAAAAAAAAAAAAAAAAAAAAA" then .ok codeKey
    else if text =
        "AAAABgAAAAEAAAAAAAAAAAAAAAAAAAAAAAAAAAAAAAAAAAAAAAAAAAAAAAMAAAAHAAAAAA==" then
      .ok dataKey
    else .error "xdr value invalid"
  toStringPretty v := .ok (String.ofList (Json.pretty 0 v))
  jsonFromStr text :=
    match Json.parse text.toList with
    | some v => .ok v
    | none => .error "expected value"
  displayError _ e :=
    match e with
    | .custom text => text
    | _ => "invalid type"

theorem decodesKeys_sampleFiles : sampleFiles.DecodesKeys := by
  intro key text h
  have htext := Program.mapError_eq_ok h
  simp only [sampleFiles] at htext
  split_ifs at htext with hcode hdata
  · cases htext
    rw [hcode]
    rfl
  · cases htext
    rw [hdata]
    rfl

theorem roundTripsText_sampleFiles : sampleFiles.RoundTripsText := by
  intro v h
  have hparse := Json.parse_pretty h [] [] (by simp) (by simp)
  simp only [List.nil_append,List.append_nil] at hparse
  exact ⟨_,rfl,by simp [sampleFiles,hparse]⟩

/-- The code entry, to be extended, and the plan that holds it. -/
def codePlan (current : UInt32) (live : Option UInt32) : ArchivalPlan :=
  ⟨"Test SDF Network ; September 2015",100,518400,
    [⟨codeKey,"AAAABwAAAAAAAAAAAAAAAAAAAAAAAAAAAAAAAAAAAAAAAAAA",.extend,none,⟨current,live⟩⟩]⟩

/-- A plan document with fields left out, one to be ignored and a durability code does not have. -/
def editedPlan : Json :=
  .object [("extend_to",.natural 518400),("note",.null),("reference_ledger",.natural 100),
    ("entries",.array [.object [("durability",.string "Temporary"),("operation",.string "extend"),
      ("key_xdr",.string "AAAABwAAAAAAAAAAAAAAAAAAAAAAAAAAAAAAAAAAAAAAAAAA")]]),
    ("network_passphrase",.string "Test SDF Network ; September 2015")]

theorem plain_editedPlan : Json.Plain 127 editedPlan := by
  have hentry : ∀ v ∈ [Json.object [("durability",.string "Temporary"),
      ("operation",.string "extend"),
      ("key_xdr",.string "AAAABwAAAAAAAAAAAAAAAAAAAAAAAAAAAAAAAAAAAAAAAAAA")]],
      Json.Plain 125 v := by
    rw [List.forall_mem_singleton]
    refine .object 124 _ (by decide) ?_
    simp only [List.forall_mem_cons]
    exact ⟨.string _ _,.string _ _,.string _ _,by simp⟩
  refine .object 126 _ (by decide) ?_
  simp only [List.forall_mem_cons]
  exact ⟨.natural _ _ (by decide),.null _,.natural _ _ (by decide),.array _ _ hentry,
    .string _ _,by simp⟩

theorem planJson_roundTrip_sample :
    rewritten sampleFiles (codePlan 100 (some 200)) = .ok (codePlan 100 (some 200)) ∧
    rewritten sampleFiles (codePlan 0 none) = .ok (codePlan 0 none) := by
  have h := planJson_roundTrip sampleFiles roundTripsText_sampleFiles decodesKeys_sampleFiles
  constructor
  · apply (h.1 _).mpr
    simp only [SelfConsistent,codePlan,List.forall_mem_singleton]
    exact ⟨rfl,rfl⟩
  · obtain ⟨text,_,hparse⟩ := roundTripsText_sampleFiles editedPlan plain_editedPlan
    exact h.2.2.2.2 text _ (planFromJson_eq_ok.mpr ⟨editedPlan,hparse,rfl⟩)

end SorobanRentKeeper

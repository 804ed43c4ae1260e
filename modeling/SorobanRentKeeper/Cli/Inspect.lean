import SorobanRentKeeper.Cli.HashParser
import SorobanRentKeeper.Cli.ShowPlan
import SorobanRentKeeper.Cli.Validity
import SorobanRentKeeper.Framework.Columns

namespace SorobanRentKeeper

open Program

/-- The arguments of `inspect`; `--include-code` is read and dropped. -/
structure InspectArgs where
  contract : String
  keyXdr : Option String
  durability : String
  includeCode : Bool
  wasmHash : Option String

/-- Two states a reader of the table cannot tell apart. -/
def EntryState.Same : EntryState → EntryState → Prop
  | .live ttl,.live ttl' => ttl = ttl'
  | .expiredButPresent _,.expiredButPresent _ => True
  | .archived _,.archived _ => True
  | _,_ => False

namespace Cli

variable {σ : Type}

/-- The entry `inspect` is about: the one named, else the contract's instance. -/
def inspectEntry (crates : Crates) (args : InspectArgs) : Except CliError LedgerKey := do
  let contractBytes ← contractIdBytes crates args.contract
  match args.keyXdr with
  | some xdr => do
    let key ← parseScval crates xdr
    let durability ← parseDurability args.durability
    return LedgerKeys.contractData contractBytes key durability
  | none => return LedgerKeys.contractData contractBytes instanceKey .persistent

def inspectKeys (crates : Crates) (args : InspectArgs) :
    Except (Fault CliError) (List LedgerKey) := do
  let entry ← (inspectEntry crates args).mapError .failed
  match args.wasmHash with
  | some hash => do
    let bytes ← wasmHashBytes hash
    return [entry,LedgerKeys.contractCode bytes]
  | none => return [entry]

def kindName : LedgerKey → String
  | .contractData _ => "contract_data"
  | .contractCode _ => "contract_code"
  | .ttl _ => "ttl"
  | _ => "other"

/-- `"{kind:<12} {durability:<11} {live_until:>18} {status:>12}"`. -/
def tableRow (kind durability liveUntil status : String) : String :=
  String.ofList (Columns.line ' ' [Columns.padEnd ' ' 12 kind.toList,
    Columns.padEnd ' ' 11 durability.toList,Columns.padStart ' ' 18 liveUntil.toList,
    Columns.padStart ' ' 12 status.toList])

/-- The last two columns of an entry. -/
def inspectState (profile : Profile) : EntryState → Except (Fault CliError) (String × String)
  | .live ttl => do
    let remaining ← ttl.ttlLedgersIn profile
    return ((ttl.liveUntilLedgerSeq.map fun l => toString l.toNat).getD "none",
      "live (ttl " ++ toString (remaining.getD 0).toNat ++ ")")
  | .expiredButPresent _ => .ok ("expired","needs restore")
  | .archived _ => .ok ("archived","needs restore")

def inspectionRow (profile : Profile) (key : LedgerKey) (o : Observation) :
    Except (Fault CliError) String := do
  let (liveUntil,status) ← inspectState profile o.entry
  return tableRow (kindName key) (((durabilityOf key).map Durability.name).getD "-") liveUntil
    status

def tableHeader : String := tableRow "KIND" "DURABILITY" "LIVE_UNTIL" "STATUS"

def printRows (profile : Profile) :
    List (LedgerKey × Observation) → EStateM (Fault CliError) (Shell σ) Unit
  | [] => return ()
  | o::rows => do
    let row ← Program.ofExcept (inspectionRow profile o.1 o.2)
    printLine row
    printRows profile rows

def inspect (profile : Profile) (tool : Tool σ) (opts : ConnectOpts) (args : InspectArgs) :
    EStateM (Fault CliError) (Shell σ) Unit := do
  EStateM.adaptExcept .failed (connect tool opts)
  let keys ← Program.ofExcept (inspectKeys tool.crates.toCrates args)
  let observations ← EStateM.adaptExcept .failed
    (onWorld (Provider.observeEntries tool.crates.toCrates tool.node keys))
  printLine tableHeader
  printRows profile (keys.zip observations)

/-- The last two columns where nothing underflows. -/
def shownState : EntryState → String × String
  | .live ttl => ((ttl.liveUntilLedgerSeq.map fun l => toString l.toNat).getD "none",
      "live (ttl " ++ toString (ttl.ttlLedgers.getD 0).toNat ++ ")")
  | .expiredButPresent _ => ("expired","needs restore")
  | .archived _ => ("archived","needs restore")

/-- The row of an entry, as it stands in both builds. -/
def rowOf (key : LedgerKey) (o : Observation) : String :=
  tableRow (kindName key) (((durabilityOf key).map Durability.name).getD "-")
    (shownState o.entry).1 (shownState o.entry).2

/-- An observation as a node's reply gives it: what is live outlives the ledger of the reply. -/
def Sound (o : Observation) : Prop :=
  ∀ ttl, o.entry = .live ttl → ttl.Live ∧ ttl.currentLedger = o.currentLedger

theorem sound_of_reported {crates : Crates} {response : GetLedgerEntriesResponse}
    {key : LedgerKey} {o : Observation} (h : Provider.Reported crates response key o) :
    Sound o := by
  obtain ⟨index,keyXdr,_,_,rfl⟩ := h
  intro ttl hlive
  unfold Provider.observation at hlive ⊢
  split at hlive
  · next liveUntil _ =>
    split at hlive
    · next hlt =>
      cases hlive
      exact ⟨⟨liveUntil,rfl,hlt⟩,by simp [hlt]⟩
    · cases hlive
  · cases hlive

theorem inspectState_of_sound (profile : Profile) {o : Observation} (h : Sound o) :
    inspectState profile o.entry = .ok (shownState o.entry) := by
  cases hentry : o.entry with
  | live ttl =>
    obtain ⟨hlive,_⟩ := h ttl hentry
    simp only [inspectState,
      EntryTtl.ttlLedgersIn_of_not_underflows profile hlive.not_underflows]
    rfl
  | expiredButPresent info => rfl
  | archived info => rfl

/-- No build panics on such an observation, and both print the same. -/
theorem inspectionRow_of_sound (profile : Profile) (key : LedgerKey) {o : Observation}
    (h : Sound o) : inspectionRow profile key o = .ok (rowOf key o) := by
  unfold inspectionRow
  rw [inspectState_of_sound profile h]
  rfl

/-- Rows one below the other. -/
def tableText (rows : List String) : String :=
  rows.foldr (fun row text => row ++ "\n" ++ text) ""

/-- The loop prints a row for each entry, in order. -/
theorem printRows_run (profile : Profile) {rows : List (LedgerKey × Observation)}
    (h : ∀ o ∈ rows, Sound o.2) (s : Shell σ) : printRows profile rows s =
      .ok () { s with stdout := s.stdout ++ tableText (rows.map fun o => rowOf o.1 o.2) } := by
  induction rows generalizing s with
  | nil =>
    simp only [List.map_nil,tableText,List.foldr_nil,String.append_empty]
    rfl
  | cons o rows ih =>
    obtain ⟨ho,hrows⟩ := List.forall_mem_cons.mp h
    unfold printRows
    rw [inspectionRow_of_sound profile o.1 ho,ofExcept_ok,pure_bind,printLine_bind,ih hrows]
    simp only [List.map_cons,tableText,List.foldr_cons,String.append_assoc]

/-- The words of the last two columns. -/
def stateWords : EntryState → List (List Char)
  | .live ttl => [
      ((ttl.liveUntilLedgerSeq.map fun l => Nat.toDigits 10 l.toNat).getD "none".toList),
      "live".toList,"(ttl".toList,Nat.toDigits 10 (ttl.ttlLedgers.getD 0).toNat ++ [')']]
  | .expiredButPresent _ => ["expired".toList,"needs".toList,"restore".toList]
  | .archived _ => ["archived".toList,"needs".toList,"restore".toList]

def rowWords (key : LedgerKey) (o : Observation) : List (List Char) :=
  (kindName key).toList::(((durabilityOf key).map Durability.name).getD "-").toList::
    stateWords o.entry

theorem digits_words (n : Nat) (after : List Char) (h : ' ' ∉ after) :
    Columns.words ' ' (Nat.toDigits 10 n ++ after) = [Nat.toDigits 10 n ++ after] := by
  apply Columns.words_of_not_mem
  · rw [List.mem_append,not_or]
    refine ⟨?_,h⟩
    intro hmem
    have hdigit := Nat.isDigit_of_mem_toDigits (b := 10) (n := n) (by decide) (by decide) hmem
    cases hdigit
  · intro hnil
    exact Nat.toDigits_ne_nil (List.append_eq_nil_iff.mp hnil).1

theorem words_shownState (state : EntryState) :
    Columns.words ' ' (shownState state).1.toList ++ Columns.words ' ' (shownState state).2.toList =
      stateWords state := by
  cases state with
  | live ttl =>
    have hstatus (n : Nat) : ("live (ttl " ++ toString n ++ ")").toList = "live".toList ++
        ' '::("(ttl".toList ++ ' '::(Nat.toDigits 10 n ++ [')'])) := by
      have hdigits : (toString n).toList = Nat.toDigits 10 n := String.toList_ofList
      rw [String.toList_append,String.toList_append,hdigits,List.append_assoc]
      rfl
    have hlive : Columns.words ' '
        ((ttl.liveUntilLedgerSeq.map fun l => toString l.toNat).getD "none").toList =
        [(ttl.liveUntilLedgerSeq.map fun l => Nat.toDigits 10 l.toNat).getD "none".toList] := by
      cases ttl.liveUntilLedgerSeq with
      | none => decide
      | some l =>
        have hwords := digits_words l.toNat [] (by simp)
        rw [List.append_nil] at hwords
        rw [Option.map_some,Option.map_some,Option.getD_some,Option.getD_some,
          Nat.toString_eq_ofList_toDigits,String.toList_ofList,hwords]
    simp only [shownState,stateWords]
    rw [hlive,hstatus,Columns.words_append,Columns.words_append,digits_words _ [')'] (by decide)]
    rfl
  | expiredButPresent info =>
    show Columns.words ' ' "expired".toList ++ Columns.words ' ' "needs restore".toList =
      ["expired".toList,"needs".toList,"restore".toList]
    decide
  | archived info =>
    show Columns.words ' ' "archived".toList ++ Columns.words ' ' "needs restore".toList =
      ["archived".toList,"needs".toList,"restore".toList]
    decide

def kindNames : List String := ["contract_data","contract_code","ttl","other"]

theorem kindName_mem (key : LedgerKey) : kindName key ∈ kindNames := by
  cases key <;> simp [kindName,kindNames]

/-- The words of a row: its kind, its durability, and what there is to say of its state. -/
theorem words_rowOf (key : LedgerKey) (o : Observation) :
    Columns.words ' ' (rowOf key o).toList = rowWords key o := by
  have hkind : Columns.words ' ' (kindName key).toList = [(kindName key).toList] :=
    (by decide : ∀ name ∈ kindNames, Columns.words ' ' name.toList = [name.toList]) _
      (kindName_mem key)
  have hdurability : Columns.words ' ' (((durabilityOf key).map Durability.name).getD "-").toList =
      [(((durabilityOf key).map Durability.name).getD "-").toList] := by
    cases durabilityOf key with
    | none => decide
    | some durability => cases durability <;> decide
  have hstate := words_shownState o.entry
  unfold rowOf tableRow rowWords
  rw [String.toList_ofList,Columns.words_line]
  simp only [List.flatMap_cons,List.flatMap_nil,List.append_nil,Columns.words_padEnd,
    Columns.words_padStart,hkind,hdurability,hstate]
  rfl

theorem toDigits_inj {a b : Nat} (h : Nat.toDigits 10 a = Nat.toDigits 10 b) : a = b := by
  have hvalue := congrArg (fun cs => Nat.ofDigitChars 10 cs 0) h
  simpa only [Nat.ofDigitChars_ten_toDigits] using hvalue

/-- The two numbers of a live row give the whole TTL state back. -/
theorem ttl_of_stateWords {ttl ttl' : EntryTtl} (hlive : ttl.Live) (hlive' : ttl'.Live)
    (h : stateWords (.live ttl) = stateWords (.live ttl')) : ttl = ttl' := by
  obtain ⟨current,_⟩ := ttl
  obtain ⟨current',_⟩ := ttl'
  obtain ⟨l,rfl,hlt⟩ := hlive
  obtain ⟨l',rfl,hlt'⟩ := hlive'
  change current < l at hlt
  change current' < l' at hlt'
  simp only [stateWords,Option.map_some,Option.getD_some,List.cons.injEq,and_true,true_and,
    EntryTtl.ttlLedgers,List.append_cancel_right_eq] at h
  have hl : l = l' := UInt32.toNat_inj.mp (toDigits_inj h.1)
  have hrest := toDigits_inj h.2
  rw [sub_toUInt64 l current (UInt32.le_of_lt hlt),
    sub_toUInt64 l' current' (UInt32.le_of_lt hlt')] at hrest
  have hcurrent : current = current' := by
    apply UInt32.toNat_inj.mp
    rw [UInt32.lt_iff_toNat_lt] at hlt hlt'
    subst hl
    omega
  rw [hl,hcurrent]

theorem same_of_stateWords {o o' : Observation} (h : Sound o) (h' : Sound o')
    (hwords : stateWords o.entry = stateWords o'.entry) : o.entry.Same o'.entry := by
  cases hentry : o.entry with
  | live ttl =>
    cases hentry' : o'.entry with
    | live ttl' =>
      rw [hentry,hentry'] at hwords
      exact ttl_of_stateWords (h ttl hentry).1 (h' ttl' hentry').1 hwords
    | expiredButPresent info => simp [hentry,hentry',stateWords] at hwords
    | archived info => simp [hentry,hentry',stateWords] at hwords
  | expiredButPresent info =>
    cases hentry' : o'.entry with
    | live ttl' => simp [hentry,hentry',stateWords] at hwords
    | expiredButPresent info' => trivial
    | archived info' => simp [hentry,hentry',stateWords] at hwords
  | archived info =>
    cases hentry' : o'.entry with
    | live ttl' => simp [hentry,hentry',stateWords] at hwords
    | expiredButPresent info' => simp [hentry,hentry',stateWords] at hwords
    | archived info' => trivial

theorem shownState_of_same {state state' : EntryState} (h : state.Same state') :
    shownState state = shownState state' := by
  cases state with
  | live ttl =>
    cases state' with
    | live ttl' => rw [show ttl = ttl' from h]
    | expiredButPresent info => cases h
    | archived info => cases h
  | expiredButPresent info =>
    cases state' with
    | expiredButPresent info' => rfl
    | live ttl' => cases h
    | archived info' => cases h
  | archived info =>
    cases state' with
    | archived info' => rfl
    | live ttl' => cases h
    | expiredButPresent info' => cases h

theorem durability_of_column {d d' : Option Durability}
    (h : (d.map Durability.name).getD "-" = (d'.map Durability.name).getD "-") : d = d' := by
  rcases d with _|_|_ <;> rcases d' with _|_|_ <;> first | rfl | exact absurd h (by decide)

/-- What a row says, and all it says. -/
structure Alike (key key' : LedgerKey) (o o' : Observation) : Prop where
  kind : kindName key = kindName key'
  durability : durabilityOf key = durabilityOf key'
  state : o.entry.Same o'.entry

/-- Rows of different entries differ, except for what is in no column. -/
theorem rowOf_eq_iff {key key' : LedgerKey} {o o' : Observation} (h : Sound o) (h' : Sound o') :
    rowOf key o = rowOf key' o' ↔ Alike key key' o o' := by
  constructor
  · intro heq
    have hwords := congrArg (fun row => Columns.words ' ' row.toList) heq
    simp only [words_rowOf,rowWords,List.cons.injEq] at hwords
    obtain ⟨hkind,hdurability,hstate⟩ := hwords
    refine ⟨String.toList_injective hkind,?_,same_of_stateWords h h' hstate⟩
    exact durability_of_column (String.toList_injective hdurability)
  · intro halike
    unfold rowOf
    rw [halike.kind,halike.durability,shownState_of_same halike.state]

theorem newline_digits (n : Nat) : '\n' ∉ (toString n).toList := by
  rw [Nat.toString_eq_ofList_toDigits,String.toList_ofList]
  intro hmem
  have hdigit := Nat.isDigit_of_mem_toDigits (b := 10) (n := n) (by decide) (by decide) hmem
  cases hdigit

theorem newline_liveStatus (n : Nat) : '\n' ∉ ("live (ttl " ++ toString n ++ ")").toList := by
  have hdigits := newline_digits n
  have hbefore : '\n' ∉ "live (ttl ".toList := by decide
  have hafter : '\n' ∉ ")".toList := by decide
  rw [String.toList_append,String.toList_append,List.mem_append,List.mem_append,not_or,not_or]
  exact ⟨⟨hbefore,hdigits⟩,hafter⟩

theorem newline_shownState (state : EntryState) :
    '\n' ∉ (shownState state).1.toList ∧ '\n' ∉ (shownState state).2.toList := by
  cases state with
  | live ttl =>
    have hlive : '\n' ∉
        ((ttl.liveUntilLedgerSeq.map fun l => toString l.toNat).getD "none").toList := by
      cases ttl.liveUntilLedgerSeq with
      | none => decide
      | some l => exact newline_digits l.toNat
    exact ⟨hlive,newline_liveStatus (ttl.ttlLedgers.getD 0).toNat⟩
  | expiredButPresent info =>
    have hexpired : '\n' ∉ "expired".toList ∧ '\n' ∉ "needs restore".toList := by decide
    exact hexpired
  | archived info =>
    have harchived : '\n' ∉ "archived".toList ∧ '\n' ∉ "needs restore".toList := by decide
    exact harchived

theorem newline_rowOf (key : LedgerKey) (o : Observation) : '\n' ∉ (rowOf key o).toList := by
  have hkind : '\n' ∉ (kindName key).toList :=
    (by decide : ∀ name ∈ kindNames, '\n' ∉ name.toList) _ (kindName_mem key)
  have hdurability : '\n' ∉ (((durabilityOf key).map Durability.name).getD "-").toList := by
    rcases durabilityOf key with _|_|_ <;> decide
  have hblank : '\n' ≠ ' ' := by decide
  intro hmem
  unfold rowOf tableRow at hmem
  rw [String.toList_ofList] at hmem
  obtain ⟨column,hcolumn,hc⟩ := (Columns.mem_line ' ' hmem).resolve_left hblank
  simp only [List.mem_cons,List.not_mem_nil,or_false] at hcolumn
  rcases hcolumn with rfl|rfl|rfl|rfl
  · exact hkind ((Columns.mem_padEnd ' ' hc).resolve_left hblank)
  · exact hdurability ((Columns.mem_padEnd ' ' hc).resolve_left hblank)
  · exact (newline_shownState o.entry).1 ((Columns.mem_padStart ' ' hc).resolve_left hblank)
  · exact (newline_shownState o.entry).2 ((Columns.mem_padStart ' ' hc).resolve_left hblank)

theorem toList_tableText (rows : List String) :
    (tableText rows).toList = (rows.map String.toList).flatMap fun row => row ++ ['\n'] := by
  induction rows with
  | nil => rfl
  | cons row rows ih =>
    change (row ++ "\n" ++ tableText rows).toList = _
    rw [String.toList_append,String.toList_append,ih]
    rfl

/-- A table is read line by line. -/
theorem tableText_inj {rows rows' : List String} (h : ∀ row ∈ rows, '\n' ∉ row.toList)
    (h' : ∀ row ∈ rows', '\n' ∉ row.toList) (heq : tableText rows = tableText rows') :
    rows = rows' := by
  have hlists := congrArg (fun text => Columns.split '\n' text.toList) heq
  simp only [toList_tableText] at hlists
  rw [Columns.split_text '\n' (by simpa using h),Columns.split_text '\n' (by simpa using h')]
    at hlists
  have hsame := List.append_cancel_right hlists
  exact List.map_injective_iff.mpr (fun _ _ h => String.toList_injective h) hsame

theorem newline_rows (rows : List (LedgerKey × Observation)) :
    ∀ row ∈ rows.map fun o => rowOf o.1 o.2, '\n' ∉ row.toList := by
  intro row hrow
  obtain ⟨o,_,rfl⟩ := List.mem_map.mp hrow
  exact newline_rowOf o.1 o.2

/-- A provider call as a command makes it: what it prints and writes is left alone. -/
theorem onWorld_traced {α : Type} {x : EStateM RentkeeperError (World σ) α} {s : Shell σ}
    {Q : α → List Event → World σ → Prop} {E : RentkeeperError → List Event → World σ → Prop}
    (h : Traced World.log x s.world Q E) :
    Traced (fun s : Shell σ => s.world.log) (onWorld x) s
      (fun a d t => Q a d t.world ∧ t.stdout = s.stdout ∧ t.files = s.files)
      (fun _ d t => (∃ err, E err d t.world) ∧ t.stdout = s.stdout ∧ t.files = s.files) := by
  unfold Traced Spec at h ⊢
  unfold onWorld
  cases hx : x s.world with
  | ok a w =>
    rw [hx] at h
    obtain ⟨d,hd,hq⟩ := h
    exact ⟨d,hd,hq,rfl,rfl⟩
  | error err w =>
    rw [hx] at h
    obtain ⟨d,hd,he⟩ := h
    exact ⟨d,hd,⟨err,he⟩,rfl,rfl⟩

/-- What a command leaves alone: the files, the tracker, and of the node all but its log. -/
structure Untouched (s : Shell σ) (d : List Event) (t : Shell σ) : Prop where
  reads : Provider.OnlyReads d
  sequence : t.world.sequence = s.world.sequence
  files : t.files = s.files

/-- A table of the keys asked for: a row for each in order, from an observation that a reply of
this run accounts for. -/
structure Inspected (crates : Crates) (args : InspectArgs) (keys : List LedgerKey)
    (observations : List Observation) (s : Shell σ) (d : List Event) (t : Shell σ) : Prop where
  resolved : inspectKeys crates args = .ok keys
  observed : List.Forall₂ (Provider.Observed crates d) keys observations
  stdout : t.stdout = s.stdout ++ (tableHeader ++ "\n") ++
    tableText ((keys.zip observations).map fun o => rowOf o.1 o.2)

theorem sound_of_observed {crates : Crates} {d : List Event} {keys : List LedgerKey}
    {observations : List Observation}
    (h : List.Forall₂ (Provider.Observed crates d) keys observations) :
    ∀ o ∈ keys.zip observations, Sound o.2 := by
  intro o ho
  obtain ⟨_,_,_,_,hreported⟩ := List.forall₂_zip h ho
  exact sound_of_reported hreported

theorem inspectKeys_total (crates : Crates) (args : InspectArgs) :
    inspectKeys crates args ≠ .error .panicked := by
  intro h
  rcases bind_eq_error h with hentry|⟨entry,_,h⟩
  · obtain ⟨_,_,heq⟩ := mapError_eq_error hentry
    cases heq
  · cases hhash : args.wasmHash with
    | none =>
      rw [hhash] at h
      cases h
    | some hash =>
      rw [hhash] at h
      rcases bind_eq_error h with hbytes|⟨bytes,_,h⟩
      · exact wasmHashBytes_total hash hbytes
      · cases h

/-- `inspect` in either build: it ends with its table, or without a word, and never panics. -/
theorem inspect_traced (profile : Profile) (tool : Tool σ) (opts : ConnectOpts)
    (args : InspectArgs) (s : Shell σ) :
    Traced (fun s : Shell σ => s.world.log) (inspect profile tool opts args) s
      (fun _ d t => Untouched s d t ∧
        ∃ keys observations, Inspected tool.crates.toCrates args keys observations s d t)
      (fun fault d t => Untouched s d t ∧ fault ≠ .panicked ∧ t.stdout = s.stdout) := by
  have hstart : Untouched s [] s := ⟨by simp [Provider.OnlyReads],rfl,rfl⟩
  unfold inspect
  refine Traced.bind (Q := fun _ d t => d = [] ∧ t = s)
    (E := fun fault d t => d = [] ∧ t = s ∧ fault ≠ .panicked) ?_ ?_ ?_
  · refine Traced.mono (Traced.adaptExcept Fault.failed (traced_ofExcept
      (Q := fun _ d t => d = [] ∧ t = s) (E := fun _ d t => d = [] ∧ t = s)
      (fun _ _ => ⟨rfl,rfl⟩) fun _ _ => ⟨rfl,rfl⟩)) (fun _ _ _ h => h) ?_
    intro fault d t h
    obtain ⟨err,⟨hd,ht⟩,rfl⟩ := h
    exact ⟨hd,ht,by simp⟩
  · intro _ d t h
    obtain ⟨rfl,rfl⟩ := h
    refine traced_ofExcept_bind ?_ ?_
    · intro keys hkeys
      have hobserve := onWorld_traced
        (Provider.observeEntries_traced tool.crates.toCrates tool.node keys t.world)
      refine Traced.bind (Traced.adaptExcept Fault.failed hobserve) ?_ ?_
      · intro observations d u h
        obtain ⟨⟨hsequence,hreads,hall⟩,hstdout,hfiles⟩ := h
        have hsound := sound_of_observed hall
        have hrun : (printLine tableHeader >>= fun _ =>
            printRows profile (keys.zip observations)) u = .ok ()
            { u with stdout := u.stdout ++ (tableHeader ++ "\n") ++
              tableText ((keys.zip observations).map fun o => rowOf o.1 o.2) } := by
          rw [printLine_bind,printRows_run profile hsound]
        unfold Traced Spec
        rw [hrun]
        refine ⟨[],by simp,⟨by simpa using hreads,hsequence,hfiles⟩,keys,observations,hkeys,
          by simpa using hall,?_⟩
        rw [hstdout]
      · intro fault d u h
        obtain ⟨err,⟨⟨_,hsequence,hreads,_⟩,hstdout,hfiles⟩,rfl⟩ := h
        exact ⟨⟨by simpa using hreads,hsequence,hfiles⟩,by simp,hstdout⟩
    · intro fault hfault
      refine ⟨hstart,?_,rfl⟩
      rintro rfl
      exact inspectKeys_total _ _ hfault
  · intro fault d t h
    obtain ⟨rfl,rfl,hfault⟩ := h
    exact ⟨hstart,hfault,rfl⟩

/-- What `observe_entries` gave is shown alike by both builds. -/
theorem printRows_builds {tool : Tool σ} {keys : List LedgerKey} {s t : Shell σ}
    {observations : List Observation}
    (h : EStateM.adaptExcept Fault.failed
      (onWorld (Provider.observeEntries tool.crates.toCrates tool.node keys)) s =
        .ok observations t) (u : Shell σ) :
    printRows .dev (keys.zip observations) u = printRows .release (keys.zip observations) u := by
  have hobserve := Traced.adaptExcept Fault.failed (onWorld_traced
    (Provider.observeEntries_traced tool.crates.toCrates tool.node keys s.world))
  obtain ⟨d,_,⟨⟨_,_,hall⟩,_,_⟩⟩ := hobserve.ok h
  have hsound := sound_of_observed hall
  rw [printRows_run .dev hsound,printRows_run .release hsound]

/-- `inspect` is one command in both builds: no subtraction of its own can go below zero, for what
is live outlives the ledger of its reply. It never panics, prints all of its table or nothing, and
only reads. -/
theorem inspect_builds (tool : Tool σ) (opts : ConnectOpts) (args : InspectArgs) (s : Shell σ) :
    inspect .dev tool opts args s = inspect .release tool opts args s ∧
    Traced (fun s : Shell σ => s.world.log) (inspect .dev tool opts args) s
      (fun _ d t => Untouched s d t ∧
        ∃ keys observations, Inspected tool.crates.toCrates args keys observations s d t)
      (fun fault d t => Untouched s d t ∧ fault ≠ .panicked ∧ t.stdout = s.stdout) := by
  refine ⟨?_,inspect_traced .dev tool opts args s⟩
  unfold inspect
  refine bind_congr_run fun _ t _ => ?_
  refine bind_congr_run fun keys t _ => ?_
  refine bind_congr_run fun observations t hobserve => ?_
  refine bind_congr_run fun _ u _ => ?_
  exact printRows_builds hobserve u

/-- Two runs of `inspect`, of whatever builds on whatever nodes, print the same table exactly when
the entries each observed in its own exchanges agree in kind, durability and state one by one: a
live row is as good as the TTL it was made from, with the ledger it was seen at. -/
theorem inspect_tells {σ' : Type} {profile profile' : Profile} {tool : Tool σ} {tool' : Tool σ'}
    {opts opts' : ConnectOpts} {args args' : InspectArgs} {s t : Shell σ} {s' t' : Shell σ'}
    (h : inspect profile tool opts args s = .ok () t)
    (h' : inspect profile' tool' opts' args' s' = .ok () t') :
    ∃ keys observations d keys' observations' d',
      t.world.log = s.world.log ++ d ∧ t'.world.log = s'.world.log ++ d' ∧
      Inspected tool.crates.toCrates args keys observations s d t ∧
      Inspected tool'.crates.toCrates args' keys' observations' s' d' t' ∧
      ((∃ text, t.stdout = s.stdout ++ text ∧ t'.stdout = s'.stdout ++ text) ↔
        List.Forall₂ (fun o o' => Alike o.1 o'.1 o.2 o'.2)
          (keys.zip observations) (keys'.zip observations')) := by
  obtain ⟨d,hlog,_,keys,observations,hrun⟩ := (inspect_traced profile tool opts args s).ok h
  obtain ⟨d',hlog',_,keys',observations',hrun'⟩ :=
    (inspect_traced profile' tool' opts' args' s').ok h'
  refine ⟨keys,observations,d,keys',observations',d',hlog,hlog',hrun,hrun',?_⟩
  have hsound := sound_of_observed hrun.observed
  have hsound' := sound_of_observed hrun'.observed
  have htext := hrun.stdout
  have htext' := hrun'.stdout
  rw [String.append_assoc] at htext htext'
  have hrows : (keys.zip observations).map (fun o => rowOf o.1 o.2) =
      (keys'.zip observations').map (fun o => rowOf o.1 o.2) ↔
      List.Forall₂ (fun o o' => Alike o.1 o'.1 o.2 o'.2)
        (keys.zip observations) (keys'.zip observations') := by
    rw [← List.forall₂_eq_eq_eq,List.forall₂_map_left_iff,List.forall₂_map_right_iff]
    exact forall₂_congr_mem fun o ho o' ho' => rowOf_eq_iff (hsound o ho) (hsound' o' ho')
  rw [← hrows]
  constructor
  · intro hsame
    obtain ⟨text,ht,ht'⟩ := hsame
    rw [htext] at ht
    rw [htext'] at ht'
    have hheld := (String.append_right_inj _).mp ht
    have hheld' := (String.append_right_inj _).mp ht'
    have htables := (String.append_right_inj _).mp (hheld.trans hheld'.symm)
    exact tableText_inj (newline_rows _) (newline_rows _) htables
  · intro hsame
    rw [hsame] at htext
    exact ⟨_,htext,htext'⟩

/-- The sample data entry, and the code entry beside it. -/
def sampleInspection : InspectArgs :=
  ⟨"CAAAAAAAAAAAAAAAAAAAAAAAAAAAAAAAAAAAAAAAAAAAAAAAAAAABSC4",some "AAAAAwAAAAc=","temporary",true,
    some "0x0000000000000000000000000000000000000000000000000000000000000000"⟩

/-- What a run of `inspect` on the sample leaves. -/
def inspectedShell (profile : Profile) (opts : ConnectOpts) (stdout : String) : Shell Unit :=
  final (inspect profile (sampleTool 100000) opts sampleInspection ⟨emptyWorld,stdout,[]⟩)

theorem inspect_sample_dev : inspect .dev (sampleTool 100000) (flagged "") sampleInspection
    ⟨emptyWorld,"",[]⟩ = .ok () (inspectedShell .dev (flagged "") "") :=
  eq_ok_of_value (by decide +kernel)

theorem inspect_sample_release : inspect .release (sampleTool 100000)
    (ConnectOpts.parse none none none none) sampleInspection ⟨emptyWorld,"$ ",[]⟩ =
      .ok () (inspectedShell .release (ConnectOpts.parse none none none none) "$ ") :=
  eq_ok_of_value (by decide +kernel)

theorem inspect_tells_sample : ∃ keys observations d keys' observations' d',
    (inspectedShell .dev (flagged "") "").world.log = [] ++ d ∧
    (inspectedShell .release (ConnectOpts.parse none none none none) "$ ").world.log = [] ++ d' ∧
    Inspected sampleFiles.toCrates sampleInspection keys observations ⟨emptyWorld,"",[]⟩ d
      (inspectedShell .dev (flagged "") "") ∧
    Inspected sampleFiles.toCrates sampleInspection keys' observations' ⟨emptyWorld,"$ ",[]⟩ d'
      (inspectedShell .release (ConnectOpts.parse none none none none) "$ ") ∧
    ((∃ text, (inspectedShell .dev (flagged "") "").stdout = "" ++ text ∧
        (inspectedShell .release (ConnectOpts.parse none none none none) "$ ").stdout =
          "$ " ++ text) ↔
      List.Forall₂ (fun o o' => Alike o.1 o'.1 o.2 o'.2)
        (keys.zip observations) (keys'.zip observations')) :=
  inspect_tells inspect_sample_dev inspect_sample_release

end Cli

end SorobanRentKeeper

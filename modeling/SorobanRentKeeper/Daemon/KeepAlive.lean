import SorobanRentKeeper.Core.Extension
import SorobanRentKeeper.Core.Footprint
import SorobanRentKeeper.Core.Join
import SorobanRentKeeper.Daemon.Cycle
import Mathlib.Algebra.Order.Group.Int
import Mathlib.Algebra.Order.Group.Unbundled.Int

namespace SorobanRentKeeper

open Program

variable {σ : Type}

/-- The extension a built envelope asks for. -/
def TransactionEnvelope.extension (envelope : TransactionEnvelope) : Option Extension :=
  match envelope with
  | .tx inner =>
    match inner.tx.operations.val with
    | [op] =>
      match op.body with
      | .extendFootprintTtl op => some ⟨envelope.footprintKeys,op.extendTo⟩
      | _ => none
    | _ => none
  | _ => none

/-- The extensions a log shows as accepted, as they were built. -/
def extensions (d : List Event) : List Extension :=
  (accepted d).filterMap fun s => s.built.extension

/-- An extend plan is built into the extension it describes. -/
theorem extension_of_buildFor {keeper : Keeper σ} {builder : TxBuilder} {plan : ArchivalPlan}
    {n : Int64} {envelope : TransactionEnvelope} (hkind : ∀ e ∈ plan.entries, e.kind = .extend)
    (h : buildFor keeper builder plan n = .ok envelope) :
    envelope.extension = some plan.extension := by
  have hkeys := footprintKeys_of_buildFor h
  obtain ⟨hpos,_⟩ := TxBuilder.len_of_buildUnsigned h
  obtain ⟨body,data,inner,rfl,hbuilt⟩ := TxBuilder.buildUnsigned_ok h
  have hbody := (TxBuilder.operationBody_of_kind plan .extend hpos hkind).symm.trans hbuilt.chosen
  have hbody := (Except.ok.inj hbody).symm
  simp only [TransactionEnvelope.extension,hbuilt.operations,hbody,ArchivalPlan.operation,hkeys]
  rfl

private theorem filterMap_extension {keeper : Keeper σ} {builder : TxBuilder}
    {plans : List ArchivalPlan} {ss : List Submission}
    (hkinds : ∀ plan ∈ plans, ∀ e ∈ plan.entries, e.kind = .extend)
    (h : List.Forall₂ (fun plan s => ∃ n, buildFor keeper builder plan n = .ok s.built) plans ss) :
    (ss.filterMap fun s => s.built.extension) = plans.map ArchivalPlan.extension := by
  induction h with
  | nil => rfl
  | @cons plan s plans ss hs _ ih =>
    obtain ⟨n,hbuild⟩ := hs
    have hhead := extension_of_buildFor (hkinds plan List.mem_cons_self) hbuild
    rw [List.filterMap_cons,hhead,List.map_cons,
      ih (fun p hp => hkinds p (List.mem_cons_of_mem plan hp))]

/-- A completed cycle extends what it planned to extend. -/
theorem Completed.extensions {keeper : Keeper σ} {keys : List LedgerKey}
    {observations : List Observation} {plans : List ArchivalPlan} {d : List Event}
    (h : Completed keeper keys observations plans d) :
    extensions d = plans.map ArchivalPlan.extension := by
  obtain ⟨dq,ds,hprep,hserved,rfl⟩ := h.logged
  unfold SorobanRentKeeper.extensions
  rw [accepted_append,hprep.quiet.accepted,List.nil_append]
  refine filterMap_extension ?_ (accepted_of_served hserved)
  intro plan hplan
  exact ((Planner.planExtendSplit_ok hprep.planned).2 plan hplan).2.2.2.2

/-- The replies to requests for ledger entries in a log. -/
def reads (d : List Event) : List (List LedgerKey × GetLedgerEntriesResponse) :=
  d.filterMap fun e => match e with
    | .ledgerEntries keys (.ok response) => some (keys,response)
    | _ => none

/-- The hash `observe_chunk` files a row under. -/
def LedgerEntryRow.hash (crates : Crates) (row : LedgerEntryRow) : Except String Bytes32 := do
  let key ← crates.entryKeyFromXdrBase64 row.xdr
  let keyXdr ← crates.keyToXdr key
  return crates.sha256 keyXdr

/-- A reply gives the end of life of a key: it has a row for it, and no row of that hash says
otherwise. -/
def Provider.Gives (crates : Crates) (response : GetLedgerEntriesResponse) (key : LedgerKey)
    (liveUntil : UInt32) : Prop :=
  ∃ hash, (crates.keyToXdr key).map crates.sha256 = .ok hash ∧
    (∃ row ∈ response.entries.getD [], row.hash crates = .ok hash) ∧
    ∀ row ∈ response.entries.getD [], row.hash crates = .ok hash →
      row.liveUntilLedgerSeq = some liveUntil

/-- The hash of a row is the one its update goes by. -/
theorem Provider.rowKey_bind_keyHash (crates : Crates) (row : LedgerEntryRow) :
    (rowKey crates row).bind (keyHash crates) = (row.hash crates).toOption := by
  unfold rowKey LedgerEntryRow.hash
  cases crates.entryKeyFromXdrBase64 row.xdr with
  | error e => rfl
  | ok key =>
    change keyHash crates key =
      (crates.keyToXdr key >>= fun keyXdr => pure (crates.sha256 keyXdr)).toOption
    unfold keyHash
    cases crates.keyToXdr key with
    | error e => rfl
    | ok keyXdr => rfl

private theorem Provider.last_of_gives {crates : Crates} {rows : List LedgerEntryRow}
    {hash : Bytes32} {liveUntil : UInt32} (hsome : ∃ row ∈ rows, row.hash crates = .ok hash)
    (hall : ∀ row ∈ rows, row.hash crates = .ok hash → row.liveUntilLedgerSeq = some liveUntil) :
    LastWrite.last (hashUpdates crates rows) (some hash) = some liveUntil := by
  unfold hashUpdates rowUpdates
  rw [List.map_map]
  refine LastWrite.last_of_agree ?_ fun _ => ?_
  · intro u hu hk
    obtain ⟨row,hrow,rfl⟩ := List.mem_map.mp hu
    have hhash : (row.hash crates).toOption = some hash := by
      rw [← rowKey_bind_keyHash]
      exact hk
    exact hall row hrow (eq_ok_of_toOption hhash)
  · obtain ⟨row,hrow,hhash⟩ := hsome
    refine ⟨_,List.mem_map_of_mem hrow,?_⟩
    change (rowKey crates row).bind (keyHash crates) = some hash
    rw [rowKey_bind_keyHash,hhash]
    rfl

/-- What a reply gives is what is observed. -/
theorem Provider.Reported.eq_observation {crates : Crates} {response : GetLedgerEntriesResponse}
    {key : LedgerKey} {o : Observation} {liveUntil : UInt32}
    (h : Provider.Reported crates response key o)
    (hgives : Provider.Gives crates response key liveUntil) :
    o = Provider.observation (Provider.latestLedger response.latestLedger) (some liveUntil) := by
  obtain ⟨hash,hkey,ho⟩ := h.of_rows
  obtain ⟨given,hgiven,hsome,hall⟩ := hgives
  obtain ⟨keyXdr,hxdr,rfl⟩ := map_eq_ok hgiven
  have hhash : crates.sha256 keyXdr = hash := by
    simpa [Provider.keyHash,hxdr,Except.toOption] using hkey
  rw [hhash] at hsome hall
  rw [ho,Provider.last_of_gives hsome hall]

/-- The observations of one key in a log. -/
def observationsOf (key : LedgerKey) (d : List Event) : List Observation :=
  (observedIn d).flatMap fun o =>
    ((o.1.zip o.2).filter fun p => decide (p.1 = key)).map Prod.snd

/-- One poll of a run, as one watched key sees it: the cycle returned a report, and every reply
about the key came from `ledger` and gave the same end of life. -/
structure Poll (keeper : Keeper σ) (key : LedgerKey) (w w' : World σ) (d : List Event)
    (ledger liveUntil : UInt32) : Prop where
  returned : ∃ report, runCycle keeper w = .ok report w'
  logged : w'.log = w.log ++ d
  shown : ∀ r ∈ reads d, key ∈ r.1 → Provider.latestLedger r.2.latestLedger = ledger ∧
    Provider.Gives keeper.crates r.2 key liveUntil

theorem Poll.completed {keeper : Keeper σ} {key : LedgerKey} {w w' : World σ} {d : List Event}
    {ledger liveUntil : UInt32} (h : Poll keeper key w w' d ledger liveUntil) :
    ∃ keys observations plans, Completed keeper keys observations plans d := by
  obtain ⟨report,hrun⟩ := h.returned
  obtain ⟨d',hd,keys,observations,plans,_,hdone⟩ := (runCycle_traced keeper w).ok hrun
  rw [h.logged,List.append_cancel_left_eq] at hd
  subst hd
  exact ⟨keys,observations,plans,hdone⟩

theorem Completed.planned {keeper : Keeper σ} {keys : List LedgerKey}
    {observations : List Observation} {plans : List ArchivalPlan} {d : List Event}
    (h : Completed keeper keys observations plans d) :
    (planner keeper.config).planExtendSplit keeper.crates (extendable keys observations)
      (referenceLedger observations) = .ok plans := by
  obtain ⟨dq,ds,hprep,_,_⟩ := h.logged
  exact hprep.planned

theorem Completed.observedIn {keeper : Keeper σ} {keys : List LedgerKey}
    {observations : List Observation} {plans : List ArchivalPlan} {d : List Event}
    (h : Completed keeper keys observations plans d) : observedIn d = [(keys,observations)] := by
  obtain ⟨dq,ds,hprep,hserved,rfl⟩ := h.logged
  rw [observedIn_append,hprep.once,observedIn_of_served hserved,List.append_nil]

theorem Completed.observed {keeper : Keeper σ} {keys : List LedgerKey}
    {observations : List Observation} {plans : List ArchivalPlan} {d : List Event}
    (h : Completed keeper keys observations plans d) :
    List.Forall₂ (Provider.Observed keeper.crates d) keys observations := by
  obtain ⟨dq,ds,hprep,_,rfl⟩ := h.logged
  exact hprep.observed.imp fun _ _ hobs => hobs.append_left _

theorem Completed.mem_observationsOf {keeper : Keeper σ} {keys : List LedgerKey}
    {observations : List Observation} {plans : List ArchivalPlan} {d : List Event}
    (h : Completed keeper keys observations plans d) (key : LedgerKey) (o : Observation) :
    o ∈ observationsOf key d ↔ (key,o) ∈ keys.zip observations := by
  unfold observationsOf
  rw [h.observedIn]
  simp

/-- The cycle saw the key as the poll shows it. -/
theorem Poll.observation_eq {keeper : Keeper σ} {key : LedgerKey} {w w' : World σ}
    {d : List Event} {ledger liveUntil : UInt32} (h : Poll keeper key w w' d ledger liveUntil) :
    ∀ o ∈ observationsOf key d, o = Provider.observation ledger (some liveUntil) := by
  obtain ⟨keys,observations,plans,hdone⟩ := h.completed
  intro o ho
  rw [hdone.mem_observationsOf] at ho
  obtain ⟨keys',response,hmem,hkey,hrep⟩ := List.forall₂_zip hdone.observed ho
  have hread : (keys',response) ∈ reads d := List.mem_filterMap.mpr ⟨_,hmem,rfl⟩
  obtain ⟨hledger,hgives⟩ := h.shown _ hread hkey
  have hobs := hrep.eq_observation hgives
  rwa [hledger] at hobs

/-- The key is on the watch list. -/
def Watched (keeper : Keeper σ) (key : LedgerKey) : Prop :=
  ∃ keys, resolveWatchKeys keeper.crates keeper.config = .ok keys ∧ key ∈ keys

theorem Poll.observationsOf_ne_nil {keeper : Keeper σ} {key : LedgerKey} {w w' : World σ}
    {d : List Event} {ledger liveUntil : UInt32} (h : Poll keeper key w w' d ledger liveUntil)
    (hwatched : Watched keeper key) : observationsOf key d ≠ [] := by
  obtain ⟨keys,observations,plans,hdone⟩ := h.completed
  obtain ⟨keys',hresolved,hkey⟩ := hwatched
  rw [hdone.resolved] at hresolved
  cases Except.ok.inj hresolved
  have hlen := hdone.observed.length_eq
  rw [← List.map_fst_zip (Nat.le_of_eq hlen),List.mem_map] at hkey
  obtain ⟨⟨key',o⟩,hmem,rfl⟩ := hkey
  exact List.ne_nil_of_mem ((hdone.mem_observationsOf key' o).mpr hmem)

/-- A poll that finds the key alive is one visit of the renewal rule. -/
theorem Poll.visit {keeper : Keeper σ} {key : LedgerKey} {w w' : World σ} {d : List Event}
    {ledger liveUntil : UInt32} (h : Poll keeper key w w' d ledger liveUntil)
    (hwatched : Watched keeper key) (hlive : ledger < liveUntil) :
    remainingAfter key (extensions d) (liveUntil.toNat - ledger.toNat) =
      Renewal.visit keeper.config.riskWindow.alertHorizonLedgers.toNat
        (min keeper.config.riskWindow.alertHorizonLedgers.toNat
          keeper.config.constants.maxEntryTtl.toNat) (liveUntil.toNat - ledger.toNat) := by
  obtain ⟨keys,observations,plans,hdone⟩ := h.completed
  obtain ⟨hclasses,hall⟩ := Planner.planExtendSplit_ok hdone.planned
  obtain ⟨o,ho⟩ := List.exists_mem_of_ne_nil _ (h.observationsOf_ne_nil hwatched)
  have hobs := h.observation_eq o ho
  rw [hdone.mem_observationsOf] at ho
  have hmem : (key,(⟨ledger,some liveUntil⟩ : EntryTtl)) ∈ extendable keys observations := by
    refine List.mem_filterMap.mpr ⟨(key,o),ho,?_⟩
    simp [hobs,Provider.observation,hlive]
  refine (planner keeper.config).remainingAfter_classes (extendable keys observations)
    (extensions d) key ⟨ledger,some liveUntil⟩ _ ?_ ?_ hmem
    ⟨liveUntil,rfl,UInt32.le_of_lt hlive,rfl⟩
  · rw [hdone.extensions,← hclasses]
    simp [ArchivalPlan.extension]
  · intro e he
    rw [hdone.extensions] at he
    obtain ⟨plan,hplan,rfl⟩ := List.mem_map.mp he
    exact (hall plan hplan).2.2.1

/-- A run of `n + 1` polls at increasing ledgers, as one key sees it. Between two polls only the
node moves on, and the extensions the last cycle had accepted are applied; anyone else may extend
the entry further. -/
structure Run (keeper : Keeper σ) (key : LedgerKey) (n : ℕ) where
  before : ℕ → World σ
  after : ℕ → World σ
  events : ℕ → List Event
  ledger : ℕ → UInt32
  liveUntil : ℕ → UInt32
  polled : ∀ i ≤ n, Poll keeper key (before i) (after i) (events i) (ledger i) (liveUntil i)
  resumed : ∀ i < n, (before (i + 1)).sequence = (after i).sequence ∧
    (before (i + 1)).log = (after i).log
  later : ∀ i < n, ledger i < ledger (i + 1)
  applied : ∀ i < n, (ledger i).toNat +
    remainingAfter key (extensions (events i)) ((liveUntil i).toNat - (ledger i).toNat) ≤
      (liveUntil (i + 1)).toNat

/-- A poll classifies the key as live, with a remaining TTL that does not underflow; nor does
that of any other live entry. -/
structure ClassifiedLive (key : LedgerKey) (ledger : UInt32) (d : List Event) : Prop where
  seen : observationsOf key d ≠ []
  live : ∀ o ∈ observationsOf key d, ∃ ttl, o.entry = .live ttl ∧ ttl.currentLedger = ledger ∧
    ttl.Live ∧ ¬ttl.Underflows
  noUnderflow : ∀ seen ∈ observedIn d, ∀ o ∈ seen.2, ∀ ttl, o.entry = .live ttl → ¬ttl.Underflows

/-- Entries reported as live do not underflow. -/
theorem Provider.Reported.not_underflows {crates : Crates} {response : GetLedgerEntriesResponse}
    {key : LedgerKey} {o : Observation} {ttl : EntryTtl}
    (h : Provider.Reported crates response key o) (hlive : o.entry = .live ttl) :
    ¬ttl.Underflows := by
  obtain ⟨index,keyXdr,_,_,rfl⟩ := h
  unfold Provider.observation at hlive
  split at hlive
  · next liveUntil _ =>
    split_ifs at hlive with hlt
    cases EntryState.live.inj hlive
    exact EntryTtl.Live.not_underflows ⟨liveUntil,rfl,hlt⟩
  · cases hlive

theorem Poll.classifiedLive {keeper : Keeper σ} {key : LedgerKey} {w w' : World σ}
    {d : List Event} {ledger liveUntil : UInt32} (h : Poll keeper key w w' d ledger liveUntil)
    (hwatched : Watched keeper key) (hlive : ledger < liveUntil) :
    ClassifiedLive key ledger d := by
  constructor
  · exact h.observationsOf_ne_nil hwatched
  · intro o ho
    have hobs := h.observation_eq o ho
    have hshown : (⟨ledger,some liveUntil⟩ : EntryTtl).Live := ⟨liveUntil,rfl,hlive⟩
    refine ⟨⟨ledger,some liveUntil⟩,?_,rfl,hshown,hshown.not_underflows⟩
    rw [hobs]
    simp [Provider.observation,hlive]
  · obtain ⟨keys,observations,plans,hdone⟩ := h.completed
    intro seen hseen o ho ttl httl
    rw [hdone.observedIn,List.mem_singleton] at hseen
    subst hseen
    have hlen := hdone.observed.length_eq
    rw [← List.map_snd_zip (Nat.le_of_eq hlen.symm),List.mem_map] at ho
    obtain ⟨⟨key',o'⟩,hmem,rfl⟩ := ho
    obtain ⟨_,_,_,_,hrep⟩ := List.forall₂_zip hdone.observed hmem
    exact hrep.not_underflows httl

/-- In a run whose polls are closer together than the horizon and the network limit, an entry
found live at the first poll is found live at all of them. -/
theorem run_keepsAlive (keeper : Keeper σ) (key : LedgerKey) (n : ℕ) (run : Run keeper key n)
    (hwatched : Watched keeper key)
    (hlive : ∃ o ∈ observationsOf key (run.events 0), ∃ ttl, o.entry = .live ttl)
    (hgap : ∀ i < n, (run.ledger (i + 1)).toNat - (run.ledger i).toNat <
      min keeper.config.riskWindow.alertHorizonLedgers.toNat
        keeper.config.constants.maxEntryTtl.toNat) :
    ∀ i ≤ n, ClassifiedLive key (run.ledger i) (run.events i) := by
  set horizon := keeper.config.riskWindow.alertHorizonLedgers.toNat with hhorizon
  set target := min horizon keeper.config.constants.maxEntryTtl.toNat with htarget
  have hpos (i : ℕ) : 0 < ((run.liveUntil i).toNat : ℤ) - (run.ledger i).toNat ↔
      run.ledger i < run.liveUntil i := by
    rw [UInt32.lt_iff_toNat_lt]
    omega
  have h0 : 0 < ((run.liveUntil 0).toNat : ℤ) - (run.ledger 0).toNat := by
    obtain ⟨o,ho,ttl,httl⟩ := hlive
    rw [(run.polled 0 (Nat.zero_le n)).observation_eq o ho,Provider.observation] at httl
    rw [hpos]
    split_ifs at httl with hlt
    exact hlt
  have hnext : ∀ i < n, 0 < ((run.liveUntil i).toNat : ℤ) - (run.ledger i).toNat →
      Renewal.visit (horizon : ℤ) target ((run.liveUntil i).toNat - (run.ledger i).toNat) -
        ((run.ledger (i + 1)).toNat - (run.ledger i).toNat) ≤
      (run.liveUntil (i + 1)).toNat - (run.ledger (i + 1)).toNat := by
    intro i hi halive
    have hvisit := (run.polled i (Nat.le_of_lt hi)).visit hwatched ((hpos i).mp halive)
    have happlied := run.applied i hi
    rw [hvisit,← hhorizon,← htarget] at happlied
    -- the ledger counts in naturals, which is the same while the entry is alive
    have hcast := Renewal.map_visit (fun m : ℕ => (m : ℤ)) Int.natCast_strictMono horizon target
      ((run.liveUntil i).toNat - (run.ledger i).toNat)
    rw [Int.natCast_sub (by omega)] at hcast
    rw [← hcast]
    omega
  have hgap' : ∀ i < n, ((run.ledger (i + 1)).toNat : ℤ) - (run.ledger i).toNat < horizon ∧
      ((run.ledger (i + 1)).toNat : ℤ) - (run.ledger i).toNat < target := by
    intro i hi
    have hlt := hgap i hi
    have hlater := UInt32.lt_iff_toNat_lt.mp (run.later i hi)
    have hmin : target ≤ horizon := Nat.min_le_left _ _
    omega
  have hall := Renewal.pos_of_visits (horizon : ℤ) target
    (fun i => (run.liveUntil i).toNat - (run.ledger i).toNat)
    (fun i => (run.ledger (i + 1)).toNat - (run.ledger i).toNat) n h0 hnext hgap'
  intro i hi
  exact (run.polled i hi).classifiedLive hwatched ((hpos i).mp (hall i hi))

private theorem sampleEntries_gives (latest : Int64) (code data : UInt32) :
    Provider.Gives sampleCrates (sampleEntries latest code data) codeKey code := by
  have hcode : (⟨"AAAABwAAAAAAAAAAAAAAAAAAAAAAAAAAAAAAAAAAAAAAAAAAAAAAAAAAAAA=",
      none⟩ : LedgerEntryRow).hash sampleCrates = .ok (sampleCrates.sha256 codeKey.xdr) :=
    eq_ok_of_toOption (by decide +kernel)
  have hdata : (⟨"AAAABgAAAAAAAAABAAAAAAAAAAAAAAAAAAAAAAAAAAAAAAAAAAAAAAAAAAAAAAADAAAABwAAAAAAAAAB",
      none⟩ : LedgerEntryRow).hash sampleCrates = .ok (sampleCrates.sha256 dataKey.xdr) :=
    eq_ok_of_toOption (by decide +kernel)
  refine ⟨sampleCrates.sha256 codeKey.xdr,rfl,⟨_,List.mem_cons_self,hcode⟩,?_⟩
  intro row hrow hhash
  rcases List.mem_cons.mp hrow with rfl|hrow
  · rfl
  · rw [List.mem_singleton.mp hrow] at hhash
    exact absurd (Except.ok.inj (hdata.symm.trans hhash)) (by decide +kernel)

private theorem poll_of_value (w : World Script) (latest : Int64) (code data : UInt32)
    (report : CycleReport) (keys : List LedgerKey)
    (h : value (runCycle sampleKeeper w) = some report)
    (hreads : reads ((final (runCycle sampleKeeper w)).log.drop w.log.length) =
      [(keys,sampleEntries latest code data)]) :
    Poll sampleKeeper codeKey w (final (runCycle sampleKeeper w))
      ((final (runCycle sampleKeeper w)).log.drop w.log.length)
      (Provider.latestLedger latest) code := by
  have hrun := eq_ok_of_value h
  refine ⟨⟨report,hrun⟩,?_,?_⟩
  · obtain ⟨d,hd,_⟩ := (runCycle_traced sampleKeeper w).ok hrun
    rw [hd,List.drop_left]
  · intro r hr _
    rw [hreads,List.mem_singleton] at hr
    subst hr
    exact ⟨rfl,sampleEntries_gives latest code data⟩

/-- The sample node 90 ledgers after the first poll. -/
def laterScript : Script :=
  ⟨.ok "Test SDF Network ; September 2015",[.ok (sampleEntries 190 200 500)],[],
    [.ok codeSimulation],[.ok (Vector.replicate 32 0)]⟩

def sampleBefore (i : ℕ) : World Script :=
  if i = 0 then sampleWorld
  else { final (runCycle sampleKeeper sampleWorld) with node := laterScript }

def sampleAfter (i : ℕ) : World Script := final (runCycle sampleKeeper (sampleBefore i))

def sampleEvents (i : ℕ) : List Event := (sampleAfter i).log.drop (sampleBefore i).log.length

private theorem sample_polled (i : ℕ) (hi : i ≤ 1) :
    Poll sampleKeeper codeKey (sampleBefore i) (sampleAfter i) (sampleEvents i)
      (if i = 0 then 100 else 190) (if i = 0 then 150 else 200) := by
  rcases Nat.le_one_iff_eq_zero_or_eq_one.mp hi with rfl|rfl
  · exact poll_of_value _ 100 150 500 ⟨100,1,true,1⟩ [codeKey,dataKey]
      (by decide +kernel) (by decide +kernel)
  · exact poll_of_value _ 190 200 500 ⟨190,1,true,1⟩ [codeKey,dataKey]
      (by decide +kernel) (by decide +kernel)

/-- Two polls, between which the code entry gets what the first asked for. -/
def sampleRun : Run sampleKeeper codeKey 1 where
  before := sampleBefore
  after := sampleAfter
  events := sampleEvents
  ledger i := if i = 0 then 100 else 190
  liveUntil i := if i = 0 then 150 else 200
  polled := sample_polled
  resumed i hi := by
    rw [Nat.lt_one_iff.mp hi]
    simp only [sampleAfter,sampleBefore,Nat.zero_add,Nat.one_ne_zero,if_true,if_false,and_self]
  later i hi := by
    rw [Nat.lt_one_iff.mp hi]
    decide
  applied i hi := by
    rw [Nat.lt_one_iff.mp hi]
    decide +kernel

theorem run_keepsAlive_sample : ClassifiedLive codeKey 190 (sampleRun.events 1) :=
  run_keepsAlive sampleKeeper codeKey 1 sampleRun
    ⟨[codeKey,dataKey],eq_ok_of_toOption (by decide +kernel),List.mem_cons_self⟩
    ⟨⟨100,.live ⟨100,some 150⟩⟩,by decide +kernel,⟨100,some 150⟩,rfl⟩
    (fun i hi => by rw [Nat.lt_one_iff.mp hi]; decide) 1 (Nat.le_refl 1)

end SorobanRentKeeper

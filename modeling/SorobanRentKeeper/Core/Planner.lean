import SorobanRentKeeper.Core.LedgerKeys
import SorobanRentKeeper.Core.Plan
import SorobanRentKeeper.Framework.Program
import Mathlib.Algebra.GroupWithZero.Nat
import Mathlib.Data.List.Basic
import Mathlib.Tactic.SplitIfs

namespace SorobanRentKeeper

structure Planner where
  constants : TtlConstants
  window : RiskWindow
  networkPassphrase : String
  deriving DecidableEq

def durabilityOf : LedgerKey → Option Durability
  | .contractData data => some (Durability.fromXdr data.durability)
  | _ => none

def renormalizeTtl (ttl : EntryTtl) (currentLedger : UInt32) : EntryTtl :=
  ⟨currentLedger,ttl.liveUntilLedgerSeq⟩

inductive TtlVerdict where
  | live (remaining : UInt64)
  | expired
  deriving DecidableEq

/-- The loop of `plan_extend` and `plan_restore` over their accumulator: what is not kept is
skipped, the rest is rendered and made an entry. -/
def pushEntries {α : Type} (crates : Crates) (keep : LedgerKey × α → Bool)
    (entry : LedgerKey × α → String → PlanEntry) :
    List (LedgerKey × α) → List PlanEntry → Except RentkeeperError (List PlanEntry)
  | [],entries => .ok entries
  | o::observations,entries =>
    if !keep o then pushEntries crates keep entry observations entries
    else
      match LedgerKeys.render crates o.1 with
      | .error e => .error e
      | .ok keyXdr => pushEntries crates keep entry observations (entries ++ [entry o keyXdr])

namespace Planner

def classifyTtlEntry (ttlEntry : TtlEntry) (currentLedger : UInt32) : TtlVerdict :=
  if ttlEntry.liveUntilLedgerSeq ≤ currentLedger then .expired
  else .live (ttlEntry.liveUntilLedgerSeq.toUInt64 - currentLedger.toUInt64)

/-- The entry an at-risk observation becomes, once its key is rendered. -/
def extendEntry (currentLedger : UInt32) (o : LedgerKey × EntryTtl) (keyXdr : String) : PlanEntry :=
  ⟨o.1,keyXdr,.extend,durabilityOf o.1,renormalizeTtl o.2 currentLedger⟩

/-- The loop of `plan_extend_split` over its two accumulators, temporary and persistent. -/
def splitLoop (crates : Crates) (planner : Planner) (currentLedger : UInt32) :
    List (LedgerKey × EntryTtl) → List PlanEntry → List PlanEntry →
      Except RentkeeperError (List PlanEntry × List PlanEntry)
  | [],temporary,persistent => .ok (temporary,persistent)
  | o::observations,temporary,persistent =>
    if !planner.window.isAtRisk o.2 then
      splitLoop crates planner currentLedger observations temporary persistent
    else
      match LedgerKeys.render crates o.1 with
      | .error e => .error e
      | .ok keyXdr =>
        let entry := extendEntry currentLedger o keyXdr
        match entry.durability with
        | some .temporary =>
          splitLoop crates planner currentLedger observations (temporary ++ [entry]) persistent
        | _ =>
          splitLoop crates planner currentLedger observations temporary (persistent ++ [entry])

/-- The plan made of one durability class. -/
def mkPlan (planner : Planner) (currentLedger : UInt32) (entries : List PlanEntry) : ArchivalPlan :=
  ⟨planner.networkPassphrase,currentLedger,planner.window.extendToLedgers planner.constants,entries⟩

def planExtend (crates : Crates) (planner : Planner) (observations : List (LedgerKey × EntryTtl))
    (currentLedger : UInt32) : Except RentkeeperError ArchivalPlan :=
  (pushEntries crates (fun o => planner.window.isAtRisk o.2) (extendEntry currentLedger)
    observations []).map (mkPlan planner currentLedger)

/-- The entry an archived observation becomes, once its key is rendered. -/
def restoreEntry (currentLedger : UInt32) (o : LedgerKey × ArchivedEntryInfo) (keyXdr : String) :
    PlanEntry :=
  ⟨o.1,keyXdr,.restore,durabilityOf o.1,⟨currentLedger,none⟩⟩

def planRestore (crates : Crates) (planner : Planner)
    (observations : List (LedgerKey × ArchivedEntryInfo)) (currentLedger : UInt32) :
    Except RentkeeperError ArchivalPlan :=
  (pushEntries crates (fun o => o.2.isArchived) (restoreEntry currentLedger) observations []).map
    (mkPlan planner currentLedger)

def planExtendSplit (crates : Crates) (planner : Planner)
    (observations : List (LedgerKey × EntryTtl)) (currentLedger : UInt32) :
    Except RentkeeperError (List ArchivalPlan) :=
  match splitLoop crates planner currentLedger observations [] [] with
  | .error e => .error e
  | .ok (temporary,persistent) =>
    .ok ([mkPlan planner currentLedger persistent,mkPlan planner currentLedger temporary].filter
      fun p => !p.isEmpty)

end Planner

/-- A temporary contract-data key; any other key belongs to the persistent plan. -/
def isTemporaryKey (key : LedgerKey) : Bool := decide (durabilityOf key = some .temporary)

namespace Planner

/-- The observations a planner puts in a plan. -/
def atRisk (planner : Planner) (observations : List (LedgerKey × EntryTtl)) :
    List (LedgerKey × EntryTtl) :=
  observations.filter fun o => planner.window.isAtRisk o.2

/-- The at-risk keys of one class, in observation order and with their multiplicity. -/
def classKeys (planner : Planner) (temporary : Bool) (observations : List (LedgerKey × EntryTtl)) :
    List LedgerKey :=
  ((planner.atRisk observations).map Prod.fst).filter fun key => isTemporaryKey key == temporary

/-- An entry made from an observation. -/
def FromObservation (crates : Crates) (currentLedger : UInt32) (o : LedgerKey × EntryTtl)
    (e : PlanEntry) : Prop :=
  ∃ keyXdr, LedgerKeys.render crates o.1 = .ok keyXdr ∧ e = extendEntry currentLedger o keyXdr

/-- The two classes the planner may return, persistent before temporary. -/
def classes (planner : Planner) (observations : List (LedgerKey × EntryTtl)) :
    List (List LedgerKey) :=
  [planner.classKeys false observations,planner.classKeys true observations].filter
    fun keys => !keys.isEmpty

/-- The key of every at-risk observation lies in exactly its own class. -/
theorem mem_classKeys (planner : Planner) (temporary : Bool)
    (observations : List (LedgerKey × EntryTtl)) (key : LedgerKey) :
    key ∈ planner.classKeys temporary observations ↔
      (∃ ttl, (key,ttl) ∈ observations ∧ planner.window.isAtRisk ttl = true) ∧
        isTemporaryKey key = temporary := by
  simp [classKeys,atRisk]

/-- Some class holds a key exactly when one of its observations is at risk. -/
theorem mem_classes (planner : Planner) (observations : List (LedgerKey × EntryTtl))
    (key : LedgerKey) :
    (∃ keys ∈ planner.classes observations, key ∈ keys) ↔
      ∃ ttl, (key,ttl) ∈ observations ∧ planner.window.isAtRisk ttl = true := by
  have hclass := fun b => mem_classKeys planner b observations key
  constructor
  · intro h
    obtain ⟨keys,hkeys,hmem⟩ := h
    simp only [classes,List.mem_filter,List.mem_cons,List.not_mem_nil,or_false] at hkeys
    rcases hkeys.1 with rfl|rfl
    · exact ((hclass false).mp hmem).1
    · exact ((hclass true).mp hmem).1
  · intro h
    have hmem := (hclass (isTemporaryKey key)).mpr ⟨h,rfl⟩
    refine ⟨_,List.mem_filter.mpr ⟨?_,?_⟩,hmem⟩
    · cases isTemporaryKey key <;> simp
    · simpa using List.ne_nil_of_mem hmem

/-- The classes share no key. -/
theorem countP_classes_le (planner : Planner) (observations : List (LedgerKey × EntryTtl))
    (key : LedgerKey) :
    (planner.classes observations).countP (fun keys => decide (key ∈ keys)) ≤ 1 := by
  have hclass := fun b => mem_classKeys planner b observations key
  have hboth : ¬(key ∈ planner.classKeys false observations ∧
      key ∈ planner.classKeys true observations) := by
    intro h
    have hfalse := ((hclass false).mp h.1).2
    rw [((hclass true).mp h.2).2] at hfalse
    cases hfalse
  apply Nat.le_trans List.filter_sublist.countP_le
  rw [List.countP_cons,List.countP_cons,List.countP_nil]
  simp only [decide_eq_true_eq]
  split_ifs with htrue hfalse hfalse
  · exact absurd ⟨hfalse,htrue⟩ hboth
  all_goals omega

/-- The classes hold every at-risk position once. -/
theorem sum_length_classes (planner : Planner) (observations : List (LedgerKey × EntryTtl)) :
    ((planner.classes observations).map List.length).sum =
      (planner.atRisk observations).length := by
  have hskip (keys : List LedgerKey) (rest : List (List LedgerKey)) :
      (((keys::rest).filter fun keys => !keys.isEmpty).map List.length).sum =
        keys.length + ((rest.filter fun keys => !keys.isEmpty).map List.length).sum := by
    cases keys with
    | nil => simp
    | cons key keys => simp
  have hsplit := List.length_eq_length_filter_add (l := (planner.atRisk observations).map Prod.fst)
    isTemporaryKey
  rw [List.length_map] at hsplit
  have htrue : (planner.classKeys true observations).length =
      (((planner.atRisk observations).map Prod.fst).filter isTemporaryKey).length := by
    simp [classKeys]
  have hfalse : (planner.classKeys false observations).length =
      (((planner.atRisk observations).map Prod.fst).filter fun key =>
        !isTemporaryKey key).length := by
    simp [classKeys]
  unfold classes
  rw [hskip,hskip,htrue,hfalse,hsplit]
  simp only [List.filter_nil,List.map_nil,List.sum_nil]
  omega

end Planner

end SorobanRentKeeper

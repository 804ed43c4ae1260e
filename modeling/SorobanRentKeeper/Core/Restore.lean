import SorobanRentKeeper.Core.Observe
import SorobanRentKeeper.Core.Planner

namespace SorobanRentKeeper

open Program

variable {σ : Type}

/-- The TTL snapshot of an observation; one that is not live has no TTL to extend. -/
def Observation.asEntryTtl (o : Observation) : EntryTtl :=
  match o.entry with
  | .live ttl => ttl
  | .expiredButPresent info => ⟨info.currentLedger,none⟩
  | .archived info => ⟨info.currentLedger,none⟩

def Observation.needsRestore (o : Observation) : Bool :=
  match o.entry with
  | .live _ => false
  | .expiredButPresent _ => true
  | .archived _ => true

/-- An entry, and how the loop made it. -/
def PushedFrom {α : Type} (crates : Crates) (entry : LedgerKey × α → String → PlanEntry)
    (o : LedgerKey × α) (e : PlanEntry) : Prop :=
  ∃ keyXdr, LedgerKeys.render crates o.1 = .ok keyXdr ∧ e = entry o keyXdr

/-- An entry of a planner's making: its text is its key rendered. -/
def Rendered (crates : Crates) (e : PlanEntry) : Prop :=
  LedgerKeys.render crates e.key = .ok e.keyXdr ∧ e.durability = durabilityOf e.key

section

variable {α : Type} {crates : Crates} {keep : LedgerKey × α → Bool}
  {entry : LedgerKey × α → String → PlanEntry}

/-- The loop appends one entry for every observation it keeps, in order. -/
theorem pushEntries_ok {observations : List (LedgerKey × α)} {entries out : List PlanEntry}
    (h : pushEntries crates keep entry observations entries = .ok out) :
    ∃ es, List.Forall₂ (PushedFrom crates entry) (observations.filter keep) es ∧
      out = entries ++ es := by
  induction observations generalizing entries with
  | nil =>
    cases h
    exact ⟨[],.nil,by simp⟩
  | cons o observations ih =>
    unfold pushEntries at h
    cases hkeep : keep o with
    | false =>
      rw [hkeep] at h
      rw [List.filter_cons_of_neg (by simp [hkeep])]
      exact ih h
    | true =>
      rw [hkeep] at h
      rw [List.filter_cons_of_pos hkeep]
      cases hrender : LedgerKeys.render crates o.1 with
      | error e =>
        rw [hrender] at h
        cases h
      | ok keyXdr =>
        rw [hrender] at h
        obtain ⟨es,hes,hout⟩ := ih h
        refine ⟨entry o keyXdr::es,.cons ⟨keyXdr,hrender,rfl⟩ hes,?_⟩
        rw [hout,List.append_assoc,List.singleton_append]

/-- Only a key that cannot be rendered keeps the loop from its end. -/
theorem pushEntries_of_render (entry : LedgerKey × α → String → PlanEntry)
    (observations : List (LedgerKey × α)) (entries : List PlanEntry)
    (h : ∀ o ∈ observations.filter keep, ∃ keyXdr, LedgerKeys.render crates o.1 = .ok keyXdr) :
    ∃ out, pushEntries crates keep entry observations entries = .ok out := by
  induction observations generalizing entries with
  | nil => exact ⟨entries,rfl⟩
  | cons o observations ih =>
    unfold pushEntries
    cases hkeep : keep o with
    | false =>
      rw [List.filter_cons_of_neg (by simp [hkeep])] at h
      exact ih entries h
    | true =>
      rw [List.filter_cons_of_pos hkeep] at h
      obtain ⟨keyXdr,hrender⟩ := h o List.mem_cons_self
      simp only [Bool.not_true,Bool.false_eq_true,if_false,hrender]
      exact ih _ fun x hx => h x (List.mem_cons_of_mem o hx)

/-- Entries that say what their keys say are rendered ones. -/
theorem rendered_of_pushed (hentry : ∀ o keyXdr, (entry o keyXdr).key = o.1 ∧
      (entry o keyXdr).keyXdr = keyXdr ∧ (entry o keyXdr).durability = durabilityOf o.1)
    {observations : List (LedgerKey × α)} {es : List PlanEntry}
    (h : List.Forall₂ (PushedFrom crates entry) observations es) : ∀ e ∈ es, Rendered crates e := by
  refine forall₂_right h ?_
  intro o _ e hpushed
  obtain ⟨keyXdr,hrender,rfl⟩ := hpushed
  obtain ⟨hkey,htext,hdurability⟩ := hentry o keyXdr
  unfold Rendered
  rw [hkey,htext,hdurability]
  exact ⟨hrender,rfl⟩

/-- The keys of the entries are the kept keys. -/
theorem keys_of_pushed (hkey : ∀ o keyXdr, (entry o keyXdr).key = o.1)
    {observations : List (LedgerKey × α)} {es : List PlanEntry}
    (h : List.Forall₂ (PushedFrom crates entry) observations es) :
    es.map PlanEntry.key = observations.map Prod.fst := by
  induction h with
  | nil => rfl
  | cons hpushed _ ih =>
    obtain ⟨keyXdr,_,rfl⟩ := hpushed
    rw [List.map_cons,List.map_cons,ih,hkey]

end

namespace Planner

/-- What `plan_extend` returns. -/
theorem planExtend_ok {crates : Crates} {planner : Planner}
    {observations : List (LedgerKey × EntryTtl)} {currentLedger : UInt32} {plan : ArchivalPlan}
    (h : planExtend crates planner observations currentLedger = .ok plan) :
    plan = mkPlan planner currentLedger plan.entries ∧
      List.Forall₂ (PushedFrom crates (extendEntry currentLedger)) (planner.atRisk observations)
        plan.entries := by
  obtain ⟨entries,hentries,rfl⟩ := map_eq_ok h
  obtain ⟨es,hes,rfl⟩ := pushEntries_ok hentries
  exact ⟨rfl,hes⟩

/-- What `plan_restore` returns. -/
theorem planRestore_ok {crates : Crates} {planner : Planner}
    {observations : List (LedgerKey × ArchivedEntryInfo)} {currentLedger : UInt32}
    {plan : ArchivalPlan}
    (h : planRestore crates planner observations currentLedger = .ok plan) :
    plan = mkPlan planner currentLedger plan.entries ∧
      List.Forall₂ (PushedFrom crates (restoreEntry currentLedger))
        (observations.filter fun o => o.2.isArchived) plan.entries := by
  obtain ⟨entries,hentries,rfl⟩ := map_eq_ok h
  obtain ⟨es,hes,rfl⟩ := pushEntries_ok hentries
  exact ⟨rfl,hes⟩

theorem planExtend_of_render (crates : Crates) (planner : Planner)
    (observations : List (LedgerKey × EntryTtl)) (currentLedger : UInt32)
    (h : ∀ o ∈ planner.atRisk observations, ∃ keyXdr, LedgerKeys.render crates o.1 = .ok keyXdr) :
    ∃ plan, planExtend crates planner observations currentLedger = .ok plan := by
  obtain ⟨out,hout⟩ := pushEntries_of_render (extendEntry currentLedger) observations [] h
  refine ⟨mkPlan planner currentLedger out,?_⟩
  rw [planExtend,hout]
  rfl

theorem planRestore_of_render (crates : Crates) (planner : Planner)
    (observations : List (LedgerKey × ArchivedEntryInfo)) (currentLedger : UInt32)
    (h : ∀ o ∈ observations.filter fun o => o.2.isArchived,
      ∃ keyXdr, LedgerKeys.render crates o.1 = .ok keyXdr) :
    ∃ plan, planRestore crates planner observations currentLedger = .ok plan := by
  obtain ⟨out,hout⟩ := pushEntries_of_render (restoreEntry currentLedger) observations [] h
  refine ⟨mkPlan planner currentLedger out,?_⟩
  rw [planRestore,hout]
  rfl

end Planner

/-- What `plan_extend` is fed of the observations of `keys`. -/
def snapshots (keys : List LedgerKey) (observations : List Observation) :
    List (LedgerKey × EntryTtl) :=
  keys.zip (observations.map Observation.asEntryTtl)

/-- What `plan_restore` is fed of them: what each one that is not live carries. -/
def restorable (keys : List LedgerKey) (observations : List Observation) :
    List (LedgerKey × ArchivedEntryInfo) :=
  (keys.zip observations).filterMap fun o =>
    match o.2.entry with
    | .live _ => none
    | .expiredButPresent info => some (o.1,info)
    | .archived info => some (o.1,info)

/-- The keys at the positions whose observations satisfy `p`. -/
def keysWhere (p : Observation → Bool) (keys : List LedgerKey) (observations : List Observation) :
    List LedgerKey :=
  ((keys.zip observations).filter fun o => p o.2).map Prod.fst

def Observation.isLive (o : Observation) : Bool := !o.needsRestore

/-- Present in the ledger although its TTL has passed. -/
def Observation.isExpired (o : Observation) : Bool :=
  match o.entry with
  | .expiredButPresent _ => true
  | _ => false

/-- Both planners answer, and every position is in one of the two plans: the live ones in the
extend plan, those that need a restore in the restore plan. -/
def Partitioned (crates : Crates) (planner : Planner) (currentLedger : UInt32)
    (keys : List LedgerKey) (observations : List Observation) : Prop :=
  ∃ extendPlan restorePlan,
    planner.planExtend crates (snapshots keys observations) currentLedger = .ok extendPlan ∧
    planner.planRestore crates (restorable keys observations) currentLedger = .ok restorePlan ∧
    extendPlan.footprint = keysWhere Observation.isLive keys observations ∧
    restorePlan.footprint = keysWhere Observation.needsRestore keys observations

/-- A key that could be encoded, and an observation as `observe_chunk` makes them. -/
def Answered (crates : Crates) (key : LedgerKey) (o : Observation) : Prop :=
  (∃ keyXdr, crates.keyToXdr key = .ok keyXdr) ∧
    ∃ latest live, o = Provider.observation latest live

theorem answered_of_observed {crates : Crates} {node : Node σ} {keys : List LedgerKey}
    {w t : World σ} {observations : List Observation}
    (h : Provider.observeEntries crates node keys w = .ok observations t) :
    List.Forall₂ (Answered crates) keys observations := by
  obtain ⟨d,_,_,_,hall⟩ := (Provider.observeEntries_traced crates node keys w).ok h
  apply hall.imp
  intro key o hobserved
  obtain ⟨_,response,_,_,index,keyXdr,_,hxdr,ho⟩ := hobserved
  exact ⟨⟨keyXdr,hxdr⟩,_,_,ho⟩

theorem encodable_of_answered {crates : Crates} {keys : List LedgerKey}
    {observations : List Observation} (h : List.Forall₂ (Answered crates) keys observations) :
    Provider.KeysEncodable crates keys := by
  induction h with
  | nil => simp [Provider.KeysEncodable]
  | cons hanswered _ ih => exact List.forall_mem_cons.mpr ⟨hanswered.1,ih⟩

/-- The window finds every live observation at risk, and no other. -/
theorem isAtRisk_asEntryTtl {window : RiskWindow} {o : Observation} {crates : Crates}
    {key : LedgerKey} (h : Answered crates key o)
    (hwindow : ∀ remaining ∈ o.asEntryTtl.ttlLedgers, remaining ≤ window.alertHorizonLedgers) :
    window.isAtRisk o.asEntryTtl = o.isLive := by
  obtain ⟨_,latest,live,rfl⟩ := h
  unfold Provider.observation at hwindow ⊢
  cases live with
  | none => rfl
  | some liveUntil =>
    by_cases hlive : latest < liveUntil
    · simp only [hlive,if_true] at hwindow ⊢
      have hle := hwindow _ rfl
      simp only [Observation.asEntryTtl] at hle ⊢
      simpa [RiskWindow.isAtRisk,EntryTtl.ttlLedgers,Observation.isLive,Observation.needsRestore]
        using hle
    · simp only [hlive,if_false]
      rfl

theorem atRisk_snapshots {crates : Crates} {planner : Planner} {keys : List LedgerKey}
    {observations : List Observation} (h : List.Forall₂ (Answered crates) keys observations)
    (hwindow : ∀ o ∈ observations, ∀ remaining ∈ o.asEntryTtl.ttlLedgers,
      remaining ≤ planner.window.alertHorizonLedgers) :
    (planner.atRisk (snapshots keys observations)).map Prod.fst =
      keysWhere Observation.isLive keys observations := by
  induction h with
  | nil => rfl
  | @cons key o keys observations hanswered _ ih =>
    rw [List.forall_mem_cons] at hwindow
    have hrisk := isAtRisk_asEntryTtl hanswered hwindow.1
    have ih := ih hwindow.2
    simp only [Planner.atRisk,snapshots,keysWhere,List.map_cons,List.zip_cons_cons,
      List.filter_cons,hrisk] at ih ⊢
    cases o.isLive with
    | true => simpa using ih
    | false => simpa using ih

/-- The positions `plan_restore` keeps: the entry is gone. -/
def Observation.isGone (o : Observation) : Bool := o.needsRestore && !o.isExpired

theorem archived_restorable {crates : Crates} {keys : List LedgerKey}
    {observations : List Observation} (h : List.Forall₂ (Answered crates) keys observations) :
    ((restorable keys observations).filter fun o => o.2.isArchived).map Prod.fst =
      keysWhere Observation.isGone keys observations := by
  induction h with
  | nil => rfl
  | cons hanswered _ ih =>
    obtain ⟨_,latest,live,rfl⟩ := hanswered
    simp only [restorable,keysWhere,List.zip_cons_cons,List.filterMap_cons,List.filter_cons] at ih ⊢
    unfold Provider.observation
    cases live with
    | none => simpa [Observation.isGone,Observation.needsRestore,Observation.isExpired,
        ArchivedEntryInfo.isArchived] using ih
    | some liveUntil =>
      by_cases hlive : latest < liveUntil
      · simpa [hlive,Observation.isGone,Observation.needsRestore] using ih
      · simpa [hlive,Observation.isGone,Observation.needsRestore,Observation.isExpired,
          ArchivedEntryInfo.isArchived] using ih

theorem length_keysWhere_needsRestore (keys : List LedgerKey) (observations : List Observation) :
    (keysWhere Observation.needsRestore keys observations).length =
      (keysWhere Observation.isGone keys observations).length +
        ((keys.zip observations).filter fun o => o.2.isExpired).length := by
  unfold keysWhere
  rw [List.length_map,List.length_map]
  induction keys.zip observations with
  | nil => rfl
  | cons o os ih =>
    have hexpired : o.2.isExpired = true → o.2.needsRestore = true := by
      unfold Observation.isExpired Observation.needsRestore
      cases o.2.entry <;> simp
    cases hr : o.2.needsRestore <;> cases he : o.2.isExpired
    · simpa [hr,he,Observation.isGone] using ih
    · rw [hr] at hexpired
      exact absurd (hexpired he) (by simp)
    · simp [hr,he,Observation.isGone,ih]
      omega
    · simp [hr,he,Observation.isGone,ih]
      omega

/-- The kept positions are all that need a restore exactly when none has expired in place. -/
theorem keysWhere_isGone_iff {crates : Crates} {keys : List LedgerKey}
    {observations : List Observation} (h : List.Forall₂ (Answered crates) keys observations) :
    keysWhere Observation.isGone keys observations =
        keysWhere Observation.needsRestore keys observations ↔
      ∀ o ∈ observations, o.isExpired = false := by
  have hzip : (keys.zip observations).map Prod.snd = observations :=
    List.map_snd_zip (Nat.le_of_eq h.length_eq.symm)
  have hlen := length_keysWhere_needsRestore keys observations
  constructor
  · intro heq
    rw [heq] at hlen
    have hnone : (keys.zip observations).filter (fun o => o.2.isExpired) = [] := by
      apply List.eq_nil_of_length_eq_zero
      omega
    intro o ho
    rw [← hzip] at ho
    obtain ⟨x,hx,rfl⟩ := List.mem_map.mp ho
    simpa using List.filter_eq_nil_iff.mp hnone x hx
  · intro hnone
    unfold keysWhere
    congr 1
    apply List.filter_congr
    intro o ho
    have hexpired := hnone o.2 (hzip ▸ List.mem_map_of_mem ho)
    simp [Observation.isGone,hexpired]

theorem fst_mem_restorable {keys : List LedgerKey} {observations : List Observation}
    {x : LedgerKey × ArchivedEntryInfo} (h : x ∈ restorable keys observations) : x.1 ∈ keys := by
  obtain ⟨o,ho,hx⟩ := List.mem_filterMap.mp h
  have hkey : x.1 = o.1 := by
    cases hentry : o.2.entry <;> rw [hentry] at hx <;> cases hx <;> rfl
  rw [hkey]
  exact (List.of_mem_zip ho).1

/-- The two planners take every position between them exactly when no entry has expired without
being gone: its observation carries `archived: false`, which `plan_restore` skips. -/
theorem partitioned_iff (crates : Crates) (node : Node σ) (planner : Planner)
    (currentLedger : UInt32) (keys : List LedgerKey) (w t : World σ)
    (observations : List Observation)
    (hrender : ∀ key bytes, crates.keyToXdr key = .ok bytes →
      ∃ text, crates.keyToXdrBase64 key = .ok text)
    (hobserved : Provider.observeEntries crates node keys w = .ok observations t)
    (hwindow : ∀ o ∈ observations, ∀ remaining ∈ o.asEntryTtl.ttlLedgers,
      remaining ≤ planner.window.alertHorizonLedgers) :
    Partitioned crates planner currentLedger keys observations ↔
      ∀ o ∈ observations, o.isExpired = false := by
  have hall := answered_of_observed hobserved
  have hkeys : ∀ key ∈ keys, ∃ keyXdr, LedgerKeys.render crates key = .ok keyXdr := by
    intro key hkey
    obtain ⟨bytes,hbytes⟩ := encodable_of_answered hall key hkey
    obtain ⟨text,htext⟩ := hrender key bytes hbytes
    exact ⟨text,by simp [LedgerKeys.render,htext,Except.mapError]⟩
  obtain ⟨extendPlan,hextend⟩ := planner.planExtend_of_render crates
    (snapshots keys observations) currentLedger
    (fun o ho => hkeys o.1 (List.of_mem_zip (List.mem_of_mem_filter ho)).1)
  obtain ⟨restorePlan,hrestore⟩ := planner.planRestore_of_render crates
    (restorable keys observations) currentLedger
    (fun o ho => hkeys o.1 (fst_mem_restorable (List.mem_of_mem_filter ho)))
  have hlive : extendPlan.footprint = keysWhere Observation.isLive keys observations := by
    rw [← atRisk_snapshots hall hwindow]
    exact keys_of_pushed (fun _ _ => rfl) (Planner.planExtend_ok hextend).2
  have hgone : restorePlan.footprint = keysWhere Observation.isGone keys observations := by
    rw [← archived_restorable hall]
    exact keys_of_pushed (fun _ _ => rfl) (Planner.planRestore_ok hrestore).2
  rw [← keysWhere_isGone_iff hall,← hgone]
  constructor
  · intro h
    obtain ⟨e,r,he,hr,_,hneeds⟩ := h
    rw [hrestore] at hr
    cases hr
    exact hneeds
  · intro h
    exact ⟨extendPlan,restorePlan,hextend,hrestore,hlive,h⟩

/-- A node that knows the code entry, until the given ledger, and not the data entry. -/
def codeWorld (code : UInt32) : World Script :=
  ⟨⟨.ok "Test SDF Network ; September 2015",
    [.ok ⟨some [⟨"AAAABwAAAAAAAAAAAAAAAAAAAAAAAAAAAAAAAAAAAAAAAAAAAAAAAAAAAAA=",some code⟩],100⟩],
    [],[],[]⟩,none,[]⟩

def widePlanner : Planner :=
  ⟨TtlConstants.stellarPublic,⟨120960⟩,"Test SDF Network ; September 2015"⟩

theorem widePlanner_remaining {remaining : UInt64}
    (h : remaining ∈ EntryTtl.ttlLedgers ⟨100,some 150⟩) :
    remaining ≤ widePlanner.window.alertHorizonLedgers := by
  have hfifty : remaining = 50 := (Option.some.inj h).symm
  rw [hfifty]
  decide

theorem render_sampleCrates : ∀ key bytes, sampleCrates.keyToXdr key = .ok bytes →
    ∃ text, sampleCrates.keyToXdrBase64 key = .ok text :=
  fun _ _ _ => ⟨_,rfl⟩

/-- A live entry and one that is gone. -/
theorem partitioned_iff_mixed :
    Partitioned sampleCrates widePlanner 100 [codeKey,dataKey]
        [⟨100,.live ⟨100,some 150⟩⟩,⟨100,.archived ⟨100,true⟩⟩] ↔
      ∀ o ∈ [(⟨100,.live ⟨100,some 150⟩⟩ : Observation),⟨100,.archived ⟨100,true⟩⟩],
        o.isExpired = false :=
  partitioned_iff sampleCrates playback widePlanner 100 [codeKey,dataKey] (codeWorld 150)
    (final (Provider.observeEntries sampleCrates playback [codeKey,dataKey] (codeWorld 150)))
    _ render_sampleCrates (eq_ok_of_value (by decide +kernel))
    (List.forall_mem_cons.mpr
      ⟨fun _ h => widePlanner_remaining h,List.forall_mem_singleton.mpr nofun⟩)

/-- An entry that is present, and has expired, is in neither plan. -/
theorem not_partitioned : ¬∀ (crates : Crates) (node : Node Script) (planner : Planner)
    (currentLedger : UInt32) (keys : List LedgerKey) (w t : World Script)
    (observations : List Observation),
    (∀ key bytes, crates.keyToXdr key = .ok bytes →
      ∃ text, crates.keyToXdrBase64 key = .ok text) →
    Provider.observeEntries crates node keys w = .ok observations t →
    (∀ o ∈ observations, o.currentLedger = currentLedger) →
    (∀ o ∈ observations, ∀ remaining ∈ o.asEntryTtl.ttlLedgers,
      remaining ≤ planner.window.alertHorizonLedgers) →
    Partitioned crates planner currentLedger keys observations := by
  intro h
  have hparts := h sampleCrates playback widePlanner 100 [codeKey] (codeWorld 90)
    (final (Provider.observeEntries sampleCrates playback [codeKey] (codeWorld 90)))
    [⟨100,.expiredButPresent ⟨100,false⟩⟩] render_sampleCrates
    (eq_ok_of_value (by decide +kernel)) (by decide)
    (List.forall_mem_singleton.mpr nofun)
  obtain ⟨extendPlan,restorePlan,_,hrestore,_,hneeds⟩ := hparts
  cases hrestore
  exact absurd hneeds (by decide)

end SorobanRentKeeper

import SorobanRentKeeper.Daemon.Answers
import SorobanRentKeeper.Daemon.Healthy
import SorobanRentKeeper.Daemon.KeepAlive
import SorobanRentKeeper.Daemon.Placement

namespace SorobanRentKeeper

open Program

variable {σ : Type}

/-- A node over a ledger that only goes on. What it says of an entry is what the ledger holds, its
simulations propose the keys they are given on the side an extension acts on, and an extension it
accepts, within the limit, is applied to what is still alive; others may extend entries too. -/
structure Ledger (keeper : Keeper σ) (keys : List LedgerKey) (height : σ → UInt32)
    (liveUntil : LedgerKey → σ → UInt32) : Prop where
  goesOn : ∀ s e t, Answers keeper s e t → height s ≤ height t
  lasts : ∀ s e t, Answers keeper s e t → ∀ key ∈ keys, liveUntil key s ≤ liveUntil key t
  entries : ∀ chunk s response t, keeper.node.getLedgerEntries chunk s = (.ok response,t) →
    Provider.latestLedger response.latestLedger = height t ∧ ∀ key ∈ chunk, key ∈ keys →
      Provider.Gives keeper.crates response key (liveUntil key t)
  proposes : ∀ built s response t data,
    keeper.node.simulateTransaction built s = (.ok response,t) →
    (∀ key ∈ built.footprintKeys, key ∈ keys) → Decodes keeper.crates response data →
    SameKeys (data.resources.footprint.actedOn .extend) built.footprintKeys ∧
      data.resources.footprint.excluded .extend = []
  applies : ∀ signed s hash t, keeper.node.sendTransaction signed s = (.ok hash,t) →
    ∀ extended extendTo, Extends signed extended extendTo →
    extendTo ≤ keeper.config.constants.maxEntryTtl →
    ∀ key ∈ extended, key ∈ keys → height s < liveUntil key s →
    (height s).toNat + extendTo.toNat ≤ (liveUntil key t).toNat

/-- The keys of an envelope that is built are watched. -/
theorem Warranted.watched {keeper : Keeper σ} {keys : List LedgerKey}
    {observations : List Observation} {built : TransactionEnvelope}
    (h : Warranted keeper keys observations built) : ∀ key ∈ built.footprintKeys, key ∈ keys := by
  intro key hkey
  obtain ⟨temporary,hclass⟩ := h.footprint
  rw [hclass] at hkey
  obtain ⟨o,ho,rfl⟩ := List.mem_map.mp (List.mem_of_mem_filter hkey)
  exact (List.of_mem_zip (List.mem_of_mem_filter ho)).1

/-- A watched entry that is live and due is in the class of its durability. -/
theorem mem_endangeredClass {horizon : Nat} {keys : List LedgerKey}
    {observations : List Observation} {key : LedgerKey} {o : Observation}
    (h : (key,o) ∈ keys.zip observations) (hdanger : o.inDanger horizon = true) :
    key ∈ endangeredClass horizon keys observations (isTemporaryKey key) := by
  have hendangered : key ∈ endangered horizon keys observations :=
    List.mem_map.mpr ⟨(key,o),List.mem_filter.mpr ⟨h,hdanger⟩,rfl⟩
  exact List.mem_filter.mpr ⟨hendangered,by simp⟩

section Tick

variable {keeper : Keeper σ} {keys : List LedgerKey} {height : σ → UInt32}
  {liveUntil : LedgerKey → σ → UInt32}

theorem Ledger.mono (hledger : Ledger keeper keys height liveUntil) {s t : σ} {d : List Event}
    (h : Lts.Run (Answers keeper) s d t) :
    height s ≤ height t ∧ ∀ key ∈ keys, liveUntil key s ≤ liveUntil key t := by
  induction h with
  | nil s => exact ⟨UInt32.le_refl _,fun _ _ => UInt32.le_refl _⟩
  | @cons s t u e es hstep _ ih =>
    refine ⟨UInt32.le_trans (hledger.goesOn s e t hstep) ih.1,?_⟩
    intro key hkey
    exact UInt32.le_trans (hledger.lasts s e t hstep key hkey) (ih.2 key hkey)

/-- Where the ledger stands around an event, between where it stood before the log and where it
stands after. -/
theorem Ledger.around (hledger : Ledger keeper keys height liveUntil) {s t : σ}
    {before after : List Event} {e : Event}
    (h : Lts.Run (Answers keeper) s (before ++ e::after) t) : ∃ u v, Answers keeper u e v ∧
      height s ≤ height u ∧ height v ≤ height t ∧
      ∀ key ∈ keys, liveUntil key s ≤ liveUntil key u ∧ liveUntil key v ≤ liveUntil key t := by
  obtain ⟨u,v,hfirst,hstep,hlast⟩ := h.around
  obtain ⟨hheight,hlive⟩ := hledger.mono hfirst
  obtain ⟨hheight',hlive'⟩ := hledger.mono hlast
  exact ⟨u,v,hstep,hheight,hheight',fun key hkey => ⟨hlive key hkey,hlive' key hkey⟩⟩

/-- A watched entry that outlives a call is seen alive in it, as the ledger has it at the time. -/
theorem Ledger.seen (hledger : Ledger keeper keys height liveUntil) {s t : σ} {d : List Event}
    (hrun : Lts.Run (Answers keeper) s d t) {key : LedgerKey} (hkey : key ∈ keys)
    (halive : height t < liveUntil key s) {o : Observation}
    (ho : Provider.Observed keeper.crates d key o) : ∃ u v, height s ≤ u ∧ u < v ∧
      v ≤ liveUntil key t ∧ o.entry = .live ⟨u,some v⟩ := by
  obtain ⟨chunk,response,hmem,hchunk,hreported⟩ := ho
  obtain ⟨before,after,rfl⟩ := List.append_of_mem hmem
  obtain ⟨u,v,hstep,hfirst,hlast,hlives⟩ := hledger.around hrun
  obtain ⟨hlives,hlives'⟩ := hlives key hkey
  have hheight := hledger.goesOn u _ v hstep
  have hlasts := hledger.lasts u _ v hstep key hkey
  cases hstep with
  | ledgerEntries hreply =>
    obtain ⟨hlatest,hgives⟩ := hledger.entries chunk u response v hreply
    have hobserved := hreported.eq_observation (hgives key hchunk hkey)
    have hlt : height v < liveUntil key v := by
      rw [UInt32.lt_iff_toNat_lt] at halive ⊢
      rw [UInt32.le_iff_toNat_le] at hlast hlives hlasts
      omega
    rw [hlatest] at hobserved
    refine ⟨height v,liveUntil key v,UInt32.le_trans hfirst hheight,hlt,hlives',?_⟩
    rw [hobserved]
    simp [Provider.observation,hlt]

/-- What is sent and accepted is applied. -/
theorem Ledger.applied (hledger : Ledger keeper keys height liveUntil)
    (hresolved : resolveWatchKeys keeper.crates keeper.config = .ok keys) {s t : σ}
    {d : List Event} (hcalled : Called keeper d) (hrun : Lts.Run (Answers keeper) s d t)
    {sent : Submission} (hsent : sent ∈ accepted d) {key : LedgerKey}
    (hkey : key ∈ sent.built.footprintKeys) (halive : height t < liveUntil key s) :
    (height s).toNat + min keeper.config.riskWindow.alertHorizonLedgers.toNat
      keeper.config.constants.maxEntryTtl.toNat ≤ (liveUntil key t).toNat := by
  obtain ⟨hmem,haccepted⟩ := List.mem_filter.mp hsent
  obtain ⟨e,he,hevent⟩ := List.mem_filterMap.mp hmem
  cases e with
  | send sent' =>
    cases Option.some.inj hevent
    obtain ⟨before,after,rfl⟩ := List.append_of_mem he
    obtain ⟨_,hsession⟩ := hcalled.goes .closed
    obtain ⟨data,hproposed⟩ := Session.proposed hsession
    obtain ⟨built,signed,reply⟩ := sent
    cases reply with
    | error e => cases haccepted
    | ok hash =>
      obtain ⟨watched,observations,hwarranted⟩ := hproposed.warranted
      have hwatched : watched = keys := by
        have hsame := hwarranted.resolved
        rw [hresolved] at hsame
        exact (Except.ok.inj hsame).symm
      rw [hwatched] at hwarranted
      have hkeys := hwarranted.watched key hkey
      -- the simulation came first, and proposed the keys that were built
      obtain ⟨before',response,rfl,hdecodes⟩ := hproposed.simulated
      have hsimulated := hrun
      rw [List.append_assoc] at hsimulated
      obtain ⟨u,v,_,hstep,_⟩ := hsimulated.around
      obtain ⟨hsame,hexcluded⟩ : SameKeys (data.resources.footprint.actedOn .extend)
          built.footprintKeys ∧ data.resources.footprint.excluded .extend = [] := by
        cases hstep with
        | simulate hreply =>
          exact hledger.proposes built u response v data hreply hwarranted.watched hdecodes
      have hextends := (hproposed.extends_iff _ _).mpr ⟨hexcluded,rfl,rfl⟩
      obtain ⟨u,v,hstep,hfirst,hlast,hlives⟩ := hledger.around hrun
      obtain ⟨hlives,hlives'⟩ := hlives key hkeys
      have hheight := hledger.goesOn u _ v hstep
      have htarget := keeper.config.riskWindow.extendToLedgers_toNat keeper.config.constants
      cases hstep with
      | send hreply =>
        have happlied := hledger.applies signed u hash v hreply _ _ hextends
          (by rw [UInt32.le_iff_toNat_le,htarget]; exact Nat.min_le_right _ _) key
          ((hsame key).mpr hkey) hkeys
          (by
            rw [UInt32.lt_iff_toNat_lt] at halive ⊢
            rw [UInt32.le_iff_toNat_le] at hheight hlast hlives
            omega)
        rw [htarget] at happlied
        rw [UInt32.le_iff_toNat_le] at hfirst hlives'
        omega
  | _ => cases hevent

/-- A watched entry that outlives a call is left with the whole target, counted from its start. -/
theorem Ledger.renewed (hledger : Ledger keeper keys height liveUntil)
    (hresolved : resolveWatchKeys keeper.crates keeper.config = .ok keys) {s t : σ}
    {d : List Event} (hcalled : Called keeper d) (hunharmed : Unharmed keeper keys d)
    (hrun : Lts.Run (Answers keeper) s d t) {key : LedgerKey} (hkey : key ∈ keys)
    (halive : height t < liveUntil key s) :
    (height s).toNat + min keeper.config.riskWindow.alertHorizonLedgers.toNat
      keeper.config.constants.maxEntryTtl.toNat ≤ (liveUntil key t).toNat := by
  obtain ⟨observations,_,hobserved,hclasses⟩ := hunharmed.covers
  have hpair : ∃ o, (key,o) ∈ keys.zip observations := by
    rw [← List.map_fst_zip (Nat.le_of_eq hobserved.length_eq)] at hkey
    obtain ⟨⟨_,o⟩,hmem,rfl⟩ := List.mem_map.mp hkey
    exact ⟨o,hmem⟩
  obtain ⟨o,hpair⟩ := hpair
  obtain ⟨u,v,hu,huv,hv,hlive⟩ :=
    hledger.seen hrun hkey halive (List.forall₂_zip hobserved hpair)
  by_cases hdue : v.toNat - u.toNat ≤ keeper.config.riskWindow.alertHorizonLedgers.toNat
  · have hdanger : o.inDanger keeper.config.riskWindow.alertHorizonLedgers.toNat = true := by
      simp [Observation.inDanger,hlive,huv,hdue]
    have hclass := mem_endangeredClass hpair hdanger
    have hin : endangeredClass keeper.config.riskWindow.alertHorizonLedgers.toNat keys observations
        (isTemporaryKey key) ∈ (accepted d).map (fun s => s.built.footprintKeys) := by
      rw [hclasses,List.mem_filter]
      refine ⟨List.mem_map_of_mem (by simp),?_⟩
      rw [Bool.not_eq_true',List.isEmpty_eq_false_iff]
      exact List.ne_nil_of_mem hclass
    obtain ⟨sent,hsent,hfootprint⟩ := List.mem_map.mp hin
    rw [← hfootprint] at hclass
    exact hledger.applied hresolved hcalled hrun hsent hclass halive
  · have hmin := Nat.min_le_left keeper.config.riskWindow.alertHorizonLedgers.toNat
      keeper.config.constants.maxEntryTtl.toNat
    rw [UInt32.le_iff_toNat_le] at hu hv
    omega

/-- And everything that was seen in the call was seen alive. -/
theorem Ledger.seenLive (hledger : Ledger keeper keys height liveUntil) {s t : σ}
    {d : List Event} (hunharmed : Unharmed keeper keys d) (hrun : Lts.Run (Answers keeper) s d t)
    (halive : ∀ key ∈ keys, height t < liveUntil key s) : ∀ seen ∈ observedIn d,
      seen.1 = keys ∧ ∀ o ∈ seen.2, ∃ ttl, o.entry = .live ttl ∧ ¬ttl.Underflows := by
  obtain ⟨observations,hobserved,hall,_⟩ := hunharmed.covers
  intro seen hseen
  rw [hobserved,List.mem_singleton] at hseen
  subst hseen
  refine ⟨rfl,?_⟩
  refine forall₂_right hall ?_
  intro key hkey o ho
  obtain ⟨u,v,_,huv,_,hlive⟩ := hledger.seen hrun hkey (halive key hkey) ho
  exact ⟨_,hlive,EntryTtl.Live.not_underflows ⟨v,rfl,huv⟩⟩

end Tick

section Runs

variable {keeper : Keeper σ} {keys : List LedgerKey} {sequence : σ → Int64}
  {undisturbed : σ → Prop}

/-- Where a run of `n` ticks leaves the node. -/
def nodeAfter (keeper : Keeper σ) (w : World σ) (metrics : Metrics) (n : Nat) : σ :=
  (runLoop keeper n w metrics).1.node

/-- A tick on a healthy node is one call, which the node answers throughout. -/
theorem tick_conversed (hnode : Healthy keeper sequence undisturbed)
    (hkeys : Watchable keeper keys) (w : World σ) (metrics : Metrics) :
    ∃ d, (tick keeper w metrics).1.log = w.log ++ d ∧ Called keeper d ∧ Unharmed keeper keys d ∧
      Lts.Run (Answers keeper) w.node d (tick keeper w metrics).1.node := by
  obtain ⟨d,hd,hrun⟩ := (((runCycle_healthy hnode hkeys w).and (runCycle_called keeper w)).and
    (runCycle_conversed keeper w)).cases
  rcases hrun with ⟨report,t,hrun,⟨⟨hunharmed,_⟩,hcalled⟩,hanswers⟩|⟨_,_,_,⟨hfalse,_⟩,_⟩
  · rw [tick_of_ok hrun]
    rw [hrun] at hd
    exact ⟨d,hd,hcalled,hunharmed,hanswers⟩
  · exact hfalse.elim

theorem runLoop_conversed (hnode : Healthy keeper sequence undisturbed)
    (hkeys : Watchable keeper keys) (n : Nat) (w : World σ) (metrics : Metrics) :
    ∃ d, (runLoop keeper (n + 1) w metrics).1.log = (runLoop keeper n w metrics).1.log ++ d ∧
      Called keeper d ∧ Unharmed keeper keys d ∧
      Lts.Run (Answers keeper) (nodeAfter keeper w metrics n) d
        (nodeAfter keeper w metrics (n + 1)) := by
  obtain ⟨before,hsome⟩ := runLoop_running hkeys.resolved n w metrics
  unfold nodeAfter
  rw [runLoop_succ]
  generalize runLoop keeper n w metrics = r at hsome ⊢
  obtain ⟨u,ended⟩ := r
  cases hsome
  exact tick_conversed hnode hkeys u before

variable {height : σ → UInt32} {liveUntil : LedgerKey → σ → UInt32}

/-- Every watched entry outlives the next tick: a tick leaves it with the whole target, and two
ticks take less. -/
theorem Ledger.outlives (hledger : Ledger keeper keys height liveUntil)
    (hnode : Healthy keeper sequence undisturbed) (hkeys : Watchable keeper keys) {n : Nat}
    {w : World σ} {metrics : Metrics}
    (hfirst : ∀ key ∈ keys, height (nodeAfter keeper w metrics 1) < liveUntil key w.node)
    (hpace : ∀ i, i + 2 ≤ n → (height (nodeAfter keeper w metrics (i + 2))).toNat <
      (height (nodeAfter keeper w metrics i)).toNat +
        min keeper.config.riskWindow.alertHorizonLedgers.toNat
          keeper.config.constants.maxEntryTtl.toNat) :
    ∀ i < n, ∀ key ∈ keys, height (nodeAfter keeper w metrics (i + 1)) <
      liveUntil key (nodeAfter keeper w metrics i) := by
  intro i
  induction i with
  | zero => exact fun _ => hfirst
  | succ i ih =>
    intro hi key hkey
    obtain ⟨d,_,hcalled,hunharmed,hrun⟩ := runLoop_conversed hnode hkeys i w metrics
    have hrenewed := hledger.renewed hkeys.resolved hcalled hunharmed hrun hkey
      (ih (Nat.lt_of_succ_lt hi) key hkey)
    rw [UInt32.lt_iff_toNat_lt]
    exact Nat.lt_of_lt_of_le (hpace i hi) hrenewed

end Runs

/-- The loop is closed: on a healthy node over such a ledger, where two polls take less than the
target and no entry is lost before the first is over, every watched entry stays alive, and is seen
alive by every poll, through a run of any number of ticks. -/
theorem runLoop_upkeep (keeper : Keeper σ) (keys : List LedgerKey) (sequence : σ → Int64)
    (undisturbed : σ → Prop) (height : σ → UInt32) (liveUntil : LedgerKey → σ → UInt32)
    (hnode : Healthy keeper sequence undisturbed) (hkeys : Watchable keeper keys)
    (hledger : Ledger keeper keys height liveUntil) (n : Nat) (w : World σ) (metrics : Metrics)
    (hfirst : ∀ key ∈ keys, height (nodeAfter keeper w metrics 1) < liveUntil key w.node)
    (hpace : ∀ i, i + 2 ≤ n → (height (nodeAfter keeper w metrics (i + 2))).toNat <
      (height (nodeAfter keeper w metrics i)).toNat +
        min keeper.config.riskWindow.alertHorizonLedgers.toNat
          keeper.config.constants.maxEntryTtl.toNat) :
    ∃ d, (runLoop keeper n w metrics).1.log = w.log ++ d ∧
      (∀ seen ∈ observedIn d, seen.1 = keys ∧
        ∀ o ∈ seen.2, ∃ ttl, o.entry = .live ttl ∧ ¬ttl.Underflows) ∧
      ∀ key ∈ keys, height (nodeAfter keeper w metrics n) <
        liveUntil key (nodeAfter keeper w metrics n) := by
  have houtlives := hledger.outlives hnode hkeys hfirst hpace
  have hseen : ∀ i ≤ n, ∃ d, (runLoop keeper i w metrics).1.log = w.log ++ d ∧
      ∀ seen ∈ observedIn d, seen.1 = keys ∧
        ∀ o ∈ seen.2, ∃ ttl, o.entry = .live ttl ∧ ¬ttl.Underflows := by
    intro i
    induction i with
    | zero => exact fun _ => ⟨[],(List.append_nil _).symm,by simp [observedIn]⟩
    | succ i ih =>
      intro hi
      obtain ⟨d,hd,hall⟩ := ih (Nat.le_of_succ_le hi)
      obtain ⟨d',hd',_,hunharmed,hrun⟩ := runLoop_conversed hnode hkeys i w metrics
      refine ⟨d ++ d',by rw [hd',hd,List.append_assoc],?_⟩
      intro seen hmem
      rw [observedIn_append,List.mem_append] at hmem
      rcases hmem with hmem|hmem
      · exact hall seen hmem
      · exact hledger.seenLive hunharmed hrun (houtlives i hi) seen hmem
  obtain ⟨d,hd,hall⟩ := hseen n (Nat.le_refl n)
  refine ⟨d,hd,hall,?_⟩
  intro key hkey
  cases n with
  | zero =>
    obtain ⟨d',_,_,_,hrun⟩ := runLoop_conversed hnode hkeys 0 w metrics
    exact UInt32.lt_of_le_of_lt (hledger.mono hrun).1 (hfirst key hkey)
  | succ n =>
    obtain ⟨d',_,_,_,hrun⟩ := runLoop_conversed hnode hkeys n w metrics
    exact UInt32.lt_of_lt_of_le (houtlives n (Nat.lt_succ_self n) key hkey)
      ((hledger.mono hrun).2 key hkey)

/-- A ledger with the code entry on it, and the account of the payer. -/
structure Estate where
  sequence : Int64
  age : Fin 1000
  code : UInt32

namespace Estate

def height (estate : Estate) : UInt32 := UInt32.ofNat estate.age.val

/-- Thirty ledgers close. -/
def close (estate : Estate) : Estate :=
  { estate with age := if h : estate.age.val + 30 < 1000 then ⟨estate.age.val + 30,h⟩
      else estate.age }

/-- How far an envelope extends the code entry, if it does. -/
def extension (envelope : TransactionEnvelope) : Option UInt32 :=
  match envelope with
  | .tx inner =>
    match inner.tx.operations.val,inner.tx.ext with
    | [op],.v1 data =>
      match op.body with
      | .extendFootprintTtl op =>
        if data.resources.footprint.excluded .extend = [] ∧
            codeKey ∈ data.resources.footprint.actedOn .extend then some op.extendTo else none
      | _ => none
    | _,_ => none
  | _ => none

/-- What is accepted is applied, up to the last ledger there is. -/
def apply (estate : Estate) (envelope : TransactionEnvelope) : Estate :=
  match extension envelope with
  | some extendTo =>
    let liveUntil := UInt32.ofNat (min 4294967295 (estate.age.val + extendTo.toNat))
    if estate.code < liveUntil then { estate with code := liveUntil } else estate
  | none => estate

/-- Simulation of an extension of the code entry, as the protocol wants it. -/
def proposal : String :=
  "AAAAAAAAAAEAAAAHAAAAAAAAAAAAAAAAAAAAAAAAAAAAAAAAAAAAAAAAAAAAAAAAAAAAAAAAAAAAAAAAAAAAAAAAAAA="

def nothing : String := "AAAAAAAAAAAAAAAAAAAAAAAAAAAAAAAAAAAAAAAAAAA="

def node : Node Estate where
  getNetwork estate := (.ok "Test SDF Network ; September 2015",estate.close)
  getLedgerEntries _ estate :=
    (.ok ⟨some [⟨"AAAABwAAAAAAAAAAAAAAAAAAAAAAAAAAAAAAAAAAAAAAAAAAAAAAAAAAAAA=",
      some estate.code⟩],Int64.ofNat estate.age.val⟩,estate)
  getAccount _ estate := (.ok estate.sequence,estate)
  simulateTransaction envelope estate :=
    (.ok ⟨none,1000,if codeKey ∈ envelope.footprintKeys then proposal else nothing⟩,estate)
  sendTransaction envelope estate :=
    if envelope.seqNum = some (estate.sequence + 1) then
      (.ok (Vector.replicate 32 0),
        { estate.apply envelope with sequence := estate.sequence + 1 })
    else (.error "transaction failed: tx_bad_seq",estate)

theorem toNat_height (estate : Estate) : estate.height.toNat = estate.age.val := by
  have hlt := estate.age.isLt
  unfold height
  rw [UInt32.toNat_ofNat']
  omega

theorem height_close (estate : Estate) : estate.height ≤ estate.close.height := by
  rw [UInt32.le_iff_toNat_le,toNat_height,toNat_height]
  unfold close
  split
  · exact Nat.le_add_right _ _
  · exact Nat.le_refl _

theorem age_apply (estate : Estate) (envelope : TransactionEnvelope) :
    (estate.apply envelope).age = estate.age := by
  unfold apply
  split
  · simp only
    split_ifs <;> rfl
  · rfl

theorem code_apply (estate : Estate) (envelope : TransactionEnvelope) :
    estate.code ≤ (estate.apply envelope).code := by
  unfold apply
  split
  · simp only
    split_ifs with hlt
    · exact UInt32.le_of_lt hlt
    · exact UInt32.le_refl _
  · exact UInt32.le_refl _

/-- Within the limit nothing is cut off. -/
theorem extended_apply (estate : Estate) {envelope : TransactionEnvelope} {extendTo : UInt32}
    (h : extension envelope = some extendTo)
    (hle : extendTo ≤ TtlConstants.stellarPublic.maxEntryTtl) :
    estate.height.toNat + extendTo.toNat ≤ (estate.apply envelope).code.toNat := by
  have hage := estate.age.isLt
  have hlimit : extendTo.toNat ≤ 6312000 := UInt32.le_iff_toNat_le.mp hle
  have htarget : (UInt32.ofNat (min 4294967295 (estate.age.val + extendTo.toNat))).toNat =
      estate.age.val + extendTo.toNat := by
    rw [UInt32.toNat_ofNat']
    omega
  rw [toNat_height]
  unfold apply
  rw [h]
  simp only
  split_ifs with hlt
  · exact Nat.le_of_eq htarget.symm
  · rw [UInt32.lt_iff_toNat_lt,htarget] at hlt
    exact Nat.le_of_not_lt hlt

theorem extension_of_extends {envelope : TransactionEnvelope} {keys : List LedgerKey}
    {extendTo : UInt32} (h : Extends envelope keys extendTo) (hkey : codeKey ∈ keys) :
    extension envelope = some extendTo := by
  obtain ⟨inner,op,data,rfl,hop,hbody,hext,rfl,hexcluded⟩ := h
  simp only [extension,hop,hext,hbody,hexcluded,hkey,and_self,if_true]

end Estate

theorem length_codeKey_le : [codeKey].length ≤ u32Max := by decide

/-- The sample libraries, which know that simulation too. -/
def upkeepCrates : Crates := { sampleCrates with
  sorobanDataFromXdrBase64 := fun text =>
    if text = Estate.proposal then
      .ok ⟨.v0,⟨⟨⟨[codeKey],length_codeKey_le⟩,VecM.empty LedgerKey u32Max⟩,0,0,0⟩,0⟩
    else sampleCrates.sorobanDataFromXdrBase64 text }

theorem upkeepCrates_code : upkeepCrates.entryKeyFromXdrBase64
    "AAAABwAAAAAAAAAAAAAAAAAAAAAAAAAAAAAAAAAAAAAAAAAAAAAAAAAAAAA=" = .ok codeKey :=
  eq_ok_of_toOption (by decide +kernel)

theorem upkeepCrates_proposal : upkeepCrates.sorobanDataFromXdrBase64 Estate.proposal =
    .ok ⟨.v0,⟨⟨⟨[codeKey],length_codeKey_le⟩,VecM.empty LedgerKey u32Max⟩,0,0,0⟩,0⟩ :=
  eq_ok_of_toOption (by decide +kernel)

theorem upkeepCrates_nothing : upkeepCrates.sorobanDataFromXdrBase64 Estate.nothing =
    .ok ⟨.v0,⟨⟨VecM.empty LedgerKey u32Max,VecM.empty LedgerKey u32Max⟩,0,0,0⟩,0⟩ :=
  eq_ok_of_toOption (by decide +kernel)

/-- The sample daemon, which watches the code entry there. -/
def upkeepKeeper : Keeper Estate where
  crates := upkeepCrates
  node := Estate.node
  config := { sampleKeeper.config with
    watch := [.contractCode "0000000000000000000000000000000000000000000000000000000000000000"] }
  payer := sampleKeeper.payer
  tracker := sampleKeeper.tracker

theorem upkeepKeeper_watchable : Watchable upkeepKeeper [codeKey] where
  resolved := eq_ok_of_toOption (by decide +kernel)
  nonempty := by simp
  fits := by simp
  encodable := fun key _ => ⟨key.xdr,rfl⟩
  rendered := fun key _ => ⟨_,rfl⟩

theorem simulateTransaction_of_mem {envelope : TransactionEnvelope}
    (h : codeKey ∈ envelope.footprintKeys) (estate : Estate) :
    upkeepKeeper.node.simulateTransaction envelope estate =
      (.ok ⟨none,1000,Estate.proposal⟩,estate) := by
  show (Except.ok _,estate) = _
  rw [if_pos h]

theorem simulateTransaction_of_not_mem {envelope : TransactionEnvelope}
    (h : codeKey ∉ envelope.footprintKeys) (estate : Estate) :
    upkeepKeeper.node.simulateTransaction envelope estate =
      (.ok ⟨none,1000,Estate.nothing⟩,estate) := by
  show (Except.ok _,estate) = _
  rw [if_neg h]

theorem upkeepKeeper_healthy : Healthy upkeepKeeper Estate.sequence fun _ => True := by
  refine ⟨fun _ => rfl,fun _ estate => ⟨_,rfl,?_⟩,?_,fun _ _ => ⟨_,rfl⟩⟩
  · intro row hrow
    rw [List.mem_singleton.mp hrow]
    exact ⟨codeKey,codeKey.xdr,upkeepCrates_code,rfl⟩
  · constructor
    · exact fun _ estate => ⟨estate,rfl,fun _ => trivial⟩
    · intro envelope estate
      by_cases hcode : codeKey ∈ envelope.footprintKeys
      · refine ⟨_,_,_,simulateTransaction_of_mem hcode estate,rfl,by decide +kernel,
          upkeepCrates_proposal,fun _ => ⟨trivial,rfl⟩⟩
      · refine ⟨_,_,_,simulateTransaction_of_not_mem hcode estate,rfl,by decide +kernel,
          upkeepCrates_nothing,fun _ => ⟨trivial,rfl⟩⟩
    · exact fun envelope estate hnext => ⟨_,_,if_pos hnext,rfl⟩
    · exact fun envelope estate hnext => ⟨_,_,if_neg hnext,by decide +kernel,trivial⟩

theorem upkeepKeeper_gives (code : UInt32) (latest : Int64) : Provider.Gives upkeepCrates
    ⟨some [⟨"AAAABwAAAAAAAAAAAAAAAAAAAAAAAAAAAAAAAAAAAAAAAAAAAAAAAAAAAAA=",some code⟩],latest⟩
    codeKey code := by
  refine ⟨upkeepCrates.sha256 codeKey.xdr,rfl,⟨_,List.mem_cons_self,rfl⟩,?_⟩
  intro row hrow _
  rw [List.mem_singleton.mp hrow]

/-- What the ledger holds of a key. -/
def Estate.liveUntil (_ : LedgerKey) (estate : Estate) : UInt32 := estate.code

/-- What the node does with a transaction. -/
theorem upkeepKeeper_send (signed : TransactionEnvelope) (s : Estate) :
    upkeepKeeper.node.sendTransaction signed s =
      if signed.seqNum = some (s.sequence + 1) then
        (.ok (Vector.replicate 32 0),{ s.apply signed with sequence := s.sequence + 1 })
      else (.error "transaction failed: tx_bad_seq",s) := rfl

/-- The ledger goes on, and the entry loses nothing. -/
theorem upkeepKeeper_moves {s t : Estate} {e : Event} (h : Answers upkeepKeeper s e t) :
    s.height ≤ t.height ∧ s.code ≤ t.code := by
  cases h with
  | network h =>
    cases h
    exact ⟨s.height_close,UInt32.le_refl _⟩
  | send h =>
    rename_i built signed reply
    rw [upkeepKeeper_send] at h
    split_ifs at h
    · cases h
      refine ⟨?_,s.code_apply signed⟩
      show s.height ≤ UInt32.ofNat (s.apply signed).age.val
      rw [s.age_apply signed]
      exact UInt32.le_refl _
    · cases h
      exact ⟨UInt32.le_refl _,UInt32.le_refl _⟩
  | ledgerEntries h =>
    cases h
    exact ⟨UInt32.le_refl _,UInt32.le_refl _⟩
  | account h =>
    cases h
    exact ⟨UInt32.le_refl _,UInt32.le_refl _⟩
  | simulate h =>
    cases h
    exact ⟨UInt32.le_refl _,UInt32.le_refl _⟩
  | observed => exact ⟨UInt32.le_refl _,UInt32.le_refl _⟩
  | submitPlan => exact ⟨UInt32.le_refl _,UInt32.le_refl _⟩

theorem latestLedger_age (age : Fin 1000) :
    Provider.latestLedger (Int64.ofNat age.val) = UInt32.ofNat age.val := by
  revert age
  decide +kernel

/-- Its simulations propose the code entry where they are asked for it, and nothing else. -/
theorem upkeepKeeper_proposes {built : TransactionEnvelope} {s t : Estate}
    {response : SimulateResponse} {data : SorobanTransactionData}
    (h : upkeepKeeper.node.simulateTransaction built s = (.ok response,t))
    (hkeys : ∀ key ∈ built.footprintKeys, key ∈ [codeKey])
    (hdecodes : Decodes upkeepKeeper.crates response data) :
    SameKeys (data.resources.footprint.actedOn .extend) built.footprintKeys ∧
      data.resources.footprint.excluded .extend = [] := by
  obtain ⟨_,_,hdata⟩ := hdecodes
  by_cases hcode : codeKey ∈ built.footprintKeys
  · rw [simulateTransaction_of_mem hcode] at h
    cases h
    cases hdata.symm.trans upkeepCrates_proposal
    refine ⟨?_,rfl⟩
    intro key
    show key ∈ [codeKey] ↔ _
    rw [List.mem_singleton]
    exact ⟨fun h => h ▸ hcode,fun h => List.mem_singleton.mp (hkeys key h)⟩
  · rw [simulateTransaction_of_not_mem hcode] at h
    cases h
    cases hdata.symm.trans upkeepCrates_nothing
    refine ⟨?_,rfl⟩
    intro key
    show key ∈ [] ↔ _
    refine ⟨fun h => absurd h List.not_mem_nil,?_⟩
    intro h
    rw [List.mem_singleton.mp (hkeys key h)] at h
    exact absurd h hcode

theorem upkeepKeeper_ledger : Ledger upkeepKeeper [codeKey] Estate.height Estate.liveUntil where
  goesOn _ _ _ h := (upkeepKeeper_moves h).1
  lasts _ _ _ h _ _ := (upkeepKeeper_moves h).2
  entries chunk s response t h := by
    cases h
    refine ⟨latestLedger_age s.age,?_⟩
    intro key _ hkey
    rw [List.mem_singleton.mp hkey]
    exact upkeepKeeper_gives s.code _
  proposes _ _ _ _ _ h hkeys hdecodes := upkeepKeeper_proposes h hkeys hdecodes
  applies signed s hash t h extended extendTo hextends hle key hkey hwatched _ := by
    rw [List.mem_singleton.mp hwatched] at hkey
    rw [upkeepKeeper_send] at h
    split_ifs at h
    · cases h
      exact s.extended_apply (Estate.extension_of_extends hextends hkey) hle
    · cases h

/-- The node starts a hundred ledgers in, with fifty left to the code entry; the tracker starts
from a number that is long gone. -/
theorem runLoop_upkeep_estate : ∃ d,
    (runLoop upkeepKeeper 3 ⟨⟨7,100,150⟩,some 40,[]⟩ Metrics.new).1.log = [] ++ d ∧
    (∀ seen ∈ observedIn d, seen.1 = [codeKey] ∧
      ∀ o ∈ seen.2, ∃ ttl, o.entry = .live ttl ∧ ¬ttl.Underflows) ∧
    ∀ key ∈ [codeKey], (nodeAfter upkeepKeeper ⟨⟨7,100,150⟩,some 40,[]⟩ Metrics.new 3).height <
      (nodeAfter upkeepKeeper ⟨⟨7,100,150⟩,some 40,[]⟩ Metrics.new 3).liveUntil key := by
  refine runLoop_upkeep upkeepKeeper [codeKey] Estate.sequence (fun _ => True) Estate.height
    Estate.liveUntil upkeepKeeper_healthy upkeepKeeper_watchable upkeepKeeper_ledger 3
    ⟨⟨7,100,150⟩,some 40,[]⟩ Metrics.new ?_ ?_
  · have hlt : (nodeAfter upkeepKeeper ⟨⟨7,100,150⟩,some 40,[]⟩ Metrics.new 1).height < 150 := by
      decide +kernel
    exact fun _ _ => hlt
  · intro i hi
    have hi : i = 0 ∨ i = 1 := by omega
    rcases hi with rfl|rfl
    · decide +kernel
    · decide +kernel

end SorobanRentKeeper

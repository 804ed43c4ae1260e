import SorobanRentKeeper.Daemon.Cycle
import SorobanRentKeeper.Daemon.LoadConfig

namespace SorobanRentKeeper

open Program

variable {σ : Type}

/-- A rule for a temporary contract-data entry. -/
def WatchSpec.isTemporary : WatchSpec → Bool
  | .dataKey _ _ durability => durability = "temporary"
  | _ => false

/-- The rules of one durability class whose entries were seen live and in danger, in watch
order. -/
def rulesInDanger (horizon : Nat) (rules : List WatchSpec) (observations : List Observation)
    (temporary : Bool) : List WatchSpec :=
  (((rules.zip observations).filter fun o => o.2.inDanger horizon).map Prod.fst).filter
    fun rule => rule.isTemporary == temporary

/-- Two rules that name one ledger entry, however they spell it. -/
def NameSame (crates : Crates) (rule rule' : WatchSpec) : Prop :=
  ∃ key, Resolves crates rule key ∧ Resolves crates rule' key

theorem HashOf.unique {cs : List Char} {hash hash' : Bytes32} (h : HashOf cs hash)
    (h' : HashOf cs hash') : hash = hash' := by
  apply Vector.ext
  intro j hj
  apply UInt8.toNat_inj.mp
  rw [h.byte j hj,h'.byte j hj]

/-- A rule names one entry at most. -/
theorem rightUnique_resolves (crates : Crates) : Relator.RightUnique (Resolves crates) := by
  intro rule key key' h h'
  cases rule with
  | «instance» contractId =>
    obtain ⟨id,hid,rfl⟩ := h
    obtain ⟨id',hid',rfl⟩ := h'
    rw [hid] at hid'
    cases hid'
    rfl
  | dataKey contractId keyXdr durability =>
    obtain ⟨id,scVal,hid,hval,hkey⟩ := h
    obtain ⟨id',scVal',hid',hval',hkey'⟩ := h'
    rw [hid] at hid'
    cases hid'
    rw [hval] at hval'
    cases hval'
    rcases hkey with ⟨rfl,rfl⟩|⟨rfl,rfl⟩
    · rcases hkey' with ⟨_,rfl⟩|⟨hother,_⟩
      · rfl
      · exact absurd hother (by decide)
    · rcases hkey' with ⟨hother,_⟩|⟨_,rfl⟩
      · exact absurd hother (by decide)
      · rfl
  | contractCode wasmHash =>
    obtain ⟨hash,hhash,rfl⟩ := h
    obtain ⟨hash',hhash',rfl⟩ := h'
    rw [hhash.unique hhash']

/-- The durability class shows in the rule. -/
theorem Resolves.isTemporary {crates : Crates} {rule : WatchSpec} {key : LedgerKey}
    (h : Resolves crates rule key) : rule.isTemporary = isTemporaryKey key := by
  cases rule with
  | «instance» contractId =>
    obtain ⟨id,_,rfl⟩ := h
    rfl
  | dataKey contractId keyXdr durability =>
    obtain ⟨id,scVal,_,_,hkey⟩ := h
    rcases hkey with ⟨rfl,rfl⟩|⟨rfl,rfl⟩
    · rfl
    · rfl
  | contractCode wasmHash =>
    obtain ⟨hash,_,rfl⟩ := h
    rfl

/-- What is in danger by rule is in danger by key. -/
theorem resolves_inDanger {crates : Crates} {rules : List WatchSpec} {keys : List LedgerKey}
    (h : List.Forall₂ (Resolves crates) rules keys) (horizon : Nat)
    (observations : List Observation) (temporary : Bool) :
    List.Forall₂ (Resolves crates) (rulesInDanger horizon rules observations temporary)
      (endangeredClass horizon keys observations temporary) := by
  have hdanger : List.Forall₂ (Resolves crates)
      (((rules.zip observations).filter fun o => o.2.inDanger horizon).map Prod.fst)
      (endangered horizon keys observations) := by
    unfold endangered
    induction h generalizing observations with
    | nil => exact .nil
    | cons hrule _ ih =>
      cases observations with
      | nil => exact .nil
      | cons o observations =>
        rw [List.zip_cons_cons,List.zip_cons_cons,List.filter_cons,List.filter_cons]
        cases o.inDanger horizon with
        | true => exact .cons hrule (ih observations)
        | false => exact ih observations
  refine List.rel_filter ?_ hdanger
  intro rule key hrule
  simp only [hrule.isTemporary]

/-- Every envelope a cycle builds, however the cycle ends, carries the keys of one class of what
it saw in danger. -/
theorem runCycle_classes (keeper : Keeper σ) (w : World σ) :
    ∃ d, (final (runCycle keeper w)).log = w.log ++ d ∧
      ∀ envelope ∈ simulated d, ∃ keys observations temporary,
        resolveWatchKeys keeper.crates keeper.config = .ok keys ∧
        observedIn d = [(keys,observations)] ∧ envelope.footprintKeys =
          endangeredClass keeper.config.riskWindow.alertHorizonLedgers.toNat keys observations
            temporary := by
  obtain ⟨d,hd,hrun⟩ := (runCycle_traced keeper w).cases
  refine ⟨d,hd,?_⟩
  intro envelope he
  rcases hrun with hok|herr
  · obtain ⟨report,t,_,keys,observations,plans,_,hdone⟩ := hok
    obtain ⟨dq,ds,hprep,hserved,rfl⟩ := hdone.logged
    rw [simulated_append,hprep.quiet.simulated,List.nil_append] at he
    obtain ⟨plan,hplan,n,hbuild⟩ := simulated_of_served hserved envelope he
    obtain ⟨temporary,hkeys⟩ := hprep.class_of_built hplan hbuild
    refine ⟨keys,observations,temporary,hdone.resolved,?_,hkeys⟩
    rw [observedIn_append,hprep.once,observedIn_of_served hserved,List.append_nil]
  · obtain ⟨fault,t,_,hquiet|hstuck⟩ := herr
    · rw [hquiet.simulated] at he
      cases he
    · obtain ⟨keys,observations,done,plan,rest,hstuck⟩ := hstuck
      obtain ⟨dq,ds,d',hprep,hserved,hun,rfl⟩ := hstuck.logged
      rw [simulated_append,hprep.quiet.simulated,List.nil_append,simulated_append,
        List.mem_append] at he
      -- built for a plan served before the one it got stuck at, or for that one
      have hplan : ∃ plan' ∈ done ++ plan::rest, ∃ n,
          buildFor keeper (cycleBuilder keeper) plan' n = .ok envelope := by
        rcases he with he|he
        · obtain ⟨plan',hplan',hbuild⟩ := simulated_of_served hserved envelope he
          exact ⟨plan',List.mem_append_left _ hplan',hbuild⟩
        · exact ⟨plan,by simp,hun.built envelope he⟩
      obtain ⟨plan',hplan',n,hbuild⟩ := hplan
      obtain ⟨temporary,hkeys⟩ := hprep.class_of_built hplan' hbuild
      refine ⟨keys,observations,temporary,hstuck.resolved,?_,hkeys⟩
      rw [observedIn_append,observedIn_append,hprep.once,observedIn_of_served hserved,hun.unread]
      rfl

/-- The footprint of an envelope of a cycle names the entries of one class of rules in danger, in
watch order; it is free of duplicates exactly when no two of these rules name the same entry. -/
theorem runCycle_nodup_iff (host : Host) (path : String) (keeper : Keeper σ)
    (hload : loadConfig host keeper.crates path = .ok keeper.config) (w : World σ) :
    ∃ d, (final (runCycle keeper w)).log = w.log ++ d ∧
      ∀ envelope ∈ simulated d, ∃ keys observations temporary,
        observedIn d = [(keys,observations)] ∧
        List.Forall₂ (Resolves keeper.crates)
          (rulesInDanger keeper.config.riskWindow.alertHorizonLedgers.toNat keeper.config.watch
            observations temporary) envelope.footprintKeys ∧
        (envelope.footprintKeys.Nodup ↔
          (rulesInDanger keeper.config.riskWindow.alertHorizonLedgers.toNat keeper.config.watch
            observations temporary).Pairwise
            fun rule rule' => ¬NameSame keeper.crates rule rule') := by
  obtain ⟨d,hd,hclasses⟩ := runCycle_classes keeper w
  refine ⟨d,hd,?_⟩
  intro envelope he
  obtain ⟨keys,observations,temporary,hkeys,hobserved,hfootprint⟩ := hclasses envelope he
  obtain ⟨_,file,secret,_,_,_,haccepted,hvalid⟩ := loadConfig_ok hload
  obtain ⟨keys',hkeys',hresolves⟩ := resolveWatchSpecs_of_valid haccepted.watch
  have hwatch : keeper.config.watch = file.config.watch := by rw [hvalid]; rfl
  unfold resolveWatchKeys at hkeys
  rw [hwatch] at hkeys ⊢
  cases Except.ok.inj (hkeys.symm.trans hkeys')
  have hrules := resolves_inDanger hresolves
    keeper.config.riskWindow.alertHorizonLedgers.toNat observations temporary
  rw [← hfootprint] at hrules
  refine ⟨keys,observations,temporary,hobserved,hrules,?_⟩
  exact nodup_iff_of_forall₂ (rightUnique_resolves keeper.crates) hrules

/-- One hash, spelled with and without its prefix. -/
def twinWatch : List WatchSpec :=
  [.contractCode "0000000000000000000000000000000000000000000000000000000000000000",
    .contractCode "0x0000000000000000000000000000000000000000000000000000000000000000"]

def twinToml : String :=
  "rpc_url = \"https://soroban-testnet.stellar.org:443\"\n" ++
  "network_passphrase = \"Test SDF Network ; September 2015\"\n" ++
  "secret_key = \"SBFIJNQVTU3QZGZSVAHBQFAKHRGFNIHQMIVJJSGV7HRPC7CLBR7QZL7VYP\"\n" ++
  "[[watch]]\ntype = \"contract_code\"\n" ++
  "wasm_hash = \"0000000000000000000000000000000000000000000000000000000000000000\"\n" ++
  "[[watch]]\ntype = \"contract_code\"\n" ++
  "wasm_hash = \"0x0000000000000000000000000000000000000000000000000000000000000000\"\n"

def twinHost : Host where
  readToString path :=
    if path = "keeper.toml" then .ok twinToml else .error "No such file or directory (os error 2)"
  envVar _ := none
  tomlFromStr text :=
    if text = twinToml then
      .ok {
        rpcUrl := "https://soroban-testnet.stellar.org:443"
        networkPassphrase := "Test SDF Network ; September 2015"
        secretKey := some "SBFIJNQVTU3QZGZSVAHBQFAKHRGFNIHQMIVJJSGV7HRPC7CLBR7QZL7VYP"
        secretKeyFile := none
        watch := some twinWatch
        pollIntervalSecs := none
        riskWindowDays := none
        metricsPort := none }
    else .error "TOML parse error"

/-- The daemon that starts from this file. -/
def twinKeeper : Keeper Script :=
  { sampleKeeper with config := { sampleConfig with watch := twinWatch } }

/-- Its cycle on a node that has the code entry. -/
def twinLog : List Event := (final (runCycle twinKeeper sampleWorld)).log

theorem loadConfig_twin : loadConfig twinHost twinKeeper.crates "keeper.toml" =
    .ok twinKeeper.config := eq_ok_of_toOption (by decide +kernel)

theorem runCycle_nodup_twin : ∃ envelope ∈ simulated twinLog, ∃ keys observations temporary,
    observedIn twinLog = [(keys,observations)] ∧
    List.Forall₂ (Resolves sampleCrates)
      (rulesInDanger 120960 twinWatch observations temporary) envelope.footprintKeys ∧
    (envelope.footprintKeys.Nodup ↔
      (rulesInDanger 120960 twinWatch observations temporary).Pairwise
        fun rule rule' => ¬NameSame sampleCrates rule rule') := by
  obtain ⟨d,hd,hclasses⟩ :=
    runCycle_nodup_iff twinHost "keeper.toml" twinKeeper loadConfig_twin sampleWorld
  have hlog : twinLog = d := hd.trans (List.nil_append d)
  have hbuilt : ∃ envelope, envelope ∈ simulated twinLog := by
    apply List.exists_mem_of_length_pos
    decide +kernel
  obtain ⟨envelope,he⟩ := hbuilt
  rw [hlog] at he ⊢
  exact ⟨envelope,he,hclasses envelope he⟩

/-- The one envelope of that cycle names the code entry twice. -/
theorem runCycle_not_nodup : ¬∀ (host : Host) (path : String) (keeper : Keeper Script)
    (w : World Script) (d : List Event),
    loadConfig host keeper.crates path = .ok keeper.config →
    (final (runCycle keeper w)).log = w.log ++ d →
    ∀ envelope ∈ simulated d, envelope.footprintKeys.Nodup := by
  intro h
  have hall := h twinHost "keeper.toml" twinKeeper sampleWorld twinLog loadConfig_twin
    (List.nil_append _).symm
  have hrepeated : ∃ envelope ∈ simulated twinLog, envelope.footprintKeys = [codeKey,codeKey] := by
    decide +kernel
  obtain ⟨envelope,he,hkeys⟩ := hrepeated
  have hnodup := hall envelope he
  rw [hkeys] at hnodup
  exact absurd hnodup (by decide)

end SorobanRentKeeper

import SorobanRentKeeper.Cli.HashParser
import SorobanRentKeeper.Cli.Inspect
import SorobanRentKeeper.Daemon.Duplicates

namespace SorobanRentKeeper

/-- What an `inspect` asks about, in the words of a watch list. -/
def InspectArgs.rules (args : InspectArgs) : List WatchSpec :=
  (match args.keyXdr with
    | some xdr => .dataKey args.contract xdr args.durability
    | none => .instance args.contract) :: args.wasmHash.toList.map .contractCode

/-- What a plan is asked for, in the words of a watch list. -/
def PlanArgs.rules (args : PlanArgs) : List WatchSpec :=
  args.keyXdrs.map fun xdr => .dataKey args.contract xdr args.durability

/-- The durability a name stands for. -/
def NamesDurability (name : String) (durability : ContractDataDurability) : Prop :=
  name = "persistent" ∧ durability = .persistent ∨ name = "temporary" ∧ durability = .temporary

theorem resolves_dataKey_iff {crates : Crates} {contract xdr name : String} {key : LedgerKey} :
    Resolves crates (.dataKey contract xdr name) key ↔
      ∃ id scVal durability, crates.strkeyFromString contract = .ok (.contract id) ∧
        crates.scValFromXdrBase64 xdr = .ok scVal ∧ NamesDurability name durability ∧
        key = LedgerKeys.contractData id scVal durability := by
  constructor
  · intro h
    obtain ⟨id,scVal,hid,hval,⟨hname,hkey⟩|⟨hname,hkey⟩⟩ := h
    · exact ⟨id,scVal,.persistent,hid,hval,.inl ⟨hname,rfl⟩,hkey⟩
    · exact ⟨id,scVal,.temporary,hid,hval,.inr ⟨hname,rfl⟩,hkey⟩
  · intro h
    obtain ⟨id,scVal,durability,hid,hval,⟨hname,rfl⟩|⟨hname,rfl⟩,hkey⟩ := h
    · exact ⟨id,scVal,hid,hval,.inl ⟨hname,hkey⟩⟩
    · exact ⟨id,scVal,hid,hval,.inr ⟨hname,hkey⟩⟩

/-! The daemon. -/

theorem validateContractStrkey_of_contract {crates : Crates} {contract : String} {id : Bytes32}
    (h : crates.strkeyFromString contract = .ok (.contract id)) :
    validateContractStrkey crates contract = .ok () := by
  unfold validateContractStrkey
  rw [h]
  rfl

/-- The check passes a rule only if it names a key. -/
theorem validateWatchSpec_of_resolves {crates : Crates} {spec : WatchSpec} {key : LedgerKey}
    (h : Resolves crates spec key) : validateWatchSpec crates spec = .ok () := by
  cases spec with
  | «instance» contract =>
    obtain ⟨id,hid,_⟩ := h
    exact validateContractStrkey_of_contract hid
  | dataKey contract xdr name =>
    obtain ⟨id,scVal,_,hid,hval,hname,_⟩ := resolves_dataKey_iff.mp h
    have hvalid : validateDurabilityName name = .ok () :=
      if_pos (hname.imp And.left And.left)
    simp only [validateWatchSpec,validateContractStrkey_of_contract hid,hvalid,hval]
    rfl
  | contractCode hash =>
    obtain ⟨bytes,hspells,_⟩ := h
    apply (validateHexHash_ok_iff hash).mpr
    exact (Hex.encodes_iff_strip 32 hash.toList).mpr ⟨hspells.length,hspells.digits⟩

theorem validateWatchSpecs_of_forall {crates : Crates} {specs : List WatchSpec} (i : Nat)
    (h : ∀ spec ∈ specs, validateWatchSpec crates spec = .ok ()) :
    validateWatchSpecs crates i specs = .ok () := by
  induction specs generalizing i with
  | nil => rfl
  | cons spec specs ih =>
    obtain ⟨hspec,hspecs⟩ := List.forall_mem_cons.mp h
    unfold validateWatchSpecs
    rw [hspec]
    exact ih (i+1) hspecs

/-- The daemon takes a watch list, and watches these keys, exactly when each rule names its key. -/
theorem watched_iff (crates : Crates) (specs : List WatchSpec) (keys : List LedgerKey) :
    (validateWatchSpecs crates 0 specs = .ok () ∧
      specs.mapM (resolveWatchSpec crates) = .ok keys) ↔
      List.Forall₂ (Resolves crates) specs keys := by
  constructor
  · intro h
    obtain ⟨hvalid,hkeys⟩ := h
    obtain ⟨keys',hkeys',hresolves⟩ := resolveWatchSpecs_of_valid (validateWatchSpecs_ok hvalid)
    rw [hkeys] at hkeys'
    cases hkeys'
    exact hresolves
  · intro h
    have hvalid : ∀ spec ∈ specs, validateWatchSpec crates spec = .ok () := by
      refine Program.forall₂_left h ?_
      intro key _ spec hresolves
      exact validateWatchSpec_of_resolves hresolves
    obtain ⟨keys',hkeys',hresolves⟩ := resolveWatchSpecs_of_valid hvalid
    cases (rightUnique_resolves crates).forall₂ h hresolves
    exact ⟨validateWatchSpecs_of_forall 0 hvalid,hkeys'⟩

/-! The tool. -/

namespace Cli

theorem contractIdBytes_eq_ok_iff {crates : Crates} {contract : String} {id : Bytes32} :
    contractIdBytes crates contract = .ok id ↔
      crates.strkeyFromString contract = .ok (.contract id) := by
  unfold contractIdBytes
  constructor
  · intro h
    split at h
    · cases h
    · next bytes hstrkey =>
      cases h
      exact hstrkey
    · cases h
  · intro h
    rw [h]

theorem parseScval_eq_ok_iff {crates : Crates} {xdr : String} {scVal : ScVal} :
    parseScval crates xdr = .ok scVal ↔ crates.scValFromXdrBase64 xdr = .ok scVal := by
  unfold parseScval
  constructor
  · intro h
    exact Program.mapError_eq_ok h
  · intro h
    rw [h]
    rfl

theorem parseDurability_eq_ok_iff {name : String} {durability : ContractDataDurability} :
    parseDurability name = .ok durability ↔ NamesDurability name durability := by
  unfold parseDurability NamesDurability
  split
  · next hname => simp [hname,eq_comm]
  · next hother =>
    split
    · next hname => simp [hname,eq_comm]
    · next hunknown => simp [hother,hunknown]

/-- The tool reads a hash exactly as its digits spell it. -/
theorem wasmHashBytes_eq_ok_iff {text : String} {hash : Bytes32} :
    wasmHashBytes text = .ok hash ↔ HashOf (Hex.strip text.toList) hash := by
  have hspells : ∀ hash', wasmHashBytes text = .ok hash' →
      HashOf (Hex.strip text.toList) hash' := by
    intro hash' h
    have hvalid := (validateHexHash_ok_iff text).mpr ((wasmHashBytes_ok_iff text).mp ⟨hash',h⟩)
    obtain ⟨read,hread,hof⟩ := SorobanRentKeeper.wasmHashBytes_of_valid hvalid
    rw [wasmHashBytes_eq] at h
    have hfill := Program.mapError_eq_ok (Program.check_eq_ok h).2
    unfold SorobanRentKeeper.wasmHashBytes at hread
    rw [utf8_eq,stripHexPrefix_bytes,hfill] at hread
    cases hread
    exact hof
  constructor
  · exact hspells hash
  · intro h
    have hencodes := (Hex.encodes_iff_strip 32 text.toList).mpr ⟨h.length,h.digits⟩
    obtain ⟨hash',hread⟩ := (wasmHashBytes_ok_iff text).mpr hencodes
    cases (hspells hash' hread).unique h
    exact hread

/-- A data entry of the tool is the one a rule with the same words names. -/
theorem resolves_dataKey_iff_read {crates : Crates} {contract xdr name : String} {key : LedgerKey} :
    Resolves crates (.dataKey contract xdr name) key ↔
      ∃ id scVal durability, contractIdBytes crates contract = .ok id ∧
        parseScval crates xdr = .ok scVal ∧ parseDurability name = .ok durability ∧
        key = LedgerKeys.contractData id scVal durability := by
  simp only [resolves_dataKey_iff,contractIdBytes_eq_ok_iff,parseScval_eq_ok_iff,
    parseDurability_eq_ok_iff]

theorem inspectEntry_eq_ok_iff {crates : Crates} {args : InspectArgs} {key : LedgerKey} :
    inspectEntry crates args = .ok key ↔ Resolves crates (match args.keyXdr with
      | some xdr => .dataKey args.contract xdr args.durability
      | none => .instance args.contract) key := by
  unfold inspectEntry
  cases args.keyXdr with
  | some xdr =>
    rw [resolves_dataKey_iff_read]
    constructor
    · intro h
      obtain ⟨id,hid,h⟩ := Program.bind_eq_ok h
      obtain ⟨scVal,hval,h⟩ := Program.bind_eq_ok h
      obtain ⟨durability,hname,h⟩ := Program.bind_eq_ok h
      exact ⟨id,scVal,durability,hid,hval,hname,(Except.ok.inj h).symm⟩
    · intro h
      obtain ⟨id,scVal,durability,hid,hval,hname,rfl⟩ := h
      simp only [hid,hval,hname]
      rfl
  | none =>
    constructor
    · intro h
      obtain ⟨id,hid,h⟩ := Program.bind_eq_ok h
      exact ⟨id,contractIdBytes_eq_ok_iff.mp hid,(Except.ok.inj h).symm⟩
    · intro h
      obtain ⟨id,hid,rfl⟩ := h
      simp only [contractIdBytes_eq_ok_iff.mpr hid]
      rfl

/-- `inspect` shows the entries its words name in a watch list. -/
theorem inspectKeys_eq_ok_iff (crates : Crates) (args : InspectArgs) (keys : List LedgerKey) :
    inspectKeys crates args = .ok keys ↔ List.Forall₂ (Resolves crates) args.rules keys := by
  unfold inspectKeys InspectArgs.rules
  rw [List.forall₂_cons_left_iff]
  simp only [← inspectEntry_eq_ok_iff]
  cases args.wasmHash with
  | none =>
    simp only [Option.toList_none,List.map_nil,List.forall₂_nil_left_iff]
    constructor
    · intro h
      obtain ⟨entry,hentry,h⟩ := Program.bind_eq_ok h
      exact ⟨entry,[],Program.mapError_eq_ok hentry,rfl,(Except.ok.inj h).symm⟩
    · intro h
      obtain ⟨entry,_,hentry,rfl,rfl⟩ := h
      rw [hentry]
      rfl
  | some text =>
    simp only [Option.toList_some,List.map_cons,List.map_nil]
    constructor
    · intro h
      obtain ⟨entry,hentry,h⟩ := Program.bind_eq_ok h
      obtain ⟨hash,hhash,h⟩ := Program.bind_eq_ok h
      have hcode : Resolves crates (.contractCode text) (.contractCode hash) :=
        ⟨hash,wasmHashBytes_eq_ok_iff.mp hhash,rfl⟩
      exact ⟨entry,_,Program.mapError_eq_ok hentry,.cons hcode .nil,(Except.ok.inj h).symm⟩
    · intro h
      obtain ⟨entry,codes,hentry,hcodes,rfl⟩ := h
      obtain ⟨code,rest,hcode,hrest,rfl⟩ := List.forall₂_cons_left_iff.mp hcodes
      cases List.forall₂_nil_left_iff.mp hrest
      obtain ⟨hash,hspells,rfl⟩ := hcode
      rw [hentry,wasmHashBytes_eq_ok_iff.mpr hspells]
      rfl

/-- A planning command is about the entries its words name in a watch list; without a key it still
wants a contract and a durability. -/
theorem planKeys_eq_ok_iff (crates : Crates) (args : PlanArgs) (keys : List LedgerKey) :
    planKeys crates args = .ok keys ↔ IsContract crates args.contract ∧
      (∃ durability, NamesDurability args.durability durability) ∧
      List.Forall₂ (Resolves crates) args.rules keys := by
  unfold planKeys PlanArgs.rules
  rw [List.forall₂_map_left_iff]
  simp only [resolves_dataKey_iff_read]
  constructor
  · intro h
    obtain ⟨id,hid,h⟩ := Program.bind_eq_ok h
    obtain ⟨durability,hname,h⟩ := Program.bind_eq_ok h
    have hcontract : IsContract crates args.contract := ⟨id,contractIdBytes_eq_ok_iff.mp hid⟩
    refine ⟨hcontract,⟨durability,parseDurability_eq_ok_iff.mp hname⟩,?_⟩
    apply (Program.mapM_eq_ok_iff.mp h).imp
    intro xdr key hkey
    obtain ⟨scVal,hval,hkey⟩ := Program.bind_eq_ok hkey
    exact ⟨id,scVal,durability,hid,hval,hname,(Except.ok.inj hkey).symm⟩
  · intro h
    obtain ⟨⟨id,hid⟩,⟨durability,hname⟩,hkeys⟩ := h
    rw [contractIdBytes_eq_ok_iff.mpr hid,parseDurability_eq_ok_iff.mpr hname]
    apply Program.mapM_eq_ok_iff.mpr
    apply hkeys.imp
    intro xdr key hkey
    obtain ⟨id',scVal,durability',hid',hval,hname',rfl⟩ := hkey
    rw [contractIdBytes_eq_ok_iff.mpr hid] at hid'
    rw [parseDurability_eq_ok_iff.mpr hname] at hname'
    cases hid'
    cases hname'
    rw [hval]
    rfl

/-- The keys the programs of the repository make of the same words. -/
structure KeysAgree (crates : Crates) : Prop where
  daemon : ∀ specs keys, (validateWatchSpecs crates 0 specs = .ok () ∧
    specs.mapM (resolveWatchSpec crates) = .ok keys) ↔ List.Forall₂ (Resolves crates) specs keys
  inspect : ∀ args keys, inspectKeys crates args = .ok keys ↔
    List.Forall₂ (Resolves crates) args.rules keys
  plan : ∀ args keys, planKeys crates args = .ok keys ↔ IsContract crates args.contract ∧
    (∃ durability, NamesDurability args.durability durability) ∧
    List.Forall₂ (Resolves crates) args.rules keys

/-- What an operator inspects and plans for is what the daemon watches under the same words. -/
theorem keys_agree (crates : Crates) : KeysAgree crates :=
  ⟨watched_iff crates,inspectKeys_eq_ok_iff crates,planKeys_eq_ok_iff crates⟩

end Cli

end SorobanRentKeeper

import SorobanRentKeeper.Daemon.Watch
import SorobanRentKeeper.Core.LedgerKeys
import SorobanRentKeeper.Framework.Program
import Mathlib.Data.List.DropRight

namespace SorobanRentKeeper

/-- `Config`, defaults filled in. -/
structure Config where
  rpcUrl : String
  networkPassphrase : String
  secretKey : String
  secretKeyFile : Option String
  watch : List WatchSpec
  pollIntervalSecs : UInt64
  riskWindowDays : Float
  metricsPort : Option UInt16

def defaultPollIntervalSecs : UInt64 := 30

def defaultRiskWindowDays : Float := 7.0

/-- The fields of a TOML document, those with a default as far as they are given. -/
structure ConfigFile where
  rpcUrl : String
  networkPassphrase : String
  secretKey : Option String
  secretKeyFile : Option String
  watch : Option (List WatchSpec)
  pollIntervalSecs : Option UInt64
  riskWindowDays : Option Float
  metricsPort : Option UInt16

def ConfigFile.config (file : ConfigFile) : Config where
  rpcUrl := file.rpcUrl
  networkPassphrase := file.networkPassphrase
  secretKey := file.secretKey.getD ""
  secretKeyFile := file.secretKeyFile
  watch := file.watch.getD []
  pollIntervalSecs := file.pollIntervalSecs.getD defaultPollIntervalSecs
  riskWindowDays := file.riskWindowDays.getD defaultRiskWindowDays
  metricsPort := file.metricsPort

/-- What the daemon starts in: files, environment variables, and its TOML reader. -/
structure Host where
  readToString : String → Except String String
  envVar : String → Option String
  tomlFromStr : String → Except String ConfigFile

/-- Unicode white space. -/
def isWhitespace (c : Char) : Bool :=
  let n := c.toNat
  9 ≤ n && n ≤ 13 || n == 0x20 || n == 0x85 || n == 0xa0 || n == 0x1680 ||
    0x2000 ≤ n && n ≤ 0x200a || n == 0x2028 || n == 0x2029 || n == 0x202f || n == 0x205f ||
    n == 0x3000

/-- `str::trim`. -/
def trim (text : String) : String :=
  String.ofList ((text.toList.dropWhile isWhitespace).rdropWhile isWhitespace)

/-- Secret resolution order: env var > secret_key_file > secret_key inline. -/
def Config.secret (host : Host) (config : Config) : Except String String :=
  match host.envVar "RENT_KEEPER_SECRET_KEY" with
  | some envSecret => .ok (trim envSecret)
  | none =>
    match config.secretKeyFile with
    | some filePath => do
      let fileSecret ← (host.readToString filePath).mapError fun e =>
        "cannot read secret_key_file " ++ filePath ++ ": " ++ e
      return trim fileSecret
    | none => .ok config.secretKey

def validateContractStrkey (crates : Crates) (id : String) : Except String Unit := do
  let strkey ← (crates.strkeyFromString id).mapError fun e => "contract_id: " ++ e
  match strkey with
  | .contract _ => .ok ()
  | _ => .error ("contract_id " ++ id ++ " is not a C... contract strkey")

def validateDurabilityName (name : String) : Except String Unit :=
  if name = "persistent" ∨ name = "temporary" then .ok ()
  else .error ("unknown durability '" ++ name ++ "' (expected 'persistent' or 'temporary')")

/-- `u8::is_ascii_hexdigit`. -/
def isAsciiHexdigit (b : UInt8) : Bool :=
  48 ≤ b && b ≤ 57 || 97 ≤ b && b ≤ 102 || 65 ≤ b && b ≤ 70

def validateHexHash (hash : String) : Except String Unit :=
  let stripped := stripHexPrefix (utf8 hash)
  if stripped.length ≠ 64 ∨ ¬stripped.all isAsciiHexdigit then
    .error ("wasm_hash '" ++ hash ++ "' is not 32 hex-encoded bytes")
  else .ok ()

def validateWatchSpec (crates : Crates) : WatchSpec → Except String Unit
  | .instance contractId => validateContractStrkey crates contractId
  | .dataKey contractId keyXdr durability => do
    validateContractStrkey crates contractId
    validateDurabilityName durability
    let _ ← (crates.scValFromXdrBase64 keyXdr).mapError fun e => "key_xdr: " ++ e
    return ()
  | .contractCode wasmHash => validateHexHash wasmHash

/-- The loop over the rules, from number `i` on. -/
def validateWatchSpecs (crates : Crates) : Nat → List WatchSpec → Except String Unit
  | _,[] => .ok ()
  | i,spec::specs => do
    (validateWatchSpec crates spec).mapError fun e => "watch[" ++ toString i ++ "]: " ++ e
    validateWatchSpecs crates (i+1) specs

/-- The checks of `load_config`, in its order. -/
def Config.validate (crates : Crates) (config : Config) (secret : String) : Except String Unit :=
  if config.rpcUrl = "" then .error "rpc_url must not be empty"
  else if config.networkPassphrase = "" then .error "network_passphrase must not be empty"
  else if secret.toList.head? ≠ some 'S' then .error "secret_key must be an S... secret strkey"
  else if config.pollIntervalSecs = 0 then .error "poll_interval_secs must be positive"
  else if ¬(config.riskWindowDays.isFinite ∧ config.riskWindowDays > 0.0) then
    .error "risk_window_days must be a positive number"
  else if config.watch = [] then .error "at least one [[watch]] rule is required"
  else validateWatchSpecs crates 0 config.watch

def Config.valid (config : Config) (secret : String) : ValidConfig where
  rpcUrl := config.rpcUrl
  networkPassphrase := config.networkPassphrase
  secretKey := secret
  watch := config.watch
  pollIntervalSecs := config.pollIntervalSecs
  riskWindow := RiskWindow.fromDays config.riskWindowDays
  metricsPort := config.metricsPort
  constants := TtlConstants.stellarPublic

def loadConfig (host : Host) (crates : Crates) (path : String) : Except String ValidConfig := do
  let raw ← (host.readToString path).mapError fun e => "cannot read config " ++ path ++ ": " ++ e
  let file ← (host.tomlFromStr raw).mapError fun e => "invalid TOML in " ++ path ++ ": " ++ e
  let config := file.config
  let secret ← config.secret host
  config.validate crates secret
  return config.valid secret

/-- What passed the checks. -/
structure Accepted (crates : Crates) (config : Config) (secret : String) : Prop where
  rpcUrl : config.rpcUrl ≠ ""
  networkPassphrase : config.networkPassphrase ≠ ""
  secret : secret.toList.head? = some 'S'
  pollInterval : config.pollIntervalSecs ≠ 0
  riskWindow : config.riskWindowDays.isFinite ∧ config.riskWindowDays > 0.0
  watched : config.watch ≠ []
  watch : ∀ spec ∈ config.watch, validateWatchSpec crates spec = .ok ()

theorem validateWatchSpecs_ok {crates : Crates} {i : Nat} {specs : List WatchSpec}
    (h : validateWatchSpecs crates i specs = .ok ()) :
    ∀ spec ∈ specs, validateWatchSpec crates spec = .ok () := by
  induction specs generalizing i with
  | nil => exact nofun
  | cons spec specs ih =>
    obtain ⟨_,hspec,hrest⟩ := Program.bind_eq_ok h
    exact List.forall_mem_cons.mpr ⟨Program.mapError_eq_ok hspec,ih hrest⟩

theorem Config.validate_ok {crates : Crates} {config : Config} {secret : String}
    (h : config.validate crates secret = .ok ()) : Accepted crates config secret := by
  obtain ⟨hrpc,h⟩ := Program.check_eq_ok h
  obtain ⟨hpassphrase,h⟩ := Program.check_eq_ok h
  obtain ⟨hsecret,h⟩ := Program.check_eq_ok h
  obtain ⟨hpoll,h⟩ := Program.check_eq_ok h
  obtain ⟨hwindow,h⟩ := Program.check_eq_ok h
  obtain ⟨hwatch,h⟩ := Program.check_eq_ok h
  exact ⟨hrpc,hpassphrase,not_not.mp hsecret,hpoll,not_not.mp hwindow,hwatch,
    validateWatchSpecs_ok h⟩

/-- A configuration that loads is what the file says, with a secret, and passed every check. -/
theorem loadConfig_ok {host : Host} {crates : Crates} {path : String} {valid : ValidConfig}
    (h : loadConfig host crates path = .ok valid) :
    ∃ raw file secret, host.readToString path = .ok raw ∧ host.tomlFromStr raw = .ok file ∧
      file.config.secret host = .ok secret ∧ Accepted crates file.config secret ∧
      valid = file.config.valid secret := by
  obtain ⟨raw,hraw,h⟩ := Program.bind_eq_ok h
  obtain ⟨file,hfile,h⟩ := Program.bind_eq_ok h
  obtain ⟨secret,hsecret,h⟩ := Program.bind_eq_ok h
  obtain ⟨_,hvalidate,h⟩ := Program.bind_eq_ok h
  exact ⟨raw,file,secret,Program.mapError_eq_ok hraw,Program.mapError_eq_ok hfile,hsecret,
    Config.validate_ok hvalidate,(Except.ok.inj h).symm⟩

/-- The hash that 64 digits spell. -/
structure HashOf (cs : List Char) (hash : Bytes32) : Prop where
  length : cs.length = 64
  digits : ∀ c ∈ cs, Hex.IsDigit c
  byte : ∀ j (h : j < 32), hash[j].toNat = 16 * Hex.digit cs[2*j] + Hex.digit cs[2*j+1]

/-- The key a rule names. -/
def Resolves (crates : Crates) : WatchSpec → LedgerKey → Prop
  | .instance contractId,key =>
    ∃ id, crates.strkeyFromString contractId = .ok (.contract id) ∧
      key = .contractData ⟨.contract id,.ledgerKeyContractInstance,.persistent⟩
  | .dataKey contractId keyXdr durability,key =>
    ∃ id scVal, crates.strkeyFromString contractId = .ok (.contract id) ∧
      crates.scValFromXdrBase64 keyXdr = .ok scVal ∧
      (durability = "persistent" ∧ key = .contractData ⟨.contract id,scVal,.persistent⟩ ∨
        durability = "temporary" ∧ key = .contractData ⟨.contract id,scVal,.temporary⟩)
  | .contractCode wasmHash,key =>
    ∃ hash, HashOf (Hex.strip wasmHash.toList) hash ∧ key = .contractCode hash

theorem validateContractStrkey_ok {crates : Crates} {id : String}
    (h : validateContractStrkey crates id = .ok ()) :
    ∃ bytes, crates.strkeyFromString id = .ok (.contract bytes) := by
  obtain ⟨strkey,hstrkey,h⟩ := Program.bind_eq_ok h
  have hparsed := Program.mapError_eq_ok hstrkey
  cases strkey with
  | contract bytes => exact ⟨bytes,hparsed⟩
  | _ => cases h

theorem contractIdBytes_of_contract {crates : Crates} {contractId : String} {bytes : Bytes32}
    (h : crates.strkeyFromString contractId = .ok (.contract bytes)) :
    contractIdBytes crates contractId = .ok bytes := by
  unfold contractIdBytes
  rw [h]

theorem isDigit_of_hexdigit {c : Char} (hlt : c.toNat < 128)
    (h : isAsciiHexdigit (Ascii.byte c) = true) : Hex.IsDigit c := by
  have hall : ∀ n < 128, isAsciiHexdigit (UInt8.ofNat n) = true →
      48 ≤ n ∧ n ≤ 57 ∨ 65 ≤ n ∧ n ≤ 70 ∨ 97 ≤ n ∧ n ≤ 102 := by decide
  exact hall c.toNat hlt h

theorem hexdigit_of_isDigit {c : Char} (h : Hex.IsDigit c) :
    isAsciiHexdigit (Ascii.byte c) = true := by
  have hall : ∀ n < 103, 48 ≤ n ∧ n ≤ 57 ∨ 65 ≤ n ∧ n ≤ 70 ∨ 97 ≤ n ∧ n ≤ 102 →
      isAsciiHexdigit (UInt8.ofNat n) = true := by decide
  have hlt : c.toNat < 103 := by
    unfold Hex.IsDigit at h
    omega
  exact hall c.toNat hlt h

theorem toNat_lt_of_hexdigit {b : UInt8} (h : isAsciiHexdigit b = true) : b.toNat < 128 := by
  simp only [isAsciiHexdigit,Bool.or_eq_true,Bool.and_eq_true,decide_eq_true_eq,
    UInt8.le_iff_toNat_le] at h
  simp at h
  omega

/-- What passes as a hash is 64 digits, and these are its bytes. -/
theorem validateHexHash_ok {hash : String} (h : validateHexHash hash = .ok ()) :
    (Hex.strip hash.toList).length = 64 ∧ (∀ c ∈ Hex.strip hash.toList, Hex.IsDigit c) ∧
      stripHexPrefix (utf8 hash) = (Hex.strip hash.toList).map Ascii.byte := by
  obtain ⟨hchecked,_⟩ := Program.check_eq_ok h
  rw [utf8_eq,stripHexPrefix_bytes] at hchecked ⊢
  obtain ⟨hlength,hdigits⟩ := not_or.mp hchecked
  have hhex := List.all_eq_true.mp (not_not.mp hdigits)
  obtain ⟨hbytes,hlt⟩ := Ascii.bytes_of_lt fun b hb => toNat_lt_of_hexdigit (hhex b hb)
  rw [hbytes] at hlength hhex
  refine ⟨?_,?_,hbytes⟩
  · rw [List.length_map] at hlength
    exact not_not.mp hlength
  · intro c hc
    exact isDigit_of_hexdigit (hlt c hc) (hhex _ (List.mem_map_of_mem hc))

/-- Digits that passed are read into the hash they spell. -/
theorem wasmHashBytes_of_valid {wasmHash : String} (h : validateHexHash wasmHash = .ok ()) :
    ∃ hash, wasmHashBytes wasmHash = .ok hash ∧ HashOf (Hex.strip wasmHash.toList) hash := by
  obtain ⟨hlength,hdigits,hbytes⟩ := validateHexHash_ok h
  obtain ⟨hash,hfill,hdecode⟩ := fillHash_of_length hdigits hlength
  refine ⟨hash,?_,hlength,hdigits,?_⟩
  · unfold wasmHashBytes
    rw [hbytes]
    exact hfill
  · intro j hj
    rw [← Hex.toNat_decode hdigits (by omega) (by rw [Hex.length_decode]; omega)]
    simp only [← hdecode,Vector.getElem_toList]

/-- A rule that passed its check resolves, to the key it names. -/
theorem resolves_of_valid {crates : Crates} {spec : WatchSpec}
    (h : validateWatchSpec crates spec = .ok ()) :
    ∃ key, resolveWatchSpec crates spec = .ok key ∧ Resolves crates spec key := by
  cases spec with
  | «instance» contractId =>
    obtain ⟨bytes,hstrkey⟩ := validateContractStrkey_ok h
    simp only [resolveWatchSpec,contractIdBytes_of_contract hstrkey]
    exact ⟨_,rfl,bytes,hstrkey,rfl⟩
  | dataKey contractId keyXdr durability =>
    obtain ⟨_,hcontract,h⟩ := Program.bind_eq_ok h
    obtain ⟨_,hname,h⟩ := Program.bind_eq_ok h
    obtain ⟨scVal,hscVal,_⟩ := Program.bind_eq_ok h
    obtain ⟨bytes,hstrkey⟩ := validateContractStrkey_ok hcontract
    have hkey := Program.mapError_eq_ok hscVal
    simp only [resolveWatchSpec,contractIdBytes_of_contract hstrkey,hkey]
    unfold validateDurabilityName at hname
    split at hname
    · next hdurability =>
      rcases hdurability with rfl | rfl
      · exact ⟨_,rfl,bytes,scVal,hstrkey,hkey,.inl ⟨rfl,rfl⟩⟩
      · exact ⟨_,rfl,bytes,scVal,hstrkey,hkey,.inr ⟨rfl,rfl⟩⟩
    · cases hname
  | contractCode wasmHash =>
    obtain ⟨hash,hbytes,hspells⟩ := wasmHashBytes_of_valid h
    simp only [resolveWatchSpec,hbytes]
    exact ⟨_,rfl,hash,hspells,rfl⟩

theorem resolveWatchSpecs_of_valid {crates : Crates} {specs : List WatchSpec}
    (h : ∀ spec ∈ specs, validateWatchSpec crates spec = .ok ()) :
    ∃ keys, specs.mapM (resolveWatchSpec crates) = .ok keys ∧
      List.Forall₂ (Resolves crates) specs keys := by
  induction specs with
  | nil => exact ⟨[],rfl,.nil⟩
  | cons spec specs ih =>
    obtain ⟨hspec,hspecs⟩ := List.forall_mem_cons.mp h
    obtain ⟨key,hkey,hresolves⟩ := resolves_of_valid hspec
    obtain ⟨keys,hkeys,hall⟩ := ih hspecs
    refine ⟨key::keys,?_,.cons hresolves hall⟩
    exact Program.mapM_eq_ok_iff.mpr (.cons hkey (Program.mapM_eq_ok_iff.mp hkeys))

/-- The rules of a configuration that loads resolve, one key a rule and each the one it names. -/
theorem loadConfig_resolves (host : Host) (crates : Crates) (path : String) (config : ValidConfig)
    (h : loadConfig host crates path = .ok config) :
    ∃ keys, resolveWatchKeys crates config = .ok keys ∧
      List.Forall₂ (Resolves crates) config.watch keys := by
  obtain ⟨_,file,secret,_,_,_,haccepted,rfl⟩ := loadConfig_ok h
  exact resolveWatchSpecs_of_valid haccepted.watch

/-- A file with a rule of each kind. -/
def sampleToml : String :=
  "rpc_url = \"https://soroban-testnet.stellar.org:443\"\n" ++
  "network_passphrase = \"Test SDF Network ; September 2015\"\n" ++
  "secret_key = \"SBFIJNQVTU3QZGZSVAHBQFAKHRGFNIHQMIVJJSGV7HRPC7CLBR7QZL7VYP\"\n" ++
  "[[watch]]\ntype = \"instance\"\n" ++
  "contract_id = \"CAAAAAAAAAAAAAAAAAAAAAAAAAAAAAAAAAAAAAAAAAAAAAAAAAAABSC4\"\n" ++
  "[[watch]]\ntype = \"data_key\"\n" ++
  "contract_id = \"CAAAAAAAAAAAAAAAAAAAAAAAAAAAAAAAAAAAAAAAAAAAAAAAAAAABSC4\"\n" ++
  "key_xdr = \"AAAAAwAAAAc=\"\ndurability = \"temporary\"\n" ++
  "[[watch]]\ntype = \"contract_code\"\n" ++
  "wasm_hash = \"0x00112233445566778899AABBCCDDEEFF00112233445566778899aabbccddeeff\"\n"

def sampleWatch : List WatchSpec :=
  [.instance "CAAAAAAAAAAAAAAAAAAAAAAAAAAAAAAAAAAAAAAAAAAAAAAAAAAABSC4",
    .dataKey "CAAAAAAAAAAAAAAAAAAAAAAAAAAAAAAAAAAAAAAAAAAAAAAAAAAABSC4" "AAAAAwAAAAc=" "temporary",
    .contractCode "0x00112233445566778899AABBCCDDEEFF00112233445566778899aabbccddeeff"]

def sampleHost : Host where
  readToString path :=
    if path = "keeper.toml" then .ok sampleToml else .error "No such file or directory (os error 2)"
  envVar _ := none
  tomlFromStr text :=
    if text = sampleToml then
      .ok {
        rpcUrl := "https://soroban-testnet.stellar.org:443"
        networkPassphrase := "Test SDF Network ; September 2015"
        secretKey := some "SBFIJNQVTU3QZGZSVAHBQFAKHRGFNIHQMIVJJSGV7HRPC7CLBR7QZL7VYP"
        secretKeyFile := none
        watch := some sampleWatch
        pollIntervalSecs := none
        riskWindowDays := none
        metricsPort := none }
    else .error "TOML parse error"

def sampleConfig : ValidConfig where
  rpcUrl := "https://soroban-testnet.stellar.org:443"
  networkPassphrase := "Test SDF Network ; September 2015"
  secretKey := "SBFIJNQVTU3QZGZSVAHBQFAKHRGFNIHQMIVJJSGV7HRPC7CLBR7QZL7VYP"
  watch := sampleWatch
  pollIntervalSecs := 30
  riskWindow := ⟨120960⟩
  metricsPort := none
  constants := TtlConstants.stellarPublic

theorem loadConfig_resolves_sample : ∃ keys, resolveWatchKeys sampleCrates sampleConfig = .ok keys ∧
    List.Forall₂ (Resolves sampleCrates) sampleConfig.watch keys :=
  loadConfig_resolves sampleHost sampleCrates "keeper.toml" sampleConfig
    (Program.eq_ok_of_toOption (by decide +kernel))

end SorobanRentKeeper

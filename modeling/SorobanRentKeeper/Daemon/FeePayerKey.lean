import SorobanRentKeeper.Core.Strkey
import SorobanRentKeeper.Daemon.LoadConfig
import SorobanRentKeeper.Framework.Text

namespace SorobanRentKeeper

/-- How far `main` gets before it touches the network. -/
inductive Started where
  | checked (text : String)
  | running (valid : ValidConfig) (payer : FeePayer)

/-- What `--check` prints. -/
def ValidConfig.checkText (valid : ValidConfig) : String :=
  "configuration OK: " ++ toString valid.watch.length ++ " watch rule(s), risk window " ++
    toString valid.riskWindow.alertHorizonLedgers.toNat ++ " ledgers, poll every " ++
    toString valid.pollIntervalSecs.toNat ++ "s"

/-- `main` up to its fee payer; a failure is what it prints before it exits with status 2. -/
def startUp (host : Host) (crates : Crates) (path : String) (check : Bool) :
    Except String Started := do
  let valid ← (loadConfig host crates path).mapError fun err => "configuration error: " ++ err
  if check then
    return .checked valid.checkText
  let payer ← (FeePayer.fromSecretKeyStr crates valid.secretKey).mapError fun err =>
    "fee payer error: " ++ err.toString
  return .running valid payer

theorem startUp_check {host : Host} {crates : Crates} {path : String} {valid : ValidConfig}
    (h : loadConfig host crates path = .ok valid) :
    startUp host crates path true = .ok (.checked valid.checkText) := by
  unfold startUp
  rw [h]
  rfl

theorem startUp_run {host : Host} {crates : Crates} {path : String} {valid : ValidConfig}
    (h : loadConfig host crates path = .ok valid) :
    startUp host crates path false = do
      let payer ← (FeePayer.fromSecretKeyStr crates valid.secretKey).mapError fun err =>
        "fee payer error: " ++ err.toString
      return .running valid payer := by
  unfold startUp
  rw [h]
  rfl

/-- What a passed `--check` is to mean: the secret makes a payer, and without the flag `main` gets
past it. -/
structure Pays (host : Host) (crates : Crates) (path : String) (valid : ValidConfig) : Prop where
  checked : startUp host crates path true = .ok (.checked valid.checkText)
  payer : ∃ payer, FeePayer.fromSecretKeyStr crates valid.secretKey = .ok payer ∧
    startUp host crates path false = .ok (.running valid payer)

theorem pays_iff {host : Host} {crates : Crates} {path : String} {valid : ValidConfig}
    (h : loadConfig host crates path = .ok valid) :
    Pays host crates path valid ↔
      ∃ payer, FeePayer.fromSecretKeyStr crates valid.secretKey = .ok payer := by
  constructor
  · rintro ⟨_,payer,hpayer,_⟩
    exact ⟨payer,hpayer⟩
  · rintro ⟨payer,hpayer⟩
    refine ⟨startUp_check h,payer,hpayer,?_⟩
    rw [startUp_run h,hpayer]
    rfl

/-- The strkey of a seed. -/
def IsSeed (text : String) : Prop := ∃ seed, text = strkey seedVersion seed

/-- The strkey of a seed, white space around it. -/
def HoldsSeed (text : String) : Prop :=
  ∃ seed, Text.Surrounded isWhitespace (strkey seedVersion seed).toList text.toList

/-- The source that supplies the secret supplies a seed: the environment variable where it is set,
else the secret file where one is named, else the inline key, which is not trimmed. -/
def Config.SuppliesSeed (host : Host) (config : Config) : Prop :=
  match host.envVar "RENT_KEEPER_SECRET_KEY",config.secretKeyFile with
  | some value,_ => HoldsSeed value
  | none,some filePath => ∃ contents, host.readToString filePath = .ok contents ∧ HoldsSeed contents
  | none,none => IsSeed config.secretKey

/-- The file at `path` is a configuration whose secret is a seed. -/
def SeedGiven (host : Host) (path : String) : Prop :=
  ∃ raw file, host.readToString path = .ok raw ∧ host.tomlFromStr raw = .ok file ∧
    file.config.SuppliesSeed host

theorem isWhitespace_of_mem_strkey {version : UInt8} {payload : Bytes32} :
    ∀ c ∈ (strkey version payload).toList, isWhitespace c = false := by
  intro c hc
  obtain ⟨hlow,hhigh⟩ := mem_strkey hc
  simp only [isWhitespace,Bool.or_eq_false_iff,Bool.and_eq_false_iff,decide_eq_false_iff_not,
    beq_eq_false_iff_ne]
  omega

/-- Trimming leaves a seed exactly where there is one with white space around it. -/
theorem isSeed_trim_iff (text : String) : IsSeed (trim text) ↔ HoldsSeed text := by
  refine exists_congr fun seed => ?_
  have hne : (strkey seedVersion seed).toList ≠ [] :=
    List.ne_nil_of_length_pos (by rw [length_strkey]; decide)
  rw [← Text.strip_eq_iff isWhitespace_of_mem_strkey hne]
  constructor
  · intro h
    rw [← h]
    exact (String.toList_ofList).symm
  · intro h
    rw [← String.toList_inj]
    exact String.toList_ofList.trans h

/-- Whichever source it comes from. -/
theorem isSeed_secret_iff {host : Host} {config : Config} {secret : String}
    (h : config.secret host = .ok secret) : IsSeed secret ↔ config.SuppliesSeed host := by
  unfold Config.secret at h
  unfold Config.SuppliesSeed
  cases henv : host.envVar "RENT_KEEPER_SECRET_KEY" with
  | some value =>
    rw [henv] at h
    cases h
    exact isSeed_trim_iff value
  | none =>
    rw [henv] at h
    cases hfile : config.secretKeyFile with
    | some filePath =>
      rw [hfile] at h
      obtain ⟨contents,hread,h⟩ := Program.bind_eq_ok h
      have hcontents := Program.mapError_eq_ok hread
      cases h
      dsimp only
      rw [isSeed_trim_iff]
      constructor
      · intro hseed
        exact ⟨contents,hcontents,hseed⟩
      · intro hgiven
        obtain ⟨contents',hread',hseed⟩ := hgiven
        rw [hcontents] at hread'
        cases hread'
        exact hseed
    | none =>
      rw [hfile] at h
      cases h
      exact Iff.rfl

/-- A payer is made of a seed. -/
theorem fromSecretKeyStr_iff_isSeed {crates : Crates} (hreads : crates.ReadsSeeds)
    (secret : String) :
    (∃ payer, FeePayer.fromSecretKeyStr crates secret = .ok payer) ↔ IsSeed secret := by
  constructor
  · rintro ⟨payer,h⟩
    exact ⟨payer.signingKey,(FeePayer.fromSecretKeyStr_ok_iff hreads).mp h⟩
  · rintro ⟨seed,h⟩
    exact ⟨⟨seed⟩,(FeePayer.fromSecretKeyStr_ok_iff hreads).mpr h⟩

/-- A configuration that loads has a fee payer exactly when its secret is the strkey of a seed; the
check of the first letter does not see to that. -/
theorem loadConfig_pays_iff (host : Host) (crates : Crates) (path : String) (valid : ValidConfig)
    (hreads : crates.ReadsSeeds) (h : loadConfig host crates path = .ok valid) :
    Pays host crates path valid ↔ SeedGiven host path := by
  obtain ⟨raw,file,secret,hraw,hfile,hsecret,_,rfl⟩ := loadConfig_ok h
  have hseed : (∃ payer, FeePayer.fromSecretKeyStr crates secret = .ok payer) ↔
      file.config.SuppliesSeed host :=
    (fromSecretKeyStr_iff_isSeed hreads secret).trans (isSeed_secret_iff hsecret)
  refine (pays_iff h).trans (hseed.trans ?_)
  constructor
  · intro hgiven
    exact ⟨raw,file,hraw,hfile,hgiven⟩
  · intro hgiven
    obtain ⟨raw',file',hraw',hfile',hgiven⟩ := hgiven
    rw [hraw] at hraw'
    cases hraw'
    rw [hfile] at hfile'
    cases hfile'
    exact hgiven

/-- The sample file, and a seed in the environment with a line break after it. -/
def seedHost : Host where
  readToString := sampleHost.readToString
  envVar name :=
    if name = "RENT_KEEPER_SECRET_KEY" then
      some "SAAAAAAAAAAAAAAAAAAAAAAAAAAAAAAAAAAAAAAAAAAAAAAAAAAABSU2\n"
    else none
  tomlFromStr := sampleHost.tomlFromStr

def seedConfig : ValidConfig :=
  { sampleConfig with secretKey := "SAAAAAAAAAAAAAAAAAAAAAAAAAAAAAAAAAAAAAAAAAAAAAAAAAAABSU2" }

theorem loadConfig_pays_seed :
    Pays seedHost seedCrates "keeper.toml" seedConfig ↔ SeedGiven seedHost "keeper.toml" :=
  loadConfig_pays_iff seedHost seedCrates "keeper.toml" seedConfig seedCrates_readsSeeds
    (Program.eq_ok_of_toOption (by decide +kernel))

/-- The secret of the sample file passes the checks, and is two characters too long for a seed. -/
theorem loadConfig_not_pays : ¬∀ (host : Host) (crates : Crates) (path : String)
    (valid : ValidConfig), crates.ReadsSeeds → loadConfig host crates path = .ok valid →
    Pays host crates path valid := by
  intro h
  obtain ⟨_,payer,hpayer,_⟩ := h sampleHost seedCrates "keeper.toml" sampleConfig
    seedCrates_readsSeeds (Program.eq_ok_of_toOption (by decide +kernel))
  have hseed := (FeePayer.fromSecretKeyStr_ok_iff seedCrates_readsSeeds).mp hpayer
  have hlength := length_strkey seedVersion payer.signingKey
  rw [← hseed] at hlength
  exact absurd hlength (by decide)

end SorobanRentKeeper

import SorobanRentKeeper.Core.LedgerKeys
import SorobanRentKeeper.Core.Plan
import SorobanRentKeeper.Framework.Chunks
import SorobanRentKeeper.Framework.Program

namespace SorobanRentKeeper

/-- One row of a `getLedgerEntries` reply. -/
structure LedgerEntryRow where
  xdr : String
  liveUntilLedgerSeq : Option UInt32
  deriving DecidableEq

structure GetLedgerEntriesResponse where
  entries : Option (List LedgerEntryRow)
  latestLedger : Int64
  deriving DecidableEq

structure SimulateResponse where
  error : Option String
  minResourceFee : UInt64
  transactionData : String
  deriving DecidableEq

inductive EntryState where
  | live (ttl : EntryTtl)
  | expiredButPresent (info : ArchivedEntryInfo)
  | archived (info : ArchivedEntryInfo)
  deriving DecidableEq

structure Observation where
  currentLedger : UInt32
  entry : EntryState
  deriving DecidableEq

structure SimulationResult where
  minResourceFee : UInt64
  transactionDataXdr : Option String
  error : Option String
  deriving DecidableEq

def SimulationResult.failed (simulation : SimulationResult) : Bool := simulation.error.isSome

/-- A transaction that reached `send_transaction`: as `build_unsigned` made it, as it was
signed, and what the node answered. -/
structure Submission where
  built : TransactionEnvelope
  signed : TransactionEnvelope
  reply : Except String Bytes32

/-- What the daemon did, in order: every RPC call with its reply, the outcome of every
observation, and every entry into `submit_plan`. Nothing reads it. -/
inductive Event where
  | network (reply : Except String String)
  | ledgerEntries (keys : List LedgerKey) (reply : Except String GetLedgerEntriesResponse)
  | observed (keys : List LedgerKey) (observations : List Observation)
  | account (reply : Except String Int64)
  | submitPlan (plan : ArchivalPlan)
  | simulate (envelope : TransactionEnvelope) (reply : Except String SimulateResponse)
  | send (submission : Submission)

/-- An RPC node: any machine that answers the client's calls; a failed call carries the text
its error displays. Nothing is assumed of its answers. -/
structure Node (σ : Type) where
  getNetwork : σ → Except String String × σ
  getLedgerEntries : List LedgerKey → σ → Except String GetLedgerEntriesResponse × σ
  getAccount : String → σ → Except String Int64 × σ
  simulateTransaction : TransactionEnvelope → σ → Except String SimulateResponse × σ
  sendTransaction : TransactionEnvelope → σ → Except String Bytes32 × σ

/-- Replies to play back, method by method. -/
structure Script where
  network : Except String String
  ledgerEntries : List (Except String GetLedgerEntriesResponse)
  accounts : List (Except String Int64)
  simulations : List (Except String SimulateResponse)
  sends : List (Except String Bytes32)

/-- The node that plays back a script whatever it is asked, and fails when a part of it is
used up. -/
def playback : Node Script where
  getNetwork s := (s.network,s)
  getLedgerEntries _ s :=
    (s.ledgerEntries.headD (.error "no reply"),{ s with ledgerEntries := s.ledgerEntries.tail })
  getAccount _ s := (s.accounts.headD (.error "no reply"),{ s with accounts := s.accounts.tail })
  simulateTransaction _ s :=
    (s.simulations.headD (.error "no reply"),{ s with simulations := s.simulations.tail })
  sendTransaction _ s := (s.sends.headD (.error "no reply"),{ s with sends := s.sends.tail })

/-- The node's state, the tracker's cached sequence number, and the log. -/
structure World (σ : Type) where
  node : σ
  sequence : Option Int64
  log : List Event

/-- A provider call: the node answers, the log keeps the exchange, a failure is wrapped. -/
def call {σ α : Type} (request : σ → Except String α × σ) (event : Except String α → Event)
    (what : String) : EStateM RentkeeperError (World σ) α := fun w =>
  let (reply,node) := request w.node
  let w := { w with node := node, log := w.log ++ [event reply] }
  match reply with
  | .ok a => .ok a w
  | .error e => .error (.rpc (what ++ ": " ++ e)) w

namespace Provider

variable {σ : Type}

def networkPassphrase (node : Node σ) : EStateM RentkeeperError (World σ) String :=
  call node.getNetwork .network "getNetwork"

def getAccount (node : Node σ) (accountId : String) : EStateM RentkeeperError (World σ) Int64 :=
  call (node.getAccount accountId) .account "get_account"

/-- `built` is only kept for the log. -/
def sendTransaction (node : Node σ) (built envelope : TransactionEnvelope) :
    EStateM RentkeeperError (World σ) Bytes32 :=
  call (node.sendTransaction envelope) (fun reply => .send ⟨built,envelope,reply⟩)
    "send_transaction"

/-- What `simulate` makes of a reply that arrived. -/
def simulationResult (response : SimulateResponse) : SimulationResult :=
  match response.error with
  | some error => ⟨0,none,some error⟩
  | none => ⟨response.minResourceFee,some response.transactionData,none⟩

def simulate (node : Node σ) (envelope : TransactionEnvelope) :
    EStateM RentkeeperError (World σ) SimulationResult := do
  let response ← call (node.simulateTransaction envelope) (.simulate envelope) "simulateTransaction"
  return simulationResult response

/-- A `HashMap` from entry-key hashes to the last `live_until` a reply gave. -/
abbrev LiveIndex := Bytes32 → Option UInt32

def LiveIndex.insert (index : LiveIndex) (hash : Bytes32) (live : UInt32) : LiveIndex :=
  fun h => if h = hash then some live else index h

def indexRows (crates : Crates) : List LedgerEntryRow → LiveIndex → Except RentkeeperError LiveIndex
  | [],index => .ok index
  | row::rows,index => do
    let key ← (crates.entryKeyFromXdrBase64 row.xdr).mapError fun e => .xdr ("entry decode: " ++ e)
    let keyXdr ← (crates.keyToXdr key).mapError .xdr
    let keyHash := crates.sha256 keyXdr
    match row.liveUntilLedgerSeq with
    | some live => indexRows crates rows (index.insert keyHash live)
    | none => indexRows crates rows index

/-- The row reported for a key the index answers with `live`. -/
def observation (latest : UInt32) (live : Option UInt32) : Observation :=
  match live with
  | some liveUntil =>
    if latest < liveUntil then ⟨latest,.live ⟨latest,some liveUntil⟩⟩
    else ⟨latest,.expiredButPresent ⟨latest,false⟩⟩
  | none => ⟨latest,.archived ⟨latest,true⟩⟩

def observeKeys (crates : Crates) (latest : UInt32) (index : LiveIndex) :
    List LedgerKey → Except RentkeeperError (List Observation)
  | [] => .ok []
  | key::keys => do
    let keyXdr ← (crates.keyToXdr key).mapError .xdr
    let out ← observeKeys crates latest index keys
    return observation latest (index (crates.sha256 keyXdr))::out

/-- `u32::try_from` on an `i64`, with zero for what does not fit. -/
def latestLedger (x : Int64) : UInt32 :=
  if 0 ≤ x.toInt ∧ x.toInt < 4294967296 then UInt32.ofNat x.toInt.toNat else 0

/-- `observe_chunk` after the reply arrived. -/
def readChunk (crates : Crates) (keys : List LedgerKey) (response : GetLedgerEntriesResponse) :
    Except RentkeeperError (List Observation) := do
  let latest := latestLedger response.latestLedger
  let index ← indexRows crates (response.entries.getD []) fun _ => none
  observeKeys crates latest index keys

def observeChunk (crates : Crates) (node : Node σ) (keys : List LedgerKey) :
    EStateM RentkeeperError (World σ) (List Observation) := do
  let response ← call (node.getLedgerEntries keys) (.ledgerEntries keys) "getLedgerEntries"
  Program.ofExcept (readChunk crates keys response)

def observeBatchEntries : Nat := 50

/-- Declared, and described as the drift that is tolerated, but read by nothing. -/
def maxChunkLedgerDrift : Nat := 0

def observeEntries (crates : Crates) (node : Node σ) (keys : List LedgerKey) :
    EStateM RentkeeperError (World σ) (List Observation) :=
  (keys.toChunks observeBatchEntries).foldlM
    (fun out chunk => do
      let chunkObservations ← observeChunk crates node chunk
      return out ++ chunkObservations) []

end Provider

/-- `StateArchivalSettings`, as far as TTLs go. -/
structure StateArchivalSettings where
  maxEntryTtl : UInt32
  minTemporaryTtl : UInt32
  minPersistentTtl : UInt32
  deriving DecidableEq

def stateArchivalToConstants (settings : StateArchivalSettings) : TtlConstants :=
  ⟨5,settings.maxEntryTtl,settings.minPersistentTtl,settings.minTemporaryTtl⟩

/-- The ledger key of `ConfigSettingId::StateArchival`. -/
def stateArchivalKey : LedgerKey := .configSetting 10

/-- `LedgerEntryData::from_xdr_base64`, and the settings if the entry holds them. -/
abbrev SettingsDecoder := String → Except String (Option StateArchivalSettings)

/-- The network's TTL limits, as the first row of the node's reply has them. -/
def Provider.ttlConstants {σ : Type} (decode : SettingsDecoder) (node : Node σ) :
    EStateM RentkeeperError (World σ) TtlConstants := do
  let response ← call (node.getLedgerEntries [stateArchivalKey]) (.ledgerEntries [stateArchivalKey])
    "config settings"
  match (response.entries.getD []).head? with
  | none => throw (.config "StateArchival config entry missing from node")
  | some row =>
    match decode row.xdr with
    | .error e => throw (.xdr ("config entry: " ++ e))
    | .ok none => throw (.config "StateArchival key returned a different entry type")
    | .ok (some settings) => return stateArchivalToConstants settings

/-- A node, with the passphrase and the TTL limit of the network it serves: it reports the one,
and holds the settings entry with the other. -/
structure Network (σ : Type) where
  node : Node σ
  decode : SettingsDecoder
  passphrase : String
  maxEntryTtl : UInt32
  reports : ∀ s, (node.getNetwork s).1 = .ok passphrase
  limits : ∀ w, ∃ constants t, Provider.ttlConstants decode node w = .ok constants t ∧
    constants.maxEntryTtl = maxEntryTtl

/-- A node of the public network that serves its settings and the sample data entry, and accepts
what extends it. -/
def publicNode : Node Unit where
  getNetwork s := (.ok "Public Global Stellar Network ; September 2015",s)
  getLedgerEntries keys s :=
    if keys = [stateArchivalKey] then (.ok ⟨some [⟨"settings",none⟩],100⟩,s)
    else (.ok ⟨some [⟨"AAAABgAAAAAAAAABAAAAAAAAAAAAAAAAAAAAAAAAAAAAAAAAAAAAAAAAAAAAAAADAAAABwAAAAAAAAAB",
      some 150⟩],100⟩,s)
  getAccount _ s := (.ok 7,s)
  simulateTransaction _ s :=
    (.ok ⟨none,1000,"AAAAAAAAAAAAAAABAAAABgAAAAEAAAAAAAAAAAAAAAAAAAAAAAAAAAAAAAAAAAAAAAAAAAAAAAMAAAAHAAAAAAAAAAAAAAAAAAAAAAAAAAAAAAAA"⟩,s)
  sendTransaction _ s := (.ok (Vector.replicate 32 0),s)

/-- The public network, were its limit `maxEntryTtl`. -/
def publicNetwork (maxEntryTtl : UInt32) : Network Unit where
  node := publicNode
  decode _ := .ok (some ⟨maxEntryTtl,17280,2073600⟩)
  passphrase := "Public Global Stellar Network ; September 2015"
  maxEntryTtl := maxEntryTtl
  reports _ := rfl
  limits _ := ⟨_,_,rfl,rfl⟩

def emptyWorld : World Unit := ⟨(),none,[]⟩

end SorobanRentKeeper

namespace SorobanRentKeeper

/-- A `[u8; 32]`: hashes, contract ids, public keys and seeds. -/
abbrev Bytes32 := Vector UInt8 32

/-- `stellar_xdr::VecM`: a vector that carries its length bound. -/
structure VecM (α : Type) (max : Nat) where
  val : List α
  bound : val.length ≤ max
  deriving DecidableEq

namespace VecM

def empty (α : Type) (max : Nat) : VecM α max := ⟨[],Nat.zero_le max⟩

/-- `VecM::try_from`; the text of the failure is the library's. -/
def tryFrom {α : Type} (max : Nat) (tooLong : String) (xs : List α) : Except String (VecM α max) :=
  if h : xs.length ≤ max then .ok ⟨xs,h⟩ else .error tooLong

theorem tryFrom_ok {α : Type} {max : Nat} {tooLong : String} {xs : List α}
    (h : xs.length ≤ max) : tryFrom max tooLong xs = .ok ⟨xs,h⟩ := dif_pos h

end VecM

/-- The length bound of a `VecM` declared without one. -/
def u32Max : Nat := 4294967295

inductive ContractDataDurability where
  | temporary
  | persistent
  deriving DecidableEq

/-- Only the reserved instance key is built here; any other value stands for its XDR bytes. -/
inductive ScVal where
  | ledgerKeyContractInstance
  | other (xdr : List UInt8)
  deriving DecidableEq

inductive ScAddress where
  | contract (id : Bytes32)
  | other (xdr : List UInt8)
  deriving DecidableEq

structure LedgerKeyContractData where
  contract : ScAddress
  key : ScVal
  durability : ContractDataDurability
  deriving DecidableEq

/-- The ledger keys the workspace tells apart; the classic ones (accounts, trustlines, offers
and so on) stand for their XDR bytes. -/
inductive LedgerKey where
  | contractData (data : LedgerKeyContractData)
  | contractCode (hash : Bytes32)
  | configSetting (id : UInt32)
  | ttl (keyHash : Bytes32)
  | other (xdr : List UInt8)
  deriving DecidableEq

/-- The entry that holds another entry's TTL. -/
structure TtlEntry where
  keyHash : Bytes32
  liveUntilLedgerSeq : UInt32
  deriving DecidableEq

structure LedgerFootprint where
  readOnly : VecM LedgerKey u32Max
  readWrite : VecM LedgerKey u32Max
  deriving DecidableEq

/-- Every key a footprint names, on either side. -/
def LedgerFootprint.keys (f : LedgerFootprint) : List LedgerKey := f.readOnly.val ++ f.readWrite.val

structure SorobanResources where
  footprint : LedgerFootprint
  instructions : UInt32
  diskReadBytes : UInt32
  writeBytes : UInt32
  deriving DecidableEq

inductive SorobanTransactionDataExt where
  | v0
  | v1 (archivedSorobanEntries : List UInt32)
  deriving DecidableEq

structure SorobanTransactionData where
  ext : SorobanTransactionDataExt
  resources : SorobanResources
  resourceFee : Int64
  deriving DecidableEq

inductive TransactionExt where
  | v0
  | v1 (data : SorobanTransactionData)
  deriving DecidableEq

inductive MuxedAccount where
  | ed25519 (key : Bytes32)
  | muxed (id : UInt64) (key : Bytes32)
  deriving DecidableEq

/-- `PublicKey`: the only variant is `PublicKeyTypeEd25519`. -/
structure PublicKey where
  ed25519 : Bytes32
  deriving DecidableEq

/-- `ExtensionPoint` has no variant but `V0`. -/
inductive ExtensionPoint where
  | v0
  deriving DecidableEq

structure ExtendFootprintTtlOp where
  ext : ExtensionPoint
  extendTo : UInt32
  deriving DecidableEq

structure RestoreFootprintOp where
  ext : ExtensionPoint
  deriving DecidableEq

inductive OperationBody where
  | extendFootprintTtl (op : ExtendFootprintTtlOp)
  | restoreFootprint (op : RestoreFootprintOp)
  | other (xdr : List UInt8)
  deriving DecidableEq

structure Operation where
  sourceAccount : Option MuxedAccount
  body : OperationBody
  deriving DecidableEq

inductive Preconditions where
  | none
  | other (xdr : List UInt8)
  deriving DecidableEq

inductive Memo where
  | none
  | other (xdr : List UInt8)
  deriving DecidableEq

structure Transaction where
  sourceAccount : MuxedAccount
  fee : UInt32
  seqNum : Int64
  cond : Preconditions
  memo : Memo
  operations : VecM Operation 100
  ext : TransactionExt
  deriving DecidableEq

/-- `stellar_xdr::Signature`: a byte string of any length up to its bound. -/
abbrev Signature := VecM UInt8 64

/-- All the bytes of an Ed25519 signature, which fit. -/
def Signature.ofBytes (bytes : Vector UInt8 64) : Signature := ⟨bytes.toList,by simp⟩

structure DecoratedSignature where
  hint : Vector UInt8 4
  signature : Signature
  deriving DecidableEq

structure TransactionV1Envelope where
  tx : Transaction
  signatures : VecM DecoratedSignature 20
  deriving DecidableEq

/-- The two envelope kinds the builder never makes carry the XDR bytes of their body. -/
inductive TransactionEnvelope where
  | txV0 (body : List UInt8) (signatures : VecM DecoratedSignature 20)
  | tx (inner : TransactionV1Envelope)
  | txFeeBump (body : List UInt8) (signatures : VecM DecoratedSignature 20)
  deriving DecidableEq

/-- The Soroban data of a v1 envelope. -/
def TransactionEnvelope.sorobanData : TransactionEnvelope → Option SorobanTransactionData
  | .tx inner => match inner.tx.ext with
    | .v1 data => some data
    | .v0 => none
  | _ => none

/-- Every ledger key an envelope's transaction names. -/
def TransactionEnvelope.footprintKeys (envelope : TransactionEnvelope) : List LedgerKey :=
  match envelope.sorobanData with
  | some data => data.resources.footprint.keys
  | none => []

/-- What an envelope's hash covers: its body and the kind of the body, not its signatures. -/
inductive TaggedTransaction where
  | txV0 (body : List UInt8)
  | tx (body : Transaction)
  | txFeeBump (body : List UInt8)
  deriving DecidableEq

def TransactionEnvelope.tagged : TransactionEnvelope → TaggedTransaction
  | .txV0 body _ => .txV0 body
  | .tx inner => .tx inner.tx
  | .txFeeBump body _ => .txFeeBump body

/-- `Strkey` as far as the callers match on it. -/
inductive Strkey where
  | privateKeyEd25519 (seed : Bytes32)
  | publicKeyEd25519 (key : Bytes32)
  | contract (id : Bytes32)
  | other (text : String)
  deriving DecidableEq

/-- The third-party functions the workspace calls: stellar-xdr's codecs and envelope hash,
stellar-strkey, SHA-256 and Ed25519. A failure carries the text its error displays. -/
structure Crates where
  keyToXdr : LedgerKey → Except String (List UInt8)
  keyToXdrBase64 : LedgerKey → Except String String
  /-- `LedgerEntryData::from_xdr_base64`, then `to_key`. -/
  entryKeyFromXdrBase64 : String → Except String LedgerKey
  sorobanDataFromXdrBase64 : String → Except String SorobanTransactionData
  scValFromXdrBase64 : String → Except String ScVal
  /-- `TransactionEnvelope::hash` under a network id. -/
  envelopeHash : TaggedTransaction → Bytes32 → Except String Bytes32
  /-- What `VecM::try_from` says about too long a vector. -/
  tooLong : String
  strkeyFromString : String → Except String Strkey
  accountStrkey : Bytes32 → String
  sha256 : List UInt8 → Bytes32
  /-- Public key of a seed. -/
  verifyingKey : Bytes32 → Bytes32
  /-- Signature of a message under a seed. -/
  ed25519Sign : Bytes32 → List UInt8 → Vector UInt8 64

end SorobanRentKeeper

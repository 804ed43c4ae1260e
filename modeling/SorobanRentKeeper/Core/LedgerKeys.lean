import SorobanRentKeeper.Core.Xdr

namespace SorobanRentKeeper

/-- `RentkeeperError` of error.rs. -/
inductive RentkeeperError where
  | entryNotFound (text : String)
  | durabilityMismatch (entry expected actual : String)
  | rpc (text : String)
  | xdr (text : String)
  | key (text : String)
  | transaction (text : String)
  | config (text : String)
  deriving DecidableEq

/-- The `Display` texts. -/
def RentkeeperError.toString : RentkeeperError → String
  | .entryNotFound text => "ledger entry not found: " ++ text
  | .durabilityMismatch entry expected actual =>
      "entry " ++ entry ++ " is " ++ actual ++ " but plan was built for " ++ expected ++
        " durability"
  | .rpc text => "rpc error: " ++ text
  | .xdr text => "xdr error: " ++ text
  | .key text => "key error: " ++ text
  | .transaction text => "transaction error: " ++ text
  | .config text => "config error: " ++ text

namespace LedgerKeys

def contractData (contractId : Bytes32) (key : ScVal) (durability : ContractDataDurability) :
    LedgerKey :=
  .contractData ⟨.contract contractId,key,durability⟩

def contractCode (wasmHash : Bytes32) : LedgerKey := .contractCode wasmHash

/-- Base64 XDR of a key, as plans and logs show it. -/
def render (crates : Crates) (key : LedgerKey) : Except RentkeeperError String :=
  (crates.keyToXdrBase64 key).mapError .xdr

end LedgerKeys

def u32Be (n : UInt32) : List UInt8 :=
  [(n >>> 24).toUInt8,(n >>> 16).toUInt8,(n >>> 8).toUInt8,n.toUInt8]

def ScVal.xdr : ScVal → List UInt8
  | .ledgerKeyContractInstance => u32Be 20
  | .other xdr => xdr

def ScAddress.xdr : ScAddress → List UInt8
  | .contract id => u32Be 1 ++ id.toList
  | .other xdr => xdr

def ContractDataDurability.xdr : ContractDataDurability → List UInt8
  | .temporary => u32Be 0
  | .persistent => u32Be 1

/-- The XDR of a ledger key. -/
def LedgerKey.xdr : LedgerKey → List UInt8
  | .contractData data => u32Be 6 ++ data.contract.xdr ++ data.key.xdr ++ data.durability.xdr
  | .contractCode hash => u32Be 7 ++ hash.toList
  | .configSetting id => u32Be 8 ++ u32Be id
  | .ttl keyHash => u32Be 9 ++ keyHash.toList
  | .other xdr => xdr

def base64Char (n : Nat) : Char :=
  "ABCDEFGHIJKLMNOPQRSTUVWXYZabcdefghijklmnopqrstuvwxyz0123456789+/".toList.getD (n % 64) '='

def base64 : List UInt8 → List Char
  | [] => []
  | [a] => [base64Char (a.toNat / 4),base64Char (a.toNat * 16),'=','=']
  | [a,b] =>
    [base64Char (a.toNat / 4),base64Char (a.toNat * 16 + b.toNat / 16),base64Char (b.toNat * 4),'=']
  | a::b::c::rest =>
    base64Char (a.toNat / 4)::base64Char (a.toNat % 4 * 16 + b.toNat / 16)::
      base64Char (b.toNat % 16 * 4 + c.toNat / 64)::base64Char c.toNat::base64 rest

/-- A Wasm code entry, and a temporary entry of one contract. -/
def codeKey : LedgerKey := .contractCode (Vector.replicate 32 0)

def dataKey : LedgerKey :=
  .contractData ⟨.contract (Vector.replicate 32 0),.other [0,0,0,3,0,0,0,7],.temporary⟩

/-- The libraries on fixed inputs: keys are encoded, the texts and digests of the two sample
entries are listed, and any other text is refused. Signatures are not computed. -/
def sampleCrates : Crates where
  keyToXdr key := .ok key.xdr
  keyToXdrBase64 key := .ok (String.ofList (base64 key.xdr))
  entryKeyFromXdrBase64 text :=
    if text = "AAAABwAAAAAAAAAAAAAAAAAAAAAAAAAAAAAAAAAAAAAAAAAAAAAAAAAAAAA=" then .ok codeKey
    else if text =
        "AAAABgAAAAAAAAABAAAAAAAAAAAAAAAAAAAAAAAAAAAAAAAAAAAAAAAAAAAAAAADAAAABwAAAAAAAAAB" then
      .ok dataKey
    else .error "xdr value invalid"
  sorobanDataFromXdrBase64 text :=
    if text = "AAAAAAAAAAAAAAAAAAAAAAAAAAAAAAAAAAAAAAAAAAA=" then
      .ok ⟨.v0,⟨⟨VecM.empty LedgerKey u32Max,VecM.empty LedgerKey u32Max⟩,0,0,0⟩,0⟩
    else if text =
        "AAAAAAAAAAAAAAABAAAABwAAAAAAAAAAAAAAAAAAAAAAAAAAAAAAAAAAAAAAAAAAAAAAAAAAAAAAAAAAAAAAAAAAAAA=" then
      .ok ⟨.v0,⟨⟨VecM.empty LedgerKey u32Max,⟨[codeKey],by decide⟩⟩,0,0,0⟩,0⟩
    else if text =
        "AAAAAAAAAAAAAAABAAAABgAAAAEAAAAAAAAAAAAAAAAAAAAAAAAAAAAAAAAAAAAAAAAAAAAAAAMAAAAHAAAAAAAAAAAAAAAAAAAAAAAAAAAAAAAA" then
      .ok ⟨.v0,⟨⟨VecM.empty LedgerKey u32Max,⟨[dataKey],by decide⟩⟩,0,0,0⟩,0⟩
    else .error "xdr value invalid"
  scValFromXdrBase64 text :=
    if text = "AAAAAwAAAAc=" then .ok (.other [0,0,0,3,0,0,0,7]) else .error "xdr value invalid"
  envelopeHash _ _ := .ok (Vector.replicate 32 0)
  tooLong := "xdr value max length exceeded"
  strkeyFromString text :=
    if text = "CAAAAAAAAAAAAAAAAAAAAAAAAAAAAAAAAAAAAAAAAAAAAAAAAAAABSC4" then
      .ok (.contract (Vector.replicate 32 0))
    else .error "invalid"
  accountStrkey _ := "G"
  sha256 message :=
    if message = codeKey.xdr then
      #v[223,237,6,29,190,70,78,15,243,32,116,79,205,96,74,192,139,57,218,167,79,162,65,16,147,102,
        84,203,203,145,92,204]
    else if message = dataKey.xdr then
      #v[205,82,45,82,124,193,146,114,54,29,34,33,233,108,185,26,253,23,123,228,181,3,225,222,166,
        219,172,202,11,254,192,20]
    else Vector.replicate 32 0
  verifyingKey seed := seed
  ed25519Sign _ _ := Vector.replicate 64 0

example : (LedgerKeys.render sampleCrates codeKey).toOption =
    some "AAAABwAAAAAAAAAAAAAAAAAAAAAAAAAAAAAAAAAAAAAAAAAA" := by decide

end SorobanRentKeeper

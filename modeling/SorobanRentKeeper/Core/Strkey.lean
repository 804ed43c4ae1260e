import SorobanRentKeeper.Core.Tx
import SorobanRentKeeper.Framework.Base32

namespace SorobanRentKeeper

namespace Crc16

def shift (crc : UInt16) : UInt16 :=
  if crc &&& 0x8000 ≠ 0 then (crc <<< 1) ^^^ 0x1021 else crc <<< 1

def byte (crc : UInt16) (b : UInt8) : UInt16 := shift^[8] (crc ^^^ b.toUInt16 <<< 8)

/-- The XMODEM checksum that ends a strkey. -/
def checksum (bytes : List UInt8) : UInt16 := bytes.foldl byte 0

end Crc16

/-- What the Base32 text of a strkey holds: version, payload, checksum with its low byte first. -/
def strkeyBytes (version : UInt8) (payload : Bytes32) : List UInt8 :=
  let body := version::payload.toList
  let crc := Crc16.checksum body
  body ++ [crc.toUInt8,(crc >>> 8).toUInt8]

/-- The strkey of 32 bytes under a version. -/
def strkey (version : UInt8) (payload : Bytes32) : String :=
  String.ofList (Base32.encode 56 (strkeyBytes version payload))

/-- The version of a secret seed. -/
def seedVersion : UInt8 := 144

/-- The version of a contract id. -/
def contractVersion : UInt8 := 16

example : strkey contractVersion (Vector.replicate 32 0) =
    "CAAAAAAAAAAAAAAAAAAAAAAAAAAAAAAAAAAAAAAAAAAAAAAAAAAABSC4" := by decide +kernel

theorem length_strkeyBytes (version : UInt8) (payload : Bytes32) :
    (strkeyBytes version payload).length = 35 := by
  simp [strkeyBytes]

theorem strkeyBytes_fit (version : UInt8) (payload : Bytes32) :
    256 ^ (strkeyBytes version payload).length ≤ 32 ^ 56 := by
  rw [length_strkeyBytes]
  decide

/-- The bytes are read back from the text. -/
theorem decode_strkey (version : UInt8) (payload : Bytes32) :
    Base32.decode 35 (strkey version payload).toList = strkeyBytes version payload := by
  have hdecode := Base32.decode_encode (strkeyBytes_fit version payload)
  rw [length_strkeyBytes] at hdecode
  rw [strkey,String.toList_ofList,hdecode]

theorem length_strkey (version : UInt8) (payload : Bytes32) :
    (strkey version payload).toList.length = 56 := by
  rw [strkey,String.toList_ofList,Base32.length_encode (strkeyBytes_fit version payload)]

/-- Every character of a strkey is a digit or a capital. -/
theorem mem_strkey {version : UInt8} {payload : Bytes32} {c : Char}
    (h : c ∈ (strkey version payload).toList) : 50 ≤ c.toNat ∧ c.toNat ≤ 90 := by
  rw [strkey,String.toList_ofList] at h
  exact Base32.mem_encode h

/-- The strkey reader takes a text for a secret seed exactly when it is the seed's strkey: the
alphabet, the length, the version and the checksum all have to be right. -/
def Crates.ReadsSeeds (crates : Crates) : Prop :=
  ∀ text seed, crates.strkeyFromString text = .ok (.privateKeyEd25519 seed) ↔
    text = strkey seedVersion seed

/-- A payer is made of the strkeys of seeds and of nothing else. -/
theorem FeePayer.fromSecretKeyStr_ok_iff {crates : Crates} (hreads : crates.ReadsSeeds)
    {secret : String} {payer : FeePayer} :
    FeePayer.fromSecretKeyStr crates secret = .ok payer ↔
      secret = strkey seedVersion payer.signingKey := by
  rw [← hreads]
  unfold FeePayer.fromSecretKeyStr
  cases hread : crates.strkeyFromString secret with
  | error e => exact ⟨nofun,nofun⟩
  | ok strkey =>
    cases strkey with
    | privateKeyEd25519 seed =>
      constructor
      · intro h
        cases h
        rfl
      · intro h
        cases h
        rfl
    | _ => exact ⟨nofun,nofun⟩

/-- The payload of a text, whatever its version and checksum. -/
def payloadOf (text : String) : Bytes32 :=
  Vector.ofFn fun i => (Base32.decode 35 text.toList)[i.val+1]?.getD 0

theorem payloadOf_strkey (version : UInt8) (payload : Bytes32) :
    payloadOf (strkey version payload) = payload := by
  unfold payloadOf
  rw [decode_strkey]
  apply Vector.ext
  intro i hi
  rw [Vector.getElem_ofFn]
  simp [strkeyBytes,List.getElem?_append,hi]

/-- A strkey reader that knows seeds, and the contract of `sampleCrates`. -/
def seedStrkey (text : String) : Except String Strkey :=
  if text = strkey seedVersion (payloadOf text) then .ok (.privateKeyEd25519 (payloadOf text))
  else sampleCrates.strkeyFromString text

theorem sampleCrates_not_seed (text : String) (seed : Bytes32) :
    sampleCrates.strkeyFromString text ≠ .ok (.privateKeyEd25519 seed) := by
  unfold sampleCrates
  dsimp only
  split <;> exact nofun

theorem seedStrkey_eq_ok_iff (text : String) (seed : Bytes32) :
    seedStrkey text = .ok (.privateKeyEd25519 seed) ↔ text = strkey seedVersion seed := by
  constructor
  · intro h
    by_cases htext : text = strkey seedVersion (payloadOf text)
    · rw [seedStrkey,if_pos htext] at h
      rw [← Strkey.privateKeyEd25519.inj (Except.ok.inj h)]
      exact htext
    · rw [seedStrkey,if_neg htext] at h
      exact absurd h (sampleCrates_not_seed text seed)
  · rintro rfl
    rw [seedStrkey,payloadOf_strkey,if_pos rfl]

/-- The same libraries with another strkey reader. -/
def Crates.withStrkeys (crates : Crates) (read : String → Except String Strkey) : Crates :=
  { crates with strkeyFromString := read }

theorem Crates.withStrkeys_strkeyFromString (crates : Crates)
    (read : String → Except String Strkey) :
    (crates.withStrkeys read).strkeyFromString = read := rfl

def seedCrates : Crates := sampleCrates.withStrkeys seedStrkey

theorem seedCrates_readsSeeds : seedCrates.ReadsSeeds := by
  intro text seed
  rw [seedCrates,Crates.withStrkeys_strkeyFromString]
  exact seedStrkey_eq_ok_iff text seed

end SorobanRentKeeper

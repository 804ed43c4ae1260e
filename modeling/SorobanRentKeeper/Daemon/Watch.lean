import SorobanRentKeeper.Core.Tx
import SorobanRentKeeper.Framework.Hex
import SorobanRentKeeper.Framework.Program

namespace SorobanRentKeeper

/-- `KeeperError` of watcher.rs. -/
inductive KeeperError where
  | invalidWatch (text : String)
  | rpc (text : String)
  | transaction (text : String)
  deriving DecidableEq

/-- The `Display` texts. -/
def KeeperError.toString : KeeperError → String
  | .invalidWatch text => "invalid watch spec: " ++ text
  | .rpc text => "rpc failure: " ++ text
  | .transaction text => "transaction failure: " ++ text

inductive WatchSpec where
  | instance (contractId : String)
  | dataKey (contractId keyXdr durability : String)
  | contractCode (wasmHash : String)
  deriving DecidableEq

structure ValidConfig where
  rpcUrl : String
  networkPassphrase : String
  secretKey : String
  watch : List WatchSpec
  pollIntervalSecs : UInt64
  riskWindow : RiskWindow
  metricsPort : Option UInt16
  constants : TtlConstants
  deriving DecidableEq

/-- `SequenceTracker`: the cached number itself is part of the world. -/
structure SequenceTracker where
  accountId : String
  deriving DecidableEq

/-- What `main` hands to the poll loop, with the libraries it links. -/
structure Keeper (σ : Type) where
  crates : Crates
  node : Node σ
  config : ValidConfig
  payer : FeePayer
  tracker : SequenceTracker

def contractIdBytes (crates : Crates) (contractId : String) : Except KeeperError Bytes32 :=
  match crates.strkeyFromString contractId with
  | .error e => .error (.invalidWatch ("contract_id: " ++ e))
  | .ok (.contract bytes) => .ok bytes
  | .ok _ => .error (.invalidWatch (contractId ++ " is not a C... contract strkey"))

def hexVal (c : UInt8) : Option UInt8 :=
  if 48 ≤ c ∧ c ≤ 57 then some (c - 48)
  else if 97 ≤ c ∧ c ≤ 102 then some (c - 97 + 10)
  else if 65 ≤ c ∧ c ≤ 70 then some (c - 65 + 10)
  else none

/-- `strip_prefix("0x")`, or the text itself. -/
def stripHexPrefix : List UInt8 → List UInt8
  | 48::120::rest => rest
  | bytes => bytes

/-- The loop of `wasm_hash_bytes`: digits go in pairs, a missing or bad one fails, and a store
past the end of the array panics. -/
def fillHash : List UInt8 → Nat → Bytes32 → Except (Fault KeeperError) Bytes32
  | [],_,out => .ok out
  | [_],_,_ => .error (.failed (.invalidWatch "wasm_hash"))
  | a::b::rest,i,out =>
    match hexVal a,hexVal b with
    | some hi,some lo =>
      if h : i < 32 then fillHash rest (i+1) (out.set i ((hi <<< 4) ||| lo))
      else .error .panicked
    | _,_ => .error (.failed (.invalidWatch "wasm_hash"))

def wasmHashBytes (wasmHash : String) : Except (Fault KeeperError) Bytes32 :=
  fillHash (stripHexPrefix (utf8 wasmHash)) 0 (Vector.replicate 32 0)

def instanceKey : ScVal := .ledgerKeyContractInstance

def resolveWatchSpec (crates : Crates) : WatchSpec → Except (Fault KeeperError) LedgerKey
  | .instance contractId => do
    let id ← (contractIdBytes crates contractId).mapError .failed
    return LedgerKeys.contractData id instanceKey .persistent
  | .dataKey contractId keyXdr durability => do
    let id ← (contractIdBytes crates contractId).mapError .failed
    let key ← (crates.scValFromXdrBase64 keyXdr).mapError fun e =>
      .failed (.invalidWatch ("key_xdr: " ++ e))
    let durability ←
      if durability = "persistent" then .ok .persistent
      else if durability = "temporary" then .ok .temporary
      else .error (.failed (.invalidWatch ("unknown durability '" ++ durability ++ "'")))
    return LedgerKeys.contractData id key durability
  | .contractCode wasmHash => do
    let hash ← wasmHashBytes wasmHash
    return LedgerKeys.contractCode hash

def resolveWatchKeys (crates : Crates) (config : ValidConfig) :
    Except (Fault KeeperError) (List LedgerKey) :=
  config.watch.mapM (resolveWatchSpec crates)

theorem contractIdBytes_error {crates : Crates} {contractId : String} {err : KeeperError}
    (h : contractIdBytes crates contractId = .error err) : ∃ text, err = .invalidWatch text := by
  unfold contractIdBytes at h
  split at h
  · exact ⟨_,(Except.error.inj h).symm⟩
  · cases h
  · exact ⟨_,(Except.error.inj h).symm⟩

theorem fillHash_error {bytes : List UInt8} {i : Nat} {out : Bytes32} {err : KeeperError}
    (h : fillHash bytes i out = .error (.failed err)) : ∃ text, err = .invalidWatch text := by
  induction bytes,i,out using fillHash.induct with
  | case1 i out => cases h
  | case2 a i out =>
    cases h
    exact ⟨_,rfl⟩
  | case3 i out a b rest hi lo hhi hlo hlt ih =>
    unfold fillHash at h
    simp only [hhi,hlo,hlt,dif_pos] at h
    exact ih h
  | case4 i out a b rest hi lo hhi hlo hge =>
    unfold fillHash at h
    simp only [hhi,hlo,hge] at h
    cases h
  | case5 i out a b rest hbad =>
    unfold fillHash at h
    split at h
    · next hi lo hhi hlo => exact absurd hlo (hbad hi lo hhi)
    · cases h
      exact ⟨_,rfl⟩

theorem contractIdBytes_failed {crates : Crates} {contractId : String} {err : KeeperError}
    (h : (contractIdBytes crates contractId).mapError Fault.failed = .error (.failed err)) :
    ∃ text, err = .invalidWatch text := by
  obtain ⟨e,he,heq⟩ := Program.mapError_eq_error h
  cases heq
  exact contractIdBytes_error he

/-- A rule that does not resolve is an invalid rule, whatever it is. -/
theorem resolveWatchSpec_error {crates : Crates} {spec : WatchSpec} {err : KeeperError}
    (h : resolveWatchSpec crates spec = .error (.failed err)) :
    ∃ text, err = .invalidWatch text := by
  cases spec with
  | «instance» contractId =>
    rcases Program.bind_eq_error h with hid | ⟨_,_,h⟩
    · exact contractIdBytes_failed hid
    · cases h
  | dataKey contractId keyXdr durability =>
    rcases Program.bind_eq_error h with hid | ⟨id,_,h⟩
    · exact contractIdBytes_failed hid
    rcases Program.bind_eq_error h with hkey | ⟨key,_,h⟩
    · obtain ⟨e,_,heq⟩ := Program.mapError_eq_error hkey
      cases heq
      exact ⟨_,rfl⟩
    by_cases hpersistent : durability = "persistent"
    · simp only [hpersistent,if_true] at h
      cases h
    · by_cases htemporary : durability = "temporary"
      · simp only [htemporary,if_true] at h
        cases h
      · simp only [hpersistent,htemporary,if_false] at h
        cases h
        exact ⟨_,rfl⟩
  | contractCode wasmHash =>
    rcases Program.bind_eq_error h with hhash | ⟨_,_,h⟩
    · exact fillHash_error hhash
    · cases h

theorem resolveWatchKeys_error {crates : Crates} {config : ValidConfig} {err : KeeperError}
    (h : resolveWatchKeys crates config = .error (.failed err)) :
    ∃ text, err = .invalidWatch text := by
  obtain ⟨_,_,hspec⟩ := Program.mapM_eq_error h
  exact resolveWatchSpec_error hspec

theorem utf8_eq (text : String) : utf8 text = Ascii.bytes text.toList := Ascii.bytes_toList text

theorem stripHexPrefix_bytes (cs : List Char) :
    stripHexPrefix (Ascii.bytes cs) = Ascii.bytes (Hex.strip cs) := by
  by_cases hstarts : ∃ rest, cs = '0' :: 'x' :: rest
  · obtain ⟨rest,rfl⟩ := hstarts
    rfl
  · have hcs : Hex.strip cs = cs := Hex.strip_eq_self fun rest heq => hstarts ⟨rest,heq⟩
    rw [hcs]
    unfold stripHexPrefix
    split
    · next rest hbytes =>
      obtain ⟨c,cs',rfl,hc,hrest⟩ := Ascii.bytes_eq_cons hbytes (by decide)
      obtain ⟨d,cs'',rfl,hd,_⟩ := Ascii.bytes_eq_cons hrest (by decide)
      have hzero : c = '0' := Char.toNat_inj.mp hc
      have hx : d = 'x' := Char.toNat_inj.mp hd
      rw [hzero,hx] at hstarts
      exact absurd ⟨cs'',rfl⟩ hstarts
    · rfl

theorem hexVal_byte {c : Char} (h : Hex.IsDigit c) :
    hexVal (Ascii.byte c) = some (UInt8.ofNat (Hex.digit c)) := by
  have hall : ∀ n < 103, 48 ≤ n ∧ n ≤ 57 ∨ 65 ≤ n ∧ n ≤ 70 ∨ 97 ≤ n ∧ n ≤ 102 →
      hexVal (UInt8.ofNat n) = some (UInt8.ofNat
        (if n ≤ 57 then n - 48 else if n ≤ 70 then n - 55 else n - 87)) := by decide
  have hlt : c.toNat < 103 := by
    unfold Hex.IsDigit at h
    omega
  exact hall c.toNat hlt h

theorem nibbles_eq {hi lo : Nat} (hhi : hi < 16) (hlo : lo < 16) :
    (UInt8.ofNat hi <<< 4) ||| UInt8.ofNat lo = UInt8.ofNat (16 * hi + lo) := by
  have hall : ∀ hi < 16, ∀ lo < 16,
      (UInt8.ofNat hi <<< 4) ||| UInt8.ofNat lo = UInt8.ofNat (16 * hi + lo) := by decide
  exact hall hi hhi lo hlo

/-- An even number of digits that fit from byte `i` on: they are stored there, the rest stays. -/
theorem fillHash_digits {cs : List Char} (hcs : ∀ c ∈ cs, Hex.IsDigit c)
    (heven : cs.length % 2 = 0) {i : Nat} (hfit : i + cs.length / 2 ≤ 32) (out : Bytes32) :
    ∃ hash, fillHash (cs.map Ascii.byte) i out = .ok hash ∧
      hash.toList = out.toList.take i ++ Hex.decode cs ++ out.toList.drop (i + cs.length / 2) := by
  induction cs using Hex.decode.induct generalizing i out with
  | case1 a b cs ih =>
    simp only [List.length_cons] at heven hfit
    obtain ⟨ha,hcs⟩ := List.forall_mem_cons.mp hcs
    obtain ⟨hb,hcs⟩ := List.forall_mem_cons.mp hcs
    have hi : i < 32 := by omega
    obtain ⟨hash,hfill,hlist⟩ := ih hcs (by omega) (i := i+1) (by omega)
      (out.set i (UInt8.ofNat (16 * Hex.digit a + Hex.digit b)))
    refine ⟨hash,?_,?_⟩
    · simp only [List.map_cons,fillHash,hexVal_byte ha,hexVal_byte hb,hi,dif_pos,
        nibbles_eq (Hex.digit_lt ha) (Hex.digit_lt hb)]
      exact hfill
    · have hlen : i < out.toList.length := by rw [Vector.length_toList]; exact hi
      have hstored (x : UInt8) : (out.toList.set i x).take (i+1) = out.toList.take i ++ [x] := by
        rw [List.take_succ_eq_append_getElem (by rw [List.length_set]; exact hlen),
          List.take_set_of_le (Nat.le_refl i),List.getElem_set_self]
      have hend : i + 1 + cs.length / 2 = i + (cs.length + 1 + 1) / 2 := by omega
      rw [hlist,Vector.toList_set,hstored,List.drop_set_of_lt (by omega),hend]
      simp only [Hex.decode,List.length_cons,List.append_assoc,List.singleton_append]
  | case2 cs hshort =>
    cases cs with
    | nil => exact ⟨out,rfl,by simp [Hex.decode]⟩
    | cons a cs =>
      cases cs with
      | nil => simp at heven
      | cons b cs => exact absurd rfl (hshort a b cs)

/-- Digits that fill the array spell what is stored. -/
theorem fillHash_of_length {cs : List Char} (hcs : ∀ c ∈ cs, Hex.IsDigit c)
    (hlength : cs.length = 64) :
    ∃ hash, fillHash (cs.map Ascii.byte) 0 (Vector.replicate 32 0) = .ok hash ∧
      hash.toList = Hex.decode cs := by
  obtain ⟨hash,hfill,hlist⟩ := fillHash_digits hcs (by omega) (i := 0) (by omega)
    (Vector.replicate 32 0)
  refine ⟨hash,hfill,?_⟩
  rw [hlist,List.take_zero,List.nil_append,hlength]
  exact List.append_nil (Hex.decode cs)

/-- A character that is no digit starts with a byte that is none. -/
theorem hexVal_of_not_isDigit {c : Char} (h : ¬Hex.IsDigit c) :
    ∃ b rest, String.utf8EncodeChar c = b::rest ∧ hexVal b = none := by
  by_cases hc : c.toNat < 128
  · have hall : ∀ n < 128, ¬(48 ≤ n ∧ n ≤ 57 ∨ 65 ≤ n ∧ n ≤ 70 ∨ 97 ≤ n ∧ n ≤ 102) →
        hexVal (UInt8.ofNat n) = none := by decide
    exact ⟨_,[],Ascii.encode_of_lt hc,hall c.toNat hc h⟩
  · obtain ⟨b,rest,hencode,hb⟩ := Ascii.encode_of_ge (Nat.le_of_not_lt hc)
    refine ⟨b,rest,hencode,?_⟩
    unfold hexVal
    simp only [UInt8.le_iff_toNat_le]
    split_ifs with h₁ h₂ h₃
    · simp at h₁
      omega
    · simp at h₂
      omega
    · simp at h₃
      omega
    · rfl

theorem fillHash_of_first {a : UInt8} (ha : hexVal a = none) (rest : List UInt8) (i : Nat)
    (out : Bytes32) :
    fillHash (a::rest) i out = .error (.failed (.invalidWatch "wasm_hash")) := by
  cases rest with
  | nil => rfl
  | cons b rest => simp only [fillHash,ha]

theorem fillHash_of_second (a : UInt8) {b : UInt8} (hb : hexVal b = none) (rest : List UInt8)
    (i : Nat) (out : Bytes32) :
    fillHash (a::b::rest) i out = .error (.failed (.invalidWatch "wasm_hash")) := by
  unfold fillHash
  cases hexVal a <;> simp [hb]

/-- One turn of the loop, on characters: two digits are stored, or there is no room for them. -/
theorem fillHash_pair {a b : Char} (ha : Hex.IsDigit a) (hb : Hex.IsDigit b) (cs : List Char)
    (i : Nat) (out : Bytes32) :
    fillHash (Ascii.bytes (a::b::cs)) i out =
      if h : i < 32 then fillHash (Ascii.bytes cs) (i+1)
        (out.set i (UInt8.ofNat (16 * Hex.digit a + Hex.digit b)))
      else .error .panicked := by
  rw [Ascii.bytes_cons,Ascii.bytes_cons,Ascii.encode_of_lt ha.lt,Ascii.encode_of_lt hb.lt]
  simp only [List.singleton_append,fillHash,hexVal_byte ha,hexVal_byte hb,
    nibbles_eq (Hex.digit_lt ha) (Hex.digit_lt hb)]

/-- Anything else in front ends the loop. -/
theorem fillHash_of_not_pair {cs : List Char} (hne : cs ≠ [])
    (h : ¬∃ a b rest, cs = a::b::rest ∧ Hex.IsDigit a ∧ Hex.IsDigit b) (i : Nat) (out : Bytes32) :
    fillHash (Ascii.bytes cs) i out = .error (.failed (.invalidWatch "wasm_hash")) := by
  cases cs with
  | nil => exact absurd rfl hne
  | cons a cs =>
    rw [Ascii.bytes_cons]
    by_cases ha : Hex.IsDigit a
    · rw [Ascii.encode_of_lt ha.lt,List.singleton_append]
      cases cs with
      | nil => rfl
      | cons b rest =>
        have hb : ¬Hex.IsDigit b := fun hb => h ⟨a,b,rest,rfl,ha,hb⟩
        obtain ⟨b',bs,hencode,hnone⟩ := hexVal_of_not_isDigit hb
        rw [Ascii.bytes_cons,hencode,List.cons_append]
        exact fillHash_of_second _ hnone _ i out
    · obtain ⟨a',bs,hencode,hnone⟩ := hexVal_of_not_isDigit ha
      rw [hencode,List.cons_append]
      exact fillHash_of_first hnone _ i out

end SorobanRentKeeper

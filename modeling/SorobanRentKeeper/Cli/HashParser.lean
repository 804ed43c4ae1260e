import SorobanRentKeeper.Cli.Command
import SorobanRentKeeper.Daemon.StrictKeys

namespace SorobanRentKeeper

namespace Cli

/-- The same lines as in watcher.rs. -/
def hexVal (c : UInt8) : Option UInt8 := SorobanRentKeeper.hexVal c

/-- The loop of `wasm_hash_bytes`, its texts apart that of the daemon. -/
def fillHash : List UInt8 → Nat → Bytes32 → Except (Fault CliError) Bytes32
  | [],_,out => .ok out
  | [_],_,_ => .error (.failed (.invalid "bad hex"))
  | a::b::rest,i,out =>
    match hexVal a,hexVal b with
    | some hi,some lo =>
      if h : i < 32 then fillHash rest (i+1) (out.set i ((hi <<< 4) ||| lo))
      else .error .panicked
    | _,_ => .error (.failed (.invalid "bad hex"))

def wasmHashBytes (hash : String) : Except (Fault CliError) Bytes32 :=
  let stripped := stripHexPrefix (utf8 hash)
  if stripped.length ≠ 64 then .error (.failed (.invalid "wasm hash must be 32 bytes of hex"))
  else fillHash stripped 0 (Vector.replicate 32 0)

def badHex : Fault KeeperError → Fault CliError
  | .failed _ => .failed (.invalid "bad hex")
  | .panicked => .panicked

theorem fillHash_eq (bytes : List UInt8) (i : Nat) (out : Bytes32) :
    fillHash bytes i out = (SorobanRentKeeper.fillHash bytes i out).mapError badHex := by
  induction bytes,i,out using SorobanRentKeeper.fillHash.induct with
  | case1 i out => rfl
  | case2 a i out => rfl
  | case3 i out a b rest hi lo hhi hlo hlt ih =>
    unfold fillHash SorobanRentKeeper.fillHash hexVal
    simp only [hhi,hlo,hlt,dif_pos]
    exact ih
  | case4 i out a b rest hi lo hhi hlo hge =>
    unfold fillHash SorobanRentKeeper.fillHash hexVal
    simp only [hhi,hlo,hge,dif_neg,not_false_iff]
    rfl
  | case5 a b rest i out hbad =>
    unfold fillHash SorobanRentKeeper.fillHash hexVal
    cases ha : SorobanRentKeeper.hexVal a with
    | none => rfl
    | some hi =>
      cases hb : SorobanRentKeeper.hexVal b with
      | none => rfl
      | some lo => exact absurd hb (hbad hi lo ha)

/-- In terms of characters, and of the daemon's loop. -/
theorem wasmHashBytes_eq (text : String) :
    wasmHashBytes text =
      if (Ascii.bytes (Hex.strip text.toList)).length ≠ 64 then
        .error (.failed (.invalid "wasm hash must be 32 bytes of hex"))
      else (SorobanRentKeeper.fillHash (Ascii.bytes (Hex.strip text.toList)) 0
        (Vector.replicate 32 0)).mapError badHex := by
  unfold wasmHashBytes
  rw [utf8_eq,stripHexPrefix_bytes,← fillHash_eq]

/-- On 64 bytes, the loop succeeds on digits alone. -/
theorem wasmHashBytes_ok_iff (text : String) :
    (∃ hash, wasmHashBytes text = .ok hash) ↔ Hex.Encodes 32 text.toList := by
  rw [wasmHashBytes_eq,Hex.encodes_iff_strip]
  constructor
  · intro h
    obtain ⟨hash,h⟩ := h
    obtain ⟨hlength,h⟩ := Program.check_eq_ok h
    obtain ⟨hdigits,_,_⟩ := (fillHash_ok_iff (Nat.zero_le 32) _).mp
      ⟨hash,Program.mapError_eq_ok h⟩
    have hbytes := Ascii.bytes_of_ascii fun c hc => (hdigits c hc).lt
    rw [hbytes,List.length_map] at hlength
    exact ⟨not_not.mp hlength,hdigits⟩
  · intro h
    obtain ⟨hlength,hdigits⟩ := h
    obtain ⟨hash,hfill⟩ := (fillHash_ok_iff (Nat.zero_le 32) (Vector.replicate 32 0)).mpr
      ⟨hdigits,by omega,by omega⟩
    have hbytes := Ascii.bytes_of_ascii fun c hc => (hdigits c hc).lt
    refine ⟨hash,?_⟩
    rw [if_neg (by simp [hbytes,hlength]),hfill]
    rfl

/-- It never runs past the array. -/
theorem wasmHashBytes_total (text : String) : wasmHashBytes text ≠ .error .panicked := by
  intro h
  rw [wasmHashBytes_eq] at h
  split at h
  · cases h
  · next hlength =>
    obtain ⟨fault,hfault,heq⟩ := Program.mapError_eq_error h
    cases fault with
    | failed err => cases heq
    | panicked =>
      have hlong := ((fillHash_panicked_iff (Nat.zero_le 32) _).mp hfault).1
      have hbytes := Ascii.length_le_bytes (Hex.strip text.toList)
      omega

/-- Any rendering of a hash is read as that hash. -/
theorem wasmHashBytes_of_renders {text : String} {hash : Bytes32} {digits : List Char}
    (h : Hex.Renders digits hash.toList)
    (htext : text.toList = digits ∨ text.toList = '0' :: 'x' :: digits) :
    wasmHashBytes text = .ok hash := by
  obtain ⟨hlength,hdigits,hdecode⟩ := h.decode
  rw [Vector.length_toList] at hlength
  obtain ⟨stored,hfill,hstored⟩ := fillHash_of_length hdigits hlength
  have hsame : stored = hash := Vector.toList_inj.mp (hstored.trans hdecode)
  rw [wasmHashBytes_eq,Hex.strip_of_digits hdigits htext,
    Ascii.bytes_of_ascii fun c hc => (hdigits c hc).lt,hfill,hsame,if_neg (by simp [hlength])]
  rfl

end Cli

theorem validateHexHash_ok_iff (hash : String) :
    validateHexHash hash = .ok () ↔ Hex.Encodes 32 hash.toList := by
  rw [Hex.encodes_iff_strip]
  constructor
  · intro h
    obtain ⟨hlength,hdigits,_⟩ := validateHexHash_ok h
    exact ⟨hlength,hdigits⟩
  · intro h
    obtain ⟨hlength,hdigits⟩ := h
    have hhex : ∀ b ∈ (Hex.strip hash.toList).map Ascii.byte, isAsciiHexdigit b = true := by
      intro b hb
      obtain ⟨c,hc,rfl⟩ := List.mem_map.mp hb
      exact hexdigit_of_isDigit (hdigits c hc)
    unfold validateHexHash
    rw [utf8_eq,stripHexPrefix_bytes,Ascii.bytes_of_ascii fun c hc => (hdigits c hc).lt]
    rw [if_neg]
    simp only [List.length_map,hlength,List.all_eq_true.mpr hhex,ne_eq,not_true_eq_false,or_self,
      not_false_eq_true]

/-- What the hash parsers of the tool and of the configuration's check make of a text. -/
structure HashParsers (text : String) : Prop where
  cli : (∃ hash, Cli.wasmHashBytes text = .ok hash) ↔ validateHexHash text = .ok ()
  language : validateHexHash text = .ok () ↔ Hex.Encodes 32 text.toList
  total : Cli.wasmHashBytes text ≠ .error .panicked
  inverse : ∀ (hash : Bytes32) (digits : List Char), Hex.Renders digits hash.toList →
    text.toList = digits ∨ text.toList = '0' :: 'x' :: digits →
    Cli.wasmHashBytes text = .ok hash

/-- Both accept 64 digits after an optional `0x`, and nothing else. -/
theorem hashParsers_agree (text : String) : HashParsers text := by
  constructor
  · rw [Cli.wasmHashBytes_ok_iff,validateHexHash_ok_iff]
  · exact validateHexHash_ok_iff text
  · exact Cli.wasmHashBytes_total text
  · intro hash digits hrenders htext
    exact Cli.wasmHashBytes_of_renders hrenders htext

example : Hex.Renders "aAbB".toList [170,187] := by
  refine .cons 'a' 'A' _ 170 _ ?_ ?_ (.cons 'b' 'B' _ 187 _ ?_ ?_ .nil)
  all_goals unfold Hex.Writes
  all_goals decide

end SorobanRentKeeper

import Mathlib.Data.Nat.Digits.Lemmas

/-! Digits of one number in two bases, and Base32 text as a case of it. -/

namespace Radix

/-- The number that digits stand for, the first of them the most significant. -/
def read (b : Nat) (ds : List Nat) : Nat := Nat.ofDigits b ds.reverse

/-- A number in `w` digits. -/
def write (b w n : Nat) : List Nat := (Nat.digitsAppend b w n).reverse

theorem lt_of_mem_write {b w n d : Nat} (hb : 1 < b) (h : d ∈ write b w n) : d < b :=
  Nat.lt_of_mem_digitsAppend hb w d (List.mem_reverse.mp h)

theorem length_write {b w n : Nat} (hb : 1 < b) (hn : n < b ^ w) : (write b w n).length = w := by
  rw [write,List.length_reverse]
  exact Nat.length_digitsAppend hb w hn

theorem read_lt {b : Nat} {ds : List Nat} (hb : 1 < b) (hds : ∀ d ∈ ds, d < b) :
    read b ds < b ^ ds.length := by
  have hlt := Nat.ofDigits_lt_base_pow_length hb fun d hd => hds d (List.mem_reverse.mp hd)
  rwa [List.length_reverse] at hlt

theorem read_write {b w n : Nat} (hb : 1 < b) (hn : n < b ^ w) : read b (write b w n) = n := by
  unfold read write
  rw [List.reverse_reverse]
  exact (Nat.setInvOn_digitsAppend_ofDigits hb w).2 hn

theorem write_read {b : Nat} {ds : List Nat} (hb : 1 < b) (hds : ∀ d ∈ ds, d < b) :
    write b ds.length (read b ds) = ds := by
  have hreverse : ds.reverse ∈ {L : List Nat | L.length = ds.length ∧ ∀ x ∈ L, x < b} :=
    ⟨List.length_reverse,fun d hd => hds d (List.mem_reverse.mp hd)⟩
  unfold read write
  rw [(Nat.setInvOn_digitsAppend_ofDigits hb ds.length).1 hreverse,List.reverse_reverse]

/-- Digits in one base as `w` digits in another. -/
def convert (b b' w : Nat) (ds : List Nat) : List Nat := write b' w (read b ds)

/-- Nothing is lost where there is room for every number. -/
theorem convert_convert {b : Nat} {ds : List Nat} (b' w : Nat) (hb : 1 < b) (hb' : 1 < b')
    (hds : ∀ d ∈ ds, d < b) (hroom : b ^ ds.length ≤ b' ^ w) :
    convert b' b ds.length (convert b b' w ds) = ds := by
  have hfits := Nat.lt_of_lt_of_le (read_lt hb hds) hroom
  unfold convert
  rw [read_write hb' hfits,write_read hb hds]

end Radix

namespace Base32

/-- `A` to `Z`, then `2` to `7`. -/
def char (n : Nat) : Char := if n < 26 then Char.ofNat (n + 65) else Char.ofNat (n + 24)

def value (c : Char) : Nat := if 65 ≤ c.toNat then c.toNat - 65 else c.toNat - 24

theorem char_spec {n : Nat} (h : n < 32) :
    value (char n) = n ∧ 50 ≤ (char n).toNat ∧ (char n).toNat ≤ 90 := by
  have hall : ∀ n < 32, value (char n) = n ∧ 50 ≤ (char n).toNat ∧ (char n).toNat ≤ 90 := by decide
  exact hall n h

/-- `w` characters for some bytes. -/
def encode (w : Nat) (bytes : List UInt8) : List Char :=
  (Radix.convert 256 32 w (bytes.map UInt8.toNat)).map char

/-- `w` bytes for some characters. -/
def decode (w : Nat) (cs : List Char) : List UInt8 :=
  (Radix.convert 32 256 w (cs.map value)).map UInt8.ofNat

theorem mem_encode {w : Nat} {bytes : List UInt8} {c : Char} (h : c ∈ encode w bytes) :
    50 ≤ c.toNat ∧ c.toNat ≤ 90 := by
  obtain ⟨n,hn,rfl⟩ := List.mem_map.mp h
  exact (char_spec (Radix.lt_of_mem_write (by decide) hn)).2

theorem toNat_lt_of_mem (bytes : List UInt8) : ∀ d ∈ bytes.map UInt8.toNat, d < 256 := by
  intro d hd
  obtain ⟨b,_,rfl⟩ := List.mem_map.mp hd
  exact b.toNat_lt

theorem length_encode {w : Nat} {bytes : List UInt8} (hroom : 256 ^ bytes.length ≤ 32 ^ w) :
    (encode w bytes).length = w := by
  have hread := Radix.read_lt (by decide) (toNat_lt_of_mem bytes)
  rw [List.length_map] at hread
  rw [encode,List.length_map]
  exact Radix.length_write (by decide) (Nat.lt_of_lt_of_le hread hroom)

/-- Decoding undoes encoding. -/
theorem decode_encode {w : Nat} {bytes : List UInt8} (hroom : 256 ^ bytes.length ≤ 32 ^ w) :
    decode bytes.length (encode w bytes) = bytes := by
  have hvalues : (encode w bytes).map value = Radix.convert 256 32 w (bytes.map UInt8.toNat) := by
    rw [encode,List.map_map]
    apply (List.map_congr_left ?_).trans (List.map_id _)
    intro n hn
    exact (char_spec (Radix.lt_of_mem_write (by decide) hn)).1
  have hback := Radix.convert_convert 32 w (by decide) (by decide)
    (toNat_lt_of_mem bytes) (by rwa [List.length_map])
  rw [List.length_map] at hback
  rw [decode,hvalues,hback,List.map_map]
  apply (List.map_congr_left ?_).trans (List.map_id _)
  intro b _
  exact UInt8.ofNat_toNat

end Base32

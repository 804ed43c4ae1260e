import Mathlib.Data.List.Basic

namespace Ascii

/-- The byte an ASCII character is. -/
def byte (c : Char) : UInt8 := UInt8.ofNat c.toNat

/-- The UTF-8 bytes of some characters. -/
def bytes (cs : List Char) : List UInt8 := cs.flatMap String.utf8EncodeChar

theorem bytes_toList (text : String) : text.toUTF8.data.toList = bytes text.toList := by
  have h : text.toUTF8 = text.toList.utf8Encode := by rw [String.utf8Encode_toList]; rfl
  rw [h,List.utf8Encode,List.data_toByteArray]
  rfl

theorem bytes_cons (c : Char) (cs : List Char) :
    bytes (c::cs) = String.utf8EncodeChar c ++ bytes cs := List.flatMap_cons

theorem encode_of_lt {c : Char} (h : c.toNat < 128) : String.utf8EncodeChar c = [byte c] := by
  have hle : c.val.toNat ≤ 0x7f := by
    change c.toNat ≤ 127
    omega
  unfold String.utf8EncodeChar
  exact if_pos hle

/-- Any other character starts with a byte that is not ASCII. -/
theorem encode_of_ge {c : Char} (h : 128 ≤ c.toNat) :
    ∃ b rest, String.utf8EncodeChar c = b::rest ∧ 128 ≤ b.toNat := by
  have hne : ¬c.val.toNat ≤ 0x7f := by
    change ¬c.toNat ≤ 127
    omega
  unfold String.utf8EncodeChar
  simp only [hne,if_false]
  split
  · exact ⟨_,_,rfl,by rw [UInt8.toNat_ofNat']; omega⟩
  · split
    · exact ⟨_,_,rfl,by rw [UInt8.toNat_ofNat']; omega⟩
    · exact ⟨_,_,rfl,by rw [UInt8.toNat_ofNat']; omega⟩

/-- An ASCII byte in front is a character in front. -/
theorem bytes_eq_cons {cs : List Char} {b : UInt8} {bs : List UInt8} (h : bytes cs = b::bs)
    (hb : b.toNat < 128) : ∃ c rest, cs = c::rest ∧ c.toNat = b.toNat ∧ bytes rest = bs := by
  cases cs with
  | nil => cases h
  | cons c rest =>
    rw [bytes_cons] at h
    by_cases hc : c.toNat < 128
    · rw [encode_of_lt hc,List.singleton_append] at h
      obtain ⟨hbyte,hrest⟩ := List.cons_eq_cons.mp h
      refine ⟨c,rest,rfl,?_,hrest⟩
      rw [← hbyte,byte,UInt8.toNat_ofNat']
      omega
    · obtain ⟨b',_,hencode,hge⟩ := encode_of_ge (Nat.le_of_not_lt hc)
      rw [hencode,List.cons_append] at h
      have heq : b' = b := (List.cons_eq_cons.mp h).1
      rw [heq] at hge
      omega

/-- Where every byte is ASCII, bytes and characters are the same. -/
theorem bytes_of_lt {cs : List Char} (h : ∀ b ∈ bytes cs, b.toNat < 128) :
    bytes cs = cs.map byte ∧ ∀ c ∈ cs, c.toNat < 128 := by
  induction cs with
  | nil => exact ⟨rfl,nofun⟩
  | cons c cs ih =>
    rw [bytes_cons] at h ⊢
    have hc : c.toNat < 128 := by
      by_cases hge : 128 ≤ c.toNat
      · obtain ⟨b,rest,hencode,hb⟩ := encode_of_ge hge
        have hlt := h b (List.mem_append_left _ (by rw [hencode]; exact List.mem_cons_self))
        omega
      · omega
    obtain ⟨hbytes,hcs⟩ := ih fun b hb => h b (List.mem_append_right _ hb)
    rw [encode_of_lt hc,hbytes]
    exact ⟨rfl,List.forall_mem_cons.mpr ⟨hc,hcs⟩⟩

theorem bytes_of_ascii {cs : List Char} (h : ∀ c ∈ cs, c.toNat < 128) : bytes cs = cs.map byte := by
  induction cs with
  | nil => rfl
  | cons c cs ih =>
    obtain ⟨hc,hcs⟩ := List.forall_mem_cons.mp h
    rw [bytes_cons,encode_of_lt hc,ih hcs]
    rfl

theorem length_le_bytes (cs : List Char) : cs.length ≤ (bytes cs).length := by
  induction cs with
  | nil => simp
  | cons c cs ih =>
    have hpos : 0 < (String.utf8EncodeChar c).length := by
      by_cases hc : c.toNat < 128
      · rw [encode_of_lt hc]
        simp
      · obtain ⟨b,rest,hencode,_⟩ := encode_of_ge (Nat.le_of_not_lt hc)
        rw [hencode]
        simp
    rw [bytes_cons,List.length_append,List.length_cons]
    omega

end Ascii

namespace Hex

/-- A hexadecimal digit, of either case. -/
def IsDigit (c : Char) : Prop :=
  48 ≤ c.toNat ∧ c.toNat ≤ 57 ∨ 65 ≤ c.toNat ∧ c.toNat ≤ 70 ∨ 97 ≤ c.toNat ∧ c.toNat ≤ 102

instance (c : Char) : Decidable (IsDigit c) := inferInstanceAs (Decidable (_ ∨ _ ∨ _))

/-- The value of a digit. -/
def digit (c : Char) : Nat :=
  if c.toNat ≤ 57 then c.toNat - 48 else if c.toNat ≤ 70 then c.toNat - 55 else c.toNat - 87

theorem digit_lt {c : Char} (h : IsDigit c) : digit c < 16 := by
  unfold IsDigit at h
  unfold digit
  split
  · omega
  · split <;> omega

theorem IsDigit.lt {c : Char} (h : IsDigit c) : c.toNat < 128 := by
  unfold IsDigit at h
  omega

/-- What follows an optional `0x`. -/
def strip : List Char → List Char
  | '0' :: 'x' :: cs => cs
  | cs => cs

theorem strip_eq_self {cs : List Char} (h : ∀ rest, cs ≠ '0' :: 'x' :: rest) : strip cs = cs := by
  unfold strip
  split
  · next rest => exact absurd rfl (h rest)
  · rfl

/-- `n` bytes in digits, after an optional `0x`. -/
def Encodes (n : Nat) (cs : List Char) : Prop :=
  ∃ ds, ds.length = 2 * n ∧ (∀ c ∈ ds, IsDigit c) ∧ (cs = ds ∨ cs = '0' :: 'x' :: ds)

/-- Digits never look like a prefix. -/
theorem strip_of_digits {cs ds : List Char} (hdigits : ∀ c ∈ ds, IsDigit c)
    (h : cs = ds ∨ cs = '0' :: 'x' :: ds) : strip cs = ds := by
  rcases h with rfl|rfl
  · apply strip_eq_self
    intro rest heq
    have hx : IsDigit 'x' := hdigits 'x' (by simp [heq])
    exact absurd hx (by decide)
  · rfl

theorem encodes_iff_strip (n : Nat) (cs : List Char) :
    Encodes n cs ↔ (strip cs).length = 2 * n ∧ ∀ c ∈ strip cs, IsDigit c := by
  constructor
  · intro h
    obtain ⟨ds,hlength,hdigits,htext⟩ := h
    rw [strip_of_digits hdigits htext]
    exact ⟨hlength,hdigits⟩
  · intro h
    refine ⟨strip cs,h.1,h.2,?_⟩
    unfold strip
    split
    · exact .inr rfl
    · exact .inl rfl

/-- Digits one after the other; every character of the alphabet need not be tried. -/
theorem digits_of_all {cs : List Char} (h : cs.all (fun c => decide (IsDigit c)) = true) :
    ∀ c ∈ cs, IsDigit c :=
  fun c hc => of_decide_eq_true (List.all_eq_true.mp h c hc)

/-- At least `n` digits in front. -/
def Starts (n : Nat) (cs : List Char) : Prop := n ≤ cs.length ∧ ∀ c ∈ cs.take n, IsDigit c

theorem starts_cons {n : Nat} {c : Char} {cs : List Char} :
    Starts (n+1) (c::cs) ↔ IsDigit c ∧ Starts n cs := by
  unfold Starts
  rw [List.take_succ_cons,List.forall_mem_cons,List.length_cons,Nat.succ_le_succ_iff]
  exact and_left_comm

/-- The bytes that digits spell, high digit first. -/
def decode : List Char → List UInt8
  | a::b::cs => UInt8.ofNat (16 * digit a + digit b)::decode cs
  | _ => []

theorem length_decode (cs : List Char) : (decode cs).length = cs.length / 2 := by
  induction cs using decode.induct with
  | case1 a b cs ih =>
    simp only [decode,List.length_cons,ih]
    omega
  | case2 cs hshort =>
    cases cs with
    | nil => rfl
    | cons a cs =>
      cases cs with
      | nil => simp [decode]
      | cons b cs => exact absurd rfl (hshort a b cs)

theorem toNat_decode {cs : List Char} (hcs : ∀ c ∈ cs, IsDigit c) {j : Nat}
    (hj : 2 * j + 1 < cs.length) (hd : j < (decode cs).length) :
    (decode cs)[j].toNat = 16 * digit cs[2*j] + digit cs[2*j+1] := by
  induction cs using decode.induct generalizing j with
  | case1 a b cs ih =>
    cases j with
    | zero =>
      have ha := digit_lt (hcs a List.mem_cons_self)
      have hb := digit_lt (hcs b (List.mem_cons_of_mem _ List.mem_cons_self))
      simp only [decode,List.getElem_cons_zero,Nat.mul_zero]
      change (16 * digit a + digit b) % 256 = 16 * digit a + digit b
      omega
    | succ j =>
      have hlt : 2 * j + 1 < cs.length := by
        simp only [List.length_cons] at hj
        omega
      have hrest := ih (fun c hc => hcs c (List.mem_cons_of_mem _ (List.mem_cons_of_mem _ hc))) hlt
        (by rw [length_decode]; omega)
      simp only [decode,List.getElem_cons_succ,hrest,Nat.mul_succ]
  | case2 cs hshort =>
    cases cs with
    | nil => simp at hj
    | cons a cs =>
      cases cs with
      | nil =>
        simp only [List.length_cons,List.length_nil] at hj
        omega
      | cons b cs => exact absurd rfl (hshort a b cs)

/-- The digit of a value, in either case. -/
def Writes (n : Nat) (c : Char) : Prop :=
  c = "0123456789abcdef".toList.getD n ' ' ∨ c = "0123456789ABCDEF".toList.getD n ' '

theorem digit_of_writes {n : Nat} {c : Char} (hn : n < 16) (h : Writes n c) :
    IsDigit c ∧ digit c = n := by
  have hall : ∀ n < 16, ∀ text ∈ ["0123456789abcdef","0123456789ABCDEF"],
      IsDigit (text.toList.getD n ' ') ∧ digit (text.toList.getD n ' ') = n := by decide
  rcases h with rfl|rfl
  · exact hall n hn _ (by simp)
  · exact hall n hn _ (by simp)

/-- Bytes in digits, each digit in a case of its own. -/
inductive Renders : List Char → List UInt8 → Prop where
  | nil : Renders [] []
  | cons (a b : Char) (cs : List Char) (byte : UInt8) (bytes : List UInt8)
      (ha : Writes (byte.toNat / 16) a) (hb : Writes (byte.toNat % 16) b)
      (hrest : Renders cs bytes) : Renders (a::b::cs) (byte::bytes)

/-- A rendering consists of digits, two a byte, and is decoded to the bytes. -/
theorem Renders.decode {cs : List Char} {bytes : List UInt8} (h : Renders cs bytes) :
    cs.length = 2 * bytes.length ∧ (∀ c ∈ cs, IsDigit c) ∧ Hex.decode cs = bytes := by
  induction h with
  | nil => exact ⟨rfl,nofun,rfl⟩
  | cons a b cs byte bytes ha hb _ ih =>
    obtain ⟨hlength,hdigits,hdecode⟩ := ih
    have hlt := byte.toNat_lt
    obtain ⟨had,ha⟩ := digit_of_writes (by omega) ha
    obtain ⟨hbd,hb⟩ := digit_of_writes (by omega) hb
    refine ⟨?_,?_,?_⟩
    · simp only [List.length_cons,hlength]
      omega
    · exact List.forall_mem_cons.mpr ⟨had,List.forall_mem_cons.mpr ⟨hbd,hdigits⟩⟩
    · have hbyte : 16 * (byte.toNat / 16) + byte.toNat % 16 = byte.toNat := by omega
      rw [Hex.decode,ha,hb,hbyte,UInt8.ofNat_toNat,hdecode]

end Hex

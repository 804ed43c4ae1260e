import Mathlib.Data.List.Basic
import Mathlib.Data.List.TakeWhile

/-- A JSON document as it is written: members in order and with repetitions, natural numbers, and
any other number as its text. -/
inductive Json where
  | null
  | bool (b : Bool)
  | natural (n : Nat)
  | numeral (text : String)
  | string (s : String)
  | array (items : List Json)
  | object (members : List (String × Json))

namespace Json

/-- Documents of strings, nulls and `u32` numbers, nested at most `n` deep, no name repeated. -/
inductive Plain : Nat → Json → Prop where
  | null (n : Nat) : Plain n .null
  | natural (n : Nat) (x : Nat) (h : x < 4294967296) : Plain n (.natural x)
  | string (n : Nat) (s : String) : Plain n (.string s)
  | array (n : Nat) (vs : List Json) (h : ∀ v ∈ vs, Plain n v) : Plain (n+1) (.array vs)
  | object (n : Nat) (ms : List (String × Json)) (hnames : (ms.map Prod.fst).Nodup)
      (h : ∀ m ∈ ms, Plain n m.2) : Plain (n+1) (.object ms)

def isSpace (c : Char) : Bool := c == ' ' || c == '\n' || c == '\t' || c == '\r'

def skipSpace (cs : List Char) : List Char := cs.dropWhile isSpace

/-! Printing, with two blanks for each level. -/

def hex4 (n : Nat) : List Char :=
  [Nat.digitChar (n / 4096 % 16),Nat.digitChar (n / 256 % 16),Nat.digitChar (n / 16 % 16),
    Nat.digitChar (n % 16)]

def escape (c : Char) : List Char :=
  if c = '"' then ['\\','"']
  else if c = '\\' then ['\\','\\']
  else if c = '\n' then ['\\','n']
  else if c = '\r' then ['\\','r']
  else if c = '\t' then ['\\','t']
  else if c = Char.ofNat 8 then ['\\','b']
  else if c = Char.ofNat 12 then ['\\','f']
  else if c.toNat < 32 then '\\' :: 'u' :: hex4 c.toNat
  else [c]

def quoted (s : String) : List Char := '"'::(s.toList.flatMap escape ++ ['"'])

def newline (depth : Nat) : List Char := '\n'::List.replicate (2 * depth) ' '

mutual

def pretty (depth : Nat) : Json → List Char
  | .null => ['n','u','l','l']
  | .bool true => ['t','r','u','e']
  | .bool false => ['f','a','l','s','e']
  | .natural n => Nat.toDigits 10 n
  | .numeral text => text.toList
  | .string s => quoted s
  | .array [] => ['[',']']
  | .array (v::vs) => '['::(newline (depth + 1) ++ pretty (depth + 1) v ++ moreItems depth vs)
  | .object [] => ['{','}']
  | .object ((name,v)::ms) =>
    '{'::(newline (depth + 1) ++ quoted name ++ ':' :: ' ' :: pretty (depth + 1) v ++
      moreMembers depth ms)

/-- The rest of an array after an item. -/
def moreItems (depth : Nat) : List Json → List Char
  | [] => newline depth ++ [']']
  | v::vs => ','::(newline (depth + 1) ++ pretty (depth + 1) v ++ moreItems depth vs)

/-- The rest of an object after a member. -/
def moreMembers (depth : Nat) : List (String × Json) → List Char
  | [] => newline depth ++ ['}']
  | (name,v)::ms =>
    ','::(newline (depth + 1) ++ quoted name ++ ':' :: ' ' :: pretty (depth + 1) v ++
      moreMembers depth ms)

end

/-! Parsing. The fuel counts steps; a text's length is enough. -/

def hexValue (c : Char) : Option Nat :=
  if c.isDigit then some (c.toNat - 48)
  else if 'a' ≤ c ∧ c ≤ 'f' then some (c.toNat - 87)
  else if 'A' ≤ c ∧ c ≤ 'F' then some (c.toNat - 55)
  else none

def unhex4 (a b c d : Char) : Option Nat := do
  return ((← hexValue a) * 4096 + (← hexValue b) * 256 + (← hexValue c) * 16 + (← hexValue d))

def unescape (c : Char) : Option Char :=
  if c = '"' ∨ c = '\\' ∨ c = '/' then some c
  else if c = 'n' then some '\n'
  else if c = 'r' then some '\r'
  else if c = 't' then some '\t'
  else if c = 'b' then some (Char.ofNat 8)
  else if c = 'f' then some (Char.ofNat 12)
  else none

/-- Code units of a string from after its opening quote, and what follows its closing one. -/
def stringUnits : List Char → Option (List Nat × List Char)
  | [] => none
  | '\\' :: 'u'::a::b::c::d::cs => do
    let unit ← unhex4 a b c d
    let (units,cs) ← stringUnits cs
    return (unit::units,cs)
  | '\\'::c::cs => do
    let c ← unescape c
    let (units,cs) ← stringUnits cs
    return (c.toNat::units,cs)
  | c::cs =>
    if c = '"' then some ([],cs)
    else if c.toNat < 32 then none
    else do
      let (units,cs) ← stringUnits cs
      return (c.toNat::units,cs)

/-- Joins surrogate pairs. A surrogate on its own is refused, in any string of the document: a
reader that passes over members it has no use for may accept it there. -/
def joinUnits : List Nat → Option (List Char)
  | [] => some []
  | [n] => if n.isValidChar then some [Char.ofNat n] else none
  | n::low::ns =>
    if n.isValidChar then (joinUnits (low::ns)).map (Char.ofNat n::·)
    else if n < 56320 ∧ 56320 ≤ low ∧ low < 57344 then
      (joinUnits ns).map (Char.ofNat (65536 + (n - 55296) * 1024 + (low - 56320))::·)
    else none

def stringBody (cs : List Char) : Option (String × List Char) := do
  let (units,cs) ← stringUnits cs
  return (String.ofList (← joinUnits units),cs)

def digits (cs : List Char) : List Char × List Char :=
  (cs.takeWhile Char.isDigit,cs.dropWhile Char.isDigit)

/-- `.` and digits, if there is a `.`. -/
def fraction (cs : List Char) : Option (List Char) :=
  if cs.head? = some '.' then
    let (ds,rest) := digits cs.tail
    if ds = [] then none else some rest
  else some cs

def exponent (cs : List Char) : Option (List Char) :=
  if cs.head? = some 'e' ∨ cs.head? = some 'E' then
    let cs := cs.tail
    let (ds,rest) := digits (if cs.head? = some '+' ∨ cs.head? = some '-' then cs.tail else cs)
    if ds = [] then none else some rest
  else some cs

def number (cs : List Char) : Option (Json × List Char) := do
  let (ds,rest) := digits (if cs.head? = some '-' then cs.tail else cs)
  if ds = [] ∨ (ds.head? = some '0' ∧ 1 < ds.length) then none
  else
    let rest' ← exponent (← fraction rest)
    if cs.head? = some '-' ∨ rest'.length < rest.length then
      return (.numeral (String.ofList (cs.take (cs.length - rest'.length))),rest')
    else return (.natural (Nat.ofDigitChars 10 ds 0),rest')

mutual

def value : Nat → List Char → Option (Json × List Char)
  | 0,_ => none
  | fuel+1,cs =>
    match skipSpace cs with
    | '"'::cs => (stringBody cs).map fun p => (.string p.1,p.2)
    | '['::cs =>
      match skipSpace cs with
      | ']'::cs => some (.array [],cs)
      | _ => (items fuel cs).map fun p => (.array p.1,p.2)
    | '{'::cs =>
      match skipSpace cs with
      | '}'::cs => some (.object [],cs)
      | _ => (members fuel cs).map fun p => (.object p.1,p.2)
    | 'n' :: 'u' :: 'l' :: 'l'::cs => some (.null,cs)
    | 't' :: 'r' :: 'u' :: 'e'::cs => some (.bool true,cs)
    | 'f' :: 'a' :: 'l' :: 's' :: 'e'::cs => some (.bool false,cs)
    | cs => number cs

/-- The items of a non-empty array, and its closing bracket. -/
def items : Nat → List Char → Option (List Json × List Char)
  | 0,_ => none
  | fuel+1,cs => do
    let (v,cs) ← value fuel cs
    match skipSpace cs with
    | ','::cs => (items fuel cs).map fun p => (v::p.1,p.2)
    | ']'::cs => some ([v],cs)
    | _ => none

/-- The members of a non-empty object, and its closing brace. -/
def members : Nat → List Char → Option (List (String × Json) × List Char)
  | 0,_ => none
  | fuel+1,cs =>
    match skipSpace cs with
    | '"'::cs => do
      let (name,cs) ← stringBody cs
      match skipSpace cs with
      | ':'::cs => do
        let (v,cs) ← value fuel cs
        match skipSpace cs with
        | ','::cs => (members fuel cs).map fun p => ((name,v)::p.1,p.2)
        | '}'::cs => some ([(name,v)],cs)
        | _ => none
      | _ => none
    | _ => none

end

/-- One value and nothing but blanks around it. -/
def parse (cs : List Char) : Option Json :=
  match value (cs.length + 1) cs with
  | some (v,rest) => if skipSpace rest = [] then some v else none
  | none => none

/-! What is printed is parsed back. -/

theorem hexValue_digitChar (n : Nat) (h : n < 16) : hexValue (Nat.digitChar n) = some n := by
  have hall : ∀ n < 16, hexValue (Nat.digitChar n) = some n := by decide
  exact hall n h

theorem unhex4_hex4 (n : Nat) (h : n < 65536) :
    unhex4 (Nat.digitChar (n / 4096 % 16)) (Nat.digitChar (n / 256 % 16))
      (Nat.digitChar (n / 16 % 16)) (Nat.digitChar (n % 16)) = some n := by
  have hdigit (m : Nat) := hexValue_digitChar (m % 16) (Nat.mod_lt m (by decide))
  simp only [unhex4,hdigit,Option.bind_eq_bind,Option.bind_some,Option.pure_def,Option.some.injEq]
  omega

theorem stringUnits_escape (c : Char) (cs : List Char) :
    stringUnits (escape c ++ cs) = (stringUnits cs).map fun p => (c.toNat::p.1,p.2) := by
  have hmap (n : Nat) : ((stringUnits cs).bind fun p => some (n::p.1,p.2)) =
      (stringUnits cs).map fun p => (n::p.1,p.2) := by
    cases stringUnits cs <;> rfl
  unfold escape
  by_cases hquote : c = '"'
  · subst hquote; simp [stringUnits,unescape,hmap]
  by_cases hslash : c = '\\'
  · subst hslash; simp [stringUnits,unescape,hmap]
  by_cases hline : c = '\n'
  · subst hline; simp [stringUnits,unescape,hmap]
  by_cases hreturn : c = '\r'
  · subst hreturn; simp [stringUnits,unescape,hmap]
  by_cases htab : c = '\t'
  · subst htab; simp [stringUnits,unescape,hmap]
  by_cases hback : c = Char.ofNat 8
  · subst hback; simp [stringUnits,unescape,hmap]
  by_cases hfeed : c = Char.ofNat 12
  · subst hfeed; simp [stringUnits,unescape,hmap]
  by_cases hcontrol : c.toNat < 32
  · have hunit := unhex4_hex4 c.toNat (by omega)
    simp [hquote,hslash,hline,hreturn,htab,hback,hfeed,hcontrol,hex4,stringUnits,hunit,hmap]
  · simp [hquote,hslash,hline,hreturn,htab,hback,hfeed,hcontrol,stringUnits,hmap]

theorem stringUnits_quoted (s rest : List Char) :
    stringUnits (s.flatMap escape ++ '"'::rest) = some (s.map Char.toNat,rest) := by
  induction s with
  | nil => simp [stringUnits]
  | cons c s ih =>
    rw [List.flatMap_cons,List.append_assoc,stringUnits_escape,ih]
    rfl

theorem joinUnits_toNat (s : List Char) : joinUnits (s.map Char.toNat) = some s := by
  induction s with
  | nil => rfl
  | cons c s ih =>
    have hvalid : c.toNat.isValidChar := c.valid
    cases s with
    | nil => simp [joinUnits,hvalid]
    | cons d s =>
      simp only [List.map_cons] at ih ⊢
      simp [joinUnits,hvalid,ih]

theorem stringBody_quoted (s : String) (rest : List Char) :
    stringBody (s.toList.flatMap escape ++ '"'::rest) = some (s,rest) := by
  simp [stringBody,stringUnits_quoted,joinUnits_toNat]

/-- What may follow a number without becoming part of it. -/
def Stops (rest : List Char) : Prop :=
  ∀ c ∈ rest.head?, c.isDigit = false ∧ c ≠ '.' ∧ c ≠ 'e' ∧ c ≠ 'E'

theorem toDigits_head_ne_zero (n : Nat) (h : 0 < n) : (Nat.toDigits 10 n).head? ≠ some '0' := by
  induction n using Nat.strong_induction_on with
  | _ n ih =>
    rw [Nat.toDigits_eq_if (by decide)]
    split
    · simpa using Nat.ne_of_gt h
    · next hn =>
      have hhead := ih (n / 10) (by omega) (by omega)
      have hne := Nat.toDigits_ne_nil (b := 10) (n := n / 10)
      rwa [List.head?_append_of_ne_nil _ hne]

theorem digits_toDigits (n : Nat) (rest : List Char) (h : Stops rest) :
    digits (Nat.toDigits 10 n ++ rest) = (Nat.toDigits 10 n,rest) := by
  have hdigit : ∀ c ∈ Nat.toDigits 10 n, c.isDigit = true := fun c hc =>
    Nat.isDigit_of_mem_toDigits (by decide) (by decide) hc
  have hstop : rest.takeWhile Char.isDigit = [] ∧ rest.dropWhile Char.isDigit = rest := by
    cases rest with
    | nil => simp
    | cons c cs => simp [(h c rfl).1]
  unfold digits
  rw [List.takeWhile_append_of_pos hdigit,List.dropWhile_append_of_pos hdigit,hstop.1,hstop.2,
    List.append_nil]

theorem number_toDigits (n : Nat) (rest : List Char) (h : Stops rest) :
    number (Nat.toDigits 10 n ++ rest) = some (.natural n,rest) := by
  have hne := Nat.toDigits_ne_nil (b := 10) (n := n)
  have hhead : (Nat.toDigits 10 n ++ rest).head? ≠ some '-' := by
    rw [List.head?_append_of_ne_nil _ hne]
    intro hminus
    have hdigit := Nat.isDigit_of_mem_toDigits (b := 10) (n := n) (by decide) (by decide)
      (List.mem_of_head? hminus)
    cases hdigit
  have hzero : ¬((Nat.toDigits 10 n).head? = some '0' ∧ 1 < (Nat.toDigits 10 n).length) := by
    intro hz
    by_cases hn : n = 0
    · subst hn
      simp at hz
    · exact toDigits_head_ne_zero n (by omega) hz.1
  have hfraction : fraction rest = some rest := by
    unfold fraction
    cases rest with
    | nil => rfl
    | cons c cs => simp [(h c rfl).2.1]
  have hexponent : exponent rest = some rest := by
    unfold exponent
    cases rest with
    | nil => rfl
    | cons c cs => simp [(h c rfl).2.2]
  have hscan := digits_toDigits n rest h
  unfold number
  rw [if_neg hhead,hscan]
  simp only [hne,hzero,hfraction,hhead]
  simp [hexponent,Nat.ofDigitChars_ten_toDigits]

@[simp] theorem skipSpace_newline (depth : Nat) (cs : List Char) :
    skipSpace (newline depth ++ cs) = skipSpace cs := by
  have hblank : ∀ c ∈ newline depth, isSpace c = true := by
    intro c hc
    rcases List.mem_cons.mp hc with rfl|hc
    · rfl
    · rw [List.eq_of_mem_replicate hc]
      rfl
  exact List.dropWhile_append_of_pos hblank

theorem skipSpace_cons {c : Char} (cs : List Char) (h : isSpace c = false) :
    skipSpace (c::cs) = c::cs := by
  simp [skipSpace,h]

/-- Blanks in front of a value do not matter. -/
theorem value_skip (fuel : Nat) (blanks cs : List Char)
    (h : skipSpace (blanks ++ cs) = skipSpace cs) : value fuel (blanks ++ cs) = value fuel cs := by
  cases fuel with
  | zero => rfl
  | succ fuel => simp only [value,h]

theorem skipSpace_digit (c : Char) (cs : List Char) (h : c.isDigit = true) :
    skipSpace (c::cs) = c::cs := by
  have hspace : isSpace c = false := by
    by_contra hne
    simp only [isSpace,Bool.not_eq_false,Bool.or_eq_true,beq_iff_eq] at hne
    rcases hne with ((rfl|rfl)|rfl)|rfl <;> cases h
  exact skipSpace_cons cs hspace

theorem value_digit (fuel : Nat) (c : Char) (cs : List Char) (h : c.isDigit = true) :
    value (fuel + 1) (c::cs) = number (c::cs) := by
  simp only [value]
  rw [skipSpace_digit c cs h]
  split
  case h_7 => rfl
  all_goals
    next heq =>
      injection heq with hc _
      subst hc
      cases h

theorem value_natural (fuel n : Nat) (rest : List Char) (h : Stops rest) :
    value (fuel + 1) (Nat.toDigits 10 n ++ rest) = some (.natural n,rest) := by
  have hnumber := number_toDigits n rest h
  cases hds : Nat.toDigits 10 n with
  | nil => exact absurd hds Nat.toDigits_ne_nil
  | cons c cs =>
    rw [hds] at hnumber
    have hc : c.isDigit = true := by
      apply Nat.isDigit_of_mem_toDigits (b := 10) (n := n) (by decide) (by decide)
      rw [hds]
      exact List.mem_cons_self
    rw [List.cons_append] at hnumber ⊢
    rw [value_digit fuel c _ hc,hnumber]

/-- What a step of the printer leaves to be read: a comma, a line break or nothing. -/
theorem stops_cons {c : Char} {cs : List Char} (h : c = ',' ∨ c = '\n') : Stops (c::cs) := by
  intro d hd
  cases hd
  rcases h with rfl|rfl <;> decide

theorem stops_moreItems (depth : Nat) (vs : List Json) (rest : List Char) :
    Stops (moreItems depth vs ++ rest) := by
  cases vs with
  | nil => rw [moreItems]; exact stops_cons (Or.inr rfl)
  | cons v vs => rw [moreItems]; exact stops_cons (Or.inl rfl)

theorem stops_moreMembers (depth : Nat) (ms : List (String × Json)) (rest : List Char) :
    Stops (moreMembers depth ms ++ rest) := by
  cases ms with
  | nil => rw [moreMembers]; exact stops_cons (Or.inr rfl)
  | cons m ms => rw [moreMembers]; exact stops_cons (Or.inl rfl)

/-- The parser reads `v` back wherever it is printed, given fuel for its text. -/
def Reads (v : Json) : Prop :=
  ∀ depth fuel rest, Stops rest → (pretty depth v).length < fuel →
    value fuel (pretty depth v ++ rest) = some (v,rest)

theorem items_pretty (vs : List Json) (v : Json) (h : ∀ w ∈ v::vs, Reads w) (depth fuel : Nat)
    (rest : List Char)
    (hfuel : (pretty (depth + 1) v).length + (moreItems depth vs).length < fuel) :
    items fuel (newline (depth + 1) ++ (pretty (depth + 1) v ++ (moreItems depth vs ++ rest))) =
      some (v::vs,rest) := by
  induction vs generalizing v fuel with
  | nil =>
    cases fuel with
    | zero => omega
    | succ fuel =>
      have hv := h v (by simp) (depth + 1) fuel (moreItems depth [] ++ rest)
        (stops_moreItems depth [] rest) (by simp [moreItems] at hfuel; omega)
      have hend : skipSpace (moreItems depth [] ++ rest) = ']'::rest := by
        rw [moreItems,List.append_assoc,skipSpace_newline]
        exact skipSpace_cons rest rfl
      simp [items,value_skip fuel _ _ (skipSpace_newline _ _),hv,hend]
  | cons w vs ih =>
    cases fuel with
    | zero => omega
    | succ fuel =>
      have hv := h v (by simp) (depth + 1) fuel (moreItems depth (w::vs) ++ rest)
        (stops_moreItems depth (w::vs) rest) (by simp [moreItems] at hfuel; omega)
      have hmore := ih w (fun u hu => h u (List.mem_cons_of_mem v hu)) fuel
        (by simp [moreItems] at hfuel; omega)
      have hend : skipSpace (moreItems depth (w::vs) ++ rest) = ','::(newline (depth + 1) ++
          (pretty (depth + 1) w ++ (moreItems depth vs ++ rest))) := by
        rw [moreItems,List.cons_append,skipSpace_cons _ rfl]
        simp
      simp [items,value_skip fuel _ _ (skipSpace_newline _ _),hv,hend,hmore]

/-- A member as it is printed, without the line break before it. -/
def prettyMember (depth : Nat) (m : String × Json) : List Char :=
  quoted m.1 ++ ':' :: ' ' :: pretty depth m.2

/-- A member is read up to the comma or brace after its value. -/
theorem members_member (m : String × Json) (h : Reads m.2) (depth fuel : Nat) (tail : List Char)
    (htail : Stops tail) (hfuel : (prettyMember (depth + 1) m).length < fuel + 1) :
    members (fuel + 1) (newline (depth + 1) ++ (prettyMember (depth + 1) m ++ tail)) =
      match skipSpace tail with
      | ','::cs => (members fuel cs).map fun p => (m::p.1,p.2)
      | '}'::cs => some ([m],cs)
      | _ => none := by
  have hquoted : prettyMember (depth + 1) m ++ tail = '"'::(m.1.toList.flatMap escape ++
      '"' :: ':'::([' '] ++ (pretty (depth + 1) m.2 ++ tail))) := by
    simp [prettyMember,quoted]
  have hv := h (depth + 1) fuel tail htail (by simp [prettyMember,quoted] at hfuel; omega)
  have hblank : skipSpace ([' '] ++ (pretty (depth + 1) m.2 ++ tail)) =
      skipSpace (pretty (depth + 1) m.2 ++ tail) := rfl
  rw [hquoted]
  simp only [members,skipSpace_newline]
  rw [skipSpace_cons _ rfl]
  simp only [stringBody_quoted,Option.bind_eq_bind,Option.bind_some]
  rw [skipSpace_cons _ rfl]
  simp only [value_skip fuel [' '] _ hblank,hv,Option.bind_some]

theorem members_pretty (ms : List (String × Json)) (m : String × Json)
    (h : ∀ m' ∈ m::ms, Reads m'.2) (depth fuel : Nat) (rest : List Char)
    (hfuel : (prettyMember (depth + 1) m).length + (moreMembers depth ms).length < fuel) :
    members fuel (newline (depth + 1) ++
      (prettyMember (depth + 1) m ++ (moreMembers depth ms ++ rest))) = some (m::ms,rest) := by
  induction ms generalizing m fuel with
  | nil =>
    cases fuel with
    | zero => omega
    | succ fuel =>
      have hm := members_member m (h m (by simp)) depth fuel _ (stops_moreMembers depth [] rest)
        (by omega)
      have hend : skipSpace (moreMembers depth [] ++ rest) = '}'::rest := by
        rw [moreMembers,List.append_assoc,skipSpace_newline]
        exact skipSpace_cons rest rfl
      simp [hm,hend]
  | cons m' ms ih =>
    cases fuel with
    | zero => omega
    | succ fuel =>
      have hm := members_member m (h m (by simp)) depth fuel _
        (stops_moreMembers depth (m'::ms) rest) (by omega)
      have hsplit : moreMembers depth (m'::ms) = ','::(newline (depth + 1) ++
          (prettyMember (depth + 1) m' ++ moreMembers depth ms)) := by
        simp [moreMembers,prettyMember]
      have hend : skipSpace (moreMembers depth (m'::ms) ++ rest) = ','::(newline (depth + 1) ++
          (prettyMember (depth + 1) m' ++ (moreMembers depth ms ++ rest))) := by
        rw [hsplit,List.cons_append,skipSpace_cons _ rfl]
        simp
      have hmore := ih m' (fun n hn => h n (List.mem_cons_of_mem m hn)) fuel
        (by rw [hsplit] at hfuel; simp at hfuel; omega)
      simp [hm,hend,hmore]

theorem value_items {fuel : Nat} {cs rest : List Char} {vs : List Json}
    (h : items fuel cs = some (vs,rest)) : value (fuel + 1) ('['::cs) = some (.array vs,rest) := by
  have hopen : ∀ cs', skipSpace cs ≠ ']'::cs' := by
    intro cs' hskip
    cases fuel with
    | zero => simp [items] at h
    | succ fuel => cases fuel <;> simp [items,value,hskip,number,digits] at h
  simp only [value]
  rw [skipSpace_cons _ rfl]
  simp [h]

theorem value_members {fuel : Nat} {cs rest : List Char} {ms : List (String × Json)}
    (h : members fuel cs = some (ms,rest)) :
    value (fuel + 1) ('{'::cs) = some (.object ms,rest) := by
  have hopen : ∀ cs', skipSpace cs ≠ '}'::cs' := by
    intro cs' hskip
    cases fuel <;> simp [members,hskip] at h
  simp only [value]
  rw [skipSpace_cons _ rfl]
  simp [h]

/-- Plain documents are read back wherever they are printed. -/
theorem reads_of_plain {n : Nat} {v : Json} (h : Plain n v) : Reads v := by
  induction h with
  | null n =>
    intro depth fuel rest _ hfuel
    cases fuel with
    | zero => omega
    | succ fuel => rfl
  | natural n x _ =>
    intro depth fuel rest hstop hfuel
    cases fuel with
    | zero => omega
    | succ fuel =>
      rw [pretty]
      exact value_natural fuel x rest hstop
  | string n s =>
    intro depth fuel rest _ hfuel
    cases fuel with
    | zero => omega
    | succ fuel =>
      rw [pretty,quoted,List.cons_append,List.append_assoc,List.singleton_append]
      simp only [value]
      rw [skipSpace_cons _ rfl]
      simp [stringBody_quoted]
  | array n vs _ ih =>
    intro depth fuel rest _ hfuel
    cases fuel with
    | zero => omega
    | succ fuel =>
      cases vs with
      | nil => rfl
      | cons v vs =>
        simp only [pretty,List.length_cons,List.length_append] at hfuel
        have hitems := items_pretty vs v ih depth fuel rest (by omega)
        rw [pretty,List.cons_append,List.append_assoc,List.append_assoc]
        exact value_items hitems
  | object n ms _ _ ih =>
    intro depth fuel rest _ hfuel
    cases fuel with
    | zero => omega
    | succ fuel =>
      cases ms with
      | nil => rfl
      | cons m ms =>
        have hsplit : pretty depth (.object (m::ms)) = '{'::(newline (depth + 1) ++
            (prettyMember (depth + 1) m ++ moreMembers depth ms)) := by
          simp [pretty,prettyMember]
        rw [hsplit] at hfuel ⊢
        simp only [List.length_cons,List.length_append] at hfuel
        have hmembers := members_pretty ms m ih depth fuel rest (by omega)
        rw [List.cons_append,List.append_assoc,List.append_assoc]
        exact value_members hmembers

theorem stops_blanks {cs : List Char} (h : ∀ c ∈ cs, isSpace c = true) : Stops cs := by
  intro c hc
  have hspace := h c (List.mem_of_head? hc)
  simp only [isSpace,Bool.or_eq_true,beq_iff_eq] at hspace
  rcases hspace with ((rfl|rfl)|rfl)|rfl <;> decide

/-- Blanks at either end do not matter. -/
theorem parse_pretty {n : Nat} {v : Json} (h : Plain n v) (before after : List Char)
    (hbefore : ∀ c ∈ before, isSpace c = true) (hafter : ∀ c ∈ after, isSpace c = true) :
    parse (before ++ (pretty 0 v ++ after)) = some v := by
  have hskip : skipSpace (before ++ (pretty 0 v ++ after)) = skipSpace (pretty 0 v ++ after) :=
    List.dropWhile_append_of_pos hbefore
  have hend : skipSpace after = [] := List.dropWhile_eq_nil_iff.mpr hafter
  have hvalue := reads_of_plain h 0 ((before ++ (pretty 0 v ++ after)).length + 1) after
    (stops_blanks hafter) (by simp; omega)
  simp only [parse,value_skip _ before _ hskip,hvalue,hend,if_true]

/-- The characters a value can begin with. -/
def startsValue (c : Char) : Bool :=
  c == '"' || c == '[' || c == '{' || c == 'n' || c == 't' || c == 'f' || c == '-' || c.isDigit

theorem number_start {cs rest : List Char} {v : Json} (h : number cs = some (v,rest)) :
    ∃ c ∈ cs.head?, c = '-' ∨ c.isDigit = true := by
  cases cs with
  | nil => simp [number,digits] at h
  | cons c cs =>
    refine ⟨c,rfl,?_⟩
    by_contra hne
    have hminus : c ≠ '-' := fun heq => hne (Or.inl heq)
    have hdigit : c.isDigit = false := by simpa using fun hd => hne (Or.inr hd)
    simp [number,digits,hminus,hdigit] at h

theorem parse_start {cs : List Char} {v : Json} (h : parse cs = some v) :
    ∃ c ∈ (skipSpace cs).head?, startsValue c = true := by
  unfold parse at h
  simp only [value] at h
  split at h
  case h_2 => cases h
  next hvalue =>
  split at hvalue
  case h_7 =>
    obtain ⟨c,hc,hstart⟩ := number_start hvalue
    refine ⟨c,hc,?_⟩
    rcases hstart with rfl|hdigit
    · rfl
    · simp [startsValue,hdigit]
  all_goals
    next hskip =>
      rw [hskip]
      exact ⟨_,rfl,rfl⟩

end Json

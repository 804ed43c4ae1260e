import SorobanRentKeeper.Daemon.LoadConfig

namespace SorobanRentKeeper

/-- Digits of less than 32 bytes: the loop ends early and leaves zeros. -/
def Truncated (wasmHash : String) : Prop :=
  (∀ c ∈ Hex.strip wasmHash.toList, Hex.IsDigit c) ∧
    (Hex.strip wasmHash.toList).length % 2 = 0 ∧ (Hex.strip wasmHash.toList).length < 64

/-- Digits of more than 32 bytes, whatever comes after them: the loop runs past the array. -/
def Overlong (wasmHash : String) : Prop := Hex.Starts 66 (Hex.strip wasmHash.toList)

/-- A single character is refused. -/
theorem fillHash_of_single {cs : List Char} (h : ∀ a b rest, cs = a::b::rest → False)
    (hne : cs ≠ []) (i : Nat) (out : Bytes32) :
    fillHash (Ascii.bytes cs) i out = .error (.failed (.invalidWatch "wasm_hash")) := by
  apply fillHash_of_not_pair hne
  intro hpair
  obtain ⟨a,b,rest,hcs,_⟩ := hpair
  exact h a b rest hcs

/-- The loop accepts digits in pairs, as long as they fit from byte `i` on. -/
theorem fillHash_ok_iff {cs : List Char} {i : Nat} (hi : i ≤ 32) (out : Bytes32) :
    (∃ hash, fillHash (Ascii.bytes cs) i out = .ok hash) ↔
      (∀ c ∈ cs, Hex.IsDigit c) ∧ cs.length % 2 = 0 ∧ i + cs.length / 2 ≤ 32 := by
  constructor
  · intro h
    induction cs using Hex.decode.induct generalizing i out with
    | case1 a b cs ih =>
      obtain ⟨hash,h⟩ := h
      by_cases hpair : Hex.IsDigit a ∧ Hex.IsDigit b
      · rw [fillHash_pair hpair.1 hpair.2] at h
        split at h
        · next hlt =>
          obtain ⟨hcs,heven,hfit⟩ := ih hlt _ ⟨hash,h⟩
          refine ⟨?_,?_,?_⟩
          · exact List.forall_mem_cons.mpr ⟨hpair.1,List.forall_mem_cons.mpr ⟨hpair.2,hcs⟩⟩
          · simp only [List.length_cons]
            omega
          · simp only [List.length_cons]
            omega
        · cases h
      · rw [fillHash_of_not_pair (List.cons_ne_nil _ _) (by simpa using hpair)] at h
        cases h
    | case2 cs hshort =>
      cases cs with
      | nil => exact ⟨List.forall_mem_nil _,rfl,hi⟩
      | cons a cs =>
        obtain ⟨hash,h⟩ := h
        rw [fillHash_of_single hshort (List.cons_ne_nil _ _)] at h
        cases h
  · intro h
    obtain ⟨hcs,heven,hfit⟩ := h
    obtain ⟨hash,hfill,_⟩ := fillHash_digits hcs heven hfit out
    rw [Ascii.bytes_of_ascii fun c hc => (hcs c hc).lt]
    exact ⟨hash,hfill⟩

/-- It panics on one pair of digits more than fits. -/
theorem fillHash_panicked_iff {cs : List Char} {i : Nat} (hi : i ≤ 32) (out : Bytes32) :
    fillHash (Ascii.bytes cs) i out = .error .panicked ↔ Hex.Starts (2 * (32 - i) + 2) cs := by
  induction cs using Hex.decode.induct generalizing i out with
  | case1 a b cs ih =>
    rw [show 2 * (32 - i) + 2 = 2 * (32 - i) + 1 + 1 from rfl,Hex.starts_cons,Hex.starts_cons]
    by_cases hpair : Hex.IsDigit a ∧ Hex.IsDigit b
    · rw [fillHash_pair hpair.1 hpair.2]
      split
      · next hlt =>
        have hleft : 2 * (32 - i) = 2 * (32 - (i + 1)) + 2 := by omega
        rw [ih hlt,hleft]
        simp [hpair.1,hpair.2]
      · next hge =>
        have hleft : 2 * (32 - i) = 0 := by omega
        simp [hpair.1,hpair.2,hleft,Hex.Starts]
    · rw [fillHash_of_not_pair (List.cons_ne_nil _ _) (by simpa using hpair)]
      constructor
      · intro h
        cases h
      · intro h
        exact absurd ⟨h.1,h.2.1⟩ hpair
  | case2 cs hshort =>
    constructor
    · intro h
      cases cs with
      | nil => cases h
      | cons a cs =>
        rw [fillHash_of_single hshort (List.cons_ne_nil _ _)] at h
        cases h
    · intro h
      have hlength := h.1
      cases cs with
      | nil => simp at hlength
      | cons a cs =>
        cases cs with
        | nil => simp at hlength
        | cons b cs => exact absurd rfl (hshort a b cs)

theorem wasmHashBytes_ok_iff (wasmHash : String) :
    (∃ hash, wasmHashBytes wasmHash = .ok hash) ↔
      Hex.Encodes 32 wasmHash.toList ∨ Truncated wasmHash := by
  unfold wasmHashBytes
  rw [utf8_eq,stripHexPrefix_bytes,fillHash_ok_iff (Nat.zero_le 32),Hex.encodes_iff_strip]
  constructor
  · intro h
    obtain ⟨hdigits,heven,hfit⟩ := h
    by_cases hlength : (Hex.strip wasmHash.toList).length = 64
    · exact .inl ⟨hlength,hdigits⟩
    · exact .inr ⟨hdigits,heven,by omega⟩
  · intro h
    rcases h with ⟨hlength,hdigits⟩|⟨hdigits,heven,hshort⟩
    · exact ⟨hdigits,by omega,by omega⟩
    · exact ⟨hdigits,heven,by omega⟩

theorem wasmHashBytes_panicked_iff (wasmHash : String) :
    wasmHashBytes wasmHash = .error .panicked ↔ Overlong wasmHash := by
  unfold wasmHashBytes
  rw [utf8_eq,stripHexPrefix_bytes]
  exact fillHash_panicked_iff (Nat.zero_le 32) _

def IsContract (crates : Crates) (contractId : String) : Prop :=
  ∃ bytes, crates.strkeyFromString contractId = .ok (.contract bytes)

/-- A rule with a hash that runs past the array. -/
def WatchSpec.Overlong : WatchSpec → Prop
  | .contractCode wasmHash => SorobanRentKeeper.Overlong wasmHash
  | _ => False

/-- A rule that is turned down: an id, a key, a durability or a hash that cannot be read. -/
def WatchSpec.Refused (crates : Crates) : WatchSpec → Prop
  | .instance contractId => ¬IsContract crates contractId
  | .dataKey contractId keyXdr durability =>
    ¬IsContract crates contractId ∨ (∀ key, crates.scValFromXdrBase64 keyXdr ≠ .ok key) ∨
      durability ≠ "persistent" ∧ durability ≠ "temporary"
  | .contractCode wasmHash => ¬Hex.Encodes 32 wasmHash.toList ∧ ¬Truncated wasmHash ∧
      ¬SorobanRentKeeper.Overlong wasmHash

theorem contractIdBytes_ok_iff (crates : Crates) (contractId : String) :
    (∃ id, contractIdBytes crates contractId = .ok id) ↔ IsContract crates contractId := by
  constructor
  · intro h
    obtain ⟨id,h⟩ := h
    unfold contractIdBytes at h
    split at h
    · cases h
    · next bytes hstrkey => exact ⟨bytes,hstrkey⟩
    · cases h
  · intro h
    obtain ⟨bytes,hstrkey⟩ := h
    exact ⟨bytes,contractIdBytes_of_contract hstrkey⟩

/-- A rule panics for its hash only. -/
theorem resolveWatchSpec_panicked_iff (crates : Crates) (spec : WatchSpec) :
    resolveWatchSpec crates spec = .error .panicked ↔ spec.Overlong := by
  cases spec with
  | «instance» contractId =>
    constructor
    · intro h
      rcases Program.bind_eq_error h with hid|⟨_,_,h⟩
      · obtain ⟨_,_,heq⟩ := Program.mapError_eq_error hid
        cases heq
      · cases h
    · exact False.elim
  | dataKey contractId keyXdr durability =>
    constructor
    · intro h
      rcases Program.bind_eq_error h with hid|⟨_,_,h⟩
      · obtain ⟨_,_,heq⟩ := Program.mapError_eq_error hid
        cases heq
      rcases Program.bind_eq_error h with hkey|⟨_,_,h⟩
      · obtain ⟨_,_,heq⟩ := Program.mapError_eq_error hkey
        cases heq
      by_cases hpersistent : durability = "persistent"
      · simp only [hpersistent,if_true] at h
        cases h
      · by_cases htemporary : durability = "temporary"
        · simp only [htemporary,if_true] at h
          cases h
        · simp only [hpersistent,htemporary,if_false] at h
          cases h
    · exact False.elim
  | contractCode wasmHash =>
    refine Iff.trans ?_ (wasmHashBytes_panicked_iff wasmHash)
    constructor
    · intro h
      rcases Program.bind_eq_error h with hhash|⟨_,_,h⟩
      · exact hhash
      · cases h
    · intro h
      simp only [resolveWatchSpec,h]
      rfl

/-- Any other rule resolves, unless it is turned down. -/
theorem resolveWatchSpec_ok_iff (crates : Crates) (spec : WatchSpec) :
    (∃ key, resolveWatchSpec crates spec = .ok key) ↔ ¬spec.Refused crates ∧ ¬spec.Overlong := by
  cases spec with
  | «instance» contractId =>
    simp only [WatchSpec.Refused,WatchSpec.Overlong,not_not,not_false_iff,and_true]
    rw [← contractIdBytes_ok_iff]
    constructor
    · intro h
      obtain ⟨key,h⟩ := h
      obtain ⟨id,hid,_⟩ := Program.bind_eq_ok h
      exact ⟨id,Program.mapError_eq_ok hid⟩
    · intro h
      obtain ⟨id,hid⟩ := h
      simp only [resolveWatchSpec,hid]
      exact ⟨_,rfl⟩
  | dataKey contractId keyXdr durability =>
    simp only [WatchSpec.Refused,WatchSpec.Overlong,not_or,not_not,not_forall,not_and,
      not_false_iff,and_true]
    rw [← contractIdBytes_ok_iff]
    constructor
    · intro h
      obtain ⟨key,h⟩ := h
      obtain ⟨id,hid,h⟩ := Program.bind_eq_ok h
      obtain ⟨scVal,hscVal,h⟩ := Program.bind_eq_ok h
      refine ⟨⟨id,Program.mapError_eq_ok hid⟩,⟨scVal,Program.mapError_eq_ok hscVal⟩,?_⟩
      intro hpersistent
      by_contra htemporary
      simp only [hpersistent,htemporary,if_false] at h
      cases h
    · intro h
      obtain ⟨⟨id,hid⟩,⟨scVal,hscVal⟩,hname⟩ := h
      simp only [resolveWatchSpec,hid,hscVal]
      by_cases hpersistent : durability = "persistent"
      · simp only [hpersistent,if_true]
        exact ⟨_,rfl⟩
      · simp only [hname hpersistent,if_true]
        exact ⟨_,rfl⟩
  | contractCode wasmHash =>
    have hresolved : (∃ key, resolveWatchSpec crates (.contractCode wasmHash) = .ok key) ↔
        ∃ hash, wasmHashBytes wasmHash = .ok hash := by
      constructor
      · intro h
        obtain ⟨key,h⟩ := h
        obtain ⟨hash,hhash,_⟩ := Program.bind_eq_ok h
        exact ⟨hash,hhash⟩
      · intro h
        obtain ⟨hash,hhash⟩ := h
        simp only [resolveWatchSpec,hhash]
        exact ⟨_,rfl⟩
    rw [hresolved]
    constructor
    · intro h
      have hnot : ¬SorobanRentKeeper.Overlong wasmHash := by
        intro hoverlong
        obtain ⟨hash,hhash⟩ := h
        rw [(wasmHashBytes_panicked_iff wasmHash).mpr hoverlong] at hhash
        cases hhash
      refine ⟨?_,hnot⟩
      intro hrefused
      rcases (wasmHashBytes_ok_iff wasmHash).mp h with hexact|hshort
      · exact hrefused.1 hexact
      · exact hrefused.2.1 hshort
    · intro h
      rw [wasmHashBytes_ok_iff]
      by_contra hneither
      obtain ⟨hexact,hshort⟩ := not_or.mp hneither
      exact h.1 ⟨hexact,hshort,h.2⟩

/-- What key resolution owes its callers: an answer, and for a hash that is not one, an error. -/
structure StrictlyResolved (crates : Crates) (config : ValidConfig) : Prop where
  total : resolveWatchKeys crates config ≠ .error .panicked
  strict : ∀ wasmHash, .contractCode wasmHash ∈ config.watch → ¬Hex.Encodes 32 wasmHash.toList →
    ∃ text, resolveWatchKeys crates config = .error (.failed (.invalidWatch text))

/-- The hashes the loop mistreats do no harm: an overlong one stands behind a rule that is turned
down, and a truncated one with a rule that is. -/
structure Shielded (crates : Crates) (config : ValidConfig) : Prop where
  overlong : ∀ done wasmHash rest, config.watch = done ++ .contractCode wasmHash::rest →
    Overlong wasmHash → ∃ spec ∈ done, spec.Refused crates
  truncated : ∀ wasmHash, .contractCode wasmHash ∈ config.watch → Truncated wasmHash →
    ∃ spec ∈ config.watch, spec.Refused crates

theorem refused_of_error {crates : Crates} {spec : WatchSpec} {err : KeeperError}
    (h : resolveWatchSpec crates spec = .error (.failed err)) : spec.Refused crates := by
  by_contra hresolves
  by_cases hoverlong : spec.Overlong
  · rw [(resolveWatchSpec_panicked_iff crates spec).mpr hoverlong] at h
    cases h
  · obtain ⟨key,hkey⟩ := (resolveWatchSpec_ok_iff crates spec).mpr ⟨hresolves,hoverlong⟩
    rw [hkey] at h
    cases h

theorem not_encodes_of_truncated {wasmHash : String} (h : Truncated wasmHash) :
    ¬Hex.Encodes 32 wasmHash.toList := by
  intro hexact
  have hlength := ((Hex.encodes_iff_strip 32 _).mp hexact).1
  have hshort := h.2.2
  omega

theorem not_encodes_of_overlong {wasmHash : String} (h : Overlong wasmHash) :
    ¬Hex.Encodes 32 wasmHash.toList := by
  intro hexact
  have hlength := ((Hex.encodes_iff_strip 32 _).mp hexact).1
  have hlong := h.1
  omega

theorem resolves_of_ok {crates : Crates} {config : ValidConfig} {keys : List LedgerKey}
    (h : resolveWatchKeys crates config = .ok keys) :
    ∀ spec ∈ config.watch, ∃ key, resolveWatchSpec crates spec = .ok key :=
  Program.forall₂_left (Program.mapM_eq_ok_iff.mp h) fun key _ _ hkey => ⟨key,hkey⟩

/-- The first of some elements without a property stands at or before any other of them. -/
private theorem first_at_or_before {α : Type} {P : α → Prop} {done rest before after : List α}
    {a b : α} (h : done ++ a::rest = before ++ b::after) (hbefore : ∀ x ∈ before, P x)
    (ha : ¬P a) : b = a ∨ b ∈ done := by
  rcases List.append_eq_append_iff.mp h with ⟨mid,rfl,hmid⟩|⟨mid,rfl,hmid⟩
  · cases mid with
    | nil => exact .inl (List.cons_eq_cons.mp hmid).1.symm
    | cons x mid =>
      obtain ⟨rfl,_⟩ := List.cons_eq_cons.mp hmid
      exact absurd (hbefore a (by simp)) ha
  · cases mid with
    | nil => exact .inl (List.cons_eq_cons.mp hmid).1
    | cons x mid =>
      obtain ⟨rfl,_⟩ := List.cons_eq_cons.mp hmid
      exact .inr (by simp)

/-- Resolution that fails in front of an overlong hash fails at a rule before it. -/
theorem refused_before_overlong {crates : Crates} {config : ValidConfig} {err : KeeperError}
    {done rest : List WatchSpec} {wasmHash : String}
    (hkeys : resolveWatchKeys crates config = .error (.failed err))
    (hwatch : config.watch = done ++ .contractCode wasmHash::rest) (hoverlong : Overlong wasmHash) :
    ∃ spec ∈ done, spec.Refused crates := by
  have hpanic := (resolveWatchSpec_panicked_iff crates (.contractCode wasmHash)).mpr hoverlong
  have hunresolved : ¬∃ key, resolveWatchSpec crates (.contractCode wasmHash) = .ok key := by
    intro hkey
    obtain ⟨key,hkey⟩ := hkey
    rw [hpanic] at hkey
    cases hkey
  obtain ⟨before,spec,after,hsplit,hbefore,hfailed⟩ := Program.mapM_eq_error_iff.mp hkeys
  rw [hwatch] at hsplit
  rcases first_at_or_before hsplit hbefore hunresolved with rfl|hmem
  · rw [hpanic] at hfailed
    cases hfailed
  · exact ⟨spec,hmem,refused_of_error hfailed⟩

/-- A shielded configuration fails before it would panic. -/
theorem Shielded.total {crates : Crates} {config : ValidConfig} (h : Shielded crates config) :
    resolveWatchKeys crates config ≠ .error .panicked := by
  intro hkeys
  obtain ⟨done,spec,rest,hwatch,hdone,hpanic⟩ := Program.mapM_eq_error_iff.mp hkeys
  have hoverlong := (resolveWatchSpec_panicked_iff crates spec).mp hpanic
  cases spec with
  | «instance» contractId => exact hoverlong
  | dataKey contractId keyXdr durability => exact hoverlong
  | contractCode wasmHash =>
    obtain ⟨refused,hmem,hrefused⟩ := h.overlong done wasmHash rest hwatch hoverlong
    exact ((resolveWatchSpec_ok_iff crates refused).mp (hdone refused hmem)).1 hrefused

/-- And it does not resolve with a hash that is not one. -/
theorem Shielded.encodes {crates : Crates} {config : ValidConfig} {keys : List LedgerKey}
    {wasmHash : String} (h : Shielded crates config)
    (hkeys : resolveWatchKeys crates config = .ok keys)
    (hmem : .contractCode wasmHash ∈ config.watch) : Hex.Encodes 32 wasmHash.toList := by
  have hall := resolves_of_ok hkeys
  obtain ⟨_,hkey⟩ := hall (.contractCode wasmHash) hmem
  obtain ⟨hash,hhash,_⟩ := Program.bind_eq_ok hkey
  rcases (wasmHashBytes_ok_iff wasmHash).mp ⟨hash,hhash⟩ with hexact|hshort
  · exact hexact
  · obtain ⟨refused,hin,hrefused⟩ := h.truncated wasmHash hmem hshort
    exact absurd hrefused ((resolveWatchSpec_ok_iff crates refused).mp (hall refused hin)).1

/-- Resolution is total and strict exactly on the configurations whose mistreated hashes are
shielded. -/
theorem resolveWatchKeys_strict_iff (crates : Crates) (config : ValidConfig) :
    StrictlyResolved crates config ↔ Shielded crates config := by
  constructor
  · intro h
    constructor
    · intro done wasmHash rest hwatch hoverlong
      have hnot : ¬Hex.Encodes 32 wasmHash.toList := not_encodes_of_overlong hoverlong
      obtain ⟨text,hkeys⟩ := h.strict wasmHash (by simp [hwatch]) hnot
      exact refused_before_overlong hkeys hwatch hoverlong
    · intro wasmHash hmem hshort
      obtain ⟨text,hkeys⟩ := h.strict wasmHash hmem (not_encodes_of_truncated hshort)
      obtain ⟨spec,hspec,hfailed⟩ := Program.mapM_eq_error hkeys
      exact ⟨spec,hspec,refused_of_error hfailed⟩
  · intro h
    refine ⟨h.total,?_⟩
    intro wasmHash hmem hbad
    cases hkeys : resolveWatchKeys crates config with
    | ok keys => exact absurd (h.encodes hkeys hmem) hbad
    | error fault =>
      cases fault with
      | panicked => exact absurd hkeys h.total
      | failed err =>
        obtain ⟨text,rfl⟩ := resolveWatchKeys_error hkeys
        exact ⟨text,rfl⟩

/-- Two bytes where 32 belong. -/
def shortConfig : ValidConfig := { sampleConfig with watch := [.contractCode "aabb"] }

/-- 33 bytes. -/
def longConfig : ValidConfig :=
  { sampleConfig with watch :=
      [.contractCode "aabb00112233445566778899aabbccddeeff00112233445566778899aabbccddee"] }

/-- The two bytes are taken for a hash, the 33 end in a panic. -/
theorem resolveWatchKeys_not_strict : ¬StrictlyResolved sampleCrates shortConfig ∧
    ¬StrictlyResolved sampleCrates longConfig := by
  constructor
  · intro h
    have hshort : Truncated "aabb" := ⟨Hex.digits_of_all (by decide),by decide,by decide⟩
    obtain ⟨text,herr⟩ := h.strict "aabb" (List.mem_singleton.mpr rfl)
      (not_encodes_of_truncated hshort)
    have hok : (resolveWatchKeys sampleCrates shortConfig).toOption.isSome = true := by
      decide +kernel
    obtain ⟨keys,hkeys⟩ := Program.exists_eq_ok_of_isSome hok
    rw [hkeys] at herr
    cases herr
  · intro h
    apply h.total
    apply Program.mapM_eq_error_iff.mpr
    refine ⟨[],_,[],rfl,nofun,(resolveWatchSpec_panicked_iff _ _).mpr ?_⟩
    exact ⟨by decide +kernel,Hex.digits_of_all (by decide +kernel)⟩

end SorobanRentKeeper

import SorobanRentKeeper.Core.Observe
import SorobanRentKeeper.Core.Planner
import SorobanRentKeeper.Framework.LastWrite

namespace SorobanRentKeeper

open Program

variable {σ : Type}

/-- The verdict an observed state stands for; an entry without TTL has none. -/
def EntryState.verdict : EntryState → Option TtlVerdict
  | .live ttl => ttl.ttlLedgers.map .live
  | .expiredButPresent _ => some .expired
  | .archived _ => none

/-- Different keys of some have different encodings. -/
def Crates.EncodesApart (crates : Crates) (involved : LedgerKey → Prop) : Prop :=
  ∀ a b bytes, involved a → involved b → crates.keyToXdr a = .ok bytes →
    crates.keyToXdr b = .ok bytes → a = b

/-- SHA-256 has no collision on the encodings of some keys. -/
def Crates.NoCollision (crates : Crates) (involved : LedgerKey → Prop) : Prop :=
  ∀ a b x y, involved a → involved b → crates.keyToXdr a = .ok x → crates.keyToXdr b = .ok y →
    crates.sha256 x = crates.sha256 y → x = y

namespace Provider

/-- The key of a row's entry. -/
def rowKey (crates : Crates) (row : LedgerEntryRow) : Option LedgerKey :=
  (crates.entryKeyFromXdrBase64 row.xdr).toOption

def keyHash (crates : Crates) (key : LedgerKey) : Option Bytes32 :=
  (crates.keyToXdr key).toOption.map crates.sha256

/-- What the rows say, key by key. -/
def rowUpdates (crates : Crates) (rows : List LedgerEntryRow) :
    List (Option LedgerKey × Option UInt32) :=
  rows.map fun row => (rowKey crates row,row.liveUntilLedgerSeq)

/-- What the rows say, hash by hash. -/
def hashUpdates (crates : Crates) (rows : List LedgerEntryRow) :
    List (Option Bytes32 × Option UInt32) :=
  (rowUpdates crates rows).map fun u => (u.1.bind (keyHash crates),u.2)

/-- The last `live_until` that rows give for a key. -/
def lastLive (crates : Crates) (rows : List LedgerEntryRow) (key : LedgerKey) : Option UInt32 :=
  LastWrite.last (rowUpdates crates rows) (some key)

/-- The index answers a hash with the last `live_until` given under it. -/
theorem indexRows_apply {crates : Crates} {rows : List LedgerEntryRow} {index out : LiveIndex}
    (h : indexRows crates rows index = .ok out) (hash : Bytes32) :
    out hash = (LastWrite.last (hashUpdates crates rows) (some hash)).or (index hash) := by
  induction rows generalizing index with
  | nil =>
    cases h
    rfl
  | cons row rows ih =>
    obtain ⟨key,hkey,h⟩ := bind_eq_ok h
    obtain ⟨bytes,hbytes,h⟩ := bind_eq_ok h
    have hrow : (rowKey crates row).bind (keyHash crates) = some (crates.sha256 bytes) := by
      simp [rowKey,keyHash,mapError_eq_ok hkey,mapError_eq_ok hbytes,Except.toOption]
    have hcons : hashUpdates crates (row::rows) =
        (some (crates.sha256 bytes),row.liveUntilLedgerSeq)::hashUpdates crates rows := by
      simp [hashUpdates,rowUpdates,hrow]
    rw [hcons,LastWrite.last_cons,Option.or_assoc]
    cases hlive : row.liveUntilLedgerSeq with
    | none =>
      rw [hlive] at h
      rw [ih h]
      simp
    | some live =>
      rw [hlive] at h
      rw [ih h,LiveIndex.insert]
      by_cases heq : crates.sha256 bytes = hash
      · simp [heq]
      · have hne : ¬hash = crates.sha256 bytes := fun h => heq h.symm
        simp [heq,hne]

/-- What a reply says of a key, in terms of its rows. -/
theorem Reported.of_rows {crates : Crates} {response : GetLedgerEntriesResponse}
    {key : LedgerKey} {o : Observation} (h : Reported crates response key o) :
    ∃ hash, keyHash crates key = some hash ∧ o = observation (latestLedger response.latestLedger)
      (LastWrite.last (hashUpdates crates (response.entries.getD [])) (some hash)) := by
  obtain ⟨index,bytes,hindex,hbytes,rfl⟩ := h
  refine ⟨crates.sha256 bytes,by simp [keyHash,hbytes,Except.toOption],?_⟩
  rw [indexRows_apply hindex,Option.or_none]

theorem keyHash_inj {crates : Crates} {involved : LedgerKey → Prop}
    (hxdr : crates.EncodesApart involved) (hsha : crates.NoCollision involved) {a b : LedgerKey}
    (ha : involved a) (hb : involved b) {hash : Bytes32} (hash_a : keyHash crates a = some hash)
    (hash_b : keyHash crates b = some hash) : a = b := by
  unfold keyHash at hash_a hash_b
  cases hx : crates.keyToXdr a with
  | error e => simp [hx,Except.toOption] at hash_a
  | ok x =>
    cases hy : crates.keyToXdr b with
    | error e => simp [hy,Except.toOption] at hash_b
    | ok y =>
      simp only [hx,hy,Except.toOption,Option.map_some,Option.some.injEq] at hash_a hash_b
      have hxy := hsha a b x y ha hb hx hy (hash_a.trans hash_b.symm)
      rw [hxy] at hx
      exact hxdr a b y ha hb hx hy

/-- Without collisions the hashes tell the rows of a key from the others. -/
theorem last_hashUpdates {crates : Crates} {involved : LedgerKey → Prop}
    (hxdr : crates.EncodesApart involved) (hsha : crates.NoCollision involved)
    {rows : List LedgerEntryRow}
    (hrows : ∀ row ∈ rows, ∀ key, rowKey crates row = some key → involved key)
    {key : LedgerKey} (hkey : involved key) {hash : Bytes32}
    (hhash : keyHash crates key = some hash) :
    LastWrite.last (hashUpdates crates rows) (some hash) = lastLive crates rows key := by
  unfold lastLive hashUpdates
  have hsome : some hash = (some key).bind (keyHash crates) := by simp [hhash]
  rw [hsome]
  apply LastWrite.last_map (f := fun k : Option LedgerKey => k.bind (keyHash crates))
  intro u hu heq
  obtain ⟨row,hrow,rfl⟩ := List.mem_map.mp hu
  cases hk : rowKey crates row with
  | none => simp [hk,hhash] at heq
  | some k =>
    simp only [hk,Option.bind_some,hhash] at heq
    rw [keyHash_inj hxdr hsha (hrows row hrow k hk) hkey heq hhash]

/-- The row of a requested key, by what the reply gives for it. -/
inductive Matched (crates : Crates) (rows : List LedgerEntryRow) (latest : UInt32)
    (key : LedgerKey) : Observation → Prop where
  | live (v : UInt32) (hlast : lastLive crates rows key = some v) (hlater : latest < v) :
      Matched crates rows latest key ⟨latest,.live ⟨latest,some v⟩⟩
  | expired (v : UInt32) (hlast : lastLive crates rows key = some v) (hpassed : v ≤ latest) :
      Matched crates rows latest key ⟨latest,.expiredButPresent ⟨latest,false⟩⟩
  | archived (hnone : lastLive crates rows key = none) :
      Matched crates rows latest key ⟨latest,.archived ⟨latest,true⟩⟩

theorem matched_observation (crates : Crates) (rows : List LedgerEntryRow) (latest : UInt32)
    (key : LedgerKey) :
    Matched crates rows latest key (observation latest (lastLive crates rows key)) := by
  cases hlast : lastLive crates rows key with
  | none => exact .archived hlast
  | some v =>
    unfold observation
    by_cases hlater : latest < v
    · simp only [hlater,if_true]
      exact .live v hlast hlater
    · simp only [hlater,if_false]
      exact .expired v hlast (UInt32.not_lt.mp hlater)

/-- An observed row says what classifying the TTL entry of its key would say. -/
theorem Matched.verdict {crates : Crates} {rows : List LedgerEntryRow} {latest : UInt32}
    {key : LedgerKey} {o : Observation} (h : Matched crates rows latest key o)
    (hash : Bytes32) : o.entry.verdict =
      (lastLive crates rows key).map fun v => Planner.classifyTtlEntry ⟨hash,v⟩ latest := by
  cases h with
  | live v hlast hlater =>
    have hle : ¬v ≤ latest := UInt32.not_le.mpr hlater
    simp [EntryState.verdict,EntryTtl.ttlLedgers,Planner.classifyTtlEntry,hlast,hle]
  | expired v hlast hpassed =>
    simp [EntryState.verdict,Planner.classifyTtlEntry,hlast,hpassed]
  | archived hnone => simp [EntryState.verdict,hnone]

/-- A reply of the node's latest ledger whose rows decode, to keys among those involved. -/
structure Reply (crates : Crates) (involved : LedgerKey → Prop) (latest : UInt32)
    (response : GetLedgerEntriesResponse) : Prop where
  fits : response.latestLedger.toInt = latest.toNat
  readable : RowsReadable crates (response.entries.getD [])
  rows : ∀ row ∈ response.entries.getD [], ∀ key, rowKey crates row = some key → involved key

theorem Reply.latestLedger {crates : Crates} {involved : LedgerKey → Prop} {latest : UInt32}
    {response : GetLedgerEntriesResponse} (h : Reply crates involved latest response) :
    latestLedger response.latestLedger = latest := by
  have hlt := latest.toNat_lt
  have hfits := h.fits
  unfold Provider.latestLedger
  rw [if_pos ⟨by omega,by omega⟩,hfits]
  simp

/-- Reading such a reply gives each key the row the reply has for it. -/
theorem readChunk_eq {crates : Crates} {involved : LedgerKey → Prop}
    (hxdr : crates.EncodesApart involved) (hsha : crates.NoCollision involved)
    {keys : List LedgerKey} (hencode : KeysEncodable crates keys)
    (hkeys : ∀ key ∈ keys, involved key) {latest : UInt32} {response : GetLedgerEntriesResponse}
    (h : Reply crates involved latest response) :
    readChunk crates keys response =
      .ok (keys.map fun key =>
        observation latest (lastLive crates (response.entries.getD []) key)) := by
  obtain ⟨out,hread⟩ := (readChunk_iff crates keys response).mpr ⟨h.readable,hencode⟩
  have hreported := (List.forall₂_and_left keys out).mpr ⟨hkeys,readChunk_ok hread⟩
  have heq : List.Forall₂ (fun key o =>
      observation latest (lastLive crates (response.entries.getD []) key) = o) keys out := by
    apply hreported.imp
    intro key o hko
    obtain ⟨hash,hhash,ho⟩ := hko.2.of_rows
    rw [ho,h.latestLedger,last_hashUpdates hxdr hsha h.rows hko.1 hhash]
  rw [← List.forall₂_map_left_iff (R := (· = ·)),List.forall₂_eq_eq_eq] at heq
  rw [hread,heq]

theorem observeChunk_of_readChunk {crates : Crates} {node : Node σ} {keys : List LedgerKey}
    {w : World σ} {response : GetLedgerEntriesResponse} {n : σ} {out : List Observation}
    (hreply : node.getLedgerEntries keys w.node = (.ok response,n))
    (hread : readChunk crates keys response = .ok out) :
    observeChunk crates node keys w =
      .ok out ⟨n,w.sequence,w.log ++ [.ledgerEntries keys (.ok response)]⟩ := by
  unfold observeChunk
  rw [bind_of_ok _ (call_ok _ _ hreply),hread]
  rfl

/-- A reply that names each key at most once. -/
def NamesOnce (crates : Crates) (rows : List LedgerEntryRow) : Prop :=
  (rows.map (rowKey crates)).Nodup

/-- Its rows may come in any order. -/
theorem lastLive_perm {crates : Crates} {rows rows' : List LedgerEntryRow} (h : rows.Perm rows')
    (honce : NamesOnce crates rows) (key : LedgerKey) :
    lastLive crates rows key = lastLive crates rows' key := by
  refine LastWrite.last_perm (h.map _) ?_ (some key)
  rw [List.map_map]
  exact honce

/-- A node that answers all requests from one ledger state, in which a key has no entry, or one
with or without a `live_until`: a reply shows the entries of the requested keys, and no row says
anything else than the state. -/
structure AnswersFrom (crates : Crates) (node : Node σ) (involved : LedgerKey → Prop)
    (latest : UInt32) (state : LedgerKey → Option (Option UInt32)) : Prop where
  answers : ∀ keys s, ∃ response n, node.getLedgerEntries keys s = (.ok response,n) ∧
    Reply crates involved latest response ∧
    (∀ row ∈ response.entries.getD [], ∀ key, rowKey crates row = some key →
      state key = some row.liveUntilLedgerSeq) ∧
    ∀ key ∈ keys, state key ≠ none →
      ∃ row ∈ response.entries.getD [], rowKey crates row = some key

/-- Asked for in whatever company, a key gets the row of its entry. -/
theorem lastLive_of_state {crates : Crates} {rows : List LedgerEntryRow}
    {state : LedgerKey → Option (Option UInt32)} {key : LedgerKey}
    (htrue : ∀ row ∈ rows, rowKey crates row = some key → state key = some row.liveUntilLedgerSeq)
    (hshown : state key ≠ none → ∃ row ∈ rows, rowKey crates row = some key) :
    lastLive crates rows key = (state key).join := by
  refine LastWrite.last_of_agree ?_ ?_
  · intro u hu hk
    obtain ⟨row,hrow,rfl⟩ := List.mem_map.mp hu
    rw [htrue row hrow hk]
    rfl
  · intro hsome
    have hpresent : state key ≠ none := by
      intro hnone
      rw [hnone] at hsome
      exact hsome rfl
    obtain ⟨row,hrow,hk⟩ := hshown hpresent
    exact ⟨_,List.mem_map_of_mem hrow,hk⟩

theorem observeChunk_of_state {crates : Crates} {node : Node σ} {involved : LedgerKey → Prop}
    (hxdr : crates.EncodesApart involved) (hsha : crates.NoCollision involved) {latest : UInt32}
    {state : LedgerKey → Option (Option UInt32)}
    (hnode : AnswersFrom crates node involved latest state) {keys : List LedgerKey}
    (hencode : KeysEncodable crates keys) (hkeys : ∀ key ∈ keys, involved key) (w : World σ) :
    ∃ t, observeChunk crates node keys w =
      .ok (keys.map fun key => observation latest (state key).join) t := by
  obtain ⟨response,n,hreply,hgood,htrue,hshown⟩ := hnode.answers keys w.node
  have hread := readChunk_eq hxdr hsha hencode hkeys hgood
  have hrows : ∀ key ∈ keys,
      observation latest (lastLive crates (response.entries.getD []) key) =
        observation latest (state key).join := by
    intro key hkey
    rw [lastLive_of_state (fun row hrow hk => htrue row hrow key hk) (hshown key hkey)]
  rw [List.map_congr_left hrows] at hread
  exact ⟨_,observeChunk_of_readChunk hreply hread⟩

/-- Observing chunk by chunk is observing each key for itself, where the node answers alike. -/
theorem observeEntries_of_chunks {crates : Crates} {node : Node σ} {P : LedgerKey → Prop}
    {f : LedgerKey → Observation}
    (hchunk : ∀ chunk, (∀ key ∈ chunk, P key) → ∀ w : World σ,
      ∃ t, observeChunk crates node chunk w = .ok (chunk.map f) t)
    {keys : List LedgerKey} (hkeys : ∀ key ∈ keys, P key) (w : World σ) :
    ∃ t, observeEntries crates node keys w = .ok (keys.map f) t := by
  have hfold : ∀ (chunks : List (List LedgerKey)) (out : List Observation) (w : World σ),
      (∀ key ∈ chunks.flatten, P key) →
      ∃ t, chunks.foldlM (m := EStateM RentkeeperError (World σ)) (fun out chunk => do
        let chunkObservations ← observeChunk crates node chunk
        return out ++ chunkObservations) out w = .ok (out ++ chunks.flatten.map f) t := by
    intro chunks
    induction chunks with
    | nil =>
      intro out w _
      exact ⟨w,by simp [pure,EStateM.pure]⟩
    | cons chunk chunks ih =>
      intro out w hall
      rw [List.flatten_cons,List.forall_mem_append] at hall
      obtain ⟨t,hread⟩ := hchunk chunk hall.1 w
      obtain ⟨u,hrest⟩ := ih (out ++ chunk.map f) t hall.2
      refine ⟨u,?_⟩
      rw [List.flatten_cons,List.map_append,← List.append_assoc,← hrest,List.foldlM_cons]
      exact bind_of_ok _ (by rw [bind_of_ok _ hread]; rfl)
  have hflat := Chunks.flatten_toChunks observeBatchEntries keys
  obtain ⟨t,ht⟩ := hfold (keys.toChunks observeBatchEntries) [] w (by rwa [hflat])
  rw [hflat,List.nil_append] at ht
  exact ⟨t,ht⟩

/-- Each requested key gets the row the reply has for it, whatever the order of the rows, and a
list of any length is observed in chunks as it would be at once. -/
theorem observe_matches (crates : Crates) (node : Node σ) (involved : LedgerKey → Prop)
    (latest : UInt32) (keys : List LedgerKey) (hxdr : crates.EncodesApart involved)
    (hsha : crates.NoCollision involved) (hencode : KeysEncodable crates keys)
    (hkeys : ∀ key ∈ keys, involved key) :
    (∀ w response n, node.getLedgerEntries keys w.node = (.ok response,n) →
      Reply crates involved latest response →
      ∃ out t, observeChunk crates node keys w = .ok out t ∧
        List.Forall₂ (Matched crates (response.entries.getD []) latest) keys out ∧
        (∀ hash, List.Forall₂ (fun key o => o.entry.verdict =
          (lastLive crates (response.entries.getD []) key).map fun v =>
            Planner.classifyTtlEntry ⟨hash,v⟩ latest) keys out) ∧
        ∀ w' rows n', node.getLedgerEntries keys w'.node =
            (.ok ⟨some rows,response.latestLedger⟩,n') →
          rows.Perm (response.entries.getD []) → NamesOnce crates rows →
          ∃ t', observeChunk crates node keys w' = .ok out t') ∧
    ∀ state, AnswersFrom crates node involved latest state → ∀ w,
      ∃ out t t', observeEntries crates node keys w = .ok out t ∧
        observeChunk crates node keys w = .ok out t' := by
  constructor
  · intro w response n hreply hgood
    have hread := readChunk_eq hxdr hsha hencode hkeys hgood
    have hmatched : List.Forall₂ (Matched crates (response.entries.getD []) latest) keys
        (keys.map fun key =>
          observation latest (lastLive crates (response.entries.getD []) key)) := by
      rw [List.forall₂_map_right_iff,List.forall₂_same]
      exact fun key _ => matched_observation crates _ latest key
    refine ⟨_,_,observeChunk_of_readChunk hreply hread,hmatched,?_,?_⟩
    · intro hash
      exact hmatched.imp fun _ _ h => h.verdict hash
    · intro w' rows n' hreply' hperm honce
      have hgood' : Reply crates involved latest ⟨some rows,response.latestLedger⟩ := by
        refine ⟨hgood.fits,?_,?_⟩
        · intro row hrow
          exact hgood.readable row (hperm.mem_iff.mp hrow)
        · intro row hrow
          exact hgood.rows row (hperm.mem_iff.mp hrow)
      have hread' := readChunk_eq hxdr hsha hencode hkeys hgood'
      have hsame : ∀ key, lastLive crates rows key =
          lastLive crates (response.entries.getD []) key := lastLive_perm hperm honce
      simp only [Option.getD_some,hsame] at hread'
      exact ⟨_,observeChunk_of_readChunk hreply' hread'⟩
  · intro state hnode w
    have hchunk : ∀ chunk, (∀ key ∈ chunk, involved key ∧
        ∃ keyXdr, crates.keyToXdr key = .ok keyXdr) → ∀ w : World σ,
        ∃ t, observeChunk crates node chunk w =
          .ok (chunk.map fun key => observation latest (state key).join) t := by
      intro chunk hall w
      exact observeChunk_of_state hxdr hsha hnode (fun key hkey => (hall key hkey).2)
        (fun key hkey => (hall key hkey).1) w
    have hall : ∀ key ∈ keys, involved key ∧ ∃ keyXdr, crates.keyToXdr key = .ok keyXdr :=
      fun key hkey => ⟨hkeys key hkey,hencode key hkey⟩
    obtain ⟨t,ht⟩ := observeEntries_of_chunks hchunk hall w
    obtain ⟨t',ht'⟩ := hchunk keys hall w
    exact ⟨_,t,t',ht,ht'⟩

def codeRow : LedgerEntryRow :=
  ⟨"AAAABwAAAAAAAAAAAAAAAAAAAAAAAAAAAAAAAAAAAAAAAAAAAAAAAAAAAAA=",some 150⟩

/-- A node whose ledger, at 100, holds the code entry until 150, and nothing else. -/
def codeNode : Node Unit where
  getNetwork s := (.ok "Test SDF Network ; September 2015",s)
  getLedgerEntries keys s := (.ok ⟨some (if codeKey ∈ keys then [codeRow] else []),100⟩,s)
  getAccount _ s := (.error "no reply",s)
  simulateTransaction _ s := (.error "no reply",s)
  sendTransaction _ s := (.error "no reply",s)

def codeState (key : LedgerKey) : Option (Option UInt32) :=
  if key = codeKey then some (some 150) else none

/-- The two sample entries. -/
def IsSample (key : LedgerKey) : Prop := key = codeKey ∨ key = dataKey

theorem encodesApart_isSample : sampleCrates.EncodesApart IsSample := by
  intro a b bytes ha hb hx hy
  rcases ha with rfl|rfl <;> rcases hb with rfl|rfl
  · rfl
  · exact absurd (Except.ok.inj (hx.trans hy.symm)) (by decide)
  · exact absurd (Except.ok.inj (hx.trans hy.symm)) (by decide)
  · rfl

theorem noCollision_isSample : sampleCrates.NoCollision IsSample := by
  intro a b x y ha hb hx hy hsame
  cases hx
  cases hy
  rcases ha with rfl|rfl <;> rcases hb with rfl|rfl
  · rfl
  · exact absurd hsame (by decide)
  · exact absurd hsame (by decide)
  · rfl

theorem rowKey_codeRow : rowKey sampleCrates codeRow = some codeKey := by decide +kernel

theorem answersFrom_codeNode :
    AnswersFrom sampleCrates codeNode IsSample 100 codeState := by
  constructor
  intro keys s
  have hrows : ∀ row ∈ if codeKey ∈ keys then [codeRow] else [], row = codeRow := by
    split_ifs <;> simp
  refine ⟨_,_,rfl,⟨rfl,?_,?_⟩,?_,?_⟩
  · intro row hrow
    rw [hrows row hrow]
    exact ⟨codeKey,codeKey.xdr,by decide +kernel,rfl⟩
  · intro row hrow key hkey
    rw [hrows row hrow,rowKey_codeRow] at hkey
    exact .inl (Option.some.inj hkey).symm
  · intro row hrow key hkey
    rw [hrows row hrow,rowKey_codeRow] at hkey
    cases hkey
    rw [hrows row hrow]
    rfl
  · intro key hkey hpresent
    have hcode : key = codeKey := by
      by_contra hne
      exact hpresent (if_neg hne)
    subst hcode
    exact ⟨codeRow,by simp [hkey],rowKey_codeRow⟩

theorem observe_matches_codeNode :
    (∃ out t, observeChunk sampleCrates codeNode [codeKey,dataKey,codeKey] ⟨(),none,[]⟩ =
        .ok out t ∧
      List.Forall₂ (Matched sampleCrates [codeRow] 100) [codeKey,dataKey,codeKey] out) ∧
    ∃ out t t',
      observeEntries sampleCrates codeNode [codeKey,dataKey,codeKey] ⟨(),none,[]⟩ = .ok out t ∧
      observeChunk sampleCrates codeNode [codeKey,dataKey,codeKey] ⟨(),none,[]⟩ = .ok out t' := by
  have h := observe_matches sampleCrates codeNode IsSample 100 [codeKey,dataKey,codeKey]
    encodesApart_isSample noCollision_isSample (fun key _ => ⟨key.xdr,rfl⟩)
    (by simp [IsSample])
  obtain ⟨response,n,hreply,hgood,_⟩ :=
    answersFrom_codeNode.answers [codeKey,dataKey,codeKey] ()
  constructor
  · have hresponse : response = ⟨some [codeRow],100⟩ := (Except.ok.inj (Prod.mk.inj hreply).1).symm
    obtain ⟨out,t,hout,hmatched,_⟩ := h.1 ⟨(),none,[]⟩ response n hreply hgood
    rw [hresponse] at hmatched
    exact ⟨out,t,hout,hmatched⟩
  · exact h.2 codeState answersFrom_codeNode ⟨(),none,[]⟩

end Provider

end SorobanRentKeeper

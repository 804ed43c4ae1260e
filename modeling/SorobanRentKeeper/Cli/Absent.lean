import SorobanRentKeeper.Cli.Command
import SorobanRentKeeper.Core.Join

namespace SorobanRentKeeper

open Program

variable {σ : Type}

namespace Provider

/-- The requested keys of some chunks, each with the reply to its chunk. -/
def byReply (chunks : List (List LedgerKey)) (replies : List GetLedgerEntriesResponse) :
    List (LedgerKey × GetLedgerEntriesResponse) :=
  (chunks.zip replies).flatMap fun c => c.1.map fun key => (key,c.2)

/-- The requests a log of `observe_entries` consists of. -/
def requests (chunks : List (List LedgerKey)) (replies : List GetLedgerEntriesResponse) :
    List Event :=
  List.zipWith (fun chunk response => .ledgerEntries chunk (.ok response)) chunks replies

theorem byReply_append {chunks : List (List LedgerKey)} {replies : List GetLedgerEntriesResponse}
    (h : chunks.length = replies.length) (chunk : List LedgerKey)
    (response : GetLedgerEntriesResponse) :
    byReply (chunks ++ [chunk]) (replies ++ [response]) =
      byReply chunks replies ++ chunk.map fun key => (key,response) := by
  simp [byReply,List.zip_append h]

theorem observeChunk_replied (crates : Crates) (node : Node σ) (keys : List LedgerKey)
    (w : World σ) :
    Traced World.log (observeChunk crates node keys) w
      (fun out d _ => ∃ response, d = [.ledgerEntries keys (.ok response)] ∧
        List.Forall₂ (Reported crates response) keys out)
      (fun _ _ _ => True) := by
  unfold observeChunk
  refine Traced.bind (call_traced _ _ _ w) ?_ (fun _ _ _ _ => trivial)
  intro response d t h
  obtain ⟨_,_,rfl⟩ := h
  refine traced_ofExcept ?_ (fun _ _ => trivial)
  intro out hread
  exact ⟨response,rfl,readChunk_ok hread⟩

/-- What `observe_entries` returned was read chunk by chunk, each key from the reply to its own
chunk. -/
theorem observeEntries_replied {crates : Crates} {node : Node σ} {keys : List LedgerKey}
    {w t : World σ} {out : List Observation}
    (h : observeEntries crates node keys w = .ok out t) :
    ∃ replies, (keys.toChunks observeBatchEntries).length = replies.length ∧
      t.log = w.log ++ requests (keys.toChunks observeBatchEntries) replies ∧
      List.Forall₂ (fun x o => Reported crates x.2 x.1 o)
        (byReply (keys.toChunks observeBatchEntries) replies) out := by
  have hloop : Traced World.log (observeEntries crates node keys) w
      (fun out d _ => ∃ replies, (keys.toChunks observeBatchEntries).length = replies.length ∧
        d = requests (keys.toChunks observeBatchEntries) replies ∧
        List.Forall₂ (fun x o => Reported crates x.2 x.1 o)
          (byReply (keys.toChunks observeBatchEntries) replies) out)
      (fun _ _ _ => True) := by
    unfold observeEntries
    refine Traced.foldlM
      (I := fun done out d _ => ∃ replies, done.length = replies.length ∧
        d = requests done replies ∧
        List.Forall₂ (fun x o => Reported crates x.2 x.1 o) (byReply done replies) out)
      _ [] w ⟨[],rfl,rfl,.nil⟩ ?_
    intro done chunk rest out d t _ hI
    obtain ⟨replies,hlen,rfl,hout⟩ := hI
    refine Traced.bind (observeChunk_replied crates node chunk t) ?_ (fun _ _ _ _ => trivial)
    intro chunkOut d' u h
    obtain ⟨response,rfl,hread⟩ := h
    refine traced_pure ⟨replies ++ [response],by simp [hlen],?_,?_⟩
    · rw [List.append_nil,requests,requests,List.zipWith_append hlen]
      rfl
    · rw [byReply_append hlen]
      refine List.rel_append hout ?_
      rw [List.forall₂_map_left_iff]
      exact hread
  obtain ⟨d,hlog,replies,hlen,rfl,hout⟩ := hloop.ok h
  exact ⟨replies,hlen,hlog,hout⟩

/-- The reply has an entry for the key. -/
def Names (crates : Crates) (response : GetLedgerEntriesResponse) (key : LedgerKey) : Prop :=
  ∃ row ∈ response.entries.getD [], rowKey crates row = some key

/-- A row under the key's hash carries a `live_until`. -/
def GivesTtl (crates : Crates) (response : GetLedgerEntriesResponse) (key : LedgerKey) : Prop :=
  ∃ u ∈ hashUpdates crates (response.entries.getD []), u.1 = keyHash crates key ∧ u.2 ≠ none

/-- A key is reported archived exactly when no row gives it a `live_until`, whether or not a row
has its entry. -/
theorem Reported.archived_iff {crates : Crates} {response : GetLedgerEntriesResponse}
    {key : LedgerKey} {o : Observation} (h : Reported crates response key o) :
    (∃ info, o.entry = .archived info) ↔ ¬GivesTtl crates response key := by
  obtain ⟨hash,hhash,rfl⟩ := h.of_rows
  have hgives : ¬GivesTtl crates response key ↔
      LastWrite.last (hashUpdates crates (response.entries.getD [])) (some hash) = none := by
    rw [LastWrite.last_eq_none_iff]
    unfold GivesTtl
    rw [hhash]
    simp only [not_exists,not_and,not_not]
  rw [hgives]
  unfold observation
  cases LastWrite.last (hashUpdates crates (response.entries.getD [])) (some hash) with
  | none => simp
  | some v => by_cases hlater : latestLedger response.latestLedger < v <;> simp [hlater]

end Provider

/-- Every entry of a restore plan was marked archived. -/
theorem Planner.planRestore_archived {crates : Crates} {planner : Planner}
    {observations : List (LedgerKey × ArchivedEntryInfo)} {currentLedger : UInt32}
    {plan : ArchivalPlan}
    (h : planner.planRestore crates observations currentLedger = .ok plan) :
    ∀ e ∈ plan.entries, ∃ o ∈ observations, o.2.isArchived = true ∧ o.1 = e.key := by
  refine forall₂_right (planRestore_ok h).2 ?_
  intro o ho e hmade
  obtain ⟨ho,harchived⟩ := List.mem_filter.mp ho
  obtain ⟨_,_,rfl⟩ := hmade
  exact ⟨o,ho,harchived,rfl⟩

/-- What the documentation says of archived rows: they are for keys the replies have no entry for.
An entry without a TTL needs no restore, and is in no restore plan. -/
structure OnlyAbsentArchived (crates : Crates)
    (answers : List (LedgerKey × GetLedgerEntriesResponse)) (out : List Observation) : Prop where
  archived : ∀ x ∈ answers.zip out, ∀ info, x.2.entry = .archived info →
    ¬Provider.Names crates x.1.2 x.1.1
  withoutTtl : ∀ x ∈ answers.zip out, Provider.Names crates x.1.2 x.1.1 →
    ¬Provider.GivesTtl crates x.1.2 x.1.1 → x.2.needsRestore = false
  restored : ∀ (planner : Planner) currentLedger plan, planner.planRestore crates
      (restorable (answers.map Prod.fst) out) currentLedger = .ok plan →
    ∀ e ∈ plan.entries, ∃ x ∈ answers, x.1 = e.key ∧ ¬Provider.Names crates x.2 x.1
  planned : ∀ opts args plan,
    Cli.restorePlan crates opts args (answers.map Prod.fst) out = .ok plan →
    ∀ e ∈ plan.entries, ∃ x ∈ answers, x.1 = e.key ∧
      (Provider.Names crates x.2 x.1 → Provider.GivesTtl crates x.2 x.1)

/-- A position of the keys is a position of their answers. -/
theorem mem_zip_answers {answers : List (LedgerKey × GetLedgerEntriesResponse)}
    {out : List Observation} {key : LedgerKey} {o : Observation}
    (h : (key,o) ∈ (answers.map Prod.fst).zip out) :
    ∃ x, (x,o) ∈ answers.zip out ∧ x.1 = key := by
  rw [List.zip_map_left,List.mem_map] at h
  obtain ⟨⟨x,o'⟩,hmem,heq⟩ := h
  cases heq
  exact ⟨x,hmem,rfl⟩

theorem archived_of_restorable {crates : Crates}
    {answers : List (LedgerKey × GetLedgerEntriesResponse)} {out : List Observation}
    (hall : List.Forall₂ (fun x o => Provider.Reported crates x.2 x.1 o) answers out)
    {r : LedgerKey × ArchivedEntryInfo} (hr : r ∈ restorable (answers.map Prod.fst) out)
    (harchived : r.2.isArchived = true) :
    ∃ x o, (x,o) ∈ answers.zip out ∧ x.1 = r.1 ∧ ∃ info, o.entry = .archived info := by
  obtain ⟨⟨key,o⟩,ho,hmatch⟩ := List.mem_filterMap.mp hr
  obtain ⟨x,hx,rfl⟩ := mem_zip_answers ho
  obtain ⟨hash,_,hobs⟩ := (List.forall₂_zip hall hx).of_rows
  cases hentry : o.entry with
  | live ttl =>
    simp only [hentry] at hmatch
    cases hmatch
  | archived info =>
    simp only [hentry] at hmatch
    cases hmatch
    exact ⟨x,o,hx,rfl,info,hentry⟩
  | expiredButPresent info =>
    simp only [hentry] at hmatch
    cases hmatch
    -- what has expired in place is never marked
    rw [hobs] at hentry
    unfold Provider.observation at hentry
    split at hentry
    · split_ifs at hentry
      cases hentry
      cases harchived
    · cases hentry

theorem onlyAbsentArchived_iff {crates : Crates}
    {answers : List (LedgerKey × GetLedgerEntriesResponse)} {out : List Observation}
    (hall : List.Forall₂ (fun x o => Provider.Reported crates x.2 x.1 o) answers out) :
    OnlyAbsentArchived crates answers out ↔
      ∀ x ∈ answers, Provider.Names crates x.2 x.1 → Provider.GivesTtl crates x.2 x.1 := by
  constructor
  · intro h x hx hnames
    by_contra hgives
    rw [← List.map_fst_zip (Nat.le_of_eq hall.length_eq),List.mem_map] at hx
    obtain ⟨⟨x,o⟩,hmem,rfl⟩ := hx
    obtain ⟨info,hinfo⟩ := (List.forall₂_zip hall hmem).archived_iff.mpr hgives
    exact h.archived _ hmem info hinfo hnames
  · intro h
    have harchived : ∀ x ∈ answers.zip out, ∀ info, x.2.entry = .archived info →
        ¬Provider.Names crates x.1.2 x.1.1 := by
      intro x hx info hinfo hnames
      have hgone := (List.forall₂_zip hall hx).archived_iff.mp ⟨info,hinfo⟩
      exact hgone (h x.1 (List.of_mem_zip hx).1 hnames)
    constructor
    · exact harchived
    · intro x hx hnames hgives
      exact absurd (h x.1 (List.of_mem_zip hx).1 hnames) hgives
    · intro planner currentLedger plan hplan e he
      obtain ⟨r,hr,hmarked,hkey⟩ := Planner.planRestore_archived hplan e he
      obtain ⟨x,o,hx,hxr,info,hinfo⟩ := archived_of_restorable hall hr hmarked
      exact ⟨x,(List.of_mem_zip hx).1,hxr.trans hkey,harchived _ hx info hinfo⟩
    · intro opts args plan hplan e he
      obtain ⟨_,hplan⟩ := check_eq_ok hplan
      obtain ⟨restored,hrestored,hplan⟩ := bind_eq_ok hplan
      cases Except.ok.inj hplan
      obtain ⟨e',he',rfl⟩ := List.mem_map.mp he
      obtain ⟨r,hr,_,hkey⟩ :=
        Planner.planRestore_archived (mapError_eq_ok hrestored) e' he'
      obtain ⟨o,ho,rfl⟩ := List.mem_map.mp hr
      obtain ⟨x,hx,hxo⟩ := mem_zip_answers (List.mem_of_mem_filter ho)
      have hin := (List.of_mem_zip hx).1
      exact ⟨x,hin,hxo.trans hkey,h x hin⟩

/-- Rows of `observe_entries` are archived for absent keys only, exactly when every requested key
that its reply has an entry for is given a `live_until` there. -/
theorem observeEntries_onlyAbsent_iff (crates : Crates) (node : Node σ) (keys : List LedgerKey)
    (w t : World σ) (out : List Observation)
    (h : Provider.observeEntries crates node keys w = .ok out t) :
    ∃ replies, (keys.toChunks Provider.observeBatchEntries).length = replies.length ∧
      t.log = w.log ++
        Provider.requests (keys.toChunks Provider.observeBatchEntries) replies ∧
      (OnlyAbsentArchived crates
          (Provider.byReply (keys.toChunks Provider.observeBatchEntries) replies) out ↔
        ∀ x ∈ Provider.byReply (keys.toChunks Provider.observeBatchEntries) replies,
          Provider.Names crates x.2 x.1 → Provider.GivesTtl crates x.2 x.1) := by
  obtain ⟨replies,hlen,hlog,hall⟩ := Provider.observeEntries_replied h
  exact ⟨replies,hlen,hlog,onlyAbsentArchived_iff hall⟩

theorem observeEntries_onlyAbsent_codeWorld :
    ∃ replies, ([codeKey,dataKey].toChunks Provider.observeBatchEntries).length = replies.length ∧
      (final (Provider.observeEntries sampleCrates playback [codeKey,dataKey]
        (codeWorld 150))).log = (codeWorld 150).log ++
          Provider.requests ([codeKey,dataKey].toChunks Provider.observeBatchEntries) replies ∧
      (OnlyAbsentArchived sampleCrates
          (Provider.byReply ([codeKey,dataKey].toChunks Provider.observeBatchEntries) replies)
          [⟨100,.live ⟨100,some 150⟩⟩,⟨100,.archived ⟨100,true⟩⟩] ↔
        ∀ x ∈ Provider.byReply ([codeKey,dataKey].toChunks Provider.observeBatchEntries) replies,
          Provider.Names sampleCrates x.2 x.1 → Provider.GivesTtl sampleCrates x.2 x.1) :=
  observeEntries_onlyAbsent_iff sampleCrates playback [codeKey,dataKey] (codeWorld 150) _ _
    (eq_ok_of_value (by decide +kernel))

/-- A network setting, which has no TTL. -/
def settingKey : LedgerKey := .configSetting 0

def settingCrates : Crates := { sampleCrates with
  entryKeyFromXdrBase64 := fun text =>
    if text = "AAAACAAAAAAAAQAA" then .ok settingKey else .error "xdr value invalid"
  sha256 := fun message =>
    if message = settingKey.xdr then
      #v[4,115,162,107,127,41,67,199,85,129,16,95,140,156,11,125,81,24,151,144,176,33,178,137,30,
        156,191,183,241,83,167,37]
    else Vector.replicate 32 0 }

def settingReply : GetLedgerEntriesResponse := ⟨some [⟨"AAAACAAAAAAAAQAA",none⟩],100⟩

/-- The setting is in the reply, without a TTL as all settings are, and is reported archived. -/
theorem observeEntries_not_onlyAbsent : ¬∀ (crates : Crates) (node : Node Script)
    (keys : List LedgerKey) (w t : World Script) (out : List Observation)
    (replies : List GetLedgerEntriesResponse),
    Provider.observeEntries crates node keys w = .ok out t →
    (keys.toChunks Provider.observeBatchEntries).length = replies.length →
    t.log = w.log ++ Provider.requests (keys.toChunks Provider.observeBatchEntries) replies →
    OnlyAbsentArchived crates
      (Provider.byReply (keys.toChunks Provider.observeBatchEntries) replies) out := by
  intro h
  let w : World Script := ⟨⟨.error "no reply",[.ok settingReply],[],[],[]⟩,none,[]⟩
  have honly := h settingCrates playback [settingKey] w
    (final (Provider.observeEntries settingCrates playback [settingKey] w))
    [⟨100,.archived ⟨100,true⟩⟩] [settingReply] (eq_ok_of_value (by decide +kernel)) rfl rfl
  apply honly.archived ((settingKey,settingReply),⟨100,.archived ⟨100,true⟩⟩) (by decide) _ rfl
  exact ⟨⟨"AAAACAAAAAAAAQAA",none⟩,List.mem_singleton.mpr rfl,by decide +kernel⟩

end SorobanRentKeeper

import SorobanRentKeeper.Core.Observe

namespace SorobanRentKeeper

open Program

/-- The distance between two ledger numbers. -/
def drift (a b : Int) : Nat := (a - b).natAbs

namespace Provider

/-- A chunk whose reply arrived, with rows and keys that can be read. -/
def Readable (crates : Crates) (chunk : List LedgerKey)
    (reply : Except String GetLedgerEntriesResponse) : Prop :=
  ∃ response, reply = .ok response ∧ RowsReadable crates (response.entries.getD []) ∧
    KeysEncodable crates chunk

variable {σ : Type}

/-- A readable reply becomes observations at its own ledger. -/
theorem observeChunk_readable (crates : Crates) (node : Node σ) (chunk : List LedgerKey)
    (w : World σ) (reply : Except String GetLedgerEntriesResponse) (n : σ)
    (hreply : node.getLedgerEntries chunk w.node = (reply,n)) (h : Readable crates chunk reply) :
    ∃ out t, observeChunk crates node chunk w = .ok out t ∧ t.node = n ∧
      ∀ o ∈ out, ∃ response, reply = .ok response ∧
        o.currentLedger = latestLedger response.latestLedger := by
  obtain ⟨response,rfl,hrows,hkeys⟩ := h
  obtain ⟨out,hread⟩ := (readChunk_iff crates chunk response).mpr ⟨hrows,hkeys⟩
  refine ⟨out,⟨n,w.sequence,w.log ++ [.ledgerEntries chunk (.ok response)]⟩,?_,rfl,?_⟩
  · unfold observeChunk
    rw [bind_of_ok _ (call_ok _ _ hreply),hread]
    rfl
  · intro o ho
    exact ⟨response,rfl,currentLedger_of_readChunk hread o ho⟩

/-- Any other reply ends the observation. -/
theorem observeChunk_unreadable (crates : Crates) (node : Node σ) (chunk : List LedgerKey)
    (w : World σ) (reply : Except String GetLedgerEntriesResponse) (n : σ)
    (hreply : node.getLedgerEntries chunk w.node = (reply,n)) (h : ¬Readable crates chunk reply) :
    ∃ e t, observeChunk crates node chunk w = .error e t := by
  unfold observeChunk
  cases reply with
  | error e =>
    exact ⟨_,_,bind_of_error _ (call_error _ _ hreply)⟩
  | ok response =>
    rw [bind_of_ok _ (call_ok _ _ hreply)]
    cases hread : readChunk crates chunk response with
    | error e => exact ⟨e,_,rfl⟩
    | ok out =>
      exact absurd ⟨response,rfl,(readChunk_iff crates chunk response).mp ⟨out,hread⟩⟩ h

/-- The loop body of `observe_entries`. -/
private def observeStep (crates : Crates) (node : Node σ) (out : List Observation)
    (chunk : List LedgerKey) : EStateM RentkeeperError (World σ) (List Observation) := do
  let chunkObservations ← observeChunk crates node chunk
  return out ++ chunkObservations

private theorem playback_reply (w : World Script) (chunk : List LedgerKey)
    (reply : Except String GetLedgerEntriesResponse)
    (replies : List (Except String GetLedgerEntriesResponse))
    (h : w.node.ledgerEntries = reply::replies) :
    playback.getLedgerEntries chunk w.node = (reply,{ w.node with ledgerEntries := replies }) := by
  unfold playback
  simp only [h,List.headD_cons,List.tail_cons]

private theorem fold_readable (crates : Crates) (chunks : List (List LedgerKey))
    (replies : List (Except String GetLedgerEntriesResponse)) (out : List Observation)
    (w : World Script) (hw : w.node.ledgerEntries = replies)
    (h : List.Forall₂ (Readable crates) chunks replies) :
    ∃ out' t, chunks.foldlM (observeStep crates playback) out w = .ok out' t ∧
      ∀ o ∈ out', o ∈ out ∨ ∃ response, .ok response ∈ replies ∧
        o.currentLedger = latestLedger response.latestLedger := by
  induction h generalizing out w with
  | nil => exact ⟨out,w,rfl,fun o ho => .inl ho⟩
  | @cons chunk reply chunks replies hchunk _ ih =>
    obtain ⟨read,t,hread,ht,hall⟩ := observeChunk_readable crates playback chunk w reply _
      (playback_reply w chunk reply replies hw) hchunk
    have hstep : observeStep crates playback out chunk w = .ok (out ++ read) t := by
      unfold observeStep
      rw [bind_of_ok _ hread]
      rfl
    obtain ⟨out',u,hout',hmem⟩ := ih (out ++ read) t (by rw [ht])
    refine ⟨out',u,?_,?_⟩
    · rw [List.foldlM_cons,bind_of_ok _ hstep]
      exact hout'
    · intro o ho
      rcases hmem o ho with ho|ho
      · rcases List.mem_append.mp ho with ho|ho
        · exact .inl ho
        · obtain ⟨response,rfl,hledger⟩ := hall o ho
          exact .inr ⟨response,List.mem_cons_self,hledger⟩
      · obtain ⟨response,hin,hledger⟩ := ho
        exact .inr ⟨response,List.mem_cons_of_mem _ hin,hledger⟩

private theorem fold_unreadable (crates : Crates) (chunks : List (List LedgerKey))
    (replies : List (Except String GetLedgerEntriesResponse)) (out : List Observation)
    (w : World Script) (hw : w.node.ledgerEntries = replies)
    (hlen : replies.length = chunks.length) (h : ¬List.Forall₂ (Readable crates) chunks replies) :
    ∃ e t, chunks.foldlM (observeStep crates playback) out w = .error e t := by
  induction chunks generalizing replies out w with
  | nil =>
    rw [List.length_nil,List.length_eq_zero_iff] at hlen
    subst hlen
    exact absurd .nil h
  | cons chunk chunks ih =>
    cases replies with
    | nil => cases hlen
    | cons reply replies =>
      have hreply := playback_reply w chunk reply replies hw
      rw [List.foldlM_cons]
      by_cases hchunk : Readable crates chunk reply
      · obtain ⟨read,t,hread,ht,_⟩ :=
          observeChunk_readable crates playback chunk w reply _ hreply hchunk
        have hstep : observeStep crates playback out chunk w = .ok (out ++ read) t := by
          unfold observeStep
          rw [bind_of_ok _ hread]
          rfl
        have hrest : ¬List.Forall₂ (Readable crates) chunks replies := by
          intro hrest
          exact h (.cons hchunk hrest)
        obtain ⟨e,u,herr⟩ := ih replies (out ++ read) t (by rw [ht]) (Nat.succ.inj hlen) hrest
        rw [bind_of_ok _ hstep]
        exact ⟨e,u,herr⟩
      · obtain ⟨e,t,herr⟩ :=
          observeChunk_unreadable crates playback chunk w reply _ hreply hchunk
        have hstep : observeStep crates playback out chunk w = .error e t := by
          unfold observeStep
          rw [bind_of_error _ herr]
        rw [bind_of_error _ hstep]
        exact ⟨e,t,rfl⟩

/-- The replies to the chunks of one call can all be read. -/
def AllReadable (crates : Crates) (keys : List LedgerKey)
    (replies : List (Except String GetLedgerEntriesResponse)) : Prop :=
  List.Forall₂ (Readable crates) (keys.toChunks observeBatchEntries) replies

theorem observeEntries_readable (crates : Crates) (keys : List LedgerKey) (w : World Script)
    (h : AllReadable crates keys w.node.ledgerEntries) :
    ∃ out t, observeEntries crates playback keys w = .ok out t ∧
      ∀ o ∈ out, ∃ response, .ok response ∈ w.node.ledgerEntries ∧
        o.currentLedger = latestLedger response.latestLedger := by
  obtain ⟨out,t,hout,hmem⟩ := fold_readable crates _ _ [] w rfl h
  refine ⟨out,t,hout,?_⟩
  intro o ho
  rcases hmem o ho with ho|ho
  · cases ho
  · exact ho

theorem observeEntries_unreadable (crates : Crates) (keys : List LedgerKey) (w : World Script)
    (hlen : w.node.ledgerEntries.length = (keys.toChunks observeBatchEntries).length)
    (h : ¬AllReadable crates keys w.node.ledgerEntries) :
    ∃ e t, observeEntries crates playback keys w = .error e t :=
  fold_unreadable crates _ _ [] w rfl hlen h

/-- Any two replies that arrived report ledgers within the documented drift. -/
def WithinDrift (replies : List (Except String GetLedgerEntriesResponse)) : Prop :=
  ∀ r r', .ok r ∈ replies → .ok r' ∈ replies →
    drift r.latestLedger.toInt r'.latestLedger.toInt ≤ maxChunkLedgerDrift

/-- What `observe_entries` documents about the snapshots of one call. -/
structure Consistent (crates : Crates) (keys : List LedgerKey) (w : World Script) : Prop where
  tolerated : ∀ out t, observeEntries crates playback keys w = .ok out t →
    ∀ a ∈ out, ∀ b ∈ out,
      drift a.currentLedger.toNat b.currentLedger.toNat ≤ maxChunkLedgerDrift
  rejected : ∀ r r', .ok r ∈ w.node.ledgerEntries → .ok r' ∈ w.node.ledgerEntries →
    maxChunkLedgerDrift < drift r.latestLedger.toInt r'.latestLedger.toInt →
    ∃ e t, observeEntries crates playback keys w = .error e t

/-- Nothing compares the chunks: the documentation is met exactly when the node's replies agree
by themselves, or one of them cannot be read. -/
theorem observeEntries_consistent_iff (crates : Crates) (keys : List LedgerKey)
    (w : World Script)
    (hlen : w.node.ledgerEntries.length = (keys.toChunks observeBatchEntries).length) :
    Consistent crates keys w ↔
      WithinDrift w.node.ledgerEntries ∨ ¬AllReadable crates keys w.node.ledgerEntries := by
  by_cases hread : AllReadable crates keys w.node.ledgerEntries
  · obtain ⟨out,t,hok,hmem⟩ := observeEntries_readable crates keys w hread
    constructor
    · intro h
      refine .inl ?_
      intro r r' hr hr'
      by_contra hfar
      obtain ⟨e,u,herr⟩ := h.rejected r r' hr hr' (Nat.lt_of_not_le hfar)
      rw [hok] at herr
      cases herr
    · intro h
      have hclose := h.resolve_right (fun hun => hun hread)
      constructor
      · intro out' t' hok' a ha b hb
        rw [hok] at hok'
        cases hok'
        obtain ⟨r,hr,hra⟩ := hmem a ha
        obtain ⟨r',hr',hrb⟩ := hmem b hb
        have hdrift := hclose r r' hr hr'
        have hsame : r.latestLedger = r'.latestLedger := by
          apply Int64.toInt_inj.mp
          simp only [drift,maxChunkLedgerDrift] at hdrift
          omega
        rw [hra,hrb,hsame]
        simp [drift]
      · intro r r' hr hr' hfar
        exact absurd (hclose r r' hr hr') (Nat.not_le_of_lt hfar)
  · obtain ⟨e,t,herr⟩ := observeEntries_unreadable crates keys w hlen hread
    constructor
    · intro _
      exact .inr hread
    · intro _
      constructor
      · intro out' t' hok
        rw [herr] at hok
        cases hok
      · intro _ _ _ _ _
        exact ⟨e,t,herr⟩

/-- One key too many for one request. -/
def twoChunks : List LedgerKey := List.replicate 51 codeKey

/-- A node that will answer two requests without entries, at the given ledgers. -/
def emptyReplies (a b : Int64) : World Script :=
  ⟨⟨.error "no reply",[.ok ⟨none,a⟩,.ok ⟨none,b⟩],[],[],[]⟩,none,[]⟩

theorem observeEntries_consistent_twoChunks :
    Consistent sampleCrates twoChunks (emptyReplies 100 100) ↔
      WithinDrift (emptyReplies 100 100).node.ledgerEntries ∨
        ¬AllReadable sampleCrates twoChunks (emptyReplies 100 100).node.ledgerEntries :=
  observeEntries_consistent_iff sampleCrates twoChunks (emptyReplies 100 100) (by decide)

/-- The second request is answered one ledger later, and the call succeeds. -/
theorem observeEntries_not_consistent : ¬∀ (crates : Crates) (keys : List LedgerKey)
    (w : World Script),
    w.node.ledgerEntries.length = (keys.toChunks observeBatchEntries).length →
    Consistent crates keys w := by
  intro h
  have hread : AllReadable sampleCrates twoChunks (emptyReplies 100 101).node.ledgerEntries := by
    have hchunks : twoChunks.toChunks observeBatchEntries =
        [List.replicate 50 codeKey,[codeKey]] := by decide
    have hreply (chunk : List LedgerKey) (latest : Int64) :
        Readable sampleCrates chunk (.ok ⟨none,latest⟩) :=
      ⟨_,rfl,by simp [RowsReadable],fun key _ => ⟨key.xdr,rfl⟩⟩
    unfold AllReadable
    rw [hchunks]
    exact .cons (hreply _ 100) (.cons (hreply _ 101) .nil)
  obtain ⟨out,t,hok,_⟩ := observeEntries_readable sampleCrates twoChunks _ hread
  have hconsistent := h sampleCrates twoChunks (emptyReplies 100 101) (by decide)
  obtain ⟨e,u,herr⟩ := hconsistent.rejected ⟨none,100⟩ ⟨none,101⟩ (by simp [emptyReplies])
    (by simp [emptyReplies]) (by decide)
  rw [hok] at herr
  cases herr

end Provider

end SorobanRentKeeper

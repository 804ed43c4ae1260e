import SorobanRentKeeper.Core.Provider
import Mathlib.Data.List.Forall2
import Mathlib.Tactic.SplitIfs

namespace SorobanRentKeeper

open Program

variable {σ : Type}

theorem call_ok {α : Type} {request : σ → Except String α × σ} {w : World σ} {a : α} {n : σ}
    (event : Except String α → Event) (what : String) (h : request w.node = (.ok a,n)) :
    call request event what w = .ok a ⟨n,w.sequence,w.log ++ [event (.ok a)]⟩ := by
  unfold call
  rw [h]

theorem call_error {α : Type} {request : σ → Except String α × σ} {w : World σ} {e : String}
    {n : σ} (event : Except String α → Event) (what : String)
    (h : request w.node = (.error e,n)) :
    call request event what w =
      .error (.rpc (what ++ ": " ++ e)) ⟨n,w.sequence,w.log ++ [event (.error e)]⟩ := by
  unfold call
  rw [h]

theorem call_traced {α : Type} (request : σ → Except String α × σ)
    (event : Except String α → Event) (what : String) (w : World σ) :
    Traced World.log (call request event what) w
      (fun a d t => request w.node = (.ok a,t.node) ∧ t.sequence = w.sequence ∧
        d = [event (.ok a)])
      (fun err d t => ∃ e, request w.node = (.error e,t.node) ∧ t.sequence = w.sequence ∧
        d = [event (.error e)] ∧ err = .rpc (what ++ ": " ++ e)) := by
  unfold Traced Spec call
  rcases hr : request w.node with ⟨reply,node⟩
  cases reply with
  | ok a => exact ⟨_,rfl,rfl,rfl,rfl⟩
  | error e => exact ⟨_,rfl,e,rfl,rfl,rfl,rfl⟩

namespace Provider

/-- Every row of a reply decodes, and its key encodes again. -/
def RowsReadable (crates : Crates) (rows : List LedgerEntryRow) : Prop :=
  ∀ row ∈ rows, ∃ key keyXdr, crates.entryKeyFromXdrBase64 row.xdr = .ok key ∧
    crates.keyToXdr key = .ok keyXdr

def KeysEncodable (crates : Crates) (keys : List LedgerKey) : Prop :=
  ∀ key ∈ keys, ∃ keyXdr, crates.keyToXdr key = .ok keyXdr

theorem indexRows_iff (crates : Crates) (rows : List LedgerEntryRow) (index : LiveIndex) :
    (∃ out, indexRows crates rows index = .ok out) ↔ RowsReadable crates rows := by
  induction rows generalizing index with
  | nil => simp [indexRows,RowsReadable]
  | cons row rows ih =>
    unfold RowsReadable at ih ⊢
    rw [List.forall_mem_cons]
    unfold indexRows
    cases hkey : crates.entryKeyFromXdrBase64 row.xdr with
    | error e => simp [Except.mapError,bind,Except.bind]
    | ok key =>
      cases hxdr : crates.keyToXdr key with
      | error e => simp [Except.mapError,bind,Except.bind,hxdr]
      | ok keyXdr =>
        cases hlive : row.liveUntilLedgerSeq with
        | some live => simp [Except.mapError,bind,Except.bind,hxdr,ih]
        | none => simp [Except.mapError,bind,Except.bind,hxdr,ih]

theorem observeKeys_iff (crates : Crates) (latest : UInt32) (index : LiveIndex)
    (keys : List LedgerKey) :
    (∃ out, observeKeys crates latest index keys = .ok out) ↔ KeysEncodable crates keys := by
  induction keys with
  | nil => simp [observeKeys,KeysEncodable]
  | cons key keys ih =>
    unfold KeysEncodable at ih ⊢
    rw [List.forall_mem_cons,← ih]
    simp only [observeKeys]
    cases hxdr : crates.keyToXdr key with
    | error e => simp [Except.mapError,bind,Except.bind]
    | ok keyXdr =>
      cases observeKeys crates latest index keys with
      | error e => simp [Except.mapError,bind,Except.bind]
      | ok out => simp [Except.mapError,bind,Except.bind,pure,Except.pure]

/-- What a reply says about a key: the last of its rows with the key's hash decides. -/
def Reported (crates : Crates) (response : GetLedgerEntriesResponse) (key : LedgerKey)
    (o : Observation) : Prop :=
  ∃ index keyXdr, indexRows crates (response.entries.getD []) (fun _ => none) = .ok index ∧
    crates.keyToXdr key = .ok keyXdr ∧
    o = observation (latestLedger response.latestLedger) (index (crates.sha256 keyXdr))

@[simp] theorem currentLedger_observation (latest : UInt32) (live : Option UInt32) :
    (observation latest live).currentLedger = latest := by
  unfold observation
  split
  · split_ifs <;> rfl
  · rfl

theorem Reported.currentLedger {crates : Crates} {response : GetLedgerEntriesResponse}
    {key : LedgerKey} {o : Observation} (h : Reported crates response key o) :
    o.currentLedger = latestLedger response.latestLedger := by
  obtain ⟨_,_,_,_,rfl⟩ := h
  exact currentLedger_observation _ _

private theorem observeKeys_ok {crates : Crates} {response : GetLedgerEntriesResponse}
    {index : LiveIndex} {keys : List LedgerKey} {out : List Observation}
    (hindex : indexRows crates (response.entries.getD []) (fun _ => none) = .ok index)
    (h : observeKeys crates (latestLedger response.latestLedger) index keys = .ok out) :
    List.Forall₂ (Reported crates response) keys out := by
  induction keys generalizing out with
  | nil =>
    cases Except.ok.inj h
    exact .nil
  | cons key keys ih =>
    unfold observeKeys at h
    obtain ⟨keyXdr,hxdr,h⟩ := bind_eq_ok h
    obtain ⟨rest,hrest,h⟩ := bind_eq_ok h
    cases Except.ok.inj h
    exact .cons ⟨index,keyXdr,hindex,mapError_eq_ok hxdr,rfl⟩ (ih hrest)

/-- One observation for each key of the chunk, in order. -/
theorem readChunk_ok {crates : Crates} {keys : List LedgerKey}
    {response : GetLedgerEntriesResponse} {out : List Observation}
    (h : readChunk crates keys response = .ok out) :
    List.Forall₂ (Reported crates response) keys out := by
  unfold readChunk at h
  obtain ⟨index,hindex,h⟩ := bind_eq_ok h
  exact observeKeys_ok hindex h

/-- All observations of a chunk carry the ledger of its reply. -/
theorem currentLedger_of_readChunk {crates : Crates} {keys : List LedgerKey}
    {response : GetLedgerEntriesResponse} {out : List Observation}
    (h : readChunk crates keys response = .ok out) :
    ∀ o ∈ out, o.currentLedger = latestLedger response.latestLedger := by
  have hall := readChunk_ok h
  clear h
  induction hall with
  | nil => simp
  | cons hrep _ ih =>
    rw [List.forall_mem_cons]
    exact ⟨hrep.currentLedger,ih⟩

theorem readChunk_iff (crates : Crates) (keys : List LedgerKey)
    (response : GetLedgerEntriesResponse) :
    (∃ out, readChunk crates keys response = .ok out) ↔
      RowsReadable crates (response.entries.getD []) ∧ KeysEncodable crates keys := by
  rw [← indexRows_iff crates (response.entries.getD []) fun _ => none]
  unfold readChunk
  cases hindex : indexRows crates (response.entries.getD []) fun _ => none with
  | error e => simp [bind,Except.bind]
  | ok index =>
    rw [← observeKeys_iff crates (latestLedger response.latestLedger) index keys]
    simp [bind,Except.bind]

/-- Nothing but requests for ledger entries. -/
def OnlyReads (d : List Event) : Prop := ∀ e ∈ d, ∃ keys reply, e = .ledgerEntries keys reply

theorem OnlyReads.append {d d' : List Event} (h : OnlyReads d) (h' : OnlyReads d') :
    OnlyReads (d ++ d') := by
  intro e he
  rcases List.mem_append.mp he with he|he
  · exact h e he
  · exact h' e he

/-- A reply that gives no observations for a chunk: it did not arrive, or cannot be read. -/
def Unreadable (crates : Crates) (keys : List LedgerKey)
    (reply : Except String GetLedgerEntriesResponse) : Prop :=
  ∀ response out, reply = .ok response → readChunk crates keys response ≠ .ok out

/-- Some reply of the log is unreadable. -/
def Misread (crates : Crates) (d : List Event) : Prop :=
  ∃ keys reply, .ledgerEntries keys reply ∈ d ∧ Unreadable crates keys reply

/-- An observation some reply in the log accounts for. -/
def Observed (crates : Crates) (d : List Event) (key : LedgerKey) (o : Observation) : Prop :=
  ∃ keys response, .ledgerEntries keys (.ok response) ∈ d ∧ key ∈ keys ∧
    Reported crates response key o

theorem observeChunk_traced (crates : Crates) (node : Node σ) (keys : List LedgerKey)
    (w : World σ) :
    Traced World.log (observeChunk crates node keys) w
      (fun out d t => t.sequence = w.sequence ∧ OnlyReads d ∧
        List.Forall₂ (Observed crates d) keys out)
      (fun _ d t => t.sequence = w.sequence ∧ OnlyReads d ∧ Misread crates d) := by
  unfold observeChunk
  refine Traced.bind (call_traced _ _ _ w) ?_ ?_
  · intro response d t h
    obtain ⟨_,hs,rfl⟩ := h
    have hreads : OnlyReads [.ledgerEntries keys (.ok response)] := by
      intro e he
      exact ⟨keys,.ok response,List.mem_singleton.mp he⟩
    refine traced_ofExcept ?_ ?_
    · intro out hread
      refine ⟨hs,by simpa using hreads,?_⟩
      have hall := (List.forall₂_and_left keys out).mpr ⟨fun k hk => hk,readChunk_ok hread⟩
      apply hall.imp
      intro key o hko
      exact ⟨keys,response,by simp,hko.1,hko.2⟩
    · intro err hread
      refine ⟨hs,by simpa using hreads,keys,.ok response,by simp,?_⟩
      intro response' out hreply
      cases hreply
      rw [hread]
      simp
  · intro err d t h
    obtain ⟨e,_,hs,rfl,_⟩ := h
    refine ⟨hs,?_,keys,.error e,List.mem_singleton.mpr rfl,?_⟩
    · intro x hx
      exact ⟨keys,.error e,List.mem_singleton.mp hx⟩
    · intro response out hreply
      cases hreply

theorem Observed.append_left {crates : Crates} {d : List Event} (d' : List Event)
    {key : LedgerKey} {o : Observation} (h : Observed crates d key o) :
    Observed crates (d ++ d') key o := by
  obtain ⟨keys,response,hmem,hkey,hrep⟩ := h
  exact ⟨keys,response,List.mem_append_left d' hmem,hkey,hrep⟩

theorem Observed.append_right {crates : Crates} (d : List Event) {d' : List Event}
    {key : LedgerKey} {o : Observation} (h : Observed crates d' key o) :
    Observed crates (d ++ d') key o := by
  obtain ⟨keys,response,hmem,hkey,hrep⟩ := h
  exact ⟨keys,response,List.mem_append_right d hmem,hkey,hrep⟩

/-- One observation for each requested key, in order, each read from a reply of this call. -/
theorem observeEntries_traced (crates : Crates) (node : Node σ) (keys : List LedgerKey)
    (w : World σ) :
    Traced World.log (observeEntries crates node keys) w
      (fun out d t => t.sequence = w.sequence ∧ OnlyReads d ∧
        List.Forall₂ (Observed crates d) keys out)
      (fun _ d t => t.sequence = w.sequence ∧ OnlyReads d ∧ Misread crates d) := by
  unfold observeEntries
  refine Traced.mono (Traced.foldlM
    (I := fun done out d t => t.sequence = w.sequence ∧ OnlyReads d ∧
      List.Forall₂ (Observed crates d) done.flatten out)
    (E := fun _ d t => t.sequence = w.sequence ∧ OnlyReads d ∧ Misread crates d)
    (keys.toChunks observeBatchEntries) [] w ⟨rfl,by simp [OnlyReads],by simp⟩ ?_) ?_
    (fun _ _ _ h => h)
  · intro done chunk rest out d t _ hI
    obtain ⟨hs,hreads,hout⟩ := hI
    refine Traced.bind (observeChunk_traced crates node chunk t) ?_ ?_
    · intro chunkOut d' u h
      obtain ⟨hs',hreads',hchunk⟩ := h
      apply traced_pure
      rw [List.append_nil,List.flatten_append,List.flatten_singleton]
      refine ⟨hs'.trans hs,hreads.append hreads',?_⟩
      exact List.rel_append (hout.imp fun _ _ h => h.append_left d')
        (hchunk.imp fun _ _ h => h.append_right d)
    · intro err d' u h
      obtain ⟨hs',hreads',ks,reply,hmem,hmiss⟩ := h
      exact ⟨hs'.trans hs,hreads.append hreads',ks,reply,List.mem_append_right d hmem,hmiss⟩
  · intro out d t h
    rwa [Chunks.flatten_toChunks] at h

end Provider

end SorobanRentKeeper

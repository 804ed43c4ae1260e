import SorobanRentKeeper.Core.MixedKinds
import SorobanRentKeeper.Core.Mutators
import SorobanRentKeeper.Daemon.SignedFootprint

namespace SorobanRentKeeper

open Program

/-- The fee is the exact sum, cut where a `u32` ends. -/
theorem feeToU32_saturatingAdd (a b : UInt64) :
    (feeToU32 (saturatingAdd a b)).toNat = min (a.toNat + b.toNat) 4294967295 := by
  unfold feeToU32 saturatingAdd u32TryFrom
  by_cases hfit : a.toNat + b.toNat < 18446744073709551616
  · have hsum : (a + b).toNat = a.toNat + b.toNat := by
      rw [UInt64.toNat_add]
      exact Nat.mod_eq_of_lt hfit
    rw [if_pos hfit,hsum]
    by_cases hsmall : a.toNat + b.toNat < 4294967296
    · have hnarrow : (a + b).toUInt32.toNat = a.toNat + b.toNat := by
        rw [UInt64.toNat_toUInt32,hsum]
        exact Nat.mod_eq_of_lt hsmall
      rw [if_pos hsmall,Option.getD_some,hnarrow]
      omega
    · rw [if_neg hsmall,Option.getD_none]
      simp only [UInt32.reduceToNat]
      omega
  · rw [if_neg hfit]
    simp only [UInt64.reduceToNat,Nat.reduceLT,if_false,Option.getD_none,UInt32.reduceToNat]
    omega

variable {σ : Type}

/-- What `submit_plan` owes the envelope it sends: the transaction that was built and priced, and
one signature of it as it is sent. -/
structure Consistent (keeper : Keeper σ)
    (verify : Bytes32 → List UInt8 → Vector UInt8 64 → Bool) (builder : TxBuilder)
    (plan : ArchivalPlan) (n : Int64) (response : SimulateResponse)
    (data : SorobanTransactionData) (inner : TransactionV1Envelope) : Prop where
  source : inner.tx.sourceAccount = .ed25519 (keeper.payer.publicBytes keeper.crates)
  seqNum : inner.tx.seqNum = n
  cond : inner.tx.cond = .none
  memo : inner.tx.memo = .none
  operation : ∃ first, plan.entries.head? = some first ∧
    inner.tx.operations.val = [⟨none,plan.operation first.kind⟩]
  ext : inner.tx.ext = .v1 data
  fee : inner.tx.fee.toNat =
    min (builder.baseFee.toNat + response.minResourceFee.toNat) 4294967295
  signature : ∃ s, inner.signatures.val = [s] ∧
    s.hint = (keeper.payer.publicBytes keeper.crates).drop 28 ∧
    TxBuilder.Verifies keeper.crates verify builder (.tx inner)
      (keeper.payer.publicBytes keeper.crates) s
  signedLast : ∃ unsigned, unsigned.tx = inner.tx ∧
    builder.sign keeper.crates keeper.payer.signingKey (.tx unsigned) = .ok () (.tx inner)

/-- The number is the one `next_sequence` returns where `submit_plan` asks for it. -/
theorem Numbered.run {keeper : Keeper σ} {w t : World σ} {n : Int64} {d : List Event}
    (h : Numbered keeper w n d t) (log : List Event) :
    ∃ u, keeper.tracker.nextSequence keeper.node { w with log := log } = .ok n u := by
  unfold SequenceTracker.nextSequence
  rw [get_bind]
  cases h with
  | cached c _ hcache hnode hnext =>
    rw [hcache]
    exact ⟨_,rfl⟩
  | fetched s _ hcache hreply hnext =>
    have hcall : Provider.getAccount keeper.node keeper.tracker.accountId { w with log := log } =
        .ok s ⟨t.node,w.sequence,log ++ [.account (.ok s)]⟩ := by
      simp [Provider.getAccount,call,hreply]
    have hadapt (f : RentkeeperError → KeeperError) : EStateM.adaptExcept f
        (Provider.getAccount keeper.node keeper.tracker.accountId) { w with log := log } =
        .ok s ⟨t.node,w.sequence,log ++ [.account (.ok s)]⟩ := by
      simp [EStateM.adaptExcept,hcall]
    rw [hcache] at hadapt ⊢
    exact ⟨_,bind_of_ok _ (hadapt _)⟩

/-- The steps from the plan to the signature, each on what the one before it left. -/
private theorem consistent_of_finish {keeper : Keeper σ}
    {verify : Bytes32 → List UInt8 → Vector UInt8 64 → Bool}
    (hverify : TxBuilder.Correct keeper.crates verify) {builder : TxBuilder} {plan : ArchivalPlan}
    {n : Int64} {built signed : TransactionEnvelope} {response : SimulateResponse}
    (hbuild : buildFor keeper builder plan n = .ok built) (herror : response.error = none)
    (hfinish : finish keeper builder built response = .ok signed) :
    ∃ data inner, Decodes keeper.crates response data ∧ signed = .tx inner ∧
      Consistent keeper verify builder plan n response data inner := by
  obtain ⟨hpos,_⟩ := TxBuilder.len_of_buildUnsigned hbuild
  obtain ⟨first,rest,hentries⟩ := List.exists_cons_of_length_pos hpos
  obtain ⟨body,_,unpriced,rfl,hbuilt⟩ := TxBuilder.buildUnsigned_ok hbuild
  have hbody : body = plan.operation first.kind := by
    have hchosen := hbuilt.chosen.symm.trans (TxBuilder.operationBody_head hentries)
    exact Except.ok.inj hchosen
  obtain ⟨data,hash,signatures,hne,hdata,hhash,hsignatures,rfl,hsign⟩ :=
    finish_signed herror hfinish
  refine ⟨data,_,⟨herror,hne,hdata⟩,rfl,?_⟩
  constructor
  · exact hbuilt.source
  · exact hbuilt.seqNum
  · exact hbuilt.cond
  · exact hbuilt.memo
  · refine ⟨first,by rw [hentries,List.head?_cons],?_⟩
    rw [← hbody]
    exact hbuilt.operations
  · rfl
  · exact feeToU32_saturatingAdd builder.baseFee response.minResourceFee
  · rw [hbuilt.unsigned,List.nil_append] at hsignatures
    refine ⟨_,hsignatures,rfl,hash,_,hhash,rfl,?_⟩
    exact hverify keeper.payer.signingKey hash.toList
  · exact ⟨⟨_,unpriced.signatures⟩,rfl,hsign⟩

/-- Whatever a call sends was numbered, built, simulated, priced and signed in it. -/
theorem Submit.consistent {keeper : Keeper σ}
    {verify : Bytes32 → List UInt8 → Vector UInt8 64 → Bool}
    (hverify : TxBuilder.Correct keeper.crates verify) {builder : TxBuilder} {plan : ArchivalPlan}
    {w t : World σ} {r : Except KeeperError SubmissionOutcome} {d : List Event}
    (h : Submit keeper builder plan w r d t) : ∀ s ∈ sends d, ∃ n u response data inner,
      keeper.tracker.nextSequence keeper.node { w with log := w.log ++ [.submitPlan plan] } =
        .ok n u ∧
      .simulate s.built (.ok response) ∈ d ∧ Decodes keeper.crates response data ∧
      s.signed = .tx inner ∧ Consistent keeper verify builder plan n response data inner := by
  intro s hs
  obtain ⟨n,_,_,response,hn,hbuild,hmem,herror,hfinish⟩ := h.sent s hs
  obtain ⟨u,hrun⟩ := hn.run (w.log ++ [.submitPlan plan])
  obtain ⟨data,inner,hdata,hinner,hcons⟩ := consistent_of_finish hverify hbuild herror hfinish
  exact ⟨n,u,response,data,inner,hrun,hmem,hdata,hinner,hcons⟩

/-- What a call sends, if anything, is consistent: every submission of its log carries the number
this call took, the node's reply in this call, and a valid signature of what is sent. -/
theorem submitPlan_consistent (keeper : Keeper σ)
    (verify : Bytes32 → List UInt8 → Vector UInt8 64 → Bool)
    (hverify : TxBuilder.Correct keeper.crates verify) (builder : TxBuilder) (plan : ArchivalPlan)
    (w : World σ) : ∃ d, (final (submitPlan keeper builder plan w)).log = w.log ++ d ∧
      ∀ s ∈ sends d, ∃ n u response data inner,
        keeper.tracker.nextSequence keeper.node { w with log := w.log ++ [.submitPlan plan] } =
          .ok n u ∧
        .simulate s.built (.ok response) ∈ d ∧ Decodes keeper.crates response data ∧
        s.signed = .tx inner ∧ Consistent keeper verify builder plan n response data inner := by
  obtain ⟨d,hd,hrun⟩ := (submitPlan_traced keeper builder plan w).cases
  refine ⟨d,hd,?_⟩
  rcases hrun with hok|herr
  · obtain ⟨outcome,t,_,h⟩ := hok
    exact h.consistent hverify
  · obtain ⟨err,t,_,h⟩ := herr
    exact h.consistent hverify

/-- The sample daemon with the signature of the sample transaction. -/
def signingKeeper : Keeper Script := { sampleKeeper with crates := TxBuilder.signingCrates }

def signingWorld : World Script :=
  ⟨⟨.error "no reply",[],[.ok 7],[.ok codeSimulation],[.ok (Vector.replicate 32 0)]⟩,none,[]⟩

def signingLog : List Event :=
  (final (submitPlan signingKeeper (TxBuilder.new "Test SDF Network ; September 2015")
    (TxBuilder.codePlan .extend) signingWorld)).log

theorem submitPlan_consistent_codePlan : ∃ s ∈ sends signingLog, ∃ n u response data inner,
    signingKeeper.tracker.nextSequence signingKeeper.node
      { signingWorld with log := [.submitPlan (TxBuilder.codePlan .extend)] } = .ok n u ∧
    .simulate s.built (.ok response) ∈ signingLog ∧
    Decodes signingKeeper.crates response data ∧ s.signed = .tx inner ∧
    Consistent signingKeeper TxBuilder.sampleVerify
      (TxBuilder.new "Test SDF Network ; September 2015") (TxBuilder.codePlan .extend) n response
      data inner := by
  obtain ⟨d,hd,hsends⟩ := submitPlan_consistent signingKeeper TxBuilder.sampleVerify
    TxBuilder.correct_signingCrates (TxBuilder.new "Test SDF Network ; September 2015")
    (TxBuilder.codePlan .extend) signingWorld
  have hlog : signingLog = d := hd.trans (List.nil_append d)
  have hsent : sends signingLog ≠ [] := by
    have hlen : (sends signingLog).length = 1 := by decide +kernel
    intro hnil
    rw [hnil,List.length_nil] at hlen
    omega
  obtain ⟨s,hs⟩ := List.exists_mem_of_ne_nil _ hsent
  rw [hlog] at hs ⊢
  exact ⟨s,hs,hsends s hs⟩

end SorobanRentKeeper

import SorobanRentKeeper.Core.MixedKinds
import SorobanRentKeeper.Core.Mutators

namespace SorobanRentKeeper

open Program

namespace TxBuilder

/-- `build_unsigned` and `sign` in one step. -/
def buildSigned (crates : Crates) (builder : TxBuilder) (plan : ArchivalPlan)
    (signingKey : Bytes32) (seqNum : Int64) : Except RentkeeperError TransactionEnvelope := do
  let envelope ← builder.buildUnsigned crates plan ⟨crates.verifyingKey signingKey⟩ seqNum
  Program.outcome (builder.sign crates signingKey envelope)

/-- What `build_signed` makes of a plan: its one transaction, paid by the account of the key, with
one signature under that key of the hash of what is sent. -/
structure SignedFor (crates : Crates) (builder : TxBuilder) (plan : ArchivalPlan)
    (signingKey : Bytes32) (seqNum : Int64) (hash : Bytes32) (inner : TransactionV1Envelope) :
    Prop where
  source : inner.tx.sourceAccount = .ed25519 (crates.verifyingKey signingKey)
  seqNum : inner.tx.seqNum = seqNum
  fee : inner.tx.fee = feeToU32 builder.baseFee
  operation : ∃ first, plan.entries.head? = some first ∧
    inner.tx.operations.val = [⟨none,plan.operation first.kind⟩]
  footprint : (TransactionEnvelope.tx inner).footprintKeys = plan.footprint
  hashed : crates.envelopeHash (.tx inner.tx) (builder.networkId crates) = .ok hash
  signature : inner.signatures.val = [decorated crates signingKey hash]

/-- The transaction `build_signed` signs. -/
def HashableAs (crates : Crates) (builder : TxBuilder) (plan : ArchivalPlan) (signingKey : Bytes32)
    (seqNum : Int64) (hash : Bytes32) : Prop :=
  ∃ inner, builder.buildUnsigned crates plan ⟨crates.verifyingKey signingKey⟩ seqNum =
      .ok (.tx inner) ∧
    crates.envelopeHash (.tx inner.tx) (builder.networkId crates) = .ok hash

theorem buildSigned_ok {crates : Crates} {builder : TxBuilder} {plan : ArchivalPlan}
    {signingKey : Bytes32} {seqNum : Int64} {envelope : TransactionEnvelope}
    (h : builder.buildSigned crates plan signingKey seqNum = .ok envelope) :
    ∃ inner hash, envelope = .tx inner ∧
      SignedFor crates builder plan signingKey seqNum hash inner := by
  obtain ⟨unsigned,hbuild,h⟩ := bind_eq_ok h
  obtain ⟨body,data,inner,rfl,hbuilt⟩ := buildUnsigned_ok hbuild
  obtain ⟨hpos,_⟩ := len_of_buildUnsigned hbuild
  obtain ⟨first,rest,hentries⟩ := List.exists_cons_of_length_pos hpos
  have hbody : body = plan.operation first.kind := by
    have hchosen := hbuilt.chosen.symm.trans (operationBody_head hentries)
    exact Except.ok.inj hchosen
  have hkeys := footprintKeys_of_buildUnsigned hbuild
  cases hsign : builder.sign crates signingKey (.tx inner) with
  | error err after =>
    rw [hsign] at h
    cases h
  | ok _ after =>
    rw [hsign] at h
    cases Except.ok.inj h
    obtain ⟨inner',hash,signatures,hinner,hhash,hsignatures,rfl⟩ :=
      spec_of_ok (sign_spec crates builder signingKey (.tx inner)) hsign
    cases TransactionEnvelope.tx.inj hinner
    refine ⟨_,hash,rfl,hbuilt.source,hbuilt.seqNum,hbuilt.fee,?_,hkeys,hhash,?_⟩
    · refine ⟨first,by rw [hentries,List.head?_cons],?_⟩
      rw [← hbody]
      exact hbuilt.operations
    · rw [hsignatures,hbuilt.unsigned,List.nil_append]

/-- It needs one to a hundred entries, and the hash of the transaction. -/
theorem buildSigned_iff (crates : Crates) (builder : TxBuilder) (plan : ArchivalPlan)
    (signingKey : Bytes32) (seqNum : Int64) :
    (∃ envelope, builder.buildSigned crates plan signingKey seqNum = .ok envelope) ↔
      (0 < plan.len ∧ plan.len ≤ 100) ∧
        ∃ hash, HashableAs crates builder plan signingKey seqNum hash := by
  constructor
  · intro h
    obtain ⟨envelope,h⟩ := h
    obtain ⟨unsigned,hbuild,h⟩ := bind_eq_ok h
    obtain ⟨_,_,inner,rfl,_⟩ := buildUnsigned_ok hbuild
    refine ⟨len_of_buildUnsigned hbuild,?_⟩
    cases hsign : builder.sign crates signingKey (.tx inner) with
    | error err after =>
      rw [hsign] at h
      cases h
    | ok _ after =>
      obtain ⟨inner',hash,_,hinner,hhash,_⟩ :=
        spec_of_ok (sign_spec crates builder signingKey (.tx inner)) hsign
      cases TransactionEnvelope.tx.inj hinner
      exact ⟨hash,inner,hbuild,hhash⟩
  · intro h
    obtain ⟨_,hash,inner,hbuild,hhash⟩ := h
    obtain ⟨_,_,inner',hinner,hbuilt⟩ := buildUnsigned_ok hbuild
    cases TransactionEnvelope.tx.inj hinner
    have hroom : inner.signatures.val.length < 20 := by
      rw [hbuilt.unsigned]
      decide
    obtain ⟨signatures,hsign⟩ := sign_of_hash crates builder signingKey inner hhash hroom
    refine ⟨.tx { inner with signatures := signatures },?_⟩
    unfold buildSigned
    rw [hbuild]
    change Program.outcome (builder.sign crates signingKey (.tx inner)) = _
    rw [hsign]
    rfl

end TxBuilder

end SorobanRentKeeper

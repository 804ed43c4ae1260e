import SorobanRentKeeper.Core.Provider

namespace SorobanRentKeeper

open Program

structure TxBuilder where
  networkPassphrase : String
  baseFee : UInt64
  deriving DecidableEq

structure FeePayer where
  /-- The Ed25519 seed. -/
  signingKey : Bytes32
  deriving DecidableEq

namespace FeePayer

/-- A payer from an `S...` secret seed. -/
def fromSecretKeyStr (crates : Crates) (secret : String) : Except RentkeeperError FeePayer := do
  let strkey ← (crates.strkeyFromString secret).mapError fun e =>
    .key ("secret key parse: " ++ e)
  match strkey with
  | .privateKeyEd25519 seed => .ok ⟨seed⟩
  | _ => .error (.key "expected an S... secret key, got another strkey type")

def publicBytes (crates : Crates) (payer : FeePayer) : Bytes32 :=
  crates.verifyingKey payer.signingKey

def accountIdStrkey (crates : Crates) (payer : FeePayer) : String :=
  crates.accountStrkey (payer.publicBytes crates)

end FeePayer

/-- `u64::saturating_add`. -/
def saturatingAdd (a b : UInt64) : UInt64 :=
  if a.toNat + b.toNat < 18446744073709551616 then a + b else 18446744073709551615

/-- `u32::try_from(fee).unwrap_or(u32::MAX)`. -/
def feeToU32 (fee : UInt64) : UInt32 := (u32TryFrom fee).getD 4294967295

/-- The bytes of a string, as hashing takes them. -/
def utf8 (s : String) : List UInt8 := s.toUTF8.data.toList

namespace TxBuilder

def defaultBaseFee : UInt64 := 100

def new (networkPassphrase : String) : TxBuilder := ⟨networkPassphrase,defaultBaseFee⟩

def withBaseFee (builder : TxBuilder) (baseFee : UInt64) : TxBuilder :=
  { builder with baseFee := baseFee }

/-- The one operation of a plan, chosen by its first entry. -/
def operationBody (plan : ArchivalPlan) : Except RentkeeperError OperationBody :=
  match plan.entries.head?.map PlanEntry.kind with
  | some .extend => .ok (.extendFootprintTtl ⟨.v0,plan.extendTo⟩)
  | some .restore => .ok (.restoreFootprint ⟨.v0⟩)
  | none => .error (.transaction "plan entries disappeared during build")

def buildUnsigned (crates : Crates) (builder : TxBuilder) (plan : ArchivalPlan)
    (source : PublicKey) (seqNum : Int64) : Except RentkeeperError TransactionEnvelope :=
  if plan.isEmpty then
    .error (.transaction "refusing to build a transaction for an empty plan")
  else if plan.len > 100 then
    .error (.transaction
      ("plan has " ++ toString plan.len ++ " entries; footprint supports at most 100"))
  else do
    let keys := plan.footprint
    let readWrite ← (VecM.tryFrom u32Max crates.tooLong keys).mapError fun e =>
      .xdr ("footprint: " ++ e)
    let footprint : LedgerFootprint := ⟨VecM.empty LedgerKey u32Max,readWrite⟩
    let body ← operationBody plan
    let operations ← (VecM.tryFrom 100 crates.tooLong [(⟨none,body⟩ : Operation)]).mapError fun e =>
      .xdr ("operations: " ++ e)
    let tx : Transaction := {
      sourceAccount := .ed25519 source.ed25519
      fee := feeToU32 builder.baseFee
      seqNum := seqNum
      cond := .none
      memo := .none
      operations := operations
      ext := .v1 {
        ext := .v0
        resources := {
          footprint := footprint
          instructions := 0
          diskReadBytes := 0
          writeBytes := 0 }
        resourceFee := 0 } }
    return .tx ⟨tx,VecM.empty DecoratedSignature 20⟩

/-- Works on the envelope in place. -/
def applySimulation (crates : Crates) (builder : TxBuilder) (simulation : SimulationResult) :
    EStateM RentkeeperError TransactionEnvelope Unit := do
  let transactionData ← Program.ofExcept <|
    match simulation.transactionDataXdr.filter fun data => !data.isEmpty with
    | some data => .ok data
    | none => .error (.transaction
        "simulation returned no transactionData; cannot set resource fees")
  let data ← Program.ofExcept <|
    (crates.sorobanDataFromXdrBase64 transactionData).mapError fun e =>
      .xdr ("simulation transactionData: " ++ e)
  match ← get with
  | .tx inner =>
    let total := saturatingAdd builder.baseFee simulation.minResourceFee
    set (TransactionEnvelope.tx
      { inner with tx := { inner.tx with fee := feeToU32 total, ext := .v1 data } })
  | _ => throw (.transaction "only v1 envelopes are supported")

/-- Works on the envelope in place. -/
def sign (crates : Crates) (builder : TxBuilder) (signingKey : Bytes32) :
    EStateM RentkeeperError TransactionEnvelope Unit := do
  let networkId := crates.sha256 (utf8 builder.networkPassphrase)
  let txHash ← Program.ofExcept <|
    (crates.envelopeHash (← get).tagged networkId).mapError fun e => .xdr ("tx hash: " ++ e)
  let signature : Signature := .ofBytes (crates.ed25519Sign signingKey txHash.toList)
  match ← get with
  | .tx inner =>
    let hint := (crates.verifyingKey signingKey).drop 28
    let signatures ← Program.ofExcept <|
      (VecM.tryFrom 20 crates.tooLong
        (inner.signatures.val ++ [(⟨hint,signature⟩ : DecoratedSignature)])).mapError fun _ =>
          .key "too many signatures"
    set (TransactionEnvelope.tx { inner with signatures := signatures })
  | _ => throw (.transaction "only v1 envelopes are supported")

/-- What `build_unsigned` puts in the envelope of a plan. -/
structure Built (builder : TxBuilder) (plan : ArchivalPlan) (source : PublicKey) (seqNum : Int64)
    (body : OperationBody) (data : SorobanTransactionData) (inner : TransactionV1Envelope) :
    Prop where
  source : inner.tx.sourceAccount = .ed25519 source.ed25519
  fee : inner.tx.fee = feeToU32 builder.baseFee
  seqNum : inner.tx.seqNum = seqNum
  cond : inner.tx.cond = .none
  memo : inner.tx.memo = .none
  chosen : operationBody plan = .ok body
  operations : inner.tx.operations.val = [⟨none,body⟩]
  ext : inner.tx.ext = .v1 data
  readOnly : data.resources.footprint.readOnly.val = []
  readWrite : data.resources.footprint.readWrite.val = plan.footprint
  resourceFee : data.resourceFee = 0
  unsigned : inner.signatures.val = []

theorem operationBody_ok (plan : ArchivalPlan) (h : 0 < plan.len) :
    ∃ body, operationBody plan = .ok body := by
  unfold operationBody
  cases he : plan.entries with
  | nil => simp [ArchivalPlan.len,he] at h
  | cons e es =>
    cases hk : e.kind with
    | extend => exact ⟨.extendFootprintTtl ⟨.v0,plan.extendTo⟩,by simp [hk]⟩
    | restore => exact ⟨.restoreFootprint ⟨.v0⟩,by simp [hk]⟩

/-- A plan of one to a hundred entries is always built. -/
theorem buildUnsigned_of_len (crates : Crates) (builder : TxBuilder) (plan : ArchivalPlan)
    (source : PublicKey) (seqNum : Int64) (hpos : 0 < plan.len) (hle : plan.len ≤ 100) :
    ∃ body data inner, builder.buildUnsigned crates plan source seqNum = .ok (.tx inner) ∧
      Built builder plan source seqNum body data inner := by
  have hempty : plan.isEmpty = false := by
    cases he : plan.entries with
    | nil => simp [ArchivalPlan.len,he] at hpos
    | cons e es => simp [ArchivalPlan.isEmpty,he]
  have hkeys : plan.footprint.length ≤ u32Max := by
    rw [ArchivalPlan.length_footprint]
    exact Nat.le_trans hle (by decide)
  have hgt : ¬plan.len > 100 := Nat.not_lt.mpr hle
  obtain ⟨body,hbody⟩ := operationBody_ok plan hpos
  unfold buildUnsigned
  simp only [hempty,Bool.false_eq_true,if_false,hgt,hbody,VecM.tryFrom_ok hkeys]
  exact ⟨body,_,_,rfl,rfl,rfl,rfl,rfl,rfl,hbody,rfl,rfl,rfl,rfl,rfl,rfl⟩

/-- Only such a plan is built. -/
theorem len_of_buildUnsigned {crates : Crates} {builder : TxBuilder} {plan : ArchivalPlan}
    {source : PublicKey} {seqNum : Int64} {envelope : TransactionEnvelope}
    (h : builder.buildUnsigned crates plan source seqNum = .ok envelope) :
    0 < plan.len ∧ plan.len ≤ 100 := by
  obtain ⟨hne,h⟩ := Program.check_eq_ok h
  obtain ⟨hle,_⟩ := Program.check_eq_ok h
  refine ⟨List.length_pos_iff.mpr ?_,Nat.not_lt.mp hle⟩
  simpa [ArchivalPlan.isEmpty] using hne

theorem buildUnsigned_ok {crates : Crates} {builder : TxBuilder} {plan : ArchivalPlan}
    {source : PublicKey} {seqNum : Int64} {envelope : TransactionEnvelope}
    (h : builder.buildUnsigned crates plan source seqNum = .ok envelope) :
    ∃ body data inner, envelope = .tx inner ∧
      Built builder plan source seqNum body data inner := by
  obtain ⟨hpos,hle⟩ := len_of_buildUnsigned h
  obtain ⟨body,data,inner,hbuild,hbuilt⟩ :=
    buildUnsigned_of_len crates builder plan source seqNum hpos hle
  rw [hbuild] at h
  exact ⟨body,data,inner,(Except.ok.inj h).symm,hbuilt⟩

/-- The footprint of a built envelope is the plan's. -/
theorem footprintKeys_of_buildUnsigned {crates : Crates} {builder : TxBuilder}
    {plan : ArchivalPlan} {source : PublicKey} {seqNum : Int64} {envelope : TransactionEnvelope}
    (h : builder.buildUnsigned crates plan source seqNum = .ok envelope) :
    envelope.footprintKeys = plan.footprint := by
  obtain ⟨body,data,inner,rfl,hbuilt⟩ := buildUnsigned_ok h
  simp [TransactionEnvelope.footprintKeys,TransactionEnvelope.sorobanData,hbuilt.ext,
    LedgerFootprint.keys,hbuilt.readOnly,hbuilt.readWrite]

/-- A transaction after a simulation: the node's data in place of its own, and the fee raised. -/
def priced (builder : TxBuilder) (minResourceFee : UInt64) (data : SorobanTransactionData)
    (tx : Transaction) : Transaction :=
  { tx with fee := feeToU32 (saturatingAdd builder.baseFee minResourceFee), ext := .v1 data }

/-- Any data that decodes is taken over; nothing is compared. -/
theorem applySimulation_of_data (crates : Crates) (builder : TxBuilder)
    (simulation : SimulationResult) (inner : TransactionV1Envelope) {text : String}
    {data : SorobanTransactionData} (htext : simulation.transactionDataXdr = some text)
    (hne : text.isEmpty = false) (hdata : crates.sorobanDataFromXdrBase64 text = .ok data) :
    builder.applySimulation crates simulation (.tx inner) =
      .ok () (.tx { inner with tx := builder.priced simulation.minResourceFee data inner.tx }) := by
  unfold applySimulation
  simp only [htext,Option.filter_some,hne,Bool.not_false,if_true,Program.ofExcept_ok,pure_bind,
    hdata,Except.mapError]
  rfl

/-- Either the simulation's data decodes and the transaction is priced, or nothing happens. -/
theorem applySimulation_spec (crates : Crates) (builder : TxBuilder)
    (simulation : SimulationResult) (envelope : TransactionEnvelope) :
    Spec (builder.applySimulation crates simulation) envelope
      (fun _ after => ∃ inner text data, envelope = .tx inner ∧
        simulation.transactionDataXdr = some text ∧ text.isEmpty = false ∧
        crates.sorobanDataFromXdrBase64 text = .ok data ∧
        after = .tx { inner with tx := builder.priced simulation.minResourceFee data inner.tx })
      (fun _ after => after = envelope) := by
  unfold applySimulation
  refine spec_ofExcept_bind ?_ (fun _ _ => rfl)
  intro text htext
  have hgiven : simulation.transactionDataXdr.filter (fun data => !data.isEmpty) = some text := by
    split at htext
    · next hfilter => rwa [Except.ok.inj htext] at hfilter
    · cases htext
  obtain ⟨htext,hne⟩ := Option.filter_eq_some_iff.mp hgiven
  refine spec_ofExcept_bind ?_ (fun _ _ => rfl)
  intro data hdata
  rw [spec_bind,spec_get]
  cases envelope with
  | txV0 body signatures => rfl
  | tx inner =>
    exact ⟨inner,text,data,rfl,htext,by simpa using hne,mapError_eq_ok hdata,rfl⟩
  | txFeeBump body signatures => rfl

theorem applySimulation_ok {crates : Crates} {builder : TxBuilder}
    {simulation : SimulationResult} {inner : TransactionV1Envelope}
    {envelope : TransactionEnvelope}
    (h : builder.applySimulation crates simulation (.tx inner) = .ok () envelope) :
    ∃ text data, simulation.transactionDataXdr = some text ∧ text.isEmpty = false ∧
      crates.sorobanDataFromXdrBase64 text = .ok data ∧
      envelope =
        .tx { inner with tx := builder.priced simulation.minResourceFee data inner.tx } := by
  obtain ⟨inner',text,data,hinner,htext,hne,hdata,hafter⟩ :=
    spec_of_ok (applySimulation_spec crates builder simulation (.tx inner)) h
  cases TransactionEnvelope.tx.inj hinner
  exact ⟨text,data,htext,hne,hdata,hafter⟩

/-- Signing needs the hash, and room for one more signature. -/
theorem sign_of_hash (crates : Crates) (builder : TxBuilder) (signingKey : Bytes32)
    (inner : TransactionV1Envelope) {hash : Bytes32}
    (hhash : crates.envelopeHash (.tx inner.tx)
      (crates.sha256 (utf8 builder.networkPassphrase)) = .ok hash)
    (hroom : inner.signatures.val.length < 20) :
    ∃ signatures, builder.sign crates signingKey (.tx inner) =
      .ok () (.tx { inner with signatures := signatures }) := by
  have hlen : (inner.signatures.val ++ [(⟨(crates.verifyingKey signingKey).drop 28,
      .ofBytes (crates.ed25519Sign signingKey hash.toList)⟩ : DecoratedSignature)]).length ≤
        20 := by
    rw [List.length_append,List.length_singleton]
    omega
  refine ⟨⟨_,hlen⟩,?_⟩
  unfold sign
  rw [Program.get_bind]
  simp only [TransactionEnvelope.tagged,hhash,Except.mapError,Program.ofExcept_ok,pure_bind]
  rw [Program.get_bind]
  simp only [VecM.tryFrom_ok hlen,Program.ofExcept_ok,pure_bind]
  rfl

/-- The id of the builder's network, under which transactions are hashed. -/
def networkId (crates : Crates) (builder : TxBuilder) : Bytes32 :=
  crates.sha256 (utf8 builder.networkPassphrase)

/-- The signature `sign` adds to an envelope with the given hash. -/
def decorated (crates : Crates) (signingKey hash : Bytes32) : DecoratedSignature :=
  ⟨(crates.verifyingKey signingKey).drop 28,.ofBytes (crates.ed25519Sign signingKey hash.toList)⟩

/-- Either one signature is appended, of the hash of what stays as it is, or nothing is. -/
theorem sign_spec (crates : Crates) (builder : TxBuilder) (signingKey : Bytes32)
    (envelope : TransactionEnvelope) :
    Spec (builder.sign crates signingKey) envelope
      (fun _ after => ∃ inner hash signatures, envelope = .tx inner ∧
        crates.envelopeHash (.tx inner.tx) (builder.networkId crates) = .ok hash ∧
        signatures.val = inner.signatures.val ++ [decorated crates signingKey hash] ∧
        after = .tx { inner with signatures := signatures })
      (fun _ after => after = envelope) := by
  unfold sign
  rw [spec_bind,spec_get]
  refine spec_ofExcept_bind ?_ (fun _ _ => rfl)
  intro hash hhash
  rw [spec_bind,spec_get]
  cases envelope with
  | txV0 body signatures => rfl
  | txFeeBump body signatures => rfl
  | tx inner =>
    refine spec_ofExcept_bind ?_ (fun _ _ => rfl)
    intro signatures hroom
    refine ⟨inner,hash,signatures,rfl,mapError_eq_ok hhash,?_,rfl⟩
    have hfit := mapError_eq_ok hroom
    unfold VecM.tryFrom at hfit
    split at hfit
    · cases hfit
      rfl
    · cases hfit

end TxBuilder

end SorobanRentKeeper

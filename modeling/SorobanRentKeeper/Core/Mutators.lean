import SorobanRentKeeper.Core.Tx

namespace SorobanRentKeeper

open Program

/-- The signatures of an envelope of any kind. -/
def TransactionEnvelope.signatures : TransactionEnvelope → List DecoratedSignature
  | .txV0 _ signatures => signatures.val
  | .tx inner => inner.signatures.val
  | .txFeeBump _ signatures => signatures.val

namespace TxBuilder

/-- The signature is an Ed25519 signature of the envelope's hash under the key; only what the hash
covers matters. -/
def Verifies (crates : Crates) (verify : Bytes32 → List UInt8 → Vector UInt8 64 → Bool)
    (builder : TxBuilder) (envelope : TransactionEnvelope) (publicKey : Bytes32)
    (s : DecoratedSignature) : Prop :=
  ∃ hash bytes, crates.envelopeHash envelope.tagged (builder.networkId crates) = .ok hash ∧
    s.signature = .ofBytes bytes ∧ verify publicKey hash.toList bytes = true

/-- What the signature of a seed is made for is accepted under its public key. -/
def Correct (crates : Crates) (verify : Bytes32 → List UInt8 → Vector UInt8 64 → Bool) : Prop :=
  ∀ seed message,
    verify (crates.verifyingKey seed) message (crates.ed25519Sign seed message) = true

/-- The envelope after it was signed with some keys: the same body, and one more signature for
each of them, valid like all that were valid before. -/
structure Signed (crates : Crates) (verify : Bytes32 → List UInt8 → Vector UInt8 64 → Bool)
    (builder : TxBuilder) (signingKeys : List Bytes32) (envelope after : TransactionEnvelope) :
    Prop where
  body : after.tagged = envelope.tagged
  appended : ∃ added, after.signatures = envelope.signatures ++ added ∧
    List.Forall₂ (fun key s => s.hint = (crates.verifyingKey key).drop 28 ∧
      Verifies crates verify builder after (crates.verifyingKey key) s) signingKeys added
  kept : ∀ publicKey s, Verifies crates verify builder envelope publicKey s →
    Verifies crates verify builder after publicKey s

theorem signed_of_sign {crates : Crates} {builder : TxBuilder}
    {verify : Bytes32 → List UInt8 → Vector UInt8 64 → Bool} (hverify : Correct crates verify)
    {signingKey : Bytes32} {envelope after : TransactionEnvelope}
    (h : builder.sign crates signingKey envelope = .ok () after) :
    Signed crates verify builder [signingKey] envelope after := by
  obtain ⟨inner,hash,signatures,rfl,hhash,hsignatures,rfl⟩ :=
    spec_of_ok (sign_spec crates builder signingKey envelope) h
  refine ⟨rfl,⟨[decorated crates signingKey hash],hsignatures,.cons ⟨rfl,?_⟩ .nil⟩,?_⟩
  · exact ⟨hash,_,hhash,rfl,hverify signingKey hash.toList⟩
  · exact fun _ _ hvalid => hvalid

/-- Signing again adds to what was signed. -/
theorem Signed.trans {crates : Crates} {builder : TxBuilder}
    {verify : Bytes32 → List UInt8 → Vector UInt8 64 → Bool} {keys keys' : List Bytes32}
    {envelope between after : TransactionEnvelope}
    (h : Signed crates verify builder keys envelope between)
    (h' : Signed crates verify builder keys' between after) :
    Signed crates verify builder (keys ++ keys') envelope after := by
  obtain ⟨added,hadded,hvalid⟩ := h.appended
  obtain ⟨added',hadded',hvalid'⟩ := h'.appended
  refine ⟨h'.body.trans h.body,⟨added ++ added',?_,?_⟩,?_⟩
  · rw [hadded',hadded,List.append_assoc]
  · refine List.rel_append ?_ hvalid'
    exact hvalid.imp fun _ _ hs => ⟨hs.1,h'.kept _ _ hs.2⟩
  · exact fun publicKey s hs => h'.kept publicKey s (h.kept publicKey s hs)

/-- `sign` with one key after the other. -/
def signAll (crates : Crates) (builder : TxBuilder) :
    List Bytes32 → EStateM RentkeeperError TransactionEnvelope Unit
  | [] => return ()
  | key::keys => do
    builder.sign crates key
    signAll crates builder keys

/-- Any run of successful signings: induction on the keys still to sign with. -/
theorem signed_of_signAll {crates : Crates} {builder : TxBuilder}
    {verify : Bytes32 → List UInt8 → Vector UInt8 64 → Bool} (hverify : Correct crates verify)
    {signingKeys : List Bytes32} {envelope after : TransactionEnvelope}
    (h : builder.signAll crates signingKeys envelope = .ok () after) :
    Signed crates verify builder signingKeys envelope after := by
  induction signingKeys generalizing envelope with
  | nil =>
    cases h
    exact ⟨rfl,⟨[],by simp,.nil⟩,fun _ _ hvalid => hvalid⟩
  | cons key keys ih =>
    obtain ⟨_,between,hfirst,hrest⟩ := run_bind h
    exact (signed_of_sign hverify hfirst).trans (ih hrest)

/-- What the two mutators of an envelope owe their caller. -/
structure AllOrNothing (crates : Crates)
    (verify : Bytes32 → List UInt8 → Vector UInt8 64 → Bool) (builder : TxBuilder)
    (envelope : TransactionEnvelope) : Prop where
  unpriced : ∀ simulation err after,
    builder.applySimulation crates simulation envelope = .error err after → after = envelope
  priced : ∀ simulation after,
    builder.applySimulation crates simulation envelope = .ok () after →
    ∃ inner fee ext, envelope = .tx inner ∧
      after = .tx { inner with tx := { inner.tx with fee := fee, ext := ext } }
  unsigned : ∀ signingKey err after,
    builder.sign crates signingKey envelope = .error err after → after = envelope
  signed : ∀ signingKey after, builder.sign crates signingKey envelope = .ok () after →
    ∃ inner s signatures, envelope = .tx inner ∧
      signatures.val = inner.signatures.val ++ [s] ∧
      after = .tx { inner with signatures := signatures }
  signedAgain : ∀ signingKeys after,
    builder.signAll crates signingKeys envelope = .ok () after →
    Signed crates verify builder signingKeys envelope after

/-- An error leaves the envelope alone, success changes what it is for, and signing any number of
times keeps all signatures valid. -/
theorem mutators_allOrNothing (crates : Crates)
    (verify : Bytes32 → List UInt8 → Vector UInt8 64 → Bool) (hverify : Correct crates verify)
    (builder : TxBuilder) (envelope : TransactionEnvelope) :
    AllOrNothing crates verify builder envelope := by
  constructor
  · intro simulation err after h
    have hkept := spec_of_error (applySimulation_spec crates builder simulation envelope) h
    exact hkept
  · intro simulation after h
    obtain ⟨inner,text,data,henvelope,_,_,_,hafter⟩ :=
      spec_of_ok (applySimulation_spec crates builder simulation envelope) h
    exact ⟨inner,_,.v1 data,henvelope,hafter⟩
  · intro signingKey err after h
    have hkept := spec_of_error (sign_spec crates builder signingKey envelope) h
    exact hkept
  · intro signingKey after h
    obtain ⟨inner,hash,signatures,henvelope,_,hsignatures,hafter⟩ :=
      spec_of_ok (sign_spec crates builder signingKey envelope) h
    exact ⟨inner,_,signatures,henvelope,hsignatures,hafter⟩
  · intro signingKeys after h
    exact signed_of_signAll hverify h

/-- The public key of the all-zero seed. -/
def samplePublicKey : Bytes32 :=
  #v[59,106,39,188,206,182,164,45,98,163,168,208,42,111,13,115,101,50,21,119,29,226,67,166,58,192,
    72,161,139,89,218,41]

/-- An extension of the code entry to 200 ledgers, priced at 1100 stroops. -/
def sampleTx : Transaction where
  sourceAccount := .ed25519 samplePublicKey
  fee := 1100
  seqNum := 8
  cond := .none
  memo := .none
  operations := ⟨[⟨none,.extendFootprintTtl ⟨.v0,200⟩⟩],Nat.le_of_ble_eq_true rfl⟩
  ext := .v1 ⟨.v0,⟨⟨VecM.empty LedgerKey u32Max,⟨[codeKey],Nat.le_of_ble_eq_true rfl⟩⟩,0,0,0⟩,0⟩

/-- Its hash on the test network. -/
def sampleHash : Bytes32 :=
  #v[138,180,248,73,72,113,219,20,168,70,204,54,80,28,240,95,17,201,51,73,90,30,241,212,120,161,
    141,254,204,201,216,14]

/-- The signature of a message under a public key: computed for the sample transaction. -/
def sampleSignature (publicKey : Bytes32) (message : List UInt8) : Vector UInt8 64 :=
  if publicKey = samplePublicKey ∧ message = sampleHash.toList then
    #v[93,61,195,116,235,108,188,147,189,91,28,128,40,26,70,179,111,110,120,213,63,3,212,236,95,130,
      252,120,224,180,211,39,245,54,214,175,203,152,88,254,177,108,144,54,86,196,154,197,179,58,
      147,168,227,214,211,154,253,85,214,94,76,251,15,2]
  else Vector.replicate 64 0

/-- The sample libraries with the signature of the sample transaction. -/
def signingCrates : Crates := { sampleCrates with
  verifyingKey := fun seed => if seed = Vector.replicate 32 0 then samplePublicKey else seed
  envelopeHash := fun tagged _ =>
    .ok (if tagged = .tx sampleTx then sampleHash else Vector.replicate 32 0)
  ed25519Sign := fun seed message =>
    sampleSignature (if seed = Vector.replicate 32 0 then samplePublicKey else seed) message
  sha256 := fun message =>
    if message = utf8 "Test SDF Network ; September 2015" then
      #v[206,224,48,45,89,132,77,50,189,202,145,92,130,3,221,68,179,63,187,126,220,25,5,30,163,122,
        190,223,40,236,212,114]
    else sampleCrates.sha256 message }

def sampleVerify (publicKey : Bytes32) (message : List UInt8) (signature : Vector UInt8 64) :
    Bool := signature = sampleSignature publicKey message

theorem correct_signingCrates : Correct signingCrates sampleVerify :=
  fun _ _ => decide_eq_true rfl

theorem mutators_allOrNothing_sample :
    AllOrNothing signingCrates sampleVerify (TxBuilder.new "Test SDF Network ; September 2015")
      (.tx ⟨sampleTx,VecM.empty DecoratedSignature 20⟩) :=
  mutators_allOrNothing signingCrates sampleVerify correct_signingCrates _ _

end TxBuilder

end SorobanRentKeeper

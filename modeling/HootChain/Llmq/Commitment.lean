import HootChain.Llmq.ParamsTable

/-!
# Final Commitments (`llmq/commitment.cpp`, `llmq/options.cpp`)

The outcome of a DKG session as it is mined, or a *null* commitment in its place, and
the checks that are made of a commitment on its own. Which quorum types are enabled and
which of them rotate depends on the height.
-/

namespace HootChain.Llmq

open Consensus Primitives

/-! ## Enabled types and rotation -/

/-- The consensus parameters that the quorum options read. -/
structure QuorumConsensus where
  network : Network
  dip0003Height : Int
  dip0020Height : Int
  dip0024Height : Int
  dip0024QuorumsHeight : Int
  v19Height : Int
  llmqTypeDIP0024InstantSend : LLMQType
  /-- `DeploymentActiveAfter(.., DEPLOYMENT_TESTDUMMY)` of the block at a height. -/
  testDummyActiveAfter : Int → Bool

/-- `CTestNetParams`. -/
def testNetQuorumConsensus : QuorumConsensus where
  network := .test
  dip0003Height := 2
  dip0020Height := 150
  dip0024Height := 300
  dip0024QuorumsHeight := 300
  v19Height := 300
  llmqTypeDIP0024InstantSend := .llmq60_75
  testDummyActiveAfter := fun _ => false

namespace QuorumConsensus

section

variable (c : QuorumConsensus)

/-- `IsQuorumRotationEnabled` at the block of a height. -/
def isQuorumRotationEnabled (params : LLMQParams) (nHeight : Int) : Bool :=
  let cycleQuorumBaseHeight := nHeight - nHeight.tmod params.dkgInterval
  -- it activates at least one block prior to the cycle start
  params.useRotation && cycleQuorumBaseHeight ≥ 1 && cycleQuorumBaseHeight - 1 + 1 ≥ c.dip0024Height

/-- `IsQuorumTypeEnabled` after the block of a height. -/
def isQuorumTypeEnabled (llmqType : LLMQType) (prevHeight : Int) : Bool :=
  let fDIP0024IsActive := prevHeight + 1 ≥ c.dip0024Height
  let fHaveDIP0024Quorums := prevHeight ≥ c.dip0024QuorumsHeight
  match llmqType with
  | .devnet => true
  | .llmq50_60 => prevHeight ≥ 1000 ∨ c.network = .test
  | .testInstantSend =>
    ¬ fDIP0024IsActive ∨ ¬ fHaveDIP0024Quorums ∨ c.llmqTypeDIP0024InstantSend = .testInstantSend
  | .test | .testPlatform | .llmq400_60 | .llmq400_85 | .devnetPlatform => true
  | .testV17 => c.testDummyActiveAfter prevHeight
  | .llmq100_67 => prevHeight + 1 ≥ c.dip0020Height
  | .llmq60_75 | .devnetDip0024 | .testDip0024 => fDIP0024IsActive
  -- no table has an entry for it, and the source throws
  | .none => false

/-- `GetEnabledQuorumParams`, in the order of the map. -/
def getEnabledQuorumParams (llmqs : LlmqTable) (prevHeight : Int) : List (LLMQType × LLMQParams) :=
  LLMQType.all.filterMap fun llmqType =>
    if c.isQuorumTypeEnabled llmqType prevHeight then (llmqs llmqType).map (llmqType, ·) else none

end

end QuorumConsensus

/-! ## Commitments -/

/-- `CFinalCommitment`. A key or signature is `none` where its `IsValid` is false. -/
structure CFinalCommitment where
  nVersion : Nat
  llmqType : LLMQType
  quorumHash : Uint256
  quorumIndex : Int
  signers : List Bool
  validMembers : List Bool
  quorumPublicKey : Option Nat := none
  quorumVvecHash : Uint256 := 0
  quorumSig : Option Nat := none
  membersSig : Option Nat := none
  deriving DecidableEq

/-- Every entry of the table is filed under its type and starts its quorums in time. -/
def LlmqTable.WellFormed (llmqs : LlmqTable) : Prop :=
  ∀ llmqType params, llmqs llmqType = some params →
    params.type = llmqType ∧ params.StartsBeforeMining

lemma LlmqTable.OfSets.wellFormed {llmqs : LlmqTable} (h : llmqs.OfSets) : llmqs.WellFormed :=
  fun llmqType params hparams => ⟨(h llmqType params hparams).2,
    parameterSets_startBeforeMining params (h llmqType params hparams).1⟩

/-- What the checks read besides the chain while a block is processed. -/
structure QuorumView where
  llmqs : LlmqTable
  llmqs_wellFormed : llmqs.WellFormed
  /-- The size of `GetAllQuorumMembers` for the quorum of a base block. -/
  membersSize : LLMQType → Uint256 → Nat
  /-- Both signatures of a commitment verify. -/
  sigsVerify : CFinalCommitment → Bool

namespace CFinalCommitment

def getVersion (isRotationEnabled isBasicSchemeActive : Bool) : Nat :=
  if isRotationEnabled then (if isBasicSchemeActive then 4 else 2)
  else (if isBasicSchemeActive then 3 else 1)

section

variable (qc : CFinalCommitment)

def countSigners : Int := qc.signers.count true

def countValidMembers : Int := qc.validMembers.count true

def isNull : Bool :=
  qc.countSigners = 0 && qc.countValidMembers = 0 && qc.quorumPublicKey.isNone &&
    qc.quorumVvecHash = 0 && qc.membersSig.isNone && qc.quorumSig.isNone

def verifySizes (params : LLMQParams) : Bool :=
  (qc.signers.length : Int) = params.size && (qc.validMembers.length : Int) = params.size

def verifyNull (llmqs : LlmqTable) : Bool :=
  match llmqs qc.llmqType with
  | none => false
  | some params => qc.isNull && qc.verifySizes params

end

/-- `Verify` against the base block with the given hash and height. -/
def verify (c : QuorumConsensus) (view : QuorumView) (qc : CFinalCommitment)
    (baseHash : Uint256) (baseHeight : Int) (checkSigs : Bool) : Bool :=
  match view.llmqs qc.llmqType with
  | none => false
  | some params =>
    let expectedVersion := getVersion (c.isQuorumRotationEnabled params baseHeight)
      (baseHeight + 1 ≥ c.v19Height)
    let members := view.membersSize qc.llmqType baseHash
    qc.nVersion = expectedVersion && baseHash = qc.quorumHash &&
      baseHeight.tmod params.dkgInterval = qc.quorumIndex && qc.verifySizes params &&
      qc.countValidMembers ≥ params.minSize && qc.countSigners ≥ params.minSize &&
      qc.quorumPublicKey.isSome && qc.quorumVvecHash ≠ 0 && qc.membersSig.isSome &&
      qc.quorumSig.isSome &&
      -- no bit is set past the members
      (qc.validMembers.drop members).all (· = false) && (qc.signers.drop members).all (· = false) &&
      (!checkSigs || view.sigsVerify qc)

end CFinalCommitment

end HootChain.Llmq

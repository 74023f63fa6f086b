import HootChain.Chain
import HootChain.Evo.MnList
import HootChain.Llmq.Params

/-!
# Provider Transactions (`evo/providertx.h`, `evo/deterministicmns.cpp`)

The special transactions that change the masternode list, the blocks and chains they
come in, and their checks against the list of the previous block.

Of the checks only those that read the list or the keys are here; the others
(signatures, scripts, addresses, collaterals) reject further transactions.
-/

namespace HootChain.Evo

open Consensus Primitives Llmq

/-! ## Payloads -/

structure CProRegTx where
  nVersion : Nat := legacyBlsVersion
  nType : MnType := .regular
  collateralOutpoint : COutPoint
  addr : CService
  platformNodeID : Nat := 0
  platformP2PPort : Nat := 0
  platformHTTPPort : Nat := 0
  keyIDOwner : CKeyID
  pubKeyOperator : CBLSLazyPublicKey
  keyIDVoting : CKeyID
  nOperatorReward : Nat := 0
  scriptPayout : CScript := []
  deriving DecidableEq

structure CProUpServTx where
  nType : MnType
  proTxHash : Uint256
  addr : CService
  scriptOperatorPayout : CScript
  deriving DecidableEq

structure CProUpRegTx where
  nVersion : Nat
  proTxHash : Uint256
  pubKeyOperator : CBLSLazyPublicKey
  keyIDVoting : CKeyID
  scriptPayout : CScript
  deriving DecidableEq

structure CProUpRevTx where
  proTxHash : Uint256
  nReason : Nat
  deriving DecidableEq

/-- `CFinalCommitmentTxPayload` with the fields of its commitment; `isNull` is what the
commitment's `IsNull` returns. -/
structure CFinalCommitmentTxPayload where
  nHeight : Int
  llmqType : LLMQType
  quorumHash : Uint256
  quorumIndex : Int
  validMembers : List Bool
  isNull : Bool
  deriving DecidableEq

/-- What `BuildNewListFromBlock` sees of a transaction's type and payload. A payload is
`none` where `GetTxPayload` fails. -/
inductive SpecialPayload where
  | none
  | proReg (payload : Option CProRegTx)
  | proUpServ (payload : Option CProUpServTx)
  | proUpReg (payload : Option CProUpRegTx)
  | proUpRev (payload : Option CProUpRevTx)
  | quorumCommitment (payload : Option CFinalCommitmentTxPayload)
  deriving DecidableEq

/-! ## Blocks and chains -/

structure CTransaction where
  hash : Uint256
  vin : List COutPoint
  payload : SpecialPayload
  deriving DecidableEq

structure CCbTx where
  nHeight : Int
  merkleRootMNList : Uint256
  deriving DecidableEq

/-- The type and payload of a coinbase. -/
inductive CoinbasePayload where
  | none
  | undecodable
  | cbTx (payload : CCbTx)
  deriving DecidableEq

/-- `CBlock`: its hash, its coinbase, and the transactions after the coinbase. -/
structure CBlock where
  hash : Uint256
  coinbase : CoinbasePayload
  txs : List CTransaction
  deriving DecidableEq

/-- `CBlockIndex`: a block with its ancestors, the nearest first. -/
abbrev CBlockIndex := List CBlock

namespace CBlockIndex

section

variable (pindex : CBlockIndex)

def nHeight : Int := pindex.length - 1

def getBlockHash : Uint256 := (pindex.head?.map CBlock.hash).getD 0

def getAncestor (height : Int) : Option CBlockIndex :=
  if height > nHeight pindex ∨ height < 0 then none
  else some (pindex.drop (nHeight pindex - height).toNat)

end

end CBlockIndex

/-- What the list is computed from besides the blocks. -/
structure MnEnv where
  params : Params
  /-- `DeploymentActiveAfter(pindexPrev, .., DEPLOYMENT_MN_RR)`. -/
  mnRewardReallocation : CBlockIndex → Bool
  /-- The value of an unspent coin in the view of the block after `pindexPrev`. -/
  getCoin : CBlockIndex → COutPoint → Option CAmount
  /-- `consensus.llmqs` while the block after `pindexPrev` is processed. -/
  llmqs : CBlockIndex → LLMQType → Option LLMQParams
  /-- `GetAllQuorumMembers`, the registrations of the members. -/
  getAllQuorumMembers : LLMQType → CBlockIndex → List Uint256
  /-- The hash of `UpdateConfirmedHash`. -/
  sha256 : Uint256 → Uint256 → Uint256

namespace MnEnv

/-- `DeploymentActiveAfter(pindexPrev, .., DEPLOYMENT_V19)`. -/
def isV19Active (env : MnEnv) (pindexPrev : CBlockIndex) : Bool :=
  CBlockIndex.nHeight pindexPrev + 1 ≥ env.params.v19Height

/-- `DeploymentActiveAfter(pindexPrev, .., DEPLOYMENT_DIP0003)`. -/
def isDIP0003Active (env : MnEnv) (pindexPrev : CBlockIndex) : Bool :=
  CBlockIndex.nHeight pindexPrev + 1 ≥ env.params.dip0003Height

end MnEnv

/-! ## Checks against the list of the previous block -/

/-- The collateral of a registration: the given one, or an output of the transaction. -/
def CProRegTx.collateral (proTx : CProRegTx) (hash : Uint256) : COutPoint :=
  if proTx.collateralOutpoint.hash = 0 then ⟨hash, proTx.collateralOutpoint.n⟩
  else proTx.collateralOutpoint

section

variable (mnList : CDeterministicMNList)

def checkProRegTx (hash : Uint256) (proTx : CProRegTx) : Except MnFailure Unit :=
  if proTx.keyIDOwner = 0 ∨ ¬ proTx.pubKeyOperator.isValid ∨ proTx.keyIDVoting = 0 then
    .error (.invalid "bad-protx-key-null")
  else if ¬ proTx.pubKeyOperator.inScheme (proTx.nVersion == legacyBlsVersion) then
    .error (.invalid "bad-protx-operator-pubkey")
  -- addresses are only reused by a registration that replaces the one with the collateral
  else if mnList.hasUniqueProperty (.addr proTx.addr) ∧
      (mnList.getUniquePropertyMN (.addr proTx.addr)).map CDeterministicMN.collateralOutpoint ≠
        some (proTx.collateral hash) then
    .error (.invalid "bad-protx-dup-addr")
  else if mnList.hasUniqueProperty (.owner proTx.keyIDOwner) ∨
      mnList.hasUniqueProperty (.operator proTx.pubKeyOperator) then
    .error (.invalid "bad-protx-dup-key")
  else
    .ok ()

/-- The list has the value, and not under `proTxHash`. -/
def usedByOther (v : UniqueProperty) (proTxHash : Uint256) : Bool :=
  mnList.hasUniqueProperty v &&
    (mnList.getUniquePropertyMN v).map CDeterministicMN.proTxHash != some proTxHash

def checkProUpServTx (proTx : CProUpServTx) : Except MnFailure Unit :=
  if ¬ mnList.hasMN proTx.proTxHash then
    .error (.invalid "bad-protx-hash")
  else if usedByOther mnList (.addr proTx.addr) proTx.proTxHash then
    .error (.invalid "bad-protx-dup-addr")
  else
    .ok ()

def checkProUpRegTx (proTx : CProUpRegTx) : Except MnFailure Unit :=
  if ¬ proTx.pubKeyOperator.isValid ∨ proTx.keyIDVoting = 0 then
    .error (.invalid "bad-protx-key-null")
  else if ¬ proTx.pubKeyOperator.inScheme (proTx.nVersion == legacyBlsVersion) then
    .error (.invalid "bad-protx-operator-pubkey")
  else if ¬ mnList.hasMN proTx.proTxHash then
    .error (.invalid "bad-protx-hash")
  else if usedByOther mnList (.operator proTx.pubKeyOperator) proTx.proTxHash then
    .error (.invalid "bad-protx-dup-key")
  else
    .ok ()

def checkProUpRevTx (proTx : CProUpRevTx) : Except MnFailure Unit :=
  if ¬ mnList.hasMN proTx.proTxHash then .error (.invalid "bad-protx-hash") else .ok ()

end

/-- A payload that has to decode. -/
def withPayload {α : Type} (payload : Option α) (check : α → Except MnFailure Unit) :
    Except MnFailure Unit :=
  match payload with
  | none => .error (.invalid "bad-protx-payload")
  | some proTx => check proTx

/-- `CheckSpecialTxInner` for a transaction other than the coinbase, `mnList` being the
list of the previous block. -/
def checkSpecialTx (env : MnEnv) (pindexPrev : CBlockIndex) (mnList : CDeterministicMNList)
    (tx : CTransaction) : Except MnFailure Unit :=
  if tx.payload = .none then
    .ok ()
  else if ¬ env.isDIP0003Active pindexPrev then
    .error (.invalid "bad-tx-type")
  else
    match tx.payload with
    | .none => .ok ()
    | .proReg payload => withPayload payload (checkProRegTx mnList tx.hash)
    | .proUpServ payload => withPayload payload (checkProUpServTx mnList)
    | .proUpReg payload => withPayload payload (checkProUpRegTx mnList)
    | .proUpRev payload => withPayload payload (checkProUpRevTx mnList)
    | .quorumCommitment _ => .ok ()

/-- `CheckSpecialTxInner` for the coinbase, with `CheckCbTx`. -/
def checkCoinbase (env : MnEnv) (pindexPrev : CBlockIndex) (coinbase : CoinbasePayload) :
    Except MnFailure Unit :=
  if coinbase = .none then
    .ok ()
  else if ¬ env.isDIP0003Active pindexPrev then
    .error (.invalid "bad-tx-type")
  else
    match coinbase with
    | .none => .ok ()
    | .undecodable => .error (.invalid "bad-cbtx-payload")
    | .cbTx cbTx =>
      if CBlockIndex.nHeight pindexPrev + 1 ≠ cbTx.nHeight then .error (.invalid "bad-cbtx-height")
      else .ok ()

end HootChain.Evo

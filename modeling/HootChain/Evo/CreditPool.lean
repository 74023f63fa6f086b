import HootChain.Foundation.ExceptRuns
import HootChain.Primitives.Transaction
import HootChain.Util.RangesSet

/-!
# The Credit Pool (`evo/creditpool.cpp`, `evo/assetlocktx.cpp`)

Asset lock transactions put coins into the pool, asset unlock transactions take them
out. A block may unlock no more than the limit of the pool of the previous block, and no
index twice. The limit is computed from the balance, and from what was unlocked in the
last 576 blocks, which each pool takes over from the pool before it.

`creditPool` is what `GetCreditPool` computes when nothing is cached.
-/

namespace HootChain.Evo.CreditPool

open Consensus Foundation Primitives Util List Except

/-! ## Transactions and blocks -/

structure CAssetLockPayload where
  nVersion : Nat
  creditOutputs : List CTxOut
  deriving DecidableEq

/-- `CAssetUnlockPayload`, without its signature. -/
structure CAssetUnlockPayload where
  nVersion : Nat
  index : UInt64
  fee : UInt32
  requestedHeight : UInt32
  quorumHash : Uint256
  deriving DecidableEq

/-- The type of a transaction and its payload, which is `none` where `GetTxPayload` fails.
Transactions whose version is not 3 are `other`. -/
inductive AssetPayload where
  | other
  | assetLock (payload : Option CAssetLockPayload)
  | assetUnlock (payload : Option CAssetUnlockPayload)
  deriving DecidableEq

/-- `CTransaction`. -/
structure PoolTx where
  vin : List COutPoint := []
  vout : List CTxOut := []
  payload : AssetPayload
  deriving DecidableEq

open PoolTx

/-- The coinbase: one whose version is not 3, one whose payload does not decode, or the
balance that is committed to. -/
inductive PoolCoinbase where
  | legacy
  | undecodable
  | cbTx (creditPoolBalance : CAmount)
  deriving DecidableEq

/-- A block: hash, coinbase and the transactions after it. -/
structure PoolBlock where
  hash : Uint256
  coinbase : PoolCoinbase
  txs : List PoolTx := []
  deriving DecidableEq

open PoolBlock

/-- `CBlockIndex`: a block with its ancestors, the nearest first. -/
abbrev PoolIndex := List PoolBlock

def PoolIndex.nHeight (pindex : PoolIndex) : Int := pindex.length - 1

/-- What goes wrong: a consensus failure, an exception, a failed assertion. -/
inductive PoolFailure where
  | invalid (reason : String)
  | runtimeError (what : String)
  | assertion (condition : String)
  deriving DecidableEq

/-- What the pool is computed from besides the blocks. -/
structure PoolEnv where
  /-- The network is regtest. -/
  regtest : Bool
  /-- `DeploymentActiveAfter(pindexPrev, .., DEPLOYMENT_V20)`. -/
  v20ActiveAfter : PoolIndex → Bool
  v20_stays : ∀ {block pindex}, v20ActiveAfter pindex = true → v20ActiveAfter (block :: pindex) = true
  /-- `DeploymentActiveAfter(pindexPrev, .., DEPLOYMENT_MN_RR)`. -/
  mnRRActiveAfter : PoolIndex → Bool
  /-- The signals for MN_RR are only allowed after V20. -/
  mnRR_v20 : ∀ {pindex}, mnRRActiveAfter pindex = true → v20ActiveAfter pindex = true
  /-- `GetMasternodePayment` for the block after `pindexPrev`. -/
  masternodePayment : PoolIndex → CAmount
  /-- `LookupBlockIndex(quorumHash) != nullptr`. -/
  knownQuorumHash : PoolIndex → Uint256 → Bool
  /-- The quorum is one of the two latest. -/
  isActiveQuorum : PoolIndex → Uint256 → Bool
  /-- The signature of an unlock verifies. -/
  sigVerifies : PoolIndex → PoolTx → Bool
  /-- The order in which a `std::unordered_set` holds what has been inserted. -/
  unorderedSet : List UInt64 → List UInt64
  unorderedSet_nodup : ∀ l, (unorderedSet l).Nodup
  mem_unorderedSet : ∀ {l i}, i ∈ unorderedSet l ↔ i ∈ l

/-! ## Checks of single transactions -/

def opReturn : UInt8 := 0x6a

/-- The script is not empty and begins with `OP_RETURN`. -/
def isReturn (script : CScript) : Bool := script.head? = some opReturn

def isPayToPublicKeyHash (script : CScript) : Bool :=
  script.length = 25 && script[0]? = some 0x76 && script[1]? = some 0xa9 &&
    script[2]? = some 0x14 && script[23]? = some 0x88 && script[24]? = some 0xac

/-- The first loop of `CheckAssetLockTx`. -/
def returnAmountFrom (returnAmount : CAmount) : List CTxOut → Except PoolFailure CAmount
  | [] => .ok returnAmount
  | txout :: rest =>
    if ¬ isReturn txout.scriptPubKey then returnAmountFrom returnAmount rest
    else if txout.scriptPubKey.length ≠ 2 ∨ txout.scriptPubKey[1]? ≠ some 0 then
      .error (.invalid "bad-assetlocktx-non-empty-return")
    else if txout.nValue = 0 ∨ ¬ moneyRange txout.nValue then
      .error (.invalid "bad-assetlocktx-opreturn-outofrange")
    -- should be only one OP_RETURN
    else if returnAmount > 0 then .error (.invalid "bad-assetlocktx-multiple-return")
    else returnAmountFrom txout.nValue rest

/-- The second loop of `CheckAssetLockTx`. -/
def creditOutputsAmountFrom (creditOutputsAmount : CAmount) :
    List CTxOut → Except PoolFailure CAmount
  | [] => .ok creditOutputsAmount
  | out :: rest =>
    if out.nValue = 0 ∨ ¬ moneyRange out.nValue ∨ ¬ moneyRange (creditOutputsAmount + out.nValue) then
      .error (.invalid "bad-assetlocktx-credit-outofrange")
    else if ¬ isPayToPublicKeyHash out.scriptPubKey then
      .error (.invalid "bad-assetlocktx-pubKeyHash")
    else creditOutputsAmountFrom (creditOutputsAmount + out.nValue) rest

def checkAssetLockTx (tx : PoolTx) (payload : Option CAssetLockPayload) :
    Except PoolFailure Unit := do
  let returnAmount ← returnAmountFrom 0 tx.vout
  if returnAmount = 0 then .error (.invalid "bad-assetlocktx-no-return")
  else
    match payload with
    | none => .error (.invalid "bad-assetlocktx-payload")
    | some assetLockTx =>
      if assetLockTx.nVersion = 0 ∨ assetLockTx.nVersion > 1 then
        .error (.invalid "bad-assetlocktx-version")
      else if assetLockTx.creditOutputs.isEmpty then
        .error (.invalid "bad-assetlocktx-emptycreditoutputs")
      else do
        let creditOutputsAmount ← creditOutputsAmountFrom 0 assetLockTx.creditOutputs
        if creditOutputsAmount ≠ returnAmount then .error (.invalid "bad-assetlocktx-creditamount")
        else .ok ()

section

variable (env : PoolEnv) (pindexPrev : PoolIndex) (pool : CCreditPool) (block : PoolBlock)

def verifySig (pindexTip : PoolIndex) (tx : PoolTx) (assetUnlockTx : CAssetUnlockPayload) :
    Except PoolFailure Unit :=
  if ¬ env.isActiveQuorum pindexTip assetUnlockTx.quorumHash then
    .error (.invalid "bad-assetunlock-not-active-quorum")
  else if PoolIndex.nHeight pindexTip < assetUnlockTx.requestedHeight.toNat ∨
      PoolIndex.nHeight pindexTip ≥ assetUnlockTx.requestedHeight.toNat + 48 then
    .error (.invalid "bad-assetunlock-too-late")
  else if env.sigVerifies pindexTip tx then .ok ()
  else .error (.invalid "bad-assetunlock-not-verified")

def checkAssetUnlockTx (indexes : CRangesSet) (tx : PoolTx) (payload : Option CAssetUnlockPayload) :
    Except PoolFailure Unit :=
  if ¬ tx.vin.isEmpty then .error (.invalid "bad-assetunlocktx-have-input")
  else if tx.vout.length > 32 then .error (.invalid "bad-assetunlocktx-too-many-outs")
  else
    match payload with
    | none => .error (.invalid "bad-assetunlocktx-payload")
    | some assetUnlockTx =>
      if assetUnlockTx.nVersion = 0 ∨ assetUnlockTx.nVersion > 1 then
        .error (.invalid "bad-assetunlocktx-version")
      else if indexes.contains assetUnlockTx.index.toNat then
        .error (.invalid "bad-assetunlock-duplicated-index")
      else if ¬ env.knownQuorumHash pindexPrev assetUnlockTx.quorumHash then
        .error (.invalid "bad-assetunlock-quorum-hash")
      else verifySig env pindexPrev tx assetUnlockTx

/-- `CheckSpecialTxInner`, for asset transactions. -/
def checkSpecialTx (indexes : CRangesSet) (tx : PoolTx) : Except PoolFailure Unit :=
  match tx.payload with
  | .other => .ok ()
  | .assetLock payload =>
    if ¬ env.v20ActiveAfter pindexPrev then .error (.invalid "assetlocks-before-v20")
    else checkAssetLockTx tx payload
  | .assetUnlock payload =>
    if env.regtest ∧ ¬ env.v20ActiveAfter pindexPrev then
      .error (.invalid "assetunlocks-before-v20")
    else if ¬ env.regtest ∧ ¬ env.mnRRActiveAfter pindexPrev then
      .error (.invalid "assetunlocks-before-mn_rr")
    else checkAssetUnlockTx env pindexPrev indexes tx payload

/-! ## The pool of a block -/

def limitBlocksToTrace : Nat := 576

def limitAmountLow : CAmount := 100 * coin

def limitAmountHigh : CAmount := 1000 * coin

structure CCreditPool where
  locked : CAmount := 0
  currentLimit : CAmount := 0
  latelyUnlocked : CAmount := 0
  indexes : CRangesSet := {}
  deriving DecidableEq

/-- The loop of `GetDataFromUnlockTx` over the outputs. -/
def addOutputs (toUnlock : CAmount) : List CTxOut → Except PoolFailure CAmount
  | [] => .ok toUnlock
  | txout :: rest =>
    if ¬ moneyRange txout.nValue then
      .error (.invalid "failed-creditpool-unlock-txout-outofrange")
    else addOutputs (toUnlock + txout.nValue) rest

/-- `GetDataFromUnlockTx`: the amount and the index. -/
def getDataFromUnlockTx (tx : PoolTx) (payload : Option CAssetUnlockPayload) :
    Except PoolFailure (CAmount × UInt64) :=
  match payload with
  | none => .error (.invalid "failed-creditpool-unlock-payload")
  | some assetUnlockTx => do
    let toUnlock ← addOutputs assetUnlockTx.fee.toNat tx.vout
    .ok (toUnlock, assetUnlockTx.index)

/-- `GetDataFromUnlockTxes`: the amount unlocked and the indexes, as they are inserted. -/
def getDataFromUnlockTxes : List PoolTx → Except PoolFailure (CAmount × List UInt64)
  | [] => .ok (0, [])
  | tx :: rest =>
    match tx.payload with
    | .assetUnlock payload =>
      match getDataFromUnlockTx tx payload with
      | .error _ => .error (.runtimeError "CCreditPoolManager::GetDataFromUnlockTxes failed")
      | .ok data => do
        let blockData ← getDataFromUnlockTxes rest
        .ok (data.1 + blockData.1, data.2 :: blockData.2)
    | _ => getDataFromUnlockTxes rest

/-- The loop that adds the indexes of a block. -/
def addIndexes (indexes : CRangesSet) : List UInt64 → Except PoolFailure CRangesSet
  | [] => .ok indexes
  | index :: rest =>
    match indexes.add index.toNat with
    | .present => .error (.runtimeError "failed-getcreditpool-index-duplicated")
    | .aborted => .error (.assertion "ret.second")
    | .added indexes => addIndexes indexes rest

/-- What was unlocked in the block that leaves the window. -/
def getDistantUnlocked (pindex : PoolIndex) : Except PoolFailure CAmount :=
  match pindex[limitBlocksToTrace]? with
  | none => .ok 0
  | some block =>
    if block.coinbase = .legacy then .ok 0
    else do
      let blockData ← getDataFromUnlockTxes block.txs
      .ok blockData.1

/-- The limit for the next block, before the assertion. -/
def currentLimitOf (locked latelyUnlocked : CAmount) : CAmount :=
  let currentLimit :=
    if locked + latelyUnlocked > limitAmountLow then
      max (max limitAmountLow (locked.tdiv 10) - latelyUnlocked) 0
    else locked
  min currentLimit (limitAmountHigh - latelyUnlocked)

/-- `assert(currentLimit >= 0)`. -/
def limitAssertion : PoolFailure := .assertion "currentLimit >= 0"

/-- `ConstructCreditPool`, without the caches. -/
def constructCreditPool (block : PoolBlock) (pprev : PoolIndex) (prev : CCreditPool) :
    Except PoolFailure CCreditPool :=
  match block.coinbase with
  | .legacy =>
    if prev.locked = 0 ∧ prev.indexes.isEmpty then .ok {}
    else .error (.assertion "prev.locked == 0 && prev.indexes.IsEmpty()")
  | .undecodable => .error (.runtimeError "failed-getcreditpool-cbtx-payload")
  | .cbTx locked => do
    let blockData ← getDataFromUnlockTxes block.txs
    let indexes ← addIndexes prev.indexes (env.unorderedSet blockData.2)
    let distantUnlocked ← getDistantUnlocked (block :: pprev)
    let latelyUnlocked := prev.latelyUnlocked + blockData.1 - distantUnlocked
    let currentLimit := currentLimitOf locked latelyUnlocked
    if currentLimit ≥ 0 then .ok { locked, currentLimit, latelyUnlocked, indexes }
    else .error limitAssertion

/-- The pool of a block, computed from the blocks since the activation. -/
def creditPool (env : PoolEnv) : PoolIndex → Except PoolFailure CCreditPool
  | [] => .ok {}
  | block :: pprev =>
    if env.v20ActiveAfter pprev then creditPool env pprev >>= constructCreditPool env block pprev
    else .ok {}

/-! ## The transactions of a block against the pool -/

structure CCreditPoolDiff where
  pool : CCreditPool
  newIndexes : List UInt64 := []
  sessionLocked : CAmount := 0
  sessionUnlocked : CAmount := 0
  platformReward : CAmount := 0

section

variable (diff : CCreditPoolDiff)

def CCreditPoolDiff.getTotalLocked : CAmount :=
  diff.pool.locked + diff.sessionLocked - diff.sessionUnlocked + diff.platformReward

def platformShare (reward : CAmount) : Except PoolFailure CAmount :=
  let platformReward := (reward * 375).tdiv 1000
  if moneyRange platformReward then .ok platformReward
  else .error (.assertion "MoneyRange(platformReward)")

/-- The constructor of `CCreditPoolDiff`. -/
def newDiff : Except PoolFailure CCreditPoolDiff :=
  if env.mnRRActiveAfter pindexPrev then do
    let platformReward ← platformShare (env.masternodePayment pindexPrev)
    .ok { pool, platformReward }
  else .ok { pool }

def CCreditPoolDiff.lock (tx : PoolTx) (payload : Option CAssetLockPayload) :
    Except PoolFailure CCreditPoolDiff :=
  if payload.isNone then .error (.invalid "failed-creditpool-lock-payload")
  else
    match tx.vout.find? fun txout => isReturn txout.scriptPubKey with
    | none => .error (.invalid "failed-creditpool-lock-invalid")
    | some txout => .ok { diff with sessionLocked := diff.sessionLocked + txout.nValue }

def CCreditPoolDiff.unlock (tx : PoolTx)
    (payload : Option CAssetUnlockPayload) : Except PoolFailure CCreditPoolDiff := do
  let data ← getDataFromUnlockTx tx payload
  if diff.sessionUnlocked + data.1 > diff.pool.currentLimit then
    .error (.invalid "failed-creditpool-unlock-too-much")
  else if diff.pool.indexes.contains data.2.toNat ∨ data.2 ∈ diff.newIndexes then
    .error (.invalid "failed-creditpool-unlock-duplicated-index")
  else
    .ok { diff with
      newIndexes := diff.newIndexes ++ [data.2]
      sessionUnlocked := diff.sessionUnlocked + data.1 }

def processLockUnlockTransaction (tx : PoolTx) : Except PoolFailure CCreditPoolDiff :=
  match tx.payload with
  | .other => .ok diff
  | .assetLock payload => do
    checkAssetLockTx tx payload
    diff.lock tx payload
  | .assetUnlock payload => do
    checkAssetUnlockTx env pindexPrev diff.pool.indexes tx payload
    diff.unlock tx payload

end

/-- `GetCreditPoolDiffForBlock`, from the pool of the previous block. -/
def getCreditPoolDiffForBlock : Except PoolFailure CCreditPoolDiff := do
  let diff ← newDiff env pindexPrev pool
  block.txs.foldlM (processLockUnlockTransaction env pindexPrev) diff

/-- `CheckCreditPoolDiffForBlock` once V20 is active, from the pool of the previous block. -/
def checkCreditPoolDiffForBlock : Except PoolFailure Unit := do
  let diff ← getCreditPoolDiffForBlock env pindexPrev pool block
  match block.coinbase with
  | .legacy => .error (.assertion "tx.nVersion == 3")
  | .undecodable => .error (.invalid "bad-cbtx-payload")
  | .cbTx targetBalance =>
    if targetBalance ≠ diff.getTotalLocked then
      .error (.invalid "bad-cbtx-assetlocked-amount")
    else .ok ()

/-- The checks of the special transactions of a block. -/
def checkSpecialTxs : Except PoolFailure Unit :=
  block.txs.forM (checkSpecialTx env pindexPrev pool.indexes)

/-- What `ConnectBlock` checks of the asset transactions of a block. -/
def checkBlock (block : PoolBlock) : Except PoolFailure Unit := do
  let pool ← creditPool env pindexPrev
  checkSpecialTxs env pindexPrev pool block
  if env.v20ActiveAfter pindexPrev then do
    let pool ← creditPool env pindexPrev
    checkCreditPoolDiffForBlock env pindexPrev pool block
  else .ok ()

end

/-- The chains whose blocks have all passed. The genesis block is not checked; its coinbase
is of version 1. -/
inductive Accepted (env : PoolEnv) : PoolIndex → Prop where
  | genesis (hash : Uint256) : Accepted env [{ hash, coinbase := .legacy }]
  | connect {block : PoolBlock} {pprev : PoolIndex} (hpprev : Accepted env pprev)
      (hblock : checkBlock env pprev block = .ok ()) : Accepted env (block :: pprev)

/-! ## What a block unlocks -/

/-- The amount that a transaction unlocks. -/
def PoolTx.unlockAmount (tx : PoolTx) : CAmount :=
  match tx.payload with
  | .assetUnlock (some assetUnlockTx) => assetUnlockTx.fee.toNat + (tx.vout.map CTxOut.nValue).sum
  | _ => 0

/-- The index that a transaction withdraws. -/
def PoolTx.unlockIndex (tx : PoolTx) : Option UInt64 :=
  match tx.payload with
  | .assetUnlock (some assetUnlockTx) => some assetUnlockTx.index
  | _ => none

def PoolBlock.unlocked (block : PoolBlock) : CAmount := (block.txs.map unlockAmount).sum

/-- The indexes that a block withdraws. -/
def PoolBlock.unlockIndexes (block : PoolBlock) : List UInt64 :=
  block.txs.filterMap unlockIndex

/-- The amount unlocked in the last `LimitBlocksToTrace` blocks. -/
def windowUnlocked (pindex : PoolIndex) : CAmount :=
  ((pindex.take limitBlocksToTrace).map unlocked).sum

/-- An unlock decodes and has outputs in range. -/
def PoolTx.Readable (tx : PoolTx) : Prop :=
  ∀ payload, tx.payload = .assetUnlock payload →
    payload.isSome ∧ ∀ txout ∈ tx.vout, moneyRange txout.nValue = true

section Unlocked

variable {tx : PoolTx} {block : PoolBlock} {pindex : PoolIndex}

lemma addOutputs_eq_ok {toUnlock amount : CAmount} {vout : List CTxOut} :
    addOutputs toUnlock vout = .ok amount ↔
      (∀ txout ∈ vout, moneyRange txout.nValue = true) ∧
        amount = toUnlock + (vout.map CTxOut.nValue).sum := by
  induction vout generalizing toUnlock with
  | nil =>
    rw [addOutputs, eq_comm]
    simp
  | cons txout vout ih =>
    rw [addOutputs]
    split
    case isTrue hrange => simp [hrange]
    case isFalse hrange =>
      rw [ih, forall_mem_cons, add_assoc]
      simp [not_not.mp hrange]

lemma getDataFromUnlockTx_eq_ok {payload : Option CAssetUnlockPayload} {data : CAmount × UInt64} :
    getDataFromUnlockTx tx payload = .ok data ↔ ∃ assetUnlockTx, payload = some assetUnlockTx ∧
      (∀ txout ∈ tx.vout, moneyRange txout.nValue = true) ∧
      data = (assetUnlockTx.fee.toNat + (tx.vout.map CTxOut.nValue).sum, assetUnlockTx.index) := by
  cases payload with
  | none => simp [getDataFromUnlockTx]
  | some assetUnlockTx =>
    rw [getDataFromUnlockTx, bind_eq_ok]
    constructor
    · rintro ⟨amount, hamount, hdata⟩
      obtain ⟨hrange, rfl⟩ := addOutputs_eq_ok.mp hamount
      cases hdata
      exact ⟨assetUnlockTx, rfl, hrange, rfl⟩
    · rintro ⟨_, ⟨rfl⟩, hrange, rfl⟩
      exact ⟨_, addOutputs_eq_ok.mpr ⟨hrange, rfl⟩, rfl⟩

variable (tx) in
/-- The other transactions neither unlock nor withdraw anything. -/
lemma not_unlock (h : ∀ payload, tx.payload ≠ .assetUnlock payload) :
    tx.Readable ∧ tx.unlockAmount = 0 ∧ tx.unlockIndex = none := by
  cases hpayload : tx.payload with
  | assetUnlock payload => exact absurd hpayload (h payload)
  | _ => simp [PoolTx.Readable, unlockAmount, unlockIndex, hpayload]

lemma getDataFromUnlockTxes_of_readable {txs : List PoolTx} (h : ∀ tx ∈ txs, tx.Readable) :
    getDataFromUnlockTxes txs =
      .ok ((txs.map unlockAmount).sum, txs.filterMap unlockIndex) := by
  induction txs with
  | nil => rfl
  | cons tx txs ih =>
    rw [forall_mem_cons] at h
    rw [getDataFromUnlockTxes, ih h.2, map_cons, sum_cons, filterMap_cons]
    split
    case h_1 payload hpayload =>
      obtain ⟨hsome, hrange⟩ := h.1 payload hpayload
      obtain ⟨assetUnlockTx, rfl⟩ := Option.isSome_iff_exists.mp hsome
      rw [getDataFromUnlockTx_eq_ok.mpr ⟨assetUnlockTx, rfl, hrange, rfl⟩]
      simp [unlockAmount, unlockIndex, hpayload]
    case h_2 hother =>
      obtain ⟨-, hamount, hindex⟩ := not_unlock tx hother
      rw [hamount, hindex, zero_add]

lemma PoolTx.Readable.unlockAmount_nonneg (h : tx.Readable) : 0 ≤ tx.unlockAmount := by
  rw [unlockAmount]
  split
  case h_1 assetUnlockTx hpayload =>
    have hsum : 0 ≤ (tx.vout.map CTxOut.nValue).sum :=
      sum_nonneg (forall_mem_map.mpr fun txout hmem =>
        (moneyRange_iff.mp ((h _ hpayload).2 txout hmem)).1)
    exact add_nonneg (Int.natCast_nonneg _) hsum
  case h_2 => exact le_rfl

lemma unlocked_nonneg (h : ∀ tx ∈ block.txs, tx.Readable) : 0 ≤ block.unlocked :=
  sum_nonneg (forall_mem_map.mpr fun tx hmem => (h tx hmem).unlockAmount_nonneg)

lemma windowUnlocked_nonneg (h : ∀ block ∈ pindex, ∀ tx ∈ block.txs, tx.Readable) :
    0 ≤ windowUnlocked pindex :=
  sum_nonneg (forall_mem_map.mpr fun block hmem => unlocked_nonneg (h block (mem_of_mem_take hmem)))

/-- What the block at the far end of the window has unlocked. -/
def distantUnlockedOf (pindex : PoolIndex) : CAmount :=
  (pindex[limitBlocksToTrace]?.map unlocked).getD 0

/-- The window moves by one block. -/
lemma windowUnlocked_cons (block : PoolBlock) (pindex : PoolIndex) :
    windowUnlocked (block :: pindex) =
      windowUnlocked pindex + block.unlocked - distantUnlockedOf (block :: pindex) := by
  have htake : pindex.take limitBlocksToTrace = pindex.take 575 ++ pindex[575]?.toList := by
    rw [show limitBlocksToTrace = 575 + 1 from rfl, take_add_one]
  have hdistant : (block :: pindex)[limitBlocksToTrace]? = pindex[575]? := rfl
  have hcons : (block :: pindex).take limitBlocksToTrace = block :: pindex.take 575 := rfl
  rw [windowUnlocked, windowUnlocked, hcons, htake, distantUnlockedOf, hdistant]
  cases pindex[575]? with
  | none => simp [add_comm]
  | some distant => simp; ring

end Unlocked

/-! ## Blocks that are accepted -/

section Processed

variable {env : PoolEnv} {pindexPrev : PoolIndex} {diff diff' : CCreditPoolDiff} {tx : PoolTx}

/-- The output that `Lock` takes is positive. -/
lemma returnAmountFrom_pos {returnAmount amount : CAmount} {vout : List CTxOut} {txout : CTxOut}
    (h : returnAmountFrom returnAmount vout = .ok amount)
    (hfind : vout.find? (fun txout => isReturn txout.scriptPubKey) = some txout) :
    0 < txout.nValue := by
  induction vout generalizing returnAmount with
  | nil => cases hfind
  | cons first vout ih =>
    rw [returnAmountFrom] at h
    by_cases hreturn : isReturn first.scriptPubKey = true
    · simp only [find?_cons, hreturn, Option.some.injEq] at hfind
      subst hfind
      rw [if_neg (by simp [hreturn])] at h
      split at h
      · cases h
      split at h
      · cases h
      case isFalse hrange =>
        rw [not_or, not_not, moneyRange_iff] at hrange
        exact lt_of_le_of_ne hrange.2.1 (Ne.symm hrange.1)
    · rw [if_pos hreturn] at h
      simp only [find?_cons, hreturn] at hfind
      exact ih h hfind

/-- What one transaction does. -/
inductive TxEffect (diff : CCreditPoolDiff) (tx : PoolTx) : CCreditPoolDiff → Prop where
  | other (hpayload : tx.payload = .other) : TxEffect diff tx diff
  | locked (payload : Option CAssetLockPayload) (hpayload : tx.payload = .assetLock payload)
      (amount : CAmount) (hamount : 0 < amount) :
      TxEffect diff tx { diff with sessionLocked := diff.sessionLocked + amount }
  | unlocked (assetUnlockTx : CAssetUnlockPayload)
      (hpayload : tx.payload = .assetUnlock (some assetUnlockTx)) (hreadable : tx.Readable)
      (hlimit : diff.sessionUnlocked + tx.unlockAmount ≤ diff.pool.currentLimit)
      (hnot : diff.pool.indexes.contains assetUnlockTx.index.toNat = false)
      (hnew : assetUnlockTx.index ∉ diff.newIndexes) :
      TxEffect diff tx { diff with
        newIndexes := diff.newIndexes ++ [assetUnlockTx.index]
        sessionUnlocked := diff.sessionUnlocked + tx.unlockAmount }

lemma processLockUnlockTransaction_effect
    (h : processLockUnlockTransaction env pindexPrev diff tx = .ok diff') :
    TxEffect diff tx diff' := by
  rw [processLockUnlockTransaction] at h
  split at h
  case h_1 hpayload =>
    cases h
    exact .other hpayload
  case h_2 payload hpayload =>
    obtain ⟨_, hcheck, hlock⟩ := bind_eq_ok.mp h
    obtain ⟨amount, hamount, -⟩ := bind_eq_ok.mp hcheck
    rw [CCreditPoolDiff.lock] at hlock
    split at hlock
    · cases hlock
    split at hlock
    · cases hlock
    case h_2 txout hfind =>
      cases hlock
      exact .locked payload hpayload _ (returnAmountFrom_pos hamount hfind)
  case h_3 payload hpayload =>
    obtain ⟨_, -, hunlock⟩ := bind_eq_ok.mp h
    obtain ⟨data, hdata, hunlock⟩ := bind_eq_ok.mp hunlock
    obtain ⟨assetUnlockTx, rfl, hrange, rfl⟩ := getDataFromUnlockTx_eq_ok.mp hdata
    have hamount : tx.unlockAmount = assetUnlockTx.fee.toNat + (tx.vout.map CTxOut.nValue).sum := by
      rw [unlockAmount, hpayload]
    simp only [← hamount] at hunlock
    split at hunlock
    · cases hunlock
    case isFalse hlimit =>
    split at hunlock
    · cases hunlock
    case isFalse hindex =>
      rw [not_or, Bool.not_eq_true] at hindex
      cases hunlock
      have hreadable : tx.Readable := by
        intro payload' hpayload'
        rw [hpayload] at hpayload'
        cases hpayload'
        exact ⟨rfl, hrange⟩
      exact .unlocked assetUnlockTx hpayload hreadable (not_lt.mp hlimit) hindex.1 hindex.2

/-- What is known when all transactions have been accepted. -/
structure Processed (diff : CCreditPoolDiff) (txs : List PoolTx) (diff' : CCreditPoolDiff) :
    Prop where
  pool : diff'.pool = diff.pool
  platformReward : diff'.platformReward = diff.platformReward
  readable : ∀ tx ∈ txs, tx.Readable
  sessionLocked : diff.sessionLocked ≤ diff'.sessionLocked
  sessionUnlocked : diff'.sessionUnlocked = diff.sessionUnlocked + (txs.map unlockAmount).sum
  limit : diff.sessionUnlocked ≤ diff.pool.currentLimit →
    diff'.sessionUnlocked ≤ diff.pool.currentLimit
  newIndexes : diff'.newIndexes = diff.newIndexes ++ txs.filterMap unlockIndex
  nodup : diff.newIndexes.Nodup → diff'.newIndexes.Nodup
  fresh : ∀ index ∈ txs.filterMap unlockIndex, diff.pool.indexes.contains index.toNat = false

lemma TxEffect.processed (h : TxEffect diff tx diff') : Processed diff [tx] diff' := by
  cases h with
  | other hpayload =>
    obtain ⟨hreadable, hamount, hindex⟩ := not_unlock tx (by simp [hpayload])
    constructor <;> simp [hreadable, hamount, hindex]
  | locked payload hpayload amount hamount' =>
    obtain ⟨hreadable, hamount, hindex⟩ := not_unlock tx (by simp [hpayload])
    constructor <;> simp [hreadable, hamount, hindex, hamount'.le]
  | unlocked assetUnlockTx hpayload hreadable hlimit hnot hnew =>
    have hindex : tx.unlockIndex = some assetUnlockTx.index := by
      rw [unlockIndex, hpayload]
    constructor <;> simp [hreadable, hindex, hlimit, hnot]
    exact fun hnodup => hnodup.append (nodup_singleton _) (by simpa using hnew)

variable {txs : List PoolTx} {pool : CCreditPool}

lemma Processed.append {diff₁ : CCreditPoolDiff} {txs' : List PoolTx}
    (h : Processed diff txs diff₁) (h' : Processed diff₁ txs' diff') :
    Processed diff (txs ++ txs') diff' where
  pool := h'.pool.trans h.pool
  platformReward := h'.platformReward.trans h.platformReward
  readable tx hmem := (mem_append.mp hmem).elim (h.readable tx) (h'.readable tx)
  sessionLocked := h.sessionLocked.trans h'.sessionLocked
  sessionUnlocked := by
    rw [h'.sessionUnlocked, h.sessionUnlocked, map_append, sum_append, add_assoc]
  limit hle := by
    have hlimit := h'.limit
    rw [h.pool] at hlimit
    exact hlimit (h.limit hle)
  newIndexes := by
    rw [h'.newIndexes, h.newIndexes, filterMap_append, append_assoc]
  nodup hnodup := h'.nodup (h.nodup hnodup)
  fresh index hmem := by
    rw [filterMap_append, mem_append] at hmem
    rcases hmem with hmem | hmem
    · exact h.fresh index hmem
    · rw [← h.pool]
      exact h'.fresh index hmem

/-- What is known of a block whose transactions have all been accepted. -/
lemma processed_foldlM
    (h : txs.foldlM (processLockUnlockTransaction env pindexPrev) diff = .ok diff') :
    Processed diff txs diff' := by
  induction txs generalizing diff with
  | nil =>
    cases h
    constructor <;> simp
  | cons tx txs ih =>
    obtain ⟨diff₁, hfirst, hrest⟩ := bind_eq_ok.mp h
    exact (processLockUnlockTransaction_effect hfirst).processed.append (ih hrest)

/-- What a block that passes has: its coinbase commits to the new balance. -/
structure Checked (pool : CCreditPool) (block : PoolBlock) : Prop where
  readable : ∀ tx ∈ block.txs, tx.Readable
  balance : ∃ added, 0 ≤ added ∧ block.coinbase = .cbTx (pool.locked + added - block.unlocked)
  limit : 0 ≤ pool.currentLimit → block.unlocked ≤ pool.currentLimit
  nodup : block.unlockIndexes.Nodup
  fresh : ∀ index ∈ block.unlockIndexes, pool.indexes.contains index.toNat = false

lemma newDiff_eq_ok (h : newDiff env pindexPrev pool = .ok diff) :
    diff.pool = pool ∧ diff.newIndexes = [] ∧ diff.sessionLocked = 0 ∧ diff.sessionUnlocked = 0 ∧
      0 ≤ diff.platformReward := by
  rw [newDiff] at h
  split at h
  · obtain ⟨platformReward, hshare, hdiff⟩ := bind_eq_ok.mp h
    cases hdiff
    simp only [platformShare] at hshare
    split at hshare
    case isFalse => cases hshare
    case isTrue hrange =>
      cases hshare
      exact ⟨rfl, rfl, rfl, rfl, (moneyRange_iff.mp hrange).1⟩
  · cases h
    exact ⟨rfl, rfl, rfl, rfl, le_rfl⟩

lemma checked_of_checkCreditPoolDiffForBlock {block : PoolBlock}
    (h : checkCreditPoolDiffForBlock env pindexPrev pool block = .ok ()) : Checked pool block := by
  obtain ⟨diff', hdiff, hcoinbase⟩ := bind_eq_ok.mp h
  obtain ⟨diff, hnew, hfold⟩ := bind_eq_ok.mp hdiff
  have hprocessed := processed_foldlM hfold
  obtain ⟨hpool, hindexes, hlocked, hunlocked, hreward⟩ := newDiff_eq_ok hnew
  have hsession : diff'.sessionUnlocked = block.unlocked := by
    rw [hprocessed.sessionUnlocked, hunlocked, zero_add, unlocked]
  have hnewIndexes : diff'.newIndexes = block.unlockIndexes := by
    rw [hprocessed.newIndexes, hindexes, nil_append, unlockIndexes]
  refine ⟨hprocessed.readable, ?_, fun hnonneg => ?_, ?_, ?_⟩
  · split at hcoinbase
    · cases hcoinbase
    · cases hcoinbase
    case h_3 targetBalance hbalance =>
      split at hcoinbase
      · cases hcoinbase
      case isFalse htarget =>
        have hadded := hprocessed.sessionLocked
        rw [hlocked] at hadded
        refine ⟨diff'.sessionLocked + diff'.platformReward, ?_, ?_⟩
        · exact add_nonneg hadded (hprocessed.platformReward ▸ hreward)
        · rw [hbalance, not_not.mp htarget, CCreditPoolDiff.getTotalLocked, hprocessed.pool, hpool,
            hsession]
          ring_nf
  · have hlimit := hprocessed.limit
    rw [hunlocked, hpool, hsession] at hlimit
    exact hlimit hnonneg
  · have hnodup := hprocessed.nodup (by simp [hindexes])
    rwa [hnewIndexes] at hnodup
  · have hfresh := hprocessed.fresh
    rwa [hpool] at hfresh

end Processed

/-! ## Limits -/

section Limits

lemma clamp_bounds {low high locked lately limit : Int} (hlow : 0 ≤ low) (hlocked : 0 ≤ locked)
    (hnonneg : 0 ≤ lately) (hhigh : lately ≤ high)
    (hlimit : limit = min (if locked + lately > low then
      max (max low (locked / 10) - lately) 0 else locked) (high - lately)) :
    0 ≤ limit ∧ limit ≤ locked ∧ limit + lately ≤ high := by
  split at hlimit <;> omega

/-- The limit is not negative, does not exceed the balance, and leaves the window within
`LimitAmountHigh`. -/
lemma currentLimitOf_bounds {locked latelyUnlocked : Int} (hlocked : 0 ≤ locked)
    (hnonneg : 0 ≤ latelyUnlocked) (hhigh : latelyUnlocked ≤ limitAmountHigh) :
    0 ≤ currentLimitOf locked latelyUnlocked ∧ currentLimitOf locked latelyUnlocked ≤ locked ∧
      currentLimitOf locked latelyUnlocked + latelyUnlocked ≤ limitAmountHigh := by
  have hlow : 0 ≤ limitAmountLow := by decide
  refine clamp_bounds hlow hlocked hnonneg hhigh ?_
  rw [← Int.tdiv_eq_ediv_of_nonneg hlocked]
  rfl

variable {env : PoolEnv} {block : PoolBlock} {pprev pindex : PoolIndex} {pool : CCreditPool}

/-- The pool of a block: limit, balance and window. -/
structure Bounded (pool : CCreditPool) (pindex : PoolIndex) : Prop where
  limit_nonneg : 0 ≤ pool.currentLimit
  limit_le : pool.currentLimit ≤ pool.locked
  limit_add_le : pool.currentLimit + pool.latelyUnlocked ≤ limitAmountHigh
  lately_nonneg : 0 ≤ pool.latelyUnlocked
  lately_eq : pool.latelyUnlocked = windowUnlocked pindex

/-- No block of the chain that is readable fails in `GetDataFromUnlockTxes`, and those of
version 1 have nothing to read. -/
structure ReadableChain (pindex : PoolIndex) : Prop where
  readable : ∀ block ∈ pindex, ∀ tx ∈ block.txs, tx.Readable
  legacy : ∀ block ∈ pindex, block.coinbase = .legacy → block.unlocked = 0

lemma getDistantUnlocked_eq (h : ReadableChain pindex) :
    getDistantUnlocked pindex = .ok (distantUnlockedOf pindex) := by
  rw [getDistantUnlocked, distantUnlockedOf]
  cases hdistant : pindex[limitBlocksToTrace]? with
  | none => rfl
  | some block =>
    have hmem : block ∈ pindex := mem_of_getElem? hdistant
    by_cases hlegacy : block.coinbase = .legacy
    · simp [hlegacy, h.legacy block hmem hlegacy]
    · simp only [hlegacy, if_false, getDataFromUnlockTxes_of_readable (h.readable block hmem)]
      rfl

/-- What the window contains besides the new block fits under the limit. -/
lemma windowUnlocked_cons_le (hbounded : Bounded pool pprev) (hchecked : Checked pool block)
    (hreadable : ReadableChain (block :: pprev)) :
    windowUnlocked (block :: pprev) ≤ limitAmountHigh := by
  have hdistant : 0 ≤ distantUnlockedOf (block :: pprev) := by
    rw [distantUnlockedOf]
    cases hd : (block :: pprev)[limitBlocksToTrace]? with
    | none => exact le_rfl
    | some distant => exact unlocked_nonneg (hreadable.readable distant (mem_of_getElem? hd))
  have hlimit := hchecked.limit hbounded.limit_nonneg
  have hhigh := hbounded.limit_add_le
  have hlately := hbounded.lately_eq
  rw [windowUnlocked_cons]
  linarith

/-- The pool that a block with the given balance leaves. -/
def nextPool (locked : CAmount) (pindex : PoolIndex) (indexes : CRangesSet) : CCreditPool :=
  { locked, currentLimit := currentLimitOf locked (windowUnlocked pindex)
    latelyUnlocked := windowUnlocked pindex, indexes }

lemma bounded_nextPool {locked : CAmount} (hlocked : 0 ≤ locked)
    (hreadable : ReadableChain pindex) (hhigh : windowUnlocked pindex ≤ limitAmountHigh)
    (indexes : CRangesSet) : Bounded (nextPool locked pindex indexes) pindex := by
  have hnonneg := windowUnlocked_nonneg hreadable.readable
  obtain ⟨hlimit, hle, hadd⟩ := currentLimitOf_bounds hlocked hnonneg hhigh
  exact ⟨hlimit, hle, hadd, hnonneg, rfl⟩

variable (env) in
/-- **One block.** The pool of a block that was accepted is computed up to its indexes, and
the assertion on the limit holds. -/
theorem constructCreditPool_eq (hbounded : Bounded pool pprev) (hchecked : Checked pool block)
    (hreadable : ReadableChain (block :: pprev)) :
    ∃ locked, 0 ≤ locked ∧ constructCreditPool env block pprev pool =
      addIndexes pool.indexes (env.unorderedSet block.unlockIndexes) >>= fun indexes =>
        .ok (nextPool locked (block :: pprev) indexes) := by
  obtain ⟨added, hadded, hcoinbase⟩ := hchecked.balance
  have hlocked : 0 ≤ pool.locked + added - block.unlocked := by
    have hlimit := hchecked.limit hbounded.limit_nonneg
    have hle := hbounded.limit_le
    linarith
  have hlately : pool.latelyUnlocked + block.unlocked - distantUnlockedOf (block :: pprev) =
      windowUnlocked (block :: pprev) := by
    rw [windowUnlocked_cons, hbounded.lately_eq]
  have hdata : getDataFromUnlockTxes block.txs = .ok (block.unlocked, block.unlockIndexes) :=
    getDataFromUnlockTxes_of_readable hchecked.readable
  refine ⟨_, hlocked, ?_⟩
  simp only [constructCreditPool, hcoinbase, hdata, getDistantUnlocked_eq hreadable]
  show (addIndexes pool.indexes (env.unorderedSet block.unlockIndexes) >>= fun indexes => _) = _
  congr 1
  funext indexes
  have hnext := bounded_nextPool hlocked hreadable
    (windowUnlocked_cons_le hbounded hchecked hreadable) indexes
  have hlimit : currentLimitOf (pool.locked + added - block.unlocked)
      (windowUnlocked (block :: pprev)) ≥ 0 := hnext.limit_nonneg
  show (if _ then _ else _) = _
  rw [hlately, if_pos hlimit]
  rfl

lemma addIndexes_ne_limitAssertion (indexes : CRangesSet) (l : List UInt64) :
    addIndexes indexes l ≠ .error limitAssertion := by
  induction l generalizing indexes with
  | nil => exact nofun
  | cons index l ih =>
    rw [addIndexes]
    split
    · exact nofun
    · exact fun h => absurd (error.inj h) (by decide)
    · exact ih _

end Limits

/-! ## Indexes -/

section Indexes

/-- The indexes withdrawn on a chain. -/
def usedIndexes (pindex : PoolIndex) : List UInt64 := pindex.flatMap unlockIndexes

/-- The set holds exactly the given indexes. -/
structure Tracks (indexes : CRangesSet) (used : List UInt64) : Prop where
  wellFormed : indexes.WellFormed
  covers : ∀ value, CRangesSet.Covers indexes.ranges value ↔ ∃ i ∈ used, i.toNat = value

lemma tracks_empty : Tracks {} [] := ⟨CRangesSet.wellFormed_empty, by simp [CRangesSet.Covers]⟩

variable {indexes : CRangesSet} {used : List UInt64}

lemma Tracks.contains_iff (h : Tracks indexes used) (index : UInt64) :
    indexes.contains index.toNat = true ↔ index ∈ used := by
  rw [h.wellFormed.contains_iff, h.covers]
  constructor
  · rintro ⟨i, hi, heq⟩
    exact UInt64.toNat_inj.mp heq ▸ hi
  · exact fun hmem => ⟨index, hmem, rfl⟩

lemma toNat_lt_uint64Max {index : UInt64} (h : index.toNat ≠ uint64Max) :
    index.toNat < uint64Max := by
  have hlt := index.toNat_lt
  rw [uint64Max] at *
  omega

/-- New indexes can be added, unless the largest one is among them. -/
lemma Tracks.addIndexes {l : List UInt64} (h : Tracks indexes used)
    (hmax : ∀ i ∈ l, i.toNat ≠ uint64Max) (hnodup : l.Nodup) (hnew : ∀ i ∈ l, i ∉ used) :
    ∃ indexes', CreditPool.addIndexes indexes l = .ok indexes' ∧
      ∀ used', (∀ i, i ∈ used' ↔ i ∈ l ∨ i ∈ used) → Tracks indexes' used' := by
  induction l generalizing indexes used with
  | nil =>
    refine ⟨indexes, rfl, fun used' hused' => ⟨h.wellFormed, fun value => ?_⟩⟩
    simp [h.covers, hused']
  | cons index l ih =>
    rw [forall_mem_cons] at hmax hnew
    rw [nodup_cons] at hnodup
    have hnot : indexes.contains index.toNat = false :=
      Bool.eq_false_of_not_eq_true ((h.contains_iff index).not.mpr hnew.1)
    obtain ⟨indexes₁, hadd, hwell, hcovers⟩ := h.wellFormed.add hnot (toNat_lt_uint64Max hmax.1)
    have htracks : Tracks indexes₁ (index :: used) := by
      refine ⟨hwell, fun value => ?_⟩
      rw [hcovers, h.covers]
      simp only [mem_cons, or_and_right, exists_or, exists_eq_left]
      rw [or_comm, eq_comm (a := value)]
    obtain ⟨indexes', hrest, htracks'⟩ := ih htracks hmax.2 hnodup.2 fun i hi => by
      rw [mem_cons, not_or]
      exact ⟨fun heq => hnodup.1 (heq ▸ hi), hnew.2 i hi⟩
    refine ⟨indexes', ?_, fun used' hused' => htracks' used' fun i => ?_⟩
    · rw [CreditPool.addIndexes, hadd]
      exact hrest
    · rw [hused', mem_cons, mem_cons, or_assoc, or_left_comm]

end Indexes

/-! ## Chains -/

section Chains

variable {env : PoolEnv} {block : PoolBlock} {pprev pindex : PoolIndex} {pool : CCreditPool}

/-- What holds of a chain that was accepted. -/
structure PoolInv (env : PoolEnv) (pindex : PoolIndex) : Prop where
  readable : ReadableChain pindex
  inactive : env.v20ActiveAfter pindex = false →
    ∀ block ∈ pindex, block.unlocked = 0 ∧ block.unlockIndexes = []
  window : windowUnlocked pindex ≤ limitAmountHigh
  assertion : creditPool env pindex ≠ .error limitAssertion
  bounded : ∀ pool, creditPool env pindex = .ok pool → Bounded pool pindex
  tracked : (∀ i ∈ usedIndexes pindex, i.toNat ≠ uint64Max) →
    (usedIndexes pindex).Nodup ∧
      ∃ pool, creditPool env pindex = .ok pool ∧ Tracks pool.indexes (usedIndexes pindex)

/-- Before the activation, no transaction of a block that passes is an unlock. -/
lemma not_unlock_of_inactive (hinactive : env.v20ActiveAfter pprev = false)
    (h : checkSpecialTxs env pprev pool block = .ok ()) :
    (∀ tx ∈ block.txs, tx.Readable) ∧ block.unlocked = 0 ∧ block.unlockIndexes = [] := by
  have hother : ∀ tx ∈ block.txs, ∀ payload, tx.payload ≠ .assetUnlock payload := by
    intro tx hmem payload hpayload
    have hcheck := forM_eq_ok.mp h tx hmem
    rw [checkSpecialTx, hpayload] at hcheck
    dsimp only at hcheck
    -- outside regtest MN_RR is needed, which comes after V20
    have hmnRR : env.mnRRActiveAfter pprev ≠ true := fun hmnRR => by
      rw [env.mnRR_v20 hmnRR] at hinactive
      cases hinactive
    split at hcheck
    · cases hcheck
    case isFalse hregtest =>
    rw [if_pos] at hcheck
    · cases hcheck
    · exact ⟨fun htest => hregtest ⟨htest, by simp [hinactive]⟩, hmnRR⟩
  refine ⟨fun tx hmem => (not_unlock tx (hother tx hmem)).1, ?_, ?_⟩
  · refine sum_eq_zero (forall_mem_map.mpr fun tx hmem => ?_)
    exact (not_unlock tx (hother tx hmem)).2.1
  · refine filterMap_eq_nil_iff.mpr fun tx hmem => ?_
    exact (not_unlock tx (hother tx hmem)).2.2

lemma creditPool_genesis (hash : Uint256) :
    creditPool env [{ hash, coinbase := .legacy }] = .ok {} := by
  rw [creditPool]
  split <;> rfl

/-- Where nothing has been unlocked, the pool is empty. -/
lemma poolInv_empty (hreadable : ∀ block ∈ pindex, ∀ tx ∈ block.txs, tx.Readable)
    (hzero : ∀ block ∈ pindex, block.unlocked = 0 ∧ block.unlockIndexes = [])
    (hpool : creditPool env pindex = .ok {}) : PoolInv env pindex := by
  have hwindow : windowUnlocked pindex = 0 :=
    sum_eq_zero (forall_mem_map.mpr fun block hmem => (hzero block (mem_of_mem_take hmem)).1)
  have hused : usedIndexes pindex = [] :=
    flatMap_eq_nil_iff.mpr fun block hmem => (hzero block hmem).2
  refine ⟨⟨hreadable, fun block hmem _ => (hzero block hmem).1⟩, fun _ => hzero, ?_, ?_,
    fun pool hpool' => ?_, fun _ => ?_⟩
  · rw [hwindow]
    decide
  · rw [hpool]
    exact nofun
  · rw [hpool] at hpool'
    cases hpool'
    exact ⟨le_rfl, le_rfl, by decide, le_rfl, hwindow.symm⟩
  · rw [hused]
    exact ⟨nodup_nil, {}, hpool, tracks_empty⟩

lemma poolInv_genesis (hash : Uint256) : PoolInv env [{ hash, coinbase := .legacy }] :=
  poolInv_empty (by simp) (by simp [unlocked, unlockIndexes])
    (creditPool_genesis hash)

/-- Before V20 there is no pool. -/
lemma PoolInv.inactive_block (h : PoolInv env pprev) (hinactive : env.v20ActiveAfter pprev = false)
    (hspecial : checkSpecialTxs env pprev pool block = .ok ()) : PoolInv env (block :: pprev) := by
  obtain ⟨hreadable, hzero⟩ := not_unlock_of_inactive hinactive hspecial
  refine poolInv_empty (forall_mem_cons.mpr ⟨hreadable, h.readable.readable⟩)
    (forall_mem_cons.mpr ⟨hzero, h.inactive hinactive⟩) ?_
  rw [creditPool, hinactive]
  rfl

/-- A checked block moves the pool of its parent on. -/
lemma PoolInv.active_block (h : PoolInv env pprev) (hactive : env.v20ActiveAfter pprev = true)
    (hpool : creditPool env pprev = .ok pool) (hchecked : Checked pool block) :
    PoolInv env (block :: pprev) := by
  have hbounded := h.bounded pool hpool
  have hreadable : ReadableChain (block :: pprev) := by
    refine ⟨forall_mem_cons.mpr ⟨hchecked.readable, h.readable.readable⟩,
      forall_mem_cons.mpr ⟨fun hlegacy => ?_, h.readable.legacy⟩⟩
    obtain ⟨added, -, hcoinbase⟩ := hchecked.balance
    rw [hcoinbase] at hlegacy
    cases hlegacy
  have hwindow := windowUnlocked_cons_le hbounded hchecked hreadable
  obtain ⟨locked, hlocked, hconstruct⟩ := constructCreditPool_eq env hbounded hchecked hreadable
  have hnext : creditPool env (block :: pprev) =
      addIndexes pool.indexes (env.unorderedSet block.unlockIndexes) >>= fun indexes =>
        .ok (nextPool locked (block :: pprev) indexes) := by
    rw [creditPool, if_pos hactive, hpool, ← hconstruct]
    rfl
  refine ⟨hreadable, fun hinactive => ?_, hwindow, ?_, fun pool' hpool' => ?_, fun hmax => ?_⟩
  · rw [env.v20_stays hactive] at hinactive
    cases hinactive
  · -- the pool can only fail for its indexes
    rw [hnext]
    have hne := addIndexes_ne_limitAssertion pool.indexes (env.unorderedSet block.unlockIndexes)
    cases hadd : addIndexes pool.indexes (env.unorderedSet block.unlockIndexes) with
    | error e =>
      rw [hadd] at hne
      exact fun heq => hne (congrArg error (error.inj heq))
    | ok indexes => exact nofun
  · rw [hnext] at hpool'
    obtain ⟨indexes, -, hpool'⟩ := bind_eq_ok.mp hpool'
    cases hpool'
    exact bounded_nextPool hlocked hreadable hwindow indexes
  · have hused : usedIndexes (block :: pprev) = block.unlockIndexes ++ usedIndexes pprev := rfl
    rw [hused, forall_mem_append] at hmax
    obtain ⟨hnodup, pool', hpool', htracks⟩ := h.tracked hmax.2
    rw [hpool] at hpool'
    cases hpool'
    -- the ranges of the parent show which indexes are new
    have hnew : ∀ index ∈ block.unlockIndexes, index ∉ usedIndexes pprev := fun index hmem =>
      (htracks.contains_iff index).not.mp (by simp [hchecked.fresh index hmem])
    obtain ⟨indexes, hadd, htracks'⟩ := htracks.addIndexes
      (l := env.unorderedSet block.unlockIndexes)
      (fun i hi => hmax.1 i (env.mem_unorderedSet.mp hi)) (env.unorderedSet_nodup _)
      (fun i hi => hnew i (env.mem_unorderedSet.mp hi))
    rw [hused]
    refine ⟨hchecked.nodup.append hnodup hnew, nextPool locked (block :: pprev) indexes, ?_, ?_⟩
    · rw [hnext, hadd]
      rfl
    · refine htracks' _ fun i => ?_
      rw [mem_append, env.mem_unorderedSet]

lemma poolInv_of_accepted (h : Accepted env pindex) : PoolInv env pindex := by
  induction h with
  | genesis hash => exact poolInv_genesis hash
  | @connect block pprev hpprev hblock ih =>
    obtain ⟨pool, hpool, hblock⟩ := bind_eq_ok.mp hblock
    obtain ⟨_, hspecial, hblock⟩ := bind_eq_ok.mp hblock
    split at hblock
    case isTrue hactive =>
      obtain ⟨pool', hpool', hdiff⟩ := bind_eq_ok.mp hblock
      exact ih.active_block hactive hpool' (checked_of_checkCreditPoolDiffForBlock hdiff)
    case isFalse hinactive =>
      exact ih.inactive_block (Bool.eq_false_of_not_eq_true hinactive) hspecial

lemma Accepted.of_suffix (h : Accepted env pindex) {pindex' : PoolIndex}
    (hsuffix : pindex' <:+ pindex) (hne : pindex' ≠ []) : Accepted env pindex' := by
  induction h with
  | genesis hash =>
    rcases suffix_cons_iff.mp hsuffix with rfl | hsuffix
    · exact .genesis hash
    · exact absurd (suffix_nil.mp hsuffix) hne
  | @connect block pprev hpprev hblock ih =>
    rcases suffix_cons_iff.mp hsuffix with rfl | hsuffix
    · exact .connect hpprev hblock
    · exact ih hsuffix

/-- The bounds of the pool of a block, where it exists, and of what the blocks up to it have
unlocked. -/
structure PoolLaw (env : PoolEnv) (pindex : PoolIndex) : Prop where
  /-- The assertion on the limit does not fire. -/
  assertion : creditPool env pindex ≠ .error limitAssertion
  limit : ∀ pool, creditPool env pindex = .ok pool →
    0 ≤ pool.currentLimit ∧ pool.currentLimit ≤ pool.locked
  lately : ∀ pool, creditPool env pindex = .ok pool →
    0 ≤ pool.latelyUnlocked ∧ pool.latelyUnlocked ≤ limitAmountHigh ∧
      pool.latelyUnlocked = windowUnlocked pindex
  balance : ∀ pool, creditPool env pindex = .ok pool → 0 ≤ pool.locked
  window : windowUnlocked pindex ≤ limitAmountHigh
  /-- The pool exists unless the largest index has been withdrawn. -/
  exists_pool : (∀ index ∈ usedIndexes pindex, index.toNat ≠ uint64Max) →
    ∃ pool, creditPool env pindex = .ok pool

/-- **The credit pool.** At every block of every chain that was accepted. -/
theorem creditPool_law {chain : PoolIndex} (h : Accepted env chain) {pindex : PoolIndex}
    (hsuffix : pindex <:+ chain) (hne : pindex ≠ []) : PoolLaw env pindex := by
  have hinv := poolInv_of_accepted (h.of_suffix hsuffix hne)
  refine ⟨hinv.assertion, fun pool hpool => ?_, fun pool hpool => ?_, fun pool hpool => ?_,
    hinv.window, fun hmax => ?_⟩
  · have hbounded := hinv.bounded pool hpool
    exact ⟨hbounded.limit_nonneg, hbounded.limit_le⟩
  · have hbounded := hinv.bounded pool hpool
    exact ⟨hbounded.lately_nonneg, hbounded.lately_eq ▸ hinv.window, hbounded.lately_eq⟩
  · have hbounded := hinv.bounded pool hpool
    exact hbounded.limit_nonneg.trans hbounded.limit_le
  · obtain ⟨-, pool, hpool, -⟩ := hinv.tracked hmax
    exact ⟨pool, hpool⟩

/-- A network on which V20 and MN_RR are active from the first block on, and all signatures
verify. -/
def openEnv : PoolEnv where
  regtest := false
  v20ActiveAfter := fun pindex => !pindex.isEmpty
  v20_stays := fun _ => rfl
  mnRRActiveAfter := fun pindex => !pindex.isEmpty
  mnRR_v20 := fun h => h
  masternodePayment := fun _ => 0
  knownQuorumHash := fun _ _ => true
  isActiveQuorum := fun _ _ => true
  sigVerifies := fun _ _ => true
  unorderedSet := dedup
  unorderedSet_nodup := nodup_dedup
  mem_unorderedSet := mem_dedup

def poolGenesis : PoolBlock := { hash := 1, coinbase := .legacy }

/-- A block that locks ten coins. -/
def lockBlock : PoolBlock where
  hash := 2
  coinbase := .cbTx (10 * coin)
  txs :=
    [{ vout := [{ nValue := 10 * coin, scriptPubKey := [0x6a, 0] }]
       payload := .assetLock (some
         { nVersion := 1
           creditOutputs := [{ nValue := 10 * coin, scriptPubKey :=
             [0x76, 0xa9, 0x14] ++ replicate 20 0 ++ [0x88, 0xac] }] }) }]

/-- A block that withdraws one coin under an index. -/
def unlockBlock (hash : Uint256) (index : UInt64) (balance : CAmount) : PoolBlock where
  hash := hash
  coinbase := .cbTx balance
  txs :=
    [{ vout := [{ nValue := coin, scriptPubKey := [] }]
       payload := .assetUnlock (some
         { nVersion := 1, index, fee := 0, requestedHeight := 0, quorumHash := 0 }) }]

theorem creditPool_law_unlockBlock :
    PoolLaw openEnv [unlockBlock 3 7 (9 * coin), lockBlock, poolGenesis] := by
  have hlock : Accepted openEnv [lockBlock, poolGenesis] :=
    .connect (.genesis 1) (by decide +kernel)
  have hunlock : Accepted openEnv [unlockBlock 3 7 (9 * coin), lockBlock, poolGenesis] :=
    .connect hlock (by decide +kernel)
  exact creditPool_law hunlock suffix_rfl (by simp)

/-- The largest index is withdrawn twice. Its range is in the set the second time, so the
assertion of `CRangesSet::Add` fails and there is no pool of the block. -/
theorem creditPool_aborts :
    let chain := [unlockBlock 4 (.ofNat uint64Max) (8 * coin),
      unlockBlock 3 (.ofNat uint64Max) (9 * coin), lockBlock, poolGenesis]
    Accepted openEnv chain ∧ creditPool openEnv chain = .error (.assertion "ret.second") := by
  have hlock : Accepted openEnv [lockBlock, poolGenesis] :=
    .connect (.genesis 1) (by decide +kernel)
  exact ⟨.connect (.connect hlock (by decide +kernel)) (by decide +kernel), by decide +kernel⟩

end Chains

end HootChain.Evo.CreditPool

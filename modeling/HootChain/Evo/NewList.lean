import HootChain.Evo.MnListDiff
import HootChain.Evo.ProTx

/-!
# The List of the Next Block (`CDeterministicMNManager::BuildNewListFromBlock`)

A block confirms masternodes, lowers penalties, applies its special transactions in
order, removes masternodes whose collateral it spends and records the payment. The
result is judged against the list of the previous block, since the transactions were
checked against that list.
-/

namespace HootChain.Evo

open Primitives Foundation Option Except List CBlockIndex

/-! ## Proof of service -/

namespace CDeterministicMNList

section

variable (l : CDeterministicMNList)

def calcMaxPoSePenalty : Int := max 100 (l.getAllMNsCount : Int)

def calcPenalty (percent : Int) : Int := l.calcMaxPoSePenalty * percent / 100

/-- The state of a masternode after `PoSePunish`. -/
def punishedState (maxPenalty nHeight penalty : Int) (state : CDeterministicMNState) :
    CDeterministicMNState :=
  let newState := { state with nPoSePenalty := min maxPenalty (state.nPoSePenalty + penalty) }
  if newState.nPoSePenalty ≥ maxPenalty ∧ ¬ newState.isBanned then
    newState.banIfNotBanned nHeight
  else
    newState

def poSePunish (proTxHash : Uint256) (penalty : Int) : ListResult :=
  match l.getMN proTxHash with
  | none => .error (.runtimeError "PoSePunish: Can't find a masternode")
  | some dmn => l.updateMNByHash proTxHash
      (punishedState l.calcMaxPoSePenalty l.nHeight penalty dmn.pdmnState)

def poSeDecrease (dmn : CDeterministicMN) : ListResult :=
  l.updateMN dmn { dmn.pdmnState with nPoSePenalty := dmn.pdmnState.nPoSePenalty - 1 }

def decreaseScores : ListResult :=
  (l.validMNs.filter fun dmn => dmn.pdmnState.nPoSePenalty > 0).foldlM poSeDecrease l

/-! ## Payees -/

/-- `CompareByLastPaid_GetHeight`. -/
def compareByLastPaidHeight (dmn : CDeterministicMN) : Int :=
  let state := dmn.pdmnState
  if state.nPoSeRevivedHeight ≠ -1 ∧ state.nPoSeRevivedHeight > state.nLastPaidHeight then
    state.nPoSeRevivedHeight
  else if state.nLastPaidHeight = 0 then
    state.nRegisteredHeight
  else
    state.nLastPaidHeight

def compareByLastPaid (a b : CDeterministicMN) : Bool :=
  let ah := compareByLastPaidHeight a
  let bh := compareByLastPaidHeight b
  if ah = bh then Uint256.less a.proTxHash b.proTxHash else ah < bh

/-- The last payee, if it is an EvoNode in the middle of its payments. -/
def evoPayee : Option CDeterministicMN :=
  l.validMNs.foldl (fun best dmn =>
    if dmn.pdmnState.nLastPaidHeight = l.nHeight ∧ dmn.nType = .evo ∧
        dmn.pdmnState.nConsecutivePayments < MnType.evo.votingWeight then
      some dmn
    else best) none

/-- The masternode whose turn it is. -/
def nextPayee : Option CDeterministicMN :=
  l.validMNs.foldl (fun best dmn =>
    match best with
    | none => some dmn
    | some b => if compareByLastPaid dmn b then some dmn else best) none

end

def getMNPayee (env : MnEnv) (l : CDeterministicMNList) (pindexPrev : CBlockIndex) :
    Option CDeterministicMN :=
  if l.getAllMNsCount = 0 then
    none
  else if env.isV19Active pindexPrev ∧ ¬ env.mnRewardReallocation pindexPrev then
    (evoPayee l).or (nextPayee l)
  else
    nextPayee l

end CDeterministicMNList

/-! ## Special transactions -/

section Transactions

open CDeterministicMNList

variable (env : MnEnv) (pindexPrev : CBlockIndex)

/-- The state a registration starts with: banned if there is no address yet. -/
def CProRegTx.newState (proTx : CProRegTx) (nHeight : Int) : CDeterministicMNState :=
  let state : CDeterministicMNState :=
    { nVersion := proTx.nVersion, keyIDOwner := proTx.keyIDOwner
      pubKeyOperator := proTx.pubKeyOperator, keyIDVoting := proTx.keyIDVoting
      addr := proTx.addr, scriptPayout := proTx.scriptPayout
      platformNodeID := proTx.platformNodeID, platformP2PPort := proTx.platformP2PPort
      platformHTTPPort := proTx.platformHTTPPort, nRegisteredHeight := nHeight }
  if proTx.addr = .null then state.banIfNotBanned nHeight else state

section

variable (newList : CDeterministicMNList)

/-- A registration takes the place of the masternode with the same collateral. -/
def removeReplaced (collateralOutpoint : COutPoint) : ListResult :=
  match newList.getMNByCollateral collateralOutpoint with
  | none => .ok newList
  | some replacedDmn => newList.removeMN replacedDmn.proTxHash

/-- The branch for `TRANSACTION_PROVIDER_REGISTER`. -/
def processProRegTx (hash : Uint256) (proTx : CProRegTx) : ListResult :=
  let nHeight := nHeight pindexPrev + 1
  let collateralOutpoint := proTx.collateral hash
  if proTx.nType = .evo ∧ ¬ env.isV19Active pindexPrev then
    .error (.invalid "bad-protx-payload")
  else if proTx.collateralOutpoint.hash ≠ 0 ∧
      env.getCoin pindexPrev collateralOutpoint ≠
        some (getCollateralAmount proTx.nType nHeight) then
    .error (.invalid "bad-protx-collateral")
  else do
    let newList ← removeReplaced newList collateralOutpoint
    if newList.hasUniqueProperty (.addr proTx.addr) then
      .error (.invalid "bad-protx-dup-addr")
    else if newList.hasUniqueProperty (.owner proTx.keyIDOwner) ∨
        newList.hasUniqueProperty (.operator proTx.pubKeyOperator) then
      .error (.invalid "bad-protx-dup-key")
    else
      newList.addMN
        { internalId := newList.nTotalRegisteredCount, proTxHash := hash
          collateralOutpoint := collateralOutpoint, nOperatorReward := proTx.nOperatorReward
          nType := proTx.nType, pdmnState := proTx.newState nHeight } true

/-- The branch for `TRANSACTION_PROVIDER_UPDATE_SERVICE`. -/
def processProUpServTx (proTx : CProUpServTx) : ListResult :=
  let nHeight := nHeight pindexPrev + 1
  if proTx.nType = .evo ∧ ¬ env.isV19Active pindexPrev then
    .error (.invalid "bad-protx-payload")
  else if usedByOther newList (.addr proTx.addr) proTx.proTxHash then
    .error (.invalid "bad-protx-dup-addr")
  else
    match newList.getMN proTx.proTxHash with
    | none => .error (.invalid "bad-protx-hash")
    | some dmn =>
      if proTx.nType ≠ dmn.nType then
        .error (.invalid "bad-protx-type-mismatch")
      else if ¬ proTx.nType.isValid then
        .error (.invalid "bad-protx-type")
      else
        let newState := { dmn.pdmnState with
          addr := proTx.addr, scriptOperatorPayout := proTx.scriptOperatorPayout }
        -- only revive when all keys are set
        let newState :=
          if newState.isBanned ∧ newState.pubKeyOperator.isValid ∧ newState.keyIDVoting ≠ 0 ∧
              newState.keyIDOwner ≠ 0 then
            newState.revive nHeight
          else newState
        newList.updateMNByHash proTx.proTxHash newState

/-- The branch for `TRANSACTION_PROVIDER_UPDATE_REGISTRAR`. -/
def processProUpRegTx (proTx : CProUpRegTx) : ListResult :=
  let nHeight := nHeight pindexPrev + 1
  match newList.getMN proTx.proTxHash with
  | none => .error (.invalid "bad-protx-hash")
  | some dmn =>
    let newState :=
      if ¬ dmn.pdmnState.pubKeyOperator.same proTx.pubKeyOperator then
        { dmn.pdmnState.resetOperatorFields.banIfNotBanned nHeight with
          nVersion := proTx.nVersion, pubKeyOperator := proTx.pubKeyOperator }
      else dmn.pdmnState
    newList.updateMNByHash proTx.proTxHash
      { newState with keyIDVoting := proTx.keyIDVoting, scriptPayout := proTx.scriptPayout }

/-- The branch for `TRANSACTION_PROVIDER_UPDATE_REVOKE`. -/
def processProUpRevTx (proTx : CProUpRevTx) : ListResult :=
  let nHeight := nHeight pindexPrev + 1
  match newList.getMN proTx.proTxHash with
  | none => .error (.invalid "bad-protx-hash")
  | some dmn => newList.updateMNByHash proTx.proTxHash
      { dmn.pdmnState.resetOperatorFields.banIfNotBanned nHeight with
        nRevocationReason := proTx.nReason }

/-- One round of `HandleQuorumCommitment`; the vector is read without a bound check. -/
def punishMember (validMembers : List Bool) (mnList : CDeterministicMNList)
    (member : Uint256 × Nat) : ListResult :=
  if ¬ mnList.hasMN member.1 then
    .ok mnList
  else
    match validMembers[member.2]? with
    | none => .error (.runtimeError "read past the end of validMembers")
    | some true => .ok mnList
    | some false => mnList.poSePunish member.1 (mnList.calcPenalty 66)

/-- The branch for `TRANSACTION_QUORUM_COMMITMENT`, with `HandleQuorumCommitment`. -/
def processQuorumCommitment (qc : CFinalCommitmentTxPayload) : ListResult :=
  if qc.isNull then
    .ok newList
  else
    match env.llmqs pindexPrev qc.llmqType with
    | none => .error (.invalid "bad-qc-commitment-type")
    | some params =>
      let quorumHeight := qc.nHeight - qc.nHeight.tmod params.dkgInterval + qc.quorumIndex
      match getAncestor pindexPrev quorumHeight with
      | none => .error (.invalid "bad-qc-quorum-hash")
      | some pQuorumBaseBlockIndex =>
        if getBlockHash pQuorumBaseBlockIndex ≠ qc.quorumHash then
          .error (.invalid "bad-qc-quorum-hash")
        else
          (env.getAllQuorumMembers qc.llmqType pQuorumBaseBlockIndex).zipIdx.foldlM
            (punishMember qc.validMembers) newList

/-- One round of the loop over the special transactions. -/
def processTx (tx : CTransaction) : ListResult :=
  match tx.payload with
  | .none => .ok newList
  | .proReg none | .proUpServ none | .proUpReg none | .proUpRev none =>
    .error (.invalid "bad-protx-payload")
  | .quorumCommitment none => .error (.invalid "bad-qc-payload")
  | .proReg (some proTx) => processProRegTx env pindexPrev newList tx.hash proTx
  | .proUpServ (some proTx) => processProUpServTx env pindexPrev newList proTx
  | .proUpReg (some proTx) => processProUpRegTx pindexPrev newList proTx
  | .proUpRev (some proTx) => processProUpRevTx pindexPrev newList proTx
  | .quorumCommitment (some qc) => processQuorumCommitment env pindexPrev newList qc

/-! ## `BuildNewListFromBlock` -/

/-- The confirmation of a masternode of the old list. -/
def confirmMN (dmn : CDeterministicMN) : ListResult :=
  if dmn.pdmnState.confirmedHash ≠ 0 then
    .ok newList
  else if nHeight pindexPrev - dmn.pdmnState.nRegisteredHeight ≥
      env.params.nMasternodeMinimumConfirmations then
    newList.updateMNByHash dmn.proTxHash (dmn.pdmnState.updateConfirmedHash env.sha256 dmn.proTxHash
        (getBlockHash pindexPrev))
  else
    .ok newList

/-- The removal of the masternode whose collateral an input spends. -/
def removeSpent (prevout : COutPoint) : ListResult :=
  match newList.getMNByCollateral prevout with
  | none => .ok newList
  | some dmn =>
    if dmn.collateralOutpoint = prevout then newList.removeMN dmn.proTxHash else .ok newList

end

/-- The payment of the masternode whose turn it was in the old list. -/
def recordPayment (payee : Option CDeterministicMN) (newList : CDeterministicMNList) : ListResult :=
  match payee with
  | none => .ok newList
  | some payee =>
    match newList.getMN payee.proTxHash with
    | none => .ok newList
    | some dmn =>
      newList.updateMNByHash payee.proTxHash { dmn.pdmnState with
        nLastPaidHeight := nHeight pindexPrev + 1
        nConsecutivePayments :=
          if dmn.nType = .evo ∧ ¬ env.mnRewardReallocation pindexPrev then
            dmn.pdmnState.nConsecutivePayments + 1
          else dmn.pdmnState.nConsecutivePayments }

/-- The end of an EvoNode's payments. -/
def resetPayments (payee : Option CDeterministicMN) (newList : CDeterministicMNList)
    (dmn : CDeterministicMN) : ListResult :=
  if dmn.nType ≠ .evo then
    .ok newList
  else if payee.map CDeterministicMN.proTxHash = some dmn.proTxHash ∧
      ¬ env.mnRewardReallocation pindexPrev then
    .ok newList
  else if dmn.pdmnState.nConsecutivePayments = 0 then
    .ok newList
  else
    newList.updateMNByHash dmn.proTxHash { dmn.pdmnState with nConsecutivePayments := 0 }

/-- `BuildNewListFromBlock`, `oldList` being the list of `pindexPrev`. -/
def buildNewListFromBlock (block : CBlock) (oldList : CDeterministicMNList) : ListResult := do
  let payee := getMNPayee env oldList pindexPrev
  let newList := { oldList with
    blockHash := 0, nHeight := nHeight pindexPrev + 1 }
  let newList ← oldList.mns.foldlM (confirmMN env pindexPrev) newList
  let newList ← newList.decreaseScores
  let newList ← block.txs.foldlM (processTx env pindexPrev) newList
  let newList ← (block.txs.flatMap CTransaction.vin).foldlM removeSpent newList
  let newList ← recordPayment env pindexPrev payee newList
  newList.mns.foldlM (resetPayments env pindexPrev payee) newList

end Transactions

/-! ## Updates that touch no key -/

/-- What the index maps see of a masternode. -/
def CDeterministicMN.core (dmn : CDeterministicMN) : CDeterministicMN :=
  dmn.withState
    { addr := dmn.pdmnState.addr, keyIDOwner := dmn.pdmnState.keyIDOwner
      pubKeyOperator := dmn.pdmnState.pubKeyOperator }

namespace CDeterministicMN

variable {dmn dmn' : CDeterministicMN} {state : CDeterministicMNState}

/-- The new state has the same address and keys. -/
def SameKeys (state state' : CDeterministicMNState) : Prop :=
  state'.addr = state.addr ∧ state'.keyIDOwner = state.keyIDOwner ∧
    state'.pubKeyOperator = state.pubKeyOperator

lemma core_withState (h : SameKeys dmn.pdmnState state) : (dmn.withState state).core = dmn.core := by
  obtain ⟨haddr, howner, hoperator⟩ := h
  simp [core, withState, haddr, howner, hoperator]

lemma properties_core : dmn.core.properties = dmn.properties := rfl

lemma properties_eq_of_core (h : dmn.core = dmn'.core) : dmn.properties = dmn'.properties := by
  rw [← properties_core, h, properties_core]

lemma sameKeys_of_core (h : dmn.core = dmn'.core) : SameKeys dmn.pdmnState dmn'.pdmnState :=
  ⟨(congrArg (·.pdmnState.addr) h).symm, (congrArg (·.pdmnState.keyIDOwner) h).symm,
    (congrArg (·.pdmnState.pubKeyOperator) h).symm⟩

lemma SameKeys.trans {s₁ s₂ s₃ : CDeterministicMNState} (h₁₂ : SameKeys s₁ s₂)
    (h₂₃ : SameKeys s₂ s₃) : SameKeys s₁ s₃ :=
  ⟨h₂₃.1.trans h₁₂.1, h₂₃.2.1.trans h₁₂.2.1, h₂₃.2.2.trans h₁₂.2.2⟩

lemma keysValid_of_core (h : dmn.core = dmn'.core) (hkeys : dmn.KeysValid) : dmn'.KeysValid := by
  obtain ⟨-, howner, -⟩ := sameKeys_of_core h
  have hcollateral : dmn'.collateralOutpoint = dmn.collateralOutpoint :=
    (congrArg collateralOutpoint h).symm
  constructor
  · rw [hcollateral]
    exact hkeys.collateral
  · rw [howner]
    exact hkeys.owner

end CDeterministicMN

namespace CDeterministicMNList

open CDeterministicMN

variable {l l' l'' : CDeterministicMNList} {h : Uint256} {dmn : CDeterministicMN}
  {state : CDeterministicMNState}

/-- The lists differ in the states of their masternodes only, and not in the keys. -/
structure SameCores (l l' : CDeterministicMNList) : Prop where
  core : ∀ h, (l'.getMN h).map CDeterministicMN.core = (l.getMN h).map CDeterministicMN.core
  ids : l'.mnInternalIdMap = l.mnInternalIdMap
  properties : l'.mnUniquePropertyMap = l.mnUniquePropertyMap
  height : l'.nHeight = l.nHeight
  registered : l'.nTotalRegisteredCount = l.nTotalRegisteredCount

lemma SameCores.refl (l : CDeterministicMNList) : SameCores l l :=
  ⟨fun _ => rfl, rfl, rfl, rfl, rfl⟩

lemma SameCores.trans (h₁ : SameCores l l') (h₂ : SameCores l' l'') : SameCores l l'' :=
  ⟨fun h => (h₂.core h).trans (h₁.core h), h₂.ids.trans h₁.ids,
    h₂.properties.trans h₁.properties, h₂.height.trans h₁.height,
    h₂.registered.trans h₁.registered⟩

section

variable (hsame : SameCores l l')

include hsame

lemma SameCores.getMN (hget : l.getMN h = some dmn) :
    ∃ dmn', l'.getMN h = some dmn' ∧ dmn.core = dmn'.core := by
  have hcore := hsame.core h
  rw [hget, map_some, map_eq_some_iff] at hcore
  obtain ⟨dmn', hget', heq⟩ := hcore
  exact ⟨dmn', hget', heq.symm⟩

lemma SameCores.symm : SameCores l' l :=
  ⟨fun h => (hsame.core h).symm, hsame.ids.symm, hsame.properties.symm, hsame.height.symm,
    hsame.registered.symm⟩

lemma SameCores.holds_iff (p : UniqueProperty) : l'.Holds h p ↔ l.Holds h p := by
  constructor
  · rintro ⟨dmn', hget', hp⟩
    obtain ⟨dmn, hget, hcore⟩ := hsame.symm.getMN hget'
    exact ⟨dmn, hget, properties_eq_of_core hcore ▸ hp⟩
  · rintro ⟨dmn, hget, hp⟩
    obtain ⟨dmn', hget', hcore⟩ := hsame.getMN hget
    exact ⟨dmn', hget', properties_eq_of_core hcore ▸ hp⟩

lemma WellIndexed.congr (hl : l.WellIndexed) : l'.WellIndexed := by
  refine ⟨?_, ?_, ?_, ?_⟩
  · intro h dmn' hget'
    obtain ⟨dmn, hget, hcore⟩ := hsame.symm.getMN hget'
    have hhash : dmn.proTxHash = dmn'.proTxHash := (congrArg proTxHash hcore).symm
    rw [← hhash]
    exact hl.proTxHash_eq hget
  · intro i h
    rw [hsame.ids, hl.internalIds]
    constructor
    · rintro ⟨dmn, hget, rfl⟩
      obtain ⟨dmn', hget', hcore⟩ := hsame.getMN hget
      exact ⟨dmn', hget', (congrArg internalId hcore).symm⟩
    · rintro ⟨dmn', hget', rfl⟩
      obtain ⟨dmn, hget, hcore⟩ := hsame.symm.getMN hget'
      exact ⟨dmn, hget, (congrArg internalId hcore).symm⟩
  · rw [hsame.properties]
    exact UniqueIndex.indexes_congr hl.properties fun h p => (hsame.holds_iff p).symm
  · intro h dmn' hget'
    obtain ⟨dmn, hget, hcore⟩ := hsame.symm.getMN hget'
    exact keysValid_of_core hcore.symm (hl.keys hget)

end

/-- An update of a masternode that keeps its address and keys does not throw. -/
lemma updateMN_sameKeys (hkeys : SameKeys dmn.pdmnState state) : l.updateMN dmn state =
    .ok { l with mnMap := l.mnMap.insert dmn.proTxHash (dmn.withState state) } := by
  obtain ⟨haddr, howner, hoperator⟩ := hkeys
  simp [updateMN, updateProperties, updateUniqueProperty, UniqueIndex.exchange, haddr, howner,
    hoperator, UniqueProperty.same, CBLSLazyPublicKey.same, orThrow]

lemma sameCores_updateMN (hcore : (l.getMN dmn.proTxHash).map core =
      some dmn.core) (hkeys : SameKeys dmn.pdmnState state)
    (hrun : l.updateMN dmn state = .ok l') : SameCores l l' := by
  have hget := getMN_updateMN hrun
  rw [updateMN_sameKeys hkeys] at hrun
  cases hrun
  refine ⟨fun h => ?_, rfl, rfl, rfl, rfl⟩
  rw [hget]
  split
  · next heq => rw [map_some, core_withState hkeys, heq, hcore]
  · rfl

lemma updateMNByHash_eq_ok : l.updateMNByHash h state = .ok l' ↔
    ∃ dmn, l.getMN h = some dmn ∧ l.updateMN dmn state = .ok l' := by
  unfold updateMNByHash
  cases hget : l.getMN h <;> simp

/-- The step for `UpdateMN` by hash: the new state is made from a masternode `dmn` that
has the core of the one in the list. -/
lemma sameCores_updateMNByHash (hl : l.WellIndexed) (hcore : (l.getMN h).map core = some dmn.core)
    (hkeys : SameKeys dmn.pdmnState state) (hrun : l.updateMNByHash h state = .ok l') :
    SameCores l l' := by
  obtain ⟨dmn', hget, hrun⟩ := updateMNByHash_eq_ok.mp hrun
  rw [hget, map_some, some.injEq] at hcore
  apply sameCores_updateMN _ ((sameKeys_of_core hcore).trans hkeys) hrun
  rw [hl.proTxHash_eq hget, hget, map_some]

/-! ## What a block can do to the list -/

/-- Two states with one confirmation. -/
def SameConfirmation (state state' : CDeterministicMNState) : Prop :=
  state'.confirmedHash = state.confirmedHash ∧
    state'.confirmedHashWithProRegTxHash = state.confirmedHashWithProRegTxHash

/-- What a block can do to the state of the masternode `h`: the owner and a confirmation stay,
and a new address, key or script comes from a transaction for the masternode. -/
structure Changed (txs : List CTransaction) (h : Uint256) (state state' : CDeterministicMNState) :
    Prop where
  owner : state'.keyIDOwner = state.keyIDOwner
  confirmed : state.confirmedHash ≠ 0 → SameConfirmation state state'
  addr : state'.addr = .null ∨ state'.addr = state.addr ∨ ∃ tx ∈ txs, ∃ proTx,
    tx.payload = .proUpServ (some proTx) ∧ proTx.proTxHash = h ∧ state'.addr = proTx.addr
  operator : state'.pubKeyOperator = .null ∨ state'.pubKeyOperator = state.pubKeyOperator ∨
    ∃ tx ∈ txs, ∃ proTx, tx.payload = .proUpReg (some proTx) ∧ proTx.proTxHash = h ∧
      state'.pubKeyOperator = proTx.pubKeyOperator ∧
      state.pubKeyOperator.same proTx.pubKeyOperator = false
  payout : state'.scriptPayout = state.scriptPayout ∨ ∃ tx ∈ txs, ∃ proTx,
    tx.payload = .proUpReg (some proTx) ∧ state'.scriptPayout = proTx.scriptPayout
  operatorPayout : state'.scriptOperatorPayout = [] ∨
    state'.scriptOperatorPayout = state.scriptOperatorPayout ∨ ∃ tx ∈ txs, ∃ proTx,
      tx.payload = .proUpServ (some proTx) ∧
        state'.scriptOperatorPayout = proTx.scriptOperatorPayout

/-- The single steps of `BuildNewListFromBlock`. -/
inductive Step (txs : List CTransaction) (cur cur' : CDeterministicMNList) : Prop where
  | update {h : Uint256} {dmn : CDeterministicMN} {state : CDeterministicMNState}
      (hget : cur.getMN h = some dmn) (hstate : Changed txs h dmn.pdmnState state)
      (hrun : cur.updateMNByHash h state = .ok cur')
  | remove {h : Uint256} {dmn : CDeterministicMN} (hget : cur.getMN h = some dmn)
      (hrun : cur.removeMN h = .ok cur')
  | register {tx : CTransaction} {proTx : CProRegTx} {mid : CDeterministicMNList}
      {internalId : Nat} {nHeight : Int} (htx : tx ∈ txs)
      (hpayload : tx.payload = .proReg (some proTx))
      (hreplaced : removeReplaced cur (proTx.collateral tx.hash) = .ok mid)
      (hrun : mid.addMN
        { internalId, proTxHash := tx.hash, collateralOutpoint := proTx.collateral tx.hash
          nOperatorReward := proTx.nOperatorReward, nType := proTx.nType
          pdmnState := proTx.newState nHeight } true = .ok cur')

/-- Any number of steps. -/
abbrev Steps (txs : List CTransaction) : CDeterministicMNList → CDeterministicMNList → Prop :=
  Relation.ReflTransGen (Step txs)

section Inversion

variable {txs : List CTransaction} {cur cur' : CDeterministicMNList} {env : MnEnv}
  {pindexPrev : CBlockIndex} {state' : CDeterministicMNState}

lemma Changed.of_same (hkeys : SameKeys state state')
    (hpayout : state'.scriptPayout = state.scriptPayout)
    (hoperator : state'.scriptOperatorPayout = state.scriptOperatorPayout)
    (hconfirmed : state.confirmedHash ≠ 0 → SameConfirmation state state') :
    Changed txs h state state' :=
  ⟨hkeys.2.1, hconfirmed, .inr (.inl hkeys.1), .inr (.inl hkeys.2.2), .inl hpayout,
    .inr (.inl hoperator)⟩

/-- A block writes no key of a masternode again in the other scheme. -/
lemma Changed.keepsScheme (hstate : Changed txs h state state') :
    state.pubKeyOperator.KeepsScheme state'.pubKeyOperator := by
  rcases hstate.operator with hnull | hkept | ⟨_, _, _, _, _, hkey, hother⟩
  · rw [hnull]
    exact CBLSLazyPublicKey.keepsScheme_null
  · exact CBLSLazyPublicKey.keepsScheme_of_eq hkept
  · intro hsame
    rw [hkey, hother] at hsame
    cases hsame

lemma changed_punishedState (maxPenalty nHeight penalty : Int) :
    Changed txs h state (punishedState maxPenalty nHeight penalty state) := by
  unfold punishedState CDeterministicMNState.banIfNotBanned
  dsimp only
  split_ifs <;> exact .of_same ⟨rfl, rfl, rfl⟩ rfl rfl fun _ => ⟨rfl, rfl⟩

lemma keyed_updateMNByHash (hkeyed : cur.Keyed) (hrun : cur.updateMNByHash h state = .ok cur') :
    cur'.Keyed ∧ ∀ k, k ≠ h → cur'.getMN k = cur.getMN k := by
  obtain ⟨dmn, hget, hrun⟩ := updateMNByHash_eq_ok.mp hrun
  have hget' := getMN_updateMN hrun
  rw [hkeyed hget] at hget'
  refine ⟨fun {k mn} hmn => ?_, fun k hk => by rw [hget', if_neg hk]⟩
  rw [hget'] at hmn
  split at hmn
  case isTrue hk =>
    cases hmn
    exact (hkeyed hget).trans hk.symm
  case isFalse => exact hkeyed hmn

variable {k : Uint256} {payee : Option CDeterministicMN} {tx : CTransaction}

lemma getMN_of_removeMN (hrun : cur.removeMN h = .ok cur') (hmn : cur'.getMN k = some dmn) :
    cur.getMN k = some dmn := by
  cases hget : cur.getMN h with
  | none => simp [removeMN, hget] at hrun
  | some removed =>
    rw [getMN_removeMN hget hrun] at hmn
    split at hmn
    · cases hmn
    · exact hmn

lemma getMN_of_removeReplaced {outpoint : COutPoint}
    (hrun : removeReplaced cur outpoint = .ok cur') (hmn : cur'.getMN k = some dmn) :
    cur.getMN k = some dmn := by
  unfold removeReplaced at hrun
  split at hrun
  · cases hrun
    exact hmn
  · exact getMN_of_removeMN hrun hmn

lemma Step.keyed (hstep : Step txs cur cur') (hkeyed : cur.Keyed) : cur'.Keyed := by
  cases hstep with
  | update hget hstate hrun => exact (keyed_updateMNByHash hkeyed hrun).1
  | remove hget hrun => exact fun hmn => hkeyed (getMN_of_removeMN hrun hmn)
  | register htx hpayload hreplaced hrun =>
    intro k mn hmn
    rw [getMN_addMN hrun] at hmn
    split at hmn
    case isTrue hk =>
      cases hmn
      exact hk.symm
    case isFalse => exact hkeyed (getMN_of_removeReplaced hreplaced hmn)

lemma Steps.keyed (hsteps : Steps txs cur cur') (hkeyed : cur.Keyed) : cur'.Keyed := by
  induction hsteps with
  | refl => exact hkeyed
  | tail _ hstep ih => exact hstep.keyed ih

variable (dmn txs cur cur') in
/-- One masternode is updated. -/
abbrev Updated : Prop := ∃ state, Changed txs dmn.proTxHash dmn.pdmnState state ∧
  cur.updateMNByHash dmn.proTxHash state = .ok cur'

/-- A loop over the masternodes of the list it starts from: each round leaves the list alone or
updates its own masternode. -/
lemma steps_of_loop {f : CDeterministicMNList → CDeterministicMN → ListResult}
    {items : List CDeterministicMN} (hitems : items.Sublist l.mns) (hkeyed : l.Keyed)
    (hf : ∀ cur dmn cur', cur.getMN dmn.proTxHash = some dmn → f cur dmn = .ok cur' →
      cur' = cur ∨ Updated dmn txs cur cur')
    (hrun : items.foldlM f l = .ok l') : Steps txs l l' := by
  refine foldlM_own (Steps txs l) proTxHash getMN l.getMN
    (fun cur dmn cur' hmem hsteps hfound hf' => ?_) ?_ .refl (fun _ _ => rfl) hrun
  · obtain ⟨k, hget⟩ := mem_mns.mp (hitems.mem hmem)
    rw [← hkeyed hget] at hget
    have hcur := hfound.trans hget
    rcases hf cur dmn cur' hcur hf' with rfl | ⟨state, hstate, hupdate⟩
    · exact ⟨hsteps, fun _ _ => rfl⟩
    · exact ⟨hsteps.tail (.update hcur hstate hupdate),
        (keyed_updateMNByHash (Steps.keyed hsteps hkeyed) hupdate).2⟩
  · exact (nodup_mns hkeyed).sublist (hitems.map _)

lemma confirmMN_cases (hrun : confirmMN env pindexPrev cur dmn = .ok cur') :
    cur' = cur ∨ Updated dmn txs cur cur' := by
  unfold confirmMN at hrun
  split_ifs at hrun with hconfirmed
  · exact .inl (ok.inj hrun).symm
  · refine .inr ⟨_, ?_, hrun⟩
    exact .of_same ⟨rfl, rfl, rfl⟩ rfl rfl fun hne => absurd hne hconfirmed
  · exact .inl (ok.inj hrun).symm

lemma updated_poSeDecrease (hget : cur.getMN dmn.proTxHash = some dmn)
    (hrun : cur.poSeDecrease dmn = .ok cur') : Updated dmn txs cur cur' := by
  refine ⟨_, ?_, updateMNByHash_eq_ok.mpr ⟨dmn, hget, hrun⟩⟩
  exact .of_same ⟨rfl, rfl, rfl⟩ rfl rfl fun _ => ⟨rfl, rfl⟩

lemma resetPayments_cases (hrun : resetPayments env pindexPrev payee cur dmn = .ok cur') :
    cur' = cur ∨ Updated dmn txs cur cur' := by
  unfold resetPayments at hrun
  split_ifs at hrun
  · exact .inl (ok.inj hrun).symm
  · exact .inl (ok.inj hrun).symm
  · exact .inl (ok.inj hrun).symm
  · refine .inr ⟨_, ?_, hrun⟩
    exact .of_same ⟨rfl, rfl, rfl⟩ rfl rfl fun _ => ⟨rfl, rfl⟩

lemma steps_recordPayment (hrun : recordPayment env pindexPrev payee cur = .ok cur') :
    Steps txs cur cur' := by
  unfold recordPayment at hrun
  split at hrun
  · cases hrun
    exact .refl
  split at hrun
  · cases hrun
    exact .refl
  case h_2 dmn hget =>
    refine .single (.update hget ?_ hrun)
    exact .of_same ⟨rfl, rfl, rfl⟩ rfl rfl fun _ => ⟨rfl, rfl⟩

lemma steps_removeSpent {prevout : COutPoint} (hkeyed : cur.Keyed)
    (hrun : removeSpent cur prevout = .ok cur') : Steps txs cur cur' := by
  unfold removeSpent at hrun
  split at hrun
  · cases hrun
    exact .refl
  case h_2 dmn hsome =>
    split_ifs at hrun
    · obtain ⟨entry, -, hget⟩ := bind_eq_some_iff.mp hsome
      rw [← hkeyed hget] at hget
      exact .single (.remove hget hrun)
    · cases hrun
      exact .refl

lemma steps_punishMember {validMembers : List Bool} {member : Uint256 × Nat}
    (hrun : punishMember validMembers cur member = .ok cur') : Steps txs cur cur' := by
  unfold punishMember at hrun
  split at hrun
  · cases hrun
    exact .refl
  split at hrun
  · cases hrun
  · cases hrun
    exact .refl
  unfold poSePunish at hrun
  split at hrun
  · cases hrun
  case h_2 dmn hget => exact .single (.update hget (changed_punishedState ..) hrun)

lemma steps_processQuorumCommitment {qc : CFinalCommitmentTxPayload}
    (hrun : processQuorumCommitment env pindexPrev cur qc = .ok cur') : Steps txs cur cur' := by
  unfold processQuorumCommitment at hrun
  split at hrun
  · cases hrun
    exact .refl
  split at hrun
  · cases hrun
  dsimp only at hrun
  split at hrun
  · cases hrun
  split_ifs at hrun
  exact foldlM_preserves (Steps txs cur)
    (fun mid member mid' _ hsteps hf => hsteps.trans (steps_punishMember hf)) .refl hrun

lemma steps_processProUpServTx {proTx : CProUpServTx} (htx : tx ∈ txs)
    (hpayload : tx.payload = .proUpServ (some proTx))
    (hrun : processProUpServTx env pindexPrev cur proTx = .ok cur') : Steps txs cur cur' := by
  unfold processProUpServTx at hrun
  dsimp only at hrun
  split at hrun
  · cases hrun
  split at hrun
  · cases hrun
  split at hrun
  · cases hrun
  case h_2 dmn hget =>
    -- revived or not, address and operator script are those of the transaction
    have hstate : ∀ state : CDeterministicMNState,
        Changed txs proTx.proTxHash dmn.pdmnState { dmn.pdmnState with
          addr := proTx.addr, scriptOperatorPayout := proTx.scriptOperatorPayout
          nPoSePenalty := state.nPoSePenalty, nPoSeBanHeight := state.nPoSeBanHeight
          nPoSeRevivedHeight := state.nPoSeRevivedHeight } := fun _ =>
      ⟨rfl, fun _ => ⟨rfl, rfl⟩, .inr (.inr ⟨tx, htx, proTx, hpayload, rfl, rfl⟩), .inr (.inl rfl),
        .inl rfl, .inr (.inr ⟨tx, htx, proTx, hpayload, rfl⟩)⟩
    split_ifs at hrun
    · exact .single (.update hget (hstate (dmn.pdmnState.revive _)) hrun)
    · exact .single (.update hget (hstate dmn.pdmnState) hrun)

lemma changed_resetOperatorFields (nHeight : Int) :
    Changed txs h state (state.resetOperatorFields.banIfNotBanned nHeight) := by
  unfold CDeterministicMNState.banIfNotBanned
  split_ifs <;> exact ⟨rfl, fun _ => ⟨rfl, rfl⟩, .inl rfl, .inl rfl, .inl rfl, .inl rfl⟩

lemma steps_processProUpRegTx {proTx : CProUpRegTx} (htx : tx ∈ txs)
    (hpayload : tx.payload = .proUpReg (some proTx))
    (hrun : processProUpRegTx pindexPrev cur proTx = .ok cur') : Steps txs cur cur' := by
  unfold processProUpRegTx at hrun
  split at hrun
  · cases hrun
  case h_2 dmn hget =>
    refine .single (.update hget ?_ hrun)
    have hpayout := fun state : CDeterministicMNState =>
      (.inr ⟨tx, htx, proTx, hpayload, rfl⟩ :
        proTx.scriptPayout = state.scriptPayout ∨ ∃ tx ∈ txs, ∃ other,
          tx.payload = .proUpReg (some other) ∧ proTx.scriptPayout = other.scriptPayout)
    split_ifs with hsame
    · exact ⟨rfl, fun _ => ⟨rfl, rfl⟩, .inr (.inl rfl), .inr (.inl rfl), hpayout _, .inr (.inl rfl)⟩
    · -- a new operator has to announce its address
      have hreset : Changed txs proTx.proTxHash dmn.pdmnState _ :=
        changed_resetOperatorFields (CBlockIndex.nHeight pindexPrev + 1)
      exact ⟨hreset.owner, hreset.confirmed, hreset.addr,
        .inr (.inr ⟨tx, htx, proTx, hpayload, rfl, rfl, by simpa using hsame⟩), hpayout _,
        hreset.operatorPayout⟩

lemma steps_processTx (htx : tx ∈ txs) (hrun : processTx env pindexPrev cur tx = .ok cur') :
    Steps txs cur cur' := by
  unfold processTx at hrun
  split at hrun
  case h_1 =>
    cases hrun
    exact .refl
  case h_7 proTx hpayload =>
    unfold processProRegTx at hrun
    dsimp only at hrun
    split_ifs at hrun
    obtain ⟨mid, hreplaced, hrun⟩ := bind_eq_ok.mp hrun
    split_ifs at hrun
    exact .single (.register htx hpayload hreplaced hrun)
  case h_8 proTx hpayload => exact steps_processProUpServTx htx hpayload hrun
  case h_9 proTx hpayload => exact steps_processProUpRegTx htx hpayload hrun
  case h_10 proTx _ =>
    unfold processProUpRevTx at hrun
    split at hrun
    · cases hrun
    case h_2 dmn hget =>
      have hreset : Changed txs proTx.proTxHash dmn.pdmnState _ :=
        changed_resetOperatorFields (CBlockIndex.nHeight pindexPrev + 1)
      refine .single (.update hget ?_ hrun)
      exact ⟨hreset.owner, hreset.confirmed, hreset.addr, hreset.operator, hreset.payout,
        hreset.operatorPayout⟩
  case h_11 => exact steps_processQuorumCommitment hrun
  -- the payloads that do not decode
  all_goals cases hrun

/-- **The steps of a block**: everything that `BuildNewListFromBlock` does. -/
theorem steps_buildNewListFromBlock (hkeyed : l.Keyed) {block : CBlock}
    (hrun : buildNewListFromBlock env pindexPrev block l = .ok l') :
    Steps block.txs { l with blockHash := 0, nHeight := CBlockIndex.nHeight pindexPrev + 1 } l' := by
  simp only [buildNewListFromBlock, bind_eq_ok] at hrun
  obtain ⟨l₁, hconfirm, l₂, hdecrease, l₃, htxs, l₄, hspent, l₅, hpayment, hreset⟩ := hrun
  have hkeyed₀ : Keyed { l with
    blockHash := 0, nHeight := CBlockIndex.nHeight pindexPrev + 1 } := hkeyed
  have h₁ : Steps block.txs _ l₁ := steps_of_loop (List.Sublist.refl _) hkeyed₀
    (fun cur dmn cur' _ hf => confirmMN_cases hf) hconfirm
  have hkeyed₁ : l₁.Keyed := Steps.keyed h₁ hkeyed₀
  have h₂ : Steps block.txs l₁ l₂ := steps_of_loop (filter_sublist.trans filter_sublist) hkeyed₁
    (fun cur dmn cur' hget hf => .inr (updated_poSeDecrease hget hf)) hdecrease
  have h₃ := foldlM_preserves (Steps block.txs l₂)
    (fun mid tx mid' htx hsteps hf => hsteps.trans (steps_processTx htx hf)) .refl htxs
  have hkeyed₃ : l₃.Keyed := Steps.keyed (h₂.trans h₃) hkeyed₁
  have h₄ := foldlM_preserves (Steps block.txs l₃)
    (fun mid prevout mid' _ hsteps hf =>
      hsteps.trans (steps_removeSpent (Steps.keyed hsteps hkeyed₃) hf)) .refl hspent
  have h₅ := h₄.trans (steps_recordPayment hpayment)
  have h₆ : Steps block.txs l₅ l' := steps_of_loop (List.Sublist.refl _) (Steps.keyed h₅ hkeyed₃)
    (fun cur dmn cur' _ hf => resetPayments_cases hf) hreset
  exact (((h₁.trans h₂).trans h₃).trans h₅).trans h₆

end Inversion

/-! ## Lists on the way to the next block -/

/-- `cur` has come about from the list `old` of the previous block by steps that keep the
maps in step and the diffs between the two applicable; its masternodes are those of `old` or
were registered by `hashes`. -/
structure Evolved (old : CDeterministicMNList) (hashes : List Uint256)
    (cur : CDeterministicMNList) : Prop where
  indexed : cur.WellIndexed
  follows : Follows old cur
  fresh : ∀ {h h' p}, old.Holds h p → cur.Holds h' p → h' = h ∨ old.getMN h' = none
  known : ∀ h, cur.getMN h ≠ none → old.getMN h ≠ none ∨ h ∈ hashes
  height : cur.nHeight = old.nHeight + 1

section Evolved

variable {old cur cur' : CDeterministicMNList} {hashes : List Uint256}

lemma Evolved.start (hold : old.WellIndexed) :
    Evolved old hashes { old with blockHash := 0, nHeight := old.nHeight + 1 } := by
  refine ⟨hold.stamped .., ⟨?_, ?_⟩,
    fun hp hp' => .inl (hold.properties.owner_unique hp' hp), fun h hne => .inl hne, rfl⟩
  · intro h dmn dmn' hget hget'
    have heq : some dmn = some dmn' := hget.symm.trans hget'
    cases heq
    rfl
  · exact fun hp hp' => .inl (hold.properties.owner_unique hp' hp)

/-- The old list with the new one before it. -/
lemma Evolved.back (he : Evolved old hashes cur) : Follows cur old := by
  refine ⟨fun {h dmn dmn'} hget hget' => ?_, he.fresh⟩
  rw [he.follows.same hget' hget]
  rfl

/-- No masternode of the old list other than `h` had the property. -/
def Unclaimed (old : CDeterministicMNList) (h : Uint256) (p : UniqueProperty) : Prop :=
  ∀ h', old.Holds h' p → h' = h

section

variable (he : Evolved old hashes cur)

include he

/-- What an update has to respect for the diff of the block to be applicable. -/
lemma Evolved.updateMN (hget : cur.getMN dmn.proTxHash = some dmn)
    (hscheme : dmn.pdmnState.pubKeyOperator.KeepsScheme state.pubKeyOperator)
    (hkeys : (dmn.withState state).KeysValid)
    (hclaims : ∀ p ∈ (dmn.withState state).properties,
      p ∈ dmn.properties ∨ Unclaimed old dmn.proTxHash p)
    (hrun : cur.updateMN dmn state = .ok cur') : Evolved old hashes cur' := by
  have hget' := getMN_updateMN hrun
  have hnone : ∀ h, h ≠ dmn.proTxHash → cur.getMN h = none → cur'.getMN h = none :=
    fun h hne hnone => by rw [hget', if_neg hne, hnone]
  refine ⟨he.indexed.updateMN hget hscheme hkeys hrun, ⟨?_, ?_⟩, ?_, ?_,
    (congrArg Prod.snd (stamp_updateMN hrun)).trans he.height⟩
  · intro h mn mn' hold hmn'
    rw [hget'] at hmn'
    split at hmn'
    · next hh =>
      cases hmn'
      have hsame := he.follows.same hold (hh.symm ▸ hget)
      exact congrArg (·.withState state) hsame
    · exact he.follows.same hold hmn'
  · intro h h' p hp hp'
    by_cases hh' : h' = h
    · exact .inl hh'
    · obtain ⟨mn, hmn, hmem⟩ := hp
      rw [hget'] at hmn
      split at hmn
      · -- the updated masternode: its properties are its old ones or unclaimed
        next hh =>
        cases hmn
        have hgone : cur.getMN h' = none := by
          rcases hclaims p hmem with hmem | hunclaimed
          · exact (he.follows.kept (holds_of_mem (hh ▸ hget) hmem) hp').resolve_left hh'
          · exact absurd ((hunclaimed h' hp').trans hh.symm) hh'
        exact .inr (hnone h' (hh ▸ hh') hgone)
      · have hkept := (he.follows.kept (holds_of_mem hmn hmem) hp').resolve_left hh'
        by_cases hd : h' = dmn.proTxHash
        · rw [hd, hget] at hkept
          cases hkept
        · exact .inr (hnone h' hd hkept)
  · rintro h h' p hp ⟨mn, hmn, hmem⟩
    rw [hget'] at hmn
    split at hmn
    · next hh =>
      cases hmn
      rcases hclaims p hmem with hmem | hunclaimed
      · exact he.fresh hp (holds_of_mem (hh ▸ hget) hmem)
      · exact .inl (hh.trans (hunclaimed h hp).symm)
    · exact he.fresh hp (holds_of_mem hmn hmem)
  · intro h hne
    apply he.known h
    rw [hget'] at hne
    split at hne
    · next hh =>
      rw [hh, hget]
      exact some_ne_none dmn
    · exact hne

/-- A removal is always allowed. -/
lemma Evolved.removeMN (hget : cur.getMN h = some dmn)
    (hrun : cur.removeMN h = .ok cur') : Evolved old hashes cur' := by
  have hget' := getMN_removeMN hget hrun
  obtain ⟨l, hrun', hindexed⟩ := exists_removeMN he.indexed hget
  rw [hrun] at hrun'
  cases hrun'
  have hsub : ∀ {k mn}, cur'.getMN k = some mn → cur.getMN k = some mn := getMN_of_removeMN hrun
  refine ⟨hindexed, ⟨fun hold hmn => he.follows.same hold (hsub hmn), ?_⟩, ?_, ?_,
    (congrArg Prod.snd (stamp_removeMN hrun)).trans he.height⟩
  · rintro k k' p ⟨mn, hmn, hmem⟩ hp'
    rcases he.follows.kept (holds_of_mem (hsub hmn) hmem) hp' with heq | hnone
    · exact .inl heq
    · refine .inr ?_
      rw [hget', hnone, ite_self]
  · exact fun hp ⟨mn, hmn, hmem⟩ => he.fresh hp (holds_of_mem (hsub hmn) hmem)
  · intro k hne
    obtain ⟨mn, hmn⟩ := ne_none_iff_exists'.mp hne
    apply he.known k
    rw [hsub hmn]
    exact some_ne_none mn

/-- A masternode may only bring in properties that nobody has claimed. -/
lemma Evolved.addMN (hfresh : old.getMN dmn.proTxHash = none) (hmem : dmn.proTxHash ∈ hashes)
    (hclaims : ∀ p ∈ dmn.properties, ∀ h, old.Holds h p → cur.getMN h = none)
    (hrun : cur.addMN dmn true = .ok cur') : Evolved old hashes cur' := by
  have hget' := getMN_addMN hrun
  -- masternodes of the old list are not the new one
  have hold : ∀ {k p}, old.Holds k p → k ≠ dmn.proTxHash := by
    rintro k p ⟨mn, hmn, -⟩ rfl
    rw [hfresh] at hmn
    cases hmn
  have hgone : ∀ {k p}, old.Holds k p → cur.getMN k = none → cur'.getMN k = none :=
    fun hp hnone => by rw [hget', if_neg (hold hp), hnone]
  refine ⟨he.indexed.addMN hrun, ⟨?_, ?_⟩, ?_, ?_,
    (congrArg Prod.snd (stamp_addMN hrun)).trans he.height⟩
  · intro k mn mn' hmn hmn'
    rw [hget'] at hmn'
    split at hmn'
    · next hk =>
      rw [hk, hfresh] at hmn
      cases hmn
    · exact he.follows.same hmn hmn'
  · rintro k k' p ⟨mn, hmn, hp⟩ hp'
    rw [hget'] at hmn
    split at hmn
    · cases hmn
      exact .inr (hgone hp' (hclaims p hp k' hp'))
    · rcases he.follows.kept (holds_of_mem hmn hp) hp' with heq | hnone
      · exact .inl heq
      · exact .inr (hgone hp' hnone)
  · rintro k k' p hp ⟨mn, hmn, hmem⟩
    rw [hget'] at hmn
    split at hmn
    · next hk => exact .inr (hk ▸ hfresh)
    · exact he.fresh hp (holds_of_mem hmn hmem)
  · intro k hne
    rw [hget'] at hne
    split at hne
    · next hk => exact .inr (hk ▸ hmem)
    · exact he.known k hne

/-- The step for the updates of a block: the owner stays, and an address or operator key
is dropped, kept, or taken up unclaimed. -/
lemma Evolved.updateMNByHash (hget : cur.getMN h = some dmn)
    (howner : state.keyIDOwner = dmn.pdmnState.keyIDOwner)
    (haddr : state.addr = .null ∨ state.addr = dmn.pdmnState.addr ∨
      Unclaimed old h (.addr state.addr))
    (hscheme : dmn.pdmnState.pubKeyOperator.KeepsScheme state.pubKeyOperator)
    (hoperator : state.pubKeyOperator = .null ∨
      state.pubKeyOperator = dmn.pdmnState.pubKeyOperator ∨
      Unclaimed old h (.operator state.pubKeyOperator))
    (hrun : cur.updateMNByHash h state = .ok cur') : Evolved old hashes cur' := by
  obtain ⟨dmn', hget', hupdate⟩ := updateMNByHash_eq_ok.mp hrun
  rw [hget] at hget'
  cases hget'
  have hkeys := he.indexed.keys hget
  have hh := he.indexed.proTxHash_eq hget
  subst hh
  refine he.updateMN hget hscheme ?_ ?_ hupdate
  · refine ⟨hkeys.collateral, ?_⟩
    rw [withState_pdmnState, howner]
    exact hkeys.owner
  · intro p hp
    cases p with
    | collateral outpoint => exact .inl (by simpa using hp)
    | owner keyID =>
      rw [owner_mem_properties, withState_pdmnState, howner] at hp
      exact .inl (owner_mem_properties.mpr hp)
    | addr service =>
      rw [addr_mem_properties] at hp
      obtain ⟨rfl, hne⟩ := hp
      rcases haddr with hnull | hsame | hunclaimed
      · exact absurd hnull hne
      · exact .inl (addr_mem_properties.mpr ⟨hsame, hne⟩)
      · exact .inr hunclaimed
    | operator pubKey =>
      rw [operator_mem_properties] at hp
      obtain ⟨rfl, hvalid⟩ := hp
      rcases hoperator with hnull | hsame | hunclaimed
      · rw [withState_pdmnState, hnull] at hvalid
        cases hvalid
      · exact .inl (operator_mem_properties.mpr ⟨hsame, hvalid⟩)
      · exact .inr hunclaimed

end

/-- A value that passes a check against the old list is unclaimed. -/
lemma unclaimed_of_usedByOther (hold : old.WellIndexed) {p : UniqueProperty}
    (hcheck : usedByOther old p h = false) : Unclaimed old h p := by
  intro h' hp
  have hhas := hold.hasUniqueProperty_iff.mpr ⟨h', hp⟩
  obtain ⟨dmn, hget, hmem⟩ := hp
  simp only [usedByOther, hhas, hold.getUniquePropertyMN hget hmem, Bool.true_and, map_some,
    bne_eq_false_iff_eq, some.injEq] at hcheck
  exact (hold.proTxHash_eq hget).symm.trans hcheck

end Evolved

/-! ## The steps of a block -/

section Steps

variable {old cur cur' : CDeterministicMNList} {hashes : List Uint256} {env : MnEnv}
  {pindexPrev : CBlockIndex}

lemma sameKeys_punishedState (maxPenalty nHeight penalty : Int) (state : CDeterministicMNState) :
    SameKeys state (punishedState maxPenalty nHeight penalty state) := by
  unfold punishedState
  dsimp only
  split <;> simp [SameKeys]

lemma sameCores_poSePunish (hl : l.WellIndexed) {penalty : Int}
    (hrun : l.poSePunish h penalty = .ok l') : SameCores l l' := by
  unfold poSePunish at hrun
  cases hget : l.getMN h with
  | none => simp [hget] at hrun
  | some dmn =>
    simp only [hget] at hrun
    exact sameCores_updateMNByHash hl (by rw [hget]; rfl) (sameKeys_punishedState ..) hrun

lemma sameCores_punishMember (hl : l.WellIndexed) {validMembers : List Bool}
    {member : Uint256 × Nat} (hrun : punishMember validMembers l member = .ok l') :
    SameCores l l' := by
  unfold punishMember at hrun
  split at hrun
  · cases hrun
    exact .refl l
  · split at hrun
    · cases hrun
    · cases hrun
      exact .refl l
    · exact sameCores_poSePunish hl hrun

/-- After the replaced masternode is gone, no one has the collateral. -/
lemma Evolved.removeReplaced (he : Evolved old hashes cur) {outpoint : COutPoint}
    (hrun : removeReplaced cur outpoint = .ok cur') :
    Evolved old hashes cur' ∧
      ∀ h dmn, cur'.getMN h = some dmn → dmn.collateralOutpoint ≠ outpoint := by
  have hfind : ∀ h dmn, cur.getMN h = some dmn → dmn.collateralOutpoint = outpoint →
      cur.getMNByCollateral outpoint = some dmn :=
    fun h dmn hget heq => he.indexed.getUniquePropertyMN hget (by simp [heq])
  unfold Evo.removeReplaced at hrun
  split at hrun
  · next hnone =>
    cases hrun
    refine ⟨he, fun h dmn hget heq => ?_⟩
    rw [hfind h dmn hget heq] at hnone
    cases hnone
  · next replaced hsome =>
    obtain ⟨entry, -, hget⟩ := bind_eq_some_iff.mp hsome
    rw [← he.indexed.proTxHash_eq hget] at hget
    refine ⟨he.removeMN hget hrun, fun h dmn hdmn heq => ?_⟩
    rw [getMN_removeMN hget hrun] at hdmn
    split at hdmn
    · cases hdmn
    · next hne =>
      rw [hfind h dmn hdmn heq] at hsome
      cases hsome
      exact hne (he.indexed.proTxHash_eq hdmn).symm

lemma checkProRegTx_eq_ok {hash : Uint256} {proTx : CProRegTx}
    (hcheck : checkProRegTx old hash proTx = .ok ()) :
    (old.hasUniqueProperty (.addr proTx.addr) = true →
      (old.getUniquePropertyMN (.addr proTx.addr)).map collateralOutpoint =
        some (proTx.collateral hash)) ∧
    old.hasUniqueProperty (.owner proTx.keyIDOwner) = false ∧
    old.hasUniqueProperty (.operator proTx.pubKeyOperator) = false := by
  unfold checkProRegTx at hcheck
  split_ifs at hcheck with _ _ haddr hdup
  simp only [not_or, Bool.not_eq_true] at hdup
  exact ⟨fun hhas => by_contra fun hne => haddr ⟨hhas, hne⟩, hdup.1, hdup.2⟩

section

variable (proTx : CProRegTx)

@[simp] lemma newState_addr (nHeight : Int) : (proTx.newState nHeight).addr = proTx.addr := by
  unfold CProRegTx.newState
  split <;> simp

@[simp] lemma newState_keyIDOwner (nHeight : Int) :
    (proTx.newState nHeight).keyIDOwner = proTx.keyIDOwner := by
  unfold CProRegTx.newState
  split <;> simp

@[simp] lemma newState_pubKeyOperator (nHeight : Int) :
    (proTx.newState nHeight).pubKeyOperator = proTx.pubKeyOperator := by
  unfold CProRegTx.newState
  split <;> simp

end

lemma Evolved.register (hold : old.WellIndexed) (he : Evolved old hashes cur)
    {mid : CDeterministicMNList} {hash : Uint256} {proTx : CProRegTx} {internalId : Nat}
    {nHeight : Int}
    (hfresh : old.getMN hash = none) (hmem : hash ∈ hashes)
    (hcheck : checkProRegTx old hash proTx = .ok ())
    (hreplaced : Evo.removeReplaced cur (proTx.collateral hash) = .ok mid)
    (hrun : mid.addMN
      { internalId, proTxHash := hash, collateralOutpoint := proTx.collateral hash
        nOperatorReward := proTx.nOperatorReward, nType := proTx.nType
        pdmnState := proTx.newState nHeight } true = .ok cur') : Evolved old hashes cur' := by
  obtain ⟨haddr, howner, hoperator⟩ := checkProRegTx_eq_ok hcheck
  obtain ⟨hmid, hcollateral⟩ := he.removeReplaced hreplaced
  refine hmid.addMN hfresh hmem ?_ hrun
  -- a masternode of the old list with the collateral has been replaced
  have hgone : ∀ h dmn, old.getMN h = some dmn → dmn.collateralOutpoint = proTx.collateral hash →
      mid.getMN h = none := by
    intro h dmn hget heq
    cases hcur : mid.getMN h with
    | none => rfl
    | some dmn' =>
      have hsame := hmid.follows.same hget hcur
      refine absurd ?_ (hcollateral h dmn' hcur)
      rw [hsame]
      exact heq
  rintro p hp h ⟨dmn, hget, hdmn⟩
  cases p with
  | collateral outpoint =>
    rw [collateral_mem_properties] at hp hdmn
    exact hgone h dmn hget (hdmn.symm.trans hp)
  | addr service =>
    obtain ⟨rfl, -⟩ := addr_mem_properties.mp hp
    rw [newState_addr] at hdmn
    have hhas := hold.hasUniqueProperty_iff.mpr ⟨h, holds_of_mem hget hdmn⟩
    have hmap := haddr hhas
    rw [hold.getUniquePropertyMN hget hdmn, map_some, some.injEq] at hmap
    exact hgone h dmn hget hmap
  | owner keyID =>
    rw [owner_mem_properties, newState_keyIDOwner] at hp
    subst hp
    rw [hold.hasUniqueProperty_iff.mpr ⟨h, holds_of_mem hget hdmn⟩] at howner
    cases howner
  | operator pubKey =>
    obtain ⟨rfl, -⟩ := operator_mem_properties.mp hp
    rw [newState_pubKeyOperator] at hdmn
    rw [hold.hasUniqueProperty_iff.mpr ⟨h, holds_of_mem hget hdmn⟩] at hoperator
    cases hoperator

lemma withPayload_eq_ok {α : Type} {payload : Option α} {check : α → Except MnFailure Unit} :
    withPayload payload check = .ok () ↔ ∃ proTx, payload = some proTx ∧ check proTx = .ok () := by
  cases payload <;> simp [withPayload]

/-- What the checks of the provider transactions leave: addresses and keys that no other
masternode of the old list has. -/
lemma checkSpecialTx_eq_ok {tx : CTransaction}
    (hcheck : checkSpecialTx env pindexPrev old tx = .ok ()) :
    (∀ proTx, tx.payload = .proReg (some proTx) → checkProRegTx old tx.hash proTx = .ok ()) ∧
    (∀ proTx, tx.payload = .proUpServ (some proTx) →
      usedByOther old (.addr proTx.addr) proTx.proTxHash = false) ∧
    ∀ proTx, tx.payload = .proUpReg (some proTx) →
      usedByOther old (.operator proTx.pubKeyOperator) proTx.proTxHash = false := by
  unfold checkSpecialTx at hcheck
  refine ⟨fun proTx hpayload => ?_, fun proTx hpayload => ?_, fun proTx hpayload => ?_⟩
  all_goals
    simp only [hpayload, reduceCtorEq, if_false] at hcheck
    split at hcheck
    · cases hcheck
    obtain ⟨_, heq, hcheck⟩ := withPayload_eq_ok.mp hcheck
    cases heq
  · exact hcheck
  · unfold checkProUpServTx at hcheck
    split_ifs at hcheck with _ hunused
    simpa using hunused
  · unfold checkProUpRegTx at hcheck
    split_ifs at hcheck with _ _ _ hunused
    simpa using hunused

/-- One step of a block whose transactions pass their checks. -/
lemma Evolved.step (hold : old.WellIndexed) (he : Evolved old hashes cur)
    {txs : List CTransaction} (hhashes : ∀ tx ∈ txs, tx.hash ∈ hashes)
    (hchecks : ∀ tx ∈ txs, checkSpecialTx env pindexPrev old tx = .ok ())
    (hfresh : ∀ tx ∈ txs, old.getMN tx.hash = none) (hstep : Step txs cur cur') :
    Evolved old hashes cur' := by
  cases hstep with
  | update hget hstate hrun =>
    refine he.updateMNByHash hget hstate.owner ?_ hstate.keepsScheme ?_ hrun
    · refine hstate.addr.imp_right (Or.imp_right ?_)
      rintro ⟨tx, htx, proTx, hpayload, rfl, haddr⟩
      rw [haddr]
      exact unclaimed_of_usedByOther hold ((checkSpecialTx_eq_ok (hchecks tx htx)).2.1 _ hpayload)
    · refine hstate.operator.imp_right (Or.imp_right ?_)
      rintro ⟨tx, htx, proTx, hpayload, rfl, hkey, -⟩
      rw [hkey]
      exact unclaimed_of_usedByOther hold ((checkSpecialTx_eq_ok (hchecks tx htx)).2.2 _ hpayload)
  | remove hget hrun => exact he.removeMN hget hrun
  | @register tx _ _ _ _ htx hpayload hreplaced hrun =>
    exact he.register hold (hfresh tx htx) (hhashes tx htx)
      ((checkSpecialTx_eq_ok (hchecks tx htx)).1 _ hpayload) hreplaced hrun

/-- **The list of a block.** If the transactions of a block pass their checks against the
list of the previous block and none has the hash of a registration in it, the new list
keeps its maps in step and its diff is applicable. -/
theorem evolved_buildNewListFromBlock (hold : old.WellIndexed)
    (hheight : old.nHeight = CBlockIndex.nHeight pindexPrev) {block : CBlock}
    (hchecks : ∀ tx ∈ block.txs, checkSpecialTx env pindexPrev old tx = .ok ())
    (hfresh : ∀ tx ∈ block.txs, old.getMN tx.hash = none)
    (hrun : buildNewListFromBlock env pindexPrev block old = .ok cur) :
    Evolved old (block.txs.map CTransaction.hash) cur := by
  have hsteps := steps_buildNewListFromBlock hold.proTxHash_eq hrun
  clear hrun
  induction hsteps with
  | refl => exact hheight ▸ Evolved.start hold
  | tail _ hstep ih => exact ih.step hold (fun tx htx => mem_map_of_mem htx) hchecks hfresh hstep

end Steps

end CDeterministicMNList

end HootChain.Evo

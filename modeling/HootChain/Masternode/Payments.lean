import HootChain.Evo.Payouts
import HootChain.Governance.Triggers
import HootChain.Validation.Devfee

/-!
# Block Payments (`masternode/payments.cpp`, `validation.cpp`)

A block has to pay the masternode whose turn it is, a share of the subsidy to the
platform, and the payments of a superblock if one is triggered. `GetBlockTxOuts`
computes the masternode outputs; `IsBlockValueValid` and `IsBlockPayeeValid` check a
coinbase, `FillBlockPayments` and `FillDevfeePayment` build one.

Amounts are far below `2 ^ 63`, so no product overflows.
-/

namespace HootChain.Masternode

open Chain Consensus Evo Foundation Governance List Option Int Binary64 CSuperblockManager
  Primitives Script Validation

/-- An exception, or the end of the process. -/
inductive PaymentFailure where
  | runtimeError (what : String)
  | rpcError (what : String)
  | crash (crash : Crash)

/-! ## The masternode share (`validation.cpp`) -/

structure MasternodePayment where
  startHeight : Nat
  endHeight : Int
  percentage : ℚ

/-- `masternodePayments`; a percentage is the `double` nearest to the decimal. -/
def masternodePayments : List MasternodePayment :=
  [⟨601, 12000, fl 36.95⟩,
    ⟨12001, 43800, fl 64.75⟩,
    ⟨43801, 87000, fl 66.60⟩,
    ⟨87001, 130200, fl 68.45⟩,
    ⟨130201, 173400, fl 70.30⟩,
    ⟨173401, 216600, fl 72.15⟩,
    ⟨216601, 270000, fl 74⟩,
    ⟨270001, 273000, fl 85⟩,
    ⟨273001, intMax, fl 89.74⟩]

/-- The percentage at a height. -/
def masternodePercentage (nHeight : Nat) : ℚ :=
  match masternodePayments.find? fun payment =>
      decide (payment.startHeight ≤ nHeight ∧ (nHeight : Int) ≤ payment.endHeight) with
  | some payment => payment.percentage
  | none => 0

/-- `GetMasternodePayment`. The source also takes `fV20Active` and does not read it. -/
def getMasternodePayment (nHeight : Nat) (blockValue : CAmount) : CAmount :=
  if nHeight ≤ 600 then 0
  else
    trunc (div
      (mul (ofInt blockValue) (masternodePercentage nHeight)) 100)

def platformShare (reward : CAmount) : Except PaymentFailure CAmount :=
  let platformReward := (reward * 375).tdiv 1000
  if moneyRange platformReward then .ok platformReward else .error (.crash (.assertion "ok"))

/-! ## The masternode outputs -/

/-- The output that moves the platform's share to the credit pool. -/
def platformTxOut (platformReward : CAmount) : CTxOut :=
  { nValue := platformReward, scriptPubKey := [opReturn] }

/-- The outputs to the owner and the operator of the payee. -/
def payeeTxOuts (dmnPayee : CDeterministicMN) (masternodeReward : CAmount) : List CTxOut :=
  let operatorReward :=
    if dmnPayee.nOperatorReward ≠ 0 ∧ dmnPayee.pdmnState.scriptOperatorPayout ≠ [] then
      (masternodeReward * dmnPayee.nOperatorReward).tdiv 10000
    else 0
  let masternodeReward := masternodeReward - operatorReward
  (if masternodeReward > 0 then [⟨masternodeReward, dmnPayee.pdmnState.scriptPayout⟩] else []) ++
    (if operatorReward > 0 then [⟨operatorReward, dmnPayee.pdmnState.scriptOperatorPayout⟩] else [])

section Rules

variable (env : MnEnv) (mnList : CDeterministicMNList) (pindexPrev : Evo.CBlockIndex)
  (blockSubsidy feeReward : CAmount)

/-- The first half of `GetBlockTxOuts`: what is left for the masternode, and the platform's
output. -/
def reallocate : Except PaymentFailure (CAmount × List CTxOut) :=
  let masternodeReward := getMasternodePayment pindexPrev.length (blockSubsidy + feeReward)
  if env.mnRewardReallocation pindexPrev then
    (platformShare (getMasternodePayment pindexPrev.length blockSubsidy)).bind
      fun platformReward =>
        let masternodeReward := masternodeReward - platformReward
        if moneyRange masternodeReward then
          .ok (masternodeReward, [platformTxOut platformReward])
        else .error (.crash (.assertion "MoneyRange(masternodeReward)"))
  else .ok (masternodeReward, [])

/-- `GetBlockTxOuts`: what it returns, and the outputs. The platform's output is there even
if there is no payee. -/
def getBlockTxOuts : Except PaymentFailure (Bool × List CTxOut) :=
  (reallocate env pindexPrev blockSubsidy feeReward).map
    fun (masternodeReward, voutMasternodePayments) =>
      match mnList.getMNPayee env pindexPrev with
      | none => (false, voutMasternodePayments)
      | some dmnPayee => (true, voutMasternodePayments ++ payeeTxOuts dmnPayee masternodeReward)

/-- The loop of `IsTransactionValid` over the expected outputs. -/
def findExpected (vout : List CTxOut) : List CTxOut → Except PaymentFailure Bool
  | [] => .ok true
  | txout :: voutMasternodePayments =>
    if vout.any fun txout2 => txout == txout2 then findExpected vout voutMasternodePayments
    else
      match extractDestination txout.scriptPubKey with
      | none => .error (.crash (.assertion "false"))
      | some _ => .ok false

def isTransactionValid (vout : List CTxOut) : Except PaymentFailure Bool :=
  if pindexPrev.length < env.params.dip0003EnforcementHeight then .ok true
  else
    (getBlockTxOuts env mnList pindexPrev blockSubsidy feeReward).bind
      fun (found, voutMasternodePayments) =>
        if !found then .ok true else findExpected vout voutMasternodePayments

end Rules

/-! ## Checking a coinbase -/

/-- `GetValueOut`, which throws. -/
def valueOut (vout : List CTxOut) : Except PaymentFailure CAmount :=
  match getValueOut vout with
  | none => .error (.runtimeError "GetValueOut: value out of range")
  | some nValueOut => .ok nValueOut

section Checks

variable (params : Params) (node : NodeView) (superblocksEnabled fDisableGovernance : Bool)

section

variable (nBlockHeight : Nat)

/-- The text of a coinbase that pays too much. -/
def paysTooMuch (actual limit : CAmount) (reason : String) : String :=
  "coinbase pays too much at height " ++ Nat.repr nBlockHeight ++ " (actual=" ++ Int.repr actual ++
    " vs limit=" ++ Int.repr limit ++ "), exceeded " ++ reason

/-- `isBlockRewardValueMet`, or else `strErrorRet`. -/
def blockRewardValueMet (nValueOut blockReward : CAmount) (reason : String) : Except String Unit :=
  if nValueOut ≤ blockReward then .ok ()
  else .error (paysTooMuch nBlockHeight nValueOut blockReward ("block reward, " ++ reason))

/-- `IsOldBudgetBlockValueValid`, `nValueOut` being the value of the coinbase. -/
def isOldBudgetBlockValueValid (nValueOut blockReward : CAmount) : Except String Unit :=
  if nBlockHeight < params.nBudgetPaymentsStartBlock then
    .error ("Incorrect block " ++ Nat.repr nBlockHeight ++ ", old budgets are not activated yet")
  else if nBlockHeight ≥ params.nSuperblockStartBlock then
    .error ("Incorrect block " ++ Nat.repr nBlockHeight ++ ", old budgets are no longer active")
  else if nBlockHeight % params.nBudgetPaymentsCycleBlocks < params.nBudgetPaymentsWindowBlocks then
    if node.isSynced then
      blockRewardValueMet nBlockHeight nValueOut blockReward "old budgets are disabled"
    else .ok ()
  else
    blockRewardValueMet nBlockHeight nValueOut blockReward "block is not in old budget cycle window"

end

/-- `IsBlockValueValid`: success or `strErrorRet`, and the governance state it leaves. -/
def isBlockValueValid (governance : TriggerState) (vout : List CTxOut) (nBlockHeight : Nat)
    (blockReward : CAmount) : Except PaymentFailure (Except String Unit × TriggerState) :=
  (valueOut vout).bind fun nValueOut =>
    let rewardMet := blockRewardValueMet nBlockHeight nValueOut blockReward
    if nBlockHeight < params.nBudgetPaymentsStartBlock then
      .ok (rewardMet "old budgets are not activated yet", governance)
    else if nBlockHeight < params.nSuperblockStartBlock then
      .ok (isOldBudgetBlockValueValid params node nBlockHeight nValueOut blockReward, governance)
    else if !isValidBlockHeight params nBlockHeight then
      .ok (rewardMet "only regular blocks are allowed at this height", governance)
    else
      let nSuperblockMaxValue := blockReward + getPaymentsLimit params nBlockHeight
      if nValueOut > nSuperblockMaxValue then
        .ok (.error (paysTooMuch nBlockHeight nValueOut nSuperblockMaxValue
          "superblock max value"), governance)
      -- not enough data for the full checks
      else if !node.isSynced || fDisableGovernance then .ok (.ok (), governance)
      else if !superblocksEnabled then .ok (rewardMet "superblocks are disabled", governance)
      else
        let (triggered, governance) :=
          isSuperblockTriggered params node governance nBlockHeight
        if !triggered then
          .ok (rewardMet "no triggered superblock detected", governance)
        else
          match isValid params node governance vout nBlockHeight blockReward with
          | none => .error (.runtimeError "GetValueOut: value out of range")
          | some false =>
            .ok (.error ("invalid superblock detected at height " ++ Nat.repr nBlockHeight),
              governance)
          | some true => .ok (.ok (), governance)

/-- The second half of `IsBlockPayeeValid`, about the payments of superblocks. -/
def isSuperblockPayeeValid (governance : TriggerState) (vout : List CTxOut) (nBlockHeight : Nat)
    (blockReward : CAmount) : Except PaymentFailure (Bool × TriggerState) :=
  if !node.isSynced || fDisableGovernance then .ok (true, governance)
  else if nBlockHeight < params.nSuperblockStartBlock then .ok (true, governance)
  else if !superblocksEnabled then .ok (true, governance)
  else
    let (triggered, governance) :=
      isSuperblockTriggered params node governance nBlockHeight
    if !triggered then .ok (true, governance)
    else
      match isValid params node governance vout nBlockHeight blockReward with
      | none => .error (.runtimeError "GetValueOut: value out of range")
      | some valid => .ok (valid, governance)

/-- `IsBlockPayeeValid`, and the governance state it leaves. -/
def isBlockPayeeValid (env : MnEnv) (mnList : CDeterministicMNList) (pindexPrev : Evo.CBlockIndex)
    (governance : TriggerState) (vout : List CTxOut) (blockSubsidy feeReward : CAmount) :
    Except PaymentFailure (Bool × TriggerState) :=
  (isTransactionValid env mnList pindexPrev blockSubsidy feeReward vout).bind fun valid =>
    if !valid then .ok (false, governance)
    else isSuperblockPayeeValid params node superblocksEnabled fDisableGovernance governance vout
      pindexPrev.length (blockSubsidy + feeReward)

end Checks

/-! ## Building a coinbase -/

/-- `vout[0].nValue -= amount`. -/
def takeFromMiner (amount : CAmount) : List CTxOut → List CTxOut
  | [] => []
  | out :: vout => { out with nValue := out.nValue - amount } :: vout

/-- `FillBlockPayments`: the outputs, and the governance state it leaves. -/
def fillBlockPayments (params : Params) (node : NodeView) (superblocksEnabled : Bool)
    (env : MnEnv) (mnList : CDeterministicMNList) (pindexPrev : Evo.CBlockIndex)
    (governance : TriggerState) (vout : List CTxOut) (blockSubsidy feeReward : CAmount) :
    Except PaymentFailure (List CTxOut × TriggerState) :=
  let (voutSuperblockPayments, governance) :=
    if superblocksEnabled then
      let (triggered, governance) :=
        isSuperblockTriggered params node governance pindexPrev.length
      (if triggered then
          getSuperblockPayments params node governance pindexPrev.length
        else [], governance)
    else ([], governance)
  (getBlockTxOuts env mnList pindexPrev blockSubsidy feeReward).map
    fun (_, voutMasternodePayments) =>
      let vout := vout ++ voutMasternodePayments ++ voutSuperblockPayments
      (voutMasternodePayments.foldl (fun vout txout => takeFromMiner txout.nValue vout) vout,
        governance)

/-- The address in `nDevfeePayment` decodes to a destination of the network. -/
def devfeeAddressValid : Network → Bool
  | .main | .test | .devnet => true
  | .regtest => false

def fillDevfeePayment (network : Network) (vout : List CTxOut) (nBlockHeight : Nat)
    (blockSubsidy : CAmount) : Except PaymentFailure (List CTxOut) :=
  let devfee := nDevfeePayment network
  let devfeePayment := devfee.getDevfeePaymentAmount nBlockHeight blockSubsidy
  if devfeePayment = 0 then .ok vout
  else if !devfeeAddressValid network then
    .error (.rpcError "Invalid Hootchain Devfee Address: sZmtmzxjw7cfsy7SC5CmUHKREH2UYnYnuu")
  else .ok (takeFromMiner devfeePayment vout ++ [⟨devfeePayment, devfee.payee⟩])

/-! ## Nodes -/

/-- A node about to check or to build the block after `pindexPrev`, with the fees of that
block. The masternodes have the payouts that the checks of their transactions let
through. -/
structure NodeState where
  network : Network
  env : MnEnv
  params_eq : env.params = createChainParams network
  pindexPrev : Evo.CBlockIndex
  hasPrev : pindexPrev ≠ []
  mnList : CDeterministicMNList
  payouts : mnList.PayoutsAdmitted
  view : NodeView
  superblocksEnabled : Bool
  fDisableGovernance : Bool
  governance : TriggerState
  feeReward : CAmount
  fees : moneyRange feeReward = true

namespace NodeState

variable (node : NodeState)

/-- The parameters of the network. -/
def params : Params := createChainParams node.network

/-- The height of the next block. -/
def nBlockHeight : Nat := node.pindexPrev.length

/-- `GetBlockSubsidy` of the next block. -/
def blockSubsidy : CAmount := getBlockSubsidyInner node.params (node.nBlockHeight - 1)

/-- Subsidy and fees. -/
def blockReward : CAmount := node.blockSubsidy + node.feeReward

def dmnPayee : Option CDeterministicMN := node.mnList.getMNPayee node.env node.pindexPrev

def getBlockTxOuts : Except PaymentFailure (Bool × List CTxOut) :=
  Masternode.getBlockTxOuts node.env node.mnList node.pindexPrev node.blockSubsidy node.feeReward

def isTransactionValid (vout : List CTxOut) : Except PaymentFailure Bool :=
  Masternode.isTransactionValid node.env node.mnList node.pindexPrev node.blockSubsidy
    node.feeReward vout

/-- `IsBlockValueValid`, on a governance state that may have been refreshed before. -/
def isBlockValueValid (governance : TriggerState) (vout : List CTxOut) :
    Except PaymentFailure (Except String Unit × TriggerState) :=
  Masternode.isBlockValueValid node.params node.view node.superblocksEnabled
    node.fDisableGovernance governance vout node.nBlockHeight node.blockReward

/-- `IsBlockPayeeValid`, on a governance state that may have been refreshed before. -/
def isBlockPayeeValid (governance : TriggerState) (vout : List CTxOut) :
    Except PaymentFailure (Bool × TriggerState) :=
  Masternode.isBlockPayeeValid node.params node.view node.superblocksEnabled
    node.fDisableGovernance node.env node.mnList node.pindexPrev governance vout
    node.blockSubsidy node.feeReward

/-- The developer fee rule of `CheckBlock`. -/
def devfeePaid (vout : List CTxOut) : Bool :=
  Validation.devfeePaid node.params (nDevfeePayment node.network) node.nBlockHeight vout

/-- The coinbase of `CreateNewBlock` that pays the miner `scriptPubKeyIn`, and the
governance state it leaves. -/
def createCoinbase (scriptPubKeyIn : CScript) :
    Except PaymentFailure (List CTxOut × TriggerState) :=
  (fillBlockPayments node.params node.view node.superblocksEnabled node.env node.mnList
    node.pindexPrev node.governance [⟨node.blockReward, scriptPubKeyIn⟩] node.blockSubsidy
    node.feeReward).bind fun (vout, governance) =>
      (fillDevfeePayment node.network vout node.nBlockHeight node.blockSubsidy).map
        fun vout => (vout, governance)

end NodeState

/-! ## Bounds on the masternode share -/

lemma fl_percentage {q : ℚ} (hq : 0 ≤ q) (hle : q ≤ 89.75) : 0 ≤ fl q ∧ fl q ≤ 89.75 := by
  refine ⟨fl_nonneg hq, ?_⟩
  have hexact : fl 89.75 = 89.75 := fl_eq_self (m := 359) (e := -2) (by norm_num) (by norm_num)
  exact hexact ▸ fl_mono hq hle

lemma masternodePercentage_bounds (nHeight : Nat) :
    0 ≤ masternodePercentage nHeight ∧ masternodePercentage nHeight ≤ 89.75 := by
  unfold masternodePercentage
  split
  · next payment hfind =>
    have hmem := mem_of_find?_eq_some hfind
    simp only [masternodePayments, mem_cons, not_mem_nil, or_false] at hmem
    rcases hmem with rfl | rfl | rfl | rfl | rfl | rfl | rfl | rfl | rfl <;>
      exact fl_percentage (by norm_num) (by norm_num)
  · norm_num

lemma getMasternodePayment_nonneg (nHeight : Nat) {blockValue : CAmount}
    (hvalue : 0 ≤ blockValue) : 0 ≤ getMasternodePayment nHeight blockValue := by
  unfold getMasternodePayment
  split
  · exact le_rfl
  · apply trunc_nonneg
    apply fl_nonneg
    refine div_nonneg (fl_nonneg (mul_nonneg (fl_nonneg ?_) ?_)) (by norm_num)
    · exact_mod_cast hvalue
    · exact (masternodePercentage_bounds nHeight).1

/-- The masternode share grows with the value of the block. -/
lemma getMasternodePayment_mono {nHeight : Nat} {v w : CAmount} (hv : 0 ≤ v) (hvw : v ≤ w) :
    getMasternodePayment nHeight v ≤ getMasternodePayment nHeight w := by
  unfold getMasternodePayment
  split
  · exact le_rfl
  · have hpercent := (masternodePercentage_bounds nHeight).1
    have hvq : (0 : ℚ) ≤ v := by exact_mod_cast hv
    have hof : ofInt v ≤ ofInt w := fl_mono hvq (by exact_mod_cast hvw)
    have hofv : 0 ≤ ofInt v := fl_nonneg hvq
    have hmul : mul (ofInt v) (masternodePercentage nHeight) ≤
        mul (ofInt w) (masternodePercentage nHeight) :=
      fl_mono (mul_nonneg hofv hpercent) (mul_le_mul_of_nonneg_right hof hpercent)
    have hmulv : 0 ≤ mul (ofInt v) (masternodePercentage nHeight) :=
      fl_nonneg (mul_nonneg hofv hpercent)
    have hdivv := div_nonneg hmulv (by norm_num : (0 : ℚ) ≤ 100)
    exact trunc_mono (fl_nonneg hdivv)
      (fl_mono hdivv (div_le_div_of_nonneg_right hmul (by norm_num)))

/-- Rounding up adds at most a part in `2 ^ 53`. -/
lemma fl_le_mul {q : ℚ} (hq : 0 ≤ q) : fl q ≤ q * (1 + 1 / 2 ^ 53) := by
  have h := (abs_le.mp (abs_fl_sub_le q)).2
  rw [abs_of_nonneg hq] at h
  linarith

/-- The masternode share is at most nine tenths of the value of the block. -/
lemma getMasternodePayment_le (nHeight : Nat) {v : CAmount} (hv : 0 ≤ v) (hbig : v < 2 ^ 53) :
    10 * getMasternodePayment nHeight v ≤ 9 * v := by
  unfold getMasternodePayment
  split
  · linarith
  · obtain ⟨hpercent, hle⟩ := masternodePercentage_bounds nHeight
    generalize masternodePercentage nHeight = p at *
    have hvq : (0 : ℚ) ≤ v := by exact_mod_cast hv
    have hof : ofInt v = v := ofInt_eq (by rwa [abs_of_nonneg hv])
    rw [hof]
    -- two roundings, of the product and of the quotient
    have hprod : 0 ≤ (v : ℚ) * p := mul_nonneg hvq hpercent
    have hmul : mul v p ≤ v * p * (1 + 1 / 2 ^ 53) := fl_le_mul hprod
    have hmul0 : 0 ≤ mul v p := fl_nonneg hprod
    have hdiv0 : 0 ≤ mul v p / 100 := div_nonneg hmul0 (by norm_num)
    have hdiv : div (mul v p) 100 ≤ mul v p / 100 * (1 + 1 / 2 ^ 53) := fl_le_mul hdiv0
    have htrunc := trunc_le (fl_nonneg hdiv0)
    have hprod' : (v : ℚ) * p ≤ v * 89.75 := mul_le_mul_of_nonneg_left hle hvq
    have hbound : (10 * trunc (div (mul v p) 100) : ℚ) ≤ 9 * v := by
      unfold div at hdiv ⊢
      linarith
    exact_mod_cast hbound

/-! ## The assertions hold -/

lemma decayed_le (k n : Nat) : decayed k n ≤ n := by
  induction k with
  | zero => exact le_rfl
  | succ k ih =>
    rw [decayed_succ]
    omega

/-- The block part of the subsidy on the real networks. -/
lemma getBlockSubsidyInner_bounds (network : Network) (nPrevHeight : Nat) :
    0 ≤ getBlockSubsidyInner (createChainParams network) nPrevHeight ∧
      getBlockSubsidyInner (createChainParams network) nPrevHeight ≤ 30000 * coin := by
  have hpos : 0 < (createChainParams network).nSubsidyHalvingInterval := by
    cases network <;> decide
  have hlow : (createChainParams network).nHighSubsidyBlocks = 0 := by cases network <;> rfl
  have hregular : regularSubsidy (createChainParams network) nPrevHeight ≤ 3000000000000 := by
    refine (decayed_le _ _).trans ?_
    unfold baseSatoshis
    split_ifs <;> norm_num
  rw [getBlockSubsidyInner, getBlockSubsidyHelper_eq hpos hlow]
  dsimp only [coin, CAmount]
  split
  · rw [tdiv_eq_ediv_of_nonneg (by positivity)]
    omega
  · omega

section Amounts

variable {subsidy fees reward : CAmount}

lemma platformShare_eq (hreward : 0 ≤ reward) (hle : reward ≤ maxMoney) :
    platformShare reward = .ok (reward * 375 / 1000) := by
  unfold platformShare
  rw [tdiv_eq_ediv_of_nonneg (by positivity)]
  rw [if_pos]
  rw [moneyRange_iff]
  unfold maxMoney coin CAmount at *
  omega

/-- The outputs to owner and operator are worth the masternode's reward. -/
lemma sum_payeeTxOuts {dmnPayee : CDeterministicMN} (hpayee : dmnPayee.PayoutsAdmitted)
    (hreward : 0 ≤ reward) :
    ((payeeTxOuts dmnPayee reward).map CTxOut.nValue).sum = reward ∧
      ∀ out ∈ payeeTxOuts dmnPayee reward, 0 < out.nValue := by
  have hshare : (dmnPayee.nOperatorReward : Int) ≤ 10000 := by
    exact_mod_cast hpayee.operatorReward
  have hprod : reward * dmnPayee.nOperatorReward ≤ reward * 10000 :=
    mul_le_mul_of_nonneg_left hshare hreward
  have hprod0 : 0 ≤ reward * dmnPayee.nOperatorReward := mul_nonneg hreward (by positivity)
  unfold payeeTxOuts
  generalize hop : (if dmnPayee.nOperatorReward ≠ 0 ∧
    dmnPayee.pdmnState.scriptOperatorPayout ≠ [] then
      (reward * dmnPayee.nOperatorReward).tdiv 10000 else 0) = op
  have hbounds : 0 ≤ op ∧ op ≤ reward := by
    rw [← hop]
    split
    · rw [tdiv_eq_ediv_of_nonneg hprod0]
      unfold CAmount at *
      omega
    · exact ⟨le_rfl, hreward⟩
  dsimp only
  split_ifs with howner hoperator hoperator
  · simpa [hoperator] using sub_pos.mp howner
  · have hzero : op = 0 := le_antisymm (not_lt.mp hoperator) hbounds.1
    simpa [hzero] using howner
  · have heq : reward = op := le_antisymm (sub_nonpos.mp (not_lt.mp howner)) hbounds.2
    simpa [heq] using hoperator
  · have hzero : op = 0 := le_antisymm (not_lt.mp hoperator) hbounds.1
    have hreward0 : reward = 0 := by
      rw [hzero, sub_zero] at howner
      exact le_antisymm (not_lt.mp howner) hreward
    simp [hreward0]

end Amounts

namespace NodeState

variable (node : NodeState)

/-- What the platform gets of the next block. -/
def platformReward : CAmount :=
  getMasternodePayment node.nBlockHeight node.blockSubsidy * 375 / 1000

/-- The output to the platform, once rewards are reallocated. -/
def platformTxOuts : List CTxOut :=
  if node.env.mnRewardReallocation node.pindexPrev then [platformTxOut node.platformReward] else []

/-- What the payee of the next block gets. -/
def masternodeReward : CAmount :=
  getMasternodePayment node.nBlockHeight node.blockReward -
    (node.platformTxOuts.map CTxOut.nValue).sum

/-- The outputs of `GetBlockTxOuts`. -/
def masternodeTxOuts : List CTxOut :=
  node.platformTxOuts ++
    (node.dmnPayee.map fun dmnPayee => payeeTxOuts dmnPayee node.masternodeReward).getD []

lemma blockSubsidy_bounds : 0 ≤ node.blockSubsidy ∧ node.blockSubsidy ≤ 30000 * coin :=
  getBlockSubsidyInner_bounds node.network _

lemma feeReward_bounds : 0 ≤ node.feeReward ∧ node.feeReward ≤ maxMoney :=
  moneyRange_iff.mp node.fees

lemma blockReward_bounds : 0 ≤ node.blockReward ∧ node.blockReward < 2 ^ 53 := by
  have hsubsidy := node.blockSubsidy_bounds
  have hfees := node.feeReward_bounds
  unfold blockReward
  unfold maxMoney coin CAmount at *
  omega

lemma payment_bounds :
    0 ≤ getMasternodePayment node.nBlockHeight node.blockReward ∧
      10 * getMasternodePayment node.nBlockHeight node.blockReward ≤ 9 * node.blockReward :=
  ⟨getMasternodePayment_nonneg _ node.blockReward_bounds.1,
    getMasternodePayment_le _ node.blockReward_bounds.1 node.blockReward_bounds.2⟩

/-- The platform's share comes out of the masternode's. -/
lemma platformReward_bounds :
    0 ≤ node.platformReward ∧
      node.platformReward ≤ getMasternodePayment node.nBlockHeight node.blockReward := by
  have hsubsidy := node.blockSubsidy_bounds
  have hnonneg := getMasternodePayment_nonneg node.nBlockHeight hsubsidy.1
  have hmono : getMasternodePayment node.nBlockHeight node.blockSubsidy ≤
      getMasternodePayment node.nBlockHeight node.blockReward :=
    getMasternodePayment_mono hsubsidy.1 (by unfold blockReward; linarith [node.feeReward_bounds.1])
  unfold platformReward
  unfold CAmount at *
  omega

lemma sum_platformTxOuts :
    0 ≤ (node.platformTxOuts.map CTxOut.nValue).sum ∧
      (node.platformTxOuts.map CTxOut.nValue).sum ≤
        getMasternodePayment node.nBlockHeight node.blockReward := by
  have hplatform := node.platformReward_bounds
  unfold platformTxOuts
  split
  · simpa [platformTxOut] using hplatform
  · simpa using node.payment_bounds.1

lemma masternodeReward_nonneg : 0 ≤ node.masternodeReward :=
  sub_nonneg.mpr node.sum_platformTxOuts.2

lemma reallocate_eq :
    reallocate node.env node.pindexPrev node.blockSubsidy node.feeReward =
      .ok (node.masternodeReward, node.platformTxOuts) := by
  have hsubsidy := node.blockSubsidy_bounds
  have hpayment := node.payment_bounds
  have hnonneg := getMasternodePayment_nonneg node.nBlockHeight hsubsidy.1
  have hle := getMasternodePayment_le node.nBlockHeight hsubsidy.1 (hsubsidy.2.trans_lt (by decide))
  have hshare : platformShare (getMasternodePayment node.nBlockHeight node.blockSubsidy) =
      .ok node.platformReward := by
    apply platformShare_eq hnonneg
    unfold maxMoney coin CAmount at *
    omega
  have hrange : moneyRange (getMasternodePayment node.nBlockHeight node.blockReward -
      node.platformReward) = true := by
    have hplatform := node.platformReward_bounds
    have hfees := node.feeReward_bounds
    unfold blockReward at *
    rw [moneyRange_iff]
    unfold maxMoney coin CAmount at *
    omega
  unfold reallocate masternodeReward platformTxOuts
  unfold blockReward nBlockHeight at *
  split
  · simp [hshare, hrange, Except.bind, platformTxOut]
  · simp

/-- **The masternode outputs.** No assertion fails on the way. -/
theorem getBlockTxOuts_eq :
    node.getBlockTxOuts = .ok (node.dmnPayee.isSome, node.masternodeTxOuts) := by
  unfold getBlockTxOuts Masternode.getBlockTxOuts masternodeTxOuts dmnPayee
  rw [node.reallocate_eq]
  cases node.mnList.getMNPayee node.env node.pindexPrev <;> simp [Except.map]

lemma payoutsAdmitted_dmnPayee {dmnPayee : CDeterministicMN}
    (h : node.dmnPayee = some dmnPayee) : dmnPayee.PayoutsAdmitted :=
  node.payouts.getMNPayee h

/-- The masternode outputs are worth at most nine tenths of the block. -/
lemma sum_masternodeTxOuts :
    (∀ out ∈ node.masternodeTxOuts, 0 ≤ out.nValue) ∧
      10 * (node.masternodeTxOuts.map CTxOut.nValue).sum ≤ 9 * node.blockReward := by
  have hplatform : ∀ out ∈ node.platformTxOuts, 0 ≤ out.nValue := by
    intro out hout
    unfold platformTxOuts at hout
    split at hout
    · rw [mem_singleton.mp hout]
      exact node.platformReward_bounds.1
    · cases hout
  have hsum := node.sum_platformTxOuts
  have hpayment := node.payment_bounds
  unfold masternodeTxOuts
  cases hpayee : node.dmnPayee with
  | none =>
    simp only [map_none, getD_none, append_nil]
    exact ⟨hplatform, by linarith⟩
  | some dmnPayee =>
    obtain ⟨htotal, hpos⟩ := sum_payeeTxOuts (node.payoutsAdmitted_dmnPayee hpayee)
      node.masternodeReward_nonneg
    simp only [map_some, getD_some, map_append, sum_append, htotal]
    refine ⟨fun out hout => ?_, by rw [masternodeReward, add_sub_cancel]; exact hpayment.2⟩
    rcases mem_append.mp hout with hmem | hmem
    · exact hplatform out hmem
    · exact (hpos out hmem).le

end NodeState

/-! ## A synced node -/

/-- A chain without special transactions. -/
def plainEnv (network : Network) (reallocation : Bool) : MnEnv where
  params := createChainParams network
  mnRewardReallocation := fun _ => reallocation
  getCoin := fun _ _ => none
  llmqs := fun _ _ => none
  getAllQuorumMembers := fun _ _ => []
  sha256 := fun _ _ => 0

/-- A synced node with superblocks enabled, about to process the block at height `nHeight + 1`. -/
def plainNode (network : Network) (nHeight : Nat) (reallocation : Bool)
    (mnList : CDeterministicMNList) (payouts : mnList.PayoutsAdmitted) (view : NodeView)
    (governance : TriggerState) (feeReward : CAmount) (fees : moneyRange feeReward = true) :
    NodeState where
  network := network
  env := plainEnv network reallocation
  params_eq := rfl
  pindexPrev := replicate (nHeight + 1) ⟨0, .none, []⟩
  hasPrev := by simp
  mnList := mnList
  payouts := payouts
  view := view
  superblocksEnabled := true
  fDisableGovernance := false
  governance := governance
  feeReward := feeReward
  fees := fees

@[simp] lemma nBlockHeight_plainNode {network : Network} {nHeight : Nat} {reallocation : Bool}
    {mnList : CDeterministicMNList} {payouts : mnList.PayoutsAdmitted} {view : NodeView}
    {governance : TriggerState} {feeReward : CAmount} {fees : moneyRange feeReward = true} :
    (plainNode network nHeight reallocation mnList payouts view governance feeReward
      fees).nBlockHeight = nHeight + 1 :=
  length_replicate

/-- A view of a synced node in which every masternode has one vote. -/
def syncedView (validMNs : Nat) : NodeView where
  adjustedTime := 0
  time := 0
  isSynced := true
  getMNByCollateral := fun _ => some ⟨1, 1, 1, 1⟩
  validWeightedMNsCount := validMNs
  nGovernanceMinQuorum := 10
  hashString := fun _ => ""
  checkVotingKeySignature := fun _ _ => true
  checkOperatorSignature := fun _ _ => true

/-- No governance objects. -/
def noTriggers : TriggerState := { mapObjects := fun _ => none, mapTrigger := [] }

end HootChain.Masternode

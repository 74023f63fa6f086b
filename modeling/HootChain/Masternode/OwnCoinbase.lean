import HootChain.Masternode.PayeeChecks

/-!
# The Coinbase of a New Block (`masternode/payments.cpp`, `miner.cpp`)

`CreateNewBlock` fills in the payments of masternodes, superblocks and developers
and then runs the block through the node's own validation. The filling code takes
whatever the best trigger schedules, while the validation knows a limit.
-/

namespace HootChain.Masternode

open Consensus Evo Governance Primitives Validation CSuperblockManager NodeState List Option CTxOut

/-! ## What is filled in -/

/-- Taking amounts from the miner one after the other. -/
lemma foldl_takeFromMiner (out : CTxOut) (vout outs : List CTxOut) :
    outs.foldl (fun vout txout => takeFromMiner txout.nValue vout) (out :: vout) =
      ⟨out.nValue - (outs.map nValue).sum, out.scriptPubKey⟩ :: vout := by
  induction outs generalizing out with
  | nil => simp
  | cons txout outs ih =>
    rw [foldl_cons, takeFromMiner, ih]
    simp [sub_sub]

namespace NodeState

variable (node : NodeState)

/-- Superblocks are enabled, and one is triggered. -/
def superblockTriggered : Bool :=
  node.superblocksEnabled &&
    (CSuperblockManager.isSuperblockTriggered node.params node.view node.governance
      node.nBlockHeight).1

/-- The payments that are filled in. -/
def ownPayments : List CGovernancePayment :=
  if node.superblockTriggered then (node.bestSuperblock.map CSuperblock.vecPayments).getD [] else []

/-- The developer fee that is filled in. -/
def ownDevfee : CAmount :=
  (nDevfeePayment node.network).getDevfeePaymentAmount node.nBlockHeight node.blockSubsidy

/-- The output of the developer fee. -/
def devfeeTxOuts : List CTxOut :=
  if node.ownDevfee = 0 then [] else [⟨node.ownDevfee, (nDevfeePayment node.network).payee⟩]

/-- What is left to the miner. -/
def minerReward : CAmount :=
  node.blockReward - (node.masternodeTxOuts.map nValue).sum - node.ownDevfee

/-- The outputs of the coinbase. -/
def ownTxOuts (scriptPubKeyIn : CScript) : List CTxOut :=
  ⟨node.minerReward, scriptPubKeyIn⟩ ::
    (node.masternodeTxOuts ++ scheduledOutputs node.ownPayments ++ node.devfeeTxOuts)

lemma fillBlockPayments_eq (scriptPubKeyIn : CScript) :
    ∃ governance, SameFunding node.view node.governance governance ∧
      fillBlockPayments node.params node.view node.superblocksEnabled node.env node.mnList
        node.pindexPrev node.governance [⟨node.blockReward, scriptPubKeyIn⟩] node.blockSubsidy
        node.feeReward =
      .ok (⟨node.blockReward - (node.masternodeTxOuts.map nValue).sum, scriptPubKeyIn⟩ ::
        (node.masternodeTxOuts ++ scheduledOutputs node.ownPayments), governance) := by
  have houts := node.getBlockTxOuts_eq
  unfold getBlockTxOuts at houts
  have hsame := sameFunding_isSuperblockTriggered node.params node.view node.governance
    node.nBlockHeight
  have hpayments : getSuperblockPayments node.params node.view
      (isSuperblockTriggered node.params node.view node.governance
        node.nBlockHeight).2 node.nBlockHeight =
      scheduledOutputs ((node.bestSuperblock.map CSuperblock.vecPayments).getD []) := by
    unfold getSuperblockPayments bestSuperblock
    rw [hsame.getBestSuperblock]
    cases getBestSuperblock node.params node.view node.governance node.nBlockHeight <;> rfl
  unfold fillBlockPayments ownPayments superblockTriggered
  unfold nBlockHeight at *
  rw [houts]
  generalize isSuperblockTriggered node.params node.view node.governance
    (length node.pindexPrev) = result at *
  obtain ⟨triggered, governance⟩ := result
  cases node.superblocksEnabled with
  | false =>
    refine ⟨node.governance, .refl _ _, ?_⟩
    simp [Except.map, foldl_takeFromMiner, scheduledOutputs]
  | true =>
    refine ⟨governance, hsame, ?_⟩
    cases triggered with
    | false => simp [Except.map, foldl_takeFromMiner, scheduledOutputs]
    | true => simp [Except.map, foldl_takeFromMiner, hpayments]

/-- The address is only looked at when there is something to pay. -/
def DevfeePayable : Prop := node.ownDevfee = 0 ∨ devfeeAddressValid node.network = true

lemma fillDevfeePayment_eq (out : CTxOut) (vout : List CTxOut) :
    fillDevfeePayment node.network (out :: vout) node.nBlockHeight node.blockSubsidy =
      if node.ownDevfee = 0 then .ok (out :: vout)
      else if !devfeeAddressValid node.network then
        .error (.rpcError "Invalid Hootchain Devfee Address: sZmtmzxjw7cfsy7SC5CmUHKREH2UYnYnuu")
      else .ok (⟨out.nValue - node.ownDevfee, out.scriptPubKey⟩ ::
        (vout ++ [⟨node.ownDevfee, (nDevfeePayment node.network).payee⟩])) := rfl

/-- The coinbase is built if the developer address is valid. -/
lemma createCoinbase_eq (h : node.DevfeePayable) (scriptPubKeyIn : CScript) :
    ∃ governance, SameFunding node.view node.governance governance ∧
      node.createCoinbase scriptPubKeyIn = .ok (node.ownTxOuts scriptPubKeyIn, governance) := by
  obtain ⟨governance, hsame, hfill⟩ := node.fillBlockPayments_eq scriptPubKeyIn
  refine ⟨governance, hsame, ?_⟩
  unfold createCoinbase ownTxOuts minerReward devfeeTxOuts
  simp only [hfill, Except.bind, fillDevfeePayment_eq]
  by_cases hzero : node.ownDevfee = 0
  · simp [hzero, Except.map]
  · simp [hzero, h.resolve_left hzero, Except.map]

variable {scriptPubKeyIn : CScript} {nBlockHeight : Nat} {nValueOut blockReward : CAmount}
  {params : Params}

lemma devfeePayable_of_createCoinbase {result : List CTxOut × TriggerState}
    (h : node.createCoinbase scriptPubKeyIn = .ok result) : node.DevfeePayable := by
  by_contra hnot
  obtain ⟨hamount, hinvalid⟩ := not_or.mp hnot
  obtain ⟨governance, -, hfill⟩ := node.fillBlockPayments_eq scriptPubKeyIn
  unfold createCoinbase at h
  simp [hfill, Except.bind, fillDevfeePayment_eq, hamount, hinvalid, Except.map] at h

/-! ## What it is worth -/

/-- The fee is two thirty-ninths of the subsidy, if it is due at all. -/
lemma getDevfeePaymentAmount_eq (network : Network) (blockHeight : Nat) {blockSubsidy : CAmount}
    (hsubsidy : 0 ≤ blockSubsidy) (hbig : blockSubsidy < 2 ^ 52) :
    (nDevfeePayment network).getDevfeePaymentAmount blockHeight blockSubsidy =
      if blockHeight ≤ (nDevfeePayment network).startBlock then 0 else 2 * blockSubsidy / 39 := by
  obtain ⟨n, rfl⟩ := Int.eq_ofNat_of_zero_le hsubsidy
  split
  · next hstart => rw [DevfeePayment.getDevfeePaymentAmount, if_pos hstart]
  · next hstart =>
    have hdevfee : nDevfeePayment network = ⟨(nDevfeePayment network).payee,
        (nDevfeePayment network).startBlock, [⟨intMax, 19.5⟩]⟩ := by
      cases network <;> rfl
    rw [hdevfee]
    exact getDevfeePaymentAmount_standard (not_le.mp hstart) (by exact_mod_cast hbig)

lemma ownDevfee_bounds : 0 ≤ node.ownDevfee ∧ 39 * node.ownDevfee ≤ 2 * node.blockSubsidy := by
  have hsubsidy := node.blockSubsidy_bounds
  unfold ownDevfee
  rw [getDevfeePaymentAmount_eq _ _ hsubsidy.1 (hsubsidy.2.trans_lt (by decide))]
  unfold CAmount at *
  split <;> omega

/-- Masternodes and developers leave something to the miner. -/
lemma minerReward_nonneg : 0 ≤ node.minerReward := by
  have hmasternode := node.sum_masternodeTxOuts.2
  have hdevfee := node.ownDevfee_bounds
  have hfees := node.feeReward_bounds
  unfold minerReward
  unfold blockReward at *
  linarith

lemma foldl_add_nAmount (payments : List CGovernancePayment) (total : CAmount) :
    payments.foldl (fun total payment => total + payment.nAmount) total =
      total + ((scheduledOutputs payments).map nValue).sum := by
  induction payments generalizing total with
  | nil => simp [scheduledOutputs]
  | cons payment payments ih =>
    rw [foldl_cons, ih]
    simp [scheduledOutputs, CGovernancePayment.txOut, add_assoc]

lemma sum_scheduledOutputs (payments : List CGovernancePayment) :
    ((scheduledOutputs payments).map nValue).sum = getPaymentsTotalAmount payments := by
  rw [getPaymentsTotalAmount, foldl_add_nAmount, zero_add]

/-- The payments of a trigger are in the range of money. -/
lemma nAmount_nonneg {payment : CGovernancePayment} (h : payment ∈ node.ownPayments) :
    0 ≤ payment.nAmount := by
  unfold ownPayments at h
  split at h
  · cases hbest : node.bestSuperblock with
    | none => simp [hbest] at h
    | some trigger =>
      rw [hbest] at h
      exact (moneyRange_iff.mp (trigger.amounts payment h)).1
  · cases h

lemma ownTxOuts_nonneg {out : CTxOut} (h : out ∈ node.ownTxOuts scriptPubKeyIn) :
    0 ≤ out.nValue := by
  simp only [ownTxOuts, mem_cons, mem_append] at h
  rcases h with rfl | (hmasternode | hpayment) | hdevfee
  · exact node.minerReward_nonneg
  · exact node.sum_masternodeTxOuts.1 out hmasternode
  · obtain ⟨payment, hmem, rfl⟩ := mem_map.mp hpayment
    exact node.nAmount_nonneg hmem
  · unfold devfeeTxOuts at hdevfee
    split at hdevfee
    · cases hdevfee
    · rw [mem_singleton.mp hdevfee]
      exact node.ownDevfee_bounds.1

section

variable (scriptPubKeyIn : CScript)

lemma sum_ownTxOuts :
    ((node.ownTxOuts scriptPubKeyIn).map nValue).sum =
      node.blockReward + getPaymentsTotalAmount node.ownPayments := by
  have hdevfee : (node.devfeeTxOuts.map nValue).sum = node.ownDevfee := by
    unfold devfeeTxOuts
    split
    · next hzero => simp [hzero]
    · simp
  simp only [ownTxOuts, map_cons, sum_cons, map_append, sum_append, hdevfee,
    sum_scheduledOutputs, minerReward]
  ring

/-- The value of the coinbase is the reward and the payments, if that is not more than all
money. -/
lemma getValueOut_ownTxOuts (v : CAmount) :
    getValueOut (node.ownTxOuts scriptPubKeyIn) = some v ↔
      v = node.blockReward + getPaymentsTotalAmount node.ownPayments ∧ v ≤ maxMoney := by
  rw [getValueOut_eq_some_iff, sum_ownTxOuts, @eq_comm _ _ v, and_iff_right_iff_imp]
  rintro ⟨rfl, hle⟩ out hout
  refine moneyRange_iff.mpr ⟨node.ownTxOuts_nonneg hout, ?_⟩
  -- no output is worth more than the sum
  rw [← node.sum_ownTxOuts scriptPubKeyIn] at hle
  refine le_trans (single_le_sum ?_ _ (mem_map_of_mem hout)) hle
  intro x hx
  obtain ⟨out', hmem, rfl⟩ := mem_map.mp hx
  exact node.ownTxOuts_nonneg hmem

/-! ## The developer fee -/

/-- The fee is filled in with the height of the block and checked with the height before. -/
lemma devfeePaid_ownTxOuts : node.devfeePaid (node.ownTxOuts scriptPubKeyIn) = true := by
  have hsubsidy := node.blockSubsidy_bounds
  have hbig := hsubsidy.2.trans_lt (by decide : 30000 * coin < 2 ^ 52)
  unfold devfeePaid
  rw [devfeePaid_iff]
  intro amount hdue
  unfold devfeeDue at hdue
  rw [mem_def, ite_none_right_eq_some] at hdue
  obtain ⟨⟨-, hnonzero⟩, hamount⟩ := hdue
  change (nDevfeePayment node.network).getDevfeePaymentAmount (node.nBlockHeight - 1)
    node.blockSubsidy ≠ 0 at hnonzero
  -- due with the height before, so due with the height of the block
  have hstart : ¬ node.nBlockHeight - 1 ≤ (nDevfeePayment node.network).startBlock := by
    intro hle
    apply hnonzero
    rw [getDevfeePaymentAmount_eq _ _ hsubsidy.1 hbig, if_pos hle]
  have heq : (nDevfeePayment node.network).getDevfeePaymentAmount (node.nBlockHeight - 1)
      node.blockSubsidy = node.ownDevfee := by
    rw [ownDevfee, getDevfeePaymentAmount_eq _ _ hsubsidy.1 hbig,
      getDevfeePaymentAmount_eq _ _ hsubsidy.1 hbig, if_neg hstart,
      if_neg (fun hle => hstart ((Nat.sub_le _ _).trans hle))]
  rw [heq] at hnonzero
  refine ⟨⟨node.ownDevfee, (nDevfeePayment node.network).payee⟩, ?_, rfl, ?_⟩
  · simp [ownTxOuts, devfeeTxOuts, hnonzero]
  · exact ((some.inj hamount).symm.trans heq).le

end

/-! ## The value check of a synced node -/

lemma blockRewardValueMet_eq_ok {reason : String} :
    blockRewardValueMet nBlockHeight nValueOut blockReward reason = .ok () ↔
      nValueOut ≤ blockReward := by
  unfold blockRewardValueMet
  split <;> simp [*]

/-- The coinbase makes the payments of the best trigger. -/
def PaysSuperblock (vout : List CTxOut) : Prop :=
  ∃ trigger, node.bestSuperblock = some trigger ∧
    Governance.isValid node.params trigger.vecPayments vout node.nBlockHeight
      node.blockReward = some true

/-- What a synced node accepts: the block reward, and at the height of a superblock the
payments that were voted for, or without governance data anything within the limit. -/
def ValueFits (vout : List CTxOut) (nValueOut : CAmount) : Prop :=
  if isValidBlockHeight node.params node.nBlockHeight then
    nValueOut ≤ node.blockReward + getPaymentsLimit node.params node.nBlockHeight ∧
      (node.fDisableGovernance = false →
        if node.superblockTriggered then node.PaysSuperblock vout
        else nValueOut ≤ node.blockReward)
  else nValueOut ≤ node.blockReward

lemma nBudgetPaymentsStartBlock_le (network : Network) :
    (createChainParams network).nBudgetPaymentsStartBlock ≤
      (createChainParams network).nSuperblockStartBlock := by
  cases network <;> decide

lemma isValidBlockHeight_of_lt (h : nBlockHeight < params.nSuperblockStartBlock) :
    isValidBlockHeight params nBlockHeight = false := by
  simp [isValidBlockHeight, h]

/-- Below the first superblock a synced node goes by the block reward. -/
lemma isOldBudgetBlockValueValid_eq_ok {view : NodeView} (hsync : view.isSynced = true)
    (hlo : ¬ nBlockHeight < params.nBudgetPaymentsStartBlock)
    (hhi : nBlockHeight < params.nSuperblockStartBlock) :
    isOldBudgetBlockValueValid params view nBlockHeight nValueOut blockReward = .ok () ↔
      nValueOut ≤ blockReward := by
  unfold isOldBudgetBlockValueValid
  rw [if_neg hlo, if_neg hhi.not_ge]
  split <;> exact blockRewardValueMet_eq_ok

section Value

variable {node} {governance governance' : TriggerState}

/-- What a synced node accepts as the value of a coinbase. -/
lemma isBlockValueValid_iff (hsync : node.view.isSynced = true)
    (h : SameFunding node.view node.governance governance) (vout : List CTxOut) :
    (∃ governance', node.isBlockValueValid governance vout = .ok (.ok (), governance')) ↔
      ∃ nValueOut, getValueOut vout = some nValueOut ∧ node.ValueFits vout nValueOut := by
  have htriggered := h.isSuperblockTriggered node.params node.nBlockHeight
  have hvalid := isValid_of_sameFunding
    (h.trans (sameFunding_isSuperblockTriggered node.params _ _ node.nBlockHeight)) vout
    node.blockReward
  unfold isBlockValueValid Masternode.isBlockValueValid valueOut
  cases getValueOut vout with
  | none => simp [Except.bind]
  | some v =>
    simp only [Except.bind, some.injEq, exists_eq_left', ValueFits]
    -- the phases: before the budget, the old budget, and superblocks
    by_cases hbudget : node.nBlockHeight < node.params.nBudgetPaymentsStartBlock
    · have hstart := hbudget.trans_le (nBudgetPaymentsStartBlock_le node.network)
      have hheight : isValidBlockHeight node.params node.nBlockHeight = false :=
        isValidBlockHeight_of_lt hstart
      simp [hbudget, hheight, blockRewardValueMet_eq_ok]
    by_cases hstart : node.nBlockHeight < node.params.nSuperblockStartBlock
    · have hheight := isValidBlockHeight_of_lt hstart
      simp [hbudget, hstart, hheight, isOldBudgetBlockValueValid_eq_ok hsync hbudget hstart]
    cases hheight : isValidBlockHeight node.params node.nBlockHeight with
    | false => simp [hbudget, hstart, blockRewardValueMet_eq_ok]
    | true =>
      by_cases hmax : v > node.blockReward + getPaymentsLimit node.params node.nBlockHeight
      · simp [hbudget, hstart, hmax, hmax.not_ge]
      simp only [hbudget, hstart, hmax, not_lt.mp hmax, hsync, if_false, Bool.not_true,
        Bool.false_or, Bool.false_eq_true, if_true, true_and, superblockTriggered, ← htriggered,
        PaysSuperblock, ← hvalid]
      cases node.fDisableGovernance with
      | true => simp
      | false =>
        cases node.superblocksEnabled with
        | false => simp [blockRewardValueMet_eq_ok]
        | true =>
          generalize isSuperblockTriggered node.params node.view governance
            node.nBlockHeight = result at *
          obtain ⟨triggered, refreshed⟩ := result
          cases triggered with
          | false => simp [blockRewardValueMet_eq_ok]
          | true =>
            cases isValid node.params node.view refreshed vout
                node.nBlockHeight node.blockReward with
            | none => simp
            | some valid => cases valid <;> simp

/-- The value check only refreshes flags. -/
lemma sameFunding_isBlockValueValid {vout : List CTxOut} {result : Except String Unit}
    (hrun : node.isBlockValueValid governance vout = .ok (result, governance')) :
    SameFunding node.view governance governance' := by
  have hsame := sameFunding_isSuperblockTriggered node.params node.view governance node.nBlockHeight
  have hrefl := SameFunding.refl node.view governance
  unfold isBlockValueValid Masternode.isBlockValueValid at hrun
  cases hvalue : valueOut vout with
  | error e => simp [hvalue, Except.bind] at hrun
  | ok v =>
    simp only [hvalue, Except.bind] at hrun
    split_ifs at hrun
    all_goals try (cases hrun; first | exact hrefl | exact hsame)
    split at hrun
    · cases hrun
    · cases hrun
      exact hsame
    · cases hrun
      exact hsame

end Value

/-! ## The payments of its own superblock -/

/-- The own coinbase makes the payments of the best trigger if they are within the limit. -/
lemma paysSuperblock_ownTxOuts (scriptPubKeyIn : CScript)
    (htriggered : node.superblockTriggered = true)
    (hmoney : node.blockReward + getPaymentsTotalAmount node.ownPayments ≤ maxMoney) :
    node.PaysSuperblock (node.ownTxOuts scriptPubKeyIn) ↔
      ∃ trigger, node.bestSuperblock = some trigger ∧
        getPaymentsTotalAmount trigger.vecPayments ≤
          getPaymentsLimit node.params node.nBlockHeight := by
  refine exists_congr fun trigger => and_congr_right fun hbest => ?_
  have hpayments : node.ownPayments = trigger.vecPayments := by
    simp [ownPayments, htriggered, hbest]
  have hheight := isValidBlockHeight_of_triggered (Bool.and_eq_true_iff.mp htriggered).2
  have hvalue := (node.getValueOut_ownTxOuts scriptPubKeyIn _).mpr ⟨rfl, hmoney⟩
  rw [hpayments] at hvalue
  rw [isValid_eq_true_iff]
  refine ⟨fun hvalid => hvalid.2.2.1, fun hlimit => ⟨hheight, ?_, hlimit, _, hvalue, le_rfl, ?_⟩⟩
  · simp only [ownTxOuts, hpayments, scheduledOutputs, length_cons, length_append, length_map]
    omega
  · -- the payments stand in the coinbase one after the other
    rw [matchPayments_iff]
    refine (destutter_sublist _ _).trans ?_
    rw [ownTxOuts, hpayments]
    exact ((sublist_append_right _ _).trans (sublist_append_left _ _)).cons _

end NodeState

/-! ## A synced node and its own coinbase -/

structure SyncedNode extends NodeState where
  synced : view.isSynced = true

namespace SyncedNode

variable (node : SyncedNode)

section

variable (scriptPubKeyIn : CScript)

/-- The coinbase is built, and the developer fee rule, `IsBlockValueValid` and
`IsBlockPayeeValid` let it pass. -/
def AcceptsOwnCoinbase : Prop :=
  ∃ vout governance governance' governance'',
    node.createCoinbase scriptPubKeyIn = .ok (vout, governance) ∧
    node.devfeePaid vout = true ∧
    node.isBlockValueValid governance vout = .ok (.ok (), governance') ∧
    node.isBlockPayeeValid governance' vout = .ok (true, governance'')

/-- The developer address is valid where a fee is due, the coinbase is not worth more than
all money, and the payments of a triggered superblock are within the limit; where the
node has governance data there also is a best trigger. -/
structure OwnPaymentsFit : Prop where
  devfee : node.DevfeePayable
  money : node.blockReward + getPaymentsTotalAmount node.ownPayments ≤ maxMoney
  limit : node.superblockTriggered = true →
    getPaymentsTotalAmount node.ownPayments ≤ getPaymentsLimit node.params node.nBlockHeight
  best : node.superblockTriggered = true → node.fDisableGovernance = false →
    node.bestSuperblock.isSome = true

lemma superblockDue_eq :
    node.superblockDue = (!node.fDisableGovernance && node.superblockTriggered) := by
  have hstart : ∀ triggered, triggered = (isSuperblockTriggered node.params
      node.view node.governance node.nBlockHeight).1 → triggered = true →
      node.params.nSuperblockStartBlock ≤ node.nBlockHeight := by
    rintro triggered rfl h
    have hheight := isValidBlockHeight_of_triggered h
    simp only [isValidBlockHeight, Bool.and_eq_true, decide_eq_true_eq] at hheight
    exact hheight.1
  unfold superblockDue superblockTriggered
  rw [node.synced]
  generalize (isSuperblockTriggered node.params node.view node.governance
    node.nBlockHeight).1 = triggered at *
  cases triggered with
  | false => simp
  | true => simp [hstart true rfl rfl]

/-- The best trigger is the one whose payments are filled in. -/
lemma exists_best_iff (htriggered : node.superblockTriggered = true) :
    (∃ trigger, node.bestSuperblock = some trigger ∧
        getPaymentsTotalAmount trigger.vecPayments ≤
          getPaymentsLimit node.params node.nBlockHeight) ↔
      node.bestSuperblock.isSome = true ∧
        getPaymentsTotalAmount node.ownPayments ≤
          getPaymentsLimit node.params node.nBlockHeight := by
  unfold ownPayments
  rw [if_pos htriggered]
  cases node.bestSuperblock <;> simp

lemma ownPayments_of_not_triggered (h : node.superblockTriggered = false) :
    getPaymentsTotalAmount node.ownPayments = 0 := by
  simp [ownPayments, h, getPaymentsTotalAmount]

lemma getPaymentsLimit_nonneg (network : Network) (nBlockHeight : Nat) :
    0 ≤ getPaymentsLimit (createChainParams network) nBlockHeight := by
  have hpos : 0 < (createChainParams network).nSubsidyHalvingInterval := by
    cases network <;> decide
  have hlow : (createChainParams network).nHighSubsidyBlocks = 0 := by cases network <;> rfl
  unfold getPaymentsLimit
  split
  · exact le_rfl
  · rw [getSuperblockSubsidyInner, getBlockSubsidyHelper_eq hpos hlow]
    dsimp only
    refine mul_nonneg ?_ (by positivity)
    split
    · exact Int.tdiv_nonneg (by positivity) (by norm_num)
    · exact le_rfl

/-- The value check, for the own coinbase. -/
lemma valueFits_ownTxOuts
    (hmoney : node.blockReward + getPaymentsTotalAmount node.ownPayments ≤ maxMoney) :
    node.ValueFits (node.ownTxOuts scriptPubKeyIn)
        (node.blockReward + getPaymentsTotalAmount node.ownPayments) ↔
      (node.superblockTriggered = true →
        getPaymentsTotalAmount node.ownPayments ≤
          getPaymentsLimit node.params node.nBlockHeight) ∧
      (node.superblockTriggered = true → node.fDisableGovernance = false →
        node.bestSuperblock.isSome = true) := by
  unfold ValueFits
  cases htriggered : node.superblockTriggered with
  | false =>
    have hlimit : 0 ≤ getPaymentsLimit node.params node.nBlockHeight :=
      getPaymentsLimit_nonneg node.network _
    rw [node.ownPayments_of_not_triggered htriggered]
    simp [hlimit]
  | true =>
    have hheight := isValidBlockHeight_of_triggered (Bool.and_eq_true_iff.mp htriggered).2
    rw [if_pos hheight, node.paysSuperblock_ownTxOuts scriptPubKeyIn htriggered hmoney,
      node.exists_best_iff htriggered]
    simp only [add_le_add_iff_left, true_implies]
    exact ⟨fun h => ⟨h.1, fun hd => (h.2 hd).1⟩, fun h => ⟨h.1, fun hd => ⟨h.2 hd, h.1⟩⟩⟩

/-- Its own coinbase has the outputs that the node expects. -/
lemma expectedTxOuts_subset :
    ∀ txout ∈ node.expectedTxOuts, txout ∈ node.ownTxOuts scriptPubKeyIn := by
  intro txout hmem
  unfold expectedTxOuts at hmem
  split at hmem
  · simp [ownTxOuts, hmem]
  · cases hmem

/-- `IsBlockValueValid` and `IsBlockPayeeValid` let the own outputs pass, whichever flags have
been refreshed in the meantime. -/
lemma passes_ownTxOuts (hfit : node.OwnPaymentsFit) {governance : TriggerState}
    (hsame : SameFunding node.view node.governance governance) (scriptPubKeyIn : CScript) :
    ∃ governance' governance'',
      node.isBlockValueValid governance (node.ownTxOuts scriptPubKeyIn) =
        .ok (.ok (), governance') ∧
      node.isBlockPayeeValid governance' (node.ownTxOuts scriptPubKeyIn) =
        .ok (true, governance'') := by
  obtain ⟨governance', hvalue⟩ := (isBlockValueValid_iff node.synced hsame _).mpr
    ⟨_, (node.getValueOut_ownTxOuts scriptPubKeyIn _).mpr ⟨rfl, hfit.money⟩,
      (node.valueFits_ownTxOuts scriptPubKeyIn hfit.money).mpr ⟨hfit.limit, hfit.best⟩⟩
  have hsame' := hsame.trans (sameFunding_isBlockValueValid hvalue)
  -- the superblock that is due is the one that was filled in
  have hpays : node.superblockDue = true →
      node.PaysSuperblock (node.ownTxOuts scriptPubKeyIn) := by
    rw [node.superblockDue_eq, Bool.and_eq_true, Bool.not_eq_true']
    rintro ⟨henabled, htriggered⟩
    exact (node.paysSuperblock_ownTxOuts scriptPubKeyIn htriggered hfit.money).mpr <|
      (node.exists_best_iff htriggered).mpr ⟨hfit.best htriggered henabled, hfit.limit htriggered⟩
  obtain ⟨governance'', hpayee⟩ := (isBlockPayeeValid_iff hsame' _).mpr
    ⟨node.expectedTxOuts_subset scriptPubKeyIn, hpays⟩
  exact ⟨governance', governance'', hvalue, hpayee⟩

lemma acceptsOwnCoinbase_iff : node.AcceptsOwnCoinbase scriptPubKeyIn ↔ node.OwnPaymentsFit := by
  constructor
  · rintro ⟨vout, governance, governance', -, hcreate, -, hvalue, -⟩
    have hdevfee := node.devfeePayable_of_createCoinbase hcreate
    obtain ⟨governance₁, hsame, heq⟩ := node.createCoinbase_eq hdevfee scriptPubKeyIn
    cases hcreate.symm.trans heq
    obtain ⟨v, hv, hfits⟩ := (isBlockValueValid_iff node.synced hsame _).mp ⟨governance', hvalue⟩
    obtain ⟨rfl, hmoney⟩ := (node.getValueOut_ownTxOuts scriptPubKeyIn v).mp hv
    obtain ⟨hlimit, hbest⟩ := (node.valueFits_ownTxOuts scriptPubKeyIn hmoney).mp hfits
    exact ⟨hdevfee, hmoney, hlimit, hbest⟩
  · intro hfit
    obtain ⟨governance, hsame, hcreate⟩ := node.createCoinbase_eq hfit.devfee scriptPubKeyIn
    obtain ⟨governance', governance'', hvalue, hpayee⟩ :=
      node.passes_ownTxOuts hfit hsame scriptPubKeyIn
    exact ⟨_, governance, governance', governance'', hcreate,
      node.devfeePaid_ownTxOuts scriptPubKeyIn, hvalue, hpayee⟩

end

/-- A superblock above the limit is filled in all the same. -/
lemma rejects_own_over_limit (hdevfee : node.DevfeePayable)
    (htriggered : node.superblockTriggered = true)
    (hover : getPaymentsLimit node.params node.nBlockHeight <
      getPaymentsTotalAmount node.ownPayments) (scriptPubKeyIn : CScript) :
    ∃ vout governance, node.createCoinbase scriptPubKeyIn = .ok (vout, governance) ∧
      ¬ ∃ governance', node.isBlockValueValid governance vout = .ok (.ok (), governance') := by
  obtain ⟨governance, hsame, hcreate⟩ := node.createCoinbase_eq hdevfee scriptPubKeyIn
  refine ⟨_, governance, hcreate, fun hvalue => ?_⟩
  rw [isBlockValueValid_iff node.synced hsame] at hvalue
  obtain ⟨v, hv, hfits⟩ := hvalue
  obtain ⟨rfl, hmoney⟩ := (node.getValueOut_ownTxOuts scriptPubKeyIn v).mp hv
  obtain ⟨hlimit, -⟩ := (node.valueFits_ownTxOuts scriptPubKeyIn hmoney).mp hfits
  exact absurd (hlimit htriggered) (not_le.mpr hover)

end SyncedNode

/-- **A node accepts its own coinbase.** For every state of a synced node, the coinbase of
`CreateNewBlock` is built and passes the developer fee rule, `IsBlockValueValid` and
`IsBlockPayeeValid` if and only if the developer address is valid where a fee is due, the
coinbase is not worth more than all money, the payments of a triggered superblock are
within the limit, and there is a best trigger where the node checks for one. -/
theorem ownCoinbase_accepted_iff (node : SyncedNode) (scriptPubKeyIn : CScript) :
    (∃ vout governance governance' governance'',
      node.createCoinbase scriptPubKeyIn = .ok (vout, governance) ∧
      node.devfeePaid vout = true ∧
      node.isBlockValueValid governance vout = .ok (.ok (), governance') ∧
      node.isBlockPayeeValid governance' vout = .ok (true, governance'')) ↔
      (node.ownDevfee = 0 ∨ devfeeAddressValid node.network = true) ∧
      node.blockReward + getPaymentsTotalAmount node.ownPayments ≤ maxMoney ∧
      (node.superblockTriggered = true →
        getPaymentsTotalAmount node.ownPayments ≤
            getPaymentsLimit node.params node.nBlockHeight ∧
          (node.fDisableGovernance = false → node.bestSuperblock.isSome = true)) := by
  refine (node.acceptsOwnCoinbase_iff scriptPubKeyIn).trans ?_
  constructor
  · rintro ⟨hdevfee, hmoney, hlimit, hbest⟩
    exact ⟨hdevfee, hmoney, fun htriggered => ⟨hlimit htriggered, hbest htriggered⟩⟩
  · rintro ⟨hdevfee, hmoney, hsuperblock⟩
    exact ⟨hdevfee, hmoney, fun htriggered => (hsuperblock htriggered).1,
      fun htriggered => (hsuperblock htriggered).2⟩

/-- A masternode that votes. -/
def votingMN (i : Nat) : CDeterministicMN where
  internalId := i
  proTxHash := i + 1
  collateralOutpoint := ⟨i + 1, 0⟩
  nOperatorReward := 0
  nType := .regular
  pdmnState := { keyIDOwner := i + 1, nRegisteredHeight := 1000, scriptPayout := somePayout }

/-- The list of `n` of them. -/
def votingList : Nat → CDeterministicMNList
  | 0 => .initial 0 0
  | n + 1 => ((votingList n).addMN (votingMN n) true).toOption.getD (votingList n)

lemma payoutsAdmitted_votingList (n : Nat) : (votingList n).PayoutsAdmitted := by
  have hscript : Script.isPayoutScript somePayout = true := by decide
  induction n with
  | zero => exact CDeterministicMNList.PayoutsAdmitted.initial 0 0
  | succ n ih =>
    unfold votingList
    cases hrun : (votingList n).addMN (votingMN n) true with
    | ok l => exact ih.addMN ⟨⟨hscript, .inl rfl⟩, Nat.zero_le _⟩ hrun
    | error e => exact ih

/-- A trigger object with the votes of ten of them for it. -/
def votedObject : CGovernanceObject :=
  { hash := 7, type := .trigger
    mapCurrentMNVotes := (List.range 10).foldl (fun votes i =>
      votes.insert ⟨i + 1, 0⟩ (AList.singleton (β := fun _ => VoteInstance) voteSignalFunding
        { eOutcome := voteOutcomeYes })) ∅ }

lemma funding_votedObject :
    CGovernanceObject.funding (syncedView 10) votedObject = (10, true) := by
  decide +kernel

/-- The trigger of the object, for one payment at the first mainnet superblock. -/
def votedTrigger (nAmount : CAmount) (h : moneyRange nAmount = true) : CSuperblock where
  nGovObjHash := 7
  nBlockHeight := 86400
  vecPayments := [{ script := somePayout, nAmount := nAmount }]
  amounts := by simpa using h

/-- Governance with that trigger only. -/
def oneTrigger (nAmount : CAmount) (h : moneyRange nAmount = true) : TriggerState where
  mapObjects := fun hash => if hash = 7 then some votedObject else none
  mapTrigger := [(7, some (votedTrigger nAmount h))]

/-- A mainnet node with ten masternodes that have voted for a payment at the first superblock,
before the block at height `nHeight + 1`. -/
def votedNode (nHeight : Nat) (nAmount : CAmount) (h : moneyRange nAmount = true) : SyncedNode where
  toNodeState := plainNode .main nHeight false (votingList 10) (payoutsAdmitted_votingList 10)
    (syncedView 10) (oneTrigger nAmount h) 0 (by decide)
  synced := rfl

section Voted

variable {nHeight : Nat} {nAmount : CAmount} {h : moneyRange nAmount = true}

lemma nBlockHeight_votedNode : (votedNode nHeight nAmount h).nBlockHeight = nHeight + 1 :=
  nBlockHeight_plainNode

lemma isFunded_votedTrigger :
    isFunded (syncedView 10) (oneTrigger nAmount h) (nHeight + 1)
      (some (votedTrigger nAmount h)) = decide (nHeight + 1 = 86400) := by
  have hfunding : ((oneTrigger nAmount h).mapObjects 7).map
      (CGovernanceObject.funding (syncedView 10)) = some (10, true) :=
    congrArg some funding_votedObject
  have hheight : ((nHeight + 1 : Nat) : Int) = 86400 ↔ nHeight + 1 = 86400 := by omega
  simp only [isFunded, votedTrigger, hfunding, hheight, any_some, Bool.and_true]

/-- The superblock is triggered at its height only. -/
lemma superblockTriggered_votedNode :
    (votedNode nHeight nAmount h).superblockTriggered = decide (nHeight + 1 = 86400) := by
  rw [superblockTriggered, nBlockHeight_votedNode, isSuperblockTriggered_fst]
  change (true && (isValidBlockHeight mainParams (nHeight + 1) &&
    [some (votedTrigger nAmount h)].any
      (isFunded (syncedView 10) (oneTrigger nAmount h) (nHeight + 1)))) = _
  by_cases heq : nHeight + 1 = 86400
  · have hheight : isValidBlockHeight mainParams 86400 = true := by decide
    simp [isFunded_votedTrigger, heq, hheight]
  · simp [isFunded_votedTrigger, heq]

lemma bestSuperblock_votedNode :
    (votedNode 86399 nAmount h).bestSuperblock = some (votedTrigger nAmount h) := by
  rw [bestSuperblock, nBlockHeight_votedNode]
  change getBestSuperblock mainParams (syncedView 10) (oneTrigger nAmount h) 86400 = _
  rfl

lemma ownPayments_votedNode :
    (votedNode 86399 nAmount h).ownPayments = [{ script := somePayout, nAmount := nAmount }] := by
  rw [ownPayments, superblockTriggered_votedNode, bestSuperblock_votedNode]
  rfl

end Voted

/-- The limit of the first mainnet superblock. -/
lemma getPaymentsLimit_first : getPaymentsLimit mainParams 86400 = 12500000 * 86400 := by
  have hpart : getSuperblockSubsidyInner mainParams 86399 = 12500000 := by
    rw [getSuperblockSubsidyInner, getBlockSubsidyHelper_eq (by decide) rfl]
    rfl
  rw [getPaymentsLimit, hpart]
  rfl

/-- A trigger with enough votes for a payment one satoshi above the limit: the node builds a
coinbase that makes the payment, and does not accept it. -/
theorem ownCoinbase_exceeds_limit :
    let node := votedNode 86399 (12500000 * 86400 + 1) (by decide)
    ∃ vout governance, node.createCoinbase somePayout = .ok (vout, governance) ∧
      ¬ ∃ governance', node.isBlockValueValid governance vout = .ok (.ok (), governance') := by
  refine SyncedNode.rejects_own_over_limit _ (.inr rfl) superblockTriggered_votedNode ?_ somePayout
  have hparams : ∀ nAmount h, (votedNode 86399 nAmount h).params = mainParams := fun _ _ => rfl
  rw [hparams, ownPayments_votedNode, nBlockHeight_votedNode, getPaymentsLimit_first]
  decide

end HootChain.Masternode

import HootChain.Masternode.Payments

/-!
# Checking the Payees (`masternode/payments.cpp`)

`IsTransactionValid` looks for each expected output on its own, and
`CSuperblock::IsValid` looks for the payments of a superblock among the same
outputs. An output that cannot be found is logged with its destination, and the
platform's output has none.
-/

namespace HootChain.Masternode

open Consensus Evo Foundation Governance Primitives Script Validation NodeState Binary64 List
  CSuperblockManager CDeterministicMNList

/-! ## The search for the expected outputs -/

variable {vout expected : List CTxOut}

/-- The search succeeds when all outputs are there. -/
lemma findExpected_eq_true_iff :
    findExpected vout expected = .ok true ↔ ∀ txout ∈ expected, txout ∈ vout := by
  induction expected with
  | nil => simp [findExpected]
  | cons txout expected ih =>
    rw [findExpected]
    by_cases hmem : txout ∈ vout
    · rw [if_pos (by simpa using hmem), ih]
      simp [hmem]
    · cases extractDestination txout.scriptPubKey <;> simp [hmem]

namespace NodeState

variable (node : NodeState)

/-- Masternode payments are enforced at the height of the next block. -/
def enforced : Bool := node.env.params.dip0003EnforcementHeight ≤ node.nBlockHeight

/-- The outputs that `IsTransactionValid` looks for: none before the payments are enforced,
and none without a payee. -/
def expectedTxOuts : List CTxOut :=
  if node.enforced && node.dmnPayee.isSome then node.masternodeTxOuts else []

lemma isTransactionValid_eq (vout : List CTxOut) :
    node.isTransactionValid vout = findExpected vout node.expectedTxOuts := by
  have houts := node.getBlockTxOuts_eq
  unfold isTransactionValid Masternode.isTransactionValid expectedTxOuts enforced
  unfold getBlockTxOuts at houts
  unfold nBlockHeight
  by_cases hheight : node.pindexPrev.length < node.env.params.dip0003EnforcementHeight
  · simp [hheight.not_ge, findExpected]
  · rw [houts]
    cases node.dmnPayee.isSome with
    | false => simp [Except.bind, findExpected]
    | true => simp [Except.bind, not_lt.mp hheight]

/-! ## Outputs without a destination -/

variable {vout : List CTxOut}

end NodeState

/-- A payment to a key hash. -/
def somePayout : CScript := scriptForKeyHash (replicate 20 0x11)

section

variable (nOperatorReward : Nat)

/-- A masternode whose owner and operator are paid to the same script. -/
def soloMN : CDeterministicMN where
  internalId := 0
  proTxHash := 1
  collateralOutpoint := ⟨7, 0⟩
  nOperatorReward := nOperatorReward
  nType := .regular
  pdmnState :=
    { keyIDOwner := 5, nRegisteredHeight := 1000, scriptPayout := somePayout
      scriptOperatorPayout := somePayout }

/-- The list of that masternode alone. -/
def soloList : CDeterministicMNList :=
  ((initial 0 0).addMN (soloMN nOperatorReward) true).toOption.getD
    (.initial 0 0)

lemma addMN_soloMN :
    (initial 0 0).addMN (soloMN nOperatorReward) true =
      .ok (soloList nOperatorReward) := rfl

lemma payoutsAdmitted_soloList {nOperatorReward : Nat} (h : nOperatorReward ≤ 10000) :
    (soloList nOperatorReward).PayoutsAdmitted := by
  have hscript : isPayoutScript somePayout = true := by decide
  exact (CDeterministicMNList.PayoutsAdmitted.initial 0 0).addMN
    ⟨⟨hscript, .inr hscript⟩, h⟩ (addMN_soloMN nOperatorReward)

/-- It is always its turn. -/
lemma getMNPayee_soloList (env : MnEnv) (pindexPrev : Evo.CBlockIndex) :
    (soloList nOperatorReward).getMNPayee env pindexPrev = some (soloMN nOperatorReward) := by
  have hnext : (soloList nOperatorReward).nextPayee = some (soloMN nOperatorReward) := rfl
  have hevo : (soloList nOperatorReward).evoPayee = none := rfl
  have hcount : (soloList nOperatorReward).getAllMNsCount = 1 := rfl
  simp [getMNPayee, hnext, hevo, hcount]

end

def otherPayout : CScript := scriptForKeyHash (replicate 20 0x22)

/-- The masternode gets an operator, who names a script, and a second one is registered. -/
def payoutBlock : Evo.CBlock where
  hash := 2
  coinbase := .none
  txs :=
    [⟨8, [], .proUpReg (some ⟨1, 1, .key 7 true, 7, somePayout⟩)⟩,
      ⟨9, [], .proUpServ (some ⟨.regular, 1, ⟨7, 1⟩, otherPayout⟩)⟩,
      ⟨10, [], .proReg <| some
        { collateralOutpoint := ⟨0, 0⟩, addr := ⟨10, 1⟩, keyIDOwner := 10
          pubKeyOperator := .key 10 true, keyIDVoting := 10, nOperatorReward := 10000
          scriptPayout := otherPayout }⟩]

theorem payoutsAdmitted_payoutBlock : ∃ l',
    buildNewListFromBlock (plainEnv .main false) [] payoutBlock (soloList 500) = .ok l' ∧
    l'.PayoutsAdmitted ∧
    l'.mns.map (fun dmn => (dmn.nOperatorReward, dmn.pdmnState.scriptOperatorPayout)) =
      [(500, otherPayout), (10000, [])] := by
  have hchecks : ∀ tx ∈ payoutBlock.txs, checkPayouts (soloList 500) tx = .ok () := by
    decide +kernel
  have hresult : (buildNewListFromBlock (plainEnv .main false) [] payoutBlock
      (soloList 500)).toOption.map (·.mns.map fun dmn =>
        (dmn.nOperatorReward, dmn.pdmnState.scriptOperatorPayout)) =
          some [(500, otherPayout), (10000, [])] := by
    decide +kernel
  have hindexed := (WellIndexed.initial 0 0).addMN (addMN_soloMN 500)
  cases hrun : buildNewListFromBlock (plainEnv .main false) [] payoutBlock (soloList 500) with
  | error e => simp [hrun, Except.toOption] at hresult
  | ok l' =>
    rw [hrun] at hresult
    exact ⟨l', rfl, (payoutsAdmitted_soloList (by decide)).of_buildNewListFromBlock
      hindexed.proTxHash_eq hchecks hrun, Option.some.inj hresult⟩

namespace NodeState

variable (node : NodeState)

/-- A superblock is triggered, and the node checks its payments. -/
def superblockDue : Bool :=
  node.view.isSynced && !node.fDisableGovernance &&
    decide (node.params.nSuperblockStartBlock ≤ node.nBlockHeight) && node.superblocksEnabled &&
    (isSuperblockTriggered node.params node.view node.governance
      node.nBlockHeight).1

/-- The trigger that is paid. -/
def bestSuperblock : Option CSuperblock :=
  getBestSuperblock node.params node.view node.governance node.nBlockHeight

/-- The payments of the superblock that the next block has to make. -/
def superblockPayments : List CGovernancePayment :=
  if node.superblockDue then (node.bestSuperblock.map CSuperblock.vecPayments).getD [] else []

section Accepts

variable {node} {governance : TriggerState} (h : SameFunding node.view node.governance governance)

include h

/-- The check of the superblock on a state that has been refreshed. -/
lemma isValid_of_sameFunding (vout : List CTxOut) (blockReward : CAmount) :
    isValid node.params node.view governance vout node.nBlockHeight
        blockReward = some true ↔
      ∃ trigger, node.bestSuperblock = some trigger ∧
        isValid node.params trigger.vecPayments vout node.nBlockHeight blockReward = some true := by
  unfold CSuperblockManager.isValid bestSuperblock
  rw [h.getBestSuperblock]
  cases getBestSuperblock node.params node.view node.governance
    node.nBlockHeight <;> simp

lemma isSuperblockPayeeValid_iff (vout : List CTxOut) (blockReward : CAmount) :
    (∃ governance', isSuperblockPayeeValid node.params node.view node.superblocksEnabled
        node.fDisableGovernance governance vout node.nBlockHeight blockReward =
          .ok (true, governance')) ↔
      (node.superblockDue = true → ∃ trigger, node.bestSuperblock = some trigger ∧
        isValid node.params trigger.vecPayments vout node.nBlockHeight
          blockReward = some true) := by
  have htriggered := h.isSuperblockTriggered node.params node.nBlockHeight
  have hvalid := isValid_of_sameFunding
    (h.trans (sameFunding_isSuperblockTriggered node.params _ _ node.nBlockHeight)) vout blockReward
  unfold isSuperblockPayeeValid superblockDue
  rw [← htriggered, ← hvalid]
  -- in the order of the source: each test that fails accepts the coinbase
  cases node.view.isSynced with
  | false => simp
  | true =>
    cases node.fDisableGovernance with
    | true => simp
    | false =>
      by_cases hstart : node.nBlockHeight < node.params.nSuperblockStartBlock
      · simp [hstart, hstart.not_ge]
      cases node.superblocksEnabled with
      | false => simp [hstart]
      | true =>
        generalize isSuperblockTriggered node.params node.view governance
          node.nBlockHeight = result at *
        obtain ⟨triggered, governance'⟩ := result
        cases triggered with
        | false => simp [hstart]
        | true =>
          simp only [hstart, not_lt.mp hstart, Bool.not_true, Bool.or_false, Bool.false_eq_true,
            if_false, Bool.not_false, Bool.and_self, decide_true, true_implies]
          cases isValid node.params node.view governance' vout
              node.nBlockHeight blockReward with
          | none => simp
          | some valid => simp

/-- A coinbase is accepted when the expected outputs are there and, with a superblock due,
its payments pass. -/
lemma isBlockPayeeValid_iff (vout : List CTxOut) :
    (∃ governance', node.isBlockPayeeValid governance vout = .ok (true, governance')) ↔
      (∀ txout ∈ node.expectedTxOuts, txout ∈ vout) ∧
        (node.superblockDue = true → ∃ trigger, node.bestSuperblock = some trigger ∧
          isValid node.params trigger.vecPayments vout node.nBlockHeight
            node.blockReward = some true) := by
  rw [← isSuperblockPayeeValid_iff h, ← findExpected_eq_true_iff, ← node.isTransactionValid_eq]
  unfold isBlockPayeeValid Masternode.isBlockPayeeValid isTransactionValid
  cases Masternode.isTransactionValid node.env node.mnList node.pindexPrev node.blockSubsidy
      node.feeReward vout with
  | error e => simp [Except.bind]
  | ok valid =>
    cases valid with
    | false => simp [Except.bind]
    | true => simp [Except.bind, blockReward, nBlockHeight]

end Accepts

def superblockTxOuts : List CTxOut := scheduledOutputs node.superblockPayments

/-- Some coinbase can be accepted: without a superblock always, with one if there is a best
trigger within the limit, and the expected outputs and the collapsed schedule, with
outputs shared where they are equal, fit into the block. -/
def CoinbasePossible : Prop :=
  node.superblockDue = true → ∃ trigger, node.bestSuperblock = some trigger ∧
    getPaymentsTotalAmount trigger.vecPayments ≤ getPaymentsLimit node.params node.nBlockHeight ∧
    ∃ nBlockValue,
      getValueOut (shared node.expectedTxOuts (scheduledOutputs trigger.vecPayments)) =
        some nBlockValue ∧
      nBlockValue ≤ node.blockReward + getPaymentsTotalAmount trigger.vecPayments

variable {vout : List CTxOut} {governance : TriggerState}
  (h : node.isBlockPayeeValid node.governance vout = .ok (true, governance))

include h

/-- An accepted coinbase has every expected output, and the collapsed schedule in order. -/
lemma sublist_of_accepts :
    (∀ txout ∈ node.expectedTxOuts, txout ∈ vout) ∧
      (collapse node.superblockTxOuts).Sublist vout := by
  obtain ⟨hexpected, hsuperblock⟩ :=
    (isBlockPayeeValid_iff (.refl node.view node.governance) vout).mp ⟨_, h⟩
  refine ⟨hexpected, ?_⟩
  unfold superblockTxOuts superblockPayments
  split
  · next hdue =>
    obtain ⟨trigger, hbest, hvalid⟩ := hsuperblock hdue
    rw [hbest]
    obtain ⟨-, -, -, -, -, -, hmatch⟩ := isValid_eq_true_iff.mp hvalid
    exact (matchPayments_iff vout _).mp hmatch
  · exact nil_sublist vout

/-- The coinbase that shares outputs wherever it can, filled up with worthless outputs. -/
def sharedCoinbase (script : CScript) : List CTxOut :=
  shared node.expectedTxOuts node.superblockTxOuts ++
    replicate node.superblockPayments.length { nValue := 0, scriptPubKey := script }

omit h in
lemma accepts_sharedCoinbase (h : node.CoinbasePossible) (script : CScript) :
    ∃ governance, node.isBlockPayeeValid node.governance (node.sharedCoinbase script) =
      .ok (true, governance) := by
  rw [isBlockPayeeValid_iff (.refl node.view node.governance)]
  refine ⟨fun txout hmem => mem_append_left _ (mem_shared hmem), fun hdue => ?_⟩
  obtain ⟨trigger, hbest, hlimit, nBlockValue, hvalue, hle⟩ := h hdue
  have hpayments : node.superblockPayments = trigger.vecPayments := by
    simp [superblockPayments, hdue, hbest]
  have hheight : isValidBlockHeight node.params node.nBlockHeight = true := by
    apply isValidBlockHeight_of_triggered
    exact (Bool.and_eq_true_iff.mp hdue).2
  refine ⟨trigger, hbest, isValid_eq_true_iff.mpr ⟨hheight, ?_, hlimit, nBlockValue, ?_, hle, ?_⟩⟩
  · simp [sharedCoinbase, hpayments]
  · unfold sharedCoinbase superblockTxOuts
    rw [hpayments]
    refine getValueOutFrom_append_zeros (by decide) (fun out hout => ?_) hvalue
    rw [eq_of_mem_replicate hout]
  · unfold sharedCoinbase superblockTxOuts shared
    rw [matchPayments_iff, hpayments, append_assoc]
    exact sublist_append_left _ _

/-- If any coinbase is accepted, then the one that shares outputs is. -/
lemma coinbasePossible_of_accepts : node.CoinbasePossible := by
  intro hdue
  obtain ⟨hexpected, hsuperblock⟩ :=
    (isBlockPayeeValid_iff (.refl node.view node.governance) vout).mp ⟨_, h⟩
  obtain ⟨trigger, hbest, hvalid⟩ := hsuperblock hdue
  obtain ⟨-, -, hlimit, nBlockValue, hvalue, hle, hmatch⟩ := isValid_eq_true_iff.mp hvalid
  have hsub := shared_subperm hexpected ((matchPayments_iff vout _).mp hmatch)
  obtain ⟨w, hw, hwle⟩ := getValueOut_subperm hsub hvalue
  exact ⟨trigger, hbest, hlimit, w, hw, hwle.trans hle⟩

end NodeState

/-- **Every output is paid once.** Every coinbase that `IsBlockPayeeValid` accepts has the
expected outputs and, beside them, the schedule of a superblock that is due as
`CSuperblock::IsValid` matches it, if and only if the expected outputs are all different
and none is a payment of the superblock (or no coinbase is accepted at all). -/
theorem isBlockPayeeValid_matches_iff (node : NodeState) :
    (∀ vout governance, node.isBlockPayeeValid node.governance vout = .ok (true, governance) →
        (node.expectedTxOuts ++ collapse node.superblockTxOuts).Subperm vout) ↔
      (node.expectedTxOuts.Nodup ∧
          ∀ txout ∈ node.expectedTxOuts, txout ∉ node.superblockTxOuts) ∨
        ¬ node.CoinbasePossible := by
  constructor
  · intro hall
    by_contra hnot
    rw [not_or, not_not] at hnot
    obtain ⟨hclash, hpossible⟩ := hnot
    -- fill up with a script that no expected output uses
    obtain ⟨script, hfresh⟩ := Infinite.exists_notMem_finset
      (node.expectedTxOuts.map CTxOut.scriptPubKey).toFinset
    rw [mem_toFinset] at hfresh
    obtain ⟨governance, haccepts⟩ := node.accepts_sharedCoinbase hpossible script
    refine not_subperm_shared_append hclash (fun txout hpad hmem => ?_) (hall _ _ haccepts)
    rw [eq_of_mem_replicate hpad] at hmem
    exact hfresh (mem_map.mpr ⟨_, hmem, rfl⟩)
  · rintro (⟨hnodup, hdisjoint⟩ | himpossible) vout governance haccepts
    · obtain ⟨hexpected, hsub⟩ := node.sublist_of_accepts haccepts
      exact subperm_append_collapse hnodup hdisjoint hexpected hsub
    · exact absurd (node.coinbasePossible_of_accepts haccepts) himpossible

/-- Where the percentage is a whole number, the share is computed without rounding. -/
lemma getMasternodePayment_of_whole {nHeight p v : Nat} (hheight : 600 < nHeight)
    (hpercent : masternodePercentage nHeight = p) (hp : p * v < 2 ^ 53) (hv : v < 2 ^ 53) :
    getMasternodePayment nHeight (v : ℤ) = ((p * v / 100 : ℕ) : ℤ) := by
  have hof : ofInt (v : ℤ) = ((v : ℤ) : ℚ) :=
    ofInt_eq (by rw [abs_of_nonneg (by positivity)]; exact_mod_cast hv)
  have hmul : mul ((v : ℤ) : ℚ) (p : ℚ) = ((p * v : ℕ) : ℚ) := by
    have hprod : ((v : ℤ) : ℚ) * (p : ℚ) = (((p * v : ℕ) : ℤ) : ℚ) := by
      push_cast
      ring
    rw [mul, hprod, fl_intCast]
    · norm_cast
    · exact_mod_cast hp
  unfold getMasternodePayment
  rw [if_neg (by omega), hpercent, hof, hmul]
  exact trunc_fl_ratio (by norm_num) hp

/-- A mainnet block at height 220000 with 50 satoshis of fees, whose payee gives its operator
half of the reward and is paid to the same script: the coinbase with one of the two equal
outputs is accepted. -/
theorem isBlockPayeeValid_shares_output :
    let node := plainNode .main 219999 false (soloList 5000) (payoutsAdmitted_soloList (by decide))
      (syncedView 1) noTriggers 50 (by decide)
    let vout : List CTxOut := [⟨169101581, somePayout⟩]
    (∃ governance, node.isBlockPayeeValid node.governance vout = .ok (true, governance)) ∧
      ¬ node.expectedTxOuts.Subperm vout := by
  intro node vout
  have hheight : node.nBlockHeight = 220000 := nBlockHeight_plainNode
  have hsubsidy : node.blockSubsidy = 457031250 := by
    rw [blockSubsidy, hheight]
    change (getBlockSubsidyHelper mainParams 219999).1 = _
    rw [getBlockSubsidyHelper_eq (by decide) rfl]
    rfl
  have hpayment : getMasternodePayment node.nBlockHeight node.blockReward = 338203162 := by
    have hpercent : masternodePercentage 220000 = ((74 : ℕ) : ℚ) := by
      have hrow : masternodePercentage 220000 = fl ((74 : ℤ) : ℚ) := by
        simp [masternodePercentage, masternodePayments]
      rw [hrow, fl_intCast (by decide)]
      rfl
    have hreward : node.blockReward = ((457031300 : ℕ) : ℤ) := by
      rw [blockReward, hsubsidy]
      rfl
    rw [hheight, hreward, getMasternodePayment_of_whole (by decide) hpercent (by decide)
      (by decide)]
    rfl
  have hexpected : node.expectedTxOuts = [⟨169101581, somePayout⟩, ⟨169101581, somePayout⟩] := by
    have hpayee : node.dmnPayee = some (soloMN 5000) := getMNPayee_soloList 5000 _ _
    have hplatform : node.platformTxOuts = [] := rfl
    have henforced : node.enforced = true := by
      rw [enforced, hheight]
      rfl
    simp only [expectedTxOuts, henforced, hpayee, masternodeTxOuts, hplatform,
      masternodeReward, hpayment]
    rfl
  refine ⟨(isBlockPayeeValid_iff (.refl _ _) vout).mpr ⟨?_, ?_⟩, ?_⟩
  · rw [hexpected]
    simp [vout]
  · -- 220000 is not a superblock height
    intro hdue
    have hvalid := isValidBlockHeight_of_triggered (Bool.and_eq_true_iff.mp hdue).2
    rw [hheight] at hvalid
    exact absurd hvalid (by decide)
  · rw [hexpected]
    intro hsub
    exact absurd hsub.length_le (by decide)

end HootChain.Masternode

import HootChain.Foundation.CycleBudget
import HootChain.Masternode.OwnCoinbase

/-!
# What Coinbases Create on Mainnet (`masternode/payments.cpp`, `governance/classes.cpp`)

Ordinary blocks pay out their subsidy without the superblock part, and a superblock may
pay out its own superblock part once for every block of the cycle. The first cycle begins
before anything is withheld.
-/

namespace HootChain.Masternode

open Consensus Foundation Governance Primitives Validation Finset CycleBudget NodeState Bool

/-! ## Withheld and spent -/

/-- The superblock parts of the blocks at heights `1` to `h`. -/
def withheld (h : Nat) : CAmount :=
  ∑ nPrevHeight ∈ range h, getSuperblockSubsidyInner mainParams nPrevHeight

/-- The limits of the superblocks at heights `1` to `h`. -/
def spent (h : Nat) : CAmount :=
  ∑ nPrevHeight ∈ range h, getPaymentsLimit mainParams (nPrevHeight + 1)

lemma getSuperblockSubsidyInner_main (nPrevHeight : Nat) :
    getSuperblockSubsidyInner mainParams nPrevHeight =
      if 600 ≤ nPrevHeight then ((decayed (nPrevHeight / 129600) 500000000 / 40 : ℕ) : ℤ)
      else 0 := by
  rw [getSuperblockSubsidyInner, getBlockSubsidyHelper_eq (by decide) rfl]
  change (if nPrevHeight > 599 then
    ((decayed (nPrevHeight / 129600) (baseSatoshis nPrevHeight) : ℕ) : ℤ).tdiv 40 else 0) = _
  by_cases hlate : 600 ≤ nPrevHeight
  · have hbase : baseSatoshis nPrevHeight = 500000000 := by
      rw [baseSatoshis, if_neg (by omega), if_neg (by omega)]
    rw [if_pos hlate, if_pos (by omega), hbase]
    norm_cast
  · rw [if_neg hlate, if_neg (by omega)]

lemma superblockPart_nonneg (nPrevHeight : Nat) :
    0 ≤ getSuperblockSubsidyInner mainParams nPrevHeight := by
  rw [getSuperblockSubsidyInner_main]
  split <;> positivity

variable {k p h : Nat}

lemma decayed_anti {l : Nat} (h : k ≤ l) (n : Nat) : decayed l n ≤ decayed k n := by
  induction h with
  | refl => exact le_rfl
  | step _ ih =>
    rw [decayed_succ]
    omega

/-- The superblock part never grows once it is withheld. -/
lemma superblockPart_anti {q : Nat} (hp : 600 ≤ p) (hpq : p ≤ q) :
    getSuperblockSubsidyInner mainParams q ≤ getSuperblockSubsidyInner mainParams p := by
  rw [getSuperblockSubsidyInner_main, getSuperblockSubsidyInner_main, if_pos hp, if_pos (by omega)]
  exact_mod_cast Nat.div_le_div_right (decayed_anti (Nat.div_le_div_right hpq) _)

/-- A superblock may pay its superblock part once for every block of the cycle. -/
lemma getPaymentsLimit_main (nPrevHeight : Nat) :
    getPaymentsLimit mainParams (nPrevHeight + 1) =
      paid 86400 (getSuperblockSubsidyInner mainParams) nPrevHeight := by
  have hvalid : isValidBlockHeight mainParams (nPrevHeight + 1) = true ↔ 86400 ∣ nPrevHeight + 1 := by
    change (decide (599 ≤ nPrevHeight + 1) && (nPrevHeight + 1) % 86400 == 0) = true ↔ _
    simp only [and_eq_true, decide_eq_true_eq, beq_iff_eq]
    omega
  unfold getPaymentsLimit
  by_cases hdvd : 86400 ∣ nPrevHeight + 1
  · rw [paid_of_dvd hdvd, hvalid.mpr hdvd]
    rfl
  · rw [paid_of_not_dvd hdvd, eq_false_iff.mpr (hvalid.not.mpr hdvd)]
    rfl

lemma spent_eq (h : Nat) :
    spent h = ∑ p ∈ range h, paid 86400 (getSuperblockSubsidyInner mainParams) p :=
  sum_congr rfl fun p _ => getPaymentsLimit_main p

lemma withheld_mono {h' : Nat} (hle : h ≤ h') : withheld h ≤ withheld h' :=
  sum_le_sum_of_subset_of_nonneg (range_subset_range.mpr hle) fun p _ _ => superblockPart_nonneg p

lemma withheld_first (hlo : 600 ≤ h) (hhi : h ≤ 129600) :
    withheld h = (h - 600 : ℕ) * 12500000 := by
  have hnone : withheld 600 = 0 :=
    sum_eq_zero fun p hp => by
      rw [getSuperblockSubsidyInner_main, if_neg (not_le.mpr (mem_range.mp hp))]
  have hpart : ∀ p, 600 ≤ p → p < h → getSuperblockSubsidyInner mainParams p = 12500000 := by
    intro p hp hph
    have hdiv : p / 129600 = 0 := Nat.div_eq_of_lt (by omega)
    rw [getSuperblockSubsidyInner_main, if_pos hp, hdiv]
    rfl
  rw [withheld, sum_range_append_const hlo hpart, ← withheld, hnone, zero_add]

lemma superblockPart_second (hlo : 129600 ≤ p) (hhi : p < 259200) :
    getSuperblockSubsidyInner mainParams p = 11718750 := by
  have hdiv : p / 129600 = 1 := Nat.div_eq_of_lt_le (by omega) (by omega)
  rw [getSuperblockSubsidyInner_main, if_pos (by omega), hdiv]
  rfl

/-- Nothing is spent between two superblocks. -/
lemma spent_between (hlo : 86400 * k ≤ h) (hhi : h < 86400 * (k + 1)) :
    spent h = spent (86400 * k) := by
  rw [spent_eq, spent_eq, ← sum_range_add_sum_Ico _ hlo, sum_paid_eq_zero, add_zero]
  omega

lemma spent_superblock {nPrevHeight : Nat} (h : nPrevHeight + 1 = 86400 * (k + 1)) :
    spent (86400 * (k + 1)) =
      spent (86400 * k) + getSuperblockSubsidyInner mainParams nPrevHeight * 86400 := by
  have hlast : spent nPrevHeight = spent (86400 * k) := spent_between (by omega) (by omega)
  rw [← h, spent, sum_range_succ, ← spent, hlast, getPaymentsLimit_main,
    paid_of_dvd ⟨k + 1, h⟩, Nat.cast_ofNat]

lemma spent_one : spent (86400 * 1) = 12500000 * 86400 := by
  rw [spent_superblock (by norm_num : 86399 + 1 = _), getSuperblockSubsidyInner_main]
  rfl

lemma spent_two : spent (86400 * 2) = 12500000 * 86400 + 11718750 * 86400 := by
  rw [spent_superblock (by norm_num : 172799 + 1 = _), spent_one,
    superblockPart_second (by norm_num) (by norm_num)]

lemma withheld_two : withheld (86400 * 2) = 129000 * 12500000 + 43200 * 11718750 := by
  rw [withheld, sum_range_append_const (by norm_num : 129600 ≤ 86400 * 2)
    fun p hlo hhi => superblockPart_second hlo (by omega), ← withheld,
    withheld_first (by norm_num) le_rfl]
  norm_num

/-- **Superblocks and what ordinary blocks withheld.** The limits of all superblocks up to a
height are covered by what the blocks up to it withheld, except from the first superblock
until the 600 blocks that it counts too many are made up for. -/
theorem spent_le_withheld_iff (h : Nat) : spent h ≤ withheld h ↔ h < 86400 ∨ 87000 ≤ h := by
  rcases lt_or_ge h 86400 with hfirst | hfirst
  · -- before the first superblock
    rw [spent_between (by omega : 86400 * 0 ≤ h) (by omega)]
    exact iff_of_true (sum_nonneg fun p _ => superblockPart_nonneg p) (.inl hfirst)
  rcases lt_or_ge h (86400 * 2) with hsecond | hsecond
  · -- before the second: the block parts of the first interval make up for it
    rw [spent_between (by omega : 86400 * 1 ≤ h) (by omega), spent_one]
    by_cases hmade : 87000 ≤ h
    · have hle := withheld_mono hmade
      rw [withheld_first (by norm_num) (by norm_num)] at hle
      refine iff_of_true (le_trans ?_ hle) (.inr hmade)
      norm_num
    · rw [withheld_first (by omega) (by omega)]
      have hgap : ((h - 600 : ℕ) : ℤ) < 86400 := by omega
      refine iff_of_false (not_le.mpr ?_) (by omega)
      linarith
  · -- from the second on every cycle is covered by its own blocks
    have hrest := sum_paid_le (by norm_num) (by norm_num : 86400 ∣ 86400 * 2)
      (fun p q hp hpq => superblockPart_anti (by omega : 600 ≤ p) hpq) superblockPart_nonneg hsecond
    have hspent : spent h = spent (86400 * 2) + ∑ p ∈ Ico (86400 * 2) h,
        paid 86400 (getSuperblockSubsidyInner mainParams) p := by
      rw [spent_eq, spent_eq, sum_range_add_sum_Ico _ hsecond]
    have hwithheld : withheld h = withheld (86400 * 2) + ∑ p ∈ Ico (86400 * 2) h,
        getSuperblockSubsidyInner mainParams p := (sum_range_add_sum_Ico _ hsecond).symm
    rw [hspent, hwithheld, spent_two, withheld_two]
    refine iff_of_true (add_le_add ?_ hrest) (.inr (by omega))
    norm_num

/-! ## Accepted chains -/

namespace SyncedNode

variable (node : SyncedNode)

/-- The checks of `CheckBlock` and `ConnectBlock` on the outputs of a coinbase. -/
def Accepts (vout : List CTxOut) : Prop :=
  node.devfeePaid vout = true ∧
    ∃ governance governance',
      node.isBlockValueValid node.governance vout = .ok (.ok (), governance) ∧
        node.isBlockPayeeValid governance vout = .ok (true, governance')

/-- What the coinbase creates: its outputs without the fees. -/
def created (vout : List CTxOut) : CAmount := (vout.map CTxOut.nValue).sum - node.feeReward

/-- An accepted coinbase creates at most the block part, and the limit of a superblock. -/
lemma created_le {vout : List CTxOut} (h : node.Accepts vout) :
    node.created vout ≤ node.blockSubsidy + getPaymentsLimit node.params node.nBlockHeight := by
  obtain ⟨-, governance, -, hvalue, -⟩ := h
  obtain ⟨v, hv, hfits⟩ := (isBlockValueValid_iff node.synced
    (.refl node.view node.governance) vout).mp ⟨governance, hvalue⟩
  obtain ⟨-, rfl, -⟩ := getValueOut_eq_some_iff.mp hv
  have hlimit : 0 ≤ getPaymentsLimit node.params node.nBlockHeight :=
    getPaymentsLimit_nonneg node.network _
  have hle : (vout.map CTxOut.nValue).sum ≤
      node.blockReward + getPaymentsLimit node.params node.nBlockHeight := by
    unfold ValueFits at hfits
    split at hfits
    · exact hfits.1
    · exact hfits.trans (le_add_of_nonneg_right hlimit)
  unfold created
  rw [blockReward] at hle
  linarith

/-- The node accepts what it fills in itself. -/
lemma accepts_ownTxOuts (hfit : node.OwnPaymentsFit) (scriptPubKeyIn : CScript) :
    node.Accepts (node.ownTxOuts scriptPubKeyIn) :=
  ⟨node.devfeePaid_ownTxOuts scriptPubKeyIn,
    node.passes_ownTxOuts hfit (.refl node.view node.governance) scriptPubKeyIn⟩

lemma created_ownTxOuts (scriptPubKeyIn : CScript) :
    node.created (node.ownTxOuts scriptPubKeyIn) =
      node.blockSubsidy + getPaymentsTotalAmount node.ownPayments := by
  rw [created, node.sum_ownTxOuts, blockReward]
  ring

end SyncedNode

/-- The mainnet chains that a synced node accepts, with the total that the coinbases after the
genesis block create. Masternodes, votes, sporks and fees may be any at every block. -/
inductive AcceptedChain : Evo.CBlockIndex → CAmount → Prop
  | genesis (block : Evo.CBlock) : AcceptedChain [block] 0
  | connect {total : CAmount} (node : SyncedNode) (vout : List CTxOut) (block : Evo.CBlock)
      (hprev : AcceptedChain node.pindexPrev total) (hmain : node.network = .main)
      (haccepts : node.Accepts vout) :
      AcceptedChain (block :: node.pindexPrev) (total + node.created vout)

/-- The block parts of the blocks at heights `1` to `h`. -/
def blockParts (h : Nat) : CAmount :=
  ∑ nPrevHeight ∈ range h, getBlockSubsidyInner mainParams nPrevHeight

lemma scheduledSupply_eq (h : Nat) : scheduledSupply mainParams h = blockParts h + withheld h :=
  sum_add_distrib

lemma blockSubsidy_main {node : NodeState} (hmain : node.network = .main)
    (hheight : node.nBlockHeight = h + 1) :
    node.blockSubsidy = getBlockSubsidyInner mainParams h := by
  rw [blockSubsidy, hheight, params, hmain]
  rfl

/-- A chain creates at most the block parts and the limits of the superblocks. -/
lemma AcceptedChain.created_le {pindex : Evo.CBlockIndex} {total : CAmount}
    (hchain : AcceptedChain pindex total) (hlength : pindex.length = h + 1) :
    total ≤ blockParts h + spent h := by
  induction hchain generalizing h with
  | genesis block =>
    obtain rfl : h = 0 := by simpa using hlength.symm
    rfl
  | connect node vout block _ hmain haccepts ih =>
    -- the node's next block is the one at height `h`
    have hlength' : node.nBlockHeight = h := by simpa [nBlockHeight] using hlength
    obtain ⟨h, rfl⟩ := Nat.exists_eq_succ_of_ne_zero (n := h) (by
      rintro rfl
      exact node.hasPrev (List.length_eq_zero_iff.mp hlength'))
    have hrest := ih hlength'
    have hblock := node.created_le haccepts
    rw [blockSubsidy_main hmain hlength', hlength', params, hmain] at hblock
    rw [blockParts, spent, sum_range_succ, sum_range_succ, ← blockParts, ← spent]
    change node.created vout ≤ _ + getPaymentsLimit mainParams (h + 1) at hblock
    linarith

/-! ## A chain that spends the first limit -/

section Spending

variable (nHeight : Nat)

/-- The payment takes the whole limit. -/
def spendingNode : SyncedNode := votedNode nHeight (12500000 * 86400) (by decide)

lemma blockSubsidy_spendingNode :
    (spendingNode nHeight).blockSubsidy = getBlockSubsidyInner mainParams nHeight :=
  blockSubsidy_main rfl nBlockHeight_votedNode

lemma ownPayments_spendingNode :
    getPaymentsTotalAmount (spendingNode nHeight).ownPayments =
      if nHeight + 1 = 86400 then 12500000 * 86400 else 0 := by
  by_cases heq : nHeight + 1 = 86400
  · obtain rfl : nHeight = 86399 := by omega
    rw [spendingNode, ownPayments_votedNode]
    rfl
  · have htriggered : (spendingNode nHeight).superblockTriggered = false :=
      superblockTriggered_votedNode.trans (decide_eq_false heq)
    rw [if_neg heq, SyncedNode.ownPayments_of_not_triggered _ htriggered]

lemma ownPaymentsFit_spendingNode : (spendingNode nHeight).OwnPaymentsFit where
  devfee := .inr rfl
  money := by
    have hsubsidy := (getBlockSubsidyInner_bounds .main nHeight).2
    have hfees : (spendingNode nHeight).feeReward = 0 := rfl
    rw [blockReward, blockSubsidy_spendingNode, ownPayments_spendingNode]
    change getBlockSubsidyInner mainParams nHeight ≤ _ at hsubsidy
    unfold maxMoney coin CAmount at *
    split <;> linarith
  limit := by
    intro htriggered
    have heq : nHeight + 1 = 86400 :=
      of_decide_eq_true (superblockTriggered_votedNode.symm.trans htriggered)
    have hparams : (spendingNode nHeight).params = mainParams := rfl
    have hheight : (spendingNode nHeight).nBlockHeight = 86400 := nBlockHeight_votedNode.trans heq
    rw [ownPayments_spendingNode, if_pos heq, hparams, hheight, getPaymentsLimit_first]
  best := by
    intro htriggered _
    have heq : nHeight + 1 = 86400 :=
      of_decide_eq_true (superblockTriggered_votedNode.symm.trans htriggered)
    obtain rfl : nHeight = 86399 := by omega
    exact congrArg Option.isSome bestSuperblock_votedNode

lemma created_spendingNode :
    (spendingNode nHeight).created ((spendingNode nHeight).ownTxOuts somePayout) =
      getBlockSubsidyInner mainParams nHeight +
        if nHeight + 1 = 86400 then 12500000 * 86400 else 0 := by
  rw [SyncedNode.created_ownTxOuts, ownPayments_spendingNode, blockSubsidy_spendingNode]

/-- Nodes that fill in their own coinbases, up to height `h`. -/
lemma acceptedChain_spending (h : Nat) :
    AcceptedChain (List.replicate (h + 1) ⟨0, .none, []⟩)
      (blockParts h + if 86400 ≤ h then 12500000 * 86400 else 0) := by
  induction h with
  | zero => exact .genesis _
  | succ h ih =>
    have hnext := AcceptedChain.connect (spendingNode h) _ ⟨0, .none, []⟩ ih rfl
      ((spendingNode h).accepts_ownTxOuts (ownPaymentsFit_spendingNode h) somePayout)
    have hparts : blockParts (h + 1) = blockParts h + getBlockSubsidyInner mainParams h :=
      sum_range_succ _ _
    have hspent : (if 86400 ≤ h + 1 then 12500000 * 86400 else 0 : CAmount) =
        (if 86400 ≤ h then 12500000 * 86400 else 0) +
          if h + 1 = 86400 then 12500000 * 86400 else 0 := by
      split_ifs <;> first | omega | rfl
    rw [created_spendingNode, add_add_add_comm, ← hparts, ← hspent] at hnext
    exact hnext

end Spending

/-- **Superblocks spend what was withheld.** Every mainnet chain of height `h` that a synced
node accepts creates at most the scheduled subsidies of its blocks, block and superblock
part, if and only if `h` is below the first superblock or at least 600 blocks after it. -/
theorem createdSupply_le_scheduled_iff (h : Nat) :
    (∀ pindex total, AcceptedChain pindex total → pindex.length = h + 1 →
        total ≤ scheduledSupply mainParams h) ↔
      h < 86400 ∨ 87000 ≤ h := by
  constructor
  · intro hall
    by_contra hnot
    have hfirst : 86400 * 1 ≤ h := by omega
    have hsecond : h < 86400 * (1 + 1) := by omega
    have hle := hall _ _ (acceptedChain_spending h) List.length_replicate
    rw [scheduledSupply_eq, if_pos (by omega), add_le_add_iff_left] at hle
    rw [← spent_le_withheld_iff, spent_between hfirst hsecond, spent_one] at hnot
    exact hnot hle
  · intro hheight pindex total hchain hlength
    rw [scheduledSupply_eq]
    exact (hchain.created_le hlength).trans
      (add_le_add_right ((spent_le_withheld_iff h).mpr hheight) _)

/-- A chain whose first superblock pays the whole limit has created more than was scheduled. -/
theorem createdSupply_exceeds_scheduled :
    ∃ pindex total, AcceptedChain pindex total ∧ pindex.length = 86400 + 1 ∧
      scheduledSupply mainParams 86400 < total := by
  refine ⟨_, _, acceptedChain_spending 86400, List.length_replicate, ?_⟩
  rw [scheduledSupply_eq, withheld_first (by norm_num) (by norm_num)]
  norm_num

end HootChain.Masternode

import HootChain.Foundation.Subsequence
import HootChain.Primitives.Transaction
import HootChain.Validation.Subsidy

/-!
# Superblock Payments (`governance/classes.cpp`)

`CSuperblock::IsValid` decides whether a coinbase pays what a trigger schedules:
at a superblock height, within the budget of the cycle and the value of the
block, and with every payment found among the outputs in order. The search for
a payment starts at the output the previous one was matched with.
-/

namespace HootChain.Governance

open Consensus Foundation Primitives Validation List

/-! ## The trigger and the checks of `IsValid` -/

/-- `CGovernancePayment`, a payee script with an amount. -/
structure CGovernancePayment where
  script : CScript
  nAmount : CAmount

section

variable (payment : CGovernancePayment)

/-- The output that makes the payment. -/
def CGovernancePayment.txOut : CTxOut :=
  { nValue := payment.nAmount, scriptPubKey := payment.script }

/-- The payments a trigger schedules (`vecPayments`), as outputs. -/
def scheduledOutputs (vecPayments : List CGovernancePayment) : List CTxOut :=
  vecPayments.map CGovernancePayment.txOut

def isValidBlockHeight (params : Params) (nBlockHeight : Nat) : Bool :=
  params.nSuperblockStartBlock ≤ nBlockHeight && nBlockHeight % params.nSuperblockCycle == 0

/-- `CSuperblock::GetPaymentsLimit`. The deployment state it looks up is not read by
the subsidy function. -/
def getPaymentsLimit (params : Params) (nBlockHeight : Nat) : CAmount :=
  if !isValidBlockHeight params nBlockHeight then 0
  else getSuperblockSubsidyInner params (nBlockHeight - 1) * params.nSuperblockCycle

def getPaymentsTotalAmount (vecPayments : List CGovernancePayment) : CAmount :=
  vecPayments.foldl (fun total payment => total + payment.nAmount) 0

/-- The inner loop: the first output from index `j` on that makes the payment. -/
def findPayment (payment : CGovernancePayment) (vout : List CTxOut) (j : Nat) : Option Nat :=
  if h : j < vout.length then
    if payment.script = vout[j].scriptPubKey ∧ payment.nAmount = vout[j].nValue then
      some j
    else
      findPayment payment vout (j + 1)
  else
    none
termination_by vout.length - j

/-- The outer loop. A match leaves `nVoutIndex` on the matched output. -/
def matchPayments (vout : List CTxOut) : List CGovernancePayment → Nat → Bool
  | [], _ => true
  | payment :: payments, nVoutIndex =>
    match findPayment payment vout nVoutIndex with
    | none => false
    | some j => matchPayments vout payments j

/-- `CSuperblock::IsValid`; `none` where `GetValueOut` throws. -/
def isValid (params : Params) (vecPayments : List CGovernancePayment) (vout : List CTxOut)
    (nBlockHeight : Nat) (blockReward : CAmount) : Option Bool := do
  if !isValidBlockHeight params nBlockHeight then return false
  let nMinerAndMasternodePayments := (vout.length : Int) - vecPayments.length
  if nMinerAndMasternodePayments < 0 then return false
  let nPaymentsTotalAmount := getPaymentsTotalAmount vecPayments
  if nPaymentsTotalAmount > getPaymentsLimit params nBlockHeight then return false
  let nBlockValue ← getValueOut vout
  if nBlockValue > blockReward + nPaymentsTotalAmount then return false
  return matchPayments vout vecPayments 0

/-! ## The nested loops are the greedy matcher -/

lemma payment_matches_iff (out : CTxOut) :
    (payment.script = out.scriptPubKey ∧ payment.nAmount = out.nValue) ↔ out = payment.txOut := by
  cases out
  simp only [CGovernancePayment.txOut, CTxOut.mk.injEq]
  constructor
  · rintro ⟨rfl, rfl⟩
    exact ⟨rfl, rfl⟩
  · rintro ⟨rfl, rfl⟩
    exact ⟨rfl, rfl⟩

/-- The inner loop skips the outputs that differ from the payment. -/
lemma findPayment_dropWhile (vout : List CTxOut) (j : Nat) :
    (vout.drop j).dropWhile (· ≠ payment.txOut) =
      ((findPayment payment vout j).map vout.drop).getD [] := by
  fun_induction findPayment payment vout j with
  | case1 j hj hmatch =>
    rw [payment_matches_iff] at hmatch
    rw [drop_eq_getElem_cons hj, dropWhile_cons_of_neg (by simpa using hmatch)]
    exact (drop_eq_getElem_cons hj).symm
  | case2 j hj hmatch ih =>
    rw [payment_matches_iff] at hmatch
    rw [drop_eq_getElem_cons hj, dropWhile_cons_of_pos (by simpa using hmatch), ih]
  | case3 j hj => simp [drop_eq_nil_of_le (Nat.le_of_not_lt hj)]

end

lemma findPayment_lt {payment : CGovernancePayment} {vout : List CTxOut} {j k : Nat}
    (h : findPayment payment vout j = some k) : k < vout.length := by
  fun_induction findPayment payment vout j with
  | case1 j hj hmatch => cases h; exact hj
  | case2 j hj hmatch ih => exact ih h
  | case3 j hj => cases h

lemma matchPayments_eq_scanFrom (vout : List CTxOut) (payments : List CGovernancePayment)
    (nVoutIndex : Nat) :
    matchPayments vout payments nVoutIndex =
      scanFrom (scheduledOutputs payments) (vout.drop nVoutIndex) := by
  induction payments generalizing nVoutIndex with
  | nil => rfl
  | cons payment payments ih =>
    rw [matchPayments, scheduledOutputs, map_cons, scanFrom, findPayment_dropWhile]
    cases hfind : findPayment payment vout nVoutIndex with
    | none => rfl
    | some j =>
      rw [Option.map_some]
      exact (ih j).trans (by rw [drop_eq_getElem_cons (findPayment_lt hfind)]; rfl)

/-- The payment loops accept exactly when the collapsed schedule is a subsequence of the
coinbase outputs. -/
lemma matchPayments_iff (vout : List CTxOut) (payments : List CGovernancePayment) :
    matchPayments vout payments 0 = true ↔ (collapse (scheduledOutputs payments)).Sublist vout := by
  rw [matchPayments_eq_scanFrom, drop_zero, scanFrom_iff]

/-! ## What acceptance says -/

section Acceptance

variable {params : Params} {payments : List CGovernancePayment} {vout : List CTxOut}
  {nBlockHeight : Nat} {blockReward : CAmount}

lemma isValid_eq_true_iff :
    isValid params payments vout nBlockHeight blockReward = some true ↔
      isValidBlockHeight params nBlockHeight = true ∧
      payments.length ≤ vout.length ∧
      getPaymentsTotalAmount payments ≤ getPaymentsLimit params nBlockHeight ∧
      ∃ nBlockValue, getValueOut vout = some nBlockValue ∧
        nBlockValue ≤ blockReward + getPaymentsTotalAmount payments ∧
        matchPayments vout payments 0 = true := by
  unfold isValid
  cases hheight : isValidBlockHeight params nBlockHeight with
  | false => simp
  | true =>
    rcases lt_or_ge vout.length payments.length with hlen | hlen
    · simp [hlen]
    rcases lt_or_ge (getPaymentsLimit params nBlockHeight) (getPaymentsTotalAmount payments)
      with hlimit | hlimit
    · simp [hlimit, hlen.not_gt]
    cases hvalue : getValueOut vout with
    | none => simp [hlen.not_gt, hlimit.not_gt]
    | some nBlockValue =>
      rcases lt_or_ge (blockReward + getPaymentsTotalAmount payments) nBlockValue
        with hblock | hblock
      · simp [hlen.not_gt, hlimit.not_gt, hblock]
      · simp [hlen, hlen.not_gt, hlimit, hlimit.not_gt, hblock, hblock.not_gt]

/-- A coinbase for the schedule can pass: superblock height, payments within the limit,
and the collapsed schedule within the block value. -/
def Payable (params : Params) (payments : List CGovernancePayment) (nBlockHeight : Nat)
    (blockReward : CAmount) : Prop :=
  isValidBlockHeight params nBlockHeight = true ∧
  getPaymentsTotalAmount payments ≤ getPaymentsLimit params nBlockHeight ∧
  ∃ nBlockValue, getValueOut (collapse (scheduledOutputs payments)) = some nBlockValue ∧
    nBlockValue ≤ blockReward + getPaymentsTotalAmount payments

lemma payable_of_isValid (h : isValid params payments vout nBlockHeight blockReward = some true) :
    Payable params payments nBlockHeight blockReward := by
  obtain ⟨hheight, -, hlimit, nBlockValue, hvalue, hle, hmatch⟩ := isValid_eq_true_iff.mp h
  obtain ⟨w, hw, hwle⟩ := getValueOut_sublist ((matchPayments_iff vout payments).mp hmatch) hvalue
  exact ⟨hheight, hlimit, w, hw, hwle.trans hle⟩

/-- The coinbase that pays the collapsed schedule and fills up with worthless outputs to
a script that no payment uses. -/
def collapsedCoinbase (payments : List CGovernancePayment) (script : CScript) : List CTxOut :=
  collapse (scheduledOutputs payments) ++
    replicate payments.length { nValue := 0, scriptPubKey := script }

lemma isValid_collapsedCoinbase (h : Payable params payments nBlockHeight blockReward)
    (script : CScript) :
    isValid params payments (collapsedCoinbase payments script) nBlockHeight blockReward =
      some true := by
  obtain ⟨hheight, hlimit, nBlockValue, hvalue, hle⟩ := h
  refine isValid_eq_true_iff.mpr ⟨hheight, ?_, hlimit, nBlockValue, ?_, hle, ?_⟩
  · simp [collapsedCoinbase]
  · refine getValueOutFrom_append_zeros (by decide) (fun out hout => ?_) hvalue
    rw [eq_of_mem_replicate hout]
  · exact (matchPayments_iff _ _).mpr (sublist_append_left _ _)

lemma not_sublist_collapsedCoinbase
    (hrun : ¬ (scheduledOutputs payments).IsChain (· ≠ ·)) {script : CScript}
    (hfresh : script ∉ payments.map CGovernancePayment.script) :
    ¬ (scheduledOutputs payments).Sublist (collapsedCoinbase payments script) := by
  refine not_sublist_collapse_append hrun fun out hout hmem => ?_
  rw [eq_of_mem_replicate hout] at hmem
  obtain ⟨payment, hpayment, heq⟩ := mem_map.mp hmem
  exact hfresh (mem_map.mpr ⟨payment, hpayment, congrArg CTxOut.scriptPubKey heq⟩)

end Acceptance

/-- **Every accepted coinbase makes every scheduled payment**, at increasing and hence
distinct output positions, exactly when no two neighbouring payments of the schedule are
equal (or no coinbase is accepted for it at all). -/
theorem isValid_subsequence_iff (params : Params) (payments : List CGovernancePayment)
    (nBlockHeight : Nat) (blockReward : CAmount) :
    (∀ vout, isValid params payments vout nBlockHeight blockReward = some true →
        (scheduledOutputs payments).Sublist vout) ↔
      (scheduledOutputs payments).IsChain (· ≠ ·) ∨
        ¬ Payable params payments nBlockHeight blockReward := by
  constructor
  · intro hall
    by_contra hnot
    rw [not_or, not_not] at hnot
    obtain ⟨hrun, hpayable⟩ := hnot
    obtain ⟨script, hfresh⟩ := Infinite.exists_notMem_finset
      (payments.map CGovernancePayment.script).toFinset
    rw [mem_toFinset] at hfresh
    exact not_sublist_collapsedCoinbase hrun hfresh
      (hall _ (isValid_collapsedCoinbase hpayable script))
  · rintro (hchain | hnot) vout hvalid
    · have hmatch := (isValid_eq_true_iff.mp hvalid).2.2.2.choose_spec.2.2
      have hsub := (matchPayments_iff vout payments).mp hmatch
      rwa [collapse, destutter_of_isChain _ _ hchain] at hsub
    · exact absurd (payable_of_isValid hvalid) hnot

/-- Two payments of one coin to one payee at the first mainnet superblock, and a coinbase
that makes only one of them. -/
theorem isValid_shares_output :
    let payment : CGovernancePayment := { script := [0x51], nAmount := coin }
    let vout : List CTxOut :=
      [{ nValue := coin, scriptPubKey := [0x51] }, { nValue := coin, scriptPubKey := [0x52] }]
    isValid mainParams [payment, payment] vout 86400 (5 * coin) = some true ∧
      ¬ (scheduledOutputs [payment, payment]).Sublist vout := by
  refine ⟨isValid_eq_true_iff.mpr ⟨by decide, by decide, ?_, 2 * coin, by decide, by decide, ?_⟩,
    by decide⟩
  · have hpart : getSuperblockSubsidyInner mainParams 86399 = 12500000 := by
      rw [getSuperblockSubsidyInner, getBlockSubsidyHelper_eq (by decide) rfl]
      rfl
    rw [getPaymentsLimit, hpart]
    decide
  · rw [matchPayments_eq_scanFrom]
    decide

end HootChain.Governance

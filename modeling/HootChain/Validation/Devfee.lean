import HootChain.Foundation.ExceptRuns
import HootChain.Primitives.Transaction
import HootChain.Validation.Subsidy

/-!
# Developer Fee (`devfee_payment.cpp`, `validation.cpp`)

A block must pay a fixed share of its subsidy to the developer address.
`CheckBlock` enforces this with the subsidy of the height it is given, and marks
a block that passed in `fChecked` so that later calls return at once.
`ProcessNewBlock` calls it with the height after the node's active tip, before
the height of the block itself is known; the later calls of `AcceptBlock` and
`ConnectBlock` with the right height then find `fChecked` set, unless the block
was read back from disk in between.
-/

namespace HootChain.Validation

open Consensus Foundation Primitives List Binary64

/-! ## The fee (`devfee_payment.cpp`) -/

structure DevfeeRewardStructure where
  blockHeight : Int
  rewardDivisor : ℚ

/-- `DevfeePayment`, with the script that `devfeeAddress` decodes to. -/
structure DevfeePayment where
  payee : CScript
  startBlock : Nat
  rewardStructures : List DevfeeRewardStructure

/-- `GetScriptForDestination` of a public key hash. -/
def scriptForKeyHash (keyHash : List UInt8) : CScript :=
  [0x76, 0xa9, 0x14] ++ keyHash ++ [0x88, 0xac]

/-- `nDevfeePayment` of the network definitions. The regtest address does not have the
address version of regtest, so it decodes to no destination and the script is empty. -/
def nDevfeePayment : Network → DevfeePayment
  | .main =>
    { payee := scriptForKeyHash [0xcb, 0xa5, 0xa8, 0x24, 0xee, 0x80, 0x41, 0x66, 0x08, 0x53, 0x03,
        0x4f, 0x7f, 0xe6, 0x4d, 0xc6, 0xdf, 0xf6, 0x1c, 0xbc]
      startBlock := 600
      rewardStructures := [⟨intMax, 19.5⟩] }
  | .test =>
    { payee := scriptForKeyHash [0xfb, 0xab, 0xf8, 0xae, 0x92, 0x55, 0x39, 0x7a, 0xb8, 0xf9, 0x28,
        0xce, 0x4b, 0x73, 0x1c, 0x4b, 0xd3, 0xbd, 0xc7, 0x33]
      startBlock := 600
      rewardStructures := [⟨intMax, 19.5⟩] }
  | .devnet =>
    { payee := scriptForKeyHash [0x3d, 0x9b, 0x3f, 0x42, 0x4e, 0x1c, 0x52, 0x33, 0x9b, 0xc3, 0xfb,
        0xe7, 0x66, 0x57, 0x22, 0x64, 0x59, 0x07, 0xc2, 0x7b]
      startBlock := 200
      rewardStructures := [⟨intMax, 19.5⟩] }
  | .regtest => { payee := [], startBlock := 50, rewardStructures := [⟨intMax, 19.5⟩] }

namespace DevfeePayment

/-- `getDevfeePaymentAmount`: the quotient is a `double`, cut to a whole amount. -/
def getDevfeePaymentAmount (devfee : DevfeePayment) (blockHeight : Nat) (blockSubsidy : CAmount) :
    CAmount :=
  if blockHeight ≤ devfee.startBlock then 0
  else
    match devfee.rewardStructures.find? fun rewardStructure =>
        rewardStructure.blockHeight == intMax || (blockHeight : Int) ≤ rewardStructure.blockHeight
      with
    | some rewardStructure =>
      trunc (div (ofInt blockSubsidy) rewardStructure.rewardDivisor)
    | none => 0

def isBlockPayeeValid (devfee : DevfeePayment) (vout : List CTxOut) (height : Nat)
    (blockSubsidy : CAmount) : Bool :=
  vout.any fun out => out.scriptPubKey == devfee.payee &&
    decide (out.nValue ≥ devfee.getDevfeePaymentAmount height blockSubsidy)

end DevfeePayment

/-! ## Blocks and `CheckBlock` -/

/-- `CTransaction`; `checkFailure` is the reject reason of `CheckTransaction`. -/
structure CTransaction where
  isCoinBase : Bool
  vout : List CTxOut
  checkFailure : Option String

/-- `CBlock`, through its transactions and the outcomes of those checks of `CheckBlock` that
do not depend on the height. -/
structure CBlock where
  vtx : List CTransaction
  headerValid : Bool
  merkleRootMatches : Bool
  merkleMutated : Bool
  sizeWithinLimits : Bool
  sigOpsWithinLimits : Bool
  fChecked : Bool

/-- The ways `CheckBlock` rejects a block. -/
inductive BlockInvalid where
  | highHash
  | badTxnMrklRoot
  | badTxnsDuplicate
  | badBlkLength
  | badCbMissing
  | badCbMultiple
  | badTransaction (reason : String)
  | badCbDevfeePaymentNotFound
  | badBlkSigops

section CheckBlock

variable (params : Params) (devfee : DevfeePayment)

/-- The developer fee check on one coinbase, at the height given to `CheckBlock`. -/
def devfeePaid (nHeight : Nat) (vout : List CTxOut) : Bool :=
  let blockSubsidy := getBlockSubsidyInner params (nHeight - 1)
  let devfeeReward := devfee.getDevfeePaymentAmount (nHeight - 1) blockSubsidy
  !(decide (nHeight > devfee.startBlock) && devfeeReward != 0 &&
    !devfee.isBlockPayeeValid vout (nHeight - 1) blockSubsidy)

/-- The loop of `CheckBlock` over the transactions. -/
def checkTransactions (nHeight : Nat) : List CTransaction → Except BlockInvalid Unit
  | [] => .ok ()
  | tx :: vtx =>
    match tx.checkFailure with
    | some reason => .error (.badTransaction reason)
    | none =>
      if tx.isCoinBase && !devfeePaid params devfee nHeight tx.vout then
        .error .badCbDevfeePaymentNotFound
      else
        checkTransactions nHeight vtx

/-- `CheckBlock`: the block with `fChecked` updated. -/
def checkBlock (block : CBlock) (nHeight : Nat) (fCheckPOW fCheckMerkleRoot : Bool) :
    Except BlockInvalid CBlock := do
  if block.fChecked then return block
  if fCheckPOW && !block.headerValid then throw .highHash
  if fCheckMerkleRoot then
    if !block.merkleRootMatches then throw .badTxnMrklRoot
    if block.merkleMutated then throw .badTxnsDuplicate
  if block.vtx.isEmpty || !block.sizeWithinLimits then throw .badBlkLength
  if block.vtx.isEmpty || !(block.vtx.head?.any CTransaction.isCoinBase) then throw .badCbMissing
  if block.vtx.tail.any CTransaction.isCoinBase then throw .badCbMultiple
  checkTransactions params devfee nHeight block.vtx
  if !block.sigOpsWithinLimits then throw .badBlkSigops
  return { block with fChecked := block.fChecked || (fCheckPOW && fCheckMerkleRoot) }

end CheckBlock

/-! ## From `ProcessNewBlock` to `ConnectBlock` -/

/-- Where `ConnectBlock` gets the block from: the object `ProcessNewBlock` was given, or the
block files, whose blocks come without `fChecked`. -/
inductive BlockSource where
  | memory
  | disk

/-- A node when it receives the block: the height of its active tip, and where it will
connect the block from. -/
structure Receiver where
  tipHeight : Nat
  source : BlockSource

/-- The calls of `CheckBlock` on the way of a block at `height` through `ProcessNewBlock`,
`AcceptBlock` and `ConnectBlock`. -/
def receiveAndConnect (params : Params) (devfee : DevfeePayment) (node : Receiver) (height : Nat)
    (block : CBlock) : Except BlockInvalid CBlock := do
  let block ← checkBlock params devfee block (node.tipHeight + 1) true true
  let block ← checkBlock params devfee block height true true
  match node.source with
  | .memory => checkBlock params devfee block height true true
  | .disk => checkBlock params devfee { block with fChecked := false } height true true

/-! ## The amount due -/

/-- The amount the check at height `nHeight` asks for, if any. -/
def devfeeDue (params : Params) (devfee : DevfeePayment) (nHeight : Nat) : Option CAmount :=
  let amount := devfee.getDevfeePaymentAmount (nHeight - 1)
    (getBlockSubsidyInner params (nHeight - 1))
  if nHeight > devfee.startBlock ∧ amount ≠ 0 then some amount else none

/-- An output pays the amount due to the payee, or nothing is due. -/
def paysDue (payee : CScript) (due : Option CAmount) (vout : List CTxOut) : Prop :=
  ∀ amount ∈ due, ∃ out ∈ vout, out.scriptPubKey = payee ∧ amount ≤ out.nValue

/-- `due` asks for no more than `due'`. -/
def DueLe (due due' : Option CAmount) : Prop := ∀ amount ∈ due, ∃ amount' ∈ due', amount ≤ amount'

section Due

variable {params : Params} {devfee : DevfeePayment}

lemma devfeePaid_iff {nHeight : Nat} {vout : List CTxOut} :
    devfeePaid params devfee nHeight vout = true ↔
      paysDue devfee.payee (devfeeDue params devfee nHeight) vout := by
  unfold devfeePaid devfeeDue paysDue DevfeePayment.isBlockPayeeValid
  by_cases hdue : nHeight > devfee.startBlock ∧
      devfee.getDevfeePaymentAmount (nHeight - 1) (getBlockSubsidyInner params (nHeight - 1)) ≠ 0
  · simp [hdue.1, hdue.2]
  · rcases not_and_or.mp hdue with hstart | hzero
    · simp [hstart]
    · simp [not_not.mp hzero]

/-- Paying `due'` implies paying `due`, for all coinbases, exactly when `due` is no more. -/
lemma forall_paysDue_imp_iff (payee : CScript) (due due' : Option CAmount) :
    (∀ vout, paysDue payee due' vout → paysDue payee due vout) ↔ DueLe due due' := by
  constructor
  · intro h amount hamount
    cases due' with
    | none =>
      obtain ⟨out, hout, -⟩ := h [] (fun _ hm => nomatch hm) amount hamount
      cases hout
    | some amount' =>
      -- a coinbase that pays exactly `amount'`
      have hpays : paysDue payee (some amount') [⟨amount', payee⟩] := by
        intro a ha
        cases ha
        exact ⟨_, mem_singleton.mpr rfl, rfl, le_rfl⟩
      obtain ⟨out, hout, -, hle⟩ := h _ hpays amount hamount
      rw [mem_singleton.mp hout] at hle
      exact ⟨amount', rfl, hle⟩
  · intro hle vout hpays amount hamount
    obtain ⟨amount', hamount', hle⟩ := hle amount hamount
    obtain ⟨out, hout, hpayee, hval⟩ := hpays amount' hamount'
    exact ⟨out, hout, hpayee, hle.trans hval⟩

lemma DueLe.antisymm {due due' : Option CAmount} (h : DueLe due due') (h' : DueLe due' due) :
    due = due' := by
  cases due with
  | none =>
    cases due' with
    | none => rfl
    | some amount' =>
      obtain ⟨amount, hamount, -⟩ := h' amount' rfl
      cases hamount
  | some amount =>
    obtain ⟨amount', hamount', hle⟩ := h amount rfl
    cases hamount'
    obtain ⟨_, hmem, hle'⟩ := h' amount' rfl
    cases hmem
    rw [le_antisymm hle hle']

end Due

/-! ## The verdict of a node -/

/-- A fresh block that passes every check of `CheckBlock` but the developer fee, with the
given coinbase outputs. -/
structure PassesOtherChecks (block : CBlock) (vout : List CTxOut) : Prop where
  fresh : block.fChecked = false
  header : block.headerValid = true
  merkleRoot : block.merkleRootMatches = true
  notMutated : block.merkleMutated = false
  size : block.sizeWithinLimits = true
  sigOps : block.sigOpsWithinLimits = true
  coinbase : ∃ rest, block.vtx = ⟨true, vout, none⟩ :: rest ∧
    ∀ tx ∈ rest, tx.isCoinBase = false ∧ tx.checkFailure = none

section Verdict

variable {params : Params} {devfee : DevfeePayment} {block : CBlock} {vout : List CTxOut}

lemma checkTransactions_of_not_coinbase {nHeight : Nat} {rest : List CTransaction}
    (h : ∀ tx ∈ rest, tx.isCoinBase = false ∧ tx.checkFailure = none) :
    checkTransactions params devfee nHeight rest = .ok () := by
  induction rest with
  | nil => rfl
  | cons tx rest ih =>
    obtain ⟨hcb, hfail⟩ := h tx mem_cons_self
    rw [checkTransactions, hfail, hcb]
    exact ih fun tx' h' => h tx' (mem_cons_of_mem _ h')

/-- `CheckBlock` on such a block is the developer fee check. -/
lemma checkBlock_of_passes (h : PassesOtherChecks block vout) (nHeight : Nat) :
    checkBlock params devfee block nHeight true true =
      if devfeePaid params devfee nHeight vout then .ok { block with fChecked := true }
      else .error .badCbDevfeePaymentNotFound := by
  obtain ⟨rest, hvtx, hrest⟩ := h.coinbase
  have hmultiple : rest.any CTransaction.isCoinBase = false := by
    simpa using fun tx htx => (hrest tx htx).1
  have hloop : checkTransactions params devfee nHeight block.vtx =
      if devfeePaid params devfee nHeight vout then .ok ()
      else .error .badCbDevfeePaymentNotFound := by
    rw [hvtx, checkTransactions]
    cases devfeePaid params devfee nHeight vout with
    | false => rfl
    | true => exact checkTransactions_of_not_coinbase hrest
  unfold checkBlock
  rw [hloop]
  cases devfeePaid params devfee nHeight vout <;>
    simp [h.fresh, h.header, h.merkleRoot, h.notMutated, h.size, h.sigOps, hvtx, hmultiple]

lemma checkBlock_of_fChecked (h : block.fChecked = true) (nHeight : Nat) :
    checkBlock params devfee block nHeight true true = .ok block := by
  unfold checkBlock
  rw [if_pos h]
  rfl

/-- A block passes exactly if it pays the amount due after the node's tip and, when it is
read back from disk, also the amount due at its own height. -/
lemma receiveAndConnect_isOk (h : PassesOtherChecks block vout) (node : Receiver) (height : Nat) :
    (receiveAndConnect params devfee node height block).isOk = true ↔
      paysDue devfee.payee (devfeeDue params devfee (node.tipHeight + 1)) vout ∧
      (node.source = .disk → paysDue devfee.payee (devfeeDue params devfee height) vout) := by
  rw [← devfeePaid_iff, ← devfeePaid_iff]
  unfold receiveAndConnect
  rw [checkBlock_of_passes h]
  cases devfeePaid params devfee (node.tipHeight + 1) vout with
  | false => simp
  | true =>
    have hskip : checkBlock params devfee { block with fChecked := true } height true true =
        .ok { block with fChecked := true } := checkBlock_of_fChecked rfl height
    have hback : ({ block with fChecked := false } : CBlock) = block := by
      cases block
      simpa using h.fresh.symm
    cases hsource : node.source with
    | memory => simp [hskip]
    | disk =>
      simp only [if_true, Bind.bind, Except.bind, hskip, hback, checkBlock_of_passes h]
      cases devfeePaid params devfee height vout <;> simp

end Verdict

/-- The node's tip does not make the check ask for another amount than the block's own
height: for a block connected from memory the amounts are equal, for one read back from disk
the amount after the tip is no larger. -/
def TipDueMatches (params : Params) (devfee : DevfeePayment) (height : Nat) (node : Receiver) :
    Prop :=
  match node.source with
  | .memory => devfeeDue params devfee (node.tipHeight + 1) = devfeeDue params devfee height
  | .disk => DueLe (devfeeDue params devfee (node.tipHeight + 1)) (devfeeDue params devfee height)

/-- A block that is valid but for its coinbase outputs. -/
def blockPaying (vout : List CTxOut) : CBlock :=
  { vtx := [⟨true, vout, none⟩], headerValid := true, merkleRootMatches := true
    merkleMutated := false, sizeWithinLimits := true, sigOpsWithinLimits := true
    fChecked := false }

lemma blockPaying_passes (vout : List CTxOut) : PassesOtherChecks (blockPaying vout) vout :=
  ⟨rfl, rfl, rfl, rfl, rfl, rfl, [], rfl, fun _ h => nomatch h⟩

/-- One node decides as its block's own height demands exactly when the amounts match. -/
lemma verdict_iff_tipDueMatches (params : Params) (devfee : DevfeePayment) (height : Nat)
    (node : Receiver) :
    (∀ block vout, PassesOtherChecks block vout →
      ((receiveAndConnect params devfee node height block).isOk = true ↔
        devfeePaid params devfee height vout = true)) ↔
      TipDueMatches params devfee height node := by
  have hcoinbases : (∀ block vout, PassesOtherChecks block vout →
      ((receiveAndConnect params devfee node height block).isOk = true ↔
        devfeePaid params devfee height vout = true)) ↔
      ∀ vout, (paysDue devfee.payee (devfeeDue params devfee (node.tipHeight + 1)) vout ∧
        (node.source = .disk → paysDue devfee.payee (devfeeDue params devfee height) vout)) ↔
        paysDue devfee.payee (devfeeDue params devfee height) vout := by
    simp only [devfeePaid_iff]
    constructor
    · intro h vout
      exact (receiveAndConnect_isOk (blockPaying_passes vout) node height).symm.trans
        (h _ vout (blockPaying_passes vout))
    · intro h block vout hpasses
      rw [receiveAndConnect_isOk hpasses]
      exact h vout
  rw [hcoinbases, TipDueMatches]
  cases node.source with
  | memory =>
    simp only [reduceCtorEq, false_implies, and_true]
    constructor
    · intro h
      exact DueLe.antisymm ((forall_paysDue_imp_iff devfee.payee _ _).mp fun vout => (h vout).mpr)
        ((forall_paysDue_imp_iff devfee.payee _ _).mp fun vout => (h vout).mp)
    · intro h vout
      rw [h]
  | disk =>
    simp only [forall_const, and_iff_right_iff_imp]
    exact forall_paysDue_imp_iff devfee.payee _ _

/-- **The developer fee across nodes.** Two nodes that receive a block at `height` both accept
it exactly when its coinbase pays what is due at that height, for every block, if and only
if neither node's tip changes the amount asked for. -/
theorem devfee_verdict_iff (params : Params) (devfee : DevfeePayment) (height : Nat)
    (node node' : Receiver) :
    (∀ block vout, PassesOtherChecks block vout →
      ((receiveAndConnect params devfee node height block).isOk = true ↔
        devfeePaid params devfee height vout = true) ∧
      ((receiveAndConnect params devfee node' height block).isOk = true ↔
        devfeePaid params devfee height vout = true)) ↔
      TipDueMatches params devfee height node ∧ TipDueMatches params devfee height node' := by
  rw [← verdict_iff_tipDueMatches, ← verdict_iff_tipDueMatches]
  simp [← forall_and]

/-! ## Amounts on the real networks -/

/-- With the divisor 19.5 the fee is two thirty-ninths of the subsidy, cut to a whole
amount: the `double` quotient introduces no error. -/
lemma getDevfeePaymentAmount_standard {payee : CScript} {startBlock blockHeight n : ℕ}
    (hstart : startBlock < blockHeight) (hn : n < 2 ^ 52) :
    (DevfeePayment.mk payee startBlock [⟨intMax, 19.5⟩]).getDevfeePaymentAmount blockHeight
      (n : ℤ) = ((2 * n / 39 : ℕ) : ℤ) := by
  have hbig : |(n : ℤ)| < 2 ^ 53 := by
    rw [abs_of_nonneg (by positivity)]
    omega
  have hratio : ((n : ℤ) : ℚ) / 19.5 = ((2 * n : ℕ) : ℚ) / (39 : ℕ) := by
    push_cast
    ring
  unfold DevfeePayment.getDevfeePaymentAmount
  rw [if_neg (by simpa using hstart)]
  simp only [find?_cons, BEq.rfl, Bool.true_or]
  rw [div, ofInt_eq hbig, hratio, trunc_fl_ratio (by norm_num) (by omega)]

/-- Nothing is due on mainnet up to height 601, and 0.25 coins at height 602. -/
lemma devfeeDue_main_start :
    devfeeDue mainParams (nDevfeePayment .main) 601 = none ∧
      devfeeDue mainParams (nDevfeePayment .main) 602 = some 25000000 := by
  have hsubsidy : getBlockSubsidyInner mainParams 601 = ((487500000 : ℕ) : ℤ) := by
    rw [getBlockSubsidyInner, getBlockSubsidyHelper_eq (by decide) rfl]
    rfl
  constructor
  · rfl
  · unfold devfeeDue
    rw [hsubsidy, nDevfeePayment, getDevfeePaymentAmount_standard (by decide) (by decide)]
    rfl

/-- A coinbase without the developer fee at mainnet height 602: a node with its tip at
height 600 that connects the block from memory accepts it, a node with its tip at height
601 rejects it. -/
theorem devfee_verdicts_differ :
    let block := blockPaying [⟨5 * coin, [0x51]⟩]
    let devfee := nDevfeePayment .main
    PassesOtherChecks block [⟨5 * coin, [0x51]⟩] ∧
      (receiveAndConnect mainParams devfee ⟨600, .memory⟩ 602 block).isOk = true ∧
      (receiveAndConnect mainParams devfee ⟨601, .memory⟩ 602 block).isOk = false ∧
      devfeePaid mainParams devfee 602 [⟨5 * coin, [0x51]⟩] = false := by
  have hpasses := blockPaying_passes [⟨5 * coin, [0x51]⟩]
  have hunpaid : ¬ paysDue (nDevfeePayment .main).payee
      (devfeeDue mainParams (nDevfeePayment .main) 602) [⟨5 * coin, [0x51]⟩] := by
    rw [devfeeDue_main_start.2]
    intro h
    obtain ⟨out, hout, hpayee, -⟩ := h 25000000 rfl
    rw [mem_singleton.mp hout] at hpayee
    exact absurd hpayee (by decide)
  refine ⟨hpasses, ?_, ?_, ?_⟩
  · rw [receiveAndConnect_isOk hpasses]
    exact ⟨fun _ h => (nomatch h), fun h => (nomatch h)⟩
  · rw [← Bool.not_eq_true, receiveAndConnect_isOk hpasses]
    exact fun h => hunpaid h.1
  · rw [← Bool.not_eq_true, devfeePaid_iff]
    exact hunpaid

end HootChain.Validation

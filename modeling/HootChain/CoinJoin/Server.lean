import HootChain.Script.Standard

/-!
# Collaterals of Mixing Sessions (`coinjoin/coinjoin.cpp`)

A participant of a session first sends a collateral, which `IsCollateralValid` looks at.
-/

namespace HootChain.CoinJoin

open Consensus Primitives Script List

structure CTxIn where
  prevout : COutPoint
  scriptSig : CScript
  nSequence : BitVec 32

structure CTransaction where
  vin : List CTxIn
  vout : List CTxOut
  nLockTime : BitVec 32 := 0

/-! ## Collaterals -/

/-- `GetCollateralAmount`, a tenth of the smallest denomination. -/
def collateralAmount : CAmount := (coin / 1000 + 1) / 10

/-- `IsUnspendable`, with `MAX_SCRIPT_SIZE`. -/
def isUnspendable (script : CScript) : Bool :=
  script.head? == some opReturn || decide (10000 < script.length)

/-- What `IsCollateralValid` asks of the node. -/
structure CollateralView where
  mempoolGet : Uint256 → Option CTransaction
  isSpent : COutPoint → Bool
  isLocked : Uint256 → Bool
  getUTXOCoin : COutPoint → Option CTxOut
  /-- `ATMPIfSaneFee` with `test_accept`. -/
  testAccept : CTransaction → Bool

/-- How the loop over the inputs ends early. -/
inductive Halt where
  | rejected
  /-- The vector of outputs is read without a bound check. -/
  | pastTheEnd

/-- The value of an input, as the loop over the inputs adds it. -/
def inputValue (view : CollateralView) (prevout : COutPoint) : Except Halt CAmount :=
  match view.mempoolGet prevout.hash with
  | some mempoolTx =>
    if view.isSpent prevout || !view.isLocked prevout.hash then .error .rejected
    else
      match mempoolTx.vout[prevout.n]? with
      | some out => .ok out.nValue
      | none => .error .pastTheEnd
  | none =>
    match view.getUTXOCoin prevout with
    | some out => .ok out.nValue
    | none => .error .rejected

/-- `IsCollateralValid`; `none` where it reads past the end of a vector. The sums wrap. -/
def isCollateralValid (view : CollateralView) (txCollateral : CTransaction) : Option Bool :=
  if txCollateral.vout = [] ∨ txCollateral.nLockTime ≠ 0 then some false
  else if ∃ out ∈ txCollateral.vout,
      isPayToPublicKeyHash out.scriptPubKey = false ∧ isUnspendable out.scriptPubKey = false then
    some false
  else
    match txCollateral.vin.mapM (inputValue view ·.prevout) with
    | .error .rejected => some false
    | .error .pastTheEnd => none
    | .ok values =>
      let fee := values.sum - (txCollateral.vout.map CTxOut.nValue).sum
      if fee.bmod (2 ^ 64) < collateralAmount then some false
      else some (view.testAccept txCollateral)

section Collateral

variable {view : CollateralView} {prevout : COutPoint}

section

variable (view : CollateralView) (prevout : COutPoint)

/-- An input that is spent, not locked or unknown. -/
def Refused : Prop :=
  if (view.mempoolGet prevout.hash).isSome then
    view.isSpent prevout = true ∨ view.isLocked prevout.hash = false
  else view.getUTXOCoin prevout = none

/-- The locked parent of an unspent input in the pool has the output. -/
def HasOutput : Prop :=
  ∀ parent, view.mempoolGet prevout.hash = some parent → ¬ Refused view prevout →
    prevout.n < parent.vout.length

lemma inputValue_cases :
    match inputValue view prevout with
    | .ok _ => HasOutput view prevout ∧ ¬ Refused view prevout
    | .error .rejected => Refused view prevout
    | .error .pastTheEnd => ¬ HasOutput view prevout := by
  unfold inputValue
  cases hget : view.mempoolGet prevout.hash with
  | none =>
    cases hcoin : view.getUTXOCoin prevout with
    | none => simp [Refused, hget, hcoin]
    | some out => simp [Refused, HasOutput, hget, hcoin]
  | some parent =>
    dsimp only
    split_ifs with hrefused
    · simpa [Refused, hget] using hrefused
    · have hopen : ¬ Refused view prevout := by simpa [Refused, hget] using hrefused
      cases hout : parent.vout[prevout.n]? with
      | none => simpa [HasOutput, hget, hopen] using getElem?_eq_none_iff.mp hout
      | some out =>
        refine ⟨fun parent' hparent' _ => ?_, hopen⟩
        cases hget.symm.trans hparent'
        exact (List.getElem?_eq_some_iff.mp hout).1

end

/-- The parent of every input that the loop reaches has the output. -/
def ReadsInRange (view : CollateralView) : List CTxIn → Prop
  | [] => True
  | txin :: vin =>
    HasOutput view txin.prevout ∧ (¬ Refused view txin.prevout → ReadsInRange view vin)

lemma mapM_inputValue_iff {vin : List CTxIn} :
    vin.mapM (inputValue view ·.prevout) ≠ .error .pastTheEnd ↔ ReadsInRange view vin := by
  induction vin with
  | nil => simp [ReadsInRange, pure, Except.pure]
  | cons txin vin ih =>
    have hcases := inputValue_cases view txin.prevout
    rw [ReadsInRange, ← ih, mapM_cons]
    cases hvalue : inputValue view txin.prevout with
    | ok value =>
      rw [hvalue] at hcases
      cases vin.mapM (inputValue view ·.prevout) <;>
        simp [hcases, bind, Except.bind, pure, Except.pure]
    | error halt =>
      rw [hvalue] at hcases
      cases halt with
      | rejected => simp [hcases, HasOutput, bind, Except.bind]
      | pastTheEnd => simp [hcases, bind, Except.bind]

/-- **Collaterals**: only outputs that exist are read exactly if the outputs of the collateral
are refused, or the inputs do not reach past the end. -/
theorem isSome_isCollateralValid_iff (view : CollateralView) (txCollateral : CTransaction) :
    (isCollateralValid view txCollateral).isSome ↔
      (txCollateral.vout = [] ∨ txCollateral.nLockTime ≠ 0) ∨ (∃ out ∈ txCollateral.vout,
        isPayToPublicKeyHash out.scriptPubKey = false ∧ isUnspendable out.scriptPubKey = false) ∨
      ReadsInRange view txCollateral.vin := by
  rw [← mapM_inputValue_iff, isCollateralValid]
  split_ifs with hearly hscript
  · exact iff_of_true rfl (.inl hearly)
  · exact iff_of_true rfl (.inr (.inl hscript))
  · rw [or_iff_right hearly, or_iff_right hscript]
    cases txCollateral.vin.mapM (inputValue view ·.prevout) with
    | ok values =>
      dsimp only
      split_ifs <;> simp
    | error halt => cases halt <;> simp

/-- A locked parent with one output in the pool. -/
def lockedParent : CollateralView where
  mempoolGet hash := if hash = 7 then some { vin := [], vout := [⟨coin, []⟩] } else none
  isSpent _ := false
  isLocked _ := true
  getUTXOCoin _ := none
  testAccept _ := true

/-- A collateral that spends the second output of the parent, which does not exist. -/
theorem isCollateralValid_pastTheEnd : isCollateralValid lockedParent
    { vin := [⟨⟨7, 1⟩, [], 0⟩], vout := [⟨0, [opReturn]⟩] } = none := by
  decide

end Collateral

end HootChain.CoinJoin

import HootChain.Chain
import HootChain.Primitives.Transaction
import HootChain.Serialize.VarInt

/-!
# The ChainLock of the Coinbase (`evo/cbtx.cpp`)

From V20 on a coinbase carries the best ChainLock its miner knows: a signature, and the
height of the locked block relative to the block before the coinbase.
`CheckCbTxBestChainlock` reads the coinbase it compares with from the block under
check, not from its predecessor.
-/

namespace HootChain.Evo.CbTx

open Chain Primitives Serialize

/-! ## Data -/

/-- `CBLSSignature`: `none` where `IsValid` is false. `SetByteVector` resets the object
for bytes that are no signature, so all invalid signatures are equal. -/
abbrev CBLSSignature := Option Nat

namespace CBLSSignature

def isValid (sig : CBLSSignature) : Bool := sig.isSome

end CBLSSignature

def clsigAndBalance : Nat := 3

/-- `CCbTx`: the fields that the check reads. -/
structure CCbTx where
  nVersion : Nat := clsigAndBalance
  bestCLHeightDiff : UInt32 := 0
  bestCLSignature : CBLSSignature := none

/-- The type and payload of a coinbase. -/
inductive CoinbasePayload where
  /-- `nType` is not `TRANSACTION_COINBASE`. -/
  | classical
  | undecodable
  | cbTx (payload : CCbTx)

structure CBlock where
  hash : Uint256
  coinbase : CoinbasePayload

structure CChainLockSig where
  nHeight : Int := -1
  blockHash : Uint256 := 0
  sig : CBLSSignature := none
  deriving DecidableEq

/-- What the check uses of `CChainLocksHandler`. -/
structure CChainLocksHandler where
  bestChainLock : CChainLockSig
  verifyChainLock : CChainLockSig → Bool

/-! ## `GetNonNullCoinbaseChainlock` -/

/-- `ReadBlockFromDisk`, which compares the hash of what it reads with that of the index.
A block that is only tested is not stored. -/
def readBlockFromDisk (stored : Chain.CBlockIndex CBlock → Bool) (pindex : Chain.CBlockIndex CBlock) :
    Option CBlock :=
  if stored pindex then some pindex.block else none

/-- `GetTxPayload<CCbTx>` of the coinbase. -/
def CBlock.getCbTx (block : CBlock) : Option CCbTx :=
  match block.coinbase with
  | .cbTx cbTx => some cbTx
  | .classical | .undecodable => none

/-- The ChainLock that the coinbase of a block carries. -/
def CBlock.chainlock (block : CBlock) : Option (CBLSSignature × UInt32) := do
  let cbTx ← block.getCbTx
  if cbTx.nVersion < clsigAndBalance then none
  else if ¬ cbTx.bestCLSignature.isValid then none
  else some (cbTx.bestCLSignature, cbTx.bestCLHeightDiff)

def getNonNullCoinbaseChainlock (stored : Chain.CBlockIndex CBlock → Bool)
    (pindex : Chain.CBlockIndex CBlock) : Option (CBLSSignature × UInt32) := do
  let block ← readBlockFromDisk stored pindex
  block.chainlock

/-! ## `CheckCbTxBestChainlock` -/

/-- `pindex->nHeight - static_cast<int>(diff) - 1`. -/
def chainlockHeight (nHeight : Nat) (diff : UInt32) : Int :=
  toInt32 (nHeight - toInt32 diff.toNat - 1)

/-- The comparison with the coinbase read from disk. -/
def checkNotOlder (prevBlockCoinbaseChainlock : Option (CBLSSignature × UInt32)) (nHeight : Nat)
    (cbTx : CCbTx) : Except Failure Unit :=
  match prevBlockCoinbaseChainlock with
  | none => .ok ()
  | some (_, prevDiff) =>
    if ¬ cbTx.bestCLSignature.isValid then
      .error (.invalid "bad-cbtx-null-clsig")
    else if chainlockHeight nHeight cbTx.bestCLHeightDiff < chainlockHeight nHeight prevDiff then
      .error (.invalid "bad-cbtx-older-clsig")
    else
      .ok ()

/-- The ChainLock of the coinbase is the best one the node knows. -/
def matchesBest (best : CChainLockSig) (nHeight : Nat) (cbTx : CCbTx) : Prop :=
  best.nHeight = chainlockHeight nHeight cbTx.bestCLHeightDiff ∧ best.sig = cbTx.bestCLSignature

instance (best : CChainLockSig) (nHeight : Nat) (cbTx : CCbTx) :
    Decidable (matchesBest best nHeight cbTx) :=
  inferInstanceAs (Decidable (_ ∧ _))

/-- `GetBlockHash` of the null pointer. -/
def nullAncestor : Failure :=
  .crash (.nullPointer "pindex->GetAncestor(curBlockCoinbaseCLHeight)->GetBlockHash()")

/-- The verification of the signature. -/
def checkSignature (handler : CChainLocksHandler) (pindex : Chain.CBlockIndex CBlock) (cbTx : CCbTx) :
    Except Failure Unit :=
  if cbTx.bestCLSignature.isValid then
    if matchesBest handler.bestChainLock pindex.nHeight cbTx then
      .ok ()
    else
      match pindex.getAncestor (chainlockHeight pindex.nHeight cbTx.bestCLHeightDiff) with
      | .error crash => .error (.crash crash)
      | .ok none => .error nullAncestor
      | .ok (some ancestor) =>
        if handler.verifyChainLock ⟨chainlockHeight pindex.nHeight cbTx.bestCLHeightDiff,
            ancestor.block.hash, cbTx.bestCLSignature⟩ then
          .ok ()
        else
          .error (.invalid "bad-cbtx-invalid-clsig")
  else if cbTx.bestCLHeightDiff ≠ 0 then
    .error (.invalid "bad-cbtx-cldiff")
  else
    .ok ()

/-- `CheckCbTxBestChainlock` for the block of `pindex`. -/
def checkCbTxBestChainlock (handler : CChainLocksHandler) (stored : Chain.CBlockIndex CBlock → Bool)
    (pindex : Chain.CBlockIndex CBlock) : Except Failure Unit :=
  match pindex.block.coinbase with
  | .classical => .ok ()
  | .undecodable => .error (.invalid "bad-cbtx-payload")
  | .cbTx cbTx =>
    if cbTx.nVersion < clsigAndBalance then
      .ok ()
    else if handler.bestChainLock.nHeight = pindex.nHeight - 1 ∧ cbTx.bestCLHeightDiff = 0 ∧
        cbTx.bestCLSignature = handler.bestChainLock.sig then
      .ok ()
    else do
      checkNotOlder (getNonNullCoinbaseChainlock stored pindex) pindex.nHeight cbTx
      checkSignature handler pindex cbTx

/-! ## What the check comes to -/

lemma chainlock_eq_some_iff {block : CBlock} {sig : CBLSSignature} {diff : UInt32} :
    block.chainlock = some (sig, diff) ↔
      ∃ cbTx, block.coinbase = .cbTx cbTx ∧ clsigAndBalance ≤ cbTx.nVersion ∧
        cbTx.bestCLSignature.isValid = true ∧ cbTx.bestCLSignature = sig ∧
        cbTx.bestCLHeightDiff = diff := by
  unfold CBlock.chainlock CBlock.getCbTx
  cases hcoinbase : block.coinbase with
  | classical | undecodable => simp
  | cbTx cbTx =>
    by_cases hversion : cbTx.nVersion < clsigAndBalance
    · simp [hversion]
    · by_cases hvalid : cbTx.bestCLSignature.isValid = true
      · simp [hversion, hvalid, not_lt.mp hversion]
      · simp [hversion, hvalid]

variable {pindex : Chain.CBlockIndex CBlock} {cbTx : CCbTx} {nHeight : Nat}
  {handler : CChainLocksHandler}

/-- The coinbase is compared with itself. -/
lemma checkNotOlder_self (stored : Chain.CBlockIndex CBlock → Bool)
    (hcoinbase : pindex.block.coinbase = .cbTx cbTx) :
    checkNotOlder (getNonNullCoinbaseChainlock stored pindex) pindex.nHeight cbTx = .ok () := by
  cases hread : getNonNullCoinbaseChainlock stored pindex with
  | none => rfl
  | some carried =>
    obtain ⟨sig, diff⟩ := carried
    have hcarried : pindex.block.chainlock = some (sig, diff) := by
      unfold getNonNullCoinbaseChainlock readBlockFromDisk at hread
      split at hread
      · simpa using hread
      · nomatch hread
    obtain ⟨cbTx', hcoinbase', -, hvalid, -, rfl⟩ := chainlock_eq_some_iff.mp hcarried
    obtain rfl : cbTx = cbTx' := by
      rw [hcoinbase] at hcoinbase'
      exact CoinbasePayload.cbTx.inj hcoinbase'
    simp [checkNotOlder, hvalid]

lemma chainlockHeight_zero (hheight : nHeight < 2 ^ 31) :
    chainlockHeight nHeight 0 = nHeight - 1 := by
  have hcast : toInt32 (0 : UInt32).toNat = 0 := by decide
  rw [chainlockHeight, toInt32_eq_self (by omega) (by omega)]
  omega

/-- Neither the comparison with the coinbase on disk nor the first shortcut has an effect
of its own: what counts is the signature. -/
lemma checkCbTxBestChainlock_eq (handler : CChainLocksHandler)
    (stored : Chain.CBlockIndex CBlock → Bool) (pindex : BlockIndex CBlock)
    (hcoinbase : pindex.node.block.coinbase = .cbTx cbTx)
    (hversion : clsigAndBalance ≤ cbTx.nVersion) :
    checkCbTxBestChainlock handler stored pindex.node =
      checkSignature handler pindex.node cbTx := by
  unfold checkCbTxBestChainlock
  rw [hcoinbase]
  dsimp only
  rw [if_neg (not_lt.mpr hversion), checkNotOlder_self stored hcoinbase]
  by_cases hshortcut : handler.bestChainLock.nHeight = pindex.node.nHeight - 1 ∧
      cbTx.bestCLHeightDiff = 0 ∧ cbTx.bestCLSignature = handler.bestChainLock.sig
  · rw [if_pos hshortcut]
    obtain ⟨hheight, hdiff, hsig⟩ := hshortcut
    -- the best ChainLock is for the previous block, which the second shortcut covers
    have hmatches : matchesBest handler.bestChainLock pindex.node.nHeight cbTx := by
      refine ⟨?_, hsig.symm⟩
      rw [hdiff, chainlockHeight_zero pindex.height_lt, hheight]
    unfold checkSignature
    simp [hmatches, hdiff]
  · rw [if_neg hshortcut]
    rfl

/-! ## Null ancestors -/

/-- The locked height lies in the chain of the block exactly if the difference, as an
`int`, is between `-1` and the height below the block. -/
lemma chainlockHeight_mem_iff (hheight : nHeight < 2 ^ 31) (diff : UInt32) :
    (0 ≤ chainlockHeight nHeight diff ∧ chainlockHeight nHeight diff ≤ nHeight) ↔
      -1 ≤ toInt32 diff.toNat ∧ toInt32 diff.toNat < nHeight := by
  unfold chainlockHeight toInt32
  simp only [Int.bmod_def]
  split_ifs <;> omega

lemma checkSignature_of_matches (hvalid : cbTx.bestCLSignature.isValid = true)
    (hmatches : matchesBest handler.bestChainLock pindex.nHeight cbTx) :
    checkSignature handler pindex cbTx = .ok () := by
  rw [checkSignature, if_pos hvalid, if_pos hmatches]

lemma checkSignature_of_outside {pindex : BlockIndex CBlock}
    (hvalid : cbTx.bestCLSignature.isValid = true)
    (hmatches : ¬ matchesBest handler.bestChainLock pindex.node.nHeight cbTx)
    (hout : ¬ (-1 ≤ toInt32 cbTx.bestCLHeightDiff.toNat ∧
      toInt32 cbTx.bestCLHeightDiff.toNat < pindex.node.nHeight)) :
    checkSignature handler pindex.node cbTx = .error nullAncestor := by
  rw [← chainlockHeight_mem_iff pindex.height_lt] at hout
  obtain ⟨hlo, hhi, -⟩ | ⟨-, hfound⟩ := pindex.built.getAncestor
    (chainlockHeight pindex.node.nHeight cbTx.bestCLHeightDiff)
  · exact absurd ⟨hlo, hhi⟩ hout
  · rw [checkSignature, if_pos hvalid, if_neg hmatches, hfound]

lemma checkSignature_returns_iff (handler : CChainLocksHandler) (pindex : BlockIndex CBlock)
    (cbTx : CCbTx) :
    (∀ crash, checkSignature handler pindex.node cbTx ≠ .error (.crash crash)) ↔
      (cbTx.bestCLSignature.isValid = true →
        matchesBest handler.bestChainLock pindex.node.nHeight cbTx ∨
          (-1 ≤ toInt32 cbTx.bestCLHeightDiff.toNat ∧
            toInt32 cbTx.bestCLHeightDiff.toNat < pindex.node.nHeight)) := by
  constructor
  · intro hreturns hvalid
    by_contra hnot
    obtain ⟨hmatches, hout⟩ := not_or.mp hnot
    exact hreturns _ (checkSignature_of_outside hvalid hmatches hout)
  · intro hcond crash
    by_cases hvalid : cbTx.bestCLSignature.isValid = true
    · obtain hmatches | hin := hcond hvalid
      · simp [checkSignature_of_matches hvalid hmatches]
      · -- the walk ends at an ancestor, and only the signature can be wrong
        rw [← chainlockHeight_mem_iff pindex.height_lt] at hin
        obtain ⟨-, -, a, -, -, hfound⟩ | ⟨hout, -⟩ := pindex.built.getAncestor
          (chainlockHeight pindex.node.nHeight cbTx.bestCLHeightDiff)
        · rw [checkSignature, hfound]
          dsimp only
          split_ifs <;> simp
        · exact absurd hin hout
    · rw [checkSignature]
      split_ifs <;> simp

/-- **When the check returns a verdict.** A valid signature has to come with a difference
that leads to the block or an ancestor, or to be that of the best known ChainLock. -/
theorem checkCbTxBestChainlock_returns_iff (handler : CChainLocksHandler)
    (stored : Chain.CBlockIndex CBlock → Bool) (pindex : BlockIndex CBlock) :
    (∀ crash, checkCbTxBestChainlock handler stored pindex.node ≠ .error (.crash crash)) ↔
      ∀ cbTx, pindex.node.block.coinbase = .cbTx cbTx → clsigAndBalance ≤ cbTx.nVersion →
        cbTx.bestCLSignature.isValid = true →
          matchesBest handler.bestChainLock pindex.node.nHeight cbTx ∨
            (-1 ≤ toInt32 cbTx.bestCLHeightDiff.toNat ∧
              toInt32 cbTx.bestCLHeightDiff.toNat < pindex.node.nHeight) := by
  cases hcoinbase : pindex.node.block.coinbase with
  | classical | undecodable => simp [checkCbTxBestChainlock, hcoinbase]
  | cbTx cbTx =>
    by_cases hversion : clsigAndBalance ≤ cbTx.nVersion
    · rw [checkCbTxBestChainlock_eq handler stored pindex hcoinbase hversion,
        checkSignature_returns_iff]
      simp [hversion]
    · have hlt : cbTx.nVersion < clsigAndBalance := not_le.mp hversion
      simp [checkCbTxBestChainlock, hcoinbase, hlt, hversion]

/-- A block at height 2 with a valid signature whose difference of 5 leads below the
genesis block; the node knows no ChainLock. At the height of V20 a larger difference does. -/
theorem checkCbTxBestChainlock_dereferences_null :
    ∃ pindex : BlockIndex CBlock,
      pindex.node.block.coinbase =
        .cbTx { bestCLHeightDiff := 5, bestCLSignature := some 7 } ∧
      ∀ verify stored,
        checkCbTxBestChainlock ⟨{}, verify⟩ stored pindex.node = .error nullAncestor := by
  let pindex : BlockIndex CBlock := ⟨_, .unlinked
    ⟨102, .cbTx { bestCLHeightDiff := 5, bestCLSignature := some 7 }⟩
      (.unlinked ⟨101, .cbTx {}⟩ (.genesis ⟨100, .classical⟩)), by decide⟩
  refine ⟨pindex, rfl, fun verify stored => ?_⟩
  have hmatches : ¬ matchesBest {} 2 { bestCLHeightDiff := 5, bestCLSignature := some 7 } := by
    decide
  rw [checkCbTxBestChainlock_eq _ stored pindex rfl (by decide)]
  exact checkSignature_of_outside rfl hmatches (by decide)

/-! ## Chains of coinbases -/

/-- A block whose coinbase has the version that `CheckCbTx` demands after V20. -/
def CBlock.IsV20 (block : CBlock) : Prop :=
  ∃ cbTx, block.coinbase = .cbTx cbTx ∧ clsigAndBalance ≤ cbTx.nVersion

section

variable (verify : CChainLockSig → Bool)

/-- The check passed when the block was connected, whatever ChainLock the node then had as
its best: none, or one that it had verified. -/
def Accepted (pindex : Chain.CBlockIndex CBlock) : Prop :=
  ∃ best stored, (best = {} ∨ verify best = true) ∧
    checkCbTxBestChainlock ⟨best, verify⟩ stored pindex = .ok ()

/-- All V20 blocks of a chain were accepted. -/
def AcceptedChain (pindex : Chain.CBlockIndex CBlock) : Prop :=
  ∀ q ∈ pindex.ancestors, q.block.IsV20 → Accepted verify q

/-- If the coinbase of the parent carries a ChainLock, then the coinbase of the child
carries one that is not older. -/
def KeepsChainlock (parent child : Chain.CBlockIndex CBlock) : Prop :=
  ∀ sig diff, parent.block.chainlock = some (sig, diff) →
    ∃ sig' diff', child.block.chainlock = some (sig', diff') ∧
      chainlockHeight parent.nHeight diff ≤ chainlockHeight child.nHeight diff'

/-- A coinbase without a ChainLock passes on every chain. -/
lemma accepted_null (pindex : BlockIndex CBlock) (hnull : pindex.node.block.coinbase = .cbTx {}) :
    Accepted verify pindex.node := by
  refine ⟨{}, fun _ => true, .inl rfl, ?_⟩
  rw [checkCbTxBestChainlock_eq _ _ pindex hnull le_rfl]
  rfl

end

lemma AcceptedChain.cons {verify : CChainLockSig → Bool} {parent child : Chain.CBlockIndex CBlock}
    (hparent : AcceptedChain verify parent) (hlink : child.pprev = some parent)
    (hchild : Accepted verify child) : AcceptedChain verify child := by
  intro q hq hv20
  rw [Chain.CBlockIndex.ancestors_of_pprev hlink] at hq
  obtain rfl | hq := List.mem_cons.mp hq
  · exact hchild
  · exact hparent q hq hv20

/-- **When every child keeps the ChainLock of its parent's coinbase**: only if there is
none to keep. -/
theorem chainlock_kept_iff (verify : CChainLockSig → Bool) (parent : BlockIndex CBlock)
    (hroom : parent.node.nHeight + 1 < 2 ^ 31) (hchain : AcceptedChain verify parent.node) :
    (∀ child : BlockIndex CBlock, child.node.pprev = some parent.node →
      child.node.block.IsV20 → AcceptedChain verify child.node →
      KeepsChainlock parent.node child.node) ↔
    parent.node.block.chainlock = none := by
  constructor
  · intro hkept
    -- the child without a ChainLock is accepted and would have to keep the parent's
    let child : BlockIndex CBlock :=
      ⟨.unlinked ⟨0, .cbTx {}⟩ parent.node, .unlinked _ parent.built, hroom⟩
    have haccepted : AcceptedChain verify child.node :=
      hchain.cons rfl (accepted_null verify child rfl)
    have hkeeps := hkept child rfl ⟨_, rfl, le_rfl⟩ haccepted
    by_contra hcarries
    obtain ⟨⟨sig, diff⟩, hcarried⟩ := Option.ne_none_iff_exists'.mp hcarries
    obtain ⟨sig', diff', hchild, -⟩ := hkeeps sig diff hcarried
    nomatch hchild
  · intro hnone child _ _ _ sig diff hcarried
    rw [hnone] at hcarried
    nomatch hcarried

/-- The one ChainLock ever signed: that of the block at height 1. -/
def onlyLock : CChainLockSig := ⟨1, 101, some 7⟩

/-- A chain of three blocks. The last carries the ChainLock of the block before it. -/
def lockedParent : BlockIndex CBlock where
  node := .unlinked ⟨102, .cbTx { bestCLSignature := some 7 }⟩
    (.unlinked ⟨101, .cbTx {}⟩ (.genesis ⟨100, .classical⟩))
  built := .unlinked _ (.unlinked _ (.genesis _))
  height_lt := by decide

/-- The block after `lockedParent`, without a ChainLock. -/
def unlockedChild : BlockIndex CBlock where
  node := .unlinked ⟨103, .cbTx {}⟩ lockedParent.node
  built := .unlinked _ lockedParent.built
  height_lt := by decide

lemma acceptedChain_lockedParent : AcceptedChain (· = onlyLock) lockedParent.node := by
  -- genesis is no V20 block, the next block carries nothing, the last the node's best
  have hgenesis : AcceptedChain (· = onlyLock) (.genesis ⟨100, .classical⟩) := by
    intro q hq hv20
    obtain rfl : q = .genesis ⟨100, .classical⟩ := by simpa [Chain.CBlockIndex.ancestors] using hq
    obtain ⟨cbTx, hcbTx, -⟩ := hv20
    cases hcbTx
  let first : BlockIndex CBlock :=
    ⟨.unlinked ⟨101, .cbTx {}⟩ (.genesis ⟨100, .classical⟩), .unlinked _ (.genesis _), by decide⟩
  have hfirst : AcceptedChain (· = onlyLock) first.node :=
    hgenesis.cons rfl (accepted_null _ first rfl)
  refine hfirst.cons rfl ⟨onlyLock, fun _ => true, .inr (by decide), ?_⟩
  have hmatches : matchesBest onlyLock 2 { bestCLSignature := some 7 } := by decide
  rw [checkCbTxBestChainlock_eq _ _ lockedParent rfl le_rfl]
  exact checkSignature_of_matches rfl hmatches

theorem chainlock_kept_lockedParent :
    AcceptedChain (· = onlyLock) lockedParent.node ∧
      ((∀ child : BlockIndex CBlock, child.node.pprev = some lockedParent.node →
        child.node.block.IsV20 → AcceptedChain (· = onlyLock) child.node →
        KeepsChainlock lockedParent.node child.node) ↔
      lockedParent.node.block.chainlock = none) :=
  ⟨acceptedChain_lockedParent,
    chainlock_kept_iff _ lockedParent (by decide) acceptedChain_lockedParent⟩

/-- The accepted child drops the ChainLock of its parent's coinbase; V20 is active early here. -/
theorem chainlock_dropped :
    lockedParent.node.block.IsV20 ∧ unlockedChild.node.block.IsV20 ∧
      unlockedChild.node.pprev = some lockedParent.node ∧
      AcceptedChain (· = onlyLock) unlockedChild.node ∧
      lockedParent.node.block.chainlock = some (some 7, 0) ∧
      unlockedChild.node.block.chainlock = none ∧
      ¬ KeepsChainlock lockedParent.node unlockedChild.node := by
  refine ⟨⟨_, rfl, le_rfl⟩, ⟨_, rfl, le_rfl⟩, rfl,
    acceptedChain_lockedParent.cons rfl (accepted_null _ unlockedChild rfl), rfl, rfl, ?_⟩
  intro hkeeps
  obtain ⟨sig, diff, hcarried, -⟩ := hkeeps (some 7) 0 rfl
  nomatch hcarried

end HootChain.Evo.CbTx

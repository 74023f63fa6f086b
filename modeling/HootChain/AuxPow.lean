import HootChain.Foundation.MerkleTree
import HootChain.Primitives.PureHeader
import HootChain.Primitives.Transaction

/-!
# Merge Mining (`auxpow.cpp`)

A merge-mined block carries the coinbase of a parent block, and branches that lead from
the coinbase to the root of the parent and from the block to a root in the script of
the coinbase. `CAuxPow::check` accepts it if the branches fit; the place of the second
root in the script, the size and the nonce behind it are to make sure that the parent
proves work for one block of the chain only.
-/

namespace HootChain.AuxPow

open Consensus Primitives Foundation List Option Nat Vector

/-! ## The data -/

/-- The parent's coinbase: its hash and the scripts of its inputs. -/
structure CoinbaseTx where
  hash : BaseBlob
  scriptSigs : List CScript
  deriving DecidableEq

structure CAuxPow where
  coinbaseTx : CoinbaseTx
  vMerkleBranch : List BaseBlob
  vChainMerkleBranch : List BaseBlob
  nChainIndex : Int
  parentBlock : CPureBlockHeader
  deriving DecidableEq

open CAuxPow

def pchMergedMiningHeader : List UInt8 := [0x4f, 0x53, 0x4d, 0x41]

/-! ## The check -/

/-- `std::search`: where `pattern` occurs first, `none` for the end. -/
def search (pattern : List UInt8) : List UInt8 → Option Nat
  | [] => if pattern.isEmpty then some 0 else none
  | b :: bytes =>
    if pattern.isPrefixOf (b :: bytes) then some 0 else (search pattern bytes).map (· + 1)

/-- `DecodeLE32` of the first four bytes. -/
def decodeLE32 (bytes : List UInt8) : Nat :=
  (bytes.take 4).foldr (fun b res => b.toNat + 256 * res) 0

/-- `getExpectedIndex`, in `uint64_t`. -/
def getExpectedIndex (nNonce : Nat) (nChainId : Int) (h : Nat) : Int :=
  let rand := (nNonce * 1103515245 + 12345) % 2 ^ 64 % 2 ^ h
  -- a negative chain id wraps
  let rand := (rand + (nChainId % 2 ^ 64).toNat) % 2 ^ 64
  ((rand * 1103515245 + 12345) % 2 ^ 64 % 2 ^ h : Nat)

section Check

variable (hash : BaseBlob → BaseBlob → BaseBlob)

/-- `CheckMerkleBranch`, with `hash` for `Hash(a, b)`. -/
def checkMerkleBranch (leaf : BaseBlob) (vMerkleBranch : List BaseBlob) (nIndex : Int) : BaseBlob :=
  if nIndex = -1 then .null else branchRoot hash leaf vMerkleBranch nIndex

/-- `vchRootHash`: the bytes of the chain merkle root, the most significant first. -/
def CAuxPow.vchRootHash (auxpow : CAuxPow) (hashAuxBlock : BaseBlob) : List UInt8 :=
  (checkMerkleBranch hash hashAuxBlock auxpow.vChainMerkleBranch auxpow.nChainIndex).toList.reverse

/-- The tests of the place `pc` of the chain merkle root in the script. -/
def checkPosition (script : CScript) (pc : Nat) : Except String Unit :=
  match search pchMergedMiningHeader script with
  | some pcHead =>
    if (search pchMergedMiningHeader (script.drop (pcHead + 1))).isSome then
      .error "Multiple merged mining headers in coinbase"
    else if pcHead + pchMergedMiningHeader.length ≠ pc then
      .error "Merged mining header is not just before chain merkle root"
    else .ok ()
  | none =>
    if pc > 20 then
      .error "Aux POW chain merkle root must start in the first 20 bytes of the parent coinbase"
    else .ok ()

/-- The tests of the bytes after the root, for a branch of the given height. -/
def checkSlot (tail : List UInt8) (nChainIndex nChainId : Int) (merkleHeight : Nat) :
    Except String Unit :=
  if tail.length < 8 then
    .error "Aux POW missing chain merkle tree size and nonce in parent coinbase"
  else if decodeLE32 tail ≠ 2 ^ merkleHeight then
    .error "Aux POW merkle branch size does not match parent coinbase"
  else if nChainIndex ≠ getExpectedIndex (decodeLE32 (tail.drop 4)) nChainId merkleHeight then
    .error "Aux POW wrong index"
  else .ok ()

/-- `CAuxPow::check`; an error is the text that is logged. -/
def CAuxPow.check (params : Params) (auxpow : CAuxPow) (hashAuxBlock : BaseBlob)
    (nChainId : Int) : Except String Unit :=
  if params.fStrictChainId ∧ getChainId auxpow.parentBlock.nVersion = nChainId then
    .error "Aux POW parent has our chain ID"
  else if auxpow.vChainMerkleBranch.length > 30 then
    .error "Aux POW chain merkle branch too long"
  else if checkMerkleBranch hash auxpow.coinbaseTx.hash auxpow.vMerkleBranch 0 ≠
      auxpow.parentBlock.hashMerkleRoot then
    .error "Aux POW merkle root incorrect"
  else
    match auxpow.coinbaseTx.scriptSigs with
    | [] => .error "Aux POW coinbase has no inputs"
    | script :: _ =>
      let vchRootHash := auxpow.vchRootHash hash hashAuxBlock
      match search vchRootHash script with
      | none => .error "Aux POW missing chain merkle root in parent coinbase"
      | some pc =>
        match checkPosition script pc with
        | .error message => .error message
        | .ok () =>
          checkSlot (script.drop (pc + vchRootHash.length)) auxpow.nChainIndex nChainId
            auxpow.vChainMerkleBranch.length

end Check

/-! ## What has been checked -/

/-- What is found at the place that `std::search` returns. -/
lemma search_eq_some {pattern bytes : List UInt8} {pc : Nat}
    (h : search pattern bytes = some pc) : pattern <+: bytes.drop pc := by
  induction bytes generalizing pc with
  | nil =>
    unfold search at h
    split at h
    · next hempty =>
      rw [isEmpty_iff.mp hempty]
      exact nil_prefix
    · cases h
  | cons b bytes ih =>
    unfold search at h
    split at h
    · next hhere =>
      cases h
      exact isPrefixOf_iff_prefix.mp hhere
    · obtain ⟨k, hk, rfl⟩ := map_eq_some_iff.mp h
      exact ih hk

lemma checkPosition_eq_ok {script : CScript} {pc : Nat} (h : checkPosition script pc = .ok ()) :
    ∀ pcHead, search pchMergedMiningHeader script = some pcHead → pc = pcHead + 4 := by
  intro pcHead hhead
  simp only [checkPosition, hhead] at h
  split at h
  · cases h
  · split at h
    · cases h
    · next hplace => exact (not_not.mp hplace).symm

lemma checkSlot_eq_ok {tail : List UInt8} {nChainIndex nChainId : Int} {merkleHeight : Nat}
    (h : checkSlot tail nChainIndex nChainId merkleHeight = .ok ()) :
    decodeLE32 tail = 2 ^ merkleHeight ∧
      nChainIndex = getExpectedIndex (decodeLE32 (tail.drop 4)) nChainId merkleHeight := by
  unfold checkSlot at h
  split at h
  · cases h
  · split at h
    · cases h
    · next hsize =>
      split at h
      · cases h
      · next hindex => exact ⟨not_not.mp hsize, not_not.mp hindex⟩

section Accepted

variable {hash : BaseBlob → BaseBlob → BaseBlob} {params : Params} {auxpow : CAuxPow}
  {hashAuxBlock : BaseBlob} {nChainId : Int}

variable (hash) in
/-- An accepted auxpow whose root stands at `pc` in `script`. -/
structure Accepted (auxpow : CAuxPow) (hashAuxBlock : BaseBlob) (nChainId : Int)
    (script : CScript) (pc : Nat) : Prop where
  script_eq : auxpow.coinbaseTx.scriptSigs.head? = some script
  root : search (auxpow.vchRootHash hash hashAuxBlock) script = some pc
  header : ∀ pcHead, search pchMergedMiningHeader script = some pcHead → pc = pcHead + 4
  size : decodeLE32 (script.drop (pc + 32)) = 2 ^ auxpow.vChainMerkleBranch.length
  index : auxpow.nChainIndex = getExpectedIndex (decodeLE32 (script.drop (pc + 32 + 4))) nChainId
    auxpow.vChainMerkleBranch.length

lemma length_vchRootHash : (auxpow.vchRootHash hash hashAuxBlock).length = 32 := by
  simp [vchRootHash]

/-- What `check` has tested of an auxpow it accepts. -/
lemma check_eq_ok (h : auxpow.check hash params hashAuxBlock nChainId = .ok ()) :
    auxpow.vChainMerkleBranch.length ≤ 30 ∧
      ∃ script pc, Accepted hash auxpow hashAuxBlock nChainId script pc := by
  simp only [CAuxPow.check, length_vchRootHash] at h
  split at h
  · cases h
  split at h
  · cases h
  next hheight =>
  split at h
  · cases h
  split at h
  · cases h
  next script _ hscripts =>
    split at h
    · cases h
    next pc hroot =>
      split at h
      · cases h
      next hposition =>
        obtain ⟨hsize, hindex⟩ := checkSlot_eq_ok h
        rw [drop_drop] at hindex
        exact ⟨not_lt.mp hheight, script, pc, by rw [hscripts]; rfl, hroot,
          checkPosition_eq_ok hposition, hsize, hindex⟩

variable {script : CScript} {pc : Nat} (h : Accepted hash auxpow hashAuxBlock nChainId script pc)

include h

lemma Accepted.root_eq : auxpow.vchRootHash hash hashAuxBlock = (script.drop pc).take 32 := by
  have hhead := search_eq_some h.root
  rw [prefix_iff_eq_take, length_vchRootHash] at hhead
  exact hhead

/-- The index of an accepted auxpow is that of a leaf, so that its root is that of a branch. -/
lemma Accepted.checkMerkleBranch_eq :
    checkMerkleBranch hash hashAuxBlock auxpow.vChainMerkleBranch auxpow.nChainIndex =
      branchRoot hash hashAuxBlock auxpow.vChainMerkleBranch auxpow.nChainIndex := by
  apply if_neg
  rw [h.index, getExpectedIndex]
  omega

lemma Accepted.vchRootHash_eq :
    auxpow.vchRootHash hash hashAuxBlock =
      (branchRoot hash hashAuxBlock auxpow.vChainMerkleBranch auxpow.nChainIndex).toList.reverse := by
  rw [vchRootHash, h.checkMerkleBranch_eq]

end Accepted

/-! ## The slot -/

/-- The slot of a nonce and a chain id, over the integers. -/
def exactIndex (nNonce : Nat) (nChainId : Int) (h : Nat) : Int :=
  ((nNonce * 1103515245 + 12345 + nChainId) * 1103515245 + 12345) % 2 ^ h

/-- Nothing is lost in `uint64_t`, of which `2 ^ h` divides the modulus. -/
lemma getExpectedIndex_eq (nNonce : Nat) (nChainId : Int) {h : Nat} (hh : h ≤ 30) :
    getExpectedIndex nNonce nChainId h = exactIndex nNonce nChainId h := by
  have hword (a : Int) : a % 2 ^ 64 ≡ a [ZMOD 2 ^ h] :=
    Int.emod_emod_of_dvd a (pow_dvd_pow 2 (by omega))
  have hid : ((nChainId % 2 ^ 64).toNat : Int) = nChainId % 2 ^ 64 :=
    Int.toNat_of_nonneg (Int.emod_nonneg _ (by decide))
  have hrand := ((Int.mod_modEq _ _).trans (hword (nNonce * 1103515245 + 12345))).add
    (hword nChainId)
  simp only [getExpectedIndex, Int.natCast_emod, cast_add, cast_mul, cast_pow, cast_ofNat, hid]
  exact (hword _).trans ((((hword _).trans hrand).mul_right _).add_right _)

lemma branchRoot_ne_null {hash : BaseBlob → BaseBlob → BaseBlob} (hhash : ∀ a b, hash a b ≠ .null)
    {leaf : BaseBlob} (hleaf : leaf ≠ .null) (branch : List BaseBlob) (index : Int) :
    branchRoot hash leaf branch index ≠ .null := by
  induction branch generalizing leaf index with
  | nil => exact hleaf
  | cons sibling branch ih => exact ih (hhash _ _) _

/-- **The slot of an accepted auxpow.** The branch has at most 30 levels, the index is that of
one of its leaves and the exact slot of the nonce that stands in the script, and the root in
the script is a hash, not the zero that stands for no index. -/
theorem check_slot {hash : BaseBlob → BaseBlob → BaseBlob} {params : Params} {auxpow : CAuxPow}
    {hashAuxBlock : BaseBlob} {nChainId : Int}
    (hcheck : auxpow.check hash params hashAuxBlock nChainId = .ok ()) :
    let height := auxpow.vChainMerkleBranch.length
    let root := checkMerkleBranch hash hashAuxBlock auxpow.vChainMerkleBranch auxpow.nChainIndex
    height ≤ 30 ∧ 0 ≤ auxpow.nChainIndex ∧ auxpow.nChainIndex < 2 ^ height ∧
      (∃ script pc, auxpow.coinbaseTx.scriptSigs.head? = some script ∧
        search root.toList.reverse script = some pc ∧
        auxpow.nChainIndex = exactIndex (decodeLE32 (script.drop (pc + 36))) nChainId height) ∧
      root = branchRoot hash hashAuxBlock auxpow.vChainMerkleBranch auxpow.nChainIndex ∧
      ((∀ a b, hash a b ≠ .null) → hashAuxBlock ≠ .null → root ≠ .null) := by
  obtain ⟨hheight, script, pc, hok⟩ := check_eq_ok hcheck
  have hindex := hok.index.trans (getExpectedIndex_eq _ _ hheight)
  have hpos : (2 : Int) ^ auxpow.vChainMerkleBranch.length > 0 := by positivity
  refine ⟨hheight, ?_, ?_, ⟨script, pc, hok.script_eq, hok.root, hindex⟩,
    hok.checkMerkleBranch_eq, fun hhash hblock => ?_⟩
  · rw [hindex]
    exact Int.emod_nonneg _ hpos.ne'
  · rw [hindex]
    exact Int.emod_lt_of_pos _ hpos
  · rw [hok.checkMerkleBranch_eq]
    exact branchRoot_ne_null hhash hblock _ _

/-! ## One coinbase, one block -/

section Unique

variable {hash : BaseBlob → BaseBlob → BaseBlob} {params : Params}

/-- The pairs hashed on the way from the block to the chain merkle root. -/
def CAuxPow.chainPairs (hash : BaseBlob → BaseBlob → BaseBlob) (auxpow : CAuxPow)
    (hashAuxBlock : BaseBlob) : List (BaseBlob × BaseBlob) :=
  branchPairs hash hashAuxBlock auxpow.vChainMerkleBranch auxpow.nChainIndex

/-- The place of the chain merkle root in the script of the coinbase. -/
def CAuxPow.rootPosition (hash : BaseBlob → BaseBlob → BaseBlob) (auxpow : CAuxPow)
    (hashAuxBlock : BaseBlob) : Option Nat :=
  auxpow.coinbaseTx.scriptSigs.head?.bind (search (auxpow.vchRootHash hash hashAuxBlock))

/-- The script of the coinbase contains the merged mining header. -/
def CoinbaseTx.hasHeader (tx : CoinbaseTx) : Bool :=
  (tx.scriptSigs.head?.bind (search pchMergedMiningHeader)).isSome

/-- **One coinbase proves work for one block.** Two auxpows with one coinbase are accepted for
the same chain. If the coinbase has the merged mining header, or both roots are found at the
same place, they are for the same block. -/
theorem hashAuxBlock_unique {auxpow₁ auxpow₂ : CAuxPow} {h₁ h₂ : BaseBlob} {nChainId : Int}
    (hfree : NoCollisionBetween hash (auxpow₁.chainPairs hash h₁) (auxpow₂.chainPairs hash h₂))
    (hcoinbase : auxpow₁.coinbaseTx = auxpow₂.coinbaseTx)
    (hcheck₁ : auxpow₁.check hash params h₁ nChainId = .ok ())
    (hcheck₂ : auxpow₂.check hash params h₂ nChainId = .ok ())
    (hplace : auxpow₁.coinbaseTx.hasHeader = true ∨
      auxpow₁.rootPosition hash h₁ = auxpow₂.rootPosition hash h₂) : h₁ = h₂ := by
  obtain ⟨-, script, pc, hok₁⟩ := check_eq_ok hcheck₁
  obtain ⟨-, script', pc', hok₂⟩ := check_eq_ok hcheck₂
  have hscript : script' = script := by
    have heq := hok₂.script_eq
    rw [← hcoinbase, hok₁.script_eq] at heq
    exact (some.inj heq).symm
  subst hscript
  have hpc : pc' = pc := by
    rcases hplace with hheader | hsame
    · rw [CoinbaseTx.hasHeader, hok₁.script_eq, isSome_iff_exists] at hheader
      obtain ⟨pcHead, hhead⟩ := hheader
      rw [hok₁.header pcHead hhead, hok₂.header pcHead hhead]
    · rw [rootPosition, rootPosition, hok₁.script_eq, hok₂.script_eq, bind_some,
        bind_some, hok₁.root, hok₂.root] at hsame
      exact (some.inj hsame).symm
  subst hpc
  -- the size in the script fixes the height, and with it the nonce fixes the index
  have hheight : auxpow₁.vChainMerkleBranch.length = auxpow₂.vChainMerkleBranch.length :=
    Nat.pow_right_injective le_rfl (hok₁.size.symm.trans hok₂.size)
  have hindex : auxpow₁.nChainIndex = auxpow₂.nChainIndex := by
    rw [hok₁.index, hok₂.index, hheight]
  have hroot : branchRoot hash h₁ auxpow₁.vChainMerkleBranch auxpow₁.nChainIndex =
      branchRoot hash h₂ auxpow₂.vChainMerkleBranch auxpow₁.nChainIndex := by
    have hbytes := hok₁.root_eq.trans hok₂.root_eq.symm
    rw [hok₁.vchRootHash_eq, hok₂.vchRootHash_eq, ← hindex] at hbytes
    exact toList_inj.mp (reverse_injective hbytes)
  rw [chainPairs, chainPairs, ← hindex] at hfree
  exact (branchRoot_injective hheight hfree hroot).1

end Unique

/-! ## A merge-mined block -/

/-- A stand-in for `Hash` that keeps the left node. -/
def leftHash (left _right : BaseBlob) : BaseBlob := left

/-- The coinbase that proves work for the block `hashAuxBlock`, in a tree of two chains with
nonce 0. -/
def minedCoinbase (hashAuxBlock : BaseBlob) : CoinbaseTx where
  hash := .null
  scriptSigs :=
    [pchMergedMiningHeader ++ hashAuxBlock.toList.reverse ++ [2, 0, 0, 0] ++ [0, 0, 0, 0]]

/-- An auxpow with that coinbase, `vMerkleBranch` being the coinbase's branch in the parent. -/
def minedAuxPow (hashAuxBlock : BaseBlob) (vMerkleBranch : List BaseBlob) : CAuxPow where
  coinbaseTx := minedCoinbase hashAuxBlock
  vMerkleBranch := vMerkleBranch
  vChainMerkleBranch := [.null]
  nChainIndex := 0
  parentBlock := { nVersion := 1#32 }

/-- Parents with one and with two transactions share a coinbase. -/
theorem hashAuxBlock_unique_minedAuxPow :
    let block : BaseBlob := replicate 32 7
    (minedAuxPow block []).check leftHash mainParams block 136 = .ok () ∧
    (minedAuxPow block [.null]).check leftHash mainParams block 136 = .ok () ∧
    block = block := by
  intro block
  have hok₁ : (minedAuxPow block []).check leftHash mainParams block 136 = .ok () := by
    decide +kernel
  have hok₂ : (minedAuxPow block [.null]).check leftHash mainParams block 136 = .ok () := by
    decide +kernel
  have hfree : NoCollisionBetween leftHash ((minedAuxPow block []).chainPairs leftHash block)
      ((minedAuxPow block [.null]).chainPairs leftHash block) := by
    unfold NoCollisionBetween
    decide +kernel
  have hheader : (minedAuxPow block []).coinbaseTx.hasHeader = true := by decide +kernel
  exact ⟨hok₁, hok₂, hashAuxBlock_unique hfree rfl hok₁ hok₂ (.inl hheader)⟩

/-- A negative chain id. -/
theorem check_slot_minedAuxPow :
    (minedAuxPow (replicate 32 7) []).check leftHash mainParams (replicate 32 7)
        (-136) = .ok () ∧
      (minedAuxPow (replicate 32 7) []).nChainIndex < 2 ^ 1 := by
  have hok : (minedAuxPow (replicate 32 7) []).check leftHash mainParams
      (replicate 32 7) (-136) = .ok () := by
    decide +kernel
  exact ⟨hok, (check_slot hok).2.2.1⟩

end HootChain.AuxPow

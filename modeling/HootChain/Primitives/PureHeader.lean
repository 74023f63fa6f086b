import HootChain.Consensus.Params

/-!
# Block Version and Proof of Work (`primitives/pureheader.h`, `validation.cpp`)

`nVersion` is an `int32_t` that merge mining divides up: the low byte is the base
version, bit 8 says that the block carries an auxpow, and the upper 16 bits are
the chain id. `CheckProofOfWork` demands the chain id of the network when the
network is strict about it.
-/

namespace HootChain.Primitives

open Consensus Bool

/-! ## Versions -/

/-- `VERSION_AUXPOW`, bit 8. -/
def versionAuxpow : BitVec 32 := 0x100#32

def versionChainStart : Int := 2 ^ 16

section

variable (nVersion : BitVec 32)

/-- `GetChainId`: an `int32_t` division, towards zero. -/
def getChainId : Int := nVersion.toInt.tdiv versionChainStart

def isAuxpow : Bool := nVersion &&& versionAuxpow != 0#32

def isLegacy : Bool := nVersion == 1#32

end

/-! ## Headers -/

/-- `base_blob<256>`, the 32 bytes in memory order. -/
abbrev BaseBlob := Vector UInt8 32

/-- `base_blob::SetNull`. -/
def BaseBlob.null : BaseBlob := Vector.replicate 32 0

structure CPureBlockHeader where
  nVersion : BitVec 32 := 0
  hashPrevBlock : BaseBlob := .null
  hashMerkleRoot : BaseBlob := .null
  nTime : UInt32 := 0
  nBits : UInt32 := 0
  nNonce : UInt32 := 0
  deriving DecidableEq

/-! ## `CheckProofOfWork` -/

/-- `CAuxPow`, through the outcomes of its check and of the parent's proof of work. -/
structure CAuxPow where
  check : Bool
  parentProofOfWork : Bool
  deriving DecidableEq

/-- `CBlockHeader`. `proofOfWork` says whether the block's own hash meets its target. -/
structure CBlockHeader where
  nVersion : BitVec 32
  nTime : UInt32
  proofOfWork : Bool
  auxpow : Option CAuxPow
  deriving DecidableEq

def checkProofOfWork (params : Params) (block : CBlockHeader) : Bool :=
  if !isLegacy block.nVersion && params.fStrictChainId &&
      getChainId block.nVersion != params.nAuxpowChainId then
    false
  else
    match block.auxpow with
    | none => !isAuxpow block.nVersion && block.proofOfWork
    | some auxpow => isAuxpow block.nVersion && auxpow.check && auxpow.parentProofOfWork

variable {params : Params} {block : CBlockHeader}

/-- An accepted header of a strict network is a legacy one or has the network's chain id. -/
lemma checkProofOfWork_chainId (hstrict : params.fStrictChainId = true)
    (h : checkProofOfWork params block = true) :
    block.nVersion = 1#32 ∨ getChainId block.nVersion = params.nAuxpowChainId := by
  unfold checkProofOfWork at h
  split at h
  · cases h
  · next hrule =>
    by_cases hlegacy : block.nVersion = 1#32
    · exact .inl hlegacy
    · simpa [isLegacy, hlegacy, hstrict] using hrule

/-- An accepted header carries an auxpow exactly if its version says so. -/
lemma checkProofOfWork_isAuxpow (h : checkProofOfWork params block = true) :
    isAuxpow block.nVersion = block.auxpow.isSome := by
  unfold checkProofOfWork at h
  split at h
  · cases h
  · cases hauxpow : block.auxpow with
    | none =>
      simp only [hauxpow, and_eq_true, not_eq_true'] at h
      exact h.1
    | some auxpow =>
      simp only [hauxpow, and_eq_true] at h
      exact h.1.1

/-- The header with a given version and time whose proofs of work are all found. -/
def solvedHeader (nVersion : BitVec 32) (nTime : UInt32) : CBlockHeader :=
  { nVersion, nTime, proofOfWork := true
    auxpow := if isAuxpow nVersion then some ⟨true, true⟩ else none }

/-- Every version with the right chain id has an accepted header. -/
lemma checkProofOfWork_solvedHeader {nVersion : BitVec 32} (nTime : UInt32)
    (h : getChainId nVersion = params.nAuxpowChainId) :
    checkProofOfWork params (solvedHeader nVersion nTime) = true := by
  unfold checkProofOfWork solvedHeader
  cases isAuxpow nVersion <;> simp [h]

end HootChain.Primitives

import HootChain.Primitives.Transaction

/-!
# Governance Votes (`governance/vote.h`, `governance/votedb.h`, `governance/exceptions.h`)

A vote of a masternode on a governance object, the file of votes an object
keeps, and the exceptions that vote processing reports.

The hash of a vote covers the masternode, the parent object, the outcome, the
signal and the time, not the signature. Hashing is taken to be collision-free:
the hash is the tuple of the hashed fields.
-/

namespace HootChain.Governance

open Primitives List

/-! ## Votes -/

/-- `CGovernanceVote`, the fields that go over the wire. -/
structure CGovernanceVote where
  masternodeOutpoint : COutPoint
  nParentHash : Uint256
  nVoteOutcome : Int
  nVoteSignal : Int
  nTime : Int
  vchSig : List UInt8
  deriving DecidableEq

/-- What `CGovernanceVote::GetHash` hashes. -/
structure VoteHash where
  masternodeOutpoint : COutPoint
  nParentHash : Uint256
  nVoteOutcome : Int
  nVoteSignal : Int
  nTime : Int
  deriving DecidableEq

namespace CGovernanceVote

section

variable (vote : CGovernanceVote)

def getHash : VoteHash :=
  { masternodeOutpoint := vote.masternodeOutpoint
    nParentHash := vote.nParentHash
    nVoteOutcome := vote.nVoteOutcome
    nVoteSignal := vote.nVoteSignal
    nTime := vote.nTime }

/-- `GetSignal`: the `int` is cast to an enumeration over `uint8_t`. -/
def getSignal : Nat := (vote.nVoteSignal % 256).toNat

/-- `GetOutcome`, with the same cast. -/
def getOutcome : Nat := (vote.nVoteOutcome % 256).toNat

end

/-- `operator<` on votes. Every line demands a strict order and the next one
equality of the same member. -/
def less (vote1 vote2 : CGovernanceVote) : Bool :=
  let fResult := vote1.masternodeOutpoint.less vote2.masternodeOutpoint
  if !fResult then false else
  let fResult := vote1.masternodeOutpoint == vote2.masternodeOutpoint
  let fResult := fResult && Uint256.less vote1.nParentHash vote2.nParentHash
  if !fResult then false else
  let fResult := vote1.nParentHash == vote2.nParentHash
  let fResult := fResult && decide (vote1.nVoteOutcome < vote2.nVoteOutcome)
  if !fResult then false else
  let fResult := vote1.nVoteOutcome == vote2.nVoteOutcome
  let fResult := fResult && vote1.nVoteSignal == vote2.nVoteSignal
  if !fResult then false else
  let fResult := vote1.nVoteSignal == vote2.nVoteSignal
  fResult && decide (vote1.nTime < vote2.nTime)

/-- No vote is less than another. -/
lemma less_eq_false (vote1 vote2 : CGovernanceVote) : less vote1 vote2 = false := by
  unfold less
  cases h : vote1.masternodeOutpoint.less vote2.masternodeOutpoint with
  | false => rfl
  | true =>
    have hne : (vote1.masternodeOutpoint == vote2.masternodeOutpoint) = false :=
      beq_false_of_ne (COutPoint.ne_of_less h)
    simp [hne]

end CGovernanceVote

/-! ## Signals and outcomes -/

def voteSignalNone : Nat := 0
def voteSignalFunding : Nat := 1
def voteSignalValid : Nat := 2
def voteSignalDelete : Nat := 3
def voteSignalEndorsed : Nat := 4
def maxSupportedVoteSignal : Nat := voteSignalEndorsed

def voteOutcomeNone : Nat := 0
def voteOutcomeYes : Nat := 1
def voteOutcomeNo : Nat := 2

def convertSignalToString : Nat → String
  | 1 => "funding"
  | 2 => "valid"
  | 3 => "delete"
  | 4 => "endorsed"
  | _ => "none"

/-! ## Exceptions -/

/-- `governance_exception_type_enum_t`. -/
inductive GovernanceExceptionType where
  | none
  | warning
  | permanentError
  | temporaryError

/-- `operator<<` on exception types. -/
def GovernanceExceptionType.text : GovernanceExceptionType → String
  | .none => "GOVERNANCE_EXCEPTION_NONE"
  | .warning => "GOVERNANCE_EXCEPTION_WARNING"
  | .permanentError => "GOVERNANCE_EXCEPTION_PERMANENT_ERROR"
  | .temporaryError => "GOVERNANCE_EXCEPTION_TEMPORARY_ERROR"

structure CGovernanceException where
  strMessage : String
  eType : GovernanceExceptionType
  nNodePenalty : Nat

/-- The constructor of `CGovernanceException`, which puts the type before the message. -/
def governanceException (strMessageIn : String) (eTypeIn : GovernanceExceptionType)
    (nNodePenaltyIn : Nat) : CGovernanceException :=
  { strMessage := eTypeIn.text ++ ":" ++ strMessageIn
    eType := eTypeIn
    nNodePenalty := nNodePenaltyIn }

/-! ## The vote file -/

def hasVote (fileVotes : List CGovernanceVote) (nHash : VoteHash) : Bool :=
  fileVotes.any fun vote => vote.getHash == nHash

/-- The votes `RemoveOldVotes` drops: same masternode, object and signal, older. -/
def isOldVote (vote other : CGovernanceVote) : Bool :=
  other.masternodeOutpoint == vote.masternodeOutpoint &&
  other.nParentHash == vote.nParentHash &&
  other.getSignal == vote.getSignal &&
  decide (other.nTime < vote.nTime)

def addVote (fileVotes : List CGovernanceVote) (vote : CGovernanceVote) : List CGovernanceVote :=
  if hasVote fileVotes vote.getHash then fileVotes
  else (vote :: fileVotes).filter fun other => !isOldVote vote other

variable {fileVotes : List CGovernanceVote} {vote other : CGovernanceVote}

lemma hasVote_iff {nHash : VoteHash} :
    hasVote fileVotes nHash = true ↔ ∃ vote ∈ fileVotes, vote.getHash = nHash := by
  simp [hasVote]

lemma isOldVote_iff :
    isOldVote vote other = true ↔
      other.masternodeOutpoint = vote.masternodeOutpoint ∧
      other.nParentHash = vote.nParentHash ∧ other.getSignal = vote.getSignal ∧
      other.nTime < vote.nTime := by
  simp [isOldVote, and_assoc]

lemma mem_addVote (hnew : hasVote fileVotes vote.getHash = false) :
    other ∈ addVote fileVotes vote ↔
      other = vote ∨ other ∈ fileVotes ∧ isOldVote vote other = false := by
  have hself : isOldVote vote vote = false := by simp [isOldVote]
  rw [addVote, hnew, if_neg (by decide), mem_filter, mem_cons]
  constructor
  · rintro ⟨rfl | hmem, hold⟩
    · exact .inl rfl
    · exact .inr ⟨hmem, by simpa using hold⟩
  · rintro (rfl | ⟨hmem, hold⟩)
    · exact ⟨.inl rfl, by simp [hself]⟩
    · exact ⟨.inr hmem, by simp [hold]⟩

end HootChain.Governance

import HootChain.Governance.Vote
import Mathlib.Data.List.AList

/-!
# Governance Objects (`governance/object.cpp`)

An object keeps, per masternode and signal, the current vote (outcome, time of
update, time of creation) and a file of the votes themselves.
`CGovernanceObject::ProcessVote` decides whether a vote becomes current.
-/

namespace HootChain.Governance

open Primitives

/-! ## Data -/

/-- `GovernanceObject`, the type of an object. -/
inductive GovernanceObjectType where
  | unknown
  | proposal
  | trigger
  deriving DecidableEq

/-- `vote_instance_t`. -/
structure VoteInstance where
  eOutcome : Nat := voteOutcomeNone
  nTime : Int := 0
  nCreationTime : Int := 0

/-- `vote_rec_t::mapInstances`, by signal. -/
abbrev VoteRec := AList fun _ : Nat => VoteInstance

/-- `CGovernanceObject`. The content of `m_obj` is represented by its hash and type. -/
structure CGovernanceObject where
  hash : Uint256
  type : GovernanceObjectType
  nDeletionTime : Int := 0
  fCachedFunding : Bool := false
  fCachedValid : Bool := true
  fCachedDelete : Bool := false
  fCachedEndorsed : Bool := false
  fDirtyCache : Bool := true
  mapCurrentMNVotes : AList fun _ : COutPoint => VoteRec := ∅
  fileVotes : List CGovernanceVote := []

open CGovernanceObject

/-- A masternode as governance sees it. -/
structure Masternode where
  proTxHash : Uint256
  votingWeight : Nat
  keyIDVoting : Nat
  pubKeyOperator : Nat

/-- What vote processing reads from the rest of the node: the clock, the masternode
list at the tip and the two signature checks. -/
structure NodeView where
  adjustedTime : Int
  time : Int
  isSynced : Bool
  getMNByCollateral : COutPoint → Option Masternode
  validWeightedMNsCount : Nat
  nGovernanceMinQuorum : Nat
  hashString : VoteHash → String
  checkVotingKeySignature : Nat → CGovernanceVote → Bool
  checkOperatorSignature : Nat → CGovernanceVote → Bool

/-- State outside the object that vote processing writes: `cmapInvalidVotes` and, per
masternode and object, the number of votes in the masternode's metadata. -/
structure VoteLog where
  cmapInvalidVotes : List CGovernanceVote := []
  mapGovernanceObjectsVotedOn : Uint256 → Uint256 → Nat := fun _ _ => 0

/-! ## Validity of a vote -/

def CGovernanceVote.isValid (node : NodeView) (vote : CGovernanceVote) (useVotingKey : Bool) :
    Bool :=
  if vote.nTime > node.adjustedTime + 60 * 60 then false
  else if vote.nVoteSignal > maxSupportedVoteSignal then false
  else if vote.nVoteOutcome > 3 then false
  else
    match node.getMNByCollateral vote.masternodeOutpoint with
    | none => false
    | some dmn =>
      if useVotingKey then node.checkVotingKeySignature dmn.keyIDVoting vote
      else node.checkOperatorSignature dmn.pubKeyOperator vote

/-! ## Current votes -/

namespace CGovernanceObject

section

variable (obj : CGovernanceObject) (outpoint : COutPoint)

/-- The current vote of a masternode for a signal; a missing entry reads as the default
one, which is also what `emplace` puts there. -/
def voteInstance (eSignal : Nat) : VoteInstance :=
  ((obj.mapCurrentMNVotes.lookup outpoint).bind fun voteRec => voteRec.lookup eSignal).getD {}

/-- `mapCurrentMNVotes.emplace(outpoint, vote_rec_t())`. -/
def emplaceRecord : CGovernanceObject :=
  match obj.mapCurrentMNVotes.lookup outpoint with
  | some _ => obj
  | none => { obj with mapCurrentMNVotes := obj.mapCurrentMNVotes.insert outpoint ∅ }

/-- `mapInstances[eSignal] = voteInstance` in the record of the masternode. -/
def setInstance (eSignal : Nat) (inst : VoteInstance) : CGovernanceObject :=
  let voteRec := (obj.mapCurrentMNVotes.lookup outpoint).getD ∅
  { obj with
    mapCurrentMNVotes := obj.mapCurrentMNVotes.insert outpoint (voteRec.insert eSignal inst) }

/-- `mapInstances.emplace(eSignal, vote_instance_t())`. -/
def emplaceInstance (eSignal : Nat) : CGovernanceObject :=
  match (obj.mapCurrentMNVotes.lookup outpoint).bind fun voteRec => voteRec.lookup eSignal with
  | some _ => obj
  | none => obj.setInstance outpoint eSignal {}

end

end CGovernanceObject

/-! ## `ProcessVote` -/

def governanceUpdateMin : Int := 60 * 60

/-- The last two steps of `ProcessVote`, once the vote is known to be valid: count it in
the masternode's metadata, make it current and file it. -/
def CGovernanceObject.acceptVote (obj : CGovernanceObject) (vote : CGovernanceVote)
    (nVoteTimeUpdate : Int) : CGovernanceObject :=
  let obj := obj.setInstance vote.masternodeOutpoint vote.getSignal
    { eOutcome := vote.getOutcome, nTime := nVoteTimeUpdate, nCreationTime := vote.nTime }
  { obj with fileVotes := addVote obj.fileVotes vote, fDirtyCache := true }

/-- `mmetaman->AddGovernanceVote`, which always succeeds. -/
def VoteLog.addGovernanceVote (log : VoteLog) (proTxHash nGovernanceObjectHash : Uint256) :
    VoteLog :=
  { log with
    mapGovernanceObjectsVotedOn := fun mn obj =>
      if mn = proTxHash ∧ obj = nGovernanceObjectHash then
        log.mapGovernanceObjectsVotedOn mn obj + 1
      else
        log.mapGovernanceObjectsVotedOn mn obj }

/-- Result of `ProcessVote`: the exception or success, the object and the log. -/
abbrev VoteResult := Except CGovernanceException Unit × CGovernanceObject × VoteLog

/-- `ProcessVote` from the checks of the current vote on; `obj` already has an entry for
the masternode and the signal. -/
def processKnownSignal (node : NodeView) (fRateChecksEnabled : Bool) (dmn : Masternode)
    (vote : CGovernanceVote) (obj : CGovernanceObject) (log : VoteLog) : VoteResult :=
  let voteInstance := obj.voteInstance vote.masternodeOutpoint vote.getSignal
  if vote.nTime < voteInstance.nCreationTime then
    (.error (governanceException "CGovernanceObject::ProcessVote -- Obsolete vote" .none 0),
      obj, log)
  else if vote.nTime = voteInstance.nCreationTime ∧ vote.getOutcome < voteInstance.eOutcome then
    (.error (governanceException ("CGovernanceObject::ProcessVote -- Invalid vote, " ++
      "same timestamp for the different outcome, rejected") .none 0), obj, log)
  else
    let nTimeDelta := node.adjustedTime - voteInstance.nTime
    if fRateChecksEnabled ∧ nTimeDelta < governanceUpdateMin then
      (.error (governanceException ("CGovernanceObject::ProcessVote -- Masternode voting too often"
        ++ ", MN outpoint = " ++ vote.masternodeOutpoint.toStringShort
        ++ ", governance object hash = " ++ Uint256.toString obj.hash
        ++ ", time delta = " ++ Int.repr nTimeDelta) .temporaryError 0), obj, log)
    else
      let nVoteTimeUpdate := if fRateChecksEnabled then node.adjustedTime else voteInstance.nTime
      let onlyVotingKeyAllowed := obj.type == .proposal && vote.getSignal == voteSignalFunding
      if !vote.isValid node onlyVotingKeyAllowed then
        (.error (governanceException ("CGovernanceObject::ProcessVote -- Invalid vote"
          ++ ", MN outpoint = " ++ vote.masternodeOutpoint.toStringShort
          ++ ", governance object hash = " ++ Uint256.toString obj.hash
          ++ ", vote hash = " ++ node.hashString vote.getHash) .permanentError 20),
          obj, { log with cmapInvalidVotes := vote :: log.cmapInvalidVotes })
      else
        (.ok (), obj.acceptVote vote nVoteTimeUpdate,
          log.addGovernanceVote dmn.proTxHash vote.nParentHash)

def processVote (node : NodeView) (fRateChecksEnabled : Bool) (vote : CGovernanceVote)
    (obj : CGovernanceObject) (log : VoteLog) : VoteResult :=
  if hasVote obj.fileVotes vote.getHash then
    (.error (governanceException "CGovernanceObject::ProcessVote -- Already known valid vote"
      .none 0), obj, log)
  else
    match node.getMNByCollateral vote.masternodeOutpoint with
    | none =>
      (.error (governanceException ("CGovernanceObject::ProcessVote -- Masternode " ++
        vote.masternodeOutpoint.toStringShort ++ " not found") .permanentError 20), obj, log)
    | some dmn =>
      let obj := obj.emplaceRecord vote.masternodeOutpoint
      if vote.getSignal = voteSignalNone then
        (.error (governanceException "CGovernanceObject::ProcessVote -- Vote signal: none"
          .warning 0), obj, log)
      else if vote.getSignal > maxSupportedVoteSignal then
        (.error (governanceException ("CGovernanceObject::ProcessVote -- Unsupported vote signal: "
          ++ convertSignalToString vote.getSignal) .permanentError 20), obj, log)
      else
        processKnownSignal node fRateChecksEnabled dmn vote
          (obj.emplaceInstance vote.masternodeOutpoint vote.getSignal) log

/-! ## Vote counts -/

namespace CGovernanceObject

section

variable (node : NodeView) (obj : CGovernanceObject) (eVoteSignalIn : Nat)

def countMatchingVotes (eVoteOutcomeIn : Nat) : Int :=
  obj.mapCurrentMNVotes.entries.foldl (fun nCount votepair =>
    match votepair.2.lookup eVoteSignalIn, node.getMNByCollateral votepair.1 with
    | some inst, some dmn =>
      if inst.eOutcome = eVoteOutcomeIn then nCount + dmn.votingWeight else nCount
    | _, _ => nCount) 0

def getAbsoluteYesCount : Int :=
  obj.countMatchingVotes node eVoteSignalIn voteOutcomeYes -
    obj.countMatchingVotes node eVoteSignalIn voteOutcomeNo

def getAbsoluteNoCount : Int :=
  obj.countMatchingVotes node eVoteSignalIn voteOutcomeNo -
    obj.countMatchingVotes node eVoteSignalIn voteOutcomeYes

def updateSentinelVariables : CGovernanceObject :=
  if node.validWeightedMNsCount = 0 then obj
  else
    let nAbsVoteReq : Int := max node.nGovernanceMinQuorum (node.validWeightedMNsCount / 10)
    let nAbsDeleteReq : Int := max node.nGovernanceMinQuorum (2 * node.validWeightedMNsCount / 3)
    let setDelete := decide (obj.getAbsoluteYesCount node voteSignalDelete ≥ nAbsDeleteReq) &&
      !obj.fCachedDelete
    { obj with
      fCachedFunding := obj.getAbsoluteYesCount node voteSignalFunding ≥ nAbsVoteReq
      fCachedDelete := obj.fCachedDelete || setDelete
      nDeletionTime := if setDelete && obj.nDeletionTime == 0 then node.time else obj.nDeletionTime
      fCachedEndorsed := obj.getAbsoluteYesCount node voteSignalEndorsed ≥ nAbsVoteReq
      fCachedValid := !decide (obj.getAbsoluteNoCount node voteSignalValid ≥ nAbsVoteReq)
      fDirtyCache := false }

end

def prepareDeletion (obj : CGovernanceObject) (nDeletionTime : Int) : CGovernanceObject :=
  { obj with
    fCachedDelete := true
    nDeletionTime := if obj.nDeletionTime = 0 then nDeletionTime else obj.nDeletionTime }

end CGovernanceObject

/-! ## What rejected votes leave alone -/

/-- Two objects with the same votes, in the file and as current votes. -/
structure SameVotes (a b : CGovernanceObject) : Prop where
  hash : a.hash = b.hash
  type : a.type = b.type
  fileVotes : a.fileVotes = b.fileVotes
  voteInstance : ∀ outpoint eSignal, a.voteInstance outpoint eSignal = b.voteInstance outpoint eSignal

lemma SameVotes.refl (obj : CGovernanceObject) : SameVotes obj obj :=
  ⟨rfl, rfl, rfl, fun _ _ => rfl⟩

variable {a b : CGovernanceObject} {node : NodeView} {vote : CGovernanceVote}

lemma SameVotes.trans {c : CGovernanceObject} (hab : SameVotes a b) (hbc : SameVotes b c) :
    SameVotes a c :=
  ⟨hab.hash.trans hbc.hash, hab.type.trans hbc.type, hab.fileVotes.trans hbc.fileVotes,
    fun o s => (hab.voteInstance o s).trans (hbc.voteInstance o s)⟩

lemma sameVotes_updateSentinelVariables (node : NodeView) (obj : CGovernanceObject) :
    SameVotes (obj.updateSentinelVariables node) obj := by
  unfold updateSentinelVariables
  split
  · exact SameVotes.refl obj
  · exact ⟨rfl, rfl, rfl, fun _ _ => rfl⟩

section

variable (obj : CGovernanceObject) (outpoint : COutPoint)

lemma voteInstance_setInstance (outpoint' : COutPoint) (eSignal eSignal' : Nat)
    (inst : VoteInstance) :
    (obj.setInstance outpoint eSignal inst).voteInstance outpoint' eSignal' =
      if outpoint' = outpoint ∧ eSignal' = eSignal then inst
      else obj.voteInstance outpoint' eSignal' := by
  unfold setInstance voteInstance
  by_cases ho : outpoint' = outpoint
  · subst ho
    rw [AList.lookup_insert]
    by_cases hs : eSignal' = eSignal
    · subst hs
      simp
    · rw [Option.bind_some, AList.lookup_insert_ne hs]
      cases obj.mapCurrentMNVotes.lookup outpoint' <;> simp [hs]
  · rw [AList.lookup_insert_ne ho, if_neg (fun h => ho h.1)]

lemma sameVotes_emplaceRecord : SameVotes (obj.emplaceRecord outpoint) obj := by
  unfold emplaceRecord
  cases h : obj.mapCurrentMNVotes.lookup outpoint with
  | some _ => exact SameVotes.refl obj
  | none =>
    refine ⟨rfl, rfl, rfl, fun o s => ?_⟩
    unfold voteInstance
    by_cases ho : o = outpoint
    · subst ho
      simp [h]
    · rw [AList.lookup_insert_ne ho]

lemma sameVotes_emplaceInstance (eSignal : Nat) :
    SameVotes (obj.emplaceInstance outpoint eSignal) obj := by
  unfold emplaceInstance
  split
  · exact SameVotes.refl obj
  · next hnone =>
    refine ⟨rfl, rfl, rfl, fun o s => ?_⟩
    rw [voteInstance_setInstance]
    split
    · next heq =>
      obtain ⟨rfl, rfl⟩ := heq
      rw [voteInstance, hnone]
      rfl
    · rfl

/-! ## When a vote is accepted -/

/-- Order of votes of one masternode for one signal: by time, then by outcome. -/
def StampLt (nTime nTime' : Int) (eOutcome eOutcome' : Nat) : Prop :=
  nTime < nTime' ∨ nTime = nTime' ∧ eOutcome < eOutcome'

lemma StampLt.trans {t₁ t₂ t₃ : Int} {o₁ o₂ o₃ : Nat} (h₁₂ : StampLt t₁ t₂ o₁ o₂)
    (h₂₃ : ¬ StampLt t₃ t₂ o₃ o₂) : StampLt t₁ t₃ o₁ o₃ := by
  unfold StampLt at *
  omega

/-- The vote is new, from a known masternode, for a supported signal, not older than the
current vote of that masternode and signal, and valid. -/
structure Acceptable (node : NodeView) (obj : CGovernanceObject) (vote : CGovernanceVote) :
    Prop where
  isNew : hasVote obj.fileVotes vote.getHash = false
  masternode : (node.getMNByCollateral vote.masternodeOutpoint).isSome
  signalSet : vote.getSignal ≠ voteSignalNone
  signalSupported : vote.getSignal ≤ maxSupportedVoteSignal
  notOlder : ¬ StampLt vote.nTime (obj.voteInstance vote.masternodeOutpoint vote.getSignal).nCreationTime
    vote.getOutcome (obj.voteInstance vote.masternodeOutpoint vote.getSignal).eOutcome
  isValid : vote.isValid node (obj.type == .proposal && vote.getSignal == voteSignalFunding) = true

lemma Acceptable.congr (hab : SameVotes a b) (h : Acceptable node a vote) :
    Acceptable node b vote := by
  obtain ⟨hnew, hmn, hset, hsupp, hnot, hvalid⟩ := h
  refine ⟨?_, hmn, hset, hsupp, ?_, ?_⟩
  · rwa [hab.fileVotes] at hnew
  · rwa [hab.voteInstance] at hnot
  · rwa [hab.type] at hvalid

lemma SameVotes.symm (h : SameVotes a b) : SameVotes b a :=
  ⟨h.hash.symm, h.type.symm, h.fileVotes.symm, fun o s => (h.voteInstance o s).symm⟩

/-- With rate checks off, the part behind the signal checks accepts exactly the valid votes
that are not older than the current one. -/
lemma processKnownSignal_cases (node : NodeView) (dmn : Masternode) (vote : CGovernanceVote)
    (obj : CGovernanceObject) (log : VoteLog) {inst : VoteInstance}
    (hinst : obj.voteInstance vote.masternodeOutpoint vote.getSignal = inst) {valid : Bool}
    (hvalid : vote.isValid node
      (obj.type == .proposal && vote.getSignal == voteSignalFunding) = valid) :
    (¬ StampLt vote.nTime inst.nCreationTime vote.getOutcome inst.eOutcome ∧ valid = true ∧
      processKnownSignal node false dmn vote obj log = (.ok (), obj.acceptVote vote inst.nTime,
        log.addGovernanceVote dmn.proTxHash vote.nParentHash)) ∨
    ((StampLt vote.nTime inst.nCreationTime vote.getOutcome inst.eOutcome ∨ valid = false) ∧
      ∃ e log', processKnownSignal node false dmn vote obj log = (.error e, obj, log')) := by
  unfold processKnownSignal
  simp only [hinst, hvalid]
  by_cases hobsolete : vote.nTime < inst.nCreationTime
  · exact .inr ⟨.inl (.inl hobsolete), _, _, by rw [if_pos hobsolete]⟩
  by_cases houtcome : vote.nTime = inst.nCreationTime ∧ vote.getOutcome < inst.eOutcome
  · exact .inr ⟨.inl (.inr houtcome), _, _, by rw [if_neg hobsolete, if_pos houtcome]⟩
  rw [if_neg hobsolete, if_neg houtcome]
  cases valid with
  | false => exact .inr ⟨.inr rfl, _, _, rfl⟩
  | true => exact .inl ⟨fun h => h.elim hobsolete houtcome, rfl, rfl⟩

/-- **`ProcessVote` without rate checks**: an acceptable vote becomes current and is filed;
any other vote is rejected and changes no vote of the object. -/
theorem processVote_cases (node : NodeView) (vote : CGovernanceVote) (obj : CGovernanceObject)
    (log : VoteLog) :
    (Acceptable node obj vote ∧ ∃ base log', SameVotes base obj ∧
      processVote node false vote obj log = (.ok (), base.acceptVote vote
        (obj.voteInstance vote.masternodeOutpoint vote.getSignal).nTime, log')) ∨
    (¬ Acceptable node obj vote ∧ ∃ e obj' log', SameVotes obj' obj ∧
      processVote node false vote obj log = (.error e, obj', log')) := by
  unfold processVote
  cases hnew : hasVote obj.fileVotes vote.getHash with
  | true =>
    exact .inr ⟨fun h => absurd (hnew.symm.trans h.isNew) (by decide), _, obj, log,
      SameVotes.refl obj, rfl⟩
  | false =>
    cases hmn : node.getMNByCollateral vote.masternodeOutpoint with
    | none =>
      exact .inr ⟨fun h => by simpa [hmn] using h.masternode, _, obj, log, SameVotes.refl obj, rfl⟩
    | some dmn =>
      have hrecord := sameVotes_emplaceRecord obj vote.masternodeOutpoint
      by_cases hset : vote.getSignal = voteSignalNone
      · exact .inr ⟨fun h => h.signalSet hset, _, _, _, hrecord,
          (if_neg Bool.false_ne_true).trans (if_pos hset)⟩
      by_cases hsupp : vote.getSignal > maxSupportedVoteSignal
      · exact .inr ⟨fun h => absurd h.signalSupported (Nat.not_le.mpr hsupp), _, _, _, hrecord,
          (if_neg Bool.false_ne_true).trans ((if_neg hset).trans (if_pos hsupp))⟩
      have hbase := (sameVotes_emplaceInstance (obj.emplaceRecord vote.masternodeOutpoint)
        vote.masternodeOutpoint vote.getSignal).trans hrecord
      simp only [hset, hsupp, if_false, Bool.false_eq_true]
      -- behind the signal checks only the current vote and the validity matter, and those
      -- are the same in the object with the emplaced entries
      rcases processKnownSignal_cases node dmn vote _ log (hbase.voteInstance _ _)
        (by rw [hbase.type]) with ⟨hnot, hvalid, heq⟩ | ⟨hfail, e, log', heq⟩
      · exact .inl ⟨⟨hnew, by simp [hmn], hset, Nat.not_lt.mp hsupp, hnot, hvalid⟩, _, _,
          hbase, heq⟩
      · refine .inr ⟨fun h => ?_, _, _, _, hbase, heq⟩
        rcases hfail with hlt | hinvalid
        · exact h.notOlder hlt
        · exact absurd (hinvalid.symm.trans h.isValid) (by decide)

/-! ## Counted votes -/

/-- The object counts the vote: it is in the file, or a newer vote of the same masternode
for the same signal is. -/
def Counted (vote : CGovernanceVote) : Prop :=
  hasVote obj.fileVotes vote.getHash = true ∨
  ∃ newer ∈ obj.fileVotes, newer.masternodeOutpoint = vote.masternodeOutpoint ∧
    newer.getSignal = vote.getSignal ∧
    StampLt vote.nTime newer.nTime vote.getOutcome newer.getOutcome

/-- No vote in the file is newer than the current vote of its masternode and signal. -/
def Coherent : Prop :=
  ∀ vote ∈ obj.fileVotes,
    ¬ StampLt (obj.voteInstance vote.masternodeOutpoint vote.getSignal).nCreationTime vote.nTime
      (obj.voteInstance vote.masternodeOutpoint vote.getSignal).eOutcome vote.getOutcome

/-- The current votes are in the file. -/
def Filed : Prop :=
  ∀ outpoint eSignal, obj.voteInstance outpoint eSignal = {} ∨ ∃ vote ∈ obj.fileVotes,
    vote.masternodeOutpoint = outpoint ∧ vote.getSignal = eSignal ∧
      vote.nTime = (obj.voteInstance outpoint eSignal).nCreationTime ∧
      vote.getOutcome = (obj.voteInstance outpoint eSignal).eOutcome

end

/-- In a coherent object an acceptable vote is not counted yet. -/
lemma Acceptable.not_counted {obj : CGovernanceObject} (h : Acceptable node obj vote)
    (hco : Coherent obj) : ¬ Counted obj vote := by
  rintro (hhas | ⟨newer, hmem, hmn, hsig, hlt⟩)
  · exact absurd (h.isNew.symm.trans hhas) (by decide)
  · have hle := hco newer hmem
    rw [hmn, hsig] at hle
    exact h.notOlder (hlt.trans hle)

section AcceptVote

variable {node : NodeView} {obj base : CGovernanceObject} {vote other : CGovernanceVote}
  {nTime : Int}

section

variable (hbase : SameVotes base obj)

include hbase

lemma mem_fileVotes_acceptVote (h : Acceptable node obj vote) :
    other ∈ (base.acceptVote vote nTime).fileVotes ↔
      other = vote ∨ other ∈ obj.fileVotes ∧ isOldVote vote other = false := by
  have hfile : (base.acceptVote vote nTime).fileVotes = addVote obj.fileVotes vote := by
    rw [← hbase.fileVotes]
    rfl
  rw [hfile, mem_addVote h.isNew]

lemma voteInstance_acceptVote (outpoint : COutPoint) (eSignal : Nat) :
    (base.acceptVote vote nTime).voteInstance outpoint eSignal =
      if outpoint = vote.masternodeOutpoint ∧ eSignal = vote.getSignal then
        { eOutcome := vote.getOutcome, nTime := nTime, nCreationTime := vote.nTime }
      else obj.voteInstance outpoint eSignal := by
  rw [← hbase.voteInstance]
  exact voteInstance_setInstance base _ _ _ _ _

lemma Coherent.acceptVote (hco : Coherent obj) (h : Acceptable node obj vote) :
    Coherent (base.acceptVote vote nTime) := by
  intro filed hmem
  rw [voteInstance_acceptVote hbase]
  split
  · next hsame =>
    rcases (mem_fileVotes_acceptVote hbase h).mp hmem with rfl | ⟨hmem, -⟩
    · simp [StampLt]
    · have hle := hco filed hmem
      have hnot := h.notOlder
      rw [hsame.1, hsame.2] at hle
      change ¬ StampLt vote.nTime filed.nTime vote.getOutcome filed.getOutcome
      unfold StampLt at *
      omega
  · next hdiff =>
    rcases (mem_fileVotes_acceptVote hbase h).mp hmem with rfl | ⟨hmem, -⟩
    · exact absurd ⟨rfl, rfl⟩ hdiff
    · exact hco filed hmem

lemma Filed.acceptVote (hfiled : Filed obj) (h : Acceptable node obj vote) :
    Filed (base.acceptVote vote nTime) := by
  intro outpoint eSignal
  simp only [voteInstance_acceptVote hbase, mem_fileVotes_acceptVote hbase h]
  split
  · next hsame => exact .inr ⟨vote, .inl rfl, hsame.1.symm, hsame.2.symm, rfl, rfl⟩
  · next hdiff =>
    refine (hfiled outpoint eSignal).imp_right ?_
    rintro ⟨other, hmem, rfl, rfl, hstamp⟩
    -- `RemoveOldVotes` looks at the votes of one masternode for one signal
    exact ⟨other, .inr ⟨hmem, by grind [isOldVote]⟩, rfl, rfl, hstamp⟩

end

end AcceptVote

/-! ## One call of `ProcessVote` -/

section ProcessVote

variable {node : NodeView} {obj : CGovernanceObject} {vote other : CGovernanceVote} {log : VoteLog}
  {a b : CGovernanceObject}

lemma Counted.congr (hab : SameVotes a b) (h : Counted a vote) : Counted b vote := by
  rwa [Counted, hab.fileVotes] at h

lemma Coherent.congr (hab : SameVotes a b) (h : Coherent a) : Coherent b := by
  intro filed hmem
  rw [← hab.voteInstance]
  exact h filed (hab.fileVotes ▸ hmem)

/-- **`ProcessVote`, with rate checks or without**: it changes no vote of the object, or the
vote is acceptable and becomes current. -/
theorem processVote_step (node : NodeView) (fRateChecksEnabled : Bool) (vote : CGovernanceVote)
    (obj : CGovernanceObject) (log : VoteLog) :
    SameVotes obj (processVote node fRateChecksEnabled vote obj log).2.1 ∨
      Acceptable node obj vote ∧ ∃ base nTime, SameVotes base obj ∧
        (processVote node fRateChecksEnabled vote obj log).2.1 = base.acceptVote vote nTime := by
  have hrecord := sameVotes_emplaceRecord obj vote.masternodeOutpoint
  have hbase := (sameVotes_emplaceInstance (obj.emplaceRecord vote.masternodeOutpoint)
    vote.masternodeOutpoint vote.getSignal).trans hrecord
  unfold processVote processKnownSignal
  dsimp only
  rw [hbase.voteInstance, hbase.type]
  split
  case isTrue => exact .inl (.refl obj)
  case isFalse hnew =>
  split
  case h_1 => exact .inl (.refl obj)
  case h_2 dmn hmn =>
  split_ifs with hnone hunsupported hobsolete houtcome hoften hinvalid
  iterate 2 exact .inl hrecord.symm
  iterate 4 exact .inl hbase.symm
  -- rate checks only change the time that is noted
  all_goals exact .inr ⟨⟨by simpa using hnew, Option.isSome_of_mem hmn, hnone,
    not_lt.mp hunsupported, fun hlt => hlt.elim hobsolete houtcome, by simpa using hinvalid⟩,
      _, _, hbase, rfl⟩

lemma coherent_of_fileVotes_nil (h : obj.fileVotes = []) : Coherent obj := by
  intro filed hmem
  rw [h] at hmem
  cases hmem

/-- **Whole runs.** A new object processes any votes, with rate checks or without, in any views
of the node. Then its current votes are the newest ones of its file. -/
theorem newest_processVotes (hash : Uint256) (type : GovernanceObjectType) (log : VoteLog)
    (votes : List (NodeView × Bool × CGovernanceVote)) :
    let obj := (votes.foldl (fun state (node, fRateChecksEnabled, vote) =>
      (processVote node fRateChecksEnabled vote state.1 state.2).2) ({ hash, type }, log)).1
    Coherent obj ∧ Filed obj := by
  refine List.foldlRecOn (motive := fun (s : _ × VoteLog) => Coherent s.1 ∧ Filed s.1) votes _
    ⟨coherent_of_fileVotes_nil rfl, fun _ _ => .inl rfl⟩ ?_
  rintro ⟨obj, log⟩ ⟨hcoherent, hfiled⟩ ⟨node, fRateChecksEnabled, vote⟩ -
  rcases processVote_step node fRateChecksEnabled vote obj log with
    hsame | ⟨hacceptable, base, nTime, hbase, heq⟩
  · refine ⟨hcoherent.congr hsame, ?_⟩
    simpa only [Filed, hsame.fileVotes, hsame.voteInstance] using hfiled
  · rw [heq]
    exact ⟨hcoherent.acceptVote hbase hacceptable, hfiled.acceptVote hbase hacceptable⟩

end ProcessVote

end HootChain.Governance

import HootChain.Governance.Object
import Mathlib.Algebra.BigOperators.Group.Finset.Basic

/-!
# The Order of Votes (`governance/object.cpp`)

Nodes process the votes on an object in different orders. A vote becomes current if it is not
older than the current vote of its masternode and signal, and of two votes with the same time
the larger outcome wins. So the current vote is the largest of those that are valid, whatever
came first. A vote that is more than an hour ahead of the clock is dropped, and then it does
matter when it comes.
-/

namespace HootChain.Governance

open Primitives List CGovernanceVote CGovernanceObject

/-- Votes are processed without rate checks, each at its own time. -/
def processVotes (votes : List (NodeView × CGovernanceVote))
    (state : CGovernanceObject × VoteLog) : CGovernanceObject × VoteLog :=
  votes.foldl (fun s p => (processVote p.1 false p.2 s.1 s.2).2) state

/-! ## Current votes -/

section

variable (start : CGovernanceObject)

/-- The vote can become the current one of an object: it is valid, and was not filed at the
start. -/
def eligible (p : NodeView × CGovernanceVote) : Bool :=
  !hasVote start.fileVotes p.2.getHash && (p.1.getMNByCollateral p.2.masternodeOutpoint).isSome &&
    p.2.getSignal ≠ voteSignalNone && p.2.getSignal ≤ maxSupportedVoteSignal &&
    p.2.isValid p.1 (start.type == .proposal && p.2.getSignal == voteSignalFunding)

/-- The current vote of a masternode and signal after one more vote. -/
def nextInstance (outpoint : COutPoint) (eSignal : Nat) (inst : VoteInstance)
    (p : NodeView × CGovernanceVote) : VoteInstance :=
  if (eligible start p = true ∧ outpoint = p.2.masternodeOutpoint ∧ eSignal = p.2.getSignal) ∧
      (inst.nCreationTime < p.2.nTime ∨
        inst.nCreationTime = p.2.nTime ∧ inst.eOutcome ≤ p.2.getOutcome) then
    { eOutcome := p.2.getOutcome, nTime := inst.nTime, nCreationTime := p.2.nTime }
  else inst

/-- Of two votes it does not matter which one comes first. -/
lemma nextInstance_comm (outpoint : COutPoint) (eSignal : Nat) (inst : VoteInstance)
    (p q : NodeView × CGovernanceVote) :
    nextInstance start outpoint eSignal (nextInstance start outpoint eSignal inst p) q =
      nextInstance start outpoint eSignal (nextInstance start outpoint eSignal inst q) p := by
  unfold nextInstance
  split_ifs <;> simp_all only [and_true, true_and, not_or, VoteInstance.mk.injEq] <;> omega

end

section Steps

variable {start obj base : CGovernanceObject} {p : NodeView × CGovernanceVote} {log : VoteLog}

/-- What is filed at the start stays filed or has become too old, and what was filed since is
not newer than the current vote. -/
structure Follows (start obj : CGovernanceObject) : Prop where
  type : obj.type = start.type
  known : ∀ vote : CGovernanceVote, hasVote start.fileVotes vote.getHash = true →
    hasVote obj.fileVotes vote.getHash = true ∨
      vote.nTime < (obj.voteInstance vote.masternodeOutpoint vote.getSignal).nCreationTime
  filed : ∀ vote ∈ obj.fileVotes, hasVote start.fileVotes vote.getHash = true ∨
    ¬ StampLt (obj.voteInstance vote.masternodeOutpoint vote.getSignal).nCreationTime vote.nTime
      (obj.voteInstance vote.masternodeOutpoint vote.getSignal).eOutcome vote.getOutcome

/-- The hash of a vote fixes all but its signature. -/
lemma fields_of_getHash {vote other : CGovernanceVote} (h : vote.getHash = other.getHash) :
    vote.masternodeOutpoint = other.masternodeOutpoint ∧ vote.getSignal = other.getSignal ∧
      vote.nTime = other.nTime ∧ vote.getOutcome = other.getOutcome := by
  simp only [getHash, VoteHash.mk.injEq] at h
  obtain ⟨hmn, -, houtcome, hsignal, htime⟩ := h
  exact ⟨hmn, by rw [getSignal, hsignal, getSignal], htime,
    by rw [getOutcome, houtcome, getOutcome]⟩

lemma Follows.congr (hbase : SameVotes base obj) (h : Follows start obj) :
    Follows start base where
  type := hbase.type.trans h.type
  known vote hvote := by
    rw [hbase.fileVotes, hbase.voteInstance]
    exact h.known vote hvote
  filed vote hvote := by
    rw [hbase.voteInstance]
    exact h.filed vote (hbase.fileVotes ▸ hvote)

variable (hfollows : Follows start obj)

include hfollows

lemma Acceptable.eligible (h : Acceptable p.1 obj p.2) : Governance.eligible start p = true := by
  have hnew : hasVote start.fileVotes p.2.getHash = false := by
    by_contra hknown
    rcases hfollows.known p.2 (by simpa using hknown) with hhas | hold
    · rw [h.isNew] at hhas
      cases hhas
    · exact h.notOlder (.inl hold)
  simp [Governance.eligible, hnew, h.masternode, h.signalSet, h.signalSupported,
    hfollows.type ▸ h.isValid]

/-- An eligible vote that is not accepted has become current before, or is older. -/
lemma nextInstance_of_not_acceptable
    (h : ¬ Acceptable p.1 obj p.2) (outpoint : COutPoint) (eSignal : Nat) :
    nextInstance start outpoint eSignal (obj.voteInstance outpoint eSignal) p =
      obj.voteInstance outpoint eSignal := by
  unfold nextInstance
  split
  case isFalse => rfl
  case isTrue hnext =>
    obtain ⟨⟨heligible, rfl, rfl⟩, hstamp⟩ := hnext
    simp only [Governance.eligible, Bool.and_eq_true, Bool.not_eq_true', decide_eq_true_eq,
      ne_eq] at heligible
    obtain ⟨⟨⟨⟨hnew, hmn⟩, hset⟩, hsupported⟩, hvalid⟩ := heligible
    have hhas : hasVote obj.fileVotes p.2.getHash = true := by
      by_contra hnot
      refine h ⟨by simpa using hnot, hmn, hset, hsupported, ?_, hfollows.type ▸ hvalid⟩
      unfold StampLt
      omega
    obtain ⟨filed, hmem, hhash⟩ := hasVote_iff.mp hhas
    obtain ⟨hmn', hsignal, htime, houtcome⟩ := fields_of_getHash hhash
    rcases hfollows.filed filed hmem with hstart | hle
    · rw [hhash, hnew] at hstart
      cases hstart
    · rw [hmn', hsignal] at hle
      unfold StampLt at hle
      have htime' : p.2.nTime =
          (obj.voteInstance p.2.masternodeOutpoint p.2.getSignal).nCreationTime := by omega
      have houtcome' : p.2.getOutcome =
          (obj.voteInstance p.2.masternodeOutpoint p.2.getSignal).eOutcome := by omega
      rw [htime', houtcome']

lemma Follows.acceptVote (hbase : SameVotes base obj)
    (h : Acceptable p.1 obj p.2) (nTime : Int) : Follows start (base.acceptVote p.2 nTime) where
  type := hbase.type.trans hfollows.type
  known vote hvote := by
    rw [voteInstance_acceptVote hbase]
    rcases hfollows.known vote hvote with hhas | hold
    · obtain ⟨filed, hmem, hhash⟩ := hasVote_iff.mp hhas
      cases hdropped : isOldVote p.2 filed with
      | false =>
        exact .inl (hasVote_iff.mpr
          ⟨filed, (mem_fileVotes_acceptVote hbase h).mpr (.inr ⟨hmem, hdropped⟩), hhash⟩)
      | true =>
        obtain ⟨hmn, -, hsignal, htime⟩ := isOldVote_iff.mp hdropped
        obtain ⟨hmn', hsignal', htime', -⟩ := fields_of_getHash hhash
        rw [if_pos ⟨hmn' ▸ hmn, hsignal' ▸ hsignal⟩]
        exact .inr (htime' ▸ htime)
    · right
      split
      case isTrue hsame =>
        have hnot := h.notOlder
        rw [hsame.1, hsame.2] at hold
        unfold StampLt at hnot
        dsimp only
        omega
      case isFalse => exact hold
  filed vote hvote := by
    rw [voteInstance_acceptVote hbase]
    rcases (mem_fileVotes_acceptVote hbase h).mp hvote with rfl | ⟨hmem, -⟩
    · exact .inr (by simp [StampLt])
    · refine (hfollows.filed vote hmem).imp_right fun hle => ?_
      split
      case isTrue hsame =>
        have hnot := h.notOlder
        rw [hsame.1, hsame.2] at hle
        unfold StampLt at *
        dsimp only
        omega
      case isFalse => exact hle

/-- **One vote.** The current votes after a vote, and the file still fits them. -/
theorem voteInstance_processVote :
    Follows start (processVote p.1 false p.2 obj log).2.1 ∧ ∀ outpoint eSignal,
      (processVote p.1 false p.2 obj log).2.1.voteInstance outpoint eSignal =
        nextInstance start outpoint eSignal (obj.voteInstance outpoint eSignal) p := by
  rcases processVote_cases p.1 p.2 obj log with
    ⟨hacc, base, log', hbase, heq⟩ | ⟨hnot, e, obj', log', hsame, heq⟩
  · rw [heq]
    refine ⟨hfollows.acceptVote hbase hacc _, fun outpoint eSignal => ?_⟩
    have hnot := hacc.notOlder
    rw [voteInstance_acceptVote hbase, nextInstance, hacc.eligible hfollows]
    by_cases hsame : outpoint = p.2.masternodeOutpoint ∧ eSignal = p.2.getSignal
    · obtain ⟨rfl, rfl⟩ := hsame
      rw [if_pos ⟨rfl, rfl⟩, if_pos]
      unfold StampLt at hnot
      exact ⟨⟨rfl, rfl, rfl⟩, by omega⟩
    · rw [if_neg hsame, if_neg fun h => hsame h.1.2]
  · rw [heq]
    refine ⟨hfollows.congr hsame, fun outpoint eSignal => ?_⟩
    rw [nextInstance_of_not_acceptable hfollows hnot]
    exact hsame.voteInstance outpoint eSignal

omit hfollows in
/-- The current votes after any votes are those that the votes make one after the other. -/
lemma voteInstance_processVotes (votes : List (NodeView × CGovernanceVote))
    (hfollows : Follows start obj) (outpoint : COutPoint) (eSignal : Nat) :
    (processVotes votes (obj, log)).1.voteInstance outpoint eSignal =
      votes.foldl (nextInstance start outpoint eSignal) (obj.voteInstance outpoint eSignal) := by
  induction votes generalizing obj log with
  | nil => rfl
  | cons p votes ih =>
    obtain ⟨hnext, hinst⟩ := @voteInstance_processVote start obj p log hfollows
    rw [foldl_cons, ← hinst outpoint eSignal]
    exact ih hnext

end Steps

/-! ## Counts -/

/-- What a masternode adds to a count. -/
def voteWeight (node : NodeView) (obj : CGovernanceObject) (eSignal eOutcome : Nat)
    (outpoint : COutPoint) : Int :=
  if (obj.voteInstance outpoint eSignal).eOutcome = eOutcome then
    (node.getMNByCollateral outpoint).elim 0 fun dmn => dmn.votingWeight
  else 0

/-- A count is a sum over the masternodes with a record. -/
lemma countMatchingVotes_eq_sum (node : NodeView) (obj : CGovernanceObject) (eSignal : Nat)
    {eOutcome : Nat} (h : eOutcome ≠ voteOutcomeNone) :
    obj.countMatchingVotes node eSignal eOutcome =
      ∑ outpoint ∈ obj.mapCurrentMNVotes.keys.toFinset,
        voteWeight node obj eSignal eOutcome outpoint := by
  rw [sum_toFinset _ obj.mapCurrentMNVotes.keys_nodup, AList.keys, keys, map_map,
    sum_eq_foldl, foldl_map]
  refine foldl_ext _ _ _ fun nCount e he => ?_
  have hrecord : obj.mapCurrentMNVotes.lookup e.1 = some e.2 := AList.mem_lookup_iff.mpr he
  rw [Function.comp_apply, voteWeight, voteInstance, hrecord, Option.bind_some]
  cases hinst : e.2.lookup eSignal with
  | none => simp [show ¬ 0 = eOutcome from h.symm, voteOutcomeNone]
  | some inst =>
    cases node.getMNByCollateral e.1 with
    | none => simp
    | some dmn => split_ifs <;> simp_all

lemma countMatchingVotes_congr {obj obj' : CGovernanceObject} (node : NodeView) (eSignal : Nat)
    {eOutcome : Nat} (h : eOutcome ≠ voteOutcomeNone)
    (hsame : ∀ outpoint, obj.voteInstance outpoint eSignal = obj'.voteInstance outpoint eSignal) :
    obj.countMatchingVotes node eSignal eOutcome =
      obj'.countMatchingVotes node eSignal eOutcome := by
  -- a masternode without a record adds nothing
  have hzero : ∀ (o : CGovernanceObject) outpoint, outpoint ∉ o.mapCurrentMNVotes.keys.toFinset →
      voteWeight node o eSignal eOutcome outpoint = 0 := by
    intro o outpoint hnot
    rw [mem_toFinset, ← AList.mem_keys, ← AList.lookup_eq_none] at hnot
    exact if_neg (by rw [voteInstance, hnot]; exact h.symm)
  rw [countMatchingVotes_eq_sum node obj eSignal h, countMatchingVotes_eq_sum node obj' eSignal h,
    Finset.sum_subset Finset.subset_union_left fun o _ => hzero obj o,
    Finset.sum_subset Finset.subset_union_right fun o _ => hzero obj' o]
  exact Finset.sum_congr rfl fun o _ => by rw [voteWeight, voteWeight, hsame]

/-! ## Orders -/

/-- A vote comes to a node with the masternodes of `node`, and is not more than an hour ahead of
its clock. -/
structure ComesInTime (node : NodeView) (p : NodeView × CGovernanceVote) : Prop where
  getMNByCollateral : p.1.getMNByCollateral = node.getMNByCollateral
  votingKey : p.1.checkVotingKeySignature = node.checkVotingKeySignature
  operator : p.1.checkOperatorSignature = node.checkOperatorSignature
  clock : p.2.nTime ≤ p.1.adjustedTime + 60 * 60

/-- The vote at the time it was made. -/
def atOwnTime (node : NodeView) (vote : CGovernanceVote) : NodeView × CGovernanceVote :=
  ({ node with adjustedTime := vote.nTime }, vote)

/-- When a vote comes makes no difference, if it comes in time. -/
lemma ComesInTime.nextInstance_eq {node : NodeView} {p : NodeView × CGovernanceVote}
    (h : ComesInTime node p) (start : CGovernanceObject) (outpoint : COutPoint) (eSignal : Nat)
    (inst : VoteInstance) :
    nextInstance start outpoint eSignal inst p =
      nextInstance start outpoint eSignal inst (atOwnTime node p.2) := by
  have hown : ¬ p.2.nTime > (atOwnTime node p.2).1.adjustedTime + 60 * 60 :=
    not_lt.mpr (le_add_of_nonneg_right (by decide))
  have hvalid : ∀ useVotingKey, p.2.isValid p.1 useVotingKey =
      p.2.isValid (atOwnTime node p.2).1 useVotingKey := by
    intro useVotingKey
    rw [isValid, isValid, if_neg (not_lt.mpr h.clock), if_neg hown, h.getMNByCollateral,
      h.votingKey, h.operator]
    rfl
  rw [nextInstance, nextInstance, eligible, eligible, hvalid, h.getMNByCollateral]
  rfl

/-- **Order.** Two nodes with the same masternodes get the same votes in any two orders, each
vote when it is not more than an hour ahead. Whatever the times of the votes, the current votes
and the counts of yes, no and abstain are the same in the end. -/
theorem processVotes_orderFree (obj : CGovernanceObject) (log log' : VoteLog) (node : NodeView)
    {votes votes' : List (NodeView × CGovernanceVote)}
    (hvotes : ∀ p ∈ votes, ComesInTime node p) (hvotes' : ∀ p ∈ votes', ComesInTime node p)
    (h : (votes.map Prod.snd).Perm (votes'.map Prod.snd)) :
    (∀ outpoint eSignal, (processVotes votes (obj, log)).1.voteInstance outpoint eSignal =
      (processVotes votes' (obj, log')).1.voteInstance outpoint eSignal) ∧
    ∀ node eSignal,
      (∀ eOutcome, eOutcome ≠ voteOutcomeNone →
        (processVotes votes (obj, log)).1.countMatchingVotes node eSignal eOutcome =
          (processVotes votes' (obj, log')).1.countMatchingVotes node eSignal eOutcome) ∧
      (processVotes votes (obj, log)).1.getAbsoluteYesCount node eSignal =
        (processVotes votes' (obj, log')).1.getAbsoluteYesCount node eSignal := by
  have hstart : Follows obj obj := ⟨rfl, fun _ h => .inl h, fun vote hvote => .inl
    (hasVote_iff.mpr ⟨vote, hvote, rfl⟩)⟩
  -- the current votes after votes that come in time are made by the votes alone
  have hfold : ∀ (votes : List (NodeView × CGovernanceVote)) outpoint eSignal inst,
      (∀ p ∈ votes, ComesInTime node p) →
      votes.foldl (nextInstance obj outpoint eSignal) inst =
        ((votes.map Prod.snd).map (atOwnTime node)).foldl (nextInstance obj outpoint eSignal)
          inst := by
    intro votes outpoint eSignal inst hvotes
    rw [foldl_map, foldl_map]
    exact foldl_ext _ _ _ fun inst p hp => (hvotes p hp).nextInstance_eq obj outpoint eSignal inst
  have hsame : ∀ outpoint eSignal, (processVotes votes (obj, log)).1.voteInstance outpoint eSignal =
      (processVotes votes' (obj, log')).1.voteInstance outpoint eSignal := by
    intro outpoint eSignal
    rw [voteInstance_processVotes votes hstart, voteInstance_processVotes votes' hstart,
      hfold votes _ _ _ hvotes, hfold votes' _ _ _ hvotes']
    exact (h.map (atOwnTime node)).foldl_eq'
      (fun p _ q _ inst => nextInstance_comm obj outpoint eSignal inst p q) _
  refine ⟨hsame, fun node eSignal => ⟨fun eOutcome hne =>
    countMatchingVotes_congr node eSignal hne fun outpoint => hsame outpoint eSignal, ?_⟩⟩
  rw [getAbsoluteYesCount, getAbsoluteYesCount,
    countMatchingVotes_congr node eSignal (by decide) fun outpoint => hsame outpoint eSignal,
    countMatchingVotes_congr node eSignal (by decide) fun outpoint => hsame outpoint eSignal]

/-- One masternode, whose signatures are all valid, and a clock. -/
def loneVoter (adjustedTime : Int) : NodeView where
  adjustedTime := adjustedTime
  time := adjustedTime
  isSynced := true
  getMNByCollateral := fun _ => some ⟨1, 4, 1, 1⟩
  validWeightedMNsCount := 4
  nGovernanceMinQuorum := 1
  hashString := fun _ => ""
  checkVotingKeySignature := fun _ _ => true
  checkOperatorSignature := fun _ _ => true

/-- It votes yes and no at the same time, and no counts. -/
theorem processVotes_orderFree_tie :
    let yes : CGovernanceVote := ⟨⟨1, 0⟩, 7, 1, 1, 50, []⟩
    let no : CGovernanceVote := ⟨⟨1, 0⟩, 7, 2, 1, 50, []⟩
    let obj : CGovernanceObject := { hash := 7, type := .proposal }
    (processVotes [(loneVoter 100, yes), (loneVoter 200, no)] (obj, {})).1.getAbsoluteYesCount
        (loneVoter 300) 1 = -4 ∧
      (processVotes [(loneVoter 100, no), (loneVoter 200, yes)] (obj, {})).1.getAbsoluteYesCount
        (loneVoter 300) 1 = -4 := by
  intro yes no obj
  have hcomes : ∀ adjustedTime ∈ [100, 200], ∀ vote ∈ [yes, no],
      ComesInTime (loneVoter 100) (loneVoter adjustedTime, vote) := by
    intro adjustedTime htime vote hvote
    refine ⟨rfl, rfl, rfl, ?_⟩
    revert vote adjustedTime
    decide
  have hswap := processVotes_orderFree obj {} {} (loneVoter 100)
    (by simp [hcomes] : ∀ p ∈ [(loneVoter 100, no), (loneVoter 200, yes)], _)
    (by simp [hcomes] : ∀ p ∈ [(loneVoter 100, yes), (loneVoter 200, no)], _)
    (List.Perm.swap yes no [])
  refine ⟨by decide +kernel, ?_⟩
  rw [(hswap.2 (loneVoter 300) 1).2]
  decide +kernel

/-- It votes no, and yes with a time of two hours later. If the yes comes first it is dropped, and
if it comes two hours later it counts. -/
theorem processVotes_drops_early :
    let no : CGovernanceVote := ⟨⟨1, 0⟩, 7, 2, 1, 50, []⟩
    let yes : CGovernanceVote := ⟨⟨1, 0⟩, 7, 1, 1, 7300, []⟩
    let obj : CGovernanceObject := { hash := 7, type := .proposal }
    (processVotes [(loneVoter 100, yes), (loneVoter 7300, no)] (obj, {})).1.getAbsoluteYesCount
        (loneVoter 7300) 1 = -4 ∧
      (processVotes [(loneVoter 100, no), (loneVoter 7300, yes)] (obj, {})).1.getAbsoluteYesCount
        (loneVoter 7300) 1 = 4 := by
  decide +kernel

end HootChain.Governance

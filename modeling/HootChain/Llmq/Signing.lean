import HootChain.Foundation.EventRuns
import HootChain.Foundation.SortedCut
import HootChain.Llmq.Params
import HootChain.Primitives.Transaction
import Mathlib.Data.List.TakeWhile

/-!
# Votes and Signature Shares (`llmq/signing.cpp`)

Before a node signs a message hash for a request id, `AsyncSignIfMember` records its vote
under the quorum type and the id, and it does not sign another hash as long as the vote is
on record. Votes are also filed under the time at which they were cast, so that
`CleanupOldVotes` can remove the old ones. The times are kept in 32 bits, and so is the
time up to which votes are removed: it wraps around if the maximum age is larger than the
clock.

A run is any sequence of calls, recovered signatures, cleanups and restarts, with a clock
that does not go back. History variables number the votes of a request and note why each
was removed.
-/

namespace HootChain.Llmq.Signing

open Foundation Primitives List Function

/-! ## The database -/

/-- A quorum type and a request id. -/
abbrev RequestKey := LLMQType × Uint256

/-- An entry of a time index: a time in 32 bits and a request. -/
abbrev TimeKey := Nat × RequestKey

/-- `(uint32_t)`. -/
def toUInt32 (x : Int) : Nat := (x % 2 ^ 32).toNat

/-- The entries that a cleanup visits: the keys come in the order of their big-endian times, and the
loop ends at the first that is not before `endTime`. -/
def iterate (times : List TimeKey) (endTime : Nat) : List TimeKey :=
  (times.insertionSort fun a b => a.1 ≤ b.1).takeWhile fun k => k.1 < endTime

/-- The votes (`rs_v`) and their times (`rs_vt`). -/
structure VoteDb where
  votes : RequestKey → Option Uint256 := fun _ => none
  times : List TimeKey := []

open VoteDb

namespace VoteDb

/-- `HasVotedOnId` and `GetVoteForId`. -/
def getVoteForId (db : VoteDb) (key : RequestKey) : Option Uint256 := db.votes key

def writeVoteForId (db : VoteDb) (key : RequestKey) (msgHash : Uint256) (now : Nat) : VoteDb where
  votes := update db.votes key (some msgHash)
  times := (toUInt32 now, key) :: db.times

/-- The votes that `CleanupOldVotes` removes. -/
def oldVotes (db : VoteDb) (now : Nat) (maxAge : Int) : List RequestKey :=
  (iterate db.times (toUInt32 (now - maxAge))).map Prod.snd

def cleanupOldVotes (db : VoteDb) (now : Nat) (maxAge : Int) : VoteDb where
  votes key := if key ∈ db.oldVotes now maxAge then none else db.votes key
  times := db.times.filter fun k => k ∉ iterate db.times (toUInt32 (now - maxAge))

end VoteDb

/-- The recovered signatures (`rs_r`), by their message hashes, with their times (`rs_t`) and
`hasSigForIdCache`. -/
structure RecSigDb where
  sigs : RequestKey → Option Uint256 := fun _ => none
  times : List TimeKey := []
  hasSigForIdCache : RequestKey → Option Bool := fun _ => none

namespace RecSigDb

variable (db : RecSigDb) (key : RequestKey)

def hasRecoveredSigForId : Bool × RecSigDb :=
  match db.hasSigForIdCache key with
  | some ret => (ret, db)
  | none =>
    let ret := (db.sigs key).isSome
    (ret, { db with hasSigForIdCache := update db.hasSigForIdCache key (some ret) })

def writeRecoveredSig (msgHash : Uint256) (now : Nat) : RecSigDb where
  sigs := update db.sigs key (some msgHash)
  times := (toUInt32 now, key) :: db.times
  hasSigForIdCache := update db.hasSigForIdCache key (some true)

/-- `RemoveRecoveredSig`, without the entry by time. -/
def removeRecoveredSig : RecSigDb :=
  match db.sigs key with
  | none => db
  | some _ =>
    { db with
      sigs := update db.sigs key none
      hasSigForIdCache := update db.hasSigForIdCache key none }

def cleanupOldRecoveredSigs (now : Nat) (maxAge : Int) : RecSigDb :=
  let toDelete := iterate db.times (toUInt32 (now - maxAge))
  let removed := (toDelete.map Prod.snd).foldl removeRecoveredSig db
  { removed with times := removed.times.filter fun k => k ∉ toDelete }

/-- `ProcessRecoveredSig`, the database. -/
def processRecoveredSig (msgHash : Uint256) (now : Nat) : RecSigDb :=
  match db.hasRecoveredSigForId key with
  | (false, db) => db.writeRecoveredSig key msgHash now
  | (true, db) =>
    match db.sigs key with
    | some _ => db
    | none => db.writeRecoveredSig key msgHash now

end RecSigDb

/-! ## The node -/

/-- A signature to make or made, of the vote with the given number of its request. -/
structure PendingSign where
  key : RequestKey
  quorumHash : Uint256
  msgHash : Uint256
  voteNumber : Nat

/-- The removal of the vote with a number: whether it was older than the maximum age. -/
structure Removal where
  key : RequestKey
  voteNumber : Nat
  dueToAge : Bool

/-- History variables: when the last vote on a request was cast, how many were removed, and how. -/
structure VoteHistory where
  votedAt : RequestKey → Nat := fun _ => 0
  removed : RequestKey → Nat := fun _ => 0
  removals : List Removal := []

open VoteHistory

namespace VoteHistory

/-- A vote is cast. -/
def vote (h : VoteHistory) (key : RequestKey) (now : Nat) : VoteHistory :=
  { h with votedAt := update h.votedAt key now }

def remove (h : VoteHistory) (keys : List RequestKey) (now : Nat) (maxAge : Int) : VoteHistory where
  votedAt := h.votedAt
  removed key := if key ∈ keys then h.removed key + 1 else h.removed key
  removals := keys.map (fun key =>
    ⟨key, h.removed key, maxAge < (now : Int) - h.votedAt key⟩) ++ h.removals

end VoteHistory

/-- The signing manager of a node: the clock in seconds, `-maxrecsigsage`, the database, the
signatures to make and the signature shares made. -/
structure Node where
  now : Nat
  maxAge : Int
  voteDb : VoteDb := {}
  recSigDb : RecSigDb := {}
  pendingSigns : List PendingSign := []
  shares : List PendingSign := []
  history : VoteHistory := {}

namespace Node

def asyncSign (s : Node) (key : RequestKey) (quorumHash msgHash : Uint256) : Node :=
  { s with pendingSigns := s.pendingSigns ++ [⟨key, quorumHash, msgHash, s.history.removed key⟩] }

/-- The end of `AsyncSignIfMember`, from the test for a recovered signature on. -/
def signUnlessRecovered (s : Node) (key : RequestKey) (quorumHash msgHash : Uint256)
    (hasVoted : Bool) : Bool × Node :=
  match s.recSigDb.hasRecoveredSigForId key with
  | (true, recSigDb) => (true, { s with recSigDb })
  | (false, recSigDb) =>
    let s := { s with recSigDb }
    let s := if hasVoted then s else
      { s with
        voteDb := s.voteDb.writeVoteForId key msgHash s.now
        history := s.history.vote key s.now }
    (true, s.asyncSign key quorumHash msgHash)

/-- `AsyncSignIfMember`. A quorum is selected or not, and the node is a valid member of it or
not. -/
def asyncSignIfMember (s : Node) (key : RequestKey) (quorumHash msgHash : Uint256)
    (isMember allowReSign : Bool) : Bool × Node :=
  if !isMember then (false, s)
  else
    match s.voteDb.getVoteForId key with
    | none => s.signUnlessRecovered key quorumHash msgHash false
    | some prevMsgHash =>
      if msgHash ≠ prevMsgHash then (false, s)
      else if allowReSign then s.signUnlessRecovered key quorumHash msgHash true
      else (false, s)

/-- `SignPendingSigShares`; a share may not be created. -/
def signPendingSigShares (s : Node) (created : PendingSign → Bool) : Node :=
  { s with pendingSigns := [], shares := s.shares ++ s.pendingSigns.filter created }

def cleanup (s : Node) : Node :=
  { s with
    recSigDb := s.recSigDb.cleanupOldRecoveredSigs s.now s.maxAge
    voteDb := s.voteDb.cleanupOldVotes s.now s.maxAge
    history := s.history.remove (s.voteDb.oldVotes s.now s.maxAge) s.now s.maxAge }

end Node

/-- What happens to the signing manager. -/
inductive SigningEvent where
  /-- Time passes. -/
  | tick (seconds : Nat)
  | sign (key : RequestKey) (quorumHash msgHash : Uint256) (isMember allowReSign : Bool)
  /-- The worker thread makes the shares that are asked for. -/
  | signPending (created : PendingSign → Bool)
  /-- A verified recovered signature arrives. -/
  | recoveredSig (key : RequestKey) (msgHash : Uint256)
  | truncateRecoveredSig (key : RequestKey)
  | cleanup
  /-- The cache drops answers. -/
  | evict (drop : RequestKey → Bool)
  /-- The node is restarted, possibly with another `-maxrecsigsage`. -/
  | restart (maxAge : Int)

namespace Node

def step (s : Node) : SigningEvent → Node
  | .tick seconds => { s with now := s.now + seconds }
  | .sign key quorumHash msgHash isMember allowReSign =>
    (s.asyncSignIfMember key quorumHash msgHash isMember allowReSign).2
  | .signPending created => s.signPendingSigShares created
  | .recoveredSig key msgHash =>
    { s with recSigDb := s.recSigDb.processRecoveredSig key msgHash s.now }
  | .truncateRecoveredSig key => { s with recSigDb := s.recSigDb.removeRecoveredSig key }
  | .cleanup => s.cleanup
  | .evict drop =>
    { s with
      recSigDb := { s.recSigDb with
        hasSigForIdCache := fun key => if drop key then none else s.recSigDb.hasSigForIdCache key } }
  | .restart maxAge =>
    { s with
      maxAge
      pendingSigns := []
      recSigDb := { s.recSigDb with hasSigForIdCache := fun _ => none } }

/-- The node after any events. -/
def run (now : Nat) (maxAge : Int) (events : List SigningEvent) : Node :=
  events.foldl step { now, maxAge }

end Node

/-! ## The time index -/

section Iterate

variable {times : List TimeKey} {endTime : Nat} {k : TimeKey}

/-- **The cleanup visits** exactly the entries before the end time. -/
theorem mem_iterate_iff : k ∈ iterate times endTime ↔ k ∈ times ∧ k.1 < endTime := by
  have hsorted := pairwise_insertionSort (fun a b : TimeKey => a.1 ≤ b.1) times
  have hfront : (times.insertionSort fun a b => a.1 ≤ b.1).Pairwise fun a b =>
      decide (b.1 < endTime) = true → decide (a.1 < endTime) = true :=
    hsorted.imp fun hab hb => by simpa using hab.trans_lt (of_decide_eq_true hb)
  rw [iterate, (SortedCut.takeWhile_dropWhile_eq_filter hfront).1, mem_filter, mem_insertionSort,
    decide_eq_true_iff]

end Iterate

/-! ## Votes on record -/

/-- What the records say about the signatures asked for or made: every vote is filed under its time,
and the signatures of the current vote of a request are for its message hash. -/
structure Recorded (db : VoteDb) (h : VoteHistory) (signs : List PendingSign) : Prop where
  dated : ∀ {key msgHash}, db.votes key = some msgHash → (toUInt32 (h.votedAt key), key) ∈ db.times
  voted : ∀ {time key}, (time, key) ∈ db.times →
    time = toUInt32 (h.votedAt key) ∧ ∃ msgHash, db.votes key = some msgHash
  number_le : ∀ {p}, p ∈ signs → p.voteNumber ≤ h.removed p.key
  current : ∀ {p}, p ∈ signs → p.voteNumber = h.removed p.key → db.votes p.key = some p.msgHash
  agree : ∀ {p p'}, p ∈ signs → p' ∈ signs → p.key = p'.key → p.voteNumber = p'.voteNumber →
    p.msgHash = p'.msgHash
  removed : ∀ {key voteNumber}, voteNumber < h.removed key →
    ∃ removal ∈ h.removals, removal.key = key ∧ removal.voteNumber = voteNumber

section Recorded

variable {db : VoteDb} {h : VoteHistory} {signs signs' : List PendingSign} {key : RequestKey}
  {quorumHash msgHash : Uint256}

lemma recorded_empty : Recorded {} {} [] where
  dated h := by cases h
  voted h := by cases h
  number_le h := by cases h
  current h := by cases h
  agree h := by cases h
  removed h := by cases h

variable (hr : Recorded db h signs)

include hr

lemma Recorded.mono (hsub : ∀ p ∈ signs', p ∈ signs) : Recorded db h signs' where
  dated := hr.dated
  voted := hr.voted
  number_le hp := hr.number_le (hsub _ hp)
  current hp := hr.current (hsub _ hp)
  agree hp hp' := hr.agree (hsub _ hp) (hsub _ hp')
  removed := hr.removed

/-- A signature for the message hash that is on record. -/
lemma Recorded.sign (hvote : db.votes key = some msgHash) (quorumHash : Uint256) :
    Recorded db h (⟨key, quorumHash, msgHash, h.removed key⟩ :: signs) where
  dated := hr.dated
  voted := hr.voted
  number_le hp := by
    rcases mem_cons.mp hp with rfl | hp
    · exact le_rfl
    · exact hr.number_le hp
  current hp := by
    rcases mem_cons.mp hp with rfl | hp
    · exact fun _ => hvote
    · exact hr.current hp
  agree {p p'} hp hp' hkey hnumber := by
    -- all signatures of the current vote are for what is on record
    have hcurrent : ∀ q ∈ signs, q.key = key → q.voteNumber = h.removed key →
        q.msgHash = msgHash := by
      intro q hq hk hn
      have := hr.current hq (hk ▸ hn)
      rw [hk, hvote] at this
      exact (Option.some.inj this).symm
    rcases mem_cons.mp hp with rfl | hp
    · rcases mem_cons.mp hp' with rfl | hp'
      · rfl
      · exact (hcurrent p' hp' hkey.symm hnumber.symm).symm
    · rcases mem_cons.mp hp' with rfl | hp'
      · exact hcurrent p hp hkey hnumber
      · exact hr.agree hp hp' hkey hnumber
  removed := hr.removed

/-- A vote on a request without one. -/
lemma Recorded.vote (hnone : db.votes key = none) (msgHash : Uint256) (now : Nat) :
    Recorded (db.writeVoteForId key msgHash now) (h.vote key now) signs where
  dated {key' msgHash'} hvote := by
    simp only [writeVoteForId, VoteHistory.vote] at hvote ⊢
    by_cases hkey : key' = key
    · simp [hkey]
    · rw [update_of_ne hkey] at hvote ⊢
      exact mem_cons_of_mem _ (hr.dated hvote)
  voted {time key'} hmem := by
    simp only [writeVoteForId, VoteHistory.vote] at hmem ⊢
    rcases mem_cons.mp hmem with heq | hmem
    · cases heq
      simp
    · obtain ⟨htime, msgHash', hvote⟩ := hr.voted hmem
      have hkey : key' ≠ key := by
        rintro rfl
        simp [hnone] at hvote
      rw [update_of_ne hkey, update_of_ne hkey]
      exact ⟨htime, msgHash', hvote⟩
  number_le := hr.number_le
  current {p} hp hnumber := by
    -- no signature belongs to a vote that is just being cast
    have hvote := hr.current hp hnumber
    have hkey : p.key ≠ key := by
      intro heq
      simp [heq, hnone] at hvote
    simp only [writeVoteForId]
    rwa [update_of_ne hkey]
  agree := hr.agree
  removed := hr.removed

/-- The votes that are removed, by the times at which they were cast. -/
lemma Recorded.mem_oldVotes_iff {now : Nat} {maxAge : Int} :
    key ∈ db.oldVotes now maxAge ↔ (∃ msgHash, db.votes key = some msgHash) ∧
      toUInt32 (h.votedAt key) < toUInt32 (now - maxAge) := by
  simp only [oldVotes, mem_map, mem_iterate_iff, Prod.exists, exists_eq_right]
  constructor
  · rintro ⟨time, hmem, hlt⟩
    obtain ⟨htime, hvote⟩ := hr.voted hmem
    exact ⟨hvote, htime ▸ hlt⟩
  · rintro ⟨⟨msgHash, hvote⟩, hlt⟩
    exact ⟨_, hr.dated hvote, hlt⟩

/-- A cleanup removes votes of a certain age, and is entered as the removal of each. -/
lemma Recorded.cleanup (now : Nat) (maxAge : Int) :
    Recorded (db.cleanupOldVotes now maxAge) (h.remove (db.oldVotes now maxAge) now maxAge)
      signs where
  dated {key msgHash} hvote := by
    simp only [cleanupOldVotes] at hvote ⊢
    split at hvote
    · cases hvote
    · rename_i hkept
      refine mem_filter.mpr ⟨hr.dated hvote, ?_⟩
      simp only [decide_not, Bool.not_eq_true', decide_eq_false_iff_not]
      exact fun hmem => hkept (mem_map.mpr ⟨_, hmem, rfl⟩)
  voted {time key} hmem := by
    simp only [cleanupOldVotes] at hmem ⊢
    simp only [mem_filter, decide_not, Bool.not_eq_true', decide_eq_false_iff_not,
      mem_iterate_iff] at hmem
    obtain ⟨hmem, hnot⟩ := hmem
    obtain ⟨htime, hvote⟩ := hr.voted hmem
    have hkept : key ∉ db.oldVotes now maxAge := fun hold =>
      hnot ⟨hmem, htime ▸ (hr.mem_oldVotes_iff.mp hold).2⟩
    rw [if_neg hkept]
    exact ⟨htime, hvote⟩
  number_le {p} hp := by
    have := hr.number_le hp
    simp only [remove]
    split
    · omega
    · exact this
  current {p} hp hnumber := by
    have hle := hr.number_le hp
    simp only [remove, cleanupOldVotes] at hnumber ⊢
    split at hnumber
    · omega
    · rename_i hkept
      rw [if_neg hkept]
      exact hr.current hp hnumber
  agree := hr.agree
  removed {key voteNumber} hlt := by
    simp only [remove] at hlt ⊢
    by_cases hbefore : voteNumber < h.removed key
    · obtain ⟨removal, hmem, hremoval⟩ := hr.removed hbefore
      exact ⟨removal, mem_append_right _ hmem, hremoval⟩
    · split at hlt
      · -- this is the vote that is removed now
        rename_i hold
        refine ⟨_, mem_append_left _ (mem_map_of_mem hold), rfl, ?_⟩
        show h.removed key = voteNumber
        omega
      · exact absurd hlt hbefore

end Recorded

/-! ## Runs -/

namespace Node

variable {s : Node}

/-- All signatures asked for or made. -/
def signs (s : Node) : List PendingSign := s.pendingSigns ++ s.shares

/-- The node's records are right about its signatures. -/
def IsRecorded (s : Node) : Prop := Recorded s.voteDb s.history s.signs

lemma mem_signs_asyncSign {key : RequestKey} {quorumHash msgHash : Uint256} {p : PendingSign}
    (hp : p ∈ (s.asyncSign key quorumHash msgHash).signs) :
    p ∈ ⟨key, quorumHash, msgHash, s.history.removed key⟩ :: s.signs := by
  simp only [signs, asyncSign, mem_append, mem_cons, not_mem_nil, or_false] at hp ⊢
  tauto

/-- What a call of `AsyncSignIfMember` can do: nothing but a look at the recovered signatures, sign
again what is on record, or cast a vote and sign. -/
inductive SignEffect (s : Node) (key : RequestKey) (quorumHash msgHash : Uint256) : Node → Prop where
  | nothing (recSigDb : RecSigDb) : SignEffect s key quorumHash msgHash { s with recSigDb }
  | again (recSigDb : RecSigDb) (onRecord : s.voteDb.votes key = some msgHash) :
      SignEffect s key quorumHash msgHash
        ({ s with recSigDb : Node }.asyncSign key quorumHash msgHash)
  | vote (recSigDb : RecSigDb) (noVote : s.voteDb.votes key = none) :
      SignEffect s key quorumHash msgHash
        ({ s with
            recSigDb
            voteDb := s.voteDb.writeVoteForId key msgHash s.now
            history := s.history.vote key s.now : Node }.asyncSign key quorumHash msgHash)

lemma signEffect (s : Node) (key : RequestKey) (quorumHash msgHash : Uint256)
    (isMember allowReSign : Bool) :
    SignEffect s key quorumHash msgHash
      (s.asyncSignIfMember key quorumHash msgHash isMember allowReSign).2 := by
  have hnothing : SignEffect s key quorumHash msgHash s := .nothing s.recSigDb
  simp only [asyncSignIfMember, getVoteForId, signUnlessRecovered]
  split
  · exact hnothing
  · split
    · rename_i hnone
      split
      · exact .nothing _
      · exact .vote _ hnone
    · rename_i prevMsgHash hvote
      split
      · exact hnothing
      · rename_i hsame
        rw [← not_not.mp hsame] at hvote
        split
        · split
          · exact .nothing _
          · exact .again _ hvote
        · exact hnothing

/-- **The records stay right.** -/
theorem IsRecorded.step (hs : s.IsRecorded) (e : SigningEvent) : (s.step e).IsRecorded := by
  cases e with
  | tick | recoveredSig | truncateRecoveredSig | evict => exact hs
  | cleanup => exact Recorded.cleanup hs s.now s.maxAge
  | restart maxAge =>
    exact Recorded.mono hs fun p hp => mem_append_right _ (by simpa [signs, Node.step] using hp)
  | signPending created =>
    refine Recorded.mono hs fun p hp => ?_
    simp only [signs, Node.step, signPendingSigShares, nil_append, mem_append, mem_filter] at hp ⊢
    tauto
  | sign key quorumHash msgHash isMember allowReSign =>
    have heffect := signEffect s key quorumHash msgHash isMember allowReSign
    simp only [Node.step]
    generalize (s.asyncSignIfMember key quorumHash msgHash isMember allowReSign).2 = s' at heffect
    cases heffect with
    | nothing recSigDb => exact hs
    | again recSigDb onRecord =>
      exact (Recorded.sign hs onRecord quorumHash).mono fun p hp => mem_signs_asyncSign hp
    | vote recSigDb noVote =>
      have hwritten : (s.voteDb.writeVoteForId key msgHash s.now).votes key = some msgHash :=
        update_self ..
      have hcast := Recorded.vote hs noVote msgHash s.now
      exact (hcast.sign hwritten quorumHash).mono fun p hp => mem_signs_asyncSign hp

lemma isRecorded_run (now : Nat) (maxAge : Int) (events : List SigningEvent) :
    (run now maxAge events).IsRecorded :=
  foldlRecOn events step recorded_empty fun _ hs e _ => hs.step e

/-! ## Votes that are removed -/

/-- Only votes older than the maximum age were removed. -/
def OnlyOldRemoved (s : Node) : Prop := ∀ removal ∈ s.history.removals, removal.dueToAge = true

/-- A cleanup now removes no vote that is not older than the maximum age: the times in 32 bits are
compared as the times are. -/
def SparesYoungVotes (s : Node) : Prop :=
  ∀ key msgHash, s.voteDb.votes key = some msgHash →
    toUInt32 (s.history.votedAt key) < toUInt32 (s.now - s.maxAge) →
    s.maxAge < (s.now : Int) - s.history.votedAt key

/-- The step is not a cleanup, or one that spares young votes. -/
def SparesAt (s : Node) (e : SigningEvent) : Prop := e = .cleanup → s.SparesYoungVotes

lemma removals_sign (key : RequestKey) (quorumHash msgHash : Uint256)
    (isMember allowReSign : Bool) :
    (s.asyncSignIfMember key quorumHash msgHash isMember allowReSign).2.history.removals =
      s.history.removals := by
  have heffect := signEffect s key quorumHash msgHash isMember allowReSign
  generalize (s.asyncSignIfMember key quorumHash msgHash isMember allowReSign).2 = s' at heffect ⊢
  cases heffect <;> rfl

/-- A cleanup removes old votes only, exactly if it spares young ones. -/
lemma onlyOldRemoved_cleanup (hs : s.IsRecorded) (hold : s.OnlyOldRemoved) :
    s.cleanup.OnlyOldRemoved ↔ s.SparesYoungVotes := by
  constructor
  · intro h key msgHash hvote hlt
    have hmem : key ∈ s.voteDb.oldVotes s.now s.maxAge :=
      (Recorded.mem_oldVotes_iff hs).mpr ⟨⟨msgHash, hvote⟩, hlt⟩
    exact of_decide_eq_true (h _ (mem_append_left _ (mem_map_of_mem hmem)))
  · intro h removal hmem
    rcases mem_append.mp hmem with hmem | hmem
    · obtain ⟨key, hkey, rfl⟩ := mem_map.mp hmem
      obtain ⟨⟨msgHash, hvote⟩, hlt⟩ := (Recorded.mem_oldVotes_iff hs).mp hkey
      exact decide_eq_true (h key msgHash hvote hlt)
    · exact hold removal hmem

lemma onlyOldRemoved_step (hs : s.IsRecorded) (hold : s.OnlyOldRemoved) (e : SigningEvent) :
    (s.step e).OnlyOldRemoved ↔ s.SparesAt e := by
  have hother : e ≠ .cleanup → (s.step e).history.removals = s.history.removals →
      ((s.step e).OnlyOldRemoved ↔ s.SparesAt e) := fun hne hsame =>
    iff_of_true (fun removal hmem => hold removal (hsame ▸ hmem)) fun h => absurd h hne
  cases e with
  | cleanup =>
    simp only [SparesAt, forall_const]
    exact onlyOldRemoved_cleanup hs hold
  | tick | signPending | recoveredSig | truncateRecoveredSig | evict | restart =>
    exact hother nofun rfl
  | sign key quorumHash msgHash isMember allowReSign => exact hother nofun (removals_sign ..)

/-- **Only old votes are removed** in a run exactly if every cleanup spares the young ones. -/
theorem removals_dueToAge_iff (now : Nat) (maxAge : Int) (events : List SigningEvent) :
    (∀ before, before <+: events → (run now maxAge before).OnlyOldRemoved) ↔
      ∀ before e, before ++ [e] <+: events → (run now maxAge before).SparesAt e :=
  @forall_prefix_iff _ _ step IsRecorded OnlyOldRemoved SparesAt (fun _ e hs => hs.step e)
    (fun _ e hs hold => onlyOldRemoved_step hs hold e) { now, maxAge }
    recorded_empty (nofun) events

/-- Two message hashes are signed for one request only if the vote for the first was removed because
it was older than the maximum age. -/
def NoDoubleSign (s : Node) : Prop :=
  ∀ p ∈ s.shares, ∀ p' ∈ s.shares, p.key = p'.key → p.msgHash ≠ p'.msgHash →
    ∃ removal ∈ s.history.removals, removal.key = p.key ∧
      removal.voteNumber = min p.voteNumber p'.voteNumber ∧ removal.dueToAge = true

/-- Two message hashes are signed under two votes, and the first has been removed. -/
lemma IsRecorded.exists_removal (hs : s.IsRecorded) {p p' : PendingSign} (hp : p ∈ s.shares)
    (hp' : p' ∈ s.shares) (hkey : p.key = p'.key) (hne : p.msgHash ≠ p'.msgHash) :
    ∃ removal ∈ s.history.removals, removal.key = p.key ∧
      removal.voteNumber = min p.voteNumber p'.voteNumber := by
  have hmem := mem_append_right s.pendingSigns hp
  have hmem' := mem_append_right s.pendingSigns hp'
  have hnumber : p.voteNumber ≠ p'.voteNumber := fun h => hne (hs.agree hmem hmem' hkey h)
  have hle := hs.number_le hmem
  have hle' := hs.number_le hmem'
  rw [← hkey] at hle'
  exact hs.removed (by omega)

section

variable (now : Nat) (maxAge : Int) (events : List SigningEvent)

/-- **No double signing.** In every run whose cleanups all spare young votes, in every state. -/
theorem no_double_sign
    (hspares : ∀ before e, before ++ [e] <+: events → (run now maxAge before).SparesAt e)
    (before : List SigningEvent) (hbefore : before <+: events) :
    (run now maxAge before).NoDoubleSign := by
  intro p hp p' hp' hkey hne
  have hs := isRecorded_run now maxAge before
  obtain ⟨removal, hmem, hremoval, hnumber⟩ := hs.exists_removal hp hp' hkey hne
  have hold := (removals_dueToAge_iff now maxAge events).mpr hspares before hbefore
  exact ⟨removal, hmem, hremoval, hnumber, hold removal hmem⟩

/-! ## The clock -/

lemma votedAt_le (key : RequestKey) :
    (run now maxAge events).history.votedAt key ≤ (run now maxAge events).now := by
  revert key
  refine foldlRecOn (motive := fun s => ∀ key, s.history.votedAt key ≤ s.now) events step ?_
    fun s hs e _ key => ?_
  · exact fun _ => Nat.zero_le _
  cases e with
  | tick seconds => exact (hs key).trans (Nat.le_add_right ..)
  | sign key' quorumHash msgHash isMember allowReSign =>
    have heffect := signEffect s key' quorumHash msgHash isMember allowReSign
    simp only [step]
    generalize (s.asyncSignIfMember key' quorumHash msgHash isMember allowReSign).2 = s' at heffect
    cases heffect with
    | nothing | again => exact hs key
    | vote recSigDb noVote =>
      simp only [asyncSign, vote]
      by_cases hkey : key = key'
      · simp [hkey]
      · rw [update_of_ne hkey]
        exact hs key
  | signPending | recoveredSig | truncateRecoveredSig | cleanup | evict | restart => exact hs key

/-- While the clock fits in 32 bits and the maximum age is not larger than the clock, a cleanup
spares young votes. -/
lemma sparesYoungVotes_of_clock (hclock : (run now maxAge events).now < 2 ^ 32)
    (hage : (run now maxAge events).maxAge ≤ (run now maxAge events).now) :
    (run now maxAge events).SparesYoungVotes := by
  intro key msgHash _ hlt
  have hvoted := votedAt_le now maxAge events key
  simp only [toUInt32] at hlt
  omega

end

/-! ## Two hashes for one request -/

/-- The node votes for the hash 10 and signs it, cleans up and is asked to sign the hash 20. -/
def voteTwice : List SigningEvent :=
  [.sign (.llmq400_60, 1) 5 10 true false, .signPending fun _ => true, .cleanup,
    .sign (.llmq400_60, 1) 5 20 true false, .signPending fun _ => true]

/-- With a maximum age of one week the vote stays on record. -/
theorem no_double_sign_week :
    (run 1700000000 (7 * 24 * 60 * 60) voteTwice).NoDoubleSign ∧
      (run 1700000000 (7 * 24 * 60 * 60) voteTwice).shares.map PendingSign.msgHash = [10] := by
  refine ⟨no_double_sign _ _ voteTwice ?_ voteTwice prefix_rfl, by decide +kernel⟩
  -- neither the clock nor the maximum age changes
  have hclock : ∀ before ∈ voteTwice.inits,
      (run 1700000000 (7 * 24 * 60 * 60) before).now < 2 ^ 32 ∧
        (run 1700000000 (7 * 24 * 60 * 60) before).maxAge ≤
          (run 1700000000 (7 * 24 * 60 * 60) before).now := by
    decide +kernel
  intro before e hbefore _
  obtain ⟨hnow, hage⟩ := hclock before ((mem_inits ..).mpr ((prefix_append ..).trans hbefore))
  exact sparesYoungVotes_of_clock _ _ before hnow hage

/-- With a maximum age that is larger than the clock the vote is removed at once, and the node signs
both hashes. -/
theorem double_sign :
    (run 1700000000 2000000000 voteTwice).shares.map (fun p => (p.key, p.msgHash)) =
      [((.llmq400_60, 1), 10), ((.llmq400_60, 1), 20)] ∧
    (run 1700000000 2000000000 voteTwice).history.removals.map Removal.dueToAge = [false] := by
  decide +kernel

end Node

/-! ## `MigrateRecoveredSigs` -/

/-- The records of the database, by the names of their keys. -/
inductive SigRecord (RecSig : Type) where
  | rs_h (hash : Uint256) (value : RequestKey)
  /-- The key has the type and the id; the value is the recovered signature. -/
  | rs_r (key : RequestKey) (recSig : RecSig)
  /-- The key also has the message hash; the value is the time. -/
  | rs_rTime (key : RequestKey) (msgHash : Uint256) (time : Nat)
  | rs_s (signHash : Uint256)
  | rs_t (key : TimeKey)
  | rs_v (key : RequestKey) (msgHash : Uint256)
  | rs_vt (key : TimeKey)
  deriving DecidableEq

variable {RecSig : Type}

namespace SigRecord

/-- The names, numbered in the order of their bytes: a length, then the letters. -/
def name : SigRecord RecSig → Nat
  | rs_h .. => 0
  | rs_r .. | rs_rTime .. => 1
  | rs_s .. => 2
  | rs_t .. => 3
  | rs_v .. => 4
  | rs_vt .. => 5

def isTime : SigRecord RecSig → Bool
  | rs_rTime .. => true
  | _ => false

end SigRecord

/-- The old database. The iterator follows the bytes of the keys, which begin with the name. -/
structure OldSigsDb (RecSig : Type) where
  records : List (SigRecord RecSig)
  sorted : records.Pairwise fun a b => a.name ≤ b.name

namespace OldSigsDb

/-- One loop: from the first key with the name to the first record that is not read. -/
def copyLoop (old : OldSigsDb RecSig) (name : Nat) (reads : SigRecord RecSig → Bool) :
    List (SigRecord RecSig) :=
  (old.records.dropWhile fun r => r.name < name).takeWhile fun r => r.name = name && reads r

def migrateRecoveredSigs (db : List (SigRecord RecSig)) (old : OldSigsDb RecSig) :
    List (SigRecord RecSig) :=
  if !db.isEmpty then db
  else old.copyLoop 0 (fun _ => true) ++
    -- the longer key is read as well, but its value is too short for a signature
    old.copyLoop 1 (fun r => !r.isTime) ++
    -- the shorter key is not read
    old.copyLoop 1 SigRecord.isTime ++ old.copyLoop 2 (fun _ => true) ++
    old.copyLoop 3 (fun _ => true) ++ old.copyLoop 4 (fun _ => true) ++
    old.copyLoop 5 (fun _ => true)

/-- The records with one name are next to each other. -/
lemma copyLoop_eq (old : OldSigsDb RecSig) (name : Nat) (reads : SigRecord RecSig → Bool) :
    old.copyLoop name reads = (old.records.filter (·.name = name)).takeWhile reads := by
  obtain ⟨records, hsorted⟩ := old
  unfold copyLoop
  induction records with
  | nil => rfl
  | cons r records ih =>
    obtain ⟨hfirst, hrest⟩ := pairwise_cons.mp hsorted
    have ih := ih hrest
    rcases lt_trichotomy r.name name with hlt | heq | hgt
    · simpa [hlt, hlt.ne] using ih
    · -- nothing is skipped after the first record with the name
      have hnone : records.dropWhile (fun r => r.name < name) = records :=
        dropWhile_eq_self_iff.mpr fun h => by simpa [← heq] using hfirst _ (getElem_mem h)
      rw [hnone] at ih
      cases hreads : reads r <;> simp [heq, hreads, ih]
    · have hnone : records.filter (·.name = name) = [] :=
        filter_eq_nil_iff.mpr fun a ha => by simpa using (hgt.trans_le (hfirst a ha)).ne'
      simp [hgt.not_gt, hgt.ne', hnone]

/-- Of two loops of which each stops where the other would go on, one has to run to the end. -/
lemma forall_mem_takeWhile_iff {l : List (SigRecord RecSig)} {f : SigRecord RecSig → Bool} :
    (∀ r ∈ l, r ∈ l.takeWhile (fun r => !f r) ∨ r ∈ l.takeWhile f) ↔
      ∀ r ∈ l, ∀ r' ∈ l, f r = f r' := by
  cases l with
  | nil => simp
  | cons a l =>
    constructor
    · intro h
      have hall : ∀ r ∈ a :: l, f r = f a := by
        intro r hr
        cases hf : f a with
        | false => simpa using mem_takeWhile_imp ((h r hr).resolve_right (by simp [hf]))
        | true => exact mem_takeWhile_imp ((h r hr).resolve_left (by simp [hf]))
      exact fun r hr r' hr' => (hall r hr).trans (hall r' hr').symm
    · intro h r hr
      have hsame : ∀ r' ∈ a :: l, f r' = f r := fun r' hr' => h r' hr' r hr
      cases hf : f r with
      | false => exact .inl (by rwa [takeWhile_eq_self_iff.mpr (by simpa [hf] using hsame)])
      | true => exact .inr (by rwa [takeWhile_eq_self_iff.mpr (by simpa [hf] using hsame)])

/-- **What is migrated.** Every record is copied exactly if the keys with the name `rs_r` all
have the same shape. -/
theorem migrated_iff (old : OldSigsDb RecSig) :
    (∀ r ∈ old.records, r ∈ migrateRecoveredSigs [] old) ↔
      ∀ r ∈ old.records, ∀ r' ∈ old.records, r.name = 1 → r'.name = 1 → r.isTime = r'.isTime := by
  have hall : ∀ l : List (SigRecord RecSig), l.takeWhile (fun _ => true) = l := fun l =>
    takeWhile_eq_self_iff.mpr fun _ _ => rfl
  have hloops := @forall_mem_takeWhile_iff _ (old.records.filter (·.name = 1)) SigRecord.isTime
  simp only [mem_filter, and_imp, decide_eq_true_iff] at hloops
  refine Iff.trans (forall₂_congr fun r hr => ?_) (hloops.trans ⟨?_, ?_⟩)
  · simp only [migrateRecoveredSigs, copyLoop_eq, hall]
    cases r <;> simp [hr, SigRecord.name]
  · exact fun h r hr r' hr' hname hname' => h r hr hname r' hr' hname'
  · exact fun h r hr hname r' hr' hname' => h r hr r' hr' hname hname'

/-- The old database after one recovered signature was written. -/
def oneSig : OldSigsDb Nat where
  records := [.rs_h 3 (.llmq400_60, 1), .rs_r (.llmq400_60, 1) 7, .rs_rTime (.llmq400_60, 1) 2 9,
    .rs_s 4, .rs_t (9, .llmq400_60, 1)]
  sorted := by decide

theorem migrated_oneSig : oneSig.records.filter (· ∉ migrateRecoveredSigs [] oneSig) =
    [.rs_rTime (.llmq400_60, 1) 2 9] := by
  decide +kernel

end OldSigsDb

end HootChain.Llmq.Signing

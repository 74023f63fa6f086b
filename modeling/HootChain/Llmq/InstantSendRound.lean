import HootChain.Llmq.InstantSend

/-!
# One Round over the Pending InstantSend Locks (`llmq/instantsend.cpp`)

`ProcessPendingInstantSendLocks()` takes up to 32 locks out of
`pendingInstantSendLocks` and verifies them twice: against the active quorums, and
those that fail once more against the quorums of the cycle before. Each pass looks
up a quorum for every lock with `SelectQuorumForSigning`, and a pass that finds
none for one of its locks returns without an answer for any of them.
-/

namespace HootChain.Llmq

open Bls Primitives List

variable {Sig PubKey : Type}

/-! ## The quorum of a request (`SelectQuorumForSigning`) -/

/-- A quorum found by `ScanQuorums`, with the index of its commitment. -/
structure ScannedQuorum (bls : BlsScheme Sig PubKey) extends CQuorum bls where
  quorumIndex : Int

/-- What a node reads while it verifies locks. -/
structure SigningNode (bls : BlsScheme Sig PubKey) where
  requestIdHash : List COutPoint → Uint256
  buildSignHash : LLMQType → Uint256 → Uint256 → Uint256 → Uint256
  hasRecoveredSig : LLMQType → Uint256 → Uint256 → Bool
  hasRecoveredSigForId : LLMQType → Uint256 → Bool
  /-- `LookupBlockIndex`, as the height of the block. -/
  lookupBlockIndex : Uint256 → Option Int
  /-- `ChainActive().Height()`. -/
  chainHeight : Int
  /-- `IsQuorumRotationEnabled` at the block of the active chain with this height. -/
  isQuorumRotationEnabled : LLMQParams → Int → Bool
  /-- `ScanQuorums` from the block of the active chain with this height. -/
  scanQuorums : LLMQType → Int → Nat → List (ScannedQuorum bls)
  /-- The hash of a type, a quorum hash and a selection hash. -/
  scoreHash : LLMQType → Uint256 → Uint256 → Uint256

/-- `uint256::GetUint64(3)`. -/
def lastUint64 (hash : Uint256) : Nat := hash / 2 ^ 192 % 2 ^ 64

/-- The index that a request picks among `signingActiveQuorumCount` rotated quorums. -/
def signerIndex (signingActiveQuorumCount : Nat) (selectionHash : Uint256) : Nat :=
  let n := signingActiveQuorumCount.log2
  lastUint64 selectionHash / 2 ^ (64 - n - 1) % 2 ^ n

/-- The front of the sorted scores: the first quorum with the least score. -/
def frontByScore {α : Type} (score : α → Uint256) : List α → Option α
  | [] => none
  | quorum :: quorums =>
    match frontByScore score quorums with
    | none => some quorum
    | some front => if Uint256.less (score front) (score quorum) then some front else some quorum

section Selection

variable {bls : BlsScheme Sig PubKey} (node : SigningNode bls)

def SigningNode.selectQuorumForSigning (llmqParams : LLMQParams) (selectionHash : Uint256)
    (signHeight signOffset : Int) : Option (CQuorum bls) :=
  let signHeight := if signHeight = -1 then node.chainHeight else signHeight
  let startBlockHeight := signHeight - signOffset
  if startBlockHeight > node.chainHeight ∨ startBlockHeight < 0 then none
  else
    let quorums := node.scanQuorums llmqParams.type startBlockHeight
      llmqParams.signingActiveQuorumCount
    if node.isQuorumRotationEnabled llmqParams startBlockHeight then
      let signer := signerIndex llmqParams.signingActiveQuorumCount selectionHash
      if signer > quorums.length then none
      else (quorums.find? fun quorum => quorum.quorumIndex == (signer : Int)).map (·.toCQuorum)
    else
      (frontByScore (fun quorum => node.scoreHash llmqParams.type quorum.quorumHash selectionHash)
        quorums).map (·.toCQuorum)

/-- The node as the passes read it. -/
def SigningNode.view : SigningView bls where
  requestIdHash := node.requestIdHash
  buildSignHash := node.buildSignHash
  hasRecoveredSig := node.hasRecoveredSig
  hasRecoveredSigForId := node.hasRecoveredSigForId
  lookupBlockIndex := node.lookupBlockIndex
  chainHeight := node.chainHeight
  selectQuorumForSigning := node.selectQuorumForSigning

end Selection

/-! ## The round -/

/-- The entries that satisfy a test. -/
def PendingLocks.filter (pend : PendingLocks Sig) (keep : PendingLock Sig → Bool) :
    PendingLocks Sig where
  entries := pend.entries.filter keep
  nodup := pend.nodup.sublist (filter_sublist.map _)

/-- The first `maxCount` entries. -/
def PendingLocks.take (maxCount : Nat) (pend : PendingLocks Sig) : PendingLocks Sig where
  entries := pend.entries.take maxCount
  nodup := pend.nodup.sublist ((take_sublist ..).map _)

/-- The entries after the first `maxCount`. -/
def PendingLocks.drop (maxCount : Nat) (pend : PendingLocks Sig) : PendingLocks Sig where
  entries := pend.entries.drop maxCount
  nodup := pend.nodup.sublist ((drop_sublist ..).map _)

/-- `maxCount` of a round. -/
def maxPendingLocks : Nat := 32

/-- What a round leaves in `pendingInstantSendLocks`, the locks it took out, those it handed to
`ProcessInstantSendLock`, and the hashes of those that the last pass over them found to have
an invalid signature. -/
structure RoundOutcome (Sig : Type) where
  pending : PendingLocks Sig
  taken : List (PendingLock Sig) := []
  processed : List (PendingLock Sig) := []
  reported : List Uint256 := []
  moreWork : Bool := false

variable {bls : BlsScheme Sig PubKey}

/-- The two passes over the locks taken out: the locks processed, and the hashes that the second
pass reports. It reads the node as it is by then. -/
def verifyTwice (node node' : SigningNode bls) (llmqParams : LLMQParams)
    (pend : PendingLocks Sig) : List (PendingLock Sig) × List Uint256 :=
  let first := processPendingInstantSendLocks node.view llmqParams 0 pend false
  if first.badISLocks.isEmpty then (first.processed, [])
  else
    let bad := pend.filter fun p => p.hash ∈ first.badISLocks
    let second := processPendingInstantSendLocks node'.view llmqParams llmqParams.dkgInterval
      bad true
    (first.processed ++ second.processed, second.badISLocks)

def CInstantSendManager.processPendingInstantSendLocks (isInstantSendEnabled : Bool)
    (node node' : SigningNode bls) (llmqParams : LLMQParams) (pending : PendingLocks Sig) :
    RoundOutcome Sig :=
  if isInstantSendEnabled then
    let pend := pending.take maxPendingLocks
    let remaining := pending.drop maxPendingLocks
    let outcome := verifyTwice node node' llmqParams pend
    { pending := remaining, taken := pend.entries, processed := outcome.1, reported := outcome.2
      moreWork := !remaining.entries.isEmpty }
  else { pending }

/-! ## What a pass answers -/

section Pass

variable {view : SigningView bls} {llmqParams : LLMQParams} {signOffset : Int}
  {pend : PendingLocks Sig}

/-- What the pass answers about a lock before its signature is checked. -/
lemma screen_eq_none_iff : screen view llmqParams signOffset pend.entries = none ↔
    GivesUp view llmqParams signOffset [] pend.entries := by
  obtain ⟨hup, hnone⟩ | ⟨hgo, s, marked, pushes, hsome, -⟩ :=
    (screened_nil view llmqParams signOffset).run pend.entries (by simpa using pend.nodup)
  · exact iff_of_true hnone hup
  · refine iff_of_false ?_ hgo
    rw [screen, hsome]
    exact Option.some_ne_none s

lemma processPending_of_givesUp (ban : Bool)
    (hup : GivesUp view llmqParams signOffset [] pend.entries) :
    processPendingInstantSendLocks view llmqParams signOffset pend ban = {} := by
  rw [processPendingInstantSendLocks, screen_eq_none_iff.mpr hup]

/-- A pass that does not give up has an answer for each of its locks: it is bad, or it is
processed. -/
lemma mem_badISLocks_iff (ban : Bool)
    (hgo : ¬ GivesUp view llmqParams signOffset [] pend.entries) {p : PendingLock Sig}
    (hp : p ∈ pend.entries) :
    p.hash ∈ (processPendingInstantSendLocks view llmqParams signOffset pend ban).badISLocks ↔
      p ∉ (processPendingInstantSendLocks view llmqParams signOffset pend ban).processed := by
  cases hscreen : screen view llmqParams signOffset pend.entries with
  | none => exact absurd (screen_eq_none_iff.mp hscreen) hgo
  | some s =>
    simp only [processPendingInstantSendLocks, hscreen, mem_map, mem_filter,
      decide_eq_true_eq, hp, true_and, not_not]
    constructor
    · rintro ⟨q, ⟨-, hq⟩, heq⟩
      exact heq ▸ hq
    · intro hbad
      exact ⟨p, ⟨hp, hbad⟩, rfl⟩

end Pass

/-- Of the locks `pend`, those that the first pass submits and that do not verify. -/
def refuted (view : SigningView bls) (llmqParams : LLMQParams) (pend : PendingLocks Sig) :
    PendingLocks Sig :=
  pend.filter fun p => (submitted view llmqParams 0 pend.entries.reverse).any fun q =>
    q.hash == p.hash && !authentic view llmqParams 0 q.islock

section Refuted

variable {view : SigningView bls} {llmqParams : LLMQParams} {pend : PendingLocks Sig}

/-- The locks that go to the second pass. -/
lemma filter_badISLocks (hgo : ¬ GivesUp view llmqParams 0 [] pend.entries) :
    (pend.filter fun p =>
        p.hash ∈ (processPendingInstantSendLocks view llmqParams 0 pend false).badISLocks) =
      refuted view llmqParams pend := by
  simp only [refuted, PendingLocks.filter, PendingLocks.mk.injEq]
  refine filter_congr fun p hp => ?_
  apply Bool.eq_iff_iff.mpr
  rw [decide_eq_true_iff, mem_badISLocks_iff false hgo hp, mem_processed_iff false hgo]
  simp only [hp, true_and, Classical.not_imp, Bool.not_eq_true, any_eq_true, Bool.and_eq_true,
    beq_iff_eq, Bool.not_eq_true']
  constructor
  · rintro ⟨hsub, hforged⟩
    exact ⟨p, hsub, rfl, hforged⟩
  · rintro ⟨q, hsub, hhash, hforged⟩
    -- hashes of a batch are distinct
    have hq := mem_reverse.mp (mem_of_mem_submitted hsub)
    obtain rfl := inj_on_of_nodup_map pend.nodup hq hp hhash
    exact ⟨hsub, hforged⟩

end Refuted

/-! ## Accounting for the locks of a round -/

section Accounts

variable {node node' : SigningNode bls} {llmqParams : LLMQParams} {pend : PendingLocks Sig}

lemma verifyTwice_of_givesUp (hup : GivesUp node.view llmqParams 0 [] pend.entries) :
    verifyTwice node node' llmqParams pend = ([], []) := by
  simp [verifyTwice, processPending_of_givesUp false hup]

lemma processPending_nil (view : SigningView bls) (llmqParams : LLMQParams)
    (signOffset : Int) (ban : Bool) (hpend : pend.entries = []) :
    (processPendingInstantSendLocks view llmqParams signOffset pend ban).processed = [] ∧
      (processPendingInstantSendLocks view llmqParams signOffset pend ban).badISLocks = [] := by
  simp [processPendingInstantSendLocks, hpend, screen]

/-- When the first pass does not give up, the second sees the locks that the first has
refuted. -/
lemma verifyTwice_of_not_givesUp (hgo : ¬ GivesUp node.view llmqParams 0 [] pend.entries) :
    verifyTwice node node' llmqParams pend =
      ((processPendingInstantSendLocks node.view llmqParams 0 pend false).processed ++
        (processPendingInstantSendLocks node'.view llmqParams llmqParams.dkgInterval
          (refuted node.view llmqParams pend) true).processed,
        (processPendingInstantSendLocks node'.view llmqParams llmqParams.dkgInterval
          (refuted node.view llmqParams pend) true).badISLocks) := by
  have hbad := filter_badISLocks hgo
  unfold verifyTwice
  cases hfirst : (processPendingInstantSendLocks node.view llmqParams 0 pend false).badISLocks with
  | nil =>
    have hnone : (refuted node.view llmqParams pend).entries = [] := by
      rw [← hbad]
      simp [PendingLocks.filter, hfirst]
    have hsecond := processPending_nil node'.view llmqParams llmqParams.dkgInterval true hnone
    simp [hfirst, hsecond.1, hsecond.2]
  | cons hash hashes =>
    rw [hfirst] at hbad
    simp only [hfirst, hbad, isEmpty_cons, Bool.false_eq_true, if_false]

/-- A lock is accounted for by the two passes: it is processed or reported. -/
def Accounted (outcome : List (PendingLock Sig) × List Uint256) (p : PendingLock Sig) : Prop :=
  p ∈ outcome.1 ∨ p.hash ∈ outcome.2

/-- A lock of the batch is processed by the first pass, or refuted and left to the second. -/
lemma processed_or_refuted (hgo : ¬ GivesUp node.view llmqParams 0 [] pend.entries)
    {p : PendingLock Sig} (hp : p ∈ pend.entries) :
    p ∈ (processPendingInstantSendLocks node.view llmqParams 0 pend false).processed ↔
      p ∉ (refuted node.view llmqParams pend).entries := by
  rw [← filter_badISLocks hgo, PendingLocks.filter, mem_filter, decide_eq_true_iff,
    mem_badISLocks_iff false hgo hp, not_and_not_right]
  exact ⟨fun h _ => h, fun h => h hp⟩

/-- **Both passes have to come to an answer** for the locks taken out to be accounted for. -/
theorem accounted_iff :
    (∀ p ∈ pend.entries, Accounted (verifyTwice node node' llmqParams pend) p) ↔
      ¬ GivesUp node.view llmqParams 0 [] pend.entries ∧
        ¬ GivesUp node'.view llmqParams llmqParams.dkgInterval []
          (refuted node.view llmqParams pend).entries := by
  by_cases hup : GivesUp node.view llmqParams 0 [] pend.entries
  · -- nothing is processed or reported, and there is a lock in the batch
    refine iff_of_false (fun h => ?_) fun h => h.1 hup
    rw [verifyTwice_of_givesUp hup] at h
    obtain ⟨before, p, after, heq, -⟩ := hup
    simpa [Accounted] using h p (by simp [heq])
  rw [verifyTwice_of_not_givesUp hup]
  simp only [Accounted, mem_append, hup, not_false_eq_true, true_and]
  by_cases hup' : GivesUp node'.view llmqParams llmqParams.dkgInterval []
      (refuted node.view llmqParams pend).entries
  · refine iff_of_false (fun h => ?_) fun h => h hup'
    have hnothing := processPending_of_givesUp true hup'
    obtain ⟨before, p, after, heq, -⟩ := hup'
    have hmem : p ∈ (refuted node.view llmqParams pend).entries := by simp [heq]
    have hp : p ∈ pend.entries := (mem_filter.mp hmem).1
    have := h p hp
    rw [hnothing, processed_or_refuted hup hp] at this
    simp [hmem] at this
  · refine iff_of_true (fun p hp => ?_) hup'
    by_cases hmem : p ∈ (refuted node.view llmqParams pend).entries
    · by_cases hsecond : p ∈ (processPendingInstantSendLocks node'.view llmqParams
          llmqParams.dkgInterval (refuted node.view llmqParams pend) true).processed
      · exact .inl (.inr hsecond)
      · exact .inr ((mem_badISLocks_iff true hup' hmem).mpr hsecond)
    · exact .inl (.inl ((processed_or_refuted hup hp).mpr hmem))

end Accounts

/-- Locks that were taken out are no longer pending. -/
lemma not_mem_drop {pending : PendingLocks Sig} {n : Nat} {p : PendingLock Sig}
    (hp : p ∈ (pending.take n).entries) : p ∉ (pending.drop n).entries := by
  intro hdrop
  have hnodup : (pending.entries.take n ++ pending.entries.drop n).Nodup := by
    rw [take_append_drop]
    exact pending.nodup.of_map
  exact (nodup_append.mp hnodup).2.2 p hp p hdrop rfl

/-- **Every lock taken out is accounted for** exactly when neither pass meets a lock without a
quorum whose sender is not barred: the first among the locks taken out, the second among those
that fail against the active quorums. -/
theorem round_accounts_iff (isInstantSendEnabled : Bool) (node node' : SigningNode bls)
    (llmqParams : LLMQParams) (pending : PendingLocks Sig) :
    let round := CInstantSendManager.processPendingInstantSendLocks isInstantSendEnabled node node'
      llmqParams pending
    (∀ p ∈ round.taken, p ∈ round.processed ∨ p.hash ∈ round.reported ∨
        p ∈ round.pending.entries) ↔
      (isInstantSendEnabled = true →
        ¬ GivesUp node.view llmqParams 0 [] (pending.take maxPendingLocks).entries ∧
        ¬ GivesUp node'.view llmqParams llmqParams.dkgInterval []
          (refuted node.view llmqParams (pending.take maxPendingLocks)).entries) := by
  cases isInstantSendEnabled with
  | false => simp [CInstantSendManager.processPendingInstantSendLocks]
  | true =>
    simp only [CInstantSendManager.processPendingInstantSendLocks, if_true, forall_const]
    rw [← accounted_iff]
    refine forall₂_congr fun p hp => ?_
    simp [not_mem_drop hp, Accounted]

/-! ## A lock that disappears -/

/-- A signature scheme in which every signature verifies. -/
def anySignature : BlsScheme Nat Unit where
  isValid _ := true
  pubKeyIsValid _ := true
  pairing _ _ _ := true

/-- The quorum with the given index. -/
def quorumWithIndex (index : Nat) : ScannedQuorum anySignature :=
  { quorumHash := 100 + index, quorumPublicKey := (), quorumPublicKey_isValid := rfl
    quorumIndex := index }

/-- A node at height 1000 with all quorums since height 342. It knows the first block of the chain
as block `5` and the first block of the current cycle as block `6`. -/
def fullNode : SigningNode anySignature where
  requestIdHash _ := 1
  buildSignHash _ _ _ _ := 2
  hasRecoveredSig _ _ _ := false
  hasRecoveredSigForId _ _ := false
  lookupBlockIndex hash := if hash = 5 then some 0 else if hash = 6 then some 864 else none
  chainHeight := 1000
  isQuorumRotationEnabled _ height := 288 ≤ height
  scanQuorums _ height count :=
    if 342 ≤ height then (range count).map quorumWithIndex else []
  scoreHash _ _ _ := 0

/-- A lock that names the first block of the chain as its cycle, and a lock of the current
cycle from another node. -/
def oldThenCurrent : PendingLocks Nat where
  entries :=
    [⟨10, 1, { inputs := [⟨3, 0⟩], txid := 20, cycleHash := 5, sig := 9 }⟩,
      ⟨11, 2, { inputs := [⟨4, 0⟩], txid := 21, cycleHash := 6, sig := 9 }⟩]
  nodup := by decide

/-- The second lock verifies. It is gone after the round, neither processed nor reported, because
the first has no quorum. -/
theorem round_loses_lock :
    let round := CInstantSendManager.processPendingInstantSendLocks true fullNode fullNode
      llmq_60_75 oldThenCurrent
    round.taken.map PendingLock.hash = [10, 11] ∧ round.processed.map PendingLock.hash = [] ∧
      round.reported = [] ∧ round.pending.entries.map PendingLock.hash = [] ∧
      oldThenCurrent.entries.map (fun p => verified fullNode.view llmq_60_75 0 p.islock) =
        [false, true] := by
  decide +kernel

end HootChain.Llmq

import HootChain.Bls.BatchVerifier
import HootChain.Llmq.Params

/-!
# Pending InstantSend Locks (`llmq/instantsend.cpp`)

`ProcessPendingInstantSendLocks` verifies a batch of locks received from peers. A
first loop over the batch screens the locks: it skips those of senders that are
already known to be bad, marks the sender of a malformed or unplaceable lock as
bad, skips locks whose recovered signature is known, and pushes the others to a
batch verifier. A second loop over the same batch hands every lock that the
verifier has not found bad to `ProcessInstantSendLock`.
-/

namespace HootChain.Llmq

open Bls Primitives CBLSBatchVerifier List

/-! ## Locks and what the round reads -/

structure CInstantSendLock (Sig : Type) where
  inputs : List COutPoint
  txid : Uint256
  cycleHash : Uint256
  sig : Sig

abbrev NodeId := Int

/-- An entry of `pendingInstantSendLocks`: a lock, its hash and the node it came from. -/
structure PendingLock (Sig : Type) where
  hash : Uint256
  nodeId : NodeId
  islock : CInstantSendLock Sig

open PendingLock

/-- A map of pending locks, in the order an iteration visits them. -/
structure PendingLocks (Sig : Type) where
  entries : List (PendingLock Sig)
  nodup : (entries.map hash).Nodup

variable {Sig PubKey : Type}

/-- `CQuorum`; the commitment of a mined quorum has a valid public key. -/
structure CQuorum (bls : BlsScheme Sig PubKey) where
  quorumHash : Uint256
  quorumPublicKey : PubKey
  quorumPublicKey_isValid : bls.pubKeyIsValid quorumPublicKey = true

structure CRecoveredSig (Sig : Type) where
  llmqType : LLMQType
  quorumHash : Uint256
  id : Uint256
  msgHash : Uint256
  sig : Sig

/-- What the round reads from hashing, the signing manager, the block index and the quorum
manager. -/
structure SigningView (bls : BlsScheme Sig PubKey) where
  requestIdHash : List COutPoint → Uint256
  buildSignHash : LLMQType → Uint256 → Uint256 → Uint256 → Uint256
  hasRecoveredSig : LLMQType → Uint256 → Uint256 → Bool
  hasRecoveredSigForId : LLMQType → Uint256 → Bool
  /-- `LookupBlockIndex`, as the height of the block. -/
  lookupBlockIndex : Uint256 → Option Int
  chainHeight : Int
  selectQuorumForSigning : LLMQParams → Uint256 → Int → Int → Option (CQuorum bls)

section Round

variable {bls : BlsScheme Sig PubKey} (view : SigningView bls) (llmqParams : LLMQParams)
  (signOffset : Int)

section

variable (islock : CInstantSendLock Sig)

def CInstantSendLock.getRequestId : Uint256 := view.requestIdHash islock.inputs

/-- `sigman.HasRecoveredSig` for the lock. -/
def hasRecoveredSig : Bool :=
  view.hasRecoveredSig llmqParams.type (islock.getRequestId view) islock.txid

/-- `nSignHeight` for a cycle that starts at height `nHeight`. -/
def signHeight (nHeight : Int) : Int :=
  if nHeight + llmqParams.dkgInterval < view.chainHeight then
    nHeight + llmqParams.dkgInterval - 1
  else -1

/-- `SelectQuorumForSigning` for a lock whose cycle starts at height `nHeight`. -/
def selectQuorum (nHeight : Int) : Option (CQuorum bls) :=
  view.selectQuorumForSigning llmqParams (islock.getRequestId view)
    (signHeight view llmqParams nHeight) signOffset

/-- `BuildSignHash` for the lock and a quorum. -/
def signHash (quorum : CQuorum bls) : Uint256 :=
  view.buildSignHash llmqParams.type quorum.quorumHash (islock.getRequestId view) islock.txid

/-! ## The first loop -/

/-- The state of the first loop: the batch verifier and the reconstructed signatures. -/
structure Screening (bls : BlsScheme Sig PubKey) where
  batchVerifier : CBLSBatchVerifier bls NodeId Uint256
  recSigs : List (Uint256 × CRecoveredSig Sig) := []

/-- `batchVerifier.badSources.emplace`. -/
def Screening.markBad (nodeId : NodeId) (s : Screening bls) : Screening bls :=
  { s with
    batchVerifier :=
      { s.batchVerifier with badSources := insert nodeId s.batchVerifier.badSources } }

/-- The push of a lock to the batch verifier, and the signature reconstructed from it. -/
def Screening.submit (p : PendingLock Sig) (hsig : bls.isValid p.islock.sig = true)
    (quorum : CQuorum bls) (s : Screening bls) : Screening bls where
  batchVerifier := s.batchVerifier.pushMessage p.nodeId
    { msgId := p.hash, msgHash := signHash view llmqParams p.islock quorum, sig := p.islock.sig
      pubKey := quorum.quorumPublicKey, sig_isValid := hsig
      pubKey_isValid := quorum.quorumPublicKey_isValid }
  recSigs :=
    if view.hasRecoveredSigForId llmqParams.type (p.islock.getRequestId view) then s.recSigs
    else s.recSigs ++ [(p.hash,
      { llmqType := llmqParams.type, quorumHash := quorum.quorumHash
        id := p.islock.getRequestId view, msgHash := p.islock.txid, sig := p.islock.sig })]

/-- One round of the first loop; `none` where the source returns early. -/
def screenLock (s : Screening bls) (p : PendingLock Sig) : Option (Screening bls) :=
  if p.nodeId ∈ s.batchVerifier.badSources then some s
  else if hsig : bls.isValid p.islock.sig = true then
    if hasRecoveredSig view llmqParams p.islock then some s
    else
      match view.lookupBlockIndex p.islock.cycleHash with
      | none => some (s.markBad p.nodeId)
      | some nHeight =>
        match selectQuorum view llmqParams signOffset p.islock nHeight with
        | none => none
        | some quorum => some (s.submit view llmqParams p hsig quorum)
  else some (s.markBad p.nodeId)

/-- The first loop. -/
def screen (pend : List (PendingLock Sig)) : Option (Screening bls) :=
  pend.foldlM (screenLock view llmqParams signOffset) { batchVerifier :=
        { secureVerification := false, perMessageFallback := true, subBatchSize := 8 } }

/-! ## The round -/

/-- What a round does: the bad locks it returns, the locks it hands to
`ProcessInstantSendLock`, the signatures it hands to the signing manager, and the nodes it
charges with misbehaving. -/
structure PendingRound (Sig : Type) where
  badISLocks : List Uint256 := []
  processed : List (PendingLock Sig) := []
  reconstructed : List (CRecoveredSig Sig) := []
  misbehaving : Finset NodeId := ∅

def processPendingInstantSendLocks (pend : PendingLocks Sig) (ban : Bool) : PendingRound Sig :=
  match screen view llmqParams signOffset pend.entries with
  | none => {}
  | some s =>
    let batchVerifier := s.batchVerifier.verify
    let processed := pend.entries.filter fun p => p.hash ∉ batchVerifier.badMessages
    { badISLocks :=
        (pend.entries.filter fun p => p.hash ∈ batchVerifier.badMessages).map hash
      processed
      reconstructed := processed.filterMap fun p =>
        (s.recSigs.lookup p.hash).filter fun recSig =>
          !view.hasRecoveredSigForId llmqParams.type recSig.id
      misbehaving := if ban then batchVerifier.badSources else ∅ }

/-! ## What becomes of a lock -/

/-- The quorum selected for the lock, if its cycle is known. -/
def quorumFor : Option (CQuorum bls) :=
  (view.lookupBlockIndex islock.cycleHash).bind (selectQuorum view llmqParams signOffset islock)

/-- The signature of the lock verifies under the key of the quorum selected for it. -/
def authentic : Bool :=
  (quorumFor view llmqParams signOffset islock).any fun quorum =>
    bls.verifyInsecure islock.sig quorum.quorumPublicKey (signHash view llmqParams islock quorum)

/-- The recovered signature of the lock is known, or its own signature verifies. -/
def verified : Bool :=
  hasRecoveredSig view llmqParams islock || authentic view llmqParams signOffset islock

/-- The lock has a malformed signature, or neither a known recovered signature nor a known
cycle. -/
def offends : Bool :=
  !bls.isValid islock.sig ||
    (!hasRecoveredSig view llmqParams islock && (view.lookupBlockIndex islock.cycleHash).isNone)

/-- The lock has to be verified, and can be. -/
def submittable : Bool :=
  bls.isValid islock.sig && !hasRecoveredSig view llmqParams islock &&
    (quorumFor view llmqParams signOffset islock).isSome

/-- The lock has to be verified, but no quorum is found for it. -/
def quorumless : Bool :=
  bls.isValid islock.sig && !hasRecoveredSig view llmqParams islock &&
    (view.lookupBlockIndex islock.cycleHash).isSome &&
    (quorumFor view llmqParams signOffset islock).isNone

end

/-- A node is barred when one of its earlier locks offended, or when the batch verifier found
one of its locks bad in a full block of eight. -/
def barredBy (earlier submitted : List (PendingLock Sig)) (nodeId : NodeId) : Bool :=
  earlier.any (fun q => q.nodeId == nodeId && offends view llmqParams q.islock) ||
    (CBLSBatchVerifier.checked 8 submitted).any fun q =>
      q.nodeId == nodeId && !authentic view llmqParams signOffset q.islock

/-- Of the locks seen so far, newest first, those that are verified. -/
def submitted : List (PendingLock Sig) → List (PendingLock Sig)
  | [] => []
  | p :: earlier =>
    if submittable view llmqParams signOffset p.islock &&
        !barredBy view llmqParams signOffset earlier (submitted earlier) p.nodeId then
      submitted earlier ++ [p]
    else submitted earlier

/-- The node is barred after the locks `earlier`, newest first. -/
def barred (earlier : List (PendingLock Sig)) (nodeId : NodeId) : Bool :=
  barredBy view llmqParams signOffset earlier (submitted view llmqParams signOffset earlier) nodeId

/-! ## The first loop, lock by lock -/

/-- Sender, hash and verdict of a push to the batch verifier. -/
def pushSummary (push : NodeId × Message bls Uint256) : NodeId × Uint256 × Bool :=
  (push.1, push.2.msgId, push.2.verifyInsecure)

/-- Sender, hash and verdict of a lock. -/
def lockSummary (p : PendingLock Sig) : NodeId × Uint256 × Bool :=
  (p.nodeId, p.hash, authentic view llmqParams signOffset p.islock)

/-- The state of the first loop after the locks `earlier`, newest first. -/
structure Screened (earlier : List (PendingLock Sig)) (s : Screening bls) (marked : Finset NodeId)
    (pushes : List (NodeId × Message bls Uint256)) : Prop where
  pushed : s.batchVerifier.Pushed marked pushes
  subBatchSize : s.batchVerifier.subBatchSize = 8
  summaries : pushes.map pushSummary =
    (submitted view llmqParams signOffset earlier).map (lockSummary view llmqParams signOffset)
  offends_of_marked : ∀ nodeId ∈ marked, ∃ q ∈ earlier, q.nodeId = nodeId ∧
    offends view llmqParams q.islock = true
  marked_of_offends : ∀ q ∈ earlier, offends view llmqParams q.islock = true →
    q.nodeId ∈ s.batchVerifier.badSources

/-- Among the locks `pend`, which come after `earlier` (newest first), there is one without a
quorum whose sender is not barred before it: the loop returns early. -/
def GivesUp (earlier pend : List (PendingLock Sig)) : Prop :=
  ∃ before p after, pend = before ++ p :: after ∧
    quorumless view llmqParams signOffset p.islock = true ∧
    barred view llmqParams signOffset (before.reverse ++ earlier) p.nodeId = false

variable {view llmqParams signOffset}

section Screened

variable {earlier : List (PendingLock Sig)} {s : Screening bls} {marked : Finset NodeId}
  {pushes : List (NodeId × Message bls Uint256)} {p : PendingLock Sig}

lemma exists_summary_iff {l : List (NodeId × Message bls Uint256)} {l' : List (PendingLock Sig)}
    (h : l.map pushSummary = l'.map (lockSummary view llmqParams signOffset))
    (P : NodeId × Uint256 × Bool → Prop) :
    (∃ push ∈ l, P (pushSummary push)) ↔
      ∃ q ∈ l', P (lockSummary view llmqParams signOffset q) := by
  simpa only [mem_map, exists_exists_and_eq_and] using
    iff_of_eq (congrArg (fun summaries => ∃ x ∈ summaries, P x) h)

/-- The bad sources of the batch verifier are the barred nodes. -/
lemma Screened.mem_badSources_iff (h : Screened view llmqParams signOffset earlier s marked pushes)
    {nodeId : NodeId} :
    nodeId ∈ s.batchVerifier.badSources ↔ barred view llmqParams signOffset earlier nodeId = true := by
  have hchecked : (∃ msg, (nodeId, msg) ∈ checked 8 pushes ∧
      msg.verifyInsecure = false) ↔
      ∃ q ∈ checked 8 (submitted view llmqParams signOffset earlier),
        q.nodeId = nodeId ∧ authentic view llmqParams signOffset q.islock = false := by
    have hmap := congrArg (checked 8) h.summaries
    rw [checked_map, checked_map] at hmap
    refine Iff.trans ?_ (exists_summary_iff hmap fun x => x.1 = nodeId ∧ x.2.2 = false)
    simp only [Prod.exists, pushSummary]
    grind
  have hbad := h.pushed.badSources nodeId
  rw [h.subBatchSize, hchecked] at hbad
  simp only [barred, barredBy, Bool.or_eq_true, any_eq_true, Bool.and_eq_true, beq_iff_eq,
    Bool.not_eq_true']
  refine hbad.trans ⟨Or.imp_left (h.offends_of_marked nodeId), ?_⟩
  rintro (⟨q, hq, rfl, hoff⟩ | hforged)
  · exact hbad.mp (h.marked_of_offends q hq hoff)
  · exact .inr hforged

lemma submitted_cons_of_not (earlier : List (PendingLock Sig))
    (h : ¬ (submittable view llmqParams signOffset p.islock = true ∧
      barred view llmqParams signOffset earlier p.nodeId = false)) :
    submitted view llmqParams signOffset (p :: earlier) =
      submitted view llmqParams signOffset earlier := by
  rw [submitted, if_neg]
  rwa [Bool.and_eq_true, Bool.not_eq_true']

lemma submitted_cons_of_submittable
    (hsub : submittable view llmqParams signOffset p.islock = true)
    (hbarred : barred view llmqParams signOffset earlier p.nodeId = false) :
    submitted view llmqParams signOffset (p :: earlier) =
      submitted view llmqParams signOffset earlier ++ [p] := by
  rw [submitted, if_pos]
  rw [Bool.and_eq_true, Bool.not_eq_true']
  exact ⟨hsub, hbarred⟩

lemma mem_of_mem_submitted {q : PendingLock Sig}
    (h : q ∈ submitted view llmqParams signOffset earlier) : q ∈ earlier := by
  induction earlier with
  | nil => cases h
  | cons p earlier ih =>
    rw [submitted] at h
    split at h
    · rcases mem_append.mp h with h | h
      · exact mem_cons_of_mem _ (ih h)
      · exact mem_cons.mpr (.inl (mem_singleton.mp h))
    · exact mem_cons_of_mem _ (ih h)

section

variable (h : Screened view llmqParams signOffset earlier s marked pushes)

include h

/-- A lock that the loop passes over. -/
lemma Screened.skip
    (hsub : submitted view llmqParams signOffset (p :: earlier) =
      submitted view llmqParams signOffset earlier)
    (hoffends : offends view llmqParams p.islock = true → p.nodeId ∈ s.batchVerifier.badSources) :
    Screened view llmqParams signOffset (p :: earlier) s marked pushes where
  pushed := h.pushed
  subBatchSize := h.subBatchSize
  summaries := hsub ▸ h.summaries
  offends_of_marked nodeId hmem :=
    let ⟨q, hq, hrest⟩ := h.offends_of_marked nodeId hmem
    ⟨q, mem_cons_of_mem _ hq, hrest⟩
  marked_of_offends := forall_mem_cons.mpr ⟨hoffends, h.marked_of_offends⟩

/-- A lock that makes its sender bad. -/
lemma Screened.markBad (hoffends : offends view llmqParams p.islock = true)
    (hsub : submitted view llmqParams signOffset (p :: earlier) =
      submitted view llmqParams signOffset earlier) :
    Screened view llmqParams signOffset (p :: earlier) (s.markBad p.nodeId)
      (insert p.nodeId marked) pushes where
  pushed := h.pushed.mark p.nodeId
  subBatchSize := h.subBatchSize
  summaries := hsub ▸ h.summaries
  offends_of_marked nodeId hmem := by
    rcases Finset.mem_insert.mp hmem with rfl | hmem
    · exact ⟨p, mem_cons_self .., rfl, hoffends⟩
    · obtain ⟨q, hq, hrest⟩ := h.offends_of_marked nodeId hmem
      exact ⟨q, mem_cons_of_mem _ hq, hrest⟩
  marked_of_offends := forall_mem_cons.mpr
    ⟨fun _ => Finset.mem_insert_self .., fun q hq hoff =>
      Finset.mem_insert_of_mem (h.marked_of_offends q hq hoff)⟩

/-- A lock that goes to the batch verifier. -/
lemma Screened.submit
    (hfresh : ∀ q ∈ earlier, q.hash ≠ p.hash) (hsig : bls.isValid p.islock.sig = true)
    (hknown : hasRecoveredSig view llmqParams p.islock = false) {quorum : CQuorum bls}
    (hquorum : quorumFor view llmqParams signOffset p.islock = some quorum)
    (hbarred : barred view llmqParams signOffset earlier p.nodeId = false) :
    ∃ pushes', Screened view llmqParams signOffset (p :: earlier)
      (s.submit view llmqParams p hsig quorum) marked pushes' := by
  have hsub : submittable view llmqParams signOffset p.islock = true := by
    simp [submittable, hsig, hknown, hquorum]
  have hcycle : (view.lookupBlockIndex p.islock.cycleHash).isNone = false := by
    cases hlookup : view.lookupBlockIndex p.islock.cycleHash with
    | none => simp [quorumFor, hlookup] at hquorum
    | some nHeight => rfl
  have hoffends : offends view llmqParams p.islock = false := by
    simp [offends, hsig, hcycle]
  have hnew : ∀ push ∈ pushes, push.2.msgId ≠ p.hash := by
    intro push hpush
    have hmem : pushSummary push ∈ pushes.map pushSummary := mem_map_of_mem hpush
    rw [h.summaries] at hmem
    obtain ⟨q, hq, heq⟩ := mem_map.mp hmem
    simp only [lockSummary, pushSummary, Prod.mk.injEq] at heq
    rw [← heq.2.1]
    exact hfresh q (mem_of_mem_submitted hq)
  refine ⟨_, ⟨h.pushed.pushMessage hnew, ?_, ?_, ?_, ?_⟩⟩
  · exact (pushMessage_subBatchSize ..).trans h.subBatchSize
  · rw [submitted_cons_of_submittable hsub hbarred, map_append, h.summaries]
    simp [pushSummary, lockSummary, authentic, hquorum, Message.verifyInsecure]
  · intro nodeId hmem
    obtain ⟨q, hq, hrest⟩ := h.offends_of_marked nodeId hmem
    exact ⟨q, mem_cons_of_mem _ hq, hrest⟩
  · refine forall_mem_cons.mpr ⟨fun hoff => ?_, fun q hq hoff => ?_⟩
    · rw [hoffends] at hoff
      cases hoff
    · exact h.pushed.badSources_subset_pushMessage hnew (h.marked_of_offends q hq hoff)

/-- **One round of the first loop.** It returns early on a lock without a quorum whose sender
is not barred, and otherwise keeps the account. -/
theorem Screened.step (hfresh : ∀ q ∈ earlier, q.hash ≠ p.hash) :
    (quorumless view llmqParams signOffset p.islock = true ∧
      barred view llmqParams signOffset earlier p.nodeId = false ∧
      screenLock view llmqParams signOffset s p = none) ∨
    (¬ (quorumless view llmqParams signOffset p.islock = true ∧
        barred view llmqParams signOffset earlier p.nodeId = false) ∧
      ∃ s' marked' pushes', screenLock view llmqParams signOffset s p = some s' ∧
        Screened view llmqParams signOffset (p :: earlier) s' marked' pushes') := by
  unfold screenLock
  -- the tests in their order; a sender becomes bad by an invalid signature or cycle
  by_cases hbad : p.nodeId ∈ s.batchVerifier.badSources
  · have hbarred := h.mem_badSources_iff.mp hbad
    refine .inr ⟨by simp [hbarred], s, marked, pushes, if_pos hbad, ?_⟩
    exact h.skip (submitted_cons_of_not _ (by simp [hbarred])) fun _ => hbad
  have hbarred : barred view llmqParams signOffset earlier p.nodeId = false := by
    rwa [h.mem_badSources_iff, Bool.not_eq_true] at hbad
  rw [if_neg hbad]
  by_cases hsig : bls.isValid p.islock.sig = true
  swap
  · refine .inr ⟨by simp [quorumless, hsig], s.markBad p.nodeId, insert p.nodeId marked, pushes,
      dif_neg hsig, ?_⟩
    exact h.markBad (by simp [offends, hsig]) (submitted_cons_of_not _ (by simp [submittable, hsig]))
  rw [dif_pos hsig]
  cases hknown : hasRecoveredSig view llmqParams p.islock with
  | true =>
    refine .inr ⟨by simp [quorumless, hknown], s, marked, pushes, if_pos rfl, ?_⟩
    exact h.skip (submitted_cons_of_not _ (by simp [submittable, hknown]))
      fun hoff => by simp [offends, hsig, hknown] at hoff
  | false =>
    cases hcycle : view.lookupBlockIndex p.islock.cycleHash with
    | none =>
      refine .inr ⟨by simp [quorumless, hcycle], s.markBad p.nodeId, insert p.nodeId marked,
        pushes, rfl, ?_⟩
      exact h.markBad (by simp [offends, hknown, hcycle])
        (submitted_cons_of_not _ (by simp [submittable, quorumFor, hcycle]))
    | some nHeight =>
      have hfor : quorumFor view llmqParams signOffset p.islock =
          selectQuorum view llmqParams signOffset p.islock nHeight := by
        rw [quorumFor, hcycle, Option.bind_some]
      simp only
      cases hquorum : selectQuorum view llmqParams signOffset p.islock nHeight with
      | none => exact .inl ⟨by simp [quorumless, hsig, hknown, hcycle, hfor, hquorum], hbarred, rfl⟩
      | some quorum =>
        obtain ⟨pushes', hnext⟩ := h.submit hfresh hsig hknown (hfor.trans hquorum) hbarred
        exact .inr ⟨by simp [quorumless, hfor, hquorum], _, marked, pushes', rfl, hnext⟩

end

lemma givesUp_cons {pend : List (PendingLock Sig)} :
    GivesUp view llmqParams signOffset earlier (p :: pend) ↔
      (quorumless view llmqParams signOffset p.islock = true ∧
        barred view llmqParams signOffset earlier p.nodeId = false) ∨
      GivesUp view llmqParams signOffset (p :: earlier) pend := by
  constructor
  · rintro ⟨before, q, after, heq, hq, hbarred⟩
    cases before with
    | nil =>
      cases heq
      exact .inl ⟨hq, hbarred⟩
    | cons first before =>
      cases heq
      exact .inr ⟨before, q, after, rfl, hq, by simpa using hbarred⟩
  · rintro (⟨hq, hbarred⟩ | ⟨before, q, after, rfl, hq, hbarred⟩)
    · exact ⟨[], p, pend, rfl, hq, hbarred⟩
    · exact ⟨p :: before, q, after, rfl, hq, by simpa using hbarred⟩

/-- **The first loop** from any of its states: it gives up or keeps the account to the end. -/
theorem Screened.run (h : Screened view llmqParams signOffset earlier s marked pushes)
    (pend : List (PendingLock Sig))
    (hnodup : ((earlier.reverse ++ pend).map hash).Nodup) :
    (GivesUp view llmqParams signOffset earlier pend ∧
      pend.foldlM (screenLock view llmqParams signOffset) s = none) ∨
    (¬ GivesUp view llmqParams signOffset earlier pend ∧
      ∃ s' marked' pushes', pend.foldlM (screenLock view llmqParams signOffset) s = some s' ∧
        Screened view llmqParams signOffset (pend.reverse ++ earlier) s' marked' pushes') := by
  induction pend generalizing earlier s marked pushes with
  | nil =>
    refine .inr ⟨?_, s, marked, pushes, rfl, h⟩
    rintro ⟨before, p, after, heq, -⟩
    simp at heq
  | cons p pend ih =>
    have hfresh : ∀ q ∈ earlier, q.hash ≠ p.hash := by
      intro q hq heq
      rw [map_append, nodup_append] at hnodup
      exact hnodup.2.2 q.hash (mem_map_of_mem (mem_reverse.mpr hq)) p.hash (by simp) heq
    rw [foldlM_cons, givesUp_cons]
    rcases h.step hfresh with ⟨hq, hbarred, hnone⟩ | ⟨hgo, s', marked', pushes', hsome, hnext⟩
    · rw [hnone]
      exact .inl ⟨.inl ⟨hq, hbarred⟩, rfl⟩
    · rw [hsome]
      have hnodup' : (((p :: earlier).reverse ++ pend).map hash).Nodup := by
        simpa using hnodup
      rcases ih hnext hnodup' with ⟨hup, hnone⟩ | ⟨hup, s'', marked'', pushes'', hsome', hend⟩
      · exact .inl ⟨.inr hup, hnone⟩
      · refine .inr ⟨not_or.mpr ⟨hgo, hup⟩, s'', marked'', pushes'', hsome', ?_⟩
        simpa using hend

end Screened

/-! ## The whole round -/

variable (view llmqParams signOffset) in
lemma screened_nil : Screened view llmqParams signOffset []
    { batchVerifier :=
        { secureVerification := false, perMessageFallback := true, subBatchSize := 8 } } ∅ [] where
  pushed := pushed_nil false 8
  subBatchSize := rfl
  summaries := rfl
  offends_of_marked := by simp
  marked_of_offends := by simp

variable {p : PendingLock Sig} {pend : PendingLocks Sig}

/-- The locks that are verified are those that can be and whose sender is not barred. -/
lemma mem_submitted_iff {history : List (PendingLock Sig)} :
    p ∈ submitted view llmqParams signOffset history ↔
      ∃ after earlier, history = after ++ p :: earlier ∧
        submittable view llmqParams signOffset p.islock = true ∧
        barred view llmqParams signOffset earlier p.nodeId = false := by
  induction history with
  | nil => simp [submitted]
  | cons first history ih =>
    by_cases hfirst : submittable view llmqParams signOffset first.islock = true ∧
        barred view llmqParams signOffset history first.nodeId = false
    · rw [submitted_cons_of_submittable hfirst.1 hfirst.2, mem_append, mem_singleton, ih]
      constructor
      · rintro (⟨after, earlier, rfl, hp⟩ | rfl)
        · exact ⟨first :: after, earlier, rfl, hp⟩
        · exact ⟨[], history, rfl, hfirst⟩
      · rintro ⟨after, earlier, heq, hp⟩
        cases after with
        | nil =>
          cases heq
          exact .inr rfl
        | cons a after =>
          cases heq
          exact .inl ⟨after, earlier, rfl, hp⟩
    · rw [submitted_cons_of_not _ hfirst, ih]
      constructor
      · rintro ⟨after, earlier, rfl, hp⟩
        exact ⟨first :: after, earlier, rfl, hp⟩
      · rintro ⟨after, earlier, heq, hp⟩
        cases after with
        | nil =>
          cases heq
          exact absurd hp hfirst
        | cons a after =>
          cases heq
          exact ⟨after, earlier, rfl, hp⟩

/-- The locks a round hands over when it does not give up: all but the submitted ones that
do not verify. -/
lemma mem_processed_iff (ban : Bool)
    (hgo : ¬ GivesUp view llmqParams signOffset [] pend.entries) :
    p ∈ (processPendingInstantSendLocks view llmqParams signOffset pend ban).processed ↔
      p ∈ pend.entries ∧ (p ∈ submitted view llmqParams signOffset pend.entries.reverse →
        authentic view llmqParams signOffset p.islock = true) := by
  obtain ⟨hup, -⟩ | ⟨-, s, marked, pushes, hsome, h⟩ :=
    (screened_nil view llmqParams signOffset).run pend.entries (by simpa using pend.nodup)
  · exact absurd hup hgo
  rw [append_nil] at h
  have hbad : p ∈ pend.entries → (p.hash ∈ s.batchVerifier.verify.badMessages ↔
      p ∈ submitted view llmqParams signOffset pend.entries.reverse ∧
        authentic view llmqParams signOffset p.islock = false) := by
    intro hmem
    rw [h.pushed.mem_badMessages_verify]
    refine (exists_summary_iff h.summaries fun x => x.2.1 = p.hash ∧ x.2.2 = false).trans ?_
    constructor
    · rintro ⟨q, hq, hhash, hverdict⟩
      have hqp : q = p := inj_on_of_nodup_map pend.nodup
        (mem_reverse.mp (mem_of_mem_submitted hq)) hmem hhash
      exact hqp ▸ ⟨hq, hverdict⟩
    · rintro ⟨hp, hverdict⟩
      exact ⟨p, hp, rfl, hverdict⟩
  have hscreen : screen view llmqParams signOffset pend.entries = some s := hsome
  simp only [processPendingInstantSendLocks, hscreen, mem_filter, decide_eq_true_eq]
  refine and_congr_right fun hmem => ?_
  rw [hbad hmem]
  simp

lemma processed_of_givesUp (ban : Bool)
    (hup : GivesUp view llmqParams signOffset [] pend.entries) :
    (processPendingInstantSendLocks view llmqParams signOffset pend ban).processed = [] := by
  obtain ⟨-, hnone⟩ | ⟨hgo, -⟩ :=
    (screened_nil view llmqParams signOffset).run pend.entries (by simpa using pend.nodup)
  · have hscreen : screen view llmqParams signOffset pend.entries = none := hnone
    rw [processPendingInstantSendLocks, hscreen]
  · exact absurd hup hgo

/-- A lock that needs verification and comes after the locks `earlier` gets it: its signature
is well-formed, its cycle is known, and its sender is not barred. -/
def Admitted (view : SigningView bls) (llmqParams : LLMQParams) (signOffset : Int)
    (earlier : List (PendingLock Sig)) (p : PendingLock Sig) : Prop :=
  bls.isValid p.islock.sig = true ∧ (view.lookupBlockIndex p.islock.cycleHash).isSome = true ∧
    barred view llmqParams signOffset earlier.reverse p.nodeId = false

/-- **Only verified locks are processed** exactly when the round gives up, or every lock that
is not verified by itself is well-formed, belongs to a known cycle and comes from a node
that is not barred before it. -/
theorem processPending_verified_iff (view : SigningView bls) (llmqParams : LLMQParams)
    (signOffset : Int) (pend : PendingLocks Sig) (ban : Bool) :
    (∀ p ∈ (processPendingInstantSendLocks view llmqParams signOffset pend ban).processed,
      verified view llmqParams signOffset p.islock = true) ↔
    GivesUp view llmqParams signOffset [] pend.entries ∨
      ∀ earlier p later, pend.entries = earlier ++ p :: later →
        verified view llmqParams signOffset p.islock = true ∨
          Admitted view llmqParams signOffset earlier p := by
  by_cases hup : GivesUp view llmqParams signOffset [] pend.entries
  · simp [processed_of_givesUp ban hup, hup]
  simp only [mem_processed_iff ban hup, hup, false_or]
  constructor
  · intro h earlier p later heq
    by_contra hnot
    rw [not_or] at hnot
    have hmem : p ∈ pend.entries := heq ▸ mem_append_right _ mem_cons_self
    -- an unverified lock is not processed, so it was submitted
    have hsub : p ∈ submitted view llmqParams signOffset pend.entries.reverse := by
      by_contra hsub
      exact hnot.1 (h p ⟨hmem, fun hs => absurd hs hsub⟩)
    obtain ⟨after, before, hhistory, hable, hbarred⟩ := mem_submitted_iff.mp hsub
    have hbefore : before = earlier.reverse := by
      have hsplit : before.reverse ++ p :: after.reverse = earlier ++ p :: later := by
        rw [← heq, ← reverse_reverse pend.entries, hhistory]
        simp
      have hnodup : (before.reverse ++ p :: after.reverse).Nodup := hsplit ▸ heq ▸ pend.nodup.of_map
      have hp := (nodup_cons.mp (nodup_middle.mp hnodup)).1
      rw [mem_append, not_or] at hp
      have hpre := ((append_cons_inj_of_notMem hp.1 hp.2).mp hsplit).1
      rw [← hpre, reverse_reverse]
    simp only [submittable, Bool.and_eq_true] at hable
    refine hnot.2 ⟨hable.1.1, ?_, hbefore ▸ hbarred⟩
    cases hcycle : view.lookupBlockIndex p.islock.cycleHash with
    | none => simp [quorumFor, hcycle] at hable
    | some nHeight => rfl
  · rintro h p ⟨hmem, hauthentic⟩
    obtain ⟨earlier, later, heq⟩ := append_of_mem hmem
    by_contra hnot
    obtain ⟨hsig, hcycle, hbarred⟩ := (h earlier p later heq).resolve_left hnot
    simp only [verified, Bool.or_eq_true, not_or, Bool.not_eq_true] at hnot
    cases hquorum : quorumFor view llmqParams signOffset p.islock with
    | none =>
      refine hup ⟨earlier, p, later, heq, ?_, by simpa using hbarred⟩
      simp [quorumless, hsig, hnot.1, hcycle, hquorum]
    | some quorum =>
      refine absurd (hauthentic (mem_submitted_iff.mpr ⟨later.reverse, earlier.reverse, ?_, ?_,
        hbarred⟩)) (by simp [hnot.2])
      · simp [heq]
      · simp [submittable, hsig, hnot.1, hquorum]

end Round

/-! ## A lock that nobody verified -/

/-- A signature scheme in which signature `0` is malformed and no signature verifies. -/
def noSignatures : BlsScheme Nat Unit where
  isValid sig := sig != 0
  pubKeyIsValid _ := true
  pairing _ _ _ := false

/-- A node that knows every block, has one quorum and no recovered signature. -/
def freshView : SigningView noSignatures where
  requestIdHash _ := 1
  buildSignHash _ _ _ _ := 2
  hasRecoveredSig _ _ _ := false
  hasRecoveredSigForId _ _ := false
  lookupBlockIndex _ := some 0
  chainHeight := 100
  selectQuorumForSigning _ _ _ _ := some ⟨7, (), rfl⟩

/-- Two locks of one node: the first is malformed, the second well-formed. -/
def malformedThenForged : PendingLocks Nat where
  entries :=
    [⟨10, 1, { inputs := [⟨3, 0⟩], txid := 20, cycleHash := 5, sig := 0 }⟩,
      ⟨11, 1, { inputs := [⟨4, 0⟩], txid := 21, cycleHash := 5, sig := 9 }⟩]
  nodup := by decide

/-- Both locks are processed, although no signature verifies and none is known. -/
theorem processPending_unverified :
    (processPendingInstantSendLocks freshView llmq_60_75 0 malformedThenForged false).processed.map
        hash = [10, 11] ∧
      ∀ p ∈ malformedThenForged.entries, verified freshView llmq_60_75 0 p.islock = false := by
  decide +kernel

end HootChain.Llmq

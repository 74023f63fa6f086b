import HootChain.Evo.CbTxChainlock
import HootChain.Foundation.EventRuns
import HootChain.Llmq.InstantSend

/-!
# The Best ChainLock under Concurrent Calls (`llmq/chainlocks.cpp`)

`ProcessNewChainLock` tests the height of a new ChainLock in one critical section,
verifies its signature without the lock, and makes it the best ChainLock in a second
critical section, which does not look at the height again. The network thread calls
it for every `CLSIG` message, and `HandleNewRecoveredSig` for a signature that the
node has recovered itself.

A run is any interleaving of the critical sections of any number of calls, with the
verifications between them, while ChainLocks stay enabled.
-/

namespace HootChain.Llmq

open List Function

open Evo.CbTx (CBLSSignature CChainLockSig)
open Foundation Primitives

/-! ## Calls and their critical sections -/

/-- `CChainLockSig::IsNull`. -/
def isNullChainLock (clsig : CChainLockSig) : Bool := clsig.nHeight == -1 && clsig.blockHash == 0

/-- Where a call of `ProcessNewChainLock` stands: before its first critical section, after it, and
after the verification of the signature. -/
inductive CallStage where
  | idle
  | entered (clsig : CChainLockSig)
  | tested (clsig : CChainLockSig)
  | verified (clsig : CChainLockSig)

/-- What `CChainLocksHandler` guards with `cs`, and the calls in progress. -/
structure ChainLocksState where
  seenChainLocks : Finset Uint256 := ∅
  bestChainLockHash : Uint256 := 0
  bestChainLock : CChainLockSig := {}
  bestChainLockWithKnownBlock : CChainLockSig := {}
  lastSignedHeight : Int := -1
  lastSignedRequestId : Uint256 := 0
  lastSignedMsgHash : Uint256 := 0
  calls : Nat → CallStage := fun _ => .idle

/-- The atomic steps of the calls, and of the functions that share their data. -/
inductive ChainLockEvent where
  /-- `ProcessMessage` gets a `CLSIG` and calls `ProcessNewChainLock`. -/
  | receive (call : Nat) (clsig : CChainLockSig)
  /-- The critical section of `HandleNewRecoveredSig`. -/
  | recovered (call : Nat) (recoveredSig : CRecoveredSig CBLSSignature)
  /-- The first critical section of `ProcessNewChainLock`. -/
  | test (call : Nat)
  /-- `VerifyChainLock`. -/
  | verify (call : Nat) (valid : Bool)
  /-- The second critical section; `pindexHeight` is the height of the block, if it is known. -/
  | store (call : Nat) (pindexHeight : Option Int)
  /-- The last critical section of `TrySignChainTip`. -/
  | trySign (nHeight : Int) (requestId msgHash : Uint256)
  | acceptedBlockHeader (hash : Uint256) (nHeight : Int)
  /-- `Cleanup` of the locks seen. -/
  | cleanup (expired : Uint256 → Bool)

namespace ChainLocksState

/-- A call goes on to the given stage. -/
def setCall (s : ChainLocksState) (call : Nat) (stage : CallStage) : ChainLocksState :=
  { s with calls := update s.calls call stage }

/-- `HandleNewRecoveredSig`: the lock that is handed to `ProcessNewChainLock`. -/
def handleNewRecoveredSig (s : ChainLocksState) (recoveredSig : CRecoveredSig CBLSSignature) :
    Option CChainLockSig :=
  if recoveredSig.id ≠ s.lastSignedRequestId ∨ recoveredSig.msgHash ≠ s.lastSignedMsgHash then none
  else if s.bestChainLock.nHeight ≥ s.lastSignedHeight then none
  else some { nHeight := s.lastSignedHeight, blockHash := s.lastSignedMsgHash
              sig := recoveredSig.sig }

/-- `VerifyChainLock`. No start block is found for a negative height other than `-1`, and then
no quorum. -/
def verifyChainLock (clsig : CChainLockSig) (valid : Bool) : Bool := valid && -1 ≤ clsig.nHeight

variable (serializeHash : CChainLockSig → Uint256)

/-- The first critical section of `ProcessNewChainLock`. -/
def testSection (s : ChainLocksState) (call : Nat) (clsig : CChainLockSig) : ChainLocksState :=
  if serializeHash clsig ∈ s.seenChainLocks then s.setCall call .idle
  else
    let s := { s with seenChainLocks := insert (serializeHash clsig) s.seenChainLocks }
    if !isNullChainLock s.bestChainLock && clsig.nHeight ≤ s.bestChainLock.nHeight then
      s.setCall call .idle
    else s.setCall call (.tested clsig)

/-- The second critical section of `ProcessNewChainLock`. -/
def storeSection (s : ChainLocksState) (call : Nat) (clsig : CChainLockSig)
    (pindexHeight : Option Int) : ChainLocksState :=
  let s := { s with bestChainLockHash := serializeHash clsig, bestChainLock := clsig }
  if pindexHeight = some clsig.nHeight then
    { s with bestChainLockWithKnownBlock := clsig }.setCall call .idle
  else s.setCall call .idle

/-- One atomic step. A step that its call is not ready for does nothing. -/
def step (s : ChainLocksState) : ChainLockEvent → ChainLocksState
  | .receive call clsig =>
    match s.calls call with
    | .idle => s.setCall call (.entered clsig)
    | _ => s
  | .recovered call recoveredSig =>
    match s.calls call, s.handleNewRecoveredSig recoveredSig with
    | .idle, some clsig => s.setCall call (.entered clsig)
    | _, _ => s
  | .test call =>
    match s.calls call with
    | .entered clsig => s.testSection serializeHash call clsig
    | _ => s
  | .verify call valid =>
    match s.calls call with
    | .tested clsig =>
      s.setCall call (if verifyChainLock clsig valid then .verified clsig else .idle)
    | _ => s
  | .store call pindexHeight =>
    match s.calls call with
    | .verified clsig => s.storeSection serializeHash call clsig pindexHeight
    | _ => s
  | .trySign nHeight requestId msgHash =>
    if s.bestChainLock.nHeight ≥ nHeight then s
    else { s with lastSignedHeight := nHeight, lastSignedRequestId := requestId
                  lastSignedMsgHash := msgHash }
  | .acceptedBlockHeader hash nHeight =>
    if hash = s.bestChainLock.blockHash ∧ s.bestChainLock.nHeight = nHeight then
      { s with bestChainLockWithKnownBlock := s.bestChainLock }
    else s
  | .cleanup expired =>
    { s with seenChainLocks := s.seenChainLocks.filter fun hash => !expired hash }

/-- The state after any steps of a node that starts. -/
def run (events : List ChainLockEvent) : ChainLocksState := events.foldl (step serializeHash) {}

/-! ## What a step does -/

variable {serializeHash} {s : ChainLocksState} {e : ChainLockEvent} {call : Nat}
  {low : CChainLockSig}

@[simp] lemma bestChainLock_setCall (stage : CallStage) :
    (s.setCall call stage).bestChainLock = s.bestChainLock := rfl

@[simp] lemma calls_setCall (stage : CallStage) :
    (s.setCall call stage).calls = update s.calls call stage := rfl

lemma bestChainLock_testSection (clsig : CChainLockSig) :
    (s.testSection serializeHash call clsig).bestChainLock = s.bestChainLock := by
  unfold testSection
  split
  · rfl
  · dsimp only
    split <;> rfl

lemma bestChainLock_storeSection (clsig : CChainLockSig) (pindexHeight : Option Int) :
    (s.storeSection serializeHash call clsig pindexHeight).bestChainLock = clsig := by
  unfold storeSection
  split <;> rfl

lemma calls_storeSection (clsig : CChainLockSig) (pindexHeight : Option Int) :
    (s.storeSection serializeHash call clsig pindexHeight).calls = update s.calls call .idle := by
  unfold storeSection
  split
  · rfl
  · rfl

variable {clsig : CChainLockSig} {call' : Nat} {events : List ChainLockEvent}

/-- The second critical section makes the lock of its call the best one, whatever the best one
is by then. -/
lemma bestChainLock_store (pindexHeight : Option Int) (hcall : s.calls call = .verified clsig) :
    (s.step serializeHash (.store call pindexHeight)).bestChainLock = clsig := by
  simp only [step, hcall]
  exact bestChainLock_storeSection clsig pindexHeight

variable (serializeHash) in
/-- **Only the second critical section changes the best ChainLock.** -/
theorem step_bestChainLock (s : ChainLocksState) (e : ChainLockEvent) :
    (s.step serializeHash e).bestChainLock = s.bestChainLock ∨
      ∃ call pindexHeight clsig, e = .store call pindexHeight ∧
        s.calls call = .verified clsig := by
  cases e with
  | store call pindexHeight =>
    cases hcall : s.calls call with
    | verified clsig => exact .inr ⟨call, pindexHeight, clsig, rfl, hcall⟩
    | idle | entered | tested => exact .inl (by simp [step, hcall])
  | test call =>
    left
    cases hcall : s.calls call with
    | entered clsig =>
      simp only [step, hcall]
      exact bestChainLock_testSection clsig
    | idle | tested | verified => simp [step, hcall]
  | receive | recovered | verify | trySign | acceptedBlockHeader =>
    exact .inl (by simp only [step]; split <;> rfl)
  | cleanup expired => exact .inl rfl

/-- The life of a call, step by step, while the best ChainLock is `best`. -/
inductive CallMove (best : CChainLockSig) : CallStage → CallStage → Prop where
  | stay (stage : CallStage) : CallMove best stage stage
  | leave (stage : CallStage) : CallMove best stage .idle
  | enter (clsig : CChainLockSig) : CallMove best .idle (.entered clsig)
  | pass (clsig : CChainLockSig)
      (height : isNullChainLock best = true ∨ best.nHeight < clsig.nHeight) :
      CallMove best (.entered clsig) (.tested clsig)
  | verify (clsig : CChainLockSig) (height : -1 ≤ clsig.nHeight) :
      CallMove best (.tested clsig) (.verified clsig)

/-- A step moves its own call and no other. -/
lemma CallMove.setCall {best : CChainLockSig} {stage : CallStage}
    (h : CallMove best (s.calls call') stage) (call : Nat) :
    CallMove best (s.calls call) ((s.setCall call' stage).calls call) := by
  by_cases hne : call = call'
  · subst hne
    simpa using h
  · simp only [calls_setCall, update_of_ne hne]
    exact .stay _

lemma callMove_testSection (hcall : s.calls call' = .entered clsig) (call : Nat) :
    CallMove s.bestChainLock (s.calls call)
      ((s.testSection serializeHash call' clsig).calls call) := by
  unfold testSection
  split
  · exact CallMove.setCall (.leave _) call
  · dsimp only
    split
    · exact CallMove.setCall (.leave _) call
    · rename_i hpass
      apply CallMove.setCall
      rw [hcall]
      apply CallMove.pass
      simpa [or_iff_not_imp_left] using hpass

variable (serializeHash) in
/-- **What a step does to a call.** -/
theorem step_calls (s : ChainLocksState) (e : ChainLockEvent) (call : Nat) :
    CallMove s.bestChainLock (s.calls call) ((s.step serializeHash e).calls call) := by
  cases e with
  | receive call' clsig =>
    simp only [step]
    split
    · rename_i hcall
      exact CallMove.setCall (hcall ▸ .enter clsig) call
    · exact .stay _
  | recovered call' recoveredSig =>
    simp only [step]
    split
    · rename_i clsig hcall _
      exact CallMove.setCall (hcall ▸ .enter clsig) call
    · exact .stay _
  | test call' =>
    simp only [step]
    split
    · rename_i clsig hcall
      exact callMove_testSection hcall call
    · exact .stay _
  | verify call' valid =>
    simp only [step]
    split
    · rename_i clsig hcall
      apply CallMove.setCall
      rw [hcall]
      split
      · rename_i hvalid
        simp only [verifyChainLock, Bool.and_eq_true, decide_eq_true_eq] at hvalid
        exact .verify clsig hvalid.2
      · exact .leave _
    · exact .stay _
  | store call' pindexHeight =>
    simp only [step]
    split
    · rw [calls_storeSection]
      exact CallMove.setCall (.leave _) call
    · exact .stay _
  | trySign nHeight requestId msgHash =>
    simp only [step]
    split <;> exact .stay _
  | acceptedBlockHeader hash nHeight =>
    simp only [step]
    split
    · exact .stay _
    · exact .stay _
  | cleanup expired => exact .stay _

/-! ## Calls between their critical sections -/

/-- The call has passed the height test of its first critical section with the lock `low` and not
entered the second. -/
def InFlight (s : ChainLocksState) (call : Nat) (low : CChainLockSig) : Prop :=
  s.calls call = .tested low ∨ s.calls call = .verified low

/-- A call gets in flight by passing the test. -/
lemma step_inFlight (h : (s.step serializeHash e).InFlight call low) :
    s.InFlight call low ∨ isNullChainLock s.bestChainLock = true ∨
      s.bestChainLock.nHeight < low.nHeight := by
  have hmove := step_calls serializeHash s e call
  unfold InFlight at h ⊢
  generalize s.calls call = old at hmove ⊢
  generalize (s.step serializeHash e).calls call = new at hmove h
  cases hmove with
  | stay => exact .inl h
  | leave | enter => simp at h
  | pass clsig height =>
    simp only [CallStage.tested.injEq, reduceCtorEq, or_false] at h
    exact .inr (h ▸ height)
  | verify clsig height =>
    simp only [CallStage.verified.injEq, reduceCtorEq, false_or] at h
    exact .inl (.inl (congrArg _ h))

/-- A lock that was verified has a height of at least `-1`. -/
lemma verified_height (events : List ChainLockEvent)
    (h : (run serializeHash events).calls call = .verified clsig) : -1 ≤ clsig.nHeight := by
  revert call clsig
  refine foldlRecOn
    (motive := fun s => ∀ {call clsig}, s.calls call = .verified clsig → -1 ≤ clsig.nHeight)
    events (step serializeHash) (fun h => by cases h) fun s hs e _ call clsig hcall => ?_
  have hmove := step_calls serializeHash s e call
  rw [hcall] at hmove
  generalize hold : s.calls call = old at hmove
  cases hmove with
  | stay => exact hs hold
  | verify _ height => exact height

lemma run_append (events : List ChainLockEvent) (e : ChainLockEvent) :
    run serializeHash (events ++ [e]) = (run serializeHash events).step serializeHash e := by
  simp [run]

/-! ## Overtaking -/

/-- A store of another call leaves a call where it is. -/
lemma calls_store {pindexHeight : Option Int} (hcall' : s.calls call' = .verified clsig) :
    (s.step serializeHash (.store call' pindexHeight)).calls = update s.calls call' .idle := by
  simp only [step, hcall']
  exact calls_storeSection clsig pindexHeight

/-- After the events, the call is between its two critical sections with the lock `low`, and since
its test another call has stored a higher lock. -/
def OvertakenBy (serializeHash : CChainLockSig → Uint256) (events : List ChainLockEvent)
    (call : Nat) (low : CChainLockSig) : Prop :=
  ∃ before call' pindexHeight' mid high, events = before ++ .store call' pindexHeight' :: mid ∧
    (run serializeHash before).calls call' = .verified high ∧ low.nHeight < high.nHeight ∧
    (run serializeHash before).InFlight call low ∧
    ∀ m, m <+: mid →
      (run serializeHash (before ++ .store call' pindexHeight' :: m)).InFlight call low

lemma OvertakenBy.append (h : OvertakenBy serializeHash events call low)
    (hflight : (run serializeHash (events ++ [e])).InFlight call low) :
    OvertakenBy serializeHash (events ++ [e]) call low := by
  obtain ⟨before, call', pindexHeight', mid, high, rfl, hcall', hlt, hbefore, hmid⟩ := h
  refine ⟨before, call', pindexHeight', mid ++ [e], high, by simp, hcall', hlt, hbefore, ?_⟩
  intro m hm
  rcases prefix_concat_iff.mp hm with rfl | hm
  · simpa using hflight
  · exact hmid m hm

/-- **Between its two sections** a call has a lock that is at least as high as the best one, or
it has been overtaken. -/
theorem lower_or_overtaken (events : List ChainLockEvent) (hlow : -1 ≤ low.nHeight)
    (hflight : (run serializeHash events).InFlight call low) :
    (run serializeHash events).bestChainLock.nHeight ≤ low.nHeight ∨
      OvertakenBy serializeHash events call low := by
  -- on the last event of the run
  induction events using reverseRecOn with
  | nil => simp [run, InFlight] at hflight
  | append_singleton events e ih =>
    have hstep := hflight
    rw [run_append] at hstep ⊢
    rcases step_bestChainLock serializeHash (run serializeHash events) e with
      hbest | ⟨call', pindexHeight', high, rfl, hcall'⟩
    · rw [hbest]
      rcases step_inFlight hstep with hbefore | hnull | hlt
      · exact (ih hbefore).imp_right fun h => h.append hflight
      · -- the height of no ChainLock is -1
        simp only [isNullChainLock, Bool.and_eq_true, beq_iff_eq] at hnull
        exact .inl (by omega)
      · exact .inl (by omega)
    · rw [bestChainLock_store pindexHeight' hcall']
      have hne : call ≠ call' := by
        rintro rfl
        simp [InFlight, calls_store hcall'] at hstep
      have hbefore : (run serializeHash events).InFlight call low := by
        simpa [InFlight, calls_store hcall', hne] using hstep
      rcases lt_or_ge low.nHeight high.nHeight with hlt | hge
      · refine .inr ⟨events, call', pindexHeight', [], high, rfl, hcall', hlt, hbefore, ?_⟩
        intro m hm
        rw [prefix_nil.mp hm]
        exact hflight
      · exact .inl hge

/-- Some call stores its lock after it has been overtaken. -/
def Overtaken (serializeHash : CChainLockSig → Uint256) (events : List ChainLockEvent) : Prop :=
  ∃ before call pindexHeight low, before ++ [.store call pindexHeight] <+: events ∧
    (run serializeHash before).calls call = .verified low ∧
    OvertakenBy serializeHash before call low

/-- The height of the best ChainLock does not decrease with any step. -/
def HeightNeverDecreases (serializeHash : CChainLockSig → Uint256)
    (events : List ChainLockEvent) : Prop :=
  ∀ before e, before ++ [e] <+: events →
    (run serializeHash before).bestChainLock.nHeight ≤
      (run serializeHash (before ++ [e])).bestChainLock.nHeight

/-- From one state of such a run to a later one. -/
lemma HeightNeverDecreases.le (h : HeightNeverDecreases serializeHash events)
    (before later : List ChainLockEvent) (hlater : before ++ later <+: events) :
    (run serializeHash before).bestChainLock.nHeight ≤
      (run serializeHash (before ++ later)).bestChainLock.nHeight := by
  induction later using reverseRecOn with
  | nil => simp
  | append_singleton later e ih =>
    rw [← append_assoc] at hlater ⊢
    exact (ih ((prefix_append _ _).trans hlater)).trans (h _ e hlater)

/-- **The height of the best ChainLock never decreases** exactly in the runs in which no call is
overtaken between its height test and its store. -/
theorem height_never_decreases_iff (serializeHash : CChainLockSig → Uint256)
    (events : List ChainLockEvent) :
    HeightNeverDecreases serializeHash events ↔ ¬ Overtaken serializeHash events := by
  constructor
  · rintro h ⟨-, call, pindexHeight, low, hhead, hcall, before, call', pindexHeight', mid, high,
      rfl, hcall', hlt, -, -⟩
    -- the higher lock is best after its store, so at least as high a one is best before the other
    have hstored : (run serializeHash (before ++ [.store call' pindexHeight'])).bestChainLock =
        high := by
      rw [run_append]
      exact bestChainLock_store pindexHeight' hcall'
    have hmid := h.le (before ++ [.store call' pindexHeight']) mid
      (by simpa using (prefix_append _ _).trans hhead)
    have hlast := h _ (.store call pindexHeight) hhead
    rw [run_append, bestChainLock_store pindexHeight hcall] at hlast
    rw [hstored, append_assoc, singleton_append] at hmid
    omega
  · intro hnot before e hhead
    rw [run_append]
    rcases step_bestChainLock serializeHash (run serializeHash before) e with
      hbest | ⟨call, pindexHeight, low, rfl, hcall⟩
    · rw [hbest]
    · rw [bestChainLock_store pindexHeight hcall]
      apply (lower_or_overtaken before (verified_height before hcall) (.inr hcall)).resolve_right
      intro hovertaken
      exact hnot ⟨before, call, pindexHeight, low, hhead, hcall, hovertaken⟩

/-! ## A lower ChainLock that replaces a higher one -/

/-- The node signs its tip at height 10 and recovers the signature; before it has stored the lock,
the network thread processes a lock for height 11. The heights stand for later ones. -/
def overtakingRun : List ChainLockEvent :=
  [.trySign 10 1 100,
    .recovered 0 { llmqType := .llmq400_60, quorumHash := 5, id := 1, msgHash := 100, sig := some 7 },
    .test 0,
    .receive 1 { nHeight := 11, blockHash := 110, sig := some 8 }, .test 1, .verify 1 true,
    .store 1 (some 11), .verify 0 true, .store 0 (some 10)]

/-- The height goes from 11 down to 10. -/
theorem height_decreases :
    (overtakingRun.inits.map fun events =>
        (run CChainLockSig.blockHash events).bestChainLock.nHeight) =
      [-1, -1, -1, -1, -1, -1, -1, 11, 11, 10] := by
  decide +kernel

end ChainLocksState

end HootChain.Llmq

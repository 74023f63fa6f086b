import HootChain.Llmq.BlockProcessor

/-!
# Concurrent Reads of Mined Commitments (`HasMinedCommitment` in `llmq/blockprocessor.cpp`)

`HasMinedCommitment` looks into the cache, tests the database, and puts the outcome into
the cache, each under a lock of its own. A block that is connected or disconnected writes
a record and then takes the answer about it out of the cache. A block that fails is rolled
back in the database only.

So a reader that has made its test before a write can put its answer into the cache after
the writer has cleaned up, and an answer that was read out of a transaction stays when the
transaction is rolled back.
-/

namespace HootChain.Llmq.BlockProcessor

open Foundation Function CachedSet Option

/-! ## Readers and the writer -/

/-- How far a call of `HasMinedCommitment` has come. -/
inductive ReadStage where
  /-- The cache had no answer. -/
  | looked (key : MinedKey)
  /-- The database has been tested. -/
  | tested (key : MinedKey) (fExists : Bool)

/-- What the thread that connects and disconnects blocks is doing. -/
inductive WriteStage where
  | idle
  /-- A transaction of `m_evoDb` is open. -/
  | inTransaction
  /-- A record is written or erased, and its answer is still in the cache. -/
  | erasing (key : MinedKey)
  deriving DecidableEq

/-- The records as the open transaction shows them, with the cache; the records without the
open transaction; and the threads. -/
structure SharedState where
  mined : Mined
  committed : MinedKey → Bool
  readers : Nat → Option ReadStage
  writer : WriteStage

/-- A node without records. -/
def SharedState.start : SharedState where
  mined := .empty
  committed := fun _ => false
  readers := fun _ => none
  writer := .idle

/-- The atomic steps. -/
inductive SharedEvent where
  /-- A reader looks into the cache. -/
  | lookup (reader : Nat) (key : MinedKey)
  /-- `m_evoDb.Exists`. -/
  | test (reader : Nat)
  /-- The outcome of the test goes into the cache. -/
  | insert (reader : Nat)
  /-- `BeginTransaction`. -/
  | begin
  /-- `m_evoDb.Write` in `ProcessCommitment`, or `m_evoDb.Erase` in `UndoBlock`. -/
  | write (key : MinedKey) (value : Bool)
  /-- `mapHasMinedCommitmentCache[..].erase`. -/
  | erase
  | commit
  | rollback
  /-- The cache drops answers. -/
  | evict (drop : MinedKey → Bool)

/-- One step. A step that a thread cannot take where it is does nothing. -/
def SharedState.step (s : SharedState) : SharedEvent → SharedState
  | .lookup reader key =>
    match s.readers reader, s.mined.cache key with
    -- with an answer in the cache the call returns at once
    | none, none => { s with readers := update s.readers reader (some (.looked key)) }
    | _, _ => s
  | .test reader =>
    match s.readers reader with
    | some (.looked key) =>
      { s with
        readers := update s.readers reader (some (.tested key (s.mined.contents key))) }
    | _ => s
  | .insert reader =>
    match s.readers reader with
    | some (.tested key fExists) =>
      { s with
        mined := { s.mined with cache := update s.mined.cache key (some fExists) }
        readers := update s.readers reader none }
    | _ => s
  | .begin => if s.writer = .idle then { s with writer := .inTransaction } else s
  | .write key value =>
    if s.writer = .inTransaction then
      { s with
        mined := { s.mined with contents := update s.mined.contents key value }
        writer := .erasing key }
    else s
  | .erase =>
    match s.writer with
    | .erasing key =>
      { s with
        mined := { s.mined with cache := update s.mined.cache key none }
        writer := .inTransaction }
    | _ => s
  | .commit =>
    if s.writer = .inTransaction then
      { s with committed := s.mined.contents, writer := .idle }
    else s
  | .rollback =>
    if s.writer = .inTransaction then
      { s with mined := { s.mined with contents := s.committed }, writer := .idle }
    else s
  | .evict drop => { s with mined := s.mined.forget drop }

/-- A run from a node without records. -/
def SharedState.run (events : List SharedEvent) : SharedState :=
  events.foldl SharedState.step .start

namespace SharedState

variable {s : SharedState}

section

variable (s : SharedState)

/-- No operation is in progress. -/
def Quiescent : Prop := s.writer = .idle ∧ ∀ reader, s.readers reader = none

/-- Every cached answer is that of the database. -/
def Coherent : Prop := ∀ key answer, s.mined.cache key = some answer → answer = s.mined.contents key

/-! ## Answers that are right -/

/-- The answers in the cache, and those that a reader is about to put there, are right; the
answer that the writer is about to take out of the cache may be wrong. -/
structure Right (s : SharedState) : Prop where
  cached : ∀ key answer, s.mined.cache key = some answer → s.writer ≠ .erasing key →
    answer = s.mined.contents key
  tested : ∀ reader key answer, s.readers reader = some (.tested key answer) →
    answer = s.mined.contents key

/-- No reader is between its test of the key and its insertion. -/
def Unread (key : MinedKey) : Prop := ∀ reader answer, s.readers reader ≠ some (.tested key answer)

/-- No record changes while a reader has its test behind it, and what a rollback takes back
has not been read. -/
def Undisturbed : SharedEvent → Prop
  | .write key value => s.writer = .inTransaction → s.mined.contents key ≠ value → s.Unread key
  | .rollback =>
    s.writer = .inTransaction → ∀ key, s.mined.contents key ≠ s.committed key →
      s.mined.cache key = none ∧ s.Unread key
  | _ => True

end

lemma right_start : Right start where
  cached _ _ h := by cases h
  tested _ _ _ h := by cases h

section

variable (h : s.Right)

include h

lemma Right.coherent (hidle : s.Quiescent) : s.Coherent := by
  intro key answer hcached
  apply h.cached key answer hcached
  rw [hidle.1]
  exact WriteStage.noConfusion

lemma Right.lookup (reader : Nat) (key : MinedKey) : (s.step (.lookup reader key)).Right := by
  simp only [step]
  split
  case h_1 =>
    refine ⟨h.cached, fun reader' key' answer htested => ?_⟩
    dsimp only at htested
    rw [update_apply] at htested
    split at htested
    · cases htested
    · exact h.tested reader' key' answer htested
  case h_2 => exact h

lemma Right.test (reader : Nat) : (s.step (.test reader)).Right := by
  simp only [step]
  split
  case h_1 key _ =>
    refine ⟨h.cached, fun reader' key' answer htested => ?_⟩
    dsimp only at htested
    rw [update_apply] at htested
    split at htested
    · cases htested
      rfl
    · exact h.tested reader' key' answer htested
  case h_2 => exact h

lemma Right.insert (reader : Nat) : (s.step (.insert reader)).Right := by
  simp only [step]
  split
  case h_1 key fExists hreader =>
    refine ⟨fun key' answer hcached hwriter => ?_, fun reader' key' answer htested => ?_⟩
    · dsimp only at hcached
      rw [update_apply] at hcached
      split at hcached
      case isTrue heq =>
        obtain rfl := some.inj hcached
        rw [heq]
        exact h.tested reader key fExists hreader
      case isFalse => exact h.cached key' answer hcached hwriter
    · dsimp only at htested
      rw [update_apply] at htested
      split at htested
      · cases htested
      · exact h.tested reader' key' answer htested
  case h_2 => exact h

lemma Right.erase : (s.step .erase).Right := by
  simp only [step]
  split
  case h_1 key hwriter =>
    refine ⟨fun key' answer hcached _ => ?_, h.tested⟩
    dsimp only at hcached
    rw [update_apply] at hcached
    split at hcached
    · cases hcached
    case isFalse hne =>
      apply h.cached key' answer hcached
      rw [hwriter]
      exact fun heq => hne (WriteStage.erasing.inj heq).symm
  case h_2 => exact h

/-- A write keeps the answers right exactly if no reader has tested what it changes. -/
lemma right_write_iff (key : MinedKey) (value : Bool) :
    (s.step (.write key value)).Right ↔ s.Undisturbed (.write key value) := by
  simp only [step, Undisturbed]
  by_cases hwriter : s.writer = .inTransaction
  · rw [if_pos hwriter]
    constructor
    · intro hafter _ hchanges reader answer htested
      have hold := h.tested reader key answer htested
      have hnew := hafter.tested reader key answer htested
      dsimp only at hnew
      rw [update_self] at hnew
      exact hchanges (hold.symm.trans hnew)
    · intro hundisturbed
      refine ⟨fun key' answer hcached hne => ?_, fun reader key' answer htested => ?_⟩
      · have hkey : key' ≠ key := fun heq => hne (by rw [heq])
        dsimp only
        rw [update_of_ne hkey]
        exact h.cached key' answer hcached (by rw [hwriter]; exact WriteStage.noConfusion)
      · dsimp only
        rw [h.tested reader key' answer htested]
        by_cases hkey : key' = key
        · subst hkey
          rw [update_self]
          by_contra hchanges
          exact hundisturbed hwriter hchanges reader answer htested
        · rw [update_of_ne hkey]
  · rw [if_neg hwriter]
    exact iff_of_true h fun hin => absurd hin hwriter

/-- A rollback keeps the answers right exactly if what it takes back has not been read. -/
lemma right_rollback_iff : (s.step .rollback).Right ↔ s.Undisturbed .rollback := by
  simp only [step, Undisturbed]
  by_cases hwriter : s.writer = .inTransaction
  · rw [if_pos hwriter]
    have hcached : ∀ key answer, s.mined.cache key = some answer →
        answer = s.mined.contents key := fun key answer hcached =>
      h.cached key answer hcached (by rw [hwriter]; exact WriteStage.noConfusion)
    constructor
    · intro hafter _ key hchanged
      refine ⟨?_, fun reader answer htested => ?_⟩
      · by_contra hsome
        obtain ⟨answer, hanswer⟩ := ne_none_iff_exists'.mp hsome
        have hnew := hafter.cached key answer hanswer WriteStage.noConfusion
        exact hchanged ((hcached key answer hanswer).symm.trans hnew)
      · have hnew := hafter.tested reader key answer htested
        exact hchanged ((h.tested reader key answer htested).symm.trans hnew)
    · intro hundisturbed
      refine ⟨fun key answer hanswer _ => ?_, fun reader key answer htested => ?_⟩
      · rw [hcached key answer hanswer]
        by_contra hchanged
        rw [(hundisturbed hwriter key hchanged).1] at hanswer
        cases hanswer
      · rw [h.tested reader key answer htested]
        by_contra hchanged
        exact (hundisturbed hwriter key hchanged).2 reader answer htested
  · rw [if_neg hwriter]
    exact iff_of_true h fun hin => absurd hin hwriter

lemma right_step_iff (event : SharedEvent) : (s.step event).Right ↔ s.Undisturbed event := by
  cases event with
  | lookup reader key => exact iff_of_true (h.lookup reader key) trivial
  | test reader => exact iff_of_true (h.test reader) trivial
  | insert reader => exact iff_of_true (h.insert reader) trivial
  | begin =>
    refine iff_of_true ?_ trivial
    simp only [step]
    split
    case isTrue hidle =>
      refine ⟨fun key answer hcached _ => h.cached key answer hcached ?_, h.tested⟩
      rw [hidle]
      exact WriteStage.noConfusion
    case isFalse => exact h
  | write key value => exact right_write_iff h key value
  | erase => exact iff_of_true h.erase trivial
  | commit =>
    refine iff_of_true ?_ trivial
    simp only [step]
    split
    case isTrue hwriter =>
      refine ⟨fun key answer hcached _ => h.cached key answer hcached ?_, h.tested⟩
      rw [hwriter]
      exact WriteStage.noConfusion
    case isFalse => exact h
  | rollback => exact right_rollback_iff h
  | evict drop =>
    refine iff_of_true ⟨fun key answer hcached hwriter => ?_, h.tested⟩ trivial
    simp only [step, forget] at hcached
    split at hcached
    · cases hcached
    · exact h.cached key answer hcached hwriter

end

/-- In all states of a run the answers are right, exactly if no step is disturbed. -/
lemma right_run_iff (events : List SharedEvent) :
    (∀ before, before <+: events → (run before).Right) ↔
      ∀ before event, before ++ [event] <+: events → (run before).Undisturbed event :=
  @forall_prefix_iff _ _ step (fun _ => True) Right Undisturbed (fun _ _ _ => trivial)
    (fun _ event _ h => right_step_iff h event) start trivial right_start events

end SharedState

/-! ## Blocks -/

section Blocks

variable {c : QuorumConsensus} {view : QuorumView} {chain : QChain} {nHeight : Int}

/-- Records with the same contents and the same answers. -/
abbrev Alike (m m' : Mined) : Prop := peek m = peek m'

lemma Alike.insert {m m' : Mined} (h : Alike m m') (key : MinedKey) :
    Alike (m.insert key) (m'.insert key) := by
  obtain ⟨hcontents, hanswer⟩ := Prod.mk.inj h
  refine Prod.ext ?_ (funext fun key' => ?_)
  · simp [peek, hcontents]
  · by_cases hkey : key' = key
    · simp [peek, answer, hkey]
    · simp [peek, answer_insert_of_ne hkey, hanswer]

lemma respects_processCommitment (fJustCheck fBLSChecks : Bool) (qc : CFinalCommitment) :
    Respects Alike (processCommitment c view chain nHeight fJustCheck fBLSChecks qc) := by
  unfold processCommitment
  split
  case h_1 => exact .lift (.error "")
  case h_2 params _ =>
    dsimp only
    split
    · exact .lift (.error "bad-qc-block")
    split
    · exact .lift (.error "bad-qc-block")
    split
    · split
      · exact .lift (.ok ())
      · exact .lift (.error "bad-qc-invalid-null")
    · refine (reads_hasMinedCommitment (fun _ _ _ => trivial) _ _).respects.bind fun isMined => ?_
      split
      · exact .lift (.error "bad-qc-dup")
      split
      · exact .lift (.error "bad-qc-height")
      split
      · exact .lift (.error "bad-qc-invalid")
      split
      · exact .lift (.ok ())
      · exact fun m m' h => ⟨rfl, Alike.insert h _⟩

/-- Two nodes with the same answers judge a block in the same way. -/
lemma respects_processBlock (block : QBlock) (fJustCheck fBLSChecks : Bool) :
    Respects Alike (processBlock c view chain block fJustCheck fBLSChecks) := by
  unfold processBlock
  dsimp only
  split
  · exact .lift (.ok ())
  · refine (Respects.lift _).bind fun qcs => ?_
    refine Respects.bind ?_ fun _ => Respects.forM fun qc _ =>
      respects_processCommitment fJustCheck fBLSChecks qc
    exact (reads_checkAll c chain chain.length (fun _ _ _ => trivial) qcs _).respects

lemma SharedState.Coherent.alike {s : SharedState} (h : s.Coherent) :
    Alike s.mined (s.mined.forget fun _ => true) := by
  refine Prod.ext rfl (funext fun key => ?_)
  simp only [peek, answer, forget, if_true, getD_none]
  cases hcached : s.mined.cache key with
  | none => rfl
  | some answer => exact h key answer hcached

end Blocks

/-! ## Runs -/

/-- A block is judged as it would be without the cache. -/
def SharedState.JudgesUncached (s : SharedState) : Prop :=
  ∀ (c : QuorumConsensus) (view : QuorumView) (chain : QChain) (block : QBlock)
    (fJustCheck fBLSChecks : Bool),
    (runs (processBlock c view chain block fJustCheck fBLSChecks) s.mined).1 =
      (runs (processBlock c view chain block fJustCheck fBLSChecks)
        (s.mined.forget fun _ => true)).1

/-- **Concurrent reads.** If no record changes between the test of a reader and its insertion,
and nothing is read that is rolled back, then whenever no operation is in progress the cached
answers are those of the database, and no block is judged by a stale answer. -/
theorem coherent_of_undisturbed (events : List SharedEvent)
    (hsteps : ∀ before event, before ++ [event] <+: events →
      (SharedState.run before).Undisturbed event)
    (before : List SharedEvent) (hbefore : before <+: events)
    (hidle : (SharedState.run before).Quiescent) :
    (SharedState.run before).Coherent ∧ (SharedState.run before).JudgesUncached := by
  have hright := (SharedState.right_run_iff events).mpr hsteps before hbefore
  have hcoherent := hright.coherent hidle
  refine ⟨hcoherent, fun c view chain block fJustCheck fBLSChecks => ?_⟩
  exact (respects_processBlock block fJustCheck fBLSChecks _ _ hcoherent.alike).1

/-- A reader finds that the commitment of a quorum is not mined, and then a block with it is
connected. -/
def readThenConnect : List SharedEvent :=
  [.lookup 0 (.llmq50_60, 1), .test 0, .insert 0, .begin, .write (.llmq50_60, 1) true, .erase,
    .commit]

lemma undisturbed_readThenConnect :
    ∀ before event, before ++ [event] <+: readThenConnect →
      (SharedState.run before).Undisturbed event := by
  intro before event hbefore
  cases event with
  | write key value =>
    -- the reader is done when the transaction begins
    have hlength : before = readThenConnect.take 4 := by
      rcases before with _ | ⟨_, _ | ⟨_, _ | ⟨_, _ | ⟨_, _ | ⟨_, _ | ⟨_, _ | ⟨_, _⟩⟩⟩⟩⟩⟩⟩ <;>
        simp_all [readThenConnect]
    subst hlength
    intro _ _ reader answer htested
    simp [SharedState.run, SharedState.step, SharedState.start, readThenConnect, empty] at htested
  | rollback =>
    have hmem : SharedEvent.rollback ∈ readThenConnect := hbefore.subset (by simp)
    simp [readThenConnect] at hmem
  | _ => exact trivial

/-- The answer of the reader is taken out of the cache by the writer. -/
theorem coherent_readThenConnect :
    (SharedState.run readThenConnect).Coherent ∧
      (SharedState.run readThenConnect).JudgesUncached := by
  refine coherent_of_undisturbed readThenConnect undisturbed_readThenConnect readThenConnect
    List.prefix_rfl ⟨rfl, fun reader => ?_⟩
  simp [SharedState.run, SharedState.step, SharedState.start, readThenConnect, empty]

/-- The same, with the reader held up before it puts its answer into the cache. -/
def insertAfterConnect : List SharedEvent :=
  [.lookup 0 (.llmq50_60, 1), .test 0, .begin, .write (.llmq50_60, 1) true, .erase, .commit,
    .insert 0]

/-- No operation is in progress, the commitment is mined, and the cache says that it is not.
The next block of the mining phase is rejected, which would pass without the cache. -/
theorem stale_after_insert :
    (SharedState.run insertAfterConnect).Quiescent ∧
      ¬ (SharedState.run insertAfterConnect).Coherent ∧
      ¬ (SharedState.run insertAfterConnect).JudgesUncached := by
  refine ⟨⟨rfl, fun reader => ?_⟩, fun h => ?_, fun h => ?_⟩
  · simp [SharedState.run, SharedState.step, SharedState.start, insertAfterConnect, empty]
  · have hstale := h (.llmq50_60, 1) false rfl
    cases hstale
  · have hsame := h testNetQuorumConsensus emptyView
      (run testNetQuorumConsensus ⟨1, by decide⟩ firstBlocks).chain { hash := 99 } false true
    have hrejected : (runs (processBlock testNetQuorumConsensus emptyView
        (run testNetQuorumConsensus ⟨1, by decide⟩ firstBlocks).chain { hash := 99 } false true)
        (SharedState.run insertAfterConnect).mined).1 = .error "bad-qc-missing" := by
      decide +kernel
    have hpasses : (runs (processBlock testNetQuorumConsensus emptyView
        (run testNetQuorumConsensus ⟨1, by decide⟩ firstBlocks).chain { hash := 99 } false true)
        ((SharedState.run insertAfterConnect).mined.forget fun _ => true)).1 = .ok () := by
      decide +kernel
    rw [hrejected, hpasses] at hsame
    cases hsame

end HootChain.Llmq.BlockProcessor

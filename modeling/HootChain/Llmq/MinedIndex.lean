import HootChain.Evo.EvoDb
import HootChain.Llmq.BlockProcessor
import HootChain.Llmq.MinedKeys

/-!
# The Index of Mined Commitments (`llmq/blockprocessor.cpp`)

When a commitment that is not null is mined, `ProcessCommitment` also writes the height of
the base block of its quorum into the database, under a key with the height at which it is
mined; `UndoBlock` erases the keys of a block. Other parts of the node keep their own keys in
the same database, and the table of the quorum parameters may change from block to block.
-/

namespace HootChain.Llmq.MinedIndex

open Foundation Primitives List Option Int
open Evo (CEvoDB)
open Serialize Llmq.BlockProcessor

/-! ## Parameters -/

/-- The parameters are those of a parameter set but for the sizes, which options of the node
change. -/
structure Follows (params set : LLMQParams) : Prop where
  type : params.type = set.type
  useRotation : params.useRotation = set.useRotation
  dkgInterval : params.dkgInterval = set.dkgInterval
  dkgMiningWindowStart : params.dkgMiningWindowStart = set.dkgMiningWindowStart
  dkgMiningWindowEnd : params.dkgMiningWindowEnd = set.dkgMiningWindowEnd
  signingActiveQuorumCount : params.signingActiveQuorumCount = set.signingActiveQuorumCount
  keepOldConnections : params.keepOldConnections = set.keepOldConnections
  minSize : 1 ≤ params.minSize

/-- Every entry of the table follows a parameter set of its type. -/
def Scheduled (llmqs : LlmqTable) : Prop :=
  ∀ llmqType params, llmqs llmqType = some params →
    ∃ set ∈ parameterSets, set.type = llmqType ∧ Follows params set

lemma follows_self : ∀ set ∈ parameterSets, Follows set set := by
  intro set hset
  refine ⟨rfl, rfl, rfl, rfl, rfl, rfl, rfl, ?_⟩
  revert set
  decide

lemma scheduled_of_ofSets {llmqs : LlmqTable} (h : llmqs.OfSets) : Scheduled llmqs :=
  fun llmqType params hparams =>
    ⟨params, (h llmqType params hparams).1, (h llmqType params hparams).2,
      follows_self params (h llmqType params hparams).1⟩

/-- What the checks of a block read, with a table of the node. -/
structure TableView extends QuorumView where
  scheduled : Scheduled llmqs

section

variable (c : QuorumConsensus) (s : IndexState)

/-- `GetAllQuorumMembers` has no members for a type that is not enabled, and none for a type
that rotates before it does. The caches of members keep no others. There is no block before
the genesis block to ask. -/
def TableView.onChain (chain : QChain) (view : TableView) : QuorumView :=
  { view.toQuorumView with
    membersSize := fun llmqType quorumHash =>
      match view.llmqs llmqType, lookupBlockIndex chain quorumHash with
      | some params, some base =>
        if base < 1 ∨ ¬ c.isQuorumTypeEnabled llmqType (base - 1) ∨
            (params.useRotation ∧ ¬ c.isQuorumRotationEnabled params base) then 0
        else view.membersSize llmqType quorumHash
      | _, _ => 0 }

/-! ## Writing and erasing -/

/-- The values of the database: heights, and those of other parts of the node. -/
inductive EvoValue where
  | height (nHeight : Int)
  | other

variable (llmqs : LlmqTable)

/-- What `ProcessCommitment` writes for a block on top of the chain. -/
def recordMined (chain : QChain) (evoDb : CEvoDB EvoValue)
    (qc : CFinalCommitment) : CEvoDB EvoValue :=
  if qc.isNull then evoDb
  else
    match llmqs qc.llmqType, lookupBlockIndex chain qc.quorumHash with
    | some params, some base =>
      let quorumIndex := if c.isQuorumRotationEnabled params base then some qc.quorumIndex else none
      evoDb.write (minedKey params.type quorumIndex chain.length).serialize (.height base)
    | _, _ => evoDb

/-- What `UndoBlock` erases for a block at a height. -/
def eraseMined (nHeight : Nat) (evoDb : CEvoDB EvoValue)
    (qc : CFinalCommitment) : CEvoDB EvoValue :=
  if qc.isNull then evoDb
  else
    match llmqs qc.llmqType with
    | some params =>
      let quorumIndex :=
        if c.isQuorumRotationEnabled params nHeight then some qc.quorumIndex else none
      evoDb.erase (minedKey qc.llmqType quorumIndex nHeight).serialize
    | none => evoDb

/-! ## Runs -/

/-- The processor and the database. -/
structure IndexState where
  proc : ProcState
  evoDb : CEvoDB EvoValue

/-- A node with the genesis block only. -/
def IndexState.start (genesis : NonNullHash) : IndexState :=
  { proc := .start genesis, evoDb := {} }

/-- What happens to the index. -/
inductive IndexEvent where
  | connect (view : TableView) (block : QBlock) (fBLSChecks laterChecks : Bool)
  | justCheck (view : TableView) (block : QBlock) (fBLSChecks : Bool)
  | disconnect (view : TableView)
  | query (key : MinedKey)
  | evict (drop : MinedKey → Bool)
  /-- Other parts of the node write and erase their keys. -/
  | others (changes : List (ByteStream × Option EvoValue))
  /-- `CommitRootTransaction`. -/
  | flush
  | restart

/-- The block is being connected: some of its commitments are processed. -/
def connecting (qcs : List CFinalCommitment) : CEvoDB EvoValue :=
  qcs.foldl (recordMined c llmqs s.proc.chain) s.evoDb

/-- The last block is being disconnected: some of its commitments are undone. -/
def disconnecting (qcs : List CFinalCommitment) : CEvoDB EvoValue :=
  qcs.foldl (eraseMined c llmqs (s.proc.chain.length - 1)) s.evoDb

/-- One change of another part of the node. -/
def changeOther (evoDb : CEvoDB EvoValue) (change : ByteStream × Option EvoValue) :
    CEvoDB EvoValue :=
  if Foreign change.1 then
    match change.2 with
    | some value => evoDb.write change.1 value
    | none => evoDb.erase change.1
  else evoDb

/-- The commitments of the last block. -/
def lastCommitments (chain : QChain) : List CFinalCommitment :=
  (chain.getLast?).elim [] fun block => inMapOrder block.commitments

/-- One event. The changes of a block are committed together or not at all; heights are
`int`s. -/
def IndexState.step : IndexEvent → IndexState
  | .connect view block fBLSChecks laterChecks =>
    if 2 ^ 31 ≤ s.proc.chain.length then s
    else
      let proc := s.proc.step c
        (.connect (view.onChain c s.proc.chain) block fBLSChecks laterChecks)
      let evoDb := connecting c s view.llmqs (inMapOrder block.commitments)
      if s.proc.chain.length < proc.chain.length then ⟨proc, evoDb.commitCurTransaction⟩
      else ⟨proc, evoDb.rollbackCurTransaction⟩
  | .justCheck view block fBLSChecks =>
    { s with proc := s.proc.step c (.justCheck (view.onChain c s.proc.chain) block fBLSChecks) }
  | .disconnect view =>
    let proc := s.proc.step c (.disconnect view.toQuorumView)
    let evoDb := disconnecting c s view.llmqs (lastCommitments s.proc.chain)
    if proc.chain.length < s.proc.chain.length then ⟨proc, evoDb.commitCurTransaction⟩
    else ⟨proc, evoDb.rollbackCurTransaction⟩
  | .query key => { s with proc := s.proc.step c (.query key) }
  | .evict drop => { s with proc := s.proc.step c (.evict drop) }
  | .others changes => { s with evoDb := (changes.foldl changeOther s.evoDb).commitCurTransaction }
  | .flush => { s with evoDb := s.evoDb.commitRootTransaction }
  | .restart => ⟨s.proc.step c .restart, s.evoDb.commitRootTransaction⟩

/-- A run of the node from its genesis block. -/
def run (genesis : NonNullHash) (events : List IndexEvent) : IndexState :=
  events.foldl (IndexState.step c) (.start genesis)

/-- A moment between two events, or in the middle of one: of the commitments of the block
some are done. -/
inductive Moment where
  | between
  | connecting (view : TableView) (block : QBlock) (done : Nat)
  | disconnecting (view : TableView) (done : Nat)

/-- The database at a moment. -/
def IndexState.evoDbAt : Moment → CEvoDB EvoValue
  | .between => s.evoDb
  | .connecting view block done =>
    MinedIndex.connecting c s view.llmqs ((inMapOrder block.commitments).take done)
  | .disconnecting view done =>
    MinedIndex.disconnecting c s view.llmqs ((lastCommitments s.proc.chain).take done)

end

/-- The number of blocks that are connected and stay so at the moment. -/
def IndexState.settled (s : IndexState) : Moment → Nat
  | .disconnecting .. => s.proc.chain.length - 1
  | _ => s.proc.chain.length

/-! ## What is mined -/

/-- A commitment that is not null, and the height of the block that has it. -/
structure MinedAt where
  nMinedHeight : Nat
  qc : CFinalCommitment
  deriving DecidableEq

open MinedAt

/-- The commitments of a block at a height that are not null. -/
def minedIn (nMinedHeight : Nat) (block : QBlock) : List MinedAt :=
  ((inMapOrder block.commitments).filter fun qc => !qc.isNull).map (⟨nMinedHeight, ·⟩)

/-- The commitments mined on a chain, the oldest first. -/
def allMined (chain : QChain) : List MinedAt := chain.zipIdx.flatMap fun e => minedIn e.2 e.1

/-! ## Parameter sets -/

/-- Whether the parameter sets of a type rotate. -/
def LLMQType.rotates : LLMQType → Bool
  | .llmq60_75 | .testDip0024 | .devnetDip0024 => true
  | _ => false

lemma useRotation_eq_rotates : ∀ set ∈ parameterSets,
    set.useRotation = LLMQType.rotates set.type := by
  decide

lemma dkgInterval_eq_of_rotates : ∀ set ∈ parameterSets, ∀ set' ∈ parameterSets,
    set.type = set'.type → LLMQType.rotates set.type = true → set.dkgInterval = set'.dkgInterval := by
  decide

lemma parameterSets_windows : ∀ set ∈ parameterSets, 0 < set.dkgInterval ∧
    1 ≤ set.dkgMiningWindowStart ∧ set.dkgMiningWindowEnd < set.dkgInterval ∧
      set.dkgMiningWindowEnd < 256 ∧ set.signingActiveQuorumCount < 256 := by
  decide

section Checks

variable {c : QuorumConsensus} {chain : QChain} {qc : CFinalCommitment} {params set : LLMQParams}

lemma Follows.isQuorumRotationEnabled (h : Follows params set) (nHeight : Int) :
    c.isQuorumRotationEnabled params nHeight = c.isQuorumRotationEnabled set nHeight := by
  simp [QuorumConsensus.isQuorumRotationEnabled, h.useRotation, h.dkgInterval]

lemma Follows.isMiningPhase (h : Follows params set) (nHeight : Int) :
    BlockProcessor.isMiningPhase params nHeight = BlockProcessor.isMiningPhase set nHeight := by
  simp [BlockProcessor.isMiningPhase, h.dkgInterval, h.dkgMiningWindowStart, h.dkgMiningWindowEnd]

/-! ## Commitments that pass -/

/-- What `ProcessCommitment` has checked of a commitment that is not null. -/
structure Checked (c : QuorumConsensus) (view : QuorumView) (chain : QChain) (fBLSChecks : Bool)
    (qc : CFinalCommitment) (params : LLMQParams) (base : Int) : Prop where
  params_eq : view.llmqs qc.llmqType = some params
  hash_ne : qc.quorumHash ≠ 0
  hash_eq : getQuorumBlockHash chain params chain.length qc.quorumIndex = qc.quorumHash
  mining : BlockProcessor.isMiningPhase params chain.length = true
  base_eq : lookupBlockIndex chain qc.quorumHash = some base
  verified : qc.verify c view qc.quorumHash base fBLSChecks = true

variable {view : QuorumView} {fJustCheck fBLSChecks checkSigs : Bool} {m m' : Mined}
  {qcs : List CFinalCommitment} {baseHash hash : Uint256} {base : Int} {llmqs : LlmqTable}
  {evoDb : CEvoDB EvoValue}

lemma checked_of_ok (hnull : qc.isNull = false)
    (h : runs (processCommitment c view chain chain.length fJustCheck fBLSChecks qc) m =
      (.ok (), m')) :
    ∃ params base, Checked c view chain fBLSChecks qc params base := by
  unfold processCommitment at h
  split at h
  case h_1 => cases h
  case h_2 params hparams =>
    dsimp only at h
    split at h
    case isTrue => cases h
    case isFalse hzero =>
    split at h
    case isTrue => cases h
    case isFalse hhash =>
    have hhash := not_not.mp hhash
    rw [if_neg (by simp [hnull])] at h
    obtain ⟨isMined, m₁, -, h⟩ := runs_bind_eq_ok.mp h
    split at h
    case isTrue => cases h
    split at h
    case isTrue => cases h
    case isFalse hphase =>
    split at h
    case isTrue => cases h
    case isFalse hverify =>
    obtain ⟨base, hbase, hverified⟩ := (any_eq_true _ _).mp (not_not.mp hverify)
    exact ⟨params, base, hparams, hhash ▸ hzero, hhash, not_not.mp hphase, hbase, hverified⟩

lemma checked_of_forM
    (h : runs (qcs.forM (processCommitment c view chain chain.length fJustCheck fBLSChecks)) m =
      (.ok (), m')) :
    ∀ qc ∈ qcs, qc.isNull = false →
      ∃ params base, Checked c view chain fBLSChecks qc params base := by
  induction qcs generalizing m with
  | nil => exact nofun
  | cons qc qcs ih =>
    obtain ⟨m₁, hfirst, hrest⟩ := runs_forM_cons_eq_ok.mp h
    exact forall_mem_cons.mpr ⟨fun hnull => checked_of_ok hnull hfirst, ih hrest⟩

/-- The commitments of a block that passes have passed, and were collected. -/
lemma processed_of_ok {block : QBlock} (hdip : c.dip0003Height ≤ chain.length)
    (h : runs (processBlock c view chain block fJustCheck fBLSChecks) m = (.ok (), m')) :
    getCommitmentsFromBlock c view.llmqs chain.length block = .ok block.commitments ∧
      ∀ qc ∈ inMapOrder block.commitments, qc.isNull = false →
        ∃ params base, Checked c view chain fBLSChecks qc params base := by
  simp only [processBlock, if_neg (not_lt.mpr hdip)] at h
  obtain ⟨qcs, m₁, hqcs, h⟩ := runs_bind_eq_ok.mp h
  obtain ⟨-, m₂, -, h⟩ := runs_bind_eq_ok.mp h
  have hqcs := congrArg Prod.fst hqcs
  obtain rfl := getCommitmentsFromBlock_eq_ok hqcs
  exact ⟨hqcs, checked_of_forM h⟩

/-! ## Commitments of a cycle -/

/-- The commitment of a block on top of the chain is for a quorum of the cycle, in its mining
phase. -/
structure Placed (c : QuorumConsensus) (chain : QChain) (qc : CFinalCommitment)
    (set : LLMQParams) (base : Nat) : Prop where
  set_mem : set ∈ parameterSets
  set_type : set.type = qc.llmqType
  onChain : chain[base]?.map QBlock.hash = some qc.quorumHash
  base_pos : 1 ≤ base
  base_eq : (base : Int) = chain.length - (chain.length : Int).tmod set.dkgInterval + qc.quorumIndex
  index_eq : (base : Int).tmod set.dkgInterval = qc.quorumIndex
  mining : BlockProcessor.isMiningPhase set chain.length = true
  rotation : set.useRotation = true → c.isQuorumRotationEnabled set base = true

lemma membersSize_ne_zero_of_verify (hparams : view.llmqs qc.llmqType = some params)
    (hmin : 1 ≤ params.minSize) (h : qc.verify c view baseHash base checkSigs = true) :
    view.membersSize qc.llmqType baseHash ≠ 0 := by
  intro hzero
  simp only [CFinalCommitment.verify, hparams, hzero, drop_zero, Bool.and_eq_true,
    decide_eq_true_eq, and_assoc] at h
  obtain ⟨-, -, -, -, hvalid, -, -, -, -, -, hbits, -⟩ := h
  have hcount : qc.countValidMembers = 0 := by
    rw [CFinalCommitment.countValidMembers, count_eq_zero.mpr]
    · rfl
    · intro hmem
      have hfalse := all_eq_true.mp hbits true hmem
      simp at hfalse
  omega

lemma index_of_verify (hparams : view.llmqs qc.llmqType = some params)
    (h : qc.verify c view baseHash base checkSigs = true) :
    base.tmod params.dkgInterval = qc.quorumIndex := by
  simp only [CFinalCommitment.verify, hparams, Bool.and_eq_true, decide_eq_true_eq, and_assoc] at h
  obtain ⟨-, -, hindex, -⟩ := h
  exact hindex

lemma exists_of_lookupBlockIndex (h : lookupBlockIndex chain hash = some base) :
    ∃ n : Nat, base = n ∧ chain[n]?.map QBlock.hash = some hash := by
  obtain ⟨n, hn, rfl⟩ := map_eq_some_iff.mp h
  obtain ⟨hlt, hhash, -⟩ := findIdx?_eq_some_iff_getElem.mp hn
  refine ⟨n, rfl, ?_⟩
  rw [getElem?_eq_getElem hlt]
  exact congrArg some (of_decide_eq_true hhash)

lemma eq_of_hash {n n' : Nat} (hnodup : (chain.map QBlock.hash).Nodup)
    (h : chain[n]?.map QBlock.hash = some hash) (h' : chain[n']?.map QBlock.hash = some hash) :
    n = n' := by
  rw [← getElem?_map] at h h'
  obtain ⟨hlt, -⟩ := List.getElem?_eq_some_iff.mp h
  exact (getElem?_inj hlt hnodup).mp (h.trans h'.symm)

/-- A commitment that passes is for a quorum of the cycle, in its mining phase. -/
lemma placed_of_checked {view : TableView} (hnodup : (chain.map QBlock.hash).Nodup)
    (h : Checked c (view.onChain c chain) chain fBLSChecks qc params base) :
    ∃ set n, Placed c chain qc set n ∧ base = n := by
  have hparams : view.llmqs qc.llmqType = some params := h.params_eq
  obtain ⟨set, hset, htype, hfollows⟩ := view.scheduled _ _ hparams
  obtain ⟨n, rfl, honChain⟩ := exists_of_lookupBlockIndex h.base_eq
  -- the quorum has members
  have hmembers := membersSize_ne_zero_of_verify h.params_eq hfollows.minSize h.verified
  simp only [TableView.onChain, hparams, h.base_eq] at hmembers
  split at hmembers
  case isTrue => exact absurd rfl hmembers
  case isFalse hguard =>
  rw [not_or, not_or, not_and, not_not, not_not] at hguard
  obtain ⟨hpos, -, hrotation⟩ := hguard
  -- the base block is the one at the height of the index
  have hindex := index_of_verify h.params_eq h.verified
  rw [hfollows.dkgInterval] at hindex
  have hindex_nonneg : 0 ≤ qc.quorumIndex := hindex ▸ tmod_nonneg _ (by omega)
  have hcycle := tmod_le chain.length set.dkgInterval
  refine ⟨set, n, ⟨hset, htype, honChain, by omega, ?_, hindex, ?_, ?_⟩, rfl⟩
  · have hhash := h.hash_eq
    rw [getQuorumBlockHash, hfollows.dkgInterval] at hhash
    generalize hbase : (chain.length : Int) - (chain.length : Int).tmod set.dkgInterval +
      qc.quorumIndex = b at hhash ⊢
    obtain ⟨b, rfl⟩ := eq_ofNat_of_zero_le (by omega : 0 ≤ b)
    have hb : chain[b]?.map QBlock.hash = some qc.quorumHash := by
      cases hblock : getBlockHash chain b with
      | none =>
        rw [hblock] at hhash
        exact absurd hhash.symm h.hash_ne
      | some hash =>
        rw [hblock] at hhash
        rw [getBlockHash] at hblock
        split at hblock
        · cases hblock
        · rw [← hhash]
          exact hblock
    rw [eq_of_hash hnodup honChain hb]
  · rw [← hfollows.isMiningPhase]
    exact h.mining
  · intro hset
    rw [← hfollows.isQuorumRotationEnabled]
    exact hrotation (hfollows.useRotation.trans hset)

namespace Placed

variable {base : Nat} (h : Placed c chain qc set base)

include h

lemma base_lt : base < chain.length := by
  obtain ⟨block, hblock, -⟩ := map_eq_some_iff.mp h.onChain
  exact (List.getElem?_eq_some_iff.mp hblock).1

lemma index_bounds : 0 ≤ qc.quorumIndex ∧ qc.quorumIndex < 256 := by
  obtain ⟨hinterval, -, -, hwindow, -⟩ := parameterSets_windows set h.set_mem
  have hmining := h.mining
  have hlt := h.base_lt
  have hbase := h.base_eq
  simp only [BlockProcessor.isMiningPhase, Bool.and_eq_true, decide_eq_true_eq] at hmining
  refine ⟨h.index_eq ▸ tmod_nonneg _ (by omega), ?_⟩
  omega

lemma lookup (hnodup : (chain.map QBlock.hash).Nodup) :
    lookupBlockIndex chain qc.quorumHash = some (base : Int) := by
  cases hlookup : lookupBlockIndex chain qc.quorumHash with
  | none =>
    obtain ⟨block, hblock, hhash⟩ := map_eq_some_iff.mp h.onChain
    rw [lookupBlockIndex, map_eq_none_iff, findIdx?_eq_none_iff] at hlookup
    have hne := hlookup block (mem_of_getElem? hblock)
    simp [hhash] at hne
  | some n =>
    obtain ⟨n, rfl, hn⟩ := exists_of_lookupBlockIndex hlookup
    rw [eq_of_hash hnodup hn h.onChain]

lemma cycle_eq :
    (base : Int) - (base : Int).tmod set.dkgInterval =
      chain.length - (chain.length : Int).tmod set.dkgInterval := by
  have hbase := h.base_eq
  have hindex := h.index_eq
  omega

/-- Whether the key has an index depends on the type only. -/
lemma isQuorumRotationEnabled {llmqs : LlmqTable}
    (hscheduled : Scheduled llmqs) (hparams : llmqs qc.llmqType = some params) :
    c.isQuorumRotationEnabled params base = LLMQType.rotates qc.llmqType ∧
      c.isQuorumRotationEnabled params chain.length = LLMQType.rotates qc.llmqType := by
  obtain ⟨set', hset', htype', hfollows⟩ := hscheduled _ _ hparams
  rw [hfollows.isQuorumRotationEnabled, hfollows.isQuorumRotationEnabled]
  have hrotates := useRotation_eq_rotates set' hset'
  rw [htype'] at hrotates
  cases htype : LLMQType.rotates qc.llmqType with
  | false => simp [QuorumConsensus.isQuorumRotationEnabled, hrotates, htype]
  | true =>
    -- the parameters agree with those that the commitment was checked with
    have huses := useRotation_eq_rotates set h.set_mem
    rw [h.set_type, htype] at huses
    have hinterval := dkgInterval_eq_of_rotates set h.set_mem set' hset'
      (h.set_type.trans htype'.symm) (h.set_type ▸ htype)
    have henabled := h.rotation huses
    have hcycle := h.cycle_eq
    simp only [QuorumConsensus.isQuorumRotationEnabled, ← hinterval, hrotates, huses, htype,
      ← hcycle] at henabled ⊢
    exact ⟨henabled, henabled⟩

end Placed

/-! ## Entries of the index -/

/-- The bytes of the key of a mined commitment. -/
def MinedAt.key (m : MinedAt) : ByteStream :=
  (minedKey m.qc.llmqType (if LLMQType.rotates m.qc.llmqType then some m.qc.quorumIndex else none)
    m.nMinedHeight).serialize

/-- The entry of a mined commitment. -/
def entryOf (chain : QChain) (m : MinedAt) : ByteStream × EvoValue :=
  (m.key, .height ((lookupBlockIndex chain m.qc.quorumHash).getD 0))

lemma Placed.fitsInt {base : Nat} (h : Placed c chain qc set base) :
    FitsInt (if LLMQType.rotates qc.llmqType then some qc.quorumIndex else none) := by
  obtain ⟨hlo, hhi⟩ := h.index_bounds
  intro index hindex
  split at hindex
  · cases hindex
    omega
  · cases hindex

variable (hscheduled : Scheduled llmqs)

include hscheduled

lemma recordMined_of_placed {base : Nat}
    (hnodup : (chain.map QBlock.hash).Nodup) (hnull : qc.isNull = false)
    (hparams : llmqs qc.llmqType = some params) (h : Placed c chain qc set base) :
    recordMined c llmqs chain evoDb qc =
      evoDb.write (entryOf chain ⟨chain.length, qc⟩).1 (entryOf chain ⟨chain.length, qc⟩).2 := by
  have htype : params.type = qc.llmqType := by
    obtain ⟨set', -, htype', hfollows⟩ := hscheduled _ _ hparams
    exact hfollows.type.trans htype'
  have hlookup := h.lookup hnodup
  simp [recordMined, hnull, hparams, hlookup, htype,
      (h.isQuorumRotationEnabled hscheduled hparams).1, entryOf, key]

lemma eraseMined_of_placed {base : Nat}
    (hnull : qc.isNull = false) (hparams : llmqs qc.llmqType = some params)
    (h : Placed c chain qc set base) :
    eraseMined c llmqs chain.length evoDb qc = evoDb.erase (key ⟨chain.length, qc⟩) := by
  simp [eraseMined, hnull, hparams, (h.isQuorumRotationEnabled hscheduled hparams).2, key]

omit hscheduled in
/-- A pass over commitments that does nothing for a null one and `g` for an entry of any other
one, as it is read. -/
lemma read_foldl_mined {β : Type} (entry : MinedAt → β)
    {f : CEvoDB EvoValue → CFinalCommitment → CEvoDB EvoValue}
    {g : (ByteStream → Option EvoValue) → β → ByteStream → Option EvoValue}
    (hskip : ∀ evoDb qc, qc.isNull = true → f evoDb qc = evoDb)
    (hstep : ∀ qc ∈ qcs, qc.isNull = false → ∀ evoDb,
      (f evoDb qc).read = g evoDb.read (entry ⟨chain.length, qc⟩)) (evoDb : CEvoDB EvoValue) :
    (qcs.foldl f evoDb).read = (((qcs.filter fun qc => !qc.isNull).map (mk chain.length ·)).map
      entry).foldl g evoDb.read := by
  induction qcs generalizing evoDb with
  | nil => rfl
  | cons qc qcs ih =>
    obtain ⟨hfirst, hrest⟩ := forall_mem_cons.mp hstep
    rw [foldl_cons, ih hrest]
    cases hnull : qc.isNull with
    | true => simp [hskip, hnull]
    | false => simp [hnull, hfirst]

variable (h : ∀ qc ∈ qcs, qc.isNull = false → (∃ params, llmqs qc.llmqType = some params) ∧
  ∃ set base, Placed c chain qc set base) (evoDb : CEvoDB EvoValue)

include h

/-- What processing commitments does to the index. -/
lemma read_foldl_recordMined (hnodup : (chain.map QBlock.hash).Nodup) :
    (qcs.foldl (recordMined c llmqs chain) evoDb).read =
      writeAll (((qcs.filter fun qc => !qc.isNull).map (mk chain.length ·)).map
        (entryOf chain)) evoDb.read := by
  refine read_foldl_mined (f := recordMined c llmqs chain) _ (fun _ _ hnull => if_pos hnull)
    (fun qc hqc hnull evoDb => ?_) _
  obtain ⟨⟨params, hparams⟩, set, base, hplaced⟩ := h qc hqc hnull
  rw [recordMined_of_placed hscheduled hnodup hnull hparams hplaced, CEvoDB.read_write]

/-- What undoing them does to it. -/
lemma read_foldl_eraseMined : (qcs.foldl (eraseMined c llmqs chain.length) evoDb).read =
    eraseAll (((qcs.filter fun qc => !qc.isNull).map (mk chain.length ·)).map key) evoDb.read := by
  refine read_foldl_mined (f := eraseMined c llmqs chain.length) _ (fun _ _ hnull => if_pos hnull)
    (fun qc hqc hnull evoDb => ?_) _
  obtain ⟨⟨params, hparams⟩, set, base, hplaced⟩ := h qc hqc hnull
  rw [eraseMined_of_placed hscheduled hnull hparams hplaced, CEvoDB.read_erase]

end Checks

end HootChain.Llmq.MinedIndex

import HootChain.Llmq.MinedQueries

/-!
# When the Queries for Mined Commitments Are Right (`llmq/blockprocessor.cpp`)

The queries are meant to answer with the base blocks of exactly the commitments that are
mined up to a block, the newest first, whatever is connected above the block. For a type
that rotates they do so only if every commitment has an index that the current table still
has, and if the rows in which the answer is put together are in the order of the heights.
-/

namespace HootChain.Llmq.MinedIndex

open Foundation Primitives List Option Nat CachedSet
open Evo (CEvoDB)
open Serialize Llmq.BlockProcessor

/-! ## Right answers -/

/-- The answers up to a height are the base blocks of exactly the commitments that are mined
up to it, the newest first. -/
structure Exact (evoDb : CEvoDB EvoValue) (chain : QChain) (params : LLMQParams) (nHeight : Nat) :
    Prop where
  untilBlock : params.useRotation = false → ∀ maxCount,
    getMinedCommitmentsUntilBlock evoDb chain params.type nHeight maxCount =
      some (((newestFirst chain params.type nHeight).map fun m => m.qc.quorumHash).take maxCount)
  byIndex : params.useRotation = true → ∀ index : Nat, index < params.signingActiveQuorumCount →
    ∀ cycle, getLastMinedCommitmentsByQuorumIndexUntilBlock evoDb chain params.type nHeight index
      cycle = some (((withIndex chain params.type nHeight index).map
        fun m => m.qc.quorumHash)[cycle]?)
  perIndex : params.useRotation = true → ∀ cycle, ∃ ret,
    getLastMinedCommitmentsPerQuorumIndexUntilBlock evoDb chain params nHeight cycle = some ret ∧
      ∀ (index : Nat) quorumHash, (index, quorumHash) ∈ ret ↔
        ((withIndex chain params.type nHeight index).map fun m => m.qc.quorumHash)[cycle]? =
          some quorumHash
  indexed : params.useRotation = true → ∃ all : List MinedAt,
    all.Perm (newestFirst chain params.type nHeight) ∧
    (all.Pairwise fun m m' => m'.nMinedHeight ≤ m.nMinedHeight) ∧
    ∀ maxCount, getMinedCommitmentsIndexedUntilBlock evoDb chain params nHeight maxCount =
      some ((all.map fun m => m.qc.quorumHash).take maxCount)

/-- The answers of two states are the same. -/
structure SameAnswers (evoDb evoDb' : CEvoDB EvoValue) (chain chain' : QChain)
    (params params' : LLMQParams) (nHeight : Nat) : Prop where
  untilBlock : params.useRotation = false → ∀ maxCount,
    getMinedCommitmentsUntilBlock evoDb' chain' params'.type nHeight maxCount =
      getMinedCommitmentsUntilBlock evoDb chain params.type nHeight maxCount
  perIndex : params.useRotation = true → ∀ cycle,
    getLastMinedCommitmentsPerQuorumIndexUntilBlock evoDb' chain' params' nHeight cycle =
      getLastMinedCommitmentsPerQuorumIndexUntilBlock evoDb chain params nHeight cycle
  indexed : params.useRotation = true → ∀ maxCount,
    getMinedCommitmentsIndexedUntilBlock evoDb' chain' params' nHeight maxCount =
      getMinedCommitmentsIndexedUntilBlock evoDb chain params nHeight maxCount

/-- Every commitment has one of the indexes. -/
def InRows (chain : QChain) (llmqType : LLMQType) (nHeight count : Nat) : Prop :=
  ∀ m ∈ newestFirst chain llmqType nHeight, m.qc.quorumIndex < count

/-- Of two commitments that are equally far back among those of their indexes the one with
the larger index is not mined later, and a commitment that is farther back is not either. -/
def RowsDescend (chain : QChain) (llmqType : LLMQType) (nHeight : Nat) : Prop :=
  ∀ (i j c d : Nat) (m m' : MinedAt), (withIndex chain llmqType nHeight i)[c]? = some m →
    (withIndex chain llmqType nHeight j)[d]? = some m' → (c < d ∨ c = d ∧ i < j) →
      m'.nMinedHeight ≤ m.nMinedHeight

section Rows

variable {c : QuorumConsensus} {s : IndexState} {chain : QChain} {llmqType : LLMQType}
  {nHeight count : Nat} {m m' : MinedAt}

lemma mem_withIndex {index : Int} :
    m ∈ withIndex chain llmqType nHeight index ↔
      m ∈ newestFirst chain llmqType nHeight ∧ m.qc.quorumIndex = index := by
  rw [withIndex, mem_filter, decide_eq_true_eq]

lemma map_record_allMined (chain : QChain) :
    (allMined chain).map (fun m => (m.qc.llmqType, m.qc.quorumHash)) = minedOn chain := by
  induction chain using reverseRecOn with
  | nil => rfl
  | append_singleton chain block ih =>
    rw [allMined_append, minedOn_append, map_append, ih, map_record_minedIn]

/-- A commitment is known by its base block. -/
lemma Indexed.eq_of_quorumHash (h : Indexed c s)
    (hm : m ∈ newestFirst s.proc.chain llmqType nHeight)
    (hm' : m' ∈ newestFirst s.proc.chain llmqType nHeight)
    (hhash : m.qc.quorumHash = m'.qc.quorumHash) : m = m' := by
  have hnodup := h.consistent.nodup
  rw [← map_record_allMined] at hnodup
  obtain ⟨hmined, -, htype⟩ := mem_newestFirst.mp hm
  obtain ⟨hmined', -, htype'⟩ := mem_newestFirst.mp hm'
  exact inj_on_of_nodup_map hnodup hmined hmined' (Prod.ext (htype.trans htype'.symm) hhash)

lemma Indexed.nodup_newestFirst (h : Indexed c s) :
    (newestFirst s.proc.chain llmqType nHeight).Nodup := by
  have hnodup := h.keys.of_map.sublist (allMined_take_sublist s.proc.chain (nHeight + 1))
  exact nodup_reverse.mpr (hnodup.filter _)

lemma Indexed.index_nonneg (h : Indexed c s) (hm : m ∈ newestFirst s.proc.chain llmqType nHeight) :
    0 ≤ m.qc.quorumIndex := by
  obtain ⟨set, base, hplaced⟩ := h.placed m (mem_newestFirst.mp hm).1
  exact hplaced.index_bounds.1

lemma mem_rows :
    m ∈ rowMajor count (fun i => withIndex chain llmqType nHeight i) →
      m ∈ newestFirst chain llmqType nHeight := by
  intro hm
  obtain ⟨i, -, hm⟩ := mem_rowMajor.mp hm
  exact (mem_withIndex.mp hm).1

/-- The rows have all commitments exactly if they all have one of the indexes. -/
lemma Indexed.rows_perm_iff (h : Indexed c s) :
    (rowMajor count fun i => withIndex s.proc.chain llmqType nHeight i).Perm
        (newestFirst s.proc.chain llmqType nHeight) ↔
      InRows s.proc.chain llmqType nHeight count := by
  constructor
  · intro hperm m hm
    obtain ⟨i, hi, hm⟩ := mem_rowMajor.mp (hperm.mem_iff.mpr hm)
    rw [(mem_withIndex.mp hm).2]
    exact_mod_cast hi
  · intro hrows
    refine rowMajor_perm.trans ((perm_ext_iff_of_nodup ?_ h.nodup_newestFirst).mpr fun m => ?_)
    · refine nodup_flatMap.mpr ⟨fun i _ => h.nodup_newestFirst.filter _, ?_⟩
      refine nodup_range.imp fun {i j} hne => ?_
      intro m hm hm'
      have hi := (mem_withIndex.mp hm).2
      have hj := (mem_withIndex.mp hm').2
      exact hne (by exact_mod_cast hi.symm.trans hj)
    · rw [mem_flatMap]
      constructor
      · rintro ⟨i, -, hm⟩
        exact (mem_withIndex.mp hm).1
      · intro hm
        have hlt := hrows m hm
        have hpos := h.index_nonneg hm
        refine ⟨m.qc.quorumIndex.toNat, mem_range.mpr (by omega), mem_withIndex.mpr ⟨hm, ?_⟩⟩
        omega

lemma withIndex_eq_nil (hrows : InRows chain llmqType nHeight count) {i : Nat} (hi : count ≤ i) :
    withIndex chain llmqType nHeight i = [] := by
  refine filter_eq_nil_iff.mpr fun m hm => ?_
  have hlt := hrows m hm
  simp only [decide_eq_true_eq]
  omega

/-- The rows are the newest first exactly if they descend. -/
lemma rows_pairwise_iff (hrows : InRows chain llmqType nHeight count) :
    ((rowMajor count fun i => withIndex chain llmqType nHeight i).Pairwise
        fun m m' => m'.nMinedHeight ≤ m.nMinedHeight) ↔ RowsDescend chain llmqType nHeight := by
  rw [pairwise_rowMajor_iff]
  constructor
  · intro h i j c d m m' hm hm' hlt
    have hindex : ∀ {k e : Nat} {x : MinedAt}, (withIndex chain llmqType nHeight k)[e]? = some x →
        k < count := by
      intro k e x hx
      by_contra hk
      rw [withIndex_eq_nil hrows (not_lt.mp hk)] at hx
      cases hx
    exact h i (hindex hm) j (hindex hm') c d m m' hm hm' hlt
  · intro h i _ j _ c d m m' hm hm' hlt
    exact h i j c d m m' hm hm' hlt

end Rows

lemma eq_of_take_eq {l l' : List Uint256} (h : ∀ n, l.take n = l'.take n) : l = l' := by
  have hmax := h (max l.length l'.length)
  rwa [take_of_length_le (le_max_left _ _), take_of_length_le (le_max_right _ _)] at hmax

/-! ## One state -/

section Answers

variable {c : QuorumConsensus} {s : IndexState} {evoDb : CEvoDB EvoValue} {nHeight : Nat}
  {params set : LLMQParams}

lemma Follows.rotates (hset : set ∈ parameterSets) (h : Follows params set) :
    params.useRotation = LLMQType.rotates params.type := by
  rw [h.useRotation, useRotation_eq_rotates set hset, h.type]

lemma Follows.count_lt (hset : set ∈ parameterSets) (h : Follows params set) :
    params.signingActiveQuorumCount < 256 := by
  rw [h.signingActiveQuorumCount]
  exact (parameterSets_windows set hset).2.2.2.2

variable (h : Indexed c s) (hagrees : Agrees evoDb.read s.proc.chain nHeight)
  (hheight : nHeight < s.proc.chain.length) (hset : set ∈ parameterSets)
  (hfollows : Follows params set)

include h hagrees hheight hset hfollows

lemma exact_of_rows (hrows : params.useRotation = true →
      InRows s.proc.chain params.type nHeight params.signingActiveQuorumCount ∧
        RowsDescend s.proc.chain params.type nHeight) :
    Exact evoDb s.proc.chain params nHeight := by
  have hrotates := hfollows.rotates hset
  have hcount := hfollows.count_lt hset
  refine ⟨fun huses => ?_, fun huses index hindex => ?_, fun huses cycle => ?_, fun huses => ?_⟩
  · exact getMinedCommitmentsUntilBlock_eq h hagrees hheight (hrotates ▸ huses)
  · exact getLastMinedCommitmentsByQuorumIndexUntilBlock_eq h hagrees hheight (hrotates ▸ huses)
      (by omega) (by omega)
  · refine ⟨_, getLastMinedCommitmentsPerQuorumIndexUntilBlock_eq h hagrees hheight
      (hrotates ▸ huses) hcount cycle, fun index quorumHash => ?_⟩
    rw [mem_filterMap]
    constructor
    · rintro ⟨i, -, hi⟩
      obtain ⟨hash, hhash, heq⟩ := map_eq_some_iff.mp hi
      cases heq
      exact hhash
    · intro hhash
      refine ⟨index, mem_range.mpr ?_, by rw [hhash]; rfl⟩
      -- there is a commitment with the index, so it is one of the rows
      by_contra hindex
      rw [withIndex_eq_nil (hrows huses).1 (not_lt.mp hindex)] at hhash
      cases hhash
  · obtain ⟨hin, hdescend⟩ := hrows huses
    exact ⟨_, h.rows_perm_iff.mpr hin, (rows_pairwise_iff hin).mpr hdescend,
      getMinedCommitmentsIndexedUntilBlock_eq h hagrees hheight (hrotates ▸ huses) hcount⟩

lemma rows_of_exact (hexact : Exact evoDb s.proc.chain params nHeight)
    (huses : params.useRotation = true) :
    InRows s.proc.chain params.type nHeight params.signingActiveQuorumCount ∧
      RowsDescend s.proc.chain params.type nHeight := by
  have hrotates := hfollows.rotates hset
  obtain ⟨all, hperm, hdescend, hanswer⟩ := hexact.indexed huses
  -- the answer determines the commitments
  have hall : all = rowMajor params.signingActiveQuorumCount fun i =>
      withIndex s.proc.chain params.type nHeight i := by
    refine eq_of_map_eq (fun m hm m' hm' hhash =>
      h.eq_of_quorumHash (hperm.mem_iff.mp hm) (mem_rows hm') hhash)
      (eq_of_take_eq fun maxCount => ?_)
    refine some.inj ((hanswer maxCount).symm.trans ?_)
    exact getMinedCommitmentsIndexedUntilBlock_eq h hagrees hheight (hrotates ▸ huses)
      (hfollows.count_lt hset) maxCount
  rw [hall] at hperm hdescend
  have hin := h.rows_perm_iff.mp hperm
  exact ⟨hin, (rows_pairwise_iff hin).mp hdescend⟩

end Answers

/-! ## Two states that share the blocks -/

section Stable

variable {c : QuorumConsensus} {s s' : IndexState} {evoDb evoDb' : CEvoDB EvoValue} {nHeight : Nat}
  {params params' set set' : LLMQParams} {chain chain' : QChain}

lemma newestFirst_congr (hblocks : chain.take (nHeight + 1) = chain'.take (nHeight + 1))
    (llmqType : LLMQType) :
    newestFirst chain llmqType nHeight = newestFirst chain' llmqType nHeight := by
  rw [newestFirst, newestFirst, hblocks]

lemma withIndex_congr (hblocks : chain.take (nHeight + 1) = chain'.take (nHeight + 1))
    (llmqType : LLMQType) (index : Int) :
    withIndex chain llmqType nHeight index = withIndex chain' llmqType nHeight index := by
  rw [withIndex, withIndex, newestFirst_congr hblocks]

/-- Rows beyond the indexes of all commitments do not matter. -/
lemma rowMajor_eq_of_inRows {llmqType : LLMQType} {count count' : Nat}
    (hin : InRows chain llmqType nHeight count) (hin' : InRows chain llmqType nHeight count') :
    (rowMajor count' fun i => withIndex chain llmqType nHeight i) =
      rowMajor count fun i => withIndex chain llmqType nHeight i := by
  rcases le_total count count' with hle | hle
  · exact rowMajor_eq_of_nil hle fun i hi _ => withIndex_eq_nil hin hi
  · exact (rowMajor_eq_of_nil hle fun i hi _ => withIndex_eq_nil hin' hi).symm

lemma filterMap_range_eq_of_nil {β : Type} {f : Nat → Option β} {n n' : Nat} (hle : n ≤ n')
    (hnone : ∀ i, n ≤ i → f i = none) :
    (range n').filterMap f = (range n).filterMap f := by
  induction n', hle using le_induction with
  | base => rfl
  | succ n' hle ih => rw [range_succ, filterMap_append, ih]; simp [hnone n' hle]

lemma sameAnswers_of_inRows (h : Indexed c s) (h' : Indexed c s')
    (hagrees : Agrees evoDb.read s.proc.chain nHeight)
    (hagrees' : Agrees evoDb'.read s'.proc.chain nHeight)
    (hheight : nHeight < s.proc.chain.length) (hheight' : nHeight < s'.proc.chain.length)
    (hset : set ∈ parameterSets) (hset' : set' ∈ parameterSets) (hfollows : Follows params set)
    (hfollows' : Follows params' set') (htype : params'.type = params.type)
    (hblocks : s.proc.chain.take (nHeight + 1) = s'.proc.chain.take (nHeight + 1))
    (hin : params.useRotation = true →
      InRows s.proc.chain params.type nHeight params.signingActiveQuorumCount ∧
        InRows s.proc.chain params.type nHeight params'.signingActiveQuorumCount) :
    SameAnswers evoDb evoDb' s.proc.chain s'.proc.chain params params' nHeight := by
  have hrotates := hfollows.rotates hset
  refine ⟨fun huses maxCount => ?_, fun huses cycle => ?_, fun huses maxCount => ?_⟩
  · rw [hrotates] at huses
    rw [getMinedCommitmentsUntilBlock_eq h hagrees hheight huses, htype,
      getMinedCommitmentsUntilBlock_eq h' hagrees' hheight' huses, newestFirst_congr hblocks]
  · obtain ⟨hin, hin'⟩ := hin huses
    rw [hrotates] at huses
    rw [getLastMinedCommitmentsPerQuorumIndexUntilBlock_eq h hagrees hheight huses
        (hfollows.count_lt hset),
      getLastMinedCommitmentsPerQuorumIndexUntilBlock_eq h' hagrees' hheight' (htype ▸ huses)
        (hfollows'.count_lt hset'), htype]
    simp only [← withIndex_congr hblocks]
    have hnone : ∀ {count : Nat}, InRows s.proc.chain params.type nHeight count → ∀ i : Nat,
        count ≤ i → (((withIndex s.proc.chain params.type nHeight i).map
          fun m => m.qc.quorumHash)[cycle]?.map fun quorumHash => (i, quorumHash)) = none := by
      intro count hrows i hi
      rw [withIndex_eq_nil hrows hi]
      rfl
    rcases le_total params.signingActiveQuorumCount params'.signingActiveQuorumCount with hle | hle
    · rw [filterMap_range_eq_of_nil hle (hnone hin)]
    · rw [filterMap_range_eq_of_nil hle (hnone hin')]
  · obtain ⟨hin, hin'⟩ := hin huses
    rw [hrotates] at huses
    rw [getMinedCommitmentsIndexedUntilBlock_eq h hagrees hheight huses (hfollows.count_lt hset),
      getMinedCommitmentsIndexedUntilBlock_eq h' hagrees' hheight' (htype ▸ huses)
        (hfollows'.count_lt hset'), htype]
    simp only [← withIndex_congr hblocks]
    rw [rowMajor_eq_of_inRows hin hin']

end Stable

lemma IndexState.settled_le (s : IndexState) (moment : Moment) :
    s.settled moment ≤ s.proc.chain.length := by
  cases moment with
  | disconnecting => exact sub_le _ _
  | _ => exact le_rfl

/-- **Queries.** Take two runs whose active chains share the blocks up to a height, at any
moment at which these blocks stay connected. The queries up to the height answer with exactly
the commitments mined up to it, the newest first, and both runs answer the same, exactly if
the type does not rotate, or every commitment of the type up to the height has an index that
both tables have, and the rows descend. -/
theorem queries_exact_iff (c : QuorumConsensus) (genesis : NonNullHash)
    (events events' : List IndexEvent) (moment moment' : Moment) {llmqs llmqs' : LlmqTable}
    (hscheduled : Scheduled llmqs) (hscheduled' : Scheduled llmqs') {llmqType : LLMQType}
    {params params' : LLMQParams} (hparams : llmqs llmqType = some params)
    (hparams' : llmqs' llmqType = some params') {nHeight : Nat}
    (hheight : nHeight < (run c genesis events).settled moment)
    (hheight' : nHeight < (run c genesis events').settled moment')
    (hblocks : (run c genesis events).proc.chain.take (nHeight + 1) =
      (run c genesis events').proc.chain.take (nHeight + 1)) :
    (Exact ((run c genesis events).evoDbAt c moment) (run c genesis events).proc.chain params
        nHeight ∧
      Exact ((run c genesis events').evoDbAt c moment') (run c genesis events').proc.chain params'
        nHeight ∧
      SameAnswers ((run c genesis events).evoDbAt c moment)
        ((run c genesis events').evoDbAt c moment') (run c genesis events).proc.chain
        (run c genesis events').proc.chain params params' nHeight) ↔
    (params.useRotation = true →
      (InRows (run c genesis events).proc.chain llmqType nHeight params.signingActiveQuorumCount ∧
        InRows (run c genesis events).proc.chain llmqType nHeight
          params'.signingActiveQuorumCount) ∧
      RowsDescend (run c genesis events).proc.chain llmqType nHeight) := by
  have h := indexed_run c genesis events
  have h' := indexed_run c genesis events'
  generalize run c genesis events = s at *
  generalize run c genesis events' = s' at *
  obtain ⟨set, hset, hsetType, hfollows⟩ := hscheduled _ _ hparams
  obtain ⟨set', hset', hsetType', hfollows'⟩ := hscheduled' _ _ hparams'
  have htype : params.type = llmqType := hfollows.type.trans hsetType
  have htype' : params'.type = llmqType := hfollows'.type.trans hsetType'
  have hagrees := h.agrees_evoDbAt moment hheight
  have hagrees' := h'.agrees_evoDbAt moment' hheight'
  have hlt := hheight.trans_le (s.settled_le moment)
  have hlt' := hheight'.trans_le (s'.settled_le moment')
  have huses : params'.useRotation = params.useRotation := by
    rw [hfollows.rotates hset, hfollows'.rotates hset', htype, htype']
  -- what holds about the rows is the same for both chains
  have hin_iff : ∀ count, InRows s'.proc.chain llmqType nHeight count ↔
      InRows s.proc.chain llmqType nHeight count := fun count => by
    rw [InRows, InRows, newestFirst_congr hblocks]
  have hdescend_iff : RowsDescend s'.proc.chain llmqType nHeight ↔
      RowsDescend s.proc.chain llmqType nHeight := by
    simp [RowsDescend, withIndex_congr hblocks]
  subst htype
  constructor
  · rintro ⟨hexact, hexact', -⟩ hrotation
    obtain ⟨hin, hdescend⟩ := rows_of_exact h hagrees hlt hset hfollows hexact hrotation
    obtain ⟨hin', -⟩ :=
      rows_of_exact h' hagrees' hlt' hset' hfollows' hexact' (huses.trans hrotation)
    rw [htype', hin_iff] at hin'
    exact ⟨⟨hin, hin'⟩, hdescend⟩
  · intro hrows
    refine ⟨exact_of_rows h hagrees hlt hset hfollows fun hrotation =>
      ⟨(hrows hrotation).1.1, (hrows hrotation).2⟩,
      exact_of_rows h' hagrees' hlt' hset' hfollows' fun hrotation => ?_,
      sameAnswers_of_inRows h h' hagrees hagrees' hlt hlt' hset hset' hfollows hfollows' htype'
        hblocks fun hrotation => (hrows hrotation).1⟩
    rw [htype', hin_iff, hdescend_iff]
    exact ⟨(hrows (huses ▸ hrotation)).1.2, (hrows (huses ▸ hrotation)).2⟩

/-! ## The table changes -/

section TableChange

/-- A network on which commitments begin at the last block of a mining window, which is the
case of none of the public ones. -/
def lateConsensus : QuorumConsensus where
  network := .main
  dip0003Height := 338
  dip0020Height := 1000
  dip0024Height := 288
  dip0024QuorumsHeight := 288
  v19Height := 1000
  llmqTypeDIP0024InstantSend := .llmq60_75
  testDummyActiveAfter := fun _ => false

/-- The checks with the table for a number of masternodes. -/
def viewFor (totalMnCount : Nat) : TableView where
  llmqs := writeLLMQs .main totalMnCount initialLLMQs
  llmqs_wellFormed := (ofSets_initialLLMQs.write .main totalMnCount).wellFormed
  membersSize := fun _ _ => 60
  sigsVerify := fun _ => true
  scheduled := scheduled_of_ofSets (ofSets_initialLLMQs.write .main totalMnCount)

/-- A block without commitments. -/
def blockAt (nHeight : Nat) : QBlock := { hash := nHeight + 1, hash_ne := succ_ne_zero nHeight }

/-- The blocks up to a height, none of which has commitments. -/
def blocksTo (nHeight : Nat) : QChain := (range (nHeight + 1)).map blockAt

/-- The null commitment of an index in the cycle of block 288. -/
def nullAt (quorumIndex : Nat) : CFinalCommitment where
  nVersion := 2
  llmqType := .llmq60_75
  quorumHash := 288 + quorumIndex + 1
  quorumIndex := quorumIndex
  signers := replicate 60 false
  validMembers := replicate 60 false

/-- The commitment of the quorum with the index 9. -/
def ninth : CFinalCommitment where
  nVersion := 2
  llmqType := .llmq60_75
  quorumHash := 298
  quorumIndex := 9
  signers := replicate 60 true
  validMembers := replicate 60 true
  quorumPublicKey := some 1
  quorumVvecHash := 1
  quorumSig := some 1
  membersSig := some 1

/-- The block at height 338 has the commitment of index 9, and null commitments. -/
def block338 : QBlock where
  hash := 339
  payloads := (range 32).map fun i => some (if i = 9 then ninth else nullAt i)

/-- The blocks up to height 337. -/
def early : List IndexEvent :=
  (range 337).map fun i => .connect (viewFor 2001) (blockAt (i + 1)) true true

/-- Then the block with the commitment. -/
def mined338 : List IndexEvent := early ++ [.connect (viewFor 2001) block338 true true]

/-- Then a block after which there are fewer masternodes. -/
def fewer339 : List IndexEvent := mined338 ++ [.connect (viewFor 2000) (blockAt 339) true true]

lemma genesis_ne : (1 : Uint256) ≠ 0 := by decide

variable {c : QuorumConsensus}

lemma proc_connect {s : IndexState} (view : TableView) (block : QBlock)
    (fBLSChecks laterChecks : Bool) (hlength : s.proc.chain.length < 2 ^ 31) :
    (s.step c (.connect view block fBLSChecks laterChecks)).proc =
      s.proc.step c (.connect (view.onChain c s.proc.chain) block fBLSChecks laterChecks) := by
  rw [IndexState.step, if_neg (not_le.mpr hlength)]
  dsimp only
  split <;> rfl

lemma step_before_dip0003 {s : ProcState} {block : QBlock} (view : QuorumView)
    (hnew : block.hash ∉ s.chain.map QBlock.hash) (hpayloads : block.payloads = [])
    (hheight : (s.chain.length : Int) < c.dip0003Height) :
    s.step c (.connect view block true true) = ⟨s.chain ++ [block], s.mined⟩ := by
  have hspecial : checkSpecialTxs c s.chain block = true := by simp [checkSpecialTxs, hpayloads]
  have hrun : runs (processBlock c view s.chain block false true) s.mined = (.ok (), s.mined) := by
    simp [processBlock, if_pos hheight]
  rw [ProcState.step, if_neg (by simp [hnew, hspecial]), hrun]
  rfl

/-- The runs of the scenario. -/
abbrev lateRun (events : List IndexEvent) := run lateConsensus ⟨1, genesis_ne⟩ events

lemma lateRun_append_singleton (events : List IndexEvent) (event : IndexEvent) :
    lateRun (events ++ [event]) = (lateRun events).step lateConsensus event := by
  rw [lateRun, run, foldl_append]
  rfl

lemma proc_early (n : Nat) (hn : n < 338) :
    (lateRun ((range n).map fun i => .connect (viewFor 2001) (blockAt (i + 1)) true true)).proc =
      ⟨blocksTo n, empty⟩ := by
  induction n with
  | zero => rfl
  | succ n ih =>
    have hproc := ih (by omega)
    have hlength : (blocksTo n).length = n + 1 := by simp [blocksTo]
    have hnew : (blockAt (n + 1)).hash ∉ (blocksTo n).map QBlock.hash := by
      simp [blocksTo, blockAt]
    have hnext : blocksTo n ++ [blockAt (n + 1)] = blocksTo (n + 1) := by
      simp [blocksTo, range_succ]
    rw [range_succ, map_append, map_singleton, lateRun_append_singleton,
      proc_connect _ _ _ _ (by rw [hproc, hlength]; omega), hproc,
      step_before_dip0003 _ hnew rfl (by rw [hlength]; simp only [lateConsensus]; omega), hnext]

lemma proc_mined338 :
    (lateRun mined338).proc = ProcState.step lateConsensus ⟨blocksTo 337, empty⟩
        (.connect ((viewFor 2001).onChain lateConsensus (blocksTo 337)) block338 true true) := by
  have hproc := proc_early 337 (by decide)
  have hlength : (blocksTo 337).length = 338 := by simp [blocksTo]
  rw [mined338, lateRun_append_singleton, proc_connect _ _ _ _ (by rw [early, hproc, hlength]; omega),
    early, hproc]

lemma chain_mined338 : (lateRun mined338).proc.chain = blocksTo 337 ++ [block338] := by
  rw [proc_mined338]
  decide +kernel

theorem undoBlock_restores_block338 :
    let s := run lateConsensus ⟨1, genesis_ne⟩ early
    let qcs := inMapOrder block338.commitments
    (qcs.foldl (eraseMined lateConsensus (viewFor 2001).llmqs s.proc.chain.length)
      (connecting lateConsensus s (viewFor 2001).llmqs qcs)).read = s.evoDb.read := by
  have hproc : (lateRun early).proc = ⟨blocksTo 337, empty⟩ := proc_early 337 (by decide)
  refine (undoBlock_restores lateConsensus ⟨1, genesis_ne⟩ early (viewFor 2001) block338 true
    (runs (processBlock lateConsensus ((viewFor 2001).onChain lateConsensus (blocksTo 337))
      (blocksTo 337) block338 false true) empty).2 ?_ ?_).2.2
  · rw [hproc]
    decide +kernel
  · have hok : (runs (processBlock lateConsensus ((viewFor 2001).onChain lateConsensus (blocksTo 337))
        (blocksTo 337) block338 false true) empty).1 = .ok () := by
      decide +kernel
    rw [hproc, ← hok]

lemma chain_fewer339 :
    (lateRun fewer339).proc.chain = blocksTo 337 ++ [block338, blockAt 339] := by
  have hlength : (lateRun mined338).proc.chain.length = 339 := by
    rw [chain_mined338]
    simp [blocksTo]
  rw [fewer339, lateRun_append_singleton, proc_connect _ _ _ _ (by rw [hlength]; omega), proc_mined338]
  decide +kernel

lemma newestFirst_338 {chain : QChain} (hblocks : chain.take 339 = blocksTo 337 ++ [block338]) :
    newestFirst chain .llmq60_75 338 = [⟨338, ninth⟩] := by
  rw [newestFirst, hblocks]
  decide +kernel

lemma take_fewer339 : (lateRun fewer339).proc.chain.take 339 = blocksTo 337 ++ [block338] := by
  have hlength : (blocksTo 337 ++ [block338]).length = 339 := by simp [blocksTo]
  have hsplit : blocksTo 337 ++ [block338, blockAt 339] =
      blocksTo 337 ++ [block338] ++ [blockAt 339] := by simp
  rw [chain_fewer339, hsplit, ← hlength, take_left]

lemma take_mined338 : (lateRun mined338).proc.chain.take 339 = blocksTo 337 ++ [block338] := by
  rw [chain_mined338]
  exact take_of_length_le (by simp [blocksTo])

/-- The answer for the block at height 338, through the rows. -/
lemma indexed_338 {s : IndexState} (h : Indexed lateConsensus s) {params : LLMQParams}
    (hset : params ∈ parameterSets) (htype : params.type = .llmq60_75)
    (hblocks : s.proc.chain.take 339 = blocksTo 337 ++ [block338]) :
    getMinedCommitmentsIndexedUntilBlock s.evoDb s.proc.chain params 338 1 =
      some (((rowMajor params.signingActiveQuorumCount fun i : Nat =>
        [(⟨338, ninth⟩ : MinedAt)].filter fun m => m.qc.quorumIndex = (i : Int)).map
          fun m => m.qc.quorumHash).take 1) := by
  have hlength : 338 < s.proc.chain.length := by
    have hcount := congrArg length hblocks
    simp only [length_take, length_append, length_singleton, blocksTo,
      length_map, length_range] at hcount
    omega
  rw [getMinedCommitmentsIndexedUntilBlock_eq h (h.agrees 338) hlength (by rw [htype]; rfl)
    ((follows_self params hset).count_lt hset), htype]
  simp [withIndex, newestFirst_338 hblocks]

theorem exact_mined338 :
    Exact ((lateRun mined338).evoDbAt lateConsensus .between) (lateRun mined338).proc.chain
        llmq_60_75 338 ∧
      Exact ((lateRun fewer339).evoDbAt lateConsensus .between) (lateRun fewer339).proc.chain
        llmq_60_75 338 ∧
      SameAnswers ((lateRun mined338).evoDbAt lateConsensus .between)
        ((lateRun fewer339).evoDbAt lateConsensus .between) (lateRun mined338).proc.chain
        (lateRun fewer339).proc.chain llmq_60_75 llmq_60_75 338 := by
  have hscheduled := scheduled_of_ofSets (ofSets_initialLLMQs.write .main 2001)
  have hparams : writeLLMQs .main 2001 initialLLMQs .llmq60_75 = some llmq_60_75 := by decide
  unfold lateRun
  refine (queries_exact_iff lateConsensus ⟨1, genesis_ne⟩ mined338 fewer339 .between .between
    hscheduled hscheduled hparams hparams ?_ ?_ (by rw [take_mined338, take_fewer339])).mpr fun _ => ?_
  · change 338 < (run lateConsensus ⟨1, genesis_ne⟩ mined338).proc.chain.length
    rw [chain_mined338]
    simp [blocksTo]
  · change 338 < (run lateConsensus ⟨1, genesis_ne⟩ fewer339).proc.chain.length
    rw [chain_fewer339]
    simp [blocksTo]
  · have hmined := newestFirst_338 take_mined338
    unfold lateRun at hmined
    have hin : InRows (run lateConsensus ⟨1, genesis_ne⟩ mined338).proc.chain .llmq60_75 338
        llmq_60_75.signingActiveQuorumCount := by
      rw [InRows, hmined]
      decide
    refine ⟨⟨hin, hin⟩, fun i j c d m m' hm hm' _ => ?_⟩
    -- there is only one commitment
    have hone : ∀ {k e : Nat} {x : MinedAt},
        (withIndex (run lateConsensus ⟨1, genesis_ne⟩ mined338).proc.chain .llmq60_75 338 k)[e]? =
          some x → x = ⟨338, ninth⟩ := by
      intro k e x hx
      have hmem := (mem_withIndex.mp (mem_of_getElem? hx)).1
      rwa [hmined, mem_singleton] at hmem
    rw [hone hm, hone hm']

/-- **The table of a later block.** Up to height 338 the commitment with the index 9 is
mined. The block at height 339, at which the number of masternodes falls to 2000, makes the
table one with 8 indexes, and the commitment disappears from the answer for height 338. -/
theorem answer_changes_above :
    (updateLLMQParams .main 2000 339 ⟨2001, 338, (viewFor 2001).llmqs⟩).llmqs .llmq60_75 =
        some llmq_20_75 ∧
      (lateRun fewer339).proc.chain.take 339 = (lateRun mined338).proc.chain ∧
      getMinedCommitmentsIndexedUntilBlock (lateRun mined338).evoDb (lateRun mined338).proc.chain
        llmq_60_75 338 1 = some [298] ∧
      getMinedCommitmentsIndexedUntilBlock (lateRun fewer339).evoDb (lateRun fewer339).proc.chain
        llmq_20_75 338 1 = some [] := by
  refine ⟨by decide, by rw [take_fewer339, chain_mined338], ?_, ?_⟩
  · rw [indexed_338 (s := lateRun mined338) (indexed_run ..) (by decide) rfl take_mined338]
    decide +kernel
  · rw [indexed_338 (s := lateRun fewer339) (indexed_run ..) (by decide) rfl take_fewer339]
    decide +kernel

end TableChange

end HootChain.Llmq.MinedIndex

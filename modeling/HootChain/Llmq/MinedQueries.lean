import HootChain.Foundation.RowMajor
import HootChain.Llmq.MinedIndexRuns

/-!
# Queries for Mined Commitments (`llmq/blockprocessor.cpp`)

Which commitments are mined up to a block is answered by iterating over the index, from the
key of the height of the block on. For a type that does not rotate the keys of the type are
visited in one go. For a type that rotates each index is visited on its own, and the answers
are put together row by row: first the newest commitment of each index, then the second
newest, and so on. How many indexes there are is read from the table of the parameters,
which is not that of the blocks.
-/

namespace HootChain.Llmq.MinedIndex

open Foundation Primitives List
open Evo (CEvoDB)
open Serialize Llmq.BlockProcessor

/-! ## The queries -/

section

variable (chain : QChain)

/-- `GetAncestor` of the block at a height. -/
def getAncestor (nHeight : Nat) (height : Int) : Option Uint256 :=
  if height < 0 ∨ height > nHeight then none else chain[height.toNat]?.map QBlock.hash

/-- What a pass of the loops over the index does: it ends the loop, the assertion fails, or
it has the next base block. -/
inductive Visit where
  | stop
  | aborted
  | found (quorumHash : Uint256)

/-- One pass of the loops. -/
def visit (nHeight : Nat) (firstKey lastKey : InversedHeightKey) (entry : ByteStream × EvoValue) :
    Visit :=
  match getKey firstKey.quorumIndex.isSome entry.1 with
  | none => .stop
  | some curKey =>
    if ¬ curKey.less lastKey then .stop
    else if curKey.name ≠ firstKey.name ∨ curKey.llmqType ≠ firstKey.llmqType then .stop
    else if curKey.nMinedHeight > nHeight then .stop
    else
      match entry.2 with
      | .other => .stop
      | .height quorumHeight =>
        match getAncestor chain nHeight quorumHeight with
        | none => .aborted
        | some quorumHash => .found quorumHash

/-- The loop that collects up to a number of base blocks. -/
def collect (visit : ByteStream × EvoValue → Visit) :
    Nat → List (ByteStream × EvoValue) → Option (List Uint256)
  | 0, _ => some []
  | _ + 1, [] => some []
  | maxCount + 1, entry :: rest =>
    match visit entry with
    | .stop => some []
    | .aborted => none
    | .found quorumHash => (collect visit maxCount rest).map (quorumHash :: ·)

/-- The loop that looks for the base block of a cycle. -/
def pick (visit : ByteStream × EvoValue → Visit) :
    Nat → List (ByteStream × EvoValue) → Option (Option Uint256)
  | _, [] => some none
  | cycle, entry :: rest =>
    match visit entry with
    | .stop => some none
    | .aborted => none
    | .found quorumHash =>
      match cycle with
      | 0 => some (some quorumHash)
      | cycle + 1 => pick visit cycle rest

variable (evoDb : CEvoDB EvoValue)

/-- `GetMinedCommitmentsUntilBlock`; `none` where an assertion fails. -/
def getMinedCommitmentsUntilBlock (chain : QChain) (llmqType : LLMQType)
    (nHeight maxCount : Nat) : Option (List Uint256) :=
  let firstKey := buildInversedHeightKey llmqType nHeight
  let lastKey := buildInversedHeightKey llmqType 0
  collect (visit chain nHeight firstKey lastKey) maxCount (evoDb.newIterator firstKey.serialize)

def getLastMinedCommitmentsByQuorumIndexUntilBlock (chain : QChain)
    (llmqType : LLMQType) (nHeight : Nat) (quorumIndex : Int) (cycle : Nat) :
    Option (Option Uint256) :=
  let firstKey := buildInversedHeightKeyIndexed llmqType nHeight quorumIndex
  let lastKey := buildInversedHeightKeyIndexed llmqType 0 quorumIndex
  pick (visit chain nHeight firstKey lastKey) cycle (evoDb.newIterator firstKey.serialize)

/-- The loop over the indexes. -/
def collectIndexes (query : Nat → Option (Option Uint256)) :
    List Nat → Option (List (Nat × Uint256))
  | [] => some []
  | quorumIndex :: rest =>
    match query quorumIndex with
    | none => none
    | some none => collectIndexes query rest
    | some (some quorumHash) => (collectIndexes query rest).map ((quorumIndex, quorumHash) :: ·)

def getLastMinedCommitmentsPerQuorumIndexUntilBlock (chain : QChain)
    (params : LLMQParams) (nHeight cycle : Nat) : Option (List (Nat × Uint256)) :=
  collectIndexes (fun quorumIndex =>
      getLastMinedCommitmentsByQuorumIndexUntilBlock evoDb chain params.type nHeight quorumIndex
        cycle)
    (range params.signingActiveQuorumCount)

def getMinedCommitmentsIndexedUntilBlock (chain : QChain)
    (params : LLMQParams) (nHeight maxCount : Nat) : Option (List Uint256) :=
  scanRows (fun cycle =>
      (getLastMinedCommitmentsPerQuorumIndexUntilBlock evoDb chain params nHeight cycle).map
        (map Prod.snd))
    maxCount 0 maxCount

/-! ## What is asked for -/

/-- The commitments of a type that are mined up to a height, the newest first. -/
def newestFirst (llmqType : LLMQType) (nHeight : Nat) : List MinedAt :=
  ((allMined (chain.take (nHeight + 1))).filter fun m => m.qc.llmqType = llmqType).reverse

/-- Those with an index. -/
def withIndex (llmqType : LLMQType) (nHeight : Nat) (quorumIndex : Int) : List MinedAt :=
  (newestFirst chain llmqType nHeight).filter fun m => m.qc.quorumIndex = quorumIndex

end

/-! ## The loops -/

lemma collectIndexes_eq {query : Nat → Option (Option Uint256)} {answer : Nat → Option Uint256}
    {indexes : List Nat} (h : ∀ i ∈ indexes, query i = some (answer i)) :
    collectIndexes query indexes =
      some (indexes.filterMap fun i => (answer i).map fun quorumHash => (i, quorumHash)) := by
  induction indexes with
  | nil => rfl
  | cons i indexes ih =>
    obtain ⟨hfirst, hrest⟩ := forall_mem_cons.mp h
    rw [collectIndexes, hfirst, ih hrest]
    cases hanswer : answer i <;> simp [hanswer]

section Loops

variable {v : ByteStream × EvoValue → Visit} {stretch : List MinedAt}
  {entry : MinedAt → ByteStream × EvoValue} {tail : List (ByteStream × EvoValue)}
  (hfound : ∀ m ∈ stretch, v (entry m) = .found m.qc.quorumHash)

include hfound

lemma collect_eq (hstop : ∀ e ∈ tail, v e = .stop) (maxCount : Nat) :
    collect v maxCount (stretch.map entry ++ tail) =
      some ((stretch.map fun m => m.qc.quorumHash).take maxCount) := by
  induction stretch generalizing maxCount with
  | nil =>
    cases maxCount with
    | zero => rfl
    | succ maxCount =>
      cases tail with
      | nil => rfl
      | cons e tail => simp [collect, hstop e mem_cons_self]
  | cons m stretch ih =>
    obtain ⟨hfirst, hrest⟩ := forall_mem_cons.mp hfound
    cases maxCount with
    | zero => rfl
    | succ maxCount => simp [collect, hfirst, ih hrest maxCount]

lemma pick_eq (hstop : ∀ e ∈ tail, v e = .stop) (cycle : Nat) :
    pick v cycle (stretch.map entry ++ tail) =
      some ((stretch.map fun m => m.qc.quorumHash)[cycle]?) := by
  induction stretch generalizing cycle with
  | nil =>
    cases tail with
    | nil => simp [pick]
    | cons e tail => simp [pick, hstop e mem_cons_self]
  | cons m stretch ih =>
    obtain ⟨hfirst, hrest⟩ := forall_mem_cons.mp hfound
    cases cycle with
    | zero => simp [pick, hfirst]
    | succ cycle => simp [pick, hfirst, ih hrest cycle]

end Loops

/-! ## The commitments that are mined -/

section Mined

variable {chain : QChain} {llmqType : LLMQType} {nHeight : Nat} {m : MinedAt}

lemma mem_allMined :
    m ∈ allMined chain ↔ ∃ block, chain[m.nMinedHeight]? = some block ∧
      m ∈ minedIn m.nMinedHeight block := by
  simp only [allMined, mem_flatMap, Prod.exists, mk_mem_zipIdx_iff_getElem?]
  constructor
  · rintro ⟨block, n, hblock, hm⟩
    obtain rfl := (mem_minedIn.mp hm).1
    exact ⟨block, hblock, hm⟩
  · rintro ⟨block, hblock, hm⟩
    exact ⟨block, m.nMinedHeight, hblock, hm⟩

lemma mem_newestFirst :
    m ∈ newestFirst chain llmqType nHeight ↔
      m ∈ allMined chain ∧ m.nMinedHeight ≤ nHeight ∧ m.qc.llmqType = llmqType := by
  rw [newestFirst, mem_reverse, mem_filter, mem_allMined, mem_allMined]
  by_cases hle : m.nMinedHeight ≤ nHeight
  · simp [hle, Nat.lt_succ_of_le hle]
  · simp [hle, show ¬ m.nMinedHeight < nHeight + 1 by omega]

lemma allMined_take_sublist (chain : QChain) (n : Nat) :
    (allMined (chain.take n)).Sublist (allMined chain) := by
  have hsplit : allMined chain = allMined (chain.take n) ++
      ((chain.drop n).zipIdx (chain.take n).length).flatMap fun e => minedIn e.2 e.1 := by
    conv_lhs => rw [← take_append_drop n chain]
    rw [allMined, zipIdx_append, flatMap_append, allMined, Nat.zero_add]
  rw [hsplit]
  exact sublist_append_left _ _

lemma pairwise_allMined (chain : QChain) :
    (allMined chain).Pairwise fun m m' => m.nMinedHeight ≤ m'.nMinedHeight := by
  induction chain using reverseRecOn with
  | nil => exact List.Pairwise.nil
  | append_singleton chain block ih =>
    rw [allMined_append, pairwise_append]
    refine ⟨ih, ?_, fun m hm m' hm' => ?_⟩
    · refine pairwise_of_forall_mem_list fun m hm m' hm' => ?_
      rw [(mem_minedIn.mp hm).1, (mem_minedIn.mp hm').1]
    · rw [(mem_minedIn.mp hm').1]
      exact (nMinedHeight_lt hm).le

lemma pairwise_newestFirst (chain : QChain) (llmqType : LLMQType) (nHeight : Nat) :
    (newestFirst chain llmqType nHeight).Pairwise fun m m' => m'.nMinedHeight ≤ m.nMinedHeight := by
  rw [newestFirst, pairwise_reverse]
  exact (pairwise_allMined _).filter _

end Mined

/-! ## One scan -/

section Scans

variable {c : QuorumConsensus} {s : IndexState} {evoDb : CEvoDB EvoValue} {llmqType : LLMQType}
  {nHeight : Nat} {quorumIndex : Option Int} {m : MinedAt}

/-- The index under which a commitment is filed, if its type rotates. -/
def MinedAt.slot (m : MinedAt) : Option Int :=
  if LLMQType.rotates m.qc.llmqType then some m.qc.quorumIndex else none

/-- The commitments that are filed under an index. -/
def filed (chain : QChain) (llmqType : LLMQType) (nHeight : Nat) (quorumIndex : Option Int) :
    List MinedAt :=
  (newestFirst chain llmqType nHeight).filter fun m => m.slot = quorumIndex

lemma mem_filed {chain : QChain} :
    m ∈ filed chain llmqType nHeight quorumIndex ↔
      (m ∈ allMined chain ∧ m.nMinedHeight ≤ nHeight ∧ m.qc.llmqType = llmqType) ∧
        m.slot = quorumIndex := by
  rw [filed, mem_filter, mem_newestFirst, decide_eq_true_eq]

lemma key_of_mem_filed {chain : QChain} (hm : m ∈ filed chain llmqType nHeight quorumIndex) :
    m.key = (minedKey llmqType quorumIndex m.nMinedHeight).serialize := by
  obtain ⟨⟨-, -, rfl⟩, rfl⟩ := mem_filed.mp hm
  rfl

/-- The entries of an index are in the order of their keys. -/
lemma pairwise_filed (h : Indexed c s) :
    ((filed s.proc.chain llmqType nHeight quorumIndex).map (entryOf s.proc.chain)).Pairwise
      fun a b => compare a.1 b.1 = .lt := by
  have hkeys : (newestFirst s.proc.chain llmqType nHeight).Pairwise fun m m' => m.key ≠ m'.key := by
    rw [newestFirst, pairwise_reverse]
    have hnodup := (h.keys.sublist ((allMined_take_sublist s.proc.chain (nHeight + 1)).map _))
    exact ((pairwise_map.mp hnodup).filter _).imp fun hne => hne.symm
  rw [pairwise_map]
  have hboth := ((pairwise_newestFirst s.proc.chain llmqType nHeight).and hkeys).filter
    fun m => m.slot = quorumIndex
  refine hboth.imp_of_mem fun {m m'} hm hm' hrel => ?_
  have hkey := key_of_mem_filed hm
  have hkey' := key_of_mem_filed hm'
  have hbound := h.nMinedHeight_lt (mem_filed.mp hm).1.1
  have hbound' := h.nMinedHeight_lt (mem_filed.mp hm').1.1
  have hne : m.nMinedHeight ≠ m'.nMinedHeight := fun heq => hrel.2 (by rw [hkey, hkey', heq])
  rw [entryOf, entryOf, hkey, hkey', compare_serialize hbound hbound', Nat.compare_eq_lt]
  omega

def OneByte (quorumIndex : Option Int) : Prop := ∀ index ∈ quorumIndex, 0 ≤ index ∧ index < 256

lemma OneByte.fitsInt (hbyte : OneByte quorumIndex) : FitsInt quorumIndex := by
  intro index hindex
  have hrange := hbyte index hindex
  omega

/-- An iterator first visits the entries of the index. -/
lemma newIterator_eq_append (h : Indexed c s) (hagrees : Agrees evoDb.read s.proc.chain nHeight)
    (hheight : nHeight < 2 ^ 32) (hbyte : OneByte quorumIndex) :
    evoDb.newIterator (minedKey llmqType quorumIndex nHeight).serialize =
      (filed s.proc.chain llmqType nHeight quorumIndex).map (entryOf s.proc.chain) ++
        (evoDb.newIterator (minedKey llmqType quorumIndex nHeight).serialize).filter
          fun e => !(keyHead llmqType quorumIndex).isPrefixOf e.1 := by
  refine (CEvoDB.listsFrom_newIterator _).eq_append (pairwise_filed h) (fun bytes value => ?_)
    fun bytes bytes' hlo hhi hhead => ?_
  · constructor
    · intro hmem
      obtain ⟨m, hm, heq⟩ := mem_map.mp hmem
      obtain ⟨⟨hmined, hle, -⟩, -⟩ := mem_filed.mp hm
      have hkey := key_of_mem_filed hm
      obtain rfl : m.key = bytes := congrArg Prod.fst heq
      refine ⟨⟨?_, ?_⟩, ?_⟩
      · rw [hagrees.has m hmined hle, heq]
      · rw [hkey, compare_serialize (h.nMinedHeight_lt hmined) hheight, ne_eq, Nat.compare_eq_lt]
        omega
      · rw [hkey, keyHead_isPrefixOf]
    · rintro ⟨⟨hread, hlo⟩, hhead⟩
      rcases hagrees.shape bytes value hread with hforeign | ⟨llmqType', quorumIndex', n, hfits, hlt,
        hn, rfl⟩ | ⟨m, hmined, hle, heq⟩
      · -- the keys of other parts of the node do not begin so
        rw [not_foreign_of_keyHead hhead] at hforeign
        cases hforeign
      · obtain ⟨rfl, rfl⟩ := eq_of_keyHead_prefix hbyte.fitsInt hfits hhead
        rw [compare_serialize hn hheight, ne_eq, Nat.compare_eq_lt] at hlo
        exact absurd hlt hlo
      · obtain rfl : m.key = bytes := (congrArg Prod.fst heq).symm
        obtain ⟨rfl, rfl⟩ := eq_of_keyHead_prefix hbyte.fitsInt (h.fitsInt hmined) hhead
        exact mem_map.mpr ⟨m, mem_filed.mpr ⟨⟨hmined, hle, rfl⟩, rfl⟩, heq.symm⟩
  · obtain ⟨rest, rfl⟩ := isPrefixOf_iff_prefix.mp hhead
    apply isPrefixOf_iff_prefix.mpr
    rw [serialize_minedKey] at hlo
    obtain ⟨rest', rfl⟩ := exists_append_of_between hlo hhi
    exact prefix_append _ _

/-- The loops find the base blocks of the entries of the index. -/
lemma visit_filed (h : Indexed c s) (hheight : nHeight < s.proc.chain.length)
    (hm : m ∈ filed s.proc.chain llmqType nHeight quorumIndex) :
    visit s.proc.chain nHeight (minedKey llmqType quorumIndex nHeight)
      (minedKey llmqType quorumIndex 0) (entryOf s.proc.chain m) = .found m.qc.quorumHash := by
  obtain ⟨⟨hmined, hle, -⟩, hslot⟩ := mem_filed.mp hm
  obtain ⟨set, base, hplaced⟩ := h.placed m hmined
  have hlookup := h.lookup hplaced
  have hfits : FitsInt quorumIndex := hslot ▸ h.fitsInt hmined
  have hbound := h.nMinedHeight_lt hmined
  have hbase : base < m.nMinedHeight := by
    have hlt := hplaced.base_lt
    rw [length_take] at hlt
    omega
  have hancestor : getAncestor s.proc.chain nHeight base = some m.qc.quorumHash := by
    have hhash := hplaced.onChain
    rw [getElem?_take, if_pos hbase] at hhash
    rw [getAncestor, if_neg (by omega), Int.toNat_natCast, hhash]
  simp [visit, entryOf, key_of_mem_filed hm, getKey_minedKey hfits,
    less_minedKey (show 1 ≤ m.nMinedHeight by omega) hbound, nMinedHeight_minedKey hbound,
    not_lt.mpr hle, hlookup, hancestor]

/-- The loops end at what comes after the entries of the index. -/
lemma visit_beyond (h : Indexed c s) (hagrees : Agrees evoDb.read s.proc.chain nHeight)
    (hbyte : OneByte quorumIndex) {e : ByteStream × EvoValue}
    (he : e ∈ (evoDb.newIterator (minedKey llmqType quorumIndex nHeight).serialize).filter
      fun e => !(keyHead llmqType quorumIndex).isPrefixOf e.1) :
    visit s.proc.chain nHeight (minedKey llmqType quorumIndex nHeight)
      (minedKey llmqType quorumIndex 0) e = .stop := by
  obtain ⟨he, hnot⟩ := mem_filter.mp he
  obtain ⟨hread, hlo⟩ := (CEvoDB.listsFrom_newIterator _).mem_iff e.1 e.2 |>.mp he
  rw [visit]
  split
  case h_1 => rfl
  case h_2 curKey hkey =>
  rw [quorumIndex_minedKey] at hkey
  split
  case isTrue => rfl
  case isFalse hless =>
  split
  case isTrue => rfl
  case isFalse hname =>
  rw [not_or, not_not, not_not, name_minedKey, llmqType_minedKey] at hname
  split
  case isTrue => rfl
  case isFalse hheight =>
  exfalso
  -- the key is one of the type, and it is not above the height
  have hsame : ∀ {llmqType' quorumIndex' n}, FitsInt quorumIndex' → n < 2 ^ 32 →
      e.1 = (minedKey llmqType' quorumIndex' n).serialize →
        n ≤ nHeight ∧ llmqType' = llmqType ∧ ∃ index index', quorumIndex = some index ∧
          quorumIndex' = some index' ∧ index' ≤ index := by
    intro llmqType' quorumIndex' n hfits hn heq
    rw [heq] at hkey
    have hkind : quorumIndex.isSome = quorumIndex'.isSome := by
      by_contra hkind
      exact name_ne_of_kind hkind hkey hname.1
    rw [hkind, getKey_minedKey hfits] at hkey
    obtain rfl := Option.some.inj hkey
    rw [llmqType_minedKey] at hname
    rw [nMinedHeight_minedKey hn] at hheight
    obtain rfl := LLMQType.toUnderlying_injective hname.2
    refine ⟨not_lt.mp hheight, rfl, ?_⟩
    cases quorumIndex with
    | none =>
      cases quorumIndex' with
      | some => cases hkind
      | none =>
        rw [heq, keyHead_isPrefixOf] at hnot
        cases hnot
    | some index =>
      cases quorumIndex' with
      | none => cases hkind
      | some index' =>
        refine ⟨index, index', rfl, rfl, not_lt.mp fun hlt => ?_⟩
        rw [not_less_of_index_lt hlt] at hless
        simp at hless
  rcases hagrees.shape e.1 e.2 hread with hforeign |
    ⟨llmqType', quorumIndex', n, hfits, hlt, hn, heq⟩ | ⟨m, hmined, hle, heq⟩
  · exact name_ne_of_foreign hforeign hkey quorumIndex hname.1
  · have hle := (hsame hfits hn heq).1
    omega
  · -- a smaller index comes before
    have hbytes : e.1 = m.key := congrArg Prod.fst heq
    obtain ⟨-, htype, index, index', rfl, hslot, hindex⟩ :=
      hsame (h.fitsInt hmined) (h.nMinedHeight_lt hmined) hbytes
    obtain ⟨set, base, hplaced⟩ := h.placed m hmined
    have hbytes : e.1 = (minedKey llmqType (some index') m.nMinedHeight).serialize := by
      rw [hbytes, MinedAt.key, hslot, htype]
    rcases lt_or_eq_of_le hindex with hlt | rfl
    · have hpos : 0 ≤ index' := by
        have hbounds := hplaced.index_bounds
        split at hslot
        · cases hslot
          exact hbounds.1
        · cases hslot
      rw [hbytes] at hlo
      exact hlo (compare_serialize_of_index_lt hpos hlt (hbyte index rfl).2)
    · rw [hbytes, keyHead_isPrefixOf] at hnot
      cases hnot

variable (h : Indexed c s) (hagrees : Agrees evoDb.read s.proc.chain nHeight)
  (hheight : nHeight < s.proc.chain.length)

include h hagrees hheight

/-- **Types that do not rotate.** The answer are the base blocks of the commitments, the
newest first. -/
theorem getMinedCommitmentsUntilBlock_eq (hrotates : LLMQType.rotates llmqType = false)
    (maxCount : Nat) :
    getMinedCommitmentsUntilBlock evoDb s.proc.chain llmqType nHeight maxCount =
      some (((newestFirst s.proc.chain llmqType nHeight).map fun m => m.qc.quorumHash).take
        maxCount) := by
  have hfiled : filed s.proc.chain llmqType nHeight none =
      newestFirst s.proc.chain llmqType nHeight := by
    refine filter_eq_self.mpr fun m hm => ?_
    simp [MinedAt.slot, (mem_newestFirst.mp hm).2.2, hrotates]
  have hbounded := h.bounded
  have hbyte : OneByte none := nofun
  change collect (visit s.proc.chain nHeight (minedKey llmqType none nHeight)
    (minedKey llmqType none 0)) maxCount
      (evoDb.newIterator (minedKey llmqType none nHeight).serialize) = _
  rw [newIterator_eq_append h hagrees (by omega) hbyte, ← hfiled]
  exact collect_eq (fun m hm => visit_filed h hheight hm)
    (fun e he => visit_beyond h hagrees hbyte he) maxCount

/-- **One index.** The answer is the base block of the commitment that is as many cycles
back as asked for. -/
theorem getLastMinedCommitmentsByQuorumIndexUntilBlock_eq
    (hrotates : LLMQType.rotates llmqType = true) {index : Int} (hlo : 0 ≤ index)
    (hhi : index < 256) (cycle : Nat) :
    getLastMinedCommitmentsByQuorumIndexUntilBlock evoDb s.proc.chain llmqType nHeight index cycle =
      some (((withIndex s.proc.chain llmqType nHeight index).map
        fun m => m.qc.quorumHash)[cycle]?) := by
  have hfiled : filed s.proc.chain llmqType nHeight (some index) =
      withIndex s.proc.chain llmqType nHeight index := by
    refine filter_congr fun m hm => ?_
    simp [MinedAt.slot, (mem_newestFirst.mp hm).2.2, hrotates]
  have hbounded := h.bounded
  have hbyte : OneByte (some index) := by
    intro i hi
    cases hi
    exact ⟨hlo, hhi⟩
  change pick (visit s.proc.chain nHeight (minedKey llmqType (some index) nHeight)
    (minedKey llmqType (some index) 0)) cycle
      (evoDb.newIterator (minedKey llmqType (some index) nHeight).serialize) = _
  rw [newIterator_eq_append h hagrees (by omega) hbyte, ← hfiled]
  exact pick_eq (fun m hm => visit_filed h hheight hm)
    (fun e he => visit_beyond h hagrees hbyte he) cycle

variable {params : LLMQParams} (hrotates : LLMQType.rotates params.type = true)
  (hcount : params.signingActiveQuorumCount < 256)

include hrotates hcount

lemma getLastMinedCommitmentsPerQuorumIndexUntilBlock_eq (cycle : Nat) :
    getLastMinedCommitmentsPerQuorumIndexUntilBlock evoDb s.proc.chain params nHeight cycle =
      some ((range params.signingActiveQuorumCount).filterMap fun i : Nat =>
        ((withIndex s.proc.chain params.type nHeight i).map fun m => m.qc.quorumHash)[cycle]?.map
          fun quorumHash => (i, quorumHash)) := by
  refine collectIndexes_eq fun i hi => ?_
  have hi := mem_range.mp hi
  exact getLastMinedCommitmentsByQuorumIndexUntilBlock_eq h hagrees hheight hrotates (by omega)
    (by omega) cycle

/-- **All indexes.** The answer are the base blocks, row by row. -/
theorem getMinedCommitmentsIndexedUntilBlock_eq (maxCount : Nat) :
    getMinedCommitmentsIndexedUntilBlock evoDb s.proc.chain params nHeight maxCount =
      some (((rowMajor params.signingActiveQuorumCount fun i =>
        withIndex s.proc.chain params.type nHeight i).map fun m => m.qc.quorumHash).take
          maxCount) := by
  rw [← rowMajor_map]
  refine scanRows_eq (fun cycle => ?_) maxCount
  rw [getLastMinedCommitmentsPerQuorumIndexUntilBlock_eq h hagrees hheight hrotates hcount cycle,
    Option.map_some, map_filterMap]
  congr 1
  refine filterMap_congr fun i _ => ?_
  simp [Function.comp_def]

end Scans

end HootChain.Llmq.MinedIndex

import HootChain.Llmq.MinedIndex

/-!
# Runs of the Index of Mined Commitments (`llmq/blockprocessor.cpp`)

The index of mined commitments follows the active chain through every run: blocks are
connected and disconnected, other parts of the node use the same database, and transactions
are flushed to the disk.
-/

namespace HootChain.Llmq.MinedIndex

open Foundation Primitives List Function IndexState
open Evo (CEvoDB)
open Serialize Llmq.BlockProcessor

/-! ## The commitments of one block -/

section Blocks

variable {c : QuorumConsensus} {chain : QChain} {block : QBlock}

/-- A type that does not rotate has one commitment in a block. -/
lemma length_ofType_le {llmqs : LlmqTable} {nHeight : Int} {llmqType : LLMQType}
    {params : LLMQParams} (hparams : llmqs llmqType = some params)
    (hrotation : c.isQuorumRotationEnabled params nHeight = false) {ret qcs : List CFinalCommitment}
    {payloads : List (Option CFinalCommitment)} (hret : (ofType llmqType ret).length ≤ 1)
    (h : collectCommitments c llmqs nHeight ret payloads = .ok qcs) :
    (ofType llmqType qcs).length ≤ 1 := by
  induction payloads generalizing ret with
  | nil =>
    cases h
    exact hret
  | cons payload payloads ih =>
    obtain ⟨qc, params', rfl, hparams', hdup, hrest⟩ := collectCommitments_cons_eq_ok h
    refine ih ?_ hrest
    rw [ofType]
    by_cases htype : qc.llmqType = llmqType
    · -- no commitment of the type was there before
      rw [htype, hparams] at hparams'
      cases hparams'
      have hnone : ret.filter (·.llmqType = llmqType) = [] :=
        filter_eq_nil_iff.mpr fun qc' hmem => by simpa [htype] using hdup hrotation qc' hmem
      simp [hnone, htype]
    · rw [ofType] at hret
      simpa [htype] using hret

lemma mem_minedIn {nMinedHeight : Nat} {m : MinedAt} :
    m ∈ minedIn nMinedHeight block ↔
      m.nMinedHeight = nMinedHeight ∧ m.qc ∈ block.commitments ∧ m.qc.isNull = false := by
  simp only [minedIn, mem_map, mem_filter, mem_inMapOrder, Bool.not_eq_true']
  constructor
  · rintro ⟨qc, ⟨hmem, hnull⟩, rfl⟩
    exact ⟨rfl, hmem, hnull⟩
  · rintro ⟨rfl, hmem, hnull⟩
    exact ⟨m.qc, ⟨hmem, hnull⟩, rfl⟩

/-- What the connection of a block says about its commitments. -/
structure BlockPlaced (c : QuorumConsensus) (chain : QChain) (block : QBlock) : Prop where
  placed : ∀ m ∈ minedIn chain.length block, ∃ set base, Placed c chain m.qc set base
  single : ∀ m ∈ minedIn chain.length block, ∀ m' ∈ minedIn chain.length block,
    m.qc.llmqType = m'.qc.llmqType → LLMQType.rotates m.qc.llmqType = false → m = m'
  records : block.records.Nodup

lemma map_record_minedIn (nMinedHeight : Nat) (block : QBlock) :
    (minedIn nMinedHeight block).map (fun m => (m.qc.llmqType, m.qc.quorumHash)) =
      block.records := by
  rw [minedIn, QBlock.records]
  induction inMapOrder block.commitments with
  | nil => rfl
  | cons qc qcs ih =>
    cases hnull : qc.isNull <;> simpa [hnull, recordOf] using ih

lemma BlockPlaced.of_mem (h : BlockPlaced c chain block) {llmqs : LlmqTable}
    (htypes : ∀ m ∈ minedIn chain.length block, ∃ params, llmqs m.qc.llmqType = some params) :
    ∀ qc ∈ inMapOrder block.commitments, qc.isNull = false →
      (∃ params, llmqs qc.llmqType = some params) ∧ ∃ set base, Placed c chain qc set base := by
  intro qc hmem hnull
  have hm : (⟨chain.length, qc⟩ : MinedAt) ∈ minedIn chain.length block :=
    mem_minedIn.mpr ⟨rfl, mem_inMapOrder.mp hmem, hnull⟩
  exact ⟨htypes _ hm, h.placed _ hm⟩

/-- The commitments of a block have different keys. -/
lemma BlockPlaced.keys_nodup (h : BlockPlaced c chain block) (hlength : chain.length < 2 ^ 32) :
    ((minedIn chain.length block).map MinedAt.key).Nodup := by
  have hrecords : ((minedIn chain.length block).map
      fun m => (m.qc.llmqType, m.qc.quorumHash)).Nodup := by
    rw [map_record_minedIn]
    exact h.records
  refine List.Nodup.map_on ?_ hrecords.of_map
  intro m hm m' hm' hkey
  obtain ⟨set, base, hplaced⟩ := h.placed m hm
  obtain ⟨set', base', hplaced'⟩ := h.placed m' hm'
  have hheight := (mem_minedIn.mp hm).1
  have hheight' := (mem_minedIn.mp hm').1
  obtain ⟨htype, hindex, -⟩ := serialize_injective hplaced.fitsInt hplaced'.fitsInt
    (hheight ▸ hlength) (hheight' ▸ hlength) hkey
  cases hrotates : LLMQType.rotates m.qc.llmqType with
  | false => exact h.single m hm m' hm' htype hrotates
  | true =>
    -- the index determines the base block
    rw [← htype, hrotates, if_pos rfl, if_pos rfl, Option.some.injEq] at hindex
    have hinterval := dkgInterval_eq_of_rotates set hplaced.set_mem set' hplaced'.set_mem
      (by rw [hplaced.set_type, hplaced'.set_type, htype]) (hplaced.set_type ▸ hrotates)
    have hbase : base = base' := by
      have hbase := hplaced.base_eq
      have hbase' := hplaced'.base_eq
      rw [← hinterval] at hbase'
      omega
    have hhash : m.qc.quorumHash = m'.qc.quorumHash :=
      Option.some.inj (hplaced.onChain.symm.trans (hbase ▸ hplaced'.onChain))
    exact inj_on_of_nodup_map hrecords hm hm' (Prod.ext htype hhash)

/-- A block that is connected places its commitments, and its table has their types. -/
lemma blockPlaced_of_ok {s : ProcState} {view : TableView} {fBLSChecks : Bool} {mined : Mined}
    (hs : s.Consistent) (hnodup : (s.chain.map QBlock.hash).Nodup)
    (hspecial : checkSpecialTxs c s.chain block = true)
    (hrun : runs (processBlock c (view.onChain c s.chain) s.chain block false fBLSChecks) s.mined =
      (.ok (), mined)) :
    BlockPlaced c s.chain block ∧
      ∀ m ∈ minedIn s.chain.length block, ∃ params, view.llmqs m.qc.llmqType = some params := by
  have hadded := hs.added hspecial hrun
  by_cases hdip : c.dip0003Height ≤ s.chain.length
  · obtain ⟨hcollected, hchecked⟩ := processed_of_ok hdip hrun
    have hmined : ∀ m ∈ minedIn s.chain.length block, ∃ params base,
        Checked c (view.onChain c s.chain) s.chain fBLSChecks m.qc params base := by
      intro m hm
      obtain ⟨-, hmem, hnull⟩ := mem_minedIn.mp hm
      exact hchecked m.qc (mem_inMapOrder.mpr hmem) hnull
    have hplaced : ∀ m ∈ minedIn s.chain.length block, ∃ set base, Placed c s.chain m.qc set base := by
      intro m hm
      obtain ⟨params, base, hm⟩ := hmined m hm
      obtain ⟨set, n, hset, -⟩ := placed_of_checked hnodup hm
      exact ⟨set, n, hset⟩
    refine ⟨⟨hplaced, ?_, hadded.nodup⟩, fun m hm => ?_⟩
    · intro m hm m' hm' htype hrotates
      obtain ⟨params, base, hm_checked⟩ := hmined m hm
      obtain ⟨set, n, hm_placed⟩ := hplaced m hm
      have hrotation := (hm_placed.isQuorumRotationEnabled view.scheduled hm_checked.params_eq).2
      obtain ⟨ret, hret, hcollect⟩ := bind_eq_ok.mp hcollected
      have hqcs : ret = block.commitments := by
        rw [collectCommitments_eq_ok hret]
        rfl
      have hone := length_ofType_le hm_checked.params_eq (hrotation.trans hrotates)
        (by simp [ofType]) hret
      rw [hqcs] at hone
      obtain ⟨hheight, hmem, -⟩ := mem_minedIn.mp hm
      obtain ⟨hheight', hmem', -⟩ := mem_minedIn.mp hm'
      have hm_mem : m.qc ∈ ofType m.qc.llmqType block.commitments := by
        simp [ofType, hmem]
      have hm_mem' : m'.qc ∈ ofType m.qc.llmqType block.commitments := by
        simp [ofType, hmem', htype]
      have hqc : m.qc = m'.qc := by
        obtain ⟨qc, hqc⟩ := length_eq_one_iff.mp (le_antisymm hone (length_pos_of_mem hm_mem))
        rw [hqc, mem_singleton] at hm_mem hm_mem'
        rw [hm_mem, hm_mem']
      cases m
      cases m'
      simp_all only
    · obtain ⟨params, base, hm⟩ := hmined m hm
      exact ⟨params, hm.params_eq⟩
  · -- a block before DIP0003 has no commitments
    have hpayloads : block.payloads = [] := by simpa [checkSpecialTxs, hdip] using hspecial
    have hnone : ∀ m, m ∉ minedIn s.chain.length block := by
      intro m hm
      have hmem := (mem_minedIn.mp hm).2.1
      simp [QBlock.commitments, hpayloads] at hmem
    exact ⟨⟨fun m hm => absurd hm (hnone m), fun m hm => absurd hm (hnone m), hadded.nodup⟩,
      fun m hm => absurd hm (hnone m)⟩

end Blocks

/-! ## All runs -/

section Runs

variable {c : QuorumConsensus} {s : IndexState} {chain : QChain} {block : QBlock}

lemma allMined_append (chain : QChain) (block : QBlock) :
    allMined (chain ++ [block]) = allMined chain ++ minedIn chain.length block := by
  simp [allMined, zipIdx_append]

variable {m : MinedAt} {hash : Uint256} {base : Int} {n nHeight : Nat}
  {f : CEvoDB EvoValue → CFinalCommitment → CEvoDB EvoValue}

lemma nMinedHeight_lt (hm : m ∈ allMined chain) : m.nMinedHeight < chain.length := by
  obtain ⟨⟨block, h⟩, hmem, hm⟩ := mem_flatMap.mp hm
  rw [(mem_minedIn.mp hm).1]
  simpa using (mem_zipIdx hmem).2.1

/-- The index holds exactly the commitments that are mined on the active chain. -/
structure Indexed (c : QuorumConsensus) (s : IndexState) : Prop where
  consistent : s.proc.Consistent
  hashes : (s.proc.chain.map QBlock.hash).Nodup
  bounded : s.proc.chain.length ≤ 2 ^ 31
  placed : ∀ m ∈ allMined s.proc.chain, ∃ set base,
    Placed c (s.proc.chain.take m.nMinedHeight) m.qc set base
  keys : ((allMined s.proc.chain).map MinedAt.key).Nodup
  read_iff : ∀ bytes value, Foreign bytes = false →
    (s.evoDb.read bytes = some value ↔
      (bytes, value) ∈ (allMined s.proc.chain).map (entryOf s.proc.chain))
  clean : s.evoDb.curDBTransaction = .clean

lemma indexed_start (genesis : NonNullHash) : Indexed c (.start genesis) where
  consistent := consistent_start
  hashes := by simp [start, ProcState.start]
  bounded := by simp [start, ProcState.start]
  placed m hm := by cases hm
  keys := nodup_nil
  read_iff bytes value _ := by
    have hempty : allMined (start genesis).proc.chain = [] := rfl
    rw [hempty]
    simp [start, CEvoDB.read, CEvoDB.rootRead]
  clean := rfl

lemma lookup_append (block : QBlock) (h : lookupBlockIndex chain hash = some base) :
    lookupBlockIndex (chain ++ [block]) hash = some base := by
  obtain ⟨n, hn, rfl⟩ := Option.map_eq_some_iff.mp h
  rw [lookupBlockIndex, findIdx?_append, hn]
  rfl

lemma lookup_take (h : lookupBlockIndex (chain.take n) hash = some base) :
    lookupBlockIndex chain hash = some base := by
  obtain ⟨i, hi, rfl⟩ := Option.map_eq_some_iff.mp h
  have hsplit : chain.findIdx? (fun block => block.hash = hash) = some i := by
    conv_lhs => rw [← take_append_drop n chain]
    rw [findIdx?_append, hi]
    rfl
  rw [lookupBlockIndex, hsplit]
  rfl

namespace Indexed

lemma map_fst_entryOf (chain : QChain) (l : List MinedAt) :
    (l.map (entryOf chain)).map Prod.fst = l.map MinedAt.key := by
  simp [entryOf, comp_def]

variable {m : MinedAt} {mined : Mined} {evoDb : CEvoDB EvoValue} (h : Indexed c s)

include h

/-- The base block of a mined commitment is found on the chain. -/
lemma lookup {set : LLMQParams} {base : Nat}
    (hplaced : Placed c (s.proc.chain.take m.nMinedHeight) m.qc set base) :
    lookupBlockIndex s.proc.chain m.qc.quorumHash = some (base : Int) := by
  refine lookup_take (hplaced.lookup ?_)
  rw [map_take]
  exact h.hashes.sublist (take_sublist _ _)

lemma entryOf_append (block : QBlock) (hm : m ∈ allMined s.proc.chain) :
    entryOf (s.proc.chain ++ [block]) m = entryOf s.proc.chain m := by
  obtain ⟨set, base, hplaced⟩ := h.placed m hm
  have hlookup := h.lookup hplaced
  rw [entryOf, entryOf, hlookup, lookup_append block hlookup]

/-- The keys of a block are new, as its height is. -/
lemma key_ne (hblock : BlockPlaced c s.proc.chain block) {m' : MinedAt}
    (hm : m ∈ allMined s.proc.chain) (hm' : m' ∈ minedIn s.proc.chain.length block) :
    m.key ≠ m'.key := by
  intro hkey
  obtain ⟨set, base, hplaced⟩ := h.placed m hm
  obtain ⟨set', base', hplaced'⟩ := hblock.placed m' hm'
  have hbounded := h.bounded
  have hlt := nMinedHeight_lt hm
  have hheight := (mem_minedIn.mp hm').1
  have hsame := (serialize_injective hplaced.fitsInt hplaced'.fitsInt (by omega) (by omega)
    hkey).2.2
  omega

section

variable (hclean : evoDb.curDBTransaction = .clean)

include hclean

/-- A block adds its commitments. -/
lemma append (hlength : s.proc.chain.length < 2 ^ 31)
    (hnew : block.hash ∉ s.proc.chain.map QBlock.hash)
    (hconsistent : (⟨s.proc.chain ++ [block], mined⟩ : ProcState).Consistent)
    (hblock : BlockPlaced c s.proc.chain block)
    (hread : evoDb.read =
      writeAll ((minedIn s.proc.chain.length block).map (entryOf s.proc.chain)) s.evoDb.read) :
    Indexed c ⟨⟨s.proc.chain ++ [block], mined⟩, evoDb⟩ := by
  have hnewKeys := hblock.keys_nodup (by omega)
  -- the quorums of the block begin on the chain below it
  have hentries : ∀ m ∈ minedIn s.proc.chain.length block,
      entryOf (s.proc.chain ++ [block]) m = entryOf s.proc.chain m := by
    intro m hm
    obtain ⟨set, base, hplaced⟩ := hblock.placed m hm
    have hlookup := hplaced.lookup h.hashes
    rw [entryOf, entryOf, hlookup, lookup_append block hlookup]
  refine ⟨hconsistent, ?_, ?_, ?_, ?_, ?_, hclean⟩
  · simpa using h.hashes.append (nodup_singleton block.hash) (by simpa using hnew)
  · simp only [length_append, length_singleton]
    omega
  · intro m hm
    rw [allMined_append, mem_append] at hm
    rcases hm with hm | hm
    · rw [take_append_of_le_length (nMinedHeight_lt hm).le]
      exact h.placed m hm
    · rw [(mem_minedIn.mp hm).1, take_left]
      exact hblock.placed m hm
  · rw [allMined_append, map_append]
    refine h.keys.append hnewKeys ?_
    intro key hmem hmem'
    obtain ⟨m, hm, rfl⟩ := mem_map.mp hmem
    obtain ⟨m', hm', heq⟩ := mem_map.mp hmem'
    exact h.key_ne hblock hm hm' heq.symm
  · intro bytes value hforeign
    have hkeysNodup : (((minedIn s.proc.chain.length block).map
        (entryOf s.proc.chain)).map Prod.fst).Nodup := by
      rwa [map_fst_entryOf]
    rw [hread, writeAll_eq_some_iff hkeysNodup, map_fst_entryOf, h.read_iff bytes value hforeign,
      allMined_append, map_append, mem_append,
      map_congr_left fun m hm => h.entryOf_append block hm, map_congr_left hentries,
      or_comm]
    refine or_congr_left ⟨fun hmem => hmem.2, fun hmem => ⟨fun hkey => ?_, hmem⟩⟩
    obtain ⟨m, hm, heq⟩ := mem_map.mp hmem
    obtain ⟨m', hm', hkey⟩ := mem_map.mp hkey
    exact h.key_ne hblock hm hm' ((congrArg Prod.fst heq).trans hkey.symm)

/-- Disconnecting the last block removes its commitments. -/
lemma dropLast (hchain : s.proc.chain = chain ++ [block])
    (hconsistent : (⟨chain, mined⟩ : ProcState).Consistent)
    (hread : evoDb.read = eraseAll ((minedIn chain.length block).map MinedAt.key) s.evoDb.read) :
    Indexed c ⟨⟨chain, mined⟩, evoDb⟩ := by
  have hmined : allMined s.proc.chain = allMined chain ++ minedIn chain.length block := by
    rw [hchain, allMined_append]
  have hplaced : ∀ m ∈ allMined chain,
      ∃ set base, Placed c (chain.take m.nMinedHeight) m.qc set base := by
    intro m hm
    have hold := h.placed m (hmined ▸ mem_append_left _ hm)
    rwa [hchain, take_append_of_le_length (nMinedHeight_lt hm).le] at hold
  have hhashes : (chain.map QBlock.hash).Nodup := by
    have hnodup := h.hashes
    rw [hchain, map_append] at hnodup
    exact hnodup.of_append_left
  have hentries : ∀ m ∈ allMined chain, entryOf s.proc.chain m = entryOf chain m := by
    intro m hm
    obtain ⟨set, base, hm⟩ := hplaced m hm
    have hlookup : lookupBlockIndex chain m.qc.quorumHash = some (base : Int) :=
      lookup_take (hm.lookup (by rw [map_take]; exact hhashes.sublist (take_sublist _ _)))
    rw [hchain, entryOf, entryOf, hlookup, lookup_append block hlookup]
  have hkeys := h.keys
  rw [hmined, map_append, nodup_append] at hkeys
  obtain ⟨hkept, -, hdisjoint⟩ := hkeys
  refine ⟨hconsistent, hhashes, ?_, hplaced, hkept, ?_, hclean⟩
  · have hbounded := h.bounded
    rw [hchain, length_append] at hbounded
    exact (Nat.le_add_right _ _).trans hbounded
  · intro bytes value hforeign
    rw [hread, eraseAll_eq_some_iff, h.read_iff bytes value hforeign, hmined, map_append,
      mem_append, map_congr_left hentries]
    constructor
    · rintro ⟨hkey, hmem | hmem⟩
      · exact hmem
      · obtain ⟨m, hm, heq⟩ := mem_map.mp hmem
        exact absurd (mem_map.mpr ⟨m, hm, congrArg Prod.fst heq⟩) hkey
    · intro hmem
      refine ⟨fun hkey => ?_, .inl hmem⟩
      obtain ⟨m, hm, heq⟩ := mem_map.mp hmem
      exact hdisjoint bytes (mem_map.mpr ⟨m, hm, congrArg Prod.fst heq⟩) bytes hkey rfl

/-- Nothing changes for the index. -/
lemma of_read {proc : ProcState} (hconsistent : proc.Consistent)
    (hchain : proc.chain = s.proc.chain)
    (hread : ∀ bytes, Foreign bytes = false → evoDb.read bytes = s.evoDb.read bytes) :
    Indexed c ⟨proc, evoDb⟩ := by
  refine ⟨hconsistent, ?_, ?_, ?_, ?_, ?_, hclean⟩ <;> dsimp only <;> rw [hchain]
  · exact h.hashes
  · exact h.bounded
  · exact h.placed
  · exact h.keys
  · intro bytes value hforeign
    rw [hread bytes hforeign]
    exact h.read_iff bytes value hforeign

end

end Indexed

/-! ## One event -/

lemma step_connect_cases (c : QuorumConsensus) (s : ProcState) (view : QuorumView) (block : QBlock)
    (fBLSChecks laterChecks : Bool) :
    (s.step c (.connect view block fBLSChecks laterChecks)).chain = s.chain ∨
      ∃ mined, block.hash ∉ s.chain.map QBlock.hash ∧ checkSpecialTxs c s.chain block = true ∧
        runs (processBlock c view s.chain block false fBLSChecks) s.mined = (.ok (), mined) ∧
        s.step c (.connect view block fBLSChecks laterChecks) = ⟨s.chain ++ [block], mined⟩ := by
  rw [ProcState.step]
  split
  case isTrue => exact .inl rfl
  case isFalse hguard =>
  rw [not_or, not_not] at hguard
  split
  case h_1 mined hrun =>
    split
    case isTrue => exact .inr ⟨mined, hguard.1, hguard.2, hrun, rfl⟩
    case isFalse => exact .inl rfl
  case h_2 => exact .inl rfl

lemma step_disconnect_cases (c : QuorumConsensus) (s : ProcState) (view : QuorumView) :
    s.step c (.disconnect view) = s ∨
      ∃ block mined, s.chain.getLast? = some block ∧
        getCommitmentsFromBlock c view.llmqs (QChain.height s.chain) block =
          .ok block.commitments ∧
        s.step c (.disconnect view) = ⟨s.chain.dropLast, mined⟩ := by
  rw [ProcState.step]
  split
  case h_1 => exact .inl rfl
  case h_2 block hlast =>
  split
  case isTrue => exact .inl rfl
  split
  case h_1 => exact .inl rfl
  case h_2 mined hundo =>
    refine .inr ⟨block, mined, hlast, ?_, rfl⟩
    rw [undoBlock] at hundo
    split at hundo
    · cases hundo
    case h_2 qcs hqcs => rw [hqcs, getCommitmentsFromBlock_eq_ok hqcs]

lemma collected_types {llmqs : LlmqTable} {nHeight : Int} {ret qcs : List CFinalCommitment}
    {payloads : List (Option CFinalCommitment)}
    (h : collectCommitments c llmqs nHeight ret payloads = .ok qcs) :
    ∀ qc ∈ payloads.filterMap id, ∃ params, llmqs qc.llmqType = some params := by
  induction payloads generalizing ret with
  | nil => exact nofun
  | cons payload payloads ih =>
    obtain ⟨qc, params, rfl, hparams, -, hrest⟩ := collectCommitments_cons_eq_ok h
    exact forall_mem_cons.mpr ⟨⟨params, hparams⟩, ih hrest⟩

/-- The current transaction gets a change to the key of a block at a height, or none. -/
structure ChangesAt (nHeight : Nat) (evoDb evoDb' : CEvoDB EvoValue) : Prop where
  rootRead : evoDb'.rootRead = evoDb.rootRead
  read : evoDb'.read = evoDb.read ∨ ∃ llmqType quorumIndex value, evoDb'.read =
    update evoDb.read (minedKey llmqType quorumIndex nHeight).serialize value

section

variable (evoDb : CEvoDB EvoValue)

lemma changesAt_recordMined (llmqs : LlmqTable) (chain : QChain) (qc : CFinalCommitment) :
    ChangesAt chain.length evoDb (recordMined c llmqs chain evoDb qc) := by
  rw [recordMined]
  split
  · exact ⟨rfl, .inl rfl⟩
  split
  · exact ⟨rfl, .inr ⟨_, _, _, CEvoDB.read_write ..⟩⟩
  · exact ⟨rfl, .inl rfl⟩

lemma changesAt_eraseMined (llmqs : LlmqTable) (nHeight : Nat) (qc : CFinalCommitment) :
    ChangesAt nHeight evoDb (eraseMined c llmqs nHeight evoDb qc) := by
  rw [eraseMined]
  split
  · exact ⟨rfl, .inl rfl⟩
  split
  · exact ⟨rfl, .inr ⟨_, _, _, CEvoDB.read_erase ..⟩⟩
  · exact ⟨rfl, .inl rfl⟩

lemma rootRead_foldl (hf : ∀ evoDb qc, ChangesAt nHeight evoDb (f evoDb qc))
    (qcs : List CFinalCommitment) : (qcs.foldl f evoDb).rootRead = evoDb.rootRead :=
  foldlRecOn (motive := (·.rootRead = evoDb.rootRead)) qcs f rfl fun e he qc _ =>
    (hf e qc).rootRead.trans he

lemma read_foldl_changeOther (changes : List (ByteStream × Option EvoValue)) {bytes : ByteStream}
    (hforeign : Foreign bytes = false) :
    (changes.foldl changeOther evoDb).read bytes = evoDb.read bytes := by
  refine foldlRecOn (motive := (·.read bytes = evoDb.read bytes)) changes changeOther rfl
    fun e he change _ => ?_
  rw [changeOther]
  split
  case isFalse => exact he
  case isTrue hother =>
    have hne : bytes ≠ change.1 := fun heq => by simp [heq, hother] at hforeign
    split
    · rw [CEvoDB.read_write, update_of_ne hne, he]
    · rw [CEvoDB.read_erase, update_of_ne hne, he]

end

lemma Indexed.rootRead_eq (h : Indexed c s) : s.evoDb.rootRead = s.evoDb.read := by
  rw [CEvoDB.read, h.clean, Transaction.read_clean]

lemma Indexed.connect (h : Indexed c s) (view : TableView) (block : QBlock)
    (fBLSChecks laterChecks : Bool) :
    Indexed c (s.step c (.connect view block fBLSChecks laterChecks)) := by
  have hconsistent := @consistent_step c _ h.consistent
    (.connect (view.onChain c s.proc.chain) block fBLSChecks laterChecks)
  rw [step]
  split
  case isTrue => exact h
  case isFalse hlength =>
  have hcases := step_connect_cases c s.proc (view.onChain c s.proc.chain) block fBLSChecks laterChecks
  generalize s.proc.step c (.connect (view.onChain c s.proc.chain) block fBLSChecks laterChecks) = proc
    at hconsistent hcases ⊢
  rcases hcases with hchain | ⟨mined, hnew, hspecial, hrun, rfl⟩
  · rw [if_neg (by rw [hchain]; exact lt_irrefl _)]
    refine h.of_read rfl hconsistent hchain fun bytes _ => ?_
    rw [CEvoDB.read_rollbackCurTransaction, connecting,
      rootRead_foldl _ (changesAt_recordMined · _ _), h.rootRead_eq]
  · rw [if_pos (by simp)]
    obtain ⟨hblock, htypes⟩ := blockPlaced_of_ok h.consistent h.hashes hspecial hrun
    refine h.append rfl (not_le.mp hlength) hnew hconsistent hblock ?_
    rw [CEvoDB.read_commitCurTransaction, connecting,
      read_foldl_recordMined view.scheduled (hblock.of_mem htypes) _ h.hashes]
    rfl

lemma Indexed.disconnect (h : Indexed c s) (view : TableView) :
    Indexed c (s.step c (.disconnect view)) := by
  have hconsistent := @consistent_step c _ h.consistent (.disconnect view.toQuorumView)
  rw [step]
  have hcases := step_disconnect_cases c s.proc view.toQuorumView
  generalize s.proc.step c (.disconnect view.toQuorumView) = proc at hconsistent hcases ⊢
  rcases hcases with rfl | ⟨block, mined, hlast, hcollected, rfl⟩
  · rw [if_neg (lt_irrefl _)]
    refine h.of_read rfl hconsistent rfl fun bytes _ => ?_
    rw [CEvoDB.read_rollbackCurTransaction, disconnecting,
      rootRead_foldl _ (changesAt_eraseMined · _ _), h.rootRead_eq]
  · have hchain : s.proc.chain = s.proc.chain.dropLast ++ [block] :=
      (dropLast_append_getLast? block hlast).symm
    have hlength : s.proc.chain.length = s.proc.chain.dropLast.length + 1 := by
      conv_lhs => rw [hchain]
      simp
    rw [if_pos (by dsimp only; omega)]
    refine h.dropLast rfl hchain hconsistent ?_
    have hheight : s.proc.chain.length - 1 = s.proc.chain.dropLast.length := by omega
    have hcommitments : lastCommitments s.proc.chain = inMapOrder block.commitments := by
      rw [lastCommitments, hlast]
      rfl
    rw [CEvoDB.read_commitCurTransaction, disconnecting, hheight, hcommitments,
      read_foldl_eraseMined view.scheduled]
    · rfl
    · intro qc hmem hnull
      have hmem := mem_inMapOrder.mp hmem
      obtain ⟨ret, hret, -⟩ := bind_eq_ok.mp hcollected
      refine ⟨collected_types hret qc hmem, ?_⟩
      have hm : (⟨s.proc.chain.dropLast.length, qc⟩ : MinedAt) ∈ allMined s.proc.chain := by
        rw [hchain, allMined_append]
        exact mem_append_right _ (mem_minedIn.mpr ⟨by simp, hmem, hnull⟩)
      have hplaced := h.placed _ hm
      rwa [hchain, dropLast_concat, take_left] at hplaced

lemma Indexed.step (h : Indexed c s) (event : IndexEvent) : Indexed c (s.step c event) := by
  cases event with
  | connect view block fBLSChecks laterChecks => exact h.connect view block fBLSChecks laterChecks
  | justCheck view block fBLSChecks =>
    exact h.of_read h.clean (consistent_step h.consistent _) rfl fun _ _ => rfl
  | disconnect view => exact h.disconnect view
  | query | evict => exact h.of_read h.clean (consistent_step h.consistent _) rfl fun _ _ => rfl
  | others changes =>
    refine h.of_read rfl h.consistent rfl fun bytes hforeign => ?_
    rw [CEvoDB.read_commitCurTransaction, read_foldl_changeOther _ _ hforeign]
  | flush =>
    exact h.of_read (by exact h.clean) h.consistent rfl fun _ _ => by
      rw [CEvoDB.read_commitRootTransaction]
  | restart =>
    exact h.of_read (by exact h.clean) (consistent_step h.consistent _) rfl fun _ _ => by
      rw [CEvoDB.read_commitRootTransaction]

/-- **The index.** In every run the index holds exactly the commitments that are mined on the
active chain, each for a quorum of the cycle in whose mining phase it is mined. -/
theorem indexed_run (c : QuorumConsensus) (genesis : NonNullHash)
    (events : List IndexEvent) : Indexed c (run c genesis events) :=
  foldlRecOn events (step c) (indexed_start genesis) fun _ h event _ => h.step event

/-! ## Undoing a block -/

/-- What `ProcessCommitment` writes for a block by quorum hash: the commitments, with the hash
of the block. -/
def minedRecords (block : QBlock) : List (MinedKey × CFinalCommitment × Uint256) :=
  (minedIn 0 block).map fun m => ((m.qc.llmqType, m.qc.quorumHash), m.qc, block.hash)

lemma map_fst_minedRecords (block : QBlock) :
    (minedRecords block).map Prod.fst = block.records := by
  rw [minedRecords, map_map, ← map_record_minedIn 0 block]
  rfl

/-- `UndoBlock` does not fail for a block that was processed. -/
lemma undoBlock_of_ok {view view' : QuorumView} {fBLSChecks : Bool} {mined mined' : Mined}
    (hspecial : checkSpecialTxs c chain block = true)
    (hrun : runs (processBlock c view' chain block false fBLSChecks) mined = (.ok (), mined'))
    (hllmqs : view'.llmqs = view.llmqs) :
    undoBlock c view chain.length block mined' = some (block.records.foldl CachedSet.remove mined') := by
  have hcollected : getCommitmentsFromBlock c view.llmqs chain.length block =
      .ok block.commitments := by
    by_cases hdip : c.dip0003Height ≤ chain.length
    · exact hllmqs ▸ (processed_of_ok hdip hrun).1
    · have hpayloads : block.payloads = [] := by simpa [checkSpecialTxs, hdip] using hspecial
      rw [getCommitmentsFromBlock, QBlock.commitments, hpayloads]
      simp [collectCommitments]
  rw [undoBlock, hcollected]
  rfl

/-- **Undoing a block.** The records are as they were before a block that is processed and
then undone with the same table: those by quorum hash, which hold the commitment and the
block, and those of the index. -/
theorem undoBlock_restores (c : QuorumConsensus) (genesis : NonNullHash)
    (events : List IndexEvent) (view : TableView) (block : QBlock) (fBLSChecks : Bool)
    (mined : Mined) (hspecial : checkSpecialTxs c (run c genesis events).proc.chain block = true)
    (hrun : runs (processBlock c (view.onChain c (run c genesis events).proc.chain)
      (run c genesis events).proc.chain block false fBLSChecks)
        (run c genesis events).proc.mined = (.ok (), mined)) :
    let s := run c genesis events
    let qcs := inMapOrder block.commitments
    (∃ mined', undoBlock c view.toQuorumView s.proc.chain.length block mined = some mined' ∧
      mined'.contents = s.proc.mined.contents) ∧
    (∀ records : MinedKey → Option (CFinalCommitment × Uint256),
      (∀ key, (records key).isSome = s.proc.mined.contents key) →
        eraseAll block.records (writeAll (minedRecords block) records) = records) ∧
    (qcs.foldl (eraseMined c view.llmqs s.proc.chain.length)
      (connecting c s view.llmqs qcs)).read = s.evoDb.read := by
  have h := indexed_run c genesis events
  intro s qcs
  have hadded := h.consistent.added hspecial hrun
  obtain ⟨hblock, htypes⟩ := blockPlaced_of_ok h.consistent h.hashes hspecial hrun
  refine ⟨⟨_, undoBlock_of_ok hspecial hrun rfl, ?_⟩, fun records hrecords => ?_, ?_⟩
  · -- what the block records was not recorded before it
    funext key
    rw [Bool.eq_iff_iff, CachedSet.contents_foldl_remove, hadded.contents]
    constructor
    · rintro ⟨hold | hkey, hnot⟩
      · exact hold
      · exact absurd hkey hnot
    · intro hold
      refine ⟨.inl hold, fun hkey => ?_⟩
      rw [hadded.unmined key hkey] at hold
      cases hold
  · rw [← map_fst_minedRecords]
    refine eraseAll_writeAll (map_fst_minedRecords block ▸ hadded.nodup) fun key hkey => ?_
    rw [map_fst_minedRecords] at hkey
    exact Option.not_isSome_iff_eq_none.mp (by rw [hrecords, hadded.unmined key hkey]; decide)
  · have hplaced := hblock.of_mem htypes
    have hbounded := h.bounded
    rw [read_foldl_eraseMined view.scheduled hplaced, connecting,
      read_foldl_recordMined view.scheduled hplaced _ h.hashes, ← Indexed.map_fst_entryOf s.proc.chain]
    refine eraseAll_writeAll ?_ fun key hkey => ?_
    · rw [Indexed.map_fst_entryOf]
      exact hblock.keys_nodup (by omega)
    · rw [Indexed.map_fst_entryOf] at hkey
      obtain ⟨m, hm, rfl⟩ := mem_map.mp hkey
      refine Option.eq_none_iff_forall_ne_some.mpr fun value hread => ?_
      obtain ⟨m', hm', heq⟩ := mem_map.mp ((h.read_iff m.key value not_foreign_minedKey).mp hread)
      exact h.key_ne hblock hm' hm (congrArg Prod.fst heq)

/-! ## In the middle of a block -/

/-- Up to a height the records are those of the chain. -/
structure Agrees (read : ByteStream → Option EvoValue) (chain : QChain) (nHeight : Nat) : Prop where
  shape : ∀ bytes value, read bytes = some value → Foreign bytes = true ∨
    (∃ llmqType quorumIndex h, FitsInt quorumIndex ∧ nHeight < h ∧ h < 2 ^ 32 ∧
      bytes = (minedKey llmqType quorumIndex h).serialize) ∨
    ∃ m ∈ allMined chain, m.nMinedHeight ≤ nHeight ∧ (bytes, value) = entryOf chain m
  has : ∀ m ∈ allMined chain, m.nMinedHeight ≤ nHeight → read m.key = some (entryOf chain m).2

variable (h : Indexed c s)

include h

lemma Indexed.fitsInt (hm : m ∈ allMined s.proc.chain) :
    FitsInt (if LLMQType.rotates m.qc.llmqType then some m.qc.quorumIndex else none) := by
  obtain ⟨set, base, hplaced⟩ := h.placed m hm
  exact hplaced.fitsInt

lemma Indexed.nMinedHeight_lt (hm : m ∈ allMined s.proc.chain) : m.nMinedHeight < 2 ^ 32 := by
  have hlt := MinedIndex.nMinedHeight_lt hm
  have hbounded := h.bounded
  omega

lemma Indexed.agrees (nHeight : Nat) : Agrees s.evoDb.read s.proc.chain nHeight := by
  refine ⟨fun bytes value hread => ?_, fun m hm _ => ?_⟩
  · cases hforeign : Foreign bytes with
    | true => exact .inl rfl
    | false =>
      obtain ⟨m, hm, heq⟩ := mem_map.mp ((h.read_iff bytes value hforeign).mp hread)
      by_cases hheight : m.nMinedHeight ≤ nHeight
      · exact .inr (.inr ⟨m, hm, hheight, heq.symm⟩)
      · exact .inr (.inl ⟨_, _, m.nMinedHeight, h.fitsInt hm, not_le.mp hheight,
          h.nMinedHeight_lt hm, (congrArg Prod.fst heq).symm⟩)
  · exact (h.read_iff m.key _ not_foreign_minedKey).mpr (mem_map.mpr ⟨m, hm, rfl⟩)

/-- Changes for blocks above the height. -/
lemma Indexed.agrees_update {read : ByteStream → Option EvoValue}
    (hagrees : Agrees read s.proc.chain nHeight) (hlt : nHeight < n) (hn : n < 2 ^ 32)
    (llmqType : LLMQType) (quorumIndex : Option Int) (value : Option EvoValue) :
    Agrees (update read (minedKey llmqType quorumIndex n).serialize value) s.proc.chain
      nHeight := by
  obtain ⟨quorumIndex', hfits, hbytes⟩ := exists_fitsInt llmqType quorumIndex
  rw [hbytes n]
  refine ⟨fun bytes value' hread => ?_, fun m hm hheight => ?_⟩
  · by_cases hkey : bytes = (minedKey llmqType quorumIndex' n).serialize
    · exact .inr (.inl ⟨llmqType, quorumIndex', n, hfits, hlt, hn, hkey⟩)
    · rw [update_of_ne hkey] at hread
      exact hagrees.shape bytes value' hread
  · have hne : m.key ≠ (minedKey llmqType quorumIndex' n).serialize := by
      intro heq
      have hsame := (serialize_injective (h.fitsInt hm) hfits (h.nMinedHeight_lt hm) hn heq).2.2
      omega
    rw [update_of_ne hne]
    exact hagrees.has m hm hheight

lemma Indexed.agrees_foldl (hlt : nHeight < n) (hn : n < 2 ^ 32)
    (hf : ∀ evoDb qc, ChangesAt n evoDb (f evoDb qc)) (qcs : List CFinalCommitment) :
    Agrees (qcs.foldl f s.evoDb).read s.proc.chain nHeight := by
  refine foldlRecOn (motive := (Agrees ·.read s.proc.chain nHeight)) qcs f (h.agrees nHeight)
    fun e hagrees qc _ => ?_
  rcases (hf e qc).read with heq | ⟨llmqType, quorumIndex, value, heq⟩
  · rw [heq]
    exact hagrees
  · rw [heq]
    exact h.agrees_update hagrees hlt hn _ _ _

/-- **Moments.** While a block is connected or disconnected, the records of the blocks below
it are those of the chain. -/
theorem Indexed.agrees_evoDbAt (moment : Moment) (hlt : nHeight < s.settled moment) :
    Agrees (s.evoDbAt c moment).read s.proc.chain nHeight := by
  have hbounded := h.bounded
  cases moment with
  | between => exact h.agrees nHeight
  | connecting view block done =>
    exact h.agrees_foldl (n := s.proc.chain.length) hlt (by omega) (changesAt_recordMined · _ _) _
  | disconnecting view done =>
    exact h.agrees_foldl (n := s.proc.chain.length - 1) hlt (by omega) (changesAt_eraseMined · _ _) _

end Runs

end HootChain.Llmq.MinedIndex

import HootChain.Llmq.BlockProcessor

/-!
# Quorums (`llmq/quorums.cpp`)

`GetQuorum` answers from two caches in front of the mined commitments: whether a
commitment is mined at all (`mapHasMinedCommitmentCache`), and the quorum that was built
from it (`mapQuorumsCache`). The second cache is keyed by the hash of the quorum's first
block and is not told when the commitment is mined again in another block.
-/

namespace HootChain.Llmq.BlockProcessor

open Foundation Primitives List QBlock Option Function

/-! ## Records with their values -/

/-- What is recorded of a commitment: it, and the hash of the block that mined it. -/
abbrev MinedCommitment := CFinalCommitment × Uint256

/-- The records that a block writes, in the order of `ProcessBlock`. -/
def QBlock.mined (block : QBlock) : List (MinedKey × MinedCommitment) :=
  (inMapOrder block.commitments).filterMap fun qc =>
    (recordOf qc).map fun key => (key, (qc, block.hash))

/-- The records that the blocks of a chain write. -/
def minedCommitmentsOn (chain : QChain) : List (MinedKey × MinedCommitment) :=
  chain.flatMap QBlock.mined

/-- `DB_MINED_COMMITMENT` after an event. `ProcessCommitment` writes the records of a block
that is connected, `UndoBlock` erases those of a block that is disconnected; all else is
rolled back. -/
def updateRecords (before after : QChain) (db : MinedKey → Option MinedCommitment) :
    MinedKey → Option MinedCommitment :=
  if before.length < after.length then
    match after.getLast? with
    | some block => writeAll block.mined db
    | none => db
  else if after.length < before.length then
    match before.getLast? with
    | some block => eraseAll block.records db
    | none => db
  else
    db

/-! ## `CQuorumManager` -/

/-- `CQuorum`: what `Init` is given of the commitment. -/
structure CQuorum where
  qc : CFinalCommitment
  minedBlockHash : Uint256
  deriving DecidableEq

/-- The commitment of a quorum as it is recorded. -/
def CQuorum.mined (quorum : CQuorum) : MinedCommitment := (quorum.qc, quorum.minedBlockHash)

/-- The processor, the hashes of all known blocks, the records and the quorums built. -/
structure QuorumState where
  proc : ProcState
  blockIndex : List Uint256
  minedCommitments : MinedKey → Option MinedCommitment
  mapQuorumsCache : MinedKey → Option CQuorum

namespace QuorumState

section

variable (s : QuorumState) (llmqType : LLMQType) (quorumHash : Uint256)

def getMinedCommitment : Option MinedCommitment := s.minedCommitments (llmqType, quorumHash)

/-- `mapQuorumsCache[llmqType].insert(quorumHash, quorum)`. -/
def remember (key : MinedKey) (quorum : CQuorum) : QuorumState :=
  { s with mapQuorumsCache := update s.mapQuorumsCache key (some quorum) }

/-- `BuildQuorumFromCommitment`: the quorum, and the state with it in the cache. The
commitments are recorded under their own hash, as the source asserts. -/
def buildQuorumFromCommitment : Option CQuorum × QuorumState :=
  match s.getMinedCommitment llmqType quorumHash with
  | none => (none, s)
  | some (qc, minedBlockHash) =>
    let quorum : CQuorum := ⟨qc, minedBlockHash⟩
    (some quorum, s.remember (llmqType, quorumHash) quorum)

def getQuorum : Option CQuorum × QuorumState :=
  if quorumHash ∉ s.blockIndex then (none, s)
  else
    let hasQuorum := s.proc.mined.answer (llmqType, quorumHash)
    let s := { s with proc := { s.proc with mined := s.proc.mined.query (llmqType, quorumHash) } }
    if ¬ hasQuorum then (none, s)
    else
      match s.mapQuorumsCache (llmqType, quorumHash) with
      | some quorum => (some quorum, s)
      | none => s.buildQuorumFromCommitment llmqType quorumHash

end

/-- A node with the genesis block only. -/
def start (genesis : NonNullHash) : QuorumState where
  proc := .start genesis
  blockIndex := [genesis.1]
  minedCommitments := fun _ => none
  mapQuorumsCache := fun _ => none

end QuorumState

/-- Blocks are connected and disconnected under `cs_main`. `GetQuorum` holds it only to look up
the block; the model has it run between two blocks. -/
inductive QuorumEvent where
  | node (event : ProcEvent)
  | getQuorum (llmqType : LLMQType) (quorumHash : Uint256)
  /-- `mapQuorumsCache` drops quorums. -/
  | evictQuorums (drop : MinedKey → Bool)

namespace QuorumState

/-- The block index after an event of the processor: blocks to connect are known first. -/
def indexAfter (blockIndex : List Uint256) : ProcEvent → List Uint256
  | .connect _ block _ _ => block.hash :: blockIndex
  | _ => blockIndex

/-- `mapQuorumsCache` after an event of the processor: only a restart empties it. -/
def quorumsAfter (mapQuorumsCache : MinedKey → Option CQuorum) :
    ProcEvent → MinedKey → Option CQuorum
  | .restart => fun _ => none
  | _ => mapQuorumsCache

def step (c : QuorumConsensus) (s : QuorumState) : QuorumEvent → QuorumState
  | .node event =>
    let proc := s.proc.step c event
    { proc
      blockIndex := indexAfter s.blockIndex event
      minedCommitments := updateRecords s.proc.chain proc.chain s.minedCommitments
      mapQuorumsCache := quorumsAfter s.mapQuorumsCache event }
  | .getQuorum llmqType quorumHash => (s.getQuorum llmqType quorumHash).2
  | .evictQuorums drop =>
    { s with mapQuorumsCache := fun key => if drop key then none else s.mapQuorumsCache key }

/-- A run of the node from its genesis block. -/
def run (c : QuorumConsensus) (genesis : NonNullHash)
    (events : List QuorumEvent) : QuorumState :=
  events.foldl (step c) (start genesis)

end QuorumState

/-! ## The records are those of the active chain -/

lemma map_fst_mined (block : QBlock) : block.mined.map Prod.fst = block.records := by
  rw [mined, map_filterMap]
  congr 1
  funext qc
  cases recordOf qc <;> rfl

section

variable (chain : QChain)

lemma minedCommitmentsOn_append (block : QBlock) :
    minedCommitmentsOn (chain ++ [block]) = minedCommitmentsOn chain ++ block.mined := by
  simp [minedCommitmentsOn]

lemma map_fst_minedCommitmentsOn : (minedCommitmentsOn chain).map Prod.fst = minedOn chain := by
  rw [minedCommitmentsOn, map_flatMap]
  congr 1
  funext block
  exact map_fst_mined block

variable (db : MinedKey → Option MinedCommitment)

lemma updateRecords_append (block : QBlock) :
    updateRecords chain (chain ++ [block]) db = writeAll block.mined db := by
  simp [updateRecords]

lemma updateRecords_dropLast {chain : QChain} {block : QBlock}
    (hlast : chain.getLast? = some block) :
    updateRecords chain chain.dropLast db = eraseAll block.records db := by
  have hpos : 0 < chain.length := by
    rw [length_pos_iff]
    rintro rfl
    cases hlast
  simp only [updateRecords, length_dropLast, hlast]
  rw [if_neg (by omega), if_pos (by omega)]

lemma updateRecords_self : updateRecords chain chain db = db := by
  simp [updateRecords]

end

/-- The records and what is known of the blocks. -/
structure QuorumState.Recorded (s : QuorumState) : Prop where
  consistent : s.proc.Consistent
  records : ∀ key mined, s.minedCommitments key = some mined ↔
    (key, mined) ∈ minedCommitmentsOn s.proc.chain
  known : ∀ hash ∈ s.proc.chain.map QBlock.hash, hash ∈ s.blockIndex
  base : ∀ key ∈ minedOn s.proc.chain, key.2 ∈ s.blockIndex
  built : ∀ key quorum, s.mapQuorumsCache key = some quorum → key.2 ∈ s.blockIndex

namespace QuorumState

variable {c : QuorumConsensus} {s : QuorumState}

lemma recorded_start (genesis : NonNullHash) : (start genesis).Recorded where
  consistent := consistent_start
  records key mined := by simp [start, ProcState.start, minedCommitmentsOn, QBlock.mined,
    commitments, inMapOrder, ofType]
  known hash hmem := by simpa [start, ProcState.start] using hmem
  base key hkey := by
    cases hkey
  built key quorum h := by cases h

lemma mem_indexAfter {blockIndex : List Uint256} {hash : Uint256} (h : hash ∈ blockIndex)
    (event : ProcEvent) : hash ∈ indexAfter blockIndex event := by
  cases event <;> simp [indexAfter, h]

lemma quorumsAfter_eq_some {quorums : MinedKey → Option CQuorum} {event : ProcEvent}
    {key : MinedKey} {quorum : CQuorum} (h : quorumsAfter quorums event key = some quorum) :
    quorums key = some quorum := by
  cases event <;> simp_all [quorumsAfter]

namespace Recorded

variable (h : s.Recorded)

include h

/-- Events that leave chain and records alone. -/
lemma of_same_chain {mined : Mined} {event : ProcEvent}
    (hconsistent : ({ s.proc with mined } : ProcState).Consistent) :
    ({ proc := { s.proc with mined }
       blockIndex := indexAfter s.blockIndex event
       minedCommitments := updateRecords s.proc.chain s.proc.chain s.minedCommitments
       mapQuorumsCache := quorumsAfter s.mapQuorumsCache event } : QuorumState).Recorded where
  consistent := hconsistent
  records := by
    rw [updateRecords_self]
    exact h.records
  known hash hmem := mem_indexAfter (h.known hash hmem) event
  base key hkey := mem_indexAfter (h.base key hkey) event
  built key quorum hq := mem_indexAfter (h.built key quorum (quorumsAfter_eq_some hq)) event

lemma records_append {block : QBlock} {mined : Mined}
    (hadded : Added s.proc block mined) (key : MinedKey) (value : MinedCommitment) :
    writeAll block.mined s.minedCommitments key = some value ↔
      (key, value) ∈ minedCommitmentsOn (s.proc.chain ++ [block]) := by
  rw [writeAll_eq_some_iff (by rw [map_fst_mined]; exact hadded.nodup), map_fst_mined,
    minedCommitmentsOn_append, mem_append, h.records]
  constructor
  · rintro (hnew | ⟨-, hold⟩)
    · exact .inr hnew
    · exact .inl hold
  · rintro (hold | hnew)
    · -- what is mined already is not in the block
      refine .inr ⟨fun hkey => ?_, hold⟩
      have hmined : key ∈ minedOn s.proc.chain := by
        rw [← map_fst_minedCommitmentsOn]
        exact mem_map_of_mem hold
      have hcontents := (h.consistent.contents key).mpr hmined
      rw [hadded.unmined key hkey] at hcontents
      cases hcontents
    · exact .inl hnew

lemma records_dropLast {block : QBlock}
    (hlast : s.proc.chain.getLast? = some block) (key : MinedKey) (value : MinedCommitment) :
    eraseAll block.records s.minedCommitments key = some value ↔
      (key, value) ∈ minedCommitmentsOn s.proc.chain.dropLast := by
  have hchain : s.proc.chain.dropLast ++ [block] = s.proc.chain :=
    dropLast_append_getLast? block hlast
  have hmined : minedCommitmentsOn s.proc.chain =
      minedCommitmentsOn s.proc.chain.dropLast ++ block.mined := by
    rw [← minedCommitmentsOn_append, hchain]
  have hnodup := h.consistent.nodup
  rw [← map_fst_minedCommitmentsOn, hmined, map_append, map_fst_mined, nodup_append] at hnodup
  rw [eraseAll_eq_some_iff, h.records, hmined, mem_append]
  constructor
  · rintro ⟨hkey, hold | hnew⟩
    · exact hold
    · exact absurd (map_fst_mined block ▸ mem_map_of_mem hnew) hkey
  · exact fun hold => ⟨fun hkey => hnodup.2.2 key (mem_map_of_mem hold) key hkey rfl, .inl hold⟩

lemma step_node (event : ProcEvent) : (s.step c (.node event)).Recorded := by
  have hconsistent := consistent_step (c := c) h.consistent event
  have heffect := s.proc.step_effect c event
  rw [QuorumState.step]
  generalize s.proc.step c event = proc at heffect hconsistent
  cases heffect with
  | nothing | rolledBack | asked | forgot => exact h.of_same_chain hconsistent
  | connected view block fBLSChecks mined hevent hnew hspecial hrun =>
    subst hevent
    have hadded := h.consistent.added hspecial hrun
    refine ⟨hconsistent, ?_, ?_, ?_, fun key quorum hq => mem_cons_of_mem _ ?_⟩
    · rw [updateRecords_append]
      exact h.records_append hadded
    · intro hash hmem
      rw [map_append, mem_append] at hmem
      obtain hold | hblock := hmem
      · exact mem_cons_of_mem _ (h.known hash hold)
      · exact mem_cons.mpr (.inl (by simpa using hblock))
    · intro key hkey
      rw [minedOn_append, mem_append] at hkey
      obtain hold | hblock := hkey
      · exact mem_cons_of_mem _ (h.base key hold)
      · exact mem_cons_of_mem _ (h.known key.2 (hadded.base key hblock))
    · exact h.built key quorum hq
  | disconnected block hlast =>
    have hsub : s.proc.chain.dropLast.Sublist s.proc.chain := dropLast_sublist _
    refine ⟨hconsistent, ?_, fun hash hmem => ?_, fun key hkey => ?_, fun key quorum hq => ?_⟩
    · rw [updateRecords_dropLast _ hlast]
      exact h.records_dropLast hlast
    · exact mem_indexAfter (h.known hash ((hsub.map _).subset hmem)) event
    · exact mem_indexAfter (h.base key ((hsub.flatMap _).subset hkey)) event
    · exact mem_indexAfter (h.built key quorum (quorumsAfter_eq_some hq)) event

end Recorded

/-! ## What `GetQuorum` returns -/

/-- The state after `HasMinedCommitment`. -/
def asked (s : QuorumState) (key : MinedKey) : QuorumState :=
  { s with proc := { s.proc with mined := s.proc.mined.query key } }

/-- What `GetQuorum` can do. -/
inductive Returned (s : QuorumState) (key : MinedKey) : Option CQuorum × QuorumState → Prop where
  | unknown (hunknown : key.2 ∉ s.blockIndex) : Returned s key (none, s)
  | unmined (hanswer : s.proc.mined.answer key = false) : Returned s key (none, s.asked key)
  | cached (quorum : CQuorum) (hknown : key.2 ∈ s.blockIndex)
      (hanswer : s.proc.mined.answer key = true)
      (hcached : s.mapQuorumsCache key = some quorum) : Returned s key (some quorum, s.asked key)
  | missing (hcached : s.mapQuorumsCache key = none) (hmissing : s.minedCommitments key = none) :
      Returned s key (none, s.asked key)
  | built (quorum : CQuorum) (hknown : key.2 ∈ s.blockIndex)
      (hanswer : s.proc.mined.answer key = true) (hcached : s.mapQuorumsCache key = none)
      (hmined : s.minedCommitments key = some quorum.mined) :
      Returned s key (some quorum, (s.asked key).remember key quorum)

lemma getQuorum_returned (s : QuorumState) (llmqType : LLMQType) (quorumHash : Uint256) :
    Returned s (llmqType, quorumHash) (s.getQuorum llmqType quorumHash) := by
  unfold getQuorum
  split
  case isTrue hunknown => exact .unknown hunknown
  case isFalse hknown =>
  dsimp only
  split
  case isTrue hanswer => exact .unmined (by simpa using hanswer)
  case isFalse hanswer =>
  split
  case h_1 quorum hcached =>
    exact .cached quorum (not_not.mp hknown) (by simpa using hanswer) hcached
  case h_2 hcached =>
  unfold buildQuorumFromCommitment
  split
  case h_1 hmissing => exact .missing hcached hmissing
  case h_2 qc minedBlockHash hmined =>
    exact .built ⟨qc, minedBlockHash⟩ (not_not.mp hknown) (by simpa using hanswer) hcached hmined

lemma remember_eq_some {key key' : MinedKey} {quorum quorum' : CQuorum}
    (h : (s.remember key quorum).mapQuorumsCache key' = some quorum') :
    (key' = key ∧ quorum = quorum') ∨ s.mapQuorumsCache key' = some quorum' := by
  simp only [remember] at h
  by_cases hkey : key' = key
  · rw [hkey, update_self, some.injEq] at h
    exact .inl ⟨hkey, h⟩
  · rw [update_of_ne hkey] at h
    exact .inr h

namespace Recorded

variable (h : s.Recorded)

include h

lemma asked (key : MinedKey) : (s.asked key).Recorded :=
  ⟨⟨h.consistent.contents, h.consistent.sound.query key, h.consistent.nodup⟩, h.records, h.known,
    h.base, h.built⟩

lemma step (event : QuorumEvent) : (s.step c event).Recorded := by
  cases event with
  | node event => exact h.step_node event
  | getQuorum llmqType quorumHash =>
    have hreturned := s.getQuorum_returned llmqType quorumHash
    rw [QuorumState.step]
    generalize s.getQuorum llmqType quorumHash = r at hreturned
    cases hreturned with
    | unknown => exact h
    | unmined | cached | missing => exact h.asked _
    | built quorum hknown =>
      refine { h.asked _ with built := fun key quorum' hq => ?_ }
      obtain ⟨rfl, -⟩ | hq := remember_eq_some hq
      · exact hknown
      · exact h.built key quorum' hq
  | evictQuorums drop =>
    refine { h with built := fun key quorum hq => ?_ }
    refine h.built key quorum ?_
    simp only [QuorumState.step] at hq
    split at hq
    · cases hq
    · exact hq

/-- A commitment that is recorded is known and answered to be mined. -/
lemma answer_of_recorded {key : MinedKey} {mined : MinedCommitment}
    (hmined : s.minedCommitments key = some mined) :
    key.2 ∈ s.blockIndex ∧ s.proc.mined.answer key = true := by
  have hkey : key ∈ minedOn s.proc.chain := by
    rw [← map_fst_minedCommitmentsOn]
    exact mem_map_of_mem ((h.records key mined).mp hmined)
  exact ⟨h.base key hkey, h.consistent.sound.answer_eq_true ((h.consistent.contents key).mpr hkey)⟩

lemma minedCommitments_eq_none {key : MinedKey}
    (hkey : key ∉ minedOn s.proc.chain) : s.minedCommitments key = none := by
  by_contra hsome
  obtain ⟨mined, hmined⟩ := ne_none_iff_exists'.mp hsome
  refine hkey ?_
  rw [← map_fst_minedCommitmentsOn]
  exact mem_map_of_mem ((h.records key mined).mp hmined)

end Recorded

/-! ## Coherence -/

/-- `GetQuorum` returns what is mined on the active chain: the quorum of the commitment that
`GetMinedCommitment` returns, and null where none is mined. -/
def Coherent (s : QuorumState) : Prop :=
  ∀ llmqType quorumHash,
    (s.getQuorum llmqType quorumHash).1.map CQuorum.mined =
      s.getMinedCommitment llmqType quorumHash ∧
    ((llmqType, quorumHash) ∉ minedOn s.proc.chain → (s.getQuorum llmqType quorumHash).1 = none)

/-- Only a quorum that is cached can be a wrong one. -/
lemma coherent_iff (h : s.Recorded) :
    s.Coherent ↔ ∀ key quorum, s.proc.mined.answer key = true →
      s.mapQuorumsCache key = some quorum → s.minedCommitments key = some quorum.mined := by
  constructor
  · rintro hcoherent ⟨llmqType, quorumHash⟩ quorum hanswer hcached
    obtain ⟨hsame, -⟩ := hcoherent llmqType quorumHash
    have hreturned := s.getQuorum_returned llmqType quorumHash
    generalize s.getQuorum llmqType quorumHash = r at hreturned hsame
    cases hreturned with
    | unknown hunknown => exact absurd (h.built _ quorum hcached) hunknown
    | unmined hanswer' => simp [hanswer] at hanswer'
    | cached quorum' _ _ hcached' =>
      rw [hcached, some.injEq] at hcached'
      subst hcached'
      exact hsame.symm
    | missing hcached' => simp [hcached] at hcached'
    | built quorum' _ _ hcached' => simp [hcached] at hcached'
  · intro hright llmqType quorumHash
    have hsame : (s.getQuorum llmqType quorumHash).1.map CQuorum.mined =
        s.minedCommitments (llmqType, quorumHash) := by
      have hreturned := s.getQuorum_returned llmqType quorumHash
      generalize s.getQuorum llmqType quorumHash = r at hreturned
      cases hreturned with
      | unknown hunknown =>
        by_contra hmined
        obtain ⟨mined, hmined⟩ := ne_none_iff_exists'.mp (Ne.symm hmined)
        exact hunknown (h.answer_of_recorded hmined).1
      | unmined hanswer =>
        by_contra hmined
        obtain ⟨mined, hmined⟩ := ne_none_iff_exists'.mp (Ne.symm hmined)
        rw [(h.answer_of_recorded hmined).2] at hanswer
        cases hanswer
      | cached quorum _ hanswer hcached => exact (hright _ quorum hanswer hcached).symm
      | missing _ hmissing => exact hmissing.symm
      | built quorum _ _ _ hmined => exact hmined.symm
    refine ⟨hsame, fun hunmined => ?_⟩
    rw [h.minedCommitments_eq_none hunmined] at hsame
    exact map_eq_none_iff.mp hsame

/-- What keeps `GetQuorum` right when the processor goes over to `proc`. A block that is
connected mines no commitment of a quorum that is cached, unless the cached quorum is the one
of this commitment in this very block. A block that is not connected leaves no new answer
"mined" behind about a quorum that is cached. -/
def GoodAfter (s : QuorumState) (proc : ProcState) : Prop :=
  (∀ block, proc.chain = s.proc.chain ++ [block] →
    ∀ r ∈ block.mined, ∀ quorum, s.mapQuorumsCache r.1 = some quorum → quorum.mined = r.2) ∧
  (proc.chain = s.proc.chain →
    ∀ key, s.proc.mined.answer key = false → proc.mined.answer key = true →
      s.mapQuorumsCache key = none)

/-- The steps after which `GetQuorum` is right if it was before. -/
def GoodStep (c : QuorumConsensus) (s : QuorumState) : QuorumEvent → Prop
  | .node event => s.GoodAfter (s.proc.step c event)
  | .getQuorum _ _ | .evictQuorums _ => True

lemma goodAfter_dropLast (hne : s.proc.chain ≠ []) (mined : Mined) :
    s.GoodAfter ⟨s.proc.chain.dropLast, mined⟩ := by
  have hpos := length_pos_iff.mpr hne
  constructor
  · intro block hchain
    have hlength := congrArg length hchain
    simp at hlength
  · intro hchain
    have hlength := congrArg length hchain
    simp at hlength
    omega

section Steps

variable {blockIndex : List Uint256} (h : s.Recorded)

include h

/-- Where chain and records stay, what counts are new answers. -/
lemma coherent_same_chain_iff (hs : s.Coherent) {mined : Mined}
    (h' : (⟨{ s.proc with mined }, blockIndex, s.minedCommitments, s.mapQuorumsCache⟩ :
      QuorumState).Recorded) :
    (⟨{ s.proc with mined }, blockIndex, s.minedCommitments, s.mapQuorumsCache⟩ :
      QuorumState).Coherent ↔ s.GoodAfter { s.proc with mined } := by
  rw [coherent_iff h] at hs
  rw [coherent_iff h']
  constructor
  · intro hright
    refine ⟨fun block hchain => absurd hchain (by simp), fun _ key hbefore hafter => ?_⟩
    by_contra hcached
    obtain ⟨quorum, hcached⟩ := ne_none_iff_exists'.mp hcached
    -- a recorded commitment was answered to be mined before
    have hmined := hright key quorum hafter hcached
    rw [(h.answer_of_recorded hmined).2] at hbefore
    cases hbefore
  · rintro ⟨-, hgood⟩ key quorum hafter hcached
    cases hbefore : s.proc.mined.answer key with
    | true => exact hs key quorum hbefore hcached
    | false =>
      have hnone := hgood rfl key hbefore hafter
      rw [hcached] at hnone
      cases hnone

lemma coherent_connected_iff (hs : s.Coherent) {block : QBlock} {mined : Mined}
    (hadded : Added s.proc block mined)
    (h' : (⟨⟨s.proc.chain ++ [block], mined⟩, blockIndex, writeAll block.mined s.minedCommitments,
      s.mapQuorumsCache⟩ : QuorumState).Recorded) :
    (⟨⟨s.proc.chain ++ [block], mined⟩, blockIndex, writeAll block.mined s.minedCommitments,
      s.mapQuorumsCache⟩ : QuorumState).Coherent ↔ s.GoodAfter ⟨s.proc.chain ++ [block], mined⟩ := by
  rw [coherent_iff h] at hs
  rw [coherent_iff h']
  have hnodup : (block.mined.map Prod.fst).Nodup := by
    rw [map_fst_mined]
    exact hadded.nodup
  constructor
  · refine fun hright => ⟨?_, fun hchain => absurd hchain (by simp)⟩
    rintro block' hchain ⟨key, value⟩ hr quorum hcached
    obtain rfl : block = block' := by simpa using hchain
    have hwritten : writeAll block.mined s.minedCommitments key = some value :=
      (writeAll_eq_some_iff hnodup).mpr (.inl hr)
    have hanswer := (h'.answer_of_recorded hwritten).2
    have hmined := hright key quorum hanswer hcached
    exact some.inj (hmined.symm.trans hwritten)
  · rintro ⟨hgood, -⟩ key quorum hanswer hcached
    refine (writeAll_eq_some_iff hnodup).mpr ?_
    rw [map_fst_mined]
    by_cases hkey : key ∈ block.records
    · rw [← map_fst_mined] at hkey
      obtain ⟨⟨key, value⟩, hr, rfl⟩ := mem_map.mp hkey
      rw [hgood block rfl _ hr quorum hcached]
      exact .inl hr
    · have hbefore : s.proc.mined.answer key = true := by
        rw [← hadded.answers key hkey]
        exact hanswer
      exact .inr ⟨hkey, hs key quorum hbefore hcached⟩

lemma coherent_disconnected (hs : s.Coherent) {block : QBlock} {chain : QChain}
    (h' : (⟨⟨chain, block.records.foldl CachedSet.remove s.proc.mined⟩, blockIndex,
      eraseAll block.records s.minedCommitments, s.mapQuorumsCache⟩ : QuorumState).Recorded) :
    (⟨⟨chain, block.records.foldl CachedSet.remove s.proc.mined⟩, blockIndex,
      eraseAll block.records s.minedCommitments, s.mapQuorumsCache⟩ : QuorumState).Coherent := by
  rw [coherent_iff h] at hs
  rw [coherent_iff h']
  intro key quorum hanswer hcached
  obtain ⟨hkey, hbefore⟩ := (CachedSet.answer_foldl_remove _ _).mp hanswer
  exact eraseAll_eq_some_iff.mpr ⟨hkey, hs key quorum hbefore hcached⟩

lemma coherent_restart :
    (s.step c (.node .restart)).Coherent ∧ GoodStep c s (.node .restart) := by
  constructor
  · rw [coherent_iff (h.step_node _)]
    intro key quorum _ hcached
    cases hcached
  · refine ⟨fun block hchain => absurd hchain (by simp [ProcState.step]), ?_⟩
    intro _ key hbefore hafter
    rw [h.consistent.sound.answer_eq_true hafter] at hbefore
    cases hbefore

/-- An event of the processor. -/
lemma coherent_node_iff (hs : s.Coherent) (event : ProcEvent) :
    (s.step c (.node event)).Coherent ↔ GoodStep c s (.node event) := by
  by_cases hrestart : event = .restart
  · rw [hrestart]
    exact iff_of_true (coherent_restart h).1 (coherent_restart h).2
  have hkept : quorumsAfter s.mapQuorumsCache event = s.mapQuorumsCache := by
    cases event <;> simp_all [quorumsAfter]
  have h' := h.step_node (c := c) event
  have heffect := s.proc.step_effect c event
  rw [step, hkept] at h' ⊢
  rw [GoodStep]
  generalize s.proc.step c event = proc at heffect h'
  cases heffect with
  | nothing =>
    rw [updateRecords_self] at h' ⊢
    exact coherent_same_chain_iff h hs h'
  | rolledBack =>
    rw [updateRecords_self] at h' ⊢
    exact coherent_same_chain_iff h hs h'
  | asked =>
    rw [updateRecords_self] at h' ⊢
    exact coherent_same_chain_iff h hs h'
  | forgot =>
    rw [updateRecords_self] at h' ⊢
    exact coherent_same_chain_iff h hs h'
  | connected view block fBLSChecks mined hevent hnew hspecial hrun =>
    rw [updateRecords_append] at h' ⊢
    exact coherent_connected_iff h hs (h.consistent.added hspecial hrun) h'
  | disconnected block hlast =>
    rw [updateRecords_dropLast _ hlast] at h' ⊢
    have hne : s.proc.chain ≠ [] := fun hnil => by simp [hnil] at hlast
    exact iff_of_true (coherent_disconnected h hs h') (goodAfter_dropLast hne _)

end Steps

lemma coherent_getQuorum (h : s.Recorded) (hs : s.Coherent) (llmqType : LLMQType)
    (quorumHash : Uint256) : (s.getQuorum llmqType quorumHash).2.Coherent := by
  have h' : (s.getQuorum llmqType quorumHash).2.Recorded :=
    h.step (c := testNetQuorumConsensus) (.getQuorum llmqType quorumHash)
  have hright := (coherent_iff h).mp hs
  rw [coherent_iff h']
  have hreturned := s.getQuorum_returned llmqType quorumHash
  generalize s.getQuorum llmqType quorumHash = r at hreturned
  have hasked : ∀ key quorum,
      (s.asked (llmqType, quorumHash)).proc.mined.answer key = true →
      s.mapQuorumsCache key = some quorum → s.minedCommitments key = some quorum.mined := by
    intro key quorum hanswer
    rw [asked, CachedSet.answer_query] at hanswer
    exact hright key quorum hanswer
  cases hreturned with
  | unknown => exact hright
  | unmined | cached | missing => exact hasked
  | built quorum _ _ _ hmined =>
    intro key quorum' hanswer hcached'
    obtain ⟨rfl, rfl⟩ | hcached' := remember_eq_some hcached'
    · exact hmined
    · exact hasked key quorum' hanswer hcached'

lemma coherent_evictQuorums (h : s.Recorded) (hs : s.Coherent) (drop : MinedKey → Bool) :
    (s.step c (.evictQuorums drop)).Coherent := by
  rw [coherent_iff (h.step _)]
  intro key quorum hanswer hcached
  refine (coherent_iff h).mp hs key quorum hanswer ?_
  simp only [step] at hcached
  split at hcached
  · cases hcached
  · exact hcached

lemma coherent_step_iff (h : s.Recorded) (hs : s.Coherent) (event : QuorumEvent) :
    (s.step c event).Coherent ↔ GoodStep c s event := by
  cases event with
  | node event => exact coherent_node_iff h hs event
  | getQuorum llmqType quorumHash =>
    exact iff_of_true (coherent_getQuorum h hs llmqType quorumHash) trivial
  | evictQuorums drop => exact iff_of_true (coherent_evictQuorums h hs drop) trivial

lemma coherent_start (genesis : NonNullHash) : (start genesis).Coherent := by
  rw [coherent_iff (recorded_start genesis)]
  intro key quorum _ hcached
  cases hcached

/-- **Coherence.** `GetQuorum` is right in all states of a run exactly if all its steps are
good ones. -/
theorem getQuorum_coherent_iff (c : QuorumConsensus) (genesis : NonNullHash)
    (events : List QuorumEvent) :
    (∀ before, before <+: events → (run c genesis before).Coherent) ↔
      ∀ before event, before ++ [event] <+: events → GoodStep c (run c genesis before) event := by
  have hinv : ∀ s event, Recorded s → Recorded (step c s event) := fun _ event h => h.step event
  have hstep : ∀ s event, Recorded s → Coherent s →
      (Coherent (step c s event) ↔ GoodStep c s event) :=
    fun _ event h hs => coherent_step_iff h hs event
  exact forall_prefix_iff hinv hstep (recorded_start genesis) (coherent_start genesis) events

/-- What a node of the test network sees when its first ten masternodes have signed. -/
def signedView : QuorumView :=
  { emptyView with membersSize := fun _ _ => 10, sigsVerify := fun _ => true }

/-- The commitment of the quorum that begins with the genesis block, for a short chain. Its
members are given: `GetAllQuorumMembers` stops where there is no previous block. -/
def signedCommitment : CFinalCommitment where
  nVersion := 1
  llmqType := .llmq50_60
  quorumHash := 1
  quorumIndex := 0
  signers := replicate 10 true
  validMembers := replicate 10 true
  quorumPublicKey := some 5
  quorumVvecHash := 6
  quorumSig := some 7
  membersSig := some 8

/-- A block at height ten that mines it. -/
def miningBlock (hash : NonNullHash) : QBlock where
  hash := hash.1
  payloads := [some signedCommitment]
  hash_ne h := hash.2 h

/-- The commitment is mined in block 100, the quorum is asked for, and block 100 is replaced
by block 200, which mines the same commitment. -/
def minedTwice : List QuorumEvent :=
  firstBlocks.map .node ++
    [.node (.connect signedView (miningBlock ⟨100, Nat.succ_ne_zero _⟩) true true),
     .getQuorum .llmq50_60 1,
     .node (.disconnect signedView),
     .node (.connect signedView (miningBlock ⟨200, Nat.succ_ne_zero _⟩) true true)]

/-- The quorum is still that of block 100, which is not in the chain. -/
theorem getQuorum_returns_stale_quorum :
    let s := run testNetQuorumConsensus ⟨1, by decide⟩ minedTwice
    (s.getQuorum .llmq50_60 1).1 = some ⟨signedCommitment, 100⟩ ∧
      s.getMinedCommitment .llmq50_60 1 = some (signedCommitment, 200) ∧
      s.proc.chain.map hash = [1, 2, 3, 4, 5, 6, 7, 8, 9, 10, 200] := by
  decide +kernel

end QuorumState

end HootChain.Llmq.BlockProcessor

import HootChain.Llmq.Params
import HootChain.Primitives.Transaction

/-!
# The LLMQ Parameter Table (`chainparams.cpp`, `evo/deterministicmns.cpp`)

The consensus parameters hold a table of LLMQ parameters that is not constant:
`UpdateLLMQParams` rewrites four of its entries when the number of masternodes
enters another band. It runs as a side effect of every lookup of a masternode
list, but writes the entries only when it has not yet seen the height, the number
has changed and no LLMQ is in its mining phase at the height, or when it runs for
the first time after the start of the node.

A node is followed through what it does with blocks: looking up the list of a
block, building the list of a candidate, connecting and disconnecting blocks, and
restarting. Of a block only the number of masternodes in its list matters.
-/

namespace HootChain.Llmq

open Consensus Primitives List Function

/-! ## `UpdateLLMQParams` -/

/-- `consensus.llmqs`. -/
abbrev LlmqTable := LLMQType → Option LLMQParams

def isMiningPhase (params : LLMQParams) (nHeight : Int) : Bool :=
  let phaseIndex := nHeight.tmod params.dkgInterval
  phaseIndex ≥ params.dkgMiningWindowStart && phaseIndex ≤ params.dkgMiningWindowEnd

def isLLMQsMiningPhase (llmqs : LlmqTable) (nHeight : Int) : Bool :=
  LLMQType.all.any fun type => (llmqs type).any (isMiningPhase · nHeight)

/-- The four assignments of `UpdateLLMQParams`. -/
def assignLLMQs (p50_60 p400_60 p400_85 p60_75 : LLMQParams) (llmqs : LlmqTable) : LlmqTable
  | .llmq50_60 => some p50_60
  | .llmq400_60 => some p400_60
  | .llmq400_85 => some p400_85
  | .llmq60_75 => some p60_75
  | type => llmqs type

section

variable (network : Network)

/-- The branches of `UpdateLLMQParams` that write the table. -/
def writeLLMQs (totalMnCount : Nat) (llmqs : LlmqTable) : LlmqTable :=
  let isTestNet := network = .test
  if (totalMnCount < 80 ∧ isTestNet) ∨ (totalMnCount < 100 ∧ ¬ isTestNet) then
    assignLLMQs llmq_10_60 llmq_20_60 llmq_20_85 llmq_10_75 llmqs
  else if totalMnCount < 600 then
    assignLLMQs llmq_50_60 llmq_40_60 llmq_40_85
      (if totalMnCount ≥ 200 then llmq_20_75 else llmq_10_75) llmqs
  else
    assignLLMQs llmq_50_60 llmq_400_60 llmq_400_85
      (if totalMnCount > 2000 then llmq_60_75 else llmq_20_75) llmqs

/-- The table of the chain parameters with the static variables of `UpdateLLMQParams`. -/
structure LlmqState where
  lastCheckMnCount : Nat := 0
  lastCheckHeight : Int := -1
  llmqs : LlmqTable

def updateLLMQParams (totalMnCount : Nat) (height : Int) (s : LlmqState) : LlmqState :=
  if network = .devnet ∨ network = .regtest then s
  else if (s.lastCheckHeight < height ∧ s.lastCheckMnCount ≠ totalMnCount ∧
      isLLMQsMiningPhase s.llmqs height = false) ∨ s.lastCheckHeight = -1 then
    { lastCheckMnCount := totalMnCount
      lastCheckHeight := height
      llmqs := writeLLMQs network totalMnCount s.llmqs }
  else if totalMnCount < 80 then
    { s with llmqs := update s.llmqs .llmq60_75 (some llmq_10_75) }
  else s

/-- The table that the definitions of main and test network start with. -/
def initialLLMQs : LlmqTable
  | .llmq50_60 => some llmq_50_60
  | .llmq60_75 => some llmq_60_75
  | .llmq400_60 => some llmq_20_60
  | .llmq400_85 => some llmq_20_85
  | .llmq100_67 => some llmq_100_67
  | _ => none

/-- The state of a node that has just been started. -/
def initialLlmqState : LlmqState := { llmqs := initialLLMQs }

/-! ## Nodes -/

/-- A block, through its hash and the number of masternodes in its list. -/
structure MnBlock where
  hash : Uint256
  allMNsCount : Nat
  deriving DecidableEq

/-- A block with its ancestors, newest first (`CBlockIndex`). -/
structure MnIndex where
  block : MnBlock
  ancestors : List MnBlock
  deriving DecidableEq

def MnIndex.nHeight (pindex : MnIndex) : Int := pindex.ancestors.length

/-- `GetAllMNsCount` of the list of the block. -/
def MnIndex.allMNsCount (pindex : MnIndex) : Nat := pindex.block.allMNsCount

/-- The block on top of another one. -/
def MnIndex.extend (pindex : MnIndex) (block : MnBlock) : MnIndex :=
  ⟨block, pindex.block :: pindex.ancestors⟩

def MnIndex.pprev (pindex : MnIndex) : Option MnIndex :=
  match pindex.ancestors with
  | [] => none
  | block :: ancestors => some ⟨block, ancestors⟩

/-- A node: its active tip and the table. -/
structure LlmqNode where
  tip : MnIndex
  state : LlmqState

/-- A node started on a chain. -/
def LlmqNode.start (tip : MnIndex) : LlmqNode := ⟨tip, initialLlmqState⟩

/-- What a node does with blocks. Building a list looks up the lists of the blocks at which
the quorums of the block's commitments were formed. -/
inductive NodeEvent where
  | restart
  | getListForBlock (pindex : MnIndex)
  | buildNewList (pindexPrev : MnIndex) (lookups : List MnIndex) (newCount : Option Nat)
  | connect (block : MnBlock) (lookups : List MnIndex)
  | disconnect (diffHasChanges : Bool)

/-- A call of `UpdateLLMQParams`. -/
abbrev UpdateCall := Nat × Int

/-- The call at the end of `GetListForBlockInternal`. -/
def MnIndex.lookupCall (pindex : MnIndex) : UpdateCall := (pindex.allMNsCount, pindex.nHeight)

/-- The calls of `BuildNewListFromBlock`; it makes the last one only if it succeeds. -/
def buildCalls (pindexPrev : MnIndex) (lookups : List MnIndex) (newCount : Option Nat) :
    List UpdateCall :=
  pindexPrev.lookupCall :: lookups.map MnIndex.lookupCall ++
    newCount.toList.map fun count => (count, pindexPrev.nHeight + 1)

/-- The calls of `ProcessBlock`, for a block that `BuildNewListFromBlock` accepts. -/
def connectCalls (tip : MnIndex) (block : MnBlock) (lookups : List MnIndex) : List UpdateCall :=
  if tip.nHeight + 1 < (createChainParams network).dip0003Height then []
  else buildCalls tip lookups (some block.allMNsCount) ++ [tip.lookupCall]

/-- The calls of `UndoBlock`. -/
def disconnectCalls (tip pprev : MnIndex) (diffHasChanges : Bool) : List UpdateCall :=
  if diffHasChanges then [tip.lookupCall, pprev.lookupCall] else []

/-- The table after some calls. -/
def runCalls (calls : List UpdateCall) (s : LlmqState) : LlmqState :=
  calls.foldl (fun s call => updateLLMQParams network call.1 call.2 s) s

def LlmqNode.step (node : LlmqNode) : NodeEvent → LlmqNode
  | .restart => .start node.tip
  | .getListForBlock pindex =>
    { node with state := runCalls network [pindex.lookupCall] node.state }
  | .buildNewList pindexPrev lookups newCount =>
    { node with state := runCalls network (buildCalls pindexPrev lookups newCount) node.state }
  | .connect block lookups =>
    { tip := node.tip.extend block
      state := runCalls network (connectCalls network node.tip block lookups) node.state }
  | .disconnect diffHasChanges =>
    match node.tip.pprev with
    | none => node
    | some pprev =>
      { tip := pprev
        state := runCalls network (disconnectCalls node.tip pprev diffHasChanges) node.state }

def LlmqNode.run (node : LlmqNode) (events : List NodeEvent) : LlmqNode :=
  events.foldl (LlmqNode.step network) node

/-! ## Bands of masternode counts -/

/-- The ranges of masternode counts that lead to one table. -/
inductive MnBand where
  | small
  | medium
  | mediumLarge
  | large
  | huge
  deriving DecidableEq

/-- The band of a count. -/
def mnBand (count : Nat) : MnBand :=
  if (count < 80 ∧ network = .test) ∨ (count < 100 ∧ network ≠ .test) then .small
  else if count < 200 then .medium
  else if count < 600 then .mediumLarge
  else if count ≤ 2000 then .large
  else .huge

/-- The table with the entries of a band. -/
def MnBand.write : MnBand → LlmqTable → LlmqTable
  | .small => assignLLMQs llmq_10_60 llmq_20_60 llmq_20_85 llmq_10_75
  | .medium => assignLLMQs llmq_50_60 llmq_40_60 llmq_40_85 llmq_10_75
  | .mediumLarge => assignLLMQs llmq_50_60 llmq_40_60 llmq_40_85 llmq_20_75
  | .large => assignLLMQs llmq_50_60 llmq_400_60 llmq_400_85 llmq_20_75
  | .huge => assignLLMQs llmq_50_60 llmq_400_60 llmq_400_85 llmq_60_75

/-- The table of a band on the public networks. -/
def MnBand.table (band : MnBand) : LlmqTable := band.write initialLLMQs

lemma writeLLMQs_eq (count : Nat) (llmqs : LlmqTable) :
    writeLLMQs network count llmqs = (mnBand network count).write llmqs := by
  unfold writeLLMQs mnBand
  by_cases hsmall : (count < 80 ∧ network = .test) ∨ (count < 100 ∧ network ≠ .test)
  · simp only [if_pos hsmall]
    rfl
  · simp only [if_neg hsmall]
    -- the source nests the bounds 200 and 2000 inside 600
    by_cases h200 : count < 200
    · rw [if_pos (by omega), if_neg (by omega), if_pos h200]
      rfl
    · rw [if_neg h200]
      by_cases h600 : count < 600
      · rw [if_pos h600, if_pos (by omega), if_pos h600]
        rfl
      · rw [if_neg h600, if_neg h600]
        by_cases h2000 : count ≤ 2000
        · rw [if_neg (by omega), if_pos h2000]
          rfl
        · rw [if_pos (by omega), if_neg h2000]
          rfl

end

/-- Every entry is one of the parameter sets, filed under its type. -/
def LlmqTable.OfSets (llmqs : LlmqTable) : Prop :=
  ∀ llmqType params, llmqs llmqType = some params → params ∈ parameterSets ∧ params.type = llmqType

lemma ofSets_initialLLMQs : LlmqTable.OfSets initialLLMQs := by
  intro llmqType params h
  unfold initialLLMQs at h
  split at h <;> cases h <;> decide

/-- The tables of the public networks have sets of `llmq/params.h`, whatever the number of
masternodes is. -/
lemma LlmqTable.OfSets.write {llmqs : LlmqTable} (h : llmqs.OfSets) (network : Network)
    (totalMnCount : Nat) : LlmqTable.OfSets (writeLLMQs network totalMnCount llmqs) := by
  intro llmqType params hparams
  rw [writeLLMQs_eq] at hparams
  cases hband : mnBand network totalMnCount <;>
    simp only [hband, MnBand.write, assignLLMQs] at hparams <;> split at hparams <;>
    first | exact h _ _ hparams | (cases hparams; decide)

lemma assignLLMQs_assignLLMQs (a b c d a' b' c' d' : LLMQParams) (llmqs : LlmqTable) :
    assignLLMQs a b c d (assignLLMQs a' b' c' d' llmqs) = assignLLMQs a b c d llmqs := by
  funext type
  cases type <;> rfl

/-- Writing a band forgets the band written before. -/
lemma MnBand.write_table (band band' : MnBand) : band.write band'.table = band.table := by
  cases band <;> cases band' <;> exact assignLLMQs_assignLLMQs ..

/-- The last branch of `UpdateLLMQParams` writes what the two lower bands have anyway. -/
lemma MnBand.update_table {band : MnBand} (h : band = .small ∨ band = .medium) :
    update band.table .llmq60_75 (some llmq_10_75) = band.table := by
  rw [update_eq_self_iff]
  rcases h with rfl | rfl <;> rfl

variable {count : Nat}

lemma mnBand_of_lt_80 (network : Network) (h : count < 80) : mnBand network count = .small := by
  unfold mnBand
  rw [if_pos]
  by_cases htest : network = .test
  · exact .inl ⟨h, htest⟩
  · exact .inr ⟨by omega, htest⟩

lemma mnBand_of_lt_200 (network : Network) (h : count < 200) :
    mnBand network count = .small ∨ mnBand network count = .medium := by
  unfold mnBand
  by_cases hsmall : (count < 80 ∧ network = .test) ∨ (count < 100 ∧ network ≠ .test)
  · exact .inl (if_pos hsmall)
  · rw [if_neg hsmall]
    exact .inr (if_pos h)

/-! ## Calls -/

/-- The table is that of the band, and `UpdateLLMQParams` has run. -/
structure Settled (band : MnBand) (s : LlmqState) : Prop where
  lastCheckHeight : s.lastCheckHeight ≠ -1
  llmqs : s.llmqs = band.table

/-- `UpdateLLMQParams` has not run yet. -/
structure Unchecked (s : LlmqState) : Prop where
  lastCheckHeight : s.lastCheckHeight = -1
  llmqs : s.llmqs = initialLLMQs

/-- Main and test network. -/
def PublicNetwork (network : Network) : Prop := network = .main ∨ network = .test

lemma PublicNetwork.not_private {network : Network} (h : PublicNetwork network) :
    ¬ (network = .devnet ∨ network = .regtest) := by
  rcases h with rfl | rfl <;> decide

section Calls

variable {network : Network} {s : LlmqState} {band : MnBand} {count : Nat} {height : Int}

section

variable (hnet : PublicNetwork network)

include hnet

/-- The first call after a start writes the table. -/
lemma updateLLMQParams_first (h : Unchecked s) (hheight : 0 ≤ height) :
    Settled (mnBand network count) (updateLLMQParams network count height s) := by
  unfold updateLLMQParams
  rw [if_neg hnet.not_private, if_pos (.inr h.lastCheckHeight), h.llmqs, writeLLMQs_eq]
  refine ⟨?_, rfl⟩
  show height ≠ -1
  omega

/-- So does a call that the gate lets pass. -/
lemma updateLLMQParams_open (h : Settled band s)
    (hheight : s.lastCheckHeight < height) (hpos : 0 ≤ height)
    (hcount : s.lastCheckMnCount ≠ count)
    (hphase : isLLMQsMiningPhase band.table height = false) :
    Settled (mnBand network count) (updateLLMQParams network count height s) ∧
      (updateLLMQParams network count height s).lastCheckHeight = height := by
  have hgate : s.lastCheckHeight < height ∧ s.lastCheckMnCount ≠ count ∧
      isLLMQsMiningPhase s.llmqs height = false := ⟨hheight, hcount, h.llmqs ▸ hphase⟩
  unfold updateLLMQParams
  rw [if_neg hnet.not_private, if_pos (.inl hgate), h.llmqs, writeLLMQs_eq, MnBand.write_table]
  refine ⟨⟨?_, rfl⟩, rfl⟩
  show height ≠ -1
  omega

/-- A call from the band of the table leaves it. -/
lemma updateLLMQParams_sameBand (h : Settled band s)
    (hband : mnBand network count = band) (hheight : 0 ≤ height) :
    Settled band (updateLLMQParams network count height s) := by
  unfold updateLLMQParams
  rw [if_neg hnet.not_private]
  split
  · rw [h.llmqs, writeLLMQs_eq, hband, MnBand.write_table]
    refine ⟨?_, rfl⟩
    show height ≠ -1
    omega
  · split
    · next hcount =>
      -- fewer than 80 masternodes: the entry written is that of the lowest band
      have hsmall : band = .small := hband.symm.trans (mnBand_of_lt_80 network hcount)
      refine ⟨h.lastCheckHeight, ?_⟩
      rw [h.llmqs, MnBand.update_table (.inl hsmall)]
    · exact h

/-- A call for a height already passed leaves the table of a low band. -/
lemma updateLLMQParams_passed (h : Settled band s)
    (hheight : height ≤ s.lastCheckHeight) (hlow : count < 80 → band = .small ∨ band = .medium) :
    Settled band (updateLLMQParams network count height s) := by
  have hclosed : ¬ ((s.lastCheckHeight < height ∧ s.lastCheckMnCount ≠ count ∧
      isLLMQsMiningPhase s.llmqs height = false) ∨ s.lastCheckHeight = -1) := by
    rintro (hopen | hfirst)
    · omega
    · exact h.lastCheckHeight hfirst
  unfold updateLLMQParams
  rw [if_neg hnet.not_private, if_neg hclosed]
  split
  · next hcount =>
    refine ⟨h.lastCheckHeight, ?_⟩
    rw [h.llmqs, MnBand.update_table (hlow hcount)]
  · exact h

end

/-- What a call remembers is the call itself, if the gate was open, or what was remembered
before. -/
lemma updateLLMQParams_memory (network : Network) (count : Nat) (height : Int) (s : LlmqState) :
    let s' := updateLLMQParams network count height s
    ((s.lastCheckHeight < height ∨ s.lastCheckHeight = -1) ∧ s'.lastCheckMnCount = count ∧
        s'.lastCheckHeight = height) ∨
      (s'.lastCheckMnCount = s.lastCheckMnCount ∧ s'.lastCheckHeight = s.lastCheckHeight) := by
  unfold updateLLMQParams
  split
  · exact .inr ⟨rfl, rfl⟩
  · split
    · next hgate => exact .inl ⟨hgate.imp_left And.left, rfl, rfl⟩
    · split <;> exact .inr ⟨rfl, rfl⟩

lemma lastCheckHeight_le_updateLLMQParams (count : Nat) (hheight : 0 ≤ height) :
    s.lastCheckHeight ≤ (updateLLMQParams network count height s).lastCheckHeight := by
  rcases updateLLMQParams_memory network count height s with ⟨hopen, -, heq⟩ | ⟨-, heq⟩
  · omega
  · rw [heq]

/-- The account of a node's table: not yet written, or that of the band. -/
def Tracks (band : MnBand) (s : LlmqState) : Prop := Unchecked s ∨ Settled band s

/-- A call that leaves the table of the band: its count is in the band, or its height has
been passed. In the second case a count below 80 still sets one entry. -/
def CallOk (network : Network) (band : MnBand) (s : LlmqState) (call : UpdateCall) : Prop :=
  0 ≤ call.2 ∧ (mnBand network call.1 = band ∨
    (call.2 ≤ s.lastCheckHeight ∧ (call.1 < 80 → band = .small ∨ band = .medium)))

variable {call : UpdateCall} {calls : List UpdateCall}

lemma Tracks.updateLLMQParams (hnet : PublicNetwork network) (h : Tracks band s)
    (hcall : CallOk network band s call) :
    Settled band (updateLLMQParams network call.1 call.2 s) := by
  obtain ⟨hpos, hband | ⟨hpassed, hlow⟩⟩ := hcall
  · rcases h with hfirst | hsettled
    · exact hband ▸ updateLLMQParams_first hnet hfirst hpos
    · exact updateLLMQParams_sameBand hnet hsettled hband hpos
  · rcases h with hfirst | hsettled
    · have := hfirst.lastCheckHeight
      omega
    · exact updateLLMQParams_passed hnet hsettled hpassed hlow

/-- Heights passed stay passed. -/
lemma CallOk.updateLLMQParams (hcall : CallOk network band s call) (count : Nat)
    (hheight : 0 ≤ height) :
    CallOk network band (updateLLMQParams network count height s) call := by
  obtain ⟨hpos, hband | ⟨hpassed, hlow⟩⟩ := hcall
  · exact ⟨hpos, .inl hband⟩
  · exact ⟨hpos, .inr ⟨hpassed.trans (lastCheckHeight_le_updateLLMQParams count hheight), hlow⟩⟩

/-- Any number of such calls keeps the account. -/
lemma Tracks.runCalls (hnet : PublicNetwork network) (h : Tracks band s)
    (hcalls : ∀ call ∈ calls, CallOk network band s call) :
    Tracks band (runCalls network calls s) ∧
      (calls ≠ [] → Settled band (runCalls network calls s)) := by
  induction calls generalizing s with
  | nil => exact ⟨h, fun hne => absurd rfl hne⟩
  | cons call calls ih =>
    obtain ⟨hcall, hrest⟩ := forall_mem_cons.mp hcalls
    have hsettled := h.updateLLMQParams hnet hcall
    obtain ⟨htracks, hnonempty⟩ :=
      ih (.inr hsettled) fun c hc => (hrest c hc).updateLLMQParams call.1 hcall.1
    refine ⟨htracks, fun _ => ?_⟩
    rcases eq_nil_or_concat calls with rfl | ⟨init, last, rfl⟩
    · exact hsettled
    · exact hnonempty (by simp)

/-- After such calls below some height, the last height is still below it, and the last count
is the old one or in the band. -/
lemma runCalls_memory (hcalls : ∀ call ∈ calls, CallOk network band s call)
    (hbelow : ∀ call ∈ calls, call.2 < height) (hlast : s.lastCheckHeight < height) :
    (runCalls network calls s).lastCheckHeight < height ∧
      ((runCalls network calls s).lastCheckMnCount = s.lastCheckMnCount ∨
        mnBand network (runCalls network calls s).lastCheckMnCount = band) := by
  induction calls generalizing s with
  | nil => exact ⟨hlast, .inl rfl⟩
  | cons call calls ih =>
    obtain ⟨hcall, hrest⟩ := forall_mem_cons.mp hcalls
    obtain ⟨hcallBelow, hrestBelow⟩ := forall_mem_cons.mp hbelow
    have hrest' : ∀ c ∈ calls, CallOk network band (updateLLMQParams network call.1 call.2 s) c :=
      fun c hc => (hrest c hc).updateLLMQParams call.1 hcall.1
    rcases updateLLMQParams_memory network call.1 call.2 s with ⟨hopen, hcount, hheight⟩ | hsame
    · obtain ⟨hlt, hmem⟩ := ih hrest' hrestBelow (hheight.trans_lt hcallBelow)
      -- the gate was open, so the height had not been passed
      have hband : mnBand network call.1 = band := by
        refine hcall.2.resolve_right fun hpassed => ?_
        have := hcall.1
        omega
      refine ⟨hlt, .inr ?_⟩
      rcases hmem with heq | hin
      · show mnBand network (runCalls network calls _).lastCheckMnCount = band
        rw [heq, hcount]
        exact hband
      · exact hin
    · obtain ⟨hlt, hmem⟩ := ih hrest' hrestBelow (hsame.2.trans_lt hlast)
      exact ⟨hlt, hmem.imp_left fun heq => heq.trans hsame.1⟩

end Calls

/-! ## Steady runs -/

section

variable (network : Network) (node : LlmqNode)

/-- A lookup in the band of the tip, or at a height that `UpdateLLMQParams` has passed. -/
def LookupOk (call : UpdateCall) : Prop :=
  mnBand network call.1 = mnBand network node.tip.allMNsCount ∨
    (call.2 ≤ node.state.lastCheckHeight ∧ (call.1 < 80 → node.tip.allMNsCount < 200))

/-- Connecting the block takes the table from the band of the tip to that of the block: the
gate of `UpdateLLMQParams` is open for it, and the lookup of the tip that follows does not
overwrite an entry. -/
structure GateOpen (network : Network) (node : LlmqNode) (block : MnBlock)
    (lookups : List MnIndex) : Prop where
  active : ((createChainParams network).dip0003Height : Int) ≤ node.tip.nHeight + 1
  height : node.state.lastCheckHeight < node.tip.nHeight + 1
  count : node.state.lastCheckMnCount ≠ block.allMNsCount
  phase : isLLMQsMiningPhase (mnBand network node.tip.allMNsCount).table
    (node.tip.nHeight + 1) = false
  lookups : ∀ pindex ∈ lookups, pindex.nHeight < node.tip.nHeight + 1
  low : node.tip.allMNsCount < 80 → block.allMNsCount < 200

/-- An event that keeps to the band of the tip: lists are looked up and built in it or at
heights already passed, and a block changes it only when the gate is open. -/
def Steady : NodeEvent → Prop
  | .restart => True
  | .getListForBlock pindex => LookupOk network node pindex.lookupCall
  | .buildNewList pindexPrev lookups newCount =>
    ∀ call ∈ buildCalls pindexPrev lookups newCount, LookupOk network node call
  | .connect block lookups =>
    (∀ pindex ∈ lookups, LookupOk network node pindex.lookupCall) ∧
    (mnBand network block.allMNsCount = mnBand network node.tip.allMNsCount ∨
      GateOpen network node block lookups)
  | .disconnect _ => ∀ pprev ∈ node.tip.pprev,
    mnBand network pprev.allMNsCount = mnBand network node.tip.allMNsCount

/-- A run all of whose events are steady. -/
def SteadyRun (network : Network) : LlmqNode → List NodeEvent → Prop
  | _, [] => True
  | node, event :: events =>
    Steady network node event ∧ SteadyRun network (node.step network event) events

/-- The table of the node is that of its tip, or not yet written. -/
def LlmqNode.Tracks : Prop := Llmq.Tracks (mnBand network node.tip.allMNsCount) node.state

end

section Steady

variable {network : Network} {node : LlmqNode}

lemma MnIndex.nHeight_nonneg (pindex : MnIndex) : 0 ≤ pindex.nHeight := Int.natCast_nonneg _

lemma runCalls_append (network : Network) (calls calls' : List UpdateCall) (s : LlmqState) :
    runCalls network (calls ++ calls') s = runCalls network calls' (runCalls network calls s) :=
  foldl_append

variable {call : UpdateCall} {lookups : List MnIndex} {block : MnBlock}

lemma LookupOk.callOk (h : LookupOk network node call) (hpos : 0 ≤ call.2) :
    CallOk network (mnBand network node.tip.allMNsCount) node.state call :=
  ⟨hpos, h.imp_right fun hpassed =>
    ⟨hpassed.1, fun hlow => mnBand_of_lt_200 network (hpassed.2 hlow)⟩⟩

lemma callOk_tip : CallOk network (mnBand network node.tip.allMNsCount) node.state
    node.tip.lookupCall :=
  ⟨node.tip.nHeight_nonneg, .inl rfl⟩

lemma callOk_lookups (h : ∀ pindex ∈ lookups, LookupOk network node pindex.lookupCall) :
    ∀ call ∈ (node.tip :: lookups).map MnIndex.lookupCall,
      CallOk network (mnBand network node.tip.allMNsCount) node.state call := by
  intro call hcall
  obtain ⟨pindex, hmem, rfl⟩ := mem_map.mp hcall
  rcases mem_cons.mp hmem with rfl | hmem
  · exact callOk_tip
  · exact (h pindex hmem).callOk pindex.nHeight_nonneg

lemma nonneg_of_mem_buildCalls {pindexPrev : MnIndex} {newCount : Option Nat}
    (hcall : call ∈ buildCalls pindexPrev lookups newCount) : 0 ≤ call.2 := by
  rcases mem_append.mp hcall with hlookup | hbuilt
  · rcases mem_cons.mp hlookup with rfl | hlookup
    · exact pindexPrev.nHeight_nonneg
    · obtain ⟨pindex, -, rfl⟩ := mem_map.mp hlookup
      exact pindex.nHeight_nonneg
  · obtain ⟨count, -, rfl⟩ := mem_map.mp hbuilt
    have := pindexPrev.nHeight_nonneg
    omega

lemma connectCalls_of_active {tip : MnIndex}
    (h : ((createChainParams network).dip0003Height : Int) ≤ tip.nHeight + 1) :
    connectCalls network tip block lookups = (tip :: lookups).map MnIndex.lookupCall ++
      [(block.allMNsCount, tip.nHeight + 1), tip.lookupCall] := by
  rw [connectCalls, if_neg (by omega), buildCalls]
  simp

section

variable (hnet : PublicNetwork network) (h : node.Tracks network)

include hnet h

section

variable (hlookups : ∀ pindex ∈ lookups, LookupOk network node pindex.lookupCall)

include hlookups

lemma tracks_connect_of_sameBand
    (hband : mnBand network block.allMNsCount = mnBand network node.tip.allMNsCount) :
    Tracks (mnBand network node.tip.allMNsCount)
      (runCalls network (connectCalls network node.tip block lookups) node.state) := by
  by_cases hactive : ((createChainParams network).dip0003Height : Int) ≤ node.tip.nHeight + 1
  · refine (Tracks.runCalls hnet h fun call hcall => ?_).1
    rw [connectCalls_of_active hactive] at hcall
    rcases mem_append.mp hcall with hlookup | hlast
    · exact callOk_lookups hlookups call hlookup
    · rcases mem_pair.mp hlast with rfl | rfl
      · exact ⟨by show 0 ≤ node.tip.nHeight + 1; omega, .inl hband⟩
      · exact callOk_tip
  · rw [connectCalls, if_pos (by omega)]
    exact h

/-- Connecting a block of another band through the open gate. -/
lemma settled_connect_of_gateOpen
    (hband : mnBand network block.allMNsCount ≠ mnBand network node.tip.allMNsCount)
    (hgate : GateOpen network node block lookups) :
    Settled (mnBand network block.allMNsCount)
      (runCalls network (connectCalls network node.tip block lookups) node.state) := by
  have hpos := node.tip.nHeight_nonneg
  have hin := callOk_lookups hlookups
  have hbelow : ∀ call ∈ (node.tip :: lookups).map MnIndex.lookupCall,
      call.2 < node.tip.nHeight + 1 := by
    intro call hcall
    obtain ⟨pindex, hmem, rfl⟩ := mem_map.mp hcall
    rcases mem_cons.mp hmem with rfl | hmem
    · show node.tip.nHeight < node.tip.nHeight + 1
      omega
    · exact hgate.lookups pindex hmem
  -- the lookups before the new list is built
  obtain ⟨-, hsettled⟩ := Tracks.runCalls hnet h hin
  obtain ⟨hlast, hcount⟩ := runCalls_memory hin hbelow hgate.height
  set s := runCalls network ((node.tip :: lookups).map MnIndex.lookupCall) node.state
  have hnew : s.lastCheckMnCount ≠ block.allMNsCount := by
    rcases hcount with heq | hold
    · rw [heq]
      exact hgate.count
    · intro heq
      rw [heq] at hold
      exact hband hold
  -- the call for the new list, and the lookup of the tip after it
  obtain ⟨hopen, hheight⟩ :=
    updateLLMQParams_open hnet (hsettled (by simp)) hlast (by omega) hnew hgate.phase
  rw [connectCalls_of_active hgate.active, runCalls_append]
  refine updateLLMQParams_passed hnet hopen ?_ fun hlow => ?_
  · rw [hheight]
    show node.tip.nHeight ≤ node.tip.nHeight + 1
    omega
  · exact mnBand_of_lt_200 network (hgate.low hlow)

end

/-- **One steady event** keeps the account. -/
theorem Tracks.step {event : NodeEvent}
    (hsteady : Steady network node event) : (node.step network event).Tracks network := by
  cases event with
  | restart => exact .inl ⟨rfl, rfl⟩
  | getListForBlock pindex =>
    refine (Tracks.runCalls hnet h fun call hcall => ?_).1
    rw [mem_singleton.mp hcall]
    exact LookupOk.callOk hsteady pindex.nHeight_nonneg
  | buildNewList pindexPrev lookups newCount =>
    exact (Tracks.runCalls hnet h fun call hcall =>
      (hsteady call hcall).callOk (nonneg_of_mem_buildCalls hcall)).1
  | connect block lookups =>
    obtain ⟨hlookups, hblock⟩ := hsteady
    by_cases hband : mnBand network block.allMNsCount = mnBand network node.tip.allMNsCount
    · show Tracks (mnBand network block.allMNsCount) _
      rw [hband]
      exact tracks_connect_of_sameBand hnet h hlookups hband
    · exact .inr (settled_connect_of_gateOpen hnet h hlookups hband (hblock.resolve_left hband))
  | disconnect diffHasChanges =>
    unfold LlmqNode.step
    simp only
    split
    · exact h
    · next pprev hpprev =>
      have hband := hsteady pprev hpprev
      show Tracks (mnBand network pprev.allMNsCount) _
      rw [hband]
      refine (Tracks.runCalls hnet h fun call hcall => ?_).1
      rw [disconnectCalls] at hcall
      split at hcall
      · rcases mem_pair.mp hcall with rfl | rfl
        · exact callOk_tip
        · exact ⟨pprev.nHeight_nonneg, .inl hband⟩
      · cases hcall

/-- **A steady run** keeps the account in every state it reaches. -/
theorem run_tracks {events : List NodeEvent} (hsteady : SteadyRun network node events) :
    (node.run network events).Tracks network := by
  induction events generalizing node with
  | nil => exact h
  | cons event events ih => exact ih (Tracks.step hnet h hsteady.1) hsteady.2

end

lemma start_tracks (network : Network) (tip : MnIndex) :
    (LlmqNode.start tip).Tracks network := .inl ⟨rfl, rfl⟩

end Steady

/-- **The table is a function of the tip**: two steady runs on a public network that end on one
tip, each having looked up a list since its last start, end with one table. -/
theorem llmqs_eq_of_same_tip (network : Network) (hnet : PublicNetwork network)
    (start₁ start₂ : MnIndex) (events₁ events₂ : List NodeEvent)
    (hsteady₁ : SteadyRun network (.start start₁) events₁)
    (hsteady₂ : SteadyRun network (.start start₂) events₂)
    (hchecked₁ : ((LlmqNode.start start₁).run network events₁).state.lastCheckHeight ≠ -1)
    (hchecked₂ : ((LlmqNode.start start₂).run network events₂).state.lastCheckHeight ≠ -1)
    (htip : ((LlmqNode.start start₁).run network events₁).tip =
      ((LlmqNode.start start₂).run network events₂).tip) :
    ((LlmqNode.start start₁).run network events₁).state.llmqs =
      ((LlmqNode.start start₂).run network events₂).state.llmqs := by
  have htracks₁ := run_tracks hnet (start_tracks network start₁) hsteady₁
  have htracks₂ := run_tracks hnet (start_tracks network start₂) hsteady₂
  have hsettled₁ := htracks₁.resolve_left fun h => hchecked₁ h.lastCheckHeight
  have hsettled₂ := htracks₂.resolve_left fun h => hchecked₂ h.lastCheckHeight
  rw [hsettled₁.llmqs, hsettled₂.llmqs, htip]

/-- A chain of `n + 1` blocks with 99 masternodes; the low height stands for one with this
remainder. -/
def chainOf99 (n : Nat) : MnIndex := ⟨⟨n, 99⟩, (range n).reverse.map fun i => ⟨i, 99⟩⟩

/-- A node that connects the block with the hundredth masternode. -/
def connectHundredth (n : Nat) : List NodeEvent :=
  [.getListForBlock (chainOf99 n), .connect ⟨n + 1, 100⟩ []]

/-- The same, and a restart after it. -/
def connectHundredthAndRestart (n : Nat) : List NodeEvent :=
  connectHundredth n ++ [.restart, .getListForBlock ((chainOf99 n).extend ⟨n + 1, 100⟩)]

/-- At height 8, outside all mining phases, the restart makes no difference. -/
theorem llmqs_eq_outside_mining_phase :
    ((LlmqNode.start (chainOf99 7)).run .main (connectHundredth 7)).state.llmqs =
      ((LlmqNode.start (chainOf99 7)).run .main (connectHundredthAndRestart 7)).state.llmqs := by
  have hgate : GateOpen .main ((LlmqNode.start (chainOf99 7)).step .main
      (.getListForBlock (chainOf99 7))) ⟨8, 100⟩ [] := by
    constructor <;> decide
  refine llmqs_eq_of_same_tip .main (.inl rfl) (chainOf99 7) (chainOf99 7) (connectHundredth 7)
    (connectHundredthAndRestart 7) ?_ ?_ (by decide) (by decide) (by decide)
  · exact ⟨.inl rfl, ⟨by simp, .inr hgate⟩, trivial⟩
  · exact ⟨.inl rfl, ⟨by simp, .inr hgate⟩, trivial, .inl rfl, trivial⟩

/-- At height 10, in the mining phase of `LLMQ_50_60`, a node that connects the block keeps
quorums of 10 members, and one that is restarted after it takes quorums of 50. -/
theorem llmqs_differ_after_restart :
    ((LlmqNode.start (chainOf99 9)).run .main (connectHundredth 9)).tip =
        ((LlmqNode.start (chainOf99 9)).run .main (connectHundredthAndRestart 9)).tip ∧
      (((LlmqNode.start (chainOf99 9)).run .main (connectHundredth 9)).state.llmqs
        .llmq50_60).map LLMQParams.size = some 10 ∧
      (((LlmqNode.start (chainOf99 9)).run .main (connectHundredthAndRestart 9)).state.llmqs
        .llmq50_60).map LLMQParams.size = some 50 := by
  decide

end HootChain.Llmq

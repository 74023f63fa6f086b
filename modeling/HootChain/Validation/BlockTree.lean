import HootChain.Foundation.Branches
import HootChain.Primitives.Transaction
import Mathlib.Data.List.MinMax
import Mathlib.Data.Prod.Lex
import Mathlib.Logic.Function.Basic

/-!
# The Block Tree and the Active Chain (`validation.cpp`, `llmq/chainlocks.cpp`)

The state of a node that decides which chain is active: the block index with its flags, the
candidates for the next tip, and the best ChainLock. `ActivateBestChain` moves the tip to the
best candidate. It disconnects blocks first and finds out about invalid or conflicting blocks
only when it connects them; then it tries the next candidate.

Each operation is one step, also `ActivateBestChain`, which lets others in between its rounds.
The assertion that there is a candidate left is not modelled. Files are not pruned, disks do not
fail, the node is not shut down, ChainLocks stay enabled, and `ConnectBlock` gives the same
answer for a block every time, ChainLocks apart.
-/

namespace HootChain.Validation

open Primitives Foundation.Branches Function

/-! ## Blocks -/

/-- A header, by its hash, with `GetBlockProof`. -/
structure BlockHeader where
  hash : Uint256
  proof : Nat
  /-- `CheckProofOfWork` has accepted the target. -/
  proof_pos : 0 < proof
  deriving DecidableEq

/-- `CBlockIndex`: a block with its ancestors, the nearest first. The hash of a header covers
that of the parent, so blocks are equal if their hashes are. -/
abbrev CBlockIndex := List BlockHeader

namespace CBlockIndex

section

variable (pindex : CBlockIndex)

/-- `pprev`, empty for the genesis block. -/
def pprev : CBlockIndex := pindex.tail

def nHeight : Int := pindex.length - 1

def nChainWork : Nat := (pindex.map BlockHeader.proof).sum

def getAncestor (height : Int) : Option CBlockIndex :=
  if height > nHeight pindex ∨ height < 0 then none
  else some (pindex.drop (nHeight pindex - height).toNat)

end

end CBlockIndex

/-- The flags of `nStatus`. -/
structure BlockFlags where
  failedValid : Bool := false
  failedChild : Bool := false
  conflictChainlock : Bool := false
  /-- `BLOCK_VALID_SCRIPTS` has been reached. -/
  validScripts : Bool := false

/-- `BLOCK_FAILED_MASK`. -/
def BlockFlags.failed (flags : BlockFlags) : Bool := flags.failedValid || flags.failedChild

/-- What is known of the transactions of a block. -/
structure BlockData where
  /-- `BLOCK_HAVE_DATA`, and with it `BLOCK_VALID_TRANSACTIONS`. -/
  haveData : Bool := false
  /-- `nChainTx` is set: the transactions of all ancestors are there too. -/
  haveTxsDownloaded : Bool := false
  nSequenceId : Nat := 0

/-- What the active chain is computed from besides the state. -/
structure ChainEnv where
  genesis : BlockHeader
  /-- What `ConnectBlock` checks of a block besides ChainLocks. -/
  connectable : CBlockIndex → Bool
  /-- The addresses of the index entries. -/
  address : CBlockIndex → Nat
  nMinimumChainWork : Nat

/-- `CChainState` with the block manager, and the ChainLock handler. -/
structure CChainState where
  /-- `m_block_index`, in the order of arrival. -/
  blockIndex : List CBlockIndex
  flags : CBlockIndex → BlockFlags
  data : CBlockIndex → BlockData
  tip : CBlockIndex
  /-- `setBlockIndexCandidates`. -/
  candidates : List CBlockIndex
  /-- `m_blocks_unlinked`, the blocks without the parents they are filed under. -/
  unlinked : List CBlockIndex
  /-- `m_failed_blocks`, by address. -/
  failedBlocks : List CBlockIndex
  nBlockSequenceId : Nat
  /-- The block that `bestChainLock` signs. -/
  bestChainLock : Option CBlockIndex
  bestChainLockBlockIndex : Option CBlockIndex

/-- `CBlockIndexWorkComparator`: the first block is worse. -/
def workComparator (env : ChainEnv) (data : CBlockIndex → BlockData) (pa pb : CBlockIndex) : Bool :=
  if pa.nChainWork > pb.nChainWork then false
  else if pa.nChainWork < pb.nChainWork then true
  else if (data pa).nSequenceId < (data pb).nSequenceId then false
  else if (data pa).nSequenceId > (data pb).nSequenceId then true
  else if env.address pa < env.address pb then false
  else if env.address pa > env.address pb then true
  else false

/-- The order of the comparator. -/
def workKey (env : ChainEnv) (data : CBlockIndex → BlockData) (pindex : CBlockIndex) :
    ℕ ×ₗ ℕᵒᵈ ×ₗ ℕᵒᵈ :=
  toLex (pindex.nChainWork, toLex (OrderDual.toDual (data pindex).nSequenceId,
    OrderDual.toDual (env.address pindex)))

namespace CChainState

section

variable (env : ChainEnv) (s : CChainState) (pindex : CBlockIndex)

/-- The state with only the genesis block, which is loaded and connected first. -/
def start : CChainState where
  blockIndex := [[env.genesis]]
  flags := fun _ => {}
  data := update (fun _ => {}) [env.genesis] ⟨true, true, 1⟩
  tip := [env.genesis]
  candidates := [[env.genesis]]
  unlinked := []
  failedBlocks := []
  nBlockSequenceId := 2
  bestChainLock := none
  bestChainLockBlockIndex := none

section

variable (s : CChainState)

def contains (pindex : CBlockIndex) : Bool := pindex <:+ s.tip

/-- `InternalHasConflictingChainLock`. -/
def hasConflictingChainLock (pindex : CBlockIndex) : Bool :=
  match s.bestChainLockBlockIndex with
  | none => false
  | some lock =>
    if pindex.nHeight > lock.nHeight then false
    else if pindex.nHeight = lock.nHeight then pindex ≠ lock
    else lock.getAncestor pindex.nHeight ≠ some pindex

/-- Flags of some blocks are set. -/
def setFlags (blocks : List CBlockIndex) (set : BlockFlags → BlockFlags) : CChainState :=
  { s with flags := fun p => if p ∈ blocks then set (s.flags p) else s.flags p }

/-- Blocks are erased from `setBlockIndexCandidates`. -/
def eraseCandidates (blocks : List CBlockIndex) : CChainState :=
  { s with candidates := s.candidates.filter (· ∉ blocks) }

/-! ## The best candidate -/

/-- The first block without use on the way from a candidate to the active chain. -/
def firstUnusable : CBlockIndex → Option CBlockIndex
  | [] => none
  | block :: pprev =>
    if s.contains (block :: pprev) then none
    else if (s.flags (block :: pprev)).failed ∨ ¬ (s.data (block :: pprev)).haveData ∨
        (s.flags (block :: pprev)).conflictChainlock then some (block :: pprev)
    else firstUnusable pprev

/-- The chain of a candidate is removed, down to the block `pindexTest` that is of no use. -/
def removeChain (pindexNew pindexTest : CBlockIndex) : CChainState :=
  let chain := above pindexTest pindexNew
  let marked :=
    if (s.flags pindexTest).failed then
      s.setFlags chain fun flags => { flags with failedChild := true }
    else if (s.flags pindexTest).conflictChainlock then
      s.setFlags chain fun flags => { flags with conflictChainlock := true }
    -- only the data is missing
    else { s with unlinked := s.unlinked ++ chain }
  marked.eraseCandidates (pindexTest :: chain)

end

/-- The loop of `FindMostWorkChain`; each round removes a candidate. -/
def findMostWorkLoop (env : ChainEnv) : Nat → CChainState → CChainState × Option CBlockIndex
  | 0, s => (s, none)
  | fuel + 1, s =>
    match s.candidates.argmax (workKey env s.data) with
    | none => (s, none)
    | some pindexNew =>
      match s.firstUnusable pindexNew with
      | none => (s, some pindexNew)
      | some pindexTest => findMostWorkLoop env fuel (s.removeChain pindexNew pindexTest)

def findMostWorkChain : CChainState × Option CBlockIndex :=
  findMostWorkLoop env s.candidates.length s

def pruneBlockIndexCandidates : CChainState :=
  { s with candidates := s.candidates.filter fun p => ¬ workComparator env s.data p s.tip }

/-! ## Connecting blocks -/

/-- An entry of `m_failed_blocks`. -/
def insertFailed : CChainState :=
  if pindex ∈ s.failedBlocks then s
  else { s with failedBlocks :=
    s.failedBlocks.orderedInsert (fun a b => env.address a ≤ env.address b) pindex }

def invalidBlockFound : CChainState :=
  ((s.setFlags [pindex] fun flags => { flags with failedValid := true }).insertFailed env
    pindex).eraseCandidates [pindex]

/-- `ConnectTip`, where the block is valid. -/
def connectTip (pindexNew : CBlockIndex) : Option CChainState :=
  if s.hasConflictingChainLock pindexNew then none
  else if ¬ env.connectable pindexNew then none
  else some { s.setFlags [pindexNew] fun flags => { flags with validScripts := true } with
    tip := pindexNew }

/-- The loop of `ActivateBestChainStep` over the blocks to connect, with `fInvalidFound`. -/
def connectBlocks (env : ChainEnv) (pindexOldTip : CBlockIndex) :
    List CBlockIndex → CChainState → CChainState × Bool
  | [], s => (s, false)
  | pindexConnect :: rest, s =>
    match s.connectTip env pindexConnect with
    | none => (s.invalidBlockFound env pindexConnect, true)
    | some connected =>
      let pruned := connected.pruneBlockIndexCandidates env
      -- a better position than before; the step ends here
      if pruned.tip.nChainWork > pindexOldTip.nChainWork then (pruned, false)
      else connectBlocks env pindexOldTip rest pruned

/-- `ActivateBestChainStep`: back to the fork, then on towards `pindexMostWork`. -/
def activateBestChainStep (pindexMostWork : CBlockIndex) : CChainState × Bool :=
  connectBlocks env s.tip (pending s.tip pindexMostWork) { s with tip := fork s.tip pindexMostWork }

/-- The variables at the end of the inner loop of `ActivateBestChain`. -/
structure Round where
  state : CChainState
  pindexMostWork : Option CBlockIndex
  blocksConnected : Bool

/-- The candidate that is kept from the step before, or the best one. -/
def chooseMostWork (r : Round) : CChainState × Option CBlockIndex :=
  match r.pindexMostWork with
  | none => r.state.findMostWorkChain env
  | some pindexMostWork => (r.state, some pindexMostWork)

/-- The inner loop, from the tip it started with; `none` if the fuel did not last. -/
def activateRound (env : ChainEnv) (startingTip : CBlockIndex) : Nat → Round → Option Round
  | 0, _ => none
  | fuel + 1, r =>
    let found := chooseMostWork env r
    match found.2 with
    | none => some ⟨found.1, none, r.blocksConnected⟩
    | some pindexMostWork =>
      if pindexMostWork = found.1.tip then
        some ⟨found.1, some pindexMostWork, r.blocksConnected⟩
      else
        let step := found.1.activateBestChainStep env pindexMostWork
        let r' : Round := ⟨step.1, if step.2 then none else some pindexMostWork, true⟩
        if workComparator env step.1.data step.1.tip startingTip then
          activateRound env startingTip fuel r'
        else some r'

/-- The blocks that are not marked as failed. -/
def countUnfailed (s : CChainState) : Nat := s.blockIndex.countP fun p => !(s.flags p).failed

/-- The length of the longest chain. -/
def longest (s : CChainState) : Nat := (s.blockIndex.map List.length).foldr max 0

/-- More steps than `ActivateBestChain` can take: after each way up some chain another block is
marked as failed. -/
def stepBound (s : CChainState) : Nat := (s.countUnfailed + 1) * (s.longest + 3)

/-- The outer loop of `ActivateBestChain`. -/
def activateLoop (env : ChainEnv) (stepFuel : Nat) :
    Nat → CChainState → Option CBlockIndex → Option CChainState
  | 0, _, _ => none
  | fuel + 1, s, pindexMostWork =>
    match activateRound env s.tip stepFuel ⟨s, pindexMostWork, false⟩ with
    | none => none
    | some r =>
      if ¬ r.blocksConnected then some r.state
      else if r.pindexMostWork = some r.state.tip then some r.state
      else activateLoop env stepFuel fuel r.state r.pindexMostWork

def activateBestChain : Option CChainState := activateLoop env s.stepBound s.stepBound s none

/-! ## Headers and blocks -/

/-- `AddToBlockIndex` of a header that is new. -/
def addToBlockIndex (s : CChainState) (pindexNew : CBlockIndex) (flags : BlockFlags) :
    CChainState :=
  { s with
    blockIndex := s.blockIndex ++ [pindexNew]
    flags := update s.flags pindexNew flags
    data := update s.data pindexNew {} }

def acceptedBlockHeader (s : CChainState) (pindexNew : CBlockIndex) : CChainState :=
  if s.bestChainLock = some pindexNew then { s with bestChainLockBlockIndex := some pindexNew }
  else s

/-- The failed block that a new header descends from, if the parent has not been connected
before. -/
def failedAncestor (s : CChainState) (pindexPrev : CBlockIndex) : Option CBlockIndex :=
  if (s.flags pindexPrev).validScripts then none
  else s.failedBlocks.find? fun failedit => failedit <:+ pindexPrev

/-- `AcceptBlockHeader`, with its result; `headerOk` is what `CheckBlockHeader` and
`ContextualCheckBlockHeader` say. -/
def acceptBlockHeader (headerOk : Bool) : CChainState × Bool :=
  if pindex = [env.genesis] then (s.acceptedBlockHeader pindex, true)
  else if pindex ∈ s.blockIndex then
    (s, !(s.flags pindex).failed && !(s.flags pindex).conflictChainlock)
  else if ¬ headerOk then (s, false)
  else if pindex.pprev ∉ s.blockIndex then (s, false)
  else if (s.flags pindex.pprev).failed then (s, false)
  else if (s.flags pindex.pprev).conflictChainlock then (s, false)
  else
    match s.failedAncestor pindex.pprev with
    | some failedit =>
      (s.setFlags (above failedit pindex.pprev) fun flags => { flags with failedChild := true },
        false)
    | none =>
      if s.hasConflictingChainLock pindex then
        (s.addToBlockIndex pindex { conflictChainlock := true }, false)
      else ((s.addToBlockIndex pindex {}).acceptedBlockHeader pindex, true)

/-- A block gets its place in the sequence and may become a candidate. -/
def linkBlock : CChainState :=
  let linked := { s with
    data := update s.data pindex
      { s.data pindex with haveTxsDownloaded := true, nSequenceId := s.nBlockSequenceId }
    nBlockSequenceId := s.nBlockSequenceId + 1 }
  if ¬ workComparator env linked.data pindex linked.tip ∧
      ¬ (linked.flags pindex).conflictChainlock then
    { linked with candidates := linked.candidates.insert pindex }
  else linked

/-- The queue of `ReceivedBlockTransactions`; each block enters it at most once. -/
def linkQueue (env : ChainEnv) : Nat → List CBlockIndex → CChainState → CChainState
  | 0, _, s => s
  | _ + 1, [], s => s
  | fuel + 1, pindex :: queue, s =>
    let linked := s.linkBlock env pindex
    linkQueue env fuel (queue ++ linked.unlinked.filter (·.pprev = pindex))
      { linked with unlinked := linked.unlinked.filter (·.pprev ≠ pindex) }

/-- The data of a block is there; `nChainTx` is not yet known. -/
def receiveData (s : CChainState) (pindexNew : CBlockIndex) : CChainState :=
  { s with
    data := update s.data pindexNew
      { s.data pindexNew with haveData := true, haveTxsDownloaded := false } }

def receivedBlockTransactions (pindexNew : CBlockIndex) : CChainState :=
  let received := s.receiveData pindexNew
  if pindexNew.pprev = [] ∨ (received.data pindexNew.pprev).haveTxsDownloaded then
    received.linkQueue env (received.unlinked.length + 1) [pindexNew]
  else if ¬ (received.flags pindexNew.pprev).failed then
    { received with unlinked := received.unlinked ++ [pindexNew] }
  else received

/-- The result of `ContextualCheckBlock`. A block that fails `CheckBlock` changes nothing. -/
inductive CheckResult where
  | ok
  | invalid
  | mutated

/-- A block, and what its checks say. -/
structure BlockArrival where
  pindex : CBlockIndex
  fRequested : Bool
  headerOk : Bool := true
  check : CheckResult := .ok

def minBlocksToKeep : Int := 288

/-- The blocks that are not processed unless they were asked for. -/
def skipsUnrequested : Bool :=
  pindex.nChainWork < s.tip.nChainWork || pindex.nHeight > s.tip.nHeight + minBlocksToKeep ||
    pindex.nChainWork < env.nMinimumChainWork

/-- `AcceptBlock`, with its result. -/
def acceptBlock (arrival : BlockArrival) : CChainState × Bool :=
  let header := s.acceptBlockHeader env arrival.pindex arrival.headerOk
  let s' := header.1
  if ¬ header.2 then (s', false)
  else if (s'.data arrival.pindex).haveData then (s', true)
  else if ¬ arrival.fRequested ∧ s'.skipsUnrequested env arrival.pindex then (s', true)
  else
    match arrival.check with
    | .ok => (s'.receivedBlockTransactions env arrival.pindex, true)
    | .invalid =>
      (s'.setFlags [arrival.pindex] fun flags => { flags with failedValid := true }, false)
    | .mutated => (s', false)

def processNewBlock (arrival : BlockArrival) : Option CChainState :=
  let accepted := s.acceptBlock env arrival
  if accepted.2 then accepted.1.activateBestChain env else some accepted.1

/-! ## ChainLocks -/

/-- `ProcessNewChainLock` for a valid signature of a block. -/
def processNewChainLock (s : CChainState) (pindex : CBlockIndex) : CChainState :=
  if s.bestChainLock.any fun best => pindex.nHeight ≤ best.nHeight then s
  else { s with
    bestChainLock := some pindex
    bestChainLockBlockIndex :=
      if pindex ∈ s.blockIndex then some pindex else s.bestChainLockBlockIndex }

/-- A block that may be a candidate, apart from its work. -/
def isCandidate (s : CChainState) (p : CBlockIndex) : Bool :=
  !(s.flags p).failed && (s.data p).haveData && !(s.flags p).conflictChainlock &&
    (s.data p).haveTxsDownloaded

def markConflictingBlock : CChainState :=
  let disconnected := if s.contains pindex then above pindex s.tip else []
  let tip := if s.contains pindex then pindex.pprev else s.tip
  let marked := (({ s with tip } : CChainState).setFlags (pindex :: disconnected)
    fun flags => { flags with conflictChainlock := true }).eraseCandidates (pindex :: disconnected)
  { marked with candidates := marked.candidates ∪ marked.blockIndex.filter fun p =>
      marked.isCandidate p && !workComparator env marked.data p marked.tip }

/-- Failure flags are removed; the blocks are candidates again if they are better. -/
def clearFailed (blocks : List CBlockIndex) : CChainState :=
  let cleared := s.setFlags blocks fun flags =>
    { flags with failedValid := false, failedChild := false }
  { cleared with
    candidates := cleared.candidates ∪ blocks.filter fun p =>
      cleared.isCandidate p && workComparator env cleared.data cleared.tip p
    failedBlocks := cleared.failedBlocks.filter (· ∉ blocks) }

/-- The children of a block that were marked for its sake are failed blocks in their own
right. -/
def failChildren : CChainState :=
  (s.blockIndex.filter fun p : CBlockIndex => p.pprev = pindex && (s.flags p).failedChild).foldl
    (invalidBlockFound env) s

/-- The loop of `ResetBlockFailureFlags` over a block and its ancestors. -/
def resetAncestors (env : ChainEnv) : CBlockIndex → CChainState → CChainState
  | [], s => s
  | block :: pprev, s =>
    let pindex := block :: pprev
    resetAncestors env pprev
      (if (s.flags pindex).failed then (s.clearFailed env [pindex]).failChildren env pindex else s)

def isValid (s : CChainState) (pindex : CBlockIndex) : Bool :=
  !(s.flags pindex).failed && (s.data pindex).haveData

def resetBlockFailureFlags : CChainState :=
  (s.clearFailed env (s.blockIndex.filter fun p => !s.isValid p && pindex <:+ p)).resetAncestors
    env pindex

/-- The loop of `EnforceBlock`: the siblings of the blocks that are not in the active chain. -/
def enforceLoop (env : ChainEnv) : CBlockIndex → CChainState → CChainState
  | [], s => s
  | block :: pprev, s =>
    if s.contains (block :: pprev) then s
    else
      let siblings := s.blockIndex.filter fun p : CBlockIndex => p.pprev = pprev && p ≠ block :: pprev
      enforceLoop env pprev (siblings.foldl (markConflictingBlock env) s)

def enforceBlock : CChainState :=
  let enforced := enforceLoop env pindex s
  if enforced.isValid pindex then enforced else enforced.resetBlockFailureFlags env pindex

def enforceBestChainLock : Option CChainState :=
  match s.bestChainLockBlockIndex with
  | none => some s
  | some pindex =>
    let enforced := s.enforceBlock env pindex
    if enforced.tip.getAncestor pindex.nHeight ≠ some pindex then enforced.activateBestChain env
    else some enforced

/-! ## Runs -/

/-- What happens to a node. -/
inductive ChainEvent where
  | header (pindex : CBlockIndex) (headerOk : Bool)
  | block (arrival : BlockArrival)
  | chainLock (pindex : CBlockIndex)
  /-- The scheduler gets to `EnforceBestChainLock`. -/
  | enforce

def step : ChainEvent → Option CChainState
  | .header pindex headerOk => some (s.acceptBlockHeader env pindex headerOk).1
  | .block arrival => s.processNewBlock env arrival
  | .chainLock pindex => some (s.processNewChainLock pindex)
  | .enforce => s.enforceBestChainLock env

end

def run (env : ChainEnv) : CChainState → List ChainEvent → Option CChainState
  | s, [] => some s
  | s, event :: events => (s.step env event).bind fun s' => run env s' events

end CChainState

end HootChain.Validation

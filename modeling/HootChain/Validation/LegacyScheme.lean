import HootChain.Consensus.Params

/-!
# The BLS Scheme Flag (`evo/specialtxman.cpp`, `validation.cpp`)

`bls::bls_legacy_scheme` selects the encoding of BLS objects. It is switched once the special
transactions of the last block before `V19Height` are processed, and switched back when that
block is undone. A block that is given up after that leaves the flag switched.
-/

namespace HootChain.Validation.LegacyScheme

open Consensus Bool

/-! ## The calls -/

def v19Height : Network → Nat
  | .main => 350
  | .test | .devnet => 300
  | .regtest => 900

/-- What can fail while a block is tested or connected. -/
inductive Check where
  /-- `ReadBlockFromDisk`. -/
  | readBlock
  | contextualCheckBlockHeader
  | contextualCheckBlock
  | checkBlock
  | chainLock
  /-- `VerifyBestBlock` of the evo database. -/
  | bestBlock
  | bip30
  | superblockStart
  | specialTx
  | quorumBlock
  | masternodes
  | cbTxMerkleRoots
  | cbTxBestChainlock
  | mnhf
  | txInputs
  | feeRange
  | sequenceLocks
  | sigOps
  | inputScripts
  | checkQueue
  | instantSend
  | creditPool
  | blockValue
  | blockPayee
  | undoData
  | indexes
  /-- `FlushStateToDisk`. -/
  | flushState

/-- The checks that a block fails. -/
abbrev Block := Check → Bool

/-- No check of a list fails. -/
def Block.passes (block : Block) (checks : List Check) : Bool := checks.all fun check => !block check

/-- The flag, and the number of blocks in the active chain: the height of the tip plus one. -/
structure State where
  blocks : Nat
  blsLegacyScheme : Bool
  deriving DecidableEq

section Calls

variable (v19 : Nat)

section

variable (block : Block)

/-- `ProcessSpecialTxsInBlock`, with the flag it leaves. The switch comes last. -/
def processSpecialTxsInBlock (nHeight : Nat) (flag : Bool) : Bool × Bool :=
  if block.passes [.specialTx, .quorumBlock, .masternodes, .cbTxMerkleRoots, .cbTxBestChainlock,
      .mnhf] then (true, if v19 = nHeight + 1 then false else flag)
  else (false, flag)

/-- The checks of `ConnectBlock` once the flag may have been switched. -/
def laterChecks (fJustCheck : Bool) : List Check :=
  [.txInputs, .feeRange, .sequenceLocks, .sigOps, .inputScripts, .checkQueue, .instantSend,
    .creditPool, .blockValue, .blockPayee] ++ if fJustCheck then [] else [.undoData, .indexes]

/-- `ConnectBlock`, with the flag it leaves. -/
def connectBlock (nHeight : Nat) (fJustCheck flag : Bool) : Bool × Bool :=
  if ¬ block.passes [.checkBlock, .chainLock, .bestBlock] then (false, flag)
  -- the genesis block
  else if nHeight = 0 then (true, flag)
  else if ¬ block.passes [.bip30, .superblockStart] then (false, flag)
  else
    let special := processSpecialTxsInBlock v19 block nHeight flag
    (special.1 && block.passes (laterChecks fJustCheck), special.2)

def connectTip (s : State) : State :=
  if ¬ block.passes [.readBlock] then s
  else
    let connected := connectBlock v19 block s.blocks false s.blsLegacyScheme
    if connected.1 && block.passes [.flushState] then ⟨s.blocks + 1, connected.2⟩
    else ⟨s.blocks, connected.2⟩

/-- The checks of `TestBlockValidity` before `ConnectBlock`. -/
def templateChecks : List Check :=
  [.chainLock, .contextualCheckBlockHeader, .checkBlock, .contextualCheckBlock]

/-- `TestBlockValidity`, which restores the flag if the block is valid. -/
def testBlockValidity (s : State) : State :=
  if ¬ block.passes templateChecks then s
  else
    let connected := connectBlock v19 block s.blocks true s.blsLegacyScheme
    if connected.1 then s else ⟨s.blocks, connected.2⟩

/-- The end of the `try` block of `UndoSpecialTxsInBlock`. -/
inductive UndoResult where
  | undone
  | failed
  | threw
  deriving DecidableEq

/-- `UndoSpecialTxsInBlock`, with the flag it leaves. The switch comes first, and only an
exception takes it back. -/
def undoSpecialTxsInBlock (result : UndoResult) (nHeight : Nat) (flag : Bool) : Bool × Bool :=
  let switched := if v19 = nHeight + 1 then true else flag
  match result with
  | .undone => (true, switched)
  | .failed => (false, switched)
  | .threw => (false, flag)

/-- What `DisconnectTip` meets. -/
structure Undo where
  /-- The block and its undo data are read, and belong together. -/
  readable : Bool
  special : UndoResult
  /-- `DisconnectBlock` returns `DISCONNECT_OK`, and the state is flushed. -/
  finished : Bool

/-- `DisconnectTip`. There is no undo data for the genesis block. -/
def disconnectTip (undo : Undo) (s : State) : State :=
  if s.blocks < 2 ∨ ¬ undo.readable then s
  else
    let special := undoSpecialTxsInBlock v19 undo.special (s.blocks - 1) s.blsLegacyScheme
    if special.1 && undo.finished then ⟨s.blocks - 1, special.2⟩ else ⟨s.blocks, special.2⟩

inductive Call where
  | connectTip (block : Block)
  | disconnectTip (undo : Undo)
  | testBlockValidity (block : Block)

/-- The state after a call. -/
def step (s : State) : Call → State
  | .connectTip block => connectTip v19 block s
  | .disconnectTip undo => disconnectTip v19 undo s
  | .testBlockValidity block => testBlockValidity v19 block s

/-! ## When the flag is right -/

/-- Legacy encodings are used for the next block. -/
def Right (s : State) : Prop := s.blsLegacyScheme = decide (s.blocks < v19)

instance (s : State) : Decidable (Right v19 s) := inferInstanceAs (Decidable (_ = _))

/-- Everything up to the switch is passed. -/
def Block.switches : Bool :=
  block.passes [.checkBlock, .chainLock, .bestBlock, .bip30, .superblockStart, .specialTx,
    .quorumBlock, .masternodes, .cbTxMerkleRoots, .cbTxBestChainlock, .mnhf]

end

/-- The block is the one at which the flag is switched, and it is given up later on. -/
def givesUpLate (s : State) : Call → Bool
  | .connectTip block => v19 = s.blocks + 1 && block.passes [.readBlock] && block.switches &&
      !block.passes (laterChecks false ++ [.flushState])
  | .disconnectTip undo => v19 = s.blocks && undo.readable &&
      (undo.special = .failed || undo.special = .undone && !undo.finished)
  | .testBlockValidity block => v19 = s.blocks + 1 && block.passes templateChecks &&
      block.switches && !block.passes (laterChecks true)

/-- The flag is right after every call. -/
def AllRight : State → List Call → Prop
  | _, [] => True
  | s, call :: calls => Right v19 (step v19 s call) ∧ AllRight (step v19 s call) calls

/-- No call of a run gives up late. -/
def noneLate : State → List Call → Bool
  | _, [] => true
  | s, call :: calls => !givesUpLate v19 s call && noneLate (step v19 s call) calls

end Calls

section Runs

variable {v19 : Nat} {s : State}

lemma passes_append (block : Block) (checks checks' : List Check) :
    block.passes (checks ++ checks') = (block.passes checks && block.passes checks') :=
  List.all_append

/-- What `ConnectBlock` does from the second block on. -/
lemma connectBlock_eq (block : Block) {nHeight : Nat} (hpos : nHeight ≠ 0)
    (fJustCheck flag : Bool) : connectBlock v19 block nHeight fJustCheck flag =
      (block.switches && block.passes (laterChecks fJustCheck),
        if block.switches = true ∧ v19 = nHeight + 1 then false else flag) := by
  have hswitches : block.switches = (block.passes [.checkBlock, .chainLock, .bestBlock] &&
      (block.passes [.bip30, .superblockStart] && block.passes [.specialTx, .quorumBlock,
        .masternodes, .cbTxMerkleRoots, .cbTxBestChainlock, .mnhf])) := by
    rw [← passes_append, ← passes_append]
    rfl
  unfold connectBlock processSpecialTxsInBlock
  split_ifs <;> simp_all

/-- **One call.** -/
theorem right_step_iff (h2 : 2 ≤ v19) (h : Right v19 s) (call : Call) :
    Right v19 (step v19 s call) ↔ givesUpLate v19 s call = false := by
  cases call with
  | connectTip block =>
    rw [step, connectTip, givesUpLate, passes_append]
    by_cases hfirst : s.blocks = 0
    · simp only [connectBlock, hfirst]
      grind [Right]
    · rw [connectBlock_eq block hfirst]
      grind [Right]
  | disconnectTip undo =>
    unfold step disconnectTip givesUpLate undoSpecialTxsInBlock
    cases hspecial : undo.special <;> grind [Right]
  | testBlockValidity block =>
    rw [step, testBlockValidity, givesUpLate]
    by_cases hfirst : s.blocks = 0
    · simp only [connectBlock, hfirst]
      grind [Right]
    · rw [connectBlock_eq block hfirst]
      grind [Right]

/-- **Whole runs.** From a state with the right flag on, the flag is right after every call
exactly if no call gives up after the switch. -/
theorem scheme_right_iff (network : Network) (s : State) (h : Right (v19Height network) s)
    (calls : List Call) :
    AllRight (v19Height network) s calls ↔ noneLate (v19Height network) s calls = true := by
  have h2 : 2 ≤ v19Height network := by cases network <;> decide
  induction calls generalizing s with
  | nil => simp [AllRight, noneLate]
  | cons call calls ih =>
    rw [AllRight, noneLate, right_step_iff h2 h, and_eq_true, not_eq_true']
    refine and_congr_right fun hlate => ?_
    exact ih _ ((right_step_iff h2 h call).mpr hlate)

theorem scheme_right_activation :
    let calls : List Call := [.testBlockValidity fun _ => false, .connectTip fun _ => false]
    AllRight 300 ⟨299, true⟩ calls ↔ noneLate 300 ⟨299, true⟩ calls = true :=
  scheme_right_iff .test ⟨299, true⟩ (by decide) _

/-- Beside the last block before the activation, a template and a block with a bad payee leave the
flag switched; so does an undo that fails. -/
theorem scheme_wrong :
    let badPayee : Block := fun check => check matches .blockPayee
    (testBlockValidity 300 badPayee ⟨299, true⟩ = ⟨299, false⟩ ∧
      connectTip 300 badPayee ⟨299, true⟩ = ⟨299, false⟩ ∧ ¬ Right 300 ⟨299, false⟩) ∧
    disconnectTip 300 ⟨true, .failed, false⟩ ⟨300, false⟩ = ⟨300, true⟩ ∧ ¬ Right 300 ⟨300, true⟩ := by
  decide

end Runs

end HootChain.Validation.LegacyScheme

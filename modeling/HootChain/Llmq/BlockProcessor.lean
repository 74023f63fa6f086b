import HootChain.Foundation.CachedReads
import HootChain.Foundation.CachedSet
import HootChain.Foundation.EventRuns
import HootChain.Llmq.Commitment

/-!
# Mined Commitments (`llmq/blockprocessor.cpp`)

In the mining phase of a cycle a block has to have a commitment, possibly a null one,
for every quorum of the cycle whose commitment is not mined yet. `ProcessBlock` compares
the *number* of commitments of each type with the number of such quorums, and then looks
at the commitments one by one. A null commitment passes whatever its index is, if it
names the block at the height of the index: the index may be out of range, may have its
commitment mined already, or may be the index of another commitment of the block.

Whether a commitment is mined is answered through a cache. A block that is rejected
leaves answers behind that hold only inside of it.
-/

namespace HootChain.Llmq.BlockProcessor

open Foundation Primitives CachedSet List Function Option Nat

/-! ## Chains -/

/-- A block: its hash and the payloads of its commitment transactions, `none` where
`GetTxPayload` fails. -/
structure QBlock where
  hash : Uint256
  payloads : List (Option CFinalCommitment) := []
  hash_ne : hash ≠ 0 := by decide
  deriving DecidableEq

open QBlock

/-- The active chain, by height. -/
abbrev QChain := List QBlock

def QChain.height (chain : QChain) : Int := chain.length - 1

def getBlockHash (chain : QChain) (nBlockHeight : Int) : Option Uint256 :=
  if nBlockHeight < -1 ∨ nBlockHeight > QChain.height chain then none
  else
    let nBlockHeight := if nBlockHeight = -1 then QChain.height chain else nBlockHeight
    chain[nBlockHeight.toNat]?.map hash

/-- `LookupBlockIndex`: the height of a block of the chain. -/
def lookupBlockIndex (chain : QChain) (hash : Uint256) : Option Int :=
  (chain.findIdx? fun block => block.hash = hash).map Int.ofNat

/-- `GetQuorumBlockHash`; zero where the block is not known yet. -/
def getQuorumBlockHash (chain : QChain) (params : LLMQParams) (nHeight quorumIndex : Int) :
    Uint256 :=
  (getBlockHash chain (nHeight - nHeight.tmod params.dkgInterval + quorumIndex)).getD 0

def isMiningPhase (params : LLMQParams) (nHeight : Int) : Bool :=
  let quorumCycleStartHeight := nHeight - nHeight.tmod params.dkgInterval
  nHeight ≥ quorumCycleStartHeight + params.dkgMiningWindowStart &&
    nHeight ≤ quorumCycleStartHeight + params.dkgMiningWindowEnd

/-! ## Mined commitments -/

/-- The key under which a commitment is recorded. -/
abbrev MinedKey := LLMQType × Uint256

/-- The records with `mapHasMinedCommitmentCache`. -/
abbrev Mined := CachedSet MinedKey

def hasMinedCommitment (llmqType : LLMQType) (quorumHash : Uint256) : Prog String Mined Bool := do
  let mined ← get
  set (mined.query (llmqType, quorumHash))
  return mined.answer (llmqType, quorumHash)

section

variable (c : QuorumConsensus) (chain : QChain)

/-- The number of quorums in a cycle for the block after the chain. -/
def quorumsNum (params : LLMQParams) : Nat :=
  if c.isQuorumRotationEnabled params (QChain.height chain) then params.signingActiveQuorumCount
  else 1

/-- The loop of `GetNumCommitmentsRequired`. -/
def countRequired (chain : QChain) (params : LLMQParams) (nHeight : Int) :
    List Nat → Prog String Mined Nat
  | [] => pure 0
  | quorumIndex :: rest => do
    let quorumHash := getQuorumBlockHash chain params nHeight quorumIndex
    if quorumHash = 0 then countRequired chain params nHeight rest
    else
      let isMined ← hasMinedCommitment params.type quorumHash
      let ret ← countRequired chain params nHeight rest
      return if isMined then ret else ret + 1

def getNumCommitmentsRequired (params : LLMQParams) (nHeight : Int) : Prog String Mined Nat :=
  if isMiningPhase params nHeight then
    countRequired chain params nHeight (range (quorumsNum c chain params))
  else pure 0

/-! ## Processing a block -/

/-- `GetCommitmentsFromBlock`, the loop; `ret` are the commitments so far. -/
def collectCommitments (c : QuorumConsensus) (llmqs : LlmqTable) (nHeight : Int)
    (ret : List CFinalCommitment) :
    List (Option CFinalCommitment) → Except String (List CFinalCommitment)
  | [] => .ok ret
  | none :: _ => .error "bad-qc-payload"
  | some qc :: rest =>
    match llmqs qc.llmqType with
    | none => .error "bad-qc-commitment-type"
    | some params =>
      -- only one commitment per type and per block, unless the type rotates
      if ¬ c.isQuorumRotationEnabled params nHeight ∧ ret.any (·.llmqType = qc.llmqType) then
        .error "bad-qc-dup"
      else collectCommitments c llmqs nHeight (ret ++ [qc]) rest

def getCommitmentsFromBlock (llmqs : LlmqTable) (nHeight : Int) (block : QBlock) :
    Except String (List CFinalCommitment) := do
  let ret ← collectCommitments c llmqs nHeight [] block.payloads
  if nHeight < c.dip0003Height ∧ ¬ ret.isEmpty then .error "bad-qc-premature" else .ok ret

/-- The commitments of a type, in their order. -/
def ofType (llmqType : LLMQType) (qcs : List CFinalCommitment) : List CFinalCommitment :=
  qcs.filter (·.llmqType = llmqType)

/-- The commitments in the order of a `std::multimap` that is keyed by their types. -/
def inMapOrder (qcs : List CFinalCommitment) : List CFinalCommitment :=
  LLMQType.all.flatMap (ofType · qcs)

/-- The comparison of `ProcessBlock` for one type. -/
def checkNumCommitments (nHeight : Int) (qcs : List CFinalCommitment) (params : LLMQParams) :
    Prog String Mined Unit := do
  let numCommitmentsRequired ← getNumCommitmentsRequired c chain params nHeight
  let numCommitmentsInNewBlock := (ofType params.type qcs).length
  if numCommitmentsRequired < numCommitmentsInNewBlock then throw "bad-qc-not-allowed"
  else if numCommitmentsRequired > numCommitmentsInNewBlock then throw "bad-qc-missing"
  else pure ()

def processCommitment (view : QuorumView) (chain : QChain) (nHeight : Int)
    (fJustCheck fBLSChecks : Bool) (qc : CFinalCommitment) : Prog String Mined Unit :=
  match view.llmqs qc.llmqType with
  | none => throw ""
  | some params => do
    let quorumHash := getQuorumBlockHash chain params nHeight qc.quorumIndex
    if quorumHash = 0 then throw "bad-qc-block"
    else if quorumHash ≠ qc.quorumHash then throw "bad-qc-block"
    else if qc.isNull then
      if qc.verifyNull view.llmqs then pure () else throw "bad-qc-invalid-null"
    else if ← hasMinedCommitment params.type quorumHash then throw "bad-qc-dup"
    else if ¬ isMiningPhase params nHeight then throw "bad-qc-height"
    else if ¬ (lookupBlockIndex chain qc.quorumHash).any
        (fun baseHeight => qc.verify c view qc.quorumHash baseHeight fBLSChecks) then
      throw "bad-qc-invalid"
    else if fJustCheck then pure ()
    else modify (·.insert (params.type, quorumHash))

/-- `ProcessBlock` for a block on top of the active chain. -/
def processBlock (view : QuorumView) (chain : QChain) (block : QBlock)
    (fJustCheck fBLSChecks : Bool) : Prog String Mined Unit :=
  let nHeight : Int := chain.length
  if nHeight < c.dip0003Height then pure ()
  else do
    let qcs ← Prog.lift (getCommitmentsFromBlock c view.llmqs nHeight block)
    (c.getEnabledQuorumParams view.llmqs (nHeight - 1)).forM fun entry =>
      checkNumCommitments c chain nHeight qcs entry.2
    (inMapOrder qcs).forM (processCommitment c view chain nHeight fJustCheck fBLSChecks)

/-- The records that a commitment leaves behind; a null one leaves none. -/
def recordOf (qc : CFinalCommitment) : Option MinedKey :=
  if qc.isNull then none else some (qc.llmqType, qc.quorumHash)

/-- `UndoBlock`, the records; `none` where it fails. -/
def undoBlock (view : QuorumView) (nHeight : Int) (block : QBlock) (mined : Mined) : Option Mined :=
  match getCommitmentsFromBlock c view.llmqs nHeight block with
  | .error _ => none
  | .ok qcs => some (((inMapOrder qcs).filterMap recordOf).foldl CachedSet.remove mined)

/-! ## Runs -/

def QBlock.commitments (block : QBlock) : List CFinalCommitment := block.payloads.filterMap id

def QBlock.records (block : QBlock) : List MinedKey :=
  (inMapOrder block.commitments).filterMap recordOf

/-- The commitments mined on a chain. -/
def minedOn (chain : QChain) : List MinedKey := chain.flatMap records

/-- The active chain and the records about it. -/
structure ProcState where
  chain : QChain
  mined : Mined

/-- The hash of a block. -/
abbrev NonNullHash := { hash : Uint256 // hash ≠ 0 }

/-- A node with the genesis block only. -/
def ProcState.start (genesis : NonNullHash) : ProcState :=
  { chain := [{ hash := genesis.1, hash_ne := genesis.2 }], mined := CachedSet.empty }

/-- What happens to the processor. A block whose hash is known is not tried again. -/
inductive ProcEvent where
  /-- A block is connected if it passes, and passes the checks that are made after. -/
  | connect (view : QuorumView) (block : QBlock) (fBLSChecks laterChecks : Bool)
  /-- A block is only checked (`TestBlockValidity`). -/
  | justCheck (view : QuorumView) (block : QBlock) (fBLSChecks : Bool)
  | disconnect (view : QuorumView)
  /-- Another part of the node asks for a commitment. -/
  | query (key : MinedKey)
  /-- The cache drops answers. -/
  | evict (drop : MinedKey → Bool)
  | restart

/-- `CheckSpecialTx`: no commitments before DIP0003. -/
def checkSpecialTxs (block : QBlock) : Bool :=
  (chain.length : Int) ≥ c.dip0003Height || block.payloads.isEmpty

/-- One event. The transaction of a block that fails is rolled back. -/
def ProcState.step (s : ProcState) : ProcEvent → ProcState
  | .connect view block fBLSChecks laterChecks =>
    if block.hash ∈ s.chain.map hash ∨ ¬ checkSpecialTxs c s.chain block then s
    else
      match runs (processBlock c view s.chain block false fBLSChecks) s.mined with
      | (.ok (), mined) =>
        if laterChecks then ⟨s.chain ++ [block], mined⟩
        else { s with mined := s.mined.rollback mined }
      | (.error _, mined) => { s with mined := s.mined.rollback mined }
  | .justCheck view block fBLSChecks =>
    let mined := (runs (processBlock c view s.chain block true fBLSChecks) s.mined).2
    { s with mined := s.mined.rollback mined }
  | .disconnect view =>
    match s.chain.getLast? with
    | none => s
    | some block =>
      if s.chain.length ≤ 1 then s
      else
        match undoBlock c view (QChain.height s.chain) block s.mined with
        | none => s
        | some mined => ⟨s.chain.dropLast, mined⟩
  | .query key => { s with mined := s.mined.query key }
  | .evict drop => { s with mined := s.mined.forget drop }
  | .restart => { s with mined := s.mined.forget fun _ => true }

/-- A run of the node from its genesis block. -/
def run (genesis : NonNullHash) (events : List ProcEvent) : ProcState :=
  events.foldl (ProcState.step c) (.start genesis)

end

/-! ## Counting the commitments that are required -/

section Counting

variable {c : QuorumConsensus} {chain : QChain} {nHeight : Int} {Inv : Mined → Prop}

/-- The contents and the answers, which tests leave alone. -/
def peek (mined : Mined) : (MinedKey → Bool) × (MinedKey → Bool) := (mined.contents, mined.answer)

section

variable (hquery : ∀ m k, Inv m → Inv (m.query k))

include hquery

lemma reads_hasMinedCommitment (llmqType : LLMQType) (quorumHash : Uint256) :
    Reads Inv peek (hasMinedCommitment llmqType quorumHash)
      fun v => .ok (v.2 (llmqType, quorumHash)) := by
  refine ⟨fun _ => rfl, fun hm => hquery _ _ hm, fun {m} _ => ?_⟩
  show peek (m.query (llmqType, quorumHash)) = peek m
  rw [peek, peek, contents_query, answer_query]

/-- The index is that of a quorum whose commitment is not answered to be mined. -/
def isRequired (chain : QChain) (params : LLMQParams) (nHeight : Int) (answer : MinedKey → Bool)
    (quorumIndex : Nat) : Bool :=
  let quorumHash := getQuorumBlockHash chain params nHeight quorumIndex
  quorumHash ≠ 0 && !answer (params.type, quorumHash)

lemma reads_countRequired (params : LLMQParams) (l : List Nat) :
    Reads Inv peek (countRequired chain params nHeight l)
      fun v => .ok (l.countP (isRequired chain params nHeight v.2)) := by
  induction l with
  | nil => exact Reads.lift (.ok 0)
  | cons i l ih =>
    rw [countRequired]
    split
    case isTrue hzero =>
      refine ih.congr fun v => ?_
      simp [isRequired, hzero]
    case isFalse hne =>
      have hmined := reads_hasMinedCommitment hquery params.type
        (getQuorumBlockHash chain params nHeight i)
      refine (hmined.bind fun isMined => ih.bind fun ret =>
        Reads.lift (.ok (if isMined then ret else ret + 1))).congr fun v => ?_
      cases hmined : v.2 (params.type, getQuorumBlockHash chain params nHeight i) <;>
        simp [isRequired, hne, hmined]

/-- The number of commitments of a type that the block after the chain has to have. -/
def numRequired (c : QuorumConsensus) (chain : QChain) (params : LLMQParams) (nHeight : Int)
    (answer : MinedKey → Bool) : Nat :=
  if isMiningPhase params nHeight then
    (range (quorumsNum c chain params)).countP (isRequired chain params nHeight answer)
  else 0

lemma reads_getNumCommitmentsRequired (params : LLMQParams) :
    Reads Inv peek (getNumCommitmentsRequired c chain params nHeight)
      fun v => .ok (numRequired c chain params nHeight v.2) := by
  rw [getNumCommitmentsRequired]
  split
  case isTrue hphase =>
    simp only [numRequired, hphase, if_true]
    exact reads_countRequired hquery params _
  case isFalse hphase =>
    simp only [numRequired, hphase]
    exact Reads.lift (.ok 0)

end

/-- The outcome of the comparison. -/
def compareNum (required inNewBlock : Nat) : Except String Unit :=
  if required < inNewBlock then .error "bad-qc-not-allowed"
  else if required > inNewBlock then .error "bad-qc-missing"
  else .ok ()

lemma compareNum_eq_ok {required inNewBlock : Nat} :
    compareNum required inNewBlock = .ok () ↔ inNewBlock = required := by
  rw [compareNum]
  split
  · simp only [reduceCtorEq, false_iff]
    omega
  split
  · simp only [reduceCtorEq, false_iff]
    omega
  · simp only [true_iff]
    omega

lemma reads_checkNumCommitments (hquery : ∀ m k, Inv m → Inv (m.query k))
    (qcs : List CFinalCommitment) (params : LLMQParams) :
    Reads Inv peek (checkNumCommitments c chain nHeight qcs params)
      fun v => compareNum (numRequired c chain params nHeight v.2)
        (ofType params.type qcs).length := by
  have hcompare : checkNumCommitments c chain nHeight qcs params =
      getNumCommitmentsRequired c chain params nHeight >>= fun required =>
        Prog.lift (compareNum required (ofType params.type qcs).length) := by
    rw [checkNumCommitments]
    congr 1
    funext required
    simp only [compareNum]
    split
    · rfl
    split <;> rfl
  rw [hcompare]
  exact (reads_getNumCommitmentsRequired hquery params).bind fun required => Reads.lift _

end Counting

/-! ## One commitment -/

section Commitments

variable {c : QuorumConsensus} {view : QuorumView} {chain : QChain} {nHeight : Int}
  {fJustCheck fBLSChecks : Bool} {qc : CFinalCommitment} {m m' : Mined} {base : MinedKey → Bool}

/-- The commitment is for the block at the height of its index. -/
def NamesBlock (view : QuorumView) (chain : QChain) (nHeight : Int) (qc : CFinalCommitment) : Prop :=
  ∃ params, view.llmqs qc.llmqType = some params ∧ qc.quorumHash ≠ 0 ∧
    getQuorumBlockHash chain params nHeight qc.quorumIndex = qc.quorumHash

/-- What `ProcessCommitment` can do. -/
inductive Outcome (fJustCheck : Bool) (names : Prop) (qc : CFinalCommitment) (m : Mined) :
    Except String Unit × Mined → Prop where
  | refused (e : String) : Outcome fJustCheck names qc m (.error e, m)
  | null (hnames : names) (hnull : recordOf qc = none) : Outcome fJustCheck names qc m (.ok (), m)
  | failed (e : String) (key : MinedKey) (hkey : recordOf qc = some key) :
      Outcome fJustCheck names qc m (.error e, m.query key)
  | checked (key : MinedKey) (hnames : names) (hkey : recordOf qc = some key)
      (hunmined : m.answer key = false) (hjust : fJustCheck = true) :
      Outcome fJustCheck names qc m (.ok (), m.query key)
  | recorded (key : MinedKey) (hnames : names) (hkey : recordOf qc = some key)
      (hunmined : m.answer key = false) (hjust : fJustCheck = false) :
      Outcome fJustCheck names qc m (.ok (), (m.query key).insert key)

lemma processCommitment_outcome (c : QuorumConsensus) (view : QuorumView) (chain : QChain)
    (nHeight : Int) (fJustCheck fBLSChecks : Bool) (qc : CFinalCommitment) (m : Mined) :
    Outcome fJustCheck (NamesBlock view chain nHeight qc) qc m
      (runs (processCommitment c view chain nHeight fJustCheck fBLSChecks qc) m) := by
  unfold processCommitment
  split
  case h_1 => exact .refused _
  case h_2 params hparams =>
    have htype : params.type = qc.llmqType := (view.llmqs_wellFormed _ _ hparams).1
    dsimp only
    split
    case isTrue => exact .refused _
    case isFalse hzero =>
    split
    case isTrue => exact .refused _
    case isFalse hhash =>
    have hhash : getQuorumBlockHash chain params nHeight qc.quorumIndex = qc.quorumHash :=
      not_not.mp hhash
    rw [hhash] at hzero
    have hnames : NamesBlock view chain nHeight qc := ⟨params, hparams, hzero, hhash⟩
    split
    case isTrue hnull =>
      split
      · exact .null hnames (by rw [recordOf, if_pos hnull])
      · exact .refused _
    case isFalse hnull =>
      have hkey : recordOf qc = some (qc.llmqType, qc.quorumHash) := by rw [recordOf, if_neg hnull]
      rw [hhash, htype]
      -- from here on the records have been asked
      have hask : runs (hasMinedCommitment qc.llmqType qc.quorumHash) m =
        (.ok (m.answer (qc.llmqType, qc.quorumHash)), m.query (qc.llmqType, qc.quorumHash)) := rfl
      rw [runs_bind_of_ok hask]
      split
      case isTrue => exact .failed _ _ hkey
      case isFalse hunmined =>
      have hunmined := Bool.eq_false_of_not_eq_true hunmined
      split
      case isTrue => exact .failed _ _ hkey
      split
      case isTrue => exact .failed _ _ hkey
      split
      case isTrue hjust => exact .checked _ hnames hkey hunmined hjust
      case isFalse hjust =>
        exact .recorded _ hnames hkey hunmined (Bool.eq_false_of_not_eq_true hjust)

/-- The records keep their soundness and only become more. -/
def Grown (base : MinedKey → Bool) (m : Mined) : Prop :=
  m.Sound ∧ ∀ k, base k = true → m.contents k = true

lemma Grown.query (h : Grown base m) (k : MinedKey) : Grown base (m.query k) := ⟨h.1.query k, h.2⟩

lemma Grown.insert (h : Grown base m) (k : MinedKey) : Grown base (m.insert k) := by
  refine ⟨h.1.insert k, fun k' hk' => ?_⟩
  rw [contents_insert]
  by_cases heq : k' = k
  · rw [heq, update_self]
  · rw [update_of_ne heq]
    exact h.2 k' hk'

lemma preserves_processCommitment (base : MinedKey → Bool) :
    Preserves (Grown base) (processCommitment c view chain nHeight fJustCheck fBLSChecks qc) := by
  intro m hm
  have houtcome := processCommitment_outcome c view chain nHeight fJustCheck fBLSChecks qc m
  generalize runs (processCommitment c view chain nHeight fJustCheck fBLSChecks qc) m = r
    at houtcome
  cases houtcome with
  | refused | null => exact hm
  | failed e key => exact hm.query key
  | checked key => exact hm.query key
  | recorded key => exact (hm.query key).insert key

/-! ## The commitments of a block -/

/-- What acceptance of commitments says about them and does to the records. -/
structure Accepted (view : QuorumView) (chain : QChain) (nHeight : Int) (fJustCheck : Bool)
    (qcs : List CFinalCommitment) (m m' : Mined) : Prop where
  names : ∀ qc ∈ qcs, NamesBlock view chain nHeight qc
  unmined : ∀ key ∈ qcs.filterMap recordOf, m.contents key = false
  nodup : fJustCheck = false → (qcs.filterMap recordOf).Nodup
  contents : fJustCheck = false → ∀ key,
    m'.contents key = true ↔ m.contents key = true ∨ key ∈ qcs.filterMap recordOf

namespace Accepted

variable {qcs : List CFinalCommitment} {key : MinedKey}

section

variable (hnames : NamesBlock view chain nHeight qc)

include hnames

lemma cons_null (h : Accepted view chain nHeight fJustCheck qcs m m') (hnull : recordOf qc = none) :
    Accepted view chain nHeight fJustCheck (qc :: qcs) m m' := by
  have hrecords : (qc :: qcs).filterMap recordOf = qcs.filterMap recordOf :=
    filterMap_cons_none hnull
  refine ⟨forall_mem_cons.mpr ⟨hnames, h.names⟩, ?_, ?_, ?_⟩ <;> rw [hrecords]
  · exact h.unmined
  · exact h.nodup
  · exact h.contents

lemma cons_checked (h : Accepted view chain nHeight fJustCheck qcs (m.query key) m')
    (hm : m.Sound) (hkey : recordOf qc = some key) (hunmined : m.answer key = false)
    (hjust : fJustCheck = true) :
    Accepted view chain nHeight fJustCheck (qc :: qcs) m m' := by
  refine ⟨forall_mem_cons.mpr ⟨hnames, h.names⟩, ?_, by simp [hjust], by simp [hjust]⟩
  rw [filterMap_cons_some hkey]
  exact forall_mem_cons.mpr ⟨hm.contents_eq_false hunmined, h.unmined⟩

lemma cons_recorded (h : Accepted view chain nHeight fJustCheck qcs ((m.query key).insert key) m')
    (hm : m.Sound) (hkey : recordOf qc = some key) (hunmined : m.answer key = false)
    (hjust : fJustCheck = false) :
    Accepted view chain nHeight fJustCheck (qc :: qcs) m m' := by
  -- a commitment that comes later is not for the same quorum: that one is mined by then
  have hne : ∀ key' ∈ qcs.filterMap recordOf, key' ≠ key := by
    rintro key' hmem rfl
    have hunmined' := h.unmined key' hmem
    rw [contents_insert, update_self] at hunmined'
    cases hunmined'
  have hrecords : (qc :: qcs).filterMap recordOf = key :: qcs.filterMap recordOf :=
    filterMap_cons_some hkey
  refine ⟨forall_mem_cons.mpr ⟨hnames, h.names⟩, ?_, fun _ => ?_, fun _ key' => ?_⟩ <;>
    rw [hrecords]
  · refine forall_mem_cons.mpr ⟨hm.contents_eq_false hunmined, fun key' hmem => ?_⟩
    have hunmined' := h.unmined key' hmem
    rwa [contents_insert, update_of_ne (hne key' hmem)] at hunmined'
  · exact nodup_cons.mpr ⟨fun hmem => hne key hmem rfl, h.nodup hjust⟩
  · rw [h.contents hjust key', contents_insert]
    by_cases heq : key' = key <;> simp [heq]

end

lemma of_contents {m₁ : Mined} (h : Accepted view chain nHeight fJustCheck qcs m₁ m')
    (heq : m₁.contents = m.contents) : Accepted view chain nHeight fJustCheck qcs m m' :=
  ⟨h.names, heq ▸ h.unmined, h.nodup, heq ▸ h.contents⟩

end Accepted

variable {qcs : List CFinalCommitment}

lemma accepted_forM (hm : m.Sound)
    (h : runs (qcs.forM (processCommitment c view chain nHeight fJustCheck fBLSChecks)) m =
      (.ok (), m')) :
    Accepted view chain nHeight fJustCheck qcs m m' := by
  induction qcs generalizing m with
  | nil =>
    cases h
    exact ⟨by simp, by simp, by simp, by simp⟩
  | cons qc qcs ih =>
    obtain ⟨m₁, hfirst, hrest⟩ := runs_forM_cons_eq_ok.mp h
    have houtcome := processCommitment_outcome c view chain nHeight fJustCheck fBLSChecks qc m
    rw [hfirst] at houtcome
    cases houtcome with
    | null hnames hnull => exact (ih hm hrest).cons_null hnames hnull
    | checked key hnames hkey hunmined hjust =>
      exact (ih (hm.query key) hrest).cons_checked hnames hm hkey hunmined hjust
    | recorded key hnames hkey hunmined hjust =>
      exact (ih ((hm.query key).insert key) hrest).cons_recorded hnames hm hkey hunmined hjust

/-- Commitments that pass leave the answers about other quorums alone. -/
lemma answer_forM {key : MinedKey} (hkey : key ∉ qcs.filterMap recordOf)
    (h : runs (qcs.forM (processCommitment c view chain nHeight fJustCheck fBLSChecks)) m =
      (.ok (), m')) :
    m'.answer key = m.answer key := by
  induction qcs generalizing m with
  | nil =>
    cases h
    rfl
  | cons qc qcs ih =>
    obtain ⟨m₁, hfirst, hrest⟩ := runs_forM_cons_eq_ok.mp h
    have houtcome := processCommitment_outcome c view chain nHeight fJustCheck fBLSChecks qc m
    rw [hfirst] at houtcome
    cases houtcome with
    | null hnames hnull =>
      rw [filterMap_cons_none hnull] at hkey
      exact ih hkey hrest
    | checked key' hnames hkey' =>
      rw [filterMap_cons_some hkey', mem_cons, not_or] at hkey
      rw [ih hkey.2 hrest, answer_query]
    | recorded key' hnames hkey' =>
      rw [filterMap_cons_some hkey', mem_cons, not_or] at hkey
      rw [ih hkey.2 hrest, answer_insert_of_ne hkey.1, answer_query]

end Commitments

/-! ## One block -/

section Blocks

variable {c : QuorumConsensus} {view : QuorumView} {chain : QChain} {nHeight : Int} {block : QBlock}
  {fJustCheck fBLSChecks : Bool} {m m' : Mined} {llmqs : LlmqTable}
  {ret qcs : List CFinalCommitment} {payloads : List (Option CFinalCommitment)}

lemma collectCommitments_cons_eq_ok {payload : Option CFinalCommitment}
    (h : collectCommitments c llmqs nHeight ret (payload :: payloads) = .ok qcs) :
    ∃ qc params, payload = some qc ∧ llmqs qc.llmqType = some params ∧
      (c.isQuorumRotationEnabled params nHeight = false →
        ∀ qc' ∈ ret, qc'.llmqType ≠ qc.llmqType) ∧
      collectCommitments c llmqs nHeight (ret ++ [qc]) payloads = .ok qcs := by
  cases payload with
  | none => cases h
  | some qc =>
    rw [collectCommitments] at h
    split at h
    · cases h
    case h_2 params hparams =>
    split at h
    · cases h
    case isFalse hdup => exact ⟨qc, params, rfl, hparams, by simpa using hdup, h⟩

lemma collectCommitments_eq_ok (h : collectCommitments c llmqs nHeight ret payloads = .ok qcs) :
    qcs = ret ++ payloads.filterMap id := by
  induction payloads generalizing ret with
  | nil =>
    cases h
    simp
  | cons payload payloads ih =>
    obtain ⟨qc, params, rfl, -, -, hrest⟩ := collectCommitments_cons_eq_ok h
    rw [ih hrest, append_assoc]
    rfl

lemma getCommitmentsFromBlock_eq_ok
    (h : getCommitmentsFromBlock c llmqs nHeight block = .ok qcs) : qcs = block.commitments := by
  obtain ⟨ret, hret, hqcs⟩ := bind_eq_ok.mp h
  split at hqcs
  · cases hqcs
  · cases hqcs
    exact collectCommitments_eq_ok hret

lemma preserves_processBlock (base : MinedKey → Bool) :
    Preserves (Grown base) (processBlock c view chain block fJustCheck fBLSChecks) := by
  unfold processBlock
  dsimp only
  split
  · exact fun _ hm => hm
  · refine Preserves.bind (fun _ hm => hm) fun qcs => ?_
    refine Preserves.bind (Preserves.forM fun entry _ => ?_) fun _ => Preserves.forM fun qc _ => ?_
    · exact (reads_checkNumCommitments (fun _ k hm => hm.query k) qcs entry.2).preserves
    · exact preserves_processCommitment base

variable (c view chain block fJustCheck fBLSChecks) in
lemma grown_processBlock (hm : m.Sound) :
    Grown m.contents (runs (processBlock c view chain block fJustCheck fBLSChecks) m).2 :=
  preserves_processBlock m.contents m ⟨hm, fun _ hin => hin⟩

variable (c chain nHeight) in
/-- The comparisons of `ProcessBlock` for all types. -/
lemma reads_checkAll {Inv : Mined → Prop} (hquery : ∀ m k, Inv m → Inv (m.query k))
    (qcs : List CFinalCommitment) (entries : List (LLMQType × LLMQParams)) :
    Reads Inv peek (entries.forM fun entry => checkNumCommitments c chain nHeight qcs entry.2)
      fun v => entries.forM fun entry =>
        compareNum (numRequired c chain entry.2 nHeight v.2) (ofType entry.2.type qcs).length :=
  Reads.forM fun entry _ => reads_checkNumCommitments hquery qcs entry.2

/-- A block that passes has the right number of commitments of each type, and each of them
has passed. -/
lemma processBlock_eq_ok (hm : m.Sound) (hdip : c.dip0003Height ≤ chain.length)
    (h : runs (processBlock c view chain block fJustCheck fBLSChecks) m = (.ok (), m')) :
    (∀ entry ∈ c.getEnabledQuorumParams view.llmqs ((chain.length : Int) - 1),
      (ofType entry.2.type block.commitments).length =
        numRequired c chain entry.2 chain.length m.answer) ∧
    Accepted view chain chain.length fJustCheck (inMapOrder block.commitments) m m' ∧
    ∀ key ∉ block.records, m'.answer key = m.answer key := by
  simp only [processBlock, if_neg (not_lt.mpr hdip)] at h
  rw [runs_bind, runs_lift] at h
  cases hqcs : getCommitmentsFromBlock c view.llmqs chain.length block with
  | error e => simp [hqcs] at h
  | ok qcs =>
    have hcommitments := getCommitmentsFromBlock_eq_ok hqcs
    subst hcommitments
    simp only [hqcs] at h
    have hcheck : Reads Sound peek _ _ :=
      reads_checkAll c chain chain.length (fun _ k hm => hm.query k) block.commitments
        (c.getEnabledQuorumParams view.llmqs ((chain.length : Int) - 1))
    obtain ⟨m₁, hrun, hm₁, hpeek⟩ := hcheck.exists_runs hm
    rw [runs_bind, hrun] at h
    split at h
    case h_2 => cases h
    case h_1 heq =>
      obtain ⟨hcompare, rfl⟩ := Prod.mk.inj heq
      refine ⟨fun entry hentry => compareNum_eq_ok.mp (forM_eq_ok.mp hcompare entry hentry), ?_,
        fun key hkey => ?_⟩
      · exact (accepted_forM hm₁ h).of_contents (congrArg Prod.fst hpeek)
      · rw [answer_forM hkey h]
        exact congrFun (congrArg Prod.snd hpeek) key

end Blocks

/-! ## All runs -/

section Runs

variable {c : QuorumConsensus} {s : ProcState} {genesis : NonNullHash}

/-- The records are those of the blocks of the chain. -/
structure ProcState.Consistent (s : ProcState) : Prop where
  contents : ∀ key, s.mined.contents key = true ↔ key ∈ minedOn s.chain
  sound : s.mined.Sound
  nodup : (minedOn s.chain).Nodup

lemma minedOn_append (chain : QChain) (block : QBlock) :
    minedOn (chain ++ [block]) = minedOn chain ++ block.records := by
  simp [minedOn]

lemma minedOn_start : minedOn (ProcState.start genesis).chain = [] := rfl

lemma consistent_start : (ProcState.start genesis).Consistent where
  contents key := by
    rw [minedOn_start]
    simp [ProcState.start, empty]
  sound := sound_empty
  nodup := by simp [minedOn_start]

/-- What a block that is connected does to the records. -/
structure Added (s : ProcState) (block : QBlock) (mined : Mined) : Prop where
  nodup : block.records.Nodup
  unmined : ∀ key ∈ block.records, s.mined.contents key = false
  contents : ∀ key, mined.contents key = true ↔ s.mined.contents key = true ∨ key ∈ block.records
  answers : ∀ key ∉ block.records, mined.answer key = s.mined.answer key
  /-- The quorums begin with blocks of the chain. -/
  base : ∀ key ∈ block.records, key.2 ∈ s.chain.map hash

lemma getQuorumBlockHash_mem {chain : QChain} {params : LLMQParams} {nHeight quorumIndex : Int}
    (hne : getQuorumBlockHash chain params nHeight quorumIndex ≠ 0) :
    getQuorumBlockHash chain params nHeight quorumIndex ∈ chain.map hash := by
  unfold getQuorumBlockHash at hne ⊢
  cases hhash : getBlockHash chain (nHeight - nHeight.tmod params.dkgInterval + quorumIndex) with
  | none => simp [hhash] at hne
  | some hash =>
    unfold getBlockHash at hhash
    split at hhash
    · cases hhash
    · obtain ⟨block, hblock, rfl⟩ := map_eq_some_iff.mp hhash
      exact mem_map_of_mem (mem_of_getElem? hblock)

namespace ProcState.Consistent

variable {mined : Mined} {block : QBlock} {view : QuorumView} {fBLSChecks : Bool} (h : s.Consistent)

include h

lemma rollback (hgrown : Grown s.mined.contents mined) :
    ({ s with mined := s.mined.rollback mined } : ProcState).Consistent :=
  ⟨h.contents, hgrown.1.rollback hgrown.2, h.nodup⟩

lemma append (hsound : mined.Sound) (hadded : Added s block mined) :
    (⟨s.chain ++ [block], mined⟩ : ProcState).Consistent where
  contents key := by rw [hadded.contents, h.contents, minedOn_append, mem_append]
  sound := hsound
  nodup := by
    rw [minedOn_append]
    refine h.nodup.append hadded.nodup fun key hmem hrecord => ?_
    have hcontents := hadded.unmined key hrecord
    rw [(h.contents key).mpr hmem] at hcontents
    cases hcontents

section

variable (hspecial : checkSpecialTxs c s.chain block = true)
  (hrun : runs (processBlock c view s.chain block false fBLSChecks) s.mined = (.ok (), mined))

include hspecial hrun

/-- A block that is connected adds its records. -/
lemma added : Added s block mined := by
  by_cases hdip : c.dip0003Height ≤ s.chain.length
  · obtain ⟨-, haccepted, hanswers⟩ := processBlock_eq_ok h.sound hdip hrun
    refine ⟨haccepted.nodup rfl, haccepted.unmined, haccepted.contents rfl, hanswers, ?_⟩
    intro key hkey
    obtain ⟨qc, hqc, hrecord⟩ := mem_filterMap.mp hkey
    obtain ⟨params, -, hne, hhash⟩ := haccepted.names qc hqc
    obtain rfl : (qc.llmqType, qc.quorumHash) = key := by
      rw [recordOf] at hrecord
      split at hrecord
      · cases hrecord
      · exact some.inj hrecord
    exact hhash ▸ getQuorumBlockHash_mem (hhash ▸ hne)
  · -- the block has no commitments and is not looked at
    have hpayloads : block.payloads = [] := by simpa [checkSpecialTxs, hdip] using hspecial
    have hrecords : block.records = [] := by
      rw [records, commitments, hpayloads]
      rfl
    simp only [processBlock, if_pos (not_le.mp hdip), runs_pure, Prod.mk.injEq, true_and] at hrun
    subst hrun
    constructor <;> simp [hrecords]

lemma connect : (⟨s.chain ++ [block], mined⟩ : ProcState).Consistent := by
  have hgrown := grown_processBlock c view s.chain block false fBLSChecks h.sound
  rw [hrun] at hgrown
  exact h.append hgrown.1 (h.added hspecial hrun)

end

lemma disconnect (hlast : s.chain.getLast? = some block) :
    (⟨s.chain.dropLast, block.records.foldl remove s.mined⟩ : ProcState).Consistent := by
  have hchain : s.chain = s.chain.dropLast ++ [block] := (dropLast_append_getLast? block hlast).symm
  have hmined : minedOn s.chain = minedOn s.chain.dropLast ++ block.records := by
    rw [← minedOn_append, ← hchain]
  have hnodup := h.nodup
  rw [hmined, nodup_append] at hnodup
  obtain ⟨hkept, -, hdisjoint⟩ := hnodup
  refine ⟨fun key => ?_, h.sound.foldl_remove _, hkept⟩
  rw [contents_foldl_remove, h.contents, hmined, mem_append]
  constructor
  · rintro ⟨hmem | hmem, hnot⟩
    · exact hmem
    · exact absurd hmem hnot
  · exact fun hmem => ⟨.inl hmem, fun hrecord => hdisjoint key hmem key hrecord rfl⟩

end ProcState.Consistent

lemma undoBlock_eq_some {view : QuorumView} {nHeight : Int} {block : QBlock} {m m' : Mined}
    (h : undoBlock c view nHeight block m = some m') :
    m' = block.records.foldl remove m := by
  unfold undoBlock at h
  split at h
  · cases h
  case h_2 qcs hqcs =>
    rw [getCommitmentsFromBlock_eq_ok hqcs] at h
    exact (some.inj h).symm

/-- The block that an event tries. -/
def ProcEvent.tried : ProcEvent → Option QBlock
  | .connect _ block _ _ => some block
  | .justCheck _ block _ => some block
  | _ => none

/-- What an event can do. -/
inductive Effect (c : QuorumConsensus) (s : ProcState) (event : ProcEvent) : ProcState → Prop where
  | nothing : Effect c s event s
  | rolledBack (view : QuorumView) (block : QBlock) (fJustCheck fBLSChecks : Bool) (mined : Mined)
      (htried : event.tried = some block)
      (hrun : mined = (runs (processBlock c view s.chain block fJustCheck fBLSChecks) s.mined).2) :
      Effect c s event { s with mined := s.mined.rollback mined }
  | connected (view : QuorumView) (block : QBlock) (fBLSChecks : Bool) (mined : Mined)
      (hevent : event = .connect view block fBLSChecks true)
      (hnew : block.hash ∉ s.chain.map hash)
      (hspecial : checkSpecialTxs c s.chain block = true)
      (hrun : runs (processBlock c view s.chain block false fBLSChecks) s.mined = (.ok (), mined)) :
      Effect c s event ⟨s.chain ++ [block], mined⟩
  | disconnected (block : QBlock) (hlast : s.chain.getLast? = some block) :
      Effect c s event ⟨s.chain.dropLast, block.records.foldl CachedSet.remove s.mined⟩
  | asked (key : MinedKey) : Effect c s event { s with mined := s.mined.query key }
  | forgot (drop : MinedKey → Bool) : Effect c s event { s with mined := s.mined.forget drop }

lemma ProcState.step_effect (c : QuorumConsensus) (s : ProcState) (event : ProcEvent) :
    Effect c s event (s.step c event) := by
  cases event with
  | connect view block fBLSChecks laterChecks =>
    rw [ProcState.step]
    split
    case isTrue => exact .nothing
    case isFalse hguard =>
    rw [not_or, not_not] at hguard
    split
    case h_1 mined hrun =>
      split
      case isTrue hlater =>
        exact .connected view block fBLSChecks mined (by rw [hlater]) hguard.1 hguard.2 hrun
      case isFalse => exact .rolledBack view block false fBLSChecks mined rfl (by rw [hrun])
    case h_2 e mined hrun => exact .rolledBack view block false fBLSChecks mined rfl (by rw [hrun])
  | justCheck view block fBLSChecks => exact .rolledBack view block true fBLSChecks _ rfl rfl
  | disconnect view =>
    rw [ProcState.step]
    split
    case h_1 => exact .nothing
    case h_2 block hlast =>
    split
    case isTrue => exact .nothing
    split
    case h_1 => exact .nothing
    case h_2 mined hundo =>
      rw [undoBlock_eq_some hundo]
      exact .disconnected block hlast
  | query key => exact .asked key
  | evict drop => exact .forgot drop
  | restart => exact .forgot _

lemma consistent_step (h : s.Consistent) (event : ProcEvent) : (s.step c event).Consistent := by
  have heffect := s.step_effect c event
  generalize s.step c event = s' at heffect
  cases heffect with
  | nothing => exact h
  | rolledBack view block fJustCheck fBLSChecks mined htried hrun =>
    exact h.rollback (hrun ▸ grown_processBlock c view s.chain block fJustCheck fBLSChecks h.sound)
  | connected view block fBLSChecks mined hevent hnew hspecial hrun => exact h.connect hspecial hrun
  | disconnected block hlast => exact h.disconnect hlast
  | asked key => exact ⟨h.contents, h.sound.query key, h.nodup⟩
  | forgot drop => exact ⟨h.contents, h.sound.forget drop, h.nodup⟩

/-- **Records.** In every run the records are those of the blocks of the active chain, each
quorum has at most one, and no commitment that is mined is answered not to be. -/
theorem consistent_run (c : QuorumConsensus) (genesis : NonNullHash)
    (events : List ProcEvent) : (run c genesis events).Consistent :=
  foldlRecOn events (ProcState.step c) consistent_start fun _ h event _ => consistent_step h event

end Runs

/-! ## One commitment for each quorum -/

section OneEach

/-- The block has one commitment for each quorum of the cycle whose commitment is not mined
on the chain, and none for a quorum whose commitment is. -/
structure OneCommitmentEach (c : QuorumConsensus) (chain : QChain) (params : LLMQParams)
    (block : QBlock) : Prop where
  one : ∀ quorumIndex : Nat, quorumIndex < quorumsNum c chain params →
    (params.type, getQuorumBlockHash chain params chain.length quorumIndex) ∉ minedOn chain →
    ((ofType params.type block.commitments).map (·.quorumIndex)).count (quorumIndex : Int) = 1
  none_mined : ∀ qc ∈ ofType params.type block.commitments,
    (params.type, getQuorumBlockHash chain params chain.length qc.quorumIndex) ∉ minedOn chain

/-- What is not checked: the commitments of the block have distinct indexes of the cycle, the
null ones are for quorums whose commitment is not mined, and no commitment is answered to be
mined that is not. -/
structure Orderly (c : QuorumConsensus) (s : ProcState) (params : LLMQParams) (block : QBlock) :
    Prop where
  distinct : ((ofType params.type block.commitments).map (·.quorumIndex)).Nodup
  inCycle : ∀ qc ∈ ofType params.type block.commitments,
    0 ≤ qc.quorumIndex ∧ qc.quorumIndex < quorumsNum c s.chain params
  null_unmined : ∀ qc ∈ ofType params.type block.commitments, qc.isNull = true →
    (params.type, qc.quorumHash) ∉ minedOn s.chain
  answers : ∀ quorumIndex : Nat, quorumIndex < quorumsNum c s.chain params →
    s.mined.cache (params.type, getQuorumBlockHash s.chain params s.chain.length quorumIndex) =
      some true →
    (params.type, getQuorumBlockHash s.chain params s.chain.length quorumIndex) ∈ minedOn s.chain

/-- A list that is not longer than a set has each element of the set once exactly when it is
an enumeration of the set. -/
lemma count_eq_one_iff {α : Type} [DecidableEq α] {l : List α} {S : Finset α}
    (hlen : l.length ≤ S.card) :
    (∀ a ∈ S, l.count a = 1) ↔ l.Nodup ∧ (∀ a ∈ l, a ∈ S) ∧ l.length = S.card := by
  constructor
  · intro hone
    have hsub : S.val ≤ l := Finset.val_le_iff_val_subset.mpr fun a ha =>
      count_pos_iff.mp (by rw [hone a ha]; exact one_pos)
    have heq : S.val = l := Multiset.eq_of_le_of_card_le hsub hlen
    refine ⟨Multiset.coe_nodup.mp (heq ▸ S.nodup), fun a ha => ?_, congrArg Multiset.card heq.symm⟩
    rwa [← Finset.mem_val, heq]
  · rintro ⟨hnodup, hsub, hlength⟩ a ha
    have hle := (Multiset.le_iff_subset (Multiset.coe_nodup.mpr hnodup)).mpr hsub
    have heq : l = S.val := Multiset.eq_of_le_of_card_le hle hlength.ge
    exact count_eq_one_of_mem hnodup (by rwa [← Multiset.mem_coe, heq])

variable {c : QuorumConsensus} {s : ProcState} {view : QuorumView} {block : QBlock}
  {params : LLMQParams} {fJustCheck fBLSChecks : Bool}

lemma tmod_le (n : Nat) (interval : Int) : (n : Int).tmod interval ≤ n := by
  obtain ⟨k, rfl | rfl⟩ := interval.eq_nat_or_neg
  · rw [← Int.ofNat_tmod]
    exact_mod_cast mod_le n k
  · rw [Int.tmod_neg, ← Int.ofNat_tmod]
    exact_mod_cast mod_le n k

variable {chain : QChain}

/-- The quorums of the cycle are all started when its mining phase begins. -/
lemma getQuorumBlockHash_ne_zero (hstart : params.StartsBeforeMining)
    (hphase : isMiningPhase params chain.length = true) {quorumIndex : Nat}
    (hindex : quorumIndex < quorumsNum c chain params) :
    getQuorumBlockHash chain params chain.length quorumIndex ≠ 0 := by
  have hbound : (quorumIndex : Int) < params.dkgMiningWindowStart := by
    rw [quorumsNum] at hindex
    split at hindex
    case isTrue hrotation =>
      simp only [QuorumConsensus.isQuorumRotationEnabled, Bool.and_eq_true] at hrotation
      have hcount := hstart.2 hrotation.1.1
      omega
    case isFalse =>
      have hfirst := hstart.1
      omega
  simp only [isMiningPhase, Bool.and_eq_true, decide_eq_true_eq] at hphase
  have hle := tmod_le chain.length params.dkgInterval
  have hlt : ((chain.length : Int) - (chain.length : Int).tmod params.dkgInterval +
      quorumIndex).toNat < chain.length := by omega
  rw [getQuorumBlockHash, getBlockHash, if_neg (by simp only [QChain.height]; omega)]
  simp only [if_neg (by omega : ¬ (chain.length : Int) -
    (chain.length : Int).tmod params.dkgInterval + quorumIndex = -1)]
  rw [getElem?_eq_getElem hlt]
  exact hash_ne _

lemma mem_getEnabledQuorumParams {llmqs : LlmqTable} {prevHeight : Int}
    (henabled : c.isQuorumTypeEnabled params.type prevHeight = true)
    (hparams : llmqs params.type = some params) :
    (params.type, params) ∈ c.getEnabledQuorumParams llmqs prevHeight := by
  refine mem_filterMap.mpr ⟨params.type, ?_, by rw [if_pos henabled, hparams]; rfl⟩
  cases params.type <;> decide

/-- The quorums of the cycle with a property of their records. -/
def quorumsWith (c : QuorumConsensus) (chain : QChain) (params : LLMQParams)
    (p : MinedKey → Bool) : Finset Nat :=
  (Finset.range (quorumsNum c chain params)).filter fun quorumIndex =>
    p (params.type, getQuorumBlockHash chain params chain.length quorumIndex) = true

lemma numRequired_eq {answer : MinedKey → Bool} (hstart : params.StartsBeforeMining)
    (hphase : isMiningPhase params chain.length = true) :
    numRequired c chain params chain.length answer =
      (quorumsWith c chain params fun key => !answer key).card := by
  rw [numRequired, if_pos hphase, quorumsWith, ← count_eq_card_filter_range]
  refine countP_congr fun quorumIndex hmem => ?_
  have hne := getQuorumBlockHash_ne_zero hstart hphase (mem_range.mp hmem)
  simp [isRequired, hne]

variable (c s params) in
/-- The indexes of the cycle whose commitment is not mined on the chain. -/
def unminedIndexes : Finset Int :=
  (quorumsWith c s.chain params fun key => !s.mined.contents key).image Nat.cast

lemma mem_unminedIndexes (h : s.Consistent) {quorumIndex : Int} :
    quorumIndex ∈ unminedIndexes c s params ↔
      0 ≤ quorumIndex ∧ quorumIndex < quorumsNum c s.chain params ∧
        (params.type, getQuorumBlockHash s.chain params s.chain.length quorumIndex) ∉
          minedOn s.chain := by
  rw [← h.contents, Bool.not_eq_true]
  constructor
  · intro hmem
    obtain ⟨i, hi, rfl⟩ := Finset.mem_image.mp hmem
    rw [quorumsWith, Finset.mem_filter, Finset.mem_range, Bool.not_eq_true'] at hi
    exact ⟨by omega, by exact_mod_cast hi.1, hi.2⟩
  · rintro ⟨hnonneg, hlt, hcontents⟩
    obtain ⟨i, rfl⟩ := Int.eq_ofNat_of_zero_le hnonneg
    refine Finset.mem_image_of_mem _ ?_
    rw [quorumsWith, Finset.mem_filter, Finset.mem_range, Bool.not_eq_true']
    exact ⟨by exact_mod_cast hlt, hcontents⟩

lemma card_unminedIndexes : (unminedIndexes c s params).card =
    (quorumsWith c s.chain params fun key => !s.mined.contents key).card :=
  Finset.card_image_of_injective _ Nat.cast_injective

lemma quorumsWith_mono {p q : MinedKey → Bool} (h : ∀ key, p key = true → q key = true) :
    quorumsWith c chain params p ⊆ quorumsWith c chain params q :=
  Finset.monotone_filter_right _ fun _ _ hp => h _ hp

/-- As many commitments are required as are not mined exactly when the answers about the
cycle are right. -/
lemma card_answers_eq_iff (h : s.Consistent) :
    (quorumsWith c s.chain params fun key => !s.mined.answer key).card =
      (quorumsWith c s.chain params fun key => !s.mined.contents key).card ↔
    ∀ quorumIndex : Nat, quorumIndex < quorumsNum c s.chain params →
      s.mined.cache (params.type, getQuorumBlockHash s.chain params s.chain.length quorumIndex) =
        some true →
      (params.type, getQuorumBlockHash s.chain params s.chain.length quorumIndex) ∈
        minedOn s.chain := by
  have hsub : quorumsWith c s.chain params (fun key => !s.mined.answer key) ⊆
      quorumsWith c s.chain params fun key => !s.mined.contents key := by
    refine quorumsWith_mono fun key hkey => ?_
    rw [Bool.not_eq_true'] at hkey ⊢
    exact h.sound.contents_eq_false hkey
  constructor
  · intro hcard quorumIndex hlt hcache
    have heq := Finset.eq_of_subset_of_card_le hsub hcard.ge
    rw [← h.contents]
    by_contra hunmined
    -- an index that is not mined is one that is required, so it is not answered to be mined
    have hmem : quorumIndex ∈ quorumsWith c s.chain params fun key => !s.mined.answer key := by
      rw [heq, quorumsWith, Finset.mem_filter, Finset.mem_range]
      exact ⟨hlt, by simpa using hunmined⟩
    rw [quorumsWith, Finset.mem_filter, answer, hcache] at hmem
    exact absurd hmem.2 (by simp)
  · intro hanswers
    refine congrArg Finset.card (Finset.Subset.antisymm hsub fun quorumIndex hmem => ?_)
    rw [quorumsWith, Finset.mem_filter, Finset.mem_range, Bool.not_eq_true'] at hmem ⊢
    refine ⟨hmem.1, Bool.eq_false_of_not_eq_true fun hanswer => ?_⟩
    rcases (answer_eq_true_iff h.sound).mp hanswer with hcontents | hcache
    · rw [hmem.2] at hcontents
      cases hcontents
    · have hmined := (h.contents _).mpr (hanswers quorumIndex hmem.1 hcache)
      rw [hmem.2] at hmined
      cases hmined

lemma mem_inMapOrder {qcs : List CFinalCommitment} {qc : CFinalCommitment} :
    qc ∈ inMapOrder qcs ↔ qc ∈ qcs := by
  simp only [inMapOrder, ofType, mem_flatMap, mem_filter, decide_eq_true_eq]
  constructor
  · rintro ⟨llmqType, -, hmem, -⟩
    exact hmem
  · intro hmem
    refine ⟨qc.llmqType, ?_, hmem, rfl⟩
    cases qc.llmqType <;> decide

/-- The indexes of the commitments of a type. -/
def indexes (params : LLMQParams) (block : QBlock) : List Int :=
  (ofType params.type block.commitments).map (·.quorumIndex)

/-- What is known of the commitments of a type in a block that passes: how many they are,
which blocks they name, and that those that are not null are not mined yet. -/
structure Passed (c : QuorumConsensus) (s : ProcState) (params : LLMQParams) (block : QBlock) :
    Prop where
  length : (indexes params block).length =
    (quorumsWith c s.chain params fun key => !s.mined.answer key).card
  names : ∀ qc ∈ ofType params.type block.commitments,
    getQuorumBlockHash s.chain params s.chain.length qc.quorumIndex = qc.quorumHash
  unmined : ∀ qc ∈ ofType params.type block.commitments, qc.isNull = false →
    s.mined.contents (params.type, qc.quorumHash) = false

lemma passed_of_processBlock (hs : s.Consistent) (hparams : view.llmqs params.type = some params)
    (hdip : c.dip0003Height ≤ s.chain.length)
    (henabled : c.isQuorumTypeEnabled params.type ((s.chain.length : Int) - 1) = true)
    (hphase : isMiningPhase params s.chain.length = true)
    (hok : (runs (processBlock c view s.chain block fJustCheck fBLSChecks) s.mined).1 = .ok ()) :
    Passed c s params block := by
  have hstart := (view.llmqs_wellFormed _ _ hparams).2
  obtain ⟨hnum, haccepted, -⟩ := processBlock_eq_ok hs.sound hdip (Prod.ext hok rfl)
  refine ⟨?_, fun qc hqc => ?_, fun qc hqc hnull => ?_⟩
  · rw [indexes, length_map, hnum _ (mem_getEnabledQuorumParams henabled hparams),
      numRequired_eq hstart hphase]
  · obtain ⟨hmem, htype⟩ := mem_filter.mp hqc
    obtain ⟨params', hparams', -, hhash⟩ := haccepted.names qc (mem_inMapOrder.mpr hmem)
    rw [of_decide_eq_true htype, hparams, some.injEq] at hparams'
    rw [hparams', hhash]
  · obtain ⟨hmem, htype⟩ := mem_filter.mp hqc
    apply haccepted.unmined
    refine mem_filterMap.mpr ⟨qc, mem_inMapOrder.mpr hmem, ?_⟩
    rw [recordOf, hnull, of_decide_eq_true htype]
    rfl

namespace Passed

variable (h : Passed c s params block) (hs : s.Consistent)

include h hs

/-- There are at most as many commitments as indexes that are not mined. -/
lemma length_le :
    (indexes params block).length ≤ (unminedIndexes c s params).card := by
  rw [h.length, card_unminedIndexes]
  refine Finset.card_le_card (quorumsWith_mono fun key hkey => ?_)
  rw [Bool.not_eq_true'] at hkey ⊢
  exact hs.sound.contents_eq_false hkey

lemma orderly (hone : OneCommitmentEach c s.chain params block) : Orderly c s params block := by
  have hcount : ∀ quorumIndex ∈ unminedIndexes c s params,
      (indexes params block).count quorumIndex = 1 := by
    intro quorumIndex hmem
    obtain ⟨hnonneg, hlt, hunmined⟩ := (mem_unminedIndexes hs).mp hmem
    obtain ⟨i, rfl⟩ := Int.eq_ofNat_of_zero_le hnonneg
    exact hone.one i (by exact_mod_cast hlt) hunmined
  obtain ⟨hnodup, hmem, hcard⟩ := (count_eq_one_iff (h.length_le hs)).mp hcount
  have hindex : ∀ qc ∈ ofType params.type block.commitments, _ := fun qc hqc =>
    (mem_unminedIndexes hs).mp (hmem qc.quorumIndex (mem_map_of_mem hqc))
  refine ⟨hnodup, fun qc hqc => ⟨(hindex qc hqc).1, (hindex qc hqc).2.1⟩, fun qc hqc _ => ?_, ?_⟩
  · exact h.names qc hqc ▸ (hindex qc hqc).2.2
  · rw [← card_answers_eq_iff hs, ← h.length, hcard, card_unminedIndexes]

lemma oneCommitmentEach (horderly : Orderly c s params block) :
    OneCommitmentEach c s.chain params block := by
  have hunmined : ∀ qc ∈ ofType params.type block.commitments,
      qc.quorumIndex ∈ unminedIndexes c s params := by
    intro qc hqc
    obtain ⟨hnonneg, hlt⟩ := horderly.inCycle qc hqc
    refine (mem_unminedIndexes hs).mpr ⟨hnonneg, hlt, ?_⟩
    rw [h.names qc hqc]
    cases hnull : qc.isNull with
    | true => exact horderly.null_unmined qc hqc hnull
    | false =>
      rw [← hs.contents, h.unmined qc hqc hnull]
      exact Bool.false_ne_true
  have hmem : ∀ quorumIndex ∈ indexes params block, quorumIndex ∈ unminedIndexes c s params := by
    intro quorumIndex hmem
    obtain ⟨qc, hqc, rfl⟩ := mem_map.mp hmem
    exact hunmined qc hqc
  have hcard : (indexes params block).length = (unminedIndexes c s params).card := by
    rw [h.length, card_unminedIndexes, card_answers_eq_iff hs]
    exact horderly.answers
  have hcount := (count_eq_one_iff (h.length_le hs)).mpr ⟨horderly.distinct, hmem, hcard⟩
  constructor
  · intro i hlt hi
    exact hcount i ((mem_unminedIndexes hs).mpr ⟨by omega, by exact_mod_cast hlt, hi⟩)
  · exact fun qc hqc => ((mem_unminedIndexes hs).mp (hunmined qc hqc)).2.2

end Passed

/-- **One commitment for each quorum.** For every run and every block that passes on top of
its chain in the mining phase of an enabled type. -/
theorem oneCommitmentEach_iff (c : QuorumConsensus) (genesis : NonNullHash)
    (events : List ProcEvent) (view : QuorumView) (block : QBlock) (fJustCheck fBLSChecks : Bool)
    (params : LLMQParams) (hparams : view.llmqs params.type = some params)
    (hdip : c.dip0003Height ≤ (run c genesis events).chain.length)
    (henabled : c.isQuorumTypeEnabled params.type
      (((run c genesis events).chain.length : Int) - 1) = true)
    (hphase : isMiningPhase params (run c genesis events).chain.length = true)
    (hok : (runs (processBlock c view (run c genesis events).chain block fJustCheck fBLSChecks)
      (run c genesis events).mined).1 = .ok ()) :
    OneCommitmentEach c (run c genesis events).chain params block ↔
      Orderly c (run c genesis events) params block := by
  have hs := consistent_run c genesis events
  have hpassed := passed_of_processBlock hs hparams hdip henabled hphase hok
  exact ⟨hpassed.orderly hs, hpassed.oneCommitmentEach hs⟩

/-- What a node of the test network sees before there are masternodes. -/
def emptyView : QuorumView where
  llmqs := writeLLMQs .test 0 initialLLMQs
  llmqs_wellFormed := (ofSets_initialLLMQs.write .test 0).wellFormed
  membersSize := fun _ _ => 0
  sigsVerify := fun _ => false

/-- The first ten blocks of the test network, without commitments; the hash of the block at
height `n` is `n + 1`. -/
def firstBlocks : List ProcEvent :=
  (range 9).map fun i => .connect emptyView { hash := i + 2, hash_ne := succ_ne_zero _ } true true

/-- A block at height ten with a null commitment for the block at the height of an index. -/
def nullBlock (quorumIndex : Nat) : QBlock where
  hash := 100
  payloads := [some
    { nVersion := 2, llmqType := .llmq50_60, quorumHash := quorumIndex + 1, quorumIndex
      signers := replicate 10 false, validMembers := replicate 10 false }]

theorem oneCommitmentEach_nullBlock_zero :
    OneCommitmentEach testNetQuorumConsensus
      (run testNetQuorumConsensus ⟨1, by decide⟩ firstBlocks).chain llmq_10_60 (nullBlock 0) := by
  refine (oneCommitmentEach_iff testNetQuorumConsensus ⟨1, by decide⟩ firstBlocks emptyView
    (nullBlock 0) false true llmq_10_60 rfl (by decide +kernel) (by decide +kernel)
    (by decide +kernel) (by decide +kernel)).mpr ?_
  exact ⟨by decide +kernel, by decide +kernel, by decide +kernel, by decide +kernel⟩

/-- The null commitment at height ten is for the block at height one, where no quorum of the
cycle begins, and the quorum of the cycle has none. -/
theorem processBlock_accepts_stray_null :
    (runs (processBlock testNetQuorumConsensus emptyView
      (run testNetQuorumConsensus ⟨1, by decide⟩ firstBlocks).chain (nullBlock 1) false true)
      (run testNetQuorumConsensus ⟨1, by decide⟩ firstBlocks).mined).1 = .ok () ∧
    ¬ OneCommitmentEach testNetQuorumConsensus
      (run testNetQuorumConsensus ⟨1, by decide⟩ firstBlocks).chain llmq_10_60 (nullBlock 1) := by
  refine ⟨by decide +kernel, fun h => ?_⟩
  have hone := h.one 0 (by decide +kernel) (by decide +kernel)
  exact absurd hone (by decide +kernel)

end OneEach

end HootChain.Llmq.BlockProcessor

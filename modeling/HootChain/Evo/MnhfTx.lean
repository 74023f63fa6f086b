import HootChain.Chain
import HootChain.Llmq.QuorumManager

/-!
# Masternode Hard Fork Signals (`evo/mnhftx.cpp`)

A signal transaction names a quorum by the hash of its first block and carries the
quorum's signature of a version bit. `CheckMNHFTx` makes sure that the hash is that of a
block of the chain; `Verify` then uses the quorum without asking whether there is one.
-/

namespace HootChain.Evo.Mnhf

open Chain Consensus Llmq Llmq.BlockProcessor CBlockIndex Option
  Primitives

/-! ## Data -/

/-- `MNHFTx`; the signature is `none` where `IsValid` is false. -/
structure MNHFTx where
  versionBit : UInt8 := 0
  quorumHash : Uint256 := 0
  sig : Option Nat := none

structure MNHFTxPayload where
  nVersion : UInt8 := 1
  signal : MNHFTx

/-- `CTransaction`, the fields that the check reads. The payload is `none` where
`GetTxPayload` fails; `hashWithoutSig` is the hash of the transaction when the signature of
the payload is taken out. -/
structure CTransaction where
  nVersion : Int := 3
  isMnhfSignal : Bool := true
  payload : Option MNHFTxPayload
  hashWithoutSig : Uint256 := 0

def versionBitsNumBits : Nat := 29

/-- What the check reads besides the quorums. -/
structure MnhfEnv where
  /-- `m_block_index`; an index is told apart from others by its hash. -/
  blockIndex : List (BlockIndex Uint256)
  llmqTypeMnhf : LLMQType
  vDeployments : List BIP9Deployment
  getRequestId : UInt8 → Uint256
  buildSignHash : LLMQType → Uint256 → Uint256 → Uint256 → Uint256
  verifyInsecure : Option Nat → Option Nat → Uint256 → Bool
  getMedianTimePast : BlockIndex Uint256 → Int

section

variable (env : MnhfEnv)

def MnhfEnv.lookupBlockIndex (hash : Uint256) : Option (BlockIndex Uint256) :=
  env.blockIndex.find? fun pindex => pindex.node.block = hash

/-! ## The checks -/

/-- The loop of `IsValidMNActivation`. -/
def isValidMNActivationLoop (nBit : Nat) (timePast : Int) : List BIP9Deployment → Bool
  -- unknown fork bits may be activated
  | [] => true
  | deployment :: rest =>
    if deployment.bit = nBit then
      if timePast > deployment.nTimeout ∨ timePast < deployment.nStartTime then
        isValidMNActivationLoop nBit timePast rest
      else
        deployment.useEHF
    else
      isValidMNActivationLoop nBit timePast rest

def isValidMNActivation (vDeployments : List BIP9Deployment) (nBit : Nat) (timePast : Int) :
    Except Failure Bool :=
  if nBit < versionBitsNumBits then .ok (isValidMNActivationLoop nBit timePast vDeployments)
  else .error (.crash (.assertion "nBit < VERSIONBITS_NUM_BITS"))

/-- The dereference of a quorum that `GetQuorum` did not find. -/
def nullQuorum : Failure := .crash (.nullPointer "quorum->qc->quorumHash")

def MNHFTx.verify (signal : MNHFTx) (requestId msgHash : Uint256) (s : QuorumState) :
    Except Failure Unit × QuorumState :=
  if signal.versionBit.toNat ≥ versionBitsNumBits then
    (.error (.invalid "bad-mnhf-nbit-out-of-bounds"), s)
  else
    match s.getQuorum env.llmqTypeMnhf signal.quorumHash with
    | (none, s) => (.error nullQuorum, s)
    | (some quorum, s) =>
      let signHash := env.buildSignHash env.llmqTypeMnhf quorum.qc.quorumHash requestId msgHash
      if ¬ env.verifyInsecure signal.sig quorum.qc.quorumPublicKey signHash then
        (.error (.invalid "bad-mnhf-invalid"), s)
      else
        (.ok (), s)

/-- The checks of `CheckMNHFTx` before `Verify`: the payload, or the failure. -/
def checkPayload (tx : CTransaction) (pindexPrev : BlockIndex Uint256) :
    Except Failure MNHFTxPayload :=
  if tx.nVersion ≠ 3 ∨ ¬ tx.isMnhfSignal then .error (.invalid "bad-mnhf-type")
  else
    match tx.payload with
    | none => .error (.invalid "bad-mnhf-payload")
    | some mnhfTx =>
      if mnhfTx.nVersion = 0 ∨ mnhfTx.nVersion > 1 then .error (.invalid "bad-mnhf-version")
      else
        match env.lookupBlockIndex mnhfTx.signal.quorumHash with
        | none => .error (.invalid "bad-mnhf-quorum-hash")
        | some pindexQuorum =>
          match pindexPrev.node.getAncestor pindexQuorum.node.nHeight with
          | .error crash => .error (.crash crash)
          | .ok ancestor =>
            -- not part of the active chain
            if ancestor.map CBlockIndex.block ≠ some pindexQuorum.node.block then
              .error (.invalid "bad-mnhf-quorum-hash")
            else
              .ok mnhfTx

/-- The check of `CheckMNHFTx` after `Verify`. -/
def checkActivation (mnhfTx : MNHFTxPayload) (pindexPrev : BlockIndex Uint256) :
    Except Failure Unit := do
  let isValid ← isValidMNActivation env.vDeployments mnhfTx.signal.versionBit.toNat
    (env.getMedianTimePast pindexPrev)
  if ¬ isValid then .error (.invalid "bad-mnhf-non-ehf") else .ok ()

def checkMNHFTx (tx : CTransaction) (pindexPrev : BlockIndex Uint256) (s : QuorumState) :
    Except Failure Unit × QuorumState :=
  match checkPayload env tx pindexPrev with
  | .error failure => (.error failure, s)
  | .ok mnhfTx =>
    match mnhfTx.signal.verify env (env.getRequestId mnhfTx.signal.versionBit) tx.hashWithoutSig s
    with
    | (.error failure, s) => (.error failure, s)
    | (.ok (), s) => (checkActivation env mnhfTx pindexPrev, s)

end

/-! ## What reaches `Verify` -/

/-- The transaction gets as far as `Verify`: it is a signal of version 1 that names a block
of the chain. -/
structure Reaches (env : MnhfEnv) (tx : CTransaction) (pindexPrev : BlockIndex Uint256)
    (mnhfTx : MNHFTxPayload) : Prop where
  version : tx.nVersion = 3
  type : tx.isMnhfSignal = true
  payload : tx.payload = some mnhfTx
  payloadVersion : mnhfTx.nVersion = 1
  onChain : ∃ pindexQuorum ∈ env.lookupBlockIndex mnhfTx.signal.quorumHash,
    ∃ ancestor ∈ pindexPrev.node.ancestors, ancestor.nHeight = pindexQuorum.node.nHeight ∧
      ancestor.block = mnhfTx.signal.quorumHash

section Checks

variable {env : MnhfEnv} {tx : CTransaction} {pindexPrev : BlockIndex Uint256}
  {mnhfTx : MNHFTxPayload}

lemma block_of_lookupBlockIndex {hash : Uint256} {pindex : BlockIndex Uint256}
    (h : env.lookupBlockIndex hash = some pindex) : pindex.node.block = hash := by
  simpa using List.find?_some h

/-- The block at the height of a known one is the ancestor of this height. -/
lemma getAncestor_block_iff (pindex pindexQuorum : BlockIndex Uint256) :
    ∃ found, pindex.node.getAncestor pindexQuorum.node.nHeight = .ok found ∧
      (found.map block = some pindexQuorum.node.block ↔
        ∃ ancestor ∈ pindex.node.ancestors, ancestor.nHeight = pindexQuorum.node.nHeight ∧
          ancestor.block = pindexQuorum.node.block) := by
  obtain ⟨-, -, a, ha, hheight, hfound⟩ | ⟨hout, hfound⟩ :=
    pindex.built.getAncestor pindexQuorum.node.nHeight
  · refine ⟨some a, hfound, ?_⟩
    constructor
    · intro hblock
      exact ⟨a, ha, by omega, some.inj hblock⟩
    · rintro ⟨b, hb, hheight', hblock⟩
      obtain rfl := eq_of_mem_ancestors ha hb (by omega)
      rw [map_some, hblock]
  · refine ⟨none, hfound, ?_⟩
    constructor
    · intro hblock
      cases hblock
    · rintro ⟨b, hb, hheight, -⟩
      have hle := nHeight_le_of_mem_ancestors hb
      omega

lemma version_eq_one_iff (nVersion : UInt8) : ¬ (nVersion = 0 ∨ nVersion > 1) ↔ nVersion = 1 := by
  rw [gt_iff_lt, UInt8.lt_iff_toNat_lt, ← UInt8.toNat_inj, ← UInt8.toNat_inj]
  have hzero : (0 : UInt8).toNat = 0 := rfl
  have hone : (1 : UInt8).toNat = 1 := rfl
  omega

/-- Up to `Verify` nothing crashes. -/
lemma checkPayload_cases (env : MnhfEnv) (tx : CTransaction) (pindexPrev : BlockIndex Uint256) :
    (∃ mnhfTx, Reaches env tx pindexPrev mnhfTx ∧ checkPayload env tx pindexPrev = .ok mnhfTx) ∨
    ((∀ mnhfTx, ¬ Reaches env tx pindexPrev mnhfTx) ∧
      ∃ reason, checkPayload env tx pindexPrev = .error (.invalid reason)) := by
  unfold checkPayload
  -- a test that fails is a field of `Reaches` that does not hold
  by_cases htype : tx.nVersion ≠ 3 ∨ ¬ tx.isMnhfSignal
  · rw [if_pos htype]
    exact .inr ⟨fun mnhfTx h => by simp [h.version, h.type] at htype, _, rfl⟩
  rw [if_neg htype]
  cases hpayload : tx.payload with
  | none => exact .inr ⟨fun mnhfTx h => by simp [h.payload] at hpayload, _, rfl⟩
  | some mnhfTx =>
    have hsame : ∀ {mnhfTx'}, Reaches env tx pindexPrev mnhfTx' → mnhfTx' = mnhfTx :=
      fun h => some.inj (h.payload.symm.trans hpayload)
    dsimp only
    by_cases hversion : mnhfTx.nVersion = 0 ∨ mnhfTx.nVersion > 1
    · rw [if_pos hversion]
      refine .inr ⟨fun mnhfTx' h => ?_, _, rfl⟩
      obtain rfl := hsame h
      exact (version_eq_one_iff _).mpr h.payloadVersion hversion
    rw [if_neg hversion]
    cases hlookup : env.lookupBlockIndex mnhfTx.signal.quorumHash with
    | none =>
      refine .inr ⟨fun mnhfTx' h => ?_, _, rfl⟩
      obtain rfl := hsame h
      obtain ⟨pindexQuorum, hmem, -⟩ := h.onChain
      rw [hlookup] at hmem
      cases hmem
    | some pindexQuorum =>
      obtain ⟨found, hfound, hblock⟩ := getAncestor_block_iff pindexPrev pindexQuorum
      have hhash := block_of_lookupBlockIndex hlookup
      dsimp only
      rw [hfound]
      dsimp only
      by_cases hchain : found.map block = some pindexQuorum.node.block
      · rw [if_neg (not_not.mpr hchain)]
        have honChain := hblock.mp hchain
        rw [hhash] at honChain
        obtain ⟨hnVersion, hsignal⟩ := not_or.mp htype
        exact .inl ⟨mnhfTx, ⟨not_not.mp hnVersion, by simpa using hsignal, hpayload,
          (version_eq_one_iff _).mp hversion, pindexQuorum, hlookup, honChain⟩, rfl⟩
      · rw [if_pos hchain]
        refine .inr ⟨fun mnhfTx' h => hchain (hblock.mpr ?_), _, rfl⟩
        obtain rfl := hsame h
        obtain ⟨pindexQuorum', hmem, honChain⟩ := h.onChain
        obtain rfl : pindexQuorum = pindexQuorum' := some.inj (hlookup.symm.trans hmem)
        rwa [hhash]

/-! ## Quorums that are there -/

/-- `GetQuorum` has something to return: the commitment is answered to be mined, and the
quorum is cached or the commitment is recorded. -/
def HasQuorum (s : QuorumState) (key : MinedKey) : Prop :=
  key.2 ∈ s.blockIndex ∧ s.proc.mined.answer key = true ∧
    (s.mapQuorumsCache key ≠ none ∨ s.minedCommitments key ≠ none)

lemma getQuorum_ne_none_iff (s : QuorumState) (llmqType : LLMQType) (quorumHash : Uint256) :
    (s.getQuorum llmqType quorumHash).1 ≠ none ↔ HasQuorum s (llmqType, quorumHash) := by
  have hreturned := s.getQuorum_returned llmqType quorumHash
  generalize s.getQuorum llmqType quorumHash = r at hreturned
  unfold HasQuorum
  cases hreturned with
  | unknown hunknown => simp [hunknown]
  | unmined hanswer => simp [hanswer]
  | cached quorum hknown hanswer hcached => simp [hknown, hanswer, hcached]
  | missing hcached hmissing => simp [hcached, hmissing]
  | built quorum hknown hanswer _ hmined => simp [hknown, hanswer, hmined]

/-! ## The whole check -/

/-- The check returns a verdict, and one without a quorum is a rejection. -/
def Safe (env : MnhfEnv) (tx : CTransaction) (pindexPrev : BlockIndex Uint256) (s : QuorumState) :
    Prop :=
  (∀ crash, (checkMNHFTx env tx pindexPrev s).1 ≠ .error (.crash crash)) ∧
  ∀ mnhfTx, tx.payload = some mnhfTx →
    ¬ HasQuorum s (env.llmqTypeMnhf, mnhfTx.signal.quorumHash) →
    ∃ reason, (checkMNHFTx env tx pindexPrev s).1 = .error (.invalid reason)

variable {s : QuorumState} {signal : MNHFTx}

lemma verify_of_hasQuorum (requestId msgHash : Uint256)
    (hbit : signal.versionBit.toNat < versionBitsNumBits)
    (hquorum : HasQuorum s (env.llmqTypeMnhf, signal.quorumHash)) :
    (signal.verify env requestId msgHash s).1 = .ok () ∨
      (signal.verify env requestId msgHash s).1 = .error (.invalid "bad-mnhf-invalid") := by
  rw [← getQuorum_ne_none_iff] at hquorum
  rw [MNHFTx.verify, if_neg (by omega)]
  cases hget : s.getQuorum env.llmqTypeMnhf signal.quorumHash with
  | mk found s' =>
    cases found with
    | none => simp [hget] at hquorum
    | some quorum =>
      dsimp only
      split
      · exact .inr rfl
      · exact .inl rfl

lemma verify_of_not_hasQuorum (requestId msgHash : Uint256)
    (hbit : signal.versionBit.toNat < versionBitsNumBits)
    (hquorum : ¬ HasQuorum s (env.llmqTypeMnhf, signal.quorumHash)) :
    (signal.verify env requestId msgHash s).1 = .error nullQuorum := by
  rw [← getQuorum_ne_none_iff, not_not] at hquorum
  rw [MNHFTx.verify, if_neg (by omega)]
  cases hget : s.getQuorum env.llmqTypeMnhf signal.quorumHash with
  | mk found s' =>
    rw [hget] at hquorum
    dsimp only at hquorum
    rw [hquorum]

lemma checkActivation_returns (hbit : mnhfTx.signal.versionBit.toNat < versionBitsNumBits)
    (crash : Crash) : checkActivation env mnhfTx pindexPrev ≠ .error (.crash crash) := by
  rw [checkActivation, isValidMNActivation, if_pos hbit]
  simp only [bind, Except.bind]
  split <;> simp

/-- What the check comes to once the payload has passed. -/
lemma checkMNHFTx_of_reaches (hreaches : Reaches env tx pindexPrev mnhfTx) :
    (checkMNHFTx env tx pindexPrev s).1 =
      (mnhfTx.signal.verify env (env.getRequestId mnhfTx.signal.versionBit) tx.hashWithoutSig s).1
        >>= fun _ => checkActivation env mnhfTx pindexPrev := by
  obtain ⟨mnhfTx', hreaches', hpayload⟩ | ⟨hnot, -⟩ := checkPayload_cases env tx pindexPrev
  · obtain rfl : mnhfTx = mnhfTx' :=
      some.inj (hreaches.payload.symm.trans hreaches'.payload)
    rw [checkMNHFTx, hpayload]
    dsimp only
    generalize mnhfTx.signal.verify env _ tx.hashWithoutSig s = r
    obtain ⟨result, s'⟩ := r
    cases result <;> rfl
  · exact absurd hreaches (hnot mnhfTx)

lemma checkMNHFTx_of_not_hasQuorum (hreaches : Reaches env tx pindexPrev mnhfTx)
    (hbit : mnhfTx.signal.versionBit.toNat < versionBitsNumBits)
    (hquorum : ¬ HasQuorum s (env.llmqTypeMnhf, mnhfTx.signal.quorumHash)) :
    (checkMNHFTx env tx pindexPrev s).1 = .error nullQuorum := by
  rw [checkMNHFTx_of_reaches hreaches, verify_of_not_hasQuorum _ _ hbit hquorum]
  rfl

lemma checkMNHFTx_of_not_reaches (hnot : ∀ mnhfTx, ¬ Reaches env tx pindexPrev mnhfTx)
    (s : QuorumState) :
    ∃ reason, (checkMNHFTx env tx pindexPrev s).1 = .error (.invalid reason) := by
  obtain ⟨mnhfTx, hreaches, -⟩ | ⟨-, reason, hpayload⟩ := checkPayload_cases env tx pindexPrev
  · exact absurd hreaches (hnot mnhfTx)
  · exact ⟨reason, by rw [checkMNHFTx, hpayload]⟩

/-- **When the check is safe.** A signal that gets as far as `Verify` with a version bit in
range has to name a quorum that is there. -/
theorem checkMNHFTx_safe_iff (env : MnhfEnv) (tx : CTransaction)
    (pindexPrev : BlockIndex Uint256) (s : QuorumState) :
    Safe env tx pindexPrev s ↔
      ∀ mnhfTx, Reaches env tx pindexPrev mnhfTx →
        mnhfTx.signal.versionBit.toNat < versionBitsNumBits →
        HasQuorum s (env.llmqTypeMnhf, mnhfTx.signal.quorumHash) := by
  constructor
  · rintro ⟨hreturns, -⟩ mnhfTx hreaches hbit
    by_contra hquorum
    exact hreturns _ (checkMNHFTx_of_not_hasQuorum hreaches hbit hquorum)
  · intro hquorums
    by_cases hreaches : ∃ mnhfTx, Reaches env tx pindexPrev mnhfTx
    · obtain ⟨mnhfTx, hreaches⟩ := hreaches
      by_cases hbit : mnhfTx.signal.versionBit.toNat < versionBitsNumBits
      · -- the quorum is there, and only the signature or the activation can be wrong
        have hquorum := hquorums mnhfTx hreaches hbit
        refine ⟨fun crash => ?_, fun mnhfTx' hpayload hnot => ?_⟩
        · rw [checkMNHFTx_of_reaches hreaches]
          obtain hverify | hverify := verify_of_hasQuorum
            (env.getRequestId mnhfTx.signal.versionBit) tx.hashWithoutSig hbit hquorum
          · rw [hverify]
            exact checkActivation_returns hbit crash
          · rw [hverify]
            simp
        · obtain rfl : mnhfTx = mnhfTx' :=
            some.inj (hreaches.payload.symm.trans hpayload)
          exact absurd hquorum hnot
      · have hrejected : (checkMNHFTx env tx pindexPrev s).1 =
            .error (.invalid "bad-mnhf-nbit-out-of-bounds") := by
          rw [checkMNHFTx_of_reaches hreaches, MNHFTx.verify, if_pos (by omega)]
          rfl
        rw [Safe, hrejected]
        exact ⟨by simp, fun _ _ _ => ⟨_, rfl⟩⟩
    · obtain ⟨reason, hrejected⟩ := checkMNHFTx_of_not_reaches (not_exists.mp hreaches) s
      rw [Safe, hrejected]
      exact ⟨by simp, fun _ _ _ => ⟨_, rfl⟩⟩

end Checks

/-! ## A signal that names no quorum -/

/-- The last of three blocks with the hashes 1, 2 and 3. -/
def thirdBlock : BlockIndex Uint256 :=
  ⟨.unlinked 3 (.unlinked 2 (.genesis 1)), .unlinked _ (.unlinked _ (.genesis _)), by decide⟩

/-- A node that knows the three blocks. -/
def threeBlockEnv : MnhfEnv where
  blockIndex :=
    [thirdBlock, ⟨.unlinked 2 (.genesis 1), .unlinked _ (.genesis _), by decide⟩,
      ⟨.genesis 1, .genesis _, by decide⟩]
  llmqTypeMnhf := .llmq50_60
  vDeployments := [mainParams.vDeployments .mnRR]
  getRequestId := fun versionBit => versionBit.toNat
  buildSignHash := fun _ quorumHash requestId msgHash => quorumHash + requestId + msgHash
  verifyInsecure := fun _ _ _ => false
  getMedianTimePast := fun _ => 1700000000

/-- Its quorums after it has connected them. -/
def threeBlockState : QuorumState :=
  QuorumState.run testNetQuorumConsensus ⟨1, by decide⟩ ((firstBlocks.take 2).map .node)

/-- The signal of bit 10 by the quorum of block 2, with which no quorum begins. -/
def strayPayload : MNHFTxPayload := { signal := { versionBit := 10, quorumHash := 2 } }

/-- The chain is short; with V20 active, a block of any height will do. -/
theorem checkMNHFTx_dereferences_null :
    threeBlockState.proc.chain.map QBlock.hash = [1, 2, 3] ∧
      (checkMNHFTx threeBlockEnv { payload := some strayPayload } thirdBlock threeBlockState).1 =
        .error nullQuorum := by
  refine ⟨by decide +kernel, ?_⟩
  have hreaches : Reaches threeBlockEnv { payload := some strayPayload } thirdBlock strayPayload :=
    ⟨rfl, rfl, rfl, rfl, _, rfl, .unlinked 2 (.genesis 1),
      by simp [thirdBlock, ancestors], rfl, rfl⟩
  have hquorum : ¬ HasQuorum threeBlockState (.llmq50_60, 2) := by
    rintro ⟨-, hanswer, -⟩
    exact absurd hanswer (by decide +kernel)
  exact checkMNHFTx_of_not_hasQuorum hreaches (by decide) hquorum

end HootChain.Evo.Mnhf

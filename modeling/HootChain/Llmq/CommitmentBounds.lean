import HootChain.Evo.NewList
import HootChain.Llmq.Commitment

/-!
# Reads and Exceptions in the Checks of a Commitment

`CheckLLMQCommitment` and `CFinalCommitment::Verify` (`llmq/commitment.cpp`) and
`HandleQuorumCommitment` (`evo/deterministicmns.cpp`) index the bit vectors of a
commitment, partly up to `params.size` and partly up to the number of members. The
parameters of a quorum type change with the number of masternodes, and the members may
have been computed when they were different ones. Some of the reads are made only to
write the log.

A read past the end, a range that does not end and a log line whose conversions do not
fit its arguments are faults here.
-/

namespace HootChain.Llmq.CommitmentBounds

open Consensus Evo Foundation Primitives List Option Except Nat CFinalCommitment

/-! ## Faults -/

/-- What can go wrong while a commitment is checked. -/
inductive Fault where
  /-- A vector is indexed past its end. -/
  | outOfRange
  /-- `std::invalid_argument` of `irange::range`. -/
  | invalidArgument
  /-- `tinyformat::format_error`. -/
  | formatError
  deriving DecidableEq

/-- `v[i]` of a `std::vector<bool>`. -/
def readBit (bits : List Bool) (i : Nat) : Except Fault Bool :=
  match bits[i]? with
  | none => .error .outOfRange
  | some bit => .ok bit

/-- `irange::range(start, stop)`. -/
def irange (start stop : Nat) : Except Fault (List Nat) :=
  if start > stop then .error .invalidArgument else .ok (range' start (stop - start))

/-- The conversions of a format string. -/
def conversions (fmt : String) : Nat := fmt.toList.count '%'

/-- `LogPrintfFinalCommitment` with a number of arguments, while the category is logged or not. -/
def logPrintfFinalCommitment (logging : Bool) (fmt : String) (args : Nat) : Except Fault Unit :=
  if logging ∧ conversions fmt ≠ args then .error .formatError else .ok ()

/-- A log line and `return false`. -/
def reject (logging : Bool) (fmt : String) (args : Nat) : Except Fault Bool := do
  logPrintfFinalCommitment logging fmt args
  return false

/-! ## The functions -/

/-- What the checks read besides the commitment. -/
structure CheckEnv where
  /-- `LogAcceptCategory(BCLog::LLMQ)`. -/
  logging : Bool
  llmqs : LlmqTable
  llmqs_size : ∀ llmqType params, llmqs llmqType = some params → 0 ≤ params.size
  /-- `GetAllQuorumMembers`, by their `proTxHash`. -/
  members : List Uint256
  /-- `membersSig.VerifySecureAggregated` with the keys of the given members. -/
  membersSigVerifies : CFinalCommitment → List Uint256 → Bool
  /-- `quorumSig.VerifyInsecure`. -/
  quorumSigVerifies : CFinalCommitment → Bool

/-- The loop that writes bits to the log. -/
def logBits (logging : Bool) (size : Nat) (vectors : List (List Bool)) : Except Fault Unit :=
  if logging then do
    let range ← irange 0 size
    range.forM fun i => vectors.forM fun bits => do
      let _ ← readBit bits i
      return ()
  else .ok ()

/-- The loop over the bits that do not belong to a member. -/
def checkUnset (logging : Bool) (qc : CFinalCommitment) : List Nat → Except Fault Bool
  | [] => .ok true
  | i :: rest => do
    if ← readBit qc.validMembers i then
      reject logging "q[%s] invalid validMembers bitset. bit %d should not be set\n" 2
    else if ← readBit qc.signers i then
      reject logging "q[%s] invalid signers bitset. bit %d should not be set\n" 2
    else checkUnset logging qc rest

/-- The loop that collects the keys of the signers. -/
def memberPubKeys (signers : List Bool) : List (Uint256 × Nat) → Except Fault (List Uint256)
  | [] => .ok []
  | (member, i) :: rest => do
    if ← readBit signers i then
      return member :: (← memberPubKeys signers rest)
    else memberPubKeys signers rest

/-- The part of `Verify` that checks signatures. -/
def verifySigs (env : CheckEnv) (qc : CFinalCommitment) : Except Fault Bool := do
  logPrintfFinalCommitment env.logging
    "CFinalCommitment::%s members[%s] quorumPublicKey[%s] commitmentHash[%s]\n" 4
  let keys ← memberPubKeys qc.signers env.members.zipIdx
  if ¬ env.membersSigVerifies qc keys then
    reject env.logging "q[%s] invalid aggregated members signature\n" 1
  else if ¬ env.quorumSigVerifies qc then
    reject env.logging "q[%s] invalid quorum signature\n" 1
  else return true

/-- The part of `Verify` after the checks that need no members. -/
def verifyMembers (env : CheckEnv) (params : LLMQParams) (qc : CFinalCommitment)
    (checkSigs : Bool) : Except Fault Bool := do
  logBits env.logging params.size.toNat [qc.validMembers, qc.signers]
  logPrintfFinalCommitment env.logging
    "CFinalCommitment::%s mns[%d] validMembers[%s] signers[%s]\n" 4
  let range ← irange env.members.length params.size.toNat
  if ← checkUnset env.logging qc range then
    if checkSigs then
      if ← verifySigs env qc then
        logPrintfFinalCommitment env.logging "q[%s] VALID\n" 1
        return true
      else return false
    else
      logPrintfFinalCommitment env.logging "q[%s] VALID\n" 1
      return true
  else return false

variable (c : QuorumConsensus)

/-- `expected_nversion`. -/
def expectedVersion (params : LLMQParams) (baseHeight : Int) : Nat :=
  getVersion (c.isQuorumRotationEnabled params baseHeight)
    (baseHeight + 1 ≥ c.v19Height)

section

variable (env : CheckEnv)

/-- `Verify` against the base block with the given hash and height. -/
def verify (qc : CFinalCommitment) (baseHash : Uint256) (baseHeight : Int) (checkSigs : Bool) :
    Except Fault Bool :=
  match env.llmqs qc.llmqType with
  | none => reject env.logging "q[%s] invalid llmqType=%d\n" 2
  | some params =>
    if qc.nVersion = 0 ∨ qc.nVersion ≠ expectedVersion c params baseHeight then
      -- three arguments for two conversions
      reject env.logging "q[%s] invalid nVersion=%d expectednVersion\n" 3
    else if baseHash ≠ qc.quorumHash then reject env.logging "q[%s] invalid quorumHash\n" 1
    else if baseHeight.tmod params.dkgInterval ≠ qc.quorumIndex then
      reject env.logging "q[%s] invalid quorumIndex=%d\n" 2
    else if ¬ qc.verifySizes params then
      reject env.logging "q[%s] invalid signers.size=%d\n" 2
    else if qc.countValidMembers < params.minSize then
      reject env.logging "q[%s] invalid validMembers count. validMembersCount=%d\n" 2
    else if qc.countSigners < params.minSize then
      reject env.logging "q[%s] invalid signers count. signersCount=%d\n" 2
    else if qc.quorumPublicKey.isNone then
      reject env.logging "q[%s] invalid quorumPublicKey\n" 1
    else if qc.quorumVvecHash = 0 then reject env.logging "q[%s] invalid quorumVvecHash\n" 1
    else if qc.membersSig.isNone then reject env.logging "q[%s] invalid membersSig\n" 1
    else if qc.quorumSig.isNone then
      -- no argument for its conversion
      reject env.logging "q[%s] invalid vvecSig\n" 0
    else verifyMembers env params qc checkSigs

/-- `CFinalCommitmentTxPayload`. -/
structure CommitmentTxPayload where
  nVersion : Nat := 1
  nHeight : Nat
  commitment : CFinalCommitment

/-- What the node knows about base blocks when it checks a block after `pindexPrev`. -/
structure BaseBlocks where
  prevHeight : Int
  /-- `LookupBlockIndex`, as the height of the block. -/
  lookupBlockIndex : Uint256 → Option Int
  /-- The block is the ancestor of `pindexPrev` at its height. -/
  isAncestor : Uint256 → Bool

/-- A log line and `state.Invalid`. -/
def invalid (logging : Bool) (fmt : String) (args : Nat) (reason : String) :
    Except Fault (Except String Unit) := do
  logPrintfFinalCommitment logging fmt args
  return .error reason

/-- The part of `CheckLLMQCommitment` after the base block has been found. -/
def checkCommitment (qc : CFinalCommitment) (baseHeight : Int) :
    Except Fault (Except String Unit) :=
  if qc.isNull then
    if ¬ qc.verifyNull env.llmqs then
      invalid env.logging "h[%d] invalid qcTx.commitment[%s] VerifyNull failed\n" 2
        "bad-qc-invalid-null"
    else .ok (.ok ())
  else do
    if ← verify c env qc qc.quorumHash baseHeight false then
      logPrintfFinalCommitment env.logging "h[%d] CheckLLMQCommitment VALID\n" 1
      return .ok ()
    else
      invalid env.logging "h[%d] invalid qcTx.commitment[%s] Verify failed\n" 2 "bad-qc-invalid"

/-- The part of `CheckLLMQCommitment` after the log of the valid members. -/
def checkQcTx (blocks : BaseBlocks) (qcTx : CommitmentTxPayload) :
    Except Fault (Except String Unit) :=
  if qcTx.nVersion = 0 ∨ qcTx.nVersion > 1 then
    invalid env.logging "h[%d] invalid qcTx.nVersion[%d]\n" 2 "bad-qc-version"
  else if (qcTx.nHeight : Int) ≠ blocks.prevHeight + 1 then
    invalid env.logging "h[%d] invalid qcTx.nHeight[%d]\n" 2 "bad-qc-height"
  else
    match blocks.lookupBlockIndex qcTx.commitment.quorumHash with
    | none => .ok (.error "bad-qc-quorum-hash")
    | some baseHeight =>
      if ¬ blocks.isAncestor qcTx.commitment.quorumHash then .ok (.error "bad-qc-quorum-hash")
      else checkCommitment c env qcTx.commitment baseHeight

/-- `CheckLLMQCommitment`; `none` where `GetTxPayload` fails. -/
def checkLLMQCommitment (blocks : BaseBlocks) (payload : Option CommitmentTxPayload) :
    Except Fault (Except String Unit) :=
  match payload with
  | none => invalid env.logging "h[%d] GetTxPayload failed\n" 1 "bad-qc-payload"
  | some qcTx =>
    match env.llmqs qcTx.commitment.llmqType with
    | none =>
      invalid env.logging "h[%d] GetLLMQ failed for llmqType[%d]\n" 2 "bad-qc-commitment-type"
    | some params => do
      -- the vector has not been compared with the size yet
      logBits env.logging params.size.toNat [qcTx.commitment.validMembers]
      logPrintfFinalCommitment env.logging "%s llmqType[%d] validMembers[%s] signers[]\n" 3
      checkQcTx c env blocks qcTx

end

def handleQuorumCommitment (validMembers : List Bool) (members : List Uint256)
    (mnList : CDeterministicMNList) : ListResult :=
  members.zipIdx.foldlM (punishMember validMembers) mnList

/-! ## Log lines and reads -/

section Reads

variable {logging : Bool} {fmt reason : String} {args : Nat} {bits : List Bool} {chars : List Char}
  {i : Nat}

/-- The conversions of a literal are counted on its characters. -/
lemma conversions_eq (h : chars.count '%' = args) : conversions (String.ofList chars) = args := by
  rw [conversions, String.toList_ofList, h]

lemma conversions_ne (h : chars.count '%' ≠ args) : conversions (String.ofList chars) ≠ args := by
  rwa [conversions, String.toList_ofList]

lemma logPrintf_ok (h : conversions fmt = args) :
    logPrintfFinalCommitment logging fmt args = .ok () := by
  simp [logPrintfFinalCommitment, h]

lemma reject_ok (h : conversions fmt = args) : reject logging fmt args = .ok false := by
  simp [reject, logPrintf_ok h]

lemma invalid_ok (h : conversions fmt = args) :
    invalid logging fmt args reason = .ok (.error reason) := by
  simp [invalid, logPrintf_ok h]

/-- A line whose conversions do not fit throws if it is logged. -/
lemma reject_of_ne (h : conversions fmt ≠ args) :
    reject logging fmt args = if logging then .error .formatError else .ok false := by
  cases logging <;> simp [reject, logPrintfFinalCommitment, h]

lemma readBit_eq_ok (h : i < bits.length) : readBit bits i = .ok bits[i] := by
  simp [readBit, h]

lemma readBit_of_le (h : bits.length ≤ i) : readBit bits i = .error .outOfRange := by
  simp [readBit, h]

lemma irange_eq_ok {start stop : Nat} (h : start ≤ stop) :
    irange start stop = .ok (range' start (stop - start)) :=
  if_neg (not_lt.mpr h)

/-- Bits are logged without a fault if nothing is logged, or all vectors are long enough. -/
lemma logBits_eq_ok {size : Nat} {vectors : List (List Bool)} :
    logBits logging size vectors = .ok () ↔
      (logging = true → ∀ bits ∈ vectors, size ≤ bits.length) := by
  cases logging with
  | false => simp [logBits]
  | true =>
    have hread : ∀ bits i, (do let _ ← readBit bits i; return () : Except Fault Unit) = .ok () ↔
        i < bits.length := by
      intro bits i
      rcases lt_or_ge i bits.length with h | h
      · simp [readBit_eq_ok h, h]
      · simp [readBit_of_le h, not_lt.mpr h]
    simp only [logBits, if_true, irange_eq_ok (zero_le size), forall_const]
    refine forM_eq_ok.trans ?_
    simp only [forM_eq_ok, hread, mem_range'_1]
    constructor
    · intro h bits hbits
      by_contra hlt
      exact absurd (h bits.length (by omega) bits hbits) (lt_irrefl _)
    · intro h i hi bits hbits
      have := h bits hbits
      omega

variable (logging) in
/-- The loop over unset bits reads within the vectors if its range does. -/
lemma checkUnset_isOk {qc : CFinalCommitment} {range : List Nat}
    (h : ∀ i ∈ range, i < qc.validMembers.length ∧ i < qc.signers.length) :
    (checkUnset logging qc range).isOk = true := by
  induction range with
  | nil => rfl
  | cons i range ih =>
    obtain ⟨hvalid, hsigner⟩ := h i mem_cons_self
    simp only [checkUnset, readBit_eq_ok hvalid, readBit_eq_ok hsigner, ok_bind]
    split
    · simp (disch := exact conversions_eq rfl) only [reject_ok, isOk_ok]
    · split
      · simp (disch := exact conversions_eq rfl) only [reject_ok, isOk_ok]
      · exact ih fun i hi => h i (mem_cons_of_mem _ hi)

lemma memberPubKeys_isOk {signers : List Bool} {members : List (Uint256 × Nat)}
    (h : ∀ m ∈ members, m.2 < signers.length) :
    ∃ keys, memberPubKeys signers members = .ok keys := by
  induction members with
  | nil => exact ⟨[], rfl⟩
  | cons m members ih =>
    obtain ⟨keys, hkeys⟩ := ih fun m hm => h m (mem_cons_of_mem _ hm)
    simp only [memberPubKeys, readBit_eq_ok (h m mem_cons_self), hkeys, ok_bind, pure_eq_ok]
    split <;> exact ⟨_, rfl⟩

end Reads

/-! ## `Verify` -/

section Verify

variable {env : CheckEnv} {params : LLMQParams} {qc : CFinalCommitment}

variable (env) in
lemma verifySigs_isOk (h : env.members.length ≤ qc.signers.length) :
    (verifySigs env qc).isOk = true := by
  have hmembers : ∀ m ∈ env.members.zipIdx, m.2 < qc.signers.length := by
    intro m hm
    have := (mem_zipIdx (x := m.1) (i := m.2) hm).2.1
    omega
  obtain ⟨keys, hkeys⟩ := memberPubKeys_isOk hmembers
  simp (disch := exact conversions_eq rfl) only [verifySigs, logPrintf_ok, reject_ok, hkeys,
    ok_bind, pure_eq_ok]
  split
  · rfl
  · split <;> rfl

/-- Once the sizes have been compared, only the number of members can be wrong. -/
lemma verifyMembers_isOk (hsizes : qc.verifySizes params = true) (checkSigs : Bool) :
    (verifyMembers env params qc checkSigs).isOk = true ↔
      (env.members.length : Int) ≤ params.size := by
  simp only [verifySizes, Bool.and_eq_true, decide_eq_true_eq] at hsizes
  have hlog : logBits env.logging params.size.toNat [qc.validMembers, qc.signers] = .ok () := by
    refine logBits_eq_ok.mpr fun _ bits hbits => ?_
    rcases mem_pair.mp hbits with rfl | rfl <;> omega
  simp (disch := exact conversions_eq rfl) only [verifyMembers, hlog, logPrintf_ok, ok_bind,
    pure_eq_ok]
  rcases lt_or_ge params.size.toNat env.members.length with hgt | hle
  · -- the range does not end
    simp only [irange, if_pos hgt, error_bind, isOk_error, Bool.false_eq_true, false_iff]
    omega
  · refine iff_of_true ?_ (by omega)
    have hrange : ∀ i ∈ range' env.members.length (params.size.toNat - env.members.length),
        i < qc.validMembers.length ∧ i < qc.signers.length := by
      intro i hi
      rw [mem_range'_1] at hi
      omega
    have hunset := checkUnset_isOk env.logging hrange
    have hsigs : (verifySigs env qc).isOk = true := verifySigs_isOk env (by omega)
    rw [irange_eq_ok hle, ok_bind]
    cases hresult : checkUnset env.logging qc
        (range' env.members.length (params.size.toNat - env.members.length)) with
    | error fault => simp [hresult] at hunset
    | ok unset =>
      cases hverify : verifySigs env qc with
      | error fault => simp [hverify] at hsigs
      | ok verified => cases unset <;> cases checkSigs <;> cases verified <;> rfl

/-- The checks of `Verify` that come before those of the quorum signature and the members. -/
structure WellFormed (c : QuorumConsensus) (params : LLMQParams) (qc : CFinalCommitment)
    (baseHash : Uint256) (baseHeight : Int) : Prop where
  version : qc.nVersion = expectedVersion c params baseHeight
  quorumHash : baseHash = qc.quorumHash
  quorumIndex : baseHeight.tmod params.dkgInterval = qc.quorumIndex
  sizes : qc.verifySizes params = true
  validMembers : params.minSize ≤ qc.countValidMembers
  signers : params.minSize ≤ qc.countSigners
  quorumPublicKey : qc.quorumPublicKey.isSome = true
  quorumVvecHash : qc.quorumVvecHash ≠ 0
  membersSig : qc.membersSig.isSome = true

/-- The inputs on which `Verify` runs without a fault: if lines are logged, the version is right
and a commitment that is well-formed otherwise has a quorum signature; and there are not more
members than the size. -/
def VerifySafe (c : QuorumConsensus) (env : CheckEnv) (qc : CFinalCommitment)
    (baseHash : Uint256) (baseHeight : Int) : Prop :=
  ∀ params, env.llmqs qc.llmqType = some params →
    (env.logging = true → qc.nVersion = expectedVersion c params baseHeight) ∧
    (WellFormed c params qc baseHash baseHeight →
      (env.logging = true → qc.quorumSig.isSome = true) ∧
      (qc.quorumSig.isSome = true → (env.members.length : Int) ≤ params.size))

lemma expectedVersion_ne_zero (params : LLMQParams) (baseHeight : Int) :
    expectedVersion c params baseHeight ≠ 0 := by
  unfold expectedVersion getVersion
  split <;> split <;> decide

variable {c} {baseHash : Uint256} {baseHeight : Int} {checkSigs : Bool}

section

variable (hparams : env.llmqs qc.llmqType = some params)

include hparams

lemma verify_of_version_ne (hversion : qc.nVersion ≠ expectedVersion c params baseHeight) :
    verify c env qc baseHash baseHeight checkSigs =
      if env.logging then .error .formatError else .ok false := by
  simp only [verify, hparams, if_pos (Or.inr hversion)]
  exact reject_of_ne (conversions_ne (by decide))

/-- `Verify` of a commitment with the right version that fails one of the checks before the
quorum signature. -/
lemma verify_of_not_wellFormed (hversion : qc.nVersion = expectedVersion c params baseHeight)
    (hnot : ¬ WellFormed c params qc baseHash baseHeight) :
    verify c env qc baseHash baseHeight checkSigs = .ok false := by
  have hzero : ¬ (qc.nVersion = 0 ∨ qc.nVersion ≠ expectedVersion c params baseHeight) := by
    simp [hversion, expectedVersion_ne_zero]
  simp only [verify, hparams, if_neg hzero]
  generalize (if qc.quorumSig.isNone then _ else _ : Except Fault Bool) = rest
  simp (disch := exact conversions_eq rfl) only [reject_ok]
  by_contra hne
  -- a check that fails makes the result false, whatever the checks before it say
  refine hnot ⟨hversion, ?_, ?_, ?_, ?_, ?_, ?_, ?_, ?_⟩
  all_goals
    by_contra hfails
    exact hne (by simp [not_isSome_iff_eq_none.mp, hfails])

lemma verify_of_wellFormed (h : WellFormed c params qc baseHash baseHeight) :
    verify c env qc baseHash baseHeight checkSigs =
      if qc.quorumSig.isNone then (if env.logging then .error .formatError else .ok false)
      else verifyMembers env params qc checkSigs := by
  have hkey := isNone_eq_false_iff.mpr h.quorumPublicKey
  have hmembersSig := isNone_eq_false_iff.mpr h.membersSig
  simp only [verify, hparams, h.version, expectedVersion_ne_zero, ne_eq, h.quorumHash,
    h.quorumIndex, h.sizes, not_lt.mpr h.validMembers, not_lt.mpr h.signers, hkey,
    h.quorumVvecHash, hmembersSig, not_true, or_false, if_false, Bool.false_eq_true]
  congr 1
  exact reject_of_ne (conversions_ne (by decide))

end

variable (checkSigs) in
/-- **`Verify` runs without a fault** exactly on the safe inputs. -/
theorem verify_isOk_iff : (verify c env qc baseHash baseHeight checkSigs).isOk = true ↔
    VerifySafe c env qc baseHash baseHeight := by
  cases hparams : env.llmqs qc.llmqType with
  | none =>
    have hreject : verify c env qc baseHash baseHeight checkSigs = .ok false := by
      simp only [verify, hparams]
      exact reject_ok (conversions_eq rfl)
    simp [hreject, VerifySafe, hparams]
  | some params =>
    simp only [VerifySafe, hparams, some.injEq, forall_eq']
    by_cases hversion : qc.nVersion = expectedVersion c params baseHeight
    swap
    · have hnot : ¬ WellFormed c params qc baseHash baseHeight := fun h => hversion h.version
      rw [verify_of_version_ne hparams hversion]
      cases env.logging <;> simp [hversion, hnot]
    by_cases hwell : WellFormed c params qc baseHash baseHeight
    swap
    · rw [verify_of_not_wellFormed hparams hversion hwell]
      simp [hversion, hwell]
    rw [verify_of_wellFormed hparams hwell]
    cases hsig : qc.quorumSig with
    | none => cases env.logging <;> simp [hversion, hwell]
    | some sig =>
      simp [hversion, hwell, verifyMembers_isOk hwell.sizes]

lemma verify_eq_false_of_sizes {verified : Bool} (hparams : env.llmqs qc.llmqType = some params)
    (hsizes : qc.verifySizes params = false)
    (hrun : verify c env qc baseHash baseHeight checkSigs = .ok verified) : verified = false := by
  have hnot : ¬ WellFormed c params qc baseHash baseHeight := fun h => by
    simp [h.sizes] at hsizes
  by_cases hversion : qc.nVersion = expectedVersion c params baseHeight
  · rw [verify_of_not_wellFormed hparams hversion hnot] at hrun
    exact (ok.inj hrun).symm
  · rw [verify_of_version_ne hparams hversion] at hrun
    split at hrun
    · cases hrun
    · exact (ok.inj hrun).symm

end Verify

/-! ## `CheckLLMQCommitment` -/

section Check

variable {c} {env : CheckEnv} {blocks : BaseBlocks} {params : LLMQParams}

/-- The payload passes the checks that come before `Verify`, and its commitment is not null; the
base block has the given height. -/
structure ReachesVerify (blocks : BaseBlocks) (qcTx : CommitmentTxPayload) (baseHeight : Int) :
    Prop where
  version : qcTx.nVersion = 1
  height : (qcTx.nHeight : Int) = blocks.prevHeight + 1
  base : blocks.lookupBlockIndex qcTx.commitment.quorumHash = some baseHeight
  ancestor : blocks.isAncestor qcTx.commitment.quorumHash = true
  notNull : qcTx.commitment.isNull = false

/-- The inputs on which `CheckLLMQCommitment` runs without a fault: if lines are logged, there is a
bit for every place of the quorum; and `Verify` runs without a fault if it is reached. -/
def CheckSafe (c : QuorumConsensus) (env : CheckEnv) (blocks : BaseBlocks)
    (payload : Option CommitmentTxPayload) : Prop :=
  ∀ qcTx, payload = some qcTx → ∀ params, env.llmqs qcTx.commitment.llmqType = some params →
    (env.logging = true → params.size ≤ qcTx.commitment.validMembers.length) ∧
    ∀ baseHeight, ReachesVerify blocks qcTx baseHeight →
      VerifySafe c env qcTx.commitment qcTx.commitment.quorumHash baseHeight

variable {qc : CFinalCommitment} {baseHeight : Int} {qcTx : CommitmentTxPayload}
  {result : Except String Unit}

lemma checkCommitment_isOk :
    (checkCommitment c env qc baseHeight).isOk = true ↔
      (qc.isNull = false → VerifySafe c env qc qc.quorumHash baseHeight) := by
  unfold checkCommitment
  cases hnull : qc.isNull with
  | true =>
    simp (disch := exact conversions_eq rfl) only [if_true, invalid_ok, reduceCtorEq,
      false_implies, iff_true]
    split <;> rfl
  | false =>
    rw [← verify_isOk_iff false]
    simp (disch := exact conversions_eq rfl) only [Bool.false_eq_true, if_false, invalid_ok,
      logPrintf_ok, forall_const]
    cases verify c env qc qc.quorumHash baseHeight false with
    | error fault => simp
    | ok verified => cases verified <;> simp

lemma checkQcTx_isOk :
    (checkQcTx c env blocks qcTx).isOk = true ↔ ∀ baseHeight, ReachesVerify blocks qcTx baseHeight →
      VerifySafe c env qcTx.commitment qcTx.commitment.quorumHash baseHeight := by
  simp (disch := exact conversions_eq rfl) only [checkQcTx, invalid_ok]
  split
  · refine iff_of_true rfl fun baseHeight h => ?_
    have := h.version
    omega
  split
  · rename_i hheight
    exact iff_of_true rfl fun baseHeight h => absurd h.height hheight
  split
  · rename_i hbase
    refine iff_of_true rfl fun baseHeight h => ?_
    have := h.base
    simp [hbase] at this
  rename_i hversion hheight _ baseHeight hbase
  split
  · rename_i hancestor
    exact iff_of_true rfl fun baseHeight h => absurd h.ancestor hancestor
  · rename_i hancestor
    rw [checkCommitment_isOk]
    constructor
    · intro h baseHeight' hreach
      obtain rfl := some.inj (hbase.symm.trans hreach.base)
      exact h hreach.notNull
    · intro h hnull
      exact h baseHeight ⟨by omega, not_not.mp hheight, hbase, not_not.mp hancestor, hnull⟩

/-- **`CheckLLMQCommitment` runs without a fault** exactly on the safe inputs. -/
theorem checkLLMQCommitment_isOk_iff {payload : Option CommitmentTxPayload} :
    (checkLLMQCommitment c env blocks payload).isOk = true ↔ CheckSafe c env blocks payload := by
  cases payload with
  | none =>
    simp (disch := exact conversions_eq rfl) only [checkLLMQCommitment, invalid_ok]
    simp [CheckSafe]
  | some qcTx =>
    simp only [CheckSafe, some.injEq, forall_eq']
    cases hparams : env.llmqs qcTx.commitment.llmqType with
    | none =>
      simp (disch := exact conversions_eq rfl) only [checkLLMQCommitment, hparams, invalid_ok]
      simp
    | some params =>
      have hlog : logBits env.logging params.size.toNat [qcTx.commitment.validMembers] = .ok () ↔
          (env.logging = true → params.size ≤ qcTx.commitment.validMembers.length) := by
        rw [logBits_eq_ok]
        simp
      simp only [some.injEq, forall_eq', ← checkQcTx_isOk, ← hlog]
      simp (disch := exact conversions_eq rfl) only [checkLLMQCommitment, hparams, logPrintf_ok]
      cases logBits env.logging params.size.toNat [qcTx.commitment.validMembers] <;> simp

lemma checkCommitment_rejects (hparams : env.llmqs qc.llmqType = some params)
    (hsizes : qc.verifySizes params = false)
    (hrun : checkCommitment c env qc baseHeight = .ok result) : result ≠ .ok () := by
  simp (disch := exact conversions_eq rfl) only [checkCommitment, invalid_ok] at hrun
  split at hrun
  · -- a null commitment is compared with the size as well
    have hnull : qc.verifyNull env.llmqs = false := by
      simp [verifyNull, hparams, hsizes]
    rw [hnull] at hrun
    simp [← ok.inj hrun]
  · rw [bind_eq_ok] at hrun
    obtain ⟨verified, hverify, hrun⟩ := hrun
    rw [verify_eq_false_of_sizes hparams hsizes hverify] at hrun
    simp [← ok.inj hrun]

/-- A commitment whose vectors have the wrong size is rejected. -/
lemma checkLLMQCommitment_rejects (hparams : env.llmqs qcTx.commitment.llmqType = some params)
    (hsizes : qcTx.commitment.verifySizes params = false)
    (hrun : checkLLMQCommitment c env blocks (some qcTx) = .ok result) : result ≠ .ok () := by
  simp only [checkLLMQCommitment, hparams, bind_eq_ok] at hrun
  obtain ⟨-, -, -, -, hrun⟩ := hrun
  simp (disch := exact conversions_eq rfl) only [checkQcTx, invalid_ok] at hrun
  split at hrun
  · simp [← ok.inj hrun]
  split at hrun
  · simp [← ok.inj hrun]
  split at hrun
  · simp [← ok.inj hrun]
  split at hrun
  · simp [← ok.inj hrun]
  · exact checkCommitment_rejects hparams hsizes hrun

end Check

/-! ## `HandleQuorumCommitment` -/

section Handle

open CDeterministicMNList CDeterministicMN

variable {validMembers : List Bool} {members : List Uint256} {l l' : CDeterministicMNList}

/-- The inputs on which `HandleQuorumCommitment` reads within `validMembers`: every member past its
last bit has left the list. -/
def HandleSafe (validMembers : List Bool) (members : List Uint256) (mnList : CDeterministicMNList) :
    Prop :=
  ∀ i proTxHash, members[i]? = some proTxHash → mnList.hasMN proTxHash = true →
    i < validMembers.length

/-- One round. It fails on a member of the list without a bit. -/
lemma punishMember_cases (validMembers : List Bool) (hl : l.WellIndexed) (member : Uint256 × Nat) :
    (¬ (l.hasMN member.1 = true → member.2 < validMembers.length) ∧
      (punishMember validMembers l member).isOk = false) ∨
    ((l.hasMN member.1 = true → member.2 < validMembers.length) ∧
      ∃ l', punishMember validMembers l member = .ok l' ∧ SameCores l l') := by
  by_cases hmn : l.hasMN member.1 = true
  swap
  · exact .inr ⟨fun h => absurd h hmn, l, by simp [punishMember, hmn], .refl l⟩
  rcases lt_or_ge member.2 validMembers.length with hlt | hge
  swap
  · simp [punishMember, hmn, hge]
  refine .inr ⟨fun _ => hlt, ?_⟩
  cases hbit : validMembers[member.2] with
  | true => exact ⟨l, by simp [punishMember, hmn, hlt, hbit], .refl l⟩
  | false =>
    -- the new state keeps the address and the keys, so the update goes through
    obtain ⟨dmn, hget⟩ := isSome_iff_exists.mp hmn
    have hpunish : punishMember validMembers l member = l.updateMN dmn
        (punishedState l.calcMaxPoSePenalty l.nHeight (l.calcPenalty 66) dmn.pdmnState) := by
      simp [punishMember, hmn, hlt, hbit, poSePunish, hget, updateMNByHash]
    have hrun := hpunish.trans (updateMN_sameKeys (sameKeys_punishedState ..))
    exact ⟨_, hrun, sameCores_punishMember hl hrun⟩

lemma hasMN_of_sameCores (h : SameCores l l') (proTxHash : Uint256) :
    l'.hasMN proTxHash = l.hasMN proTxHash := by
  have := congrArg isSome (h.core proTxHash)
  simpa [hasMN] using this

/-- The loop over members with their indices. -/
lemma foldlM_punishMember_isOk (hl : l.WellIndexed) {items : List (Uint256 × Nat)} :
    (items.foldlM (punishMember validMembers) l).isOk = true ↔
      ∀ member ∈ items, l.hasMN member.1 = true → member.2 < validMembers.length := by
  induction items generalizing l with
  | nil => simp
  | cons member items ih =>
    rw [foldlM_cons, forall_mem_cons]
    rcases punishMember_cases validMembers hl member with
      ⟨hnot, hfail⟩ | ⟨hbound, l', hrun, hsame⟩
    · refine iff_of_false (fun h => ?_) fun h => hnot h.1
      obtain ⟨l', hrun, -⟩ := isOk_bind.mp h
      simp [hrun] at hfail
    · rw [hrun]
      refine (ih (hl.congr hsame)).trans ?_
      simp [hasMN_of_sameCores hsame, and_iff_right hbound]

/-- **`HandleQuorumCommitment` runs without a fault** exactly on the safe inputs. -/
theorem handleQuorumCommitment_isOk_iff (hl : l.WellIndexed) :
    (handleQuorumCommitment validMembers members l).isOk = true ↔
      HandleSafe validMembers members l := by
  rw [handleQuorumCommitment, foldlM_punishMember_isOk hl]
  constructor
  · intro h i proTxHash hi hmn
    exact h (proTxHash, i) (mk_mem_zipIdx_iff_getElem?.mpr hi) hmn
  · rintro h ⟨proTxHash, i⟩ hmem hmn
    exact h i proTxHash (mk_mem_zipIdx_iff_getElem?.mp hmem) hmn

end Handle

/-! ## The three functions together -/

lemma exists_ok_iff {ε α : Type} {x : Except ε α} : (∃ a, x = .ok a) ↔ x.isOk = true := by
  cases x <;> simp

/-- **Reads within bounds.** For every payload, commitment, setting of the log and list of members:
the functions run without a read past the end of a vector and without an exception, and reject
vectors of the wrong size, exactly on the safe inputs of each of them. -/
theorem commitment_checks_safe_iff (c : QuorumConsensus) (env : CheckEnv) (blocks : BaseBlocks)
    (payload : Option CommitmentTxPayload) (qc : CFinalCommitment) (baseHash : Uint256)
    (baseHeight : Int) (checkSigs : Bool) (members : List Uint256)
    (mnList : { mnList : CDeterministicMNList // mnList.WellIndexed }) :
    ((∃ result, checkLLMQCommitment c env blocks payload = .ok result ∧
        ∀ qcTx params, payload = some qcTx → env.llmqs qcTx.commitment.llmqType = some params →
          qcTx.commitment.verifySizes params = false → result ≠ .ok ()) ↔
      CheckSafe c env blocks payload) ∧
    ((∃ verified, verify c env qc baseHash baseHeight checkSigs = .ok verified ∧
        ∀ params, env.llmqs qc.llmqType = some params → qc.verifySizes params = false →
          verified = false) ↔
      VerifySafe c env qc baseHash baseHeight) ∧
    ((∃ mnList', handleQuorumCommitment qc.validMembers members mnList.1 = .ok mnList') ↔
      HandleSafe qc.validMembers members mnList.1) := by
  refine ⟨?_, ?_, ?_⟩
  · rw [← checkLLMQCommitment_isOk_iff, ← exists_ok_iff]
    refine exists_congr fun result => and_iff_left_of_imp fun hrun => ?_
    rintro qcTx params rfl hparams hsizes
    exact checkLLMQCommitment_rejects hparams hsizes hrun
  · rw [← verify_isOk_iff checkSigs, ← exists_ok_iff]
    refine exists_congr fun verified => and_iff_left_of_imp fun hrun => ?_
    intro params hparams hsizes
    exact verify_eq_false_of_sizes hparams hsizes hrun
  · rw [← handleQuorumCommitment_isOk_iff mnList.2, ← exists_ok_iff]

/-! ## Commitments that make the checks fail -/

/-- The tables of the public networks have sizes, whatever the number of masternodes. -/
lemma size_writeLLMQs (network : Network) (totalMnCount : Nat) (llmqType : LLMQType)
    (params : LLMQParams)
    (h : writeLLMQs network totalMnCount initialLLMQs llmqType = some params) :
    0 ≤ params.size := by
  have hsizes : ∀ set ∈ parameterSets, 0 ≤ set.size := by decide
  exact hsizes params (ofSets_initialLLMQs.write network totalMnCount llmqType params h).1

/-- A node with 90 masternodes that has computed the members of a quorum when it had more, and the
quorums of `llmq400_60` had 40 members. -/
def shrunkEnv (logging : Bool) : CheckEnv where
  logging
  llmqs := writeLLMQs .main 90 initialLLMQs
  llmqs_size := size_writeLLMQs .main 90
  members := range 40
  membersSigVerifies _ _ := true
  quorumSigVerifies _ := true

/-- A commitment of a quorum with 20 members that begins with block `1` at height 0; its members
are given, which the code can compute from height 1 on. -/
def twentyMembers : CFinalCommitment where
  nVersion := 1
  llmqType := .llmq400_60
  quorumHash := 1
  quorumIndex := 0
  signers := replicate 20 true
  validMembers := replicate 20 true
  quorumPublicKey := some 5
  quorumVvecHash := 6
  quorumSig := some 7
  membersSig := some 8

/-- With the log, a payload without bits is read past its end, and a commitment of another version
throws; without it, so does a commitment of the right size. -/
theorem commitment_checks_fault :
    checkLLMQCommitment testNetQuorumConsensus (shrunkEnv true)
        { prevHeight := 9, lookupBlockIndex := fun _ => some 0, isAncestor := fun _ => true }
        (some { nHeight := 10, commitment := { twentyMembers with validMembers := [] } }) =
      .error .outOfRange ∧
    verify testNetQuorumConsensus (shrunkEnv true) { twentyMembers with nVersion := 3 } 1 0 true =
      .error .formatError ∧
    verify testNetQuorumConsensus (shrunkEnv false) twentyMembers 1 0 true =
      .error .invalidArgument := by
  decide +kernel

end HootChain.Llmq.CommitmentBounds

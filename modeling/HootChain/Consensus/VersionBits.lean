import HootChain.Primitives.PureHeader

/-!
# Version Bits (`versionbits.cpp`)

The BIP9 state machine: at the end of every window of `Period` blocks a deployment
moves from `DEFINED` over `STARTED` and `LOCKED_IN` to `ACTIVE`, or to `FAILED`
after its timeout. In `STARTED` it needs a threshold of blocks whose version has
the top bits `001` and the bit of the deployment.

A block index is the chain of headers that ends in it, newest first, so that the
null pointer is the empty chain, `pprev` is the tail, and the cache is keyed by
chains. Assertions and null dereferences are `none`.
-/

namespace HootChain.Consensus

open Primitives List Function Nat

/-! ## Block index -/

/-- A block with all its ancestors, newest first (`CBlockIndex*`). -/
abbrev Chain := List CBlockHeader

section

variable (pindex : Chain)

/-- `nHeight`; `-1` for the null pointer. -/
def nHeight : Int := (pindex.length : Int) - 1

def getAncestor (height : Int) : Chain :=
  if height < 0 ∨ height > nHeight pindex then []
  else pindex.drop (nHeight pindex - height).toNat

/-- `GetMedianTimePast`: the median of the last eleven block times. -/
def getMedianTimePast : Int :=
  let pmedian := ((pindex.take 11).map fun block => block.nTime.toNat).mergeSort
  pmedian.getD (pmedian.length / 2) 0

lemma getAncestor_sub (n : Nat) : getAncestor pindex (nHeight pindex - n) = pindex.drop n := by
  unfold getAncestor nHeight
  split
  · rw [drop_eq_nil_of_le (by omega)]
  · congr 1
    omega

end

/-! ## The checker of a deployment -/

inductive ThresholdState where
  | defined
  | started
  | lockedIn
  | active
  | failed
  deriving DecidableEq

def versionBitsTopBits : BitVec 32 := 0x20000000#32

def versionBitsTopMask : BitVec 32 := 0xE0000000#32

/-- The signals of masternodes for EHF deployments (`GetSignalsStage`): for a block and a bit
the height of the signal. -/
abbrev EhfSignals := Chain → Nat → Option Nat

section Checker

variable (params : Params) (id : DeploymentPos)

def signalHeight (signals : EhfSignals) (pindexPrev : Chain) : Int :=
  if !(params.vDeployments id).useEHF then 0
  else
    match signals pindexPrev (params.vDeployments id).bit with
    | none => intMax
    | some height => height

def period : Nat :=
  if (params.vDeployments id).nWindowSize ≠ 0 then (params.vDeployments id).nWindowSize
  else params.nMinerConfirmationWindow

def threshold (nAttempt : Int) : Int :=
  let deployment := params.vDeployments id
  if deployment.nThresholdStart = 0 then params.nRuleChangeActivationThreshold
  else if deployment.nThresholdMin = 0 ∨ deployment.nFalloffCoeff = 0 then
    deployment.nThresholdStart
  else
    let nThresholdCalc := deployment.nThresholdStart -
      ((nAttempt * nAttempt * (period params id : Int)).tdiv 100).tdiv deployment.nFalloffCoeff
    max deployment.nThresholdMin nThresholdCalc

def mask : BitVec 32 := 1#32 <<< (params.vDeployments id).bit

def condition (block : CBlockHeader) : Bool :=
  block.nVersion &&& versionBitsTopMask == versionBitsTopBits &&
    block.nVersion &&& mask params id != 0#32

end Checker

/-! ## `GetStateFor` -/

abbrev ThresholdConditionCache := Chain → Option ThresholdState

/-- The cache `GetStateFor` starts out with. -/
def emptyCache : ThresholdConditionCache := fun _ => none

/-- `calculateStartHeight`: walk back through the windows in state `STARTED`. -/
def calculateStartHeight (nPeriod : Nat) (cache : ThresholdConditionCache) (pindexPrev : Chain)
    (state : ThresholdState) (nStartHeight : Int) : Option Int :=
  if state = .started then
    -- a null pointer or a window of length zero would make the source crash here
    if _h : pindexPrev ≠ [] ∧ 0 < nPeriod then
      let nStartHeight := min (nHeight pindexPrev + 1) nStartHeight
      let ancestor := getAncestor pindexPrev (nHeight pindexPrev - nPeriod)
      match cache ancestor with
      | none => none
      | some state => calculateStartHeight nPeriod cache ancestor state nStartHeight
    else none
  else some nStartHeight
termination_by pindexPrev.length
decreasing_by
  rw [getAncestor_sub, length_drop]
  have := length_pos_iff.mpr _h.1
  omega

section GetStateFor

variable (params : Params) (id : DeploymentPos)

/-- The backwards walk of `GetStateFor`: the first block whose state is known, the cache, and
the stack of blocks whose state is to be computed. -/
def walkBack (masternodeStartHeight : Int) (pindexPrev : Chain) (cache : ThresholdConditionCache)
    (vToCompute : List Chain) : Chain × ThresholdConditionCache × List Chain :=
  if (cache pindexPrev).isSome then (pindexPrev, cache, vToCompute)
  else if _h : pindexPrev = [] ∨ period params id = 0 then
    (pindexPrev, update cache pindexPrev (some .defined), vToCompute)
  else if getMedianTimePast pindexPrev < (params.vDeployments id).nStartTime ∨
      nHeight pindexPrev < masternodeStartHeight then
    (pindexPrev, update cache pindexPrev (some .defined), vToCompute)
  else
    walkBack masternodeStartHeight
      (getAncestor pindexPrev (nHeight pindexPrev - period params id)) cache
      (pindexPrev :: vToCompute)
termination_by pindexPrev.length
decreasing_by
  rw [not_or] at _h
  rw [getAncestor_sub, length_drop]
  have := length_pos_iff.mpr _h.1
  omega

/-- One window of the forward walk: the state after the window that ends in `pindexPrev`, and
the start height. -/
def nextState (masternodeStartHeight : Int) (pindexPrev : Chain) (state : ThresholdState)
    (nStartHeight : Int) : Option (ThresholdState × Int) :=
  let deployment := params.vDeployments id
  let nPeriod := period params id
  match state with
  | .defined =>
    if getMedianTimePast pindexPrev ≥ deployment.nTimeout then some (.failed, nStartHeight)
    else if getMedianTimePast pindexPrev ≥ deployment.nStartTime ∧
        nHeight pindexPrev ≥ masternodeStartHeight then
      some (.started, nHeight pindexPrev + 1)
    else some (.defined, nStartHeight)
  | .started =>
    if getMedianTimePast pindexPrev ≥ deployment.nTimeout then some (.failed, nStartHeight)
    else
      let count := (pindexPrev.take nPeriod).countP (condition params id)
      let pindexCount := pindexPrev.drop nPeriod
      -- `pindexCount` is dereferenced, and the start height is asserted to be known
      if pindexCount = [] ∨ ¬ (nStartHeight > 0 ∧ nStartHeight < intMax) then none
      else
        let nAttempt := (nHeight pindexCount + 1 - nStartHeight).tdiv nPeriod
        if (count : Int) ≥ threshold params id nAttempt then some (.lockedIn, nStartHeight)
        else some (.started, nStartHeight)
  | .lockedIn => some (.active, nStartHeight)
  | .active => some (.active, nStartHeight)
  | .failed => some (.failed, nStartHeight)

/-- The forward walk of `GetStateFor`. -/
def walkForward (masternodeStartHeight : Int) :
    List Chain → ThresholdState → Int → ThresholdConditionCache →
      Option (ThresholdState × ThresholdConditionCache)
  | [], state, _, cache => some (state, cache)
  | pindexPrev :: vToCompute, state, nStartHeight, cache =>
    match nextState params id masternodeStartHeight pindexPrev state nStartHeight with
    | none => none
    | some (stateNext, nStartHeight) =>
      walkForward masternodeStartHeight vToCompute stateNext nStartHeight
        (update cache pindexPrev (some stateNext))

/-- All blocks of a window share a state, which is computed for the last block of the window
before. -/
def lastOfPreviousPeriod (pindexPrev : Chain) : Chain :=
  if pindexPrev = [] then []
  else getAncestor pindexPrev (nHeight pindexPrev - (pindexPrev.length % period params id : Nat))

/-- `AbstractThresholdConditionChecker::GetStateFor`: the state and the cache. -/
def getStateFor (signals : EhfSignals) (pindexPrev : Chain) (cache : ThresholdConditionCache) :
    Option (ThresholdState × ThresholdConditionCache) :=
  let masternodeStartHeight := signalHeight params id signals pindexPrev
  if (params.vDeployments id).nStartTime = alwaysActive then some (.active, cache)
  else
    let (pindexKnown, cache, vToCompute) := walkBack params id masternodeStartHeight
      (lastOfPreviousPeriod params id pindexPrev) cache []
    match cache pindexKnown with
    | none => none
    | some state =>
      match calculateStartHeight (period params id) cache pindexKnown state intMax with
      | none => none
      | some nStartHeight =>
        walkForward params id masternodeStartHeight vToCompute state nStartHeight cache

end GetStateFor

/-! ## Versions that signal -/

lemma and_topMask_iff (v : BitVec 32) :
    v &&& versionBitsTopMask = versionBitsTopBits ↔ v.toNat / 2 ^ 29 = 1 := by
  have hlt : v.toNat / 2 ^ 29 < 2 ^ 3 := by
    omega
  have hhigh : (v.toNat &&& 0xE0000000) / 2 ^ 29 = v.toNat / 2 ^ 29 := by
    rw [← shiftRight_eq_div_pow, shiftRight_and_distrib,
      show 0xE0000000 >>> 29 = 2 ^ 3 - 1 from rfl, and_two_pow_sub_one_eq_mod,
      shiftRight_eq_div_pow, mod_eq_of_lt hlt]
  have hlow : (v.toNat &&& 0xE0000000) % 2 ^ 29 = 0 := by
    rw [and_mod_two_pow, and_zero]
  rw [← BitVec.toNat_inj]
  change v.toNat &&& 0xE0000000 = 0x20000000 ↔ _
  omega

lemma and_mask_ne_zero_iff (v : BitVec 32) {bit : Nat} (hbit : bit < 29) :
    v &&& (1#32 <<< bit) ≠ 0#32 ↔ v.toNat.testBit bit = true := by
  have hand : v &&& (1#32 <<< bit) =
      if v.getLsbD bit = true then BitVec.twoPow 32 bit else 0#32 := BitVec.and_twoPow v bit
  have hpow : BitVec.twoPow 32 bit ≠ 0#32 := by
    intro h
    have := congrArg BitVec.toNat h
    rw [BitVec.toNat_twoPow, Nat.mod_eq_of_lt (Nat.pow_lt_pow_right (by decide) (by omega))] at this
    exact absurd this (Nat.pos_iff_ne_zero.mp (Nat.two_pow_pos bit))
  rw [hand, BitVec.getLsbD]
  split
  · next h => simpa [hpow] using h
  · next h => simpa using h

/-- The chain id leaves room for the signal: its top three bits are `001`, and a bit of the
deployment that falls into the chain id is set there. -/
def CanSignal (chainId : Int) (bit : Nat) : Prop :=
  0x2000 ≤ chainId ∧ chainId < 0x4000 ∧ (bit < 16 ∨ chainId.toNat.testBit (bit - 16) = true)

/-- A version with the top bits of version bits is positive, so its chain id is its upper
half. -/
lemma getChainId_of_topBits {v : BitVec 32} (h : v.toNat / 2 ^ 29 = 1) :
    getChainId v = (v.toNat / 2 ^ 16 : Nat) := by
  have hint : v.toInt = v.toNat := BitVec.toInt_eq_toNat_of_lt (by omega)
  rw [getChainId, hint]
  rfl

section Signal

variable {params : Params} {id : DeploymentPos}

lemma condition_iff (hbit : (params.vDeployments id).bit < 29) (block : CBlockHeader) :
    condition params id block = true ↔
      block.nVersion.toNat / 2 ^ 29 = 1 ∧
      block.nVersion.toNat.testBit (params.vDeployments id).bit = true := by
  rw [condition, Bool.and_eq_true, beq_iff_eq, bne_iff_ne, and_topMask_iff, mask,
    and_mask_ne_zero_iff _ hbit]

/-- A header that passes the chain id rule and signals has a chain id with room for it. -/
lemma canSignal_of_condition (hstrict : params.fStrictChainId = true)
    (hbit : (params.vDeployments id).bit < 29) {block : CBlockHeader}
    (hpow : checkProofOfWork params block = true) (hsignal : condition params id block = true) :
    CanSignal params.nAuxpowChainId (params.vDeployments id).bit := by
  obtain ⟨htop, htest⟩ := (condition_iff hbit block).mp hsignal
  have hid : getChainId block.nVersion = params.nAuxpowChainId := by
    refine (checkProofOfWork_chainId hstrict hpow).resolve_left fun hlegacy => ?_
    rw [hlegacy] at htop
    exact absurd htop (by decide)
  rw [← hid, getChainId_of_topBits htop]
  refine ⟨by omega, by omega, ?_⟩
  by_cases hlow : (params.vDeployments id).bit < 16
  · exact .inl hlow
  · right
    rw [Int.toNat_natCast, Nat.testBit_div_two_pow, Nat.sub_add_cancel (Nat.not_lt.mp hlow)]
    exact htest

/-- The version with the chain id and, if it lies below the chain id, the deployment's bit. -/
def signallingVersion (chainId : Int) (bit : Nat) : BitVec 32 :=
  BitVec.ofNat 32 (2 ^ 16 * chainId.toNat + if bit < 16 then 2 ^ bit else 0)

lemma signallingVersion_spec {chainId : Int} (hbit : (params.vDeployments id).bit < 29)
    (h : CanSignal chainId (params.vDeployments id).bit) (nTime : UInt32) :
    getChainId (signallingVersion chainId (params.vDeployments id).bit) = chainId ∧
      condition params id
        (solvedHeader (signallingVersion chainId (params.vDeployments id).bit) nTime) = true := by
  obtain ⟨hlo, hhi, hcarry⟩ := h
  have hrest : (if (params.vDeployments id).bit < 16 then 2 ^ (params.vDeployments id).bit else 0) <
      2 ^ 16 := by
    split
    · next hlow => exact Nat.pow_lt_pow_right (by decide) hlow
    · decide
  have hval : (signallingVersion chainId (params.vDeployments id).bit).toNat =
      2 ^ 16 * chainId.toNat +
        if (params.vDeployments id).bit < 16 then 2 ^ (params.vDeployments id).bit else 0 := by
    rw [signallingVersion, BitVec.toNat_ofNat, mod_eq_of_lt (by omega)]
  have htop : (signallingVersion chainId (params.vDeployments id).bit).toNat / 2 ^ 29 = 1 := by
    rw [hval]
    omega
  refine ⟨?_, (condition_iff hbit _).mpr ⟨htop, ?_⟩⟩
  · rw [getChainId_of_topBits htop]
    omega
  · rw [solvedHeader, hval, testBit_two_pow_mul_add _ hrest]
    split
    · exact testBit_two_pow_self
    · next hhigh => exact hcarry.resolve_left hhigh

end Signal

/-! ## Deployments of a network definition -/

/-- What the network definitions see to: windows and thresholds are positive, a full window
meets the first threshold, the bit is one of the 29 for version bits, and the start time
is a possible block time. -/
structure SoundDeployment (params : Params) (id : DeploymentPos) : Prop where
  period_pos : 0 < period params id
  period_lt : (period params id : Int) < intMax
  ruleThreshold_pos : 0 < params.nRuleChangeActivationThreshold
  thresholdStart_nonneg : 0 ≤ (params.vDeployments id).nThresholdStart
  thresholdMin_nonneg : 0 ≤ (params.vDeployments id).nThresholdMin
  threshold_le : threshold params id 0 ≤ period params id
  bit_lt : (params.vDeployments id).bit < 29
  start_nonneg : 0 ≤ (params.vDeployments id).nStartTime
  start_lt : (params.vDeployments id).nStartTime < 2 ^ 32

lemma soundDeployment_createChainParams (network : Network) (id : DeploymentPos) :
    SoundDeployment (createChainParams network) id := by
  cases network <;> cases id <;> constructor <;> decide

variable {params : Params} {id : DeploymentPos}

lemma threshold_pos (h : SoundDeployment params id) (nAttempt : Int) :
    0 < threshold params id nAttempt := by
  have hrule := h.ruleThreshold_pos
  have hstart := h.thresholdStart_nonneg
  have hmin := h.thresholdMin_nonneg
  unfold threshold
  dsimp only
  split
  · exact_mod_cast hrule
  · split
    · omega
    · exact lt_of_lt_of_le (by omega) (le_max_left _ _)

lemma SoundDeployment.start_ne_alwaysActive (h : SoundDeployment params id) :
    (params.vDeployments id).nStartTime ≠ alwaysActive := by
  have := h.start_nonneg
  unfold alwaysActive
  omega

/-! ## Chains without signals -/

/-- Not yet locked in. -/
def Quiet (state : ThresholdState) : Prop := state ≠ .lockedIn ∧ state ≠ .active

/-- No block of the chain signals. -/
def NoSignal (params : Params) (id : DeploymentPos) (chain : Chain) : Prop :=
  ∀ block ∈ chain, condition params id block = false

/-- Every state in the cache is quiet. -/
def QuietCache (cache : ThresholdConditionCache) : Prop :=
  ∀ chain state, cache chain = some state → Quiet state

section Quiet

variable {params : Params} {id : DeploymentPos} {cache : ThresholdConditionCache}
  {state state' : ThresholdState} {startHeight nStartHeight : Int} {chain : Chain}
  {vToCompute : List Chain} {cache' : ThresholdConditionCache}

lemma QuietCache.update (h : QuietCache cache) (chain : Chain) (hstate : Quiet state) :
    QuietCache (update cache chain (some state)) := by
  intro chain' state' heq
  by_cases hc : chain' = chain
  · subst hc
    rw [update_self] at heq
    cases heq
    exact hstate
  · rw [update_of_ne hc] at heq
    exact h chain' state' heq

lemma nextState_quiet (h : SoundDeployment params id) {n : Int}
    (hchain : NoSignal params id chain) (hquiet : Quiet state)
    (heq : nextState params id startHeight chain state nStartHeight = some (state', n)) :
    Quiet state' := by
  have hcount : (chain.take (period params id)).countP (condition params id) = 0 :=
    countP_eq_zero.mpr fun block hmem => by
      simp [hchain block (mem_of_mem_take hmem)]
  cases state with
  | lockedIn => exact absurd rfl hquiet.1
  | active => exact absurd rfl hquiet.2
  | failed => cases heq; exact hquiet
  | defined =>
    simp only [nextState] at heq
    split at heq
    · cases heq; exact ⟨by decide, by decide⟩
    · split at heq <;> (cases heq; exact ⟨by decide, by decide⟩)
  | started =>
    simp only [nextState, hcount] at heq
    split at heq
    · cases heq; exact ⟨by decide, by decide⟩
    · split at heq
      · cases heq
      · split at heq
        · -- no block signals, and the threshold is positive
          next hreach => exact absurd hreach (not_le.mpr (threshold_pos h _))
        · cases heq; exact ⟨by decide, by decide⟩

lemma walkForward_quiet (h : SoundDeployment params id)
    (hchains : ∀ chain ∈ vToCompute, NoSignal params id chain) (hquiet : Quiet state)
    (hcache : QuietCache cache)
    (heq : walkForward params id startHeight vToCompute state nStartHeight cache =
      some (state', cache')) :
    Quiet state' ∧ QuietCache cache' := by
  induction vToCompute generalizing state nStartHeight cache with
  | nil => cases heq; exact ⟨hquiet, hcache⟩
  | cons chain vToCompute ih =>
    rw [walkForward] at heq
    cases hnext : nextState params id startHeight chain state nStartHeight with
    | none => simp [hnext] at heq
    | some next =>
      simp only [hnext] at heq
      have hquiet' := nextState_quiet h (hchains chain mem_cons_self) hquiet hnext
      exact ih (fun c hc => hchains c (mem_cons_of_mem _ hc)) hquiet'
        (hcache.update chain hquiet') heq

lemma walkBack_quiet (startHeight : Int) {pindexPrev : Chain}
    (hchain : NoSignal params id pindexPrev) (hchains : ∀ c ∈ vToCompute, NoSignal params id c)
    (hcache : QuietCache cache) :
    QuietCache (walkBack params id startHeight pindexPrev cache vToCompute).2.1 ∧
      ∀ c ∈ (walkBack params id startHeight pindexPrev cache vToCompute).2.2,
        NoSignal params id c := by
  have hdefined : Quiet .defined := ⟨by decide, by decide⟩
  fun_induction walkBack params id startHeight pindexPrev cache vToCompute with
  | case1 => exact ⟨hcache, hchains⟩
  | case2 => exact ⟨hcache.update _ hdefined, hchains⟩
  | case3 => exact ⟨hcache.update _ hdefined, hchains⟩
  | case4 pindexPrev vToCompute hmiss hne htime ih =>
    refine ih ?_ ?_
    · rw [getAncestor_sub]
      exact fun block hmem => hchain block (mem_of_mem_drop hmem)
    · exact forall_mem_cons.mpr ⟨hchain, hchains⟩

lemma lastOfPreviousPeriod_subset (chain : Chain) :
    lastOfPreviousPeriod params id chain ⊆ chain := by
  unfold lastOfPreviousPeriod
  split
  · exact nil_subset _
  · rw [getAncestor_sub]
    exact drop_subset _ _

/-- **Without signals nothing activates**: a query on a chain without signals keeps a quiet
cache quiet and answers with a quiet state. -/
theorem getStateFor_quiet (h : SoundDeployment params id) {signals : EhfSignals}
    (hchain : NoSignal params id chain) (hcache : QuietCache cache)
    (heq : getStateFor params id signals chain cache = some (state, cache')) :
    Quiet state ∧ QuietCache cache' := by
  have hlast : NoSignal params id (lastOfPreviousPeriod params id chain) :=
    fun block hmem => hchain block (lastOfPreviousPeriod_subset chain hmem)
  rw [getStateFor, if_neg h.start_ne_alwaysActive] at heq
  obtain ⟨hback, hchains⟩ := walkBack_quiet (signalHeight params id signals chain) hlast
    (by simp : ∀ c ∈ [], NoSignal params id c) hcache
  rcases hwalk : walkBack params id (signalHeight params id signals chain)
    (lastOfPreviousPeriod params id chain) cache [] with ⟨known, cacheBack, vToCompute⟩
  rw [hwalk] at hback hchains
  simp only [hwalk] at heq
  cases hknown : cacheBack known with
  | none => simp [hknown] at heq
  | some stateKnown =>
    simp only [hknown] at heq
    split at heq
    · cases heq
    · exact walkForward_quiet h hchains (hback known stateKnown hknown) hback heq

end Quiet

/-! ## Runs of queries -/

/-- Queries for several blocks one after the other, with one cache. -/
def runQueries (params : Params) (id : DeploymentPos) (signals : EhfSignals) :
    List Chain → ThresholdConditionCache → Option (List ThresholdState)
  | [], _ => some []
  | chain :: queries, cache => do
    let (state, cache) ← getStateFor params id signals chain cache
    let states ← runQueries params id signals queries cache
    return state :: states

/-- Some chain of headers that pass `CheckProofOfWork` takes the deployment from `DEFINED` to
`ACTIVE`, as queries for blocks of the chain show. -/
def ActivationReachable (params : Params) (id : DeploymentPos) : Prop :=
  ∃ (chain : Chain) (signals : EhfSignals) (queries : List Chain) (states : List ThresholdState),
    (∀ block ∈ chain, checkProofOfWork params block = true) ∧
    (∀ query ∈ queries, query <:+ chain) ∧
    runQueries params id signals queries emptyCache = some states ∧
    states.head? = some .defined ∧ states.getLast? = some .active

section Runs

variable {params : Params} {id : DeploymentPos}

lemma runQueries_quiet (h : SoundDeployment params id) {signals : EhfSignals}
    {queries : List Chain} {cache : ThresholdConditionCache} {states : List ThresholdState}
    (hchains : ∀ query ∈ queries, NoSignal params id query) (hcache : QuietCache cache)
    (heq : runQueries params id signals queries cache = some states) :
    ∀ state ∈ states, Quiet state := by
  induction queries generalizing cache states with
  | nil => cases heq; simp
  | cons chain queries ih =>
    rw [runQueries] at heq
    simp only [Option.bind_eq_bind, Option.bind_eq_some_iff, Option.pure_def] at heq
    obtain ⟨⟨state, cache'⟩, hquery, states', hrest, hstates⟩ := heq
    cases hstates
    obtain ⟨hquiet, hcache'⟩ := getStateFor_quiet h (hchains chain mem_cons_self) hcache hquery
    exact forall_mem_cons.mpr
      ⟨hquiet, ih (fun q hq => hchains q (mem_cons_of_mem _ hq)) hcache' hrest⟩

/-- No activation without room for the signal in the chain id. -/
lemma canSignal_of_activationReachable (h : SoundDeployment params id)
    (hstrict : params.fStrictChainId = true) (hreach : ActivationReachable params id) :
    CanSignal params.nAuxpowChainId (params.vDeployments id).bit := by
  obtain ⟨chain, signals, queries, states, hpow, hqueries, hrun, -, hlast⟩ := hreach
  by_contra hcannot
  have hquiet : ∀ query ∈ queries, NoSignal params id query := by
    intro query hquery block hblock
    have hmem : block ∈ chain := (hqueries query hquery).subset hblock
    rw [← Bool.not_eq_true]
    exact fun hsignal => hcannot (canSignal_of_condition hstrict h.bit_lt (hpow block hmem) hsignal)
  have hempty : QuietCache emptyCache := nofun
  exact (runQueries_quiet h hquiet hempty hrun .active (mem_of_getLast? hlast)).2 rfl

end Runs

/-! ## A chain on which every block signals -/

section Signalling

variable {params : Params} {id : DeploymentPos} {header : CBlockHeader}

lemma nHeight_replicate (n : Nat) : nHeight (replicate n header) = n - 1 := by
  rw [nHeight, length_replicate]

lemma getMedianTimePast_replicate {n : Nat} (hn : 0 < n) :
    getMedianTimePast (replicate n header) = header.nTime.toNat := by
  unfold getMedianTimePast
  set times := (((replicate n header).take 11).map fun block =>
    (block.nTime.toNat : Int)).mergeSort with htimes
  have hall : ∀ t ∈ times, t = header.nTime.toNat := by
    intro t ht
    rw [mem_mergeSort] at ht
    obtain ⟨block, hblock, rfl⟩ := mem_map.mp ht
    rw [eq_of_mem_replicate (mem_of_mem_take hblock)]
  have hpos : 0 < times.length := by simp [htimes, hn]
  have hmid : times.length / 2 < times.length := div_lt_self hpos (by decide)
  rw [getD_eq_getElem?_getD, getElem?_eq_getElem hmid]
  exact hall _ (getElem_mem hmid)

/-- The last blocks of the first `k` windows of a chain of equal headers. -/
def windowEnds (params : Params) (id : DeploymentPos) (header : CBlockHeader) (k : Nat) :
    List Chain :=
  (range k).map fun i => replicate ((i + 1) * period params id) header

/-- The cache after a query for the genesis block. -/
def genesisCache : ThresholdConditionCache := update emptyCache [] (some .defined)

/-- Masternodes that signal from the genesis block on. -/
def earlySignals : EhfSignals := fun _ _ => some 0

lemma signalHeight_earlySignals (chain : Chain) :
    signalHeight params id earlySignals chain = 0 := by
  unfold signalHeight
  split <;> rfl

variable (h : SoundDeployment params id)

include h

lemma getStateFor_genesis (signals : EhfSignals) :
    getStateFor params id signals [] emptyCache = some (.defined, genesisCache) := by
  have hwalk : walkBack params id (signalHeight params id signals []) [] emptyCache [] =
      ([], genesisCache, []) := by
    rw [walkBack, if_neg (by simp [emptyCache]), dif_pos (.inl rfl), genesisCache]
  have hlast : lastOfPreviousPeriod params id [] = [] := rfl
  rw [getStateFor, if_neg h.start_ne_alwaysActive, hlast, hwalk]
  have hknown : genesisCache [] = some .defined := rfl
  simp only [hknown]
  rw [calculateStartHeight]
  rfl

variable (htime : (header.nTime.toNat : Int) = (params.vDeployments id).nStartTime)

include htime

lemma walkBack_replicate (k : Nat) (vToCompute : List Chain) :
    walkBack params id 0 (replicate (k * period params id) header) genesisCache vToCompute =
      ([], genesisCache, windowEnds params id header k ++ vToCompute) := by
  induction k generalizing vToCompute with
  | zero =>
    rw [zero_mul, walkBack]
    rfl
  | succ k ih =>
    have hpos : 0 < (k + 1) * period params id := mul_pos (succ_pos k) h.period_pos
    have hne : replicate ((k + 1) * period params id) header ≠ [] := by
      simpa using h.period_pos.ne'
    have hmiss : (genesisCache (replicate ((k + 1) * period params id) header)).isSome = false := by
      rw [genesisCache, update_of_ne hne]
      rfl
    have hback : getAncestor (replicate ((k + 1) * period params id) header)
        (nHeight (replicate ((k + 1) * period params id) header) - period params id) =
        replicate (k * period params id) header := by
      rw [getAncestor_sub, drop_replicate, Nat.succ_mul, Nat.add_sub_cancel]
    rw [walkBack, hmiss, if_neg Bool.false_ne_true,
      dif_neg (not_or.mpr ⟨hne, h.period_pos.ne'⟩), if_neg, hback, ih]
    · rw [windowEnds, windowEnds, range_succ, map_append, append_assoc]
      rfl
    · rw [getMedianTimePast_replicate hpos, nHeight_replicate]
      omega

variable (htimeout : (params.vDeployments id).nStartTime < (params.vDeployments id).nTimeout)

include htimeout

/-- Three windows of signalling blocks, in time, make the deployment active. -/
lemma walkForward_windowEnds (hsignal : condition params id header = true) :
    ∃ cache, walkForward params id 0 (windowEnds params id header 3) .defined intMax genesisCache =
      some (.active, cache) := by
  have hP := h.period_pos
  have hmtp : ∀ k, getMedianTimePast (replicate ((k + 1) * period params id) header) =
      (params.vDeployments id).nStartTime := fun k => by
    rw [getMedianTimePast_replicate (mul_pos (succ_pos k) hP), htime]
  have hstarted : nextState params id 0 (replicate ((0 + 1) * period params id) header)
      .defined intMax = some (ThresholdState.started, (period params id : Int)) := by
    simp only [nextState, hmtp, nHeight_replicate]
    rw [if_neg (not_le.mpr htimeout), if_pos (by omega)]
    simp
  have hlocked : nextState params id 0 (replicate ((1 + 1) * period params id) header)
      .started (period params id) = some (ThresholdState.lockedIn, (period params id : Int)) := by
    have hwindow : (replicate ((1 + 1) * period params id) header).take (period params id) =
        replicate (period params id) header := by
      rw [take_replicate, min_eq_left (by omega)]
    have hrest : (replicate ((1 + 1) * period params id) header).drop (period params id) =
        replicate (period params id) header := by
      rw [drop_replicate]
      congr 1
      omega
    have hcount : (replicate (period params id) header).countP (condition params id) =
        period params id := by
      rw [countP_replicate, if_pos hsignal]
    have hne : replicate (period params id) header ≠ [] := by
      simpa using hP.ne'
    simp only [nextState, hmtp, hwindow, hrest, hcount, nHeight_replicate]
    rw [if_neg (not_le.mpr htimeout),
      if_neg (not_or.mpr ⟨hne, not_not.mpr ⟨by exact_mod_cast hP, h.period_lt⟩⟩),
      sub_add_cancel, sub_self, Int.zero_tdiv, if_pos h.threshold_le]
  have hends : windowEnds params id header 3 =
      [replicate ((0 + 1) * period params id) header,
        replicate ((1 + 1) * period params id) header,
        replicate ((2 + 1) * period params id) header] := rfl
  rw [hends, walkForward, hstarted]
  simp only
  rw [walkForward, hlocked]
  exact ⟨_, rfl⟩

/-- **Three windows of signals activate**: the block after them is in the fourth window, whose
state is `ACTIVE`. -/
theorem getStateFor_signalling (hsignal : condition params id header = true) :
    ∃ cache, getStateFor params id earlySignals
      (replicate (3 * period params id) header) genesisCache = some (.active, cache) := by
  have hlast : lastOfPreviousPeriod params id (replicate (3 * period params id) header) =
      replicate (3 * period params id) header := by
    unfold lastOfPreviousPeriod
    split
    · next hnil => exact hnil.symm
    · rw [getAncestor_sub, length_replicate, mul_mod_left, drop_zero]
  have hknown : genesisCache [] = some .defined := rfl
  obtain ⟨cache, hforward⟩ := walkForward_windowEnds h htime htimeout hsignal
  rw [getStateFor, if_neg h.start_ne_alwaysActive, hlast, signalHeight_earlySignals,
    walkBack_replicate h htime]
  simp only [hknown, append_nil]
  rw [calculateStartHeight]
  exact ⟨cache, hforward⟩

omit htime in
/-- A chain id with room for the signal lets the deployment activate. -/
lemma activationReachable_of_canSignal
    (hcan : CanSignal params.nAuxpowChainId (params.vDeployments id).bit) :
    ActivationReachable params id := by
  have hstart := h.start_nonneg
  have hlt := h.start_lt
  let nTime := UInt32.ofNat (params.vDeployments id).nStartTime.toNat
  let header :=
    solvedHeader (signallingVersion params.nAuxpowChainId (params.vDeployments id).bit) nTime
  obtain ⟨hid, hsignal⟩ := signallingVersion_spec h.bit_lt hcan nTime
  have htime : (header.nTime.toNat : Int) = (params.vDeployments id).nStartTime := by
    have hnat : nTime.toNat = (params.vDeployments id).nStartTime.toNat :=
      UInt32.toNat_ofNat_of_lt' (by rw [UInt32.size]; omega)
    change ((nTime.toNat : Nat) : Int) = _
    rw [hnat, Int.toNat_of_nonneg hstart]
  obtain ⟨cache, hactive⟩ := getStateFor_signalling h htime htimeout hsignal
  refine ⟨replicate (3 * period params id) header, earlySignals,
    [[], replicate (3 * period params id) header], [.defined, .active], ?_, ?_, ?_, rfl, rfl⟩
  · intro block hblock
    rw [eq_of_mem_replicate hblock]
    exact checkProofOfWork_solvedHeader nTime hid
  · simp
  · simp [runQueries, getStateFor_genesis h, hactive]

end Signalling

/-- **Activation and the chain id.** On a strict network a deployment whose start precedes its
timeout can activate exactly when the chain id has the top bits of version bits and, where
the deployment's bit falls into the chain id, that bit. -/
theorem activation_reachable_iff (params : Params) (id : DeploymentPos)
    (h : SoundDeployment params id) (hstrict : params.fStrictChainId = true)
    (htimeout : (params.vDeployments id).nStartTime < (params.vDeployments id).nTimeout) :
    ActivationReachable params id ↔ CanSignal params.nAuxpowChainId (params.vDeployments id).bit :=
  ⟨canSignal_of_activationReachable h hstrict, activationReachable_of_canSignal h htimeout⟩

/-- With the chain id `0x2088` in place of `0x88` the deployment `V20` can activate. -/
theorem activation_reachable_0x2088 :
    ActivationReachable { mainParams with nAuxpowChainId := 0x2088 } .v20 :=
  (activation_reachable_iff { mainParams with nAuxpowChainId := 0x2088 } .v20
    (by constructor <;> decide) (by decide) (by decide)).mpr
    ⟨by decide, by decide, by decide⟩

/-- The chain id of mainnet, `0x88`, puts zeros where version bits need `001`. -/
theorem activation_unreachable_mainnet :
    mainParams.fStrictChainId = true ∧
      (mainParams.vDeployments .v20).nStartTime < (mainParams.vDeployments .v20).nTimeout ∧
      ¬ ActivationReachable mainParams .v20 := by
  refine ⟨by decide, by decide, fun hreach => ?_⟩
  have hcan := canSignal_of_activationReachable
    (soundDeployment_createChainParams .main .v20) (by decide) hreach
  exact absurd hcan.1 (by decide)

end HootChain.Consensus

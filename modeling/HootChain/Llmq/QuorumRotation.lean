import HootChain.Evo.MnList
import HootChain.Foundation.CyclicWalk
import HootChain.Llmq.Commitment

/-!
# Rotated Quorums (`llmq/utils.cpp`, `llmq/snapshot.h`)

In each cycle every rotated quorum gets a new quarter of members. The masternodes are
sorted, the unused ones first, and the quorums go round that list one after the other: each
takes the next masternodes that are not in one of its last three quarters. A snapshot keeps
which masternodes were in use and which entries were skipped, and the quarter is decoded
from it in the next cycles.
-/

namespace HootChain.Llmq.Rotation

open Evo Foundation Primitives CDeterministicMNList List CDeterministicMN Std.ExtTreeMap
open Foundation.CyclicWalk
open Evo.CDeterministicMNList (Keyed)

/-! ## Cycles -/

/-- What the members are computed from besides the cycle. -/
structure RotationEnv where
  consensus : QuorumConsensus
  /-- V19 is active in every cycle with rotation: the two heights are equal on all networks. -/
  v19_le : consensus.v19Height ≤ consensus.dip0024Height
  /-- The hash of two values, one after the other. -/
  sha256 : Uint256 → Uint256 → Uint256

/-- What is read from `pCycleQuorumBaseBlockIndex`. -/
structure QuorumCycle where
  nHeight : Int
  /-- `GetHashModifier`. -/
  modifier : Uint256
  /-- The list of the work block, eight blocks before. -/
  allMns : CDeterministicMNList

structure PreviousQuorumQuarters where
  quarterHMinusC : List (List CDeterministicMN)
  quarterHMinus2C : List (List CDeterministicMN)
  quarterHMinus3C : List (List CDeterministicMN)

/-- The members of the last three quarters of a quorum, in the order of the loops over them. -/
def PreviousQuorumQuarters.members (prev : PreviousQuorumQuarters) (i : Nat) :
    List CDeterministicMN :=
  prev.quarterHMinusC[i]?.getD [] ++ prev.quarterHMinus2C[i]?.getD [] ++
    prev.quarterHMinus3C[i]?.getD []

inductive SnapshotSkipMode where
  | noSkipping
  | skippingEntries
  | noSkippingEntries
  | allSkipped
  deriving DecidableEq

structure CQuorumSnapshot where
  activeQuorumMembers : List Bool
  mnSkipListMode : SnapshotSkipMode
  mnSkipList : List Int
  deriving DecidableEq

/-- `quorumSize / 4`. -/
def quarterSize (params : LLMQParams) : Nat := params.size.toNat / 4

/-- The functions below do nothing otherwise. -/
def isCycleBase (params : LLMQParams) (cycle : QuorumCycle) : Bool :=
  params.useRotation && cycle.nHeight.tmod params.dkgInterval = 0

/-! ## Sorting -/

/-- `confirmedHash` is not null. -/
def isConfirmed (dmn : CDeterministicMN) : Bool := dmn.pdmnState.confirmedHash != 0

/-- What the sort reads of a masternode. -/
structure SortKey where
  confirmedHashWithProRegTxHash : Uint256
  collateralOutpoint : COutPoint

/-- The key of a masternode. -/
def sortKey (dmn : CDeterministicMN) : SortKey :=
  ⟨dmn.pdmnState.confirmedHashWithProRegTxHash, dmn.collateralOutpoint⟩

section

variable (env : RotationEnv) (cycle : QuorumCycle)

/-- The comparison of `CalculateQuorum`: scores, then collaterals. -/
def SortKey.less (modifier : Uint256) (a b : SortKey) : Bool :=
  let scoreA := env.sha256 a.confirmedHashWithProRegTxHash modifier
  let scoreB := env.sha256 b.confirmedHashWithProRegTxHash modifier
  if scoreA = scoreB then a.collateralOutpoint.less b.collateralOutpoint else scoreA < scoreB

/-- The masternodes that `CalculateScores` takes: valid ones that are confirmed. -/
def eligible (l : CDeterministicMNList) : List CDeterministicMN := l.validMNs.filter isConfirmed

/-- `CalculateQuorum` of all masternodes, in descending order. Collaterals are not shared, so
every sort gives this order. -/
def calculateQuorum (modifier : Uint256) (l : CDeterministicMNList) : List CDeterministicMN :=
  ((eligible l).insertionSort fun a b => ¬ (sortKey a).less env modifier (sortKey b)).take
    l.getAllMNsCount

/-- `CDeterministicMNList()`. -/
def emptyList : CDeterministicMNList := .initial 0 (-1)

/-- `AddMN` where an exception is caught. -/
def tryAddMN (l : CDeterministicMNList) (dmn : CDeterministicMN) : CDeterministicMNList :=
  match l.addMN dmn true with
  | .ok l' => l'
  | .error _ => l

/-! ## The masternodes in use -/

def isMNPoSeBanned (l : CDeterministicMNList) (proTxHash : Uint256) : Bool :=
  (l.getMN proTxHash).any CDeterministicMN.isPoSeBanned

def skipRemovedMNs : Bool :=
  cycle.nHeight + 1 ≥ env.consensus.v19Height || env.consensus.network = .test

/-- The members of the last quarters that are still there, and not banned. -/
def stillUsed (prev : PreviousQuorumQuarters) (i : Nat) : List CDeterministicMN :=
  (prev.members i).filter fun mn =>
    !(skipRemovedMNs env cycle && !cycle.allMns.hasMN mn.proTxHash) &&
      !isMNPoSeBanned cycle.allMns mn.proTxHash

/-- `MnsUsedAtHIndexed[i]`. -/
def mnsUsedAtHIndexed (prev : PreviousQuorumQuarters) (i : Nat) : CDeterministicMNList :=
  (stillUsed env cycle prev i).foldl tryAddMN emptyList

def mnsUsedAtH (params : LLMQParams) (cycle : QuorumCycle) (prev : PreviousQuorumQuarters) :
    CDeterministicMNList :=
  ((range params.signingActiveQuorumCount).flatMap (stillUsed env cycle prev)).foldl tryAddMN
    emptyList

def mnsNotUsedAtH (params : LLMQParams) (cycle : QuorumCycle) (prev : PreviousQuorumQuarters) :
    CDeterministicMNList :=
  (cycle.allMns.mns.filter fun dmn =>
    !(mnsUsedAtH env params cycle prev).hasMN dmn.proTxHash && !dmn.isPoSeBanned).foldl tryAddMN
    emptyList

/-- `sortedCombinedMnsList`: the unused masternodes, then the used ones. -/
def sortedCombinedMnsList (params : LLMQParams) (cycle : QuorumCycle)
    (prev : PreviousQuorumQuarters) : List CDeterministicMN :=
  calculateQuorum env cycle.modifier (mnsNotUsedAtH env params cycle prev) ++
    calculateQuorum env cycle.modifier (mnsUsedAtH env params cycle prev)

/-! ## The builder -/

section

variable (combined : List CDeterministicMN)

/-- The list of a quorum with the masternode at an index, unless it cannot be added. -/
def takeMN (used : CDeterministicMNList) (idx : Nat) : Option CDeterministicMNList :=
  combined[idx]?.bind fun mn =>
    if used.hasMN mn.proTxHash then none else (used.addMN mn true).toOption

/-- The variables of the loop for one quorum. -/
structure FillState where
  members : List CDeterministicMN := []
  used : CDeterministicMNList
  idx : Nat
  skipList : List Int
  firstSkippedIndex : Nat
  updated : Bool := false

/-- An entry that is not taken goes on the skip list, relative to the first one. -/
def FillState.skip (st : FillState) : FillState :=
  if st.firstSkippedIndex = 0 then
    { st with firstSkippedIndex := st.idx, skipList := st.skipList ++ [(st.idx : Int)] }
  else { st with skipList := st.skipList ++ [(st.idx : Int) - st.firstSkippedIndex] }

/-- One round of the loop. -/
def FillState.visit (st : FillState) : FillState :=
  let st' :=
    match takeMN combined st.used st.idx with
    | some used =>
      { st with used, members := st.members ++ combined[st.idx]?.toList, updated := true }
    | none => st.skip
  { st' with idx := next combined.length st.idx }

/-- How the loop ends. -/
inductive FillResult where
  | filled (st : FillState)
  /-- A full round without a new member. -/
  | notEnough
  | outOfFuel

/-- The loop for one quorum. -/
def fillQuarter (size usedMNsCount initialLoopIdx : Nat) : Nat → FillState → FillResult
  | 0, st =>
    if st.members.length < size ∧ usedMNsCount + st.members.length < combined.length then .outOfFuel
    else .filled st
  | fuel + 1, st =>
    if st.members.length < size ∧ usedMNsCount + st.members.length < combined.length then
      let st' := st.visit combined
      if st'.idx = initialLoopIdx then
        if st'.updated then
          fillQuarter size usedMNsCount initialLoopIdx fuel { st' with updated := false }
        else .notEnough
      else fillQuarter size usedMNsCount initialLoopIdx fuel st'
    else .filled st

/-- How the loop over the quorums ends: with the quarters and the skip list. -/
inductive BuildResult where
  | built (quarters : List (List CDeterministicMN)) (skipList : List Int)
  | notEnough
  | outOfFuel

/-- The rounds that the loop for one quorum may need: each lap but the last has a new member. -/
def fillFuel (size : Nat) : Nat := (size + 1) * combined.length

/-- The loop over the quorums, from the lists of the masternodes they use. -/
def fillQuarters (size : Nat) : List CDeterministicMNList → Nat → List Int → Nat → BuildResult
  | [], _, skipList, _ => .built [] skipList
  | used :: rest, idx, skipList, firstSkippedIndex =>
    match fillQuarter combined size used.getAllMNsCount idx (fillFuel combined size)
      { used, idx, skipList, firstSkippedIndex } with
    | .outOfFuel => .outOfFuel
    | .notEnough => .notEnough
    | .filled st =>
      match fillQuarters size rest st.idx st.skipList st.firstSkippedIndex with
      | .built quarters skipList => .built (st.members :: quarters) skipList
      | result => result

end

def buildQuorumSnapshot (mnUsedAtH : CDeterministicMNList) (skipList : List Int) :
    CQuorumSnapshot :=
  let sortedAllMns := calculateQuorum env cycle.modifier cycle.allMns
  let active := sortedAllMns.map fun dmn => mnUsedAtH.hasMN dmn.proTxHash
  { activeQuorumMembers :=
      active ++ replicate (cycle.allMns.getAllMNsCount - active.length) false
    mnSkipListMode := if skipList.isEmpty then .noSkipping else .skippingEntries
    mnSkipList := skipList }

/-- `BuildNewQuorumQuarterMembers`: the quarters, and the snapshot where one is stored. It is
`none` if the fuel of a loop did not last. -/
def buildNewQuorumQuarterMembers (params : LLMQParams) (cycle : QuorumCycle)
    (prev : PreviousQuorumQuarters) :
    Option (List (List CDeterministicMN) × Option CQuorumSnapshot) :=
  if ¬ isCycleBase params cycle then some ([], none)
  else
    let nQuorums := params.signingActiveQuorumCount
    let noMembers := replicate nQuorums []
    if cycle.allMns.validMNs.length < quarterSize params then some (noMembers, none)
    else
      let combined := sortedCombinedMnsList env params cycle prev
      match fillQuarters combined (quarterSize params)
        ((range nQuorums).map (mnsUsedAtHIndexed env cycle prev)) 0 [] 0 with
      | .built quarters skipList =>
        some (quarters,
          some (buildQuorumSnapshot env cycle (mnsUsedAtH env params cycle prev) skipList))
      | .notEnough => some (noMembers, none)
      | .outOfFuel => none

/-! ## The decoder -/

/-- `GetMNUsageBySnapshot`: the masternodes in use, and the others. -/
def getMNUsageBySnapshot (snapshot : CQuorumSnapshot) :
    CDeterministicMNList × CDeterministicMNList :=
  let sortedAllMns := calculateQuorum env cycle.modifier cycle.allMns
  (sortedAllMns.zip snapshot.activeQuorumMembers).foldl (fun usage entry =>
    if entry.2 then (tryAddMN usage.1 entry.1, usage.2)
    else if !entry.1.isPoSeBanned then (usage.1, tryAddMN usage.2 entry.1)
    else usage) (emptyList, emptyList)

/-- The skip list with the first index added back. -/
def processSkipList : Int → List Int → List Int
  | _, [] => []
  | firstEntryIndex, s :: rest =>
    if firstEntryIndex = 0 then s :: processSkipList s rest
    else (firstEntryIndex + s) :: processSkipList firstEntryIndex rest

/-- The rounds of the loop in which an entry is skipped. -/
def skipEntries (n : Nat) : Nat → List Int → Nat × List Int
  | idx, [] => (idx, [])
  | idx, s :: itsk => if (idx : Int) = s then skipEntries n (next n idx) itsk else (idx, s :: itsk)

/-- The loop for one quorum, with the index and the skip list after it. -/
def decodeQuarter (combined : List CDeterministicMN) :
    Nat → Nat → List Int → List CDeterministicMN × Nat × List Int
  | 0, idx, itsk => ([], idx, itsk)
  | size + 1, idx, itsk =>
    let start := skipEntries combined.length idx itsk
    let rest := decodeQuarter combined size (next combined.length start.1) start.2
    (combined[start.1]?.toList ++ rest.1, rest.2)

/-- The loop over the quorums. -/
def decodeQuarters (combined : List CDeterministicMN) (size : Nat) :
    Nat → Nat → List Int → List (List CDeterministicMN)
  | 0, _, _ => []
  | numQuorums + 1, idx, itsk =>
    let quarter := decodeQuarter combined size idx itsk
    quarter.1 :: decodeQuarters combined size numQuorums quarter.2.1 quarter.2.2

/-- The list that `GetQuorumQuarterMembersBySnapshot` goes round. -/
def sortedCombinedMns (snapshot : CQuorumSnapshot) : List CDeterministicMN :=
  let usage := getMNUsageBySnapshot env cycle snapshot
  calculateQuorum env cycle.modifier usage.2 ++ calculateQuorum env cycle.modifier usage.1

def getQuorumQuarterMembersBySnapshot (params : LLMQParams) (cycle : QuorumCycle)
    (snapshot : CQuorumSnapshot) : List (List CDeterministicMN) :=
  if ¬ isCycleBase params cycle then []
  else
    let combined := sortedCombinedMns env cycle snapshot
    let numQuorums := params.signingActiveQuorumCount
    if combined.isEmpty then replicate numQuorums []
    else
      match snapshot.mnSkipListMode with
      -- the loop of this mode is that of the next one without entries to skip
      | .noSkipping => decodeQuarters combined (quarterSize params) numQuorums 0 []
      | .skippingEntries =>
        decodeQuarters combined (quarterSize params) numQuorums 0
          (processSkipList 0 snapshot.mnSkipList)
      | .noSkippingEntries | .allSkipped => replicate numQuorums []

end

/-! ## Lists as sets of masternodes -/

section Lists

variable {env : RotationEnv} {modifier : Uint256} {l l' allMns : CDeterministicMNList}
  {dmn : CDeterministicMN} {items : List CDeterministicMN}

lemma pairwise_mns (hl : Keyed l) : l.mns.Pairwise fun a b => a.proTxHash < b.proTxHash := by
  rw [mns, pairwise_map]
  refine List.Pairwise.imp_of_mem (fun {a b} ha hb hlt => ?_) ordered_keys_toList
  rw [hl (mem_toList_iff_getElem?_eq_some.mp ha),
    hl (mem_toList_iff_getElem?_eq_some.mp hb)]
  exact Nat.compare_eq_lt.mp hlt

lemma mem_eligible (hl : Keyed l) : dmn ∈ eligible l ↔
    l.getMN dmn.proTxHash = some dmn ∧ dmn.isPoSeBanned = false ∧ isConfirmed dmn = true := by
  rw [eligible, mem_filter, validMNs, mem_filter, mem_mns, and_assoc, Bool.not_eq_true']
  constructor
  · rintro ⟨⟨h, hget⟩, hrest⟩
    exact ⟨hl hget ▸ hget, hrest⟩
  · exact fun ⟨hget, hrest⟩ => ⟨⟨_, hget⟩, hrest⟩

lemma eligible_sublist (l : CDeterministicMNList) : (eligible l).Sublist l.mns :=
  filter_sublist.trans filter_sublist

lemma length_eligible_le (l : CDeterministicMNList) : (eligible l).length ≤ l.getAllMNsCount := by
  refine (eligible_sublist l).length_le.trans (le_of_eq ?_)
  rw [mns, length_map, length_toList]
  rfl

lemma calculateQuorum_eq (env : RotationEnv) (modifier : Uint256) (l : CDeterministicMNList) :
    calculateQuorum env modifier l =
      (eligible l).insertionSort fun a b => ¬ (sortKey a).less env modifier (sortKey b) := by
  rw [calculateQuorum, take_of_length_le]
  rw [length_insertionSort]
  exact length_eligible_le l

lemma mem_calculateQuorum : dmn ∈ calculateQuorum env modifier l ↔ dmn ∈ eligible l := by
  rw [calculateQuorum_eq, mem_insertionSort]

lemma nodup_calculateQuorum (hl : Keyed l) :
    ((calculateQuorum env modifier l).map proTxHash).Nodup := by
  rw [calculateQuorum_eq]
  refine ((perm_insertionSort _ _).map _).nodup_iff.mpr ?_
  rw [List.Nodup, pairwise_map]
  exact ((pairwise_mns hl).sublist (eligible_sublist l)).imp Nat.ne_of_lt

/-- The hashes come in one order if they are the same, with the same keys. -/
lemma calculateQuorum_map_eq (hl : Keyed l) (hl' : Keyed l') {key : Uint256 → SortKey}
    (hkey : ∀ dmn ∈ eligible l, sortKey dmn = key dmn.proTxHash)
    (hkey' : ∀ dmn ∈ eligible l', sortKey dmn = key dmn.proTxHash)
    (hmem : ∀ h, (∃ dmn ∈ eligible l, dmn.proTxHash = h) ↔ ∃ dmn ∈ eligible l', dmn.proTxHash = h) :
    (calculateQuorum env modifier l).map proTxHash =
      (calculateQuorum env modifier l').map proTxHash := by
  have hsorted : ∀ {l : CDeterministicMNList}, Keyed l →
      ((eligible l).map proTxHash).Pairwise (· < ·) := fun {l} hl =>
    pairwise_map.mpr ((pairwise_mns hl).sublist (eligible_sublist l))
  have hmap : ∀ {l : CDeterministicMNList},
      (∀ dmn ∈ eligible l, sortKey dmn = key dmn.proTxHash) →
      (calculateQuorum env modifier l).map proTxHash =
        ((eligible l).map proTxHash).insertionSort fun h h' =>
          ¬ (key h).less env modifier (key h') := by
    intro l hkey
    rw [calculateQuorum_eq]
    refine map_insertionSort _ _ _ _ fun a ha b hb => ?_
    rw [hkey a ha, hkey b hb]
  rw [hmap hkey, hmap hkey', (hsorted hl).eq_of_mem_iff (hsorted hl') fun h => ?_]
  rw [mem_map, mem_map]
  exact hmem h

/-- A list whose masternodes are all those of another list. -/
structure PartOf (allMns l : CDeterministicMNList) : Prop where
  wellIndexed : l.WellIndexed
  entries : ∀ {h dmn}, l.getMN h = some dmn → allMns.getMN h = some dmn

lemma PartOf.keyed (h : PartOf allMns l) : Keyed l := h.wellIndexed.proTxHash_eq

lemma getMN_emptyList (h : Uint256) : emptyList.getMN h = none := by
  simp [emptyList, initial, getMN]

lemma partOf_emptyList (allMns : CDeterministicMNList) : PartOf allMns emptyList :=
  ⟨.initial _ _, fun hget => by rw [getMN_emptyList] at hget; cases hget⟩

section

variable (hall : allMns.WellIndexed)

include hall

/-- Masternodes of one list can be added to a part of it, in any order. -/
lemma PartOf.addMN (hpart : PartOf allMns l)
    (hdmn : allMns.getMN dmn.proTxHash = some dmn) (hnone : l.getMN dmn.proTxHash = none) :
    ∃ l', l.addMN dmn true = .ok l' ∧ PartOf allMns l' := by
  have hid : ∀ h mn, l.getMN h = some mn → mn.internalId ≠ dmn.internalId := by
    intro h mn hmn hid
    rw [hall.internalId_inj (hpart.entries hmn) hdmn hid, hnone] at hmn
    cases hmn
  have hfree : ∀ p ∈ dmn.properties, ∀ h, ¬ l.Holds h p := by
    rintro p hp h ⟨mn, hmn, hmem⟩
    have heq := UniqueIndex.Indexes.owner_unique hall.properties
      (holds_of_mem (hpart.entries hmn) hmem)
      (holds_of_mem hdmn hp)
    rw [heq, hnone] at hmn
    cases hmn
  obtain ⟨l', hrun⟩ : ∃ l', l.addMN dmn true = .ok l' :=
    exists_addMN hpart.wellIndexed (hall.keys hdmn) hnone hid hfree
  refine ⟨l', hrun, hpart.wellIndexed.addMN hrun, fun {h mn} hget => ?_⟩
  rw [getMN_addMN hrun] at hget
  split at hget
  case isTrue heq =>
    cases hget
    rw [heq]
    exact hdmn
  case isFalse => exact hpart.entries hget

omit hall in
lemma tryAddMN_of_ok (hrun : l.addMN dmn true = .ok l') : tryAddMN l dmn = l' := by
  rw [tryAddMN, hrun]

lemma PartOf.tryAddMN (hpart : PartOf allMns l) (hdmn : allMns.getMN dmn.proTxHash = some dmn) :
    PartOf allMns (tryAddMN l dmn) ∧
      ∀ h, (Rotation.tryAddMN l dmn).getMN h = if h = dmn.proTxHash then some dmn else l.getMN h := by
  cases hget : l.getMN dmn.proTxHash with
  | none =>
    obtain ⟨l', hrun, hpart'⟩ := hpart.addMN hall hdmn hget
    rw [tryAddMN_of_ok hrun]
    exact ⟨hpart', getMN_addMN hrun⟩
  | some mn =>
    -- it is there already
    have hsame : Rotation.tryAddMN l dmn = l := by
      rw [Rotation.tryAddMN, CDeterministicMNList.addMN, CDeterministicMNList.hasMN, hget]
      rfl
    rw [hsame]
    refine ⟨hpart, fun h => ?_⟩
    split
    case isTrue heq => rw [heq, hget, ← hpart.entries hget, hdmn]
    case isFalse => rfl

lemma PartOf.foldl_tryAddMN (hpart : PartOf allMns l)
    (hitems : ∀ dmn ∈ items, allMns.getMN dmn.proTxHash = some dmn) :
    PartOf allMns (items.foldl Rotation.tryAddMN l) ∧
      ∀ h dmn, (items.foldl Rotation.tryAddMN l).getMN h = some dmn ↔
        l.getMN h = some dmn ∨ dmn ∈ items ∧ dmn.proTxHash = h := by
  induction items generalizing l with
  | nil => exact ⟨hpart, by simp⟩
  | cons mn items ih =>
    rw [forall_mem_cons] at hitems
    obtain ⟨hpart₁, hget₁⟩ := hpart.tryAddMN hall hitems.1
    obtain ⟨hpart', hget'⟩ := ih hpart₁ hitems.2
    refine ⟨hpart', fun h dmn => ?_⟩
    rw [foldl_cons, hget', hget₁, mem_cons]
    split
    case isTrue heq =>
      subst heq
      constructor
      · rintro (hmn | ⟨hmem, hhash⟩)
        · cases hmn
          exact .inr ⟨.inl rfl, rfl⟩
        · exact .inr ⟨.inr hmem, hhash⟩
      · rintro (hget | ⟨rfl | hmem, hhash⟩)
        · have hsame := hpart.entries hget
          rw [hitems.1] at hsame
          exact .inl hsame
        · exact .inl rfl
        · exact .inr ⟨hmem, hhash⟩
    case isFalse hne =>
      constructor
      · rintro (hget | ⟨hmem, hhash⟩)
        · exact .inl hget
        · exact .inr ⟨.inr hmem, hhash⟩
      · rintro (hget | ⟨rfl | hmem, hhash⟩)
        · exact .inl hget
        · exact absurd hhash.symm hne
        · exact .inr ⟨hmem, hhash⟩

variable (items) in
/-- A list made of masternodes of another list holds exactly these. -/
lemma partOf_foldl_tryAddMN
    (hitems : ∀ dmn ∈ items, allMns.getMN dmn.proTxHash = some dmn) :
    PartOf allMns (items.foldl tryAddMN emptyList) ∧
      ∀ h dmn, (items.foldl tryAddMN emptyList).getMN h = some dmn ↔
        dmn ∈ items ∧ dmn.proTxHash = h := by
  obtain ⟨hpart, hget⟩ := (partOf_emptyList allMns).foldl_tryAddMN hall hitems
  refine ⟨hpart, fun h dmn => ?_⟩
  rw [hget, getMN_emptyList]
  simp

end

variable {h : Uint256}

/-- Whatever is added to a list, its masternodes are among those that were tried. -/
lemma getMN_foldl_tryAddMN (hget : (items.foldl tryAddMN l).getMN h = some dmn) :
    l.getMN h = some dmn ∨ dmn ∈ items ∧ dmn.proTxHash = h := by
  induction items generalizing l with
  | nil => exact .inl hget
  | cons mn items ih =>
    rcases ih hget with hfirst | ⟨hmem, hhash⟩
    · rw [tryAddMN] at hfirst
      split at hfirst
      case h_1 l' hrun =>
        rw [getMN_addMN hrun] at hfirst
        split at hfirst
        case isTrue heq =>
          cases hfirst
          exact .inr ⟨mem_cons_self .., heq.symm⟩
        case isFalse => exact .inl hfirst
      case h_2 => exact .inl hfirst
    · exact .inr ⟨mem_cons_of_mem _ hmem, hhash⟩

lemma wellIndexed_foldl_tryAddMN (hl : l.WellIndexed) :
    (items.foldl tryAddMN l).WellIndexed := by
  refine foldlRecOn items tryAddMN hl fun l hl dmn _ => ?_
  rw [tryAddMN]
  split
  case h_1 l' hrun => exact hl.addMN hrun
  case h_2 => exact hl

lemma getMN_foldl_emptyList (hget : (items.foldl tryAddMN emptyList).getMN h = some dmn) :
    dmn ∈ items ∧ dmn.proTxHash = h := by
  rcases getMN_foldl_tryAddMN hget with hempty | hmem
  · cases hempty
  · exact hmem

end Lists

/-! ## The combined lists -/

section Combined

variable {env : RotationEnv} {params : LLMQParams} {cycle : QuorumCycle}
  {prev : PreviousQuorumQuarters} {mn dmn : CDeterministicMN} {h : Uint256} {i : Nat}

/-- What a member of an earlier quarter is: it was valid and confirmed then, and neither the
confirmation nor the collateral of a masternode changes. -/
structure FormerMember (allMns : CDeterministicMNList) (mn : CDeterministicMN) : Prop where
  valid : mn.isPoSeBanned = false
  confirmed : isConfirmed mn = true
  same : ∀ dmn, allMns.getMN mn.proTxHash = some dmn →
    isConfirmed dmn = true ∧ sortKey dmn = sortKey mn

/-- The previous quarters hold former members only. -/
def PreviousQuorumQuarters.Former (prev : PreviousQuorumQuarters)
    (allMns : CDeterministicMNList) : Prop :=
  ∀ i, ∀ mn ∈ prev.members i, FormerMember allMns mn

lemma mem_stillUsed (hskip : skipRemovedMNs env cycle = true) :
    mn ∈ stillUsed env cycle prev i ↔ mn ∈ prev.members i ∧
      ∃ dmn, cycle.allMns.getMN mn.proTxHash = some dmn ∧ dmn.isPoSeBanned = false := by
  rw [stillUsed, mem_filter, hskip, isMNPoSeBanned, hasMN]
  cases hget : cycle.allMns.getMN mn.proTxHash <;> simp

lemma mem_usedItems : mn ∈ (range params.signingActiveQuorumCount).flatMap
    (stillUsed env cycle prev) ↔
      ∃ i < params.signingActiveQuorumCount, mn ∈ stillUsed env cycle prev i := by
  simp

lemma keyed_mnsUsedAtH : Keyed (mnsUsedAtH env params cycle prev) :=
  fun hget => (getMN_foldl_emptyList hget).2

section

variable (hskip : skipRemovedMNs env cycle = true) (hformer : prev.Former cycle.allMns)

include hskip hformer

/-- A masternode in use is a former member that is still valid. -/
lemma used_entry (hget : (mnsUsedAtH env params cycle prev).getMN h = some mn) :
    mn.proTxHash = h ∧ FormerMember cycle.allMns mn ∧
      ∃ dmn, cycle.allMns.getMN h = some dmn ∧ dmn.isPoSeBanned = false := by
  obtain ⟨hmem, rfl⟩ := getMN_foldl_emptyList hget
  obtain ⟨i, -, hused⟩ := mem_usedItems.mp hmem
  obtain ⟨hprev, hdmn⟩ := (mem_stillUsed hskip).mp hused
  exact ⟨rfl, hformer i mn hprev, hdmn⟩

/-- All masternodes in use are sorted in. -/
lemma exists_eligible_used_iff :
    (∃ mn ∈ eligible (mnsUsedAtH env params cycle prev), mn.proTxHash = h) ↔
      (mnsUsedAtH env params cycle prev).hasMN h = true := by
  rw [hasMN, Option.isSome_iff_exists]
  constructor
  · rintro ⟨mn, hmem, rfl⟩
    exact ⟨mn, ((mem_eligible keyed_mnsUsedAtH).mp hmem).1⟩
  · rintro ⟨mn, hget⟩
    obtain ⟨rfl, hmember, -⟩ := used_entry hskip hformer hget
    exact ⟨mn, (mem_eligible keyed_mnsUsedAtH).mpr ⟨hget, hmember.valid, hmember.confirmed⟩, rfl⟩

/-- A masternode in use is also valid and confirmed now. -/
lemma exists_eligible_of_used (hall : cycle.allMns.WellIndexed)
    (hused : (mnsUsedAtH env params cycle prev).hasMN h = true) :
    ∃ dmn ∈ eligible cycle.allMns, dmn.proTxHash = h := by
  rw [hasMN, Option.isSome_iff_exists] at hused
  obtain ⟨mn, hget⟩ := hused
  obtain ⟨rfl, hmember, dmn, hdmn, hvalid⟩ := used_entry hskip hformer hget
  have hhash : dmn.proTxHash = mn.proTxHash := hall.proTxHash_eq hdmn
  refine ⟨dmn, (mem_eligible hall.proTxHash_eq).mpr ⟨?_, hvalid, (hmember.same dmn hdmn).1⟩, hhash⟩
  rw [hhash]
  exact hdmn

end

/-- One pass over the sorted masternodes fills both lists of `GetMNUsageBySnapshot`. -/
lemma foldl_usage (items : List CDeterministicMN) (active : CDeterministicMN → Bool)
    (usage : CDeterministicMNList × CDeterministicMNList) :
    (items.map fun dmn => (dmn, active dmn)).foldl (fun usage entry =>
      if entry.2 then (tryAddMN usage.1 entry.1, usage.2)
      else if !entry.1.isPoSeBanned then (usage.1, tryAddMN usage.2 entry.1)
      else usage) usage =
    ((items.filter active).foldl tryAddMN usage.1,
      (items.filter fun dmn => !active dmn && !dmn.isPoSeBanned).foldl tryAddMN usage.2) := by
  induction items generalizing usage with
  | nil => rfl
  | cons dmn items ih =>
    rw [map_cons, foldl_cons, ih]
    cases hactive : active dmn with
    | true => simp [hactive]
    | false =>
      cases hbanned : dmn.isPoSeBanned <;> simp [hactive, hbanned]

lemma zip_map_append {α β : Type} (items : List α) (f : α → β) (tail : List β) :
    items.zip (items.map f ++ tail) = items.map fun x => (x, f x) := by
  induction items with
  | nil => rfl
  | cons x items ih => simp [ih]

lemma getMNUsageBySnapshot_eq (used : CDeterministicMNList) (skipList : List Int) :
    getMNUsageBySnapshot env cycle (buildQuorumSnapshot env cycle used skipList) =
      (((calculateQuorum env cycle.modifier cycle.allMns).filter fun dmn =>
          used.hasMN dmn.proTxHash).foldl tryAddMN emptyList,
        ((calculateQuorum env cycle.modifier cycle.allMns).filter fun dmn =>
          !used.hasMN dmn.proTxHash && !dmn.isPoSeBanned).foldl tryAddMN emptyList) := by
  rw [getMNUsageBySnapshot, buildQuorumSnapshot]
  rw [zip_map_append]
  exact foldl_usage _ (fun dmn => used.hasMN dmn.proTxHash) _

variable (hall : cycle.allMns.WellIndexed)

include hall

variable (env) in
/-- The list that a filter makes of the sorted masternodes. -/
lemma eligible_filtered (p : CDeterministicMN → Bool) :
    Keyed (((calculateQuorum env cycle.modifier cycle.allMns).filter p).foldl tryAddMN emptyList) ∧
    ∀ dmn, dmn ∈ eligible
        (((calculateQuorum env cycle.modifier cycle.allMns).filter p).foldl tryAddMN emptyList) ↔
      dmn ∈ eligible cycle.allMns ∧ p dmn = true := by
  have hmem : ∀ {dmn}, dmn ∈ (calculateQuorum env cycle.modifier cycle.allMns).filter p ↔
      dmn ∈ eligible cycle.allMns ∧ p dmn = true := by
    intro dmn
    rw [mem_filter, mem_calculateQuorum]
  obtain ⟨hpart, hget⟩ := partOf_foldl_tryAddMN _ hall fun dmn hdmn =>
    ((mem_eligible hall.proTxHash_eq).mp (hmem.mp hdmn).1).1
  refine ⟨hpart.keyed, fun dmn => ?_⟩
  rw [mem_eligible hpart.keyed, hget, and_iff_left rfl, hmem, mem_eligible hall.proTxHash_eq]
  tauto

variable (env params prev) in
lemma eligible_mnsNotUsedAtH :
    Keyed (mnsNotUsedAtH env params cycle prev) ∧
    ∀ dmn, dmn ∈ eligible (mnsNotUsedAtH env params cycle prev) ↔
      dmn ∈ eligible cycle.allMns ∧
        (mnsUsedAtH env params cycle prev).hasMN dmn.proTxHash = false := by
  obtain ⟨hpart, hget⟩ := partOf_foldl_tryAddMN (cycle.allMns.mns.filter fun dmn =>
    !(mnsUsedAtH env params cycle prev).hasMN dmn.proTxHash && !dmn.isPoSeBanned) hall
    fun dmn hdmn => hall.mem_mns_iff.mp (mem_filter.mp hdmn).1
  rw [← mnsNotUsedAtH] at hpart hget
  refine ⟨hpart.keyed, fun dmn => ?_⟩
  rw [mem_eligible hpart.keyed, hget, and_iff_left rfl, mem_filter, hall.mem_mns_iff,
    mem_eligible hall.proTxHash_eq, Bool.and_eq_true, Bool.not_eq_true', Bool.not_eq_true']
  tauto

/-- The key under which a masternode is sorted now. -/
def currentKey (cycle : QuorumCycle) (h : Uint256) : SortKey :=
  ((cycle.allMns.getMN h).map sortKey).getD ⟨0, ⟨0, 0⟩⟩

lemma sortKey_eq_currentKey (hmem : dmn ∈ eligible cycle.allMns) :
    sortKey dmn = currentKey cycle dmn.proTxHash := by
  rw [currentKey, ((mem_eligible hall.proTxHash_eq).mp hmem).1]
  rfl

variable (params) in
/-- **Sorting.** The decoder goes round the masternodes that the builder went round. -/
theorem combined_eq (hskip : skipRemovedMNs env cycle = true)
    (hformer : prev.Former cycle.allMns) (skipList : List Int) :
    (sortedCombinedMns env cycle (buildQuorumSnapshot env cycle
      (mnsUsedAtH env params cycle prev) skipList)).map proTxHash =
    (sortedCombinedMnsList env params cycle prev).map proTxHash := by
  rw [sortedCombinedMns, getMNUsageBySnapshot_eq, sortedCombinedMnsList, map_append,
    map_append]
  congr 1
  · obtain ⟨hkeyed, helig⟩ := eligible_filtered env hall fun dmn =>
      !(mnsUsedAtH env params cycle prev).hasMN dmn.proTxHash && !dmn.isPoSeBanned
    obtain ⟨hkeyed', helig'⟩ := eligible_mnsNotUsedAtH env params prev hall
    refine calculateQuorum_map_eq hkeyed hkeyed'
      (fun dmn hmem => sortKey_eq_currentKey hall ((helig dmn).mp hmem).1)
      (fun dmn hmem => sortKey_eq_currentKey hall ((helig' dmn).mp hmem).1) fun h => ?_
    refine exists_congr fun dmn => and_congr_left fun _ => ?_
    rw [helig, helig', Bool.and_eq_true, Bool.not_eq_true', Bool.not_eq_true']
    exact and_congr_right fun hmem =>
      and_iff_left ((mem_eligible hall.proTxHash_eq).mp hmem).2.1
  · obtain ⟨hkeyed, helig⟩ := eligible_filtered env hall fun dmn =>
      (mnsUsedAtH env params cycle prev).hasMN dmn.proTxHash
    refine calculateQuorum_map_eq hkeyed keyed_mnsUsedAtH
      (fun dmn hmem => sortKey_eq_currentKey hall ((helig dmn).mp hmem).1)
      (fun mn hmem => ?_) fun h => ?_
    · have hget := ((mem_eligible keyed_mnsUsedAtH).mp hmem).1
      obtain ⟨-, hmember, dmn, hdmn, -⟩ := used_entry hskip hformer hget
      rw [currentKey, hdmn, ← (hmember.same dmn hdmn).2]
      rfl
    · rw [exists_eligible_used_iff hskip hformer]
      constructor
      · rintro ⟨dmn, hmem, rfl⟩
        exact ((helig dmn).mp hmem).2
      · intro hused
        obtain ⟨dmn, hmem, rfl⟩ := exists_eligible_of_used hskip hformer hall hused
        exact ⟨dmn, (helig dmn).mpr ⟨hmem, hused⟩, rfl⟩

/-- No masternode is sorted in twice. -/
lemma nodup_combined : ((sortedCombinedMnsList env params cycle prev).map proTxHash).Nodup := by
  obtain ⟨hkeyed, helig⟩ := eligible_mnsNotUsedAtH env params prev hall
  rw [sortedCombinedMnsList, map_append]
  refine (nodup_calculateQuorum hkeyed).append (nodup_calculateQuorum keyed_mnsUsedAtH) ?_
  intro h hunused hused
  obtain ⟨dmn, hdmn, rfl⟩ := mem_map.mp hunused
  obtain ⟨mn, hmn, hhash⟩ := mem_map.mp hused
  have hnot := ((helig dmn).mp (mem_calculateQuorum.mp hdmn)).2
  have hget := ((mem_eligible keyed_mnsUsedAtH).mp (mem_calculateQuorum.mp hmn)).1
  rw [hasMN, ← hhash, hget] at hnot
  cases hnot

end Combined

end HootChain.Llmq.Rotation

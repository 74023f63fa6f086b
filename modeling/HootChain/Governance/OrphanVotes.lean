import HootChain.Governance.Object

/-!
# Orphan Votes (`governance/governance.cpp`, `cachemultimap.h`)

Votes that arrive before their object wait in `cmmapOrphanVotes`.
`AddGovernanceObject` copies the object into `mapObjects` and then runs
`CheckOrphanVotes` on the object it was given, not on the copy: the votes are
processed, relayed and erased, and the stored object does not see them.
-/

namespace HootChain.Governance

open Primitives List Function

/-! ## `CacheMultiMap` -/

/-- `CacheMultiMap<K, V>`: the list of items and, per key, the `std::map` of its values.
An iterator into the list is represented by the item it points to. -/
structure CacheMultiMap (K V : Type) where
  listItems : List (K × V)
  mapIndex : K → List V

namespace CacheMultiMap

variable {K V : Type} [DecidableEq K] [DecidableEq V]

def getAll (m : CacheMultiMap K V) (key : K) : List V := m.mapIndex key

/-- `Erase(key, value)`, with `less` the order of the values: what `std::map::find` finds is
an entry that is neither less nor greater. -/
def erase (less : V → V → Bool) (m : CacheMultiMap K V) (key : K) (value : V) : CacheMultiMap K V :=
  match (m.mapIndex key).find? (fun v => !less v value && !less value v) with
  | none => m
  | some v =>
    { listItems := m.listItems.erase (key, v)
      mapIndex := update m.mapIndex key ((m.mapIndex key).erase v) }

/-- An entry that is less or greater than the erased value stays. -/
lemma mem_getAll_erase {less : V → V → Bool} {m : CacheMultiMap K V} {key : K} {value v : V}
    (hmem : v ∈ m.getAll key) (hne : (!less v value && !less value v) = false) :
    v ∈ (m.erase less key value).getAll key := by
  unfold erase
  split
  · exact hmem
  · next found hfound =>
    have hequiv := find?_some hfound
    have hdiff : v ≠ found := fun h => by
      subst h
      exact absurd (hne.symm.trans hequiv) (by decide)
    change v ∈ update m.mapIndex key ((m.mapIndex key).erase found) key
    rw [update_self]
    exact (mem_erase_of_ne hdiff).mpr hmem

end CacheMultiMap

/-! ## The manager -/

/-- `vote_time_pair_t`: a vote and its expiration time. -/
abbrev VoteTimePair := CGovernanceVote × Int

/-- `operator<` of `std::pair`. -/
def voteTimePairLess (a b : VoteTimePair) : Bool :=
  a.1.less b.1 || (!b.1.less a.1 && decide (a.2 < b.2))

/-- `CGovernanceManager`, the parts the two functions touch, and what they send out:
relayed inventories and notifications. -/
structure CGovernanceManager where
  mapObjects : Uint256 → Option CGovernanceObject
  cmmapOrphanVotes : CacheMultiMap Uint256 VoteTimePair
  log : VoteLog := {}
  relayedVotes : List VoteHash := []
  relayedObjects : List Uint256 := []

section

variable (node : NodeView)

/-- `CGovernanceVote::Relay`. -/
def CGovernanceManager.relayVote (vote : CGovernanceVote) (manager : CGovernanceManager) :
    CGovernanceManager :=
  if node.isSynced && (node.getMNByCollateral vote.masternodeOutpoint).isSome then
    { manager with relayedVotes := manager.relayedVotes ++ [vote.getHash] }
  else
    manager

/-- `cmmapOrphanVotes.Erase(nHash, pairVote)`. -/
def CGovernanceManager.eraseOrphan (nHash : Uint256) (pairVote : VoteTimePair)
    (manager : CGovernanceManager) : CGovernanceManager :=
  { manager with
    cmmapOrphanVotes := manager.cmmapOrphanVotes.erase voteTimePairLess nHash pairVote }

/-- One round of the loop of `CheckOrphanVotes`, on the object `govobj` refers to. -/
def checkOrphanVote (nHash : Uint256) (state : CGovernanceObject × CGovernanceManager)
    (pairVote : VoteTimePair) : CGovernanceObject × CGovernanceManager :=
  if pairVote.2 < node.adjustedTime then
    (state.1, state.2.eraseOrphan nHash pairVote)
  else
    -- `fRateChecksEnabled` is off during the pass
    match processVote node false pairVote.1 state.1 state.2.log with
    | (.ok _, govobj, log) =>
      (govobj, ({ state.2 with log := log }.relayVote node pairVote.1).eraseOrphan nHash pairVote)
    | (.error _, govobj, log) => (govobj, { state.2 with log := log })

/-- `CGovernanceManager::CheckOrphanVotes`: the object after the pass, and the manager. -/
def checkOrphanVotes (govobj : CGovernanceObject) (manager : CGovernanceManager) :
    CGovernanceObject × CGovernanceManager :=
  (manager.cmmapOrphanVotes.getAll govobj.hash).foldl (checkOrphanVote node govobj.hash)
    (govobj, manager)

/-- The checks `AddGovernanceObject` makes through other components: validity of the object
and registration of a trigger. -/
structure ObjectChecks where
  isValidLocally : CGovernanceObject → Bool
  addNewTrigger : Uint256 → Bool

/-- `CGovernanceManager::AddGovernanceObject`: the caller's object afterwards, and the
manager. `emplace` stores a copy. -/
def addGovernanceObject (checks : ObjectChecks) (govobj : CGovernanceObject)
    (manager : CGovernanceManager) : CGovernanceObject × CGovernanceManager :=
  let nHash := govobj.hash
  let govobj := govobj.updateSentinelVariables node
  if !checks.isValidLocally govobj then (govobj, manager)
  else
    match manager.mapObjects nHash with
    | some _ => (govobj, manager)
    | none =>
      let store (obj : CGovernanceObject) (manager : CGovernanceManager) : CGovernanceManager :=
        { manager with mapObjects := update manager.mapObjects nHash (some obj) }
      if govobj.type == .trigger && !checks.addNewTrigger nHash then
        (govobj, store (govobj.prepareDeletion node.time) manager)
      else
        let manager := store govobj manager
        let manager :=
          if node.isSynced then
            { manager with relayedObjects := manager.relayedObjects ++ [nHash] }
          else manager
        checkOrphanVotes node govobj manager

end

/-! ## The pass over the orphan votes -/

/-- The index compares pairs by expiration time alone: no vote is less than another. -/
lemma voteTimePairLess_eq (a b : VoteTimePair) : voteTimePairLess a b = decide (a.2 < b.2) := by
  simp [voteTimePairLess, CGovernanceVote.less_eq_false]

section Pass

variable {node : NodeView} {nHash : Uint256} {govobj : CGovernanceObject}
  {manager : CGovernanceManager}

/-- A round either drops an expired pair, or processes the vote on the object. -/
lemma checkOrphanVote_fst (state : CGovernanceObject × CGovernanceManager)
    (pairVote : VoteTimePair) :
    (checkOrphanVote node nHash state pairVote).1 =
      if pairVote.2 < node.adjustedTime then state.1
      else (processVote node false pairVote.1 state.1 state.2.log).2.1 := by
  unfold checkOrphanVote
  by_cases hexp : pairVote.2 < node.adjustedTime
  · rw [if_pos hexp, if_pos hexp]
  · rw [if_neg hexp, if_neg hexp]
    split <;> next heq => rw [heq]

/-- A round that accepts nothing changes no vote of the object, keeps every unexpired pair
and does not touch the stored objects. -/
structure KeepsOrphans (node : NodeView) (nHash : Uint256)
    (before after : CGovernanceObject × CGovernanceManager) : Prop where
  sameVotes : SameVotes after.1 before.1
  keeps : ∀ pairVote ∈ before.2.cmmapOrphanVotes.getAll nHash,
    ¬ pairVote.2 < node.adjustedTime → pairVote ∈ after.2.cmmapOrphanVotes.getAll nHash

lemma checkOrphanVote_keepsOrphans {pairVote : VoteTimePair}
    (h : pairVote.2 < node.adjustedTime ∨ ¬ Acceptable node govobj pairVote.1) :
    KeepsOrphans node nHash (govobj, manager)
      (checkOrphanVote node nHash (govobj, manager) pairVote) := by
  by_cases hexp : pairVote.2 < node.adjustedTime
  · refine ⟨by rw [checkOrphanVote_fst, if_pos hexp]; exact SameVotes.refl _, ?_⟩
    intro other hmem hlive
    rw [checkOrphanVote, if_pos hexp]
    refine CacheMultiMap.mem_getAll_erase hmem ?_
    rw [voteTimePairLess_eq, voteTimePairLess_eq]
    have hlater : pairVote.2 < other.2 := by omega
    simp [hlater]
  · have hnot := h.resolve_left hexp
    rcases processVote_cases node pairVote.1 govobj manager.log with
      ⟨hacc, -⟩ | ⟨-, e, obj', log', hsame, heq⟩
    · exact absurd hacc hnot
    · have hround : checkOrphanVote node nHash (govobj, manager) pairVote =
          (obj', { manager with log := log' }) := by
        rw [checkOrphanVote, if_neg hexp, heq]
      rw [hround]
      exact ⟨hsame, fun other hmem _ => hmem⟩

lemma foldl_checkOrphanVote_keepsOrphans (pairs : List VoteTimePair)
    (state : CGovernanceObject × CGovernanceManager)
    (h : ∀ pairVote ∈ pairs,
      pairVote.2 < node.adjustedTime ∨ ¬ Acceptable node state.1 pairVote.1) :
    KeepsOrphans node nHash state (pairs.foldl (checkOrphanVote node nHash) state) := by
  induction pairs generalizing state with
  | nil => exact ⟨SameVotes.refl _, fun _ hmem _ => hmem⟩
  | cons pairVote pairs ih =>
    obtain ⟨obj, manager⟩ := state
    have hstep : KeepsOrphans node nHash (obj, manager) _ :=
      checkOrphanVote_keepsOrphans (h pairVote mem_cons_self)
    have hrest := ih (checkOrphanVote node nHash (obj, manager) pairVote) fun other hmem =>
      (h other (mem_cons_of_mem _ hmem)).imp_right
        fun hnot hacc => hnot (hacc.congr hstep.sameVotes)
    exact ⟨hrest.sameVotes.trans hstep.sameVotes, fun other hmem hlive =>
      hrest.keeps other (hstep.keeps other hmem hlive) hlive⟩

lemma mapObjects_foldl_checkOrphanVote (pairs : List VoteTimePair)
    (state : CGovernanceObject × CGovernanceManager) :
    (pairs.foldl (checkOrphanVote node nHash) state).2.mapObjects = state.2.mapObjects := by
  induction pairs generalizing state with
  | nil => rfl
  | cons pairVote pairs ih =>
    rw [foldl_cons, ih, checkOrphanVote]
    split
    · rfl
    · split
      · rw [CGovernanceManager.relayVote]
        split <;> rfl
      · rfl

end Pass

/-! ## Adding an object -/

/-- `AddGovernanceObject` keeps the object: it is valid, not there yet, and if it is a
trigger it could be registered. -/
structure Added (node : NodeView) (checks : ObjectChecks) (govobj : CGovernanceObject)
    (manager : CGovernanceManager) : Prop where
  valid : checks.isValidLocally (govobj.updateSentinelVariables node) = true
  fresh : manager.mapObjects govobj.hash = none
  registered : govobj.type = .trigger → checks.addNewTrigger govobj.hash = true

/-- After the call every unexpired orphan vote of the object that is acceptable for it is
counted in the stored object, and so is every unexpired orphan vote that was removed. -/
structure OrphansCounted (node : NodeView) (checks : ObjectChecks) (govobj : CGovernanceObject)
    (manager : CGovernanceManager) : Prop where
  counted : ∀ pairVote ∈ manager.cmmapOrphanVotes.getAll govobj.hash,
    ¬ pairVote.2 < node.adjustedTime → Acceptable node govobj pairVote.1 →
    ∃ stored, (addGovernanceObject node checks govobj manager).2.mapObjects govobj.hash =
      some stored ∧ Counted stored pairVote.1
  notLost : ∀ pairVote ∈ manager.cmmapOrphanVotes.getAll govobj.hash,
    ¬ pairVote.2 < node.adjustedTime →
    pairVote ∉ (addGovernanceObject node checks govobj manager).2.cmmapOrphanVotes.getAll
      govobj.hash →
    ∃ stored, (addGovernanceObject node checks govobj manager).2.mapObjects govobj.hash =
      some stored ∧ Counted stored pairVote.1

section Add

variable {node : NodeView} {checks : ObjectChecks} {govobj : CGovernanceObject}
  {manager : CGovernanceManager}

/-- The call on an added object: a copy is stored, then the pass runs on the original. -/
lemma addGovernanceObject_eq (h : Added node checks govobj manager) :
    ∃ manager', manager'.cmmapOrphanVotes = manager.cmmapOrphanVotes ∧
      manager'.mapObjects govobj.hash = some (govobj.updateSentinelVariables node) ∧
      addGovernanceObject node checks govobj manager =
        checkOrphanVotes node (govobj.updateSentinelVariables node) manager' := by
  have htype := (sameVotes_updateSentinelVariables node govobj).type
  have htrigger : ((govobj.updateSentinelVariables node).type == .trigger &&
      !checks.addNewTrigger govobj.hash) = false := by
    rw [htype]
    cases hbeq : govobj.type == .trigger with
    | false => rfl
    | true => simp [h.registered (by simpa using hbeq)]
  unfold addGovernanceObject
  simp only [h.valid, h.fresh, htrigger, Bool.not_true, Bool.false_eq_true, if_false]
  cases node.isSynced with
  | false =>
    refine ⟨_, ?_, ?_, rfl⟩
    · rfl
    · exact update_self ..
  | true =>
    refine ⟨_, ?_, ?_, rfl⟩
    · rfl
    · exact update_self ..

/-- The stored object is the copy made before the pass. -/
lemma stored_eq (h : Added node checks govobj manager) :
    (addGovernanceObject node checks govobj manager).2.mapObjects govobj.hash =
      some (govobj.updateSentinelVariables node) := by
  obtain ⟨manager', -, hstored, heq⟩ := addGovernanceObject_eq h
  rw [heq, checkOrphanVotes, mapObjects_foldl_checkOrphanVote]
  exact hstored

end Add

/-- **Orphan votes and the stored object.** When an object is added, its unexpired
acceptable orphan votes are counted in the stored object, and none is removed uncounted,
exactly when there is no unexpired acceptable orphan vote. -/
theorem addGovernanceObject_counts_iff (node : NodeView) (checks : ObjectChecks)
    (govobj : CGovernanceObject) (manager : CGovernanceManager)
    (hadded : Added node checks govobj manager) (hco : Coherent govobj) :
    OrphansCounted node checks govobj manager ↔
      ∀ pairVote ∈ manager.cmmapOrphanVotes.getAll govobj.hash,
        pairVote.2 < node.adjustedTime ∨ ¬ Acceptable node govobj pairVote.1 := by
  have hsame := sameVotes_updateSentinelVariables node govobj
  constructor
  · intro hall pairVote hmem
    by_contra hnot
    rw [not_or, not_not] at hnot
    obtain ⟨stored, hstored, hcounted⟩ := hall.counted pairVote hmem hnot.1 hnot.2
    cases (stored_eq hadded).symm.trans hstored
    exact hnot.2.not_counted hco (hcounted.congr hsame)
  · intro hnone
    refine ⟨fun pairVote hmem hlive hacc => ?_, fun pairVote hmem hlive hgone => ?_⟩
    · exact absurd hacc ((hnone pairVote hmem).resolve_left hlive)
    · -- nothing is accepted, so only expired pairs leave the map
      obtain ⟨manager', horphans, -, heq⟩ := addGovernanceObject_eq hadded
      have hkeep : KeepsOrphans node (govobj.updateSentinelVariables node).hash _ _ :=
        foldl_checkOrphanVote_keepsOrphans
          (manager'.cmmapOrphanVotes.getAll (govobj.updateSentinelVariables node).hash)
          (govobj.updateSentinelVariables node, manager')
          (by
            rw [horphans, hsame.hash]
            exact fun other hother =>
              (hnone other hother).imp_right fun hnot hacc => hnot (hacc.congr hsame))
      refine absurd ?_ hgone
      rw [heq, ← hsame.hash]
      exact hkeep.keeps pairVote (by rw [horphans, hsame.hash]; exact hmem) hlive

/-! ## A lost vote -/

/-- A node at time 1000 with one masternode, whose signatures all verify. -/
def singleMasternodeView : NodeView where
  adjustedTime := 1000
  time := 1000
  isSynced := true
  getMNByCollateral o :=
    if o = ⟨1, 0⟩ then
      some { proTxHash := 1, votingWeight := 1, keyIDVoting := 1, pubKeyOperator := 1 }
    else none
  validWeightedMNsCount := 1
  nGovernanceMinQuorum := 1
  hashString _ := ""
  checkVotingKeySignature _ _ := true
  checkOperatorSignature _ _ := true

/-- A funding vote, yes, for object 7. -/
def orphanVote : CGovernanceVote :=
  { masternodeOutpoint := ⟨1, 0⟩, nParentHash := 7, nVoteOutcome := 1, nVoteSignal := 1
    nTime := 900, vchSig := [] }

/-- A manager without objects that holds the given orphan votes for object 7. -/
def orphanManager (pairs : List VoteTimePair) : CGovernanceManager where
  mapObjects _ := none
  cmmapOrphanVotes :=
    { listItems := pairs.map fun pairVote => (7, pairVote)
      mapIndex := fun key => if key = 7 then pairs else [] }

/-- Checks that let every object pass. -/
def passingChecks : ObjectChecks := { isValidLocally := fun _ => true, addNewTrigger := fun _ => true }

/-- Proposal 7 as it comes from the network, without votes. -/
def newProposal : CGovernanceObject := { hash := 7, type := .proposal }

lemma newProposal_added (pairs : List VoteTimePair) :
    Added singleMasternodeView passingChecks newProposal (orphanManager pairs) :=
  ⟨rfl, rfl, fun h => nomatch h⟩

lemma newProposal_coherent : Coherent newProposal := coherent_of_fileVotes_nil rfl

/-- An expired orphan vote may go uncounted. -/
theorem addGovernanceObject_counts_expired :
    Added singleMasternodeView passingChecks newProposal (orphanManager [(orphanVote, 999)]) ∧
      Coherent newProposal ∧
      OrphansCounted singleMasternodeView passingChecks newProposal
        (orphanManager [(orphanVote, 999)]) :=
  ⟨newProposal_added _, newProposal_coherent,
    (addGovernanceObject_counts_iff _ _ _ _ (newProposal_added _) newProposal_coherent).mpr (by
        intro pairVote hmem
        rw [show pairVote = (orphanVote, 999) from mem_singleton.mp hmem]
        exact .inl (by decide))⟩

/-- The unexpired orphan vote is relayed and erased; the stored object has no vote. -/
theorem addGovernanceObject_loses_vote :
    let after := (addGovernanceObject singleMasternodeView passingChecks newProposal
      (orphanManager [(orphanVote, 2000)])).2
    after.relayedVotes = [orphanVote.getHash] ∧ after.cmmapOrphanVotes.getAll 7 = [] ∧
      (after.mapObjects 7).map CGovernanceObject.fileVotes = some [] ∧
      ¬ OrphansCounted singleMasternodeView passingChecks newProposal
        (orphanManager [(orphanVote, 2000)]) := by
  refine ⟨by decide, by decide, by decide, fun h => ?_⟩
  have hacc : Acceptable singleMasternodeView newProposal orphanVote :=
    ⟨by decide, by decide, by decide, by decide, by unfold StampLt; decide, by decide⟩
  obtain ⟨stored, hstored, hcounted⟩ :=
    h.counted (orphanVote, 2000) (mem_singleton.mpr rfl) (by decide) hacc
  cases (stored_eq (newProposal_added _)).symm.trans hstored
  exact hacc.not_counted newProposal_coherent
    (hcounted.congr (sameVotes_updateSentinelVariables _ _))

end HootChain.Governance

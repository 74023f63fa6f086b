import HootChain.Evo.MnList

/-!
# Reachable Masternode Lists

What can be said of the three maps of a list that has been built from the empty list by
successful calls of `AddMN`, `UpdateMN` and `RemoveMN`, whatever the order.

The operations do not treat null values alike. `AddMN` and `RemoveMN` refuse a
masternode with a null owner key, while `UpdateMN` drops the key from the map; and
`UpdateMN` takes its caller's word for it that the masternode is one of the list. Operator keys
are compared by their points but entered in the map by their bytes, so that `AddMN` takes one
key twice, once in each scheme, and `UpdateMN` leaves the entry of a key that is only written
in the other scheme.
-/

namespace HootChain.Evo

open Primitives CDeterministicMN Option

/-- The properties by which a masternode can be found. -/
def CDeterministicMN.Has (dmn : CDeterministicMN) : UniqueProperty → Prop
  | .collateral outpoint => outpoint = dmn.collateralOutpoint
  | .addr service => service = dmn.pdmnState.addr ∧ service ≠ .null
  | .owner keyID => keyID = dmn.pdmnState.keyIDOwner ∧ keyID ≠ 0
  | .operator pubKey => pubKey = dmn.pdmnState.pubKeyOperator ∧ pubKey.isValid = true

namespace CDeterministicMNList

/-- Lists built from the empty one by operations that do not throw. A masternode that is
updated by reference is the one that the list has, and no update writes its operator key in
the other scheme. -/
inductive Reachable : CDeterministicMNList → Prop
  | initial (blockHash : Uint256) (height : Int) : Reachable (.initial blockHash height)
  | addMN {l l' : CDeterministicMNList} {dmn : CDeterministicMN} {fBumpTotalCount : Bool}
      (hl : Reachable l) (hrun : l.addMN dmn fBumpTotalCount = .ok l') : Reachable l'
  | updateMN {l l' : CDeterministicMNList} {oldDmn : CDeterministicMN}
      {pdmnState : CDeterministicMNState} (hl : Reachable l)
      (hold : l.getMN oldDmn.proTxHash = some oldDmn)
      (hscheme : oldDmn.pdmnState.pubKeyOperator.KeepsScheme pdmnState.pubKeyOperator)
      (hrun : l.updateMN oldDmn pdmnState = .ok l') : Reachable l'
  | updateMNByHash {l l' : CDeterministicMNList} {proTxHash : Uint256}
      {pdmnState : CDeterministicMNState} (hl : Reachable l)
      (hscheme : ∀ oldDmn, l.getMN proTxHash = some oldDmn →
        oldDmn.pdmnState.pubKeyOperator.KeepsScheme pdmnState.pubKeyOperator)
      (hrun : l.updateMNByHash proTxHash pdmnState = .ok l') : Reachable l'
  | updateMNByDiff {l l' : CDeterministicMNList} {oldDmn : CDeterministicMN}
      {stateDiff : CDeterministicMNStateDiff} (hl : Reachable l)
      (hold : l.getMN oldDmn.proTxHash = some oldDmn)
      (hscheme : oldDmn.pdmnState.pubKeyOperator.KeepsScheme
        (stateDiff.applyToState oldDmn.pdmnState).pubKeyOperator)
      (hrun : l.updateMNByDiff oldDmn stateDiff = .ok l') : Reachable l'
  | removeMN {l l' : CDeterministicMNList} {proTxHash : Uint256} (hl : Reachable l)
      (hrun : l.removeMN proTxHash = .ok l') : Reachable l'

section Reach

variable {l l' : CDeterministicMNList} {dmn dmn' : CDeterministicMN} {p : UniqueProperty}

section

variable (hl : l.Indexed)

include hl

lemma Indexed.updateMNByHash {proTxHash : Uint256}
    {state : CDeterministicMNState} (hscheme : ∀ oldDmn, l.getMN proTxHash = some oldDmn →
      oldDmn.pdmnState.pubKeyOperator.KeepsScheme state.pubKeyOperator)
    (hrun : l.updateMNByHash proTxHash state = .ok l') : l'.Indexed := by
  cases hget : l.getMN proTxHash with
  | none => simp [CDeterministicMNList.updateMNByHash, hget] at hrun
  | some oldDmn =>
    simp only [CDeterministicMNList.updateMNByHash, hget] at hrun
    have hold : l.getMN oldDmn.proTxHash = some oldDmn := by rw [hl.proTxHash_eq hget, hget]
    exact hl.updateMN hold (hscheme oldDmn hget) hrun

omit hl in
/-- The maps of a reachable list fit together. -/
lemma Reachable.indexed (h : Reachable l) : l.Indexed := by
  induction h with
  | initial blockHash height => exact (WellIndexed.initial blockHash height).indexed
  | addMN _ hrun ih => exact ih.addMN hrun
  | updateMN _ hold hscheme hrun ih => exact ih.updateMN hold hscheme hrun
  | updateMNByHash _ hscheme hrun ih => exact ih.updateMNByHash hscheme hrun
  | updateMNByDiff _ hold hscheme hrun ih => exact ih.updateMN hold hscheme hrun
  | removeMN _ hrun ih => exact ih.removeMN hrun

lemma Indexed.has_iff {h : Uint256} (hget : l.getMN h = some dmn) :
    dmn.Has p ↔ p ∈ dmn.properties ∧ p.isNull = false := by
  cases p with
  | collateral outpoint =>
    rw [collateral_mem_properties]
    exact ⟨fun heq => ⟨heq, heq ▸ hl.collateral hget⟩, fun hp => hp.1⟩
  | addr | owner | operator => simp [Has, UniqueProperty.isNull]

lemma Indexed.keeps_iff {h : Uint256} :
    l.Keeps h p ↔ ∃ dmn, l.getMN h = some dmn ∧ dmn.Has p := by
  constructor
  · rintro ⟨⟨dmn, hget, hmem⟩, hnull⟩
    exact ⟨dmn, hget, (hl.has_iff hget).mpr ⟨hmem, hnull⟩⟩
  · rintro ⟨dmn, hget, hhas⟩
    obtain ⟨hmem, hnull⟩ := (hl.has_iff hget).mp hhas
    exact ⟨⟨dmn, hget, hmem⟩, hnull⟩

lemma Indexed.has_unique (hmem : dmn ∈ l.mns) (hmem' : dmn' ∈ l.mns)
    (hhas : dmn.Has p) (hhas' : dmn'.Has p) : dmn = dmn' := by
  rw [hl.mem_mns_iff] at hmem hmem'
  have hkeeps := hl.keeps_iff.mpr ⟨dmn, hmem, hhas⟩
  have hkeeps' := hl.keeps_iff.mpr ⟨dmn', hmem', hhas'⟩
  rw [hl.properties.owner_unique hkeeps hkeeps', hmem'] at hmem
  exact (some.inj hmem).symm

lemma Indexed.getUniquePropertyMN_eq_some :
    l.getUniquePropertyMN p = some dmn ↔ dmn ∈ l.mns ∧ dmn.Has p := by
  rw [hl.mem_mns_iff, getUniquePropertyMN, bind_eq_some_iff]
  constructor
  · rintro ⟨⟨h, n⟩, hentry, hget⟩
    obtain ⟨mn, hmn, hhas⟩ := hl.keeps_iff.mp ((hl.properties p h n).mp hentry).2
    obtain rfl : mn = dmn := some.inj (hmn.symm.trans hget)
    rw [hl.proTxHash_eq hget]
    exact ⟨hget, hhas⟩
  · rintro ⟨hget, hhas⟩
    exact ⟨_, hl.properties.get (hl.keeps_iff.mpr ⟨dmn, hget, hhas⟩), hget⟩

lemma Indexed.getMNByInternalId_eq_some {i : Nat} :
    l.getMNByInternalId i = some dmn ↔ dmn ∈ l.mns ∧ dmn.internalId = i := by
  rw [hl.mem_mns_iff, getMNByInternalId, bind_eq_some_iff]
  constructor
  · rintro ⟨h, hid, hget⟩
    obtain ⟨mn, hmn, rfl⟩ := (hl.internalIds i h).mp hid
    obtain rfl : mn = dmn := some.inj (hmn.symm.trans hget)
    rw [hl.proTxHash_eq hget]
    exact ⟨hget, rfl⟩
  · rintro ⟨hget, rfl⟩
    exact ⟨_, (hl.internalIds _ _).mpr ⟨dmn, hget, rfl⟩, hget⟩

end

/-- **The maps of a reachable list.** The id map and the property map contain the ids and the
properties of the masternodes and nothing else, each property once; no two masternodes share a
property; and the lookups return the masternode with the id or the property. -/
theorem reachable_maps (h : Reachable l) :
    (∀ i proTxHash, l.mnInternalIdMap[i]? = some proTxHash ↔
      ∃ dmn, l.getMN proTxHash = some dmn ∧ dmn.internalId = i) ∧
    (∀ p proTxHash n, l.mnUniquePropertyMap p = some (proTxHash, n) ↔
      n = 1 ∧ ∃ dmn, l.getMN proTxHash = some dmn ∧ dmn.Has p) ∧
    (∀ p, ∀ dmn ∈ l.mns, ∀ dmn' ∈ l.mns, dmn.Has p → dmn'.Has p → dmn = dmn') ∧
    (∀ outpoint dmn, l.getMNByCollateral outpoint = some dmn ↔
      dmn ∈ l.mns ∧ dmn.collateralOutpoint = outpoint) ∧
    (∀ service dmn, l.getMNByService service = some dmn ↔
      dmn ∈ l.mns ∧ dmn.pdmnState.addr = service ∧ service ≠ .null) ∧
    (∀ i dmn, l.getMNByInternalId i = some dmn ↔ dmn ∈ l.mns ∧ dmn.internalId = i) := by
  have hl := h.indexed
  refine ⟨hl.internalIds, ?_, ?_, ?_, ?_, ?_⟩
  · intro p proTxHash n
    rw [hl.properties, hl.keeps_iff]
  · intro p dmn hmem dmn' hmem' hhas hhas'
    exact hl.has_unique hmem hmem' hhas hhas'
  · intro outpoint dmn
    rw [getMNByCollateral, hl.getUniquePropertyMN_eq_some, Has, eq_comm]
  · intro service dmn
    rw [getMNByService, hl.getUniquePropertyMN_eq_some, Has, @eq_comm _ service]
  · intro i dmn
    exact hl.getMNByInternalId_eq_some

end Reach

/-! ## A list with one masternode -/

/-- A masternode without address and operator key. -/
def firstMN : CDeterministicMN where
  internalId := 0
  proTxHash := 1
  collateralOutpoint := ⟨7, 0⟩
  nOperatorReward := 0
  nType := .regular
  pdmnState := { keyIDOwner := 5 }

lemma exists_addMN_firstMN : ∃ l, (initial 0 0).addMN firstMN true = .ok l := by
  apply exists_addMN (WellIndexed.initial 0 0) ⟨by decide, by decide⟩ rfl
  · intro h mn hmn
    simp [getMN, initial] at hmn
  · rintro p - h ⟨mn, hmn, -⟩
    simp [getMN, initial] at hmn

theorem reachable_maps_firstMN : ∃ l, (initial 0 0).addMN firstMN true = .ok l ∧
    l.getMNByCollateral ⟨7, 0⟩ = some firstMN := by
  obtain ⟨l, hadd⟩ := exists_addMN_firstMN
  have hreach : Reachable l := .addMN (.initial 0 0) hadd
  obtain ⟨-, -, -, hcollateral, -⟩ := reachable_maps hreach
  refine ⟨l, hadd, (hcollateral _ _).mpr ⟨?_, rfl⟩⟩
  rw [hreach.indexed.mem_mns_iff, getMN_addMN hadd, if_pos rfl]

/-- The masternode with an operator key. -/
def keyedMN (legacy : Bool) : CDeterministicMN :=
  firstMN.withState { keyIDOwner := 5, pubKeyOperator := .key 3 legacy }

/-- Another masternode with the same point for a key, in the scheme of version 2. -/
def basicMN : CDeterministicMN where
  internalId := 1
  proTxHash := 2
  collateralOutpoint := ⟨8, 0⟩
  nOperatorReward := 0
  nType := .regular
  pdmnState := { nVersion := basicBlsVersion, keyIDOwner := 6, pubKeyOperator := .key 3 false }

/-- An update to a null owner key drops the key from the property map, and an update of a
masternode that is not in the list enters it without its id. Two masternodes can have one
operator key in the two schemes, and an update from the one scheme to the other leaves the map
with the old entry. -/
theorem updateMN_breaks_maps :
    (∃ l l', (initial 0 0).addMN firstMN true = .ok l ∧ l.updateMN firstMN {} = .ok l' ∧
      l'.getMN 1 = some (firstMN.withState {}) ∧ l'.mnUniquePropertyMap (.owner 0) = none) ∧
    (∃ l, (initial 0 0).updateMN firstMN firstMN.pdmnState = .ok l ∧
      l.getMN 1 = some firstMN ∧ l.mnInternalIdMap[firstMN.internalId]? = none) ∧
    (∃ l l', (initial 0 0).addMN (keyedMN true) true = .ok l ∧ l.addMN basicMN true = .ok l' ∧
      l'.getMN 1 = some (keyedMN true) ∧ l'.getMN 2 = some basicMN ∧
      (keyedMN true).pdmnState.pubKeyOperator.same basicMN.pdmnState.pubKeyOperator = true) ∧
    (∃ l l', (initial 0 0).addMN (keyedMN true) true = .ok l ∧
      l.updateMN (keyedMN true) (keyedMN false).pdmnState = .ok l' ∧
      l'.getMN 1 = some (keyedMN false) ∧
      l'.mnUniquePropertyMap (.operator (.key 3 true)) = some (1, 1) ∧
      l'.mnUniquePropertyMap (.operator (.key 3 false)) = none) := by
  refine ⟨⟨_, _, rfl, rfl, rfl, rfl⟩, ⟨_, rfl, rfl, rfl⟩, ?_, ?_⟩
  · exact ⟨_, _, rfl, rfl, rfl, rfl, rfl⟩
  · exact ⟨_, _, rfl, rfl, rfl, rfl, rfl⟩

end CDeterministicMNList

end HootChain.Evo
